import RuleTrade.Execution.CompatibilitySelection

/-! Truth of Condition trees. A tree that is decided stays decided when more of its
leaves are, and a count over its children is decided exactly when all answers to
the unknown ones agree. -/

namespace RuleTrade

open Library

section Leaves

mutual

/-- Conditions of a tree that no connective is made of. -/
def Condition.leaves : Condition → List Condition
  | .not _ child => child.leaves
  | .booleanGroup _ _ children | .nOfM _ _ children => Condition.allLeaves children
  | leaf => [leaf]

def Condition.allLeaves : List Condition → List Condition
  | [] => []
  | child :: rest => child.leaves ++ Condition.allLeaves rest

end

/-- Where a Condition is evaluated. -/
structure ConditionSite where
  decision : Decision
  runtime : Runtime
  bindingId : Option String := none
  members : List String := []
  candidate : Option String := none

namespace ConditionSite

/-- Outcome of a Condition at a site. -/
def outcome (site : ConditionSite) (c : Condition) : Except ProgramError Truth :=
  (condition site.decision site.runtime site.bindingId site.members c site.candidate).result

def outcomes (site : ConditionSite) (children : List Condition) :
    Except ProgramError (List Truth) :=
  (conditions site.decision site.runtime site.bindingId site.members children
    site.candidate).result

/-- Both sites give the Condition a truth, and the second knows what the first does. -/
def Refined (site refined : ConditionSite) (c : Condition) : Prop :=
  ∃ s t, site.outcome c = .ok s ∧ refined.outcome c = .ok t ∧ s.Refines t

end ConditionSite

end Leaves

section Monotone

variable {site refined : ConditionSite}

theorem outcome_not {id : String} {child : Condition} {t : Truth} (h : site.outcome child = .ok t) :
    site.outcome (.not id child) = .ok t.not := by
  show (condition _ _ _ _ _ _).result = _
  rw [condition]
  exact Logged.result_bind_of_ok h

theorem outcome_nOfM {id : String} {minimum : Nat} {children : List Condition}
    {values : List Truth} (h : site.outcomes children = .ok values) :
    site.outcome (.nOfM id minimum children) = .ok (Truth.atLeast minimum values) := by
  show (condition _ _ _ _ _ _).result = _
  rw [condition]
  exact Logged.result_bind_of_ok h

theorem outcome_booleanGroup {id : String} {kind : GroupKind} {children : List Condition}
    {values : List Truth} (h : site.outcomes children = .ok values) :
    site.outcome (.booleanGroup id kind children) = .ok (match kind with
      | .all => Truth.all values
      | .any => Truth.any values) := by
  show (condition _ _ _ _ _ _).result = _
  rw [condition]
  exact Logged.result_bind_of_ok h

theorem outcomes_cons {child : Condition} {rest : List Condition} {t : Truth}
    {values : List Truth} (hFirst : site.outcome child = .ok t)
    (hRest : site.outcomes rest = .ok values) :
    site.outcomes (child :: rest) = .ok (t :: values) := by
  show (conditions _ _ _ _ _ _).result = _
  rw [conditions, Logged.result_bind_of_ok hFirst, Logged.result_bind_of_ok hRest]
  rfl

theorem outcomes_length : ∀ {children : List Condition} {values : List Truth},
    site.outcomes children = .ok values → values.length = children.length
  | [], values, h => by
      cases h
      rfl
  | child :: rest, values, h => by
      obtain ⟨t, _, hRest⟩ := Logged.result_bind_eq_ok.mp h
      obtain ⟨others, hOthers, hValues⟩ := Logged.result_bind_eq_ok.mp hRest
      cases hValues
      rw [List.length_cons, List.length_cons, outcomes_length hOthers]

mutual

/-- A tree keeps its truth when more of its leaves are known. -/
theorem refined_of_leaves : ∀ {c : Condition}, (∀ leaf ∈ c.leaves, site.Refined refined leaf) →
    site.Refined refined c
  | .comparison .., h => h _ (List.mem_singleton_self _)
  | .stateEquals .., h => h _ (List.mem_singleton_self _)
  | .eventWindow .., h => h _ (List.mem_singleton_self _)
  | .not _ child, h => by
      obtain ⟨s, t, hSite, hRefined, hRefines⟩ := refined_of_leaves (c := child) h
      exact ⟨s.not, t.not, outcome_not hSite, outcome_not hRefined, hRefines.not⟩
  | .nOfM _ minimum children, h => by
      obtain ⟨values, others, hSite, hRefined, hRefines⟩ := refined_of_allLeaves h
      exact ⟨_, _, outcome_nOfM hSite, outcome_nOfM hRefined, Truth.atLeast_refines hRefines _⟩
  | .booleanGroup _ kind children, h => by
      obtain ⟨values, others, hSite, hRefined, hRefines⟩ := refined_of_allLeaves h
      refine ⟨_, _, outcome_booleanGroup hSite, outcome_booleanGroup hRefined, ?_⟩
      cases kind with
      | all => exact Truth.all_refines hRefines
      | any => exact Truth.any_refines hRefines

theorem refined_of_allLeaves : ∀ {children : List Condition},
    (∀ leaf ∈ Condition.allLeaves children, site.Refined refined leaf) →
    ∃ values others, site.outcomes children = .ok values ∧ refined.outcomes children = .ok others ∧
      List.Forall₂ Truth.Refines values others
  | [], _ => ⟨[], [], rfl, rfl, List.Forall₂.nil⟩
  | child :: rest, h => by
      obtain ⟨s, t, hSite, hRefined, hRefines⟩ := refined_of_leaves (c := child)
        (fun leaf hLeaf => h leaf (List.mem_append_left _ hLeaf))
      obtain ⟨values, others, hSites, hRefineds, hRest⟩ := refined_of_allLeaves
        (fun leaf hLeaf => h leaf (List.mem_append_right _ hLeaf))
      exact ⟨s :: values, t :: others, outcomes_cons hSite hSites,
        outcomes_cons hRefined hRefineds, List.Forall₂.cons hRefines hRest⟩

end

end Monotone

section Counting

variable {site : ConditionSite} {children : List Condition} {values : List Truth}

/-- A count over children says what all their completions agree on. -/
theorem nOfM_outcome_iff (h : site.outcomes children = .ok values) (id : String) (minimum : Nat) :
    (site.outcome (.nOfM id minimum children) = .ok .true ↔
      ∀ completed, Truth.Completes values completed → minimum ≤ completed.count true) ∧
    (site.outcome (.nOfM id minimum children) = .ok .false ↔
      ∀ completed, Truth.Completes values completed → completed.count true < minimum) := by
  rw [outcome_nOfM h, Except.ok.injEq, Except.ok.injEq]
  exact ⟨Truth.atLeast_eq_true_iff, Truth.atLeast_eq_false_iff⟩

theorem nOfM_length (h : site.outcomes children = .ok values) (id : String) :
    site.outcome (.nOfM id children.length children) =
      site.outcome (.booleanGroup id .all children) := by
  rw [outcome_nOfM h, outcome_booleanGroup h, ← outcomes_length h, Truth.atLeast_length]

theorem nOfM_one (h : site.outcomes children = .ok values) (id : String) :
    site.outcome (.nOfM id 1 children) = site.outcome (.booleanGroup id .any children) := by
  rw [outcome_nOfM h, outcome_booleanGroup h, Truth.atLeast_one]

/-- The older connectives keep what is known, too. -/
theorem combineTruth_refines {kind : GroupKind} {values refined : List Truth}
    (h : List.Forall₂ Truth.Refines values refined) (hSome : values ≠ []) :
    ∃ s t, combineTruth kind values = .ok s ∧ combineTruth kind refined = .ok t ∧ s.Refines t := by
  have hRefined : refined ≠ [] := by
    intro hNil
    rw [hNil, List.forall₂_nil_right_iff] at h
    exact hSome h
  unfold combineTruth
  rw [if_neg hSome, if_neg hRefined]
  cases kind with
  | all => exact ⟨_, _, rfl, rfl, Truth.all_refines h⟩
  | any => exact ⟨_, _, rfl, rfl, Truth.any_refines h⟩

/-- Condition trees only gain truths as their leaves do, and counts over children
are exact. -/
theorem condition_trees_monotone_and_exact (site refined : ConditionSite) :
    (∀ c : Condition, (∀ leaf ∈ c.leaves, site.Refined refined leaf) → site.Refined refined c) ∧
    (∀ (kind : GroupKind) (values others : List Truth), List.Forall₂ Truth.Refines values others →
      values ≠ [] → ∃ s t, combineTruth kind values = .ok s ∧ combineTruth kind others = .ok t ∧
        s.Refines t) ∧
    ∀ (id : String) (minimum : Nat) (children : List Condition) (values : List Truth),
      site.outcomes children = .ok values →
      (site.outcome (.nOfM id minimum children) = .ok .true ↔
        ∀ completed, Truth.Completes values completed → minimum ≤ completed.count true) ∧
      (site.outcome (.nOfM id minimum children) = .ok .false ↔
        ∀ completed, Truth.Completes values completed → completed.count true < minimum) ∧
      (minimum = children.length → site.outcome (.nOfM id minimum children) =
        site.outcome (.booleanGroup id .all children)) ∧
      (minimum = 1 → site.outcome (.nOfM id minimum children) =
        site.outcome (.booleanGroup id .any children)) := by
  refine ⟨fun c h => refined_of_leaves h, fun _ _ _ h hSome => combineTruth_refines h hSome, ?_⟩
  intro id minimum children values h
  obtain ⟨hTrue, hFalse⟩ := nOfM_outcome_iff h id minimum
  refine ⟨hTrue, hFalse, fun hAll => ?_, fun hOne => ?_⟩
  · rw [hAll]
    exact nOfM_length h id
  · rw [hOne]
    exact nOfM_one h id

end Counting

end RuleTrade
