import RuleTrade.Execution.Readings
import RuleTrade.Execution.Trace
import RuleTrade.Strategy.Acceptance

/-! Evaluation rules for statements. Decisions that differ only in how daily
readings are answered run in step, so a property that survives sequencing holds
of entering a statement once it holds of the statement's readings. -/

namespace RuleTrade

open Library

/-- Answers to daily readings, by row. -/
abbrev Answers :=
  Nat → DailyValueNode → Option String → Option String → Except ProgramError DailyReading

/-- The same decision under other answers. -/
def Decision.answeredBy (d : Decision) (answers : Answers) : Decision :=
  { d with
    environment := { d.environment with daily := answers }
    inRange := d.inRange }

/-- One decision and runtime under several answers. -/
def answerWorlds {W : Type} (d : Decision) (r : Runtime) (answers : W → Answers) : Worlds W where
  decision := fun w => d.answeredBy (answers w)
  runtime := fun _ => r
  context := d.environment.context
  observedAt := d.observedAt
  context_eq := fun _ => rfl
  observedAt_eq := fun _ => rfl

section Frame

variable (d : Decision) (r : Runtime) (answers : Answers)

@[simp] theorem answeredBy_due (clockId : Option String) :
    (d.answeredBy answers).due clockId = d.due clockId := rfl

@[simp] theorem answeredBy_members (universeId : String) :
    (d.answeredBy answers).members universeId = d.members universeId := rfl

@[simp] theorem answeredBy_cutoff : (d.answeredBy answers).cutoff = d.cutoff := rfl

@[simp] theorem answeredBy_observation (id : String) (candidate : Option String)
    (hash : ContentHash) (value : Option ℚ) (reason : Option String) :
    (d.answeredBy answers).observation id candidate hash value reason =
      d.observation id candidate hash value reason := rfl

@[simp] theorem answeredBy_recordedOr (v : ValueExpression) (candidate : Option String)
    (result : Option ℚ) (reason : String) :
    recordedOr (d.answeredBy answers) v candidate result reason =
      recordedOr d v candidate result reason := rfl

@[simp] theorem answeredBy_barsSince (anchor : Option Int) :
    barsSince (d.answeredBy answers) anchor = barsSince d anchor := rfl

@[simp] theorem answeredBy_daysSinceAnchor (anchor : Option Int) :
    daysSinceAnchor (d.answeredBy answers) anchor = daysSinceAnchor d anchor := rfl

@[simp] theorem answeredBy_clockCutoff (clockId : String) :
    (d.answeredBy answers).lastCompletedClockCutoff clockId =
      d.lastCompletedClockCutoff clockId := rfl

theorem answeredBy_expandLegs (legs : List AllocationLeg) :
    expandLegs (d.answeredBy answers) r legs = expandLegs d r legs := by
  induction legs with
  | nil => rfl
  | cons leg rest ih =>
      simp only [expandLegs, ih]
      rfl

@[simp] theorem answeredBy_allocation (a : AllocationStatement) (outcome : String) :
    allocation (d.answeredBy answers) r a outcome = allocation d r a outcome := by
  simp only [allocation, answeredBy_due, answeredBy_expandLegs]
  rfl

@[simp] theorem answeredBy_applyChoice (s : GuardedAllocationStatement)
    (choice : Option PolicyChoice) :
    applyChoice (d.answeredBy answers) r s choice = applyChoice d r s choice := by
  cases choice with
  | none => rfl
  | some choice => simp only [applyChoice, answeredBy_allocation]

theorem answeredBy_recordEvent (semanticId : String) (event : EventDefinition)
    (previous current : Truth) :
    recordEvent (d.answeredBy answers) r semanticId event previous current =
      recordEvent d r semanticId event previous current := rfl

theorem answeredBy_recordTransition (semanticId : String) (t : StateTransition) (outcome : Truth) :
    recordTransition (d.answeredBy answers) r semanticId t outcome =
      recordTransition d r semanticId t outcome := rfl

end Frame

section Rules

variable {W : Type} {P : ∀ {α : Type}, (W → Evaluation α) → Prop} {d : Decision} {r : Runtime}
  {answers : W → Answers}

/-- All readings of a list have the property. -/
def AllRead (P : ∀ {α : Type}, (W → Evaluation α) → Prop) (d : Decision) (r : Runtime)
    (answers : W → Answers) (bindingId : Option String) (members : List String)
    (readings : List Reading) : Prop :=
  ∀ reading ∈ readings, reading.Atomic →
    reading.Has P (answerWorlds d r answers) bindingId members

theorem lift_holds (hP : Logged.Sequential P) {α : Type} {x : Except ProgramError α}
    (h : ∀ e, x = .error e → P (fun _ => (.failure e : Evaluation α))) :
    P (fun _ => (Logged.lift x : Evaluation α)) := by
  cases x with
  | error e => exact h e rfl
  | ok a => exact hP.success a []

theorem predicate_holds (hP : Logged.Sequential P) {c : Condition}
    (h : AllRead P d r answers none [] (c.readings [] none)) :
    P (fun w => predicate (d.answeredBy (answers w)) r c) :=
  condition_holds (answerWorlds d r answers) hP c none h

/-- Readings of one member's rank. -/
def Selection.readings (s : Selection) (members : List String) (member : String) : List Reading :=
  (s.eligibility.map (fun c => c.readings members (some member))).getD [] ++
    s.ranking.readings members (some member)

theorem rankMember_holds (hP : Logged.Sequential P) {s : Selection} {members : List String}
    {member : String}
    (h : AllRead P d r answers (some s.binding.id) members (s.readings members member)) :
    P (fun w => rankMember (d.answeredBy (answers w)) r s members member) := by
  unfold rankMember
  have hScore : P (fun w => value (d.answeredBy (answers w)) r (some s.binding.id) members
      s.ranking (some member)) :=
    value_holds (answerWorlds d r answers) hP s.ranking (some member)
      (fun reading hReading => h reading (List.mem_append_right _ hReading))
  have hRanked (outcome : Truth) : P (fun w => (if outcome ≠ .true then pure none else do
      let score ← value (d.answeredBy (answers w)) r (some s.binding.id) members s.ranking
        (some member)
      pure (score.value.map (·, member)) : Evaluation (Option (ℚ × String)))) := by
    split_ifs
    · exact hP.success none []
    · exact hP.bind hScore (fun score => hP.success _ [])
  cases hEligibility : s.eligibility with
  | none => exact hP.bind (hP.success Truth.true []) hRanked
  | some c =>
      refine hP.bind (condition_holds (answerWorlds d r answers) hP c (some member)
        (fun reading hReading => h reading (List.mem_append_left _ ?_))) hRanked
      rw [hEligibility]
      exact hReading

theorem selection_holds (hP : Logged.Sequential P) {s : SelectionStatement}
    (hDue : P (fun _ => (Logged.lift (d.due s.clockId) : Evaluation Bool)))
    (hMembers : P (fun _ => (Logged.lift (d.members s.selection.universeId) :
      Evaluation (List String))))
    (h : ∀ members member, AllRead P d r answers (some s.selection.binding.id) members
      (s.selection.readings members member)) :
    P (fun w => selection (d.answeredBy (answers w)) r s) := by
  simp only [selection, answeredBy_due, answeredBy_members]
  refine hP.bind hDue (fun due => ?_)
  split_ifs
  · refine hP.bind hMembers (fun members => ?_)
    refine hP.bind (hP.forEach (fun member _ => rankMember_holds hP (h members member)))
      (fun scored => hP.success _ [])
  · exact hP.success _ []

theorem control_holds (hP : Logged.Sequential P) {head : ConditionalHead}
    (hDue : P (fun _ => (Logged.lift (d.due head.clockId) : Evaluation Bool)))
    (h : AllRead P d r answers none [] (head.condition.readings [] none)) :
    P (fun w => enterControl (d.answeredBy (answers w)) r head) := by
  simp only [enterControl, answeredBy_due]
  refine hP.bind hDue (fun due => ?_)
  split_ifs
  · exact hP.bind (predicate_holds hP h) (fun outcome => hP.success _ [])
  · exact hP.success _ []

theorem transition_holds (hP : Logged.Sequential P) {semanticId : String} {t : StateTransition}
    (hDue : P (fun _ => (Logged.lift (d.due t.clockId) : Evaluation Bool)))
    (h : AllRead P d r answers none [] (t.when.readings [] none)) :
    P (fun w => enterTransition (d.answeredBy (answers w)) r semanticId t) := by
  simp only [enterTransition, answeredBy_due, answeredBy_recordTransition]
  refine hP.bind hDue (fun due => ?_)
  split_ifs
  · refine hP.bind ?_ (fun outcome => hP.success _ [])
    unfold transitionTruth
    split_ifs
    · exact predicate_holds hP h
    · exact hP.success Truth.false []
  · exact hP.success _ []

theorem remember_holds (hP : Logged.Sequential P) {s : RememberValueStatement}
    (hDue : P (fun _ => (Logged.lift (d.due s.clockId) : Evaluation Bool)))
    (h : AllRead P d r answers none [] (s.value.readings [] none)) :
    P (fun w => enterRemember (d.answeredBy (answers w)) r s) := by
  simp only [enterRemember, answeredBy_due]
  refine hP.bind hDue (fun due => ?_)
  split_ifs
  · exact hP.bind (value_holds (answerWorlds d r answers) hP s.value none h)
      (fun observed => hP.success _ [])
  · exact hP.success _ []

theorem firstOverride_holds (hP : Logged.Sequential P) {rules : List OverrideRule}
    (h : ∀ rule ∈ rules, AllRead P d r answers none [] (rule.when.readings [] none)) :
    P (fun w => firstOverride (d.answeredBy (answers w)) r rules) := by
  induction rules with
  | nil => exact hP.success none []
  | cons rule rest ih =>
      simp only [firstOverride]
      refine hP.bind (predicate_holds hP (h rule List.mem_cons_self)) (fun outcome => ?_)
      split_ifs
      · exact hP.success _ []
      · exact ih (fun rule' hRule => h rule' (List.mem_cons_of_mem rule hRule))

theorem guarded_holds (hP : Logged.Sequential P) {s : GuardedAllocationStatement}
    (hGuard : ∀ c ∈ s.guard, AllRead P d r answers none [] (c.readings [] none))
    (hOverrides : ∀ rule ∈ s.overrides, AllRead P d r answers none [] (rule.when.readings [] none))
    (hChoice : ∀ choice, P (fun _ => (Logged.lift (applyChoice d r s choice) :
      Evaluation Runtime))) :
    P (fun w => enterGuarded (d.answeredBy (answers w)) r s) := by
  simp only [enterGuarded, answeredBy_applyChoice]
  refine hP.bind ?_ (fun guard => ?_)
  · unfold guardTruth
    cases hCondition : s.guard with
    | none => exact hP.success Truth.true []
    | some c => exact predicate_holds hP (hGuard c hCondition)
  · split_ifs
    · exact hP.success _ []
    · refine hP.bind (firstOverride_holds hP (fun rule hRule => hOverrides rule ?_))
        (fun override => hChoice _)
      exact Sequence.mem_sortByDescending.mp hRule

end Rules

section Failures

variable {d : Decision} {r : Runtime}

/-- An override that decides is one of the rules. -/
theorem mem_of_firstOverride {rules : List OverrideRule} {rule : OverrideRule}
    (h : (firstOverride d r rules).result = .ok (some rule)) : rule ∈ rules := by
  induction rules with
  | nil => cases h
  | cons first rest ih =>
      obtain ⟨outcome, -, hRest⟩ := Logged.result_bind_eq_ok.mp h
      split_ifs at hRest
      · cases hRest
        exact List.mem_cons_self
      · exact List.mem_cons_of_mem first (ih hRest)

/-- What a guarded policy chooses is one of its allocations. -/
theorem choice_mem_actions {s : GuardedAllocationStatement} {override : Option OverrideRule}
    {resolvable : Bool} {choice : PolicyChoice} (hRule : ∀ rule ∈ override, rule ∈ s.overrides)
    (h : s.choice override resolvable = some choice) : choice.action ∈ s.actions := by
  simp only [GuardedAllocationStatement.actions, List.cons_append, List.mem_cons, List.mem_append,
    Option.mem_toList]
  cases override with
  | some rule =>
      cases h
      exact Or.inr (Or.inl (List.mem_map_of_mem (hRule rule rfl)))
  | none =>
      simp only [GuardedAllocationStatement.choice] at h
      split_ifs at h
      · cases h
        exact Or.inl rfl
      · obtain ⟨fallback, hFallback, rfl⟩ := Option.map_eq_some_iff.mp h
        exact Or.inr (Or.inr hFallback)

/-- Errors that allocations raise by themselves. -/
def ProgramError.OfAllocation : ProgramError → Prop
  | .programUniverseUnavailable _ | .allocationScoresNotPositive | .allocationFloorConflict
  | .allocationCapRequiresCashRemainder | .allocationBoundsConflict
  | .allocationRemainderWithoutCash | .inverseVolatilityRequiresPositiveValues => True
  | _ => False

theorem due_error {clockId : Option String} {e : ProgramError} (h : d.due clockId = .error e) :
    ∃ id, clockId = some id ∧ e = .unknownClock id := by
  cases clockId with
  | none => cases h
  | some id =>
      refine ⟨id, rfl, ?_⟩
      simp only [Decision.due, Decision.clockDueAt, Decision.clock] at h
      split at h
      · cases h
        rfl
      · cases h

theorem members_error {universeId : String} {e : ProgramError}
    (h : d.members universeId = .error e) : e = .programUniverseUnavailable universeId := by
  unfold Decision.members at h
  split at h <;> cases h
  rfl

theorem expandLegs_error {legs : List AllocationLeg} {e : ProgramError}
    (h : expandLegs d r legs = .error e) : e.OfAllocation := by
  induction legs with
  | nil => cases h
  | cons leg rest ih =>
      simp only [expandLegs] at h
      split_ifs at h
      rcases except_bind_error.mp h with h | ⟨assets, -, h⟩
      · unfold targetAssets at h
        cases hKind : leg.target.kind with
        | group ref =>
            rw [hKind] at h
            exact (members_error h) ▸ trivial
        | _ =>
            rw [hKind] at h
            cases h
      · rcases except_bind_error.mp h with h | ⟨later, -, h⟩
        · exact ih h
        · split_ifs at h

theorem boundedNormalize_error {ctx : DecimalContext} {raw : Dict String ℚ}
    {minimum maximum : Option ℚ} {cash : Option String} {e : ProgramError}
    (h : boundedNormalize ctx raw minimum maximum cash = .error e) : e.OfAllocation := by
  simp only [boundedNormalize, closeRemainder] at h
  split_ifs at h
  all_goals first
    | (cases h; trivial)
    | (split at h <;> cases h <;> trivial)

theorem methodWeights_error {a : AllocationStatement} {expanded : List (String × Option ℚ)}
    {e : ProgramError} (h : methodWeights d r a expanded = .error e) : e.OfAllocation := by
  unfold methodWeights at h
  cases hMethod : a.method with
  | equal => simp [hMethod] at h
  | fixed => simp [hMethod] at h
  | proportionalScore =>
      simp only [hMethod] at h
      exact boundedNormalize_error h
  | inverseVolatility =>
      simp only [hMethod] at h
      rcases except_bind_error.mp h with h | ⟨raw, -, h⟩
      · unfold inverseRaw at h
        split_ifs at h
        cases h
        trivial
      · exact boundedNormalize_error h

/-- An allocation fails on an unknown clock or by itself. -/
theorem allocation_error {a : AllocationStatement} {outcome : String} {e : ProgramError}
    (h : allocation d r a outcome = .error e) : d.due a.clockId = .error e ∨ e.OfAllocation := by
  unfold allocation at h
  rcases except_bind_error.mp h with h | ⟨due, -, h⟩
  · exact Or.inl h
  · split_ifs at h
    · rcases except_bind_error.mp h with h | ⟨expansion, -, h⟩
      · exact Or.inr (expandLegs_error h)
      · rcases expansion with _ | _ | ⟨first, rest⟩
        · cases h
        · cases h
        · rcases except_bind_error.mp h with h | ⟨weights, -, h⟩
          · exact Or.inr (methodWeights_error h)
          · cases h

/-- Errors a checkpoint is refused with. -/
def ProgramError.OfCheckpoint : ProgramError → Prop
  | .programStateCheckpointShapeMismatch | .unknownCheckpointAddress _ _
  | .eventCheckpointAfterDecisionCutoff | .stateCheckpointAfterDecisionCutoff
  | .eventCountCheckpointNegative | .eventTruthCheckpointInvalid => True
  | _ => False

theorem require_error {holds : Bool} {e e' : ProgramError} (h : require holds e = .error e') :
    e' = e := by
  unfold require at h
  split_ifs at h
  exact (Except.error.inj h).symm

theorem requireAddresses_error {checkpoint : String} {keys allowed : List String}
    {e : ProgramError} (h : requireAddresses checkpoint keys allowed = .error e) :
    e.OfCheckpoint := by
  simp only [requireAddresses] at h
  split_ifs at h
  cases h
  trivial

theorem checkCheckpoint_error {program : SemanticProgram} {ck : Checkpoint} {cutoff : Nat}
    {e : ProgramError} (h : checkCheckpoint program cutoff ck = .error e) : e.OfCheckpoint := by
  simp only [checkCheckpoint, except_bind_error] at h
  rcases h with h | ⟨-, -, h⟩
  · exact require_error h ▸ trivial
  iterate 5
    rcases h with h | ⟨-, -, h⟩
    · exact requireAddresses_error h
  iterate 3
    rcases h with h | ⟨-, -, h⟩
    · exact require_error h ▸ trivial
  exact require_error h ▸ trivial

end Failures

section Visits

/-- Statements of an admitted list passed their checks where they stand. -/
theorem ProgramStatement.AllAdmitted.of_mem {program : SemanticProgram}
    {statements : List ProgramStatement} {available : List String}
    (h : ProgramStatement.AllAdmitted program available statements) :
    ∀ s ∈ statements, ∃ available, s.Admitted program available := by
  induction statements generalizing available with
  | nil =>
      intro s hs
      cases hs
  | cons first rest ih =>
      intro s hs
      rcases List.mem_cons.mp hs with rfl | hs
      · exact ⟨available, h.1⟩
      · exact ih h.2 s hs

/-- Every statement that an accepted Program comes to passed its checks. -/
theorem visits_admitted {d : Decision} {start r : Runtime} {s : ProgramStatement}
    (hAccepted : Accepted d.program) (hVisit : d.Visits start r s) :
    ∃ available, s.Admitted d.program available := by
  obtain ⟨trace, rest, hSteps⟩ := hVisit
  have hWaiting := hSteps.invariant
    (fun _ agenda => ∀ s ∈ agenda, ∃ available, s.Admitted d.program available) ?_
    hAccepted.admitted.of_mem
  · exact hWaiting s List.mem_cons_self
  · intro r s r' body rest hEnter hKnown y hy
    rcases List.mem_append.mp hy with hy | hy
    · obtain ⟨available, hAdmitted⟩ := hKnown s List.mem_cons_self
      rcases body_of_enter hEnter with rfl | hBody
      · cases hy
      · cases s with
        | control head thenStatements otherwiseStatements =>
            simp only [ProgramStatement.bodies, List.mem_cons, List.not_mem_nil, or_false] at hBody
            rcases hBody with rfl | rfl
            · exact hAdmitted.2.2.1.of_mem y hy
            · exact hAdmitted.2.2.2.of_mem y hy
        | onEvent semanticId event statements =>
            obtain rfl := List.mem_singleton.mp hBody
            exact hAdmitted.2.2.of_mem y hy
        | _ => cases hBody
    · exact hKnown y (List.mem_cons_of_mem s hy)

end Visits

end RuleTrade
