import RuleTrade.Execution.Trace

/-! What a decision does to the portfolio. Statements write weights or ask to
retain; a later write replaces earlier weights, and a later request to retain
leaves them standing. -/

namespace RuleTrade

open Library

/-- What a statement does to the portfolio. A write names the allocation and
the runtime it found. -/
inductive PortfolioEffect where
  | wrote (found : Runtime) (source : AllocationStatement)
  | retained

namespace PortfolioEffect

def retains : PortfolioEffect → Bool
  | .retained => true
  | .wrote _ _ => false

def writer? : PortfolioEffect → Option (Runtime × AllocationStatement)
  | .retained => none
  | .wrote found source => some (found, source)

end PortfolioEffect

section Effects

variable (d : Decision) (r : Runtime)

/-- A due allocation writes when its legs resolve to assets, else it retains. -/
def allocationPortfolio (a : AllocationStatement) : Option PortfolioEffect :=
  match d.due a.clockId, expandLegs d r a.legs with
  | .ok true, .ok (some (_ :: _)) => some (.wrote r a)
  | .ok true, .ok _ => some .retained
  | _, _ => none

/-- A policy retains when its guard blocks or nothing can be chosen. -/
def policyPortfolio (s : GuardedAllocationStatement) : Option PortfolioEffect :=
  match (guardTruth d r s).result, (firstOverride d r s.ranked).result with
  | .ok guard, overridden =>
      if s.blocks guard then some .retained
      else match overridden with
        | .ok override =>
            match s.choice override (allocationResolvable r s.primary) with
            | none => some .retained
            | some choice => allocationPortfolio d r choice.action
        | .error _ => none
  | .error _, _ => none

/-- An unknown Control that takes no branch retains. -/
def controlPortfolio (head : ConditionalHead) : Option PortfolioEffect :=
  match d.due head.clockId, (predicate d r head.condition).result with
  | .ok true, .ok outcome => if head.branch outcome = .neither then some .retained else none
  | _, _ => none

def ProgramStatement.portfolio : ProgramStatement → Option PortfolioEffect
  | .allocate a => allocationPortfolio d r a
  | .guardedAllocation s => policyPortfolio d r s
  | .control head _ _ => controlPortfolio d r head
  | _ => none

end Effects

/-- Portfolio effects of a trace, in order. -/
def portfolioEffects (d : Decision) (trace : List (Runtime × ProgramStatement)) :
    List PortfolioEffect :=
  trace.filterMap (fun visit => visit.2.portfolio d visit.1)

/-- The allocation whose weights a decision ends with, and what it found. -/
def lastWrite (d : Decision) (trace : List (Runtime × ProgramStatement)) :
    Option (Runtime × AllocationStatement) :=
  ((portfolioEffects d trace).filterMap PortfolioEffect.writer?).getLast?

/-- An allocation turns what it finds into weights. -/
def Writes (d : Decision) (found : Runtime) (source : AllocationStatement)
    (weights : Dict String ℚ) : Prop :=
  ∃ expanded, expandLegs d found source.legs = .ok (some expanded) ∧ expanded ≠ [] ∧
    methodWeights d found source expanded = .ok weights

section Steps

variable {d : Decision} {r r' : Runtime}

/-- How an effect changes the two fields. -/
def PortfolioStep (d : Decision) (r r' : Runtime) : Option PortfolioEffect → Prop
  | none => r'.retained = r.retained ∧ r'.targetWeights = r.targetWeights
  | some .retained => r'.retained = true ∧ r'.targetWeights = r.targetWeights
  | some (.wrote found source) =>
      found = r ∧ r'.retained = false ∧ Writes d found source r'.targetWeights

theorem AllocationEffect.portfolio {a : AllocationStatement} (h : AllocationEffect d r a r') :
    PortfolioStep d r r' (allocationPortfolio d r a) := by
  cases h with
  | notDue due detail =>
      simp only [allocationPortfolio, due]
      exact ⟨rfl, rfl⟩
  | retained due unresolved outcome detail =>
      rcases unresolved with hNone | hNil
      · simp only [allocationPortfolio, due, hNone]
        exact ⟨rfl, rfl⟩
      · simp only [allocationPortfolio, due, hNil]
        exact ⟨rfl, rfl⟩
  | @wrote due expanded weights resolved nonempty method outcome =>
      obtain ⟨first, rest, rfl⟩ := List.exists_cons_of_ne_nil nonempty
      simp only [allocationPortfolio, due, resolved]
      exact ⟨rfl, rfl, _, resolved, nonempty, method⟩

theorem PolicyEffect.portfolio {s : GuardedAllocationStatement} (h : PolicyEffect d r s r') :
    PortfolioStep d r r' (policyPortfolio d r s) := by
  cases h with
  | blocked evaluated blocks detail =>
      simp only [policyPortfolio, evaluated, blocks, if_true]
      exact ⟨rfl, rfl⟩
  | nothing evaluated blocks overridden choice detail =>
      simp only [policyPortfolio, evaluated, blocks, overridden, choice, Bool.false_eq_true,
        if_false]
      exact ⟨rfl, rfl⟩
  | chose evaluated blocks overridden chosen ran detail =>
      simp only [policyPortfolio, evaluated, blocks, overridden, chosen, Bool.false_eq_true,
        if_false]
      have hStep := (effect_of_allocation ran).portfolio
      generalize allocationPortfolio d r _ = effect at hStep ⊢
      rcases effect with _ | _ | _ <;> exact hStep

/-- Step lemma: an entry changes the two fields as its effect says. -/
theorem portfolio_of_enter {s : ProgramStatement} {body : List ProgramStatement}
    (h : enterState d r s = .ok (r', body)) : PortfolioStep d r r' (s.portfolio d r) := by
  cases effect_of_enter h with
  | notDue s due =>
      cases s with
      | allocate a =>
          have hDue : d.due a.clockId = .ok false := due
          simp only [ProgramStatement.portfolio, allocationPortfolio, hDue]
          exact ⟨rfl, rfl⟩
      | control head thenBody otherwiseBody =>
          have hDue : d.due head.clockId = .ok false := due
          simp only [ProgramStatement.portfolio, controlPortfolio, hDue]
          exact ⟨rfl, rfl⟩
      | guardedAllocation s => cases due
      | _ => exact ⟨rfl, rfl⟩
  | allocated effect => exact effect.portfolio
  | guarded effect => exact effect.portfolio
  | controlled head thenBody otherwiseBody due evaluated =>
      simp only [ProgramStatement.portfolio, controlPortfolio, due, evaluated]
      split_ifs with hBranch
      · exact ⟨by simp [recordControl, hBranch], rfl⟩
      · exact ⟨by simp [recordControl, hBranch], rfl⟩
  | _ => exact ⟨rfl, rfl⟩

/-- Run lemma for the flag: the last effect decides it. -/
theorem retained_of_steps {start final : Runtime} {agenda waiting : List ProgramStatement}
    {trace : List (Runtime × ProgramStatement)}
    (h : Agenda.Steps (enterState d) start agenda trace final waiting) :
    final.retained =
      (portfolioEffects d trace).foldl (fun _ effect => effect.retains) start.retained := by
  induction h with
  | refl => rfl
  | @step s s' t x body rest waiting trace hEnter _ ih =>
      have hStep := portfolio_of_enter hEnter
      unfold portfolioEffects at ih ⊢
      rw [List.filterMap_cons]
      rcases hEffect : x.portfolio d s with _ | ⟨found, source⟩ | _
      · rw [hEffect] at hStep
        rw [ih, hStep.1]
      · rw [hEffect] at hStep
        rw [ih, List.foldl_cons, hStep.2.1]
        rfl
      · rw [hEffect] at hStep
        rw [ih, List.foldl_cons, hStep.1]
        rfl

/-- Run lemma for the weights: those of the last write, else those at the start. -/
theorem weights_of_steps {start final : Runtime} {agenda waiting : List ProgramStatement}
    {trace : List (Runtime × ProgramStatement)}
    (h : Agenda.Steps (enterState d) start agenda trace final waiting) :
    match lastWrite d trace with
    | none => final.targetWeights = start.targetWeights
    | some (found, source) => Writes d found source final.targetWeights := by
  induction h with
  | refl => rfl
  | @step s s' t x body rest waiting trace hEnter _ ih =>
      have hStep := portfolio_of_enter hEnter
      unfold lastWrite portfolioEffects at ih ⊢
      rw [List.filterMap_cons]
      rcases hEffect : x.portfolio d s with _ | ⟨found, source⟩ | _
      · rw [hEffect] at hStep
        rw [← hStep.2]
        exact ih
      · rw [hEffect] at hStep
        simp only [List.filterMap_cons, PortfolioEffect.writer?, List.getLast?_cons]
        split at ih <;> rename_i hLast <;> rw [hLast]
        · rw [ih]
          exact hStep.2.2
        · exact ih
      · rw [hEffect] at hStep
        rw [← hStep.2]
        exact ih

end Steps

end RuleTrade
