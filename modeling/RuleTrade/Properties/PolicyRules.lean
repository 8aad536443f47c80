import RuleTrade.Backend.TemporalPlan

/-! The rules of a temporal policy against the overrides they are lowered from. -/

namespace RuleTrade

open Library

section Rules

/-- The state test of an override. -/
def OverrideRule.tests (state : Dict String String) (rule : OverrideRule) : Bool :=
  match rule.when with
  | .stateEquals _ key expected => state.get? key = some expected
  | _ => false

/-- The test of the rule it is lowered to, to which `*` is every state. -/
def OverrideRule.passes (state : Dict String String) (rule : OverrideRule) : Bool :=
  match rule.when with
  | .stateEquals _ key expected => expected = "*" || state.get? key = some expected
  | _ => false

/-- The action of the first override that passes a test, or the primary. -/
def GuardedAllocationStatement.first (s : GuardedAllocationStatement)
    (test : OverrideRule → Bool) : AllocationStatement :=
  ((s.ranked.find? test).map OverrideRule.action).getD s.primary

variable {outputs : SelectionOutputs}

/-- An allocation and the target it is lowered to. -/
inductive LoweredAllocation (outputs : SelectionOutputs) (a : AllocationStatement) :
    LeanTemporalTarget → Prop where
  | asset (leg : AllocationLeg) (ref : String) (method : a.method = .fixed) (legs : a.legs = [leg])
      (weight : leg.weight = some 1) (kind : leg.target.kind = .asset ref) :
      LoweredAllocation outputs a (.asset ref)
  | cash (leg : AllocationLeg) (method : a.method = .fixed) (legs : a.legs = [leg])
      (weight : leg.weight = some 1) (kind : leg.target.kind = .cash) :
      LoweredAllocation outputs a .cash
  | portfolio (legs : List LeanTemporalAllocationLeg) (method : a.method ≠ .inverseVolatility)
      (lowered : a.legs.mapM (temporalLeg outputs) = .ok legs) :
      LoweredAllocation outputs a (.portfolio a.method legs)

/-- A retain leg is the sole leg of an equal allocation, so no fixed target is one. -/
theorem fixedPolicyTarget_ok {a : AllocationStatement} {semanticId stateKey stateValue : String}
    {target : LeanTemporalPolicyTarget}
    (h : fixedPolicyTarget a semanticId stateKey stateValue = .ok target) :
    target.stateKey = stateKey ∧ target.stateValue = stateValue ∧
      LoweredAllocation outputs a target.target := by
  unfold fixedPolicyTarget at h
  split at h
  · rename_i leg hLegs
    split_ifs at h with hShape
    · cases h
    obtain ⟨hMethod, hWeight⟩ := not_or.mp hShape
    have hFixed := not_not.mp hMethod
    have hWhole := not_not.mp hWeight
    cases hKind : leg.target.kind with
    | asset ref =>
        simp only [hKind, Except.ok.injEq] at h
        subst h
        exact ⟨rfl, rfl, .asset leg ref hFixed hLegs hWhole hKind⟩
    | cash =>
        simp only [hKind, Except.ok.injEq] at h
        subst h
        exact ⟨rfl, rfl, .cash leg hFixed hLegs hWhole hKind⟩
    | retain =>
        have hEqual := (a.retain_sole ⟨leg, by simp [hLegs], hKind⟩).2
        rw [hFixed] at hEqual
        cases hEqual
    | selection ref | group ref =>
        simp only [hKind] at h
        cases h
  · cases h

theorem policyTarget_ok {a : AllocationStatement} {semanticId stateKey stateValue : String}
    {target : LeanTemporalPolicyTarget}
    (h : policyTarget outputs a semanticId stateKey stateValue = .ok target) :
    target.stateKey = stateKey ∧ target.stateValue = stateValue ∧
      LoweredAllocation outputs a target.target := by
  unfold policyTarget at h
  split_ifs at h
  · exact fixedPolicyTarget_ok h
  · unfold composablePolicyTarget at h
    split_ifs at h with hMethod
    obtain ⟨legs, hLegs, h⟩ := except_bind_ok.mp h
    cases h
    exact ⟨rfl, rfl, .portfolio legs hMethod hLegs⟩

/-- An override and the rule it is lowered to. -/
def LoweredRule (outputs : SelectionOutputs) (rule : OverrideRule)
    (target : LeanTemporalPolicyTarget) : Prop :=
  (∃ id, rule.when = .stateEquals id target.stateKey target.stateValue) ∧
    LoweredAllocation outputs rule.action target.target

theorem overrideTargets_ok {rules : List OverrideRule} {axis : Option String}
    {targets : List LeanTemporalPolicyTarget}
    (h : overrideTargets outputs rules axis = .ok targets) :
    List.Forall₂ (LoweredRule outputs) rules targets := by
  induction rules generalizing axis targets with
  | nil =>
      cases h
      exact .nil
  | cons rule rest ih =>
      unfold overrideTargets at h
      split at h
      · rename_i id key expected hWhen
        split_ifs at h
        obtain ⟨target, hTarget, h⟩ := except_bind_ok.mp h
        obtain ⟨later, hLater, h⟩ := except_bind_ok.mp h
        cases h
        obtain ⟨hKey, hValue, hLowered⟩ := policyTarget_ok hTarget
        exact .cons ⟨⟨id, by rw [hWhen, hKey, hValue]⟩, hLowered⟩ (ih hLater)
      · cases h

/-- The targets of a policy: one for each override by priority, and the primary. -/
theorem policyTargets_ok {s : GuardedAllocationStatement} {targets : List LeanTemporalPolicyTarget}
    (h : policyTargets outputs s = .ok targets) :
    s.guard = none ∧ s.fallback = none ∧ ∃ overrides primary,
      targets = overrides ++ [primary] ∧ List.Forall₂ (LoweredRule outputs) s.ranked overrides ∧
      primary.stateValue = "*" ∧ LoweredAllocation outputs s.primary primary.target := by
  unfold policyTargets at h
  split_ifs at h with hShape
  simp only [not_or, Bool.not_eq_true, Option.isSome_eq_false_iff, Option.isNone_iff_eq_none]
    at hShape
  obtain ⟨overrides, hOverrides, h⟩ := except_bind_ok.mp h
  obtain ⟨primary, hPrimary, h⟩ := except_bind_ok.mp h
  cases h
  obtain ⟨-, hValue, hLowered⟩ := policyTarget_ok hPrimary
  exact ⟨hShape.1, hShape.2.1, overrides, primary, rfl, overrideTargets_ok hOverrides, hValue,
    hLowered⟩

/-- The rule that the generated code takes is lowered from the first override
that passes, or from the primary. -/
theorem policyRule_lowered {s : GuardedAllocationStatement} {program : LeanTemporalProgram}
    (h : policyTargets outputs s = .ok program.policyTargets) (g : GeneratedState) :
    ∃ target, program.policyRule g = some target ∧
      LoweredAllocation outputs (s.first (OverrideRule.passes g.state)) target.target := by
  obtain ⟨-, -, overrides, primary, hTargets, hRules, hValue, hPrimary⟩ := policyTargets_ok h
  unfold LeanTemporalProgram.policyRule GuardedAllocationStatement.first
  rw [hTargets]
  clear h hTargets
  generalize s.ranked = rules at hRules ⊢
  induction hRules with
  | nil => exact ⟨primary, by simp [hValue], hPrimary⟩
  | @cons rule target rules targets hRule hRules ih =>
      obtain ⟨⟨id, hWhen⟩, hLowered⟩ := hRule
      have hSame : rule.passes g.state =
          (target.stateValue = "*" || g.stateEquals target.stateKey target.stateValue) := by
        simp [OverrideRule.passes, hWhen, GeneratedState.stateEquals]
      rw [List.cons_append, List.find?_cons, List.find?_cons, ← hSame]
      cases rule.passes g.state with
      | true => exact ⟨target, rfl, hLowered⟩
      | false => exact ih

variable {d : Decision} {r : Runtime}

theorem firstOverride_result {rules : List OverrideRule} {targets : List LeanTemporalPolicyTarget}
    (h : List.Forall₂ (LoweredRule outputs) rules targets) :
    (firstOverride d r rules).result = .ok (rules.find? (OverrideRule.tests r.state)) := by
  induction h with
  | nil => rfl
  | @cons rule target rules targets hRule hRules ih =>
      obtain ⟨⟨id, hWhen⟩, -⟩ := hRule
      have hTruth : (predicate d r rule.when).result =
          .ok (Truth.ofBool (rule.tests r.state)) := by
        simp [predicate, hWhen, condition, OverrideRule.tests]
      rw [firstOverride, Logged.result_bind_of_ok hTruth, List.find?_cons]
      cases rule.tests r.state with
      | true => rfl
      | false => simpa [Truth.ofBool] using ih

end Rules

end RuleTrade
