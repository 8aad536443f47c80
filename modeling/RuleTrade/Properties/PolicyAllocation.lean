import RuleTrade.Properties.CompletedWeek
import RuleTrade.Properties.PolicyShares
import RuleTrade.Properties.RetainExclusive

/-! Orders of the generated policy against the guarded allocation of the
reference. -/

namespace RuleTrade

open Library

section Result

variable {sqrt : ℚ → ℚ} {numbers : GeneratedNumbers} {plan : LeanPlan}
  {temporal : LeanTemporalProgram} {g : GeneratedState} {d : Decision} {r r' : Runtime}
  {outputs : SelectionOutputs} {s : GuardedAllocationStatement}

/-- The reference can choose: an override tests true, or the primary resolves. -/
def GuardedAllocationStatement.chooses (r : Runtime) (s : GuardedAllocationStatement) : Prop :=
  s.ranked.find? (OverrideRule.tests r.state) = none → allocationResolvable r s.primary = true

/-- What a policy without a guard and a fallback does to the weights. -/
theorem enterGuarded_weights {targets : List LeanTemporalPolicyTarget} (hGuard : s.guard = none)
    (hFallback : s.fallback = none) (hRules : List.Forall₂ (LoweredRule outputs) s.ranked targets)
    (hRan : (enterGuarded d r s).result = .ok r') :
    (¬s.chooses r ∧ r'.targetWeights = r.targetWeights) ∨
      (s.chooses r ∧ ∃ allocated,
        AllocationEffect d r (s.first (OverrideRule.tests r.state)) allocated ∧
        r'.targetWeights = allocated.targetWeights) := by
  have hOverride := firstOverride_result (d := d) (r := r) hRules
  unfold GuardedAllocationStatement.chooses GuardedAllocationStatement.first
  cases effect_of_guarded hRan with
  | blocked evaluated blocks =>
      have hTrue : (guardTruth d r s).result = .ok .true := by
        rw [guardTruth, hGuard]
        rfl
      rw [hTrue] at evaluated
      cases evaluated
      cases blocks
  | nothing evaluated blocks overridden choice =>
      rw [hOverride] at overridden
      cases overridden
      cases hFind : s.ranked.find? (OverrideRule.tests r.state) with
      | some rule => simp [GuardedAllocationStatement.choice, hFind] at choice
      | none =>
          simp only [GuardedAllocationStatement.choice, hFind, hFallback, Option.map_none] at choice
          refine Or.inl ⟨fun hResolves => ?_, rfl⟩
          rw [hResolves rfl] at choice
          cases choice
  | @chose guard override choice allocated evaluated blocks overridden chosen ran =>
      rw [hOverride] at overridden
      cases overridden
      refine Or.inr ?_
      cases hFind : s.ranked.find? (OverrideRule.tests r.state) with
      | some rule =>
          simp only [GuardedAllocationStatement.choice, hFind, Option.some.injEq] at chosen
          subst chosen
          exact ⟨fun hNone => (Option.some_ne_none _ hNone).elim, _, effect_of_allocation ran, rfl⟩
      | none =>
          simp only [GuardedAllocationStatement.choice, hFind, hFallback, Option.map_none] at chosen
          split_ifs at chosen with hResolves
          · cases chosen
            exact ⟨fun _ => hResolves, _, effect_of_allocation ran, rfl⟩

/-- Every Selection output came out alike on both sides. -/
def SelectionsAgree (numbers : GeneratedNumbers) (plan : LeanPlan) (g : GeneratedState)
    (r : Runtime) (outputs : SelectionOutputs) : Prop :=
  ∀ output id, outputs.get? output = some id →
    ∀ selection ∈ plan.momentumSelections, selection.id = id →
      OutcomeAgrees numbers plan g r output selection

/-- When the generated policy follows its source: both take the same rule, the
reference can choose, and what it chooses is due and faithful. -/
structure PolicyFaithful (d : Decision) (r : Runtime) (s : GuardedAllocationStatement) : Prop where
  rule : s.ranked.find? (OverrideRule.passes r.state) = s.ranked.find? (OverrideRule.tests r.state)
  chooses : s.chooses r
  due : d.due (s.first (OverrideRule.tests r.state)).clockId = .ok true
  allocation : (s.first (OverrideRule.tests r.state)).Faithful r

/-- Inputs on which the two may come to the same weights by different ways. -/
def PolicyCoincides (r : Runtime) (s : GuardedAllocationStatement) : Prop :=
  s.ranked.find? (OverrideRule.passes r.state) ≠ s.ranked.find? (OverrideRule.tests r.state) ∨
    (s.first (OverrideRule.tests r.state)).hides r

/-- The reference asks for holdings, and the ordered weights are those. -/
def OrdersFollow (weights : Dict String ℚ) (r' : Runtime) : Prop :=
  r'.targetWeights.isEmpty = false ∧ SameHoldings weights r'.targetWeights

/-- Orders are those of the target of the rule. -/
theorem placeOrders_weights {target : LeanTemporalPolicyTarget} {weights : Dict String ℚ}
    (h : (placeOrders numbers plan g (some target)).1 = some weights) :
    policyWeights numbers plan g target.target = some weights := by
  unfold placeOrders at h
  split at h
  · cases h
  · rename_i chosen hChosen
    cases hChosen
    split_ifs at h
    exact h

/-- One member of a universe of one. -/
def pickMember : SelectionStatement where
  semanticId := "pick"
  selection := .anyOf 1 .requireFull one_in_countRange
  outputId := "top"

/-- While idle an equal part in each of two assets, else what the Selection picks. -/
def pairPolicy : GuardedAllocationStatement :=
  .inState "phase" "idle"
    (.evenly "held" (.asset "A") (.asset "B") (AllocationTargetKind.asset_ne_retain "A")
      (AllocationTargetKind.asset_ne_retain "B"))
    (.wholly "otherwise" (.selection "top") (AllocationTargetKind.selection_ne_retain "top"))

def pairProgram : SemanticProgram :=
  .temporal (Dict.ofList [("phase", "idle")]) [.select pickMember] pairPolicy

def pairStrategy : CanonicalStrategy :=
  .ofProgram (.ofGroup "universe" ["A"] (List.nodup_singleton "A")) pairProgram

def pairSnapshot : DailyMarketSnapshot :=
  (DailyMarketSnapshot.single "A" (⟨2024, 1, 5⟩, some 10) []).overDomain "universe" ["A"]
    (loneMember_valid "A")

/-- Orders of the first boundary of a plan. -/
def firstOrders (plan : LeanPlan) (temporal : LeanTemporalProgram) : Option (Dict String ℚ) :=
  (placeOrders plainNumbers plan (plan.startState temporal)
    (temporal.policyRule (plan.startState temporal))).1

/-- The runtime that the policy finds after the Selection. -/
def pairRuntime : Runtime :=
  { ({} : Checkpoint).runtime pairProgram with
    selections := Dict.ofList [("top", ["A"])]
    selectionScores := Dict.ofList [("top", Dict.ofList [("A", 1)])] }

/-- A selection of a plan that comes out as in that runtime. -/
def picksAlike (plan : LeanPlan) (temporal : LeanTemporalProgram) (s : LeanMomentumSelection) :
    Bool :=
  s.policyStage ((plan.startState temporal).market plainNumbers) (plan.fallbackSymbols s.id) =
      ["A"] &&
    s.complete ((plan.startState temporal).market plainNumbers) &&
    (s.scores ((plan.startState temporal).market plainNumbers)).get? "A" = some 1

theorem outcomeAgrees_pair {plan : LeanPlan} {temporal : LeanTemporalProgram}
    {selection : LeanMomentumSelection} (h : picksAlike plan temporal selection = true) :
    OutcomeAgrees plainNumbers plan (plan.startState temporal) pairRuntime "top" selection := by
  simp only [picksAlike, Bool.and_eq_true, decide_eq_true_eq] at h
  obtain ⟨⟨hPicked, hComplete⟩, hScore⟩ := h
  refine ⟨hPicked, List.nodup_singleton "A", fun _ asset hAsset => ?_, fun hNot => ?_⟩
  · rw [List.mem_singleton.mp hAsset]
    exact ⟨1, rfl, hScore⟩
  · rw [hComplete] at hNot
    cases hNot

end Result

end RuleTrade
