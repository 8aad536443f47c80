import RuleTrade.Authoring.StructuralOperations

/-! Semantic intents, resolved to structural operations and applied. -/

namespace RuleTrade.V1

inductive SemanticIntent where
  | configureSelection (selectionComponentId : String) (count : ℕ+)
      (measureComponentId : Option String) (lookbackBars : Option ℕ+)
  | configureEligibility (eligibilityComponentId : String) (threshold : Library.Numeral)
  | configurePredicate (predicateComponentId : String)
  | configureAllocation (allocations : List SleeveAllocationInput)
  | configureConstraint (constraintComponentId : String) (duration : ℕ+)
  | configureTiming (timingComponentId : String) (cadence : Cadence) (day : Option Nat)
  | attachFallback (allocationComponentId fallbackAsset : String)
  | createPortfolioSplit (targetComponentId : String) (growthAllocation : Library.Numeral)
      (defensiveAssets : List String)

def missingMeasure : Failure :=
  .intent "missing_measure_target" "Lookback editing requires an exact Measure target."

/-- The batch that sets the count of a selection and the lookback of its measure. -/
def selectionMutations (selectionId measureId : String) (count lookback : ℕ+) : List Mutation :=
  [.setComponentField (.componentId selectionId) "count" (.value (.integer (count : Nat))),
    .setComponentField (.componentId measureId) "lookback_bars"
      (.value (.integer (lookback : Nat)))]

/-- `resolve_semantic_intent`. -/
def resolveSemanticIntent : SemanticIntent → Except Failure StructuralOperation
  | .configureSelection selectionId count _ none => .ok (.updateSelectionCount selectionId count)
  | .configureSelection _ _ none (some _) => .error missingMeasure
  | .configureSelection selectionId count (some measureId) (some lookback) =>
      .ok (.compose (selectionMutations selectionId measureId count lookback))
  | .configureEligibility id threshold => .ok (.updateQualificationThreshold id threshold)
  | .configurePredicate _ =>
      .error (.intent "predicate_authoring_deferred"
        "Current executable authoring does not support control predicates.")
  | .configureAllocation allocations => .ok (.updateSleeveAllocations allocations)
  | .configureConstraint id duration => .ok (.updateCooldownDuration id duration)
  | .configureTiming id cadence day => .ok (.updateSchedule id cadence day)
  | .attachFallback id asset => .ok (.addFallbackSelection id asset)
  | .createPortfolioSplit id growth assets => .ok (.transformToGrowthDefensive id growth assets)

/-- `apply_semantic_intent`. A selection is edited by one operation after the other. -/
def applySemanticIntent (strategy : CanonicalStrategyV1) :
    SemanticIntent → Except Failure CanonicalStrategyV1
  | .configureSelection selectionId count measureId lookback => do
      let candidate ← applyStructuralOperation strategy (.updateSelectionCount selectionId count)
      match lookback, measureId with
      | none, _ => return candidate
      | some _, none => .error missingMeasure
      | some lookback, some measureId =>
          applyStructuralOperation candidate (.updateLookback measureId lookback)
  | intent => resolveSemanticIntent intent >>= applyStructuralOperation strategy

end RuleTrade.V1
