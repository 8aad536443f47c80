import RuleTrade.Strategy.Documents
import RuleTrade.Library.Sequence

/-! Readiness plans of daily Values. A plan says how many completed closes the
final Value needs, apart from the replay state of recursive indicators. -/

namespace RuleTrade

open Library

structure HistoryRequirement where
  minimumHistoryLowerBound : Nat
  seedAnchorRequired : Bool := false
  checkpointIdentityRequired : Bool := false
  deriving DecidableEq, Repr

structure TypedValuePlan where
  expressionId : String
  expressionHash : ContentHash
  semanticType : SemanticType
  fields : List String
  history : HistoryRequirement
  operatorVersions : List String
  backendLowerable : Bool

/-- What a visit of an expression collects. -/
structure PlanVisit where
  minimum : Nat
  checkpoint : Bool := false
  fields : List String := []
  versions : List String := []
  backendLowerable : Bool := true

/-- Closes an indicator needs beyond those of its operand. Windows hold at least
one observation. -/
def IndicatorKind.lookback : IndicatorKind → Nat → Nat
  | .trailingReturn, window | .rsiWilderLeanCompat, window => window
  | .sma, window | .ema, window | .realizedVolatility, window => window - 1

/-- Recursive indicators replay from a pinned state. -/
def IndicatorKind.recursive : IndicatorKind → Bool
  | .ema | .rsiWilderLeanCompat => true
  | .trailingReturn | .sma | .realizedVolatility => false

def DailyValueNode.visit : DailyValueNode → PlanVisit
  | .literal _ _ _ _ _ => { minimum := 0, backendLowerable := false }
  | .observe attrs field basis =>
      { minimum := 1,
        fields := [field.text ++ ":" ++ basis.text],
        backendLowerable := attrs.subjectKind = some .asset ∧ field = .close ∧ basis = .adjusted }
  | .current _ operand => operand.visit
  | .absolute _ operand =>
      let child := operand.visit
      { child with versions := child.versions ++ ["absolute@1"], backendLowerable := false }
  | .indicator _ kind window _ operand =>
      let child := operand.visit
      { child with
        minimum := child.minimum + kind.lookback window
        checkpoint := child.checkpoint || kind.recursive
        versions := child.versions ++ [kind.text ++ "@1"] }
  | .history _ window skip operand =>
      let child := operand.visit
      { child with
        minimum := child.minimum + (window - 1) + skip
        backendLowerable := false }
  | .reduce _ _ reduction _ _ _ operand =>
      let child := operand.visit
      { child with
        versions := child.versions ++ ["reduce." ++ reduction.text ++ "@1"]
        backendLowerable := false }
  | .arithmetic _ operator l r =>
      let left := l.visit
      let right := r.visit
      { minimum := max left.minimum right.minimum
        checkpoint := left.checkpoint || right.checkpoint
        fields := left.fields ++ right.fields
        versions := left.versions ++ right.versions ++ ["arithmetic." ++ operator.text ++ "@1"]
        backendLowerable := false }

def planDailyValue (bindingId : Option String) (node : DailyValueNode) :
    Except SemanticTypeError TypedValuePlan := do
  let semanticType ← inferDailyType bindingId node
  let visited := node.visit
  .ok { expressionId := node.semanticId
        expressionHash := node.contentHash
        semanticType := semanticType
        fields := Sequence.sortBy id visited.fields.dedup
        history :=
          { minimumHistoryLowerBound := visited.minimum
            seedAnchorRequired := visited.checkpoint
            checkpointIdentityRequired := visited.checkpoint }
        operatorVersions := Sequence.sortBy id visited.versions.dedup
        backendLowerable := visited.backendLowerable }

end RuleTrade
