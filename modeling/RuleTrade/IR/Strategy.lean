import RuleTrade.Backend.Plan
import RuleTrade.Library.Decimal

/-! The Strategy IR: typed operations over ids, entrypoints that start them, and the
state they keep for each asset. -/

namespace RuleTrade

open Library

inductive IRType where
  | event
  | assetSet
  | assetScores
  | rankedAssets
  | portfolioTargets
  | effect
  deriving DecidableEq, Repr

inductive ExecutableKind where
  | literal
  | trailingReturn
  | currentPrice
  | rollingPrice
  | scale
  deriving DecidableEq, Repr

inductive ExecutableSubject where
  | asset
  | candidate
  deriving DecidableEq, Repr

/-- A value with the fields of every kind. Only the validation says which belong to its own. -/
structure ExecutableValue where
  kind : ExecutableKind
  valueType : LeanValueType
  subject : Option ExecutableSubject := none
  asset : Option String := none
  literal : Option ExtendedDecimal := none
  observations : Option Int := none
  aggregate : Option LeanAggregate := none
  operand : Option ExecutableValue := none
  factor : Option ExtendedDecimal := none

structure ExecutableComparison where
  operator : ComparisonOperator
  left : ExecutableValue
  right : ExecutableValue

structure FilterClause where
  operator : ComparisonOperator
  threshold : ExtendedDecimal
  comparison : Option ExecutableComparison := none

/-- What an operation does. Operands are ids of operations. -/
inductive IROperationBody where
  | dailyScheduleOp
  | monthlyScheduleOp (day : Int)
  | quarterlyScheduleOp (day : Int)
  | assetSetOp (symbols : List String)
  | universeOp (symbols : List String)
  | randomNOp (assets : String) (count : Int) (resample : LeanResample)
      (parameterBindingsJson : String)
  | trailingReturnOp (assets : String) (lookbackBars : Int)
  | filterOp (scores : String) (operator : ComparisonOperator) (threshold : ExtendedDecimal)
      (clauses : List FilterClause)
  | rankOp (scores : String) (direction : SortDirection) (value : Option ExecutableValue)
  | topNOp (ranked : String) (count : Int) (shortagePolicy : ShortagePolicy)
  | elapsedSessionsGateOp (candidates lastExitState : String) (minimumCompletedSessions : Int)
  | equalWeightOp (assets : String) (totalWeight : ExtendedDecimal)
  | mergeTargetsOp (left right : String)
  | scaleTargetsOp (targets : String) (factor : ExtendedDecimal)
  | retainTargetsOp (targets : String)
  | firstNonEmptyTargetsOp (primary fallback : String)
  | observeTargetExitsOp (targets lastExitState : String)
  | rebalanceOp (targets : String)
  | predicateRebalanceOp (asset : String) (lookbackBars : Int) (operator : ComparisonOperator)
      (threshold : ExtendedDecimal) (targets : String) (otherwiseTargets : Option String)
      (comparisons : List ExecutableComparison)

structure StrategyIROperation where
  id : String
  componentId : String
  body : IROperationBody

/-- Per-asset state. It always holds a session index and starts unset. -/
structure PerAssetState where
  id : String
  componentId : String
  deriving DecidableEq

structure IREntrypoint where
  event : String
  target : String
  deriving DecidableEq

structure StrategyIR where
  strategyIdentity : String
  operations : List StrategyIROperation
  entrypoints : List IREntrypoint
  userState : List PerAssetState := []

/-- The operation id in the documents. -/
def IROperationBody.operation : IROperationBody → String
  | .dailyScheduleOp => "schedule.daily"
  | .monthlyScheduleOp .. => "schedule.monthly"
  | .quarterlyScheduleOp .. => "schedule.quarterly"
  | .assetSetOp .. => "market.asset_set"
  | .universeOp .. => "market.universe"
  | .randomNOp .. => "selection.random_n"
  | .trailingReturnOp .. => "market.trailing_return"
  | .filterOp .. => "selection.filter"
  | .rankOp .. => "selection.rank"
  | .topNOp .. => "selection.top_n"
  | .elapsedSessionsGateOp .. => "selection.elapsed_sessions_gate"
  | .equalWeightOp .. => "portfolio.equal_weight"
  | .mergeTargetsOp .. => "portfolio.merge_targets"
  | .scaleTargetsOp .. => "portfolio.scale_targets"
  | .retainTargetsOp .. => "portfolio.retain_targets"
  | .firstNonEmptyTargetsOp .. => "portfolio.first_non_empty_targets"
  | .observeTargetExitsOp .. => "state.observe_target_exits"
  | .rebalanceOp .. => "portfolio.rebalance"
  | .predicateRebalanceOp .. => "control.predicate_rebalance"

def IROperationBody.resultType : IROperationBody → IRType
  | .dailyScheduleOp | .monthlyScheduleOp .. | .quarterlyScheduleOp .. => .event
  | .assetSetOp .. | .universeOp .. | .randomNOp .. | .topNOp .. | .elapsedSessionsGateOp .. =>
      .assetSet
  | .trailingReturnOp .. | .filterOp .. => .assetScores
  | .rankOp .. => .rankedAssets
  | .equalWeightOp .. | .scaleTargetsOp .. | .retainTargetsOp .. | .mergeTargetsOp ..
  | .firstNonEmptyTargetsOp .. | .observeTargetExitsOp .. => .portfolioTargets
  | .rebalanceOp .. | .predicateRebalanceOp .. => .effect

/-- An operand: the field that names it, the id and the type it must have. -/
structure IROperand where
  name : String
  id : String
  expected : IRType
  deriving DecidableEq

def IROperationBody.operands : IROperationBody → List IROperand
  | .randomNOp assets .. => [⟨"assets", assets, .assetSet⟩]
  | .trailingReturnOp assets _ => [⟨"assets", assets, .assetSet⟩]
  | .filterOp scores .. => [⟨"scores", scores, .assetScores⟩]
  | .rankOp scores .. => [⟨"scores", scores, .assetScores⟩]
  | .topNOp ranked .. => [⟨"ranked", ranked, .rankedAssets⟩]
  | .elapsedSessionsGateOp candidates .. => [⟨"candidates", candidates, .assetSet⟩]
  | .equalWeightOp assets _ => [⟨"assets", assets, .assetSet⟩]
  | .scaleTargetsOp targets _ => [⟨"targets", targets, .portfolioTargets⟩]
  | .retainTargetsOp targets => [⟨"targets", targets, .portfolioTargets⟩]
  | .mergeTargetsOp left right =>
      [⟨"left", left, .portfolioTargets⟩, ⟨"right", right, .portfolioTargets⟩]
  | .firstNonEmptyTargetsOp primary fallback =>
      [⟨"primary", primary, .portfolioTargets⟩, ⟨"fallback", fallback, .portfolioTargets⟩]
  | .observeTargetExitsOp targets _ => [⟨"targets", targets, .portfolioTargets⟩]
  | .predicateRebalanceOp _ _ _ _ targets otherwiseTargets _ =>
      ⟨"targets", targets, .portfolioTargets⟩ ::
        (otherwiseTargets.map (fun id => (⟨"otherwise_targets", id, .portfolioTargets⟩ : IROperand))).toList
  | .rebalanceOp targets => [⟨"targets", targets, .portfolioTargets⟩]
  | .dailyScheduleOp | .monthlyScheduleOp .. | .quarterlyScheduleOp .. | .assetSetOp ..
  | .universeOp .. => []

def IROperationBody.isSchedule : IROperationBody → Bool
  | .dailyScheduleOp | .monthlyScheduleOp .. | .quarterlyScheduleOp .. => true
  | _ => false

/-- Symbols of an asset set or a universe. -/
def IROperationBody.symbols? : IROperationBody → Option (List String)
  | .assetSetOp symbols | .universeOp symbols => some symbols
  | _ => none

end RuleTrade
