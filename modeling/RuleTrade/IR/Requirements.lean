import RuleTrade.IR.Strategy
import RuleTrade.Library.Effect

/-! Requirements of a Strategy IR: its assets, schedules, history, states and calendars.
Every operation that is looked up is recorded. -/

namespace RuleTrade

open Library

structure ScheduleRequirement where
  sourceComponentId : String
  operation : String
  day : Option Int
  deriving DecidableEq

structure RandomRequirement where
  sourceComponentId : String
  resample : LeanResample
  deriving DecidableEq

structure DailyHistoryRequirement where
  sourceComponentId : String
  symbols : List String
  lookbackBars : Int
  observationCount : Int
  deriving DecidableEq

structure UserStateRequirement where
  stateId : String
  sourceComponentId : String
  deriving DecidableEq

structure TradingCalendarRequirement where
  sourceComponentId : String
  symbols : List String
  deriving DecidableEq

structure StrategyRequirements where
  assets : List String
  schedules : List ScheduleRequirement
  operations : List String
  randomSelections : List RandomRequirement
  dailyHistory : List DailyHistoryRequirement
  userState : List UserStateRequirement
  tradingCalendars : List TradingCalendarRequirement

/-- The recursion of the analysis ran out of fuel. -/
inductive AnalysisStop where
  | outOfFuel
  deriving DecidableEq, Repr

/-- A part of the analysis. Its state is the ids it looked up. -/
abbrev Analysis := Effect (List String) AnalysisStop

def valueObservations : ExecutableValue → Int
  | ⟨.literal, _, _, _, _, _, _, _, _⟩ => 0
  | ⟨.currentPrice, _, _, _, _, _, _, _, _⟩ => 1
  | ⟨.trailingReturn, _, _, _, _, observations, _, _, _⟩ => observations.getD 0 + 1
  | ⟨.rollingPrice, _, _, _, _, observations, _, _, _⟩ => observations.getD 0
  | ⟨.scale, _, _, _, _, _, _, some operand, _⟩ => valueObservations operand
  | ⟨.scale, _, _, _, _, _, _, none, _⟩ => 0

/-- The symbol a value fixes. -/
def fixedAsset (subject : Option ExecutableSubject) (asset : Option String) : List String :=
  if subject = some .asset then (asset.filter (fun symbol => symbol != "")).toList else []

def valueAssets : ExecutableValue → List String
  | ⟨_, _, subject, asset, _, _, _, none, _⟩ => fixedAsset subject asset
  | ⟨_, _, subject, asset, _, _, _, some operand, _⟩ =>
      fixedAsset subject asset ++ valueAssets operand

def ExecutableComparison.values (comparison : ExecutableComparison) : List ExecutableValue :=
  [comparison.left, comparison.right]

/-- Assets of a predicate: those of its comparisons, or the one it names. -/
def predicateAssets (asset : String) (comparisons : List ExecutableComparison) : List String :=
  let found := comparisons.flatMap (fun comparison => comparison.values.flatMap valueAssets)
  if found.isEmpty then (if asset = "" then [] else [asset]) else found

/-- Observations a predicate needs at most. -/
def predicateObservations (lookbackBars : Int) (comparisons : List ExecutableComparison) : Int :=
  ((comparisons.flatMap (fun comparison => comparison.values.map valueObservations)).max?).getD
    (lookbackBars + 1)

namespace StrategyIROperation

variable (operation : StrategyIROperation)

def requiredAssets : List String :=
  match operation.body with
  | .assetSetOp symbols | .universeOp symbols => symbols
  | .predicateRebalanceOp asset _ _ _ _ _ comparisons => predicateAssets asset comparisons
  | _ => []

def scheduleRequirement : List ScheduleRequirement :=
  match operation.body with
  | .dailyScheduleOp => [⟨operation.componentId, operation.body.operation, none⟩]
  | .monthlyScheduleOp day | .quarterlyScheduleOp day =>
      [⟨operation.componentId, operation.body.operation, some day⟩]
  | _ => []

def randomRequirement : List RandomRequirement :=
  match operation.body with
  | .randomNOp _ _ resample _ => [⟨operation.componentId, resample⟩]
  | _ => []

end StrategyIROperation

section Analysis

variable (operations : Dict String StrategyIROperation)

/-- Look an operation up by id. -/
def analysisGet (id : String) : Analysis (Option StrategyIROperation) := do
  Effect.update (fun read => read ++ [id])
  pure (operations.get? id)

/-- Symbols that an operation takes its assets from. -/
def assetSymbols : Nat → String → Analysis (List String)
  | 0, _ => Effect.fail .outOfFuel
  | fuel + 1, id => do
      let operation ← analysisGet operations id
      match operation.map StrategyIROperation.body with
      | some (.assetSetOp symbols) | some (.universeOp symbols) => pure symbols
      | some (.elapsedSessionsGateOp candidates _ _) => assetSymbols fuel candidates
      | some (.topNOp ranked _ _) => assetSymbols fuel ranked
      | some (.rankOp scores _ _) => assetSymbols fuel scores
      | some (.filterOp scores _ _ _) => assetSymbols fuel scores
      | some (.trailingReturnOp assets _) => assetSymbols fuel assets
      | _ => pure []

def historyRequirement (operation : StrategyIROperation) :
    Analysis (List DailyHistoryRequirement) :=
  match operation.body with
  | .trailingReturnOp assets lookbackBars => do
      let source ← analysisGet operations assets
      match source.bind (fun source => source.body.symbols?) with
      | some symbols =>
          pure [⟨operation.componentId, symbols, lookbackBars, lookbackBars + 1⟩]
      | none => pure []
  | .predicateRebalanceOp asset lookbackBars _ _ _ _ comparisons =>
      let observationCount := predicateObservations lookbackBars comparisons
      pure [⟨operation.componentId, sortedSet (predicateAssets asset comparisons),
        max 0 (observationCount - 1), observationCount⟩]
  | _ => pure []

def calendarRequirement (fuel : Nat) (operation : StrategyIROperation) :
    Analysis (List TradingCalendarRequirement) :=
  match operation.body with
  | .elapsedSessionsGateOp .. => do
      let symbols ← assetSymbols operations fuel operation.id
      pure [⟨operation.componentId, symbols⟩]
  | _ => pure []

end Analysis

/-- Operations by id. A later one replaces an earlier one. -/
def StrategyIR.operationsById (ir : StrategyIR) : Dict String StrategyIROperation :=
  Dict.ofList (ir.operations.map (fun operation => (operation.id, operation)))

def bodyOf (operations : Dict String StrategyIROperation) (id : String) : Option IROperationBody :=
  (operations.get? id).map StrategyIROperation.body

def analyzeStrategyIr (fuel : Nat) (ir : StrategyIR) : Analysis StrategyRequirements := do
  let dailyHistory ← Effect.collect (historyRequirement ir.operationsById) ir.operations
  let tradingCalendars ← Effect.collect (calendarRequirement ir.operationsById fuel) ir.operations
  pure {
    assets := sortedSet (ir.operations.flatMap StrategyIROperation.requiredAssets)
    schedules := Sequence.sortBy ScheduleRequirement.sourceComponentId
      (ir.operations.flatMap StrategyIROperation.scheduleRequirement)
    operations := sortedSet (ir.operations.map (fun operation => operation.body.operation))
    randomSelections := Sequence.sortBy RandomRequirement.sourceComponentId
      (ir.operations.flatMap StrategyIROperation.randomRequirement)
    dailyHistory := Sequence.sortBy DailyHistoryRequirement.sourceComponentId dailyHistory
    userState := Sequence.sortBy UserStateRequirement.stateId
      (ir.userState.map (fun state => ⟨state.id, state.componentId⟩))
    tradingCalendars := Sequence.sortBy TradingCalendarRequirement.sourceComponentId
      tradingCalendars }

end RuleTrade
