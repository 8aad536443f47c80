import RuleTrade.IR.Requirements
import RuleTrade.Strategy.ValueSemanticsV1

/-! Lowering of the targets of a Strategy IR. A plan has sleeves, which carry the scale of
all that stands above them, by the id of their allocation. -/

namespace RuleTrade

open Library

/-- Where a lowering ends early. The plan holds readable values and finite numbers only. -/
inductive LoweringStop where
  | lowering (message : String)
  | malformed
  | outOfFuel

/-- What the targets of a branch are lowered to. -/
structure LoweredTargets where
  sleeves : List LeanTargetSleeve := []
  snapshotAllocations : List LeanSnapshotAllocation := []
  exitStateIds : List String := []

def LoweredTargets.merged (lowered other : LoweredTargets) : LoweredTargets where
  sleeves := lowered.sleeves ++ other.sleeves
  snapshotAllocations := lowered.snapshotAllocations ++ other.snapshotAllocations
  exitStateIds := lowered.exitStateIds ++ other.exitStateIds

/-- Dictionaries that a lowering fills. -/
structure LoweringState where
  selections : Dict String LeanRandomSelection := Dict.empty
  momentumSelections : Dict String LeanMomentumSelection := Dict.empty
  cooldownStates : Dict String LeanCooldownState := Dict.empty
  sleeves : Dict String LeanTargetSleeve := Dict.empty
  snapshots : Dict String LeanTargetSnapshot := Dict.empty

abbrev Lowering := Library.Effect LoweringState LoweringStop

/-- `LeanLoweringError`. -/
def refuse {α : Type} (message : String) : Lowering α := Effect.fail (.lowering message)

/-- What is there, or a failure. -/
def required {α : Type} (stop : LoweringStop) : Option α → Lowering α
  | some a => pure a
  | none => Effect.fail stop

def finiteNumber : ExtendedDecimal → Lowering ℚ
  | .finite value => pure value
  | _ => Effect.fail .malformed

def putSleeve (sleeve : LeanTargetSleeve) : Lowering PUnit :=
  Effect.update (fun state => { state with sleeves := state.sleeves.set sleeve.id sleeve })

def putSelection (selection : LeanRandomSelection) : Lowering PUnit :=
  Effect.update (fun state =>
    { state with selections := state.selections.set selection.id selection })

def putMomentum (selection : LeanMomentumSelection) : Lowering PUnit :=
  Effect.update (fun state =>
    { state with momentumSelections := state.momentumSelections.set selection.id selection })

def putCooldown (cooldown : LeanCooldownState) : Lowering PUnit :=
  Effect.update (fun state =>
    { state with cooldownStates := state.cooldownStates.set cooldown.id cooldown })

def putSnapshot (snapshot : LeanTargetSnapshot) : Lowering PUnit :=
  Effect.update (fun state =>
    { state with snapshots := state.snapshots.set snapshot.id snapshot })

section Values

/-- `_lower_comparison` of each. -/
def lowerComparisons : List ExecutableComparison → Lowering (List LeanComparison) :=
  Effect.collect (fun comparison => do
    let left ← required .malformed (V1.lowerValue comparison.left)
    let right ← required .malformed (V1.lowerValue comparison.right)
    pure [⟨comparison.operator, left, right⟩])

def lowerClauses : List FilterClause → Lowering (List LeanFilterClause) :=
  Effect.collect (fun clause => do
    let threshold ← finiteNumber clause.threshold
    pure [⟨clause.operator, threshold⟩])

/-- A filter as a selection has it: its test, its clauses and what they compare. -/
structure LoweredFilter where
  operator : Option ComparisonOperator := none
  threshold : Option ℚ := none
  clauses : List LeanFilterClause := []
  eligibility : List LeanComparison := []

def lowerFilter : Option IROperationBody → Lowering LoweredFilter
  | some (.filterOp _ operator threshold clauses) => do
      let threshold ← finiteNumber threshold
      let lowered ← lowerClauses clauses
      let eligibility ← lowerComparisons (clauses.filterMap FilterClause.comparison)
      pure ⟨some operator, some threshold, lowered, eligibility⟩
  | _ => pure {}

end Values

section Lower

variable (ctx : DecimalContext) (operations : Dict String StrategyIROperation)
  (requirements : StrategyRequirements)

/-- `history_requirements`. -/
def historyRequirements : Dict String DailyHistoryRequirement :=
  Dict.ofList (requirements.dailyHistory.map (fun r => (r.sourceComponentId, r)))

/-- `calendar_requirements`. -/
def calendarRequirements : Dict String TradingCalendarRequirement :=
  Dict.ofList (requirements.tradingCalendars.map (fun r => (r.sourceComponentId, r)))

/-- Symbols that a selection of trailing returns takes its members from, with the filter in
between, the score and the rank. -/
structure RankedReturns where
  direction : SortDirection
  value : Option ExecutableValue
  filter : Option IROperationBody
  scoreComponentId : String
  symbols : List String

def rankedReturns (ranked : String) : Option RankedReturns :=
  match bodyOf operations ranked with
  | some (.rankOp scores direction value) =>
      match bodyOf operations scores with
      | some (.filterOp filtered operator threshold clauses) =>
          measured direction value (some (.filterOp filtered operator threshold clauses)) filtered
      | _ => measured direction value none scores
  | _ => none
where
  measured (direction : SortDirection) (value : Option ExecutableValue)
      (filter : Option IROperationBody) (id : String) : Option RankedReturns := do
    let score ← operations.get? id
    match score.body with
    | .trailingReturnOp assets _ =>
        let set ← operations.get? assets
        let symbols ← set.body.symbols?
        some ⟨direction, value, filter, score.componentId, symbols⟩
    | _ => none

/-- The value that a selection ranks by. -/
def lowerRanking (lookbackBars : Int) : Option ExecutableValue → Lowering LeanValue
  | some value => required .malformed (V1.lowerValue value)
  | none => pure (.trailingReturn .candidate lookbackBars.toNat)

def lowerMomentumSelection (ranked : String) (count : Int) (shortagePolicy : ShortagePolicy)
    (selectionId : String) (cooldownStateId : Option String) : Lowering (List String) := do
  let returns ← required (.lowering "Top N must consume ranked trailing returns over an asset set")
    (rankedReturns operations ranked)
  let history ← required (.lowering "trailing return history requirement is missing")
    ((historyRequirements requirements).get? returns.scoreComponentId)
  let filter ← lowerFilter returns.filter
  let ranking ← lowerRanking history.lookbackBars returns.value
  putMomentum {
    id := selectionId
    symbols := returns.symbols
    lookbackBars := history.lookbackBars.toNat
    count := count.toNat
    direction := returns.direction
    filterOperator := filter.operator
    filterThreshold := filter.threshold
    filterClauses := filter.clauses
    shortagePolicy := shortagePolicy
    cooldownStateId := cooldownStateId
    rankingValue := some ranking
    eligibility := filter.eligibility }
  pure returns.symbols

/-- Symbols and selection of an allocation. -/
def lowerMembers (assets : String) : Lowering (List String × Option String) :=
  match operations.get? assets with
  | none => refuse "equal-weight input must be a market asset set or RandomN selection"
  | some upstream =>
      match upstream.body with
      | .assetSetOp symbols | .universeOp symbols => pure (symbols, none)
      | .randomNOp source count resample parameterBindingsJson => do
          let symbols ← required (.lowering "random selection input must be a market asset set")
            ((bodyOf operations source).bind IROperationBody.symbols?)
          putSelection ⟨assets, upstream.componentId, symbols, count.toNat, resample,
            parameterBindingsJson⟩
          pure (symbols, some assets)
      | .topNOp ranked count shortagePolicy => do
          let symbols ← lowerMomentumSelection operations requirements ranked count
            shortagePolicy assets none
          pure (symbols, some assets)
      | .elapsedSessionsGateOp candidates lastExitState minimumCompletedSessions =>
          match bodyOf operations candidates with
          | some (.topNOp ranked count shortagePolicy) => do
              let symbols ← lowerMomentumSelection operations requirements ranked count
                shortagePolicy assets (some lastExitState)
              let calendar ← required (.lowering "cooldown trading-calendar requirement is missing")
                (((calendarRequirements requirements).get? upstream.componentId).bind (·.symbols.head?))
              putCooldown ⟨lastExitState, upstream.componentId, symbols,
                minimumCompletedSessions.toNat, calendar⟩
              pure (symbols, some assets)
          | _ => refuse "cooldown v0 must consume a Top N candidate set"
      | _ => refuse "equal-weight input must be a market asset set or RandomN selection"

/-- `lower_sleeve`, for an allocation with an id. -/
def lowerSleeve (id assets : String) (totalWeight : ExtendedDecimal) :
    Lowering LeanTargetSleeve := do
  let (symbols, selectionId) ← lowerMembers operations requirements assets
  let total ← finiteNumber totalWeight
  let sleeve : LeanTargetSleeve := { id, symbols, totalWeight := total, selectionId }
  putSleeve sleeve
  pure sleeve

/-- A sleeve under a scale, in the portfolio sleeve of a component if it is in one. -/
def LeanTargetSleeve.scaled (sleeve : LeanTargetSleeve) (scale : ℚ) (source : Option String) :
    LeanTargetSleeve :=
  { sleeve with
    totalWeight := ctx.mul sleeve.totalWeight scale
    sourceSleeveComponentId := source
    localTotalWeight := source.map (fun _ => sleeve.totalWeight)
    sourceAllocation := source.map (fun _ => scale) }

/-- The one symbol that a fallback allocates its weight to. -/
def fallbackSymbol (primaryWeight : ExtendedDecimal) (fallback : String) : Lowering String :=
  match bodyOf operations fallback with
  | some (.equalWeightOp assets totalWeight) =>
      match (bodyOf operations assets).bind IROperationBody.symbols? with
      | some [symbol] =>
          if primaryWeight = totalWeight then pure symbol
          else refuse "fallback allocation must match the primary allocation"
      | _ => refuse "LEAN fallback v0 requires one fallback asset"
  | _ => refuse "first-non-empty targets require equal-weight primary and fallback"

/-- `lower_snapshot`, with the lowering of what is retained. -/
def lowerSnapshot (operation : StrategyIROperation) (lower : Lowering LoweredTargets) :
    Lowering LeanTargetSnapshot := do
  match ← Effect.read (fun state => state.snapshots.get? operation.id) with
  | some existing => pure existing
  | none => do
      let lowered ← lower
      if lowered.snapshotAllocations.isEmpty then
        let snapshot : LeanTargetSnapshot :=
          ⟨operation.id, lowered.sleeves.map LeanTargetSleeve.id, operation.componentId⟩
        putSnapshot snapshot
        pure snapshot
      else refuse "retained targets cannot depend on another retained snapshot"

/-- `lower_targets`. The fuel bounds the depth of the recursion. -/
def lowerTargets : Nat → String → ℚ → Option String → Lowering LoweredTargets
  | 0, _, _, _ => Effect.fail .outOfFuel
  | fuel + 1, id, scale, source =>
      match operations.get? id with
      | none => unsupported
      | some operation =>
          match operation.body with
          | .mergeTargetsOp left right => do
              let first ← lowerTargets fuel left scale source
              let second ← lowerTargets fuel right scale source
              pure (first.merged second)
          | .scaleTargetsOp targets factor =>
              if source.isSome then refuse "nested portfolio sleeves are not supported"
              else do
                let factor ← finiteNumber factor
                match operations.get? targets with
                | some ⟨retainedId, retainedComponent, .retainTargetsOp inner⟩ => do
                    let snapshot ← lowerSnapshot ⟨retainedId, retainedComponent, .retainTargetsOp inner⟩
                      (lowerTargets fuel inner 1 none)
                    pure { snapshotAllocations :=
                      [⟨snapshot.id, ctx.mul scale factor, operation.componentId⟩] }
                | _ => lowerTargets fuel targets (ctx.mul scale factor) (some operation.componentId)
          | .equalWeightOp assets totalWeight => do
              let sleeve ← lowerSleeve operations requirements id assets totalWeight
              let lowered := sleeve.scaled ctx scale source
              putSleeve lowered
              pure { sleeves := [lowered] }
          | .firstNonEmptyTargetsOp primary fallback =>
              match bodyOf operations primary with
              | some (.equalWeightOp assets totalWeight) => do
                  let symbol ← fallbackSymbol operations totalWeight fallback
                  let sleeve ← lowerSleeve operations requirements primary assets totalWeight
                  let state ← Effect.read (fun state => state.momentumSelections)
                  if (sleeve.selectionId.bind state.get?).isSome then
                    let lowered :=
                      { sleeve.scaled ctx scale source with fallbackSymbols := [symbol] }
                    putSleeve lowered
                    pure { sleeves := [lowered] }
                  else refuse "LEAN fallback v0 requires a momentum Top N primary selection"
              | _ => refuse "first-non-empty targets require equal-weight primary and fallback"
          | .observeTargetExitsOp targets lastExitState => do
              let lowered ← lowerTargets fuel targets scale source
              let cooldowns ← Effect.read (fun state => state.cooldownStates)
              if cooldowns.contains lastExitState then
                pure { lowered with exitStateIds := lowered.exitStateIds ++ [lastExitState] }
              else refuse "target-exit observer references an unknown cooldown state"
          | _ => unsupported
where
  unsupported : Lowering LoweredTargets :=
    refuse "Rebalance targets must lower from equal-weight, fallback, scaling, or merging"

/-- Weight that a branch allocates. -/
def LoweredTargets.branchWeight (lowered : LoweredTargets) : ℚ :=
  ctx.add (ctx.sum (lowered.sleeves.map LeanTargetSleeve.totalWeight))
    (ctx.sum (lowered.snapshotAllocations.map LeanSnapshotAllocation.factor))

def requireCompleteBranch (lowered : LoweredTargets) (label : String) : Lowering PUnit :=
  if lowered.branchWeight ctx = 1 then pure ⟨⟩
  else refuse (label ++ " target sleeve weights must sum to 1")

/-- Lower both branches of a rebalance. -/
def lowerBranches (fuel : Nat) (targets : String) (otherwiseTargets : Option String) :
    Lowering (LoweredTargets × LoweredTargets) := do
  let lowered ← lowerTargets ctx operations requirements fuel targets 1 none
  match otherwiseTargets with
  | none => do
      requireCompleteBranch ctx lowered "THEN"
      pure (lowered, {})
  | some otherwise => do
      let otherwise ← lowerTargets ctx operations requirements fuel otherwise 1 none
      requireCompleteBranch ctx lowered "THEN"
      requireCompleteBranch ctx otherwise "OTHERWISE"
      pure (lowered, otherwise)

end Lower

end RuleTrade
