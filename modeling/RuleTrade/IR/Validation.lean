import RuleTrade.IR.Strategy
import RuleTrade.Library.DepthFirst
import Mathlib.Data.String.Basic

/-! Validation of the Strategy IR: the fields of every operation, the types of its
operands, cycles, entrypoints, states, and operations that no entrypoint reaches. -/

namespace RuleTrade

open Library

/-- What an issue says. The findings about the whole graph keep the ids they are about. -/
inductive IRMessage where
  | text (message : String)
  | dataflowCycle
  | unusedStates (ids : List String)
  | unusedOperations (ids : List String)
  deriving DecidableEq

def IRMessage.render : IRMessage → String
  | .text message => message
  | .dataflowCycle => "IR dataflow contains a cycle"
  | .unusedStates ids => "unused states: " ++ String.intercalate ", " ids
  | .unusedOperations ids => "unused operations: " ++ String.intercalate ", " ids

structure IRValidationIssue where
  path : String
  message : IRMessage
  deriving DecidableEq

/-- What ends the validation without an answer: a comparison with what is no number, or
the search running out of fuel. -/
inductive IRValidationStop where
  | invalidOperation
  | outOfFuel
  deriving DecidableEq, Repr

/-- An issue with this text, unless the condition holds. -/
def irIssueUnless (condition : Bool) (path message : String) : List IRValidationIssue :=
  if condition then [] else [⟨path, .text message⟩]

section Values

/-- Issues of a value. Those of its operand are given. -/
def valueFieldIssues (path : String) (kind : ExecutableKind) (subject : Option ExecutableSubject)
    (asset : Option String) (literal : Option ExtendedDecimal) (observations : Option Int)
    (aggregate : Option LeanAggregate) (factor : Option ExtendedDecimal)
    (operandIssues : List IRValidationIssue) : List IRValidationIssue :=
  let market := kind = .trailingReturn ∨ kind = .currentPrice ∨ kind = .rollingPrice
  irIssueUnless (kind != .literal || literal.any ExtendedDecimal.isFinite) (path ++ ".literal")
      "literal must be a finite decimal" ++
    irIssueUnless ((kind != .trailingReturn && kind != .rollingPrice) ||
        observations.any (fun n : Int => 1 ≤ n && n ≤ 1000))
      (path ++ ".observations") "window must be between 1 and 1000" ++
    irIssueUnless (kind != .rollingPrice || aggregate.isSome) (path ++ ".aggregate")
      "unsupported rolling aggregate" ++
    (if market then
      irIssueUnless subject.isSome (path ++ ".subject") "market value requires a subject" ++
        irIssueUnless (subject != some .asset || asset.any (· != "")) (path ++ ".asset")
          "explicit asset subject requires a symbol" ++
        irIssueUnless (subject != some .candidate || asset.isNone) (path ++ ".asset")
          "candidate subject cannot fix an asset"
    else []) ++
    (if kind = .scale then
      operandIssues ++ irIssueUnless (factor.any ExtendedDecimal.isFinite) (path ++ ".factor")
        "scale factor must be finite"
    else [])

def validateValue : ExecutableValue → String → List IRValidationIssue
  | ⟨kind, _, subject, asset, literal, observations, aggregate, none, factor⟩, path =>
      valueFieldIssues path kind subject asset literal observations aggregate factor
        [⟨path ++ ".operand", .text "scale requires an operand"⟩]
  | ⟨kind, _, subject, asset, literal, observations, aggregate, some operand, factor⟩, path =>
      valueFieldIssues path kind subject asset literal observations aggregate factor
        (validateValue operand (path ++ ".operand"))

def validateExecutableComparison (path : String) (comparison : ExecutableComparison) :
    List IRValidationIssue :=
  validateValue comparison.left (path ++ ".left") ++
    validateValue comparison.right (path ++ ".right") ++
    irIssueUnless (comparison.left.valueType = comparison.right.valueType) path
      "comparison operands must have the same value type"

/-- Issues of the comparisons of a list, numbered in it. -/
def indexedComparisonIssues (path : String → String) (comparisons : List (Option ExecutableComparison)) :
    List IRValidationIssue :=
  (comparisons.mapIdx (fun index comparison =>
    comparison.elim [] (validateExecutableComparison (path (toString index))))).flatten

end Values

section Operations

def isOrdered (operator : ComparisonOperator) : Bool :=
  operator = .gt || operator = .gte || operator = .lt || operator = .lte

def IRType.text : IRType → String
  | .event => "event"
  | .assetSet => "asset_set"
  | .assetScores => "asset_scores"
  | .rankedAssets => "ranked_assets"
  | .portfolioTargets => "portfolio_targets"
  | .effect => "effect"

def unknownStateIssues (path : String) (states : List String) (state : String) :
    List IRValidationIssue :=
  irIssueUnless (state ∈ states) (path ++ ".last_exit_state") ("unknown user state: " ++ state)

/-- Issues of the fields an operation has of its own. -/
def bodyIssues (path : String) (states : List String) :
    IROperationBody → Except DivisionFailure (List IRValidationIssue)
  | .monthlyScheduleOp day =>
      .ok (irIssueUnless (1 ≤ day && day ≤ 31) (path ++ ".day") "monthly day must be between 1 and 31")
  | .quarterlyScheduleOp day =>
      .ok (irIssueUnless (1 ≤ day && day ≤ 31) (path ++ ".day")
        "quarterly day must be between 1 and 31")
  | .assetSetOp symbols | .universeOp symbols =>
      .ok (irIssueUnless (!symbols.isEmpty && symbols.Nodup) (path ++ ".symbols")
        "asset set must contain unique symbols")
  | .randomNOp _ count _ _ =>
      .ok (irIssueUnless (1 ≤ count) (path ++ ".count") "random count must be positive")
  | .trailingReturnOp _ lookbackBars =>
      .ok (irIssueUnless (1 ≤ lookbackBars) (path ++ ".lookback_bars") "lookback must be positive")
  | .filterOp _ operator threshold clauses =>
      .ok (irIssueUnless (isOrdered operator) (path ++ ".operator") "unsupported filter operator" ++
        irIssueUnless (threshold.isFinite && clauses.all (fun clause => clause.threshold.isFinite))
          (path ++ ".threshold") "filter thresholds must be finite decimals" ++
        indexedComparisonIssues (fun index => path ++ ".clauses[" ++ index ++ "].comparison")
          (clauses.map FilterClause.comparison))
  | .predicateRebalanceOp _ lookbackBars operator threshold _ _ comparisons =>
      .ok (irIssueUnless (1 ≤ lookbackBars) (path ++ ".lookback_bars") "lookback must be positive" ++
        irIssueUnless (isOrdered operator) (path ++ ".operator") "unsupported predicate operator" ++
        irIssueUnless threshold.isFinite (path ++ ".threshold") "predicate threshold must be finite" ++
        indexedComparisonIssues (fun index => path ++ ".comparisons[" ++ index ++ "]")
          (comparisons.map some))
  | .rankOp _ _ value => .ok (value.elim [] (fun value => validateValue value (path ++ ".value")))
  | .topNOp _ count _ =>
      .ok (irIssueUnless (1 ≤ count) (path ++ ".count") "Top N count must be positive")
  | .elapsedSessionsGateOp _ lastExitState minimumCompletedSessions =>
      .ok (irIssueUnless (1 ≤ minimumCompletedSessions) (path ++ ".minimum_completed_sessions")
          "elapsed-session minimum must be positive" ++
        unknownStateIssues path states lastExitState)
  | .observeTargetExitsOp _ lastExitState => .ok (unknownStateIssues path states lastExitState)
  | .equalWeightOp _ totalWeight => do
      let inUnit ← totalWeight.inUnit
      .ok (irIssueUnless inUnit (path ++ ".total_weight")
        "weight must be greater than 0 and at most 1")
  | .scaleTargetsOp _ factor => do
      let inUnit ← factor.inUnit
      .ok (irIssueUnless inUnit (path ++ ".factor")
        "scale factor must be greater than 0 and at most 1")
  | .firstNonEmptyTargetsOp primary fallback =>
      .ok (irIssueUnless (primary != fallback) (path ++ ".fallback")
        "fallback targets must differ from primary targets")
  | .dailyScheduleOp | .mergeTargetsOp .. | .retainTargetsOp .. | .rebalanceOp .. => .ok []

/-- Operations by id: the first with an id counts, one without an id never does. -/
def addOperation (operations : Dict String StrategyIROperation) (operation : StrategyIROperation) :
    Dict String StrategyIROperation :=
  if operation.id = "" ∨ operations.contains operation.id = true then operations
  else operations.set operation.id operation

def idIssues (path : String) (operations : Dict String StrategyIROperation) (id : String) :
    List IRValidationIssue :=
  if id = "" then [⟨path ++ ".id", .text "operation id is required"⟩]
  else irIssueUnless (!operations.contains id) (path ++ ".id") ("duplicate operation id: " ++ id)

/-- Collect the operations and the issues of each. -/
def collectOperations (states : List String) :
    Nat → Dict String StrategyIROperation → List StrategyIROperation →
      Except DivisionFailure (Dict String StrategyIROperation × List IRValidationIssue)
  | _, operations, [] => .ok (operations, [])
  | index, operations, operation :: rest => do
      let path := "operations[" ++ toString index ++ "]"
      let own ← bodyIssues path states operation.body
      let (all, later) ← collectOperations states (index + 1) (addOperation operations operation) rest
      .ok (all, idIssues path operations operation.id ++
        irIssueUnless (operation.componentId != "") (path ++ ".provenance")
          "source component id is required" ++ own ++ later)

end Operations

section Graph

variable (operations : Dict String StrategyIROperation)

def operandIds (id : String) : List String :=
  ((operations.get? id).map (fun operation => operation.body.operands.map IROperand.id)).getD []

/-- An order in which the set of dependencies of an operation is run through. -/
structure DependencyOrder where
  iterate : List String → List String
  perm : ∀ ids, (iterate ids).Perm ids

/-- Operands of an operation that exist. -/
def dependencies (order : DependencyOrder) (id : String) : List String :=
  order.iterate ((operandIds operations id).filter (fun operand => operations.contains operand)).dedup

def operandIssues (id : String) (operand : IROperand) : List IRValidationIssue :=
  let path := "operations[" ++ id ++ "]." ++ operand.name
  match operations.get? operand.id with
  | none => [⟨path, .text ("unknown operand: " ++ operand.id)⟩]
  | some source =>
      irIssueUnless (source.body.resultType = operand.expected) path
        ("expected " ++ operand.expected.text ++ ", got " ++ source.body.resultType.text)

/-- Symbols of the asset set an id names. -/
def setSymbols? (id : String) : Option (List String) :=
  (operations.get? id).bind (fun operation => operation.body.symbols?)

/-- Symbols of the asset set that the scores of a rank are computed for. -/
def rankedSymbols? (ranked : String) : Option (List String) :=
  match (operations.get? ranked).map StrategyIROperation.body with
  | some (.rankOp scores ..) =>
      match (operations.get? scores).map StrategyIROperation.body with
      | some (.filterOp filtered ..) =>
          match (operations.get? filtered).map StrategyIROperation.body with
          | some (.trailingReturnOp assets _) => setSymbols? operations assets
          | _ => none
      | some (.trailingReturnOp assets _) => setSymbols? operations assets
      | _ => none
  | _ => none

/-- A count that is larger than the set it takes from. -/
def countIssues (id : String) : IROperationBody → List IRValidationIssue
  | .randomNOp assets count _ _ =>
      irIssueUnless ((setSymbols? operations assets).all (fun symbols => count ≤ symbols.length))
        ("operations[" ++ id ++ "].count") "RandomSelect count cannot exceed its asset set size"
  | .topNOp ranked count _ =>
      irIssueUnless ((rankedSymbols? operations ranked).all (fun symbols => count ≤ symbols.length))
        ("operations[" ++ id ++ "].count") "Top N count cannot exceed its asset set size"
  | _ => []

def dataflowIssues : List IRValidationIssue :=
  operations.entries.flatMap (fun entry =>
    entry.2.body.operands.flatMap (operandIssues operations entry.1) ++
      countIssues operations entry.1 entry.2.body)

def cycleIssues (order : DependencyOrder) (fuel : Nat) :
    Except IRValidationStop (List IRValidationIssue) :=
  match DepthFirst.findsCycle (dependencies operations order) fuel operations.keys with
  | none => .error .outOfFuel
  | some true => .ok [⟨"operations", .dataflowCycle⟩]
  | some false => .ok []

end Graph

section Entrypoints

variable (ir : StrategyIR) (operations : Dict String StrategyIROperation)

def isEntryTarget : IROperationBody → Bool
  | .retainTargetsOp .. | .rebalanceOp .. | .predicateRebalanceOp .. => true
  | _ => false

def entrypointIssues (index : Nat) (entrypoint : IREntrypoint) : List IRValidationIssue :=
  let path := "entrypoints[" ++ toString index ++ "]"
  irIssueUnless ((operations.get? entrypoint.event).any (fun event => event.body.isSchedule))
      (path ++ ".event") "entrypoint event must be a schedule" ++
    irIssueUnless ((operations.get? entrypoint.target).any (fun target => isEntryTarget target.body))
      (path ++ ".target") "entrypoint target must refresh retained targets or rebalance"

/-- What marking starts from. -/
def StrategyIR.roots : List String :=
  ir.entrypoints.flatMap (fun entrypoint => [entrypoint.event, entrypoint.target])

/-- The operations that the entrypoints reach. -/
def reachableOperations (fuel : Nat) : Except IRValidationStop (List String) :=
  match ir.roots.foldlM (fun marked root =>
      DepthFirst.mark (operandIds operations) operations.keys fuel root marked) [] with
  | none => .error .outOfFuel
  | some marked => .ok marked

/-- Retained targets need an entrypoint that refreshes them. -/
def refreshIssues : List IRValidationIssue :=
  operations.values.flatMap (fun operation =>
    match operation.body with
    | .retainTargetsOp _ =>
        irIssueUnless (operation.id ∈ ir.entrypoints.map IREntrypoint.target)
          ("operations[" ++ operation.id ++ "]")
          "retained targets must have a scheduled refresh entrypoint"
    | _ => [])

def gatedState? : IROperationBody → Option String
  | .elapsedSessionsGateOp _ lastExitState _ => some lastExitState
  | _ => none

def observedState? : IROperationBody → Option String
  | .observeTargetExitsOp _ lastExitState => some lastExitState
  | _ => none

/-- Every state is used by one gate and one observer. -/
def stateUseIssues (states : List String) : List IRValidationIssue :=
  let gated := operations.values.filterMap (fun operation => gatedState? operation.body)
  let observed := operations.values.filterMap (fun operation => observedState? operation.body)
  let unused := sortedSet (states.filter (fun state => state ∉ gated ∧ state ∉ observed))
  (if unused.isEmpty then [] else [⟨"user_state", .unusedStates unused⟩]) ++
    states.flatMap (fun state =>
      irIssueUnless (gated.count state = 1) ("user_state[" ++ state ++ "]")
          "last-exit state must have exactly one elapsed-session gate" ++
        irIssueUnless (observed.count state = 1) ("user_state[" ++ state ++ "]")
          "last-exit state must have exactly one target-exit observer")

def unusedIssues (reachable : List String) : List IRValidationIssue :=
  let unused := sortedSet (operations.keys.filter (fun id => id ∉ reachable))
  if unused.isEmpty then [] else [⟨"operations", .unusedOperations unused⟩]

/-- Issues of the states before any operation is read. -/
def StrategyIR.stateIssues : List IRValidationIssue :=
  irIssueUnless ((ir.userState.map PerAssetState.id).Nodup) "user_state" "state ids must be unique" ++
    (ir.userState.mapIdx (fun index state =>
      irIssueUnless (state.id != "") ("user_state[" ++ toString index ++ "].id")
          "state id is required" ++
        irIssueUnless (state.componentId != "") ("user_state[" ++ toString index ++ "].provenance")
          "source component id is required")).flatten

def StrategyIR.stateIds : List String :=
  (Dict.ofList (ir.userState.map (fun state => (state.id, state)))).keys

end Entrypoints

/-- All issues of a Strategy IR, in the order in which they are found. -/
def collectIrValidationIssues (order : DependencyOrder) (fuel : Nat) (ir : StrategyIR) :
    Except IRValidationStop (List IRValidationIssue) :=
  match collectOperations ir.stateIds 0 Dict.empty ir.operations with
  | .error _ => .error .invalidOperation
  | .ok (operations, own) => do
      let cycles ← cycleIssues operations order fuel
      let reachable ← reachableOperations ir operations fuel
      .ok (irIssueUnless (ir.strategyIdentity != "") "strategy_identity"
            "strategy identity is required" ++
        irIssueUnless (!ir.entrypoints.isEmpty) "entrypoints" "at least one entrypoint is required" ++
        ir.stateIssues ++ own ++ dataflowIssues operations ++ cycles ++
        (ir.entrypoints.mapIdx (entrypointIssues operations)).flatten ++
        refreshIssues ir operations ++ stateUseIssues operations ir.stateIds ++
        unusedIssues operations reachable)

/-- Accepted: the validation ends without an issue. -/
def validateStrategyIr (order : DependencyOrder) (fuel : Nat) (ir : StrategyIR) : Prop :=
  collectIrValidationIssues order fuel ir = .ok []

end RuleTrade
