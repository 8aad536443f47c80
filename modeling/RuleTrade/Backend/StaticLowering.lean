import RuleTrade.Backend.Plan
import RuleTrade.Strategy.Canonical

/-! Lowering of Programs that only select, allocate and branch. What the plan
cannot carry is refused with the message of the lowering. -/

namespace RuleTrade

open Library

section Kinds

def DailyValueNode.kindText : DailyValueNode → String
  | .literal _ _ _ _ _ => "literal"
  | .observe _ _ _ => "observe"
  | .current _ _ => "current"
  | .history _ _ _ _ => "history"
  | .indicator _ kind _ _ _ => kind.text
  | .absolute _ _ => "absolute"
  | .reduce _ _ _ _ _ _ _ => "reduce"
  | .arithmetic _ _ _ _ => "arithmetic"

def ValueExpression.kindText : ValueExpression → String
  | .daily node => node.kindText
  | .literal _ _ _ _ _ => "literal"
  | .candidateTrailingReturn _ _ _ _ => "candidate_trailing_return"
  | .candidateCurrentPrice _ _ _ => "candidate_current_price"
  | .crossSectional _ _ _ _ _ _ => "cross_sectional"
  | .crossSectionalAggregate _ _ _ _ _ => "cross_sectional_aggregate"
  | .score _ _ _ _ => "score"
  | .eventRelative _ _ _ _ => "event_relative"
  | .clockedValue _ _ _ => "clocked_value"
  | .rememberedValue _ _ _ _ _ => "remembered_value"
  | .barsSinceEvent _ _ => "bars_since_event"
  | .barsSinceState _ _ => "bars_since_state"
  | .timeSinceEvent _ _ => "time_since_event"
  | .timeSinceState _ _ => "time_since_state"

def Condition.kindText : Condition → String
  | .comparison _ _ _ _ => "comparison"
  | .booleanGroup _ kind _ => kind.text
  | .not _ _ => "not"
  | .stateEquals _ _ _ => "state_equals"
  | .nOfM _ _ _ => "n_of_m"
  | .eventWindow _ _ _ => "event_window"

end Kinds

section Values

/-- Price observations a lowered value needs. -/
def LeanValue.observations : LeanValue → Nat
  | .literal _ _ => 0
  | .currentPrice _ => 1
  | .trailingReturn _ observations => observations + 1
  | .rollingPrice _ observations _ => observations
  | .scale operand _ => operand.observations
  | .weightedScore terms _ => termObservations terms
where
  termObservations : List LeanScoreTerm → Nat
    | [] => 0
    | .mk value _ :: rest => max value.observations (termObservations rest)

def literalType (quantity : Quantity) (unit : Unit) : LeanValueType :=
  if quantity = .return ∧ unit = .ratio then .percentage
  else if quantity = .price ∧ unit = .usdPerShare then .moneyPerShare
  else .decimal

/-- Subject of a node. Anything but a Candidate is taken for an asset. -/
def NodeAttrs.leanSubject (attrs : NodeAttrs) : LeanSubject :=
  if attrs.subjectKind = some .candidate then .candidate else .asset attrs.subjectId

/-- A term of a weighted Score. A product needs a literal factor, and the right
one is looked at first. -/
def leanDailyValue : DailyValueNode → Except CompileError LeanValue
  | .literal _ value _ _ _ => .ok (.literal .decimal value)
  | .indicator attrs kind observations skip operand =>
      if operand.attrs.subjectKind = some .candidate ∧ kind = .trailingReturn then
        .ok (.trailingReturn .candidate observations)
      else if operand.attrs.subjectKind = some .candidate ∧ kind = .sma then
        .ok (.rollingPrice .candidate observations .mean)
      else refuse (.indicator attrs kind observations skip operand)
  | .observe attrs field basis =>
      if attrs.subjectKind = some .candidate ∧ field = .close ∧ basis = .adjusted then
        .ok (.currentPrice .candidate)
      else refuse (.observe attrs field basis)
  | .arithmetic _ .multiply left (.literal _ factor _ _ _) => do
      let operand ← leanDailyValue left
      .ok (.scale operand factor)
  | .arithmetic _ .multiply (.literal _ factor _ _ _) right => do
      let operand ← leanDailyValue right
      .ok (.scale operand factor)
  | node => refuse node
where
  refuse (node : DailyValueNode) : Except CompileError LeanValue :=
    .error (.refused ("DailyValue " ++ quoted node.kindText ++ " has no weighted-Score LEAN lowering"))

def leanScoreTerms : List ScoreTerm → Except CompileError (List LeanScoreTerm)
  | [] => .ok []
  | .mk _ (.daily node) weight :: rest => do
      let value ← leanDailyValue node
      let terms ← leanScoreTerms rest
      .ok (.mk value weight :: terms)
  | _ :: _ =>
      .error (.refused "weighted-Score LEAN lowering currently requires scalar DailyValue terms")

def leanScoreValue (terms : List ScoreTerm) (conditionTerms : List ConditionPointTerm)
    (policy : ScorePolicy) : Except CompileError LeanValue :=
  if conditionTerms ≠ [] then
    .error (.refused "weighted-Score LEAN lowering currently requires Value terms only")
  else do
    let lowered ← leanScoreTerms terms
    .ok (.weightedScore lowered policy)

/-- Lower a value of a ranking or a comparison. -/
def programValue : ValueExpression → Except CompileError LeanValue
  | .daily (.literal _ value quantity unit _) => .ok (.literal (literalType quantity unit) value)
  | .daily (.observe attrs field basis) =>
      if field = .close ∧ basis = .adjusted then .ok (.currentPrice attrs.leanSubject)
      else refuse (.daily (.observe attrs field basis))
  | .daily (.indicator attrs kind observations skip operand) =>
      match kind with
      | .trailingReturn => .ok (.trailingReturn operand.attrs.leanSubject observations)
      | .sma => .ok (.rollingPrice operand.attrs.leanSubject observations .mean)
      | _ => refuse (.daily (.indicator attrs kind observations skip operand))
  | .candidateTrailingReturn _ _ lookbackObservations _ =>
      .ok (.trailingReturn .candidate lookbackObservations)
  | .candidateCurrentPrice _ _ _ => .ok (.currentPrice .candidate)
  | .literal _ value quantity unit _ => .ok (.literal (literalType quantity unit) value)
  | .score _ terms conditionTerms policy => leanScoreValue terms conditionTerms policy
  | value => refuse value
where
  refuse (value : ValueExpression) : Except CompileError LeanValue :=
    .error (.refused ("Program Value " ++ quoted value.kindText ++ " has no maintained LEAN lowering"))

mutual

/-- Comparisons a condition is the conjunction of. -/
def programComparisons : Condition → Except CompileError (List LeanComparison)
  | .comparison _ operator left right => do
      let left ← programValue left
      let right ← programValue right
      .ok [{ operator := operator, left := left, right := right }]
  | .booleanGroup _ .all children => allProgramComparisons children
  | condition =>
      .error (.refused ("Program Condition " ++ quoted condition.kindText ++
        " is valid but has no maintained conditional LEAN lowering"))

def allProgramComparisons : List Condition → Except CompileError (List LeanComparison)
  | [] => .ok []
  | child :: rest => do
      let comparisons ← programComparisons child
      let later ← allProgramComparisons rest
      .ok (comparisons ++ later)

end

end Values

section Statements

mutual

/-- A statement and all statements inside it. -/
def ProgramStatement.flattened : ProgramStatement → List ProgramStatement
  | .control head thenStatements otherwiseStatements =>
      .control head thenStatements otherwiseStatements ::
        (programStatements thenStatements ++ programStatements otherwiseStatements)
  | .onEvent semanticId event statements =>
      .onEvent semanticId event statements :: programStatements statements
  | statement => [statement]

def programStatements : List ProgramStatement → List ProgramStatement
  | [] => []
  | statement :: rest => statement.flattened ++ programStatements rest

end

def ProgramStatement.selection? : ProgramStatement → Option SelectionStatement
  | .select s => some s
  | _ => none

def ProgramStatement.allocation? : ProgramStatement → Option AllocationStatement
  | .allocate s => some s
  | _ => none

/-- A Control with its two branches. -/
structure ConditionalStatement where
  head : ConditionalHead
  thenStatements : List ProgramStatement
  otherwiseStatements : List ProgramStatement

def ProgramStatement.control? : ProgramStatement → Option ConditionalStatement
  | .control head thenStatements otherwiseStatements =>
      some ⟨head, thenStatements, otherwiseStatements⟩
  | _ => none

/-- Selections, allocations and Controls are what the static lowering knows. -/
def ProgramStatement.isStatic : ProgramStatement → Bool
  | .select _ | .allocate _ | .control _ _ _ => true
  | _ => false

/-- The placeholder every new Program starts with. -/
def ProgramStatement.isInitialRetain : ProgramStatement → Bool
  | .allocate s =>
      s.semanticId = "initial-retain-allocation" &&
        (s.legs.map (fun leg => leg.target.kind) = [.retain])
  | _ => false

end Statements

section Selections

variable (definitions : StrategyDefinitions)

def lowerEligibility : Option Condition → Except CompileError (List LeanComparison)
  | none => .ok []
  | some eligibility => programComparisons eligibility

/-- The plan copies what a Selection decides by. -/
def selectionPlan (s : Selection) (symbols : List String) (ranking : LeanValue)
    (eligibility : List LeanComparison) : LeanMomentumSelection where
  id := s.semanticId
  symbols := symbols
  lookbackBars := max 1 (ranking.observations - 1)
  count := s.count
  direction := s.direction
  shortagePolicy := s.shortagePolicy
  rankingValue := some ranking
  eligibility := eligibility

def lowerSelection (statement : SelectionStatement) : Except CompileError LeanMomentumSelection :=
  if definitions.groupAssets statement.selection.universeId = [] then
    .error (.refused ("Selection " ++ quoted statement.semanticId ++ " requires a non-empty Group"))
  else do
    let ranking ← programValue statement.selection.ranking
    let eligibility ← lowerEligibility statement.selection.eligibility
    .ok (selectionPlan statement.selection
      (definitions.groupAssets statement.selection.universeId) ranking eligibility)

/-- Selections by their output. The lowering refuses a repeated output. -/
def selectionsByOutput (statements : List SelectionStatement) : Dict String SelectionStatement :=
  Dict.ofList (statements.map (fun s => (s.outputId, s)))

/-- Lowered selections by their semantic id, in order of statement. -/
def lowerSelections :
    List SelectionStatement → Dict String LeanMomentumSelection →
      Except CompileError (Dict String LeanMomentumSelection)
  | [], lowered => .ok lowered
  | statement :: rest, lowered => do
      let selection ← lowerSelection definitions statement
      lowerSelections rest (lowered.set statement.selection.semanticId selection)

/-- Symbols a selection can end up in. -/
def selectionSymbols (statement : SelectionStatement) : List String :=
  definitions.groupAssets statement.selection.universeId ++
    statement.selection.fallbackAsset.toList

end Selections

section Sleeves

variable (definitions : StrategyDefinitions) (outputs : Dict String SelectionStatement)
  (selections : Dict String LeanMomentumSelection)

/-- Sleeves lowered so far, by leg, and the symbols they touch. -/
structure LoweredSleeves where
  sleeves : Dict String LeanTargetSleeve := Dict.empty
  symbols : List String := []

/-- What a leg puts its weight into. -/
structure SleeveTarget where
  symbols : List String
  selectionId : Option String := none
  fallbackSymbols : List String := []

def sleeveTarget (kind : AllocationTargetKind) : Except CompileError SleeveTarget :=
  match kind with
  | .asset ref => .ok { symbols := [ref] }
  | .group ref => .ok { symbols := definitions.groupAssets ref }
  | .selection ref =>
      match outputs.get? ref with
      | none =>
          .error (.refused ("Investment references unknown Subgroup " ++ quoted ref))
      | some statement =>
          match selections.get? statement.selection.semanticId with
          | none => .error (.keyMissing statement.selection.semanticId)
          | some selection =>
              .ok {
                symbols := selection.symbols
                selectionId := some statement.selection.semanticId
                fallbackSymbols := statement.selection.fallbackAsset.toList }
  | .cash | .retain =>
      .error (.refused ("Program target " ++ quoted kind.text ++
        " has no maintained static lowering"))

/-- Sleeve of one leg. Only a fixed allocation has weights of its own. -/
def lowerLeg (a : AllocationStatement) (leg : AllocationLeg) :
    Except CompileError LeanTargetSleeve := do
  let target ← sleeveTarget definitions outputs selections leg.target.kind
  if target.symbols = [] then
    .error (.refused ("Investment target " ++ quoted (leg.target.kind.ref.getD "None") ++
      " has no assets"))
  else
    match if a.method = .fixed then leg.weight else some 1 with
    | none => .error .assertionFailed
    | some total =>
        let shared := 1 < a.legs.length
        .ok {
          id := leg.semanticId
          symbols := target.symbols
          totalWeight := total
          selectionId := target.selectionId
          fallbackSymbols := target.fallbackSymbols
          sourceSleeveComponentId := if shared then some leg.semanticId else none
          localTotalWeight := if shared then some 1 else none
          sourceAllocation := if shared then some total else none
          weightingMethod :=
            if a.method = .proportionalScore then .proportionalScore else .equal }

def lowerLegs (a : AllocationStatement) :
    List AllocationLeg → LoweredSleeves → Except CompileError LoweredSleeves
  | [], lowered => .ok lowered
  | leg :: rest, lowered => do
      let sleeve ← lowerLeg definitions outputs selections a leg
      lowerLegs a rest {
        sleeves := lowered.sleeves.set sleeve.id sleeve
        symbols := lowered.symbols ++ sleeve.symbols ++ sleeve.fallbackSymbols }

def totalWeight (sleeves : Dict String LeanTargetSleeve) (ids : List String) : ℚ :=
  (ids.map (fun id => ((sleeves.get? id).map LeanTargetSleeve.totalWeight).getD 0)).sum

/-- Sleeves of an allocation, which must be worth exactly one. -/
def allocationSleeves (a : AllocationStatement) (lowered : LoweredSleeves) :
    Except CompileError (LoweredSleeves × List String) :=
  if a.minimumWeight.isSome ∨ a.maximumWeight.isSome ∨ a.cashRemainderAsset.isSome then
    .error (.refused "bounded Program allocation has no maintained LEAN lowering")
  else if a.method = .inverseVolatility then
    .error (.refused ("unsupported Program allocation: " ++ a.method.text))
  else do
    let lowered ← lowerLegs definitions outputs selections a a.legs lowered
    let ids := a.legs.map AllocationLeg.semanticId
    if totalWeight lowered.sleeves ids ≠ 1 then
      .error (.refused "Portfolio Investment weights must sum exactly to 1")
    else .ok (lowered, ids)

end Sleeves

section Routing

/-- Clock of statements that name none. A Program has a first clock. -/
def SemanticProgram.firstClockId (program : SemanticProgram) : String :=
  (program.clocks.head?.map ProgramClock.id).getD ""

/-- The rebalance that routes a Program, its sleeves, and the clock it runs on. -/
structure StaticRoute where
  rebalance : LeanRebalance
  lowered : LoweredSleeves
  clockId : String

variable (definitions : StrategyDefinitions) (outputs : Dict String SelectionStatement)
  (selections : Dict String LeanMomentumSelection) (program : SemanticProgram)

def routeAllocation (a : AllocationStatement) : Except CompileError StaticRoute := do
  let (lowered, ids) ← allocationSleeves definitions outputs selections a {}
  .ok {
    rebalance := { id := a.semanticId, sleeveIds := ids }
    lowered := lowered
    clockId := a.clockId.getD program.firstClockId }

/-- Each branch must hold exactly one allocation of its own. -/
def routeControl (control : ConditionalStatement) : Except CompileError StaticRoute :=
  match control.thenStatements.filterMap ProgramStatement.allocation?,
      control.otherwiseStatements.filterMap ProgramStatement.allocation? with
  | [thenAllocation], [otherwiseAllocation] => do
      let (lowered, ids) ← allocationSleeves definitions outputs selections thenAllocation {}
      let condition ← programComparisons control.head.condition
      let (lowered, otherwiseIds) ←
        allocationSleeves definitions outputs selections otherwiseAllocation lowered
      .ok {
        rebalance := {
          id := control.head.semanticId
          sleeveIds := ids
          condition := condition
          conditionThreeValued := true
          conditionUnknownPolicy := control.head.unknownPolicy
          otherwiseSleeveIds := otherwiseIds }
        lowered := lowered
        clockId := control.head.clockId.getD program.firstClockId }
  | _, _ =>
      .error (.refused "conditional Investment requires one Allocation in THEN and OTHERWISE")

/-- Route of the top-level statements; none when they only select. -/
def routeStatements (statements : List ProgramStatement) :
    Except CompileError (Option StaticRoute) :=
  match statements.filterMap ProgramStatement.allocation?,
      statements.filterMap ProgramStatement.control? with
  | [], [] => .ok none
  | _ :: _, _ :: _ =>
      .error (.refused "top-level Allocation and conditional routing cannot be mixed")
  | [allocation], [] => (routeAllocation definitions outputs selections program allocation).map some
  | [], [control] => (routeControl definitions outputs selections program control).map some
  | _, _ => .error (.refused "static Program lowering requires one Portfolio routing statement")

/-- Selections that sleeves of the route read. -/
def StaticRoute.referenced (route : StaticRoute) : List String :=
  (route.rebalance.sleeveIds ++ route.rebalance.otherwiseSleeveIds).filterMap (fun id =>
    (route.lowered.sleeves.get? id).bind LeanTargetSleeve.selectionId)

end Routing

section Compile

/-- Clocks by id. -/
def SemanticProgram.clock? (program : SemanticProgram) (clockId : String) : Option ProgramClock :=
  program.clocks.find? (fun clock => clock.id = clockId)

/-- Event that trades a route on its clock. -/
def StaticRoute.event (route : StaticRoute) (clock : ProgramClock) (schedule : LeanSchedule)
    (symbols : List String) : LeanScheduledEvent where
  id := clock.id ++ "-event"
  schedule := schedule
  anchorSymbol := symbols.headD ""
  rebalanceIds := [route.rebalance.id]
  requiredSymbols := symbols

/-- Plan of a route on its clock. -/
def StaticRoute.plan (route : StaticRoute) (clock : ProgramClock)
    (selections : Dict String LeanMomentumSelection) (symbols : List String) (identity : String) :
    LeanPlan where
  strategyIdentity := identity
  subscriptions := symbols
  targetSleeves := route.lowered.sleeves.values
  rebalances := [route.rebalance]
  momentumSelections := selections.values
  monthlyEvents :=
    if clock.timeframe = .monthly then [route.event clock (.monthly 1 .end) symbols] else []
  dailyEvents := if clock.timeframe = .daily then [route.event clock .daily symbols] else []

/-- Statements the static lowering looks at. -/
def SemanticProgram.staticStatements (program : SemanticProgram) : List ProgramStatement :=
  program.statements.filter (fun statement => !statement.isInitialRetain)

/-- Checks of a route, and its plan. -/
def StaticRoute.compile (route : StaticRoute) (program : SemanticProgram)
    (selections : Dict String LeanMomentumSelection) (symbols : List String) (identity : String) :
    Except CompileError LeanPlan :=
  let missing := sortedSet (selections.keys.filter (fun id => id ∉ route.referenced))
  if missing ≠ [] then
    .error (.refused ("Selection outputs have no Investment: " ++ String.intercalate ", " missing))
  else
    match program.clock? route.clockId with
    | none => .error (.keyMissing route.clockId)
    | some clock =>
        if clock.timeframe ≠ .daily ∧ clock.timeframe ≠ .monthly then
          .error (.refused (clock.timeframe.text ++
            " Program timing has no maintained static LEAN lowering"))
        else if symbols = [] then
          .error (.refused "static Program execution requires at least one asset")
        else normalizeLeanPlan (route.plan clock selections (sortedSet symbols) identity)

/-- Lower a Program without Events, transitions, memories and guards. Others
are left to another lowering. -/
def compileStaticProgram (definitions : StrategyDefinitions) (program : SemanticProgram)
    (identity : String) : Except CompileError (Option LeanPlan) :=
  let flattened := programStatements program.staticStatements
  let statements := flattened.filterMap ProgramStatement.selection?
  let outputs := selectionsByOutput statements
  if program.staticStatements = [] ∨ !flattened.all ProgramStatement.isStatic then .ok none
  else if outputs.keys.length ≠ statements.length then
    .error (.refused "Program Selection outputs must be unique")
  else do
    let selections ← lowerSelections definitions statements Dict.empty
    match ← routeStatements definitions outputs selections program program.staticStatements with
    | none => .ok none
    | some route => do
        let symbols := statements.flatMap (selectionSymbols definitions) ++ route.lowered.symbols
        let plan ← route.compile program selections symbols identity
        .ok (some plan)

end Compile

end RuleTrade
