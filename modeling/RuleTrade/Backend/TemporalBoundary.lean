import RuleTrade.Backend.GeneratedSelection
import RuleTrade.Backend.TemporalLowering

/-! The generated algorithm of a temporal plan: what it keeps between sessions,
and what it does when data arrives. -/

namespace RuleTrade

open Library

/-- Closes of the running week and of the week completed before it. -/
structure WeeklyContext where
  activeWeekKey : Option Nat := none
  activeWeekClose : Option ℚ := none
  activeWeekCutoff : Option CalendarDate := none
  completedClose : Option ℚ := none
  completedSourceCutoff : Option CalendarDate := none
  completedAvailableCutoff : Option CalendarDate := none
  deriving DecidableEq

/-- Fields of the generated algorithm. The boundary index starts before the
first boundary. -/
structure GeneratedState where
  boundaryIndex : Int := -1
  state : Dict String String
  memory : Dict String ℚ := Dict.empty
  eventCutoffs : Dict String Int := Dict.empty
  eventTruth : Dict String Truth := Dict.empty
  eventCounts : Dict String Int := Dict.empty
  stateEnteredCutoffs : Dict String Int := Dict.empty
  memoryCaptureCutoffs : Dict String Int := Dict.empty
  memoryValueIds : Dict String String := Dict.empty
  lastPolicyTarget : String := ""
  weekly : WeeklyContext := {}
  dailyCloses : Dict String (List ℚ)

section History

/-- Assets a value is read of, wherever the candidate is. -/
def LeanValue.assets : LeanValue → List String
  | .literal _ _ => []
  | .currentPrice subject | .trailingReturn subject _ | .rollingPrice subject _ _ =>
      match subject with
      | .asset (some symbol) => [symbol]
      | _ => []
  | .scale operand _ => operand.assets
  | .weightedScore terms _ => termAssets terms
where
  termAssets : List LeanScoreTerm → List String
    | [] => []
    | .mk value _ :: rest => value.assets ++ termAssets rest

def LeanComparison.values (comparison : LeanComparison) : List LeanValue :=
  [comparison.left, comparison.right]

/-- Values of the selections and rebalances of a plan. -/
def LeanPlan.values (plan : LeanPlan) : List LeanValue :=
  plan.rebalances.flatMap (fun rebalance => rebalance.condition.flatMap LeanComparison.values) ++
    plan.momentumSelections.flatMap (fun selection =>
      selection.ranking :: selection.eligibility.flatMap LeanComparison.values)

/-- Tickers whose closes are kept. -/
def LeanPlan.historySymbols (plan : LeanPlan) : List String :=
  (plan.momentumSelections.flatMap LeanMomentumSelection.symbols ++
    plan.rebalances.filterMap (fun rebalance =>
      rebalance.predicate.map LeanTrailingReturnPredicate.asset) ++
    plan.values.flatMap LeanValue.assets ++
    (plan.temporalProgram.map LeanTemporalProgram.anchorSymbol).toList).dedup

/-- Closes kept of each ticker. -/
def LeanPlan.historyCapacity (plan : LeanPlan) : Nat :=
  (plan.momentumSelections.map (fun selection : LeanMomentumSelection =>
      selection.lookbackBars + 1) ++
    plan.rebalances.filterMap (fun rebalance : LeanRebalance =>
      rebalance.predicate.map (fun predicate : LeanTrailingReturnPredicate =>
        predicate.lookbackBars + 1)) ++
    plan.values.map LeanValue.observations).foldl max 1

/-- Add the bars of a session to the windows of the tickers that have one. -/
def GeneratedState.addCloses (capacity : Nat) (bars : String → Option ℚ) (g : GeneratedState) :
    GeneratedState :=
  { g with
    dailyCloses := g.dailyCloses.mapEntries (fun ticker window =>
      match bars ticker with
      | none => window
      | some close => (close :: window).take capacity) }

end History

section Events

variable (numbers : GeneratedNumbers)

def GeneratedState.currentPrice (g : GeneratedState) (ticker : String) : Option ℚ :=
  (g.dailyCloses.getD ticker []).head?

def LeanTemporalValueKind.read (g : GeneratedState) : LeanTemporalValueKind → Option ℚ
  | .currentPrice asset => g.currentPrice asset
  | .literal value => some (numbers.literal value)
  | .remembered memoryId => g.memory.get? memoryId
  | .barsSinceEvent eventId =>
      (g.eventCutoffs.get? eventId).map (fun cutoff => ((g.boundaryIndex - cutoff : Int) : ℚ))
  | .completedWeeklyPrice _ _ => g.weekly.completedClose

def GeneratedState.stateEquals (g : GeneratedState) (key expected : String) : Bool :=
  g.state.get? key = some expected

def LeanTemporalCondition.stateTruth (condition : LeanTemporalCondition) (g : GeneratedState) :
    Truth :=
  match condition.requiredState with
  | none => .true
  | some (key, expected) => Truth.ofBool (g.stateEquals key expected)

/-- The Event must have triggered at an earlier boundary of the window. -/
def LeanTemporalCondition.windowTruth (condition : LeanTemporalCondition) (g : GeneratedState) :
    Truth :=
  match condition.afterEvent with
  | none => .true
  | some (eventId, observations) =>
      match g.eventCutoffs.get? eventId with
      | none => .unknown
      | some cutoff =>
          Truth.ofBool (cutoff < g.boundaryIndex && g.boundaryIndex - cutoff ≤ observations)

/-- Truth of the comparison, then of the state, then of the window. -/
def LeanTemporalCondition.truth (condition : LeanTemporalCondition) (g : GeneratedState) : Truth :=
  ((comparisonTruth condition.operator (condition.left.kind.read numbers g)
    (condition.right.kind.read numbers g)).and (condition.stateTruth g)).and
      (condition.windowTruth g)

def LeanTemporalTrigger.fires (trigger : LeanTemporalTrigger) (previous current : Truth) : Bool :=
  match trigger with
  | .whileTrue => current = .true
  | .risingEdge | .crossesAbove => current = .true && previous ≠ .true
  | .crossesBelow => current = .false && previous = .true

def LeanTemporalAction.apply (g : GeneratedState) : LeanTemporalAction → GeneratedState
  | .remember _ memoryId value =>
      match value.kind.read numbers g with
      | none => g
      | some number =>
          { g with
            memory := g.memory.set memoryId number
            memoryCaptureCutoffs := g.memoryCaptureCutoffs.set memoryId g.boundaryIndex
            memoryValueIds := g.memoryValueIds.set memoryId value.semanticId }
  | .transition _ stateKey fromValue toValue =>
      if g.state.getD stateKey "" = fromValue.getD "" then
        { g with
          state := g.state.set stateKey toValue
          stateEnteredCutoffs := g.stateEnteredCutoffs.set stateKey g.boundaryIndex }
      else g

/-- What one Event did at a boundary. -/
structure TemporalDetection where
  eventId : String
  truth : Truth
  previous : Truth
  triggered : Bool
  deriving DecidableEq

def LeanTemporalEvent.previous (event : LeanTemporalEvent) (g : GeneratedState) : Truth :=
  g.eventTruth.getD event.semanticId .false

/-- Number of the firing that would come next. -/
def LeanTemporalEvent.nextCount (event : LeanTemporalEvent) (g : GeneratedState) : Int :=
  match g.eventCounts.get? event.semanticId with
  | none => 1
  | some count => count + 1

def LeanTemporalOccurrence.selects (occurrence : LeanTemporalOccurrence) (count : Int) : Bool :=
  match occurrence with
  | .every => true
  | .first => count = 1

/-- Detection of an Event against the fields as they are. -/
def LeanTemporalEvent.detect (event : LeanTemporalEvent) (g : GeneratedState) :
    TemporalDetection :=
  let truth := event.condition.truth numbers g
  let previous := event.previous g
  { eventId := event.semanticId
    truth := truth
    previous := previous
    triggered := event.trigger.fires previous truth && event.occurrence.selects (event.nextCount g) }

/-- Fields after a detection, before any action. A firing counts even when its
occurrence is not selected. -/
def LeanTemporalEvent.record (event : LeanTemporalEvent) (g : GeneratedState) : GeneratedState :=
  let found := event.detect numbers g
  { g with
    eventTruth := g.eventTruth.set event.semanticId found.truth
    eventCounts :=
      if event.trigger.fires found.previous found.truth then
        g.eventCounts.set event.semanticId (event.nextCount g)
      else g.eventCounts
    eventCutoffs :=
      if found.triggered then g.eventCutoffs.set event.semanticId g.boundaryIndex
      else g.eventCutoffs }

/-- Detect an Event, record it, and run its actions when it triggers. -/
def LeanTemporalEvent.step (event : LeanTemporalEvent) (g : GeneratedState) : GeneratedState :=
  if (event.detect numbers g).triggered then
    event.actions.foldl (LeanTemporalAction.apply numbers) (event.record numbers g)
  else event.record numbers g

/-- Run the Events in order. Later ones see the fields earlier ones left. -/
def runEvents : List LeanTemporalEvent → GeneratedState → GeneratedState × List TemporalDetection
  | [], g => (g, [])
  | event :: rest, g =>
      let later := runEvents rest (event.step numbers g)
      (later.1, event.detect numbers g :: later.2)

end Events

section Policy

variable (numbers : GeneratedNumbers) (plan : LeanPlan)

/-- The first rule whose state matches. -/
def LeanTemporalProgram.policyRule (program : LeanTemporalProgram) (g : GeneratedState) :
    Option LeanTemporalPolicyTarget :=
  program.policyTargets.find? (fun target =>
    target.stateValue = "*" || g.stateEquals target.stateKey target.stateValue)

def GeneratedState.market (g : GeneratedState) : GeneratedMarket where
  numbers := numbers
  dailyCloses := g.dailyCloses

/-- Fallback symbols of the sleeve of a selection; the last one wins. -/
def LeanPlan.fallbackSymbols (selectionId : String) : List String :=
  ((plan.targetSleeves.reverse.find? (fun sleeve => sleeve.selectionId = some selectionId)).map
    LeanTargetSleeve.fallbackSymbols).getD []

/-- Add a weight to an asset. -/
def contribute (aggregate : Dict String ℚ) (asset : String) (weight : ℚ) : Dict String ℚ :=
  aggregate.set asset (match aggregate.get? asset with
    | none => weight
    | some existing => numbers.context.add existing weight)

/-- Share of a chosen member in its leg. -/
def localWeight (proportional complete : Bool) (scores : Dict String ℚ) (chosen : List String)
    (ticker : String) : ℚ :=
  let ctx := numbers.context
  let total := ctx.sum ((chosen.filter scores.contains).map (fun member =>
    max 0 (scores.getD member 0)))
  if proportional && complete && 0 < total then
    ctx.quot (max 0 (scores.getD ticker 0)) total
  else if chosen.isEmpty then 0
  else ctx.quot 1 chosen.length

/-- Contribution of one selection leg, whose factor is `factor`. -/
def selectionLeg (market : GeneratedMarket) (method : AllocationMethod)
    (selection : LeanMomentumSelection) (factor : ℚ) (aggregate : Dict String ℚ) : Dict String ℚ :=
  let candidates := (selection.policyRanked market).take selection.count
  let complete := selection.success candidates
  let chosen := selection.policyStage market (plan.fallbackSymbols selection.id)
  chosen.foldl (fun aggregate ticker =>
    contribute numbers aggregate ticker (numbers.context.mul
      (localWeight numbers (method = .proportionalScore) complete (selection.scores market) chosen
        ticker) factor)) aggregate

/-- Contribution of a leg. Only a fixed allocation has factors of its own; cash
and retained holdings contribute nothing. -/
def policyLeg (market : GeneratedMarket) (method : AllocationMethod)
    (leg : LeanTemporalAllocationLeg) (aggregate : Dict String ℚ) : Dict String ℚ :=
  let factor := numbers.literal (if method = .fixed then leg.weight.getD 0 else 1)
  match leg.target with
  | .asset ref => contribute numbers aggregate ref factor
  | .cash | .retain => aggregate
  | .selection selectionId =>
      match plan.momentumSelections.find? (fun selection => selection.id = selectionId) with
      | none => aggregate
      | some selection => selectionLeg numbers plan market method selection factor aggregate

def composablePolicy (g : GeneratedState) (method : AllocationMethod)
    (legs : List LeanTemporalAllocationLeg) : Dict String ℚ :=
  legs.foldl (fun aggregate leg =>
    policyLeg numbers plan (g.market numbers) method leg aggregate) Dict.empty

/-- Weights as the signature prints them. -/
def printedWeights (weights : Dict String ℚ) : String :=
  String.intercalate ";" ((Sequence.sortBy Prod.fst weights.entries).map (fun entry =>
    entry.1 ++ "=" ++ numbers.text entry.2))

/-- Holdings a rule asks for: everything outside them is liquidated. Without a
value nothing is ordered. -/
def policyWeights (g : GeneratedState) : LeanTemporalTarget → Option (Dict String ℚ)
  | .asset symbol => some (Dict.empty.set symbol 1)
  | .cash => some Dict.empty
  | .retain => none
  | .portfolio method legs => some (composablePolicy numbers plan g method legs)

def policySignature (g : GeneratedState) : LeanTemporalTarget → String
  | .asset symbol => "asset|" ++ symbol
  | .cash => "cash|"
  | .retain => "retain|"
  | .portfolio method legs =>
      "portfolio|" ++ printedWeights numbers (composablePolicy numbers plan g method legs)

/-- What a boundary decided. Orders are sent only when the signature changes. -/
structure BoundaryReport where
  detections : List TemporalDetection
  rule : Option LeanTemporalPolicyTarget
  orders : Option (Dict String ℚ)

/-- Orders of the chosen rule, and the signature kept afterwards. -/
def placeOrders (g : GeneratedState) (rule : Option LeanTemporalPolicyTarget) :
    Option (Dict String ℚ) × String :=
  match rule with
  | none => (none, g.lastPolicyTarget)
  | some target =>
      if target.target = .retain ∨
          policySignature numbers plan g target.target = g.lastPolicyTarget then
        (none, g.lastPolicyTarget)
      else (policyWeights numbers plan g target.target,
        policySignature numbers plan g target.target)

end Policy

section Boundary

variable (numbers : GeneratedNumbers) (plan : LeanPlan) (program : LeanTemporalProgram)

/-- One boundary, from the fields at its events. -/
def executeTemporalBoundary (opened : GeneratedState) : GeneratedState × BoundaryReport :=
  let ran := runEvents numbers program.events opened
  let rule := program.policyRule ran.1
  let placed := placeOrders numbers plan ran.1 rule
  ({ ran.1 with lastPolicyTarget := placed.2 },
    { detections := ran.2, rule := rule, orders := placed.1 })

/-- Roll the weekly context into the week of a session. -/
def WeeklyContext.roll (weekly : WeeklyContext) (date : CalendarDate) (close : Option ℚ) :
    WeeklyContext :=
  let rolled :=
    if weekly.activeWeekKey.isSome ∧ weekly.activeWeekKey ≠ some date.isoWeek then
      { weekly with
        completedClose := weekly.activeWeekClose
        completedSourceCutoff := weekly.activeWeekCutoff
        completedAvailableCutoff := some date }
    else weekly
  { rolled with
    activeWeekKey := some date.isoWeek
    activeWeekClose := close
    activeWeekCutoff := some date }

/-- Only the profile of single daily clocks keeps no weekly context. -/
def LeanTemporalProgram.rollWeek (date : CalendarDate) (g : GeneratedState) : GeneratedState :=
  if program.profile = .eventStateDaily then g
  else { g with weekly := g.weekly.roll date (g.currentPrice program.anchorSymbol) }

/-- Bars of one session. -/
structure MarketSession where
  date : CalendarDate
  bars : String → Option ℚ

/-- Fields at the events of a boundary. -/
def boundaryState (session : MarketSession) (g : GeneratedState) : GeneratedState :=
  let fed := program.rollWeek session.date (g.addCloses plan.historyCapacity session.bars)
  { fed with boundaryIndex := fed.boundaryIndex + 1 }

/-- Data of one session. Without a bar of the anchor it is no boundary. -/
def onData (session : MarketSession) (g : GeneratedState) :
    GeneratedState × Option BoundaryReport :=
  match session.bars program.anchorSymbol with
  | none => (g.addCloses plan.historyCapacity session.bars, none)
  | some _ =>
      let ran := executeTemporalBoundary numbers plan program (boundaryState plan program session g)
      (ran.1, some ran.2)

/-- Data of sessions in order, with what each boundary decided. -/
def onSessions : List MarketSession → GeneratedState → GeneratedState × List BoundaryReport
  | [], g => (g, [])
  | session :: rest, g =>
      let next := onData numbers plan program session g
      let later := onSessions rest next.1
      (later.1, next.2.toList ++ later.2)

/-- Fields after the initialization without a checkpoint. -/
def LeanPlan.startState : GeneratedState where
  state := Dict.ofList program.initialState
  dailyCloses := Dict.ofList (plan.historySymbols.map (·, []))

/-- Adjusted close of a symbol at a row, when it was observed. -/
def DailyMarketSnapshot.adjustedClose (snapshot : DailyMarketSnapshot) (symbol : String)
    (row : Nat) : Option ℚ :=
  match snapshot.fieldValues symbol .close .adjusted with
  | .ok series => series[row]?.join
  | .error _ => none

/-- Sessions of the rows of a snapshot: the adjusted closes that were observed. -/
def DailyMarketSnapshot.sessions (snapshot : DailyMarketSnapshot) : List MarketSession :=
  snapshot.dates.zipIdx.map (fun row =>
    ⟨row.1, fun symbol => snapshot.adjustedClose symbol row.2⟩)

end Boundary

end RuleTrade
