import RuleTrade.Strategy.DailyValues
import RuleTrade.Strategy.Documents
import RuleTrade.Library.Logged
import RuleTrade.Library.Truth

/-! Runtime of one Program decision: its maps, its clocks, and the mutually
recursive evaluation of Values and Conditions. Observations are the log of an
evaluation. -/

namespace RuleTrade

open Library

/-- Exceptions of Program execution. `refused` is raised by no snapshot; an
environment that withholds an answer raises it. -/
inductive ProgramError where
  | daily (error : DailyValueError)
  | programValueMustBeScalar
  | crossSectionRequiresCandidate
  | unsupportedProgramValue (typeName : String)
  | unknownClock (clockId : String)
  | anchorOutOfRange
  | programUniverseUnavailable (universeId : String)
  | allocationScoresNotPositive
  | allocationFloorConflict
  | allocationCapRequiresCashRemainder
  | allocationBoundsConflict
  | allocationRemainderWithoutCash
  | inverseVolatilityRequiresPositiveValues
  | unresolvedStatementCannotExecute
  | invalidProgram (issues : List (String × String))
  | programCutoffOutOfRange
  | programStateCheckpointShapeMismatch
  | unknownCheckpointAddress (checkpoint : String) (addresses : List String)
  | eventCheckpointAfterDecisionCutoff
  | stateCheckpointAfterDecisionCutoff
  | eventCountCheckpointNegative
  | eventTruthCheckpointInvalid
  | refused
  deriving DecidableEq, Repr

structure ProgramValueObservation where
  semanticId : String
  candidate : Option String
  value : Option ℚ
  reason : Option String
  observedAt : CalendarDate
  expressionHash : ContentHash
  requestedMembers : List String := []
  availableMembers : List String := []
  missingMembers : List String := []
  deriving DecidableEq

/-- Scalar answer to one daily reading. -/
structure DailyReading where
  value : Option ℚ
  reason : Option String
  observedAt : CalendarDate
  deriving DecidableEq

/-- The market as a decision consults it. `daily` answers a node at a row. -/
structure Environment where
  context : DecimalContext
  snapshotId : String
  dates : List CalendarDate
  domains : Dict String (List String)
  daily : Nat → DailyValueNode → Option String → Option String → Except ProgramError DailyReading

/-- One evaluation by a fresh evaluator that stands at row `index`. -/
def DailyMarketSnapshot.dailyReading (snapshot : DailyMarketSnapshot) (ctx : DecimalContext)
    (index : Nat) (node : DailyValueNode) (candidate bindingId : Option String) :
    Except ProgramError DailyReading := do
  let result ← (evaluate ctx (snapshot.view index) candidate bindingId node).mapError .daily
  if result.axes ≠ [] then .error .programValueMustBeScalar
  else match result.cells.get? [], result.observedAt.getLast? with
    | none, _ => .error (.daily .cellMissing)
    | some _, none => .error (.daily .indexOutOfRange)
    | some cell, some observedAt =>
        .ok { value := cell.value, reason := cell.reason, observedAt := observedAt }

def DailyMarketSnapshot.environment (snapshot : DailyMarketSnapshot) (ctx : DecimalContext) :
    Environment where
  context := ctx
  snapshotId := snapshot.snapshotId
  dates := snapshot.dates
  domains := snapshot.domains
  daily := snapshot.dailyReading ctx

/-- What stays fixed during one decision. -/
structure Decision where
  program : SemanticProgram
  environment : Environment
  cutoff : Nat
  inRange : cutoff < environment.dates.length
  priorState : Dict String String
  priorEventTruths : Dict String Truth

/-- Detail of one evidence line. -/
inductive EvidenceDetail where
  | text (text : String)
  | selection (eligible selected : List String)
  | weights (weights : Dict String ℚ)
  | event (previous current : Truth) (occurrence : Int)
  | state (key : String) (value : Option String)
  | stored (memoryId : String) (value : ℚ) (source : ContentHash)
  | rule (semanticId : String) (priority : Option Int)

structure ProgramDecisionEvidence where
  semanticId : String
  kind : String
  outcome : String
  detail : EvidenceDetail

/-- What statements read and write. -/
structure Runtime where
  state : Dict String String
  selections : Dict String (List String) := Dict.empty
  selectionScores : Dict String (Dict String ℚ) := Dict.empty
  targetWeights : Dict String ℚ := Dict.empty
  retained : Bool := false
  evidence : List ProgramDecisionEvidence := []
  eventCutoffs : Dict String Int
  eventTruths : Dict String Truth := Dict.empty
  eventCounts : Dict String Int
  stateEnteredCutoffs : Dict String Int
  rememberedValues : Dict String ℚ

abbrev Evaluation (α : Type) := Logged ProgramError ProgramValueObservation α

/-- Log an observation and return it. -/
def recorded (observation : ProgramValueObservation) : Evaluation ProgramValueObservation := do
  Logged.tell observation
  pure observation

namespace Decision

variable (d : Decision)

def observedAt : CalendarDate := d.environment.dates.get ⟨d.cutoff, d.inRange⟩

/-- Date of a row; only rows of the snapshot are asked for. -/
def date (index : Nat) : CalendarDate := (d.environment.dates[index]?).getD d.observedAt

section Clocks

def clock (clockId : String) : Except ProgramError ProgramClock :=
  match d.program.clocks.find? (fun clock => clock.id = clockId) with
  | none => .error (.unknownClock clockId)
  | some clock => .ok clock

/-- The session after a row: the next observed one, else the next weekday. -/
def following (index : Nat) : CalendarDate :=
  if index + 1 < d.environment.dates.length then d.date (index + 1)
  else (d.date index).tomorrow.skipWeekend

def clockDue (clock : ProgramClock) (index : Nat) (allowTerminal : Bool) : Bool :=
  let terminal := allowTerminal && clock.terminalBoundaryPolicy = .fixtureEndIsBoundary
  match clock.timeframe with
  | .session | .daily => true
  | .weekly => (d.date index).weekday = 4 || terminal
  | .monthly =>
      ((d.date index).year, (d.date index).month) ≠ ((d.following index).year, (d.following index).month)
        || terminal

def clockDueAt (clockId : String) (index : Nat) (allowTerminal : Bool) :
    Except ProgramError Bool := do
  let clock ← d.clock clockId
  .ok (d.clockDue clock index allowTerminal)

/-- Last row at which the clock has completed a period. A week is complete once
an observed session of another week follows it. -/
def completedRow (clock : ProgramClock) : Option Nat :=
  match clock.timeframe with
  | .weekly =>
      if clock.terminalBoundaryPolicy = .fixtureEndIsBoundary ∧
          d.cutoff = d.environment.dates.length - 1 then some d.cutoff
      else (List.range d.cutoff).reverse.find? (fun index =>
        (d.date index).isoWeek ≠ (d.date d.cutoff).isoWeek)
  | _ => (List.range (d.cutoff + 1)).reverse.find? (fun index =>
      d.clockDue clock index (index = d.cutoff))

def lastCompletedClockCutoff (clockId : String) : Except ProgramError (Option Nat) := do
  let clock ← d.clock clockId
  .ok (d.completedRow clock)

def due (clockId : Option String) : Except ProgramError Bool :=
  match clockId with
  | none => .ok true
  | some clockId => d.clockDueAt clockId d.cutoff true

end Clocks

def members (universeId : String) : Except ProgramError (List String) :=
  match d.environment.domains.get? universeId with
  | none => .error (.programUniverseUnavailable universeId)
  | some members => .ok members

/-- An unlogged observation stamped with the decision's own date. -/
def observation (semanticId : String) (candidate : Option String) (hash : ContentHash)
    (value : Option ℚ) (reason : Option String) : ProgramValueObservation where
  semanticId := semanticId
  candidate := candidate
  value := value
  reason := reason
  observedAt := d.observedAt
  expressionHash := hash

/-- Read a daily node at a row. A row outside the snapshot is not an error. -/
def daily (node : DailyValueNode) (candidate bindingId : Option String) (index : Int) :
    Evaluation ProgramValueObservation :=
  if index < 0 ∨ d.environment.dates.length ≤ index then
    pure (d.observation node.semanticId candidate node.contentHash none
      (some "event_relative_out_of_range"))
  else do
    let reading ← Logged.lift (d.environment.daily index.toNat node candidate bindingId)
    recorded {
      semanticId := node.semanticId
      candidate := candidate
      value := reading.value
      reason := reading.reason
      observedAt := reading.observedAt
      expressionHash := node.contentHash }

end Decision

/-- Value and reason as an observation reports them. -/
abbrev Outcome := Option ℚ × Option String

section CrossSection

variable (ctx : DecimalContext)

/-- Members in rank order; ties are in order of symbol. -/
def rankMembers (direction : SortDirection) (scored : List (ℚ × String)) : List (ℚ × String) :=
  let bySymbol := Sequence.sortBy Prod.snd scored
  match direction with
  | .ascending => Sequence.sortBy Prod.fst bySymbol
  | .descending => Sequence.sortByDescending Prod.fst bySymbol

def populationDeviation (numbers : List ℚ) : ℚ :=
  let mean := numbers.sum / numbers.length
  ctx.sqrt ((numbers.map (fun n => (n - mean) * (n - mean))).sum / numbers.length)

def maximum (numbers : List ℚ) : ℚ := numbers.tail.foldl max (numbers.headD 0)

def minimum (numbers : List ℚ) : ℚ := numbers.tail.foldl min (numbers.headD 0)

/-- Transform of the member at `position` among the ranked members. -/
def crossSectionalTransform (transform : CrossSectionalTransform) (bins : Option Nat)
    (available : List (ℚ × String)) (position : Nat) (raw : ℚ) : ℚ :=
  let numbers := available.map Prod.fst
  let last : ℚ := available.length - 1
  let percentile := if available.length = 1 then 1 else ctx.quot (last - position) last
  match transform with
  | .rank => position + 1
  | .minMax =>
      let spread := ctx.sub (maximum numbers) (minimum numbers)
      if spread = 0 then 0 else ctx.quot (ctx.sub raw (minimum numbers)) spread
  | .zscore =>
      let deviation := populationDeviation ctx numbers
      if deviation = 0 then 0
      else ctx.quot (ctx.sub raw (ctx.quot (ctx.sum numbers) numbers.length)) deviation
  | .percentile => percentile
  | .quantile | .bucket =>
      let bins : ℚ := (bins.getD 1 : Nat)
      max 1 (min bins (⌈ctx.mul percentile bins⌉ : ℤ))

def crossSectionalOutcome (transform : CrossSectionalTransform) (bins : Option Nat)
    (available : List (ℚ × String)) (candidate : String) : Outcome :=
  let ordered := available.map Prod.snd
  match available.find? (fun entry => entry.2 = candidate) with
  | none => (none, some "candidate_value_unavailable")
  | some entry =>
      (some (crossSectionalTransform ctx transform bins available (ordered.idxOf candidate)
        entry.1), none)

def aggregateOutcome (reduction : CrossSectionalReduction) (coverage : Coverage)
    (available : List ℚ) (missing : List String) : Outcome :=
  if available = [] ∨ (missing ≠ [] ∧ coverage = .requireAll) then
    (none, some "cross_section_coverage_incomplete")
  else
    let ordered := Sequence.sortBy id available
    let middle := available.length / 2
    match reduction with
    | .mean => (some (ctx.quot (ctx.sum available) available.length), none)
    | .median =>
        (some (if available.length % 2 = 1 then ordered.getD middle 0
          else ctx.quot (ctx.add (ordered.getD (middle - 1) 0) (ordered.getD middle 0)) 2), none)
    | .min => (some (minimum available), none)
    | .max => (some (maximum available), none)

end CrossSection

section Score

variable (ctx : DecimalContext)

/-- Running totals of a Score. -/
structure ScoreTally where
  total : ℚ := 0
  availableWeight : ℚ := 0
  missing : Bool := false

def ScoreTally.addValue (tally : ScoreTally) (weight : ℚ) : Option ℚ → ScoreTally
  | none => { tally with missing := true }
  | some value =>
      { tally with
        total := ctx.add tally.total (ctx.mul value weight)
        availableWeight := ctx.add tally.availableWeight (ctx.abs weight) }

def ScoreTally.addPoints (tally : ScoreTally) (truePoints falsePoints : ℚ)
    (unknownPoints : Option ℚ) (outcome : Truth) : ScoreTally :=
  match outcome, unknownPoints with
  | .unknown, none => { tally with missing := true }
  | .unknown, some points => { tally with total := ctx.add tally.total points }
  | .true, _ => { tally with total := ctx.add tally.total truePoints }
  | .false, _ => { tally with total := ctx.add tally.total falsePoints }

def ScoreTally.outcome (policy : ScorePolicy) (hasTerms : Bool) (tally : ScoreTally) : Outcome :=
  if tally.missing ∧ policy.missingPolicy = .requireAll then (none, some "score_term_unavailable")
  else if tally.availableWeight = 0 ∧ hasTerms then (none, some "score_weight_zero")
  else
    let scaled :=
      if (policy.missingPolicy = .renormalizeAvailable ∨ policy.normalization = .sumAbs) ∧
          tally.availableWeight ≠ 0 then ctx.quot tally.total tally.availableWeight
      else tally.total
    let raised := match policy.clampMin with
      | none => scaled
      | some low => max low scaled
    let clamped := match policy.clampMax with
      | none => raised
      | some high => min high raised
    (some clamped, none)

end Score

def compareValues (operator : ComparisonOperator) (left right : ℚ) : Bool :=
  match operator with
  | .lt => left < right
  | .lte => left ≤ right
  | .eq => left = right
  | .neq => left ≠ right
  | .gte => right ≤ left
  | .gt => right < left

/-- A comparison with a missing side is unknown. -/
def comparisonTruth (operator : ComparisonOperator) : Option ℚ → Option ℚ → Truth
  | some left, some right => Truth.ofBool (compareValues operator left right)
  | _, _ => .unknown

/-- Truth of an Event window, from the row of the Event's last trigger. -/
def windowTruth (relation : EventWindowRelation) (anchor : Option Int) (cutoff : Nat) : Truth :=
  match relation, anchor with
  | .before, anchor => Truth.ofBool anchor.isNone
  | _, none => .unknown
  | .after, some anchor => Truth.ofBool (0 ≤ (cutoff : Int) - anchor)
  | .within observations, some anchor =>
      Truth.ofBool (0 ≤ (cutoff : Int) - anchor && (cutoff : Int) - anchor ≤ observations)

section Evaluation

variable (d : Decision) (r : Runtime)

/-- Rows between a stored anchor and the cutoff. -/
def barsSince (anchor : Option Int) : Option ℚ :=
  anchor.map (fun anchor => (((d.cutoff : Int) - anchor : Int) : ℚ))

/-- Calendar days between the row of a stored anchor and the cutoff. -/
def daysSinceAnchor (anchor : Option Int) : Except ProgramError (Option ℚ) :=
  match anchor with
  | none => .ok none
  | some anchor =>
      match Sequence.item? d.environment.dates anchor with
      | none => .error .anchorOutOfRange
      | some date => .ok (some (d.observedAt.daysSince date : Int))

/-- Log a value that is missing for `reason` when absent. -/
def recordedOr (value : ValueExpression) (candidate : Option String) (result : Option ℚ)
    (reason : String) : Evaluation ProgramValueObservation :=
  recorded (d.observation value.semanticId candidate (valueContentHash value) result
    (if result.isSome then none else some reason))

mutual

def value (bindingId : Option String) (members : List String) :
    ValueExpression → Option String → Evaluation ProgramValueObservation
  | .daily node, candidate => d.daily node candidate bindingId d.cutoff
  | .eventRelative id event source offset, candidate =>
      let hash := valueContentHash (.eventRelative id event source offset)
      match r.eventCutoffs.get? event with
      | none => pure (d.observation id candidate hash none (some "event_not_observed"))
      | some anchor => do
          let observation ← d.daily source candidate bindingId (anchor + offset)
          recorded { d.observation id candidate hash observation.value observation.reason with
            observedAt := observation.observedAt }
  | .clockedValue id source clockId, candidate => do
      let hash := valueContentHash (.clockedValue id source clockId)
      let boundary ← Logged.lift (d.lastCompletedClockCutoff clockId)
      match boundary with
      | none =>
          recorded (d.observation id candidate hash none
            (some "completed_clock_observation_unavailable"))
      | some boundary => do
          let observation ← d.daily source candidate bindingId boundary
          recorded { d.observation id candidate hash observation.value observation.reason with
            observedAt := observation.observedAt }
  | .rememberedValue id memory quantity unit refinement, candidate =>
      recordedOr d (.rememberedValue id memory quantity unit refinement) candidate
        (r.rememberedValues.get? memory) "remembered_value_unavailable"
  | .barsSinceEvent id event, candidate =>
      recordedOr d (.barsSinceEvent id event) candidate
        (barsSince d (r.eventCutoffs.get? event)) "event_not_observed"
  | .barsSinceState id key, candidate =>
      recordedOr d (.barsSinceState id key) candidate
        (barsSince d (r.stateEnteredCutoffs.get? key)) "state_entry_not_observed"
  | .timeSinceEvent id event, candidate => do
      let days ← Logged.lift (daysSinceAnchor d (r.eventCutoffs.get? event))
      recordedOr d (.timeSinceEvent id event) candidate days "temporal_anchor_unavailable"
  | .timeSinceState id key, candidate => do
      let days ← Logged.lift (daysSinceAnchor d (r.stateEnteredCutoffs.get? key))
      recordedOr d (.timeSinceState id key) candidate days "temporal_anchor_unavailable"
  | .crossSectional id source domain transform direction bins, candidate =>
      match candidate with
      | none => .failure .crossSectionRequiresCandidate
      | some self => do
          let items ← Logged.forEach (fun member => do
            let item ← value bindingId members source (some member)
            pure (item.value, member)) members
          let available := rankMembers direction
            (items.filterMap (fun item => item.1.map (·, item.2)))
          let outcome := crossSectionalOutcome d.environment.context transform bins available self
          recorded {
            d.observation id candidate
              (valueContentHash (.crossSectional id source domain transform direction bins))
              outcome.1 outcome.2 with
            requestedMembers := members
            availableMembers := available.map Prod.snd
            missingMembers := (items.filter (fun item => item.1.isNone)).map Prod.snd }
  | .crossSectionalAggregate id source domain reduction coverage, candidate => do
      let items ← Logged.forEach (fun member => do
        let item ← value bindingId members source (some member)
        pure (item.value, member)) members
      let missing := (items.filter (fun item => item.1.isNone)).map Prod.snd
      let outcome := aggregateOutcome d.environment.context reduction coverage
        (items.filterMap Prod.fst) missing
      recorded {
        d.observation id candidate
          (valueContentHash (.crossSectionalAggregate id source domain reduction coverage))
          outcome.1 outcome.2 with
        requestedMembers := members
        availableMembers := (items.filter (fun item => item.1.isSome)).map Prod.snd
        missingMembers := missing }
  | .score id terms conditionTerms policy, candidate => do
      let tally ← scoreTerms bindingId members terms candidate {}
      let tally ← scoreConditionTerms bindingId members conditionTerms candidate tally
      let outcome := tally.outcome d.environment.context policy (!terms.isEmpty)
      recorded (d.observation id candidate
        (valueContentHash (.score id terms conditionTerms policy)) outcome.1 outcome.2)
  | .literal id number quantity unit refinement, candidate =>
      pure (d.observation id candidate
        (valueContentHash (.literal id number quantity unit refinement)) (some number) none)
  | .candidateTrailingReturn _ _ _ _, _ =>
      .failure (.unsupportedProgramValue "CandidateTrailingReturnValue")
  | .candidateCurrentPrice _ _ _, _ =>
      .failure (.unsupportedProgramValue "CandidateCurrentPriceValue")

def scoreTerms (bindingId : Option String) (members : List String) :
    List ScoreTerm → Option String → ScoreTally → Evaluation ScoreTally
  | [], _, tally => pure tally
  | .mk _ term weight :: rest, candidate, tally => do
      let item ← value bindingId members term candidate
      scoreTerms bindingId members rest candidate
        (tally.addValue d.environment.context weight item.value)

def scoreConditionTerms (bindingId : Option String) (members : List String) :
    List ConditionPointTerm → Option String → ScoreTally → Evaluation ScoreTally
  | [], _, tally => pure tally
  | .mk _ when truePoints falsePoints unknownPoints :: rest, candidate, tally => do
      let outcome ← condition bindingId members when candidate
      scoreConditionTerms bindingId members rest candidate
        (tally.addPoints d.environment.context truePoints falsePoints unknownPoints outcome)

def condition (bindingId : Option String) (members : List String) :
    Condition → Option String → Evaluation Truth
  | .comparison _ operator left right, candidate => do
      let l ← value bindingId members left candidate
      let r ← value bindingId members right candidate
      pure (comparisonTruth operator l.value r.value)
  | .stateEquals _ key expected, _ =>
      pure (Truth.ofBool (r.state.get? key = some expected))
  | .eventWindow _ event relation, _ =>
      pure (windowTruth relation (r.eventCutoffs.get? event) d.cutoff)
  | .not _ child, candidate => do
      let outcome ← condition bindingId members child candidate
      pure outcome.not
  | .nOfM _ minimumTrue children, candidate => do
      let outcomes ← conditions bindingId members children candidate
      pure (Truth.atLeast minimumTrue outcomes)
  | .booleanGroup _ kind children, candidate => do
      let outcomes ← conditions bindingId members children candidate
      pure (match kind with
        | .all => Truth.all outcomes
        | .any => Truth.any outcomes)

def conditions (bindingId : Option String) (members : List String) :
    List Condition → Option String → Evaluation (List Truth)
  | [], _ => pure []
  | child :: rest, candidate => do
      let outcome ← condition bindingId members child candidate
      let outcomes ← conditions bindingId members rest candidate
      pure (outcome :: outcomes)

end

/-- A Condition outside any Selection. -/
def predicate (c : Condition) : Evaluation Truth := condition d r none [] c none

end Evaluation

end RuleTrade
