import RuleTrade.Execution.Statements
import RuleTrade.Strategy.ProgramValidation

/-! One execution of a Program from a checkpoint: the checks of the boundary,
the decision itself, and the result that carries the next checkpoint. -/

namespace RuleTrade

open Library

/-- What a caller hands over from the decision before. Truths arrive as text. -/
structure Checkpoint where
  priorState : Option (Dict String String) := none
  eventCutoffs : Dict String Int := Dict.empty
  priorEventTruths : Dict String String := Dict.empty
  eventCounts : Dict String Int := Dict.empty
  stateEnteredCutoffs : Dict String Int := Dict.empty
  rememberedValues : Dict String ℚ := Dict.empty

structure ProgramExecutionResult where
  revisionId : Option String
  programSemanticId : String
  snapshotId : String
  cutoff : CalendarDate
  state : Dict String String
  eventCutoffs : Dict String Int
  eventTruths : Dict String Truth
  eventCounts : Dict String Int
  stateEnteredCutoffs : Dict String Int
  rememberedValues : Dict String ℚ
  selectionOutputs : Dict String (List String)
  selectionScores : Dict String (Dict String ℚ)
  targetWeights : Dict String ℚ
  retainedHoldings : Bool
  evidence : List ProgramDecisionEvidence
  valueObservations : List ProgramValueObservation

/-- The checkpoint a result hands to the next execution. -/
def ProgramExecutionResult.checkpoint (result : ProgramExecutionResult) : Checkpoint where
  priorState := some result.state
  eventCutoffs := result.eventCutoffs
  priorEventTruths := result.eventTruths.mapValues Truth.text
  eventCounts := result.eventCounts
  stateEnteredCutoffs := result.stateEnteredCutoffs
  rememberedValues := result.rememberedValues

section Addresses

mutual

/-- Events and memories a checkpoint may mention. -/
def ProgramStatement.eventAddresses : ProgramStatement → List String
  | .onEvent _ event body => event.semanticId :: ProgramStatement.allEventAddresses body
  | .control _ thenStatements otherwiseStatements =>
      ProgramStatement.allEventAddresses thenStatements ++
        ProgramStatement.allEventAddresses otherwiseStatements
  | _ => []

def ProgramStatement.allEventAddresses : List ProgramStatement → List String
  | [] => []
  | statement :: rest => statement.eventAddresses ++ ProgramStatement.allEventAddresses rest

end

mutual

def ProgramStatement.memoryAddresses : ProgramStatement → List String
  | .rememberValue s => [s.memoryId]
  | .onEvent _ _ body => ProgramStatement.allMemoryAddresses body
  | .control _ thenStatements otherwiseStatements =>
      ProgramStatement.allMemoryAddresses thenStatements ++
        ProgramStatement.allMemoryAddresses otherwiseStatements
  | _ => []

def ProgramStatement.allMemoryAddresses : List ProgramStatement → List String
  | [] => []
  | statement :: rest => statement.memoryAddresses ++ ProgramStatement.allMemoryAddresses rest

end

end Addresses

section Checks

def require (holds : Bool) (e : ProgramError) : Except ProgramError PUnit :=
  if holds then .ok () else .error e

def sameKeys {α β : Type} (d : Dict String α) (e : Dict String β) : Bool :=
  d.keys.all (fun key => key ∈ e.keys) && e.keys.all (fun key => key ∈ d.keys)

/-- Addresses of a checkpoint map that the Program does not declare, sorted. -/
def requireAddresses (checkpoint : String) (keys allowed : List String) :
    Except ProgramError PUnit :=
  let unknown := Sequence.sortBy id (keys.filter (fun key => key ∉ allowed))
  if unknown = [] then .ok () else .error (.unknownCheckpointAddress checkpoint unknown)

/-- An anchor lies on a row up to the cutoff. -/
def anchored (cutoff : Nat) (anchor : Int) : Bool := 0 ≤ anchor && anchor ≤ cutoff

def checkCheckpoint (program : SemanticProgram) (cutoff : Nat) (ck : Checkpoint) :
    Except ProgramError PUnit := do
  let events := ProgramStatement.allEventAddresses program.statements
  let memories := ProgramStatement.allMemoryAddresses program.statements
  require (ck.priorState.all (fun state => sameKeys state program.initialState))
    .programStateCheckpointShapeMismatch
  requireAddresses "event_cutoffs" ck.eventCutoffs.keys events
  requireAddresses "event_counts" ck.eventCounts.keys events
  requireAddresses "event_truths" ck.priorEventTruths.keys events
  requireAddresses "state_entered_cutoffs" ck.stateEnteredCutoffs.keys program.initialState.keys
  requireAddresses "remembered_values" ck.rememberedValues.keys memories
  require (ck.eventCutoffs.values.all (anchored cutoff)) .eventCheckpointAfterDecisionCutoff
  require (ck.stateEnteredCutoffs.values.all (anchored cutoff)) .stateCheckpointAfterDecisionCutoff
  require (ck.eventCounts.values.all (fun count => 0 ≤ count)) .eventCountCheckpointNegative
  require (ck.priorEventTruths.values.all (fun truth => (Truth.ofText? truth).isSome))
    .eventTruthCheckpointInvalid

end Checks

section Execute

/-- The truths of a checked checkpoint. -/
def Checkpoint.truths (ck : Checkpoint) : Dict String Truth :=
  ck.priorEventTruths.mapValues (fun truth => (Truth.ofText? truth).getD .unknown)

def Checkpoint.state (ck : Checkpoint) (program : SemanticProgram) : Dict String String :=
  ck.priorState.getD program.initialState

def Checkpoint.decision (ck : Checkpoint) (program : SemanticProgram) (environment : Environment)
    (cutoff : Nat) (inRange : cutoff < environment.dates.length) : Decision where
  program := program
  environment := environment
  cutoff := cutoff
  inRange := inRange
  priorState := ck.state program
  priorEventTruths := ck.truths

def Checkpoint.runtime (ck : Checkpoint) (program : SemanticProgram) : Runtime where
  state := ck.state program
  eventCutoffs := ck.eventCutoffs
  eventCounts := ck.eventCounts
  stateEnteredCutoffs := ck.stateEnteredCutoffs
  rememberedValues := ck.rememberedValues

/-- Result of a finished decision. -/
def Decision.report (d : Decision) (revisionId : Option String) (r : Runtime)
    (observations : List ProgramValueObservation) : ProgramExecutionResult where
  revisionId := revisionId
  programSemanticId := d.program.semanticId
  snapshotId := d.environment.snapshotId
  cutoff := d.observedAt
  state := r.state
  eventCutoffs := r.eventCutoffs
  eventTruths := r.eventTruths
  eventCounts := r.eventCounts
  stateEnteredCutoffs := r.stateEnteredCutoffs
  rememberedValues := r.rememberedValues
  selectionOutputs := r.selections
  selectionScores := r.selectionScores
  targetWeights := r.targetWeights
  retainedHoldings := r.retained
  evidence := r.evidence
  valueObservations := observations

/-- Run the decision and report it. -/
def Decision.run (d : Decision) (revisionId : Option String) (start : Runtime) :
    Except ProgramError ProgramExecutionResult :=
  match statements d d.program.statements start with
  | .failure e => .error e
  | .success r observations => .ok (d.report revisionId r observations)

/-- Row the decision stands at: the last one unless a row is asked for. -/
def cutoffRow (environment : Environment) (cutoffIndex : Option Int) : Int :=
  cutoffIndex.getD ((environment.dates.length : Int) - 1)

def executeIn (environment : Environment) (program : SemanticProgram) (cutoffIndex : Option Int)
    (revisionId : Option String) (ck : Checkpoint) : Except ProgramError ProgramExecutionResult :=
  let issues := validateProgramV2 program
  let cutoff := cutoffRow environment cutoffIndex
  if issues ≠ [] then .error (.invalidProgram (issues.map (fun issue => (issue.path, issue.code))))
  else if h : 0 ≤ cutoff ∧ cutoff < environment.dates.length then
    match checkCheckpoint program cutoff.toNat ck with
    | .error e => .error e
    | .ok _ => (ck.decision program environment cutoff.toNat (by omega)).run revisionId
        (ck.runtime program)
  else .error .programCutoffOutOfRange

/-- Execute a Program over a snapshot. -/
def executeProgramV2 (ctx : DecimalContext) (program : SemanticProgram)
    (snapshot : DailyMarketSnapshot) (cutoffIndex : Option Int := none)
    (revisionId : Option String := none) (ck : Checkpoint := {}) :
    Except ProgramError ProgramExecutionResult :=
  executeIn (snapshot.environment ctx) program cutoffIndex revisionId ck

end Execute

end RuleTrade
