import RuleTrade.Evidence.Models
import RuleTrade.Persistence.Strategies

/-! The Run tables: Runs with their lifecycle, and the Decision Events of
succeeded Runs. -/

namespace RuleTrade

open Library

structure BacktestRunError where
  code : String
  message : String
  deriving DecidableEq, Repr

/-- A stored Run of a configuration, with the result that its success leaves. -/
structure BacktestRunRecord (Config Result : Type) where
  id : String
  revisionId : String
  candidateId : Option String := none
  status : BacktestRunStatus
  runConfig : Config
  result : Option Result := none
  error : Option BacktestRunError := none
  createdAt : String
  startedAt : Option String := none
  completedAt : Option String := none

namespace BacktestRunRecord

variable {Config Result : Type}

/-- The check of the Run table: what each status comes with. -/
def consistent (run : BacktestRunRecord Config Result) : Bool :=
  match run.status with
  | .pending => run.startedAt.isNone && run.completedAt.isNone && run.result.isNone && run.error.isNone
  | .running => run.startedAt.isSome && run.completedAt.isNone && run.result.isNone && run.error.isNone
  | .succeeded =>
      run.startedAt.isSome && run.completedAt.isSome && run.result.isSome && run.error.isNone
  | .failed => run.startedAt.isSome && run.completedAt.isSome && run.result.isNone && run.error.isSome

end BacktestRunRecord

/-- Moves of a Run that the lifecycle trigger lets through. -/
def BacktestRunStatus.precedes : BacktestRunStatus → BacktestRunStatus → Bool
  | .pending, .running | .running, .succeeded | .running, .failed => true
  | _, _ => false

/-- Run tables by their primary keys. Events refer to a Run, and rows pass the
check of their table. -/
structure RunDatabase (Config Result : Type) where
  revisions : List String
  candidates : List String
  runs : Dict String (BacktestRunRecord Config Result)
  events : List DecisionEventDetail
  consistent : ∀ run ∈ runs.values, run.consistent
  referenced : ∀ event ∈ events, event.runId ∈ runs.keys

namespace RunDatabase

variable {Config Result : Type}

def eventsOf (db : RunDatabase Config Result) (runId : String) : List DecisionEventDetail :=
  db.events.filter (fun event => event.runId = runId)

/-- Write a row that passes the check of the table. -/
def setRun (db : RunDatabase Config Result) (run : BacktestRunRecord Config Result)
    (h : run.consistent) : RunDatabase Config Result where
  revisions := db.revisions
  candidates := db.candidates
  runs := db.runs.set run.id run
  events := db.events
  consistent := fun other hMem => by
    rcases Dict.mem_values_set hMem with hNew | hOld
    · exact hNew ▸ h
    · exact db.consistent other hOld
  referenced := fun event hMem => Dict.mem_keys_set.mpr (.inr (db.referenced event hMem))

/-- Insert of a Run. Its references exist, and a Candidate has one Run. -/
def insertRun (run : BacktestRunRecord Config Result) (db : RunDatabase Config Result) :
    Option (RunDatabase Config Result) :=
  if h : run.consistent then
    if db.runs.contains run.id || !db.revisions.contains run.revisionId ||
        run.candidateId.any (fun candidate => !db.candidates.contains candidate ||
          db.runs.values.any (fun other => other.candidateId = some candidate)) then
      none
    else some (db.setRun run h)
  else none

/-- Update of the Run with an id and a status. A trigger or the check of the
table may refuse it, and it has to match one row. -/
def updateRun {ε : Type} (refused unmatched : ε) (runId : String) (expected : BacktestRunStatus)
    (change : BacktestRunRecord Config Result → BacktestRunRecord Config Result)
    (db : RunDatabase Config Result) : Except ε (RunDatabase Config Result) :=
  match db.runs.get? runId with
  | none => .error unmatched
  | some run =>
      if run.status ≠ expected then .error unmatched
      else if h : (change run).consistent then
        if run.status.precedes (change run).status then .ok (db.setRun (change run) h)
        else .error refused
      else .error refused

/-- Insert of an event of a running Run. -/
def insertEvent (event : DecisionEventDetail) (db : RunDatabase Config Result) :
    Option (RunDatabase Config Result) :=
  if h : event.runId ∈ db.runs.keys then
    if (db.runs.get? event.runId).any (fun run => run.status ≠ .running) ||
        event.ordinal = 0 || !(event.schemaVersion = 1 ∨ event.schemaVersion = 2) ||
        db.events.any (fun other =>
          other.runId = event.runId && (other.id = event.id || other.ordinal = event.ordinal)) then
      none
    else some { db with
      events := db.events ++ [event]
      referenced := fun other hMem => by
        rcases List.mem_append.mp hMem with hOld | hNew
        · exact db.referenced other hOld
        · cases List.mem_singleton.mp hNew
          exact h }
  else none

end RunDatabase

section Failures

/-- Errors of a backtest that the Run service knows by their class. -/
inductive BacktestError where
  | invalidStrategy (issues : List SourceIssue)
  | unsupportedStrategy (message : String)
  | runtimeUnavailable (message : String)
  | executionFailed (message : String)
  | malformedResult (message : String)
  | marketDataUnavailable (message : String)
  deriving DecidableEq, Repr

/-- Exceptions on the way of a Run. The last is any other class. -/
inductive Raised where
  | backtest (error : BacktestError)
  | decisionEvidence (message : String)
  | v2Lowering (message : String)
  | leanLowering (message : String)
  | persistence (message : String)
  | revisionNotFound
  | invalidRunConfig
  | other (text : String)
  deriving DecidableEq, Repr

end Failures

namespace SQLiteBacktestRunRepository

variable {Config Result : Type}

/-- A transaction body over the Run tables. -/
abbrev RunTransaction (Config Result ρ α : Type) := Script (RunDatabase Config Result) Raised ρ α

/-- The row that a new Run is written as. -/
def insertedRow (run : BacktestRunRecord Config Result) : BacktestRunRecord Config Result :=
  { run with result := none, error := none, startedAt := none, completedAt := none }

def createRun (run : BacktestRunRecord Config Result) : RunTransaction Config Result PUnit PUnit :=
  .execute (Raised.persistence "Could not create Backtest Run.")
    (RunDatabase.insertRun (insertedRow run))

/-- An update that has to find its row; what it wrote is read back. -/
def transition (refused : Raised) (runId : String) (expected : BacktestRunStatus)
    (change : BacktestRunRecord Config Result → BacktestRunRecord Config Result) :
    RunTransaction Config Result (BacktestRunRecord Config Result)
      (BacktestRunRecord Config Result) :=
  .statement (RunDatabase.updateRun refused
      (.persistence "Backtest Run lifecycle transition was rejected.") runId expected change)
    (fun db =>
      match db.runs.get? runId with
      | none => .fail (.persistence "Backtest Run disappeared during transition.")
      | some run => .done run)

def markRunning (runId startedAt : String) :
    RunTransaction Config Result (BacktestRunRecord Config Result)
      (BacktestRunRecord Config Result) :=
  transition (.persistence "Could not update Backtest Run lifecycle.") runId .pending
    (fun run => { run with status := .running, startedAt := some startedAt })

def completeFailed (runId : String) (error : BacktestRunError) (completedAt : String) :
    RunTransaction Config Result (BacktestRunRecord Config Result)
      (BacktestRunRecord Config Result) :=
  transition (.persistence "Could not update Backtest Run lifecycle.") runId .running
    (fun run => { run with status := .failed, error := some error, completedAt := some completedAt })

def storeEvents {ρ : Type} (storage : Raised) (runId : String) :
    List CollectedDecisionEvent → RunTransaction Config Result ρ PUnit
  | [] => pure ⟨⟩
  | event :: later => do
      .execute storage (RunDatabase.insertEvent (event.stored runId))
      storeEvents storage runId later

/-- Store a result with all of its events, or nothing. -/
def completeSucceededWithEvidence (runId : String) (result : Result) (completedAt : String)
    (events : List CollectedDecisionEvent) :
    RunTransaction Config Result (BacktestRunRecord Config Result)
      (BacktestRunRecord Config Result) := do
  let storage := Raised.persistence "Could not persist Backtest Run Decision Evidence."
  if events = [] ∨ events.map CollectedDecisionEvent.sequence ≠
      (List.range events.length).map (· + 1) then
    .fail (.persistence "Successful Backtest Runs require one contiguous Decision Evidence set.")
  else do
    let status ← .query (fun db => (db.runs.get? runId).map BacktestRunRecord.status)
    if status ≠ some .running then
      .fail (.persistence "Backtest Run lifecycle transition was rejected.")
    else do
      storeEvents storage runId events
      transition storage runId .running (fun run =>
        { run with status := .succeeded, result := some result, completedAt := some completedAt })

end SQLiteBacktestRunRepository

end RuleTrade
