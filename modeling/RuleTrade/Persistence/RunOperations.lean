import RuleTrade.Persistence.Runs

/-! What workers do to the Run tables: the calls of the repository, and direct
attempts to update or delete rows. Each is one transaction. -/

namespace RuleTrade

open Library

/-- What a Run is made with, besides its identity. -/
structure RunInputs (Config Provenance : Type) where
  config : Config
  provenance : Provenance
  deriving DecidableEq

abbrev StoredRun (Config Provenance Result : Type) :=
  BacktestRunRecord (RunInputs Config Provenance) Result

abbrev RunTables (Config Provenance Result : Type) :=
  RunDatabase (RunInputs Config Provenance) Result

section Attempts

variable {Config Provenance Result : Type} [DecidableEq Config] [DecidableEq Provenance]

/-- Identity and inputs, which a trigger keeps. -/
def BacktestRunRecord.sameInputs (run run' : StoredRun Config Provenance Result) : Bool :=
  run'.id = run.id && run'.revisionId = run.revisionId && run'.candidateId = run.candidateId &&
    run'.runConfig = run.runConfig && run'.createdAt = run.createdAt

/-- What the triggers and the check of the table say to a new row in place of an
old one. Rows that a statement does not match are not asked. -/
def BacktestRunRecord.accepts
    (change : StoredRun Config Provenance Result → Option (StoredRun Config Provenance Result))
    (run : StoredRun Config Provenance Result) : Bool :=
  match change run with
  | none => true
  | some run' => run.sameInputs run' && run.status.precedes run'.status && run'.consistent

namespace RunDatabase

/-- Update of all rows that a statement matches, unless one of them is refused. -/
def updateRuns
    (change : StoredRun Config Provenance Result → Option (StoredRun Config Provenance Result))
    (db : RunTables Config Provenance Result) : Option (RunTables Config Provenance Result) :=
  if h : db.runs.values.all (BacktestRunRecord.accepts change) then
    some { db with
      runs := db.runs.mapValues (fun run => (change run).getD run)
      consistent := by
        intro run hRun
        rw [Dict.values_mapValues, List.mem_map] at hRun
        obtain ⟨old, hOld, rfl⟩ := hRun
        have hAccepts := List.all_eq_true.mp h old hOld
        unfold BacktestRunRecord.accepts at hAccepts
        cases hChange : change old with
        | none => exact db.consistent old hOld
        | some run' =>
            simp only [hChange, Bool.and_eq_true] at hAccepts
            exact hAccepts.2
      referenced := by
        intro event hEvent
        rw [Dict.keys_mapValues]
        exact db.referenced event hEvent }
  else none

omit [DecidableEq Config] [DecidableEq Provenance]

/-- Delete of the rows that a statement matches. A trigger refuses each of them. -/
def deleteRuns (matched : StoredRun Config Provenance Result → Bool)
    (db : RunTables Config Provenance Result) : Option (RunTables Config Provenance Result) :=
  if db.runs.values.any matched then none else some db

/-- Update or delete of events. A trigger refuses every row it matches. -/
def changeEvents (matched : DecisionEventDetail → Bool) (db : RunTables Config Provenance Result) :
    Option (RunTables Config Provenance Result) :=
  if db.events.any matched then none else some db

/-- Revisions and Candidates that the other repositories store. -/
def publish (revisions candidates : List String) (db : RunTables Config Provenance Result) :
    RunTables Config Provenance Result :=
  { db with revisions := db.revisions ++ revisions, candidates := db.candidates ++ candidates }

/-- Tables without a Run. -/
def empty : RunTables Config Provenance Result where
  revisions := []
  candidates := []
  runs := Dict.empty
  events := []
  consistent := fun run hRun => by cases hRun
  referenced := fun event hEvent => by cases hEvent

end RunDatabase

/-- One transaction of a worker. -/
inductive RunOperation (Config Provenance Result : Type) where
  | createRun (run : StoredRun Config Provenance Result)
  | markRunning (runId startedAt : String)
  | completeSucceededWithEvidence (runId : String) (result : Result) (completedAt : String)
      (events : List CollectedDecisionEvent)
  | completeFailed (runId : String) (error : BacktestRunError) (completedAt : String)
  | updateRuns
      (change : StoredRun Config Provenance Result → Option (StoredRun Config Provenance Result))
  | deleteRuns (matched : StoredRun Config Provenance Result → Bool)
  | changeEvents (matched : DecisionEventDetail → Bool)
  | publish (revisions candidates : List String)

namespace RunOperation

open SQLiteBacktestRunRepository

variable (fault : Raised)

/-- Outcome of a transaction without its answer. -/
def unanswered {α : Type} (outcome : Except Raised α × RunTables Config Provenance Result) :
    Except Raised PUnit × RunTables Config Provenance Result :=
  (outcome.1.map (fun _ => ⟨⟩), outcome.2)

/-- One statement, which the tables may refuse. -/
def attempt (write : RunTables Config Provenance Result →
      Option (RunTables Config Provenance Result)) :
    RunTransaction (RunInputs Config Provenance) Result PUnit PUnit :=
  .execute (Raised.other "IntegrityError") write

/-- Run an operation; `budget` counts its statements before storage fails. -/
def transact (operation : RunOperation Config Provenance Result) (budget : Option Nat)
    (db : RunTables Config Provenance Result) :
    Except Raised PUnit × RunTables Config Provenance Result :=
  match operation with
  | .createRun run => (SQLiteBacktestRunRepository.createRun run).transact fault budget db
  | .markRunning runId startedAt =>
      unanswered ((SQLiteBacktestRunRepository.markRunning runId startedAt).transact fault budget db)
  | .completeSucceededWithEvidence runId result completedAt events =>
      unanswered ((SQLiteBacktestRunRepository.completeSucceededWithEvidence runId result completedAt
        events).transact fault budget db)
  | .completeFailed runId error completedAt =>
      unanswered ((SQLiteBacktestRunRepository.completeFailed runId error completedAt).transact fault
        budget db)
  | .updateRuns change => (attempt (RunDatabase.updateRuns change)).transact fault budget db
  | .deleteRuns matched => (attempt (RunDatabase.deleteRuns matched)).transact fault budget db
  | .changeEvents matched => (attempt (RunDatabase.changeEvents matched)).transact fault budget db
  | .publish revisions candidates => (.ok ⟨⟩, db.publish revisions candidates)

/-- Tables before and after each operation of a run, which may stop at any of its
statements. Transactions are atomic, so every interleaving of workers is such a run. -/
def states (db : RunTables Config Provenance Result) :
    List (RunOperation Config Provenance Result × Option Nat) →
      List (RunTables Config Provenance Result)
  | [] => [db]
  | (operation, budget) :: later => db :: states (operation.transact fault budget db).2 later

end RunOperation

/-- Statuses of a Run over a list of tables, each once for as long as it lasts. -/
def statusHistory (runId : String) (tables : List (RunTables Config Provenance Result)) :
    List BacktestRunStatus :=
  (tables.filterMap (fun db => (db.runs.get? runId).map BacktestRunRecord.status)).destutter (· ≠ ·)

end Attempts

end RuleTrade
