import RuleTrade.Backend.Codegen
import RuleTrade.Persistence.RunService
import RuleTrade.Properties.StaticRouting

/-! Stored Runs end: with all of their evidence or with an error, unless a stage
raises what the Run service does not catch. -/

namespace RuleTrade

open Library

section Repository

variable {Config Result : Type} {db : RunDatabase Config Result} {fault : Raised}
variable {runId : String} {run : BacktestRunRecord Config Result}

namespace RunDatabase

theorem get?_setRun {h : run.consistent} : (db.setRun run h).runs.get? run.id = some run := by
  rw [setRun, Dict.get?_set, if_pos rfl]

theorem eventsOf_fresh (hFresh : runId ∉ db.runs.keys) : db.eventsOf runId = [] := by
  rw [eventsOf, List.filter_eq_nil_iff]
  intro event hMem hSame
  exact hFresh (of_decide_eq_true hSame ▸ db.referenced event hMem)

theorem insertRun_eq_some {changed : RunDatabase Config Result}
    (h : db.insertRun run = some changed) :
    ∃ hConsistent : run.consistent, changed = db.setRun run hConsistent := by
  unfold insertRun at h
  split at h
  · split at h
    · cases h
    · exact ⟨_, (Option.some.inj h).symm⟩
  · cases h

/-- An insert of an event changes nothing else. -/
theorem insertEvent_eq_some {event : DecisionEventDetail} {changed : RunDatabase Config Result}
    (h : db.insertEvent event = some changed) :
    changed.runs = db.runs ∧ changed.events = db.events ++ [event] := by
  unfold insertEvent at h
  split at h
  · split at h
    · cases h
    · cases h
      exact ⟨rfl, rfl⟩
  · cases h

theorem updateRun_ok {ε : Type} {refused unmatched : ε} {expected : BacktestRunStatus}
    {change : BacktestRunRecord Config Result → BacktestRunRecord Config Result}
    (hRun : db.runs.get? runId = some run) (hStatus : run.status = expected)
    (hConsistent : (change run).consistent) (hMove : run.status.precedes (change run).status) :
    db.updateRun refused unmatched runId expected change = .ok (db.setRun (change run) hConsistent) := by
  unfold updateRun
  rw [hRun]
  simp only [hStatus, ne_eq, not_true_eq_false, if_false, dif_pos hConsistent]
  rw [if_pos (hStatus ▸ hMove)]

end RunDatabase

namespace SQLiteBacktestRunRepository

variable (fault db) in
theorem transact_createRun (run : BacktestRunRecord Config Result) :
    (∃ refused, (createRun run).transact fault none db = (.error refused, db)) ∨
      ∃ hConsistent : (insertedRow run).consistent,
        (createRun run).transact fault none db = (.ok ⟨⟩, db.setRun (insertedRow run) hConsistent) := by
  unfold createRun Script.transact Script.execute
  rw [Script.run_write]
  cases hInsert : db.insertRun (insertedRow run) with
  | none => exact .inl ⟨_, rfl⟩
  | some created =>
      obtain ⟨hConsistent, rfl⟩ := RunDatabase.insertRun_eq_some hInsert
      exact .inr ⟨hConsistent, rfl⟩

/-- A move that the table allows is made, and read back. -/
theorem run_transition {refused : Raised} {expected : BacktestRunStatus} {store : RunDatabase Config Result}
    {change : BacktestRunRecord Config Result → BacktestRunRecord Config Result}
    (hRun : db.runs.get? runId = some run) (hStatus : run.status = expected)
    (hConsistent : (change run).consistent) (hMove : run.status.precedes (change run).status)
    (hId : (change run).id = runId) :
    (transition refused runId expected change).run fault none store db =
      (.ok (change run), db.setRun (change run) hConsistent) := by
  unfold transition
  rw [Script.run, if_neg (Option.some_ne_none 0).symm,
    RunDatabase.updateRun_ok hRun hStatus hConsistent hMove]
  have hFound : (db.setRun (change run) hConsistent).runs.get? runId = some (change run) :=
    hId ▸ RunDatabase.get?_setRun
  simp only [hFound, Script.run_done]

/-- Events are stored all, or the transaction is given up. -/
theorem run_storeEvents (fault : Raised) {storage : Raised} (store db : RunDatabase Config Result)
    {next : PUnit → RunTransaction Config Result (BacktestRunRecord Config Result)
      (BacktestRunRecord Config Result)} (events : List CollectedDecisionEvent) :
    (storeEvents storage runId events >>= next).run fault none store db = (.error storage, store) ∨
      ∃ copy : RunDatabase Config Result, copy.runs = db.runs ∧
        copy.events = db.events ++ events.map (CollectedDecisionEvent.stored runId) ∧
        (storeEvents storage runId events >>= next).run fault none store db =
          (next ⟨⟩).run fault none store copy := by
  induction events generalizing db with
  | nil => exact .inr ⟨db, rfl, (List.append_nil _).symm, rfl⟩
  | cons first rest ih =>
      rw [storeEvents, Script.bind_execute, Script.bind_statement, Script.run_write]
      cases hInsert : db.insertEvent (first.stored runId) with
      | none => exact .inl rfl
      | some changed =>
          obtain ⟨hRuns, hEvents⟩ := RunDatabase.insertEvent_eq_some hInsert
          rcases ih changed with hFailed | ⟨copy, hSame, hStored, hRest⟩
          · exact .inl hFailed
          · refine .inr ⟨copy, hSame.trans hRuns, ?_, hRest⟩
            rw [hStored, hEvents, List.append_assoc, List.map_cons, List.singleton_append]

end SQLiteBacktestRunRepository

/-- The Run is running and has no evidence yet. -/
structure InProgress (db : RunDatabase Config Result) (runId : String)
    (run : BacktestRunRecord Config Result) : Prop where
  stored : db.runs.get? runId = some run
  running : run.status = .running
  ownId : run.id = runId
  noEvents : db.eventsOf runId = []

namespace InProgress

theorem consistent (h : InProgress db runId run) : run.consistent :=
  db.consistent run (List.mem_map_of_mem (Dict.mem_of_get? h.stored))

theorem startedAt (h : InProgress db runId run) : run.startedAt.isSome := by
  have hConsistent := h.consistent
  rw [BacktestRunRecord.consistent, h.running] at hConsistent
  simp only [Bool.and_eq_true] at hConsistent
  exact hConsistent.1.1.1

theorem noError (h : InProgress db runId run) : run.error = none ∧ run.result = none := by
  have hConsistent := h.consistent
  rw [BacktestRunRecord.consistent, h.running] at hConsistent
  simp only [Bool.and_eq_true, Option.isNone_iff_eq_none] at hConsistent
  exact ⟨hConsistent.2, hConsistent.1.2⟩

open SQLiteBacktestRunRepository

variable (fault) in
/-- A running Run can always be failed. -/
theorem completeFailed (h : InProgress db runId run) (error : BacktestRunError) (completedAt : String) :
    ∃ ended changed, (SQLiteBacktestRunRepository.completeFailed runId error completedAt).transact
        fault none db = (.ok ended, changed) ∧
      changed.runs.get? runId = some ended ∧ ended.status = .failed ∧ ended.error = some error := by
  let change (run : BacktestRunRecord Config Result) : BacktestRunRecord Config Result :=
    { run with status := .failed, error := some error, completedAt := some completedAt }
  have hConsistent : (change run).consistent := by
    simp [change, BacktestRunRecord.consistent, h.startedAt, h.noError.2]
  have hMove : run.status.precedes (change run).status := by
    rw [h.running]
    rfl
  refine ⟨change run, db.setRun (change run) hConsistent,
    run_transition h.stored h.running hConsistent hMove h.ownId, ?_, rfl, rfl⟩
  have hFound : (db.setRun (change run) hConsistent).runs.get? (change run).id =
      some (change run) := RunDatabase.get?_setRun
  rwa [show (change run).id = runId from h.ownId] at hFound

variable (fault) in
/-- A success is stored with all of its events, or the Run is as it was. -/
theorem completeSucceeded (h : InProgress db runId run) (result : Result) (completedAt : String)
    (events : List CollectedDecisionEvent) :
    (∃ message, (completeSucceededWithEvidence runId result completedAt events).transact
        fault none db = (.error (.persistence message), db)) ∨
      ∃ ended changed, (completeSucceededWithEvidence runId result completedAt events).transact
          fault none db = (.ok ended, changed) ∧
        changed.runs.get? runId = some ended ∧ ended.status = .succeeded ∧
        ended.result = some result ∧
        changed.eventsOf runId = events.map (CollectedDecisionEvent.stored runId) := by
  unfold completeSucceededWithEvidence Script.transact
  split
  · exact .inl ⟨_, rfl⟩
  · rw [Script.bind_query, Script.run_read]
    have hStatus : (db.runs.get? runId).map BacktestRunRecord.status = some .running := by
      rw [h.stored, Option.map_some, h.running]
    rw [if_neg (fun hOther => hOther hStatus)]
    rcases run_storeEvents fault db db events with
      hFailed | ⟨copy, hRuns, hEvents, hRest⟩
    · exact .inl ⟨_, hFailed⟩
    · rw [hRest]
      let change (run : BacktestRunRecord Config Result) : BacktestRunRecord Config Result :=
        { run with status := .succeeded, result := some result, completedAt := some completedAt }
      have hConsistent : (change run).consistent := by
        simp [change, BacktestRunRecord.consistent, h.startedAt, h.noError.1]
      have hMove : run.status.precedes (change run).status := by
        rw [h.running]
        rfl
      have hFound : (copy.setRun (change run) hConsistent).runs.get? (change run).id =
          some (change run) := RunDatabase.get?_setRun
      rw [show (change run).id = runId from h.ownId] at hFound
      refine .inr ⟨change run, copy.setRun (change run) hConsistent,
        run_transition (hRuns ▸ h.stored) h.running hConsistent hMove h.ownId, hFound, rfl, rfl, ?_⟩
      change copy.events.filter _ = _
      rw [hEvents, List.filter_append]
      have hBefore : db.events.filter (fun event => decide (event.runId = runId)) = [] := h.noEvents
      rw [hBefore, List.nil_append, List.filter_eq_self]
      intro event hMem
      obtain ⟨collected, -, rfl⟩ := List.mem_map.mp hMem
      exact decide_eq_true rfl

end InProgress

end Repository

/-- An exception that a failed Run reports. -/
def Raised.Caught (raised : Raised) : Prop := raised.publicError.isSome

section Execution

variable {V1 V2 Plan Config Payload Result : Type}

namespace BacktestService

variable (service : BacktestService V1 V2 Plan Config Payload Result)

/-- Every stage that an execution comes to raises only what is caught; of a
lowering, that is also what it refuses. -/
def Contained (source : CanonicalSource V1 V2) (config : Config) : Prop :=
  service.issues source |> Yields Raised.Caught (fun issues => issues = [] →
    (service.compile source |> Yields (fun raised => (asUnsupported source raised).Caught)
      (fun plan => service.requireData source plan config |> Yields Raised.Caught
        (fun _ => service.generateCsharp plan config |> Yields Raised.Caught
          (fun generated => service.run generated config |> Yields Raised.Caught
            (fun artifact => service.normalizeLeanResult artifact.2 |> Yields Raised.Caught
              (fun _ => service.collectDecisionEvidence artifact.1 |> Yields Raised.Caught
                (fun _ => True))))))))

variable {service} {source : CanonicalSource V1 V2} {config : Config}

theorem yields_requireValid {issues : List SourceIssue} {Q : PUnit → Prop} :
    Yields Raised.Caught Q (requireValid issues) ↔ (issues = [] → Q ⟨⟩) := by
  unfold requireValid
  split
  · next hNone => exact ⟨fun h _ => h, fun h => h hNone⟩
  · next hSome => exact ⟨fun _ hNone => absurd hNone hSome, fun _ => rfl⟩

theorem contained_iff : service.Contained source config ↔
    ∀ raised, service.executeWithEvidence source config = .error raised → raised.Caught := by
  rw [← yields_failure_iff]
  simp only [executeWithEvidence, executePlan, yields_bind, yields_requireValid,
    yields_mapError]
  rfl

end BacktestService

end Execution

section Service

variable {V1 V2 Plan RawConfig Config Payload Result : Type}
variable {service : BacktestRunService V1 V2 Plan RawConfig Config Payload Result}

namespace BacktestRunService

open SQLiteBacktestRunRepository

theorem yields_checkEvidence (source : CanonicalSource V1 V2)
    (execution : BacktestExecution Result) :
    Yields Raised.Caught (fun _ => True) (service.checkEvidence source execution) := by
  unfold checkEvidence
  split
  · rfl
  · split
    · rfl
    · trivial

/-- Missing evidence and unknown components are caught as well. -/
theorem checked_iff {source : CanonicalSource V1 V2} {config : Config} :
    (∀ raised, service.executeChecked source config = .error raised → raised.Caught) ↔
      service.executor.Contained source config := by
  rw [BacktestService.contained_iff, ← yields_failure_iff, ← yields_failure_iff, executeChecked,
    yields_bind]
  simp only [yields_checkEvidence]

theorem serve_markRunning {db : RunDatabase Config Result} {source : RunSource V1 V2 Config}
    (hConsistent : (insertedRow (service.newRun source)).consistent)
    (hFresh : service.newId ∉ db.runs.keys) : ∃ run started,
      InProgress started service.newId run ∧
        (runTransaction (markRunning service.newId service.clock.startedAt)).serve
          (db.setRun (insertedRow (service.newRun source)) hConsistent) = (.ok run, started) := by
  let change (run : BacktestRunRecord Config Result) : BacktestRunRecord Config Result :=
    { run with status := .running, startedAt := some service.clock.startedAt }
  have hChanged : (change (insertedRow (service.newRun source))).consistent := rfl
  have hFound : (db.setRun (insertedRow (service.newRun source)) hConsistent).runs.get?
      service.newId = some (insertedRow (service.newRun source)) := RunDatabase.get?_setRun
  refine ⟨_, _, ⟨RunDatabase.get?_setRun, rfl, rfl, ?_⟩, run_transition hFound rfl hChanged rfl rfl⟩
  show db.eventsOf service.newId = []
  exact RunDatabase.eventsOf_fresh hFresh

/-- A Run with a fresh id is stored and running when it is executed, or there is none. -/
theorem serve_createAndExecuteSource {db : RunDatabase Config Result}
    (hFresh : service.newId ∉ db.runs.keys) (source : RunSource V1 V2 Config) :
    (∃ raised, (service.createAndExecuteSource source).serve db = (.error raised, db)) ∨
      ∃ run started, InProgress started service.newId run ∧
        (service.createAndExecuteSource source).serve db =
          (service.conclude (service.executeChecked source.canonical source.runConfig)).serve
            started := by
  unfold createAndExecuteSource
  cases hPreflight : service.executor.preflight source.canonical source.runConfig with
  | error raised =>
      exact .inl ⟨raised, RunService.serve_bind_error (RunService.serve_liftExcept _)⟩
  | ok u =>
      rw [RunService.serve_bind_ok (RunService.serve_liftExcept (.ok u))]
      rcases transact_createRun db (.persistence "storage") (service.newRun source) with
        ⟨refused, hRefused⟩ | ⟨hConsistent, hCreated⟩
      · exact .inl ⟨refused, RunService.serve_bind_error hRefused⟩
      · obtain ⟨run, started, hProgress, hMarked⟩ := serve_markRunning hConsistent hFresh
        refine .inr ⟨run, started, hProgress, ?_⟩
        have hCreated : (runTransaction (createRun (service.newRun source))).serve db = _ := hCreated
        rw [RunService.serve_bind_ok hCreated, RunService.serve_bind_ok hMarked]

/-- The Run ended: with the result and all the evidence of its execution, or with
an error. -/
def Ended (service : BacktestRunService V1 V2 Plan RawConfig Config Payload Result)
    (request : RunRequest V1 V2 RawConfig Config) (db : RunDatabase Config Result)
    (run : BacktestRunRecord Config Result) : Prop :=
  (run.status = .failed ∧ run.error.isSome) ∨
    (run.status = .succeeded ∧ ∃ source execution, service.sourceOf request = .ok source ∧
      service.executeChecked source.canonical source.runConfig = .ok execution ∧
      run.result = some execution.result ∧ db.eventsOf service.newId =
        execution.decisionEvents.map (CollectedDecisionEvent.stored service.newId))

/-- No stage of the requested execution raises what is not caught. -/
def Contained (service : BacktestRunService V1 V2 Plan RawConfig Config Payload Result)
    (request : RunRequest V1 V2 RawConfig Config) : Prop :=
  ∀ source, service.sourceOf request = .ok source →
    service.executor.Contained source.canonical source.runConfig

section Conclude

variable {db : RunDatabase Config Result} {run : BacktestRunRecord Config Result}

theorem conclude_caught (h : InProgress db service.newId run) {raised : Raised}
    (hCaught : raised.Caught) : ∃ ended,
      ((service.conclude (.error raised)).serve db).2.runs.get? service.newId = some ended ∧
        ended.status = .failed ∧ ended.error.isSome := by
  obtain ⟨error, hError⟩ := Option.isSome_iff_exists.mp hCaught
  obtain ⟨ended, changed, hServed, hFound, hStatus, hShown⟩ :=
    h.completeFailed (.persistence "storage") error service.clock.completedAt
  refine ⟨ended, ?_, hStatus, by rw [hShown]; rfl⟩
  have hSame : service.conclude (.error raised) = runTransaction
      (SQLiteBacktestRunRepository.completeFailed service.newId error service.clock.completedAt) := by
    rw [conclude, recordFailure, hError]
  rw [hSame, serve_runTransaction, hServed]
  exact hFound

/-- What is not caught leaves the Run running. -/
theorem conclude_escaped {raised : Raised} (hEscaped : ¬raised.Caught) :
    ((service.conclude (.error raised)).serve db).2 = db := by
  have hNone : raised.publicError = none := Option.not_isSome_iff_eq_none.mp hEscaped
  rw [conclude, recordFailure, hNone]
  rfl

theorem conclude_executed (h : InProgress db service.newId run)
    (execution : BacktestExecution Result) : ∃ ended,
      ((service.conclude (.ok execution)).serve db).2.runs.get? service.newId = some ended ∧
        ((ended.status = .failed ∧ ended.error.isSome) ∨
          (ended.status = .succeeded ∧ ended.result = some execution.result ∧
            ((service.conclude (.ok execution)).serve db).2.eventsOf service.newId =
              execution.decisionEvents.map (CollectedDecisionEvent.stored service.newId))) := by
  unfold conclude recordSuccess
  rw [RunService.serve_tryCatch, serve_runTransaction]
  rcases h.completeSucceeded (.persistence "storage") execution.result
    service.clock.completedAt execution.decisionEvents with
    ⟨message, hFailed⟩ | ⟨ended, changed, hServed, hFound, hStatus, hResult, hEvents⟩
  · rw [hFailed]
    simp only [RunService.serve_tryCatch, serve_runTransaction]
    obtain ⟨ended, changed, hServed, hFound, hStatus, hShown⟩ :=
      h.completeFailed (.persistence "storage")
        ⟨"evidence_persistence_failure", "Backtest Decision Evidence could not be persisted."⟩
        service.clock.failedAt
    rw [hServed]
    exact ⟨ended, hFound, .inl ⟨hStatus, by rw [hShown]; rfl⟩⟩
  · rw [hServed]
    exact ⟨ended, hFound, .inr ⟨hStatus, hResult, hEvents⟩⟩

end Conclude

/-- A stored Run ends exactly when its execution raises only what is caught. -/
theorem stored_run_ends_iff {request : RunRequest V1 V2 RawConfig Config}
    {db : RunDatabase Config Result} (hFresh : service.newId ∉ db.runs.keys)
    {run : BacktestRunRecord Config Result}
    (hStored : ((service.createAndExecute request).serve db).2.runs.get? service.newId = some run) :
    service.Ended request ((service.createAndExecute request).serve db).2 run ↔
      service.Contained request := by
  have hAbsent : db.runs.get? service.newId ≠ some run := by
    rw [Dict.get?_eq_none_iff.mpr hFresh]
    exact (Option.some_ne_none run).symm
  unfold createAndExecute at hStored ⊢
  cases hSource : service.sourceOf request with
  | error raised =>
      rw [hSource, RunService.serve_bind_error (RunService.serve_liftExcept _)] at hStored
      exact absurd hStored hAbsent
  | ok source =>
      rw [hSource, RunService.serve_bind_ok (RunService.serve_liftExcept _)] at hStored
      rw [RunService.serve_bind_ok (RunService.serve_liftExcept _)]
      have hContained : service.Contained request ↔
          service.executor.Contained source.canonical source.runConfig := by
        constructor
        · exact fun h => h source hSource
        · intro h other hOther
          cases hSource.symm.trans hOther
          exact h
      rw [hContained, ← checked_iff]
      rcases serve_createAndExecuteSource hFresh source with
        ⟨raised, hServed⟩ | ⟨started, running, hProgress, hServed⟩
      · rw [hServed] at hStored
        exact absurd hStored hAbsent
      · rw [hServed] at hStored ⊢
        cases hChecked : service.executeChecked source.canonical source.runConfig with
        | error raised =>
            rw [hChecked] at hStored
            by_cases hCaught : raised.Caught
            · obtain ⟨ended, hFound, hFailed⟩ := conclude_caught hProgress hCaught
              cases hStored.symm.trans hFound
              refine ⟨fun _ other hOther => ?_, fun _ => .inl hFailed⟩
              cases hOther
              exact hCaught
            · rw [conclude_escaped hCaught, hProgress.stored] at hStored
              cases hStored
              refine ⟨fun h => ?_, fun h => absurd (h raised rfl) hCaught⟩
              rcases h with ⟨hStatus, -⟩ | ⟨hStatus, -⟩
              · cases hProgress.running.symm.trans hStatus
              · cases hProgress.running.symm.trans hStatus
        | ok execution =>
            rw [hChecked] at hStored
            obtain ⟨ended, hFound, hEnded⟩ := conclude_executed hProgress execution
            cases hStored.symm.trans hFound
            refine ⟨fun _ other hOther => (by cases hOther), fun _ => ?_⟩
            rcases hEnded with hFailed | ⟨hStatus, hResult, hEvents⟩
            · exact .inl hFailed
            · exact .inr ⟨hStatus, source, execution, hSource, hChecked, hResult, hEvents⟩

end BacktestRunService

end Service

section Maintained

def CompileError.raised : CompileError → Raised
  | .refused message => .v2Lowering message
  | .assertionFailed => .other "AssertionError"
  | .keyMissing key => .other ("KeyError: " ++ quoted key)
  | .indexOutOfRange => .other "IndexError"
  | .invalid message => .other ("ValueError: " ++ message)

/-- The backtest service for current sources, over a given engine. -/
def maintainedExecutor {Config Payload Result : Type} (legacy : LegacyRoutes)
    (ids : PlanIdentities) (render : LeanPlan → String)
    (run : String → Config → Except Raised (String × Payload))
    (normalize : Payload → Except Raised Result)
    (collect : String → Except Raised (List CollectedDecisionEvent))
    (sourceIds : LeanPlan → List String) :
    BacktestService PEmpty CanonicalStrategy LeanPlan Config Payload Result where
  marketData := none
  collectSemanticIssues := PEmpty.elim
  validateStrategyV2 := fun strategy =>
    .ok ((validateStrategyV2 strategy).map (fun issue => ⟨issue.path, issue.message⟩))
  compileStrategyToLeanPlan := PEmpty.elim
  compileV2StrategyToLeanPlan := fun strategy =>
    (compileV2 legacy ids strategy).mapError CompileError.raised
  generateCsharp := fun plan _ => (generateCsharp render plan).mapError CompileError.raised
  run := run
  normalizeLeanResult := normalize
  collectDecisionEvidence := collect
  planSourceIds := sourceIds
  graphComponentIds := PEmpty.elim

/-- One record, as an execution that holds A would log it. -/
def holdingEvent : CollectedDecisionEvent where
  schemaVersion := 2
  sequence := 1
  sessionId := ⟨2024, 1, 8⟩
  phase := .portfolioExecution
  sourceComponents := [⟨"rebalance", "outer", none⟩]
  evidence := .finalTargets ⟨["A"], Dict.ofList [("A", 1)]⟩
  schemaVersion_known := .inr rfl
  sequence_pos := Nat.le_refl 1

/-- A Run service over one saved Revision, whose engine logs one record. -/
def oneRevisionService (strategy : CanonicalStrategy) :
    BacktestRunService PEmpty CanonicalStrategy LeanPlan PUnit PUnit PUnit PUnit where
  executor := maintainedExecutor noLegacy plainIdentities (fun _ => "public class") (fun _ _ =>
    .ok ("log", ⟨⟩)) .ok (fun _ => .ok [holdingEvent]) (fun plan => plan.rebalances.map LeanRebalance.id)
  getRevisionById := fun _ => .ok (.v2 strategy)
  validateConfig := .ok
  newId := "run"
  clock := ⟨"created", "started", "completed", "failed"⟩

theorem noRun_consistent :
    ∀ run ∈ (Dict.empty : Dict String (BacktestRunRecord PUnit PUnit)).values, run.consistent :=
  List.forall_mem_nil _

theorem noEvent_referenced : ∀ event ∈ ([] : List DecisionEventDetail),
    event.runId ∈ (Dict.empty : Dict String (BacktestRunRecord PUnit PUnit)).keys :=
  List.forall_mem_nil _

def oneRevision : RunDatabase PUnit PUnit where
  revisions := ["revision"]
  candidates := []
  runs := Dict.empty
  events := []
  consistent := noRun_consistent
  referenced := noEvent_referenced

/-- A Control that asks for an exact price. -/
def exactlyFive : ProgramStatement :=
  .control
    { semanticId := "outer"
      condition := .comparison "outer-compare" .eq (.daily (ownCloseOf "A"))
        (.literal "outer-level" 5 .price .usdPerShare (some "adjusted_close")) }
    [intoAsset "first" "A"] [intoAsset "second" "B"]

def exactStrategy : CanonicalStrategy :=
  .ofProgram crossStrategy.definitions (.daily [exactlyFive])

def branchedStrategy : CanonicalStrategy :=
  .ofProgram crossStrategy.definitions branchedProgram

/-- The generator has no spelling for the operator. Its KeyError passes the
service, and the Run stays running. -/
theorem uncaught_exception_leaves_running : validateStrategyV2 exactStrategy = [] ∧
    ∃ run, (((oneRevisionService exactStrategy).createAndExecute
        (.revision "revision" ⟨⟩)).serve oneRevision).2.runs.get? "run" = some run ∧
      run.status = .running ∧
      ¬(oneRevisionService exactStrategy).Ended (.revision "revision" ⟨⟩)
        (((oneRevisionService exactStrategy).createAndExecute
          (.revision "revision" ⟨⟩)).serve oneRevision).2 run := by
  have hStored : ((((oneRevisionService exactStrategy).createAndExecute
      (.revision "revision" ⟨⟩)).serve oneRevision).2.runs.get? "run").any
        (fun run => run.status = .running) = true := by
    decide +kernel
  obtain ⟨run, hRun, hRunning⟩ := (Option.any_eq_true _ _).mp hStored
  have hRunning := of_decide_eq_true hRunning
  refine ⟨by decide +kernel, run, hRun, hRunning, fun h => ?_⟩
  rcases h with ⟨hFailed, -⟩ | ⟨hSucceeded, -⟩
  · cases hRunning.symm.trans hFailed
  · cases hRunning.symm.trans hSucceeded

theorem stored_run_ends_iff_branched : ∃ run,
    (((oneRevisionService branchedStrategy).createAndExecute
        (.revision "revision" ⟨⟩)).serve oneRevision).2.runs.get? "run" = some run ∧
      (oneRevisionService branchedStrategy).Ended (.revision "revision" ⟨⟩)
        (((oneRevisionService branchedStrategy).createAndExecute
          (.revision "revision" ⟨⟩)).serve oneRevision).2 run := by
  have hStored : ((((oneRevisionService branchedStrategy).createAndExecute
      (.revision "revision" ⟨⟩)).serve oneRevision).2.runs.get? "run").isSome = true := by
    decide +kernel
  obtain ⟨run, hRun⟩ := Option.isSome_iff_exists.mp hStored
  have hReturns : ((oneRevisionService branchedStrategy).executor.executeWithEvidence
      (.v2 branchedStrategy) ⟨⟩).toOption.isSome = true := by
    decide +kernel
  refine ⟨run, hRun, (BacktestRunService.stored_run_ends_iff List.not_mem_nil hRun).mpr ?_⟩
  intro source hSource
  cases hSource
  refine BacktestService.contained_iff.mpr (fun raised hRaised => ?_)
  rw [hRaised] at hReturns
  cases hReturns

end Maintained

end RuleTrade
