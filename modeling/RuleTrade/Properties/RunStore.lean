import RuleTrade.Persistence.RunOperations
import RuleTrade.Properties.TerminalRuns
import Mathlib.Data.List.Destutter

/-! The Run store keeps its Runs: each runs through its lifecycle once, with the
inputs it was made with, and has evidence when it has succeeded. -/

namespace RuleTrade

open Library

variable {Config Provenance Result : Type} [DecidableEq Config] [DecidableEq Provenance]

section Sound

/-- Every Run is stored under its id and has evidence, numbered from one, exactly
when it has succeeded. -/
structure RunDatabase.Sound (db : RunTables Config Provenance Result) : Prop where
  keyed : ∀ id run, db.runs.get? id = some run → run.id = id
  evidence : ∀ id run, db.runs.get? id = some run →
    (db.eventsOf id ≠ [] ↔ run.status = .succeeded)
  numbered : ∀ id run, db.runs.get? id = some run →
    (db.eventsOf id).map DecisionEventDetail.ordinal =
      (List.range (db.eventsOf id).length).map (· + 1)

/-- A Run after a transaction is the Run before it, or its next status. -/
def BacktestRunRecord.Continues (run run' : StoredRun Config Provenance Result) : Prop :=
  run.sameInputs run' = true ∧ (run'.status = run.status ∨ run.status.precedes run'.status = true)

/-- What a transaction may do to the tables. -/
structure RunDatabase.Advances (db later : RunTables Config Provenance Result) : Prop where
  kept : ∀ id run, db.runs.get? id = some run →
    ∃ run', later.runs.get? id = some run' ∧ run.Continues run'
  created : ∀ id run', db.runs.get? id = none → later.runs.get? id = some run' →
    run'.status = .pending ∧ run'.id = id
  evidence : ∀ id run run', db.runs.get? id = some run → later.runs.get? id = some run' →
    (later.eventsOf id = db.eventsOf id ∧ (run'.status = .succeeded → run.status = .succeeded)) ∨
      (run.status = .running ∧ run'.status = .succeeded ∧
        ∃ events, events ≠ [] ∧ later.eventsOf id = db.eventsOf id ++ events ∧
          events.map DecisionEventDetail.ordinal = (List.range events.length).map (· + 1))
  unborn : ∀ id, db.runs.get? id = none → later.eventsOf id = []

theorem BacktestRunRecord.sameInputs_self (run : StoredRun Config Provenance Result) :
    run.sameInputs run = true := by
  simp [sameInputs]

theorem BacktestRunRecord.Continues.refl (run : StoredRun Config Provenance Result) :
    run.Continues run := ⟨run.sameInputs_self, .inl rfl⟩

omit [DecidableEq Config] [DecidableEq Provenance] in
theorem RunDatabase.eventsOf_unborn {db : RunTables Config Provenance Result} {id : String}
    (h : db.runs.get? id = none) : db.eventsOf id = [] :=
  RunDatabase.eventsOf_fresh (Dict.get?_eq_none_iff.mp h)

/-- Tables whose Runs and events are the same. -/
theorem RunDatabase.Advances.of_same {db later : RunTables Config Provenance Result}
    (hRuns : later.runs = db.runs) (hEvents : later.events = db.events) : db.Advances later where
  kept := fun id run hRun => ⟨run, hRuns ▸ hRun, .refl run⟩
  created := fun id run' hNone hRun => by
    rw [hRuns, hNone] at hRun
    cases hRun
  evidence := fun id run run' hRun hLater => by
    rw [hRuns, hRun] at hLater
    cases hLater
    exact .inl ⟨by rw [eventsOf, hEvents, eventsOf], fun hSucceeded => hSucceeded⟩
  unborn := fun id hNone => by
    rw [eventsOf, hEvents]
    exact eventsOf_unborn hNone

theorem BacktestRunRecord.sameInputs_id {run run' : StoredRun Config Provenance Result}
    (h : run.sameInputs run' = true) : run'.id = run.id := by
  simp only [sameInputs, Bool.and_eq_true, decide_eq_true_eq] at h
  exact h.1.1.1.1

omit [DecidableEq Config] [DecidableEq Provenance] in
/-- Only a succeeded Run has evidence. -/
theorem RunDatabase.Sound.noEvidence {db : RunTables Config Provenance Result} (h : db.Sound)
    {id : String} {run : StoredRun Config Provenance Result} (hRun : db.runs.get? id = some run)
    (hStatus : run.status ≠ .succeeded) : db.eventsOf id = [] := by
  by_contra hEvents
  exact hStatus ((h.evidence id run hRun).mp hEvents)

theorem RunDatabase.Advances.refl (db : RunTables Config Provenance Result) : db.Advances db :=
  .of_same rfl rfl

/-- A sound store stays sound. -/
theorem RunDatabase.Sound.advance {db later : RunTables Config Provenance Result} (h : db.Sound)
    (hStep : db.Advances later) : later.Sound where
  keyed := by
    intro id run' hLater
    cases hBefore : db.runs.get? id with
    | none => exact (hStep.created id run' hBefore hLater).2
    | some run =>
        obtain ⟨found, hFound, hSame, -⟩ := hStep.kept id run hBefore
        rw [hLater] at hFound
        cases hFound
        rw [BacktestRunRecord.sameInputs_id hSame, h.keyed id run hBefore]
  evidence := by
    intro id run' hLater
    cases hBefore : db.runs.get? id with
    | none =>
        rw [hStep.unborn id hBefore, (hStep.created id run' hBefore hLater).1]
        simp
    | some run =>
        rcases hStep.evidence id run run' hBefore hLater with
          ⟨hEvents, hOld⟩ | ⟨hRunning, hSucceeded, events, hSome, hEvents, -⟩
        · obtain ⟨found, hFound, -, hMove⟩ := hStep.kept id run hBefore
          rw [hLater] at hFound
          cases hFound
          rw [hEvents, h.evidence id run hBefore]
          refine ⟨fun hSucceeded => ?_, hOld⟩
          rcases hMove with hSame | hMoved
          · rw [hSame, hSucceeded]
          · rw [hSucceeded] at hMoved
            cases hMoved
        · rw [hEvents, h.noEvidence hBefore (by rw [hRunning]; decide), List.nil_append]
          exact iff_of_true hSome hSucceeded
  numbered := by
    intro id run' hLater
    cases hBefore : db.runs.get? id with
    | none =>
        rw [hStep.unborn id hBefore]
        rfl
    | some run =>
        rcases hStep.evidence id run run' hBefore hLater with
          ⟨hEvents, -⟩ | ⟨hRunning, -, events, -, hEvents, hNumbers⟩
        · rw [hEvents]
          exact h.numbered id run hBefore
        · rw [hEvents, h.noEvidence hBefore (by rw [hRunning]; decide), List.nil_append]
          exact hNumbers

end Sound

section Transactions

variable {db : RunTables Config Provenance Result} {fault : Raised} {runId : String}

namespace RunDatabase

omit [DecidableEq Config] [DecidableEq Provenance]

theorem get?_setRun_of_ne {run : StoredRun Config Provenance Result} {h : run.consistent}
    {id : String} (hOther : id ≠ run.id) : (db.setRun run h).runs.get? id = db.runs.get? id :=
  Dict.get?_set_of_ne hOther

theorem insertRun_fresh {run : StoredRun Config Provenance Result}
    {later : RunTables Config Provenance Result} (h : db.insertRun run = some later) :
    db.runs.get? run.id = none := by
  unfold insertRun at h
  split at h
  · split_ifs at h with hRefused
    simp only [Bool.or_eq_true, not_or, Bool.not_eq_true, Dict.contains,
      Option.isSome_eq_false_iff, Option.isNone_iff_eq_none] at hRefused
    exact hRefused.1.1
  · cases h

/-- An update that is made has found its row and moved it. -/
theorem updateRun_eq_ok {ε : Type} {refused unmatched : ε} {expected : BacktestRunStatus}
    {change : StoredRun Config Provenance Result → StoredRun Config Provenance Result}
    {later : RunTables Config Provenance Result}
    (h : db.updateRun refused unmatched runId expected change = .ok later) :
    ∃ run, db.runs.get? runId = some run ∧ run.status = expected ∧
      run.status.precedes (change run).status = true ∧
      ∃ hConsistent, later = db.setRun (change run) hConsistent := by
  unfold updateRun at h
  split at h
  · cases h
  · rename_i run hRun
    split_ifs at h with hStatus hConsistent hMove
    cases h
    exact ⟨run, hRun, not_not.mp hStatus, hMove, hConsistent, rfl⟩

end RunDatabase

/-- Writing the next status of a Run, with its inputs as they were. -/
theorem RunDatabase.Advances.of_setRun {run : StoredRun Config Provenance Result}
    {old : StoredRun Config Provenance Result} (h : run.consistent) (hSound : db.Sound)
    (hOld : db.runs.get? runId = some old) (hSame : old.sameInputs run = true)
    (hMove : old.status.precedes run.status = true) (hStatus : run.status ≠ .succeeded) :
    db.Advances (db.setRun run h) := by
  have hId : run.id = runId := by
    rw [BacktestRunRecord.sameInputs_id hSame, hSound.keyed runId old hOld]
  subst hId
  have hWritten : (db.setRun run h).runs.get? run.id = some run := get?_setRun
  refine ⟨fun id other hOther => ?_, fun id run' hNone hLater => ?_,
    fun id other run' hOther hLater => ?_, fun id hNone => (eventsOf_unborn hNone : db.eventsOf id = [])⟩
  · by_cases hThis : id = run.id
    · subst hThis
      rw [hOld] at hOther
      cases hOther
      exact ⟨run, hWritten, hSame, .inr hMove⟩
    · exact ⟨other, (get?_setRun_of_ne hThis).trans hOther, .refl other⟩
  · have hThis : id ≠ run.id := by
      rintro rfl
      rw [hOld] at hNone
      cases hNone
    rw [get?_setRun_of_ne hThis, hNone] at hLater
    cases hLater
  · refine .inl ⟨rfl, fun hSucceeded => ?_⟩
    by_cases hThis : id = run.id
    · subst hThis
      rw [hWritten] at hLater
      cases hLater
      exact absurd hSucceeded hStatus
    · rw [get?_setRun_of_ne hThis, hOther] at hLater
      cases hLater
      exact hSucceeded

/-- A transaction that fails early leaves the tables alone. -/
theorem advances_transact {α : Type}
    {script : SQLiteBacktestRunRepository.RunTransaction (RunInputs Config Provenance) Result α α}
    (h : db.Advances (script.transact fault none db).2) (budget : Option Nat) :
    db.Advances (script.transact fault budget db).2 := by
  rcases Script.transact_budget fault script budget db with hFault | hSame
  · rw [hFault]
    exact .refl db
  · rw [hSame]
    exact h

/-- A guarded update moves its row, or the tables stay as they are. -/
theorem advances_transition {refused : Raised} {expected : BacktestRunStatus}
    {change : StoredRun Config Provenance Result → StoredRun Config Provenance Result}
    (hSound : db.Sound) (hSame : ∀ run, BacktestRunRecord.sameInputs run (change run) = true)
    (hStatus : ∀ run, (change run).status ≠ .succeeded) :
    db.Advances ((SQLiteBacktestRunRepository.transition refused runId expected change).transact
      fault none db).2 := by
  unfold SQLiteBacktestRunRepository.transition Script.transact
  rw [Script.run, if_neg (Option.some_ne_none 0).symm]
  cases hUpdate : db.updateRun refused
      (.persistence "Backtest Run lifecycle transition was rejected.") runId expected change with
  | error raised => exact .refl db
  | ok later =>
      obtain ⟨run, hRun, -, hMove, hConsistent, rfl⟩ := RunDatabase.updateRun_eq_ok hUpdate
      simp only
      split
      · exact .refl db
      · exact (.of_setRun hConsistent hSound hRun (hSame run) hMove (hStatus run))

omit [DecidableEq Config] [DecidableEq Provenance] in
/-- A row without times, result and error passes the check as a pending one only. -/
theorem insertedRow_pending {run : StoredRun Config Provenance Result}
    (h : (SQLiteBacktestRunRepository.insertedRow run).consistent) : run.status = .pending := by
  unfold BacktestRunRecord.consistent SQLiteBacktestRunRepository.insertedRow at h
  cases hStatus : run.status <;> simp_all

theorem RunDatabase.Advances.of_insert {run : StoredRun Config Provenance Result}
    (h : run.consistent) (hFresh : db.runs.get? run.id = none) (hStatus : run.status = .pending) :
    db.Advances (db.setRun run h) := by
  have hWritten : (db.setRun run h).runs.get? run.id = some run := get?_setRun
  have hOthers : ∀ id other, db.runs.get? id = some other →
      (db.setRun run h).runs.get? id = some other := by
    intro id other hOther
    rw [get?_setRun_of_ne, hOther]
    rintro rfl
    rw [hFresh] at hOther
    cases hOther
  refine ⟨fun id other hOther => ⟨other, hOthers id other hOther, .refl other⟩,
    fun id run' hNone hLater => ?_, fun id other run' hOther hLater => ?_,
    fun id hNone => (eventsOf_unborn hNone : db.eventsOf id = [])⟩
  · by_cases hThis : id = run.id
    · subst hThis
      rw [hWritten] at hLater
      cases hLater
      exact ⟨hStatus, rfl⟩
    · rw [get?_setRun_of_ne hThis, hNone] at hLater
      cases hLater
  · rw [hOthers id other hOther] at hLater
    cases hLater
    exact .inl ⟨rfl, fun hSucceeded => hSucceeded⟩

theorem advances_createRun (run : StoredRun Config Provenance Result) :
    db.Advances ((SQLiteBacktestRunRepository.createRun run).transact fault none db).2 := by
  unfold SQLiteBacktestRunRepository.createRun Script.transact Script.execute
  rw [Script.run_write]
  cases hInsert : db.insertRun (SQLiteBacktestRunRepository.insertedRow run) with
  | none => exact .refl db
  | some later =>
      obtain ⟨hConsistent, rfl⟩ := RunDatabase.insertRun_eq_some hInsert
      exact (.of_insert hConsistent (RunDatabase.insertRun_fresh hInsert)
        (insertedRow_pending hConsistent))

/-- A success with its events, all numbered from one. -/
theorem RunDatabase.Advances.of_success {copy : RunTables Config Provenance Result}
    {run old : StoredRun Config Provenance Result} {events : List DecisionEventDetail}
    (h : run.consistent) (hSound : db.Sound) (hRuns : copy.runs = db.runs)
    (hEvents : copy.events = db.events ++ events) (hOld : db.runs.get? runId = some old)
    (hSame : old.sameInputs run = true) (hRunning : old.status = .running)
    (hSucceeded : run.status = .succeeded) (hSome : events ≠ [])
    (hOwn : ∀ event ∈ events, event.runId = runId)
    (hNumbers : events.map DecisionEventDetail.ordinal =
      (List.range events.length).map (· + 1)) : db.Advances (copy.setRun run h) := by
  have hId : run.id = runId := by
    rw [BacktestRunRecord.sameInputs_id hSame, hSound.keyed runId old hOld]
  subst hId
  have hWritten : (copy.setRun run h).runs.get? run.id = some run := get?_setRun
  have hOther : ∀ id, id ≠ run.id → (copy.setRun run h).runs.get? id = db.runs.get? id :=
    fun id hThis => by rw [get?_setRun_of_ne hThis, hRuns]
  have hFiltered : ∀ id, (copy.setRun run h).eventsOf id =
      db.eventsOf id ++ if id = run.id then events else [] := by
    intro id
    show copy.events.filter _ = _
    rw [hEvents, List.filter_append, eventsOf]
    congr 1
    split_ifs with hThis
    · rw [List.filter_eq_self]
      intro event hEvent
      simp [hOwn event hEvent, hThis]
    · rw [List.filter_eq_nil_iff]
      intro event hEvent
      simp only [hOwn event hEvent, decide_eq_true_eq]
      exact fun hEq => hThis hEq.symm
  refine ⟨fun id other hFound => ?_, fun id run' hNone hLater => ?_,
    fun id other run' hFound hLater => ?_, fun id hNone => ?_⟩
  · by_cases hThis : id = run.id
    · subst hThis
      rw [hOld] at hFound
      cases hFound
      exact ⟨run, hWritten, hSame, .inr (by rw [hRunning, hSucceeded]; rfl)⟩
    · exact ⟨other, (hOther id hThis).trans hFound, .refl other⟩
  · have hThis : id ≠ run.id := by
      rintro rfl
      rw [hOld] at hNone
      cases hNone
    rw [hOther id hThis, hNone] at hLater
    cases hLater
  · by_cases hThis : id = run.id
    · subst hThis
      rw [hOld] at hFound
      cases hFound
      rw [hWritten] at hLater
      cases hLater
      exact .inr ⟨hRunning, hSucceeded, events, hSome, by rw [hFiltered, if_pos rfl], hNumbers⟩
    · rw [hOther id hThis, hFound] at hLater
      cases hLater
      exact .inl ⟨by rw [hFiltered, if_neg hThis, List.append_nil], fun hSucceeded => hSucceeded⟩
  · have hThis : id ≠ run.id := by
      rintro rfl
      rw [hOld] at hNone
      cases hNone
    rw [hFiltered, if_neg hThis, List.append_nil]
    exact eventsOf_unborn hNone

theorem advances_completeSucceeded (hSound : db.Sound) (result : Result) (completedAt : String)
    (events : List CollectedDecisionEvent) :
    db.Advances ((SQLiteBacktestRunRepository.completeSucceededWithEvidence runId result
      completedAt events).transact fault none db).2 := by
  unfold SQLiteBacktestRunRepository.completeSucceededWithEvidence Script.transact
  split_ifs with hEvents
  · exact .refl db
  · rw [not_or, not_not] at hEvents
    obtain ⟨hSome, hSequence⟩ := hEvents
    rw [Script.bind_query, Script.run_read]
    split_ifs with hStatus
    · exact .refl db
    · rcases SQLiteBacktestRunRepository.run_storeEvents fault db db events with
        hFailed | ⟨copy, hRuns, hStored, hRest⟩
      · rw [hFailed]
        exact .refl db
      · rw [hRest]
        unfold SQLiteBacktestRunRepository.transition
        rw [Script.run, if_neg (Option.some_ne_none 0).symm]
        split
        · exact .refl db
        · rename_i later hUpdate
          obtain ⟨run, hRun, hRunning, -, hConsistent, rfl⟩ := RunDatabase.updateRun_eq_ok hUpdate
          split
          · exact .refl db
          · refine (.of_success hConsistent hSound hRuns hStored (hRuns ▸ hRun)
              (by simp [BacktestRunRecord.sameInputs]) hRunning rfl
              (by simpa using hSome) (fun event hEvent => ?_) ?_)
            · obtain ⟨collected, -, rfl⟩ := List.mem_map.mp hEvent
              rfl
            · rw [List.map_map, List.length_map, ← hSequence]
              rfl

theorem RunDatabase.Advances.of_updateRuns {later : RunTables Config Provenance Result}
    {change : StoredRun Config Provenance Result → Option (StoredRun Config Provenance Result)}
    (hRespects : ∀ run run', change run = some run' → run.status = .running →
      run'.status ≠ .succeeded)
    (h : db.updateRuns change = some later) : db.Advances later := by
  unfold updateRuns at h
  split_ifs at h with hAccepts
  cases h
  have hChanged : ∀ id run, db.runs.get? id = some run → run.Continues ((change run).getD run) ∧
      (((change run).getD run).status = .succeeded → run.status = .succeeded) := by
    intro id run hRun
    have hRow := List.all_eq_true.mp hAccepts run (List.mem_map_of_mem (Dict.mem_of_get? hRun))
    unfold BacktestRunRecord.accepts at hRow
    cases hChange : change run with
    | none => exact ⟨.refl run, fun hSucceeded => hSucceeded⟩
    | some run' =>
        simp only [hChange, Bool.and_eq_true] at hRow
        obtain ⟨⟨hSame, hMove⟩, -⟩ := hRow
        refine ⟨⟨hSame, .inr hMove⟩, fun hSucceeded => ?_⟩
        have hRunning : run.status = .running := by
          rw [Option.getD_some] at hSucceeded
          rw [hSucceeded] at hMove
          cases hStatus : run.status <;> rw [hStatus] at hMove <;> first | rfl | cases hMove
        exact absurd hSucceeded (hRespects run run' hChange hRunning)
  refine ⟨fun id run hRun => ⟨_, by rw [Dict.get?_mapValues, hRun, Option.map_some],
      (hChanged id run hRun).1⟩, fun id run' hNone hLater => ?_,
    fun id run run' hRun hLater => ?_, fun id hNone => (eventsOf_unborn hNone : db.eventsOf id = [])⟩
  · rw [Dict.get?_mapValues, hNone] at hLater
    cases hLater
  · rw [Dict.get?_mapValues, hRun] at hLater
    cases hLater
    exact .inl ⟨rfl, (hChanged id run hRun).2⟩

/-- A statement that the tables refuse, or that advances them. -/
theorem advances_attempt {write : RunTables Config Provenance Result →
      Option (RunTables Config Provenance Result)}
    (h : ∀ later, write db = some later → db.Advances later) :
    db.Advances ((RunOperation.attempt write).transact fault none db).2 := by
  unfold RunOperation.attempt Script.transact Script.execute
  rw [Script.run_write]
  cases hWrite : write db with
  | none => exact .refl db
  | some later => exact h later hWrite

end Transactions

section Runs

variable {fault : Raised} {db : RunTables Config Provenance Result}

/-- No direct update makes a running Run succeed. -/
def RunOperation.Respects : RunOperation Config Provenance Result → Prop
  | .updateRuns change => ∀ run run', change run = some run' → run.status = .running →
      run'.status ≠ .succeeded
  | _ => True

theorem advances_operation {operation : RunOperation Config Provenance Result} (hSound : db.Sound)
    (hRespects : operation.Respects) (budget : Option Nat) :
    db.Advances (operation.transact fault budget db).2 := by
  cases operation with
  | createRun run => exact advances_transact (advances_createRun run) budget
  | markRunning runId startedAt =>
      exact advances_transact (advances_transition hSound
        (fun run => by simp [BacktestRunRecord.sameInputs]) (fun run => by simp)) budget
  | completeSucceededWithEvidence runId result completedAt events =>
      exact advances_transact (advances_completeSucceeded hSound result completedAt events)
        budget
  | completeFailed runId error completedAt =>
      exact advances_transact (advances_transition hSound
        (fun run => by simp [BacktestRunRecord.sameInputs]) (fun run => by simp)) budget
  | updateRuns change =>
      exact advances_transact (advances_attempt (fun later hLater =>
        .of_updateRuns hRespects hLater)) budget
  | deleteRuns matched =>
      refine advances_transact (advances_attempt (fun later hLater => ?_)) budget
      unfold RunDatabase.deleteRuns at hLater
      split_ifs at hLater
      cases hLater
      exact .refl db
  | changeEvents matched =>
      refine advances_transact (advances_attempt (fun later hLater => ?_)) budget
      unfold RunDatabase.changeEvents at hLater
      split_ifs at hLater
      cases hLater
      exact .refl db
  | publish revisions candidates => exact (.of_same rfl rfl)

/-- Statuses of a Run that ends in one way. -/
def lifecycle (ended : BacktestRunStatus) : List BacktestRunStatus := [.pending, .running, ended]

/-- What is left of a lifecycle from a status on. -/
def remainingLifecycle (ended : BacktestRunStatus) : BacktestRunStatus → List BacktestRunStatus
  | .pending => lifecycle ended
  | .running => [.running, ended]
  | status => [status]

def BacktestRunStatus.Terminal (status : BacktestRunStatus) : Prop :=
  status = .succeeded ∨ status = .failed

theorem BacktestRunStatus.ne_of_precedes {status next : BacktestRunStatus}
    (h : status.precedes next = true) : status ≠ next := by
  rintro rfl
  cases status <;> cases h

/-- A history that goes on from a status to the end of some lifecycle. -/
def RunsOn (status : BacktestRunStatus) (history : List BacktestRunStatus) : Prop :=
  ∃ ended : BacktestRunStatus, ended.Terminal ∧ (status.Terminal → ended = status) ∧
    history <+: remainingLifecycle ended status

theorem BacktestRunStatus.not_terminal_pending : ¬Terminal .pending := by
  simp [Terminal]

theorem BacktestRunStatus.not_terminal_running : ¬Terminal .running := by
  simp [Terminal]

theorem RunsOn.single (status : BacktestRunStatus) : RunsOn status [status] := by
  cases status with
  | pending =>
      exact ⟨.succeeded, .inl rfl, fun h => absurd h BacktestRunStatus.not_terminal_pending, ⟨_, rfl⟩⟩
  | running =>
      exact ⟨.succeeded, .inl rfl, fun h => absurd h BacktestRunStatus.not_terminal_running, ⟨_, rfl⟩⟩
  | succeeded => exact ⟨.succeeded, .inl rfl, fun _ => rfl, ⟨[], rfl⟩⟩
  | failed => exact ⟨.failed, .inr rfl, fun _ => rfl, ⟨[], rfl⟩⟩

theorem RunsOn.moved {status next : BacktestRunStatus} {history : List BacktestRunStatus}
    (hMove : status.precedes next = true) (h : RunsOn next history) :
    RunsOn status (status :: history) := by
  obtain ⟨ended, hEnded, hSame, hHistory⟩ := h
  refine ⟨ended, hEnded, fun hTerminal => ?_, ?_⟩
  · rcases hTerminal with rfl | rfl <;> cases hMove
  · cases status <;> cases next <;> cases hMove
    · exact (List.prefix_cons_inj _).mpr hHistory
    · rw [hSame (.inl rfl)]
      exact (List.prefix_cons_inj _).mpr hHistory
    · rw [hSame (.inr rfl)]
      exact (List.prefix_cons_inj _).mpr hHistory

/-- An operation with the statement it may stop at. -/
abbrev Call (Config Provenance Result : Type) :=
  RunOperation Config Provenance Result × Option Nat

variable {calls : List (Call Config Provenance Result)}

/-- What every call of a run does, all along the run. -/
theorem states_sound (hSound : db.Sound) (hRespects : ∀ call ∈ calls, call.1.Respects) :
    ∀ tables ∈ RunOperation.states fault db calls, tables.Sound := by
  induction calls generalizing db with
  | nil =>
      intro tables hTables
      obtain rfl := List.mem_singleton.mp hTables
      exact hSound
  | cons call later ih =>
      intro tables hTables
      rcases List.mem_cons.mp hTables with rfl | hLater
      · exact hSound
      · have hStep : db.Advances (call.1.transact fault call.2 db).2 :=
          advances_operation hSound (hRespects call List.mem_cons_self) call.2
        exact ih (hSound.advance hStep)
          (fun other hOther => hRespects other (List.mem_cons_of_mem call hOther)) tables hLater

/-- A stored Run goes on to the end of a lifecycle. -/
theorem history_of_stored (hSound : db.Sound) (hRespects : ∀ call ∈ calls, call.1.Respects)
    {id : String} {run : StoredRun Config Provenance Result} (hRun : db.runs.get? id = some run) :
    RunsOn run.status (statusHistory id (RunOperation.states fault db calls)) := by
  induction calls generalizing db run with
  | nil =>
      simp only [RunOperation.states, statusHistory, List.filterMap_cons, hRun, Option.map_some,
        List.filterMap_nil]
      exact .single run.status
  | cons call later ih =>
      have hStep : db.Advances (call.1.transact fault call.2 db).2 :=
        advances_operation hSound (hRespects call List.mem_cons_self) call.2
      obtain ⟨run', hRun', -, hMove⟩ := hStep.kept id run hRun
      have hLater := ih (hSound.advance hStep)
        (fun other hOther => hRespects other (List.mem_cons_of_mem call hOther)) hRun'
      have hHead : ∃ rest, (RunOperation.states fault (call.1.transact fault call.2 db).2
          later).filterMap (fun tables => (tables.runs.get? id).map BacktestRunRecord.status) =
            run'.status :: rest := by
        cases later with
        | nil =>
            refine ⟨[], ?_⟩
            simp only [RunOperation.states, List.filterMap_cons, hRun', Option.map_some,
              List.filterMap_nil]
        | cons next others =>
            simp only [RunOperation.states, List.filterMap_cons, hRun', Option.map_some,
              List.cons.injEq, true_and, exists_eq']
      obtain ⟨rest, hRest⟩ := hHead
      unfold statusHistory at hLater ⊢
      rw [RunOperation.states, List.filterMap_cons, hRun, Option.map_some, hRest,
        List.destutter_cons_cons]
      rw [hRest, List.destutter_cons'] at hLater
      rcases hMove with hSame | hMoved
      · rw [if_neg (not_not.mpr hSame.symm), ← hSame]
        exact hLater
      · rw [if_pos (BacktestRunStatus.ne_of_precedes hMoved)]
        exact hLater.moved hMoved

/-- A Run that is not stored yet starts out pending, if it ever is stored. -/
theorem history_of_unborn (hSound : db.Sound) (hRespects : ∀ call ∈ calls, call.1.Respects)
    {id : String} (hNone : db.runs.get? id = none) :
    statusHistory id (RunOperation.states fault db calls) = [] ∨
      RunsOn .pending (statusHistory id (RunOperation.states fault db calls)) := by
  induction calls generalizing db with
  | nil =>
      simp only [RunOperation.states, statusHistory, List.filterMap_cons, hNone, Option.map_none,
        List.filterMap_nil]
      exact .inl rfl
  | cons call later ih =>
      have hStep : db.Advances (call.1.transact fault call.2 db).2 :=
        advances_operation hSound (hRespects call List.mem_cons_self) call.2
      have hLater : ∀ other ∈ later, other.1.Respects :=
        fun other hOther => hRespects other (List.mem_cons_of_mem call hOther)
      have hSame : statusHistory id (RunOperation.states fault db (call :: later)) =
          statusHistory id (RunOperation.states fault (call.1.transact fault call.2 db).2 later) := by
        simp only [statusHistory, RunOperation.states, List.filterMap_cons, hNone, Option.map_none]
      rw [hSame]
      cases hNext : (call.1.transact fault call.2 db).2.runs.get? id with
      | none => exact ih (hSound.advance hStep) hLater hNext
      | some run =>
          right
          rw [← (hStep.created id run hNone hNext).1]
          exact history_of_stored (hSound.advance hStep) hLater hNext

/-- What later tables keep of a Run: its inputs, and its evidence once it has succeeded. -/
def Preserved (earlier later : RunTables Config Provenance Result) : Prop :=
  ∀ id run, earlier.runs.get? id = some run →
    ∃ run', later.runs.get? id = some run' ∧ run.sameInputs run' = true ∧
      (run.status = .succeeded →
        run'.status = .succeeded ∧ later.eventsOf id = earlier.eventsOf id)

theorem Preserved.refl (db : RunTables Config Provenance Result) : Preserved db db :=
  fun _ run hRun => ⟨run, hRun, run.sameInputs_self, fun hSucceeded => ⟨hSucceeded, rfl⟩⟩

theorem Preserved.trans {earlier middle later : RunTables Config Provenance Result}
    (h : Preserved earlier middle) (hLater : Preserved middle later) : Preserved earlier later := by
  intro id run hRun
  obtain ⟨run', hRun', hSame, hEvents⟩ := h id run hRun
  obtain ⟨last, hLast, hSame', hEvents'⟩ := hLater id run' hRun'
  refine ⟨last, hLast, ?_, fun hSucceeded => ?_⟩
  · simp only [BacktestRunRecord.sameInputs, Bool.and_eq_true, decide_eq_true_eq] at hSame hSame' ⊢
    obtain ⟨⟨⟨⟨hId, hRevision⟩, hCandidate⟩, hConfig⟩, hCreated⟩ := hSame
    obtain ⟨⟨⟨⟨hId', hRevision'⟩, hCandidate'⟩, hConfig'⟩, hCreated'⟩ := hSame'
    exact ⟨⟨⟨⟨hId'.trans hId, hRevision'.trans hRevision⟩, hCandidate'.trans hCandidate⟩,
      hConfig'.trans hConfig⟩, hCreated'.trans hCreated⟩
  · obtain ⟨hStill, hKept⟩ := hEvents hSucceeded
    obtain ⟨hLast, hKept'⟩ := hEvents' hStill
    exact ⟨hLast, hKept'.trans hKept⟩

theorem RunDatabase.Advances.preserved {later : RunTables Config Provenance Result}
    (h : db.Advances later) : Preserved db later := by
  intro id run hRun
  obtain ⟨run', hRun', hSame, hMove⟩ := h.kept id run hRun
  refine ⟨run', hRun', hSame, fun hSucceeded => ?_⟩
  have hStill : run'.status = .succeeded := by
    rcases hMove with hStatus | hMoved
    · exact hStatus.trans hSucceeded
    · rw [hSucceeded] at hMoved
      cases hMoved
  refine ⟨hStill, ?_⟩
  rcases h.evidence id run run' hRun hRun' with ⟨hEvents, -⟩ | ⟨hRunning, -⟩
  · exact hEvents
  · rw [hSucceeded] at hRunning
    cases hRunning

theorem states_preserved (hSound : db.Sound) (hRespects : ∀ call ∈ calls, call.1.Respects) :
    (RunOperation.states fault db calls).Pairwise Preserved ∧
      ∀ tables ∈ RunOperation.states fault db calls, Preserved db tables := by
  induction calls generalizing db with
  | nil =>
      refine ⟨List.pairwise_singleton _ _, fun tables hTables => ?_⟩
      rw [List.mem_singleton.mp hTables]
      exact .refl db
  | cons call later ih =>
      have hStep : db.Advances (call.1.transact fault call.2 db).2 :=
        advances_operation hSound (hRespects call List.mem_cons_self) call.2
      obtain ⟨hPairs, hAll⟩ := ih (hSound.advance hStep)
        (fun other hOther => hRespects other (List.mem_cons_of_mem call hOther))
      have hFromHere : ∀ tables ∈ RunOperation.states fault (call.1.transact fault call.2 db).2 later,
          Preserved db tables :=
        fun tables hTables => hStep.preserved.trans (hAll tables hTables)
      refine ⟨List.pairwise_cons.mpr ⟨hFromHere, hPairs⟩, fun tables hTables => ?_⟩
      rcases List.mem_cons.mp hTables with hThis | hLater
      · rw [hThis]
        exact .refl db
      · exact hFromHere tables hLater

/-- An operation that raises leaves the tables as they were. -/
theorem transact_raised {operation : RunOperation Config Provenance Result} {budget : Option Nat}
    {raised : Raised} (h : (operation.transact fault budget db).1 = .error raised) :
    (operation.transact fault budget db).2 = db := by
  have hAnswered : ∀ {α : Type} {outcome : Except Raised α × RunTables Config Provenance Result},
      (RunOperation.unanswered outcome).1 = .error raised → outcome.1 = .error raised := by
    intro α outcome hError
    obtain ⟨answer, later⟩ := outcome
    cases answer with
    | error found =>
        cases hError
        rfl
    | ok value => cases hError
  cases operation with
  | publish revisions candidates => cases h
  | createRun run => exact Script.run_error h
  | markRunning runId startedAt => exact Script.run_error (hAnswered h)
  | completeSucceededWithEvidence runId result completedAt events =>
      exact Script.run_error (hAnswered h)
  | completeFailed runId error completedAt => exact Script.run_error (hAnswered h)
  | updateRuns change => exact Script.run_error h
  | deleteRuns matched => exact Script.run_error h
  | changeEvents matched => exact Script.run_error h

end Runs

omit [DecidableEq Config] [DecidableEq Provenance] in
theorem RunDatabase.sound_empty : (RunDatabase.empty : RunTables Config Provenance Result).Sound where
  keyed := fun id run hRun => by cases hRun
  evidence := fun id run hRun => by cases hRun
  numbered := fun id run hRun => by cases hRun

/-- Storage that never fails. -/
abbrev Unfailing (operation : RunOperation PUnit PUnit PUnit) : Call PUnit PUnit PUnit :=
  (operation, none)

/-- A Run of a Revision, before it is stored. -/
def newRun : StoredRun PUnit PUnit PUnit where
  id := "run"
  revisionId := "revision"
  status := .pending
  runConfig := ⟨⟨⟩, ⟨⟩⟩
  createdAt := "2024-01-08T00:00:00Z"

/-- A Run that is created and started. -/
def startRun : List (Call PUnit PUnit PUnit) :=
  [Unfailing (.publish ["revision"] []), Unfailing (.createRun newRun),
    Unfailing (.markRunning "run" "2024-01-08T00:00:01Z")]

/-- A direct update of the row that a success would write. -/
def succeedDirectly (run : StoredRun PUnit PUnit PUnit) : Option (StoredRun PUnit PUnit PUnit) :=
  some { run with status := .succeeded, result := some ⟨⟩, completedAt := some "2024-01-08T00:00:02Z" }

end RuleTrade
