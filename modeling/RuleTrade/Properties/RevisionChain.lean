import RuleTrade.Persistence.Services

/-! Revision histories under any interleaving of requests. -/

namespace RuleTrade

open Library

section Reports

variable {Raw Source α β ρ : Type} {format : SourceFormat Raw Source}

/-- Transactions that left the tables as they found them. -/
def Quiet (seen : List (Database × Database)) : Prop := ∀ x ∈ seen, x.2 = x.1

/-- The Revision of a request stands on top of the one that was current. -/
def NewTip (seen : List (Database × Database)) (response : SaveRevisionResponse Source) : Prop :=
  ∃ earlier before after strategyId strategy row, seen = earlier ++ [(before, after)] ∧ Quiet earlier ∧
    before.strategies.get? strategyId = some strategy ∧
    before.revisions.get? response.revision.id = none ∧
    after.revisions.get? response.revision.id = some row ∧ row.strategyId = strategyId ∧
    row.parentRevisionId = some strategy.currentRevisionId ∧
    after.strategies.get? strategyId = some response.strategy ∧
    response.strategy.currentRevisionId = response.revision.id

/-- A request to append a Revision did, or left the tables as they were. -/
def Appends (seen : List (Database × Database))
    (outcome : Except ServiceError (SaveRevisionResponse Source)) : Prop :=
  (Quiet seen ∧ ∀ response, outcome = .ok response → response.created = false) ∨
    ∃ response, outcome = .ok response ∧ response.created = true ∧ NewTip seen response

/-- Transactions of a service that came to an outcome. -/
def Comes (service : Service α) (seen : List (Database × Database)) (outcome : Except ServiceError α) :
    Prop :=
  Task.Runs service.run seen (.done outcome)

theorem quiet_nil : Quiet [] := fun _ h => absurd h List.not_mem_nil

theorem quiet_one {db later : Database} (h : later = db) : Quiet [(db, later)] := by
  intro x hx
  rw [List.mem_singleton.mp hx]
  exact h

theorem Quiet.append {first later : List (Database × Database)} (h : Quiet first) (hLater : Quiet later) :
    Quiet (first ++ later) := by
  intro x hx
  rcases List.mem_append.mp hx with hx | hx
  · exact h x hx
  · exact hLater x hx

theorem comes_settle {outcome result : Except ServiceError α} {seen : List (Database × Database)}
    (h : Comes (settle outcome) seen result) : seen = [] ∧ result = outcome := by
  obtain ⟨hSeen, hSame⟩ := Task.runs_done h
  exact ⟨hSeen, hSame.symm⟩

theorem comes_bind {service : Service α} {f : α → Service β} {seen : List (Database × Database)}
    {result : Except ServiceError β} (h : Comes (service >>= f) seen result) :
    (∃ e, result = .error e ∧ Comes service seen (.error e)) ∨
      ∃ a first later, seen = first ++ later ∧ Comes service first (.ok a) ∧
        Comes (f a) later result := by
  obtain ⟨outcome, first, later, rfl, hFirst, hLater⟩ := Task.runs_bind h
  cases outcome with
  | error e =>
      obtain ⟨rfl, hSame⟩ := Task.runs_done hLater
      refine .inl ⟨e, hSame.symm, ?_⟩
      rwa [List.append_nil]
  | ok a => exact .inr ⟨a, first, later, rfl, hFirst, hLater⟩

/-- A transaction comes to what it comes to without failures, or to a failure of storage. -/
theorem comes_transaction {storage : ServiceError} {body : Script Database ServiceError ρ ρ}
    {seen : List (Database × Database)} {result : Except ServiceError ρ}
    (h : Comes (transaction storage body) seen result) :
    ∃ db, (seen = [(db, db)] ∧ result = .error storage) ∨
      (seen = [(db, (body.run storage none db db).2)] ∧ result = (body.run storage none db db).1) := by
  obtain ⟨weather, db, rfl, rfl⟩ := Task.runs_atomically h
  refine ⟨db, ?_⟩
  rcases Script.transact_budget storage body weather.budget db with hFault | hRun
  · exact .inl ⟨by rw [hFault], by rw [hFault]⟩
  · exact .inr ⟨by rw [hRun]; rfl, by rw [hRun]; rfl⟩

/-- A service that only reads. -/
def Silent (service : Service α) : Prop := ∀ seen outcome, Comes service seen outcome → Quiet seen

theorem silent_settle {outcome : Except ServiceError α} : Silent (settle outcome) := by
  intro seen result h
  rw [(comes_settle h).1]
  exact quiet_nil

theorem silent_transaction {storage : ServiceError} {body : Script Database ServiceError ρ ρ}
    (h : ∀ db, (body.run storage none db db).2 = db) : Silent (transaction storage body) := by
  intro seen result hComes
  obtain ⟨db, ⟨rfl, -⟩ | ⟨rfl, -⟩⟩ := comes_transaction hComes
  · exact quiet_one rfl
  · exact quiet_one (h db)

theorem Silent.bind {service : Service α} {f : α → Service β} (h : Silent service)
    (hNext : ∀ a, Silent (f a)) : Silent (service >>= f) := by
  intro seen result hComes
  rcases comes_bind hComes with ⟨e, -, hFailed⟩ | ⟨a, first, later, rfl, hFirst, hLater⟩
  · exact h _ _ hFailed
  · exact (h _ _ hFirst).append (hNext a _ _ hLater)

end Reports

section Reads

variable {Raw Source α : Type} {format : SourceFormat Raw Source}

theorem silent_requireStrategy (strategyId : String) :
    Silent (StrategyService.requireStrategy strategyId) := by
  refine Silent.bind (silent_transaction (fun _ => rfl)) (fun found => ?_)
  cases found <;> exact silent_settle

theorem silent_currentRevision (strategyId revisionId : String) :
    Silent (StrategyService.currentRevision format strategyId revisionId) := by
  refine Silent.bind (silent_transaction (fun db => getRevision_unchanged _ _ _ db)) (fun found => ?_)
  cases found <;> exact silent_settle

theorem silent_getStrategy (strategyId : String) :
    Silent (StrategyService.getStrategy format strategyId) :=
  (silent_requireStrategy strategyId).bind (fun _ =>
    (silent_currentRevision _ _).bind (fun _ => silent_settle))

theorem silent_getRevisionById (revisionId : String) :
    Silent (StrategyService.getRevisionById format revisionId) := by
  refine Silent.bind (silent_transaction (fun db => ?_)) (fun found => ?_)
  · unfold SQLiteStrategyRepository.getRevisionById
    rw [Script.bind_query, Script.run_read]
    split
    · rfl
    · exact read_row
  · cases found <;> exact silent_settle

theorem silent_getCandidate (candidateId : String) :
    Silent (CandidateService.getCandidate format candidateId) := by
  refine Silent.bind (silent_transaction (fun _ => rfl)) (fun found => ?_)
  cases found with
  | none => exact silent_settle
  | some candidate =>
      intro seen outcome h
      simp only at h
      cases hSource : format.loads candidate.canonicalJson with
      | none =>
          rw [hSource] at h
          exact silent_settle _ _ h
      | some source =>
          rw [hSource] at h
          exact silent_settle _ _ h

theorem silent_candidateRun : Silent CandidateService.candidateRun := by
  intro seen outcome h
  obtain ⟨weather, db, rfl, -⟩ := Task.runs_atomically h
  exact quiet_one rfl

end Reads

section Appending

variable {Raw Source α : Type} {format : SourceFormat Raw Source}

theorem appends_error {seen : List (Database × Database)} {e : ServiceError} (h : Quiet seen) :
    Appends seen (.error e : Except ServiceError (SaveRevisionResponse Source)) :=
  .inl ⟨h, fun _ hNone => by cases hNone⟩

theorem Appends.after {first later : List (Database × Database)}
    {outcome : Except ServiceError (SaveRevisionResponse Source)} (h : Quiet first)
    (hLater : Appends later outcome) : Appends (first ++ later) outcome := by
  rcases hLater with ⟨hQuiet, hOld⟩ | ⟨response, rfl, hCreated, hTip⟩
  · exact .inl ⟨h.append hQuiet, hOld⟩
  · obtain ⟨earlier, before, after, strategyId, strategy, row, rfl, hEarlier, hRest⟩ := hTip
    refine .inr ⟨response, rfl, hCreated, first ++ earlier, before, after, strategyId, strategy, row,
      ?_, h.append hEarlier, hRest⟩
    rw [List.append_assoc]

variable (format) in
/-- A service that appends a Revision or does nothing, on tables in order. -/
def Appending (service : Service (SaveRevisionResponse Source)) : Prop :=
  ∀ seen outcome, (∀ x ∈ seen, x.1.Consistent format) → Comes service seen outcome →
    Appends seen outcome

/-- Reads before an append. -/
theorem Appending.after {service : Service α} {f : α → Service (SaveRevisionResponse Source)}
    (h : Silent service) (hNext : ∀ a, Appending format (f a)) : Appending format (service >>= f) := by
  intro seen outcome hEach hComes
  rcases comes_bind hComes with ⟨e, rfl, hFailed⟩ | ⟨a, first, later, rfl, hFirst, hLater⟩
  · exact appends_error (h _ _ hFailed)
  · exact (hNext a _ _ (fun x hx => hEach x (List.mem_append_right _ hx)) hLater).after
      (h _ _ hFirst)

theorem appending_error (e : ServiceError) :
    Appending format (settle (.error e) : Service (SaveRevisionResponse Source)) := by
  intro seen outcome _ hComes
  obtain ⟨rfl, rfl⟩ := comes_settle hComes
  exact appends_error quiet_nil

/-- What is recorded with a Revision touches neither Strategies nor Revisions. -/
def Beside (further : Database → Option Database) : Prop :=
  ∀ db later, further db = some later →
    later.strategies = db.strategies ∧ later.revisions = db.revisions

theorem AppendOutcome.appends {db : Database} {strategyId expected message canonicalJson : String}
    {record : RevisionRecord Source} {further : Database → Option Database}
    {outcome : Except ServiceError (AppendResult Source) × Database} (hBeside : Beside further)
    (hOwn : record.strategyId = strategyId) (hParent : record.parentRevisionId = some expected)
    (h : AppendOutcome db strategyId expected record canonicalJson further outcome) :
    Appends [(db, outcome.2)] (outcome.1 >>= StrategyService.answer message) := by
  cases h with
  | failed error => exact appends_error (quiet_one rfl)
  | notFound => exact appends_error (quiet_one rfl)
  | refused strategy current declined =>
      refine .inl ⟨quiet_one rfl, fun response hResponse => ?_⟩
      rcases declined with rfl | rfl | rfl <;> cases hResponse
      rfl
  | @created strategy last known unarchived tip fresh recorded =>
      obtain ⟨hStrategies, hRevisions⟩ := hBeside _ _ recorded
      refine .inr ⟨_, rfl, rfl, [], db, last, strategyId, strategy,
        SQLiteStrategyRepository.revisionRow record canonicalJson, rfl, quiet_nil, known, fresh, ?_, hOwn,
        ?_, ?_, rfl⟩
      · rw [hRevisions]
        exact Dict.get?_set_self _ _ _
      · rw [tip]
        exact hParent
      · rw [hStrategies]
        exact Dict.get?_set_self _ _ _

theorem AdoptionOutcome.appends {db : Database}
    {candidateId strategyId expected message canonicalJson : String} {record : RevisionRecord Source}
    {outcome : Except ServiceError (AppendResult Source) × Database}
    (hOwn : record.strategyId = strategyId) (hParent : record.parentRevisionId = some expected)
    (h : AdoptionOutcome db candidateId strategyId expected record canonicalJson outcome) :
    Appends [(db, outcome.2)] (outcome.1 >>= StrategyService.answer message) := by
  cases h with
  | appended unadopted appended =>
      refine appended.appends (fun mid last hInserted => ?_) hOwn hParent
      obtain ⟨-, rfl⟩ := insertAdoption_some hInserted
      exact ⟨rfl, rfl⟩
  | lineage known other error => exact appends_error (quiet_one rfl)
  | adopted strategy known same =>
      refine .inl ⟨quiet_one rfl, fun response hResponse => ?_⟩
      cases hResponse
      rfl

/-- The append and the answer made of it. -/
theorem appending_answered {storage : ServiceError} {message : String}
    {body : Script Database ServiceError (AppendResult Source) (AppendResult Source)}
    (h : ∀ db : Database, db.Consistent format →
      Appends [(db, (body.run storage none db db).2)]
        ((body.run storage none db db).1 >>= StrategyService.answer message)) :
    Appending format (do
      let result ← transaction storage body
      settle (StrategyService.answer message result)) := by
  intro seen outcome hEach hComes
  rcases comes_bind hComes with ⟨e, rfl, hFailed⟩ | ⟨result, first, later, rfl, hFirst, hLater⟩
  · obtain ⟨db, ⟨rfl, -⟩ | ⟨rfl, hRun⟩⟩ := comes_transaction hFailed
    · exact appends_error (quiet_one rfl)
    · have hAppends := h db (hEach _ (List.mem_singleton_self _))
      rw [← hRun] at hAppends
      exact hAppends
  · obtain ⟨rfl, rfl⟩ := comes_settle hLater
    obtain ⟨db, ⟨-, hFault⟩ | ⟨rfl, hRun⟩⟩ := comes_transaction hFirst
    · cases hFault
    · have hAppends := h db (hEach _ (List.mem_append_left _ (List.mem_singleton_self _)))
      rw [← hRun] at hAppends
      exact hAppends

theorem appending_saveRevision (strategyId expected : String) (raw : Raw)
    (timestamp revisionId : String) :
    Appending format
      (StrategyService.saveRevision format strategyId expected raw timestamp revisionId) := by
  refine Appending.after silent_settle (fun canonical => appending_answered (fun db _ => ?_))
  refine AppendOutcome.appends (fun mid last hSame => ?_) ?_ ?_
    (append_outcome _ db strategyId expected _ _ some)
  · cases hSame
    exact ⟨rfl, rfl⟩
  · rfl
  · rfl

theorem appending_adopt (candidateId expected timestamp revisionId : String) :
    Appending format (CandidateService.adopt format candidateId expected timestamp revisionId) := by
  refine Appending.after (silent_getCandidate candidateId) (fun found => ?_)
  refine Appending.after silent_candidateRun (fun status => ?_)
  split
  · exact appending_error _
  · refine Appending.after (silent_getRevisionById _) (fun base => ?_)
    split
    · exact appending_error _
    · refine Appending.after (silent_getStrategy _) (fun detail => ?_)
      split
      · exact appending_error _
      · refine Appending.after silent_settle (fun canonical => ?_)
        split
        · exact appending_error _
        · refine Appending.after silent_settle (fun checked => appending_answered (fun db h => ?_))
          refine AdoptionOutcome.appends ?_ ?_ (appendCandidate_outcome h _ _ _ _ _)
          · rfl
          · rfl

end Appending

section Declining

variable {Raw Source : Type} {format : SourceFormat Raw Source}

/-- Reports that a request did nothing: what it needs is missing, archived, out of
date, identical, adopted before or not acceptable. -/
def declined : Except ServiceError (Response Source) → Bool
  | .ok (.saved response) => !response.created
  | .ok _ => false
  | .error (.invalidStrategySource _) => true
  | .error (.strategyNotFound _) => true
  | .error (.revisionNotFound _) => true
  | .error (.strategyArchived _) => true
  | .error (.staleRevision _) => true
  | .error (.candidateNotFound _) => true
  | .error (.candidateRunNotSucceeded _) => true
  | .error (.candidateAdoptionLineage _) => true
  | .error (.candidateArchivedStrategy _) => true
  | .error (.invalidCandidateChange _) => true
  | .error _ => false

/-- Errors of a service that may come after its tables changed. -/
def Late (late : ServiceError → Prop) {α : Type} (service : Service α) : Prop :=
  ∀ seen e, Comes service seen (.error e) → Quiet seen ∨ late e

theorem Silent.late {late : ServiceError → Prop} {α : Type} {service : Service α}
    (h : Silent service) : Late late service := fun seen _ hComes => .inl (h seen _ hComes)

theorem Late.after {late : ServiceError → Prop} {α β : Type} {service : Service α} {f : α → Service β}
    (h : Silent service) (hNext : ∀ a, Late late (f a)) : Late late (service >>= f) := by
  intro seen e hComes
  rcases comes_bind hComes with ⟨e, -, hFailed⟩ | ⟨a, first, later, rfl, hFirst, hLater⟩
  · exact .inl (h _ _ hFailed)
  · rcases hNext a _ _ hLater with hQuiet | hLate
    · exact .inl ((h _ _ hFirst).append hQuiet)
    · exact .inr hLate

/-- A transaction and what follows it. -/
theorem late_transaction {late : ServiceError → Prop} {ρ β : Type} {storage : ServiceError}
    {body : Script Database ServiceError ρ ρ} {f : ρ → Service β}
    (hFailed : ∀ db e, (body.run storage none db db).1 = .error e →
      (body.run storage none db db).2 = db)
    (hNext : ∀ db a, (body.run storage none db db).1 = .ok a →
      ∀ seen e, Comes (f a) seen (.error e) →
        ((body.run storage none db db).2 = db ∧ Quiet seen) ∨ late e) :
    Late late (transaction storage body >>= f) := by
  intro seen e hComes
  rcases comes_bind hComes with ⟨e, -, hError⟩ | ⟨a, first, later, rfl, hFirst, hLater⟩
  · obtain ⟨db, ⟨rfl, -⟩ | ⟨rfl, hRun⟩⟩ := comes_transaction hError
    · exact .inl (quiet_one rfl)
    · exact .inl (quiet_one (hFailed db e hRun.symm))
  · obtain ⟨db, ⟨-, hFault⟩ | ⟨rfl, hRun⟩⟩ := comes_transaction hFirst
    · cases hFault
    · rcases hNext db a hRun.symm _ _ hLater with ⟨hSame, hQuiet⟩ | hLate
      · exact .inl ((quiet_one hSame).append hQuiet)
      · exact .inr hLate

/-- Errors of a read that follows a change. -/
def LateRead (e : ServiceError) : Prop := (∃ message, e = .persistence message) ∨ e = .unreadableSource

theorem comes_currentRevision_error {strategyId revisionId : String}
    {seen : List (Database × Database)} {e : ServiceError}
    (h : Comes (StrategyService.currentRevision format strategyId revisionId) seen (.error e)) :
    LateRead e := by
  rcases comes_bind h with ⟨e', hSame, hFailed⟩ | ⟨found, first, later, -, -, hLater⟩
  · cases hSame
    obtain ⟨db, ⟨-, hFault⟩ | ⟨-, hRun⟩⟩ := comes_transaction hFailed
    · cases hFault
      exact .inl ⟨_, rfl⟩
    · unfold SQLiteStrategyRepository.getRevision at hRun
      rw [Script.bind_query, Script.run_read] at hRun
      split at hRun
      · cases hRun
      · rename_i row _
        unfold SQLiteStrategyRepository.readRevision at hRun
        cases hRecord : SQLiteStrategyRepository.revision format row with
        | none =>
            rw [hRecord] at hRun
            cases hRun
            exact .inr rfl
        | some record =>
            rw [hRecord] at hRun
            cases hRun
  · cases found with
    | none =>
        obtain ⟨-, hSame⟩ := comes_settle hLater
        cases hSame
        exact .inl ⟨_, rfl⟩
    | some record =>
        obtain ⟨-, hSame⟩ := Task.runs_done hLater
        cases hSame

theorem ChangeOutcome.error {db : Database} {strategyId : String}
    {change : StrategyRecord → StrategyRecord}
    {outcome : Except ServiceError (Option StrategyRecord) × Database}
    (h : ChangeOutcome db strategyId change outcome) {e : ServiceError} (hError : outcome.1 = .error e) :
    outcome.2 = db := by
  cases h with
  | failed => rfl
  | declined => cases hError
  | changed => cases hError

theorem ChangeOutcome.none {db : Database} {strategyId : String}
    {change : StrategyRecord → StrategyRecord}
    {outcome : Except ServiceError (Option StrategyRecord) × Database}
    (h : ChangeOutcome db strategyId change outcome) (hNone : outcome.1 = .ok Option.none) :
    outcome.2 = db := by
  cases h with
  | failed => cases hNone
  | declined => rfl
  | changed => cases hNone

theorem late_renameStrategy (strategyId name timestamp : String) :
    Late LateRead (StrategyService.renameStrategy format strategyId name timestamp) := by
  refine Late.after (silent_requireStrategy strategyId) (fun strategy => ?_)
  split
  · exact silent_settle.late
  · refine late_transaction (fun db e hError => ?_) (fun db updated hUpdated seen e hLater => ?_)
    · exact (changeOpen_outcome _ db strategyId _).error hError
    · cases updated with
      | none =>
          refine .inl ⟨(changeOpen_outcome _ db strategyId _).none hUpdated, ?_⟩
          exact silent_settle _ _ hLater
      | some updated =>
          rcases comes_bind hLater with ⟨e', hSame, hFailed⟩ | ⟨record, first, later, -, -, hDone⟩
          · cases hSame
            exact .inr (comes_currentRevision_error hFailed)
          · obtain ⟨-, hSame⟩ := Task.runs_done hDone
            cases hSame

theorem late_archiveStrategy (strategyId timestamp : String) :
    Late (fun _ => False) (StrategyService.archiveStrategy strategyId timestamp) := by
  refine Late.after (silent_requireStrategy strategyId) (fun strategy => ?_)
  split
  · exact silent_settle.late
  · refine late_transaction (fun db e hError => ?_) (fun db archived hArchived seen e hLater => ?_)
    · exact (changeOpen_outcome _ db strategyId _).error hError
    · cases archived with
      | none =>
          refine .inl ⟨(changeOpen_outcome _ db strategyId _).none hArchived, ?_⟩
          exact silent_requireStrategy strategyId _ _ hLater
      | some archived =>
          obtain ⟨-, hSame⟩ := Task.runs_done hLater
          cases hSame

theorem late_createStrategy (name : String) (raw : Raw) (timestamp strategyId revisionId : String) :
    Late (fun _ => False)
      (StrategyService.createStrategy format name raw timestamp strategyId revisionId) := by
  refine Late.after silent_settle (fun canonical => ?_)
  refine late_transaction (fun db e hError => ?_) (fun db _ _ seen e hLater => ?_)
  · have h := createStrategy_outcome (.persistence "Could not create Strategy.") db
      { id := strategyId, name := name, createdAt := timestamp, updatedAt := timestamp
        currentRevisionId := revisionId }
      (StrategyService.draft format revisionId strategyId none canonical timestamp)
      (format.serialize canonical)
    generalize Script.run _ _ _ _ _ = outcome at h hError ⊢
    cases h with
    | failed => rfl
    | created => cases hError
  · obtain ⟨-, hSame⟩ := Task.runs_done hLater
    cases hSame

theorem late_propose (candidateId baseRevisionId : String) (source : Source) :
    Late (fun _ => False) (CandidateService.propose format candidateId baseRevisionId source) := by
  refine Late.after silent_settle (fun canonical seen e hComes => ?_)
  obtain ⟨db, ⟨rfl, -⟩ | ⟨rfl, hRun⟩⟩ := comes_transaction hComes
  · exact .inl (quiet_one rfl)
  · refine .inl (quiet_one ?_)
    have h := create_outcome (.candidatePersistence "Could not persist Candidate.") db
      ⟨candidateId, baseRevisionId, format.serialize canonical, format.hash canonical⟩
    generalize Script.run _ _ _ _ _ = outcome at h hRun ⊢
    cases h with
    | failed => rfl
    | proposed => cases hRun

end Declining

section Result

variable {Raw Source ι : Type}

/-- How clients' requests start. -/
def Request.start (format : SourceFormat Raw Source) (request : Request Raw Source) :
    Task Database Weather (Except ServiceError (Response Source)) :=
  (request.serve format).run

/-- No Strategy is stored, and no request is in progress. -/
def freshService (ι : Type) (format : SourceFormat Raw Source) :
    Concurrent ι (Request.start format) :=
  ⟨Database.empty, fun _ => none⟩

/-- Every new Revision comes on top of the one that was current, and is current then. -/
def OnTop (before after : Database) : Prop :=
  ∀ id row, after.revisions.get? id = some row → before.revisions.get? id = none →
    row.parentRevisionId =
        (before.strategies.get? row.strategyId).map StrategyRecord.currentRevisionId ∧
      (after.strategies.get? row.strategyId).map StrategyRecord.currentRevisionId = some id

/-- The Candidate becomes a Revision. -/
def Adopts (candidateId : String) (x : Database × Database) : Prop :=
  x.1.adoptions.get? candidateId = none ∧ (x.2.adoptions.get? candidateId).isSome

/-- What a request reports is what it did. -/
structure Reported (format : SourceFormat Raw Source) (request : Request Raw Source)
    (seen : List (Database × Database)) (answer : Except ServiceError (Response Source)) : Prop where
  created : ∀ response, answer = .ok (.saved response) → response.created = true →
    NewTip seen response
  declined : declined answer = true → Quiet seen
  adopted : ∀ candidateId expected timestamp revisionId adoption,
    request = .adopt candidateId expected timestamp revisionId →
    (∃ x ∈ seen, x.1.adoptions.get? candidateId = some adoption) →
      Quiet seen ∧ ((∃ response, answer = .ok (.saved response) ∧ response.created = false ∧
          response.revision.id = adoption.revisionId) ∨
        ∃ e s, answer = .error e ∧ (∀ x ∈ seen, x.2.Kept s) ∧
          AdoptionRefusal format candidateId expected adoption s e)

/-- Revision histories after a run. -/
structure KeepsHistories (format : SourceFormat Raw Source)
    (events : List (Concurrent.Event Database (Except ServiceError (Response Source))
      (Request Raw Source) ι)) (store : Database) : Prop where
  linear : ∀ id strategy, store.strategies.get? id = some strategy →
    ∃ chain, Linear store id strategy chain
  parents : ∀ id id' row row' parent, store.revisions.get? id = some row →
    store.revisions.get? id' = some row' → row.parentRevisionId = some parent →
      row'.parentRevisionId = some parent → id = id'
  onTop : ∀ x ∈ Concurrent.transactions events, OnTop x.1 x.2
  kept : ∀ x ∈ Concurrent.transactions events, x.1.Kept x.2 ∧ x.2.Kept store
  once : ∀ candidateId, (Concurrent.transactions events).Pairwise (fun x y =>
    ¬(Adopts candidateId x ∧ Adopts candidateId y))
  reports : ∀ i request seen answer, Concurrent.Event.answered i request seen answer ∈ events →
    seen ⊆ Concurrent.transactions events ∧ Reported format request seen answer

variable {format : SourceFormat Raw Source}

theorem Transition.onTop {db later : Database} (h : Transition format db later) : OnTop db later := by
  intro id row hRow hNew
  have hAccept : ∀ {strategyId : String} {strategy : StrategyRecord} {added : RevisionRow},
      Accepts db strategyId strategy added →
      (db.revisions.set added.id added).get? id = some row →
      row.parentRevisionId =
          (db.strategies.get? row.strategyId).map StrategyRecord.currentRevisionId ∧
        ((db.accept strategyId strategy added).strategies.get? row.strategyId).map
          StrategyRecord.currentRevisionId = some id := by
    intro strategyId strategy added accepts hRow
    rcases get?_of_set hRow with ⟨rfl, rfl⟩ | ⟨-, hOld⟩
    · rw [accepts.own, accepts.known, accepts.parent]
      refine ⟨rfl, ?_⟩
      rw [Database.accept, Dict.get?_set_self]
      rfl
    · rw [hOld] at hNew
      cases hNew
  cases h with
  | unchanged =>
      rw [hNew] at hRow
      cases hRow
  | created freshStrategy freshRevision own first tip =>
      rcases get?_of_set hRow with ⟨rfl, rfl⟩ | ⟨-, hOld⟩
      · rw [own, freshStrategy, first, Dict.get?_set_self, Option.map_some, tip]
        exact ⟨rfl, rfl⟩
      · rw [hOld] at hNew
        cases hNew
  | saved accepts => exact hAccept accepts hRow
  | adopted accepts => exact hAccept accepts hRow
  | edited =>
      rw [hNew] at hRow
      cases hRow
  | proposed =>
      rw [hNew] at hRow
      cases hRow

/-- No two Revisions share a parent. -/
theorem Database.Consistent.parent_inj {db : Database} (h : db.Consistent format)
    {id id' parent : String} {row row' : RevisionRow} (hRow : db.revisions.get? id = some row)
    (hRow' : db.revisions.get? id' = some row') (hParent : row.parentRevisionId = some parent)
    (hParent' : row'.parentRevisionId = some parent) : id = id' := by
  have hOwner : ∀ {id : String} {row : RevisionRow}, db.revisions.get? id = some row →
      row.parentRevisionId = some parent → ∃ above, db.revisions.get? parent = some above ∧
        above.strategyId = row.strategyId := by
    intro id row hRow hParent
    obtain ⟨strategy, hStrategy⟩ := Option.isSome_iff_exists.mp
      (Dict.get?_isSome_iff.mpr (h.owned id row hRow))
    obtain ⟨chain, hChain⟩ := h.linear _ strategy hStrategy
    exact hChain.history.stored (List.mem_of_mem_tail
      (hChain.history.parent (hChain.complete id row hRow rfl) hRow hParent))
  obtain ⟨above, hAbove, hOwn⟩ := hOwner hRow hParent
  obtain ⟨above', hAbove', hOwn'⟩ := hOwner hRow' hParent'
  rw [hAbove, Option.some.injEq] at hAbove'
  subst hAbove'
  obtain ⟨strategy, hStrategy⟩ := Option.isSome_iff_exists.mp
    (Dict.get?_isSome_iff.mpr (h.owned id row hRow))
  obtain ⟨chain, hChain⟩ := h.linear _ strategy hStrategy
  exact hChain.history.parent_inj hChain.distinct (hChain.complete id row hRow rfl)
    (hChain.complete id' row' hRow' (hOwn'.symm.trans hOwn)) hRow hRow' hParent hParent'

/-- A service whose value is wrapped into a response. -/
theorem comes_wrapped {α β : Type} {service : Service α} {wrap : α → β}
    {seen : List (Database × Database)} {outcome : Except ServiceError β}
    (h : Comes (do
      let a ← service
      pure (wrap a)) seen outcome) :
    (∃ e, outcome = .error e ∧ Comes service seen (.error e)) ∨
      ∃ a, outcome = .ok (wrap a) ∧ Comes service seen (.ok a) := by
  rcases comes_bind h with hFailed | ⟨a, first, later, rfl, hFirst, hLater⟩
  · exact .inl hFailed
  · obtain ⟨rfl, hSame⟩ := Task.runs_done hLater
    rw [List.append_nil]
    exact .inr ⟨a, hSame.symm, hFirst⟩

/-- Answers of requests that append Revisions. -/
theorem appends_response {service : Service (SaveRevisionResponse Source)}
    (hService : Appending format service) {seen : List (Database × Database)}
    {answer : Except ServiceError (Response Source)} (hEach : ∀ x ∈ seen, x.1.Consistent format)
    (h : Comes (do
      let response ← service
      pure (Response.saved response)) seen answer) :
    (∀ response, answer = .ok (.saved response) → response.created = true → NewTip seen response) ∧
      (∀ e, answer = .error e → Quiet seen) ∧
      ∀ response, answer = .ok (.saved response) → response.created = false → Quiet seen := by
  rcases comes_wrapped h with ⟨e, rfl, hFailed⟩ | ⟨found, rfl, hDone⟩
  · rcases hService _ _ hEach hFailed with ⟨hQuiet, -⟩ | ⟨response, hNone, -⟩
    · refine ⟨fun response hNone => ?_, fun _ _ => hQuiet, fun response hNone => ?_⟩
      · cases hNone
      · cases hNone
    · cases hNone
  · refine ⟨fun response hSame hCreated => ?_, fun e hNone => (by cases hNone),
      fun response hSame hOld => ?_⟩
    · cases hSame
      rcases hService _ _ hEach hDone with ⟨-, hNever⟩ | ⟨other, hOther, -, hTip⟩
      · rw [hNever _ rfl] at hCreated
        cases hCreated
      · cases hOther
        exact hTip
    · cases hSame
      rcases hService _ _ hEach hDone with ⟨hQuiet, -⟩ | ⟨other, hOther, hCreated, -⟩
      · exact hQuiet
      · cases hOther
        rw [hOld] at hCreated
        cases hCreated

/-- Requests whose late errors are not reports that nothing was done. -/
theorem quiet_of_late {α : Type} {service : Service α} {wrap : α → Response Source}
    {late : ServiceError → Prop} (hService : Late late service)
    (hLate : ∀ e, late e → declined (.error e : Except ServiceError (Response Source)) = false)
    (hWrap : ∀ a, declined (.ok (wrap a)) = false) {seen : List (Database × Database)}
    {answer : Except ServiceError (Response Source)}
    (h : Comes (do
      let a ← service
      pure (wrap a)) seen answer) (hDeclined : declined answer = true) : Quiet seen := by
  rcases comes_wrapped h with ⟨e, rfl, hFailed⟩ | ⟨a, rfl, -⟩
  · rcases hService _ _ hFailed with hQuiet | hIs
    · exact hQuiet
    · rw [hLate e hIs] at hDeclined
      cases hDeclined
  · rw [hWrap a] at hDeclined
    cases hDeclined

theorem lateRead_not_declined {e : ServiceError} (h : LateRead e) :
    declined (.error e : Except ServiceError (Response Source)) = false := by
  rcases h with ⟨message, rfl⟩ | rfl <;> rfl

theorem not_saved {α : Type} {service : Service α} {wrap : α → Response Source}
    (hWrap : ∀ a response, wrap a ≠ .saved response) {seen : List (Database × Database)}
    {answer : Except ServiceError (Response Source)}
    (h : Comes (do
      let a ← service
      pure (wrap a)) seen answer) (response : SaveRevisionResponse Source) :
    answer ≠ .ok (.saved response) := by
  rintro rfl
  rcases comes_wrapped h with ⟨e, hNone, -⟩ | ⟨a, hSame, -⟩
  · cases hNone
  · exact hWrap a response (Except.ok.inj hSame).symm

/-- What a request to append a Revision reports. -/
theorem reported_append {seen : List (Database × Database)}
    {answer : Except ServiceError (Response Source)}
    (hAppends : (∀ response, answer = .ok (.saved response) → response.created = true →
        NewTip seen response) ∧ (∀ e, answer = .error e → Quiet seen) ∧
      ∀ response, answer = .ok (.saved response) → response.created = false → Quiet seen) :
    declined answer = true → Quiet seen := by
  intro hDeclined
  cases answer with
  | error e => exact hAppends.2.1 e rfl
  | ok response =>
      cases response with
      | saved response =>
          apply hAppends.2.2 response rfl
          simpa [declined] using hDeclined
      | _ => cases hDeclined

theorem Coherent.kept {seen : List (Database × Database)} {store past : Database}
    (h : Concurrent.Coherent (Database.Consistent format) (Transition format) seen store)
    (hPast : ∀ x ∈ seen, Task.Rely (Transition format) x.2 past) {x : Database × Database}
    (hx : x ∈ seen) : x.1.Kept x.2 ∧ x.2.Kept past :=
  ⟨(h.each x hx).2.1.kept, kept_of_rely (hPast x hx)⟩

/-- A Revision that is stored while a request runs is not the one it creates. -/
theorem NewTip.fresh {seen : List (Database × Database)} {store : Database}
    {response : SaveRevisionResponse Source} (hTip : NewTip seen response)
    (h : Concurrent.Coherent (Database.Consistent format) (Transition format) seen store)
    {x : Database × Database} (hx : x ∈ seen) :
    x.1.revisions.get? response.revision.id = none := by
  obtain ⟨earlier, before, after, strategyId, strategy, row, rfl, -, -, hFresh, -⟩ := hTip
  rcases List.mem_append.mp hx with hEarlier | hLast
  · have hRely := (List.pairwise_append.mp h.ordered).2.2 x hEarlier (before, after)
      (List.mem_singleton_self _)
    have hKept := (h.each x hx).2.1.kept.trans (kept_of_rely hRely)
    cases hRow : x.1.revisions.get? response.revision.id with
    | none => rfl
    | some old =>
        rw [hKept.revisions _ _ hRow] at hFresh
        cases hFresh
  · rw [List.mem_singleton.mp hLast]
    exact hFresh

theorem reported_of_answered {request : Request Raw Source} {seen : List (Database × Database)}
    {answer : Except ServiceError (Response Source)} {store : Database}
    (hRuns : Task.Runs (request.start format) seen (.done answer))
    (hStands : Concurrent.Stands (Database.Consistent format) (Transition format)
      (request.Promise format) seen (.done answer : Task Database Weather _) store) :
    Reported format request seen answer := by
  obtain ⟨hSeen, past, hPast, -, hPromise⟩ := hStands
  have hEach : ∀ x ∈ seen, x.1.Consistent format := fun x hx => (hSeen.each x hx).1
  have hOther : (∀ candidateId expected timestamp revisionId,
      request ≠ .adopt candidateId expected timestamp revisionId) →
      (∀ response, answer = .ok (.saved response) → response.created = true → NewTip seen response) →
      (declined answer = true → Quiet seen) → Reported format request seen answer :=
    fun hNot hCreated hDeclined => ⟨hCreated, hDeclined,
      fun candidateId expected timestamp revisionId _ hSame => absurd hSame (hNot _ _ _ _)⟩
  cases request with
  | create name raw timestamp strategyId revisionId =>
      refine hOther (fun _ _ _ _ h => by cases h) (fun response hSaved => ?_) ?_
      · exact absurd hSaved (not_saved (fun _ _ h => by cases h) hRuns response)
      · exact quiet_of_late (late_createStrategy _ _ _ _ _) (fun _ h => h.elim) (fun _ => rfl) hRuns
  | save strategyId expected raw timestamp revisionId =>
      have hAppends := appends_response (appending_saveRevision _ _ _ _ _) hEach hRuns
      exact hOther (fun _ _ _ _ h => by cases h) hAppends.1
        (reported_append hAppends)
  | rename strategyId name timestamp =>
      refine hOther (fun _ _ _ _ h => by cases h) (fun response hSaved => ?_) ?_
      · exact absurd hSaved (not_saved (fun _ _ h => by cases h) hRuns response)
      · exact quiet_of_late (late_renameStrategy _ _ _) (fun _ => lateRead_not_declined)
          (fun _ => rfl) hRuns
  | archive strategyId timestamp =>
      refine hOther (fun _ _ _ _ h => by cases h) (fun response hSaved => ?_) ?_
      · exact absurd hSaved (not_saved (fun _ _ h => by cases h) hRuns response)
      · exact quiet_of_late (late_archiveStrategy _ _) (fun _ h => h.elim) (fun _ => rfl) hRuns
  | propose candidateId baseRevisionId source =>
      refine hOther (fun _ _ _ _ h => by cases h) (fun response hSaved => ?_) ?_
      · exact absurd hSaved (not_saved (fun _ _ h => by cases h) hRuns response)
      · exact quiet_of_late (late_propose _ _ _) (fun _ h => h.elim) (fun _ => rfl) hRuns
  | adopt candidateId expected timestamp revisionId =>
      have hAppends := appends_response (appending_adopt _ _ _ _) hEach hRuns
      refine ⟨hAppends.1, reported_append hAppends, fun _ _ _ _ adoption hSame hAdopted => ?_⟩
      cases hSame
      obtain ⟨x, hx, hAdoption⟩ := hAdopted
      obtain ⟨hOwn, hLater⟩ := Coherent.kept hSeen hPast hx
      have hNow := hLater.adoptions _ _ (hOwn.adoptions _ _ hAdoption)
      cases answer with
      | error e =>
          refine ⟨hAppends.2.1 e rfl, .inr ⟨e, past, rfl, fun y hy => (Coherent.kept hSeen hPast hy).2,
            hPromise adoption hNow⟩⟩
      | ok response =>
          obtain ⟨saved, rfl, hNames⟩ := hPromise
          have hId := hNames adoption hNow
          have hOld : saved.created = false := by
            rw [Bool.eq_false_iff]
            intro hCreated
            obtain ⟨-, row, hRow, -⟩ := (hEach x hx).adopted _ _ hAdoption
            have hFresh := (hAppends.1 saved rfl hCreated).fresh hSeen hx
            rw [hId, hRow] at hFresh
            cases hFresh
          exact ⟨hAppends.2.2 saved rfl hOld, .inl ⟨saved, rfl, hOld, hId⟩⟩

end Result

section Archived

/-- Sources that are texts. -/
def plainSources : SourceFormat String String where
  parse := .ok
  issues := fun _ => []
  serialize := id
  loads := some
  hash := id
  apiVersion := fun _ => "v1"
  loads_serialize := fun _ => rfl

/-- A Candidate is adopted, its Strategy is archived, and it is to be adopted again. -/
def adoptAgain : List (Request String String × List Weather) :=
  let read : Weather := {}
  let tested : Weather := { candidateRun := some .succeeded }
  [(.create "Strategy" "a" "t1" "strategy" "first", [read]),
    (.propose "candidate" "first" "b", [read]),
    (.adopt "candidate" "first" "t2" "second", [read, tested, read, read, read, read]),
    (.archive "strategy" "t3", [read, read]),
    (.adopt "candidate" "first" "t4" "third", [read, tested, read, read, read])]

/-- The Candidate was adopted, and then not again. -/
def refusedAgain : List (Request String String × List (Database × Database) ×
    Except ServiceError (Response String)) → Bool
  | [_, _, (.adopt candidateId _ _ _, _, .ok (.saved response)), _,
      (.adopt again _ _ _, seen, .error (.candidateArchivedStrategy _))] =>
      candidateId = "candidate" && again = "candidate" && response.created &&
        seen.all (fun x => x.1.adoptions.contains "candidate")
  | _ => false

theorem adoptAgain_served :
    ∃ answers store, Concurrent.serveAll (Request.start plainSources) adoptAgain Database.empty =
      some (answers, store) ∧ refusedAgain answers = true ∧
        store.revisions.keys = ["first", "second"] := by
  have hServed : (Concurrent.serveAll (Request.start plainSources) adoptAgain Database.empty).any
      (fun served => refusedAgain served.1 && served.2.revisions.keys = ["first", "second"]) = true := by
    decide +kernel
  obtain ⟨⟨answers, store⟩, hSome, hBoth⟩ := (Option.any_eq_true _ _).mp hServed
  obtain ⟨hRefused, hKeys⟩ := Bool.and_eq_true_iff.mp hBoth
  exact ⟨answers, store, hSome, hRefused, of_decide_eq_true hKeys⟩

end Archived

end RuleTrade
