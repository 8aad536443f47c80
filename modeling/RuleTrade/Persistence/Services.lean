import RuleTrade.Persistence.Refinement

/-! Requests in progress: whatever others do in between, each transaction of a
request is a transition of the revision histories. -/

namespace RuleTrade

open Library

section Guarded

variable {Raw Source α β ρ : Type} (format : SourceFormat Raw Source)

/-- What holds of an error, or of a value. -/
def Fits (E : ServiceError → Database → Prop) (P : α → Database → Prop) :
    Except ServiceError α → Database → Prop
  | .error e, s => E e s
  | .ok a, s => P a s

/-- Every transaction of a service is a transition, whatever others did since the
store `past`; errors and values fit the store they are returned on. -/
def Guarded (E : ServiceError → Database → Prop) (P : α → Database → Prop) (service : Service α)
    (past : Database) : Prop :=
  Task.Safe (Database.Consistent format) (Transition format) (Fits E P) service.run past

/-- Every transaction of a service is a transition. -/
def Transits (service : Service α) (past : Database) : Prop :=
  Guarded format (fun _ _ => True) (fun _ _ => True) service past

variable {format} {E : ServiceError → Database → Prop} {P : α → Database → Prop}
  {Q : β → Database → Prop} {past : Database}

theorem Guarded.bind {service : Service α} {f : α → Service β}
    (h : Guarded format E P service past)
    (hNext : ∀ a s, P a s → Guarded format E Q (f a) s) :
    Guarded format E Q (service >>= f) past := by
  refine Task.safe_bind h (fun outcome s hOutcome => ?_)
  cases outcome with
  | error e => exact hOutcome
  | ok a => exact hNext a s hOutcome

theorem guarded_error {error : ServiceError} (h : E error past) :
    Guarded format E P (settle (.error error)) past := h

theorem guarded_pure {a : α} (h : P a past) : Guarded format E P (pure a : Service α) past := h

/-- Facts that transitions keep are still there when a service returns. -/
theorem Guarded.frame {F : Database → Prop} {service : Service α}
    (hFact : ∀ db later, Transition format db later → F db → F later)
    (h : Guarded format E P service past) (hPast : F past) :
    Guarded format E (fun a s => P a s ∧ F s) service past := by
  refine (Task.Safe.frame hFact h hPast).mono (fun r s hBoth => ?_)
  cases r with
  | error e => exact hBoth.1
  | ok a => exact hBoth

/-- A transaction is guarded by what it comes to without failures. -/
theorem guarded_transaction {storage : ServiceError} {P : ρ → Database → Prop}
    {body : Script Database ServiceError ρ ρ}
    (hFault : ∀ db, Task.Rely (Transition format) past db → E storage db)
    (h : ∀ db, Task.Rely (Transition format) past db → db.Consistent format →
      Transition format db (body.run storage none db db).2 ∧
        Fits E P (body.run storage none db db).1 (body.run storage none db db).2) :
    Guarded format E P (transaction storage body) past := by
  intro weather db hRely hConsistent
  exact transact_cases (O := fun outcome => Transition format db outcome.2 ∧
    Fits E P outcome.1 outcome.2) body weather.budget
    ⟨.unchanged db, hFault db hRely⟩ (h db hRely hConsistent)

theorem transits_transaction {storage : ServiceError} {body : Script Database ServiceError ρ ρ}
    (h : ∀ db, Transition format db (body.run storage none db db).2) :
    Transits format (transaction storage body) past := by
  refine guarded_transaction (fun _ _ => trivial) (fun db _ _ => ⟨h db, ?_⟩)
  cases (body.run storage none db db).1 <;> trivial

theorem transits_settle {outcome : Except ServiceError α} : Transits format (settle outcome) past := by
  cases outcome <;> trivial

/-- Facts that transitions keep, for whom others ran in between. -/
theorem kept_of_rely {db later : Database} (h : Task.Rely (Transition format) db later) :
    db.Kept later :=
  Task.Rely.keeps (fun _ _ hStep hKept => hKept.trans hStep.kept) h (.refl db)

end Guarded

section Transits

open SQLiteStrategyRepository

variable {Raw Source : Type} {format : SourceFormat Raw Source} {past : Database}

theorem transits_requireStrategy (strategyId : String) :
    Transits format (StrategyService.requireStrategy strategyId) past := by
  refine Guarded.bind (transits_transaction (fun db => .unchanged db)) (fun found s _ => ?_)
  cases found with
  | none => exact guarded_error trivial
  | some strategy => exact guarded_pure trivial

/-- Reading a row that was found changes nothing. -/
theorem read_row {row : RevisionRow} {storage : ServiceError} {db : Database} :
    ((readRevision format row >>= fun record => pure (some record)).run storage none db db).2 = db := by
  unfold readRevision
  cases revision format row <;> rfl

theorem getRevision_unchanged (strategyId revisionId : String) (storage : ServiceError)
    (db : Database) :
    ((SQLiteStrategyRepository.getRevision format strategyId revisionId).run storage none db db).2 =
      db := by
  unfold SQLiteStrategyRepository.getRevision
  rw [Script.bind_query, Script.run_read]
  split
  · rfl
  · exact read_row

theorem transits_currentRevision (strategyId revisionId : String) :
    Transits format (StrategyService.currentRevision format strategyId revisionId) past := by
  refine Guarded.bind (transits_transaction (fun db => ?_)) (fun found s _ => ?_)
  · rw [getRevision_unchanged]
    exact .unchanged db
  · cases found with
    | none => exact guarded_error trivial
    | some record => exact guarded_pure trivial

/-- An accepted Revision of a request is a transition. -/
theorem AppendOutcome.transition {db : Database} {strategyId expected revisionId timestamp : String}
    {source : Source} {outcome : Except ServiceError (AppendResult Source) × Database}
    (h : AppendOutcome db strategyId expected
      (StrategyService.draft format revisionId strategyId (some expected) source timestamp)
      (format.serialize source) some outcome) : Transition format db outcome.2 := by
  cases h with
  | failed => exact .unchanged db
  | notFound => exact .unchanged db
  | refused => exact .unchanged db
  | created known unarchived tip fresh recorded =>
      cases recorded
      refine .saved ⟨known, unarchived, fresh, rfl, ?_⟩ ?_
      · rw [tip]
        rfl
      · exact Option.isSome_iff_exists.mpr ⟨source, format.loads_serialize source⟩

theorem AdoptionOutcome.transition {db : Database}
    {candidateId strategyId expected revisionId timestamp : String} {source : Source}
    {outcome : Except ServiceError (AppendResult Source) × Database}
    (hProposed : db.Proposes candidateId strategyId)
    (h : AdoptionOutcome db candidateId strategyId expected
      (StrategyService.draft format revisionId strategyId (some expected) source timestamp)
      (format.serialize source) outcome) : Transition format db outcome.2 := by
  cases h with
  | lineage => exact .unchanged db
  | adopted => exact .unchanged db
  | appended unadopted appended =>
      cases appended with
      | failed => exact .unchanged db
      | notFound => exact .unchanged db
      | refused => exact .unchanged db
      | created known unarchived tip fresh recorded =>
          obtain ⟨-, rfl⟩ := insertAdoption_some recorded
          refine .adopted ⟨known, unarchived, fresh, rfl, ?_⟩ ?_ unadopted rfl rfl hProposed
          · rw [tip]
            rfl
          · exact Option.isSome_iff_exists.mpr ⟨source, format.loads_serialize source⟩

theorem transits_saveRevision (strategyId expected : String) (raw : Raw) (timestamp revisionId : String) :
    Transits format
      (StrategyService.saveRevision format strategyId expected raw timestamp revisionId) past :=
  transits_settle.bind (fun _ _ _ => Guarded.bind (transits_transaction (fun db =>
    (append_outcome _ db strategyId expected _ _ some).transition)) (fun _ _ _ => transits_settle))

theorem transits_createStrategy (name : String) (raw : Raw) (timestamp strategyId revisionId : String) :
    Transits format
      (StrategyService.createStrategy format name raw timestamp strategyId revisionId) past := by
  refine transits_settle.bind (fun canonical s _ => ?_)
  refine Guarded.bind (transits_transaction (fun db => ?_)) (fun _ _ _ => guarded_pure trivial)
  generalize hOutcome : Script.run _ _ _ _ _ = outcome
  have h := createStrategy_outcome (.persistence "Could not create Strategy.") db
    { id := strategyId, name := name, createdAt := timestamp, updatedAt := timestamp
      currentRevisionId := revisionId }
    (StrategyService.draft format revisionId strategyId none canonical timestamp)
    (format.serialize canonical)
  rw [hOutcome] at h
  cases h with
  | failed => exact .unchanged db
  | created freshStrategy freshRevision =>
      exact .created freshStrategy freshRevision rfl rfl rfl
        (Option.isSome_iff_exists.mpr ⟨canonical, format.loads_serialize canonical⟩)

theorem ChangeOutcome.transition {db : Database} {strategyId : String}
    {change : StrategyRecord → StrategyRecord}
    {outcome : Except ServiceError (Option StrategyRecord) × Database}
    (hChange : ∀ row, (change row).currentRevisionId = row.currentRevisionId)
    (h : ChangeOutcome db strategyId change outcome) : Transition format db outcome.2 := by
  cases h with
  | failed => exact .unchanged db
  | declined => exact .unchanged db
  | changed known => exact .edited known (hChange _)

theorem transits_renameStrategy (strategyId name timestamp : String) :
    Transits format (StrategyService.renameStrategy format strategyId name timestamp) past := by
  refine (transits_requireStrategy strategyId).bind (fun strategy s _ => ?_)
  split
  · exact guarded_error trivial
  · refine Guarded.bind (transits_transaction (fun db => ?_)) (fun updated s _ => ?_)
    · refine ChangeOutcome.transition ?_ (changeOpen_outcome _ db strategyId _)
      intro row
      rfl
    · cases updated with
      | none => exact guarded_error trivial
      | some updated =>
          exact (transits_currentRevision strategyId updated.currentRevisionId).bind
            (fun _ _ _ => guarded_pure trivial)

theorem transits_archiveStrategy (strategyId timestamp : String) :
    Transits format (StrategyService.archiveStrategy strategyId timestamp) past := by
  refine (transits_requireStrategy strategyId).bind (fun strategy s _ => ?_)
  split
  · exact guarded_pure trivial
  · refine Guarded.bind (transits_transaction (fun db => ?_)) (fun archived s _ => ?_)
    · refine ChangeOutcome.transition ?_ (changeOpen_outcome _ db strategyId _)
      intro row
      rfl
    · cases archived with
      | none => exact transits_requireStrategy strategyId
      | some archived => exact guarded_pure trivial

theorem validateParsed_ok {source canonical : Source}
    (h : StrategyService.validateParsed format source = .ok canonical) :
    canonical = source ∧ format.issues source = [] := by
  unfold StrategyService.validateParsed at h
  split at h
  · rename_i hIssues
    cases h
    exact ⟨rfl, hIssues⟩
  · cases h

theorem transits_propose (candidateId baseRevisionId : String) (source : Source) :
    Transits format (CandidateService.propose format candidateId baseRevisionId source) past := by
  unfold CandidateService.propose
  cases hValid : StrategyService.validateParsed format source with
  | error e => exact guarded_error trivial
  | ok canonical =>
      obtain ⟨rfl, hIssues⟩ := validateParsed_ok hValid
      refine transits_transaction (fun db => ?_)
      generalize hOutcome : Script.run _ _ _ _ _ = outcome
      have h := create_outcome (.candidatePersistence "Could not persist Candidate.") db
        ⟨candidateId, baseRevisionId, format.serialize canonical, format.hash canonical⟩
      rw [hOutcome] at h
      cases h with
      | failed => exact .unchanged db
      | proposed fresh => exact .proposed fresh (format.loads_serialize canonical) hIssues rfl

end Transits

section Adoption

open SQLiteStrategyRepository

variable {Raw Source : Type} {format : SourceFormat Raw Source} {past : Database}
  {candidateId expected : String}

/-- Errors of storage while a Candidate is adopted. -/
def adoptionStorageErrors : List ServiceError := [
  .candidatePersistence "Could not read Candidate.",
  .backtestRunPersistence "Could not read Candidate Run.",
  .persistence "Could not read Strategy Revision.",
  .persistence "Could not read Strategy.",
  .persistence "Could not adopt Candidate as a Strategy Revision."]

variable (format candidateId expected) in
/-- Why a Candidate that is adopted already may not be adopted again. -/
inductive AdoptionRefusal (adoption : AdoptionRow) (s : Database) : ServiceError → Prop where
  | missingRun : AdoptionRefusal adoption s (.candidateNotFound "Candidate Run was not found.")
  | failedRun : AdoptionRefusal adoption s
      (.candidateRunNotSucceeded "Only a successfully completed Candidate can be adopted.")
  | lineage {candidate : CandidateRow} (stored : s.candidates.get? candidateId = some candidate)
      (other : expected ≠ candidate.baseRevisionId) : AdoptionRefusal adoption s
        (.candidateAdoptionLineage "Candidate adoption must be based on its immutable base Revision.")
  | archived {db : Database} {strategy : StrategyRecord} (before : Task.Rely (Transition format) db s)
      (stored : db.strategies.get? adoption.strategyId = some strategy)
      (archived : strategy.archivedAt ≠ none) : AdoptionRefusal adoption s
        (.candidateArchivedStrategy "Archived Strategies cannot adopt a Candidate.")
  | storage {error : ServiceError} (known : error ∈ adoptionStorageErrors) :
      AdoptionRefusal adoption s error

variable (format candidateId expected) in
/-- Errors for a Candidate that is adopted already. -/
def Refused (e : ServiceError) (s : Database) : Prop :=
  ∀ adoption, s.adoptions.get? candidateId = some adoption →
    AdoptionRefusal format candidateId expected adoption s e

variable (candidateId) in
/-- A response names the Revision that the Candidate became. -/
def Names (response : SaveRevisionResponse Source) (s : Database) : Prop :=
  ∀ adoption, s.adoptions.get? candidateId = some adoption → response.revision.id = adoption.revisionId

theorem refused_storage {e : ServiceError} (h : e ∈ adoptionStorageErrors) (s : Database) :
    Refused format candidateId expected e s :=
  fun _ _ => .storage h

/-- The Strategy of an adopted Candidate is the one of its base Revision. -/
theorem lineage_unique {db : Database} {strategyId other : String}
    (h : db.Proposes candidateId strategyId) (hOther : db.Proposes candidateId other) :
    strategyId = other := by
  obtain ⟨candidate, base, hCandidate, hBase, rfl⟩ := h
  obtain ⟨candidate', base', hCandidate', hBase', rfl⟩ := hOther
  rw [hCandidate, Option.some.injEq] at hCandidate'
  subst hCandidate'
  rw [hBase, Option.some.injEq] at hBase'
  rw [hBase']

theorem guarded_getCandidate :
    Guarded format (Refused format candidateId expected) (fun found s =>
      s.candidates.get? candidateId = some found.1 ∧ found.1.id = candidateId ∧
        format.issues found.2 = [] ∧ found.1.sourceHash = format.hash found.2)
      (CandidateService.getCandidate format candidateId) past := by
  refine Guarded.bind (P := fun found s => s.Consistent format ∧ found = s.candidates.get? candidateId)
    (guarded_transaction (fun db _ => refused_storage (by simp [adoptionStorageErrors]) db)
      (fun db _ hConsistent => ⟨.unchanged db, hConsistent, rfl⟩)) (fun found s hFound => ?_)
  obtain ⟨hConsistent, rfl⟩ := hFound
  cases hStored : s.candidates.get? candidateId with
  | none =>
      refine guarded_error (fun adoption hAdoption => ?_)
      obtain ⟨⟨candidate, -, hCandidate, -⟩, -⟩ := hConsistent.adopted candidateId adoption hAdoption
      rw [hStored] at hCandidate
      cases hCandidate
  | some candidate =>
      obtain ⟨hId, source, hSource, hValid, hHash⟩ := hConsistent.candidates candidateId candidate hStored
      simp only [hSource]
      exact guarded_pure ⟨hStored, hId, hValid, hHash⟩

theorem guarded_candidateRun :
    Guarded format (Refused format candidateId expected) (fun _ _ => True)
      CandidateService.candidateRun past := by
  intro weather db _ _
  refine ⟨.unchanged db, ?_⟩
  change Fits _ _ (if weather.budget = some 0 then _ else _) _
  split
  · exact refused_storage (by simp [adoptionStorageErrors]) db
  · cases weather.candidateRun with
    | none => exact fun _ _ => .missingRun
    | some status => trivial

theorem guarded_getRevisionById {candidate : CandidateRow}
    (hCandidate : past.candidates.get? candidateId = some candidate) :
    Guarded format (Refused format candidateId expected) (fun record s =>
      ∃ row, s.revisions.get? candidate.baseRevisionId = some row ∧ row.strategyId = record.strategyId ∧
        row.strategyId ∈ s.strategies.keys)
      (StrategyService.getRevisionById format candidate.baseRevisionId) past := by
  refine Guarded.bind (P := fun found s => s.Consistent format ∧
      s.candidates.get? candidateId = some candidate ∧
      (∀ record, found = some record → ∃ row, s.revisions.get? candidate.baseRevisionId = some row ∧
        row.strategyId = record.strategyId) ∧
      (found = none → s.revisions.get? candidate.baseRevisionId = none))
    (guarded_transaction (fun db _ => refused_storage (by simp [adoptionStorageErrors]) db)
      (fun db hRely hConsistent => ?_)) (fun found s hFound => ?_)
  · have hNow := (kept_of_rely hRely).candidates _ _ hCandidate
    unfold SQLiteStrategyRepository.getRevisionById
    rw [Script.bind_query, Script.run_read]
    cases hRow : db.revisions.get? candidate.baseRevisionId with
    | none => exact ⟨.unchanged db, hConsistent, hNow, fun _ hNone => (by cases hNone), fun _ => hRow⟩
    | some row =>
        obtain ⟨record, hRecord, -, hOwn⟩ := revision_some (hConsistent.readable _ _ hRow)
        simp only [readRevision, hRecord, Script.pure_eq, Script.bind_done, Script.run_done]
        refine ⟨.unchanged db, hConsistent, hNow, fun _ hSome => ?_, fun hNone => (by cases hNone)⟩
        cases hSome
        exact ⟨row, hRow, hOwn.symm⟩
  · obtain ⟨hConsistent, hNow, hSome, hNone⟩ := hFound
    cases found with
    | none =>
        refine guarded_error (fun adoption hAdoption => ?_)
        obtain ⟨⟨other, base, hOther, hBase, -⟩, -⟩ := hConsistent.adopted candidateId adoption hAdoption
        rw [hNow, Option.some.injEq] at hOther
        subst hOther
        rw [hNone rfl] at hBase
        cases hBase
    | some record =>
        obtain ⟨row, hRow, hOwn⟩ := hSome record rfl
        exact guarded_pure ⟨row, hRow, hOwn, hConsistent.owned _ _ hRow⟩

theorem guarded_getStrategy {strategyId : String} (hKnown : strategyId ∈ past.strategies.keys) :
    Guarded format (Refused format candidateId expected) (fun detail s =>
      ∃ db, Task.Rely (Transition format) db s ∧
        db.strategies.get? strategyId = some detail.strategy)
      (StrategyService.getStrategy format strategyId) past := by
  have hRequire : Guarded format (Refused format candidateId expected) (fun strategy s =>
      s.strategies.get? strategyId = some strategy ∧ ∃ row, s.revisions.get?
        strategy.currentRevisionId = some row ∧ row.strategyId = strategyId)
      (StrategyService.requireStrategy strategyId) past := by
    refine Guarded.bind (P := fun found s => s.Consistent format ∧ strategyId ∈ s.strategies.keys ∧
        found = s.strategies.get? strategyId)
      (guarded_transaction (fun db _ => refused_storage (by simp [adoptionStorageErrors]) db)
        (fun db hRely hConsistent => ⟨.unchanged db, hConsistent,
          (kept_of_rely hRely).strategies _ hKnown, rfl⟩)) (fun found s hFound => ?_)
    obtain ⟨hConsistent, hNow, rfl⟩ := hFound
    obtain ⟨strategy, hStrategy⟩ := Option.isSome_iff_exists.mp (Dict.get?_isSome_iff.mpr hNow)
    simp only [hStrategy]
    obtain ⟨chain, hChain⟩ := hConsistent.linear strategyId strategy hStrategy
    obtain ⟨row, hRow, hOwn⟩ := hChain.history.stored (List.mem_of_head? hChain.tip)
    exact guarded_pure ⟨hStrategy, row, hRow, hOwn⟩
  refine hRequire.bind (fun strategy s hFound => ?_)
  obtain ⟨hStrategy, row, hRow, hOwn⟩ := hFound
  have hSince : ∀ db later, Transition format db later → Task.Rely (Transition format) s db →
      Task.Rely (Transition format) s later := fun _ _ hStep hRely => hRely.tail hStep
  have hCurrent : Guarded format (Refused format candidateId expected) (fun _ _ => True)
      (StrategyService.currentRevision format strategyId strategy.currentRevisionId) s := by
    refine Guarded.bind (P := fun found _ => found.isSome)
      (guarded_transaction (fun db _ => refused_storage (by simp [adoptionStorageErrors]) db)
        (fun db hRely hConsistent => ?_)) (fun found s hSome => ?_)
    · have hNow := (kept_of_rely hRely).revisions _ _ hRow
      obtain ⟨record, hRecord, -⟩ := revision_some (hConsistent.readable _ _ hNow)
      have hFound : (db.revisions.get? strategy.currentRevisionId).filter
          (fun row => decide (row.strategyId = strategyId)) = some row := by
        rw [hNow, Option.filter_some, if_pos]
        exact decide_eq_true hOwn
      simp only [SQLiteStrategyRepository.getRevision, Script.bind_query, Script.run_read, hFound,
        readRevision, hRecord, Script.pure_eq, Script.bind_done, Script.run_done]
      exact ⟨.unchanged db, rfl⟩
    · obtain ⟨record, rfl⟩ := Option.isSome_iff_exists.mp hSome
      exact guarded_pure trivial
  exact (hCurrent.frame hSince .refl).bind (fun record t hRely =>
    guarded_pure ⟨s, hRely.2, hStrategy⟩)

theorem guarded_adoptCandidateRevision {strategyId : String} (source : Source)
    (timestamp revisionId : String) (hValid : format.issues source = [])
    (hProposed : past.Proposes candidateId strategyId) :
    Guarded format (Refused format candidateId expected) (Names candidateId)
      (StrategyService.adoptCandidateRevision format candidateId strategyId expected source timestamp
        revisionId) past := by
  unfold StrategyService.adoptCandidateRevision StrategyService.validateParsed
  simp only [hValid]
  refine Guarded.bind (P := fun result s => ∀ adoption, s.adoptions.get? candidateId = some adoption →
      ∃ response, StrategyService.answer "Archived Strategies cannot accept a Candidate." result =
        .ok response ∧ response.revision.id = adoption.revisionId)
    (guarded_transaction (fun db _ => refused_storage (by simp [adoptionStorageErrors]) db)
      (fun db hRely hConsistent => ?_)) (fun result s hResult => ?_)
  · have hNow := hProposed.kept (kept_of_rely hRely)
    have h := appendCandidate_outcome hConsistent candidateId strategyId expected
      (StrategyService.draft format revisionId strategyId (some expected) source timestamp)
      (format.serialize source)
    refine ⟨h.transition hNow, ?_⟩
    generalize Script.run _ _ _ _ _ = outcome at h
    cases h with
    | lineage known other error =>
        exact absurd (lineage_unique (hConsistent.adopted _ _ known).1 hNow) other
    | adopted strategy known same =>
        intro adoption hAdoption
        rw [known, Option.some.injEq] at hAdoption
        subst hAdoption
        exact ⟨_, rfl, same⟩
    | appended unadopted appended =>
        have hNone : ∀ {Outcome : AdoptionRow → Prop} (adoption : AdoptionRow),
            db.adoptions.get? candidateId = some adoption → Outcome adoption := by
          intro Outcome adoption hAdoption
          rw [unadopted] at hAdoption
          cases hAdoption
        cases appended with
        | failed error => exact hNone
        | notFound => exact hNone
        | refused strategy current declined => exact hNone
        | created known unarchived tip fresh recorded =>
            obtain ⟨-, rfl⟩ := insertAdoption_some recorded
            intro adoption hAdoption
            rw [Dict.get?_set_self, Option.some.injEq] at hAdoption
            subst hAdoption
            exact ⟨_, rfl, rfl⟩
  · cases hAnswer : StrategyService.answer "Archived Strategies cannot accept a Candidate." result with
    | error e =>
        refine guarded_error (fun adoption hAdoption => ?_)
        obtain ⟨response, hResponse, -⟩ := hResult adoption hAdoption
        rw [hAnswer] at hResponse
        cases hResponse
    | ok response =>
        intro adoption hAdoption
        obtain ⟨other, hResponse, hId⟩ := hResult adoption hAdoption
        rw [hAnswer] at hResponse
        cases hResponse
        exact hId

/-- A request to adopt a Candidate names the Revision it became, or says why not. -/
theorem guarded_adopt (timestamp revisionId : String) (hConsistent : past.Consistent format) :
    Guarded format (Refused format candidateId expected) (Names candidateId)
      (CandidateService.adopt format candidateId expected timestamp revisionId) past := by
  have hOrder : ∀ db later, Transition format db later → db.Consistent format →
      later.Consistent format := fun _ _ hStep h => hStep.consistent h
  refine (guarded_getCandidate.frame hOrder hConsistent).bind (fun found s hFound => ?_)
  obtain ⟨candidate, source⟩ := found
  obtain ⟨⟨hCandidate, hId, hValid, hHash⟩, hConsistent⟩ := hFound
  have hKept : ∀ db later, Transition format db later →
      db.Consistent format ∧ db.candidates.get? candidateId = some candidate →
      later.Consistent format ∧ later.candidates.get? candidateId = some candidate :=
    fun _ _ hStep h => ⟨hStep.consistent h.1, hStep.kept.candidates _ _ h.2⟩
  refine (guarded_candidateRun.frame hKept ⟨hConsistent, hCandidate⟩).bind (fun status s hStatus => ?_)
  split
  · exact guarded_error (fun _ _ => .failedRun)
  · refine ((guarded_getRevisionById hStatus.2.2).frame hKept hStatus.2).bind (fun base s hBase => ?_)
    obtain ⟨⟨row, hRow, hOwn, hStrategy⟩, hConsistent, hCandidate⟩ := hBase
    rw [hOwn] at hStrategy
    split
    · rename_i hOther
      exact guarded_error (fun _ _ => .lineage hCandidate hOther)
    · have hProposed : ∀ db later, Transition format db later →
          db.Consistent format ∧ db.Proposes candidateId base.strategyId →
          later.Consistent format ∧ later.Proposes candidateId base.strategyId :=
        fun _ _ hStep h => ⟨hStep.consistent h.1, h.2.kept hStep.kept⟩
      refine ((guarded_getStrategy hStrategy).frame hProposed
        ⟨hConsistent, candidate, row, hCandidate, hRow, hOwn⟩).bind (fun detail s hDetail => ?_)
      obtain ⟨⟨db, hRely, hStored⟩, hConsistent, hNow⟩ := hDetail
      split
      · rename_i hArchived
        refine guarded_error (fun adoption hAdoption => .archived hRely ?_ hArchived)
        rwa [lineage_unique (hConsistent.adopted _ _ hAdoption).1 hNow]
      · have hChecked : StrategyService.validateParsed format source = .ok source := by
          simp only [StrategyService.validateParsed, hValid]
        rw [hChecked]
        change Guarded format _ _ (if _ then _ else _) s
        rw [if_neg (not_not.mpr hHash.symm), hId]
        exact guarded_adoptCandidateRevision source timestamp revisionId hValid hNow

/-- What is known of an answer. -/
def Request.Promise (format : SourceFormat Raw Source) :
    Request Raw Source → Except ServiceError (Response Source) → Database → Prop
  | .adopt candidateId expected _ _ => Fits (Refused format candidateId expected) (fun response s =>
      ∃ saved, response = .saved saved ∧ Names candidateId saved s)
  | _ => fun _ _ => True

/-- Every request is made of transitions, and keeps its promise. -/
theorem safe_serve (request : Request Raw Source) (hPast : past.Consistent format) :
    Task.Safe (Database.Consistent format) (Transition format) (request.Promise format)
      (request.serve format).run past := by
  have hTransits : ∀ {service : Service (Response Source)}, Transits format service past →
      Task.Safe (Database.Consistent format) (Transition format) (fun _ _ => True) service.run past :=
    fun h => h.mono (fun _ _ _ => trivial)
  cases request with
  | create name raw timestamp strategyId revisionId =>
      exact hTransits ((transits_createStrategy name raw timestamp strategyId revisionId).bind
        (fun _ _ _ => guarded_pure trivial))
  | save strategyId expected raw timestamp revisionId =>
      exact hTransits ((transits_saveRevision strategyId expected raw timestamp revisionId).bind
        (fun _ _ _ => guarded_pure trivial))
  | adopt candidateId expected timestamp revisionId =>
      exact (guarded_adopt timestamp revisionId hPast).bind
        (fun saved _ hNames => guarded_pure ⟨saved, rfl, hNames⟩)
  | rename strategyId name timestamp =>
      exact hTransits ((transits_renameStrategy strategyId name timestamp).bind
        (fun _ _ _ => guarded_pure trivial))
  | archive strategyId timestamp =>
      exact hTransits ((transits_archiveStrategy strategyId timestamp).bind
        (fun _ _ _ => guarded_pure trivial))
  | propose candidateId baseRevisionId source =>
      exact hTransits ((transits_propose candidateId baseRevisionId source).bind
        (fun _ _ _ => guarded_pure trivial))

end Adoption

end RuleTrade
