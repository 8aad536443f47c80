import RuleTrade.Persistence.History
import RuleTrade.Persistence.Requests

/-! The transactions of the repository are transitions of the revision
histories, and the requests of the services are made of such transactions. -/

namespace RuleTrade

open Library

section Statements

variable {db later : Database}

theorem contains_eq_false {α : Type} {d : Dict String α} {key : String} (h : ¬d.contains key = true) :
    d.get? key = none := by
  rw [Dict.contains, Option.not_isSome_iff_eq_none] at h
  exact h

theorem insertStrategy_some {row : StrategyRecord} (h : db.insertStrategy row = some later) :
    db.strategies.get? row.id = none ∧
      later = { db with strategies := db.strategies.set row.id row } := by
  unfold Database.insertStrategy at h
  split at h
  · cases h
  · rename_i hFresh
    cases h
    exact ⟨contains_eq_false hFresh, rfl⟩

theorem insertRevision_some {row : RevisionRow} (h : db.insertRevision row = some later) :
    db.revisions.get? row.id = none ∧ later = { db with revisions := db.revisions.set row.id row } := by
  unfold Database.insertRevision at h
  split at h
  · cases h
  · rename_i hRefused
    cases h
    refine ⟨contains_eq_false (fun hKnown => hRefused ?_), rfl⟩
    rw [hKnown]
    rfl

theorem insertCandidate_some {row : CandidateRow} (h : db.insertCandidate row = some later) :
    db.candidates.get? row.id = none ∧
      later = { db with candidates := db.candidates.set row.id row } := by
  unfold Database.insertCandidate at h
  split at h
  · cases h
  · rename_i hRefused
    cases h
    refine ⟨contains_eq_false (fun hKnown => hRefused ?_), rfl⟩
    rw [hKnown]
    rfl

theorem insertAdoption_some {row : AdoptionRow} (h : db.insertAdoption row = some later) :
    db.adoptions.get? row.candidateId = none ∧
      later = { db with adoptions := db.adoptions.set row.candidateId row } := by
  unfold Database.insertAdoption at h
  split at h
  · cases h
  · rename_i hRefused
    cases h
    refine ⟨contains_eq_false (fun hKnown => hRefused ?_), rfl⟩
    rw [hKnown]
    rfl

theorem commit_some (h : db.commit = some later) : later = db := by
  unfold Database.commit at h
  split at h
  · cases h
    rfl
  · cases h

theorem updateStrategy_known {id : String} {row : StrategyRecord}
    (h : db.strategies.get? id = some row) (change : StrategyRecord → StrategyRecord) :
    db.updateStrategy id change = { db with strategies := db.strategies.set id (change row) } := by
  simp only [Database.updateStrategy, h]

end Statements

section Scripts

open SQLiteStrategyRepository

variable {Raw Source ρ : Type} {format : SourceFormat Raw Source} {storage : ServiceError}
  {db : Database}

/-- A transaction that gives an answer of the script, unless storage fails. -/
theorem transact_cases {O : Except ServiceError ρ × Database → Prop}
    (body : Script Database ServiceError ρ ρ) (budget : Option Nat)
    (hFault : O (.error storage, db)) (hRun : O (body.transact storage none db)) :
    O (body.transact storage budget db) := by
  rcases Script.transact_budget storage body budget db with h | h
  · rwa [h]
  · rwa [h]

theorem execute_cases {O : Except ServiceError ρ × Database → Prop} {refused fault : ServiceError}
    {write : Database → Option Database} {next : Database → Script Database ServiceError ρ ρ}
    {store copy : Database} (hRefused : O (.error refused, store))
    (hWritten : ∀ changed, write copy = some changed →
      O ((next changed).run fault none store changed)) :
    O ((Script.statement (fun s => (write s).elim (.error refused) .ok) next).run fault none
      store copy) := by
  rw [Script.run_write]
  cases h : write copy with
  | none => exact hRefused
  | some changed => exact hWritten changed h

theorem readRevision_cases {O : Except ServiceError ρ × Database → Prop} {fault : ServiceError}
    {row : RevisionRow} {next : RevisionRecord Source → Script Database ServiceError ρ ρ}
    {store copy : Database} (hUnreadable : revision format row = none →
      O (.error .unreadableSource, store))
    (hRead : ∀ record, revision format row = some record →
      O ((next record).run fault none store copy)) :
    O ((readRevision format row >>= next).run fault none store copy) := by
  unfold readRevision
  cases h : revision format row with
  | none => exact hUnreadable h
  | some record => exact hRead record h

/-- Outcomes of an attempt to append a Revision. -/
inductive AppendOutcome (db : Database) (strategyId expected : String) (record : RevisionRecord Source)
    (canonicalJson : String) (further : Database → Option Database) :
    Except ServiceError (AppendResult Source) × Database → Prop where
  | failed (error : ServiceError) :
      AppendOutcome db strategyId expected record canonicalJson further (.error error, db)
  | notFound : AppendOutcome db strategyId expected record canonicalJson further
      (.ok { status := .notFound }, db)
  | refused {status : AppendStatus} (strategy : StrategyRecord) (current : RevisionRecord Source)
      (declined : status = .archived ∨ status = .stale ∨ status = .identical) :
      AppendOutcome db strategyId expected record canonicalJson further
        (.ok ⟨status, some strategy, some current⟩, db)
  | created {strategy : StrategyRecord} {last : Database}
      (known : db.strategies.get? strategyId = some strategy) (unarchived : strategy.archivedAt = none)
      (tip : strategy.currentRevisionId = expected) (fresh : db.revisions.get? record.id = none)
      (recorded : further (db.accept strategyId strategy (revisionRow record canonicalJson)) = some last) :
      AppendOutcome db strategyId expected record canonicalJson further
        (.ok ⟨.created, some { strategy with
          currentRevisionId := record.id, updatedAt := record.createdAt }, some record⟩, last)

variable (storage db) in
theorem append_outcome (strategyId expected : String) (record : RevisionRecord Source)
    (canonicalJson : String) (further : Database → Option Database) :
    AppendOutcome db strategyId expected record canonicalJson further
      ((append format storage strategyId expected record canonicalJson further).run storage none
        db db) := by
  unfold append
  rw [Script.bind_query, Script.run_read]
  cases hStrategy : db.strategies.get? strategyId with
  | none => exact .notFound
  | some strategy =>
      simp only [Script.bind_query, Script.run_read]
      cases hCurrent : db.revisions.get? strategy.currentRevisionId with
      | none => exact .failed _
      | some currentRow =>
          apply readRevision_cases (fun _ => .failed _)
          intro current _
          split
          · exact .refused strategy current (.inl rfl)
          · rename_i hOpen
            split
            · exact .refused strategy current (.inr (.inl rfl))
            · rename_i hTip
              split
              · exact .refused strategy current (.inr (.inr rfl))
              · refine execute_cases (.failed _) (fun inserted hInserted => ?_)
                refine execute_cases (.failed _) (fun moved hMoved => ?_)
                refine execute_cases (.failed _) (fun recorded hRecorded => ?_)
                refine execute_cases (.failed _) (fun committed hCommitted => ?_)
                obtain ⟨hFresh, rfl⟩ := insertRevision_some hInserted
                obtain rfl := commit_some hCommitted
                have hKnown : ({ db with revisions := (db.revisions.set record.id
                    (revisionRow record canonicalJson)) } : Database).strategies.get? strategyId =
                      some strategy := hStrategy
                obtain rfl := (updateStrategy_known hKnown _).symm.trans (Option.some.inj hMoved)
                exact .created hStrategy (not_not.mp hOpen) (not_not.mp hTip) hFresh hRecorded

/-- Outcomes of an attempt to adopt a Candidate. -/
inductive AdoptionOutcome (db : Database) (candidateId strategyId expected : String)
    (record : RevisionRecord Source) (canonicalJson : String) :
    Except ServiceError (AppendResult Source) × Database → Prop where
  | appended {outcome : Except ServiceError (AppendResult Source) × Database}
      (unadopted : db.adoptions.get? candidateId = none)
      (appended : AppendOutcome db strategyId expected record canonicalJson
        (Database.insertAdoption ⟨candidateId, strategyId, record.id, record.createdAt⟩) outcome) :
      AdoptionOutcome db candidateId strategyId expected record canonicalJson outcome
  | lineage {adoption : AdoptionRow} (known : db.adoptions.get? candidateId = some adoption)
      (other : adoption.strategyId ≠ strategyId) (error : ServiceError) :
      AdoptionOutcome db candidateId strategyId expected record canonicalJson (.error error, db)
  | adopted {adoption : AdoptionRow} {adopted : RevisionRecord Source} (strategy : StrategyRecord)
      (known : db.adoptions.get? candidateId = some adoption) (same : adopted.id = adoption.revisionId) :
      AdoptionOutcome db candidateId strategyId expected record canonicalJson
        (.ok ⟨.adopted, some strategy, some adopted⟩, db)

theorem revision_some {row : RevisionRow} (h : (format.loads row.canonicalJson).isSome) :
    ∃ record : RevisionRecord Source, revision format row = some record ∧ record.id = row.id ∧
      record.strategyId = row.strategyId := by
  obtain ⟨source, hSource⟩ := Option.isSome_iff_exists.mp h
  unfold revision
  rw [hSource]
  exact ⟨_, rfl, rfl, rfl⟩

theorem appendCandidate_outcome (hConsistent : db.Consistent format)
    (candidateId strategyId expected : String) (record : RevisionRecord Source)
    (canonicalJson : String) :
    AdoptionOutcome db candidateId strategyId expected record canonicalJson
      ((appendCandidateRevision format candidateId strategyId expected record canonicalJson).run
        (.persistence "Could not adopt Candidate as a Strategy Revision.") none db db) := by
  unfold appendCandidateRevision
  rw [Script.bind_query, Script.run_read]
  cases hAdoption : db.adoptions.get? candidateId with
  | none => exact .appended hAdoption (append_outcome _ db strategyId expected record canonicalJson _)
  | some adoption =>
      by_cases hOther : adoption.strategyId ≠ strategyId
      · simp only [if_pos hOther]
        exact .lineage hAdoption hOther _
      · have hSame := not_not.mp hOther
        obtain ⟨⟨-, -, -, hBase, -⟩, row, hRow, hOwn⟩ := hConsistent.adopted candidateId adoption hAdoption
        have hOwner := hConsistent.owned _ _ hRow
        rw [hOwn, hSame] at hOwner
        obtain ⟨strategy, hStrategy⟩ := Option.isSome_iff_exists.mp (Dict.get?_isSome_iff.mpr hOwner)
        obtain ⟨adopted, hAdopted, hId, -⟩ := revision_some (hConsistent.readable _ _ hRow)
        have hFound : (db.revisions.get? adoption.revisionId).filter
            (fun row => decide (row.strategyId = strategyId)) = some row := by
          rw [hRow, Option.filter_some, if_pos]
          exact decide_eq_true (hOwn.trans hSame)
        simp only [if_neg hOther, Script.bind_query, Script.run_read, hStrategy, hFound, readRevision,
          hAdopted, Script.pure_eq, Script.bind_done, Script.run_rollback]
        exact .adopted strategy hAdoption (hId.trans (hConsistent.revisionIds _ _ hRow))

/-- Outcomes of a change to a Strategy that is not archived. -/
inductive ChangeOutcome (db : Database) (strategyId : String) (change : StrategyRecord → StrategyRecord) :
    Except ServiceError (Option StrategyRecord) × Database → Prop where
  | failed (error : ServiceError) : ChangeOutcome db strategyId change (.error error, db)
  | declined : ChangeOutcome db strategyId change (.ok none, db)
  | changed {strategy : StrategyRecord} (known : db.strategies.get? strategyId = some strategy) :
      ChangeOutcome db strategyId change (.ok (some (change strategy)),
        { db with strategies := db.strategies.set strategyId (change strategy) })

variable (storage db) in
theorem changeOpen_outcome (strategyId : String) (change : StrategyRecord → StrategyRecord) :
    ChangeOutcome db strategyId change
      ((changeOpen storage strategyId change).run storage none db db) := by
  unfold changeOpen
  rw [Script.bind_query, Script.run_read]
  cases hFound : (db.strategies.get? strategyId).filter
      (fun row => decide (row.archivedAt = none)) with
  | none => exact .declined
  | some strategy =>
      have hKnown := (Option.filter_eq_some_iff.mp hFound).1
      refine execute_cases (.failed _) (fun changed hChanged => ?_)
      rw [Option.some.injEq, updateStrategy_known hKnown] at hChanged
      subst hChanged
      simp only [Script.bind_query]
      refine execute_cases (.failed _) (fun committed hCommitted => ?_)
      obtain rfl := commit_some hCommitted
      simp only [Dict.get?_set_self, Script.pure_eq]
      exact .changed hKnown

/-- Outcomes of the insertion of a Strategy with its first Revision. -/
inductive CreateOutcome (db : Database) (strategy : StrategyRecord) (row : RevisionRow) :
    Except ServiceError Unit × Database → Prop where
  | failed (error : ServiceError) : CreateOutcome db strategy row (.error error, db)
  | created (freshStrategy : db.strategies.get? strategy.id = none)
      (freshRevision : db.revisions.get? row.id = none) :
      CreateOutcome db strategy row (.ok (), { db with
        strategies := db.strategies.set strategy.id { strategy with archivedAt := none }
        revisions := db.revisions.set row.id row })

variable (storage db) in
theorem createStrategy_outcome (strategy : StrategyRecord) (record : RevisionRecord Source)
    (canonicalJson : String) :
    CreateOutcome db strategy (revisionRow record canonicalJson)
      ((createStrategy strategy record canonicalJson).run storage none db db) := by
  refine execute_cases (.failed _) (fun inserted hInserted => ?_)
  refine execute_cases (.failed _) (fun added hAdded => ?_)
  refine execute_cases (.failed _) (fun committed hCommitted => ?_)
  obtain ⟨hFreshStrategy, rfl⟩ := insertStrategy_some hInserted
  obtain ⟨hFreshRevision, rfl⟩ := insertRevision_some hAdded
  obtain rfl := commit_some hCommitted
  exact .created hFreshStrategy hFreshRevision

/-- Outcomes of the insertion of a Candidate. -/
inductive ProposeOutcome (db : Database) (candidate : CandidateRow) :
    Except ServiceError Unit × Database → Prop where
  | failed (error : ServiceError) : ProposeOutcome db candidate (.error error, db)
  | proposed (fresh : db.candidates.get? candidate.id = none) :
      ProposeOutcome db candidate
        (.ok (), { db with candidates := db.candidates.set candidate.id candidate })

variable (storage db) in
theorem create_outcome (candidate : CandidateRow) :
    ProposeOutcome db candidate
      ((SQLiteCandidateRepository.create candidate).run storage none db db) := by
  refine execute_cases (.failed _) (fun inserted hInserted => ?_)
  refine execute_cases (.failed _) (fun committed hCommitted => ?_)
  obtain ⟨hFresh, rfl⟩ := insertCandidate_some hInserted
  obtain rfl := commit_some hCommitted
  exact .proposed hFresh

end Scripts

end RuleTrade
