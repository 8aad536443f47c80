import RuleTrade.Library.Dict
import RuleTrade.Library.Transactions

/-! The Strategy database and its transactions: Strategies, their immutable
Revisions, Candidates, and which Candidate became which Revision. -/

namespace RuleTrade

open Library

structure SourceIssue where
  path : String
  message : String
  deriving DecidableEq, Repr

/-- Reading, checking and writing Strategy sources. What is written reads back. -/
structure SourceFormat (Raw Source : Type) where
  parse : Raw → Except (List SourceIssue) Source
  issues : Source → List SourceIssue
  serialize : Source → String
  loads : String → Option Source
  hash : Source → String
  apiVersion : Source → String
  loads_serialize : ∀ source, loads (serialize source) = some source

inductive BacktestRunStatus where
  | pending
  | running
  | succeeded
  | failed
  deriving DecidableEq, Repr

inductive ServiceError where
  | invalidStrategySource (issues : List SourceIssue)
  | strategyNotFound (message : String)
  | revisionNotFound (message : String)
  | strategyArchived (message : String)
  | staleRevision (currentRevisionId : String)
  | persistence (message : String)
  | unreadableSource
  | assertionFailed
  | candidateNotFound (message : String)
  | candidateRunNotSucceeded (message : String)
  | candidateAdoptionLineage (message : String)
  | candidateArchivedStrategy (message : String)
  | invalidCandidateChange (message : String)
  | candidatePersistence (message : String)
  | backtestRunPersistence (message : String)
  deriving DecidableEq, Repr

structure StrategyRecord where
  id : String
  name : String
  createdAt : String
  updatedAt : String
  currentRevisionId : String
  archivedAt : Option String := none
  deriving DecidableEq, Repr

structure RevisionRow where
  id : String
  strategyId : String
  parentRevisionId : Option String
  canonicalJson : String
  sourceHash : String
  schemaVersion : String
  createdAt : String
  deriving DecidableEq, Repr

structure RevisionRecord (Source : Type) where
  id : String
  strategyId : String
  parentRevisionId : Option String
  canonicalStrategy : Source
  sourceHash : String
  schemaVersion : String
  createdAt : String

structure CandidateRow where
  id : String
  baseRevisionId : String
  canonicalJson : String
  sourceHash : String
  deriving DecidableEq, Repr

structure AdoptionRow where
  candidateId : String
  strategyId : String
  revisionId : String
  adoptedAt : String
  deriving DecidableEq, Repr

/-- Tables by their primary keys. -/
structure Database where
  strategies : Dict String StrategyRecord
  revisions : Dict String RevisionRow
  candidates : Dict String CandidateRow
  adoptions : Dict String AdoptionRow
  deriving DecidableEq

namespace Database

def empty : Database := ⟨Dict.empty, Dict.empty, Dict.empty, Dict.empty⟩

/-- The reference to the current Revision is only checked at the commit. -/
def insertStrategy (row : StrategyRecord) (db : Database) : Option Database :=
  if db.strategies.contains row.id then none
  else some { db with strategies := db.strategies.set row.id row }

def insertRevision (row : RevisionRow) (db : Database) : Option Database :=
  if db.revisions.contains row.id || !db.strategies.contains row.strategyId ||
      !row.parentRevisionId.all (fun parent => parent = row.id || db.revisions.contains parent) then
    none
  else some { db with revisions := db.revisions.set row.id row }

def insertCandidate (row : CandidateRow) (db : Database) : Option Database :=
  if db.candidates.contains row.id || !db.revisions.contains row.baseRevisionId then none
  else some { db with candidates := db.candidates.set row.id row }

def insertAdoption (row : AdoptionRow) (db : Database) : Option Database :=
  if db.adoptions.contains row.candidateId ||
      db.adoptions.values.any (fun other => other.revisionId = row.revisionId) ||
      !db.candidates.contains row.candidateId || !db.strategies.contains row.strategyId ||
      !db.revisions.contains row.revisionId then
    none
  else some { db with adoptions := db.adoptions.set row.candidateId row }

/-- Update of the row with the given id. -/
def updateStrategy (id : String) (change : StrategyRecord → StrategyRecord) (db : Database) :
    Database :=
  match db.strategies.get? id with
  | none => db
  | some row => { db with strategies := db.strategies.set id (change row) }

/-- Every Strategy points at a Revision, or the commit fails. -/
def commit (db : Database) : Option Database :=
  if db.strategies.values.all (fun row => db.revisions.contains row.currentRevisionId) then some db
  else none

end Database

inductive AppendStatus where
  | created
  | identical
  | stale
  | notFound
  | archived
  | adopted
  deriving DecidableEq, Repr

structure AppendResult (Source : Type) where
  status : AppendStatus
  strategy : Option StrategyRecord := none
  revision : Option (RevisionRecord Source) := none

namespace SQLiteStrategyRepository

/-- A transaction body over the tables. -/
abbrev Transaction (ρ α : Type) := Script Database ServiceError ρ α

section Reading

variable {Raw Source ρ : Type} (format : SourceFormat Raw Source)

def revision (row : RevisionRow) : Option (RevisionRecord Source) :=
  (format.loads row.canonicalJson).map (fun source =>
    ⟨row.id, row.strategyId, row.parentRevisionId, source, row.sourceHash, row.schemaVersion,
      row.createdAt⟩)

/-- The Revision in a row. A source that does not parse is not caught. -/
def readRevision (row : RevisionRow) : Transaction ρ (RevisionRecord Source) :=
  match revision format row with
  | none => .fail .unreadableSource
  | some record => pure record

def revisionRow (record : RevisionRecord Source) (canonicalJson : String) : RevisionRow where
  id := record.id
  strategyId := record.strategyId
  parentRevisionId := record.parentRevisionId
  canonicalJson := canonicalJson
  sourceHash := record.sourceHash
  schemaVersion := record.schemaVersion
  createdAt := record.createdAt

def getStrategy (strategyId : String) :
    Transaction (Option StrategyRecord) (Option StrategyRecord) :=
  .query (fun db => db.strategies.get? strategyId)

def getRevision (strategyId revisionId : String) :
    Transaction (Option (RevisionRecord Source)) (Option (RevisionRecord Source)) := do
  let row ← .query (fun db => (db.revisions.get? revisionId).filter (fun row =>
    row.strategyId = strategyId))
  match row with
  | none => pure none
  | some row => do
      let record ← readRevision format row
      pure (some record)

def getRevisionById (revisionId : String) :
    Transaction (Option (RevisionRecord Source)) (Option (RevisionRecord Source)) := do
  let row ← .query (fun db => db.revisions.get? revisionId)
  match row with
  | none => pure none
  | some row => do
      let record ← readRevision format row
      pure (some record)

end Reading

section Writing

variable {Raw Source : Type} (format : SourceFormat Raw Source)

def createStrategy (strategy : StrategyRecord) (record : RevisionRecord Source)
    (canonicalJson : String) : Transaction Unit Unit := do
  let storage := ServiceError.persistence "Could not create Strategy."
  .execute storage (Database.insertStrategy { strategy with archivedAt := none })
  .execute storage (Database.insertRevision (revisionRow record canonicalJson))
  .execute storage Database.commit

/-- What both ways to append a Revision share: check the Strategy, insert the
Revision, move the pointer, do what else is to be recorded, and commit. -/
def append (storage : ServiceError) (strategyId expectedParentRevisionId : String)
    (record : RevisionRecord Source) (canonicalJson : String)
    (further : Database → Option Database) : Transaction (AppendResult Source) (AppendResult Source) := do
  let strategyRow ← .query (fun db => db.strategies.get? strategyId)
  match strategyRow with
  | none => .rollback { status := .notFound }
  | some strategy => do
      let currentRow ← .query (fun db => db.revisions.get? strategy.currentRevisionId)
      match currentRow with
      | none => .fail (.persistence "Strategy current Revision is missing.")
      | some currentRow => do
          let current ← readRevision format currentRow
          if strategy.archivedAt ≠ none then
            .rollback ⟨.archived, some strategy, some current⟩
          else if strategy.currentRevisionId ≠ expectedParentRevisionId then
            .rollback ⟨.stale, some strategy, some current⟩
          else if currentRow.canonicalJson = canonicalJson then
            .rollback ⟨.identical, some strategy, some current⟩
          else do
            .execute storage (Database.insertRevision (revisionRow record canonicalJson))
            .execute storage (fun db => some (db.updateStrategy strategyId (fun row =>
              { row with currentRevisionId := record.id, updatedAt := record.createdAt })))
            .execute storage further
            .execute storage Database.commit
            let updated :=
              { strategy with currentRevisionId := record.id, updatedAt := record.createdAt }
            pure ⟨.created, some updated, some record⟩

def appendRevision (strategyId expectedParentRevisionId : String) (record : RevisionRecord Source)
    (canonicalJson : String) : Transaction (AppendResult Source) (AppendResult Source) :=
  append format (.persistence "Could not save Strategy Revision.") strategyId
    expectedParentRevisionId record canonicalJson some

/-- Append the source of a Candidate once, and keep which Revision it became. -/
def appendCandidateRevision (candidateId strategyId expectedParentRevisionId : String)
    (record : RevisionRecord Source) (canonicalJson : String) :
    Transaction (AppendResult Source) (AppendResult Source) := do
  let existing ← .query (fun db => db.adoptions.get? candidateId)
  match existing with
  | some adoption =>
      if adoption.strategyId ≠ strategyId then
        .fail (.persistence "Candidate adoption Strategy lineage is invalid.")
      else do
        let strategyRow ← .query (fun db => db.strategies.get? strategyId)
        let adoptedRow ← .query (fun db => (db.revisions.get? adoption.revisionId).filter (fun row =>
          row.strategyId = strategyId))
        match strategyRow, adoptedRow with
        | some strategy, some row => do
            let adopted ← readRevision format row
            .rollback ⟨.adopted, some strategy, some adopted⟩
        | _, _ => .fail (.persistence "Candidate adoption history is incomplete.")
  | none =>
      append format (.persistence "Could not adopt Candidate as a Strategy Revision.") strategyId
        expectedParentRevisionId record canonicalJson
        (Database.insertAdoption ⟨candidateId, strategyId, record.id, record.createdAt⟩)

/-- Change of a Strategy that is not archived, and the row it leaves. -/
def changeOpen (storage : ServiceError) (strategyId : String)
    (change : StrategyRecord → StrategyRecord) :
    Transaction (Option StrategyRecord) (Option StrategyRecord) := do
  let row ← .query (fun db => (db.strategies.get? strategyId).filter (fun row =>
    row.archivedAt = none))
  match row with
  | none => pure none
  | some _ => do
      .execute storage (fun db => some (db.updateStrategy strategyId change))
      let changed ← .query (fun db => db.strategies.get? strategyId)
      .execute storage Database.commit
      pure changed

def renameStrategy (strategyId name updatedAt : String) :
    Transaction (Option StrategyRecord) (Option StrategyRecord) :=
  changeOpen (.persistence "Could not rename Strategy.") strategyId
    (fun row => { row with name := name, updatedAt := updatedAt })

def archiveStrategy (strategyId archivedAt : String) :
    Transaction (Option StrategyRecord) (Option StrategyRecord) :=
  changeOpen (.persistence "Could not archive Strategy.") strategyId
    (fun row => { row with archivedAt := some archivedAt, updatedAt := archivedAt })

end Writing

end SQLiteStrategyRepository

namespace SQLiteCandidateRepository

def create (candidate : CandidateRow) : Script Database ServiceError Unit Unit := do
  let storage := ServiceError.candidatePersistence "Could not persist Candidate."
  .execute storage (Database.insertCandidate candidate)
  .execute storage Database.commit

def get (candidateId : String) :
    Script Database ServiceError (Option CandidateRow) (Option CandidateRow) :=
  .query (fun db => db.candidates.get? candidateId)

end SQLiteCandidateRepository

end RuleTrade
