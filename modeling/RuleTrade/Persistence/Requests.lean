import RuleTrade.Persistence.Strategies

/-! Requests to the Strategy and Candidate services. Each runs its transactions
one after the other, with whatever other clients do in between. -/

namespace RuleTrade

open Library

/-- What the environment decides at a transaction: whether storage fails, and
how far the Run of a Candidate is. -/
structure Weather where
  budget : Option Nat := none
  candidateRun : Option BacktestRunStatus := none
  deriving DecidableEq

abbrev Service (α : Type) := ExceptT ServiceError (Task Database Weather) α

/-- One transaction of a service. -/
def transaction {ρ : Type} (storage : ServiceError) (body : Script Database ServiceError ρ ρ) :
    Service ρ :=
  ExceptT.mk (Task.atomically (fun weather db => body.transact storage weather.budget db))

/-- A step that touches no table. -/
def settle {α : Type} (outcome : Except ServiceError α) : Service α := ExceptT.mk (.done outcome)

/-- A Revision accepted or found, with its Strategy. -/
structure SaveRevisionResponse (Source : Type) where
  created : Bool
  strategy : StrategyRecord
  revision : RevisionRecord Source

structure StrategyDetail (Source : Type) where
  strategy : StrategyRecord
  currentRevision : RevisionRecord Source

namespace StrategyService

open SQLiteStrategyRepository

variable {Raw Source : Type} (format : SourceFormat Raw Source)

def requireStrategy (strategyId : String) : Service StrategyRecord := do
  let found ← transaction (.persistence "Could not read Strategy.") (getStrategy strategyId)
  match found with
  | none => settle (.error (.strategyNotFound "Strategy was not found."))
  | some strategy => pure strategy

/-- The Revision a Strategy points at. -/
def currentRevision (strategyId revisionId : String) : Service (RevisionRecord Source) := do
  let found ← transaction (.persistence "Could not read Strategy Revision.")
    (SQLiteStrategyRepository.getRevision format strategyId revisionId)
  match found with
  | none => settle (.error (.persistence "Strategy current Revision is missing."))
  | some record => pure record

def getStrategy (strategyId : String) : Service (StrategyDetail Source) := do
  let strategy ← requireStrategy strategyId
  let record ← currentRevision format strategyId strategy.currentRevisionId
  pure ⟨strategy, record⟩

def getRevisionById (revisionId : String) : Service (RevisionRecord Source) := do
  let found ← transaction (.persistence "Could not read Strategy Revision.")
    (SQLiteStrategyRepository.getRevisionById format revisionId)
  match found with
  | none => settle (.error (.revisionNotFound "Strategy Revision was not found."))
  | some record => pure record

/-- Semantic checks of a source that is read already. -/
def validateParsed (source : Source) : Except ServiceError Source :=
  match format.issues source with
  | [] => .ok source
  | issues => .error (.invalidStrategySource issues)

def validateSource (raw : Raw) : Except ServiceError Source :=
  match format.parse raw with
  | .error issues => .error (.invalidStrategySource issues)
  | .ok source => validateParsed format source

/-- The Revision of a request, before it is stored. -/
def draft (revisionId strategyId : String) (parent : Option String) (source : Source)
    (timestamp : String) : RevisionRecord Source where
  id := revisionId
  strategyId := strategyId
  parentRevisionId := parent
  canonicalStrategy := source
  sourceHash := format.hash source
  schemaVersion := format.apiVersion source
  createdAt := timestamp

def createStrategy (name : String) (raw : Raw) (timestamp strategyId revisionId : String) :
    Service (StrategyDetail Source) := do
  let canonical ← settle (validateSource format raw)
  let strategy : StrategyRecord :=
    { id := strategyId, name := name, createdAt := timestamp, updatedAt := timestamp
      currentRevisionId := revisionId }
  let record := draft format revisionId strategyId none canonical timestamp
  transaction (.persistence "Could not create Strategy.")
    (SQLiteStrategyRepository.createStrategy strategy record (format.serialize canonical))
  pure ⟨strategy, record⟩

/-- What a result of the repository means for the request. -/
def answer (archivedMessage : String) (result : AppendResult Source) :
    Except ServiceError (SaveRevisionResponse Source) :=
  match result.status, result.strategy, result.revision with
  | .notFound, _, _ => .error (.strategyNotFound "Strategy was not found.")
  | .archived, _, _ => .error (.strategyArchived archivedMessage)
  | .stale, some strategy, _ => .error (.staleRevision strategy.currentRevisionId)
  | .stale, none, _ => .error .assertionFailed
  | status, some strategy, some record => .ok ⟨status = .created, strategy, record⟩
  | _, _, _ => .error .assertionFailed

def saveRevision (strategyId expectedParentRevisionId : String) (raw : Raw)
    (timestamp revisionId : String) : Service (SaveRevisionResponse Source) := do
  let canonical ← settle (validateSource format raw)
  let record := draft format revisionId strategyId (some expectedParentRevisionId) canonical timestamp
  let result ← transaction (.persistence "Could not save Strategy Revision.")
    (appendRevision format strategyId expectedParentRevisionId record (format.serialize canonical))
  settle (answer "Archived Strategies cannot accept new Revisions." result)

def adoptCandidateRevision (candidateId strategyId expectedParentRevisionId : String)
    (source : Source) (timestamp revisionId : String) : Service (SaveRevisionResponse Source) := do
  let canonical ← settle (validateParsed format source)
  let record := draft format revisionId strategyId (some expectedParentRevisionId) canonical timestamp
  let result ← transaction (.persistence "Could not adopt Candidate as a Strategy Revision.")
    (appendCandidateRevision format candidateId strategyId expectedParentRevisionId record
      (format.serialize canonical))
  settle (answer "Archived Strategies cannot accept a Candidate." result)

def renameStrategy (strategyId name timestamp : String) : Service (StrategyDetail Source) := do
  let strategy ← requireStrategy strategyId
  if strategy.archivedAt ≠ none then
    settle (.error (.strategyArchived "Archived Strategies cannot be renamed."))
  else do
    let updated ← transaction (.persistence "Could not rename Strategy.")
      (SQLiteStrategyRepository.renameStrategy strategyId name timestamp)
    match updated with
    | none => settle (.error (.strategyArchived "Archived Strategies cannot be renamed."))
    | some updated => do
        let record ← currentRevision format strategyId updated.currentRevisionId
        pure ⟨updated, record⟩

def archiveStrategy (strategyId timestamp : String) : Service StrategyRecord := do
  let strategy ← requireStrategy strategyId
  if strategy.archivedAt ≠ none then pure strategy
  else do
    let archived ← transaction (.persistence "Could not archive Strategy.")
      (SQLiteStrategyRepository.archiveStrategy strategyId timestamp)
    match archived with
    | none => requireStrategy strategyId
    | some archived => pure archived

end StrategyService

namespace CandidateService

variable {Raw Source : Type} (format : SourceFormat Raw Source)

/-- The Candidate with its source. -/
def getCandidate (candidateId : String) : Service (CandidateRow × Source) := do
  let found ← transaction (.candidatePersistence "Could not read Candidate.")
    (SQLiteCandidateRepository.get candidateId)
  match found with
  | none => settle (.error (.candidateNotFound "Candidate was not found."))
  | some candidate =>
      match format.loads candidate.canonicalJson with
      | none => settle (.error .unreadableSource)
      | some source => pure (candidate, source)

/-- How far the Run of the Candidate is; its rows are not among the tables here. -/
def candidateRun : Service BacktestRunStatus :=
  ExceptT.mk (Task.atomically (fun weather db =>
    (if weather.budget = some 0 then
        .error (.backtestRunPersistence "Could not read Candidate Run.")
      else
        match weather.candidateRun with
        | none => .error (.candidateNotFound "Candidate Run was not found.")
        | some status => .ok status, db)))

def adopt (candidateId expectedCurrentRevisionId timestamp revisionId : String) :
    Service (SaveRevisionResponse Source) := do
  let (candidate, source) ← getCandidate format candidateId
  let status ← candidateRun
  if status ≠ .succeeded then
    settle (.error (.candidateRunNotSucceeded
      "Only a successfully completed Candidate can be adopted."))
  else do
    let base ← StrategyService.getRevisionById format candidate.baseRevisionId
    if expectedCurrentRevisionId ≠ candidate.baseRevisionId then
      settle (.error (.candidateAdoptionLineage
        "Candidate adoption must be based on its immutable base Revision."))
    else do
      let detail ← StrategyService.getStrategy format base.strategyId
      if detail.strategy.archivedAt ≠ none then
        settle (.error (.candidateArchivedStrategy "Archived Strategies cannot adopt a Candidate."))
      else do
        let canonical ← settle (StrategyService.validateParsed format source)
        if format.hash canonical ≠ candidate.sourceHash then
          settle (.error (.invalidCandidateChange "Candidate source integrity could not be verified."))
        else
          StrategyService.adoptCandidateRevision format candidate.id base.strategyId
            expectedCurrentRevisionId canonical timestamp revisionId

end CandidateService

/-- Requests of clients, with the time and the ids that are drawn for them. A
proposal stores the source of a new Candidate. -/
inductive Request (Raw Source : Type) where
  | create (name : String) (raw : Raw) (timestamp strategyId revisionId : String)
  | save (strategyId expectedParentRevisionId : String) (raw : Raw) (timestamp revisionId : String)
  | adopt (candidateId expectedCurrentRevisionId timestamp revisionId : String)
  | rename (strategyId name timestamp : String)
  | archive (strategyId timestamp : String)
  | propose (candidateId baseRevisionId : String) (source : Source)

inductive Response (Source : Type) where
  | detail (detail : StrategyDetail Source)
  | saved (response : SaveRevisionResponse Source)
  | archived (strategy : StrategyRecord)
  | proposed

/-- Store a Candidate whose source passes the checks. -/
def CandidateService.propose {Raw Source : Type} (format : SourceFormat Raw Source)
    (candidateId baseRevisionId : String) (source : Source) : Service Unit := do
  let canonical ← settle (StrategyService.validateParsed format source)
  transaction (.candidatePersistence "Could not persist Candidate.")
    (SQLiteCandidateRepository.create
      ⟨candidateId, baseRevisionId, format.serialize canonical, format.hash canonical⟩)

/-- How a request is served. -/
def Request.serve {Raw Source : Type} (format : SourceFormat Raw Source) :
    Request Raw Source → Service (Response Source)
  | .create name raw timestamp strategyId revisionId => do
      let detail ← StrategyService.createStrategy format name raw timestamp strategyId revisionId
      pure (.detail detail)
  | .save strategyId expectedParentRevisionId raw timestamp revisionId => do
      let response ← StrategyService.saveRevision format strategyId expectedParentRevisionId raw
        timestamp revisionId
      pure (.saved response)
  | .adopt candidateId expectedCurrentRevisionId timestamp revisionId => do
      let response ← CandidateService.adopt format candidateId expectedCurrentRevisionId timestamp
        revisionId
      pure (.saved response)
  | .rename strategyId name timestamp => do
      let detail ← StrategyService.renameStrategy format strategyId name timestamp
      pure (.detail detail)
  | .archive strategyId timestamp => do
      let strategy ← StrategyService.archiveStrategy strategyId timestamp
      pure (.archived strategy)
  | .propose candidateId baseRevisionId source => do
      CandidateService.propose format candidateId baseRevisionId source
      pure .proposed

end RuleTrade
