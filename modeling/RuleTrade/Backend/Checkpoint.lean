import RuleTrade.Backend.TemporalBoundary
import Mathlib

/-! Checkpoints of a temporal run: the evidence a boundary emits, its decoding,
its acceptance, and its import into a fresh algorithm. -/

namespace RuleTrade

open Library

section Texts

/-- Pieces of a text between separators. -/
def splitText (separator : Char) (text : String) : List String :=
  (text.toList.splitOn separator).map String.ofList

/-- A text cut at the first separator, or the whole text. -/
def splitOnce (separator : Char) (text : String) : List String :=
  match text.toList.dropWhile (· ≠ separator) with
  | [] => [text]
  | _ :: after => [String.ofList (text.toList.takeWhile (· ≠ separator)), String.ofList after]

/-- Rows as evidence prints them. -/
def pairsText (rows : List (String × String)) : String :=
  String.intercalate "," (rows.map (fun row => row.1 ++ "=" ++ row.2))

/-- A map as evidence prints it, in order of its keys. -/
def dictText {α : Type} (print : α → String) (d : Dict String α) : String :=
  pairsText ((Sequence.sortBy Prod.fst d.entries).map (fun row => (row.1, print row.2)))

end Texts

/-- Fields of the checkpoint evidence of a boundary. -/
structure CheckpointEvidence where
  schemaVersion : String
  profile : LeanTemporalProfile
  strategyIdentity : String
  checkpointIdentity : String
  snapshotId : String
  clock : String
  operatorVersions : String
  cutoff : CalendarDate
  boundaryIndex : String
  assetUniverse : String
  statementOrder : String
  state : String
  events : String
  eventTruths : String
  eventCounts : String
  stateEnteredCutoffs : String
  memory : String
  memoryCaptureCutoffs : String
  memoryValueIds : String
  lastPolicyTarget : String
  portfolioTarget : String
  activeWeekKey : Option Nat
  activeWeekClose : String
  activeWeekCutoff : Option CalendarDate
  completedWeeklyClose : String
  completedWeeklySourceCutoff : Option CalendarDate
  completedWeeklyAvailableCutoff : Option CalendarDate

/-- A row of a decoded map. Decoding leaves lists and loading leaves tuples, and
a list equals no tuple. -/
inductive PairRow where
  | list (parts : List String)
  | tuple (parts : List String)
  deriving DecidableEq, Repr

def PairRow.parts : PairRow → List String
  | .list parts | .tuple parts => parts

def PairRow.toTuple (row : PairRow) : PairRow := .tuple row.parts

structure LeanTemporalCheckpoint where
  schemaVersion : String
  profile : LeanTemporalProfile
  strategyIdentity : String
  checkpointIdentity : String
  snapshotId : String
  clockId : String
  cutoff : CalendarDate
  boundaryIndex : Int
  operatorVersions : List PairRow
  assetUniverse : List String
  statementOrder : List String
  state : List PairRow
  stateEnteredCutoffs : List (String × Int)
  eventCutoffs : List (String × Int)
  eventTruths : List PairRow
  eventCounts : List (String × Int)
  memory : List (String × ℚ)
  memoryCaptureCutoffs : List (String × Int)
  memoryValueIds : List PairRow
  lastPolicyTarget : String
  activeWeekKey : Option Nat
  activeWeekClose : Option ℚ
  activeWeekCutoff : Option CalendarDate
  completedWeeklyClose : Option ℚ
  completedWeeklySourceCutoff : Option CalendarDate
  completedWeeklyAvailableCutoff : Option CalendarDate
  portfolioTarget : String
  integrityHash : String := ""

/-- Exceptions of decoding and acceptance. Only the first is the checkpoint's own. -/
inductive CheckpointError where
  | rejected (message : String)
  | valueError
  | decimalInvalid
  deriving DecidableEq, Repr

/-- What a checkpoint passes through: the numbers of the generated code, how a
printed decimal is read, and the hash of a sealed document. -/
structure CheckpointCodec where
  numbers : GeneratedNumbers
  parse : String → Option ℚ
  digest : LeanTemporalCheckpoint → String

section Evidence

variable (codec : CheckpointCodec) (plan : LeanPlan) (program : LeanTemporalProgram)

def checkpointSchema : String := "ruletrade-temporal-checkpoint@1"

def LeanTemporalProgram.universeOrAnchor : List String :=
  if program.assetUniverse = [] then [program.anchorSymbol] else program.assetUniverse

def LeanTemporalProgram.statementIds : List String :=
  program.events.map LeanTemporalEvent.statementId ++ [program.policyStatementId]

/-- A close as evidence prints it. -/
def closeText (close : Option ℚ) : String := (close.map codec.numbers.text).getD ""

/-- Evidence emitted at the end of a boundary. -/
def checkpointEvidence (snapshotId : String) (cutoff : CalendarDate) (g : GeneratedState) :
    CheckpointEvidence where
  schemaVersion := checkpointSchema
  profile := program.profile
  strategyIdentity := plan.strategyIdentity
  checkpointIdentity := program.checkpointIdentity
  snapshotId := snapshotId
  clock := program.clockId
  operatorVersions := pairsText program.operatorVersions
  cutoff := cutoff
  boundaryIndex := g.boundaryIndex.repr
  assetUniverse := String.intercalate "," program.universeOrAnchor
  statementOrder := String.intercalate "," program.statementIds
  state := dictText id g.state
  events := dictText Int.repr g.eventCutoffs
  eventTruths := dictText Truth.text g.eventTruth
  eventCounts := dictText Int.repr g.eventCounts
  stateEnteredCutoffs := dictText Int.repr g.stateEnteredCutoffs
  memory := dictText codec.numbers.text g.memory
  memoryCaptureCutoffs := dictText Int.repr g.memoryCaptureCutoffs
  memoryValueIds := dictText id g.memoryValueIds
  lastPolicyTarget := g.lastPolicyTarget
  portfolioTarget := g.lastPolicyTarget
  activeWeekKey := g.weekly.activeWeekKey
  activeWeekClose := closeText codec g.weekly.activeWeekClose
  activeWeekCutoff := g.weekly.activeWeekCutoff
  completedWeeklyClose := closeText codec g.weekly.completedClose
  completedWeeklySourceCutoff := g.weekly.completedSourceCutoff
  completedWeeklyAvailableCutoff := g.weekly.completedAvailableCutoff

end Evidence

section Decoding

variable (codec : CheckpointCodec)

/-- Rows of a comma and equals encoding, sorted. -/
def csv (text : String) : List PairRow :=
  (Sequence.sortBy id (((splitText ',' text).filter (· ≠ "")).map (splitOnce '='))).map .list

def decodeFailed : CheckpointError := .rejected "checkpoint_decode_failed"

/-- A row whose second part is read. -/
def readRow {α : Type} (read : String → Option α) (row : PairRow) :
    Except CheckpointError (String × α) :=
  match row.parts with
  | [key, item] =>
      match read item with
      | some value => .ok (key, value)
      | none => .error decodeFailed
  | _ => .error decodeFailed

def decodeIndex (text : String) : Except CheckpointError Int :=
  match text.toInt? with
  | some index => .ok index
  | none => .error decodeFailed

def integerPairs (text : String) : Except CheckpointError (List (String × Int)) :=
  (csv text).mapM (readRow String.toInt?)

def decimalPairs (text : String) : Except CheckpointError (List (String × ℚ)) :=
  (csv text).mapM (readRow codec.parse)

/-- A printed close. An empty text is no close. -/
def decodeClose (text : String) : Except CheckpointError (Option ℚ) :=
  if text = "" then .ok none
  else match codec.parse text with
    | some close => .ok (some close)
    | none => .error .decimalInvalid

/-- Rows in the order of their parts. -/
def sortedRows (rows : List PairRow) : List PairRow := Sequence.sortBy PairRow.parts rows

/-- Pairs by key, and then by value. -/
def sortedPairs {α : Type} [LE α] [DecidableLE α] (rows : List (String × α)) :
    List (String × α) :=
  Sequence.sortBy Prod.fst (Sequence.sortBy Prod.snd rows)

/-- A checkpoint with every map sorted. -/
def LeanTemporalCheckpoint.normalized (c : LeanTemporalCheckpoint) : LeanTemporalCheckpoint :=
  { c with
    operatorVersions := sortedRows c.operatorVersions
    state := sortedRows c.state
    stateEnteredCutoffs := sortedPairs c.stateEnteredCutoffs
    eventCutoffs := sortedPairs c.eventCutoffs
    eventTruths := sortedRows c.eventTruths
    eventCounts := sortedPairs c.eventCounts
    memory := sortedPairs c.memory
    memoryCaptureCutoffs := sortedPairs c.memoryCaptureCutoffs
    memoryValueIds := sortedRows c.memoryValueIds }

/-- A checkpoint whose rows are tuples. -/
def LeanTemporalCheckpoint.tupled (c : LeanTemporalCheckpoint) : LeanTemporalCheckpoint :=
  { c with
    operatorVersions := c.operatorVersions.map PairRow.toTuple
    state := c.state.map PairRow.toTuple
    eventTruths := c.eventTruths.map PairRow.toTuple
    memoryValueIds := c.memoryValueIds.map PairRow.toTuple }

/-- Hash of the document of a checkpoint without its own hash. Documents write
lists and tuples alike. -/
def checkpointIntegrityHash (c : LeanTemporalCheckpoint) : String :=
  codec.digest { c.normalized.tupled with integrityHash := "" }

def sealCheckpoint (c : LeanTemporalCheckpoint) : LeanTemporalCheckpoint :=
  { c.normalized with integrityHash := checkpointIntegrityHash codec c.normalized }

def checkpointFromEvidence (record : CheckpointEvidence) :
    Except CheckpointError LeanTemporalCheckpoint := do
  let boundaryIndex ← decodeIndex record.boundaryIndex
  let stateEnteredCutoffs ← integerPairs record.stateEnteredCutoffs
  let eventCutoffs ← integerPairs record.events
  let eventCounts ← integerPairs record.eventCounts
  let memory ← decimalPairs codec record.memory
  let memoryCaptureCutoffs ← integerPairs record.memoryCaptureCutoffs
  let activeWeekClose ← decodeClose codec record.activeWeekClose
  let completedWeeklyClose ← decodeClose codec record.completedWeeklyClose
  .ok (sealCheckpoint codec {
    schemaVersion := record.schemaVersion
    profile := record.profile
    strategyIdentity := record.strategyIdentity
    checkpointIdentity := record.checkpointIdentity
    snapshotId := record.snapshotId
    clockId := record.clock
    cutoff := record.cutoff
    boundaryIndex := boundaryIndex
    operatorVersions := csv record.operatorVersions
    assetUniverse := (splitText ',' record.assetUniverse).filter (· ≠ "")
    statementOrder := (splitText ',' record.statementOrder).filter (· ≠ "")
    state := csv record.state
    stateEnteredCutoffs := stateEnteredCutoffs
    eventCutoffs := eventCutoffs
    eventTruths := csv record.eventTruths
    eventCounts := eventCounts
    memory := memory
    memoryCaptureCutoffs := memoryCaptureCutoffs
    memoryValueIds := csv record.memoryValueIds
    lastPolicyTarget := record.lastPolicyTarget
    activeWeekKey := record.activeWeekKey
    activeWeekClose := activeWeekClose
    activeWeekCutoff := record.activeWeekCutoff
    completedWeeklyClose := completedWeeklyClose
    completedWeeklySourceCutoff := record.completedWeeklySourceCutoff
    completedWeeklyAvailableCutoff := record.completedWeeklyAvailableCutoff
    portfolioTarget := record.portfolioTarget })

/-- The document of a checkpoint. It writes rows without telling lists from
tuples, and reading it makes them tuples. -/
def serializeCheckpoint (c : LeanTemporalCheckpoint) : LeanTemporalCheckpoint :=
  (sealCheckpoint codec c).tupled

def deserializeCheckpoint (document : LeanTemporalCheckpoint) :
    Except CheckpointError LeanTemporalCheckpoint :=
  if document.integrityHash ≠ checkpointIntegrityHash codec document then
    .error (.rejected "checkpoint_integrity_mismatch")
  else .ok { document.normalized with integrityHash := document.integrityHash }

end Decoding

section Acceptance

variable (codec : CheckpointCodec) (program : LeanTemporalProgram)

/-- Keys and values of rows, all of which must be pairs. -/
def rowPairs (rows : List PairRow) : Except CheckpointError (List (String × String)) :=
  rows.mapM (fun row => match row.parts with
    | [key, value] => .ok (key, value)
    | _ => .error .valueError)

def keysOf {α : Type} (pairs : List (String × α)) : List String := pairs.map Prod.fst

/-- Two lists with the same members. -/
def sameMembers (left right : List String) : Bool := left ⊆ right && right ⊆ left

/-- Memories an Event captures. -/
def LeanTemporalEvent.memoryIds (event : LeanTemporalEvent) : List String :=
  event.actions.filterMap (fun action => match action with
    | .remember _ memoryId _ => if memoryId = "" then none else some memoryId
    | .transition _ _ _ _ => none)

def requireOr (condition : Bool) (message : String) : Except CheckpointError PUnit :=
  if condition then .ok () else .error (.rejected message)

/-- A checkpoint belongs to the program it is resumed under. -/
def checkIdentity (c : LeanTemporalCheckpoint) (strategyIdentity snapshotId : String)
    (resumeStart : CalendarDate) : Except CheckpointError PUnit := do
  requireOr (c.schemaVersion = checkpointSchema) "checkpoint_schema_incompatible"
  requireOr (c.integrityHash = checkpointIntegrityHash codec c) "checkpoint_integrity_mismatch"
  requireOr (c.strategyIdentity = strategyIdentity) "checkpoint_strategy_mismatch"
  requireOr (c.checkpointIdentity = program.checkpointIdentity) "checkpoint_semantic_hash_mismatch"
  requireOr (c.profile = program.profile) "checkpoint_profile_mismatch"
  requireOr (c.snapshotId = snapshotId) "checkpoint_snapshot_mismatch"
  requireOr (c.clockId = program.clockId) "checkpoint_clock_mismatch"
  requireOr (c.operatorVersions =
      (sortedPairs program.operatorVersions).map (fun row => PairRow.tuple [row.1, row.2]))
    "checkpoint_operator_version_mismatch"
  requireOr (c.assetUniverse = program.universeOrAnchor) "checkpoint_asset_universe_mismatch"
  requireOr (c.statementOrder = program.statementIds) "checkpoint_statement_order_mismatch"
  requireOr (c.cutoff.toOrdinal < resumeStart.toOrdinal) "checkpoint_is_not_before_resume_start"

/-- The maps of a checkpoint are complete, and none of them is from the future. -/
def checkMaps (c : LeanTemporalCheckpoint) : Except CheckpointError PUnit := do
  let eventIds := program.events.map LeanTemporalEvent.semanticId
  let truths ← rowPairs c.eventTruths
  requireOr (keysOf truths ⊆ eventIds) "checkpoint_unknown_event"
  requireOr (keysOf c.eventCutoffs ⊆ eventIds) "checkpoint_unknown_event_history"
  requireOr (truths.all (fun row => (Truth.ofText? row.2).isSome)) "checkpoint_event_truth_invalid"
  let state ← rowPairs c.state
  requireOr (sameMembers (keysOf state) (program.initialState.map Prod.fst))
    "checkpoint_state_incomplete"
  requireOr (keysOf c.memory ⊆ program.events.flatMap LeanTemporalEvent.memoryIds)
    "checkpoint_unknown_memory"
  requireOr (sameMembers (keysOf c.memory) (keysOf c.memoryCaptureCutoffs))
    "checkpoint_memory_capture_incomplete"
  let valueIds ← rowPairs c.memoryValueIds
  requireOr (sameMembers (keysOf c.memory) (keysOf valueIds)) "checkpoint_memory_identity_incomplete"
  requireOr ((program.events.filter (fun event =>
      event.semanticId ∈ keysOf c.eventCutoffs)).flatMap LeanTemporalEvent.memoryIds ⊆
        keysOf c.memory) "checkpoint_required_memory_missing"
  requireOr (c.eventCutoffs.all (fun row => row.2 ≤ c.boundaryIndex)) "checkpoint_future_event"
  requireOr (c.memoryCaptureCutoffs.all (fun row => row.2 ≤ c.boundaryIndex))
    "checkpoint_future_memory"

def validateCheckpoint (c : LeanTemporalCheckpoint) (strategyIdentity snapshotId : String)
    (resumeStart : CalendarDate) : Except CheckpointError LeanTemporalCheckpoint := do
  checkIdentity codec program c strategyIdentity snapshotId resumeStart
  checkMaps program c
  .ok c

end Acceptance

section Import

variable (codec : CheckpointCodec)

/-- Rows of an accepted checkpoint as a map. -/
def rowDict {α : Type} (read : String → Option α) (rows : List PairRow) : Dict String α :=
  Dict.ofList (rows.filterMap (fun row => match row.parts with
    | [key, value] => (read value).map (key, ·)
    | _ => none))

/-- Fields of an algorithm initialized with an accepted checkpoint. Its windows
are those the warm-up left. -/
def importCheckpoint (c : LeanTemporalCheckpoint) (fresh : GeneratedState) : GeneratedState where
  boundaryIndex := c.boundaryIndex
  state := rowDict some c.state
  memory := Dict.ofList (c.memory.map (fun row => (row.1, codec.numbers.literal row.2)))
  eventCutoffs := Dict.ofList c.eventCutoffs
  eventTruth := rowDict Truth.ofText? c.eventTruths
  eventCounts := Dict.ofList c.eventCounts
  stateEnteredCutoffs := Dict.ofList c.stateEnteredCutoffs
  memoryCaptureCutoffs := Dict.ofList c.memoryCaptureCutoffs
  memoryValueIds := rowDict some c.memoryValueIds
  lastPolicyTarget := c.lastPolicyTarget
  weekly := {
    activeWeekKey := c.activeWeekKey
    activeWeekClose := c.activeWeekClose.map codec.numbers.literal
    activeWeekCutoff := c.activeWeekCutoff
    completedClose := c.completedWeeklyClose.map codec.numbers.literal
    completedSourceCutoff := c.completedWeeklySourceCutoff
    completedAvailableCutoff := c.completedWeeklyAvailableCutoff }
  dailyCloses := fresh.dailyCloses

end Import

section Runs

variable (codec : CheckpointCodec) (plan : LeanPlan) (program : LeanTemporalProgram)

/-- Restart from the checkpoint of a boundary: its evidence is decoded, stored,
loaded, accepted and imported into an algorithm that has warmed up. -/
def resume (snapshotId : String) (cutoff resumeStart : CalendarDate) (g warmed : GeneratedState) :
    Except CheckpointError GeneratedState := do
  let decoded ← checkpointFromEvidence codec
    (checkpointEvidence codec plan program snapshotId cutoff g)
  let loaded ← deserializeCheckpoint codec (serializeCheckpoint codec decoded)
  let accepted ← validateCheckpoint codec program loaded plan.strategyIdentity snapshotId resumeStart
  .ok (importCheckpoint codec accepted warmed)

/-- Runs over sessions in order. Between sessions the process may restart from
a checkpoint, with whatever windows its warm-up leaves. -/
inductive GeneratedRun : List MarketSession → GeneratedState → Prop where
  | start {windows : Dict String (List ℚ)} (hWindows : plan.historySymbols ⊆ windows.keys) :
      GeneratedRun [] { plan.startState program with dailyCloses := windows }
  | session {past : List MarketSession} {g : GeneratedState} (prior : GeneratedRun past g)
      (session : MarketSession) :
      GeneratedRun (past ++ [session]) (onData codec.numbers plan program session g).1
  | restart {past : List MarketSession} {g resumed warmed : GeneratedState}
      {snapshotId : String} {cutoff resumeStart : CalendarDate} (prior : GeneratedRun past g)
      (hWindows : plan.historySymbols ⊆ warmed.dailyCloses.keys)
      (hResumed : resume codec plan program snapshotId cutoff resumeStart g warmed = .ok resumed) :
      GeneratedRun past resumed

end Runs

end RuleTrade
