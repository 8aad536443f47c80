import RuleTrade.Editor.RevisionConflict

/-! Session of the Strategy editor. Handlers hold the values of the render they were
started in while their requests are on the way, and answers come in any order. -/

namespace RuleTrade

open Library

/-- A document with the accepted edits it was derived through. -/
structure Draft where
  document : Json
  edits : List Nat := []
  deriving DecidableEq

inductive EditorStatus where
  | saved
  | updating
  | invalid
  | unfinished
  deriving DecidableEq, Repr

/-- A stored Revision, its id being its place in the store. -/
structure StoredRevision where
  id : Nat
  document : Json
  deriving DecidableEq

structure RevisionConflict where
  current : StoredRevision
  merged : Option Draft
  deriving DecidableEq

section Operations

/-- Field of a value, absent when the value is not an object. -/
def fieldAt (value : Option Json) (key : String) : Option Json :=
  match value with
  | some (.object fields) => fieldOf fields key
  | _ => none

def itemsAt (value : Option Json) : List Json :=
  match value with
  | some (.array items) => items
  | _ => []

/-- A value that is there and not null. -/
def present (value : Option Json) : Option Json := value.filter (· ≠ .null)

/-- First of some items whose id none of the others has. -/
def unmatched (items others : List Json) : Option Json :=
  items.find? (fun item =>
    !others.any (fun other => fieldAt (some other) "id" = fieldAt (some item) "id"))

def authoringOperation (kind : String) (parameters : List (String × Option Json)) : Json :=
  .object (("kind", .text kind) ::
    parameters.filterMap (fun parameter => parameter.2.map (parameter.1, ·)))

/-- First field of a Selection that differs from the recorded one, as an edit. -/
def selectionOperation (canonical target : Option Json) : Option Json :=
  [("universe_id", "set_selection_universe", "universe_id"),
    ("eligibility", "set_eligibility_condition", "condition"),
    ("ranking", "set_ranking_value", "value"),
    ("direction", "set_ranking_direction", "direction"),
    ("count", "set_selection_count", "count"),
    ("shortage_policy", "set_shortage_policy", "shortage_policy"),
    ("fallback_asset", "set_selection_fallback", "fallback_asset")].findSome?
    (fun (field, kind, parameter) =>
      if fieldAt target field = fieldAt canonical field then none
      else some (authoringOperation kind [(parameter, fieldAt target field)]))

/-- Edit that takes the document a step towards a recorded one. -/
def historyOperation (canonical target : Json) : Option Json :=
  let definitions := fieldAt (some canonical) "definitions"
  let targetDefinitions := fieldAt (some target) "definitions"
  let groups := itemsAt (fieldAt definitions "groups")
  let targetGroups := itemsAt (fieldAt targetDefinitions "groups")
  let assetSets := itemsAt (fieldAt definitions "asset_sets")
  let targetAssetSets := itemsAt (fieldAt targetDefinitions "asset_sets")
  let assetsOf (sets : List Json) (id : Option Json) : Option Json :=
    fieldAt (sets.find? (fun item => fieldAt (some item) "id" = id)) "assets"
  let changedAssetSet := targetAssetSets.find? (fun item =>
    fieldAt (some item) "assets" ≠ assetsOf assetSets (fieldAt (some item) "id"))
  let program := present (fieldAt (some canonical) "program")
  let targetProgram := present (fieldAt (some target) "program")
  let selection := present (fieldAt (some canonical) "selection")
  let targetSelection := present (fieldAt (some target) "selection")
  match unmatched groups targetGroups, unmatched targetGroups groups, changedAssetSet with
  | some removed, _, _ =>
      some (authoringOperation "remove_program_investment"
        [("investment_id", fieldAt (some removed) "id")])
  | none, some added, _ =>
      let assetSet := fieldAt (some added) "asset_set_ref"
      some (authoringOperation "add_program_investment"
        [("investment_id", fieldAt (some added) "id"), ("name", fieldAt (some added) "name"),
          ("asset_set_id", assetSet),
          ("assets", (present (assetsOf targetAssetSets assetSet)).orElse
            (fun _ => some (.array [.text "SPY"])))])
  | none, none, some changed =>
      if program.isSome then
        some (authoringOperation "set_program_asset_set"
          [("asset_set_id", fieldAt (some changed) "id"),
            ("assets", fieldAt (some changed) "assets")])
      else if targetProgram.isSome then
        some (authoringOperation "set_semantic_program" [("program", targetProgram)])
      else if targetSelection.isSome && selection.isSome then
        selectionOperation selection targetSelection
      else none
  | none, none, none =>
      if targetProgram.isSome then
        some (authoringOperation "set_semantic_program" [("program", targetProgram)])
      else if targetSelection.isSome && selection.isSome then
        selectionOperation selection targetSelection
      else none

end Operations

/-- What the editor asks the backend: source hashes, and the edited Strategy or a
rejection. -/
structure EditorBackend (Hash : Type) where
  sourceHash : Json → Hash
  edited : Json → Json → Option Json

section Session

variable {Hash : Type} [DecidableEq Hash]

/-- Answer to an authoring request, which names the hash of its source. -/
def EditorBackend.applyAuthoring (backend : EditorBackend Hash) (strategy : Json)
    (expectedSourceHash : Hash) (operation : Json) : Option Json :=
  if backend.sourceHash strategy = expectedSourceHash then backend.edited strategy operation
  else none

/-- Values of one render. -/
structure EditorValues (Hash : Type) where
  canonical : Draft
  baseCanonical : Json
  revisionId : Nat
  sourceHash : Hash
  dirty : Bool := false
  status : EditorStatus := .saved
  undoStack : List Draft := []
  redoStack : List Draft := []
  conflict : Option RevisionConflict := none
  deriving DecidableEq

inductive HistoryDirection where
  | undo
  | redo
  deriving DecidableEq, Repr

/-- Handlers that wait for an answer, with the values they hold. -/
inductive Waiting (Hash : Type) where
  | apply (held : EditorValues Hash) (operation : Json) (request : Nat)
  | restore (held : EditorValues Hash) (target : Draft) (direction : HistoryDirection)
      (operation : Json) (request : Nat)
  | save (held : EditorValues Hash) (testing : Bool)
  | saveAnswered (held : EditorValues Hash) (testing : Bool) (answer : Option StoredRevision)
  | latest (held : EditorValues Hash)
  | latestAnswered (held : EditorValues Hash) (current : StoredRevision)
  | prepareApply (held : EditorValues Hash) (operation : Json) (request : Nat)
  | prepareSave (held : EditorValues Hash) (authored : Json) (request : Nat)
  | prepareAnswered (held : EditorValues Hash) (authored : Json) (request : Nat)
      (answer : Option StoredRevision)
  | preflight (held : EditorValues Hash)
  | backtest
  | refresh (held : EditorValues Hash)
  | refreshAnswered (held : EditorValues Hash) (current : StoredRevision)
  deriving DecidableEq

/-- The editor, the requests on the way and the stored Revisions. `accepted` are the
edits whose answers were installed and that were neither undone nor discarded. -/
structure EditorSession (Hash : Type) where
  values : EditorValues Hash
  sequence : Nat := 0
  waiting : List (Waiting Hash) := []
  revisions : List Json
  accepted : List Nat := []
  deriving DecidableEq

namespace EditorSession

/-- The editor as it is opened on the latest of some Revisions. -/
def opened (backend : EditorBackend Hash) (earlier : List Json) (document : Json) :
    EditorSession Hash where
  values :=
    { canonical := { document := document }
      baseCanonical := document
      revisionId := earlier.length
      sourceHash := backend.sourceHash document }
  revisions := earlier ++ [document]

def withStatus (s : EditorSession Hash) (status : EditorStatus) : EditorSession Hash :=
  { s with values := { s.values with status := status } }

def await (s : EditorSession Hash) (task : Waiting Hash) : EditorSession Hash :=
  { s with waiting := task :: s.waiting }

/-- Latest stored Revision. -/
def current (s : EditorSession Hash) : Option StoredRevision :=
  s.revisions.getLast?.map (fun document => ⟨s.revisions.length - 1, document⟩)

/-- The next request number, with the status of a request on the way. -/
def requesting (s : EditorSession Hash) : EditorSession Hash :=
  { s.withStatus .updating with sequence := s.sequence + 1 }

def apply (s : EditorSession Hash) (operation : Json) : EditorSession Hash :=
  s.requesting.await (.apply s.values operation (s.sequence + 1))

def restore (s : EditorSession Hash) (target : Draft) (direction : HistoryDirection) :
    EditorSession Hash :=
  match historyOperation s.values.canonical.document target.document with
  | none => s
  | some operation =>
      s.requesting.await (.restore s.values target direction operation (s.sequence + 1))

/-- Send the values a handler holds to be saved. -/
def persistCommittedRevision (s : EditorSession Hash) (held : EditorValues Hash)
    (testing : Bool) : EditorSession Hash :=
  if held.dirty = false then (if testing then s.await .backtest else s)
  else if held.status ≠ .saved then s
  else (s.withStatus .updating).await (.save held testing)

def run (s : EditorSession Hash) : EditorSession Hash :=
  if s.values.status ≠ .saved then s else s.await (.preflight s.values)

def prepareBlockyTest (s : EditorSession Hash) (operation : Option Json) : EditorSession Hash :=
  match operation with
  | none => s
  | some operation =>
      if s.values.status ≠ .saved then s
      else s.requesting.await (.prepareApply s.values operation (s.sequence + 1))

def refreshConflict (s : EditorSession Hash) : EditorSession Hash :=
  if s.values.conflict.isSome then s.await (.refresh s.values) else s

def reapplyConflict (backend : EditorBackend Hash) (s : EditorSession Hash) :
    EditorSession Hash :=
  match s.values.conflict with
  | some ⟨current, some merged⟩ =>
      { s with values :=
          { s.values with
            canonical := merged
            baseCanonical := current.document
            revisionId := current.id
            sourceHash := backend.sourceHash current.document
            dirty := true
            status := .saved
            conflict := none } }
  | _ => s

def discardConflict (backend : EditorBackend Hash) (s : EditorSession Hash) :
    EditorSession Hash :=
  match s.values.conflict with
  | some ⟨current, _⟩ =>
      { s with
        values :=
          { canonical := { document := current.document }
            baseCanonical := current.document
            revisionId := current.id
            sourceHash := backend.sourceHash current.document }
        accepted := [] }
  | none => s

/-- The conflict of the edits a handler holds with a later Revision. -/
def conflictWith (held : EditorValues Hash) (current : StoredRevision) : RevisionConflict where
  current := current
  merged := (analyzeBuilderRevisionConflict held.baseCanonical held.canonical.document
    current.document).merged.map (fun merged => { document := merged, edits := held.canonical.edits })

/-- Install the answer to an edit. -/
def installEdit (backend : EditorBackend Hash) (s : EditorSession Hash)
    (held : EditorValues Hash) (request : Nat) (strategy : Json) : EditorSession Hash :=
  { s with
    values :=
      { s.values with
        canonical := { document := strategy, edits := request :: held.canonical.edits }
        sourceHash := backend.sourceHash strategy
        dirty := true
        status := .saved
        undoStack := s.values.undoStack ++ [held.canonical]
        redoStack := [] }
    accepted := request :: s.accepted }

/-- Install the answer to an undo or redo. Edits that the recorded document does
not have are undone. -/
def installRestored (backend : EditorBackend Hash) (s : EditorSession Hash)
    (held : EditorValues Hash) (target : Draft) (direction : HistoryDirection)
    (strategy : Json) : EditorSession Hash :=
  { s with
    values :=
      { s.values with
        canonical := { document := strategy, edits := held.canonical.edits }
        sourceHash := backend.sourceHash strategy
        dirty := true
        status := .saved
        undoStack := match direction with
          | .undo => s.values.undoStack.dropLast
          | .redo => s.values.undoStack ++ [held.canonical]
        redoStack := match direction with
          | .undo => s.values.redoStack ++ [held.canonical]
          | .redo => s.values.redoStack.dropLast }
    accepted := s.accepted.filter (· ∈ target.edits) }

/-- Install a stored Revision of a draft. -/
def installRevision (backend : EditorBackend Hash) (s : EditorSession Hash)
    (revision : StoredRevision) (edits : List Nat) : EditorSession Hash :=
  { s with values :=
      { s.values with
        canonical := { document := revision.document, edits := edits }
        baseCanonical := revision.document
        revisionId := revision.id
        sourceHash := backend.sourceHash revision.document
        dirty := false
        status := .saved } }

/-- Store a document as the next Revision, if the expected one is still the latest. -/
def store (s : EditorSession Hash) (expected : Nat) (document : Json) :
    EditorSession Hash × Option StoredRevision :=
  if expected + 1 = s.revisions.length then
    ({ s with revisions := s.revisions ++ [document] }, some ⟨s.revisions.length, document⟩)
  else (s, none)

/-- The backend serves a request, whose answer is then on its way. -/
def serve (s : EditorSession Hash) : Waiting Hash → Option (EditorSession Hash)
  | .save held testing =>
      let (s, answer) := s.store held.revisionId held.canonical.document
      some (s.await (.saveAnswered held testing answer))
  | .prepareSave held authored request =>
      let (s, answer) := s.store held.revisionId authored
      some (s.await (.prepareAnswered held authored request answer))
  | .latest held => s.current.map (fun current => s.await (.latestAnswered held current))
  | .refresh held => s.current.map (fun current => s.await (.refreshAnswered held current))
  | _ => none

/-- A handler goes on with its answer. -/
def deliver (backend : EditorBackend Hash) (s : EditorSession Hash) :
    Waiting Hash → Option (EditorSession Hash)
  | .apply held operation request =>
      if request ≠ s.sequence then some s
      else match backend.applyAuthoring held.canonical.document held.sourceHash operation with
        | some strategy => some (s.installEdit backend held request strategy)
        | none => some (s.withStatus .invalid)
  | .restore held target direction operation request =>
      if request ≠ s.sequence then some s
      else match backend.applyAuthoring held.canonical.document held.sourceHash operation with
        | some strategy => some (s.installRestored backend held target direction strategy)
        | none => some (s.withStatus .invalid)
  | .saveAnswered held testing (some revision) =>
      let s := s.installRevision backend revision held.canonical.edits
      some (if testing then s.await .backtest else s)
  | .saveAnswered held _ none => some (s.await (.latest held))
  | .latestAnswered held current =>
      some { s.withStatus .invalid with
        values := { s.values with
          conflict := some (conflictWith held current), status := .invalid } }
  | .prepareApply held operation request =>
      match backend.applyAuthoring held.canonical.document held.sourceHash operation with
      | some authored =>
          if request ≠ s.sequence then some s
          else some (s.await (.prepareSave held authored request))
      | none => if request ≠ s.sequence then some s else some (s.withStatus .invalid)
  | .prepareAnswered held _ request (some revision) =>
      if request ≠ s.sequence then some s
      else
        let s := s.installRevision backend revision (request :: held.canonical.edits)
        some { s with
          values := { s.values with
            undoStack := s.values.undoStack ++ [held.canonical], redoStack := [] }
          accepted := request :: s.accepted }
  | .prepareAnswered held _ request none =>
      if request ≠ s.sequence then some s else some (s.await (.latest held))
  | .preflight held => some ((s.withStatus .updating).persistCommittedRevision held true)
  | .backtest => some (s.withStatus .saved)
  | .refreshAnswered held current =>
      some { s with values := { s.values with conflict := some (conflictWith held current) } }
  | _ => none

/-- A handler goes on without its answer. -/
def fail (s : EditorSession Hash) : Waiting Hash → EditorSession Hash
  | .apply _ _ request | .restore _ _ _ _ request | .prepareApply _ _ request
  | .prepareSave _ _ request | .prepareAnswered _ _ request _ =>
      if request ≠ s.sequence then s else s.withStatus .invalid
  | .save _ _ | .saveAnswered _ _ _ | .latest _ | .latestAnswered _ _ => s.withStatus .invalid
  | .preflight _ | .backtest => s.withStatus .saved
  | .refresh _ | .refreshAnswered _ _ => s

end EditorSession

/-- What happens next: an action of the user, a request that is served, an answer
that arrives or fails, or a Revision that someone else stores. -/
inductive EditorEvent where
  | apply (operation : Json)
  | undo (target : Draft)
  | redo (target : Draft)
  | save
  | test
  | prepareTest (operation : Option Json)
  | reapply
  | discard
  | refresh
  | working (unfinished : Bool)
  | serve (index : Nat)
  | deliver (index : Nat)
  | fail (index : Nat)
  | storeElsewhere (document : Json)

/-- One step. Undo and redo go to a recorded document, and only a waiting handler can
be served or go on. -/
def EditorSession.step (backend : EditorBackend Hash) (s : EditorSession Hash) :
    EditorEvent → Option (EditorSession Hash)
  | .apply operation => some (s.apply operation)
  | .undo target => if target ∈ s.values.undoStack then some (s.restore target .undo) else none
  | .redo target => if target ∈ s.values.redoStack then some (s.restore target .redo) else none
  | .save => some (s.persistCommittedRevision s.values false)
  | .test => some s.run
  | .prepareTest operation => some (s.prepareBlockyTest operation)
  | .reapply => some (s.reapplyConflict backend)
  | .discard => some (s.discardConflict backend)
  | .refresh => some s.refreshConflict
  | .working unfinished => some (s.withStatus (if unfinished then .unfinished else .saved))
  | .serve index => do
      let task ← s.waiting[index]?
      { s with waiting := s.waiting.eraseIdx index }.serve task
  | .deliver index => do
      let task ← s.waiting[index]?
      { s with waiting := s.waiting.eraseIdx index }.deliver backend task
  | .fail index => do
      let task ← s.waiting[index]?
      some ({ s with waiting := s.waiting.eraseIdx index }.fail task)
  | .storeElsewhere document => some { s with revisions := s.revisions ++ [document] }

end Session

end RuleTrade
