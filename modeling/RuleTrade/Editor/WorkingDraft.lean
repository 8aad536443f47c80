import Mathlib.Data.String.Basic
import RuleTrade.Library.Pruning

/-! The working draft of a Program in the storage of the browser: what is written, and what
is read back without the Portfolio blocks of earlier versions. The text of a stored document
stands for the document that it is parsed to. -/

namespace RuleTrade

open Library (Json)
open Library.Json (Fields)

section Sanitizer

variable (parse : String → Option Json) (numberText : ℚ → String)

def ownField (fields : Fields) (key : String) : Option Json :=
  (fields.find? (fun entry => entry.1 = key)).map Prod.snd

/-- `value?.key`. Only objects have fields. -/
def propertyOf (key : String) : Json → Option Json
  | .object fields => ownField fields key
  | _ => none

mutual

/-- `String(value)`. It throws for an object that has a `toString` of its own. -/
def jsonText : Json → Option String
  | .null => some "null"
  | .bool value => some (if value then "true" else "false")
  | .number value => some (numberText value)
  | .text value => some value
  | .array items => (itemTexts items).map (String.intercalate ",")
  | .object fields =>
      if fields.any (fun entry => entry.1 = "toString") then none else some "[object Object]"

/-- Texts of the items of an array, in which null is empty. -/
def itemTexts : List Json → Option (List String)
  | [] => some []
  | item :: rest =>
      (if item = .null then some "" else jsonText item).bind (fun text =>
        (itemTexts rest).map (text :: ·))

end

/-- The metadata of a block. Data that is malformed has none. -/
def blockMetadata (fields : Fields) : Json :=
  match ownField fields "data" with
  | some (.text data) => (parse data).getD (.object [])
  | _ => .object []

def namesPortfolio (metadata : Json) : Bool :=
  propertyOf "productId" metadata = some (.text "context:portfolio") ||
    propertyOf "productId" metadata = some (.text "portfolio") ||
    propertyOf "definitionId" metadata = some (.text "portfolio")

/-- A context block whose label, as a text, reads portfolio. -/
def isPortfolioContext (text : Json → Option String) (fields : Fields) : Option Bool :=
  if ownField fields "type" = some (.text "rt_context") then
    match (ownField fields "fields").bind (propertyOf "LABEL") with
    | none => some false
    | some .null => some false
    | some label => (text label).map (fun text => text.map Char.toLower = "portfolio")
  else some false

/-- Metadata that is null throws. -/
def isPortfolioBlock (text : Json → Option String) (fields : Fields) : Option Bool :=
  if blockMetadata parse fields = .null then none
  else if namesPortfolio (blockMetadata parse fields) then some true
  else isPortfolioContext text fields

def isPortfolioSerializedBlock : Json → Option Bool
  | .object fields => isPortfolioBlock parse (jsonText numberText) fields
  | _ => some false

/-- The workspace without Portfolio blocks among the items of its arrays. -/
def withoutPortfolioBlockyScaffolding : Option Fields → Option (Option Fields)
  | none => some none
  | some workspace =>
      (Json.pruneFields (isPortfolioSerializedBlock parse numberText) workspace).map some

end Sanitizer

section Storage

inductive ProgramDraftPerspective where
  | guided
  | flow
  | blocky
  | rules
  deriving DecidableEq, Repr

def programWorkingDraftSchema : String := "ruletrade.dev/program-working-draft/v3"

/-- A working draft. Records are given by their entries. -/
structure ProgramDraftDocument where
  strategyKey : String
  status : String := "clean"
  perspectiveDrafts : List (ProgramDraftPerspective × Fields) := []
  canvasBlocks : List (String × Fields) := []
  reusableObjects : Fields := []
  activeGraphRootIds : List String := []
  blocklyWorkspace : Option Fields := none
  blocklyViewport : Option Fields := none
  blockPositions : Fields := []
  flowPositions : Fields := []
  blockConnections : Fields := []
  blockDisclosure : Fields := []
  flowViewport : Option Fields := none
  selectedDraftId : Option String := none
  blockyAddOpen : Bool := false
  pendingObjectInsertion : Option Fields := none
  diagnostics : List Json := []
  updatedAt : String := "1970-01-01T00:00:00.000Z"

def emptyProgramWorkingDraft (strategyKey : String) : ProgramDraftDocument where
  strategyKey := strategyKey

/-- What is stored: some of the fields of a draft, of this or an earlier schema. Fields that
are null are left out, and those that are null in a draft are given or not. -/
structure StoredProgramDraft where
  schema : Option String
  strategyKey : Option String
  status : Option String := none
  perspectiveDrafts : Option (List (ProgramDraftPerspective × Fields)) := none
  concept : Option Fields := none
  canvasBlocks : Option (List (String × Fields)) := none
  reusableObjects : Option Fields := none
  activeGraphRootIds : Option (List String) := none
  blocklyWorkspace : Option Fields := none
  blocklyViewport : Option Fields := none
  blockPositions : Option Fields := none
  flowPositions : Option Fields := none
  blockConnections : Option Fields := none
  blockDisclosure : Option Fields := none
  flowViewport : Option Fields := none
  selectedDraftId : Option String := none
  blockyAddOpen : Option Bool := none
  pendingObjectInsertion : Option Fields := none
  diagnostics : Option (List Json) := none
  updatedAt : Option String := none

/-- What the storage holds under each key. -/
abbrev ProgramDraftStorage := String → Option StoredProgramDraft

def programDraftStorageKey (strategyKey : String) : String :=
  "ruletrade:program-working-draft:" ++ strategyKey

variable (parse : String → Option Json) (numberText : ℚ → String)

def isLegacySchema (schema : Option String) : Bool :=
  schema = some "ruletrade.dev/program-working-draft/v1" ||
    schema = some "ruletrade.dev/program-working-draft/v2"

/-- A canvas block that is not one of the earlier Portfolio. -/
def isProductBlock (entry : String × Fields) : Bool :=
  entry.1 ≠ "context:portfolio" && entry.1 ≠ "portfolio" &&
    ownField entry.2 "definitionId" ≠ some (.text "portfolio")

/-- The drafts of the perspectives, or the one draft of the first schema. -/
def restoredDrafts (stored : StoredProgramDraft) : List (ProgramDraftPerspective × Fields) :=
  match stored.perspectiveDrafts with
  | some (first :: rest) => first :: rest
  | _ => (stored.concept.map (fun concept => [(.blocky, concept)])).getD []

def restoreProgramDraft (strategyKey : String) (stored : StoredProgramDraft) :
    Option ProgramDraftDocument := do
  let workspace ← withoutPortfolioBlockyScaffolding parse numberText stored.blocklyWorkspace
  let empty := emptyProgramWorkingDraft strategyKey
  let canvasBlocks := (stored.canvasBlocks.getD []).filter isProductBlock
  return {
    strategyKey := strategyKey
    status := stored.status.getD empty.status
    perspectiveDrafts := restoredDrafts stored
    canvasBlocks := canvasBlocks
    reusableObjects := stored.reusableObjects.getD []
    activeGraphRootIds := (stored.activeGraphRootIds.getD []).filter (fun id =>
      canvasBlocks.any (fun entry => entry.1 = id))
    blocklyWorkspace := workspace
    blocklyViewport := stored.blocklyViewport
    blockPositions := stored.blockPositions.getD []
    flowPositions := stored.flowPositions.getD []
    blockConnections := stored.blockConnections.getD []
    blockDisclosure := stored.blockDisclosure.getD []
    flowViewport := stored.flowViewport
    selectedDraftId := stored.selectedDraftId
    blockyAddOpen := stored.blockyAddOpen.getD false
    pendingObjectInsertion := stored.pendingObjectInsertion
    diagnostics := stored.diagnostics.getD []
    updatedAt := stored.updatedAt.getD empty.updatedAt }

/-- What throws is caught, and the draft is the empty one. -/
def loadProgramWorkingDraft (strategyKey : String) (storage : ProgramDraftStorage) :
    ProgramDraftDocument :=
  match storage (programDraftStorageKey strategyKey) with
  | none => emptyProgramWorkingDraft strategyKey
  | some stored =>
      if (!isLegacySchema stored.schema && stored.schema ≠ some programWorkingDraftSchema) ||
          stored.strategyKey ≠ some strategyKey then emptyProgramWorkingDraft strategyKey
      else (restoreProgramDraft parse numberText strategyKey stored).getD
        (emptyProgramWorkingDraft strategyKey)

/-- A draft that has nothing to keep. -/
def ProgramDraftDocument.isBlank (draft : ProgramDraftDocument) : Bool :=
  draft.status = "clean" && draft.perspectiveDrafts.isEmpty && draft.canvasBlocks.isEmpty &&
    draft.reusableObjects.isEmpty && draft.activeGraphRootIds.isEmpty &&
    draft.blockPositions.isEmpty && draft.flowPositions.isEmpty &&
    draft.blockConnections.isEmpty && draft.blockDisclosure.isEmpty &&
    draft.diagnostics.isEmpty && draft.flowViewport.isNone && draft.blocklyWorkspace.isNone &&
    !draft.blockyAddOpen && draft.pendingObjectInsertion.isNone

def ProgramDraftDocument.stored (draft : ProgramDraftDocument) (now : String) :
    StoredProgramDraft where
  schema := some programWorkingDraftSchema
  strategyKey := some draft.strategyKey
  status := some draft.status
  perspectiveDrafts := some draft.perspectiveDrafts
  canvasBlocks := some draft.canvasBlocks
  reusableObjects := some draft.reusableObjects
  activeGraphRootIds := some draft.activeGraphRootIds
  blocklyWorkspace := draft.blocklyWorkspace
  blocklyViewport := draft.blocklyViewport
  blockPositions := some draft.blockPositions
  flowPositions := some draft.flowPositions
  blockConnections := some draft.blockConnections
  blockDisclosure := some draft.blockDisclosure
  flowViewport := draft.flowViewport
  selectedDraftId := draft.selectedDraftId
  blockyAddOpen := some draft.blockyAddOpen
  pendingObjectInsertion := draft.pendingObjectInsertion
  diagnostics := some draft.diagnostics
  updatedAt := some now

def persistProgramWorkingDraft (draft : ProgramDraftDocument) (now : String)
    (storage : ProgramDraftStorage) : ProgramDraftStorage :=
  fun key =>
    if key = programDraftStorageKey draft.strategyKey then
      if draft.isBlank then none else some (draft.stored now)
    else storage key

end Storage

end RuleTrade
