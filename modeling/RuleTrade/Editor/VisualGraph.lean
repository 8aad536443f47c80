import Mathlib.Data.String.Basic
import RuleTrade.Editor.IntentAuthoring
import RuleTrade.Library.DepthFirst

/-! Blocks on the canvas of the Builder: the grammar of their definitions, the validation
of the graphs that hang under a Start block, and the operation a graph compiles to. -/

namespace RuleTrade

open Library

section Grammar

inductive EntryValueType where
  | statement
  | truth
  | number
  | percentage
  | money
  | quantity
  | duration
  | asset
  | group
  | subgroup
  | value
  | signal
  | function
  | state
  | assetSet
  | assetPredicate
  | candidateValue
  deriving DecidableEq, Repr

inductive EntryExecutionStatus where
  | verified
  | draftOnly
  | needsContext
  deriving DecidableEq, Repr

inductive EntryBlockShape where
  | statement
  | value
  | hat
  deriving DecidableEq, Repr

structure EntryBlockSlot where
  name : String
  accepts : List EntryValueType
  deriving DecidableEq, Repr

structure EntryBlockDefinition where
  id : String
  label : String
  shape : EntryBlockShape
  output : Option EntryValueType
  slots : List EntryBlockSlot
  execution : EntryExecutionStatus
  deriving DecidableEq, Repr

def numericTypes : List EntryValueType := [.number, .percentage, .money, .quantity, .value]

/-- The grammar of the product. What is draft-only is safe to compose and not executable. -/
def entryBlockDefinitions : List EntryBlockDefinition :=
  [⟨"start-daily", "Every daily close", .hat, none, [], .verified⟩,
    ⟨"start-weekly", "Every weekly close", .hat, none, [], .draftOnly⟩,
    ⟨"start-monthly", "Every monthly close", .hat, none, [], .verified⟩,
    ⟨"start-signal", "When signal is received", .hat, none, [⟨"SIGNAL", [.signal]⟩], .draftOnly⟩,
    ⟨"start-init", "On strategy initialization", .hat, none, [], .draftOnly⟩,
    ⟨"if-otherwise", "IF / OTHERWISE", .statement, none, [⟨"CONDITION", [.truth]⟩], .verified⟩,
    ⟨"repeat-n", "Repeat N times", .statement, none,
      [⟨"COUNT", [.number, .quantity]⟩], .draftOnly⟩,
    ⟨"repeat-while", "Repeat while", .statement, none, [⟨"CONDITION", [.truth]⟩], .draftOnly⟩,
    ⟨"stop-repeat", "Stop repeating", .statement, none, [], .draftOnly⟩,
    ⟨"wait", "Wait", .statement, none, [⟨"DURATION", [.duration]⟩], .draftOnly⟩,
    ⟨"compare-gt", "A > B", .value, some .truth,
      [⟨"A", numericTypes⟩, ⟨"B", numericTypes⟩], .verified⟩,
    ⟨"compare-lt", "A < B", .value, some .truth,
      [⟨"A", numericTypes⟩, ⟨"B", numericTypes⟩], .verified⟩,
    ⟨"compare-eq", "A = B", .value, some .truth,
      [⟨"A", numericTypes⟩, ⟨"B", numericTypes⟩], .verified⟩,
    ⟨"logic-and", "A AND B", .value, some .truth, [⟨"A", [.truth]⟩, ⟨"B", [.truth]⟩], .verified⟩,
    ⟨"logic-or", "A OR B", .value, some .truth, [⟨"A", [.truth]⟩, ⟨"B", [.truth]⟩], .verified⟩,
    ⟨"logic-not", "NOT A", .value, some .truth, [⟨"A", [.truth]⟩], .verified⟩,
    ⟨"logic-is-true", "Is A true?", .value, some .truth, [⟨"A", [.truth]⟩], .verified⟩,
    ⟨"asset-predicate-and", "asset predicate A AND B", .value, some .assetPredicate,
      [⟨"A", [.assetPredicate]⟩, ⟨"B", [.assetPredicate]⟩], .draftOnly⟩,
    ⟨"asset-predicate-or", "asset predicate A OR B", .value, some .assetPredicate,
      [⟨"A", [.assetPredicate]⟩, ⟨"B", [.assetPredicate]⟩], .draftOnly⟩,
    ⟨"asset-predicate-not", "NOT asset predicate", .value, some .assetPredicate,
      [⟨"A", [.assetPredicate]⟩], .draftOnly⟩,
    ⟨"candidate-compare", "candidate A > B", .value, some .assetPredicate,
      [⟨"A", [.candidateValue]⟩, ⟨"B", numericTypes⟩], .draftOnly⟩,
    ⟨"asset-set-any", "any asset matches", .value, some .truth,
      [⟨"ASSETS", [.assetSet]⟩, ⟨"PREDICATE", [.assetPredicate]⟩], .draftOnly⟩,
    ⟨"asset-set-all", "all assets match", .value, some .truth,
      [⟨"ASSETS", [.assetSet]⟩, ⟨"PREDICATE", [.assetPredicate]⟩], .draftOnly⟩,
    ⟨"asset-set-n-of-m", "at least N assets match", .value, some .truth,
      [⟨"ASSETS", [.assetSet]⟩, ⟨"PREDICATE", [.assetPredicate]⟩, ⟨"COUNT", [.number,
        .quantity]⟩], .draftOnly⟩,
    ⟨"calculate-add", "A + B", .value, some .number,
      [⟨"A", numericTypes⟩, ⟨"B", numericTypes⟩], .verified⟩,
    ⟨"calculate-subtract", "A − B", .value, some .number,
      [⟨"A", numericTypes⟩, ⟨"B", numericTypes⟩], .verified⟩,
    ⟨"calculate-multiply", "A × B", .value, some .number,
      [⟨"A", numericTypes⟩, ⟨"B", numericTypes⟩], .verified⟩,
    ⟨"calculate-divide", "A ÷ B", .value, some .number,
      [⟨"A", numericTypes⟩, ⟨"B", numericTypes⟩], .verified⟩,
    ⟨"calculate-power", "A to the power B", .value, some .number,
      [⟨"A", numericTypes⟩, ⟨"B", numericTypes⟩], .verified⟩,
    ⟨"number", "Number", .value, some .number, [], .verified⟩,
    ⟨"percentage", "Percentage", .value, some .percentage, [], .verified⟩,
    ⟨"money", "Money amount", .value, some .money, [], .draftOnly⟩,
    ⟨"quantity", "Asset quantity", .value, some .quantity, [], .draftOnly⟩,
    ⟨"trading-days", "Trading days", .value, some .duration, [], .draftOnly⟩,
    ⟨"calendar-days", "Calendar days", .value, some .duration, [], .draftOnly⟩,
    ⟨"asset-value", "Asset value", .value, some .value, [⟨"ASSET", [.asset]⟩], .verified⟩,
    ⟨"trailing-return", "Trailing return", .value, some .value,
      [⟨"ASSET", [.asset]⟩, ⟨"DURATION", [.duration, .number]⟩], .verified⟩,
    ⟨"indicator", "Indicator", .value, some .value, [⟨"ASSET", [.asset]⟩], .draftOnly⟩,
    ⟨"sma", "SMA", .value, some .value,
      [⟨"VALUE", [.value]⟩, ⟨"DURATION", [.duration, .number]⟩], .verified⟩,
    ⟨"ema", "EMA", .value, some .value,
      [⟨"VALUE", [.value]⟩, ⟨"DURATION", [.duration, .number]⟩], .draftOnly⟩,
    ⟨"weighted-score", "Weighted Score", .value, some .value, [⟨"VALUE", [.value]⟩], .verified⟩,
    ⟨"candidate-close", "Candidate close", .value, some .candidateValue, [], .draftOnly⟩,
    ⟨"candidate-return", "Candidate return", .value, some .candidateValue,
      [⟨"DURATION", [.duration, .number]⟩], .draftOnly⟩,
    ⟨"candidate-rsi", "Candidate RSI", .value, some .candidateValue,
      [⟨"DURATION", [.duration, .number]⟩], .draftOnly⟩,
    ⟨"asset-set-count", "AssetSet count", .value, some .number,
      [⟨"ASSETS", [.assetSet]⟩], .draftOnly⟩,
    ⟨"elapsed-time", "Elapsed time", .value, some .duration, [], .draftOnly⟩,
    ⟨"random-value", "Random value", .value, some .number, [], .draftOnly⟩,
    ⟨"invest", "Invest [A] by [B]", .statement, none,
      [⟨"TARGET", [.asset, .assetSet]⟩, ⟨"AMOUNT", [.money, .percentage, .quantity]⟩],
        .needsContext⟩,
    ⟨"sell", "Sell [A] by [B]", .statement, none,
      [⟨"TARGET", [.asset, .assetSet]⟩, ⟨"AMOUNT", [.money, .percentage, .quantity]⟩], .draftOnly⟩,
    ⟨"rebalance", "Rebalance target to weight", .statement, none,
      [⟨"TARGET", [.asset, .assetSet]⟩, ⟨"WEIGHT", [.percentage]⟩], .verified⟩,
    ⟨"send-signal", "Send signal", .statement, none, [⟨"SIGNAL", [.signal]⟩], .draftOnly⟩,
    ⟨"asset-reference", "Asset reference", .value, some .asset, [], .verified⟩,
    ⟨"group-reference", "Group reference", .value, some .group, [], .verified⟩,
    ⟨"create-group", "Create Group", .value, some .group, [], .verified⟩,
    ⟨"choose-group", "Choose from Group", .value, some .subgroup,
      [⟨"GROUP", [.group, .subgroup]⟩, ⟨"CONDITION", [.truth]⟩, ⟨"SCORE", [.value]⟩, ⟨"COUNT",
        [.number, .quantity]⟩], .verified⟩,
    ⟨"subgroup-reference", "Subgroup reference", .value, some .subgroup, [], .verified⟩,
    ⟨"filter-assets", "Filter AssetSet", .value, some .assetSet,
      [⟨"ASSETS", [.assetSet]⟩, ⟨"PREDICATE", [.assetPredicate]⟩], .draftOnly⟩,
    ⟨"top-n-assets", "Top N AssetSet", .value, some .assetSet,
      [⟨"ASSETS", [.assetSet]⟩, ⟨"SCORE", [.candidateValue]⟩, ⟨"COUNT", [.number, .quantity]⟩],
        .draftOnly⟩,
    ⟨"bottom-n-assets", "Bottom N AssetSet", .value, some .assetSet,
      [⟨"ASSETS", [.assetSet]⟩, ⟨"SCORE", [.candidateValue]⟩, ⟨"COUNT", [.number, .quantity]⟩],
        .draftOnly⟩,
    ⟨"random-select-assets", "Random N AssetSet", .value, some .assetSet,
      [⟨"ASSETS", [.assetSet]⟩, ⟨"COUNT", [.number, .quantity]⟩], .draftOnly⟩,
    ⟨"random-filter-assets", "Random Filter AssetSet", .value, some .assetSet,
      [⟨"ASSETS", [.assetSet]⟩, ⟨"PROBABILITY", [.percentage]⟩], .draftOnly⟩,
    ⟨"asset-set-union", "Union AssetSets", .value, some .assetSet,
      [⟨"A", [.assetSet]⟩, ⟨"B", [.assetSet]⟩], .draftOnly⟩,
    ⟨"asset-set-intersection", "Intersect AssetSets", .value, some .assetSet,
      [⟨"A", [.assetSet]⟩, ⟨"B", [.assetSet]⟩], .draftOnly⟩,
    ⟨"asset-set-difference", "Subtract AssetSets", .value, some .assetSet,
      [⟨"A", [.assetSet]⟩, ⟨"B", [.assetSet]⟩], .draftOnly⟩,
    ⟨"create-variable", "Create variable", .statement, none,
      [⟨"VALUE", [.number, .percentage, .money, .quantity, .duration, .asset, .group,
        .subgroup, .value, .truth, .state]⟩], .draftOnly⟩,
    ⟨"read-variable", "Read variable", .value, some .value, [], .draftOnly⟩,
    ⟨"set-variable", "Set variable", .statement, none,
      [⟨"VALUE", [.number, .percentage, .money, .quantity, .duration, .value, .truth,
        .state]⟩], .draftOnly⟩,
    ⟨"remember-value", "Remembered value", .value, some .value, [], .verified⟩,
    ⟨"state", "State", .value, some .state, [], .verified⟩,
    ⟨"signal-reference", "Signal", .value, some .signal, [], .draftOnly⟩,
    ⟨"create-function", "Create function", .statement, none, [], .draftOnly⟩,
    ⟨"call-function", "Call function", .value, some .function, [], .draftOnly⟩,
    ⟨"import-function", "Import shared function", .value, some .function, [], .draftOnly⟩,
    ⟨"function-input", "Define inputs", .statement, none, [], .draftOnly⟩,
    ⟨"function-return", "Return typed result", .statement, none,
      [⟨"VALUE", [.truth, .number, .percentage, .money, .quantity, .duration, .asset, .group,
        .subgroup, .value, .signal, .state]⟩], .draftOnly⟩]

def entryBlockDefinition (id : String) : Option EntryBlockDefinition :=
  entryBlockDefinitions.find? (fun item => item.id = id)

def entryConnectionAccepts (accepted : List EntryValueType) (actual : EntryValueType) : Bool :=
  decide (actual ∈ accepted) ||
    (decide (.assetSet ∈ accepted) && decide (actual ∈ [.group, .subgroup, .assetSet])) ||
    (decide (.value ∈ accepted) && decide (actual ∈ numericTypes))

end Grammar

section Drafts

/-- A field of a block. Numbers that are not finite have no value. -/
inductive FieldValue where
  | text (value : String)
  | number (value : Option ℚ)
  | flag (value : Bool)
  deriving DecidableEq

/-- A block on the canvas. Fields that are null are left out. -/
structure ProgramCanvasBlock where
  id : String
  definitionId : String
  objectRef : Option String := none
  fieldValues : Dict String FieldValue := Dict.empty

structure ProgramDraftConnection where
  childId : String
  parentId : Option String
  inputName : Option String
  deriving DecidableEq, Repr

/-- The blocks of a draft and how they hang together, in the order of their records. -/
structure ProgramWorkingDraft where
  canvasBlocks : Dict String ProgramCanvasBlock
  blockConnections : Dict String ProgramDraftConnection

end Drafts

section Validation

inductive VisualGraphCapability where
  | incomplete
  | draftOnly
  | ready
  | unsupported
  deriving DecidableEq, Repr

structure ValidatedVisualGraph where
  rootId : String
  blockIds : List String
  capability : VisualGraphCapability
  reasons : List String
  deriving DecidableEq, Repr

structure VisualGraphDiagnostic where
  code : String
  blockId : String
  message : String
  deriving DecidableEq, Repr

structure VisualGraphValidation where
  graphs : List ValidatedVisualGraph
  diagnostics : List VisualGraphDiagnostic
  deriving DecidableEq, Repr

def graphCapability (statuses : List EntryExecutionStatus) (incomplete : Bool) :
    VisualGraphCapability :=
  if incomplete then .incomplete
  else if .draftOnly ∈ statuses then .draftOnly
  else if .needsContext ∈ statuses then .unsupported
  else .ready

def startEventType (definitionId : String) : String :=
  if "start-".toList.isPrefixOf definitionId.toList then
    String.ofList (definitionId.toList.drop 6)
  else definitionId

namespace ProgramWorkingDraft

variable (draft : ProgramWorkingDraft)

def connections : List ProgramDraftConnection := draft.blockConnections.values

/-- Connections below a block. A parent without a name is none. -/
def connectionsOf (parentId : String) : List ProgramDraftConnection :=
  if parentId = "" then []
  else draft.connections.filter (fun connection => connection.parentId = some parentId)

def children (parentId : String) : List String :=
  (draft.connectionsOf parentId).map ProgramDraftConnection.childId

def definitionAt (id : String) : Option EntryBlockDefinition :=
  (draft.canvasBlocks.get? id).bind (fun block => entryBlockDefinition block.definitionId)

/-- A value in a slot that does not accept what it puts out. -/
def connectionDiagnostic (connection : ProgramDraftConnection) : Option VisualGraphDiagnostic := do
  let parentId ← connection.parentId
  guard (parentId ≠ "")
  let child ← draft.canvasBlocks.get? connection.childId
  let parentDefinition ← draft.definitionAt parentId
  let childDefinition ← draft.definitionAt connection.childId
  let input ← parentDefinition.slots.find? (fun slot => some slot.name = connection.inputName)
  guard (!childDefinition.output.any (entryConnectionAccepts input.accepts))
  return ⟨"typed_connection_mismatch", child.id,
    childDefinition.label ++ " cannot connect to " ++ parentDefinition.label ++ "." ++ input.name⟩

def rootIds : List String :=
  (draft.canvasBlocks.values.filter (fun block =>
    (entryBlockDefinition block.definitionId).any (fun definition => definition.shape = .hat))).map
      ProgramCanvasBlock.id

/-- Starts of one event type. The lookup of a Start under its own id may find nothing. -/
def duplicateDiagnostics : Option (List VisualGraphDiagnostic) := do
  let roots ← draft.rootIds.mapM (fun rootId =>
    (draft.canvasBlocks.get? rootId).map (fun root => (startEventType root.definitionId, rootId)))
  return (roots.map Prod.fst).eraseDups.flatMap (fun eventType =>
    let ids := (roots.filter (fun root => root.1 = eventType)).map Prod.snd
    if 1 < ids.length then
      ids.map (fun blockId => ⟨"duplicate_start_event_type", blockId,
        "Only one " ++ eventType.map (fun c => if c = '-' then ' ' else c) ++
          " Start is allowed."⟩)
    else [])

/-- A Start and the blocks that hang under it, from the last one found. -/
def visited (rootId : String) : List String :=
  let ids := rootId :: draft.connections.map ProgramDraftConnection.childId
  (DepthFirst.mark draft.children ids (ids.length + 1) rootId []).getD []

def slotFilled (id : String) (slot : EntryBlockSlot) : Bool :=
  draft.connections.any (fun connection =>
    connection.parentId = some id && connection.inputName = some slot.name)

def validatedGraph (rootId : String) : ValidatedVisualGraph :=
  let visited := (draft.visited rootId).reverse
  let definitions := visited.filterMap draft.definitionAt
  let incomplete := visited.any (fun id => (draft.definitionAt id).any (fun definition =>
    definition.slots.any (fun slot => !draft.slotFilled id slot)))
  let capability := graphCapability (definitions.map EntryBlockDefinition.execution) incomplete
  let reasons :=
    if incomplete then ["Complete every required typed slot before testing this graph."]
    else if capability = .draftOnly then
      ["This graph contains a block whose execution contract is draft-only."]
    else if capability = .unsupported then
      ["This complete graph is not supported by the current execution profile."]
    else []
  ⟨rootId, visited, capability, reasons⟩

/-- Validation of all graphs. Without a result the code throws. -/
def validateActiveVisualGraphs : Option VisualGraphValidation := do
  let duplicates ← draft.duplicateDiagnostics
  return ⟨draft.rootIds.map draft.validatedGraph,
    draft.connections.filterMap draft.connectionDiagnostic ++ duplicates⟩

end ProgramWorkingDraft

end Validation

section Compilation

inductive CompilationStatus where
  | ready
  | incomplete
  | unsupported
  | invalid
  deriving DecidableEq, Repr

structure ActiveVisualGraphCompilation where
  status : CompilationStatus
  operation : Option IntentOperation
  productMessage : String
  rootId : Option String
  deriving DecidableEq

/-- Runs of characters that are neither letters nor digits, each as one hyphen. -/
def hyphenated : List Char → List Char
  | [] => []
  | [c] => [if c.isAlphanum then c else '-']
  | c :: next :: rest =>
      if c.isAlphanum then c :: hyphenated (next :: rest)
      else if next.isAlphanum then '-' :: hyphenated (next :: rest)
      else hyphenated (next :: rest)

/-- The name that a Start lends to its Investment. -/
def graphSuffix (rootId : String) : String :=
  let text := hyphenated rootId.toList
  let text := if text.head? = some '-' then text.tail else text
  let text := if text.getLast? = some '-' then text.dropLast else text
  if text.isEmpty then "graph" else String.ofList text

variable (numberOf : String → Option ℚ) (numberText : Option ℚ → String)

/-- `Number(value)`. -/
def FieldValue.toNumber : FieldValue → Option ℚ
  | .text value => numberOf value
  | .number value => value
  | .flag value => some (if value then 1 else 0)

/-- `String(value)`. -/
def FieldValue.toText : FieldValue → String
  | .text value => value
  | .number value => numberText value
  | .flag value => if value then "true" else "false"

def ProgramCanvasBlock.percent (block : ProgramCanvasBlock) : Option ℚ :=
  (block.fieldValues.get? "VALUE").bind (FieldValue.toNumber numberOf)

def ProgramCanvasBlock.asset (block : ProgramCanvasBlock) : String :=
  block.objectRef.getD
    (((block.fieldValues.get? "REFERENCE").map (FieldValue.toText numberText)).getD "")

def ProgramCanvasBlock.timeframe? (block : ProgramCanvasBlock) : Option IntentTimeframe :=
  if block.definitionId = "start-daily" then some .daily
  else if block.definitionId = "start-monthly" then some .monthly
  else none

namespace ProgramWorkingDraft

variable (draft : ProgramWorkingDraft)

def childAt (parentId inputName : String) : Option ProgramCanvasBlock :=
  (draft.connections.find? (fun connection =>
    connection.parentId = some parentId && connection.inputName = some inputName)).bind
      (fun connection => draft.canvasBlocks.get? connection.childId)

/-- The asset and the timeframe of a rebalance of one asset to all of the portfolio. -/
def singleAssetRebalance (root : ProgramCanvasBlock) : Option (String × IntentTimeframe) := do
  let action ← draft.childAt root.id "NEXT"
  let target ← draft.childAt action.id "TARGET"
  let weight ← draft.childAt action.id "WEIGHT"
  let timeframe ← root.timeframe?
  guard (action.definitionId = "rebalance")
  guard (target.definitionId = "asset-reference")
  guard (weight.definitionId = "percentage")
  guard (weight.percent numberOf = some 100)
  guard (target.asset numberText ≠ "")
  return (target.asset numberText, timeframe)

/-- Compilation of the only graph. A Start that is not filed under its own id throws. -/
def compileGraph (graph : ValidatedVisualGraph) : Option ActiveVisualGraphCompilation :=
  if graph.capability = .incomplete then
    some ⟨.incomplete, none, graph.reasons.headD "", some graph.rootId⟩
  else if graph.capability ≠ .ready then
    some ⟨.unsupported, none, graph.reasons.headD "", some graph.rootId⟩
  else (draft.canvasBlocks.get? graph.rootId).map (fun root =>
    match draft.singleAssetRebalance numberOf numberText root with
    | none => ⟨.unsupported, none, "This complete graph is preserved, but the current compiler supports only a daily or monthly 100% single-asset rebalance.", some graph.rootId⟩
    | some (asset, timeframe) =>
        let investmentId := "investment-" ++ graphSuffix graph.rootId
        ⟨.ready, some (.commitSingleAsset investmentId "Investment" (investmentId ++ "-assets")
            (some asset) (some timeframe) .rebalance),
          asset ++ " will rebalance to 100% on each " ++ timeframe.text ++ " close.",
          some graph.rootId⟩)

/-- The operation of a draft. Without a result the code throws. -/
def compileActiveVisualGraph : Option ActiveVisualGraphCompilation := do
  let validation ← draft.validateActiveVisualGraphs
  match validation.diagnostics, validation.graphs with
  | first :: _, _ => some ⟨.invalid, none, first.message, none⟩
  | [], [] => some ⟨.incomplete, none,
      "Connect a complete action to a Start block before testing.", none⟩
  | [], _ :: _ :: _ => some ⟨.unsupported, none, "Multiple event graphs are preserved, but this execution profile currently commits one event graph at a time.", none⟩
  | [], [graph] => draft.compileGraph numberOf numberText graph

end ProgramWorkingDraft

end Compilation

end RuleTrade
