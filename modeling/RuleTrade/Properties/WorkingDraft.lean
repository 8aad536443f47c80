import RuleTrade.Editor.WorkingDraft
import RuleTrade.Library.Framing

/-! Which working drafts are the same when they are read back: pruning the workspace loses
nothing but Portfolio blocks. -/

namespace RuleTrade

open Library (Json)
open Library.Json (Fields prune pruneItems pruneFields KeptByPruning)

section Texts

variable (parse : String → Option Json) (numberText : ℚ → String)

mutual

/-- The text of a value once the Portfolio blocks listed in it are left out. -/
def remainingText : Json → Option String
  | .array items => (remainingTexts items).map (String.intercalate ",")
  | value => jsonText numberText value

def remainingTexts : List Json → Option (List String)
  | [] => some []
  | item :: rest =>
      if isPortfolioSerializedBlock parse numberText item = some true then remainingTexts rest
      else (if item = .null then some "" else remainingText item).bind (fun text =>
        (remainingTexts rest).map (text :: ·))

end

/-- A block that reads as a Portfolio block once those listed in its label are left out. -/
def StaysPortfolio : Json → Prop
  | .object fields => isPortfolioBlock parse (remainingText parse numberText) fields = some true
  | _ => False

variable {parse : String → Option Json} {numberText : ℚ → String}

theorem isObject_of_isPortfolio {value : Json}
    (h : isPortfolioSerializedBlock parse numberText value = some true) :
    ∃ fields, value = .object fields := by
  cases value with
  | object fields => exact ⟨fields, rfl⟩
  | _ => cases h

theorem keys_pruneFields {gone : Json → Option Bool} {fields fields' : Fields}
    (h : pruneFields gone fields = some fields') : fields'.map Prod.fst = fields.map Prod.fst := by
  induction fields generalizing fields' with
  | nil =>
      cases h
      rfl
  | cons entry rest ih =>
      obtain ⟨key, value⟩ := entry
      obtain ⟨value', -, h⟩ := Option.bind_eq_some_iff.mp h
      obtain ⟨rest', hRest, rfl⟩ := Option.map_eq_some_iff.mp h
      rw [List.map_cons, List.map_cons, ih hRest]

/-- A field of a pruned object is the pruned field. -/
theorem ownField_pruneFields {gone : Json → Option Bool} {fields fields' : Fields}
    (h : pruneFields gone fields = some fields') (key : String) :
    (ownField fields key = none ∧ ownField fields' key = none) ∨
      ∃ value value', ownField fields key = some value ∧ ownField fields' key = some value' ∧
        prune gone value = some value' := by
  induction fields generalizing fields' with
  | nil =>
      cases h
      exact Or.inl ⟨rfl, rfl⟩
  | cons entry rest ih =>
      obtain ⟨name, value⟩ := entry
      obtain ⟨value', hValue, h⟩ := Option.bind_eq_some_iff.mp h
      obtain ⟨rest', hRest, rfl⟩ := Option.map_eq_some_iff.mp h
      by_cases hName : name = key
      · exact Or.inr ⟨value, value', by simp [ownField, hName], by simp [ownField, hName], hValue⟩
      · have hSkip (value : Json) (rest : Fields) :
            ownField ((name, value) :: rest) key = ownField rest key := by
          simp [ownField, hName]
        rw [hSkip, hSkip]
        exact ih hRest

/-- What is no array and no object is as it was. -/
theorem prune_eq_scalar_iff {gone : Json → Option Bool} {value value' scalar : Json}
    (h : prune gone value = some value') (hArray : ∀ items, scalar ≠ .array items)
    (hObject : ∀ fields, scalar ≠ .object fields) : value' = scalar ↔ value = scalar := by
  cases value with
  | array items =>
      obtain ⟨items', -, rfl⟩ := Option.map_eq_some_iff.mp h
      exact iff_of_false (fun hSame => hArray items' hSame.symm)
        (fun hSame => hArray items hSame.symm)
  | object fields =>
      obtain ⟨fields', -, rfl⟩ := Option.map_eq_some_iff.mp h
      exact iff_of_false (fun hSame => hObject fields' hSame.symm)
        (fun hSame => hObject fields hSame.symm)
  | _ =>
      cases h
      rfl

theorem prune_eq_null_iff {gone : Json → Option Bool} {value value' : Json}
    (h : prune gone value = some value') : value' = .null ↔ value = .null :=
  prune_eq_scalar_iff h (by simp) (by simp)

theorem prune_eq_text_iff {gone : Json → Option Bool} {value value' : Json} {text : String}
    (h : prune gone value = some value') : value' = .text text ↔ value = .text text :=
  prune_eq_scalar_iff h (by simp) (by simp)

mutual

/-- The text of a pruned value is what remains of its text. -/
theorem jsonText_prune : ∀ {value value' : Json},
    prune (isPortfolioSerializedBlock parse numberText) value = some value' →
      jsonText numberText value' = remainingText parse numberText value
  | .null, _, h => by cases h; rfl
  | .bool _, _, h => by cases h; rfl
  | .number _, _, h => by cases h; rfl
  | .text _, _, h => by cases h; rfl
  | .array items, _, h => by
      obtain ⟨items', hItems, rfl⟩ := Option.map_eq_some_iff.mp h
      rw [jsonText, remainingText, itemTexts_prune hItems]
  | .object fields, _, h => by
      obtain ⟨fields', hFields, rfl⟩ := Option.map_eq_some_iff.mp h
      have hKeys : fields'.any (fun entry => entry.1 = "toString") =
          fields.any (fun entry => entry.1 = "toString") := by
        have hNames := congrArg (List.any · (· = "toString")) (keys_pruneFields hFields)
        simpa only [List.any_map, Function.comp_def] using hNames
      rw [remainingText, jsonText, jsonText, hKeys]
      simp

theorem itemTexts_prune : ∀ {items items' : List Json},
    pruneItems (isPortfolioSerializedBlock parse numberText) items = some items' →
      itemTexts numberText items' = remainingTexts parse numberText items
  | [], _, h => by cases h; rfl
  | item :: rest, _, h => by
      obtain ⟨isGone, hGone, h⟩ := Option.bind_eq_some_iff.mp h
      cases isGone with
      | true =>
          rw [remainingTexts, if_pos hGone]
          exact itemTexts_prune h
      | false =>
          obtain ⟨item', hItem, h⟩ := Option.bind_eq_some_iff.mp h
          obtain ⟨rest', hRest, rfl⟩ := Option.map_eq_some_iff.mp h
          rw [remainingTexts, if_neg (by rw [hGone]; simp), itemTexts, itemTexts_prune hRest,
            jsonText_prune hItem]
          simp only [prune_eq_null_iff hItem]

end

theorem bracket_mem : '[' ∈ "[object Object]".toList := by decide

theorem mem_of_mem_intercalate {c : Char} {texts : List String} {text : String}
    (hText : text ∈ texts) (h : c ∈ text.toList) : c ∈ (String.intercalate "," texts).toList := by
  rw [String.toList_intercalate]
  induction texts with
  | nil => cases hText
  | cons first rest ih =>
      cases rest with
      | nil =>
          obtain rfl := List.mem_singleton.mp hText
          simpa using h
      | cons next others =>
          rw [List.map_cons, List.map_cons, List.intercalate_cons_cons, List.mem_append,
            List.mem_append]
          rcases List.mem_cons.mp hText with rfl | hText
          · exact Or.inl (Or.inl h)
          · exact Or.inr (ih hText)

mutual

/-- A text without brackets lists no blocks, so that all of it remains. -/
theorem remainingText_of_plain : ∀ {value : Json} {text : String},
    jsonText numberText value = some text → '[' ∉ text.toList →
      remainingText parse numberText value = some text
  | .null, _, h, _ => h
  | .bool _, _, h, _ => h
  | .number _, _, h, _ => h
  | .text _, _, h, _ => h
  | .object _, _, h, _ => h
  | .array items, _, h, hPlain => by
      obtain ⟨texts, hTexts, rfl⟩ := Option.map_eq_some_iff.mp h
      have hEach : ∀ text ∈ texts, '[' ∉ text.toList :=
        fun text hText hBracket => hPlain (mem_of_mem_intercalate hText hBracket)
      rw [remainingText, remainingTexts_of_plain hTexts hEach]
      rfl

theorem remainingTexts_of_plain : ∀ {items : List Json} {texts : List String},
    itemTexts numberText items = some texts → (∀ text ∈ texts, '[' ∉ text.toList) →
      remainingTexts parse numberText items = some texts
  | [], _, h, _ => h
  | item :: rest, _, h, hPlain => by
      obtain ⟨text, hText, h⟩ := Option.bind_eq_some_iff.mp h
      obtain ⟨texts, hTexts, rfl⟩ := Option.map_eq_some_iff.mp h
      have hRest := remainingTexts_of_plain hTexts
        (fun other hOther => hPlain other (List.mem_cons_of_mem text hOther))
      have hListed : ¬ isPortfolioSerializedBlock parse numberText item = some true := by
        intro hPortfolio
        obtain ⟨fields, rfl⟩ := isObject_of_isPortfolio hPortfolio
        rw [if_neg (by simp), jsonText] at hText
        split_ifs at hText
        obtain rfl := Option.some.inj hText
        exact hPlain _ List.mem_cons_self bracket_mem
      rw [remainingTexts, if_neg hListed, hRest]
      by_cases hNull : item = .null
      · rw [if_pos hNull] at hText ⊢
        rw [hText]
        rfl
      · rw [if_neg hNull] at hText ⊢
        rw [remainingText_of_plain hText (hPlain text List.mem_cons_self)]
        rfl

end

mutual

/-- What has a text has a remaining one. -/
theorem remainingText_isSome : ∀ {value : Json}, (jsonText numberText value).isSome →
    (remainingText parse numberText value).isSome
  | .null, h => h
  | .bool _, h => h
  | .number _, h => h
  | .text _, h => h
  | .object _, h => h
  | .array items, h => by
      rw [jsonText, Option.isSome_map] at h
      rw [remainingText, Option.isSome_map]
      exact remainingTexts_isSome h

theorem remainingTexts_isSome : ∀ {items : List Json}, (itemTexts numberText items).isSome →
    (remainingTexts parse numberText items).isSome
  | [], h => h
  | item :: rest, h => by
      obtain ⟨all, hAll⟩ := Option.isSome_iff_exists.mp h
      obtain ⟨text, hText, hAll⟩ := Option.bind_eq_some_iff.mp hAll
      obtain ⟨texts, hTexts, -⟩ := Option.map_eq_some_iff.mp hAll
      have hRest : (remainingTexts parse numberText rest).isSome :=
        remainingTexts_isSome (by rw [hTexts]; rfl)
      obtain ⟨remaining, hRemaining⟩ := Option.isSome_iff_exists.mp hRest
      rw [remainingTexts, hRemaining]
      split_ifs with hPortfolio hNull
      · rfl
      · rfl
      · rw [if_neg hNull] at hText
        have hItem : (remainingText parse numberText item).isSome :=
          remainingText_isSome (by rw [hText]; rfl)
        obtain ⟨own, hOwn⟩ := Option.isSome_iff_exists.mp hItem
        rw [hOwn]
        rfl

end

end Texts

section Blocks

variable {parse : String → Option Json} {numberText : ℚ → String} {fields fields' : Fields}

def isText : Json → Bool
  | .text _ => true
  | _ => false

def isScalar : Json → Bool
  | .array _ => false
  | .object _ => false
  | _ => true

/-- What tells a serialized block, one with a type: its own fields that hold no others. -/
def blockIdentity (fields : Fields) : Option Fields :=
  if (ownField fields "type").any isText then some (fields.filter (fun entry => isScalar entry.2))
  else none

theorem ownField_text_iff {gone : Json → Option Bool}
    (h : pruneFields gone fields = some fields') (key text : String) :
    ownField fields' key = some (.text text) ↔ ownField fields key = some (.text text) := by
  rcases ownField_pruneFields h key with ⟨hNone, hNone'⟩ | ⟨value, value', hValue, hValue', hPrune⟩
  · rw [hNone, hNone']
  · rw [hValue, hValue', Option.some.injEq, Option.some.injEq]
    exact prune_eq_text_iff hPrune

theorem blockMetadata_prune {gone : Json → Option Bool}
    (h : pruneFields gone fields = some fields') :
    blockMetadata parse fields' = blockMetadata parse fields := by
  rcases ownField_pruneFields h "data" with ⟨hNone, hNone'⟩ | ⟨value, value', hValue, hValue', hPrune⟩
  · simp only [blockMetadata, hNone, hNone']
  · cases value with
    | array items =>
        obtain ⟨items', -, rfl⟩ := Option.map_eq_some_iff.mp hPrune
        simp only [blockMetadata, hValue, hValue']
    | object inner =>
        obtain ⟨inner', -, rfl⟩ := Option.map_eq_some_iff.mp hPrune
        simp only [blockMetadata, hValue, hValue']
    | _ =>
        cases hPrune
        simp only [blockMetadata, hValue, hValue']

/-- A property of a pruned value is the pruned property. -/
theorem propertyOf_prune {gone : Json → Option Bool} {value value' : Json}
    (h : prune gone value = some value') (key : String) :
    (propertyOf key value = none ∧ propertyOf key value' = none) ∨
      ∃ property property', propertyOf key value = some property ∧
        propertyOf key value' = some property' ∧ prune gone property = some property' := by
  cases value with
  | object inner =>
      obtain ⟨inner', hInner, rfl⟩ := Option.map_eq_some_iff.mp h
      exact ownField_pruneFields hInner key
  | array items =>
      obtain ⟨items', -, rfl⟩ := Option.map_eq_some_iff.mp h
      exact Or.inl ⟨rfl, rfl⟩
  | _ =>
      cases h
      exact Or.inl ⟨rfl, rfl⟩

theorem isPortfolioContext_prune
    (h : pruneFields (isPortfolioSerializedBlock parse numberText) fields = some fields') :
    isPortfolioContext (jsonText numberText) fields' =
      isPortfolioContext (remainingText parse numberText) fields := by
  have hType := ownField_text_iff h "type" "rt_context"
  by_cases hContext : ownField fields "type" = some (.text "rt_context")
  · rw [isPortfolioContext, isPortfolioContext, if_pos (hType.mpr hContext), if_pos hContext]
    rcases ownField_pruneFields h "fields" with
      ⟨hNone, hNone'⟩ | ⟨value, value', hValue, hValue', hPrune⟩
    · rw [hNone, hNone']
      rfl
    · rw [hValue, hValue', Option.bind_some, Option.bind_some]
      rcases propertyOf_prune hPrune "LABEL" with
        ⟨hNone, hNone'⟩ | ⟨label, label', hLabel, hLabel', hPruned⟩
      · rw [hNone, hNone']
      · rw [hLabel, hLabel']
        have hText := jsonText_prune hPruned
        have hNull := prune_eq_null_iff hPruned
        by_cases hAbsent : label = .null
        · rw [hAbsent, hNull.mpr hAbsent]
        · have hPresent : label' ≠ .null := fun hSame => hAbsent (hNull.mp hSame)
          simp only [hText]
  · rw [isPortfolioContext, isPortfolioContext, if_neg (fun hSame => hContext (hType.mp hSame)),
      if_neg hContext]

theorem isPortfolioBlock_prune
    (h : pruneFields (isPortfolioSerializedBlock parse numberText) fields = some fields') :
    isPortfolioBlock parse (jsonText numberText) fields' =
      isPortfolioBlock parse (remainingText parse numberText) fields := by
  rw [isPortfolioBlock, isPortfolioBlock, blockMetadata_prune h, isPortfolioContext_prune h]

/-- A label that reads portfolio lists no blocks. -/
theorem isPortfolioContext_remaining (h : isPortfolioContext (jsonText numberText) fields = some true) :
    isPortfolioContext (remainingText parse numberText) fields = some true := by
  by_cases hContext : ownField fields "type" = some (.text "rt_context")
  · rw [isPortfolioContext, if_pos hContext] at h ⊢
    cases hLabel : (ownField fields "fields").bind (propertyOf "LABEL") with
    | none =>
        rw [hLabel] at h
        cases h
    | some label =>
        rw [hLabel] at h
        cases label with
        | null => cases h
        | _ =>
            obtain ⟨text, hText, hReads⟩ := Option.map_eq_some_iff.mp h
            have hPlain : '[' ∉ text.toList := by
              intro hBracket
              have hLower := congrArg String.toList (of_decide_eq_true hReads)
              rw [String.toList_map] at hLower
              have hMem : Char.toLower '[' ∈ text.toList.map Char.toLower :=
                List.mem_map_of_mem hBracket
              rw [hLower] at hMem
              exact absurd hMem (by decide)
            exact Option.map_eq_some_iff.mpr ⟨text, remainingText_of_plain hText hPlain, hReads⟩
  · rw [isPortfolioContext, if_neg hContext] at h
    cases h

theorem isPortfolioContext_isSome
    (h : isPortfolioContext (jsonText numberText) fields ≠ none) :
    isPortfolioContext (remainingText parse numberText) fields ≠ none := by
  by_cases hContext : ownField fields "type" = some (.text "rt_context")
  · rw [isPortfolioContext, if_pos hContext] at h ⊢
    cases hLabel : (ownField fields "fields").bind (propertyOf "LABEL") with
    | none => simp
    | some label =>
        rw [hLabel] at h
        cases label with
        | null => simp
        | _ =>
            rw [← Option.isSome_iff_ne_none, Option.isSome_map] at h ⊢
            exact remainingText_isSome h
  · rw [isPortfolioContext, if_neg hContext]
    simp

/-- A block that reads as a Portfolio block still does without those listed in its label. -/
theorem staysPortfolio_of_isPortfolio {value : Json}
    (h : isPortfolioSerializedBlock parse numberText value = some true) :
    StaysPortfolio parse numberText value := by
  obtain ⟨fields, rfl⟩ := isObject_of_isPortfolio h
  rw [isPortfolioSerializedBlock, isPortfolioBlock] at h
  rw [StaysPortfolio, isPortfolioBlock]
  split_ifs at h ⊢
  · rfl
  · exact isPortfolioContext_remaining h

theorem isPortfolioBlock_isSome (h : isPortfolioBlock parse (jsonText numberText) fields ≠ none) :
    isPortfolioBlock parse (remainingText parse numberText) fields ≠ none := by
  rw [isPortfolioBlock] at h ⊢
  split_ifs at h ⊢
  · exact h
  · simp
  · exact isPortfolioContext_isSome h

theorem isScalar_prune {gone : Json → Option Bool} {value value' : Json}
    (h : prune gone value = some value') :
    isScalar value' = isScalar value ∧ isText value' = isText value ∧
      (isScalar value → value' = value) := by
  cases value with
  | array items =>
      obtain ⟨items', -, rfl⟩ := Option.map_eq_some_iff.mp h
      exact ⟨rfl, rfl, fun hScalar => by cases hScalar⟩
  | object inner =>
      obtain ⟨inner', -, rfl⟩ := Option.map_eq_some_iff.mp h
      exact ⟨rfl, rfl, fun hScalar => by cases hScalar⟩
  | _ =>
      cases h
      exact ⟨rfl, rfl, fun _ => rfl⟩

theorem scalarFields_prune {gone : Json → Option Bool}
    (h : pruneFields gone fields = some fields') :
    fields'.filter (fun entry => isScalar entry.2) =
      fields.filter (fun entry => isScalar entry.2) := by
  induction fields generalizing fields' with
  | nil =>
      cases h
      rfl
  | cons entry rest ih =>
      obtain ⟨key, value⟩ := entry
      obtain ⟨value', hValue, h⟩ := Option.bind_eq_some_iff.mp h
      obtain ⟨rest', hRest, rfl⟩ := Option.map_eq_some_iff.mp h
      obtain ⟨hSame, -, hOwn⟩ := isScalar_prune hValue
      by_cases hScalar : isScalar value
      · obtain rfl := hOwn hScalar
        simp only [List.filter_cons, hScalar, if_true, ih hRest]
      · simp [hSame, hScalar, ih hRest]

theorem blockIdentity_prune {gone : Json → Option Bool}
    (h : pruneFields gone fields = some fields') :
    blockIdentity fields' = blockIdentity fields := by
  have hTyped : (ownField fields' "type").any isText = (ownField fields "type").any isText := by
    rcases ownField_pruneFields h "type" with
      ⟨hNone, hNone'⟩ | ⟨value, value', hValue, hValue', hPrune⟩
    · rw [hNone, hNone']
    · rw [hValue, hValue', Option.any_some, Option.any_some, (isScalar_prune hPrune).2.1]
  rw [blockIdentity, blockIdentity, hTyped, scalarFields_prune h]

/-- What the sanitizer keeps of a block it does not leave out. -/
theorem keptByPruning (parse : String → Option Json) (numberText : ℚ → String) :
    KeptByPruning (isPortfolioSerializedBlock parse numberText) (StaysPortfolio parse numberText)
      blockIdentity where
  isObject := isObject_of_isPortfolio
  stays_iff := by
    intro value value' h
    cases value with
    | object fields =>
        obtain ⟨fields', hFields, rfl⟩ := Option.map_eq_some_iff.mp h
        rw [isPortfolioSerializedBlock, isPortfolioBlock_prune hFields, StaysPortfolio]
    | array items =>
        obtain ⟨items', -, rfl⟩ := Option.map_eq_some_iff.mp h
        simp [isPortfolioSerializedBlock, StaysPortfolio]
    | _ =>
        cases h
        simp [isPortfolioSerializedBlock, StaysPortfolio]
  stays_of_gone := staysPortfolio_of_isPortfolio
  isSome := by
    intro value value' h hStays
    cases value with
    | object fields =>
        obtain ⟨fields', hFields, rfl⟩ := Option.map_eq_some_iff.mp h
        rw [isPortfolioSerializedBlock] at hStays
        rw [isPortfolioSerializedBlock, isPortfolioBlock_prune hFields]
        exact isPortfolioBlock_isSome (by rw [hStays]; simp)
    | array items =>
        obtain ⟨items', -, rfl⟩ := Option.map_eq_some_iff.mp h
        simp [isPortfolioSerializedBlock]
    | _ =>
        cases h
        simp [isPortfolioSerializedBlock]
  label_eq := blockIdentity_prune

end Blocks

section Reload

variable {parse : String → Option Json} {numberText : ℚ → String}
  {draft : ProgramDraftDocument} {storage : ProgramDraftStorage} {now later : String}

/-- The fields that are read back as they are. -/
structure SameWork (draft loaded : ProgramDraftDocument) : Prop where
  perspectiveDrafts : loaded.perspectiveDrafts = draft.perspectiveDrafts
  reusableObjects : loaded.reusableObjects = draft.reusableObjects
  blockPositions : loaded.blockPositions = draft.blockPositions
  flowPositions : loaded.flowPositions = draft.flowPositions
  blockConnections : loaded.blockConnections = draft.blockConnections

/-- A workspace is read back without items that are Portfolio blocks, no Portfolio block is in
it, and its blocks are all others that there were. -/
def WorkspaceCleared (parse : String → Option Json) (numberText : ℚ → String)
    (workspace : Option Fields) (loaded : Option Fields) : Prop :=
  (workspace = none ∧ loaded = none) ∨
    ∃ fields fields', workspace = some fields ∧ loaded = some fields' ∧
      Json.WithoutFields (isPortfolioSerializedBlock parse numberText) fields fields' ∧
      Json.collectFields (Json.leftOut (isPortfolioSerializedBlock parse numberText)) fields' = [] ∧
      Json.collectFields blockIdentity fields' = Json.collectFields
        (Json.labelOthers (isPortfolioSerializedBlock parse numberText) blockIdentity) fields

/-- A draft is read back as it was, less Portfolio blocks, and reads the same a second time. -/
structure Reloads (parse : String → Option Json) (numberText : ℚ → String)
    (draft loaded again : ProgramDraftDocument) : Prop where
  work : SameWork draft loaded
  canvasBlocks : loaded.canvasBlocks = draft.canvasBlocks.filter isProductBlock
  workspace : WorkspaceCleared parse numberText draft.blocklyWorkspace loaded.blocklyWorkspace
  workAgain : SameWork loaded again
  canvasBlocksAgain : again.canvasBlocks = loaded.canvasBlocks
  workspaceAgain : again.blocklyWorkspace = loaded.blocklyWorkspace

/-- What loading returns after a draft was persisted. -/
def reloaded (parse : String → Option Json) (numberText : ℚ → String)
    (draft : ProgramDraftDocument) (now : String) (storage : ProgramDraftStorage) :
    ProgramDraftDocument :=
  loadProgramWorkingDraft parse numberText draft.strategyKey
    (persistProgramWorkingDraft draft now storage)

theorem reloaded_eq_of_blank (h : draft.isBlank) :
    reloaded parse numberText draft now storage = emptyProgramWorkingDraft draft.strategyKey := by
  simp [reloaded, loadProgramWorkingDraft, persistProgramWorkingDraft, h]

theorem reloaded_eq (h : ¬ draft.isBlank) :
    reloaded parse numberText draft now storage =
      (restoreProgramDraft parse numberText draft.strategyKey (draft.stored now)).getD
        (emptyProgramWorkingDraft draft.strategyKey) := by
  simp [reloaded, loadProgramWorkingDraft, persistProgramWorkingDraft, h,
    ProgramDraftDocument.stored]

/-- A draft whose workspace is sanitized is read back with it. -/
theorem reloaded_of_sanitized {workspace : Option Fields}
    (h : withoutPortfolioBlockyScaffolding parse numberText draft.blocklyWorkspace =
      some workspace) :
    (reloaded parse numberText draft now storage).strategyKey = draft.strategyKey ∧
      SameWork draft (reloaded parse numberText draft now storage) ∧
      (reloaded parse numberText draft now storage).canvasBlocks =
        draft.canvasBlocks.filter isProductBlock ∧
      (reloaded parse numberText draft now storage).blocklyWorkspace = workspace := by
  by_cases hBlank : draft.isBlank
  · rw [reloaded_eq_of_blank hBlank]
    simp only [ProgramDraftDocument.isBlank, Bool.and_eq_true, List.isEmpty_iff,
      Option.isNone_iff_eq_none] at hBlank
    obtain ⟨⟨⟨⟨⟨⟨⟨⟨⟨⟨⟨⟨⟨-, hDrafts⟩, hBlocks⟩, hObjects⟩, -⟩, hPositions⟩, hFlow⟩, hConnections⟩, -⟩, -⟩,
      -⟩, hWorkspace⟩, -⟩, -⟩ := hBlank
    rw [hWorkspace] at h
    obtain rfl := Option.some.inj h
    exact ⟨rfl, ⟨hDrafts.symm, hObjects.symm, hPositions.symm, hFlow.symm, hConnections.symm⟩,
      by rw [hBlocks]; rfl, rfl⟩
  · rw [reloaded_eq hBlank]
    have hRestored : restoredDrafts (draft.stored now) = draft.perspectiveDrafts := by
      rw [restoredDrafts]
      cases hDrafts : draft.perspectiveDrafts with
      | nil => simp [ProgramDraftDocument.stored, hDrafts]
      | cons first rest => simp [ProgramDraftDocument.stored, hDrafts]
    have hSanitized : withoutPortfolioBlockyScaffolding parse numberText
        (draft.stored now).blocklyWorkspace = some workspace := h
    rw [restoreProgramDraft, hSanitized]
    exact ⟨rfl, ⟨hRestored, rfl, rfl, rfl, rfl⟩, rfl, rfl⟩

/-- A draft whose workspace makes the sanitizer throw is read back empty. -/
theorem reloaded_of_throws (h : withoutPortfolioBlockyScaffolding parse numberText
    draft.blocklyWorkspace = none) :
    reloaded parse numberText draft now storage = emptyProgramWorkingDraft draft.strategyKey := by
  by_cases hBlank : draft.isBlank
  · exact reloaded_eq_of_blank hBlank
  · have hThrows : withoutPortfolioBlockyScaffolding parse numberText
        (draft.stored now).blocklyWorkspace = none := h
    rw [reloaded_eq hBlank, restoreProgramDraft, hThrows]
    rfl

theorem sanitized_of_workspaceCleared {loaded : Option Fields}
    (h : WorkspaceCleared parse numberText draft.blocklyWorkspace loaded) :
    (withoutPortfolioBlockyScaffolding parse numberText draft.blocklyWorkspace = none →
      loaded = none) → ∃ workspace, withoutPortfolioBlockyScaffolding parse numberText
        draft.blocklyWorkspace = some workspace := by
  intro hThrows
  cases hSanitized : withoutPortfolioBlockyScaffolding parse numberText
      draft.blocklyWorkspace with
  | some workspace => exact ⟨workspace, rfl⟩
  | none =>
      rcases h with ⟨hNone, -⟩ | ⟨fields, fields', -, hLoaded, -⟩
      · rw [hNone] at hSanitized
        cases hSanitized
      · rw [hThrows hSanitized] at hLoaded
        cases hLoaded

/-- Persisting and loading a draft keeps its work, Portfolio blocks apart, exactly when no
Portfolio block of its workspace is outside of an array, none holds another block, and no item
of an array has null metadata. -/
theorem reloads_iff (parse : String → Option Json) (numberText : ℚ → String)
    (draft : ProgramDraftDocument) (storage : ProgramDraftStorage) (now later : String) :
    Reloads parse numberText draft (reloaded parse numberText draft now storage)
      (reloaded parse numberText (reloaded parse numberText draft now storage) later
        (persistProgramWorkingDraft draft now storage)) ↔
      ∀ workspace ∈ draft.blocklyWorkspace, Json.FieldsLoseNothing
        (isPortfolioSerializedBlock parse numberText) blockIdentity
        (StaysPortfolio parse numberText) workspace := by
  constructor
  · intro h workspace hWorkspace
    obtain ⟨sanitized, hSanitized⟩ := sanitized_of_workspaceCleared h.workspace (fun hThrows => by
      rw [reloaded_of_throws hThrows]
      rfl)
    have hLoaded := (@reloaded_of_sanitized _ _ _ storage now _ hSanitized).2.2.2
    rcases h.workspace with ⟨hNone, -⟩ | ⟨fields, fields', hFields, hFields', -, hClear, hSame⟩
    · rw [hNone] at hWorkspace
      cases hWorkspace
    · obtain rfl := Option.some.inj (hFields.symm.trans hWorkspace)
      rw [hLoaded] at hFields'
      rw [hFields, withoutPortfolioBlockyScaffolding, hFields'] at hSanitized
      obtain ⟨pruned, hPruned, hSome⟩ := Option.map_eq_some_iff.mp hSanitized
      obtain rfl := Option.some.inj hSome
      exact (Json.pruned_exactly_iff (keptByPruning parse numberText)).mp
        ⟨pruned, hPruned, hClear, hSame⟩
  · intro h
    have hCleared : ∃ workspace,
        withoutPortfolioBlockyScaffolding parse numberText draft.blocklyWorkspace =
          some workspace ∧
        withoutPortfolioBlockyScaffolding parse numberText workspace = some workspace ∧
        WorkspaceCleared parse numberText draft.blocklyWorkspace workspace := by
      cases hWorkspace : draft.blocklyWorkspace with
      | none => exact ⟨none, rfl, rfl, Or.inl ⟨rfl, rfl⟩⟩
      | some fields =>
          obtain ⟨fields', hFields, hClear, hSame⟩ :=
            (Json.pruned_exactly_iff (keptByPruning parse numberText)).mpr (h fields hWorkspace)
          have hAgain := Json.pruneFields_pruned (keptByPruning parse numberText) hFields hClear
          exact ⟨some fields', by rw [withoutPortfolioBlockyScaffolding, hFields]; rfl,
            by rw [withoutPortfolioBlockyScaffolding, hAgain]; rfl, Or.inr ⟨fields, fields', rfl,
              rfl, Json.withoutFields_of_prune hFields, hClear, hSame⟩⟩
    obtain ⟨workspace, hFirst, hSecond, hWorkspace⟩ := hCleared
    obtain ⟨-, hWork, hBlocks, hLoaded⟩ := @reloaded_of_sanitized _ _ _ storage now _ hFirst
    rw [← hLoaded] at hSecond
    obtain ⟨-, hWorkAgain, hBlocksAgain, hLoadedAgain⟩ := @reloaded_of_sanitized _ _ _
      (persistProgramWorkingDraft draft now storage) later _ hSecond
    refine ⟨hWork, hBlocks, hLoaded ▸ hWorkspace, hWorkAgain, ?_, hLoadedAgain⟩
    rw [hBlocksAgain, hBlocks, List.filter_filter]
    simp

/-- A draft whose workspace has one block, of the earlier Portfolio, and a block next to it. -/
def portfolioStack : ProgramDraftDocument where
  strategyKey := "strategy"
  status := "incomplete"
  blocklyWorkspace := some [("blocks", .object [("languageVersion", .number 0), ("blocks", .array
    [.object [("type", .text "rt_context"), ("id", .text "portfolio-block"),
      ("fields", .object [("LABEL", .text "Portfolio")]),
      ("next", .object [("block", .object [("type", .text "rt_entry_invest"),
        ("id", .text "investment-block")])])]])])]

/-- The block next to a Portfolio block is gone with it. -/
theorem portfolioStack_loses :
    (reloaded (fun _ => none) (fun _ => "") portfolioStack "now" (fun _ => none)).blocklyWorkspace =
        some [("blocks", .object [("languageVersion", .number 0), ("blocks", .array [])])] ∧
      ¬ Reloads (fun _ => none) (fun _ => "") portfolioStack
        (reloaded (fun _ => none) (fun _ => "") portfolioStack "now" (fun _ => none))
        (reloaded (fun _ => none) (fun _ => "")
          (reloaded (fun _ => none) (fun _ => "") portfolioStack "now" (fun _ => none)) "later"
          (persistProgramWorkingDraft portfolioStack "now" (fun _ => none))) := by
  have hLoaded : (reloaded (fun _ => none) (fun _ => "") portfolioStack "now"
      (fun _ => none)).blocklyWorkspace =
        some [("blocks", .object [("languageVersion", .number 0), ("blocks", .array [])])] := by
    decide +kernel
  refine ⟨hLoaded, fun hReloads => ?_⟩
  rcases hReloads.workspace with ⟨hNone, -⟩ | ⟨fields, fields', hFields, hFields', -, -, hSame⟩
  · cases hNone
  · rw [hLoaded] at hFields'
    obtain rfl := Option.some.inj hFields
    obtain rfl := Option.some.inj hFields'
    exact absurd hSame (by decide +kernel)

end Reload

end RuleTrade
