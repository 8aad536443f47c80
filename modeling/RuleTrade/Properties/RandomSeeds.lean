import Mathlib
import RuleTrade.Strategy.RandomnessV1

/-! The seed that generated code computes is the seed of the contract. -/

namespace RuleTrade.V1

open Library Library.JsonText

section Floats

mutual

/-- A value that holds no float. -/
def NoFloats : Value → Prop
  | .float _ => False
  | .list items => NoFloatsItems items
  | .dict fields => NoFloatsFields fields
  | _ => True

def NoFloatsItems : List Value → Prop
  | [] => True
  | item :: rest => NoFloats item ∧ NoFloatsItems rest

def NoFloatsFields : List (String × Value) → Prop
  | [] => True
  | (_, value) :: rest => NoFloats value ∧ NoFloatsFields rest

end

theorem noFloatsItems_iff {items : List Value} :
    NoFloatsItems items ↔ ∀ item ∈ items, NoFloats item := by
  induction items with
  | nil => simp [NoFloatsItems]
  | cons item rest ih => simp [NoFloatsItems, ih]

theorem noFloatsFields_iff {fields : List (String × Value)} :
    NoFloatsFields fields ↔ ∀ field ∈ fields, NoFloats field.2 := by
  induction fields with
  | nil => simp [NoFloatsFields]
  | cons field rest ih =>
      obtain ⟨key, value⟩ := field
      simp [NoFloatsFields, ih]

theorem printable_digits (n : Nat) : Printable (Nat.toDigits 10 n) := by
  intro c hc
  have hDigit := Nat.isDigit_of_mem_toDigits (by decide) (by decide) hc
  simp only [Char.isDigit, Bool.and_eq_true, decide_eq_true_eq, ge_iff_le,
    UInt32.le_iff_toNat_le] at hDigit
  obtain ⟨hLow, hHigh⟩ := hDigit
  simp only [isPrintable, Bool.and_eq_true, decide_eq_true_eq]
  have hLow : 48 ≤ c.toNat := hLow
  have hHigh : c.toNat ≤ 57 := hHigh
  omega

theorem printable_integer (n : Int) : Printable (toString n).toList := by
  cases n with
  | ofNat m => exact Nat.toList_repr ▸ printable_digits m
  | negSucc m =>
      have hText : (toString (Int.negSucc m)).toList = '-' :: Nat.toDigits 10 (m + 1) := by
        have hRepr : toString (Int.negSucc m) = "-" ++ (m + 1).repr := rfl
        rw [hRepr, String.toList_append, Nat.toList_repr]
        rfl
      rw [hText]
      exact printable_cons rfl (printable_digits _)

mutual

/-- Without floats a value is written with printable characters. -/
theorem printable_encode (fallback : Value → Option String) : ∀ (value : Value) {tree : Tree},
    NoFloats value → encode fallback value = some tree → PrintableAtoms tree
  | .null, tree, _, h => by
      cases h
      exact List.all_eq_true.mp rfl
  | .boolean b, tree, _, h => by
      cases h
      cases b <;> exact List.all_eq_true.mp rfl
  | .integer n, tree, _, h => by
      cases h
      exact printable_integer n
  | .float _, _, hFloat, _ => hFloat.elim
  | .decimal number, tree, _, h => by
      obtain ⟨text, -, rfl⟩ := Option.map_eq_some_iff.mp h
      trivial
  | .datetime isoformat, tree, _, h => by
      obtain ⟨text, -, rfl⟩ := Option.map_eq_some_iff.mp h
      trivial
  | .text text, tree, _, h => by
      cases h
      trivial
  | .list items, tree, hFree, h => by
      obtain ⟨trees, hTrees, rfl⟩ := Option.map_eq_some_iff.mp h
      exact printable_encodeItems fallback items hFree hTrees
  | .dict fields, tree, hFree, h => by
      obtain ⟨trees, hTrees, rfl⟩ := Option.map_eq_some_iff.mp h
      exact printable_encodeFields fallback fields hFree hTrees

theorem printable_encodeItems (fallback : Value → Option String) :
    ∀ (items : List Value) {trees : List Tree}, NoFloatsItems items →
      encodeItems fallback items = some trees → PrintableItems trees
  | [], trees, _, h => by
      cases h
      trivial
  | item :: rest, trees, hFree, h => by
      obtain ⟨tree, hTree, h⟩ := Option.bind_eq_some_iff.mp h
      obtain ⟨others, hOthers, h⟩ := Option.bind_eq_some_iff.mp h
      cases h
      exact ⟨printable_encode fallback item hFree.1 hTree,
        printable_encodeItems fallback rest hFree.2 hOthers⟩

theorem printable_encodeFields (fallback : Value → Option String) :
    ∀ (fields : List (String × Value)) {trees : List (String × Tree)}, NoFloatsFields fields →
      encodeFields fallback fields = some trees → PrintableFields trees
  | [], trees, _, h => by
      cases h
      trivial
  | (key, value) :: rest, trees, hFree, h => by
      obtain ⟨tree, hTree, h⟩ := Option.bind_eq_some_iff.mp h
      obtain ⟨others, hOthers, h⟩ := Option.bind_eq_some_iff.mp h
      cases h
      exact ⟨printable_encode fallback value hFree.1 hTree,
        printable_encodeFields fallback rest hFree.2 hOthers⟩

end

end Floats

section Bindings

theorem noFloats_decimalValue {value : Value} (h : isNumber value = true) :
    NoFloats (decimalValue value) := by
  unfold isNumber at h
  unfold decimalValue
  cases hNumber : value.number with
  | none => simp [hNumber] at h
  | some number => trivial

theorem noFloats_symbolValue {value : Value} (h : isNamedText value = true) :
    NoFloats (symbolValue value) := by
  cases value <;> trivial

/-- What is written to a dict came from it or is the new value. -/
theorem mem_write {κ α : Type} [DecidableEq κ] {key : κ} {value : α} {entries : List (κ × α)}
    {entry : κ × α} (h : entry ∈ Dict.write key value entries) :
    entry ∈ entries ∨ entry = (key, value) := by
  induction entries with
  | nil => exact Or.inr (List.mem_singleton.mp h)
  | cons head rest ih =>
      rw [Dict.write] at h
      split_ifs at h with hKey
      · rcases List.mem_cons.mp h with hNew | hOld
        · exact Or.inr hNew
        · exact Or.inl (List.mem_cons_of_mem _ hOld)
      · rcases List.mem_cons.mp h with rfl | hLater
        · exact Or.inl List.mem_cons_self
        · rcases ih hLater with hOld | hNew
          · exact Or.inl (List.mem_cons_of_mem _ hOld)
          · exact Or.inr hNew

theorem mem_dictOf {fields : List (String × Value)} {entry : String × Value}
    (h : entry ∈ dictOf fields) : entry ∈ fields := by
  have hFold : ∀ (fields entries : List (String × Value)),
      entry ∈ fields.foldl (fun entries field => Dict.write field.1 field.2 entries) entries →
        entry ∈ entries ∨ entry ∈ fields := by
    intro fields
    induction fields with
    | nil => intro entries h; exact Or.inl h
    | cons field rest ih =>
        intro entries h
        rcases ih _ h with hWritten | hRest
        · rcases mem_write hWritten with hOld | rfl
          · exact Or.inl hOld
          · exact Or.inr List.mem_cons_self
        · exact Or.inr (List.mem_cons_of_mem _ hRest)
  rcases hFold fields [] h with hNone | hSome
  · cases hNone
  · exact hSome

/-- Values of a type are written without floats. -/
theorem noFloats_normalizeTypedValue {value normal : Value} {type : ValueType}
    (h : normalizeTypedValue value type = some normal) : NoFloats normal := by
  unfold normalizeTypedValue at h
  split_ifs at h with hMatches
  cases h
  cases type with
  | decimal => exact noFloats_decimalValue hMatches
  | percentage => exact noFloats_decimalValue hMatches
  | shares => exact noFloats_decimalValue hMatches
  | money => exact noFloats_decimalValue hMatches
  | moneyPerShare => exact noFloats_decimalValue hMatches
  | asset => exact noFloats_symbolValue hMatches
  | assetSet =>
      cases value with
      | list items =>
          simp only [valueMatchesType, Bool.and_eq_true, List.all_eq_true] at hMatches
          apply noFloatsItems_iff.mpr
          intro item hItem
          obtain ⟨source, hSource, rfl⟩ := List.mem_map.mp hItem
          exact noFloats_symbolValue (hMatches.2 source hSource)
      | _ => cases hMatches
  | portfolioTargets =>
      cases value with
      | dict fields =>
          simp only [valueMatchesType, Bool.and_eq_true, List.all_eq_true] at hMatches
          apply noFloatsFields_iff.mpr
          intro field hField
          obtain ⟨source, hSource, rfl⟩ := List.mem_map.mp (mem_dictOf hField)
          exact noFloats_decimalValue (hMatches source hSource).2
      | _ => cases hMatches
  | _ => cases value <;> trivial

/-- The ids of the bindings are those of the parameters. -/
theorem normalizedParameterBindings_spec {strategy : CanonicalStrategyV1}
    {provided : Dict String Value} {bindings : List (String × Value)}
    (h : normalizedParameterBindings strategy provided = some bindings) :
    bindings.map Prod.fst = strategy.definitions.parameters.map ParameterDefinition.id ∧
      NoFloatsFields bindings := by
  simp only [normalizedParameterBindings] at h
  split_ifs at h with hKnown
  generalize strategy.definitions.parameters = parameters at h ⊢
  clear hKnown
  induction parameters generalizing bindings with
  | nil =>
      cases h
      exact ⟨rfl, trivial⟩
  | cons parameter rest ih =>
      rw [List.mapM_cons] at h
      obtain ⟨binding, hBinding, h⟩ := Option.bind_eq_some_iff.mp h
      obtain ⟨others, hOthers, h⟩ := Option.bind_eq_some_iff.mp h
      obtain ⟨value, hValue, hEq⟩ := Option.bind_eq_some_iff.mp hBinding
      cases hEq
      cases h
      obtain ⟨hKeys, hFree⟩ := ih hOthers
      exact ⟨by rw [List.map_cons, List.map_cons, hKeys],
        noFloats_normalizeTypedValue hValue, hFree⟩

end Bindings

section Serialized

/-- A character that a serializer of strings leaves as it is. -/
def isSerializedAsIs (c : Char) : Bool := c.isAlphanum || c = '_' || c = '-' || c = ':'

theorem printable_of_serialized {c : Char} (h : isSerializedAsIs c = true) :
    isPrintable c = true ∧ c ≠ '"' ∧ c ≠ '\\' := by
  have hRange : (48 ≤ c.toNat ∧ c.toNat ≤ 57) ∨ (65 ≤ c.toNat ∧ c.toNat ≤ 90) ∨
      (97 ≤ c.toNat ∧ c.toNat ≤ 122) ∨ c.toNat = 95 ∨ c.toNat = 45 ∨ c.toNat = 58 := by
    simp only [isSerializedAsIs, Char.isAlphanum, Char.isAlpha, Char.isUpper, Char.isLower,
      Char.isDigit, Bool.or_eq_true, Bool.and_eq_true, decide_eq_true_eq, ge_iff_le,
      UInt32.le_iff_toNat_le] at h
    rcases h with ((((h | h) | h) | rfl) | rfl) | rfl
    · exact Or.inr (Or.inl h)
    · exact Or.inr (Or.inr (Or.inl h))
    · exact Or.inl h
    · decide
    · decide
    · decide
  refine ⟨?_, ?_, ?_⟩
  · simp only [isPrintable, Bool.and_eq_true, decide_eq_true_eq]
    omega
  · rintro rfl
    exact absurd hRange (by decide)
  · rintro rfl
    exact absurd hRange (by decide)

def SerializedAsIs (text : String) : Prop := ∀ c ∈ text.toList, isSerializedAsIs c = true

theorem printable_of_serializedAsIs {text : String} (h : SerializedAsIs text) :
    Printable text.toList :=
  fun c hc => (printable_of_serialized (h c hc)).1

theorem quote_of_serializedAsIs {text : String} (h : SerializedAsIs text) :
    quote text = '"' :: text.toList ++ ['"'] :=
  quote_of_printable (printable_of_serializedAsIs h)
    (fun hMem => (printable_of_serialized (h _ hMem)).2.1 rfl)
    (fun hMem => (printable_of_serialized (h _ hMem)).2.2 rfl)

theorem serializedAsIs_strategyHash {sha256 : ByteArray → Digest} {strategy : CanonicalStrategyV1}
    {identity : String} (h : strategyHash sha256 strategy = some identity) :
    SerializedAsIs identity := by
  obtain ⟨text, -, rfl⟩ := Option.map_eq_some_iff.mp h
  have hDigit : ∀ k : Fin 16, isSerializedAsIs (hexDigit k) = true := by decide
  intro c hc
  rw [String.toList_append, List.mem_append] at hc
  rcases hc with hHead | hRest
  · have hAll : "sha256:".toList.all isSerializedAsIs = true := by decide
    exact List.all_eq_true.mp hAll c hHead
  · rw [hexdigest, String.toList_ofList] at hRest
    obtain ⟨byte, -, hByte⟩ := List.mem_flatMap.mp hRest
    have hBound := byte.toNat_lt
    rcases List.mem_pair.mp hByte with rfl | rfl
    · exact hDigit ⟨byte.toNat / 16, by omega⟩
    · exact hDigit ⟨byte.toNat % 16, by omega⟩

theorem serializedAsIs_identifier {id : String} (h : isIdentifierText id = true) :
    SerializedAsIs id := by
  intro c hc
  simp only [isIdentifierText, Bool.and_eq_true] at h
  cases hText : id.toList with
  | nil =>
      rw [hText] at hc
      cases hc
  | cons d rest =>
      rw [hText] at hc
      simp only [hText, Bool.and_eq_true, List.all_eq_true, Bool.or_eq_true] at h
      obtain ⟨-, hFirst, hRest⟩ := h
      rcases List.mem_cons.mp hc with rfl | hLater
      · simp [isSerializedAsIs, Char.isAlphanum, hFirst]
      · rcases hRest c hLater with (hAlphanum | hUnder) | hMinus
        · simp [isSerializedAsIs, hAlphanum]
        · simp [isSerializedAsIs, of_decide_eq_true hUnder]
        · simp [isSerializedAsIs, of_decide_eq_true hMinus]

/-- A text of the form `YYYY-MM-DD`. -/
def IsDayText (text : String) : Prop :=
  ∃ y₁ y₂ y₃ y₄ m₁ m₂ d₁ d₂ : Char,
    text.toList = [y₁, y₂, y₃, y₄, '-', m₁, m₂, '-', d₁, d₂] ∧
      allDigits [y₁, y₂, y₃, y₄, m₁, m₂, d₁, d₂] = true

theorem serializedAsIs_day {text : String} (h : IsDayText text) : SerializedAsIs text := by
  obtain ⟨y₁, y₂, y₃, y₄, m₁, m₂, d₁, d₂, hText, hDigits⟩ := h
  have hDigit {c : Char} (h : c.isDigit = true) : isSerializedAsIs c = true := by
    simp [isSerializedAsIs, Char.isAlphanum, h]
  simp only [allDigits, List.all_cons, List.all_nil, Bool.and_true, Bool.and_eq_true] at hDigits
  obtain ⟨h1, h2, h3, h4, h5, h6, h7, h8⟩ := hDigits
  intro c hc
  rw [hText] at hc
  simp only [List.mem_cons, List.not_mem_nil, or_false] at hc
  rcases hc with rfl | rfl | rfl | rfl | rfl | rfl | rfl | rfl | rfl | rfl
  · exact hDigit h1
  · exact hDigit h2
  · exact hDigit h3
  · exact hDigit h4
  · rfl
  · exact hDigit h5
  · exact hDigit h6
  · rfl
  · exact hDigit h7
  · exact hDigit h8

end Serialized

section Material

/-- The document that is hashed for a seed. -/
def materialTree (identity componentId : String) (bindings : Tree)
    (eventIdentity : Option String) : Tree :=
  .object ([("strategy", .text identity), ("component_id", .text componentId),
      ("parameter_bindings", bindings)] ++
    (eventIdentity.map fun event => ("event_identity", Tree.text event)).toList)

theorem encode_seedMaterial (identity componentId : String) (bindings : List (String × Value))
    (eventIdentity : Option String) :
    encode jsonDefault (seedMaterial identity componentId bindings eventIdentity) =
      (encode jsonDefault (.dict bindings)).map fun tree =>
        materialTree identity componentId tree eventIdentity := by
  cases eventIdentity <;> cases h : encodeFields jsonDefault bindings <;>
    simp [seedMaterial, materialTree, encode, encodeFields, h]

/-- A key of an object, as it follows the brace or the comma before it. -/
def keyText (before : Char) (key : String) : List Char := before :: quote key ++ [':']

def eventText : Option String → List Char
  | none => []
  | some event => keyText ',' "event_identity" ++ quote event

/-- What is hashed for a seed, written out. -/
theorem dumps_materialTree (identity componentId : String) (bindings : Tree)
    (eventIdentity : Option String) :
    (dumps (materialTree identity componentId bindings eventIdentity)).toList =
      keyText '{' "component_id" ++ quote componentId ++ eventText eventIdentity ++
        keyText ',' "parameter_bindings" ++ (dumps bindings).toList ++
          keyText ',' "strategy" ++ quote identity ++ ['}'] := by
  have hText (tree : Tree) : (dumps tree).toList = render (sorted tree) := String.toList_ofList
  rw [hText, hText]
  cases eventIdentity with
  | none =>
      have hSorted : sorted (materialTree identity componentId bindings none) =
          .object [("component_id", .text componentId), ("parameter_bindings", sorted bindings),
            ("strategy", .text identity)] := by
        simp [materialTree, sorted, sortedFields, byKey, List.insertionSort, List.orderedInsert]
      rw [hSorted]
      simp only [render, renderFields, eventText, keyText, List.cons_append, List.append_assoc,
        List.nil_append]
  | some event =>
      have hSorted : sorted (materialTree identity componentId bindings (some event)) =
          .object [("component_id", .text componentId), ("event_identity", .text event),
            ("parameter_bindings", sorted bindings), ("strategy", .text identity)] := by
        simp [materialTree, sorted, sortedFields, byKey, List.insertionSort, List.orderedInsert]
      rw [hSorted]
      simp only [render, renderFields, eventText, keyText, List.cons_append, List.append_assoc,
        List.nil_append]

end Material

section Generated

/-- A serializer of strings quotes letters, digits, `_`, `-` and `:` unchanged. -/
def QuotesUnchanged (serialize : Option String → String) : Prop :=
  ∀ text, SerializedAsIs text → serialize (some text) = "\"" ++ text ++ "\""

theorem serialize_toList {serialize : Option String → String} (hQuotes : QuotesUnchanged serialize)
    {text : String} (h : SerializedAsIs text) :
    (serialize (some text)).toList = quote text := by
  rw [hQuotes text h, quote_of_serializedAsIs h, String.toList_append, String.toList_append]
  rfl

theorem eight_le_digest : 8 ≤ 32 := by omega

theorem ofFn_eight {α : Type} (f : Fin 8 → α) :
    List.ofFn f = [f 0, f 1, f 2, f 3, f 4, f 5, f 6, f 7] := rfl

/-- Eight bytes at the start of a digest. -/
theorem take_digest (digest : Digest) :
    digest.toList.take 8 = List.ofFn fun i : Fin 8 => digest.get (i.castLE eight_le_digest) := by
  apply List.ext_getElem
  · simp
  · intro i _ _
    rw [List.getElem_take, List.getElem_ofFn]
    rfl

/-- The concatenation of the generated code is the document of the contract. -/
theorem generatedSeed_eq {serialize : Option String → String} (hQuotes : QuotesUnchanged serialize)
    (sha256 : ByteArray → Digest) {identity componentId event : String} (bindings : Tree)
    (hIdentity : SerializedAsIs identity) (hComponent : SerializedAsIs componentId)
    (hEvent : SerializedAsIs event) (perEvent : Bool) :
    (generatedSeed serialize sha256 identity componentId (dumps bindings)
      (if perEvent then some event else none) perEvent).toNat =
      fromBytes ((sha256 (dumps (materialTree identity componentId bindings
        (if perEvent then some event else none))).toUTF8).toList.take 8) := by
  have hFirst : "\x7b\"component_id\":".toList = keyText '{' "component_id" := by decide +kernel
  have hBindings : ",\"parameter_bindings\":".toList = keyText ',' "parameter_bindings" := by
    decide +kernel
  have hStrategy : ",\"strategy\":".toList = keyText ',' "strategy" := by decide +kernel
  have hEventKey : ",\"event_identity\":".toList = keyText ',' "event_identity" := by
    decide +kernel
  have hMaterial : "\x7b\"component_id\":" ++ serialize (some componentId) ++
      (if perEvent then ",\"event_identity\":" ++
        serialize (if perEvent then some event else none) else "") ++
      ",\"parameter_bindings\":" ++ dumps bindings ++
      ",\"strategy\":" ++ serialize (some identity) ++ "\x7d" =
        dumps (materialTree identity componentId bindings
          (if perEvent then some event else none)) := by
    apply String.toList_inj.mp
    rw [dumps_materialTree]
    simp only [String.toList_append, hFirst, hBindings, hStrategy,
      serialize_toList hQuotes hComponent, serialize_toList hQuotes hIdentity]
    cases perEvent with
    | false => rfl
    | true =>
        simp only [if_true, String.toList_append, hEventKey, serialize_toList hQuotes hEvent]
        rfl
  rw [take_digest, ofFn_eight, ← toNat_shifted_bytes, ← hMaterial]
  rfl

end Generated

section Calls

/-- What lowering a random selection has found. -/
theorem compiled_spec {strategy : CanonicalStrategyV1} {provided : Dict String Value}
    {symbolsOf : String → Option (List String)} {component : Component}
    {selection : LeanRandomSelection}
    (h : (desugarRandomN strategy provided component).bind (lowerRandomN symbolsOf) =
      some selection) :
    isRandomSelection component = true ∧ selection.componentId = component.id ∧
      (∃ resample, resolvedResample component = some resample ∧
        resampleOf resample = some selection.resample) ∧
      ∃ bindings tree, normalizedParameterBindings strategy provided = some bindings ∧
        encode jsonDefault (.dict bindings) = some tree ∧
          selection.parameterBindingsJson = dumps tree := by
  obtain ⟨operation, hOperation, hLowered⟩ := Option.bind_eq_some_iff.mp h
  obtain ⟨symbols, -, hSelection⟩ := Option.bind_eq_some_iff.mp hLowered
  cases hSelection
  obtain ⟨json, hJson, h⟩ := Option.bind_eq_some_iff.mp hOperation
  obtain ⟨primitive, hPrimitive, h⟩ := Option.bind_eq_some_iff.mp h
  obtain ⟨bindings, hBindings, hTree⟩ := Option.bind_eq_some_iff.mp hJson
  obtain ⟨tree, hEncoded, hText⟩ := Option.bind_eq_some_iff.mp hTree
  cases hText
  by_cases hRandom : primitive.implementationId = "selection.random_n_v1"
  · rw [if_neg (not_not.mpr hRandom)] at h
    obtain ⟨-, -, h⟩ := Option.bind_eq_some_iff.mp h
    obtain ⟨assets, -, h⟩ := Option.bind_eq_some_iff.mp h
    obtain ⟨count, -, h⟩ := Option.bind_eq_some_iff.mp h
    obtain ⟨resample, hResample, h⟩ := Option.bind_eq_some_iff.mp h
    obtain ⟨value, hValue, hMode⟩ := Option.bind_eq_some_iff.mp hResample
    cases h
    refine ⟨?_, rfl, ⟨value, ?_, hMode⟩, bindings, tree, hBindings, hEncoded, rfl⟩
    · simp [isRandomSelection, hPrimitive, hRandom]
    · rw [resolvedResample, hPrimitive]
      exact hValue
  · rw [if_pos hRandom] at h
    cases h

/-- A component that is compiled is resampled at every event or once. -/
theorem isText_of_resampleOf {value : Value} {resample : LeanResample}
    (h : resampleOf value = some resample) :
    isText "per_event" (some value) = decide (resample = .perEvent) := by
  unfold resampleOf at h
  split at h
  · cases h
    decide
  · cases h
    decide
  · cases h

theorem day_ne_empty {event : String} (h : IsDayText event) : event.isEmpty = false := by
  obtain ⟨y₁, y₂, y₃, y₄, m₁, m₂, d₁, d₂, hText, -⟩ := h
  by_contra hEmpty
  rw [Bool.not_eq_false, String.isEmpty_iff] at hEmpty
  rw [hEmpty] at hText
  cases hText

/-- The literals of a generated call stand for what was written. -/
theorem run_seedExpression {serialize : Option String → String} {sha256 : ByteArray → Digest}
    {identity event : String} {selection : LeanRandomSelection}
    (hIdentity : Printable identity.toList) (hComponent : Printable selection.componentId.toList)
    (hBindings : Printable selection.parameterBindingsJson.toList) :
    (seedExpression identity selection).run serialize sha256 event =
      some (generatedSeed serialize sha256 identity selection.componentId
        selection.parameterBindingsJson
        (if selection.resample = .perEvent then some event else none)
        (decide (selection.resample = .perEvent))) := by
  cases hMode : selection.resample <;>
    simp [SeedCall.run, seedExpression, unquote_quote hIdentity, unquote_quote hComponent,
      unquote_quote hBindings, hMode]

/-- At every day the generated call computes the seed of the contract. -/
theorem seedCall_eq {serialize : Option String → String} (hQuotes : QuotesUnchanged serialize)
    {sha256 : ByteArray → Digest} {strategy : CanonicalStrategyV1} (hWell : strategy.WellFormed)
    {provided : Dict String Value} {symbolsOf : String → Option (List String)}
    {component : Component} (hMem : component ∈ strategy.graph.components)
    {selection : LeanRandomSelection}
    (hCompiled : (desugarRandomN strategy provided component).bind (lowerRandomN symbolsOf) =
      some selection)
    {identity : String} (hIdentity : strategyHash sha256 strategy = some identity)
    {event : String} (hDay : IsDayText event) :
    ∃ seed, (seedExpression identity selection).run serialize sha256 event = some seed ∧
      deterministicRandomSeed sha256 strategy component.id (some event) provided =
        some seed.toNat := by
  obtain ⟨hRandom, hId, ⟨resample, hResample, hMode⟩, bindings, tree, hBindings, hTree, hJson⟩ :=
    compiled_spec hCompiled
  have hIdentityText := serializedAsIs_strategyHash hIdentity
  have hComponentText := serializedAsIs_identifier
    (hWell.identifiers component.id (List.mem_map_of_mem hMem))
  have hPrintable : Printable (dumps tree).toList :=
    printable_dumps (printable_encode jsonDefault (.dict bindings)
      (normalizedParameterBindings_spec hBindings).2 hTree)
  refine ⟨_, run_seedExpression (printable_of_serializedAsIs hIdentityText)
    (hId ▸ printable_of_serializedAsIs hComponentText) (hJson ▸ hPrintable), ?_⟩
  have hFound : strategy.component? component.id = some component :=
    Sequence.find?_of_nodup hWell.components hMem
  have hPer := isText_of_resampleOf hMode
  have hEvent : (if isText "per_event" (some resample) = true then some event else none) =
      if selection.resample = .perEvent then some event else none := by
    rw [hPer]
    by_cases h : selection.resample = .perEvent <;> simp [h]
  have hSeed := generatedSeed_eq hQuotes sha256 tree hIdentityText hComponentText
    (serializedAsIs_day hDay) (decide (selection.resample = .perEvent))
  simp only [decide_eq_true_eq] at hSeed
  rw [hId, hJson, hSeed]
  simp [deterministicRandomSeed, hFound, hRandom, hResample, hBindings, hIdentity,
    encode_seedMaterial, hTree, day_ne_empty hDay, hEvent]

end Calls

end RuleTrade.V1
