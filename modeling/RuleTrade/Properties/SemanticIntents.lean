import Mathlib.Tactic.NormNum
import RuleTrade.Authoring.SemanticIntents
import RuleTrade.Strategy.ConfigEdits

/-! When an intent that is resolved first and an intent that is applied at once agree. -/

namespace RuleTrade.V1

open Library

section Edits

/-- The change of one field of one component. -/
def configEdit (id field : String) (value : Value) (component : Component) : Component :=
  if component.id = id then { component with config := component.config.set field value }
  else component

variable {id field : String} {value : Value}

theorem keepsShape_configEdit (hField : field ∉ shapeFields) :
    KeepsShape (configEdit id field value) := by
  constructor <;> intro component <;> unfold configEdit
  case config =>
    intro other hOther
    have hNe : other ≠ field := fun h => hField (h ▸ hOther)
    split
    · exact Dict.get?_set_of_ne hNe
    · rfl
  all_goals split <;> rfl

theorem configEdit_config_of_ne {component : Component} (h : component.id ≠ id) :
    configEdit id field value component = component := if_neg h

theorem configEdit_self {component : Component} (h : component.id = id) :
    (configEdit id field value component).config = component.config.set field value := by
  simp only [configEdit, if_pos h]

variable {strategy : CanonicalStrategyV1} {component : Component}

/-- A component of an id is the only one of that id. -/
theorem eq_of_component? (hNodup : strategy.componentIds.Nodup)
    (hFind : strategy.component? id = some component) {other : Component}
    (hMem : other ∈ strategy.graph.components) (hId : other.id = id) : other = component := by
  obtain ⟨hComponent, hSame⟩ := component?_some hFind
  exact List.inj_on_of_nodup_map hNodup hMem hComponent (hId.trans hSame.symm)

/-- Replacing a component by itself with a field set changes just that field. -/
theorem replaceIn_eq_reconfigure (hNodup : strategy.componentIds.Nodup)
    (hFind : strategy.component? id = some component) :
    strategy.withComponents (replaceIn strategy.graph.components id
      { component with config := component.config.set field value }) =
      reconfigure (configEdit id field value) strategy := by
  unfold reconfigure replaceIn
  congr 1
  apply List.map_congr_left
  intro item hItem
  unfold configEdit
  by_cases hId : item.id = id
  · rw [if_pos hId, if_pos hId, eq_of_component? hNodup hFind hItem hId]
  · rw [if_neg hId, if_neg hId]

end Edits

section Fields

variable {ids : DefinitionReference → List String} {fields : List PrimitiveFieldSpec}
  {config : Dict String Value} {path : String}

theorem fieldIssues_nil_iff : fieldIssues ids fields config path = [] ↔
    (∀ name ∈ config.keys, name ∈ fields.map PrimitiveFieldSpec.name) ∧
      ∀ field ∈ fields, fieldIssue ids config path field = [] := by
  rw [fieldIssues, List.append_eq_nil_iff, List.map_eq_nil_iff, List.flatMap_eq_nil_iff,
    ← List.length_eq_zero_iff, List.length_insertionSort, List.length_eq_zero_iff,
    List.filter_eq_nil_iff]
  simp only [decide_not, Bool.not_eq_true', decide_eq_false_iff_not, not_not]

theorem value_ofInt (n : Int) : (Numeral.ofInt n).value = n := by
  have hSign : ((if n < 0 then -1 else 1 : ℚ)) * (n.natAbs : ℚ) = n := by
    have hAbs : (n.natAbs : ℚ) = |(n : ℚ)| := by
      rw [Nat.cast_natAbs, Int.cast_abs]
    rw [hAbs]
    split
    · rename_i hNeg
      rw [abs_of_neg (by exact_mod_cast hNeg)]
      ring
    · rename_i hPos
      rw [abs_of_nonneg (by exact_mod_cast not_lt.mp hPos)]
      ring
  simpa [Numeral.ofInt, Numeral.value] using hSign

/-- An integer field with no bound but one from below. -/
structure IsPositiveField (field : PrimitiveFieldSpec) : Prop where
  valueType : field.valueType = .integer
  minimum : field.minimum = some 1
  maximum : field.maximum = none
  exclusiveMinimum : field.exclusiveMinimum = false
  choices : field.choices = []
  reference : field.reference = none

theorem fieldIssue_positive {field : PrimitiveFieldSpec} (hField : IsPositiveField field)
    {n : ℕ+} (hValue : config.get? field.name = some (.integer (n : Nat))) :
    fieldIssue ids config path field = [] := by
  have hLeast : ¬ ((Numeral.ofInt (n : Nat)).value < (1 : Int)) := by
    rw [value_ofInt, not_lt]
    exact_mod_cast n.one_le
  simp [fieldIssue, hValue, hField.valueType, valueMatchesType, choiceIssues, hField.choices,
    boundIssues, Value.number, minimumIssues, hField.minimum, hField.exclusiveMinimum,
    maximumIssues, hField.maximum, referenceIssues, hField.reference]
  simpa using hLeast

/-- Setting a positive field to a positive number raises no issue. -/
theorem fieldIssues_set {name : String} {n : ℕ+}
    (hFields : ∀ field ∈ fields, field.name = name → IsPositiveField field)
    (hNamed : name ∈ fields.map PrimitiveFieldSpec.name)
    (hNone : fieldIssues ids fields config path = []) :
    fieldIssues ids fields (config.set name (.integer (n : Nat))) path = [] := by
  rw [fieldIssues_nil_iff] at hNone ⊢
  obtain ⟨hKnown, hEach⟩ := hNone
  refine ⟨fun other hOther => ?_, fun field hField => ?_⟩
  · rcases Dict.mem_keys_set.mp hOther with rfl | hOld
    · exact hNamed
    · exact hKnown other hOld
  · by_cases hName : field.name = name
    · apply fieldIssue_positive (hFields field hField hName)
      rw [hName, Dict.get?_set_self]
    · have hSame : fieldIssue ids (config.set name (.integer (n : Nat))) path field =
          fieldIssue ids config path field := by
        simp only [fieldIssue, Dict.get?_set_of_ne hName]
      rw [hSame]
      exact hEach field hField

end Fields

section Registry

/-- What editing a lookback by a batch takes for a measure. -/
def takesLookback (component : Component) : Bool :=
  component.primitive = "trailing_return@1" ||
    component.primitive = "trailing_return_indicator@1"

variable {component : Component} {primitive : PrimitiveSpec}

/-- Counts and lookbacks in the registry: which primitives have them, and their bounds. -/
theorem registry_fields : ∀ primitive ∈ builtinRegistry,
    ("count" ∈ primitive.fields.map PrimitiveFieldSpec.name ↔
      (primitive.id = "top_n@1" ∨ primitive.id = "random_select@1")) ∧
    ("lookback_bars" ∈ primitive.fields.map PrimitiveFieldSpec.name ↔
      (primitive.id = "trailing_return@1" ∨ primitive.id = "trailing_return_indicator@1")) ∧
    ∀ field ∈ primitive.fields, (field.name = "count" → field.required = true) ∧
      (field.name = "count" ∨ field.name = "lookback_bars" →
        field.valueType = .integer ∧ field.minimum = some 1 ∧ field.maximum = none ∧
          field.exclusiveMinimum = false ∧ field.choices = [] ∧ field.reference = none) := by
  decide +kernel

theorem positiveField_of_registry {primitive : PrimitiveSpec} (hMem : primitive ∈ builtinRegistry)
    {field : PrimitiveFieldSpec} (hField : field ∈ primitive.fields)
    (hName : field.name = "count" ∨ field.name = "lookback_bars") : IsPositiveField field := by
  obtain ⟨hType, hLeast, hMost, hExclusive, hChoices, hReference⟩ :=
    ((registry_fields primitive hMem).2.2 field hField).2 hName
  exact ⟨hType, hLeast, hMost, hExclusive, hChoices, hReference⟩

theorem count_mem_iff (h : getPrimitive component.primitive = some primitive) :
    "count" ∈ primitive.fields.map PrimitiveFieldSpec.name ↔ isCounted component = true := by
  obtain ⟨hMem, hId⟩ := getPrimitive_some h
  rw [(registry_fields primitive hMem).1, hId, isCounted, Bool.or_eq_true, decide_eq_true_eq,
    decide_eq_true_eq]

theorem lookback_mem_iff (h : getPrimitive component.primitive = some primitive) :
    "lookback_bars" ∈ primitive.fields.map PrimitiveFieldSpec.name ↔
      takesLookback component = true := by
  obtain ⟨hMem, hId⟩ := getPrimitive_some h
  rw [(registry_fields primitive hMem).2.1, hId, takesLookback, Bool.or_eq_true, decide_eq_true_eq,
    decide_eq_true_eq]

/-- An accepted strategy stays accepted when a positive field is set. -/
theorem accepted_configEdit {strategy : CanonicalStrategyV1} (hAccepted : Accepted strategy)
    (hNodup : strategy.componentIds.Nodup) {id name : String} {n : ℕ+}
    (hName : name = "count" ∨ name = "lookback_bars")
    (hFind : strategy.component? id = some component)
    (hPrimitive : getPrimitive component.primitive = some primitive)
    (hNamed : name ∈ primitive.fields.map PrimitiveFieldSpec.name) :
    Accepted (reconfigure (configEdit id name (.integer (n : Nat))) strategy) := by
  have hShape : name ∉ shapeFields := by rcases hName with rfl | rfl <;> decide
  apply accepted_reconfigure (keepsShape_configEdit hShape) hAccepted
  intro other hOther spec hSpec
  have hNone := hAccepted.components other hOther
  simp only [componentIssues, hSpec, List.append_eq_nil_iff] at hNone
  by_cases hId : other.id = id
  · have hSame := eq_of_component? hNodup hFind hOther hId
    subst hSame
    rw [hPrimitive] at hSpec
    cases hSpec
    rw [configEdit_self hId]
    refine fieldIssues_set (fun field hField hEq => ?_) hNamed hNone.1.1
    exact positiveField_of_registry (getPrimitive_some hPrimitive).1 hField (hEq ▸ hName)
  · rw [configEdit_config_of_ne hId]
    exact hNone.1.1

end Registry

section Bounds

variable {change : Component → Component} (hChange : KeepsShape change)
  (strategy : CanonicalStrategyV1)
include hChange

/-- Upstream of a component, a change of other fields shows nowhere. -/
theorem upstreamAssetSetSize_reconfigure :
    upstreamAssetSetSize (reconfigure change strategy) = upstreamAssetSetSize strategy := by
  have hField : "asset_set_ref" ∈ shapeFields := by decide
  have hUpstream : upstreamOf (reconfigure change strategy) = upstreamOf strategy := by
    funext id
    simp only [upstreamOf, component?_reconfigure hChange]
    cases strategy.component? id with
    | none => rfl
    | some component => simp only [Option.map_some, hChange.primitive]; rfl
  have hSize : assetSetSize (reconfigure change strategy) = assetSetSize strategy := by
    funext id
    simp only [assetSetSize, component?_reconfigure hChange]
    cases strategy.component? id with
    | none => rfl
    | some component =>
        simp only [Option.map_some, hChange.primitive, referencedAssets,
          hChange.config component _ hField, reconfigure_definitions]
  funext id
  simp only [upstreamAssetSetSize, upstreamIds, hUpstream, hSize, reconfigure_connections]
  rfl

end Bounds

section Counts

variable {strategy : CanonicalStrategyV1}

/-- Whether a selection asks for no more than the assets upstream of it. -/
def CountFits (strategy : CanonicalStrategyV1) (component : Component) : Prop :=
  isCounted component = true → ∀ most, upstreamAssetSetSize strategy component.id = some most →
    ∀ count : Int, component.config.get? "count" = some (.integer count) → count ≤ most

/-- Selections of an accepted strategy hold a count. -/
theorem Accepted.count (h : Accepted strategy) {component : Component}
    (hMem : component ∈ strategy.graph.components) (hCounted : isCounted component = true) :
    ∃ count, component.config.get? "count" = some (.integer count) := by
  obtain ⟨primitive, hPrimitive⟩ := h.known hMem
  have hNone := h.components component hMem
  simp only [componentIssues, hPrimitive, List.append_eq_nil_iff] at hNone
  obtain ⟨field, hField, hName⟩ := List.mem_map.mp ((count_mem_iff hPrimitive).mpr hCounted)
  have hType := (positiveField_of_registry (getPrimitive_some hPrimitive).1 hField
    (Or.inl hName)).valueType
  have hRequired : field.required = true :=
    ((registry_fields primitive (getPrimitive_some hPrimitive).1).2.2 field hField).1 hName
  have hIssue := (fieldIssues_nil_iff.mp hNone.1.1).2 field hField
  rw [fieldIssue, hName] at hIssue
  rcases hGet : component.config.get? "count" with _ | value
  · simp [hGet, hRequired] at hIssue
  · cases value with
    | integer count => exact ⟨count, rfl⟩
    | _ => simp [hGet, hType, valueMatchesType] at hIssue

theorem checkCount_ok_iff {component : Component} {count : Int}
    (hCount : isCounted component = true →
      component.config.get? "count" = some (.integer count)) {done : PUnit.{1}} :
    checkCount strategy component = .ok done ↔ CountFits strategy component := by
  rw [checkCount]
  by_cases hCounted : isCounted component = true
  · have hGet := hCount hCounted
    rw [if_neg (by simpa using hCounted)]
    cases hSize : upstreamAssetSetSize strategy component.id with
    | none => simp [CountFits, hSize]
    | some most =>
        have hRead : countOf component = .ok count := by simp only [countOf, hGet]
        simp only [hRead, except_ok_bind, failIf, CountFits, hSize, hGet]
        by_cases hMore : count > most
        · rw [if_pos hMore]
          constructor
          · intro h
            cases h
          · intro h
            have hLe := h hCounted most rfl count rfl
            omega
        · rw [if_neg hMore]
          constructor
          · intro _ _ other hOther n hn
            cases hOther
            cases hn
            exact not_lt.mp hMore
          · exact fun _ => rfl
  · rw [if_pos hCounted]
    simp [CountFits, hCounted]

theorem forM_ok_iff {α ε : Type} {check : α → Except ε PUnit.{1}} {xs : List α} :
    xs.forM check = .ok ⟨⟩ ↔ ∀ x ∈ xs, check x = .ok ⟨⟩ := by
  induction xs with
  | nil => simp [pure, Except.pure]
  | cons x rest ih =>
      rw [List.forall_mem_cons, ← ih]
      show (check x >>= fun _ => rest.forM check) = .ok ⟨⟩ ↔ _
      constructor
      · intro h
        obtain ⟨⟨⟩, hFirst, hRest⟩ := except_bind_ok.mp h
        exact ⟨hFirst, hRest⟩
      · rintro ⟨hFirst, hRest⟩
        rw [hFirst]
        exact hRest

/-- The count bound over an accepted strategy. -/
theorem validateAuthoringInvariants_ok_iff (h : Accepted strategy) :
    validateAuthoringInvariants strategy = .ok ⟨⟩ ↔
      ∀ component ∈ strategy.graph.components, CountFits strategy component := by
  rw [validateAuthoringInvariants, forM_ok_iff]
  refine forall₂_congr fun component hMem => ?_
  by_cases hCounted : isCounted component = true
  · obtain ⟨count, hCount⟩ := h.count hMem hCounted
    exact checkCount_ok_iff fun _ => hCount
  · exact @checkCount_ok_iff strategy component 0 (fun h => absurd h hCounted) _

end Counts

section Paths

variable {strategy : CanonicalStrategyV1} {selectionId measureId : String} {count lookback : ℕ+}
  {result : CanonicalStrategyV1}

@[simp] theorem failIf_ok_iff {condition : Prop} [Decidable condition] {failure : Failure}
    {done : PUnit.{1}} : failIf condition failure = .ok done ↔ ¬ condition := by
  by_cases h : condition <;> simp [failIf, h]

def countEdited (strategy : CanonicalStrategyV1) (selectionId : String) (count : ℕ+) :
    CanonicalStrategyV1 :=
  reconfigure (configEdit selectionId "count" (.integer (count : Nat))) strategy

def lookbackEdited (strategy : CanonicalStrategyV1) (measureId : String) (lookback : ℕ+) :
    CanonicalStrategyV1 :=
  reconfigure (configEdit measureId "lookback_bars" (.integer (lookback : Nat))) strategy

theorem keepsShape_count : KeepsShape (configEdit selectionId "count" (.integer (count : Nat))) :=
  keepsShape_configEdit (by decide)

theorem keepsShape_lookback :
    KeepsShape (configEdit measureId "lookback_bars" (.integer (lookback : Nat))) :=
  keepsShape_configEdit (by decide)

theorem nodup_countEdited (h : strategy.componentIds.Nodup) :
    (countEdited strategy selectionId count).componentIds.Nodup := by
  rw [countEdited, componentIds_reconfigure keepsShape_count]
  exact h

/-- One step of a batch that sets a field. -/
theorem setComponentField_ok_iff {state next : CompositionState} {path id field : String}
    {value : Value} (hNodup : state.candidate.componentIds.Nodup) :
    setComponentField state path (.componentId id) field (.value value) = .ok next ↔
      ∃ component primitive, state.candidate.component? id = some component ∧
        getPrimitive component.primitive = some primitive ∧
        field ∈ primitive.fields.map PrimitiveFieldSpec.name ∧
        next = { state with candidate := reconfigure (configEdit id field value) state.candidate } := by
  simp only [setComponentField, resolveAddress, except_ok_bind, composedComponent]
  cases hFind : state.candidate.component? id with
  | none =>
      simp only [reduceCtorEq, false_and, exists_false, iff_false]
      intro h
      cases h
  | some component =>
      simp only [except_ok_bind, knownPrimitive, Option.some.injEq, exists_and_left,
        exists_eq_left']
      cases hGet : getPrimitive component.primitive with
      | none =>
          simp only [reduceCtorEq, false_and, exists_false, iff_false]
          intro h
          cases h
      | some primitive =>
          simp only [except_ok_bind, fieldValue, Option.some.injEq, exists_eq_left',
            replaceIn_eq_reconfigure hNodup hFind]
          constructor
          · intro h
            obtain ⟨⟨⟩, hNamed, h⟩ := except_bind_ok.mp h
            rw [failIf_ok_iff, not_not] at hNamed
            cases h
            exact ⟨hNamed, rfl⟩
          · rintro ⟨hNamed, rfl⟩
            rw [failIf, if_neg (not_not.mpr hNamed)]
            rfl

theorem finishComposition_of_accepted {state : CompositionState}
    (hSets : state.createdAssetSets = Dict.empty) (hAccepted : Accepted state.candidate) :
    finishComposition state = .ok state.candidate := by
  have hNone : ¬ ¬ (state.createdAssetSets.values.all
      (· ∈ referencedTexts state.candidate)) = true := by
    rw [hSets]
    exact not_not.mpr rfl
  have hValid : validateStrategyV1 state.candidate = .ok ⟨⟩ := validate_ok_iff.mpr hAccepted
  rw [finishComposition, failIf, if_neg hNone, hValid]
  rfl

/-- A batch of two mutations. -/
theorem applyComposition_pair {first second : Mutation} :
    applyComposition strategy [first, second] = .ok result ↔
      ∃ middle last, applyMutation (.start strategy) "operation.mutations[0]" first = .ok middle ∧
        applyMutation middle "operation.mutations[1]" second = .ok last ∧
        finishComposition last = .ok result := by
  simp only [applyComposition, applyMutations, except_bind_ok]
  constructor
  · rintro ⟨_, ⟨middle, hFirst, last, hSecond, hSame⟩, hFinish⟩
    cases hSame
    exact ⟨middle, _, hFirst, hSecond, hFinish⟩
  · rintro ⟨middle, last, hFirst, hSecond, hFinish⟩
    exact ⟨last, ⟨middle, hFirst, last, hSecond, rfl⟩, hFinish⟩

/-- The batch of a selection goes through wherever both components have the field. -/
theorem composed_ok_iff (hAccepted : Accepted strategy) (hNodup : strategy.componentIds.Nodup) :
    applyComposition strategy (selectionMutations selectionId measureId count lookback) =
        .ok result ↔
      ∃ selection measure, strategy.component? selectionId = some selection ∧
        isCounted selection = true ∧ strategy.component? measureId = some measure ∧
        takesLookback measure = true ∧
        result = lookbackEdited (countEdited strategy selectionId count) measureId lookback := by
  have hEdited (measure : Component) :
      (countEdited strategy selectionId count).component? measureId = some measure ↔
        ∃ original, strategy.component? measureId = some original ∧
          configEdit selectionId "count" (.integer (count : Nat)) original = measure := by
    rw [countEdited, component?_reconfigure keepsShape_count, Option.map_eq_some_iff]
  have hFinish {selection measure : Component} {selectionSpec measureSpec : PrimitiveSpec}
      (hSelection : strategy.component? selectionId = some selection)
      (hSelectionSpec : getPrimitive selection.primitive = some selectionSpec)
      (hCount : "count" ∈ selectionSpec.fields.map PrimitiveFieldSpec.name)
      (hMeasure : (countEdited strategy selectionId count).component? measureId = some measure)
      (hMeasureSpec : getPrimitive measure.primitive = some measureSpec)
      (hLookback : "lookback_bars" ∈ measureSpec.fields.map PrimitiveFieldSpec.name) :
      finishComposition { CompositionState.start strategy with
        candidate := lookbackEdited (countEdited strategy selectionId count) measureId lookback } =
        .ok (lookbackEdited (countEdited strategy selectionId count) measureId lookback) :=
    finishComposition_of_accepted rfl
      (accepted_configEdit
        (accepted_configEdit hAccepted hNodup (Or.inl rfl) hSelection hSelectionSpec hCount)
        (nodup_countEdited hNodup) (Or.inr rfl) hMeasure hMeasureSpec hLookback)
  rw [selectionMutations, applyComposition_pair]
  have hStart : (CompositionState.start strategy).candidate.componentIds.Nodup := hNodup
  simp only [applyMutation, setComponentField_ok_iff hStart]
  constructor
  · rintro ⟨_, last, ⟨selection, selectionSpec, hSelection, hSelectionSpec, hCount, rfl⟩, hSecond,
      hResult⟩
    obtain ⟨measure, measureSpec, hMeasure, hMeasureSpec, hLookback, rfl⟩ :=
      (setComponentField_ok_iff (nodup_countEdited hNodup)).mp hSecond
    obtain ⟨original, hOriginal, rfl⟩ := (hEdited measure).mp hMeasure
    have hTakes := (lookback_mem_iff hMeasureSpec).mp hLookback
    rw [takesLookback, keepsShape_count.primitive] at hTakes
    have hSame := hResult.symm.trans (hFinish hSelection hSelectionSpec hCount hMeasure
      hMeasureSpec hLookback)
    exact ⟨selection, original, hSelection, (count_mem_iff hSelectionSpec).mp hCount, hOriginal,
      hTakes, Except.ok.inj hSame⟩
  · rintro ⟨selection, measure, hSelection, hCounted, hMeasure, hTakes, rfl⟩
    obtain ⟨selectionSpec, hSelectionSpec⟩ := hAccepted.known (component?_some hSelection).1
    obtain ⟨measureSpec, hMeasureSpec⟩ := hAccepted.known (component?_some hMeasure).1
    have hCount := (count_mem_iff hSelectionSpec).mpr hCounted
    have hLookback := (lookback_mem_iff hMeasureSpec).mpr hTakes
    have hFound := (hEdited _).mpr ⟨measure, hMeasure, rfl⟩
    refine ⟨_, _, ⟨selection, selectionSpec, hSelection, hSelectionSpec, hCount, rfl⟩,
      (setComponentField_ok_iff (nodup_countEdited hNodup)).mpr
        ⟨_, measureSpec, hFound, ?_, hLookback, rfl⟩, ?_⟩
    · rw [keepsShape_count.primitive, hMeasureSpec]
    · exact hFinish hSelection hSelectionSpec hCount hFound
        (by rw [keepsShape_count.primitive, hMeasureSpec]) hLookback

theorem checkCandidate_ok_iff {candidate : CanonicalStrategyV1} (hAccepted : Accepted candidate) :
    checkCandidate candidate = .ok result ↔
      (∀ component ∈ candidate.graph.components, CountFits candidate component) ∧
        result = candidate := by
  have hValid : validateStrategyV1 candidate = .ok ⟨⟩ := validate_ok_iff.mpr hAccepted
  rw [← validateAuthoringInvariants_ok_iff hAccepted, checkCandidate, hValid]
  constructor
  · intro h
    obtain ⟨⟨⟩, hBounds, h⟩ := except_bind_ok.mp h
    cases h
    exact ⟨hBounds, rfl⟩
  · rintro ⟨hBounds, rfl⟩
    rw [hBounds]
    rfl

theorem requirePrimitive_ok_iff {id operation : String} {primitives : List String}
    {component : Component} :
    requirePrimitive strategy id primitives operation = .ok component ↔
      strategy.component? id = some component ∧ component.primitive ∈ primitives := by
  simp only [requirePrimitive, requireComponent]
  cases strategy.component? id with
  | none =>
      simp only [reduceCtorEq, false_and, iff_false]
      intro h
      cases h
  | some found =>
      simp only [except_ok_bind, Option.some.injEq]
      constructor
      · intro h
        obtain ⟨⟨⟩, hKnown, h⟩ := except_bind_ok.mp h
        rw [failIf_ok_iff, not_not] at hKnown
        cases h
        exact ⟨rfl, hKnown⟩
      · rintro ⟨rfl, hKnown⟩
        rw [failIf, if_neg (not_not.mpr hKnown)]
        rfl

theorem updateConfig_eq_reconfigure (hNodup : strategy.componentIds.Nodup) {id : String}
    {component : Component} (hFind : strategy.component? id = some component) (field : String)
    (value : Value) :
    updateConfig strategy component field value =
      reconfigure (configEdit id field value) strategy := by
  obtain ⟨-, rfl⟩ := component?_some hFind
  exact replaceIn_eq_reconfigure hNodup hFind

/-- Bounds after the edit of a count. -/
theorem countFits_countEdited (component : Component) :
    CountFits (countEdited strategy selectionId count)
        (configEdit selectionId "count" (.integer (count : Nat)) component) ↔
      if component.id = selectionId then
        isCounted component = true → ∀ most,
          upstreamAssetSetSize strategy selectionId = some most → (count : Nat) ≤ most
      else CountFits strategy component := by
  simp only [CountFits, countEdited, upstreamAssetSetSize_reconfigure keepsShape_count, isCounted,
    keepsShape_count.primitive, keepsShape_count.id]
  by_cases hId : component.id = selectionId
  · rw [if_pos hId, configEdit_self hId, Dict.get?_set_self, hId]
    refine imp_congr_right fun _ => forall₂_congr fun most _ => ⟨fun h => ?_, ?_⟩
    · exact_mod_cast h _ rfl
    · intro h other hOther
      cases hOther
      exact_mod_cast h
  · rw [if_neg hId, configEdit_config_of_ne hId]

/-- Bounds after the edit of a lookback. -/
theorem countFits_lookbackEdited (component : Component) :
    CountFits (lookbackEdited strategy measureId lookback)
        (configEdit measureId "lookback_bars" (.integer (lookback : Nat)) component) ↔
      CountFits strategy component := by
  have hCount : (configEdit measureId "lookback_bars" (.integer (lookback : Nat))
      component).config.get? "count" = component.config.get? "count" := by
    unfold configEdit
    split
    · exact Dict.get?_set_of_ne (by decide)
    · rfl
  simp only [CountFits, lookbackEdited, upstreamAssetSetSize_reconfigure keepsShape_lookback,
    isCounted, keepsShape_lookback.primitive, keepsShape_lookback.id, hCount]

/-- Where the edit of a count goes through. -/
theorem updatedCount_ok_iff (hAccepted : Accepted strategy)
    (hNodup : strategy.componentIds.Nodup) :
    applyStructuralOperation strategy (.updateSelectionCount selectionId count) = .ok result ↔
      ∃ selection, strategy.component? selectionId = some selection ∧
        isCounted selection = true ∧
        (∀ most, upstreamAssetSetSize strategy selectionId = some most → (count : Nat) ≤ most) ∧
        (∀ component ∈ strategy.graph.components, component.id ≠ selectionId →
          CountFits strategy component) ∧
        result = countEdited strategy selectionId count := by
  have hCounts (selection : Component) :
      selection.primitive ∈ ["top_n@1", "random_select@1"] ↔ isCounted selection = true := by
    simp [isCounted]
  have hCheck {selection : Component} (hFind : strategy.component? selectionId = some selection)
      (hCounted : isCounted selection = true) :
      checkCandidate (countEdited strategy selectionId count) = .ok result ↔
        (∀ most, upstreamAssetSetSize strategy selectionId = some most → (count : Nat) ≤ most) ∧
        (∀ component ∈ strategy.graph.components, component.id ≠ selectionId →
          CountFits strategy component) ∧
        result = countEdited strategy selectionId count := by
    obtain ⟨hMem, hId⟩ := component?_some hFind
    obtain ⟨primitive, hPrimitive⟩ := hAccepted.known hMem
    have hEdited : Accepted (countEdited strategy selectionId count) :=
      accepted_configEdit hAccepted hNodup (Or.inl rfl) hFind hPrimitive
        ((count_mem_iff hPrimitive).mpr hCounted)
    rw [checkCandidate_ok_iff hEdited, ← and_assoc]
    refine and_congr_left fun _ => ?_
    have hEach : (∀ component ∈ (countEdited strategy selectionId count).graph.components,
        CountFits (countEdited strategy selectionId count) component) ↔
        ∀ component ∈ strategy.graph.components,
          if component.id = selectionId then
            isCounted component = true → ∀ most,
              upstreamAssetSetSize strategy selectionId = some most → (count : Nat) ≤ most
          else CountFits strategy component := by
      simp only [← @countFits_countEdited strategy selectionId count]
      exact List.forall_mem_map
    rw [hEach]
    constructor
    · intro h
      refine ⟨?_, fun component hComponent hNe => ?_⟩
      · have hSelf := h selection hMem
        rw [if_pos hId] at hSelf
        exact hSelf hCounted
      · have hOther := h component hComponent
        rwa [if_neg hNe] at hOther
    · rintro ⟨hSelf, hOthers⟩ component hComponent
      split
      · exact fun _ => hSelf
      · rename_i hNe
        exact hOthers component hComponent hNe
  simp only [applyStructuralOperation, structuralCandidate, updateSelectionCount]
  constructor
  · intro h
    obtain ⟨candidate, hCandidate, hFinish⟩ := except_bind_ok.mp h
    obtain ⟨selection, hSelection, hCandidate⟩ := except_bind_ok.mp hCandidate
    rw [requirePrimitive_ok_iff, hCounts] at hSelection
    have hSame : candidate = countEdited strategy selectionId count := by
      rw [updateConfig_eq_reconfigure hNodup hSelection.1] at hCandidate
      cases hSize : upstreamAssetSetSize strategy selection.id with
      | none =>
          rw [hSize] at hCandidate
          exact (Except.ok.inj hCandidate).symm
      | some most =>
          rw [hSize] at hCandidate
          obtain ⟨⟨⟩, -, hCandidate⟩ := except_bind_ok.mp hCandidate
          exact (Except.ok.inj hCandidate).symm
    rw [hSame, hCheck hSelection.1 hSelection.2] at hFinish
    exact ⟨selection, hSelection.1, hSelection.2, hFinish⟩
  · rintro ⟨selection, hFind, hCounted, hSelf, hOthers, rfl⟩
    apply except_bind_ok.mpr
    refine ⟨countEdited strategy selectionId count, except_bind_ok.mpr ⟨selection, ?_, ?_⟩, ?_⟩
    · rw [requirePrimitive_ok_iff, hCounts]
      exact ⟨hFind, hCounted⟩
    · rw [updateConfig_eq_reconfigure hNodup hFind, (component?_some hFind).2]
      cases hSize : upstreamAssetSetSize strategy selectionId with
      | none => rfl
      | some most =>
          have hLe := hSelf most hSize
          simp only [failIf, if_neg (not_lt.mpr hLe)]
          rfl
    · exact (hCheck hFind hCounted).mpr ⟨hSelf, hOthers, rfl⟩

/-- Where the edit of a lookback goes through. -/
theorem updatedLookback_ok_iff (hAccepted : Accepted strategy)
    (hNodup : strategy.componentIds.Nodup) :
    applyStructuralOperation strategy (.updateLookback measureId lookback) = .ok result ↔
      ∃ measure, strategy.component? measureId = some measure ∧
        measure.primitive = "trailing_return@1" ∧
        (∀ component ∈ strategy.graph.components, CountFits strategy component) ∧
        result = lookbackEdited strategy measureId lookback := by
  have hCheck {measure : Component} (hFind : strategy.component? measureId = some measure)
      (hMeasure : measure.primitive = "trailing_return@1") :
      checkCandidate (lookbackEdited strategy measureId lookback) = .ok result ↔
        (∀ component ∈ strategy.graph.components, CountFits strategy component) ∧
        result = lookbackEdited strategy measureId lookback := by
    obtain ⟨primitive, hPrimitive⟩ := hAccepted.known (component?_some hFind).1
    have hTakes : takesLookback measure = true := by simp [takesLookback, hMeasure]
    have hEdited : Accepted (lookbackEdited strategy measureId lookback) :=
      accepted_configEdit hAccepted hNodup (Or.inr rfl) hFind hPrimitive
        ((lookback_mem_iff hPrimitive).mpr hTakes)
    rw [checkCandidate_ok_iff hEdited]
    refine and_congr_left fun _ => ?_
    have hEach : (∀ component ∈ (lookbackEdited strategy measureId lookback).graph.components,
        CountFits (lookbackEdited strategy measureId lookback) component) ↔ _ :=
      List.forall_mem_map
    rw [hEach]
    exact forall₂_congr fun component _ => countFits_lookbackEdited component
  simp only [applyStructuralOperation, structuralCandidate, updateField]
  constructor
  · intro h
    obtain ⟨candidate, hCandidate, hFinish⟩ := except_bind_ok.mp h
    obtain ⟨measure, hMeasure, hCandidate⟩ := except_bind_ok.mp hCandidate
    rw [requirePrimitive_ok_iff, List.mem_singleton] at hMeasure
    rw [updateConfig_eq_reconfigure hNodup hMeasure.1] at hCandidate
    cases hCandidate
    exact ⟨measure, hMeasure.1, hMeasure.2, (hCheck hMeasure.1 hMeasure.2).mp hFinish⟩
  · rintro ⟨measure, hFind, hMeasure, hFits, rfl⟩
    apply except_bind_ok.mpr
    refine ⟨lookbackEdited strategy measureId lookback,
      except_bind_ok.mpr ⟨measure, ?_, ?_⟩, (hCheck hFind hMeasure).mpr ⟨hFits, rfl⟩⟩
    · rw [requirePrimitive_ok_iff, List.mem_singleton]
      exact ⟨hFind, hMeasure⟩
    · rw [updateConfig_eq_reconfigure hNodup hFind]
      rfl

end Paths

section Agreement

/-- The two ways to apply an intent give the same strategies. -/
def IntentAgrees (strategy : CanonicalStrategyV1) (intent : SemanticIntent) : Prop :=
  ∀ result, applySemanticIntent strategy intent = .ok result ↔
    ∃ operation, resolveSemanticIntent intent = .ok operation ∧
      applyStructuralOperation strategy operation = .ok result

/-- Where a batch edits a selection and its measure, the measure is a trailing return and
every selection stays within the assets upstream of it. -/
def EditsWithinBounds (strategy : CanonicalStrategyV1) : SemanticIntent → Prop
  | .configureSelection selectionId count (some measureId) (some _) =>
      ∀ selection measure, strategy.component? selectionId = some selection →
        isCounted selection = true → strategy.component? measureId = some measure →
        takesLookback measure = true →
          measure.primitive = "trailing_return@1" ∧
          (∀ most, upstreamAssetSetSize strategy selectionId = some most → (count : Nat) ≤ most) ∧
          ∀ component ∈ strategy.graph.components, component.id ≠ selectionId →
            CountFits strategy component
  | _ => True

variable {strategy : CanonicalStrategyV1}

theorem intentAgrees_of_resolved {intent : SemanticIntent}
    (h : applySemanticIntent strategy intent =
      resolveSemanticIntent intent >>= applyStructuralOperation strategy) :
    IntentAgrees strategy intent := by
  intro result
  rw [h, except_bind_ok]

/-- The sequence of two edits, where the batch would go through. -/
theorem sequence_ok_iff (hAccepted : Accepted strategy) (hNodup : strategy.componentIds.Nodup)
    {selectionId measureId : String} {count lookback : ℕ+} {result : CanonicalStrategyV1} :
    applySemanticIntent strategy
        (.configureSelection selectionId count (some measureId) (some lookback)) = .ok result ↔
      ∃ selection measure, strategy.component? selectionId = some selection ∧
        isCounted selection = true ∧ strategy.component? measureId = some measure ∧
        measure.primitive = "trailing_return@1" ∧
        (∀ most, upstreamAssetSetSize strategy selectionId = some most → (count : Nat) ≤ most) ∧
        (∀ component ∈ strategy.graph.components, component.id ≠ selectionId →
          CountFits strategy component) ∧
        result = lookbackEdited (countEdited strategy selectionId count) measureId lookback := by
  have hBetween {selection : Component} (hFind : strategy.component? selectionId = some selection)
      (hCounted : isCounted selection = true) : Accepted (countEdited strategy selectionId count) := by
    obtain ⟨primitive, hPrimitive⟩ := hAccepted.known (component?_some hFind).1
    exact accepted_configEdit hAccepted hNodup (Or.inl rfl) hFind hPrimitive
      ((count_mem_iff hPrimitive).mpr hCounted)
  have hMeasure (measure : Component) :
      (countEdited strategy selectionId count).component? measureId = some measure ↔
        ∃ original, strategy.component? measureId = some original ∧
          configEdit selectionId "count" (.integer (count : Nat)) original = measure := by
    rw [countEdited, component?_reconfigure keepsShape_count, Option.map_eq_some_iff]
  rw [applySemanticIntent, except_bind_ok]
  constructor
  · rintro ⟨candidate, hFirst, hSecond⟩
    obtain ⟨selection, hFind, hCounted, hSelf, hOthers, rfl⟩ :=
      (updatedCount_ok_iff hAccepted hNodup).mp hFirst
    obtain ⟨measure, hFound, hReturn, -, rfl⟩ :=
      (updatedLookback_ok_iff (hBetween hFind hCounted) (nodup_countEdited hNodup)).mp hSecond
    obtain ⟨original, hOriginal, rfl⟩ := (hMeasure measure).mp hFound
    rw [keepsShape_count.primitive] at hReturn
    exact ⟨selection, original, hFind, hCounted, hOriginal, hReturn, hSelf, hOthers, rfl⟩
  · rintro ⟨selection, measure, hFind, hCounted, hOriginal, hReturn, hSelf, hOthers, rfl⟩
    refine ⟨_, (updatedCount_ok_iff hAccepted hNodup).mpr
      ⟨selection, hFind, hCounted, hSelf, hOthers, rfl⟩, ?_⟩
    refine (updatedLookback_ok_iff (hBetween hFind hCounted) (nodup_countEdited hNodup)).mpr
      ⟨_, (hMeasure _).mpr ⟨measure, hOriginal, rfl⟩, ?_, ?_, rfl⟩
    · rw [keepsShape_count.primitive, hReturn]
    · rw [countEdited, reconfigure_components, List.forall_mem_map]
      intro component hMem
      rw [← countEdited, countFits_countEdited]
      split
      · exact fun _ => hSelf
      · rename_i hNe
        exact hOthers component hMem hNe

/-- Resolved and applied intents agree exactly on edits within bounds. -/
theorem intentAgrees_iff (hWell : strategy.WellFormed)
    (hValid : validateStrategyV1 strategy = .ok ⟨⟩) (intent : SemanticIntent) :
    IntentAgrees strategy intent ↔ EditsWithinBounds strategy intent := by
  have hAccepted := validate_ok_iff.mp hValid
  cases intent with
  | configureSelection selectionId count measureId lookback =>
      cases lookback with
      | none =>
          refine iff_of_true (intentAgrees_of_resolved ?_) (by cases measureId <;> trivial)
          rw [applySemanticIntent]
          simp only [resolveSemanticIntent, except_ok_bind]
          rcases applyStructuralOperation strategy (.updateSelectionCount selectionId count) <;> rfl
      | some lookback =>
          cases measureId with
          | none =>
              refine iff_of_true (fun result => iff_of_false ?_ ?_) trivial
              · intro h
                rw [applySemanticIntent, except_bind_ok] at h
                obtain ⟨candidate, -, h⟩ := h
                cases h
              · rintro ⟨operation, hOperation, -⟩
                cases hOperation
          | some measureId =>
              simp only [IntentAgrees, resolveSemanticIntent, Except.ok.injEq, exists_eq_left',
                applyStructuralOperation, composed_ok_iff hAccepted hWell.components,
                sequence_ok_iff hAccepted hWell.components, EditsWithinBounds]
              constructor
              · intro h selection measure hFind hCounted hMeasure hTakes
                obtain ⟨_, other, -, -, hOther, hReturn, hSelf, hOthers, -⟩ :=
                  (h _).mpr ⟨selection, measure, hFind, hCounted, hMeasure, hTakes, rfl⟩
                rw [hMeasure] at hOther
                cases hOther
                exact ⟨hReturn, hSelf, hOthers⟩
              · intro h result
                constructor
                · rintro ⟨selection, measure, hFind, hCounted, hMeasure, hReturn, -, -, hResult⟩
                  have hTakes : takesLookback measure = true := by simp [takesLookback, hReturn]
                  exact ⟨selection, measure, hFind, hCounted, hMeasure, hTakes, hResult⟩
                · rintro ⟨selection, measure, hFind, hCounted, hMeasure, hTakes, hResult⟩
                  obtain ⟨hReturn, hSelf, hOthers⟩ :=
                    h selection measure hFind hCounted hMeasure hTakes
                  exact ⟨selection, measure, hFind, hCounted, hMeasure, hReturn, hSelf, hOthers,
                    hResult⟩
  | _ => exact iff_of_true (intentAgrees_of_resolved rfl) trivial

/-- The momentum pipeline over two assets, for a given count. -/
def momentumTopN (count : Nat) : CanonicalStrategyV1 where
  metadata := { name := "Momentum Top N" }
  definitions := { assetSets := [⟨"pair", ["SPY", "TLT"]⟩] }
  graph :=
    { components :=
        [{ id := "schedule", primitive := "daily@1" },
          { id := "assets", primitive := "asset_set@1"
            config := Dict.empty.set "asset_set_ref" (.text "pair") },
          { id := "momentum", primitive := "trailing_return@1"
            config := Dict.empty.set "lookback_bars" (.integer 126) },
          { id := "rank", primitive := "rank@1" },
          { id := "top_n", primitive := "top_n@1"
            config := Dict.empty.set "count" (.integer count) },
          { id := "weights", primitive := "equal_weight@1"
            config := Dict.empty.set "total" (.text "1") },
          { id := "rebalance", primitive := "rebalance@1" }]
      connections :=
        [⟨⟨"assets", "assets"⟩, ⟨"momentum", "assets"⟩⟩,
          ⟨⟨"momentum", "scores"⟩, ⟨"rank", "scores"⟩⟩,
          ⟨⟨"rank", "ranked"⟩, ⟨"top_n", "ranked"⟩⟩,
          ⟨⟨"top_n", "selected"⟩, ⟨"weights", "assets"⟩⟩,
          ⟨⟨"weights", "targets"⟩, ⟨"rebalance", "targets"⟩⟩] }
  entrypoints := [⟨"schedule", "rebalance"⟩]

theorem momentumTopN_wellFormed : (momentumTopN 1).WellFormed :=
  ⟨by decide, by decide, by decide, by decide, by decide, by decide, by decide⟩

theorem momentumTopN_valid : validateStrategyV1 (momentumTopN 1) = .ok ⟨⟩ := by
  with_unfolding_all rfl

theorem momentumTopN_agrees :
    IntentAgrees (momentumTopN 1) (.configureSelection "top_n" 2 (some "momentum") (some 63)) ↔
      EditsWithinBounds (momentumTopN 1)
        (.configureSelection "top_n" 2 (some "momentum") (some 63)) :=
  intentAgrees_iff momentumTopN_wellFormed momentumTopN_valid _

theorem exists_ok_of_isOk {α ε : Type} {x : Except ε α} (h : x.isOk = true) :
    ∃ a, x = .ok a := by
  cases x with
  | error e => cases h
  | ok a => exact ⟨a, rfl⟩

/-- Choosing three of two assets: the batch goes through, the sequence does not. -/
theorem overdrawnSelection_disagrees :
    ¬ IntentAgrees (momentumTopN 1)
      (.configureSelection "top_n" 3 (some "momentum") (some 63)) := by
  intro h
  have hBatch : ∃ result, applyStructuralOperation (momentumTopN 1)
      (.compose (selectionMutations "top_n" "momentum" 3 63)) = .ok result :=
    exists_ok_of_isOk (by with_unfolding_all rfl)
  have hSequence : (applySemanticIntent (momentumTopN 1)
      (.configureSelection "top_n" 3 (some "momentum") (some 63))).isOk = false := by
    with_unfolding_all rfl
  obtain ⟨result, hResult⟩ := hBatch
  rw [(h result).mpr ⟨_, rfl, hResult⟩] at hSequence
  cases hSequence

end Agreement

end RuleTrade.V1
