import RuleTrade.Properties.SemanticFacts

/-! Projecting an accepted strategy returns: every field that is read has a value of its type,
every ancestor is a component, and what is found upstream is the only one there is. -/

namespace RuleTrade.V1

open Library

variable {strategy : CanonicalStrategyV1}

section Fields

variable {component : Component} {field : PrimitiveFieldSpec}

/-- A required field without issues has a value of its type. -/
theorem value_of_fieldIssues {ids : DefinitionReference → List String}
    {fields : List PrimitiveFieldSpec} {values : Dict String Value} {path : String}
    (h : fieldIssues ids fields values path = []) (hField : field ∈ fields)
    (hRequired : field.required = true) :
    ∃ value path, values.get? field.name = some value ∧
      valueMatchesType value field.valueType = true ∧ referenceIssues ids field value path = [] := by
  unfold fieldIssues at h
  rw [List.append_eq_nil_iff, List.flatMap_eq_nil_iff] at h
  have hFine := h.2 field hField
  unfold fieldIssue at hFine
  dsimp only at hFine
  rcases hValue : values.get? field.name with _ | value
  · simp [hValue, hRequired] at hFine
  · rw [hValue] at hFine
    dsimp only at hFine
    by_cases hMatches : valueMatchesType value field.valueType = true
    · rw [if_pos hMatches, List.append_eq_nil_iff] at hFine
      exact ⟨value, _, rfl, hMatches, hFine.2⟩
    · rw [if_neg hMatches] at hFine
      cases hFine

def hasIntegerField (name : String) (primitive : PrimitiveSpec) : Bool :=
  primitive.fields.any fun field => field.name = name && field.required && field.valueType = .integer

def hasReferenceField (name : String) (reference : DefinitionReference)
    (primitive : PrimitiveSpec) : Bool :=
  primitive.fields.any fun field =>
    field.name = name && field.required && field.reference = some reference

theorem integer_of_fieldIssues {ids : DefinitionReference → List String}
    {primitive : PrimitiveSpec} {values : Dict String Value} {path name : String}
    (h : fieldIssues ids primitive.fields values path = [])
    (hField : hasIntegerField name primitive = true) : ∃ n, values.get? name = some (.integer n) := by
  obtain ⟨field, hMem, hIs⟩ := List.any_eq_true.mp hField
  simp only [Bool.and_eq_true, decide_eq_true_eq] at hIs
  obtain ⟨⟨rfl, hRequired⟩, hType⟩ := hIs
  obtain ⟨value, _, hValue, hMatches, -⟩ := value_of_fieldIssues h hMem hRequired
  rw [hType] at hMatches
  cases value with
  | integer n => exact ⟨n, hValue⟩
  | _ => cases hMatches

theorem reference_of_fieldIssues {ids : DefinitionReference → List String}
    {primitive : PrimitiveSpec} {values : Dict String Value} {path name : String}
    {reference : DefinitionReference} (h : fieldIssues ids primitive.fields values path = [])
    (hField : hasReferenceField name reference primitive = true) :
    ∃ text ∈ ids reference, values.get? name = some (.text text) := by
  obtain ⟨field, hMem, hIs⟩ := List.any_eq_true.mp hField
  simp only [Bool.and_eq_true, decide_eq_true_eq] at hIs
  obtain ⟨⟨rfl, hRequired⟩, hReference⟩ := hIs
  obtain ⟨value, _, hValue, -, hIssues⟩ := value_of_fieldIssues h hMem hRequired
  unfold referenceIssues at hIssues
  rw [hReference] at hIssues
  cases value with
  | text t =>
      refine ⟨t, ?_, hValue⟩
      by_contra hUnknown
      simp [hUnknown] at hIssues
  | _ => cases hIssues

/-- The primitive of an accepted component, whose fields it fills. -/
theorem Accepted.fields (h : Accepted strategy) (hMem : component ∈ strategy.graph.components) :
    ∃ primitive path, getPrimitive component.primitive = some primitive ∧
      primitive ∈ builtinRegistry ∧ primitive.id = component.primitive ∧
      fieldIssues (definitionIds strategy) primitive.fields component.config path = [] := by
  obtain ⟨primitive, hGet⟩ := h.known hMem
  obtain ⟨hRegistry, hId⟩ := getPrimitive_some hGet
  have hIssues := h.components component hMem
  simp only [componentIssues, hGet, List.append_eq_nil_iff] at hIssues
  exact ⟨primitive, _, hGet, hRegistry, hId, hIssues.1.1⟩

/-- What is given is what is resolved. -/
theorem resolved_of_get? {primitive : PrimitiveSpec} {name : String} {value : Value}
    (hGet : getPrimitive component.primitive = some primitive)
    (h : component.config.get? name = some value) : resolved component name = .ok (some value) := by
  rw [resolved, hGet]
  dsimp only
  rw [resolveConfig, Dict.get?_update, h]
  rfl

theorem Accepted.resolved (h : Accepted strategy) (hMem : component ∈ strategy.graph.components)
    (name : String) : ∃ value, V1.resolved component name = .ok value := by
  obtain ⟨primitive, hGet⟩ := h.known hMem
  exact ⟨_, by rw [V1.resolved, hGet]⟩

theorem Accepted.resolvedInt (h : Accepted strategy)
    (hMem : component ∈ strategy.graph.components) {name id : String}
    (hKind : component.primitive = id)
    (hField : ∀ primitive ∈ builtinRegistry, primitive.id = id →
      hasIntegerField name primitive = true) :
    ∃ n, V1.resolvedInt component name = .ok n := by
  obtain ⟨primitive, path, hGet, hRegistry, hId, hFine⟩ := h.fields hMem
  obtain ⟨n, hValue⟩ := integer_of_fieldIssues hFine (hField primitive hRegistry (hId.trans hKind))
  refine ⟨n, ?_⟩
  rw [V1.resolvedInt, resolved_of_get? hGet hValue]
  rfl

theorem Accepted.resolvedText (h : Accepted strategy)
    (hMem : component ∈ strategy.graph.components) (name : String)
    (reference : DefinitionReference) {id : String} (hKind : component.primitive = id)
    (hField : ∀ primitive ∈ builtinRegistry, primitive.id = id →
      hasReferenceField name reference primitive = true) :
    ∃ text ∈ definitionIds strategy reference, V1.resolvedText component name = .ok text := by
  obtain ⟨primitive, path, hGet, hRegistry, hId, hFine⟩ := h.fields hMem
  obtain ⟨text, hKnown, hValue⟩ :=
    reference_of_fieldIssues hFine (hField primitive hRegistry (hId.trans hKind))
  refine ⟨text, hKnown, ?_⟩
  rw [V1.resolvedText, resolved_of_get? hGet hValue]
  rfl

end Fields

section Upstream

theorem component_of_isAncestor (hWell : strategy.WellFormed) (h : Accepted strategy)
    {source target : String} (hPath : IsAncestor strategy source target) :
    ∃ component, strategy.component? source = some component := by
  obtain ⟨next, hFeeds, -⟩ := Relation.TransGen.head'_iff.mp hPath
  obtain ⟨primitive, output, hSpec, -⟩ := output_of_feeds hWell h hFeeds
  obtain ⟨component, hComponent, -⟩ := primitiveSpec_some hSpec
  exact ⟨component, hComponent⟩

/-- The only ancestor of a primitive. -/
structure OnlyUpstream (strategy : CanonicalStrategyV1) (id primitive : String)
    (component : Component) : Prop where
  mem : component ∈ strategy.graph.components
  kind : component.primitive = primitive
  path : IsAncestor strategy component.id id
  only : ∀ other ∈ strategy.graph.components, other.primitive = primitive →
    IsAncestor strategy other.id id → other = component

theorem upstream_spec (hWell : strategy.WellFormed) (h : Accepted strategy)
    (id primitive : String) : ∃ found, upstream strategy id primitive = .ok found ∧
      ∀ component, found = some component ↔ OnlyUpstream strategy id primitive component := by
  obtain ⟨components, hComponents⟩ : ∃ components,
      (ancestors strategy id).mapM (componentAt strategy) = .ok components := by
    apply Sequence.exists_ok_mapM
    intro source hSource
    obtain ⟨component, hComponent⟩ := component_of_isAncestor hWell h (mem_ancestors.mp hSource)
    exact ⟨component, by rw [componentAt, hComponent]; rfl⟩
  have hEach := Sequence.forall₂_of_mapM hComponents
  have hLookup : ∀ {source : String} {component : Component},
      componentAt strategy source = .ok component → strategy.component? source = some component := by
    intro source component hAt
    unfold componentAt at hAt
    cases hComponent : strategy.component? source with
    | none => simp [hComponent] at hAt
    | some found =>
        rw [hComponent] at hAt
        rw [Except.ok.inj hAt]
  have hMem : ∀ component, component ∈ components ↔
      component ∈ strategy.graph.components ∧ IsAncestor strategy component.id id := by
    intro component
    constructor
    · intro hIn
      obtain ⟨source, hSource, hAt⟩ := Sequence.exists_left hEach hIn
      obtain ⟨hFound, rfl⟩ := component?_some (hLookup hAt)
      exact ⟨hFound, mem_ancestors.mp hSource⟩
    · rintro ⟨hIn, hPath⟩
      obtain ⟨found, hFound, hAt⟩ := Sequence.exists_right hEach (mem_ancestors.mpr hPath)
      have hSame := (component?_of_mem hWell hIn).symm.trans (hLookup hAt)
      rw [Option.some.inj hSame]
      exact hFound
  have hNodup : (components.map Component.id).Nodup := by
    have hIds : components.map Component.id = ancestors strategy id := by
      rw [← List.forall₂_eq_eq_eq, List.forall₂_map_left_iff]
      apply hEach.flip.imp
      intro component source hAt
      exact (component?_some (hLookup hAt)).2
    rw [hIds]
    exact nodup_ancestors id
  have hFiltered : (components.filter fun component => component.primitive = primitive).Nodup :=
    (List.Nodup.of_map _ hNodup).filter _
  have hOnly : ∀ component,
      (components.filter fun component => component.primitive = primitive) = [component] ↔
        OnlyUpstream strategy id primitive component := by
    intro component
    rw [Sequence.eq_singleton_iff hFiltered]
    simp only [List.mem_filter, hMem, decide_eq_true_eq]
    constructor
    · rintro ⟨⟨⟨hIn, hPath⟩, hKind⟩, hUnique⟩
      exact ⟨hIn, hKind, hPath, fun other hOther hSame hTo => hUnique other ⟨⟨hOther, hTo⟩, hSame⟩⟩
    · rintro ⟨hIn, hKind, hPath, hUnique⟩
      exact ⟨⟨⟨hIn, hPath⟩, hKind⟩, fun other hOther => hUnique other hOther.1.1 hOther.2 hOther.1.2⟩
  unfold upstream
  rw [hComponents, except_ok_bind]
  generalize (components.filter fun component => component.primitive = primitive) = matching at hOnly
  rcases matching with _ | ⟨first, _ | ⟨second, rest⟩⟩
  · exact ⟨none, rfl, fun component => by simp [← hOnly]⟩
  · exact ⟨some first, rfl, fun component => by simp [← hOnly]⟩
  · exact ⟨none, rfl, fun component => by simp [← hOnly]⟩

/-- The parts of a pipeline, each the only ancestor of its primitive. -/
structure PipelineSpec (strategy : CanonicalStrategyV1) (id : String) (pipeline : Pipeline) :
    Prop where
  source : ∀ component, pipeline.source = some component →
    component ∈ strategy.graph.components ∧
      (component.primitive = "universe@1" ∨ component.primitive = "asset_set@1")
  measure : ∀ component, pipeline.measure = some component ↔
    OnlyUpstream strategy id "trailing_return@1" component
  eligibility : ∀ component, pipeline.eligibility = some component ↔
    OnlyUpstream strategy id "filter@1" component
  rank : ∀ component, pipeline.rank = some component ↔ OnlyUpstream strategy id "rank@1" component

theorem pipelineOf_spec (hWell : strategy.WellFormed) (h : Accepted strategy) (id : String) :
    ∃ pipeline, pipelineOf strategy id = .ok pipeline ∧ PipelineSpec strategy id pipeline := by
  obtain ⟨measure, hMeasure, hMeasureSpec⟩ := upstream_spec hWell h id "trailing_return@1"
  obtain ⟨eligibility, hEligibility, hEligibilitySpec⟩ := upstream_spec hWell h id "filter@1"
  obtain ⟨rank, hRank, hRankSpec⟩ := upstream_spec hWell h id "rank@1"
  obtain ⟨named, hNamed, hNamedSpec⟩ := upstream_spec hWell h id "universe@1"
  obtain ⟨listed, hListed, hListedSpec⟩ := upstream_spec hWell h id "asset_set@1"
  unfold pipelineOf
  rw [hMeasure, except_ok_bind, hEligibility, except_ok_bind, hRank, except_ok_bind, hNamed,
    except_ok_bind]
  cases named with
  | some named =>
      refine ⟨_, rfl, ?_, hMeasureSpec, hEligibilitySpec, hRankSpec⟩
      intro component hSource
      have hOnly := (hNamedSpec component).mp hSource
      exact ⟨hOnly.mem, Or.inl hOnly.kind⟩
  | none =>
      dsimp only
      rw [hListed]
      refine ⟨_, rfl, ?_, hMeasureSpec, hEligibilitySpec, hRankSpec⟩
      intro component hSource
      have hOnly := (hListedSpec component).mp hSource
      exact ⟨hOnly.mem, Or.inr hOnly.kind⟩

end Upstream

section Definitions

theorem assetsOf_ok {id : String} (h : id ∈ strategy.assetSetIds) :
    ∃ assets, assetsOf strategy id = .ok assets := by
  obtain ⟨definition, hMem, rfl⟩ := List.mem_map.mp h
  unfold assetsOf
  rcases hFind : strategy.definitions.assetSets.find? (fun item => item.id = definition.id) with
    _ | found
  · exact absurd (List.find?_eq_none.mp hFind definition hMem) (by simp)
  · exact ⟨found.assets, by rw [hFind]⟩

/-- The asset set behind a universe is defined. -/
theorem Accepted.universeAssetSet (h : Accepted strategy) {item : UniverseDefinition}
    (hMem : item ∈ strategy.definitions.universes) {id : String}
    (hSet : V1.universeAssetSet strategy item = some id) : id ∈ strategy.assetSetIds := by
  obtain ⟨i, hi, hItem⟩ := List.getElem_of_mem hMem
  have hZip : (item, i) ∈ strategy.definitions.universes.zipIdx := by
    rw [List.mem_zipIdx_iff_getElem?, ← hItem]
    exact List.getElem?_eq_getElem hi
  have hIssues := List.flatMap_eq_nil_iff.mp h.universes _ hZip
  dsimp only at hIssues
  rw [List.append_eq_nil_iff] at hIssues
  unfold V1.universeAssetSet at hSet
  cases hSource : item.source with
  | assetSet =>
      rw [hSource] at hSet
      by_contra hUnknown
      have hSet : item.assetSetRef = some id := hSet
      simp [hSource, hSet, hUnknown] at hIssues
  | group =>
      rw [hSource] at hSet
      obtain ⟨group, hGroup, rfl⟩ := Option.map_eq_some_iff.mp hSet
      have hGroupMem := List.mem_of_find?_eq_some hGroup
      obtain ⟨j, hj, hIs⟩ := List.getElem_of_mem hGroupMem
      have hGroupZip : (group, j) ∈ strategy.definitions.groups.zipIdx := by
        rw [List.mem_zipIdx_iff_getElem?, ← hIs]
        exact List.getElem?_eq_getElem hj
      have hGroupIssues := List.flatMap_eq_nil_iff.mp h.groups _ hGroupZip
      by_contra hUnknown
      simp [hUnknown] at hGroupIssues
  | provider =>
      rw [hSource] at hSet
      cases hSet

theorem Accepted.universeAssets (h : Accepted strategy) {component : Component}
    (hMem : component ∈ strategy.graph.components) (hKind : component.primitive = "universe@1") :
    ∃ assets, V1.universeAssets strategy component = .ok assets := by
  obtain ⟨id, hKnown, hText⟩ := h.resolvedText hMem "universe_ref" .universeSet hKind (by decide)
  unfold V1.universeAssets
  rw [hText, except_ok_bind]
  rcases hFind : strategy.definitions.universes.find? (fun item => item.id = id) with _ | item
  · obtain ⟨definition, hDefinition, rfl⟩ := List.mem_map.mp hKnown
    exact absurd (List.find?_eq_none.mp hFind definition hDefinition) (by simp)
  · rw [hFind]
    dsimp only
    cases hSet : V1.universeAssetSet strategy item with
    | none => exact ⟨[], rfl⟩
    | some set => exact assetsOf_ok (h.universeAssetSet (List.mem_of_find?_eq_some hFind) hSet)

end Definitions

section Predicates

theorem indicator_lookback : ∀ primitive ∈ builtinRegistry, primitive.category = .indicator →
    hasIntegerField "lookback_bars" primitive = true := by
  decide

/-- A refused indicator says why. -/
theorem indicatorType_ne_silent {id path : String} {parameters : Dict String Value} :
    indicatorType strategy id parameters path ≠ .error (.semantic []) := by
  intro h
  unfold indicatorType at h
  split at h
  · simp [refuse] at h
  · split at h
    · split at h
      · cases h
      · next hIssues =>
          exact hIssues (CheckFailure.semantic.inj (Except.error.inj h))
    · simp [refuse] at h

theorem lookback_of_indicatorType {id path : String} {parameters : Dict String Value}
    {type : ValueType} (h : indicatorType strategy id parameters path = .ok type) :
    ∃ n, parameters.get? "lookback_bars" = some (.integer n) := by
  unfold indicatorType at h
  split at h
  · cases h
  · next indicator hGet =>
      split at h
      · next hCategory hResult =>
          split at h
          · next hFine =>
              exact integer_of_fieldIssues hFine
                (indicator_lookback indicator (getPrimitive_some hGet).1 hCategory)
          · cases h
      · cases h

theorem predicateLookback_ok {condition : Expression} {path : String}
    (h : issuesOf (requireType strategy condition .boolean path) = .ok []) :
    predicateLookback condition = .ok ⟨⟩ := by
  unfold predicateLookback
  split
  · next operator id type value parameters type' value' =>
      simp only [requireType, expressionType, except_ok_bind] at h
      have hAsset : type = .asset := by
        by_contra hOther
        simp [expectType, hOther, refuse, issuesOf, Bind.bind, Except.bind] at h
      rw [hAsset] at h
      rcases hType : indicatorType strategy id parameters (path ++ ".left") with e | type
      · cases e with
        | semantic issues =>
            have hNone : issues = [] := by
              simpa [hType, expectType, issuesOf, Bind.bind, Except.bind] using h
            exact absurd (hNone ▸ hType) indicatorType_ne_silent
        | raised error => simp [hType, expectType, issuesOf, Bind.bind, Except.bind] at h
      · obtain ⟨n, hValue⟩ := lookback_of_indicatorType hType
        rw [Dict.getD, hValue]
        rfl
  · rfl

end Predicates

section Returns

variable {component : Component}

theorem readOptional_ok {α : Type} {component : Option Component}
    {read : Component → Except ProjectionFailure α}
    (h : ∀ item, component = some item → ∃ value, read item = .ok value) :
    ∃ value, readOptional component read = .ok value := by
  cases component with
  | none => exact ⟨none, rfl⟩
  | some item =>
      obtain ⟨value, hValue⟩ := h item rfl
      exact ⟨some value, by rw [readOptional, hValue]; rfl⟩

theorem discard_ok {α : Type} {read : Except ProjectionFailure α}
    (h : ∃ value, read = .ok value) : discard read = .ok ⟨⟩ := by
  obtain ⟨value, rfl⟩ := h
  rfl

theorem Accepted.lookback (h : Accepted strategy) {id : String} :
    OnlyUpstream strategy id "trailing_return@1" component →
    ∃ n, V1.resolvedInt component "lookback_bars" = .ok n := by
  intro hOnly
  exact h.resolvedInt hOnly.mem hOnly.kind (by decide)

theorem Accepted.selectionFact (hWell : strategy.WellFormed) (h : Accepted strategy)
    (hMem : component ∈ strategy.graph.components) (hIs : isSelection component = true) :
    ∃ fact, V1.selectionFact strategy component = .ok fact := by
  obtain ⟨pipeline, hPipeline, hSpec⟩ := pipelineOf_spec hWell h component.id
  have hCount : ∃ n, V1.resolvedInt component "count" = .ok n := by
    unfold isSelection at hIs
    rw [Bool.or_eq_true, decide_eq_true_eq, decide_eq_true_eq] at hIs
    rcases hIs with hTop | hRandom
    · exact h.resolvedInt hMem hTop (by decide)
    · exact h.resolvedInt hMem hRandom (by decide)
  have hRead : readPipeline component pipeline = .ok ⟨⟩ := by
    unfold readPipeline
    split
    · exact discard_ok (h.resolved hMem _)
    · obtain ⟨measured, hMeasured⟩ : ∃ measured, readOptional pipeline.measure
          (fun item => V1.resolvedInt item "lookback_bars") = .ok measured :=
        readOptional_ok fun item hItem => h.lookback ((hSpec.measure item).mp hItem)
      obtain ⟨ranked, hRanked⟩ : ∃ ranked, readOptional pipeline.rank
          (fun item => V1.resolved item "direction") = .ok ranked :=
        readOptional_ok fun item hItem => h.resolved ((hSpec.rank item).mp hItem).mem _
      rw [hMeasured, except_ok_bind, hRanked, except_ok_bind]
      exact discard_ok (readOptional_ok fun item hItem =>
        h.resolved ((hSpec.eligibility item).mp hItem).mem _)
  obtain ⟨n, hCount⟩ := hCount
  refine ⟨pipelineFact component pipeline, ?_⟩
  rw [V1.selectionFact, hPipeline, except_ok_bind, hCount, except_ok_bind, hRead]
  rfl

theorem Accepted.readDetail (hWell : strategy.WellFormed) (h : Accepted strategy)
    (hMem : component ∈ strategy.graph.components) :
    V1.readDetail strategy component = .ok ⟨⟩ := by
  unfold V1.readDetail
  split
  · next hKind =>
      obtain ⟨id, hKnown, hText⟩ := h.resolvedText hMem "asset_set_ref" .assetSet hKind (by decide)
      rw [hText, except_ok_bind]
      exact discard_ok (assetsOf_ok hKnown)
  · next hKind => exact discard_ok (h.universeAssets hMem hKind)
  · next hKind => exact discard_ok (h.resolvedInt hMem hKind (by decide))
  · next hKind =>
      obtain ⟨measure, hMeasure, hSpec⟩ := upstream_spec hWell h component.id "trailing_return@1"
      rw [hMeasure, except_ok_bind]
      exact discard_ok (readOptional_ok fun item hItem => h.lookback ((hSpec item).mp hItem))
  · next hKind => exact discard_ok (h.resolvedInt hMem hKind (by decide))
  · next hKind =>
      obtain ⟨id, hKnown, hText⟩ := h.resolvedText hMem "fallback_asset_set_ref" .assetSet hKind
        (by decide)
      rw [hText, except_ok_bind]
      exact discard_ok (assetsOf_ok hKnown)
  · next hKind =>
      cases hCondition : component.condition with
      | none => rfl
      | some condition =>
          obtain ⟨path, hIssues⟩ :=
            (parts_of_expressionIssues (h.expressions component hMem)).1 condition hCondition
          exact predicateLookback_ok hIssues
  · rfl

theorem Accepted.componentFacts (hWell : strategy.WellFormed) (h : Accepted strategy) :
    ∃ facts, V1.componentFacts strategy = .ok facts := by
  obtain ⟨selections, hSelections⟩ : ∃ selections,
      (strategy.graph.components.filter isSelection).mapM (V1.selectionFact strategy) =
        .ok selections := by
    apply Sequence.exists_ok_mapM
    intro component hComponent
    obtain ⟨hMem, hIs⟩ := List.mem_filter.mp hComponent
    exact h.selectionFact hWell hMem hIs
  obtain ⟨others, hOthers⟩ : ∃ others, (strategy.graph.components.mapM fun component => (do
      V1.readDetail strategy component
      pure (ownFacts component) : Except ProjectionFailure (List SemanticFact))) = .ok others := by
    apply Sequence.exists_ok_mapM
    intro component hMem
    refine ⟨ownFacts component, ?_⟩
    rw [h.readDetail hWell hMem]
    rfl
  rw [V1.componentFacts, hSelections, except_ok_bind, hOthers]
  exact ⟨_, rfl⟩

end Returns

section Scripts

theorem event_shape : ∀ primitive ∈ builtinRegistry, primitive.category = .event →
    primitive.id = "daily@1" ∨ primitive.id = "monthly@1" ∨ primitive.id = "quarterly@1" := by
  decide

/-- An event has a timing fact. -/
theorem timing_of_event {component : Component} (hKind : component.primitive = "daily@1" ∨
    component.primitive = "monthly@1" ∨ component.primitive = "quarterly@1") :
    ∃ fact ∈ ownFacts component, fact.category = .timing := by
  rcases hKind with hKind | hKind | hKind <;>
    exact ⟨_, by simp [ownFacts, factShape, hKind]; rfl, rfl⟩

/-- The ends of an accepted entrypoint: an event and a component. -/
theorem Accepted.entrypoint (h : Accepted strategy) {entrypoint : Entrypoint}
    (hMem : entrypoint ∈ strategy.entrypoints) : ∃ event target,
      strategy.component? entrypoint.eventComponentId = some event ∧
      (event.primitive = "daily@1" ∨ event.primitive = "monthly@1" ∨
        event.primitive = "quarterly@1") ∧
      strategy.component? entrypoint.targetComponentId = some target := by
  obtain ⟨i, hi, hIs⟩ := List.getElem_of_mem hMem
  have hZip : (entrypoint, i) ∈ strategy.entrypoints.zipIdx := by
    rw [List.mem_zipIdx_iff_getElem?, ← hIs]
    exact List.getElem?_eq_getElem hi
  have hIssues := List.flatMap_eq_nil_iff.mp h.entrypoints _ hZip
  dsimp only at hIssues
  obtain ⟨hEvent, hTarget⟩ := List.append_eq_nil_iff.mp hIssues
  rcases hSpec : primitiveSpec strategy entrypoint.eventComponentId with _ | primitive
  · simp [hSpec] at hEvent
  · obtain ⟨event, hFound, hId, hRegistry⟩ := primitiveSpec_some hSpec
    have hCategory : primitive.category = .event := by
      by_contra hOther
      simp [hSpec, hOther] at hEvent
    have hKnown : entrypoint.targetComponentId ∈ strategy.componentIds := by
      by_contra hMissing
      simp [hMissing] at hTarget
    obtain ⟨target, hTargetMem, hTargetId⟩ := List.mem_map.mp hKnown
    rcases hLookup : strategy.component? entrypoint.targetComponentId with _ | found
    · exact absurd (List.find?_eq_none.mp hLookup target hTargetMem) (by simp [hTargetId])
    · exact ⟨event, found, hFound, hId ▸ event_shape primitive hRegistry hCategory, rfl⟩

theorem Accepted.scriptOf (h : Accepted strategy) {facts : List SemanticFact}
    (hFacts : V1.componentFacts strategy = .ok facts) {item : Entrypoint × Nat}
    (hMem : item.1 ∈ strategy.entrypoints) :
    ∃ owned, V1.scriptOf strategy facts item = .ok owned := by
  obtain ⟨event, target, hEvent, hKind, hTarget⟩ := h.entrypoint hMem
  obtain ⟨fact, hOwn, hTiming⟩ := timing_of_event hKind
  have hFact : fact ∈ facts := (mem_componentFacts hFacts).mpr
    (Or.inr (Or.inl ⟨event, (component?_some hEvent).1, hOwn⟩))
  unfold V1.scriptOf
  rw [componentAt, hEvent]
  simp only [Option.elim_some, except_ok_bind]
  rw [componentAt, hTarget]
  simp only [Option.elim_some, except_ok_bind]
  rcases hFind : facts.find? (fun fact =>
      fact.ref.primaryComponentId = some event.id && fact.category = .timing) with _ | found
  · have hNone := List.find?_eq_none.mp hFind fact hFact
    simp [(own_of_mem hOwn).2.1, hTiming] at hNone
  · rw [hFind]
    exact ⟨_, rfl⟩

/-- Projecting an accepted strategy returns. -/
theorem Accepted.projects (hWell : strategy.WellFormed) (h : Accepted strategy) :
    ∃ projection, projectSemanticComposition strategy = .ok projection := by
  obtain ⟨facts, hFacts⟩ := h.componentFacts hWell
  obtain ⟨owned, hOwned⟩ : ∃ owned,
      strategy.entrypoints.zipIdx.mapM (V1.scriptOf strategy facts) = .ok owned := by
    apply Sequence.exists_ok_mapM
    intro item hItem
    exact h.scriptOf hFacts (List.fst_mem_of_mem_zipIdx hItem)
  rw [projectSemanticComposition, hFacts, except_ok_bind, logicProjection, hOwned]
  exact ⟨_, rfl⟩

/-- What a projection is made of. -/
theorem projection_parts {projection : SemanticCompositionProjection}
    (h : projectSemanticComposition strategy = .ok projection) :
    componentFacts strategy = .ok projection.facts ∧
      projection.flow = flowProjection strategy projection.facts ∧
      logicProjection strategy projection.facts = .ok projection.logic := by
  obtain ⟨facts, hFacts, h⟩ := except_bind_ok.mp h
  obtain ⟨logic, hLogic, h⟩ := except_bind_ok.mp h
  cases h
  exact ⟨hFacts, rfl, hLogic⟩

end Scripts

end RuleTrade.V1
