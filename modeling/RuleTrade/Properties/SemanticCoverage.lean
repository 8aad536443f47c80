import RuleTrade.Properties.SemanticReturns

/-! What a projection keeps of a strategy: a fact for every component, and for every Top N
selection the measure, the filter and the rank of its own pipeline. -/

namespace RuleTrade.V1

open Library

variable {strategy : CanonicalStrategyV1}

section Coverage

/-- A component that passes scored candidates on. -/
def IsStage (component : Component) : Prop :=
  component.primitive = "filter@1" ∨ component.primitive = "rank@1"

/-- A component feeds another one, or a filter or rank that feeds it directly. -/
inductive DirectSource (strategy : CanonicalStrategyV1) (target : String) : Component → Prop where
  | feeds {component : Component} (hMem : component ∈ strategy.graph.components)
      (hFeeds : Feeds strategy component.id target) : DirectSource strategy target component
  | stage {component stage : Component} (hMem : component ∈ strategy.graph.components)
      (hStage : IsStage stage) (hDirect : DirectSource strategy target stage)
      (hFeeds : Feeds strategy component.id stage.id) : DirectSource strategy target component

/-- The primitives of a selection's measure, eligibility and rank. -/
def isPipelinePart (component : Component) : Bool :=
  component.primitive = "trailing_return@1" || component.primitive = "filter@1" ||
    component.primitive = "rank@1"

/-- A projection keeps everything of a strategy. -/
structure LosesNothing (strategy : CanonicalStrategyV1)
    (projection : SemanticCompositionProjection) : Prop where
  covered : ∀ component ∈ strategy.graph.components, ∃ fact ∈ projection.facts,
    fact.ref.primaryComponentId = some component.id ∨ component.id ∈ fact.ref.relatedComponentIds
  selections : ∀ selection ∈ strategy.graph.components, selection.primitive = "top_n@1" →
    ∀ fact ∈ factsOf projection.facts selection, fact.kind = "ranked_selection" ∧
      ∀ component ∈ strategy.graph.components, isPipelinePart component = true →
        (component.id ∈ fact.ref.relatedComponentIds ↔ DirectSource strategy selection.id component)
  distinct : (projection.facts.map SemanticFact.id).Nodup
  inFlow : ∀ fact ∈ projection.facts,
    (projection.flow.placements.map FactPlacement.factId).count fact.id = 1
  inLogic : ∀ fact ∈ projection.facts,
    (projection.logic.placements.map FactPlacement.factId).count fact.id = 1

/-- Every rank is used, and the pipeline of every Top N can be told from others. -/
structure PipelinesApart (strategy : CanonicalStrategyV1) : Prop where
  indicators : ∀ component ∈ strategy.graph.components,
    component.primitive ≠ "trailing_return_indicator@1"
  ranks : ∀ rank ∈ strategy.graph.components, rank.primitive = "rank@1" →
    ∃ connection ∈ strategy.graph.connections, connection.source.componentId = rank.id
  measures : ∀ selection ∈ strategy.graph.components, selection.primitive = "top_n@1" →
    ∃ measure, OnlyUpstream strategy selection.id "trailing_return@1" measure
  filters : ∀ selection ∈ strategy.graph.components, selection.primitive = "top_n@1" →
    ∀ first ∈ strategy.graph.components, ∀ second ∈ strategy.graph.components,
      first.primitive = "filter@1" → second.primitive = "filter@1" →
      IsAncestor strategy first.id selection.id → IsAncestor strategy second.id selection.id →
      first = second

end Coverage

section Sources

variable {component : Component}

/-- Ancestors get fewer towards the sources. -/
theorem length_ancestors_lt (hWell : strategy.WellFormed) (h : Accepted strategy)
    {source target : String} (hFeeds : Feeds strategy source target) :
    (ancestors strategy source).length < (ancestors strategy target).length := by
  have hSelf : source ∉ ancestors strategy source := by
    rw [mem_ancestors]
    exact not_isAncestor_self hWell h source
  have hSubset : source :: ancestors strategy source ⊆ ancestors strategy target := by
    intro node hNode
    rw [mem_ancestors]
    rcases List.mem_cons.mp hNode with rfl | hNode
    · exact .single hFeeds
    · exact (mem_ancestors.mp hNode).tail hFeeds
  have hNodup : (source :: ancestors strategy source).Nodup :=
    List.nodup_cons.mpr ⟨hSelf, nodup_ancestors source⟩
  have hLength := (hNodup.subperm hSubset).length_le
  rw [List.length_cons] at hLength
  omega

/-- A component with one input, which takes one connection and needs it. -/
def hasOneInput (type : ValueType) (primitive : PrimitiveSpec) : Bool :=
  match primitive.inputs with
  | [port] => port.required && !port.multiple && port.valueType = type
  | _ => false

def gives (type : ValueType) (primitive : PrimitiveSpec) : Bool :=
  primitive.outputs.any fun output => output.valueType = type

/-- The required inputs of an accepted component are connected. -/
theorem Accepted.input_connected (h : Accepted strategy)
    (hMem : component ∈ strategy.graph.components) {primitive : PrimitiveSpec}
    (hGet : getPrimitive component.primitive = some primitive) {port : PortSpec}
    (hPort : port ∈ primitive.inputs) (hRequired : port.required = true) :
    ∃ connection ∈ strategy.graph.connections, connection.target = ⟨component.id, port.name⟩ := by
  have hShape := h.shapes component hMem
  rw [shapeIssues, hGet] at hShape
  have hFirst : ∀ {issues : Except Raised (List SemanticIssue)},
      (do
        let shape ← issues
        pure (requiredInputIssues strategy component primitive ++ shape)) =
          (.ok [] : Except Raised (List SemanticIssue)) →
      requiredInputIssues strategy component primitive = [] := by
    intro issues hRun
    obtain ⟨shape, -, hRun⟩ := except_bind_ok.mp hRun
    exact (List.append_eq_nil_iff.mp (Except.ok.inj hRun)).1
  have hInputs : requiredInputIssues strategy component primitive = [] := by
    dsimp only at hShape
    split_ifs at hShape <;> exact hFirst hShape
  have hSource : inputSource strategy component.id port.name ≠ none := by
    intro hNone
    have hIssue := List.flatMap_eq_nil_iff.mp hInputs port hPort
    simp [hRequired, hNone] at hIssue
  unfold inputSource at hSource
  rcases hFind : (linked strategy).find? (fun item => item.target = ⟨component.id, port.name⟩) with
    _ | connection
  · simp [hFind] at hSource
  · have hIs := List.find?_some hFind
    exact ⟨connection, (List.mem_filter.mp (List.mem_of_find?_eq_some hFind)).1, by simpa using hIs⟩

/-- A component of one input has one source, whose primitive has an output of its type. -/
theorem sole_source (hWell : strategy.WellFormed) (h : Accepted strategy)
    (hMem : component ∈ strategy.graph.components) {type : ValueType} {id : String}
    (hKind : component.primitive = id)
    (hInput : ∀ primitive ∈ builtinRegistry, primitive.id = id →
      hasOneInput type primitive = true) (hRule : id ≠ "rule@1") :
    ∃ source ∈ strategy.graph.components,
      (∃ primitive ∈ builtinRegistry, primitive.id = source.primitive ∧ gives type primitive = true) ∧
      ∀ node, Feeds strategy node component.id ↔ node = source.id := by
  obtain ⟨primitive, hGet⟩ := h.known hMem
  obtain ⟨hRegistry, hId⟩ := getPrimitive_some hGet
  have hSpec : primitiveSpec strategy component.id = some primitive := by
    rw [primitiveSpec, component?_of_mem hWell hMem]
    exact hGet
  have hOne := hInput primitive hRegistry (hId.trans hKind)
  unfold hasOneInput at hOne
  split at hOne
  · next port hPorts =>
      simp only [Bool.and_eq_true, Bool.not_eq_true', decide_eq_true_eq] at hOne
      obtain ⟨⟨hRequired, hSingle⟩, hType⟩ := hOne
      obtain ⟨connection, hConnection, hTarget⟩ :=
        h.input_connected hMem hGet (by rw [hPorts]; exact List.mem_singleton_self _) hRequired
      have hInputs : ∀ input ∈ primitive.inputs, input = port := by
        rw [hPorts]
        exact fun input hInput => List.mem_singleton.mp hInput
      -- every connection to the component is the one to its port
      have hPort : ∀ other ∈ strategy.graph.connections,
          other.target.componentId = component.id → ∃ source output,
            primitiveSpec strategy other.source.componentId = some source ∧
            output ∈ source.outputs ∧ output.valueType = type ∧ other = connection := by
        intro other hOther hTo
        obtain ⟨earlier, hTyped⟩ := h.typed hOther
        obtain ⟨source, target, output, input, hFrom, hSpec', hOutput, hFind, hSame, -⟩ := hTyped.ports
        rw [hTo, hSpec] at hSpec'
        cases hSpec'
        have hIs := hInputs input (List.mem_of_find?_eq_some hFind)
        have hName : input.name = other.target.port := by simpa using List.find?_some hFind
        rw [hIs] at hName hSame
        have hTargets : other.target = connection.target := by
          rw [hTarget, hName, ← hTo]
        refine ⟨source, output, hFrom, List.mem_of_find?_eq_some hOutput, hSame.trans hType, ?_⟩
        apply h.single_input hOther hConnection hTargets (hTo ▸ hSpec)
        intro input hInput
        rw [hInputs input hInput]
        exact hSingle
      obtain ⟨source, output, hFrom, hOutput, hOutputType, -⟩ :=
        hPort connection hConnection (by rw [hTarget])
      obtain ⟨found, hFound, hFoundId, hFoundRegistry⟩ := primitiveSpec_some hFrom
      obtain ⟨hFoundMem, hSourceId⟩ := component?_some hFound
      refine ⟨found, hFoundMem, ⟨source, hFoundRegistry, hFoundId.symm,
        List.any_eq_true.mpr ⟨output, hOutput, by simpa using hOutputType⟩⟩, fun node => ?_⟩
      rw [hSourceId]
      constructor
      · intro hFeeds
        rcases feeds_cases hWell h hFeeds with ⟨other, hOther, rfl, hTo⟩ |
          ⟨_, _, _, ⟨rule, hLookup, hIsRule⟩, _⟩
        · obtain ⟨-, -, -, -, -, rfl⟩ := hPort other hOther hTo
          rfl
        · rw [component?_of_mem hWell hMem] at hLookup
          cases hLookup
          exact absurd (hKind.symm.trans hIsRule) hRule
      · rintro rfl
        apply List.mem_append_left
        exact List.mem_map.mpr ⟨connection, List.mem_filter.mpr ⟨hConnection, by simp [hTarget]⟩, rfl⟩
  · cases hOne

theorem score_input : ∀ primitive ∈ builtinRegistry,
    primitive.id = "filter@1" ∨ primitive.id = "rank@1" →
      hasOneInput .assetScores primitive = true := by
  decide

theorem score_output : ∀ primitive ∈ builtinRegistry, gives .assetScores primitive = true →
    primitive.id = "trailing_return@1" ∨ primitive.id = "filter@1" := by
  decide

theorem ranked_input : ∀ primitive ∈ builtinRegistry, primitive.id = "top_n@1" →
    hasOneInput .rankedAssets primitive = true := by
  decide

theorem ranked_output : ∀ primitive ∈ builtinRegistry, gives .rankedAssets primitive = true →
    primitive.id = "rank@1" := by
  decide

/-- The one source of a filter or rank: a measure or a filter. -/
theorem source_of_stage (hWell : strategy.WellFormed) (h : Accepted strategy)
    (hMem : component ∈ strategy.graph.components) (hStage : IsStage component) :
    ∃ source ∈ strategy.graph.components,
      (source.primitive = "trailing_return@1" ∨ source.primitive = "filter@1") ∧
      ∀ node, Feeds strategy node component.id ↔ node = source.id := by
  obtain ⟨source, hSource, ⟨primitive, hRegistry, hId, hGives⟩, hOnly⟩ :=
    sole_source hWell h hMem rfl
      (fun primitive hRegistry hId => score_input primitive hRegistry (hId ▸ hStage)) (by
        rcases hStage with hKind | hKind <;> rw [hKind] <;> decide)
  exact ⟨source, hSource, hId ▸ score_output primitive hRegistry hGives, hOnly⟩

/-- The one source of a Top N: a rank. -/
theorem source_of_topN (hWell : strategy.WellFormed) (h : Accepted strategy)
    (hMem : component ∈ strategy.graph.components) (hKind : component.primitive = "top_n@1") :
    ∃ source ∈ strategy.graph.components, source.primitive = "rank@1" ∧
      ∀ node, Feeds strategy node component.id ↔ node = source.id := by
  obtain ⟨source, hSource, ⟨primitive, hRegistry, hId, hGives⟩, hOnly⟩ :=
    sole_source hWell h hMem hKind ranked_input (by decide)
  exact ⟨source, hSource, hId.symm.trans (ranked_output primitive hRegistry hGives), hOnly⟩

end Sources

section Measures

variable {target : String} {component stage : Component}

theorem DirectSource.mem (h : DirectSource strategy target component) :
    component ∈ strategy.graph.components := by
  cases h with
  | feeds hMem _ => exact hMem
  | stage hMem _ _ _ => exact hMem

theorem DirectSource.path (h : DirectSource strategy target component) :
    IsAncestor strategy component.id target := by
  induction h with
  | feeds _ hFeeds => exact .single hFeeds
  | stage _ _ _ hFeeds ih => exact .head hFeeds ih

/-- What feeds a stage directly feeds directly what the stage feeds. -/
theorem DirectSource.extend (h : DirectSource strategy stage.id component)
    (hMem : stage ∈ strategy.graph.components) (hStage : IsStage stage)
    (hFeeds : Feeds strategy stage.id target) : DirectSource strategy target component := by
  induction h with
  | feeds hSource hInto => exact .stage hSource hStage (.feeds hMem hFeeds) hInto
  | stage hSource hIs _ hInto ih => exact .stage hSource hIs ih hInto

/-- A direct source feeds the target, or is a direct source of a stage that does. -/
theorem DirectSource.last (h : DirectSource strategy target component) :
    Feeds strategy component.id target ∨ ∃ stage ∈ strategy.graph.components, IsStage stage ∧
      Feeds strategy stage.id target ∧ DirectSource strategy stage.id component := by
  induction h with
  | feeds _ hFeeds => exact Or.inl hFeeds
  | @stage component between hMem hIs hDirect hFeeds ih =>
      rcases ih with hInto | ⟨last, hLast, hLastIs, hInto, hFrom⟩
      · exact Or.inr ⟨between, hDirect.mem, hIs, hInto, .feeds hMem hFeeds⟩
      · exact Or.inr ⟨last, hLast, hLastIs, hInto, .stage hMem hIs hFrom hFeeds⟩

/-- The measure that the candidates of a filter or rank were scored by. -/
structure MeasureOf (strategy : CanonicalStrategyV1) (id : String) (measure : Component) :
    Prop where
  mem : measure ∈ strategy.graph.components
  kind : measure.primitive = "trailing_return@1"
  direct : DirectSource strategy id measure
  only : ∀ node, DirectSource strategy id node → node.primitive = "filter@1" ∨ node = measure
  split : ∀ node ∈ strategy.graph.components, IsAncestor strategy node.id id →
    DirectSource strategy id node ∨ IsAncestor strategy node.id measure.id

/-- By induction along the filters before a stage: each has one source, another filter or the
measure. -/
theorem exists_measure (hWell : strategy.WellFormed) (h : Accepted strategy)
    (hMem : component ∈ strategy.graph.components) (hStage : IsStage component) :
    ∃ measure, MeasureOf strategy component.id measure := by
  induction hCount : (ancestors strategy component.id).length using Nat.strong_induction_on
    generalizing component with
  | _ count ih =>
      obtain ⟨source, hSource, hKind, hOnly⟩ := source_of_stage hWell h hMem hStage
      have hFeeds : Feeds strategy source.id component.id := (hOnly source.id).mpr rfl
      have hSame : ∀ {node : Component}, node ∈ strategy.graph.components →
          node.id = source.id → node = source := fun hNode =>
        List.inj_on_of_nodup_map hWell.components hNode hSource
      have hUp : ∀ node, IsAncestor strategy node component.id →
          node = source.id ∨ IsAncestor strategy node source.id := by
        intro node hPath
        obtain ⟨next, hNext, hRest⟩ := isAncestor_iff.mp hPath
        rw [(hOnly next).mp hNext] at hRest
        exact hRest
      rcases hKind with hMeasure | hFilter
      · have hNotStage : ¬ IsStage source := by
          intro hIs
          rcases hIs with hIs | hIs <;> simp [hMeasure] at hIs
        refine ⟨source, hSource, hMeasure, .feeds hSource hFeeds, ?_, ?_⟩
        · intro node hDirect
          rcases hDirect.last with hInto | ⟨last, hLast, hLastIs, hInto, -⟩
          · exact Or.inr (hSame hDirect.mem ((hOnly node.id).mp hInto))
          · rw [hSame hLast ((hOnly last.id).mp hInto)] at hLastIs
            exact absurd hLastIs hNotStage
        · intro node hNode hPath
          rcases hUp node.id hPath with hId | hAbove
          · exact Or.inl (hSame hNode hId ▸ .feeds hSource hFeeds)
          · exact Or.inr hAbove
      · have hIs : IsStage source := Or.inl hFilter
        obtain ⟨measure, hMeasure⟩ :=
          ih _ (hCount ▸ length_ancestors_lt hWell h hFeeds) hSource hIs rfl
        refine ⟨measure, hMeasure.mem, hMeasure.kind, hMeasure.direct.extend hSource hIs hFeeds,
          ?_, ?_⟩
        · intro node hDirect
          rcases hDirect.last with hInto | ⟨last, hLast, -, hInto, hFrom⟩
          · exact Or.inl (hSame hDirect.mem ((hOnly node.id).mp hInto) ▸ hFilter)
          · rw [hSame hLast ((hOnly last.id).mp hInto)] at hFrom
            exact hMeasure.only node hFrom
        · intro node hNode hPath
          rcases hUp node.id hPath with hId | hAbove
          · exact Or.inl (hSame hNode hId ▸ .feeds hSource hFeeds)
          · rcases hMeasure.split node hNode hAbove with hDirect | hBehind
            · exact Or.inl (hDirect.extend hSource hIs hFeeds)
            · exact Or.inr hBehind

end Measures

section Pipelines

variable {selection rank measure component : Component}

/-- The rank and the measure of a Top N selection. -/
structure PipelineTo (strategy : CanonicalStrategyV1) (selection rank measure : Component) :
    Prop where
  mem : rank ∈ strategy.graph.components
  kind : rank.primitive = "rank@1"
  source : ∀ node, Feeds strategy node selection.id ↔ node = rank.id
  measure : MeasureOf strategy rank.id measure

theorem exists_pipelineTo (hWell : strategy.WellFormed) (h : Accepted strategy)
    (hMem : selection ∈ strategy.graph.components) (hKind : selection.primitive = "top_n@1") :
    ∃ rank measure, PipelineTo strategy selection rank measure := by
  obtain ⟨rank, hRank, hRankKind, hSource⟩ := source_of_topN hWell h hMem hKind
  obtain ⟨measure, hMeasure⟩ := exists_measure hWell h hRank (Or.inr hRankKind)
  exact ⟨rank, measure, hRank, hRankKind, hSource, hMeasure⟩

namespace PipelineTo

theorem feeds (hPipeline : PipelineTo strategy selection rank measure) :
    Feeds strategy rank.id selection.id := (hPipeline.source rank.id).mpr rfl

theorem direct_iff (hWell : strategy.WellFormed)
    (hPipeline : PipelineTo strategy selection rank measure) :
    DirectSource strategy selection.id component ↔
      component = rank ∨ DirectSource strategy rank.id component := by
  constructor
  · intro hDirect
    rcases hDirect.last with hFeeds | ⟨stage, hStage, -, hFeeds, hFrom⟩
    · exact Or.inl (List.inj_on_of_nodup_map hWell.components hDirect.mem hPipeline.mem
        ((hPipeline.source _).mp hFeeds))
    · rw [(hPipeline.source _).mp hFeeds] at hFrom
      exact Or.inr hFrom
  · rintro (rfl | hDirect)
    · exact .feeds hPipeline.mem hPipeline.feeds
    · exact hDirect.extend hPipeline.mem (Or.inr hPipeline.kind) hPipeline.feeds

theorem measure_path (hPipeline : PipelineTo strategy selection rank measure) :
    IsAncestor strategy measure.id selection.id :=
  hPipeline.measure.direct.path.tail hPipeline.feeds

theorem measure_direct (hWell : strategy.WellFormed)
    (hPipeline : PipelineTo strategy selection rank measure) :
    DirectSource strategy selection.id measure :=
  (hPipeline.direct_iff hWell).mpr (Or.inr hPipeline.measure.direct)

/-- An ancestor of a Top N is in its pipeline or behind its measure. -/
theorem split (hWell : strategy.WellFormed)
    (hPipeline : PipelineTo strategy selection rank measure)
    (hMem : component ∈ strategy.graph.components)
    (hPath : IsAncestor strategy component.id selection.id) :
    DirectSource strategy selection.id component ∨
      IsAncestor strategy component.id measure.id := by
  rw [hPipeline.direct_iff hWell]
  obtain ⟨next, hNext, hRest⟩ := isAncestor_iff.mp hPath
  rw [(hPipeline.source next).mp hNext] at hRest
  rcases hRest with hId | hAbove
  · exact Or.inl (Or.inl (List.inj_on_of_nodup_map hWell.components hMem hPipeline.mem hId))
  · rcases hPipeline.measure.split component hMem hAbove with hDirect | hBehind
    · exact Or.inl (Or.inr hDirect)
    · exact Or.inr hBehind

/-- With one measure upstream, no filter or rank is behind it. -/
theorem direct_of_stage (hWell : strategy.WellFormed) (h : Accepted strategy)
    (hPipeline : PipelineTo strategy selection rank measure) {only : Component}
    (hOnly : OnlyUpstream strategy selection.id "trailing_return@1" only)
    (hMem : component ∈ strategy.graph.components) (hStage : IsStage component)
    (hPath : IsAncestor strategy component.id selection.id) :
    DirectSource strategy selection.id component := by
  rcases hPipeline.split hWell hMem hPath with hDirect | hBehind
  · exact hDirect
  · exfalso
    obtain ⟨other, hOther⟩ := exists_measure hWell h hMem hStage
    have hOtherPath : IsAncestor strategy other.id measure.id := hOther.direct.path.trans hBehind
    have hSame := (hOnly.only other hOther.mem hOther.kind
      (hOtherPath.trans hPipeline.measure_path)).trans
        (hOnly.only measure hPipeline.measure.mem hPipeline.measure.kind
          hPipeline.measure_path).symm
    rw [hSame] at hOtherPath
    exact not_isAncestor_self hWell h measure.id hOtherPath

theorem direct_kind (hWell : strategy.WellFormed)
    (hPipeline : PipelineTo strategy selection rank measure)
    (hDirect : DirectSource strategy selection.id component) :
    component = rank ∨ component.primitive = "filter@1" ∨ component = measure := by
  rcases (hPipeline.direct_iff hWell).mp hDirect with hRank | hFrom
  · exact Or.inl hRank
  · exact Or.inr (hPipeline.measure.only component hFrom)

end PipelineTo

theorem isPipelinePart_iff : isPipelinePart component = true ↔
    component.primitive = "trailing_return@1" ∨ component.primitive = "filter@1" ∨
      component.primitive = "rank@1" := by
  simp [isPipelinePart, or_assoc]

theorem mem_pipeline_related {pipeline : Pipeline} : component ∈ pipeline.related ↔
    pipeline.source = some component ∨ pipeline.measure = some component ∨
      pipeline.eligibility = some component ∨ pipeline.rank = some component := by
  simp only [Pipeline.related, List.mem_append, Option.mem_toList, or_assoc]

/-- The related components of a selection's fact are those of its pipeline. -/
theorem mem_related (hWell : strategy.WellFormed) {pipeline : Pipeline}
    (hSpec : PipelineSpec strategy selection.id pipeline)
    (hMem : component ∈ strategy.graph.components) :
    component.id ∈ (pipelineFact selection pipeline).ref.relatedComponentIds ↔
      component.id ≠ selection.id ∧ component ∈ pipeline.related := by
  have hRelated : component.id ∈ (pipelineFact selection pipeline).ref.relatedComponentIds ↔
      component.id ≠ selection.id ∧ ∃ other ∈ pipeline.related, other.id = component.id := by
    simp [pipelineFact, componentRef, and_comm]
  rw [hRelated]
  apply and_congr_right
  intro _
  constructor
  · rintro ⟨other, hOther, hId⟩
    have hOtherMem : other ∈ strategy.graph.components := by
      rcases mem_pipeline_related.mp hOther with hSource | hMeasure | hEligibility | hRank
      · exact (hSpec.source other hSource).1
      · exact ((hSpec.measure other).mp hMeasure).mem
      · exact ((hSpec.eligibility other).mp hEligibility).mem
      · exact ((hSpec.rank other).mp hRank).mem
    rw [← List.inj_on_of_nodup_map hWell.components hOtherMem hMem hId]
    exact hOther
  · intro hOther
    exact ⟨component, hOther, rfl⟩

/-- A related measure, filter or rank is the only ancestor of its primitive. -/
theorem mem_related_iff (hWell : strategy.WellFormed) (h : Accepted strategy) {pipeline : Pipeline}
    (hSpec : PipelineSpec strategy selection.id pipeline)
    (hMem : component ∈ strategy.graph.components) (hPart : isPipelinePart component = true) :
    component.id ∈ (pipelineFact selection pipeline).ref.relatedComponentIds ↔
      OnlyUpstream strategy selection.id component.primitive component := by
  have hKinds := isPipelinePart_iff.mp hPart
  rw [mem_related hWell hSpec hMem, mem_pipeline_related]
  constructor
  · rintro ⟨-, hSource | hMeasure | hEligibility | hRank⟩
    · rcases (hSpec.source component hSource).2 with hKind | hKind <;> simp [hKind] at hKinds
    · have hOnly := (hSpec.measure component).mp hMeasure
      exact hOnly.kind.symm ▸ hOnly
    · have hOnly := (hSpec.eligibility component).mp hEligibility
      exact hOnly.kind.symm ▸ hOnly
    · have hOnly := (hSpec.rank component).mp hRank
      exact hOnly.kind.symm ▸ hOnly
  · intro hOnly
    constructor
    · intro hId
      have hPath := hOnly.path
      rw [hId] at hPath
      exact not_isAncestor_self hWell h selection.id hPath
    · rcases hKinds with hKind | hKind | hKind <;> rw [hKind] at hOnly
      · exact Or.inr (Or.inl ((hSpec.measure component).mpr hOnly))
      · exact Or.inr (Or.inr (Or.inl ((hSpec.eligibility component).mpr hOnly)))
      · exact Or.inr (Or.inr (Or.inr ((hSpec.rank component).mpr hOnly)))

/-- With one measure upstream, the rank of a Top N is the only one upstream. -/
theorem PipelineTo.only_rank (hWell : strategy.WellFormed) (h : Accepted strategy)
    (hPipeline : PipelineTo strategy selection rank measure) {only : Component}
    (hOnly : OnlyUpstream strategy selection.id "trailing_return@1" only) :
    OnlyUpstream strategy selection.id "rank@1" rank := by
  refine ⟨hPipeline.mem, hPipeline.kind, .single hPipeline.feeds, ?_⟩
  intro other hOther hKind hPath
  have hDirect := hPipeline.direct_of_stage hWell h hOnly hOther (Or.inr hKind) hPath
  rcases hPipeline.direct_kind hWell hDirect with hRank | hFilter | hMeasure
  · exact hRank
  · simp [hKind] at hFilter
  · rw [hMeasure, hPipeline.measure.kind] at hKind
    simp at hKind

/-- The fact of a Top N is related to its own pipeline exactly where there is one measure and no
second filter upstream. -/
theorem relates_iff (hWell : strategy.WellFormed) (h : Accepted strategy)
    (hPipeline : PipelineTo strategy selection rank measure) {pipeline : Pipeline}
    (hSpec : PipelineSpec strategy selection.id pipeline) :
    ((pipelineFact selection pipeline).kind = "ranked_selection" ∧
        ∀ component ∈ strategy.graph.components, isPipelinePart component = true →
          (component.id ∈ (pipelineFact selection pipeline).ref.relatedComponentIds ↔
            DirectSource strategy selection.id component)) ↔
      (∃ measure, OnlyUpstream strategy selection.id "trailing_return@1" measure) ∧
        ∀ first ∈ strategy.graph.components, ∀ second ∈ strategy.graph.components,
          first.primitive = "filter@1" → second.primitive = "filter@1" →
          IsAncestor strategy first.id selection.id → IsAncestor strategy second.id selection.id →
          first = second := by
  constructor
  · rintro ⟨-, hRelates⟩
    have hOnly : OnlyUpstream strategy selection.id "trailing_return@1" measure := by
      have hPart : isPipelinePart measure = true :=
        isPipelinePart_iff.mpr (Or.inl hPipeline.measure.kind)
      have hRelated := (hRelates measure hPipeline.measure.mem hPart).mpr
        (hPipeline.measure_direct hWell)
      rw [mem_related_iff hWell h hSpec hPipeline.measure.mem hPart,
        hPipeline.measure.kind] at hRelated
      exact hRelated
    refine ⟨⟨measure, hOnly⟩, ?_⟩
    intro first hFirst second hSecond hKind hKind' hPath hPath'
    have hPart : isPipelinePart second = true := isPipelinePart_iff.mpr (Or.inr (Or.inl hKind'))
    have hDirect := hPipeline.direct_of_stage hWell h hOnly hSecond (Or.inl hKind') hPath'
    have hSecondOnly := (mem_related_iff hWell h hSpec hSecond hPart).mp
      ((hRelates second hSecond hPart).mpr hDirect)
    rw [hKind'] at hSecondOnly
    exact hSecondOnly.only first hFirst hKind hPath
  · rintro ⟨⟨only, hOnly⟩, hFilters⟩
    have hRank := hPipeline.only_rank hWell h hOnly
    have hMeasure : OnlyUpstream strategy selection.id "trailing_return@1" measure := by
      rw [hOnly.only measure hPipeline.measure.mem hPipeline.measure.kind hPipeline.measure_path]
      exact hOnly
    constructor
    · rw [pipelineFact, (hSpec.rank rank).mpr hRank]
      rfl
    · intro component hMem hPart
      rw [mem_related_iff hWell h hSpec hMem hPart]
      constructor
      · intro hUp
        rcases isPipelinePart_iff.mp hPart with hKind | hKind | hKind
        · rw [hMeasure.only component hMem hKind hUp.path]
          exact hPipeline.measure_direct hWell
        · exact hPipeline.direct_of_stage hWell h hOnly hMem (Or.inl hKind) hUp.path
        · exact hPipeline.direct_of_stage hWell h hOnly hMem (Or.inr hKind) hUp.path
      · intro hDirect
        rcases hPipeline.direct_kind hWell hDirect with rfl | hKind | rfl
        · rw [hPipeline.kind]
          exact hRank
        · refine ⟨hMem, rfl, hDirect.path, ?_⟩
          intro other hOther hOtherKind hPath
          exact hFilters other hOther component hMem (hOtherKind.trans hKind) hKind hPath hDirect.path
        · rw [hPipeline.measure.kind]
          exact hMeasure

end Pipelines

section Covered

variable {facts : List SemanticFact} {component rank : Component}

/-- The primitives whose components have a fact of their own. -/
def isShown (id : String) : Bool :=
  ["daily@1", "monthly@1", "quarterly@1", "asset_set@1", "universe@1", "trailing_return@1",
    "filter@1", "cooldown@1", "equal_weight@1", "merge_targets@1", "fallback@1",
    "portfolio_sleeve@1", "portfolio@1", "rebalance@1"].contains id

theorem kinds_shown : ∀ primitive ∈ builtinRegistry, isShown primitive.id = true ∨
    primitive.id = "random_select@1" ∨ primitive.id = "top_n@1" ∨ primitive.id = "rule@1" ∨
    primitive.id = "rank@1" ∨ primitive.id = "trailing_return_indicator@1" := by
  decide

theorem factShape_of_shown (hShown : isShown component.primitive = true) :
    ∃ shape, factShape component = some shape := by
  unfold isShown at hShown
  simp only [List.contains_eq_mem, List.mem_cons, List.not_mem_nil, or_false,
    decide_eq_true_eq] at hShown
  rcases hShown with hKind | hKind | hKind | hKind | hKind | hKind | hKind | hKind | hKind | hKind |
    hKind | hKind | hKind | hKind <;> exact ⟨_, by simp only [factShape, hKind]; rfl⟩

theorem rule_condition (h : Accepted strategy) (hMem : component ∈ strategy.graph.components)
    (hKind : component.primitive = "rule@1") : component.condition.isSome = true := by
  obtain ⟨primitive, hGet⟩ := h.known hMem
  obtain ⟨hRegistry, hId⟩ := getPrimitive_some hGet
  have hIssues := h.components component hMem
  simp only [componentIssues, hGet, List.append_eq_nil_iff] at hIssues
  have hRule := hIssues.1.2
  have hCategory : ∀ primitive ∈ builtinRegistry, primitive.id = "rule@1" →
      primitive.category = .rule := by decide
  unfold ruleIssues at hRule
  rw [if_pos (hCategory primitive hRegistry (hId.trans hKind)), List.append_eq_nil_iff] at hRule
  cases hCondition : component.condition with
  | none => simp [hCondition] at hRule
  | some condition => rfl

/-- Components of all primitives but two are covered by a fact of their own. -/
theorem exists_factOf (hWell : strategy.WellFormed) (h : Accepted strategy)
    (hFacts : componentFacts strategy = .ok facts) (hMem : component ∈ strategy.graph.components)
    (hRank : component.primitive ≠ "rank@1")
    (hIndicator : component.primitive ≠ "trailing_return_indicator@1") :
    ∃ fact, fact ∈ factsOf facts component := by
  obtain ⟨primitive, hGet⟩ := h.known hMem
  obtain ⟨hRegistry, hId⟩ := getPrimitive_some hGet
  have hOf := factsOf_eq hWell hFacts hMem
  split at hOf
  · obtain ⟨fact, -, hOnly⟩ := hOf
    exact ⟨fact, by rw [hOnly]; exact List.mem_singleton_self _⟩
  · next hSelection =>
      rw [hOf]
      have hKinds := kinds_shown primitive hRegistry
      rw [hId] at hKinds
      rcases hKinds with hShown | hRandom | hTop | hRule | hIs | hIs
      · obtain ⟨shape, hShape⟩ := factShape_of_shown hShown
        refine ⟨shapedFact component shape, mem_ownFacts.mpr (Or.inr ⟨?_, shape, hShape, rfl⟩)⟩
        intro hRule
        rw [hRule] at hShown
        exact absurd hShown (by decide)
      · exact absurd (by simp [isSelection, hRandom]) hSelection
      · exact absurd (by simp [isSelection, hTop]) hSelection
      · exact ⟨predicateFact component, mem_ownFacts.mpr (Or.inl ⟨hRule,
          mem_ruleFacts.mpr (Or.inl ⟨rule_condition h hMem hRule, rfl⟩)⟩)⟩
      · exact absurd hIs hRank
      · exact absurd hIs hIndicator

/-- Ranks and indicators have no fact of their own. -/
theorem ownFacts_of_rank (hKind : component.primitive = "rank@1" ∨
    component.primitive = "trailing_return_indicator@1") : ownFacts component = [] := by
  rcases hKind with hKind | hKind <;> simp [ownFacts, factShape, hKind]

/-- A component without a fact of its own is covered by a selection's pipeline only. -/
theorem covered_iff (hWell : strategy.WellFormed) (h : Accepted strategy)
    (hFacts : componentFacts strategy = .ok facts) (hMem : component ∈ strategy.graph.components)
    (hKind : component.primitive = "rank@1" ∨
      component.primitive = "trailing_return_indicator@1") :
    (∃ fact ∈ facts, fact.ref.primaryComponentId = some component.id ∨
        component.id ∈ fact.ref.relatedComponentIds) ↔
      ∃ selection ∈ strategy.graph.components, isSelection selection = true ∧
        ∃ pipeline, PipelineSpec strategy selection.id pipeline ∧
          selectionFact strategy selection = .ok (pipelineFact selection pipeline) ∧
          component.id ∈ (pipelineFact selection pipeline).ref.relatedComponentIds := by
  have hNone : factsOf facts component = [] := by
    have hOf := factsOf_eq hWell hFacts hMem
    have hIs : isSelection component = false := by
      rcases hKind with hKind | hKind <;> simp [isSelection, hKind]
    rw [hIs, if_neg (by decide)] at hOf
    rw [hOf, ownFacts_of_rank hKind]
  constructor
  · rintro ⟨fact, hFact, hPrimary | hRelated⟩
    · have hIn : fact ∈ factsOf facts component :=
        List.mem_filter.mpr ⟨hFact, by simpa using hPrimary⟩
      rw [hNone] at hIn
      cases hIn
    · rcases (mem_componentFacts hFacts).mp hFact with ⟨selection, hSelection, hIs, hFrom⟩ |
        ⟨other, -, hOwn⟩ | ⟨definition, -, rfl⟩
      · obtain ⟨pipeline, hPipeline, rfl⟩ := selectionFact_ok hFrom
        obtain ⟨found, hFound, hSpec⟩ := pipelineOf_spec hWell h selection.id
        rw [hPipeline] at hFound
        cases hFound
        exact ⟨selection, hSelection, hIs, pipeline, hSpec, hFrom, hRelated⟩
      · rw [(own_of_mem hOwn).2.2] at hRelated
        cases hRelated
      · cases hRelated
  · rintro ⟨selection, hSelection, hIs, pipeline, -, hFrom, hRelated⟩
    exact ⟨_, (mem_componentFacts hFacts).mpr (Or.inl ⟨selection, hSelection, hIs, hFrom⟩),
      Or.inr hRelated⟩

theorem not_covered_indicator (hWell : strategy.WellFormed) (h : Accepted strategy)
    (hFacts : componentFacts strategy = .ok facts) (hMem : component ∈ strategy.graph.components)
    (hKind : component.primitive = "trailing_return_indicator@1") :
    ¬ ∃ fact ∈ facts, fact.ref.primaryComponentId = some component.id ∨
      component.id ∈ fact.ref.relatedComponentIds := by
  rw [covered_iff hWell h hFacts hMem (Or.inr hKind)]
  rintro ⟨selection, -, -, pipeline, hSpec, -, hRelated⟩
  rcases mem_pipeline_related.mp ((mem_related hWell hSpec hMem).mp hRelated).2 with
    hSource | hMeasure | hEligibility | hRank
  · rcases (hSpec.source component hSource).2 with hOther | hOther <;> simp [hKind] at hOther
  · have hOther := ((hSpec.measure component).mp hMeasure).kind
    simp [hKind] at hOther
  · have hOther := ((hSpec.eligibility component).mp hEligibility).kind
    simp [hKind] at hOther
  · have hOther := ((hSpec.rank component).mp hRank).kind
    simp [hKind] at hOther

theorem rank_outputs : ∀ primitive ∈ builtinRegistry, primitive.id = "rank@1" →
    ∀ output ∈ primitive.outputs, output.valueType = .rankedAssets := by
  decide

theorem ranked_inputs : ∀ primitive ∈ builtinRegistry, ∀ input ∈ primitive.inputs,
    input.valueType = .rankedAssets → primitive.id = "top_n@1" := by
  decide

/-- A rank that is covered is connected to something. -/
theorem connected_of_covered (hWell : strategy.WellFormed) (h : Accepted strategy)
    (hFacts : componentFacts strategy = .ok facts) (hMem : rank ∈ strategy.graph.components)
    (hKind : rank.primitive = "rank@1")
    (hCovered : ∃ fact ∈ facts, fact.ref.primaryComponentId = some rank.id ∨
      rank.id ∈ fact.ref.relatedComponentIds) :
    ∃ connection ∈ strategy.graph.connections, connection.source.componentId = rank.id := by
  obtain ⟨selection, -, -, pipeline, hSpec, -, hRelated⟩ :=
    (covered_iff hWell h hFacts hMem (Or.inl hKind)).mp hCovered
  have hPath := ((mem_related_iff hWell h hSpec hMem
    (isPipelinePart_iff.mpr (Or.inr (Or.inr hKind)))).mp hRelated).path
  obtain ⟨next, hFeeds, -⟩ := Relation.TransGen.head'_iff.mp hPath
  rcases feeds_cases hWell h hFeeds with ⟨connection, hConnection, hFrom, -⟩ |
    ⟨rule, hRule, -, -, hSource⟩
  · exact ⟨connection, hConnection, hFrom⟩
  · obtain ⟨primitive, output, hOf, hOutput, hType⟩ := h.rebalance_source hRule hSource
    obtain ⟨found, hFound, hId, hRegistry⟩ := primitiveSpec_some hOf
    rw [component?_of_mem hWell hMem] at hFound
    cases hFound
    have hRanked := rank_outputs primitive hRegistry (hId.symm.trans hKind) output hOutput
    rw [hType] at hRanked
    cases hRanked

/-- What a rank is connected to is a Top N. -/
theorem topN_of_connected (hWell : strategy.WellFormed) (h : Accepted strategy)
    (hMem : rank ∈ strategy.graph.components) (hKind : rank.primitive = "rank@1")
    {connection : Connection} (hConnection : connection ∈ strategy.graph.connections)
    (hFrom : connection.source.componentId = rank.id) :
    ∃ selection ∈ strategy.graph.components, selection.primitive = "top_n@1" ∧
      Feeds strategy rank.id selection.id := by
  obtain ⟨earlier, hTyped⟩ := h.typed hConnection
  obtain ⟨source, target, output, input, hSource, hTarget, hOutput, hInput, hType, -⟩ := hTyped.ports
  obtain ⟨found, hFound, hId, hRegistry⟩ := primitiveSpec_some hSource
  rw [hFrom, component?_of_mem hWell hMem] at hFound
  cases hFound
  obtain ⟨selection, hSelection, hSelectionId, hTargetRegistry⟩ := primitiveSpec_some hTarget
  obtain ⟨hSelectionMem, hTo⟩ := component?_some hSelection
  have hRanked := rank_outputs source hRegistry (hId.symm.trans hKind) output
    (List.mem_of_find?_eq_some hOutput)
  refine ⟨selection, hSelectionMem, ?_, ?_⟩
  · rw [hSelectionId]
    exact ranked_inputs target hTargetRegistry input (List.mem_of_find?_eq_some hInput)
      (hType.symm.trans hRanked)
  · apply List.mem_append_left
    exact List.mem_map.mpr ⟨connection,
      List.mem_filter.mpr ⟨hConnection, by simp [hTo]⟩, hFrom⟩

end Covered

section Projection

variable {projection : SemanticCompositionProjection}

theorem placed_once (hWell : strategy.WellFormed)
    (hProjected : projectSemanticComposition strategy = .ok projection) :
    ∀ fact ∈ projection.facts,
      (projection.flow.placements.map FactPlacement.factId).count fact.id = 1 ∧
        (projection.logic.placements.map FactPlacement.factId).count fact.id = 1 := by
  obtain ⟨hFacts, hFlow, hLogic⟩ := projection_parts hProjected
  have hFlowIds : projection.flow.placements.map FactPlacement.factId =
      projection.facts.map SemanticFact.id := by
    rw [hFlow, flowProjection, List.map_map]
    apply List.map_congr_left
    intro fact _
    unfold Function.comp flowPlacement
    cases flowUnit fact <;> rfl
  have hLogicIds : projection.logic.placements.map FactPlacement.factId =
      projection.facts.map SemanticFact.id := by
    obtain ⟨owned, -, hLogic⟩ := except_bind_ok.mp hLogic
    rw [← Except.ok.inj hLogic, List.map_map]
    rfl
  intro fact hFact
  rw [hFlowIds, hLogicIds]
  have hOnce := List.count_eq_one_of_mem (nodup_factIds hWell hFacts) (List.mem_map_of_mem hFact)
  exact ⟨hOnce, hOnce⟩

/-- The fact of a selection, with what is known of its pipeline. -/
theorem factsOf_selection (hWell : strategy.WellFormed) (h : Accepted strategy)
    {facts : List SemanticFact} (hFacts : componentFacts strategy = .ok facts)
    {selection : Component} (hMem : selection ∈ strategy.graph.components)
    (hIs : isSelection selection = true) :
    ∃ pipeline, PipelineSpec strategy selection.id pipeline ∧
      selectionFact strategy selection = .ok (pipelineFact selection pipeline) ∧
      factsOf facts selection = [pipelineFact selection pipeline] := by
  have hOf := factsOf_eq hWell hFacts hMem
  rw [if_pos hIs] at hOf
  obtain ⟨fact, hFrom, hOnly⟩ := hOf
  obtain ⟨pipeline, hPipeline, rfl⟩ := selectionFact_ok hFrom
  obtain ⟨found, hFound, hSpec⟩ := pipelineOf_spec hWell h selection.id
  rw [hPipeline] at hFound
  cases hFound
  exact ⟨pipeline, hSpec, hFrom, hOnly⟩

/-- The fact of a Top N names its own pipeline exactly where there is one measure and no second
filter upstream. -/
theorem selection_relates_iff (hWell : strategy.WellFormed) (h : Accepted strategy)
    {facts : List SemanticFact} (hFacts : componentFacts strategy = .ok facts)
    {selection : Component} (hMem : selection ∈ strategy.graph.components)
    (hKind : selection.primitive = "top_n@1") :
    (∀ fact ∈ factsOf facts selection, fact.kind = "ranked_selection" ∧
        ∀ component ∈ strategy.graph.components, isPipelinePart component = true →
          (component.id ∈ fact.ref.relatedComponentIds ↔
            DirectSource strategy selection.id component)) ↔
      (∃ measure, OnlyUpstream strategy selection.id "trailing_return@1" measure) ∧
        ∀ first ∈ strategy.graph.components, ∀ second ∈ strategy.graph.components,
          first.primitive = "filter@1" → second.primitive = "filter@1" →
          IsAncestor strategy first.id selection.id → IsAncestor strategy second.id selection.id →
          first = second := by
  obtain ⟨pipeline, hSpec, -, hOnly⟩ :=
    factsOf_selection hWell h hFacts hMem (by simp [isSelection, hKind])
  obtain ⟨rank, measure, hPipeline⟩ := exists_pipelineTo hWell h hMem hKind
  rw [hOnly, List.forall_mem_singleton]
  exact relates_iff hWell h hPipeline hSpec

/-- A connected rank is covered by the Top N that it feeds. -/
theorem covered_of_connected (hWell : strategy.WellFormed) (h : Accepted strategy)
    {facts : List SemanticFact} (hFacts : componentFacts strategy = .ok facts)
    (hApart : PipelinesApart strategy) {rank : Component}
    (hMem : rank ∈ strategy.graph.components) (hKind : rank.primitive = "rank@1") :
    ∃ fact ∈ facts, fact.ref.primaryComponentId = some rank.id ∨
      rank.id ∈ fact.ref.relatedComponentIds := by
  obtain ⟨connection, hConnection, hFrom⟩ := hApart.ranks rank hMem hKind
  obtain ⟨selection, hSelection, hTop, hFeeds⟩ :=
    topN_of_connected hWell h hMem hKind hConnection hFrom
  have hIs : isSelection selection = true := by simp [isSelection, hTop]
  obtain ⟨pipeline, hSpec, hFact, -⟩ := factsOf_selection hWell h hFacts hSelection hIs
  obtain ⟨found, measure, hPipeline⟩ := exists_pipelineTo hWell h hSelection hTop
  obtain rfl := List.inj_on_of_nodup_map hWell.components hMem hPipeline.mem
    ((hPipeline.source rank.id).mp hFeeds)
  obtain ⟨only, hOnly⟩ := hApart.measures selection hSelection hTop
  have hRank := hPipeline.only_rank hWell h hOnly
  rw [← hKind] at hRank
  exact (covered_iff hWell h hFacts hMem (Or.inl hKind)).mpr ⟨selection, hSelection, hIs, pipeline,
    hSpec, hFact, (mem_related_iff hWell h hSpec hMem
      (isPipelinePart_iff.mpr (Or.inr (Or.inr hKind)))).mpr hRank⟩

/-- A projection keeps everything exactly where no component is an indicator, every rank is
connected, and every Top N has one measure and no second filter upstream. -/
theorem losesNothing_iff (hWell : strategy.WellFormed)
    (hAccepted : validateStrategyV1 strategy = .ok ⟨⟩) :
    ∃ projection, projectSemanticComposition strategy = .ok projection ∧
      (LosesNothing strategy projection ↔ PipelinesApart strategy) := by
  have h := validate_ok_iff.mp hAccepted
  obtain ⟨projection, hProjected⟩ := h.projects hWell
  obtain ⟨hFacts, -, -⟩ := projection_parts hProjected
  refine ⟨projection, hProjected, ?_⟩
  constructor
  · intro hKept
    refine ⟨?_, ?_, ?_, ?_⟩
    · intro component hMem hKind
      exact not_covered_indicator hWell h hFacts hMem hKind (hKept.covered component hMem)
    · intro rank hMem hKind
      exact connected_of_covered hWell h hFacts hMem hKind (hKept.covered rank hMem)
    · intro selection hMem hKind
      exact ((selection_relates_iff hWell h hFacts hMem hKind).mp
        (hKept.selections selection hMem hKind)).1
    · intro selection hMem hKind
      exact ((selection_relates_iff hWell h hFacts hMem hKind).mp
        (hKept.selections selection hMem hKind)).2
  · intro hApart
    refine ⟨?_, ?_, nodup_factIds hWell hFacts, ?_, ?_⟩
    · intro component hMem
      by_cases hRank : component.primitive = "rank@1"
      · exact covered_of_connected hWell h hFacts hApart hMem hRank
      · obtain ⟨fact, hFact⟩ :=
          exists_factOf hWell h hFacts hMem hRank (hApart.indicators component hMem)
        obtain ⟨hIn, hPrimary⟩ := List.mem_filter.mp hFact
        exact ⟨fact, hIn, Or.inl (of_decide_eq_true hPrimary)⟩
    · intro selection hMem hKind
      exact (selection_relates_iff hWell h hFacts hMem hKind).mpr
        ⟨hApart.measures selection hMem hKind, hApart.filters selection hMem hKind⟩
    · intro fact hFact
      exact (placed_once hWell hProjected fact hFact).1
    · intro fact hFact
      exact (placed_once hWell hProjected fact hFact).2

/-- The best by the last month of the best three by the last half year. -/
def twoStage : CanonicalStrategyV1 where
  metadata := { name := "Two stages" }
  definitions := { assetSets := [⟨"pool", ["SPY", "QQQ", "TLT", "GLD"]⟩] }
  graph :=
    { components :=
        [{ id := "schedule", primitive := "monthly@1" },
          { id := "assets", primitive := "asset_set@1"
            config := Dict.empty.set "asset_set_ref" (.text "pool") },
          { id := "slow", primitive := "trailing_return@1"
            config := Dict.empty.set "lookback_bars" (.integer 126) },
          { id := "slow_rank", primitive := "rank@1" },
          { id := "shortlist", primitive := "top_n@1"
            config := Dict.empty.set "count" (.integer 3) },
          { id := "fast", primitive := "trailing_return@1"
            config := Dict.empty.set "lookback_bars" (.integer 21) },
          { id := "fast_rank", primitive := "rank@1" },
          { id := "leader", primitive := "top_n@1"
            config := Dict.empty.set "count" (.integer 1) },
          { id := "weights", primitive := "equal_weight@1"
            config := Dict.empty.set "total" (.text "1") },
          { id := "trade", primitive := "rebalance@1" }]
      connections :=
        [⟨⟨"assets", "assets"⟩, ⟨"slow", "assets"⟩⟩,
          ⟨⟨"slow", "scores"⟩, ⟨"slow_rank", "scores"⟩⟩,
          ⟨⟨"slow_rank", "ranked"⟩, ⟨"shortlist", "ranked"⟩⟩,
          ⟨⟨"shortlist", "selected"⟩, ⟨"fast", "assets"⟩⟩,
          ⟨⟨"fast", "scores"⟩, ⟨"fast_rank", "scores"⟩⟩,
          ⟨⟨"fast_rank", "ranked"⟩, ⟨"leader", "ranked"⟩⟩,
          ⟨⟨"leader", "selected"⟩, ⟨"weights", "assets"⟩⟩,
          ⟨⟨"weights", "targets"⟩, ⟨"trade", "targets"⟩⟩] }
  entrypoints := [⟨"schedule", "trade"⟩]

theorem twoStage_wellFormed : twoStage.WellFormed :=
  ⟨by decide, by decide, by decide, by decide, by decide, by decide, by decide⟩

theorem twoStage_valid : validateStrategyV1 twoStage = .ok ⟨⟩ := by
  decide +kernel

theorem twoStage_kept : ∃ projection, projectSemanticComposition twoStage = .ok projection ∧
    (LosesNothing twoStage projection ↔ PipelinesApart twoStage) :=
  losesNothing_iff twoStage_wellFormed twoStage_valid

/-- The second selection has two measures upstream, and is related to neither. -/
theorem twoStage_loses : ∃ projection, projectSemanticComposition twoStage = .ok projection ∧
    ¬ LosesNothing twoStage projection := by
  have h := validate_ok_iff.mp twoStage_valid
  obtain ⟨projection, hProjected⟩ := h.projects twoStage_wellFormed
  obtain ⟨hFacts, -, -⟩ := projection_parts hProjected
  refine ⟨projection, hProjected, fun hKept => ?_⟩
  have hLeader := List.mem_of_getElem? (show twoStage.graph.components[7]? = some _ from rfl)
  obtain ⟨⟨only, hOnly⟩, -⟩ := (selection_relates_iff twoStage_wellFormed h hFacts hLeader rfl).mp
    (hKept.selections _ hLeader rfl)
  have hSlow := hOnly.only _ (List.mem_of_getElem? (show twoStage.graph.components[2]? = some _ from rfl))
    rfl (mem_ancestors.mp (by decide +kernel))
  have hFast := hOnly.only _ (List.mem_of_getElem? (show twoStage.graph.components[5]? = some _ from rfl))
    rfl (mem_ancestors.mp (by decide +kernel))
  have hSame := congrArg Component.id (hSlow.trans hFast.symm)
  exact absurd hSame (by decide)

end Projection

end RuleTrade.V1
