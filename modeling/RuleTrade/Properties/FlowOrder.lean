import RuleTrade.Library.Reduction
import RuleTrade.Properties.SemanticReturns

/-! The order that the flow of a strategy draws. Its edges are the reduction of the order of the
components that have a unit, which a component with several actions has for the last one only. -/

namespace RuleTrade.V1

open Library

variable {strategy : CanonicalStrategyV1}

section Order

/-- What an action draws capital from, or what feeds the component of a fact. -/
def capitalSources (strategy : CanonicalStrategyV1) (fact : SemanticFact) : List String :=
  match fact.detail with
  | some detail => (rebalanceTarget detail.1).toList
  | none => fact.ref.primaryComponentId.toList.flatMap (incoming strategy)

/-- Capital goes from a component to the unit of a fact. -/
def IsUpstream (strategy : CanonicalStrategyV1) (component : String) (fact : SemanticFact) : Prop :=
  ∃ source ∈ capitalSources strategy fact, component = source ∨ IsAncestor strategy component source

def Drawn (edges : List FlowSemanticEdge) (source target : String) : Prop :=
  ∃ edge ∈ edges, edge.sourceUnitId = source ∧ edge.targetUnitId = target

/-- The flow draws the order of capital: its paths, with no edge that others imply and no cycle. -/
structure CapitalOrder (strategy : CanonicalStrategyV1)
    (projection : SemanticCompositionProjection) : Prop where
  routes : ∀ source ∈ projection.flow.units, ∀ target ∈ projection.flow.units,
    ∀ fact ∈ projection.facts, target.factIds = [fact.id] →
      (Relation.TransGen (Drawn projection.flow.edges) source.id target.id ↔
        ∃ component, source.ref.primaryComponentId = some component ∧
          IsUpstream strategy component fact)
  irredundant : ∀ edge ∈ projection.flow.edges,
    ¬ Relation.TransGen (Drawn (projection.flow.edges.filter (· ≠ edge)))
      edge.sourceUnitId edge.targetUnitId
  acyclic : ∀ unit, ¬ Relation.TransGen (Drawn projection.flow.edges) unit unit

end Order

section Units

variable {fact : SemanticFact} {unit : FlowSemanticUnit}

/-- The unit of a fact is of the fact's component. -/
theorem flowUnit_some (h : flowUnit fact = some unit) : unit.id = "flow:" ++ fact.id ∧
    unit.ref = fact.ref ∧ unit.factIds = [fact.id] := by
  unfold flowUnit at h
  split at h
  · cases h
    exact ⟨rfl, rfl, rfl⟩
  · obtain ⟨family, -, rfl⟩ := Option.map_eq_some_iff.mp h
    exact ⟨rfl, rfl, rfl⟩

theorem flowUnit_stateFact (definition : StateDefinition) : flowUnit (stateFact definition) = none :=
  rfl

theorem flowUnit_actionFact (component : Component) (branch : ActionBranch) (item : Action × Nat) :
    ∃ unit, flowUnit (actionFact component branch item) = some unit := by
  unfold flowUnit
  split
  · exact ⟨_, rfl⟩
  · exact ⟨_, rfl⟩

variable {facts : List SemanticFact}

/-- Units have components. -/
theorem component_of_unit (h : componentFacts strategy = .ok facts)
    (hUnit : unit ∈ facts.filterMap flowUnit) :
    ∃ component ∈ strategy.graph.components, unit.ref.primaryComponentId = some component.id := by
  obtain ⟨fact, hFact, hIs⟩ := List.mem_filterMap.mp hUnit
  rw [(flowUnit_some hIs).2.1]
  rcases (mem_componentFacts h).mp hFact with ⟨component, hMem, -, hFrom⟩ | ⟨component, hMem, hOwn⟩ |
    ⟨definition, -, rfl⟩
  · obtain ⟨pipeline, -, rfl⟩ := selectionFact_ok hFrom
    exact ⟨component, hMem, rfl⟩
  · exact ⟨component, hMem, (own_of_mem hOwn).2.1⟩
  · rw [flowUnit_stateFact] at hIs
    cases hIs

theorem nodup_unitIds (hUnique : (facts.map SemanticFact.id).Nodup) :
    ((facts.filterMap flowUnit).map FlowSemanticUnit.id).Nodup := by
  have hIds : (facts.filterMap flowUnit).map FlowSemanticUnit.id =
      (facts.filter (fun fact => (flowUnit fact).isSome)).map (("flow:" ++ ·) ∘ SemanticFact.id) := by
    clear hUnique
    induction facts with
    | nil => rfl
    | cons fact rest ih =>
        cases hUnit : flowUnit fact with
        | none => simp [hUnit, ih]
        | some unit => simp [hUnit, ih, (flowUnit_some hUnit).1]
  rw [hIds, ← List.map_map]
  apply List.Nodup.map
  · intro first second hSame
    exact (String.append_right_inj _).mp hSame
  · exact hUnique.sublist (List.filter_sublist.map _)

end Units

section Recorded

variable {units : List FlowSemanticUnit} {unit id component : String}

/-- Each unit is recorded for its component, a later one over an earlier one. -/
theorem unitByComponent_eq
    (h : ∀ unit ∈ units, ∃ component, unit.ref.primaryComponentId = some component) :
    unitByComponent units =
      Dict.ofList (units.map fun unit => (unit.ref.primaryComponentId.getD "", unit.id)) := by
  unfold unitByComponent Dict.ofList
  rw [List.foldl_map]
  apply List.foldl_ext
  intro recorded unit hUnit
  obtain ⟨component, hComponent⟩ := h unit hUnit
  rw [recordUnit, hComponent]
  rfl

theorem get?_unitByComponent
    (h : ∀ unit ∈ units, ∃ component, unit.ref.primaryComponentId = some component) :
    (unitByComponent units).get? component =
      ((units.filter fun unit => unit.ref.primaryComponentId = some component).getLast?).map
        FlowSemanticUnit.id := by
  have hSame : (units.map fun unit => (unit.ref.primaryComponentId.getD "", unit.id)).filter
      (fun pair => pair.1 = component) =
        (units.filter fun unit => unit.ref.primaryComponentId = some component).map
          fun unit => (unit.ref.primaryComponentId.getD "", unit.id) := by
    rw [List.filter_map]
    congr 1
    apply List.filter_congr
    intro unit hUnit
    obtain ⟨found, hFound⟩ := h unit hUnit
    simp [hFound]
  rw [unitByComponent_eq h, Dict.get?_ofList, hSame, List.getLast?_map, Option.map_map]
  rfl

/-- A recorded unit is one of its component. -/
theorem unit_of_recorded
    (h : ∀ unit ∈ units, ∃ component, unit.ref.primaryComponentId = some component)
    (hRecorded : (unitByComponent units).get? component = some id) :
    ∃ unit ∈ units, unit.id = id ∧ unit.ref.primaryComponentId = some component := by
  rw [get?_unitByComponent h] at hRecorded
  obtain ⟨unit, hLast, rfl⟩ := Option.map_eq_some_iff.mp hRecorded
  obtain ⟨hMem, hIs⟩ := List.mem_filter.mp (List.mem_of_getLast? hLast)
  exact ⟨unit, hMem, rfl, by simpa using hIs⟩

/-- The two maps are inverse to each other. -/
theorem get?_componentByUnit
    (h : ∀ unit ∈ units, ∃ component, unit.ref.primaryComponentId = some component)
    (hIds : (units.map FlowSemanticUnit.id).Nodup) :
    (componentByUnit units).get? id = some component ↔
      (unitByComponent units).get? component = some id := by
  have hKeys : (((unitByComponent units).entries.map Prod.swap).map Prod.fst).Nodup := by
    rw [List.map_map]
    apply List.Nodup.map_on _ (List.Nodup.of_map _ (unitByComponent units).nodup)
    rintro ⟨first, id⟩ hFirst ⟨second, _⟩ hSecond rfl
    obtain ⟨unit, hUnit, hId, hPrimary⟩ := unit_of_recorded h (Dict.get?_of_mem hFirst)
    obtain ⟨other, hOther, hSame, hPrimary'⟩ := unit_of_recorded h (Dict.get?_of_mem hSecond)
    obtain rfl := List.inj_on_of_nodup_map hIds hUnit hOther (hId.trans hSame.symm)
    rw [hPrimary] at hPrimary'
    rw [Option.some.inj hPrimary']
    rfl
  have hEntries : (componentByUnit units).entries = (unitByComponent units).entries.map Prod.swap :=
    Dict.entries_ofList hKeys
  constructor
  · intro hGet
    have hMem := Dict.mem_of_get? hGet
    rw [hEntries] at hMem
    obtain ⟨⟨_, _⟩, hIn, hSwap⟩ := List.mem_map.mp hMem
    cases hSwap
    exact Dict.get?_of_mem hIn
  · intro hGet
    apply Dict.get?_of_mem
    rw [hEntries]
    exact List.mem_map.mpr ⟨(component, id), Dict.mem_of_get? hGet, rfl⟩

end Recorded

section Edges

variable {units : List FlowSemanticUnit}

/-- The order of recorded units is that of their components. -/
def UnitOrder (strategy : CanonicalStrategyV1) (components : Dict String String)
    (source target : String) : Prop :=
  ∃ first, components.get? source = some first ∧ ∃ second, components.get? target = some second ∧
    IsAncestor strategy first second

variable {components : Dict String String} {source target : String}

theorem UnitOrder.trans {middle : String} (h : UnitOrder strategy components source middle)
    (h' : UnitOrder strategy components middle target) :
    UnitOrder strategy components source target := by
  obtain ⟨first, hFirst, second, hSecond, hPath⟩ := h
  obtain ⟨again, hAgain, third, hThird, hPath'⟩ := h'
  rw [hSecond] at hAgain
  cases hAgain
  exact ⟨first, hFirst, third, hThird, hPath.trans hPath'⟩

theorem UnitOrder.irrefl (hWell : strategy.WellFormed) (h : Accepted strategy) :
    ¬ UnitOrder strategy components source source := by
  rintro ⟨first, hFirst, second, hSecond, hPath⟩
  rw [hFirst] at hSecond
  cases hSecond
  exact not_isAncestor_self hWell h first hPath

theorem mem_nearestSources {entries : List (String × String)} {pair last : String × String} :
    pair ∈ nearestSources strategy entries last ↔
      (pair ∈ entries ∧ pair.1 ≠ last.1 ∧ IsAncestor strategy pair.2 last.2) ∧
        ∀ other ∈ entries, other.1 ≠ last.1 → IsAncestor strategy other.2 last.2 →
          other.1 ≠ pair.1 → ¬ IsAncestor strategy pair.2 other.2 := by
  unfold nearestSources
  dsimp only
  rw [List.mem_filter, List.mem_filter]
  simp only [List.any_filter, Bool.and_eq_true, Bool.not_eq_true', List.any_eq_false,
    decide_eq_true_eq, mem_ancestors, not_and]
  constructor
  · rintro ⟨hPair, hNone⟩
    exact ⟨hPair, fun other hOther hNe hUp hDiffer hPath => hNone other hOther ⟨hNe, hUp⟩ hDiffer hPath⟩
  · rintro ⟨hPair, hNone⟩
    exact ⟨hPair, fun other hOther hBelow hDiffer hPath =>
      hNone other hOther hBelow.1 hBelow.2 hDiffer hPath⟩

theorem mem_flowEdges {edge : FlowSemanticEdge} : edge ∈ flowEdges strategy units ↔
    edge.kind = "capital" ∧ ∃ first second,
      (edge.targetUnitId, second) ∈ (componentByUnit units).entries ∧
      (edge.sourceUnitId, first) ∈ nearestSources strategy (componentByUnit units).entries
        (edge.targetUnitId, second) := by
  unfold flowEdges
  rw [Dict.mem_keys_ofList, List.map_flatMap, List.mem_flatMap]
  constructor
  · rintro ⟨⟨target, second⟩, hTarget, hEdge⟩
    rw [List.map_map, List.mem_map] at hEdge
    obtain ⟨⟨source, first⟩, hSource, rfl⟩ := hEdge
    exact ⟨rfl, first, second, hTarget, hSource⟩
  · rintro ⟨hKind, first, second, hTarget, hSource⟩
    refine ⟨_, hTarget, ?_⟩
    rw [List.map_map, List.mem_map]
    refine ⟨_, hSource, ?_⟩
    cases edge
    cases hKind
    rfl

/-- The edges are the reduction of the order of recorded units. -/
theorem drawn_iff (hWell : strategy.WellFormed) (h : Accepted strategy) :
    Drawn (flowEdges strategy units) source target ↔
      Reduction.Covers (UnitOrder strategy (componentByUnit units)) (componentByUnit units).keys
        source target := by
  have hDiffers : ∀ {first second unit other : String},
      (unit, first) ∈ (componentByUnit units).entries →
      (other, second) ∈ (componentByUnit units).entries → IsAncestor strategy first second →
      unit ≠ other := by
    rintro first second unit _ hUnit hOther hPath rfl
    have hSame := (Dict.get?_of_mem hUnit).symm.trans (Dict.get?_of_mem hOther)
    exact not_isAncestor_self hWell h first (Option.some.inj hSame ▸ hPath)
  constructor
  · rintro ⟨edge, hEdge, rfl, rfl⟩
    obtain ⟨-, first, second, hTarget, hSource⟩ := mem_flowEdges.mp hEdge
    obtain ⟨⟨hIn, -, hPath⟩, hNearest⟩ := mem_nearestSources.mp hSource
    refine ⟨List.mem_map_of_mem hIn, List.mem_map_of_mem hTarget,
      ⟨first, Dict.get?_of_mem hIn, second, Dict.get?_of_mem hTarget, hPath⟩, ?_⟩
    rintro middle - ⟨source, hGet, between, hBetween, hUp⟩ ⟨again, hAgain, last, hLast, hDown⟩
    rw [Dict.get?_of_mem hIn] at hGet
    rw [hBetween] at hAgain
    rw [Dict.get?_of_mem hTarget] at hLast
    cases hGet
    cases hAgain
    cases hLast
    have hMiddle := Dict.mem_of_get? hBetween
    exact hNearest _ hMiddle (hDiffers hMiddle hTarget hDown) hDown
      (hDiffers hIn hMiddle hUp).symm hUp
  · rintro ⟨-, -, ⟨first, hFirst, second, hSecond, hPath⟩, hNearest⟩
    have hIn := Dict.mem_of_get? hFirst
    have hTarget := Dict.mem_of_get? hSecond
    refine ⟨⟨source, target, "capital"⟩, mem_flowEdges.mpr ⟨rfl, first, second, hTarget, ?_⟩,
      rfl, rfl⟩
    refine mem_nearestSources.mpr ⟨⟨hIn, hDiffers hIn hTarget hPath, hPath⟩, ?_⟩
    rintro ⟨middle, between⟩ hMiddle - hDown - hUp
    have hBetween := Dict.get?_of_mem hMiddle
    exact hNearest middle (List.mem_map_of_mem hMiddle) ⟨first, hFirst, between, hBetween, hUp⟩
      ⟨between, hBetween, second, hSecond, hDown⟩

/-- Paths of edges are the order of recorded units. -/
theorem path_iff (hWell : strategy.WellFormed) (h : Accepted strategy) :
    Relation.TransGen (Drawn (flowEdges strategy units)) source target ↔
      UnitOrder strategy (componentByUnit units) source target := by
  rw [show Drawn (flowEdges strategy units) = Reduction.Covers
    (UnitOrder strategy (componentByUnit units)) (componentByUnit units).keys from
      funext fun source => funext fun target => propext (drawn_iff hWell h)]
  constructor
  · exact Reduction.lt_of_path UnitOrder.trans
  · intro hOrder
    have ⟨first, hFirst, second, hSecond, _⟩ := hOrder
    exact Reduction.path_of_lt UnitOrder.trans (fun _ => UnitOrder.irrefl hWell h)
      (Dict.mem_keys_of_get? hFirst) (Dict.mem_keys_of_get? hSecond) hOrder

/-- No edge is implied by the others. -/
theorem not_path_of_other_edges (hWell : strategy.WellFormed) (h : Accepted strategy)
    {edge : FlowSemanticEdge} (hEdge : edge ∈ flowEdges strategy units) :
    ¬ Relation.TransGen (Drawn ((flowEdges strategy units).filter (· ≠ edge)))
      edge.sourceUnitId edge.targetUnitId := by
  intro hPath
  have hCovers := (drawn_iff hWell h).mp ⟨edge, hEdge, rfl, rfl⟩
  have hTrans : ∀ {a b c}, UnitOrder strategy (componentByUnit units) a b →
      UnitOrder strategy (componentByUnit units) b c →
      UnitOrder strategy (componentByUnit units) a c := UnitOrder.trans
  apply Reduction.not_path_of_others @hTrans hCovers
  apply hPath.lift id
  rintro source target ⟨other, hOther, rfl, rfl⟩
  obtain ⟨hMem, hNe⟩ := List.mem_filter.mp hOther
  refine ⟨(drawn_iff hWell h).mp ⟨other, hMem, rfl, rfl⟩, ?_⟩
  rintro ⟨hSource, hTarget⟩
  have hKinds := (mem_flowEdges.mp hMem).1.trans (mem_flowEdges.mp hEdge).1.symm
  apply of_decide_eq_true hNe
  cases other
  cases edge
  cases hSource
  cases hTarget
  cases hKinds
  rfl

end Edges

section Rules

variable {facts : List SemanticFact} {component : Component} {fact : SemanticFact}
  {unit : FlowSemanticUnit}

theorem units_of_ruleFacts : (ruleFacts component).filterMap flowUnit =
    (actionFacts component).filterMap flowUnit := by
  rw [ruleFacts_eq, List.filterMap_append]
  cases component.condition <;> rfl

theorem unit_of_actionFacts (h : fact ∈ actionFacts component) :
    ∃ unit, flowUnit fact = some unit := by
  rcases List.mem_append.mp h with hThen | hOtherwise
  · obtain ⟨item, -, rfl⟩ := List.mem_map.mp hThen
    exact flowUnit_actionFact component .thenBranch item
  · obtain ⟨item, -, rfl⟩ := List.mem_map.mp hOtherwise
    exact flowUnit_actionFact component .otherwise item

theorem filter_units (id : String) : (facts.filterMap flowUnit).filter
    (fun unit => unit.ref.primaryComponentId = some id) =
      (facts.filter fun fact => fact.ref.primaryComponentId = some id).filterMap flowUnit := by
  induction facts with
  | nil => rfl
  | cons fact rest ih =>
      cases hUnit : flowUnit fact with
      | none => by_cases hId : fact.ref.primaryComponentId = some id <;> simp [hUnit, hId, ih]
      | some unit =>
          have hRef := (flowUnit_some hUnit).2.1
          by_cases hId : fact.ref.primaryComponentId = some id <;> simp [hUnit, hRef, hId, ih]

/-- The unit recorded for a component is that of its last fact with one. -/
theorem get?_unitByComponent_facts (h : componentFacts strategy = .ok facts) :
    (unitByComponent (facts.filterMap flowUnit)).get? component.id =
      ((factsOf facts component).filterMap flowUnit).getLast?.map FlowSemanticUnit.id := by
  rw [get?_unitByComponent, filter_units]
  · rfl
  · intro unit hUnit
    obtain ⟨component, -, hPrimary⟩ := component_of_unit h hUnit
    exact ⟨component.id, hPrimary⟩

/-- A component that is no rule has one fact at most. -/
theorem factsOf_of_not_rule (hWell : strategy.WellFormed) (h : componentFacts strategy = .ok facts)
    (hMem : component ∈ strategy.graph.components) (hRule : component.primitive ≠ "rule@1")
    (hFact : fact ∈ factsOf facts component) : factsOf facts component = [fact] := by
  have hFacts := factsOf_eq hWell h hMem
  split at hFacts
  · obtain ⟨found, -, hOnly⟩ := hFacts
    rw [hOnly, List.mem_singleton] at hFact
    rw [hOnly, hFact]
  · rw [ownFacts, if_neg hRule] at hFacts
    rw [hFacts] at hFact ⊢
    cases hShape : factShape component with
    | none => simp [hShape] at hFact
    | some shape =>
        simp only [hShape, Option.toList_some, List.map_cons, List.map_nil,
          List.mem_singleton] at hFact
        rw [hFact]
        rfl

theorem recorded_of_not_rule (hWell : strategy.WellFormed)
    (h : componentFacts strategy = .ok facts) (hMem : component ∈ strategy.graph.components)
    (hRule : component.primitive ≠ "rule@1") (hFact : fact ∈ factsOf facts component)
    (hUnit : flowUnit fact = some unit) :
    (unitByComponent (facts.filterMap flowUnit)).get? component.id = some unit.id := by
  rw [get?_unitByComponent_facts h, factsOf_of_not_rule hWell h hMem hRule hFact]
  simp [hUnit]

/-- A rule has the unit of its last action recorded. -/
theorem recorded_of_rule (hWell : strategy.WellFormed) (h : componentFacts strategy = .ok facts)
    (hMem : component ∈ strategy.graph.components) (hRule : component.primitive = "rule@1")
    {before : List SemanticFact} (hLast : actionFacts component = before ++ [fact]) :
    (unitByComponent (facts.filterMap flowUnit)).get? component.id = some ("flow:" ++ fact.id) := by
  have hFact : fact ∈ actionFacts component := by
    rw [hLast]
    simp
  obtain ⟨unit, hUnit⟩ := unit_of_actionFacts hFact
  rw [get?_unitByComponent_facts h, factsOf_rule hWell h hMem hRule, units_of_ruleFacts, hLast,
    List.filterMap_append]
  simp [hUnit, (flowUnit_some hUnit).1]

theorem mem_actionFacts_of_detail (hOwn : fact ∈ ownFacts component) {detail : Action × ActionBranch}
    (hDetail : fact.detail = some detail) :
    component.primitive = "rule@1" ∧ fact ∈ actionFacts component := by
  rcases mem_ownFacts.mp hOwn with ⟨hRule, hFact⟩ | ⟨-, shape, -, rfl⟩
  · refine ⟨hRule, ?_⟩
    rw [ruleFacts_eq] at hFact
    rcases List.mem_append.mp hFact with hPredicate | hAction
    · cases hCondition : component.condition with
      | none => simp [hCondition] at hPredicate
      | some condition =>
          simp only [hCondition, Option.isSome_some, if_true, List.mem_singleton] at hPredicate
          rw [hPredicate] at hDetail
          cases hDetail
    · exact hAction
  · cases hDetail

/-- A fact with a unit but no action is of a component that is no rule. -/
theorem not_rule_of_detail (hOwn : fact ∈ ownFacts component) (hUnit : flowUnit fact = some unit)
    (hDetail : fact.detail = none) : component.primitive ≠ "rule@1" := by
  intro hRule
  rw [ownFacts, if_pos hRule] at hOwn
  rcases mem_ruleFacts.mp hOwn with ⟨-, rfl⟩ | ⟨branch, item, -, rfl⟩
  · cases hUnit
  · cases hDetail

end Rules

section Targets

variable {facts : List SemanticFact}

theorem targets_shape : ∀ primitive ∈ builtinRegistry,
    primitive.outputs.any (fun output => output.valueType = .portfolioTargets) = true →
      primitive.id = "equal_weight@1" ∨ primitive.id = "merge_targets@1" ∨
      primitive.id = "fallback@1" ∨ primitive.id = "portfolio_sleeve@1" ∨
      primitive.id = "portfolio@1" := by
  decide

/-- What a rule rebalances to has a unit. -/
theorem unit_of_rebalance (h : Accepted strategy) (hFacts : componentFacts strategy = .ok facts)
    {component : Component} (hMem : component ∈ strategy.graph.components) {source : String}
    (hSource : source ∈ component.rebalanceTargets) :
    ∃ unit ∈ facts.filterMap flowUnit, unit.ref.primaryComponentId = some source := by
  obtain ⟨primitive, output, hSpec, hOutput, hType⟩ := h.rebalance_source hMem hSource
  obtain ⟨target, hTarget, hId, hRegistry⟩ := primitiveSpec_some hSpec
  obtain ⟨hTargetMem, rfl⟩ := component?_some hTarget
  have hKind := targets_shape primitive hRegistry
    (List.any_eq_true.mpr ⟨output, hOutput, by simpa using hType⟩)
  rw [← hId] at hKind
  obtain ⟨shape, hShape, hFamily⟩ : ∃ shape, factShape target = some shape ∧
      (familyFor shape.category).isSome := by
    rcases hKind with hKind | hKind | hKind | hKind | hKind <;>
      exact ⟨_, by simp only [factShape, hKind]; rfl, rfl⟩
  have hRule : target.primitive ≠ "rule@1" := by
    intro hRule
    rw [hRule] at hKind
    simp at hKind
  have hFact : shapedFact target shape ∈ facts := (mem_componentFacts hFacts).mpr
    (Or.inr (Or.inl ⟨target, hTargetMem, mem_ownFacts.mpr (Or.inr ⟨hRule, shape, hShape, rfl⟩)⟩))
  obtain ⟨unit, hUnit⟩ : ∃ unit, flowUnit (shapedFact target shape) = some unit := by
    unfold flowUnit
    split
    · exact ⟨_, rfl⟩
    · obtain ⟨family, hFamily⟩ := Option.isSome_iff_exists.mp hFamily
      exact ⟨_, by rw [show (shapedFact target shape).category = shape.category from rfl, hFamily]; rfl⟩
  refine ⟨unit, List.mem_filterMap.mpr ⟨_, hFact, hUnit⟩, ?_⟩
  rw [(flowUnit_some hUnit).2.1]
  rfl

end Targets

section Routes

variable {facts : List SemanticFact} {source target : FlowSemanticUnit} {fact : SemanticFact}

/-- What a unit looks like in the map from units to components. -/
theorem recorded_iff (hWell : strategy.WellFormed) (hFacts : componentFacts strategy = .ok facts)
    (hTarget : target ∈ facts.filterMap flowUnit) {component : String}
    (hPrimary : target.ref.primaryComponentId = some component) {found : String} :
    (componentByUnit (facts.filterMap flowUnit)).get? target.id = some found ↔
      found = component ∧
        (unitByComponent (facts.filterMap flowUnit)).get? component = some target.id := by
  have hUnits : ∀ unit ∈ facts.filterMap flowUnit,
      ∃ component, unit.ref.primaryComponentId = some component := by
    intro unit hUnit
    obtain ⟨component, -, hPrimary⟩ := component_of_unit hFacts hUnit
    exact ⟨component.id, hPrimary⟩
  have hIds := nodup_unitIds (nodup_factIds hWell hFacts)
  rw [get?_componentByUnit hUnits hIds]
  constructor
  · intro hRecorded
    obtain ⟨unit, hUnit, hId, hFound⟩ := unit_of_recorded hUnits hRecorded
    obtain rfl := List.inj_on_of_nodup_map hIds hUnit hTarget hId
    rw [hPrimary] at hFound
    cases hFound
    exact ⟨rfl, hRecorded⟩
  · rintro ⟨rfl, hRecorded⟩
    exact hRecorded

/-- Whatever feeds another component has its unit recorded. -/
theorem recorded_of_feeds (hWell : strategy.WellFormed) (h : Accepted strategy)
    (hFacts : componentFacts strategy = .ok facts) (hSource : source ∈ facts.filterMap flowUnit)
    {component next : String} (hPrimary : source.ref.primaryComponentId = some component)
    (hFeeds : Feeds strategy component next) :
    (unitByComponent (facts.filterMap flowUnit)).get? component = some source.id := by
  obtain ⟨owner, hMem, hOwner⟩ := component_of_unit hFacts hSource
  rw [hPrimary] at hOwner
  cases hOwner
  obtain ⟨fact, hFact, hUnit⟩ := List.mem_filterMap.mp hSource
  rw [(flowUnit_some hUnit).2.1] at hPrimary
  apply recorded_of_not_rule hWell hFacts hMem _ (List.mem_filter.mpr ⟨hFact, by simpa using hPrimary⟩)
    hUnit
  intro hRule
  exact not_feeds_of_rule hWell h ⟨owner, component?_of_mem hWell hMem, hRule⟩ hFeeds

/-- The unit of a rule's action is recorded for the last one only. -/
theorem recorded_action_iff (hWell : strategy.WellFormed)
    (hFacts : componentFacts strategy = .ok facts) {component : Component}
    (hMem : component ∈ strategy.graph.components) (hRule : component.primitive = "rule@1")
    {before : List SemanticFact} {last : SemanticFact}
    (hLast : actionFacts component = before ++ [last]) (hFact : fact ∈ actionFacts component) :
    (unitByComponent (facts.filterMap flowUnit)).get? component.id = some ("flow:" ++ fact.id) ↔
      fact = last := by
  rw [recorded_of_rule hWell hFacts hMem hRule hLast, Option.some.injEq, String.append_right_inj]
  constructor
  · intro hId
    exact List.inj_on_of_nodup_map (nodup_actionFacts (plain_of_mem hWell hMem)) hFact
      (by rw [hLast]; simp) hId.symm
  · rintro rfl
    rfl

/-- Only the last action of each rule may rebalance to the output of a component. -/
def LastActionDraws (strategy : CanonicalStrategyV1) : Prop :=
  ∀ component ∈ strategy.graph.components, ∀ action ∈ component.branchActions.dropLast,
    rebalanceTarget action = none

/-- Where only last actions draw, what feeds a rule is what its last action draws from. -/
theorem capitalSources_action (hSingle : LastActionDraws strategy) {component : Component}
    (hMem : component ∈ strategy.graph.components)
    {before : List SemanticFact} {last : SemanticFact}
    (hLast : actionFacts component = before ++ [last]) :
    (∀ fact ∈ before, ∀ detail, fact.detail = some detail → capitalSources strategy fact = []) ∧
      ∀ detail, last.detail = some detail →
        component.rebalanceTargets = capitalSources strategy last := by
  have hActions := detail_actionFacts component
  rw [hLast, List.map_append, List.map_cons, List.map_nil] at hActions
  have hBefore : before.map (fun fact => fact.detail.map Prod.fst) =
      component.branchActions.dropLast.map some := by
    rw [List.map_dropLast, ← hActions, List.dropLast_concat]
  constructor
  · intro fact hFact detail hDetail
    have hIn : some detail.1 ∈ component.branchActions.dropLast.map some := by
      rw [← hBefore]
      exact List.mem_map.mpr ⟨fact, hFact, by rw [hDetail]; rfl⟩
    obtain ⟨action, hAction, hSame⟩ := List.mem_map.mp hIn
    rw [capitalSources, hDetail]
    dsimp only
    rw [← Option.some.inj hSame, hSingle component hMem action hAction]
    rfl
  · intro detail hDetail
    have hSplit : component.branchActions = component.branchActions.dropLast ++ [detail.1] := by
      apply List.map_injective_iff.mpr (Option.some_injective _)
      rw [List.map_append, ← hBefore, ← hActions, hDetail]
      rfl
    rw [Component.rebalanceTargets, hSplit, List.filterMap_append,
      List.filterMap_eq_nil_iff.mpr (hSingle component hMem), List.nil_append, capitalSources, hDetail]
    cases hTarget : rebalanceTarget detail.1 <;> simp [hTarget]

/-- A unit is recorded for the component of its fact, but for earlier actions of a rule. -/
theorem recorded_iff_draws (hWell : strategy.WellFormed) (h : Accepted strategy)
    (hFacts : componentFacts strategy = .ok facts) (hSingle : LastActionDraws strategy)
    (hFact : fact ∈ facts) (hUnit : flowUnit fact = some target) {component : Component}
    (hMem : component ∈ strategy.graph.components)
    (hPrimary : fact.ref.primaryComponentId = some component.id) {start : String} :
    (unitByComponent (facts.filterMap flowUnit)).get? component.id = some target.id ∧
        IsAncestor strategy start component.id ↔ IsUpstream strategy start fact := by
  rw [isAncestor_iff, IsUpstream, (flowUnit_some hUnit).1]
  have hOf : fact ∈ factsOf facts component :=
    List.mem_filter.mpr ⟨hFact, by simpa using hPrimary⟩
  cases hDetail : fact.detail with
  | none =>
      have hRule : component.primitive ≠ "rule@1" := by
        intro hRule
        have hOwn := hOf
        rw [factsOf_rule hWell hFacts hMem hRule] at hOwn
        exact not_rule_of_detail (mem_ownFacts.mpr (Or.inl ⟨hRule, hOwn⟩)) hUnit hDetail hRule
      have hRecorded := recorded_of_not_rule hWell hFacts hMem hRule hOf hUnit
      rw [(flowUnit_some hUnit).1] at hRecorded
      simp [hRecorded, capitalSources, hDetail, hPrimary]
  | some detail =>
      have hOwn : fact ∈ ownFacts component := by
        rcases (mem_componentFacts hFacts).mp hFact with ⟨other, -, -, hFrom⟩ | ⟨other, hOther, hOwn⟩ |
          ⟨definition, -, rfl⟩
        · obtain ⟨pipeline, -, rfl⟩ := selectionFact_ok hFrom
          cases hDetail
        · have hSame := (own_of_mem hOwn).2.1
          rw [hPrimary] at hSame
          obtain rfl := List.inj_on_of_nodup_map hWell.components hMem hOther (Option.some.inj hSame)
          exact hOwn
        · cases hDetail
      obtain ⟨hRule, hAction⟩ := mem_actionFacts_of_detail hOwn hDetail
      rcases List.eq_nil_or_concat (actionFacts component) with hNone | ⟨before, last, hLast⟩
      · rw [hNone] at hAction
        cases hAction
      · rw [List.concat_eq_append] at hLast
        rw [recorded_action_iff hWell hFacts hMem hRule hLast hAction]
        obtain ⟨hEarlier, hFinal⟩ := capitalSources_action hSingle hMem hLast
        have hUnique := nodup_actionFacts (plain_of_mem hWell hMem)
        rw [hLast] at hAction hUnique
        rcases List.mem_append.mp hAction with hBefore | hIs
        · -- an earlier action has no unit recorded and draws nothing
          have hNot : fact ≠ last := by
            rintro rfl
            rw [List.map_append, List.nodup_append] at hUnique
            exact hUnique.2.2 _ (List.mem_map_of_mem hBefore) _ (by simp) rfl
          simp [hNot, hEarlier fact hBefore detail hDetail]
        · obtain rfl := List.mem_singleton.mp hIs
          simp [mem_incoming_of_rule hWell h hMem hRule, hFinal detail hDetail]

/-- Where only last actions draw, recorded units are in the order of capital. -/
theorem unitOrder_iff (hWell : strategy.WellFormed) (h : Accepted strategy)
    (hFacts : componentFacts strategy = .ok facts) (hSingle : LastActionDraws strategy)
    (hSource : source ∈ facts.filterMap flowUnit) (hFact : fact ∈ facts)
    (hUnit : flowUnit fact = some target) :
    UnitOrder strategy (componentByUnit (facts.filterMap flowUnit)) source.id target.id ↔
      ∃ component, source.ref.primaryComponentId = some component ∧
        IsUpstream strategy component fact := by
  have hTarget : target ∈ facts.filterMap flowUnit := List.mem_filterMap.mpr ⟨fact, hFact, hUnit⟩
  obtain ⟨start, -, hStart⟩ := component_of_unit hFacts hSource
  obtain ⟨component, hMem, hPrimary⟩ := component_of_unit hFacts hTarget
  have hPrimary' := hPrimary
  rw [(flowUnit_some hUnit).2.1] at hPrimary'
  have hDraws : _ ↔ IsUpstream strategy start.id fact :=
    recorded_iff_draws hWell h hFacts hSingle hFact hUnit hMem hPrimary'
  unfold UnitOrder
  simp only [recorded_iff hWell hFacts hSource hStart, recorded_iff hWell hFacts hTarget hPrimary,
    hStart, Option.some.injEq, exists_eq_left', ← hDraws]
  constructor
  · rintro ⟨first, ⟨rfl, -⟩, second, ⟨rfl, hRecorded⟩, hPath⟩
    exact ⟨hRecorded, hPath⟩
  · rintro ⟨hRecorded, hPath⟩
    obtain ⟨next, hFeeds, -⟩ := Relation.TransGen.head'_iff.mp hPath
    exact ⟨_, ⟨rfl, recorded_of_feeds hWell h hFacts hSource hStart hFeeds⟩, _, ⟨rfl, hRecorded⟩, hPath⟩

end Routes

section Projection

variable {projection : SemanticCompositionProjection}

theorem capitalOrder_of_single (hWell : strategy.WellFormed) (h : Accepted strategy)
    (hProjected : projectSemanticComposition strategy = .ok projection)
    (hSingle : LastActionDraws strategy) : CapitalOrder strategy projection := by
  obtain ⟨hFacts, hFlow, -⟩ := projection_parts hProjected
  refine ⟨?_, ?_, ?_⟩
  · intro source hSource target hTarget fact hFact hIs
    rw [hFlow] at hSource hTarget ⊢
    obtain ⟨owner, hOwner, hUnit⟩ := List.mem_filterMap.mp hTarget
    rw [(flowUnit_some hUnit).2.2, List.cons.injEq] at hIs
    obtain rfl := List.inj_on_of_nodup_map (nodup_factIds hWell hFacts) hOwner hFact hIs.1
    exact (path_iff hWell h).trans (unitOrder_iff hWell h hFacts hSingle hSource hFact hUnit)
  · intro edge hEdge
    rw [hFlow] at hEdge ⊢
    exact not_path_of_other_edges hWell h hEdge
  · intro unit hPath
    rw [hFlow] at hPath
    exact UnitOrder.irrefl hWell h ((path_iff hWell h).mp hPath)

theorem single_of_capitalOrder (hWell : strategy.WellFormed) (h : Accepted strategy)
    (hProjected : projectSemanticComposition strategy = .ok projection)
    (hOrder : CapitalOrder strategy projection) : LastActionDraws strategy := by
  obtain ⟨hFacts, hFlow, -⟩ := projection_parts hProjected
  intro component hMem action hAction
  by_contra hTarget
  obtain ⟨target, hTarget⟩ := Option.ne_none_iff_exists'.mp hTarget
  have hIn : action ∈ component.branchActions := List.dropLast_subset _ hAction
  have hRule : component.primitive = "rule@1" :=
    h.rule_of_action hMem (List.ne_nil_of_mem hIn)
  have hSource : target ∈ component.rebalanceTargets := List.mem_filterMap.mpr ⟨action, hIn, hTarget⟩
  obtain ⟨source, hSourceMem, hPrimary⟩ := unit_of_rebalance h hFacts hMem hSource
  rcases List.eq_nil_or_concat (actionFacts component) with hNone | ⟨before, last, hLast⟩
  · have hActions := detail_actionFacts component
    rw [hNone, List.map_nil, eq_comm, List.map_eq_nil_iff] at hActions
    exact List.ne_nil_of_mem hIn hActions
  · rw [List.concat_eq_append] at hLast
    have hActions := congrArg List.dropLast (detail_actionFacts component)
    rw [hLast, List.map_append, List.map_cons, List.map_nil, List.dropLast_concat,
      ← List.map_dropLast] at hActions
    obtain ⟨fact, hBefore, hDetail⟩ : ∃ fact ∈ before, fact.detail.map Prod.fst = some action := by
      have hSome : some action ∈ before.map (fun fact => fact.detail.map Prod.fst) := by
        rw [hActions]
        exact List.mem_map_of_mem hAction
      exact List.mem_map.mp hSome
    have hActionFact : fact ∈ actionFacts component := by
      rw [hLast]
      exact List.mem_append_left _ hBefore
    have hOf : fact ∈ factsOf projection.facts component := by
      rw [factsOf_rule hWell hFacts hMem hRule, ruleFacts_eq]
      exact List.mem_append_right _ hActionFact
    obtain ⟨hFact, hOwner⟩ := List.mem_filter.mp hOf
    have hOwner : fact.ref.primaryComponentId = some component.id := by simpa using hOwner
    obtain ⟨unit, hUnit⟩ := unit_of_actionFacts hActionFact
    have hUnitMem : unit ∈ projection.facts.filterMap flowUnit :=
      List.mem_filterMap.mpr ⟨fact, hFact, hUnit⟩
    have hRoute := (hOrder.routes source (by rw [hFlow]; exact hSourceMem) unit
      (by rw [hFlow]; exact hUnitMem) fact hFact (flowUnit_some hUnit).2.2).mpr
        ⟨target, hPrimary, target, by
          obtain ⟨detail, hSome, rfl⟩ := Option.map_eq_some_iff.mp hDetail
          rw [capitalSources, hSome]
          dsimp only
          rw [hTarget]
          simp, Or.inl rfl⟩
    rw [hFlow] at hRoute
    obtain ⟨-, -, second, hSecond, -⟩ := (path_iff hWell h).mp hRoute
    rw [← (flowUnit_some hUnit).2.1] at hOwner
    obtain ⟨rfl, hRecorded⟩ := (recorded_iff hWell hFacts hUnitMem hOwner).mp hSecond
    rw [(flowUnit_some hUnit).1] at hRecorded
    have hSame := (recorded_action_iff hWell hFacts hMem hRule hLast hActionFact).mp hRecorded
    have hUnique := nodup_actionFacts (plain_of_mem hWell hMem)
    rw [hLast, List.map_append, List.nodup_append] at hUnique
    exact hUnique.2.2 _ (List.mem_map_of_mem hBefore) _ (by simp) (congrArg SemanticFact.id hSame)

/-- The flow draws the order of capital exactly where no action but the last one of its rule
rebalances to the output of a component. -/
theorem capitalOrder_iff (hWell : strategy.WellFormed)
    (hAccepted : validateStrategyV1 strategy = .ok ⟨⟩) :
    ∃ projection, projectSemanticComposition strategy = .ok projection ∧
      (CapitalOrder strategy projection ↔ LastActionDraws strategy) := by
  have h := validate_ok_iff.mp hAccepted
  obtain ⟨projection, hProjected⟩ := h.projects hWell
  exact ⟨projection, hProjected, single_of_capitalOrder hWell h hProjected,
    capitalOrder_of_single hWell h hProjected⟩

/-- A rule that holds one allocation while a return is positive and another one otherwise. -/
def riskSwitch : CanonicalStrategyV1 where
  metadata := { name := "Risk switch" }
  definitions := { assetSets := [⟨"risky", ["SPY"]⟩, ⟨"safe", ["SHY"]⟩] }
  graph :=
    { components :=
        [{ id := "schedule", primitive := "daily@1" },
          { id := "risky_assets", primitive := "asset_set@1"
            config := Dict.empty.set "asset_set_ref" (.text "risky") },
          { id := "risky_weights", primitive := "equal_weight@1"
            config := Dict.empty.set "total" (.text "1") },
          { id := "safe_assets", primitive := "asset_set@1"
            config := Dict.empty.set "asset_set_ref" (.text "safe") },
          { id := "safe_weights", primitive := "equal_weight@1"
            config := Dict.empty.set "total" (.text "1") },
          { id := "switch", primitive := "rule@1"
            condition := some (.comparison .gt
              (.indicator "trailing_return_indicator@1" (.literal .asset (.text "SPY"))
                (Dict.empty.set "lookback_bars" (.integer 20)))
              (.literal .percentage (.text "0")))
            actions := [.rebalance (.componentOutput "risky_weights" "targets")]
            elseActions := [.rebalance (.componentOutput "safe_weights" "targets")] }]
      connections :=
        [⟨⟨"risky_assets", "assets"⟩, ⟨"risky_weights", "assets"⟩⟩,
          ⟨⟨"safe_assets", "assets"⟩, ⟨"safe_weights", "assets"⟩⟩] }
  entrypoints := [⟨"schedule", "switch"⟩]

theorem riskSwitch_wellFormed : riskSwitch.WellFormed :=
  ⟨by decide, by decide, by decide, by decide, by decide, by decide, by decide⟩

theorem riskSwitch_valid : validateStrategyV1 riskSwitch = .ok ⟨⟩ := by
  decide +kernel

theorem riskSwitch_order : ∃ projection, projectSemanticComposition riskSwitch = .ok projection ∧
    (CapitalOrder riskSwitch projection ↔ LastActionDraws riskSwitch) :=
  capitalOrder_iff riskSwitch_wellFormed riskSwitch_valid

/-- The action taken while the return is positive has no route from its allocation. -/
theorem riskSwitch_missingRoute : ∃ projection,
    projectSemanticComposition riskSwitch = .ok projection ∧
      ¬ CapitalOrder riskSwitch projection := by
  obtain ⟨projection, hProjected⟩ :=
    (validate_ok_iff.mp riskSwitch_valid).projects riskSwitch_wellFormed
  refine ⟨projection, hProjected, fun hOrder => ?_⟩
  have hSingle := single_of_capitalOrder riskSwitch_wellFormed
    (validate_ok_iff.mp riskSwitch_valid) hProjected hOrder
  have hNone := hSingle _ (List.mem_of_getElem? (i := 5) rfl)
    (.rebalance (.componentOutput "risky_weights" "targets")) (by
      simp [Component.branchActions])
  cases hNone

end Projection

end RuleTrade.V1
