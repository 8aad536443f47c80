import RuleTrade.Strategy.AcceptedV1

/-! Changes of component configs that leave the graph as it is. -/

namespace RuleTrade.V1

open Library

/-- Fields that validation reads beside the checks of single fields. -/
def shapeFields : List String :=
  ["fallback_asset_set_ref", "asset_set_ref", "name", "total", "allocation"]

/-- Changes of components that keep everything but other fields of their configs. -/
structure KeepsShape (change : Component → Component) : Prop where
  id : ∀ component, (change component).id = component.id
  primitive : ∀ component, (change component).primitive = component.primitive
  condition : ∀ component, (change component).condition = component.condition
  valueExpression : ∀ component, (change component).valueExpression = component.valueExpression
  actions : ∀ component, (change component).actions = component.actions
  elseActions : ∀ component, (change component).elseActions = component.elseActions
  config : ∀ component, ∀ field ∈ shapeFields,
    (change component).config.get? field = component.config.get? field

/-- A strategy whose components are changed. -/
def reconfigure (change : Component → Component) (strategy : CanonicalStrategyV1) :
    CanonicalStrategyV1 :=
  strategy.withComponents (strategy.graph.components.map change)

section Reconfigured

variable {change : Component → Component} (hChange : KeepsShape change)
  (strategy : CanonicalStrategyV1)

@[simp] theorem reconfigure_connections :
    (reconfigure change strategy).graph.connections = strategy.graph.connections := rfl

@[simp] theorem reconfigure_definitions :
    (reconfigure change strategy).definitions = strategy.definitions := rfl

@[simp] theorem reconfigure_entrypoints :
    (reconfigure change strategy).entrypoints = strategy.entrypoints := rfl

@[simp] theorem reconfigure_components :
    (reconfigure change strategy).graph.components = strategy.graph.components.map change := rfl

@[simp] theorem definitionIds_reconfigure :
    definitionIds (reconfigure change strategy) = definitionIds strategy := by
  funext reference
  cases reference <;> rfl

include hChange

theorem componentIds_reconfigure :
    (reconfigure change strategy).componentIds = strategy.componentIds := by
  simp [CanonicalStrategyV1.componentIds, List.map_map, Function.comp_def, hChange.id]

theorem component?_reconfigure (id : String) :
    (reconfigure change strategy).component? id = (strategy.component? id).map change := by
  simp only [CanonicalStrategyV1.component?, reconfigure_components, List.find?_map,
    Function.comp_def, hChange.id]

theorem primitiveSpec_reconfigure :
    primitiveSpec (reconfigure change strategy) = primitiveSpec strategy := by
  funext id
  simp only [primitiveSpec, component?_reconfigure hChange]
  cases strategy.component? id with
  | none => rfl
  | some component => simp only [Option.map_some, Option.bind_some, hChange.primitive]

theorem sameTypes_reconfigure : SameTypes strategy (reconfigure change strategy) where
  definitions := rfl
  outputs := by
    intro id port path
    simp only [outputType, component?_reconfigure hChange]
    cases strategy.component? id with
    | none => rfl
    | some component => simp only [Option.map_some, hChange.primitive]

theorem linked_reconfigure : linked (reconfigure change strategy) = linked strategy := by
  simp only [linked, reconfigure_connections]
  congr 1
  funext connection
  simp only [isLinked, primitiveSpec_reconfigure hChange]

theorem inputSource_reconfigure :
    inputSource (reconfigure change strategy) = inputSource strategy := by
  funext id port
  simp only [inputSource, linked_reconfigure hChange]

theorem inputSources_reconfigure :
    inputSources (reconfigure change strategy) = inputSources strategy := by
  funext id port
  simp only [inputSources, linked_reconfigure hChange]

theorem connectionIssues_reconfigure (index : Nat) (seen connections : List Connection) :
    connectionIssues (reconfigure change strategy) index seen connections =
      connectionIssues strategy index seen connections := by
  induction connections generalizing index seen with
  | nil => rfl
  | cons connection rest ih =>
      simp only [connectionIssues, primitiveSpec_reconfigure hChange, ih]

theorem cycleIssues_reconfigure :
    cycleIssues (reconfigure change strategy) = cycleIssues strategy := by
  have hEdges : dependencyEdges (reconfigure change strategy) = dependencyEdges strategy := by
    funext id
    simp only [dependencyEdges, linked_reconfigure hChange]
  have hSame : hasCycle (reconfigure change strategy) = hasCycle strategy := by
    simp only [hasCycle, hEdges, componentIds_reconfigure hChange, reconfigure_components,
      List.length_map]
  simp only [cycleIssues, hSame]

theorem isOther_reconfigure : isOther (reconfigure change strategy) = isOther strategy := by
  funext implementation id
  simp only [isOther, primitiveSpec_reconfigure hChange]

theorem referencedAssets_reconfigure (component : Component) :
    referencedAssets (reconfigure change strategy) (change component) "fallback_asset_set_ref" =
      referencedAssets strategy component "fallback_asset_set_ref" := by
  simp only [referencedAssets, hChange.config component _ List.mem_cons_self,
    reconfigure_definitions]

theorem fallbackIssues_reconfigure (component : Component) :
    fallbackIssues (reconfigure change strategy) (change component) =
      fallbackIssues strategy component := by
  simp only [fallbackIssues, hChange.id, inputSource_reconfigure hChange,
    isOther_reconfigure hChange, referencedAssets_reconfigure hChange]

theorem hasBlankName_change (component : Component) :
    hasBlankName (change component) = hasBlankName component := by
  have hField : "name" ∈ shapeFields := by decide
  simp only [hasBlankName, hChange.config component _ hField]

theorem sleeveTargets_reconfigure (component : Component) :
    sleeveTargets (reconfigure change strategy) (change component) =
      (sleeveTargets strategy component).map change := by
  have hStep (source : Option String) :
      ((source.bind (reconfigure change strategy).component?).filter fun item =>
        (getPrimitive item.primitive).map PrimitiveSpec.implementationId =
          some "allocation.equal_weight") =
      ((source.bind strategy.component?).filter fun item =>
        (getPrimitive item.primitive).map PrimitiveSpec.implementationId =
          some "allocation.equal_weight").map change := by
    cases source with
    | none => rfl
    | some id =>
        simp only [Option.bind_some, component?_reconfigure hChange]
        cases strategy.component? id with
        | none => rfl
        | some item =>
            simp only [Option.map_some, Option.filter_some, hChange.primitive]
            split <;> rfl
  simp only [sleeveTargets, hChange.id, inputSource_reconfigure hChange,
    primitiveSpec_reconfigure hChange]
  exact hStep _

theorem sleeveIssues_reconfigure (component : Component) :
    sleeveIssues (reconfigure change strategy) (change component) =
      sleeveIssues strategy component := by
  have hField : "total" ∈ shapeFields := by decide
  simp only [sleeveIssues, sleeveTargets_reconfigure hChange, hasBlankName_change hChange,
    hChange.id]
  cases sleeveTargets strategy component with
  | none => rfl
  | some item => simp only [Option.map_some, Option.bind_some, hChange.config item _ hField]

theorem allocationSum_map (total : Numeral) (sleeves : List Component) :
    allocationSum total (sleeves.map change) = allocationSum total sleeves := by
  have hField : "allocation" ∈ shapeFields := by decide
  induction sleeves generalizing total with
  | nil => rfl
  | cons sleeve rest ih => simp only [List.map_cons, allocationSum, hChange.config sleeve _ hField, ih]

theorem portfolioIssues_reconfigure (component : Component) :
    portfolioIssues (reconfigure change strategy) (change component) =
      portfolioIssues strategy component := by
  have hSleeves (ids : List String) :
      ids.filterMap (reconfigure change strategy).component? =
        (ids.filterMap strategy.component?).map change := by
    rw [List.map_filterMap]
    exact List.filterMap_congr fun id _ => component?_reconfigure hChange strategy id
  simp only [portfolioIssues, inputSources_reconfigure hChange, hSleeves, List.any_map,
    Function.comp_def, hChange.primitive, hasBlankName_change hChange, hChange.id,
    List.length_map, totalIssues, allocationSum_map hChange]

theorem shapeIssues_reconfigure (component : Component) :
    shapeIssues (reconfigure change strategy) (change component) = shapeIssues strategy component := by
  simp only [shapeIssues, requiredInputIssues, cooldownIssues, hChange.primitive, hChange.id,
    inputSource_reconfigure hChange, isOther_reconfigure hChange,
    fallbackIssues_reconfigure hChange, sleeveIssues_reconfigure hChange,
    portfolioIssues_reconfigure hChange]

theorem expressionIssues_reconfigure (component : Component) :
    expressionIssues (reconfigure change strategy) (change component) =
      expressionIssues strategy component := by
  rw [expressionIssues_congr (sameTypes_reconfigure hChange strategy)]
  simp only [expressionIssues, hChange.primitive, hChange.id, hChange.condition,
    hChange.valueExpression, hChange.actions, hChange.elseActions]

/-- Issues of a changed component are those of its config. -/
theorem componentIssues_reconfigure {component : Component} {primitive : PrimitiveSpec}
    (hPrimitive : getPrimitive component.primitive = some primitive)
    (hFields : fieldIssues (definitionIds strategy) primitive.fields (change component).config
      (componentPath component.id ++ ".config") = [])
    (hNone : componentIssues strategy component = []) :
    componentIssues (reconfigure change strategy) (change component) = [] := by
  simp only [componentIssues, hPrimitive, List.append_eq_nil_iff] at hNone
  simp only [componentIssues, hChange.primitive, hPrimitive, hChange.id, ruleIssues,
    hChange.condition, hChange.actions, hChange.elseActions, hChange.valueExpression,
    definitionIds_reconfigure, List.append_eq_nil_iff]
  exact ⟨⟨hFields, hNone.1.2⟩, hNone.2⟩

/-- A change of configs that pass the checks of their fields is accepted. -/
theorem accepted_reconfigure {strategy : CanonicalStrategyV1} (hAccepted : Accepted strategy)
    (hFields : ∀ component ∈ strategy.graph.components, ∀ primitive,
      getPrimitive component.primitive = some primitive →
        fieldIssues (definitionIds strategy) primitive.fields (change component).config
          (componentPath component.id ++ ".config") = []) :
    Accepted (reconfigure change strategy) where
  groups := hAccepted.groups
  universes := hAccepted.universes
  components := by
    rw [reconfigure_components, List.forall_mem_map]
    intro component hMem
    obtain ⟨primitive, hPrimitive⟩ := hAccepted.known hMem
    exact componentIssues_reconfigure hChange strategy hPrimitive
      (hFields component hMem primitive hPrimitive) (hAccepted.components component hMem)
  connections := by
    rw [connectionIssues_reconfigure hChange]
    exact hAccepted.connections
  acyclic := by
    rw [cycleIssues_reconfigure hChange]
    exact hAccepted.acyclic
  shapes := by
    rw [reconfigure_components, List.forall_mem_map]
    intro component hMem
    rw [shapeIssues_reconfigure hChange]
    exact hAccepted.shapes component hMem
  entrypoints := by
    have hSame : entrypointIssues (reconfigure change strategy) = entrypointIssues strategy := by
      simp only [entrypointIssues, primitiveSpec_reconfigure hChange,
        componentIds_reconfigure hChange, reconfigure_entrypoints]
    rw [hSame]
    exact hAccepted.entrypoints
  expressions := by
    rw [reconfigure_components, List.forall_mem_map]
    intro component hMem
    rw [expressionIssues_reconfigure hChange]
    exact hAccepted.expressions component hMem

end Reconfigured

end RuleTrade.V1
