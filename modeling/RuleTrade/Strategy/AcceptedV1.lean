import RuleTrade.Library.Logged
import RuleTrade.Strategy.ValidationV1

/-! What an accepted strategy satisfies, and changes of configs that validation does not
look at. -/

namespace RuleTrade.V1

open Library

section Accepted

theorem mapM_flatten_nil_iff {α β ε : Type} {f : α → Except ε (List β)} {xs : List α} :
    (∃ ys, xs.mapM f = .ok ys ∧ ys.flatten = []) ↔ ∀ x ∈ xs, f x = .ok [] := by
  induction xs with
  | nil => simp [pure, Except.pure]
  | cons x rest ih =>
      rw [List.forall_mem_cons, ← ih, List.mapM_cons]
      constructor
      · rintro ⟨ys, hRun, hNil⟩
        obtain ⟨first, hFirst, hRun⟩ := except_bind_ok.mp hRun
        obtain ⟨others, hOthers, hRun⟩ := except_bind_ok.mp hRun
        cases hRun
        rw [List.flatten_cons, List.append_eq_nil_iff] at hNil
        exact ⟨by rw [hFirst, hNil.1], others, hOthers, hNil.2⟩
      · rintro ⟨hFirst, others, hOthers, hNil⟩
        refine ⟨[] :: others, ?_, by simpa using hNil⟩
        rw [hFirst, hOthers]
        rfl

/-- A strategy without issues, each kind of issue apart. -/
structure Accepted (strategy : CanonicalStrategyV1) : Prop where
  groups : groupIssues strategy = []
  universes : universeIssues strategy = []
  components : ∀ component ∈ strategy.graph.components, componentIssues strategy component = []
  connections : connectionIssues strategy 0 [] strategy.graph.connections = []
  acyclic : cycleIssues strategy = []
  shapes : ∀ component ∈ strategy.graph.components, shapeIssues strategy component = .ok []
  entrypoints : entrypointIssues strategy = []
  expressions : ∀ component ∈ strategy.graph.components,
    expressionIssues strategy component = .ok []

theorem collect_nil_iff {strategy : CanonicalStrategyV1} :
    collectSemanticIssues strategy = .ok [] ↔ Accepted strategy := by
  constructor
  · intro h
    obtain ⟨shapes, hShapes, h⟩ := except_bind_ok.mp h
    obtain ⟨expressions, hExpressions, h⟩ := except_bind_ok.mp h
    have hNil : groupIssues strategy ++ universeIssues strategy ++
        strategy.graph.components.flatMap (componentIssues strategy) ++
        connectionIssues strategy 0 [] strategy.graph.connections ++ cycleIssues strategy ++
        shapes.flatten ++ entrypointIssues strategy ++ expressions.flatten = [] :=
      Except.ok.inj h
    simp only [List.append_eq_nil_iff, List.flatMap_eq_nil_iff] at hNil
    obtain ⟨⟨⟨⟨⟨⟨⟨hGroups, hUniverses⟩, hComponents⟩, hConnections⟩, hAcyclic⟩, hShape⟩,
      hEntrypoints⟩, hExpression⟩ := hNil
    exact ⟨hGroups, hUniverses, hComponents, hConnections, hAcyclic,
      mapM_flatten_nil_iff.mp ⟨shapes, hShapes, hShape⟩, hEntrypoints,
      mapM_flatten_nil_iff.mp ⟨expressions, hExpressions, hExpression⟩⟩
  · intro h
    obtain ⟨shapes, hShapes, hShape⟩ := mapM_flatten_nil_iff.mpr h.shapes
    obtain ⟨expressions, hExpressions, hExpression⟩ := mapM_flatten_nil_iff.mpr h.expressions
    rw [collectSemanticIssues, hShapes, except_ok_bind, hExpressions, except_ok_bind, h.groups,
      h.universes, List.flatMap_eq_nil_iff.mpr h.components, h.connections, h.acyclic, hShape,
      h.entrypoints, hExpression]
    rfl

theorem validate_ok_iff {strategy : CanonicalStrategyV1} {done : PUnit.{1}} :
    validateStrategyV1 strategy = .ok done ↔ Accepted strategy := by
  rw [← collect_nil_iff, validateStrategyV1]
  rcases collectSemanticIssues strategy with e | _ | ⟨issue, rest⟩ <;> simp

end Accepted

section Lookup

variable {strategy : CanonicalStrategyV1} {id : String} {component : Component}

theorem component?_some (h : strategy.component? id = some component) :
    component ∈ strategy.graph.components ∧ component.id = id := by
  refine ⟨List.mem_of_find?_eq_some h, ?_⟩
  simpa using List.find?_some h

theorem getPrimitive_some {primitive : PrimitiveSpec} (h : getPrimitive id = some primitive) :
    primitive ∈ builtinRegistry ∧ primitive.id = id := by
  refine ⟨List.mem_of_find?_eq_some h, ?_⟩
  simpa using List.find?_some h

/-- Components of an accepted strategy are of known primitives. -/
theorem Accepted.known (h : Accepted strategy) (hMem : component ∈ strategy.graph.components) :
    ∃ primitive, getPrimitive component.primitive = some primitive := by
  have hNone := h.components component hMem
  rcases hGet : getPrimitive component.primitive with _ | primitive
  · simp [componentIssues, hGet] at hNone
  · exact ⟨primitive, rfl⟩

end Lookup

section Expressions

variable {strategy strategy' : CanonicalStrategyV1}

/-- Strategies that give the same types to what expressions refer to. -/
structure SameTypes (strategy strategy' : CanonicalStrategyV1) : Prop where
  definitions : strategy'.definitions = strategy.definitions
  outputs : ∀ id port path, outputType strategy' id port path = outputType strategy id port path

theorem SameTypes.parameterType (h : SameTypes strategy strategy') (id path : String) :
    V1.parameterType strategy' id path = V1.parameterType strategy id path := by
  simp only [V1.parameterType, h.definitions]

theorem SameTypes.stateType (h : SameTypes strategy strategy') (id path : String) :
    V1.stateType strategy' id path = V1.stateType strategy id path := by
  simp only [V1.stateType, h.definitions]

theorem SameTypes.definitionIds (h : SameTypes strategy strategy') :
    V1.definitionIds strategy' = V1.definitionIds strategy := by
  funext reference
  cases reference <;>
    simp only [V1.definitionIds, CanonicalStrategyV1.assetSetIds, h.definitions]

theorem SameTypes.indicatorType (h : SameTypes strategy strategy') (id path : String)
    (parameters : Dict String Value) :
    V1.indicatorType strategy' id parameters path = V1.indicatorType strategy id parameters path := by
  simp only [V1.indicatorType, h.definitionIds]

mutual

theorem expressionType_congr (h : SameTypes strategy strategy') : ∀ (expression : Expression)
    (path : String), expressionType strategy' path expression = expressionType strategy path expression
  | .literal _ _, _ => rfl
  | .parameterRef id, path => h.parameterType id path
  | .stateRef id, path => h.stateType id path
  | .candidate, _ => rfl
  | .groupRef id, path => by simp only [expressionType, h.definitionIds]
  | .marketSeries _ subject, path => by
      simp only [expressionType, expressionType_congr h subject]
  | .current series, path => by simp only [expressionType, expressionType_congr h series]
  | .rollingAggregate _ series _, path => by
      simp only [expressionType, expressionType_congr h series]
  | .price asset, path => by simp only [expressionType, expressionType_congr h asset]
  | .averageCost asset, path => by simp only [expressionType, expressionType_congr h asset]
  | .indicator id asset parameters, path => by
      simp only [expressionType, expressionType_congr h asset, h.indicatorType]
  | .componentOutput id port, path => by simp only [expressionType, h.outputs]
  | .arithmetic _ left right, path => by
      simp only [expressionType, expressionType_congr h left, expressionType_congr h right]
  | .comparison _ left right, path => by
      simp only [expressionType, expressionType_congr h left, expressionType_congr h right]
  | .boolean _ operands, path => by
      simp only [expressionType, requireOperands_congr h operands]
  | .negation operand, path => by simp only [expressionType, expressionType_congr h operand]

theorem requireOperands_congr (h : SameTypes strategy strategy') : ∀ (operands : List Expression)
    (path : String) (index : Nat),
    requireOperands strategy' path index operands = requireOperands strategy path index operands
  | [], _, _ => rfl
  | operand :: rest, path, index => by
      simp only [requireOperands, expressionType_congr h operand, requireOperands_congr h rest]

end

theorem requireType_congr (h : SameTypes strategy strategy') (expression : Expression)
    (expected : ValueType) (path : String) :
    requireType strategy' expression expected path = requireType strategy expression expected path := by
  simp only [requireType, expressionType_congr h]

theorem validateAction_congr (h : SameTypes strategy strategy') (path : String) (action : Action) :
    validateAction strategy' path action = validateAction strategy path action := by
  cases action with
  | emitSignal name value =>
      cases value <;> simp only [validateAction, expressionType_congr h]
  | _ => simp only [validateAction, requireType_congr h, h.stateType]

theorem expressionIssues_congr (h : SameTypes strategy strategy') (component : Component) :
    expressionIssues strategy' component = expressionIssues strategy component := by
  simp only [expressionIssues, actionIssues, requireType_congr h, expressionType_congr h,
    validateAction_congr h]

end Expressions

end RuleTrade.V1
