import RuleTrade.Strategy.AcceptedV1
import RuleTrade.Strategy.SemanticsV1

/-! The component graph of an accepted strategy: its connections are typed, rules are sinks, and
no component is its own ancestor. -/

namespace RuleTrade.V1

open Library

section Ancestors

/-- A component feeds another: a connection or the target of a rebalance leads to it. -/
def Feeds (strategy : CanonicalStrategyV1) (source target : String) : Prop :=
  source ∈ incoming strategy target

/-- Paths from one component to another. -/
abbrev IsAncestor (strategy : CanonicalStrategyV1) : String → String → Prop :=
  Relation.TransGen (Feeds strategy)

variable {strategy : CanonicalStrategyV1}

theorem incoming_subset (target : String) : ∀ source ∈ incoming strategy target,
    source ∈ graphSources strategy := by
  intro source hSource
  unfold incoming at hSource
  unfold graphSources
  rcases List.mem_append.mp hSource with hConnection | hRule
  · obtain ⟨connection, hMem, rfl⟩ := List.mem_map.mp hConnection
    exact List.mem_append_left _ (List.mem_map_of_mem (List.mem_of_mem_filter hMem))
  · obtain ⟨component, hMem, hTarget⟩ := List.mem_flatMap.mp hRule
    exact List.mem_append_right _
      (List.mem_flatMap.mpr ⟨component, List.mem_of_mem_filter hMem, hTarget⟩)

/-- The search for ancestors finds all of them and nothing else. -/
theorem mem_ancestors {source target : String} :
    source ∈ ancestors strategy target ↔ IsAncestor strategy source target := by
  obtain ⟨found, hFound⟩ : ∃ found, Worklist.discover (incoming strategy)
      ((graphSources strategy).length + 1) [target] [] = some found := by
    apply Worklist.discover_isSome incoming_subset
    have := List.length_filter_le (fun node => decide (node ∉ ([] : List String)))
      (graphSources strategy)
    simp only [List.length_singleton]
    omega
  unfold ancestors
  rw [hFound, Option.getD_some, Worklist.mem_discover hFound (by simp)]
  have hSwap : Relation.TransGen (Worklist.LeadsTo (incoming strategy)) target source ↔
      IsAncestor strategy source target := by
    rw [← Relation.transGen_swap]
    rfl
  simpa using hSwap

theorem nodup_ancestors (id : String) : (ancestors strategy id).Nodup := by
  unfold ancestors
  rcases hFound : Worklist.discover (incoming strategy) ((graphSources strategy).length + 1) [id] []
    with _ | found
  · exact List.nodup_nil
  · exact Worklist.nodup_discover List.nodup_nil hFound

end Ancestors

section Ports

variable {strategy : CanonicalStrategyV1}

/-- The parts that make an accepted connection: ports of equal types, and an input that takes
several connections where another one came before it. -/
structure Typed (strategy : CanonicalStrategyV1) (earlier : List Connection)
    (connection : Connection) : Prop where
  ports : ∃ source target output input,
    primitiveSpec strategy connection.source.componentId = some source ∧
    primitiveSpec strategy connection.target.componentId = some target ∧
    source.outputs.find? (fun port => port.name = connection.source.port) = some output ∧
    target.inputs.find? (fun port => port.name = connection.target.port) = some input ∧
    output.valueType = input.valueType ∧
    (input.multiple = false → connection.target ∉ earlier.map Connection.target)

theorem typed_of_portIssues {source target : PrimitiveSpec} {connection : Connection}
    {seen : List Connection} {path : String}
    (hSource : primitiveSpec strategy connection.source.componentId = some source)
    (hTarget : primitiveSpec strategy connection.target.componentId = some target)
    (h : portIssues source target connection seen path = []) : Typed strategy seen connection := by
  unfold portIssues at h
  simp only [List.append_eq_nil_iff] at h
  obtain ⟨⟨⟨⟨hOutput, hInput⟩, hType⟩, hMultiple⟩, -⟩ := h
  rcases hOut : source.outputs.find? (fun port => port.name = connection.source.port) with
    _ | output
  · simp [hOut] at hOutput
  · rcases hIn : target.inputs.find? (fun port => port.name = connection.target.port) with
      _ | input
    · simp [hIn] at hInput
    · refine ⟨source, target, output, input, hSource, hTarget, hOut, hIn, ?_, ?_⟩
      · rw [hOut, hIn] at hType
        by_contra hDiffer
        simp [hDiffer] at hType
      · intro hSingle hSeen
        rw [hIn] at hMultiple
        simp [hSeen, hSingle] at hMultiple

/-- Connections without issues are typed, each after those before it. -/
theorem typed_of_connectionIssues {connections : List Connection} : ∀ {index : Nat}
    {seen : List Connection}, connectionIssues strategy index seen connections = [] →
    ∀ before connection after, connections = before ++ connection :: after →
      Typed strategy (before.reverse ++ seen) connection := by
  induction connections with
  | nil =>
      intro index seen _ before connection after hSplit
      exact absurd hSplit.symm (by simp)
  | cons head rest ih =>
      intro index seen h before connection after hSplit
      simp only [connectionIssues] at h
      rcases hSource : primitiveSpec strategy head.source.componentId with _ | source
      · simp [hSource] at h
      · rcases hTarget : primitiveSpec strategy head.target.componentId with _ | target
        · simp [hSource, hTarget] at h
        · rw [hSource, hTarget] at h
          obtain ⟨hPorts, hRest⟩ := List.append_eq_nil_iff.mp h
          cases before with
          | nil =>
              cases hSplit
              exact typed_of_portIssues hSource hTarget hPorts
          | cons first before =>
              cases hSplit
              rw [List.reverse_cons, List.append_assoc]
              exact ih hRest before connection after rfl

theorem Accepted.typed (h : Accepted strategy) {connection : Connection}
    (hMem : connection ∈ strategy.graph.connections) :
    ∃ earlier, Typed strategy earlier connection := by
  obtain ⟨before, after, hSplit⟩ := List.append_of_mem hMem
  exact ⟨_, typed_of_connectionIssues h.connections before connection after hSplit⟩

/-- A component of a primitive. -/
theorem primitiveSpec_some {id : String} {primitive : PrimitiveSpec}
    (h : primitiveSpec strategy id = some primitive) :
    ∃ component, strategy.component? id = some component ∧
      component.primitive = primitive.id ∧ primitive ∈ builtinRegistry := by
  obtain ⟨component, hComponent, hGet⟩ := Option.bind_eq_some_iff.mp h
  obtain ⟨hMem, hId⟩ := getPrimitive_some hGet
  exact ⟨component, hComponent, hId.symm, hMem⟩

/-- Two connections to one input that takes one are the same connection. -/
theorem Accepted.single_input (h : Accepted strategy) {first second : Connection}
    (hFirst : first ∈ strategy.graph.connections) (hSecond : second ∈ strategy.graph.connections)
    (hTarget : first.target = second.target) {primitive : PrimitiveSpec}
    (hPrimitive : primitiveSpec strategy first.target.componentId = some primitive)
    (hInputs : ∀ input ∈ primitive.inputs, input.multiple = false) : first = second := by
  by_contra hDiffer
  obtain ⟨before, after, hSplit⟩ := List.append_of_mem hFirst
  rw [hSplit] at hSecond
  -- whichever comes later sees its port taken
  have hTaken : ∀ {early late : Connection} {before after : List Connection},
      strategy.graph.connections = before ++ late :: after → early ∈ before →
      early.target = late.target → late.target = first.target → False := by
    intro early late before after hSplit hEarly hSame hPort
    obtain ⟨source, target, output, input, -, hSpec, -, hInput, -, hMultiple⟩ :=
      (typed_of_connectionIssues h.connections before late after hSplit).ports
    rw [hPort, hPrimitive] at hSpec
    cases hSpec
    refine hMultiple (hInputs input (List.mem_of_find?_eq_some hInput)) ?_
    rw [List.append_nil, List.map_reverse, List.mem_reverse]
    exact List.mem_map.mpr ⟨early, hEarly, hSame⟩
  rcases List.mem_append.mp hSecond with hBefore | hAfter
  · exact hTaken hSplit hBefore hTarget.symm rfl
  · rcases List.mem_cons.mp hAfter with hSame | hAfter
    · exact hDiffer hSame.symm
    · obtain ⟨between, rest, hRest⟩ := List.append_of_mem hAfter
      rw [hRest, ← List.cons_append, ← List.append_assoc] at hSplit
      exact hTaken hSplit (by simp) hTarget hTarget.symm

end Ports

section Rules

variable {strategy : CanonicalStrategyV1} {component : Component}

theorem rule_of_category : ∀ primitive ∈ builtinRegistry, primitive.category = .rule →
    primitive.id = "rule@1" := by
  decide

theorem rule_ports : ∀ primitive ∈ builtinRegistry, primitive.id = "rule@1" →
    primitive.inputs = [] ∧ primitive.outputs = [] := by
  decide

/-- Only rules have actions. -/
theorem Accepted.rule_of_action (h : Accepted strategy)
    (hMem : component ∈ strategy.graph.components) (hActs : component.branchActions ≠ []) :
    component.primitive = "rule@1" := by
  obtain ⟨primitive, hGet⟩ := h.known hMem
  obtain ⟨hRegistry, hId⟩ := getPrimitive_some hGet
  have hIssues := h.components component hMem
  simp only [componentIssues, hGet, List.append_eq_nil_iff] at hIssues
  have hRule := hIssues.1.2
  have hSome : ¬ component.actions.isEmpty ∨ ¬ component.elseActions.isEmpty := by
    by_contra hNone
    rw [not_or, not_not, not_not, List.isEmpty_iff, List.isEmpty_iff] at hNone
    exact hActs (by rw [Component.branchActions, hNone.1, hNone.2]; rfl)
  unfold ruleIssues at hRule
  by_cases hCategory : primitive.category = .rule
  · rw [← hId]
    exact rule_of_category primitive hRegistry hCategory
  · simp only [hCategory, if_false, hSome, if_true, or_true] at hRule
    split at hRule <;> cases hRule

/-- Where there are no issues of expressions, none is of the condition or of an action. -/
theorem parts_of_expressionIssues (h : expressionIssues strategy component = .ok []) :
    (∀ condition, component.condition = some condition →
        ∃ path, issuesOf (requireType strategy condition .boolean path) = .ok []) ∧
      (∃ path, actionIssues strategy component.actions path = .ok []) ∧
      ∃ path, actionIssues strategy component.elseActions path = .ok [] := by
  have hTail : ∀ {condition value candidate : List SemanticIssue} {thenPath elsePath : String},
      (do
        let actions ← actionIssues strategy component.actions thenPath
        let elseActions ← actionIssues strategy component.elseActions elsePath
        pure (condition ++ value ++ candidate ++ actions ++ elseActions)) =
          (.ok [] : Except Raised (List SemanticIssue)) →
      condition = [] ∧ (∃ path, actionIssues strategy component.actions path = .ok []) ∧
        ∃ path, actionIssues strategy component.elseActions path = .ok [] := by
    intro condition value candidate thenPath elsePath hTail
    obtain ⟨actions, hActions, hTail⟩ := except_bind_ok.mp hTail
    obtain ⟨elseActions, hElse, hTail⟩ := except_bind_ok.mp hTail
    have hNil := Except.ok.inj hTail
    simp only [List.append_eq_nil_iff] at hNil
    obtain ⟨⟨⟨⟨hCondition, -⟩, -⟩, rfl⟩, rfl⟩ := hNil
    exact ⟨hCondition, ⟨_, hActions⟩, _, hElse⟩
  unfold expressionIssues at h
  dsimp only at h
  cases hCondition : component.condition
  all_goals
    rw [hCondition] at h
    obtain ⟨conditionIssues, hIssues, h⟩ := except_bind_ok.mp h
    have hParts : conditionIssues = [] ∧
        (∃ path, actionIssues strategy component.actions path = .ok []) ∧
        ∃ path, actionIssues strategy component.elseActions path = .ok [] := by
      cases hValue : component.valueExpression
      all_goals
        rw [hValue] at h
        obtain ⟨valueIssues, -, h⟩ := except_bind_ok.mp h
        exact hTail h
    obtain ⟨rfl, hActions⟩ := hParts
    refine ⟨?_, hActions⟩
    intro condition hSome
    cases hSome <;> exact ⟨_, hIssues⟩

/-- What is known of the accepted actions. -/
theorem Accepted.action_issues (h : Accepted strategy)
    (hMem : component ∈ strategy.graph.components) {action : Action}
    (hAction : action ∈ component.branchActions) :
    ∃ path, issuesOf (validateAction strategy path action) = .ok [] := by
  obtain ⟨-, ⟨thenPath, hActions⟩, elsePath, hElse⟩ :=
    parts_of_expressionIssues (h.expressions component hMem)
  have hEach : ∀ {items : List Action} {path : String},
      actionIssues strategy items path = .ok [] → action ∈ items →
      ∃ path, issuesOf (validateAction strategy path action) = .ok [] := by
    intro items path hItems hIn
    unfold actionIssues at hItems
    rcases hResults : items.zipIdx.mapM (fun (item : Action × Nat) => issuesOf
      (validateAction strategy (path ++ "[" ++ toString item.2 ++ "]") item.1)) with e | results
    · rw [hResults] at hItems
      cases hItems
    · rw [hResults] at hItems
      obtain ⟨i, hi, rfl⟩ := List.getElem_of_mem hIn
      have hZip : (items[i], i) ∈ items.zipIdx := by
        rw [List.mem_zipIdx_iff_getElem?]
        exact List.getElem?_eq_getElem hi
      exact ⟨_, mapM_flatten_nil_iff.mp ⟨results, hResults, Except.ok.inj hItems⟩ _ hZip⟩
  rcases List.mem_append.mp hAction with hThen | hOtherwise
  · exact hEach hActions hThen
  · exact hEach hElse hOtherwise

/-- A rebalance to an output names a component with targets to give. -/
theorem Accepted.rebalance_source (h : Accepted strategy)
    (hMem : component ∈ strategy.graph.components) {source : String}
    (hSource : source ∈ component.rebalanceTargets) :
    ∃ primitive output, primitiveSpec strategy source = some primitive ∧
      output ∈ primitive.outputs ∧ output.valueType = .portfolioTargets := by
  obtain ⟨action, hAction, hTarget⟩ := List.mem_filterMap.mp hSource
  obtain ⟨path, hIssues⟩ := h.action_issues hMem hAction
  unfold rebalanceTarget at hTarget
  split at hTarget
  · next id port =>
      cases hTarget
      simp only [validateAction, requireType, expressionType, outputType] at hIssues
      rcases hComponent : strategy.component? source with _ | target
      · simp [hComponent, refuse, issuesOf, Bind.bind, Except.bind] at hIssues
      · rcases hGet : getPrimitive target.primitive with _ | primitive
        · simp [hComponent, hGet, issuesOf, Bind.bind, Except.bind] at hIssues
        · rcases hOutput : primitive.outputs.find? (fun item => item.name = port) with _ | output
          · simp [hComponent, hGet, hOutput, refuse, issuesOf, Bind.bind, Except.bind] at hIssues
          · refine ⟨primitive, output, ?_, List.mem_of_find?_eq_some hOutput, ?_⟩
            · rw [primitiveSpec, hComponent]
              exact hGet
            · by_contra hType
              simp [hComponent, hGet, hOutput, expectType, hType, refuse, issuesOf, Bind.bind,
                Except.bind] at hIssues
  · cases hTarget

end Rules

section Acyclic

variable {strategy : CanonicalStrategyV1}

def IsRule (strategy : CanonicalStrategyV1) (id : String) : Prop :=
  ∃ component, strategy.component? id = some component ∧ component.primitive = "rule@1"

theorem component?_of_mem (hWell : strategy.WellFormed) {component : Component}
    (hMem : component ∈ strategy.graph.components) :
    strategy.component? component.id = some component :=
  Sequence.find?_of_nodup hWell.components hMem

/-- What feeds a component: a connection, or the rebalance of a rule. -/
theorem feeds_cases (hWell : strategy.WellFormed) (h : Accepted strategy) {source target : String}
    (hFeeds : Feeds strategy source target) :
    (∃ connection ∈ strategy.graph.connections, connection.source.componentId = source ∧
        connection.target.componentId = target) ∨
      ∃ component ∈ strategy.graph.components, component.id = target ∧ IsRule strategy target ∧
        source ∈ component.rebalanceTargets := by
  unfold Feeds incoming at hFeeds
  rcases List.mem_append.mp hFeeds with hConnection | hRule
  · obtain ⟨connection, hMem, rfl⟩ := List.mem_map.mp hConnection
    obtain ⟨hMem, hTarget⟩ := List.mem_filter.mp hMem
    exact Or.inl ⟨connection, hMem, rfl, by simpa using hTarget⟩
  · obtain ⟨component, hMem, hSource⟩ := List.mem_flatMap.mp hRule
    obtain ⟨hMem, hId⟩ := List.mem_filter.mp hMem
    have hTarget : component.id = target := by simpa using hId
    refine Or.inr ⟨component, hMem, hTarget, ⟨component, ?_, ?_⟩, hSource⟩
    · rw [← hTarget]
      exact component?_of_mem hWell hMem
    · apply h.rule_of_action hMem
      intro hNone
      rw [Component.rebalanceTargets, hNone] at hSource
      cases hSource

/-- Whatever feeds another component has an output. -/
theorem output_of_feeds (hWell : strategy.WellFormed) (h : Accepted strategy)
    {source target : String} (hFeeds : Feeds strategy source target) :
    ∃ primitive output, primitiveSpec strategy source = some primitive ∧
      output ∈ primitive.outputs := by
  rcases feeds_cases hWell h hFeeds with ⟨connection, hMem, rfl, -⟩ | ⟨component, hMem, -, -, hSource⟩
  · obtain ⟨earlier, hTyped⟩ := h.typed hMem
    obtain ⟨source, target, output, input, hSpec, -, hOutput, -⟩ := hTyped.ports
    exact ⟨source, output, hSpec, List.mem_of_find?_eq_some hOutput⟩
  · obtain ⟨primitive, output, hSpec, hOutput, -⟩ := h.rebalance_source hMem hSource
    exact ⟨primitive, output, hSpec, hOutput⟩

/-- Rules feed nothing. -/
theorem not_feeds_of_rule (hWell : strategy.WellFormed) (h : Accepted strategy)
    {source target : String} (hRule : IsRule strategy source) : ¬ Feeds strategy source target := by
  intro hFeeds
  obtain ⟨primitive, output, hSpec, hOutput⟩ := output_of_feeds hWell h hFeeds
  obtain ⟨component, hComponent, hPrimitive⟩ := hRule
  obtain ⟨found, hFound, hId, hRegistry⟩ := primitiveSpec_some hSpec
  rw [hComponent] at hFound
  cases hFound
  rw [(rule_ports primitive hRegistry (hId.symm.trans hPrimitive)).2] at hOutput
  cases hOutput

/-- Nothing but its rebalances feeds a rule. -/
theorem mem_incoming_of_rule (hWell : strategy.WellFormed) (h : Accepted strategy)
    {component : Component} (hMem : component ∈ strategy.graph.components)
    (hKind : component.primitive = "rule@1") {source : String} :
    source ∈ incoming strategy component.id ↔ source ∈ component.rebalanceTargets := by
  constructor
  · intro hSource
    rcases feeds_cases hWell h hSource with ⟨connection, hConnection, -, hTarget⟩ |
      ⟨other, hOther, hId, -, hFrom⟩
    · obtain ⟨earlier, hTyped⟩ := h.typed hConnection
      obtain ⟨-, target, -, input, -, hSpec, -, hInput, -⟩ := hTyped.ports
      obtain ⟨found, hFound, hPrimitive, hRegistry⟩ := primitiveSpec_some hSpec
      rw [hTarget, component?_of_mem hWell hMem] at hFound
      cases hFound
      have hInputs := (rule_ports target hRegistry (hPrimitive.symm.trans hKind)).1
      rw [hInputs] at hInput
      cases hInput
    · obtain rfl := List.inj_on_of_nodup_map hWell.components hOther hMem hId
      exact hFrom
  · intro hSource
    apply List.mem_append_right
    exact List.mem_flatMap.mpr ⟨component, List.mem_filter.mpr ⟨hMem, by simp⟩, hSource⟩

theorem isAncestor_iff {source target : String} : IsAncestor strategy source target ↔
    ∃ next ∈ incoming strategy target, source = next ∨ IsAncestor strategy source next := by
  unfold IsAncestor
  rw [Relation.TransGen.tail'_iff]
  constructor
  · rintro ⟨next, hPath, hFeeds⟩
    rcases Relation.reflTransGen_iff_eq_or_transGen.mp hPath with rfl | hPath
    · exact ⟨_, hFeeds, Or.inl rfl⟩
    · exact ⟨next, hFeeds, Or.inr hPath⟩
  · rintro ⟨next, hFeeds, rfl | hPath⟩
    · exact ⟨_, .refl, hFeeds⟩
    · exact ⟨next, hPath.to_reflTransGen, hFeeds⟩

theorem linked_of_mem (h : Accepted strategy) {connection : Connection}
    (hMem : connection ∈ strategy.graph.connections) : connection ∈ linked strategy := by
  obtain ⟨earlier, hTyped⟩ := h.typed hMem
  obtain ⟨source, target, -, -, hSource, hTarget, -⟩ := hTyped.ports
  exact List.mem_filter.mpr ⟨hMem, by simp [isLinked, hSource, hTarget]⟩

theorem mem_componentIds_of_spec {id : String} (h : (primitiveSpec strategy id).isSome) :
    id ∈ strategy.componentIds := by
  obtain ⟨primitive, hSpec⟩ := Option.isSome_iff_exists.mp h
  obtain ⟨component, hComponent, -⟩ := primitiveSpec_some hSpec
  obtain ⟨hMem, rfl⟩ := component?_some hComponent
  exact List.mem_map_of_mem hMem

/-- The check for cycles leaves no infinite descent along connections. -/
theorem wellFounded_dependencies (h : Accepted strategy) :
    WellFounded (DepthFirst.Successor (dependencyEdges strategy)) := by
  have hClosed : ∀ node ∈ strategy.componentIds, ∀ child ∈ dependencyEdges strategy node,
      child ∈ strategy.componentIds := by
    intro node _ child hChild
    obtain ⟨connection, hMem, rfl⟩ := List.mem_map.mp hChild
    have hLinked := (List.mem_filter.mp (List.mem_of_mem_filter hMem)).2
    exact mem_componentIds_of_spec (Bool.and_eq_true_iff.mp hLinked).2
  have hOutside : ∀ node, node ∉ strategy.componentIds → dependencyEdges strategy node = [] := by
    intro node hNode
    rw [dependencyEdges, List.map_eq_nil_iff, List.filter_eq_nil_iff]
    intro connection hMem hSource
    have hLinked := (List.mem_filter.mp hMem).2
    have hSame : connection.source.componentId = node := by simpa using hSource
    exact hNode (hSame ▸ mem_componentIds_of_spec (Bool.and_eq_true_iff.mp hLinked).1)
  have hFuel : strategy.componentIds.length < strategy.graph.components.length + 1 := by
    rw [CanonicalStrategyV1.componentIds, List.length_map]
    omega
  obtain ⟨found, hFound, -, hFounded⟩ := DepthFirst.findsCycle_spec hClosed hOutside hFuel
  apply hFounded
  have hCycle := h.acyclic
  unfold cycleIssues hasCycle at hCycle
  rw [hFound] at hCycle
  cases found with
  | true => cases hCycle
  | false => rfl

/-- A path to what is no rule goes along connections. -/
theorem dependency_path (hWell : strategy.WellFormed) (h : Accepted strategy)
    {source target : String} (hPath : IsAncestor strategy source target)
    (hTarget : ¬ IsRule strategy target) :
    Relation.TransGen (DepthFirst.Successor (dependencyEdges strategy)) target source := by
  have hStep : ∀ {a b : String}, Feeds strategy a b → ¬ IsRule strategy b →
      DepthFirst.Successor (dependencyEdges strategy) b a := by
    intro a b hFeeds hRule
    rcases feeds_cases hWell h hFeeds with ⟨connection, hMem, rfl, rfl⟩ | ⟨_, _, _, hIs, _⟩
    · exact List.mem_map.mpr ⟨connection,
        List.mem_filter.mpr ⟨linked_of_mem h hMem, by simp⟩, rfl⟩
    · exact absurd hIs hRule
  induction hPath with
  | single hFeeds => exact .single (hStep hFeeds hTarget)
  | tail _ hFeeds ih =>
      exact .head (hStep hFeeds hTarget)
        (ih fun hRule => not_feeds_of_rule hWell h hRule hFeeds)

/-- No component is its own ancestor. -/
theorem not_isAncestor_self (hWell : strategy.WellFormed) (h : Accepted strategy) (id : String) :
    ¬ IsAncestor strategy id id := by
  intro hPath
  have hRule : ¬ IsRule strategy id := by
    intro hRule
    obtain ⟨next, hFeeds, -⟩ := Relation.TransGen.head'_iff.mp hPath
    exact not_feeds_of_rule hWell h hRule hFeeds
  exact DepthFirst.not_transGen_self_of_acc ((wellFounded_dependencies h).apply id)
    (dependency_path hWell h hPath hRule)

end Acyclic

end RuleTrade.V1
