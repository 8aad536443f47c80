import RuleTrade.Library.Worklist
import RuleTrade.Strategy.ValueSemanticsV1

/-! The semantic composition of a canonical strategy: its facts, the flow drawn of them and the
scripts written of them. -/

namespace RuleTrade.V1

open Library

section Graph

variable (strategy : CanonicalStrategyV1)

/-- The component whose output an action rebalances to. -/
def rebalanceTarget : Action → Option String
  | .rebalance (.componentOutput componentId _) => some componentId
  | _ => none

def Component.branchActions (component : Component) : List Action :=
  component.actions ++ component.elseActions

def Component.rebalanceTargets (component : Component) : List String :=
  component.branchActions.filterMap rebalanceTarget

/-- `_Graph.incoming`: the sources of connections, then what rules rebalance to. -/
def incoming (id : String) : List String :=
  (strategy.graph.connections.filter (fun item => item.target.componentId = id)).map
      (fun item => item.source.componentId) ++
    (strategy.graph.components.filter (fun item => item.id = id)).flatMap
      Component.rebalanceTargets

/-- Everything that is a source of something. -/
def graphSources : List String :=
  strategy.graph.connections.map (fun item => item.source.componentId) ++
    strategy.graph.components.flatMap Component.rebalanceTargets

/-- `_Graph.ancestors`, a set. The fuel is enough to find every source once. -/
def ancestors (id : String) : List String :=
  (Worklist.discover (incoming strategy) ((graphSources strategy).length + 1) [id] []).getD []

/-- How projecting a strategy fails. -/
inductive ProjectionFailure where
  | keyError
  | conversion
  | stopIteration
  deriving DecidableEq, Repr

def componentAt (id : String) : Except ProjectionFailure Component :=
  (strategy.component? id).elim (.error .keyError) .ok

/-- `_Graph.upstream`: the ancestor of a primitive, when there is exactly one. -/
def upstream (id primitive : String) : Except ProjectionFailure (Option Component) := do
  let found ← (ancestors strategy id).mapM (componentAt strategy)
  match found.filter (fun component => component.primitive = primitive) with
  | [component] => pure (some component)
  | _ => pure none

end Graph

section Facts

inductive SemanticCategory where
  | universeSet | measure | eligibility | predicate | selection | action | allocation | constraint
  | portfolio | timing | state
  deriving DecidableEq, Repr

inductive ActionBranch where
  | thenBranch | otherwise
  deriving DecidableEq, Repr

structure SemanticProjectionRef where
  primaryComponentId : Option String := none
  relatedComponentIds : List String := []
  semanticRole : SemanticCategory
  fieldPath : Option String := none
  definitionId : Option String := none
  deriving DecidableEq, Repr

/-- A fact. The detail is that of an action of a rule. -/
structure SemanticFact where
  id : String
  category : SemanticCategory
  kind : String
  ref : SemanticProjectionRef
  detail : Option (Action × ActionBranch) := none

/-- `_ref`. -/
def componentRef (primary : Component) (category : SemanticCategory)
    (related : List Component := []) (field : Option String := none) : SemanticProjectionRef :=
  { primaryComponentId := some primary.id
    relatedComponentIds := (related.map Component.id).filter (· ≠ primary.id)
    semanticRole := category
    fieldPath := field }

def Action.kind : Action → String
  | .buy _ _ => "buy"
  | .sell _ _ => "sell"
  | .liquidate _ => "liquidate"
  | .setTarget _ _ => "set_target"
  | .rebalance _ => "rebalance"
  | .setState _ _ => "set_state"
  | .incrementState _ _ => "increment_state"
  | .emitSignal _ _ => "emit_signal"

variable (strategy : CanonicalStrategyV1)

/-- `_resolved`. -/
def resolved (component : Component) (field : String) :
    Except ProjectionFailure (Option Value) :=
  match getPrimitive component.primitive with
  | none => .error .keyError
  | some primitive => .ok ((resolveConfig primitive component.config).get? field)

/-- `int(_resolved(component, field))`. -/
def resolvedInt (component : Component) (field : String) : Except ProjectionFailure Int := do
  match (← resolved component field).bind Value.int with
  | some n => pure n
  | none => .error .conversion

/-- The text of a field that names a definition. -/
def resolvedText (component : Component) (field : String) : Except ProjectionFailure String := do
  match ← resolved component field with
  | some (.text t) => pure t
  | _ => .error .keyError

/-- What is read of a component that may be missing. -/
def readOptional {α : Type} (component : Option Component)
    (read : Component → Except ProjectionFailure α) : Except ProjectionFailure (Option α) :=
  match component with
  | none => .ok none
  | some component => (read component).map some

def isSelection (component : Component) : Bool :=
  component.primitive = "top_n@1" || component.primitive = "random_select@1"

/-- What a selection goes back to: its universe, measure, eligibility and rank. -/
structure Pipeline where
  source : Option Component
  measure : Option Component
  eligibility : Option Component
  rank : Option Component

def Pipeline.related (pipeline : Pipeline) : List Component :=
  pipeline.source.toList ++ pipeline.measure.toList ++ pipeline.eligibility.toList ++
    pipeline.rank.toList

def pipelineOf (id : String) : Except ProjectionFailure Pipeline := do
  let measure ← upstream strategy id "trailing_return@1"
  let eligibility ← upstream strategy id "filter@1"
  let rank ← upstream strategy id "rank@1"
  match ← upstream strategy id "universe@1" with
  | some named => pure ⟨some named, measure, eligibility, rank⟩
  | none => do
      let listed ← upstream strategy id "asset_set@1"
      pure ⟨listed, measure, eligibility, rank⟩

/-- What the label and the detail of a selection read of its pipeline. -/
def readPipeline (component : Component) (pipeline : Pipeline) :
    Except ProjectionFailure PUnit.{1} :=
  if component.primitive = "random_select@1" then discard (resolved component "resample")
  else do
    let _ ← readOptional pipeline.measure fun item => resolvedInt item "lookback_bars"
    let _ ← readOptional pipeline.rank fun item => resolved item "direction"
    discard (readOptional pipeline.eligibility fun item => resolved item "threshold")

def pipelineFact (component : Component) (pipeline : Pipeline) : SemanticFact where
  id := "selection:" ++ component.id
  category := .selection
  kind := if pipeline.rank.isSome then "ranked_selection" else "random_selection"
  ref := componentRef component .selection pipeline.related (some "config.count")

/-- The fact of a selection. -/
def selectionFact (component : Component) : Except ProjectionFailure SemanticFact := do
  let pipeline ← pipelineOf strategy component.id
  let _ ← resolvedInt component "count"
  readPipeline component pipeline
  pure (pipelineFact component pipeline)

/-- What the fact of a component of one primitive looks like. -/
structure FactShape where
  tag : String
  category : SemanticCategory
  kind : String
  field : Option String := none
  deriving DecidableEq, Repr

/-- The facts of primitives that have one of their own. -/
def factShape (component : Component) : Option FactShape :=
  match component.primitive with
  | "asset_set@1" => some ⟨"universe", .universeSet, "asset_set", none⟩
  | "universe@1" => some ⟨"universe", .universeSet, "semantic_universe", none⟩
  | "trailing_return@1" =>
      some ⟨"measure", .measure, "trailing_return", some "config.lookback_bars"⟩
  | "filter@1" => some ⟨"eligibility", .eligibility, "candidate_score_threshold",
      some (if component.condition.isSome then "condition" else "config.threshold")⟩
  | "daily@1" => some ⟨"timing", .timing, "daily", none⟩
  | "monthly@1" => some ⟨"timing", .timing, "monthly", none⟩
  | "quarterly@1" => some ⟨"timing", .timing, "quarterly", none⟩
  | "equal_weight@1" => some ⟨"allocation", .allocation, "equal_weight", some "config.total"⟩
  | "cooldown@1" => some ⟨"constraint", .constraint, "cooldown", some "config.duration"⟩
  | "fallback@1" => some ⟨"selection-fallback", .selection, "selection_fallback", none⟩
  | "portfolio@1" => some ⟨"portfolio", .portfolio, "portfolio", none⟩
  | "portfolio_sleeve@1" => some ⟨"portfolio", .portfolio, "sleeve", none⟩
  | "merge_targets@1" => some ⟨"portfolio", .portfolio, "merge", none⟩
  | "rebalance@1" => some ⟨"action", .action, "rebalance", none⟩
  | _ => none

def shapedFact (component : Component) (shape : FactShape) : SemanticFact where
  id := shape.tag ++ ":" ++ component.id
  category := shape.category
  kind := shape.kind
  ref := componentRef component shape.category [] shape.field

/-- The assets of the asset set of an id. -/
def assetsOf (id : String) : Except ProjectionFailure (List String) :=
  match strategy.definitions.assetSets.find? (fun item => item.id = id) with
  | some definition => .ok definition.assets
  | none => .error .keyError

/-- The asset set behind a universe. -/
def universeAssetSet (item : UniverseDefinition) : Option String :=
  match item.source with
  | .assetSet => item.assetSetRef
  | .group => (strategy.definitions.groups.find? fun group => some group.id = item.groupRef).map
      GroupDefinition.assetSetRef
  | .provider => none

def universeAssets (component : Component) : Except ProjectionFailure (List String) := do
  let id ← resolvedText component "universe_ref"
  match strategy.definitions.universes.find? (fun item => item.id = id) with
  | none => .error .keyError
  | some item => (universeAssetSet strategy item).elim (.ok []) (assetsOf strategy)

/-- The lookback that the label of a predicate reads. -/
def predicateLookback : Expression → Except ProjectionFailure PUnit.{1}
  | .comparison _ (.indicator _ (.literal _ _) parameters) (.literal _ _) =>
      match (parameters.getD "lookback_bars" (.integer 0)).int with
      | some _ => .ok ⟨⟩
      | none => .error .conversion
  | _ => .ok ⟨⟩

/-- What the label and the detail of the fact of a component read. -/
def readDetail (component : Component) : Except ProjectionFailure PUnit.{1} :=
  match component.primitive with
  | "asset_set@1" => do
      let id ← resolvedText component "asset_set_ref"
      discard (assetsOf strategy id)
  | "universe@1" => discard (universeAssets strategy component)
  | "trailing_return@1" => discard (resolvedInt component "lookback_bars")
  | "filter@1" => do
      let measure ← upstream strategy component.id "trailing_return@1"
      discard (readOptional measure fun item => resolvedInt item "lookback_bars")
  | "cooldown@1" => discard (resolvedInt component "duration")
  | "fallback@1" => do
      let id ← resolvedText component "fallback_asset_set_ref"
      discard (assetsOf strategy id)
  | "rule@1" =>
      match component.condition with
      | some condition => predicateLookback condition
      | none => .ok ⟨⟩
  | _ => .ok ⟨⟩

def predicateFact (component : Component) : SemanticFact where
  id := "predicate:" ++ component.id
  category := .predicate
  kind := "control_predicate"
  ref := componentRef component .predicate [] (some "condition")

def actionFactId (component : Component) (branch : ActionBranch) (index : Nat) : String :=
  match branch with
  | .thenBranch => "action:" ++ component.id ++ ":" ++ toString index
  | .otherwise => "action:" ++ component.id ++ ":otherwise:" ++ toString index

def actionField (branch : ActionBranch) (index : Nat) : String :=
  (match branch with
    | .thenBranch => "actions"
    | .otherwise => "else_actions") ++ "[" ++ toString index ++ "]"

def actionFact (component : Component) (branch : ActionBranch) (item : Action × Nat) :
    SemanticFact where
  id := actionFactId component branch item.2
  category := .action
  kind := item.1.kind
  ref := componentRef component .action [] (some (actionField branch item.2))
  detail := some (item.1, branch)

def ruleFacts (component : Component) : List SemanticFact :=
  (if component.condition.isSome then [predicateFact component] else []) ++
    component.actions.zipIdx.map (actionFact component .thenBranch) ++
    component.elseActions.zipIdx.map (actionFact component .otherwise)

def ownFacts (component : Component) : List SemanticFact :=
  if component.primitive = "rule@1" then ruleFacts component
  else (factShape component).toList.map (shapedFact component)

def stateFact (definition : StateDefinition) : SemanticFact where
  id := "state:" ++ definition.id
  category := .state
  kind := "state_definition"
  ref := { semanticRole := .state, definitionId := some definition.id }

/-- `_component_facts`: the selections, then the facts of each component, then the states. -/
def componentFacts : Except ProjectionFailure (List SemanticFact) := do
  let selections ← (strategy.graph.components.filter isSelection).mapM (selectionFact strategy)
  let others ← strategy.graph.components.mapM fun component => do
    readDetail strategy component
    pure (ownFacts component)
  pure (selections ++ others.flatten ++ strategy.definitions.state.map stateFact)

/-- The kinds of the facts of selections. -/
def SemanticFact.isChoice (fact : SemanticFact) : Bool :=
  fact.kind = "ranked_selection" || fact.kind = "random_selection"

end Facts

section Placements

inductive InformationPlacement where
  | primaryVisible | compressedRecoverable | inspectorDetail | notMeaningful | unsupported
  deriving DecidableEq, Repr

structure FactPlacement where
  factId : String
  placement : InformationPlacement
  unitId : Option String := none
  deriving DecidableEq, Repr

end Placements

section Flow

inductive FlowFamily where
  /-- The last is `timing_annotation`. -/
  | entity | distribution | routing | action | timing
  deriving DecidableEq, Repr

structure FlowSemanticUnit where
  id : String
  family : FlowFamily
  kind : String
  ref : SemanticProjectionRef
  factIds : List String
  deriving DecidableEq, Repr

structure FlowSemanticEdge where
  sourceUnitId : String
  targetUnitId : String
  kind : String
  deriving DecidableEq, Repr

structure FlowSemanticProjection where
  units : List FlowSemanticUnit
  edges : List FlowSemanticEdge
  placements : List FactPlacement

/-- `family_for`. -/
def familyFor : SemanticCategory → Option FlowFamily
  | .universeSet | .portfolio => some .entity
  | .allocation => some .distribution
  | .selection => some .routing
  | .action => some .action
  | .timing => some .timing
  | _ => none

/-- The unit of a fact, when it has one. -/
def flowUnit (fact : SemanticFact) : Option FlowSemanticUnit :=
  if fact.isChoice then
    some ⟨"flow:" ++ fact.id, .routing, "selection_routing", fact.ref, [fact.id]⟩
  else (familyFor fact.category).map fun family =>
    ⟨"flow:" ++ fact.id, family, fact.kind, fact.ref, [fact.id]⟩

def flowPlacement (fact : SemanticFact) : FactPlacement :=
  match flowUnit fact with
  | some unit => ⟨fact.id, .primaryVisible, some unit.id⟩
  | none =>
      { factId := fact.id
        placement := match fact.category with
          | .measure | .eligibility | .predicate => .compressedRecoverable
          | .state => .notMeaningful
          | _ => .inspectorDetail }

/-- `unit_by_component` after a unit. A later unit of a component replaces the earlier one. -/
def recordUnit (units : Dict String String) (unit : FlowSemanticUnit) : Dict String String :=
  match unit.ref.primaryComponentId with
  | some component => units.set component unit.id
  | none => if unit.kind = "selection_routing" then units.set "" unit.id else units

def unitByComponent (units : List FlowSemanticUnit) : Dict String String :=
  units.foldl recordUnit Dict.empty

/-- `component_by_unit`. -/
def componentByUnit (units : List FlowSemanticUnit) : Dict String String :=
  Dict.ofList ((unitByComponent units).entries.map Prod.swap)

variable (strategy : CanonicalStrategyV1)

/-- The sources that are drawn to a unit, a set: of those upstream, the ones behind no other. -/
def nearestSources (entries : List (String × String)) (target : String × String) :
    List (String × String) :=
  let candidates := entries.filter fun source =>
    source.1 ≠ target.1 && source.2 ∈ ancestors strategy target.2
  candidates.filter fun source => ! candidates.any fun other =>
    other.1 ≠ source.1 && source.2 ∈ ancestors strategy other.2

def flowEdges (units : List FlowSemanticUnit) : List FlowSemanticEdge :=
  let entries := (componentByUnit units).entries
  (Dict.ofList (entries.flatMap fun target =>
    (nearestSources strategy entries target).map fun source =>
      (FlowSemanticEdge.mk source.1 target.1 "capital", true))).keys

/-- `_flow_projection`. -/
def flowProjection (facts : List SemanticFact) : FlowSemanticProjection where
  units := facts.filterMap flowUnit
  edges := flowEdges strategy (facts.filterMap flowUnit)
  placements := facts.map flowPlacement

end Flow

section Logic

structure LogicTrigger where
  timingFactId : String
  ref : SemanticProjectionRef

inductive LogicFamily where
  | control | selection | action | portfolioOperation
  deriving DecidableEq, Repr

structure LogicStatement where
  id : String
  family : LogicFamily
  kind : String
  ref : SemanticProjectionRef
  factIds : List String
  modifierFactIds : List String := []
  thenStatementIds : List String := []
  elseStatementIds : List String := []
  deriving DecidableEq, Repr

structure LogicScript where
  id : String
  contextId : String
  trigger : LogicTrigger
  statements : List LogicStatement

structure LogicContext where
  id : String
  kind : String
  ref : SemanticProjectionRef
  factIds : List String
  scriptIds : List String

structure LogicSemanticProjection where
  contexts : List LogicContext
  scripts : List LogicScript
  placements : List FactPlacement

variable (strategy : CanonicalStrategyV1)

/-- A component and its ancestors. -/
def scopeOf (id : String) : List String := id :: ancestors strategy id

def SemanticFact.isIn (scope : List String) (fact : SemanticFact) : Bool :=
  fact.ref.primaryComponentId.any (· ∈ scope)

/-- The facts of a selection's pipeline. -/
def relatedFactIds (facts : List SemanticFact) (selection : SemanticFact) : List String :=
  let components := selection.ref.primaryComponentId.toList ++ selection.ref.relatedComponentIds
  (facts.filter fun fact => fact.isIn components && (fact.category = .universeSet ||
    fact.category = .measure || fact.category = .eligibility)).map SemanticFact.id

def SemanticFact.isModifier (fact : SemanticFact) : Bool :=
  fact.category = .constraint || fact.kind = "selection_fallback"

/-- The statement of a selection. Its modifiers are those of everything in scope. -/
def selectionStatement (facts : List SemanticFact) (selection : SemanticFact) : LogicStatement where
  id := "statement:" ++ selection.id
  family := .selection
  kind := selection.kind
  ref := selection.ref
  factIds := selection.id :: relatedFactIds facts selection
  modifierFactIds := (facts.filter SemanticFact.isModifier).map SemanticFact.id

def SemanticFact.branch (fact : SemanticFact) : ActionBranch :=
  (fact.detail.map Prod.snd).getD .thenBranch

/-- What the target of an action reads, the target included. -/
def targetScope (action : SemanticFact) : List String :=
  match action.detail.bind fun detail => rebalanceTarget detail.1 with
  | some id => scopeOf strategy id
  | none => []

def allocationStatement (name : String) (allocations : List SemanticFact) :
    Option LogicStatement :=
  allocations.head?.map fun first =>
    { id := "statement:allocation:" ++ name
      family := .portfolioOperation
      kind := "compound_allocation"
      ref := first.ref
      factIds := allocations.map SemanticFact.id }

def actionStatement (action : SemanticFact) : LogicStatement where
  id := "statement:" ++ action.id
  family := .action
  kind := action.kind
  ref := action.ref
  factIds := [action.id]

/-- The allocation of an action's target, when there is one. -/
def branchAllocation (allocations : List SemanticFact) (action : SemanticFact) :
    Option LogicStatement :=
  allocationStatement action.id (allocations.filter (·.isIn (targetScope strategy action)))

/-- The statements that a branch gets from an action. -/
def branchStatementIds (selections allocations : List SemanticFact) (action : SemanticFact) :
    List String :=
  (selections.filter (·.isIn (targetScope strategy action))).map (fun fact =>
      "statement:" ++ fact.id) ++
    (branchAllocation strategy allocations action).toList.map LogicStatement.id ++
    [(actionStatement action).id]

def predicateStatement (thenIds elseIds : List String) (predicate : SemanticFact) :
    LogicStatement where
  id := "statement:" ++ predicate.id
  family := .control
  kind := if elseIds.isEmpty then "if" else "if_otherwise"
  ref := predicate.ref
  factIds := [predicate.id]
  thenStatementIds := thenIds
  elseStatementIds := elseIds

/-- The statements of a script over the facts in its scope. -/
def scriptStatements (target : String) (facts : List SemanticFact) : List LogicStatement :=
  let selections := facts.filter SemanticFact.isChoice
  let predicates := facts.filter (·.category = .predicate)
  let actions := facts.filter (·.category = .action)
  let allocations := facts.filter (·.category = .allocation)
  let branch (wanted : ActionBranch) : List String :=
    (actions.filter (·.branch = wanted)).flatMap (branchStatementIds strategy selections allocations)
  selections.map (selectionStatement facts) ++
    if predicates.isEmpty then
      (allocationStatement target allocations).toList ++ actions.map actionStatement
    else
      actions.flatMap (fun action =>
          (branchAllocation strategy allocations action).toList ++ [actionStatement action]) ++
        predicates.map (predicateStatement (branch .thenBranch) (branch .otherwise))

def isSleeve (component : Component) : Bool := component.primitive = "portfolio_sleeve@1"

def sleevesOf : List Component := strategy.graph.components.filter isSleeve

def portfolioOf : Option Component :=
  strategy.graph.components.find? (fun item => item.primitive = "portfolio@1")

/-- The component that a script belongs to. -/
def contextComponent (target : Component) : Component :=
  let scope := scopeOf strategy target.id
  let sleeve :=
    if isSleeve target then some target
    else (sleevesOf strategy).find? (fun item => item.id ∈ scope)
  match portfolioOf strategy with
  | some portfolio => if target.primitive = "rebalance@1" then portfolio else sleeve.getD portfolio
  | none => sleeve.getD target

def contextId (component : Component) : String := "context:" ++ component.id

/-- The script of an entrypoint, with the component it belongs to. -/
def scriptOf (facts : List SemanticFact) (item : Entrypoint × Nat) :
    Except ProjectionFailure (Component × LogicScript) := do
  let event ← componentAt strategy item.1.eventComponentId
  let target ← componentAt strategy item.1.targetComponentId
  let owner := contextComponent strategy target
  let inScope := facts.filter (·.isIn (scopeOf strategy target.id))
  let trigger ← match facts.find? (fun fact =>
      fact.ref.primaryComponentId = some event.id && fact.category = .timing) with
    | some fact => .ok (LogicTrigger.mk fact.id fact.ref)
    | none => .error .stopIteration
  pure (owner, {
    id := "script:" ++ item.1.eventComponentId ++ ":" ++ item.1.targetComponentId ++ ":" ++
      toString item.2
    contextId := contextId owner
    trigger
    statements := scriptStatements strategy target.id inScope })

/-- The contexts with their components: those of the scripts, then the sleeves and the
portfolio. -/
def contextComponents (scripts : List (Component × LogicScript)) : List (String × Component) :=
  (Dict.ofList ((scripts.map Prod.fst ++ sleevesOf strategy ++ (portfolioOf strategy).toList).map
    fun component => (contextId component, component))).entries

def logicContext (facts : List SemanticFact) (scripts : List LogicScript)
    (item : String × Component) : LogicContext where
  id := item.1
  kind :=
    if isSleeve item.2 then "sleeve"
    else if item.2.primitive = "portfolio@1" then "portfolio"
    else "investment"
  ref := componentRef item.2
    (if item.2.primitive = "portfolio@1" ∨ isSleeve item.2 then .portfolio else .action)
  factIds := (facts.filter fun fact => fact.ref.primaryComponentId = some item.2.id ||
    (fact.category = .universeSet && fact.isIn (ancestors strategy item.2.id))).map SemanticFact.id
  scriptIds := (scripts.filter (fun script => script.contextId = item.1)).map LogicScript.id

def LogicStatement.allFactIds (statement : LogicStatement) : List String :=
  statement.factIds ++ statement.modifierFactIds

/-- The facts that the scripts use. -/
def usedFactIds (scripts : List LogicScript) : List String :=
  scripts.flatMap (fun script => script.statements.flatMap LogicStatement.allFactIds) ++
    scripts.map (fun script => script.trigger.timingFactId)

def logicPlacement (used : List String) (fact : SemanticFact) : FactPlacement where
  factId := fact.id
  placement :=
    if fact.id ∈ used then
      match fact.category with
      | .selection | .predicate | .action | .timing => .primaryVisible
      | _ => .inspectorDetail
    else
      match fact.category with
      | .portfolio | .allocation | .constraint => .compressedRecoverable
      | .universeSet => .primaryVisible
      | _ => .notMeaningful

/-- `_logic_projection`. -/
def logicProjection (facts : List SemanticFact) :
    Except ProjectionFailure LogicSemanticProjection := do
  let owned ← strategy.entrypoints.zipIdx.mapM (scriptOf strategy facts)
  let scripts := owned.map Prod.snd
  pure {
    contexts := (contextComponents strategy owned).map (logicContext strategy facts scripts)
    scripts
    placements := facts.map (logicPlacement (usedFactIds scripts)) }

end Logic

structure SemanticCompositionProjection where
  facts : List SemanticFact
  flow : FlowSemanticProjection
  logic : LogicSemanticProjection

/-- `project_semantic_composition`. -/
def projectSemanticComposition (strategy : CanonicalStrategyV1) :
    Except ProjectionFailure SemanticCompositionProjection := do
  let facts ← componentFacts strategy
  let logic ← logicProjection strategy facts
  pure { facts, flow := flowProjection strategy facts, logic }

end RuleTrade.V1
