import Mathlib.Data.PNat.Notation
import RuleTrade.Authoring.CompositionV1
import RuleTrade.Library.Worklist

/-! Structural authoring operations of canonical strategies. -/

namespace RuleTrade.V1

open Library

section Operations

inductive Cadence where
  | daily | monthly | quarterly
  deriving DecidableEq, Repr

def Cadence.text : Cadence → String
  | .daily => "daily"
  | .monthly => "monthly"
  | .quarterly => "quarterly"

inductive Resample where
  | once | perEvent
  deriving DecidableEq, Repr

def Resample.text : Resample → String
  | .once => "once"
  | .perEvent => "per_event"

/-- The operators of a threshold. -/
inductive ThresholdOperator where
  | gt | gte | lt | lte
  deriving DecidableEq, Repr

def ThresholdOperator.comparison : ThresholdOperator → ComparisonOperator
  | .gt => .gt
  | .gte => .gte
  | .lt => .lt
  | .lte => .lte

structure SleeveAllocationInput where
  componentId : String
  allocation : Numeral
  deriving DecidableEq, Repr

/-- What a predicate compares: the trailing return of an asset and a threshold. -/
structure PredicateInput where
  asset : String
  lookbackBars : ℕ+
  operator : ThresholdOperator
  threshold : Numeral

/-- `CommitPredicateBranchesOperation`. -/
structure PredicateBranches where
  componentId : String
  thenTargetComponentId : String
  otherwiseTargetComponentId : Option String
  condition : Option Expression
  asset : Option String
  lookbackBars : ℕ+
  operator : ThresholdOperator
  threshold : Numeral

inductive StructuralOperation where
  | compose (mutations : List Mutation)
  | addQualificationCondition (rankComponentId : String) (threshold : Numeral)
  | removeQualificationCondition (conditionComponentId : String)
  | transformToChooseAssets (weightComponentId : String) (lookbackObservations count : ℕ+)
  | addFallbackSelection (weightComponentId fallbackAsset : String)
  | removeFallbackSelection (fallbackComponentId : String)
  | addCooldown (selectionComponentId : String) (duration : ℕ+)
  | removeCooldown (cooldownComponentId : String)
  | transformToGrowthDefensive (targetComponentId : String) (growthAllocation : Numeral)
      (defensiveAssets : List String)
  | updateAssetSet (assetSetId : String) (assets : List String)
  | updateLookback (componentId : String) (lookbackBars : ℕ+)
  | updateQualificationThreshold (componentId : String) (threshold : Numeral)
  | updateSelectionCount (componentId : String) (count : ℕ+)
  | updateSelectionResample (componentId : String) (resample : Resample)
  | updateSleeveAllocations (allocations : List SleeveAllocationInput)
  | updateSchedule (componentId : String) (cadence : Cadence) (day : Option Nat)
  | updateCooldownDuration (componentId : String) (duration : ℕ+)
  | updateFallbackAssetSet (componentId assetSetId : String)
  | updateUniverseReference (componentId universeId : String)
  | addPredicate (rebalanceComponentId : String) (input : PredicateInput)
  | updatePredicate (componentId : String) (input : PredicateInput)
  | removePredicate (componentId : String)
  | commitPredicateBranches (branches : PredicateBranches)

end Operations

section Lookup

variable (strategy : CanonicalStrategyV1)

/-- `_component` of the authoring module. -/
def requireComponent (id : String) : Except Failure Component :=
  match strategy.component? id with
  | some component => .ok component
  | none => .error (.structural "component_not_found" (componentPath id)
      "The referenced strategy object was not found.")

/-- `_replace_component`. -/
def replaceComponent (component : Component) : CanonicalStrategyV1 :=
  strategy.withComponents (replaceIn strategy.graph.components component.id component)

/-- `_require_primitive`. -/
def requirePrimitive (id : String) (primitives : List String) (operation : String) :
    Except Failure Component := do
  let component ← requireComponent strategy id
  failIf (component.primitive ∉ primitives)
    (.structural "unsupported_target" (componentPath component.id)
      (operation ++ " is not available for this strategy object."))
  return component

/-- `_update_config`. -/
def updateConfig (component : Component) (field : String) (value : Value) :
    CanonicalStrategyV1 :=
  replaceComponent strategy { component with config := component.config.set field value }

def connectionsTo (id port : String) : List Connection :=
  strategy.graph.connections.filter fun item => item.target = ⟨id, port⟩

def connectionsFrom (id port : String) : List Connection :=
  strategy.graph.connections.filter fun item => item.source = ⟨id, port⟩

/-- Connections that begin or end at a component. -/
def connectionsAt (id : String) : List Connection :=
  strategy.graph.connections.filter fun item =>
    item.source.componentId = id ∨ item.target.componentId = id

/-- Connections with one of them replaced. -/
def rewire (old : Connection) (replacement : List Connection) : List Connection :=
  strategy.graph.connections.flatMap fun item => if item = old then replacement else [item]

/-- Connections with two joined into one, in the place of the first. -/
def bypass (before after direct : Connection) : List Connection :=
  strategy.graph.connections.flatMap fun item =>
    if item = before then [direct] else if item = after then [] else [item]

def withoutComponent (id : String) : List Component :=
  strategy.graph.components.filter fun item => item.id ≠ id

/-- `_generated_ids`. -/
def checkGeneratedIds : List String → Except Failure PUnit.{1}
  | [] => .ok ⟨⟩
  | id :: rest => do
      failIf (100 < id.length)
        (.structural "generated_id_too_long" "graph"
          "A generated strategy identity is too long.")
      failIf (id ∈ strategy.componentIds ∨ id ∈ strategy.assetSetIds)
        (.structural "component_id_conflict" (componentPath id)
          "A generated strategy identity is already in use.")
      checkGeneratedIds rest

end Lookup

section Bounds

variable (strategy : CanonicalStrategyV1)

/-- `_incoming_component_ids`. -/
def incomingComponentIds (id : String) : List String :=
  (strategy.graph.connections.filter fun item => item.target.componentId = id).map fun item =>
    item.source.componentId

/-- What the search adds to its stack for a component. It stops at asset sets. -/
def upstreamOf (id : String) : List String :=
  match strategy.component? id with
  | none => []
  | some component =>
      if component.primitive = "asset_set@1" then [] else (incomingComponentIds strategy id).reverse

/-- Size of the asset set that a component names. -/
def assetSetSize (id : String) : Option Nat :=
  match strategy.component? id with
  | none => none
  | some component =>
      if component.primitive = "asset_set@1" then
        (referencedAssets strategy component "asset_set_ref").map fun item => item.assets.length
      else none

/-- The only element of a set. -/
def onlyElement (xs : List Nat) : Option Nat :=
  match xs.dedup with
  | [x] => some x
  | _ => none

/-- Components that the search of `_upstream_asset_set_size` sees. Every connection puts a
component on its stack twice at most. -/
def upstreamIds (id : String) : List String :=
  (Worklist.explore (upstreamOf strategy) (2 * strategy.graph.connections.length)
    (incomingComponentIds strategy id).reverse []).getD []

/-- `_upstream_asset_set_size`. -/
def upstreamAssetSetSize (id : String) : Option Nat :=
  onlyElement ((upstreamIds strategy id).filterMap (assetSetSize strategy))

def countFailure (id : String) : Failure :=
  .structural "selection_count_exceeds_assets" (componentPath id ++ ".config.count")
    "Choose cannot be greater than the number of available assets."

def isCounted (component : Component) : Bool :=
  component.primitive = "top_n@1" || component.primitive = "random_select@1"

/-- `int(component.config["count"])`, which an accepted strategy holds as an integer. -/
def countOf (component : Component) : Except Failure Int :=
  match component.config.get? "count" with
  | some (.integer n) => .ok n
  | some _ => .error (.raised .valueError)
  | none => .error (.raised .keyError)

def checkCount (component : Component) : Except Failure PUnit.{1} :=
  if ¬ isCounted component then .ok ⟨⟩
  else match upstreamAssetSetSize strategy component.id with
    | none => .ok ⟨⟩
    | some most => do
        let count ← countOf component
        failIf (count > most) (countFailure component.id)

/-- `_validate_authoring_invariants`. -/
def validateAuthoringInvariants : Except Failure PUnit.{1} :=
  strategy.graph.components.forM (checkCount strategy)

end Bounds

section Updates

variable (strategy : CanonicalStrategyV1)

def updateSelectionCount (id : String) (count : ℕ+) : Except Failure CanonicalStrategyV1 := do
  let component ← requirePrimitive strategy id ["top_n@1", "random_select@1"]
    "Selection count editing"
  match upstreamAssetSetSize strategy component.id with
  | none => return updateConfig strategy component "count" (.integer count)
  | some most =>
      failIf ((count : Nat) > most) (countFailure component.id)
      return updateConfig strategy component "count" (.integer count)

def updateField (id : String) (primitives : List String) (operation field : String)
    (value : Value) : Except Failure CanonicalStrategyV1 := do
  let component ← requirePrimitive strategy id primitives operation
  return updateConfig strategy component field value

/-- `_update_asset_set`. -/
def updateAssetSet (id : String) (assets : List String) :
    Except Failure CanonicalStrategyV1 := do
  let path := "definitions.asset_sets[" ++ id ++ "]"
  let referenced := strategy.graph.components.any fun item =>
    item.primitive = "asset_set@1" &&
      match item.config.get? "asset_set_ref" with
      | some (.text reference) => reference = id
      | _ => false
  match strategy.definitions.assetSets.find? (fun item => item.id = id), referenced with
  | some definition, true =>
      let normalized := assets.map String.toUpper
      failIf (¬ normalized.Nodup)
        (.structural "invalid_input" (path ++ ".assets") "Ticker symbols must be unique.")
      return strategy.withAssetSets (strategy.definitions.assetSets.map fun item =>
        if item.id = definition.id then { definition with assets := normalized } else item)
  | _, _ =>
      .error (.structural "unsupported_target" path "That asset universe is not editable here.")

/-- Portfolio groups: what feeds the sleeves of a portfolio. -/
def portfolioSleeves : List Connection → Except Failure (List String)
  | [] => .ok []
  | connection :: rest =>
      if connection.target.port = "sleeves" then do
        let target ← requireComponent strategy connection.target.componentId
        let others ← portfolioSleeves rest
        return if target.primitive = "portfolio@1" then connection.source.componentId :: others
          else others
      else portfolioSleeves rest

/-- `_update_allocations`. -/
def updateAllocations (allocations : List SleeveAllocationInput) :
    Except Failure CanonicalStrategyV1 := do
  let ids := allocations.map SleeveAllocationInput.componentId
  failIf (ids.dedup.length ≠ 2)
    (.structural "invalid_input" "portfolio.allocations"
      "Exactly two portfolio groups are required.")
  let sleeves ← portfolioSleeves strategy strategy.graph.connections
  failIf (¬ (ids.all (· ∈ sleeves) ∧ sleeves.all (· ∈ ids)) ∨ sleeves.dedup.length ≠ 2)
    (.structural "unsupported_target" "portfolio.allocations"
      "Those portfolio groups cannot be allocated together.")
  match (Numeral.sum (allocations.map SleeveAllocationInput.allocation)).bind
      (Numeral.differsFrom 1) with
  | .error signal => .error (.raised (.arithmetic signal))
  | .ok true =>
      .error (.structural "invalid_input" "portfolio.allocations"
        "Portfolio allocations must total 100%.")
  | .ok false =>
      return strategy.withComponents (strategy.graph.components.map fun item =>
        match allocations.findRev? (fun input => input.componentId = item.id) with
        | some input =>
            { item with config := item.config.set "allocation" (.decimal input.allocation) }
        | none => item)

/-- `_update_schedule`. -/
def updateSchedule (id : String) (cadence : Cadence) (day : Option Nat) :
    Except Failure CanonicalStrategyV1 := do
  let component ← requireComponent strategy id
  match getPrimitive component.primitive with
  | none =>
      .error (.structural "unsupported_target" (componentPath component.id)
        "That schedule is unavailable.")
  | some current =>
      failIf (current.category ≠ .event)
        (.structural "unsupported_target" (componentPath component.id)
          "That object is not a schedule.")
      let config : Dict String Value :=
        if cadence = .daily then Dict.empty
        else Dict.empty.set "day" (.integer (day.getD 1))
      return replaceComponent strategy
        { component with primitive := cadence.text ++ "@1", config }

def updateFallbackAssetSet (id assetSetId : String) : Except Failure CanonicalStrategyV1 := do
  let component ← requirePrimitive strategy id ["fallback@1"] "Fallback editing"
  match strategy.definitions.assetSets.find? fun item =>
      item.id = assetSetId && item.assets.length = 1 with
  | none =>
      .error (.structural "invalid_input" ("definitions.asset_sets[" ++ assetSetId ++ "]")
        "Fallback must reference an existing single-asset set.")
  | some definition =>
      return updateConfig strategy component "fallback_asset_set_ref" (.text definition.id)

def updateUniverseReference (id universeId : String) : Except Failure CanonicalStrategyV1 := do
  let component ← requirePrimitive strategy id ["universe@1"] "Universe editing"
  failIf (universeId ∉ definitionIds strategy .universeSet)
    (.structural "invalid_input" ("definitions.universes[" ++ universeId ++ "]")
      "Universe must reference an existing Canonical definition.")
  return updateConfig strategy component "universe_ref" (.text universeId)

end Updates

section Predicates

variable (strategy : CanonicalStrategyV1)

/-- `_predicate_condition`. The literals are normalized as their models read them. -/
def predicateCondition (input : PredicateInput) : Expression :=
  .comparison input.operator.comparison
    (.indicator "trailing_return_indicator@1" (.literal .asset (.text (symbolText input.asset)))
      (Dict.empty.set "lookback_bars" (.integer (input.lookbackBars : Nat))))
    (.literal .percentage (.decimal input.threshold))

def rebalanceAction (source : PortReference) : Action :=
  .rebalance (.componentOutput source.componentId source.port)

/-- `_add_predicate`. -/
def addPredicate (id : String) (input : PredicateInput) : Except Failure CanonicalStrategyV1 := do
  let rebalance ← requirePrimitive strategy id ["rebalance@1"] "Predicate creation"
  match connectionsTo strategy rebalance.id "targets" with
  | [inbound] =>
      let rule : Component := { rebalance with
        primitive := "rule@1"
        condition := some (predicateCondition input)
        actions := [rebalanceAction inbound.source] }
      return (replaceComponent strategy rule).withConnections
        (strategy.graph.connections.filter (· ≠ inbound))
  | _ =>
      .error (.structural "unsupported_target" (componentPath rebalance.id)
        "Predicate v1 requires one rebalance target.")

/-- `_is_predicate_v1_rule`; the port that its one action rebalances to. -/
def predicateTarget (component : Component) : Option PortReference :=
  match component.condition, component.actions, component.elseActions with
  | some _, [.rebalance (.componentOutput componentId port)], [] =>
      if component.primitive = "rule@1" then some ⟨componentId, port⟩ else none
  | _, _, _ => none

/-- `_require_predicate_v1_rule`. -/
def requirePredicate (id operation : String) : Except Failure (Component × PortReference) := do
  let component ← requireComponent strategy id
  match predicateTarget component with
  | some target => return (component, target)
  | none =>
      .error (.structural "unsupported_target" (componentPath component.id)
        (operation ++ " is only available for an executable Predicate v1 rule."))

def updatePredicate (id : String) (input : PredicateInput) :
    Except Failure CanonicalStrategyV1 := do
  let (rule, _) ← requirePredicate strategy id "Predicate editing"
  return replaceComponent strategy { rule with condition := some (predicateCondition input) }

/-- `_remove_predicate`. -/
def removePredicate (id : String) : Except Failure CanonicalStrategyV1 := do
  let (rule, source) ← requirePredicate strategy id "Predicate removal"
  let rebalance : Component := { id := rule.id, primitive := "rebalance@1" }
  return (replaceComponent strategy rebalance).withConnections
    (strategy.graph.connections ++ [⟨source, ⟨rebalance.id, "targets"⟩⟩])

/-- The action of a branch of `_commit_predicate_branches`. -/
def branchAction (controlId id field : String) : Except Failure Action := do
  let target ← requireComponent strategy id
  let primitive ← knownPrimitive target.primitive
  failIf ("targets" ∉ primitive.outputs.map PortSpec.name)
    (.structural "incompatible_statement" (componentPath controlId ++ "." ++ field)
      (id ++ " does not produce portfolio targets."))
  return rebalanceAction ⟨id, "targets"⟩

/-- `_commit_predicate_branches`. -/
def commitPredicateBranches (branches : PredicateBranches) :
    Except Failure CanonicalStrategyV1 := do
  let control ← requireComponent strategy branches.componentId
  failIf (control.primitive ≠ "rebalance@1" ∧ control.primitive ≠ "rule@1")
    (.structural "unsupported_target" (componentPath control.id)
      "Control composition requires an existing rebalance or Predicate control.")
  let thenAction ← branchAction strategy control.id branches.thenTargetComponentId "actions"
  let elseActions ← match branches.otherwiseTargetComponentId with
    | none => .ok []
    | some id => (branchAction strategy control.id id "else_actions").map ([·])
  let inbound :=
    if control.primitive = "rebalance@1" then connectionsTo strategy control.id "targets" else []
  let condition ← match branches.condition, branches.asset with
    | some condition, _ => .ok condition
    | none, some asset =>
        .ok (predicateCondition
          ⟨asset, branches.lookbackBars, branches.operator, branches.threshold⟩)
    | none, none =>
        .error (.structural "predicate_required" (componentPath control.id ++ ".condition")
          "Control composition requires an explicit Predicate condition.")
  let rule : Component := { control with
    primitive := "rule@1", condition := some condition, actions := [thenAction], elseActions }
  return (replaceComponent strategy rule).withConnections
    (strategy.graph.connections.filter (· ∉ inbound))

end Predicates

section Qualification

variable (strategy : CanonicalStrategyV1)

def qualificationFailure (path message : String) : Failure :=
  .structural "unsupported_qualification_structure" path message

/-- `_qualification_source`. -/
def qualificationSource (rankId : String) : Except Failure Connection := do
  let rank ← requireComponent strategy rankId
  let unsupported := qualificationFailure (componentPath rank.id)
    "The selection is not a supported ranked return pipeline."
  match connectionsTo strategy rank.id "scores" with
  | [inbound] =>
      failIf (rank.primitive ≠ "rank@1") unsupported
      let source ← requireComponent strategy inbound.source.componentId
      failIf (source.primitive = "filter@1")
        (.structural "qualification_condition_exists" (componentPath source.id)
          "This selection already has a qualification condition.")
      failIf (source.primitive ≠ "trailing_return@1" ∨ inbound.source.port ≠ "scores")
        (qualificationFailure (componentPath rank.id ++ ".inputs.scores")
          "Qualification v0 supports trailing-return selections only.")
      return inbound
  | _ => .error unsupported

/-- `_add`. -/
def addQualification (rankId : String) (threshold : Numeral) :
    Except Failure CanonicalStrategyV1 := do
  let old ← qualificationSource strategy rankId
  let id := rankId ++ "_qualification"
  failIf (100 < id.length)
    (.structural "generated_id_too_long" (componentPath rankId)
      "The selection identity is too long.")
  failIf (id ∈ strategy.componentIds)
    (.structural "component_id_conflict" (componentPath id)
      "The generated qualification identity is already in use.")
  let condition : Component :=
    { id, primitive := "filter@1"
      config := (Dict.empty.set "operator" (.text "gt")).set "threshold" (.decimal threshold) }
  return (strategy.withComponents (strategy.graph.components ++ [condition])).withConnections
    (rewire strategy old [⟨old.source, ⟨id, "scores"⟩⟩, ⟨⟨id, "scores"⟩, old.target⟩])

/-- `_remove`. -/
def removeQualification (id : String) : Except Failure CanonicalStrategyV1 := do
  let condition ← requireComponent strategy id
  match connectionsTo strategy condition.id "scores", connectionsFrom strategy condition.id "scores" with
  | [inbound], [outbound] =>
      failIf (condition.primitive ≠ "filter@1" ∨ (connectionsAt strategy condition.id).length ≠ 2)
        (qualificationFailure (componentPath condition.id)
          "The condition is shared or is not in a supported selection pipeline.")
      let source ← requireComponent strategy inbound.source.componentId
      let target ← requireComponent strategy outbound.target.componentId
      failIf (source.primitive ≠ "trailing_return@1" ∨ target.primitive ≠ "rank@1" ∨
          inbound.source.port ≠ "scores" ∨ outbound.target.port ≠ "scores")
        (qualificationFailure (componentPath condition.id)
          "Qualification v0 requires trailing return -> filter -> rank.")
      return (strategy.withComponents (withoutComponent strategy condition.id)).withConnections
        (bypass strategy inbound outbound ⟨inbound.source, outbound.target⟩)
  | _, _ =>
      .error (qualificationFailure (componentPath condition.id)
        "The condition is shared or is not in a supported selection pipeline.")

end Qualification

section Shapes

variable (strategy : CanonicalStrategyV1)

def shapeFailure (id message : String) : Failure :=
  .structural "unsupported_shape_transformation" (componentPath id) message

/-- `_simple_weight_source`: the asset set of a direct allocation and the connection from it. -/
def simpleWeightSource (weightId : String) : Except Failure (Component × Connection) := do
  let weight ← requireComponent strategy weightId
  let unsupported :=
    shapeFailure weight.id "Choose creation requires one direct investment allocation."
  match connectionsTo strategy weight.id "assets", connectionsFrom strategy weight.id "targets" with
  | [inbound], [outbound] =>
      failIf (weight.primitive ≠ "equal_weight@1") unsupported
      let assets ← requireComponent strategy inbound.source.componentId
      let destination ← requireComponent strategy outbound.target.componentId
      failIf (assets.primitive ≠ "asset_set@1" ∨ inbound.source.port ≠ "assets" ∨
          destination.primitive ≠ "rebalance@1" ∨ outbound.target.port ≠ "targets")
        (shapeFailure weight.id
          "Choose creation supports a direct asset set to allocation to rebalance shape.")
      return (assets, inbound)
  | _, _ => .error unsupported

/-- `_transform_to_choose`. -/
def transformToChoose (weightId : String) (lookback count : ℕ+) :
    Except Failure CanonicalStrategyV1 := do
  let (assets, direct) ← simpleWeightSource strategy weightId
  match referencedAssets strategy assets "asset_set_ref" with
  -- `next` finds no asset set
  | none => .error (.raised .valueError)
  | some assetSet =>
      failIf ((count : Nat) > assetSet.assets.length)
        (.structural "selection_count_exceeds_assets" (componentPath weightId)
          "The number selected cannot exceed the available assets.")
      let returnId := weightId ++ "_trailing_return"
      let rankId := weightId ++ "_rank"
      let topId := weightId ++ "_top_n"
      checkGeneratedIds strategy [returnId, rankId, topId]
      let components : List Component :=
        [{ id := returnId, primitive := "trailing_return@1"
           config := Dict.empty.set "lookback_bars" (.integer (lookback : Nat)) },
          { id := rankId, primitive := "rank@1"
            config := Dict.empty.set "direction" (.text "descending") },
          { id := topId, primitive := "top_n@1"
            config := Dict.empty.set "count" (.integer (count : Nat)) }]
      return (strategy.withComponents (strategy.graph.components ++ components)).withConnections
        (rewire strategy direct
          [⟨direct.source, ⟨returnId, "assets"⟩⟩, ⟨⟨returnId, "scores"⟩, ⟨rankId, "scores"⟩⟩,
            ⟨⟨rankId, "ranked"⟩, ⟨topId, "ranked"⟩⟩, ⟨⟨topId, "selected"⟩, direct.target⟩])

/-- The one connection into a port. -/
def onlyConnectionTo (id port : String) (failure : Failure) : Except Failure Connection :=
  match connectionsTo strategy id port with
  | [inbound] => .ok inbound
  | _ => .error failure

/-- `_filtered_selection_source`. -/
def filteredSelectionSource (weightId : String) : Except Failure Connection := do
  let weight ← requireComponent strategy weightId
  let unsupported :=
    shapeFailure weight.id "Fallback requires one filtered selection allocation."
  match connectionsTo strategy weight.id "assets", connectionsFrom strategy weight.id "targets" with
  | [inbound], [outbound] =>
      failIf (weight.primitive ≠ "equal_weight@1") unsupported
      let top ← requireComponent strategy inbound.source.componentId
      let noSelection := shapeFailure weight.id "Fallback requires a supported Top N selection."
      let rankInput ← onlyConnectionTo strategy top.id "ranked" noSelection
      failIf (top.primitive ≠ "top_n@1") noSelection
      let rank ← requireComponent strategy rankInput.source.componentId
      let noRank := shapeFailure rank.id "Fallback requires a ranked selection."
      let filterInput ← onlyConnectionTo strategy rank.id "scores" noRank
      failIf (rank.primitive ≠ "rank@1") noRank
      let condition ← requireComponent strategy filterInput.source.componentId
      let destination ← requireComponent strategy outbound.target.componentId
      failIf (condition.primitive ≠ "filter@1" ∨ destination.primitive ≠ "rebalance@1" ∨
          outbound.target.port ≠ "targets")
        (shapeFailure weight.id "Fallback requires a filtered selection that directly rebalances.")
      return outbound
  | _, _ => .error unsupported

/-- `_add_fallback`. -/
def addFallback (weightId fallbackAsset : String) : Except Failure CanonicalStrategyV1 := do
  let direct ← filteredSelectionSource strategy weightId
  let definitionId := weightId ++ "_fallback_assets"
  let fallbackId := weightId ++ "_fallback"
  checkGeneratedIds strategy [definitionId, fallbackId]
  let definition ← newAssetSet definitionId [fallbackAsset]
  let fallback : Component :=
    { id := fallbackId, primitive := "fallback@1"
      config := Dict.empty.set "fallback_asset_set_ref" (.text definitionId) }
  return ((strategy.withAssetSets (strategy.definitions.assetSets ++ [definition])).withComponents
      (strategy.graph.components ++ [fallback])).withConnections
    (rewire strategy direct
      [⟨direct.source, ⟨fallbackId, "primary"⟩⟩, ⟨⟨fallbackId, "targets"⟩, direct.target⟩])

def fallbackFailure (id message : String) : Failure :=
  .structural "unsupported_fallback_structure" (componentPath id) message

/-- Whether any value of a config is a text. -/
def holdsText (component : Component) (text : String) : Bool :=
  component.config.values.any fun value =>
    match value with
    | .text t => t = text
    | _ => false

/-- The asset set that a fallback names; empty where it names none. -/
def fallbackDefinitionId (fallback : Component) : String :=
  match fallback.config.get? "fallback_asset_set_ref" with
  | some (.text reference) => reference
  | _ => ""

/-- `_remove_fallback`. -/
def removeFallback (id : String) : Except Failure CanonicalStrategyV1 := do
  let fallback ← requireComponent strategy id
  match connectionsTo strategy fallback.id "primary",
      connectionsFrom strategy fallback.id "targets" with
  | [inbound], [outbound] =>
      failIf (fallback.primitive ≠ "fallback@1" ∨ (connectionsAt strategy fallback.id).length ≠ 2)
        (fallbackFailure fallback.id
          "This fallback is shared or is not in a supported selection pipeline.")
      let primary ← requireComponent strategy inbound.source.componentId
      let destination ← requireComponent strategy outbound.target.componentId
      failIf (primary.primitive ≠ "equal_weight@1" ∨ inbound.source.port ≠ "targets" ∨
          (destination.primitive = "rebalance@1" ∧ outbound.target.port ≠ "targets") ∨
          (destination.primitive = "portfolio_sleeve@1" ∧ outbound.target.port ≠ "local_targets") ∨
          (destination.primitive ≠ "rebalance@1" ∧ destination.primitive ≠ "portfolio_sleeve@1"))
        (fallbackFailure fallback.id
          "Fallback removal requires one owned selection allocation destination.")
      let definitionId := fallbackDefinitionId fallback
      failIf (definitionId = "" ∨ strategy.graph.components.any (fun item =>
          item.id ≠ fallback.id && holdsText item definitionId))
        (.structural "shared_fallback_assets" ("definitions.asset_sets[" ++ definitionId ++ "]")
          "This fallback asset set is shared and cannot be removed safely.")
      return ((strategy.withAssetSets (strategy.definitions.assetSets.filter fun item =>
            item.id ≠ definitionId)).withComponents
          (withoutComponent strategy fallback.id)).withConnections
        (bypass strategy inbound outbound ⟨inbound.source, outbound.target⟩)
  | _, _ =>
      .error (fallbackFailure fallback.id
        "This fallback is shared or is not in a supported selection pipeline.")

end Shapes

section Cooldowns

variable (strategy : CanonicalStrategyV1)

def cooldownFailure (id message : String) : Failure :=
  .structural "unsupported_cooldown_structure" (componentPath id) message

/-- `_cooldown_source`. -/
def cooldownSource (selectionId : String) : Except Failure Connection := do
  let selection ← requireComponent strategy selectionId
  let unsupported :=
    cooldownFailure selectionId "Cooldown requires a supported Top N selection."
  match connectionsFrom strategy selectionId "selected" with
  | [outbound] =>
      failIf (selection.primitive ≠ "top_n@1") unsupported
      let destination ← requireComponent strategy outbound.target.componentId
      failIf (destination.primitive ≠ "equal_weight@1" ∨ outbound.target.port ≠ "assets")
        (cooldownFailure selectionId "Cooldown requires Top N to feed the allocation directly.")
      let guarded := cooldownFailure selectionId
        "Cooldown cannot be added to a fallback selection in the current supported shape."
      match connectionsFrom strategy destination.id "targets" with
      | [allocation] =>
          let last ← requireComponent strategy allocation.target.componentId
          failIf (last.primitive = "fallback@1") guarded
          return outbound
      | _ => .error guarded
  | _ => .error unsupported

/-- `_add_cooldown`. -/
def addCooldown (selectionId : String) (duration : ℕ+) : Except Failure CanonicalStrategyV1 := do
  let direct ← cooldownSource strategy selectionId
  let id := selectionId ++ "_cooldown"
  checkGeneratedIds strategy [id]
  let cooldown : Component :=
    { id, primitive := "cooldown@1"
      config := (Dict.empty.set "duration" (.integer (duration : Nat))).set "unit"
        (.text "trading_days") }
  return (strategy.withComponents (strategy.graph.components.flatMap fun item =>
      if item.id = direct.target.componentId then [cooldown, item] else [item])).withConnections
    (rewire strategy direct
      [⟨direct.source, ⟨id, "candidates"⟩⟩, ⟨⟨id, "eligible"⟩, direct.target⟩])

/-- `_remove_cooldown`. -/
def removeCooldown (id : String) : Except Failure CanonicalStrategyV1 := do
  let cooldown ← requireComponent strategy id
  match connectionsTo strategy cooldown.id "candidates",
      connectionsFrom strategy cooldown.id "eligible" with
  | [inbound], [outbound] =>
      failIf (cooldown.primitive ≠ "cooldown@1" ∨ (connectionsAt strategy cooldown.id).length ≠ 2)
        (cooldownFailure cooldown.id
          "This cooldown is shared or is not in a supported selection pipeline.")
      let source ← requireComponent strategy inbound.source.componentId
      let destination ← requireComponent strategy outbound.target.componentId
      failIf (source.primitive ≠ "top_n@1" ∨ inbound.source.port ≠ "selected" ∨
          destination.primitive ≠ "equal_weight@1" ∨ outbound.target.port ≠ "assets")
        (cooldownFailure cooldown.id
          "Cooldown removal requires a direct Top N to allocation pipeline.")
      return (strategy.withComponents (withoutComponent strategy cooldown.id)).withConnections
        (bypass strategy inbound outbound ⟨inbound.source, outbound.target⟩)
  | _, _ =>
      .error (cooldownFailure cooldown.id
        "This cooldown is shared or is not in a supported selection pipeline.")

end Cooldowns

section Split

variable (strategy : CanonicalStrategyV1)

/-- `_simple_portfolio_output`. -/
def simplePortfolioOutput (targetId : String) : Except Failure Connection := do
  let target ← requireComponent strategy targetId
  let refusal : Except Failure Connection :=
    .error (shapeFailure target.id "Portfolio splitting requires one ungrouped strategy output.")
  match connectionsFrom strategy target.id "targets" with
  | [outbound] =>
      if target.primitive ≠ "equal_weight@1" ∧ target.primitive ≠ "fallback@1" then refusal
      else
        let destination ← requireComponent strategy outbound.target.componentId
        if destination.primitive ≠ "rebalance@1" ∨ outbound.target.port ≠ "targets" ∨
            strategy.graph.components.any (fun item =>
              item.primitive = "portfolio@1" || item.primitive = "portfolio_sleeve@1") then refusal
        else return outbound
  | _ => refusal

/-- `_transform_to_growth_defensive`. -/
def transformToGrowthDefensive (targetId : String) (growthAllocation : Numeral)
    (defensiveAssets : List String) : Except Failure CanonicalStrategyV1 := do
  let direct ← simplePortfolioOutput strategy targetId
  let normalized := defensiveAssets.map symbolText
  failIf (¬ normalized.Nodup)
    (.structural "duplicate_asset" "operation.defensive_assets"
      "Defensive assets must be unique.")
  let definitionId := targetId ++ "_defensive_assets"
  let growthId := targetId ++ "_growth_sleeve"
  let assetsId := targetId ++ "_defensive_asset_set"
  let weightsId := targetId ++ "_defensive_weights"
  let sleeveId := targetId ++ "_defensive_sleeve"
  let portfolioId := targetId ++ "_portfolio"
  checkGeneratedIds strategy [definitionId, growthId, assetsId, weightsId, sleeveId, portfolioId]
  let definition ← newAssetSet definitionId normalized
  match (Numeral.ofInt 1).sub growthAllocation with
  | .error signal => .error (.raised (.arithmetic signal))
  | .ok defensiveAllocation =>
      let sleeve (id name : String) (allocation : Numeral) : Component :=
        { id, primitive := "portfolio_sleeve@1"
          config := (Dict.empty.set "name" (.text name)).set "allocation" (.decimal allocation) }
      let components : List Component :=
        [sleeve growthId "Growth" growthAllocation,
          { id := assetsId, primitive := "asset_set@1"
            config := Dict.empty.set "asset_set_ref" (.text definitionId) },
          { id := weightsId, primitive := "equal_weight@1"
            config := Dict.empty.set "total" (.decimal (.ofInt 1)) },
          sleeve sleeveId "Defensive" defensiveAllocation,
          { id := portfolioId, primitive := "portfolio@1"
            config := Dict.empty.set "name" (.text "Portfolio") }]
      return ((strategy.withAssetSets
            (strategy.definitions.assetSets ++ [definition])).withComponents
          (strategy.graph.components ++ components)).withConnections
        (rewire strategy direct
          [⟨direct.source, ⟨growthId, "local_targets"⟩⟩,
            ⟨⟨assetsId, "assets"⟩, ⟨weightsId, "assets"⟩⟩,
            ⟨⟨weightsId, "targets"⟩, ⟨sleeveId, "local_targets"⟩⟩,
            ⟨⟨growthId, "contribution"⟩, ⟨portfolioId, "sleeves"⟩⟩,
            ⟨⟨sleeveId, "contribution"⟩, ⟨portfolioId, "sleeves"⟩⟩,
            ⟨⟨portfolioId, "targets"⟩, direct.target⟩])

end Split

section Apply

variable (strategy : CanonicalStrategyV1)

/-- The candidate of an operation that is no batch. -/
def structuralCandidate : StructuralOperation → Except Failure CanonicalStrategyV1
  | .compose mutations => applyComposition strategy mutations
  | .addQualificationCondition rankId threshold => addQualification strategy rankId threshold
  | .removeQualificationCondition id => removeQualification strategy id
  | .transformToChooseAssets id lookback count => transformToChoose strategy id lookback count
  | .addFallbackSelection id asset => addFallback strategy id asset
  | .removeFallbackSelection id => removeFallback strategy id
  | .addCooldown id duration => addCooldown strategy id duration
  | .removeCooldown id => removeCooldown strategy id
  | .transformToGrowthDefensive id growth assets =>
      transformToGrowthDefensive strategy id growth assets
  | .updateAssetSet id assets => updateAssetSet strategy id assets
  | .updateLookback id lookback =>
      updateField strategy id ["trailing_return@1"] "Lookback editing" "lookback_bars"
        (.integer (lookback : Nat))
  | .updateQualificationThreshold id threshold =>
      updateField strategy id ["filter@1"] "Threshold editing" "threshold" (.decimal threshold)
  | .updateSelectionCount id count => updateSelectionCount strategy id count
  | .updateSelectionResample id resample =>
      updateField strategy id ["random_select@1"] "Resample editing" "resample"
        (.text resample.text)
  | .updateSleeveAllocations allocations => updateAllocations strategy allocations
  | .updateSchedule id cadence day => updateSchedule strategy id cadence day
  | .updateCooldownDuration id duration =>
      updateField strategy id ["cooldown@1"] "Cooldown editing" "duration"
        (.integer (duration : Nat))
  | .updateFallbackAssetSet id assetSetId => updateFallbackAssetSet strategy id assetSetId
  | .updateUniverseReference id universeId => updateUniverseReference strategy id universeId
  | .addPredicate id input => addPredicate strategy id input
  | .updatePredicate id input => updatePredicate strategy id input
  | .removePredicate id => removePredicate strategy id
  | .commitPredicateBranches branches => commitPredicateBranches strategy branches

/-- The checks after an operation that is no batch. -/
def checkCandidate (candidate : CanonicalStrategyV1) : Except Failure CanonicalStrategyV1 := do
  validateAuthoringInvariants candidate
  match validateStrategyV1 candidate with
  | .ok _ => return candidate
  | .error (.raised e) => .error (.raised e)
  | .error (.semantic issue) =>
      .error (.structural "result_invalid" issue.path
        ("The requested change would make the strategy invalid: " ++ issue.message))

/-- `apply_structural_operation`. A batch checks itself. -/
def applyStructuralOperation (operation : StructuralOperation) :
    Except Failure CanonicalStrategyV1 :=
  match operation with
  | .compose mutations => applyComposition strategy mutations
  | other => structuralCandidate strategy other >>= checkCandidate

end Apply

end RuleTrade.V1
