import RuleTrade.Strategy.TypesV1

/-! The primitives that components of a canonical strategy may use. -/

namespace RuleTrade.V1

open Library

inductive PrimitiveCategory where
  | event | transform | rule | allocator | effect | indicator
  deriving DecidableEq, Repr

/-- Definitions a field may refer to. -/
inductive DefinitionReference where
  | assetSet | group | universeSet
  deriving DecidableEq, Repr

/-- Its name, the words of its identifier apart. -/
def DefinitionReference.label : DefinitionReference → String
  | .assetSet => "asset set"
  | .group => "group"
  | .universeSet => "universe"

structure PortSpec where
  name : String
  valueType : ValueType
  required : Bool := true
  multiple : Bool := false
  deriving DecidableEq, Repr

structure PrimitiveFieldSpec where
  name : String
  valueType : ValueType
  required : Bool := true
  fallback : Value := .null
  minimum : Option Int := none
  maximum : Option Int := none
  exclusiveMinimum : Bool := false
  choices : List String := []
  reference : Option DefinitionReference := none
  deriving Repr

structure PrimitiveSpec where
  id : String
  category : PrimitiveCategory
  inputs : List PortSpec := []
  outputs : List PortSpec := []
  fields : List PrimitiveFieldSpec := []
  implementationId : String
  resultType : Option ValueType := none
  deriving Repr

section Registry

def assetSetPort : PortSpec := { name := "assets", valueType := .assetSet }

def targetsPort : PortSpec := { name := "targets", valueType := .portfolioTargets }

def dayField : PrimitiveFieldSpec :=
  { name := "day", valueType := .integer, required := false, fallback := .integer 1
    minimum := some 1, maximum := some 31 }

def countField : PrimitiveFieldSpec :=
  { name := "count", valueType := .integer, minimum := some 1 }

def lookbackField : PrimitiveFieldSpec :=
  { name := "lookback_bars", valueType := .integer, minimum := some 1 }

/-- A percentage above zero and at most one. -/
def shareField (name : String) : PrimitiveFieldSpec :=
  { name, valueType := .percentage, minimum := some 0, maximum := some 1
    exclusiveMinimum := true }

def choiceField (name : String) (fallback : String) (choices : List String) :
    PrimitiveFieldSpec :=
  { name, valueType := .string, required := false, fallback := .text fallback, choices }

def referenceField (name : String) (reference : DefinitionReference) : PrimitiveFieldSpec :=
  { name, valueType := .string, reference := some reference }

/-- `build_builtin_registry`. -/
def builtinRegistry : List PrimitiveSpec :=
  [{ id := "daily@1", category := .event, implementationId := "event.daily" },
    { id := "monthly@1", category := .event, fields := [dayField]
      implementationId := "event.monthly" },
    { id := "quarterly@1", category := .event, fields := [dayField]
      implementationId := "event.quarterly" },
    { id := "asset_set@1", category := .transform, outputs := [assetSetPort]
      fields := [referenceField "asset_set_ref" .assetSet]
      implementationId := "asset_set.named" },
    { id := "universe@1", category := .transform, outputs := [assetSetPort]
      fields := [referenceField "universe_ref" .universeSet]
      implementationId := "universe.named" },
    { id := "random_select@1", category := .transform, inputs := [assetSetPort]
      outputs := [{ name := "selected", valueType := .assetSet }]
      fields := [countField, choiceField "resample" "per_event" ["once", "per_event"]]
      implementationId := "selection.random_n_v1" },
    { id := "trailing_return@1", category := .transform, inputs := [assetSetPort]
      outputs := [{ name := "scores", valueType := .assetScores }]
      fields := [lookbackField], implementationId := "market.trailing_return" },
    { id := "trailing_return_indicator@1", category := .indicator, fields := [lookbackField]
      implementationId := "market.trailing_return_indicator", resultType := some .percentage },
    { id := "filter@1", category := .transform
      inputs := [{ name := "scores", valueType := .assetScores }]
      outputs := [{ name := "scores", valueType := .assetScores }]
      fields := [choiceField "operator" "gt" ["gt", "gte", "lt", "lte"],
        { name := "threshold", valueType := .percentage }]
      implementationId := "selection.filter" },
    { id := "rank@1", category := .transform
      inputs := [{ name := "scores", valueType := .assetScores }]
      outputs := [{ name := "ranked", valueType := .rankedAssets }]
      fields := [choiceField "direction" "descending" ["descending", "ascending"]]
      implementationId := "selection.rank" },
    { id := "top_n@1", category := .transform
      inputs := [{ name := "ranked", valueType := .rankedAssets }]
      outputs := [{ name := "selected", valueType := .assetSet }]
      fields := [countField,
        choiceField "shortage_policy" "require_full" ["require_full", "choose_all"]]
      implementationId := "selection.top_n" },
    { id := "cooldown@1", category := .transform
      inputs := [{ name := "candidates", valueType := .assetSet }]
      outputs := [{ name := "eligible", valueType := .assetSet }]
      fields := [{ name := "duration", valueType := .integer, minimum := some 1 },
        choiceField "unit" "trading_days" ["trading_days"]]
      implementationId := "selection.cooldown" },
    { id := "equal_weight@1", category := .allocator, inputs := [assetSetPort]
      outputs := [targetsPort], fields := [shareField "total"]
      implementationId := "allocation.equal_weight" },
    { id := "merge_targets@1", category := .transform
      inputs := [{ name := "left", valueType := .portfolioTargets },
        { name := "right", valueType := .portfolioTargets }]
      outputs := [targetsPort], implementationId := "targets.merge" },
    { id := "fallback@1", category := .transform
      inputs := [{ name := "primary", valueType := .portfolioTargets }]
      outputs := [targetsPort], fields := [referenceField "fallback_asset_set_ref" .assetSet]
      implementationId := "targets.fallback_asset" },
    { id := "portfolio_sleeve@1", category := .transform
      inputs := [{ name := "local_targets", valueType := .portfolioTargets }]
      outputs := [{ name := "contribution", valueType := .portfolioTargets }]
      fields := [{ name := "name", valueType := .string }, shareField "allocation"]
      implementationId := "portfolio.sleeve" },
    { id := "portfolio@1", category := .transform
      inputs := [{ name := "sleeves", valueType := .portfolioTargets, multiple := true }]
      outputs := [targetsPort], fields := [{ name := "name", valueType := .string }]
      implementationId := "portfolio.compose" },
    { id := "rebalance@1", category := .effect, inputs := [targetsPort]
      implementationId := "effect.rebalance" },
    { id := "rule@1", category := .rule, implementationId := "rule.condition_actions" }]

/-- `PrimitiveRegistry.get`; none where it raises `KeyError`. -/
def getPrimitive (id : String) : Option PrimitiveSpec :=
  builtinRegistry.find? (fun primitive => primitive.id = id)

/-- `resolve_config`: the defaults of fields left out, then what is given. -/
def resolveConfig (primitive : PrimitiveSpec) (config : Dict String Value) : Dict String Value :=
  (Dict.ofList ((primitive.fields.filter fun field =>
      !field.required && !config.contains field.name).map fun field =>
    (field.name, field.fallback))).update config

end Registry

end RuleTrade.V1
