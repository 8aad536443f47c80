import RuleTrade.Library.JsonText
import RuleTrade.Strategy.ModelsV1

/-! What the hash of a strategy of the first version is taken of. -/

namespace RuleTrade.V1

open Library Library.JsonText

section Dumps

mutual

/-- `model_dump` of an expression. -/
def Expression.dump : Expression → Value
  | .literal valueType value =>
      .dict [("kind", .text "literal"), ("value_type", .text valueType.text), ("value", value)]
  | .parameterRef parameterId =>
      .dict [("kind", .text "parameter_ref"), ("parameter_id", .text parameterId)]
  | .stateRef stateId => .dict [("kind", .text "state_ref"), ("state_id", .text stateId)]
  | .candidate => .dict [("kind", .text "candidate")]
  | .groupRef groupId => .dict [("kind", .text "group_ref"), ("group_id", .text groupId)]
  | .marketSeries field subject =>
      .dict [("kind", .text "market_series"), ("field", .text field.text),
        ("subject", subject.dump)]
  | .current series => .dict [("kind", .text "current"), ("series", series.dump)]
  | .rollingAggregate operator series windowObservations =>
      .dict [("kind", .text "rolling_aggregate"), ("operator", .text operator.text),
        ("series", series.dump), ("window_observations", .integer windowObservations)]
  | .price asset => .dict [("kind", .text "price"), ("asset", asset.dump)]
  | .averageCost asset => .dict [("kind", .text "average_cost"), ("asset", asset.dump)]
  | .indicator indicatorId asset parameters =>
      .dict [("kind", .text "indicator"), ("indicator_id", .text indicatorId),
        ("asset", asset.dump), ("parameters", .dict parameters.entries)]
  | .componentOutput componentId port =>
      .dict [("kind", .text "component_output"), ("component_id", .text componentId),
        ("port", .text port)]
  | .arithmetic operator left right =>
      .dict [("kind", .text "arithmetic"), ("operator", .text operator.text),
        ("left", left.dump), ("right", right.dump)]
  | .comparison operator left right =>
      .dict [("kind", .text "comparison"), ("operator", .text operator.text),
        ("left", left.dump), ("right", right.dump)]
  | .boolean operator operands =>
      .dict [("kind", .text "boolean"), ("operator", .text operator.text),
        ("operands", .list (Expression.dumpAll operands))]
  | .negation operand => .dict [("kind", .text "not"), ("operand", operand.dump)]

def Expression.dumpAll : List Expression → List Value
  | [] => []
  | expression :: rest => expression.dump :: Expression.dumpAll rest

end

def Action.dump : Action → Value
  | .buy asset quantity =>
      .dict [("kind", .text "buy"), ("asset", asset.dump), ("quantity", quantity.dump)]
  | .sell asset quantity =>
      .dict [("kind", .text "sell"), ("asset", asset.dump), ("quantity", quantity.dump)]
  | .liquidate asset => .dict [("kind", .text "liquidate"), ("asset", asset.dump)]
  | .setTarget asset weight =>
      .dict [("kind", .text "set_target"), ("asset", asset.dump), ("weight", weight.dump)]
  | .rebalance targets => .dict [("kind", .text "rebalance"), ("targets", targets.dump)]
  | .setState stateId value =>
      .dict [("kind", .text "set_state"), ("state_id", .text stateId), ("value", value.dump)]
  | .incrementState stateId amount =>
      .dict [("kind", .text "increment_state"), ("state_id", .text stateId),
        ("amount", amount.dump)]
  | .emitSignal name value =>
      .dict [("kind", .text "emit_signal"), ("name", .text name),
        ("value", (value.map Expression.dump).getD .null)]

/-- A text or nothing. -/
def optionalText (text : Option String) : Value := (text.map Value.text).getD .null

def AssetSetDefinition.dump (definition : AssetSetDefinition) : Value :=
  .dict [("id", .text definition.id), ("assets", .list (definition.assets.map Value.text))]

def GroupDefinition.dump (definition : GroupDefinition) : Value :=
  .dict [("id", .text definition.id), ("name", .text definition.name),
    ("asset_set_ref", .text definition.assetSetRef), ("description", .text definition.description)]

def UniverseDefinition.dump (definition : UniverseDefinition) : Value :=
  .dict [("id", .text definition.id), ("name", .text definition.name),
    ("source", .text definition.source.text), ("asset_set_ref", optionalText definition.assetSetRef),
    ("group_ref", optionalText definition.groupRef),
    ("provider_id", optionalText definition.providerId), ("query", optionalText definition.query)]

def ParameterDefinition.dump (definition : ParameterDefinition) : Value :=
  .dict [("id", .text definition.id), ("value_type", .text definition.valueType.text),
    ("default", definition.default)]

def StateDefinition.dump (definition : StateDefinition) : Value :=
  .dict [("id", .text definition.id), ("value_type", .text definition.valueType.text),
    ("initial", definition.initial)]

def PortReference.dump (reference : PortReference) : Value :=
  .dict [("component_id", .text reference.componentId), ("port", .text reference.port)]

def Connection.dump (connection : Connection) : Value :=
  .dict [("source", connection.source.dump), ("target", connection.target.dump)]

def Entrypoint.dump (entrypoint : Entrypoint) : Value :=
  .dict [("event_component_id", .text entrypoint.eventComponentId),
    ("target_component_id", .text entrypoint.targetComponentId)]

end Dumps

section Normalized

/-- `ValueType(value)`; none where it raises. -/
def valueTypeOf : Value → Option ValueType
  | .text text =>
      [ValueType.boolean, .integer, .decimal, .percentage, .string, .asset, .group, .assetSet,
        .priceSeries, .volumeSeries, .numericSeries, .assetScores, .rankedAssets, .shares, .money,
        .moneyPerShare, .portfolioTargets, .datetime, .duration].find? (·.text = text)
  | _ => none

/-- Whether an entry is the given text. -/
def isText (expected : String) : Option Value → Bool
  | some (.text text) => text = expected
  | _ => false

/-- `_decimal_text`; none where `normalize` raises. -/
def decimalText (number : Numeral) : Option String := do
  let text := (← number.normalize.toOption).format
  pure (if text = "-0" then "0" else text)

/-- `_normalize_registry_value`. -/
def normalizeRegistryValue (value : Value) (field : Option PrimitiveFieldSpec) : Value :=
  match field with
  | none => value
  | some field => (normalizeTypedValue value field.valueType).getD value

def PrimitiveSpec.field? (primitive : PrimitiveSpec) (name : String) : Option PrimitiveFieldSpec :=
  primitive.fields.find? (fun field => field.name = name)

/-- Fields of a primitive with the values of their types. -/
def normalizeFieldsOf (primitive : PrimitiveSpec) (fields : List (String × Value)) :
    List (String × Value) :=
  fields.map fun field => (field.1, normalizeRegistryValue field.2 (primitive.field? field.1))

/-- `BUILTIN_REGISTRY.get` where a missing primitive is passed over; none where the id is
no key. -/
def indicatorOf : Option Value → Option (Option PrimitiveSpec)
  | some (.text id) => some ((getPrimitive id).filter (·.category = .indicator))
  | some (.list _) => none
  | some (.dict _) => none
  | _ => some none

/-- The last part of `_normalize_v1_ast`: an entry of a literal and those of an indicator. -/
def normalizeNode (fields : List (String × Value)) : Option (List (String × Value)) := do
  let fields ←
    if isText "literal" (Dict.find "kind" fields) then do
      let valueType ← (Dict.find "value_type" fields).bind valueTypeOf
      let value ← (Dict.find "value" fields).bind (normalizeTypedValue · valueType)
      pure (Dict.write "value" value fields)
    else pure fields
  if isText "indicator" (Dict.find "kind" fields) then do
    match ← indicatorOf (Dict.find "indicator_id" fields) with
    | none => pure fields
    | some indicator =>
        match Dict.find "parameters" fields with
        | some (.dict parameters) =>
            pure (Dict.write "parameters" (.dict (normalizeFieldsOf indicator parameters)) fields)
        | _ => none
  else pure fields

mutual

/-- `_normalize_v1_ast`; none where it raises. -/
def normalizeAst : Value → Option Value
  | .list items => (normalizeAstItems items).map .list
  | .dict fields => ((normalizeAstFields fields).bind normalizeNode).map .dict
  | other => some other

def normalizeAstItems : List Value → Option (List Value)
  | [] => some []
  | item :: rest => do
      let item ← normalizeAst item
      pure (item :: (← normalizeAstItems rest))

def normalizeAstFields : List (String × Value) → Option (List (String × Value))
  | [] => some []
  | (key, value) :: rest => do
      let value ← normalizeAst value
      pure ((key, value) :: (← normalizeAstFields rest))

end

/-- `value == n` for a whole number. -/
def equalsInteger (n : Int) : Value → Bool
  | .boolean b => (if b then 1 else 0) = n
  | .integer m => m = n
  | .float repr => ((Numeral.read repr).map fun x => x.isFinite && x.value = (n : ℚ)).getD false
  | _ => false

/-- `daily_value_defaults`. -/
def isDailyDefault (field : String × Value) : Bool :=
  if field.1 = "operands" then
    match field.2 with
    | .list [] => true
    | _ => false
  else if field.1 ∈ ["subject_kind", "subject_id", "binding_id", "field", "basis", "observations",
      "axis", "reduction", "arithmetic"] then
    match field.2 with
    | .null => true
    | _ => false
  else if field.1 = "skip" then equalsInteger 0 field.2
  else if field.1 = "minimum_count" then equalsInteger 1 field.2
  else if field.1 = "missing_policy" then isText "require_all" (some field.2)
  else if field.1 = "minimum_fraction" then isText "1" (some field.2)
  else false

/-- Entries of a literal that was read as a daily value lose that model's defaults. -/
def withoutDailyDefaults (fields : List (String × Value)) : List (String × Value) :=
  if isText "literal" (Dict.find "kind" fields) && (Dict.find "operands" fields).isSome then
    fields.filter fun field => !isDailyDefault field
  else fields

mutual

/-- `_normalize_value`; none where it raises. -/
def normalizeValue : Value → Option Value
  | .decimal number => (decimalText number).map .text
  | .dict fields => (normalizeFields fields).map fun fields => .dict (withoutDailyDefaults fields)
  | .list items => (normalizeItems items).map .list
  | other => some other

def normalizeItems : List Value → Option (List Value)
  | [] => some []
  | item :: rest => do
      let item ← normalizeValue item
      pure (item :: (← normalizeItems rest))

def normalizeFields : List (String × Value) → Option (List (String × Value))
  | [] => some []
  | (key, value) :: rest => do
      let value ← normalizeValue value
      pure ((key, value) :: (← normalizeFields rest))

end

end Normalized

section Encoding

/-- A float as `json` writes it. -/
def jsonFloat (repr : String) : String :=
  if repr = "nan" then "NaN"
  else if repr = "inf" then "Infinity"
  else if repr = "-inf" then "-Infinity"
  else repr

mutual

/-- The document of a value. What JSON has no form for is left to a fallback, as
`json.dumps` leaves it to `default`. -/
def encode (fallback : Value → Option String) : Value → Option Tree
  | .null => some (.atom "null")
  | .boolean b => some (.atom (if b then "true" else "false"))
  | .integer n => some (.atom (toString n))
  | .float repr => some (.atom (jsonFloat repr))
  | .decimal number => (fallback (.decimal number)).map .text
  | .datetime isoformat => (fallback (.datetime isoformat)).map .text
  | .text text => some (.text text)
  | .list items => (encodeItems fallback items).map .array
  | .dict fields => (encodeFields fallback fields).map .object

def encodeItems (fallback : Value → Option String) : List Value → Option (List Tree)
  | [] => some []
  | item :: rest => do
      let item ← encode fallback item
      pure (item :: (← encodeItems fallback rest))

def encodeFields (fallback : Value → Option String) :
    List (String × Value) → Option (List (String × Tree))
  | [] => some []
  | (key, value) :: rest => do
      let value ← encode fallback value
      pure ((key, value) :: (← encodeFields fallback rest))

end

end Encoding

section Payload

/-- The dump of a component, with the config and the expressions as the hash sees them. -/
def hashedComponent (component : Component) : Option Value := do
  let config := match getPrimitive component.primitive with
    | none => component.config.entries
    | some primitive =>
        normalizeFieldsOf primitive (resolveConfig primitive component.config).entries
  let condition ← match component.condition with
    | none => pure .null
    | some condition => normalizeAst condition.dump
  let actions ← component.actions.mapM fun action => normalizeAst action.dump
  pure (.dict ([("id", .text component.id), ("primitive", .text component.primitive),
      ("config", .dict config), ("condition", condition)] ++
    (component.valueExpression.map fun value => ("value_expression", value.dump)).toList ++
    [("actions", .list actions)] ++
    if component.elseActions.isEmpty then []
    else [("else_actions", .list (component.elseActions.map Action.dump))]))

/-- The key of a connection. -/
def connectionKey (connection : Connection) : List String :=
  [connection.source.componentId, connection.source.port, connection.target.componentId,
    connection.target.port]

def entrypointKey (entrypoint : Entrypoint) : List String :=
  [entrypoint.eventComponentId, entrypoint.targetComponentId]

/-- The definitions. Groups and universes keep the order they were written in. -/
def hashedDefinitions (definitions : StrategyDefinitions) : Value :=
  .dict [
    ("asset_sets", .list ((Sequence.sortBy AssetSetDefinition.id definitions.assetSets).map
      AssetSetDefinition.dump)),
    ("groups", .list (definitions.groups.map GroupDefinition.dump)),
    ("universes", .list (definitions.universes.map UniverseDefinition.dump)),
    ("parameters", .list ((Sequence.sortBy ParameterDefinition.id definitions.parameters).map
      ParameterDefinition.dump)),
    ("state", .list ((Sequence.sortBy StateDefinition.id definitions.state).map
      StateDefinition.dump))]

/-- `_v1_semantic_payload`; none where it raises. -/
def semanticPayload (strategy : CanonicalStrategyV1) : Option Value := do
  let components ←
    (Sequence.sortBy Component.id strategy.graph.components).mapM hashedComponent
  normalizeValue (.dict [
    ("api_version", .text "ruletrade.dev/strategy/v1"),
    ("random_seed", .integer strategy.randomSeed),
    ("definitions", hashedDefinitions strategy.definitions),
    ("graph", .dict [
      ("components", .list components),
      ("connections", .list ((Sequence.sortBy connectionKey strategy.graph.connections).map
        Connection.dump))]),
    ("entrypoints", .list ((Sequence.sortBy entrypointKey strategy.entrypoints).map
      Entrypoint.dump))])

/-- `canonical_json`. -/
def canonicalJson (strategy : CanonicalStrategyV1) : Option String := do
  let payload ← semanticPayload strategy
  pure (dumps (← encode (fun _ => none) payload))

/-- 32 bytes. -/
abbrev Digest := Vector UInt8 32

def hexdigest (digest : Digest) : String :=
  String.ofList (digest.toList.flatMap fun byte =>
    [hexDigit (byte.toNat / 16), hexDigit (byte.toNat % 16)])

/-- `strategy_hash`, over the function that SHA-256 computes. -/
def strategyHash (sha256 : ByteArray → Digest) (strategy : CanonicalStrategyV1) : Option String :=
  (canonicalJson strategy).map fun text => "sha256:" ++ hexdigest (sha256 text.toUTF8)

end Payload

end RuleTrade.V1
