import RuleTrade.Backend.Plan
import RuleTrade.Library.Bytes
import RuleTrade.Strategy.HashingV1

/-! Seeds of random selections: the contract of the strategy, and the call that generated
code makes. -/

namespace RuleTrade.V1

open Library Library.JsonText

section Bindings

/-- `_json_default`; none where it raises. -/
def jsonDefault : Value → Option String
  | .decimal number => number.normalize.toOption.map Numeral.format
  | .datetime isoformat => some isoformat
  | _ => none

/-- `normalized_parameter_bindings`; none where it raises. -/
def normalizedParameterBindings (strategy : CanonicalStrategyV1) (provided : Dict String Value) :
    Option (List (String × Value)) :=
  let parameters := strategy.definitions.parameters
  if provided.keys.all fun key => parameters.any fun parameter => parameter.id = key then
    parameters.mapM fun parameter => do
      let value ← normalizeTypedValue (provided.getD parameter.id parameter.default)
        parameter.valueType
      pure (parameter.id, value)
  else none

/-- `canonical_parameter_bindings_json`. -/
def canonicalParameterBindingsJson (strategy : CanonicalStrategyV1) (provided : Dict String Value) :
    Option String := do
  let bindings ← normalizedParameterBindings strategy provided
  pure (dumps (← encode jsonDefault (.dict bindings)))

end Bindings

section Contract

/-- The value of `resample` that a component resolves to. -/
def resolvedResample (component : Component) : Option Value := do
  let primitive ← getPrimitive component.primitive
  (resolveConfig primitive component.config).get? "resample"

def isRandomSelection (component : Component) : Bool :=
  ((getPrimitive component.primitive).map PrimitiveSpec.implementationId) =
    some "selection.random_n_v1"

/-- What is hashed for a seed. -/
def seedMaterial (identity componentId : String) (bindings : List (String × Value))
    (eventIdentity : Option String) : Value :=
  .dict ([("strategy", .text identity), ("component_id", .text componentId),
      ("parameter_bindings", .dict bindings)] ++
    (eventIdentity.map fun event => ("event_identity", .text event)).toList)

/-- `deterministic_random_seed`; none where it raises. -/
def deterministicRandomSeed (sha256 : ByteArray → Digest) (strategy : CanonicalStrategyV1)
    (componentId : String) (eventIdentity : Option String) (provided : Dict String Value) :
    Option Nat := do
  let component ← strategy.component? componentId
  if !isRandomSelection component then none
  let resample ← resolvedResample component
  let perEvent := isText "per_event" (some resample)
  if perEvent && (eventIdentity.getD "").isEmpty then none
  let bindings ← normalizedParameterBindings strategy provided
  let identity ← strategyHash sha256 strategy
  let material := seedMaterial identity component.id bindings
    (if perEvent then eventIdentity else none)
  let encoded := dumps (← encode jsonDefault material)
  -- `int.from_bytes(digest[:8], byteorder="big")`
  pure (fromBytes ((sha256 encoded.toUTF8).toList.take 8))

end Contract

section Compiled

/-- `RandomNOp`. -/
structure RandomNOp where
  id : String
  assets : String
  count : Nat
  resample : LeanResample
  parameterBindingsJson : String
  deriving DecidableEq

/-- `input_id`: the one component that a port is connected from. -/
def inputId (strategy : CanonicalStrategyV1) (component : Component) (port : String) :
    Option String :=
  match strategy.graph.connections.filter fun connection =>
      connection.target.componentId = component.id ∧ connection.target.port = port with
  | [connection] => some connection.source.componentId
  | _ => none

/-- Modes of resampling that the intermediate representation accepts. -/
def resampleOf : Value → Option LeanResample
  | .text "once" => some .once
  | .text "per_event" => some .perEvent
  | _ => none

/-- A count that the intermediate representation accepts. -/
def randomCount : Value → Option Nat
  | .integer n => if 1 ≤ n then some n.toNat else none
  | _ => none

/-- The branch of `desugar_strategy` for random selections; none where it raises. -/
def desugarRandomN (strategy : CanonicalStrategyV1) (provided : Dict String Value)
    (component : Component) : Option RandomNOp := do
  let parameterBindingsJson ← canonicalParameterBindingsJson strategy provided
  let primitive ← getPrimitive component.primitive
  if primitive.implementationId ≠ "selection.random_n_v1" then none
  let resolved := resolveConfig primitive component.config
  let assets ← inputId strategy component "assets"
  let count ← (resolved.get? "count").bind randomCount
  let resample ← (resolved.get? "resample").bind resampleOf
  pure { id := component.id, assets, count, resample, parameterBindingsJson }

/-- The branch of `lower_sleeve` for random selections. The symbols of the other
operations are given. -/
def lowerRandomN (symbolsOf : String → Option (List String)) (operation : RandomNOp) :
    Option LeanRandomSelection := do
  let symbols ← symbolsOf operation.assets
  pure { id := operation.id, componentId := operation.id, symbols, count := operation.count
         resample := operation.resample
         parameterBindingsJson := operation.parameterBindingsJson }

/-- A call of `RuleTradeRandom.Seed` as generated code writes it. -/
structure SeedCall where
  strategyIdentity : List Char
  componentIdentity : List Char
  parameterBindingsJson : List Char
  eventIdentity : List Char
  perEvent : List Char
  deriving DecidableEq

/-- `_seed_expression`. -/
def seedExpression (strategyIdentity : String) (selection : LeanRandomSelection) : SeedCall where
  strategyIdentity := quote strategyIdentity
  componentIdentity := quote selection.componentId
  parameterBindingsJson := quote selection.parameterBindingsJson
  eventIdentity := (if selection.resample = .once then "null" else "eventIdentity").toList
  perEvent := (if selection.resample = .perEvent then "true" else "false").toList

end Compiled

section Generated

/-- `RuleTradeRandom.Seed`. -/
def generatedSeed (serialize : Option String → String) (sha256 : ByteArray → Digest)
    (strategyIdentity componentIdentity parameterBindingsJson : String)
    (eventIdentity : Option String) (perEvent : Bool) : UInt64 :=
  let eventPart := if perEvent then ",\"event_identity\":" ++ serialize eventIdentity else ""
  let material := "\x7b\"component_id\":" ++ serialize (some componentIdentity) ++ eventPart ++
    ",\"parameter_bindings\":" ++ parameterBindingsJson ++
    ",\"strategy\":" ++ serialize (some strategyIdentity) ++ "\x7d"
  let digest := sha256 material.toUTF8
  (digest[0].toUInt64 <<< 56) ||| (digest[1].toUInt64 <<< 48) |||
    (digest[2].toUInt64 <<< 40) ||| (digest[3].toUInt64 <<< 32) |||
    (digest[4].toUInt64 <<< 24) ||| (digest[5].toUInt64 <<< 16) |||
    (digest[6].toUInt64 <<< 8) ||| digest[7].toUInt64

/-- What the call computes at an event; none where its text is no such call. -/
def SeedCall.run (serialize : Option String → String) (sha256 : ByteArray → Digest)
    (call : SeedCall) (eventIdentity : String) : Option UInt64 := do
  let strategyIdentity ← unquote call.strategyIdentity
  let componentIdentity ← unquote call.componentIdentity
  let parameterBindingsJson ← unquote call.parameterBindingsJson
  let event ←
    if call.eventIdentity = "eventIdentity".toList then some (some eventIdentity)
    else if call.eventIdentity = "null".toList then some none
    else none
  let perEvent ←
    if call.perEvent = "true".toList then some true
    else if call.perEvent = "false".toList then some false
    else none
  pure (generatedSeed serialize sha256 strategyIdentity componentIdentity parameterBindingsJson
    event perEvent)

end Generated

end RuleTrade.V1
