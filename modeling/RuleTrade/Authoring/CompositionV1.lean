import RuleTrade.Strategy.ValidationV1

/-! Composition batches: mutations of a canonical strategy that are applied one by one
and validated together. -/

namespace RuleTrade.V1

open Library

/-- How an authoring operation fails. A pydantic error and what validation raises are
declared by no operation. -/
inductive Failure where
  | structural (code path message : String)
  | composition (code path message : String)
  | intent (code message : String)
  | validationError
  | raised (error : Raised)
  deriving DecidableEq, Repr

/-- Fail under a condition. -/
def failIf (condition : Prop) [Decidable condition] (failure : Failure) :
    Except Failure PUnit.{1} :=
  if condition then .error failure else .ok ⟨⟩

section Mutations

/-- `ComponentAddress`: an id or a reference of the batch. -/
inductive ComponentAddress where
  | componentId (id : String)
  | createdRef (ref : String)
  deriving DecidableEq, Repr

structure PortAddress where
  address : ComponentAddress
  port : String
  deriving DecidableEq, Repr

/-- What a field is set to. -/
inductive FieldSource where
  | value (value : Value)
  | createdAssetSetRef (ref : String)

inductive Mutation where
  | createComponent (ref primitive : String) (config : Dict String Value)
  | createAssetSet (ref : String) (assets : List String)
  | setComponentField (target : ComponentAddress) (field : String) (source : FieldSource)
  | connect (source target : PortAddress)
  | disconnect (source target : PortAddress)
  | removeComponent (target : ComponentAddress)

end Mutations

/-- `_NON_CREATABLE`. -/
def nonCreatable : PrimitiveCategory → Option String
  | .event => some "Schedules require entrypoint ownership and remain recipe-authored."
  | .effect => some "Execution effects require entrypoint ownership and remain recipe-authored."
  | .rule => some "Expression rules are outside the executable MVP composition grammar."
  | _ => none

def removeSuffix (suffix text : String) : String :=
  if suffix.toList.isSuffixOf text.toList then
    String.ofList (text.toList.take (text.toList.length - suffix.toList.length))
  else text

/-- The ids `_generated_id` tries. It never needs more than one for each that is taken. -/
def candidateIds (stem : String) (tries : Nat) : List String :=
  stem :: (List.range tries).map fun suffix => stem ++ "_" ++ toString (suffix + 2)

/-- `_generated_id`, apart from its update of the ids that are taken. -/
def generatedId (occupied : List String) (stem : String) : String :=
  let normalized := removeSuffix "@1" stem
  ((candidateIds normalized occupied.length).find? (· ∉ occupied)).getD normalized

/-- `AssetSetDefinition`, as its model builds it. -/
def newAssetSet (id : String) (assets : List String) : Except Failure AssetSetDefinition :=
  let normalized := assets.map symbolText
  if normalized.Nodup then .ok ⟨id, normalized⟩ else .error .validationError

/-- A batch under way. -/
structure CompositionState where
  candidate : CanonicalStrategyV1
  occupied : List String
  createdComponents : Dict String String := Dict.empty
  createdAssetSets : Dict String String := Dict.empty

namespace CompositionState

def start (strategy : CanonicalStrategyV1) : CompositionState :=
  { candidate := strategy, occupied := strategy.componentIds ++ strategy.assetSetIds }

end CompositionState

section Steps

variable (state : CompositionState) (path : String)

/-- `_resolve`. -/
def resolveAddress (address : ComponentAddress) (path : String) : Except Failure String :=
  match address with
  | .componentId id => .ok id
  | .createdRef ref =>
      match state.createdComponents.get? ref with
      | some id => .ok id
      | none => .error (.composition "unknown_created_ref" path
          ("Created component ref '" ++ ref ++ "' is unavailable."))

/-- `_component` of the composition module. -/
def composedComponent (id path : String) : Except Failure Component :=
  match state.candidate.component? id with
  | some component => .ok component
  | none =>
      .error (.composition "component_not_found" path "The referenced component does not exist.")

def knownPrimitive (id : String) : Except Failure PrimitiveSpec :=
  match getPrimitive id with
  | some primitive => .ok primitive
  | none => .error (.raised .keyError)

/-- `_port`. -/
def resolvePort (address : PortAddress) (path : String) : Except Failure PortReference := do
  let id ← resolveAddress state address.address path
  return ⟨id, address.port⟩

def checkRef (ref : String) : Except Failure PUnit.{1} :=
  failIf (state.createdComponents.contains ref ∨ state.createdAssetSets.contains ref)
    (.composition "duplicate_ref" (path ++ ".ref") "Mutation refs must be unique.")

def createComponent (ref primitive : String) (config : Dict String Value) :
    Except Failure CompositionState := do
  checkRef state path ref
  match getPrimitive primitive with
  | none =>
      .error (.composition "unknown_primitive" (path ++ ".primitive")
        ("'unknown primitive: " ++ primitive ++ "'"))
  | some spec =>
      match nonCreatable spec.category with
      | some reason => .error (.composition "primitive_not_creatable" (path ++ ".primitive") reason)
      | none =>
          let id := generatedId state.occupied primitive
          let component : Component := { id, primitive, config }
          return { state with
            candidate := state.candidate.withComponents
              (state.candidate.graph.components ++ [component])
            occupied := id :: state.occupied
            createdComponents := state.createdComponents.set ref id }

def createAssetSet (ref : String) (assets : List String) : Except Failure CompositionState := do
  checkRef state path ref
  let id := generatedId state.occupied "assets"
  let definition ← newAssetSet id assets
  return { state with
    candidate := state.candidate.withAssetSets
      (state.candidate.definitions.assetSets ++ [definition])
    occupied := id :: state.occupied
    createdAssetSets := state.createdAssetSets.set ref id }

def fieldValue (source : FieldSource) : Except Failure Value :=
  match source with
  | .value value => .ok value
  | .createdAssetSetRef ref =>
      match state.createdAssetSets.get? ref with
      | some id => .ok (.text id)
      | none => .error (.composition "unknown_created_ref" (path ++ ".created_asset_set_ref")
          ("Created asset-set ref '" ++ ref ++ "' is unavailable."))

/-- Components with one replaced. -/
def replaceIn (components : List Component) (id : String) (replacement : Component) :
    List Component :=
  components.map fun item => if item.id = id then replacement else item

def setComponentField (target : ComponentAddress) (field : String) (source : FieldSource) :
    Except Failure CompositionState := do
  let id ← resolveAddress state target (path ++ ".target")
  let component ← composedComponent state id (path ++ ".target")
  let primitive ← knownPrimitive component.primitive
  failIf (field ∉ primitive.fields.map PrimitiveFieldSpec.name)
    (.composition "unknown_component_field" (path ++ ".field")
      "That field is not defined by the primitive.")
  let value ← fieldValue state path source
  return { state with
    candidate := state.candidate.withComponents
      (replaceIn state.candidate.graph.components id
        { component with config := component.config.set field value }) }

/-- `_validate_connection`. -/
def validateConnection (source target : PortReference) : Except Failure PUnit.{1} := do
  let sourceComponent ← composedComponent state source.componentId (path ++ ".source")
  let targetComponent ← composedComponent state target.componentId (path ++ ".target")
  let sourceSpec ← knownPrimitive sourceComponent.primitive
  let targetSpec ← knownPrimitive targetComponent.primitive
  match sourceSpec.outputs.find? (fun port => port.name = source.port),
      targetSpec.inputs.find? (fun port => port.name = target.port) with
  | none, _ =>
      .error (.composition "unknown_output_port" (path ++ ".source.port") "Unknown output port.")
  | some _, none =>
      .error (.composition "unknown_input_port" (path ++ ".target.port") "Unknown input port.")
  | some output, some input =>
      failIf (output.valueType ≠ input.valueType)
        (.composition "incompatible_ports" path
          ("Cannot connect " ++ output.valueType.text ++ " to " ++ input.valueType.text ++ "."))
      failIf (¬ input.multiple ∧ target ∈ state.candidate.graph.connections.map Connection.target)
        (.composition "input_occupied" (path ++ ".target") "That input already has a connection.")

def connect (source target : PortAddress) : Except Failure CompositionState := do
  let sourcePort ← resolvePort state source (path ++ ".source")
  let targetPort ← resolvePort state target (path ++ ".target")
  let connection : Connection := ⟨sourcePort, targetPort⟩
  failIf (connection ∈ state.candidate.graph.connections)
    (.composition "duplicate_connection" path "That connection already exists.")
  validateConnection state path sourcePort targetPort
  return { state with
    candidate := state.candidate.withConnections
      (state.candidate.graph.connections ++ [connection]) }

def disconnect (source target : PortAddress) : Except Failure CompositionState := do
  let sourcePort ← resolvePort state source (path ++ ".source")
  let targetPort ← resolvePort state target (path ++ ".target")
  let connection : Connection := ⟨sourcePort, targetPort⟩
  failIf (connection ∉ state.candidate.graph.connections)
    (.composition "connection_not_found" path "That connection does not exist.")
  return { state with
    candidate := state.candidate.withConnections
      (state.candidate.graph.connections.filter (· ≠ connection)) }

def removeComponent (target : ComponentAddress) : Except Failure CompositionState := do
  let id ← resolveAddress state target (path ++ ".target")
  let _ ← composedComponent state id (path ++ ".target")
  return { state with
    candidate := (state.candidate.withComponents
        (state.candidate.graph.components.filter fun item => item.id ≠ id)).withConnections
      (state.candidate.graph.connections.filter fun item =>
        item.source.componentId ≠ id ∧ item.target.componentId ≠ id) }

/-- One mutation of the batch. -/
def applyMutation : Mutation → Except Failure CompositionState
  | .createComponent ref primitive config => createComponent state path ref primitive config
  | .createAssetSet ref assets => createAssetSet state path ref assets
  | .setComponentField target field source => setComponentField state path target field source
  | .connect source target => connect state path source target
  | .disconnect source target => disconnect state path source target
  | .removeComponent target => removeComponent state path target

end Steps

section Batch

/-- The mutations from a position on. -/
def applyMutations (index : Nat) (state : CompositionState) :
    List Mutation → Except Failure CompositionState
  | [] => .ok state
  | mutation :: rest => do
      let next ← applyMutation state ("operation.mutations[" ++ toString index ++ "]") mutation
      applyMutations (index + 1) next rest

/-- Texts that configs hold. -/
def referencedTexts (strategy : CanonicalStrategyV1) : List String :=
  strategy.graph.components.flatMap fun item => item.config.values.filterMap fun value =>
    match value with
    | .text t => some t
    | _ => none

/-- What follows the last mutation. -/
def finishComposition (state : CompositionState) : Except Failure CanonicalStrategyV1 := do
  failIf (¬ state.createdAssetSets.values.all (· ∈ referencedTexts state.candidate))
    (.composition "unused_created_asset_set" "operation.mutations"
      "Every newly created asset set must be referenced by the completed mutation batch.")
  match validateStrategyV1 state.candidate with
  | .ok _ => return state.candidate
  | .error (.raised e) => .error (.raised e)
  | .error (.semantic issue) =>
      .error (.composition "result_invalid" issue.path
        ("The composition batch would make the strategy invalid: " ++ issue.message))

/-- `apply_composition`, its strategy. -/
def applyComposition (strategy : CanonicalStrategyV1) (mutations : List Mutation) :
    Except Failure CanonicalStrategyV1 := do
  let state ← applyMutations 0 (.start strategy) mutations
  finishComposition state

end Batch

end RuleTrade.V1
