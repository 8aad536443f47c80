import Mathlib.Data.List.Sort
import Mathlib.Data.String.Basic
import RuleTrade.Library.DepthFirst
import RuleTrade.Strategy.ModelsV1

/-! Semantic validation of canonical strategies of the first version. -/

namespace RuleTrade.V1

open Library

structure SemanticIssue where
  path : String
  message : String
  deriving DecidableEq, Repr

/-- Exceptions of validation other than its own. -/
inductive Raised where
  | keyError
  | valueError
  | arithmetic (signal : Numeral.Signal)
  deriving DecidableEq, Repr

/-- How checking an expression ends without a type. -/
inductive CheckFailure where
  | semantic (issues : List SemanticIssue)
  | raised (error : Raised)
  deriving DecidableEq, Repr

section Fields

variable (ids : DefinitionReference → List String)

def choiceIssues (field : PrimitiveFieldSpec) (value : Value) (path : String) :
    List SemanticIssue :=
  let known : Bool := match value with
    | .text t => t ∈ field.choices
    | _ => false
  if field.choices = [] ∨ known then []
  else [⟨path, "must be one of: " ++ String.intercalate ", " field.choices⟩]

def minimumIssues (field : PrimitiveFieldSpec) (number : Numeral) (path : String) :
    List SemanticIssue :=
  match field.minimum with
  | none => []
  | some least =>
      let qualifier := if field.exclusiveMinimum then "greater than" else "at least"
      if number.value < least ∨ (field.exclusiveMinimum ∧ number.value = least) then
        [⟨path, "must be " ++ qualifier ++ " " ++ toString least⟩]
      else []

def maximumIssues (field : PrimitiveFieldSpec) (number : Numeral) (path : String) :
    List SemanticIssue :=
  match field.maximum with
  | none => []
  | some most =>
      if number.value > most then [⟨path, "must be at most " ++ toString most⟩] else []

def boundIssues (field : PrimitiveFieldSpec) (value : Value) (path : String) :
    List SemanticIssue :=
  match value.number with
  | none => []
  | some number => minimumIssues field number path ++ maximumIssues field number path

/-- Fields with a reference hold texts. -/
def referenceIssues (field : PrimitiveFieldSpec) (value : Value) (path : String) :
    List SemanticIssue :=
  match field.reference, value with
  | some reference, .text t =>
      if t ∈ ids reference then [] else [⟨path, "unknown " ++ reference.label ++ ": " ++ t⟩]
  | some reference, _ => [⟨path, "unknown " ++ reference.label ++ ": "⟩]
  | none, _ => []

def fieldIssue (values : Dict String Value) (path : String) (field : PrimitiveFieldSpec) :
    List SemanticIssue :=
  let fieldPath := path ++ "." ++ field.name
  match values.get? field.name with
  | none => if field.required then [⟨fieldPath, "required field is missing"⟩] else []
  | some value =>
      if valueMatchesType value field.valueType then
        choiceIssues field value fieldPath ++ boundIssues field value fieldPath ++
          referenceIssues ids field value fieldPath
      else [⟨fieldPath, "value does not match " ++ field.valueType.text⟩]

/-- `_field_issues`. -/
def fieldIssues (fields : List PrimitiveFieldSpec) (values : Dict String Value) (path : String) :
    List SemanticIssue :=
  ((values.keys.filter fun name => name ∉ fields.map PrimitiveFieldSpec.name).insertionSort
      (· ≤ ·)).map (fun name => ⟨path ++ "." ++ name, "unknown field"⟩) ++
    fields.flatMap (fieldIssue ids values path)

end Fields

/-- `_definition_ids`. -/
def definitionIds (strategy : CanonicalStrategyV1) : DefinitionReference → List String
  | .assetSet => strategy.assetSetIds
  | .group => strategy.definitions.groups.map GroupDefinition.id
  | .universeSet => strategy.definitions.universes.map UniverseDefinition.id

section TypeChecker

variable (strategy : CanonicalStrategyV1)

def refuse {α : Type} (path message : String) : Except CheckFailure α :=
  .error (.semantic [⟨path, message⟩])

def seriesScalarType (path : String) : ValueType → Except CheckFailure ValueType
  | .priceSeries => .ok .moneyPerShare
  | .volumeSeries | .numericSeries => .ok .decimal
  | other => refuse path ("expected a market series, got " ++ other.text)

def isScalable (type : ValueType) : Bool :=
  type = .money || type = .moneyPerShare || type = .shares

/-- The product of two numeric types. -/
def productType (left right : ValueType) : Option ValueType :=
  if left = .decimal then some right
  else if right = .decimal then some left
  else if left = .percentage ∧ isScalable right then some right
  else if right = .percentage ∧ isScalable left then some left
  else if (left = .moneyPerShare ∧ right = .shares) ∨ (left = .shares ∧ right = .moneyPerShare) then
    some .money
  else none

def quotientType (left right : ValueType) : Option ValueType :=
  if right = .decimal ∨ right = .percentage then some left
  else if left = .money ∧ right = .moneyPerShare then some .shares
  else if left = right then some .decimal
  else none

/-- `_arithmetic_type`. -/
def arithmeticType (operator : ArithmeticOperator) (left right : ValueType) (path : String) :
    Except CheckFailure ValueType :=
  let unsupported : Except CheckFailure ValueType := refuse path
    ("unsupported arithmetic types: " ++ left.text ++ " " ++ operator.text ++ " " ++ right.text)
  if ¬ left.isNumeric ∨ ¬ right.isNumeric then refuse path "arithmetic operands must be numeric"
  else match operator with
    | .add | .subtract =>
        if left = right then .ok left
        else refuse path ("arithmetic operands differ: " ++ left.text ++ " vs " ++ right.text)
    | .multiply => (productType left right).elim unsupported .ok
    | .divide => (quotientType left right).elim unsupported .ok

def comparisonType (operator : ComparisonOperator) (left right : ValueType) (path : String) :
    Except CheckFailure ValueType :=
  if left ≠ right then
    refuse path ("comparison operands differ: " ++ left.text ++ " vs " ++ right.text)
  else if operator ≠ .eq ∧ operator ≠ .neq ∧
      ¬ (left.isNumeric ∨ left = .datetime ∨ left = .duration) then
    refuse path (operator.text ++ " is not valid for " ++ left.text)
  else .ok .boolean

/-- The second half of `require`. -/
def expectType (expected : ValueType) (path : String) (actual : ValueType) :
    Except CheckFailure PUnit.{1} :=
  if actual = expected then .ok ⟨⟩
  else refuse path ("expected " ++ expected.text ++ ", got " ++ actual.text)

def indicatorType (indicatorId : String) (parameters : Dict String Value) (path : String) :
    Except CheckFailure ValueType :=
  match getPrimitive indicatorId with
  | none => refuse (path ++ ".indicator_id") ("unknown indicator: " ++ indicatorId)
  | some indicator =>
      match indicator.category, indicator.resultType with
      | .indicator, some result =>
          match fieldIssues (definitionIds strategy) indicator.fields parameters
              (path ++ ".parameters") with
          | [] => .ok result
          | issues => .error (.semantic issues)
      | _, _ => refuse (path ++ ".indicator_id") "registered primitive is not an indicator"

/-- The type of an output port. A component of no known primitive is a `KeyError`. -/
def outputType (componentId port path : String) : Except CheckFailure ValueType :=
  match strategy.component? componentId with
  | none => refuse (path ++ ".component_id") "unknown component"
  | some component =>
      match getPrimitive component.primitive with
      | none => .error (.raised .keyError)
      | some primitive =>
          match primitive.outputs.find? (fun item => item.name = port) with
          | none => refuse (path ++ ".port") "unknown component output port"
          | some output => .ok output.valueType

def parameterType (id path : String) : Except CheckFailure ValueType :=
  match strategy.definitions.parameters.find? (fun item => item.id = id) with
  | some parameter => .ok parameter.valueType
  | none => refuse path ("unknown parameter: " ++ id)

def stateType (id path : String) : Except CheckFailure ValueType :=
  match strategy.definitions.state.find? (fun item => item.id = id) with
  | some definition => .ok definition.valueType
  | none => refuse path ("unknown state: " ++ id)

mutual

/-- `_TypeChecker.expression_type`. -/
def expressionType (path : String) : Expression → Except CheckFailure ValueType
  | .literal valueType _ => .ok valueType
  | .parameterRef id => parameterType strategy id path
  | .stateRef id => stateType strategy id path
  | .candidate => .ok .asset
  | .groupRef id =>
      if id ∈ definitionIds strategy .group then .ok .group
      else refuse (path ++ ".group_id") ("unknown group: " ++ id)
  | .marketSeries field subject => do
      let actual ← expressionType (path ++ ".subject") subject
      expectType .asset (path ++ ".subject") actual
      pure (match field with
        | .price => .priceSeries
        | .volume => .volumeSeries)
  | .current series => do
      let type ← expressionType (path ++ ".series") series
      seriesScalarType path type
  | .rollingAggregate _ series _ => do
      let type ← expressionType (path ++ ".series") series
      seriesScalarType path type
  | .price asset => do
      let actual ← expressionType (path ++ ".asset") asset
      expectType .asset (path ++ ".asset") actual
      pure .moneyPerShare
  | .averageCost asset => do
      let actual ← expressionType (path ++ ".asset") asset
      expectType .asset (path ++ ".asset") actual
      pure .moneyPerShare
  | .indicator indicatorId asset parameters => do
      let actual ← expressionType (path ++ ".asset") asset
      expectType .asset (path ++ ".asset") actual
      indicatorType strategy indicatorId parameters path
  | .componentOutput componentId port => outputType strategy componentId port path
  | .arithmetic operator left right => do
      let leftType ← expressionType (path ++ ".left") left
      let rightType ← expressionType (path ++ ".right") right
      arithmeticType operator leftType rightType path
  | .comparison operator left right => do
      let leftType ← expressionType (path ++ ".left") left
      let rightType ← expressionType (path ++ ".right") right
      comparisonType operator leftType rightType path
  | .boolean _ operands => do
      requireOperands path 0 operands
      pure .boolean
  | .negation operand => do
      let actual ← expressionType (path ++ ".operand") operand
      expectType .boolean (path ++ ".operand") actual
      pure .boolean

/-- The operands of a boolean from a position on. -/
def requireOperands (path : String) (index : Nat) : List Expression → Except CheckFailure PUnit.{1}
  | [] => .ok ⟨⟩
  | operand :: rest => do
      let operandPath := path ++ ".operands[" ++ toString index ++ "]"
      let actual ← expressionType operandPath operand
      expectType .boolean operandPath actual
      requireOperands path (index + 1) rest

end

/-- `require`. -/
def requireType (expression : Expression) (expected : ValueType) (path : String) :
    Except CheckFailure PUnit.{1} := do
  let actual ← expressionType strategy path expression
  expectType expected path actual

def validateAction (path : String) : Action → Except CheckFailure PUnit.{1}
  | .buy asset quantity | .sell asset quantity => do
      requireType strategy asset .asset (path ++ ".asset")
      requireType strategy quantity .shares (path ++ ".quantity")
  | .liquidate asset => requireType strategy asset .asset (path ++ ".asset")
  | .setTarget asset weight => do
      requireType strategy asset .asset (path ++ ".asset")
      requireType strategy weight .percentage (path ++ ".weight")
  | .rebalance targets => requireType strategy targets .portfolioTargets (path ++ ".targets")
  | .setState stateId value => do
      let expected ← stateType strategy stateId path
      requireType strategy value expected (path ++ ".value")
  | .incrementState stateId amount => do
      let expected ← stateType strategy stateId path
      if ¬ expected.isNumeric then refuse path ("cannot increment non-numeric state " ++ stateId)
      requireType strategy amount expected (path ++ ".amount")
  | .emitSignal _ value =>
      match value with
      | none => .ok ⟨⟩
      | some value => do
          let _ ← expressionType strategy (path ++ ".value") value
          pure ⟨⟩

end TypeChecker

section Candidate

mutual

/-- Whether the JSON of a value holds the field `"kind":"candidate"`. A key may end in it. -/
def Value.namesCandidate : Value → Bool
  | .list items => anyNamesCandidate items
  | .dict fields => fieldsNameCandidate fields
  | _ => false

def anyNamesCandidate : List Value → Bool
  | [] => false
  | item :: rest => item.namesCandidate || anyNamesCandidate rest

def fieldsNameCandidate : List (String × Value) → Bool
  | [] => false
  | (key, value) :: rest =>
      (match value with
        | .text t => (key = "kind" || key.endsWith "\"kind") && t = "candidate"
        | other => other.namesCandidate) || fieldsNameCandidate rest

end

mutual

def Expression.namesCandidate : Expression → Bool
  | .literal _ value => value.namesCandidate
  | .candidate => true
  | .parameterRef _ | .stateRef _ | .groupRef _ | .componentOutput _ _ => false
  | .marketSeries _ inner | .current inner | .rollingAggregate _ inner _ | .price inner
  | .averageCost inner | .negation inner => inner.namesCandidate
  | .indicator _ asset parameters =>
      asset.namesCandidate || fieldsNameCandidate parameters.entries
  | .arithmetic _ left right | .comparison _ left right =>
      left.namesCandidate || right.namesCandidate
  | .boolean _ operands => anyExpressionNamesCandidate operands

def anyExpressionNamesCandidate : List Expression → Bool
  | [] => false
  | operand :: rest => operand.namesCandidate || anyExpressionNamesCandidate rest

end

end Candidate

section Definitions

variable (strategy : CanonicalStrategyV1)

def groupIssues : List SemanticIssue :=
  strategy.definitions.groups.zipIdx.flatMap fun (group, index) =>
    if group.assetSetRef ∈ strategy.assetSetIds then []
    else [⟨"definitions.groups[" ++ toString index ++ "].asset_set_ref",
      "unknown asset set: " ++ group.assetSetRef⟩]

/-- A reference that is left out prints as `None`. -/
def referenceText (reference : Option String) : String := reference.getD "None"

def universeIssues : List SemanticIssue :=
  strategy.definitions.universes.zipIdx.flatMap fun (item, index) =>
    let path := "definitions.universes[" ++ toString index ++ "]"
    (if item.source = .assetSet ∧ item.assetSetRef.all (· ∉ strategy.assetSetIds) then
      [⟨path ++ ".asset_set_ref", "unknown asset set: " ++ referenceText item.assetSetRef⟩]
    else []) ++
    (if item.source = .group ∧ item.groupRef.all (· ∉ definitionIds strategy .group) then
      [⟨path ++ ".group_ref", "unknown group: " ++ referenceText item.groupRef⟩]
    else [])

end Definitions

section Components

variable (strategy : CanonicalStrategyV1)

def componentPath (id : String) : String := "graph.components[" ++ id ++ "]"

/-- Where conditions and actions may stand. -/
def ruleIssues (component : Component) (primitive : PrimitiveSpec) (path : String) :
    List SemanticIssue :=
  let acts := ¬ component.actions.isEmpty ∨ ¬ component.elseActions.isEmpty
  if primitive.category = .rule then
    (if component.condition.isNone then [⟨path ++ ".condition", "rule condition is required"⟩]
      else []) ++
    (if component.actions.isEmpty then
      [⟨path ++ ".actions", "rule must contain at least one action"⟩] else [])
  else if primitive.implementationId = "selection.filter" then
    if acts then [⟨path, "actions are only valid on rule components"⟩] else []
  else if component.condition.isSome ∨ acts then
    [⟨path, "condition/actions are only valid on rule components"⟩]
  else []

def componentIssues (component : Component) : List SemanticIssue :=
  let path := componentPath component.id
  match getPrimitive component.primitive with
  | none => [⟨path ++ ".primitive", "unknown primitive: " ++ component.primitive⟩]
  | some primitive =>
      fieldIssues (definitionIds strategy) primitive.fields component.config (path ++ ".config") ++
        ruleIssues component primitive path ++
        (if component.valueExpression.isSome ∧ primitive.implementationId ≠ "selection.rank" then
          [⟨path ++ ".value_expression", "value expression is only valid on rank components"⟩]
        else [])

/-- `primitive_specs`. -/
def primitiveSpec (id : String) : Option PrimitiveSpec :=
  (strategy.component? id).bind fun component => getPrimitive component.primitive

end Components

section Connections

variable (strategy : CanonicalStrategyV1)

/-- Whether both ends are components of known primitives. -/
def isLinked (connection : Connection) : Bool :=
  (primitiveSpec strategy connection.source.componentId).isSome &&
    (primitiveSpec strategy connection.target.componentId).isSome

def linked : List Connection := strategy.graph.connections.filter (isLinked strategy)

def portIssues (source target : PrimitiveSpec) (connection : Connection) (seen : List Connection)
    (path : String) : List SemanticIssue :=
  let sourcePort := source.outputs.find? (fun port => port.name = connection.source.port)
  let targetPort := target.inputs.find? (fun port => port.name = connection.target.port)
  (if sourcePort.isNone then [⟨path ++ ".source.port", "unknown output port"⟩] else []) ++
    (if targetPort.isNone then [⟨path ++ ".target.port", "unknown input port"⟩] else []) ++
    (match sourcePort, targetPort with
      | some output, some input =>
          if output.valueType ≠ input.valueType then
            [⟨path, "port type mismatch: " ++ output.valueType.text ++ " -> " ++
              input.valueType.text⟩]
          else []
      | _, _ => []) ++
    (match targetPort with
      | some input =>
          if connection.target ∈ seen.map Connection.target ∧ ¬ input.multiple then
            [⟨path ++ ".target", "input port already has a connection"⟩]
          else []
      | none => []) ++
    (if connection ∈ seen then [⟨path, "duplicate connection"⟩] else [])

/-- The connections from a position on, after those that were seen. -/
def connectionIssues (index : Nat) (seen : List Connection) :
    List Connection → List SemanticIssue
  | [] => []
  | connection :: rest =>
      let path := "graph.connections[" ++ toString index ++ "]"
      match primitiveSpec strategy connection.source.componentId,
          primitiveSpec strategy connection.target.componentId with
      | none, _ =>
          ⟨path ++ ".source", "source component is missing or invalid"⟩ ::
            connectionIssues (index + 1) seen rest
      | some _, none =>
          ⟨path ++ ".target", "target component is missing or invalid"⟩ ::
            connectionIssues (index + 1) seen rest
      | some source, some target =>
          portIssues source target connection seen path ++
            connectionIssues (index + 1) (connection :: seen) rest

/-- `dependency_edges`. -/
def dependencyEdges (id : String) : List String :=
  ((linked strategy).filter (fun item => item.source.componentId = id)).map fun item =>
    item.target.componentId

/-- Whether `visit` reports a cycle. The graph has no longer path than it has components. -/
def hasCycle : Bool :=
  (DepthFirst.findsCycle (dependencyEdges strategy) (strategy.graph.components.length + 1)
    strategy.componentIds).getD true

def cycleIssues : List SemanticIssue :=
  if hasCycle strategy then
    [⟨"graph.connections", "component dependency graph contains a cycle"⟩]
  else []

/-- `input_sources`: what the first connection to a port comes from. -/
def inputSource (id port : String) : Option String :=
  ((linked strategy).find? (fun item => item.target = ⟨id, port⟩)).map fun item =>
    item.source.componentId

/-- `all_input_sources`. -/
def inputSources (id port : String) : List String :=
  ((linked strategy).filter (fun item => item.target = ⟨id, port⟩)).map fun item =>
    item.source.componentId

end Connections

section Shapes

variable (strategy : CanonicalStrategyV1)

def requiredInputIssues (component : Component) (primitive : PrimitiveSpec) :
    List SemanticIssue :=
  primitive.inputs.flatMap fun port =>
    if port.required ∧ inputSource strategy component.id port.name = none then
      [⟨componentPath component.id ++ ".inputs." ++ port.name,
        "required input is not connected"⟩]
    else []

/-- Whether a component is known to be of another implementation. -/
def isOther (implementation : String) (id : Option String) : Bool :=
  match id.bind (primitiveSpec strategy) with
  | some primitive => primitive.implementationId ≠ implementation
  | none => false

def cooldownIssues (component : Component) : List SemanticIssue :=
  if isOther strategy "selection.top_n" (inputSource strategy component.id "candidates") then
    [⟨componentPath component.id ++ ".inputs.candidates",
      "cooldown v0 must consume Top N candidates"⟩]
  else []

/-- The asset set that a config names. -/
def referencedAssets (component : Component) (field : String) : Option AssetSetDefinition :=
  match component.config.get? field with
  | some (.text reference) =>
      strategy.definitions.assetSets.find? (fun item => item.id = reference)
  | _ => none

def fallbackIssues (component : Component) : List SemanticIssue :=
  let path := componentPath component.id
  let primaryPath := path ++ ".inputs.primary"
  let primary := inputSource strategy component.id "primary"
  let selected := primary.bind fun id => inputSource strategy id "assets"
  let rank := selected.bind fun id => inputSource strategy id "ranked"
  let filter := rank.bind fun id => inputSource strategy id "scores"
  (match referencedAssets strategy component "fallback_asset_set_ref" with
    | some definition =>
        if definition.assets.length ≠ 1 then
          [⟨path ++ ".config.fallback_asset_set_ref", "fallback v0 requires exactly one asset"⟩]
        else []
    | none => []) ++
  (if isOther strategy "allocation.equal_weight" primary then
    [⟨primaryPath, "fallback v0 primary must be equal-weight targets"⟩]
  else if isOther strategy "selection.top_n" selected then
    [⟨primaryPath, "fallback v0 primary must be Top N equal-weight targets"⟩]
  else if isOther strategy "selection.filter" filter then
    [⟨primaryPath, "fallback v0 primary must use filtered Top N targets"⟩]
  else [])

/-- Whether `str(config.get("name", "")).strip()` is empty. -/
def hasBlankName (component : Component) : Bool :=
  match component.config.get? "name" with
  | none => true
  | some (.text name) => !notBlank name
  | some _ => false

/-- The allocation that a sleeve holds, past a fallback. -/
def sleeveTargets (component : Component) : Option Component :=
  let direct := inputSource strategy component.id "local_targets"
  let source :=
    if (direct.bind (primitiveSpec strategy)).map PrimitiveSpec.implementationId =
        some "targets.fallback_asset" then
      direct.bind fun id => inputSource strategy id "primary"
    else direct
  (source.bind strategy.component?).filter fun item =>
    (getPrimitive item.primitive).map PrimitiveSpec.implementationId =
      some "allocation.equal_weight"

def sleeveIssues (component : Component) : Except Raised (List SemanticIssue) :=
  let path := componentPath component.id
  let named : List SemanticIssue :=
    if hasBlankName component then [⟨path ++ ".config.name", "sleeve name must not be empty"⟩]
    else []
  match (sleeveTargets strategy component).bind fun item =>
      (item.config.get? "total").bind Value.number with
  | none => .ok named
  | some total =>
      match total.differsFrom 1 with
      | .error signal => .error (.arithmetic signal)
      | .ok true =>
          .ok (named ++ [⟨path ++ ".inputs.local_targets", "sleeve local targets must sum to 1"⟩])
      | .ok false => .ok named

/-- The sum of allocations; none where one is not a number or the sum is invalid. -/
def allocationSum (total : Numeral) : List Component → Except Raised (Option Numeral)
  | [] => .ok (some total)
  | sleeve :: rest =>
      match (sleeve.config.get? "allocation").bind Value.number with
      | none => .ok none
      | some allocation =>
          match total.add allocation with
          | .ok sum => allocationSum sum rest
          | .error .invalidOperation => .ok none
          | .error .overflow => .error (.arithmetic .overflow)

def totalIssues (sleeves : List Component) (path : String) :
    Except Raised (List SemanticIssue) :=
  match allocationSum (.ofInt 0) sleeves with
  | .error e => .error e
  | .ok none => .ok []
  | .ok (some total) =>
      match total.differsFrom 1 with
      | .error signal => .error (.arithmetic signal)
      | .ok true => .ok [⟨path, "sleeve allocations must sum to 1"⟩]
      | .ok false => .ok []

def portfolioIssues (component : Component) : Except Raised (List SemanticIssue) := do
  let path := componentPath component.id
  let sleevesPath := path ++ ".inputs.sleeves"
  let ids := inputSources strategy component.id "sleeves"
  let sleeves := ids.filterMap strategy.component?
  let invalid := sleeves.any fun item =>
    (getPrimitive item.primitive).map PrimitiveSpec.implementationId ≠ some "portfolio.sleeve"
  let named : List SemanticIssue :=
    (if hasBlankName component then
      [⟨path ++ ".config.name", "portfolio name must not be empty"⟩] else []) ++
    (if ids.length ≠ 2 then [⟨sleevesPath, "portfolio v0 requires exactly two sleeves"⟩] else []) ++
    (if invalid then [⟨sleevesPath, "portfolio members must be portfolio sleeves"⟩] else [])
  if sleeves.length = ids.length ∧ ids.length = 2 ∧ ¬ invalid then
    return named ++ (← totalIssues sleeves sleevesPath)
  else return named

/-- Issues of the inputs of a component and of the shape around it. -/
def shapeIssues (component : Component) : Except Raised (List SemanticIssue) :=
  match getPrimitive component.primitive with
  | none => .ok []
  | some primitive => do
      let shape ←
        if primitive.implementationId = "selection.cooldown" then
          .ok (cooldownIssues strategy component)
        else if primitive.implementationId = "targets.fallback_asset" then
          .ok (fallbackIssues strategy component)
        else if primitive.implementationId = "portfolio.sleeve" then sleeveIssues strategy component
        else if primitive.implementationId = "portfolio.compose" then
          portfolioIssues strategy component
        else .ok []
      return requiredInputIssues strategy component primitive ++ shape

end Shapes

section Collection

variable (strategy : CanonicalStrategyV1)

def entrypointIssues : List SemanticIssue :=
  strategy.entrypoints.zipIdx.flatMap fun (entrypoint, index) =>
    let path := "entrypoints[" ++ toString index ++ "]"
    (match primitiveSpec strategy entrypoint.eventComponentId with
      | none => [⟨path ++ ".event_component_id", "event component is missing"⟩]
      | some event =>
          if event.category ≠ .event then
            [⟨path ++ ".event_component_id", "component is not an event"⟩]
          else []) ++
    (if entrypoint.targetComponentId ∈ strategy.componentIds then []
    else [⟨path ++ ".target_component_id", "target component is missing"⟩])

/-- The issues of a check. -/
def issuesOf {α : Type} : Except CheckFailure α → Except Raised (List SemanticIssue)
  | .ok _ => .ok []
  | .error (.semantic issues) => .ok issues
  | .error (.raised e) => .error e

def actionIssues (actions : List Action) (path : String) : Except Raised (List SemanticIssue) :=
  (actions.zipIdx.mapM fun (item : Action × Nat) =>
    issuesOf (validateAction strategy (path ++ "[" ++ toString item.2 ++ "]") item.1)).map
      List.flatten

/-- Issues of the expressions of a component. -/
def expressionIssues (component : Component) : Except Raised (List SemanticIssue) := do
  let path := componentPath component.id
  let condition ← match component.condition with
    | none => .ok []
    | some condition => issuesOf (requireType strategy condition .boolean (path ++ ".condition"))
  let value ← match component.valueExpression with
    | none => .ok []
    | some value => issuesOf (expressionType strategy (path ++ ".value_expression") value)
  let candidate : List SemanticIssue :=
    if component.primitive = "rule@1" ∧
        (component.condition.map Expression.namesCandidate).getD false then
      [⟨path ++ ".condition", "Predicate cannot reference the Selection candidate"⟩]
    else []
  let actions ← actionIssues strategy component.actions (path ++ ".actions")
  let elseActions ← actionIssues strategy component.elseActions (path ++ ".else_actions")
  return condition ++ value ++ candidate ++ actions ++ elseActions

/-- `collect_semantic_issues`. -/
def collectSemanticIssues : Except Raised (List SemanticIssue) := do
  let shapes ← strategy.graph.components.mapM (shapeIssues strategy)
  let expressions ← strategy.graph.components.mapM (expressionIssues strategy)
  return groupIssues strategy ++ universeIssues strategy ++
    strategy.graph.components.flatMap (componentIssues strategy) ++
    connectionIssues strategy 0 [] strategy.graph.connections ++ cycleIssues strategy ++
    shapes.flatten ++ entrypointIssues strategy ++ expressions.flatten

/-- How `validate_strategy_v1` refuses: by the first of its issues, or by an exception
that it does not declare. -/
inductive Refusal where
  | semantic (issue : SemanticIssue)
  | raised (error : Raised)
  deriving DecidableEq, Repr

/-- `validate_strategy_v1`. -/
def validateStrategyV1 : Except Refusal PUnit.{1} :=
  match collectSemanticIssues strategy with
  | .error e => .error (.raised e)
  | .ok [] => .ok ⟨⟩
  | .ok (issue :: _) => .error (.semantic issue)

end Collection

end RuleTrade.V1
