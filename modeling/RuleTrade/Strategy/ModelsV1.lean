import RuleTrade.Strategy.RegistryV1

/-! Canonical strategies of the first version: definitions, expressions, actions and the
component graph. -/

namespace RuleTrade.V1

open Library

section Definitions

structure AssetSetDefinition where
  id : String
  assets : List String
  deriving DecidableEq, Repr

structure GroupDefinition where
  id : String
  name : String
  assetSetRef : String
  description : String := ""
  deriving DecidableEq, Repr

inductive UniverseSource where
  | assetSet | group | provider
  deriving DecidableEq, Repr

def UniverseSource.text : UniverseSource → String
  | .assetSet => "asset_set"
  | .group => "group"
  | .provider => "provider"

structure UniverseDefinition where
  id : String
  name : String
  source : UniverseSource
  assetSetRef : Option String := none
  groupRef : Option String := none
  providerId : Option String := none
  query : Option String := none
  deriving DecidableEq, Repr

structure ParameterDefinition where
  id : String
  valueType : ValueType
  default : Value
  deriving Repr

structure StateDefinition where
  id : String
  valueType : ValueType
  initial : Value
  deriving Repr

structure StrategyDefinitions where
  assetSets : List AssetSetDefinition := []
  groups : List GroupDefinition := []
  universes : List UniverseDefinition := []
  parameters : List ParameterDefinition := []
  state : List StateDefinition := []
  deriving Repr

end Definitions

section Expressions

inductive MarketField where
  | price | volume
  deriving DecidableEq, Repr

inductive AggregateOperator where
  | mean | median | min | max
  deriving DecidableEq, Repr

inductive ArithmeticOperator where
  | add | subtract | multiply | divide
  deriving DecidableEq, Repr

inductive ComparisonOperator where
  | lt | lte | eq | neq | gte | gt
  deriving DecidableEq, Repr

inductive BooleanOperator where
  | and | or
  deriving DecidableEq, Repr

def MarketField.text : MarketField → String
  | .price => "price"
  | .volume => "volume"

def AggregateOperator.text : AggregateOperator → String
  | .mean => "mean"
  | .median => "median"
  | .min => "min"
  | .max => "max"

def ArithmeticOperator.text : ArithmeticOperator → String
  | .add => "add"
  | .subtract => "subtract"
  | .multiply => "multiply"
  | .divide => "divide"

def ComparisonOperator.text : ComparisonOperator → String
  | .lt => "lt"
  | .lte => "lte"
  | .eq => "eq"
  | .neq => "neq"
  | .gte => "gte"
  | .gt => "gt"

def BooleanOperator.text : BooleanOperator → String
  | .and => "and"
  | .or => "or"

inductive Expression where
  | literal (valueType : ValueType) (value : Value)
  | parameterRef (parameterId : String)
  | stateRef (stateId : String)
  | candidate
  | groupRef (groupId : String)
  | marketSeries (field : MarketField) (subject : Expression)
  | current (series : Expression)
  | rollingAggregate (operator : AggregateOperator) (series : Expression) (windowObservations : Nat)
  | price (asset : Expression)
  | averageCost (asset : Expression)
  | indicator (indicatorId : String) (asset : Expression) (parameters : Dict String Value)
  | componentOutput (componentId : String) (port : String)
  | arithmetic (operator : ArithmeticOperator) (left right : Expression)
  | comparison (operator : ComparisonOperator) (left right : Expression)
  | boolean (operator : BooleanOperator) (operands : List Expression)
  | negation (operand : Expression)

inductive Action where
  | buy (asset quantity : Expression)
  | sell (asset quantity : Expression)
  | liquidate (asset : Expression)
  | setTarget (asset weight : Expression)
  | rebalance (targets : Expression)
  | setState (stateId : String) (value : Expression)
  | incrementState (stateId : String) (amount : Expression)
  | emitSignal (name : String) (value : Option Expression)

end Expressions

section Graph

structure Component where
  id : String
  primitive : String
  config : Dict String Value := Dict.empty
  condition : Option Expression := none
  valueExpression : Option Expression := none
  actions : List Action := []
  elseActions : List Action := []

structure PortReference where
  componentId : String
  port : String
  deriving DecidableEq, Repr

structure Connection where
  source : PortReference
  target : PortReference
  deriving DecidableEq, Repr

structure Entrypoint where
  eventComponentId : String
  targetComponentId : String
  deriving DecidableEq, Repr

structure StrategyGraph where
  components : List Component
  connections : List Connection := []

/-- `StrategyMetadata`. -/
structure Metadata where
  name : String
  description : String := ""
  tags : List String := []
  deriving DecidableEq, Repr

structure CanonicalStrategyV1 where
  metadata : Metadata
  randomSeed : Int := 0
  definitions : StrategyDefinitions := {}
  graph : StrategyGraph
  entrypoints : List Entrypoint

namespace CanonicalStrategyV1

def componentIds (strategy : CanonicalStrategyV1) : List String :=
  strategy.graph.components.map Component.id

def assetSetIds (strategy : CanonicalStrategyV1) : List String :=
  strategy.definitions.assetSets.map AssetSetDefinition.id

/-- The component of an id. -/
def component? (strategy : CanonicalStrategyV1) (id : String) : Option Component :=
  strategy.graph.components.find? (fun item => item.id = id)

def withComponents (strategy : CanonicalStrategyV1) (components : List Component) :
    CanonicalStrategyV1 :=
  { strategy with graph := { strategy.graph with components } }

def withConnections (strategy : CanonicalStrategyV1) (connections : List Connection) :
    CanonicalStrategyV1 :=
  { strategy with graph := { strategy.graph with connections } }

def withAssetSets (strategy : CanonicalStrategyV1) (assetSets : List AssetSetDefinition) :
    CanonicalStrategyV1 :=
  { strategy with definitions := { strategy.definitions with assetSets } }

end CanonicalStrategyV1

/-- `Identifier`: a letter, then letters, digits, underscores and hyphens, at most 100
characters. -/
def isIdentifierText (text : String) : Bool :=
  text.length ≤ 100 &&
    match text.toList with
    | [] => false
    | c :: rest => c.isAlpha && rest.all (fun d => d.isAlphanum || d = '_' || d = '-')

/-- What reading a document as a strategy ensures of its ids. -/
structure CanonicalStrategyV1.WellFormed (strategy : CanonicalStrategyV1) : Prop where
  components : strategy.componentIds.Nodup
  assetSets : strategy.assetSetIds.Nodup
  groups : (strategy.definitions.groups.map GroupDefinition.id).Nodup
  universes : (strategy.definitions.universes.map UniverseDefinition.id).Nodup
  parameters : (strategy.definitions.parameters.map ParameterDefinition.id).Nodup
  state : (strategy.definitions.state.map StateDefinition.id).Nodup
  identifiers : ∀ id ∈ strategy.componentIds, isIdentifierText id = true

end Graph

end RuleTrade.V1
