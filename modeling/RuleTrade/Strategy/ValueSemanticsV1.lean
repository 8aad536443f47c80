import Mathlib.Data.List.DropRight
import RuleTrade.Backend.GeneratedSelection
import RuleTrade.IR.Strategy
import RuleTrade.Strategy.ValidationV1

/-! Values of expressions: what the evaluator observes in the price datasets, and the
executable values that expressions compile to. -/

namespace RuleTrade.V1

open Library

section Numbers

/-- `Decimal(str(value))`; none where it raises. -/
def Value.extended (value : Value) : Option ExtendedDecimal :=
  value.number.map fun number => match number with
    | .finite .. => .finite number.value
    | .infinite negative => .infinite negative
    | .nan _ => .nan

/-- `int(text)`: digits with single underscores between them. -/
def readInt (text : String) : Option Int :=
  let (negative, rest) := Numeral.readSign (strip text.toList)
  let groups := rest.splitOn '_'
  if groups.all fun group => group ≠ [] && group.all Char.isDigit then
    some (Numeral.signed negative (Numeral.digitsValue groups.flatten))
  else none

/-- The whole part of a finite numeral. -/
def wholePart : Numeral → Option Int
  | .finite negative coefficient exponent =>
      some (Numeral.signed negative
        (coefficient * 10 ^ exponent.toNat / 10 ^ (-exponent).toNat))
  | _ => none

/-- `int(value)`; none where it raises. -/
def Value.int : Value → Option Int
  | .boolean flag => some (if flag then 1 else 0)
  | .integer n => some n
  | .float repr => Numeral.read repr >>= wholePart
  | .decimal number => wholePart number
  | .text t => readInt t
  | _ => none

end Numbers

section Datasets

/-- How an evaluation ends without evidence. -/
inductive EvaluationFailure where
  | value (code message : String)
  | dataset (message : String)
  | conversion
  | invalidOperation
  | indexOutOfRange
  deriving DecidableEq, Repr

def EvaluationFailure.code : EvaluationFailure → Option String
  | .value code _ => some code
  | _ => none

/-- A table of prices, in the order of its dates. A cell that is no number is missing. -/
structure PriceFrame where
  dates : List CalendarDate
  columns : Dict String (List (Option ℚ))
  ordered : (dates.map CalendarDate.toOrdinal).Pairwise (· < ·)
  aligned : ∀ column ∈ columns.values, column.length = dates.length

/-- The tables by dataset id. -/
abbrev DatasetRegistry := Dict String PriceFrame

def isDatasetId (text : String) : Bool :=
  text.toList ≠ [] && text.toList.all fun c => c.isAlphanum || c = '.' || c = '_' || c = '-'

def DatasetRegistry.resolve (datasets : DatasetRegistry) (id : String) :
    Except EvaluationFailure PriceFrame :=
  if isDatasetId id then
    (datasets.get? id).elim (.error (.dataset ("dataset not found: " ++ id))) .ok
  else .error (.dataset "invalid dataset id")

/-- `load_prices` of one symbol. -/
def PriceFrame.loadPrices (frame : PriceFrame) (symbol : String) :
    Except EvaluationFailure (List (CalendarDate × ℚ)) :=
  match frame.columns.get? symbol with
  | none => .error (.dataset ("dataset is missing symbols: " ++ symbol))
  | some column =>
      let prices := column.filterMap id
      if column.any Option.isNone then
        .error (.dataset "dataset contains missing or non-numeric prices")
      else if prices.any (· ≤ 0) then .error (.dataset "all prices must be positive")
      else if prices.length < 2 then .error (.dataset "dataset must contain at least two rows")
      else .ok (frame.dates.zip prices)

end Datasets

section Requests

inductive EvaluationContext where
  | research | historical
  deriving DecidableEq, Repr

/-- `StrategyValueProvenance`. -/
structure ValueProvenance where
  componentId : String
  fieldPath : String
  deriving DecidableEq, Repr

structure ValueEvaluationRequest where
  datasetId : String
  expression : Expression
  asOf : CalendarDate
  context : EvaluationContext
  candidateAsset : Option String := none
  provenance : Option ValueProvenance := none

inductive SubjectKind where
  | asset | candidate
  deriving DecidableEq, Repr

structure SemanticValueEvidence where
  subjectKind : SubjectKind
  subjectId : String
  valueDefinition : Expression
  valueType : ValueType
  observed : ℚ
  asOf : CalendarDate
  observedAt : CalendarDate
  context : EvaluationContext
  providerId : String
  provenance : Option ValueProvenance

end Requests

section Subjects

variable (candidateAsset : Option String)

/-- How far the subject of a value has been opened: down to its asset or series, or down to
the subject of a series. -/
inductive Opened where
  | nothing | value | series

def unsupportedSubject : EvaluationFailure :=
  .value "unsupported_subject" "Value requires an explicit Asset or current Candidate."

def candidateSubject : Except EvaluationFailure (SubjectKind × String) :=
  match candidateAsset with
  | none | some "" =>
      .error (.value "candidate_context_required" "Candidate requires a Selection context.")
  | some symbol => .ok (.candidate, symbolText symbol)

/-- Operands are tried in turn while they support no subject. -/
def firstSubject (first second : Except EvaluationFailure (SubjectKind × String)) :
    Except EvaluationFailure (SubjectKind × String) :=
  match first with
  | .ok found => .ok found
  | .error failure => if failure.code = some "unsupported_subject" then second else .error failure

/-- `_subject`. -/
def subjectOf : Opened → Expression → Except EvaluationFailure (SubjectKind × String)
  | .nothing, .price asset => subjectOf .value asset
  | .nothing, .indicator _ asset _ => subjectOf .value asset
  | .nothing, .current series => subjectOf .value series
  | .nothing, .rollingAggregate _ series _ => subjectOf .value series
  | .nothing, .marketSeries _ subject => subjectOf .series subject
  | .value, .marketSeries _ subject => subjectOf .series subject
  | _, .candidate => candidateSubject candidateAsset
  | _, .literal .asset (.text symbol) => .ok (.asset, symbolText symbol)
  | _, .arithmetic _ left right =>
      firstSubject (subjectOf .nothing left) (subjectOf .nothing right)
  | _, _ => .error unsupportedSubject

/-- `_asset`. -/
def assetOf (expression : Expression) : Except EvaluationFailure String :=
  (subjectOf candidateAsset .nothing expression).map Prod.snd

end Subjects

section Depth

def maxExpressionDepth : Nat := 8

def checkDepth (depth : Nat) : Except EvaluationFailure PUnit.{1} :=
  if maxExpressionDepth < depth then
    .error (.value "expression_too_deep" "Value expression exceeds depth 8.")
  else .ok ⟨⟩

/-- `_require_depth`. -/
def requireDepth : Expression → Nat → Except EvaluationFailure PUnit.{1}
  | .price inner, depth | .indicator _ inner _, depth | .marketSeries _ inner, depth
  | .current inner, depth | .rollingAggregate _ inner _, depth => do
      checkDepth depth
      requireDepth inner (depth + 1)
  | .arithmetic _ left right, depth => do
      checkDepth depth
      requireDepth left (depth + 1)
      requireDepth right (depth + 1)
  | _, depth => checkDepth depth

end Depth

/-- `DatasetValueEvaluator`, with the arithmetic it runs in. -/
structure DatasetValueEvaluator where
  datasets : DatasetRegistry
  context : DecimalContext

/-- A scalar, when it was observed, and its type. -/
structure Observation where
  value : ℚ
  observedAt : CalendarDate
  type : ValueType

namespace DatasetValueEvaluator

def maxWindowObservations : Nat := 1000

section Prices

variable (self : DatasetValueEvaluator) (datasetId : String) (asOf : CalendarDate)

/-- `_prices`. -/
def prices (symbol : String) (count : Nat) : Except EvaluationFailure (List (CalendarDate × ℚ)) :=
  if 1 ≤ count ∧ count ≤ maxWindowObservations + 1 then do
    let frame ← self.datasets.resolve datasetId
    let rows ← frame.loadPrices symbol
    let past := rows.filter fun row => row.1.toOrdinal ≤ asOf.toOrdinal
    let window := past.rtake count
    if window.length < count then
      .error (.value "insufficient_history" (symbol ++ " has " ++ toString window.length ++
        " completed observations; " ++ toString count ++ " are required."))
    else .ok window
  else .error (.value "invalid_window" "Requested observation window is out of bounds.")

end Prices

section Scalars

variable (ctx : DecimalContext)

def latest (window : List (CalendarDate × ℚ)) : Except EvaluationFailure (CalendarDate × ℚ) :=
  window.getLast?.elim (.error .indexOutOfRange) .ok

def earliest (window : List (CalendarDate × ℚ)) : Except EvaluationFailure (CalendarDate × ℚ) :=
  window.head?.elim (.error .indexOutOfRange) .ok

/-- The aggregate of sorted numbers. -/
def aggregate (operator : AggregateOperator) (numbers : List ℚ) : ℚ :=
  let midpoint := numbers.length / 2
  match operator with
  | .mean => ctx.quot (ctx.sum numbers) numbers.length
  | .median =>
      if numbers.length % 2 = 1 then numbers.getD midpoint 0
      else ctx.quot (ctx.add (numbers.getD (midpoint - 1) 0) (numbers.getD midpoint 0)) 2
  | .min => numbers.head?.getD 0
  | .max => numbers.getLast?.getD 0

def operate (operator : ArithmeticOperator) (left right : ℚ) : Except EvaluationFailure ℚ :=
  match operator with
  | .add => .ok (ctx.add left right)
  | .subtract => .ok (ctx.sub left right)
  | .multiply => .ok (ctx.mul left right)
  | .divide =>
      match ctx.div left right with
      | .ok observed => .ok observed
      | .error .divisionByZero =>
          .error (.value "division_by_zero" "Value expression divides by zero.")
      | .error .invalidOperation => .error .invalidOperation

/-- The type reported for an operator. -/
def resultType (operator : ArithmeticOperator) (left right : ValueType) : ValueType :=
  match operator with
  | .multiply => if left = .decimal then right else if right = .decimal then left else .decimal
  | .add | .subtract => if left = right then left else .decimal
  | .divide => if right = .decimal then left else .decimal

def isObservable (type : ValueType) : Bool :=
  type = .decimal || type = .percentage || type = .money || type = .moneyPerShare

def laterDate (x y : CalendarDate) : CalendarDate := if x.toOrdinal < y.toOrdinal then y else x

end Scalars

section Evaluation

variable (self : DatasetValueEvaluator) (datasetId : String) (asOf : CalendarDate)
  (candidateAsset : Option String)

/-- `_series`. -/
def series (expression : Expression) (count : Nat) :
    Except EvaluationFailure (List (CalendarDate × ℚ) × ValueType) :=
  match expression with
  | .marketSeries .volume _ => .error (.value "provider_field_unavailable"
      "The repository CSV provider contains adjusted prices but no volume.")
  | .marketSeries .price subject => do
      let symbol ← assetOf candidateAsset subject
      let window ← self.prices datasetId asOf symbol count
      pure (window, .moneyPerShare)
  | _ => .error (.value "expected_series" "Current and rolling aggregates require a series.")

def trailingReturn (asset : Expression) (parameters : Dict String Value) :
    Except EvaluationFailure Observation := do
  let lookback ← ((parameters.getD "lookback_bars" (.integer 0)).int).elim (.error .conversion) .ok
  if 1 ≤ lookback ∧ lookback ≤ maxWindowObservations then do
    let symbol ← assetOf candidateAsset asset
    let window ← self.prices datasetId asOf symbol (lookback.toNat + 1)
    let last ← latest window
    let first ← earliest window
    pure ⟨self.context.sub (self.context.quot last.2 first.2) 1, last.1, .percentage⟩
  else .error (.value "invalid_window" "lookback_bars must be between 1 and 1000.")

/-- `_scalar`. -/
def scalar : Expression → Except EvaluationFailure Observation
  | .price asset => do
      let symbol ← assetOf candidateAsset asset
      let window ← self.prices datasetId asOf symbol 1
      let last ← latest window
      pure ⟨last.2, last.1, .moneyPerShare⟩
  | .current inner => do
      let (window, type) ← self.series datasetId asOf candidateAsset inner 1
      let last ← latest window
      pure ⟨last.2, last.1, type⟩
  | .rollingAggregate operator inner windowObservations => do
      let (window, type) ← self.series datasetId asOf candidateAsset inner windowObservations
      let numbers := Sequence.sortBy id (window.map Prod.snd)
      let last ← latest window
      pure ⟨aggregate self.context operator numbers, last.1, type⟩
  | .indicator indicatorId asset parameters =>
      if indicatorId = "trailing_return_indicator@1" then
        self.trailingReturn datasetId asOf candidateAsset asset parameters
      else .error (.value "unsupported_measure" "This evaluator supports trailing return only.")
  | .arithmetic operator left right => do
      let first ← scalar left
      let second ← scalar right
      let observed ← operate self.context operator first.value second.value
      pure ⟨observed, laterDate first.observedAt second.observedAt, resultType operator first.type second.type⟩
  | .literal valueType value =>
      if isObservable valueType then
        match value.extended with
        | some (.finite number) => .ok ⟨number, asOf, valueType⟩
        | _ => .error .conversion
      else .error (.value "unsupported_expression" "Expression is not dataset-evaluable.")
  | .groupRef _ => .error (.value "undefined_group_observation"
      "A Group has membership identity only; NAV and across-member aggregation are deferred.")
  | _ => .error (.value "unsupported_expression" "Expression is not dataset-evaluable.")

end Evaluation

def evaluate (self : DatasetValueEvaluator) (request : ValueEvaluationRequest) :
    Except EvaluationFailure SemanticValueEvidence := do
  requireDepth request.expression 1
  let (kind, id) ← subjectOf request.candidateAsset .nothing request.expression
  let scalar ← self.scalar request.datasetId request.asOf request.candidateAsset request.expression
  pure {
    subjectKind := kind
    subjectId := id
    valueDefinition := request.expression
    valueType := scalar.type
    observed := scalar.value
    asOf := request.asOf
    observedAt := scalar.observedAt
    context := request.context
    providerId := "ruletrade-price-csv"
    provenance := request.provenance }

end DatasetValueEvaluator

section Compilation

/-- How a value fails to compile. -/
inductive DesugaringFailure where
  | desugaring (message : String)
  | keyError
  | conversion
  deriving DecidableEq, Repr

/-- Types an executable value can have. -/
def executableType : ValueType → Option LeanValueType
  | .decimal => some .decimal
  | .percentage => some .percentage
  | .moneyPerShare => some .moneyPerShare
  | _ => none

def AggregateOperator.executable : AggregateOperator → LeanAggregate
  | .mean => .mean
  | .median => .median
  | .min => .min
  | .max => .max

variable (candidateAllowed : Bool)

/-- The subject of a market value. What is read is named in the failure. -/
def compileSubject (reading : String) (subject : Expression) :
    Except DesugaringFailure (ExecutableSubject × Option String) :=
  let refused := .error (.desugaring ("executable " ++ reading ++
    " requires an Asset or in-scope Candidate"))
  match subject with
  | .candidate => if candidateAllowed then .ok (.candidate, none) else refused
  | .literal .asset (.text symbol) => .ok (.asset, some symbol)
  | _ => refused

def unsupportedValue : DesugaringFailure := .desugaring
  "Strategy execution supports trailing return, current price, rolling price aggregate, literal, and scalar scale"

def readDecimal (value : Value) : Except DesugaringFailure ExtendedDecimal :=
  value.extended.elim (.error .conversion) .ok

def compileLookback (parameters : Dict String Value) : Except DesugaringFailure Int :=
  match parameters.get? "lookback_bars" with
  | none => .error .keyError
  | some value => value.int.elim (.error .conversion) .ok

def decimalLiteral : Expression → Option Value
  | .literal .decimal value => some value
  | _ => none

/-- `_compile_value`. A product scales by its right operand when that is a decimal literal. -/
def compileValue : Expression → Except DesugaringFailure ExecutableValue
  | .literal valueType value =>
      match executableType valueType with
      | none => .error unsupportedValue
      | some type => do
          let literal ← readDecimal value
          pure { kind := .literal, valueType := type, literal := some literal }
  | .indicator indicatorId asset parameters =>
      if indicatorId = "trailing_return_indicator@1" then do
        let (subject, symbol) ← compileSubject candidateAllowed "trailing return" asset
        let observations ← compileLookback parameters
        pure { kind := .trailingReturn, valueType := .percentage, subject := some subject
               asset := symbol, observations := some observations }
      else .error unsupportedValue
  | .current (.marketSeries .volume _) => .error (.desugaring
      "current Volume is not executable with the maintained data contract")
  | .current (.marketSeries .price inner) => do
      let (subject, symbol) ← compileSubject candidateAllowed "current price" inner
      pure { kind := .currentPrice, valueType := .moneyPerShare, subject := some subject
             asset := symbol }
  | .rollingAggregate _ (.marketSeries .volume _) _ => .error (.desugaring
      "rolling Volume is not executable with the maintained data contract")
  | .rollingAggregate operator (.marketSeries .price inner) windowObservations => do
      let (subject, symbol) ← compileSubject candidateAllowed "rolling price" inner
      pure { kind := .rollingPrice, valueType := .moneyPerShare, subject := some subject
             asset := symbol, observations := some (windowObservations : Int)
             aggregate := some operator.executable }
  | .arithmetic .multiply left right =>
      match decimalLiteral right, decimalLiteral left with
      | some factor, _ => do
          let operand ← compileValue left
          let factor ← readDecimal factor
          pure (scaled operand factor)
      | none, some factor => do
          let operand ← compileValue right
          let factor ← readDecimal factor
          pure (scaled operand factor)
      | none, none => .error unsupportedValue
  | _ => .error unsupportedValue
where
  scaled (operand : ExecutableValue) (factor : ExtendedDecimal) : ExecutableValue :=
    { kind := .scale, valueType := operand.valueType, operand := some operand
      factor := some factor }

def lowerSubject (asset : Option String) : ExecutableSubject → LeanSubject
  | .candidate => .candidate
  | .asset => .asset asset

/-- `_lower_value`, with the fields that the generator reads for its kind; none where one of
them is missing. -/
def lowerValue : ExecutableValue → Option LeanValue
  | ⟨.literal, type, _, _, some (.finite literal), _, _, _, _⟩ => some (.literal type literal)
  | ⟨.trailingReturn, _, some subject, asset, _, some (.ofNat observations), _, _, _⟩ =>
      some (.trailingReturn (lowerSubject asset subject) observations)
  | ⟨.currentPrice, _, some subject, asset, _, _, _, _, _⟩ =>
      some (.currentPrice (lowerSubject asset subject))
  | ⟨.rollingPrice, _, some subject, asset, _, some (.ofNat observations), some aggregate, _, _⟩ =>
      some (.rollingPrice (lowerSubject asset subject) observations aggregate)
  | ⟨.scale, _, _, _, _, _, _, some operand, some (.finite factor)⟩ =>
      (lowerValue operand).map (LeanValue.scale · factor)
  | _ => none

end Compilation

end RuleTrade.V1
