import RuleTrade.Strategy.SemanticTypes
import RuleTrade.Library.Json

/-! The daily Value algebra: finite expression nodes with explicit operator
parameters, their inferred types, and the documents they are addressed by. -/

namespace RuleTrade

open Library

inductive SubjectKind where
  | asset
  | candidate
  | groupMembers
  deriving DecidableEq, Repr

inductive MarketField where
  | open
  | high
  | low
  | close
  | volume
  deriving DecidableEq, Repr

inductive PriceBasis where
  | raw
  | adjusted
  | rawShares
  deriving DecidableEq, Repr

inductive ReductionOperation where
  | mean
  | median
  | min
  | max
  | std
  deriving DecidableEq, Repr

inductive MissingPolicy where
  | requireAll
  | skipWithCoverage
  deriving DecidableEq, Repr

inductive ArithmeticOperator where
  | add
  | subtract
  | multiply
  | divide
  deriving DecidableEq, Repr

/-- Kinds that turn a series into a series. -/
inductive IndicatorKind where
  | trailingReturn
  | sma
  | ema
  | rsiWilderLeanCompat
  | realizedVolatility
  deriving DecidableEq, Repr

/-- Address and subject, which every node may carry. -/
structure NodeAttrs where
  semanticId : String
  subjectKind : Option SubjectKind := none
  subjectId : Option String := none
  bindingId : Option String := none
  deriving DecidableEq, Repr

inductive DailyValueNode where
  | literal (attrs : NodeAttrs) (value : ℚ) (quantity : Quantity) (unit : Unit)
      (refinement : Option String)
  | observe (attrs : NodeAttrs) (field : MarketField) (basis : PriceBasis)
  | current (attrs : NodeAttrs) (operand : DailyValueNode)
  | history (attrs : NodeAttrs) (observations skip : Nat) (operand : DailyValueNode)
  | indicator (attrs : NodeAttrs) (kind : IndicatorKind) (observations skip : Nat)
      (operand : DailyValueNode)
  | absolute (attrs : NodeAttrs) (operand : DailyValueNode)
  | reduce (attrs : NodeAttrs) (axis : AxisName) (reduction : ReductionOperation)
      (missingPolicy : MissingPolicy) (minimumCount : Nat) (minimumFraction : ℚ)
      (operand : DailyValueNode)
  | arithmetic (attrs : NodeAttrs) (operator : ArithmeticOperator) (left right : DailyValueNode)
  deriving DecidableEq

namespace DailyValueNode

def attrs : DailyValueNode → NodeAttrs
  | .literal a _ _ _ _ | .observe a _ _ | .current a _ | .history a _ _ _ | .indicator a _ _ _ _
  | .absolute a _ | .reduce a _ _ _ _ _ _ | .arithmetic a _ _ _ => a

def semanticId (node : DailyValueNode) : String := node.attrs.semanticId

/-- The node and everything under it, right operands before left ones. -/
def nodes : DailyValueNode → List DailyValueNode
  | .arithmetic a op l r => .arithmetic a op l r :: (r.nodes ++ l.nodes)
  | .current a x => .current a x :: x.nodes
  | .history a n k x => .history a n k x :: x.nodes
  | .indicator a i n k x => .indicator a i n k x :: x.nodes
  | .absolute a x => .absolute a x :: x.nodes
  | .reduce a axis op policy count fraction x =>
      .reduce a axis op policy count fraction x :: x.nodes
  | .literal a v q u r => [.literal a v q u r]
  | .observe a f b => [.observe a f b]

end DailyValueNode

/-- Type of an observation under the Candidate binder in scope. -/
def observeType (attrs : NodeAttrs) (field : MarketField) (basis : PriceBasis)
    (bindingId : Option String) : Except SemanticTypeError SemanticType :=
  if attrs.subjectKind = some .candidate ∧ attrs.bindingId ≠ bindingId then .error .unboundCandidate
  else
    let axes := if attrs.subjectKind = some .groupMembers then
      [Axis.asset (attrs.subjectId.getD "")] else []
    if field = .volume then
      .ok { dtype := .decimal, quantity := .volume, unit := .shares,
            refinement := some "daily_trade_volume:raw_shares", axes := axes,
            clock := some { id := "daily-close" } }
    else
      .ok { dtype := .decimal, quantity := .price, unit := .usdPerShare,
            refinement := some (if basis = .raw then "raw_ohlc" else "adjusted_close"),
            axes := axes, clock := some { id := "daily-close" } }

/-- Result type of an indicator over a source of type `left`. -/
def indicatorType (kind : IndicatorKind) (left : SemanticType) :
    Except SemanticTypeError SemanticType :=
  match kind with
  | .trailingReturn =>
      .ok { left with
        quantity := .return, unit := .ratio,
        refinement := some ("trailing_return:" ++ left.refinement.getD "None") }
  | .sma | .ema =>
      if left.quantity ≠ .price then .error .indicatorInputRequiresPrice else .ok left
  | .rsiWilderLeanCompat =>
      if left.quantity ≠ .price then .error .indicatorInputRequiresPrice
      else .ok { left with
        quantity := .oscillator, unit := .points, refinement := some "rsi_wilder_lean_compat@1" }
  | .realizedVolatility =>
      if left.quantity ≠ .price then .error .indicatorInputRequiresPrice
      else .ok { left with
        quantity := .return, unit := .ratio,
        refinement := some "realized_volatility:simple_return:sample:annualized_252@1" }

def arithmeticType (operator : ArithmeticOperator) (left right : SemanticType) :
    Except SemanticTypeError SemanticType :=
  match operator with
  | .add | .subtract => do
      let _ ← requireCompatibleValues left right
      let axes ← alignedAxes left right
      .ok { left with axes := axes }
  | .multiply =>
      if left.quantity = .score ∧ left.unit = .ratio then do
        let axes ← alignedAxes left right
        .ok { right with axes := axes }
      else if right.quantity = .score ∧ right.unit = .ratio then do
        let axes ← alignedAxes left right
        .ok { left with axes := axes }
      else .error .invalidMultiplySignature
  | .divide =>
      if left.quantity = right.quantity ∧ left.unit = right.unit ∧
          left.refinement = right.refinement then do
        let axes ← alignedAxes left right
        .ok { dtype := .decimal, quantity := .score, unit := .ratio, refinement := some "ratio",
              axes := axes, clock := left.clock.or right.clock }
      else .error .invalidDivideSignature

def inferDailyType (bindingId : Option String) :
    DailyValueNode → Except SemanticTypeError SemanticType
  | .literal _ _ quantity unit refinement =>
      .ok { dtype := .decimal, quantity := quantity, unit := unit, refinement := refinement }
  | .observe attrs field basis => observeType attrs field basis bindingId
  | .current _ operand | .absolute _ operand => inferDailyType bindingId operand
  | .history _ observations skip operand => do
      let left ← inferDailyType bindingId operand
      .ok { left with axes := left.axes ++ [.time observations skip] }
  | .indicator _ kind _ _ operand => do
      let left ← inferDailyType bindingId operand
      indicatorType kind left
  | .reduce _ axis _ _ _ _ operand => do
      let left ← inferDailyType bindingId operand
      let axes := left.axes.filter (fun a => a.name ≠ axis)
      if axes.length = left.axes.length then .error .reductionAxisAbsent
      else .ok { left with axes := axes }
  | .arithmetic _ operator l r => do
      let left ← inferDailyType bindingId l
      let right ← inferDailyType bindingId r
      arithmeticType operator left right

end RuleTrade
