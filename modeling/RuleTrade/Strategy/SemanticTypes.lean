import Mathlib.Algebra.Order.BigOperators.Group.List

/-! Semantic types of Values: what a number measures, in which unit, and over
which axes. Axis domains are part of compatibility. -/

namespace RuleTrade

inductive SemanticDType where
  | decimal
  | integer
  | truth
  deriving DecidableEq, Repr

inductive Quantity where
  | price
  | return
  | volume
  | oscillator
  | score
  | money
  | weight
  | count
  | truth
  deriving DecidableEq, Repr

inductive Unit where
  | usdPerShare
  | usd
  | ratio
  | points
  | shares
  | count
  | truth
  deriving DecidableEq, Repr

inductive AxisName where
  | asset
  | time
  deriving DecidableEq, Repr

/-- A named coordinate axis with its domain. A time domain is a window of
completed observations; its text spells out the two numbers. -/
inductive Axis where
  | asset (domainId : String)
  | time (observations skip : Nat)
  deriving DecidableEq, Repr

structure Clock where
  id : String
  completedObservationsOnly : Bool := true
  sampling : String := "daily"
  deriving DecidableEq, Repr

structure SemanticType where
  dtype : SemanticDType
  quantity : Quantity
  unit : Unit
  refinement : Option String := none
  axes : List Axis := []
  clock : Option Clock := none
  deriving DecidableEq, Repr

def AxisName.text : AxisName → String
  | .asset => "asset"
  | .time => "time"

def Axis.name : Axis → AxisName
  | .asset _ => .asset
  | .time _ _ => .time

def Axis.domainText : Axis → String
  | .asset domainId => domainId
  | .time observations skip =>
      "daily-close:observations:" ++ toString observations ++ ":skip:" ++ toString skip

/-- Failures of type inference. -/
inductive SemanticTypeError where
  | unitMismatch
  | clockAlignmentRequired
  | axisDomainMismatch (left right : Axis)
  | implicitCartesianBroadcastForbidden
  | unboundCandidate
  | indicatorInputRequiresPrice
  | reductionAxisAbsent
  | invalidMultiplySignature
  | invalidDivideSignature
  | scoreTermNotNumeric
  | scoreTermNotDimensionless
  | unsupportedProgramValue
  deriving DecidableEq, Repr

namespace SemanticTypeError

/-- The text in front of the first colon. -/
def code : SemanticTypeError → String
  | .unitMismatch => "unit_mismatch"
  | .clockAlignmentRequired => "clock_alignment_required"
  | .axisDomainMismatch _ _ => "axis_domain_mismatch"
  | .implicitCartesianBroadcastForbidden => "implicit_cartesian_broadcast_forbidden"
  | .unboundCandidate => "unbound_candidate"
  | .indicatorInputRequiresPrice => "indicator_input_requires_price"
  | .reductionAxisAbsent => "reduction_axis_absent"
  | .invalidMultiplySignature => "invalid_multiply_signature"
  | .invalidDivideSignature => "invalid_divide_signature"
  | .scoreTermNotNumeric => "score_term_not_numeric"
  | .scoreTermNotDimensionless => "score_term_not_dimensionless"
  | .unsupportedProgramValue => "unsupported_program_value"

def message : SemanticTypeError → String
  | .unitMismatch => "unit_mismatch: comparison requires equal quantity, unit, and refinement"
  | .axisDomainMismatch left right =>
      "axis_domain_mismatch: " ++ left.name.text ++ "@" ++ left.domainText ++ " is not " ++
        right.name.text ++ "@" ++ right.domainText
  | .implicitCartesianBroadcastForbidden =>
      "implicit_cartesian_broadcast_forbidden: axes must be scalar or an existing compatible subset"
  | e => e.code

end SemanticTypeError

/-- First axes of one name on both sides, when their domains differ. -/
def domainMismatch (left right : List Axis) (name : AxisName) : Option SemanticTypeError :=
  match left.find? (fun axis => axis.name = name), right.find? (fun axis => axis.name = name) with
  | some l, some r => if l = r then none else some (.axisDomainMismatch l r)
  | _, _ => none

/-- Broadcast result axes. Implicit Cartesian joins are rejected. -/
def alignedAxes (left right : SemanticType) : Except SemanticTypeError (List Axis) :=
  match domainMismatch left.axes right.axes .asset, domainMismatch left.axes right.axes .time with
  | some e, _ => .error e
  | none, some e => .error e
  | none, none =>
      if left.axes = [] then .ok right.axes
      else if right.axes = [] then .ok left.axes
      else if left.axes ⊆ right.axes then .ok right.axes
      else if right.axes ⊆ left.axes then .ok left.axes
      else .error .implicitCartesianBroadcastForbidden

def requireCompatibleValues (left right : SemanticType) : Except SemanticTypeError (List Axis) :=
  if left.quantity ≠ right.quantity ∨ left.unit ≠ right.unit ∨ left.refinement ≠ right.refinement then
    .error .unitMismatch
  else if left.clock.isSome ∧ right.clock.isSome ∧ left.clock ≠ right.clock then
    .error .clockAlignmentRequired
  else alignedAxes left right

/-- Scalars broadcast over nothing. -/
@[simp] theorem alignedAxes_scalar {left right : SemanticType} (hLeft : left.axes = [])
    (hRight : right.axes = []) : alignedAxes left right = .ok [] := by
  simp [alignedAxes, domainMismatch, hLeft, hRight]

end RuleTrade
