import Mathlib.Algebra.Order.Field.Rat
import Mathlib.Algebra.BigOperators.Group.List.Basic

/-! Decimal arithmetic under a context. Numbers are rationals, and a context
supplies the rounding applied to the result of every operation and its rounded
square root. The exact context rounds nothing. -/

namespace Library

structure DecimalContext where
  round : ℚ → ℚ
  sqrt : ℚ → ℚ

/-- Exceptions of decimal division. Zero over zero is not a division by zero. -/
inductive DivisionFailure where
  | divisionByZero
  | invalidOperation
  deriving DecidableEq, Repr

/-- A decimal that may be an infinity or not a number. -/
inductive ExtendedDecimal where
  | finite (value : ℚ)
  | infinite (negative : Bool)
  | nan
  deriving DecidableEq, Repr

namespace ExtendedDecimal

def isFinite : ExtendedDecimal → Bool
  | .finite _ => true
  | _ => false

/-- Whether it is above zero and at most one. What is no number cannot be compared. -/
def inUnit : ExtendedDecimal → Except DivisionFailure Bool
  | .finite value => .ok (0 < value ∧ value ≤ 1)
  | .infinite _ => .ok false
  | .nan => .error .invalidOperation

end ExtendedDecimal

namespace DecimalContext

variable (ctx : DecimalContext)

def add (x y : ℚ) : ℚ := ctx.round (x + y)

def sub (x y : ℚ) : ℚ := ctx.round (x - y)

def mul (x y : ℚ) : ℚ := ctx.round (x * y)

def neg (x : ℚ) : ℚ := ctx.round (-x)

def abs (x : ℚ) : ℚ := ctx.round |x|

def div (x y : ℚ) : Except DivisionFailure ℚ :=
  if y = 0 then .error (if x = 0 then .invalidOperation else .divisionByZero)
  else .ok (ctx.round (x / y))

/-- Quotient by a number known not to be zero. -/
def quot (x y : ℚ) : ℚ := ctx.round (x / y)

/-- Left-to-right sum from zero. -/
def sum (xs : List ℚ) : ℚ := xs.foldl ctx.add 0

/-- The context that rounds nothing. -/
def exact (sqrt : ℚ → ℚ) : DecimalContext := ⟨id, sqrt⟩

section Exact

variable (sqrt : ℚ → ℚ)

@[simp] theorem exact_add (x y : ℚ) : (exact sqrt).add x y = x + y := rfl

@[simp] theorem exact_sub (x y : ℚ) : (exact sqrt).sub x y = x - y := rfl

@[simp] theorem exact_mul (x y : ℚ) : (exact sqrt).mul x y = x * y := rfl

@[simp] theorem exact_quot (x y : ℚ) : (exact sqrt).quot x y = x / y := rfl

@[simp] theorem exact_sum (xs : List ℚ) : (exact sqrt).sum xs = xs.sum := by
  have hFold (start : ℚ) : xs.foldl (exact sqrt).add start = start + xs.sum := by
    induction xs generalizing start with
    | nil => simp
    | cons x xs ih => simp [ih, add_assoc]
  simpa [sum] using hFold 0

end Exact

end DecimalContext

end Library
