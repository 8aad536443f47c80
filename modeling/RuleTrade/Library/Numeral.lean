import Mathlib.Algebra.Order.Field.Rat
import RuleTrade.Library.Text

/-! Decimal numbers as they are written: a sign, a coefficient and an exponent,
with arithmetic to 28 significant digits. -/

namespace Library

inductive Numeral where
  | finite (negative : Bool) (coefficient : Nat) (exponent : Int)
  | infinite (negative : Bool)
  | nan (signaling : Bool)
  deriving DecidableEq, Repr

namespace Numeral

/-- Exceptions of arithmetic that are trapped. -/
inductive Signal where
  | invalidOperation
  | overflow
  deriving DecidableEq, Repr

def ofInt (n : Int) : Numeral := .finite (n < 0) n.natAbs 0

def isFinite : Numeral → Bool
  | .finite _ _ _ => true
  | _ => false

/-- The number of a finite numeral; the others stand for none. -/
def value : Numeral → ℚ
  | .finite negative coefficient exponent =>
      (if negative then -1 else 1) * coefficient * 10 ^ exponent
  | _ => 0

/-- Whether a numeral is another number than the given one. -/
def differsFrom (x : ℚ) : Numeral → Except Signal Bool
  | .nan true => .error .invalidOperation
  | .finite negative coefficient exponent => .ok (value (.finite negative coefficient exponent) ≠ x)
  | _ => .ok true

section Rounding

def digitCount (n : Nat) : Nat := (Nat.toDigits 10 n).length

/-- A coefficient without its last digits, rounded half to even. -/
def roundedOff (dropped coefficient : Nat) : Nat :=
  let quotient := coefficient / 10 ^ dropped
  let rest := coefficient % 10 ^ dropped
  if 2 * rest < 10 ^ dropped ∨ (2 * rest = 10 ^ dropped ∧ quotient % 2 = 0) then quotient
  else quotient + 1

/-- A result in the default context: 28 digits, exponents up to 999999. -/
def inContext (negative : Bool) (coefficient : Nat) (exponent : Int) : Except Signal Numeral :=
  let dropped := max (digitCount coefficient - 28) (-1000026 - exponent).toNat
  let rounded := roundedOff dropped coefficient
  let shifted := exponent + dropped
  if rounded = 0 then .ok (.finite negative 0 (min shifted 999999))
  else if 999999 < shifted + digitCount rounded - 1 then .error .overflow
  -- rounding up may have carried into one more digit
  else if digitCount rounded = 29 then .ok (.finite negative (rounded / 10) (shifted + 1))
  else .ok (.finite negative rounded shifted)

end Rounding

section Arithmetic

def signed (negative : Bool) (coefficient : Nat) : Int :=
  if negative then -coefficient else coefficient

def negated : Numeral → Numeral
  | .finite negative coefficient exponent => .finite (!negative) coefficient exponent
  | .infinite negative => .infinite (!negative)
  | .nan signaling => .nan signaling

def add : Numeral → Numeral → Except Signal Numeral
  | .nan true, _ => .error .invalidOperation
  | _, .nan true => .error .invalidOperation
  | .nan false, _ => .ok (.nan false)
  | _, .nan false => .ok (.nan false)
  | .infinite a, .infinite b =>
      if a = b then .ok (.infinite a) else .error .invalidOperation
  | .infinite a, .finite _ _ _ => .ok (.infinite a)
  | .finite _ _ _, .infinite b => .ok (.infinite b)
  | .finite a c e, .finite b d f =>
      let exponent := min e f
      let total := signed a c * 10 ^ (e - exponent).toNat + signed b d * 10 ^ (f - exponent).toNat
      inContext (total < 0 || (total = 0 && a && b)) total.natAbs exponent

def sub (x y : Numeral) : Except Signal Numeral := x.add y.negated

/-- Left-to-right sum from zero. -/
def sum (xs : List Numeral) : Except Signal Numeral := xs.foldlM add (ofInt 0)

end Arithmetic

section Writing

/-- Zeros at the end of a coefficient, as far as the fuel reaches. -/
def trailingZeros : Nat → Nat → Nat
  | 0, _ => 0
  | fuel + 1, n => if n % 10 = 0 then trailingZeros fuel (n / 10) + 1 else 0

/-- `Decimal.normalize`. -/
def normalize : Numeral → Except Signal Numeral
  | .nan true => .error .invalidOperation
  | .finite negative coefficient exponent => do
      match ← inContext negative coefficient exponent with
      | .finite sign 0 _ => pure (.finite sign 0 0)
      | .finite sign c e =>
          let zeros := trailingZeros (digitCount c) c
          pure (.finite sign (c / 10 ^ zeros) (e + zeros))
      | other => pure other
  | other => .ok other

/-- `format(number, "f")`. -/
def format : Numeral → String
  | .finite negative coefficient exponent =>
      let digits := Nat.toDigits 10 coefficient
      let sign := if negative then ['-'] else []
      if 0 ≤ exponent then
        String.ofList (sign ++ digits ++ List.replicate exponent.toNat '0')
      else
        let places := exponent.natAbs
        let padded := List.replicate (places + 1 - digits.length) '0' ++ digits
        String.ofList (sign ++ padded.take (padded.length - places) ++
          '.' :: padded.drop (padded.length - places))
  | .infinite negative => if negative then "-Infinity" else "Infinity"
  | .nan _ => "NaN"

end Writing

section Reading

def digitsValue (digits : List Char) : Nat :=
  digits.foldl (fun total digit => 10 * total + (digit.toNat - '0'.toNat)) 0

def readSign : List Char → Bool × List Char
  | '-' :: rest => (true, rest)
  | '+' :: rest => (false, rest)
  | rest => (false, rest)

/-- The exponent that the end of a numeral writes. -/
def readExponent : List Char → Option Int
  | [] => some 0
  | 'e' :: rest =>
      let (negative, digits) := readSign rest
      if digits = [] ∨ ¬ digits.all Char.isDigit then none
      else some (signed negative (digitsValue digits))
  | _ => none

/-- The digits after a point, and what follows them. -/
def readFraction : List Char → List Char × List Char
  | '.' :: rest => (rest.takeWhile Char.isDigit, rest.dropWhile Char.isDigit)
  | rest => ([], rest)

def readFinite (negative : Bool) (text : List Char) : Option Numeral := do
  let whole := text.takeWhile Char.isDigit
  let (fraction, rest) := readFraction (text.dropWhile Char.isDigit)
  if whole ++ fraction = [] then none
  let exponent := (← readExponent rest) - fraction.length
  let coefficient := digitsValue (whole ++ fraction)
  -- beyond these limits no numeral is exact
  if exponent < -1999999999999999997 ∨ 999999999999999999 < exponent + digitCount coefficient - 1 then
    none
  else some (.finite negative coefficient exponent)

/-- `Decimal(text)`: space around a numeral and underscores within are ignored. -/
def read (text : String) : Option Numeral :=
  let (negative, rest) :=
    readSign ((strip text.toList).filter (· ≠ '_') |>.map Char.toLower)
  if rest = "inf".toList ∨ rest = "infinity".toList then some (.infinite negative)
  else if rest.take 3 = "nan".toList ∧ (rest.drop 3).all Char.isDigit then some (.nan false)
  else if rest.take 4 = "snan".toList ∧ (rest.drop 4).all Char.isDigit then some (.nan true)
  else readFinite negative rest

example : read " -0.50e1 " = some (.finite true 50 (-1)) := by decide +kernel

example : (read "1200.00" >>= fun x => x.normalize.toOption.map format) = some "1200" := by
  decide +kernel

end Reading

end Numeral

end Library
