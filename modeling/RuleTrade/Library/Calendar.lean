import Mathlib.Algebra.Order.BigOperators.Group.List
import Mathlib.Data.Prod.Lex
import Mathlib.Data.Rat.Floor

/-! Proleptic Gregorian dates. Weeks start on Monday, and day one of the
ordinal count, 1 January of year 1, is a Monday. -/

namespace Library

structure CalendarDate where
  year : Nat
  month : Nat
  day : Nat
  deriving DecidableEq, Repr

namespace CalendarDate

def isLeap (year : Nat) : Bool :=
  year % 4 == 0 && (year % 100 != 0 || year % 400 == 0)

def daysInMonth (year : Nat) : Nat → Nat
  | 2 => if isLeap year then 29 else 28
  | 4 | 6 | 9 | 11 => 30
  | _ => 31

def daysBeforeYear (year : Nat) : Nat :=
  (year - 1) * 365 + (year - 1) / 4 - (year - 1) / 100 + (year - 1) / 400

def daysBeforeMonth (year month : Nat) : Nat :=
  ((List.range (month - 1)).map (fun m => daysInMonth year (m + 1))).sum

/-- Number of the day, counted from 1 January of year 1. -/
def toOrdinal (d : CalendarDate) : Nat :=
  daysBeforeYear d.year + daysBeforeMonth d.year d.month + d.day

/-- Monday is 0 and Sunday is 6. -/
def weekday (d : CalendarDate) : Nat := (d.toOrdinal + 6) % 7

/-- Number of the Monday-based week. Two dates share ISO year and ISO week
number exactly when they share this number. -/
def isoWeek (d : CalendarDate) : Nat := (d.toOrdinal - 1) / 7

def tomorrow (d : CalendarDate) : CalendarDate :=
  if d.day < daysInMonth d.year d.month then { d with day := d.day + 1 }
  else if d.month < 12 then { d with month := d.month + 1, day := 1 }
  else { year := d.year + 1, month := 1, day := 1 }

/-- Skip Saturday and Sunday, at most two steps from any date. -/
def skipWeekend (d : CalendarDate) : CalendarDate :=
  if d.weekday = 5 then d.tomorrow.tomorrow
  else if d.weekday = 6 then d.tomorrow
  else d

/-- Decimal digits of a number, with zeros before them up to a width. -/
def zeroPadded (width n : Nat) : String :=
  let digits := Nat.toDigits 10 n
  String.ofList (List.replicate (width - digits.length) '0' ++ digits)

def isoformat (d : CalendarDate) : String :=
  zeroPadded 4 d.year ++ "-" ++ zeroPadded 2 d.month ++ "-" ++ zeroPadded 2 d.day

def rank (d : CalendarDate) : ℕ ×ₗ ℕ ×ₗ ℕ := toLex (d.year, toLex (d.month, d.day))

theorem rank_injective : Function.Injective rank := by
  rintro ⟨y, m, d⟩ ⟨y', m', d'⟩ h
  cases h
  rfl

/-- Dates are in order of year, month and day. -/
instance : LinearOrder CalendarDate where
  le a b := a.rank ≤ b.rank
  le_refl a := le_refl a.rank
  le_trans _ _ _ := le_trans
  le_antisymm _ _ hab hba := rank_injective (le_antisymm hab hba)
  le_total a b := le_total a.rank b.rank
  toDecidableLE a b := inferInstanceAs (Decidable (a.rank ≤ b.rank))
  toDecidableEq := inferInstance

/-- Days from `earlier` to `later`, negative when they are in the other order. -/
def daysSince (later earlier : CalendarDate) : Int :=
  (later.toOrdinal : Int) - earlier.toOrdinal

end CalendarDate

/-- Friday 5 January 2024 and the Monday after it. -/
example : (CalendarDate.mk 2024 1 5).weekday = 4 ∧
    (CalendarDate.mk 2024 1 6).skipWeekend = CalendarDate.mk 2024 1 8 := by decide

end Library
