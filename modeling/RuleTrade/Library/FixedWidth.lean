import Mathlib.Data.String.Basic
import RuleTrade.Library.Calendar

/-! Numbers printed at a fixed width. They order as numbers, and texts of one
length that begin with them order first by what they begin with. -/

namespace Library

section Lexicographic

variable {α : Type} [LinearOrder α]

/-- Texts that begin with parts of one length. -/
theorem append_lt_append_iff {xs xs' ys ys' : List α} (hLength : xs.length = xs'.length) :
    xs ++ ys < xs' ++ ys' ↔ xs < xs' ∨ xs = xs' ∧ ys < ys' := by
  induction xs generalizing xs' with
  | nil =>
      obtain rfl := List.length_eq_zero_iff.mp hLength.symm
      simp
  | cons x xs ih =>
      cases xs' with
      | nil => cases hLength
      | cons x' xs' =>
          rw [List.cons_append, List.cons_append, List.cons_lt_cons_iff, List.cons_lt_cons_iff,
            ih (Nat.succ.inj hLength), List.cons.injEq]
          tauto

theorem cons_lt_cons_self_iff {x : α} {xs ys : List α} : x :: xs < x :: ys ↔ xs < ys := by
  rw [List.cons_lt_cons_iff]
  simp

end Lexicographic

section Digits

/-- The lowest digits of a number, as many as the width. -/
def fixedDigits : Nat → Nat → List Char
  | 0, _ => []
  | width + 1, n => fixedDigits width (n / 10) ++ [Nat.digitChar (n % 10)]

variable {width n m : Nat}

theorem length_fixedDigits (width n : Nat) : (fixedDigits width n).length = width := by
  induction width generalizing n with
  | zero => rfl
  | succ width ih => rw [fixedDigits, List.length_append, ih, List.length_singleton]

theorem fixedDigits_zero (width : Nat) : fixedDigits width 0 = List.replicate width '0' := by
  induction width with
  | zero => rfl
  | succ width ih =>
      rw [fixedDigits, ih, List.replicate_succ']
      rfl

/-- A padded number of the width has its digits there. -/
theorem toList_zeroPadded (hWidth : 0 < width) (h : n < 10 ^ width) :
    (CalendarDate.zeroPadded width n).toList = fixedDigits width n := by
  obtain ⟨more, rfl⟩ := Nat.exists_eq_add_of_le' hWidth
  rw [CalendarDate.zeroPadded, String.toList_ofList]
  induction more generalizing n with
  | zero =>
      rw [Nat.toDigits_of_lt_base (by omega), fixedDigits, Nat.mod_eq_of_lt (by omega)]
      rfl
  | succ more ih =>
      rcases Nat.lt_or_ge n 10 with hSmall | hLarge
      · rw [Nat.toDigits_of_lt_base hSmall, fixedDigits, Nat.div_eq_of_lt hSmall,
          fixedDigits_zero, Nat.mod_eq_of_lt hSmall]
        rfl
      · have hRest : n / 10 < 10 ^ (more + 1) := by
          rw [Nat.div_lt_iff_lt_mul (by decide), ← Nat.pow_succ]
          exact h
        rw [Nat.toDigits_of_base_le (by decide) hLarge, fixedDigits, ← ih (Nat.succ_pos _) hRest,
          List.append_assoc, List.length_append, List.length_singleton, Nat.add_sub_add_right]

theorem digitChar_lt_iff : ∀ a < 10, ∀ b < 10, (Nat.digitChar a < Nat.digitChar b ↔ a < b) := by
  decide

/-- Numbers of one width order as their digits. -/
theorem fixedDigits_lt_iff (hn : n < 10 ^ width) (hm : m < 10 ^ width) :
    fixedDigits width n < fixedDigits width m ↔ n < m := by
  induction width generalizing n m with
  | zero =>
      have hSame : n = m := by omega
      simp [hSame]
  | succ width ih =>
      have hBound {k : Nat} (hk : k < 10 ^ (width + 1)) : k / 10 < 10 ^ width := by
        rw [Nat.div_lt_iff_lt_mul (by decide), ← Nat.pow_succ]
        exact hk
      have hSame : fixedDigits width (n / 10) = fixedDigits width (m / 10) ↔ n / 10 = m / 10 := by
        refine ⟨fun h => ?_, fun h => congrArg (fixedDigits width) h⟩
        have hForth := ih (hBound hn) (hBound hm)
        have hBack := ih (hBound hm) (hBound hn)
        rw [h] at hForth hBack
        have hNeither := lt_irrefl (fixedDigits width (m / 10))
        have hNotLess : ¬ n / 10 < m / 10 := fun hLess => hNeither (hForth.mpr hLess)
        have hNotMore : ¬ m / 10 < n / 10 := fun hMore => hNeither (hBack.mpr hMore)
        omega
      have hDigit : [Nat.digitChar (n % 10)] < [Nat.digitChar (m % 10)] ↔ n % 10 < m % 10 := by
        rw [List.cons_lt_cons_iff,
          digitChar_lt_iff _ (Nat.mod_lt _ (by decide)) _ (Nat.mod_lt _ (by decide))]
        simp
      rw [fixedDigits, fixedDigits,
        append_lt_append_iff (by rw [length_fixedDigits, length_fixedDigits]),
        ih (hBound hn) (hBound hm), hSame, hDigit]
      omega

theorem fixedDigits_inj (hn : n < 10 ^ width) (hm : m < 10 ^ width)
    (h : fixedDigits width n = fixedDigits width m) : n = m := by
  have hNeither := lt_irrefl (fixedDigits width m)
  have hForth := fixedDigits_lt_iff hn hm
  have hBack := fixedDigits_lt_iff hm hn
  rw [h] at hForth hBack
  have hNotLess : ¬ n < m := fun hLess => hNeither (hForth.mpr hLess)
  have hNotMore : ¬ m < n := fun hMore => hNeither (hBack.mpr hMore)
  omega

/-- Texts that begin with numbers of one width. -/
theorem fixedDigits_append_lt_iff (hn : n < 10 ^ width) (hm : m < 10 ^ width) {xs ys : List Char} :
    fixedDigits width n ++ xs < fixedDigits width m ++ ys ↔ n < m ∨ n = m ∧ xs < ys := by
  have hSame : fixedDigits width n = fixedDigits width m ↔ n = m :=
    ⟨fixedDigits_inj hn hm, congrArg (fixedDigits width)⟩
  rw [append_lt_append_iff (by rw [length_fixedDigits, length_fixedDigits]),
    fixedDigits_lt_iff hn hm, hSame]

/-- The digits are read back. -/
theorem ofDigitChars_fixedDigits (h : n < 10 ^ width) (init : Nat) :
    Nat.ofDigitChars 10 (fixedDigits width n) init = 10 ^ width * init + n := by
  induction width generalizing n init with
  | zero =>
      have hZero : n = 0 := by omega
      simp [hZero, fixedDigits, Nat.ofDigitChars]
  | succ width ih =>
      have hRest : n / 10 < 10 ^ width := by
        rw [Nat.div_lt_iff_lt_mul (by decide), ← Nat.pow_succ]
        exact h
      have hDigit : ∀ d < 10, (Nat.digitChar d).toNat - '0'.toNat = d := by decide
      rw [fixedDigits, Nat.ofDigitChars_append, ih hRest, Nat.ofDigitChars_cons,
        Nat.ofDigitChars_nil, hDigit _ (Nat.mod_lt _ (by decide)), Nat.pow_succ]
      have hSplit := Nat.div_add_mod n 10
      ring_nf
      omega

theorem isDigit_of_mem_fixedDigits {c : Char} (h : c ∈ fixedDigits width n) : c.isDigit = true := by
  have hDigit : ∀ d < 10, (Nat.digitChar d).isDigit = true := by decide
  induction width generalizing n with
  | zero => cases h
  | succ width ih =>
      rw [fixedDigits, List.mem_append, List.mem_singleton] at h
      rcases h with hHigher | rfl
      · exact ih hHigher
      · exact hDigit _ (Nat.mod_lt _ (by decide))

end Digits

end Library
