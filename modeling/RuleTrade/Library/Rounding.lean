import RuleTrade.Library.Decimal
import Mathlib.Algebra.BigOperators.Ring.List
import Mathlib.Algebra.Order.BigOperators.Group.List
import Mathlib.Algebra.Order.Field.Basic
import Mathlib.Tactic.Linarith
import Mathlib.Tactic.NormNum
import Mathlib.Algebra.Order.Ring.Pow
import Mathlib.Tactic.Ring

/-! Relative error of rounded sums and quotients of nonnegative numbers. Two
numbers are near when each is at least the other less a few rounding errors, a
relation that sums, quotients and further rounding carry on. -/

namespace Library.DecimalContext

/-- Half a unit in the last of twenty-eight digits, for each unit. -/
def halfUnit : ℚ := 5 / 10 ^ 28

/-- What rounding half to even to twenty-eight digits does. -/
structure Precise (ctx : DecimalContext) : Prop where
  mono : Monotone ctx.round
  idem : ∀ x, ctx.round (ctx.round x) = ctx.round x
  one : ctx.round 1 = 1
  near : ∀ x, |ctx.round x - x| ≤ halfUnit * |x|

theorem exact_precise (sqrt : ℚ → ℚ) : (exact sqrt).Precise where
  mono := monotone_id
  idem _ := rfl
  one := rfl
  near x := by
    show |x - x| ≤ _
    rw [sub_self, abs_zero]
    exact mul_nonneg (by norm_num [halfUnit]) (abs_nonneg x)

/-- What one rounding keeps of a number. -/
def kept : ℚ := 1 - halfUnit

theorem kept_pos : 0 < kept := by norm_num [kept, halfUnit]

theorem kept_le_one : kept ≤ 1 := by norm_num [kept, halfUnit]

/-- Equal up to a number of roundings. -/
def Near (roundings : ℕ) (x y : ℚ) : Prop := kept ^ roundings * x ≤ y ∧ kept ^ roundings * y ≤ x

section Near

variable {m n : ℕ} {x y z v w : ℚ}

theorem Near.trans (hxy : Near m x y) (hyz : Near n y z) : Near (m + n) x z := by
  have hKept (k : ℕ) : 0 ≤ kept ^ k := pow_nonneg kept_pos.le k
  constructor
  · calc kept ^ (m + n) * x = kept ^ n * (kept ^ m * x) := by ring
      _ ≤ kept ^ n * y := mul_le_mul_of_nonneg_left hxy.1 (hKept n)
      _ ≤ z := hyz.1
  · calc kept ^ (m + n) * z = kept ^ m * (kept ^ n * z) := by ring
      _ ≤ kept ^ m * y := mul_le_mul_of_nonneg_left hyz.2 (hKept m)
      _ ≤ x := hxy.2

theorem Near.pos (h : Near n x y) (hx : 0 < x) : 0 < y :=
  (mul_pos (pow_pos kept_pos n) hx).trans_le h.1

theorem Near.nonneg (h : Near n x y) (hx : 0 ≤ x) : 0 ≤ y :=
  (mul_nonneg (pow_nonneg kept_pos.le n) hx).trans h.1

theorem near_refl (hx : 0 ≤ x) : Near n x x := by
  have hLe : kept ^ n * x ≤ x :=
    mul_le_of_le_one_left hx (pow_le_one₀ kept_pos.le kept_le_one)
  exact ⟨hLe, hLe⟩

theorem Near.add (hx : Near n x y) (hv : Near n v w) : Near n (x + v) (y + w) := by
  constructor
  · rw [mul_add]
    exact add_le_add hx.1 hv.1
  · rw [mul_add]
    exact add_le_add hx.2 hv.2

theorem Near.div (hx : Near m x y) (hv : Near n v w) (hNonneg : 0 ≤ x) (hPositive : 0 < v) :
    Near (m + n) (x / v) (y / w) := by
  have hw : 0 < w := hv.pos hPositive
  have hy : 0 ≤ y := hx.nonneg hNonneg
  constructor
  · rw [le_div_iff₀ hw]
    calc kept ^ (m + n) * (x / v) * w = kept ^ m * (x / v * (kept ^ n * w)) := by ring
      _ ≤ kept ^ m * (x / v * v) := mul_le_mul_of_nonneg_left
          (mul_le_mul_of_nonneg_left hv.2 (div_nonneg hNonneg hPositive.le))
          (pow_nonneg kept_pos.le m)
      _ = kept ^ m * x := by rw [div_mul_cancel₀ x hPositive.ne']
      _ ≤ y := hx.1
  · rw [le_div_iff₀ hPositive]
    calc kept ^ (m + n) * (y / w) * v = kept ^ m * (y / w * (kept ^ n * v)) := by ring
      _ ≤ kept ^ m * (y / w * w) := mul_le_mul_of_nonneg_left
          (mul_le_mul_of_nonneg_left hv.1 (div_nonneg hy hw.le)) (pow_nonneg kept_pos.le m)
      _ = kept ^ m * y := by rw [div_mul_cancel₀ y hw.ne']
      _ ≤ x := hx.2

theorem near_list_sum {f g : String → ℚ} (names : List String)
    (h : ∀ a ∈ names, Near n (f a) (g a)) : Near n (names.map f).sum (names.map g).sum := by
  induction names with
  | nil => exact near_refl le_rfl
  | cons first rest ih =>
      rw [List.map_cons, List.map_cons, List.sum_cons, List.sum_cons]
      exact (h first List.mem_cons_self).add (ih (fun a ha => h a (List.mem_cons_of_mem first ha)))

/-- Numbers near one differ from it by twice what the roundings lose. -/
theorem Near.abs_sub_one (h : Near n 1 y) (hRoundings : n ≤ 202) :
    |1 - y| ≤ 404 * halfUnit := by
  have hLost : 1 - 202 * halfUnit ≤ kept ^ n := by
    have hPow : kept ^ 202 ≤ kept ^ n := pow_le_pow_of_le_one kept_pos.le kept_le_one hRoundings
    have hLinear := one_add_mul_le_pow (a := -halfUnit) (by norm_num [halfUnit]) 202
    have hKept : 1 + -halfUnit = kept := by rw [kept, sub_eq_add_neg]
    rw [hKept] at hLinear
    push_cast at hLinear
    linarith
  have hLow : 1 - 202 * halfUnit ≤ y := hLost.trans (by simpa using h.1)
  have hy : 0 ≤ y := h.nonneg zero_le_one
  have hHigh : (1 - 202 * halfUnit) * y ≤ 1 := (mul_le_mul_of_nonneg_right hLost hy).trans h.2
  have hHalf : (0 : ℚ) < halfUnit ∧ 202 * halfUnit ≤ 1 / 2 := by norm_num [halfUnit]
  rw [abs_le]
  constructor <;> nlinarith

end Near

section Rounded

variable {ctx : DecimalContext} (hPrecise : ctx.Precise) {x y : ℚ}

include hPrecise

theorem Precise.near_round (hx : 0 ≤ x) : Near 1 x (ctx.round x) := by
  have hError := hPrecise.near x
  rw [abs_of_nonneg hx, abs_le] at hError
  have hHalf : (0 : ℚ) < halfUnit ∧ halfUnit < 1 := by norm_num [halfUnit]
  simp only [Near, pow_one, kept]
  constructor
  · linarith
  · nlinarith

theorem Precise.round_zero : ctx.round 0 = 0 := by
  have hError := hPrecise.near 0
  rw [sub_zero, abs_zero, mul_zero] at hError
  exact abs_eq_zero.mp (le_antisymm hError (abs_nonneg _))

theorem Precise.round_nonneg (hx : 0 ≤ x) : 0 ≤ ctx.round x := (hPrecise.near_round hx).nonneg hx

theorem Precise.abs_round_le (x : ℚ) : |ctx.round x| ≤ 2 * |x| := by
  have hError := hPrecise.near x
  have hTriangle := abs_sub_abs_le_abs_sub (ctx.round x) x
  have hHalf : halfUnit * |x| ≤ 1 * |x| :=
    mul_le_mul_of_nonneg_right (by norm_num [halfUnit]) (abs_nonneg x)
  linarith

theorem Precise.quot_le_one (hxy : x ≤ y) (hy : 0 < y) : ctx.quot x y ≤ 1 := by
  rw [← hPrecise.one]
  exact hPrecise.mono ((div_le_one hy).mpr hxy)

section Sums

variable {xs : List ℚ} (hNonneg : ∀ v ∈ xs, 0 ≤ v)

include hNonneg

theorem Precise.near_foldl {m : ℕ} {start acc : ℚ} (hStart : 0 ≤ start) (h : Near m start acc) :
    Near (m + xs.length) (start + xs.sum) (xs.foldl ctx.add acc) := by
  induction xs generalizing m start acc with
  | nil => simpa using h
  | cons v rest ih =>
      have hv := hNonneg v List.mem_cons_self
      have hNext : Near (m + 1) (start + v) (ctx.add acc v) :=
        (h.add (near_refl hv)).trans
          (hPrecise.near_round (add_nonneg (h.nonneg hStart) hv))
      have hRest := ih (fun w hw => hNonneg w (List.mem_cons_of_mem v hw)) (add_nonneg hStart hv)
        hNext
      rw [List.foldl_cons, List.sum_cons, List.length_cons, add_comm rest.length 1, ← add_assoc,
        ← add_assoc]
      exact hRest

theorem Precise.near_sum : Near xs.length xs.sum (ctx.sum xs) := by
  have hFold := hPrecise.near_foldl hNonneg le_rfl (near_refl (n := 0) le_rfl)
  rwa [zero_add, zero_add] at hFold

theorem Precise.le_foldl {acc : ℚ} (hRounded : ctx.round acc = acc) :
    acc ≤ xs.foldl ctx.add acc := by
  induction xs generalizing acc with
  | nil => exact le_rfl
  | cons v rest ih =>
      have hNext : acc ≤ ctx.add acc v := by
        calc acc = ctx.round acc := hRounded.symm
          _ ≤ ctx.round (acc + v) :=
            hPrecise.mono (le_add_of_nonneg_right (hNonneg v List.mem_cons_self))
      exact hNext.trans (ih (fun w hw => hNonneg w (List.mem_cons_of_mem v hw)) (hPrecise.idem _))

/-- A sum is at least each of its rounded terms. -/
theorem Precise.round_le_sum {v : ℚ} (hv : v ∈ xs) : ctx.round v ≤ ctx.sum xs := by
  have hFold {acc : ℚ} (hAcc : 0 ≤ acc) : ctx.round v ≤ xs.foldl ctx.add acc := by
    induction xs generalizing acc with
    | nil => cases hv
    | cons first rest ih =>
        have hRest := fun w hw => hNonneg w (List.mem_cons_of_mem first hw)
        rcases List.mem_cons.mp hv with rfl | hLater
        · exact (hPrecise.mono (le_add_of_nonneg_left hAcc)).trans
            (hPrecise.le_foldl hRest (hPrecise.idem _))
        · exact ih hRest hLater (hPrecise.round_nonneg
            (add_nonneg hAcc (hNonneg first List.mem_cons_self)))
  exact hFold le_rfl

end Sums

/-- Rounded shares of a rounded sum are near the whole. -/
theorem Precise.near_shares {raw : String → ℚ} {names : List String}
    (hNonneg : ∀ a ∈ names, 0 ≤ raw a) (hPositive : 0 < (names.map raw).sum) :
    Near (2 * names.length + 2) 1 (ctx.sum (names.map (fun a =>
      ctx.quot (ctx.mul 1 (raw a)) (ctx.sum (names.map raw))))) := by
  have hRaw : ∀ v ∈ names.map raw, 0 ≤ v := by
    intro v hv
    obtain ⟨a, ha, rfl⟩ := List.mem_map.mp hv
    exact hNonneg a ha
  have hTotal := hPrecise.near_sum hRaw
  rw [List.length_map] at hTotal
  have hShare : ∀ a ∈ names, Near (names.length + 2) (raw a / (names.map raw).sum)
      (ctx.quot (ctx.mul 1 (raw a)) (ctx.sum (names.map raw))) := by
    intro a ha
    have hMul : Near 1 (raw a) (ctx.mul 1 (raw a)) := by
      rw [mul, one_mul]
      exact hPrecise.near_round (hNonneg a ha)
    have hQuot := hMul.div hTotal (hNonneg a ha) hPositive
    have hRound := hPrecise.near_round (hQuot.nonneg (div_nonneg (hNonneg a ha) hPositive.le))
    rw [show names.length + 2 = 1 + names.length + 1 by omega]
    exact hQuot.trans hRound
  have hShares := near_list_sum names hShare
  have hWhole : (names.map (fun a => raw a / (names.map raw).sum)).sum = 1 := by
    simp only [div_eq_mul_inv]
    rw [List.sum_map_mul_right]
    exact mul_inv_cancel₀ hPositive.ne'
  rw [hWhole] at hShares
  have hShareNonneg : ∀ v ∈ names.map (fun a =>
      ctx.quot (ctx.mul 1 (raw a)) (ctx.sum (names.map raw))), 0 ≤ v := by
    intro v hv
    obtain ⟨a, ha, rfl⟩ := List.mem_map.mp hv
    exact (hShare a ha).nonneg (div_nonneg (hNonneg a ha) hPositive.le)
  have hSum := hPrecise.near_sum hShareNonneg
  rw [List.length_map] at hSum
  rw [show 2 * names.length + 2 = names.length + 2 + names.length by omega]
  exact hShares.trans hSum

end Rounded

end Library.DecimalContext
