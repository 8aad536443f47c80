import RuleTrade.Strategy.DailyTransform
import Mathlib.Tactic.Linarith
import Mathlib.Tactic.Positivity

/-! The Wilder oscillator as one fold. The evaluator replays the recursion from
the first change at every row; a state that is updated once per change gives the
same values. -/

namespace RuleTrade

open Library

section Machine

variable (ctx : DecimalContext)

/-- Changes between neighbouring prices. -/
def priceChanges (prices : List ℚ) : List ℚ := List.zipWith ctx.sub prices.tail prices

/-- Mean gain and mean loss of the first changes. -/
def wilderSeed (period : Nat) (changes : List ℚ) : ℚ × ℚ :=
  (ctx.quot (ctx.sum (changes.map (fun c => max c 0))) period,
    ctx.quot (ctx.sum (changes.map (fun c => max (ctx.neg c) 0))) period)

/-- One change smoothed into the averages. -/
def wilderUpdate (period : Nat) (averages : ℚ × ℚ) (change : ℚ) : ℚ × ℚ :=
  (ctx.quot (ctx.add (ctx.mul averages.1 (period - 1 : ℚ)) (max change 0)) period,
    ctx.quot (ctx.add (ctx.mul averages.2 (period - 1 : ℚ)) (max (ctx.neg change) 0)) period)

/-- Averages after all changes of a price series. -/
def wilderState (period : Nat) (prices : List ℚ) : ℚ × ℚ :=
  ((priceChanges ctx prices).drop period).foldl (wilderUpdate ctx period)
    (wilderSeed ctx period ((priceChanges ctx prices).take period))

end Machine

section Replay

variable {ctx : DecimalContext} {prices : List ℚ}

@[simp] theorem length_priceChanges : (priceChanges ctx prices).length = prices.length - 1 := by
  simp [priceChanges]

theorem seriesChange_complete {index : Nat} {change : ℚ}
    (h : (priceChanges ctx prices)[index]? = some change) :
    seriesChange ctx (prices.map some) (index + 1) = .ok change := by
  obtain ⟨hIndex, rfl⟩ := List.getElem?_eq_some_iff.mp h
  rw [length_priceChanges] at hIndex
  have hNext : index + 1 < prices.length := by omega
  have hHere : index < prices.length := by omega
  simp [seriesChange, priceChanges, hNext, hHere]

/-- Changes up to a row are the changes of the prices up to it. -/
theorem priceChanges_take (last : Nat) :
    priceChanges ctx (prices.take (last + 1)) = (priceChanges ctx prices).take last := by
  apply List.ext_getElem
  · simp only [length_priceChanges, List.length_take]
    omega
  · intro i hi hi'
    simp [priceChanges]

/-- On complete prices the replay to a row returns the folded state. -/
theorem wilderAverages_complete {period last : Nat} (hLast : last < prices.length)
    (h : period ≤ last) :
    wilderAverages ctx period last (prices.map some) =
      .ok (wilderState ctx period (prices.take (last + 1))) := by
  have hLength : ((priceChanges ctx prices).take last).length = last := by
    rw [List.length_take, length_priceChanges]
    omega
  have hChange {i : Nat} {change : ℚ} (hi : ((priceChanges ctx prices).take last)[i]? =
      some change) : seriesChange ctx (prices.map some) (i + 1) = .ok change := by
    apply seriesChange_complete
    rw [List.getElem?_take] at hi
    split_ifs at hi
    exact hi
  rw [wilderState, priceChanges_take]
  generalize (priceChanges ctx prices).take last = changes at hLength hChange ⊢
  have hSeed : ((List.range period).map (· + 1)).mapM (seriesChange ctx (prices.map some)) =
      .ok (changes.take period) := by
    apply Sequence.mapM_of_forall₂
    rw [List.forall₂_map_left_iff, List.forall₂_iff_get]
    refine ⟨by simp [hLength, h], fun i hi hi' => ?_⟩
    rw [List.length_take] at hi'
    simpa using hChange (List.getElem?_eq_getElem (by omega))
  rw [wilderAverages, hSeed]
  apply Sequence.foldlM_of_forall₂
  rw [List.forall₂_map_left_iff, List.forall₂_iff_get]
  refine ⟨by simp [hLength], fun i hi hi' averages => ?_⟩
  rw [List.length_range] at hi
  have hStep := hChange (List.getElem?_eq_getElem (i := period + i) (by omega))
  simp only [List.get_eq_getElem, List.getElem_range, List.getElem_drop]
  rw [show i + (period + 1) = period + i + 1 by omega, hStep]
  rfl

/-- No value of a complete series is missing. -/
theorem none_notMem_window (start stop : Int) :
    none ∉ Sequence.slice (prices.map some) start stop := by
  intro h
  obtain ⟨_, _, hNone⟩ := List.mem_map.mp
    (List.mem_of_mem_drop (List.mem_of_mem_take h))
  cases hNone

theorem transformRow_rsi {period last : Nat} {earlier : Series} {current : Option ℚ}
    (hLast : last < prices.length) :
    transformRow ctx .rsiWilderLeanCompat period (prices.map some) earlier last current =
      .ok (if last < period then none
        else some (relativeStrength ctx (wilderState ctx period (prices.take (last + 1))))) := by
  by_cases hReady : last < period
  · rw [transformRow, if_pos hReady]
    simp only [if_pos hReady, ite_self]
  · have hWindow : (Sequence.slice (prices.map some) ((last : Int) - period + 1)
        (last + 1)).length = period :=
      length_window (by simpa using hLast) (by omega)
    rw [transformRow, if_neg hReady]
    simp only [hWindow, ne_eq, not_true_eq_false, none_notMem_window, or_self, if_false, hReady,
      wilderAverages_complete hLast (Nat.le_of_not_lt hReady)]
    rfl

/-- The oscillator of a complete series has no value before its period and the
value of the folded state from there on. -/
theorem transform_rsi (ctx : DecimalContext) (prices : List ℚ) (period : Nat) :
    ∃ out, transform ctx .rsiWilderLeanCompat period (prices.map some) = .ok out ∧
      out.length = prices.length ∧
      ∀ last < prices.length, out[last]? = some (if last < period then none
        else some (relativeStrength ctx (wilderState ctx period (prices.take (last + 1))))) := by
  obtain ⟨out, hOut⟩ : ∃ out,
      transform ctx .rsiWilderLeanCompat period (prices.map some) = .ok out := by
    apply exists_transform
    intro earlier last current hCurrent
    obtain ⟨hLast, -⟩ := List.getElem?_eq_some_iff.mp hCurrent
    exact ⟨_, transformRow_rsi (by simpa using hLast)⟩
  obtain ⟨hLength, hRows⟩ := transform_eq_ok_iff.mp hOut
  rw [List.length_map] at hLength
  refine ⟨out, hOut, hLength, fun last hLast => ?_⟩
  have hRow := hRows last _ _ (List.getElem?_eq_getElem (by simpa using hLast))
    (List.getElem?_eq_getElem (hLength ▸ hLast))
  rw [transformRow_rsi hLast] at hRow
  rw [List.getElem?_eq_getElem (hLength ▸ hLast), Except.ok.inj hRow]

end Replay

section Exact

variable {sqrt : ℚ → ℚ} {period : Nat}

theorem wilderSeed_exact (changes : List ℚ) :
    wilderSeed (.exact sqrt) period changes =
      ((changes.map (fun c => max c 0)).sum / period,
        (changes.map (fun c => max (-c) 0)).sum / period) := by
  simp only [wilderSeed, DecimalContext.exact_quot, DecimalContext.exact_sum]
  rfl

theorem wilderUpdate_exact (averages : ℚ × ℚ) (change : ℚ) :
    wilderUpdate (.exact sqrt) period averages change =
      ((averages.1 * (period - 1) + max change 0) / period,
        (averages.2 * (period - 1) + max (-change) 0) / period) := rfl

/-- Averages of gains and losses are never negative. -/
theorem wilderState_nonneg (sqrt : ℚ → ℚ) (hPeriod : 1 ≤ period) (prices : List ℚ) :
    0 ≤ (wilderState (.exact sqrt) period prices).1 ∧
      0 ≤ (wilderState (.exact sqrt) period prices).2 := by
  have hSmooth : (0 : ℚ) ≤ period - 1 := by
    rw [sub_nonneg]
    exact_mod_cast hPeriod
  have hSum {f : ℚ → ℚ} (changes : List ℚ) : 0 ≤ (changes.map (fun c => max (f c) 0)).sum := by
    apply List.sum_nonneg
    intro x hx
    obtain ⟨c, -, rfl⟩ := List.mem_map.mp hx
    exact le_max_right _ _
  have hSeed (changes : List ℚ) : 0 ≤ (wilderSeed (.exact sqrt) period changes).1 ∧
      0 ≤ (wilderSeed (.exact sqrt) period changes).2 := by
    rw [wilderSeed_exact]
    exact ⟨div_nonneg (hSum (f := id) changes) (Nat.cast_nonneg _),
      div_nonneg (hSum changes) (Nat.cast_nonneg _)⟩
  rw [wilderState]
  generalize hStart : wilderSeed (.exact sqrt) period _ = averages
  have hAverages := hStart ▸ hSeed _
  clear hStart
  induction (priceChanges (.exact sqrt) prices).drop period generalizing averages with
  | nil => exact hAverages
  | cons change rest ih =>
      rw [List.foldl_cons]
      apply ih
      rw [wilderUpdate_exact]
      obtain ⟨hGain, hLoss⟩ := hAverages
      constructor <;> positivity

theorem relativeStrength_bounds (sqrt : ℚ → ℚ) {averages : ℚ × ℚ} (hGain : 0 ≤ averages.1)
    (hLoss : 0 ≤ averages.2) :
    0 ≤ relativeStrength (.exact sqrt) averages ∧
      relativeStrength (.exact sqrt) averages ≤ 100 := by
  rw [relativeStrength]
  split_ifs with hFlat hRising
  · norm_num
  · norm_num
  · have hRatio : 1 ≤ 1 + averages.1 / averages.2 :=
      le_add_of_nonneg_right (div_nonneg hGain hLoss)
    have hShare : 100 / (1 + averages.1 / averages.2) ≤ 100 :=
      div_le_self (by norm_num) hRatio
    have hPositive : 0 ≤ 100 / (1 + averages.1 / averages.2) := by positivity
    simp only [DecimalContext.exact_sub, DecimalContext.exact_quot, DecimalContext.exact_add]
    constructor <;> linarith

theorem rsi_is_wilder_recursion (sqrt : ℚ → ℚ) {period : Nat} (hPeriod : 1 ≤ period)
    (prices : List ℚ) :
    ∃ out, transform (.exact sqrt) .rsiWilderLeanCompat period (prices.map some) = .ok out ∧
      out.length = prices.length ∧
      (∀ last < prices.length, last < period → out[last]? = some none) ∧
      (∀ last < prices.length, period ≤ last → ∃ value,
        out[last]? = some (some value) ∧
        value = relativeStrength (.exact sqrt)
          (wilderState (.exact sqrt) period (prices.take (last + 1))) ∧
        0 ≤ value ∧ value ≤ 100) ∧
      ∀ (others : List ℚ) (out' : Series),
        transform (.exact sqrt) .rsiWilderLeanCompat period (others.map some) = .ok out' →
        ∀ last < prices.length, others.take (last + 1) = prices.take (last + 1) →
          out'[last]? = out[last]? := by
  obtain ⟨out, hOut, hLength, hRows⟩ := transform_rsi (.exact sqrt) prices period
  refine ⟨out, hOut, hLength, fun last hLast hBefore => ?_, fun last hLast hReady => ?_,
    fun others out' hOut' last hLast hPrefix => ?_⟩
  · rw [hRows last hLast, if_pos hBefore]
  · obtain ⟨hGain, hLoss⟩ := wilderState_nonneg sqrt hPeriod (prices.take (last + 1))
    obtain ⟨hLow, hHigh⟩ := relativeStrength_bounds sqrt hGain hLoss
    refine ⟨_, ?_, rfl, hLow, hHigh⟩
    rw [hRows last hLast, if_neg (Nat.not_lt.mpr hReady)]
  · obtain ⟨_, hOthers, -, hRows'⟩ :=
      transform_rsi (.exact sqrt) others period
    obtain rfl := Except.ok.inj (hOthers.symm.trans hOut')
    have hLast' : last < others.length := by
      have hLengths := congrArg List.length hPrefix
      rw [List.length_take, List.length_take] at hLengths
      omega
    rw [hRows' last hLast', hRows last hLast, hPrefix]

/-- A falling price of period one. -/
theorem rsi_is_wilder_recursion_falling :
    ∃ out, transform (.exact id) .rsiWilderLeanCompat 1 ([2, 1].map some) = .ok out ∧
      out[1]? = some (some 0) := by
  obtain ⟨out, hOut, -, -, hReady, -⟩ := rsi_is_wilder_recursion id le_rfl [2, 1]
  obtain ⟨value, hValue, hFold, -⟩ := hReady 1 (by decide) le_rfl
  refine ⟨out, hOut, hValue.trans ?_⟩
  rw [hFold]
  decide +kernel

end Exact

end RuleTrade
