import RuleTrade.Execution.Clamping

/-! Bounded allocation over exact arithmetic: what the returned weights satisfy,
and which bounds it meets. -/

namespace RuleTrade

open Library Normalization

section Start

variable {raw : Dict String ℚ} {floor cap : ℚ}

/-- Shares of the whole, none of them pinned. -/
def openingShares (raw : Dict String ℚ) : Normalization :=
  ⟨raw.mapValues (fun value => value / raw.values.sum), Dict.empty, raw.keys⟩

theorem current_openingShares (a : String) :
    (openingShares raw).current a = (1 / raw.values.sum) * raw.getD a 0 := by
  rw [current, openingShares, Dict.getD, Dict.get?_mapValues, Dict.getD]
  cases raw.get? a with
  | none => simp
  | some value =>
      show value / _ = _
      simp only [Option.getD_some]
      ring

theorem openingShares_graded (hRaw : ∀ v ∈ raw.values, 0 ≤ v) :
    Graded raw floor cap (openingShares raw) where
  keys := Dict.keys_mapValues _ _
  free_nodup := raw.nodup
  free_subset := List.Subset.refl _
  fixed_iff a := by simp [openingShares]
  at_bound a v hFixed := by cases hFixed
  proportional := ⟨_, fun a _ => current_openingShares a⟩
  rising := ⟨_, one_div_nonneg.mpr (List.sum_nonneg hRaw), fun a _ => current_openingShares a⟩
  above a _ b v hFixed := by cases hFixed
  below a _ b v hFixed := by cases hFixed
  ordered a b v w hFixed := by cases hFixed
  funded _ := by
    show (0 : ℚ) ≤ 1 - (Dict.empty : Dict String ℚ).values.sum
    norm_num [Dict.values, Dict.empty]

end Start

section Sound

variable {sqrt : ℚ → ℚ} {raw weights : Dict String ℚ} {minimum maximum : Option ℚ}
  {cash : Option String}

/-- Weights the loop leaves, before a remainder is closed. -/
def clampedWeights (sqrt : ℚ → ℚ) (raw : Dict String ℚ) (floor cap : ℚ) : Dict String ℚ :=
  ((openingShares raw).settle (.exact sqrt) raw floor cap (raw.keys.length + 1)).merged

theorem clampedWeights_clamps {floor cap : ℚ} (hRaw : ∀ v ∈ raw.values, 0 ≤ v)
    (hBounds : floor ≤ cap) (hCap : 0 < cap) :
    Clamps raw floor cap (clampedWeights sqrt raw floor cap) := by
  have hKeep (m : Normalization) (h : Graded raw floor cap m) :
      Graded raw floor cap (m.round (.exact sqrt) raw floor cap) ∧
        Within floor cap (m.round (.exact sqrt) raw floor cap) :=
    ⟨round_graded (getD_nonneg hRaw) hBounds hCap h, within_round (getD_nonneg hRaw) h.toClamped⟩
  obtain ⟨hGraded, hWithin⟩ :=
    settle_induction hKeep raw.keys.length (openingShares_graded hRaw)
  exact hGraded.clamps hBounds hWithin

/-- A normalization that returns passed its guards and closed the remainder. -/
theorem boundedNormalize_eq_ok_iff :
    boundedNormalize (.exact sqrt) raw minimum maximum cash = .ok weights ↔
      raw.isEmpty = false ∧ 0 < raw.total ∧
      boundOr minimum 0 * raw.keys.length ≤ 1 ∧
      (1 ≤ boundOr maximum 1 * raw.keys.length ∨ cash.isSome = true) ∧
      closeRemainder (.exact sqrt) raw
        (clampedWeights sqrt raw (boundOr minimum 0) (boundOr maximum 1)) cash = .ok weights := by
  simp only [boundedNormalize, DecimalContext.exact_sum, DecimalContext.exact_mul,
    Dict.length_values]
  by_cases hEmpty : raw.isEmpty = true ∨ raw.values.sum ≤ 0
  · rw [if_pos hEmpty]
    constructor
    · intro h
      cases h
    · rintro ⟨hSome, hTotal, -⟩
      rcases hEmpty with hNone | hLow
      · rw [hSome] at hNone
        cases hNone
      · exact absurd hLow (not_le.mpr hTotal)
  · obtain ⟨hSome, hTotal⟩ := not_or.mp hEmpty
    rw [if_neg hEmpty]
    by_cases hFloor : 1 < boundOr minimum 0 * raw.keys.length
    · rw [if_pos hFloor]
      constructor
      · intro h
        cases h
      · rintro ⟨-, -, hFits, -⟩
        exact absurd hFits (not_le.mpr hFloor)
    · rw [if_neg hFloor]
      by_cases hCap : boundOr maximum 1 * raw.keys.length < 1 ∧ cash.isNone = true
      · rw [if_pos hCap]
        constructor
        · intro h
          cases h
        · rintro ⟨-, -, -, hFits | hCash, -⟩
          · exact absurd hFits (not_le.mpr hCap.1)
          · rw [Option.isNone_iff_eq_none.mp hCap.2] at hCash
            cases hCash
      · rw [if_neg hCap]
        have hFits : 1 ≤ boundOr maximum 1 * raw.keys.length ∨ cash.isSome = true := by
          rcases not_and_or.mp hCap with hEnough | hCash
          · exact Or.inl (not_lt.mp hEnough)
          · exact Or.inr (by simpa [Option.isSome_iff_ne_none] using hCash)
        constructor
        · intro h
          exact ⟨Bool.eq_false_iff.mpr hSome, not_le.mp hTotal, not_lt.mp hFloor, hFits, h⟩
        · rintro ⟨-, -, -, -, h⟩
          exact h

/-- Closing changes at most one weight: a tiny remainder goes to an asset of the
largest raw weight, a larger one that is missing goes to cash. -/
theorem closeRemainder_eq_ok_iff {clamped : Dict String ℚ} {anchor : String}
    (hAnchor : remainderAnchor raw = some anchor) :
    closeRemainder (.exact sqrt) raw clamped cash = .ok weights ↔
      (|1 - clamped.total| ≤ remainderTolerance ∧
        weights = clamped.set anchor (clamped.getD anchor 0 + (1 - clamped.total))) ∨
      (remainderTolerance < 1 - clamped.total ∧ ∃ asset, cash = some asset ∧
        weights = clamped.set asset (clamped.getD asset 0 + (1 - clamped.total))) := by
  simp only [closeRemainder, DecimalContext.exact_sum, DecimalContext.exact_sub,
    DecimalContext.exact_add, hAnchor]
  change (if |1 - clamped.total| ≤ remainderTolerance then _ else
    if 1 < clamped.total then _ else if clamped.total < 1 then _ else _) = _ ↔ _
  have hPositive : 0 < remainderTolerance := by norm_num [remainderTolerance]
  by_cases hTiny : |1 - clamped.total| ≤ remainderTolerance
  · rw [if_pos hTiny]
    constructor
    · intro h
      exact Or.inl ⟨hTiny, (Except.ok.inj h).symm⟩
    · rintro (⟨-, rfl⟩ | ⟨hLarge, -⟩)
      · rfl
      · exact absurd ((le_abs_self _).trans hTiny) (not_le.mpr hLarge)
  · rw [if_neg hTiny]
    by_cases hOver : 1 < clamped.total
    · rw [if_pos hOver]
      constructor
      · intro h
        cases h
      · rintro (⟨hSmall, -⟩ | ⟨hLarge, -⟩)
        · exact absurd hSmall hTiny
        · linarith
    · have hRemainder : |1 - clamped.total| = 1 - clamped.total := abs_of_nonneg (by linarith)
      rw [hRemainder, not_le] at hTiny
      rw [if_neg hOver, if_pos (by linarith)]
      cases cash with
      | none =>
          constructor
          · intro h
            cases h
          · rintro (⟨hSmall, -⟩ | ⟨-, asset, hCash, -⟩)
            · rw [hRemainder] at hSmall
              exact absurd hSmall (not_le.mpr hTiny)
            · cases hCash
      | some asset =>
          constructor
          · intro h
            exact Or.inr ⟨hTiny, asset, rfl, (Except.ok.inj h).symm⟩
          · rintro (⟨hSmall, -⟩ | ⟨-, other, hCash, rfl⟩)
            · rw [hRemainder] at hSmall
              exact absurd hSmall (not_le.mpr hTiny)
            · cases hCash
              rfl

/-- The floor of a normalization that returns is not above its cap. -/
theorem floor_le_cap (hMaximum : ∀ high ∈ maximum, 0 < high)
    (hOrdered : ∀ low ∈ minimum, ∀ high ∈ maximum, low ≤ high) (hSome : raw.isEmpty = false)
    (hFits : boundOr minimum 0 * raw.keys.length ≤ 1) :
    boundOr minimum 0 ≤ boundOr maximum 1 ∧ 0 < boundOr maximum 1 := by
  have hCap : 0 < boundOr maximum 1 := by
    cases maximum with
    | none => exact zero_lt_one
    | some high =>
        rw [boundOr]
        split_ifs
        · exact zero_lt_one
        · exact hMaximum high rfl
  refine ⟨?_, hCap⟩
  rcases le_or_gt (boundOr minimum 0) 0 with hFloor | hFloor
  · exact hFloor.trans hCap.le
  · cases maximum with
    | none =>
        have hCount : (1 : ℚ) ≤ raw.keys.length := by
          have hLength : 0 < raw.keys.length := by
            rw [Dict.keys, List.length_map, List.length_pos_iff]
            intro hNil
            rw [Dict.isEmpty, hNil] at hSome
            cases hSome
          exact_mod_cast hLength
        show boundOr minimum 0 ≤ 1
        nlinarith
    | some high =>
        cases minimum with
        | none => exact absurd hFloor (lt_irrefl _)
        | some low =>
            have hLow : low ≠ 0 := by
              rintro rfl
              exact absurd hFloor (by simp [boundOr])
            have hHigh : high ≠ 0 := (hMaximum high rfl).ne'
            simp only [boundOr, if_neg hLow, if_neg hHigh]
            exact hOrdered low rfl high rfl

theorem twoNames_nodup : ["A", "B"].Nodup := by decide

def twoScores (first second : ℚ) : Dict String ℚ :=
  ⟨[("A", first), ("B", second)], twoNames_nodup⟩

end Sound

end RuleTrade
