import RuleTrade.Execution.Allocation

/-! Bounded normalization over exact arithmetic. Every asset ends between floor
and cap, and the asset of the largest raw weight ends with the largest weight,
so a remainder closed there leaves no weight negative. -/

namespace RuleTrade

open Library

/-- Weights that spend the whole capital and nothing short. -/
structure Conserves (weights : Dict String ℚ) : Prop where
  nonneg : ∀ w ∈ weights.values, 0 ≤ w
  total : weights.total = 1

/-- Raw weights, bounds, and an asset of the largest raw weight. -/
structure Apportionment where
  raw : Dict String ℚ
  floor : ℚ
  cap : ℚ
  anchor : String
  nonneg : ∀ a, 0 ≤ raw.getD a 0
  anchor_mem : anchor ∈ raw.keys
  anchor_pos : 0 < raw.getD anchor 0
  anchor_max : ∀ a, raw.getD a 0 ≤ raw.getD anchor 0
  floor_nonneg : 0 ≤ floor
  floor_le_cap : floor ≤ cap
  floors_fit : floor * raw.keys.length ≤ 1

namespace Normalization

variable {sqrt : ℚ → ℚ}

/-- Current weight of an asset, pinned ones aside. -/
def current (n : Normalization) (a : String) : ℚ := n.weights.getD a 0

/-- Bound at which a weight is pinned. -/
def bound? (floor cap w : ℚ) : Option ℚ :=
  if w < floor then some floor else if cap < w then some cap else none

theorem bound?_eq_none {floor cap w : ℚ} :
    bound? floor cap w = none ↔ floor ≤ w ∧ w ≤ cap := by
  unfold bound?
  split_ifs with hLow hHigh
  · simp [hLow]
  · simp [hHigh]
  · exact ⟨fun _ => ⟨not_lt.mp hLow, not_lt.mp hHigh⟩, fun _ => rfl⟩

theorem bound?_eq_some {floor cap w b : ℚ} (h : bound? floor cap w = some b) :
    (b = floor ∧ w < floor) ∨ (b = cap ∧ cap < w) := by
  unfold bound? at h
  split_ifs at h with hLow hHigh
  · exact Or.inl ⟨(Option.some.inj h).symm, hLow⟩
  · exact Or.inr ⟨(Option.some.inj h).symm, hHigh⟩

theorem pin_eq (floor cap : ℚ) (n : Normalization) (a : String) :
    n.pin floor cap a =
      match bound? floor cap (n.current a) with
      | none => n
      | some b => { n with fixed := n.fixed.set a b, free := n.free.erase a } := by
  simp only [pin, bound?, current]
  by_cases hLow : n.weights.getD a 0 < floor
  · simp [hLow]
  · by_cases hHigh : cap < n.weights.getD a 0 <;> simp [hLow, hHigh]

/-- What pinning a list of assets does. -/
theorem pinAll_spec (floor cap : ℚ) (assets : List String) (n : Normalization)
    (hFree : n.free.Nodup) (hAssets : assets.Nodup) :
    (assets.foldl (pin floor cap) n).weights = n.weights ∧
      (assets.foldl (pin floor cap) n).free.Nodup ∧
      (∀ a, a ∈ (assets.foldl (pin floor cap) n).free ↔
        a ∈ n.free ∧ (a ∈ assets → bound? floor cap (n.current a) = none)) ∧
      (∀ a, (assets.foldl (pin floor cap) n).fixed.get? a =
        (if a ∈ assets then bound? floor cap (n.current a) else none).or (n.fixed.get? a)) := by
  induction assets generalizing n with
  | nil => exact ⟨rfl, hFree, by simp, by simp⟩
  | cons first rest ih =>
      obtain ⟨hFirst, hRest⟩ := List.nodup_cons.mp hAssets
      rw [List.foldl_cons, pin_eq]
      cases hBound : bound? floor cap (n.current first) with
      | none =>
          obtain ⟨hWeights, hNodup, hMem, hFixed⟩ := ih n hFree hRest
          refine ⟨hWeights, hNodup, fun a => ?_, fun a => ?_⟩
          · rw [hMem]
            by_cases ha : a = first
            · subst ha
              simp [hFirst, hBound]
            · simp [ha]
          · rw [hFixed]
            by_cases ha : a = first
            · subst ha
              simp [hFirst, hBound]
            · simp [ha]
      | some b =>
          obtain ⟨hWeights, hNodup, hMem, hFixed⟩ :=
            ih { n with fixed := n.fixed.set first b, free := n.free.erase first }
              (hFree.erase first) hRest
          refine ⟨hWeights, hNodup, fun a => ?_, fun a => ?_⟩
          · rw [hMem, hFree.mem_erase_iff]
            by_cases ha : a = first
            · subst ha
              simp [hBound]
            · simp [ha, current]
          · rw [hFixed, Dict.get?_set]
            by_cases ha : a = first
            · subst ha
              simp [hFirst, hBound]
            · simp [ha, current]

variable (p : Apportionment)

/-- What every round finds. While the anchor is free only floors are pinned,
and once it is pinned low nothing is free any more. -/
structure Balanced (n : Normalization) : Prop where
  keys : n.weights.keys = p.raw.keys
  free_nodup : n.free.Nodup
  free_subset : n.free ⊆ p.raw.keys
  fixed_iff : ∀ a, a ∈ n.fixed.keys ↔ a ∈ p.raw.keys ∧ a ∉ n.free
  fixed_bounds : ∀ a v, n.fixed.get? a = some v → p.floor ≤ v ∧ v ≤ p.cap
  anchored : (p.anchor ∈ n.free ∧ ∀ a v, n.fixed.get? a = some v → v = p.floor) ∨
    n.fixed.get? p.anchor = some p.cap ∨
    (n.free = [] ∧ ∀ a v, n.fixed.get? a = some v → v = p.floor)

/-- What every round leaves. -/
structure Settled (n : Normalization) : Prop extends Balanced p n where
  free_bounds : ∀ a ∈ n.free, p.floor ≤ n.current a ∧ n.current a ≤ p.cap
  free_dominated : p.anchor ∈ n.free → ∀ a ∈ n.free, n.current a ≤ n.current p.anchor

variable {p}

section Spread

variable {n : Normalization}

def remaining (n : Normalization) : ℚ := 1 - n.fixed.values.sum

def freeTotal (p : Apportionment) (n : Normalization) : ℚ :=
  (n.free.map (fun a => p.raw.getD a 0)).sum

theorem spread_free (raw : Dict String ℚ) : (n.spread (.exact sqrt) raw).free = n.free := by
  simp only [spread]
  split_ifs <;> rfl

theorem spread_fixed (raw : Dict String ℚ) : (n.spread (.exact sqrt) raw).fixed = n.fixed := by
  simp only [spread]
  split_ifs <;> rfl

theorem spread_keys (h : Balanced p n) :
    (n.spread (.exact sqrt) p.raw).weights.keys = p.raw.keys := by
  simp only [spread]
  split_ifs
  · rw [← h.keys]
    exact Dict.keys_foldl_set (fun a ha => h.keys ▸ h.free_subset ha)
  · exact h.keys

theorem freeTotal_pos (h : p.anchor ∈ n.free) : 0 < freeTotal p n := by
  have hLe : p.raw.getD p.anchor 0 ≤ freeTotal p n := by
    refine List.single_le_sum ?_ _ (List.mem_map.mpr ⟨p.anchor, h, rfl⟩)
    intro w hw
    obtain ⟨a, -, rfl⟩ := List.mem_map.mp hw
    exact p.nonneg a
  exact p.anchor_pos.trans_le hLe

theorem spread_current (h : p.anchor ∈ n.free) {a : String} (ha : a ∈ n.free) :
    (n.spread (.exact sqrt) p.raw).current a =
      remaining n * p.raw.getD a 0 / freeTotal p n := by
  have hFree : n.free ≠ [] := List.ne_nil_of_mem ha
  have hTotal : 0 < (n.free.map (fun a => p.raw.getD a 0)).sum := freeTotal_pos h
  simp only [spread, current, DecimalContext.exact_sum, DecimalContext.exact_sub,
    DecimalContext.exact_mul, DecimalContext.exact_quot, hFree, hTotal, ne_eq, not_false_eq_true,
    and_self, if_true]
  rw [Dict.getD_foldl_set, if_pos ha]
  rfl

/-- Floors alone never spend more than the capital. -/
theorem remaining_nonneg (h : Balanced p n) (hFloor : ∀ a v, n.fixed.get? a = some v → v = p.floor) :
    0 ≤ remaining n := by
  have hLength : n.fixed.keys.length ≤ p.raw.keys.length :=
    (List.subperm_of_subset n.fixed.nodup (fun a ha => ((h.fixed_iff a).mp ha).1)).length_le
  have hSum : n.fixed.values.sum ≤ n.fixed.values.length • p.floor := by
    refine List.sum_le_card_nsmul _ _ (fun v hv => ?_)
    obtain ⟨⟨a, w⟩, hMem, rfl⟩ := List.mem_map.mp hv
    exact (hFloor a w (Dict.get?_of_mem hMem)).le
  rw [Dict.length_values, nsmul_eq_mul] at hSum
  have hScaled : (n.fixed.keys.length : ℚ) * p.floor ≤ p.floor * p.raw.keys.length := by
    rw [mul_comm p.floor]
    exact mul_le_mul_of_nonneg_right (Nat.cast_le.mpr hLength) p.floor_nonneg
  have hFit := p.floors_fit
  unfold remaining
  linarith

/-- While the anchor is free, no free asset gets more than it. -/
theorem spread_dominated (h : Balanced p n) (hAnchor : p.anchor ∈ n.free)
    (hFloor : ∀ a v, n.fixed.get? a = some v → v = p.floor) {a : String} (ha : a ∈ n.free) :
    (n.spread (.exact sqrt) p.raw).current a ≤ (n.spread (.exact sqrt) p.raw).current p.anchor := by
  rw [spread_current hAnchor ha, spread_current hAnchor hAnchor]
  exact div_le_div_of_nonneg_right
    (mul_le_mul_of_nonneg_left (p.anchor_max a) (remaining_nonneg h hFloor))
    (freeTotal_pos hAnchor).le

end Spread

section Round

variable {n : Normalization}

/-- What a round does, in terms of the spread weights. -/
theorem round_pins {raw : Dict String ℚ} (floor cap : ℚ) (h : n.free.Nodup) :
    (n.round (.exact sqrt) raw floor cap).weights = (n.spread (.exact sqrt) raw).weights ∧
      (n.round (.exact sqrt) raw floor cap).free.Nodup ∧
      (∀ a, a ∈ (n.round (.exact sqrt) raw floor cap).free ↔ a ∈ n.free ∧
        bound? floor cap ((n.spread (.exact sqrt) raw).current a) = none) ∧
      (∀ a, (n.round (.exact sqrt) raw floor cap).fixed.get? a =
        (if a ∈ n.free then bound? floor cap ((n.spread (.exact sqrt) raw).current a)
          else none).or (n.fixed.get? a)) := by
  have hNodup : (Sequence.sortBy id n.free).Nodup :=
    (List.perm_insertionSort _ n.free).nodup_iff.mpr h
  have hSpec := pinAll_spec floor cap (Sequence.sortBy id n.free)
    (n.spread (.exact sqrt) raw) (by rw [spread_free]; exact h) hNodup
  rw [spread_free, spread_fixed] at hSpec
  simp only [Sequence.mem_sortBy] at hSpec
  simp only [round, spread_free]
  refine ⟨hSpec.1, hSpec.2.1, fun a => ?_, hSpec.2.2.2⟩
  rw [hSpec.2.2.1]
  exact ⟨fun ha => ⟨ha.1, ha.2 ha.1⟩, fun ha => ⟨ha.1, fun _ => ha.2⟩⟩

theorem round_spec (h : Balanced p n) :
    (n.round (.exact sqrt) p.raw p.floor p.cap).weights =
        (n.spread (.exact sqrt) p.raw).weights ∧
      (n.round (.exact sqrt) p.raw p.floor p.cap).free.Nodup ∧
      (∀ a, a ∈ (n.round (.exact sqrt) p.raw p.floor p.cap).free ↔ a ∈ n.free ∧
        bound? p.floor p.cap ((n.spread (.exact sqrt) p.raw).current a) = none) ∧
      (∀ a, (n.round (.exact sqrt) p.raw p.floor p.cap).fixed.get? a =
        (if a ∈ n.free then bound? p.floor p.cap ((n.spread (.exact sqrt) p.raw).current a)
          else none).or (n.fixed.get? a)) :=
  round_pins p.floor p.cap h.free_nodup

theorem fixed_round {a : String} {v : ℚ} (h : Balanced p n)
    (hFixed : (n.round (.exact sqrt) p.raw p.floor p.cap).fixed.get? a = some v) :
    (a ∈ n.free ∧ bound? p.floor p.cap ((n.spread (.exact sqrt) p.raw).current a) = some v) ∨
      n.fixed.get? a = some v := by
  rw [(round_spec h).2.2.2, Option.or_eq_some_iff] at hFixed
  rcases hFixed with hPinned | ⟨-, hOld⟩
  · split_ifs at hPinned with hFree
    exact Or.inl ⟨hFree, hPinned⟩
  · exact Or.inr hOld

theorem round_balanced (h : Balanced p n) :
    Balanced p (n.round (.exact sqrt) p.raw p.floor p.cap) where
  keys := by rw [(round_spec h).1, spread_keys h]
  free_nodup := (round_spec h).2.1
  free_subset := fun a ha => h.free_subset (((round_spec h).2.2.1 a).mp ha).1
  fixed_iff := by
    intro a
    rw [← Dict.get?_isSome_iff, (round_spec h).2.2.2, (round_spec h).2.2.1, Option.isSome_or,
      Bool.or_eq_true, Dict.get?_isSome_iff, h.fixed_iff]
    by_cases hFree : a ∈ n.free
    · have hKey := h.free_subset hFree
      cases bound? p.floor p.cap ((n.spread (.exact sqrt) p.raw).current a) <;>
        simp [hFree, hKey]
    · simp [hFree]
  fixed_bounds := by
    intro a v hFixed
    rcases fixed_round h hFixed with ⟨-, hPinned⟩ | hOld
    · rcases bound?_eq_some hPinned with ⟨rfl, -⟩ | ⟨rfl, -⟩
      · exact ⟨le_rfl, p.floor_le_cap⟩
      · exact ⟨p.floor_le_cap, le_rfl⟩
    · exact h.fixed_bounds a v hOld
  anchored := by
    rcases h.anchored with ⟨hAnchor, hFloor⟩ | hCap | ⟨hNone, hFloor⟩
    · have hMax {a : String} (ha : a ∈ n.free) : (n.spread (.exact sqrt) p.raw).current a ≤
          (n.spread (.exact sqrt) p.raw).current p.anchor :=
        spread_dominated h hAnchor hFloor ha
      by_cases hLow : (n.spread (.exact sqrt) p.raw).current p.anchor < p.floor
      -- an anchor pinned low takes every free asset down with it
      · refine Or.inr (Or.inr ⟨List.eq_nil_iff_forall_not_mem.mpr (fun a ha => ?_),
          fun a v hFixed => ?_⟩)
        · obtain ⟨hFree, hBound⟩ := ((round_spec h).2.2.1 a).mp ha
          exact absurd (bound?_eq_none.mp hBound).1 (not_le.mpr ((hMax hFree).trans_lt hLow))
        · rcases fixed_round h hFixed with ⟨hFree, hPinned⟩ | hOld
          · rcases bound?_eq_some hPinned with ⟨hv, -⟩ | ⟨-, hHigh⟩
            · exact hv
            · exact absurd (hHigh.trans_le ((hMax hFree).trans hLow.le))
                (not_lt.mpr p.floor_le_cap)
          · exact hFloor a v hOld
      · by_cases hHigh : p.cap < (n.spread (.exact sqrt) p.raw).current p.anchor
        · refine Or.inr (Or.inl ?_)
          rw [(round_spec h).2.2.2, if_pos hAnchor, bound?, if_neg hLow, if_pos hHigh]
          rfl
        · refine Or.inl ⟨?_, fun a v hFixed => ?_⟩
          · exact ((round_spec h).2.2.1 _).mpr
              ⟨hAnchor, bound?_eq_none.mpr ⟨not_lt.mp hLow, not_lt.mp hHigh⟩⟩
          · rcases fixed_round h hFixed with ⟨hFree, hPinned⟩ | hOld
            · rcases bound?_eq_some hPinned with ⟨hv, -⟩ | ⟨-, hAbove⟩
              · exact hv
              · exact absurd (hAbove.trans_le (hMax hFree)) hHigh
            · exact hFloor a v hOld
    · refine Or.inr (Or.inl ?_)
      have hKey := ((h.fixed_iff p.anchor).mp (Dict.mem_keys_of_get? hCap)).2
      rw [(round_spec h).2.2.2, if_neg hKey, hCap]
      rfl
    · refine Or.inr (Or.inr ⟨List.eq_nil_iff_forall_not_mem.mpr (fun a ha => ?_),
        fun a v hFixed => ?_⟩)
      · have hFree := (((round_spec h).2.2.1 a).mp ha).1
        rw [hNone] at hFree
        cases hFree
      · rcases fixed_round h hFixed with ⟨hFree, -⟩ | hOld
        · rw [hNone] at hFree
          cases hFree
        · exact hFloor a v hOld

theorem current_round (h : Balanced p n) (a : String) :
    (n.round (.exact sqrt) p.raw p.floor p.cap).current a =
      (n.spread (.exact sqrt) p.raw).current a := by
  unfold current
  rw [(round_spec h).1]

theorem round_settled (h : Balanced p n) :
    Settled p (n.round (.exact sqrt) p.raw p.floor p.cap) where
  toBalanced := round_balanced h
  free_bounds := by
    intro a ha
    rw [current_round h]
    exact bound?_eq_none.mp (((round_spec h).2.2.1 a).mp ha).2
  free_dominated := by
    intro hAnchor a ha
    rw [current_round h, current_round h]
    have hAnchor' := (((round_spec h).2.2.1 _).mp hAnchor).1
    have ha' := (((round_spec h).2.2.1 a).mp ha).1
    rcases h.anchored with ⟨-, hFloor⟩ | hCap | ⟨hNone, -⟩
    · exact spread_dominated h hAnchor' hFloor ha'
    · exact absurd hAnchor' ((h.fixed_iff p.anchor).mp (Dict.mem_keys_of_get? hCap)).2
    · rw [hNone] at hAnchor'
      cases hAnchor'

/-- Run lemma: any positive number of rounds ends settled. -/
theorem settle_settled (rounds : Nat) (h : Balanced p n) :
    Settled p (n.settle (.exact sqrt) p.raw p.floor p.cap (rounds + 1)) := by
  induction rounds generalizing n with
  | zero =>
      simp only [settle]
      split_ifs <;> exact round_settled h
  | succ rounds ih =>
      rw [settle]
      split_ifs
      · exact round_settled h
      · exact ih (round_balanced h)

end Round

section Merge

variable {n : Normalization}

/-- Final weights: pinned ones win. -/
def merged (n : Normalization) : Dict String ℚ := n.weights.update n.fixed

theorem keys_merged (h : n.fixed.keys ⊆ n.weights.keys) : n.merged.keys = n.weights.keys := by
  rw [merged, Dict.keys_update h]

theorem merged_fixed {a : String} {v : ℚ} (hFixed : n.fixed.get? a = some v) :
    n.merged.getD a 0 = v := by
  rw [merged, Dict.getD, Dict.get?_update, hFixed]
  rfl

theorem merged_unpinned {a : String} (ha : a ∉ n.fixed.keys) :
    n.merged.getD a 0 = n.current a := by
  rw [merged, Dict.getD, Dict.get?_update, Dict.get?_eq_none_iff.mpr ha]
  rfl

/-- Every asset is pinned or free. -/
theorem pinned_or_free {a : String} (h : a ∉ n.free → a ∈ n.fixed.keys) :
    (∃ v, n.fixed.get? a = some v) ∨ a ∈ n.free := by
  by_cases hFree : a ∈ n.free
  · exact Or.inr hFree
  · exact Or.inl (Option.isSome_iff_exists.mp (Dict.get?_isSome_iff.mpr (h hFree)))

theorem merged_keys (h : Balanced p n) : n.merged.keys = p.raw.keys := by
  rw [keys_merged, h.keys]
  intro a ha
  rw [h.keys]
  exact ((h.fixed_iff a).mp ha).1

theorem merged_free (h : Balanced p n) {a : String} (ha : a ∈ n.free) :
    n.merged.getD a 0 = n.current a :=
  merged_unpinned (fun hKey => ((h.fixed_iff a).mp hKey).2 ha)

theorem fixed_or_free (h : Balanced p n) {a : String} (ha : a ∈ p.raw.keys) :
    (∃ v, n.fixed.get? a = some v) ∨ a ∈ n.free :=
  pinned_or_free (fun hFree => (h.fixed_iff a).mpr ⟨ha, hFree⟩)

theorem merged_bounds (h : Settled p n) {a : String} (ha : a ∈ p.raw.keys) :
    p.floor ≤ n.merged.getD a 0 ∧ n.merged.getD a 0 ≤ p.cap := by
  rcases fixed_or_free h.toBalanced ha with ⟨v, hFixed⟩ | hFree
  · rw [merged_fixed hFixed]
    exact h.fixed_bounds a v hFixed
  · rw [merged_free h.toBalanced hFree]
    exact h.free_bounds a hFree

/-- The anchor ends with the largest weight. -/
theorem merged_dominated (h : Settled p n) {a : String} (ha : a ∈ p.raw.keys) :
    n.merged.getD a 0 ≤ n.merged.getD p.anchor 0 := by
  rcases h.anchored with ⟨hAnchor, hFloor⟩ | hCap | ⟨hNone, hFloor⟩
  · rcases fixed_or_free h.toBalanced ha with ⟨v, hFixed⟩ | hFree
    · rw [merged_fixed hFixed, hFloor a v hFixed]
      exact (merged_bounds h p.anchor_mem).1
    · rw [merged_free h.toBalanced hFree, merged_free h.toBalanced hAnchor]
      exact h.free_dominated hAnchor a hFree
  · rw [merged_fixed hCap]
    exact (merged_bounds h ha).2
  · rcases fixed_or_free h.toBalanced ha with ⟨v, hFixed⟩ | hFree
    · rw [merged_fixed hFixed, hFloor a v hFixed]
      exact (merged_bounds h p.anchor_mem).1
    · rw [hNone] at hFree
      cases hFree

end Merge

end Normalization

section Close

variable {sqrt : ℚ → ℚ} {p : Apportionment} {n : Normalization}

open Normalization

theorem merged_total_le (h : Settled p n) :
    n.merged.total ≤ p.raw.keys.length * n.merged.getD p.anchor 0 := by
  have hSum : n.merged.values.sum ≤ n.merged.values.length • n.merged.getD p.anchor 0 := by
    refine List.sum_le_card_nsmul _ _ (fun v hv => ?_)
    obtain ⟨a, ha, rfl⟩ := Dict.mem_values_of_getD 0 hv
    rw [merged_keys h.toBalanced] at ha
    exact merged_dominated h ha
  rwa [Dict.length_values, merged_keys h.toBalanced, nsmul_eq_mul] at hSum

/-- A remainder within the tolerance leaves the anchor's weight positive. -/
theorem anchor_absorbs (h : Settled p n) (hSize : p.raw.keys.length ≤ 100)
    (hRemainder : |1 - n.merged.total| ≤ remainderTolerance) :
    0 ≤ n.merged.getD p.anchor 0 + (1 - n.merged.total) := by
  have hNonneg := p.floor_nonneg.trans (merged_bounds h p.anchor_mem).1
  have hLe := merged_total_le h
  have hScaled : (p.raw.keys.length : ℚ) * n.merged.getD p.anchor 0 ≤
      100 * n.merged.getD p.anchor 0 :=
    mul_le_mul_of_nonneg_right (by exact_mod_cast hSize) hNonneg
  have hLow := (abs_le.mp hRemainder).1
  have hSmall : remainderTolerance ≤ 1 / 1000 := by
    unfold remainderTolerance
    norm_num
  linarith

theorem conserves_set {weights : Dict String ℚ} {a : String} {v : ℚ}
    (hNonneg : ∀ w ∈ weights.values, 0 ≤ w) (hValue : 0 ≤ weights.getD a 0 + v)
    (hTotal : weights.total + v = 1) :
    Conserves (weights.set a (weights.getD a 0 + v)) where
  nonneg := by
    intro w hw
    rcases Dict.mem_values_set hw with rfl | hw
    · exact hValue
    · exact hNonneg w hw
  total := by rw [Dict.total_set_add, hTotal]

theorem getD_nonneg {weights : Dict String ℚ} (h : ∀ w ∈ weights.values, 0 ≤ w) (a : String) :
    0 ≤ weights.getD a 0 := by
  by_cases ha : a ∈ weights.keys
  · exact h _ (Dict.getD_mem_values 0 ha)
  · rw [Dict.getD, Dict.get?_eq_none_iff.mpr ha]
    rfl

theorem closeRemainder_conserves (h : Settled p n) (hSize : p.raw.keys.length ≤ 100)
    (hAnchor : remainderAnchor p.raw = some p.anchor) {cash : Option String}
    {weights : Dict String ℚ}
    (hClosed : closeRemainder (.exact sqrt) p.raw n.merged cash = .ok weights) :
    Conserves weights := by
  have hNonneg : ∀ w ∈ n.merged.values, 0 ≤ w := by
    intro w hw
    obtain ⟨a, ha, rfl⟩ := Dict.mem_values_of_getD 0 hw
    rw [merged_keys h.toBalanced] at ha
    exact p.floor_nonneg.trans (merged_bounds h ha).1
  simp only [closeRemainder, DecimalContext.exact_sum, DecimalContext.exact_sub,
    DecimalContext.exact_add, hAnchor] at hClosed
  change (if |1 - n.merged.total| ≤ remainderTolerance then _ else _) = _ at hClosed
  split_ifs at hClosed with hTiny hOver hUnder
  · cases hClosed
    exact conserves_set hNonneg (anchor_absorbs h hSize hTiny) (add_sub_cancel _ _)
  · cases cash with
    | none => cases hClosed
    | some cash =>
        cases hClosed
        have hCash := getD_nonneg hNonneg cash
        have hLess : n.merged.total < 1 := hUnder
        exact conserves_set hNonneg (by change 0 ≤ _ + (1 - n.merged.total); linarith)
          (add_sub_cancel _ _)
  · have hExact : n.merged.total = 1 := le_antisymm (not_lt.mp hOver) (not_lt.mp hUnder)
    rw [hExact] at hTiny
    exact absurd (by norm_num [remainderTolerance]) hTiny

/-- The state a normalization starts from. -/
def Apportionment.start (p : Apportionment) : Normalization :=
  ⟨p.raw.mapValues (fun value => value / p.raw.values.sum), Dict.empty, p.raw.keys⟩

theorem start_balanced (p : Apportionment) : Balanced p p.start where
  keys := Dict.keys_mapValues _ _
  free_nodup := p.raw.nodup
  free_subset := List.Subset.refl _
  fixed_iff := by
    intro a
    simp [Apportionment.start]
  fixed_bounds := by
    intro a v hFixed
    cases hFixed
  anchored := Or.inl ⟨p.anchor_mem, by
    intro a v hFixed
    cases hFixed⟩

end Close

section Bounded

variable {sqrt : ℚ → ℚ} {raw weights : Dict String ℚ} {minimum maximum : Option ℚ}
  {cash : Option String}

theorem boundOr_minimum (h : inUnitInterval minimum = true) : 0 ≤ boundOr minimum 0 := by
  cases minimum with
  | none => rfl
  | some low =>
      simp only [inUnitInterval, Option.all_some, Bool.and_eq_true, decide_eq_true_eq] at h
      simp only [boundOr]
      split_ifs
      · rfl
      · exact h.1

/-- The floor never exceeds the cap, also where an absent bound is filled in. -/
theorem boundOr_ordered (hRange : inUnitInterval minimum = true ∧ inUnitInterval maximum = true)
    (hOrdered : minimum.all (fun low => maximum.all (fun high => low ≤ high)) = true) :
    boundOr minimum 0 ≤ boundOr maximum 1 := by
  obtain ⟨hMinimum, hMaximum⟩ := hRange
  cases minimum with
  | none =>
      cases maximum with
      | none => exact zero_le_one
      | some high =>
          simp only [inUnitInterval, Option.all_some, Bool.and_eq_true, decide_eq_true_eq]
            at hMaximum
          simp only [boundOr]
          split_ifs
          · exact zero_le_one
          · exact hMaximum.1
  | some low =>
      simp only [inUnitInterval, Option.all_some, Bool.and_eq_true, decide_eq_true_eq] at hMinimum
      have hLow : (if low = 0 then 0 else low) = low := by
        split_ifs with hZero
        · exact hZero.symm
        · rfl
      cases maximum with
      | none =>
          simp only [boundOr, hLow]
          exact hMinimum.2
      | some high =>
          simp only [Option.all_some, decide_eq_true_eq] at hOrdered
          simp only [boundOr, hLow]
          split_ifs
          · exact hMinimum.2
          · exact hOrdered

theorem exists_remainderAnchor (h : raw.isEmpty = false) :
    ∃ anchor, remainderAnchor raw = some anchor ∧ anchor ∈ raw.keys ∧
      ∀ a ∈ raw.keys, raw.getD a 0 ≤ raw.getD anchor 0 := by
  cases hAnchor : remainderAnchor raw with
  | none =>
      have hNil : Sequence.sortByDescending (fun asset => raw.getD asset 0)
          (Sequence.sortBy id raw.keys) = [] := List.head?_eq_none_iff.mp hAnchor
      have hLength := congrArg List.length hNil
      simp only [Sequence.sortByDescending, Sequence.sortBy, List.length_insertionSort,
        List.length_nil, List.length_eq_zero_iff] at hLength
      have hEntries : raw.entries = [] := List.map_eq_nil_iff.mp hLength
      simp [Dict.isEmpty, hEntries] at h
  | some anchor =>
      obtain ⟨hMem, hMax⟩ := Sequence.head_sortByDescending hAnchor
      exact ⟨anchor, rfl, Sequence.mem_sortBy.mp hMem,
        fun a ha => hMax a (Sequence.mem_sortBy.mpr ha)⟩

/-- A bounded normalization that returns closes a settled apportionment. -/
theorem boundedNormalize_apportioned (hRaw : ∀ v ∈ raw.values, 0 ≤ v)
    (hRange : inUnitInterval minimum = true ∧ inUnitInterval maximum = true)
    (hOrdered : minimum.all (fun low => maximum.all (fun high => low ≤ high)) = true)
    (h : boundedNormalize (.exact sqrt) raw minimum maximum cash = .ok weights) :
    ∃ p : Apportionment, p.raw = raw ∧ p.floor = boundOr minimum 0 ∧ p.cap = boundOr maximum 1 ∧
      remainderAnchor p.raw = some p.anchor ∧
      closeRemainder (.exact sqrt) p.raw
        (p.start.settle (.exact sqrt) p.raw p.floor p.cap (p.raw.keys.length + 1)).merged cash =
        .ok weights := by
  simp only [boundedNormalize, DecimalContext.exact_sum, DecimalContext.exact_mul,
    Dict.length_values] at h
  split_ifs at h with hEmpty hFloor hCap
  obtain ⟨hNonempty, hTotal⟩ := not_or.mp hEmpty
  obtain ⟨anchor, hAnchor, hMem, hMax⟩ :=
    exists_remainderAnchor (Bool.eq_false_iff.mpr hNonempty)
  have hGetD := getD_nonneg hRaw
  have hMaxAll (a : String) : raw.getD a 0 ≤ raw.getD anchor 0 := by
    by_cases ha : a ∈ raw.keys
    · exact hMax a ha
    · rw [Dict.getD, Dict.get?_eq_none_iff.mpr ha]
      exact hGetD anchor
  have hPos : 0 < raw.getD anchor 0 := by
    refine lt_of_not_ge (fun hZero => hTotal ?_)
    have hSum : raw.values.sum ≤ raw.values.length • (0 : ℚ) := by
      refine List.sum_le_card_nsmul _ _ (fun v hv => ?_)
      obtain ⟨a, -, rfl⟩ := Dict.mem_values_of_getD 0 hv
      exact (hMaxAll a).trans hZero
    rwa [nsmul_zero] at hSum
  let p : Apportionment := {
    raw := raw, floor := boundOr minimum 0, cap := boundOr maximum 1, anchor := anchor
    nonneg := hGetD, anchor_mem := hMem, anchor_pos := hPos, anchor_max := hMaxAll
    floor_nonneg := boundOr_minimum hRange.1
    floor_le_cap := boundOr_ordered hRange hOrdered
    floors_fit := not_lt.mp hFloor }
  exact ⟨p, rfl, rfl, rfl, hAnchor, h⟩

/-- Bounded normalization of nonnegative raw weights conserves the capital. -/
theorem boundedNormalize_conserves (hRaw : ∀ v ∈ raw.values, 0 ≤ v)
    (hSize : raw.keys.length ≤ 100)
    (hRange : inUnitInterval minimum = true ∧ inUnitInterval maximum = true)
    (hOrdered : minimum.all (fun low => maximum.all (fun high => low ≤ high)) = true)
    (h : boundedNormalize (.exact sqrt) raw minimum maximum cash = .ok weights) :
    Conserves weights := by
  obtain ⟨p, rfl, -, -, hAnchor, hClosed⟩ :=
    boundedNormalize_apportioned hRaw hRange hOrdered h
  exact closeRemainder_conserves
    (Normalization.settle_settled p.raw.keys.length (start_balanced p)) hSize hAnchor hClosed

end Bounded

end RuleTrade
