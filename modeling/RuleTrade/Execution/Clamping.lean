import RuleTrade.Execution.Normalize
import Mathlib.Algebra.BigOperators.Ring.Finset
import Mathlib.Algebra.Order.BigOperators.Group.Finset

/-! The clamping loop for any floor and cap. Pinned weights stand at a bound, and
free weights stay proportional to their raw values. -/

namespace RuleTrade

open Library

namespace Normalization

variable {sqrt : ℚ → ℚ} {raw : Dict String ℚ} {floor cap : ℚ} {n : Normalization}

/-- Raw weight of the free assets. -/
def freeRaw (raw : Dict String ℚ) (n : Normalization) : ℚ :=
  (n.free.map (fun a => raw.getD a 0)).sum

/-- Weight of a free asset for each unit of its raw weight. -/
def scale (raw : Dict String ℚ) (n : Normalization) : ℚ := remaining n / freeRaw raw n

/-- What the loop keeps. -/
structure Clamped (raw : Dict String ℚ) (floor cap : ℚ) (n : Normalization) : Prop where
  keys : n.weights.keys = raw.keys
  free_nodup : n.free.Nodup
  free_subset : n.free ⊆ raw.keys
  fixed_iff : ∀ a, a ∈ n.fixed.keys ↔ a ∈ raw.keys ∧ a ∉ n.free
  at_bound : ∀ a v, n.fixed.get? a = some v → v = floor ∨ v = cap
  proportional : ∃ factor, ∀ a ∈ n.free, n.current a = factor * raw.getD a 0

section Spread

theorem freeRaw_nonneg (hRaw : ∀ a, 0 ≤ raw.getD a 0) (n : Normalization) : 0 ≤ freeRaw raw n := by
  apply List.sum_nonneg
  intro v hv
  obtain ⟨a, -, rfl⟩ := List.mem_map.mp hv
  exact hRaw a

/-- Where the free assets have no raw weight, none of them has any. -/
theorem raw_of_freeRaw (hRaw : ∀ a, 0 ≤ raw.getD a 0) (h : freeRaw raw n = 0) {a : String}
    (ha : a ∈ n.free) : raw.getD a 0 = 0 := by
  have hLe : raw.getD a 0 ≤ freeRaw raw n := by
    refine List.single_le_sum (fun v hv => ?_) _ (List.mem_map.mpr ⟨a, ha, rfl⟩)
    obtain ⟨b, -, rfl⟩ := List.mem_map.mp hv
    exact hRaw b
  exact le_antisymm (hLe.trans h.le) (hRaw a)

/-- A spread gives every free asset its share of what is left. -/
theorem spread_scale (hRaw : ∀ a, 0 ≤ raw.getD a 0) (h : Clamped raw floor cap n) {a : String}
    (ha : a ∈ n.free) :
    (n.spread (.exact sqrt) raw).current a = scale raw n * raw.getD a 0 := by
  have hFree : n.free ≠ [] := List.ne_nil_of_mem ha
  rcases (freeRaw_nonneg hRaw n).eq_or_lt with hZero | hPositive
  · obtain ⟨factor, hFactor⟩ := h.proportional
    have hNone : raw.getD a 0 = 0 := raw_of_freeRaw hRaw hZero.symm ha
    have hKeep : ¬(n.free ≠ [] ∧ 0 < (n.free.map (fun a => raw.getD a 0)).sum) :=
      fun hSpread => absurd hZero hSpread.2.ne
    simp only [spread, DecimalContext.exact_sum, if_neg hKeep]
    rw [hFactor a ha, hNone, mul_zero, mul_zero]
  · have hTotal : 0 < (n.free.map (fun a => raw.getD a 0)).sum := hPositive
    simp only [spread, current, DecimalContext.exact_sum, DecimalContext.exact_sub,
      DecimalContext.exact_mul, DecimalContext.exact_quot, hFree, hTotal, ne_eq,
      not_false_eq_true, and_self, if_true]
    rw [Dict.getD_foldl_set, if_pos ha, mul_div_right_comm]
    rfl

theorem spread_clamped_keys (h : Clamped raw floor cap n) :
    (n.spread (.exact sqrt) raw).weights.keys = raw.keys := by
  simp only [spread]
  split_ifs
  · rw [← h.keys]
    exact Dict.keys_foldl_set (fun a ha => h.keys ▸ h.free_subset ha)
  · exact h.keys

end Spread

section Round

variable (hRaw : ∀ a, 0 ≤ raw.getD a 0) (h : Clamped raw floor cap n)

include hRaw h

/-- Assets that stay free after a round are within the bounds. -/
theorem mem_free_round {a : String} :
    a ∈ (n.round (.exact sqrt) raw floor cap).free ↔
      a ∈ n.free ∧ bound? floor cap (scale raw n * raw.getD a 0) = none := by
  rw [(round_pins floor cap h.free_nodup).2.2.1]
  refine and_congr_right (fun ha => ?_)
  rw [spread_scale hRaw h ha]

theorem get?_fixed_round (a : String) :
    (n.round (.exact sqrt) raw floor cap).fixed.get? a =
      (if a ∈ n.free then bound? floor cap (scale raw n * raw.getD a 0) else none).or
        (n.fixed.get? a) := by
  rw [(round_pins floor cap h.free_nodup).2.2.2]
  by_cases ha : a ∈ n.free
  · rw [if_pos ha, if_pos ha, spread_scale hRaw h ha]
  · rw [if_neg ha, if_neg ha]

theorem current_round_scale {a : String} (ha : a ∈ n.free) :
    (n.round (.exact sqrt) raw floor cap).current a = scale raw n * raw.getD a 0 := by
  rw [current, (round_pins floor cap h.free_nodup).1]
  exact spread_scale hRaw h ha

/-- A pinned weight is newly pinned or was pinned before. -/
theorem pinned_round {a : String} {v : ℚ}
    (hFixed : (n.round (.exact sqrt) raw floor cap).fixed.get? a = some v) :
    (a ∈ n.free ∧ bound? floor cap (scale raw n * raw.getD a 0) = some v) ∨
      (a ∉ n.free ∧ n.fixed.get? a = some v) := by
  rw [get?_fixed_round hRaw h, Option.or_eq_some_iff] at hFixed
  by_cases ha : a ∈ n.free
  · rw [if_pos ha] at hFixed
    rcases hFixed with hNew | ⟨-, hOld⟩
    · exact Or.inl ⟨ha, hNew⟩
    · exact absurd ha ((h.fixed_iff a).mp (Dict.mem_keys_of_get? hOld)).2
  · rw [if_neg ha] at hFixed
    rcases hFixed with hNew | ⟨-, hOld⟩
    · cases hNew
    · exact Or.inr ⟨ha, hOld⟩

theorem round_clamped : Clamped raw floor cap (n.round (.exact sqrt) raw floor cap) where
  keys := by rw [(round_pins floor cap h.free_nodup).1, spread_clamped_keys h]
  free_nodup := (round_pins floor cap h.free_nodup).2.1
  free_subset a ha := h.free_subset ((mem_free_round hRaw h).mp ha).1
  fixed_iff a := by
    rw [← Dict.get?_isSome_iff, get?_fixed_round hRaw h, mem_free_round hRaw h, Option.isSome_or,
      Bool.or_eq_true, Dict.get?_isSome_iff, h.fixed_iff]
    by_cases hFree : a ∈ n.free
    · have hKey := h.free_subset hFree
      cases bound? floor cap (scale raw n * raw.getD a 0) <;> simp [hFree, hKey]
    · simp [hFree]
  at_bound a v hFixed := by
    rcases pinned_round hRaw h hFixed with ⟨-, hNew⟩ | ⟨-, hOld⟩
    · exact (bound?_eq_some hNew).imp And.left And.left
    · exact h.at_bound a v hOld
  proportional := ⟨scale raw n, fun a ha =>
    current_round_scale hRaw h ((mem_free_round hRaw h).mp ha).1⟩

end Round

section Totals

/-- A total over the keys is a total over any set that holds them. -/
theorem total_eq_sum {d : Dict String ℚ} {assets : Finset String} (h : ∀ a ∈ d.keys, a ∈ assets) :
    d.total = ∑ a ∈ assets, d.getD a 0 := by
  have hKeys : d.total = ∑ a ∈ d.keys.toFinset, d.getD a 0 := by
    have hNodup : d.keys.Nodup := d.nodup
    rw [List.sum_toFinset _ hNodup, Dict.total, d.values_eq_map 0]
  rw [hKeys]
  apply Finset.sum_subset (fun a ha => h a (List.mem_toFinset.mp ha))
  intro a _ ha
  rw [List.mem_toFinset] at ha
  rw [Dict.getD, Dict.get?_eq_none_iff.mpr ha]
  rfl

variable (hRaw : ∀ a, 0 ≤ raw.getD a 0) (h : Clamped raw floor cap n)

theorem freeRaw_eq_sum (hFree : n.free.Nodup) :
    freeRaw raw n = ∑ a ∈ n.free.toFinset, raw.getD a 0 :=
  (List.sum_toFinset _ hFree).symm

include h in
theorem remaining_eq : remaining n = 1 - ∑ a ∈ raw.keys.toFinset, n.fixed.getD a 0 := by
  rw [← total_eq_sum (fun a ha => List.mem_toFinset.mpr ((h.fixed_iff a).mp ha).1)]
  rfl

include hRaw h in
/-- A round spends the bounds at which it pins. -/
theorem remaining_round :
    remaining (n.round (.exact sqrt) raw floor cap) = remaining n -
      ∑ a ∈ n.free.toFinset, (bound? floor cap (scale raw n * raw.getD a 0)).getD 0 := by
  have hNew : ∀ a, (n.round (.exact sqrt) raw floor cap).fixed.getD a 0 = n.fixed.getD a 0 +
      if a ∈ n.free.toFinset then (bound? floor cap (scale raw n * raw.getD a 0)).getD 0
      else 0 := by
    intro a
    rw [Dict.getD, get?_fixed_round hRaw h]
    by_cases ha : a ∈ n.free
    · have hNone : n.fixed.get? a = none :=
        Dict.get?_eq_none_iff.mpr (fun hKey => ((h.fixed_iff a).mp hKey).2 ha)
      simp [ha, hNone, Dict.getD]
    · simp [ha, Dict.getD]
  rw [remaining_eq (round_clamped hRaw h), remaining_eq h, Finset.sum_congr rfl (fun a _ => hNew a),
    Finset.sum_add_distrib, ← Finset.sum_filter, Finset.filter_mem_eq_inter,
    Finset.inter_eq_right.mpr (fun a ha => by
      rw [List.mem_toFinset] at ha ⊢
      exact h.free_subset ha)]
  ring

/-- What is left goes to the free assets, if any of them has a raw weight. -/
theorem sum_shares (hFree : n.free.Nodup) (hPositive : 0 < freeRaw raw n) :
    ∑ a ∈ n.free.toFinset, scale raw n * raw.getD a 0 = remaining n := by
  rw [← Finset.mul_sum, ← freeRaw_eq_sum hFree, scale, div_mul_cancel₀ _ hPositive.ne']

end Totals

section Grades

theorem bound?_mono (hBounds : floor ≤ cap) {w w' v v' : ℚ} (hw : w ≤ w')
    (h : bound? floor cap w = some v) (h' : bound? floor cap w' = some v') : v ≤ v' := by
  rcases bound?_eq_some h with ⟨rfl, hLow⟩ | ⟨rfl, hHigh⟩
  · rcases bound?_eq_some h' with ⟨rfl, -⟩ | ⟨rfl, -⟩
    · exact le_rfl
    · exact hBounds
  · rcases bound?_eq_some h' with ⟨rfl, hLow'⟩ | ⟨rfl, -⟩
    · linarith
    · exact le_rfl

/-- The order of raw weights is the order of weights, with the lower ones pinned
at the floor and the higher ones at the cap. -/
structure Graded (raw : Dict String ℚ) (floor cap : ℚ) (n : Normalization) : Prop
    extends Clamped raw floor cap n where
  rising : ∃ factor, 0 ≤ factor ∧ ∀ a ∈ n.free, n.current a = factor * raw.getD a 0
  above : ∀ a ∈ n.free, ∀ b v, n.fixed.get? b = some v → raw.getD a 0 ≤ raw.getD b 0 → v = cap
  below : ∀ a ∈ n.free, ∀ b v, n.fixed.get? b = some v → raw.getD b 0 ≤ raw.getD a 0 → v = floor
  ordered : ∀ a b v w, n.fixed.get? a = some v → n.fixed.get? b = some w →
    raw.getD a 0 ≤ raw.getD b 0 → v ≤ w
  funded : floor ≤ 0 → 0 ≤ remaining n

variable (hRaw : ∀ a, 0 ≤ raw.getD a 0) (hBounds : floor ≤ cap) (hCap : 0 < cap)
  (h : Graded raw floor cap n)

include hRaw h in
/-- Nothing is left to share only when floors have spent it, and then every free
asset falls below the floor. -/
theorem scale_nonneg_or_low :
    0 ≤ scale raw n ∨ ∀ a ∈ n.free, scale raw n * raw.getD a 0 < floor := by
  rcases le_or_gt floor 0 with hFloor | hFloor
  · exact Or.inl (div_nonneg (h.funded hFloor) (freeRaw_nonneg hRaw n))
  · rcases le_or_gt 0 (scale raw n) with hScale | hScale
    · exact Or.inl hScale
    · exact Or.inr (fun a _ => (mul_nonpos_of_nonpos_of_nonneg hScale.le (hRaw a)).trans_lt hFloor)

include hRaw hBounds hCap h in
theorem funded_round (hFloor : floor ≤ 0) :
    0 ≤ remaining (n.round (.exact sqrt) raw floor cap) := by
  have hScale : 0 ≤ scale raw n := div_nonneg (h.funded hFloor) (freeRaw_nonneg hRaw n)
  have hShare (a : String) : 0 ≤ scale raw n * raw.getD a 0 := mul_nonneg hScale (hRaw a)
  have hSpent (a : String) : (bound? floor cap (scale raw n * raw.getD a 0)).getD 0 ≤
      scale raw n * raw.getD a 0 := by
    cases hBound : bound? floor cap (scale raw n * raw.getD a 0) with
    | none => exact hShare a
    | some v =>
        rcases bound?_eq_some hBound with ⟨-, hLow⟩ | ⟨rfl, hHigh⟩
        · exact absurd (hFloor.trans (hShare a)) (not_le.mpr hLow)
        · exact hHigh.le
  rw [remaining_round hRaw h.toClamped, sub_nonneg]
  rcases (freeRaw_nonneg hRaw n).eq_or_lt with hZero | hPositive
  · have hNone : ∀ a ∈ n.free.toFinset,
        (bound? floor cap (scale raw n * raw.getD a 0)).getD 0 = 0 := by
      intro a ha
      rw [raw_of_freeRaw hRaw hZero.symm (List.mem_toFinset.mp ha), mul_zero,
        bound?_eq_none.mpr ⟨hFloor, hCap.le⟩]
      rfl
    rw [Finset.sum_congr rfl hNone, Finset.sum_const_zero]
    exact h.funded hFloor
  · rw [← sum_shares h.free_nodup hPositive]
    exact Finset.sum_le_sum (fun a _ => hSpent a)

include hRaw hBounds hCap h in
theorem round_graded : Graded raw floor cap (n.round (.exact sqrt) raw floor cap) := by
  have hPinned {a : String} {v : ℚ} := @pinned_round sqrt raw floor cap n hRaw h.toClamped a v
  have hFree {a : String} := @mem_free_round sqrt raw floor cap n hRaw h.toClamped a
  rcases scale_nonneg_or_low hRaw h with hScale | hLow
  · have hMono {a b : String} (hab : raw.getD a 0 ≤ raw.getD b 0) :
        scale raw n * raw.getD a 0 ≤ scale raw n * raw.getD b 0 :=
      mul_le_mul_of_nonneg_left hab hScale
    refine ⟨round_clamped hRaw h.toClamped, ⟨scale raw n, hScale, fun a ha =>
      current_round_scale hRaw h.toClamped (hFree.mp ha).1⟩, ?_, ?_, ?_,
      funded_round hRaw hBounds hCap h⟩
    · intro a ha b v hFixed hab
      obtain ⟨hOld, hNone⟩ := hFree.mp ha
      rcases hPinned hFixed with ⟨-, hNew⟩ | ⟨-, hBefore⟩
      · rcases bound?_eq_some hNew with ⟨-, hUnder⟩ | ⟨rfl, -⟩
        · exact absurd ((bound?_eq_none.mp hNone).1.trans (hMono hab)) (not_le.mpr hUnder)
        · rfl
      · exact h.above a hOld b v hBefore hab
    · intro a ha b v hFixed hba
      obtain ⟨hOld, hNone⟩ := hFree.mp ha
      rcases hPinned hFixed with ⟨-, hNew⟩ | ⟨-, hBefore⟩
      · rcases bound?_eq_some hNew with ⟨rfl, -⟩ | ⟨-, hOver⟩
        · rfl
        · exact absurd ((hMono hba).trans (bound?_eq_none.mp hNone).2) (not_le.mpr hOver)
      · exact h.below a hOld b v hBefore hba
    · intro a b v w hA hB hab
      rcases hPinned hA with ⟨hFreeA, hNewA⟩ | ⟨-, hOldA⟩
      · rcases hPinned hB with ⟨-, hNewB⟩ | ⟨-, hOldB⟩
        · exact bound?_mono hBounds (hMono hab) hNewA hNewB
        · rw [h.above a hFreeA b w hOldB hab]
          rcases bound?_eq_some hNewA with ⟨rfl, -⟩ | ⟨rfl, -⟩
          · exact hBounds
          · exact le_rfl
      · rcases hPinned hB with ⟨hFreeB, hNewB⟩ | ⟨-, hOldB⟩
        · rw [h.below b hFreeB a v hOldA hab]
          rcases bound?_eq_some hNewB with ⟨rfl, -⟩ | ⟨rfl, -⟩
          · exact le_rfl
          · exact hBounds
        · exact h.ordered a b v w hOldA hOldB hab
  · -- every free asset is pinned at the floor
    have hNone (a : String) : a ∉ (n.round (.exact sqrt) raw floor cap).free := by
      intro ha
      obtain ⟨hOld, hInside⟩ := hFree.mp ha
      exact absurd (bound?_eq_none.mp hInside).1 (not_le.mpr (hLow a hOld))
    have hFloor {a : String} {v : ℚ} (ha : a ∈ n.free)
        (hNew : bound? floor cap (scale raw n * raw.getD a 0) = some v) : v = floor := by
      rw [bound?, if_pos (hLow a ha)] at hNew
      exact (Option.some.inj hNew).symm
    refine ⟨round_clamped hRaw h.toClamped, ⟨0, le_rfl, fun a ha => absurd ha (hNone a)⟩,
      fun a ha => absurd ha (hNone a), fun a ha => absurd ha (hNone a), ?_,
      funded_round hRaw hBounds hCap h⟩
    intro a b v w hA hB hab
    have hLeast : floor ≤ w := by
      rcases (round_clamped hRaw h.toClamped).at_bound b w hB with rfl | rfl
      · exact le_rfl
      · exact hBounds
    rcases hPinned hA with ⟨hFreeA, hNewA⟩ | ⟨-, hOldA⟩
    · rw [hFloor hFreeA hNewA]
      exact hLeast
    · rcases hPinned hB with ⟨hFreeB, -⟩ | ⟨-, hOldB⟩
      · rw [h.below b hFreeB a v hOldA hab]
        exact hLeast
      · exact h.ordered a b v w hOldA hOldB hab

end Grades

section Merged

theorem Clamped.merged_keys (h : Clamped raw floor cap n) : n.merged.keys = raw.keys := by
  rw [keys_merged, h.keys]
  intro a ha
  rw [h.keys]
  exact ((h.fixed_iff a).mp ha).1

theorem Clamped.merged_free (h : Clamped raw floor cap n) {a : String} (ha : a ∈ n.free) :
    n.merged.getD a 0 = n.current a :=
  merged_unpinned (fun hKey => ((h.fixed_iff a).mp hKey).2 ha)

theorem Clamped.pinned_or_free (h : Clamped raw floor cap n) {a : String} (ha : a ∈ raw.keys) :
    (∃ v, n.fixed.get? a = some v) ∨ a ∈ n.free :=
  Normalization.pinned_or_free (fun hFree => (h.fixed_iff a).mpr ⟨ha, hFree⟩)

/-- Free weights are within the bounds after a round. -/
def Within (floor cap : ℚ) (n : Normalization) : Prop :=
  ∀ a ∈ n.free, floor ≤ n.current a ∧ n.current a ≤ cap

theorem within_round (hRaw : ∀ a, 0 ≤ raw.getD a 0) (h : Clamped raw floor cap n) :
    Within floor cap (n.round (.exact sqrt) raw floor cap) := by
  intro a ha
  obtain ⟨hOld, hInside⟩ := (mem_free_round hRaw h).mp ha
  rw [current_round_scale hRaw h hOld]
  exact bound?_eq_none.mp hInside

/-- Weights between the bounds that grow with the raw weights. -/
structure Clamps (raw : Dict String ℚ) (floor cap : ℚ) (weights : Dict String ℚ) : Prop where
  keys : weights.keys = raw.keys
  bounds : ∀ a ∈ raw.keys, floor ≤ weights.getD a 0 ∧ weights.getD a 0 ≤ cap
  ordered : ∀ a ∈ raw.keys, ∀ b ∈ raw.keys, raw.getD a 0 ≤ raw.getD b 0 →
    weights.getD a 0 ≤ weights.getD b 0
  ratio : ∀ a ∈ raw.keys, ∀ b ∈ raw.keys,
    (floor < weights.getD a 0 ∧ weights.getD a 0 < cap) →
    (floor < weights.getD b 0 ∧ weights.getD b 0 < cap) →
    weights.getD a 0 * raw.getD b 0 = weights.getD b 0 * raw.getD a 0

theorem Graded.clamps (hBounds : floor ≤ cap) (h : Graded raw floor cap n)
    (hWithin : Within floor cap n) : Clamps raw floor cap n.merged where
  keys := h.toClamped.merged_keys
  bounds a ha := by
    rcases h.toClamped.pinned_or_free ha with ⟨v, hFixed⟩ | hFree
    · rw [merged_fixed hFixed]
      rcases h.at_bound a v hFixed with rfl | rfl
      · exact ⟨le_rfl, hBounds⟩
      · exact ⟨hBounds, le_rfl⟩
    · rw [h.toClamped.merged_free hFree]
      exact hWithin a hFree
  ordered a ha b hb hab := by
    rcases h.toClamped.pinned_or_free ha with ⟨v, hFixedA⟩ | hFreeA
    · rcases h.toClamped.pinned_or_free hb with ⟨w, hFixedB⟩ | hFreeB
      · rw [merged_fixed hFixedA, merged_fixed hFixedB]
        exact h.ordered a b v w hFixedA hFixedB hab
      · rw [merged_fixed hFixedA, h.toClamped.merged_free hFreeB,
          h.below b hFreeB a v hFixedA hab]
        exact (hWithin b hFreeB).1
    · rcases h.toClamped.pinned_or_free hb with ⟨w, hFixedB⟩ | hFreeB
      · rw [h.toClamped.merged_free hFreeA, merged_fixed hFixedB,
          h.above a hFreeA b w hFixedB hab]
        exact (hWithin a hFreeA).2
      · obtain ⟨factor, hFactor, hCurrent⟩ := h.rising
        rw [h.toClamped.merged_free hFreeA, h.toClamped.merged_free hFreeB, hCurrent a hFreeA,
          hCurrent b hFreeB]
        exact mul_le_mul_of_nonneg_left hab hFactor
  ratio a ha b hb hInsideA hInsideB := by
    have hFree {c : String} (hc : c ∈ raw.keys)
        (hInside : floor < n.merged.getD c 0 ∧ n.merged.getD c 0 < cap) : c ∈ n.free := by
      rcases h.toClamped.pinned_or_free hc with ⟨v, hFixed⟩ | hFree
      · rw [merged_fixed hFixed] at hInside
        rcases h.at_bound c v hFixed with rfl | rfl
        · exact absurd hInside.1 (lt_irrefl _)
        · exact absurd hInside.2 (lt_irrefl _)
      · exact hFree
    obtain ⟨factor, -, hCurrent⟩ := h.rising
    have hFreeA := hFree ha hInsideA
    have hFreeB := hFree hb hInsideB
    rw [h.toClamped.merged_free hFreeA, h.toClamped.merged_free hFreeB, hCurrent a hFreeA,
      hCurrent b hFreeB]
    ring

end Merged

section Runs

/-- Weights spend the pinned ones and those of the free assets. -/
theorem Clamped.merged_total (h : Clamped raw floor cap n) :
    n.merged.total = 1 - remaining n + ∑ a ∈ n.free.toFinset, n.current a := by
  have hMerged : ∀ a ∈ raw.keys.toFinset, n.merged.getD a 0 = n.fixed.getD a 0 +
      if a ∈ n.free.toFinset then n.current a else 0 := by
    intro a ha
    rcases h.pinned_or_free (List.mem_toFinset.mp ha) with ⟨v, hFixed⟩ | hFree
    · have hPinned : a ∉ n.free := ((h.fixed_iff a).mp (Dict.mem_keys_of_get? hFixed)).2
      rw [merged_fixed hFixed, Dict.getD, hFixed, if_neg (by rwa [List.mem_toFinset]), add_zero]
      rfl
    · have hNone : n.fixed.get? a = none :=
        Dict.get?_eq_none_iff.mpr (fun hKey => ((h.fixed_iff a).mp hKey).2 hFree)
      rw [h.merged_free hFree, Dict.getD, hNone, if_pos (by rwa [List.mem_toFinset])]
      exact (zero_add _).symm
  rw [total_eq_sum (fun a ha => List.mem_toFinset.mpr (h.merged_keys ▸ ha)),
    Finset.sum_congr rfl hMerged, Finset.sum_add_distrib, remaining_eq h, ← Finset.sum_filter,
    Finset.filter_mem_eq_inter, Finset.inter_eq_right.mpr (fun a ha => by
      rw [List.mem_toFinset] at ha ⊢
      exact h.free_subset ha)]
  ring

/-- Free weights are what is left, spread. -/
def Spread (raw : Dict String ℚ) (n : Normalization) : Prop :=
  ∀ a ∈ n.free, n.current a = scale raw n * raw.getD a 0

/-- More rounds than free assets end with a round that pins nothing. -/
theorem settle_spread (hRaw : ∀ a, 0 ≤ raw.getD a 0) (rounds : Nat) (h : Clamped raw floor cap n)
    (hRounds : n.free.length < rounds) :
    Spread raw (n.settle (.exact sqrt) raw floor cap rounds) := by
  induction rounds generalizing n with
  | zero => exact absurd hRounds (Nat.not_lt_zero _)
  | succ rounds ih =>
      have hNext := @round_clamped sqrt raw floor cap n hRaw h
      have hSub : (n.round (.exact sqrt) raw floor cap).free ⊆ n.free :=
        fun a ha => ((mem_free_round hRaw h).mp ha).1
      have hPerm := List.subperm_of_subset hNext.free_nodup hSub
      rw [settle]
      split_ifs with hSame
      · have hFree := hPerm.perm_of_length_le hSame.ge
        have hInside (a : String) (ha : a ∈ n.free) :
            bound? floor cap (scale raw n * raw.getD a 0) = none :=
          ((mem_free_round hRaw h).mp (hFree.mem_iff.mpr ha)).2
        have hRemaining : remaining (n.round (.exact sqrt) raw floor cap) = remaining n := by
          rw [remaining_round hRaw h, Finset.sum_eq_zero, sub_zero]
          intro a ha
          rw [hInside a (List.mem_toFinset.mp ha)]
          rfl
        have hFreeRaw : freeRaw raw (n.round (.exact sqrt) raw floor cap) = freeRaw raw n :=
          (hFree.map _).sum_eq
        intro a ha
        rw [scale, hRemaining, hFreeRaw]
        exact current_round_scale hRaw h (hSub ha)
      · exact ih hNext (by
          have := hPerm.length_le
          omega)

/-- What a round keeps, and establishes, holds after any positive number of them. -/
theorem settle_induction {P Q : Normalization → Prop} (hKeep : ∀ m, P m →
      P (m.round (.exact sqrt) raw floor cap) ∧ Q (m.round (.exact sqrt) raw floor cap))
    (rounds : Nat) (hStart : P n) :
    P (n.settle (.exact sqrt) raw floor cap (rounds + 1)) ∧
      Q (n.settle (.exact sqrt) raw floor cap (rounds + 1)) := by
  induction rounds generalizing n with
  | zero =>
      simp only [settle]
      split_ifs <;> exact hKeep n hStart
  | succ rounds ih =>
      rw [settle]
      split_ifs
      · exact hKeep n hStart
      · exact ih (hKeep n hStart).1

end Runs

end Normalization

end RuleTrade
