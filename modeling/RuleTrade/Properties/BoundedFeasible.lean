import RuleTrade.Properties.BoundedWeights

/-! Which bounds a normalization without cash meets. After its first round the
loop pins weights on one side only, so that it ends short of the capital when
the caps cannot take what the floors leave, and over it when the floors cost more
than the caps have freed. -/

namespace RuleTrade

open Library Normalization

/-- Raw weights and bounds that some portfolio meets. -/
structure Feasible (raw : Dict String ℚ) (floor cap : ℚ) : Prop where
  nonneg : ∀ v ∈ raw.values, 0 ≤ v
  positive : 0 < raw.total
  floor_nonneg : 0 ≤ floor
  ordered : floor ≤ cap
  cap_le_one : cap ≤ 1
  floors_fit : floor * raw.keys.length ≤ 1
  caps_cover : 1 ≤ cap * raw.keys.length

section Shares

variable (raw : Dict String ℚ) (floor cap : ℚ)

/-- Share of an asset in the raw total. -/
def openShare (a : String) : ℚ := raw.getD a 0 / raw.total

/-- Assets whose share is below the floor. -/
def lowAssets : Finset String := {a ∈ raw.keys.toFinset | openShare raw a < floor}

/-- Assets whose share is above the cap. -/
def highAssets : Finset String := {a ∈ raw.keys.toFinset | cap < openShare raw a}

/-- Assets with a raw weight whose share is not below the floor. -/
def paidAssets : Finset String :=
  {a ∈ raw.keys.toFinset | ¬openShare raw a < floor ∧ 0 < raw.getD a 0}

/-- Most that the caps can take beside the low assets at the floor. -/
def mostTaken : ℚ := floor * (lowAssets raw floor).card + cap * (paidAssets raw floor).card

/-- Least that the floors cost beside the high assets at the cap. -/
def leastSpent : ℚ :=
  cap * (highAssets raw cap).card + floor * (raw.keys.length - (highAssets raw cap).card : ℚ)

end Shares

section OneSided

variable {sqrt : ℚ → ℚ} {raw : Dict String ℚ} {floor cap : ℚ} {n : Normalization}

/-- What is left is more than the free assets have, and what was pinned beyond
the low assets stands at the cap. -/
structure Rising (raw : Dict String ℚ) (floor cap : ℚ) (n : Normalization) : Prop where
  funded : ∑ a ∈ n.free.toFinset, n.current a ≤ remaining n
  pinned : ∀ a v, n.fixed.get? a = some v → ¬openShare raw a < floor → v = cap

/-- What is left is less than the free assets have, and what was pinned beyond
the high assets stands at the floor. -/
structure Falling (raw : Dict String ℚ) (floor cap : ℚ) (n : Normalization) : Prop where
  funded : remaining n ≤ ∑ a ∈ n.free.toFinset, n.current a
  pinned : ∀ a v, n.fixed.get? a = some v → ¬cap < openShare raw a → v = floor

/-- What the loop keeps from its first round on. -/
structure Paced (raw : Dict String ℚ) (floor cap : ℚ) (n : Normalization) : Prop
    extends Clamped raw floor cap n where
  within : Within floor cap n
  low : ∀ a ∈ lowAssets raw floor, n.fixed.get? a = some floor
  high : ∀ a ∈ highAssets raw cap, n.fixed.get? a = some cap
  unpaid : ∀ a ∈ raw.keys, raw.getD a 0 = 0 → ¬openShare raw a < floor → a ∈ n.free
  sided : Rising raw floor cap n ∨ Falling raw floor cap n

variable (hRaw : ∀ a, 0 ≤ raw.getD a 0) (h : Clamped raw floor cap n)

include h in
theorem sum_current : ∃ factor, (∀ a ∈ n.free, n.current a = factor * raw.getD a 0) ∧
    ∑ a ∈ n.free.toFinset, n.current a = factor * freeRaw raw n := by
  obtain ⟨factor, hFactor⟩ := h.proportional
  refine ⟨factor, hFactor, ?_⟩
  rw [freeRaw_eq_sum h.free_nodup, Finset.mul_sum]
  exact Finset.sum_congr rfl (fun a ha => hFactor a (List.mem_toFinset.mp ha))

include hRaw h

/-- A spread of more than the free assets have lifts each of them. -/
theorem share_of_rising (hFunded : ∑ a ∈ n.free.toFinset, n.current a ≤ remaining n) :
    (∀ a ∈ n.free, n.current a ≤ scale raw n * raw.getD a 0) ∧
      ∑ a ∈ n.free.toFinset, scale raw n * raw.getD a 0 ≤ remaining n := by
  obtain ⟨factor, hFactor, hSum⟩ := sum_current h
  rw [hSum] at hFunded
  rcases (freeRaw_nonneg hRaw n).eq_or_lt with hZero | hPositive
  · rw [← hZero, mul_zero] at hFunded
    refine ⟨fun a ha => ?_, ?_⟩
    · rw [hFactor a ha, raw_of_freeRaw hRaw hZero.symm ha, mul_zero, mul_zero]
    · rw [← Finset.mul_sum, ← freeRaw_eq_sum h.free_nodup, ← hZero, mul_zero]
      exact hFunded
  · refine ⟨fun a ha => ?_, (sum_shares h.free_nodup hPositive).le⟩
    rw [hFactor a ha]
    exact mul_le_mul_of_nonneg_right ((le_div_iff₀ hPositive).mpr hFunded) (hRaw a)

/-- A spread of less than the free assets have lowers each of them. -/
theorem share_of_falling (hFunded : remaining n ≤ ∑ a ∈ n.free.toFinset, n.current a) :
    (∀ a ∈ n.free, scale raw n * raw.getD a 0 ≤ n.current a) ∧
      remaining n ≤ ∑ a ∈ n.free.toFinset, scale raw n * raw.getD a 0 := by
  obtain ⟨factor, hFactor, hSum⟩ := sum_current h
  rw [hSum] at hFunded
  rcases (freeRaw_nonneg hRaw n).eq_or_lt with hZero | hPositive
  · rw [← hZero, mul_zero] at hFunded
    refine ⟨fun a ha => ?_, ?_⟩
    · rw [hFactor a ha, raw_of_freeRaw hRaw hZero.symm ha, mul_zero, mul_zero]
    · rw [← Finset.mul_sum, ← freeRaw_eq_sum h.free_nodup, ← hZero, mul_zero]
      exact hFunded
  · refine ⟨fun a ha => ?_, (sum_shares h.free_nodup hPositive).ge⟩
    rw [hFactor a ha]
    exact mul_le_mul_of_nonneg_right ((div_le_iff₀ hPositive).mpr hFunded) (hRaw a)

/-- What a round leaves beyond the weights that stay free. -/
theorem left_round :
    remaining (n.round (.exact sqrt) raw floor cap) -
        ∑ a ∈ (n.round (.exact sqrt) raw floor cap).free.toFinset,
          (n.round (.exact sqrt) raw floor cap).current a =
      remaining n - ∑ a ∈ n.free.toFinset,
        (bound? floor cap (scale raw n * raw.getD a 0)).getD (scale raw n * raw.getD a 0) := by
  have hFree : (n.round (.exact sqrt) raw floor cap).free.toFinset =
      {a ∈ n.free.toFinset | bound? floor cap (scale raw n * raw.getD a 0) = none} := by
    ext a
    rw [List.mem_toFinset, mem_free_round hRaw h, Finset.mem_filter, List.mem_toFinset]
  have hCurrent : ∑ a ∈ (n.round (.exact sqrt) raw floor cap).free.toFinset,
      (n.round (.exact sqrt) raw floor cap).current a =
      ∑ a ∈ n.free.toFinset, if bound? floor cap (scale raw n * raw.getD a 0) = none then
        scale raw n * raw.getD a 0 else 0 := by
    rw [← Finset.sum_filter, hFree]
    refine Finset.sum_congr rfl (fun a ha => ?_)
    exact current_round_scale hRaw h (List.mem_toFinset.mp (Finset.mem_filter.mp ha).1)
  rw [remaining_round hRaw h, hCurrent, sub_sub, ← Finset.sum_add_distrib]
  congr 1
  refine Finset.sum_congr rfl (fun a _ => ?_)
  cases bound? floor cap (scale raw n * raw.getD a 0) <;> simp

variable (hWithin : Within floor cap n)

include hWithin

theorem rising_round (hSided : Rising raw floor cap n) :
    Rising raw floor cap (n.round (.exact sqrt) raw floor cap) := by
  obtain ⟨hLift, hSum⟩ := share_of_rising hRaw h hSided.funded
  have hAbove {a : String} (ha : a ∈ n.free) : floor ≤ scale raw n * raw.getD a 0 :=
    (hWithin a ha).1.trans (hLift a ha)
  refine ⟨?_, fun a v hFixed hLow => ?_⟩
  · rw [← sub_nonneg, left_round hRaw h, sub_nonneg]
    refine le_trans (Finset.sum_le_sum (fun a ha => ?_)) hSum
    cases hBound : bound? floor cap (scale raw n * raw.getD a 0) with
    | none => exact le_rfl
    | some v =>
        rcases bound?_eq_some hBound with ⟨-, hUnder⟩ | ⟨rfl, hOver⟩
        · exact absurd (hAbove (List.mem_toFinset.mp ha)) (not_le.mpr hUnder)
        · exact hOver.le
  · rcases pinned_round hRaw h hFixed with ⟨ha, hNew⟩ | ⟨-, hOld⟩
    · rcases bound?_eq_some hNew with ⟨-, hUnder⟩ | ⟨rfl, -⟩
      · exact absurd (hAbove ha) (not_le.mpr hUnder)
      · rfl
    · exact hSided.pinned a v hOld hLow

theorem falling_round (hSided : Falling raw floor cap n) :
    Falling raw floor cap (n.round (.exact sqrt) raw floor cap) := by
  obtain ⟨hLower, hSum⟩ := share_of_falling hRaw h hSided.funded
  have hBelow {a : String} (ha : a ∈ n.free) : scale raw n * raw.getD a 0 ≤ cap :=
    (hLower a ha).trans (hWithin a ha).2
  refine ⟨?_, fun a v hFixed hHigh => ?_⟩
  · rw [← sub_nonpos, left_round hRaw h, sub_nonpos]
    refine hSum.trans (Finset.sum_le_sum (fun a ha => ?_))
    cases hBound : bound? floor cap (scale raw n * raw.getD a 0) with
    | none => exact le_rfl
    | some v =>
        rcases bound?_eq_some hBound with ⟨rfl, hUnder⟩ | ⟨-, hOver⟩
        · exact hUnder.le
        · exact absurd (hBelow (List.mem_toFinset.mp ha)) (not_le.mpr hOver)
  · rcases pinned_round hRaw h hFixed with ⟨ha, hNew⟩ | ⟨-, hOld⟩
    · rcases bound?_eq_some hNew with ⟨rfl, -⟩ | ⟨-, hOver⟩
      · rfl
      · exact absurd (hBelow ha) (not_le.mpr hOver)
    · exact hSided.pinned a v hOld hHigh

end OneSided

section Paced

variable {sqrt : ℚ → ℚ} {raw : Dict String ℚ} {floor cap : ℚ} {n : Normalization}
  (p : Feasible raw floor cap)

include p

/-- A pinned asset stays pinned where it is. -/
theorem kept_round (h : Clamped raw floor cap n) {a : String} {v : ℚ}
    (hFixed : n.fixed.get? a = some v) :
    (n.round (.exact sqrt) raw floor cap).fixed.get? a = some v := by
  have hPinned : a ∉ n.free := ((h.fixed_iff a).mp (Dict.mem_keys_of_get? hFixed)).2
  rw [get?_fixed_round (getD_nonneg p.nonneg) h, if_neg hPinned, hFixed]
  rfl

theorem cap_pos : 0 < cap := by
  rcases lt_or_ge 0 cap with hCap | hCap
  · exact hCap
  · have hCover := p.caps_cover
    have hNone : cap * (raw.keys.length : ℚ) ≤ 0 :=
      mul_nonpos_of_nonpos_of_nonneg hCap (Nat.cast_nonneg _)
    linarith

/-- An asset without raw weight that is not low is not pinned. -/
theorem unpaid_inside {a : String} (hZero : raw.getD a 0 = 0)
    (hLow : ¬openShare raw a < floor) (factor : ℚ) :
    bound? floor cap (factor * raw.getD a 0) = none := by
  rw [openShare, hZero, zero_div, not_lt] at hLow
  rw [hZero, mul_zero]
  exact bound?_eq_none.mpr ⟨hLow, (cap_pos p).le⟩

theorem round_paced (h : Paced raw floor cap n) :
    Paced raw floor cap (n.round (.exact sqrt) raw floor cap) := by
  have hRaw := getD_nonneg p.nonneg
  exact {
    toClamped := round_clamped hRaw h.toClamped
    within := within_round hRaw h.toClamped
    low := fun a ha => kept_round p h.toClamped (h.low a ha)
    high := fun a ha => kept_round p h.toClamped (h.high a ha)
    unpaid := fun a ha hZero hLow => (mem_free_round hRaw h.toClamped).mpr
      ⟨h.unpaid a ha hZero hLow, unpaid_inside p hZero hLow _⟩
    sided := h.sided.imp (rising_round hRaw h.toClamped h.within)
      (falling_round hRaw h.toClamped h.within) }

omit p in
theorem scale_openingShares : scale raw (openingShares raw) = 1 / raw.total := by
  rw [scale, freeRaw, Dict.total, raw.values_eq_map 0]
  congr 1
  show (1 : ℚ) - (Dict.empty : Dict String ℚ).values.sum = 1
  norm_num [Dict.values, Dict.empty]

/-- The first round pins the low and the high assets. -/
theorem first_round_paced :
    Paced raw floor cap ((openingShares raw).round (.exact sqrt) raw floor cap) := by
  have hRaw := getD_nonneg p.nonneg
  have hStart : Graded raw floor cap (openingShares raw) := openingShares_graded p.nonneg
  have hShare (a : String) : scale raw (openingShares raw) * raw.getD a 0 = openShare raw a := by
    rw [scale_openingShares, openShare]
    ring
  have hFixed {a : String} (ha : a ∈ raw.keys) :
      ((openingShares raw).round (.exact sqrt) raw floor cap).fixed.get? a =
        bound? floor cap (openShare raw a) := by
    rw [get?_fixed_round hRaw hStart.toClamped, hShare, if_pos (show a ∈ (openingShares raw).free
      from ha)]
    cases bound? floor cap (openShare raw a) <;> rfl
  have hPinned {a : String} {v : ℚ}
      (h : ((openingShares raw).round (.exact sqrt) raw floor cap).fixed.get? a = some v) :
      bound? floor cap (openShare raw a) = some v := by
    rcases pinned_round hRaw hStart.toClamped h with ⟨-, hNew⟩ | ⟨-, hOld⟩
    · rwa [hShare] at hNew
    · cases hOld
  refine {
    toClamped := round_clamped hRaw hStart.toClamped
    within := within_round hRaw hStart.toClamped
    low := fun a ha => ?_
    high := fun a ha => ?_
    unpaid := fun a ha hZero hLow => (mem_free_round hRaw hStart.toClamped).mpr
      ⟨ha, unpaid_inside p hZero hLow _⟩
    sided := ?_ }
  · obtain ⟨hKey, hLow⟩ := Finset.mem_filter.mp ha
    rw [hFixed (List.mem_toFinset.mp hKey), bound?, if_pos hLow]
  · obtain ⟨hKey, hHigh⟩ := Finset.mem_filter.mp ha
    rw [hFixed (List.mem_toFinset.mp hKey), bound?,
      if_neg (not_lt.mpr (p.ordered.trans hHigh.le)), if_pos hHigh]
  · refine (le_total (∑ a ∈ ((openingShares raw).round (.exact sqrt) raw floor cap).free.toFinset,
      ((openingShares raw).round (.exact sqrt) raw floor cap).current a) (remaining
      ((openingShares raw).round (.exact sqrt) raw floor cap))).imp (fun hLeft => ⟨hLeft, ?_⟩)
      (fun hLeft => ⟨hLeft, ?_⟩)
    · intro a v h hLow
      exact ((bound?_eq_some (hPinned h)).resolve_left (fun hUnder => hLow hUnder.2)).1
    · intro a v h hHigh
      exact ((bound?_eq_some (hPinned h)).resolve_right (fun hOver => hHigh hOver.2)).1

/-- The loop ends paced, and with what is left spread over the free assets. -/
theorem settled_paced : ∃ final, clampedWeights sqrt raw floor cap = final.merged ∧
    Paced raw floor cap final ∧ Spread raw final := by
  have hRaw := getD_nonneg p.nonneg
  have hStart : Graded raw floor cap (openingShares raw) := openingShares_graded p.nonneg
  have hKeep (m : Normalization) (h : m = openingShares raw ∨ Paced raw floor cap m) :
      (m.round (.exact sqrt) raw floor cap = openingShares raw ∨
        Paced raw floor cap (m.round (.exact sqrt) raw floor cap)) ∧
      Paced raw floor cap (m.round (.exact sqrt) raw floor cap) := by
    have hNext : Paced raw floor cap (m.round (.exact sqrt) raw floor cap) := by
      rcases h with rfl | h
      · exact first_round_paced p
      · exact round_paced p h
    exact ⟨Or.inr hNext, hNext⟩
  exact ⟨_, rfl, (settle_induction hKeep raw.keys.length (Or.inl rfl)).2,
    settle_spread hRaw _ hStart.toClamped (Nat.lt_succ_self _)⟩

end Paced

section Ends

variable {sqrt : ℚ → ℚ} {raw : Dict String ℚ} {floor cap : ℚ} {n : Normalization}

theorem mostTaken_eq : mostTaken raw floor cap = ∑ a ∈ raw.keys.toFinset,
    if openShare raw a < floor then floor else if 0 < raw.getD a 0 then cap else 0 := by
  rw [Finset.sum_ite, Finset.sum_ite, Finset.sum_const, Finset.sum_const, Finset.sum_const_zero,
    Finset.filter_filter, add_zero, nsmul_eq_mul, nsmul_eq_mul, mul_comm _ floor, mul_comm _ cap]
  rfl

theorem leastSpent_eq : leastSpent raw floor cap = ∑ a ∈ raw.keys.toFinset,
    if cap < openShare raw a then cap else floor := by
  have hNodup : raw.keys.Nodup := raw.nodup
  have hCount := @Finset.card_filter_add_card_filter_not _ raw.keys.toFinset
    (fun a => cap < openShare raw a) _ _
  rw [List.toFinset_card_of_nodup hNodup] at hCount
  have hOthers : (({a ∈ raw.keys.toFinset | ¬cap < openShare raw a} : Finset String).card : ℚ) =
      raw.keys.length - (highAssets raw cap).card := by
    rw [← hCount]
    push_cast
    rw [highAssets]
    ring
  rw [Finset.sum_ite, Finset.sum_const, Finset.sum_const, nsmul_eq_mul, nsmul_eq_mul, hOthers,
    mul_comm _ cap, mul_comm _ floor]
  rfl

variable (p : Feasible raw floor cap) (h : Paced raw floor cap n)

include p h

theorem paced_bounds {a : String} (ha : a ∈ raw.keys) :
    floor ≤ n.merged.getD a 0 ∧ n.merged.getD a 0 ≤ cap := by
  rcases h.toClamped.pinned_or_free ha with ⟨v, hFixed⟩ | hFree
  · rw [merged_fixed hFixed]
    rcases h.at_bound a v hFixed with rfl | rfl
    · exact ⟨le_rfl, p.ordered⟩
    · exact ⟨p.ordered, le_rfl⟩
  · rw [h.toClamped.merged_free hFree]
    exact h.within a hFree

omit p in
/-- An asset without raw weight that is not low gets nothing. -/
theorem merged_unpaid {a : String} (ha : a ∈ raw.keys) (hZero : raw.getD a 0 = 0)
    (hLow : ¬openShare raw a < floor) : n.merged.getD a 0 = 0 := by
  obtain ⟨factor, hFactor⟩ := h.proportional
  have hFree := h.unpaid a ha hZero hLow
  rw [h.toClamped.merged_free hFree, hFactor a hFree, hZero, mul_zero]

omit p in
theorem merged_low {a : String} (ha : a ∈ raw.keys) (hLow : openShare raw a < floor) :
    n.merged.getD a 0 = floor :=
  merged_fixed (h.low a (Finset.mem_filter.mpr ⟨List.mem_toFinset.mpr ha, hLow⟩))

omit p in
theorem merged_high {a : String} (ha : a ∈ raw.keys) (hHigh : cap < openShare raw a) :
    n.merged.getD a 0 = cap :=
  merged_fixed (h.high a (Finset.mem_filter.mpr ⟨List.mem_toFinset.mpr ha, hHigh⟩))

omit p in
theorem merged_sum : n.merged.total = ∑ a ∈ raw.keys.toFinset, n.merged.getD a 0 :=
  total_eq_sum (fun _ ha => List.mem_toFinset.mpr (h.toClamped.merged_keys ▸ ha))

/-- Whatever the loop pins, the total lies between the two one-sided ones. -/
theorem merged_total_range :
    leastSpent raw floor cap ≤ n.merged.total ∧ n.merged.total ≤ mostTaken raw floor cap := by
  have hRaw := getD_nonneg p.nonneg
  rw [merged_sum h, leastSpent_eq, mostTaken_eq]
  constructor
  · refine Finset.sum_le_sum (fun a ha => ?_)
    rw [List.mem_toFinset] at ha
    split_ifs with hHigh
    · exact (merged_high h ha hHigh).ge
    · exact (paced_bounds p h ha).1
  · refine Finset.sum_le_sum (fun a ha => ?_)
    rw [List.mem_toFinset] at ha
    split_ifs with hLow hPaid
    · exact (merged_low h ha hLow).le
    · exact (paced_bounds p h ha).2
    · have hZero := le_antisymm (not_lt.mp hPaid) (hRaw a)
      exact (merged_unpaid h ha hZero hLow).le

/-- A loop that ends without a free raw weight ends with one of the totals. -/
theorem merged_total_of_freeRaw (hNone : freeRaw raw n = 0) :
    (n.merged.total ≤ 1 ∧ n.merged.total = mostTaken raw floor cap ∧
        ∀ a ∈ raw.keys, 0 < raw.getD a 0 → ¬openShare raw a < floor → n.merged.getD a 0 = cap) ∨
      (1 ≤ n.merged.total ∧ n.merged.total = leastSpent raw floor cap) := by
  have hRaw := getD_nonneg p.nonneg
  obtain ⟨factor, -, hSum⟩ := sum_current h.toClamped
  rw [hNone, mul_zero] at hSum
  have hTotal : n.merged.total = 1 - remaining n := by
    rw [h.toClamped.merged_total, hSum, add_zero]
  have hZero {a : String} (ha : a ∈ n.free) : raw.getD a 0 = 0 := raw_of_freeRaw hRaw hNone ha
  rcases h.sided with hRising | hFalling
  · left
    have hFunded := hRising.funded
    rw [hSum] at hFunded
    have hPaid : ∀ a ∈ raw.keys, 0 < raw.getD a 0 → ¬openShare raw a < floor →
        n.merged.getD a 0 = cap := by
      intro a ha hPositive hLow
      rcases h.toClamped.pinned_or_free ha with ⟨v, hFixed⟩ | hFree
      · rw [merged_fixed hFixed, hRising.pinned a v hFixed hLow]
      · exact absurd (hZero hFree) hPositive.ne'
    refine ⟨by linarith, ?_, hPaid⟩
    rw [merged_sum h, mostTaken_eq]
    refine Finset.sum_congr rfl (fun a ha => ?_)
    rw [List.mem_toFinset] at ha
    split_ifs with hLow hPositive
    · exact merged_low h ha hLow
    · exact hPaid a ha hPositive hLow
    · exact merged_unpaid h ha (le_antisymm (not_lt.mp hPositive) (hRaw a)) hLow
  · right
    have hFunded := hFalling.funded
    rw [hSum] at hFunded
    refine ⟨by linarith, ?_⟩
    rw [merged_sum h, leastSpent_eq]
    refine Finset.sum_congr rfl (fun a ha => ?_)
    rw [List.mem_toFinset] at ha
    split_ifs with hHigh
    · exact merged_high h ha hHigh
    · rcases h.toClamped.pinned_or_free ha with ⟨v, hFixed⟩ | hFree
      · rw [merged_fixed hFixed, hFalling.pinned a v hFixed hHigh]
      · obtain ⟨factor, hFactor⟩ := h.proportional
        have hCurrent : n.current a = 0 := by rw [hFactor a hFree, hZero hFree, mul_zero]
        have hFloor := (h.within a hFree).1
        rw [hCurrent] at hFloor
        rw [h.toClamped.merged_free hFree, hCurrent]
        exact le_antisymm p.floor_nonneg hFloor

omit p in
/-- Where a free asset has a raw weight, the spread brings the total to one. -/
theorem merged_total_of_spread (hSpread : Spread raw n) (hSome : 0 < freeRaw raw n) :
    n.merged.total = 1 := by
  have hFree : ∑ a ∈ n.free.toFinset, n.current a = remaining n := by
    rw [← sum_shares h.free_nodup hSome]
    exact Finset.sum_congr rfl (fun a ha => hSpread a (List.mem_toFinset.mp ha))
  rw [h.toClamped.merged_total, hFree]
  ring

end Ends

section Anchor

variable {sqrt : ℚ → ℚ} {raw : Dict String ℚ} {floor cap : ℚ} {n : Normalization}
  (p : Feasible raw floor cap) {anchor : String} (hKey : anchor ∈ raw.keys)
  (hMax : ∀ a ∈ raw.keys, raw.getD a 0 ≤ raw.getD anchor 0)

include p hKey hMax

/-- The largest raw weight is at least the average one. -/
theorem anchor_share : 0 < raw.getD anchor 0 ∧ ¬openShare raw anchor < floor := by
  have hTotal : raw.total ≤ raw.keys.length * raw.getD anchor 0 := by
    have hNodup : raw.keys.Nodup := raw.nodup
    have hCount := Finset.sum_le_card_nsmul raw.keys.toFinset (fun a => raw.getD a 0) _
      (fun a ha => hMax a (List.mem_toFinset.mp ha))
    rw [List.toFinset_card_of_nodup hNodup, nsmul_eq_mul] at hCount
    rwa [total_eq_sum (fun a ha => List.mem_toFinset.mpr ha)]
  have hLength : (0 : ℚ) < raw.keys.length := by
    exact_mod_cast List.length_pos_of_mem hKey
  have hPositive : 0 < raw.getD anchor 0 :=
    pos_of_mul_pos_right (p.positive.trans_le hTotal) hLength.le
  refine ⟨hPositive, not_lt.mpr ?_⟩
  rw [openShare, le_div_iff₀ p.positive]
  calc floor * raw.total ≤ floor * (raw.keys.length * raw.getD anchor 0) :=
        mul_le_mul_of_nonneg_left hTotal p.floor_nonneg
    _ = floor * raw.keys.length * raw.getD anchor 0 := by ring
    _ ≤ 1 * raw.getD anchor 0 := mul_le_mul_of_nonneg_right p.floors_fit hPositive.le
    _ = raw.getD anchor 0 := one_mul _

/-- A loop that misses one misses it with the anchor at the cap. -/
theorem merged_total_cases (h : Paced raw floor cap n) (hSpread : Spread raw n) :
    n.merged.total = 1 ∨
      (n.merged.getD anchor 0 = cap ∧
        ((n.merged.total < 1 ∧ n.merged.total = mostTaken raw floor cap) ∨
          (1 < n.merged.total ∧ n.merged.total = leastSpent raw floor cap))) := by
  rcases (freeRaw_nonneg (getD_nonneg p.nonneg) n).eq_or_lt with hNone | hSome
  · obtain ⟨hPositive, hLow⟩ := anchor_share p hKey hMax
    rcases merged_total_of_freeRaw p h hNone.symm with ⟨hUnder, hTaken, hPaid⟩ | ⟨hOver, hSpent⟩
    · rcases hUnder.eq_or_lt with hOne | hShort
      · exact Or.inl hOne
      · exact Or.inr ⟨hPaid anchor hKey hPositive hLow, Or.inl ⟨hShort, hTaken⟩⟩
    · rcases hOver.eq_or_lt with hOne | hLong
      · exact Or.inl hOne.symm
      · refine Or.inr ⟨?_, Or.inr ⟨hLong, hSpent⟩⟩
        rcases (highAssets raw cap).eq_empty_or_nonempty with hEmpty | ⟨a, ha⟩
        · have hFits := p.floors_fit
          rw [hSpent, leastSpent, hEmpty, Finset.card_empty, Nat.cast_zero] at hLong
          linarith
        · obtain ⟨hOther, hHigh⟩ := Finset.mem_filter.mp ha
          refine merged_high h hKey (hHigh.trans_le ?_)
          exact div_le_div_of_nonneg_right (hMax a (List.mem_toFinset.mp hOther)) p.positive.le
  · exact Or.inl (merged_total_of_spread h hSpread hSome)

end Anchor

section Exact

variable {raw : Dict String ℚ} {floor cap : ℚ}

theorem Feasible.bounds (p : Feasible raw floor cap) :
    boundOr (some floor) 0 = floor ∧ boundOr (some cap) 1 = cap := by
  constructor
  · rw [boundOr]
    split_ifs with hZero
    · exact hZero.symm
    · rfl
  · rw [boundOr, if_neg (cap_pos p).ne']

theorem Feasible.isEmpty (p : Feasible raw floor cap) : raw.isEmpty = false := by
  have hPositive := p.positive
  cases hEmpty : raw.isEmpty with
  | false => rfl
  | true =>
      rw [Dict.isEmpty, List.isEmpty_iff] at hEmpty
      rw [Dict.total, Dict.values, hEmpty] at hPositive
      exact absurd hPositive (lt_irrefl _)

/-- Over bounds that some portfolio meets, a normalization without cash returns
weights within the bounds exactly when what its first round pins leaves room on
both sides. -/
theorem bounded_normalize_feasible_iff (sqrt : ℚ → ℚ) (p : Feasible raw floor cap) :
    (∃ weights, boundedNormalize (.exact sqrt) raw (some floor) (some cap) none = .ok weights ∧
        weights.total = 1 ∧ weights.keys = raw.keys ∧
        ∀ a ∈ raw.keys, floor ≤ weights.getD a 0 ∧ weights.getD a 0 ≤ cap) ↔
      1 ≤ mostTaken raw floor cap ∧
        leastSpent raw floor cap - 1 ≤ min remainderTolerance (cap - floor) := by
  obtain ⟨final, hClamped, hPaced, hSpread⟩ := @settled_paced sqrt raw floor cap p
  obtain ⟨anchor, hAnchor, hKey, hMax⟩ := exists_remainderAnchor p.isEmpty
  obtain ⟨hLeast, hMost⟩ := merged_total_range p hPaced
  have hTolerance : 0 < remainderTolerance := by norm_num [remainderTolerance]
  have hCases := merged_total_cases p hKey hMax hPaced hSpread
  have hBounds {a : String} (ha : a ∈ raw.keys) := paced_bounds p hPaced ha
  have hKeys := hPaced.toClamped.merged_keys
  simp only [boundedNormalize_eq_ok_iff, p.bounds, hClamped, closeRemainder_eq_ok_iff hAnchor]
  generalize final.merged = clamped at *
  constructor
  · rintro ⟨weights, ⟨-, -, -, -, hClosed⟩, -, -, hWithin⟩
    obtain ⟨hTiny, rfl⟩ := hClosed.resolve_right (fun hCash => by
      obtain ⟨-, asset, hNone, -⟩ := hCash
      cases hNone)
    have hAnchored := hWithin anchor hKey
    rw [Dict.getD, Dict.get?_set, if_pos rfl, Option.getD_some] at hAnchored
    rcases hCases with hOne | ⟨hCap, ⟨hShort, -⟩ | ⟨hLong, hSpent⟩⟩
    · refine ⟨by linarith, le_min ?_ ?_⟩ <;> linarith [p.ordered]
    · linarith
    · refine ⟨by linarith, le_min ?_ ?_⟩
      · rw [abs_sub_comm] at hTiny
        linarith [le_abs_self (clamped.total - 1)]
      · linarith
  · rintro ⟨hEnough, hFits⟩
    obtain ⟨hSmall, hRoom⟩ := le_min_iff.mp hFits
    have hClose : |1 - clamped.total| ≤ remainderTolerance ∧
        floor ≤ clamped.getD anchor 0 + (1 - clamped.total) ∧
        clamped.getD anchor 0 + (1 - clamped.total) ≤ cap := by
      rcases hCases with hOne | ⟨hCap, ⟨hShort, hTaken⟩ | ⟨hLong, hSpent⟩⟩
      · rw [hOne, sub_self, abs_zero, add_zero]
        exact ⟨hTolerance.le, hBounds hKey⟩
      · linarith
      · rw [abs_sub_comm, abs_of_pos (by linarith)]
        refine ⟨by linarith, by linarith, by linarith⟩
    refine ⟨_, ⟨p.isEmpty, p.positive, p.floors_fit, Or.inl p.caps_cover,
      Or.inl ⟨hClose.1, rfl⟩⟩, ?_, ?_, fun a ha => ?_⟩
    · rw [Dict.total_set_add]
      ring
    · rw [Dict.keys_set_of_mem (by rwa [hKeys]), hKeys]
    · rw [Dict.getD, Dict.get?_set]
      by_cases hSame : a = anchor
      · rw [if_pos hSame]
        exact hClose.2
      · rw [if_neg hSame]
        exact hBounds ha

theorem feasible_equal : Feasible (twoScores 1 1) (1 / 4) (3 / 4) :=
  ⟨by decide +kernel, by decide +kernel, by decide +kernel, by decide +kernel, by decide +kernel,
    by decide +kernel, by decide +kernel⟩

/-- Two equal scores stay within a quarter and three quarters. -/
theorem bounded_normalize_feasible_iff_equal : ∃ weights,
    boundedNormalize (.exact id) (twoScores 1 1) (some (1 / 4)) (some (3 / 4)) none =
        .ok weights ∧
      weights.total = 1 ∧ weights.keys = (twoScores 1 1).keys ∧
      ∀ a ∈ (twoScores 1 1).keys, 1 / 4 ≤ weights.getD a 0 ∧ weights.getD a 0 ≤ 3 / 4 :=
  (bounded_normalize_feasible_iff id feasible_equal).mpr (by decide +kernel)

theorem threeNames_nodup : ["A", "B", "C"].Nodup := by decide

def threeScores : Dict String ℚ :=
  ⟨[("A", 9 / 10), ("B", 1 / 10), ("C", 0)], threeNames_nodup⟩

/-- The first round caps the largest score and lifts the two others to the floor,
and a twentieth of the capital stays unspent. -/
theorem feasible_bounds_fail : Feasible threeScores (3 / 10) (35 / 100) ∧
    ∀ weights, boundedNormalize (.exact id) threeScores (some (3 / 10)) (some (35 / 100)) none ≠
      .ok weights := by
  have hRaises : (boundedNormalize (.exact id) threeScores (some (3 / 10)) (some (35 / 100))
      none).toOption = none := by decide +kernel
  refine ⟨⟨by decide +kernel, by decide +kernel, by decide +kernel, by decide +kernel,
    by decide +kernel, by decide +kernel, by decide +kernel⟩, fun weights h => ?_⟩
  rw [h] at hRaises
  cases hRaises

end Exact

end RuleTrade
