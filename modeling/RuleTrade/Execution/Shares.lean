import Mathlib.Algebra.BigOperators.Ring.List
import RuleTrade.Execution.Normalize
import RuleTrade.Execution.Trace

/-! Shares of an allocation asset by asset, over exact arithmetic. -/

namespace RuleTrade

open Library

variable {sqrt : ℚ → ℚ}

section Entries

/-- Weights that a list of entries puts on an asset. -/
def shareOf (asset : String) (entries : List (String × ℚ)) : ℚ :=
  ((entries.filter (fun entry => entry.1 = asset)).map Prod.snd).sum

@[simp] theorem shareOf_nil (asset : String) : shareOf asset [] = 0 := rfl

theorem shareOf_cons (asset : String) (entry : String × ℚ) (entries : List (String × ℚ)) :
    shareOf asset (entry :: entries) =
      (if entry.1 = asset then entry.2 else 0) + shareOf asset entries := by
  unfold shareOf
  by_cases h : entry.1 = asset
  · simp [h]
  · simp [h]

theorem shareOf_append (asset : String) (first second : List (String × ℚ)) :
    shareOf asset (first ++ second) = shareOf asset first + shareOf asset second := by
  simp [shareOf]

theorem shareOf_flatMap {α : Type} (asset : String) (entries : α → List (String × ℚ))
    (items : List α) :
    shareOf asset (items.flatMap entries) =
      (items.map (fun item => shareOf asset (entries item))).sum := by
  induction items with
  | nil => rfl
  | cons item items ih =>
      rw [List.flatMap_cons, shareOf_append, ih, List.map_cons, List.sum_cons]

/-- Entries of one weight for each asset. -/
theorem shareOf_map (asset : String) (weight : String → ℚ) (assets : List String) :
    shareOf asset (assets.map (fun item => (item, weight item))) =
      assets.count asset * weight asset := by
  induction assets with
  | nil => simp
  | cons first rest ih =>
      rw [List.map_cons, shareOf_cons, ih, List.count_cons]
      by_cases h : first = asset
      · subst h
        simp only [if_true, beq_self_eq_true, Nat.cast_add, Nat.cast_one]
        ring
      · simp [h]

theorem getD_addWeights (entries : List (String × ℚ)) (asset : String) :
    (addWeights (.exact sqrt) entries).getD asset 0 = shareOf asset entries := by
  have hFold (start : Dict String ℚ) :
      (entries.foldl (fun weights entry =>
        weights.set entry.1 ((DecimalContext.exact sqrt).add (weights.getD entry.1 0) entry.2))
        start).getD asset 0 = start.getD asset 0 + shareOf asset entries := by
    induction entries generalizing start with
    | nil => simp
    | cons entry rest ih =>
        rw [List.foldl_cons, ih, shareOf_cons, Dict.getD_set, DecimalContext.exact_add]
        by_cases h : entry.1 = asset
        · subst h
          simp only [if_true]
          ring
        · simp [h, Ne.symm h]
  have hEmpty : (Dict.empty : Dict String ℚ).getD asset 0 = 0 := rfl
  rw [addWeights, hFold, hEmpty, zero_add]

end Entries

section Legs

variable {d : Decision} {r : Runtime}

/-- Assets a leg stands for in a runtime, groups aside. -/
def AllocationLeg.assets (r : Runtime) (leg : AllocationLeg) : List String :=
  match leg.target.kind with
  | .selection ref => r.selected ref
  | .asset ref => [ref]
  | .cash => ["CASH"]
  | .group _ | .retain => []

/-- Legs that stand for some asset. -/
def AllocationStatement.resolvedLegs (r : Runtime) (a : AllocationStatement) :
    List AllocationLeg :=
  a.legs.filter (fun leg => leg.assets r ≠ [])

/-- Entries of a leg with its share of the weight. -/
def AllocationLeg.entries (r : Runtime) (leg : AllocationLeg) : List (String × Option ℚ) :=
  (leg.assets r).map (·, leg.weight.map (· / (leg.assets r).length))

/-- Neither groups nor retained holdings. -/
def AllocationLeg.plain (leg : AllocationLeg) : Prop :=
  leg.target.kind ≠ .retain ∧ ∀ ref, leg.target.kind ≠ .group ref

theorem AllocationLeg.targetAssets_eq {leg : AllocationLeg} (h : leg.plain) :
    targetAssets d r leg.target.kind = .ok (leg.assets r) := by
  unfold targetAssets assets
  cases hKind : leg.target.kind with
  | selection ref => rfl
  | asset ref => rfl
  | cash => rfl
  | group ref => exact absurd hKind (h.2 ref)
  | retain => exact absurd hKind h.1

theorem expandLegs_plain (hExact : d.environment.context = .exact sqrt)
    {legs : List AllocationLeg} (h : ∀ leg ∈ legs, leg.plain) :
    expandLegs d r legs = .ok (some (legs.flatMap (AllocationLeg.entries r))) := by
  induction legs with
  | nil => rfl
  | cons leg rest ih =>
      have hLeg := h leg List.mem_cons_self
      have hRest := ih (fun leg' hLeg' => h leg' (List.mem_cons_of_mem leg hLeg'))
      simp only [expandLegs, if_neg hLeg.1, AllocationLeg.targetAssets_eq hLeg, hRest, hExact,
        DecimalContext.exact_quot]
      by_cases hNil : leg.assets r = []
      · simp [AllocationLeg.entries, hNil, bind, Except.bind]
      · simp [AllocationLeg.entries, hNil, bind, Except.bind]

theorem expandLegs_retain {a : AllocationStatement} (h : ∃ leg ∈ a.legs, leg.target.kind = .retain) :
    expandLegs d r a.legs = .ok none := by
  obtain ⟨hLength, -⟩ := a.retain_sole h
  obtain ⟨leg, hLegs⟩ := List.length_eq_one_iff.mp hLength
  obtain ⟨leg', hMem, hRetain⟩ := h
  rw [hLegs] at hMem ⊢
  rw [List.mem_singleton.mp hMem] at hRetain
  simp [expandLegs, hRetain]

end Legs

section Bounds

open Normalization

variable {p : Apportionment} {n : Normalization}

/-- Share of an asset by its raw weight. -/
def rawShare (raw : Dict String ℚ) (asset : String) : ℚ := raw.getD asset 0 / raw.values.sum

theorem spread_start {asset : String} (h : asset ∈ p.raw.keys) :
    (p.start.spread (.exact sqrt) p.raw).current asset = rawShare p.raw asset := by
  have hTotal : freeTotal p p.start = p.raw.values.sum := by
    rw [freeTotal, Apportionment.start, Dict.values_eq_map p.raw 0]
  have hRemaining : remaining p.start = 1 := sub_zero 1
  rw [spread_current (n := p.start) p.anchor_mem h, hTotal, hRemaining, one_mul, rawShare]

theorem pinAll_within {floor cap : ℚ} {assets : List String}
    (h : ∀ asset ∈ assets, bound? floor cap (n.current asset) = none) :
    assets.foldl (pin floor cap) n = n := by
  induction assets with
  | nil => rfl
  | cons first rest ih =>
      rw [List.foldl_cons, pin_eq, h first List.mem_cons_self]
      exact ih (fun asset hAsset => h asset (List.mem_cons_of_mem first hAsset))

/-- Shares within the bounds are settled by the first round. -/
theorem settle_within (rounds : Nat)
    (h : ∀ asset ∈ p.raw.keys, p.floor ≤ rawShare p.raw asset ∧ rawShare p.raw asset ≤ p.cap) :
    p.start.settle (.exact sqrt) p.raw p.floor p.cap (rounds + 1) =
      p.start.spread (.exact sqrt) p.raw := by
  have hRound : p.start.round (.exact sqrt) p.raw p.floor p.cap =
      p.start.spread (.exact sqrt) p.raw := by
    refine pinAll_within (fun asset hAsset => ?_)
    rw [spread_free, Sequence.mem_sortBy] at hAsset
    rw [spread_start hAsset, bound?_eq_none]
    exact h asset hAsset
  simp only [Normalization.settle, hRound, spread_free, if_true]

/-- Shares within the bounds are the weights. -/
theorem closeRemainder_within {cash : Option String} {weights : Dict String ℚ}
    (hShares : ∀ asset ∈ p.raw.keys,
      p.floor ≤ rawShare p.raw asset ∧ rawShare p.raw asset ≤ p.cap)
    (hAnchor : remainderAnchor p.raw = some p.anchor)
    (h : closeRemainder (.exact sqrt) p.raw
      (p.start.settle (.exact sqrt) p.raw p.floor p.cap (p.raw.keys.length + 1)).merged cash =
        .ok weights) (asset : String) :
    weights.getD asset 0 = rawShare p.raw asset := by
  rw [settle_within _ hShares] at h
  have hBalanced := start_balanced p
  have hKeys : (p.start.spread (.exact sqrt) p.raw).merged.keys = p.raw.keys := by
    rw [merged, spread_fixed]
    exact (Dict.keys_update (List.nil_subset _)).trans (spread_keys hBalanced)
  have hMerged (asset : String) :
      (p.start.spread (.exact sqrt) p.raw).merged.getD asset 0 = rawShare p.raw asset := by
    by_cases hMem : asset ∈ p.raw.keys
    · have hSpread : (p.start.spread (.exact sqrt) p.raw).current asset = rawShare p.raw asset :=
        spread_start hMem
      rw [← hSpread, merged, spread_fixed, Dict.getD, Dict.get?_update]
      rfl
    · rw [Dict.getD, Dict.get?_eq_none_iff.mpr (hKeys ▸ hMem), rawShare, Dict.getD,
        Dict.get?_eq_none_iff.mpr hMem]
      simp
  have hTotal : 0 < p.raw.values.sum := by
    rw [Dict.values_eq_map p.raw 0]
    exact freeTotal_pos (n := p.start) p.anchor_mem
  have hSum : (p.start.spread (.exact sqrt) p.raw).merged.values.sum = 1 := by
    rw [Dict.values_eq_map _ 0, hKeys]
    simp only [hMerged, rawShare, div_eq_mul_inv]
    rw [List.sum_map_mul_right, ← Dict.values_eq_map, mul_inv_cancel₀ hTotal.ne']
  simp only [closeRemainder, DecimalContext.exact_sum, DecimalContext.exact_sub, hSum, sub_self,
    hAnchor] at h
  rw [if_pos (by simp [DecimalContext.abs, DecimalContext.exact, remainderTolerance])] at h
  cases h
  rw [Dict.getD_set]
  split_ifs with hSame
  · subst hSame
    rw [DecimalContext.exact_add, add_zero, hMerged]
  · exact hMerged asset

/-- A share outside the bounds by no more than a remainder can hide. -/
def grazes (floor cap share : ℚ) : Prop :=
  (floor - remainderTolerance ≤ share ∧ share < floor) ∨
    (cap < share ∧ share ≤ cap + remainderTolerance)

/-- Weights that are the shares are within the bounds. -/
theorem closeRemainder_shares {cash : Option String} {weights : Dict String ℚ}
    (hSettled : Settled p n) (hAnchor : remainderAnchor p.raw = some p.anchor)
    (h : closeRemainder (.exact sqrt) p.raw n.merged cash = .ok weights)
    (hCash : ∀ asset ∈ p.raw.keys, cash ≠ some asset) {asset : String}
    (hAsset : asset ∈ p.raw.keys) (hGraze : ¬grazes p.floor p.cap (rawShare p.raw asset))
    (hShare : weights.getD asset 0 = rawShare p.raw asset) :
    p.floor ≤ rawShare p.raw asset ∧ rawShare p.raw asset ≤ p.cap := by
  have hBounds := merged_bounds hSettled hAsset
  simp only [closeRemainder, DecimalContext.exact_sum, DecimalContext.exact_sub,
    DecimalContext.exact_add, hAnchor] at h
  change (if |1 - n.merged.values.sum| ≤ remainderTolerance then _ else _) = _ at h
  split_ifs at h with hTiny hOver hUnder
  · cases h
    rw [Dict.getD_set] at hShare
    split_ifs at hShare with hSame
    · subst hSame
      obtain ⟨hLow, hHigh⟩ := abs_le.mp hTiny
      unfold grazes at hGraze
      constructor
      · by_contra hBelow
        exact hGraze (Or.inl ⟨by linarith, not_le.mp hBelow⟩)
      · by_contra hAbove
        exact hGraze (Or.inr ⟨not_le.mp hAbove, by linarith⟩)
    · rw [← hShare]
      exact hBounds
  · cases cash with
    | none => cases h
    | some cash =>
        cases h
        have hOther : asset ≠ cash := fun hSame => hCash asset hAsset (by rw [hSame])
        rw [Dict.getD_set, if_neg hOther] at hShare
        rw [← hShare]
        exact hBounds
  · cases h
    rw [← hShare]
    exact hBounds

end Bounds

end RuleTrade
