import RuleTrade.Backend.TemporalLowering
import RuleTrade.Execution.Shares
import RuleTrade.Library.Rounding
import RuleTrade.Strategy.Fragments

/-! Which resolvable allocations allocate. Without bounds the shares close up to
rounding, so that an allocation fails only where it needs a score that its
Selection did not publish. -/

namespace RuleTrade

open Library Normalization

section Unbounded

variable {ctx : DecimalContext} {raw : Dict String ℚ}

/-- Loop state before the first round. -/
def roundedShares (ctx : DecimalContext) (raw : Dict String ℚ) : Normalization :=
  ⟨raw.mapValues (fun value => ctx.quot value (ctx.sum raw.values)), Dict.empty, raw.keys⟩

/-- Share of an asset as the first round computes it. -/
def roundedShare (ctx : DecimalContext) (raw : Dict String ℚ) (asset : String) : ℚ :=
  ctx.quot (ctx.mul 1 (raw.getD asset 0)) (ctx.sum (raw.keys.map (fun a => raw.getD a 0)))

variable (hPrecise : ctx.Precise) (hRaw : ∀ v ∈ raw.values, 0 ≤ v) (hTotal : 0 < raw.total)

include hPrecise hRaw hTotal

theorem rounded_total_pos : 0 < ctx.sum (raw.keys.map (fun a => raw.getD a 0)) := by
  rw [← raw.values_eq_map 0]
  exact (hPrecise.near_sum hRaw).pos hTotal

theorem roundedShare_range {asset : String} (h : asset ∈ raw.keys) :
    0 ≤ roundedShare ctx raw asset ∧ roundedShare ctx raw asset ≤ 1 := by
  have hPositive := rounded_total_pos hPrecise hRaw hTotal
  have hAsset := getD_nonneg hRaw asset
  have hTerm : ctx.mul 1 (raw.getD asset 0) ≤ ctx.sum (raw.keys.map (fun a => raw.getD a 0)) := by
    rw [DecimalContext.mul, one_mul]
    refine hPrecise.round_le_sum (fun v hv => ?_) (List.mem_map.mpr ⟨asset, h, rfl⟩)
    obtain ⟨a, -, rfl⟩ := List.mem_map.mp hv
    exact getD_nonneg hRaw a
  refine ⟨hPrecise.round_nonneg (div_nonneg ?_ hPositive.le), hPrecise.quot_le_one hTerm hPositive⟩
  rw [DecimalContext.mul, one_mul]
  exact hPrecise.round_nonneg hAsset

/-- The first round spreads the capital and pins nothing. -/
theorem settle_roundedShares (rounds : Nat) :
    ∃ weights : Dict String ℚ, weights.keys = raw.keys ∧
      (∀ a ∈ raw.keys, weights.getD a 0 = roundedShare ctx raw a) ∧
      (roundedShares ctx raw).settle ctx raw 0 1 (rounds + 1) = ⟨weights, Dict.empty, raw.keys⟩ := by
  have hPositive := rounded_total_pos hPrecise hRaw hTotal
  have hNonempty : raw.keys ≠ [] := by
    intro hNil
    rw [hNil] at hPositive
    exact absurd hPositive (lt_irrefl 0)
  have hRemaining : ctx.sub 1 (ctx.sum (Dict.empty : Dict String ℚ).values) = 1 := by
    show ctx.round (1 - 0) = 1
    rw [sub_zero, hPrecise.one]
  have hSpread : (roundedShares ctx raw).spread ctx raw =
      ⟨raw.keys.foldl (fun weights asset => weights.set asset (roundedShare ctx raw asset))
        (roundedShares ctx raw).weights, Dict.empty, raw.keys⟩ := by
    rw [spread, if_pos ⟨hNonempty, hPositive⟩]
    show Normalization.mk (raw.keys.foldl (fun weights asset => weights.set asset
      (ctx.quot (ctx.mul (ctx.sub 1 (ctx.sum (Dict.empty : Dict String ℚ).values)) _) _)) _) _ _ = _
    rw [hRemaining]
    rfl
  have hKeys : (roundedShares ctx raw).weights.keys = raw.keys := Dict.keys_mapValues _ _
  have hShares : ∀ a ∈ raw.keys, ((roundedShares ctx raw).spread ctx raw).current a =
      roundedShare ctx raw a := by
    intro a ha
    rw [hSpread, current, Dict.getD_foldl_set, if_pos ha]
  have hRound : (roundedShares ctx raw).round ctx raw 0 1 =
      (roundedShares ctx raw).spread ctx raw := by
    refine pinAll_within (fun a ha => ?_)
    rw [hSpread, Sequence.mem_sortBy] at ha
    rw [hShares a ha]
    exact bound?_eq_none.mpr (roundedShare_range hPrecise hRaw hTotal ha)
  have hFree : ((roundedShares ctx raw).spread ctx raw).free = (roundedShares ctx raw).free := by
    rw [hSpread]
    rfl
  refine ⟨_, ?_, hShares, ?_⟩
  · rw [hSpread]
    exact (Dict.keys_foldl_set (fun a ha => hKeys ▸ ha)).trans hKeys
  · simp only [Normalization.settle, hRound, hFree, if_true]
    rw [hSpread]

/-- Without bounds every positive raw sum normalizes. -/
theorem boundedNormalize_unbounded (hSize : raw.keys.length ≤ 100) (cash : Option String) :
    ∃ weights, boundedNormalize ctx raw none none cash = .ok weights := by
  obtain ⟨weights, hKeys, hShares, hSettled⟩ :=
    settle_roundedShares hPrecise hRaw hTotal raw.values.length
  have hPositive := rounded_total_pos hPrecise hRaw hTotal
  rw [← raw.values_eq_map 0] at hPositive
  have hCount : 1 ≤ raw.keys.length := by
    apply Nat.one_le_iff_ne_zero.mpr
    intro hZero
    rw [Dict.total, raw.values_eq_map 0, List.length_eq_zero_iff.mp hZero] at hTotal
    exact absurd hTotal (lt_irrefl 0)
  have hGuard : ¬(raw.isEmpty = true ∨ ctx.sum raw.values ≤ 0) := by
    rintro (hEmpty | hZero)
    · rw [Dict.isEmpty, List.isEmpty_iff] at hEmpty
      rw [Dict.keys, hEmpty] at hCount
      exact absurd hCount (by decide)
    · exact absurd hPositive (not_lt.mpr hZero)
  have hFloor : ¬1 < ctx.mul (boundOr none 0) raw.values.length := by
    rw [boundOr, DecimalContext.mul, zero_mul, hPrecise.round_zero]
    norm_num
  have hCap : ¬(ctx.mul (boundOr none 1) raw.values.length < 1 ∧ cash.isNone = true) := by
    rintro ⟨hLess, -⟩
    refine absurd hLess (not_lt.mpr ?_)
    rw [boundOr, DecimalContext.mul, one_mul, Dict.length_values, ← hPrecise.one]
    exact hPrecise.mono (by exact_mod_cast hCount)
  have hNear : |1 - ctx.sum weights.values| ≤ 404 * DecimalContext.halfUnit := by
    have hValues : weights.values = raw.keys.map (roundedShare ctx raw) := by
      rw [weights.values_eq_map 0, hKeys]
      exact List.map_congr_left hShares
    rw [hValues]
    have hSum : 0 < (raw.keys.map (fun a => raw.getD a 0)).sum := by
      rw [← raw.values_eq_map 0]
      exact hTotal
    exact (hPrecise.near_shares (fun a _ => getD_nonneg hRaw a) hSum).abs_sub_one (by omega)
  have hTiny : ctx.abs (ctx.sub 1 (ctx.sum weights.values)) ≤ remainderTolerance := by
    have hOuter := (le_abs_self _).trans
      (hPrecise.abs_round_le |ctx.sub 1 (ctx.sum weights.values)|)
    have hInner := hPrecise.abs_round_le (1 - ctx.sum weights.values)
    rw [abs_abs] at hOuter
    have hSmall : 4 * (404 * DecimalContext.halfUnit) ≤ remainderTolerance := by
      norm_num [DecimalContext.halfUnit, remainderTolerance]
    show ctx.round |ctx.sub 1 (ctx.sum weights.values)| ≤ _
    have hSub : ctx.sub 1 (ctx.sum weights.values) = ctx.round (1 - ctx.sum weights.values) := rfl
    rw [hSub] at hOuter ⊢
    linarith
  have hMerged : weights.update (Dict.empty : Dict String ℚ) = weights := rfl
  simp only [boundedNormalize, if_neg hGuard, if_neg hFloor, if_neg hCap]
  change ∃ result, closeRemainder ctx raw
    (((roundedShares ctx raw).settle ctx raw 0 1 (raw.values.length + 1)).weights.update
      ((roundedShares ctx raw).settle ctx raw 0 1 (raw.values.length + 1)).fixed) cash = .ok result
  rw [hSettled]
  show ∃ result, closeRemainder ctx raw (weights.update Dict.empty) cash = .ok result
  simp only [hMerged, closeRemainder, if_pos hTiny]
  cases remainderAnchor raw <;> exact ⟨_, rfl⟩

end Unbounded

section Published

/-- Members published under an output, with scores for all of them or for none. -/
structure Published (members : List String) (scores : Dict String ℚ) : Prop where
  size : members.length ≤ 100
  scored : scores.isEmpty = true ∨ ∀ a, a ∈ scores.keys ↔ a ∈ members

def Runtime.Publishes (r : Runtime) : Prop :=
  ∀ outputId, Published (r.selected outputId) (r.scores outputId)

/-- Either every chosen member is ranked or none is. -/
theorem chooseMembers_ranked (s : Selection) (ordered : List String) :
    (chooseMembers s ordered).1 ⊆ ordered ∨ ∀ a ∈ (chooseMembers s ordered).1, a ∉ ordered := by
  unfold chooseMembers
  split
  · exact Or.inl (List.take_subset _ _)
  · cases s.fallbackAsset with
    | none => exact Or.inl (List.nil_subset _)
    | some asset =>
        by_cases h : asset ∈ ordered
        · exact Or.inl (List.cons_subset.mpr ⟨h, List.nil_subset _⟩)
        · right
          intro a ha
          rw [List.mem_singleton.mp ha]
          exact h

theorem published_choice (s : Selection) (ranked : List (ℚ × String)) :
    Published (chooseMembers s (ranked.map Prod.snd)).1
      (Dict.ofList ((ranked.filter (fun entry =>
        entry.2 ∈ (chooseMembers s (ranked.map Prod.snd)).1)).map
          (fun entry => (entry.2, entry.1)))) := by
  have hRanked := chooseMembers_ranked s (ranked.map Prod.snd)
  have hSize := chooseMembers_length s (ranked.map Prod.snd)
  generalize (chooseMembers s (ranked.map Prod.snd)).1 = chosen at hRanked hSize ⊢
  refine ⟨hSize, ?_⟩
  rcases hRanked with hAll | hNone
  · right
    intro a
    rw [Dict.mem_keys_ofList, List.map_map, List.mem_map]
    constructor
    · rintro ⟨entry, hEntry, rfl⟩
      exact of_decide_eq_true (List.mem_filter.mp hEntry).2
    · intro ha
      obtain ⟨entry, hEntry, rfl⟩ := List.mem_map.mp (hAll ha)
      exact ⟨entry, List.mem_filter.mpr ⟨hEntry, decide_eq_true ha⟩, rfl⟩
  · left
    have hNil : ranked.filter (fun entry => entry.2 ∈ chosen) = [] := by
      rw [List.filter_eq_nil_iff]
      intro entry hEntry hChosen
      exact hNone entry.2 (of_decide_eq_true hChosen) (List.mem_map_of_mem hEntry)
    rw [hNil]
    rfl

variable {d : Decision} {r r' : Runtime}

theorem selection_publishes {s : SelectionStatement} (h : (selection d r s).result = .ok r')
    (hBefore : r.Publishes) : r'.Publishes := by
  unfold selection at h
  obtain ⟨due, -, h⟩ := Logged.result_bind_eq_ok.mp h
  cases due with
  | false =>
      cases h
      exact hBefore
  | true =>
      simp only [if_true] at h
      obtain ⟨members, -, h⟩ := Logged.result_bind_eq_ok.mp h
      obtain ⟨scored, -, h⟩ := Logged.result_bind_eq_ok.mp h
      cases h
      intro outputId
      rw [Runtime.selected, Runtime.scores, Dict.getD, Dict.getD]
      simp only [Runtime.note, Dict.get?_set]
      by_cases hOutput : outputId = s.outputId
      · rw [if_pos hOutput, if_pos hOutput]
        exact published_choice s.selection _
      · rw [if_neg hOutput, if_neg hOutput]
        exact hBefore outputId

/-- Only a Selection publishes. -/
theorem enter_publishes {s : ProgramStatement} {body : List ProgramStatement}
    (h : enterState d r s = .ok (r', body)) (hBefore : r.Publishes) : r'.Publishes := by
  have hSame (hSelections : r'.selections = r.selections)
      (hScores : r'.selectionScores = r.selectionScores) : r'.Publishes := by
    intro outputId
    rw [Runtime.selected, Runtime.scores, hSelections, hScores]
    exact hBefore outputId
  cases s with
  | select s =>
      obtain ⟨_, hEntered, hPair⟩ := Logged.result_bind_eq_ok.mp h
      cases hPair
      exact selection_publishes hEntered hBefore
  | allocate a =>
      cases effect_of_enter h with
      | notDue => exact hBefore
      | allocated effect => exact hSame effect.sameMaps.selections effect.sameMaps.selectionScores
  | guardedAllocation g =>
      cases effect_of_enter h with
      | notDue => exact hBefore
      | guarded effect => exact hSame effect.sameMaps.selections effect.sameMaps.selectionScores
  | _ => cases effect_of_enter h <;> exact hBefore

/-- A runtime a decision comes to, between statements or at its end. -/
def Decision.Attains (d : Decision) (start r : Runtime) : Prop :=
  ∃ trace waiting, Agenda.Steps (enterState d) start d.program.statements trace r waiting

theorem publishes_of_attains {ck : Checkpoint} {program : SemanticProgram}
    (h : d.Attains (ck.runtime program) r) : r.Publishes := by
  obtain ⟨trace, waiting, hSteps⟩ := h
  refine hSteps.invariant (fun r _ => r.Publishes) (fun _ _ _ _ _ hEnter hBefore =>
    enter_publishes hEnter hBefore) ?_
  intro outputId
  exact ⟨Nat.zero_le _, Or.inl rfl⟩

end Published

section Raw

variable {selected : List String} {f : String → ℚ}

/-- A display of nonnegative numbers, one of them positive. -/
theorem ofList_positive (hNonneg : ∀ a ∈ selected, 0 ≤ f a)
    (hPositive : ∃ a ∈ selected, 0 < f a) :
    (∀ v ∈ (Dict.ofList (selected.map (fun a => (a, f a)))).values, 0 ≤ v) ∧
      0 < (Dict.ofList (selected.map (fun a => (a, f a)))).total := by
  have hValues : ∀ v ∈ (Dict.ofList (selected.map (fun a => (a, f a)))).values, 0 ≤ v := by
    intro v hv
    obtain ⟨pair, hPair, rfl⟩ := List.mem_map.mp (Dict.mem_values_ofList hv)
    obtain ⟨a, ha, rfl⟩ := List.mem_map.mp hPair
    exact hNonneg a ha
  refine ⟨hValues, ?_⟩
  obtain ⟨a, ha, hSome⟩ := hPositive
  have hFound : (Dict.ofList (selected.map (fun a => (a, f a)))).get? a = some (f a) := by
    refine Dict.get?_ofList_of_alike (List.mem_map.mpr ⟨a, ha, rfl⟩) (fun other hOther => ?_)
    obtain ⟨b, -, hPair⟩ := List.mem_map.mp hOther
    cases hPair
    rfl
  have hMem : f a ∈ (Dict.ofList (selected.map (fun a => (a, f a)))).values :=
    List.mem_map.mpr ⟨(a, f a), Dict.mem_of_get? hFound, rfl⟩
  exact hSome.trans_le (List.single_le_sum hValues _ hMem)

/-- Shares of a display of at most a hundred such numbers can be taken. -/
theorem boundedNormalize_ofList {ctx : DecimalContext} (hPrecise : ctx.Precise)
    (hSize : selected.length ≤ 100) (hNonneg : ∀ a ∈ selected, 0 ≤ f a)
    (hPositive : ∃ a ∈ selected, 0 < f a) (cash : Option String) :
    ∃ weights, boundedNormalize ctx (Dict.ofList (selected.map (fun a => (a, f a)))) none none
      cash = .ok weights := by
  obtain ⟨hValues, hTotal⟩ := ofList_positive hNonneg hPositive
  have hLength := Dict.length_keys_ofList (selected.map (fun a => (a, f a)))
  rw [List.length_map] at hLength
  exact boundedNormalize_unbounded hPrecise hValues hTotal (hLength.trans hSize) cash

variable {scores : Dict String ℚ}

theorem get?_of_isEmpty (h : scores.isEmpty = true) (a : String) : scores.get? a = none := by
  apply Dict.get?_eq_none_iff.mpr
  rw [Dict.isEmpty, List.isEmpty_iff] at h
  rw [Dict.keys, h]
  exact List.not_mem_nil

theorem proportionalRaw_normalizes {ctx : DecimalContext} (hPrecise : ctx.Precise)
    (h : Published selected scores) (hSelected : selected ≠ [])
    (hSome : scores.isEmpty = true ∨ ∃ score ∈ scores.values, 0 < score) (cash : Option String) :
    ∃ weights, boundedNormalize ctx (proportionalRaw selected scores) none none cash =
      .ok weights := by
  unfold proportionalRaw
  split
  · refine boundedNormalize_ofList hPrecise h.size (fun _ _ => zero_le_one) ?_ cash
    obtain ⟨a, ha⟩ := List.exists_mem_of_ne_nil selected hSelected
    exact ⟨a, ha, zero_lt_one⟩
  · rename_i hScored
    have hMembers : ∀ a, a ∈ scores.keys ↔ a ∈ selected := by
      refine h.scored.resolve_left (fun hEmpty => hScored ⟨hSelected, ?_⟩)
      rw [List.all_eq_true]
      intro a _
      simp [Dict.contains, get?_of_isEmpty hEmpty a]
    refine boundedNormalize_ofList hPrecise h.size (fun _ _ => le_max_left _ _) ?_ cash
    rcases hSome with hEmpty | ⟨score, hScore, hPositive⟩
    · obtain ⟨a, ha⟩ := List.exists_mem_of_ne_nil selected hSelected
      exact absurd ((hMembers a).mpr ha) (Dict.get?_eq_none_iff.mp (get?_of_isEmpty hEmpty a))
    · obtain ⟨⟨a, v⟩, hEntry, rfl⟩ := List.mem_map.mp hScore
      have hFound : scores.get? a = some v := Dict.get?_of_mem hEntry
      refine ⟨a, (hMembers a).mp (Dict.mem_keys_of_get? hFound), lt_max_of_lt_right ?_⟩
      rw [Dict.getD, hFound]
      exact hPositive

/-- Inverse values need a score of every selected member. -/
theorem inverseRaw_normalizes_iff {ctx : DecimalContext} (hPrecise : ctx.Precise)
    (h : Published selected scores) (hSelected : selected ≠ [])
    (hAll : scores.isEmpty = true ∨ ∀ score ∈ scores.values, 0 < score) (cash : Option String) :
    (∃ weights, (inverseRaw ctx selected scores >>= fun raw =>
        boundedNormalize ctx raw none none cash) = .ok weights) ↔ scores.isEmpty = false := by
  obtain ⟨a, ha⟩ := List.exists_mem_of_ne_nil selected hSelected
  constructor
  · rintro ⟨weights, hWeights⟩
    rw [Bool.eq_false_iff]
    intro hEmpty
    have hNone : selected.any (fun asset => scores.getD asset 0 ≤ 0) = true := by
      refine List.any_eq_true.mpr ⟨a, ha, ?_⟩
      simp [Dict.getD, get?_of_isEmpty hEmpty a]
    rw [inverseRaw, if_pos hNone] at hWeights
    cases hWeights
  · intro hSome
    have hMembers := h.scored.resolve_left (by rw [hSome]; exact Bool.false_ne_true)
    have hPositive : ∀ b ∈ selected, 0 < scores.getD b 0 := by
      intro b hb
      obtain ⟨v, hFound⟩ := Option.isSome_iff_exists.mp
        (Dict.get?_isSome_iff.mpr ((hMembers b).mpr hb))
      rw [Dict.getD, hFound]
      refine hAll.resolve_left (by rw [hSome]; exact Bool.false_ne_true) v ?_
      exact List.mem_map.mpr ⟨(b, v), Dict.mem_of_get? hFound, rfl⟩
    have hNone : ¬selected.any (fun asset => scores.getD asset 0 ≤ 0) = true := by
      intro hAny
      obtain ⟨b, hb, hLow⟩ := List.any_eq_true.mp hAny
      exact absurd (hPositive b hb) (not_lt.mpr (of_decide_eq_true hLow))
    have hQuot : ∀ b ∈ selected, 0 < ctx.quot 1 (scores.getD b 0) := by
      intro b hb
      have hInverse : 0 < 1 / scores.getD b 0 := one_div_pos.mpr (hPositive b hb)
      exact (hPrecise.near_round hInverse.le).pos hInverse
    rw [inverseRaw, if_neg hNone]
    exact boundedNormalize_ofList hPrecise h.size (fun b hb => (hQuot b hb).le)
      ⟨a, ha, hQuot a ha⟩ cash

end Raw

section Resolvable

variable {d : Decision} {r : Runtime}

/-- The allocation sets weights and lets go of the holdings. -/
def Allocates (d : Decision) (r : Runtime) (s : AllocationStatement) (outcome : String) : Prop :=
  ∃ weights, allocation d r s outcome = .ok ({ r with
    targetWeights := weights
    retained := false }.note s.semanticId "allocation" outcome (.weights weights))

/-- Legs that all stand for some asset expand to entries. -/
theorem expandLegs_targets {legs : List AllocationLeg} (hLegs : legs ≠ [])
    (h : ∀ leg ∈ legs, leg.target.kind ≠ .retain ∧
      ∃ assets, targetAssets d r leg.target.kind = .ok assets ∧ assets ≠ []) :
    ∃ expanded, expandLegs d r legs = .ok (some expanded) ∧ expanded ≠ [] := by
  have hExpands : ∃ expanded, expandLegs d r legs = .ok (some expanded) ∧
      legs.length ≤ expanded.length := by
    clear hLegs
    induction legs with
    | nil => exact ⟨[], rfl, le_rfl⟩
    | cons leg rest ih =>
        obtain ⟨hRetain, assets, hAssets, hSome⟩ := h leg List.mem_cons_self
        obtain ⟨later, hLater, hLength⟩ := ih (fun leg' hLeg' => h leg' (List.mem_cons_of_mem leg hLeg'))
        refine ⟨_, by
          simp only [expandLegs, if_neg hRetain, hAssets, hLater, except_ok_bind, if_neg hSome]
          rfl, ?_⟩
        have hPositive := List.length_pos_iff.mpr hSome
        rw [List.length_append, List.length_map, List.length_cons]
        omega
  obtain ⟨expanded, hExpanded, hLength⟩ := hExpands
  refine ⟨expanded, hExpanded, ?_⟩
  rintro rfl
  exact hLegs (List.length_eq_zero_iff.mp (Nat.le_zero.mp hLength))

theorem allocates_iff {s : AllocationStatement} {expanded : List (String × Option ℚ)}
    (hDue : d.due s.clockId = .ok true) (hExpanded : expandLegs d r s.legs = .ok (some expanded))
    (hSome : expanded ≠ []) (outcome : String) :
    Allocates d r s outcome ↔ ∃ weights, methodWeights d r s expanded = .ok weights := by
  obtain ⟨first, rest, rfl⟩ := List.exists_cons_of_ne_nil hSome
  simp only [Allocates, allocation, hDue, hExpanded, except_ok_bind, if_true]
  constructor
  · rintro ⟨weights, h⟩
    obtain ⟨result, hResult, -⟩ := except_bind_ok.mp h
    exact ⟨result, hResult⟩
  · rintro ⟨weights, h⟩
    exact ⟨weights, by rw [h]; rfl⟩

/-- A score-derived allocation takes members from the Selection of its leg. -/
theorem scoreOutput_eq {s : AllocationStatement} (h : s.method.scoreDerived = true) :
    ∃ leg ∈ s.legs, leg.target.kind = .selection s.scoreOutput := by
  have hTarget := s.score_target h
  rcases hLegs : s.legs with _ | ⟨leg, _ | ⟨other, rest⟩⟩
  · rw [hLegs] at hTarget
    cases hTarget
  · rw [hLegs, isSelectionLeg] at hTarget
    refine ⟨leg, List.mem_singleton_self leg, ?_⟩
    have hOutput : s.scoreOutput = leg.target.kind.ref.getD "" := by
      rw [AllocationStatement.scoreOutput, hLegs]
      rfl
    rw [hOutput]
    cases hKind : leg.target.kind with
    | selection ref => rfl
    | _ => simp [hKind] at hTarget
  · rw [hLegs] at hTarget
    cases hTarget

variable {s : AllocationStatement}

/-- What a resolvable allocation has found. -/
theorem resolvable_inversion (h : allocationResolvable r s = true) :
    (∀ leg ∈ s.legs, ∀ ref, leg.target.kind = .selection ref → r.selected ref ≠ []) ∧
    (s.method = .proportionalScore → (r.scores s.scoreOutput).isEmpty = true ∨
      ∃ score ∈ (r.scores s.scoreOutput).values, 0 < score) ∧
    (s.method = .inverseVolatility → (r.scores s.scoreOutput).isEmpty = true ∨
      ∀ score ∈ (r.scores s.scoreOutput).values, 0 < score) := by
  have hBranch {targets scored : Bool} (hIf : (if (!targets) = true then false else scored) = true) :
      targets = true ∧ scored = true := by
    cases targets with
    | false => cases hIf
    | true => exact ⟨rfl, hIf⟩
  obtain ⟨hTargets, hScored⟩ := hBranch h
  refine ⟨fun leg hLeg ref hKind => ?_, fun hMethod => ?_, fun hMethod => ?_⟩
  · have hTarget := List.all_eq_true.mp hTargets leg hLeg
    rw [hKind] at hTarget
    simpa using hTarget
  · cases hEmpty : (r.scores s.scoreOutput).isEmpty with
    | true => exact Or.inl rfl
    | false => exact Or.inr (by simpa [hMethod, hEmpty] using hScored)
  · cases hEmpty : (r.scores s.scoreOutput).isEmpty with
    | true => exact Or.inl rfl
    | false => exact Or.inr (by simpa [hMethod, hEmpty] using hScored)

/-- A due allocation without bounds that is resolvable sets weights, in every
runtime a decision comes to, unless it inverts values of a Selection that
published none. -/
theorem resolvable_allocates_iff {ck : Checkpoint} {program : SemanticProgram}
    {snapshot : DailyMarketSnapshot} {ctx : DecimalContext} {cutoff : Nat}
    {inRange : cutoff < (snapshot.environment ctx).dates.length}
    (hPrecise : ctx.Precise)
    (hDecision : d = ck.decision program (snapshot.environment ctx) cutoff inRange)
    (hAttains : d.Attains (ck.runtime program) r)
    (hBounds : s.minimumWeight = none ∧ s.maximumWeight = none)
    (hDue : d.due s.clockId = .ok true)
    (hRetain : ∀ leg ∈ s.legs, leg.target.kind ≠ .retain)
    (hDomains : ∀ leg ∈ s.legs, ∀ ref, leg.target.kind = .group ref → ref ∈ snapshot.domains.keys)
    (hResolvable : allocationResolvable r s = true) (outcome : String) :
    Allocates d r s outcome ↔
      ¬(s.method = .inverseVolatility ∧ (r.scores s.scoreOutput).isEmpty = true) := by
  obtain ⟨hFound, hProportional, hInverse⟩ := resolvable_inversion hResolvable
  have hContext : d.environment.context = ctx := by rw [hDecision]; rfl
  have hTargets : ∀ leg ∈ s.legs, leg.target.kind ≠ .retain ∧
      ∃ assets, targetAssets d r leg.target.kind = .ok assets ∧ assets ≠ [] := by
    intro leg hLeg
    refine ⟨hRetain leg hLeg, ?_⟩
    cases hKind : leg.target.kind with
    | selection ref => exact ⟨_, rfl, hFound leg hLeg ref hKind⟩
    | group ref =>
        obtain ⟨members, hDomain⟩ := Option.isSome_iff_exists.mp
          (Dict.get?_isSome_iff.mpr (hDomains leg hLeg ref hKind))
        have hMembers : d.members ref = .ok members := by
          have hDomains : d.environment.domains = snapshot.domains := by rw [hDecision]; rfl
          simp only [Decision.members, hDomains, hDomain]
        refine ⟨members, hMembers, (snapshot.domains_valid members ?_).1⟩
        exact List.mem_map.mpr ⟨(ref, members), Dict.mem_of_get? hDomain, rfl⟩
    | asset ref => exact ⟨_, rfl, List.cons_ne_nil _ _⟩
    | cash => exact ⟨_, rfl, List.cons_ne_nil _ _⟩
    | retain => exact absurd hKind (hRetain leg hLeg)
  have hLegs : s.legs ≠ [] := List.length_pos_iff.mp s.legs_range.1
  obtain ⟨expanded, hExpanded, hSome⟩ := expandLegs_targets hLegs hTargets
  rw [allocates_iff hDue hExpanded hSome]
  have hPublished := publishes_of_attains hAttains s.scoreOutput
  have hSelected (hDerived : s.method.scoreDerived = true) : r.selected s.scoreOutput ≠ [] := by
    obtain ⟨leg, hLeg, hKind⟩ := scoreOutput_eq hDerived
    exact hFound leg hLeg _ hKind
  unfold methodWeights
  rw [hContext, hBounds.1, hBounds.2]
  cases hMethod : s.method with
  | equal => simp
  | fixed => simp
  | proportionalScore =>
      refine iff_of_true ?_ (by simp)
      exact proportionalRaw_normalizes hPrecise hPublished (hSelected (by rw [hMethod]; rfl))
        (hProportional hMethod) _
  | inverseVolatility =>
      refine (inverseRaw_normalizes_iff hPrecise hPublished (hSelected (by rw [hMethod]; rfl))
        (hInverse hMethod) _).trans ?_
      simp

end Resolvable

section Fallback

/-- The calmest member of the universe, else `F`. -/
def calmest : SelectionStatement where
  semanticId := "pick"
  selection := { (Selection.anyOf 1 .chooseAll one_in_countRange).orElse "F" with
    ranking := .daily (.indicator { semanticId := "volatility" } .realizedVolatility 3 0
      (.observe { semanticId := "close", subjectKind := some .candidate,
                  bindingId := some "candidate" } .close .adjusted))
    ranking_bound := rfl }
  outputId := "top"

theorem inverse_ne_fixed : AllocationMethod.inverseVolatility ≠ .fixed := by decide

theorem proportional_ne_fixed : AllocationMethod.proportionalScore ≠ .fixed := by decide

def inverseOfCalmest : AllocationStatement :=
  isolatedAllocation calmest .inverseVolatility inverse_ne_fixed

def sharesOfCalmest : AllocationStatement :=
  isolatedAllocation calmest .proportionalScore proportional_ne_fixed

def calmestProgram : SemanticProgram :=
  .daily [.select calmest, .guardedAllocation {
    semanticId := "policy", primary := inverseOfCalmest, fallback := some (.sole "cash" .cash) }]

/-- One session, too few for a volatility. -/
def calmestSnapshot : DailyMarketSnapshot :=
  (DailyMarketSnapshot.single "A" (⟨2024, 1, 5⟩, some 10) []).overDomain "universe" ["A"]
    (loneMember_valid "A")

theorem calmestSnapshot_row : 0 < (calmestSnapshot.environment (.exact id)).dates.length :=
  List.length_pos_iff.mpr calmestSnapshot.dates_nonempty

def calmestDecision : Decision :=
  ({} : Checkpoint).decision calmestProgram (calmestSnapshot.environment (.exact id)) 0
    calmestSnapshot_row

theorem attains_of_run {d : Decision} {start r : Runtime} {before rest : List ProgramStatement}
    (hProgram : d.program.statements = before ++ rest)
    (hRun : (statements d before start).result = .ok r) : d.Attains start r := by
  obtain ⟨trace, hSteps⟩ := (interprets d).ok_iff.mp hRun
  refine ⟨trace, rest, ?_⟩
  rw [hProgram]
  exact hSteps.frame rest

/-- Shares by score of the unscored fallback asset can be taken. -/
theorem resolvable_allocates_iff_calmest : ∃ r,
    calmestDecision.Attains (({} : Checkpoint).runtime calmestProgram) r ∧
      Allocates calmestDecision r sharesOfCalmest "primary" := by
  have hRan : (statements calmestDecision (calmestProgram.statements.take 1)
      (({} : Checkpoint).runtime calmestProgram)).result.toOption.any (fun r =>
        allocationResolvable r sharesOfCalmest) = true := by
    decide +kernel
  obtain ⟨r, hRun, hResolvable⟩ := exists_ok_of_any hRan
  have hAttains : calmestDecision.Attains (({} : Checkpoint).runtime calmestProgram) r :=
    attains_of_run (List.take_append_drop 1 calmestProgram.statements).symm hRun
  refine ⟨r, hAttains, ?_⟩
  refine (resolvable_allocates_iff (DecimalContext.exact_precise id) rfl hAttains ⟨rfl, rfl⟩ rfl
    ?_ ?_ hResolvable "primary").mpr (fun h => by cases h.1)
  · intro leg hLeg
    rw [List.mem_singleton.mp hLeg]
    exact AllocationTargetKind.selection_ne_retain "top"
  · intro leg hLeg ref hGroup
    rw [List.mem_singleton.mp hLeg] at hGroup
    cases hGroup

/-- The policy takes the resolvable primary, and the primary fails on the fallback
asset. -/
theorem resolvable_inverse_fails : Accepted calmestProgram ∧ ∃ r,
    calmestDecision.Attains (({} : Checkpoint).runtime calmestProgram) r ∧
      calmestDecision.due inverseOfCalmest.clockId = .ok true ∧
      allocationResolvable r inverseOfCalmest = true ∧
      ¬Allocates calmestDecision r inverseOfCalmest "primary" := by
  have hRan : (statements calmestDecision (calmestProgram.statements.take 1)
      (({} : Checkpoint).runtime calmestProgram)).result.toOption.any (fun r =>
        allocationResolvable r inverseOfCalmest &&
          (allocation calmestDecision r inverseOfCalmest "primary").toOption.isNone) = true := by
    decide +kernel
  obtain ⟨r, hRun, hChecked⟩ := exists_ok_of_any hRan
  obtain ⟨hResolvable, hFails⟩ := Bool.and_eq_true_iff.mp hChecked
  refine ⟨by decide +kernel, r, attains_of_run
    (List.take_append_drop 1 calmestProgram.statements).symm hRun, rfl, hResolvable, ?_⟩
  rintro ⟨weights, hAllocates⟩
  rw [hAllocates] at hFails
  cases hFails

end Fallback

end RuleTrade
