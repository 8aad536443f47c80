import RuleTrade.Strategy.Fragments
import RuleTrade.Execution.Normalize
import RuleTrade.Execution.Portfolio

/-! Target weights over exact arithmetic. Every method spends the whole capital
on what its legs resolve to, except that a fixed allocation drops the share of
a leg that stands for no asset. -/

namespace RuleTrade

open Library

variable {sqrt : ℚ → ℚ}

section Sums

theorem addWeights_total (entries : List (String × ℚ)) :
    (addWeights (.exact sqrt) entries).total = (entries.map Prod.snd).sum := by
  have hFold (weights : Dict String ℚ) :
      (entries.foldl (fun weights entry => weights.set entry.1
        ((DecimalContext.exact sqrt).add (weights.getD entry.1 0) entry.2)) weights).total =
        weights.total + (entries.map Prod.snd).sum := by
    induction entries generalizing weights with
    | nil => simp
    | cons entry rest ih =>
        rw [List.foldl_cons, ih, DecimalContext.exact_add, Dict.total_set_add, List.map_cons,
          List.sum_cons, add_assoc]
  exact (hFold Dict.empty).trans (zero_add _)

theorem addWeights_nonneg {entries : List (String × ℚ)} (h : ∀ entry ∈ entries, 0 ≤ entry.2) :
    ∀ w ∈ (addWeights (.exact sqrt) entries).values, 0 ≤ w := by
  refine Dict.foldl_set_values ?_ ?_
  · intro w hw
    cases hw
  · intro entry hEntry weights hWeights
    exact add_nonneg (getD_nonneg hWeights entry.1) (h entry hEntry)

theorem equal_conserves (sqrt : ℚ → ℚ) {assets : List String} (h : assets ≠ []) :
    Conserves (addWeights (.exact sqrt)
      (assets.map (fun asset => (asset, 1 / (assets.length : ℚ))))) where
  nonneg := by
    refine addWeights_nonneg (fun entry hEntry => ?_)
    obtain ⟨asset, -, rfl⟩ := List.mem_map.mp hEntry
    exact div_nonneg zero_le_one (Nat.cast_nonneg _)
  total := by
    have hLength : (assets.length : ℚ) ≠ 0 :=
      Nat.cast_ne_zero.mpr (fun hZero => h (List.length_eq_zero_iff.mp hZero))
    rw [addWeights_total, List.map_map]
    change (assets.map (fun _ => 1 / (assets.length : ℚ))).sum = 1
    rw [List.map_const', List.sum_replicate, nsmul_eq_mul, mul_one_div_cancel hLength]

end Sums

section Raw

theorem proportionalRaw_nonneg (selected : List String) (scores : Dict String ℚ) :
    ∀ v ∈ (proportionalRaw selected scores).values, 0 ≤ v := by
  intro v hv
  unfold proportionalRaw at hv
  split_ifs at hv
  all_goals
    obtain ⟨pair, hPair, rfl⟩ := List.mem_map.mp (Dict.mem_values_ofList hv)
    obtain ⟨asset, -, rfl⟩ := List.mem_map.mp hPair
  · exact zero_le_one
  · exact le_max_left _ _

theorem proportionalRaw_length (selected : List String) (scores : Dict String ℚ) :
    (proportionalRaw selected scores).keys.length ≤ selected.length := by
  unfold proportionalRaw
  split_ifs
  all_goals exact (Dict.length_keys_ofList _).trans (List.length_map _).le

theorem inverseRaw_spec {selected : List String} {scores raw : Dict String ℚ}
    (h : inverseRaw (.exact sqrt) selected scores = .ok raw) :
    (∀ v ∈ raw.values, 0 ≤ v) ∧ raw.keys.length ≤ selected.length := by
  unfold inverseRaw at h
  split_ifs at h with hScores
  cases h
  refine ⟨fun v hv => ?_, (Dict.length_keys_ofList _).trans (List.length_map _).le⟩
  obtain ⟨pair, hPair, rfl⟩ := List.mem_map.mp (Dict.mem_values_ofList hv)
  obtain ⟨asset, hAsset, rfl⟩ := List.mem_map.mp hPair
  rw [Bool.not_eq_true, List.any_eq_false] at hScores
  have hPositive := hScores asset hAsset
  rw [decide_eq_true_eq, not_le] at hPositive
  exact div_nonneg zero_le_one hPositive.le

end Raw

section Legs

variable {d : Decision} {r : Runtime}

/-- Share of a leg that stands for no asset. -/
def AllocationLeg.dropped (d : Decision) (r : Runtime) (leg : AllocationLeg) : ℚ :=
  match targetAssets d r leg.target.kind with
  | .ok [] => leg.weight.getD 0
  | _ => 0

theorem legWeight_nonneg {legs : List AllocationLeg}
    (h : legs.all (fun leg => inUnitInterval leg.weight) = true) {leg : AllocationLeg}
    (hLeg : leg ∈ legs) : 0 ≤ leg.weight.getD 0 := by
  have hRange := List.all_eq_true.mp h leg hLeg
  cases hWeight : leg.weight with
  | none => rfl
  | some weight =>
      simp only [hWeight, inUnitInterval, Option.all_some, Bool.and_eq_true,
        decide_eq_true_eq] at hRange
      exact hRange.1

/-- Expanding legs keeps their shares, except the dropped ones. -/
theorem expandLegs_spec (hExact : d.environment.context = .exact sqrt) {legs : List AllocationLeg}
    (hLegs : ∀ leg ∈ legs, 0 ≤ leg.weight.getD 0) {expanded : List (String × Option ℚ)}
    (h : expandLegs d r legs = .ok (some expanded)) :
    (∀ entry ∈ expanded, 0 ≤ entry.2.getD 0) ∧
      (expanded.map (fun entry => entry.2.getD 0)).sum + (legs.map (AllocationLeg.dropped d r)).sum =
        (legs.map (fun leg => leg.weight.getD 0)).sum := by
  induction legs generalizing expanded with
  | nil =>
      cases h
      simp
  | cons leg rest ih =>
      simp only [expandLegs] at h
      split_ifs at h with hRetain
      · cases h
      obtain ⟨assets, hAssets, h⟩ := except_bind_ok.mp h
      obtain ⟨later, hLater, h⟩ := except_bind_ok.mp h
      have hWeight := hLegs leg List.mem_cons_self
      have hRest := fun leg' hLeg' => hLegs leg' (List.mem_cons_of_mem leg hLeg')
      by_cases hNil : assets = []
      · subst hNil
        simp only [if_true, Except.ok.injEq] at h
        subst h
        obtain ⟨hNonneg, hSum⟩ := ih hRest hLater
        refine ⟨hNonneg, ?_⟩
        have hDropped : leg.dropped d r = leg.weight.getD 0 := by
          rw [AllocationLeg.dropped, hAssets]
        rw [List.map_cons, List.map_cons, List.sum_cons, List.sum_cons, ← hSum, hDropped]
        ring
      · simp only [hNil, if_false, Except.ok.injEq, hExact, DecimalContext.exact_quot] at h
        obtain ⟨tail, rfl, rfl⟩ := Option.map_eq_some_iff.mp h
        obtain ⟨hNonneg, hSum⟩ := ih hRest hLater
        have hLength : (assets.length : ℚ) ≠ 0 :=
          Nat.cast_ne_zero.mpr (fun hZero => hNil (List.length_eq_zero_iff.mp hZero))
        have hShare : (leg.weight.map (fun w => w / (assets.length : ℚ))).getD 0 =
            leg.weight.getD 0 / assets.length := by
          cases leg.weight <;> simp
        have hKept : leg.dropped d r = 0 := by
          obtain ⟨first, others, rfl⟩ := List.exists_cons_of_ne_nil hNil
          rw [AllocationLeg.dropped, hAssets]
        constructor
        · intro entry hEntry
          rcases List.mem_append.mp hEntry with hEntry | hEntry
          · obtain ⟨asset, -, rfl⟩ := List.mem_map.mp hEntry
            rw [hShare]
            exact div_nonneg hWeight (Nat.cast_nonneg _)
          · exact hNonneg entry hEntry
        · have hAll : (assets.map (fun _ => leg.weight.getD 0 / (assets.length : ℚ))).sum =
              leg.weight.getD 0 := by
            rw [List.map_const', List.sum_replicate, nsmul_eq_mul, mul_div_cancel₀ _ hLength]
          rw [List.map_append, List.sum_append, List.map_map, List.map_cons, List.map_cons,
            List.sum_cons, List.sum_cons, ← hSum, hKept]
          change (assets.map (fun _ => (leg.weight.map
            (fun w => w / (assets.length : ℚ))).getD 0)).sum + _ + _ = _
          rw [hShare, hAll]
          ring

/-- A fixed allocation gives a positive share to a leg that stands for no asset. -/
def SkipsFundedLeg (d : Decision) (r : Runtime) (a : AllocationStatement) : Prop :=
  a.method = .fixed ∧
    ∃ leg ∈ a.legs, 0 < leg.weight.getD 0 ∧ targetAssets d r leg.target.kind = .ok []

theorem sum_eq_zero_iff_of_nonneg {xs : List ℚ} (h : ∀ x ∈ xs, 0 ≤ x) :
    xs.sum = 0 ↔ ∀ x ∈ xs, x = 0 := by
  induction xs with
  | nil => simp
  | cons x xs ih =>
      have hFirst := h x List.mem_cons_self
      have hRest := fun y hy => h y (List.mem_cons_of_mem x hy)
      have hSum : 0 ≤ xs.sum := List.sum_nonneg hRest
      rw [List.sum_cons, List.forall_mem_cons, ← ih hRest]
      constructor
      · intro hZero
        constructor <;> linarith
      · rintro ⟨rfl, hZero⟩
        rw [hZero, add_zero]

theorem dropped_sum_eq_zero_iff {legs : List AllocationLeg}
    (hLegs : ∀ leg ∈ legs, 0 ≤ leg.weight.getD 0) :
    (legs.map (AllocationLeg.dropped d r)).sum = 0 ↔
      ¬∃ leg ∈ legs, 0 < leg.weight.getD 0 ∧ targetAssets d r leg.target.kind = .ok [] := by
  have hNonneg : ∀ x ∈ legs.map (AllocationLeg.dropped d r), 0 ≤ x := by
    intro x hx
    obtain ⟨leg, hLeg, rfl⟩ := List.mem_map.mp hx
    unfold AllocationLeg.dropped
    split
    · exact hLegs leg hLeg
    · rfl
  rw [sum_eq_zero_iff_of_nonneg hNonneg]
  constructor
  · rintro hZero ⟨leg, hLeg, hPositive, hAssets⟩
    have hDropped := hZero _ (List.mem_map.mpr ⟨leg, hLeg, rfl⟩)
    rw [AllocationLeg.dropped, hAssets] at hDropped
    exact hPositive.ne' hDropped
  · intro hNone x hx
    obtain ⟨leg, hLeg, rfl⟩ := List.mem_map.mp hx
    unfold AllocationLeg.dropped
    split
    · rename_i hAssets
      refine le_antisymm (not_lt.mp (fun hPositive => hNone ⟨leg, hLeg, hPositive, hAssets⟩))
        (hLegs leg hLeg)
    · rfl

/-- Weights of one allocation conserve the capital unless it skips a funded leg. -/
theorem Writes.conserves_iff (hExact : d.environment.context = .exact sqrt)
    (hSelected : ∀ output, (r.selected output).length ≤ 100) {a : AllocationStatement}
    {weights : Dict String ℚ} (h : Writes d r a weights) :
    Conserves weights ↔ ¬SkipsFundedLeg d r a := by
  obtain ⟨expanded, hExpanded, hNonempty, hMethod⟩ := h
  have hLegs : ∀ leg ∈ a.legs, 0 ≤ leg.weight.getD 0 := fun leg hLeg =>
    legWeight_nonneg a.weights_range hLeg
  cases hKind : a.method with
  | equal =>
      have hConserves : Conserves weights := by
        simp only [methodWeights, hKind, hExact, Except.ok.injEq, DecimalContext.exact_quot]
          at hMethod
        rw [← hMethod]
        have hNamed : expanded.map Prod.fst ≠ [] :=
          fun hNil => hNonempty (List.map_eq_nil_iff.mp hNil)
        have hEqual := equal_conserves sqrt hNamed
        rwa [List.map_map, List.length_map] at hEqual
      exact ⟨fun _ hSkips => by simp [SkipsFundedLeg, hKind] at hSkips, fun _ => hConserves⟩
  | fixed =>
      simp only [methodWeights, hKind, hExact, Except.ok.injEq] at hMethod
      obtain ⟨hEntries, hSum⟩ := expandLegs_spec hExact hLegs hExpanded
      have hTotal : weights.total + (a.legs.map (AllocationLeg.dropped d r)).sum = 1 := by
        rw [← hMethod, addWeights_total, List.map_map, ← (a.fixed_weights hKind).2, ← hSum]
        rfl
      have hNonneg : ∀ w ∈ weights.values, 0 ≤ w := by
        rw [← hMethod]
        refine addWeights_nonneg (fun entry hEntry => ?_)
        obtain ⟨source, hSource, rfl⟩ := List.mem_map.mp hEntry
        exact hEntries source hSource
      have hIff := dropped_sum_eq_zero_iff (d := d) (r := r) hLegs
      constructor
      · rintro hConserves ⟨-, hSkips⟩
        have hOne := hConserves.total
        exact hIff.mp (by linarith) hSkips
      · intro hSkips
        have hZero := hIff.mpr (fun hLeg => hSkips ⟨hKind, hLeg⟩)
        exact ⟨hNonneg, by linarith⟩
  | proportionalScore =>
      simp only [methodWeights, hKind, hExact] at hMethod
      have hConserves := boundedNormalize_conserves (proportionalRaw_nonneg _ _)
        ((proportionalRaw_length _ _).trans (hSelected _)) a.bounds_range a.bounds_ordered hMethod
      exact ⟨fun _ hSkips => by simp [SkipsFundedLeg, hKind] at hSkips, fun _ => hConserves⟩
  | inverseVolatility =>
      simp only [methodWeights, hKind, hExact] at hMethod
      obtain ⟨raw, hRaw, hMethod⟩ := except_bind_ok.mp hMethod
      obtain ⟨hNonneg, hLength⟩ := inverseRaw_spec hRaw
      have hConserves := boundedNormalize_conserves hNonneg (hLength.trans (hSelected _))
        a.bounds_range a.bounds_ordered hMethod
      exact ⟨fun _ hSkips => by simp [SkipsFundedLeg, hKind] at hSkips, fun _ => hConserves⟩

end Legs

section Run

variable {d : Decision}

/-- Published Selections keep at most a hundred members. -/
def Runtime.SmallSelections (r : Runtime) : Prop :=
  ∀ output, (r.selected output).length ≤ 100

/-- Step lemma: an entry keeps published Selections small. -/
theorem smallSelections_of_enter {r r' : Runtime} {s : ProgramStatement}
    {body : List ProgramStatement} (h : enterState d r s = .ok (r', body))
    (hSmall : r.SmallSelections) : r'.SmallSelections := by
  have hSame (r' : Runtime) (hMaps : SameMaps r r') : r'.SmallSelections := by
    intro output
    rw [Runtime.selected, hMaps.selections]
    exact hSmall output
  cases effect_of_enter h with
  | selected s due size scores outcome detail =>
      intro output
      unfold Runtime.selected
      simp only [note_selections, Dict.getD_set]
      split_ifs
      · exact size
      · exact hSmall output
  | allocated effect => exact hSame _ effect.sameMaps
  | guarded effect => exact hSame _ effect.sameMaps
  | _ => exact hSmall

/-- Run lemma: every runtime a decision finds has small Selections. -/
theorem smallSelections_of_trace {start final found : Runtime} {s : ProgramStatement}
    {trace : List (Runtime × ProgramStatement)} (hTrace : d.Traced start trace final)
    (hStart : start.SmallSelections) (hMem : (found, s) ∈ trace) : found.SmallSelections := by
  obtain ⟨before, rest, hSteps⟩ := Agenda.Steps.reaches_of_mem hTrace hMem
  exact hSteps.invariant (fun r _ => r.SmallSelections)
    (fun _ _ _ _ _ hEnter hSmall => smallSelections_of_enter hEnter hSmall) hStart

theorem allocationPortfolio_found {r found : Runtime} {a source : AllocationStatement}
    (h : allocationPortfolio d r a = some (.wrote found source)) : found = r := by
  unfold allocationPortfolio at h
  split at h <;> cases h
  rfl

theorem portfolio_found {r found : Runtime} {s : ProgramStatement} {source : AllocationStatement}
    (h : s.portfolio d r = some (.wrote found source)) : found = r := by
  cases s with
  | allocate a => exact allocationPortfolio_found h
  | guardedAllocation s =>
      simp only [ProgramStatement.portfolio, policyPortfolio] at h
      split at h
      · split_ifs at h
        · cases h
        split at h
        · split at h
          · cases h
          · exact allocationPortfolio_found h
        · cases h
      · cases h
  | control head thenBody otherwiseBody =>
      simp only [ProgramStatement.portfolio, controlPortfolio] at h
      split at h
      · split_ifs at h
        cases h
      · cases h
  | _ => cases h

/-- The last write found a runtime of the trace. -/
theorem lastWrite_found {trace : List (Runtime × ProgramStatement)} {found : Runtime}
    {source : AllocationStatement} (h : lastWrite d trace = some (found, source)) :
    ∃ s, (found, s) ∈ trace := by
  obtain ⟨effect, hEffect, hWriter⟩ := List.mem_filterMap.mp (List.mem_of_getLast? h)
  obtain ⟨⟨r, s⟩, hMem, hPortfolio⟩ := List.mem_filterMap.mp hEffect
  cases effect with
  | retained => cases hWriter
  | wrote found' source' =>
      cases hWriter
      obtain rfl := portfolio_found hPortfolio
      exact ⟨s, hMem⟩

end Run

/-- The weights of a returned result are nonnegative and sum to one exactly
when the allocation that wrote them skips no funded leg. -/
theorem capital_conserved_iff {program : SemanticProgram} {snapshot : DailyMarketSnapshot}
    {cutoffIndex : Option Int} {revisionId : Option String} {ck : Checkpoint}
    {result : ProgramExecutionResult}
    (h : executeProgramV2 (.exact sqrt) program snapshot cutoffIndex revisionId ck = .ok result)
    (hWeights : result.targetWeights.isEmpty = false) :
    ∃ d trace found source,
      EnteredBy (snapshot.environment (.exact sqrt)) program cutoffIndex ck d trace ∧
      lastWrite d trace = some (found, source) ∧
      (((∀ w ∈ result.targetWeights.values, 0 ≤ w) ∧ result.targetWeights.values.sum = 1) ↔
        ¬SkipsFundedLeg d found source) := by
  obtain ⟨-, cutoff, inRange, hRow, -, trace, final, observations, hTrace, rfl⟩ := executeIn_ok h
  have hFinal := weights_of_steps hTrace
  split at hFinal <;> rename_i hLast
  · change final.targetWeights.isEmpty = false at hWeights
    rw [hFinal] at hWeights
    cases hWeights
  · rename_i found source
    refine ⟨_, trace, found, source, ⟨cutoff, inRange, final, hRow, rfl, hTrace⟩, hLast, ?_⟩
    obtain ⟨s, hMem⟩ := lastWrite_found hLast
    have hSmall := smallSelections_of_trace hTrace (fun output => Nat.zero_le 100) hMem
    rw [← Writes.conserves_iff rfl hSmall hFinal]
    exact ⟨fun hConserves => ⟨hConserves.1, hConserves.2⟩,
      fun hConserves => ⟨hConserves.nonneg, hConserves.total⟩⟩

/-- A Selection that cannot be filled, and a fixed allocation that counts on it. -/
def halfUnfilled : SemanticProgram :=
  .daily [
    .select {
      semanticId := "pick"
      selection := .anyOf 2 .requireFull (by decide)
      outputId := "top"
      clockId := some "daily" },
    .allocate (.halves "hold" (.asset "A") (.selection "top") (by decide) (by decide))]

/-- A Friday, the Monday after it, and a universe of one member. -/
def loneMember : DailyMarketSnapshot :=
  { DailyMarketSnapshot.single "A" (⟨2024, 1, 5⟩, some 10) [(⟨2024, 1, 8⟩, some 11)] with
    domains := Dict.ofList [("universe", ["A"])]
    domains_valid := by decide }

/-- Half of the capital is in no position. -/
theorem half_unspent : ∃ result : ProgramExecutionResult,
    executeProgramV2 (.exact id) halfUnfilled loneMember = .ok result ∧
      result.targetWeights.entries = [("A", 1 / 2)] ∧ result.targetWeights.values.sum ≠ 1 := by
  have hChecked : (executeProgramV2 (.exact id) halfUnfilled loneMember).toOption.any
      (fun result => result.targetWeights.entries = [("A", 1 / 2)]) = true := by
    decide +kernel
  obtain ⟨result, hExecuted, hHalf⟩ := exists_ok_of_any hChecked
  have hEntries := of_decide_eq_true hHalf
  refine ⟨result, hExecuted, hEntries, ?_⟩
  rw [Dict.values, hEntries]
  norm_num

theorem capital_conserved_iff_half : ∃ d trace found source,
    EnteredBy (loneMember.environment (.exact id)) halfUnfilled none {} d trace ∧
      lastWrite d trace = some (found, source) ∧ SkipsFundedLeg d found source := by
  have hChecked : (executeProgramV2 (.exact id) halfUnfilled loneMember).toOption.any
      (fun result => !result.targetWeights.isEmpty && result.targetWeights.values.sum ≠ 1) =
        true := by
    decide +kernel
  obtain ⟨result, hExecuted, hHalf⟩ := exists_ok_of_any hChecked
  rw [Bool.and_eq_true, Bool.not_eq_true', decide_eq_true_eq] at hHalf
  obtain ⟨d, trace, found, source, hEntered, hLast, hIff⟩ :=
    capital_conserved_iff hExecuted hHalf.1
  exact ⟨d, trace, found, source, hEntered, hLast,
    not_not.mp (fun hSkips => hHalf.2 (hIff.mpr hSkips).2)⟩

end RuleTrade
