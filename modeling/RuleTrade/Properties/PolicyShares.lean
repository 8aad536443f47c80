import RuleTrade.Execution.Shares
import RuleTrade.Properties.CapitalConservation
import RuleTrade.Properties.PolicyRules

/-! Weights of the generated policy against the weights of the allocation it is
lowered from, over exact arithmetic. -/

namespace RuleTrade

open Library

section Generated

variable {sqrt : ℚ → ℚ} {numbers : GeneratedNumbers} {plan : LeanPlan} {g : GeneratedState}
  {r : Runtime} {outputs : SelectionOutputs}

/-- Generated numbers that are exact. -/
structure GeneratedNumbers.Exact (numbers : GeneratedNumbers) (sqrt : ℚ → ℚ) : Prop where
  context : numbers.context = .exact sqrt
  literal : ∀ number, numbers.literal number = number

/-- The generated code fills a selection without its fallback. -/
def LeanMomentumSelection.complete (s : LeanMomentumSelection) (market : GeneratedMarket) : Bool :=
  s.success ((s.policyRanked market).take s.count)

/-- A Selection came out alike on both sides: the same assets, with the same
scores when it was filled, and one replacement at most when it was not. -/
structure OutcomeAgrees (numbers : GeneratedNumbers) (plan : LeanPlan) (g : GeneratedState)
    (r : Runtime) (output : String) (s : LeanMomentumSelection) : Prop where
  selected : s.policyStage (g.market numbers) (plan.fallbackSymbols s.id) = r.selected output
  distinct : (r.selected output).Nodup
  scored : s.complete (g.market numbers) = true → ∀ asset ∈ r.selected output, ∃ score,
    (r.scores output).get? asset = some score ∧
      (s.scores (g.market numbers)).get? asset = some score
  replaced : s.complete (g.market numbers) = false → (r.selected output).length ≤ 1

/-- Every output that the policy may refer to came out alike. -/
def OutcomesAgree (numbers : GeneratedNumbers) (plan : LeanPlan) (g : GeneratedState) (r : Runtime)
    (outputs : SelectionOutputs) : Prop :=
  ∀ output id, outputs.get? output = some id → ∃ s,
    plan.momentumSelections.find? (fun selection => selection.id = id) = some s ∧
      OutcomeAgrees numbers plan g r output s

/-- Assets that the generated code puts the weight of a leg into. -/
def AllocationLeg.held (r : Runtime) (leg : AllocationLeg) : List String :=
  if leg.target.kind = .cash then [] else leg.assets r

/-- Factor of a leg, which only a fixed allocation has. -/
def AllocationLeg.factor (method : AllocationMethod) (leg : AllocationLeg) : ℚ :=
  if method = .fixed then leg.weight.getD 0 else 1

/-- Contributions of a leg that is split evenly. -/
def AllocationLeg.even (method : AllocationMethod) (r : Runtime) (leg : AllocationLeg) :
    List (String × ℚ) :=
  (leg.held r).map (·, 1 / (leg.held r).length * leg.factor method)

/-- One contribution of a list of entries. -/
def addEntry (sqrt : ℚ → ℚ) (weights : Dict String ℚ) (entry : String × ℚ) : Dict String ℚ :=
  weights.set entry.1 ((DecimalContext.exact sqrt).add (weights.getD entry.1 0) entry.2)

theorem contribute_eq (h : numbers.Exact sqrt) (aggregate : Dict String ℚ) (asset : String)
    (weight : ℚ) :
    contribute numbers aggregate asset weight = addEntry sqrt aggregate (asset, weight) := by
  unfold contribute addEntry
  rw [h.context, Dict.getD]
  cases aggregate.get? asset with
  | none => simp
  | some existing => rfl

theorem temporalLeg_ok {leg : AllocationLeg} {lowered : LeanTemporalAllocationLeg}
    (h : temporalLeg outputs leg = .ok lowered) :
    lowered.weight = leg.weight ∧ (∀ ref, leg.target.kind ≠ .group ref) ∧
      (match leg.target.kind with
        | .asset ref => lowered.target = .asset ref
        | .selection ref => ∃ id, outputs.get? ref = some id ∧ lowered.target = .selection id
        | .cash => lowered.target = .cash
        | .retain => lowered.target = .retain
        | .group _ => False) := by
  unfold temporalLeg at h
  cases hKind : leg.target.kind with
  | selection ref =>
      simp only [hKind] at h
      split at h
      · cases h
      · rename_i id hId
        cases h
        exact ⟨rfl, by simp, id, hId, rfl⟩
  | asset ref | cash | retain =>
      simp only [hKind] at h
      cases h
      exact ⟨rfl, by simp, rfl⟩
  | group ref =>
      simp only [hKind] at h
      cases h

/-- A leg of an evenly split portfolio. -/
theorem policyLeg_even (hExact : numbers.Exact sqrt)
    (hOutcomes : OutcomesAgree numbers plan g r outputs) {method : AllocationMethod}
    (hMethod : method ≠ .proportionalScore) {leg : AllocationLeg}
    {lowered : LeanTemporalAllocationLeg} (h : temporalLeg outputs leg = .ok lowered)
    (aggregate : Dict String ℚ) :
    policyLeg numbers plan (g.market numbers) method lowered aggregate =
      (leg.even method r).foldl (addEntry sqrt) aggregate := by
  obtain ⟨hWeight, hGroup, hTarget⟩ := temporalLeg_ok h
  have hFactor : numbers.literal (if method = .fixed then lowered.weight.getD 0 else 1) =
      leg.factor method := by
    rw [hExact.literal, hWeight, AllocationLeg.factor]
  unfold policyLeg AllocationLeg.even AllocationLeg.held AllocationLeg.assets
  rw [hFactor]
  cases hKind : leg.target.kind with
  | asset ref =>
      simp only [hKind] at hTarget
      simp [hTarget, contribute_eq hExact]
  | cash =>
      simp only [hKind] at hTarget
      simp [hTarget]
  | retain =>
      simp only [hKind] at hTarget
      simp [hTarget]
  | group ref => exact absurd hKind (hGroup ref)
  | selection ref =>
      simp only [hKind] at hTarget
      obtain ⟨id, hId, hTarget⟩ := hTarget
      obtain ⟨s, hFind, hAgrees⟩ := hOutcomes ref id hId
      simp only [hTarget, hFind, selectionLeg, hAgrees.selected, reduceCtorEq, if_false]
      rw [List.foldl_map]
      refine List.foldl_ext _ _ _ (fun weights asset hAsset => ?_)
      have hSome : (r.selected ref).isEmpty = false :=
        List.isEmpty_eq_false_iff.mpr (List.ne_nil_of_mem hAsset)
      simp [contribute_eq hExact, localWeight, hMethod, hSome, hExact.context]

/-- An evenly split portfolio adds up the contributions of its legs. -/
theorem composablePolicy_even (hExact : numbers.Exact sqrt)
    (hOutcomes : OutcomesAgree numbers plan g r outputs) {method : AllocationMethod}
    (hMethod : method ≠ .proportionalScore) {legs : List AllocationLeg}
    {lowered : List LeanTemporalAllocationLeg} (h : legs.mapM (temporalLeg outputs) = .ok lowered) :
    composablePolicy numbers plan g method lowered =
      addWeights (.exact sqrt) (legs.flatMap (AllocationLeg.even method r)) := by
  have hLegs := Sequence.forall₂_of_mapM h
  have hFold (start : Dict String ℚ) :
      lowered.foldl (fun aggregate leg =>
        policyLeg numbers plan (g.market numbers) method leg aggregate) start =
        (legs.flatMap (AllocationLeg.even method r)).foldl (addEntry sqrt) start := by
    clear h
    induction hLegs generalizing start with
    | nil => rfl
    | cons hLeg hLegs ih =>
        rw [List.foldl_cons, List.flatMap_cons, List.foldl_append,
          policyLeg_even hExact hOutcomes hMethod hLeg, ih]
  exact hFold Dict.empty

end Generated

section Even

variable {sqrt : ℚ → ℚ} {d : Decision} {r : Runtime} {a : AllocationStatement}

theorem shareOf_entries (asset : String) (weight : ℚ) (assets : List String) :
    shareOf asset (assets.map (·, weight)) = assets.count asset * weight :=
  shareOf_map asset (fun _ => weight) assets

/-- Off cash, what the generated code gives an asset follows the assets of the legs. -/
theorem shareOf_even {asset : String} (hCash : asset ≠ "CASH") (method : AllocationMethod)
    (legs : List AllocationLeg) :
    shareOf asset (legs.flatMap (AllocationLeg.even method r)) =
      (legs.map (fun leg : AllocationLeg => ((leg.assets r).count asset : ℚ) *
        (1 / (leg.assets r).length * leg.factor method))).sum := by
  rw [shareOf_flatMap]
  congr 1
  refine List.map_congr_left (fun leg hLeg => ?_)
  unfold AllocationLeg.even
  rw [shareOf_entries, AllocationLeg.held]
  split_ifs with hKind
  · simp [AllocationLeg.assets, hKind, Ne.symm hCash]
  · rfl

/-- Legs that stand for no asset add nothing. -/
theorem sum_resolvedLegs {α : Type} [AddCommMonoid α] {f : AllocationLeg → α}
    (hNone : ∀ leg : AllocationLeg, leg.assets r = [] → f leg = 0) :
    (a.legs.map f).sum = ((a.resolvedLegs r).map f).sum := by
  unfold AllocationStatement.resolvedLegs
  induction a.legs with
  | nil => rfl
  | cons leg rest ih =>
      rw [List.map_cons, List.sum_cons, ih, List.filter_cons]
      by_cases h : leg.assets r = []
      · simp [h, hNone leg h]
      · simp [h]

/-- Number of assets of some legs. -/
def assetCount (r : Runtime) (legs : List AllocationLeg) : Nat :=
  (legs.map (fun leg : AllocationLeg => (leg.assets r).length)).sum

theorem length_entries (legs : List AllocationLeg) :
    (legs.flatMap (AllocationLeg.entries r)).length = assetCount r legs := by
  simp [List.length_flatMap, AllocationLeg.entries, assetCount]

theorem assetCount_resolvedLegs : assetCount r a.legs = assetCount r (a.resolvedLegs r) :=
  sum_resolvedLegs (fun _ hNone => List.length_eq_zero_iff.mpr hNone)

theorem flatMap_entries_ne_nil :
    a.legs.flatMap (AllocationLeg.entries r) ≠ [] ↔ a.resolvedLegs r ≠ [] := by
  simp [AllocationStatement.resolvedLegs, AllocationLeg.entries]

/-- Shares of an equal allocation. -/
theorem shareOf_equal (asset : String) :
    shareOf asset ((a.legs.flatMap (AllocationLeg.entries r)).map (fun entry =>
      (entry.1, 1 / ((a.legs.flatMap (AllocationLeg.entries r)).length : ℚ)))) =
      ((a.resolvedLegs r).map (fun leg : AllocationLeg => ((leg.assets r).count asset : ℚ) *
        (1 / assetCount r (a.resolvedLegs r)))).sum := by
  rw [length_entries, assetCount_resolvedLegs, List.map_flatMap, shareOf_flatMap,
    ← sum_resolvedLegs (r := r) (fun leg hNone => by simp [hNone])]
  congr 1
  refine List.map_congr_left (fun leg hLeg => ?_)
  rw [AllocationLeg.entries, List.map_map]
  exact shareOf_entries asset _ (leg.assets r)

/-- Shares of the generated code for it. -/
theorem shareOf_even_equal {asset : String} (hCash : asset ≠ "CASH") :
    shareOf asset (a.legs.flatMap (AllocationLeg.even .equal r)) =
      ((a.resolvedLegs r).map (fun leg : AllocationLeg => ((leg.assets r).count asset : ℚ) *
        (1 / (leg.assets r).length))).sum := by
  rw [shareOf_even hCash, ← sum_resolvedLegs (r := r) (fun leg hNone => by simp [hNone])]
  simp [AllocationLeg.factor]

/-- Shares of a fixed allocation are those of the generated code. -/
theorem shareOf_fixed {asset : String} (hCash : asset ≠ "CASH") (legs : List AllocationLeg) :
    shareOf asset ((legs.flatMap (AllocationLeg.entries r)).map
      (fun entry => (entry.1, entry.2.getD 0))) =
      shareOf asset (legs.flatMap (AllocationLeg.even .fixed r)) := by
  rw [shareOf_even hCash, List.map_flatMap, shareOf_flatMap]
  congr 1
  refine List.map_congr_left (fun leg hLeg => ?_)
  have hWeight : (leg.weight.map (· / ((leg.assets r).length : ℚ))).getD 0 =
      1 / (leg.assets r).length * leg.factor .fixed := by
    unfold AllocationLeg.factor
    cases leg.weight with
    | none => simp
    | some weight =>
        simp only [Option.map_some, Option.getD_some, if_true]
        ring
  rw [AllocationLeg.entries, List.map_map]
  change shareOf asset ((leg.assets r).map (·, (leg.weight.map _).getD 0)) = _
  rw [hWeight, shareOf_entries]

/-- One leg takes everything, or everything is cash. -/
def AllocationStatement.undivided (r : Runtime) (a : AllocationStatement) : Prop :=
  (a.resolvedLegs r).length = 1 ∨ ∀ leg ∈ a.resolvedLegs r, leg.target.kind = .cash

theorem mem_resolvedLegs {leg : AllocationLeg} :
    leg ∈ a.resolvedLegs r ↔ leg ∈ a.legs ∧ leg.assets r ≠ [] := by
  simp [AllocationStatement.resolvedLegs]

/-- Equal shares of one leg, or of cash, are those of the generated code. -/
theorem shareOf_undivided {asset : String} (hCash : asset ≠ "CASH") (h : a.undivided r) :
    shareOf asset (a.legs.flatMap (AllocationLeg.even .equal r)) =
      shareOf asset ((a.legs.flatMap (AllocationLeg.entries r)).map (fun entry =>
        (entry.1, 1 / ((a.legs.flatMap (AllocationLeg.entries r)).length : ℚ)))) := by
  rw [shareOf_even_equal hCash, shareOf_equal]
  rcases h with hSingle | hAll
  · obtain ⟨leg, hLeg⟩ := List.length_eq_one_iff.mp hSingle
    simp [hLeg, assetCount]
  · congr 1
    refine List.map_congr_left (fun leg hLeg => ?_)
    simp [AllocationLeg.assets, hAll leg hLeg, Ne.symm hCash]

theorem length_le_assetCount {legs : List AllocationLeg} {leg : AllocationLeg} (h : leg ∈ legs) :
    (leg.assets r).length ≤ assetCount r legs :=
  List.single_le_sum (fun _ _ => Nat.zero_le _) _ (List.mem_map.mpr ⟨leg, h, rfl⟩)

/-- A second resolved leg makes every leg smaller than the whole. -/
theorem length_lt_assetCount {leg : AllocationLeg} (h : leg ∈ a.resolvedLegs r)
    (hOthers : (a.resolvedLegs r).length ≠ 1) :
    (leg.assets r).length < assetCount r (a.resolvedLegs r) := by
  have hPositive {other : AllocationLeg} (hOther : other ∈ a.resolvedLegs r) :
      0 < (other.assets r).length := List.length_pos_iff.mpr (mem_resolvedLegs.mp hOther).2
  obtain ⟨before, after, hSplit⟩ := List.append_of_mem h
  have hCount : assetCount r (a.resolvedLegs r) =
      assetCount r before + ((leg.assets r).length + assetCount r after) := by
    simp [hSplit, assetCount]
  have hOther : ∃ other ∈ before ++ after, other ∈ a.resolvedLegs r := by
    have hLength : before ++ after ≠ [] := by
      intro hNil
      obtain ⟨rfl, rfl⟩ := List.append_eq_nil_iff.mp hNil
      exact hOthers (by simp [hSplit])
    obtain ⟨other, hOther⟩ := List.exists_mem_of_ne_nil _ hLength
    refine ⟨other, hOther, ?_⟩
    rw [hSplit]
    rcases List.mem_append.mp hOther with hBefore | hAfter
    · exact List.mem_append_left _ hBefore
    · exact List.mem_append_right _ (List.mem_cons_of_mem _ hAfter)
  obtain ⟨other, hIn, hResolved⟩ := hOther
  have hSize := hPositive hResolved
  rcases List.mem_append.mp hIn with hBefore | hAfter
  · have := length_le_assetCount (r := r) hBefore
    omega
  · have := length_le_assetCount (r := r) hAfter
    omega

/-- Equal shares that the generated code matches off cash leave nothing to divide. -/
theorem undivided_of_shares (hNamed : ∀ leg ∈ a.legs, "CASH" ∉ leg.held r)
    (h : ∀ asset, asset ≠ "CASH" → shareOf asset (a.legs.flatMap (AllocationLeg.even .equal r)) =
      shareOf asset ((a.legs.flatMap (AllocationLeg.entries r)).map (fun entry =>
        (entry.1, 1 / ((a.legs.flatMap (AllocationLeg.entries r)).length : ℚ))))) :
    a.undivided r := by
  by_contra hDivided
  obtain ⟨hOthers, hAll⟩ := not_or.mp hDivided
  obtain ⟨leg, hMem, hKind⟩ : ∃ leg ∈ a.resolvedLegs r, leg.target.kind ≠ .cash := by
    simpa using hAll
  obtain ⟨hLeg, hSome⟩ := mem_resolvedLegs.mp hMem
  obtain ⟨asset, hAsset⟩ := List.exists_mem_of_ne_nil _ hSome
  have hCash : asset ≠ "CASH" := by
    intro hSame
    subst hSame
    exact hNamed leg hLeg (by rwa [AllocationLeg.held, if_neg hKind])
  have hShare := h asset hCash
  rw [shareOf_even_equal hCash, shareOf_equal] at hShare
  refine absurd hShare.symm (List.sum_lt_sum _ _ (fun other hOther => ?_) ⟨leg, hMem, ?_⟩).ne
  · have hLength : (0 : ℚ) < (other.assets r).length :=
      Nat.cast_pos.mpr (List.length_pos_iff.mpr (mem_resolvedLegs.mp hOther).2)
    exact mul_le_mul_of_nonneg_left (one_div_le_one_div_of_le hLength
      (Nat.cast_le.mpr (length_le_assetCount hOther))) (Nat.cast_nonneg _)
  · have hLength : (0 : ℚ) < (leg.assets r).length :=
      Nat.cast_pos.mpr (List.length_pos_iff.mpr hSome)
    exact mul_lt_mul_of_pos_left (one_div_lt_one_div_of_lt hLength
      (Nat.cast_lt.mpr (length_lt_assetCount hMem hOthers)))
      (Nat.cast_pos.mpr (List.count_pos_iff.mpr hAsset))

end Even

section Proportional

variable {sqrt : ℚ → ℚ} {numbers : GeneratedNumbers} {plan : LeanPlan} {g : GeneratedState}
  {r : Runtime} {output : String} {s : LeanMomentumSelection}

/-- Raw weight of a member. A replacement without a score counts one. -/
def rawScore (selected : List String) (scores : Dict String ℚ) (asset : String) : ℚ :=
  if selected ≠ [] ∧ selected.all (fun member => !scores.contains member) then 1
  else max 0 (scores.getD asset 0)

theorem entries_proportionalRaw {selected : List String} (scores : Dict String ℚ)
    (h : selected.Nodup) :
    (proportionalRaw selected scores).entries =
      selected.map (fun asset => (asset, rawScore selected scores asset)) := by
  have hKeys (score : String → ℚ) :
      ((selected.map (fun asset => (asset, score asset))).map Prod.fst).Nodup := by
    simpa [Function.comp_def] using h
  unfold proportionalRaw rawScore
  split_ifs with hUnscored
  · exact Dict.entries_ofList (hKeys (fun _ => 1))
  · exact Dict.entries_ofList (hKeys (fun asset => max 0 (scores.getD asset 0)))

theorem keys_proportionalRaw {selected : List String} (scores : Dict String ℚ)
    (h : selected.Nodup) : (proportionalRaw selected scores).keys = selected := by
  rw [Dict.keys, entries_proportionalRaw scores h, List.map_map]
  exact List.map_id _

theorem values_proportionalRaw {selected : List String} (scores : Dict String ℚ)
    (h : selected.Nodup) :
    (proportionalRaw selected scores).values = selected.map (rawScore selected scores) := by
  rw [Dict.values, entries_proportionalRaw scores h, List.map_map]
  rfl

theorem getD_proportionalRaw {selected : List String} (scores : Dict String ℚ)
    (h : selected.Nodup) {asset : String} (hAsset : asset ∈ selected) :
    (proportionalRaw selected scores).getD asset 0 = rawScore selected scores asset := by
  have hEntry : (asset, rawScore selected scores asset) ∈ (proportionalRaw selected scores).entries := by
    rw [entries_proportionalRaw scores h]
    exact List.mem_map.mpr ⟨asset, hAsset, rfl⟩
  rw [Dict.getD, Dict.get?_of_mem hEntry]
  rfl

/-- Shares that add up to the whole. -/
theorem sum_rawShare {raw : Dict String ℚ} (h : 0 < raw.values.sum) :
    (raw.keys.map (rawShare raw)).sum = 1 := by
  have hSum := List.sum_map_mul_right raw.keys (fun asset => raw.getD asset 0) (raw.values.sum)⁻¹
  change (raw.keys.map (fun asset => raw.getD asset 0 / raw.values.sum)).sum = 1
  simp only [div_eq_mul_inv]
  rw [hSum, ← Dict.values_eq_map, mul_inv_cancel₀ h.ne']

/-- The generated share of a chosen member is its share by raw weight. -/
theorem localWeight_share (hExact : numbers.Exact sqrt)
    (hAgrees : OutcomeAgrees numbers plan g r output s)
    (hPositive : 0 < (proportionalRaw (r.selected output) (r.scores output)).values.sum)
    {asset : String} (hAsset : asset ∈ r.selected output) :
    localWeight numbers true (s.complete (g.market numbers)) (s.scores (g.market numbers))
      (r.selected output) asset =
      rawShare (proportionalRaw (r.selected output) (r.scores output)) asset := by
  have hSome : (r.selected output).isEmpty = false :=
    List.isEmpty_eq_false_iff.mpr (List.ne_nil_of_mem hAsset)
  have hDistinct := hAgrees.distinct
  rw [values_proportionalRaw _ hDistinct] at hPositive
  rw [rawShare, getD_proportionalRaw _ hDistinct hAsset, values_proportionalRaw _ hDistinct]
  unfold localWeight
  rw [hExact.context]
  cases hComplete : s.complete (g.market numbers) with
  | true =>
      have hScored := hAgrees.scored hComplete
      have hScore {member : String} (hMember : member ∈ r.selected output) :
          max 0 ((s.scores (g.market numbers)).getD member 0) =
            rawScore (r.selected output) (r.scores output) member := by
        obtain ⟨score, hLeft, hRight⟩ := hScored member hMember
        have hNotAll : ¬(r.selected output ≠ [] ∧
            (r.selected output).all (fun item => !(r.scores output).contains item) = true) := by
          rintro ⟨-, hNone⟩
          have hMissing := List.all_eq_true.mp hNone member hMember
          simp [Dict.contains, hLeft] at hMissing
        rw [rawScore, if_neg hNotAll, Dict.getD, Dict.getD, hLeft, hRight]
      have hKept : (r.selected output).filter (s.scores (g.market numbers)).contains =
          r.selected output := by
        refine List.filter_eq_self.mpr (fun member hMember => ?_)
        obtain ⟨score, -, hRight⟩ := hScored member hMember
        simp [Dict.contains, hRight]
      have hTotal : (((r.selected output).filter (s.scores (g.market numbers)).contains).map
          (fun member => max 0 ((s.scores (g.market numbers)).getD member 0))).sum =
          ((r.selected output).map (rawScore (r.selected output) (r.scores output))).sum := by
        rw [hKept]
        exact congrArg List.sum (List.map_congr_left (fun member hMember => hScore hMember))
      simp only [DecimalContext.exact_sum, DecimalContext.exact_quot, hTotal, hPositive,
        Bool.true_and, decide_true, if_true]
      rw [hScore hAsset]
  | false =>
      have hOne : r.selected output = [asset] := by
        have hLength := hAgrees.replaced hComplete
        obtain ⟨first, rest, hCons⟩ := List.exists_cons_of_ne_nil (List.ne_nil_of_mem hAsset)
        rw [hCons] at hLength hAsset ⊢
        have hRest : rest = [] := List.length_eq_zero_iff.mp (by simpa using hLength)
        subst hRest
        rw [List.mem_singleton.mp hAsset]
      rw [hOne] at hPositive ⊢
      simp only [List.map_cons, List.map_nil, List.sum_cons, List.sum_nil, add_zero] at hPositive ⊢
      simp [div_self hPositive.ne']

/-- A proportional portfolio holds the members by raw weight. -/
theorem composablePolicy_proportional (hExact : numbers.Exact sqrt)
    (hAgrees : OutcomeAgrees numbers plan g r output s) {id : String}
    (hFind : plan.momentumSelections.find? (fun selection => selection.id = id) = some s)
    (hPositive : 0 < (proportionalRaw (r.selected output) (r.scores output)).values.sum)
    {lowered : LeanTemporalAllocationLeg} (hTarget : lowered.target = .selection id) :
    composablePolicy numbers plan g .proportionalScore [lowered] =
      addWeights (.exact sqrt) ((r.selected output).map (fun asset =>
        (asset, rawShare (proportionalRaw (r.selected output) (r.scores output)) asset))) := by
  unfold addWeights
  simp only [composablePolicy, List.foldl_cons, List.foldl_nil, policyLeg, hTarget, hFind,
    selectionLeg, hAgrees.selected, reduceCtorEq, if_false, decide_true, hExact.literal]
  rw [List.foldl_map]
  refine List.foldl_ext _ _ _ (fun weights asset hAsset => ?_)
  have hShare := localWeight_share hExact hAgrees hPositive hAsset
  unfold LeanMomentumSelection.complete at hShare
  rw [contribute_eq hExact, hShare, hExact.context, DecimalContext.exact_mul, mul_one]
  rfl

/-- Weights by raw weight, looked up. -/
theorem getD_rawShares (h : (r.selected output).Nodup) (asset : String) :
    (addWeights (.exact sqrt) ((r.selected output).map (fun member =>
      (member, rawShare (proportionalRaw (r.selected output) (r.scores output)) member)))).getD
        asset 0 = rawShare (proportionalRaw (r.selected output) (r.scores output)) asset := by
  rw [getD_addWeights, shareOf_map]
  by_cases hAsset : asset ∈ r.selected output
  · rw [List.count_eq_one_of_mem h hAsset, Nat.cast_one, one_mul]
  · have hMissing : (proportionalRaw (r.selected output) (r.scores output)).getD asset 0 = 0 := by
      rw [Dict.getD, Dict.get?_eq_none_iff.mpr (by rwa [keys_proportionalRaw _ h])]
      rfl
    rw [List.count_eq_zero.mpr hAsset, Nat.cast_zero, zero_mul, rawShare, hMissing, zero_div]

end Proportional

section Allocations

variable {sqrt : ℚ → ℚ} {numbers : GeneratedNumbers} {plan : LeanPlan} {g : GeneratedState}
  {d : Decision} {r : Runtime} {outputs : SelectionOutputs} {a : AllocationStatement}

/-- Off cash, two assignments of weights are the same. -/
def SameHoldings (weights reference : Dict String ℚ) : Prop :=
  ∀ asset, asset ≠ "CASH" → weights.getD asset 0 = reference.getD asset 0

/-- The bounds of an allocation leave the shares of its members alone. -/
def AllocationStatement.within (r : Runtime) (a : AllocationStatement) : Prop :=
  ∀ asset ∈ r.selected a.scoreOutput,
    boundOr a.minimumWeight 0 ≤
        rawShare (proportionalRaw (r.selected a.scoreOutput) (r.scores a.scoreOutput)) asset ∧
      rawShare (proportionalRaw (r.selected a.scoreOutput) (r.scores a.scoreOutput)) asset ≤
        boundOr a.maximumWeight 1

/-- What an allocation must be for the generated code to follow it. -/
structure AllocationStatement.Faithful (r : Runtime) (a : AllocationStatement) : Prop where
  resolved : a.resolvedLegs r ≠ []
  equal : a.method = .equal → a.undivided r
  bounded : a.method = .proportionalScore → a.within r

/-- Inputs on which a difference may not show: an asset named as cash, and
bounds whose remainder returns to a member. -/
def AllocationStatement.hides (r : Runtime) (a : AllocationStatement) : Prop :=
  (∃ leg ∈ a.legs, "CASH" ∈ leg.held r) ∨
    (a.method = .proportionalScore ∧ ∃ asset ∈ r.selected a.scoreOutput,
      a.cashRemainderAsset = some asset ∨
        grazes (boundOr a.minimumWeight 0) (boundOr a.maximumWeight 1)
          (rawShare (proportionalRaw (r.selected a.scoreOutput) (r.scores a.scoreOutput)) asset))

theorem sum_even (method : AllocationMethod) (leg : AllocationLeg) :
    ((leg.even method r).map Prod.snd).sum =
      if leg.held r = [] then 0 else leg.factor method := by
  unfold AllocationLeg.even
  rw [List.map_map]
  change ((leg.held r).map (fun _ => 1 / ((leg.held r).length : ℚ) * leg.factor method)).sum = _
  rw [List.map_const', List.sum_replicate, nsmul_eq_mul]
  split_ifs with hNone
  · simp [hNone]
  · have hLength : ((leg.held r).length : ℚ) ≠ 0 :=
      Nat.cast_ne_zero.mpr (fun hZero => hNone (List.length_eq_zero_iff.mp hZero))
    rw [← mul_assoc, mul_one_div_cancel hLength, one_mul]

/-- Weight of an evenly split portfolio. -/
theorem total_even (method : AllocationMethod) (legs : List AllocationLeg) :
    (addWeights (.exact sqrt) (legs.flatMap (AllocationLeg.even method r))).values.sum =
      (legs.map (fun leg => if leg.held r = [] then 0 else leg.factor method)).sum := by
  refine (addWeights_total _).trans ?_
  induction legs with
  | nil => rfl
  | cons leg rest ih =>
      rw [List.flatMap_cons, List.map_append, List.sum_append, ih, sum_even, List.map_cons,
        List.sum_cons]

theorem held_of_unresolved {leg : AllocationLeg} (h : leg.assets r = []) : leg.held r = [] := by
  unfold AllocationLeg.held
  split_ifs
  · rfl
  · exact h

theorem total_fixed (h : a.method = .fixed) :
    (addWeights (.exact sqrt) (a.legs.flatMap (AllocationLeg.even .fixed r))).values.sum ≤ 1 := by
  rw [total_even, ← (a.fixed_weights h).2]
  refine List.sum_le_sum (fun leg hLeg => ?_)
  split_ifs
  · exact legWeight_nonneg a.weights_range hLeg
  · exact le_rfl

theorem total_undivided (h : a.undivided r) :
    (addWeights (.exact sqrt) (a.legs.flatMap (AllocationLeg.even .equal r))).values.sum ≤ 1 := by
  rw [total_even, sum_resolvedLegs (r := r) (fun leg hNone => if_pos (held_of_unresolved hNone))]
  rcases h with hSingle | hAll
  · obtain ⟨leg, hLeg⟩ := List.length_eq_one_iff.mp hSingle
    rw [hLeg, List.map_cons, List.map_nil, List.sum_cons, List.sum_nil, add_zero]
    split_ifs
    · exact zero_le_one
    · exact le_of_eq rfl
  · refine (List.sum_eq_zero (fun weight hWeight => ?_)).trans_le zero_le_one
    obtain ⟨leg, hLeg, rfl⟩ := List.mem_map.mp hWeight
    simp [AllocationLeg.held, hAll leg hLeg]

/-- Legs that the composable lowering accepts and the reference expands. -/
theorem plain_legs {lowered : List LeanTemporalAllocationLeg}
    {expanded : List (String × Option ℚ)}
    (hLowered : a.legs.mapM (temporalLeg outputs) = .ok lowered)
    (hExpand : expandLegs d r a.legs = .ok (some expanded)) : ∀ leg ∈ a.legs, leg.plain := by
  intro leg hLeg
  obtain ⟨lowered, -, hLegOf⟩ := Sequence.exists_right (Sequence.forall₂_of_mapM hLowered) hLeg
  refine ⟨fun hRetain => ?_, (temporalLeg_ok hLegOf).2.1⟩
  rw [expandLegs_retain ⟨leg, hLeg, hRetain⟩] at hExpand
  cases hExpand

theorem LoweredAllocation.groupless {target : LeanTemporalTarget}
    (h : LoweredAllocation outputs a target) :
    ∀ leg ∈ a.legs, ∀ ref, leg.target.kind ≠ .group ref := by
  intro leg hLeg ref hGroup
  cases h with
  | asset sole _ _ legs _ kind | cash sole _ legs _ kind =>
      rw [legs] at hLeg
      rw [List.mem_singleton.mp hLeg, kind] at hGroup
      cases hGroup
  | portfolio lowered _ hLowered =>
      obtain ⟨target, -, hTarget⟩ :=
        Sequence.exists_right (Sequence.forall₂_of_mapM hLowered) hLeg
      exact (temporalLeg_ok hTarget).2.1 ref hGroup

/-- Legs of which one stands for an asset expand to something. -/
theorem expandLegs_resolved (hContext : d.environment.context = .exact sqrt)
    (hGroupless : ∀ leg ∈ a.legs, ∀ ref, leg.target.kind ≠ .group ref)
    (hResolved : a.resolvedLegs r ≠ []) :
    ∃ expanded, expanded ≠ [] ∧ expandLegs d r a.legs = .ok (some expanded) := by
  refine ⟨_, flatMap_entries_ne_nil.mpr hResolved, expandLegs_plain hContext (fun leg hLeg => ?_)⟩
  refine ⟨fun hRetain => ?_, hGroupless leg hLeg⟩
  obtain ⟨sole, hSole⟩ := List.length_eq_one_iff.mp (a.retain_sole ⟨leg, hLeg, hRetain⟩).1
  rw [hSole] at hLeg
  rw [List.mem_singleton.mp hLeg] at hRetain
  exact hResolved (by simp [AllocationStatement.resolvedLegs, hSole, AllocationLeg.assets, hRetain])

/-- A score-derived allocation has one leg, and it reads a Selection output. -/
theorem score_leg (h : a.method = .proportionalScore) :
    ∃ leg, a.legs = [leg] ∧ leg.target.kind = .selection a.scoreOutput := by
  have hTarget := a.score_target (by rw [h]; rfl)
  unfold isSelectionLeg at hTarget
  split at hTarget
  · rename_i leg hLegs
    refine ⟨leg, hLegs, ?_⟩
    cases hKind : leg.target.kind with
    | selection ref => simp [AllocationStatement.scoreOutput, hLegs, hKind, AllocationTargetKind.ref]
    | asset ref | group ref | cash | retain => simp [hKind] at hTarget
  · cases hTarget

theorem equal_agrees (hExact : numbers.Exact sqrt) (hContext : d.environment.context = .exact sqrt)
    (hOutcomes : OutcomesAgree numbers plan g r outputs) (hEqual : a.method = .equal)
    {lowered : List LeanTemporalAllocationLeg}
    (hLowered : a.legs.mapM (temporalLeg outputs) = .ok lowered)
    {expanded : List (String × Option ℚ)} {reference : Dict String ℚ}
    (hExpand : expandLegs d r a.legs = .ok (some expanded)) (hSome : expanded ≠ [])
    (hMethod : methodWeights d r a expanded = .ok reference) :
    (a.Faithful r → SameHoldings (composablePolicy numbers plan g a.method lowered) reference ∧
      (composablePolicy numbers plan g a.method lowered).values.sum ≤ 1) ∧
    (SameHoldings (composablePolicy numbers plan g a.method lowered) reference →
      a.Faithful r ∨ a.hides r) := by
  rw [expandLegs_plain hContext (plain_legs hLowered hExpand), Except.ok.injEq,
    Option.some.injEq] at hExpand
  subst hExpand
  simp only [methodWeights, hEqual, hContext, Except.ok.injEq, DecimalContext.exact_quot] at hMethod
  subst hMethod
  rw [hEqual, composablePolicy_even hExact hOutcomes (by decide) hLowered]
  unfold SameHoldings
  simp only [getD_addWeights]
  constructor
  · intro hFaithful
    have hUndivided := hFaithful.equal hEqual
    exact ⟨fun asset hCash => shareOf_undivided hCash hUndivided, total_undivided hUndivided⟩
  · intro hSame
    by_cases hNamed : ∃ leg ∈ a.legs, "CASH" ∈ leg.held r
    · exact Or.inr (Or.inl hNamed)
    · refine Or.inl ⟨flatMap_entries_ne_nil.mp hSome, fun _ => ?_, fun hScore => ?_⟩
      · exact undivided_of_shares (fun leg hLeg hCash => hNamed ⟨leg, hLeg, hCash⟩) hSame
      · rw [hEqual] at hScore
        cases hScore

theorem fixed_agrees (hExact : numbers.Exact sqrt) (hContext : d.environment.context = .exact sqrt)
    (hOutcomes : OutcomesAgree numbers plan g r outputs) (hFixed : a.method = .fixed)
    {lowered : List LeanTemporalAllocationLeg}
    (hLowered : a.legs.mapM (temporalLeg outputs) = .ok lowered)
    {expanded : List (String × Option ℚ)} {reference : Dict String ℚ}
    (hExpand : expandLegs d r a.legs = .ok (some expanded)) (hSome : expanded ≠ [])
    (hMethod : methodWeights d r a expanded = .ok reference) :
    a.Faithful r ∧ SameHoldings (composablePolicy numbers plan g a.method lowered) reference ∧
      (composablePolicy numbers plan g a.method lowered).values.sum ≤ 1 := by
  rw [expandLegs_plain hContext (plain_legs hLowered hExpand), Except.ok.injEq,
    Option.some.injEq] at hExpand
  subst hExpand
  simp only [methodWeights, hFixed, hContext, Except.ok.injEq] at hMethod
  subst hMethod
  rw [hFixed, composablePolicy_even hExact hOutcomes (by decide) hLowered]
  refine ⟨⟨flatMap_entries_ne_nil.mp hSome, fun hEqual => ?_, fun hScore => ?_⟩,
    fun asset hCash => ?_, total_fixed hFixed⟩
  · rw [hFixed] at hEqual
    cases hEqual
  · rw [hFixed] at hScore
    cases hScore
  · rw [getD_addWeights, getD_addWeights, shareOf_fixed hCash]

theorem proportional_agrees (hExact : numbers.Exact sqrt)
    (hContext : d.environment.context = .exact sqrt)
    (hOutcomes : OutcomesAgree numbers plan g r outputs) (hScore : a.method = .proportionalScore)
    {lowered : List LeanTemporalAllocationLeg}
    (hLowered : a.legs.mapM (temporalLeg outputs) = .ok lowered)
    {expanded : List (String × Option ℚ)} {reference : Dict String ℚ}
    (hMethod : methodWeights d r a expanded = .ok reference) :
    (a.Faithful r → SameHoldings (composablePolicy numbers plan g a.method lowered) reference ∧
      (composablePolicy numbers plan g a.method lowered).values.sum ≤ 1) ∧
    (SameHoldings (composablePolicy numbers plan g a.method lowered) reference →
      a.Faithful r ∨ a.hides r) := by
  obtain ⟨leg, hLegs, hKind⟩ := score_leg hScore
  obtain ⟨id, target, hId, hTarget, rfl⟩ : ∃ id target, outputs.get? a.scoreOutput = some id ∧
      target.target = .selection id ∧ lowered = [target] := by
    have hRelated := Sequence.forall₂_of_mapM hLowered
    rw [hLegs] at hRelated
    cases hRelated with
    | @cons _ target _ _ hLeg hRest =>
        cases hRest
        have hOk := (temporalLeg_ok hLeg).2.2
        simp only [hKind] at hOk
        obtain ⟨id, hId, hTarget⟩ := hOk
        exact ⟨id, target, hId, hTarget, rfl⟩
  obtain ⟨s, hFind, hAgrees⟩ := hOutcomes _ _ hId
  simp only [methodWeights, hScore, hContext] at hMethod
  obtain ⟨p, hRaw, hFloor, hCap, hAnchor, hClosed⟩ := boundedNormalize_apportioned
    (proportionalRaw_nonneg _ _) a.bounds_range a.bounds_ordered hMethod
  have hPositive : 0 < p.raw.values.sum := by
    rw [Dict.values_eq_map p.raw 0]
    exact Normalization.freeTotal_pos (n := p.start) p.anchor_mem
  have hKeys : p.raw.keys = r.selected a.scoreOutput := by
    rw [hRaw, keys_proportionalRaw _ hAgrees.distinct]
  rw [hRaw] at hPositive
  rw [hScore, composablePolicy_proportional hExact hAgrees hFind hPositive hTarget]
  unfold SameHoldings
  simp only [getD_rawShares hAgrees.distinct]
  constructor
  · intro hFaithful
    have hWithin := hFaithful.bounded hScore
    constructor
    · intro asset _
      rw [closeRemainder_within (fun member hMember => ?_) hAnchor hClosed asset, hRaw]
      rw [hFloor, hCap, hRaw]
      exact hWithin member (hKeys ▸ hMember)
    · refine ((addWeights_total _).trans ?_).le
      rw [List.map_map]
      have hSum := sum_rawShare hPositive
      rwa [keys_proportionalRaw _ hAgrees.distinct] at hSum
  · intro hSame
    by_cases hHides : a.hides r
    · exact Or.inr hHides
    obtain ⟨hNamed, hBounds⟩ := not_or.mp hHides
    have hHeld : leg.held r = r.selected a.scoreOutput := by
      simp [AllocationLeg.held, AllocationLeg.assets, hKind]
    have hNonempty : r.selected a.scoreOutput ≠ [] := by
      rw [← hKeys]
      exact List.ne_nil_of_mem p.anchor_mem
    refine Or.inl ⟨?_, fun hEqual => ?_, fun _ asset hAsset => ?_⟩
    · refine List.ne_nil_of_mem (a := leg) (mem_resolvedLegs.mpr ⟨by simp [hLegs], ?_⟩)
      simpa [AllocationLeg.assets, hKind] using hNonempty
    · rw [hScore] at hEqual
      cases hEqual
    · have hFree : ∀ member ∈ r.selected a.scoreOutput, a.cashRemainderAsset ≠ some member :=
        fun member hMember hCash => hBounds ⟨hScore, member, hMember, Or.inl hCash⟩
      have hGraze : ¬grazes p.floor p.cap (rawShare p.raw asset) := by
        rw [hFloor, hCap, hRaw]
        exact fun hGrazes => hBounds ⟨hScore, asset, hAsset, Or.inr hGrazes⟩
      have hNotCash : asset ≠ "CASH" := by
        intro hCash
        subst hCash
        exact hNamed ⟨leg, by simp [hLegs], by rwa [hHeld]⟩
      have hShares := closeRemainder_shares
        (Normalization.settle_settled p.raw.keys.length (start_balanced p)) hAnchor hClosed
        (fun member hMember => hFree member (hKeys ▸ hMember)) (hKeys ▸ hAsset) hGraze
        (by rw [← hSame asset hNotCash, hRaw])
      rwa [hFloor, hCap, hRaw] at hShares

/-- The weights of a lowered allocation against those of its source. -/
theorem lowered_agrees (hExact : numbers.Exact sqrt) (hContext : d.environment.context = .exact sqrt)
    (hOutcomes : OutcomesAgree numbers plan g r outputs) {target : LeanTemporalTarget}
    (hLowered : LoweredAllocation outputs a target) {weights : Dict String ℚ}
    (hWeights : policyWeights numbers plan g target = some weights)
    {expanded : List (String × Option ℚ)} {reference : Dict String ℚ}
    (hExpand : expandLegs d r a.legs = .ok (some expanded)) (hSome : expanded ≠ [])
    (hMethod : methodWeights d r a expanded = .ok reference) :
    (a.Faithful r → SameHoldings weights reference ∧ weights.values.sum ≤ 1) ∧
    (SameHoldings weights reference → a.Faithful r ∨ a.hides r) := by
  -- a fixed target is a fixed allocation of one leg
  have hSole {leg : AllocationLeg} {asset : String} (hFixed : a.method = .fixed)
      (hLegs : a.legs = [leg]) (hWhole : leg.weight = some 1) (hPlain : leg.plain)
      (hAssets : leg.assets r = [asset]) :
      a.Faithful r ∧ reference = addWeights (.exact sqrt) [(asset, 1)] := by
    rw [expandLegs_plain hContext (by simpa [hLegs] using hPlain), Except.ok.injEq,
      Option.some.injEq] at hExpand
    subst hExpand
    simp only [methodWeights, hFixed, hContext, Except.ok.injEq] at hMethod
    subst hMethod
    constructor
    · exact ⟨flatMap_entries_ne_nil.mp hSome, by simp [hFixed], by simp [hFixed]⟩
    · simp [hLegs, AllocationLeg.entries, hAssets, hWhole]
  cases hLowered with
  | asset leg ref method legs weight kind =>
      cases hWeights
      have hAssets : leg.assets r = [ref] := by simp [AllocationLeg.assets, kind]
      obtain ⟨hFaithful, rfl⟩ :=
        hSole method legs weight (by simp [AllocationLeg.plain, kind]) hAssets
      refine ⟨fun _ => ⟨fun asset _ => ?_, ?_⟩, fun _ => Or.inl hFaithful⟩
      · rw [getD_addWeights, Dict.getD_set]
        by_cases h : asset = ref
        · simp [h, shareOf_cons]
        · simp [h, Ne.symm h, shareOf_cons, Dict.getD]
      · exact ((Dict.total_set Dict.empty ref 1).trans (by simp [Dict.getD])).le
  | cash leg method legs weight kind =>
      cases hWeights
      have hAssets : leg.assets r = ["CASH"] := by simp [AllocationLeg.assets, kind]
      obtain ⟨hFaithful, rfl⟩ :=
        hSole method legs weight (by simp [AllocationLeg.plain, kind]) hAssets
      refine ⟨fun _ => ⟨fun asset hCash => ?_, zero_le_one⟩, fun _ => Or.inl hFaithful⟩
      rw [getD_addWeights]
      simp [shareOf_cons, Ne.symm hCash, Dict.getD]
  | portfolio lowered method hLegs =>
      cases hWeights
      cases hSort : a.method with
      | equal =>
          rw [← hSort]
          exact equal_agrees hExact hContext hOutcomes hSort hLegs hExpand hSome hMethod
      | fixed =>
          rw [← hSort]
          obtain ⟨hFaithful, hSame⟩ :=
            fixed_agrees hExact hContext hOutcomes hSort hLegs hExpand hSome hMethod
          exact ⟨fun _ => hSame, fun _ => Or.inl hFaithful⟩
      | proportionalScore =>
          rw [← hSort]
          exact proportional_agrees hExact hContext hOutcomes hSort hLegs hMethod
      | inverseVolatility => exact absurd hSort method

end Allocations

end RuleTrade
