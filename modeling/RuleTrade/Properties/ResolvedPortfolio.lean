import RuleTrade.Execution.PortfolioV0
import RuleTrade.Execution.Normalize
import Mathlib.Tactic.FieldSimp
import Mathlib.Algebra.BigOperators.Ring.List

/-! Which accepted documents of the first version resolve to a full portfolio. -/

namespace RuleTrade

open Library

namespace V0

section Accepted

variable {normalizeSymbol : String → String}

/-- What the checks guarantee of a group. -/
structure StrategyGroup.Accepted (group : StrategyGroup) : Prop where
  weight_nonneg : 0 ≤ group.weight
  nodup : group.symbols.Nodup
  nonempty : group.symbols ≠ []
  count : ∀ count resample, group.selection = .randomN count resample →
    0 < count ∧ count ≤ group.symbols.length
  fixed : ∀ weights, group.allocation = .fixedWeight weights →
    (weights.map FixedWeightItem.symbol).Nodup ∧
      (∀ symbol, symbol ∈ weights.map FixedWeightItem.symbol ↔ symbol ∈ group.symbols) ∧
      ∀ item ∈ weights, 0 ≤ item.weight

theorem exists_of_mem_mapM {α β ε : Type} {f : α → Except ε β} {xs : List α} {ys : List β} {y : β}
    (h : xs.mapM f = .ok ys) (hMem : y ∈ ys) : ∃ x ∈ xs, f x = .ok y := by
  obtain ⟨index, hIndex, rfl⟩ := List.getElem_of_mem hMem
  have hEach := Sequence.forall₂_of_mapM h
  exact ⟨_, List.getElem_mem (hEach.length_eq ▸ hIndex), hEach.get (hEach.length_eq ▸ hIndex) hIndex⟩

theorem mapM_of_alike {α β ε : Type} {f g : α → Except ε β} {xs : List α}
    (h : ∀ x ∈ xs, f x = g x) : xs.mapM f = xs.mapM g := by
  induction xs with
  | nil => rfl
  | cons x xs ih =>
      rw [List.mapM_cons, List.mapM_cons, h x List.mem_cons_self,
        ih (fun y hy => h y (List.mem_cons_of_mem x hy))]

theorem require_ok_iff {holds : Bool} {refusal : Refusal} {done : PUnit} :
    require holds refusal = .ok done ↔ holds = true := by
  cases holds <;> simp [require]

theorem sameSet_iff {left right : List String} :
    sameSet left right ↔ ∀ symbol, symbol ∈ left ↔ symbol ∈ right := by
  simp only [sameSet, Bool.and_eq_true, List.all_eq_true, decide_eq_true_eq]
  exact ⟨fun h symbol => ⟨h.1 symbol, h.2 symbol⟩,
    fun h => ⟨fun symbol => (h symbol).mp, fun symbol => (h symbol).mpr⟩⟩

theorem acceptItem_ok {raw item : FixedWeightItem}
    (h : acceptItem normalizeSymbol raw = .ok item) : 0 ≤ item.weight := by
  obtain ⟨⟨⟩, -, h⟩ := except_bind_ok.mp h
  obtain ⟨⟨⟩, hWeight, h⟩ := except_bind_ok.mp h
  cases h
  rw [require_ok_iff, isWeight, Bool.and_eq_true, decide_eq_true_eq] at hWeight
  exact hWeight.1

theorem acceptAllocation_ok {raw : AllocationSpec} {weights : List FixedWeightItem}
    (h : acceptAllocation normalizeSymbol raw = .ok (.fixedWeight weights)) :
    (weights.map FixedWeightItem.symbol).Nodup ∧ ∀ item ∈ weights, 0 ≤ item.weight := by
  cases raw with
  | equalWeight => cases h
  | fixedWeight items =>
      obtain ⟨⟨⟩, -, h⟩ := except_bind_ok.mp h
      obtain ⟨accepted, hItems, h⟩ := except_bind_ok.mp h
      obtain ⟨⟨⟩, hWeights, h⟩ := except_bind_ok.mp h
      cases h
      obtain ⟨⟨⟩, hUnique, -⟩ := except_bind_ok.mp hWeights
      refine ⟨by simpa [require_ok_iff] using hUnique, fun item hItem => ?_⟩
      obtain ⟨given, -, hAccepted⟩ := exists_of_mem_mapM hItems hItem
      exact acceptItem_ok hAccepted

theorem acceptSelection_ok {raw : SelectionSpec} {count : Int} {resample : Resample}
    (h : acceptSelection raw = .ok (.randomN count resample)) : 0 < count := by
  cases raw with
  | all => cases h
  | randomN asked mode =>
      obtain ⟨⟨⟩, hCount, h⟩ := except_bind_ok.mp h
      cases h
      simpa [require_ok_iff] using hCount

theorem acceptGroup_ok {raw group : StrategyGroup}
    (h : acceptGroup normalizeSymbol raw = .ok group) : group.Accepted := by
  obtain ⟨⟨⟩, -, h⟩ := except_bind_ok.mp h
  obtain ⟨⟨⟩, hWeight, h⟩ := except_bind_ok.mp h
  obtain ⟨symbols, hSymbols, h⟩ := except_bind_ok.mp h
  obtain ⟨selection, hSelection, h⟩ := except_bind_ok.mp h
  obtain ⟨allocation, hAllocation, h⟩ := except_bind_ok.mp h
  obtain ⟨⟨⟩, hGroup, h⟩ := except_bind_ok.mp h
  cases h
  obtain ⟨⟨⟩, hCount, hFixed⟩ := except_bind_ok.mp hGroup
  obtain ⟨⟨⟩, hSome, hSymbols⟩ := except_bind_ok.mp hSymbols
  obtain ⟨⟨⟩, -, hSymbols⟩ := except_bind_ok.mp hSymbols
  obtain ⟨⟨⟩, hUnique, hSymbols⟩ := except_bind_ok.mp hSymbols
  cases hSymbols
  rw [require_ok_iff] at hWeight hSome hUnique hCount hFixed
  refine ⟨?_, by simpa using hUnique, ?_, ?_, ?_⟩
  · rw [isWeight, Bool.and_eq_true, decide_eq_true_eq] at hWeight
    exact hWeight.1
  · intro hNone
    rw [List.map_eq_nil_iff.mp hNone] at hSome
    cases hSome
  · rintro count resample rfl
    exact ⟨acceptSelection_ok hSelection, by simpa [SelectionSpec.count?] using hCount⟩
  · rintro weights rfl
    obtain ⟨hNodup, hNonneg⟩ := acceptAllocation_ok hAllocation
    exact ⟨hNodup, sameSet_iff.mp (by simpa [AllocationSpec.symbols?] using hFixed), hNonneg⟩

theorem acceptStrategy_ok {raw strategy : StrategyDocument}
    (h : acceptStrategy normalizeSymbol raw = .ok strategy) :
    ∀ group ∈ strategy.groups, group.Accepted := by
  obtain ⟨⟨⟩, -, h⟩ := except_bind_ok.mp h
  obtain ⟨⟨⟩, -, h⟩ := except_bind_ok.mp h
  obtain ⟨groups, hGroups, h⟩ := except_bind_ok.mp h
  obtain ⟨⟨⟩, -, h⟩ := except_bind_ok.mp h
  cases h
  intro group hGroup
  obtain ⟨given, -, hAccepted⟩ := exists_of_mem_mapM hGroups hGroup
  exact acceptGroup_ok hAccepted

end Accepted

section Selected

variable {group : StrategyGroup} {selected : List String}

/-- The number of symbols that a group asks for. -/
def StrategyGroup.selectionSize (group : StrategyGroup) : Nat :=
  (group.selection.count?.map Int.toNat).getD group.symbols.length

/-- A part of the symbols of a group, of the size it asks for. -/
structure StrategyGroup.Selects (group : StrategyGroup) (selected : List String) : Prop where
  nodup : selected.Nodup
  subset : selected ⊆ group.symbols
  size : selected.length = group.selectionSize

theorem StrategyGroup.Accepted.selectionSize_pos (h : group.Accepted) :
    0 < group.selectionSize := by
  cases hSelection : group.selection with
  | all =>
      simpa [selectionSize, hSelection, SelectionSpec.count?] using
        List.length_pos_iff.mpr h.nonempty
  | randomN count resample =>
      have hCount := (h.count count resample hSelection).1
      simp only [selectionSize, hSelection, SelectionSpec.count?, Option.map_some, Option.getD_some]
      omega

/-- An accepted group selects. -/
theorem selectSymbols_ok (sampler : Sampler) (h : group.Accepted) (seed : Nat) :
    ∃ selected, selectSymbols sampler group.symbols seed group.selection = .ok selected ∧
      group.Selects selected := by
  cases hSelection : group.selection with
  | all =>
      refine ⟨group.symbols, rfl, h.nodup, fun _ hMem => hMem, ?_⟩
      simp [StrategyGroup.selectionSize, hSelection, SelectionSpec.count?]
  | randomN count resample =>
      obtain ⟨hPositive, hCount⟩ := h.count count resample hSelection
      have hSize : count.toNat ≤ group.symbols.length := by omega
      have hWithin : ¬ (count < 0 ∨ (group.symbols.length : Int) < count) := by omega
      have hPerm := Sequence.perm_sortBy id (sampler.sample seed group.symbols count.toNat)
      obtain ⟨taken, hTaken, hSublist⟩ :=
        sampler.subperm_sample seed group.symbols count.toNat hSize
      refine ⟨_, if_neg hWithin, ?_, ?_, ?_⟩
      · exact (hPerm.trans hTaken.symm).nodup_iff.mpr (h.nodup.sublist hSublist)
      · intro symbol hSymbol
        exact hSublist.subset (hTaken.mem_iff.mpr (hPerm.mem_iff.mp hSymbol))
      · rw [hPerm.length_eq, sampler.length_sample seed group.symbols count.toNat hSize]
        simp [StrategyGroup.selectionSize, hSelection, SelectionSpec.count?]

/-- All symbols are selected when as many are asked for. -/
theorem StrategyGroup.Selects.perm (h : group.Selects selected)
    (hAll : group.selectionSize = group.symbols.length) : selected.Perm group.symbols := by
  have hSubperm := List.subperm_of_subset h.nodup h.subset
  exact hSubperm.perm_of_length_le (by rw [h.size, hAll])

end Selected

section Allocated

variable {group : StrategyGroup} {selected : List String}

/-- Fixed weights need the whole universe selected. -/
def StrategyGroup.SelectsFixed (group : StrategyGroup) : Prop :=
  group.allocation ≠ .equalWeight → group.selectionSize = group.symbols.length

/-- What a group allocates before its own weight. -/
def StrategyGroup.localTotal (group : StrategyGroup) : ℚ :=
  match group.allocation with
  | .equalWeight => 1
  | .fixedWeight weights => (weights.map FixedWeightItem.weight).sum

theorem values_weightEach (hSelected : selected.Nodup) (weight : String → ℚ) :
    (weightEach selected weight).values = selected.map weight := by
  have hKeys : ((selected.map (fun symbol => (symbol, weight symbol))).map Prod.fst).Nodup := by
    rw [List.map_map]
    simpa [Function.comp_def] using hSelected
  rw [weightEach, Dict.values, Dict.entries_ofList hKeys, List.map_map]
  rfl

theorem keys_configuredWeights {weights : List FixedWeightItem}
    (h : (weights.map FixedWeightItem.symbol).Nodup) :
    (configuredWeights weights).keys = weights.map FixedWeightItem.symbol ∧
      (configuredWeights weights).values = weights.map FixedWeightItem.weight := by
  have hPairs : ((weights.map (fun item => (item.symbol, item.weight))).map Prod.fst).Nodup := by
    rw [List.map_map]
    exact h
  rw [configuredWeights, Dict.keys, Dict.values, Dict.entries_ofList hPairs, List.map_map,
    List.map_map]
  exact ⟨rfl, rfl⟩

theorem StrategyGroup.Selects.isEmpty_eq_false (h : group.Selects selected)
    (hGroup : group.Accepted) : selected.isEmpty = false := by
  have hPositive := hGroup.selectionSize_pos
  rw [← h.size] at hPositive
  simpa using List.length_pos_iff.mp hPositive

/-- Equal weights of a selection sum to one. -/
theorem equalWeight_ok (hGroup : group.Accepted) (h : group.Selects selected) :
    ∃ weights, allocateSelected selected .equalWeight = .ok weights ∧ weights.total = 1 ∧
      ∀ weight ∈ weights.values, 0 ≤ weight := by
  have hSome := h.isEmpty_eq_false hGroup
  have hLength : (selected.length : ℚ) ≠ 0 := by
    simpa [List.isEmpty_iff] using hSome
  refine ⟨weightEach selected (fun _ => 1 / (selected.length : ℚ)),
    by simp only [allocateSelected, hSome, Bool.false_eq_true, if_false], ?_, ?_⟩
  · rw [Dict.total, values_weightEach h.nodup, List.map_const', List.sum_replicate, nsmul_eq_mul]
    field_simp
  · rw [values_weightEach h.nodup]
    simp

/-- Fixed weights of a selection are taken exactly when all symbols are selected, and sum
to what they sum to. -/
theorem fixedWeight_ok {weights : List FixedWeightItem}
    (hFixed : group.allocation = .fixedWeight weights) (hGroup : group.Accepted)
    (h : group.Selects selected) (hAll : group.selectionSize = group.symbols.length) :
    ∃ allocated, allocateSelected selected (.fixedWeight weights) = .ok allocated ∧
      allocated.total = (weights.map FixedWeightItem.weight).sum ∧
      ∀ weight ∈ allocated.values, 0 ≤ weight := by
  obtain ⟨hUnique, hSymbols, hNonneg⟩ := hGroup.fixed weights hFixed
  obtain ⟨hKeys, hValues⟩ := keys_configuredWeights hUnique
  have hPerm : selected.Perm (weights.map FixedWeightItem.symbol) :=
    (h.perm hAll).trans ((List.perm_ext_iff_of_nodup hGroup.nodup hUnique).mpr
      (fun symbol => (hSymbols symbol).symm))
  have hSame : sameSet selected (configuredWeights weights).keys := by
    rw [hKeys]
    exact sameSet_iff.mpr (fun symbol => hPerm.mem_iff)
  have hSelected := hPerm.map (fun symbol => (configuredWeights weights).getD symbol 0)
  rw [← hKeys, ← Dict.values_eq_map, hValues] at hSelected
  refine ⟨weightEach selected (fun symbol => (configuredWeights weights).getD symbol 0),
    by simp only [allocateSelected, h.isEmpty_eq_false hGroup, Bool.false_eq_true, if_false,
      if_pos hSame], ?_, ?_⟩
  · rw [Dict.total, values_weightEach h.nodup, hSelected.sum_eq]
  · rw [values_weightEach h.nodup]
    intro weight hWeight
    obtain ⟨item, hItem, rfl⟩ := List.mem_map.mp (hSelected.mem_iff.mp hWeight)
    exact hNonneg item hItem

/-- Fixed weights are only given to a selection of all symbols. -/
theorem selectionSize_of_fixedWeight {weights : List FixedWeightItem} {allocated : Dict String ℚ}
    (hFixed : group.allocation = .fixedWeight weights) (hGroup : group.Accepted)
    (h : group.Selects selected)
    (hOk : allocateSelected selected (.fixedWeight weights) = .ok allocated) :
    group.selectionSize = group.symbols.length := by
  obtain ⟨hUnique, hSymbols, -⟩ := hGroup.fixed weights hFixed
  simp only [allocateSelected, h.isEmpty_eq_false hGroup, Bool.false_eq_true, if_false] at hOk
  by_cases hSame : sameSet selected (configuredWeights weights).keys
  · rw [(keys_configuredWeights hUnique).1, sameSet_iff] at hSame
    have hPerm := (List.perm_ext_iff_of_nodup h.nodup hGroup.nodup).mpr
      (fun symbol => (hSame symbol).trans (hSymbols symbol))
    rw [← h.size, hPerm.length_eq]
  · rw [if_neg hSame] at hOk
    cases hOk

theorem allocateSelected_iff (hGroup : group.Accepted) (h : group.Selects selected) :
    (∃ allocated, allocateSelected selected group.allocation = .ok allocated) ↔
      group.SelectsFixed := by
  cases hAllocation : group.allocation with
  | equalWeight =>
      obtain ⟨weights, hOk, -⟩ := equalWeight_ok hGroup h
      exact iff_of_true ⟨weights, hOk⟩ (fun hFixed => absurd hAllocation hFixed)
  | fixedWeight weights =>
      refine ⟨?_, fun hAll => ?_⟩
      · rintro ⟨allocated, hOk⟩ -
        exact selectionSize_of_fixedWeight hAllocation hGroup h hOk
      · obtain ⟨allocated, hOk, -⟩ :=
          fixedWeight_ok hAllocation hGroup h (hAll (by rw [hAllocation]; simp))
        exact ⟨allocated, hOk⟩

theorem allocateSelected_ok {allocated : Dict String ℚ} (hGroup : group.Accepted)
    (h : group.Selects selected)
    (hOk : allocateSelected selected group.allocation = .ok allocated) :
    allocated.total = group.localTotal ∧ ∀ weight ∈ allocated.values, 0 ≤ weight := by
  cases hAllocation : group.allocation with
  | equalWeight =>
      obtain ⟨weights, hWeights, hTotal, hNonneg⟩ := equalWeight_ok hGroup h
      rw [hAllocation, hWeights] at hOk
      cases hOk
      exact ⟨by simp [StrategyGroup.localTotal, hAllocation, hTotal], hNonneg⟩
  | fixedWeight weights =>
      rw [hAllocation] at hOk
      have hAll := selectionSize_of_fixedWeight hAllocation hGroup h hOk
      obtain ⟨fixed, hFixed, hTotal, hNonneg⟩ := fixedWeight_ok hAllocation hGroup h hAll
      obtain rfl := Except.ok.inj (hFixed.symm.trans hOk)
      exact ⟨by simp [StrategyGroup.localTotal, hAllocation, hTotal], hNonneg⟩

end Allocated

section Resolved

variable {sampler : Sampler} {digest : String → Nat} {strategy : StrategyDocument}
  {eventId : Option String} {group : StrategyGroup}

/-- What a group resolves to: a part of its symbols of the size it asks for, and its local
weights times its own. -/
structure GroupResolution.Full (group : StrategyGroup) (result : GroupResolution) : Prop where
  groupId : result.groupId = group.id
  selects : group.Selects result.selectedSymbols
  portfolio : result.portfolioWeights.total = group.weight * result.localWeights.total

/-- What a portfolio resolves to. -/
structure PortfolioResolution.Full (strategy : StrategyDocument)
    (resolution : PortfolioResolution) : Prop where
  groups : List.Forall₂ GroupResolution.Full strategy.groups resolution.groups
  nonneg : ∀ weight ∈ resolution.targetWeights.values, 0 ≤ weight
  total : |resolution.targetWeights.total - 1| ≤ weightTolerance

theorem total_mapValues_mul (weights : Dict String ℚ) (factor : ℚ) :
    (weights.mapValues (factor * ·)).total = factor * weights.total := by
  rw [Dict.total, Dict.values_mapValues, Dict.total]
  simpa using List.sum_map_mul_left weights.values id factor

/-- A group resolves exactly when its fixed weights have the whole universe selected. -/
theorem resolveGroup_iff (hGroup : group.Accepted) :
    (∃ result, resolveGroup sampler digest strategy eventId group = .ok result) ↔
      group.SelectsFixed := by
  obtain ⟨selected, hSelected, hSelects⟩ := selectSymbols_ok sampler hGroup
    (groupSeed digest strategy.randomSeed group.id
      (if group.selection.resamples then eventId else none))
  rw [← allocateSelected_iff hGroup hSelects]
  constructor
  · rintro ⟨result, hResult⟩
    obtain ⟨found, hFound, hResult⟩ := except_bind_ok.mp hResult
    obtain ⟨allocated, hAllocated, -⟩ := except_bind_ok.mp hResult
    obtain rfl := Except.ok.inj (hSelected.symm.trans hFound)
    exact ⟨allocated, hAllocated⟩
  · rintro ⟨allocated, hAllocated⟩
    exact ⟨_, except_bind_ok.mpr ⟨selected, hSelected,
      except_bind_ok.mpr ⟨allocated, hAllocated, rfl⟩⟩⟩

theorem resolveGroup_full {result : GroupResolution} (hGroup : group.Accepted)
    (h : resolveGroup sampler digest strategy eventId group = .ok result) :
    result.Full group ∧ result.portfolioWeights.total = group.weight * group.localTotal ∧
      ∀ weight ∈ result.portfolioWeights.values, 0 ≤ weight := by
  obtain ⟨selected, hSelected, h⟩ := except_bind_ok.mp h
  obtain ⟨allocated, hAllocated, h⟩ := except_bind_ok.mp h
  cases h
  obtain ⟨found, hFound, hSelects⟩ := selectSymbols_ok sampler hGroup
    (groupSeed digest strategy.randomSeed group.id
      (if group.selection.resamples then eventId else none))
  obtain rfl := Except.ok.inj (hFound.symm.trans hSelected)
  obtain ⟨hTotal, hNonneg⟩ := allocateSelected_ok hGroup hSelects hAllocated
  have hPortfolio := total_mapValues_mul allocated group.weight
  refine ⟨⟨rfl, hSelects, hPortfolio⟩, by rw [hPortfolio, hTotal], ?_⟩
  intro weight hWeight
  rw [Dict.values_mapValues] at hWeight
  obtain ⟨part, hPart, rfl⟩ := List.mem_map.mp hWeight
  exact mul_nonneg hGroup.weight_nonneg (hNonneg part hPart)

/-- A group that does not resample resolves alike at every event. -/
theorem resolveGroup_once (h : group.selection.resamples = false) (other : Option String) :
    resolveGroup sampler digest strategy eventId group =
      resolveGroup sampler digest strategy other group := by
  simp [resolveGroup, h]

end Resolved

section Target

variable {target portfolio : Dict String ℚ}

theorem total_addPortfolio (target portfolio : Dict String ℚ) :
    (addPortfolio target portfolio).total = target.total + portfolio.total := by
  have hFold (entries : List (String × ℚ)) (target : Dict String ℚ) :
      (entries.foldl (fun target entry =>
        target.set entry.1 (target.getD entry.1 0 + entry.2)) target).total =
        target.total + (entries.map Prod.snd).sum := by
    induction entries generalizing target with
    | nil => simp
    | cons entry rest ih =>
        rw [List.foldl_cons, ih, Dict.total_set_add, List.map_cons, List.sum_cons, add_assoc]
  exact hFold portfolio.entries target

theorem addPortfolio_nonneg (hTarget : ∀ weight ∈ target.values, 0 ≤ weight)
    (hPortfolio : ∀ weight ∈ portfolio.values, 0 ≤ weight) :
    ∀ weight ∈ (addPortfolio target portfolio).values, 0 ≤ weight := by
  apply Dict.foldl_set_values hTarget
  intro entry hEntry weights hWeights
  exact add_nonneg (getD_nonneg hWeights entry.1)
    (hPortfolio entry.2 (List.mem_map_of_mem hEntry))

/-- The target of a strategy is the sum of the portfolios of its groups. -/
theorem foldl_addPortfolio (groups : List GroupResolution) (target : Dict String ℚ) :
    (groups.foldl (fun target group => addPortfolio target group.portfolioWeights) target).total =
      target.total + (groups.map (fun group => group.portfolioWeights.total)).sum := by
  induction groups generalizing target with
  | nil => simp
  | cons group rest ih =>
      rw [List.foldl_cons, ih, total_addPortfolio, List.map_cons, List.sum_cons, add_assoc]

theorem foldl_addPortfolio_nonneg {groups : List GroupResolution} {target : Dict String ℚ}
    (hTarget : ∀ weight ∈ target.values, 0 ≤ weight)
    (h : ∀ group ∈ groups, ∀ weight ∈ group.portfolioWeights.values, 0 ≤ weight) :
    ∀ weight ∈ (groups.foldl (fun target group =>
      addPortfolio target group.portfolioWeights) target).values, 0 ≤ weight := by
  induction groups generalizing target with
  | nil => exact hTarget
  | cons group rest ih =>
      exact ih (addPortfolio_nonneg hTarget (h group List.mem_cons_self))
        (fun other hOther => h other (List.mem_cons_of_mem group hOther))

end Target

section Strategies

variable {normalizeSymbol : String → String} {sampler : Sampler} {digest : String → Nat}
  {raw strategy : StrategyDocument}

/-- Every event resolves a strategy to a full portfolio, the same one when no group
resamples. -/
def StrategyDocument.Resolves (sampler : Sampler) (digest : String → Nat)
    (strategy : StrategyDocument) : Prop :=
  (∀ eventId, ∃ resolution, resolvePortfolio sampler digest strategy eventId = .ok resolution ∧
    resolution.Full strategy) ∧
  ((∀ group ∈ strategy.groups, group.selection.resamples = false) → ∀ eventId other,
    resolvePortfolio sampler digest strategy eventId =
      resolvePortfolio sampler digest strategy other)

/-- What the groups allocate in all. -/
def StrategyDocument.allocatedTotal (strategy : StrategyDocument) : ℚ :=
  (strategy.groups.map (fun group => group.weight * group.localTotal)).sum

theorem forall₂_groups {eventId : Option String} {results : List GroupResolution}
    {groups : List StrategyGroup} (hGroups : ∀ group ∈ groups, group.Accepted)
    (h : List.Forall₂ (fun group result =>
      resolveGroup sampler digest strategy eventId group = .ok result) groups results) :
    List.Forall₂ GroupResolution.Full groups results ∧
      results.map (fun result => result.portfolioWeights.total) =
        groups.map (fun group => group.weight * group.localTotal) ∧
      ∀ result ∈ results, ∀ weight ∈ result.portfolioWeights.values, 0 ≤ weight := by
  induction h with
  | nil => simp
  | cons hFirst _ ih =>
      obtain ⟨hFull, hTotals, hNonneg⟩ :=
        ih (fun group hGroup => hGroups group (List.mem_cons_of_mem _ hGroup))
      obtain ⟨hHead, hTotal, hFirstNonneg⟩ :=
        resolveGroup_full (hGroups _ List.mem_cons_self) hFirst
      refine ⟨.cons hHead hFull, by rw [List.map_cons, List.map_cons, hTotal, hTotals], ?_⟩
      intro result hResult
      rcases List.mem_cons.mp hResult with rfl | hResult
      · exact hFirstNonneg
      · exact hNonneg result hResult

/-- The groups resolve exactly when each of them does. -/
theorem mapM_resolveGroup_iff {eventId : Option String} {groups : List StrategyGroup}
    (hGroups : ∀ group ∈ groups, group.Accepted) :
    (∃ results, groups.mapM (resolveGroup sampler digest strategy eventId) = .ok results) ↔
      ∀ group ∈ groups, group.SelectsFixed := by
  constructor
  · rintro ⟨results, hResults⟩ group hGroup
    obtain ⟨index, hIndex, rfl⟩ := List.getElem_of_mem hGroup
    have hEach := Sequence.forall₂_of_mapM hResults
    exact (resolveGroup_iff (hGroups _ hGroup)).mp
      ⟨_, hEach.get hIndex (hEach.length_eq ▸ hIndex)⟩
  · intro hAll
    induction groups with
    | nil => exact ⟨[], rfl⟩
    | cons group rest ih =>
        have hFirst : ∃ result, resolveGroup sampler digest strategy eventId group = .ok result :=
          (resolveGroup_iff (hGroups group List.mem_cons_self)).mpr (hAll group List.mem_cons_self)
        obtain ⟨result, hResult⟩ := hFirst
        obtain ⟨results, hResults⟩ :=
          ih (fun other hOther => hGroups other (List.mem_cons_of_mem group hOther))
            (fun other hOther => hAll other (List.mem_cons_of_mem group hOther))
        exact ⟨result :: results, by rw [List.mapM_cons, hResult, hResults]; rfl⟩

/-- An accepted strategy resolves to full portfolios exactly when the groups with fixed
weights select their whole universe and what the groups allocate sums to one within the
tolerance. -/
theorem resolves_iff (hAccepted : acceptStrategy normalizeSymbol raw = .ok strategy) :
    strategy.Resolves sampler digest ↔ (∀ group ∈ strategy.groups, group.SelectsFixed) ∧
      |strategy.allocatedTotal - 1| ≤ weightTolerance := by
  have hGroups := acceptStrategy_ok hAccepted
  have hTotal {eventId : Option String} {results : List GroupResolution}
      (hResults : strategy.groups.mapM (resolveGroup sampler digest strategy eventId) =
        .ok results) : (results.foldl (fun target group =>
          addPortfolio target group.portfolioWeights) Dict.empty).total =
            strategy.allocatedTotal := by
    obtain ⟨-, hTotals, -⟩ := forall₂_groups hGroups (Sequence.forall₂_of_mapM hResults)
    rw [foldl_addPortfolio, Dict.total_empty, zero_add, hTotals]
    rfl
  constructor
  · rintro ⟨hResolves, -⟩
    obtain ⟨resolution, hResolution, -⟩ := hResolves none
    obtain ⟨results, hResults, hRest⟩ := except_bind_ok.mp hResolution
    obtain ⟨⟨⟩, hOne, -⟩ := except_bind_ok.mp hRest
    rw [require_ok_iff, hTotal hResults, isOne, decide_eq_true_eq] at hOne
    exact ⟨(mapM_resolveGroup_iff hGroups).mp ⟨results, hResults⟩, hOne⟩
  · rintro ⟨hAll, hOne⟩
    refine ⟨fun eventId => ?_, fun hOnce eventId other => ?_⟩
    · obtain ⟨results, hResults⟩ := (mapM_resolveGroup_iff hGroups).mpr hAll
      obtain ⟨hFull, -, hNonneg⟩ := forall₂_groups hGroups (Sequence.forall₂_of_mapM hResults)
      refine ⟨⟨_, results⟩, except_bind_ok.mpr ⟨results, hResults,
        except_bind_ok.mpr ⟨⟨⟩, ?_, rfl⟩⟩, hFull, ?_, ?_⟩
      · rw [require_ok_iff, hTotal hResults, isOne, decide_eq_true_eq]
        exact hOne
      · exact foldl_addPortfolio_nonneg (by simp [Dict.empty, Dict.values]) hNonneg
      · rw [hTotal hResults]
        exact hOne
    · have hSame : strategy.groups.mapM (resolveGroup sampler digest strategy eventId) =
          strategy.groups.mapM (resolveGroup sampler digest strategy other) :=
        mapM_of_alike (fun group hGroup => resolveGroup_once (hOnce group hGroup) other)
      simp only [resolvePortfolio, hSame]

/-- A sampler that takes the members at the first positions. -/
def firstMembers : Sampler where
  sample := fun _ population k => population.take k
  length_sample := fun _ _ _ hSize => List.length_take_of_le hSize
  subperm_sample := fun _ population k _ => (List.take_sublist k population).subperm

/-- One group with one of two symbols at an even weight. -/
def evenPair : StrategyDocument where
  name := "Even pair"
  randomSeed := 0
  groups :=
    [{ id := "core", weight := 1, symbols := ["QQQ", "TLT"], selection := .all
       allocation := .equalWeight }]
  rebalance := .monthly

theorem evenPair_resolves : evenPair.Resolves firstMembers (fun _ => 0) := by
  have hAccepted : acceptStrategy id evenPair = .ok evenPair := by decide +kernel
  refine (resolves_iff hAccepted).mpr ⟨?_, ?_⟩
  · simp [evenPair, StrategyGroup.SelectsFixed]
  · norm_num [evenPair, StrategyDocument.allocatedTotal, StrategyGroup.localTotal, weightTolerance]

/-- One group with fixed weights, of which one symbol is drawn. -/
def oneOfTwo : StrategyDocument where
  name := "One of two"
  randomSeed := 0
  groups :=
    [{ id := "core", weight := 1, symbols := ["QQQ", "TLT"], selection := .randomN 1 .perEvent
       allocation := .fixedWeight [⟨"QQQ", 1 / 2⟩, ⟨"TLT", 1 / 2⟩] }]
  rebalance := .monthly

/-- Weights a tolerance above one, in a group and of the groups. -/
def roundedTwice : StrategyDocument where
  name := "Rounded twice"
  randomSeed := 0
  groups :=
    [{ id := "core", weight := 1 / 2, symbols := ["QQQ", "TLT"], selection := .all
       allocation := .fixedWeight [⟨"QQQ", 1 / 2⟩, ⟨"TLT", 1 / 2 + 1 / 10 ^ 8⟩] },
     { id := "rest", weight := 1 / 2 + 1 / 10 ^ 8, symbols := ["IEF"], selection := .all
       allocation := .equalWeight }]
  rebalance := .monthly

/-- Both documents are accepted, and no event resolves them. -/
theorem accepted_unresolved :
    (acceptStrategy id oneOfTwo = .ok oneOfTwo ∧
      ¬ oneOfTwo.Resolves firstMembers (fun _ => 0)) ∧
    acceptStrategy id roundedTwice = .ok roundedTwice ∧
      ¬ roundedTwice.Resolves firstMembers (fun _ => 0) := by
  have hFixed : (resolvePortfolio firstMembers (fun _ => 0) oneOfTwo none).isOk = false := by
    decide +kernel
  have hRounded : (resolvePortfolio firstMembers (fun _ => 0) roundedTwice none).isOk = false := by
    decide +kernel
  refine ⟨⟨by decide +kernel, ?_⟩, by decide +kernel, ?_⟩ <;>
    rintro ⟨hResolves, -⟩ <;>
    obtain ⟨resolution, hResolution, -⟩ := hResolves none
  · rw [hResolution] at hFixed
    cases hFixed
  · rw [hResolution] at hRounded
    cases hRounded

end Strategies

end V0

end RuleTrade
