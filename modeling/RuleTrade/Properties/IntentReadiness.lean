import RuleTrade.Editor.IntentAuthoring
import RuleTrade.Library.Framing

/-! Financial intents that are ready: what readiness leaves unchecked of the operation
models of the backend. -/

namespace RuleTrade

section Reachable

variable {v : FinancialIntentValues} {patch : IntentValuesPatch}

/-- Every asset that is named is a ticker. -/
structure FinancialIntentValues.NamesTickers (v : FinancialIntentValues) : Prop where
  assets : ∀ asset ∈ v.assets, isSymbol asset
  asset : ∀ asset ∈ v.asset, isSymbol asset
  trendAsset : ∀ asset ∈ v.trendAsset, isSymbol asset
  fallbackAsset : ∀ asset ∈ v.fallbackAsset, isSymbol asset
  defensiveAsset : ∀ asset ∈ v.defensiveAsset, isSymbol asset
  weeklyContextAsset : ∀ asset ∈ v.weeklyContextAsset, isSymbol asset
  dailySignalAsset : ∀ asset ∈ v.dailySignalAsset, isSymbol asset

structure IntentValuesPatch.NamesTickers (patch : IntentValuesPatch) : Prop where
  assets : ∀ given ∈ patch.assets, ∀ asset ∈ given, isSymbol asset
  asset : ∀ given ∈ patch.asset, ∀ asset ∈ given, isSymbol asset
  trendAsset : ∀ given ∈ patch.trendAsset, ∀ asset ∈ given, isSymbol asset
  fallbackAsset : ∀ given ∈ patch.fallbackAsset, ∀ asset ∈ given, isSymbol asset
  defensiveAsset : ∀ given ∈ patch.defensiveAsset, ∀ asset ∈ given, isSymbol asset
  weeklyContextAsset : ∀ given ∈ patch.weeklyContextAsset, ∀ asset ∈ given, isSymbol asset
  dailySignalAsset : ∀ given ∈ patch.dailySignalAsset, ∀ asset ∈ given, isSymbol asset

/-- Drafts that updates make of a new draft, with any numbers and with tickers as assets. -/
inductive FinancialIntentDraft.Reachable : FinancialIntentDraft → Prop where
  | create (recipe : FinancialIntentRecipe) (startPath : IntentStartPath) (semanticId : String) :
      Reachable (createFinancialIntentDraft recipe startPath semanticId)
  | update {draft : FinancialIntentDraft} (patch : IntentValuesPatch) :
      draft.Reachable → patch.NamesTickers → Reachable (updateFinancialIntentDraft draft patch)

theorem given_or_kept {P : α → Prop} {given : Option α} {kept : α} (hGiven : ∀ value ∈ given, P value)
    (hKept : P kept) : P (given.getD kept) := by
  cases given with
  | none => exact hKept
  | some value => exact hGiven value rfl

theorem FinancialIntentValues.NamesTickers.with (hValues : v.NamesTickers)
    (hPatch : patch.NamesTickers) : (v.with patch).NamesTickers where
  assets := given_or_kept hPatch.assets hValues.assets
  asset := given_or_kept hPatch.asset hValues.asset
  trendAsset := given_or_kept hPatch.trendAsset hValues.trendAsset
  fallbackAsset := given_or_kept hPatch.fallbackAsset hValues.fallbackAsset
  defensiveAsset := given_or_kept hPatch.defensiveAsset hValues.defensiveAsset
  weeklyContextAsset := given_or_kept hPatch.weeklyContextAsset hValues.weeklyContextAsset
  dailySignalAsset := given_or_kept hPatch.dailySignalAsset hValues.dailySignalAsset

theorem namesTickers_empty : ({} : FinancialIntentValues).NamesTickers := by
  constructor <;> simp

theorem isSymbol_rotationAssets : ∀ asset ∈ rotationAssets, isSymbol asset := by decide

/-- Every default is a ticker where it names an asset. -/
theorem namesTickers_intentSeed (recipe : FinancialIntentRecipe) (startPath : IntentStartPath) :
    (intentSeed recipe startPath).NamesTickers := by
  have hTickers : isSymbol "QQQ" ∧ isSymbol "TLT" ∧ isSymbol "IEF" := by decide
  obtain ⟨hTrend, hFallback, hDefensive⟩ := hTickers
  cases recipe <;> cases startPath <;> constructor <;>
    simp [intentSeed, recipeDefaults, hTrend, hFallback, hDefensive] <;>
    exact isSymbol_rotationAssets

theorem FinancialIntentDraft.Reachable.namesTickers {draft : FinancialIntentDraft}
    (hDraft : draft.Reachable) : draft.values.NamesTickers := by
  induction hDraft with
  | create recipe startPath semanticId =>
      exact namesTickers_empty.with (namesTickers_intentSeed recipe startPath)
  | update patch _ hPatch ih => exact ih.with hPatch

end Reachable

section Ready

variable {v : FinancialIntentValues} {recipe : FinancialIntentRecipe}

theorem recipeProblem_not_ready {problem : IntentReadiness}
    (h : recipeProblem v recipe = some problem) : problem.status ≠ .ready := by
  cases recipe <;>
    simp only [recipeProblem, Option.ite_none_right_eq_some, Option.ite_none_left_eq_some,
      Option.some.injEq] at h <;>
    obtain ⟨-, rfl⟩ := h <;>
    simp

/-- A draft is ready when nothing is asked for, no asset is named twice and no guard of its
recipe speaks up. -/
theorem ready_iff {draft : FinancialIntentDraft} :
    (financialIntentReadiness draft).status = .ready ↔
      unresolvedValues draft.values draft.recipe = [] ∧
        duplicateAssets draft.values draft.recipe = false ∧
        recipeProblem draft.values draft.recipe = none := by
  cases hMissing : unresolvedValues draft.values draft.recipe with
  | cons first rest => simp [financialIntentReadiness, hMissing]
  | nil =>
      by_cases hTwice : duplicateAssets draft.values draft.recipe
      · simp [financialIntentReadiness, hMissing, hTwice]
      · cases hProblem : recipeProblem draft.values draft.recipe with
        | none => simp [financialIntentReadiness, hMissing, hTwice, hProblem]
        | some problem =>
            simp [financialIntentReadiness, hMissing, hTwice, hProblem,
              recipeProblem_not_ready hProblem]

/-- Nothing is asked for when every required value is there. -/
theorem unresolvedValues_eq_nil_iff :
    unresolvedValues v recipe = [] ↔ ∀ value ∈ requiredValues v recipe, value.1 = false := by
  simp [unresolvedValues, List.filter_eq_nil_iff]

theorem absentText_eq_false {text : Option String} :
    absentText text = false ↔ ∃ given, text = some given ∧ given ≠ "" := by
  cases text <;> simp [absentText]

end Ready

section Fields

variable {low high : Int} {q : ℚ}

def IsWholeUpTo (high : Int) (value : Option ℚ) : Prop := ∀ q ∈ value, q.den = 1 ∧ q ≤ high

def IsWholeFrom (low : Int) (value : Option ℚ) : Prop := ∀ q ∈ value, q.den = 1 ∧ low ≤ q

theorem isIntegerField_some_iff :
    isIntegerField low high (some q) ↔ q.den = 1 ∧ low ≤ q ∧ q ≤ high := by
  simp only [isIntegerField, Option.any_some, Bool.and_eq_true, decide_eq_true_eq, and_assoc]
  constructor <;>
    rintro ⟨hWhole, hLow, hHigh⟩ <;>
    have hNum := Rat.coe_int_num_of_den_eq_one hWhole
  · rw [← hNum]
    exact ⟨by simp, by exact_mod_cast hLow, by exact_mod_cast hHigh⟩
  · rw [← hNum] at hLow hHigh
    exact ⟨hWhole, by exact_mod_cast hLow, by exact_mod_cast hHigh⟩

theorem isIntegerField_iff_of_le (hLow : low ≤ q) :
    isIntegerField low high (some q) ↔ IsWholeUpTo high (some q) := by
  simp [isIntegerField_some_iff, IsWholeUpTo, hLow]

/-- A Top N within the universe is within bounds when the universe is. -/
theorem isIntegerField_count_iff {size : Nat} (hTop : q ≤ size) :
    size ≤ 100 ∧ isIntegerField 1 100 (some q) ↔ size ≤ 100 ∧ IsWholeFrom 1 (some q) := by
  apply and_congr_right
  intro hSize
  have hHigh : q ≤ 100 := le_trans hTop (by exact_mod_cast hSize)
  simp [isIntegerField_some_iff, IsWholeFrom, hHigh]

theorem areSymbols_iff {low high : Nat} {assets : List String}
    (hTickers : ∀ asset ∈ assets, isSymbol asset) :
    areSymbols low high assets ↔ low ≤ assets.length ∧ assets.length ≤ high := by
  simpa [areSymbols] using fun _ _ => hTickers

end Fields

section Recipes

variable {v : FinancialIntentValues}

/-- What the operation models ask of values and the readiness of a recipe does not. -/
def FinancialIntentValues.InRange (v : FinancialIntentValues) : FinancialIntentRecipe → Prop
  | .marketRegimeRotation =>
      v.timeframe.isSome ∧ 2 ≤ v.assets.length ∧ v.assets.length ≤ 100 ∧
        IsWholeUpTo 2000 v.trendLookback ∧ IsWholeUpTo 2000 v.rankingLookback ∧
        IsWholeFrom 1 v.count
  | .splitPortfolio =>
      v.timeframe.isSome ∧ v.assets.length ≤ 100 ∧ IsWholeUpTo 2000 v.rankingLookback
  | .weightedScore =>
      v.timeframe.isSome ∧ v.assets.length ≤ 100 ∧ IsWholeUpTo 2000 v.shortObservations ∧
        IsWholeUpTo 2000 v.longObservations ∧ IsWholeFrom 1 v.count
  | _ => True

/-- The values of a draft that is ready. -/
structure ReadyValues (v : FinancialIntentValues) (recipe : FinancialIntentRecipe) : Prop where
  tickers : v.NamesTickers
  required : unresolvedValues v recipe = []
  unguarded : recipeProblem v recipe = none

theorem singleAsset_accepted (h : ReadyValues v .singleAsset) :
    (compiledOperation v .singleAsset).isAccepted := by
  have hRequired := h.required
  simp only [unresolvedValues_eq_nil_iff, requiredValues, List.forall_mem_cons,
    absentText_eq_false, Option.isNone_eq_false_iff] at hRequired
  obtain ⟨⟨asset, hAsset, -⟩, hTimeframe, -⟩ := hRequired
  have hTicker := h.tickers.asset asset hAsset
  simp [compiledOperation, IntentOperation.isAccepted, isSymbolField, isBoundedText, hAsset,
    hTicker, hTimeframe]

theorem market_accepted_iff (h : ReadyValues v .marketRegimeRotation) :
    (compiledOperation v .marketRegimeRotation).isAccepted ↔
      v.InRange .marketRegimeRotation := by
  have hRequired := h.required
  simp only [unresolvedValues_eq_nil_iff, requiredValues, List.forall_mem_cons,
    absentText_eq_false, Option.isNone_eq_false_iff, Option.isSome_iff_exists] at hRequired
  obtain ⟨-, ⟨trend, hTrend, -⟩, ⟨lookback, hLookback⟩, ⟨ranking, hRanking⟩, ⟨count, hCount⟩,
    ⟨fallback, hFallback, -⟩, -⟩ := hRequired
  have hGuard := h.unguarded
  simp only [recipeProblem, below, hTrend, hLookback, hRanking, hCount, Option.getD_some,
    ite_eq_right_iff, reduceCtorEq, imp_false, Bool.not_eq_true, Bool.or_eq_false_iff,
    decide_eq_false_iff_not, not_lt] at hGuard
  obtain ⟨⟨⟨-, hTop⟩, hLong⟩, hMomentum⟩ := hGuard
  have hLookbackField : isIntegerField 2 2000 (some lookback) ↔ IsWholeUpTo 2000 (some lookback) :=
    isIntegerField_iff_of_le (by exact_mod_cast hLong)
  have hRankingField : isIntegerField 2 2000 (some ranking) ↔ IsWholeUpTo 2000 (some ranking) :=
    isIntegerField_iff_of_le (by exact_mod_cast hMomentum)
  have hCountField := isIntegerField_count_iff hTop
  have hTrendField : isSymbolField (some trend) := h.tickers.trendAsset trend hTrend
  have hFallbackField : isSymbolField (some fallback) := h.tickers.fallbackAsset fallback hFallback
  simp only [compiledOperation, IntentOperation.isAccepted, FinancialIntentValues.InRange,
    Bool.and_eq_true, areSymbols_iff h.tickers.assets, hTrend, hLookback, hRanking, hCount,
    hFallback, hTrendField, hFallbackField, hLookbackField, hRankingField, and_true]
  tauto

theorem split_accepted_iff (h : ReadyValues v .splitPortfolio) :
    (compiledOperation v .splitPortfolio).isAccepted ↔ v.InRange .splitPortfolio := by
  have hRequired := h.required
  simp only [unresolvedValues_eq_nil_iff, requiredValues, List.forall_mem_cons,
    absentText_eq_false, Option.isNone_eq_false_iff, Option.isSome_iff_exists] at hRequired
  obtain ⟨-, ⟨growth, hGrowth⟩, ⟨defensive, hDefensive, -⟩, ⟨ranking, hRanking⟩,
    ⟨fallback, hFallback, -⟩, -⟩ := hRequired
  have hGuard := h.unguarded
  simp only [recipeProblem, below, hGrowth, hRanking, Option.getD_some, ite_eq_right_iff,
    reduceCtorEq, imp_false, Bool.not_eq_true, Bool.or_eq_false_iff, decide_eq_false_iff_not,
    not_lt, not_le] at hGuard
  obtain ⟨⟨⟨hTwo, hPositive⟩, hShare⟩, hMomentum⟩ := hGuard
  have hRankingField : isIntegerField 2 2000 (some ranking) ↔ IsWholeUpTo 2000 (some ranking) :=
    isIntegerField_iff_of_le (by exact_mod_cast hMomentum)
  have hGrowthField : isShareField (some growth) := by simp [isShareField, hPositive, hShare]
  have hDefensiveField : isSymbolField (some defensive) :=
    h.tickers.defensiveAsset defensive hDefensive
  have hFallbackField : isSymbolField (some fallback) := h.tickers.fallbackAsset fallback hFallback
  simp only [compiledOperation, IntentOperation.isAccepted, FinancialIntentValues.InRange,
    Bool.and_eq_true, areSymbols_iff h.tickers.assets, hGrowth, hDefensive, hRanking, hFallback,
    hGrowthField, hDefensiveField, hFallbackField, hRankingField, hTwo, and_true, true_and]
  tauto

theorem weightedScore_accepted_iff (h : ReadyValues v .weightedScore) :
    (compiledOperation v .weightedScore).isAccepted ↔ v.InRange .weightedScore := by
  have hRequired := h.required
  simp only [unresolvedValues_eq_nil_iff, requiredValues, List.forall_mem_cons,
    Option.isNone_eq_false_iff, Option.isSome_iff_exists] at hRequired
  obtain ⟨-, ⟨short, hShort⟩, ⟨long, hLong⟩, ⟨shortWeight, hShortWeight⟩,
    ⟨longWeight, hLongWeight⟩, ⟨count, hCount⟩, ⟨missing, hMissing⟩, -⟩ := hRequired
  have hGuard := h.unguarded
  simp only [recipeProblem, below, hShort, hLong, hShortWeight, hLongWeight, hCount,
    Option.getD_some, ite_eq_right_iff, reduceCtorEq, imp_false, Bool.not_eq_true,
    Bool.or_eq_false_iff, decide_eq_false_iff_not, not_lt, not_le] at hGuard
  obtain ⟨⟨⟨⟨⟨hThree, hShortTwo⟩, hLongTwo⟩, hShortPositive⟩, hLongPositive⟩, hTop⟩ := hGuard
  have hShortField : isIntegerField 2 2000 (some short) ↔ IsWholeUpTo 2000 (some short) :=
    isIntegerField_iff_of_le (by exact_mod_cast hShortTwo)
  have hLongField : isIntegerField 2 2000 (some long) ↔ IsWholeUpTo 2000 (some long) :=
    isIntegerField_iff_of_le (by exact_mod_cast hLongTwo)
  have hShortWeightField : isPositiveField (some shortWeight) := by
    simp [isPositiveField, hShortPositive]
  have hLongWeightField : isPositiveField (some longWeight) := by
    simp [isPositiveField, hLongPositive]
  have hCountField := isIntegerField_count_iff hTop
  simp only [compiledOperation, IntentOperation.isAccepted, FinancialIntentValues.InRange,
    Bool.and_eq_true, areSymbols_iff h.tickers.assets, hShort, hLong, hShortWeight, hLongWeight,
    hCount, hMissing, hShortField, hLongField, hShortWeightField, hLongWeightField, hThree,
    Option.isSome_some, and_true, true_and]
  tauto

/-- Only the accepted sequence is ready. -/
theorem temporal_accepted (h : ReadyValues v .temporalSequence) :
    (compiledOperation v .temporalSequence).isAccepted := by
  have hGuard := h.unguarded
  simp only [recipeProblem, ite_eq_left_iff, reduceCtorEq, imp_false, not_not] at hGuard
  obtain ⟨hAsset, hBreakout, hRetest, hConfirmation, hExpiry⟩ := hGuard
  simp only [compiledOperation, hAsset, hBreakout, hRetest, hConfirmation, hExpiry]
  decide

theorem comma_notMem_of_isSymbol {asset : String} (h : isSymbol asset) : ',' ∉ asset.toList := by
  intro hComma
  simp only [isSymbol, Bool.and_eq_true, List.all_eq_true] at h
  exact absurd (h.2 ',' hComma) (by decide)

/-- Tickers have no commas, so a joined universe has one more asset than commas. -/
theorem joined_length {assets : List String} (hTickers : ∀ asset ∈ assets, isSymbol asset)
    (hJoined : String.intercalate "," assets = "QQQ,VGT,SOXX,SCHG") : assets.length = 4 := by
  have hCommas : ∀ token ∈ assets.map String.toList, ',' ∉ token := by
    intro token hToken
    obtain ⟨asset, hAsset, rfl⟩ := List.mem_map.mp hToken
    exact comma_notMem_of_isSymbol (hTickers asset hAsset)
  have hSome : assets.map String.toList ≠ [] := by
    rintro hNone
    rw [List.map_eq_nil_iff.mp hNone] at hJoined
    exact absurd hJoined (by decide)
  have hCount := Library.Framing.count_intercalate hCommas hSome
  have hText := congrArg String.toList hJoined
  rw [String.toList_intercalate] at hText
  rw [show [','] = ",".toList from rfl, hText, List.length_map] at hCount
  rw [← hCount]
  decide

theorem multiClock_accepted (h : ReadyValues v .multiClockPolicy) :
    (compiledOperation v .multiClockPolicy).isAccepted := by
  have hGuard := h.unguarded
  simp only [recipeProblem, ite_eq_left_iff, reduceCtorEq, imp_false, not_not] at hGuard
  obtain ⟨hAssets, hContext, hWeekly, hSignal, hDaily, hShort, hLong, hShortWeight, hLongWeight,
    hCount, hFallback, hRisk⟩ := hGuard
  have hFour := joined_length h.tickers.assets hAssets
  have hUniverse : areSymbols 2 100 v.assets := by simp [areSymbols_iff h.tickers.assets, hFour]
  have hWeights : [some (6 / 10), some (4 / 10)].all isPositiveField := by
    norm_num [isPositiveField]
  simp only [compiledOperation, IntentOperation.isAccepted, hUniverse, hContext, hWeekly, hSignal,
    hDaily, hShort, hLong, hShortWeight, hLongWeight, hCount, hFallback, hRisk, hWeights,
    Bool.true_and]
  decide

theorem compiled_accepted_iff {recipe : FinancialIntentRecipe} (h : ReadyValues v recipe) :
    (compiledOperation v recipe).isAccepted ↔ v.InRange recipe := by
  cases recipe with
  | singleAsset => exact iff_of_true (singleAsset_accepted h) trivial
  | marketRegimeRotation => exact market_accepted_iff h
  | splitPortfolio => exact split_accepted_iff h
  | weightedScore => exact weightedScore_accepted_iff h
  | temporalSequence => exact iff_of_true (temporal_accepted h) trivial
  | multiClockPolicy => exact iff_of_true (multiClock_accepted h) trivial

end Recipes

section Readiness

variable {draft : FinancialIntentDraft}

/-- The operation of a ready draft is one the backend accepts exactly when its values are
within the ranges that readiness does not look at. -/
theorem ready_intent_accepted_iff (hDraft : draft.Reachable)
    (hReady : (financialIntentReadiness draft).status = .ready) :
    (∃ operation, compileFinancialIntent draft = some operation ∧ operation.isAccepted) ↔
      draft.values.InRange draft.recipe := by
  obtain ⟨hRequired, -, hUnguarded⟩ := ready_iff.mp hReady
  have hCompiled := compiled_accepted_iff ⟨hDraft.namesTickers, hRequired, hUnguarded⟩
  simpa [compileFinancialIntent, hReady] using hCompiled

def createdRotation : FinancialIntentDraft :=
  createFinancialIntentDraft .marketRegimeRotation .timingFirst "intent-market_regime_rotation"

theorem created_rotation_accepted :
    ∃ operation, compileFinancialIntent createdRotation = some operation ∧
      operation.isAccepted := by
  have hRange : createdRotation.values.InRange createdRotation.recipe := by
    simp [createdRotation, createFinancialIntentDraft, intentSeed, recipeDefaults, rotationAssets,
      FinancialIntentValues.with, FinancialIntentValues.InRange, IsWholeUpTo, IsWholeFrom]
    norm_num
  exact (ready_intent_accepted_iff (.create _ _ _) (by decide)).mpr hRange

/-- Everything the rotation asks for, chosen in a draft that started from its assets. -/
def untimedRotation : FinancialIntentDraft :=
  updateFinancialIntentDraft
    (createFinancialIntentDraft .marketRegimeRotation .assetFirst "intent-market_regime_rotation")
    { assets := some rotationAssets
      trendAsset := some (some "QQQ")
      trendLookback := some (some 200)
      rankingLookback := some (some 126)
      count := some (some 2)
      fallbackAsset := some (some "TLT") }

/-- The draft is ready and its operation has a null timeframe. -/
theorem untimed_rotation_ready : untimedRotation.Reachable ∧
    (financialIntentReadiness untimedRotation).status = .ready ∧
    compileFinancialIntent untimedRotation = some (.commitMarketRegimeRotation rotationAssets
      (some "QQQ") (some 200) (some 126) (some 2) (some "TLT") none) ∧
    ¬ ∃ operation, compileFinancialIntent untimedRotation = some operation ∧
      operation.isAccepted := by
  have hReady : (financialIntentReadiness untimedRotation).status = .ready := by decide
  have hCompiled : compileFinancialIntent untimedRotation = some (.commitMarketRegimeRotation
      rotationAssets (some "QQQ") (some 200) (some 126) (some 2) (some "TLT") none) := by
    rw [compileFinancialIntent, hReady, if_neg (by simp)]
    rfl
  refine ⟨.update _ (.create _ _ _) ?_, hReady, hCompiled, ?_⟩
  · constructor <;> simp <;> decide
  · rintro ⟨operation, hOperation, hAccepted⟩
    obtain rfl := Option.some.inj (hCompiled.symm.trans hOperation)
    simp [IntentOperation.isAccepted] at hAccepted

end Readiness

end RuleTrade
