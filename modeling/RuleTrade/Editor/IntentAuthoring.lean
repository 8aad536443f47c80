import Mathlib.Algebra.Order.Field.Rat
import RuleTrade.Strategy.Models

/-! Drafts of financial intents: what a recipe and a start path fill in, when a draft is
ready, and the authoring operation it becomes. -/

namespace RuleTrade

inductive IntentStartPath where
  | assetFirst
  | timingFirst
  | flowFirst
  | rulesFirst
  | logicFirst
  | allocationFirst
  deriving DecidableEq, Repr

inductive FinancialIntentRecipe where
  | singleAsset
  | marketRegimeRotation
  | splitPortfolio
  | weightedScore
  | temporalSequence
  | multiClockPolicy
  deriving DecidableEq, Repr

inductive IntentTimeframe where
  | daily
  | monthly
  deriving DecidableEq, Repr

inductive IntentTimingMeaning where
  | rebalance
  | contribution
  deriving DecidableEq, Repr

inductive UnknownRiskPolicy where
  | block
  | allow
  deriving DecidableEq, Repr

/-- Values of a draft. Those that are not chosen are null. -/
structure FinancialIntentValues where
  assets : List String := []
  asset : Option String := none
  timeframe : Option IntentTimeframe := none
  timingMeaning : Option IntentTimingMeaning := none
  trendAsset : Option String := none
  trendLookback : Option ℚ := none
  rankingLookback : Option ℚ := none
  count : Option ℚ := none
  fallbackAsset : Option String := none
  growthWeight : Option ℚ := none
  defensiveAsset : Option String := none
  shortObservations : Option ℚ := none
  longObservations : Option ℚ := none
  shortWeight : Option ℚ := none
  longWeight : Option ℚ := none
  missingPolicy : Option ScoreMissingPolicy := none
  breakoutThreshold : Option ℚ := none
  retestWindow : Option ℚ := none
  confirmationWindow : Option ℚ := none
  expiryState : Option String := none
  weeklyContextAsset : Option String := none
  weeklyThreshold : Option ℚ := none
  dailySignalAsset : Option String := none
  dailyThreshold : Option ℚ := none
  unknownRiskPolicy : Option UnknownRiskPolicy := none
  deriving DecidableEq

/-- Some of the values. A value that is given may be null. -/
structure IntentValuesPatch where
  assets : Option (List String) := none
  asset : Option (Option String) := none
  timeframe : Option (Option IntentTimeframe) := none
  timingMeaning : Option (Option IntentTimingMeaning) := none
  trendAsset : Option (Option String) := none
  trendLookback : Option (Option ℚ) := none
  rankingLookback : Option (Option ℚ) := none
  count : Option (Option ℚ) := none
  fallbackAsset : Option (Option String) := none
  growthWeight : Option (Option ℚ) := none
  defensiveAsset : Option (Option String) := none
  shortObservations : Option (Option ℚ) := none
  longObservations : Option (Option ℚ) := none
  shortWeight : Option (Option ℚ) := none
  longWeight : Option (Option ℚ) := none
  missingPolicy : Option (Option ScoreMissingPolicy) := none
  breakoutThreshold : Option (Option ℚ) := none
  retestWindow : Option (Option ℚ) := none
  confirmationWindow : Option (Option ℚ) := none
  expiryState : Option (Option String) := none
  weeklyContextAsset : Option (Option String) := none
  weeklyThreshold : Option (Option ℚ) := none
  dailySignalAsset : Option (Option String) := none
  dailyThreshold : Option (Option ℚ) := none
  unknownRiskPolicy : Option (Option UnknownRiskPolicy) := none
  deriving DecidableEq

/-- `{ ...values, ...patch }`. -/
def FinancialIntentValues.with (values : FinancialIntentValues) (patch : IntentValuesPatch) :
    FinancialIntentValues where
  assets := patch.assets.getD values.assets
  asset := patch.asset.getD values.asset
  timeframe := patch.timeframe.getD values.timeframe
  timingMeaning := patch.timingMeaning.getD values.timingMeaning
  trendAsset := patch.trendAsset.getD values.trendAsset
  trendLookback := patch.trendLookback.getD values.trendLookback
  rankingLookback := patch.rankingLookback.getD values.rankingLookback
  count := patch.count.getD values.count
  fallbackAsset := patch.fallbackAsset.getD values.fallbackAsset
  growthWeight := patch.growthWeight.getD values.growthWeight
  defensiveAsset := patch.defensiveAsset.getD values.defensiveAsset
  shortObservations := patch.shortObservations.getD values.shortObservations
  longObservations := patch.longObservations.getD values.longObservations
  shortWeight := patch.shortWeight.getD values.shortWeight
  longWeight := patch.longWeight.getD values.longWeight
  missingPolicy := patch.missingPolicy.getD values.missingPolicy
  breakoutThreshold := patch.breakoutThreshold.getD values.breakoutThreshold
  retestWindow := patch.retestWindow.getD values.retestWindow
  confirmationWindow := patch.confirmationWindow.getD values.confirmationWindow
  expiryState := patch.expiryState.getD values.expiryState
  weeklyContextAsset := patch.weeklyContextAsset.getD values.weeklyContextAsset
  weeklyThreshold := patch.weeklyThreshold.getD values.weeklyThreshold
  dailySignalAsset := patch.dailySignalAsset.getD values.dailySignalAsset
  dailyThreshold := patch.dailyThreshold.getD values.dailyThreshold
  unknownRiskPolicy := patch.unknownRiskPolicy.getD values.unknownRiskPolicy

structure FinancialIntentDraft where
  semanticId : String
  recipe : FinancialIntentRecipe
  startPath : IntentStartPath
  values : FinancialIntentValues
  deriving DecidableEq

section Drafts

/-- The universe of the recipes. -/
def rotationAssets : List String := ["QQQ", "VGT", "SOXX", "SCHG"]

def recipeDefaults : FinancialIntentRecipe → IntentValuesPatch
  | .singleAsset => {}
  | .marketRegimeRotation =>
      { assets := some rotationAssets
        trendAsset := some (some "QQQ")
        trendLookback := some (some 200)
        rankingLookback := some (some 126)
        count := some (some 2)
        fallbackAsset := some (some "TLT")
        timeframe := some (some .monthly)
        timingMeaning := some (some .rebalance) }
  | .splitPortfolio =>
      { assets := some rotationAssets
        growthWeight := some (some (7 / 10))
        defensiveAsset := some (some "IEF")
        rankingLookback := some (some 126)
        count := some (some 2)
        fallbackAsset := some (some "TLT")
        timeframe := some (some .monthly)
        timingMeaning := some (some .rebalance) }
  | .weightedScore =>
      { assets := some rotationAssets
        shortObservations := some (some 21)
        longObservations := some (some 63)
        shortWeight := some (some (6 / 10))
        longWeight := some (some (4 / 10))
        count := some (some 3)
        timeframe := some (some .monthly)
        timingMeaning := some (some .rebalance)
        missingPolicy := some (some .requireAll) }
  | .temporalSequence =>
      { asset := some (some "QQQ")
        breakoutThreshold := some (some 12)
        retestWindow := some (some 3)
        confirmationWindow := some (some 2)
        expiryState := some (some "expired")
        timeframe := some (some .daily) }
  | .multiClockPolicy =>
      { assets := some rotationAssets
        weeklyContextAsset := some (some "QQQ")
        weeklyThreshold := some (some 0)
        dailySignalAsset := some (some "QQQ")
        dailyThreshold := some (some 0)
        shortObservations := some (some 21)
        longObservations := some (some 63)
        shortWeight := some (some (6 / 10))
        longWeight := some (some (4 / 10))
        count := some (some 2)
        fallbackAsset := some (some "TLT")
        unknownRiskPolicy := some (some .block) }

/-- What a start path leaves of the defaults. -/
def intentSeed : FinancialIntentRecipe → IntentStartPath → IntentValuesPatch
  | .marketRegimeRotation, .assetFirst => { assets := some [] }
  | .splitPortfolio, .allocationFirst =>
      { growthWeight := some (some (7 / 10))
        timeframe := some (some .monthly)
        timingMeaning := some (some .rebalance) }
  | .weightedScore, .assetFirst => { assets := some [] }
  | .temporalSequence, .assetFirst =>
      { asset := some (some "QQQ"), timeframe := some (some .daily) }
  | .multiClockPolicy, .logicFirst => { unknownRiskPolicy := some (some .block) }
  | recipe, _ => recipeDefaults recipe

def createFinancialIntentDraft (recipe : FinancialIntentRecipe) (startPath : IntentStartPath)
    (semanticId : String) : FinancialIntentDraft where
  semanticId := semanticId
  recipe := recipe
  startPath := startPath
  values := ({} : FinancialIntentValues).with (intentSeed recipe startPath)

def updateFinancialIntentDraft (draft : FinancialIntentDraft) (values : IntentValuesPatch) :
    FinancialIntentDraft :=
  { draft with values := draft.values.with values }

end Drafts

section Readiness

inductive IntentStatus where
  | incomplete
  | ready
  | unsupported
  deriving DecidableEq, Repr

structure IntentReadiness where
  status : IntentStatus
  unresolved : List String
  productMessage : String
  deriving DecidableEq, Repr

def IntentTimeframe.text : IntentTimeframe → String
  | .daily => "daily"
  | .monthly => "monthly"

/-- Null or the empty text. -/
def absentText (text : Option String) : Bool := text.all (· = "")

/-- What a recipe asks for, with whether it is absent. The number of assets never is. -/
def requiredValues (v : FinancialIntentValues) : FinancialIntentRecipe → List (Bool × String)
  | .singleAsset =>
      [(absentText v.asset, "Choose one asset"), (v.timeframe.isNone, "Choose a schedule"),
        (v.timingMeaning.isNone, "Choose rebalance or new contribution")]
  | .marketRegimeRotation =>
      [(false, "Choose rotation assets"), (absentText v.trendAsset, "Choose the trend asset"),
        (v.trendLookback.isNone, "Define the trend lookback"),
        (v.rankingLookback.isNone, "Define the ranking lookback"), (v.count.isNone, "Define Top N"),
        (absentText v.fallbackAsset, "Choose the ELSE asset")]
  | .splitPortfolio =>
      [(false, "Choose Growth assets"), (v.growthWeight.isNone, "Define the Growth share"),
        (absentText v.defensiveAsset, "Choose the Defensive asset"),
        (v.rankingLookback.isNone, "Define momentum"),
        (absentText v.fallbackAsset, "Choose Growth shortage fallback")]
  | .weightedScore =>
      [(false, "Choose Score assets"), (v.shortObservations.isNone, "Define the short horizon"),
        (v.longObservations.isNone, "Define the long horizon"),
        (v.shortWeight.isNone, "Define the short weight"),
        (v.longWeight.isNone, "Define the long weight"), (v.count.isNone, "Define Top N"),
        (v.missingPolicy.isNone, "Choose missing-data behavior")]
  | .temporalSequence =>
      [(absentText v.asset, "Choose the observed asset"),
        (v.breakoutThreshold.isNone, "Define breakout"),
        (v.retestWindow.isNone, "Define the retest window"),
        (v.confirmationWindow.isNone, "Define confirmation expiry"),
        (absentText v.expiryState, "Define reset/expiry")]
  | .multiClockPolicy =>
      [(false, "Choose the investment universe"),
        (absentText v.weeklyContextAsset, "Choose weekly context"),
        (absentText v.dailySignalAsset, "Choose daily signal"),
        (v.shortObservations.isNone, "Define Score horizons"),
        (absentText v.fallbackAsset, "Choose defensive fallback"),
        (v.unknownRiskPolicy.isNone, "Define Unknown risk behavior")]

def unresolvedValues (v : FinancialIntentValues) (recipe : FinancialIntentRecipe) : List String :=
  ((requiredValues v recipe).filter Prod.fst).map Prod.snd

/-- A number below a bound; what is null is compared as zero. -/
def below (value : Option ℚ) (bound : ℚ) : Bool := value.getD 0 < bound

/-- The guards of a recipe on values that are all there. -/
def recipeProblem (v : FinancialIntentValues) : FinancialIntentRecipe → Option IntentReadiness
  | .singleAsset =>
      if v.timingMeaning = some .contribution then
        some ⟨.unsupported, [], "Recurring contributions are preserved as intent, but are not executable in the current strategy model."⟩
      else none
  | .marketRegimeRotation =>
      if absentText v.trendAsset || v.trendAsset.any (· ∉ v.assets) ||
          decide ((v.assets.length : ℚ) < v.count.getD 0) || below v.trendLookback 2 ||
          below v.rankingLookback 2 then
        some ⟨.incomplete, ["Correct the trend, universe, lookbacks, or Top N"],
          "Trend asset must be in the universe and Top N cannot exceed it."⟩
      else none
  | .splitPortfolio =>
      if decide (v.assets.length < 2) || decide (v.growthWeight.getD 0 ≤ 0) ||
          decide (1 ≤ v.growthWeight.getD 0) || below v.rankingLookback 2 then
        some ⟨.incomplete, ["Correct Growth assets, sleeve shares, or ranking history"],
          "Growth needs at least two assets, both sleeves need a positive share, and momentum needs at least two observations."⟩
      else none
  | .weightedScore =>
      if decide (v.assets.length < 3) || below v.shortObservations 2 || below v.longObservations 2 ||
          decide (v.shortWeight.getD 0 ≤ 0) || decide (v.longWeight.getD 0 ≤ 0) ||
          decide ((v.assets.length : ℚ) < v.count.getD 0) then
        some ⟨.incomplete, ["Correct Score terms or Top N"],
          "Score horizons and weights must be positive and Top N cannot exceed the universe."⟩
      else none
  | .temporalSequence =>
      if v.asset = some "QQQ" ∧ v.breakoutThreshold = some 12 ∧ v.retestWindow = some 3 ∧
          v.confirmationWindow = some 2 ∧ v.expiryState = some "expired" then none
      else some ⟨.unsupported, [], "This variation remains a recoverable draft until its complete State and expiry semantics are formalized."⟩
  | .multiClockPolicy =>
      if String.intercalate "," v.assets = "QQQ,VGT,SOXX,SCHG" ∧ v.weeklyContextAsset = some "QQQ" ∧
          v.weeklyThreshold = some 0 ∧ v.dailySignalAsset = some "QQQ" ∧ v.dailyThreshold = some 0 ∧
          v.shortObservations = some 21 ∧ v.longObservations = some 63 ∧
          v.shortWeight = some (6 / 10) ∧ v.longWeight = some (4 / 10) ∧ v.count = some 2 ∧
          v.fallbackAsset = some "TLT" ∧ v.unknownRiskPolicy = some .block then none
      else some ⟨.unsupported, [], "This multi-clock variation remains a draft until its clock and risk-policy semantics are formalized."⟩

/-- What is said of a draft that is ready. -/
def readyMessage (v : FinancialIntentValues) : FinancialIntentRecipe → String
  | .singleAsset =>
      "Hold " ++ v.asset.getD "null" ++ " and rebalance " ++
        (v.timeframe.map IntentTimeframe.text).getD "null" ++ "."
  | _ => "This fully specified intent is ready for semantic validation."

/-- Assets named twice. A single asset is not compared with a universe. -/
def duplicateAssets (v : FinancialIntentValues) (recipe : FinancialIntentRecipe) : Bool :=
  recipe != .singleAsset && !decide v.assets.Nodup

def financialIntentReadiness (draft : FinancialIntentDraft) : IntentReadiness :=
  let v := draft.values
  match unresolvedValues v draft.recipe with
  | first :: rest => ⟨.incomplete, first :: rest, first⟩
  | [] =>
      if duplicateAssets v draft.recipe then
        ⟨.incomplete, ["Remove duplicate assets"],
          "Each explicit-universe asset may appear only once."⟩
      else (recipeProblem v draft.recipe).getD ⟨.ready, [], readyMessage v draft.recipe⟩

end Readiness

section Operations

/-- Operations that commit an intent. A field that the draft leaves null is null in it. -/
inductive IntentOperation where
  | commitSingleAsset (investmentId investmentName assetSetId : String) (asset : Option String)
      (timeframe : Option IntentTimeframe) (timingMeaning : IntentTimingMeaning)
  | commitMarketRegimeRotation (assets : List String) (trendAsset : Option String)
      (trendLookback rankingLookback count : Option ℚ) (fallbackAsset : Option String)
      (timeframe : Option IntentTimeframe)
  | commitSplitPortfolio (growthAssets : List String) (growthWeight : Option ℚ)
      (defensiveAsset : Option String) (rankingLookback : Option ℚ) (fallbackAsset : Option String)
      (timeframe : Option IntentTimeframe)
  | commitWeightedScore (assets : List String) (shortObservations longObservations : Option ℚ)
      (shortWeight longWeight count : Option ℚ) (timeframe : Option IntentTimeframe)
      (missingPolicy : Option ScoreMissingPolicy)
  | commitTemporalSequence (asset : Option String) (breakoutThreshold : Option ℚ)
      (retestWindow confirmationWindow : Option ℚ) (expiryState : Option String)
  | commitMultiClockPolicy (assets : List String) (weeklyContextAsset : Option String)
      (weeklyThreshold : Option ℚ) (dailySignalAsset : Option String) (dailyThreshold : Option ℚ)
      (scoreObservations scoreWeights : List (Option ℚ)) (count : Option ℚ)
      (fallbackAsset : Option String) (unknownRiskPolicy : Option UnknownRiskPolicy)
  deriving DecidableEq

def compiledOperation (v : FinancialIntentValues) : FinancialIntentRecipe → IntentOperation
  | .singleAsset =>
      .commitSingleAsset "investment-1" "Investment" "investment-1-assets" v.asset v.timeframe
        .rebalance
  | .marketRegimeRotation =>
      .commitMarketRegimeRotation v.assets v.trendAsset v.trendLookback v.rankingLookback v.count
        v.fallbackAsset v.timeframe
  | .splitPortfolio =>
      .commitSplitPortfolio v.assets v.growthWeight v.defensiveAsset v.rankingLookback
        v.fallbackAsset v.timeframe
  | .weightedScore =>
      .commitWeightedScore v.assets v.shortObservations v.longObservations v.shortWeight
        v.longWeight v.count v.timeframe v.missingPolicy
  | .temporalSequence =>
      .commitTemporalSequence v.asset v.breakoutThreshold v.retestWindow v.confirmationWindow
        v.expiryState
  | .multiClockPolicy =>
      .commitMultiClockPolicy v.assets v.weeklyContextAsset v.weeklyThreshold v.dailySignalAsset
        v.dailyThreshold [v.shortObservations, v.longObservations] [v.shortWeight, v.longWeight]
        v.count v.fallbackAsset v.unknownRiskPolicy

def compileFinancialIntent (draft : FinancialIntentDraft) : Option IntentOperation :=
  if (financialIntentReadiness draft).status ≠ .ready then none
  else some (compiledOperation draft.values draft.recipe)

end Operations

section Constraints

def isSymbolField (text : Option String) : Bool := text.any isSymbol

/-- A whole number within bounds. -/
def isIntegerField (low high : Int) (value : Option ℚ) : Bool :=
  value.any (fun q => q.den = 1 && low ≤ q.num && q.num ≤ high)

def isPositiveField (value : Option ℚ) : Bool := value.any (0 < ·)

def isShareField (value : Option ℚ) : Bool := value.any (fun q => 0 < q && q < 1)

def areSymbols (low high : Nat) (assets : List String) : Bool :=
  decide (low ≤ assets.length) && decide (assets.length ≤ high) && assets.all isSymbol

def isBoundedText (high : Nat) (text : Option String) : Bool :=
  text.any (fun text => 1 ≤ text.toList.length && text.toList.length ≤ high)

/-- Whether the operation models of the backend accept the fields. -/
def IntentOperation.isAccepted : IntentOperation → Bool
  | .commitSingleAsset investmentId investmentName assetSetId asset timeframe timingMeaning =>
      investmentId != "" && isBoundedText 100 (some investmentName) && assetSetId != "" &&
        isSymbolField asset && timeframe.isSome && timingMeaning = .rebalance
  | .commitMarketRegimeRotation assets trendAsset trendLookback rankingLookback count fallbackAsset
      timeframe =>
      areSymbols 2 100 assets && isSymbolField trendAsset && isIntegerField 2 2000 trendLookback &&
        isIntegerField 2 2000 rankingLookback && isIntegerField 1 100 count &&
        isSymbolField fallbackAsset && timeframe.isSome
  | .commitSplitPortfolio growthAssets growthWeight defensiveAsset rankingLookback fallbackAsset
      timeframe =>
      areSymbols 2 100 growthAssets && isShareField growthWeight && isSymbolField defensiveAsset &&
        isIntegerField 2 2000 rankingLookback && isSymbolField fallbackAsset && timeframe.isSome
  | .commitWeightedScore assets shortObservations longObservations shortWeight longWeight count
      timeframe missingPolicy =>
      areSymbols 3 100 assets && isIntegerField 2 2000 shortObservations &&
        isIntegerField 2 2000 longObservations && isPositiveField shortWeight &&
        isPositiveField longWeight && isIntegerField 1 100 count && timeframe.isSome &&
        missingPolicy.isSome
  | .commitTemporalSequence asset breakoutThreshold retestWindow confirmationWindow expiryState =>
      isSymbolField asset && breakoutThreshold.isSome && isIntegerField 1 100 retestWindow &&
        isIntegerField 1 100 confirmationWindow && isBoundedText 100 expiryState
  | .commitMultiClockPolicy assets weeklyContextAsset weeklyThreshold dailySignalAsset
      dailyThreshold scoreObservations scoreWeights count fallbackAsset unknownRiskPolicy =>
      areSymbols 2 100 assets && isSymbolField weeklyContextAsset && weeklyThreshold.isSome &&
        isSymbolField dailySignalAsset && dailyThreshold.isSome &&
        decide (scoreObservations.length = 2) && scoreObservations.all (isIntegerField 2 2000) &&
        decide (scoreWeights.length = 2) && scoreWeights.all isPositiveField &&
        isIntegerField 1 100 count && isSymbolField fallbackAsset && unknownRiskPolicy.isSome

end Constraints

end RuleTrade
