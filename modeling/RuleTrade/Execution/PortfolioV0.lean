import RuleTrade.Strategy.DocumentV0
import RuleTrade.Library.Sequence

/-! Resolution of a document of the first version: every group selects symbols and
allocates to them, and the weighted allocations add up to the target. -/

namespace RuleTrade

open Library

namespace V0

/-- `random.Random(seed).sample(population, k)`, which takes members at `k` distinct
positions. -/
structure Sampler where
  sample : Nat → List String → Nat → List String
  length_sample : ∀ seed population k, k ≤ population.length →
    (sample seed population k).length = k
  subperm_sample : ∀ seed population k, k ≤ population.length →
    (sample seed population k).Subperm population

structure GroupResolution where
  groupId : String
  selectedSymbols : List String
  localWeights : Dict String ℚ
  portfolioWeights : Dict String ℚ

structure PortfolioResolution where
  targetWeights : Dict String ℚ
  groups : List GroupResolution

section Resolution

variable (sampler : Sampler) (digest : String → Nat)

/-- The first eight bytes of the digest of the seed, the group and the event. -/
def groupSeed (strategySeed : Int) (groupId : String) (eventId : Option String) : Nat :=
  digest (toString strategySeed ++ ":" ++ groupId ++
    (eventId.map (fun event => ":" ++ event)).getD "")

def selectSymbols (symbols : List String) (seed : Nat) :
    SelectionSpec → Except Refusal (List String)
  | .all => .ok symbols
  | .randomN count _ =>
      if count < 0 ∨ symbols.length < count then
        .error (.value "Sample larger than population or is negative")
      else .ok (Sequence.sortBy id (sampler.sample seed symbols count.toNat))

def configuredWeights (weights : List FixedWeightItem) : Dict String ℚ :=
  Dict.ofList (weights.map (fun item => (item.symbol, item.weight)))

/-- A weight for each selected symbol. -/
def weightEach (selectedSymbols : List String) (weight : String → ℚ) : Dict String ℚ :=
  Dict.ofList (selectedSymbols.map (fun symbol => (symbol, weight symbol)))

def allocateSelected (selectedSymbols : List String) (allocation : AllocationSpec) :
    Except Refusal (Dict String ℚ) :=
  if selectedSymbols.isEmpty then .ok Dict.empty
  else match allocation with
    | .equalWeight =>
        .ok (weightEach selectedSymbols (fun _ => 1 / (selectedSymbols.length : ℚ)))
    | .fixedWeight weights =>
        if sameSet selectedSymbols (configuredWeights weights).keys then
          .ok (weightEach selectedSymbols (fun symbol => (configuredWeights weights).getD symbol 0))
        else .error (.value
          "fixed_weight allocation requires all configured symbols to be selected")

def SelectionSpec.resamples : SelectionSpec → Bool
  | .randomN _ .perEvent => true
  | _ => false

def resolveGroup (strategy : StrategyDocument) (eventId : Option String) (group : StrategyGroup) :
    Except Refusal GroupResolution := do
  let selectionEventId := if group.selection.resamples then eventId else none
  let seed := groupSeed digest strategy.randomSeed group.id selectionEventId
  let selected ← selectSymbols sampler group.symbols seed group.selection
  let localWeights ← allocateSelected selected group.allocation
  return ⟨group.id, selected, localWeights, localWeights.mapValues (group.weight * ·)⟩

/-- Weights of a group added to the target. -/
def addPortfolio (targetWeights portfolioWeights : Dict String ℚ) : Dict String ℚ :=
  portfolioWeights.entries.foldl (fun target entry =>
    target.set entry.1 (target.getD entry.1 0 + entry.2)) targetWeights

def resolvePortfolio (strategy : StrategyDocument) (eventId : Option String) :
    Except Refusal PortfolioResolution := do
  let groups ← strategy.groups.mapM (resolveGroup sampler digest strategy eventId)
  let targetWeights := groups.foldl (fun target group =>
    addPortfolio target group.portfolioWeights) Dict.empty
  let total := targetWeights.total
  require (isOne total) (.total "resolved portfolio weights must sum to 1; got " total)
  return ⟨targetWeights, groups⟩

end Resolution

end V0

end RuleTrade
