import Mathlib.Data.String.Basic
import RuleTrade.Strategy.Models

/-! Strategy documents of the first version: groups of symbols, each with a selection
and an allocation, and the checks that accept a document. -/

namespace RuleTrade

namespace V0

/-- Why a document or a resolution is turned down. -/
inductive Refusal where
  | field (path : String)
  | value (message : String)
  | total (message : String) (total : ℚ)
  deriving DecidableEq

inductive Resample where
  | once
  | perEvent
  deriving DecidableEq, Repr

inductive SelectionSpec where
  | all
  | randomN (count : Int) (resample : Resample)
  deriving DecidableEq, Repr

structure FixedWeightItem where
  symbol : String
  weight : ℚ
  deriving DecidableEq

inductive AllocationSpec where
  | equalWeight
  | fixedWeight (weights : List FixedWeightItem)
  deriving DecidableEq

structure StrategyGroup where
  id : String
  weight : ℚ
  symbols : List String
  selection : SelectionSpec
  allocation : AllocationSpec
  deriving DecidableEq

inductive RebalanceSpec where
  | onStart
  | monthly
  deriving DecidableEq, Repr

structure StrategyDocument where
  name : String
  randomSeed : Int
  groups : List StrategyGroup
  rebalance : RebalanceSpec
  deriving DecidableEq

section Checks

def weightTolerance : ℚ := 1 / 10 ^ 8

/-- One, up to the tolerance. -/
def isOne (total : ℚ) : Bool := |total - 1| ≤ weightTolerance

def isWeight (weight : ℚ) : Bool := 0 ≤ weight && weight ≤ 1

/-- Identifiers of groups: up to 64 letters, digits, underscores and hyphens. -/
def isGroupId (text : String) : Bool :=
  !text.toList.isEmpty && decide (text.toList.length ≤ 64) &&
    text.toList.all (fun c => c.isAlphanum || c = '_' || c = '-')

def sameSet (left right : List String) : Bool :=
  left.all (· ∈ right) && right.all (· ∈ left)

def require (holds : Bool) (refusal : Refusal) : Except Refusal PUnit :=
  if holds then .ok () else .error refusal

variable (normalizeSymbol : String → String)

/-- `value.strip().upper()` of a symbol within its bounds. -/
def acceptItem (item : FixedWeightItem) : Except Refusal FixedWeightItem := do
  require (isSymbol item.symbol) (.field "symbol")
  require (isWeight item.weight) (.field "weight")
  return { item with symbol := normalizeSymbol item.symbol }

def validateWeights (weights : List FixedWeightItem) : Except Refusal PUnit := do
  require (weights.map FixedWeightItem.symbol).Nodup
    (.value "fixed allocation symbols must be unique")
  let total := (weights.map FixedWeightItem.weight).sum
  require (isOne total) (.total "fixed allocation weights must sum to 1; got " total)

def acceptAllocation : AllocationSpec → Except Refusal AllocationSpec
  | .equalWeight => return .equalWeight
  | .fixedWeight weights => do
      require (!weights.isEmpty) (.field "weights")
      let weights ← weights.mapM (acceptItem normalizeSymbol)
      validateWeights weights
      return .fixedWeight weights

def acceptSelection : SelectionSpec → Except Refusal SelectionSpec
  | .all => return .all
  | .randomN count resample => do
      require (decide (0 < count)) (.field "count")
      return .randomN count resample

def normalizeUniverse (value : List String) : Except Refusal (List String) := do
  require (!value.isEmpty) (.field "universe")
  let normalized := value.map normalizeSymbol
  require (normalized.all (· ≠ "")) (.value "group universe symbols must not be empty")
  require normalized.Nodup (.value "group universe symbols must be unique")
  return normalized

/-- The count of a random selection, if it has one. -/
def SelectionSpec.count? : SelectionSpec → Option Int
  | .all => none
  | .randomN count _ => some count

/-- The symbols of fixed weights, if the allocation has them. -/
def AllocationSpec.symbols? : AllocationSpec → Option (List String)
  | .equalWeight => none
  | .fixedWeight weights => some (weights.map FixedWeightItem.symbol)

def validateGroup (group : StrategyGroup) : Except Refusal PUnit := do
  require (group.selection.count?.all (fun count => decide (count ≤ (group.symbols.length : Int))))
    (.value "random_n count cannot exceed group universe size")
  require (group.allocation.symbols?.all (sameSet · group.symbols))
    (.value "fixed allocation symbols must exactly match group universe")

def acceptGroup (group : StrategyGroup) : Except Refusal StrategyGroup := do
  require (isGroupId group.id) (.field "id")
  require (isWeight group.weight) (.field "weight")
  let symbols ← normalizeUniverse normalizeSymbol group.symbols
  let selection ← acceptSelection group.selection
  let allocation ← acceptAllocation normalizeSymbol group.allocation
  let accepted := { group with symbols, selection, allocation }
  validateGroup accepted
  return accepted

def validateStrategy (strategy : StrategyDocument) : Except Refusal PUnit := do
  require (strategy.groups.map StrategyGroup.id).Nodup (.value "group ids must be unique")
  let total := (strategy.groups.map StrategyGroup.weight).sum
  require (isOne total) (.total "group weights must sum to 1; got " total)

/-- The document that is built, with its symbols normalized. -/
def acceptStrategy (strategy : StrategyDocument) : Except Refusal StrategyDocument := do
  require (decide (1 ≤ strategy.name.toList.length ∧ strategy.name.toList.length ≤ 100))
    (.field "name")
  require (!strategy.groups.isEmpty) (.field "groups")
  let groups ← strategy.groups.mapM (acceptGroup normalizeSymbol)
  let accepted := { strategy with groups }
  validateStrategy accepted
  return accepted

end Checks

end V0

end RuleTrade
