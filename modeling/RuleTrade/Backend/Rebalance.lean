import RuleTrade.Backend.TemporalBoundary
import RuleTrade.Execution.Statements

/-! Rebalances as the generated algorithm runs them: the test of a rebalance, the
branch it takes, and the targets it orders. -/

namespace RuleTrade

open Library

section Test

variable (market : GeneratedMarket)

/-- Comparison in which a missing side is unknown. -/
def LeanComparison.truth (comparison : LeanComparison) : Truth :=
  comparisonTruth comparison.operator (comparison.left.read market "")
    (comparison.right.read market "")

/-- Older test of one trailing return. -/
def LeanTrailingReturnPredicate.holds (predicate : LeanTrailingReturnPredicate) : Bool :=
  (market.trailingReturn predicate.asset predicate.lookbackBars).any (fun observed =>
    compareValues predicate.operator observed (market.numbers.literal predicate.threshold))

namespace LeanRebalance

variable (rebalance : LeanRebalance)

/-- The condition says no more than the older test. -/
def usesLegacyPredicate : Bool :=
  match rebalance.predicate, rebalance.condition with
  | some predicate, [comparison] =>
      match comparison.left, comparison.right with
      | .trailingReturn (.asset asset) observations, .literal _ threshold =>
          asset = some predicate.asset && observations = predicate.lookbackBars &&
            threshold = predicate.threshold && comparison.operator = predicate.operator
      | _, _ => false
  | _, _ => false

/-- Truth that a rebalance tests, if it tests one. -/
def outcome : Option Truth :=
  if !rebalance.condition.isEmpty && !rebalance.usesLegacyPredicate then
    some (if rebalance.conditionThreeValued then
        Truth.all (rebalance.condition.map (LeanComparison.truth market))
      else Truth.ofBool (rebalance.condition.all (LeanComparison.holds market "")))
  else rebalance.predicate.map (fun predicate => Truth.ofBool (predicate.holds market))

def hasOtherwise : Bool :=
  !rebalance.otherwiseSleeveIds.isEmpty || !rebalance.otherwiseSnapshotAllocations.isEmpty

/-- Branch a rebalance takes. Without a second branch a failed test orders nothing. -/
def branch : ControlBranch :=
  match rebalance.outcome market with
  | none | some .true => .thenBranch
  | some .unknown =>
      if rebalance.conditionUnknownPolicy = .otherwise && rebalance.hasOtherwise then
        .otherwiseBranch
      else .neither
  | some .false => if rebalance.hasOtherwise then .otherwiseBranch else .neither

/-- Sleeves of the branch. -/
def takenSleeves : List (List String) :=
  (rebalance.branch market).pick [rebalance.sleeveIds] [rebalance.otherwiseSleeveIds]

end LeanRebalance

end Test

section Targets

variable (market : GeneratedMarket) (plan : LeanPlan)

def LeanPlan.sleeve? (id : String) : Option LeanTargetSleeve :=
  plan.targetSleeves.find? (fun sleeve => sleeve.id = id)

def LeanPlan.selection? (id : String) : Option LeanMomentumSelection :=
  plan.momentumSelections.find? (fun selection => selection.id = id)

/-- Members of a sleeve; none when its selection orders nothing. -/
def sleeveMembers (sleeve : LeanTargetSleeve) : Option (List String) :=
  match sleeve.selectionId with
  | none => some sleeve.symbols
  | some id => do
      let selection ← plan.selection? id
      selection.rebalanceStage market sleeve.fallbackSymbols

/-- Scores by which a sleeve is weighted. -/
def sleeveScores (sleeve : LeanTargetSleeve) : Dict String ℚ :=
  match sleeve.selectionId.bind plan.selection? with
  | none => Dict.empty
  | some selection => selection.scores market

/-- Weight of a member among the members of a sleeve; none when no score is positive. -/
def memberWeight (sleeve : LeanTargetSleeve) (members : List String) (ticker : String) : Option ℚ :=
  let ctx := market.context
  let total := market.numbers.literal sleeve.totalWeight
  match sleeve.weightingMethod with
  | .equal => some (ctx.quot total members.length)
  | .proportionalScore =>
      let scores := sleeveScores market plan sleeve
      let positive := ctx.sum (members.map (fun member => max 0 (scores.getD member 0)))
      if positive ≤ 0 then none
      else some (ctx.quot (ctx.mul total (max 0 (scores.getD ticker 0))) positive)

/-- Add the targets of a sleeve. -/
def investSleeve (targets : Dict String ℚ) (id : String) : Option (Dict String ℚ) := do
  let sleeve ← plan.sleeve? id
  let members ← sleeveMembers market plan sleeve
  members.foldlM (fun targets ticker => do
    let weight ← memberWeight market plan sleeve members ticker
    some (contribute market.numbers targets ticker weight)) targets

/-- Targets of a rebalance; none when it returns before it orders. -/
def LeanRebalance.targets (rebalance : LeanRebalance) : Option (Dict String ℚ) :=
  match rebalance.branch market with
  | .thenBranch => rebalance.sleeveIds.foldlM (investSleeve market plan) Dict.empty
  | .otherwiseBranch => rebalance.otherwiseSleeveIds.foldlM (investSleeve market plan) Dict.empty
  | .neither => none

end Targets

end RuleTrade
