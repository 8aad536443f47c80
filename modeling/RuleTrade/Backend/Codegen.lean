import RuleTrade.Backend.Rebalance
import RuleTrade.Backend.Schedule

/-! The exceptions of the C# generator. What it writes is a parameter; here are
the operators it spells and the references it looks up, in its own order. -/

namespace RuleTrade

open Library

/-- The generator runs the action for each item and keeps no value. -/
def forEachOf {α : Type} (items : List α) (action : α → Except CompileError PUnit) :
    Except CompileError PUnit :=
  items.forM action

/-- C# spelling of an operator outside temporal programs. -/
def csharpOperator : ComparisonOperator → Except CompileError String
  | .gt => .ok ">"
  | .gte => .ok ">="
  | .lt => .ok "<"
  | .lte => .ok "<="
  | .eq => .error (.keyMissing "eq")
  | .neq => .error (.keyMissing "neq")

def spellOperator (operator : ComparisonOperator) : Except CompileError PUnit :=
  (csharpOperator operator).map (fun _ => ⟨⟩)

def LeanMomentumSelection.spellEligibility (s : LeanMomentumSelection) :
    Except CompileError PUnit :=
  forEachOf s.eligibility (fun comparison => spellOperator comparison.operator)

def LeanMomentumSelection.spellFilter (s : LeanMomentumSelection) : Except CompileError PUnit :=
  if s.filterClauses = [] then
    match s.filterOperator, s.filterThreshold with
    | some operator, some _ => spellOperator operator
    | _, _ => .ok ()
  else forEachOf s.filterClauses (fun clause => spellOperator clause.operator)

/-- Eligibility, or else the older filter. -/
def LeanMomentumSelection.spellExpression (s : LeanMomentumSelection) :
    Except CompileError PUnit :=
  if s.eligibility.isEmpty then s.spellFilter else s.spellEligibility

def LeanRebalance.spellTest (rebalance : LeanRebalance) : Except CompileError PUnit :=
  if !rebalance.condition.isEmpty && !rebalance.usesLegacyPredicate then
    forEachOf rebalance.condition (fun comparison => spellOperator comparison.operator)
  else
    match rebalance.predicate with
    | none => .ok ()
    | some predicate => spellOperator predicate.operator

namespace LeanPlan

variable (plan : LeanPlan)

section Policies

/-- Pipelines of a policy target that trades a portfolio. -/
def spellComposablePolicy (target : LeanTemporalPolicyTarget) : Except CompileError PUnit :=
  match target.target with
  | .portfolio _ legs => forEachOf legs (fun leg =>
      match leg.target with
      | .asset _ | .cash | .retain => .ok ()
      | .selection ref =>
          match plan.selection? ref with
          | none => .error (.invalid ("composable policy references missing Selection " ++ quoted ref))
          | some selection => selection.spellEligibility)
  | .asset _ | .cash | .retain => .ok ()

def spellTemporal : Except CompileError PUnit :=
  match plan.temporalProgram with
  | none => .ok ()
  | some temporal => forEachOf temporal.policyTargets plan.spellComposablePolicy

end Policies

section Snapshots

def spellSnapshot (snapshot : LeanTargetSnapshot) : Except CompileError PUnit :=
  match snapshot.sleeveIds with
  | [sleeveId] =>
      match plan.sleeve? sleeveId with
      | none => .error (.keyMissing sleeveId)
      | some sleeve => do
          match sleeve.selectionId with
          | none => .ok ()
          | some id =>
              match plan.selection? id with
              | none => .error (.invalid "retained target snapshot v0 requires Momentum Top N")
              | some selection => selection.spellExpression
          if sleeve.weightingMethod = .proportionalScore ∧
              (sleeve.selectionId = none ∨ sleeve.fallbackSymbols ≠ []) then
            .error (.invalid "score-proportional snapshots require a scored Selection without fallback")
          else .ok ()
  | _ => .error (.invalid "LEAN target snapshot v0 requires exactly one local target sleeve")

/-- Lookup of a snapshot by its index. -/
def findSnapshot (id : String) : Except CompileError PUnit :=
  if id ∈ plan.targetSnapshots.map LeanTargetSnapshot.id then .ok () else .error (.keyMissing id)

def findCooldown (id : String) : Except CompileError PUnit :=
  if id ∈ plan.cooldownStates.map LeanCooldownState.id then .ok ()
  else .error (.invalid "generator stopped")

end Snapshots

section Rebalances

/-- The momentum selection behind a sleeve. -/
def momentum? (sleeve : LeanTargetSleeve) : Option LeanMomentumSelection :=
  sleeve.selectionId.bind plan.selection?

def hasCooldown (sleeve : LeanTargetSleeve) : Bool :=
  (plan.momentum? sleeve).any (fun selection => selection.cooldownStateId.isSome)

def spellSelection (sleeve : LeanTargetSleeve) : Except CompileError PUnit :=
  match sleeve.selectionId with
  | none => .ok ()
  | some id =>
      if id ∈ plan.randomSelections.map LeanRandomSelection.id then .ok ()
      else
        match plan.selection? id with
        | none => .error (.keyMissing id)
        | some selection => do
            selection.spellEligibility
            if selection.filterThreshold.isSome ∨ selection.eligibility ≠ [] then
              selection.spellExpression
            match selection.cooldownStateId with
            | none => .ok ()
            | some state => plan.findCooldown state

/-- Score weights need one direct Selection with nothing else around it. -/
def spellWeights (sleeve : LeanTargetSleeve) : Except CompileError PUnit := do
  if sleeve.weightingMethod = .proportionalScore ∧
      ((plan.momentum? sleeve).isNone ∨ sleeve.fallbackSymbols ≠ [] ∨ plan.hasCooldown sleeve ∨
        sleeve.sourceSleeveComponentId.isSome) then
    .error (.invalid ("score-proportional allocation requires one direct scored Selection " ++
      "without fallback, cooldown, or Portfolio scaling"))
  if sleeve.sourceSleeveComponentId.isSome ∧ plan.hasCooldown sleeve then
    .error (.invalid "cooldown v0 does not support portfolio sleeves")

def spellSleeve (id : String) : Except CompileError PUnit :=
  match plan.sleeve? id with
  | none => .error (.keyMissing id)
  | some sleeve => do
      plan.spellSelection sleeve
      plan.spellWeights sleeve

def emitBranch (sleeveIds : List String) (snapshots : List LeanSnapshotAllocation)
    (exitStateIds : List String) : Except CompileError PUnit := do
  forEachOf snapshots (fun allocation => plan.findSnapshot allocation.snapshotId)
  forEachOf sleeveIds plan.spellSleeve
  forEachOf exitStateIds plan.findCooldown

def spellRebalance (id : String) : Except CompileError PUnit :=
  match plan.rebalances.find? (fun rebalance => rebalance.id = id) with
  | none => .error (.keyMissing id)
  | some rebalance => do
      rebalance.spellTest
      plan.emitBranch rebalance.sleeveIds rebalance.snapshotAllocations rebalance.exitStateIds
      if (rebalance.predicate.isSome ∨ rebalance.condition ≠ []) ∧ rebalance.hasOtherwise then
        plan.emitBranch rebalance.otherwiseSleeveIds rebalance.otherwiseSnapshotAllocations
          rebalance.otherwiseExitStateIds

end Rebalances

def spellCalendar : Except CompileError PUnit :=
  if 1 < (plan.cooldownStates.map LeanCooldownState.calendarSymbol).dedup.length then
    .error (.invalid "cooldown v0 requires one shared exchange calendar")
  else .ok ()

end LeanPlan

/-- Generate the algorithm of a plan, whose text is `render`. -/
def generateCsharp (render : LeanPlan → String) (plan : LeanPlan) : Except CompileError String := do
  let plan ← normalizeLeanPlan plan
  plan.spellCalendar
  forEachOf plan.targetSnapshots plan.spellSnapshot
  forEachOf plan.scheduledEvents (fun event => forEachOf event.refreshIds plan.findSnapshot)
  forEachOf plan.scheduledEvents (fun event => forEachOf event.rebalanceIds plan.spellRebalance)
  plan.spellTemporal
  .ok (render plan)

end RuleTrade
