import RuleTrade.Strategy.Models
import RuleTrade.Library.Logged
import RuleTrade.Library.Sequence
import Mathlib.Data.List.Dedup

/-! The typed LEAN plan: what the lowerings hand to the generator. -/

namespace RuleTrade

open Library

/-- Exceptions of a compilation. Only the first is the lowering's own. -/
inductive CompileError where
  | refused (message : String)
  | assertionFailed
  | keyMissing (key : String)
  | indexOutOfRange
  | invalid (message : String)
  deriving DecidableEq, Repr

inductive LeanValueType where
  | decimal
  | percentage
  | moneyPerShare
  deriving DecidableEq, Repr

/-- What a value is read of. An asset may be missing. -/
inductive LeanSubject where
  | asset (symbol : Option String)
  | candidate
  deriving DecidableEq, Repr

inductive LeanAggregate where
  | mean
  | median
  | min
  | max
  deriving DecidableEq, Repr

mutual

inductive LeanValue where
  | literal (valueType : LeanValueType) (literal : ℚ)
  | trailingReturn (subject : LeanSubject) (observations : Nat)
  | currentPrice (subject : LeanSubject)
  | rollingPrice (subject : LeanSubject) (observations : Nat) (aggregate : LeanAggregate)
  | scale (operand : LeanValue) (factor : ℚ)
  | weightedScore (terms : List LeanScoreTerm) (policy : ScorePolicy)

inductive LeanScoreTerm where
  | mk (value : LeanValue) (weight : ℚ)

end

structure LeanComparison where
  operator : ComparisonOperator
  left : LeanValue
  right : LeanValue

structure LeanFilterClause where
  operator : ComparisonOperator
  threshold : ℚ
  deriving DecidableEq

structure LeanMomentumSelection where
  id : String
  symbols : List String
  lookbackBars : Nat
  count : Nat
  direction : SortDirection := .descending
  filterOperator : Option ComparisonOperator := none
  filterThreshold : Option ℚ := none
  filterClauses : List LeanFilterClause := []
  shortagePolicy : ShortagePolicy := .requireFull
  cooldownStateId : Option String := none
  rankingValue : Option LeanValue := none
  eligibility : List LeanComparison := []

inductive LeanWeighting where
  | equal
  | proportionalScore
  deriving DecidableEq, Repr

structure LeanTargetSleeve where
  id : String
  symbols : List String
  totalWeight : ℚ
  selectionId : Option String := none
  fallbackSymbols : List String := []
  sourceSleeveComponentId : Option String := none
  localTotalWeight : Option ℚ := none
  sourceAllocation : Option ℚ := none
  weightingMethod : LeanWeighting := .equal
  deriving DecidableEq

structure LeanSnapshotAllocation where
  snapshotId : String
  factor : ℚ
  sourceSleeveComponentId : String
  deriving DecidableEq

structure LeanTrailingReturnPredicate where
  componentId : String
  asset : String
  lookbackBars : Nat
  operator : ComparisonOperator
  threshold : ℚ
  deriving DecidableEq

structure LeanRebalance where
  id : String
  sleeveIds : List String
  snapshotAllocations : List LeanSnapshotAllocation := []
  exitStateIds : List String := []
  predicate : Option LeanTrailingReturnPredicate := none
  condition : List LeanComparison := []
  conditionThreeValued : Bool := false
  conditionUnknownPolicy : UnknownPolicy := .retain
  otherwiseSleeveIds : List String := []
  otherwiseSnapshotAllocations : List LeanSnapshotAllocation := []
  otherwiseExitStateIds : List String := []

structure LeanTargetSnapshot where
  id : String
  sleeveIds : List String
  sourceSleeveComponentId : String
  deriving DecidableEq

inductive LeanResample where
  | once
  | perEvent
  deriving DecidableEq, Repr

structure LeanRandomSelection where
  id : String
  componentId : String
  symbols : List String
  count : Nat
  resample : LeanResample
  parameterBindingsJson : String
  deriving DecidableEq

structure LeanCooldownState where
  id : String
  componentId : String
  symbols : List String
  requiredCompletedSessions : Nat
  calendarSymbol : String
  deriving DecidableEq

section Temporal

inductive LeanTemporalValueKind where
  | currentPrice (asset : String)
  | completedWeeklyPrice (asset clockId : String)
  | literal (value : ℚ)
  | remembered (memoryId : String)
  | barsSinceEvent (eventId : String)
  deriving DecidableEq

structure LeanTemporalValue where
  semanticId : String
  kind : LeanTemporalValueKind
  deriving DecidableEq

/-- A comparison, with a state it may require and an Event it may have to follow
within a number of observations. -/
structure LeanTemporalCondition where
  semanticId : String
  operator : ComparisonOperator
  left : LeanTemporalValue
  right : LeanTemporalValue
  requiredState : Option (String × String) := none
  afterEvent : Option (String × Nat) := none
  deriving DecidableEq

inductive LeanTemporalAction where
  | remember (semanticId memoryId : String) (value : LeanTemporalValue)
  | transition (semanticId stateKey : String) (fromValue : Option String) (toValue : String)
  deriving DecidableEq

inductive LeanTemporalTrigger where
  | risingEdge
  | whileTrue
  | crossesAbove
  | crossesBelow
  deriving DecidableEq, Repr

inductive LeanTemporalOccurrence where
  | every
  | first
  deriving DecidableEq, Repr

structure LeanTemporalEvent where
  semanticId : String
  statementId : String
  clockId : String
  trigger : LeanTemporalTrigger
  occurrence : LeanTemporalOccurrence
  condition : LeanTemporalCondition
  actions : List LeanTemporalAction
  deriving DecidableEq

inductive LeanTemporalLegTarget where
  | asset (ref : String)
  | selection (ref : String)
  | cash
  | retain
  deriving DecidableEq, Repr

structure LeanTemporalAllocationLeg where
  semanticId : String
  target : LeanTemporalLegTarget
  weight : Option ℚ
  deriving DecidableEq

/-- What a policy rule puts the capital into. -/
inductive LeanTemporalTarget where
  | asset (symbol : String)
  | cash
  | retain
  | portfolio (method : AllocationMethod) (legs : List LeanTemporalAllocationLeg)
  deriving DecidableEq

/-- A policy rule; the state value `*` matches every state. -/
structure LeanTemporalPolicyTarget where
  semanticId : String
  stateKey : String
  stateValue : String
  target : LeanTemporalTarget
  deriving DecidableEq

inductive LeanTemporalProfile where
  | eventStateDaily
  | eventStateMulticlock
  | composableSemanticExecution
  deriving DecidableEq, Repr

/-- Events run in order, and later ones see what earlier ones stored. -/
structure LeanTemporalProgram where
  profile : LeanTemporalProfile
  semanticId : String
  checkpointIdentity : String
  operatorVersions : List (String × String)
  clockId : String
  anchorSymbol : String
  initialState : List (String × String)
  events : List LeanTemporalEvent
  policyStatementId : String
  policyTargets : List LeanTemporalPolicyTarget
  assetUniverse : List String := []
  deriving DecidableEq

end Temporal

inductive LeanMonthBoundary where
  | start
  | end
  deriving DecidableEq, Repr

/-- Schedule of a plan event. Months and quarters trade on a day of theirs. -/
inductive LeanSchedule where
  | daily
  | monthly (day : Nat) (boundary : LeanMonthBoundary)
  | quarterly (day : Nat)
  deriving DecidableEq, Repr

/-- An event that waits for bars of its required symbols. -/
structure LeanScheduledEvent where
  id : String
  schedule : LeanSchedule
  anchorSymbol : String
  rebalanceIds : List String
  requiredSymbols : List String
  refreshIds : List String := []
  deriving DecidableEq

structure LeanPlan where
  strategyIdentity : String
  subscriptions : List String
  randomSelections : List LeanRandomSelection := []
  targetSleeves : List LeanTargetSleeve
  rebalances : List LeanRebalance
  momentumSelections : List LeanMomentumSelection := []
  targetSnapshots : List LeanTargetSnapshot := []
  monthlyEvents : List LeanScheduledEvent := []
  quarterlyEvents : List LeanScheduledEvent := []
  dailyEvents : List LeanScheduledEvent := []
  cooldownStates : List LeanCooldownState := []
  temporalProgram : Option LeanTemporalProgram := none

section Normalize

/-- Distinct strings in order. -/
def sortedSet (items : List String) : List String := Sequence.sortBy id items.dedup

@[simp] theorem mem_sortedSet {items : List String} {item : String} :
    item ∈ sortedSet items ↔ item ∈ items :=
  Sequence.mem_sortBy.trans List.mem_dedup

def uniqueById (ids : List String) (label : String) : Except CompileError PUnit :=
  if ids.Nodup then .ok () else .error (.invalid ("duplicate " ++ label ++ " id"))

def LeanSchedule.day : LeanSchedule → Nat
  | .daily => 1
  | .monthly day _ => day
  | .quarterly day => day

/-- What equivalent events of one list share. A boundary is not part of it. -/
def LeanScheduledEvent.groupKey (event : LeanScheduledEvent) : Nat × String × List String :=
  (event.schedule.day, event.anchorSymbol, event.requiredSymbols)

def LeanScheduledEvent.merge (existing event : LeanScheduledEvent) : LeanScheduledEvent :=
  { existing with
    rebalanceIds := sortedSet (existing.rebalanceIds ++ event.rebalanceIds)
    refreshIds := sortedSet (existing.refreshIds ++ event.refreshIds) }

/-- Merge events with one key into the first of them, in order of id. -/
def groupEvents (events : List LeanScheduledEvent) : List LeanScheduledEvent :=
  let grouped := (Sequence.sortBy LeanScheduledEvent.id events).foldl
    (fun (groups : Dict (Nat × String × List String) LeanScheduledEvent) event =>
      match groups.get? event.groupKey with
      | none => groups.set event.groupKey event
      | some existing => groups.set event.groupKey (existing.merge event)) Dict.empty
  Sequence.sortBy LeanScheduledEvent.id grouped.values

def LeanTemporalProgram.checkIds (program : LeanTemporalProgram) : Except CompileError PUnit := do
  uniqueById (program.events.map LeanTemporalEvent.semanticId) "temporal event"
  uniqueById (program.policyTargets.map LeanTemporalPolicyTarget.semanticId)
    "temporal policy target"

def LeanPlan.checkIds (plan : LeanPlan) : Except CompileError PUnit := do
  uniqueById (plan.randomSelections.map LeanRandomSelection.id) "random selection"
  uniqueById (plan.momentumSelections.map LeanMomentumSelection.id) "momentum selection"
  uniqueById (plan.targetSleeves.map LeanTargetSleeve.id) "target sleeve"
  uniqueById (plan.rebalances.map LeanRebalance.id) "rebalance"
  uniqueById (plan.monthlyEvents.map LeanScheduledEvent.id) "monthly event"
  uniqueById (plan.targetSnapshots.map LeanTargetSnapshot.id) "target snapshot"
  uniqueById (plan.quarterlyEvents.map LeanScheduledEvent.id) "quarterly event"
  uniqueById (plan.dailyEvents.map LeanScheduledEvent.id) "daily event"
  uniqueById (plan.cooldownStates.map LeanCooldownState.id) "cooldown state"
  match plan.temporalProgram with
  | none => .ok ()
  | some program => program.checkIds

/-- No two members of a collection share an id. -/
structure LeanPlan.DistinctIds (plan : LeanPlan) : Prop where
  randomSelections : (plan.randomSelections.map LeanRandomSelection.id).Nodup
  momentumSelections : (plan.momentumSelections.map LeanMomentumSelection.id).Nodup
  targetSleeves : (plan.targetSleeves.map LeanTargetSleeve.id).Nodup
  rebalances : (plan.rebalances.map LeanRebalance.id).Nodup
  monthlyEvents : (plan.monthlyEvents.map LeanScheduledEvent.id).Nodup
  targetSnapshots : (plan.targetSnapshots.map LeanTargetSnapshot.id).Nodup
  quarterlyEvents : (plan.quarterlyEvents.map LeanScheduledEvent.id).Nodup
  dailyEvents : (plan.dailyEvents.map LeanScheduledEvent.id).Nodup
  cooldownStates : (plan.cooldownStates.map LeanCooldownState.id).Nodup
  temporalProgram : ∀ program, plan.temporalProgram = some program → program.checkIds = .ok ()

theorem uniqueById_ok {ids : List String} {label : String} :
    uniqueById ids label = .ok () ↔ ids.Nodup := by
  unfold uniqueById
  split_ifs with hNodup
  · exact iff_of_true rfl hNodup
  · exact iff_of_false (fun h => by cases h) hNodup

theorem checkIds_ok {plan : LeanPlan} : plan.checkIds = .ok () ↔ plan.DistinctIds := by
  unfold LeanPlan.checkIds
  constructor
  · intro h
    obtain ⟨⟨⟩, hRandom, h⟩ := except_bind_ok.mp h
    obtain ⟨⟨⟩, hMomentum, h⟩ := except_bind_ok.mp h
    obtain ⟨⟨⟩, hSleeves, h⟩ := except_bind_ok.mp h
    obtain ⟨⟨⟩, hRebalances, h⟩ := except_bind_ok.mp h
    obtain ⟨⟨⟩, hMonthly, h⟩ := except_bind_ok.mp h
    obtain ⟨⟨⟩, hSnapshots, h⟩ := except_bind_ok.mp h
    obtain ⟨⟨⟩, hQuarterly, h⟩ := except_bind_ok.mp h
    obtain ⟨⟨⟩, hDaily, h⟩ := except_bind_ok.mp h
    obtain ⟨⟨⟩, hCooldown, h⟩ := except_bind_ok.mp h
    refine ⟨uniqueById_ok.mp hRandom, uniqueById_ok.mp hMomentum, uniqueById_ok.mp hSleeves,
      uniqueById_ok.mp hRebalances, uniqueById_ok.mp hMonthly, uniqueById_ok.mp hSnapshots,
      uniqueById_ok.mp hQuarterly, uniqueById_ok.mp hDaily, uniqueById_ok.mp hCooldown, ?_⟩
    intro program hProgram
    rw [hProgram] at h
    exact h
  · intro h
    rw [uniqueById_ok.mpr h.randomSelections, uniqueById_ok.mpr h.momentumSelections,
      uniqueById_ok.mpr h.targetSleeves, uniqueById_ok.mpr h.rebalances,
      uniqueById_ok.mpr h.monthlyEvents, uniqueById_ok.mpr h.targetSnapshots,
      uniqueById_ok.mpr h.quarterlyEvents, uniqueById_ok.mpr h.dailyEvents,
      uniqueById_ok.mpr h.cooldownStates]
    have hTemporal := h.temporalProgram
    cases hProgram : plan.temporalProgram with
    | none => rfl
    | some program => exact hTemporal program hProgram

/-- The plan with every collection in order of id and equivalent events merged. -/
def LeanPlan.sorted (plan : LeanPlan) : LeanPlan :=
  { plan with
    subscriptions := sortedSet plan.subscriptions
    randomSelections := Sequence.sortBy LeanRandomSelection.id plan.randomSelections
    momentumSelections := Sequence.sortBy LeanMomentumSelection.id plan.momentumSelections
    targetSleeves := Sequence.sortBy LeanTargetSleeve.id plan.targetSleeves
    rebalances := Sequence.sortBy LeanRebalance.id plan.rebalances
    monthlyEvents := groupEvents plan.monthlyEvents
    targetSnapshots := Sequence.sortBy LeanTargetSnapshot.id plan.targetSnapshots
    quarterlyEvents := groupEvents plan.quarterlyEvents
    dailyEvents := Sequence.sortBy LeanScheduledEvent.id plan.dailyEvents
    cooldownStates := Sequence.sortBy LeanCooldownState.id plan.cooldownStates }

def normalizeLeanPlan (plan : LeanPlan) : Except CompileError LeanPlan := do
  plan.checkIds
  .ok plan.sorted

end Normalize

end RuleTrade
