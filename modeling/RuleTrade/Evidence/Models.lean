import RuleTrade.Library.Calendar
import RuleTrade.Library.Dict
import RuleTrade.Library.Json

/-! Structured Decision Evidence: what a Run records of each of its decisions. -/

namespace RuleTrade

open Library

structure SourceComponentRef where
  role : String
  componentId : String
  fieldPath : Option String := none
  deriving DecidableEq

inductive DecisionPhase where
  | evaluation
  | selection
  | snapshotCommit
  | portfolioExecution
  | stateMutation
  deriving DecidableEq, Repr

inductive EvidenceKind where
  | filter
  | predicate
  | valueCondition
  | selection
  | randomSelection
  | fallback
  | finalSelection
  | cooldown
  | stateMutation
  | snapshotRefresh
  | snapshotUsage
  | sleeveContribution
  | finalTargets
  deriving DecidableEq, Repr

section Payloads

/-- Comparisons that evidence can name. -/
inductive EvidenceOperator where
  | gt
  | gte
  | lt
  | lte
  deriving DecidableEq, Repr

structure AssetPredicate where
  asset : String
  observed : ℚ
  passed : Bool
  stoppedByFilter : Bool := false
  deriving DecidableEq

structure FilterClauseEvidence where
  operator : EvidenceOperator
  threshold : ℚ
  deriving DecidableEq

structure FilterEvidence where
  operator : EvidenceOperator
  threshold : ℚ
  clauses : List FilterClauseEvidence := []
  evaluations : List AssetPredicate
  decisionUniverse : Option (List String) := none
  deriving DecidableEq

inductive PredicateBranch where
  | then
  | otherwise
  deriving DecidableEq, Repr

structure PredicateEvidence where
  asset : String
  lookbackBars : Nat
  operator : EvidenceOperator
  observed : Option ℚ
  threshold : ℚ
  outcome : Bool
  branch : PredicateBranch
  deriving DecidableEq

inductive ConditionScope where
  | predicate
  | eligibility
  deriving DecidableEq, Repr

structure ValueConditionEvidence where
  scope : ConditionScope
  subject : String
  operator : EvidenceOperator
  leftDefinition : Json
  leftType : String
  leftObserved : Option ℚ
  rightDefinition : Json
  rightType : String
  rightObserved : Option ℚ
  outcome : Bool
  deriving DecidableEq

inductive SelectionStop where
  | rankCutoff
  | primarySelectionIncomplete
  | fallbackReplacement
  deriving DecidableEq, Repr

structure SelectionAssetOutcome where
  asset : String
  signalPresent : Bool
  rank : Nat
  primarySelected : Bool
  stoppingStage : Option SelectionStop := none
  deriving DecidableEq

inductive SelectionDecision where
  | executed
  | insufficient
  | skipped
  | signal
  deriving DecidableEq, Repr

structure SelectionEvidence where
  scores : Dict String ℚ
  ranked : List String
  candidates : List String
  primarySelected : List String
  decision : SelectionDecision
  requiredCount : Option Nat := none
  assetOutcomes : Option (List SelectionAssetOutcome) := none
  deriving DecidableEq

inductive Resample where
  | once
  | perEvent
  deriving DecidableEq, Repr

structure RandomSelectionEvidence where
  selectionUniverse : List String
  selected : List String
  resample : Resample
  requiredCount : Option Nat := none
  deriving DecidableEq

structure FallbackEvidence where
  asset : String
  activated : Bool
  deriving DecidableEq

inductive SelectionSource where
  | primary
  | fallback
  deriving DecidableEq, Repr

structure FinalSelectionEvidence where
  selected : List String
  source : SelectionSource
  deriving DecidableEq

structure CooldownEvidence where
  asset : String
  signalCandidate : Bool
  lastExit : Option CalendarDate
  elapsedCompletedSessions : Option Int
  requiredCompletedSessions : Int
  eligible : Bool
  stoppedByCooldown : Bool := false
  deriving DecidableEq

/-- Only the last exit is state, and only an exit changes it. -/
structure StateMutationEvidence where
  asset : String
  oldValue : Option CalendarDate
  newValue : CalendarDate
  deriving DecidableEq

inductive EvidenceSchedule where
  | monthly
  | quarterly
  deriving DecidableEq, Repr

structure SnapshotRefreshEvidence where
  schedule : EvidenceSchedule
  localTargets : Dict String ℚ
  snapshotSession : CalendarDate
  deriving DecidableEq

structure SnapshotUsageEvidence where
  schedule : EvidenceSchedule
  snapshots : Dict String CalendarDate
  executed : Bool
  deriving DecidableEq

structure SleeveContributionEvidence where
  localSelected : List String
  localTargets : Dict String ℚ
  allocation : ℚ
  scaledTargets : Dict String ℚ
  deriving DecidableEq

structure FinalTargetsEvidence where
  selected : List String
  targets : Dict String ℚ
  deriving DecidableEq

end Payloads

inductive DecisionEvidence where
  | filter (evidence : FilterEvidence)
  | predicate (evidence : PredicateEvidence)
  | valueCondition (evidence : ValueConditionEvidence)
  | selection (evidence : SelectionEvidence)
  | randomSelection (evidence : RandomSelectionEvidence)
  | fallback (evidence : FallbackEvidence)
  | finalSelection (evidence : FinalSelectionEvidence)
  | cooldown (evidence : CooldownEvidence)
  | stateMutation (evidence : StateMutationEvidence)
  | snapshotRefresh (evidence : SnapshotRefreshEvidence)
  | snapshotUsage (evidence : SnapshotUsageEvidence)
  | sleeveContribution (evidence : SleeveContributionEvidence)
  | finalTargets (evidence : FinalTargetsEvidence)
  deriving DecidableEq

def DecisionEvidence.kind : DecisionEvidence → EvidenceKind
  | .filter _ => .filter
  | .predicate _ => .predicate
  | .valueCondition _ => .valueCondition
  | .selection _ => .selection
  | .randomSelection _ => .randomSelection
  | .fallback _ => .fallback
  | .finalSelection _ => .finalSelection
  | .cooldown _ => .cooldown
  | .stateMutation _ => .stateMutation
  | .snapshotRefresh _ => .snapshotRefresh
  | .snapshotUsage _ => .snapshotUsage
  | .sleeveContribution _ => .sleeveContribution
  | .finalTargets _ => .finalTargets

/-- A record of the generated algorithm's log. -/
structure CollectedDecisionEvent where
  schemaVersion : Nat
  sequence : Nat
  sessionId : CalendarDate
  phase : DecisionPhase
  sourceComponents : List SourceComponentRef
  evidence : DecisionEvidence
  schemaVersion_known : schemaVersion = 1 ∨ schemaVersion = 2
  sequence_pos : 1 ≤ sequence
  deriving DecidableEq

/-- Id of a stored event: its number, in six digits or more. -/
def eventId (sequence : Nat) : String := "event-" ++ CalendarDate.zeroPadded 6 sequence

/-- An event as it is stored with its Run. -/
structure DecisionEventDetail where
  runId : String
  ordinal : Nat
  schemaVersion : Nat
  sessionId : CalendarDate
  phase : DecisionPhase
  sourceComponents : List SourceComponentRef
  evidence : DecisionEvidence
  deriving DecidableEq

namespace DecisionEventDetail

def id (event : DecisionEventDetail) : String := eventId event.ordinal

def kind (event : DecisionEventDetail) : EvidenceKind := event.evidence.kind

end DecisionEventDetail

def CollectedDecisionEvent.stored (runId : String) (event : CollectedDecisionEvent) :
    DecisionEventDetail where
  runId := runId
  ordinal := event.sequence
  schemaVersion := event.schemaVersion
  sessionId := event.sessionId
  phase := event.phase
  sourceComponents := event.sourceComponents
  evidence := event.evidence

end RuleTrade
