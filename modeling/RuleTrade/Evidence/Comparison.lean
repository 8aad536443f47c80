import Mathlib.Data.List.Lex
import Mathlib.Data.String.Basic
import RuleTrade.Evidence.Models
import RuleTrade.Library.Alignment

/-! Comparison of two Runs: their Decision Evidence aligned by context, and what
changed from one to the other. -/

namespace RuleTrade

open Library

inductive BehaviorDifferenceKind where
  | eventPresenceChanged
  | predicateBranchChanged
  | qualificationChanged
  | rankChanged
  | candidateMembershipChanged
  | primarySelectionChanged
  | fallbackActivationChanged
  | cooldownEligibilityChanged
  | finalSelectionChanged
  | snapshotTargetsChanged
  | snapshotUsageChanged
  | sleeveContributionChanged
  | stateMutationChanged
  | finalTargetChanged
  deriving DecidableEq, Repr

inductive DifferencePresence where
  | both
  | originalOnly
  | candidateOnly
  deriving DecidableEq, Repr

structure BehaviorDifference where
  key : String
  presence : DifferencePresence
  kinds : List BehaviorDifferenceKind
  originalEvent : Option DecisionEventDetail
  candidateEvent : Option DecisionEventDetail
  deriving DecidableEq

structure DecisionContextDiff where
  sessionId : CalendarDate
  differences : List BehaviorDifference
  deriving DecidableEq

/-- A lookup in one of the tables of the comparison fails. -/
inductive ComparisonError where
  | keyMissing (key : String)
  deriving DecidableEq, Repr

section Tables

def DecisionPhase.text : DecisionPhase → String
  | .evaluation => "evaluation"
  | .selection => "selection"
  | .snapshotCommit => "snapshot_commit"
  | .portfolioExecution => "portfolio_execution"
  | .stateMutation => "state_mutation"

def EvidenceKind.text : EvidenceKind → String
  | .filter => "filter"
  | .predicate => "predicate"
  | .valueCondition => "value_condition"
  | .selection => "selection"
  | .randomSelection => "random_selection"
  | .fallback => "fallback"
  | .finalSelection => "final_selection"
  | .cooldown => "cooldown"
  | .stateMutation => "state_mutation"
  | .snapshotRefresh => "snapshot_refresh"
  | .snapshotUsage => "snapshot_usage"
  | .sleeveContribution => "sleeve_contribution"
  | .finalTargets => "final_targets"

def phaseOrder : DecisionPhase → Nat
  | .evaluation => 0
  | .selection => 1
  | .snapshotCommit => 2
  | .portfolioExecution => 3
  | .stateMutation => 4

/-- Rank of a kind. The table has no value conditions. -/
def kindOrder (kind : EvidenceKind) : Except ComparisonError Nat :=
  match kind with
  | .predicate | .filter => .ok 0
  | .randomSelection | .selection => .ok 1
  | .cooldown => .ok 2
  | .fallback => .ok 3
  | .finalSelection => .ok 4
  | .snapshotRefresh => .ok 5
  | .snapshotUsage => .ok 6
  | .sleeveContribution => .ok 7
  | .finalTargets => .ok 8
  | .stateMutation => .ok 9
  | .valueCondition => .error (.keyMissing kind.text)

/-- Asset that a record is about, where its kind has one. -/
def DecisionEvidence.subject : DecisionEvidence → String
  | .predicate evidence => evidence.asset
  | .fallback evidence => evidence.asset
  | .cooldown evidence => evidence.asset
  | .stateMutation evidence => evidence.asset
  | _ => ""

end Tables

section Classify

/-- Equality of mappings, whatever the order of their entries. -/
def sameMap {α : Type} [DecidableEq α] (d e : Dict String α) : Bool :=
  d.entries.all (fun entry => e.get? entry.1 = some entry.2) &&
    e.entries.all (fun entry => d.get? entry.1 = some entry.2)

def FilterEvidence.passes (evidence : FilterEvidence) : Dict String Bool :=
  Dict.ofList (evidence.evaluations.map (fun item => (item.asset, item.passed)))

/-- A kind of difference, when there is one. -/
def changed (kind : BehaviorDifferenceKind) (same : Bool) : List BehaviorDifferenceKind :=
  if same then [] else [kind]

/-- What changed between two records under one key. Only what decides is compared. -/
def classify (left right : DecisionEvidence) : List BehaviorDifferenceKind :=
  match left, right with
  | .predicate l, .predicate r =>
      changed .predicateBranchChanged (l.outcome = r.outcome && l.branch = r.branch)
  | .filter l, .filter r =>
      changed .qualificationChanged
        (sameMap l.passes r.passes && l.decisionUniverse = r.decisionUniverse)
  | .selection l, .selection r =>
      changed .rankChanged (l.ranked = r.ranked) ++
        changed .candidateMembershipChanged (l.candidates = r.candidates) ++
        changed .primarySelectionChanged
          (l.primarySelected = r.primarySelected && l.decision = r.decision)
  | .randomSelection l, .randomSelection r =>
      changed .primarySelectionChanged (l.selected = r.selected)
  | .fallback l, .fallback r =>
      changed .fallbackActivationChanged (l.activated = r.activated && l.asset = r.asset)
  | .cooldown l, .cooldown r =>
      changed .cooldownEligibilityChanged
        (l.signalCandidate = r.signalCandidate && l.eligible = r.eligible)
  | .finalSelection l, .finalSelection r =>
      changed .finalSelectionChanged (l.selected = r.selected && l.source = r.source)
  | .snapshotRefresh l, .snapshotRefresh r =>
      changed .snapshotTargetsChanged (sameMap l.localTargets r.localTargets)
  | .snapshotUsage l, .snapshotUsage r =>
      changed .snapshotUsageChanged (sameMap l.snapshots r.snapshots && l.executed = r.executed)
  | .sleeveContribution l, .sleeveContribution r =>
      changed .sleeveContributionChanged (l.localSelected = r.localSelected &&
        sameMap l.localTargets r.localTargets && sameMap l.scaledTargets r.scaledTargets)
  | .stateMutation l, .stateMutation r => changed .stateMutationChanged (l = r)
  | .finalTargets l, .finalTargets r =>
      changed .finalTargetChanged (l.selected = r.selected && sameMap l.targets r.targets)
  | .valueCondition _, .valueCondition _ => []
  | _, _ => [.eventPresenceChanged]

/-- What a record that only one Run has changed. -/
def presenceChangeKinds (kind : EvidenceKind) : List BehaviorDifferenceKind :=
  match kind with
  | .predicate => [.eventPresenceChanged, .predicateBranchChanged]
  | .filter => [.eventPresenceChanged, .qualificationChanged]
  | .selection | .randomSelection => [.eventPresenceChanged, .primarySelectionChanged]
  | .fallback => [.eventPresenceChanged, .fallbackActivationChanged]
  | .cooldown => [.eventPresenceChanged, .cooldownEligibilityChanged]
  | .finalSelection => [.eventPresenceChanged, .finalSelectionChanged]
  | .snapshotRefresh => [.eventPresenceChanged, .snapshotTargetsChanged]
  | .snapshotUsage => [.eventPresenceChanged, .snapshotUsageChanged]
  | .sleeveContribution => [.eventPresenceChanged, .sleeveContributionChanged]
  | .stateMutation => [.eventPresenceChanged, .stateMutationChanged]
  | .finalTargets => [.eventPresenceChanged, .finalTargetChanged]
  | .valueCondition => [.eventPresenceChanged]

end Classify

section Align

/-- Context of a record: what its key is made of, without the count. -/
structure AlignmentContext where
  sessionId : CalendarDate
  phase : DecisionPhase
  kind : EvidenceKind
  sources : List (String × String × String)
  subject : String
  deriving DecidableEq

abbrev AlignmentKey := AlignmentContext × Nat

def SourceComponentRef.triple (ref : SourceComponentRef) : String × String × String :=
  (ref.role, ref.componentId, ref.fieldPath.getD "")

abbrev LexTriple := String ×ₗ String ×ₗ String

def lexTriple (triple : String × String × String) : LexTriple :=
  toLex (triple.1, toLex (triple.2.1, triple.2.2))

def DecisionEventDetail.context (event : DecisionEventDetail) : AlignmentContext where
  sessionId := event.sessionId
  phase := event.phase
  kind := event.kind
  sources := Sequence.sortBy lexTriple (event.sourceComponents.map SourceComponentRef.triple)
  subject := event.evidence.subject

def indexEvents (events : List DecisionEventDetail) : Dict AlignmentKey DecisionEventDetail :=
  index DecisionEventDetail.context (Sequence.sortBy DecisionEventDetail.ordinal events)

/-- What keys are sorted by. -/
abbrev AlignmentSortKey :=
  CalendarDate ×ₗ Nat ×ₗ Nat ×ₗ List LexTriple ×ₗ String ×ₗ Nat

def alignmentSortKey (key : AlignmentKey) : Except ComparisonError AlignmentSortKey := do
  let kind ← kindOrder key.1.kind
  .ok (toLex (key.1.sessionId, toLex (phaseOrder key.1.phase, toLex (kind,
    toLex (key.1.sources.map lexTriple, toLex (key.1.subject, key.2))))))

def keyText (key : AlignmentKey) : String :=
  let sources := ",".intercalate (key.1.sources.map (fun (role, component, field) =>
    role ++ ":" ++ component ++ ":" ++ field))
  key.1.sessionId.isoformat ++ "|" ++ key.1.phase.text ++ "|" ++ key.1.kind.text ++ "|" ++
    sources ++ "|" ++ key.1.subject ++ "|" ++ toString key.2

/-- What changed at a key, with the session of the event there. -/
def behaviorDifference (key : AlignmentKey) :
    Option DecisionEventDetail → Option DecisionEventDetail →
      Option (CalendarDate × BehaviorDifference)
  | some before, some after =>
      let kinds := classify before.evidence after.evidence
      if kinds = [] then none
      else some (before.sessionId, ⟨keyText key, .both, kinds, some before, some after⟩)
  | some before, none =>
      some (before.sessionId,
        ⟨keyText key, .originalOnly, presenceChangeKinds before.kind, some before, none⟩)
  | none, some after =>
      some (after.sessionId,
        ⟨keyText key, .candidateOnly, presenceChangeKinds after.kind, none, some after⟩)
  | none, none => none

/-- An order in which a set of keys is run through. -/
structure SetOrder where
  iterate : List AlignmentKey → List AlignmentKey
  perm : ∀ keys, (iterate keys).Perm keys

/-- Keys in order of what they are sorted by. -/
def sortKeys (keys : List AlignmentKey) : Except ComparisonError (List AlignmentKey) := do
  let keyed ← keys.mapM (fun key => (alignmentSortKey key).map (fun rank => (rank, key)))
  .ok ((Sequence.sortBy Prod.fst keyed).map Prod.snd)

/-- The changed contexts of two Runs in order of session, and the number of keys. -/
def alignDecisionEvidence (order : SetOrder) (originalEvents candidateEvents : List DecisionEventDetail) :
    Except ComparisonError (List DecisionContextDiff × Nat) := do
  let original := indexEvents originalEvents
  let candidate := indexEvents candidateEvents
  let keys ← sortKeys (order.iterate (unionKeys original candidate))
  let found := differences behaviorDifference keys original candidate
  .ok ((groups Prod.fst found).map (fun group => ⟨group.1, group.2.map Prod.snd⟩), keys.length)

end Align

end RuleTrade
