import RuleTrade.Evidence.Comparison

/-! The comparison of two Runs is total, reports each changed decision once, and is
the same the other way round. -/

namespace RuleTrade

open Library

section Decisions

theorem sameMap_iff {α : Type} [DecidableEq α] {d e : Dict String α} :
    sameMap d e = true ↔ ∀ key, d.get? key = e.get? key := by
  rw [sameMap, Bool.and_eq_true, List.all_eq_true, List.all_eq_true]
  constructor
  · rintro ⟨hLeft, hRight⟩ key
    cases hFound : d.get? key with
    | some value => exact (of_decide_eq_true (hLeft _ (Dict.mem_of_get? hFound))).symm
    | none =>
        cases hOther : e.get? key with
        | none => rfl
        | some value =>
            have hBack := of_decide_eq_true (hRight _ (Dict.mem_of_get? hOther))
            cases hFound.symm.trans hBack
  · intro h
    constructor
    · rintro ⟨key, value⟩ hMem
      exact decide_eq_true ((h key).symm.trans (Dict.get?_of_mem hMem))
    · rintro ⟨key, value⟩ hMem
      exact decide_eq_true ((h key).trans (Dict.get?_of_mem hMem))

/-- Records that decide the same. Thresholds, scores, observed values and the like
do not count. -/
def SameDecision : DecisionEvidence → DecisionEvidence → Prop
  | .predicate l, .predicate r => l.outcome = r.outcome ∧ l.branch = r.branch
  | .filter l, .filter r =>
      (∀ asset, l.passes.get? asset = r.passes.get? asset) ∧ l.decisionUniverse = r.decisionUniverse
  | .selection l, .selection r => l.ranked = r.ranked ∧ l.candidates = r.candidates ∧
      l.primarySelected = r.primarySelected ∧ l.decision = r.decision
  | .randomSelection l, .randomSelection r => l.selected = r.selected
  | .fallback l, .fallback r => l.activated = r.activated ∧ l.asset = r.asset
  | .cooldown l, .cooldown r => l.signalCandidate = r.signalCandidate ∧ l.eligible = r.eligible
  | .finalSelection l, .finalSelection r => l.selected = r.selected ∧ l.source = r.source
  | .snapshotRefresh l, .snapshotRefresh r =>
      ∀ asset, l.localTargets.get? asset = r.localTargets.get? asset
  | .snapshotUsage l, .snapshotUsage r =>
      (∀ sleeve, l.snapshots.get? sleeve = r.snapshots.get? sleeve) ∧ l.executed = r.executed
  | .sleeveContribution l, .sleeveContribution r => l.localSelected = r.localSelected ∧
      (∀ asset, l.localTargets.get? asset = r.localTargets.get? asset) ∧
      ∀ asset, l.scaledTargets.get? asset = r.scaledTargets.get? asset
  | .stateMutation l, .stateMutation r => l = r
  | .finalTargets l, .finalTargets r =>
      l.selected = r.selected ∧ ∀ asset, l.targets.get? asset = r.targets.get? asset
  | .valueCondition _, .valueCondition _ => True
  | _, _ => False

theorem changed_eq_nil {kind : BehaviorDifferenceKind} {same : Bool} :
    changed kind same = [] ↔ same = true := by
  cases same <;> simp [changed]

/-- Nothing is reported of records that decide the same, and only of them. -/
theorem classify_eq_nil_iff (left right : DecisionEvidence) :
    classify left right = [] ↔ SameDecision left right := by
  cases left <;> cases right <;>
    simp [classify, SameDecision, changed_eq_nil, sameMap_iff, and_assoc]

theorem sameMap_comm {α : Type} [DecidableEq α] (d e : Dict String α) : sameMap d e = sameMap e d :=
  Bool.and_comm _ _

theorem classify_comm (left right : DecisionEvidence) :
    classify left right = classify right left := by
  cases left <;> cases right <;> simp only [classify, eq_comm, sameMap_comm]

theorem SameDecision.refl (evidence : DecisionEvidence) : SameDecision evidence evidence := by
  cases evidence <;> simp [SameDecision]

end Decisions

section Streams

/-- Evidence of a Run as it is collected and stored: of the second version, and
numbered from one on. -/
structure EvidenceStream where
  events : List DecisionEventDetail
  schema : ∀ event ∈ events, event.schemaVersion = 2
  contiguous : events.map DecisionEventDetail.ordinal = (List.range events.length).map (· + 1)

/-- No record is of a value condition. -/
def EvidenceStream.Unconditioned (stream : EvidenceStream) : Prop :=
  ∀ event ∈ stream.events, event.kind ≠ .valueCondition

variable (stream : EvidenceStream)

theorem EvidenceStream.distinct : stream.events.Nodup := by
  have hOrdinals : (stream.events.map DecisionEventDetail.ordinal).Nodup := by
    rw [stream.contiguous]
    exact List.nodup_range.map (fun _ _ h => Nat.succ.inj h)
  exact hOrdinals.of_map _

variable {stream}

theorem mem_of_indexEvents {key : AlignmentKey} {event : DecisionEventDetail}
    (h : (indexEvents stream.events).get? key = some event) :
    event ∈ stream.events ∧ event.context = key.1 := by
  obtain ⟨hMem, hContext⟩ := label_of_index h
  exact ⟨Sequence.mem_sortBy.mp hMem, hContext⟩

/-- Each event is under one key. -/
theorem existsUnique_alignmentKey {event : DecisionEventDetail} (h : event ∈ stream.events) :
    ∃! key, (indexEvents stream.events).get? key = some event := by
  have hDistinct : (Sequence.sortBy DecisionEventDetail.ordinal stream.events).Nodup :=
    (Sequence.perm_sortBy _ _).nodup_iff.mpr stream.distinct
  exact existsUnique_key hDistinct (Sequence.mem_sortBy.mpr h)

theorem kind_of_key (h : stream.Unconditioned) {key : AlignmentKey}
    (hKey : key ∈ (indexEvents stream.events).keys) : key.1.kind ≠ .valueCondition := by
  obtain ⟨event, hEvent⟩ := Option.isSome_iff_exists.mp (Dict.get?_isSome_iff.mpr hKey)
  obtain ⟨hMem, hContext⟩ := mem_of_indexEvents hEvent
  have hKind : key.1.kind = event.kind := (congrArg AlignmentContext.kind hContext).symm
  rw [hKind]
  exact h event hMem

end Streams

section Sorting

theorem alignmentSortKey_ok {key : AlignmentKey} (h : key.1.kind ≠ .valueCondition) :
    ∃ rank, alignmentSortKey key = .ok rank := by
  have hKind : ∃ rank, kindOrder key.1.kind = .ok rank := by
    cases hCase : key.1.kind <;> first | exact ⟨_, rfl⟩ | exact absurd hCase h
  obtain ⟨rank, hRank⟩ := hKind
  exact ⟨_, by rw [alignmentSortKey, hRank]; rfl⟩

theorem mapM_sortKey_ok {keys : List AlignmentKey} (h : ∀ key ∈ keys, key.1.kind ≠ .valueCondition) :
    ∃ keyed, keys.mapM (fun key => (alignmentSortKey key).map (fun rank => (rank, key))) =
      .ok keyed ∧ keyed.map Prod.snd = keys := by
  induction keys with
  | nil => exact ⟨[], rfl, rfl⟩
  | cons key rest ih =>
      obtain ⟨rank, hRank⟩ := alignmentSortKey_ok (h key List.mem_cons_self)
      obtain ⟨keyed, hKeyed, hSame⟩ := ih (fun other hMem => h other (List.mem_cons_of_mem _ hMem))
      refine ⟨(rank, key) :: keyed, ?_, by rw [List.map_cons, hSame]⟩
      rw [List.mapM_cons, hRank, hKeyed]
      rfl

/-- Keys without value conditions are sorted. -/
theorem sortKeys_ok {keys : List AlignmentKey} (h : ∀ key ∈ keys, key.1.kind ≠ .valueCondition) :
    ∃ sorted, sortKeys keys = .ok sorted ∧ sorted.Perm keys := by
  obtain ⟨keyed, hKeyed, hSame⟩ := mapM_sortKey_ok h
  refine ⟨(Sequence.sortBy Prod.fst keyed).map Prod.snd, ?_, ?_⟩
  · rw [sortKeys, hKeyed]
    rfl
  · exact ((Sequence.perm_sortBy _ _).map _).trans (.of_eq hSame)

end Sorting

section Aligned

def DifferencePresence.exchange : DifferencePresence → DifferencePresence
  | .both => .both
  | .originalOnly => .candidateOnly
  | .candidateOnly => .originalOnly

/-- A difference with the two Runs in each other's place. -/
def BehaviorDifference.exchange (d : BehaviorDifference) : BehaviorDifference where
  key := d.key
  presence := d.presence.exchange
  kinds := d.kinds
  originalEvent := d.candidateEvent
  candidateEvent := d.originalEvent

/-- A difference is reported in the context of a session. -/
def InContext (contexts : List DecisionContextDiff) (session : CalendarDate)
    (d : BehaviorDifference) : Prop :=
  ∃ context ∈ contexts, context.sessionId = session ∧ d ∈ context.differences

/-- Contexts as an alignment makes them of what changed. -/
def contextsOf (found : List (CalendarDate × BehaviorDifference)) : List DecisionContextDiff :=
  (groups Prod.fst found).map (fun group => ⟨group.1, group.2.map Prod.snd⟩)

theorem inContext_contextsOf {found : List (CalendarDate × BehaviorDifference)}
    {session : CalendarDate} {d : BehaviorDifference} :
    InContext (contextsOf found) session d ↔ (session, d) ∈ found := by
  constructor
  · rintro ⟨context, hContext, rfl, hDifference⟩
    obtain ⟨⟨g, group⟩, hGroup, rfl⟩ := List.mem_map.mp hContext
    obtain ⟨-, rfl⟩ := mem_groups.mp hGroup
    obtain ⟨⟨session, d⟩, hItem, rfl⟩ := List.mem_map.mp hDifference
    obtain ⟨hMem, hSession⟩ := List.mem_filter.mp hItem
    exact of_decide_eq_true hSession ▸ hMem
  · intro hMem
    refine ⟨_, List.mem_map_of_mem (mem_groups.mpr ⟨List.mem_map_of_mem hMem, rfl⟩), rfl, ?_⟩
    exact List.mem_map.mpr ⟨(session, d), List.mem_filter.mpr ⟨hMem, decide_eq_true rfl⟩, rfl⟩

/-- The same sessions and keys, with the Runs in each other's place. -/
def Exchanged (contexts contexts' : List DecisionContextDiff) : Prop :=
  List.Forall₂ (fun context context' => context'.sessionId = context.sessionId ∧
    context'.differences.Perm (context.differences.map BehaviorDifference.exchange))
    contexts contexts'

theorem exchanged_contextsOf {found found' : List (CalendarDate × BehaviorDifference)}
    (h : found'.Perm (found.map (fun item => (item.1, item.2.exchange)))) :
    Exchanged (contextsOf found) (contextsOf found') := by
  unfold Exchanged contextsOf
  rw [List.forall₂_map_left_iff, List.forall₂_map_right_iff]
  refine (groups_perm h (fun _ => rfl)).imp (fun group group' hGroup => ⟨hGroup.1, ?_⟩)
  have hMapped := hGroup.2.map Prod.snd
  show (group'.2.map Prod.snd).Perm ((group.2.map Prod.snd).map BehaviorDifference.exchange)
  rw [List.map_map] at hMapped ⊢
  exact hMapped

/-- What two Runs have under one key comes back exchanged when they are. -/
theorem behaviorDifference_exchange {original candidate : EvidenceStream} (key : AlignmentKey) :
    behaviorDifference key ((indexEvents candidate.events).get? key)
        ((indexEvents original.events).get? key) =
      (behaviorDifference key ((indexEvents original.events).get? key)
        ((indexEvents candidate.events).get? key)).map (fun item => (item.1, item.2.exchange)) := by
  cases hBefore : (indexEvents original.events).get? key with
  | none => cases (indexEvents candidate.events).get? key <;> rfl
  | some before =>
      cases hAfter : (indexEvents candidate.events).get? key with
      | none => rfl
      | some after =>
          have hSession : after.sessionId = before.sessionId :=
            (congrArg AlignmentContext.sessionId (mem_of_indexEvents hAfter).2).trans
              (congrArg AlignmentContext.sessionId (mem_of_indexEvents hBefore).2).symm
          simp only [behaviorDifference, classify_comm after.evidence before.evidence, hSession]
          split <;> rfl

/-- What changed from one Run to another. -/
def changes (keys : List AlignmentKey) (original candidate : EvidenceStream) :
    List (CalendarDate × BehaviorDifference) :=
  differences behaviorDifference keys (indexEvents original.events) (indexEvents candidate.events)

theorem alignDecisionEvidence_ok {original candidate : EvidenceStream} (order : SetOrder)
    (hOriginal : original.Unconditioned) (hCandidate : candidate.Unconditioned) :
    ∃ keys, keys.Perm (unionKeys (indexEvents original.events) (indexEvents candidate.events)) ∧
      alignDecisionEvidence order original.events candidate.events =
        .ok (contextsOf (changes keys original candidate), keys.length) := by
  have hKinds : ∀ key ∈ order.iterate (unionKeys (indexEvents original.events)
      (indexEvents candidate.events)), key.1.kind ≠ .valueCondition := by
    intro key hKey
    rcases mem_unionKeys.mp ((order.perm _).mem_iff.mp hKey) with hMem | hMem
    · exact kind_of_key hOriginal hMem
    · exact kind_of_key hCandidate hMem
  obtain ⟨keys, hSorted, hPerm⟩ := sortKeys_ok hKinds
  refine ⟨keys, hPerm.trans (order.perm _), ?_⟩
  rw [alignDecisionEvidence, hSorted]
  rfl

/-- Every event of both Runs is accounted for, under the one key it has. -/
structure Faithful (original candidate : EvidenceStream) (contexts : List DecisionContextDiff) :
    Prop where
  originalKey : ∀ event ∈ original.events,
    ∃! key, (indexEvents original.events).get? key = some event
  candidateKey : ∀ event ∈ candidate.events,
    ∃! key, (indexEvents candidate.events).get? key = some event
  both : ∀ key before after, (indexEvents original.events).get? key = some before →
    (indexEvents candidate.events).get? key = some after →
    ((∃ d, InContext contexts before.sessionId d ∧ d.originalEvent = some before ∧
      d.candidateEvent = some after) ↔ ¬SameDecision before.evidence after.evidence)
  originalOnly : ∀ key before, (indexEvents original.events).get? key = some before →
    (indexEvents candidate.events).get? key = none →
    ∃ d, InContext contexts before.sessionId d ∧ d.presence = .originalOnly ∧
      d.originalEvent = some before
  candidateOnly : ∀ key after, (indexEvents original.events).get? key = none →
    (indexEvents candidate.events).get? key = some after →
    ∃ d, InContext contexts after.sessionId d ∧ d.presence = .candidateOnly ∧
      d.candidateEvent = some after
  nothingElse : ∀ session d, InContext contexts session d →
    ∃ key, behaviorDifference key ((indexEvents original.events).get? key)
      ((indexEvents candidate.events).get? key) = some (session, d)

theorem behaviorDifference_both {key : AlignmentKey} {x y : Option DecisionEventDetail}
    {session : CalendarDate} {d : BehaviorDifference} {before after : DecisionEventDetail}
    (h : behaviorDifference key x y = some (session, d)) (hBefore : d.originalEvent = some before)
    (hAfter : d.candidateEvent = some after) : ¬SameDecision before.evidence after.evidence := by
  rw [← classify_eq_nil_iff]
  cases x with
  | none =>
      cases y with
      | none => cases h
      | some found =>
          cases h
          cases hBefore
  | some first =>
      cases y with
      | none =>
          cases h
          cases hAfter
      | some second =>
          simp only [behaviorDifference] at h
          split at h
          · cases h
          · next hChanged =>
              cases h
              cases hBefore
              cases hAfter
              exact hChanged

theorem faithful_of_changes {original candidate : EvidenceStream} {keys : List AlignmentKey}
    (hKeys : keys.Perm (unionKeys (indexEvents original.events) (indexEvents candidate.events))) :
    Faithful original candidate (contextsOf (changes keys original candidate)) := by
  have hFound : ∀ {session d}, InContext (contextsOf (changes keys original candidate)) session d ↔
      ∃ key ∈ keys, behaviorDifference key ((indexEvents original.events).get? key)
        ((indexEvents candidate.events).get? key) = some (session, d) := by
    intro session d
    rw [inContext_contextsOf, changes, differences, List.mem_filterMap]
  have hLeft : ∀ {key event}, (indexEvents original.events).get? key = some event → key ∈ keys :=
    fun h => hKeys.mem_iff.mpr (mem_unionKeys.mpr (.inl (Dict.mem_keys_of_get? h)))
  have hRight : ∀ {key event}, (indexEvents candidate.events).get? key = some event → key ∈ keys :=
    fun h => hKeys.mem_iff.mpr (mem_unionKeys.mpr (.inr (Dict.mem_keys_of_get? h)))
  constructor
  case originalKey => exact fun event hMem => existsUnique_alignmentKey hMem
  case candidateKey => exact fun event hMem => existsUnique_alignmentKey hMem
  case both =>
    intro key before after hBefore hAfter
    constructor
    · rintro ⟨d, hReported, hFirst, hSecond⟩
      obtain ⟨other, -, hDifference⟩ := hFound.mp hReported
      exact behaviorDifference_both hDifference hFirst hSecond
    · intro hChanged
      rw [← classify_eq_nil_iff] at hChanged
      have hDifference : behaviorDifference key ((indexEvents original.events).get? key)
          ((indexEvents candidate.events).get? key) = some (before.sessionId, ⟨keyText key, .both,
            classify before.evidence after.evidence, some before, some after⟩) := by
        simp only [hBefore, hAfter, behaviorDifference, if_neg hChanged]
      exact ⟨_, hFound.mpr ⟨key, hLeft hBefore, hDifference⟩, rfl, rfl⟩
  case originalOnly =>
    intro key before hBefore hAfter
    have hDifference : behaviorDifference key ((indexEvents original.events).get? key)
        ((indexEvents candidate.events).get? key) = some (before.sessionId, ⟨keyText key,
          .originalOnly, presenceChangeKinds before.kind, some before, none⟩) := by
      rw [hBefore, hAfter]
      rfl
    exact ⟨_, hFound.mpr ⟨key, hLeft hBefore, hDifference⟩, rfl, rfl⟩
  case candidateOnly =>
    intro key after hBefore hAfter
    have hDifference : behaviorDifference key ((indexEvents original.events).get? key)
        ((indexEvents candidate.events).get? key) = some (after.sessionId, ⟨keyText key,
          .candidateOnly, presenceChangeKinds after.kind, none, some after⟩) := by
      rw [hBefore, hAfter]
      rfl
    exact ⟨_, hFound.mpr ⟨key, hRight hAfter, hDifference⟩, rfl, rfl⟩
  case nothingElse =>
    intro session d hReported
    obtain ⟨key, -, hDifference⟩ := hFound.mp hReported
    exact ⟨key, hDifference⟩

/-- A Run does not differ from itself. -/
theorem changes_self (keys : List AlignmentKey) (stream : EvidenceStream) :
    changes keys stream stream = [] := by
  rw [changes, differences, List.filterMap_eq_nil_iff]
  intro key _
  cases (indexEvents stream.events).get? key with
  | none => rfl
  | some event =>
      simp only [behaviorDifference, (classify_eq_nil_iff _ _).mpr (SameDecision.refl _), if_true]

end Aligned

section Examples

/-- Keys in the order in which they were added. -/
def insertionOrder : SetOrder := ⟨id, fun keys => .refl keys⟩

/-- A Run with one record. -/
def EvidenceStream.single (phase : DecisionPhase) (evidence : DecisionEvidence) : EvidenceStream where
  events := [{
    runId := "run"
    ordinal := 1
    schemaVersion := 2
    sessionId := ⟨2024, 1, 8⟩
    phase := phase
    sourceComponents := [⟨"predicate", "control", some "condition"⟩]
    evidence := evidence }]
  schema := fun event hMem => by
    cases List.mem_singleton.mp hMem
    rfl
  contiguous := rfl

/-- A predicate on A that held at the observed return. -/
def heldAt (observed : ℚ) : EvidenceStream :=
  .single .evaluation (.predicate ⟨"A", 5, .gt, some observed, 0, true, .then⟩)

def equalPrices : EvidenceStream :=
  .single .evaluation (.valueCondition
    ⟨.predicate, "A", .gt, .object [("kind", .text "current_price")], "money_per_share", some 5,
      .object [("kind", .text "literal")], "money_per_share", some 4, true⟩)

theorem heldAt_unconditioned (observed : ℚ) : (heldAt observed).Unconditioned := by
  intro event hMem
  cases List.mem_singleton.mp hMem
  exact fun h => by cases h

end Examples

end RuleTrade
