import RuleTrade.Library.Grouping
import RuleTrade.Backend.TemporalPlan
import Mathlib.Data.Set.Basic

/-! Normalizing a plan. Sorting loses nothing and is idempotent; merging the
events of one key keeps their schedule only where the key decides it. -/

namespace RuleTrade

open Library

section SortedSet

theorem nodup_sortedSet (items : List String) : (sortedSet items).Nodup :=
  (Sequence.perm_sortBy id items.dedup).nodup_iff.mpr items.nodup_dedup

theorem sortedSet_sortedSet (items : List String) : sortedSet (sortedSet items) = sortedSet items := by
  rw [sortedSet, (nodup_sortedSet items).dedup, sortedSet, Sequence.sortBy_sortBy]

theorem sortedSet_of_perm {items others : List String} (h : items.Perm others) :
    sortedSet items = sortedSet others :=
  Sequence.sortBy_of_perm h.dedup (by simpa using items.nodup_dedup)

end SortedSet

section Merging

/-- What an event starts: its rebalances and its refreshes. -/
def LeanScheduledEvent.actionIds (event : LeanScheduledEvent) : List String :=
  event.rebalanceIds ++ event.refreshIds

@[simp] theorem merge_groupKey (existing event : LeanScheduledEvent) :
    (existing.merge event).groupKey = existing.groupKey := rfl

theorem mem_actionIds_merge {existing event : LeanScheduledEvent} {action : String} :
    action ∈ (existing.merge event).actionIds ↔
      action ∈ existing.actionIds ∨ action ∈ event.actionIds := by
  simp only [LeanScheduledEvent.actionIds, LeanScheduledEvent.merge, List.mem_append, mem_sortedSet]
  tauto

/-- A merged event is its first member with the actions of all. -/
theorem mergeAll_ok {first merged : LeanScheduledEvent} {rest : List LeanScheduledEvent}
    (h : Grouping.mergeAll LeanScheduledEvent.merge (first :: rest) = some merged) :
    merged.id = first.id ∧ merged.schedule = first.schedule ∧
      merged.groupKey = first.groupKey ∧
      ∀ action, action ∈ merged.actionIds ↔ ∃ event ∈ first :: rest, action ∈ event.actionIds := by
  cases h
  induction rest generalizing first with
  | nil => simp
  | cons event rest ih =>
      obtain ⟨hId, hSchedule, hKey, hActions⟩ := @ih (first.merge event)
      refine ⟨hId, hSchedule, hKey, fun action => ?_⟩
      rw [List.foldl_cons, hActions action]
      simp only [List.mem_cons, exists_eq_or_imp, mem_actionIds_merge, or_assoc]

variable {events : List LeanScheduledEvent}

theorem groupEvents_eq (events : List LeanScheduledEvent) :
    groupEvents events = Sequence.sortBy LeanScheduledEvent.id
      (Grouping.gather LeanScheduledEvent.groupKey LeanScheduledEvent.merge
        (Sequence.sortBy LeanScheduledEvent.id events)).values := by
  rw [groupEvents, Grouping.gather]
  congr 3
  funext groups event
  rw [Grouping.join]
  cases groups.get? event.groupKey with
  | none => rfl
  | some existing => rfl

theorem nodup_groupKey (events : List LeanScheduledEvent) :
    ((groupEvents events).map LeanScheduledEvent.groupKey).Nodup := by
  rw [groupEvents_eq]
  exact ((Sequence.perm_sortBy _ _).map _).nodup_iff.mpr (Grouping.nodup_key_gather merge_groupKey _)

/-- Merged events have distinct keys, so merging them again changes nothing. -/
theorem groupEvents_groupEvents (events : List LeanScheduledEvent) :
    groupEvents (groupEvents events) = groupEvents events := by
  have hSorted : Sequence.sortBy LeanScheduledEvent.id (groupEvents events) =
      groupEvents events := Sequence.sortBy_sortBy _ _
  rw [groupEvents_eq (groupEvents events), hSorted,
    Grouping.values_gather_of_nodup (nodup_groupKey events), hSorted]

theorem groupEvents_of_perm {others : List LeanScheduledEvent} (h : events.Perm others)
    (hIds : (events.map LeanScheduledEvent.id).Nodup) : groupEvents events = groupEvents others := by
  rw [groupEvents_eq, Sequence.sortBy_of_perm h hIds, groupEvents_eq]

/-- The event that gives a group its schedule: no member has a smaller id. -/
def Leads (events : List LeanScheduledEvent) (first event : LeanScheduledEvent) : Prop :=
  first ∈ events ∧ first.groupKey = event.groupKey ∧
    ∀ other ∈ events, other.groupKey = event.groupKey → first.id ≤ other.id

/-- The members of a group in order of id. -/
def members (events : List LeanScheduledEvent) (event : LeanScheduledEvent) :
    List LeanScheduledEvent :=
  (Sequence.sortBy LeanScheduledEvent.id events).filter (fun other => other.groupKey = event.groupKey)

theorem mem_members {event other : LeanScheduledEvent} :
    other ∈ members events event ↔ other ∈ events ∧ other.groupKey = event.groupKey := by
  simp [members, List.mem_filter, Sequence.mem_sortBy]

theorem members_congr {event other : LeanScheduledEvent} (h : other.groupKey = event.groupKey) :
    members events other = members events event := by
  rw [members, members, h]

theorem leads_of_members {event first : LeanScheduledEvent} {rest : List LeanScheduledEvent}
    (h : members events event = first :: rest) : Leads events first event := by
  have hFirst : first ∈ members events event := h ▸ List.mem_cons_self
  refine ⟨(mem_members.mp hFirst).1, (mem_members.mp hFirst).2, fun other hOther hKey => ?_⟩
  have hSorted := (Sequence.pairwise_sortBy LeanScheduledEvent.id events).filter
    (fun other => decide (other.groupKey = event.groupKey))
  have hOther : other ∈ members events event := mem_members.mpr ⟨hOther, hKey⟩
  change (members events event).Pairwise _ at hSorted
  rw [h] at hSorted hOther
  rcases List.mem_cons.mp hOther with rfl | hOther
  · exact String.le_refl _
  · exact (List.pairwise_cons.mp hSorted).1 other hOther

theorem mem_groupEvents {merged : LeanScheduledEvent} :
    merged ∈ groupEvents events ↔
      Grouping.mergeAll LeanScheduledEvent.merge (members events merged) = some merged := by
  rw [groupEvents_eq, Sequence.mem_sortBy, Grouping.mem_values_gather merge_groupKey]
  rfl

/-- The group of an event is merged into one event, which its leader leads. -/
theorem exists_mem_groupEvents {event : LeanScheduledEvent} (h : event ∈ events) :
    ∃ first merged, Leads events first event ∧ merged ∈ groupEvents events ∧
      merged.schedule = first.schedule ∧ merged.groupKey = event.groupKey ∧
      ∀ action ∈ event.actionIds, action ∈ merged.actionIds := by
  have hMember : event ∈ members events event := mem_members.mpr ⟨h, rfl⟩
  cases hMembers : members events event with
  | nil =>
      rw [hMembers] at hMember
      cases hMember
  | cons first rest =>
      have hLeads := leads_of_members hMembers
      have hMerged : Grouping.mergeAll LeanScheduledEvent.merge (first :: rest) =
          some (rest.foldl LeanScheduledEvent.merge first) := rfl
      obtain ⟨-, hSchedule, hKey, hActions⟩ := mergeAll_ok hMerged
      refine ⟨first, _, hLeads, mem_groupEvents.mpr ?_, hSchedule, hKey.trans hLeads.2.1, ?_⟩
      · rw [members_congr (hKey.trans hLeads.2.1), hMembers]
        rfl
      · intro action hAction
        exact (hActions action).mpr ⟨event, hMembers ▸ hMember, hAction⟩

theorem groupEvents_origin {merged : LeanScheduledEvent} (h : merged ∈ groupEvents events) :
    ∃ first, Leads events first merged ∧ merged.id = first.id ∧
      merged.schedule = first.schedule ∧
      ∀ action ∈ merged.actionIds, ∃ event ∈ events, event.groupKey = merged.groupKey ∧
        action ∈ event.actionIds := by
  rw [mem_groupEvents] at h
  cases hMembers : members events merged with
  | nil =>
      rw [hMembers] at h
      cases h
  | cons first rest =>
      rw [hMembers] at h
      obtain ⟨hId, hSchedule, -, hActions⟩ := mergeAll_ok h
      refine ⟨first, leads_of_members hMembers, hId, hSchedule, fun action hAction => ?_⟩
      obtain ⟨event, hEvent, hStarted⟩ := (hActions action).mp hAction
      rw [← hMembers] at hEvent
      exact ⟨event, (mem_members.mp hEvent).1, (mem_members.mp hEvent).2, hStarted⟩

/-- Two merged events of one id come from one leader, so they are one group. -/
theorem nodup_id_groupEvents (hIds : (events.map LeanScheduledEvent.id).Nodup) :
    ((groupEvents events).map LeanScheduledEvent.id).Nodup := by
  refine (nodup_groupKey events).of_map.map_on (fun x hx y hy hSame => ?_)
  obtain ⟨first, hLeads, hId, -⟩ := groupEvents_origin hx
  obtain ⟨second, hLeads', hId', -⟩ := groupEvents_origin hy
  have hLeaders : first = second :=
    List.inj_on_of_nodup_map hIds hLeads.1 hLeads'.1 (hId.symm.trans (hSame.trans hId'))
  refine List.inj_on_of_nodup_map (nodup_groupKey events) hx hy ?_
  rw [← hLeads.2.1, ← hLeads'.2.1, hLeaders]

end Merging

section Order

/-- The same plan with its collections in another order. -/
structure LeanPlan.Reordered (plan other : LeanPlan) : Prop where
  strategyIdentity : plan.strategyIdentity = other.strategyIdentity
  subscriptions : plan.subscriptions.Perm other.subscriptions
  randomSelections : plan.randomSelections.Perm other.randomSelections
  targetSleeves : plan.targetSleeves.Perm other.targetSleeves
  rebalances : plan.rebalances.Perm other.rebalances
  momentumSelections : plan.momentumSelections.Perm other.momentumSelections
  targetSnapshots : plan.targetSnapshots.Perm other.targetSnapshots
  monthlyEvents : plan.monthlyEvents.Perm other.monthlyEvents
  quarterlyEvents : plan.quarterlyEvents.Perm other.quarterlyEvents
  dailyEvents : plan.dailyEvents.Perm other.dailyEvents
  cooldownStates : plan.cooldownStates.Perm other.cooldownStates
  temporalProgram : plan.temporalProgram = other.temporalProgram

variable {plan other : LeanPlan}

theorem nodup_sortBy {α : Type} {key : α → String} {xs : List α} (h : (xs.map key).Nodup) :
    ((Sequence.sortBy key xs).map key).Nodup :=
  ((Sequence.perm_sortBy key xs).map key).nodup_iff.mpr h

theorem distinctIds_sorted (h : plan.DistinctIds) : plan.sorted.DistinctIds where
  randomSelections := nodup_sortBy h.randomSelections
  momentumSelections := nodup_sortBy h.momentumSelections
  targetSleeves := nodup_sortBy h.targetSleeves
  rebalances := nodup_sortBy h.rebalances
  monthlyEvents := nodup_id_groupEvents h.monthlyEvents
  targetSnapshots := nodup_sortBy h.targetSnapshots
  quarterlyEvents := nodup_id_groupEvents h.quarterlyEvents
  dailyEvents := nodup_sortBy h.dailyEvents
  cooldownStates := nodup_sortBy h.cooldownStates
  temporalProgram := h.temporalProgram

theorem sorted_sorted (plan : LeanPlan) : plan.sorted.sorted = plan.sorted := by
  simp only [LeanPlan.sorted, sortedSet_sortedSet, groupEvents_groupEvents, Sequence.sortBy_sortBy]

theorem sorted_of_reordered (h : plan.DistinctIds) (hOrder : plan.Reordered other) :
    plan.sorted = other.sorted := by
  simp only [LeanPlan.sorted]
  rw [hOrder.strategyIdentity, hOrder.temporalProgram, sortedSet_of_perm hOrder.subscriptions,
    Sequence.sortBy_of_perm hOrder.randomSelections h.randomSelections,
    Sequence.sortBy_of_perm hOrder.momentumSelections h.momentumSelections,
    Sequence.sortBy_of_perm hOrder.targetSleeves h.targetSleeves,
    Sequence.sortBy_of_perm hOrder.rebalances h.rebalances,
    groupEvents_of_perm hOrder.monthlyEvents h.monthlyEvents,
    Sequence.sortBy_of_perm hOrder.targetSnapshots h.targetSnapshots,
    groupEvents_of_perm hOrder.quarterlyEvents h.quarterlyEvents,
    Sequence.sortBy_of_perm hOrder.dailyEvents h.dailyEvents,
    Sequence.sortBy_of_perm hOrder.cooldownStates h.cooldownStates]

theorem distinctIds_of_reordered (h : plan.DistinctIds) (hOrder : plan.Reordered other) :
    other.DistinctIds where
  randomSelections := (hOrder.randomSelections.map _).nodup_iff.mp h.randomSelections
  momentumSelections := (hOrder.momentumSelections.map _).nodup_iff.mp h.momentumSelections
  targetSleeves := (hOrder.targetSleeves.map _).nodup_iff.mp h.targetSleeves
  rebalances := (hOrder.rebalances.map _).nodup_iff.mp h.rebalances
  monthlyEvents := (hOrder.monthlyEvents.map _).nodup_iff.mp h.monthlyEvents
  targetSnapshots := (hOrder.targetSnapshots.map _).nodup_iff.mp h.targetSnapshots
  quarterlyEvents := (hOrder.quarterlyEvents.map _).nodup_iff.mp h.quarterlyEvents
  dailyEvents := (hOrder.dailyEvents.map _).nodup_iff.mp h.dailyEvents
  cooldownStates := (hOrder.cooldownStates.map _).nodup_iff.mp h.cooldownStates
  temporalProgram := hOrder.temporalProgram ▸ h.temporalProgram

theorem normalizeLeanPlan_of_distinctIds (h : plan.DistinctIds) :
    normalizeLeanPlan plan = .ok plan.sorted := by
  rw [normalizeLeanPlan, checkIds_ok.mpr h]
  rfl

/-- A normalized plan is its own normal form. -/
theorem normalizeLeanPlan_idempotent {normal : LeanPlan} (h : normalizeLeanPlan plan = .ok normal) :
    normalizeLeanPlan normal = .ok normal := by
  obtain ⟨hIds, rfl⟩ := normalizeLeanPlan_ok h
  rw [normalizeLeanPlan_of_distinctIds (distinctIds_sorted (checkIds_ok.mp hIds)), sorted_sorted]

theorem normalizeLeanPlan_of_reordered {normal : LeanPlan} (h : normalizeLeanPlan plan = .ok normal)
    (hOrder : plan.Reordered other) : normalizeLeanPlan other = .ok normal := by
  obtain ⟨hIds, rfl⟩ := normalizeLeanPlan_ok h
  rw [checkIds_ok] at hIds
  rw [normalizeLeanPlan_of_distinctIds (distinctIds_of_reordered hIds hOrder),
    sorted_of_reordered hIds hOrder]

end Order

section Firings

/-- What starts an action: a schedule of an anchor, over bars of its symbols. -/
structure Firing where
  schedule : LeanSchedule
  anchorSymbol : String
  requiredSymbols : List String
  actionId : String
  deriving DecidableEq

def LeanScheduledEvent.firing (event : LeanScheduledEvent) (actionId : String) : Firing :=
  { schedule := event.schedule, anchorSymbol := event.anchorSymbol
    requiredSymbols := event.requiredSymbols, actionId := actionId }

def firings (events : List LeanScheduledEvent) : Set Firing :=
  {firing | ∃ event ∈ events, ∃ actionId ∈ event.actionIds, firing = event.firing actionId}

/-- Everything that the scheduled events of a plan start. -/
def LeanPlan.firings (plan : LeanPlan) : Set Firing :=
  RuleTrade.firings plan.dailyEvents ∪ RuleTrade.firings plan.monthlyEvents ∪
    RuleTrade.firings plan.quarterlyEvents

/-- An event of its collection has a schedule of its kind. -/
structure LeanPlan.KindsAgree (plan : LeanPlan) : Prop where
  daily : ∀ event ∈ plan.dailyEvents, event.schedule = .daily
  monthly : ∀ event ∈ plan.monthlyEvents, ∃ day boundary, event.schedule = .monthly day boundary
  quarterly : ∀ event ∈ plan.quarterlyEvents, ∃ day, event.schedule = .quarterly day

/-- Every event that starts something has the schedule of the leader of its group. -/
def FollowsLeader (events : List LeanScheduledEvent) : Prop :=
  ∀ event ∈ events, event.actionIds ≠ [] → ∀ first, Leads events first event →
    first.schedule = event.schedule

variable {events : List LeanScheduledEvent} {plan normal : LeanPlan}

theorem firings_of_perm {others : List LeanScheduledEvent} (h : events.Perm others) :
    firings events = firings others := by
  ext firing
  simp only [firings, Set.mem_ofPred_eq, h.mem_iff]

theorem firing_eq {event other : LeanScheduledEvent} (hSchedule : event.schedule = other.schedule)
    (hKey : event.groupKey = other.groupKey) (actionId : String) :
    event.firing actionId = other.firing actionId := by
  simp only [LeanScheduledEvent.groupKey, Prod.mk.injEq] at hKey
  rw [LeanScheduledEvent.firing, LeanScheduledEvent.firing, hSchedule, hKey.2.1, hKey.2.2]

theorem groupKey_of_firing {event other : LeanScheduledEvent} {actionId otherId : String}
    (h : event.firing actionId = other.firing otherId) :
    event.schedule = other.schedule ∧ event.groupKey = other.groupKey ∧ actionId = otherId := by
  simp only [LeanScheduledEvent.firing, Firing.mk.injEq] at h
  obtain ⟨hSchedule, hAnchor, hSymbols, hAction⟩ := h
  refine ⟨hSchedule, ?_, hAction⟩
  rw [LeanScheduledEvent.groupKey, LeanScheduledEvent.groupKey, hSchedule, hAnchor, hSymbols]

/-- Where members follow their leader, merging keeps every firing. -/
theorem firings_groupEvents (h : FollowsLeader events) :
    firings (groupEvents events) = firings events := by
  ext firing
  constructor
  · rintro ⟨merged, hMerged, actionId, hAction, rfl⟩
    obtain ⟨first, hLeads, -, hSchedule, hOrigin⟩ := groupEvents_origin hMerged
    obtain ⟨event, hEvent, hKey, hStarted⟩ := hOrigin actionId hAction
    have hFollows : first.schedule = event.schedule := by
      apply h event hEvent (List.ne_nil_of_mem hStarted) first
      rw [Leads, hKey]
      exact hLeads
    exact ⟨event, hEvent, actionId, hStarted, firing_eq (hSchedule.trans hFollows) hKey.symm _⟩
  · rintro ⟨event, hEvent, actionId, hAction, rfl⟩
    obtain ⟨first, merged, hLeads, hMerged, hSchedule, hKey, hActions⟩ :=
      exists_mem_groupEvents hEvent
    have hFollows := h event hEvent (List.ne_nil_of_mem hAction) first hLeads
    exact ⟨merged, hMerged, actionId, hActions actionId hAction,
      (firing_eq (hSchedule.trans hFollows) hKey actionId).symm⟩

/-- An event that does not follow its leader loses what it starts. -/
theorem followsLeader_of_firings (hIds : (events.map LeanScheduledEvent.id).Nodup)
    (h : firings events ⊆ firings (groupEvents events)) : FollowsLeader events := by
  intro event hEvent hStarts first hLeads
  obtain ⟨actionId, hAction⟩ := List.exists_mem_of_ne_nil _ hStarts
  obtain ⟨merged, hMerged, otherId, -, hFiring⟩ := h ⟨event, hEvent, actionId, hAction, rfl⟩
  obtain ⟨hSchedule, hKey, -⟩ := groupKey_of_firing hFiring
  obtain ⟨leader, hLeader, -, hMergedSchedule, -⟩ := groupEvents_origin hMerged
  have hSame : first = leader := by
    -- each has the least id of the one group
    apply List.inj_on_of_nodup_map hIds hLeads.1 hLeader.1
    apply String.le_antisymm
    · exact hLeads.2.2 leader hLeader.1 (hLeader.2.1.trans hKey.symm)
    · exact hLeader.2.2 first hLeads.1 (hLeads.2.1.trans hKey)
  rw [hSame, ← hMergedSchedule, hSchedule]

theorem followsLeader_of_quarterly
    (h : ∀ event ∈ events, ∃ day, event.schedule = .quarterly day) : FollowsLeader events := by
  intro event hEvent _ first hLeads
  obtain ⟨day, hDay⟩ := h event hEvent
  obtain ⟨day', hDay'⟩ := h first hLeads.1
  have hKey := congrArg Prod.fst hLeads.2.1
  simp only [LeanScheduledEvent.groupKey, hDay, hDay', LeanSchedule.day] at hKey
  rw [hDay, hDay', hKey]

theorem firings_sorted (hKinds : plan.KindsAgree) :
    plan.sorted.firings = RuleTrade.firings plan.dailyEvents ∪
      RuleTrade.firings (groupEvents plan.monthlyEvents) ∪
      RuleTrade.firings plan.quarterlyEvents := by
  show RuleTrade.firings (Sequence.sortBy LeanScheduledEvent.id plan.dailyEvents) ∪
      RuleTrade.firings (groupEvents plan.monthlyEvents) ∪
      RuleTrade.firings (groupEvents plan.quarterlyEvents) = _
  rw [firings_of_perm (Sequence.perm_sortBy _ plan.dailyEvents),
    firings_groupEvents (followsLeader_of_quarterly hKinds.quarterly)]

/-- The firings of another kind are not those of a month. -/
theorem firings_sorted_iff (hKinds : plan.KindsAgree)
    (hIds : (plan.monthlyEvents.map LeanScheduledEvent.id).Nodup) :
    plan.sorted.firings = plan.firings ↔ FollowsLeader plan.monthlyEvents := by
  rw [firings_sorted hKinds]
  constructor
  · intro h
    apply followsLeader_of_firings hIds
    rintro _ ⟨event, hEvent, actionId, hAction, rfl⟩
    obtain ⟨day, boundary, hSchedule⟩ := hKinds.monthly event hEvent
    have hMem : event.firing actionId ∈ plan.firings :=
      Or.inl (Or.inr ⟨event, hEvent, actionId, hAction, rfl⟩)
    rw [← h] at hMem
    rcases hMem with (⟨other, hOther, otherId, -, hFiring⟩ | hMonthly) |
      ⟨other, hOther, otherId, -, hFiring⟩
    · have hSame := (groupKey_of_firing hFiring).1
      rw [hSchedule, hKinds.daily other hOther] at hSame
      cases hSame
    · exact hMonthly
    · have hSame := (groupKey_of_firing hFiring).1
      obtain ⟨otherDay, hQuarter⟩ := hKinds.quarterly other hOther
      rw [hSchedule, hQuarter] at hSame
      cases hSame
  · intro h
    rw [firings_groupEvents h]
    rfl

/-- Normalizing a plan is idempotent and blind to the order of its collections. It
keeps what starts each action exactly when the members of a merged monthly event
share its boundary. -/
theorem normalizeLeanPlan_faithful_iff (hKinds : plan.KindsAgree)
    (h : normalizeLeanPlan plan = .ok normal) :
    (normalizeLeanPlan normal = .ok normal ∧
      (∀ other, plan.Reordered other → normalizeLeanPlan other = .ok normal) ∧
      normal.firings = plan.firings) ↔ FollowsLeader plan.monthlyEvents := by
  obtain ⟨hIds, hNormal⟩ := normalizeLeanPlan_ok h
  rw [← firings_sorted_iff hKinds (checkIds_ok.mp hIds).monthlyEvents, ← hNormal]
  constructor
  · intro hFaithful
    exact hFaithful.2.2
  · intro hFirings
    exact ⟨normalizeLeanPlan_idempotent h, fun other => normalizeLeanPlan_of_reordered h, hFirings⟩

/-- Two events of the first trading day, the second at a boundary of choice. -/
def boundaryPlan (boundary : LeanMonthBoundary) : LeanPlan where
  strategyIdentity := "strategy"
  subscriptions := ["SPY"]
  targetSleeves := []
  rebalances := []
  monthlyEvents :=
    [{ id := "event.close", schedule := .monthly 1 boundary, anchorSymbol := "SPY"
       rebalanceIds := ["rebalance.close"], requiredSymbols := ["SPY"] },
     { id := "event.begin", schedule := .monthly 1 .start, anchorSymbol := "SPY"
       rebalanceIds := ["rebalance.begin"], requiredSymbols := ["SPY"] }]

theorem boundaryPlan_distinctIds (boundary : LeanMonthBoundary) :
    (boundaryPlan boundary).DistinctIds where
  randomSelections := List.nodup_nil
  momentumSelections := List.nodup_nil
  targetSleeves := List.nodup_nil
  rebalances := List.nodup_nil
  monthlyEvents := by simp [boundaryPlan]
  targetSnapshots := List.nodup_nil
  quarterlyEvents := List.nodup_nil
  dailyEvents := List.nodup_nil
  cooldownStates := List.nodup_nil
  temporalProgram := fun program hProgram => by cases hProgram

theorem boundaryPlan_kindsAgree (boundary : LeanMonthBoundary) :
    (boundaryPlan boundary).KindsAgree where
  daily := fun event hEvent => by cases hEvent
  monthly := by simp [boundaryPlan]
  quarterly := fun event hEvent => by cases hEvent

/-- Both at the start of the month: merged, and each action still starts then. -/
theorem normalizeLeanPlan_same_boundary :
    normalizeLeanPlan (boundaryPlan .start).sorted = .ok (boundaryPlan .start).sorted ∧
      (∀ other, (boundaryPlan .start).Reordered other →
        normalizeLeanPlan other = .ok (boundaryPlan .start).sorted) ∧
      (boundaryPlan .start).sorted.firings = (boundaryPlan .start).firings := by
  apply (normalizeLeanPlan_faithful_iff (boundaryPlan_kindsAgree .start)
    (normalizeLeanPlan_of_distinctIds (boundaryPlan_distinctIds .start))).mpr
  have hStart : ∀ event ∈ (boundaryPlan .start).monthlyEvents,
      event.schedule = .monthly 1 .start := by simp [boundaryPlan]
  intro event hEvent _ first hLeads
  rw [hStart event hEvent, hStart first hLeads.1]

/-- One at the start and one at the end: the later id fires at the boundary of the
smaller one. -/
theorem month_end_lost :
    ¬∀ plan normal : LeanPlan, plan.KindsAgree → normalizeLeanPlan plan = .ok normal →
      normalizeLeanPlan normal = .ok normal ∧
        (∀ other, plan.Reordered other → normalizeLeanPlan other = .ok normal) ∧
        normal.firings = plan.firings := by
  intro h
  have hFollows := (normalizeLeanPlan_faithful_iff (boundaryPlan_kindsAgree .end)
    (normalizeLeanPlan_of_distinctIds (boundaryPlan_distinctIds .end))).mp
      (h _ _ (boundaryPlan_kindsAgree .end)
        (normalizeLeanPlan_of_distinctIds (boundaryPlan_distinctIds .end)))
  have hLeads : Leads (boundaryPlan .end).monthlyEvents
      { id := "event.begin", schedule := .monthly 1 .start, anchorSymbol := "SPY"
        rebalanceIds := ["rebalance.begin"], requiredSymbols := ["SPY"] }
      { id := "event.close", schedule := .monthly 1 .end, anchorSymbol := "SPY"
        rebalanceIds := ["rebalance.close"], requiredSymbols := ["SPY"] } := by
    refine ⟨List.mem_cons_of_mem _ List.mem_cons_self, rfl, fun other hOther _ => ?_⟩
    simp only [boundaryPlan, List.mem_cons, List.not_mem_nil, or_false] at hOther
    rcases hOther with rfl | rfl
    · decide
    · exact String.le_refl _
  have hSchedule := hFollows _ List.mem_cons_self (List.cons_ne_nil _ _) _ hLeads
  cases hSchedule

end Firings

end RuleTrade
