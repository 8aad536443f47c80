import RuleTrade.Execution.Run
import RuleTrade.Properties.EventEdges

/-! Occurrence policies over runs. The count of an Event is the number of its
qualifying edges so far, and its cutoff is that of the last decision that ran its
body. -/

namespace RuleTrade

open Library

section Edges

/-- Entered statements of a decision, each with the runtime it found. -/
abbrev Entries := List (Runtime × ProgramStatement)

/-- An Event that is due has an edge of its trigger. -/
def EventDefinition.qualifies (event : EventDefinition) (d : Decision) (r : Runtime) : Bool :=
  d.due (some event.clockId) = .ok true &&
    (match (currentTruth d r event).result, previousTruth d r event with
    | .ok current, .ok previous => event.trigger.fires previous current
    | _, _ => false)

/-- The edge also runs the body. -/
def EventDefinition.executes (event : EventDefinition) (d : Decision) (r : Runtime) : Bool :=
  event.qualifies d r && event.occurrence.selects (event.count r + 1)

/-- An entry is a qualifying edge of the Event with this id. -/
def qualifiedBy (d : Decision) (eventId : String) (entry : Runtime × ProgramStatement) : Bool :=
  match entry.2 with
  | .onEvent _ event _ => event.semanticId = eventId && event.qualifies d entry.1
  | _ => false

def executedBy (d : Decision) (eventId : String) (entry : Runtime × ProgramStatement) : Bool :=
  match entry.2 with
  | .onEvent _ event _ => event.semanticId = eventId && event.executes d entry.1
  | _ => false

variable {d : Decision} {r r' : Runtime} {s : ProgramStatement} {body : List ProgramStatement}

theorem qualifiedBy_onEvent (eventId semanticId : String) (event : EventDefinition)
    (body : List ProgramStatement) :
    qualifiedBy d eventId (r, .onEvent semanticId event body) =
      (decide (event.semanticId = eventId) && event.qualifies d r) := rfl

theorem executedBy_onEvent (eventId semanticId : String) (event : EventDefinition)
    (body : List ProgramStatement) :
    executedBy d eventId (r, .onEvent semanticId event body) =
      (decide (event.semanticId = eventId) && event.executes d r) := rfl

theorem qualifies_of_evaluated {event : EventDefinition} {previous current : Truth}
    (due : d.due (some event.clockId) = .ok true)
    (now : (currentTruth d r event).result = .ok current)
    (before : previousTruth d r event = .ok previous) :
    event.qualifies d r = event.trigger.fires previous current := by
  rw [EventDefinition.qualifies, due, now, before]
  rfl

theorem not_qualifies_of_notDue {event : EventDefinition}
    (due : d.due (some event.clockId) = .ok false) : event.qualifies d r = false := by
  rw [EventDefinition.qualifies, due]
  rfl

/-- A statement that leaves both maps alone is no edge. -/
theorem qualifiedBy_of_notDue (eventId : String) (r : Runtime) (due : d.due s.clockId = .ok false) :
    qualifiedBy d eventId (r, s) = false ∧ executedBy d eventId (r, s) = false := by
  cases s with
  | onEvent semanticId event body =>
      simp only [qualifiedBy, executedBy, EventDefinition.executes, not_qualifies_of_notDue due,
        Bool.false_and, Bool.and_false, and_self]
  | _ => exact ⟨rfl, rfl⟩

/-- Recording an Event counts its edge, and anchors it where the body runs. -/
theorem occurrence_of_event (eventId : String) {event : EventDefinition} {previous current : Truth}
    (semanticId : String) (body : List ProgramStatement)
    (hQualifies : event.qualifies d r = event.trigger.fires previous current) :
    (event.counted r previous current).getD eventId 0 = r.eventCounts.getD eventId 0 +
        (if qualifiedBy d eventId (r, .onEvent semanticId event body) then 1 else 0) ∧
      (event.anchored d r previous current).get? eventId =
        if executedBy d eventId (r, .onEvent semanticId event body) then some (d.cutoff : Int)
        else r.eventCutoffs.get? eventId := by
  rw [qualifiedBy_onEvent, executedBy_onEvent, EventDefinition.executes, hQualifies]
  constructor
  · rw [EventDefinition.counted]
    by_cases hFires : event.trigger.fires previous current = true
    · rw [if_pos hFires, Dict.getD_set, hFires]
      by_cases hId : event.semanticId = eventId
      · simp [EventDefinition.count, hId]
      · simp [hId, Ne.symm hId]
    · simp [hFires]
  · rw [EventDefinition.anchored]
    by_cases hTriggers : event.triggers r previous current = true
    · rw [if_pos hTriggers, Dict.get?_set]
      rw [EventDefinition.triggers] at hTriggers
      rw [hTriggers]
      by_cases hId : event.semanticId = eventId
      · simp [hId]
      · simp [hId, Ne.symm hId]
    · rw [if_neg hTriggers]
      rw [EventDefinition.triggers] at hTriggers
      simp [hTriggers]

/-- What entering any statement does to the two maps. -/
theorem occurrence_of_enter (eventId : String) (h : enterState d r s = .ok (r', body)) :
    r'.eventCounts.getD eventId 0 =
      r.eventCounts.getD eventId 0 + (if qualifiedBy d eventId (r, s) then 1 else 0) ∧
    r'.eventCutoffs.get? eventId =
      if executedBy d eventId (r, s) then some (d.cutoff : Int) else r.eventCutoffs.get? eventId := by
  cases effect_of_enter h with
  | notDue s due =>
      obtain ⟨hQualified, hExecuted⟩ := qualifiedBy_of_notDue eventId r due
      rw [hQualified, hExecuted]
      exact ⟨(add_zero _).symm, rfl⟩
  | evented semanticId event statements due now before =>
      exact occurrence_of_event eventId semanticId statements
        (qualifies_of_evaluated due now before)
  | allocated effect =>
      rw [effect.sameMaps.eventCounts, effect.sameMaps.eventCutoffs]
      exact ⟨(add_zero _).symm, rfl⟩
  | guarded effect =>
      rw [effect.sameMaps.eventCounts, effect.sameMaps.eventCutoffs]
      exact ⟨(add_zero _).symm, rfl⟩
  | _ => exact ⟨(add_zero _).symm, rfl⟩

/-- What the entries of a decision do to the two maps. -/
theorem occurrence_of_steps (eventId : String) {start final : Runtime}
    {agenda waiting : List ProgramStatement} {entries : Entries}
    (h : Agenda.Steps (enterState d) start agenda entries final waiting) :
    final.eventCounts.getD eventId 0 =
      start.eventCounts.getD eventId 0 + entries.countP (qualifiedBy d eventId) ∧
    final.eventCutoffs.get? eventId =
      if entries.any (executedBy d eventId) then some (d.cutoff : Int)
      else start.eventCutoffs.get? eventId := by
  induction h with
  | refl => exact ⟨(add_zero _).symm, rfl⟩
  | @step start next final first body rest waiting entries hEnter hLater ih =>
      obtain ⟨hCount, hCutoff⟩ := occurrence_of_enter eventId hEnter
      rw [ih.1, ih.2, hCount, hCutoff, List.countP_cons, List.any_cons]
      constructor
      · cases qualifiedBy d eventId (start, first) <;> simp
        omega
      · cases executedBy d eventId (start, first) <;>
          cases entries.any (executedBy d eventId) <;> rfl

end Edges

section Runs

variable {environment : Environment} {program : SemanticProgram} {history : History}

/-- Decisions of a run with what each entered, the latest first. -/
abbrev Decided := List (Decision × Entries)

/-- The decisions of a run from an empty checkpoint, with all that they entered. -/
def DecidedBy (environment : Environment) (program : SemanticProgram) : History → Decided → Prop
  | [], decided => decided = []
  | (cutoff, _) :: earlier, decided =>
      ∃ d entries before, decided = (d, entries) :: before ∧
        EnteredBy environment program (some cutoff) (handover {} earlier) d entries ∧
        DecidedBy environment program earlier before

/-- A point of a run: executions that are finished, and a decision on top of them
that has entered some statements and is about to go on, or is done. -/
def AtPoint (environment : Environment) (program : SemanticProgram) (decided : Decided)
    (r : Runtime) : Prop :=
  ∃ (history : History) (cutoff : Nat) (inRange : cutoff < environment.dates.length)
    (entries : Entries) (before : Decided) (waiting : List ProgramStatement),
    ProgramRun environment program {} history ∧ DecidedBy environment program history before ∧
      decided = (nextDecision environment program {} history cutoff inRange, entries) :: before ∧
      Agenda.Steps (enterState (nextDecision environment program {} history cutoff inRange))
        (nextRuntime program {} history) program.statements entries r waiting

/-- Qualifying edges of an Event over decisions. -/
def edges (eventId : String) (decided : Decided) : Nat :=
  (decided.map (fun decision => decision.2.countP (qualifiedBy decision.1 eventId))).sum

/-- Row of the latest decision that ran a body of the Event. -/
def lastExecuted (eventId : String) (decided : Decided) : Option Int :=
  (decided.find? (fun decision => decision.2.any (executedBy decision.1 eventId))).map
    (fun decision => (decision.1.cutoff : Int))

theorem edges_cons (eventId : String) (d : Decision) (entries : Entries) (earlier : Decided) :
    edges eventId ((d, entries) :: earlier) =
      entries.countP (qualifiedBy d eventId) + edges eventId earlier := by
  rw [edges, List.map_cons, List.sum_cons]
  rfl

theorem lastExecuted_cons (eventId : String) (d : Decision) (entries : Entries)
    (earlier : Decided) :
    lastExecuted eventId ((d, entries) :: earlier) =
      if entries.any (executedBy d eventId) then some (d.cutoff : Int)
      else lastExecuted eventId earlier := by
  rw [lastExecuted, List.find?_cons]
  cases entries.any (executedBy d eventId) <;> rfl

/-- The checkpoint of a run has the counts and the rows of its decisions. -/
theorem occurrence_of_run (eventId : String) {decided : Decided}
    (hRun : ProgramRun environment program {} history)
    (hDecided : DecidedBy environment program history decided) :
    (handover {} history).eventCounts.getD eventId 0 = edges eventId decided ∧
      (handover {} history).eventCutoffs.get? eventId = lastExecuted eventId decided := by
  induction hRun generalizing decided with
  | start =>
      obtain rfl : decided = [] := hDecided
      exact ⟨rfl, rfl⟩
  | @next history prior cutoff later revisionId result executed ih =>
      obtain ⟨d, entries, before, rfl, hEntered, hBefore⟩ := hDecided
      obtain ⟨-, row, inRange, hRow, -, trace, final, observations, hTraced, rfl⟩ :=
        executeIn_ok executed
      obtain ⟨rfl, rfl⟩ := hEntered.unique ⟨row, inRange, final, hRow, rfl, hTraced⟩
      obtain ⟨hCount, hCutoff⟩ := ih hBefore
      obtain ⟨hCounted, hAnchored⟩ := occurrence_of_steps eventId hTraced
      rw [edges_cons, lastExecuted_cons, ← hCutoff]
      refine ⟨hCounted.trans ?_, hAnchored⟩
      show (handover {} history).eventCounts.getD eventId 0 + _ = _
      rw [hCount]
      push_cast
      omega

theorem occurrence_at_point (eventId : String) {decided : Decided} {r : Runtime}
    (h : AtPoint environment program decided r) :
    r.eventCounts.getD eventId 0 = edges eventId decided ∧
      r.eventCutoffs.get? eventId = lastExecuted eventId decided := by
  obtain ⟨history, cutoff, inRange, entries, before, waiting, hRun, hDecided, rfl, hSteps⟩ := h
  obtain ⟨hCount, hCutoff⟩ := occurrence_of_run eventId hRun hDecided
  obtain ⟨hCounted, hAnchored⟩ := occurrence_of_steps eventId hSteps
  rw [edges_cons, lastExecuted_cons, ← hCutoff]
  refine ⟨hCounted.trans ?_, hAnchored⟩
  show (handover {} history).eventCounts.getD eventId 0 + _ = _
  rw [hCount]
  push_cast
  omega

/-- An earlier decision of a run stands on the run before it. -/
theorem decision_of_run {later earlier decided : Decided} {d : Decision} {entries : Entries}
    (hRun : ProgramRun environment program {} history)
    (hDecided : DecidedBy environment program history decided)
    (hSplit : decided = later ++ (d, entries) :: earlier) :
    ∃ (before : History) (cutoff : Nat), ProgramRun environment program {} before ∧
      DecidedBy environment program before earlier ∧
      EnteredBy environment program (some cutoff) (handover {} before) d entries := by
  induction hRun generalizing later decided with
  | start =>
      obtain rfl : decided = [] := hDecided
      cases later <;> cases hSplit
  | @next history prior cutoff _ revisionId result _ ih =>
      obtain ⟨e, entered, before, rfl, hEntered, hBefore⟩ := hDecided
      cases later with
      | nil =>
          cases hSplit
          exact ⟨history, cutoff, prior, hBefore, hEntered⟩
      | cons head later =>
          cases hSplit
          exact ih hBefore rfl

/-- Every entry of a run was a point of it. -/
theorem AtPoint.earlier {later earlier decided : Decided} {d : Decision} {before after : Entries}
    {r u : Runtime} {s : ProgramStatement} (h : AtPoint environment program decided r)
    (hSplit : decided = later ++ (d, before ++ (u, s) :: after) :: earlier) :
    AtPoint environment program ((d, before) :: earlier) u := by
  obtain ⟨history, cutoff, inRange, entries, decisions, waiting, hRun, hDecided, rfl, hSteps⟩ := h
  cases later with
  | nil =>
      cases hSplit
      obtain ⟨rest, hBefore, -⟩ := hSteps.split
      exact ⟨history, cutoff, inRange, before, earlier, _, hRun, hDecided, rfl, hBefore⟩
  | cons head later =>
      cases hSplit
      obtain ⟨past, row, hPast, hEarlier, cutoff', inRange', final, -, rfl, hTraced⟩ :=
        decision_of_run hRun hDecided rfl
      obtain ⟨rest, hBefore, -⟩ := hTraced.split
      exact ⟨past, cutoff', inRange', before, earlier, _, hPast, hEarlier, rfl, hBefore⟩

end Runs

section Policies

variable {environment : Environment} {program : SemanticProgram} {decided : Decided} {r : Runtime}

/-- A decision ran the body of this Event. -/
def RanBody (event : EventDefinition) (decision : Decision × Entries) : Prop :=
  ∃ u semanticId body, (u, ProgramStatement.onEvent semanticId event body) ∈ decision.2 ∧
    event.executes decision.1 u = true

/-- At most one decision ran the body. -/
def RanOnce (event : EventDefinition) (decided : Decided) : Prop :=
  decided.Pairwise (fun later earlier => ¬(RanBody event later ∧ RanBody event earlier))

/-- What the occurrence policies promise at a point of a run. -/
structure OccurrencesHold (decided : Decided) (r : Runtime) : Prop where
  first : ∀ event : EventDefinition, event.occurrence = .first → RanOnce event decided
  ordinal : ∀ (event : EventDefinition) (k : Nat), event.occurrence = .ordinal k →
    RanOnce event decided ∧ ∀ later d before u semanticId body after earlier,
      decided = later ++ (d, before ++ (u, .onEvent semanticId event body) :: after) :: earlier →
      event.executes d u = true →
      edges event.semanticId
        ((d, before ++ [(u, .onEvent semanticId event body)]) :: earlier) = k
  counts : ∀ eventId, r.eventCounts.getD eventId 0 = edges eventId decided
  grows : ∀ eventId, ∀ decision ∈ decided, ∀ entry ∈ decision.2,
    entry.1.eventCounts.getD eventId 0 ≤ r.eventCounts.getD eventId 0
  anchors : ∀ eventId, r.eventCutoffs.get? eventId = lastExecuted eventId decided

theorem edges_append (eventId : String) (later earlier : Decided) :
    edges eventId (later ++ earlier) = edges eventId later + edges eventId earlier := by
  rw [edges, List.map_append, List.sum_append]
  rfl

/-- The edge that runs a body with a pinned occurrence is the edge of that number. -/
theorem edges_of_executes {event : EventDefinition} {k : Nat}
    (hPinned : ∀ count, event.occurrence.selects count = true → count = k)
    (h : AtPoint environment program decided r) {later earlier : Decided} {d : Decision}
    {before after : Entries} {u : Runtime} {semanticId : String} {body : List ProgramStatement}
    (hSplit : decided =
      later ++ (d, before ++ (u, .onEvent semanticId event body) :: after) :: earlier)
    (hExecutes : event.executes d u = true) :
    edges event.semanticId ((d, before ++ [(u, .onEvent semanticId event body)]) :: earlier) = k := by
  rw [EventDefinition.executes, Bool.and_eq_true] at hExecutes
  have hCount := (occurrence_at_point event.semanticId (h.earlier hSplit)).1
  have hSelected := hPinned _ hExecutes.2
  rw [EventDefinition.count, hCount, edges_cons] at hSelected
  rw [edges_cons, List.countP_append, List.countP_singleton, qualifiedBy_onEvent, hExecutes.1]
  simp only [decide_true, Bool.and_self, if_true]
  push_cast at hSelected
  omega

/-- A pinned occurrence is met once. -/
theorem ranOnce_of_pinned {event : EventDefinition} {k : Nat}
    (hPinned : ∀ count, event.occurrence.selects count = true → count = k)
    (h : AtPoint environment program decided r) : RanOnce event decided := by
  have hSplit : ∀ later last earlier, decided = later ++ last :: earlier →
      ∀ past ∈ earlier, ¬(RanBody event last ∧ RanBody event past) := by
    rintro later ⟨d, entries⟩ earlier hDecided ⟨e, entered⟩ hPast
      ⟨⟨u, semanticId, body, hLast, hExecutes⟩, ⟨v, semanticId', body', hEntry, hExecutes'⟩⟩
    obtain ⟨before, after, rfl⟩ := List.append_of_mem hLast
    obtain ⟨before', after', rfl⟩ := List.append_of_mem hEntry
    obtain ⟨between, rest, rfl⟩ := List.append_of_mem hPast
    have hLate := edges_of_executes hPinned h hDecided hExecutes
    have hEarly := edges_of_executes hPinned h
      (hDecided.trans (by rw [List.append_cons later, ← List.append_assoc])) hExecutes'
    -- the edge of the past decision counts below the one of the last
    rw [EventDefinition.executes, Bool.and_eq_true] at hExecutes
    rw [edges_cons, List.countP_append, List.countP_singleton, qualifiedBy_onEvent, hExecutes.1,
      edges_append, edges_cons, List.countP_append, List.countP_cons] at hLate
    rw [edges_cons, List.countP_append, List.countP_singleton] at hEarly
    simp only [decide_true, Bool.and_self, if_true] at hLate
    dsimp only at hLate hEarly
    omega
  clear h
  induction decided with
  | nil => exact .nil
  | cons last earlier ih =>
      refine .cons (hSplit [] last earlier rfl) (ih ?_)
      rintro later inner past rfl
      exact hSplit (last :: later) inner past rfl

/-- Occurrence policies hold at every point of every run from an empty checkpoint. -/
theorem occurrence_policies (h : AtPoint environment program decided r) :
    OccurrencesHold decided r where
  first := by
    intro event hFirst
    apply ranOnce_of_pinned (k := 1) (fun count hCount => ?_) h
    rw [hFirst] at hCount
    simpa [Occurrence.selects] using hCount
  ordinal := by
    intro event k hOrdinal
    have hPinned : ∀ count, event.occurrence.selects count = true → count = k := by
      intro count hCount
      rw [hOrdinal] at hCount
      simpa [Occurrence.selects] using hCount
    refine ⟨ranOnce_of_pinned hPinned h, ?_⟩
    intro later d before u semanticId body after earlier hSplit hExecutes
    exact edges_of_executes hPinned h hSplit hExecutes
  counts := fun eventId => (occurrence_at_point eventId h).1
  grows := by
    rintro eventId ⟨d, entries⟩ hDecision ⟨u, s⟩ hEntry
    obtain ⟨later, earlier, rfl⟩ := List.append_of_mem hDecision
    obtain ⟨before, after, rfl⟩ := List.append_of_mem hEntry
    rw [(occurrence_at_point eventId (h.earlier rfl)).1, (occurrence_at_point eventId h).1,
      edges_append, edges_cons, edges_cons, List.countP_append]
    push_cast
    omega
  anchors := fun eventId => (occurrence_at_point eventId h).2

/-- An Event of every day that is taken once. -/
def openingEvent : EventDefinition where
  semanticId := "opening"
  clockId := "daily"
  trigger := .scheduled
  occurrence := .first

def openingProgram : SemanticProgram := .daily [.onEvent "statement" openingEvent intoCash]

/-- The policies hold on the second day, after an execution on the first. -/
theorem occurrence_policies_second : ∃ decided r,
    AtPoint (mondayAndTuesday.environment (.exact id)) openingProgram decided r ∧
      decided.length = 2 ∧ OccurrencesHold decided r := by
  have hChecked : (executeIn (mondayAndTuesday.environment (.exact id)) openingProgram (some 0) none
      {}).toOption.any (fun monday => monday.eventCounts.getD "opening" 0 = 1) = true := by
    decide +kernel
  obtain ⟨monday, hMonday, -⟩ := exists_ok_of_any hChecked
  obtain ⟨-, cutoff, inRange, hRow, -, trace, final, observations, hTraced, -⟩ :=
    executeIn_ok hMonday
  have hPoint : AtPoint (mondayAndTuesday.environment (.exact id)) openingProgram
      [(nextDecision (mondayAndTuesday.environment (.exact id)) openingProgram {} [(0, monday)] 1
          Nat.one_lt_two, []),
        (nextDecision (mondayAndTuesday.environment (.exact id)) openingProgram {} [] cutoff
          inRange, trace)]
      (nextRuntime openingProgram {} [(0, monday)]) :=
    ⟨[(0, monday)], 1, Nat.one_lt_two, [], _, openingProgram.statements,
      .next .start (fun last hLast => by cases hLast) hMonday,
      ⟨_, _, [], rfl, ⟨cutoff, inRange, final, hRow, rfl, hTraced⟩, rfl⟩, rfl, .refl _ _⟩
  exact ⟨_, _, hPoint, rfl, occurrence_policies hPoint⟩

end Policies

end RuleTrade
