import RuleTrade.Strategy.Fragments
import RuleTrade.Execution.Run
import RuleTrade.Strategy.Acceptance

/-! Event truths along a run. A decision hands over the truths of the Events it
evaluated and of no others, so a truth survives as long as no decision skips
its Event. -/

namespace RuleTrade

open Library

/-- The decision comes to evaluate an Event: it enters its statement on a
boundary of its clock. -/
def Evaluates (d : Decision) (start : Runtime) (eventId : String) : Prop :=
  ∃ r semanticId event body, d.Visits start r (.onEvent semanticId event body) ∧
    event.semanticId = eventId ∧ d.due (some event.clockId) = .ok true

/-- Truth recorded the last time a run evaluated an Event. -/
def lastTruth (eventId : String) : History → Option Truth
  | [] => none
  | (_, result) :: earlier => (result.eventTruths.get? eventId).or (lastTruth eventId earlier)

/-- No execution of the run skips an Event whose truth it was handed. -/
def Unskipped (environment : Environment) (program : SemanticProgram) (first : Checkpoint)
    (eventId : String) : History → Prop
  | [] => True
  | (cutoff, _) :: earlier =>
      (∀ inRange : cutoff < environment.dates.length,
        eventId ∈ (handover first earlier).priorEventTruths.keys →
          Evaluates (nextDecision environment program first earlier cutoff inRange)
            (nextRuntime program first earlier) eventId) ∧
      Unskipped environment program first eventId earlier

section Decision

variable {d : Decision} {eventId : String}

/-- Step lemma: entering a statement records a truth or keeps the recorded ones. -/
theorem truth_kept {r r' : Runtime} {s : ProgramStatement} {body : List ProgramStatement}
    (h : enterState d r s = .ok (r', body)) (hMem : eventId ∈ r.eventTruths.keys) :
    eventId ∈ r'.eventTruths.keys := by
  cases effect_of_enter h with
  | allocated effect => rwa [effect.sameMaps.eventTruths]
  | guarded effect => rwa [effect.sameMaps.eventTruths]
  | evented semanticId event body due now before => exact Dict.mem_keys_set.mpr (Or.inr hMem)
  | _ => exact hMem

/-- Run lemma: recorded truths stay recorded. -/
theorem truth_kept_of_steps {start final : Runtime} {agenda waiting : List ProgramStatement}
    {trace : List (Runtime × ProgramStatement)}
    (h : Agenda.Steps (enterState d) start agenda trace final waiting)
    (hMem : eventId ∈ start.eventTruths.keys) : eventId ∈ final.eventTruths.keys :=
  h.invariant (fun r _ => eventId ∈ r.eventTruths.keys)
    (fun _ _ _ _ _ hEnter hMem => truth_kept hEnter hMem) hMem

/-- A finished decision has recorded the truth of every Event it evaluated. -/
theorem truth_of_evaluates {start final : Runtime} {trace : List (Runtime × ProgramStatement)}
    (hTrace : d.Traced start trace final) (h : Evaluates d start eventId) :
    eventId ∈ final.eventTruths.keys := by
  obtain ⟨r, semanticId, event, body, ⟨before, rest, hSteps⟩, rfl, hDue⟩ := h
  have hRun := (interprets d).ok_iff.mpr ⟨trace, hTrace⟩
  rw [(interprets d).eq_of_steps hSteps] at hRun
  obtain ⟨later, hLater⟩ := (interprets d).ok_iff.mp hRun
  cases hLater with
  | step hEnter hLater =>
      refine truth_kept_of_steps hLater ?_
      have hEffect := effect_of_enter hEnter
      generalize hStatement : ProgramStatement.onEvent semanticId event body = s at hEffect
      cases hEffect with
      | notDue s due =>
          subst hStatement
          rw [show d.due (some event.clockId) = .ok false from due] at hDue
          cases hDue
      | evented semanticId' event' body' due now before =>
          cases hStatement
          exact Dict.mem_keys_set.mpr (Or.inl rfl)
      | _ => cases hStatement

end Decision

section Run

variable {environment : Environment} {program : SemanticProgram} {first : Checkpoint}
  {eventId : String}

theorem get?_truths_checkpoint (result : ProgramExecutionResult) (eventId : String) :
    result.checkpoint.truths.get? eventId = result.eventTruths.get? eventId := by
  change ((result.eventTruths.mapValues Truth.text).mapValues _).get? eventId = _
  rw [Dict.get?_mapValues, Dict.get?_mapValues]
  cases result.eventTruths.get? eventId with
  | none => rfl
  | some truth => cases truth <;> rfl

/-- In a run that never skips the Event, its last truth is in the latest result. -/
theorem lastTruth_at_head {cutoff : Nat} {result : ProgramExecutionResult} {earlier : History}
    (hRun : ProgramRun environment program first ((cutoff, result) :: earlier))
    (hUnskipped : Unskipped environment program first eventId ((cutoff, result) :: earlier))
    {truth : Truth} (h : lastTruth eventId ((cutoff, result) :: earlier) = some truth) :
    result.eventTruths.get? eventId = some truth := by
  induction earlier generalizing cutoff result with
  | nil =>
      rw [lastTruth, lastTruth, Option.or_none] at h
      exact h
  | cons previous earlier ih =>
      obtain ⟨previousCutoff, previousResult⟩ := previous
      rw [lastTruth] at h
      cases hHead : result.eventTruths.get? eventId with
      | some recorded =>
          rw [hHead] at h
          exact h
      | none =>
          rw [hHead, Option.none_or] at h
          have hCarried := ih hRun.tail hUnskipped.2 h
          obtain ⟨revisionId, hExecuted⟩ := hRun.head
          obtain ⟨-, row, inRange, hRow, -, trace, final, observations, hTrace, rfl⟩ :=
            executeIn_ok hExecuted
          obtain rfl : cutoff = row := Int.ofNat.inj hRow
          have hKey : eventId ∈ previousResult.checkpoint.priorEventTruths.keys := by
            change eventId ∈ (previousResult.eventTruths.mapValues Truth.text).keys
            rw [Dict.keys_mapValues]
            exact Dict.mem_keys_of_get? hCarried
          have hMem := truth_of_evaluates hTrace (hUnskipped.1 inRange hKey)
          exact absurd hMem (Dict.get?_eq_none_iff.mp hHead)

end Run

def breakoutEvent : EventDefinition where
  semanticId := "breakout"
  clockId := "weekly"
  trigger := .on .risingEdge (above (.daily (closeOf "A")) 10)

/-- A weekly Event on a close above ten. -/
def weeklyBreakout : SemanticProgram :=
  .onClock { id := "weekly", timeframe := .weekly } [.onEvent "statement" breakoutEvent intoCash]

/-- A Friday above ten, the Thursday after it below, and its Friday above again. -/
def dippingWeek : Environment :=
  (DailyMarketSnapshot.single "A" (⟨2024, 1, 5⟩, some 11)
    [(⟨2024, 1, 11⟩, some 9), (⟨2024, 1, 12⟩, some 11)]).environment (.exact id)

/-- Executions at the first two rows. -/
def firstTwo : Except ProgramError (ProgramExecutionResult × ProgramExecutionResult) := do
  let friday ← executeIn dippingWeek weeklyBreakout (some 0) none {}
  let thursday ← executeIn dippingWeek weeklyBreakout (some 1) none friday.checkpoint
  .ok (friday, thursday)

end RuleTrade
