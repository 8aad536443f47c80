import RuleTrade.Strategy.Fragments
import RuleTrade.Execution.StatementRules
import RuleTrade.Library.Uniform

/-! Lookahead. All snapshots that agree up to the cutoff are run in step with a
probe that withholds every daily answer on which they differ. The decision is
free of lookahead when the probe never asks for such an answer. -/

namespace RuleTrade

open Library

/-- Two snapshots of one shape whose series agree up to a row. -/
structure AgreesUpTo (row : Int) (snapshot later : DailyMarketSnapshot) : Prop where
  snapshotId : later.snapshotId = snapshot.snapshotId
  clock : later.clock = snapshot.clock
  dates : later.dates = snapshot.dates
  domains : later.domains = snapshot.domains
  symbols : later.series.keys = snapshot.series.keys
  fields : ∀ symbol, (later.series.get? symbol).map Dict.keys =
    (snapshot.series.get? symbol).map Dict.keys
  rows : ∀ symbol field basis,
    (later.fieldValues symbol field basis).map (List.take (row + 1).toNat) =
      (snapshot.fieldValues symbol field basis).map (List.take (row + 1).toNat)

theorem AgreesUpTo.refl (row : Int) (snapshot : DailyMarketSnapshot) :
    AgreesUpTo row snapshot snapshot :=
  ⟨rfl, rfl, rfl, rfl, rfl, fun _ => rfl, fun _ _ _ => rfl⟩

section Answers

variable (ctx : DecimalContext) (snapshot : DailyMarketSnapshot) (row : Int)

/-- An answer that does not vary with the rows after `row`. -/
def Settled (index : Nat) (node : DailyValueNode) (candidate bindingId : Option String) : Prop :=
  ∀ later, AgreesUpTo row snapshot later →
    later.dailyReading ctx index node candidate bindingId =
      snapshot.dailyReading ctx index node candidate bindingId

open Classical in
/-- Answers of the probe: the settled ones, and a refusal for the others. -/
noncomputable def settledAnswers : Answers := fun index node candidate bindingId =>
  if Settled ctx snapshot row index node candidate bindingId then
    snapshot.dailyReading ctx index node candidate bindingId
  else .error .refused

/-- Snapshots that agree with this one up to `row`. -/
abbrev Completion := { later : DailyMarketSnapshot // AgreesUpTo row snapshot later }

/-- The completions and the probe. -/
noncomputable def completionAnswers : Option (Completion snapshot row) → Answers
  | none => settledAnswers ctx snapshot row
  | some later => later.1.dailyReading ctx

/-- The same environment under other answers. -/
def Environment.answeredBy (environment : Environment) (answers : Answers) : Environment :=
  { environment with daily := answers }

variable {ctx snapshot row}

theorem AgreesUpTo.environment {later : DailyMarketSnapshot} (h : AgreesUpTo row snapshot later) :
    later.environment ctx = (snapshot.environment ctx).answeredBy (later.dailyReading ctx) := by
  simp only [DailyMarketSnapshot.environment, Environment.answeredBy, h.snapshotId, h.dates,
    h.domains]

/-- Evaluators at or before the row see the same. -/
theorem AgreesUpTo.view {later : DailyMarketSnapshot} (h : AgreesUpTo row snapshot later)
    {index : Nat} (hIndex : (index : Int) ≤ row) : later.view index = snapshot.view index := by
  have hRows (symbol : String) (field : MarketField) (basis : PriceBasis) :
      (later.view index).completed symbol field basis =
        (snapshot.view index).completed symbol field basis := by
    have hTake := h.rows symbol field basis
    have hMin : min (index + 1) (row + 1).toNat = index + 1 := by omega
    simp only [DailyMarketSnapshot.view]
    cases hLater : later.fieldValues symbol field basis with
    | error e =>
        cases hHere : snapshot.fieldValues symbol field basis with
        | error e' =>
            rw [hLater, hHere] at hTake
            exact congrArg _ (Except.error.inj hTake)
        | ok values =>
            rw [hLater, hHere] at hTake
            cases hTake
    | ok values =>
        cases hHere : snapshot.fieldValues symbol field basis with
        | error e =>
            rw [hLater, hHere] at hTake
            cases hTake
        | ok values' =>
            rw [hLater, hHere] at hTake
            have hPrefix := congrArg (List.take (index + 1)) (Except.ok.inj hTake)
            rw [List.take_take, List.take_take, hMin] at hPrefix
            exact congrArg Except.ok hPrefix
  have hCompleted : (later.view index).completed = (snapshot.view index).completed := by
    funext symbol field basis
    exact hRows symbol field basis
  simp only [DailyMarketSnapshot.view, DailyView.mk.injEq, true_and] at hCompleted ⊢
  exact ⟨h.dates, h.domains, hCompleted⟩

/-- No answer at or before the row depends on later rows. -/
theorem settled_of_le {index : Nat} (hIndex : (index : Int) ≤ row) (node : DailyValueNode)
    (candidate bindingId : Option String) :
    Settled ctx snapshot row index node candidate bindingId := by
  intro later hAgrees
  unfold DailyMarketSnapshot.dailyReading
  rw [hAgrees.view hIndex]

/-- Snapshots answer or fail, but refuse nothing. -/
theorem dailyReading_granted {index : Nat} {node : DailyValueNode}
    {candidate bindingId : Option String} {e : ProgramError}
    (h : snapshot.dailyReading ctx index node candidate bindingId = .error e) : e ≠ .refused := by
  rintro rfl
  unfold DailyMarketSnapshot.dailyReading at h
  rcases except_bind_error.mp h with h | ⟨result, -, h⟩
  · cases hEvaluate : evaluate ctx (snapshot.view index) candidate bindingId node with
    | error e =>
        rw [hEvaluate] at h
        cases h
    | ok value =>
        rw [hEvaluate] at h
        cases h
  · split_ifs at h
    · cases h
    · split at h <;> cases h

theorem settledAnswers_of_le {index : Nat} (hIndex : (index : Int) ≤ row) (node : DailyValueNode)
    (candidate bindingId : Option String) :
    settledAnswers ctx snapshot row index node candidate bindingId ≠ .error .refused := by
  rw [settledAnswers, if_pos (settled_of_le hIndex node candidate bindingId)]
  exact fun h => dailyReading_granted h rfl

end Answers

section Readings

variable {ctx : DecimalContext} {snapshot : DailyMarketSnapshot} {row : Int}

/-- Logging an answer is uniform: an answer that is not settled is refused to the
probe and differs between two completions. -/
theorem answer_uniform (index : Nat) (node : DailyValueNode) (candidate bindingId : Option String) :
    Logged.Uniform .refused (fun w => do
      let reading ← (Logged.lift (completionAnswers ctx snapshot row w index node candidate
        bindingId) : Evaluation DailyReading)
      recorded {
        semanticId := node.semanticId
        candidate := candidate
        value := reading.value
        reason := reading.reason
        observedAt := reading.observedAt
        expressionHash := node.contentHash }) := by
  by_cases hSettled : Settled ctx snapshot row index node candidate bindingId
  · have hSame (w : Option (Completion snapshot row)) :
        completionAnswers ctx snapshot row w index node candidate bindingId =
          snapshot.dailyReading ctx index node candidate bindingId := by
      cases w with
      | none => simp only [completionAnswers, settledAnswers, if_pos hSettled]
      | some later => exact hSettled later.1 later.2
    simp only [hSame]
    cases hReading : snapshot.dailyReading ctx index node candidate bindingId with
    | error e => exact .failure (dailyReading_granted hReading)
    | ok reading => exact .success _ _
  · refine .splits ?_ (fun later => ?_)
    · simp only [completionAnswers, settledAnswers, if_neg hSettled]
      rfl
    · -- some completion answers differently from this one
      have hOther : ∃ other : Completion snapshot row,
          other.1.dailyReading ctx index node candidate bindingId ≠
            later.1.dailyReading ctx index node candidate bindingId := by
        by_contra hNone
        push Not at hNone
        refine hSettled (fun other hAgrees => ?_)
        exact (hNone ⟨other, hAgrees⟩).trans (hNone ⟨snapshot, .refl row snapshot⟩).symm
      obtain ⟨other, hDiffers⟩ := hOther
      refine ⟨other, ?_⟩
      simp only [completionAnswers]
      cases hLater : later.1.dailyReading ctx index node candidate bindingId with
      | error e => exact .left e _
      | ok reading =>
          cases hOther : other.1.dailyReading ctx index node candidate bindingId with
          | error e => exact .right _ e
          | ok reading' =>
              refine .logs _ _ ⟨0, _, _, rfl, rfl, fun hEqual => hDiffers ?_⟩
              rw [hLater, hOther]
              obtain ⟨v, reason, date⟩ := reading
              obtain ⟨v', reason', date'⟩ := reading'
              simp only [ProgramValueObservation.mk.injEq] at hEqual
              obtain ⟨-, -, rfl, rfl, rfl, -⟩ := hEqual
              rfl

theorem completion_sequential (snapshot : DailyMarketSnapshot) (row : Int) :
    Logged.Sequential (fun {α : Type} (x : Option (Completion snapshot row) → Evaluation α) =>
      Logged.Uniform ProgramError.refused x) :=
  Logged.Uniform.sequential ProgramError.refused

variable {d : Decision} {r : Runtime}

theorem daily_uniform (node : DailyValueNode) (candidate bindingId : Option String) (index : Int) :
    Logged.Uniform .refused (fun w =>
      (d.answeredBy (completionAnswers ctx snapshot row w)).daily node candidate bindingId index) := by
  by_cases hRange : index < 0 ∨ (d.environment.dates.length : Int) ≤ index
  · have hOut (w : Option (Completion snapshot row)) :
        (d.answeredBy (completionAnswers ctx snapshot row w)).daily node candidate bindingId index =
          pure (d.observation node.semanticId candidate node.contentHash none
            (some "event_relative_out_of_range")) := if_pos hRange
    simp only [hOut]
    exact .success _ _
  · have hIn (w : Option (Completion snapshot row)) :
        (d.answeredBy (completionAnswers ctx snapshot row w)).daily node candidate bindingId index =
          _ := if_neg hRange
    simp only [hIn]
    exact answer_uniform index.toNat node candidate bindingId

theorem lift_uniform {α : Type} {x : Except ProgramError α} (h : x ≠ .error .refused) :
    Logged.Uniform (T := Completion snapshot row) .refused
      (fun _ => (Logged.lift x : Evaluation α)) := by
  refine lift_holds (completion_sequential snapshot row) (fun e he => .failure ?_)
  rintro rfl
  exact h he

theorem daysSinceAnchor_granted (anchor : Option Int) :
    daysSinceAnchor d anchor ≠ .error .refused := by
  unfold daysSinceAnchor
  split
  · exact fun h => by cases h
  · split <;> exact fun h => by cases h

theorem clockCutoff_granted (clockId : String) :
    d.lastCompletedClockCutoff clockId ≠ .error .refused := by
  unfold Decision.lastCompletedClockCutoff Decision.clock
  split <;> exact fun h => by cases h

/-- Every reading runs alike in all completions or splits them. -/
theorem reading_uniform {reading : Reading} (hAtomic : reading.Atomic) (bindingId : Option String)
    (members : List String) :
    reading.Has (Logged.Uniform .refused)
      (answerWorlds d r (completionAnswers ctx snapshot row)) bindingId members := by
  have hSeq := completion_sequential snapshot row
  cases reading with
  | ofValue expression candidate =>
      change Logged.Uniform .refused (fun w =>
        value (d.answeredBy (completionAnswers ctx snapshot row w)) r bindingId members expression
          candidate)
      cases expression with
      | daily node =>
          simp only [value, answeredBy_cutoff]
          exact daily_uniform node candidate bindingId _
      | eventRelative id event source offset =>
          simp only [value, answeredBy_observation]
          cases r.eventCutoffs.get? event with
          | none => exact hSeq.success _ []
          | some anchor =>
              exact hSeq.bind (daily_uniform source candidate bindingId _)
                (fun observation => recorded_holds hSeq _)
      | clockedValue id source clockId =>
          simp only [value, answeredBy_observation, answeredBy_clockCutoff]
          refine hSeq.bind (lift_uniform (clockCutoff_granted (d := d) clockId)) (fun boundary => ?_)
          cases boundary with
          | none => exact recorded_holds hSeq _
          | some boundary =>
              exact hSeq.bind (daily_uniform source candidate bindingId _)
                (fun observation => recorded_holds hSeq _)
      | timeSinceEvent id event =>
          simp only [value, answeredBy_recordedOr, answeredBy_daysSinceAnchor]
          exact hSeq.bind (lift_uniform (daysSinceAnchor_granted (d := d) _))
            (fun days => recorded_holds hSeq _)
      | timeSinceState id key =>
          simp only [value, answeredBy_recordedOr, answeredBy_daysSinceAnchor]
          exact hSeq.bind (lift_uniform (daysSinceAnchor_granted (d := d) _))
            (fun days => recorded_holds hSeq _)
      | barsSinceEvent id event =>
          simp only [value, answeredBy_recordedOr, answeredBy_barsSince]
          exact recorded_holds hSeq _
      | barsSinceState id key =>
          simp only [value, answeredBy_recordedOr, answeredBy_barsSince]
          exact recorded_holds hSeq _
      | rememberedValue id memory quantity unit refinement =>
          simp only [value, answeredBy_recordedOr]
          exact recorded_holds hSeq _
      | literal id number quantity unit refinement =>
          simp only [value, answeredBy_observation]
          exact hSeq.success _ []
      | crossSectional id source domain transform direction bins =>
          cases hAtomic
          simp only [value]
          exact .failure (by decide)
      | crossSectionalAggregate => cases hAtomic
      | score => cases hAtomic
      | candidateTrailingReturn =>
          simp only [value]
          exact .failure (by decide)
      | candidateCurrentPrice =>
          simp only [value]
          exact .failure (by decide)
  | ofCondition test =>
      change Logged.Uniform .refused (fun w =>
        condition (d.answeredBy (completionAnswers ctx snapshot row w)) r bindingId members test
          none)
      cases test with
      | stateEquals id key expected =>
          simp only [condition]
          exact hSeq.success _ []
      | eventWindow id event relation =>
          simp only [condition, answeredBy_cutoff]
          exact hSeq.success _ []
      | _ => cases hAtomic

theorem allRead_uniform (bindingId : Option String) (members : List String)
    (readings : List Reading) :
    AllRead (Logged.Uniform .refused) d r (completionAnswers ctx snapshot row) bindingId members
      readings :=
  fun _ _ hAtomic => reading_uniform hAtomic bindingId members

end Readings

section Prior

variable {ctx : DecimalContext} {snapshot : DailyMarketSnapshot} {row : Int} {d : Decision}
  {r : Runtime}

/-- A daily reading fails only where its row is asked for and not answered. -/
theorem daily_failure {node : DailyValueNode} {candidate bindingId : Option String} {index : Int}
    {e : ProgramError} (h : d.daily node candidate bindingId index = .failure e) :
    d.environment.daily index.toNat node candidate bindingId = .error e := by
  unfold Decision.daily at h
  split_ifs at h
  rcases Logged.bind_eq_failure.mp h with h | ⟨reading, log, -, h⟩
  · have hResult := congrArg Logged.result h
    rwa [Logged.result_lift] at hResult
  · cases h

theorem daily_success {node : DailyValueNode} {candidate bindingId : Option String} {index : Int}
    {observation : ProgramValueObservation} {log : List ProgramValueObservation}
    (h : d.daily node candidate bindingId index = .success observation log) :
    index < 0 ∨ (d.environment.dates.length : Int) ≤ index ∨
      ∃ reading, d.environment.daily index.toNat node candidate bindingId = .ok reading := by
  unfold Decision.daily at h
  split_ifs at h with hRange
  · rcases hRange with hLow | hHigh
    · exact Or.inl hLow
    · exact Or.inr (Or.inl hHigh)
  · obtain ⟨reading, _, _, hAnswer, -, -⟩ := Logged.bind_eq_success.mp h
    have hResult := congrArg Logged.result hAnswer
    rw [Logged.result_lift] at hResult
    exact Or.inr (Or.inr ⟨reading, hResult⟩)

theorem completedRow_le {clock : ProgramClock} {boundary : Nat}
    (h : d.completedRow clock = some boundary) : boundary ≤ d.cutoff := by
  have hRange {n : Nat} {test : Nat → Bool} (hn : n ≤ d.cutoff + 1)
      (hFind : (List.range n).reverse.find? test = some boundary) : boundary ≤ d.cutoff := by
    have hMem := List.mem_of_find?_eq_some hFind
    rw [List.mem_reverse, List.mem_range] at hMem
    omega
  unfold Decision.completedRow at h
  split at h
  · split_ifs at h
    · exact (Option.some.inj h).ge
    · exact hRange (by omega) h
  · exact hRange le_rfl h

theorem clockCutoff_le {clockId : String} {boundary : Nat}
    (h : d.lastCompletedClockCutoff clockId = .ok (some boundary)) : boundary ≤ d.cutoff := by
  unfold Decision.lastCompletedClockCutoff at h
  obtain ⟨clock, -, h⟩ := except_bind_ok.mp h
  exact completedRow_le (Except.ok.inj h)

/-- The probe refuses no reading of the row before that it grants at the row. -/
theorem prior_reading_granted (hRow : (d.cutoff : Int) ≤ row) {reading : Reading}
    (hAtomic : reading.Atomic)
    (hNow : reading.Returns (d.answeredBy (settledAnswers ctx snapshot row)) r none []) :
    reading.Has (Logged.Avoids (· = .refused))
      (answerWorlds d.prior (r.prior d) (fun _ : PUnit => settledAnswers ctx snapshot row)) none
      [] := by
  have hPast {index : Nat} (hIndex : index ≤ d.cutoff) (node : DailyValueNode)
      (candidate : Option String) :
      (d.prior.answeredBy (settledAnswers ctx snapshot row)).daily node candidate none index ≠
        .failure .refused := by
    intro hFailure
    exact settledAnswers_of_le (by omega) node candidate none (daily_failure hFailure)
  cases reading with
  | ofCondition test =>
      rintro e hFailure rfl
      change condition _ _ none [] test none = .failure .refused at hFailure
      cases test with
      | stateEquals | eventWindow =>
          simp only [condition] at hFailure
          cases hFailure
      | _ => cases hAtomic
  | ofValue expression candidate =>
      rintro e hFailure rfl
      change value (d.prior.answeredBy (settledAnswers ctx snapshot row)) (r.prior d) none []
        expression candidate = .failure .refused at hFailure
      cases expression with
      | daily node =>
          simp only [value] at hFailure
          exact hPast (Nat.sub_le d.cutoff 1) node candidate hFailure
      | eventRelative id event source offset =>
          obtain ⟨_, _, hNow⟩ := hNow
          simp only [value, Runtime.prior] at hFailure hNow
          cases hAnchor : r.eventCutoffs.get? event with
          | none =>
              rw [hAnchor] at hFailure
              cases hFailure
          | some anchor =>
              rw [hAnchor] at hFailure hNow
              obtain ⟨_, _, _, hGranted, -, -⟩ := Logged.bind_eq_success.mp hNow
              rcases Logged.bind_eq_failure.mp hFailure with hDaily | ⟨_, _, -, hRecorded⟩
              · rcases daily_success hGranted with hLow | hHigh | ⟨reading, hAnswer⟩
                · have hOut : (d.prior.answeredBy (settledAnswers ctx snapshot row)).daily source
                      candidate none (anchor + offset) = pure _ := if_pos (Or.inl hLow)
                  rw [hOut] at hDaily
                  cases hDaily
                · have hOut : (d.prior.answeredBy (settledAnswers ctx snapshot row)).daily source
                      candidate none (anchor + offset) = pure _ := if_pos (Or.inr hHigh)
                  rw [hOut] at hDaily
                  cases hDaily
                · have hRefused : settledAnswers ctx snapshot row (anchor + offset).toNat source
                      candidate none = .error .refused := daily_failure hDaily
                  have hGranted : settledAnswers ctx snapshot row (anchor + offset).toNat source
                      candidate none = .ok reading := hAnswer
                  rw [hRefused] at hGranted
                  cases hGranted
              · cases hRecorded
      | clockedValue id source clockId =>
          simp only [value] at hFailure
          rcases Logged.bind_eq_failure.mp hFailure with hClock | ⟨boundary, _, hClock, hFailure⟩
          · have hResult := congrArg Logged.result hClock
            rw [Logged.result_lift] at hResult
            exact clockCutoff_granted clockId hResult
          · have hResult := congrArg Logged.result hClock
            rw [Logged.result_lift] at hResult
            cases boundary with
            | none => cases hFailure
            | some boundary =>
                have hLe : boundary ≤ d.cutoff :=
                  (clockCutoff_le hResult).trans (Nat.sub_le d.cutoff 1)
                rcases Logged.bind_eq_failure.mp hFailure with hDaily | ⟨_, _, -, hRecorded⟩
                · exact hPast hLe source candidate hDaily
                · cases hRecorded
      | timeSinceEvent id event =>
          simp only [value] at hFailure
          rcases Logged.bind_eq_failure.mp hFailure with hDays | ⟨_, _, -, hRecorded⟩
          · have hResult := congrArg Logged.result hDays
            rw [Logged.result_lift] at hResult
            exact daysSinceAnchor_granted _ hResult
          · cases hRecorded
      | timeSinceState id key =>
          simp only [value] at hFailure
          rcases Logged.bind_eq_failure.mp hFailure with hDays | ⟨_, _, -, hRecorded⟩
          · have hResult := congrArg Logged.result hDays
            rw [Logged.result_lift] at hResult
            exact daysSinceAnchor_granted _ hResult
          · cases hRecorded
      | crossSectional id source domain transform direction bins =>
          cases hAtomic
          simp only [value] at hFailure
          cases hFailure
      | crossSectionalAggregate => cases hAtomic
      | score => cases hAtomic
      | _ =>
          simp only [value] at hFailure
          cases hFailure

/-- Where the probe can evaluate a Condition, it can reconstruct it. -/
theorem prior_granted (hRow : (d.cutoff : Int) ≤ row) {c : Condition} {truth : Truth}
    {log : List ProgramValueObservation}
    (hNow : predicate (d.answeredBy (settledAnswers ctx snapshot row)) r c = .success truth log) :
    predicate (d.prior.answeredBy (settledAnswers ctx snapshot row)) (r.prior d) c ≠
      .failure .refused := by
  have hReturns := condition_returns c none hNow
  have hAvoids : Logged.Avoids (· = ProgramError.refused) (fun _ : PUnit =>
      predicate (d.prior.answeredBy (settledAnswers ctx snapshot row)) (r.prior d) c) :=
    predicate_holds (Logged.avoids_sequential (· = ProgramError.refused))
      (fun reading hReading hAtomic =>
        prior_reading_granted hRow hAtomic (hReturns reading hReading hAtomic))
  exact fun hFailure => hAvoids .refused hFailure rfl

/-- The truth an Event compares with is uniform where the probe can evaluate it. -/
theorem previous_uniform (hRow : (d.cutoff : Int) ≤ row) {event : EventDefinition} {truth : Truth}
    {log : List ProgramValueObservation}
    (hNow : currentTruth (d.answeredBy (settledAnswers ctx snapshot row)) r event =
      .success truth log) :
    Logged.Uniform .refused (fun w => (Logged.lift
      (previousTruth (d.answeredBy (completionAnswers ctx snapshot row w)) r event) :
        Evaluation Truth)) := by
  have hPrior (w : Option (Completion snapshot row)) :
      (d.answeredBy (completionAnswers ctx snapshot row w)).priorEventTruths =
        d.priorEventTruths := rfl
  cases hTrigger : event.trigger with
  | scheduled =>
      simp only [previousTruth, hTrigger, hPrior]
      cases d.priorEventTruths.get? event.semanticId <;> exact .success _ []
  | on trigger when =>
      simp only [previousTruth, hTrigger, hPrior, answeredBy_cutoff]
      cases d.priorEventTruths.get? event.semanticId with
      | some truth => exact .success _ []
      | none =>
          simp only [currentTruth, hTrigger] at hNow
          by_cases hFirst : d.cutoff = 0
          · simp only [hFirst, if_true]
            exact .success _ []
          · simp only [hFirst, if_false]
            have hUniform : Logged.Uniform .refused (fun w =>
                predicate (d.prior.answeredBy (completionAnswers ctx snapshot row w)) (r.prior d)
                  when) :=
              predicate_holds (completion_sequential snapshot row) (allRead_uniform none [] _)
            cases hUniform with
            | returns truth log same =>
                refine .returns truth [] (fun w => ?_)
                change Logged.lift (predicate (d.prior.answeredBy _) (r.prior d) when).result = _
                rw [same w]
                rfl
            | raises e granted same =>
                refine .raises e granted (fun w => ?_)
                change Logged.lift (predicate (d.prior.answeredBy _) (r.prior d) when).result = _
                rw [same w]
                rfl
            | splits probe split => exact absurd probe (prior_granted hRow hNow)

end Prior

section Statements

variable {ctx : DecimalContext} {snapshot : DailyMarketSnapshot} {row : Int} {d : Decision}
  {r : Runtime}

theorem due_granted (clockId : Option String) : d.due clockId ≠ .error .refused := by
  intro h
  obtain ⟨id, -, hError⟩ := due_error h
  cases hError

theorem allocation_granted (a : AllocationStatement) (outcome : String) :
    allocation d r a outcome ≠ .error .refused := by
  intro h
  rcases allocation_error h with hDue | hAllocation
  · exact due_granted a.clockId hDue
  · exact hAllocation

theorem applyChoice_granted (s : GuardedAllocationStatement) (choice : Option PolicyChoice) :
    applyChoice d r s choice ≠ .error .refused := by
  intro h
  cases choice with
  | none => cases h
  | some choice =>
      rcases except_bind_error.mp h with h | ⟨allocated, -, h⟩
      · exact allocation_granted choice.action choice.outcome h
      · cases h

theorem event_uniform (hRow : (d.cutoff : Int) ≤ row) (semanticId : String)
    (event : EventDefinition) :
    Logged.Uniform .refused (fun w =>
      enterEvent (d.answeredBy (completionAnswers ctx snapshot row w)) r semanticId event) := by
  have hSeq := completion_sequential snapshot row
  simp only [enterEvent, answeredBy_due, answeredBy_recordEvent]
  refine hSeq.bind (lift_uniform (due_granted _)) (fun due => ?_)
  split_ifs
  · have hCurrent : Logged.Uniform .refused (fun w =>
        currentTruth (d.answeredBy (completionAnswers ctx snapshot row w)) r event) := by
      unfold currentTruth
      cases event.trigger with
      | scheduled => exact hSeq.success Truth.true []
      | on trigger when => exact predicate_holds hSeq (allRead_uniform none [] _)
    refine hCurrent.bind (fun current log hNow => ?_)
    exact hSeq.bind (previous_uniform hRow hNow) (fun previous => hSeq.success _ [])
  · exact hSeq.success _ []

/-- Step lemma: entering a statement runs alike in all completions or splits them. -/
theorem enter_uniform (hRow : (d.cutoff : Int) ≤ row) (s : ProgramStatement) :
    Logged.Uniform .refused (fun w =>
      enter (d.answeredBy (completionAnswers ctx snapshot row w)) r s) := by
  have hSeq := completion_sequential snapshot row
  cases s with
  | select s =>
      refine hSeq.bind (selection_holds hSeq (lift_uniform (due_granted _))
        (lift_uniform ?_) (fun members member => allRead_uniform _ _ _)) (fun r' => hSeq.success _ [])
      intro h
      cases members_error h
  | allocate a =>
      simp only [enter, answeredBy_allocation]
      exact hSeq.bind (lift_uniform (allocation_granted a _)) (fun r' => hSeq.success _ [])
  | control head thenStatements otherwiseStatements =>
      exact hSeq.bind (control_holds hSeq (lift_uniform (due_granted _)) (allRead_uniform _ _ _))
        (fun entered => hSeq.success _ [])
  | onEvent semanticId event body =>
      exact hSeq.bind (event_uniform hRow semanticId event) (fun entered => hSeq.success _ [])
  | transition semanticId t =>
      exact hSeq.bind (transition_holds hSeq (lift_uniform (due_granted _)) (allRead_uniform _ _ _))
        (fun r' => hSeq.success _ [])
  | rememberValue s =>
      exact hSeq.bind (remember_holds hSeq (lift_uniform (due_granted _)) (allRead_uniform _ _ _))
        (fun r' => hSeq.success _ [])
  | guardedAllocation s =>
      exact hSeq.bind (guarded_holds hSeq (fun c _ => allRead_uniform _ _ _)
        (fun rule _ => allRead_uniform _ _ _) (fun choice => lift_uniform (applyChoice_granted s _)))
        (fun r' => hSeq.success _ [])
  | unresolved s =>
      simp only [enter]
      exact .failure (by decide)

/-- Run lemma: so does a whole list of statements. -/
theorem statements_uniform (hRow : (d.cutoff : Int) ≤ row) (agenda : List ProgramStatement) :
    ∀ r, Logged.Uniform .refused (fun w =>
      statements (d.answeredBy (completionAnswers ctx snapshot row w)) agenda r) := by
  refine ProgramStatement.list_induction (P := fun agenda => ∀ r, Logged.Uniform .refused (fun w =>
    statements (d.answeredBy (completionAnswers ctx snapshot row w)) agenda r)) ?_ ?_ agenda
  · intro r
    simp only [statements]
    exact .success r []
  · intro s rest hBodies hRest r
    simp only [statements_cons]
    refine (enter_uniform hRow s).bind (fun entered log hEntered => ?_)
    refine (completion_sequential snapshot row).bind ?_ (fun r' => hRest r')
    have hBody := body_of_enter (d := d.answeredBy (settledAnswers ctx snapshot row))
      (Logged.result_eq_ok.mpr ⟨log, hEntered⟩)
    rcases hBody with hNil | hMem
    · simp only [hNil, statements]
      exact .success entered.1 []
    · exact hBodies entered.2 hMem entered.1

end Statements

section Execution

variable (ctx : DecimalContext) (program : SemanticProgram) (snapshot : DailyMarketSnapshot)
  (cutoffIndex : Option Int) (revisionId : Option String) (ck : Checkpoint)

/-- Row the executions of a snapshot and its completions stand at. -/
def decisionRow : Int := cutoffRow (snapshot.environment ctx) cutoffIndex

/-- All snapshots that agree up to the cutoff have the outcome of this one. -/
def NoLookahead : Prop :=
  ∀ later, AgreesUpTo (decisionRow ctx snapshot cutoffIndex) snapshot later →
    executeProgramV2 ctx program later cutoffIndex revisionId ck =
      executeProgramV2 ctx program snapshot cutoffIndex revisionId ck

/-- The decision asks for a daily reading whose answer varies with the rows
after the cutoff: the probe that withholds these answers is refused one. -/
def Peeks : Prop :=
  executeIn ((snapshot.environment ctx).answeredBy
    (settledAnswers ctx snapshot (decisionRow ctx snapshot cutoffIndex))) program cutoffIndex
    revisionId ck = .error .refused

/-- All snapshots that agree up to the cutoff fail, and with one error. -/
def FailsAlike : Prop :=
  ∃ e, ∀ later, AgreesUpTo (decisionRow ctx snapshot cutoffIndex) snapshot later →
    executeProgramV2 ctx program later cutoffIndex revisionId ck = .error e

/-- Outcomes of the completions and the probe. -/
noncomputable def outcomes (w : Option (Completion snapshot (decisionRow ctx snapshot cutoffIndex))) :
    Except ProgramError ProgramExecutionResult :=
  executeIn ((snapshot.environment ctx).answeredBy (completionAnswers ctx snapshot
    (decisionRow ctx snapshot cutoffIndex) w)) program cutoffIndex revisionId ck

variable {ctx program snapshot cutoffIndex revisionId ck}

theorem checkCheckpoint_granted (cutoff : Nat) :
    checkCheckpoint program cutoff ck ≠ .error .refused :=
  fun h => checkCheckpoint_error h

/-- What executions under several answers have in common: they all stop at the
same check, or they run the same decision. -/
theorem executeIn_answeredBy (environment : Environment) (program : SemanticProgram)
    (cutoffIndex : Option Int) (revisionId : Option String) (ck : Checkpoint) :
    (∃ e, e ≠ .refused ∧ ∀ answers, executeIn (environment.answeredBy answers) program cutoffIndex
        revisionId ck = .error e) ∨
      ∃ (cutoff : Nat) (inRange : cutoff < environment.dates.length),
        cutoffRow environment cutoffIndex = cutoff ∧ ∀ answers,
          executeIn (environment.answeredBy answers) program cutoffIndex revisionId ck =
            ((ck.decision program environment cutoff inRange).answeredBy answers).run revisionId
              (ck.runtime program) := by
  by_cases hIssues : validateProgramV2 program = []
  · by_cases hRange : 0 ≤ cutoffRow environment cutoffIndex ∧
        cutoffRow environment cutoffIndex < environment.dates.length
    · have hChecked (answers : Answers) :
          executeIn (environment.answeredBy answers) program cutoffIndex revisionId ck =
            checkCheckpoint program (cutoffRow environment cutoffIndex).toNat ck >>= fun _ =>
              ((ck.decision program environment (cutoffRow environment cutoffIndex).toNat
                (by omega)).answeredBy answers).run revisionId (ck.runtime program) :=
        executeIn_inRange (environment.answeredBy answers) hIssues hRange
      cases hCheck : checkCheckpoint program (cutoffRow environment cutoffIndex).toNat ck with
      | error e =>
          refine Or.inl ⟨e, ?_, fun answers => ?_⟩
          · rintro rfl
            exact checkCheckpoint_granted _ hCheck
          · rw [hChecked, hCheck]
            rfl
      | ok _ =>
          refine Or.inr ⟨(cutoffRow environment cutoffIndex).toNat, by omega, by omega,
            fun answers => ?_⟩
          rw [hChecked, hCheck]
          rfl
    · refine Or.inl ⟨.programCutoffOutOfRange, by decide, fun answers => ?_⟩
      simp only [executeIn, hIssues, ne_eq, not_true_eq_false, if_false]
      exact dif_neg hRange
  · refine Or.inl ⟨.invalidProgram ((validateProgramV2 program).map (fun issue =>
      (issue.path, issue.code))), by simp, fun answers => ?_⟩
    simp only [executeIn, hIssues, ne_eq, not_false_eq_true, if_true]

theorem run_of_success {d : Decision} {start r : Runtime}
    {observations : List ProgramValueObservation}
    (h : statements d d.program.statements start = .success r observations) :
    d.run revisionId start = .ok (d.report revisionId r observations) := by
  rw [Decision.run, h]

theorem run_of_failure {d : Decision} {start : Runtime} {e : ProgramError}
    (h : statements d d.program.statements start = .failure e) :
    d.run revisionId start = .error e := by
  rw [Decision.run, h]

theorem outcomes_completion {later : DailyMarketSnapshot}
    (h : AgreesUpTo (decisionRow ctx snapshot cutoffIndex) snapshot later) :
    outcomes ctx program snapshot cutoffIndex revisionId ck (some ⟨later, h⟩) =
      executeProgramV2 ctx program later cutoffIndex revisionId ck := by
  rw [executeProgramV2, h.environment]
  rfl

variable (ctx program snapshot cutoffIndex revisionId ck) in
/-- All end alike, or the probe is refused and every completion fails or has
another one that ends differently. -/
theorem outcomes_cases :
    (∃ result, ∀ w, outcomes ctx program snapshot cutoffIndex revisionId ck w = .ok result) ∨
    (∃ e, e ≠ .refused ∧
      ∀ w, outcomes ctx program snapshot cutoffIndex revisionId ck w = .error e) ∨
    (outcomes ctx program snapshot cutoffIndex revisionId ck none = .error .refused ∧
      ∀ t, (∃ e, outcomes ctx program snapshot cutoffIndex revisionId ck (some t) = .error e) ∨
        ∃ t', outcomes ctx program snapshot cutoffIndex revisionId ck (some t') ≠
          outcomes ctx program snapshot cutoffIndex revisionId ck (some t)) := by
  rcases executeIn_answeredBy (snapshot.environment ctx) program cutoffIndex revisionId ck with
    ⟨e, hGranted, hSame⟩ | ⟨cutoff, inRange, hRow, hRuns⟩
  · exact Or.inr (Or.inl ⟨e, hGranted, fun w => hSame _⟩)
  · have hUniform : Logged.Uniform .refused (fun w => statements
        ((ck.decision program (snapshot.environment ctx) cutoff inRange).answeredBy
          (completionAnswers ctx snapshot (decisionRow ctx snapshot cutoffIndex) w))
        program.statements (ck.runtime program)) :=
      statements_uniform hRow.ge program.statements (ck.runtime program)
    unfold outcomes
    simp only [hRuns]
    cases hUniform with
    | returns r log same =>
        exact Or.inl ⟨(ck.decision program (snapshot.environment ctx) cutoff inRange).report
          revisionId r log, fun w => run_of_success (same w)⟩
    | raises e granted same =>
        exact Or.inr (Or.inl ⟨e, granted, fun w => run_of_failure (same w)⟩)
    | splits probe split =>
        refine Or.inr (Or.inr ⟨run_of_failure probe, fun t => ?_⟩)
        obtain ⟨t', hDiverges⟩ := split t
        generalize hHere : statements _ program.statements _ = here at hDiverges
        generalize hThere : statements _ program.statements _ = there at hDiverges
        cases hDiverges with
        | left e _ => exact Or.inl ⟨e, run_of_failure hHere⟩
        | right _ e =>
            cases here with
            | failure e' => exact Or.inl ⟨e', run_of_failure hHere⟩
            | success r log =>
                refine Or.inr ⟨t', ?_⟩
                rw [run_of_success hHere, run_of_failure hThere]
                exact fun hEqual => by cases hEqual
        | logs a b conflict =>
            refine Or.inr ⟨t', fun hEqual => ?_⟩
            rw [run_of_success hHere, run_of_success hThere, Except.ok.injEq] at hEqual
            have hLogs := congrArg ProgramExecutionResult.valueObservations hEqual
            exact conflict.ne hLogs.symm

end Execution

/-- Two series of one symbol that share their rows up to `row`. -/
theorem AgreesUpTo.single {row : Int} (symbol : String) (first : CalendarDate × Option ℚ)
    {rest later : List (CalendarDate × Option ℚ)}
    (hDates : later.map Prod.fst = rest.map Prod.fst)
    (hCloses : ((first :: later).map Prod.snd).take (row + 1).toNat =
      ((first :: rest).map Prod.snd).take (row + 1).toNat) :
    AgreesUpTo row (.single symbol first rest) (.single symbol first later) := by
  refine ⟨rfl, rfl, ?_, rfl, rfl, fun other => ?_, fun other field basis => ?_⟩
  · simp only [DailyMarketSnapshot.single, List.map_cons, hDates]
  · by_cases hSymbol : symbol = other
    · simp [DailyMarketSnapshot.single, Dict.get?, Dict.find, Dict.keys, hSymbol]
    · simp [DailyMarketSnapshot.single, Dict.get?, Dict.find, hSymbol]
  · simp only [DailyMarketSnapshot.fieldValues, DailyMarketSnapshot.single, Dict.get?, Dict.find]
    by_cases hSymbol : symbol = other
    · by_cases hField : ((MarketField.close, PriceBasis.adjusted) = (field, basis))
      · simp only [hSymbol, hField, if_true, Option.bind_some, Dict.find]
        exact congrArg Except.ok hCloses
      · simp only [hSymbol, if_true, Option.bind_some, Dict.find, hField, if_false]
    · simp [hSymbol]

/-- On each daily tick: into cash if the close of the row after is above ten. -/
def nextCloseAbove : SemanticProgram :=
  .daily [
    .onEvent "statement" { semanticId := "tick", clockId := "daily", trigger := .scheduled } [
      .control { semanticId := "control", condition := above (.eventRelative "next" "tick"
        (closeOf "A") 1) 10 } intoCash []]]

/-- A Monday at ten and a Tuesday at `close`. -/
def mondayThen (close : ℚ) : DailyMarketSnapshot :=
  .single "A" (⟨2024, 1, 8⟩, some 10) [(⟨2024, 1, 9⟩, some close)]

end RuleTrade
