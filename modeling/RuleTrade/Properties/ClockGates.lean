import RuleTrade.Backend.Bridge
import RuleTrade.Backend.Schedule
import RuleTrade.Properties.CompletedWeek

/-! Clocks that statements name for themselves. The plan of a Program runs all of
it on one schedule, so a gate is kept only when the schedule implies it. -/

namespace RuleTrade

open Library

section Gates

/-- Clocks that a statement names for itself. -/
def ProgramStatement.ownGates : ProgramStatement → List String
  | .select s => s.clockId.toList
  | .allocate a => a.clockId.toList
  | .control head _ _ => head.clockId.toList
  | .onEvent _ event _ => [event.clockId]
  | .transition _ t => t.clockId.toList
  | .rememberValue s => s.clockId.toList
  | .guardedAllocation s =>
      (s.primary :: (s.overrides.map OverrideRule.action ++ s.fallback.toList)).flatMap
        (fun a => a.clockId.toList)
  | .unresolved _ => []

/-- A top-level statement and what is lowered with it: the allocations of the
branches of a Control, the actions of an Event. -/
def ProgramStatement.lowered : ProgramStatement → List ProgramStatement
  | .control head thenStatements otherwiseStatements =>
      .control head thenStatements otherwiseStatements ::
        (thenStatements ++ otherwiseStatements).filter (fun s => s.allocation?.isSome)
  | .onEvent semanticId event body => .onEvent semanticId event body :: body
  | statement => [statement]

/-- Statements of a Program that its plan carries. Selections are carried from
any depth. -/
def SemanticProgram.carried (program : SemanticProgram) : List ProgramStatement :=
  program.staticSelections.map ProgramStatement.select ++
    program.staticStatements.flatMap ProgramStatement.lowered

def SemanticProgram.gates (program : SemanticProgram) : List String :=
  program.carried.flatMap ProgramStatement.ownGates

/-- Clocks that are due at every row. A terminal boundary is allowed at any row a
decision stands at. -/
def ProgramClock.alwaysDue (clock : ProgramClock) : Bool :=
  clock.timeframe = .session || clock.timeframe = .daily ||
    clock.terminalBoundaryPolicy = .fixtureEndIsBoundary

/-- The reference finds a clock due at a row of a run. -/
def SemanticProgram.DueAt (program : SemanticProgram) (run : ExchangeRun) (row : Nat)
    (clockId : String) : Prop :=
  ∀ d : Decision, d.program = program →
    d.environment.dates = run.sessions.map MarketSession.date → d.cutoff = row →
      d.due (some clockId) = .ok true

/-- Wherever the plan runs its statements, every gate of theirs is due. A
strategy with an older Selection is compiled without its Program. -/
def HonoursGates (strategy : CanonicalStrategy) (program : SemanticProgram) (plan : LeanPlan)
    (run : ExchangeRun) : Prop :=
  strategy.selection = none → ∀ row, plan.acts run row = true →
    ∀ clockId ∈ program.gates, program.DueAt run row clockId

/-- A run whose sessions have data, and whose last month ends where the weekdays
say it does. -/
structure ExchangeRun.Regular (run : ExchangeRun) (plan : LeanPlan) : Prop where
  distinct : run.tradingDays.Nodup
  complete : ∀ session ∈ run.sessions, ∀ symbol ∈ plan.subscriptions,
    (session.bars symbol).any (fun close => 0 < close) = true
  ends : ∀ session ∈ run.sessions.getLast?,
    yearMonth session.date.tomorrow.skipWeekend = yearMonth session.date →
      ∃ day ∈ run.later, yearMonth day = yearMonth session.date

end Gates

section Due

/-- A first decision of a Program at a row of a calendar. -/
def SemanticProgram.decisionAt (program : SemanticProgram) (dates : List CalendarDate) (row : Nat)
    (inRange : row < dates.length) : Decision where
  program := program
  environment :=
    { context := .exact id, snapshotId := "calendar", dates := dates, domains := Dict.empty
      daily := fun _ _ _ _ => .error .refused }
  cutoff := row
  inRange := inRange
  priorState := program.initialState
  priorEventTruths := Dict.empty

variable {program : SemanticProgram} {run : ExchangeRun} {row : Nat} {clockId : String}

theorem due_of_clock {d : Decision} {clock : ProgramClock}
    (hClock : d.program.clock? clockId = some clock) :
    d.due (some clockId) = .ok (d.clockDue clock d.cutoff true) := by
  have hFound : d.clock clockId = .ok clock := by
    unfold SemanticProgram.clock? at hClock
    simp only [Decision.clock, hClock]
  simp only [Decision.due, Decision.clockDueAt, hFound]
  rfl

theorem due_unknown {d : Decision} (hClock : d.program.clock? clockId = none) :
    d.due (some clockId) ≠ .ok true := by
  have hFound : d.clock clockId = .error (.unknownClock clockId) := by
    unfold SemanticProgram.clock? at hClock
    simp only [Decision.clock, hClock]
  simp only [Decision.due, Decision.clockDueAt, hFound]
  intro h
  cases h

theorem clockDue_always {d : Decision} {clock : ProgramClock} (h : clock.alwaysDue = true)
    (index : Nat) : d.clockDue clock index true = true := by
  simp only [ProgramClock.alwaysDue, Bool.or_eq_true, decide_eq_true_eq] at h
  unfold Decision.clockDue
  rcases h with (hSession | hDaily) | hTerminal
  · rw [hSession]
  · rw [hDaily]
  · cases clock.timeframe <;> simp [hTerminal]

theorem dueAt_always (h : (program.clock? clockId).any ProgramClock.alwaysDue = true) :
    program.DueAt run row clockId := by
  obtain ⟨clock, hClock, hAlways⟩ := (Option.any_eq_true _ _).mp h
  rintro d rfl - rfl
  rw [due_of_clock hClock, clockDue_always hAlways]

/-- At the last trading day of a month a monthly clock is due. -/
theorem clockDue_monthEnd {run : ExchangeRun} {plan : LeanPlan} {d : Decision}
    {session : MarketSession} {clock : ProgramClock}
    (hRegular : run.Regular plan)
    (hDates : d.environment.dates = run.sessions.map MarketSession.date)
    (hSession : run.sessions[d.cutoff]? = some session)
    (hFires : (LeanSchedule.monthly 1 .end).fires run.tradingDays session.date = true)
    (hMonthly : clock.timeframe = .monthly) : d.clockDue clock d.cutoff true = true := by
  have hRow : d.cutoff < run.sessions.length := (List.getElem?_eq_some_iff.mp hSession).1
  have hDate : d.date d.cutoff = session.date := by
    simp [Decision.date, hDates, hSession]
  have hDays : run.tradingDays =
      (run.earlier ++ (run.sessions.take (d.cutoff + 1)).map MarketSession.date) ++
        ((run.sessions.drop (d.cutoff + 1)).map MarketSession.date ++ run.later) := by
    simp only [ExchangeRun.tradingDays, List.append_assoc]
    rw [← List.append_assoc (List.map _ (List.take _ _)), ← List.map_append, List.take_append_drop]
  have hLater : ∀ day ∈ (run.sessions.drop (d.cutoff + 1)).map MarketSession.date ++ run.later,
      yearMonth day ≠ yearMonth session.date := by
    intro day hDay
    have hLast : (daysOfMonth run.tradingDays session.date).getLast? = some session.date := by
      have hReverse := of_decide_eq_true hFires
      rwa [Nat.sub_self, ← List.head?_eq_getElem?, List.head?_reverse] at hReverse
    have hUnique := hRegular.distinct
    rw [daysOfMonth, hDays] at hLast
    rw [hDays] at hUnique
    have hMem : session.date ∈ run.earlier ++
        (run.sessions.take (d.cutoff + 1)).map MarketSession.date :=
      List.mem_append_right _ (List.mem_map_of_mem
        (List.mem_of_getElem? (i := d.cutoff) (by simp [hSession])))
    simpa using Sequence.not_of_getLast?_filter hLast hMem hUnique day hDay
  have hFollowing : yearMonth (d.following d.cutoff) ≠ yearMonth session.date := by
    unfold Decision.following
    split
    · rename_i hNext
      rw [hDates, List.length_map] at hNext
      have hDateNext : d.date (d.cutoff + 1) = (run.sessions.get ⟨d.cutoff + 1, hNext⟩).date := by
        simp [Decision.date, hDates, List.getElem?_eq_getElem hNext]
      have hDropped : run.sessions.get ⟨d.cutoff + 1, hNext⟩ ∈ run.sessions.drop (d.cutoff + 1) :=
        List.mem_of_getElem? (i := 0) (by simp [List.getElem?_eq_getElem hNext])
      rw [hDateNext]
      exact hLater _ (List.mem_append_left _ (List.mem_map_of_mem hDropped))
    · rename_i hEnd
      rw [hDates, List.length_map] at hEnd
      have hLastRow : d.cutoff = run.sessions.length - 1 := by omega
      have hLast : session ∈ run.sessions.getLast? := by
        rw [List.getLast?_eq_getElem?, ← hLastRow]
        exact hSession
      rw [hDate]
      intro hSame
      obtain ⟨day, hDay, hMonth⟩ := hRegular.ends session hLast hSame
      exact hLater day (List.mem_append_right _ hDay) hMonth
  have hMonths : (((d.date d.cutoff).year, (d.date d.cutoff).month) ≠
      ((d.following d.cutoff).year, (d.following d.cutoff).month)) := by
    rw [hDate]
    exact hFollowing.symm
  simp only [Decision.clockDue, hMonthly, decide_eq_true hMonths, Bool.true_or]

/-- A gate that is due off a Friday is always due, or it is monthly and the
month ends there. -/
theorem clock_of_dueAt {session : MarketSession} (hDue : program.DueAt run row clockId)
    (hSession : run.sessions[row]? = some session) (hWeekday : session.date.weekday ≠ 4) :
    ∃ clock, program.clock? clockId = some clock ∧ (clock.alwaysDue = true ∨
      clock.timeframe = .monthly ∧ ∀ next, run.sessions[row + 1]? = some next →
        yearMonth next.date ≠ yearMonth session.date) := by
  have hRow : row < (run.sessions.map MarketSession.date).length := by
    simpa using (List.getElem?_eq_some_iff.mp hSession).1
  obtain ⟨d, hProgram, hDates, hCutoff⟩ : ∃ d : Decision, d.program = program ∧
      d.environment.dates = run.sessions.map MarketSession.date ∧ d.cutoff = row :=
    ⟨program.decisionAt (run.sessions.map MarketSession.date) row hRow, rfl, rfl, rfl⟩
  have hHere := hDue d hProgram hDates hCutoff
  have hDate : d.date d.cutoff = session.date := by
    simp [Decision.date, hDates, hCutoff, hSession]
  cases hClock : program.clock? clockId with
  | none => exact absurd hHere (due_unknown (by rw [hProgram, hClock]))
  | some clock =>
      refine ⟨clock, rfl, ?_⟩
      rw [due_of_clock (by rw [hProgram, hClock]), Except.ok.injEq] at hHere
      simp only [ProgramClock.alwaysDue, Bool.or_eq_true, decide_eq_true_eq]
      unfold Decision.clockDue at hHere
      simp only [Bool.true_and, hDate] at hHere
      split at hHere
      · rename_i hTime
        exact Or.inl (Or.inl (Or.inl hTime))
      · rename_i hTime
        exact Or.inl (Or.inl (Or.inr hTime))
      · simp only [Bool.or_eq_true, decide_eq_true_eq] at hHere
        exact Or.inl (Or.inr (hHere.resolve_left hWeekday))
      · rename_i hTime
        simp only [Bool.or_eq_true, decide_eq_true_eq] at hHere
        rcases hHere with hMonths | hTerminal
        · refine Or.inr ⟨hTime, fun next hNext hSame => hMonths ?_⟩
          obtain ⟨hNextRow, hNextAt⟩ := List.getElem?_eq_some_iff.mp hNext
          have hFollowing : d.following d.cutoff = next.date := by
            simp [Decision.following, Decision.date, hDates, hCutoff, hNextRow, hNextAt]
          rw [hFollowing]
          exact hSame.symm
        · exact Or.inl (Or.inr hTerminal)

/-- A gate that is due off a Friday, with the next session in the same month, is
always due. -/
theorem alwaysDue_of_dueAt {session next : MarketSession} (hDue : program.DueAt run row clockId)
    (hSession : run.sessions[row]? = some session) (hWeekday : session.date.weekday ≠ 4)
    (hNext : run.sessions[row + 1]? = some next)
    (hMonth : yearMonth next.date = yearMonth session.date) :
    (program.clock? clockId).any ProgramClock.alwaysDue = true := by
  obtain ⟨clock, hClock, hAlways | ⟨-, hEnds⟩⟩ := clock_of_dueAt hDue hSession hWeekday
  · rw [hClock]
    exact hAlways
  · exact absurd hMonth (hEnds next hNext)

end Due

section Accepted

variable {legacy : LegacyRoutes} {ids : PlanIdentities} {strategy : CanonicalStrategy}
  {program : SemanticProgram} {plan : LeanPlan}

/-- How a plan is scheduled: by its boundaries, or by one event on days or on
month ends. -/
inductive Scheduled (plan : LeanPlan) : Prop where
  | boundaries {temporal : LeanTemporalProgram} (program : plan.temporalProgram = some temporal)
      (events : plan.scheduledEvents = []) (months : plan.monthlyEvents = [])
  | event {event : LeanScheduledEvent} (program : plan.temporalProgram = none)
      (events : plan.scheduledEvents = [event]) (required : event.requiredSymbols ≠ [])
      (subscribed : ∀ symbol ∈ event.requiredSymbols, symbol ∈ plan.subscriptions)
      (schedule : event.schedule = .daily ∧ plan.monthlyEvents = [] ∨
        event.schedule = .monthly 1 .end ∧ plan.monthlyEvents ≠ [])

theorem scheduled_temporal (h : compileTemporalProgram ids strategy program = .ok (some plan)) :
    Scheduled plan := by
  obtain ⟨pieces, -, -, rfl⟩ := compileTemporalProgram_ok h
  exact .boundaries rfl rfl rfl

theorem scheduled_static {definitions : StrategyDefinitions} {identity : String}
    (h : compileStaticProgram definitions program identity = .ok (some plan)) :
    Scheduled plan := by
  obtain ⟨pieces, hOf, -, rfl⟩ := compileStaticProgram_ok h
  obtain ⟨hDaily, hMonthly, hQuarterly, hTemporal⟩ := @StaticPieces.Of.events _ _ identity _ hOf
  have hRequired : (pieces.event definitions program).requiredSymbols ≠ [] :=
    fun hNil => hOf.symbols (sortedSet_eq_nil hNil)
  have hSubscribed : ∀ symbol ∈ (pieces.event definitions program).requiredSymbols,
      symbol ∈ (pieces.plan definitions program identity).sorted.subscriptions := by
    intro symbol hSymbol
    exact mem_sortedSet.mpr hSymbol
  rcases hOf.timeframe with hTime | hTime
  · rw [hTime, if_pos rfl] at hDaily
    rw [hTime, if_neg (by decide)] at hMonthly
    refine .event hTemporal ?_ hRequired hSubscribed (Or.inl ⟨?_, hMonthly⟩)
    · rw [LeanPlan.scheduledEvents, hDaily, hMonthly, hQuarterly]
      rfl
    · simp [StaticPieces.event, StaticRoute.event, hTime]
  · rw [hTime, if_neg (by decide)] at hDaily
    rw [hTime, if_pos rfl] at hMonthly
    refine .event hTemporal ?_ hRequired hSubscribed (Or.inr ⟨?_, ?_⟩)
    · rw [LeanPlan.scheduledEvents, hDaily, hMonthly, hQuarterly]
      rfl
    · simp [StaticPieces.event, StaticRoute.event, hTime]
    · rw [hMonthly]
      exact List.cons_ne_nil _ _

theorem scheduled_accepted (hProgram : strategy.program = some program)
    (hSelection : strategy.selection = none) (h : compileV2 legacy ids strategy = .ok plan) :
    Scheduled plan := by
  obtain ⟨-, hTemporal | ⟨-, hStatic⟩⟩ := compileV2_ok hProgram hSelection h
  · exact scheduled_temporal hTemporal
  · exact scheduled_static hStatic

/-- Two sessions in the middle of a week, with data. -/
def midWeek : ExchangeRun where
  sessions := [⟨⟨2024, 1, 8⟩, fun _ => some 1⟩, ⟨⟨2024, 1, 9⟩, fun _ => some 1⟩]
  later := [⟨2024, 1, 10⟩]

/-- The last trading day of a month, a Wednesday, and the first of the next. -/
def monthEnd : ExchangeRun where
  sessions := [⟨⟨2024, 1, 31⟩, fun _ => some 1⟩, ⟨⟨2024, 2, 1⟩, fun _ => some 1⟩]
  later := [⟨2024, 2, 2⟩]

/-- A month end without data, and two sessions after it. -/
def lateData : ExchangeRun where
  sessions := [⟨⟨2024, 1, 31⟩, fun _ => none⟩, ⟨⟨2024, 2, 1⟩, fun _ => some 1⟩,
    ⟨⟨2024, 2, 2⟩, fun _ => some 1⟩]

theorem midWeek_regular (plan : LeanPlan) : midWeek.Regular plan where
  distinct := by decide
  complete := by
    intro session hSession symbol _
    simp only [midWeek, List.mem_cons, List.not_mem_nil, or_false] at hSession
    rcases hSession with rfl | rfl <;> rfl
  ends := by
    intro session hSession _
    cases hSession
    exact ⟨⟨2024, 1, 10⟩, List.mem_singleton_self _, rfl⟩

theorem monthEnd_regular (plan : LeanPlan) : monthEnd.Regular plan where
  distinct := by decide
  complete := by
    intro session hSession symbol _
    simp only [monthEnd, List.mem_cons, List.not_mem_nil, or_false] at hSession
    rcases hSession with rfl | rfl <;> rfl
  ends := by
    intro session hSession _
    cases hSession
    exact ⟨⟨2024, 2, 2⟩, List.mem_singleton_self _, rfl⟩

theorem acts_midWeek (h : Scheduled plan) (hMonths : plan.monthlyEvents = []) :
    plan.acts midWeek 0 = true := by
  cases h with
  | boundaries hTemporal _ _ => exact plan.acts_temporal hTemporal rfl
  | @event event hTemporal hEvents _ hSubscribed hSchedule =>
      rcases hSchedule with ⟨hDaily, -⟩ | ⟨-, hMonthly⟩
      · have hReady : ∀ session ∈ midWeek.sessions, event.dataIsReady session = true :=
          fun session hSession => List.all_eq_true.mpr (fun symbol hSymbol =>
            (midWeek_regular plan).complete session hSession symbol (hSubscribed symbol hSymbol))
        rw [plan.acts_event hEvents hTemporal, event.executes_ready hReady rfl, hDaily]
        rfl
      · exact absurd hMonths hMonthly

/-- A plan with a monthly event has no other, and no boundaries. -/
theorem Scheduled.monthly (h : Scheduled plan) (hMonths : plan.monthlyEvents ≠ []) :
    ∃ event, plan.temporalProgram = none ∧ plan.scheduledEvents = [event] ∧
      event.requiredSymbols ≠ [] ∧
      (∀ symbol ∈ event.requiredSymbols, symbol ∈ plan.subscriptions) ∧
      event.schedule = .monthly 1 .end := by
  cases h with
  | boundaries _ _ hNone => exact absurd hNone hMonths
  | event hTemporal hEvents hRequired hSubscribed hSchedule =>
      rcases hSchedule with ⟨-, hNone⟩ | ⟨hMonthly, -⟩
      · exact absurd hNone hMonths
      · exact ⟨_, hTemporal, hEvents, hRequired, hSubscribed, hMonthly⟩

theorem acts_monthEnd (h : Scheduled plan) (hMonths : plan.monthlyEvents ≠ []) :
    plan.acts monthEnd 0 = true := by
  obtain ⟨event, hTemporal, hEvents, -, hSubscribed, hMonthly⟩ := h.monthly hMonths
  have hReady : ∀ session ∈ monthEnd.sessions, event.dataIsReady session = true :=
    fun session hSession => List.all_eq_true.mpr (fun symbol hSymbol =>
      (monthEnd_regular plan).complete session hSession symbol (hSubscribed symbol hSymbol))
  rw [plan.acts_event hEvents hTemporal, event.executes_ready hReady rfl, hMonthly]
  decide

/-- What the month end queued is executed in the next month, with the first data. -/
theorem acts_lateData (h : Scheduled plan) (hMonths : plan.monthlyEvents ≠ []) :
    plan.acts lateData 1 = true := by
  obtain ⟨event, hTemporal, hEvents, hRequired, -, hMonthly⟩ := h.monthly hMonths
  obtain ⟨first, rest, hSymbols⟩ := List.exists_cons_of_ne_nil hRequired
  have hWaits : event.dataIsReady ⟨⟨2024, 1, 31⟩, fun _ => none⟩ = false := by
    simp [LeanScheduledEvent.dataIsReady, hSymbols]
  have hReady : event.dataIsReady ⟨⟨2024, 2, 1⟩, fun _ => some 1⟩ = true := by
    simp [LeanScheduledEvent.dataIsReady]
  have hFires : (LeanSchedule.monthly 1 .end).fires lateData.tradingDays ⟨2024, 1, 31⟩ = true := by
    decide
  have hQueued : event.pendingAfter lateData.tradingDays none
      ⟨⟨2024, 1, 31⟩, fun _ => none⟩ = some ⟨2024, 1, 31⟩ := by
    simp only [LeanScheduledEvent.pendingAfter, hWaits, LeanScheduledEvent.queued, hMonthly, hFires]
    rfl
  have hRow : lateData.sessions[1]? = some ⟨⟨2024, 2, 1⟩, fun _ => some 1⟩ := rfl
  have hBefore : lateData.sessions.take 1 = [⟨⟨2024, 1, 31⟩, fun _ => none⟩] := rfl
  rw [plan.acts_event hEvents hTemporal]
  simp only [LeanScheduledEvent.executes, hRow, hBefore, Option.any_some, List.foldl_cons,
    List.foldl_nil, hQueued, LeanScheduledEvent.executesOn, hReady, Bool.and_true]
  unfold LeanScheduledEvent.queued
  split <;> rfl

/-- Clocks whose gates the schedule of a plan implies. -/
def ProgramClock.keptBy (clock : ProgramClock) (plan : LeanPlan) : Bool :=
  clock.alwaysDue || (clock.timeframe = .monthly && !plan.monthlyEvents.isEmpty)

theorem alwaysDue_midWeek (h : Scheduled plan) (hMonths : plan.monthlyEvents = [])
    (hHonours : HonoursGates strategy program plan midWeek) (hSelection : strategy.selection = none)
    {clockId : String} (hGate : clockId ∈ program.gates) :
    (program.clock? clockId).any ProgramClock.alwaysDue = true :=
  alwaysDue_of_dueAt (hHonours hSelection 0 (acts_midWeek h hMonths) clockId hGate) rfl
    (by decide) rfl rfl

/-- On a regular run a plan with a monthly event acts at month ends only. -/
theorem dueAt_monthly (h : Scheduled plan) (hMonths : plan.monthlyEvents ≠ []) {run : ExchangeRun}
    (hRegular : run.Regular plan) {row : Nat} (hActs : plan.acts run row = true)
    {clock : ProgramClock} {clockId : String} (hClock : program.clock? clockId = some clock)
    (hMonthly : clock.timeframe = .monthly) : program.DueAt run row clockId := by
  obtain ⟨event, hTemporal, hEvents, -, hSubscribed, hSchedule⟩ := h.monthly hMonths
  have hReady : ∀ session ∈ run.sessions, event.dataIsReady session = true :=
    fun session hSession => List.all_eq_true.mpr (fun symbol hSymbol =>
      hRegular.complete session hSession symbol (hSubscribed symbol hSymbol))
  rw [plan.acts_event hEvents hTemporal] at hActs
  cases hSession : run.sessions[row]? with
  | none => simp [LeanScheduledEvent.executes, hSession] at hActs
  | some session =>
      rw [event.executes_ready hReady hSession, hSchedule] at hActs
      rintro d rfl hDates rfl
      rw [due_of_clock hClock, clockDue_monthEnd hRegular hDates hSession hActs hMonthly]

/-- An asset held on the weekly clock while idle, and cash in other states. -/
def weeklyProgram : SemanticProgram :=
  .temporal (Dict.ofList [("phase", "idle")]) [.onEvent "statement" weekAbove []]
    (.inState "phase" "idle"
      { AllocationStatement.wholly "held" (.asset "A") (AllocationTargetKind.asset_ne_retain "A") with
        clockId := some "weekly" }
      (.wholly "otherwise" .cash AllocationTargetKind.cash_ne_retain))

def weeklyStrategy : CanonicalStrategy :=
  .ofProgram crossStrategy.definitions weeklyProgram

/-- A Monday. -/
def mondaySnapshot : DailyMarketSnapshot :=
  (DailyMarketSnapshot.single "A" (⟨2024, 1, 8⟩, some 10) []).withSeries "B" [some 20] rfl

def mondayRun : ExchangeRun where
  sessions := mondaySnapshot.sessions

/-- Orders of each boundary of a snapshot. -/
def ordersOver (snapshot : DailyMarketSnapshot) (plan : LeanPlan) (temporal : LeanTemporalProgram) :
    List (Option (List (String × ℚ))) :=
  (onSessions plainNumbers plan temporal snapshot.sessions (plan.startState temporal)).2.map
    (fun report => report.orders.map Dict.entries)

/-- Routes that compile nothing by way of the older format. -/
def noLegacy : LegacyRoutes where
  strategy := fun _ => .error .assertionFailed
  selection := fun _ _ => .error .assertionFailed

end Accepted

end RuleTrade
