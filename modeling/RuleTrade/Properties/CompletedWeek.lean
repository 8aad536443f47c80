import RuleTrade.Backend.Checkpoint
import RuleTrade.Properties.SelectionStages
import RuleTrade.Properties.Lookahead

/-! Completed weeks: the generated algorithm rolls one pair of weeks forward,
the close of which is the anchor's, and the reference looks the completed row
up for each value. -/

namespace RuleTrade

open Library

section Boundary

variable (numbers : GeneratedNumbers)

@[simp] theorem apply_weekly (g : GeneratedState) (action : LeanTemporalAction) :
    (action.apply numbers g).weekly = g.weekly := by
  cases action with
  | remember semanticId memoryId value =>
      cases hRead : value.kind.read numbers g <;> simp [LeanTemporalAction.apply, hRead]
  | transition semanticId stateKey fromValue toValue =>
      rw [LeanTemporalAction.apply]
      split_ifs <;> rfl

@[simp] theorem apply_dailyCloses (g : GeneratedState) (action : LeanTemporalAction) :
    (action.apply numbers g).dailyCloses = g.dailyCloses := by
  cases action with
  | remember semanticId memoryId value =>
      cases hRead : value.kind.read numbers g <;> simp [LeanTemporalAction.apply, hRead]
  | transition semanticId stateKey fromValue toValue =>
      rw [LeanTemporalAction.apply]
      split_ifs <;> rfl

/-- Fields passed while the events of a boundary run. -/
inductive DuringBoundary (opened : GeneratedState) : GeneratedState → Prop where
  | opened : DuringBoundary opened opened
  | recorded {g : GeneratedState} (event : LeanTemporalEvent) (prior : DuringBoundary opened g) :
      DuringBoundary opened (event.record numbers g)
  | acted {g : GeneratedState} (action : LeanTemporalAction) (prior : DuringBoundary opened g) :
      DuringBoundary opened (action.apply numbers g)

variable {numbers}

theorem DuringBoundary.actions {opened g : GeneratedState} (actions : List LeanTemporalAction)
    (h : DuringBoundary numbers opened g) :
    DuringBoundary numbers opened (actions.foldl (LeanTemporalAction.apply numbers) g) := by
  induction actions generalizing g with
  | nil => exact h
  | cons action rest ih => exact ih (h.acted action)

theorem DuringBoundary.step {opened g : GeneratedState} (event : LeanTemporalEvent)
    (h : DuringBoundary numbers opened g) :
    DuringBoundary numbers opened (event.step numbers g) := by
  unfold LeanTemporalEvent.step
  split_ifs
  · exact (h.recorded event).actions event.actions
  · exact h.recorded event

/-- The fields events leave are fields passed while they run. -/
theorem DuringBoundary.events {opened g : GeneratedState} (events : List LeanTemporalEvent)
    (h : DuringBoundary numbers opened g) :
    DuringBoundary numbers opened (runEvents numbers events g).1 := by
  induction events generalizing g with
  | nil => exact h
  | cons event rest ih => exact ih (h.step event)

theorem DuringBoundary.weekly {opened g : GeneratedState} (h : DuringBoundary numbers opened g) :
    g.weekly = opened.weekly := by
  induction h with
  | opened => rfl
  | recorded event prior ih => exact ih
  | acted action prior ih => exact (apply_weekly numbers _ action).trans ih

theorem DuringBoundary.dailyCloses {opened g : GeneratedState}
    (h : DuringBoundary numbers opened g) : g.dailyCloses = opened.dailyCloses := by
  induction h with
  | opened => rfl
  | recorded event prior ih => exact ih
  | acted action prior ih => exact (apply_dailyCloses numbers _ action).trans ih

end Boundary

section Windows

variable {plan : LeanPlan} {program : LeanTemporalProgram}

theorem le_foldl_max {start item : Nat} {items : List Nat} (h : item ≤ start ∨ item ∈ items) :
    item ≤ items.foldl max start := by
  induction items generalizing start with
  | nil => simpa using h
  | cons head rest ih =>
      apply ih
      rcases h with h | h
      · exact .inl (h.trans (le_max_left _ _))
      · rcases List.mem_cons.mp h with rfl | h
        · exact .inl (le_max_right _ _)
        · exact .inr h

theorem LeanPlan.historyCapacity_pos (plan : LeanPlan) : 1 ≤ plan.historyCapacity :=
  le_foldl_max (.inl le_rfl)

theorem LeanPlan.anchor_mem_historySymbols (hPlan : plan.temporalProgram = some program) :
    program.anchorSymbol ∈ plan.historySymbols := by
  apply List.mem_dedup.mpr
  simp [hPlan]

@[simp] theorem addCloses_keys (capacity : Nat) (bars : String → Option ℚ) (g : GeneratedState) :
    (g.addCloses capacity bars).dailyCloses.keys = g.dailyCloses.keys := by
  simp [GeneratedState.addCloses, Dict.mapEntries, Dict.keys]

/-- A bar of a tracked ticker is its current price. -/
theorem currentPrice_addCloses {capacity : Nat} {bars : String → Option ℚ} {g : GeneratedState}
    {ticker : String} {close : ℚ} (hCapacity : 1 ≤ capacity) (hKey : ticker ∈ g.dailyCloses.keys)
    (hBar : bars ticker = some close) :
    (g.addCloses capacity bars).currentPrice ticker = some close := by
  obtain ⟨window, hWindow⟩ := Option.isSome_iff_exists.mp (Dict.get?_isSome_iff.mpr hKey)
  obtain ⟨size, rfl⟩ := Nat.exists_eq_add_of_le' hCapacity
  simp [GeneratedState.currentPrice, GeneratedState.addCloses, Dict.getD, Dict.get?_mapEntries,
    hWindow, hBar]

/-- The fields at the events of a boundary have rolled into its week. -/
theorem boundaryState_weekly (hPlan : plan.temporalProgram = some program)
    (hProfile : program.profile ≠ .eventStateDaily) {g : GeneratedState} {session : MarketSession}
    {close : ℚ} (hKeys : plan.historySymbols ⊆ g.dailyCloses.keys)
    (hBar : session.bars program.anchorSymbol = some close) :
    (boundaryState plan program session g).weekly = g.weekly.roll session.date (some close) := by
  have hPrice : (g.addCloses plan.historyCapacity session.bars).currentPrice program.anchorSymbol =
      some close :=
    currentPrice_addCloses plan.historyCapacity_pos
      (hKeys (plan.anchor_mem_historySymbols hPlan)) hBar
  simp only [boundaryState, LeanTemporalProgram.rollWeek, if_neg hProfile, hPrice]
  rfl

end Windows

section Weeks

/-- The last session of another week than a date's. -/
def lastOfOtherWeek (past : List MarketSession) (date : CalendarDate) : Option MarketSession :=
  past.reverse.find? (fun session => session.date.isoWeek ≠ date.isoWeek)

/-- Sessions with a bar of a ticker. -/
def sessionsOf (ticker : String) (past : List MarketSession) : List MarketSession :=
  past.filter (fun session => (session.bars ticker).isSome)

/-- Weekly context after sessions that all have a bar of the anchor. -/
def weeklyAfter (anchor : String) (past : List MarketSession) : WeeklyContext :=
  past.foldl (fun weekly session => weekly.roll session.date (session.bars anchor)) {}

theorem weeklyAfter_append (anchor : String) (past : List MarketSession) (session : MarketSession) :
    weeklyAfter anchor (past ++ [session]) =
      (weeklyAfter anchor past).roll session.date (session.bars anchor) := by
  simp [weeklyAfter]

theorem sessionsOf_append_some {anchor : String} {past : List MarketSession}
    {session : MarketSession} (h : (session.bars anchor).isSome = true) :
    sessionsOf anchor (past ++ [session]) = sessionsOf anchor past ++ [session] := by
  simp [sessionsOf, h]

theorem sessionsOf_append_none {anchor : String} {past : List MarketSession}
    {session : MarketSession} (h : session.bars anchor = none) :
    sessionsOf anchor (past ++ [session]) = sessionsOf anchor past := by
  simp [sessionsOf, h]

theorem lastOfOtherWeek_append (past : List MarketSession) (session : MarketSession)
    (date : CalendarDate) :
    lastOfOtherWeek (past ++ [session]) date =
      if session.date.isoWeek ≠ date.isoWeek then some session else lastOfOtherWeek past date := by
  unfold lastOfOtherWeek
  rw [List.reverse_append, List.reverse_singleton, List.singleton_append, List.find?_cons]
  by_cases h : session.date.isoWeek ≠ date.isoWeek <;> simp [h]

theorem lastOfOtherWeek_congr (past : List MarketSession) {date other : CalendarDate}
    (h : date.isoWeek = other.isoWeek) : lastOfOtherWeek past date = lastOfOtherWeek past other := by
  rw [lastOfOtherWeek, lastOfOtherWeek, h]

/-- Rolling into a date completes the last session of another week. The
induction is on the sessions, last one first. -/
theorem completedClose_roll (anchor : String) (past : List MarketSession) (date : CalendarDate)
    (close : Option ℚ) :
    ((weeklyAfter anchor past).roll date close).completedClose =
      (lastOfOtherWeek past date).bind (fun session => session.bars anchor) := by
  induction past using List.reverseRecOn generalizing date close with
  | nil => rfl
  | append_singleton front last ih =>
      rw [weeklyAfter_append, lastOfOtherWeek_append]
      by_cases hWeek : last.date.isoWeek ≠ date.isoWeek
      · simp [WeeklyContext.roll, hWeek]
      · rw [if_neg hWeek, ← lastOfOtherWeek_congr front (not_not.mp hWeek),
          ← ih last.date (last.bars anchor)]
        simp [WeeklyContext.roll, not_not.mp hWeek]

end Weeks

section Restarts

variable {codec : CheckpointCodec} {plan : LeanPlan} {program : LeanTemporalProgram}

/-- A close comes back from its print as the number it was. -/
def CheckpointCodec.Keeps (codec : CheckpointCodec) (close : ℚ) : Prop :=
  codec.numbers.text close ≠ "" ∧
    (codec.parse (codec.numbers.text close)).map codec.numbers.literal = some close

instance (codec : CheckpointCodec) (close : ℚ) : Decidable (codec.Keeps close) :=
  inferInstanceAs (Decidable (_ ∧ _))

theorem decodeClose_closeText {close decoded : Option ℚ}
    (hKeeps : ∀ number, close = some number → codec.Keeps number)
    (hDecoded : decodeClose codec (closeText codec close) = .ok decoded) :
    decoded.map codec.numbers.literal = close := by
  cases close with
  | none =>
      have hNone : decodeClose codec (closeText codec none) = .ok none := if_pos rfl
      rw [hNone, Except.ok.injEq] at hDecoded
      rw [← hDecoded, Option.map_none]
  | some number =>
      obtain ⟨hText, hRead⟩ := hKeeps number rfl
      have hPrinted : closeText codec (some number) = codec.numbers.text number := rfl
      rw [hPrinted, decodeClose, if_neg hText] at hDecoded
      cases hParsed : codec.parse (codec.numbers.text number) with
      | none => simp [hParsed] at hDecoded
      | some parsed =>
          rw [hParsed] at hDecoded hRead
          simp only [Except.ok.injEq] at hDecoded
          rw [← hDecoded, hRead]

/-- The weekly fields of a decoded checkpoint are those of the evidence. -/
theorem checkpointFromEvidence_weekly {record : CheckpointEvidence} {c : LeanTemporalCheckpoint}
    (h : checkpointFromEvidence codec record = .ok c) :
    c.activeWeekKey = record.activeWeekKey ∧ c.activeWeekCutoff = record.activeWeekCutoff ∧
      c.completedWeeklySourceCutoff = record.completedWeeklySourceCutoff ∧
      c.completedWeeklyAvailableCutoff = record.completedWeeklyAvailableCutoff ∧
      decodeClose codec record.activeWeekClose = .ok c.activeWeekClose ∧
      decodeClose codec record.completedWeeklyClose = .ok c.completedWeeklyClose := by
  unfold checkpointFromEvidence at h
  obtain ⟨index, -, h⟩ := except_bind_ok.mp h
  obtain ⟨entered, -, h⟩ := except_bind_ok.mp h
  obtain ⟨cutoffs, -, h⟩ := except_bind_ok.mp h
  obtain ⟨counts, -, h⟩ := except_bind_ok.mp h
  obtain ⟨memory, -, h⟩ := except_bind_ok.mp h
  obtain ⟨captures, -, h⟩ := except_bind_ok.mp h
  obtain ⟨active, hActive, h⟩ := except_bind_ok.mp h
  obtain ⟨completed, hCompleted, h⟩ := except_bind_ok.mp h
  rw [Except.ok.injEq] at h
  rw [← h]
  exact ⟨rfl, rfl, rfl, rfl, hActive, hCompleted⟩

/-- Loading a stored document leaves the weekly fields and the windows of the
warm-up in place. -/
theorem resume_weekly {snapshotId : String} {cutoff resumeStart : CalendarDate}
    {g resumed warmed : GeneratedState}
    (hActive : ∀ number, g.weekly.activeWeekClose = some number → codec.Keeps number)
    (hCompleted : ∀ number, g.weekly.completedClose = some number → codec.Keeps number)
    (h : resume codec plan program snapshotId cutoff resumeStart g warmed = .ok resumed) :
    resumed.weekly = g.weekly ∧ resumed.dailyCloses = warmed.dailyCloses := by
  unfold resume at h
  obtain ⟨decoded, hDecoded, h⟩ := except_bind_ok.mp h
  obtain ⟨loaded, hLoaded, h⟩ := except_bind_ok.mp h
  obtain ⟨accepted, hAccepted, h⟩ := except_bind_ok.mp h
  rw [Except.ok.injEq] at h
  unfold deserializeCheckpoint at hLoaded
  split_ifs at hLoaded with hHash
  rw [Except.ok.injEq] at hLoaded
  unfold validateCheckpoint at hAccepted
  obtain ⟨-, -, hAccepted⟩ := except_bind_ok.mp hAccepted
  obtain ⟨-, -, hAccepted⟩ := except_bind_ok.mp hAccepted
  rw [Except.ok.injEq] at hAccepted
  subst hAccepted hLoaded h
  obtain ⟨hKey, hCutoff, hSource, hAvailable, hActiveClose, hCompletedClose⟩ :=
    checkpointFromEvidence_weekly hDecoded
  refine ⟨?_, rfl⟩
  change WeeklyContext.mk decoded.activeWeekKey (decoded.activeWeekClose.map codec.numbers.literal)
    decoded.activeWeekCutoff (decoded.completedWeeklyClose.map codec.numbers.literal)
    decoded.completedWeeklySourceCutoff decoded.completedWeeklyAvailableCutoff = g.weekly
  rw [hKey, hCutoff, hSource, hAvailable, decodeClose_closeText hActive hActiveClose,
    decodeClose_closeText hCompleted hCompletedClose]
  rfl

/-- Closes a weekly context holds are bars of its sessions. -/
theorem weeklyAfter_closes {anchor : String} {past : List MarketSession} {number : ℚ}
    (h : (weeklyAfter anchor past).activeWeekClose = some number ∨
      (weeklyAfter anchor past).completedClose = some number) :
    ∃ session ∈ past, session.bars anchor = some number := by
  induction past using List.reverseRecOn with
  | nil => rcases h with h | h <;> cases h
  | append_singleton front last ih =>
      rw [weeklyAfter_append] at h
      rcases h with hActive | hCompleted
      · exact ⟨last, by simp, hActive⟩
      · rw [completedClose_roll] at hCompleted
        obtain ⟨session, hFound, hClose⟩ := Option.bind_eq_some_iff.mp hCompleted
        have hMem := List.mem_reverse.mp (List.mem_of_find?_eq_some hFound)
        exact ⟨session, List.mem_append_left _ hMem, hClose⟩

/-- One session of a run rolls the weekly context of its boundaries. -/
theorem onData_weekly (hPlan : plan.temporalProgram = some program)
    (hProfile : program.profile ≠ .eventStateDaily) {past : List MarketSession}
    {g : GeneratedState} (session : MarketSession)
    (hWeekly : g.weekly = weeklyAfter program.anchorSymbol (sessionsOf program.anchorSymbol past))
    (hKeys : plan.historySymbols ⊆ g.dailyCloses.keys) :
    (onData codec.numbers plan program session g).1.weekly =
        weeklyAfter program.anchorSymbol (sessionsOf program.anchorSymbol (past ++ [session])) ∧
      plan.historySymbols ⊆ (onData codec.numbers plan program session g).1.dailyCloses.keys := by
  unfold onData
  cases hBar : session.bars program.anchorSymbol with
  | none =>
      refine ⟨?_, by simpa using hKeys⟩
      rw [sessionsOf_append_none hBar]
      exact hWeekly
  | some close =>
      have hRan : DuringBoundary codec.numbers (boundaryState plan program session g)
          (runEvents codec.numbers program.events (boundaryState plan program session g)).1 :=
        DuringBoundary.opened.events program.events
      have hOpened : (boundaryState plan program session g).dailyCloses.keys =
          g.dailyCloses.keys := by
        simp only [boundaryState, LeanTemporalProgram.rollWeek, if_neg hProfile]
        exact addCloses_keys plan.historyCapacity session.bars g
      refine ⟨?_, ?_⟩
      · rw [sessionsOf_append_some (by rw [hBar]; rfl), weeklyAfter_append, hBar, ← hWeekly,
          ← boundaryState_weekly hPlan hProfile hKeys hBar]
        exact hRan.weekly
      · have hKept : (runEvents codec.numbers program.events
            (boundaryState plan program session g)).1.dailyCloses.keys = g.dailyCloses.keys :=
          (congrArg Dict.keys hRan.dailyCloses).trans hOpened
        intro ticker hTicker
        exact hKept ▸ hKeys hTicker

/-- The weekly context of a run is that of its boundaries, wherever it restarted. -/
theorem GeneratedRun.weekly (hPlan : plan.temporalProgram = some program)
    (hProfile : program.profile ≠ .eventStateDaily) {past : List MarketSession}
    {g : GeneratedState} (run : GeneratedRun codec plan program past g)
    (hKeeps : ∀ session ∈ past, ∀ close, session.bars program.anchorSymbol = some close →
      codec.Keeps close) :
    g.weekly = weeklyAfter program.anchorSymbol (sessionsOf program.anchorSymbol past) ∧
      plan.historySymbols ⊆ g.dailyCloses.keys := by
  induction run with
  | start hWindows => exact ⟨rfl, hWindows⟩
  | session prior session ih =>
      obtain ⟨hWeekly, hKeys⟩ := ih (fun s hs => hKeeps s (List.mem_append_left _ hs))
      exact onData_weekly hPlan hProfile session hWeekly hKeys
  | restart prior hWindows hResumed ih =>
      obtain ⟨hWeekly, hKeys⟩ := ih hKeeps
      have hHeld {number : ℚ} (session : MarketSession)
          (hMem : session ∈ sessionsOf program.anchorSymbol _) := hKeeps session
        (List.mem_filter.mp hMem).1 number
      obtain ⟨hSame, hWarmed⟩ := resume_weekly
        (fun number hNumber => by
          rw [hWeekly] at hNumber
          obtain ⟨session, hMem, hClose⟩ := weeklyAfter_closes (.inl hNumber)
          exact hHeld session hMem hClose)
        (fun number hNumber => by
          rw [hWeekly] at hNumber
          obtain ⟨session, hMem, hClose⟩ := weeklyAfter_closes (.inr hNumber)
          exact hHeld session hMem hClose) hResumed
      exact ⟨hSame.trans hWeekly, hWarmed ▸ hWindows⟩

/-- What a completed-week value reads at the events of a boundary. -/
theorem completedWeek_read (hPlan : plan.temporalProgram = some program)
    (hProfile : program.profile ≠ .eventStateDaily) {past : List MarketSession}
    {g : GeneratedState} (run : GeneratedRun codec plan program past g)
    (hKeeps : ∀ session ∈ past, ∀ close, session.bars program.anchorSymbol = some close →
      codec.Keeps close) {session : MarketSession} {close : ℚ}
    (hBar : session.bars program.anchorSymbol = some close) {h : GeneratedState}
    (hDuring : DuringBoundary codec.numbers (boundaryState plan program session g) h)
    (asset clockId : String) :
    (LeanTemporalValueKind.completedWeeklyPrice asset clockId).read codec.numbers h =
      (lastOfOtherWeek (sessionsOf program.anchorSymbol past) session.date).bind
        (fun session => session.bars program.anchorSymbol) := by
  obtain ⟨hWeekly, hKeys⟩ := run.weekly hPlan hProfile hKeeps
  calc h.weekly.completedClose
      = (boundaryState plan program session g).weekly.completedClose := by rw [hDuring.weekly]
    _ = (g.weekly.roll session.date (some close)).completedClose := by
        rw [boundaryState_weekly hPlan hProfile hKeys hBar]
    _ = _ := by rw [hWeekly, completedClose_roll]

end Restarts

section Reference

variable {snapshot : DailyMarketSnapshot} {asset : String}

theorem fieldValues_length {symbol : String} {series : Series}
    (h : snapshot.fieldValues symbol .close .adjusted = .ok series) :
    series.length = snapshot.dates.length := by
  unfold DailyMarketSnapshot.fieldValues at h
  cases hFields : (snapshot.series.get? symbol).bind
      (fun fields => fields.get? (.close, .adjusted)) with
  | none => simp [hFields] at h
  | some values =>
      simp only [hFields, Except.ok.injEq] at h
      obtain ⟨fields, hFound, hValues⟩ := Option.bind_eq_some_iff.mp hFields
      have hOwner := List.mem_map_of_mem (f := Prod.snd) (Dict.mem_of_get? hFound)
      have hSeries := List.mem_map_of_mem (f := Prod.snd) (Dict.mem_of_get? hValues)
      rw [← h]
      exact snapshot.series_lengths fields hOwner values hSeries

/-- Nodes whose asset is known observe its adjusted close. -/
theorem adjustedCloseAsset_eq {node : DailyValueNode}
    (h : node.adjustedCloseAsset = some asset) :
    ∃ attrs, node = .observe attrs .close .adjusted ∧ attrs.subjectKind = some .asset ∧
      attrs.subjectId = some asset := by
  cases node with
  | observe attrs field basis =>
      cases field <;> cases basis <;> simp only [DailyValueNode.adjustedCloseAsset,
        reduceCtorEq] at h
      split_ifs at h with hKind
      obtain ⟨hId, -⟩ := Option.filter_eq_some_iff.mp h
      exact ⟨attrs, rfl, hKind, hId⟩
  | _ => cases h

/-- An observed asset reads its adjusted close of the row. -/
theorem dailyReading_adjustedClose {node : DailyValueNode} {series : Series} {row : Nat}
    (hNode : node.adjustedCloseAsset = some asset)
    (hSeries : snapshot.fieldValues asset .close .adjusted = .ok series)
    (hRow : row < snapshot.dates.length) (ctx : DecimalContext)
    (candidate bindingId : Option String) :
    ∃ reading, snapshot.dailyReading ctx row node candidate bindingId = .ok reading ∧
      reading.value = snapshot.adjustedClose asset row := by
  obtain ⟨attrs, rfl, hKind, hId⟩ := adjustedCloseAsset_eq hNode
  have hLength := fieldValues_length hSeries
  obtain ⟨close, hClose⟩ : ∃ close, series[row]? = some close :=
    ⟨_, List.getElem?_eq_getElem (hLength ▸ hRow)⟩
  have hLast : (series.take (row + 1)).getLast? = some close := by
    rw [List.getLast?_take]
    simp [hClose]
  have hStream : stream ctx (snapshot.view row) asset (.observe attrs .close .adjusted) =
      .ok (series.take (row + 1)) := by
    simp [stream, DailyMarketSnapshot.view, hSeries, Bind.bind, Except.bind]
  have hNow : observedNow (snapshot.view row) = [snapshot.dates[row]] := by
    simp [observedNow, DailyMarketSnapshot.view, hRow]
  obtain ⟨cell, hCell, hCells⟩ : ∃ cell : DailyCell, cell.value = close ∧
      currentCells ctx (snapshot.view row) (.observe attrs .close .adjusted)
        "observation_unavailable" [asset] = .ok (Dict.empty.set [.member asset] cell) := by
    refine ⟨⟨close, if close.isSome then none else some "observation_unavailable"⟩, rfl, ?_⟩
    simp [currentCells, hStream, hLast, Bind.bind, Except.bind, Pure.pure, Except.pure]
  obtain ⟨inferred, hTyped, hAxes⟩ : ∃ inferred,
      typed bindingId (.observe attrs .close .adjusted) = .ok inferred ∧ inferred.axes = [] := by
    simp [typed, inferDailyType, observeType, hKind, Except.mapError]
  have hEvaluated : evaluate ctx (snapshot.view row) candidate bindingId
      (.observe attrs .close .adjusted) =
        .ok ⟨inferred, inferred.axes, Dict.empty.set [] cell, [snapshot.dates[row]]⟩ := by
    simp [evaluate, hTyped, evaluateCurrent, observedSymbols, hKind, hId, hCells, hAxes, hNow,
      Bind.bind, Except.bind, Dict.values, Dict.set, Dict.empty, Dict.write]
  refine ⟨⟨cell.value, cell.reason, snapshot.dates[row]⟩, ?_, ?_⟩
  · simp [DailyMarketSnapshot.dailyReading, hEvaluated, hAxes, Except.mapError, Bind.bind,
      Except.bind]
  · simp [DailyMarketSnapshot.adjustedClose, hSeries, hClose, hCell]

variable {d : Decision} {r : Runtime} {ctx : DecimalContext}

theorem cutoff_lt (hEnvironment : d.environment = snapshot.environment ctx) :
    d.cutoff < snapshot.dates.length := by
  have hDates : d.environment.dates = snapshot.dates := by
    rw [hEnvironment]
    rfl
  exact hDates ▸ d.inRange

/-- A daily reading of an observed asset is its adjusted close of the row. -/
theorem daily_result (hEnvironment : d.environment = snapshot.environment ctx)
    {source : DailyValueNode} {series : Series} {row : Nat}
    (hSource : source.adjustedCloseAsset = some asset)
    (hSeries : snapshot.fieldValues asset .close .adjusted = .ok series)
    (hRow : row < snapshot.dates.length) (bindingId candidate : Option String) :
    ∃ observation, (d.daily source candidate bindingId (row : Nat)).result = .ok observation ∧
      observation.value = snapshot.adjustedClose asset row := by
  obtain ⟨reading, hReading, hClose⟩ :=
    dailyReading_adjustedClose hSource hSeries hRow ctx candidate bindingId
  have hRead : d.environment.daily row source candidate bindingId = .ok reading := by
    rw [hEnvironment]
    exact hReading
  have hRange : ¬((row : Int) < 0 ∨ (d.environment.dates.length : Int) ≤ row) := by
    rw [hEnvironment]
    change ¬((row : Int) < 0 ∨ (snapshot.dates.length : Int) ≤ row)
    omega
  rw [Decision.daily, if_neg hRange, Int.toNat_natCast,
    Logged.result_bind_of_ok ((Logged.result_lift _).trans hRead)]
  exact ⟨_, rfl, hClose⟩

/-- A completed-clock value is the close of the row the clock completed last. -/
theorem clockedValue_result (hEnvironment : d.environment = snapshot.environment ctx)
    {source : DailyValueNode} {series : Series} {clock : ProgramClock} {clockId : String}
    (hSource : source.adjustedCloseAsset = some asset)
    (hSeries : snapshot.fieldValues asset .close .adjusted = .ok series)
    (hClock : d.clock clockId = .ok clock) (id : String) (bindingId : Option String)
    (members : List String) (candidate : Option String) :
    ∃ observation, (value d r bindingId members (.clockedValue id source clockId) candidate).result =
        .ok observation ∧
      observation.value = (d.completedRow clock).bind (snapshot.adjustedClose asset) := by
  have hBoundary : (Logged.lift (d.lastCompletedClockCutoff clockId) :
      Evaluation (Option Nat)).result = .ok (d.completedRow clock) := by
    rw [Logged.result_lift, Decision.lastCompletedClockCutoff, hClock]
    rfl
  rw [value, Logged.result_bind_of_ok hBoundary]
  cases hRow : d.completedRow clock with
  | none => exact ⟨_, rfl, rfl⟩
  | some row =>
      have hInside : row < snapshot.dates.length :=
        (completedRow_le hRow).trans_lt (cutoff_lt hEnvironment)
      obtain ⟨observation, hDaily, hClose⟩ :=
        daily_result hEnvironment hSource hSeries hInside bindingId candidate
      refine ⟨_, by rw [Logged.result_bind_of_ok hDaily]; rfl, ?_⟩
      exact hClose

theorem sessions_getElem? (snapshot : DailyMarketSnapshot) (row : Nat) :
    snapshot.sessions[row]? = (snapshot.dates[row]?).map (fun date =>
      ⟨date, fun symbol => snapshot.adjustedClose symbol row⟩) := by
  simp [DailyMarketSnapshot.sessions, Option.map_map, Function.comp_def]

/-- Sessions before the cutoff, by row. -/
theorem sessions_take (hEnvironment : d.environment = snapshot.environment ctx) :
    snapshot.sessions.take d.cutoff = (List.range d.cutoff).map (fun row =>
      ⟨d.date row, fun symbol => snapshot.adjustedClose symbol row⟩) := by
  apply List.ext_getElem?
  intro row
  by_cases hRow : row < d.cutoff
  · have hInside : row < snapshot.dates.length := hRow.trans (cutoff_lt hEnvironment)
    have hDate : d.date row = snapshot.dates[row] := by
      simp [Decision.date, hEnvironment, DailyMarketSnapshot.environment, hInside]
    rw [List.getElem?_take_of_lt hRow, sessions_getElem?]
    simp [hRow, hInside, hDate]
  · simp [hRow]

/-- A weekly clock without a terminal boundary completes the close of the last
session of another week. -/
theorem completedRow_weekly (hEnvironment : d.environment = snapshot.environment ctx)
    {clock : ProgramClock} (hWeekly : clock.timeframe = .weekly)
    (hTerminal : clock.terminalBoundaryPolicy ≠ .fixtureEndIsBoundary) (asset : String) :
    (d.completedRow clock).bind (snapshot.adjustedClose asset) =
      (lastOfOtherWeek (snapshot.sessions.take d.cutoff) (d.date d.cutoff)).bind
        (fun session => session.bars asset) := by
  simp only [Decision.completedRow, hWeekly, hTerminal, false_and, if_false, lastOfOtherWeek,
    sessions_take hEnvironment, ← List.map_reverse, List.find?_map, Option.bind_map]
  rfl

end Reference

section Result

variable {codec : CheckpointCodec} {plan : LeanPlan} {program : LeanTemporalProgram}

/-- At the events of every boundary of every run, a completed-week value is what
the reference reads exactly when the close that its own asset completed is the
close of the anchor in its last session of another week. -/
theorem completed_week_iff (hPlan : plan.temporalProgram = some program)
    (hProfile : program.profile ≠ .eventStateDaily) {snapshot : DailyMarketSnapshot}
    {ctx : DecimalContext} {d : Decision} (hEnvironment : d.environment = snapshot.environment ctx)
    {g : GeneratedState} (run : GeneratedRun codec plan program (snapshot.sessions.take d.cutoff) g)
    (hKeeps : ∀ session ∈ snapshot.sessions, ∀ close,
      session.bars program.anchorSymbol = some close → codec.Keeps close)
    {session : MarketSession} (hSession : snapshot.sessions[d.cutoff]? = some session)
    {close : ℚ} (hBar : session.bars program.anchorSymbol = some close) {h : GeneratedState}
    (hDuring : DuringBoundary codec.numbers (boundaryState plan program session g) h)
    {id asset clockId : String} {source : DailyValueNode}
    (hLowered : temporalValue (.clockedValue id source clockId) =
      .ok ⟨id, .completedWeeklyPrice asset clockId⟩) {series : Series}
    (hSeries : snapshot.fieldValues asset .close .adjusted = .ok series) {clock : ProgramClock}
    (hClock : d.clock clockId = .ok clock) (r : Runtime) (bindingId : Option String)
    (members : List String) (candidate : Option String) :
    ∃ observation,
      (value d r bindingId members (.clockedValue id source clockId) candidate).result =
          .ok observation ∧
        (clock.timeframe = .weekly → clock.terminalBoundaryPolicy ≠ .fixtureEndIsBoundary →
          observation.value =
            (lastOfOtherWeek (snapshot.sessions.take d.cutoff) session.date).bind
              (fun last => last.bars asset)) ∧
        ((LeanTemporalValueKind.completedWeeklyPrice asset clockId).read codec.numbers h =
            observation.value ↔
          (d.completedRow clock).bind (snapshot.adjustedClose asset) =
            (lastOfOtherWeek (sessionsOf program.anchorSymbol (snapshot.sessions.take d.cutoff))
              session.date).bind (fun last => last.bars program.anchorSymbol)) := by
  have hSource : source.adjustedCloseAsset = some asset := by
    unfold temporalValue at hLowered
    cases hAsset : source.adjustedCloseAsset with
    | none => simp [hAsset, refuseTemporalValue] at hLowered
    | some found => simpa [hAsset] using hLowered
  have hDate : session.date = d.date d.cutoff := by
    have hCutoff := cutoff_lt hEnvironment
    rw [sessions_getElem?, List.getElem?_eq_getElem hCutoff, Option.map_some,
      Option.some.injEq] at hSession
    simp [← hSession, Decision.date, hEnvironment, DailyMarketSnapshot.environment, hCutoff]
  obtain ⟨observation, hResult, hValue⟩ :=
    clockedValue_result (r := r) hEnvironment hSource hSeries hClock id bindingId members candidate
  refine ⟨observation, hResult, fun hWeekly hTerminal => ?_, ?_⟩
  · rw [hValue, hDate]
    exact completedRow_weekly hEnvironment hWeekly hTerminal asset
  · have hRead := completedWeek_read hPlan hProfile run
      (fun s hs => hKeeps s (List.mem_of_mem_take hs)) hBar hDuring asset clockId
    rw [hRead, hValue]
    exact eq_comm

end Result

section Crossing

/-- Exact numbers, of which whole ones are printed. -/
def plainNumbers : GeneratedNumbers := ⟨.exact id, id, fun number => number.num.repr⟩

/-- An event on the completed weeks of two assets. -/
def weekAbove : EventDefinition where
  semanticId := "week-above"
  clockId := "daily"
  trigger := .on .risingEdge (.comparison "compare" .gt
    (.clockedValue "week-a" (ownCloseOf "A") "weekly")
    (.clockedValue "week-b" (ownCloseOf "B") "weekly"))

def crossProgram : SemanticProgram :=
  .temporal (Dict.ofList [("phase", "idle")]) [.onEvent "statement" weekAbove []]
    (.inState "phase" "idle" (.wholly "held" (.asset "A") (AllocationTargetKind.asset_ne_retain "A"))
      (.wholly "otherwise" .cash AllocationTargetKind.cash_ne_retain))

def crossStrategy : CanonicalStrategy :=
  .ofProgram (.ofGroup "group" ["A", "B"] (by decide)) crossProgram

/-- A Friday and the Monday after it. -/
def crossSnapshot : DailyMarketSnapshot :=
  (DailyMarketSnapshot.single "A" (⟨2024, 1, 5⟩, some 10) [(⟨2024, 1, 8⟩, some 11)]).withSeries
    "B" [some 20, some 21] rfl

/-- Names that stand for hashes. -/
def plainIdentities : PlanIdentities := ⟨fun _ => "strategy", fun _ _ _ => "checkpoint"⟩

/-- A codec that reads the two prices of `A`. -/
def plainCodec : CheckpointCodec :=
  ⟨plainNumbers, fun text => if text = "10" then some 10 else if text = "11" then some 11 else none,
    fun _ => "hash"⟩

/-- Monday of the snapshot. -/
def crossMonday : Decision where
  program := crossProgram
  environment := crossSnapshot.environment (.exact id)
  cutoff := 1
  inRange := by decide
  priorState := crossProgram.initialState
  priorEventTruths := Dict.empty

theorem GeneratedRun.fresh {codec : CheckpointCodec} {plan : LeanPlan}
    {program : LeanTemporalProgram} : GeneratedRun codec plan program [] (plan.startState program) := by
  have hNames : (plan.historySymbols.map (·, ([] : List ℚ))).map Prod.fst = plan.historySymbols := by
    simp [Function.comp_def]
  have hUnique : ((plan.historySymbols.map (·, ([] : List ℚ))).map Prod.fst).Nodup := by
    rw [hNames]
    exact List.nodup_dedup _
  have hKeys : (Dict.ofList (plan.historySymbols.map (·, ([] : List ℚ)))).keys =
      plan.historySymbols := by
    rw [Dict.keys, Dict.entries_ofList hUnique, hNames]
  exact .start (fun symbol hSymbol => by rwa [hKeys])

/-- Fields at the events of Monday, after Friday. -/
def crossFields (plan : LeanPlan) (program : LeanTemporalProgram) : Option GeneratedState :=
  match crossSnapshot.sessions with
  | friday :: monday :: _ =>
      some (boundaryState plan program monday
        (onData plainNumbers plan program friday (plan.startState program)).1)
  | _ => none

/-- A plan whose event on the week of `B` reads the Friday close of `A`. -/
def readsAnchor (plan : LeanPlan) (program : LeanTemporalProgram) : Bool :=
  program.profile = .eventStateMulticlock &&
    (LeanTemporalValueKind.completedWeeklyPrice "B" "weekly" ∈
      program.events.flatMap (fun event => event.condition.values) : Bool) &&
    (crossFields plan program).any (fun fields =>
      (LeanTemporalValueKind.completedWeeklyPrice "B" "weekly").read plainNumbers fields = some 10)

/-- In the plan of an accepted strategy, the completed week of `B` reads the
close of `A`; the reference reads its own. -/
theorem completed_week_crosses : validateStrategyV2 crossStrategy = [] ∧
    (∃ plan program, compileTemporalProgram plainIdentities crossStrategy crossProgram =
        .ok (some plan) ∧ plan.temporalProgram = some program ∧
      readsAnchor plan program = true) ∧
    ∃ observation, (value crossMonday (({} : Checkpoint).runtime crossProgram) none []
      (.clockedValue "week-b" (ownCloseOf "B") "weekly") none).result = .ok observation ∧
      observation.value = some 20 := by
  have hPlan : (compileTemporalProgram plainIdentities crossStrategy
      crossProgram).toOption.any (fun found => found.any (fun plan =>
        plan.temporalProgram.any (readsAnchor plan))) = true := by
    decide +kernel
  have hReference : (value crossMonday (({} : Checkpoint).runtime crossProgram) none []
      (.clockedValue "week-b" (ownCloseOf "B") "weekly") none).result.toOption.any
        (fun observation => observation.value = some 20) = true := by
    decide +kernel
  obtain ⟨found, hFound, hAny⟩ := exists_ok_of_any hPlan
  obtain ⟨plan, rfl, hProgram⟩ := (Option.any_eq_true _ _).mp hAny
  obtain ⟨program, hTemporal, hReads⟩ := (Option.any_eq_true _ _).mp hProgram
  obtain ⟨observation, hObservation, hValue⟩ := exists_ok_of_any hReference
  exact ⟨by decide +kernel, ⟨plan, program, hFound, hTemporal, hReads⟩, observation, hObservation,
    of_decide_eq_true hValue⟩

theorem crossSnapshot_keeps : ∀ session ∈ crossSnapshot.sessions, ∀ close,
    session.bars "A" = some close → plainCodec.Keeps close := by
  have hBars : ∀ session ∈ crossSnapshot.sessions, session.bars "A" = some 10 ∨
      session.bars "A" = some 11 := by decide +kernel
  intro session hSession close hClose
  rcases hBars session hSession with h | h
  · obtain rfl := Option.some.inj (h.symm.trans hClose)
    decide +kernel
  · obtain rfl := Option.some.inj (h.symm.trans hClose)
    decide +kernel

/-- The completed week of the anchor is its own. -/
theorem completed_week_iff_cross : ∃ plan program friday monday observation,
    compileTemporalProgram plainIdentities crossStrategy crossProgram = .ok (some plan) ∧
      crossSnapshot.sessions = [friday, monday] ∧
      (value crossMonday (({} : Checkpoint).runtime crossProgram) none []
        (.clockedValue "week-a" (ownCloseOf "A") "weekly") none).result = .ok observation ∧
      ((LeanTemporalValueKind.completedWeeklyPrice "A" "weekly").read plainNumbers
          (boundaryState plan program monday
            (onData plainNumbers plan program friday (plan.startState program)).1) =
              observation.value ↔ friday.bars "A" = friday.bars "A") := by
  have hPlan : (compileTemporalProgram plainIdentities crossStrategy
      crossProgram).toOption.any (fun found => found.any (fun plan =>
        plan.temporalProgram.any (fun program =>
          program.profile = .eventStateMulticlock && program.anchorSymbol = "A"))) = true := by
    decide +kernel
  obtain ⟨found, hFound, hAny⟩ := exists_ok_of_any hPlan
  obtain ⟨plan, rfl, hProgram⟩ := (Option.any_eq_true _ _).mp hAny
  obtain ⟨program, hTemporal, hChecked⟩ := (Option.any_eq_true _ _).mp hProgram
  simp only [Bool.and_eq_true, decide_eq_true_eq] at hChecked
  obtain ⟨hProfile, hAnchor⟩ := hChecked
  have hRun : GeneratedRun plainCodec plan program (crossSnapshot.sessions.take 1)
      (onData plainNumbers plan program (crossSnapshot.sessions.get ⟨0, by decide⟩)
        (plan.startState program)).1 :=
    GeneratedRun.fresh.session _
  have hEnvironment : crossMonday.environment = crossSnapshot.environment (.exact id) := rfl
  have hSession : crossSnapshot.sessions[1]? = some (crossSnapshot.sessions.get ⟨1, by decide⟩) := rfl
  have hBar : (crossSnapshot.sessions.get ⟨1, by decide⟩).bars "A" = some 11 := by decide +kernel
  have hLowered : temporalValue (.clockedValue "week-a" (ownCloseOf "A") "weekly") =
      .ok ⟨"week-a", .completedWeeklyPrice "A" "weekly"⟩ := rfl
  have hSeries : crossSnapshot.fieldValues "A" .close .adjusted = .ok [some 10, some 11] := rfl
  have hClock : crossMonday.clock "weekly" =
      .ok { id := "weekly", timeframe := .weekly, timezone := "America/New_York" } := rfl
  obtain ⟨observation, hObservation, -, hIff⟩ := completed_week_iff hTemporal
    (by rw [hProfile]; decide) hEnvironment hRun (by rw [hAnchor]; exact crossSnapshot_keeps)
    hSession (by rw [hAnchor]; exact hBar) .opened hLowered hSeries hClock
    (({} : Checkpoint).runtime crossProgram) none [] none
  rw [hAnchor] at hIff
  exact ⟨plan, program, _, _, observation, hFound, rfl, hObservation, hIff⟩

end Crossing

end RuleTrade
