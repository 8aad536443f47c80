import RuleTrade.Library.CalendarOrder
import RuleTrade.Properties.ClockGates
import RuleTrade.Properties.TerminalPolicy

/-! When a clock over completed periods is due. A monthly clock reads the next
observed session. A weekly clock reads the weekday, and so misses a week that
ends before Friday. -/

namespace RuleTrade

open Library

/-- Dates of one period of a timeframe. -/
def SamePeriod (timeframe : Timeframe) (a b : CalendarDate) : Prop :=
  match timeframe with
  | .session | .daily => a = b
  | .weekly => a.isoWeek = b.isoWeek
  | .monthly => a.year = b.year ∧ a.month = b.month

/-- Sessions on weekdays, in order; any weekday may be missing. -/
structure TradingDates (dates : List CalendarDate) : Prop where
  valid : ∀ date ∈ dates, date.IsDate
  weekdays : ∀ date ∈ dates, date.weekday < 5
  increasing : dates.Pairwise (· < ·)

namespace Decision

variable (d : Decision)

/-- The decision on another row of the same dates. -/
def atRow (row : Nat) (h : row < d.environment.dates.length) : Decision :=
  { d with cutoff := row, inRange := h }

def DueOn (clockId : String) (row : Nat) : Prop :=
  ∃ h : row < d.environment.dates.length, (d.atRow row h).due (some clockId) = .ok true

/-- No later session is of the period of the row. -/
def LastOfPeriod (timeframe : Timeframe) (row : Nat) : Prop :=
  ∀ later, row < later → later < d.environment.dates.length →
    ¬SamePeriod timeframe (d.date row) (d.date later)

end Decision

section Periods

variable {timeframe : Timeframe} {a b c : CalendarDate}

theorem samePeriod_refl (timeframe : Timeframe) (a : CalendarDate) : SamePeriod timeframe a a := by
  cases timeframe with
  | session | daily | weekly => exact rfl
  | monthly => exact ⟨rfl, rfl⟩

theorem samePeriod_symm (h : SamePeriod timeframe a b) : SamePeriod timeframe b a := by
  cases timeframe with
  | session | daily | weekly => exact Eq.symm h
  | monthly => exact ⟨h.1.symm, h.2.symm⟩

theorem samePeriod_trans (hab : SamePeriod timeframe a b) (hbc : SamePeriod timeframe b c) :
    SamePeriod timeframe a c := by
  cases timeframe with
  | session | daily | weekly => exact Eq.trans hab hbc
  | monthly => exact ⟨hab.1.trans hbc.1, hab.2.trans hbc.2⟩

/-- A period is an interval of dates. -/
theorem samePeriod_between (ha : a.IsDate) (hb : b.IsDate) (hc : c.IsDate) (hab : a < b)
    (hbc : b < c) (h : SamePeriod timeframe a c) : SamePeriod timeframe a b := by
  cases timeframe with
  | session | daily =>
      obtain rfl : a = c := h
      exact absurd (hab.trans hbc) (lt_irrefl a)
  | weekly =>
      have hWeek : a.isoWeek = c.isoWeek := h
      have hFirst := CalendarDate.isoWeek_mono ha hb hab
      have hSecond := CalendarDate.isoWeek_mono hb hc hbc
      show a.isoWeek = b.isoWeek
      omega
  | monthly => exact CalendarDate.month_between hab hbc h.1 h.2

end Periods

section Rows

variable {d : Decision} (hDates : TradingDates d.environment.dates) {timeframe : Timeframe}
  {row later : Nat}

theorem date_eq_getElem (h : row < d.environment.dates.length) :
    d.date row = d.environment.dates.get ⟨row, h⟩ := by
  simp [Decision.date, List.getElem?_eq_getElem h]

theorem date_mem (h : row < d.environment.dates.length) : d.date row ∈ d.environment.dates := by
  rw [date_eq_getElem h]
  exact List.get_mem _ _

theorem date_atRow (hRow : row < d.environment.dates.length)
    (h : later < d.environment.dates.length) : (d.atRow row hRow).date later = d.date later := by
  rw [date_eq_getElem h]
  exact @date_eq_getElem (d.atRow row hRow) later h

/-- The gate of a clock at a row does not depend on the decision that asks. -/
theorem clockDue_atRow (hRow : row < d.environment.dates.length) (clock : ProgramClock) :
    (d.atRow row hRow).clockDue clock row false = d.clockDue clock row false := by
  have hFollowing : (d.atRow row hRow).following row = d.following row := by
    show (if row + 1 < d.environment.dates.length then _ else _) = if _ then _ else _
    split_ifs with hNext
    · exact date_atRow hRow hNext
    · rw [date_atRow hRow hRow]
  simp only [Decision.clockDue, hFollowing, date_atRow hRow hRow]

include hDates

theorem date_lt (hLater : row < later) (h : later < d.environment.dates.length) :
    d.date row < d.date later := by
  rw [date_eq_getElem (hLater.trans h), date_eq_getElem h]
  exact List.pairwise_iff_get.mp hDates.increasing _ _ hLater

theorem samePeriod_rows {between : Nat} (hRow : row < between) (hBetween : between ≤ later)
    (h : later < d.environment.dates.length)
    (hSame : SamePeriod timeframe (d.date row) (d.date later)) :
    SamePeriod timeframe (d.date row) (d.date between) := by
  rcases hBetween.eq_or_lt with rfl | hLater
  · exact hSame
  · have hDate (i : Nat) (hi : i ≤ later) : (d.date i).IsDate :=
      hDates.valid _ (date_mem (hi.trans_lt h))
    exact samePeriod_between (hDate row (by omega)) (hDate between hBetween) (hDate later le_rfl)
      (date_lt hDates hRow (hLater.trans h)) (date_lt hDates hLater h) hSame

/-- A row is the last of its period when the next row is of another one. -/
theorem lastOfPeriod_iff (hRow : row + 1 < d.environment.dates.length) :
    d.LastOfPeriod timeframe row ↔ ¬SamePeriod timeframe (d.date row) (d.date (row + 1)) := by
  constructor
  · intro hLast
    exact hLast (row + 1) (Nat.lt_succ_self row) hRow
  · intro hNext later hLater h hSame
    exact hNext (samePeriod_rows hDates (Nat.lt_succ_self row) hLater h hSame)

/-- After a Friday comes another week. -/
theorem friday_lastOfPeriod (hRow : row < d.environment.dates.length)
    (hFriday : (d.date row).weekday = 4) : d.LastOfPeriod .weekly row := by
  intro later hLater h hSame
  have hWeekday := CalendarDate.weekday_lt_of_isoWeek (hDates.valid _ (date_mem hRow))
    (hDates.valid _ (date_mem h)) (date_lt hDates hLater h) hSame
  have hWeekend := hDates.weekdays _ (date_mem h)
  omega

omit hDates in
/-- Two last rows of one period are one row. -/
theorem lastOfPeriod_unique {other : Nat} (hRow : row < d.environment.dates.length)
    (hOther : other < d.environment.dates.length)
    (hSame : SamePeriod timeframe (d.date row) (d.date other))
    (hLast : d.LastOfPeriod timeframe row) (hLastOther : d.LastOfPeriod timeframe other) :
    row = other := by
  rcases Nat.lt_trichotomy row other with hLess | hEqual | hGreater
  · exact absurd hSame (hLast other hLess hOther)
  · exact hEqual
  · exact absurd (samePeriod_symm hSame) (hLastOther row hGreater hRow)

omit hDates in
/-- A period that is followed by another one has a last row before that. -/
theorem exists_lastRow (hLater : row < later)
    (hOther : ¬SamePeriod timeframe (d.date row) (d.date later)) :
    ∃ last, last < later ∧ SamePeriod timeframe (d.date row) (d.date last) ∧
      ¬SamePeriod timeframe (d.date last) (d.date (last + 1)) := by
  induction later, hLater using Nat.le_induction with
  | base => exact ⟨row, Nat.lt_succ_self row, samePeriod_refl timeframe _, hOther⟩
  | succ later hLater ih =>
      by_cases hSame : SamePeriod timeframe (d.date row) (d.date later)
      · exact ⟨later, Nat.lt_succ_self later, hSame,
          fun hNext => hOther (samePeriod_trans hSame hNext)⟩
      · obtain ⟨last, hLast, h⟩ := ih hSame
        exact ⟨last, hLast.trans (Nat.lt_succ_self later), h⟩

end Rows

section Due

variable {d : Decision} {clockId : String} {clock : ProgramClock}
  (hClock : d.program.clock? clockId = some clock)
  (hPolicy : clock.terminalBoundaryPolicy = .notDue)
  (hDates : TradingDates d.environment.dates) {row : Nat}

include hClock hPolicy

theorem dueOn_iff_clockDue (hRow : row < d.environment.dates.length) :
    d.DueOn clockId row ↔ d.clockDue clock row false = true := by
  have hDue : (d.atRow row hRow).due (some clockId) = .ok (d.clockDue clock row false) := by
    rw [@due_of_clock _ (d.atRow row hRow) _ hClock, clockDue_eq, hPolicy]
    show Except.ok ((d.atRow row hRow).clockDue clock row false || false) = _
    rw [Bool.or_false, clockDue_atRow]
  constructor
  · rintro ⟨h, hOk⟩
    rw [hDue] at hOk
    exact Except.ok.inj hOk
  · intro h
    exact ⟨hRow, hDue.trans (congrArg Except.ok h)⟩

theorem dueOn_weekly (hWeekly : clock.timeframe = .weekly)
    (hRow : row < d.environment.dates.length) :
    d.DueOn clockId row ↔ (d.date row).weekday = 4 := by
  rw [dueOn_iff_clockDue hClock hPolicy hRow]
  simp [Decision.clockDue, hWeekly]

include hDates in
/-- Every clock but a weekly one is due where the next row is of another period. -/
theorem dueOn_iff_lastOfPeriod (hWeekly : clock.timeframe ≠ .weekly)
    (hRow : row + 1 < d.environment.dates.length) :
    d.DueOn clockId row ↔ d.LastOfPeriod clock.timeframe row := by
  rw [dueOn_iff_clockDue hClock hPolicy (Nat.lt_of_succ_lt hRow), lastOfPeriod_iff hDates hRow]
  have hOrder := date_lt hDates (Nat.lt_succ_self row) hRow
  cases hTimeframe : clock.timeframe with
  | session | daily => simp [Decision.clockDue, hTimeframe, SamePeriod, hOrder.ne]
  | weekly => exact absurd hTimeframe hWeekly
  | monthly =>
      simp [Decision.clockDue, hTimeframe, SamePeriod, Decision.following, hRow, imp_iff_not_or]

include hDates

omit hClock hPolicy in
/-- Where rows are due exactly at the end of a period, a period that another one
follows has one due row. -/
theorem existsUnique_due_of_last {later : Nat} (hLater : row < later)
    (h : later < d.environment.dates.length)
    (hOther : ¬SamePeriod clock.timeframe (d.date row) (d.date later))
    (hDue : ∀ other, other + 1 < d.environment.dates.length →
      (d.DueOn clockId other ↔ d.LastOfPeriod clock.timeframe other)) :
    ∃! due, SamePeriod clock.timeframe (d.date row) (d.date due) ∧ d.DueOn clockId due := by
  obtain ⟨last, hLast, hSame, hNext⟩ := exists_lastRow hLater hOther
  have hLastRow := (lastOfPeriod_iff hDates (by omega)).mpr hNext
  refine ⟨last, ⟨hSame, (hDue last (by omega)).mpr hLastRow⟩, ?_⟩
  rintro other ⟨hSameOther, hDueOther⟩
  have hBefore : other < later := by
    by_contra hAfter
    obtain ⟨hRange, -⟩ := hDueOther
    exact hOther (samePeriod_rows hDates hLater (not_lt.mp hAfter) hRange hSameOther)
  exact lastOfPeriod_unique (by omega) (by omega)
    (samePeriod_trans (samePeriod_symm hSameOther) hSame)
    ((hDue other (by omega)).mp hDueOther) hLastRow

/-- Before the last row a clock that waits for complete periods is due exactly on
the last session of each one, unless it is weekly and the week ends before Friday.
A complete week without a Friday has no due session. -/
theorem completed_period_due_iff :
    (∀ row, row + 1 < d.environment.dates.length →
      ((d.DueOn clockId row ↔ d.LastOfPeriod clock.timeframe row) ↔
        (clock.timeframe = .weekly → (d.date row).weekday = 4 ∨
          (d.date (row + 1)).isoWeek = (d.date row).isoWeek))) ∧
    ∀ row later, row < later → later < d.environment.dates.length →
      ¬SamePeriod clock.timeframe (d.date row) (d.date later) →
      ((∃! due, SamePeriod clock.timeframe (d.date row) (d.date due) ∧ d.DueOn clockId due) ↔
        (clock.timeframe = .weekly → ∃ friday < d.environment.dates.length,
          (d.date friday).isoWeek = (d.date row).isoWeek ∧ (d.date friday).weekday = 4)) := by
  by_cases hWeekly : clock.timeframe = .weekly
  · have hDue (row : Nat) := @dueOn_weekly _ _ _ hClock hPolicy row hWeekly
    refine ⟨fun row hRow => ?_, fun row later hLater h hOther => ?_⟩
    · have hRange := Nat.lt_of_succ_lt hRow
      have hLast : d.LastOfPeriod clock.timeframe row ↔
          (d.date (row + 1)).isoWeek ≠ (d.date row).isoWeek := by
        rw [lastOfPeriod_iff hDates hRow, hWeekly, ne_comm]
        rfl
      rw [hDue row hRange, hLast]
      by_cases hFriday : (d.date row).weekday = 4
      · have hEnds := hLast.mp (hWeekly ▸ friday_lastOfPeriod hDates hRange hFriday)
        exact iff_of_true (iff_of_true hFriday hEnds) (fun _ => Or.inl hFriday)
      · simp only [hFriday, hWeekly, false_iff, not_not, false_or, forall_const, ne_eq]
    · rw [hWeekly]
      constructor
      · rintro ⟨due, ⟨hSame, hRange, hOk⟩, -⟩ -
        exact ⟨due, hRange, Eq.symm hSame, (hDue due hRange).mp ⟨hRange, hOk⟩⟩
      · intro hSome
        obtain ⟨friday, hRange, hWeek, hFriday⟩ := hSome rfl
        refine ⟨friday, ⟨hWeek.symm, (hDue friday hRange).mpr hFriday⟩, ?_⟩
        rintro other ⟨hSame, hDueOther⟩
        obtain ⟨hOtherRange, -⟩ := id hDueOther
        have hBoth : SamePeriod .weekly (d.date other) (d.date friday) :=
          Eq.trans (Eq.symm hSame) hWeek.symm
        exact lastOfPeriod_unique hOtherRange hRange hBoth
          (friday_lastOfPeriod hDates hOtherRange ((hDue other hOtherRange).mp hDueOther))
          (friday_lastOfPeriod hDates hRange hFriday)
  · have hDue (row : Nat) := @dueOn_iff_lastOfPeriod _ _ _ hClock hPolicy hDates row hWeekly
    refine ⟨fun row hRow => ?_, fun row later hLater h hOther => ?_⟩
    · exact iff_of_true (hDue row hRow) (fun hTimeframe => absurd hTimeframe hWeekly)
    · exact iff_of_true (existsUnique_due_of_last hDates hLater h hOther hDue)
        (fun hTimeframe => absurd hTimeframe hWeekly)

end Due

section Weeks

def crossOpening : Decision := crossSnapshot.opening (.exact id) weeklyProgram

/-- The week of a Friday before a Monday has the Friday as its due session. -/
theorem completed_period_due_iff_friday :
    (crossOpening.DueOn "weekly" 0 ↔ crossOpening.LastOfPeriod .weekly 0) ∧
      ∃! due, SamePeriod .weekly (crossOpening.date 0) (crossOpening.date due) ∧
        crossOpening.DueOn "weekly" due := by
  have hClock : crossOpening.program.clock? "weekly" =
      some { id := "weekly", timeframe := .weekly, timezone := "America/New_York" } := by decide
  have hTrading : TradingDates crossOpening.environment.dates := by
    refine ⟨fun date hDate => ?_, by decide, by decide⟩
    rcases List.mem_pair.mp hDate with rfl | rfl <;>
      exact ⟨by decide, by decide, by decide⟩
  obtain ⟨hRows, hWeeks⟩ := completed_period_due_iff hClock rfl hTrading
  refine ⟨(hRows 0 (by decide)).mpr (fun _ => Or.inl (by decide)), ?_⟩
  refine (hWeeks 0 1 (by decide) (by decide) ?_).mpr (fun _ => ⟨0, by decide, rfl, by decide⟩)
  show ¬_ = _
  decide

/-- The Thursday before Good Friday and the Monday after it. -/
def goodFridayWeek : DailyMarketSnapshot :=
  .single "A" (⟨2024, 3, 28⟩, some 10) [(⟨2024, 4, 1⟩, some 11)]

def goodFridayOpening : Decision := goodFridayWeek.opening (.exact id) weeklyProgram

theorem goodFridayWeek_trading : TradingDates goodFridayOpening.environment.dates where
  valid date hDate := by
    rcases List.mem_pair.mp hDate with rfl | rfl <;>
      exact ⟨by decide, by decide, by decide⟩
  weekdays := by decide
  increasing := by decide

/-- The week ends on the Thursday, and its clock is not due on it. -/
theorem short_week_not_due : ¬goodFridayOpening.DueOn "weekly" 0 ∧
    goodFridayOpening.LastOfPeriod .weekly 0 := by
  refine ⟨?_, ?_⟩
  · rintro ⟨hRow, hDue⟩
    have hNotDue : (goodFridayOpening.atRow 0 (by decide)).due (some "weekly") ≠ .ok true := by
      decide
    exact hNotDue hDue
  · apply (lastOfPeriod_iff goodFridayWeek_trading (by decide)).mpr
    show ¬_ = _
    decide

end Weeks

end RuleTrade
