import RuleTrade.Library.Calendar

/-! Dates in order: the ordinal count grows with the date, and weeks and months
are intervals of it. -/

namespace Library.CalendarDate

/-- Date of the Gregorian calendar. -/
structure IsDate (d : CalendarDate) : Prop where
  year : 1 ≤ d.year
  month : 1 ≤ d.month ∧ d.month ≤ 12
  day : 1 ≤ d.day ∧ d.day ≤ daysInMonth d.year d.month

variable {a b c : CalendarDate}

section Ordinals

def daysInYear (year : Nat) : Nat := if isLeap year then 366 else 365

theorem daysBeforeMonth_succ (year : Nat) {month : Nat} (h : 1 ≤ month) :
    daysBeforeMonth year (month + 1) = daysBeforeMonth year month + daysInMonth year month := by
  obtain ⟨m, rfl⟩ : ∃ m, month = m + 1 := ⟨month - 1, by omega⟩
  simp [daysBeforeMonth, List.range_succ]

theorem daysBeforeMonth_mono (year : Nat) {month later : Nat} (h : 1 ≤ month)
    (hLater : month ≤ later) : daysBeforeMonth year month ≤ daysBeforeMonth year later := by
  induction later, hLater using Nat.le_induction with
  | base => exact le_rfl
  | succ later hLater ih =>
      rw [daysBeforeMonth_succ year (h.trans hLater)]
      omega

theorem daysBeforeMonth_thirteen (year : Nat) : daysBeforeMonth year 13 = daysInYear year := by
  simp only [daysBeforeMonth, daysInYear, daysInMonth, List.range, List.range.loop]
  cases isLeap year <;> rfl

theorem isLeap_iff (year : Nat) :
    isLeap year = true ↔ 4 ∣ year ∧ (¬100 ∣ year ∨ 400 ∣ year) := by
  simp [isLeap, Nat.dvd_iff_mod_eq_zero]

theorem daysBeforeYear_succ {year : Nat} (h : 1 ≤ year) :
    daysBeforeYear (year + 1) = daysBeforeYear year + daysInYear year := by
  obtain ⟨past, rfl⟩ : ∃ past, year = past + 1 := ⟨year - 1, by omega⟩
  have hCenturies : past / 100 ≤ past / 4 := Nat.div_le_div_left (by norm_num) (by norm_num)
  have hHundred : 100 ∣ past + 1 → 4 ∣ past + 1 := (by norm_num : 4 ∣ 100).trans
  have hFourHundred : 400 ∣ past + 1 → 100 ∣ past + 1 := (by norm_num : 100 ∣ 400).trans
  simp only [daysBeforeYear, daysInYear, isLeap_iff, Nat.add_sub_cancel, Nat.succ_div]
  by_cases hFour : 4 ∣ past + 1
  · by_cases hCentury : 100 ∣ past + 1
    · by_cases hEra : 400 ∣ past + 1 <;> simp only [hFour, hCentury, hEra] <;> simp <;> omega
    · simp only [hFour, hCentury, mt hFourHundred hCentury]
      simp
      omega
  · simp only [hFour, mt hHundred hFour, mt hFourHundred (mt hHundred hFour)]
    simp
    omega

theorem daysBeforeYear_mono {year later : Nat} (h : 1 ≤ year) (hLater : year ≤ later) :
    daysBeforeYear year ≤ daysBeforeYear later := by
  induction later, hLater using Nat.le_induction with
  | base => exact le_rfl
  | succ later hLater ih =>
      rw [daysBeforeYear_succ (h.trans hLater)]
      omega

theorem lt_iff_fields : a < b ↔ a.year < b.year ∨ a.year = b.year ∧
    (a.month < b.month ∨ a.month = b.month ∧ a.day < b.day) := by
  rw [← not_le]
  show ¬b.rank ≤ a.rank ↔ _
  rw [not_le]
  simp only [rank, Prod.Lex.toLex_lt_toLex]

/-- A later date has a greater ordinal. -/
theorem toOrdinal_lt (ha : a.IsDate) (hb : b.IsDate) (h : a < b) : a.toOrdinal < b.toOrdinal := by
  have hDay := ha.day.2
  have hMonth := daysBeforeMonth_succ a.year ha.month.1
  have hFirst := hb.day.1
  simp only [toOrdinal]
  rcases lt_iff_fields.mp h with hYear | ⟨hYear, hMonths | ⟨hMonths, hDays⟩⟩
  · have hRest := daysBeforeMonth_mono a.year (Nat.le_add_left 1 a.month)
      (Nat.succ_le_succ ha.month.2)
    rw [daysBeforeMonth_thirteen] at hRest
    have hYears := daysBeforeYear_mono (Nat.le_add_left 1 a.year) (Nat.succ_le_of_lt hYear)
    rw [daysBeforeYear_succ ha.year] at hYears
    omega
  · have hRest := daysBeforeMonth_mono a.year (Nat.le_add_left 1 a.month)
      (Nat.succ_le_of_lt hMonths)
    rw [← hYear]
    omega
  · rw [hYear, hMonths]
    omega

theorem toOrdinal_pos (ha : a.IsDate) : 1 ≤ a.toOrdinal := by
  have hDay := ha.day.1
  rw [toOrdinal]
  omega

end Ordinals

section Weeks

/-- The ordinal by week and weekday. -/
theorem toOrdinal_eq (ha : a.IsDate) : a.toOrdinal = 7 * a.isoWeek + a.weekday + 1 := by
  have hPositive := toOrdinal_pos ha
  simp only [isoWeek, weekday]
  omega

theorem isoWeek_mono (ha : a.IsDate) (hb : b.IsDate) (h : a < b) : a.isoWeek ≤ b.isoWeek := by
  have hOrdinals := toOrdinal_lt ha hb h
  simp only [isoWeek]
  omega

/-- Within a week a later date has a later weekday. -/
theorem weekday_lt_of_isoWeek (ha : a.IsDate) (hb : b.IsDate) (h : a < b)
    (hWeek : a.isoWeek = b.isoWeek) : a.weekday < b.weekday := by
  have hOrdinals := toOrdinal_lt ha hb h
  rw [toOrdinal_eq ha, toOrdinal_eq hb, hWeek] at hOrdinals
  omega

end Weeks

section Months

/-- Dates between two dates of one month are of that month. -/
theorem month_between (hab : a < b) (hbc : b < c) (hYear : a.year = c.year)
    (hMonth : a.month = c.month) : a.year = b.year ∧ a.month = b.month := by
  rw [lt_iff_fields] at hab hbc
  omega

end Months

end Library.CalendarDate
