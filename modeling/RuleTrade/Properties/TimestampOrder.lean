import RuleTrade.Persistence.Timestamps

/-! Stored times against times: their texts order as they do, but for a whole
second, whose text comes after the other texts of its second. -/

namespace RuleTrade

open Library

section Texts

/-- Text of a time from the microseconds on. -/
def fractionText (t : UtcDateTime) : List Char :=
  if t.microsecond = 0 then ['Z'] else '.' :: (fixedDigits 6 t.microsecond ++ ['Z'])

/-- Text of a time up to the microseconds, before the last part. -/
def secondText (t : UtcDateTime) (last : List Char) : List Char :=
  fixedDigits 4 t.date.year ++ '-' :: (fixedDigits 2 t.date.month ++ '-' ::
    (fixedDigits 2 t.date.day ++ 'T' :: (fixedDigits 2 t.hour ++ ':' ::
      (fixedDigits 2 t.minute ++ ':' :: (fixedDigits 2 t.second ++ last)))))

theorem month_lt (t : UtcDateTime) : t.date.month < 10 ^ 2 :=
  Nat.lt_of_le_of_lt t.isDate.month.2 (by decide)

theorem day_lt (t : UtcDateTime) : t.date.day < 10 ^ 2 := by
  have hMonth : ∀ year month, CalendarDate.daysInMonth year month ≤ 31 := by
    intro year month
    unfold CalendarDate.daysInMonth
    split <;> try split
    all_goals decide
  exact Nat.lt_of_le_of_lt (t.isDate.day.2.trans (hMonth _ _)) (by decide)

theorem year_lt (t : UtcDateTime) : t.date.year < 10 ^ 4 :=
  Nat.lt_of_le_of_lt t.year_le (by decide)

theorem isoformat_toList (t : UtcDateTime) :
    t.isoformat.toList = secondText t ((if t.microsecond = 0 then []
      else '.' :: fixedDigits 6 t.microsecond) ++ "+00:00".toList) := by
  have hHour := t.hour_lt
  have hMinute := t.minute_lt
  have hSecond := t.second_lt
  have hFraction : (if t.microsecond = 0 then ""
      else "." ++ CalendarDate.zeroPadded 6 t.microsecond).toList =
      if t.microsecond = 0 then [] else '.' :: fixedDigits 6 t.microsecond := by
    by_cases hZero : t.microsecond = 0
    · rw [if_pos hZero, if_pos hZero]
      rfl
    · rw [if_neg hZero, if_neg hZero, String.toList_append,
        toList_zeroPadded (by decide) t.microsecond_lt]
      rfl
  rw [UtcDateTime.isoformat, CalendarDate.isoformat]
  simp only [String.toList_append]
  rw [hFraction, toList_zeroPadded (by decide) (year_lt t),
    toList_zeroPadded (by decide) (month_lt t), toList_zeroPadded (by decide) (day_lt t),
    toList_zeroPadded (by decide) (show t.hour < 10 ^ 2 by omega),
    toList_zeroPadded (by decide) (show t.minute < 10 ^ 2 by omega),
    toList_zeroPadded (by decide) (show t.second < 10 ^ 2 by omega), secondText]
  simp only [List.append_assoc]
  rfl

theorem timestamp_toList (t : UtcDateTime) :
    (timestamp t).toList = secondText t (fractionText t) := by
  have hDigits (width n : Nat) : '+' ∉ fixedDigits width n := fun h =>
    absurd (isDigit_of_mem_fixedDigits h) (by decide)
  have hBody : '+' ∉ secondText t (if t.microsecond = 0 then []
      else '.' :: fixedDigits 6 t.microsecond) := by
    simp only [secondText, List.mem_append, List.mem_cons, hDigits, false_or, not_or]
    refine ⟨by decide, by decide, by decide, by decide, by decide, ?_⟩
    by_cases hZero : t.microsecond = 0
    · rw [if_pos hZero]
      exact List.not_mem_nil
    · rw [if_neg hZero, List.mem_cons]
      rintro (hPoint | hDigit)
      · exact absurd hPoint (by decide)
      · exact hDigits _ _ hDigit
  have hSplit : ∀ xs ys : List Char, secondText t (xs ++ ys) = secondText t xs ++ ys := by
    intro xs ys
    simp only [secondText, List.append_assoc, List.cons_append]
  have hZone : substitute ('+' :: "00:00".toList) ['Z'] 0 "+00:00".toList = ['Z'] := by decide
  rw [timestamp, replaceText, String.toList_ofList, isoformat_toList, hSplit]
  show substitute ('+' :: "00:00".toList) ['Z'] 0 _ = _
  rw [substitute_append_of_notMem _ _ hBody, hZone, ← hSplit, fractionText]
  by_cases hZero : t.microsecond = 0
  · rw [if_pos hZero, if_pos hZero]
    rfl
  · rw [if_neg hZero, if_neg hZero]
    rfl

end Texts

section Order

/-- Times of one second. -/
def SameSecond (a b : UtcDateTime) : Prop :=
  a.date = b.date ∧ a.hour = b.hour ∧ a.minute = b.minute ∧ a.second = b.second

instance (a b : UtcDateTime) : Decidable (SameSecond a b) := inferInstanceAs (Decidable (_ ∧ _))

variable {a b : UtcDateTime}

theorem calendarDate_lt_iff {d e : CalendarDate} :
    d < e ↔ d.year < e.year ∨ d.year = e.year ∧
      (d.month < e.month ∨ d.month = e.month ∧ d.day < e.day) := by
  have hRank : d < e ↔ d.rank < e.rank := by
    rw [lt_iff_not_ge, lt_iff_not_ge]
    rfl
  rw [hRank, CalendarDate.rank, CalendarDate.rank, Prod.Lex.toLex_lt_toLex,
    Prod.Lex.toLex_lt_toLex]

theorem utcDateTime_lt_iff :
    a < b ↔ a.date < b.date ∨ a.date = b.date ∧ (a.hour < b.hour ∨ a.hour = b.hour ∧
      (a.minute < b.minute ∨ a.minute = b.minute ∧
        (a.second < b.second ∨ a.second = b.second ∧ a.microsecond < b.microsecond))) := by
  have hRank : a < b ↔ a.rank < b.rank := by
    rw [lt_iff_not_ge, lt_iff_not_ge]
    rfl
  simp only [hRank, UtcDateTime.rank, Prod.Lex.toLex_lt_toLex]

theorem secondText_lt_iff {last last' : List Char} :
    secondText a last < secondText b last' ↔
      a.date < b.date ∨ a.date = b.date ∧ (a.hour < b.hour ∨ a.hour = b.hour ∧
        (a.minute < b.minute ∨ a.minute = b.minute ∧
          (a.second < b.second ∨ a.second = b.second ∧ last < last'))) := by
  have ha := a.hour_lt
  have hb := b.hour_lt
  have hDate : a.date = b.date ↔ a.date.year = b.date.year ∧ a.date.month = b.date.month ∧
      a.date.day = b.date.day := by
    cases a.date
    cases b.date
    simp
  rw [secondText, secondText, fixedDigits_append_lt_iff (year_lt a) (year_lt b),
    cons_lt_cons_self_iff, fixedDigits_append_lt_iff (month_lt a) (month_lt b),
    cons_lt_cons_self_iff, fixedDigits_append_lt_iff (day_lt a) (day_lt b),
    cons_lt_cons_self_iff, fixedDigits_append_lt_iff (by omega) (by omega),
    cons_lt_cons_self_iff,
    fixedDigits_append_lt_iff (a.minute_lt.trans (by decide)) (b.minute_lt.trans (by decide)),
    cons_lt_cons_self_iff,
    fixedDigits_append_lt_iff (a.second_lt.trans (by decide)) (b.second_lt.trans (by decide)),
    calendarDate_lt_iff, hDate]
  tauto

theorem fractionText_lt_iff : fractionText a < fractionText b ↔
    a.microsecond ≠ 0 ∧ (b.microsecond = 0 ∨ a.microsecond < b.microsecond) := by
  rw [fractionText, fractionText]
  by_cases ha : a.microsecond = 0
  · rw [if_pos ha]
    by_cases hb : b.microsecond = 0
    · simp [hb, ha]
    · rw [if_neg hb, List.cons_lt_cons_iff]
      have hZone : ¬ 'Z' < '.' := by decide
      have hPoint : 'Z' ≠ '.' := by decide
      simp [hZone, hPoint, ha]
  · rw [if_neg ha]
    by_cases hb : b.microsecond = 0
    · rw [if_pos hb, List.cons_lt_cons_iff]
      have hPoint : '.' < 'Z' := by decide
      simp [hPoint, ha, hb]
    · rw [if_neg hb, cons_lt_cons_self_iff,
        fixedDigits_append_lt_iff a.microsecond_lt b.microsecond_lt]
      simp [ha, hb]

theorem timestamp_lt_iff : timestamp a < timestamp b ↔
    secondText a (fractionText a) < secondText b (fractionText b) := by
  rw [String.lt_iff_toList_lt, timestamp_toList, timestamp_toList]

/-- Texts order as times but for a whole second and a later time of that second. -/
theorem timestamp_lt_of_lt (h : a < b) :
    timestamp a < timestamp b ↔ ¬ (a.microsecond = 0 ∧ SameSecond a b) := by
  rw [timestamp_lt_iff, secondText_lt_iff, fractionText_lt_iff, SameSecond]
  rw [utcDateTime_lt_iff] at h
  rcases h with hDate | ⟨hDate, hTime⟩
  · exact iff_of_true (Or.inl hDate) fun hSame => hDate.ne hSame.2.1
  · have hNotLess : ¬ a.date < b.date := fun hLess => hLess.ne hDate
    simp only [hDate, lt_irrefl, false_or, true_and]
    omega

theorem timestamp_injective : Function.Injective timestamp := by
  intro a b h
  have hText (x y : UtcDateTime) (hLess : x < y) (hSame : timestamp x = timestamp y) : False := by
    have hForth := timestamp_lt_iff (a := x) (b := y)
    have hBack := timestamp_lt_iff (a := y) (b := x)
    rw [hSame, secondText_lt_iff, fractionText_lt_iff] at hForth
    rw [hSame, secondText_lt_iff, fractionText_lt_iff] at hBack
    have hNeither := lt_irrefl (timestamp y)
    rw [utcDateTime_lt_iff] at hLess
    rcases hLess with hDate | ⟨hDate, hTime⟩
    · exact hNeither (hForth.mpr (Or.inl hDate))
    · simp only [hNeither, hDate, lt_irrefl, false_or, true_and, false_iff] at hForth hBack
      omega
  rcases lt_trichotomy a b with hLess | hSame | hMore
  · exact (hText a b hLess h).elim
  · exact hSame
  · exact (hText b a hMore h.symm).elim

end Order

section RoundTrip

theorem readDigits_fixedDigits {width n : Nat} (h : n < 10 ^ width) (rest : List Char) :
    readDigits width (fixedDigits width n ++ rest) = some (n, rest) := by
  have hTake : (fixedDigits width n ++ rest).take width = fixedDigits width n := by
    rw [List.take_append_of_le_length (length_fixedDigits width n).ge,
      List.take_of_length_le (length_fixedDigits width n).le]
  have hDrop : (fixedDigits width n ++ rest).drop width = rest := by
    rw [List.drop_append_of_le_length (length_fixedDigits width n).ge,
      List.drop_of_length_le (length_fixedDigits width n).le, List.nil_append]
  have hAll : (fixedDigits width n).all Char.isDigit = true :=
    List.all_eq_true.mpr fun c hc => isDigit_of_mem_fixedDigits hc
  rw [readDigits, hTake, hDrop, if_pos ⟨length_fixedDigits width n, hAll⟩,
    ofDigitChars_fixedDigits h, Nat.mul_zero, Nat.zero_add]

theorem readChar_cons (c : Char) (rest : List Char) : readChar c (c :: rest) = some rest :=
  if_pos rfl

theorem readFraction_fractionText (t : UtcDateTime) :
    readFraction (fractionText t) = some (t.microsecond, ['Z']) := by
  rw [fractionText]
  by_cases hZero : t.microsecond = 0
  · rw [if_pos hZero, hZero]
    rfl
  · have hLength := length_fixedDigits 6 t.microsecond
    have hDigits : (fixedDigits 6 t.microsecond ++ ['Z']).takeWhile Char.isDigit =
        fixedDigits 6 t.microsecond := by
      rw [List.takeWhile_append_of_pos fun c hc => isDigit_of_mem_fixedDigits hc]
      exact List.append_nil _
    have hSome : fixedDigits 6 t.microsecond ≠ [] := by
      intro hNone
      rw [hNone] at hLength
      cases hLength
    have hTake : (fixedDigits 6 t.microsecond).take 6 = fixedDigits 6 t.microsecond :=
      List.take_of_length_le hLength.le
    have hDrop : (fixedDigits 6 t.microsecond ++ ['Z']).drop 6 = ['Z'] := by
      rw [List.drop_append_of_le_length hLength.ge, List.drop_of_length_le hLength.le,
        List.nil_append]
    rw [if_neg hZero, readFraction, if_pos (Or.inl rfl), hDigits]
    simp only [hSome, if_false, hTake, hLength, hDrop, Nat.sub_self, pow_zero, mul_one]
    rw [ofDigitChars_fixedDigits t.microsecond_lt, Nat.mul_zero, Nat.zero_add]

/-- A stored time reads back as itself. -/
theorem parseTimestamp_timestamp (t : UtcDateTime) : parseTimestamp (timestamp t) = some t := by
  have hHour : t.hour < 10 ^ 2 := t.hour_lt.trans (by decide)
  have hMinute : t.minute < 10 ^ 2 := t.minute_lt.trans (by decide)
  have hSecond : t.second < 10 ^ 2 := t.second_lt.trans (by decide)
  simp only [parseTimestamp, timestamp_toList, secondText,
    readDigits_fixedDigits (year_lt t), readDigits_fixedDigits (month_lt t),
    readDigits_fixedDigits (day_lt t), readDigits_fixedDigits hHour,
    readDigits_fixedDigits hMinute, readDigits_fixedDigits hSecond, readChar_cons,
    readFraction_fractionText, Option.bind_eq_bind, Option.bind_some, List.drop_one, List.tail_cons,
    true_or, if_true]
  rw [UtcDateTime.ofFields, dif_pos]
  exact ⟨t.isDate, t.year_le, t.hour_lt, t.minute_lt, t.second_lt, t.microsecond_lt⟩

end RoundTrip

section Listings

/-- A whole second before a later time of that second. -/
def WholeSecondBefore (a b : UtcDateTime) : Prop :=
  SameSecond a b ∧ a.microsecond = 0 ∧ b.microsecond ≠ 0

variable {α : Type} {rows : List α} {text : α → String} {time : α → UtcDateTime}

theorem WholeSecondBefore.lt {a b : UtcDateTime} (h : WholeSecondBefore a b) : a < b := by
  obtain ⟨⟨hDate, hHour, hMinute, hSecond⟩, hZero, hLater⟩ := h
  rw [utcDateTime_lt_iff]
  exact Or.inr ⟨hDate, Or.inr ⟨hHour, Or.inr ⟨hMinute, Or.inr ⟨hSecond, by omega⟩⟩⟩⟩

theorem WholeSecondBefore.of_lt {a b : UtcDateTime} (h : a < b) (hZero : a.microsecond = 0)
    (hSame : SameSecond a b) : WholeSecondBefore a b := by
  refine ⟨hSame, hZero, fun hWhole => ?_⟩
  obtain ⟨hDate, hHour, hMinute, hSecond⟩ := hSame
  rw [utcDateTime_lt_iff, hDate, hHour, hMinute, hSecond, hZero, hWhole] at h
  simp at h

/-- Rows by their texts are rows by their times unless a whole second is followed. -/
theorem sortByDescending_ordered_iff (hStored : ∀ row ∈ rows, text row = timestamp (time row)) :
    (Sequence.sortByDescending text rows).Pairwise (fun x y => time y ≤ time x) ↔
      ∀ x ∈ rows, ∀ y ∈ rows, ¬ WholeSecondBefore (time x) (time y) := by
  have hSorted : (Sequence.sortByDescending text rows).Pairwise (fun x y => text y ≤ text x) := by
    have hTotal : Std.Total (fun x y : α => text y ≤ text x) :=
      ⟨fun x y => le_total (text y) (text x)⟩
    have hTrans : IsTrans α (fun x y : α => text y ≤ text x) :=
      ⟨fun _ _ _ hxy hyz => hyz.trans hxy⟩
    exact List.pairwise_insertionSort _ rows
  constructor
  · intro hOrdered x hx y hy hBefore
    have hMisplaced : ¬ timestamp (time x) < timestamp (time y) := fun hLess =>
      (timestamp_lt_of_lt hBefore.lt).mp hLess ⟨hBefore.2.1, hBefore.1⟩
    have hBoth := hSorted.and hOrdered
    have hPlaces := List.pairwise_iff_getElem.mp hBoth
    have hFirst : x ∈ Sequence.sortByDescending text rows := Sequence.mem_sortByDescending.mpr hx
    have hSecond : y ∈ Sequence.sortByDescending text rows := Sequence.mem_sortByDescending.mpr hy
    obtain ⟨i, hi, rfl⟩ := List.getElem_of_mem hFirst
    obtain ⟨j, hj, rfl⟩ := List.getElem_of_mem hSecond
    rcases Nat.lt_trichotomy i j with hEarlier | rfl | hLater
    · exact absurd (hPlaces i j hi hj hEarlier).2 (not_le_of_gt hBefore.lt)
    · exact lt_irrefl _ hBefore.lt
    · have hTexts := (hPlaces j i hj hi hLater).1
      rw [hStored _ hx, hStored _ hy] at hTexts
      rcases hTexts.lt_or_eq with hLess | hSame
      · exact hMisplaced hLess
      · exact hBefore.lt.ne (timestamp_injective hSame)
  · intro hNone
    refine hSorted.imp_of_mem fun {x y} hx hy hTexts => ?_
    have hx := Sequence.mem_sortByDescending.mp hx
    have hy := Sequence.mem_sortByDescending.mp hy
    by_contra hLess
    have hLess := not_le.mp hLess
    rw [hStored x hx, hStored y hy] at hTexts
    have hKept : ¬ (((time x).microsecond = 0) ∧ SameSecond (time x) (time y)) := fun hBefore =>
      hNone x hx y hy (.of_lt hLess hBefore.1 hBefore.2)
    exact not_lt_of_ge hTexts ((timestamp_lt_of_lt hLess).mpr hKept)

theorem mapM_eq_map {β : Type} {f : α → Option β} {g : α → β} (h : ∀ x ∈ rows, f x = some (g x)) :
    rows.mapM f = some (rows.map g) := by
  induction rows with
  | nil => rfl
  | cons x rest ih =>
      rw [List.mapM_cons, h x List.mem_cons_self,
        ih fun y hy => h y (List.mem_cons_of_mem x hy)]
      rfl

/-- A listing of the rows of a table that satisfy a condition reads each of them,
and is in order of time unless a whole second is followed. -/
theorem listing_ordered_iff {β : Type} {table : List α} {P : α → Prop} {f : α → Option β}
    {g : α → β} {timeOf : β → UtcDateTime} (hRows : ∀ row, row ∈ rows ↔ row ∈ table ∧ P row)
    (hStored : ∀ row ∈ table, text row = timestamp (time row))
    (hRead : ∀ row ∈ table, f row = some (g row)) (hTime : ∀ row, timeOf (g row) = time row) :
    ∃ listed, (Sequence.sortByDescending text rows).mapM f = some listed ∧
      (listed.Pairwise (fun x y => timeOf y ≤ timeOf x) ↔
        ∀ x ∈ table, ∀ y ∈ table, P x → P y → ¬ WholeSecondBefore (time x) (time y)) := by
  have hTable {row : α} (h : row ∈ rows) : row ∈ table := ((hRows row).mp h).1
  have hListed {row : α} (h : row ∈ Sequence.sortByDescending text rows) : row ∈ table :=
    hTable (Sequence.mem_sortByDescending.mp h)
  have hOrdered := sortByDescending_ordered_iff fun row hRow => hStored row (hTable hRow)
  refine ⟨_, mapM_eq_map fun row hRow => hRead row (hListed hRow), ?_⟩
  simp only [List.pairwise_map, hTime]
  rw [hOrdered]
  refine ⟨fun h x hx y hy hPx hPy => ?_, fun h x hx y hy => ?_⟩
  · exact h x ((hRows x).mpr ⟨hx, hPx⟩) y ((hRows y).mpr ⟨hy, hPy⟩)
  · exact h x (hTable hx) y (hTable hy) ((hRows x).mp hx).2 ((hRows y).mp hy).2

end Listings

section Database

variable {Config Result : Type} {db : Database} {runs : RunDatabase Config Result}

theorem listRevisions_ordered_iff {created : RevisionRow → UtcDateTime}
    (hStored : ∀ row ∈ db.revisions.values, row.createdAt = timestamp (created row))
    (strategyId : String) :
    ∃ listed, listRevisions db strategyId = some listed ∧
      (listed.Pairwise (fun x y => y.createdAt ≤ x.createdAt) ↔
        ∀ row ∈ db.revisions.values, ∀ other ∈ db.revisions.values, row.strategyId = strategyId →
          other.strategyId = strategyId → ¬ WholeSecondBefore (created row) (created other)) := by
  have hRows (row : RevisionRow) : row ∈ Sequence.sortByDescending RevisionRow.id
      (db.revisions.values.filter (fun row => row.strategyId = strategyId)) ↔
      row ∈ db.revisions.values ∧ row.strategyId = strategyId := by
    rw [Sequence.mem_sortByDescending, List.mem_filter, decide_eq_true_iff]
  have hRead : ∀ row ∈ db.revisions.values, row.summary = some (RevisionSummary.mk row.id
      row.strategyId row.parentRevisionId row.sourceHash row.schemaVersion (created row)) := by
    intro row hRow
    rw [RevisionRow.summary, hStored row hRow, parseTimestamp_timestamp]
    rfl
  exact listing_ordered_iff hRows hStored hRead fun _ => rfl

theorem listStrategies_ordered_iff {created updated : StrategyRecord → UtcDateTime}
    (hCreated : ∀ row ∈ db.strategies.values, row.createdAt = timestamp (created row))
    (hUpdated : ∀ row ∈ db.strategies.values, row.updatedAt = timestamp (updated row)) :
    ∃ listed, listStrategies db = some listed ∧
      (listed.Pairwise (fun x y => y.updatedAt ≤ x.updatedAt) ↔
        ∀ row ∈ db.strategies.values, ∀ other ∈ db.strategies.values,
          row.archivedAt.isNone = true → other.archivedAt.isNone = true →
            ¬ WholeSecondBefore (updated row) (updated other)) := by
  have hRows (row : StrategyRecord) : row ∈ Sequence.sortBy StrategyRecord.id
      (db.strategies.values.filter (fun row => row.archivedAt.isNone)) ↔
      row ∈ db.strategies.values ∧ row.archivedAt.isNone = true := by
    rw [Sequence.mem_sortBy, List.mem_filter]
  have hRead : ∀ row ∈ db.strategies.values, row.listed = some (ListedStrategy.mk row.id row.name
      (created row) (updated row) row.currentRevisionId) := by
    intro row hRow
    rw [StrategyRecord.listed, hCreated row hRow, hUpdated row hRow, parseTimestamp_timestamp,
      parseTimestamp_timestamp]
    rfl
  exact listing_ordered_iff hRows hUpdated hRead fun _ => rfl

theorem listRuns_ordered_iff {created : BacktestRunRecord Config Result → UtcDateTime}
    (hStored : ∀ run ∈ runs.runs.values, run.createdAt = timestamp (created run))
    (revisionId : String) :
    ∃ listed, listRuns runs revisionId = some listed ∧
      (listed.Pairwise (fun x y => y.2 ≤ x.2) ↔
        ∀ run ∈ runs.runs.values, ∀ other ∈ runs.runs.values,
          run.revisionId = revisionId ∧ run.candidateId = none →
          other.revisionId = revisionId ∧ other.candidateId = none →
            ¬ WholeSecondBefore (created run) (created other)) := by
  have hRows (run : BacktestRunRecord Config Result) :
      run ∈ Sequence.sortByDescending BacktestRunRecord.id (runs.runs.values.filter
        (fun run => run.revisionId = revisionId ∧ run.candidateId = none)) ↔
      run ∈ runs.runs.values ∧ run.revisionId = revisionId ∧ run.candidateId = none := by
    rw [Sequence.mem_sortByDescending, List.mem_filter, decide_eq_true_iff]
  have hRead : ∀ run ∈ runs.runs.values,
      (parseTimestamp run.createdAt).map (run, ·) = some (run, created run) := by
    intro run hRun
    rw [hStored run hRun, parseTimestamp_timestamp]
    rfl
  exact listing_ordered_iff hRows hStored hRead fun _ => rfl

/-- Texts and listings are in order of time exactly where no whole second is followed
by a later time of that second. -/
theorem stored_times_ordered_iff {created updated : StrategyRecord → UtcDateTime}
    {saved : RevisionRow → UtcDateTime} {started : BacktestRunRecord Config Result → UtcDateTime}
    (hCreated : ∀ row ∈ db.strategies.values, row.createdAt = timestamp (created row))
    (hUpdated : ∀ row ∈ db.strategies.values, row.updatedAt = timestamp (updated row))
    (hSaved : ∀ row ∈ db.revisions.values, row.createdAt = timestamp (saved row))
    (hStarted : ∀ run ∈ runs.runs.values, run.createdAt = timestamp (started run)) :
    (∀ a b, a < b → (timestamp a < timestamp b ↔ ¬ WholeSecondBefore a b)) ∧
    (∀ a, parseTimestamp (timestamp a) = some a) ∧
    (∀ strategyId, ∃ listed, listRevisions db strategyId = some listed ∧
      (listed.Pairwise (fun x y => y.createdAt ≤ x.createdAt) ↔
        ∀ row ∈ db.revisions.values, ∀ other ∈ db.revisions.values, row.strategyId = strategyId →
          other.strategyId = strategyId → ¬ WholeSecondBefore (saved row) (saved other))) ∧
    (∃ listed, listStrategies db = some listed ∧
      (listed.Pairwise (fun x y => y.updatedAt ≤ x.updatedAt) ↔
        ∀ row ∈ db.strategies.values, ∀ other ∈ db.strategies.values,
          row.archivedAt.isNone = true → other.archivedAt.isNone = true →
            ¬ WholeSecondBefore (updated row) (updated other))) ∧
    (∀ revisionId, ∃ listed, listRuns runs revisionId = some listed ∧
      (listed.Pairwise (fun x y => y.2 ≤ x.2) ↔
        ∀ run ∈ runs.runs.values, ∀ other ∈ runs.runs.values,
          run.revisionId = revisionId ∧ run.candidateId = none →
          other.revisionId = revisionId ∧ other.candidateId = none →
            ¬ WholeSecondBefore (started run) (started other))) := by
  refine ⟨fun a b h => ?_, parseTimestamp_timestamp, listRevisions_ordered_iff hSaved,
    listStrategies_ordered_iff hCreated hUpdated, listRuns_ordered_iff hStarted⟩
  rw [timestamp_lt_of_lt h]
  refine not_congr ⟨fun hBefore => .of_lt h hBefore.1 hBefore.2, fun hBefore => ?_⟩
  exact ⟨hBefore.2.1, hBefore.1⟩

end Database

section NewYear

theorem newYear_isDate : CalendarDate.IsDate ⟨2024, 1, 2⟩ :=
  ⟨by decide, by decide, by decide⟩

theorem newYear_le : (2024 : Nat) ≤ 9999 := by decide

/-- A time of the first second of a day. -/
def firstSecond (microsecond : Nat) (h : microsecond < 1000000) : UtcDateTime where
  date := ⟨2024, 1, 2⟩
  hour := 0
  minute := 0
  second := 0
  microsecond := microsecond
  isDate := newYear_isDate
  year_le := newYear_le
  hour_lt := Nat.succ_pos 23
  minute_lt := Nat.succ_pos 59
  second_lt := Nat.succ_pos 59
  microsecond_lt := h

theorem half_lt : 500000 < 1000000 := by decide

def wholeSecond : UtcDateTime := firstSecond 0 (Nat.succ_pos 999999)

def halfSecond : UtcDateTime := firstSecond 500000 half_lt

/-- Two Revisions of a second. -/
def firstRevision : RevisionRow :=
  ⟨"revision-1", "strategy", none, "{}", "hash", "v2", timestamp wholeSecond⟩

def laterRevision : RevisionRow :=
  ⟨"revision-2", "strategy", some "revision-1", "{}", "hash", "v2", timestamp halfSecond⟩

def twoRevisions : Database :=
  { Database.empty with
    revisions := (Dict.empty.set "revision-1" firstRevision).set "revision-2" laterRevision }

def savedAt (row : RevisionRow) : UtcDateTime :=
  if row.id = "revision-1" then wholeSecond else halfSecond

def noStoredRuns : RunDatabase PUnit PUnit where
  revisions := []
  candidates := []
  runs := Dict.empty
  events := []
  consistent := fun _ h => by cases h
  referenced := fun _ h => by cases h

theorem twoRevisions_ordered_iff : ∃ listed, listRevisions twoRevisions "strategy" = some listed ∧
    (listed.Pairwise (fun x y => y.createdAt ≤ x.createdAt) ↔
      ∀ row ∈ twoRevisions.revisions.values, ∀ other ∈ twoRevisions.revisions.values,
        row.strategyId = "strategy" → other.strategyId = "strategy" →
          ¬ WholeSecondBefore (savedAt row) (savedAt other)) := by
  have hValues : twoRevisions.revisions.values = [firstRevision, laterRevision] := rfl
  have hSaved : ∀ row ∈ twoRevisions.revisions.values, row.createdAt = timestamp (savedAt row) := by
    intro row hRow
    rw [hValues] at hRow
    rcases List.mem_cons.mp hRow with rfl | hRow
    · rfl
    · obtain rfl := List.mem_singleton.mp hRow
      rfl
  have hStrategies (time : StrategyRecord → String) :
      ∀ row ∈ twoRevisions.strategies.values, time row = timestamp wholeSecond :=
    fun row hRow => absurd hRow List.not_mem_nil
  have hRuns : ∀ run ∈ noStoredRuns.runs.values, run.createdAt = timestamp wholeSecond :=
    fun run hRun => absurd hRun List.not_mem_nil
  have hAll := @stored_times_ordered_iff PUnit PUnit twoRevisions noStoredRuns
    (fun _ => wholeSecond) (fun _ => wholeSecond) savedAt (fun _ => wholeSecond)
    (hStrategies StrategyRecord.createdAt) (hStrategies StrategyRecord.updatedAt) hSaved hRuns
  exact hAll.2.2.1 "strategy"

/-- The later time has the smaller text, and the older Revision is listed first. -/
theorem halfSecond_listed_last : wholeSecond < halfSecond ∧
    ¬ timestamp wholeSecond < timestamp halfSecond ∧
    (listRevisions twoRevisions "strategy").map (fun listed => listed.map RevisionSummary.id) =
      some ["revision-1", "revision-2"] := by
  exact ⟨by decide, by decide, by decide⟩

end NewYear

end RuleTrade
