import RuleTrade.Strategy.DailyValues
import RuleTrade.Library.Logged

/-! Rows of an indicator. A series is transformed row by row, and each row is
decided by its window and by the rows before it. -/

namespace RuleTrade

open Library

section Growing

variable {ε α β : Type} {f : List β → α → Except ε β}

/-- A list that is grown value by value has at each place what its step gives. -/
theorem foldlM_grow {xs : List α} {start out : List β} :
    xs.foldlM (fun grown x => do
      let v ← f grown x
      .ok (grown ++ [v])) start = .ok out ↔
    ∃ values, out = start ++ values ∧ values.length = xs.length ∧
      ∀ i x v, xs[i]? = some x → values[i]? = some v → f (start ++ values.take i) x = .ok v := by
  induction xs generalizing start with
  | nil =>
      constructor
      · intro h
        cases h
        exact ⟨[], (List.append_nil _).symm, rfl, fun _ _ _ hx => by cases hx⟩
      · rintro ⟨values, rfl, hLength, -⟩
        rw [List.length_eq_zero_iff.mp hLength, List.append_nil]
        rfl
  | cons x xs ih =>
      rw [List.foldlM_cons]
      constructor
      · intro h
        obtain ⟨grown, hFirst, hRest⟩ := except_bind_ok.mp h
        obtain ⟨v, hv, hGrown⟩ := except_bind_ok.mp hFirst
        cases hGrown
        obtain ⟨values, rfl, hLength, hValues⟩ := ih.mp hRest
        refine ⟨v :: values, by simp, by simp [hLength], fun i y w hy hw => ?_⟩
        cases i with
        | zero =>
            rw [List.getElem?_cons_zero, Option.some.injEq] at hy hw
            rw [← hy, ← hw, List.take_zero, List.append_nil]
            exact hv
        | succ i =>
            rw [List.getElem?_cons_succ] at hy hw
            have hStep := hValues i y w hy hw
            rwa [List.append_assoc, List.singleton_append, ← List.take_succ_cons] at hStep
      · rintro ⟨values, rfl, hLength, hValues⟩
        cases values with
        | nil => cases hLength
        | cons v values =>
            have hFirst := hValues 0 x v rfl rfl
            rw [List.take_zero, List.append_nil] at hFirst
            rw [hFirst]
            show xs.foldlM _ (start ++ [v]) = _
            rw [ih]
            refine ⟨values, by simp, by simpa using hLength, fun i y w hy hw => ?_⟩
            have hStep := hValues (i + 1) y w (by simpa using hy) (by simpa using hw)
            rwa [List.take_succ_cons, ← List.singleton_append, ← List.append_assoc] at hStep

/-- A list can be grown when every step gives a value. -/
theorem exists_foldlM_grow {xs : List α} (h : ∀ grown, ∀ x ∈ xs, ∃ v, f grown x = .ok v)
    (start : List β) : ∃ out, xs.foldlM (fun grown x => do
      let v ← f grown x
      .ok (grown ++ [v])) start = .ok out := by
  induction xs generalizing start with
  | nil => exact ⟨start, rfl⟩
  | cons x xs ih =>
      obtain ⟨v, hv⟩ := h start x List.mem_cons_self
      obtain ⟨out, hOut⟩ := ih (fun grown y hy => h grown y (List.mem_cons_of_mem _ hy))
        (start ++ [v])
      exact ⟨out, by rw [List.foldlM_cons, hv]; exact hOut⟩

end Growing

section Window

variable {α : Type} {xs : List α} {period last : Nat}

/-- A window that reaches back to a row of the series. -/
theorem window_eq (h : period ≤ last + 1) :
    Sequence.slice xs ((last : Int) - period + 1) (last + 1) =
      (xs.take (last + 1)).drop (last + 1 - period) := by
  have hStart : (last : Int) - period + 1 = (last + 1 - period : Nat) := by omega
  have hStop : (last : Int) + 1 = (last + 1 : Nat) := by omega
  rw [Sequence.slice, hStart, hStop, Sequence.bound_of_nonneg (by omega),
    Sequence.bound_of_nonneg (by omega), Int.toNat_natCast, Int.toNat_natCast, List.drop_take]
  rcases Nat.le_total (last + 1 - period) xs.length with hLength | hLength
  · rw [min_eq_left hLength]
    rcases Nat.le_total (last + 1) xs.length with hLast | hLast
    · rw [min_eq_left hLast]
    · have hDrop : (xs.drop (last + 1 - period)).length = xs.length - (last + 1 - period) :=
        List.length_drop
      rw [min_eq_right hLast, List.take_of_length_le (by omega), List.take_of_length_le (by omega)]
  · rw [min_eq_right hLength, List.drop_of_length_le le_rfl, List.drop_of_length_le hLength]
    simp

theorem length_window (hRow : last < xs.length) (h : period ≤ last + 1) :
    (Sequence.slice xs ((last : Int) - period + 1) (last + 1)).length = period := by
  rw [window_eq h, List.length_drop, List.length_take]
  omega

/-- A window that starts before the series is too short. -/
theorem window_short (h : last + 1 < period) :
    (Sequence.slice xs ((last : Int) - period + 1) (last + 1)).length ≠ period := by
  rw [Sequence.length_slice, Sequence.bound_of_nonneg (i := last + 1) (by omega)]
  omega

end Window

section Rows

variable {ctx : DecimalContext} {kind : IndicatorKind} {period : Nat} {series out : Series}

/-- A transformed series has at each row what the row gives after the rows before it. -/
theorem transform_eq_ok_iff :
    transform ctx kind period series = .ok out ↔ out.length = series.length ∧
      ∀ last current value, series[last]? = some current → out[last]? = some value →
        transformRow ctx kind period series (out.take last) last current = .ok value := by
  rw [transform, foldlM_grow]
  simp only [List.nil_append, Sequence.enumerate, List.length_zip, List.length_range, min_self]
  constructor
  · rintro ⟨values, rfl, hLength, hRows⟩
    refine ⟨hLength, fun last current value hCurrent hValue => ?_⟩
    have hLast : last < series.length := (List.getElem?_eq_some_iff.mp hCurrent).1
    apply hRows last (last, current) value _ hValue
    rw [List.getElem?_zip_eq_some]
    exact ⟨by simp [hLast], hCurrent⟩
  · rintro ⟨hLength, hRows⟩
    refine ⟨out, rfl, hLength, fun i row value hRow hValue => ?_⟩
    obtain ⟨hIndex, hCurrent⟩ := List.getElem?_zip_eq_some.mp hRow
    obtain ⟨hLast, hRange⟩ := List.getElem?_eq_some_iff.mp hIndex
    rw [List.getElem_range] at hRange
    subst hRange
    exact hRows row.1 row.2 value hCurrent hValue

/-- A series is transformed when none of its rows fails. -/
theorem exists_transform (h : ∀ earlier last current, series[last]? = some current →
      ∃ value, transformRow ctx kind period series earlier last current = .ok value) :
    ∃ out, transform ctx kind period series = .ok out := by
  refine exists_foldlM_grow (fun earlier row hRow => ?_) []
  obtain ⟨i, hi⟩ := List.getElem?_of_mem hRow
  obtain ⟨hIndex, hCurrent⟩ := List.getElem?_zip_eq_some.mp hi
  obtain ⟨hLast, hRange⟩ := List.getElem?_eq_some_iff.mp hIndex
  rw [List.getElem_range] at hRange
  subst hRange
  exact h earlier row.1 row.2 hCurrent

theorem length_transform (h : transform ctx kind period series = .ok out) :
    out.length = series.length :=
  (transform_eq_ok_iff.mp h).1

/-- A stream has a value or a gap for each completed row. -/
theorem length_stream {view : DailyView} {symbol : String} {rows : Nat}
    (hCompleted : ∀ field basis values, view.completed symbol field basis = .ok values →
      values.length = rows)
    {node : DailyValueNode} (h : stream ctx view symbol node = .ok out) : out.length = rows := by
  induction node generalizing out with
  | observe attrs field basis => exact hCompleted field basis out h
  | indicator attrs kind window skip operand ih =>
      obtain ⟨source, hSource, hTransform⟩ := except_bind_ok.mp h
      rw [length_transform hTransform, ih hSource]
  | absolute attrs operand ih =>
      obtain ⟨source, hSource, hMap⟩ := except_bind_ok.mp h
      cases hMap
      rw [List.length_map, ih hSource]
  | _ => cases h

end Rows

section Snapshot

variable {snapshot : DailyMarketSnapshot} {symbol : String}

theorem length_fieldValues {field : MarketField} {basis : PriceBasis} {series : Series}
    (h : snapshot.fieldValues symbol field basis = .ok series) :
    series.length = snapshot.dates.length := by
  rw [DailyMarketSnapshot.fieldValues] at h
  split at h
  · rename_i values hValues
    cases h
    obtain ⟨fields, hFields, hField⟩ := Option.bind_eq_some_iff.mp hValues
    exact snapshot.series_lengths fields (List.mem_map_of_mem (Dict.mem_of_get? hFields)) series
      (List.mem_map_of_mem (Dict.mem_of_get? hField))
  · cases h

/-- At a cutoff a stream has the rows up to it. -/
theorem DailyMarketSnapshot.length_completed {ctx : DecimalContext} {cutoff : Nat}
    {node : DailyValueNode} {out : Series} (hCutoff : cutoff < snapshot.dates.length)
    (h : stream ctx (snapshot.view cutoff) symbol node = .ok out) : out.length = cutoff + 1 := by
  apply length_stream (fun field basis values hValues => ?_) h
  obtain ⟨whole, hWhole, hTake⟩ := except_bind_ok.mp hValues
  cases hTake
  rw [List.length_take, length_fieldValues hWhole]
  omega

end Snapshot

end RuleTrade
