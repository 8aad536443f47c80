import RuleTrade.Properties.WilderRecursion

/-! Readings of indicators over a stream that has a value at every row from one
row on. Each indicator starts a fixed number of rows later, and its value there
is a function of the values it reads. -/

namespace RuleTrade

open Library

/-- Series of a given number of rows. -/
def tabulate (rows : Nat) (g : Nat → Option ℚ) : Series := (List.range rows).map g

/-- Values from one row on, none before. -/
def startingAt (first : Nat) (f : Nat → ℚ) (row : Nat) : Option ℚ :=
  if first ≤ row then some (f row) else none

theorem startingAt_of_le {first row : Nat} {f : Nat → ℚ} (h : first ≤ row) :
    startingAt first f row = some (f row) := if_pos h

theorem startingAt_of_lt {first row : Nat} {f : Nat → ℚ} (h : row < first) :
    startingAt first f row = none := if_neg (Nat.not_le.mpr h)

section Tabulate

variable {rows row : Nat} {g : Nat → Option ℚ}

@[simp] theorem length_tabulate : (tabulate rows g).length = rows := by simp [tabulate]

theorem getElem?_tabulate (h : row < rows) : (tabulate rows g)[row]? = some (g row) := by
  simp [tabulate, h]

theorem take_tabulate (h : row ≤ rows) : (tabulate rows g).take row = tabulate row g := by
  rw [tabulate, ← List.map_take, List.take_range, min_eq_left h]
  rfl

/-- A series is transformed row by row when each row is. -/
theorem transform_tabulate {ctx : DecimalContext} {kind : IndicatorKind} {period : Nat}
    {value : Nat → Option ℚ}
    (h : ∀ row < rows, transformRow ctx kind period (tabulate rows g) (tabulate row value) row
      (g row) = .ok (value row)) :
    transform ctx kind period (tabulate rows g) = .ok (tabulate rows value) := by
  rw [transform_eq_ok_iff]
  refine ⟨by simp, fun last current v hCurrent hValue => ?_⟩
  obtain ⟨hLast, -⟩ := List.getElem?_eq_some_iff.mp hCurrent
  rw [length_tabulate] at hLast
  rw [getElem?_tabulate hLast, Option.some.injEq] at hCurrent hValue
  rw [← hCurrent, ← hValue, take_tabulate hLast.le]
  exact h last hLast

end Tabulate

section Windows

variable {first rows row period : Nat} {f : Nat → ℚ}

/-- The values a window ending at a row reads. -/
def windowReadings (f : Nat → ℚ) (period row : Nat) : List ℚ :=
  (List.range period).map (fun i => f (row + 1 - period + i))

@[simp] theorem length_windowReadings : (windowReadings f period row).length = period := by
  simp [windowReadings]

theorem window_startingAt (hRow : row < rows) (h : first + period ≤ row + 1) :
    Sequence.slice (tabulate rows (startingAt first f)) ((row : Int) - period + 1) (row + 1) =
      (windowReadings f period row).map some := by
  rw [window_eq (by omega), take_tabulate (by omega)]
  apply List.ext_getElem
  · simp
    omega
  · intro i hi hi'
    have hStart : first ≤ row + 1 - period + i := by omega
    simp [tabulate, windowReadings, startingAt, hStart]

theorem window_incomplete (hRow : row < rows) (hPeriod : 1 ≤ period)
    (h : row + 1 < first + period) :
    (Sequence.slice (tabulate rows (startingAt first f)) ((row : Int) - period + 1)
      (row + 1)).length ≠ period ∨
    none ∈ Sequence.slice (tabulate rows (startingAt first f)) ((row : Int) - period + 1)
      (row + 1) := by
  rcases Nat.lt_or_ge (row + 1) period with hShort | hLong
  · exact Or.inl (window_short hShort)
  · right
    rw [window_eq hLong, take_tabulate (by omega)]
    apply List.mem_of_getElem? (i := 0)
    rw [List.getElem?_drop, getElem?_tabulate (by omega), startingAt, if_neg (by omega)]

@[simp] theorem filterMap_readings {values : List ℚ} :
    (values.map some).filterMap id = values := by
  simp [List.filterMap_map]

@[simp] theorem none_notMem_readings {values : List ℚ} : none ∉ values.map some := by
  simp

end Windows

section Readings

variable (ctx : DecimalContext)

def emaReading (period : Nat) (f : Nat → ℚ) : Nat → ℚ
  | 0 => ctx.quot (ctx.sum (windowReadings f period (period - 1))) period
  | row + 1 =>
      if row + 1 < period then ctx.quot (ctx.sum (windowReadings f period (period - 1))) period
      else ctx.add (ctx.mul (ctx.quot 2 (period + 1)) (f (row + 1)))
        (ctx.mul (ctx.sub 1 (ctx.quot 2 (period + 1))) (emaReading period f row))

/-- Relative changes between neighbouring values. -/
def relativeChanges (values : List ℚ) : List ℚ :=
  List.zipWith (fun current previous => ctx.sub (ctx.quot current previous) 1) values.tail values

/-- Value of an indicator at a row, from the values of its operand. -/
def indicatorReading (kind : IndicatorKind) (period : Nat) (f : Nat → ℚ) (row : Nat) : ℚ :=
  match kind with
  | .trailingReturn => ctx.sub (ctx.quot (f row) (f (row - period))) 1
  | .sma => ctx.quot (ctx.sum (windowReadings f period row)) period
  | .ema => emaReading ctx period f row
  | .rsiWilderLeanCompat =>
      relativeStrength ctx (wilderState ctx period ((List.range (row + 1)).map f))
  | .realizedVolatility =>
      ctx.mul (ctx.sqrt (sampleVariance ctx (relativeChanges ctx (windowReadings f period row))))
        (ctx.sqrt 252)

/-- Relative changes fail exactly at a zero that is not the last value. -/
theorem simpleReturns_ok_iff {values returns : List ℚ} :
    simpleReturns ctx values = .ok returns ↔
      (∀ v ∈ values.dropLast, v ≠ 0) ∧ returns = relativeChanges ctx values := by
  induction values generalizing returns with
  | nil => simp [simpleReturns, relativeChanges, eq_comm]
  | cons previous rest ih =>
      cases rest with
      | nil => simp [simpleReturns, relativeChanges, eq_comm]
      | cons current rest =>
          rw [simpleReturns, DecimalContext.div, List.dropLast_cons_of_ne_nil (by simp)]
          by_cases hZero : previous = 0
          · simp [hZero]
          · rw [if_neg hZero]
            show (simpleReturns ctx (current :: rest) >>= _) = _ ↔ _
            rw [except_bind_ok]
            constructor
            · rintro ⟨tail, hTail, hReturns⟩
              obtain ⟨hRest, rfl⟩ := ih.mp hTail
              cases hReturns
              exact ⟨List.forall_mem_cons.mpr ⟨hZero, hRest⟩, rfl⟩
            · rintro ⟨hValues, rfl⟩
              exact ⟨_, ih.mpr ⟨(List.forall_mem_cons.mp hValues).2, rfl⟩, rfl⟩

@[simp] theorem length_relativeChanges {values : List ℚ} :
    (relativeChanges ctx values).length = values.length - 1 := by
  simp [relativeChanges]

end Readings

section Rows

variable {ctx : DecimalContext} {kind : IndicatorKind} {first rows row period : Nat}
  {f : Nat → ℚ} {series earlier : Series} {current : Option ℚ}

/-- Indicators of a window have no value while it is incomplete. -/
theorem transformRow_incomplete (hKind : kind ≠ .trailingReturn)
    (h : (Sequence.slice series ((row : Int) - period + 1) (row + 1)).length ≠ period ∨
      none ∈ Sequence.slice series ((row : Int) - period + 1) (row + 1)) :
    transformRow ctx kind period series earlier row current = .ok none := by
  cases kind with
  | trailingReturn => exact absurd rfl hKind
  | _ => simp only [transformRow, if_pos h]

/-- A row that has a value has a complete window. -/
theorem complete_of_transformRow {value : ℚ} (hKind : kind ≠ .trailingReturn)
    (h : transformRow ctx kind period series earlier row current = .ok (some value)) :
    (Sequence.slice series ((row : Int) - period + 1) (row + 1)).length = period ∧
      none ∉ Sequence.slice series ((row : Int) - period + 1) (row + 1) := by
  by_contra hIncomplete
  rw [not_and_or, not_not] at hIncomplete
  rw [transformRow_incomplete hKind hIncomplete] at h
  cases h

variable (hPeriod : 1 ≤ period) (hRow : row < rows)

include hPeriod hRow

theorem transformRow_sma :
    transformRow ctx .sma period (tabulate rows (startingAt first f)) earlier row current =
      .ok (startingAt (first + (period - 1)) (indicatorReading ctx .sma period f) row) := by
  by_cases h : first + period ≤ row + 1
  · rw [startingAt_of_le (by omega), transformRow, window_startingAt hRow h]
    simp [indicatorReading]
  · have hIncomplete := window_incomplete (f := f) hRow hPeriod (Nat.lt_of_not_le h)
    rw [startingAt_of_lt (by omega), transformRow_incomplete (by decide) hIncomplete]

/-- An average that starts with the first row goes on from its last value. -/
theorem transformRow_ema :
    transformRow ctx .ema period (tabulate rows (startingAt 0 f))
        (tabulate row (startingAt (period - 1) (emaReading ctx period f))) row current =
      .ok (startingAt (period - 1) (emaReading ctx period f) row) := by
  by_cases h : 0 + period ≤ row + 1
  · rw [startingAt_of_le (by omega), transformRow, window_startingAt hRow h]
    simp only [List.length_map, length_windowReadings, ne_eq, not_true_eq_false,
      none_notMem_readings, or_self, if_false, filterMap_readings]
    rcases Nat.eq_or_lt_of_le h with hSeed | hLater
    · rw [if_pos (by omega)]
      cases row with
      | zero => rw [emaReading, show period - 1 = 0 by omega]
      | succ row => rw [emaReading, if_pos (by omega), show period - 1 = row + 1 by omega]
    · obtain ⟨row, rfl⟩ : ∃ previous, row = previous + 1 := ⟨row - 1, by omega⟩
      have hLast : (tabulate (row + 1) (startingAt (period - 1) (emaReading ctx period f))).getLast? =
          some (some (emaReading ctx period f row)) := by
        rw [List.getLast?_eq_getElem?, length_tabulate, Nat.add_sub_cancel,
          getElem?_tabulate (Nat.lt_succ_self row), startingAt_of_le (by omega)]
      have hCurrent : (windowReadings f period (row + 1)).getLastD 0 = f (row + 1) := by
        rw [List.getLastD_eq_getLast?, List.getLast?_eq_getElem?, length_windowReadings]
        simp only [windowReadings, List.getElem?_map]
        rw [List.getElem?_range (by omega)]
        show f _ = _
        congr 1
        omega
      rw [if_neg (by omega), hLast, hCurrent, emaReading, if_neg (by omega)]
      rfl
  · have hIncomplete := window_incomplete (f := f) hRow hPeriod (Nat.lt_of_not_le h)
    rw [startingAt_of_lt (by omega), transformRow_incomplete (by decide) hIncomplete]

omit hPeriod in
theorem transformRow_rsi_startingAt :
    transformRow ctx .rsiWilderLeanCompat period (tabulate rows (startingAt 0 f)) earlier row
        current =
      .ok (startingAt period (indicatorReading ctx .rsiWilderLeanCompat period f) row) := by
  have hComplete : tabulate rows (startingAt 0 f) = ((List.range rows).map f).map some := by
    rw [tabulate, List.map_map]
    rfl
  rw [hComplete, transformRow_rsi (by simpa using hRow), ← List.map_take, List.take_range,
    min_eq_left hRow]
  by_cases h : row < period
  · rw [if_pos h, startingAt_of_lt h]
  · rw [if_neg h, startingAt_of_le (Nat.le_of_not_lt h)]
    rfl

/-- A volatility needs two returns, so three values none of which is divided by
zero. -/
theorem transformRow_volatility (hReturns : 3 ≤ period)
    (hNonzero : ∀ i, first ≤ i → i + 1 < rows → f i ≠ 0) :
    transformRow ctx .realizedVolatility period (tabulate rows (startingAt first f)) earlier row
        current =
      .ok (startingAt (first + (period - 1))
        (indicatorReading ctx .realizedVolatility period f) row) := by
  by_cases h : first + period ≤ row + 1
  · have hValues : ∀ v ∈ (windowReadings f period row).dropLast, v ≠ 0 := by
      intro v hv
      obtain ⟨i, hi, rfl⟩ := List.getElem_of_mem hv
      rw [List.length_dropLast, length_windowReadings] at hi
      simp only [windowReadings, List.getElem_dropLast, List.getElem_map, List.getElem_range]
      exact hNonzero _ (by omega) (by omega)
    rw [startingAt_of_le (by omega), transformRow, window_startingAt hRow h]
    simp only [List.length_map, length_windowReadings, ne_eq, not_true_eq_false,
      none_notMem_readings, or_self, if_false, filterMap_readings,
      (simpleReturns_ok_iff ctx).mpr ⟨hValues, rfl⟩]
    show (if _ then _ else _) = _
    rw [if_neg (by rw [length_relativeChanges, length_windowReadings]; omega)]
    rfl
  · have hIncomplete := window_incomplete (f := f) hRow hPeriod (Nat.lt_of_not_le h)
    rw [startingAt_of_lt (by omega), transformRow_incomplete (by decide) hIncomplete]

omit hPeriod in
/-- A return needs a value now and one other than zero a window earlier. -/
theorem transformRow_trailingReturn {g : Nat → Option ℚ} :
    transformRow ctx .trailingReturn period (tabulate rows g) earlier row (g row) =
      .ok (if row < period then none
        else (g row).bind (fun price => (g (row - period)).bind (fun base =>
          if base = 0 then none else some (ctx.sub (ctx.quot price base) 1)))) := by
  by_cases h : row < period
  · simp only [transformRow, if_pos h]
  · have hBase : row - period < rows := by omega
    simp only [transformRow, if_neg h, getElem?_tabulate hBase]
    cases g row with
    | none => rfl
    | some price =>
        cases g (row - period) with
        | none => rfl
        | some base => rfl

end Rows

section Absent

variable {ctx : DecimalContext} {kind : IndicatorKind} {first rows period : Nat}
  {f : Nat → ℚ} {series out : Series}

/-- A series without any value. -/
def Absent (series : Series) : Prop := ∀ value ∈ series, value = none

theorem absent_of_rows (h : transform ctx kind period series = .ok out)
    (hRows : ∀ row current value, series[row]? = some current →
      out[row]? = some (some value) →
      transformRow ctx kind period series (out.take row) row current ≠ .ok (some value)) :
    Absent out := by
  intro value hValue
  obtain ⟨row, hRow⟩ := List.getElem?_of_mem hValue
  obtain ⟨hLength, hTransform⟩ := transform_eq_ok_iff.mp h
  cases value with
  | none => rfl
  | some value =>
      obtain ⟨hLast, -⟩ := List.getElem?_eq_some_iff.mp hRow
      have hCurrent := List.getElem?_eq_getElem (hLength ▸ hLast)
      exact absurd (hTransform row _ _ hCurrent hRow) (hRows row _ value hCurrent hRow)

/-- Nothing can be read from a series without values. -/
theorem Absent.transform (hSeries : Absent series) (hPeriod : 1 ≤ period)
    (h : transform ctx kind period series = .ok out) : Absent out := by
  apply absent_of_rows h
  intro row current value hCurrent hValue hRow
  by_cases hKind : kind = .trailingReturn
  · subst hKind
    have hMissing : current = none := hSeries current (List.mem_of_getElem? hCurrent)
    have hNone : transformRow ctx .trailingReturn period series (out.take row) row none =
        .ok none := by
      simp only [transformRow]
      split_ifs <;> rfl
    rw [hMissing, hNone] at hRow
    cases hRow
  · obtain ⟨hLength, hWindow⟩ := complete_of_transformRow hKind hRow
    obtain ⟨first, hFirst⟩ := List.exists_mem_of_length_pos (hLength ▸ hPeriod)
    have hMissing := hSeries first
      (List.mem_of_mem_drop (List.mem_of_mem_take hFirst))
    exact hWindow (hMissing ▸ hFirst)

variable (hPeriod : 1 ≤ period)

include hPeriod

/-- A row that has a value reaches back no further than the first one. -/
theorem reaches_of_transformRow {earlier : Series} {row : Nat} {current : Option ℚ} {value : ℚ}
    (hKind : kind ≠ .trailingReturn) (hRow : row < rows)
    (h : transformRow ctx kind period (tabulate rows (startingAt first f)) earlier row current =
      .ok (some value)) : first + period ≤ row + 1 := by
  by_contra hLate
  obtain ⟨hLength, hWindow⟩ := complete_of_transformRow hKind h
  rcases window_incomplete hRow hPeriod (Nat.lt_of_not_le hLate) with hShort | hMissing
  · exact hShort hLength
  · exact hWindow hMissing

omit hPeriod in
theorem previous_of_ema {earlier : Series} {row : Nat} {current : Option ℚ} {value : ℚ}
    (h : transformRow ctx .ema period series earlier row current = .ok (some value))
    (hSeed : row + 1 ≠ period) : ∃ previous, earlier.getLast? = some (some previous) := by
  obtain ⟨hLength, hWindow⟩ := complete_of_transformRow (by decide) h
  simp only [transformRow, hLength, hWindow, ne_eq, not_true_eq_false, or_self, if_false,
    if_neg hSeed] at h
  cases hLast : earlier.getLast? with
  | none =>
      rw [hLast] at h
      cases h
  | some last =>
      cases last with
      | none =>
          rw [hLast] at h
          cases h
      | some previous => exact ⟨previous, rfl⟩

/-- An exponential average of a stream that starts late is never seeded. -/
theorem absent_ema (hFirst : first ≠ 0)
    (h : transform ctx .ema period (tabulate rows (startingAt first f)) = .ok out) :
    Absent out := by
  obtain ⟨hLength, hTransform⟩ := transform_eq_ok_iff.mp h
  rw [length_tabulate] at hLength
  have hNever (row : Nat) : ∀ value, out[row]? ≠ some (some value) := by
    induction row with
    | zero =>
        intro value hValue
        obtain ⟨hRow, -⟩ := List.getElem?_eq_some_iff.mp hValue
        have hStep := hTransform 0 _ _ (getElem?_tabulate (hLength ▸ hRow)) hValue
        have hReach := reaches_of_transformRow hPeriod (by decide) (hLength ▸ hRow) hStep
        omega
    | succ row ih =>
        intro value hValue
        obtain ⟨hRow, -⟩ := List.getElem?_eq_some_iff.mp hValue
        have hStep := hTransform (row + 1) _ _ (getElem?_tabulate (hLength ▸ hRow)) hValue
        have hReach := reaches_of_transformRow hPeriod (by decide) (hLength ▸ hRow) hStep
        obtain ⟨previous, hPrevious⟩ := previous_of_ema hStep (by omega)
        rw [List.getLast?_eq_getElem?, List.length_take, min_eq_left hRow.le, Nat.add_sub_cancel,
          List.getElem?_take, if_pos (Nat.lt_succ_self row)] at hPrevious
        exact ih previous hPrevious
  intro value hValue
  obtain ⟨row, hRow⟩ := List.getElem?_of_mem hValue
  cases value with
  | none => rfl
  | some value => exact absurd hRow (hNever row value)

/-- The replay subtracts the first row from the second. -/
theorem first_of_wilderAverages {last : Nat} {averages : ℚ × ℚ}
    (h : wilderAverages ctx period last series = .ok averages) :
    ∃ value, series[0]? = some (some value) := by
  obtain ⟨changes, hChanges, -⟩ := except_bind_ok.mp h
  obtain ⟨count, rfl⟩ : ∃ count, period = count + 1 := ⟨period - 1, by omega⟩
  obtain ⟨change, -, hChange⟩ := Sequence.exists_right (Sequence.forall₂_of_mapM hChanges)
    (x := 1) (by simp)
  rw [seriesChange] at hChange
  split at hChange
  · rename_i hFirst
    exact ⟨_, hFirst⟩
  · cases hChange
  · cases hChange

theorem absent_rsi (hFirst : first ≠ 0)
    (h : transform ctx .rsiWilderLeanCompat period (tabulate rows (startingAt first f)) =
      .ok out) : Absent out := by
  apply absent_of_rows h
  intro row current value hCurrent hValue hRow
  obtain ⟨hLast, -⟩ := List.getElem?_eq_some_iff.mp hCurrent
  rw [length_tabulate] at hLast
  have hReach := reaches_of_transformRow hPeriod (by decide) hLast hRow
  obtain ⟨hLength, hWindow⟩ := complete_of_transformRow (by decide) hRow
  simp only [transformRow, hLength, hWindow, ne_eq, not_true_eq_false, or_self, if_false] at hRow
  rw [if_neg (by omega)] at hRow
  obtain ⟨averages, hAverages, -⟩ := except_bind_ok.mp hRow
  obtain ⟨_, hSeed⟩ := first_of_wilderAverages hPeriod hAverages
  rw [getElem?_tabulate (by omega), startingAt_of_lt (by omega)] at hSeed
  cases hSeed

omit hPeriod in
/-- Fewer than three values give no volatility. -/
theorem absent_volatility (hReturns : period < 3)
    (h : transform ctx .realizedVolatility period series = .ok out) : Absent out := by
  apply absent_of_rows h
  intro row current value hCurrent hValue hRow
  obtain ⟨hLength, hWindow⟩ := complete_of_transformRow (by decide) hRow
  simp only [transformRow, hLength, hWindow, ne_eq, not_true_eq_false, or_self, if_false] at hRow
  obtain ⟨returns, hChanges, hRow⟩ := except_bind_ok.mp hRow
  obtain ⟨-, rfl⟩ := (simpleReturns_ok_iff ctx).mp hChanges
  have hCount := List.length_filterMap_le id
    (Sequence.slice series ((row : Int) - period + 1) (row + 1))
  rw [if_pos (by rw [length_relativeChanges]; omega)] at hRow
  cases hRow

/-- A zero that a volatility divides by leaves it without any value. -/
theorem absent_volatility_of_zero {i : Nat} (hReturns : 3 ≤ period) (hFirst : first ≤ i)
    (hLast : i + 1 < rows) (hZero : f i = 0)
    (h : transform ctx .realizedVolatility period (tabulate rows (startingAt first f)) =
      .ok out) : Absent out := by
  apply absent_of_rows h
  intro row current value hCurrent hValue hRow
  obtain ⟨hRows, -⟩ := List.getElem?_eq_some_iff.mp hCurrent
  rw [length_tabulate] at hRows
  have hReach := reaches_of_transformRow hPeriod (by decide) hRows hRow
  -- the first complete window that has the zero before its last value
  obtain ⟨last, hEnd⟩ : ∃ last, last = max (i + 1) (first + period - 1) := ⟨_, rfl⟩
  have hEndRow : last < rows := by omega
  obtain ⟨hLength, hTransform⟩ := transform_eq_ok_iff.mp h
  rw [length_tabulate] at hLength
  have hStep := hTransform last _ _ (getElem?_tabulate hEndRow)
    (List.getElem?_eq_getElem (hLength ▸ hEndRow))
  rw [transformRow, window_startingAt hEndRow (by omega)] at hStep
  simp only [List.length_map, length_windowReadings, ne_eq, not_true_eq_false,
    none_notMem_readings, or_self, if_false, filterMap_readings] at hStep
  obtain ⟨returns, hChanges, -⟩ := except_bind_ok.mp hStep
  obtain ⟨hNonzero, -⟩ := (simpleReturns_ok_iff ctx).mp hChanges
  apply hNonzero (f i) _ hZero
  apply List.mem_of_getElem? (i := i - (last + 1 - period))
  rw [List.getElem?_dropLast, length_windowReadings, if_pos (by omega)]
  simp only [windowReadings, List.getElem?_map]
  rw [List.getElem?_range (by omega)]
  show some (f _) = _
  congr 2
  omega

end Absent

end RuleTrade
