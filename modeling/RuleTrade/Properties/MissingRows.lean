import RuleTrade.Properties.Readiness

/-! Streams over a series with missing rows. Each indicator checks its window, but
the oscillator replays from the first row and a volatility divides by the values
of its window, so some gaps and some zeros still raise. -/

namespace RuleTrade

open Library

section Windows

variable {ctx : DecimalContext} {g : Nat → Option ℚ} {rows row period : Nat}

/-- All rows of the window that ends at a row have a value. -/
def WindowObserved (g : Nat → Option ℚ) (period row : Nat) : Prop :=
  period ≤ row + 1 ∧ ∀ i < period, (g (row + 1 - period + i)).isSome = true

instance : Decidable (WindowObserved g period row) :=
  inferInstanceAs (Decidable (_ ∧ _))

/-- Values of an observed window. -/
def observedReadings (g : Nat → Option ℚ) (period row : Nat) : List ℚ :=
  windowReadings (fun i => (g i).getD 0) period row

theorem window_observed (hRow : row < rows) (h : WindowObserved g period row) :
    Sequence.slice (tabulate rows g) ((row : Int) - period + 1) (row + 1) =
      (observedReadings g period row).map some := by
  obtain ⟨hReached, hValues⟩ := h
  rw [window_eq hReached, take_tabulate (by omega)]
  apply List.ext_getElem
  · simp [observedReadings]
    omega
  · intro i hi hi'
    have hIndex : i < period := by simpa [observedReadings] using hi'
    obtain ⟨v, hv⟩ := Option.isSome_iff_exists.mp (hValues i hIndex)
    simp [tabulate, observedReadings, windowReadings, hv]

theorem window_gap (hRow : row < rows) (h : ¬WindowObserved g period row) :
    (Sequence.slice (tabulate rows g) ((row : Int) - period + 1) (row + 1)).length ≠ period ∨
      none ∈ Sequence.slice (tabulate rows g) ((row : Int) - period + 1) (row + 1) := by
  rcases Nat.lt_or_ge (row + 1) period with hShort | hReached
  · exact Or.inl (window_short hShort)
  · right
    obtain ⟨i, hi, hGap⟩ : ∃ i < period, g (row + 1 - period + i) = none := by
      by_contra hFull
      push Not at hFull
      exact h ⟨hReached, fun i hi => Option.isSome_iff_ne_none.mpr (hFull i hi)⟩
    rw [window_eq hReached, take_tabulate (by omega)]
    apply List.mem_of_getElem? (i := i)
    rw [List.getElem?_drop, getElem?_tabulate (by omega), hGap]

end Windows

section Averages

variable (ctx : DecimalContext)

def meanOfWindow (g : Nat → Option ℚ) (period row : Nat) : ℚ :=
  ctx.quot (ctx.sum (observedReadings g period row)) period

def smaAt (period : Nat) (g : Nat → Option ℚ) (row : Nat) : Option ℚ :=
  if WindowObserved g period row then some (meanOfWindow ctx g period row) else none

/-- An exponential average starts at the row its period ends at. A gap stops it
for good. -/
def emaAt (period : Nat) (g : Nat → Option ℚ) : Nat → Option ℚ
  | 0 => if WindowObserved g period 0 ∧ 1 = period then some (meanOfWindow ctx g period 0) else none
  | row + 1 =>
      if WindowObserved g period (row + 1) then
        if row + 2 = period then some (meanOfWindow ctx g period (row + 1))
        else (emaAt period g row).map (fun previous =>
          ctx.add (ctx.mul (ctx.quot 2 (period + 1)) ((g (row + 1)).getD 0))
            (ctx.mul (ctx.sub 1 (ctx.quot 2 (period + 1))) previous))
      else none

/-- Price at a row of a chain of averages, where there is one. -/
def priceAt (g : Nat → Option ℚ) : DailyValueNode → Nat → Option ℚ
  | .indicator _ .sma window _ operand => smaAt ctx window (priceAt g operand)
  | .indicator _ .ema window _ operand => emaAt ctx window (priceAt g operand)
  | .absolute _ operand => fun row => (priceAt g operand row).map ctx.abs
  | _ => g

/-- Rows that an oscillator or a volatility of a chain reads, up to a cutoff. Where
the window of an oscillator is observed, so is every row before it. Where the
window of a volatility is observed, only its last value may be zero. -/
def GapsHarmless (g : Nat → Option ℚ) (cutoff : Nat) : DailyValueNode → Prop
  | .indicator _ kind window _ operand =>
      GapsHarmless g cutoff operand ∧
      (kind = .rsiWilderLeanCompat → ∀ last ≤ cutoff, window ≤ last →
        WindowObserved (priceAt ctx g operand) window last →
        ∀ row ≤ last, (priceAt ctx g operand row).isSome = true) ∧
      (kind = .realizedVolatility → ∀ last ≤ cutoff,
        WindowObserved (priceAt ctx g operand) window last →
        ∀ row, last + 1 ≤ row + window → row < last → priceAt ctx g operand row ≠ some 0)
  | .absolute _ operand => GapsHarmless g cutoff operand
  | _ => True

end Averages

section Rows

variable {ctx : DecimalContext} {g : Nat → Option ℚ} {rows row period : Nat} {earlier : Series}
  {current : Option ℚ}

theorem transformRow_smaAt (hRow : row < rows) :
    transformRow ctx .sma period (tabulate rows g) earlier row current =
      .ok (smaAt ctx period g row) := by
  by_cases h : WindowObserved g period row
  · rw [smaAt, if_pos h, transformRow, window_observed hRow h]
    simp [observedReadings, meanOfWindow]
  · rw [smaAt, if_neg h, transformRow_incomplete (by decide) (window_gap hRow h)]

/-- The last value of an observed window is the row's own. -/
theorem getLastD_observedReadings (hPeriod : 1 ≤ period) (h : WindowObserved g period row) :
    (observedReadings g period row).getLastD 0 = (g row).getD 0 := by
  obtain ⟨hReached, -⟩ := h
  rw [List.getLastD_eq_getLast?, List.getLast?_eq_getElem?, observedReadings,
    length_windowReadings]
  simp only [windowReadings, List.getElem?_map]
  rw [List.getElem?_range (by omega)]
  show (g _).getD 0 = _
  rw [show row + 1 - period + (period - 1) = row by omega]

theorem transformRow_emaAt (hPeriod : 1 ≤ period) (hRow : row < rows) :
    transformRow ctx .ema period (tabulate rows g) (tabulate row (emaAt ctx period g)) row current =
      .ok (emaAt ctx period g row) := by
  by_cases h : WindowObserved g period row
  · have hLast := getLastD_observedReadings hPeriod h
    rw [transformRow, window_observed hRow h]
    simp only [List.length_map, observedReadings, length_windowReadings, ne_eq, not_true_eq_false,
      none_notMem_readings, or_self, if_false, filterMap_readings]
    cases row with
    | zero =>
        have hOne : 1 = period := by
          have := h.1
          omega
        rw [emaAt, if_pos (by omega : 0 + 1 = period), if_pos ⟨h, hOne⟩]
        rfl
    | succ row =>
        rw [emaAt, if_pos h]
        by_cases hSeed : row + 2 = period
        · rw [if_pos hSeed, if_pos (by omega)]
          rfl
        · have hPrevious : (tabulate (row + 1) (emaAt ctx period g)).getLast? =
              some (emaAt ctx period g row) := by
            rw [List.getLast?_eq_getElem?, length_tabulate, Nat.add_sub_cancel,
              getElem?_tabulate (Nat.lt_succ_self row)]
          rw [if_neg hSeed, if_neg (by omega), hPrevious]
          rw [observedReadings] at hLast
          rw [hLast]
          cases emaAt ctx period g row with
          | none => rfl
          | some previous => rfl
  · rw [transformRow_incomplete (by decide) (window_gap hRow h)]
    cases row with
    | zero =>
        have hSeed : ¬(WindowObserved g period 0 ∧ 1 = period) := fun hFull => h hFull.1
        rw [emaAt, if_neg hSeed]
    | succ row => rw [emaAt, if_neg h]

/-- A change is read from a row and the one before it. -/
theorem exists_seriesChange_iff (hRow : row < rows) :
    (∃ change, seriesChange ctx (tabulate rows g) row = .ok change) ↔
      (g row).isSome = true ∧ (g (row - 1)).isSome = true := by
  rw [seriesChange, getElem?_tabulate hRow, getElem?_tabulate (Nat.lt_of_le_of_lt (row.sub_le 1) hRow)]
  cases g row with
  | none => simp
  | some current => cases g (row - 1) <;> simp

/-- The replay of an oscillator reads every change. -/
theorem exists_wilderAverages_of_changes {last : Nat} {series : Series} :
    (∃ averages, wilderAverages ctx period last series = .ok averages) ↔
      (∀ i < period, ∃ change, seriesChange ctx series (i + 1) = .ok change) ∧
      ∀ i < last - period, ∃ change, seriesChange ctx series (i + (period + 1)) = .ok change := by
  have hSmooth (start : ℚ × ℚ) :
      (∃ averages, ((List.range (last - period)).map (· + (period + 1))).foldlM
        (fun averages index => do
          let c ← seriesChange ctx series index
          .ok (ctx.quot (ctx.add (ctx.mul averages.1 (period - 1 : ℚ)) (max c 0)) period,
            ctx.quot (ctx.add (ctx.mul averages.2 (period - 1 : ℚ)) (max (ctx.neg c) 0)) period))
        start = .ok averages) ↔
      ∀ i < last - period, ∃ change, seriesChange ctx series (i + (period + 1)) = .ok change := by
    rw [Sequence.exists_ok_foldlM_iff (fun averages index => exists_bind_ok_iff)]
    simp only [List.forall_mem_map, List.mem_range]
  constructor
  · rintro ⟨averages, h⟩
    obtain ⟨changes, hSeed, hFold⟩ := except_bind_ok.mp h
    refine ⟨fun i hi => ?_, (hSmooth _).mp ⟨averages, hFold⟩⟩
    obtain ⟨change, -, hChange⟩ := Sequence.exists_right (Sequence.forall₂_of_mapM hSeed)
      (List.mem_map.mpr ⟨i, List.mem_range.mpr hi, rfl⟩)
    exact ⟨change, hChange⟩
  · rintro ⟨hFirst, hLater⟩
    obtain ⟨changes, hSeed⟩ : ∃ changes, ((List.range period).map (· + 1)).mapM
        (seriesChange ctx series) = .ok changes := by
      apply Sequence.exists_ok_mapM
      intro index hIndex
      obtain ⟨i, hi, rfl⟩ := List.mem_map.mp hIndex
      exact hFirst i (List.mem_range.mp hi)
    rw [wilderAverages, hSeed]
    exact (hSmooth _).mpr hLater

/-- So it needs every row up to its own. -/
theorem exists_wilderAverages_iff {last : Nat} (hPeriod : 1 ≤ period) (hReady : period ≤ last)
    (hLast : last < rows) :
    (∃ averages, wilderAverages ctx period last (tabulate rows g) = .ok averages) ↔
      ∀ row ≤ last, (g row).isSome = true := by
  rw [exists_wilderAverages_of_changes]
  constructor
  · rintro ⟨hFirst, hLater⟩ row hRow
    rcases Nat.lt_or_ge period row with hAfter | hBefore
    · have hChange := hLater (row - (period + 1)) (by omega)
      rw [Nat.sub_add_cancel hAfter, exists_seriesChange_iff (by omega)] at hChange
      exact hChange.1
    · cases row with
      | zero => exact ((exists_seriesChange_iff (by omega)).mp (hFirst 0 hPeriod)).2
      | succ row => exact ((exists_seriesChange_iff (by omega)).mp (hFirst row hBefore)).1
  · intro h
    constructor
    · intro i hi
      exact (exists_seriesChange_iff (by omega)).mpr ⟨h _ (by omega), h _ (by omega)⟩
    · intro i hi
      exact (exists_seriesChange_iff (by omega)).mpr ⟨h _ (by omega), h _ (by omega)⟩

theorem exists_transformRow_rsi_iff (hPeriod : 1 ≤ period) (hRow : row < rows) :
    (∃ value, transformRow ctx .rsiWilderLeanCompat period (tabulate rows g) earlier row current =
      .ok value) ↔
    (period ≤ row → WindowObserved g period row → ∀ i ≤ row, (g i).isSome = true) := by
  by_cases h : WindowObserved g period row
  · rw [transformRow, window_observed hRow h]
    simp only [List.length_map, observedReadings, length_windowReadings, ne_eq, not_true_eq_false,
      none_notMem_readings, or_self, if_false]
    by_cases hReady : period ≤ row
    · rw [if_neg (Nat.not_lt.mpr hReady), exists_bind_ok_iff,
        exists_wilderAverages_iff hPeriod hReady hRow]
      simp [h, hReady]
    · simp [hReady, Nat.lt_of_not_le hReady]
  · rw [transformRow_incomplete (by decide) (window_gap hRow h)]
    simp [h]

theorem exists_transformRow_volatility_iff (hRow : row < rows) :
    (∃ value, transformRow ctx .realizedVolatility period (tabulate rows g) earlier row current =
      .ok value) ↔
    (WindowObserved g period row → ∀ i, row + 1 ≤ i + period → i < row → g i ≠ some 0) := by
  by_cases h : WindowObserved g period row
  · obtain ⟨hReached, hValues⟩ := h
    have hDivisors : (∀ v ∈ (observedReadings g period row).dropLast, v ≠ 0) ↔
        ∀ i, row + 1 ≤ i + period → i < row → g i ≠ some 0 := by
      constructor
      · intro hNonzero i hFirst hi hZero
        apply hNonzero 0 _ rfl
        apply List.mem_of_getElem? (i := i - (row + 1 - period))
        rw [List.getElem?_dropLast, observedReadings, length_windowReadings, if_pos (by omega)]
        simp only [windowReadings, List.getElem?_map]
        rw [List.getElem?_range (by omega)]
        show some ((g _).getD 0) = _
        rw [show row + 1 - period + (i - (row + 1 - period)) = i by omega, hZero]
        rfl
      · intro hNonzero v hv hZero
        obtain ⟨i, hi, rfl⟩ := List.getElem_of_mem hv
        rw [List.length_dropLast, observedReadings, length_windowReadings] at hi
        simp only [observedReadings, windowReadings, List.getElem_dropLast, List.getElem_map,
          List.getElem_range] at hZero
        obtain ⟨v, hValue⟩ := Option.isSome_iff_exists.mp (hValues i (by omega))
        apply hNonzero (row + 1 - period + i) (by omega) (by omega)
        rw [hValue] at hZero ⊢
        rw [← hZero]
        rfl
    rw [transformRow, window_observed hRow ⟨hReached, hValues⟩]
    simp only [List.length_map, observedReadings, length_windowReadings, ne_eq, not_true_eq_false,
      none_notMem_readings, or_self, if_false, filterMap_readings]
    rw [show windowReadings _ period row = observedReadings g period row from rfl]
    constructor
    · rintro ⟨value, hRowValue⟩ -
      obtain ⟨returns, hReturns, -⟩ := except_bind_ok.mp hRowValue
      exact hDivisors.mp ((simpleReturns_ok_iff ctx).mp hReturns).1
    · intro hNonzero
      have hReturns := (simpleReturns_ok_iff ctx).mpr
        ⟨hDivisors.mpr (hNonzero ⟨hReached, hValues⟩), rfl⟩
      rw [hReturns, except_ok_bind]
      split_ifs with hShort
      · exact ⟨_, rfl⟩
      · exact ⟨_, rfl⟩
  · rw [transformRow_incomplete (by decide) (window_gap hRow h)]
    simp [h]

end Rows

section Streams

variable {ctx : DecimalContext} {g : Nat → Option ℚ} {view : DailyView} {cutoff : Nat}
  {symbol : String} {observed : MarketField → PriceBasis → Prop} {bindingId : Option String}
  {node : DailyValueNode} {type : SemanticType}

/-- Where a row takes nothing from the earlier ones, a series is transformed
exactly when each of its rows is. -/
theorem exists_transform_iff {kind : IndicatorKind} {period rows : Nat} (hKind : kind ≠ .ema) :
    (∃ out, transform ctx kind period (tabulate rows g) = .ok out) ↔
      ∀ row < rows, ∃ value,
        transformRow ctx kind period (tabulate rows g) [] row (g row) = .ok value := by
  have hEarlier (earlier : Series) (row : Nat) (current : Option ℚ) :
      transformRow ctx kind period (tabulate rows g) earlier row current =
        transformRow ctx kind period (tabulate rows g) [] row current := by
    cases kind with
    | ema => exact absurd rfl hKind
    | _ => rfl
  constructor
  · rintro ⟨out, h⟩ row hRow
    obtain ⟨hLength, hRows⟩ := transform_eq_ok_iff.mp h
    rw [length_tabulate] at hLength
    have hValue := List.getElem?_eq_getElem (hLength ▸ hRow)
    have hStep := hRows row (g row) _ (getElem?_tabulate hRow) hValue
    rw [hEarlier] at hStep
    exact ⟨_, hStep⟩
  · intro h
    apply exists_transform
    intro earlier last current hCurrent
    obtain ⟨hLast, -⟩ := List.getElem?_eq_some_iff.mp hCurrent
    rw [length_tabulate] at hLast
    rw [getElem?_tabulate hLast, Option.some.injEq] at hCurrent
    rw [hEarlier, ← hCurrent]
    exact h last hLast

/-- Returns are read from any series. -/
theorem exists_transform_trailingReturn {period : Nat} {series : Series} :
    ∃ out, transform ctx .trailingReturn period series = .ok out := by
  apply exists_transform
  intro earlier last current hCurrent
  simp only [transformRow]
  split_ifs
  · exact ⟨none, rfl⟩
  · split
    · exact ⟨_, rfl⟩
    · exact ⟨none, rfl⟩

section Completed

variable (hCompleted : ∀ field basis, observed field basis →
    view.completed symbol field basis = .ok (tabulate (cutoff + 1) g))

include hCompleted

/-- A chain of averages never fails. -/
theorem stream_average (hChain : StreamChain symbol observed node) (hAverage : AverageChain node) :
    stream ctx view symbol node = .ok (tabulate (cutoff + 1) (priceAt ctx g node)) := by
  induction node with
  | observe attrs field basis => exact hCompleted field basis hChain.2.2
  | indicator attrs kind window skip operand ih =>
      rw [stream, ih hChain.2 hAverage.2]
      apply transform_tabulate
      intro row hRow
      rcases hAverage.1 with rfl | rfl
      · exact transformRow_smaAt hRow
      · exact transformRow_emaAt hChain.1.1 hRow
  | absolute attrs operand ih =>
      rw [stream, ih hChain hAverage]
      show Except.ok ((tabulate _ _).map _) = _
      rw [tabulate, List.map_map]
      rfl
  | _ => exact hChain.elim

/-- The stream of a chain exists when no gap and no zero is in the way. -/
theorem exists_stream_iff (hChain : StreamChain symbol observed node)
    (hTyped : inferDailyType bindingId node = .ok type) :
    (∃ series, stream ctx view symbol node = .ok series) ↔ GapsHarmless ctx g cutoff node := by
  induction node generalizing type with
  | observe attrs field basis =>
      rw [stream, hCompleted field basis hChain.2.2]
      simp [GapsHarmless]
  | indicator attrs kind window skip operand ih =>
      obtain ⟨left, hLeft, -, hPrice, -⟩ := operand_type hTyped
      have hOperand := ih hChain.2 hLeft
      have hAverage (hKind : kind ≠ .trailingReturn) : stream ctx view symbol operand =
          .ok (tabulate (cutoff + 1) (priceAt ctx g operand)) :=
        stream_average hCompleted hChain.2 (averageChain_of_price hChain.2 hLeft (hPrice hKind))
      rw [GapsHarmless, ← hOperand, stream]
      cases kind with
      | trailingReturn =>
          constructor
          · rintro ⟨series, h⟩
            obtain ⟨source, hSource, -⟩ := except_bind_ok.mp h
            exact ⟨⟨source, hSource⟩, fun h => (by cases h), fun h => (by cases h)⟩
          · rintro ⟨⟨source, hSource⟩, -⟩
            rw [hSource]
            exact exists_transform_trailingReturn
      | sma =>
          rw [hAverage (by decide), except_ok_bind, exists_transform_iff (by decide)]
          simp only [reduceCtorEq, false_implies, and_true, Except.ok.injEq, exists_eq', iff_true]
          exact fun row hRow => ⟨_, transformRow_smaAt hRow⟩
      | ema =>
          have hTransform : transform ctx .ema window
              (tabulate (cutoff + 1) (priceAt ctx g operand)) =
              .ok (tabulate (cutoff + 1) (emaAt ctx window (priceAt ctx g operand))) :=
            transform_tabulate (fun row hRow => transformRow_emaAt hChain.1.1 hRow)
          rw [hAverage (by decide), except_ok_bind, hTransform]
          simp
      | rsiWilderLeanCompat =>
          rw [hAverage (by decide), except_ok_bind, exists_transform_iff (by decide)]
          simp only [reduceCtorEq, false_implies, and_true, Except.ok.injEq, exists_eq',
            true_and, forall_const]
          constructor
          · intro h last hLast
            exact (exists_transformRow_rsi_iff hChain.1.1 (by omega)).mp (h last (by omega))
          · intro h row hRow
            exact (exists_transformRow_rsi_iff hChain.1.1 hRow).mpr (h row (by omega))
      | realizedVolatility =>
          rw [hAverage (by decide), except_ok_bind, exists_transform_iff (by decide)]
          simp only [reduceCtorEq, false_implies, Except.ok.injEq, exists_eq',
            true_and, forall_const]
          constructor
          · intro h last hLast
            exact (exists_transformRow_volatility_iff (by omega)).mp (h last (by omega))
          · intro h row hRow
            exact (exists_transformRow_volatility_iff hRow).mpr (h row (by omega))
  | absolute attrs operand ih =>
      rw [GapsHarmless, ← ih hChain hTyped, stream]
      exact exists_bind_ok_iff
  | _ => exact hChain.elim

end Completed

end Streams

section Evaluation

variable {ctx : DecimalContext} {view : DailyView} {symbol : String}
  {observed : MarketField → PriceBasis → Prop} {candidate bindingId : Option String}
  {node : DailyValueNode} {type : SemanticType}

/-- A scalar result, with a reason where it has no value. -/
def HasCell (evaluated : Except DailyValueError DailyValueResult) : Prop :=
  ∃ result cell, evaluated = .ok result ∧ result.cells.get? [] = some cell ∧
    (cell.value = none → cell.reason.isSome = true)

theorem evaluateCurrent_hasCell_iff {attrs : NodeAttrs} {missing : String}
    (hKind : attrs.subjectKind = some .asset) (hSymbol : attrs.subjectId = some symbol)
    (hAxes : type.axes = [])
    (hLast : ∀ series, stream ctx view symbol node = .ok series → series ≠ []) :
    HasCell (evaluateCurrent ctx view node attrs missing type candidate) ↔
      ∃ series, stream ctx view symbol node = .ok series := by
  have hSymbols : observedSymbols view attrs candidate = .ok [symbol] := by
    simp [observedSymbols, hKind, hSymbol]
  rw [evaluateCurrent, hSymbols]
  show HasCell (currentCells ctx view node missing [symbol] >>= _) ↔ _
  cases hStream : stream ctx view symbol node with
  | error e =>
      have hCells : currentCells ctx view node missing [symbol] = .error e := by
        rw [currentCells, List.foldlM_cons, hStream]
        rfl
      rw [hCells]
      constructor
      · rintro ⟨_, _, hResult, -⟩
        cases hResult
      · rintro ⟨_, hSeries⟩
        cases hSeries
  | ok series =>
      obtain ⟨value, hValue⟩ : ∃ value, series.getLast? = some value :=
        ⟨_, List.getLast?_eq_some_getLast (hLast series hStream)⟩
      obtain ⟨cell, hCell, hReason⟩ : ∃ cell : DailyCell, currentCells ctx view node missing
          [symbol] = .ok (Dict.empty.set [.member symbol] cell) ∧
          (cell.value = none → cell.reason.isSome = true) := by
        simp only [currentCells, List.foldlM_cons, hStream, except_ok_bind, hValue]
        refine ⟨_, rfl, fun hNone => ?_⟩
        rw [show value = none from hNone]
        rfl
      rw [hCell]
      show HasCell (if type.axes = [] then _ else _) ↔ _
      rw [if_pos hAxes]
      exact ⟨fun _ => ⟨series, rfl⟩, fun _ => ⟨_, cell, rfl, Dict.get?_set_self .., hReason⟩⟩

theorem evaluate_hasCell_iff (hChain : StreamChain symbol observed node)
    (hTyped : inferDailyType bindingId node = .ok type)
    (hLast : ∀ node, StreamChain symbol observed node →
      ∀ series, stream ctx view symbol node = .ok series → series ≠ []) :
    HasCell (evaluate ctx view candidate bindingId node) ↔
      ∃ series, stream ctx view symbol node = .ok series := by
  induction node generalizing type with
  | observe attrs field basis =>
      rw [evaluate, typed_eq hTyped]
      exact evaluateCurrent_hasCell_iff hChain.1 hChain.2.1 (chain_axes hChain hTyped)
        (hLast _ hChain)
  | indicator attrs kind window skip operand ih =>
      obtain ⟨source, hSource, hKind, hSymbol⟩ := sourceObserve_chain hChain
      rw [evaluate, typed_eq hTyped]
      simp only [hSource]
      exact evaluateCurrent_hasCell_iff hKind hSymbol (chain_axes hChain hTyped) (hLast _ hChain)
  | absolute attrs operand ih =>
      rw [stream, exists_bind_ok_iff, ← ih hChain hTyped, evaluate, typed_eq hTyped]
      simp only [except_ok_bind]
      constructor
      · rintro ⟨result, cell, hResult, hCell, hReason⟩
        obtain ⟨source, hSource, hMapped⟩ := except_bind_ok.mp hResult
        cases hMapped
        rw [Dict.get?_mapValues, Option.map_eq_some_iff] at hCell
        obtain ⟨inner, hInner, rfl⟩ := hCell
        exact ⟨source, inner, hSource, hInner, fun hNone => hReason (by simpa using hNone)⟩
      · rintro ⟨source, cell, hSource, hCell, hReason⟩
        rw [hSource]
        refine ⟨_, { cell with value := cell.value.map ctx.abs }, rfl, ?_, fun hNone => ?_⟩
        · rw [Dict.get?_mapValues, hCell]
          rfl
        · exact hReason (by simpa using hNone)
  | _ => exact hChain.elim

/-- A stream over one asset has a cell at a cutoff exactly when the gaps up to it
are harmless. -/
theorem evaluation_hasCell_iff {snapshot : DailyMarketSnapshot} {series : Series} {cutoff : Nat}
    (hChain : StreamChain symbol
      (fun field basis => snapshot.fieldValues symbol field basis = .ok series) node)
    (hTyped : inferDailyType bindingId node = .ok type) (hCutoff : cutoff < snapshot.dates.length) :
    HasCell (evaluate ctx (snapshot.view cutoff) candidate bindingId node) ↔
      GapsHarmless ctx (fun row => (series[row]?).join) cutoff node := by
  have hCompleted : ∀ field basis, snapshot.fieldValues symbol field basis = .ok series →
      (snapshot.view cutoff).completed symbol field basis =
        .ok (tabulate (cutoff + 1) (fun row => (series[row]?).join)) := by
    intro field basis hField
    have hLength := length_fieldValues hField
    simp only [DailyMarketSnapshot.view, hField, except_ok_bind]
    congr 1
    apply List.ext_getElem
    · simp
      omega
    · intro row hRow hRow'
      rw [length_tabulate] at hRow'
      have hInside : row < series.length := by omega
      simp [tabulate, hInside]
  rw [evaluate_hasCell_iff hChain hTyped, exists_stream_iff hCompleted hChain hTyped]
  intro chain hStreamChain out hOut hEmpty
  have hLength := DailyMarketSnapshot.length_completed hCutoff hOut
  rw [hEmpty] at hLength
  cases hLength

def strengthOfClose : DailyValueNode :=
  .indicator { semanticId := "rsi" } .rsiWilderLeanCompat 1 0 (closeOf "SPY")

/-- The first of two sessions has no close. -/
def listedLater : DailyMarketSnapshot :=
  .single "SPY" (⟨2024, 1, 2⟩, none) [(⟨2024, 1, 3⟩, some 1)]

theorem strengthOfClose_chain : StreamChain "SPY"
    (fun field basis => listedLater.fieldValues "SPY" field basis = .ok [none, some 1])
    strengthOfClose :=
  ⟨by decide, rfl, rfl, rfl⟩

/-- At the first session the window reaches before the series. -/
theorem evaluation_hasCell_iff_first :
    HasCell (evaluate (.exact id) (listedLater.view 0) none none strengthOfClose) ↔
      GapsHarmless (.exact id) (fun row => (([none, some 1] : Series)[row]?).join) 0
        strengthOfClose :=
  evaluation_hasCell_iff strengthOfClose_chain rfl (by decide)

/-- At the second its window is observed, and the change into it is not. -/
theorem missing_close_raises :
    ¬∀ (ctx : DecimalContext) (snapshot : DailyMarketSnapshot) (symbol : String)
      (series : Series) (node : DailyValueNode) (type : SemanticType) (cutoff : Nat),
      StreamChain symbol
        (fun field basis => snapshot.fieldValues symbol field basis = .ok series) node →
      inferDailyType none node = .ok type → cutoff < snapshot.dates.length →
      HasCell (evaluate ctx (snapshot.view cutoff) none none node) := by
  intro h
  have hCell := h (.exact id) listedLater "SPY" [none, some 1] strengthOfClose _ 1
    strengthOfClose_chain rfl (by decide)
  rw [evaluation_hasCell_iff strengthOfClose_chain rfl (by decide)] at hCell
  have hFirst := hCell.2.1 rfl 1 le_rfl le_rfl (by decide) 0 (by decide)
  cases hFirst

end Evaluation

end RuleTrade
