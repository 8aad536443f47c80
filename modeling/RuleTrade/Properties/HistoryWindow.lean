import RuleTrade.Properties.Readiness

/-! Histories and their reductions over time. The window of a history is cut off at
the first session, and so is the count its coverage is measured against. -/

namespace RuleTrade

open Library

section Reduction

variable {ctx : DecimalContext} {view : DailyView}

/-- What a reduction makes of the cells along the removed axis. -/
def reducedCell (ctx : DecimalContext) (reduction : ReductionOperation)
    (missingPolicy : MissingPolicy) (minimumCount : Nat) (minimumFraction : ℚ)
    (cells : List DailyCell) : DailyCell :=
  let values := cells.filterMap DailyCell.value
  if (values.length : Int) < max (minimumCount : Int) ⌈ctx.mul cells.length minimumFraction⌉ ∨
      (values.length ≠ cells.length ∧ missingPolicy = .requireAll) then
    { value := none, reason := some "insufficient_coverage" }
  else reduceValues ctx reduction values

/-- A source that has all its cells is reduced coordinate by coordinate. -/
theorem evaluateReduce_of_cells {axis : AxisName} {reduction : ReductionOperation}
    {missingPolicy : MissingPolicy} {minimumCount : Nat} {minimumFraction : ℚ}
    {inferred : SemanticType} {source : DailyValueResult} {removed : Axis} {index : Nat}
    {outer : List (List AxisKey)} {inner : List AxisKey}
    (cellAt : List AxisKey → AxisKey → DailyCell)
    (hIndex : source.axes.findIdx (fun a => a.name = axis) = index)
    (hRemoved : source.axes[index]? = some removed)
    (hOuter : coordinates view (source.axes.filter (fun a => a.name ≠ axis)) = .ok outer)
    (hInner : axisKeys view removed = .ok inner)
    (hCells : ∀ coordinate ∈ outer, ∀ key ∈ inner,
      source.cells.get? (coordinate.insertIdx index key) = some (cellAt coordinate key)) :
    evaluateReduce ctx view axis reduction missingPolicy minimumCount minimumFraction inferred
        source =
      .ok ⟨inferred, source.axes.filter (fun a => a.name ≠ axis),
        Dict.ofList (outer.map (fun coordinate => (coordinate, reducedCell ctx reduction
          missingPolicy minimumCount minimumFraction (inner.map (cellAt coordinate))))),
        source.observedAt⟩ := by
  rw [evaluateReduce, hIndex]
  simp only [hRemoved, hOuter, hInner, except_ok_bind]
  apply except_bind_ok.mpr
  refine ⟨outer.foldl (fun d coordinate => d.set coordinate (reducedCell ctx reduction missingPolicy
    minimumCount minimumFraction (inner.map (cellAt coordinate)))) Dict.empty, ?_, ?_⟩
  · apply Sequence.foldlM_of_forall₂
    rw [List.forall₂_same]
    intro coordinate hCoordinate results
    apply except_bind_ok.mpr
    refine ⟨inner.map (cellAt coordinate), ?_, ?_⟩
    · apply Sequence.mapM_of_forall₂
      rw [List.forall₂_map_right_iff, List.forall₂_same]
      intro key hKey
      rw [hCells coordinate hCoordinate key hKey]
    · rw [reducedCell]
      simp only [List.length_map]
      split_ifs
      · rfl
      · rfl
  · rw [Dict.ofList, List.foldl_map]

/-- A reduction that requires all has a value when no cell is missing and they are
as many as it asks for. -/
theorem reducedCell_isSome {reduction : ReductionOperation} {minimumCount : Nat}
    {minimumFraction : ℚ} {cells : List DailyCell} :
    (reducedCell ctx reduction .requireAll minimumCount minimumFraction cells).value.isSome =
        true ↔
      (∀ cell ∈ cells, cell.value.isSome = true) ∧
      max (minimumCount : Int) ⌈ctx.mul cells.length minimumFraction⌉ ≤ cells.length ∧
      (reduction = .std → 2 ≤ cells.length) := by
  have hAll : (cells.filterMap DailyCell.value).length = cells.length ↔
      ∀ cell ∈ cells, cell.value.isSome = true := List.filterMap_length_eq_length
  rw [reducedCell]
  by_cases hComplete : (cells.filterMap DailyCell.value).length = cells.length
  · rw [and_iff_right (hAll.mp hComplete)]
    simp only [hComplete, ne_eq, not_true_eq_false, false_and, or_false]
    by_cases hCoverage : (cells.length : Int) <
        max (minimumCount : Int) ⌈ctx.mul cells.length minimumFraction⌉
    · rw [if_pos hCoverage]
      simp only [Option.isSome_none, Bool.false_eq_true, false_iff, not_and]
      intro hEnough
      omega
    · rw [if_neg hCoverage]
      have hEnough := Int.not_lt.mp hCoverage
      cases reduction with
      | std =>
          simp only [reduceValues, hComplete, hEnough, true_and, forall_const]
          split_ifs with hShort
          · simp [Nat.not_le.mpr hShort]
          · simp [Nat.le_of_not_lt hShort]
      | _ => simp [reduceValues, hEnough]
  · have hGap := mt hAll.mpr hComplete
    simp [hComplete, hGap]

end Reduction

section Requirement

variable {ctx : DecimalContext} {snapshot : DailyMarketSnapshot} {cutoff observations skip : Nat}
  {attrs reduceAttrs historyAttrs : NodeAttrs} {source : DailyValueNode}
  {reduction : ReductionOperation} {minimumCount : Nat} {minimumFraction : ℚ}
  {candidate bindingId : Option String} {type : SemanticType}

/-- All rows of the requested window exist and have values. -/
def WholeWindow (values : Series) (cutoff observations skip : Nat) : Prop :=
  observations + skip ≤ cutoff + 1 ∧
    ∀ i < observations, ((values[windowStart cutoff observations skip + i]?).join).isSome = true

/-- The rows that are left of the window have values and are enough for the
coverage, which is a fraction of the rows that are left. -/
def CoversCutWindow (ctx : DecimalContext) (reduction : ReductionOperation) (minimumCount : Nat)
    (minimumFraction : ℚ) (rows : Nat) (values : Series) (cutoff observations skip : Nat) : Prop :=
  let left := windowLength rows cutoff observations skip
  (∀ i < left, ((values[windowStart cutoff observations skip + i]?).join).isSome = true) ∧
    max (minimumCount : Int) ⌈ctx.mul left minimumFraction⌉ ≤ left ∧
    (reduction = .std → 2 ≤ left)

/-- Cells of one symbol along the window. -/
def windowCells (dates : List CalendarDate) (start : Nat) (values : Series) : List DailyCell :=
  (Sequence.enumerate dates).map (fun row => historyCell values (start + row.1))

theorem windowCells_isSome {dates : List CalendarDate} {start : Nat} {values : Series} :
    (∀ cell ∈ windowCells dates start values, cell.value.isSome = true) ↔
      ∀ i < dates.length, ((values[start + i]?).join).isSome = true := by
  constructor
  · intro h i hi
    exact h (historyCell values (start + i)) (List.mem_map.mpr
      ⟨(i, dates[i]), mem_enumerate.mpr (List.getElem?_eq_getElem hi), rfl⟩)
  · intro h cell hCell
    obtain ⟨row, hRow, rfl⟩ := List.mem_map.mp hCell
    obtain ⟨hIndex, -⟩ := List.getElem?_eq_some_iff.mp (mem_enumerate.mp hRow)
    exact h row.1 hIndex

theorem length_windowCells {dates : List CalendarDate} {start : Nat} {values : Series} :
    (windowCells dates start values).length = dates.length := by
  simp [windowCells, Sequence.enumerate]

/-- What a reduction over time makes of the histories of the symbols. -/
def reducedHistory (ctx : DecimalContext) (view : DailyView) (attrs : NodeAttrs)
    (reduction : ReductionOperation) (minimumCount : Nat) (minimumFraction : ℚ)
    (source : DailyValueNode) (start : Nat) (dates : List CalendarDate) (symbols : List String) :
    Dict (List AxisKey) DailyCell :=
  Dict.ofList (symbols.map (fun symbol => (symbolCoordinate attrs symbol,
    reducedCell ctx reduction .requireAll minimumCount minimumFraction
      (windowCells dates start (streamValues ctx view source symbol)))))

/-- The axis of the window stands after that of the subject. -/
theorem historyAxes_time (attrs : NodeAttrs) (observations skip : Nat) :
    (subjectAxes attrs ++ [Axis.time observations skip]).filter (fun a => a.name ≠ .time) =
        subjectAxes attrs ∧
      (subjectAxes attrs ++ [Axis.time observations skip]).findIdx (fun a => a.name = .time) =
        (subjectAxes attrs).length ∧
      (subjectAxes attrs ++ [Axis.time observations skip])[(subjectAxes attrs).length]? =
        some (.time observations skip) := by
  rw [subjectAxes]
  split_ifs
  · exact ⟨rfl, rfl, rfl⟩
  · exact ⟨rfl, rfl, rfl⟩

theorem insertIdx_symbolCoordinate (attrs : NodeAttrs) (symbol : String) (date : CalendarDate) :
    (symbolCoordinate attrs symbol).insertIdx (subjectAxes attrs).length (.session date) =
      historyCoordinate attrs symbol date := by
  rw [symbolCoordinate, subjectAxes, historyCoordinate]
  split_ifs
  · rfl
  · rfl

theorem evaluateReduce_historyCells {view : DailyView} {symbols : List String} {start : Nat}
    {dates : List CalendarDate} {sourceType : SemanticType}
    (hSubject : attrs.subjectKind.isSome = true)
    (hSymbols : observedSymbols view attrs candidate = .ok symbols) (hNodup : dates.Nodup)
    (hInner : axisKeys view (.time observations skip) = .ok (dates.map .session)) :
    evaluateReduce ctx view .time reduction .requireAll minimumCount minimumFraction type
        ⟨sourceType, subjectAxes attrs ++ [.time observations skip],
          historyCells ctx view attrs source start dates symbols, dates⟩ =
      .ok ⟨type, subjectAxes attrs, reducedHistory ctx view attrs reduction minimumCount
        minimumFraction source start dates symbols, dates⟩ := by
  obtain ⟨hRetained, hIndex, hRemoved⟩ := historyAxes_time attrs observations skip
  have hCell (symbol : String) (hSymbol : symbol ∈ symbols) (row : Nat × CalendarDate)
      (hRow : row ∈ Sequence.enumerate dates) :
      (historyCells ctx view attrs source start dates symbols).get?
        ((symbolCoordinate attrs symbol).insertIdx (subjectAxes attrs).length (.session row.2)) =
      some (historyCell (streamValues ctx view source symbol) (start + row.1)) := by
    rw [insertIdx_symbolCoordinate]
    exact get?_historyCells (separated_of_observed hSubject hSymbols) hNodup hSymbol hRow
  have hKeys : dates.map AxisKey.session =
      (Sequence.enumerate dates).map (fun row => AxisKey.session row.2) := by
    have hDates : dates = (Sequence.enumerate dates).map Prod.snd := by
      rw [Sequence.enumerate, List.map_snd_zip (by simp)]
    conv_lhs => rw [hDates, List.map_map]
    rfl
  rw [evaluateReduce_of_cells (fun coordinate key =>
      ((historyCells ctx view attrs source start dates symbols).get?
        (coordinate.insertIdx (subjectAxes attrs).length key)).getD { value := none })
    hIndex hRemoved (hRetained.symm ▸ coordinates_subjectAxes hSubject hSymbols) hInner]
  · have hPairs : (symbols.map (symbolCoordinate attrs)).map (fun coordinate =>
        (coordinate, reducedCell ctx reduction .requireAll minimumCount minimumFraction
          ((dates.map AxisKey.session).map (fun key =>
            ((historyCells ctx view attrs source start dates symbols).get?
              (coordinate.insertIdx (subjectAxes attrs).length key)).getD { value := none })))) =
        symbols.map (fun symbol => (symbolCoordinate attrs symbol,
          reducedCell ctx reduction .requireAll minimumCount minimumFraction
            (windowCells dates start (streamValues ctx view source symbol)))) := by
      rw [List.map_map]
      apply List.map_congr_left
      intro symbol hSymbol
      have hWindow : (dates.map AxisKey.session).map (fun key =>
          ((historyCells ctx view attrs source start dates symbols).get?
            ((symbolCoordinate attrs symbol).insertIdx (subjectAxes attrs).length key)).getD
              { value := none }) =
          windowCells dates start (streamValues ctx view source symbol) := by
        rw [hKeys, List.map_map, windowCells]
        apply List.map_congr_left
        intro row hRow
        show Option.getD (Dict.get? _ _) _ = _
        rw [hCell symbol hSymbol row hRow, Option.getD_some]
      show (_, _) = (_, _)
      rw [hWindow]
    rw [hPairs, hRetained, reducedHistory]
  · intro coordinate hCoordinate key hKey
    obtain ⟨symbol, hSymbol, rfl⟩ := List.mem_map.mp hCoordinate
    rw [hKeys] at hKey
    obtain ⟨row, hRow, rfl⟩ := List.mem_map.mp hKey
    show Dict.get? _ _ = some (Option.getD (Dict.get? _ _) _)
    rw [hCell symbol hSymbol row hRow, Option.getD_some]

/-- A reduction of a history over time lists one cell for each symbol. -/
theorem evaluate_reduce_history
    (hTyped : inferDailyType bindingId (.reduce reduceAttrs .time reduction .requireAll minimumCount
      minimumFraction (.history historyAttrs observations skip source)) = .ok type)
    (hSource : sourceObserve source = .ok attrs) (hSubject : attrs.subjectKind.isSome = true)
    (hDates : snapshot.dates.Nodup) (hCutoff : cutoff < snapshot.dates.length)
    {dates : List CalendarDate} (hWindow : dates = windowDates snapshot.dates cutoff observations skip)
    {result : DailyValueResult} :
    evaluate ctx (snapshot.view cutoff) candidate bindingId (.reduce reduceAttrs .time reduction
        .requireAll minimumCount minimumFraction (.history historyAttrs observations skip source)) =
      .ok result ↔
    ∃ symbols, observedSymbols (snapshot.view cutoff) attrs candidate = .ok symbols ∧
      (∀ symbol ∈ symbols, ∃ values,
        stream ctx (snapshot.view cutoff) symbol source = .ok values ∧
        ∀ row ∈ Sequence.enumerate dates,
          windowStart cutoff observations skip + row.1 < values.length) ∧
      result = ⟨type, subjectAxes attrs, reducedHistory ctx (snapshot.view cutoff) attrs reduction
        minimumCount minimumFraction source (windowStart cutoff observations skip) dates symbols,
        dates⟩ := by
  obtain ⟨historyType, hHistory, -⟩ := except_bind_ok.mp hTyped
  obtain ⟨sourceType, hSourceType, hAxes⟩ := except_bind_ok.mp hHistory
  obtain rfl := Except.ok.inj hAxes
  have hNodup : dates.Nodup := by
    rw [hWindow, windowDates]
    exact (hDates.sublist (List.drop_sublist _ _)).sublist (List.take_sublist _ _)
  have hInner : axisKeys (snapshot.view cutoff) (.time observations skip) =
      .ok (dates.map .session) := by
    rw [axisKeys, hWindow]
    exact congrArg (fun dates => Except.ok (List.map AxisKey.session dates)) (slice_window hCutoff)
  rw [evaluate, typed_eq hTyped, except_ok_bind, evaluate, typed_eq hHistory, except_ok_bind,
    except_bind_ok]
  constructor
  · rintro ⟨history, hRead, hReduced⟩
    cases hSymbols : observedSymbols (snapshot.view cutoff) attrs candidate with
    | error e =>
        rw [evaluateHistory, hSource, except_ok_bind] at hRead
        simp only [hSymbols] at hRead
        cases hRead
    | ok symbols =>
        obtain ⟨hStreams, rfl⟩ :=
          (evaluateHistory_ok_iff hSource hSymbols hCutoff hWindow rfl).mp hRead
        refine ⟨symbols, rfl, hStreams, ?_⟩
        rw [axes_of_sourceObserve hSourceType hSource,
          evaluateReduce_historyCells hSubject hSymbols hNodup hInner] at hReduced
        exact (Except.ok.inj hReduced).symm
  · rintro ⟨symbols, hSymbols, hStreams, rfl⟩
    refine ⟨_, (evaluateHistory_ok_iff hSource hSymbols hCutoff hWindow rfl).mpr
      ⟨hStreams, rfl⟩, ?_⟩
    rw [axes_of_sourceObserve hSourceType hSource]
    exact evaluateReduce_historyCells hSubject hSymbols hNodup hInner

/-- The rows of a whole window are all there is of it. -/
theorem windowLength_of_reached {rows : Nat} (h : observations + skip ≤ cutoff + 1) :
    windowLength rows cutoff observations skip = observations := by
  rw [windowLength, if_pos (by omega)]
  omega

/-- An available cell of a reduction that requires all stands for a whole window
exactly when the window is not cut off, or what is left of it is not enough. -/
theorem require_all_whole_iff
    (hTyped : inferDailyType bindingId (.reduce reduceAttrs .time reduction .requireAll minimumCount
      minimumFraction (.history historyAttrs observations skip source)) = .ok type)
    (hSource : sourceObserve source = .ok attrs) (hSubject : attrs.subjectKind.isSome = true)
    (hDates : snapshot.dates.Nodup) (hCutoff : cutoff < snapshot.dates.length) :
    (∀ result, evaluate ctx (snapshot.view cutoff) candidate bindingId (.reduce reduceAttrs .time
        reduction .requireAll minimumCount minimumFraction
        (.history historyAttrs observations skip source)) = .ok result →
      ∀ coordinate cell, result.cells.get? coordinate = some cell → cell.value.isSome = true →
      ∃ symbols, observedSymbols (snapshot.view cutoff) attrs candidate = .ok symbols ∧
        ∃ symbol ∈ symbols, coordinate = symbolCoordinate attrs symbol ∧
        ∃ values, stream ctx (snapshot.view cutoff) symbol source = .ok values ∧
          WholeWindow values cutoff observations skip) ↔
    observations + skip ≤ cutoff + 1 ∨
      ∀ symbols, observedSymbols (snapshot.view cutoff) attrs candidate = .ok symbols →
        (∀ symbol ∈ symbols, ∃ values,
          stream ctx (snapshot.view cutoff) symbol source = .ok values) →
        ∀ symbol ∈ symbols, ∀ values,
          stream ctx (snapshot.view cutoff) symbol source = .ok values →
          ¬CoversCutWindow ctx reduction minimumCount minimumFraction snapshot.dates.length values
            cutoff observations skip := by
  have hLength : (windowDates snapshot.dates cutoff observations skip).length =
      windowLength snapshot.dates.length cutoff observations skip := length_windowDates hCutoff
  -- a reduced cell has a value when its cut window covers
  have hCell (values : Series) : (reducedCell ctx reduction .requireAll minimumCount minimumFraction
      (windowCells (windowDates snapshot.dates cutoff observations skip)
        (windowStart cutoff observations skip) values)).value.isSome = true ↔
      CoversCutWindow ctx reduction minimumCount minimumFraction snapshot.dates.length values cutoff
        observations skip := by
    rw [reducedCell_isSome, windowCells_isSome, length_windowCells, hLength, CoversCutWindow]
  constructor
  · intro h
    by_contra hCondition
    push Not at hCondition
    obtain ⟨hCut, symbols, hSymbols, hStreams, symbol, hSymbol, values, hValues, hCovers⟩ :=
      hCondition
    have hValuesLength := DailyMarketSnapshot.length_completed hCutoff hValues
    have hRead : ∀ s ∈ symbols, ∃ own,
        stream ctx (snapshot.view cutoff) s source = .ok own ∧
        ∀ row ∈ Sequence.enumerate (windowDates snapshot.dates cutoff observations skip),
          windowStart cutoff observations skip + row.1 < own.length := by
      intro s hs
      obtain ⟨own, hOwn⟩ := hStreams s hs
      refine ⟨own, hOwn, fun row hRow => ?_⟩
      obtain ⟨hIndex, -⟩ := List.getElem?_eq_some_iff.mp (mem_enumerate.mp hRow)
      have hPresent := hCovers.1 row.1 (by omega)
      have hInside : windowStart cutoff observations skip + row.1 < values.length := by
        by_contra hBeyond
        rw [List.getElem?_eq_none (Nat.le_of_not_lt hBeyond)] at hPresent
        cases hPresent
      rw [DailyMarketSnapshot.length_completed hCutoff hOwn]
      omega
    have hResult := (evaluate_reduce_history hTyped hSource hSubject hDates hCutoff rfl).mpr
      ⟨symbols, hSymbols, hRead, rfl⟩
    have hFound : (reducedHistory ctx (snapshot.view cutoff) attrs reduction minimumCount
        minimumFraction source (windowStart cutoff observations skip)
        (windowDates snapshot.dates cutoff observations skip) symbols).get?
          (symbolCoordinate attrs symbol) =
        some (reducedCell ctx reduction .requireAll minimumCount minimumFraction
          (windowCells (windowDates snapshot.dates cutoff observations skip)
            (windowStart cutoff observations skip) values)) := by
      apply Dict.get?_ofList_of_alike
      · rw [← streamValues_of_stream hValues]
        exact List.mem_map.mpr ⟨symbol, hSymbol, rfl⟩
      · intro other hOther
        obtain ⟨s, hs, hPair⟩ := List.mem_map.mp hOther
        rw [Prod.mk.injEq] at hPair
        obtain rfl := eq_of_symbolCoordinate (separated_of_observed hSubject hSymbols) hs hSymbol
          hPair.1
        rw [← hPair.2, streamValues_of_stream hValues]
    obtain ⟨_, _, _, _, _, _, _, hWhole, -⟩ := h _ hResult _ _ hFound ((hCell values).mpr hCovers)
    exact absurd hWhole (Nat.not_le.mpr hCut)
  · intro hCondition result hResult coordinate cell hFound hValue
    obtain ⟨symbols, hSymbols, hStreams, rfl⟩ :=
      (evaluate_reduce_history hTyped hSource hSubject hDates hCutoff rfl).mp hResult
    obtain ⟨symbol, hSymbol, hPair⟩ := List.mem_map.mp (Dict.mem_of_get?_ofList hFound)
    rw [Prod.mk.injEq] at hPair
    obtain ⟨rfl, rfl⟩ := hPair
    obtain ⟨values, hValues, -⟩ := hStreams symbol hSymbol
    rw [streamValues_of_stream hValues, hCell] at hValue
    refine ⟨symbols, hSymbols, symbol, hSymbol, rfl, values, hValues, ?_⟩
    rcases hCondition with hReached | hShort
    · refine ⟨hReached, fun i hi => hValue.1 i ?_⟩
      rw [windowLength_of_reached hReached]
      exact hi
    · refine absurd hValue (hShort symbols hSymbols (fun s hs => ?_) symbol hSymbol values hValues)
      obtain ⟨own, hOwn, -⟩ := hStreams s hs
      exact ⟨own, hOwn⟩

def meanOfThree : DailyValueNode :=
  .reduce { semanticId := "mean" } .time .mean .requireAll 1 1
    (.history { semanticId := "history" } 3 0 (closeOf "SPY"))

theorem fourCloses_nodup : fourCloses.dates.Nodup := by decide

/-- At the third session the window of three is whole. -/
theorem require_all_whole_third :
    3 + 0 ≤ 2 + 1 ∧ ∀ result, evaluate (.exact id) (fourCloses.view 2) none none meanOfThree = .ok result →
      ∀ coordinate cell, result.cells.get? coordinate = some cell → cell.value.isSome = true →
      ∃ symbols, observedSymbols (fourCloses.view 2) (closeOf "SPY").attrs none = .ok symbols ∧
        ∃ symbol ∈ symbols, coordinate = symbolCoordinate (closeOf "SPY").attrs symbol ∧
        ∃ values, stream (.exact id) (fourCloses.view 2) symbol (closeOf "SPY") = .ok values ∧
          WholeWindow values 2 3 0 :=
  ⟨le_rfl, (require_all_whole_iff rfl rfl rfl fourCloses_nodup (by decide)).mpr (Or.inl le_rfl)⟩

theorem firstClose_covers :
    CoversCutWindow (.exact id) .mean 1 1 fourCloses.dates.length [some 1] 0 3 0 :=
  ⟨by decide, by decide +kernel, fun h => by cases h⟩

/-- At the first session the mean of three closes is the first close. -/
theorem cut_window_available :
    ¬∀ (ctx : DecimalContext) (snapshot : DailyMarketSnapshot) (cutoff observations skip : Nat)
      (source : DailyValueNode) (attrs reduceAttrs historyAttrs : NodeAttrs)
      (reduction : ReductionOperation) (minimumCount : Nat) (minimumFraction : ℚ)
      (type : SemanticType),
      inferDailyType none (.reduce reduceAttrs .time reduction .requireAll minimumCount
        minimumFraction (.history historyAttrs observations skip source)) = .ok type →
      sourceObserve source = .ok attrs → attrs.subjectKind.isSome = true →
      snapshot.dates.Nodup → cutoff < snapshot.dates.length →
      ∀ result, evaluate ctx (snapshot.view cutoff) none none (.reduce reduceAttrs .time reduction
          .requireAll minimumCount minimumFraction
          (.history historyAttrs observations skip source)) = .ok result →
        ∀ coordinate cell, result.cells.get? coordinate = some cell → cell.value.isSome = true →
        ∃ symbols, observedSymbols (snapshot.view cutoff) attrs none = .ok symbols ∧
          ∃ symbol ∈ symbols, coordinate = symbolCoordinate attrs symbol ∧
          ∃ values, stream ctx (snapshot.view cutoff) symbol source = .ok values ∧
            WholeWindow values cutoff observations skip := by
  intro h
  have hWhole := h (.exact id) fourCloses 0 3 0 (closeOf "SPY") _ { semanticId := "mean" }
    { semanticId := "history" } .mean 1 1 _ rfl rfl rfl fourCloses_nodup (by decide)
  rw [require_all_whole_iff rfl rfl rfl fourCloses_nodup (by decide)] at hWhole
  rcases hWhole with hReached | hShort
  · exact absurd hReached (by decide)
  · refine hShort ["SPY"] rfl (fun symbol hSymbol => ?_) "SPY" List.mem_cons_self [some 1] rfl
      firstClose_covers
    rw [List.mem_singleton.mp hSymbol]
    exact ⟨_, rfl⟩

end Requirement

end RuleTrade
