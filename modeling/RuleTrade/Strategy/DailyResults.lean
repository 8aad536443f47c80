import RuleTrade.Strategy.DailySoundness
import RuleTrade.Strategy.DailyTransform

/-! Results of the evaluator: their types, their axes and the coordinates of their
cells. A history reads a window of rows, cut off at the first session. -/

namespace RuleTrade

open Library

section Types

variable {ctx : DecimalContext} {view : DailyView} {candidate bindingId : Option String}

theorem evaluateCurrent_axes {node : DailyValueNode} {attrs : NodeAttrs} {missing : String}
    {inferred : SemanticType} {result : DailyValueResult}
    (h : evaluateCurrent ctx view node attrs missing inferred candidate = .ok result) :
    result.axes = inferred.axes := by
  obtain ⟨symbols, -, h⟩ := except_bind_ok.mp h
  obtain ⟨cells, -, h⟩ := except_bind_ok.mp h
  split_ifs at h
  · split at h <;> cases h
    rfl
  · cases h
    rfl

/-- A result ranges over the axes of the node's type. -/
theorem evaluate_axes {node : DailyValueNode} {type : SemanticType} {result : DailyValueResult}
    (hType : inferDailyType bindingId node = .ok type)
    (h : evaluate ctx view candidate bindingId node = .ok result) : result.axes = type.axes := by
  induction node generalizing type result with
  | literal attrs value quantity unit refinement =>
      rw [evaluate, typed_eq hType, except_ok_bind] at h
      cases hType
      cases h
      rfl
  | observe attrs field basis =>
      rw [evaluate, typed_eq hType, except_ok_bind] at h
      exact evaluateCurrent_axes h
  | indicator attrs kind n k x ih =>
      rw [evaluate, typed_eq hType, except_ok_bind] at h
      obtain ⟨source, -, h⟩ := except_bind_ok.mp h
      exact evaluateCurrent_axes h
  | current attrs x ih =>
      rw [evaluate, typed_eq hType, except_ok_bind] at h
      exact ih hType h
  | absolute attrs x ih =>
      rw [evaluate, typed_eq hType, except_ok_bind] at h
      obtain ⟨source, hSource, h⟩ := except_bind_ok.mp h
      cases h
      exact (ih hType hSource : source.axes = type.axes)
  | history attrs n k x ih =>
      rw [evaluate, typed_eq hType, except_ok_bind] at h
      obtain ⟨source, -, h⟩ := except_bind_ok.mp h
      obtain ⟨symbols, -, h⟩ := except_bind_ok.mp h
      obtain ⟨cells, -, h⟩ := except_bind_ok.mp h
      cases h
      rfl
  | reduce attrs axis reduction policy count fraction x ih =>
      rw [evaluate, typed_eq hType, except_ok_bind] at h
      obtain ⟨left, hLeft, hReduced⟩ := except_bind_ok.mp hType
      simp only at hReduced
      split_ifs at hReduced
      cases hReduced
      obtain ⟨source, hSource, h⟩ := except_bind_ok.mp h
      unfold evaluateReduce at h
      simp only at h
      split at h
      · cases h
      · obtain ⟨outer, -, h⟩ := except_bind_ok.mp h
        obtain ⟨inner, -, h⟩ := except_bind_ok.mp h
        obtain ⟨results, -, h⟩ := except_bind_ok.mp h
        cases h
        show source.axes.filter _ = left.axes.filter _
        rw [ih hLeft hSource]
  | arithmetic attrs operator l r ihLeft ihRight =>
      rw [evaluate, typed_eq hType, except_ok_bind] at h
      obtain ⟨left, -, h⟩ := except_bind_ok.mp h
      obtain ⟨right, -, h⟩ := except_bind_ok.mp h
      obtain ⟨outer, -, h⟩ := except_bind_ok.mp h
      obtain ⟨results, -, h⟩ := except_bind_ok.mp h
      cases h
      rfl

theorem evaluateCurrent_semanticType {node : DailyValueNode} {attrs : NodeAttrs} {missing : String}
    {inferred : SemanticType} {result : DailyValueResult}
    (h : evaluateCurrent ctx view node attrs missing inferred candidate = .ok result) :
    result.semanticType = inferred := by
  obtain ⟨symbols, -, h⟩ := except_bind_ok.mp h
  obtain ⟨cells, -, h⟩ := except_bind_ok.mp h
  split_ifs at h
  · split at h <;> cases h
    rfl
  · cases h
    rfl

/-- A result carries the type of its node. -/
theorem evaluate_semanticType {node : DailyValueNode} {result : DailyValueResult}
    (h : evaluate ctx view candidate bindingId node = .ok result) :
    inferDailyType bindingId node = .ok result.semanticType := by
  induction node generalizing result with
  | current attrs x ih =>
      obtain ⟨inferred, -, hOperand⟩ := except_bind_ok.mp h
      exact ih hOperand
  | literal attrs value quantity unit refinement =>
      obtain ⟨inferred, hType, h⟩ := except_bind_ok.mp h
      cases h
      exact except_mapError_ok.mp hType
  | observe attrs field basis =>
      obtain ⟨inferred, hType, h⟩ := except_bind_ok.mp h
      rw [evaluateCurrent_semanticType h]
      exact except_mapError_ok.mp hType
  | indicator attrs kind n k x ih =>
      obtain ⟨inferred, hType, h⟩ := except_bind_ok.mp h
      obtain ⟨source, -, h⟩ := except_bind_ok.mp h
      rw [evaluateCurrent_semanticType h]
      exact except_mapError_ok.mp hType
  | absolute attrs x ih =>
      obtain ⟨inferred, hType, h⟩ := except_bind_ok.mp h
      obtain ⟨source, -, h⟩ := except_bind_ok.mp h
      cases h
      exact except_mapError_ok.mp hType
  | history attrs n k x ih =>
      obtain ⟨inferred, hType, h⟩ := except_bind_ok.mp h
      obtain ⟨source, -, h⟩ := except_bind_ok.mp h
      obtain ⟨symbols, -, h⟩ := except_bind_ok.mp h
      obtain ⟨cells, -, h⟩ := except_bind_ok.mp h
      cases h
      exact except_mapError_ok.mp hType
  | reduce attrs axis reduction policy count fraction x ih =>
      obtain ⟨inferred, hType, h⟩ := except_bind_ok.mp h
      obtain ⟨source, -, h⟩ := except_bind_ok.mp h
      unfold evaluateReduce at h
      simp only at h
      split at h
      · cases h
      · obtain ⟨outer, -, h⟩ := except_bind_ok.mp h
        obtain ⟨inner, -, h⟩ := except_bind_ok.mp h
        obtain ⟨results, -, h⟩ := except_bind_ok.mp h
        cases h
        exact except_mapError_ok.mp hType
  | arithmetic attrs operator l r ihLeft ihRight =>
      obtain ⟨inferred, hType, h⟩ := except_bind_ok.mp h
      obtain ⟨left, -, h⟩ := except_bind_ok.mp h
      obtain ⟨right, -, h⟩ := except_bind_ok.mp h
      obtain ⟨outer, -, h⟩ := except_bind_ok.mp h
      obtain ⟨results, -, h⟩ := except_bind_ok.mp h
      cases h
      exact except_mapError_ok.mp hType

/-- The type of a scalar result is scalar. -/
theorem scalar_semanticType {node : DailyValueNode} {result : DailyValueResult}
    (h : evaluate ctx view candidate bindingId node = .ok result) (hScalar : result.axes = []) :
    result.semanticType.axes = [] := by
  rw [← evaluate_axes (evaluate_semanticType h) h]
  exact hScalar

end Types

/-- First row of the window of a history. -/
def windowStart (cutoff observations skip : Nat) : Nat := cutoff + 1 - skip - observations

/-- Rows in the window as it is read. A window that ends before the first session
has an end that counts from the last one. -/
def windowLength (rows cutoff observations skip : Nat) : Nat :=
  if skip ≤ cutoff + 1 then min observations (cutoff + 1 - skip) else rows - (skip - (cutoff + 1))

def windowDates (dates : List CalendarDate) (cutoff observations skip : Nat) : List CalendarDate :=
  (dates.drop (windowStart cutoff observations skip)).take
    (windowLength dates.length cutoff observations skip)

section Window

variable {dates : List CalendarDate} {cutoff observations skip : Nat}

theorem slice_window (h : cutoff < dates.length) :
    Sequence.slice dates (max 0 ((cutoff : Int) - skip - observations + 1))
        ((cutoff : Int) - skip + 1) =
      windowDates dates cutoff observations skip := by
  have hStart : Sequence.bound dates.length (max 0 ((cutoff : Int) - skip - observations + 1)) =
      windowStart cutoff observations skip := by
    rw [Sequence.bound_of_nonneg (by omega), windowStart]
    omega
  have hLength : Sequence.bound dates.length ((cutoff : Int) - skip + 1) -
      windowStart cutoff observations skip =
      windowLength dates.length cutoff observations skip := by
    rw [windowLength, windowStart]
    by_cases hReached : skip ≤ cutoff + 1
    · rw [Sequence.bound_of_nonneg (by omega), if_pos hReached]
      omega
    · rw [Sequence.bound_of_neg (by omega), if_neg hReached]
      omega
  rw [Sequence.slice, hStart, hLength, windowDates]

theorem length_windowDates (h : cutoff < dates.length) :
    (windowDates dates cutoff observations skip).length =
      windowLength dates.length cutoff observations skip := by
  rw [windowDates, List.length_take, List.length_drop, windowLength, windowStart]
  split_ifs <;> omega

end Window

section Cells

variable (ctx : DecimalContext) (view : DailyView) (attrs : NodeAttrs)

def historyCell (values : Series) (row : Nat) : DailyCell :=
  { value := (values[row]?).join,
    reason := if ((values[row]?).join).isSome then none else some "insufficient_history" }

def historyCoordinate (symbol : String) (date : CalendarDate) : List AxisKey :=
  if attrs.subjectKind = some .groupMembers then [.member symbol, .session date]
  else [.session date]

/-- Cells of one symbol in the order they are written. -/
def historyPairs (start : Nat) (dates : List CalendarDate) (symbol : String) (values : Series) :
    List (List AxisKey × DailyCell) :=
  (Sequence.enumerate dates).map (fun row =>
    (historyCoordinate attrs symbol row.2, historyCell values (start + row.1)))

/-- Stream of a symbol, empty where it cannot be read. -/
def streamValues (source : DailyValueNode) (symbol : String) : Series :=
  (stream ctx view symbol source).toOption.getD []

variable {ctx view attrs} {source : DailyValueNode} {start : Nat} {dates : List CalendarDate}

theorem streamValues_of_stream {symbol : String} {values : Series}
    (h : stream ctx view symbol source = .ok values) :
    streamValues ctx view source symbol = values := by
  rw [streamValues, h]
  rfl

theorem mem_enumerate {α : Type} {xs : List α} {row : Nat × α} :
    row ∈ Sequence.enumerate xs ↔ xs[row.1]? = some row.2 := by
  rw [Sequence.enumerate, List.mem_iff_getElem?]
  constructor
  · rintro ⟨i, hi⟩
    obtain ⟨hIndex, hValue⟩ := List.getElem?_zip_eq_some.mp hi
    obtain ⟨hLength, hRange⟩ := List.getElem?_eq_some_iff.mp hIndex
    rw [List.getElem_range] at hRange
    rwa [← hRange]
  · intro h
    obtain ⟨hLength, -⟩ := List.getElem?_eq_some_iff.mp h
    refine ⟨row.1, List.getElem?_zip_eq_some.mpr ⟨?_, h⟩⟩
    exact List.getElem?_range hLength

/-- One cell of one symbol, as the loop writes it. -/
def writeCell (attrs : NodeAttrs) (start : Nat) (symbol : String) (values : Series)
    (cells : Dict (List AxisKey) DailyCell) (row : Nat × CalendarDate) :
    Except DailyValueError (Dict (List AxisKey) DailyCell) :=
  match values[start + row.1]? with
  | none => .error .indexOutOfRange
  | some value =>
      .ok (cells.set (historyCoordinate attrs symbol row.2)
        { value := value,
          reason := if value.isSome then none else some "insufficient_history" })

theorem foldlM_writeCell {symbol : String} {values : Series}
    {cells out : Dict (List AxisKey) DailyCell} :
    (Sequence.enumerate dates).foldlM (writeCell attrs start symbol values) cells = .ok out ↔
      (∀ row ∈ Sequence.enumerate dates, start + row.1 < values.length) ∧
      out = (historyPairs attrs start dates symbol values).foldl
        (fun d pair => d.set pair.1 pair.2) cells := by
  rw [historyPairs, List.foldl_map]
  apply Sequence.foldlM_ok_iff
  intro row _ b b'
  rw [writeCell]
  by_cases hIndex : start + row.1 < values.length
  · simp only [List.getElem?_eq_getElem hIndex, Except.ok.injEq, hIndex, true_and, historyCell,
      Option.join_some]
    exact eq_comm
  · simp [hIndex]

theorem foldlM_symbols {symbols : List String} {cells out : Dict (List AxisKey) DailyCell} :
    symbols.foldlM (fun cells symbol => do
      let values ← stream ctx view symbol source
      (Sequence.enumerate dates).foldlM (writeCell attrs start symbol values) cells) cells =
      .ok out ↔
    (∀ symbol ∈ symbols, ∃ values, stream ctx view symbol source = .ok values ∧
      ∀ row ∈ Sequence.enumerate dates, start + row.1 < values.length) ∧
    out = (symbols.flatMap (fun symbol => historyPairs attrs start dates symbol
      (streamValues ctx view source symbol))).foldl (fun d pair => d.set pair.1 pair.2) cells := by
  rw [List.foldl_flatMap]
  apply Sequence.foldlM_ok_iff
  intro symbol _ b b'
  rw [except_bind_ok]
  constructor
  · rintro ⟨values, hValues, hCells⟩
    obtain ⟨hInside, rfl⟩ := foldlM_writeCell.mp hCells
    rw [streamValues_of_stream hValues]
    exact ⟨⟨values, hValues, hInside⟩, rfl⟩
  · rintro ⟨⟨values, hValues, hInside⟩, rfl⟩
    rw [streamValues_of_stream hValues]
    exact ⟨values, hValues, foldlM_writeCell.mpr ⟨hInside, rfl⟩⟩

/-- Cells of all symbols over the dates of a window. -/
def historyCells (ctx : DecimalContext) (view : DailyView) (attrs : NodeAttrs)
    (source : DailyValueNode) (start : Nat) (dates : List CalendarDate) (symbols : List String) :
    Dict (List AxisKey) DailyCell :=
  Dict.ofList (symbols.flatMap (fun symbol =>
    historyPairs attrs start dates symbol (streamValues ctx view source symbol)))

/-- A history is read when every symbol has a stream that its window does not run
past, and then it lists the cells of the windows. -/
theorem evaluateHistory_ok_iff {observations skip : Nat} {inferred : SemanticType}
    {candidate : Option String} {symbols : List String} {result : DailyValueResult}
    (hAttrs : sourceObserve source = .ok attrs)
    (hSymbols : observedSymbols view attrs candidate = .ok symbols)
    (hCutoff : view.cutoffIndex < view.dates.length)
    (hDates : dates = windowDates view.dates view.cutoffIndex observations skip)
    (hStart : start = windowStart view.cutoffIndex observations skip) :
    evaluateHistory ctx view source observations skip inferred candidate = .ok result ↔
      (∀ symbol ∈ symbols, ∃ values, stream ctx view symbol source = .ok values ∧
        ∀ row ∈ Sequence.enumerate dates, start + row.1 < values.length) ∧
      result = ⟨inferred, inferred.axes,
        historyCells ctx view attrs source start dates symbols, dates⟩ := by
  have hFirst : (max 0 ((view.cutoffIndex : Int) - skip - observations + 1)).toNat = start := by
    rw [hStart, windowStart]
    omega
  rw [evaluateHistory, hAttrs, except_ok_bind]
  simp only [hSymbols, except_ok_bind, slice_window hCutoff, ← hDates, hFirst]
  rw [except_bind_ok, historyCells, Dict.ofList]
  constructor
  · rintro ⟨cells, hCells, hResult⟩
    obtain ⟨hRead, rfl⟩ := foldlM_symbols.mp hCells
    exact ⟨hRead, (Except.ok.inj hResult).symm⟩
  · rintro ⟨hRead, rfl⟩
    exact ⟨_, foldlM_symbols.mpr ⟨hRead, rfl⟩, rfl⟩

/-- Symbols that share a coordinate are one. -/
def Separated (attrs : NodeAttrs) (symbols : List String) : Prop :=
  attrs.subjectKind = some .groupMembers ∨ ∀ s ∈ symbols, ∀ s' ∈ symbols, s = s'

theorem eq_of_historyCoordinate {symbols : List String} (h : Separated attrs symbols)
    {s s' : String} (hs : s ∈ symbols) (hs' : s' ∈ symbols) {d d' : CalendarDate}
    (hSame : historyCoordinate attrs s d = historyCoordinate attrs s' d') : s = s' ∧ d = d' := by
  rw [historyCoordinate, historyCoordinate] at hSame
  split_ifs at hSame with hGroup
  · cases hSame
    exact ⟨rfl, rfl⟩
  · cases hSame
    exact ⟨(h.resolve_left hGroup) s hs s' hs', rfl⟩

/-- On distinct dates every row of a window has its own cell. -/
theorem get?_historyCells {symbols : List String} {symbol : String}
    {row : Nat × CalendarDate} (hSeparated : Separated attrs symbols) (hNodup : dates.Nodup)
    (hSymbol : symbol ∈ symbols) (hRow : row ∈ Sequence.enumerate dates) :
    (historyCells ctx view attrs source start dates symbols).get?
        (historyCoordinate attrs symbol row.2) =
      some (historyCell (streamValues ctx view source symbol) (start + row.1)) := by
  apply Dict.get?_ofList_of_alike
  · exact List.mem_flatMap.mpr ⟨symbol, hSymbol, List.mem_map.mpr ⟨row, hRow, rfl⟩⟩
  · intro other hOther
    obtain ⟨symbol', hSymbol', hPair⟩ := List.mem_flatMap.mp hOther
    obtain ⟨row', hRow', hEq⟩ := List.mem_map.mp hPair
    rw [Prod.mk.injEq] at hEq
    obtain ⟨hCoordinate, rfl⟩ := hEq
    obtain ⟨rfl, hDate⟩ := eq_of_historyCoordinate hSeparated hSymbol' hSymbol hCoordinate
    rw [mem_enumerate] at hRow hRow'
    obtain ⟨hIndex, hValue⟩ := List.getElem?_eq_some_iff.mp hRow
    obtain ⟨hIndex', hValue'⟩ := List.getElem?_eq_some_iff.mp hRow'
    have hPosition : row'.1 = row.1 :=
      (List.Nodup.getElem_inj_iff hNodup).mp (by rw [hValue, hValue', hDate])
    rw [hPosition]

end Cells

section Subjects

variable {view : DailyView} {attrs : NodeAttrs} {candidate bindingId : Option String}
  {symbols : List String}

/-- Axes of a stream over the subject of an observation. -/
def subjectAxes (attrs : NodeAttrs) : List Axis :=
  if attrs.subjectKind = some .groupMembers then [.asset (attrs.subjectId.getD "")] else []

def symbolCoordinate (attrs : NodeAttrs) (symbol : String) : List AxisKey :=
  if attrs.subjectKind = some .groupMembers then [.member symbol] else []

/-- Indicators other than trailing returns read prices. -/
theorem operand_type {node : DailyValueNode} {type : SemanticType} {attrs : NodeAttrs} {kind : IndicatorKind} {window skip : Nat}
    (hTyped : inferDailyType bindingId (.indicator attrs kind window skip node) = .ok type) :
    ∃ left, inferDailyType bindingId node = .ok left ∧ type.axes = left.axes ∧
      (kind ≠ .trailingReturn → left.quantity = .price) ∧
      (type.quantity = .price → kind = .sma ∨ kind = .ema) := by
  obtain ⟨left, hLeft, hType⟩ := except_bind_ok.mp hTyped
  refine ⟨left, hLeft, ?_⟩
  cases kind with
  | trailingReturn =>
      cases hType
      exact ⟨rfl, fun h => absurd rfl h, fun h => by cases h⟩
  | sma | ema =>
      simp only [indicatorType] at hType
      split_ifs at hType with hPrice
      cases hType
      exact ⟨rfl, fun _ => not_not.mp hPrice, fun _ => by simp⟩
  | rsiWilderLeanCompat | realizedVolatility =>
      simp only [indicatorType] at hType
      split_ifs at hType with hPrice
      cases hType
      exact ⟨rfl, fun _ => not_not.mp hPrice, fun h => by cases h⟩

theorem axes_of_sourceObserve {node : DailyValueNode} {type : SemanticType}
    (hTyped : inferDailyType bindingId node = .ok type) (h : sourceObserve node = .ok attrs) :
    type.axes = subjectAxes attrs := by
  induction node generalizing type with
  | observe observed field basis =>
      cases h
      simp only [inferDailyType, observeType] at hTyped
      split_ifs at hTyped <;> (cases hTyped; simp_all [subjectAxes])
  | indicator observed kind window skip operand ih =>
      obtain ⟨left, hLeft, hAxes, -⟩ := operand_type hTyped
      rw [hAxes]
      exact ih hLeft h
  | absolute observed operand ih => exact ih hTyped h
  | _ => cases h

/-- A subject is the members of a domain or one symbol. -/
theorem observed_subject (hSubject : attrs.subjectKind.isSome = true)
    (hSymbols : observedSymbols view attrs candidate = .ok symbols) :
    (attrs.subjectKind = some .groupMembers ∧
      view.domains.get? (attrs.subjectId.getD "") = some symbols) ∨
    (attrs.subjectKind ≠ some .groupMembers ∧ ∃ symbol, symbols = [symbol]) := by
  obtain ⟨kind, hKind⟩ := Option.isSome_iff_exists.mp hSubject
  simp only [observedSymbols, hKind] at hSymbols
  cases kind with
  | asset =>
      cases hSymbols
      exact Or.inr ⟨by simp [hKind], _, rfl⟩
  | candidate =>
      cases candidate with
      | none => cases hSymbols
      | some symbol =>
          cases hSymbols
          exact Or.inr ⟨by simp [hKind], _, rfl⟩
  | groupMembers =>
      simp only at hSymbols
      split at hSymbols
      · cases hSymbols
      · rename_i members hMembers
        cases hSymbols
        exact Or.inl ⟨hKind, hMembers⟩

theorem separated_of_observed (hSubject : attrs.subjectKind.isSome = true)
    (hSymbols : observedSymbols view attrs candidate = .ok symbols) :
    Separated attrs symbols := by
  rcases observed_subject hSubject hSymbols with ⟨hGroup, -⟩ | ⟨-, symbol, rfl⟩
  · exact Or.inl hGroup
  · right
    intro s hs s' hs'
    rw [List.mem_singleton.mp hs, List.mem_singleton.mp hs']

theorem eq_of_symbolCoordinate (h : Separated attrs symbols) {s s' : String} (hs : s ∈ symbols)
    (hs' : s' ∈ symbols) (hSame : symbolCoordinate attrs s = symbolCoordinate attrs s') :
    s = s' := by
  rw [symbolCoordinate, symbolCoordinate] at hSame
  split_ifs at hSame with hGroup
  · cases hSame
    rfl
  · exact (h.resolve_left hGroup) s hs s' hs'

theorem coordinates_subjectAxes (hSubject : attrs.subjectKind.isSome = true)
    (hSymbols : observedSymbols view attrs candidate = .ok symbols) :
    coordinates view (subjectAxes attrs) = .ok (symbols.map (symbolCoordinate attrs)) := by
  rcases observed_subject hSubject hSymbols with ⟨hGroup, hDomain⟩ | ⟨hScalar, symbol, rfl⟩
  · have hCoordinate : symbolCoordinate attrs = fun symbol => [AxisKey.member symbol] := by
      funext symbol
      rw [symbolCoordinate, if_pos hGroup]
    rw [subjectAxes, if_pos hGroup, coordinates, List.mapM_cons, axisKeys, hDomain, hCoordinate]
    show Except.ok (Sequence.product [symbols.map AxisKey.member]) = _
    simp only [Sequence.product, List.map_singleton, List.flatMap_map, ← List.map_eq_flatMap]
  · rw [subjectAxes, if_neg hScalar]
    show Except.ok [[]] = _
    rw [List.map_singleton, symbolCoordinate, if_neg hScalar]

end Subjects

end RuleTrade
