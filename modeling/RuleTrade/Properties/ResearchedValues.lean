import RuleTrade.Properties.ValueTypes

/-! Values that are researched and values that are executed. Over exact arithmetic the
evaluator observes what the compiled value reads in the generated algorithm, whose windows end
at the last row up to the date. -/

namespace RuleTrade.V1

open Library DatasetValueEvaluator

section Windows

variable (frame : PriceFrame) (asOf : CalendarDate)

/-- The cells of a column up to a date. -/
def PriceFrame.rowsUpTo (column : List (Option ℚ)) : List (CalendarDate × Option ℚ) :=
  (frame.dates.zip column).filter fun row => row.1.toOrdinal ≤ asOf.toOrdinal

/-- The prices of a column up to a date, oldest first. -/
def PriceFrame.closes (column : List (Option ℚ)) : List ℚ :=
  (frame.rowsUpTo asOf column).filterMap Prod.snd

def PriceFrame.column (symbol : String) : List (Option ℚ) := frame.columns.getD symbol []

/-- The generated algorithm after the last row up to a date. Its windows keep a number of
closes, the newest first. -/
def PriceFrame.generatedMarket (sqrt : ℚ → ℚ) (text : ℚ → String) (capacity : Nat) :
    GeneratedMarket where
  numbers := ⟨.exact sqrt, id, text⟩
  dailyCloses := frame.columns.mapValues fun column =>
    (frame.closes asOf column).reverse.take capacity

theorem generatedMarket_window (sqrt : ℚ → ℚ) (text : ℚ → String) (capacity : Nat)
    (symbol : String) :
    (frame.generatedMarket asOf sqrt text capacity).window symbol =
      (frame.closes asOf (frame.column symbol)).reverse.take capacity := by
  unfold GeneratedMarket.window PriceFrame.generatedMarket PriceFrame.column
  rw [Dict.getD, Dict.getD, Dict.get?_mapValues]
  cases frame.columns.get? symbol with
  | none => simp [PriceFrame.closes, PriceFrame.rowsUpTo]
  | some column => rfl

/-- Every cell is a positive price, and there are at least two rows. -/
structure PriceFrame.Complete : Prop where
  positive : ∀ column ∈ frame.columns.values, ∀ cell ∈ column, ∃ price, cell = some price ∧ 0 < price
  rows : 2 ≤ frame.dates.length

/-- Two tables have the same symbols and the same rows up to a date. -/
def PriceFrame.SamePast (other : PriceFrame) : Prop :=
  ∀ symbol, (frame.columns.get? symbol).isSome = (other.columns.get? symbol).isSome ∧
    frame.rowsUpTo asOf (frame.column symbol) = other.rowsUpTo asOf (other.column symbol)

end Windows

section Loading

variable {frame : PriceFrame} {symbol : String} {rows : List (CalendarDate × ℚ)}

/-- A column without missing cells is a list of prices. -/
theorem map_some_filterMap {column : List (Option ℚ)} (h : column.any Option.isNone = false) :
    (column.filterMap id).map some = column := by
  induction column with
  | nil => rfl
  | cons cell rest ih =>
      rw [List.any_cons, Bool.or_eq_false_iff] at h
      cases cell with
      | none => simp at h
      | some price => simpa using ih h.2

/-- What is loaded of a symbol. -/
theorem loadPrices_ok (h : frame.loadPrices symbol = .ok rows) :
    rows.map (fun row => (row.1, some row.2)) = frame.dates.zip (frame.column symbol) ∧
      ∀ row ∈ rows, 0 < row.2 := by
  unfold PriceFrame.loadPrices at h
  rcases hColumn : frame.columns.get? symbol with _ | column
  · simp [hColumn] at h
  · rw [hColumn] at h
    simp only at h
    split at h
    · cases h
    · next hMissing =>
        split at h
        · cases h
        · next hPositive =>
            split at h
            · cases h
            · cases h
              have hSame := map_some_filterMap (Bool.eq_false_iff.mpr hMissing)
              constructor
              · rw [PriceFrame.column, Dict.getD, hColumn, Option.getD_some]
                conv_rhs => rw [← hSame]
                rw [List.zip_map_right]
                rfl
              · intro row hRow
                have hPrice := (List.of_mem_zip hRow).2
                by_contra hNot
                exact hPositive (List.any_eq_true.mpr ⟨row.2, hPrice, by simpa using hNot⟩)

theorem loadPrices_of_complete (hComplete : frame.Complete)
    (hSymbol : (frame.columns.get? symbol).isSome) :
    ∃ rows, frame.loadPrices symbol = .ok rows := by
  obtain ⟨column, hColumn⟩ := Option.isSome_iff_exists.mp hSymbol
  have hMem : column ∈ frame.columns.values :=
    List.mem_map.mpr ⟨(symbol, column), Dict.mem_of_get? hColumn, rfl⟩
  have hCells := hComplete.positive column hMem
  have hMissing : column.any Option.isNone = false := by
    rw [List.any_eq_false]
    intro cell hCell
    obtain ⟨price, rfl, -⟩ := hCells cell hCell
    simp
  have hPositive : (column.filterMap id).any (· ≤ 0) = false := by
    rw [List.any_eq_false]
    intro price hPrice
    obtain ⟨cell, hCell, hSome⟩ := List.mem_filterMap.mp hPrice
    obtain ⟨price', rfl, hPrice'⟩ := hCells cell hCell
    cases hSome
    simpa using hPrice'
  have hLength : ¬ (column.filterMap id).length < 2 := by
    have hSame := congrArg List.length (map_some_filterMap hMissing)
    rw [List.length_map, frame.aligned column hMem] at hSame
    have := hComplete.rows
    omega
  refine ⟨frame.dates.zip (column.filterMap id), ?_⟩
  unfold PriceFrame.loadPrices
  rw [hColumn]
  simp only [hMissing, hPositive, hLength, if_false, Bool.false_eq_true]

end Loading

section Observations

variable {self : DatasetValueEvaluator} {datasetId : String} {asOf : CalendarDate}
  {frame : PriceFrame} {symbol : String} {count : Nat} {window : List (CalendarDate × ℚ)}

/-- The loaded prices up to a date are the closes up to it. -/
theorem closes_of_rows {rows : List (CalendarDate × ℚ)}
    (h : rows.map (fun row => (row.1, some row.2)) = frame.dates.zip (frame.column symbol)) :
    frame.closes asOf (frame.column symbol) =
      (rows.filter fun row => row.1.toOrdinal ≤ asOf.toOrdinal).map Prod.snd := by
  unfold PriceFrame.closes PriceFrame.rowsUpTo
  rw [← h, List.filter_map, List.filterMap_map]
  exact congrFun List.filterMap_eq_map _

/-- What a window holds: as many positive prices as asked for, the last up to the date. -/
theorem prices_ok (hFrame : self.datasets.resolve datasetId = .ok frame)
    (h : self.prices datasetId asOf symbol count = .ok window) :
    1 ≤ count ∧ window.length = count ∧ (∀ row ∈ window, 0 < row.2) ∧
      window.map Prod.snd = (frame.closes asOf (frame.column symbol)).rtake count := by
  unfold prices at h
  split at h
  · next hCount =>
      rw [hFrame] at h
      obtain ⟨_, hSame, h⟩ := except_bind_ok.mp h
      cases hSame
      obtain ⟨rows, hRows, h⟩ := except_bind_ok.mp h
      obtain ⟨hLoaded, hPositive⟩ := loadPrices_ok hRows
      simp only at h
      split at h
      · cases h
      · next hLong =>
          cases h
          refine ⟨hCount.1, ?_, ?_, ?_⟩
          · have hAtMost : ((rows.filter fun row => row.1.toOrdinal ≤ asOf.toOrdinal).rtake
                count).length ≤ count := by
              rw [List.rtake, List.length_drop]
              omega
            omega
          · intro row hRow
            exact hPositive row (List.mem_of_mem_filter (List.mem_of_mem_drop hRow))
          · rw [closes_of_rows hLoaded, List.rtake, List.rtake, List.map_drop, List.length_map]
  · cases h

/-- Enough closes of a complete table give a window. -/
theorem prices_of_closes (hFrame : self.datasets.resolve datasetId = .ok frame)
    (hComplete : frame.Complete) (hLeast : 1 ≤ count) (hMost : count ≤ maxWindowObservations + 1)
    (hEnough : count ≤ (frame.closes asOf (frame.column symbol)).length) :
    ∃ window, self.prices datasetId asOf symbol count = .ok window := by
  have hSymbol : (frame.columns.get? symbol).isSome := by
    by_contra hNot
    rw [Option.not_isSome_iff_eq_none] at hNot
    rw [PriceFrame.column, Dict.getD, hNot] at hEnough
    simp [PriceFrame.closes, PriceFrame.rowsUpTo] at hEnough
    omega
  obtain ⟨rows, hRows⟩ := loadPrices_of_complete hComplete hSymbol
  rw [closes_of_rows (loadPrices_ok hRows).1, List.length_map] at hEnough
  refine ⟨(rows.filter fun row => row.1.toOrdinal ≤ asOf.toOrdinal).rtake count, ?_⟩
  have hLong : ¬ ((rows.filter fun row => row.1.toOrdinal ≤ asOf.toOrdinal).rtake count).length <
      count := by
    rw [List.rtake, List.length_drop]
    omega
  unfold prices
  rw [if_pos ⟨hLeast, hMost⟩, hFrame]
  change (frame.loadPrices symbol >>= _) = _
  rw [hRows]
  exact if_neg hLong

theorem latest_isOk {window : List (CalendarDate × ℚ)} (h : 1 ≤ window.length) :
    ∃ row, latest window = .ok row := by
  have hSome := List.getLast?_isSome.mpr (List.ne_nil_of_length_pos h)
  obtain ⟨row, hRow⟩ := Option.isSome_iff_exists.mp hSome
  exact ⟨row, by rw [latest, hRow]; rfl⟩

theorem earliest_isOk {window : List (CalendarDate × ℚ)} (h : 1 ≤ window.length) :
    ∃ row, earliest window = .ok row := by
  cases window with
  | nil => simp at h
  | cons row rest => exact ⟨row, rfl⟩

end Observations

section Holding

/-- The newest closes that the algorithm holds are those of a window. -/
def HoldsWindow (market : GeneratedMarket) (symbol : String)
    (window : List (CalendarDate × ℚ)) : Prop :=
  ∃ older, market.window symbol = (window.map Prod.snd).reverse ++ older

variable {market : GeneratedMarket} {symbol : String} {window : List (CalendarDate × ℚ)}
  {first last : CalendarDate × ℚ}

theorem holdsWindow_of_prices {self : DatasetValueEvaluator} {datasetId : String}
    {asOf : CalendarDate} {frame : PriceFrame} {count capacity : Nat}
    (hFrame : self.datasets.resolve datasetId = .ok frame)
    (h : self.prices datasetId asOf symbol count = .ok window) (hCapacity : count ≤ capacity)
    (sqrt : ℚ → ℚ) (text : ℚ → String) :
    HoldsWindow (frame.generatedMarket asOf sqrt text capacity) symbol window := by
  obtain ⟨-, -, -, hCloses⟩ := prices_ok hFrame h
  refine ⟨((frame.closes asOf (frame.column symbol)).reverse.take capacity).drop count, ?_⟩
  have hTake : (frame.closes asOf (frame.column symbol)).reverse.take count =
      ((frame.closes asOf (frame.column symbol)).reverse.take capacity).take count := by
    rw [List.take_take, Nat.min_eq_left hCapacity]
  rw [generatedMarket_window, hCloses, List.rtake_eq_reverse_take_reverse, List.reverse_reverse,
    hTake, List.take_append_drop]

/-- The newest price is at the front. -/
theorem head_of_holds (h : HoldsWindow market symbol window) (hLast : latest window = .ok last) :
    (market.window symbol).head? = some last.2 := by
  obtain ⟨older, hOlder⟩ := h
  rw [hOlder]
  unfold latest at hLast
  rcases hRow : window.getLast? with _ | row
  · simp [hRow] at hLast
  · rw [hRow] at hLast
    cases hLast
    rw [List.head?_append, List.head?_reverse, List.getLast?_map, hRow]
    rfl

/-- The oldest price of the window is at its length. -/
theorem base_of_holds (h : HoldsWindow market symbol window) {observations : Nat}
    (hLength : window.length = observations + 1) (hFirst : earliest window = .ok first) :
    (market.window symbol)[observations]? = some first.2 := by
  obtain ⟨older, hOlder⟩ := h
  rw [hOlder]
  cases window with
  | nil => simp at hLength
  | cons row rest =>
      cases hFirst
      rw [List.length_cons] at hLength
      rw [List.map_cons, List.reverse_cons, List.append_assoc]
      have hRest : observations = (rest.map Prod.snd).reverse.length := by simp; omega
      rw [hRest, List.getElem?_append_right le_rfl]
      simp

theorem trailingReturn_of_holds (h : HoldsWindow market symbol window) {observations : Nat}
    (hLength : window.length = observations + 1) (hLast : latest window = .ok last)
    (hFirst : earliest window = .ok first) (hPositive : ∀ row ∈ window, 0 < row.2) :
    market.trailingReturn symbol observations =
      some (market.context.sub (market.context.quot last.2 first.2) 1) := by
  have hMem : first ∈ window := by
    cases window with
    | nil => simp at hLength
    | cons row rest =>
        cases hFirst
        exact List.mem_cons_self
  unfold GeneratedMarket.trailingReturn
  rw [head_of_holds h hLast, base_of_holds h hLength hFirst]
  exact if_neg (hPositive first hMem).ne'

/-- The aggregates agree on any window of prices. -/
theorem rollingPrice_of_holds (h : HoldsWindow market symbol window) {observations : Nat}
    (hLength : window.length = observations) (hLeast : 1 ≤ observations)
    (operator : AggregateOperator) :
    market.rollingPrice symbol observations operator.executable =
      some (aggregate market.context operator (Sequence.sortBy id (window.map Prod.snd))) := by
  obtain ⟨older, hOlder⟩ := h
  have hReversed : ((window.map Prod.snd).reverse).length = observations := by simpa using hLength
  have hTake : (market.window symbol).take observations = (window.map Prod.snd).reverse := by
    rw [hOlder, ← hReversed, List.take_left]
  have hLong : ¬ ((market.window symbol).length < observations ∨ observations < 1) := by
    rw [hOlder, List.length_append, hReversed]
    omega
  have hSorted : Sequence.sortBy id (window.map Prod.snd).reverse =
      Sequence.sortBy id (window.map Prod.snd) :=
    Sequence.sortBy_of_perm_of_injective Function.injective_id (List.reverse_perm _)
  have hCount : (Sequence.sortBy id (window.map Prod.snd)).length = observations := by
    rw [(Sequence.perm_sortBy id _).length_eq, List.length_map, hLength]
  unfold GeneratedMarket.rollingPrice
  rw [if_neg hLong, hTake, hSorted]
  generalize Sequence.sortBy id (window.map Prod.snd) = numbers at hCount
  cases operator with
  | mean => simp only [AggregateOperator.executable, aggregate, hCount]
  | median => simp only [AggregateOperator.executable, aggregate, hCount]
  | min =>
      cases numbers with
      | nil => simp at hCount; omega
      | cons number rest => rfl
  | max =>
      rcases hMax : numbers.getLast? with _ | number
      · rw [List.getLast?_eq_none_iff] at hMax
        subst hMax
        simp at hCount
        omega
      · simp [AggregateOperator.executable, aggregate, hMax]

end Holding

section Literals

/-- Literals are as reading them leaves them. -/
def Expression.Parsed : Expression → Prop
  | .literal valueType value => normalizeTypedValue value valueType = some value
  | .marketSeries _ inner | .current inner | .rollingAggregate _ inner _ | .price inner
  | .indicator _ inner _ => inner.Parsed
  | .arithmetic _ left right => left.Parsed ∧ right.Parsed
  | _ => True

theorem symbolText_of_parsed {symbol : String}
    (h : (Expression.literal .asset (.text symbol)).Parsed) : symbolText symbol = symbol := by
  simp only [Expression.Parsed, normalizeTypedValue] at h
  split at h
  · simpa [symbolValue] using h
  · cases h

/-- A parsed literal of a numeric type is a finite number. -/
theorem extended_of_parsed {valueType : ValueType} {value : Value}
    (hType : isObservable valueType = true) (h : (Expression.literal valueType value).Parsed) :
    ∃ number, value.extended = some (.finite number) := by
  have hMatches : valueMatchesType value valueType = true := by
    simp only [Expression.Parsed, normalizeTypedValue] at h
    split at h
    · assumption
    · cases h
  have hNumber : isNumber value = true := by
    cases valueType <;> first
      | exact hMatches
      | cases hType
  simp only [isNumber] at hNumber
  rcases hRead : value.number with _ | number
  · simp [hRead] at hNumber
  · rw [hRead] at hNumber
    cases number with
    | finite negative coefficient exponent =>
        exact ⟨_, by rw [Value.extended, hRead]; rfl⟩
    | _ => cases hNumber

end Literals

section Subjects

variable {candidateAsset : Option String} {allowed : Bool} {reading : String}
  {subject : Expression} {kind : ExecutableSubject} {asset : Option String}

/-- What the compiler takes for a subject. -/
theorem compileSubject_ok (h : compileSubject allowed reading subject = .ok (kind, asset)) :
    (subject = .candidate ∧ kind = .candidate ∧ asset = none) ∨
      ∃ symbol, subject = .literal .asset (.text symbol) ∧ kind = .asset ∧ asset = some symbol := by
  unfold compileSubject at h
  simp only at h
  split at h
  · split at h
    · cases h
      exact Or.inl ⟨rfl, rfl, rfl⟩
    · cases h
  · next symbol =>
      cases h
      exact Or.inr ⟨symbol, rfl, rfl, rfl⟩
  · cases h

/-- The generated code reads the ticker that the evaluator asks for. -/
theorem ticker_of_assetOf (hCompile : compileSubject allowed reading subject = .ok (kind, asset))
    (hParsed : subject.Parsed) {symbol : String}
    (h : assetOf candidateAsset subject = .ok symbol) :
    (lowerSubject asset kind).ticker (symbolText (candidateAsset.getD "")) = symbol := by
  rcases compileSubject_ok hCompile with ⟨rfl, rfl, rfl⟩ | ⟨text, rfl, rfl, rfl⟩
  · simp only [assetOf, subjectOf, candidateSubject] at h
    split at h
    · cases h
    · cases h
    · cases h
      rfl
  · cases h
    exact (symbolText_of_parsed hParsed).symm

end Subjects

section Reading

variable {datasets : DatasetRegistry} {sqrt : ℚ → ℚ} {datasetId : String} {asOf : CalendarDate}
  {candidateAsset : Option String} {frame : PriceFrame} {allowed : Bool} {text : ℚ → String}

/-- The compiled value reads a number in every market whose windows are long enough for it. -/
def ReadsAs (frame : PriceFrame) (asOf : CalendarDate) (sqrt : ℚ → ℚ) (text : ℚ → String)
    (candidateAsset : Option String) (value : ExecutableValue) (observed : ℚ) : Prop :=
  ∃ lean, lowerValue value = some lean ∧ ∀ capacity, lean.observations ≤ capacity →
    lean.read (frame.generatedMarket asOf sqrt text capacity)
      (symbolText (candidateAsset.getD "")) = some observed

/-- The lookback that compiles is the one that the evaluator reads. -/
theorem int_of_compileLookback {parameters : Dict String Value} {lookback : Int}
    (h : compileLookback parameters = .ok lookback) :
    (parameters.getD "lookback_bars" (.integer 0)).int = some lookback := by
  unfold compileLookback at h
  rcases hGet : parameters.get? "lookback_bars" with _ | value
  · simp [hGet] at h
  · rw [hGet] at h
    rw [Dict.getD, hGet, Option.getD_some]
    rcases hInt : value.int with _ | n
    · simp [hInt] at h
    · simp only [hInt, Option.elim_some] at h
      exact congrArg some (Except.ok.inj h)

/-- Trailing returns. -/
theorem readsAs_trailingReturn (hFrame : datasets.resolve datasetId = .ok frame)
    {asset : Expression} {parameters : Dict String Value} (hParsed : asset.Parsed)
    {value : ExecutableValue} {observation : Observation}
    (hCompile : compileValue allowed
      (.indicator "trailing_return_indicator@1" asset parameters) = .ok value)
    (h : (DatasetValueEvaluator.mk datasets (.exact sqrt)).trailingReturn datasetId asOf
      candidateAsset asset parameters = .ok observation) :
    ReadsAs frame asOf sqrt text candidateAsset value observation.value := by
  simp only [compileValue, if_true] at hCompile
  obtain ⟨⟨kind, symbol⟩, hSubject, hCompile⟩ := except_bind_ok.mp hCompile
  obtain ⟨compiled, hLookback, hCompile⟩ := except_bind_ok.mp hCompile
  cases hCompile
  obtain ⟨lookback, hInt, h⟩ := except_bind_ok.mp h
  rw [int_of_compileLookback hLookback] at hInt
  have hSame : compiled = lookback := Except.ok.inj hInt
  subst hSame
  split at h
  · next hRange =>
      obtain ⟨ticker, hTicker, h⟩ := except_bind_ok.mp h
      obtain ⟨window, hWindow, h⟩ := except_bind_ok.mp h
      obtain ⟨last, hLast, h⟩ := except_bind_ok.mp h
      obtain ⟨first, hFirst, h⟩ := except_bind_ok.mp h
      cases h
      obtain ⟨observations, rfl⟩ := Int.eq_ofNat_of_zero_le (by omega : 0 ≤ compiled)
      obtain ⟨-, hLength, hPositive, -⟩ := prices_ok hFrame hWindow
      refine ⟨_, rfl, fun capacity hCapacity => ?_⟩
      rw [LeanValue.read, ticker_of_assetOf hSubject hParsed hTicker]
      exact trailingReturn_of_holds (holdsWindow_of_prices hFrame hWindow hCapacity sqrt text)
        hLength hLast hFirst hPositive
  · cases h

/-- Without arithmetic the compiled value reads what is observed. -/
theorem readsAs_leaf (hFrame : datasets.resolve datasetId = .ok frame) {expression : Expression}
    (hLeaf : ¬ expression.IsArithmetic) (hParsed : expression.Parsed) {value : ExecutableValue}
    {observation : Observation} (hCompile : compileValue allowed expression = .ok value)
    (h : (DatasetValueEvaluator.mk datasets (.exact sqrt)).scalar datasetId asOf candidateAsset
      expression = .ok observation) :
    ReadsAs frame asOf sqrt text candidateAsset value observation.value := by
  cases expression with
  | arithmetic operator left right => exact absurd ⟨operator, left, right, rfl⟩ hLeaf
  | literal valueType literal =>
      simp only [compileValue] at hCompile
      split at hCompile
      · cases hCompile
      · obtain ⟨number, hNumber, hCompile⟩ := except_bind_ok.mp hCompile
        cases hCompile
        rw [scalar, readDecimal_ok hNumber] at h
        split at h
        · cases number with
          | finite observed =>
              cases h
              exact ⟨_, rfl, fun _ _ => rfl⟩
          | _ => cases h
        · cases h
  | indicator indicatorId asset parameters =>
      simp only [scalar] at h
      split at h
      · next hId =>
          subst hId
          exact readsAs_trailingReturn hFrame (show asset.Parsed from hParsed) hCompile h
      · cases h
  | current inner =>
      cases inner with
      | marketSeries field subject =>
          cases field with
          | volume => simp [compileValue] at hCompile
          | price =>
              obtain ⟨⟨kind, symbol⟩, hSubject, hCompile⟩ := except_bind_ok.mp hCompile
              cases hCompile
              obtain ⟨⟨window, type⟩, hSeries, h⟩ := except_bind_ok.mp h
              obtain ⟨last, hLast, h⟩ := except_bind_ok.mp h
              cases h
              obtain ⟨ticker, hTicker, hSeries⟩ := except_bind_ok.mp hSeries
              obtain ⟨_, hWindow, hSeries⟩ := except_bind_ok.mp hSeries
              cases hSeries
              refine ⟨_, rfl, fun capacity hCapacity => ?_⟩
              rw [LeanValue.read, ticker_of_assetOf hSubject hParsed hTicker]
              exact head_of_holds (holdsWindow_of_prices hFrame hWindow hCapacity sqrt text) hLast
      | _ => simp [compileValue] at hCompile
  | rollingAggregate operator inner windowObservations =>
      cases inner with
      | marketSeries field subject =>
          cases field with
          | volume => simp [compileValue] at hCompile
          | price =>
              obtain ⟨⟨kind, symbol⟩, hSubject, hCompile⟩ := except_bind_ok.mp hCompile
              cases hCompile
              obtain ⟨⟨window, type⟩, hSeries, h⟩ := except_bind_ok.mp h
              obtain ⟨last, hLast, h⟩ := except_bind_ok.mp h
              cases h
              obtain ⟨ticker, hTicker, hSeries⟩ := except_bind_ok.mp hSeries
              obtain ⟨_, hWindow, hSeries⟩ := except_bind_ok.mp hSeries
              cases hSeries
              obtain ⟨hLeast, hLength, -, -⟩ := prices_ok hFrame hWindow
              refine ⟨_, rfl, fun capacity hCapacity => ?_⟩
              rw [LeanValue.read, ticker_of_assetOf hSubject hParsed hTicker]
              exact rollingPrice_of_holds (holdsWindow_of_prices hFrame hWindow hCapacity sqrt text)
                hLength hLeast operator
      | _ => simp [compileValue] at hCompile
  | _ => simp [compileValue] at hCompile

/-- The number of a decimal literal, as the evaluator and the compiler read it. -/
theorem scalar_decimal {value : Value} {factor : ExtendedDecimal} {observation : Observation}
    {self : DatasetValueEvaluator} (hFactor : value.extended = some factor)
    (h : self.scalar datasetId asOf candidateAsset (.literal .decimal value) = .ok observation) :
    factor = .finite observation.value := by
  simp only [scalar, hFactor] at h
  split at h
  · cases factor with
    | finite number =>
        cases h
        rfl
    | _ => cases h
  · cases h

/-- A scaled value reads what its operand reads times the factor. -/
theorem readsAs_scaled {operand : ExecutableValue} {observed : ℚ} (number : ℚ)
    (h : ReadsAs frame asOf sqrt text candidateAsset operand observed) :
    ReadsAs frame asOf sqrt text candidateAsset
      (compileValue.scaled operand (.finite number)) (observed * number) := by
  obtain ⟨lean, hLowered, hRead⟩ := h
  refine ⟨.scale lean number, ?_, fun capacity hCapacity => ?_⟩
  · change (lowerValue operand).map _ = _
    rw [hLowered]
    rfl
  · rw [LeanValue.read, hRead capacity hCapacity]
    rfl

/-- The compiled value reads what is observed. -/
theorem readsAs_of_scalar (hFrame : datasets.resolve datasetId = .ok frame)
    (expression : Expression) : ∀ {value : ExecutableValue} {observation : Observation},
    expression.Parsed → compileValue allowed expression = .ok value →
    (DatasetValueEvaluator.mk datasets (.exact sqrt)).scalar datasetId asOf candidateAsset
      expression = .ok observation →
    ReadsAs frame asOf sqrt text candidateAsset value observation.value := by
  induction expression using Expression.arithmetic_induction with
  | leaf expression hLeaf =>
      intro value observation hParsed hCompile h
      exact readsAs_leaf hFrame hLeaf hParsed hCompile h
  | node operator left right ihLeft ihRight =>
      intro value observation hParsed hCompile h
      obtain ⟨first, hFirst, h⟩ := except_bind_ok.mp h
      obtain ⟨second, hSecond, h⟩ := except_bind_ok.mp h
      obtain ⟨observed, hOperate, h⟩ := except_bind_ok.mp h
      cases h
      cases operator with
      | multiply =>
          cases hOperate
          obtain ⟨operand, scaled, number, factor, hScaled, hFactor, rfl,
            ⟨rfl, rfl⟩ | ⟨rfl, rfl⟩⟩ := compileValue_product hCompile
          · rw [scalar_decimal hFactor hSecond]
            exact readsAs_scaled _ (ihLeft hParsed.1 hScaled hFirst)
          · rw [scalar_decimal hFactor hFirst]
            have hRead := readsAs_scaled first.value (ihRight hParsed.2 hScaled hSecond)
            rwa [mul_comm] at hRead
      | _ => simp [compileValue] at hCompile

end Reading

section Past

variable {asOf : CalendarDate} {frame other : PriceFrame}

/-- Tables of one past give the same windows. -/
theorem prices_congr {self self' : DatasetValueEvaluator} {datasetId : String}
    (hFrame : self.datasets.resolve datasetId = .ok frame)
    (hOther : self'.datasets.resolve datasetId = .ok other) (hComplete : frame.Complete)
    (hOtherComplete : other.Complete) (hPast : frame.SamePast asOf other) (symbol : String)
    (count : Nat) :
    self'.prices datasetId asOf symbol count = self.prices datasetId asOf symbol count := by
  obtain ⟨hSymbol, hRows⟩ := hPast symbol
  unfold prices
  rw [hFrame, hOther]
  by_cases hKnown : (frame.columns.get? symbol).isSome
  · obtain ⟨rows, hLoad⟩ := loadPrices_of_complete hComplete hKnown
    obtain ⟨rows', hLoad'⟩ := loadPrices_of_complete hOtherComplete (hSymbol ▸ hKnown)
    have hInjective : Function.Injective fun row : CalendarDate × ℚ => (row.1, some row.2) := by
      intro x y hxy
      obtain ⟨hDate, hPrice⟩ := Prod.mk.inj hxy
      exact Prod.ext hDate (Option.some.inj hPrice)
    have hSame : rows'.filter (fun row => row.1.toOrdinal ≤ asOf.toOrdinal) =
        rows.filter fun row => row.1.toOrdinal ≤ asOf.toOrdinal := by
      apply List.map_injective_iff.mpr hInjective
      unfold PriceFrame.rowsUpTo at hRows
      rw [← (loadPrices_ok hLoad).1, ← (loadPrices_ok hLoad').1, List.filter_map,
        List.filter_map] at hRows
      exact hRows.symm
    simp only [except_ok_bind, hLoad, hLoad', hSame]
  · rw [Option.not_isSome_iff_eq_none] at hKnown
    have hUnknown : other.columns.get? symbol = none := by
      rwa [hKnown, Option.isSome_none, eq_comm, Option.isSome_eq_false_iff,
        Option.isNone_iff_eq_none] at hSymbol
    simp only [except_ok_bind, PriceFrame.loadPrices, hKnown, hUnknown]

/-- Equal windows give equal observations. -/
theorem scalar_congr {self self' : DatasetValueEvaluator} {datasetId : String}
    {candidateAsset : Option String} (hContext : self'.context = self.context)
    (hPrices : self'.prices datasetId asOf = self.prices datasetId asOf) :
    ∀ expression : Expression, self'.scalar datasetId asOf candidateAsset expression =
      self.scalar datasetId asOf candidateAsset expression := by
  intro expression
  induction expression using Expression.arithmetic_induction with
  | leaf expression hLeaf =>
      cases expression with
      | arithmetic operator left right => exact absurd ⟨operator, left, right, rfl⟩ hLeaf
      | _ => simp only [scalar, series, trailingReturn, hPrices, hContext]
  | node operator left right ihLeft ihRight => simp only [scalar, ihLeft, ihRight, hContext]

/-- Prices after the date change no evaluation. -/
theorem evaluate_congr {datasets datasets' : DatasetRegistry} {ctx : DecimalContext}
    {request : ValueEvaluationRequest}
    (hFrame : datasets.resolve request.datasetId = .ok frame)
    (hOther : datasets'.resolve request.datasetId = .ok other) (hComplete : frame.Complete)
    (hOtherComplete : other.Complete) (hPast : frame.SamePast request.asOf other) :
    (DatasetValueEvaluator.mk datasets' ctx).evaluate request =
      (DatasetValueEvaluator.mk datasets ctx).evaluate request := by
  have hPrices : (DatasetValueEvaluator.mk datasets' ctx).prices request.datasetId request.asOf =
      (DatasetValueEvaluator.mk datasets ctx).prices request.datasetId request.asOf := by
    funext symbol count
    exact prices_congr hFrame hOther hComplete hOtherComplete hPast symbol count
  have hScalar : (DatasetValueEvaluator.mk datasets' ctx).scalar request.datasetId request.asOf
      request.candidateAsset = (DatasetValueEvaluator.mk datasets ctx).scalar request.datasetId
      request.asOf request.candidateAsset := by
    funext expression
    exact scalar_congr (by rfl) hPrices expression
  simp only [DatasetValueEvaluator.evaluate, hScalar]

mutual

/-- A value depends on the windows alone. -/
theorem read_congr {market market' : GeneratedMarket} (hNumbers : market'.numbers = market.numbers)
    (hWindow : market'.window = market.window) (candidate : String) : ∀ value : LeanValue,
    value.read market' candidate = value.read market candidate
  | .literal _ _ => by simp only [LeanValue.read, hNumbers]
  | .currentPrice _ => by simp only [LeanValue.read, GeneratedMarket.currentPrice, hWindow]
  | .trailingReturn _ _ => by
      simp only [LeanValue.read, GeneratedMarket.trailingReturn, hWindow, GeneratedMarket.context,
        hNumbers]
  | .rollingPrice _ _ _ => by
      simp only [LeanValue.read, GeneratedMarket.rollingPrice, hWindow, GeneratedMarket.context,
        hNumbers]
  | .scale operand factor => by
      simp only [LeanValue.read, read_congr hNumbers hWindow candidate operand,
        GeneratedMarket.context, hNumbers]
  | .weightedScore terms policy => by
      rw [LeanValue.read, LeanValue.read, readTerms_congr hNumbers hWindow candidate terms]
      unfold GeneratedMarket.weightedScore GeneratedMarket.context
      rw [hNumbers]

theorem readTerms_congr {market market' : GeneratedMarket}
    (hNumbers : market'.numbers = market.numbers) (hWindow : market'.window = market.window)
    (candidate : String) : ∀ terms : List LeanScoreTerm,
    LeanValue.readTerms market' candidate terms = LeanValue.readTerms market candidate terms
  | [] => rfl
  | .mk value weight :: rest => by
      simp only [LeanValue.readTerms, read_congr hNumbers hWindow candidate value,
        readTerms_congr hNumbers hWindow candidate rest, hNumbers]

end

/-- Prices after the date change no window. -/
theorem window_congr (hPast : frame.SamePast asOf other) (sqrt : ℚ → ℚ) (text : ℚ → String)
    (capacity : Nat) : (other.generatedMarket asOf sqrt text capacity).window =
      (frame.generatedMarket asOf sqrt text capacity).window := by
  funext symbol
  rw [generatedMarket_window, generatedMarket_window, PriceFrame.closes, PriceFrame.closes,
    (hPast symbol).2]

end Past

section Returning

/-- Levels of an expression that the evaluator counts. -/
def Expression.depth : Expression → Nat
  | .price inner | .indicator _ inner _ | .marketSeries _ inner | .current inner
  | .rollingAggregate _ inner _ => inner.depth + 1
  | .arithmetic _ left right => max left.depth right.depth + 1
  | _ => 1

theorem checkDepth_ok {depth : Nat} (h : depth ≤ maxExpressionDepth) :
    checkDepth depth = .ok ⟨⟩ :=
  if_neg (Nat.not_lt.mpr h)

theorem depth_pos (expression : Expression) : 1 ≤ expression.depth := by
  cases expression <;> simp [Expression.depth]

theorem requireDepth_ok : ∀ (expression : Expression) {depth : Nat},
    depth + expression.depth ≤ maxExpressionDepth + 1 → requireDepth expression depth = .ok ⟨⟩
  | .price inner, depth, h | .indicator _ inner _, depth, h | .marketSeries _ inner, depth, h
  | .current inner, depth, h | .rollingAggregate _ inner _, depth, h => by
      simp only [Expression.depth] at h
      have hInner := @requireDepth_ok inner (depth + 1) (by omega)
      have := depth_pos inner
      simp only [requireDepth, checkDepth_ok (by omega : depth ≤ maxExpressionDepth), hInner]
      rfl
  | .arithmetic _ left right, depth, h => by
      simp only [Expression.depth] at h
      have hLeft := @requireDepth_ok left (depth + 1) (by omega)
      have hRight := @requireDepth_ok right (depth + 1) (by omega)
      have := depth_pos left
      simp only [requireDepth, checkDepth_ok (by omega : depth ≤ maxExpressionDepth), hLeft, hRight]
      rfl
  | .literal _ _, _, h | .parameterRef _, _, h | .stateRef _, _, h | .candidate, _, h
  | .groupRef _, _, h | .averageCost _, _, h | .componentOutput _ _, _, h
  | .comparison _ _ _, _, h | .boolean _ _, _, h | .negation _, _, h => by
      simp only [Expression.depth] at h
      exact checkDepth_ok (by omega)

/-- The windows of an executable value. -/
def windows : ExecutableValue → List Int
  | ⟨_, _, _, _, _, observations, _, none, _⟩ => observations.toList
  | ⟨_, _, _, _, _, observations, _, some operand, _⟩ => observations.toList ++ windows operand

variable {datasets : DatasetRegistry} {sqrt : ℚ → ℚ} {datasetId : String} {asOf : CalendarDate}
  {candidateAsset : Option String} {frame : PriceFrame} {allowed : Bool} {kind : SubjectKind}
  {ticker : String}

/-- A subject that compiles is the asset that is asked for, however far it has been opened. -/
theorem assetOf_of_subjectOf {reading : String} {subject : Expression} {opened : Opened}
    {compiled : ExecutableSubject × Option String}
    (hCompile : compileSubject allowed reading subject = .ok compiled)
    (h : subjectOf candidateAsset opened subject = .ok (kind, ticker)) :
    assetOf candidateAsset subject = .ok ticker := by
  rcases compileSubject_ok hCompile with ⟨rfl, -, -⟩ | ⟨symbol, rfl, -, -⟩
  · have hSubject : candidateSubject candidateAsset = .ok (kind, ticker) := by
      cases opened <;> exact h
    change (candidateSubject candidateAsset).map Prod.snd = _
    rw [hSubject]
    rfl
  · cases opened <;> cases h <;> rfl

/-- The subject of a scaled expression is that of its operand. -/
theorem subjectOf_scaled {operand left right : Expression} {number : Value}
    (hOperands : (operand = left ∧ right = .literal .decimal number) ∨
      (operand = right ∧ left = .literal .decimal number))
    (h : subjectOf candidateAsset .nothing (.arithmetic .multiply left right) =
      .ok (kind, ticker)) :
    subjectOf candidateAsset .nothing operand = .ok (kind, ticker) := by
  have hLiteral : subjectOf candidateAsset .nothing (.literal .decimal number) =
      .error unsupportedSubject := rfl
  simp only [subjectOf] at h
  rcases hOperands with ⟨rfl, rfl⟩ | ⟨rfl, rfl⟩
  · rw [hLiteral] at h
    unfold firstSubject at h
    rcases hFound : subjectOf candidateAsset .nothing operand with failure | found
    · rw [hFound] at h
      simp only at h
      split at h <;> cases h
    · rw [hFound] at h
      exact h
  · rw [hLiteral] at h
    exact h

/-- The closes that a compiled value needs are there. -/
def HasCloses (frame : PriceFrame) (asOf : CalendarDate) (ticker : String)
    (value : ExecutableValue) : Prop :=
  ∀ lean, lowerValue value = some lean →
    lean.observations ≤ (frame.closes asOf (frame.column ticker)).length

/-- What is known of a value that compiles, whose windows are in range and whose closes are
there. -/
structure Researchable (frame : PriceFrame) (asOf : CalendarDate) (ticker : String)
    (value : ExecutableValue) : Prop where
  windows : ∀ window ∈ windows value, 1 ≤ window ∧ window ≤ (maxWindowObservations : Int)
  closes : HasCloses frame asOf ticker value

theorem scalar_trailingReturn_isOk (hFrame : datasets.resolve datasetId = .ok frame)
    (hComplete : frame.Complete) {asset : Expression} {parameters : Dict String Value}
    {value : ExecutableValue}
    (hCompile : compileValue allowed
      (.indicator "trailing_return_indicator@1" asset parameters) = .ok value)
    (hSubject : subjectOf candidateAsset .value asset = .ok (kind, ticker))
    (h : Researchable frame asOf ticker value) :
    ∃ observation, (DatasetValueEvaluator.mk datasets (.exact sqrt)).trailingReturn datasetId asOf
      candidateAsset asset parameters = .ok observation := by
  simp only [compileValue, if_true] at hCompile
  obtain ⟨⟨subject, symbol⟩, hCompiled, hCompile⟩ := except_bind_ok.mp hCompile
  obtain ⟨compiled, hLookback, hCompile⟩ := except_bind_ok.mp hCompile
  cases hCompile
  have hRange := h.windows compiled (by simp [windows])
  obtain ⟨observations, rfl⟩ := Int.eq_ofNat_of_zero_le (by omega : 0 ≤ compiled)
  have hMost : observations + 1 ≤ maxWindowObservations + 1 := by omega
  obtain ⟨window, hWindow⟩ : ∃ window, (DatasetValueEvaluator.mk datasets (.exact sqrt)).prices
      datasetId asOf ticker (observations + 1) = .ok window :=
    prices_of_closes hFrame hComplete (by omega) hMost (h.closes _ rfl)
  obtain ⟨-, hLength, -, -⟩ := prices_ok hFrame hWindow
  obtain ⟨last, hLast⟩ := latest_isOk (by omega : 1 ≤ window.length)
  obtain ⟨first, hFirst⟩ := earliest_isOk (by omega : 1 ≤ window.length)
  unfold trailingReturn
  simp only [int_of_compileLookback hLookback, Option.elim_some, except_ok_bind, hRange,
    and_self, if_true, assetOf_of_subjectOf hCompiled hSubject, Int.toNat_natCast, hWindow, hLast,
    hFirst]
  exact ⟨_, rfl⟩

/-- Without arithmetic a value that compiles is observed. -/
theorem scalar_leaf_isOk (hFrame : datasets.resolve datasetId = .ok frame)
    (hComplete : frame.Complete) {expression : Expression} (hLeaf : ¬ expression.IsArithmetic)
    {value : ExecutableValue} (hCompile : compileValue allowed expression = .ok value)
    (hSubject : subjectOf candidateAsset .nothing expression = .ok (kind, ticker))
    (h : Researchable frame asOf ticker value) :
    ∃ observation, (DatasetValueEvaluator.mk datasets (.exact sqrt)).scalar datasetId asOf
      candidateAsset expression = .ok observation := by
  cases expression with
  | arithmetic operator left right => exact absurd ⟨operator, left, right, rfl⟩ hLeaf
  | literal valueType literal =>
      cases valueType <;> first
        | cases hSubject
        | cases hCompile
  | indicator indicatorId asset parameters =>
      by_cases hId : indicatorId = "trailing_return_indicator@1"
      · subst hId
        simp only [scalar, if_true]
        exact scalar_trailingReturn_isOk hFrame hComplete hCompile hSubject h
      · simp [compileValue, hId] at hCompile
  | current inner =>
      cases inner with
      | marketSeries field subject =>
          cases field with
          | volume => simp [compileValue] at hCompile
          | price =>
              obtain ⟨⟨compiled, symbol⟩, hCompiled, hCompile⟩ := except_bind_ok.mp hCompile
              cases hCompile
              obtain ⟨window, hWindow⟩ : ∃ window,
                  (DatasetValueEvaluator.mk datasets (.exact sqrt)).prices datasetId asOf ticker 1 =
                    .ok window :=
                prices_of_closes hFrame hComplete le_rfl (by unfold maxWindowObservations; omega)
                  (h.closes _ rfl)
              obtain ⟨-, hLength, -, -⟩ := prices_ok hFrame hWindow
              obtain ⟨last, hLast⟩ := latest_isOk (by omega : 1 ≤ window.length)
              simp only [scalar, series, assetOf_of_subjectOf hCompiled hSubject, except_ok_bind,
                hWindow, pure, Except.pure, hLast]
              exact ⟨_, rfl⟩
      | _ => simp [compileValue] at hCompile
  | rollingAggregate operator inner windowObservations =>
      cases inner with
      | marketSeries field subject =>
          cases field with
          | volume => simp [compileValue] at hCompile
          | price =>
              obtain ⟨⟨compiled, symbol⟩, hCompiled, hCompile⟩ := except_bind_ok.mp hCompile
              cases hCompile
              have hRange := h.windows windowObservations (by simp [windows])
              obtain ⟨window, hWindow⟩ : ∃ window,
                  (DatasetValueEvaluator.mk datasets (.exact sqrt)).prices datasetId asOf ticker
                    windowObservations = .ok window :=
                prices_of_closes hFrame hComplete (by omega) (by omega) (h.closes _ rfl)
              obtain ⟨-, hLength, -, -⟩ := prices_ok hFrame hWindow
              obtain ⟨last, hLast⟩ := latest_isOk (by omega : 1 ≤ window.length)
              simp only [scalar, series, assetOf_of_subjectOf hCompiled hSubject, except_ok_bind,
                hWindow, pure, Except.pure, hLast]
              exact ⟨_, rfl⟩
      | _ => simp [compileValue] at hCompile
  | _ => simp [compileValue] at hCompile

/-- What a scaled value needs, its operand needs. -/
theorem researchable_operand {operand : ExecutableValue} {number : ℚ}
    (h : Researchable frame asOf ticker (compileValue.scaled operand (.finite number))) :
    Researchable frame asOf ticker operand where
  windows window hWindow := h.windows window (by simpa [compileValue.scaled, windows] using hWindow)
  closes lean hLowered := h.closes (.scale lean number) (by
    change (lowerValue operand).map _ = _
    rw [hLowered]
    rfl)

/-- Values that compile are observed. -/
theorem scalar_isOk (hFrame : datasets.resolve datasetId = .ok frame)
    (hComplete : frame.Complete) (expression : Expression) : ∀ {value : ExecutableValue},
    expression.Parsed → compileValue allowed expression = .ok value →
    subjectOf candidateAsset .nothing expression = .ok (kind, ticker) →
    Researchable frame asOf ticker value →
    ∃ observation, (DatasetValueEvaluator.mk datasets (.exact sqrt)).scalar datasetId asOf
      candidateAsset expression = .ok observation := by
  induction expression using Expression.arithmetic_induction with
  | leaf expression hLeaf =>
      intro value _ hCompile hSubject h
      exact scalar_leaf_isOk hFrame hComplete hLeaf hCompile hSubject h
  | node operator left right ihLeft ihRight =>
      intro value hParsed hCompile hSubject h
      cases operator with
      | multiply =>
          obtain ⟨operand, scaled, number, factor, hScaled, hFactor, rfl, hOperands⟩ :=
            compileValue_product hCompile
          have hOperand := subjectOf_scaled hOperands hSubject
          have hLiteral : (Expression.literal .decimal number).Parsed := by
            rcases hOperands with ⟨-, rfl⟩ | ⟨-, rfl⟩
            · exact hParsed.2
            · exact hParsed.1
          obtain ⟨observed, hNumber⟩ := extended_of_parsed rfl hLiteral
          rw [hFactor] at hNumber
          cases hNumber
          have hScalar : (DatasetValueEvaluator.mk datasets (.exact sqrt)).scalar datasetId asOf
              candidateAsset (.literal .decimal number) = .ok ⟨observed, asOf, .decimal⟩ := by
            simp [scalar, isObservable, hFactor]
          rcases hOperands with ⟨rfl, rfl⟩ | ⟨rfl, rfl⟩
          · obtain ⟨first, hFirst⟩ := ihLeft hParsed.1 hScaled hOperand (researchable_operand h)
            simp only [scalar, hFirst, except_ok_bind] at hScalar ⊢
            rw [hScalar]
            exact ⟨_, rfl⟩
          · obtain ⟨second, hSecond⟩ := ihRight hParsed.2 hScaled hOperand (researchable_operand h)
            simp only [scalar, hSecond] at hScalar ⊢
            rw [hScalar]
            exact ⟨_, rfl⟩
      | _ => simp [compileValue] at hCompile

end Returning

/-- What is researched is what is executed. Whatever the evaluator returns for an expression that
compiles, the generated algorithm reads; prices after the date change neither; and it returns
where the windows are in range, the expression is not too deep and names a subject, and a
complete table of at least two rows has the closes it needs. -/
theorem researched_eq_executed {datasets : DatasetRegistry} {frame : PriceFrame} {allowed : Bool}
    {request : ValueEvaluationRequest} {value : ExecutableValue} (sqrt : ℚ → ℚ)
    (text : ℚ → String) (hParsed : request.expression.Parsed)
    (hCompile : compileValue allowed request.expression = .ok value)
    (hFrame : datasets.resolve request.datasetId = .ok frame) :
    (∀ evidence, (DatasetValueEvaluator.mk datasets (.exact sqrt)).evaluate request = .ok evidence →
      ReadsAs frame request.asOf sqrt text request.candidateAsset value evidence.observed) ∧
    (∀ datasets' other, DatasetRegistry.resolve datasets' request.datasetId = .ok other →
      frame.Complete → other.Complete → frame.SamePast request.asOf other →
        (DatasetValueEvaluator.mk datasets' (.exact sqrt)).evaluate request =
          (DatasetValueEvaluator.mk datasets (.exact sqrt)).evaluate request ∧
        ∀ lean capacity candidate, lowerValue value = some lean →
          lean.read (other.generatedMarket request.asOf sqrt text capacity) candidate =
            lean.read (frame.generatedMarket request.asOf sqrt text capacity) candidate) ∧
    (frame.Complete → request.expression.depth ≤ maxExpressionDepth →
      (∀ window ∈ windows value, 1 ≤ window ∧ window ≤ (maxWindowObservations : Int)) →
      ∀ kind ticker, subjectOf request.candidateAsset .nothing request.expression =
          .ok (kind, ticker) →
        HasCloses frame request.asOf ticker value →
        ∃ evidence, (DatasetValueEvaluator.mk datasets (.exact sqrt)).evaluate request =
          .ok evidence) := by
  refine ⟨?_, ?_, ?_⟩
  · intro evidence h
    obtain ⟨_, -, h⟩ := except_bind_ok.mp h
    obtain ⟨⟨kind, id⟩, -, h⟩ := except_bind_ok.mp h
    obtain ⟨observation, hScalar, h⟩ := except_bind_ok.mp h
    cases h
    exact readsAs_of_scalar hFrame request.expression hParsed hCompile hScalar
  · intro datasets' other hOther hComplete hOtherComplete hPast
    refine ⟨evaluate_congr hFrame hOther hComplete hOtherComplete hPast, ?_⟩
    intro lean capacity candidate _
    exact read_congr (by rfl) (window_congr hPast sqrt text capacity) candidate lean
  · intro hComplete hDepth hWindows kind ticker hSubject hCloses
    obtain ⟨observation, hScalar⟩ : ∃ observation,
        (DatasetValueEvaluator.mk datasets (.exact sqrt)).scalar request.datasetId request.asOf
          request.candidateAsset request.expression = .ok observation :=
      scalar_isOk hFrame hComplete request.expression hParsed hCompile hSubject
        ⟨hWindows, hCloses⟩
    have hLevels : requireDepth request.expression 1 = .ok ⟨⟩ :=
      requireDepth_ok request.expression (by omega)
    unfold DatasetValueEvaluator.evaluate
    rw [hLevels, hSubject, hScalar]
    exact ⟨_, rfl⟩

section Edges

def priceOfSpy : Expression := .current (.marketSeries .price (.literal .asset (.text "SPY")))

/-- One and a half times a price. -/
def scaledPrice : Expression :=
  .arithmetic .multiply priceOfSpy (.literal .decimal (.decimal (.finite false 15 (-1))))

def scaledPriceRequest : ValueEvaluationRequest where
  datasetId := "prices"
  expression := scaledPrice
  asOf := ⟨2024, 1, 3⟩
  context := .research

def scaledPriceValue : ExecutableValue :=
  compileValue.scaled { kind := .currentPrice, valueType := .moneyPerShare
                        subject := some .asset, asset := some "SPY" } (.finite (3 / 2))

theorem twoSessions_complete : twoSessions.Complete where
  positive := by
    intro column hColumn cell hCell
    cases List.mem_singleton.mp hColumn
    rcases List.mem_cons.mp hCell with rfl | hCell
    · exact ⟨100, rfl, by norm_num⟩
    · cases List.mem_singleton.mp hCell
      exact ⟨110, rfl, by norm_num⟩
  rows := le_rfl

theorem scaledPrice_extended :
    (Value.decimal (.finite false 15 (-1))).extended = some (.finite (3 / 2)) := by
  with_unfolding_all rfl

theorem scaledPrice_compiles : compileValue false scaledPrice = .ok scaledPriceValue := by
  have hFactor : readDecimal (.decimal (.finite false 15 (-1))) = .ok (.finite (3 / 2)) := by
    rw [readDecimal, scaledPrice_extended]
    rfl
  change (_ >>= fun operand => readDecimal _ >>= _) = _
  rw [hFactor]
  rfl

theorem scaledPrice_parsed : scaledPrice.Parsed := by
  have hText : valueMatchesType (.text "SPY") .asset = true := by with_unfolding_all rfl
  have hSymbol : symbolText "SPY" = "SPY" := by with_unfolding_all rfl
  constructor
  · change normalizeTypedValue (.text "SPY") .asset = some (.text "SPY")
    rw [normalizeTypedValue, if_pos hText, symbolValue, hSymbol]
  · rfl

theorem scaledPrice_researched : ∃ evidence,
    (DatasetValueEvaluator.mk (Dict.empty.set "prices" twoSessions) (.exact id)).evaluate
        scaledPriceRequest = .ok evidence ∧
      ReadsAs twoSessions ⟨2024, 1, 3⟩ id (fun _ => "") none scaledPriceValue evidence.observed := by
  have hFrame : DatasetRegistry.resolve (Dict.empty.set "prices" twoSessions)
      scaledPriceRequest.datasetId = .ok twoSessions := rfl
  have hTheorem := researched_eq_executed id (fun _ => "") scaledPrice_parsed scaledPrice_compiles
    hFrame
  obtain ⟨evidence, hEvidence⟩ := hTheorem.2.2 twoSessions_complete (by decide)
    (by simp [windows, scaledPriceValue, compileValue.scaled]) .asset "SPY" (by with_unfolding_all rfl)
    (by
      intro lean hLowered
      cases hLowered
      decide +kernel)
  exact ⟨evidence, hEvidence, hTheorem.1 evidence hEvidence⟩

def returnOverNothing : Expression :=
  .indicator "trailing_return_indicator@1" (.literal .asset (.text "SPY"))
    (Dict.empty.set "lookback_bars" (.integer 0))

theorem oneSession_ordered : ([⟨2024, 1, 3⟩].map CalendarDate.toOrdinal).Pairwise (· < ·) := by
  decide

def oneSession : PriceFrame where
  dates := [⟨2024, 1, 3⟩]
  columns := Dict.empty.set "SPY" [some 110]
  ordered := oneSession_ordered
  aligned := by simp [Dict.values, Dict.set, Dict.write, Dict.empty]

def sampleEvaluation (frame : PriceFrame) (expression : Expression) :
    Except EvaluationFailure SemanticValueEvidence :=
  (DatasetValueEvaluator.mk (Dict.empty.set "prices" frame) (.exact id)).evaluate
    { scaledPriceRequest with expression }

/-- An expression that compiles with windows of at most 1000, is not too deep, names the asset
and has the closes it needs. -/
def IsReady (frame : PriceFrame) (expression : Expression) : Prop :=
  ∃ value, compileValue false expression = .ok value ∧ (∀ window ∈ windows value, window ≤ 1000) ∧
    expression.depth ≤ maxExpressionDepth ∧
    subjectOf none .nothing expression = .ok (.asset, "SPY") ∧
    HasCloses frame ⟨2024, 1, 3⟩ "SPY" value

/-- A lookback of no bars compiles and needs one close, and a price needs one row: the evaluator
refuses both. -/
theorem returnOverNothing_refused :
    (IsReady twoSessions returnOverNothing ∧ twoSessions.Complete ∧
        (sampleEvaluation twoSessions returnOverNothing).toOption.isNone = true) ∧
      IsReady oneSession priceOfSpy ∧
        (∀ column ∈ oneSession.columns.values, column = [some 110]) ∧
        (sampleEvaluation oneSession priceOfSpy).toOption.isNone = true := by
  refine ⟨⟨⟨_, rfl, ?_, by decide, by decide +kernel, ?_⟩, twoSessions_complete, ?_⟩,
    ⟨_, rfl, ?_, by decide, by decide +kernel, ?_⟩, ?_, ?_⟩
  · intro window hWindow
    cases List.mem_singleton.mp hWindow
    decide
  · intro lean hLowered
    cases hLowered
    decide +kernel
  · decide +kernel
  · intro window hWindow
    cases hWindow
  · intro lean hLowered
    cases hLowered
    decide +kernel
  · intro column hColumn
    exact List.mem_singleton.mp hColumn
  · decide +kernel

end Edges

end RuleTrade.V1
