import RuleTrade.Strategy.DailyPlan
import RuleTrade.Strategy.DailyResults
import RuleTrade.Strategy.Fragments
import RuleTrade.Properties.DailyReading

/-! Readiness of streams over one asset. The plan adds up the lookbacks of the
indicators. A stream is available from there on when every recursive indicator
starts with the first close and nothing is divided by zero. -/

namespace RuleTrade

open Library

/-- A chain of stream operators over an observation of one asset. -/
def StreamChain (symbol : String) (observed : MarketField → PriceBasis → Prop) :
    DailyValueNode → Prop
  | .observe attrs field basis =>
      attrs.subjectKind = some .asset ∧ attrs.subjectId = some symbol ∧ observed field basis
  | .indicator _ _ window _ operand =>
      (1 ≤ window ∧ window ≤ 2000) ∧ StreamChain symbol observed operand
  | .absolute _ operand => StreamChain symbol observed operand
  | _ => False

/-- Rows before the first one that every window of a chain reaches. -/
def leadIn : DailyValueNode → Nat
  | .indicator _ kind window _ operand => leadIn operand + kind.lookback window
  | .absolute _ operand => leadIn operand
  | _ => 0

/-- Recursive indicators read a stream that starts with the first close, and
volatilities have two returns. -/
def Warm : DailyValueNode → Prop
  | .indicator _ kind window _ operand =>
      Warm operand ∧ (kind.recursive = true → leadIn operand = 0) ∧
        (kind = .realizedVolatility → 3 ≤ window)
  | .absolute _ operand => Warm operand
  | _ => True

section Reading

variable (ctx : DecimalContext) (closes : List ℚ)

/-- Value of a chain at a row, from the closes. -/
def reading : DailyValueNode → Nat → ℚ
  | .observe _ _ _, row => closes.getD row 0
  | .indicator _ kind window _ operand, row =>
      indicatorReading ctx kind window (reading operand) row
  | .absolute _ operand, row => ctx.abs (reading operand row)
  | _, _ => 0

/-- Trailing returns that a row reads have a base other than zero. -/
def basesNonzero : DailyValueNode → Nat → Bool
  | .indicator _ kind window _ operand, row =>
      kind ≠ .trailingReturn || (basesNonzero operand row &&
        basesNonzero operand (row - window) && reading ctx closes operand (row - window) ≠ 0)
  | .absolute _ operand, row => basesNonzero operand row
  | _, _ => true

/-- Volatilities up to a cutoff divide by values other than zero. -/
def RatiosDefined (cutoff : Nat) : DailyValueNode → Prop
  | .indicator _ kind _ _ operand =>
      RatiosDefined cutoff operand ∧ (kind = .realizedVolatility →
        ∀ row, leadIn operand ≤ row → row < cutoff → reading ctx closes operand row ≠ 0)
  | .absolute _ operand => RatiosDefined cutoff operand
  | _ => True

/-- Values of a chain where it has one. -/
def chainReading (node : DailyValueNode) (row : Nat) : Option ℚ :=
  if leadIn node ≤ row ∧ basesNonzero ctx closes node row = true then
    some (reading ctx closes node row)
  else none

end Reading

/-- A chain of averages of prices. -/
def AverageChain : DailyValueNode → Prop
  | .observe _ _ _ => True
  | .indicator _ kind _ _ operand => (kind = .sma ∨ kind = .ema) ∧ AverageChain operand
  | .absolute _ operand => AverageChain operand
  | _ => False

section Types

variable {symbol : String} {observed : MarketField → PriceBasis → Prop}
  {bindingId : Option String} {node : DailyValueNode} {type : SemanticType}

theorem visit_minimum (hChain : StreamChain symbol observed node) :
    node.visit.minimum = leadIn node + 1 := by
  induction node with
  | observe attrs field basis => rfl
  | indicator attrs kind window skip operand ih =>
      have hOperand := ih hChain.2
      show operand.visit.minimum + kind.lookback window = _
      rw [hOperand, leadIn]
      omega
  | absolute attrs operand ih => exact ih hChain
  | _ => exact hChain.elim

theorem averageChain_of_price (hChain : StreamChain symbol observed node)
    (hTyped : inferDailyType bindingId node = .ok type) (hPrice : type.quantity = .price) :
    AverageChain node := by
  induction node generalizing type with
  | observe attrs field basis => trivial
  | indicator attrs kind window skip operand ih =>
      obtain ⟨left, hLeft, -, hOperand, hKind⟩ := operand_type hTyped
      have hAverage := hKind hPrice
      have hLeftPrice : left.quantity = .price := by
        apply hOperand
        rcases hAverage with rfl | rfl <;> decide
      exact ⟨hAverage, ih hChain.2 hLeft hLeftPrice⟩
  | absolute attrs operand ih => exact ih hChain hTyped hPrice
  | _ => exact hChain.elim

/-- Chains over one asset are scalar. -/
theorem chain_axes (hChain : StreamChain symbol observed node)
    (hTyped : inferDailyType bindingId node = .ok type) : type.axes = [] := by
  induction node generalizing type with
  | observe attrs field basis =>
      obtain ⟨hKind, -⟩ := hChain
      simp only [inferDailyType, observeType, hKind] at hTyped
      split_ifs at hTyped <;> first | (cases hTyped; rfl) | simp_all
  | indicator attrs kind window skip operand ih =>
      obtain ⟨left, hLeft, hAxes, -⟩ := operand_type hTyped
      rw [hAxes]
      exact ih hChain.2 hLeft
  | absolute attrs operand ih => exact ih hChain hTyped
  | _ => exact hChain.elim

end Types

section Streams

variable {ctx : DecimalContext} {closes : List ℚ} {view : DailyView} {cutoff : Nat}
  {symbol : String} {observed : MarketField → PriceBasis → Prop} {bindingId : Option String}
  {node : DailyValueNode} {type : SemanticType}

theorem basesNonzero_of_average (hAverage : AverageChain node) (row : Nat) :
    basesNonzero ctx closes node row = true := by
  induction node with
  | observe attrs field basis => rfl
  | indicator attrs kind window skip operand ih =>
      have hKind : kind ≠ .trailingReturn := by
        rcases hAverage.1 with rfl | rfl <;> decide
      simp [basesNonzero, hKind]
  | absolute attrs operand ih => exact ih hAverage
  | _ => exact hAverage.elim

theorem chainReading_of_average (hAverage : AverageChain node) :
    chainReading ctx closes node = startingAt (leadIn node) (reading ctx closes node) := by
  funext row
  simp only [chainReading, basesNonzero_of_average hAverage, and_true, startingAt]

/-- A return of a chain has a value where the chain has one now and one other
than zero a window earlier. -/
theorem chainReading_trailingReturn {attrs : NodeAttrs} {window skip row : Nat} :
    chainReading ctx closes (.indicator attrs .trailingReturn window skip node) row =
      if row < window then none
      else (chainReading ctx closes node row).bind (fun price =>
        (chainReading ctx closes node (row - window)).bind (fun base =>
          if base = 0 then none else some (ctx.sub (ctx.quot price base) 1))) := by
  have hReady : (leadIn (.indicator attrs .trailingReturn window skip node) ≤ row ∧
      basesNonzero ctx closes (.indicator attrs .trailingReturn window skip node) row = true) ↔
      ¬row < window ∧ (leadIn node ≤ row ∧ basesNonzero ctx closes node row = true) ∧
        (leadIn node ≤ row - window ∧ basesNonzero ctx closes node (row - window) = true) ∧
        reading ctx closes node (row - window) ≠ 0 := by
    simp only [leadIn, IndicatorKind.lookback, basesNonzero, ne_eq, not_true_eq_false,
      decide_false, Bool.false_or, Bool.and_eq_true, decide_eq_true_eq]
    constructor
    · rintro ⟨hLead, ⟨hNow, hBase⟩, hNonzero⟩
      exact ⟨by omega, ⟨by omega, hNow⟩, ⟨by omega, hBase⟩, hNonzero⟩
    · rintro ⟨hAfter, ⟨-, hNow⟩, ⟨hLead, hBase⟩, hNonzero⟩
      exact ⟨by omega, ⟨hNow, hBase⟩, hNonzero⟩
  rw [chainReading, if_congr hReady rfl rfl]
  by_cases hBefore : row < window
  · simp [hBefore]
  · by_cases hNow : leadIn node ≤ row ∧ basesNonzero ctx closes node row = true
    · by_cases hBase : leadIn node ≤ row - window ∧
          basesNonzero ctx closes node (row - window) = true
      · by_cases hZero : reading ctx closes node (row - window) = 0
        · simp [chainReading, hBefore, hNow, hBase, hZero]
        · simp [chainReading, hBefore, hNow, hBase, hZero, reading, indicatorReading]
      · simp [chainReading, hBefore, hNow, hBase]
    · simp [chainReading, hBefore, hNow]

/-- Rows of an indicator over a chain that has its values. -/
theorem transformRow_chain {attrs : NodeAttrs} {kind : IndicatorKind} {window skip row : Nat}
    {current : Option ℚ} (hCurrent : current = chainReading ctx closes node row)
    (hWindow : 1 ≤ window) (hAverage : kind ≠ .trailingReturn → AverageChain node)
    (hWarm : Warm (.indicator attrs kind window skip node))
    (hRatios : RatiosDefined ctx closes cutoff (.indicator attrs kind window skip node))
    (hRow : row < cutoff + 1) :
    transformRow ctx kind window (tabulate (cutoff + 1) (chainReading ctx closes node))
        (tabulate row (chainReading ctx closes (.indicator attrs kind window skip node))) row
        current =
      .ok (chainReading ctx closes (.indicator attrs kind window skip node) row) := by
  obtain ⟨-, hSeed, hReturns⟩ := hWarm
  have hWhole (hKind : kind ≠ .trailingReturn) :
      chainReading ctx closes (.indicator attrs kind window skip node) =
        startingAt (leadIn node + kind.lookback window)
          (indicatorReading ctx kind window (reading ctx closes node)) := by
    funext row
    simp [chainReading, basesNonzero, hKind, startingAt, leadIn, reading]
  cases kind with
  | trailingReturn =>
      rw [hCurrent, transformRow_trailingReturn hRow]
      rw [chainReading_trailingReturn]
  | sma =>
      rw [chainReading_of_average (hAverage (by decide)), hWhole (by decide)]
      exact transformRow_sma hWindow hRow
  | ema =>
      rw [chainReading_of_average (hAverage (by decide)), hWhole (by decide), hSeed rfl,
        Nat.zero_add]
      exact transformRow_ema hWindow hRow
  | rsiWilderLeanCompat =>
      rw [chainReading_of_average (hAverage (by decide)), hWhole (by decide), hSeed rfl,
        Nat.zero_add]
      exact transformRow_rsi_startingAt hRow
  | realizedVolatility =>
      rw [chainReading_of_average (hAverage (by decide)), hWhole (by decide)]
      exact transformRow_volatility hWindow hRow (hReturns rfl)
        (fun i hFirst hLast => hRatios.2 rfl i hFirst (by omega))

variable (hCompleted : ∀ field basis, observed field basis →
    view.completed symbol field basis = .ok ((closes.map some).take (cutoff + 1)))
  (hCutoff : cutoff < closes.length)

include hCompleted hCutoff

/-- A warm chain has a value at each row its windows reach. -/
theorem stream_of_warm (hChain : StreamChain symbol observed node)
    (hTyped : inferDailyType bindingId node = .ok type) (hWarm : Warm node)
    (hRatios : RatiosDefined ctx closes cutoff node) :
    stream ctx view symbol node = .ok (tabulate (cutoff + 1) (chainReading ctx closes node)) := by
  induction node generalizing type with
  | observe attrs field basis =>
      rw [stream, hCompleted field basis hChain.2.2]
      congr 1
      apply List.ext_getElem
      · simp
        omega
      · intro row hRow hRow'
        rw [length_tabulate] at hRow'
        have hClose : row < closes.length := by omega
        simp [tabulate, chainReading, leadIn, basesNonzero, reading, hClose]
  | indicator attrs kind window skip operand ih =>
      obtain ⟨left, hLeft, -, hPrice, -⟩ := operand_type hTyped
      rw [stream, ih hChain.2 hLeft hWarm.1 hRatios.1]
      apply transform_tabulate
      intro row hRow
      exact transformRow_chain rfl hChain.1.1
        (fun hKind => averageChain_of_price hChain.2 hLeft (hPrice hKind)) hWarm hRatios hRow
  | absolute attrs operand ih =>
      rw [stream, ih hChain hTyped hWarm hRatios]
      show Except.ok ((tabulate _ _).map _) = _
      rw [tabulate, List.map_map]
      congr 2
      funext row
      by_cases hReady : leadIn operand ≤ row ∧ basesNonzero ctx closes operand row = true
      · simp [chainReading, leadIn, basesNonzero, reading, hReady]
      · simp [chainReading, leadIn, basesNonzero, hReady]
  | _ => exact hChain.elim

/-- A chain that is not warm, or whose ratios are not defined, has no value. -/
theorem stream_absent (hChain : StreamChain symbol observed node)
    (hTyped : inferDailyType bindingId node = .ok type)
    (h : ¬(Warm node ∧ RatiosDefined ctx closes cutoff node)) {series : Series}
    (hStream : stream ctx view symbol node = .ok series) : Absent series := by
  induction node generalizing type series with
  | observe attrs field basis => exact absurd ⟨trivial, trivial⟩ h
  | indicator attrs kind window skip operand ih =>
      obtain ⟨left, hLeft, -, hPrice, -⟩ := operand_type hTyped
      obtain ⟨source, hSource, hTransform⟩ := except_bind_ok.mp hStream
      by_cases hOperand : Warm operand ∧ RatiosDefined ctx closes cutoff operand
      · have hOwn : ¬((kind.recursive = true → leadIn operand = 0) ∧
            (kind = .realizedVolatility → 3 ≤ window) ∧ (kind = .realizedVolatility →
              ∀ row, leadIn operand ≤ row → row < cutoff → reading ctx closes operand row ≠ 0)) :=
          fun ⟨hSeed, hReturns, hNonzero⟩ =>
            h ⟨⟨hOperand.1, hSeed, hReturns⟩, hOperand.2, hNonzero⟩
        have hKind : kind ≠ .trailingReturn := by
          rintro rfl
          exact hOwn (by simp [IndicatorKind.recursive])
        have hAverage := averageChain_of_price hChain.2 hLeft (hPrice hKind)
        rw [stream_of_warm hCompleted hCutoff hChain.2 hLeft hOperand.1 hOperand.2] at hSource
        obtain rfl := Except.ok.inj hSource
        rw [chainReading_of_average hAverage] at hTransform
        have hWindow := hChain.1.1
        cases kind with
        | trailingReturn => exact absurd rfl hKind
        | sma => exact absurd (by simp [IndicatorKind.recursive]) hOwn
        | ema => exact absent_ema hWindow (fun hSeed => hOwn (by simp [hSeed])) hTransform
        | rsiWilderLeanCompat =>
            exact absent_rsi hWindow (fun hSeed => hOwn (by simp [hSeed])) hTransform
        | realizedVolatility =>
            rcases Nat.lt_or_ge window 3 with hShort | hReturns
            · exact absent_volatility hShort hTransform
            · by_contra hPresent
              refine hOwn ⟨?_, fun _ => hReturns, fun _ row hFirst hLast hZero => hPresent ?_⟩
              · intro hRecursive
                cases hRecursive
              · exact absent_volatility_of_zero hWindow hReturns hFirst (by omega) hZero hTransform
      · exact (ih hChain.2 hLeft hOperand hSource).transform hChain.1.1 hTransform
  | absolute attrs operand ih =>
      obtain ⟨source, hSource, hMap⟩ := except_bind_ok.mp hStream
      obtain rfl := Except.ok.inj hMap
      intro value hValue
      obtain ⟨v, hv, rfl⟩ := List.mem_map.mp hValue
      rw [ih hChain hTyped h hSource v hv]
      rfl
  | _ => exact hChain.elim

/-- A chain has a last value when the cutoff is past its lead-in, it is warm,
and nothing it reads is divided by zero. -/
theorem last_of_stream_iff (hChain : StreamChain symbol observed node)
    (hTyped : inferDailyType bindingId node = .ok type) :
    (∃ series value, stream ctx view symbol node = .ok series ∧
      series.getLast? = some (some value)) ↔
    leadIn node ≤ cutoff ∧ Warm node ∧ RatiosDefined ctx closes cutoff node ∧
      basesNonzero ctx closes node cutoff = true := by
  by_cases hReady : Warm node ∧ RatiosDefined ctx closes cutoff node
  · have hStream := stream_of_warm hCompleted hCutoff hChain hTyped hReady.1 hReady.2
    have hLast : (tabulate (cutoff + 1) (chainReading ctx closes node)).getLast? =
        some (chainReading ctx closes node cutoff) := by
      rw [List.getLast?_eq_getElem?, length_tabulate, Nat.add_sub_cancel,
        getElem?_tabulate (Nat.lt_succ_self cutoff)]
    constructor
    · rintro ⟨series, value, hSeries, hValue⟩
      obtain rfl := Except.ok.inj (hStream.symm.trans hSeries)
      rw [hLast, Option.some.injEq, chainReading] at hValue
      split_ifs at hValue with hAvailable
      exact ⟨hAvailable.1, hReady.1, hReady.2, hAvailable.2⟩
    · rintro ⟨hLead, -, -, hBases⟩
      refine ⟨_, reading ctx closes node cutoff, hStream, ?_⟩
      rw [hLast, chainReading, if_pos ⟨hLead, hBases⟩]
  · constructor
    · rintro ⟨series, value, hSeries, hValue⟩
      have hAbsent := stream_absent hCompleted hCutoff hChain hTyped hReady hSeries
      cases hAbsent _ (List.mem_of_getLast? hValue)
    · rintro ⟨-, hWarm, hRatios, -⟩
      exact absurd ⟨hWarm, hRatios⟩ hReady

end Streams

section Positive

variable {sqrt : ℚ → ℚ} {closes : List ℚ} {symbol : String}
  {observed : MarketField → PriceBasis → Prop} {bindingId : Option String}
  {node : DailyValueNode} {type : SemanticType}

end Positive

section Evaluation

variable {ctx : DecimalContext} {view : DailyView} {symbol : String}
  {observed : MarketField → PriceBasis → Prop} {candidate bindingId : Option String}
  {node : DailyValueNode} {type : SemanticType}

/-- A scalar result with a value. -/
def HasValue (evaluated : Except DailyValueError DailyValueResult) : Prop :=
  ∃ result cell, evaluated = .ok result ∧ result.cells.get? [] = some cell ∧
    cell.value.isSome = true

theorem sourceObserve_chain (hChain : StreamChain symbol observed node) :
    ∃ attrs, sourceObserve node = .ok attrs ∧ attrs.subjectKind = some .asset ∧
      attrs.subjectId = some symbol := by
  induction node with
  | observe attrs field basis => exact ⟨attrs, rfl, hChain.1, hChain.2.1⟩
  | indicator attrs kind window skip operand ih => exact ih hChain.2
  | absolute attrs operand ih => exact ih hChain
  | _ => exact hChain.elim

theorem evaluateCurrent_hasValue_iff {attrs : NodeAttrs} {missing : String}
    (hKind : attrs.subjectKind = some .asset) (hSymbol : attrs.subjectId = some symbol)
    (hAxes : type.axes = []) :
    HasValue (evaluateCurrent ctx view node attrs missing type candidate) ↔
      ∃ series value, stream ctx view symbol node = .ok series ∧
        series.getLast? = some (some value) := by
  have hSymbols : observedSymbols view attrs candidate = .ok [symbol] := by
    simp [observedSymbols, hKind, hSymbol]
  rw [evaluateCurrent, hSymbols]
  show HasValue (currentCells ctx view node missing [symbol] >>= _) ↔ _
  cases hStream : stream ctx view symbol node with
  | error e =>
      have hCells : currentCells ctx view node missing [symbol] = .error e := by
        rw [currentCells, List.foldlM_cons, hStream]
        rfl
      rw [hCells]
      constructor
      · rintro ⟨_, _, hResult, -⟩
        cases hResult
      · rintro ⟨_, _, hSeries, -⟩
        cases hSeries
  | ok series =>
      cases hLast : series.getLast? with
      | none =>
          have hCells : currentCells ctx view node missing [symbol] =
              .error .indexOutOfRange := by
            simp only [currentCells, List.foldlM_cons, hStream, except_ok_bind, hLast]
            rfl
          rw [hCells]
          constructor
          · rintro ⟨_, _, hResult, -⟩
            cases hResult
          · rintro ⟨_, _, hSeries, hValue⟩
            cases hSeries
            rw [hLast] at hValue
            cases hValue
      | some value =>
          obtain ⟨cell, hCell, hValue⟩ : ∃ cell : DailyCell, currentCells ctx view node missing
              [symbol] = .ok (Dict.empty.set [.member symbol] cell) ∧ cell.value = value := by
            simp only [currentCells, List.foldlM_cons, hStream, except_ok_bind, hLast]
            exact ⟨_, rfl, rfl⟩
          rw [hCell]
          show HasValue (if type.axes = [] then _ else _) ↔ _
          rw [if_pos hAxes]
          constructor
          · rintro ⟨_, found, hResult, hFound, hSome⟩
            cases hResult
            rw [Dict.get?_set_self, Option.some.injEq] at hFound
            rw [← hFound, hValue] at hSome
            obtain ⟨v, rfl⟩ := Option.isSome_iff_exists.mp hSome
            exact ⟨series, v, rfl, hLast⟩
          · rintro ⟨_, v, hSeries, hV⟩
            cases hSeries
            rw [hLast, Option.some.injEq] at hV
            exact ⟨_, cell, rfl, Dict.get?_set_self .., by rw [hValue, hV]; rfl⟩

/-- A chain evaluates to a value exactly when its stream ends with one. -/
theorem evaluate_hasValue_iff (hChain : StreamChain symbol observed node)
    (hTyped : inferDailyType bindingId node = .ok type) :
    HasValue (evaluate ctx view candidate bindingId node) ↔
      ∃ series value, stream ctx view symbol node = .ok series ∧
        series.getLast? = some (some value) := by
  induction node generalizing type with
  | observe attrs field basis =>
      rw [evaluate, typed_eq hTyped]
      exact evaluateCurrent_hasValue_iff hChain.1 hChain.2.1 (chain_axes hChain hTyped)
  | indicator attrs kind window skip operand ih =>
      obtain ⟨source, hSource, hKind, hSymbol⟩ := sourceObserve_chain hChain
      rw [evaluate, typed_eq hTyped]
      simp only [hSource]
      exact evaluateCurrent_hasValue_iff hKind hSymbol (chain_axes hChain hTyped)
  | absolute attrs operand ih =>
      have hStream : (∃ series value, stream ctx view symbol (.absolute attrs operand) = .ok series ∧
          series.getLast? = some (some value)) ↔
          ∃ series value, stream ctx view symbol operand = .ok series ∧
            series.getLast? = some (some value) := by
        simp only [stream]
        cases stream ctx view symbol operand with
        | error e => simp [except_bind_ok]
        | ok series =>
            simp only [except_ok_bind, Except.ok.injEq, exists_and_left, exists_eq_left',
              List.getLast?_map]
            cases series.getLast? with
            | none => simp
            | some value => cases value <;> simp
      rw [hStream, ← ih hChain hTyped, evaluate, typed_eq hTyped]
      simp only [except_ok_bind]
      constructor
      · rintro ⟨result, cell, hResult, hCell, hValue⟩
        obtain ⟨source, hSource, hMapped⟩ := except_bind_ok.mp hResult
        cases hMapped
        rw [Dict.get?_mapValues, Option.map_eq_some_iff] at hCell
        obtain ⟨inner, hInner, rfl⟩ := hCell
        exact ⟨source, inner, hSource, hInner, by simpa using hValue⟩
      · rintro ⟨source, cell, hSource, hCell, hValue⟩
        rw [hSource]
        refine ⟨_, { cell with value := cell.value.map ctx.abs }, rfl, ?_, by simpa using hValue⟩
        rw [Dict.get?_mapValues, hCell]
        rfl
  | _ => exact hChain.elim

end Evaluation

section Plan

variable {snapshot : DailyMarketSnapshot} {node : DailyValueNode} {symbol : String}
  {closes : List ℚ} {cutoff : Nat} {bindingId : Option String} {type : SemanticType}

/-- A chain over a complete series of a snapshot. -/
def CompleteChain (snapshot : DailyMarketSnapshot) (symbol : String) (closes : List ℚ) :
    DailyValueNode → Prop :=
  StreamChain symbol
    (fun field basis => snapshot.fieldValues symbol field basis = .ok (closes.map some))

theorem length_closes (hChain : CompleteChain snapshot symbol closes node) :
    closes.length = snapshot.dates.length := by
  induction node with
  | observe attrs field basis => simpa using length_fieldValues hChain.2.2
  | indicator attrs kind window skip operand ih => exact ih hChain.2
  | absolute attrs operand ih => exact ih hChain
  | _ => exact hChain.elim

theorem hasValue_iff (ctx : DecimalContext) (candidate : Option String)
    (hChain : CompleteChain snapshot symbol closes node)
    (hTyped : inferDailyType bindingId node = .ok type) (hCutoff : cutoff < snapshot.dates.length) :
    HasValue (evaluate ctx (snapshot.view cutoff) candidate bindingId node) ↔
      leadIn node ≤ cutoff ∧ Warm node ∧ RatiosDefined ctx closes cutoff node ∧
        basesNonzero ctx closes node cutoff = true := by
  rw [evaluate_hasValue_iff hChain hTyped]
  refine last_of_stream_iff (fun field basis hField => ?_) ?_ hChain hTyped
  · simp only [DailyMarketSnapshot.view, hField, except_ok_bind]
  · rw [length_closes hChain]
    exact hCutoff

/-- The plan is exact while the lead-in is not over, and from then on for the
chains that are warm and divide by nothing but values other than zero. -/
theorem readiness_exact_iff (ctx : DecimalContext) (candidate : Option String)
    {plan : TypedValuePlan} (hChain : CompleteChain snapshot symbol closes node)
    (hPlan : planDailyValue bindingId node = .ok plan)
    (hCutoff : cutoff < snapshot.dates.length) :
    (HasValue (evaluate ctx (snapshot.view cutoff) candidate bindingId node) ↔
      plan.history.minimumHistoryLowerBound ≤ cutoff + 1) ↔
    cutoff < leadIn node ∨ (Warm node ∧ RatiosDefined ctx closes cutoff node ∧
      basesNonzero ctx closes node cutoff = true) := by
  obtain ⟨type, hTyped, hVisited⟩ := except_bind_ok.mp hPlan
  obtain rfl := Except.ok.inj hVisited
  rw [hasValue_iff ctx candidate hChain hTyped hCutoff]
  show (_ ↔ node.visit.minimum ≤ cutoff + 1) ↔ _
  rw [visit_minimum hChain, Nat.add_le_add_iff_right]
  rcases Nat.lt_or_ge cutoff (leadIn node) with hBefore | hReached
  · simp [hBefore, Nat.not_le.mpr hBefore]
  · simp [hReached, Nat.not_lt.mpr hReached]

def averageOfAverage : DailyValueNode :=
  .indicator { semanticId := "ema" } .ema 2 0
    (.indicator { semanticId := "sma" } .sma 2 0
      (.observe { semanticId := "close", subjectKind := some .asset, subjectId := some "SPY" }
        .close .adjusted))

def fourCloses : DailyMarketSnapshot :=
  .single "SPY" (⟨2024, 1, 2⟩, some 1)
    [(⟨2024, 1, 3⟩, some 2), (⟨2024, 1, 4⟩, some 3), (⟨2024, 1, 5⟩, some 4)]

theorem averageOfAverage_complete :
    CompleteChain fourCloses "SPY" [1, 2, 3, 4] averageOfAverage :=
  ⟨by decide, by decide, rfl, rfl, rfl⟩

/-- An exponential average of two simple averages of two closes. -/
theorem readiness_exact_iff_averageOfAverage :
    ∃ plan, planDailyValue none averageOfAverage = .ok plan ∧
      ((HasValue (evaluate (.exact id) (fourCloses.view 1) none none averageOfAverage) ↔
        plan.history.minimumHistoryLowerBound ≤ 2) ↔
      1 < leadIn averageOfAverage ∨ (Warm averageOfAverage ∧
        RatiosDefined (.exact id) [1, 2, 3, 4] 1 averageOfAverage ∧
        basesNonzero (.exact id) [1, 2, 3, 4] averageOfAverage 1 = true)) :=
  ⟨_, rfl, readiness_exact_iff (.exact id) none averageOfAverage_complete rfl (by decide)⟩

/-- It is planned for three closes and has no value at any cutoff. -/
theorem averageOfAverage_never_ready :
    ¬∀ (ctx : DecimalContext) (snapshot : DailyMarketSnapshot) (node : DailyValueNode)
      (symbol : String) (closes : List ℚ) (cutoff : Nat) (plan : TypedValuePlan),
      CompleteChain snapshot symbol closes node → (∀ close ∈ closes, 0 < close) →
      closes.Nodup → cutoff < snapshot.dates.length → planDailyValue none node = .ok plan →
      (HasValue (evaluate ctx (snapshot.view cutoff) none none node) ↔
        plan.history.minimumHistoryLowerBound ≤ cutoff + 1) := by
  intro h
  have hReady := h (.exact id) fourCloses averageOfAverage "SPY" [1, 2, 3, 4] 3 _
    averageOfAverage_complete (by decide +kernel) (by decide +kernel) (by decide) rfl
  have hValue := (hasValue_iff (.exact id) none averageOfAverage_complete rfl
    (by decide)).mp (hReady.mpr (by decide))
  exact absurd (hValue.2.1.2.1 rfl) (by decide)

end Plan

end RuleTrade
