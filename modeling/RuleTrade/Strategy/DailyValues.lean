import RuleTrade.Strategy.DailyNode
import RuleTrade.Library.Calendar
import RuleTrade.Library.Decimal
import RuleTrade.Library.Dict
import RuleTrade.Library.Sequence

/-! Reference evaluation of daily Values over a pinned snapshot. An evaluator
stands at one cutoff row and reads series only up to that row. -/

namespace RuleTrade

open Library

/-- Exceptions that leave the evaluator. -/
inductive DailyValueError where
  | semantic (error : SemanticTypeError)
  | candidateContextRequired
  | providerFieldMissing (symbol : String) (field : MarketField) (basis : PriceBasis)
  | expectedStreamExpression
  | streamSourceMustBeObserve
  | domainMissing (domainId : String)
  | cellMissing
  | observationMissing
  | indexOutOfRange
  | division (failure : DivisionFailure)
  deriving DecidableEq, Repr

structure DailyCell where
  value : Option ℚ
  reason : Option String := none
  deriving DecidableEq

/-- One key of a coordinate: a member of an asset axis or a session. -/
inductive AxisKey where
  | member (symbol : String)
  | session (date : CalendarDate)
  deriving DecidableEq

structure DailyValueResult where
  semanticType : SemanticType
  axes : List Axis
  cells : Dict (List AxisKey) DailyCell
  observedAt : List CalendarDate

abbrev Series := List (Option ℚ)

/-- Pinned in-memory source. Series are as long as the dates, and domains are
non-empty lists of distinct members. -/
structure DailyMarketSnapshot where
  snapshotId : String
  clock : Clock
  series : Dict String (Dict (MarketField × PriceBasis) Series)
  domains : Dict String (List String)
  dates : List CalendarDate
  dates_nonempty : dates ≠ []
  series_lengths : ∀ fields ∈ series.values, ∀ values ∈ fields.values,
    values.length = dates.length
  domains_valid : ∀ members ∈ domains.values, members ≠ [] ∧ members.Nodup

def DailyMarketSnapshot.fieldValues (snapshot : DailyMarketSnapshot) (symbol : String)
    (field : MarketField) (basis : PriceBasis) : Except DailyValueError Series :=
  match (snapshot.series.get? symbol).bind (fun fields => fields.get? (field, basis)) with
  | some values => .ok values
  | none => .error (.providerFieldMissing symbol field basis)

/-- What an evaluator at a cutoff can see: all dates and domains, and each
series up to and including the cutoff row. -/
structure DailyView where
  dates : List CalendarDate
  domains : Dict String (List String)
  cutoffIndex : Nat
  completed : String → MarketField → PriceBasis → Except DailyValueError Series

def DailyMarketSnapshot.view (snapshot : DailyMarketSnapshot) (cutoffIndex : Nat) : DailyView where
  dates := snapshot.dates
  domains := snapshot.domains
  cutoffIndex := cutoffIndex
  completed symbol field basis := do
    let values ← snapshot.fieldValues symbol field basis
    .ok (values.take (cutoffIndex + 1))

section Transform

variable (ctx : DecimalContext)

/-- Change into row `index`, which needs both rows observed. -/
def seriesChange (series : Series) (index : Nat) : Except DailyValueError ℚ :=
  match series[index]?, series[index - 1]? with
  | some (some current), some (some previous) => .ok (ctx.sub current previous)
  | some _, some _ => .error .observationMissing
  | _, _ => .error .indexOutOfRange

/-- Average gain and loss smoothed from the first ready observation to `last`. -/
def wilderAverages (period last : Nat) (series : Series) : Except DailyValueError (ℚ × ℚ) := do
  let changes ← ((List.range period).map (· + 1)).mapM (seriesChange ctx series)
  let gain := ctx.quot (ctx.sum (changes.map (fun c => max c 0))) period
  let loss := ctx.quot (ctx.sum (changes.map (fun c => max (ctx.neg c) 0))) period
  ((List.range (last - period)).map (· + (period + 1))).foldlM (fun averages index => do
    let c ← seriesChange ctx series index
    .ok (ctx.quot (ctx.add (ctx.mul averages.1 (period - 1 : ℚ)) (max c 0)) period,
      ctx.quot (ctx.add (ctx.mul averages.2 (period - 1 : ℚ)) (max (ctx.neg c) 0)) period))
    (gain, loss)

def relativeStrength (averages : ℚ × ℚ) : ℚ :=
  if averages.1 = 0 ∧ averages.2 = 0 then 50
  else if averages.2 = 0 then 100
  else ctx.sub 100 (ctx.quot 100 (ctx.add 1 (ctx.quot averages.1 averages.2)))

/-- Sum of squared deviations from the mean, over one less than the count. -/
def sampleVariance (values : List ℚ) : ℚ :=
  let mean := ctx.quot (ctx.sum values) values.length
  ctx.quot (ctx.sum (values.map (fun v => ctx.mul (ctx.sub v mean) (ctx.sub v mean))))
    (values.length - 1 : ℚ)

def simpleReturns : List ℚ → Except DailyValueError (List ℚ)
  | previous :: current :: rest =>
      match ctx.div current previous with
      | .error failure => .error (.division failure)
      | .ok ratio => do
          let returns ← simpleReturns (current :: rest)
          .ok (ctx.sub ratio 1 :: returns)
  | _ => .ok []

/-- Indicator value at row `last`, given the values of the earlier rows. -/
def transformRow (kind : IndicatorKind) (period : Nat) (series earlier : Series) (last : Nat)
    (current : Option ℚ) : Except DailyValueError (Option ℚ) :=
  let window := Sequence.slice series ((last : Int) - period + 1) (last + 1)
  let values := window.filterMap id
  match kind with
  | .trailingReturn =>
      if last < period then .ok none
      else match current, series[last - period]? with
        | some price, some (some base) =>
            .ok (if base = 0 then none else some (ctx.sub (ctx.quot price base) 1))
        | _, _ => .ok none
  | .sma =>
      if window.length ≠ period ∨ none ∈ window then .ok none
      else .ok (some (ctx.quot (ctx.sum values) period))
  | .ema =>
      if window.length ≠ period ∨ none ∈ window then .ok none
      else
        let alpha := ctx.quot 2 (period + 1)
        if last + 1 = period then .ok (some (ctx.quot (ctx.sum values) period))
        else match earlier.getLast?.join with
          | none => .ok none
          | some previous =>
              .ok (some (ctx.add (ctx.mul alpha (values.getLastD 0))
                (ctx.mul (ctx.sub 1 alpha) previous)))
  | .rsiWilderLeanCompat =>
      if window.length ≠ period ∨ none ∈ window then .ok none
      else if last < period then .ok none
      else do
        let averages ← wilderAverages ctx period last series
        .ok (some (relativeStrength ctx averages))
  | .realizedVolatility =>
      if window.length ≠ period ∨ none ∈ window then .ok none
      else do
        let returns ← simpleReturns ctx values
        if returns.length < 2 then .ok none
        else .ok (some (ctx.mul (ctx.sqrt (sampleVariance ctx returns)) (ctx.sqrt 252)))

def transform (kind : IndicatorKind) (period : Nat) (series : Series) :
    Except DailyValueError Series :=
  (Sequence.enumerate series).foldlM (fun earlier row => do
    let value ← transformRow ctx kind period series earlier row.1 row.2
    .ok (earlier ++ [value])) []

end Transform

section Evaluation

variable (ctx : DecimalContext) (view : DailyView)

/-- Symbols an observation stands for. -/
def observedSymbols (attrs : NodeAttrs) (candidate : Option String) :
    Except DailyValueError (List String) :=
  match attrs.subjectKind with
  | some .asset => .ok [attrs.subjectId.getD ""]
  | some .candidate =>
      match candidate with
      | none => .error .candidateContextRequired
      | some symbol => .ok [symbol]
  | _ =>
      match view.domains.get? (attrs.subjectId.getD "") with
      | none => .error (.domainMissing (attrs.subjectId.getD ""))
      | some members => .ok members

def stream (symbol : String) : DailyValueNode → Except DailyValueError Series
  | .observe _ field basis => view.completed symbol field basis
  | .indicator _ kind observations _ operand => do
      let series ← stream symbol operand
      transform ctx kind observations series
  | .absolute _ operand => do
      let series ← stream symbol operand
      .ok (series.map (Option.map ctx.abs))
  | _ => .error .expectedStreamExpression

def sourceObserve : DailyValueNode → Except DailyValueError NodeAttrs
  | .indicator _ _ _ _ operand | .absolute _ operand => sourceObserve operand
  | .observe attrs _ _ => .ok attrs
  | _ => .error .streamSourceMustBeObserve

def axisKeys : Axis → Except DailyValueError (List AxisKey)
  | .asset domainId =>
      match view.domains.get? domainId with
      | none => .error (.domainMissing domainId)
      | some members => .ok (members.map .member)
  | .time observations skip =>
      let last : Int := (view.cutoffIndex : Int) - skip
      .ok ((Sequence.slice view.dates (max 0 (last - observations + 1)) (last + 1)).map .session)

/-- Rows every axis key of a list of axes ranges over. -/
def coordinates (axes : List Axis) : Except DailyValueError (List (List AxisKey)) := do
  let keys ← axes.mapM (axisKeys view)
  .ok (Sequence.product keys)

def observedNow : List CalendarDate := (view.dates[view.cutoffIndex]?).toList

/-- Latest value of a stream for each symbol. -/
def currentCells (node : DailyValueNode) (missing : String) (symbols : List String) :
    Except DailyValueError (Dict (List AxisKey) DailyCell) :=
  symbols.foldlM (fun cells symbol => do
    let series ← stream ctx view symbol node
    match series.getLast? with
    | none => .error .indexOutOfRange
    | some value =>
        .ok (cells.set [.member symbol]
          { value := value, reason := if value.isSome then none else some missing })) Dict.empty

/-- Current value of an observation or an indicator over its symbols. -/
def evaluateCurrent (node : DailyValueNode) (attrs : NodeAttrs) (missing : String)
    (inferred : SemanticType) (candidate : Option String) :
    Except DailyValueError DailyValueResult := do
  let symbols ← observedSymbols view attrs candidate
  let cells ← currentCells ctx view node missing symbols
  if inferred.axes = [] then
    match cells.values.head? with
    | none => .error .cellMissing
    | some cell => .ok ⟨inferred, inferred.axes, Dict.empty.set [] cell, observedNow view⟩
  else .ok ⟨inferred, inferred.axes, cells, observedNow view⟩

def evaluateHistory (source : DailyValueNode) (observations skip : Nat)
    (inferred : SemanticType) (candidate : Option String) :
    Except DailyValueError DailyValueResult := do
  let attrs ← sourceObserve source
  let last : Int := (view.cutoffIndex : Int) - skip
  let start := max 0 (last - observations + 1)
  let dates := Sequence.slice view.dates start (last + 1)
  let symbols ← observedSymbols view attrs candidate
  let cells ← symbols.foldlM (fun cells symbol => do
    let values ← stream ctx view symbol source
    (Sequence.enumerate dates).foldlM (fun cells row =>
      match values[start.toNat + row.1]? with
      | none => .error DailyValueError.indexOutOfRange
      | some value =>
          let coordinate := if attrs.subjectKind = some .groupMembers then
            [AxisKey.member symbol, .session row.2] else [.session row.2]
          .ok (cells.set coordinate
            { value := value,
              reason := if value.isSome then none else some "insufficient_history" })) cells)
    Dict.empty
  .ok ⟨inferred, inferred.axes, cells, dates⟩

/-- Reduce the available numbers, in the order of the removed axis. -/
def reduceValues (reduction : ReductionOperation) (values : List ℚ) : DailyCell :=
  let ordered := Sequence.sortBy id values
  let middle := values.length / 2
  match reduction with
  | .mean => { value := some (ctx.quot (ctx.sum values) values.length) }
  | .median =>
      { value := some (if values.length % 2 = 1 then ordered.getD middle 0
          else ctx.quot (ctx.add (ordered.getD (middle - 1) 0) (ordered.getD middle 0)) 2) }
  | .min => { value := some (ordered.headD 0) }
  | .max => { value := some (ordered.getLastD 0) }
  | .std =>
      if values.length < 2 then { value := none, reason := some "insufficient_coverage" }
      else { value := some (ctx.sqrt (sampleVariance ctx values)) }

def evaluateReduce (axis : AxisName) (reduction : ReductionOperation)
    (missingPolicy : MissingPolicy) (minimumCount : Nat) (minimumFraction : ℚ)
    (inferred : SemanticType) (source : DailyValueResult) :
    Except DailyValueError DailyValueResult := do
  let index := source.axes.findIdx (fun a => a.name = axis)
  match source.axes[index]? with
  | none => .error (.semantic .reductionAxisAbsent)
  | some removed =>
      let retained := source.axes.filter (fun a => a.name ≠ axis)
      let outer ← coordinates view retained
      let inner ← axisKeys view removed
      let required : Int := max minimumCount ⌈ctx.mul inner.length minimumFraction⌉
      let results ← outer.foldlM (fun results coordinate => do
        let cells ← inner.mapM (fun key =>
          match source.cells.get? (coordinate.insertIdx index key) with
          | none => .error DailyValueError.cellMissing
          | some cell => .ok cell)
        let values := cells.filterMap DailyCell.value
        if (values.length : Int) < required ∨
            (values.length ≠ cells.length ∧ missingPolicy = .requireAll) then
          .ok (results.set coordinate { value := none, reason := some "insufficient_coverage" })
        else .ok (results.set coordinate (reduceValues ctx reduction values))) Dict.empty
      .ok ⟨inferred, retained, results, source.observedAt⟩

/-- Part of a coordinate that belongs to the axes of an operand. -/
def project (axes operandAxes : List Axis) (coordinate : List AxisKey) : List AxisKey :=
  operandAxes.filterMap (fun child => coordinate[axes.findIdx (fun a => a.name = child.name)]?)

def applyOperator (operator : ArithmeticOperator) (x y : ℚ) : Except DivisionFailure ℚ :=
  match operator with
  | .add => .ok (ctx.add x y)
  | .subtract => .ok (ctx.sub x y)
  | .multiply => .ok (ctx.mul x y)
  | .divide => ctx.div x y

def combineCells (operator : ArithmeticOperator) (left right : DailyCell) :
    Except DailyValueError DailyCell :=
  match left.value, right.value with
  | some x, some y =>
      match applyOperator ctx operator x y with
      | .ok value => .ok { value := some value }
      | .error .divisionByZero => .ok { value := none, reason := some "division_by_zero" }
      | .error failure => .error (.division failure)
  | _, _ => .ok { value := none, reason := left.reason.or right.reason }

def evaluateArithmetic (operator : ArithmeticOperator) (inferred : SemanticType)
    (left right : DailyValueResult) : Except DailyValueError DailyValueResult := do
  let outer ← coordinates view inferred.axes
  let results ← outer.foldlM (fun results coordinate =>
    match left.cells.get? (project inferred.axes left.axes coordinate),
        right.cells.get? (project inferred.axes right.axes coordinate) with
    | some l, some r => do
        let cell ← combineCells ctx operator l r
        .ok (results.set coordinate cell)
    | _, _ => .error DailyValueError.cellMissing) Dict.empty
  .ok ⟨inferred, inferred.axes, results,
    if left.observedAt = [] then right.observedAt else left.observedAt⟩

def typed (bindingId : Option String) (node : DailyValueNode) :
    Except DailyValueError SemanticType :=
  (inferDailyType bindingId node).mapError .semantic

/-- Every subexpression is typed before it is evaluated. -/
def evaluate (candidate bindingId : Option String) :
    DailyValueNode → Except DailyValueError DailyValueResult
  | .literal attrs value quantity unit refinement => do
      let inferred ← typed bindingId (.literal attrs value quantity unit refinement)
      .ok ⟨inferred, [], Dict.empty.set [] { value := some value }, observedNow view⟩
  | .observe attrs field basis => do
      let inferred ← typed bindingId (.observe attrs field basis)
      evaluateCurrent ctx view (.observe attrs field basis) attrs "observation_unavailable"
        inferred candidate
  | .indicator attrs kind observations skip operand => do
      let node := DailyValueNode.indicator attrs kind observations skip operand
      let inferred ← typed bindingId node
      let source ← sourceObserve node
      evaluateCurrent ctx view node source "insufficient_history" inferred candidate
  | .current attrs operand => do
      let _ ← typed bindingId (.current attrs operand)
      evaluate candidate bindingId operand
  | .absolute attrs operand => do
      let inferred ← typed bindingId (.absolute attrs operand)
      let source ← evaluate candidate bindingId operand
      .ok ⟨inferred, source.axes,
        source.cells.mapValues (fun cell => { cell with value := cell.value.map ctx.abs }),
        source.observedAt⟩
  | .history attrs observations skip operand => do
      let inferred ← typed bindingId (.history attrs observations skip operand)
      evaluateHistory ctx view operand observations skip inferred candidate
  | .reduce attrs axis reduction missingPolicy minimumCount minimumFraction operand => do
      let inferred ← typed bindingId
        (.reduce attrs axis reduction missingPolicy minimumCount minimumFraction operand)
      let source ← evaluate candidate bindingId operand
      evaluateReduce ctx view axis reduction missingPolicy minimumCount minimumFraction
        inferred source
  | .arithmetic attrs operator l r => do
      let inferred ← typed bindingId (.arithmetic attrs operator l r)
      let left ← evaluate candidate bindingId l
      let right ← evaluate candidate bindingId r
      evaluateArithmetic ctx view operator inferred left right

end Evaluation

end RuleTrade
