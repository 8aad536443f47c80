import RuleTrade.Strategy.DailyValues
import RuleTrade.Library.Logged

/-! Soundness of the daily types: a node that has a type, and a candidate when
it observes one, evaluates over the axes of its type without a static error. -/

namespace RuleTrade

open Library

/-- Errors that a snapshot has no part in. -/
def DailyValueError.Static : DailyValueError → Prop
  | .semantic .unboundCandidate | .candidateContextRequired => True
  | _ => False

/-- The computation raises no static error. -/
def Safe {α : Type} (x : Except DailyValueError α) : Prop :=
  Yields (fun e => ¬e.Static) (fun _ => True) x

theorem safe_error {α : Type} {e : DailyValueError} (h : ¬e.Static) :
    Safe (.error e : Except DailyValueError α) := h

theorem safe_ok {α : Type} (a : α) : Safe (.ok a : Except DailyValueError α) := trivial

theorem Safe.bind {α β : Type} {x : Except DailyValueError α} {f : α → Except DailyValueError β}
    (hx : Safe x) (hf : ∀ a, Safe (f a)) : Safe (x >>= f) :=
  yields_bind.mpr (hx.mono (fun _ he => he) (fun a _ => hf a))

/-- An observation of the candidate occurs under the node. -/
def DailyValueNode.observesCandidate : DailyValueNode → Bool
  | .observe attrs _ _ => attrs.subjectKind = some .candidate
  | .literal _ _ _ _ _ => false
  | .current _ x | .history _ _ _ x | .indicator _ _ _ _ x | .absolute _ x
  | .reduce _ _ _ _ _ _ x => x.observesCandidate
  | .arithmetic _ _ l r => l.observesCandidate || r.observesCandidate

section Transform

variable (ctx : DecimalContext)

theorem seriesChange_safe (series : Series) (index : Nat) :
    Safe (seriesChange ctx series index) := by
  unfold seriesChange
  split
  · exact safe_ok _
  · exact safe_error id
  · exact safe_error id

theorem simpleReturns_safe (values : List ℚ) : Safe (simpleReturns ctx values) := by
  fun_induction simpleReturns ctx values with
  | case1 => exact safe_error id
  | case2 previous current rest ratio hRatio ih => exact ih.bind (fun returns => safe_ok _)
  | case3 => exact safe_ok _

theorem wilderAverages_safe (period last : Nat) (series : Series) :
    Safe (wilderAverages ctx period last series) := by
  unfold wilderAverages
  apply Safe.bind (yields_mapM (fun index _ => seriesChange_safe ctx series index))
  intro changes
  apply yields_foldlM
  intro averages index _
  exact (seriesChange_safe ctx series index).bind (fun change => safe_ok _)

theorem transformRow_safe (kind : IndicatorKind) (period : Nat) (series earlier : Series)
    (last : Nat) (current : Option ℚ) :
    Safe (transformRow ctx kind period series earlier last current) := by
  unfold transformRow
  cases kind with
  | trailingReturn =>
      simp only
      split_ifs
      · exact safe_ok _
      · split <;> exact safe_ok _
  | sma =>
      simp only
      split_ifs <;> exact safe_ok _
  | ema =>
      simp only
      split_ifs
      · exact safe_ok _
      · exact safe_ok _
      · split <;> exact safe_ok _
  | rsiWilderLeanCompat =>
      simp only
      split_ifs
      · exact safe_ok _
      · exact safe_ok _
      · exact (wilderAverages_safe ctx period last series).bind (fun averages => safe_ok _)
  | realizedVolatility =>
      simp only
      split_ifs
      · exact safe_ok _
      · apply Safe.bind (simpleReturns_safe ctx _)
        intro returns
        split_ifs <;> exact safe_ok _

theorem transform_safe (kind : IndicatorKind) (period : Nat) (series : Series) :
    Safe (transform ctx kind period series) := by
  apply yields_foldlM
  intro earlier row _
  exact (transformRow_safe ctx kind period series earlier row.1 row.2).bind (fun v => safe_ok _)

end Transform

section Evaluation

variable (ctx : DecimalContext) (view : DailyView)
  (hCompleted : ∀ symbol field basis, Safe (view.completed symbol field basis))

include hCompleted in
theorem stream_safe (symbol : String) (node : DailyValueNode) :
    Safe (stream ctx view symbol node) := by
  induction node with
  | observe attrs field basis => exact hCompleted symbol field basis
  | indicator attrs kind observations skip operand ih =>
      exact ih.bind (fun series => transform_safe ctx kind observations series)
  | absolute attrs operand ih => exact ih.bind (fun series => safe_ok _)
  | _ => exact safe_error id

theorem axisKeys_safe (axis : Axis) : Safe (axisKeys view axis) := by
  cases axis with
  | asset domainId =>
      simp only [axisKeys]
      split
      · exact safe_error id
      · exact safe_ok _
  | time observations skip => exact safe_ok _

theorem coordinates_safe (axes : List Axis) : Safe (coordinates view axes) := by
  apply Safe.bind (yields_mapM (fun axis _ => axisKeys_safe view axis))
  intro keys
  exact safe_ok _

include hCompleted in
theorem currentCells_safe (node : DailyValueNode) (missing : String) (symbols : List String) :
    Safe (currentCells ctx view node missing symbols) := by
  apply yields_foldlM
  intro cells symbol _
  apply Safe.bind (stream_safe ctx view hCompleted symbol node)
  intro series
  split
  · exact safe_error id
  · exact safe_ok _

/-- Only an observation of the candidate needs one. -/
theorem observedSymbols_safe {attrs : NodeAttrs} {candidate : Option String}
    (h : candidate.isSome = true ∨ attrs.subjectKind ≠ some .candidate) :
    Safe (observedSymbols view attrs candidate) := by
  unfold observedSymbols
  split
  · exact safe_ok _
  · rename_i hKind
    split
    · exact absurd hKind (h.resolve_left (by simp))
    · exact safe_ok _
  · split
    · exact safe_error id
    · exact safe_ok _

/-- The computation raises no static error, and yields a result over `axes`. -/
def Over (axes : List Axis) (x : Except DailyValueError DailyValueResult) : Prop :=
  Yields (fun e => ¬e.Static) (fun result => result.axes = axes) x

theorem Safe.bindOver {α : Type} {x : Except DailyValueError α}
    {f : α → Except DailyValueError DailyValueResult} {axes : List Axis} (hx : Safe x)
    (hf : ∀ a, Over axes (f a)) : Over axes (x >>= f) :=
  yields_bind.mpr (hx.mono (fun _ he => he) (fun a _ => hf a))

include hCompleted in
theorem evaluateCurrent_over {node : DailyValueNode} {attrs : NodeAttrs} {missing : String}
    {inferred : SemanticType} {candidate : Option String}
    (h : candidate.isSome = true ∨ attrs.subjectKind ≠ some .candidate) :
    Over inferred.axes (evaluateCurrent ctx view node attrs missing inferred candidate) := by
  apply Safe.bindOver (observedSymbols_safe view h)
  intro symbols
  apply Safe.bindOver (currentCells_safe ctx view hCompleted node missing symbols)
  intro cells
  split_ifs with hAxes
  · split
    · exact id
    · rfl
  · rfl

/-- The observation under a stream is one of the node's. -/
theorem sourceObserve_yields (node : DailyValueNode) :
    Yields (fun e => ¬e.Static) (fun attrs => attrs.subjectKind = some .candidate →
      node.observesCandidate = true) (sourceObserve node) := by
  induction node with
  | observe attrs field basis =>
      intro hKind
      simpa [DailyValueNode.observesCandidate] using hKind
  | indicator attrs kind observations skip operand ih => exact ih
  | absolute attrs operand ih => exact ih
  | _ => exact id

include hCompleted in
theorem evaluateHistory_over {source : DailyValueNode} {observations skip : Nat}
    {inferred : SemanticType} {candidate : Option String}
    (h : candidate.isSome = true ∨ source.observesCandidate = false) :
    Over inferred.axes (evaluateHistory ctx view source observations skip inferred candidate) := by
  apply yields_bind.mpr
  refine (sourceObserve_yields source).mono (fun _ he => he) (fun attrs hAttrs => ?_)
  have hSubject : candidate.isSome = true ∨ attrs.subjectKind ≠ some .candidate := by
    refine h.imp_right (fun hNone hKind => ?_)
    rw [hAttrs hKind] at hNone
    cases hNone
  apply Safe.bindOver (observedSymbols_safe view hSubject)
  intro symbols
  refine Safe.bindOver (yields_foldlM (fun cells symbol _ => ?_) Dict.empty) (fun cells => rfl)
  apply Safe.bind (stream_safe ctx view hCompleted symbol source)
  intro values
  apply yields_foldlM
  intro cells row _
  split
  · exact id
  · trivial

theorem evaluateReduce_over {axis : AxisName} {reduction : ReductionOperation}
    {missingPolicy : MissingPolicy} {minimumCount : Nat} {minimumFraction : ℚ}
    {inferred : SemanticType} {source : DailyValueResult} :
    Over (source.axes.filter (fun a => a.name ≠ axis))
      (evaluateReduce ctx view axis reduction missingPolicy minimumCount minimumFraction inferred
        source) := by
  unfold evaluateReduce
  simp only
  split
  · exact id
  · apply Safe.bindOver (coordinates_safe view _)
    intro outer
    apply Safe.bindOver (axisKeys_safe view _)
    intro inner
    refine Safe.bindOver (yields_foldlM (fun results coordinate _ => ?_) Dict.empty)
      (fun results => rfl)
    refine Safe.bind (yields_mapM (fun key _ => ?_)) (fun cells => ?_)
    · split
      · exact id
      · trivial
    · split_ifs <;> exact safe_ok _

theorem evaluateArithmetic_over {operator : ArithmeticOperator} {inferred : SemanticType}
    {left right : DailyValueResult} :
    Over inferred.axes (evaluateArithmetic ctx view operator inferred left right) := by
  apply Safe.bindOver (coordinates_safe view _)
  intro outer
  refine Safe.bindOver (yields_foldlM (fun results coordinate _ => ?_) Dict.empty)
    (fun results => rfl)
  split
  · rename_i l r hLeft hRight
    have hCell : Safe (combineCells ctx operator l r) := by
      unfold combineCells
      split
      · split
        · exact safe_ok _
        · exact safe_ok _
        · exact safe_error id
      · exact safe_ok _
    exact hCell.bind (fun cell => safe_ok _)
  · exact id

/-- A typed node evaluates over the axes of its type. -/
theorem typed_eq {bindingId : Option String} {node : DailyValueNode} {type : SemanticType}
    (h : inferDailyType bindingId node = .ok type) : typed bindingId node = .ok type := by
  rw [typed, h]
  rfl

include hCompleted in
theorem evaluate_over {bindingId candidate : Option String} {node : DailyValueNode}
    {type : SemanticType} (hType : inferDailyType bindingId node = .ok type)
    (hCandidate : candidate.isSome = true ∨ node.observesCandidate = false) :
    Over type.axes (evaluate ctx view candidate bindingId node) := by
  induction node generalizing type with
  | literal attrs value quantity unit refinement =>
      rw [evaluate, typed_eq hType, except_ok_bind]
      cases hType
      rfl
  | observe attrs field basis =>
      rw [evaluate, typed_eq hType, except_ok_bind]
      apply evaluateCurrent_over ctx view hCompleted
      exact hCandidate.imp_right (fun h => by simpa [DailyValueNode.observesCandidate] using h)
  | indicator attrs kind observations skip operand ih =>
      rw [evaluate, typed_eq hType, except_ok_bind]
      apply yields_bind.mpr
      refine (sourceObserve_yields (.indicator attrs kind observations skip operand)).mono
        (fun _ he => he) (fun source hSource => ?_)
      apply evaluateCurrent_over ctx view hCompleted
      refine hCandidate.imp_right (fun hNone hKind => ?_)
      rw [hSource hKind] at hNone
      cases hNone
  | current attrs operand ih =>
      rw [evaluate, typed_eq hType, except_ok_bind]
      exact ih hType hCandidate
  | absolute attrs operand ih =>
      rw [evaluate, typed_eq hType, except_ok_bind]
      apply yields_bind.mpr
      exact (ih hType hCandidate).mono (fun _ he => he) (fun source hAxes => hAxes)
  | history attrs observations skip operand ih =>
      rw [evaluate, typed_eq hType, except_ok_bind]
      exact evaluateHistory_over ctx view hCompleted hCandidate
  | reduce attrs axis reduction policy count fraction operand ih =>
      rw [evaluate, typed_eq hType, except_ok_bind]
      obtain ⟨left, hLeft, hReduced⟩ := except_bind_ok.mp hType
      simp only at hReduced
      split_ifs at hReduced
      cases hReduced
      apply yields_bind.mpr
      refine (ih hLeft hCandidate).mono (fun _ he => he) (fun source hAxes => ?_)
      have hReduce : Over (source.axes.filter (fun a => a.name ≠ axis))
          (evaluateReduce ctx view axis reduction policy count fraction
            { left with axes := left.axes.filter (fun a => a.name ≠ axis) } source) :=
        evaluateReduce_over ctx view
      rw [hAxes] at hReduce
      exact hReduce
  | arithmetic attrs operator l r ihLeft ihRight =>
      rw [evaluate, typed_eq hType, except_ok_bind]
      obtain ⟨left, hLeft, hRest⟩ := except_bind_ok.mp hType
      obtain ⟨right, hRight, -⟩ := except_bind_ok.mp hRest
      simp only [DailyValueNode.observesCandidate, Bool.or_eq_false_iff] at hCandidate
      apply yields_bind.mpr
      refine (ihLeft hLeft (hCandidate.imp_right And.left)).mono (fun _ he => he) (fun x _ => ?_)
      apply yields_bind.mpr
      refine (ihRight hRight (hCandidate.imp_right And.right)).mono (fun _ he => he) (fun y _ => ?_)
      exact evaluateArithmetic_over ctx view

end Evaluation

theorem DailyMarketSnapshot.view_safe (snapshot : DailyMarketSnapshot) (row : Nat) (symbol : String)
    (field : MarketField) (basis : PriceBasis) :
    Safe ((snapshot.view row).completed symbol field basis) := by
  have hField : Safe (snapshot.fieldValues symbol field basis) := by
    unfold fieldValues
    split
    · exact safe_ok _
    · exact safe_error id
  exact hField.bind (fun values => safe_ok _)

end RuleTrade
