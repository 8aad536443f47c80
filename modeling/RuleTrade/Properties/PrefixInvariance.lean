import RuleTrade.Strategy.DailyResults
import RuleTrade.Strategy.Fragments

/-! Prefix invariance of daily values. Evaluation at a row sees series up to that
row only; dates are the exception, and the end of a window that skips more rows
than there are wraps around in the dates of the whole snapshot. -/

namespace RuleTrade

open Library

section Truncate

/-- The snapshot without the rows after `row`. -/
def DailyMarketSnapshot.truncate (snapshot : DailyMarketSnapshot) (row : Nat) :
    DailyMarketSnapshot :=
  { snapshot with
    series := snapshot.series.mapValues (fun fields => fields.mapValues (List.take (row + 1)))
    dates := snapshot.dates.take (row + 1)
    dates_nonempty := by
      have hNonempty := snapshot.dates_nonempty
      simpa using hNonempty
    series_lengths := by
      intro fields hFields values hValues
      simp only [Dict.values_mapValues, List.mem_map] at hFields
      obtain ⟨fields, hFields, rfl⟩ := hFields
      simp only [Dict.values_mapValues, List.mem_map] at hValues
      obtain ⟨values, hValues, rfl⟩ := hValues
      rw [List.length_take, List.length_take, snapshot.series_lengths fields hFields values hValues] }

theorem fieldValues_truncate (snapshot : DailyMarketSnapshot) (row : Nat) (symbol : String)
    (field : MarketField) (basis : PriceBasis) :
    (snapshot.truncate row).fieldValues symbol field basis =
      (snapshot.fieldValues symbol field basis).map (List.take (row + 1)) := by
  simp only [DailyMarketSnapshot.fieldValues, DailyMarketSnapshot.truncate, Dict.get?_mapValues]
  cases snapshot.series.get? symbol with
  | none => rfl
  | some fields =>
      simp only [Option.map_some, Option.bind_some, Dict.get?_mapValues]
      cases fields.get? (field, basis) <;> rfl

/-- The same view over the dates up to its cutoff only. -/
def DailyView.truncate (view : DailyView) : DailyView :=
  { view with dates := view.dates.take (view.cutoffIndex + 1) }

theorem view_truncate (snapshot : DailyMarketSnapshot) (row : Nat) :
    (snapshot.truncate row).view row = (snapshot.view row).truncate := by
  have hCompleted : ((snapshot.truncate row).view row).completed =
      (snapshot.view row).completed := by
    funext symbol field basis
    simp only [DailyMarketSnapshot.view, fieldValues_truncate]
    cases snapshot.fieldValues symbol field basis with
    | error e => rfl
    | ok values =>
        show Except.ok ((values.take (row + 1)).take (row + 1)) = Except.ok (values.take (row + 1))
        rw [List.take_take, min_self]
  simp only [DailyView.truncate, DailyMarketSnapshot.view, DailyView.mk.injEq] at hCompleted ⊢
  exact ⟨rfl, rfl, trivial, hCompleted⟩

end Truncate

section Windows

/-- Rows that the histories under a node skip. -/
def DailyValueNode.skips : DailyValueNode → List Nat
  | .history _ _ skip x => skip :: x.skips
  | .current _ x | .indicator _ _ _ _ x | .absolute _ x | .reduce _ _ _ _ _ _ x => x.skips
  | .arithmetic _ _ l r => l.skips ++ r.skips
  | .literal _ _ _ _ _ | .observe _ _ _ => []

/-- The end of a window that skips so many rows does not wrap around to rows of
the snapshot: it lies at or after the first row, there is no row after the
cutoff, or it lies before the first row even when counted from the last one. -/
def DailyView.Keeps (view : DailyView) (skip : Nat) : Prop :=
  skip ≤ view.cutoffIndex + 1 ∨ view.dates.length ≤ view.cutoffIndex + 1 ∨
    view.dates.length + view.cutoffIndex + 1 ≤ skip

theorem mem_alignedAxes {left right : SemanticType} {axes : List Axis} {axis : Axis}
    (h : alignedAxes left right = .ok axes) (hAxis : axis ∈ axes) :
    axis ∈ left.axes ∨ axis ∈ right.axes := by
  unfold alignedAxes at h
  split at h
  · cases h
  · cases h
  · split_ifs at h <;> cases h <;> first | exact Or.inl hAxis | exact Or.inr hAxis

theorem mem_arithmeticType {operator : ArithmeticOperator} {left right type : SemanticType}
    {axis : Axis} (h : arithmeticType operator left right = .ok type) (hAxis : axis ∈ type.axes) :
    axis ∈ left.axes ∨ axis ∈ right.axes := by
  have hAligned : ∃ axes, alignedAxes left right = .ok axes ∧ type.axes = axes := by
    unfold arithmeticType at h
    split at h
    · obtain ⟨_, -, h⟩ := except_bind_ok.mp h
      obtain ⟨axes, hAxes, h⟩ := except_bind_ok.mp h
      cases h
      exact ⟨axes, hAxes, rfl⟩
    · obtain ⟨_, -, h⟩ := except_bind_ok.mp h
      obtain ⟨axes, hAxes, h⟩ := except_bind_ok.mp h
      cases h
      exact ⟨axes, hAxes, rfl⟩
    · split_ifs at h
      · obtain ⟨axes, hAxes, h⟩ := except_bind_ok.mp h
        cases h
        exact ⟨axes, hAxes, rfl⟩
      · obtain ⟨axes, hAxes, h⟩ := except_bind_ok.mp h
        cases h
        exact ⟨axes, hAxes, rfl⟩
    · split_ifs at h
      obtain ⟨axes, hAxes, h⟩ := except_bind_ok.mp h
      cases h
      exact ⟨axes, hAxes, rfl⟩
  obtain ⟨axes, hAxes, hType⟩ := hAligned
  exact mem_alignedAxes hAxes (hType ▸ hAxis)

theorem indicatorType_axes {kind : IndicatorKind} {left type : SemanticType}
    (h : indicatorType kind left = .ok type) : type.axes = left.axes := by
  unfold indicatorType at h
  split at h
  · cases h
    rfl
  · split_ifs at h
    cases h
    rfl
  · split_ifs at h
    cases h
    rfl
  · split_ifs at h
    cases h
    rfl
  · split_ifs at h
    cases h
    rfl

/-- Time axes of a type are windows of histories under the node. -/
theorem skip_mem_of_axis {bindingId : Option String} {node : DailyValueNode} {type : SemanticType}
    (h : inferDailyType bindingId node = .ok type) {observations skip : Nat}
    (hAxis : Axis.time observations skip ∈ type.axes) : skip ∈ node.skips := by
  induction node generalizing type with
  | literal attrs value quantity unit refinement =>
      cases h
      cases hAxis
  | observe attrs field basis =>
      simp only [inferDailyType, observeType] at h
      split_ifs at h <;> cases h <;> simp_all
  | current attrs x ih => exact ih h hAxis
  | absolute attrs x ih => exact ih h hAxis
  | indicator attrs kind n k x ih =>
      obtain ⟨left, hLeft, hType⟩ := except_bind_ok.mp h
      exact ih hLeft (indicatorType_axes hType ▸ hAxis)
  | history attrs n k x ih =>
      obtain ⟨left, hLeft, hType⟩ := except_bind_ok.mp h
      cases hType
      rcases List.mem_append.mp hAxis with hOld | hNew
      · exact List.mem_cons_of_mem k (ih hLeft hOld)
      · obtain ⟨-, rfl⟩ := Axis.time.inj (List.mem_singleton.mp hNew)
        exact List.mem_cons_self
  | reduce attrs axis reduction policy count fraction x ih =>
      obtain ⟨left, hLeft, hType⟩ := except_bind_ok.mp h
      simp only at hType
      split_ifs at hType
      cases hType
      exact ih hLeft (List.mem_of_mem_filter hAxis)
  | arithmetic attrs operator l r ihLeft ihRight =>
      obtain ⟨left, hLeft, hRest⟩ := except_bind_ok.mp h
      obtain ⟨right, hRight, hType⟩ := except_bind_ok.mp hRest
      rcases mem_arithmeticType hType hAxis with hMem | hMem
      · exact List.mem_append_left _ (ihLeft hLeft hMem)
      · exact List.mem_append_right _ (ihRight hRight hMem)

end Windows

section Prefix

variable {ctx : DecimalContext} {view : DailyView} {candidate bindingId : Option String}

theorem stream_truncate (symbol : String) (node : DailyValueNode) :
    stream ctx view.truncate symbol node = stream ctx view symbol node := by
  induction node with
  | observe attrs field basis => rfl
  | indicator attrs kind n k x ih => simp only [stream, ih]
  | absolute attrs x ih => simp only [stream, ih]
  | _ => rfl

theorem observedNow_truncate : observedNow view.truncate = observedNow view := by
  simp [observedNow, DailyView.truncate]

theorem window_truncate {skip : Nat} (h : view.Keeps skip) {start : Int} (hStart : 0 ≤ start) :
    Sequence.slice view.truncate.dates start ((view.cutoffIndex : Int) - skip + 1) =
      Sequence.slice view.dates start ((view.cutoffIndex : Int) - skip + 1) := by
  apply Sequence.slice_take hStart
  · omega
  · unfold DailyView.Keeps at h
    omega

theorem axisKeys_truncate {axis : Axis}
    (h : ∀ observations skip, axis = .time observations skip → view.Keeps skip) :
    axisKeys view.truncate axis = axisKeys view axis := by
  cases axis with
  | asset domainId => rfl
  | time observations skip =>
      simp only [axisKeys]
      rw [← window_truncate (h observations skip rfl) (le_max_left 0 _)]
      rfl

theorem coordinates_truncate {axes : List Axis}
    (h : ∀ observations skip, Axis.time observations skip ∈ axes → view.Keeps skip) :
    coordinates view.truncate axes = coordinates view axes := by
  have hKeys : axes.mapM (axisKeys view.truncate) = axes.mapM (axisKeys view) := by
    induction axes with
    | nil => rfl
    | cons axis rest ih =>
        rw [List.mapM_cons, List.mapM_cons,
          axisKeys_truncate (fun n k hAxis => h n k (hAxis ▸ List.mem_cons_self)),
          ih (fun n k hMem => h n k (List.mem_cons_of_mem axis hMem))]
  simp only [coordinates, hKeys]

theorem evaluateCurrent_truncate (node : DailyValueNode) (attrs : NodeAttrs) (missing : String)
    (inferred : SemanticType) :
    evaluateCurrent ctx view.truncate node attrs missing inferred candidate =
      evaluateCurrent ctx view node attrs missing inferred candidate := by
  simp only [evaluateCurrent, currentCells, stream_truncate, observedNow_truncate]
  rfl

theorem evaluateHistory_truncate {source : DailyValueNode} {observations skip : Nat}
    {inferred : SemanticType} (h : view.Keeps skip) :
    evaluateHistory ctx view.truncate source observations skip inferred candidate =
      evaluateHistory ctx view source observations skip inferred candidate := by
  simp only [evaluateHistory, stream_truncate]
  rw [← window_truncate h (le_max_left 0 _)]
  rfl

theorem evaluateReduce_truncate {axis : AxisName} {reduction : ReductionOperation}
    {missingPolicy : MissingPolicy} {minimumCount : Nat} {minimumFraction : ℚ}
    {inferred : SemanticType} {source : DailyValueResult}
    (h : ∀ observations skip, Axis.time observations skip ∈ source.axes → view.Keeps skip) :
    evaluateReduce ctx view.truncate axis reduction missingPolicy minimumCount minimumFraction
        inferred source =
      evaluateReduce ctx view axis reduction missingPolicy minimumCount minimumFraction inferred
        source := by
  have hOuter : coordinates view.truncate (source.axes.filter (fun a => a.name ≠ axis)) =
      coordinates view (source.axes.filter (fun a => a.name ≠ axis)) :=
    coordinates_truncate (fun n k hMem => h n k (List.mem_of_mem_filter hMem))
  simp only [evaluateReduce, hOuter]
  split
  · rfl
  · rename_i removed hRemoved
    rw [axisKeys_truncate (fun n k hAxis => h n k (hAxis ▸ List.mem_of_getElem? hRemoved))]

theorem evaluate_truncate (node : DailyValueNode) (h : ∀ skip ∈ node.skips, view.Keeps skip) :
    evaluate ctx view.truncate candidate bindingId node =
      evaluate ctx view candidate bindingId node := by
  induction node with
  | literal attrs value quantity unit refinement =>
      simp only [evaluate, observedNow_truncate]
  | observe attrs field basis => simp only [evaluate, evaluateCurrent_truncate]
  | indicator attrs kind n k x ih => simp only [evaluate, evaluateCurrent_truncate]
  | current attrs x ih => simp only [evaluate, ih h]
  | absolute attrs x ih => simp only [evaluate, ih h]
  | history attrs n k x ih =>
      simp only [evaluate, evaluateHistory_truncate (h k List.mem_cons_self)]
  | reduce attrs axis reduction policy count fraction x ih =>
      simp only [evaluate, ih h]
      cases hType : inferDailyType bindingId (.reduce attrs axis reduction policy count fraction x) with
      | error e =>
          rw [typed, hType]
          rfl
      | ok type =>
          rw [typed_eq hType, except_ok_bind, except_ok_bind]
          obtain ⟨left, hLeft, -⟩ := except_bind_ok.mp hType
          cases hSource : evaluate ctx view candidate bindingId x with
          | error e => rfl
          | ok source =>
              refine evaluateReduce_truncate (fun n k hMem => h k ?_)
              rw [evaluate_axes hLeft hSource] at hMem
              exact skip_mem_of_axis hLeft hMem
  | arithmetic attrs operator l r ihLeft ihRight =>
      simp only [evaluate, ihLeft (fun k hk => h k (List.mem_append_left _ hk)),
        ihRight (fun k hk => h k (List.mem_append_right _ hk))]
      cases hType : inferDailyType bindingId (.arithmetic attrs operator l r) with
      | error e =>
          rw [typed, hType]
          rfl
      | ok type =>
          rw [typed_eq hType, except_ok_bind, except_ok_bind]
          have hCoordinates : coordinates view.truncate type.axes = coordinates view type.axes :=
            coordinates_truncate (fun n k hMem => h k (skip_mem_of_axis hType hMem))
          simp only [evaluateArithmetic, hCoordinates]

end Prefix

section Histories

variable {ctx : DecimalContext} {view : DailyView} {candidate bindingId : Option String}

/-- A history that returns reports the dates of its window. -/
theorem observedAt_of_history {attrs : NodeAttrs} {observations skip : Nat} {x : DailyValueNode}
    {result : DailyValueResult}
    (h : evaluate ctx view candidate bindingId (.history attrs observations skip x) = .ok result) :
    result.observedAt = Sequence.slice view.dates
      (max 0 ((view.cutoffIndex : Int) - skip - observations + 1))
      ((view.cutoffIndex : Int) - skip + 1) := by
  obtain ⟨inferred, -, h⟩ := except_bind_ok.mp h
  obtain ⟨source, -, h⟩ := except_bind_ok.mp h
  obtain ⟨symbols, -, h⟩ := except_bind_ok.mp h
  obtain ⟨cells, -, h⟩ := except_bind_ok.mp h
  cases h
  rfl

/-- The dates of a history tell whether its window wraps around. -/
theorem keeps_of_history {attrs : NodeAttrs} {observations skip : Nat} {x : DailyValueNode}
    {result : DailyValueResult}
    (hTruncated : evaluate ctx view.truncate candidate bindingId
      (.history attrs observations skip x) = .ok result)
    (h : evaluate ctx view candidate bindingId (.history attrs observations skip x) = .ok result) :
    view.Keeps skip := by
  unfold DailyView.Keeps
  by_cases hEnd : (0 : Int) ≤ (view.cutoffIndex : Int) - skip + 1
  · omega
  · have hStart : max 0 ((view.cutoffIndex : Int) - skip - observations + 1) = 0 := by omega
    have hWindow : Sequence.slice (view.dates.take (view.cutoffIndex + 1)) 0
        ((view.cutoffIndex : Int) - skip + 1) =
          Sequence.slice view.dates 0 ((view.cutoffIndex : Int) - skip + 1) := by
      rw [← hStart, ← observedAt_of_history h]
      exact (observedAt_of_history hTruncated).symm
    have hIff := (Sequence.slice_take_iff (by omega)).mp hWindow
    omega

end Histories

/-- The history of a close that leaves out the latest `skip` rows. -/
def closeBefore (skip : Nat) : DailyValueNode :=
  .history { semanticId := "history" } 1 skip (closeOf "A")

/-- Three sessions with a close each. -/
def threeCloses : DailyMarketSnapshot :=
  .single "A" (⟨2024, 1, 8⟩, some 10) [(⟨2024, 1, 9⟩, some 11), (⟨2024, 1, 10⟩, some 12)]

end RuleTrade
