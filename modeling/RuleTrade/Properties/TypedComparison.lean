import RuleTrade.Strategy.DailyResults
import RuleTrade.Execution.CompatibilitySelection
import RuleTrade.Strategy.Fragments

/-! Comparison of daily results. The evaluator lists a cell for each coordinate of
the axes of a result; a comparison rebuilds the coordinates from the cells of its
left operand, so it needs the left one to be as wide as the right one. -/

namespace RuleTrade

open Library

section Coordinates

variable {ctx : DecimalContext} {snapshot : DailyMarketSnapshot} {cutoff : Nat}
  {candidate bindingId : Option String}

/-- The cells of a result are those of the coordinates of its axes. -/
def Tabulated (view : DailyView) (result : DailyValueResult) : Prop :=
  ∃ listed, coordinates view result.axes = .ok listed ∧
    ∀ coordinate, coordinate ∈ result.cells.keys ↔ coordinate ∈ listed

/-- Axes of a result: members of a domain, sessions of a window, or both. -/
def Shaped (axes : List Axis) : Prop :=
  axes = [] ∨ (∃ domainId, axes = [.asset domainId]) ∨ (∃ n k, axes = [.time n k]) ∨
    ∃ domainId n k, axes = [.asset domainId, .time n k]

theorem shaped_subjectAxes (attrs : NodeAttrs) : Shaped (subjectAxes attrs) := by
  rw [subjectAxes]
  split_ifs
  · exact Or.inr (Or.inl ⟨_, rfl⟩)
  · exact Or.inl rfl

theorem shaped_historyAxes (attrs : NodeAttrs) (n k : Nat) :
    Shaped (subjectAxes attrs ++ [.time n k]) := by
  rw [subjectAxes]
  split_ifs
  · exact Or.inr (Or.inr (Or.inr ⟨_, n, k, rfl⟩))
  · exact Or.inr (Or.inr (Or.inl ⟨n, k, rfl⟩))

theorem Shaped.filter {axes : List Axis} (h : Shaped axes) (keep : Axis → Bool) :
    Shaped (axes.filter keep) := by
  rcases h with rfl | ⟨domainId, rfl⟩ | ⟨n, k, rfl⟩ | ⟨domainId, n, k, rfl⟩
  · exact Or.inl rfl
  · cases hAsset : keep (.asset domainId) <;> simp [Shaped, hAsset]
  · cases hTime : keep (.time n k) <;> simp [Shaped, hTime]
  · cases hAsset : keep (.asset domainId) <;> cases hTime : keep (.time n k) <;>
      simp [Shaped, hAsset, hTime]

/-- Broadcasting keeps the axes of one operand, which include the other's. -/
theorem alignedAxes_ok {left right : SemanticType} {axes : List Axis}
    (h : alignedAxes left right = .ok axes) :
    (axes = right.axes ∧ left.axes ⊆ right.axes) ∨ (axes = left.axes ∧ right.axes ⊆ left.axes) := by
  unfold alignedAxes at h
  split at h
  · cases h
  · cases h
  · split_ifs at h with hLeft hRight hSub hSup
    · cases h
      exact Or.inl ⟨rfl, by simp [hLeft]⟩
    · cases h
      exact Or.inr ⟨rfl, by simp [hRight]⟩
    · cases h
      exact Or.inl ⟨rfl, hSub⟩
    · cases h
      exact Or.inr ⟨rfl, hSup⟩

/-- The axes of an operation are those that its operands align to. -/
theorem axes_of_arithmeticType {operator : ArithmeticOperator} {left right type : SemanticType}
    (h : arithmeticType operator left right = .ok type) :
    alignedAxes left right = .ok type.axes := by
  unfold arithmeticType at h
  cases operator with
  | add | subtract =>
      obtain ⟨_, -, h⟩ := except_bind_ok.mp h
      obtain ⟨axes, hAxes, h⟩ := except_bind_ok.mp h
      cases h
      exact hAxes
  | multiply =>
      simp only at h
      split_ifs at h
      · obtain ⟨axes, hAxes, h⟩ := except_bind_ok.mp h
        cases h
        exact hAxes
      · obtain ⟨axes, hAxes, h⟩ := except_bind_ok.mp h
        cases h
        exact hAxes
  | divide =>
      simp only at h
      split_ifs at h
      obtain ⟨axes, hAxes, h⟩ := except_bind_ok.mp h
      cases h
      exact hAxes

theorem currentCells_keys {view : DailyView} {node : DailyValueNode} {missing : String}
    {symbols : List String} {cells : Dict (List AxisKey) DailyCell}
    (h : currentCells ctx view node missing symbols = .ok cells) {coordinate : List AxisKey} :
    coordinate ∈ cells.keys ↔ coordinate ∈ symbols.map (fun symbol => [AxisKey.member symbol]) := by
  have hKeys : coordinate ∈ cells.keys ↔ coordinate ∈ (Dict.empty : Dict _ DailyCell).keys ∨
      coordinate ∈ symbols.map (fun symbol => [AxisKey.member symbol]) := by
    refine Dict.mem_keys_foldlM (fun d symbol d' hStep => ?_) h
    obtain ⟨series, -, hStep⟩ := except_bind_ok.mp hStep
    split at hStep
    · cases hStep
    · cases hStep
      exact ⟨_, rfl⟩
  rw [hKeys]
  simp

theorem evaluateCurrent_tabulated {view : DailyView} {node : DailyValueNode} {attrs : NodeAttrs}
    {missing : String} {inferred : SemanticType} {result : DailyValueResult}
    (hAxes : inferred.axes = subjectAxes attrs)
    (h : evaluateCurrent ctx view node attrs missing inferred candidate = .ok result) :
    Tabulated view result := by
  obtain ⟨symbols, hSymbols, h⟩ := except_bind_ok.mp h
  obtain ⟨cells, hCells, h⟩ := except_bind_ok.mp h
  split_ifs at h with hScalar
  · split at h
    · cases h
    · cases h
      refine ⟨[[]], ?_, fun coordinate => ?_⟩
      · rw [hScalar]
        rfl
      · rw [Dict.mem_keys_set]
        simp
  · cases h
    have hGroup : attrs.subjectKind = some .groupMembers := by
      by_contra hOther
      rw [hAxes, subjectAxes, if_neg hOther] at hScalar
      exact hScalar rfl
    refine ⟨_, hAxes ▸ coordinates_subjectAxes (by rw [hGroup]; rfl) hSymbols,
      fun coordinate => ?_⟩
    have hCoordinate : symbolCoordinate attrs = fun symbol => [AxisKey.member symbol] := by
      funext symbol
      rw [symbolCoordinate, if_pos hGroup]
    rw [currentCells_keys hCells, hCoordinate]

/-- A snapshot has a symbol for each subject. -/
theorem observedSymbols_ne_nil {attrs : NodeAttrs} {symbols : List String}
    (h : observedSymbols (snapshot.view cutoff) attrs candidate = .ok symbols) : symbols ≠ [] := by
  simp only [observedSymbols] at h
  split at h
  · cases h
    exact List.cons_ne_nil _ _
  · cases candidate with
    | none => cases h
    | some symbol =>
        cases h
        exact List.cons_ne_nil _ _
  · split at h
    · cases h
    · rename_i members hMembers
      cases h
      exact (snapshot.domains_valid _ (List.mem_map_of_mem (Dict.mem_of_get? hMembers))).1

/-- Coordinates of a history, in either of its shapes. -/
theorem coordinates_historyAxes {attrs : NodeAttrs} {n k : Nat} {symbols : List String}
    {dates : List CalendarDate}
    (hSymbols : observedSymbols (snapshot.view cutoff) attrs candidate = .ok symbols)
    (hDates : axisKeys (snapshot.view cutoff) (.time n k) = .ok (dates.map .session)) :
    ∃ listed, coordinates (snapshot.view cutoff) (subjectAxes attrs ++ [.time n k]) = .ok listed ∧
      ∀ coordinate, coordinate ∈ listed ↔ ∃ symbol ∈ symbols, ∃ date ∈ dates,
        historyCoordinate attrs symbol date = coordinate := by
  by_cases hGroup : attrs.subjectKind = some .groupMembers
  · have hDomain : (snapshot.view cutoff).domains.get? (attrs.subjectId.getD "") = some symbols := by
      rcases observed_subject (by rw [hGroup]; rfl) hSymbols with ⟨-, hDomain⟩ | ⟨hOther, -⟩
      · exact hDomain
      · exact absurd hGroup hOther
    refine ⟨Sequence.product [symbols.map .member, dates.map .session], ?_, fun coordinate => ?_⟩
    · rw [subjectAxes, if_pos hGroup, coordinates]
      simp only [List.cons_append, List.nil_append, List.mapM_cons, List.mapM_nil, hDates]
      rw [axisKeys, hDomain]
      rfl
    · simp [Sequence.product, historyCoordinate, hGroup]
  · refine ⟨Sequence.product [dates.map .session], ?_, fun coordinate => ?_⟩
    · rw [subjectAxes, if_neg hGroup, coordinates]
      simp only [List.nil_append, List.mapM_cons, List.mapM_nil, hDates]
      rfl
    · obtain ⟨symbol, hSymbol⟩ := List.exists_mem_of_ne_nil _ (observedSymbols_ne_nil hSymbols)
      simp only [Sequence.product, List.map_cons, List.map_nil, List.mem_flatMap, List.mem_map,
        List.mem_singleton, historyCoordinate, if_neg hGroup]
      constructor
      · rintro ⟨_, ⟨date, hDate, rfl⟩, rfl⟩
        exact ⟨symbol, hSymbol, date, hDate, rfl⟩
      · rintro ⟨_, -, date, hDate, rfl⟩
        exact ⟨_, ⟨date, hDate, rfl⟩, rfl⟩

theorem evaluateHistory_tabulated {source : DailyValueNode} {attrs : NodeAttrs} {n k : Nat}
    {inferred : SemanticType} {result : DailyValueResult} (hCutoff : cutoff < snapshot.dates.length)
    (hSource : sourceObserve source = .ok attrs)
    (hAxes : inferred.axes = subjectAxes attrs ++ [.time n k])
    (h : evaluateHistory ctx (snapshot.view cutoff) source n k inferred candidate = .ok result) :
    Tabulated (snapshot.view cutoff) result := by
  have hDates : axisKeys (snapshot.view cutoff) (.time n k) =
      .ok ((windowDates snapshot.dates cutoff n k).map .session) :=
    congrArg (fun dates => Except.ok (List.map AxisKey.session dates)) (slice_window hCutoff)
  cases hSymbols : observedSymbols (snapshot.view cutoff) attrs candidate with
  | error e =>
      rw [evaluateHistory, hSource, except_ok_bind] at h
      simp only [hSymbols] at h
      cases h
  | ok symbols =>
      obtain ⟨-, rfl⟩ := (evaluateHistory_ok_iff hSource hSymbols hCutoff rfl rfl).mp h
      obtain ⟨listed, hListed, hMem⟩ := coordinates_historyAxes hSymbols hDates
      refine ⟨listed, hAxes ▸ hListed, fun coordinate => ?_⟩
      show coordinate ∈ (historyCells _ _ _ _ _ _ _).keys ↔ _
      rw [historyCells, Dict.mem_keys_ofList, hMem]
      simp only [List.mem_map, List.mem_flatMap, historyPairs]
      constructor
      · rintro ⟨_, ⟨symbol, hSymbol, row, hRow, rfl⟩, rfl⟩
        exact ⟨symbol, hSymbol, row.2, List.mem_of_getElem? (mem_enumerate.mp hRow), rfl⟩
      · rintro ⟨symbol, hSymbol, date, hDate, rfl⟩
        obtain ⟨i, hi⟩ := List.getElem?_of_mem hDate
        exact ⟨_, ⟨symbol, hSymbol, (i, date), mem_enumerate.mpr hi, rfl⟩, rfl⟩

/-- Results of the evaluator list a cell for each coordinate, and have one of four
shapes. -/
theorem evaluate_tabulated {node : DailyValueNode} {result : DailyValueResult}
    (hCutoff : cutoff < snapshot.dates.length)
    (h : evaluate ctx (snapshot.view cutoff) candidate bindingId node = .ok result) :
    Tabulated (snapshot.view cutoff) result ∧ Shaped result.axes := by
  induction node generalizing result with
  | literal attrs value quantity unit refinement =>
      obtain ⟨inferred, -, h⟩ := except_bind_ok.mp h
      cases h
      refine ⟨⟨[[]], rfl, fun coordinate => ?_⟩, Or.inl rfl⟩
      rw [Dict.mem_keys_set]
      simp
  | observe attrs field basis =>
      obtain ⟨inferred, hTyped, hCurrent⟩ := except_bind_ok.mp h
      have hAxes : inferred.axes = subjectAxes attrs :=
        axes_of_sourceObserve (except_mapError_ok.mp hTyped) rfl
      refine ⟨evaluateCurrent_tabulated hAxes hCurrent, ?_⟩
      rw [evaluateCurrent_axes hCurrent, hAxes]
      exact shaped_subjectAxes attrs
  | indicator attrs kind n k operand ih =>
      obtain ⟨inferred, hTyped, h⟩ := except_bind_ok.mp h
      obtain ⟨source, hSource, hCurrent⟩ := except_bind_ok.mp h
      have hAxes := axes_of_sourceObserve (except_mapError_ok.mp hTyped) hSource
      refine ⟨evaluateCurrent_tabulated hAxes hCurrent, ?_⟩
      rw [evaluateCurrent_axes hCurrent, hAxes]
      exact shaped_subjectAxes source
  | current attrs operand ih =>
      obtain ⟨inferred, -, hOperand⟩ := except_bind_ok.mp h
      exact ih hOperand
  | absolute attrs operand ih =>
      obtain ⟨inferred, -, h⟩ := except_bind_ok.mp h
      obtain ⟨source, hSource, h⟩ := except_bind_ok.mp h
      cases h
      obtain ⟨⟨listed, hListed, hKeys⟩, hShaped⟩ := ih hSource
      refine ⟨⟨listed, hListed, fun coordinate => ?_⟩, hShaped⟩
      rw [Dict.keys_mapValues]
      exact hKeys coordinate
  | history attrs n k operand ih =>
      obtain ⟨inferred, hTyped, hHistory⟩ := except_bind_ok.mp h
      obtain ⟨left, hLeft, hInferred⟩ := except_bind_ok.mp (except_mapError_ok.mp hTyped)
      cases hInferred
      obtain ⟨source, hSource, -⟩ := except_bind_ok.mp hHistory
      have hAxes := axes_of_sourceObserve hLeft hSource
      have hResult := evaluate_axes (except_mapError_ok.mp hTyped) h
      rw [hResult]
      simp only [hAxes]
      exact ⟨evaluateHistory_tabulated hCutoff hSource (by rw [hAxes]) hHistory,
        shaped_historyAxes source n k⟩
  | reduce attrs axis reduction policy count fraction operand ih =>
      obtain ⟨inferred, -, h⟩ := except_bind_ok.mp h
      obtain ⟨source, hSource, h⟩ := except_bind_ok.mp h
      unfold evaluateReduce at h
      simp only at h
      split at h
      · cases h
      · obtain ⟨outer, hOuter, h⟩ := except_bind_ok.mp h
        obtain ⟨inner, -, h⟩ := except_bind_ok.mp h
        obtain ⟨results, hResults, h⟩ := except_bind_ok.mp h
        cases h
        refine ⟨⟨outer, hOuter, fun coordinate => ?_⟩, (ih hSource).2.filter _⟩
        have hKeys : coordinate ∈ results.keys ↔
            coordinate ∈ (Dict.empty : Dict _ DailyCell).keys ∨ coordinate ∈ outer.map id := by
          refine Dict.mem_keys_foldlM (fun d key d' hStep => ?_) hResults
          obtain ⟨cells, -, hStep⟩ := except_bind_ok.mp hStep
          split_ifs at hStep
          · cases hStep
            exact ⟨_, rfl⟩
          · cases hStep
            exact ⟨_, rfl⟩
        simpa using hKeys
  | arithmetic attrs operator l r ihLeft ihRight =>
      obtain ⟨inferred, hTyped, h⟩ := except_bind_ok.mp h
      obtain ⟨leftType, hLeftType, hType⟩ := except_bind_ok.mp (except_mapError_ok.mp hTyped)
      obtain ⟨rightType, hRightType, hType⟩ := except_bind_ok.mp hType
      obtain ⟨left, hLeft, h⟩ := except_bind_ok.mp h
      obtain ⟨right, hRight, h⟩ := except_bind_ok.mp h
      obtain ⟨outer, hOuter, h⟩ := except_bind_ok.mp h
      obtain ⟨results, hResults, h⟩ := except_bind_ok.mp h
      cases h
      refine ⟨⟨outer, hOuter, fun coordinate => ?_⟩, ?_⟩
      · have hKeys : coordinate ∈ results.keys ↔
            coordinate ∈ (Dict.empty : Dict _ DailyCell).keys ∨ coordinate ∈ outer.map id := by
          refine Dict.mem_keys_foldlM (fun d key d' hStep => ?_) hResults
          split at hStep
          · obtain ⟨cell, -, hStep⟩ := except_bind_ok.mp hStep
            cases hStep
            exact ⟨_, rfl⟩
          · cases hStep
        simpa using hKeys
      · rcases alignedAxes_ok (axes_of_arithmeticType hType) with ⟨hAxes, -⟩ | ⟨hAxes, -⟩
        · show Shaped inferred.axes
          rw [hAxes, ← evaluate_axes hRightType hRight]
          exact (ihRight hRight).2
        · show Shaped inferred.axes
          rw [hAxes, ← evaluate_axes hLeftType hLeft]
          exact (ihLeft hLeft).2

end Coordinates

section Keys

variable {view : DailyView} {l r : DailyValueResult} {axis : Axis}

/-- Key of an axis in a coordinate of the left result. -/
def pickKey (axis : Axis) (l : DailyValueResult) (key : List AxisKey) : Option AxisKey :=
  if axis.name = .time ∧ l.axes.length ≠ 1 then key.getLast? else key.head?

theorem keysForStatic_ok_iff {picked : List AxisKey} :
    keysForStatic axis l = .ok picked ↔
      List.Forall₂ (fun key k => pickKey axis l key = some k) l.cells.keys picked := by
  constructor
  · intro h
    refine (Sequence.forall₂_of_mapM h).imp (fun key k hKey => ?_)
    cases hPick : pickKey axis l key with
    | none =>
        rw [pickKey] at hPick
        rw [hPick] at hKey
        cases hKey
    | some found =>
        rw [pickKey] at hPick
        rw [hPick] at hKey
        cases hKey
        rfl
  · intro h
    refine Sequence.mapM_of_forall₂ (h.imp (fun key k hKey => ?_))
    rw [pickKey] at hKey
    rw [hKey]

/-- The keys of an axis are read when every coordinate has one. -/
theorem exists_keysForStatic (axis : Axis) (l : DailyValueResult)
    (h : ∀ key ∈ l.cells.keys, ∃ k, pickKey axis l key = some k) :
    ∃ picked, keysForStatic axis l = .ok picked ∧
      ∀ k, k ∈ picked ↔ ∃ key ∈ l.cells.keys, pickKey axis l key = some k := by
  refine ⟨l.cells.keys.filterMap (pickKey axis l), keysForStatic_ok_iff.mpr ?_, fun k => ?_⟩
  · generalize l.cells.keys = keys at h
    induction keys with
    | nil => exact .nil
    | cons key rest ih =>
        obtain ⟨k, hKey⟩ := h key List.mem_cons_self
        rw [List.filterMap_cons_some hKey]
        exact .cons hKey (ih (fun other hOther => h other (List.mem_cons_of_mem key hOther)))
  · rw [List.mem_filterMap]

theorem mem_coordinates_one {listed : List (List AxisKey)}
    (h : coordinates view [axis] = .ok listed) :
    ∃ ks, axisKeys view axis = .ok ks ∧
      ∀ coordinate, coordinate ∈ listed ↔ ∃ k ∈ ks, coordinate = [k] := by
  obtain ⟨keys, hKeys, hListed⟩ := except_bind_ok.mp h
  cases hListed
  obtain ⟨ks, rest, hOne, hRest, rfl⟩ :=
    List.forall₂_cons_left_iff.mp (Sequence.forall₂_of_mapM hKeys)
  cases hRest
  refine ⟨ks, hOne, fun coordinate => ?_⟩
  simp [Sequence.product]

theorem mem_coordinates_two {a b : Axis} {listed : List (List AxisKey)}
    (h : coordinates view [a, b] = .ok listed) :
    ∃ ks ts, axisKeys view a = .ok ks ∧ axisKeys view b = .ok ts ∧
      ∀ coordinate, coordinate ∈ listed ↔ ∃ k ∈ ks, ∃ t ∈ ts, coordinate = [k, t] := by
  obtain ⟨keys, hKeys, hListed⟩ := except_bind_ok.mp h
  cases hListed
  obtain ⟨ks, rest, hFirst, hRest, rfl⟩ :=
    List.forall₂_cons_left_iff.mp (Sequence.forall₂_of_mapM hKeys)
  obtain ⟨ts, none, hSecond, hNone, rfl⟩ := List.forall₂_cons_left_iff.mp hRest
  cases hNone
  refine ⟨ks, ts, hFirst, hSecond, fun coordinate => ?_⟩
  simp [Sequence.product, eq_comm]

theorem keys_of_one (hAxes : l.axes = [axis]) (h : Tabulated view l) :
    ∃ keys, l.axes.mapM (fun axis => keysForStatic axis l) = .ok keys ∧
      ∀ coordinate, coordinate ∈ Sequence.product keys ↔ coordinate ∈ l.cells.keys := by
  obtain ⟨listed, hListed, hKeys⟩ := h
  rw [hAxes] at hListed
  obtain ⟨ks, -, hMem⟩ := mem_coordinates_one hListed
  have hPick (key : List AxisKey) : pickKey axis l key = key.head? := by
    rw [pickKey, hAxes]
    simp
  obtain ⟨picked, hPicked, hPickedMem⟩ := exists_keysForStatic axis l
    (fun key hKey => by
      obtain ⟨k, -, rfl⟩ := (hMem key).mp ((hKeys key).mp hKey)
      exact ⟨k, hPick [k]⟩)
  refine ⟨[picked], ?_, fun coordinate => ?_⟩
  · rw [hAxes, List.mapM_cons, hPicked]
    rfl
  · have hOne : coordinate ∈ Sequence.product [picked] ↔ ∃ k ∈ picked, coordinate = [k] := by
      simp [Sequence.product]
    rw [hOne]
    constructor
    · rintro ⟨k, hk, rfl⟩
      obtain ⟨key, hKey, hHead⟩ := (hPickedMem k).mp hk
      obtain ⟨k', -, rfl⟩ := (hMem key).mp ((hKeys key).mp hKey)
      rw [hPick, List.head?_cons, Option.some.injEq] at hHead
      rwa [← hHead]
    · intro hCoordinate
      obtain ⟨k, -, rfl⟩ := (hMem coordinate).mp ((hKeys coordinate).mp hCoordinate)
      exact ⟨k, (hPickedMem k).mpr ⟨[k], hCoordinate, hPick [k]⟩, rfl⟩

theorem keys_of_two {domainId : String} {n m : Nat} (hAxes : l.axes = [.asset domainId, .time n m])
    (h : Tabulated view l) :
    ∃ keys, l.axes.mapM (fun axis => keysForStatic axis l) = .ok keys ∧
      ∀ coordinate, coordinate ∈ Sequence.product keys ↔ coordinate ∈ l.cells.keys := by
  obtain ⟨listed, hListed, hKeys⟩ := h
  rw [hAxes] at hListed
  obtain ⟨ks, ts, -, -, hMem⟩ := mem_coordinates_two hListed
  have hCell (key : List AxisKey) : key ∈ l.cells.keys ↔ ∃ k ∈ ks, ∃ t ∈ ts, key = [k, t] :=
    (hKeys key).trans (hMem key)
  have hFirst (key : List AxisKey) : pickKey (.asset domainId) l key = key.head? := by
    simp [pickKey, Axis.name]
  have hLast (key : List AxisKey) : pickKey (.time n m) l key = key.getLast? := by
    simp [pickKey, hAxes, Axis.name]
  obtain ⟨members, hMembers, hMember⟩ := exists_keysForStatic (.asset domainId) l
    (fun key hKey => by
      obtain ⟨k, -, t, -, rfl⟩ := (hCell key).mp hKey
      exact ⟨k, hFirst [k, t]⟩)
  obtain ⟨dates, hDates, hDate⟩ := exists_keysForStatic (.time n m) l
    (fun key hKey => by
      obtain ⟨k, -, t, -, rfl⟩ := (hCell key).mp hKey
      exact ⟨t, hLast [k, t]⟩)
  refine ⟨[members, dates], ?_, fun coordinate => ?_⟩
  · rw [hAxes, List.mapM_cons, List.mapM_cons, hMembers, hDates]
    rfl
  · have hTwo : coordinate ∈ Sequence.product [members, dates] ↔
        ∃ k ∈ members, ∃ t ∈ dates, coordinate = [k, t] := by
      simp [Sequence.product, eq_comm]
    rw [hTwo]
    constructor
    · rintro ⟨k, hk, t, ht, rfl⟩
      obtain ⟨key, hKey, hHead⟩ := (hMember k).mp hk
      obtain ⟨k', hk', _, -, rfl⟩ := (hCell key).mp hKey
      obtain ⟨key', hKey', hEnd⟩ := (hDate t).mp ht
      obtain ⟨_, -, t', ht', rfl⟩ := (hCell key').mp hKey'
      rw [hFirst, List.head?_cons, Option.some.injEq] at hHead
      rw [hLast] at hEnd
      cases hEnd
      subst hHead
      exact (hCell _).mpr ⟨k', hk', t', ht', rfl⟩
    · intro hCoordinate
      obtain ⟨k, -, t, -, rfl⟩ := (hCell coordinate).mp hCoordinate
      exact ⟨k, (hMember k).mpr ⟨_, hCoordinate, hFirst _⟩, t,
        (hDate t).mpr ⟨_, hCoordinate, hLast _⟩, rfl⟩

/-- Coordinates rebuilt from the cells of a result are those of its cells. -/
theorem keys_of_tabulated (hShaped : Shaped l.axes) (h : Tabulated view l) :
    ∃ keys, l.axes.mapM (fun axis => keysForStatic axis l) = .ok keys ∧
      ∀ coordinate, coordinate ∈ Sequence.product keys ↔ coordinate ∈ l.cells.keys := by
  rcases hShaped with hAxes | ⟨domainId, hAxes⟩ | ⟨n, k, hAxes⟩ | ⟨domainId, n, k, hAxes⟩
  · obtain ⟨listed, hListed, hKeys⟩ := h
    rw [hAxes] at hListed ⊢
    cases hListed
    refine ⟨[], rfl, fun coordinate => ?_⟩
    rw [hKeys]
    rfl
  · exact keys_of_one hAxes h
  · exact keys_of_one hAxes h
  · exact keys_of_two hAxes h

end Keys

section Truths

variable {view : DailyView} {l r : DailyValueResult} {axes : List Axis} {keys : List (List AxisKey)}
  {operator : ComparisonOperator} {truth : DailyTruthResult}

/-- Truth at a coordinate, from the cells of its projections. -/
def truthAt (operator : ComparisonOperator) (axes : List Axis) (l r : DailyValueResult)
    (coordinate : List AxisKey) : Truth :=
  comparisonTruth operator ((l.cells.get? (project axes l.axes coordinate)).bind DailyCell.value)
    ((r.cells.get? (project axes r.axes coordinate)).bind DailyCell.value)

def HasCells (axes : List Axis) (l r : DailyValueResult) (coordinate : List AxisKey) : Prop :=
  (l.cells.get? (project axes l.axes coordinate)).isSome = true ∧
    (r.cells.get? (project axes r.axes coordinate)).isSome = true

/-- A comparison returns when every coordinate has cells on both sides. -/
theorem exists_compareDailyValues_iff
    (hAxes : requireCompatibleValues l.semanticType r.semanticType = .ok axes)
    (hKeys : axes.mapM (fun axis => keysForStatic axis l) = .ok keys) :
    (∃ truth, compareDailyValues l r operator = .ok truth) ↔
      ∀ coordinate ∈ Sequence.product keys, HasCells axes l r coordinate := by
  rw [compareDailyValues, hAxes]
  show (∃ truth, ((axes.mapM fun axis => keysForStatic axis l) >>= _) = _) ↔ _
  rw [hKeys, except_ok_bind]
  apply Sequence.exists_ok_foldlM_iff
  intro truths coordinate
  rw [HasCells]
  cases l.cells.get? (project axes l.axes coordinate) with
  | none => simp
  | some a => cases r.cells.get? (project axes r.axes coordinate) <;> simp

/-- The axes are rebuilt before anything is compared. -/
theorem exists_keys_of_compare
    (hAxes : requireCompatibleValues l.semanticType r.semanticType = .ok axes)
    (h : compareDailyValues l r operator = .ok truth) :
    ∃ keys, axes.mapM (fun axis => keysForStatic axis l) = .ok keys := by
  obtain ⟨aligned, hAligned, h⟩ := except_bind_ok.mp h
  obtain rfl := Except.ok.inj (hAxes.symm.trans (except_mapError_ok.mp hAligned))
  obtain ⟨keys, hKeys, -⟩ := except_bind_ok.mp h
  exact ⟨keys, hKeys⟩

/-- A loop that writes the truth of each coordinate it meets has those it met. -/
theorem values_foldlM
    {step : DailyTruthResult → List AxisKey → Except DailyValueError DailyTruthResult}
    {coordinate : List AxisKey} {found : Truth}
    (hStep : ∀ truths x next, step truths x = .ok next →
      next.values.get? coordinate =
        if coordinate = x then some found else truths.values.get? coordinate)
    {xs : List (List AxisKey)} {start out : DailyTruthResult}
    (h : xs.foldlM step start = .ok out) :
    out.values.get? coordinate =
      if coordinate ∈ xs then some found else start.values.get? coordinate := by
  induction xs generalizing start with
  | nil =>
      cases h
      simp
  | cons x xs ih =>
      rw [List.foldlM_cons] at h
      obtain ⟨next, hFirst, hRest⟩ := except_bind_ok.mp h
      rw [ih hRest, hStep start x next hFirst]
      by_cases hSame : coordinate = x <;> by_cases hLater : coordinate ∈ xs <;>
        simp [hSame, hLater]

/-- What it returns at a coordinate is the truth of the two cells. -/
theorem get?_compareDailyValues
    (hAxes : requireCompatibleValues l.semanticType r.semanticType = .ok axes)
    (hKeys : axes.mapM (fun axis => keysForStatic axis l) = .ok keys)
    (h : compareDailyValues l r operator = .ok truth) (coordinate : List AxisKey) :
    truth.values.get? coordinate =
      if coordinate ∈ Sequence.product keys then some (truthAt operator axes l r coordinate)
      else none := by
  rw [compareDailyValues, hAxes] at h
  change ((axes.mapM fun axis => keysForStatic axis l) >>= _) = _ at h
  rw [hKeys, except_ok_bind] at h
  refine values_foldlM (fun truths x next hNext => ?_) h
  split at hNext
  · rename_i a b hA hB
    cases hNext
    rw [Dict.get?_set]
    by_cases hSame : coordinate = x
    · subst hSame
      simp [truthAt, hA, hB]
    · simp [hSame]
  · cases hNext

/-- The operator with its sides exchanged. -/
def ComparisonOperator.mirrored : ComparisonOperator → ComparisonOperator
  | .lt => .gt
  | .lte => .gte
  | .eq => .eq
  | .neq => .neq
  | .gte => .lte
  | .gt => .lt

theorem comparisonTruth_mirrored (operator : ComparisonOperator) (a b : Option ℚ) :
    comparisonTruth operator.mirrored b a = comparisonTruth operator a b := by
  cases a with
  | none => cases b <;> rfl
  | some x =>
      cases b with
      | none => rfl
      | some y =>
          cases operator <;>
            simp [comparisonTruth, compareValues, ComparisonOperator.mirrored, eq_comm]

theorem truthAt_mirrored (operator : ComparisonOperator) (coordinate : List AxisKey) :
    truthAt operator.mirrored axes r l coordinate = truthAt operator axes l r coordinate :=
  comparisonTruth_mirrored operator _ _

theorem requireCompatibleValues_ok {left right : SemanticType}
    (h : requireCompatibleValues left right = .ok axes) : alignedAxes left right = .ok axes := by
  unfold requireCompatibleValues at h
  split_ifs at h
  exact h

/-- A coordinate of a result is its own projection. -/
theorem project_of_mem (hShaped : Shaped l.axes) (h : Tabulated view l) {coordinate : List AxisKey}
    (hMem : coordinate ∈ l.cells.keys) : project l.axes l.axes coordinate = coordinate := by
  obtain ⟨listed, hListed, hKeys⟩ := h
  rw [hKeys] at hMem
  rcases hShaped with hAxes | ⟨domainId, hAxes⟩ | ⟨n, k, hAxes⟩ | ⟨domainId, n, k, hAxes⟩
  · rw [hAxes] at hListed ⊢
    cases hListed
    rw [List.mem_singleton.mp hMem]
    rfl
  · rw [hAxes] at hListed ⊢
    obtain ⟨ks, -, hOne⟩ := mem_coordinates_one hListed
    obtain ⟨k, -, rfl⟩ := (hOne coordinate).mp hMem
    simp [project]
  · rw [hAxes] at hListed ⊢
    obtain ⟨ks, -, hOne⟩ := mem_coordinates_one hListed
    obtain ⟨k, -, rfl⟩ := (hOne coordinate).mp hMem
    simp [project]
  · rw [hAxes] at hListed ⊢
    obtain ⟨ks, ts, -, -, hTwo⟩ := mem_coordinates_two hListed
    obtain ⟨k, -, t, -, rfl⟩ := (hTwo coordinate).mp hMem
    simp [project, List.findIdx_cons, Axis.name]

theorem cells_of_tabulated (hLeft : Tabulated view l) (hRight : Tabulated view r)
    (hAxes : l.axes = r.axes) (coordinate : List AxisKey) :
    coordinate ∈ l.cells.keys ↔ coordinate ∈ r.cells.keys := by
  obtain ⟨listed, hListed, hKeys⟩ := hLeft
  obtain ⟨listed', hListed', hKeys'⟩ := hRight
  rw [hAxes, hListed', Except.ok.injEq] at hListed
  rw [hKeys, hKeys', hListed]

end Truths

section Widths

variable {view : DailyView} {l r : DailyValueResult} {axes : List Axis}
  {operator : ComparisonOperator}

/-- Operands over the same axes compare at each of their coordinates. -/
theorem compare_of_equal_axes (operator : ComparisonOperator) (hLeft : Tabulated view l) (hRight : Tabulated view r)
    (hShaped : Shaped l.axes) (hEqual : l.axes = r.axes)
    (hAxes : requireCompatibleValues l.semanticType r.semanticType = .ok l.axes) :
    ∃ truth, compareDailyValues l r operator = .ok truth ∧
      ∀ coordinate, truth.values.get? coordinate =
        if coordinate ∈ l.cells.keys then some (truthAt operator l.axes l r coordinate)
        else none := by
  obtain ⟨keys, hKeys, hMem⟩ := keys_of_tabulated hShaped hLeft
  have hCells : ∀ coordinate ∈ Sequence.product keys, HasCells l.axes l r coordinate := by
    intro coordinate hCoordinate
    have hOwn := (hMem coordinate).mp hCoordinate
    have hOther := (cells_of_tabulated hLeft hRight hEqual coordinate).mp hOwn
    have hProject := project_of_mem hShaped hLeft hOwn
    rw [HasCells, ← hEqual, hProject]
    exact ⟨Dict.get?_isSome_iff.mpr hOwn, Dict.get?_isSome_iff.mpr hOther⟩
  obtain ⟨truth, hTruth⟩ := (exists_compareDailyValues_iff hAxes hKeys).mpr hCells
  refine ⟨truth, hTruth, fun coordinate => ?_⟩
  rw [get?_compareDailyValues hAxes hKeys hTruth]
  exact if_congr (hMem coordinate) rfl rfl

/-- Without cells there is nothing to compare. -/
theorem compare_of_no_cells (operator : ComparisonOperator) (hNonempty : axes ≠ []) (hEmpty : l.cells.keys = [])
    (hAxes : requireCompatibleValues l.semanticType r.semanticType = .ok axes) :
    ∃ truth, compareDailyValues l r operator = .ok truth ∧
      ∀ coordinate, truth.values.get? coordinate = none := by
  have hStatic (axis : Axis) : keysForStatic axis l = .ok [] := by
    rw [keysForStatic, hEmpty]
    rfl
  have hKeys : axes.mapM (fun axis => keysForStatic axis l) = .ok (axes.map (fun _ => [])) := by
    apply Sequence.mapM_of_forall₂
    rw [List.forall₂_map_right_iff, List.forall₂_same]
    intro axis _
    exact hStatic axis
  have hProduct : Sequence.product (axes.map (fun _ => ([] : List AxisKey))) = [] := by
    cases axes with
    | nil => exact absurd rfl hNonempty
    | cons axis rest => rfl
  obtain ⟨truth, hTruth⟩ : ∃ truth, compareDailyValues l r operator = .ok truth := by
    rw [exists_compareDailyValues_iff hAxes hKeys, hProduct]
    intro coordinate hCoordinate
    cases hCoordinate
  refine ⟨truth, hTruth, fun coordinate => ?_⟩
  rw [get?_compareDailyValues hAxes hKeys hTruth, hProduct]
  simp

theorem axisKeys_disjoint {domainId : String} {n k : Nat} {members dates : List AxisKey}
    (hMembers : axisKeys view (.asset domainId) = .ok members)
    (hDates : axisKeys view (.time n k) = .ok dates) {key : AxisKey} (hMember : key ∈ members) :
    key ∉ dates := by
  intro hDate
  simp only [axisKeys] at hMembers hDates
  split at hMembers
  · cases hMembers
  · cases hMembers
    cases hDates
    obtain ⟨symbol, -, rfl⟩ := List.mem_map.mp hMember
    obtain ⟨date, -, hSame⟩ := List.mem_map.mp hDate
    cases hSame

/-- An operand over one of two axes gives each of its keys for both. -/
theorem no_cells_of_narrow {domainId : String} {n k : Nat} {axis : Axis} (hLeft : Tabulated view l)
    (hRight : Tabulated view r) (hOne : l.axes = [axis])
    (hTwo : r.axes = [.asset domainId, .time n k]) (hAxis : axis ∈ r.axes)
    (hAxes : requireCompatibleValues l.semanticType r.semanticType = .ok r.axes)
    (h : ∃ truth, compareDailyValues l r operator = .ok truth) :
    l.cells.keys = [] ∧ r.cells.keys = [] := by
  obtain ⟨listed, hListed, hKeys⟩ := hLeft
  obtain ⟨listed', hListed', hKeys'⟩ := hRight
  rw [hOne] at hListed
  rw [hTwo] at hListed'
  obtain ⟨ks, hOwn, hMem⟩ := mem_coordinates_one hListed
  obtain ⟨members, dates, hMembers, hDates, hMem'⟩ := mem_coordinates_two hListed'
  have hEmpty : l.cells.keys = [] := by
    rw [List.eq_nil_iff_forall_not_mem]
    intro coordinate hCoordinate
    obtain ⟨key, -, rfl⟩ := (hMem _).mp ((hKeys _).mp hCoordinate)
    obtain ⟨truth, hTruth⟩ := h
    obtain ⟨keys, hStatic⟩ := exists_keys_of_compare hAxes hTruth
    have hCells := (exists_compareDailyValues_iff hAxes hStatic).mp ⟨truth, hTruth⟩
    rw [hTwo] at hStatic
    obtain ⟨first, rest, hFirst, hRest, rfl⟩ :=
      List.forall₂_cons_left_iff.mp (Sequence.forall₂_of_mapM hStatic)
    obtain ⟨second, none, hSecond, hNone, rfl⟩ := List.forall₂_cons_left_iff.mp hRest
    cases hNone
    have hPick (a : Axis) : pickKey a l [key] = some key := by
      rw [pickKey]
      split_ifs
      · rfl
      · rfl
    obtain ⟨k, hk, hPicked⟩ := Sequence.exists_right (keysForStatic_ok_iff.mp hFirst) hCoordinate
    obtain ⟨t, ht, hPicked'⟩ := Sequence.exists_right (keysForStatic_ok_iff.mp hSecond) hCoordinate
    rw [hPick, Option.some.injEq] at hPicked hPicked'
    subst hPicked hPicked'
    have hBoth := (hCells [key, key] (by simp [Sequence.product, hk, ht])).2
    have hProject : project r.axes r.axes [key, key] = [key, key] := by
      rw [hTwo]
      simp [project, List.findIdx_cons, Axis.name]
    rw [hProject, Dict.get?_isSome_iff, hKeys', hMem'] at hBoth
    obtain ⟨member, hMember, date, hDate, hSame⟩ := hBoth
    cases hSame
    exact axisKeys_disjoint hMembers hDates hMember hDate
  refine ⟨hEmpty, ?_⟩
  have hNone : ks = [] := by
    rw [List.eq_nil_iff_forall_not_mem]
    intro key hKey
    have hCell : [key] ∈ l.cells.keys := (hKeys _).mpr ((hMem _).mpr ⟨key, hKey, rfl⟩)
    rw [hEmpty] at hCell
    cases hCell
  subst hNone
  rw [List.eq_nil_iff_forall_not_mem]
  intro coordinate hCoordinate
  obtain ⟨member, hMember, date, hDate, rfl⟩ := (hMem' _).mp ((hKeys' _).mp hCoordinate)
  rw [hTwo] at hAxis
  rcases List.mem_cons.mp hAxis with rfl | hAxis
  · cases hOwn.symm.trans hMembers
    cases hMember
  · cases List.mem_singleton.mp hAxis
    cases hOwn.symm.trans hDates
    cases hDate

theorem scalar_cell (h : Tabulated view l) (hScalar : l.axes = []) : [] ∈ l.cells.keys := by
  obtain ⟨listed, hListed, hKeys⟩ := h
  rw [hScalar] at hListed
  cases hListed
  exact (hKeys []).mpr (List.mem_singleton_self _)

/-- A scalar on the left has no key to give. -/
theorem scalar_of_compare (hLeft : Tabulated view l) (hScalar : l.axes = [])
    (hAxes : requireCompatibleValues l.semanticType r.semanticType = .ok axes)
    (h : ∃ truth, compareDailyValues l r operator = .ok truth) : axes = [] := by
  have hOwn := scalar_cell hLeft hScalar
  obtain ⟨truth, hTruth⟩ := h
  obtain ⟨keys, hStatic⟩ := exists_keys_of_compare hAxes hTruth
  cases axes with
  | nil => rfl
  | cons axis rest =>
      obtain ⟨first, others, hFirst, -, rfl⟩ :=
        List.forall₂_cons_left_iff.mp (Sequence.forall₂_of_mapM hStatic)
      obtain ⟨k, -, hPicked⟩ := Sequence.exists_right (keysForStatic_ok_iff.mp hFirst) hOwn
      rw [pickKey] at hPicked
      split_ifs at hPicked <;> cases hPicked

/-- A comparison that returns has its left operand as wide as the right one, or
nothing to compare. -/
theorem wide_of_compare (hLeft : Tabulated view l) (hRight : Tabulated view r)
    (hShaped : Shaped l.axes) (hShaped' : Shaped r.axes) (hSubset : l.axes ⊆ r.axes)
    (hAxes : requireCompatibleValues l.semanticType r.semanticType = .ok r.axes)
    (h : ∃ truth, compareDailyValues l r operator = .ok truth) :
    l.axes = r.axes ∨ (l.cells.keys = [] ∧ r.cells.keys = []) := by
  have hNarrow {axis : Axis} (hOne : l.axes = [axis]) :
      l.axes = r.axes ∨ (l.cells.keys = [] ∧ r.cells.keys = []) := by
    have hMem : axis ∈ r.axes := hSubset (hOne ▸ List.mem_singleton_self axis)
    rcases hShaped' with hWide | ⟨domainId, hWide⟩ | ⟨n, k, hWide⟩ | ⟨domainId, n, k, hWide⟩
    · rw [hWide] at hMem
      cases hMem
    · rw [hWide, List.mem_singleton] at hMem
      exact Or.inl (by rw [hOne, hWide, hMem])
    · rw [hWide, List.mem_singleton] at hMem
      exact Or.inl (by rw [hOne, hWide, hMem])
    · exact Or.inr (no_cells_of_narrow hLeft hRight hOne hWide hMem hAxes h)
  rcases hShaped with hOwn | ⟨domainId, hOwn⟩ | ⟨n, k, hOwn⟩ | ⟨domainId, n, k, hOwn⟩
  · left
    rw [hOwn, scalar_of_compare hLeft hOwn hAxes h]
  · exact hNarrow hOwn
  · exact hNarrow hOwn
  · left
    have hAsset : Axis.asset domainId ∈ r.axes := hSubset (by simp [hOwn])
    have hTime : Axis.time n k ∈ r.axes := hSubset (by simp [hOwn])
    rcases hShaped' with hWide | ⟨d, hWide⟩ | ⟨n', k', hWide⟩ | ⟨d, n', k', hWide⟩ <;>
      simp_all

end Widths

section Symmetry

variable {left right : SemanticType} {axes : List Axis}

theorem Shaped.antisymm {a b : List Axis} (ha : Shaped a) (hb : Shaped b) (hab : a ⊆ b)
    (hba : b ⊆ a) : a = b := by
  rcases ha with rfl | ⟨d, rfl⟩ | ⟨n, k, rfl⟩ | ⟨d, n, k, rfl⟩ <;>
    rcases hb with rfl | ⟨d', rfl⟩ | ⟨n', k', rfl⟩ | ⟨d', n', k', rfl⟩ <;> simp_all

theorem domainMismatch_comm {a b : List Axis} {name : AxisName}
    (h : domainMismatch a b name = none) : domainMismatch b a name = none := by
  unfold domainMismatch at h ⊢
  cases ha : a.find? (fun axis => axis.name = name) with
  | none => cases b.find? (fun axis => axis.name = name) <;> rfl
  | some x =>
      cases hb : b.find? (fun axis => axis.name = name) with
      | none => rfl
      | some y =>
          rw [ha, hb] at h
          simp only [ite_eq_left_iff, reduceCtorEq, imp_false, not_not] at h ⊢
          exact h.symm

theorem alignedAxes_comm (hLeft : Shaped left.axes) (hRight : Shaped right.axes)
    (h : alignedAxes left right = .ok axes) : alignedAxes right left = .ok axes := by
  have hAligned := alignedAxes_ok h
  unfold alignedAxes at h
  split at h
  · cases h
  · cases h
  · rename_i hAsset hTime
    unfold alignedAxes
    rw [domainMismatch_comm hAsset, domainMismatch_comm hTime]
    simp only
    rcases hAligned with ⟨rfl, hSub⟩ | ⟨rfl, hSub⟩
    · split_ifs with hNone hScalar hSup
      · have hEmpty : left.axes = [] := List.subset_nil.mp (hNone ▸ hSub)
        rw [hEmpty, hNone]
      · rfl
      · rw [hLeft.antisymm hRight hSub hSup]
      · rfl
    · split_ifs with hNone hScalar
      · rfl
      · exact absurd (List.subset_nil.mp (hScalar ▸ hSub)) hNone
      · rfl

theorem requireCompatibleValues_comm (hLeft : Shaped left.axes) (hRight : Shaped right.axes)
    (h : requireCompatibleValues left right = .ok axes) :
    requireCompatibleValues right left = .ok axes := by
  unfold requireCompatibleValues at h ⊢
  split_ifs at h with hUnit hClock
  rw [if_neg, if_neg]
  · exact alignedAxes_comm hLeft hRight h
  · rintro ⟨hSome, hSome', hOther⟩
    exact hClock ⟨hSome', hSome, hOther.symm⟩
  · rintro (hOther | hOther | hOther)
    · exact hUnit (Or.inl (Ne.symm hOther))
    · exact hUnit (Or.inr (Or.inl (Ne.symm hOther)))
    · exact hUnit (Or.inr (Or.inr (Ne.symm hOther)))

end Symmetry

section Comparison

variable {ctx : DecimalContext} {snapshot : DailyMarketSnapshot} {cutoff : Nat}
  {candidate candidate' bindingId bindingId' : Option String} {left right : DailyValueNode}
  {l r : DailyValueResult} {axes : List Axis}

/-- A comparison is the mirrored one with its operands exchanged exactly when the
operands range over the same axes, or when neither has a cell. -/
theorem comparison_symmetric_iff (hCutoff : cutoff < snapshot.dates.length)
    (hLeft : evaluate ctx (snapshot.view cutoff) candidate bindingId left = .ok l)
    (hRight : evaluate ctx (snapshot.view cutoff) candidate' bindingId' right = .ok r)
    (hAxes : requireCompatibleValues l.semanticType r.semanticType = .ok axes)
    (operator : ComparisonOperator) :
    (∃ truth mirrored, compareDailyValues l r operator = .ok truth ∧
      compareDailyValues r l operator.mirrored = .ok mirrored ∧
      (∀ wider ∈ [l, r], wider.axes = axes →
        ∀ coordinate, coordinate ∈ truth.values.keys ↔ coordinate ∈ wider.cells.keys) ∧
      ∀ coordinate, truth.values.get? coordinate = mirrored.values.get? coordinate) ↔
    l.axes = r.axes ∨ (l.cells.keys = [] ∧ r.cells.keys = []) := by
  obtain ⟨hLeftCells, hLeftShaped⟩ := evaluate_tabulated hCutoff hLeft
  obtain ⟨hRightCells, hRightShaped⟩ := evaluate_tabulated hCutoff hRight
  have hLeftAxes := evaluate_axes (evaluate_semanticType hLeft) hLeft
  have hRightAxes := evaluate_axes (evaluate_semanticType hRight) hRight
  have hAxes' := requireCompatibleValues_comm (hLeftAxes ▸ hLeftShaped)
    (hRightAxes ▸ hRightShaped) hAxes
  have hAligned := alignedAxes_ok (requireCompatibleValues_ok hAxes)
  rw [← hLeftAxes, ← hRightAxes] at hAligned
  constructor
  · rintro ⟨truth, mirrored, hTruth, hMirrored, -⟩
    rcases hAligned with ⟨rfl, hSubset⟩ | ⟨rfl, hSubset⟩
    · exact wide_of_compare hLeftCells hRightCells hLeftShaped hRightShaped hSubset hAxes
        ⟨truth, hTruth⟩
    · rcases wide_of_compare hRightCells hLeftCells hRightShaped hLeftShaped hSubset hAxes'
        ⟨mirrored, hMirrored⟩ with hEqual | ⟨hNone, hNone'⟩
      · exact Or.inl hEqual.symm
      · exact Or.inr ⟨hNone', hNone⟩
  · rintro (hEqual | ⟨hNone, hNone'⟩)
    · have hOwn : axes = l.axes := by
        rcases hAligned with ⟨rfl, -⟩ | ⟨rfl, -⟩
        · exact hEqual.symm
        · rfl
      subst hOwn
      obtain ⟨truth, hTruth, hValues⟩ :=
        compare_of_equal_axes operator hLeftCells hRightCells hLeftShaped hEqual hAxes
      rw [hEqual] at hAxes'
      obtain ⟨mirrored, hMirrored, hValues'⟩ :=
        compare_of_equal_axes operator.mirrored hRightCells hLeftCells hRightShaped
          hEqual.symm hAxes'
      have hSame := cells_of_tabulated hLeftCells hRightCells hEqual
      have hKeys (coordinate : List AxisKey) :
          coordinate ∈ truth.values.keys ↔ coordinate ∈ l.cells.keys := by
        rw [← Dict.get?_isSome_iff, hValues]
        split_ifs with hMem <;> simp [hMem]
      refine ⟨truth, mirrored, hTruth, hMirrored, fun wider hWider _ coordinate => ?_,
        fun coordinate => ?_⟩
      · rcases List.mem_pair.mp hWider with rfl | rfl
        · exact hKeys coordinate
        · exact (hKeys coordinate).trans (hSame coordinate)
      · rw [hValues, hValues', truthAt_mirrored, ← hEqual]
        exact if_congr (hSame coordinate) rfl rfl
    · have hNonempty : axes ≠ [] := by
        rcases hAligned with ⟨rfl, -⟩ | ⟨rfl, -⟩
        · intro hScalar
          exact absurd (scalar_cell hRightCells hScalar) (by rw [hNone']; exact List.not_mem_nil)
        · intro hScalar
          exact absurd (scalar_cell hLeftCells hScalar) (by rw [hNone]; exact List.not_mem_nil)
      obtain ⟨truth, hTruth, hValues⟩ := compare_of_no_cells operator hNonempty hNone hAxes
      obtain ⟨mirrored, hMirrored, hValues'⟩ :=
        compare_of_no_cells operator.mirrored hNonempty hNone' hAxes'
      have hKeys : truth.values.keys = [] := by
        rw [List.eq_nil_iff_forall_not_mem]
        intro coordinate hMem
        have hSome := Dict.get?_isSome_iff.mpr hMem
        rw [hValues] at hSome
        cases hSome
      refine ⟨truth, mirrored, hTruth, hMirrored, fun wider hWider _ coordinate => ?_,
        fun coordinate => ?_⟩
      · rw [hKeys]
        rcases List.mem_pair.mp hWider with rfl | rfl
        · rw [hNone]
        · rw [hNone']
      · rw [hValues, hValues']

def membersClose : DailyValueNode :=
  .observe { semanticId := "closes", subjectKind := some .groupMembers, subjectId := some "universe" }
    .close .adjusted

def priceLevel : DailyValueNode :=
  .literal { semanticId := "level" } 1 .price .usdPerShare (some "adjusted_close")

def oneMember : DailyMarketSnapshot :=
  (DailyMarketSnapshot.single "SPY" (⟨2024, 1, 2⟩, some 2) []).overDomain "universe" ["SPY"]
    (loneMember_valid "SPY")

theorem oneMember_first : 0 < oneMember.dates.length := by decide

theorem membersClose_first : ∃ r,
    evaluate (.exact id) (oneMember.view 0) none none membersClose = .ok r ∧
      r.axes = [.asset "universe"] ∧
      requireCompatibleValues r.semanticType r.semanticType = .ok [.asset "universe"] ∧
      ∃ l, evaluate (.exact id) (oneMember.view 0) none none priceLevel = .ok l ∧ l.axes = [] ∧
        l.cells.keys = [[]] ∧
        requireCompatibleValues l.semanticType r.semanticType = .ok [.asset "universe"] :=
  ⟨_, rfl, rfl, rfl, _, rfl, rfl, rfl, rfl⟩

/-- Closes of a group against themselves. -/
theorem comparison_symmetric_members : ∃ r,
    evaluate (.exact id) (oneMember.view 0) none none membersClose = .ok r ∧
    ((∃ truth mirrored, compareDailyValues r r .gt = .ok truth ∧
      compareDailyValues r r ComparisonOperator.gt.mirrored = .ok mirrored ∧
      (∀ wider ∈ [r, r], wider.axes = [.asset "universe"] →
        ∀ coordinate, coordinate ∈ truth.values.keys ↔ coordinate ∈ wider.cells.keys) ∧
      ∀ coordinate, truth.values.get? coordinate = mirrored.values.get? coordinate) ↔
    r.axes = r.axes ∨ (r.cells.keys = [] ∧ r.cells.keys = [])) := by
  obtain ⟨r, hMembers, -, hAxes, -⟩ := membersClose_first
  exact ⟨r, hMembers, comparison_symmetric_iff oneMember_first hMembers hMembers hAxes .gt⟩

/-- A level on the left of the closes of a group. -/
theorem scalar_left_raises :
    ¬∀ (ctx : DecimalContext) (snapshot : DailyMarketSnapshot) (cutoff : Nat)
      (left right : DailyValueNode) (l r : DailyValueResult) (axes : List Axis)
      (operator : ComparisonOperator), cutoff < snapshot.dates.length →
      evaluate ctx (snapshot.view cutoff) none none left = .ok l →
      evaluate ctx (snapshot.view cutoff) none none right = .ok r →
      requireCompatibleValues l.semanticType r.semanticType = .ok axes →
      ∃ truth mirrored, compareDailyValues l r operator = .ok truth ∧
        compareDailyValues r l operator.mirrored = .ok mirrored ∧
        (∀ wider ∈ [l, r], wider.axes = axes →
          ∀ coordinate, coordinate ∈ truth.values.keys ↔ coordinate ∈ wider.cells.keys) ∧
        ∀ coordinate, truth.values.get? coordinate = mirrored.values.get? coordinate := by
  intro h
  obtain ⟨r, hMembers, hWide, -, l, hLevel, hScalar, hCell, hAxes⟩ := membersClose_first
  have hSymmetric := h (.exact id) oneMember 0 priceLevel membersClose l r _ .lt oneMember_first
    hLevel hMembers hAxes
  rw [comparison_symmetric_iff oneMember_first hLevel hMembers hAxes] at hSymmetric
  rcases hSymmetric with hEqual | ⟨hNone, -⟩
  · rw [hScalar, hWide] at hEqual
    cases hEqual
  · rw [hCell] at hNone
    cases hNone

end Comparison

end RuleTrade
