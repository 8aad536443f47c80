import RuleTrade.Backend.TemporalPlan

/-! What a compiled static plan is made of. -/

namespace RuleTrade

open Library

/-- Selections of the static lowering, wherever they stand. -/
def SemanticProgram.staticSelections (program : SemanticProgram) : List SelectionStatement :=
  (programStatements program.staticStatements).filterMap ProgramStatement.selection?

/-- The lowered pieces of a static Program. -/
structure StaticPieces where
  selections : Dict String LeanMomentumSelection
  route : StaticRoute
  clock : ProgramClock

/-- Symbols that the static lowering collects. -/
def StaticPieces.symbols (pieces : StaticPieces) (definitions : StrategyDefinitions)
    (program : SemanticProgram) : List String :=
  program.staticSelections.flatMap (selectionSymbols definitions) ++ pieces.route.lowered.symbols

/-- The plan that the pieces make, before it is sorted. -/
def StaticPieces.plan (pieces : StaticPieces) (definitions : StrategyDefinitions)
    (program : SemanticProgram) (identity : String) : LeanPlan :=
  pieces.route.plan pieces.clock pieces.selections
    (sortedSet (pieces.symbols definitions program)) identity

/-- The pieces come from the statements of the Program. -/
structure StaticPieces.Of (pieces : StaticPieces) (definitions : StrategyDefinitions)
    (program : SemanticProgram) : Prop where
  statements : program.staticStatements ≠ []
  static : (programStatements program.staticStatements).all ProgramStatement.isStatic = true
  outputs : (selectionsByOutput program.staticSelections).keys.length =
    program.staticSelections.length
  selections : lowerSelections definitions program.staticSelections Dict.empty =
    .ok pieces.selections
  route : routeStatements definitions (selectionsByOutput program.staticSelections)
    pieces.selections program program.staticStatements = .ok (some pieces.route)
  referenced : ∀ id ∈ pieces.selections.keys, id ∈ pieces.route.referenced
  clock : program.clock? pieces.route.clockId = some pieces.clock
  timeframe : pieces.clock.timeframe = .daily ∨ pieces.clock.timeframe = .monthly
  symbols : pieces.symbols definitions program ≠ []

theorem sortedSet_eq_nil {items : List String} (h : sortedSet items = []) : items = [] := by
  refine List.eq_nil_iff_forall_not_mem.mpr (fun item hItem => ?_)
  have hMem : item ∈ sortedSet items := Sequence.mem_sortBy.mpr (List.mem_dedup.mpr hItem)
  rw [h] at hMem
  cases hMem

/-- A compiled static plan is the sorted plan of the pieces of its Program. -/
theorem compileStaticProgram_ok {definitions : StrategyDefinitions} {program : SemanticProgram}
    {identity : String} {plan : LeanPlan}
    (h : compileStaticProgram definitions program identity = .ok (some plan)) :
    ∃ pieces : StaticPieces, pieces.Of definitions program ∧
      (pieces.plan definitions program identity).checkIds = .ok () ∧
      plan = (pieces.plan definitions program identity).sorted := by
  unfold compileStaticProgram at h
  dsimp only at h
  split at h
  · cases h
  rename_i hStatic
  obtain ⟨hSome, hAll⟩ := not_or.mp hStatic
  split at h
  · cases h
  rename_i hOutputs
  obtain ⟨selections, hSelections, h⟩ := except_bind_ok.mp h
  obtain ⟨found, hRoute, h⟩ := except_bind_ok.mp h
  cases found with
  | none => cases h
  | some route =>
      obtain ⟨compiled, hCompiled, h⟩ := except_bind_ok.mp h
      cases h
      unfold StaticRoute.compile at hCompiled
      dsimp only at hCompiled
      split at hCompiled
      · cases hCompiled
      rename_i hMissing
      split at hCompiled
      · cases hCompiled
      rename_i clock hClock
      split at hCompiled
      · cases hCompiled
      rename_i hTimeframe
      split at hCompiled
      · cases hCompiled
      rename_i hSymbols
      obtain ⟨hIds, hPlan⟩ := normalizeLeanPlan_ok hCompiled
      refine ⟨⟨selections, route, clock⟩, ⟨hSome, ?_, not_not.mp hOutputs, hSelections, hRoute,
        fun id hId => ?_, hClock, ?_, hSymbols⟩, hIds, hPlan⟩
      · simpa using hAll
      · by_contra hUnread
        have hNone := sortedSet_eq_nil (not_not.mp hMissing)
        have hMem : id ∈ selections.keys.filter (fun id => id ∉ route.referenced) :=
          List.mem_filter.mpr ⟨hId, by simpa using hUnread⟩
        rw [hNone] at hMem
        cases hMem
      · by_cases hDaily : clock.timeframe = .daily
        · exact Or.inl hDaily
        · exact Or.inr (not_not.mp (fun hMonthly => hTimeframe ⟨hDaily, hMonthly⟩))

section Events

variable {definitions : StrategyDefinitions} {program : SemanticProgram} {identity : String}
  {pieces : StaticPieces}

/-- The event of a static plan. -/
def StaticPieces.event (pieces : StaticPieces) (definitions : StrategyDefinitions)
    (program : SemanticProgram) : LeanScheduledEvent :=
  pieces.route.event pieces.clock
    (if pieces.clock.timeframe = .monthly then .monthly 1 .end else .daily)
    (sortedSet (pieces.symbols definitions program))

/-- A static plan has one event, on the clock of its route. -/
theorem StaticPieces.Of.events (h : pieces.Of definitions program) :
    ((pieces.plan definitions program identity).sorted.dailyEvents =
        if pieces.clock.timeframe = .daily then [pieces.event definitions program] else []) ∧
      ((pieces.plan definitions program identity).sorted.monthlyEvents =
        if pieces.clock.timeframe = .monthly then [pieces.event definitions program] else []) ∧
      (pieces.plan definitions program identity).sorted.quarterlyEvents = [] ∧
      (pieces.plan definitions program identity).sorted.temporalProgram = none := by
  unfold StaticPieces.event LeanPlan.sorted StaticPieces.plan StaticRoute.plan
  rcases h.timeframe with hTime | hTime <;> simp only [hTime] <;> exact ⟨rfl, rfl, rfl, trivial⟩

end Events

section Routes

variable {definitions : StrategyDefinitions} {outputs : Dict String SelectionStatement}
  {selections : Dict String LeanMomentumSelection} {program : SemanticProgram}

/-- Sleeves by id, as lowering one after the other leaves them. -/
def sleevesById (sleeves : List LeanTargetSleeve) : Dict String LeanTargetSleeve :=
  Dict.ofList (sleeves.map (fun sleeve => (sleeve.id, sleeve)))

theorem sleevesById_eq (sleeves : List LeanTargetSleeve) : sleevesById sleeves =
    sleeves.foldl (fun found sleeve => found.set sleeve.id sleeve) Dict.empty := by
  rw [sleevesById, Dict.ofList, List.foldl_map]

/-- The legs of an allocation with their sleeves. -/
def LoweredLegs (definitions : StrategyDefinitions) (outputs : Dict String SelectionStatement)
    (selections : Dict String LeanMomentumSelection) (a : AllocationStatement)
    (sleeves : List LeanTargetSleeve) : Prop :=
  List.Forall₂ (fun leg sleeve => lowerLeg definitions outputs selections a leg = .ok sleeve)
    a.legs sleeves

theorem lowerLeg_id {a : AllocationStatement} {leg : AllocationLeg} {sleeve : LeanTargetSleeve}
    (h : lowerLeg definitions outputs selections a leg = .ok sleeve) :
    sleeve.id = leg.semanticId := by
  unfold lowerLeg at h
  obtain ⟨target, -, h⟩ := except_bind_ok.mp h
  split at h
  · cases h
  · split at h
    · cases h
    · cases h
      rfl

theorem lowerLegs_ok {a : AllocationStatement} {legs : List AllocationLeg}
    {lowered final : LoweredSleeves}
    (h : lowerLegs definitions outputs selections a legs lowered = .ok final) :
    ∃ sleeves, List.Forall₂ (fun leg sleeve =>
        lowerLeg definitions outputs selections a leg = .ok sleeve) legs sleeves ∧
      final.sleeves = sleeves.foldl (fun found sleeve => found.set sleeve.id sleeve)
        lowered.sleeves ∧
      final.symbols = lowered.symbols ++
        sleeves.flatMap (fun sleeve => sleeve.symbols ++ sleeve.fallbackSymbols) := by
  induction legs generalizing lowered with
  | nil =>
      cases h
      exact ⟨[], .nil, rfl, (List.append_nil _).symm⟩
  | cons leg rest ih =>
      obtain ⟨sleeve, hSleeve, h⟩ := except_bind_ok.mp h
      obtain ⟨sleeves, hRest, hFinal, hSymbols⟩ := ih h
      exact ⟨sleeve :: sleeves, .cons hSleeve hRest, hFinal, by
        rw [hSymbols, List.flatMap_cons]
        simp only [List.append_assoc]⟩

theorem allocationSleeves_ok {a : AllocationStatement} {lowered final : LoweredSleeves}
    {ids : List String}
    (h : allocationSleeves definitions outputs selections a lowered = .ok (final, ids)) :
    ids = a.legs.map AllocationLeg.semanticId ∧
      ∃ sleeves, LoweredLegs definitions outputs selections a sleeves ∧
        final.sleeves = sleeves.foldl (fun found sleeve => found.set sleeve.id sleeve)
          lowered.sleeves ∧
        final.symbols = lowered.symbols ++
          sleeves.flatMap (fun sleeve => sleeve.symbols ++ sleeve.fallbackSymbols) := by
  unfold allocationSleeves at h
  split at h
  · cases h
  split at h
  · cases h
  obtain ⟨found, hFound, h⟩ := except_bind_ok.mp h
  dsimp only at h
  split at h
  · cases h
  · cases h
    exact ⟨rfl, lowerLegs_ok hFound⟩

/-- What a route is made of: one allocation, or a Control with an allocation in
each branch. -/
inductive RouteOf (definitions : StrategyDefinitions) (outputs : Dict String SelectionStatement)
    (selections : Dict String LeanMomentumSelection) (program : SemanticProgram)
    (statements : List ProgramStatement) (route : StaticRoute) : Prop where
  | allocation {a : AllocationStatement} {sleeves : List LeanTargetSleeve}
      (allocations : statements.filterMap ProgramStatement.allocation? = [a])
      (controls : statements.filterMap ProgramStatement.control? = [])
      (legs : LoweredLegs definitions outputs selections a sleeves)
      (rebalance : route.rebalance =
        { id := a.semanticId, sleeveIds := a.legs.map AllocationLeg.semanticId })
      (lowered : route.lowered.sleeves = sleevesById sleeves)
      (symbols : route.lowered.symbols =
        sleeves.flatMap (fun sleeve => sleeve.symbols ++ sleeve.fallbackSymbols))
      (clock : route.clockId = a.clockId.getD program.firstClockId)
  | control {control : ConditionalStatement} {thenAllocation otherwiseAllocation : AllocationStatement}
      {condition : List LeanComparison} {thenSleeves otherwiseSleeves : List LeanTargetSleeve}
      (allocations : statements.filterMap ProgramStatement.allocation? = [])
      (controls : statements.filterMap ProgramStatement.control? = [control])
      (thenOne : control.thenStatements.filterMap ProgramStatement.allocation? = [thenAllocation])
      (otherwiseOne : control.otherwiseStatements.filterMap ProgramStatement.allocation? =
        [otherwiseAllocation])
      (compared : programComparisons control.head.condition = .ok condition)
      (thenLegs : LoweredLegs definitions outputs selections thenAllocation thenSleeves)
      (otherwiseLegs : LoweredLegs definitions outputs selections otherwiseAllocation
        otherwiseSleeves)
      (rebalance : route.rebalance = {
        id := control.head.semanticId
        sleeveIds := thenAllocation.legs.map AllocationLeg.semanticId
        condition := condition
        conditionThreeValued := true
        conditionUnknownPolicy := control.head.unknownPolicy
        otherwiseSleeveIds := otherwiseAllocation.legs.map AllocationLeg.semanticId })
      (lowered : route.lowered.sleeves = sleevesById (thenSleeves ++ otherwiseSleeves))
      (symbols : route.lowered.symbols = (thenSleeves ++ otherwiseSleeves).flatMap
        (fun sleeve => sleeve.symbols ++ sleeve.fallbackSymbols))
      (clock : route.clockId = control.head.clockId.getD program.firstClockId)

theorem routeStatements_ok {statements : List ProgramStatement} {route : StaticRoute}
    (h : routeStatements definitions outputs selections program statements = .ok (some route)) :
    RouteOf definitions outputs selections program statements route := by
  unfold routeStatements at h
  split at h
  · cases h
  · cases h
  · rename_i a hAllocations hControls
    obtain ⟨found, hFound, hSome⟩ := except_map_ok.mp h
    cases hSome
    obtain ⟨⟨lowered, ids⟩, hSleeves, hRoute⟩ := except_bind_ok.mp hFound
    obtain ⟨rfl, sleeves, hLegs, hLowered, hSymbols⟩ := allocationSleeves_ok hSleeves
    cases hRoute
    exact .allocation hAllocations hControls hLegs rfl
      (hLowered.trans (sleevesById_eq sleeves).symm) (hSymbols.trans (List.nil_append _)) rfl
  · rename_i control hAllocations hControls
    obtain ⟨found, hFound, hSome⟩ := except_map_ok.mp h
    cases hSome
    unfold routeControl at hFound
    split at hFound
    · rename_i thenAllocation otherwiseAllocation hThen hOtherwise
      obtain ⟨⟨first, ids⟩, hFirst, hFound⟩ := except_bind_ok.mp hFound
      obtain ⟨condition, hCondition, hFound⟩ := except_bind_ok.mp hFound
      obtain ⟨⟨second, otherwiseIds⟩, hSecond, hRoute⟩ := except_bind_ok.mp hFound
      obtain ⟨rfl, thenSleeves, hThenLegs, hThenLowered, hThenSymbols⟩ := allocationSleeves_ok hFirst
      obtain ⟨rfl, otherwiseSleeves, hOtherwiseLegs, hLowered, hSymbols⟩ :=
        allocationSleeves_ok hSecond
      cases hRoute
      refine .control hAllocations hControls hThen hOtherwise hCondition hThenLegs hOtherwiseLegs rfl
        ?_ ?_ rfl
      · rw [sleevesById_eq, List.foldl_append, hLowered, hThenLowered]
      · rw [hSymbols, hThenSymbols, List.flatMap_append]
        rfl
    · cases hFound
  · cases h

theorem lowerSelection_id {statement : SelectionStatement} {selection : LeanMomentumSelection}
    (h : lowerSelection definitions statement = .ok selection) :
    selection.id = statement.selection.semanticId := by
  unfold lowerSelection at h
  split at h
  · cases h
  · obtain ⟨ranking, -, h⟩ := except_bind_ok.mp h
    obtain ⟨eligibility, -, h⟩ := except_bind_ok.mp h
    cases h
    rfl

theorem lowerSelections_ok {statements : List SelectionStatement}
    {lowered final : Dict String LeanMomentumSelection}
    (h : lowerSelections definitions statements lowered = .ok final) :
    ∃ found, List.Forall₂ (fun statement selection =>
        lowerSelection definitions statement = .ok selection) statements found ∧
      final = found.foldl (fun known selection => known.set selection.id selection) lowered := by
  induction statements generalizing lowered with
  | nil =>
      cases h
      exact ⟨[], .nil, rfl⟩
  | cons statement rest ih =>
      obtain ⟨selection, hSelection, h⟩ := except_bind_ok.mp h
      obtain ⟨found, hRest, hFinal⟩ := ih h
      refine ⟨selection :: found, .cons hSelection hRest, ?_⟩
      rw [List.foldl_cons, lowerSelection_id hSelection]
      exact hFinal

end Routes

end RuleTrade
