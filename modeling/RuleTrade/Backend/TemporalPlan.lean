import RuleTrade.Backend.TemporalBoundary
import RuleTrade.Execution.Trace

/-! What a compiled temporal plan is made of. -/

namespace RuleTrade

open Library

section Compilation

variable {ids : PlanIdentities} {strategy : CanonicalStrategy} {program : SemanticProgram}

def SemanticProgram.selections (program : SemanticProgram) : List SelectionStatement :=
  program.statements.filterMap ProgramStatement.selection?

/-- Selection ids by output, as a policy refers to them. -/
def SemanticProgram.outputs (program : SemanticProgram) : SelectionOutputs :=
  Dict.ofList (program.selections.map (fun s => (s.outputId, s.selection.semanticId)))

/-- The lowered pieces of a temporal Program. -/
structure TemporalPieces where
  policy : GuardedAllocationStatement
  events : List LeanTemporalEvent
  targets : List LeanTemporalPolicyTarget
  plans : List LeanPlan
  clockId : String

/-- The temporal program that the pieces make. -/
def TemporalPieces.temporal (pieces : TemporalPieces) (ids : PlanIdentities)
    (strategy : CanonicalStrategy) (program : SemanticProgram) : LeanTemporalProgram :=
  let symbols := temporalSymbols strategy.definitions pieces.events pieces.targets
    program.selections
  { profile := if program.selections = [] then eventProfile pieces.events
      else .composableSemanticExecution
    semanticId := program.semanticId
    checkpointIdentity :=
      ids.checkpoint program strategy.operatorLock (eventProfile pieces.events)
    operatorVersions := Sequence.sortBy Prod.fst strategy.operatorLock.entries
    clockId := pieces.clockId
    anchorSymbol := anchorSymbol pieces.events symbols
    initialState := Sequence.sortBy Prod.fst program.initialState.entries
    events := pieces.events
    policyStatementId := pieces.policy.semanticId
    policyTargets := pieces.targets
    assetUniverse := sortedSet (symbols ++ pieces.plans.flatMap LeanPlan.subscriptions).dedup }

/-- The plan that the pieces make, before it is sorted. -/
def TemporalPieces.plan (pieces : TemporalPieces) (ids : PlanIdentities)
    (strategy : CanonicalStrategy) (program : SemanticProgram) : LeanPlan where
  strategyIdentity := ids.strategy strategy
  subscriptions := (temporalSymbols strategy.definitions pieces.events pieces.targets
    program.selections ++ pieces.plans.flatMap LeanPlan.subscriptions).dedup
  targetSleeves := pieces.plans.flatMap LeanPlan.targetSleeves
  rebalances := []
  momentumSelections := pieces.plans.flatMap LeanPlan.momentumSelections
  temporalProgram := some (pieces.temporal ids strategy program)

/-- The pieces come from the statements of the Program. -/
structure TemporalPieces.Of (pieces : TemporalPieces) (ids : PlanIdentities)
    (strategy : CanonicalStrategy) (program : SemanticProgram) : Prop where
  policy : program.statements.filterMap ProgramStatement.policy? = [pieces.policy]
  shape : (program.statements.filterMap ProgramStatement.event?).length +
    program.selections.length + 1 = program.statements.length
  events : (program.statements.filterMap ProgramStatement.event?).mapM (fun source =>
    temporalEvent program source.1 source.2.1 source.2.2) = .ok pieces.events
  targets : policyTargets program.outputs pieces.policy = .ok pieces.targets
  symbols : temporalSymbols strategy.definitions pieces.events pieces.targets
    program.selections ≠ []
  plans : program.selections.mapM (isolatedPlan ids strategy program pieces.targets) =
    .ok pieces.plans
  clockId : temporalClock program pieces.events program.selections = .ok pieces.clockId

theorem normalizeLeanPlan_ok {raw plan : LeanPlan} (h : normalizeLeanPlan raw = .ok plan) :
    raw.checkIds = .ok () ∧ plan = raw.sorted := by
  obtain ⟨⟨⟩, hIds, hPlan⟩ := except_bind_ok.mp h
  exact ⟨hIds, (Except.ok.inj hPlan).symm⟩

/-- A compiled temporal plan is the sorted plan of the pieces of its Program. -/
theorem compileTemporalProgram_ok {plan : LeanPlan}
    (h : compileTemporalProgram ids strategy program = .ok (some plan)) :
    ∃ pieces : TemporalPieces, pieces.Of ids strategy program ∧
      (pieces.plan ids strategy program).checkIds = .ok () ∧
      plan = (pieces.plan ids strategy program).sorted := by
  simp only [compileTemporalProgram] at h
  split_ifs at h
  · cases h
  cases hCompiled : compileTemporal ids strategy program with
  | error e =>
      rw [hCompiled] at h
      cases h
  | ok compiled =>
      rw [hCompiled] at h
      cases h
      simp only [compileTemporal] at hCompiled
      split at hCompiled
      · rename_i policy hPolicy
        split at hCompiled
        · cases hCompiled
        rename_i hShape
        obtain ⟨events, hEvents, hCompiled⟩ := except_bind_ok.mp hCompiled
        obtain ⟨targets, hTargets, hCompiled⟩ := except_bind_ok.mp hCompiled
        split at hCompiled
        · cases hCompiled
        rename_i hSymbols
        obtain ⟨plans, hPlans, hCompiled⟩ := except_bind_ok.mp hCompiled
        obtain ⟨clockId, hClock, hCompiled⟩ := except_bind_ok.mp hCompiled
        obtain ⟨hIds, hPlan⟩ := normalizeLeanPlan_ok hCompiled
        exact ⟨⟨policy, events, targets, plans, clockId⟩,
          ⟨hPolicy, not_not.mp hShape, hEvents, hTargets, hSymbols, hPlans, hClock⟩, hIds, hPlan⟩
      · cases hCompiled

/-- The plan of one Selection is the static plan of its isolated Program, under
the name of the Selection. -/
theorem isolatedPlan_ok {targets : List LeanTemporalPolicyTarget} {statement : SelectionStatement}
    {plan : LeanPlan} (h : isolatedPlan ids strategy program targets statement = .ok plan) :
    ∃ static selection,
      (statement.semanticId ++ "-execution-allocation").length ≤ 100 ∧
      compileStaticProgram strategy.definitions
        (isolatedProgram program statement
          (readsProportionally targets statement.selection.semanticId))
        (ids.strategy (strategy.withProgram (isolatedProgram program statement
          (readsProportionally targets statement.selection.semanticId)))) = .ok (some static) ∧
      static.momentumSelections = [selection] ∧
      plan = { static with
        momentumSelections := [{ selection with id := statement.selection.semanticId }]
        targetSleeves := static.targetSleeves.map (renameSleeve statement.selection selection.id) } := by
  unfold isolatedPlan at h
  split at h
  · cases h
  rename_i hLength
  obtain ⟨⟨⟩, -, h⟩ := except_bind_ok.mp h
  obtain ⟨compiled, hCompiled, h⟩ := except_bind_ok.mp h
  cases compiled with
  | none => cases h
  | some static =>
      simp only at h
      split at h
      · rename_i selection hSelections
        exact ⟨static, selection, not_lt.mp hLength, hCompiled, hSelections,
          (Except.ok.inj h).symm⟩
      · cases h

/-- Every output that a policy may refer to has its selection in the plan. -/
theorem TemporalPieces.Of.selection_found {pieces : TemporalPieces} {plan : LeanPlan}
    (h : pieces.Of ids strategy program) (hPlan : plan = (pieces.plan ids strategy program).sorted)
    {output id : String} (hOutput : program.outputs.get? output = some id) :
    ∃ s ∈ plan.momentumSelections,
      plan.momentumSelections.find? (fun selection => selection.id = id) = some s ∧ s.id = id := by
  have hValue : id ∈ program.outputs.values :=
    List.mem_map.mpr ⟨_, Dict.mem_of_get? hOutput, rfl⟩
  obtain ⟨pair, hPair, hId⟩ := List.mem_map.mp (Dict.mem_values_ofList hValue)
  obtain ⟨statement, hStatement, rfl⟩ := List.mem_map.mp hPair
  obtain ⟨isolated, hIsolated, hPlanOf⟩ :=
    Sequence.exists_right (Sequence.forall₂_of_mapM h.plans) hStatement
  obtain ⟨static, selection, -, -, -, rfl⟩ := isolatedPlan_ok hPlanOf
  have hMem : { selection with id := statement.selection.semanticId } ∈ plan.momentumSelections := by
    rw [hPlan]
    exact Sequence.mem_sortBy.mpr
      (List.mem_flatMap.mpr ⟨_, hIsolated, List.mem_singleton_self _⟩)
  cases hFind : plan.momentumSelections.find? (fun selection => selection.id = id) with
  | none =>
      have hNone := List.find?_eq_none.mp hFind _ hMem
      exact absurd hId (by simpa using hNone)
  | some s =>
      have hFound := List.find?_some hFind
      exact ⟨s, List.mem_of_find?_eq_some hFind, rfl, by simpa using hFound⟩

end Compilation

end RuleTrade
