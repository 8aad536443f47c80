import RuleTrade.Backend.StaticPlan

/-! The compiler of persisted strategies: which lowering a strategy goes to. -/

namespace RuleTrade

open Library

section Selections

/-- Statements that only the reference executes. -/
def ProgramStatement.isUnsupported : ProgramStatement → Bool
  | .select _ | .allocate _ => false
  | _ => true

def AllocationStatement.reads (a : AllocationStatement) (outputId : String) : Bool :=
  a.legs.any (fun leg => leg.target.kind = .selection outputId)

/-- The one Selection of a Program with its allocation and timing. -/
structure ProgramSelection where
  statement : SelectionStatement
  allocation : AllocationStatement
  timeframe : Timeframe

/-- Clock of a Selection or of its allocation, the first clock when it has none. -/
def SemanticProgram.selectionClock (program : SemanticProgram) (statement : SelectionStatement)
    (a : AllocationStatement) : Option ProgramClock :=
  (((statement.clockId.orElse (fun _ => a.clockId)).bind program.clock?).orElse
    (fun _ => program.clocks.head?))

/-- The timing of a Selection that an allocation trades. -/
def SemanticProgram.selectionOf (program : SemanticProgram) (statement : SelectionStatement)
    (a : AllocationStatement) : Except CompileError ProgramSelection :=
  if a.method ≠ .equal ∧ a.method ≠ .proportionalScore then
    .error (.refused "production Program lowering requires one supported Selection allocation")
  else if a.minimumWeight.isSome ∨ a.maximumWeight.isSome ∨ a.cashRemainderAsset.isSome then
    .error (.refused "bounded Selection allocation has no maintained LEAN lowering")
  else
    match program.selectionClock statement a with
    | none => .error .indexOutOfRange
    | some clock =>
        if clock.timeframe ≠ .daily ∧ clock.timeframe ≠ .monthly then
          .error (.refused (clock.timeframe.text ++
            " Program timing has no maintained LEAN lowering"))
        else .ok ⟨statement, a, clock.timeframe⟩

def programSelection (program : SemanticProgram) : Except CompileError ProgramSelection :=
  let statements := programStatements program.statements
  match statements.find? ProgramStatement.isUnsupported with
  | some statement =>
      .error (.refused ("Program statement " ++ quoted statement.kindText ++
        " is reference-valid but has no maintained LEAN lowering"))
  | none =>
      match statements.filterMap ProgramStatement.selection? with
      | [statement] =>
          match (statements.filterMap ProgramStatement.allocation?).filter
              (fun a => a.reads statement.outputId) with
          | [a] => program.selectionOf statement a
          | _ =>
              .error (.refused
                "production Program lowering requires one supported Selection allocation")
      | _ =>
          .error (.refused "production Program lowering currently requires exactly one Selection")

end Selections

section Compile

/-- Compilations by way of the older strategy format: of a strategy as a whole,
and of one Selection of a Program. -/
structure LegacyRoutes where
  strategy : CanonicalStrategy → Except CompileError LeanPlan
  selection : CanonicalStrategy → ProgramSelection → Except CompileError LeanPlan

/-- Compile a persisted strategy. An older Selection has the last word, even
next to a Program. -/
def compileV2 (legacy : LegacyRoutes) (ids : PlanIdentities) (strategy : CanonicalStrategy) :
    Except CompileError LeanPlan := do
  checkStrategy strategy
  match strategy.selection, strategy.program with
  | none, some program => do
      match ← compileTemporalProgram ids strategy program with
      | some plan => .ok plan
      | none => do
          match ← compileStaticProgram strategy.definitions program (ids.strategy strategy) with
          | some plan => .ok plan
          | none => do
              let found ← programSelection program
              legacy.selection strategy found
  | _, _ => legacy.strategy strategy

end Compile

section Left

variable {definitions : StrategyDefinitions} {program : SemanticProgram} {identity : String}

theorem flattened_self (statement : ProgramStatement) : statement ∈ statement.flattened := by
  cases statement <;> simp [ProgramStatement.flattened]

theorem programStatements_eq_flatMap (statements : List ProgramStatement) :
    programStatements statements = statements.flatMap ProgramStatement.flattened := by
  induction statements with
  | nil => rfl
  | cons first rest ih => rw [programStatements, ih, List.flatMap_cons]

theorem mem_programStatements {statements : List ProgramStatement} {statement : ProgramStatement}
    (h : statement ∈ statements) : statement ∈ programStatements statements := by
  rw [programStatements_eq_flatMap]
  exact List.mem_flatMap.mpr ⟨statement, h, flattened_self statement⟩

theorem programStatements_plain {statements : List ProgramStatement}
    (h : ∀ statement ∈ statements, statement.isUnsupported = false) :
    programStatements statements = statements := by
  induction statements with
  | nil => rfl
  | cons first rest ih =>
      have hRest := ih (fun s hs => h s (List.mem_cons_of_mem _ hs))
      have hFirst := h first List.mem_cons_self
      rw [programStatements, hRest]
      cases first with
      | select s => rfl
      | allocate s => rfl
      | _ => cases hFirst

theorem routeStatements_none {outputs : Dict String SelectionStatement}
    {selections : Dict String LeanMomentumSelection} {statements : List ProgramStatement}
    (h : routeStatements definitions outputs selections program statements = .ok none) :
    statements.filterMap ProgramStatement.allocation? = [] := by
  unfold routeStatements at h
  split at h
  · assumption
  · cases h
  · obtain ⟨_, -, hRoute⟩ := except_map_ok.mp h
    cases hRoute
  · obtain ⟨_, -, hRoute⟩ := except_map_ok.mp h
    cases hRoute
  · cases h

/-- The static lowering leaves a Program only when it has nothing to allocate at
the top, or a statement of another kind. -/
theorem compileStaticProgram_none
    (h : compileStaticProgram definitions program identity = .ok none) :
    program.staticStatements.filterMap ProgramStatement.allocation? = [] ∨
      (programStatements program.staticStatements).all ProgramStatement.isStatic = false := by
  unfold compileStaticProgram at h
  dsimp only at h
  split at h
  · rename_i hLeft
    rcases hLeft with hEmpty | hOther
    · rw [hEmpty]
      exact Or.inl rfl
    · exact Or.inr (by simpa using hOther)
  split at h
  · cases h
  obtain ⟨selections, -, h⟩ := except_bind_ok.mp h
  obtain ⟨found, hRoute, h⟩ := except_bind_ok.mp h
  cases found with
  | none => exact Or.inl (routeStatements_none hRoute)
  | some route =>
      obtain ⟨plan, -, hPlan⟩ := except_bind_ok.mp h
      cases hPlan

/-- An allocation that reads a Selection is not the placeholder. -/
theorem AllocationStatement.reads_not_initial {a : AllocationStatement} {outputId : String}
    (h : a.reads outputId = true) : (ProgramStatement.allocate a).isInitialRetain = false := by
  obtain ⟨leg, hLeg, hKind⟩ := List.any_eq_true.mp h
  by_contra hInitial
  simp only [ProgramStatement.isInitialRetain, Bool.not_eq_false, Bool.and_eq_true,
    decide_eq_true_eq] at hInitial
  have hMem : leg.target.kind ∈ a.legs.map (fun leg => leg.target.kind) :=
    List.mem_map.mpr ⟨leg, hLeg, rfl⟩
  rw [hInitial.2, List.mem_singleton, of_decide_eq_true hKind] at hMem
  cases hMem

/-- The older conversion takes no Program that the static lowering left. -/
theorem programSelection_left (h : compileStaticProgram definitions program identity = .ok none)
    (found : ProgramSelection) : programSelection program ≠ .ok found := by
  intro hFound
  unfold programSelection at hFound
  dsimp only at hFound
  split at hFound
  · cases hFound
  rename_i hSupported
  have hKnown : ∀ s ∈ programStatements program.statements, s.isUnsupported = false := fun s hs => by
    simpa using List.find?_eq_none.mp hSupported s hs
  have hFlat := programStatements_plain (fun s hs => hKnown s (mem_programStatements hs))
  split at hFound
  · rename_i statement _
    split at hFound
    · rename_i a hReads
      have hMem : a ∈ ((programStatements program.statements).filterMap
          ProgramStatement.allocation?).filter (fun a => a.reads statement.outputId) := by
        rw [hReads]
        exact List.mem_singleton_self a
      obtain ⟨hAllocation, hRead⟩ := List.mem_filter.mp hMem
      obtain ⟨source, hSource, hIs⟩ := List.mem_filterMap.mp hAllocation
      have hStatement : source = .allocate a := by
        cases source <;> cases hIs
        rfl
      rw [hFlat, hStatement] at hSource
      have hStatic : ProgramStatement.allocate a ∈ program.staticStatements :=
        List.mem_filter.mpr ⟨hSource, by simp [AllocationStatement.reads_not_initial hRead]⟩
      rcases compileStaticProgram_none h with hNone | hOther
      · have hAt : a ∈ program.staticStatements.filterMap ProgramStatement.allocation? :=
          List.mem_filterMap.mpr ⟨_, hStatic, rfl⟩
        rw [hNone] at hAt
        cases hAt
      · obtain ⟨other, hOther, hKind⟩ := List.all_eq_false.mp hOther
        rw [programStatements_eq_flatMap] at hOther
        obtain ⟨top, hTop, hInside⟩ := List.mem_flatMap.mp hOther
        have hPlain := hKnown other (by
          rw [programStatements_eq_flatMap]
          exact List.mem_flatMap.mpr ⟨top, List.mem_of_mem_filter hTop, hInside⟩)
        cases other <;> simp_all [ProgramStatement.isUnsupported, ProgramStatement.isStatic]
    · cases hFound
  · cases hFound

/-- The plan of an accepted Program is that of one of the two lowerings. -/
theorem compileV2_ok {legacy : LegacyRoutes} {ids : PlanIdentities} {strategy : CanonicalStrategy}
    {program : SemanticProgram} {plan : LeanPlan} (hProgram : strategy.program = some program)
    (hSelection : strategy.selection = none) (h : compileV2 legacy ids strategy = .ok plan) :
    checkStrategy strategy = .ok () ∧
      (compileTemporalProgram ids strategy program = .ok (some plan) ∨
        compileTemporalProgram ids strategy program = .ok none ∧
          compileStaticProgram strategy.definitions program (ids.strategy strategy) =
            .ok (some plan)) := by
  unfold compileV2 at h
  obtain ⟨⟨⟩, hCheck, h⟩ := except_bind_ok.mp h
  rw [hSelection, hProgram] at h
  obtain ⟨temporal, hTemporal, h⟩ := except_bind_ok.mp h
  cases temporal with
  | some found =>
      cases h
      exact ⟨hCheck, Or.inl hTemporal⟩
  | none =>
      obtain ⟨static, hStatic, h⟩ := except_bind_ok.mp h
      cases static with
      | some found =>
          cases h
          exact ⟨hCheck, Or.inr ⟨hTemporal, hStatic⟩⟩
      | none =>
          obtain ⟨found, hFound, -⟩ := except_bind_ok.mp h
          exact absurd hFound (programSelection_left hStatic found)

end Left

end RuleTrade
