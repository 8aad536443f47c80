import RuleTrade.Backend.Rebalance
import RuleTrade.Properties.ClockGates

/-! Routing of a static plan against the reference: the statements the plan
represents, and the allocation that each side comes to. -/

namespace RuleTrade

open Library

section Conditions

/-- Both sides read the same numbers for the operands of a condition. -/
def OperandsAgree (d : Decision) (market : GeneratedMarket) (operands : List ValueExpression) : Prop :=
  ∀ v ∈ operands, ∀ lowered, programValue v = .ok lowered → ∀ r, ∃ observation,
    (value d r none [] v none).result = .ok observation ∧
      observation.value = lowered.read market ""

variable {d : Decision} {market : GeneratedMarket}

mutual

/-- A condition is the conjunction of the comparisons it is lowered to. -/
theorem condition_lowered {c : Condition} {comparisons : List LeanComparison}
    (hLowered : programComparisons c = .ok comparisons)
    (hAgree : OperandsAgree d market c.values) (r : Runtime) :
    (condition d r none [] c none).result =
      .ok (Truth.all (comparisons.map (LeanComparison.truth market))) := by
  cases c with
  | comparison id operator left right =>
      obtain ⟨lowLeft, hLeft, hLowered⟩ := except_bind_ok.mp hLowered
      obtain ⟨lowRight, hRight, hLowered⟩ := except_bind_ok.mp hLowered
      cases hLowered
      obtain ⟨l, hReadLeft, hSameLeft⟩ := hAgree left (by simp [Condition.values]) lowLeft hLeft r
      obtain ⟨x, hReadRight, hSameRight⟩ := hAgree right (by simp [Condition.values]) lowRight
        hRight r
      simp only [condition, Logged.result_bind_of_ok hReadLeft, Logged.result_bind_of_ok hReadRight,
        Logged.result_pure, hSameLeft, hSameRight, List.map_cons, List.map_nil, Truth.all_cons,
        Truth.all_nil, Truth.and_true]
      rfl
  | booleanGroup id kind children =>
      cases kind with
      | all =>
          obtain ⟨outcomes, hOutcomes, hAll⟩ := conditions_lowered hLowered
            (by rwa [Condition.values] at hAgree) r
          simp only [condition, Logged.result_bind_of_ok hOutcomes, Logged.result_pure, hAll]
      | any => cases hLowered
  | not id child => cases hLowered
  | stateEquals id key expected => cases hLowered
  | nOfM id minimumTrue children => cases hLowered
  | eventWindow id event relation => cases hLowered

theorem conditions_lowered {children : List Condition} {comparisons : List LeanComparison}
    (hLowered : allProgramComparisons children = .ok comparisons)
    (hAgree : OperandsAgree d market (Condition.allValues children)) (r : Runtime) :
    ∃ outcomes, (conditions d r none [] children none).result = .ok outcomes ∧
      Truth.all outcomes = Truth.all (comparisons.map (LeanComparison.truth market)) := by
  cases children with
  | nil =>
      cases hLowered
      exact ⟨[], rfl, rfl⟩
  | cons child rest =>
      obtain ⟨first, hFirst, hLowered⟩ := except_bind_ok.mp hLowered
      obtain ⟨later, hLater, hLowered⟩ := except_bind_ok.mp hLowered
      cases hLowered
      have hChild := condition_lowered hFirst
        (fun v hv => hAgree v (List.mem_append_left _ hv)) r
      obtain ⟨outcomes, hOutcomes, hAll⟩ := conditions_lowered hLater
        (fun v hv => hAgree v (List.mem_append_right _ hv)) r
      refine ⟨Truth.all (first.map (LeanComparison.truth market)) :: outcomes, ?_, ?_⟩
      · simp only [conditions, Logged.result_bind_of_ok hChild, Logged.result_bind_of_ok hOutcomes,
          Logged.result_pure]
      · rw [Truth.all_cons, hAll, List.map_append, Truth.all_append]

end

/-- The rebalance of a Control takes the branch of the Control. -/
theorem branch_control {head : ConditionalHead} {rebalance : LeanRebalance}
    (hPredicate : rebalance.predicate = none) (hThree : rebalance.conditionThreeValued = true)
    (hPolicy : rebalance.conditionUnknownPolicy = head.unknownPolicy)
    (hOtherwise : rebalance.otherwiseSleeveIds ≠ []) :
    rebalance.branch market =
      head.branch (Truth.all (rebalance.condition.map (LeanComparison.truth market))) := by
  have hHas : rebalance.hasOtherwise = true := by
    simp [LeanRebalance.hasOtherwise, hOtherwise]
  have hLegacy : rebalance.usesLegacyPredicate = false := by
    simp [LeanRebalance.usesLegacyPredicate, hPredicate]
  cases hCondition : rebalance.condition with
  | nil =>
      have hOutcome : rebalance.outcome market = none := by
        simp [LeanRebalance.outcome, hCondition, hPredicate]
      rw [LeanRebalance.branch, hOutcome]
      rfl
  | cons first rest =>
      have hOutcome : rebalance.outcome market =
          some (Truth.all ((first :: rest).map (LeanComparison.truth market))) := by
        simp [LeanRebalance.outcome, hCondition, hLegacy, hThree]
      simp only [LeanRebalance.branch, hOutcome, hPolicy, hHas, ConditionalHead.branch]
      cases Truth.all ((first :: rest).map (LeanComparison.truth market)) <;>
        cases head.unknownPolicy <;> rfl

end Conditions

section Statements

variable {d : Decision} {r final : Runtime}

/-- Plain statements are entered one after the other. -/
theorem steps_plain {plain rest : List ProgramStatement} {trace : List (Runtime × ProgramStatement)}
    (hPlain : ∀ s ∈ plain, s.isUnsupported = false)
    (h : Agenda.Steps (enterState d) r (plain ++ rest) trace final []) :
    ∃ r' later, Agenda.Steps (enterState d) r' rest later final [] ∧
      trace.map Prod.snd = plain ++ later.map Prod.snd := by
  induction plain generalizing r trace with
  | nil => exact ⟨r, trace, h, rfl⟩
  | cons s plain ih =>
      cases h with
      | @step _ s' _ _ body _ _ later hEnter hLater =>
          have hBody : body = [] := by
            rcases body_of_enter hEnter with hNil | hMem
            · exact hNil
            · have hKind := hPlain s List.mem_cons_self
              cases s <;> simp_all [ProgramStatement.isUnsupported, ProgramStatement.bodies]
          subst hBody
          obtain ⟨r', tail, hTail, hTrace⟩ :=
            ih (fun s hs => hPlain s (List.mem_cons_of_mem _ hs)) hLater
          exact ⟨r', tail, hTail, by rw [List.map_cons, hTrace, List.cons_append]⟩

theorem steps_first {s : ProgramStatement} {rest : List ProgramStatement}
    {trace : List (Runtime × ProgramStatement)} (hPlain : s.isUnsupported = false)
    (h : Agenda.Steps (enterState d) r (s :: rest) trace final []) :
    ∃ r' later, Agenda.Steps (enterState d) r' rest later final [] ∧
      trace.map Prod.snd = s :: later.map Prod.snd := by
  have hOne : ∀ x ∈ [s], x.isUnsupported = false := fun x hx => by
    rw [List.mem_singleton.mp hx]
    exact hPlain
  exact steps_plain hOne h

/-- Statements entered for one statement, when Controls take these branches. -/
def ProgramStatement.entered (branchOf : ConditionalHead → ControlBranch) :
    ProgramStatement → List ProgramStatement
  | .control head thenStatements otherwiseStatements =>
      .control head thenStatements otherwiseStatements ::
        (branchOf head).pick thenStatements otherwiseStatements
  | statement => [statement]

/-- Without nested Controls a decision enters the statements in order, each with
its branch. -/
theorem steps_entered (outcome : ConditionalHead → Truth) {statements : List ProgramStatement}
    {trace : List (Runtime × ProgramStatement)}
    (hStatic : ∀ s ∈ statements, s.isStatic = true)
    (hControls : ∀ control ∈ statements.filterMap ProgramStatement.control?,
      d.due control.head.clockId = .ok true ∧
      (∀ r, (predicate d r control.head.condition).result = .ok (outcome control.head)) ∧
      ∀ s ∈ control.thenStatements ++ control.otherwiseStatements, s.isUnsupported = false)
    (h : Agenda.Steps (enterState d) r statements trace final []) :
    trace.map Prod.snd = statements.flatMap
      (ProgramStatement.entered (fun head => head.branch (outcome head))) := by
  induction statements generalizing r trace with
  | nil =>
      cases h
      rfl
  | cons s rest ih =>
      have hRest : ∀ {r trace}, Agenda.Steps (enterState d) r rest trace final [] →
          trace.map Prod.snd = rest.flatMap
            (ProgramStatement.entered (fun head => head.branch (outcome head))) := by
        intro r trace hSteps
        refine ih (fun s hs => hStatic s (List.mem_cons_of_mem _ hs)) (fun control hControl => ?_) hSteps
        apply hControls
        rw [List.filterMap_cons]
        split
        · exact hControl
        · exact List.mem_cons_of_mem _ hControl
      have hKind := hStatic s List.mem_cons_self
      rw [List.flatMap_cons]
      cases s with
      | select s =>
          obtain ⟨r', later, hLater, hTrace⟩ := steps_first rfl h
          rw [hTrace, hRest hLater]
          rfl
      | allocate a =>
          obtain ⟨r', later, hLater, hTrace⟩ := steps_first rfl h
          rw [hTrace, hRest hLater]
          rfl
      | control head thenStatements otherwiseStatements =>
          obtain ⟨hDue, hOutcome, hPlain⟩ :=
            hControls ⟨head, thenStatements, otherwiseStatements⟩ List.mem_cons_self
          cases h with
          | step hEnter hLater =>
              cases effect_of_enter hEnter with
              | notDue _ due =>
                  rw [ProgramStatement.clockId, hDue] at due
                  cases due
              | controlled _ _ _ due evaluated =>
                  rw [hOutcome, Except.ok.injEq] at evaluated
                  rw [← evaluated] at hLater
                  have hBody : ∀ s ∈ (head.branch (outcome head)).pick thenStatements
                      otherwiseStatements, s.isUnsupported = false := by
                    intro s hs
                    apply hPlain
                    cases hTaken : head.branch (outcome head) <;> rw [hTaken] at hs
                    · exact List.mem_append_left _ hs
                    · exact List.mem_append_right _ hs
                    · cases hs
                  obtain ⟨r', later, hLater, hTrace⟩ := steps_plain hBody hLater
                  rw [List.map_cons, hTrace, hRest hLater]
                  rfl
      | _ => cases hKind

end Statements

section Representation

variable (definitions : StrategyDefinitions) (program : SemanticProgram) (plan : LeanPlan)

/-- Statements of a Program at every depth, without the placeholder. -/
def SemanticProgram.executable (program : SemanticProgram) : List ProgramStatement :=
  programStatements program.staticStatements

def SemanticProgram.allocations (program : SemanticProgram) : List AllocationStatement :=
  program.executable.filterMap ProgramStatement.allocation?

def SemanticProgram.controls (program : SemanticProgram) : List ConditionalStatement :=
  program.executable.filterMap ProgramStatement.control?

/-- What a leg of an allocation is lowered to. -/
def LoweredLeg (a : AllocationStatement) (leg : AllocationLeg) (sleeve : LeanTargetSleeve) : Prop :=
  ∃ selections, lowerSelections definitions program.staticSelections Dict.empty = .ok selections ∧
    lowerLeg definitions (selectionsByOutput program.staticSelections) selections a leg = .ok sleeve

/-- Investing in the sleeves `ids` performs an allocation: leg by leg they are
what the allocation is lowered to. -/
def Performs (a : AllocationStatement) (ids : List String) : Prop :=
  ids = a.legs.map AllocationLeg.semanticId ∧
    ∀ leg ∈ a.legs, ∃ sleeve, plan.sleeve? leg.semanticId = some sleeve ∧
      LoweredLeg definitions program a leg sleeve

/-- A rebalance tests what a Control tests. -/
def TestedBy (control : ConditionalStatement) (rebalance : LeanRebalance) : Prop :=
  rebalance.id = control.head.semanticId ∧
    programComparisons control.head.condition = .ok rebalance.condition ∧
    rebalance.conditionUnknownPolicy = control.head.unknownPolicy

/-- Sleeves of the branches of a rebalance. -/
def LeanRebalance.branches (rebalance : LeanRebalance) : List (List String) :=
  if rebalance.conditionThreeValued then [rebalance.sleeveIds, rebalance.otherwiseSleeveIds]
  else [rebalance.sleeveIds]

/-- Every executable statement of a Program stands in its plan, one for one. -/
structure Represented : Prop where
  selections : ∀ s ∈ program.staticSelections, ∃ selection ∈ plan.momentumSelections,
    lowerSelection definitions s = .ok selection
  controls : List.Forall₂ TestedBy program.controls
    (plan.rebalances.filter LeanRebalance.conditionThreeValued)
  allocations : List.Forall₂ (Performs definitions program plan) program.allocations
    (plan.rebalances.flatMap LeanRebalance.branches)

/-- Allocations that a decision executed, without the placeholder. -/
def reached (trace : List (Runtime × ProgramStatement)) : List AllocationStatement :=
  ((trace.map Prod.snd).filter (fun s => !s.isInitialRetain)).filterMap
    ProgramStatement.allocation?

/-- At every decision at which the Controls are due, the generated rebalance
performs the allocation that the reference reaches. -/
def Follows : Prop :=
  ∀ (d : Decision) (start final : Runtime) (trace : List (Runtime × ProgramStatement))
    (market : GeneratedMarket), d.program = program → d.Traced start trace final →
    (∀ control ∈ program.controls, d.due control.head.clockId = .ok true ∧
      OperandsAgree d market control.head.condition.values) →
    List.Forall₂ (Performs definitions program plan) (reached trace)
      (plan.rebalances.flatMap (LeanRebalance.takenSleeves market))

/-- A Program whose plan can hold it: no Control stands in a branch of another,
and neither two Selections nor two legs of one id are lowered differently. -/
structure Holdable : Prop where
  unnested : ∀ control ∈ program.controls,
    (control.thenStatements ++ control.otherwiseStatements).filterMap ProgramStatement.control? = []
  selections : ∀ s ∈ program.staticSelections, ∀ t ∈ program.staticSelections,
    s.selection.semanticId = t.selection.semanticId →
      lowerSelection definitions s = lowerSelection definitions t
  legs : ∀ a ∈ program.allocations, ∀ leg ∈ a.legs, ∀ b ∈ program.allocations, ∀ other ∈ b.legs,
    leg.semanticId = other.semanticId → ∀ sleeve, LoweredLeg definitions program a leg sleeve ↔
      LoweredLeg definitions program b other sleeve

end Representation

section Routing

variable {definitions : StrategyDefinitions} {program : SemanticProgram} {plan : LeanPlan}
  {identity : String} {β : Type}

/-- Statements that decide what is held. -/
def ProgramStatement.routes (s : ProgramStatement) : Bool := s.selection?.isNone

theorem routing_nil {statements : List ProgramStatement}
    (hStatic : ∀ s ∈ statements, s.isStatic = true)
    (hAllocations : statements.filterMap ProgramStatement.allocation? = [])
    (hControls : statements.filterMap ProgramStatement.control? = []) :
    statements.filter ProgramStatement.routes = [] := by
  refine List.filter_eq_nil_iff.mpr (fun s hs => ?_)
  have hKind := hStatic s hs
  have hAllocation := List.filterMap_eq_nil_iff.mp hAllocations s hs
  have hControl := List.filterMap_eq_nil_iff.mp hControls s hs
  cases s <;> simp_all [ProgramStatement.isStatic, ProgramStatement.allocation?,
    ProgramStatement.control?, ProgramStatement.routes, ProgramStatement.selection?]

/-- The one statement that routes. -/
theorem routing_allocation {statements : List ProgramStatement} {a : AllocationStatement}
    (hStatic : ∀ s ∈ statements, s.isStatic = true)
    (hAllocations : statements.filterMap ProgramStatement.allocation? = [a])
    (hControls : statements.filterMap ProgramStatement.control? = []) :
    statements.filter ProgramStatement.routes = [.allocate a] := by
  induction statements with
  | nil => cases hAllocations
  | cons s rest ih =>
      have hRest : ∀ s ∈ rest, s.isStatic = true := fun s hs => hStatic s (List.mem_cons_of_mem _ hs)
      have hKind := hStatic s List.mem_cons_self
      cases s with
      | select s =>
          rw [List.filter_cons_of_neg (by simp [ProgramStatement.routes, ProgramStatement.selection?])]
          exact ih hRest hAllocations hControls
      | allocate b =>
          rw [List.filter_cons_of_pos rfl]
          obtain ⟨rfl, hNone⟩ := List.cons.inj hAllocations
          rw [routing_nil hRest hNone hControls]
      | control head thenStatements otherwiseStatements => cases hControls
      | _ => cases hKind

theorem routing_control {statements : List ProgramStatement} {control : ConditionalStatement}
    (hStatic : ∀ s ∈ statements, s.isStatic = true)
    (hAllocations : statements.filterMap ProgramStatement.allocation? = [])
    (hControls : statements.filterMap ProgramStatement.control? = [control]) :
    statements.filter ProgramStatement.routes =
      [.control control.head control.thenStatements control.otherwiseStatements] := by
  induction statements with
  | nil => cases hControls
  | cons s rest ih =>
      have hRest : ∀ s ∈ rest, s.isStatic = true := fun s hs => hStatic s (List.mem_cons_of_mem _ hs)
      have hKind := hStatic s List.mem_cons_self
      cases s with
      | select s =>
          rw [List.filter_cons_of_neg (by simp [ProgramStatement.routes, ProgramStatement.selection?])]
          exact ih hRest hAllocations hControls
      | allocate b => cases hAllocations
      | control head thenStatements otherwiseStatements =>
          rw [List.filter_cons_of_pos rfl]
          obtain ⟨rfl, hNone⟩ := List.cons.inj hControls
          rw [routing_nil hRest hAllocations hNone]
      | _ => cases hKind

/-- What is collected of the statements is collected of those that route. -/
theorem flatMap_routing {statements : List ProgramStatement} {g : ProgramStatement → List β}
    (hSelect : ∀ s, g (.select s) = []) :
    statements.flatMap g = (statements.filter ProgramStatement.routes).flatMap g := by
  refine (Sequence.flatMap_filter (fun s _ hRoutes => ?_)).symm
  cases s with
  | select s => exact hSelect s
  | _ => cases hRoutes

/-- The placeholder is an allocation. -/
theorem initialRetain_allocation {s : ProgramStatement} (h : s.isInitialRetain = true) :
    s.isStatic = true := by
  cases s with
  | allocate a => rfl
  | _ => cases h

theorem static_statements (hStatic : (programStatements program.staticStatements).all
    ProgramStatement.isStatic = true) : ∀ s ∈ program.statements, s.isStatic = true := by
  intro s hs
  cases hInitial : s.isInitialRetain with
  | true => exact initialRetain_allocation hInitial
  | false =>
      have hKept : s ∈ program.staticStatements := List.mem_filter.mpr ⟨hs, by simp [hInitial]⟩
      exact List.all_eq_true.mp hStatic s (mem_programStatements hKept)

variable {outputs : Dict String SelectionStatement}
  {selections : Dict String LeanMomentumSelection} {route : StaticRoute}

theorem controls_allocation {a : AllocationStatement}
    (hStatic : ∀ s ∈ program.staticStatements, s.isStatic = true)
    (hAllocations : program.staticStatements.filterMap ProgramStatement.allocation? = [a])
    (hControls : program.staticStatements.filterMap ProgramStatement.control? = []) :
    program.controls = [] ∧ program.allocations = [a] := by
  have hRouting := routing_allocation hStatic hAllocations hControls
  unfold SemanticProgram.controls SemanticProgram.allocations SemanticProgram.executable
  rw [programStatements_eq_flatMap, List.filterMap_flatMap, List.filterMap_flatMap,
    flatMap_routing (fun _ => rfl), flatMap_routing (g := fun s =>
      s.flattened.filterMap ProgramStatement.allocation?) (fun _ => rfl), hRouting]
  exact ⟨rfl, rfl⟩

theorem controls_control {control : ConditionalStatement}
    (hStatic : ∀ s ∈ program.staticStatements, s.isStatic = true)
    (hAllocations : program.staticStatements.filterMap ProgramStatement.allocation? = [])
    (hControls : program.staticStatements.filterMap ProgramStatement.control? = [control]) :
    program.controls = control ::
        (programStatements control.thenStatements ++
          programStatements control.otherwiseStatements).filterMap ProgramStatement.control? ∧
      program.allocations =
        (programStatements control.thenStatements ++
          programStatements control.otherwiseStatements).filterMap
            ProgramStatement.allocation? := by
  have hRouting := routing_control hStatic hAllocations hControls
  unfold SemanticProgram.controls SemanticProgram.allocations SemanticProgram.executable
  rw [programStatements_eq_flatMap, List.filterMap_flatMap, List.filterMap_flatMap,
    flatMap_routing (fun _ => rfl), flatMap_routing (g := fun s =>
      s.flattened.filterMap ProgramStatement.allocation?) (fun _ => rfl), hRouting,
    List.flatMap_singleton, List.flatMap_singleton]
  exact ⟨rfl, rfl⟩

end Routing

section Lookup

variable {definitions : StrategyDefinitions} {program : SemanticProgram} {identity : String}
  {pieces : StaticPieces}

theorem selectionIds_nodup (hIds : (pieces.plan definitions program identity).checkIds = .ok ()) :
    ((pieces.plan definitions program identity).sorted.momentumSelections.map
      LeanMomentumSelection.id).Nodup :=
  ((Sequence.perm_sortBy LeanMomentumSelection.id _).map _).nodup_iff.mpr
    (checkIds_ok.mp hIds).momentumSelections

/-- A sleeve is found in the plan as it was found while lowering. -/
theorem sleeve?_sorted {sleeves : List LeanTargetSleeve}
    (hIds : (pieces.plan definitions program identity).checkIds = .ok ())
    (hSleeves : pieces.route.lowered.sleeves = sleevesById sleeves) {id : String}
    {sleeve : LeanTargetSleeve} (h : (sleevesById sleeves).get? id = some sleeve) :
    (pieces.plan definitions program identity).sorted.sleeve? id = some sleeve := by
  obtain ⟨found, -, hPair⟩ := List.mem_map.mp (Dict.mem_of_get?_ofList h)
  have hId : sleeve.id = id := by
    cases hPair
    rfl
  have hValue : sleeve ∈ (pieces.plan definitions program identity).targetSleeves := by
    change sleeve ∈ pieces.route.lowered.sleeves.values
    rw [hSleeves]
    exact List.mem_map.mpr ⟨_, Dict.mem_of_get? h, rfl⟩
  have hUnique : ((pieces.plan definitions program identity).sorted.targetSleeves.map
      LeanTargetSleeve.id).Nodup :=
    ((Sequence.perm_sortBy LeanTargetSleeve.id _).map _).nodup_iff.mpr
      (checkIds_ok.mp hIds).targetSleeves
  rw [← hId]
  exact Sequence.find?_of_nodup hUnique (Sequence.mem_sortBy.mpr hValue)

/-- Selections of one id that are lowered alike are all in the plan. -/
theorem selections_represented (hOf : pieces.Of definitions program)
    (hAlike : ∀ s ∈ program.staticSelections, ∀ t ∈ program.staticSelections,
      s.selection.semanticId = t.selection.semanticId →
        lowerSelection definitions s = lowerSelection definitions t) :
    ∀ s ∈ program.staticSelections,
      ∃ selection ∈ (pieces.plan definitions program identity).sorted.momentumSelections,
        lowerSelection definitions s = .ok selection := by
  intro s hs
  obtain ⟨found, hFound, hFinal⟩ := lowerSelections_ok hOf.selections
  obtain ⟨selection, hMem, hLowered⟩ := Sequence.exists_right hFound hs
  refine ⟨selection, Sequence.mem_sortBy.mpr ?_, hLowered⟩
  have hDict : pieces.selections =
      Dict.ofList (found.map (fun selection => (selection.id, selection))) := by
    rw [hFinal, Dict.ofList, List.foldl_map]
  have hGet : pieces.selections.get? selection.id = some selection := by
    rw [hDict]
    refine Dict.get?_ofList_of_alike (List.mem_map_of_mem hMem) (fun other hOther => ?_)
    obtain ⟨same, hSame, hPair⟩ := List.mem_map.mp hOther
    obtain ⟨hId, rfl⟩ := Prod.mk.inj hPair
    obtain ⟨t, ht, hLoweredT⟩ := Sequence.exists_left hFound hSame
    have hSameId : s.selection.semanticId = t.selection.semanticId := by
      rw [← lowerSelection_id hLowered, ← lowerSelection_id hLoweredT, hId]
    rw [hAlike s hs t ht hSameId, hLoweredT, Except.ok.injEq] at hLowered
    exact hLowered
  exact List.mem_map.mpr ⟨_, Dict.mem_of_get? hGet, rfl⟩

/-- A lowered leg of an allocation of the Program. -/
theorem loweredLeg_of (hOf : pieces.Of definitions program) {a : AllocationStatement}
    {leg : AllocationLeg} {sleeve : LeanTargetSleeve}
    (h : lowerLeg definitions (selectionsByOutput program.staticSelections) pieces.selections a leg =
      .ok sleeve) : LoweredLeg definitions program a leg sleeve :=
  ⟨pieces.selections, hOf.selections, h⟩

theorem LoweredLeg.unique {a : AllocationStatement} {leg : AllocationLeg}
    {left right : LeanTargetSleeve} (hLeft : LoweredLeg definitions program a leg left)
    (hRight : LoweredLeg definitions program a leg right) : left = right := by
  obtain ⟨selections, hSelections, hLeft⟩ := hLeft
  obtain ⟨selections', hSelections', hRight⟩ := hRight
  obtain rfl := Except.ok.inj (hSelections.symm.trans hSelections')
  exact Except.ok.inj (hLeft.symm.trans hRight)

/-- Where legs of one id are lowered alike, the plan performs an allocation of
the route. -/
theorem performs_of_alike (hOf : pieces.Of definitions program)
    (hIds : (pieces.plan definitions program identity).checkIds = .ok ())
    {sleeves all : List LeanTargetSleeve}
    (hSleeves : pieces.route.lowered.sleeves = sleevesById all)
    (hFrom : ∀ other ∈ all, ∃ b ∈ program.allocations, ∃ leg ∈ b.legs,
      LoweredLeg definitions program b leg other)
    (hAlike : ∀ a ∈ program.allocations, ∀ leg ∈ a.legs, ∀ b ∈ program.allocations,
      ∀ other ∈ b.legs, leg.semanticId = other.semanticId → ∀ sleeve,
        LoweredLeg definitions program a leg sleeve ↔ LoweredLeg definitions program b other sleeve)
    {a : AllocationStatement} (ha : a ∈ program.allocations)
    (hLegs : LoweredLegs definitions (selectionsByOutput program.staticSelections)
      pieces.selections a sleeves) (hSubset : ∀ sleeve ∈ sleeves, sleeve ∈ all) :
    Performs definitions program (pieces.plan definitions program identity).sorted a
      (a.legs.map AllocationLeg.semanticId) := by
  refine ⟨rfl, fun leg hLeg => ?_⟩
  obtain ⟨sleeve, hMem, hLowered⟩ := Sequence.exists_right hLegs hLeg
  refine ⟨sleeve, ?_, loweredLeg_of hOf hLowered⟩
  apply sleeve?_sorted hIds hSleeves
  rw [← lowerLeg_id hLowered]
  refine Dict.get?_ofList_of_alike (List.mem_map_of_mem (hSubset sleeve hMem)) (fun other hOther => ?_)
  obtain ⟨same, hSame, hPair⟩ := List.mem_map.mp hOther
  obtain ⟨hId, rfl⟩ := Prod.mk.inj hPair
  obtain ⟨b, hb, otherLeg, hOtherLeg, hOtherLowered⟩ := hFrom same hSame
  have hSameId : leg.semanticId = otherLeg.semanticId := by
    obtain ⟨_, _, hSleeve⟩ := hOtherLowered
    rw [← lowerLeg_id hLowered, ← lowerLeg_id hSleeve, hId]
  exact ((hAlike a ha leg hLeg b hb otherLeg hOtherLeg hSameId same).mpr hOtherLowered).unique
    (loweredLeg_of hOf hLowered)

end Lookup

section Result

variable {definitions : StrategyDefinitions} {program : SemanticProgram} {plan : LeanPlan}
  {identity : String} {pieces : StaticPieces}

theorem static_top (hOf : pieces.Of definitions program) :
    ∀ s ∈ program.staticStatements, s.isStatic = true := fun s hs =>
  List.all_eq_true.mp hOf.static s (mem_programStatements hs)

/-- A static statement that is no Control has no body. -/
theorem plain_of_static {s : ProgramStatement} (hStatic : s.isStatic = true)
    (hControl : s.control? = none) : s.isUnsupported = false := by
  cases s with
  | select s => rfl
  | allocate a => rfl
  | control head thenStatements otherwiseStatements => cases hControl
  | _ => cases hStatic

/-- Branches of an unnested Control of the top have no bodies. -/
theorem branches_plain (hOf : pieces.Of definitions program) {control : ConditionalStatement}
    (hControl : control ∈ program.staticStatements.filterMap ProgramStatement.control?)
    (hUnnested : (control.thenStatements ++ control.otherwiseStatements).filterMap
      ProgramStatement.control? = []) :
    ∀ s ∈ control.thenStatements ++ control.otherwiseStatements, s.isUnsupported = false := by
  intro s hs
  obtain ⟨top, hTop, hIs⟩ := List.mem_filterMap.mp hControl
  have hInside : s ∈ top.flattened := by
    cases top with
    | control head thenStatements otherwiseStatements =>
        cases hIs
        refine List.mem_cons_of_mem _ ?_
        rcases List.mem_append.mp hs with hThen | hOtherwise
        · exact List.mem_append_left _ (mem_programStatements hThen)
        · exact List.mem_append_right _ (mem_programStatements hOtherwise)
    | _ => cases hIs
  have hStatic : s.isStatic = true := by
    apply List.all_eq_true.mp hOf.static
    rw [programStatements_eq_flatMap]
    exact List.mem_flatMap.mpr ⟨top, hTop, hInside⟩
  exact plain_of_static hStatic (List.filterMap_eq_nil_iff.mp hUnnested s hs)

theorem controls_unnested (hOf : pieces.Of definitions program) {control : ConditionalStatement}
    (hAllocations : program.staticStatements.filterMap ProgramStatement.allocation? = [])
    (hControls : program.staticStatements.filterMap ProgramStatement.control? = [control])
    (hUnnested : (control.thenStatements ++ control.otherwiseStatements).filterMap
      ProgramStatement.control? = []) :
    program.controls = [control] ∧ program.allocations =
      control.thenStatements.filterMap ProgramStatement.allocation? ++
        control.otherwiseStatements.filterMap ProgramStatement.allocation? := by
  have hPlain := branches_plain hOf (by rw [hControls]; exact List.mem_singleton_self _) hUnnested
  obtain ⟨hAll, hAllocated⟩ := controls_control (static_top hOf) hAllocations hControls
  rw [programStatements_plain (fun s hs => hPlain s (List.mem_append_left _ hs)),
    programStatements_plain (fun s hs => hPlain s (List.mem_append_right _ hs))] at hAll hAllocated
  rw [hUnnested] at hAll
  rw [List.filterMap_append] at hAllocated
  exact ⟨hAll, hAllocated⟩

/-- The one rebalance of a static plan. -/
theorem rebalances_sorted :
    (pieces.plan definitions program identity).sorted.rebalances = [pieces.route.rebalance] := rfl

theorem represented_of_holdable (hOf : pieces.Of definitions program)
    (hIds : (pieces.plan definitions program identity).checkIds = .ok ())
    (h : Holdable definitions program) :
    Represented definitions program (pieces.plan definitions program identity).sorted := by
  have hSelections : ∀ s ∈ program.staticSelections,
      ∃ selection ∈ (pieces.plan definitions program identity).sorted.momentumSelections,
        lowerSelection definitions s = .ok selection :=
    selections_represented hOf h.selections
  cases routeStatements_ok hOf.route with
  | allocation hAllocations hControls hLegs hRebalance hSleeves =>
      obtain ⟨hNoControls, hOne⟩ := controls_allocation (static_top hOf) hAllocations hControls
      refine ⟨hSelections, ?_, ?_⟩
      · rw [rebalances_sorted, hRebalance, hNoControls]
        exact .nil
      · rw [rebalances_sorted, hRebalance, hOne]
        refine .cons (performs_of_alike hOf hIds hSleeves (fun other hOther => ?_) h.legs
          (by rw [hOne]; exact List.mem_singleton_self _) hLegs (fun _ hMem => hMem)) .nil
        obtain ⟨leg, hLeg, hLowered⟩ := Sequence.exists_left hLegs hOther
        exact ⟨_, by rw [hOne]; exact List.mem_singleton_self _, leg, hLeg,
          loweredLeg_of hOf hLowered⟩
  | @control control _ _ _ thenSleeves otherwiseSleeves hAllocations hControls hThen hOtherwise hCompared hThenLegs
      hOtherwiseLegs hRebalance hSleeves =>
      have hMem : control ∈ program.controls := by
        rw [(controls_control (static_top hOf) hAllocations hControls).1]
        exact List.mem_cons_self
      obtain ⟨hOne, hTwo⟩ := controls_unnested hOf hAllocations hControls (h.unnested control hMem)
      rw [hThen, hOtherwise] at hTwo
      have hFrom : ∀ other ∈ thenSleeves ++ otherwiseSleeves, ∃ b ∈ program.allocations, ∃ leg ∈ b.legs,
          LoweredLeg definitions program b leg other := by
        intro other hOther
        rw [hTwo]
        rcases List.mem_append.mp hOther with hFirst | hSecond
        · obtain ⟨leg, hLeg, hLowered⟩ := Sequence.exists_left hThenLegs hFirst
          exact ⟨_, List.mem_cons_self, leg, hLeg, loweredLeg_of hOf hLowered⟩
        · obtain ⟨leg, hLeg, hLowered⟩ := Sequence.exists_left hOtherwiseLegs hSecond
          exact ⟨_, List.mem_cons_of_mem _ (List.mem_singleton_self _), leg, hLeg,
            loweredLeg_of hOf hLowered⟩
      refine ⟨hSelections, ?_, ?_⟩
      · rw [rebalances_sorted, hRebalance, hOne]
        exact .cons ⟨rfl, hCompared, rfl⟩ .nil
      · rw [rebalances_sorted, hRebalance, hTwo]
        refine .cons (performs_of_alike hOf hIds hSleeves hFrom h.legs ?_ hThenLegs
          (fun _ hMem => List.mem_append_left _ hMem))
          (.cons (performs_of_alike hOf hIds hSleeves hFrom h.legs ?_ hOtherwiseLegs
            (fun _ hMem => List.mem_append_right _ hMem)) .nil)
        · rw [hTwo]
          exact List.mem_cons_self
        · rw [hTwo]
          exact List.mem_cons_of_mem _ (List.mem_singleton_self _)

/-- An allocation that was lowered is not the placeholder. -/
theorem lowered_not_initial {outputs : Dict String SelectionStatement}
    {selections : Dict String LeanMomentumSelection} {a : AllocationStatement}
    {sleeves : List LeanTargetSleeve} (hLegs : LoweredLegs definitions outputs selections a sleeves) :
    (ProgramStatement.allocate a).isInitialRetain = false := by
  by_contra hInitial
  simp only [ProgramStatement.isInitialRetain, Bool.not_eq_false, Bool.and_eq_true,
    decide_eq_true_eq] at hInitial
  obtain ⟨leg, hOne, hKind⟩ := List.map_eq_singleton_iff.mp hInitial.2
  obtain ⟨sleeve, -, hLowered⟩ := Sequence.exists_right hLegs
    (by rw [hOne]; exact List.mem_singleton_self leg)
  unfold lowerLeg at hLowered
  obtain ⟨target, hTarget, -⟩ := except_bind_ok.mp hLowered
  rw [hKind] at hTarget
  cases hTarget

theorem allocations_kept (body : List ProgramStatement) :
    (body.filter (fun s => !s.isInitialRetain)).filterMap ProgramStatement.allocation? =
      (body.filterMap ProgramStatement.allocation?).filter
        (fun a => !(ProgramStatement.allocate a).isInitialRetain) := by
  induction body with
  | nil => rfl
  | cons s rest ih =>
      cases s with
      | allocate a =>
          by_cases h : (ProgramStatement.allocate a).isInitialRetain = true
          · simp [h, ProgramStatement.allocation?] at ih ⊢
            exact ih
          · simp [h, ProgramStatement.allocation?] at ih ⊢
            exact ih
      | _ => exact ih

/-- Entering a Control reaches what its branch allocates. -/
theorem entered_control (branchOf : ConditionalHead → ControlBranch) (head : ConditionalHead)
    (thenStatements otherwiseStatements : List ProgramStatement) :
    (((ProgramStatement.control head thenStatements otherwiseStatements).entered branchOf).filter
        (fun s => !s.isInitialRetain)).filterMap ProgramStatement.allocation? =
      (((branchOf head).pick thenStatements otherwiseStatements).filterMap
        ProgramStatement.allocation?).filter
          (fun a => !(ProgramStatement.allocate a).isInitialRetain) := by
  have hHead : (!(ProgramStatement.control head thenStatements
      otherwiseStatements).isInitialRetain) = true := rfl
  rw [ProgramStatement.entered, List.filter_cons, if_pos hHead, List.filterMap_cons_none rfl,
    allocations_kept]

theorem control_kept {control : ConditionalStatement}
    (h : control ∈ program.statements.filterMap ProgramStatement.control?) :
    control ∈ program.staticStatements.filterMap ProgramStatement.control? := by
  obtain ⟨s, hs, hControl⟩ := List.mem_filterMap.mp h
  refine List.mem_filterMap.mpr ⟨s, List.mem_filter.mpr ⟨hs, ?_⟩, hControl⟩
  cases s with
  | control head thenStatements otherwiseStatements => rfl
  | _ => cases hControl

/-- Truth of the comparisons that a Control is lowered to. -/
def ConditionalHead.loweredTruth (market : GeneratedMarket) (head : ConditionalHead) : Truth :=
  match programComparisons head.condition with
  | .ok comparisons => Truth.all (comparisons.map (LeanComparison.truth market))
  | .error _ => .unknown

/-- Allocations reached are those of the statements that route. -/
theorem reached_routing {branchOf : ConditionalHead → ControlBranch}
    {trace : List (Runtime × ProgramStatement)}
    (h : trace.map Prod.snd = program.statements.flatMap (ProgramStatement.entered branchOf)) :
    reached trace = (program.staticStatements.filter ProgramStatement.routes).flatMap (fun s =>
      ((s.entered branchOf).filter (fun s => !s.isInitialRetain)).filterMap
        ProgramStatement.allocation?) := by
  unfold reached
  rw [h, List.filter_flatMap, List.filterMap_flatMap, ← flatMap_routing (fun s => rfl)]
  refine (Sequence.flatMap_filter (fun s _ hInitial => ?_)).symm
  simp only [Bool.not_eq_false'] at hInitial
  cases s with
  | allocate a => simp [ProgramStatement.entered, hInitial]
  | _ => cases hInitial

theorem follows_of_holdable (hOf : pieces.Of definitions program)
    (hIds : (pieces.plan definitions program identity).checkIds = .ok ())
    (h : Holdable definitions program) :
    Follows definitions program (pieces.plan definitions program identity).sorted := by
  have hRepresented := represented_of_holdable hOf hIds h
  intro d start final trace market hProgram hTraced hControlled
  unfold Decision.Traced at hTraced
  rw [hProgram] at hTraced
  have hStatements := static_statements hOf.static
  have hPerforms := hRepresented.allocations
  rw [rebalances_sorted] at hPerforms ⊢
  cases routeStatements_ok hOf.route with
  | @allocation a _ hAllocations hControls hLegs hRebalance hSleeves =>
      obtain ⟨-, hOne⟩ := controls_allocation (static_top hOf) hAllocations hControls
      have hTrace := steps_entered (ConditionalHead.loweredTruth market) hStatements
        (fun control hControl => by
          have hKept := control_kept hControl
          rw [hControls] at hKept
          cases hKept) hTraced
      rw [reached_routing hTrace, routing_allocation (static_top hOf) hAllocations hControls]
      have hTaken : pieces.route.rebalance.takenSleeves market =
          [a.legs.map AllocationLeg.semanticId] := by
        rw [hRebalance]
        rfl
      rw [hRebalance, hOne] at hPerforms
      rw [List.flatMap_singleton, List.flatMap_singleton, hTaken]
      simpa [ProgramStatement.entered, lowered_not_initial hLegs, ProgramStatement.allocation?,
        LeanRebalance.branches] using hPerforms
  | @control control thenAllocation otherwiseAllocation condition _ _ hAllocations hControls hThen
      hOtherwise hCompared hThenLegs hOtherwiseLegs hRebalance hSleeves =>
      have hMem : control ∈ program.controls := by
        rw [(controls_control (static_top hOf) hAllocations hControls).1]
        exact List.mem_cons_self
      obtain ⟨hOne, hTwo⟩ := controls_unnested hOf hAllocations hControls (h.unnested control hMem)
      obtain ⟨hDue, hAgree⟩ := hControlled control hMem
      have hTruth : control.head.loweredTruth market =
          Truth.all (condition.map (LeanComparison.truth market)) := by
        simp only [ConditionalHead.loweredTruth, hCompared]
      have hTrace := steps_entered (ConditionalHead.loweredTruth market) hStatements
        (fun other hOther => by
          have hKept := control_kept hOther
          rw [hControls] at hKept
          obtain rfl := List.mem_singleton.mp hKept
          refine ⟨hDue, fun r => ?_, branches_plain hOf (by rw [hControls]; exact hKept)
            (h.unnested other hMem)⟩
          rw [hTruth]
          exact condition_lowered hCompared hAgree r) hTraced
      rw [reached_routing hTrace, routing_control (static_top hOf) hAllocations hControls]
      have hBranch : pieces.route.rebalance.branch market =
          control.head.branch (control.head.loweredTruth market) := by
        rw [hTruth, hRebalance]
        refine branch_control rfl rfl rfl ?_
        have hLegs := otherwiseAllocation.legs_range.1
        exact List.ne_nil_of_length_pos (by rw [List.length_map]; omega)
      rw [hRebalance, hTwo, hThen, hOtherwise] at hPerforms
      obtain ⟨hFirst, hSecond⟩ : Performs definitions program _ thenAllocation
            (thenAllocation.legs.map AllocationLeg.semanticId) ∧
          Performs definitions program _ otherwiseAllocation
            (otherwiseAllocation.legs.map AllocationLeg.semanticId) := by
        cases hPerforms with
        | cons hFirst hRest =>
            cases hRest with
            | cons hSecond _ => exact ⟨hFirst, hSecond⟩
      rw [List.flatMap_singleton, List.flatMap_singleton, LeanRebalance.takenSleeves, hBranch,
        entered_control, hRebalance]
      cases control.head.branch (control.head.loweredTruth market) with
      | thenBranch =>
          have hReached : control.thenStatements.filterMap ProgramStatement.allocation? =
            [thenAllocation] := hThen
          simpa [ControlBranch.pick, hReached, lowered_not_initial hThenLegs] using hFirst
      | otherwiseBranch =>
          have hReached : control.otherwiseStatements.filterMap ProgramStatement.allocation? =
            [otherwiseAllocation] := hOtherwise
          simpa [ControlBranch.pick, hReached, lowered_not_initial hOtherwiseLegs] using hSecond
      | neither => exact .nil

/-- What is represented was holdable. -/
theorem holdable_of_represented (hOf : pieces.Of definitions program)
    (hIds : (pieces.plan definitions program identity).checkIds = .ok ())
    (h : Represented definitions program (pieces.plan definitions program identity).sorted) :
    Holdable definitions program := by
  refine ⟨?_, ?_, ?_⟩
  · have hCount := h.controls.length_eq
    cases routeStatements_ok hOf.route with
    | allocation hAllocations hControls =>
        intro control hControl
        rw [(controls_allocation (static_top hOf) hAllocations hControls).1] at hControl
        cases hControl
    | @control control _ _ _ _ _ hAllocations hControls _ _ _ _ _ hRebalance =>
        have hAll := (controls_control (static_top hOf) hAllocations hControls).1
        rw [hAll, rebalances_sorted, hRebalance] at hCount
        have hNone : (programStatements control.thenStatements ++
            programStatements control.otherwiseStatements).filterMap
              ProgramStatement.control? = [] :=
          List.length_eq_zero_iff.mp (by simpa using hCount)
        intro other hOther
        rw [hAll, hNone, List.mem_singleton] at hOther
        subst hOther
        refine List.filterMap_eq_nil_iff.mpr (fun s hs => ?_)
        apply List.filterMap_eq_nil_iff.mp hNone
        rcases List.mem_append.mp hs with hThen | hOtherwise
        · exact List.mem_append_left _ (mem_programStatements hThen)
        · exact List.mem_append_right _ (mem_programStatements hOtherwise)
  · intro s hs t ht hSame
    obtain ⟨left, hLeft, hLoweredS⟩ := h.selections s hs
    obtain ⟨right, hRight, hLoweredT⟩ := h.selections t ht
    have hId : left.id = right.id := by
      rw [lowerSelection_id hLoweredS, lowerSelection_id hLoweredT, hSame]
    rw [hLoweredS, hLoweredT,
      List.inj_on_of_nodup_map (selectionIds_nodup hIds) hLeft hRight hId]
  · intro a ha leg hLeg b hb other hOther hSame sleeve
    obtain ⟨ids, -, -, hPerformsA⟩ := Sequence.exists_right h.allocations ha
    obtain ⟨ids', -, -, hPerformsB⟩ := Sequence.exists_right h.allocations hb
    obtain ⟨left, hLeft, hLoweredA⟩ := hPerformsA leg hLeg
    obtain ⟨right, hRight, hLoweredB⟩ := hPerformsB other hOther
    rw [hSame, hRight, Option.some.injEq] at hLeft
    subst hLeft
    constructor
    · intro hLowered
      rw [hLowered.unique hLoweredA]
      exact hLoweredB
    · intro hLowered
      rw [hLowered.unique hLoweredB]
      exact hLoweredA

/-- Legs with names of their own are lowered alike when their names agree. -/
theorem legs_alike (h : ((program.allocations.flatMap (fun a => a.legs.map (fun leg => (a, leg)))).map
      (fun pair => pair.2.semanticId)).Nodup) :
    ∀ a ∈ program.allocations, ∀ leg ∈ a.legs, ∀ b ∈ program.allocations, ∀ other ∈ b.legs,
      leg.semanticId = other.semanticId → ∀ sleeve, LoweredLeg definitions program a leg sleeve ↔
        LoweredLeg definitions program b other sleeve := by
  intro a ha leg hLeg b hb other hOther hSame sleeve
  have hMem : ∀ {a leg}, a ∈ program.allocations → leg ∈ a.legs →
      (a, leg) ∈ program.allocations.flatMap (fun a => a.legs.map (fun leg => (a, leg))) :=
    fun ha hLeg => List.mem_flatMap.mpr ⟨_, ha, List.mem_map.mpr ⟨_, hLeg, rfl⟩⟩
  obtain ⟨rfl, rfl⟩ := Prod.mk.inj
    (List.inj_on_of_nodup_map h (hMem ha hLeg) (hMem hb hOther) hSame)
  exact Iff.rfl

end Result

section Nested

/-- Everything into one asset. -/
def intoAsset (semanticId asset : String) : ProgramStatement :=
  .allocate (.wholly semanticId (.asset asset) (AllocationTargetKind.asset_ne_retain asset))

/-- One asset above a price, and another one otherwise. -/
def whenAbove (semanticId asset : String) (level : ℚ)
    (thenStatements otherwiseStatements : List ProgramStatement) : ProgramStatement :=
  .control
    { semanticId := semanticId
      condition := .comparison (semanticId ++ "-compare") .gt (.daily (ownCloseOf asset))
        (.literal (semanticId ++ "-level") level .price .usdPerShare (some "adjusted_close")) }
    thenStatements otherwiseStatements

def nestedProgram : SemanticProgram :=
  .daily [whenAbove "outer" "A" 5
    [intoAsset "first" "A",
      whenAbove "inner" "B" 100 [intoAsset "second" "B"] [intoAsset "third" "A"]]
    [intoAsset "fourth" "B"]]

def nestedStrategy : CanonicalStrategy := .ofProgram crossStrategy.definitions nestedProgram

def nestedSnapshot : DailyMarketSnapshot :=
  (DailyMarketSnapshot.single "A" (⟨2024, 1, 8⟩, some 10) []).withSeries "B" [some 200] rfl

def nestedMarket : GeneratedMarket where
  numbers := plainNumbers
  dailyCloses := Dict.ofList [("A", [10]), ("B", [200])]

def branchedProgram : SemanticProgram :=
  .daily [whenAbove "outer" "A" 5 [intoAsset "first" "A"] [intoAsset "second" "B"]]

theorem branchedProgram_holdable : Holdable crossStrategy.definitions branchedProgram where
  unnested := by
    intro control hControl
    rw [List.mem_singleton.mp hControl]
    rfl
  selections := by
    intro s hs
    cases hs
  legs := by
    apply legs_alike
    decide +kernel

end Nested

end RuleTrade
