import RuleTrade.Strategy.ProgramValidation

/-! What an accepted Program satisfies. Each check that reports nothing passed
its test on a state that had nothing reported, so the visit of an accepted
Program turns into one predicate over the syntax. -/

namespace RuleTrade

open Library

section Predicates

variable (program : SemanticProgram)

def ClockKnown (clockId : Option String) : Prop :=
  ∀ id ∈ clockId, hasClock program id = true

def ConditionAdmitted (role : SemanticRole) (bindingId : Option String) (c : Condition) : Prop :=
  validateCondition role bindingId c = [] ∧
    ∀ key ∈ c.stateKeys, program.initialState.contains key = true

structure AllocationAdmitted (available : List String) (a : AllocationStatement) : Prop where
  clock : ClockKnown program a.clockId
  outputs : ∀ ref ∈ a.outputRefs, ref ∈ available

structure SelectionAdmitted (s : SelectionStatement) : Prop where
  clock : ClockKnown program s.clockId
  domains : ∀ value ∈ s.selection.values, ∀ domain ∈ value.crossDomains,
    domain = s.selection.universeId
  eligibility : ∀ c ∈ s.selection.eligibility,
    ConditionAdmitted program .eligibility (some s.selection.binding.id) c
  scored : ∀ c ∈ s.selection.ranking.scoreConditions,
    ConditionAdmitted program .eligibility (some s.selection.binding.id) c
  ranking : ∃ type,
    inferProgramValueType (some s.selection.binding.id) s.selection.ranking = .ok type ∧
      type.axes = []

/-- Allocations a guarded policy may run. -/
def GuardedAllocationStatement.actions (s : GuardedAllocationStatement) :
    List AllocationStatement :=
  s.primary :: s.overrides.map OverrideRule.action ++ s.fallback.toList

structure PolicyAdmitted (available : List String) (s : GuardedAllocationStatement) : Prop where
  guard : ∀ c ∈ s.guard, ConditionAdmitted program .predicate none c
  overrides : ∀ rule ∈ s.overrides, ConditionAdmitted program .predicate none rule.when
  actions : ∀ a ∈ s.actions, AllocationAdmitted program available a

mutual

/-- Every check the visit makes of a statement, at the outputs it can see. -/
def ProgramStatement.Admitted (available : List String) : ProgramStatement → Prop
  | .select s => SelectionAdmitted program s
  | .allocate a => AllocationAdmitted program available a
  | .control head thenStatements otherwiseStatements =>
      ClockKnown program head.clockId ∧ ConditionAdmitted program .predicate none head.condition ∧
        ProgramStatement.AllAdmitted available thenStatements ∧
        ProgramStatement.AllAdmitted available otherwiseStatements
  | .onEvent _ event body =>
      ClockKnown program (some event.clockId) ∧
        (∀ c ∈ event.condition, ConditionAdmitted program .predicate none c) ∧
        ProgramStatement.AllAdmitted available body
  | .transition _ t =>
      ClockKnown program t.clockId ∧ ConditionAdmitted program .predicate none t.when ∧
        program.initialState.contains t.stateKey = true
  | .rememberValue s => ClockKnown program s.clockId
  | .guardedAllocation s => PolicyAdmitted program available s
  | .unresolved _ => False

/-- A list is checked at the outputs its earlier statements define. -/
def ProgramStatement.AllAdmitted (available : List String) : List ProgramStatement → Prop
  | [] => True
  | statement :: rest =>
      statement.Admitted available ∧
        ProgramStatement.AllAdmitted (statement.outputsAfter available) rest

end

mutual

/-- Selection outputs declared anywhere under a statement. -/
def ProgramStatement.outputIds : ProgramStatement → List String
  | .select s => [s.outputId]
  | .control _ thenStatements otherwiseStatements =>
      ProgramStatement.allOutputIds thenStatements ++
        ProgramStatement.allOutputIds otherwiseStatements
  | .onEvent _ _ body => ProgramStatement.allOutputIds body
  | _ => []

def ProgramStatement.allOutputIds : List ProgramStatement → List String
  | [] => []
  | statement :: rest => statement.outputIds ++ ProgramStatement.allOutputIds rest

end

mutual

/-- Event ids declared anywhere under a statement. -/
def ProgramStatement.eventIds : ProgramStatement → List String
  | .onEvent _ event body => event.semanticId :: ProgramStatement.allEventIds body
  | .control _ thenStatements otherwiseStatements =>
      ProgramStatement.allEventIds thenStatements ++
        ProgramStatement.allEventIds otherwiseStatements
  | _ => []

def ProgramStatement.allEventIds : List ProgramStatement → List String
  | [] => []
  | statement :: rest => statement.eventIds ++ ProgramStatement.allEventIds rest

end

end Predicates

namespace ValidationState

variable {v : ValidationState} {holds : Bool} {code path message : String}
  {found : List SemanticDiagnostic}

/-- Declared addresses are pairwise distinct. -/
structure Distinct (v : ValidationState) : Prop where
  outputs : v.selectionOutputs.Nodup
  events : v.eventIds.Nodup

theorem report_clean (h : (v.report found).diagnostics = []) :
    v.diagnostics = [] ∧ found = [] :=
  List.append_eq_nil_iff.mp h

theorem ensure_clean (h : (v.ensure holds code path message).diagnostics = []) :
    v.diagnostics = [] ∧ holds = true := by
  cases holds with
  | true => exact ⟨h, rfl⟩
  | false => exact absurd (report_clean h).2 (List.cons_ne_nil _ _)

@[simp] theorem report_outputs : (v.report found).selectionOutputs = v.selectionOutputs := rfl

@[simp] theorem report_events : (v.report found).eventIds = v.eventIds := rfl

@[simp] theorem ensure_outputs :
    (v.ensure holds code path message).selectionOutputs = v.selectionOutputs := by
  cases holds <;> rfl

@[simp] theorem ensure_events : (v.ensure holds code path message).eventIds = v.eventIds := by
  cases holds <;> rfl

end ValidationState

section Checks

variable {program : SemanticProgram} {v : ValidationState} {path : String}
  {available : List String}

theorem checkClock_clean {clockId : Option String}
    (h : (checkClock program clockId path v).diagnostics = []) :
    v.diagnostics = [] ∧ ClockKnown program clockId := by
  cases clockId with
  | none => exact ⟨h, by simp [ClockKnown]⟩
  | some id =>
      obtain ⟨hPrior, hKnown⟩ := ValidationState.ensure_clean h
      exact ⟨hPrior, by simpa [ClockKnown] using hKnown⟩

@[simp] theorem checkClock_outputs (clockId : Option String) :
    (checkClock program clockId path v).selectionOutputs = v.selectionOutputs := by
  cases clockId <;> simp [checkClock]

@[simp] theorem checkClock_events (clockId : Option String) :
    (checkClock program clockId path v).eventIds = v.eventIds := by
  cases clockId <;> simp [checkClock]

theorem checkCondition_clean {c : Condition} {role : SemanticRole} {bindingId : Option String}
    (h : (checkCondition program c path role bindingId v).diagnostics = []) :
    v.diagnostics = [] ∧ ConditionAdmitted program role bindingId c := by
  obtain ⟨hPrior, hFound⟩ := List.append_eq_nil_iff.mp h
  obtain ⟨hValid, hState⟩ := List.append_eq_nil_iff.mp hFound
  refine ⟨hPrior, hValid, fun key hKey => ?_⟩
  rw [stateDiagnostics, List.map_eq_nil_iff, List.filter_eq_nil_iff] at hState
  simpa using hState key hKey

@[simp] theorem checkCondition_outputs (c : Condition) (role : SemanticRole)
    (bindingId : Option String) :
    (checkCondition program c path role bindingId v).selectionOutputs = v.selectionOutputs := rfl

@[simp] theorem checkCondition_events (c : Condition) (role : SemanticRole)
    (bindingId : Option String) :
    (checkCondition program c path role bindingId v).eventIds = v.eventIds := rfl

theorem checkOptional_clean {c : Option Condition} {role : SemanticRole} {bindingId : Option String}
    (h : (checkOptional program c path role bindingId v).diagnostics = []) :
    v.diagnostics = [] ∧ ∀ c' ∈ c, ConditionAdmitted program role bindingId c' := by
  cases c with
  | none => exact ⟨h, by simp⟩
  | some c =>
      obtain ⟨hPrior, hCondition⟩ := checkCondition_clean h
      exact ⟨hPrior, by simpa using hCondition⟩

@[simp] theorem checkOptional_outputs (c : Option Condition) (role : SemanticRole)
    (bindingId : Option String) :
    (checkOptional program c path role bindingId v).selectionOutputs = v.selectionOutputs := by
  cases c <;> rfl

@[simp] theorem checkOptional_events (c : Option Condition) (role : SemanticRole)
    (bindingId : Option String) :
    (checkOptional program c path role bindingId v).eventIds = v.eventIds := by
  cases c <;> rfl

theorem outputDiagnostics_clean {legs : List AllocationLeg} {index : Nat}
    (h : outputDiagnostics path available index legs = []) {leg : AllocationLeg} {ref : String}
    (hLeg : leg ∈ legs) (hRef : leg.target.kind = .selection ref) : ref ∈ available := by
  induction legs generalizing index with
  | nil => cases hLeg
  | cons first rest ih =>
      obtain ⟨hFirst, hRest⟩ := List.append_eq_nil_iff.mp h
      rcases List.mem_cons.mp hLeg with rfl | hLeg
      · rw [hRef] at hFirst
        by_contra hNot
        simp [hNot] at hFirst
      · exact ih hRest hLeg

theorem mem_outputRefs {a : AllocationStatement} {ref : String} :
    ref ∈ a.outputRefs ↔ ∃ leg ∈ a.legs, leg.target.kind = .selection ref := by
  simp only [AllocationStatement.outputRefs, List.mem_filterMap]
  constructor
  · rintro ⟨leg, hLeg, h⟩
    refine ⟨leg, hLeg, ?_⟩
    cases hKind : leg.target.kind <;> simp_all
  · rintro ⟨leg, hLeg, h⟩
    exact ⟨leg, hLeg, by rw [h]⟩

theorem checkAllocation_clean {a : AllocationStatement}
    (h : (checkAllocation program a path available v).diagnostics = []) :
    v.diagnostics = [] ∧ AllocationAdmitted program available a := by
  obtain ⟨hClocked, hFound⟩ := ValidationState.report_clean h
  obtain ⟨hPrior, hClock⟩ := checkClock_clean hClocked
  obtain ⟨hOutputs, -⟩ := List.append_eq_nil_iff.mp hFound
  refine ⟨hPrior, hClock, fun ref hRef => ?_⟩
  obtain ⟨leg, hLeg, hKind⟩ := mem_outputRefs.mp hRef
  exact outputDiagnostics_clean hOutputs hLeg hKind

@[simp] theorem checkAllocation_outputs (a : AllocationStatement) :
    (checkAllocation program a path available v).selectionOutputs = v.selectionOutputs := by
  simp [checkAllocation]

@[simp] theorem checkAllocation_events (a : AllocationStatement) :
    (checkAllocation program a path available v).eventIds = v.eventIds := by
  simp [checkAllocation]

theorem registerStatement_clean {id : String}
    (h : (registerStatement id path v).diagnostics = []) : v.diagnostics = [] :=
  (ValidationState.ensure_clean h).1

@[simp] theorem registerStatement_outputs (id : String) :
    (registerStatement id path v).selectionOutputs = v.selectionOutputs := by
  simp [registerStatement]

@[simp] theorem registerStatement_events (id : String) :
    (registerStatement id path v).eventIds = v.eventIds := by
  simp [registerStatement]

theorem checkRule_clean {a : AllocationStatement}
    (h : (checkRule program a path available v).diagnostics = []) :
    v.diagnostics = [] ∧ AllocationAdmitted program available a := by
  obtain ⟨hPrior, hAllocation⟩ := checkAllocation_clean h
  exact ⟨registerStatement_clean hPrior, hAllocation⟩

@[simp] theorem checkRule_outputs (a : AllocationStatement) :
    (checkRule program a path available v).selectionOutputs = v.selectionOutputs := by
  simp [checkRule]

@[simp] theorem checkRule_events (a : AllocationStatement) :
    (checkRule program a path available v).eventIds = v.eventIds := by
  simp [checkRule]

theorem checkOverrides_clean {rules : List OverrideRule} {index : Nat}
    (h : (checkOverrides program path available index rules v).diagnostics = []) :
    v.diagnostics = [] ∧ ∀ rule ∈ rules, ConditionAdmitted program .predicate none rule.when ∧
      AllocationAdmitted program available rule.action := by
  induction rules generalizing index v with
  | nil => exact ⟨h, by simp⟩
  | cons rule rest ih =>
      obtain ⟨hPrior, hRest⟩ := ih h
      obtain ⟨hPrior, hAction⟩ := checkRule_clean hPrior
      obtain ⟨hPrior, hWhen⟩ := checkCondition_clean hPrior
      refine ⟨hPrior, fun r hr => ?_⟩
      rcases List.mem_cons.mp hr with rfl | hr
      · exact ⟨hWhen, hAction⟩
      · exact hRest r hr

@[simp] theorem checkOverrides_outputs (rules : List OverrideRule) (index : Nat) :
    (checkOverrides program path available index rules v).selectionOutputs =
      v.selectionOutputs := by
  induction rules generalizing index v with
  | nil => rfl
  | cons rule rest ih => simp [checkOverrides, ih]

@[simp] theorem checkOverrides_events (rules : List OverrideRule) (index : Nat) :
    (checkOverrides program path available index rules v).eventIds = v.eventIds := by
  induction rules generalizing index v with
  | nil => rfl
  | cons rule rest ih => simp [checkOverrides, ih]

theorem checkFallback_clean {fallback : Option AllocationStatement}
    (h : (checkFallback program fallback path available v).diagnostics = []) :
    v.diagnostics = [] ∧ ∀ a ∈ fallback, AllocationAdmitted program available a := by
  cases fallback with
  | none => exact ⟨h, by simp⟩
  | some a =>
      obtain ⟨hPrior, hAllocation⟩ := checkRule_clean h
      exact ⟨hPrior, by simpa using hAllocation⟩

@[simp] theorem checkFallback_outputs (fallback : Option AllocationStatement) :
    (checkFallback program fallback path available v).selectionOutputs = v.selectionOutputs := by
  cases fallback <;> simp [checkFallback]

@[simp] theorem checkFallback_events (fallback : Option AllocationStatement) :
    (checkFallback program fallback path available v).eventIds = v.eventIds := by
  cases fallback <;> simp [checkFallback]

theorem checkGuarded_clean {s : GuardedAllocationStatement}
    (h : (checkGuarded program s path available v).diagnostics = []) :
    v.diagnostics = [] ∧ PolicyAdmitted program available s := by
  obtain ⟨hPrior, hFallback⟩ := checkFallback_clean h
  obtain ⟨hPrior, hRules⟩ := checkOverrides_clean hPrior
  obtain ⟨hPrior, hPrimary⟩ := checkRule_clean hPrior
  obtain ⟨hPrior, -⟩ := ValidationState.ensure_clean hPrior
  obtain ⟨hPrior, hGuard⟩ := checkOptional_clean hPrior
  refine ⟨hPrior, hGuard, fun rule hRule => (hRules rule hRule).1, fun a ha => ?_⟩
  simp only [GuardedAllocationStatement.actions, List.cons_append, List.mem_cons, List.mem_append,
    List.mem_map, Option.mem_toList] at ha
  rcases ha with rfl | ⟨rule, hRule, rfl⟩ | ha
  · exact hPrimary
  · exact (hRules rule hRule).2
  · exact hFallback a ha

@[simp] theorem checkGuarded_outputs (s : GuardedAllocationStatement) :
    (checkGuarded program s path available v).selectionOutputs = v.selectionOutputs := by
  simp [checkGuarded]

@[simp] theorem checkGuarded_events (s : GuardedAllocationStatement) :
    (checkGuarded program s path available v).eventIds = v.eventIds := by
  simp [checkGuarded]

theorem domainDiagnostics_clean {universeId : String} {values : List ValueExpression} {index : Nat}
    (h : domainDiagnostics universeId path index values = []) {value : ValueExpression}
    (hValue : value ∈ values) {domain : String} (hDomain : domain ∈ value.crossDomains) :
    domain = universeId := by
  induction values generalizing index with
  | nil => cases hValue
  | cons first rest ih =>
      obtain ⟨hFirst, hRest⟩ := List.append_eq_nil_iff.mp h
      rcases List.mem_cons.mp hValue with rfl | hValue
      · rw [List.map_eq_nil_iff, List.filter_eq_nil_iff] at hFirst
        simpa using hFirst domain hDomain
      · exact ih hRest hValue

theorem checkScoreConditions_clean {bindingId : String} {conditions : List Condition} {index : Nat}
    (h : (checkScoreConditions program path bindingId index conditions v).diagnostics = []) :
    v.diagnostics = [] ∧
      ∀ c ∈ conditions, ConditionAdmitted program .eligibility (some bindingId) c := by
  induction conditions generalizing index v with
  | nil => exact ⟨h, by simp⟩
  | cons c rest ih =>
      obtain ⟨hPrior, hRest⟩ := ih h
      obtain ⟨hPrior, hFirst⟩ := checkCondition_clean hPrior
      refine ⟨hPrior, fun c' hc => ?_⟩
      rcases List.mem_cons.mp hc with rfl | hc
      · exact hFirst
      · exact hRest c' hc

@[simp] theorem checkScoreConditions_outputs (bindingId : String) (conditions : List Condition)
    (index : Nat) : (checkScoreConditions program path bindingId index conditions v).selectionOutputs
      = v.selectionOutputs := by
  induction conditions generalizing index v with
  | nil => rfl
  | cons c rest ih => simp [checkScoreConditions, ih]

@[simp] theorem checkScoreConditions_events (bindingId : String) (conditions : List Condition)
    (index : Nat) : (checkScoreConditions program path bindingId index conditions v).eventIds
      = v.eventIds := by
  induction conditions generalizing index v with
  | nil => rfl
  | cons c rest ih => simp [checkScoreConditions, ih]

theorem checkRanking_clean {s : SelectionStatement}
    (h : (checkRanking s path v).diagnostics = []) : v.diagnostics = [] ∧ ∃ type,
      inferProgramValueType (some s.selection.binding.id) s.selection.ranking = .ok type ∧
        type.axes = [] := by
  unfold checkRanking at h
  split at h
  · exact absurd (ValidationState.report_clean h).2 (List.cons_ne_nil _ _)
  · rename_i type hType
    obtain ⟨hPrior, hScalar⟩ := ValidationState.ensure_clean h
    exact ⟨hPrior, type, hType, (of_decide_eq_true hScalar).2⟩

@[simp] theorem checkRanking_outputs (s : SelectionStatement) :
    (checkRanking s path v).selectionOutputs = v.selectionOutputs := by
  unfold checkRanking
  split <;> simp

@[simp] theorem checkRanking_events (s : SelectionStatement) :
    (checkRanking s path v).eventIds = v.eventIds := by
  unfold checkRanking
  split <;> simp

theorem checkSelection_clean {s : SelectionStatement}
    (h : (checkSelection program s path v).diagnostics = []) :
    v.diagnostics = [] ∧ SelectionAdmitted program s ∧ s.outputId ∉ v.selectionOutputs := by
  obtain ⟨hPrior, hRanking⟩ := checkRanking_clean h
  obtain ⟨hPrior, hScored⟩ := checkScoreConditions_clean hPrior
  obtain ⟨hPrior, hEligibility⟩ := checkOptional_clean hPrior
  obtain ⟨hPrior, hDomains⟩ := ValidationState.report_clean hPrior
  obtain ⟨hPrior, hFresh⟩ := ValidationState.ensure_clean hPrior
  obtain ⟨hPrior, hClock⟩ := checkClock_clean hPrior
  refine ⟨hPrior, ⟨hClock, fun value hValue domain hDomain => ?_, hEligibility, hScored, hRanking⟩,
    by simpa using hFresh⟩
  exact domainDiagnostics_clean hDomains hValue hDomain

@[simp] theorem checkSelection_outputs (s : SelectionStatement) :
    (checkSelection program s path v).selectionOutputs = s.outputId :: v.selectionOutputs := by
  simp [checkSelection, declareOutput]

@[simp] theorem checkSelection_events (s : SelectionStatement) :
    (checkSelection program s path v).eventIds = v.eventIds := by
  simp [checkSelection, declareOutput]

theorem checkEvent_clean {event : EventDefinition}
    (h : (checkEvent program event path v).diagnostics = []) :
    v.diagnostics = [] ∧ ClockKnown program (some event.clockId) ∧
      (∀ c ∈ event.condition, ConditionAdmitted program .predicate none c) ∧
      event.semanticId ∉ v.eventIds := by
  obtain ⟨hPrior, hCondition⟩ := checkOptional_clean h
  obtain ⟨hPrior, hFresh⟩ := ValidationState.ensure_clean hPrior
  obtain ⟨hPrior, hClock⟩ := checkClock_clean hPrior
  exact ⟨hPrior, hClock, hCondition, by simpa using hFresh⟩

@[simp] theorem checkEvent_outputs (event : EventDefinition) :
    (checkEvent program event path v).selectionOutputs = v.selectionOutputs := by
  simp [checkEvent, declareEvent]

@[simp] theorem checkEvent_events (event : EventDefinition) :
    (checkEvent program event path v).eventIds = event.semanticId :: v.eventIds := by
  simp [checkEvent, declareEvent]

theorem checkTransition_clean {t : StateTransition}
    (h : (checkTransition program t path v).diagnostics = []) :
    v.diagnostics = [] ∧ ClockKnown program t.clockId ∧
      ConditionAdmitted program .predicate none t.when ∧
      program.initialState.contains t.stateKey = true := by
  obtain ⟨hPrior, hState⟩ := ValidationState.ensure_clean h
  obtain ⟨hPrior, hWhen⟩ := checkCondition_clean hPrior
  obtain ⟨hPrior, hClock⟩ := checkClock_clean hPrior
  exact ⟨hPrior, hClock, hWhen, hState⟩

theorem checkRemember_clean {s : RememberValueStatement}
    (h : (checkRemember program s path v).diagnostics = []) :
    v.diagnostics = [] ∧ ClockKnown program s.clockId :=
  checkClock_clean (ValidationState.ensure_clean h).1

end Checks

section Visit

variable {program : SemanticProgram}

mutual

/-- Addresses are collected in reverse order of declaration. -/
theorem visit_addresses (s : ProgramStatement) (path : String) (available : List String)
    (v : ValidationState) :
    (visit program s path available v).selectionOutputs =
      s.outputIds.reverse ++ v.selectionOutputs ∧
    (visit program s path available v).eventIds = s.eventIds.reverse ++ v.eventIds := by
  cases s with
  | control head thenStatements otherwiseStatements =>
      simp only [visit, visitAll_addresses otherwiseStatements, visitAll_addresses thenStatements,
        ProgramStatement.outputIds, ProgramStatement.eventIds, List.reverse_append,
        List.append_assoc, checkCondition_outputs, checkClock_outputs, registerStatement_outputs,
        checkCondition_events, checkClock_events, registerStatement_events, and_self]
  | onEvent id event body =>
      simp only [visit, visitAll_addresses body, ProgramStatement.outputIds,
        ProgramStatement.eventIds, checkEvent_outputs, checkEvent_events,
        registerStatement_outputs, registerStatement_events, List.reverse_cons, List.append_assoc,
        List.singleton_append, and_self]
  | transition id t =>
      simp [visit, checkTransition, ProgramStatement.outputIds, ProgramStatement.eventIds]
  | rememberValue s =>
      simp [visit, checkRemember, ProgramStatement.outputIds, ProgramStatement.eventIds]
  | _ => simp [visit, ProgramStatement.outputIds, ProgramStatement.eventIds]

theorem visitAll_addresses (statements : List ProgramStatement) (path : String) (index : Nat)
    (available : List String) (v : ValidationState) :
    (visitAll program statements path index available v).selectionOutputs =
      (ProgramStatement.allOutputIds statements).reverse ++ v.selectionOutputs ∧
    (visitAll program statements path index available v).eventIds =
      (ProgramStatement.allEventIds statements).reverse ++ v.eventIds := by
  cases statements with
  | nil => simp [visitAll, ProgramStatement.allOutputIds, ProgramStatement.allEventIds]
  | cons s rest =>
      simp only [visitAll, visitAll_addresses rest, visit_addresses s,
        ProgramStatement.allOutputIds, ProgramStatement.allEventIds, List.reverse_append,
        List.append_assoc, and_self]

end

mutual

/-- A visit that reports nothing admits the statement and keeps addresses distinct. -/
theorem visit_clean (s : ProgramStatement) {path : String} {available : List String}
    {v : ValidationState} (h : (visit program s path available v).diagnostics = []) :
    v.diagnostics = [] ∧ s.Admitted program available ∧
      (v.Distinct → (visit program s path available v).Distinct) := by
  cases s with
  | unresolved s => exact absurd (ValidationState.report_clean h).2 (List.cons_ne_nil _ _)
  | select s =>
      obtain ⟨hPrior, hAdmitted, hFresh⟩ := checkSelection_clean h
      refine ⟨registerStatement_clean hPrior, hAdmitted, fun hDistinct => ⟨?_, ?_⟩⟩
      · simp only [visit, checkSelection_outputs, registerStatement_outputs] at hFresh ⊢
        exact List.nodup_cons.mpr ⟨hFresh, hDistinct.outputs⟩
      · simpa [visit] using hDistinct.events
  | allocate a =>
      obtain ⟨hPrior, hAdmitted⟩ := checkAllocation_clean h
      exact ⟨registerStatement_clean hPrior, hAdmitted,
        fun hDistinct => ⟨by simpa [visit] using hDistinct.outputs,
          by simpa [visit] using hDistinct.events⟩⟩
  | control head thenStatements otherwiseStatements =>
      simp only [visit] at h
      obtain ⟨hPrior, hOtherwise, hDistinctOtherwise⟩ := visitAll_clean otherwiseStatements h
      obtain ⟨hPrior, hThen, hDistinctThen⟩ := visitAll_clean thenStatements hPrior
      obtain ⟨hPrior, hCondition⟩ := checkCondition_clean hPrior
      obtain ⟨hPrior, hClock⟩ := checkClock_clean hPrior
      refine ⟨registerStatement_clean hPrior, ⟨hClock, hCondition, hThen, hOtherwise⟩,
        fun hDistinct => hDistinctOtherwise (hDistinctThen ⟨?_, ?_⟩)⟩
      · simpa using hDistinct.outputs
      · simpa using hDistinct.events
  | onEvent id event body =>
      simp only [visit] at h
      obtain ⟨hPrior, hBody, hDistinctBody⟩ := visitAll_clean body h
      obtain ⟨hPrior, hClock, hCondition, hFresh⟩ := checkEvent_clean hPrior
      refine ⟨registerStatement_clean hPrior, ⟨hClock, hCondition, hBody⟩,
        fun hDistinct => hDistinctBody ⟨?_, ?_⟩⟩
      · simpa using hDistinct.outputs
      · simp only [registerStatement_events] at hFresh
        simpa using ⟨hFresh, hDistinct.events⟩
  | transition id t =>
      obtain ⟨hPrior, hAdmitted⟩ := checkTransition_clean h
      exact ⟨registerStatement_clean hPrior, hAdmitted,
        fun hDistinct => ⟨by simpa [visit, checkTransition] using hDistinct.outputs,
          by simpa [visit, checkTransition] using hDistinct.events⟩⟩
  | rememberValue s =>
      obtain ⟨hPrior, hAdmitted⟩ := checkRemember_clean h
      exact ⟨registerStatement_clean hPrior, hAdmitted,
        fun hDistinct => ⟨by simpa [visit, checkRemember] using hDistinct.outputs,
          by simpa [visit, checkRemember] using hDistinct.events⟩⟩
  | guardedAllocation s =>
      obtain ⟨hPrior, hAdmitted⟩ := checkGuarded_clean h
      exact ⟨registerStatement_clean hPrior, hAdmitted,
        fun hDistinct => ⟨by simpa [visit] using hDistinct.outputs,
          by simpa [visit] using hDistinct.events⟩⟩

theorem visitAll_clean (statements : List ProgramStatement) {path : String} {index : Nat}
    {available : List String} {v : ValidationState}
    (h : (visitAll program statements path index available v).diagnostics = []) :
    v.diagnostics = [] ∧ ProgramStatement.AllAdmitted program available statements ∧
      (v.Distinct → (visitAll program statements path index available v).Distinct) := by
  cases statements with
  | nil => exact ⟨h, trivial, id⟩
  | cons s rest =>
      simp only [visitAll] at h
      obtain ⟨hPrior, hRest, hDistinctRest⟩ := visitAll_clean rest h
      obtain ⟨hPrior, hFirst, hDistinctFirst⟩ := visit_clean s hPrior
      exact ⟨hPrior, ⟨hFirst, hRest⟩, fun hDistinct => hDistinctRest (hDistinctFirst hDistinct)⟩

end

namespace Accepted

theorem visited_clean (h : Accepted program) : (visitProgram program).diagnostics = [] := by
  unfold Accepted validateProgramV2 at h
  simp only [List.append_eq_nil_iff] at h
  exact h.1.1.1.2

/-- Every statement of an accepted Program passes its checks where it stands. -/
theorem admitted (h : Accepted program) :
    ProgramStatement.AllAdmitted program [] program.statements :=
  (visitAll_clean program.statements h.visited_clean).2.1

theorem distinct (h : Accepted program) : (visitProgram program).Distinct :=
  (visitAll_clean program.statements h.visited_clean).2.2 ⟨List.nodup_nil, List.nodup_nil⟩

theorem outputs_nodup (h : Accepted program) :
    (ProgramStatement.allOutputIds program.statements).Nodup := by
  have hNodup := h.distinct.outputs
  rw [visitProgram, (visitAll_addresses program.statements _ _ _ _).1] at hNodup
  simpa using hNodup

end Accepted

end Visit

end RuleTrade
