import RuleTrade.Strategy.Models

/-! Renaming of Selection outputs in the syntax: where a Selection declares its
output, and in the legs that target one. -/

namespace RuleTrade

/-- Rename the Selection output a target refers to. -/
def AllocationTargetKind.relabel (f : String → String) : AllocationTargetKind → AllocationTargetKind
  | .selection ref => .selection (f ref)
  | kind => kind

def AllocationLeg.relabel (f : String → String) (leg : AllocationLeg) : AllocationLeg :=
  { leg with target := { leg.target with kind := leg.target.kind.relabel f } }

variable (f : String → String)

theorem AllocationTargetKind.relabel_eq_retain {kind : AllocationTargetKind} :
    kind.relabel f = .retain ↔ kind = .retain := by
  cases kind <;> simp [relabel]

@[simp] theorem AllocationLeg.relabel_weight (leg : AllocationLeg) :
    (leg.relabel f).weight = leg.weight := rfl

@[simp] theorem isSelectionLeg_relabel (legs : List AllocationLeg) :
    isSelectionLeg (legs.map (AllocationLeg.relabel f)) = isSelectionLeg legs := by
  cases legs with
  | nil => rfl
  | cons leg rest =>
      cases rest with
      | nil =>
          simp only [List.map_cons, List.map_nil, isSelectionLeg, AllocationLeg.relabel]
          cases leg.target.kind <;> rfl
      | cons _ _ => rfl

/-- The allocation over renamed Selection outputs. -/
def AllocationStatement.relabel (a : AllocationStatement) : AllocationStatement :=
  { a with
    legs := a.legs.map (AllocationLeg.relabel f)
    legs_range := by simpa using a.legs_range
    weights_range := by simpa [List.all_map, Function.comp_def] using a.weights_range
    retain_sole := by
      intro hRetain
      obtain ⟨leg, hLeg, hKind⟩ := hRetain
      obtain ⟨own, hOwn, rfl⟩ := List.mem_map.mp hLeg
      simpa using a.retain_sole ⟨own, hOwn, (AllocationTargetKind.relabel_eq_retain f).mp hKind⟩
    fixed_weights := by
      intro hFixed
      simpa [List.all_map, Function.comp_def] using a.fixed_weights hFixed
    derived_weights := by
      intro hMethod
      simpa [List.all_map, Function.comp_def] using a.derived_weights hMethod
    score_target := by
      intro hDerived
      rw [isSelectionLeg_relabel]
      exact a.score_target hDerived }

def OverrideRule.relabel (rule : OverrideRule) : OverrideRule :=
  { rule with action := rule.action.relabel f }

def GuardedAllocationStatement.relabel (s : GuardedAllocationStatement) :
    GuardedAllocationStatement :=
  { s with
    primary := s.primary.relabel f
    overrides := s.overrides.map (OverrideRule.relabel f)
    fallback := s.fallback.map (AllocationStatement.relabel f) }

mutual

/-- Rename the outputs a statement declares or targets, at every depth. -/
def ProgramStatement.relabel : ProgramStatement → ProgramStatement
  | .select s => .select { s with outputId := f s.outputId }
  | .allocate s => .allocate (s.relabel f)
  | .control head thenStatements otherwiseStatements =>
      .control head (relabelStatements thenStatements) (relabelStatements otherwiseStatements)
  | .onEvent id event body => .onEvent id event (relabelStatements body)
  | .guardedAllocation s => .guardedAllocation (s.relabel f)
  | .transition id t => .transition id t
  | .rememberValue s => .rememberValue s
  | .unresolved s => .unresolved s

def relabelStatements : List ProgramStatement → List ProgramStatement
  | [] => []
  | statement :: rest => statement.relabel :: relabelStatements rest

end

def SemanticProgram.relabel (program : SemanticProgram) : SemanticProgram :=
  { program with statements := relabelStatements f program.statements }

end RuleTrade
