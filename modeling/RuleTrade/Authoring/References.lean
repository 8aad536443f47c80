import RuleTrade.Authoring.Operations
import RuleTrade.Properties.DefiniteAssignment

/-! Where a strategy refers to groups, asset sets and Selection outputs, and
what a removal leaves of these references. -/

namespace RuleTrade

open Library

section Contents

@[simp] theorem selectionsOf_append (xs ys : List ProgramStatement) :
    selectionsOf (xs ++ ys) = selectionsOf xs ++ selectionsOf ys := List.filterMap_append

@[simp] theorem allocationsOf_append (xs ys : List ProgramStatement) :
    allocationsOf (xs ++ ys) = allocationsOf xs ++ allocationsOf ys := List.filterMap_append

theorem mem_selectionsOf {statements : List ProgramStatement} {s : SelectionStatement} :
    s ∈ selectionsOf statements ↔ ProgramStatement.select s ∈ statements := by
  simp only [selectionsOf, List.mem_filterMap]
  constructor
  · rintro ⟨statement, hMem, h⟩
    cases statement <;> simp_all [ProgramStatement.asSelection]
  · intro hMem
    exact ⟨_, hMem, rfl⟩

theorem mem_allocationsOf {statements : List ProgramStatement} {a : AllocationStatement} :
    a ∈ allocationsOf statements ↔ ProgramStatement.allocate a ∈ statements := by
  simp only [allocationsOf, List.mem_filterMap]
  constructor
  · rintro ⟨statement, hMem, h⟩
    cases statement <;> simp_all [ProgramStatement.asAllocation]
  · intro hMem
    exact ⟨_, hMem, rfl⟩

@[simp] theorem selectionsOf_actions (actions : List AllocationStatement) :
    selectionsOf (actions.map ProgramStatement.allocate) = [] := by
  induction actions with
  | nil => rfl
  | cons a rest ih => exact ih

theorem mem_allProgramStatements {statements : List ProgramStatement} {x : ProgramStatement} :
    x ∈ allProgramStatements statements ↔ ∃ s ∈ statements, x ∈ s.flatten := by
  induction statements with
  | nil => simp [allProgramStatements]
  | cons s rest ih => simp [allProgramStatements, ih]

theorem mem_flatten_self (s : ProgramStatement) : s ∈ s.flatten := by
  cases s <;> exact List.mem_cons_self

theorem mem_flatten_of_bodies {s x y : ProgramStatement} {body : List ProgramStatement}
    (hBody : body ∈ s.bodies) (hy : y ∈ body) (hx : x ∈ y.flatten) : x ∈ s.flatten := by
  have hAll : x ∈ allProgramStatements body := mem_allProgramStatements.mpr ⟨y, hy, hx⟩
  cases s with
  | control head thenBody otherwiseBody =>
      simp only [ProgramStatement.bodies, List.mem_cons, List.not_mem_nil, or_false] at hBody
      rcases hBody with rfl | rfl <;> simp [ProgramStatement.flatten, hAll]
  | onEvent id event statements =>
      obtain rfl := List.mem_singleton.mp hBody
      simp [ProgramStatement.flatten, hAll]
  | _ => cases hBody

/-- Every statement that a decision comes to is one of the Program. -/
theorem visits_mem {d : Decision} {start r : Runtime} {s : ProgramStatement}
    (h : d.Visits start r s) : s ∈ allProgramStatements d.program.statements := by
  obtain ⟨trace, rest, hSteps⟩ := h
  have hWaiting := hSteps.invariant (fun _ agenda => ∀ s ∈ agenda, ∀ x ∈ s.flatten,
    x ∈ allProgramStatements d.program.statements) ?_
    (fun s hs x hx => mem_allProgramStatements.mpr ⟨s, hs, hx⟩)
  · exact hWaiting s List.mem_cons_self s (mem_flatten_self s)
  · intro r s r' body rest hEnter hKnown y hy x hx
    rcases List.mem_append.mp hy with hy | hy
    · rcases body_of_enter hEnter with rfl | hBody
      · cases hy
      · exact hKnown s List.mem_cons_self x (mem_flatten_of_bodies hBody hy hx)
    · exact hKnown y (List.mem_cons_of_mem s hy) x hx

@[simp] theorem selectionsOf_control (head : ConditionalHead)
    (thenBody otherwiseBody : List ProgramStatement) :
    selectionsOf (ProgramStatement.control head thenBody otherwiseBody).flatten =
      selectionsOf (allProgramStatements thenBody) ++
        selectionsOf (allProgramStatements otherwiseBody) :=
  selectionsOf_append (allProgramStatements thenBody) (allProgramStatements otherwiseBody)

@[simp] theorem selectionsOf_onEvent (id : String) (event : EventDefinition)
    (body : List ProgramStatement) :
    selectionsOf (ProgramStatement.onEvent id event body).flatten =
      selectionsOf (allProgramStatements body) := rfl

@[simp] theorem allocationsOf_control (head : ConditionalHead)
    (thenBody otherwiseBody : List ProgramStatement) :
    allocationsOf (ProgramStatement.control head thenBody otherwiseBody).flatten =
      allocationsOf (allProgramStatements thenBody) ++
        allocationsOf (allProgramStatements otherwiseBody) :=
  allocationsOf_append (allProgramStatements thenBody) (allProgramStatements otherwiseBody)

@[simp] theorem allocationsOf_onEvent (id : String) (event : EventDefinition)
    (body : List ProgramStatement) :
    allocationsOf (ProgramStatement.onEvent id event body).flatten =
      allocationsOf (allProgramStatements body) := rfl

/-- Declared outputs are the outputs of the Selections, in order. -/
theorem allOutputIds_eq (statements : List ProgramStatement) :
    ProgramStatement.allOutputIds statements =
      (selectionsOf (allProgramStatements statements)).map SelectionStatement.outputId := by
  induction statements using ProgramStatement.list_induction with
  | hNil => rfl
  | hCons s rest hBodies hRest =>
      have hFirst : s.outputIds = (selectionsOf s.flatten).map SelectionStatement.outputId := by
        cases s with
        | control head thenBody otherwiseBody =>
            have hThen := hBodies thenBody (by simp [ProgramStatement.bodies])
            have hOtherwise := hBodies otherwiseBody (by simp [ProgramStatement.bodies])
            simp only [ProgramStatement.outputIds, hThen, hOtherwise, selectionsOf_control,
              List.map_append]
        | onEvent id event body =>
            have hBody := hBodies body (by simp [ProgramStatement.bodies])
            simp only [ProgramStatement.outputIds, hBody, selectionsOf_onEvent]
        | guardedAllocation s =>
            exact (congrArg (List.map SelectionStatement.outputId)
              (selectionsOf_actions s.actions)).symm
        | _ => rfl
      simp [ProgramStatement.allOutputIds, allProgramStatements, hFirst, hRest]

end Contents

section Targets

variable {program : SemanticProgram}

/-- Allocations of an admitted list refer to outputs it has or is given. -/
theorem AllAdmitted.targets {statements : List ProgramStatement} {available : List String}
    (h : ProgramStatement.AllAdmitted program available statements)
    {a : AllocationStatement} (ha : a ∈ allocationsOf (allProgramStatements statements))
    {ref : String} (hRef : ref ∈ a.outputRefs) :
    ref ∈ available ∨ ref ∈ ProgramStatement.allOutputIds statements := by
  induction statements using ProgramStatement.list_induction generalizing available with
  | hNil => cases ha
  | hCons s rest hBodies hRest =>
      obtain ⟨hFirst, hAfter⟩ := h
      simp only [allProgramStatements, allocationsOf_append, List.mem_append] at ha
      simp only [ProgramStatement.allOutputIds, List.mem_append]
      rcases ha with ha | ha
      · have hOwn : ref ∈ available ∨ ref ∈ s.outputIds := by
          cases s with
          | allocate b =>
              obtain rfl := List.mem_singleton.mp ha
              exact .inl (hFirst.outputs ref hRef)
          | guardedAllocation g =>
              obtain ⟨action, hAction, hEq⟩ := List.mem_map.mp
                ((List.mem_cons.mp (mem_allocationsOf.mp ha)).resolve_left (by simp))
              cases hEq
              exact .inl ((hFirst.actions a hAction).outputs ref hRef)
          | control head thenBody otherwiseBody =>
              obtain ⟨_, _, hThen, hOtherwise⟩ := hFirst
              rw [allocationsOf_control, List.mem_append] at ha
              rcases ha with ha | ha
              · exact (hBodies thenBody (by simp [ProgramStatement.bodies]) hThen ha).imp_right
                  (List.mem_append_left _)
              · exact (hBodies otherwiseBody (by simp [ProgramStatement.bodies]) hOtherwise
                  ha).imp_right (List.mem_append_right _)
          | onEvent id event body =>
              exact hBodies body (by simp [ProgramStatement.bodies]) hFirst.2.2 ha
          | _ => cases ha
        exact hOwn.imp_right .inl
      · rcases hRest hAfter ha with hMem | hMem
        · exact (s.mem_outputsAfter hMem).imp_right .inl
        · exact .inr (.inr hMem)

/-- Every allocation of an accepted Program targets an output of some Selection. -/
theorem Accepted.targets (h : Accepted program) {a : AllocationStatement}
    (ha : a ∈ allocationsOf (allProgramStatements program.statements)) {ref : String}
    (hRef : ref ∈ a.outputRefs) :
    ∃ s ∈ selectionsOf (allProgramStatements program.statements), s.outputId = ref := by
  have hKnown := (AllAdmitted.targets h.admitted ha hRef).resolve_left (by simp)
  rw [allOutputIds_eq] at hKnown
  exact List.mem_map.mp hKnown

end Targets

section Removal

variable {semanticId : String}

/-- The rewrite that drops an address. -/
def dropAddress (semanticId : String) (statement : ProgramStatement) : Option ProgramStatement :=
  if statement.semanticId = semanticId then none else some statement

theorem dropAddress_some {s kept : ProgramStatement} (h : dropAddress semanticId s = some kept) :
    kept = s := by
  unfold dropAddress at h
  split_ifs at h
  exact (Option.some.inj h).symm

/-- A removal adds no statement without bodies. -/
theorem mem_of_removed {statements : List ProgramStatement} {x : ProgramStatement}
    (hLeaf : x.bodies = [])
    (h : x ∈ allProgramStatements (rewrittenStatements (dropAddress semanticId) statements)) :
    x ∈ allProgramStatements statements := by
  induction statements using ProgramStatement.list_induction with
  | hNil => cases h
  | hCons s rest hBodies hRest =>
      rw [allProgramStatements, List.mem_append]
      simp only [rewrittenStatements] at h
      cases hCurrent : s.rewritten (dropAddress semanticId) with
      | none =>
          simp only [hCurrent] at h
          exact .inr (hRest h)
      | some current =>
          simp only [hCurrent, allProgramStatements, List.mem_append] at h
          refine h.imp (fun hOwn => ?_) hRest
          cases s with
          | control head thenBody otherwiseBody =>
              obtain ⟨kept, hKept, rfl⟩ := Option.map_eq_some_iff.mp hCurrent
              obtain rfl := dropAddress_some hKept
              simp only [ProgramStatement.withBodies, ProgramStatement.flatten, List.mem_cons,
                List.mem_append] at hOwn ⊢
              rcases hOwn with rfl | hThen | hOtherwise
              · simp [ProgramStatement.bodies] at hLeaf
              · exact .inr (.inl (hBodies thenBody (by simp [ProgramStatement.bodies]) hThen))
              · exact .inr (.inr (hBodies otherwiseBody (by simp [ProgramStatement.bodies])
                  hOtherwise))
          | onEvent id event body =>
              obtain ⟨kept, hKept, rfl⟩ := Option.map_eq_some_iff.mp hCurrent
              obtain rfl := dropAddress_some hKept
              simp only [ProgramStatement.withBodies, ProgramStatement.flatten,
                List.mem_cons] at hOwn ⊢
              rcases hOwn with rfl | hBody
              · simp [ProgramStatement.bodies] at hLeaf
              · exact .inr (hBodies body (by simp [ProgramStatement.bodies]) hBody)
          | _ =>
              obtain rfl := dropAddress_some hCurrent
              exact hOwn

theorem removeProgramStatement_ok {program : SemanticProgram}
    {removed : SemanticProgram × ProgramStatement}
    (h : removeProgramStatement semanticId program = .ok removed) :
    removed.1 = rewriteProgramStatements (dropAddress semanticId) program := by
  unfold removeProgramStatement at h
  split at h <;> cases h
  rfl

end Removal

section Application

theorem applyV2Authoring_ok {strategyHash : StrategyDraft → String}
    {request : ApplyV2AuthoringRequest} {response : ApplyV2AuthoringResponse}
    (h : applyV2Authoring strategyHash request = .ok response) :
    applyProgramOperation request.strategy request.operation = .ok response.strategy ∧
      response.strategy.validate = [] := by
  unfold applyV2Authoring at h
  split_ifs at h
  obtain ⟨candidate, hApplied, hValidated⟩ := except_bind_ok.mp h
  split at hValidated
  · rename_i hClean
    cases hValidated
    exact ⟨hApplied, hClean⟩
  · cases hValidated

end Application

end RuleTrade
