import RuleTrade.Strategy.Fragments
import RuleTrade.Execution.Trace
import RuleTrade.Strategy.Acceptance

/-! Definite assignment of Selection outputs. The validator's outputs are a
lower bound of the outputs a decision has published, at every statement the
decision reaches. -/

namespace RuleTrade

open Library

section Monotone

variable {program : SemanticProgram}

mutual

theorem ProgramStatement.outputsAfter_mono (s : ProgramStatement) {A B : List String}
    (h : A ⊆ B) : s.outputsAfter A ⊆ s.outputsAfter B := by
  cases s with
  | select s => exact List.cons_subset_cons _ h
  | control head thenBody otherwiseBody =>
      intro x hx
      simp only [outputsAfter, List.mem_append, List.mem_filter, decide_eq_true_eq] at hx ⊢
      rcases hx with hx | ⟨hThen, hOtherwise⟩
      · exact Or.inl (h hx)
      · exact Or.inr ⟨ProgramStatement.outputsAfterAll_mono thenBody h hThen,
          ProgramStatement.outputsAfterAll_mono otherwiseBody h hOtherwise⟩
  | _ => exact h

theorem ProgramStatement.outputsAfterAll_mono (statements : List ProgramStatement)
    {A B : List String} (h : A ⊆ B) :
    ProgramStatement.outputsAfterAll statements A ⊆
      ProgramStatement.outputsAfterAll statements B := by
  cases statements with
  | nil => exact h
  | cons s rest =>
      exact ProgramStatement.outputsAfterAll_mono rest (ProgramStatement.outputsAfter_mono s h)

end

theorem ProgramStatement.subset_outputsAfter (s : ProgramStatement) (A : List String) :
    A ⊆ s.outputsAfter A := by
  cases s with
  | select s => exact List.subset_cons_self _ _
  | control head thenBody otherwiseBody => exact List.subset_append_left _ _
  | _ => exact List.Subset.refl _

theorem ProgramStatement.subset_outputsAfterAll (statements : List ProgramStatement)
    (A : List String) : A ⊆ ProgramStatement.outputsAfterAll statements A := by
  induction statements generalizing A with
  | nil => exact List.Subset.refl _
  | cons s rest ih => exact fun x hx => ih _ (s.subset_outputsAfter A hx)

mutual

/-- Outputs visible after a statement were visible before or are declared in it. -/
theorem ProgramStatement.mem_outputsAfter (s : ProgramStatement) {A : List String} {x : String}
    (h : x ∈ s.outputsAfter A) : x ∈ A ∨ x ∈ s.outputIds := by
  cases s with
  | select s =>
      rcases List.mem_cons.mp h with rfl | h
      · exact Or.inr (List.mem_singleton.mpr rfl)
      · exact Or.inl h
  | control head thenBody otherwiseBody =>
      rcases List.mem_append.mp h with h | h
      · exact Or.inl h
      · rcases ProgramStatement.mem_outputsAfterAll thenBody (List.mem_filter.mp h).1 with h | h
        · exact Or.inl h
        · exact Or.inr (List.mem_append_left _ h)
  | _ => exact Or.inl h

theorem ProgramStatement.mem_outputsAfterAll (statements : List ProgramStatement)
    {A : List String} {x : String} (h : x ∈ ProgramStatement.outputsAfterAll statements A) :
    x ∈ A ∨ x ∈ ProgramStatement.allOutputIds statements := by
  cases statements with
  | nil => exact Or.inl h
  | cons s rest =>
      rcases ProgramStatement.mem_outputsAfterAll rest h with h | h
      · rcases ProgramStatement.mem_outputsAfter s h with h | h
        · exact Or.inl h
        · exact Or.inr (List.mem_append_left _ h)
      · exact Or.inr (List.mem_append_right _ h)

end

theorem AllocationAdmitted.mono {A B : List String} {a : AllocationStatement} (h : A ⊆ B)
    (ha : AllocationAdmitted program A a) : AllocationAdmitted program B a :=
  ⟨ha.clock, fun ref hRef => h (ha.outputs ref hRef)⟩

mutual

/-- More visible outputs admit no less. -/
theorem ProgramStatement.Admitted.mono (s : ProgramStatement) {A B : List String} (h : A ⊆ B)
    (hs : s.Admitted program A) : s.Admitted program B := by
  cases s with
  | allocate a => exact AllocationAdmitted.mono h hs
  | control head thenBody otherwiseBody =>
      obtain ⟨hClock, hCondition, hThen, hOtherwise⟩ := hs
      exact ⟨hClock, hCondition, ProgramStatement.AllAdmitted.mono thenBody h hThen,
        ProgramStatement.AllAdmitted.mono otherwiseBody h hOtherwise⟩
  | onEvent id event body =>
      obtain ⟨hClock, hCondition, hBody⟩ := hs
      exact ⟨hClock, hCondition, ProgramStatement.AllAdmitted.mono body h hBody⟩
  | guardedAllocation s =>
      exact ⟨hs.guard, hs.overrides, fun a ha => (hs.actions a ha).mono h⟩
  | _ => exact hs

theorem ProgramStatement.AllAdmitted.mono (statements : List ProgramStatement)
    {A B : List String} (h : A ⊆ B) (hs : ProgramStatement.AllAdmitted program A statements) :
    ProgramStatement.AllAdmitted program B statements := by
  cases statements with
  | nil => trivial
  | cons s rest =>
      exact ⟨ProgramStatement.Admitted.mono s h hs.1,
        ProgramStatement.AllAdmitted.mono rest (s.outputsAfter_mono h) hs.2⟩

end

theorem ProgramStatement.AllAdmitted.append {body rest : List ProgramStatement} {A : List String}
    (hBody : ProgramStatement.AllAdmitted program A body)
    (hRest : ProgramStatement.AllAdmitted program
      (ProgramStatement.outputsAfterAll body A) rest) :
    ProgramStatement.AllAdmitted program A (body ++ rest) := by
  induction body generalizing A with
  | nil => exact hRest
  | cons s body ih => exact ⟨hBody.1, ih hBody.2 hRest⟩

end Monotone

section Clocks

mutual

/-- Clocks that can withhold a Selection output: those of Selections and of the
Controls around them. -/
def ProgramStatement.outputClocks : ProgramStatement → List String
  | .select s => s.clockId.toList
  | .control head thenBody otherwiseBody =>
      head.clockId.toList ++ (ProgramStatement.allOutputClocks thenBody ++
        ProgramStatement.allOutputClocks otherwiseBody)
  | .onEvent _ _ body => ProgramStatement.allOutputClocks body
  | _ => []

def ProgramStatement.allOutputClocks : List ProgramStatement → List String
  | [] => []
  | s :: rest => s.outputClocks ++ ProgramStatement.allOutputClocks rest

end

/-- A clock that is due at every row. -/
def DailyClock (program : SemanticProgram) (clockId : String) : Prop :=
  ∀ clock ∈ program.clocks, clock.id = clockId →
    clock.timeframe = .daily ∨ clock.timeframe = .session

theorem Decision.due_of_daily {d : Decision} {clockId : Option String} {due : Bool}
    (h : ∀ id ∈ clockId, DailyClock d.program id) (hDue : d.due clockId = .ok due) :
    due = true := by
  cases clockId with
  | none => exact (Except.ok.inj hDue).symm
  | some id =>
      obtain ⟨clock, hClock, hDue⟩ := except_bind_ok.mp hDue
      unfold Decision.clock at hClock
      split at hClock
      · cases hClock
      · rename_i found hFound
        cases hClock
        have hId : clock.id = id := by simpa using List.find?_some hFound
        have hTime := h id rfl clock (List.mem_of_find?_eq_some hFound) hId
        rw [← Except.ok.inj hDue]
        rcases hTime with hTime | hTime <;> simp [Decision.clockDue, hTime]

end Clocks

section Invariant

variable {d : Decision}

/-- What a statement on the agenda brings along. -/
structure OutputsKnown (program : SemanticProgram) (s : ProgramStatement) : Prop where
  distinct : s.outputIds.Nodup
  daily : ∀ id ∈ s.outputClocks, DailyClock program id

/-- The published outputs cover outputs at which the agenda is admitted. -/
def OutputsReady (program : SemanticProgram) (r : Runtime) (agenda : List ProgramStatement) :
    Prop :=
  (∃ available : List String, (∀ x ∈ available, x ∈ r.selections.keys) ∧
    ProgramStatement.AllAdmitted program available agenda) ∧
    ∀ s ∈ agenda, OutputsKnown program s

theorem OutputsKnown.of_mem {program : SemanticProgram} {s : ProgramStatement}
    {statements : List ProgramStatement}
    (hNodup : (ProgramStatement.allOutputIds statements).Nodup)
    (hDaily : ∀ id ∈ ProgramStatement.allOutputClocks statements, DailyClock program id)
    (hs : s ∈ statements) : OutputsKnown program s := by
  induction statements with
  | nil => cases hs
  | cons first rest ih =>
      obtain ⟨hFirst, hRest, -⟩ := List.nodup_append.mp hNodup
      rcases List.mem_cons.mp hs with rfl | hs
      · exact ⟨hFirst, fun id hId => hDaily id (List.mem_append_left _ hId)⟩
      · exact ih hRest (fun id hId => hDaily id (List.mem_append_right _ hId)) hs

theorem OutputsKnown.select_clock {program : SemanticProgram} {s : SelectionStatement}
    (h : OutputsKnown program (.select s)) : ∀ id ∈ s.clockId, DailyClock program id :=
  fun id hId => h.daily id (Option.mem_toList.mpr hId)

theorem OutputsKnown.control_clock {program : SemanticProgram} {head : ConditionalHead}
    {thenBody otherwiseBody : List ProgramStatement}
    (h : OutputsKnown program (.control head thenBody otherwiseBody)) :
    ∀ id ∈ head.clockId, DailyClock program id :=
  fun id hId => h.daily id (List.mem_append_left _ (Option.mem_toList.mpr hId))

/-- Bodies inherit distinct outputs and daily clocks. -/
theorem OutputsKnown.body {program : SemanticProgram} {s y : ProgramStatement}
    {body : List ProgramStatement} (h : OutputsKnown program s) (hBody : body ∈ s.bodies)
    (hy : y ∈ body) : OutputsKnown program y := by
  cases s with
  | control head thenBody otherwiseBody =>
      obtain ⟨hThen, hOtherwise, -⟩ := List.nodup_append.mp h.distinct
      simp only [ProgramStatement.bodies, List.mem_cons, List.not_mem_nil, or_false] at hBody
      rcases hBody with rfl | rfl
      · exact .of_mem hThen (fun id hId => h.daily id
          (List.mem_append_right _ (List.mem_append_left _ hId))) hy
      · exact .of_mem hOtherwise (fun id hId => h.daily id
          (List.mem_append_right _ (List.mem_append_right _ hId))) hy
  | onEvent id event statements =>
      obtain rfl := List.mem_singleton.mp hBody
      exact .of_mem h.distinct h.daily hy
  | _ => cases hBody

/-- After the branch a Control takes, the outputs promised behind it are there.
No output is declared in both branches, so nothing is promised that the third
way, unknown with retain, would leave out. -/
theorem control_promise {A thenOutputs otherwiseOutputs : List String}
    {thenBody otherwiseBody : List ProgramStatement}
    (hThen : thenOutputs = ProgramStatement.outputsAfterAll thenBody A)
    (hOtherwise : otherwiseOutputs = ProgramStatement.outputsAfterAll otherwiseBody A)
    (hDistinct : (ProgramStatement.allOutputIds thenBody ++
      ProgramStatement.allOutputIds otherwiseBody).Nodup) :
    A ++ thenOutputs.filter (fun output => output ∈ otherwiseOutputs) ⊆ A := by
  intro x hx
  rcases List.mem_append.mp hx with hx | hx
  · exact hx
  · obtain ⟨hx, hx'⟩ := List.mem_filter.mp hx
    rw [hThen] at hx
    rw [decide_eq_true_eq, hOtherwise] at hx'
    rcases ProgramStatement.mem_outputsAfterAll thenBody hx with hx | hx
    · exact hx
    · rcases ProgramStatement.mem_outputsAfterAll otherwiseBody hx' with hx' | hx'
      · exact hx'
      · exact absurd rfl ((List.nodup_append.mp hDistinct).2.2 x hx x hx')

/-- Step lemma: entering a statement keeps the agenda ready. -/
theorem OutputsReady.step {r r' : Runtime} {s : ProgramStatement}
    {body rest : List ProgramStatement} (hEnter : enterState d r s = .ok (r', body))
    (h : OutputsReady d.program r (s :: rest)) : OutputsReady d.program r' (body ++ rest) := by
  obtain ⟨⟨available, hAvailable, hAdmitted, hRest⟩, hKnown⟩ := h
  have hs := hKnown s List.mem_cons_self
  refine ⟨?_, fun y hy => ?_⟩
  · cases effect_of_enter hEnter with
    | notDue _ hDue =>
        -- A Selection or Control of a daily clock is always due.
        refine ⟨available, hAvailable, ?_⟩
        cases s with
        | select s => exact absurd (Decision.due_of_daily hs.select_clock hDue) (by simp)
        | control head thenBody otherwiseBody =>
            exact absurd (Decision.due_of_daily hs.control_clock hDue) (by simp)
        | _ => exact hRest
    | selectionNotDue s hDue detail =>
        exact absurd (Decision.due_of_daily hs.select_clock hDue) (by simp)
    | selected s hDue size scores outcome detail =>
        refine ⟨s.outputId :: available, fun x hx => ?_, hRest⟩
        rw [note_selections, Dict.mem_keys_set]
        rcases List.mem_cons.mp hx with rfl | hx
        · exact Or.inl rfl
        · exact Or.inr (hAvailable x hx)
    | allocated effect =>
        exact ⟨available, by rw [effect.sameMaps.selections]; exact hAvailable, hRest⟩
    | guarded effect =>
        exact ⟨available, by rw [effect.sameMaps.selections]; exact hAvailable, hRest⟩
    | controlled head thenBody otherwiseBody hDue hOutcome =>
        obtain ⟨-, -, hThen, hOtherwise⟩ := hAdmitted
        refine ⟨available, hAvailable, ?_⟩
        have hPromise := hRest.mono rest (control_promise rfl rfl hs.distinct)
        cases head.branch _ with
        | thenBranch =>
            exact hThen.append (hPromise.mono rest (ProgramStatement.subset_outputsAfterAll _ _))
        | otherwiseBranch =>
            exact hOtherwise.append
              (hPromise.mono rest (ProgramStatement.subset_outputsAfterAll _ _))
        | neither => exact hPromise
    | evented semanticId event statements hDue hNow hBefore =>
        obtain ⟨-, -, hBody⟩ := hAdmitted
        refine ⟨available, hAvailable, ?_⟩
        split_ifs
        · exact hBody.append (hRest.mono rest (ProgramStatement.subset_outputsAfterAll _ _))
        · exact hRest
    | transitioned semanticId t hDue hOutcome =>
        exact ⟨available, hAvailable, hRest⟩
    | remembered s hDue hObserved =>
        exact ⟨available, hAvailable, hRest⟩
  · rcases List.mem_append.mp hy with hy | hy
    · rcases body_of_enter hEnter with rfl | hBody
      · cases hy
      · exact hs.body hBody hy
    · exact hKnown y (List.mem_cons_of_mem s hy)

end Invariant

/-- Allocations that entering a statement may execute. -/
def ProgramStatement.allocations : ProgramStatement → List AllocationStatement
  | .allocate a => [a]
  | .guardedAllocation s => s.actions
  | _ => []

theorem ProgramStatement.Admitted.allocation {program : SemanticProgram} {s : ProgramStatement}
    {available : List String} (h : s.Admitted program available) {a : AllocationStatement}
    (ha : a ∈ s.allocations) : AllocationAdmitted program available a := by
  cases s with
  | allocate b =>
      obtain rfl := List.mem_singleton.mp ha
      exact h
  | guardedAllocation s => exact h.actions a ha
  | _ => cases ha

/-- In an accepted Program whose Selections and Controls run on daily clocks,
whatever allocation a decision comes to execute, the outputs its legs refer to
have been published earlier in the same decision. -/
theorem selection_outputs_assigned {program : SemanticProgram} (hAccepted : Accepted program)
    (hDaily : ∀ id ∈ ProgramStatement.allOutputClocks program.statements, DailyClock program id)
    (environment : Environment) (cutoff : Nat) (inRange : cutoff < environment.dates.length)
    (ck : Checkpoint) {r : Runtime} {s : ProgramStatement}
    (hVisit : (ck.decision program environment cutoff inRange).Visits (ck.runtime program) r s)
    {a : AllocationStatement} (ha : a ∈ s.allocations) {ref : String} (hRef : ref ∈ a.outputRefs) :
    ref ∈ r.selections.keys := by
  obtain ⟨trace, rest, hSteps⟩ := hVisit
  have hStart : OutputsReady program (ck.runtime program) program.statements :=
    ⟨⟨[], by simp, hAccepted.admitted⟩,
      fun s hs => .of_mem hAccepted.outputs_nodup hDaily hs⟩
  obtain ⟨⟨available, hAvailable, hAdmitted, -⟩, -⟩ :=
    hSteps.invariant (OutputsReady program) (fun _ _ _ _ _ hEnter h => h.step hEnter) hStart
  exact hAvailable ref ((hAdmitted.allocation ha).outputs ref hRef)

/-- One Selection on a daily clock, then an allocation to its output. -/
def pickThenHold : SemanticProgram :=
  .daily [
    .select {
      semanticId := "pick"
      selection := .anyOf 1 .chooseAll (by decide)
      outputId := "top"
      clockId := some "daily" },
    .allocate (.sole "hold" (.selection "top"))]

/-- One session in which no series is served. -/
def quietSession : Environment where
  context := DecimalContext.exact id
  snapshotId := "snapshot"
  dates := [⟨2024, 1, 5⟩]
  domains := Dict.ofList [("universe", ["A", "B"])]
  daily := fun _ _ _ _ => .error (.daily .indexOutOfRange)

def pickDecision : Decision :=
  ({} : Checkpoint).decision pickThenHold quietSession 0 (by decide)

theorem selection_outputs_assigned_pick :
    ∃ r : Runtime, r.selections.get? "top" = some ["A"] ∧ "top" ∈ r.selections.keys := by
  have hChecked : (statements pickDecision (pickThenHold.statements.take 1)
      (({} : Checkpoint).runtime pickThenHold)).result.toOption.any
        (fun r => r.selections.get? "top" = some ["A"]) = true := by decide +kernel
  obtain ⟨r, hRun, hTop⟩ := exists_ok_of_any hChecked
  have hVisit := Decision.visits_of_run (s := pickThenHold.statements.get ⟨1, by decide⟩)
    (d := pickDecision) rfl hRun
  exact ⟨r, of_decide_eq_true hTop, selection_outputs_assigned (by decide +kernel)
    (by simp only [DailyClock]; decide) quietSession 0 (by decide) {} hVisit
    (List.mem_singleton_self _) (List.mem_singleton_self _)⟩

end RuleTrade
