import RuleTrade.Execution.Execute

/-! The agenda reading of a decision, and the complete list of what entering
one statement can do to the runtime. -/

namespace RuleTrade

open Library

/-- Entering a statement, without the observations. -/
def enterState (d : Decision) (r : Runtime) (s : ProgramStatement) :
    Except ProgramError (Runtime × List ProgramStatement) :=
  (enter d r s).result

/-- A statement is its entry followed by the body the entry selects. -/
theorem statement_eq_enter (d : Decision) (r : Runtime) (s : ProgramStatement) :
    statement d s r = enter d r s >>= fun entered => statements d entered.2 entered.1 := by
  cases s with
  | control head thenStatements otherwiseStatements =>
      simp only [statement, enter, bind_assoc, pure_bind]
      congr 1
      funext entered
      cases entered.2 <;> simp [ControlBranch.pick, statements]
  | onEvent semanticId event body =>
      simp only [statement, enter, bind_assoc, pure_bind]
      congr 1
      funext entered
      cases entered.2 <;> simp [statements]
  | unresolved s => rfl
  | _ => simp [statement, enter, statements]

theorem statements_cons (d : Decision) (r : Runtime) (s : ProgramStatement)
    (rest : List ProgramStatement) :
    statements d (s :: rest) r = enter d r s >>= fun entered =>
      statements d entered.2 entered.1 >>= statements d rest := by
  rw [statements, statement_eq_enter, bind_assoc]

/-- Bodies come from the statement itself. -/
theorem body_of_enter {d : Decision} {r r' : Runtime} {s : ProgramStatement}
    {body : List ProgramStatement} (h : enterState d r s = .ok (r', body)) :
    body = [] ∨ body ∈ s.bodies := by
  unfold enterState at h
  cases s with
  | control head thenStatements otherwiseStatements =>
      simp only [enter, Logged.result_bind_eq_ok, Logged.result_pure, Except.ok.injEq] at h
      obtain ⟨entered, -, hPair⟩ := h
      cases hPair
      cases entered.2 <;> simp [ControlBranch.pick, ProgramStatement.bodies]
  | onEvent semanticId event statements =>
      simp only [enter, Logged.result_bind_eq_ok, Logged.result_pure, Except.ok.injEq] at h
      obtain ⟨entered, -, hPair⟩ := h
      cases hPair
      cases entered.2 <;> simp [ProgramStatement.bodies]
  | unresolved s => cases h
  | _ =>
      simp only [enter, Logged.result_bind_eq_ok, Logged.result_pure, Except.ok.injEq] at h
      obtain ⟨entered, -, hPair⟩ := h
      cases hPair
      exact Or.inl rfl

/-- The recursive interpreter agrees with the agenda reading. -/
theorem interprets (d : Decision) :
    Agenda.Interprets (enterState d) (fun agenda r => (statements d agenda r).result) where
  nil := fun r => rfl
  cons := by
    intro s rest r
    simp only [statements_cons, Logged.result_bind]
    rfl
  nested := by
    intro P hNil hCons agenda
    refine ProgramStatement.list_induction hNil ?_ agenda
    intro s rest hBodies hRest
    refine hCons s rest (fun r r' body hEnter => ?_) hRest
    rcases body_of_enter hEnter with rfl | hMem
    · exact hNil
    · exact hBodies body hMem

/-- Decisions that enter everything the first one comes to alike run alike. -/
theorem statements_congr {d e : Decision} (ss : List ProgramStatement) {r : Runtime}
    (h : ∀ t s, Agenda.Reaches (enterState d) r ss t s → enter e t s = enter d t s) :
    statements e ss r = statements d ss r := by
  revert r
  refine ProgramStatement.list_induction (P := fun ss => ∀ {r : Runtime},
    (∀ t s, Agenda.Reaches (enterState d) r ss t s → enter e t s = enter d t s) →
      statements e ss r = statements d ss r) ?_ ?_ ss
  · intro r h
    rfl
  · intro s rest hBodies hRest r h
    rw [statements_cons, statements_cons, h r s ⟨[], rest, .refl _ _⟩]
    cases hEnter : enter d r s with
    | failure error => rfl
    | success entered log =>
        have hState : enterState d r s = .ok (entered.1, entered.2) :=
          Logged.result_eq_ok.mpr ⟨log, hEnter⟩
        have hBody : statements e entered.2 entered.1 = statements d entered.2 entered.1 := by
          rcases body_of_enter hState with hNone | hMem
          · rw [hNone]
            rfl
          · refine hBodies _ hMem (fun t s' hReach => h t s' ?_)
            obtain ⟨trace, waiting, hSteps⟩ := hReach
            exact ⟨_, _, .step hState (hSteps.frame rest)⟩
        rw [Logged.success_bind, Logged.success_bind, hBody]
        cases hRan : statements d entered.2 entered.1 with
        | failure error => rfl
        | success r' log' =>
            have hResult : (statements d entered.2 entered.1).result = .ok r' :=
              Logged.result_eq_ok.mpr ⟨log', hRan⟩
            obtain ⟨trace, hSteps⟩ := (interprets d).ok_iff.mp hResult
            have hLater : statements e rest r' = statements d rest r' := by
              refine hRest (fun t s' hReach => h t s' ?_)
              obtain ⟨later, waiting, hLater⟩ := hReach
              exact ⟨_, _, .step hState ((hSteps.frame rest).trans hLater)⟩
            rw [Logged.success_bind, Logged.success_bind, hLater]

/-- A finished decision: the statements entered, each with the runtime it found. -/
def Decision.Traced (d : Decision) (start : Runtime) (trace : List (Runtime × ProgramStatement))
    (final : Runtime) : Prop :=
  Agenda.Steps (enterState d) start d.program.statements trace final []

/-- A decision, finished or not, comes to enter a statement. -/
def Decision.Visits (d : Decision) (start r : Runtime) (s : ProgramStatement) : Prop :=
  Agenda.Reaches (enterState d) start d.program.statements r s

theorem Decision.traced_iff (d : Decision) (start final : Runtime) :
    (∃ trace, d.Traced start trace final) ↔
      (statements d d.program.statements start).result = .ok final :=
  (interprets d).ok_iff.symm

/-- The decision enters a top-level statement in whatever state the statements
before it leave. -/
theorem Decision.visits_of_run {d : Decision} {start r : Runtime} {s : ProgramStatement}
    {before rest : List ProgramStatement} (hProgram : d.program.statements = before ++ s :: rest)
    (hRun : (statements d before start).result = .ok r) : d.Visits start r s := by
  obtain ⟨trace, hSteps⟩ := (interprets d).ok_iff.mp hRun
  refine ⟨trace, rest, ?_⟩
  rw [hProgram]
  exact hSteps.frame (s :: rest)

section Facets

variable (r : Runtime) (semanticId kind outcome : String) (detail : EvidenceDetail)

@[simp] theorem note_state : (r.note semanticId kind outcome detail).state = r.state := rfl

@[simp] theorem note_selections :
    (r.note semanticId kind outcome detail).selections = r.selections := rfl

@[simp] theorem note_targetWeights :
    (r.note semanticId kind outcome detail).targetWeights = r.targetWeights := rfl

@[simp] theorem note_retained :
    (r.note semanticId kind outcome detail).retained = r.retained := rfl

@[simp] theorem note_eventCutoffs :
    (r.note semanticId kind outcome detail).eventCutoffs = r.eventCutoffs := rfl

@[simp] theorem note_eventTruths :
    (r.note semanticId kind outcome detail).eventTruths = r.eventTruths := rfl

@[simp] theorem note_eventCounts :
    (r.note semanticId kind outcome detail).eventCounts = r.eventCounts := rfl

@[simp] theorem note_stateEnteredCutoffs :
    (r.note semanticId kind outcome detail).stateEnteredCutoffs = r.stateEnteredCutoffs := rfl

@[simp] theorem note_rememberedValues :
    (r.note semanticId kind outcome detail).rememberedValues = r.rememberedValues := rfl

end Facets

section Effects

/-- Clock that decides whether a statement does anything at all. -/
def ProgramStatement.clockId : ProgramStatement → Option String
  | .select s => s.clockId
  | .allocate s => s.clockId
  | .control head _ _ => head.clockId
  | .onEvent _ event _ => some event.clockId
  | .transition _ t => t.clockId
  | .rememberValue s => s.clockId
  | .guardedAllocation _ | .unresolved _ => none

/-- Only weights, the retain flag and evidence differ. -/
structure SameMaps (r r' : Runtime) : Prop where
  state : r'.state = r.state
  selections : r'.selections = r.selections
  selectionScores : r'.selectionScores = r.selectionScores
  eventCutoffs : r'.eventCutoffs = r.eventCutoffs
  eventTruths : r'.eventTruths = r.eventTruths
  eventCounts : r'.eventCounts = r.eventCounts
  stateEnteredCutoffs : r'.stateEnteredCutoffs = r.stateEnteredCutoffs
  rememberedValues : r'.rememberedValues = r.rememberedValues

variable {d : Decision} {r r' : Runtime}

/-- What one allocation can do. -/
inductive AllocationEffect (d : Decision) (r : Runtime) (a : AllocationStatement) :
    Runtime → Prop where
  | notDue (due : d.due a.clockId = .ok false) (detail : EvidenceDetail) :
      AllocationEffect d r a (r.note a.semanticId "allocation" "not_due" detail)
  | retained (due : d.due a.clockId = .ok true)
      (unresolved : expandLegs d r a.legs = .ok none ∨ expandLegs d r a.legs = .ok (some []))
      (outcome : String) (detail : EvidenceDetail) :
      AllocationEffect d r a
        ({ r with retained := true }.note a.semanticId "allocation" outcome detail)
  | wrote (due : d.due a.clockId = .ok true) {expanded : List (String × Option ℚ)}
      {weights : Dict String ℚ} (resolved : expandLegs d r a.legs = .ok (some expanded))
      (nonempty : expanded ≠ []) (method : methodWeights d r a expanded = .ok weights)
      (outcome : String) :
      AllocationEffect d r a ({ r with targetWeights := weights, retained := false }.note
        a.semanticId "allocation" outcome (.weights weights))

theorem effect_of_allocation {a : AllocationStatement} {outcome : String}
    (h : allocation d r a outcome = .ok r') : AllocationEffect d r a r' := by
  unfold allocation at h
  obtain ⟨due, hDue, h⟩ := except_bind_ok.mp h
  cases due with
  | false =>
      simp only [Bool.false_eq_true, if_false, Except.ok.injEq] at h
      subst h
      exact .notDue hDue _
  | true =>
      simp only [if_true] at h
      obtain ⟨expansion, hExpand, h⟩ := except_bind_ok.mp h
      rcases expansion with _ | _ | ⟨first, rest⟩
      · cases h
        exact .retained hDue (Or.inl hExpand) _ _
      · cases h
        exact .retained hDue (Or.inr hExpand) _ _
      · obtain ⟨weights, hWeights, h⟩ := except_bind_ok.mp h
        cases h
        exact .wrote hDue hExpand (List.cons_ne_nil _ _) hWeights _

theorem AllocationEffect.sameMaps {a : AllocationStatement} (h : AllocationEffect d r a r') :
    SameMaps r r' := by
  cases h <;> constructor <;> rfl

/-- What a guarded policy can do: block, choose nothing, or run its choice. -/
inductive PolicyEffect (d : Decision) (r : Runtime) (s : GuardedAllocationStatement) :
    Runtime → Prop where
  | blocked {guard : Truth} (evaluated : (guardTruth d r s).result = .ok guard)
      (blocks : s.blocks guard = true) (detail : EvidenceDetail) :
      PolicyEffect d r s
        ({ r with retained := true }.note s.semanticId "guarded_allocation" "guard_blocked" detail)
  | nothing {guard : Truth} {override : Option OverrideRule}
      (evaluated : (guardTruth d r s).result = .ok guard) (blocks : s.blocks guard = false)
      (overridden : (firstOverride d r s.ranked).result = .ok override)
      (choice : s.choice override (allocationResolvable r s.primary) = none)
      (detail : EvidenceDetail) :
      PolicyEffect d r s ({ r with retained := true }.note s.semanticId "guarded_allocation"
        "unresolved_retain" detail)
  | chose {guard : Truth} {override : Option OverrideRule} {choice : PolicyChoice}
      {allocated : Runtime}
      (evaluated : (guardTruth d r s).result = .ok guard) (blocks : s.blocks guard = false)
      (overridden : (firstOverride d r s.ranked).result = .ok override)
      (chosen : s.choice override (allocationResolvable r s.primary) = some choice)
      (ran : allocation d r choice.action choice.outcome = .ok allocated) (detail : EvidenceDetail) :
      PolicyEffect d r s
        (allocated.note s.semanticId "policy_precedence" choice.outcome detail)

theorem effect_of_guarded {s : GuardedAllocationStatement}
    (h : (enterGuarded d r s).result = .ok r') : PolicyEffect d r s r' := by
  unfold enterGuarded at h
  obtain ⟨guard, hGuard, h⟩ := Logged.result_bind_eq_ok.mp h
  cases hBlocks : s.blocks guard with
  | true =>
      simp only [hBlocks, if_true, Logged.result_pure, Except.ok.injEq] at h
      subst h
      exact .blocked hGuard hBlocks _
  | false =>
      simp only [hBlocks, Bool.false_eq_true, if_false] at h
      obtain ⟨override, hOverride, h⟩ := Logged.result_bind_eq_ok.mp h
      rw [Logged.result_lift] at h
      cases hChoice : s.choice override (allocationResolvable r s.primary) with
      | none =>
          simp only [hChoice, applyChoice, Except.ok.injEq] at h
          subst h
          exact .nothing hGuard hBlocks hOverride hChoice _
      | some choice =>
          simp only [hChoice, applyChoice] at h
          obtain ⟨allocated, hRan, h⟩ := except_bind_ok.mp h
          cases h
          exact .chose hGuard hBlocks hOverride hChoice hRan _

theorem PolicyEffect.sameMaps {s : GuardedAllocationStatement} (h : PolicyEffect d r s r') :
    SameMaps r r' := by
  cases h with
  | blocked | nothing => constructor <;> rfl
  | chose _ _ _ _ ran =>
      have hMaps := (effect_of_allocation ran).sameMaps
      exact ⟨hMaps.1, hMaps.2, hMaps.3, hMaps.4, hMaps.5, hMaps.6, hMaps.7, hMaps.8⟩

/-- Everything entering a statement can do, with the body it goes on to run. -/
inductive Effect (d : Decision) (r : Runtime) :
    ProgramStatement → Runtime → List ProgramStatement → Prop where
  | notDue (s : ProgramStatement) (due : d.due s.clockId = .ok false) : Effect d r s r []
  | selectionNotDue (s : SelectionStatement) (due : d.due s.clockId = .ok false)
      (detail : EvidenceDetail) :
      Effect d r (.select s) (r.note s.semanticId "selection" "not_due" detail) []
  | selected (s : SelectionStatement) (due : d.due s.clockId = .ok true) {chosen : List String}
      (size : chosen.length ≤ 100) (scores : Dict String ℚ) (outcome : String)
      (detail : EvidenceDetail) :
      Effect d r (.select s) ({ r with
        selections := r.selections.set s.outputId chosen
        selectionScores := r.selectionScores.set s.outputId scores }.note
          s.semanticId "selection" outcome detail) []
  | allocated {a : AllocationStatement} {r' : Runtime} (effect : AllocationEffect d r a r') :
      Effect d r (.allocate a) r' []
  | controlled (head : ConditionalHead) (thenBody otherwiseBody : List ProgramStatement)
      (due : d.due head.clockId = .ok true) {outcome : Truth}
      (evaluated : (predicate d r head.condition).result = .ok outcome) :
      Effect d r (.control head thenBody otherwiseBody) (recordControl r head outcome)
        ((head.branch outcome).pick thenBody otherwiseBody)
  | evented (semanticId : String) (event : EventDefinition) (body : List ProgramStatement)
      (due : d.due (some event.clockId) = .ok true) {previous current : Truth}
      (now : (currentTruth d r event).result = .ok current)
      (before : previousTruth d r event = .ok previous) :
      Effect d r (.onEvent semanticId event body)
        (recordEvent d r semanticId event previous current)
        (if event.triggers r previous current then body else [])
  | transitioned (semanticId : String) (t : StateTransition) (due : d.due t.clockId = .ok true)
      {outcome : Truth} (evaluated : (transitionTruth d r t).result = .ok outcome) :
      Effect d r (.transition semanticId t) (recordTransition d r semanticId t outcome) []
  | remembered (s : RememberValueStatement) (due : d.due s.clockId = .ok true)
      {observed : ProgramValueObservation}
      (evaluated : (value d r none [] s.value none).result = .ok observed) :
      Effect d r (.rememberValue s) (recordMemory r s observed) []
  | guarded {s : GuardedAllocationStatement} {r' : Runtime} (effect : PolicyEffect d r s r') :
      Effect d r (.guardedAllocation s) r' []

theorem chooseMembers_length (s : Selection) (ordered : List String) :
    (chooseMembers s ordered).1.length ≤ 100 := by
  have hCount := s.count_range
  unfold chooseMembers
  split
  · simp only [List.length_take]
    omega
  · split <;> simp

theorem effect_of_selection {s : SelectionStatement}
    (h : (selection d r s).result = .ok r') : Effect d r (.select s) r' [] := by
  unfold selection at h
  obtain ⟨due, hDue, h⟩ := Logged.result_bind_eq_ok.mp h
  rw [Logged.result_lift] at hDue
  cases due with
  | false =>
      simp only [Bool.false_eq_true, if_false, Logged.result_pure, Except.ok.injEq] at h
      subst h
      exact .selectionNotDue s hDue _
  | true =>
      simp only [if_true] at h
      obtain ⟨members, -, h⟩ := Logged.result_bind_eq_ok.mp h
      obtain ⟨scored, -, h⟩ := Logged.result_bind_eq_ok.mp h
      simp only [Logged.result_pure, Except.ok.injEq] at h
      subst h
      exact .selected s hDue (chooseMembers_length _ _) _ _ _

/-- Inversion of an entry. Later facts about runs are case analyses of this. -/
theorem effect_of_enter {s : ProgramStatement} {body : List ProgramStatement}
    (h : enterState d r s = .ok (r', body)) : Effect d r s r' body := by
  unfold enterState at h
  cases s with
  | unresolved s => cases h
  | select s =>
      obtain ⟨_, hEntered, hPair⟩ := Logged.result_bind_eq_ok.mp h
      cases hPair
      exact effect_of_selection hEntered
  | allocate s =>
      obtain ⟨_, hEntered, hPair⟩ := Logged.result_bind_eq_ok.mp h
      cases hPair
      exact .allocated (effect_of_allocation (by simpa using hEntered))
  | guardedAllocation s =>
      obtain ⟨_, hEntered, hPair⟩ := Logged.result_bind_eq_ok.mp h
      cases hPair
      exact .guarded (effect_of_guarded hEntered)
  | control head thenBody otherwiseBody =>
      obtain ⟨entered, hEntered, hPair⟩ := Logged.result_bind_eq_ok.mp h
      cases hPair
      obtain ⟨due, hDue, hEntered⟩ := Logged.result_bind_eq_ok.mp hEntered
      rw [Logged.result_lift] at hDue
      cases due with
      | false =>
          cases hEntered
          exact .notDue _ hDue
      | true =>
          simp only [if_true] at hEntered
          obtain ⟨outcome, hOutcome, hEntered⟩ := Logged.result_bind_eq_ok.mp hEntered
          cases hEntered
          exact .controlled head thenBody otherwiseBody hDue hOutcome
  | onEvent semanticId event statements =>
      obtain ⟨entered, hEntered, hPair⟩ := Logged.result_bind_eq_ok.mp h
      cases hPair
      obtain ⟨due, hDue, hEntered⟩ := Logged.result_bind_eq_ok.mp hEntered
      rw [Logged.result_lift] at hDue
      cases due with
      | false =>
          cases hEntered
          exact .notDue (.onEvent semanticId event statements) hDue
      | true =>
          simp only [if_true] at hEntered
          obtain ⟨current, hNow, hEntered⟩ := Logged.result_bind_eq_ok.mp hEntered
          obtain ⟨previous, hBefore, hEntered⟩ := Logged.result_bind_eq_ok.mp hEntered
          rw [Logged.result_lift] at hBefore
          cases hEntered
          exact .evented semanticId event statements hDue hNow hBefore
  | transition semanticId t =>
      obtain ⟨entered, hEntered, hPair⟩ := Logged.result_bind_eq_ok.mp h
      cases hPair
      obtain ⟨due, hDue, hEntered⟩ := Logged.result_bind_eq_ok.mp hEntered
      rw [Logged.result_lift] at hDue
      cases due with
      | false =>
          cases hEntered
          exact .notDue (.transition semanticId t) hDue
      | true =>
          simp only [if_true] at hEntered
          obtain ⟨outcome, hOutcome, hEntered⟩ := Logged.result_bind_eq_ok.mp hEntered
          cases hEntered
          exact .transitioned semanticId t hDue hOutcome
  | rememberValue s =>
      obtain ⟨entered, hEntered, hPair⟩ := Logged.result_bind_eq_ok.mp h
      cases hPair
      obtain ⟨due, hDue, hEntered⟩ := Logged.result_bind_eq_ok.mp hEntered
      rw [Logged.result_lift] at hDue
      cases due with
      | false =>
          cases hEntered
          exact .notDue (.rememberValue s) hDue
      | true =>
          simp only [if_true] at hEntered
          obtain ⟨observed, hObserved, hEntered⟩ := Logged.result_bind_eq_ok.mp hEntered
          cases hEntered
          exact .remembered s hDue hObserved

end Effects

section Inversion

variable {ck : Checkpoint} {program : SemanticProgram} {environment : Environment}
  {cutoffIndex : Option Int} {revisionId : Option String} {result : ProgramExecutionResult}

/-- Everything a returned execution went through. -/
theorem executeIn_ok (h : executeIn environment program cutoffIndex revisionId ck = .ok result) :
    Accepted program ∧ ∃ cutoff : Nat, ∃ inRange : cutoff < environment.dates.length,
      cutoffRow environment cutoffIndex = cutoff ∧
      checkCheckpoint program cutoff ck = .ok () ∧ ∃ trace final observations,
        (ck.decision program environment cutoff inRange).Traced (ck.runtime program) trace final ∧
        result = (ck.decision program environment cutoff inRange).report revisionId final
          observations := by
  unfold executeIn at h
  by_cases hIssues : validateProgramV2 program = []
  · refine ⟨hIssues, ?_⟩
    simp only [hIssues, ne_eq, not_true_eq_false, if_false] at h
    split at h
    case isFalse => cases h
    case isTrue hRange =>
      have hRow : ((cutoffRow environment cutoffIndex).toNat : Int) =
          cutoffRow environment cutoffIndex := Int.toNat_of_nonneg hRange.1
      refine ⟨(cutoffRow environment cutoffIndex).toNat, by omega, hRow.symm, ?_⟩
      split at h
      · cases h
      · rename_i hCheck
        refine ⟨hCheck, ?_⟩
        unfold Decision.run at h
        split at h
        · cases h
        · rename_i final observations hRun
          obtain ⟨trace, hTrace⟩ := (Decision.traced_iff _ _ final).mpr
            (Logged.result_eq_ok.mpr ⟨observations, hRun⟩)
          exact ⟨trace, final, observations, hTrace, (Except.ok.inj h).symm⟩
  · simp [hIssues] at h

/-- A decision on a row of the snapshot runs when its checkpoint is accepted. -/
theorem executeIn_inRange (environment : Environment) (hIssues : validateProgramV2 program = [])
    (hRange : 0 ≤ cutoffRow environment cutoffIndex ∧
      cutoffRow environment cutoffIndex < environment.dates.length) :
    executeIn environment program cutoffIndex revisionId ck =
      checkCheckpoint program (cutoffRow environment cutoffIndex).toNat ck >>= fun _ =>
        (ck.decision program environment (cutoffRow environment cutoffIndex).toNat
          (by omega)).run revisionId (ck.runtime program) := by
  simp only [executeIn, hIssues, ne_eq, not_true_eq_false, if_false]
  rw [dif_pos hRange]
  cases checkCheckpoint program (cutoffRow environment cutoffIndex).toNat ck <;> rfl

/-- The decision of an execution with everything it entered. -/
def EnteredBy (environment : Environment) (program : SemanticProgram) (cutoffIndex : Option Int)
    (ck : Checkpoint) (d : Decision) (trace : List (Runtime × ProgramStatement)) : Prop :=
  ∃ (cutoff : Nat) (inRange : cutoff < environment.dates.length) (final : Runtime),
    cutoffRow environment cutoffIndex = cutoff ∧
      d = ck.decision program environment cutoff inRange ∧
      d.Traced (ck.runtime program) trace final

/-- An execution has one decision and one trace. -/
theorem EnteredBy.unique {d e : Decision} {left right : List (Runtime × ProgramStatement)}
    (hLeft : EnteredBy environment program cutoffIndex ck d left)
    (hRight : EnteredBy environment program cutoffIndex ck e right) : d = e ∧ left = right := by
  obtain ⟨cutoff, inRange, final, hRow, rfl, hTraced⟩ := hLeft
  obtain ⟨cutoff', inRange', final', hRow', rfl, hTraced'⟩ := hRight
  obtain rfl : cutoff = cutoff' := by omega
  exact ⟨rfl, (Agenda.Steps.unique hTraced hTraced').1⟩

end Inversion

end RuleTrade
