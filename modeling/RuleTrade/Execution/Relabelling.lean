import RuleTrade.Execution.Execute
import RuleTrade.Execution.Readings
import RuleTrade.Strategy.Relabelling

/-! The interpreter treats Selection outputs as bare names. Under an injective
renaming of the outputs a decision goes the same way, and its two Selection
maps are renamed. -/

namespace RuleTrade

open Library

variable (f : String ↪ String)

def Runtime.relabel (r : Runtime) : Runtime :=
  { r with
    selections := r.selections.mapKeys f
    selectionScores := r.selectionScores.mapKeys f }

/-- The decision over the renamed Program. -/
def Decision.relabel (d : Decision) : Decision :=
  { d with
    program := d.program.relabel f
    inRange := d.inRange }

section Evaluation

/-- Two computations that agree. -/
def Agree {α : Type} (x : Bool → Evaluation α) : Prop := x true = x false

theorem agree_sequential :
    Logged.Sequential (fun {α : Type} (x : Bool → Evaluation α) => Agree x) where
  success := by
    intro α a log
    rfl
  bind := by
    intro α β x g hx hg
    show x true >>= g true = x false >>= g false
    rw [show x true = x false from hx]
    congr 1
    funext a
    exact hg a

variable (d : Decision) (r : Runtime)

/-- A decision and its renaming, side by side. -/
def relabelWorlds : Worlds Bool where
  decision := fun renamed => if renamed then d.relabel f else d
  runtime := fun renamed => if renamed then r.relabel f else r
  context := d.environment.context
  observedAt := d.observedAt
  context_eq := by
    intro renamed
    cases renamed <;> rfl
  observedAt_eq := by
    intro renamed
    cases renamed <;> rfl

/-- No reading looks at a Selection output. -/
theorem reading_relabel (bindingId : Option String) (members : List String) (reading : Reading)
    (hAtomic : reading.Atomic) :
    reading.Has (fun {α : Type} (x : Bool → Evaluation α) => Agree x) (relabelWorlds f d r)
      bindingId members := by
  cases reading with
  | ofValue expression candidate =>
      cases expression with
      | crossSectional => 
          obtain rfl : candidate = none := hAtomic
          rfl
      | crossSectionalAggregate => exact absurd hAtomic id
      | score => exact absurd hAtomic id
      | _ => rfl
  | ofCondition test =>
      cases test with
      | stateEquals => rfl
      | eventWindow => rfl
      | _ => exact absurd hAtomic id

@[simp] theorem value_relabel (bindingId : Option String) (members : List String)
    (v : ValueExpression) (candidate : Option String) :
    value (d.relabel f) (r.relabel f) bindingId members v candidate =
      value d r bindingId members v candidate :=
  value_holds (relabelWorlds f d r) agree_sequential v candidate
    (fun reading _ hAtomic => reading_relabel f d r bindingId members reading hAtomic)

@[simp] theorem condition_relabel (bindingId : Option String) (members : List String)
    (c : Condition) (candidate : Option String) :
    condition (d.relabel f) (r.relabel f) bindingId members c candidate =
      condition d r bindingId members c candidate :=
  condition_holds (relabelWorlds f d r) agree_sequential c candidate
    (fun reading _ hAtomic => reading_relabel f d r bindingId members reading hAtomic)

@[simp] theorem predicate_relabel (c : Condition) :
    predicate (d.relabel f) (r.relabel f) c = predicate d r c :=
  condition_relabel f d r none [] c none

@[simp] theorem due_relabel (clockId : Option String) :
    (d.relabel f).due clockId = d.due clockId := rfl

@[simp] theorem members_relabel (universeId : String) :
    (d.relabel f).members universeId = d.members universeId := rfl

@[simp] theorem selected_relabel (outputId : String) :
    (r.relabel f).selected (f outputId) = r.selected outputId :=
  Dict.getD_mapKeys f r.selections outputId []

@[simp] theorem scores_relabel (outputId : String) :
    (r.relabel f).scores (f outputId) = r.scores outputId :=
  Dict.getD_mapKeys f r.selectionScores outputId Dict.empty

end Evaluation

section Statements

variable (d : Decision) (r : Runtime)

@[simp] theorem rankMember_relabel (s : Selection) (members : List String) (member : String) :
    rankMember (d.relabel f) (r.relabel f) s members member = rankMember d r s members member := by
  simp only [rankMember, value_relabel, condition_relabel]

theorem selection_relabel (s : SelectionStatement) :
    selection (d.relabel f) (r.relabel f) { s with outputId := f s.outputId } =
      Runtime.relabel f <$> selection d r s := by
  simp only [selection, due_relabel, members_relabel, map_bind]
  congr 1
  funext due
  cases due with
  | false => rfl
  | true =>
      simp only [if_true, map_bind, map_pure]
      congr 1
      funext members
      have hRanked : rankMember (d.relabel f) (r.relabel f) s.selection members =
          rankMember d r s.selection members := by
        funext member
        exact rankMember_relabel f d r s.selection members member
      rw [hRanked]
      congr 1
      funext scored
      simp only [Runtime.relabel, Dict.set_mapKeys, Runtime.note]

@[simp] theorem targetAssets_relabel (kind : AllocationTargetKind) :
    targetAssets (d.relabel f) (r.relabel f) (kind.relabel f) = targetAssets d r kind := by
  cases kind with
  | selection ref => exact congrArg Except.ok (selected_relabel f r ref)
  | _ => rfl

theorem expandLegs_relabel (legs : List AllocationLeg) :
    expandLegs (d.relabel f) (r.relabel f) (legs.map (AllocationLeg.relabel f)) =
      expandLegs d r legs := by
  induction legs with
  | nil => rfl
  | cons leg rest ih =>
      simp only [List.map_cons, expandLegs, ih]
      have hTarget : (leg.relabel f).target.kind = leg.target.kind.relabel f := rfl
      rw [hTarget, targetAssets_relabel, AllocationLeg.relabel_weight]
      simp only [AllocationTargetKind.relabel_eq_retain]
      rfl

/-- The output a score-derived allocation reads is renamed with its leg. -/
theorem scoreOutput_relabel (a : AllocationStatement) (hDerived : a.method.scoreDerived = true) :
    (a.relabel f).scoreOutput = f a.scoreOutput := by
  have hTarget := a.score_target hDerived
  unfold isSelectionLeg at hTarget
  split at hTarget
  · rename_i leg hLegs
    split at hTarget
    · rename_i ref hKind
      simp [AllocationStatement.scoreOutput, AllocationStatement.relabel, hLegs,
        AllocationLeg.relabel, hKind, AllocationTargetKind.relabel, AllocationTargetKind.ref]
    · cases hTarget
  · cases hTarget

theorem methodWeights_relabel (a : AllocationStatement)
    (expanded : List (String × Option ℚ)) :
    methodWeights (d.relabel f) (r.relabel f) (a.relabel f) expanded =
      methodWeights d r a expanded := by
  have hMethod : (a.relabel f).method = a.method := rfl
  unfold methodWeights
  rw [hMethod]
  cases hCase : a.method with
  | equal => rfl
  | fixed => rfl
  | proportionalScore =>
      simp only [scoreOutput_relabel f a (by rw [hCase]; rfl), selected_relabel, scores_relabel]
      rfl
  | inverseVolatility =>
      simp only [scoreOutput_relabel f a (by rw [hCase]; rfl), selected_relabel, scores_relabel]
      rfl

theorem allocation_relabel (a : AllocationStatement) (outcome : String) :
    allocation (d.relabel f) (r.relabel f) (a.relabel f) outcome =
      (allocation d r a outcome).map (Runtime.relabel f) := by
  have hLegs := expandLegs_relabel f d r a.legs
  have hWeights := methodWeights_relabel f d r a
  unfold allocation
  show ((d.relabel f).due a.clockId >>= _) = _
  rw [due_relabel]
  cases d.due a.clockId with
  | error e => rfl
  | ok due =>
      cases due with
      | false => rfl
      | true =>
          show (expandLegs (d.relabel f) (r.relabel f) (a.legs.map (AllocationLeg.relabel f)) >>= _)
            = Except.map _ (expandLegs d r a.legs >>= _)
          rw [hLegs]
          cases expandLegs d r a.legs with
          | error e => rfl
          | ok legs =>
              cases legs with
              | none => rfl
              | some expanded =>
                  cases expanded with
                  | nil => rfl
                  | cons first rest =>
                      show (methodWeights (d.relabel f) (r.relabel f) (a.relabel f) (first :: rest)
                        >>= _) = Except.map _ (methodWeights d r a (first :: rest) >>= _)
                      rw [hWeights]
                      cases methodWeights d r a (first :: rest) <;> rfl

theorem allocationResolvable_relabel (a : AllocationStatement) :
    allocationResolvable (r.relabel f) (a.relabel f) = allocationResolvable r a := by
  have hMethod : (a.relabel f).method = a.method := rfl
  unfold allocationResolvable
  rw [hMethod]
  refine congrArg₂ (fun exist derived : Bool => if !exist then false else derived) ?_ ?_
  · simp only [AllocationStatement.relabel, List.all_map]
    congr 1
    funext leg
    simp only [Function.comp_apply, AllocationLeg.relabel]
    cases leg.target.kind with
    | selection ref => exact congrArg (fun assets => !List.isEmpty assets) (selected_relabel f r ref)
    | _ => rfl
  · cases hCase : a.method with
    | equal => rfl
    | fixed => rfl
    | proportionalScore =>
        simp only [scoreOutput_relabel f a (by rw [hCase]; rfl), selected_relabel, scores_relabel]
    | inverseVolatility =>
        simp only [scoreOutput_relabel f a (by rw [hCase]; rfl), selected_relabel, scores_relabel]

theorem firstOverride_relabel (rules : List OverrideRule) :
    firstOverride (d.relabel f) (r.relabel f) (rules.map (OverrideRule.relabel f)) =
      Option.map (OverrideRule.relabel f) <$> firstOverride d r rules := by
  induction rules with
  | nil => rfl
  | cons rule rest ih =>
      simp only [List.map_cons, firstOverride, ih, map_bind]
      have hWhen : (rule.relabel f).when = rule.when := rfl
      rw [hWhen, predicate_relabel]
      congr 1
      funext outcome
      split_ifs <;> rfl

/-- Renaming moves no override past another. -/
theorem ranked_relabel (s : GuardedAllocationStatement) :
    (s.relabel f).ranked = s.ranked.map (OverrideRule.relabel f) := by
  apply Eq.symm
  apply List.map_insertionSort
  intro x _ y _
  exact Iff.rfl

def PolicyChoice.relabel (choice : PolicyChoice) : PolicyChoice :=
  { choice with action := choice.action.relabel f }

theorem choice_relabel (s : GuardedAllocationStatement) (override : Option OverrideRule)
    (resolvable : Bool) :
    (s.relabel f).choice (override.map (OverrideRule.relabel f)) resolvable =
      (s.choice override resolvable).map (PolicyChoice.relabel f) := by
  cases override with
  | some rule => rfl
  | none =>
      cases resolvable with
      | true => rfl
      | false =>
          simp only [GuardedAllocationStatement.choice, GuardedAllocationStatement.relabel,
            Option.map_none, Bool.false_eq_true, if_false, Option.map_map]
          rfl

theorem applyChoice_relabel (s : GuardedAllocationStatement) (choice : Option PolicyChoice) :
    applyChoice (d.relabel f) (r.relabel f) (s.relabel f) (choice.map (PolicyChoice.relabel f)) =
      (applyChoice d r s choice).map (Runtime.relabel f) := by
  cases choice with
  | none => rfl
  | some choice =>
      show (allocation (d.relabel f) (r.relabel f) (choice.action.relabel f) choice.outcome >>= _) =
        Except.map _ (allocation d r choice.action choice.outcome >>= _)
      rw [allocation_relabel]
      cases allocation d r choice.action choice.outcome <;> rfl

theorem enterGuarded_relabel (s : GuardedAllocationStatement) :
    enterGuarded (d.relabel f) (r.relabel f) (s.relabel f) =
      Runtime.relabel f <$> enterGuarded d r s := by
  have hGuard : guardTruth (d.relabel f) (r.relabel f) (s.relabel f) = guardTruth d r s := by
    have hSame : (s.relabel f).guard = s.guard := rfl
    unfold guardTruth
    rw [hSame]
    cases s.guard with
    | none => rfl
    | some guard => exact predicate_relabel f d r guard
  have hPrimary := allocationResolvable_relabel f r s.primary
  simp only [enterGuarded, hGuard, map_bind]
  congr 1
  funext guard
  show (if s.blocks guard then _ else _) = _
  split_ifs
  · rfl
  · rw [ranked_relabel, firstOverride_relabel]
    simp only [map_bind, bind_map_left]
    congr 1
    funext override
    show Logged.lift (applyChoice (d.relabel f) (r.relabel f) (s.relabel f)
      ((s.relabel f).choice _ (allocationResolvable (r.relabel f) (s.primary.relabel f)))) = _
    rw [hPrimary, choice_relabel, applyChoice_relabel]
    cases applyChoice d r s (s.choice override (allocationResolvable r s.primary)) <;> rfl

theorem enterControl_relabel (head : ConditionalHead) :
    enterControl (d.relabel f) (r.relabel f) head =
      Prod.map (Runtime.relabel f) id <$> enterControl d r head := by
  simp only [enterControl, due_relabel, map_bind]
  congr 1
  funext due
  cases due with
  | false => rfl
  | true =>
      simp only [if_true, predicate_relabel, map_bind]
      rfl

theorem previousTruth_relabel (event : EventDefinition) :
    previousTruth (d.relabel f) (r.relabel f) event = previousTruth d r event := by
  have hTruths : (d.relabel f).priorEventTruths = d.priorEventTruths := rfl
  unfold previousTruth
  rw [hTruths]
  cases d.priorEventTruths.get? event.semanticId with
  | some truth => rfl
  | none =>
      cases event.trigger with
      | scheduled => rfl
      | on trigger when =>
          have hPrior := predicate_relabel f d.prior (r.prior d) when
          exact congrArg (fun truth : Evaluation Truth =>
            if d.cutoff = 0 then .ok .false else truth.result) hPrior

theorem enterEvent_relabel (semanticId : String) (event : EventDefinition) :
    enterEvent (d.relabel f) (r.relabel f) semanticId event =
      Prod.map (Runtime.relabel f) id <$> enterEvent d r semanticId event := by
  have hCurrent : currentTruth (d.relabel f) (r.relabel f) event = currentTruth d r event := by
    unfold currentTruth
    cases event.trigger with
    | scheduled => rfl
    | on trigger when => exact predicate_relabel f d r when
  simp only [enterEvent, due_relabel, hCurrent, previousTruth_relabel, map_bind]
  congr 1
  funext due
  cases due with
  | false => rfl
  | true =>
      simp only [if_true, map_bind]
      rfl

theorem enterTransition_relabel (semanticId : String) (t : StateTransition) :
    enterTransition (d.relabel f) (r.relabel f) semanticId t =
      Runtime.relabel f <$> enterTransition d r semanticId t := by
  have hTruth : transitionTruth (d.relabel f) (r.relabel f) t = transitionTruth d r t := by
    unfold transitionTruth
    rw [predicate_relabel]
    rfl
  simp only [enterTransition, due_relabel, hTruth, map_bind]
  congr 1
  funext due
  cases due with
  | false => rfl
  | true =>
      simp only [if_true, map_bind]
      rfl

theorem enterRemember_relabel (s : RememberValueStatement) :
    enterRemember (d.relabel f) (r.relabel f) s = Runtime.relabel f <$> enterRemember d r s := by
  simp only [enterRemember, due_relabel, value_relabel, map_bind]
  congr 1
  funext due
  cases due with
  | false => rfl
  | true =>
      simp only [if_true, map_bind]
      rfl

mutual

/-- Executing a renamed statement renames what executing the statement gives. -/
theorem statement_relabel (s : ProgramStatement) (r : Runtime) :
    statement (d.relabel f) (s.relabel f) (r.relabel f) =
      Runtime.relabel f <$> statement d s r := by
  cases s with
  | select s => exact selection_relabel f d r s
  | allocate s =>
      simp only [ProgramStatement.relabel, statement, allocation_relabel]
      cases allocation d r s "allocated" <;> rfl
  | control head thenBody otherwiseBody =>
      simp only [ProgramStatement.relabel, statement, enterControl_relabel, map_bind, bind_map_left]
      congr 1
      funext entered
      obtain ⟨r', branch⟩ := entered
      cases branch with
      | thenBranch => exact statements_relabel thenBody r'
      | otherwiseBranch => exact statements_relabel otherwiseBody r'
      | neither => rfl
  | onEvent id event body =>
      simp only [ProgramStatement.relabel, statement, enterEvent_relabel, map_bind, bind_map_left]
      congr 1
      funext entered
      obtain ⟨r', triggered⟩ := entered
      cases triggered with
      | true => exact statements_relabel body r'
      | false => rfl
  | transition id t => exact enterTransition_relabel f d r id t
  | rememberValue s => exact enterRemember_relabel f d r s
  | guardedAllocation s => exact enterGuarded_relabel f d r s
  | unresolved s => rfl

theorem statements_relabel (ss : List ProgramStatement) (r : Runtime) :
    statements (d.relabel f) (relabelStatements f ss) (r.relabel f) =
      Runtime.relabel f <$> statements d ss r := by
  cases ss with
  | nil => rfl
  | cons s rest =>
      simp only [relabelStatements, statements, statement_relabel s r, map_bind, bind_map_left]
      congr 1
      funext r'
      exact statements_relabel rest r'

end

end Statements

section Runs

/-- The result over renamed outputs. -/
def ProgramExecutionResult.relabel (result : ProgramExecutionResult) : ProgramExecutionResult :=
  { result with
    selectionOutputs := result.selectionOutputs.mapKeys f
    selectionScores := result.selectionScores.mapKeys f }

theorem eventAddresses_relabel (ss : List ProgramStatement) :
    ProgramStatement.allEventAddresses (relabelStatements f ss) =
      ProgramStatement.allEventAddresses ss := by
  induction ss using ProgramStatement.list_induction with
  | hNil => rfl
  | hCons s rest hBodies hRest =>
      simp only [relabelStatements, ProgramStatement.allEventAddresses, hRest]
      congr 1
      cases s with
      | control head thenBody otherwiseBody =>
          simp only [ProgramStatement.relabel, ProgramStatement.eventAddresses]
          rw [hBodies thenBody (by simp [ProgramStatement.bodies]),
            hBodies otherwiseBody (by simp [ProgramStatement.bodies])]
      | onEvent id event body =>
          simp only [ProgramStatement.relabel, ProgramStatement.eventAddresses]
          rw [hBodies body (by simp [ProgramStatement.bodies])]
      | _ => rfl

theorem memoryAddresses_relabel (ss : List ProgramStatement) :
    ProgramStatement.allMemoryAddresses (relabelStatements f ss) =
      ProgramStatement.allMemoryAddresses ss := by
  induction ss using ProgramStatement.list_induction with
  | hNil => rfl
  | hCons s rest hBodies hRest =>
      simp only [relabelStatements, ProgramStatement.allMemoryAddresses, hRest]
      congr 1
      cases s with
      | control head thenBody otherwiseBody =>
          simp only [ProgramStatement.relabel, ProgramStatement.memoryAddresses]
          rw [hBodies thenBody (by simp [ProgramStatement.bodies]),
            hBodies otherwiseBody (by simp [ProgramStatement.bodies])]
      | onEvent id event body =>
          simp only [ProgramStatement.relabel, ProgramStatement.memoryAddresses]
          rw [hBodies body (by simp [ProgramStatement.bodies])]
      | _ => rfl

variable (program : SemanticProgram)

theorem checkCheckpoint_relabel (cutoff : Nat) (ck : Checkpoint) :
    checkCheckpoint (program.relabel f) cutoff ck = checkCheckpoint program cutoff ck := by
  unfold checkCheckpoint
  simp only [SemanticProgram.relabel, eventAddresses_relabel, memoryAddresses_relabel]

theorem run_relabel (d : Decision) (revisionId : Option String) (start : Runtime) :
    (d.relabel f).run revisionId (start.relabel f) =
      (d.run revisionId start).map (ProgramExecutionResult.relabel f) := by
  have hRun : statements (d.relabel f) (d.relabel f).program.statements (start.relabel f) =
      Runtime.relabel f <$> statements d d.program.statements start :=
    statements_relabel f d d.program.statements start
  unfold Decision.run
  rw [hRun]
  cases statements d d.program.statements start with
  | failure e => rfl
  | success r log =>
      show Except.ok ((d.relabel f).report revisionId (r.relabel f) (log ++ [])) = _
      rw [List.append_nil]
      rfl

/-- An execution of an accepted Program whose renaming is accepted too is the
renamed execution of the Program. -/
theorem executeIn_relabel (environment : Environment) (cutoffIndex : Option Int)
    (revisionId : Option String) (ck : Checkpoint) (hAccepted : Accepted program)
    (hRenamed : Accepted (program.relabel f)) :
    executeIn environment (program.relabel f) cutoffIndex revisionId ck =
      (executeIn environment program cutoffIndex revisionId ck).map
        (ProgramExecutionResult.relabel f) := by
  unfold Accepted at hAccepted hRenamed
  simp only [executeIn, hAccepted, hRenamed, ne_eq, not_true_eq_false, if_false]
  split_ifs with hRange
  · rw [checkCheckpoint_relabel]
    cases checkCheckpoint program (cutoffRow environment cutoffIndex).toNat ck with
    | error e => rfl
    | ok _ =>
        have hRow : (cutoffRow environment cutoffIndex).toNat < environment.dates.length := by
          omega
        exact run_relabel f (ck.decision program environment _ hRow) revisionId
          (ck.runtime program)
  · rfl

end Runs

end RuleTrade
