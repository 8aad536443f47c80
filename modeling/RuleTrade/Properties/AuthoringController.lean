import Mathlib.Logic.Relation
import RuleTrade.Editor.StructuralAuthoring
import RuleTrade.Library.Sequence

/-! Which runs of the authoring controller serialise the edits: the canonical document is
the last replacement from elsewhere with the operations whose calls returned true, each
applied to what the one before it made. -/

namespace RuleTrade

namespace AuthoringRun

section Replay

variable {Ref Operation Strategy : Type} {service : AuthoringService Ref Operation Strategy}

/-- Apply operations one after the other. -/
def replay (service : AuthoringService Ref Operation Strategy) (start : Strategy)
    (operations : List Operation) : Option Strategy :=
  operations.foldlM service.applied start

theorem replay_append (start : Strategy) (operations : List Operation) (operation : Operation) :
    replay service start (operations ++ [operation]) =
      (replay service start operations).bind (fun strategy => service.applied strategy operation) := by
  unfold replay
  rw [List.foldlM_append]
  apply congrArg
  funext strategy
  simp

end Replay

section Serial

variable {Ref Operation Strategy : Type} [DecidableEq Ref] [DecidableEq Strategy]
variable {service : AuthoringService Ref Operation Strategy} {run next : AuthoringRun Ref Operation}

/-- The canonical document is that replacement with exactly those operations. -/
def Serial (service : AuthoringService Ref Operation Strategy) (run : AuthoringRun Ref Operation) :
    Prop :=
  replay service (service.content run.replaced) run.operations =
    some (service.content run.controller.canonical)

/-- A call is installed if it has an answer, is the last call made, and read the document
of the last render. -/
def Installs (run : AuthoringRun Ref Operation) (call : AuthoringCall Ref Operation)
    (result : Option Ref) : Prop :=
  result.isSome ∧ call.requestId = run.controller.requestSequence ∧
    run.controller.latest = call.source

theorem settle_of_installs {call : AuthoringCall Ref Operation} {strategy : Ref}
    (h : run.Installs call (some strategy)) :
    run.controller.settle call (some strategy) =
      (run.controller.dispatch (.replaceCanonicalDirty strategy), true) := by
  simp [AuthoringController.settle, h.2.1, h.2.2]

/-- A call that returns false leaves the store as it was. -/
theorem settle_of_not_installs {call : AuthoringCall Ref Operation} {result : Option Ref}
    (h : ¬ run.Installs call result) : run.controller.settle call result = (run.controller, false) := by
  cases result with
  | none => rfl
  | some strategy =>
      unfold AuthoringController.settle
      split_ifs with hLast hSource
      · rfl
      · rfl
      · exact absurd ⟨rfl, not_not.mp hLast, not_not.mp hSource⟩ h

theorem step_answer {index : Nat} {result : Option Ref}
    (h : run.step service (.answer index result) = some next) :
    ∃ call, run.controller.waiting[index]? = some call ∧ answers service call result = true ∧
      next = run.settle index call result := by
  obtain ⟨call, hCall, hNext⟩ := Option.bind_eq_some_iff.mp h
  split_ifs at hNext with hAnswers
  exact ⟨call, hCall, hAnswers, (Option.some.inj hNext).symm⟩

/-- An answer that is installed is installed on the document of the last render. -/
def Rendered (run : AuthoringRun Ref Operation) : AuthoringEvent Ref Operation → Prop
  | .answer index result => ∀ call, run.controller.waiting[index]? = some call →
      run.Installs call result → run.controller.canonical = run.controller.latest
  | _ => True

omit [DecidableEq Strategy] in
/-- After an answer is installed the run is serial exactly when the service makes the
same of the canonical document as of the one the call read. -/
theorem serial_settle_iff {index : Nat} {call : AuthoringCall Ref Operation} {strategy : Ref}
    (hSerial : run.Serial service) (hInstalls : run.Installs call (some strategy)) :
    (run.settle index call (some strategy)).Serial service ↔
      service.applied (service.content run.controller.canonical) call.operation =
        some (service.content strategy) := by
  unfold Serial settle
  rw [settle_of_installs hInstalls]
  simp only [if_true, replay_append, AuthoringController.dispatch, editorReducer]
  rw [show replay service (service.content run.replaced) run.operations =
    some (service.content run.controller.canonical) from hSerial]
  rfl

/-- One step of which an installed answer is rendered keeps the run serial. -/
theorem Serial.step (hSerial : run.Serial service) {event : AuthoringEvent Ref Operation}
    (hRendered : run.Rendered event) (hStep : run.step service event = some next) :
    next.Serial service := by
  cases event with
  | call operation =>
      rw [← Option.some.inj hStep]
      exact hSerial
  | render =>
      rw [← Option.some.inj hStep]
      exact hSerial
  | act action =>
      cases action with
      | other =>
          rw [← Option.some.inj hStep]
          exact hSerial
      | replaceCanonical canonical =>
          rw [← Option.some.inj hStep]
          rfl
      | replaceCanonicalDirty canonical =>
          rw [← Option.some.inj hStep]
          rfl
  | answer index result =>
      obtain ⟨call, hCall, hAnswers, rfl⟩ := step_answer hStep
      by_cases hInstalls : run.Installs call result
      · cases result with
        | none => exact absurd hInstalls.1 (by simp)
        | some strategy =>
            rw [serial_settle_iff hSerial hInstalls, hRendered call hCall hInstalls, hInstalls.2.2]
            simpa [answers] using hAnswers
      · have hSame : (run.settle index call result).Serial service ↔ run.Serial service := by
          unfold Serial settle
          rw [settle_of_not_installs hInstalls]
          rfl
        exact hSame.mpr hSerial

/-- Runs of which every step that meets a condition. -/
def Reaches (service : AuthoringService Ref Operation Strategy)
    (allowed : AuthoringRun Ref Operation → AuthoringEvent Ref Operation → Prop) :
    AuthoringRun Ref Operation → AuthoringRun Ref Operation → Prop :=
  Relation.ReflTransGen (fun run next =>
    ∃ event, allowed run event ∧ run.step service event = some next)

/-- Every run in which answers are installed only after the render that follows the last
replacement serialises the edits. -/
theorem rendered_run_serial {document : Ref}
    (hRun : Reaches service Rendered (opened document) run) : run.Serial service := by
  induction hRun with
  | refl => rfl
  | tail _ hStep ih =>
      obtain ⟨event, hRendered, hStep⟩ := hStep
      exact ih.step hRendered hStep

end Serial

section LostEdit

/-- Documents are the names of the operations that made them. -/
def namingService : AuthoringService (List String) String (List String) where
  content := id
  applied := fun strategy operation => some (strategy ++ [operation])

/-- The second call and its answer come before the render that follows the first answer. -/
def unrendered : List (AuthoringEvent (List String) String) :=
  [.call "first", .answer 0 (some ["first"]), .call "second", .answer 0 (some ["second"])]

/-- Both calls return true, and the second replaces the document without the first. -/
theorem unrendered_answer_loses_edit : ∃ run,
    unrendered.foldlM (step namingService) (opened []) = some run ∧
      run.operations = ["first", "second"] ∧ run.controller.canonical = ["second"] ∧
      ¬ run.Serial namingService := by
  refine ⟨_, rfl, rfl, rfl, ?_⟩
  unfold Serial
  decide

theorem rendered_call_serial : ∃ run,
    (step namingService (opened []) (.call "first")).bind
        (fun called => called.step namingService (.answer 0 (some ["first"]))) = some run ∧
      run.Serial namingService := by
  refine ⟨_, rfl, ?_⟩
  apply @rendered_run_serial (List String) String (List String) _ _ namingService _ []
  apply Relation.ReflTransGen.tail (Relation.ReflTransGen.single ⟨.call "first", trivial, rfl⟩)
  exact ⟨.answer 0 (some ["first"]), fun _ _ _ => rfl, rfl⟩

end LostEdit

end AuthoringRun

end RuleTrade
