import Mathlib.Data.List.Basic

/-! Computations over a state that may fail and keep the state they reached, with
rules for what a run preserves, raises and returns. -/

namespace Library

/-- A computation that ends in an error or a value, and a state either way. -/
def Effect (σ ε α : Type) : Type := σ → Except ε α × σ

namespace Effect

variable {σ ε α β : Type}

def andThen (x : Effect σ ε α) (f : α → Effect σ ε β) : Effect σ ε β := fun state =>
  match x state with
  | (.error e, after) => (.error e, after)
  | (.ok a, after) => f a after

instance : Monad (Effect σ ε) where
  pure a := fun state => (.ok a, state)
  bind := andThen

def fail (e : ε) : Effect σ ε α := fun state => (.error e, state)

/-- Read from the state. -/
def read (f : σ → α) : Effect σ ε α := fun state => (.ok (f state), state)

def update (f : σ → σ) : Effect σ ε PUnit := fun state => (.ok ⟨⟩, f state)

/-- Collect the results for each element, from left to right. -/
def collect (f : α → Effect σ ε (List β)) : List α → Effect σ ε (List β)
  | [] => pure []
  | x :: xs => do
      let ys ← f x
      let rest ← collect f xs
      pure (ys ++ rest)

/-- From a state of the invariant a run stays in it, raises only such errors and returns
only such values. -/
def Ensures (I : σ → Prop) (E : ε → Prop) (x : Effect σ ε α) (Q : α → Prop) : Prop :=
  ∀ state, I state → I (x state).2 ∧ (∀ e, (x state).1 = .error e → E e) ∧
    ∀ a, (x state).1 = .ok a → Q a

namespace Ensures

variable {I : σ → Prop} {E : ε → Prop} {Q Q' : α → Prop} {R : β → Prop}

theorem ret {a : α} (h : Q a) : Ensures I E (Pure.pure a : Effect σ ε α) Q := by
  intro state hState
  refine ⟨hState, (fun e hFail => by cases hFail), ?_⟩
  intro b hReturn
  cases hReturn
  exact h

theorem fail {e : ε} (h : E e) : Ensures I E (Effect.fail e : Effect σ ε α) Q := by
  intro state hState
  refine ⟨hState, ?_, fun a hReturn => by cases hReturn⟩
  intro error hFail
  cases hFail
  exact h

theorem read {f : σ → α} (h : ∀ state, I state → Q (f state)) :
    Ensures I E (Effect.read f : Effect σ ε α) Q := by
  intro state hState
  refine ⟨hState, (fun e hFail => by cases hFail), ?_⟩
  intro a hReturn
  cases hReturn
  exact h state hState

theorem update {f : σ → σ} (h : ∀ state, I state → I (f state)) :
    Ensures I E (Effect.update f : Effect σ ε PUnit) (fun _ => True) := by
  intro state hState
  exact ⟨h state hState, (fun e hFail => by cases hFail), fun _ _ => trivial⟩

theorem bind {x : Effect σ ε α} {f : α → Effect σ ε β} (hFirst : Ensures I E x Q)
    (hThen : ∀ a, Q a → Ensures I E (f a) R) : Ensures I E (x >>= f) R := by
  intro state hState
  obtain ⟨hKept, hErrors, hValues⟩ := hFirst state hState
  change I (andThen x f state).2 ∧ (∀ e, (andThen x f state).1 = .error e → E e) ∧
    ∀ b, (andThen x f state).1 = .ok b → R b
  unfold andThen
  rcases hRun : x state with ⟨e | a, after⟩
  · rw [hRun] at hKept hErrors
    refine ⟨hKept, ?_, fun b hReturn => by cases hReturn⟩
    intro error hFail
    cases hFail
    exact hErrors e rfl
  · rw [hRun] at hKept hValues
    exact hThen a (hValues a rfl) after hKept

theorem weaken {x : Effect σ ε α} (h : Ensures I E x Q) (hValues : ∀ a, Q a → Q' a) :
    Ensures I E x Q' := by
  intro state hState
  obtain ⟨hKept, hErrors, hReturns⟩ := h state hState
  exact ⟨hKept, hErrors, fun a hReturn => hValues a (hReturns a hReturn)⟩

theorem collect {f : α → Effect σ ε (List β)} {xs : List α}
    (h : ∀ x ∈ xs, Ensures I E (f x) (fun _ => True)) :
    Ensures I E (Effect.collect f xs) (fun _ => True) := by
  induction xs with
  | nil => exact ret trivial
  | cons x xs ih =>
      exact (h x (by simp)).bind (fun _ _ =>
        (ih (fun y hy => h y (by simp [hy]))).bind (fun _ _ => ret trivial))

end Ensures

end Effect

end Library
