import Mathlib.Data.List.Basic

/-! Computations that fail or return a value together with a log. A failure
discards the log, as an exception discards the buffers of the frame it leaves. -/

namespace Library

/-- Outcome of a computation with failures `ε` and log entries `ω`. -/
inductive Logged (ε ω α : Type) where
  | failure (error : ε)
  | success (value : α) (log : List ω)
  deriving DecidableEq

namespace Logged

variable {ε ω α β γ : Type}

/-- Append one entry to the log. -/
def tell (entry : ω) : Logged ε ω Unit := .success () [entry]

def andThen (x : Logged ε ω α) (f : α → Logged ε ω β) : Logged ε ω β :=
  match x with
  | .failure e => .failure e
  | .success a log =>
      match f a with
      | .failure e => .failure e
      | .success b later => .success b (log ++ later)

instance : Monad (Logged ε ω) where
  pure a := .success a []
  bind := andThen

/-- Use a computation that keeps no log. -/
def lift : Except ε α → Logged ε ω α
  | .error e => .failure e
  | .ok a => .success a []

/-- Drop the log. -/
def result : Logged ε ω α → Except ε α
  | .failure e => .error e
  | .success a _ => .ok a

/-- Run one computation for each element, from left to right. -/
def forEach (f : α → Logged ε ω β) : List α → Logged ε ω (List β)
  | [] => pure []
  | x :: xs => do
      let y ← f x
      let ys ← forEach f xs
      pure (y :: ys)

theorem pure_def (a : α) : (pure a : Logged ε ω α) = .success a [] := rfl

@[simp] theorem failure_bind (e : ε) (f : α → Logged ε ω β) :
    (.failure e : Logged ε ω α) >>= f = .failure e := rfl

theorem success_bind (a : α) (log : List ω) (f : α → Logged ε ω β) :
    (.success a log : Logged ε ω α) >>= f =
      match f a with
      | .failure e => .failure e
      | .success b later => .success b (log ++ later) := rfl

@[simp] theorem pure_bind' (a : α) (f : α → Logged ε ω β) : (pure a : Logged ε ω α) >>= f = f a := by
  rw [pure_def, success_bind]
  cases f a <;> rfl

theorem id_map' (x : Logged ε ω α) : id <$> x = x := by
  cases x with
  | failure e => rfl
  | success a log => exact congrArg (Logged.success a) (List.append_nil log)

theorem bind_assoc' (x : Logged ε ω α) (f : α → Logged ε ω β) (g : β → Logged ε ω γ) :
    x >>= f >>= g = x >>= fun a => f a >>= g := by
  cases x with
  | failure e => rfl
  | success a log =>
      rw [success_bind, success_bind]
      cases hf : f a with
      | failure e => rfl
      | success b later =>
          simp only [success_bind]
          cases g b with
          | failure e => rfl
          | success c last => simp only [List.append_assoc]

instance : LawfulMonad (Logged ε ω) := LawfulMonad.mk' _ id_map' pure_bind' bind_assoc'

theorem bind_eq_success {x : Logged ε ω α} {f : α → Logged ε ω β} {b : β} {log : List ω} :
    x >>= f = .success b log ↔
      ∃ a first second, x = .success a first ∧ f a = .success b second ∧
        log = first ++ second := by
  cases x with
  | failure e => simp
  | success a first =>
      rw [success_bind]
      cases hf : f a with
      | failure e => simp [hf]
      | success b' second => simp [hf, eq_comm]

theorem bind_eq_failure {x : Logged ε ω α} {f : α → Logged ε ω β} {e : ε} :
    x >>= f = .failure e ↔
      x = .failure e ∨ ∃ a log, x = .success a log ∧ f a = .failure e := by
  cases x with
  | failure e' => simp
  | success a log =>
      rw [success_bind]
      cases hf : f a <;> simp [hf]

theorem result_eq_ok {x : Logged ε ω α} {a : α} :
    x.result = .ok a ↔ ∃ log, x = .success a log := by
  cases x <;> simp [result]

theorem result_eq_error {x : Logged ε ω α} {e : ε} : x.result = .error e ↔ x = .failure e := by
  cases x <;> simp [result]

theorem result_bind (x : Logged ε ω α) (f : α → Logged ε ω β) :
    (x >>= f).result = x.result >>= fun a => (f a).result := by
  cases x with
  | failure e => rfl
  | success a log =>
      rw [success_bind]
      change _ = (f a).result
      cases f a <;> rfl

/-- After a part that returns, the outcome is that of the rest. -/
theorem result_bind_of_ok {x : Logged ε ω α} {f : α → Logged ε ω β} {a : α} (h : x.result = .ok a) :
    (x >>= f).result = (f a).result := by
  rw [result_bind, h]
  rfl

/-- A sequence returns when both parts do. -/
theorem result_bind_eq_ok {x : Logged ε ω α} {f : α → Logged ε ω β} {b : β} :
    (x >>= f).result = .ok b ↔ ∃ a, x.result = .ok a ∧ (f a).result = .ok b := by
  rw [result_bind]
  cases x <;> simp [result, Bind.bind, Except.bind]

@[simp] theorem result_pure (a : α) : (pure a : Logged ε ω α).result = .ok a := rfl

@[simp] theorem result_failure (e : ε) : (.failure e : Logged ε ω α).result = .error e := rfl

@[simp] theorem result_lift (x : Except ε α) : (lift x : Logged ε ω α).result = x := by
  cases x <;> rfl

section Sequential

variable {W : Type}

/-- A property of computations in several worlds that survives sequencing. The
continuation only has to have it where all worlds return one value. -/
structure Sequential (P : ∀ {α : Type}, (W → Logged ε ω α) → Prop) : Prop where
  success : ∀ {α : Type} (a : α) (log : List ω), P (fun _ => .success a log)
  bind : ∀ {α β : Type} {x : W → Logged ε ω α} {f : W → α → Logged ε ω β},
    P x → (∀ a, P (fun w => f w a)) → P (fun w => x w >>= f w)

variable {P : ∀ {α : Type}, (W → Logged ε ω α) → Prop}

theorem Sequential.forEach (hP : Sequential P) {α β : Type} {f : W → α → Logged ε ω β}
    {xs : List α} (h : ∀ x ∈ xs, P (fun w => f w x)) : P (fun w => forEach (f w) xs) := by
  induction xs with
  | nil => exact hP.success [] []
  | cons x xs ih =>
      refine hP.bind (h x List.mem_cons_self) (fun y => ?_)
      refine hP.bind (ih (fun x' hx' => h x' (List.mem_cons_of_mem x hx'))) (fun ys => ?_)
      exact hP.success _ []

/-- One world that fails with no bad error. -/
def Avoids (bad : ε → Prop) {α : Type} (x : PUnit → Logged ε ω α) : Prop :=
  ∀ e, x () = .failure e → ¬bad e

theorem avoids_sequential (bad : ε → Prop) :
    Sequential (fun {α : Type} (x : PUnit → Logged ε ω α) => Avoids bad x) where
  success := by
    intro α a log e h
    cases h
  bind := by
    intro α β x f hx hf e h
    rcases bind_eq_failure.mp h with h | ⟨a, log, -, h⟩
    · exact hx e h
    · exact hf a e h

end Sequential

/-- A traversal of computations that all return. -/
theorem result_forEach {f : α → Logged ε ω β} {g : α → β} {xs : List α}
    (h : ∀ x ∈ xs, (f x).result = .ok (g x)) : (forEach f xs).result = .ok (xs.map g) := by
  induction xs with
  | nil => rfl
  | cons x xs ih =>
      have hRest := ih (fun y hy => h y (List.mem_cons_of_mem x hy))
      exact result_bind_eq_ok.mpr ⟨_, h x List.mem_cons_self,
        result_bind_eq_ok.mpr ⟨_, hRest, rfl⟩⟩

/-- A returning traversal returned for every element. -/
theorem forEach_eq_success {f : α → Logged ε ω β} {xs : List α} {ys : List β} {log : List ω}
    (h : forEach f xs = .success ys log) {x : α} (hx : x ∈ xs) : ∃ y log, f x = .success y log := by
  induction xs generalizing ys log with
  | nil => cases hx
  | cons first rest ih =>
      obtain ⟨y, firstLog, later, hFirst, hRest, -⟩ := bind_eq_success.mp h
      obtain ⟨ys', restLog, last, hRest, -, -⟩ := bind_eq_success.mp hRest
      rcases List.mem_cons.mp hx with rfl | hx
      · exact ⟨y, firstLog, hFirst⟩
      · exact ih hRest hx

end Logged

section Outcomes

variable {ε α β : Type}

section Bind

variable {x : Except ε α}

theorem except_ok_bind (a : α) (f : α → Except ε β) : (Except.ok a >>= f) = f a := rfl

theorem except_bind_ok {f : α → Except ε β} {b : β} :
    (x >>= f) = .ok b ↔ ∃ a, x = .ok a ∧ f a = .ok b := by
  cases x <;> simp [Bind.bind, Except.bind]

theorem exists_bind_ok_iff {f : α → β} :
    (∃ b, (x >>= fun a => (.ok (f a) : Except ε β)) = .ok b) ↔ ∃ a, x = .ok a := by
  cases x <;> simp [Bind.bind, Except.bind]

theorem except_bind_error {f : α → Except ε β} {e : ε} :
    (x >>= f) = .error e ↔ x = .error e ∨ ∃ a, x = .ok a ∧ f a = .error e := by
  cases x <;> simp [Bind.bind, Except.bind]

theorem except_map_ok {f : α → β} {b : β} :
    x.map f = .ok b ↔ ∃ a, x = .ok a ∧ f a = b := by
  cases x <;> simp [Except.map]

theorem except_mapError_ok {φ : Type} {f : ε → φ} {a : α} :
    x.mapError f = .ok a ↔ x = .ok a := by
  cases x <;> simp [Except.mapError]

/-- A computation that returns a value passing a test. -/
theorem exists_ok_of_any {test : α → Bool}
    (h : x.toOption.any test = true) : ∃ a, x = .ok a ∧ test a = true := by
  cases x with
  | error e => cases h
  | ok a => exact ⟨a, rfl, h⟩

end Bind

/-- What holds of the failure or of the value of a computation. -/
def Yields (P : ε → Prop) (Q : α → Prop) : Except ε α → Prop
  | .error e => P e
  | .ok a => Q a

variable {P : ε → Prop} {Q : β → Prop} {x : Except ε α}

theorem yields_bind {f : α → Except ε β} :
    Yields P Q (x >>= f) ↔ Yields P (fun a => Yields P Q (f a)) x := by
  cases x <;> rfl

theorem yields_mapError {φ : Type} {g : φ → ε} {R : α → Prop} {y : Except φ α} :
    Yields P R (y.mapError g) ↔ Yields (fun e => P (g e)) R y := by
  cases y <;> rfl

theorem yields_failure_iff : Yields P (fun _ => True) x ↔ ∀ e, x = .error e → P e := by
  cases x with
  | error e => exact ⟨fun h e' hSame => Except.error.inj hSame ▸ h, fun h => h e rfl⟩
  | ok a => exact ⟨fun _ e h => (by cases h), fun _ => trivial⟩

theorem Yields.mono {P' : ε → Prop} {Q R : α → Prop} (h : Yields P Q x)
    (hP : ∀ e, P e → P' e) (hQ : ∀ a, Q a → R a) : Yields P' R x := by
  cases x with
  | error e => exact hP e h
  | ok a => exact hQ a h

/-- A traversal fails only as one of its steps does. -/
theorem yields_mapM {f : α → Except ε β} {xs : List α}
    (h : ∀ a ∈ xs, Yields P (fun _ => True) (f a)) : Yields P (fun _ => True) (xs.mapM f) := by
  induction xs with
  | nil => trivial
  | cons a rest ih =>
      rw [List.mapM_cons]
      apply yields_bind.mpr
      refine (h a List.mem_cons_self).mono (fun _ he => he) (fun b _ => ?_)
      apply yields_bind.mpr
      refine (ih (fun a' ha => h a' (List.mem_cons_of_mem a ha))).mono (fun _ he => he) ?_
      intro bs _
      trivial

theorem yields_foldlM {f : β → α → Except ε β} {xs : List α}
    (h : ∀ b, ∀ a ∈ xs, Yields P (fun _ => True) (f b a)) (b : β) :
    Yields P (fun _ => True) (xs.foldlM f b) := by
  induction xs generalizing b with
  | nil => trivial
  | cons a rest ih =>
      rw [List.foldlM_cons]
      apply yields_bind.mpr
      refine (h b a List.mem_cons_self).mono (fun _ he => he) (fun b' _ => ?_)
      exact ih (fun b a' ha => h b a' (List.mem_cons_of_mem a ha)) b'

end Outcomes

end Library
