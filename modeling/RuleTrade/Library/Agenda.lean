import Mathlib.Data.List.Basic

/-! Execution of nested commands. Entering a command changes the state and
yields the commands of the body to run next, in front of those still waiting.
An interpreter that recurses into bodies agrees with this small-step reading,
so facts about whole runs need only look at one entered command. -/

namespace Library.Agenda

variable {ε σ τ : Type}

section Steps

variable (enter : σ → τ → Except ε (σ × List τ))

/-- `Steps s agenda trace t waiting`: from state `s` the commands recorded in
`trace` are entered in order, each with the state it found, and lead to `t`. -/
inductive Steps : σ → List τ → List (σ × τ) → σ → List τ → Prop where
  | refl (s : σ) (agenda : List τ) : Steps s agenda [] s agenda
  | step {s s' t : σ} {x : τ} {body rest waiting : List τ} {trace : List (σ × τ)}
      (first : enter s x = .ok (s', body)) (later : Steps s' (body ++ rest) trace t waiting) :
      Steps s (x :: rest) ((s, x) :: trace) t waiting

/-- Some run from `agenda` is about to enter `y` in state `t`. -/
def Reaches (s : σ) (agenda : List τ) (t : σ) (y : τ) : Prop :=
  ∃ trace rest, Steps enter s agenda trace t (y :: rest)

end Steps

variable {enter : σ → τ → Except ε (σ × List τ)}

theorem Steps.trans {s t u : σ} {first second third : List τ} {left right : List (σ × τ)}
    (hLeft : Steps enter s first left t second) (hRight : Steps enter t second right u third) :
    Steps enter s first (left ++ right) u third := by
  induction hLeft with
  | refl => exact hRight
  | step hEnter _ ih => exact .step hEnter (ih hRight)

/-- Commands waiting behind the agenda do not influence its run. -/
theorem Steps.frame {s t : σ} {agenda waiting : List τ} {trace : List (σ × τ)}
    (h : Steps enter s agenda trace t waiting) (behind : List τ) :
    Steps enter s (agenda ++ behind) trace t (waiting ++ behind) := by
  induction h with
  | refl => exact .refl _ _
  | step hEnter _ ih =>
      rw [List.append_assoc] at ih
      exact .step hEnter ih

/-- A property of configurations kept by every entered command holds along
the whole run. -/
theorem Steps.invariant (Inv : σ → List τ → Prop) {s t : σ} {agenda waiting : List τ}
    {trace : List (σ × τ)}
    (hStep : ∀ s x s' body rest, enter s x = .ok (s', body) → Inv s (x :: rest) →
      Inv s' (body ++ rest))
    (h : Steps enter s agenda trace t waiting) (hStart : Inv s agenda) : Inv t waiting := by
  induction h with
  | refl => exact hStart
  | step hEnter _ ih => exact ih (hStep _ _ _ _ _ hEnter hStart)

/-- Invariant rule for a property of states, relative to a property of commands
that bodies inherit. -/
theorem Steps.invariant_of_commands {Inv : σ → Prop} {Known : τ → Prop} {s t : σ}
    {agenda waiting : List τ} {trace : List (σ × τ)}
    (hBody : ∀ s x s' body, enter s x = .ok (s', body) → Known x → ∀ y ∈ body, Known y)
    (hStep : ∀ s x s' body, enter s x = .ok (s', body) → Known x → Inv s → Inv s')
    (h : Steps enter s agenda trace t waiting) (hKnown : ∀ y ∈ agenda, Known y) (hStart : Inv s) :
    Inv t ∧ ∀ y ∈ waiting, Known y := by
  refine h.invariant (fun s agenda => Inv s ∧ ∀ y ∈ agenda, Known y) ?_ ⟨hStart, hKnown⟩
  rintro s x s' body rest hEnter ⟨hInv, hAll⟩
  have hx := hAll x List.mem_cons_self
  refine ⟨hStep s x s' body hEnter hx hInv, fun y hy => ?_⟩
  rcases List.mem_append.mp hy with hy | hy
  · exact hBody s x s' body hEnter hx y hy
  · exact hAll y (List.mem_cons_of_mem x hy)

/-- Every recorded entry was about to be entered at some point of the run. -/
theorem Steps.reaches_of_mem {s t u : σ} {y : τ} {agenda waiting : List τ}
    {trace : List (σ × τ)} (h : Steps enter s agenda trace t waiting) (hMem : (u, y) ∈ trace) :
    Reaches enter s agenda u y := by
  induction h with
  | refl => cases hMem
  | step hEnter _ ih =>
      rcases List.mem_cons.mp hMem with hHead | hTail
      · cases hHead
        exact ⟨[], _, .refl _ _⟩
      · obtain ⟨trace, rest, hSteps⟩ := ih hTail
        exact ⟨_, rest, .step hEnter hSteps⟩

/-- A run up to an entry, and the run from that entry on. -/
theorem Steps.split {s t u : σ} {y : τ} {agenda waiting : List τ} {before after : List (σ × τ)}
    (h : Steps enter s agenda (before ++ (u, y) :: after) t waiting) :
    ∃ rest, Steps enter s agenda before u (y :: rest) ∧
      Steps enter u (y :: rest) ((u, y) :: after) t waiting := by
  induction before generalizing s agenda with
  | nil =>
      cases h with
      | step hEnter hLater => exact ⟨_, .refl _ _, .step hEnter hLater⟩
  | cons entry before ih =>
      cases h with
      | step hEnter hLater =>
          obtain ⟨rest, hBefore, hAfter⟩ := ih hLater
          exact ⟨rest, .step hEnter hBefore, hAfter⟩

/-- Entering is a function, so two complete runs coincide. -/
theorem Steps.unique {s t u : σ} {agenda : List τ} {left right : List (σ × τ)}
    (hLeft : Steps enter s agenda left t []) (hRight : Steps enter s agenda right u []) :
    left = right ∧ t = u := by
  generalize hDone : ([] : List τ) = done at hLeft
  induction hLeft generalizing right with
  | refl =>
      subst hDone
      cases hRight
      exact ⟨rfl, rfl⟩
  | step hEnter _ ih =>
      cases hRight with
      | step hEnter' hLater =>
          rw [hEnter] at hEnter'
          cases hEnter'
          obtain ⟨hTrace, hState⟩ := ih hLater hDone
          exact ⟨by rw [hTrace], hState⟩

/-- What an interpreter of command lists has to do to agree with `Steps`:
enter the first command, run its body, then run the rest. Bodies nest only
finitely deep, which is what the induction principle says. -/
structure Interprets (enter : σ → τ → Except ε (σ × List τ)) (run : List τ → σ → Except ε σ) :
    Prop where
  nil : ∀ s, run [] s = .ok s
  cons : ∀ x rest s, run (x :: rest) s = do
    let (s', body) ← enter s x
    let s'' ← run body s'
    run rest s''
  nested : ∀ P : List τ → Prop, P [] →
    (∀ x rest, (∀ s s' body, enter s x = .ok (s', body) → P body) → P rest → P (x :: rest)) →
      ∀ agenda, P agenda

namespace Interprets

variable {run : List τ → σ → Except ε σ} (hRun : Interprets enter run)
include hRun

theorem cons_of_enter {x : τ} {rest body : List τ} {s s' : σ} (h : enter s x = .ok (s', body)) :
    run (x :: rest) s = run body s' >>= run rest := by
  rw [hRun.cons, h]
  rfl

theorem append (first second : List τ) (s : σ) :
    run (first ++ second) s = run first s >>= run second := by
  induction first generalizing s with
  | nil => rw [hRun.nil, List.nil_append]; rfl
  | cons x rest ih =>
      rw [List.cons_append]
      rcases hEnter : enter s x with e | ⟨s', body⟩
      · rw [hRun.cons, hRun.cons, hEnter]
        rfl
      · rw [hRun.cons_of_enter hEnter, hRun.cons_of_enter hEnter, bind_assoc]
        congr 1
        funext s''
        exact ih s''

/-- Running the remaining agenda from any point of the run gives its outcome. -/
theorem eq_of_steps {s t : σ} {agenda waiting : List τ} {trace : List (σ × τ)}
    (h : Steps enter s agenda trace t waiting) : run agenda s = run waiting t := by
  induction h with
  | refl => rfl
  | step hEnter _ ih => rw [hRun.cons_of_enter hEnter, ← hRun.append, ih]

theorem ok_iff {s t : σ} {agenda : List τ} :
    run agenda s = .ok t ↔ ∃ trace, Steps enter s agenda trace t [] := by
  constructor
  · intro h
    revert s t
    refine hRun.nested (fun agenda => ∀ {s t}, run agenda s = .ok t →
      ∃ trace, Steps enter s agenda trace t []) ?_ ?_ agenda
    · intro s t h
      rw [hRun.nil] at h
      cases h
      exact ⟨[], .refl _ _⟩
    · intro x rest ihBody ihRest s t h
      rcases hEnter : enter s x with e | ⟨s', body⟩
      · rw [hRun.cons, hEnter] at h
        cases h
      · rw [hRun.cons_of_enter hEnter] at h
        rcases hMiddle : run body s' with e | middle
        · rw [hMiddle] at h
          cases h
        · rw [hMiddle] at h
          obtain ⟨first, hFirst⟩ := ihBody s s' body hEnter hMiddle
          obtain ⟨second, hSecond⟩ := ihRest h
          exact ⟨_, .step hEnter ((hFirst.frame rest).trans hSecond)⟩
  · rintro ⟨trace, h⟩
    rw [hRun.eq_of_steps h, hRun.nil]

/-- A run fails exactly when some reachable command fails on entry. -/
theorem error_iff {s : σ} {agenda : List τ} {e : ε} :
    run agenda s = .error e ↔ ∃ t y, Reaches enter s agenda t y ∧ enter t y = .error e := by
  constructor
  · intro h
    revert s
    refine hRun.nested (fun agenda => ∀ {s}, run agenda s = .error e →
      ∃ t y, Reaches enter s agenda t y ∧ enter t y = .error e) ?_ ?_ agenda
    · intro s h
      rw [hRun.nil] at h
      cases h
    · intro x rest ihBody ihRest s h
      rcases hEnter : enter s x with e' | ⟨s', body⟩
      · rw [hRun.cons, hEnter] at h
        cases h
        exact ⟨s, x, ⟨[], rest, .refl _ _⟩, hEnter⟩
      · rw [hRun.cons_of_enter hEnter] at h
        rcases hMiddle : run body s' with e' | middle
        · rw [hMiddle] at h
          cases h
          obtain ⟨t, y, ⟨trace, waiting, hSteps⟩, hFail⟩ := ihBody s s' body hEnter hMiddle
          exact ⟨t, y, ⟨_, _, .step hEnter (hSteps.frame rest)⟩, hFail⟩
        · rw [hMiddle] at h
          obtain ⟨trace, hFirst⟩ := hRun.ok_iff.mp hMiddle
          obtain ⟨t, y, ⟨later, waiting, hSteps⟩, hFail⟩ := ihRest h
          exact ⟨t, y, ⟨_, _, .step hEnter ((hFirst.frame rest).trans hSteps)⟩, hFail⟩
  · rintro ⟨t, y, ⟨trace, rest, hSteps⟩, hFail⟩
    rw [hRun.eq_of_steps hSteps, hRun.cons, hFail]
    rfl

end Interprets

end Library.Agenda
