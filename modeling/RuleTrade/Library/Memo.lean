import RuleTrade.Library.Dict
import RuleTrade.Library.Logged

/-! Fallible computations over a store of earlier answers. A failure keeps what
was stored before it. A store is sound when each answer it holds is the one a
fresh computation would give, and computations that keep stores sound compose. -/

namespace Library.Memo

variable {σ ε α β : Type}

/-- A computation that may fail, and leaves a store either way. -/
def Stored (σ ε α : Type) := σ → Except ε α × σ

namespace Stored

def andThen (x : Stored σ ε α) (f : α → Stored σ ε β) : Stored σ ε β := fun s =>
  match x s with
  | (.error e, s') => (.error e, s')
  | (.ok a, s') => f a s'

instance : Monad (Stored σ ε) where
  pure a := fun s => (.ok a, s)
  bind := andThen

/-- Use a computation that has no store. -/
def lift (x : Except ε α) : Stored σ ε α := fun s => (x, s)

def modify (f : σ → σ) : Stored σ ε PUnit := fun s => (.ok ⟨⟩, f s)

/-- Whatever sound store it starts from, the computation answers `x` and leaves
a sound store. -/
def Answers (Sound : σ → Prop) (x : Except ε α) (m : Stored σ ε α) : Prop :=
  ∀ s, Sound s → (m s).1 = x ∧ Sound (m s).2

variable {Sound : σ → Prop}

theorem answers_pure (a : α) : Answers Sound (.ok a) (pure a : Stored σ ε α) :=
  fun _ hSound => ⟨rfl, hSound⟩

theorem answers_lift (x : Except ε α) : Answers Sound x (lift x) :=
  fun _ hSound => ⟨rfl, hSound⟩

theorem answers_modify {f : σ → σ} (h : ∀ s, Sound s → Sound (f s)) :
    Answers Sound (.ok ⟨⟩ : Except ε PUnit) (modify f) :=
  fun s hSound => ⟨rfl, h s hSound⟩

/-- Sequencing answers in sequence. The continuation matters where the first
part returns. -/
theorem answers_bind {x : Except ε α} {f : α → Except ε β} {m : Stored σ ε α}
    {g : α → Stored σ ε β} (hm : Answers Sound x m)
    (hg : ∀ a, x = .ok a → Answers Sound (f a) (g a)) : Answers Sound (x >>= f) (m >>= g) := by
  intro s hSound
  obtain ⟨hAnswer, hLeft⟩ := hm s hSound
  show (andThen m g s).1 = _ ∧ Sound (andThen m g s).2
  unfold andThen
  rcases hRun : m s with ⟨answer, s'⟩
  rw [hRun] at hAnswer hLeft
  subst hAnswer
  cases answer with
  | error e => exact ⟨rfl, hLeft⟩
  | ok a => exact hg a rfl s' hLeft

end Stored

/-- Answers of a list of requests, each to the store the ones before it left. -/
def serve {ι : Type} (request : ι → Stored σ ε α) : List ι → σ → List (Except ε α)
  | [], _ => []
  | i :: rest, s => (request i s).1 :: serve request rest (request i s).2

/-- Requests that keep the store sound answer as they would on their own. -/
theorem serve_eq {ι : Type} {Sound : σ → Prop} {request : ι → Stored σ ε α}
    {answer : ι → Except ε α} (h : ∀ i, Stored.Answers Sound (answer i) (request i))
    (requests : List ι) {s : σ} (hSound : Sound s) :
    serve request requests s = requests.map answer := by
  induction requests generalizing s with
  | nil => rfl
  | cons i rest ih =>
      obtain ⟨hAnswer, hLeft⟩ := h i s hSound
      simp only [serve, List.map_cons, hAnswer, ih hLeft]

end Library.Memo
