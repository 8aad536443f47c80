import Mathlib.Data.List.Basic
import Mathlib.Logic.Function.Basic
import Mathlib.Logic.Relation

/-! Requests that share a store. A request runs transactions, each of them
atomic and given up as a whole when it fails, and between two of them those of
other requests run in any order. -/

namespace Library

/-- Body of a transaction: statements on a working copy of the store. It ends
by keeping the copy, by giving it up with an answer, or by failing. -/
inductive Script (σ ε ρ α : Type) where
  | done (value : α)
  | rollback (answer : ρ)
  | fail (error : ε)
  | statement (write : σ → Except ε σ) (next : σ → Script σ ε ρ α)

namespace Script

variable {σ ε ρ α β : Type}

def bind : Script σ ε ρ α → (α → Script σ ε ρ β) → Script σ ε ρ β
  | .done value, f => f value
  | .rollback answer, _ => .rollback answer
  | .fail error, _ => .fail error
  | .statement write next, f => .statement write (fun s => (next s).bind f)

instance : Monad (Script σ ε ρ) where
  pure := .done
  bind := bind

/-- Read the working copy. -/
def query (read : σ → α) : Script σ ε ρ α := .statement .ok (fun s => .done (read s))

/-- Change the working copy, unless that is refused. -/
def execute (refused : ε) (write : σ → Option σ) : Script σ ε ρ Unit :=
  .statement (fun s => (write s).elim (.error refused) .ok) (fun _ => .done ())

/-- Run a body against a store. `budget` counts the statements before storage
fails. -/
def run (fault : ε) : Script σ ε ρ ρ → Option Nat → σ → σ → Except ε ρ × σ
  | .done answer, _, _, copy => (.ok answer, copy)
  | .rollback answer, _, store, _ => (.ok answer, store)
  | .fail error, _, store, _ => (.error error, store)
  | .statement write next, budget, store, copy =>
      if budget = some 0 then (.error fault, store)
      else
        match write copy with
        | .error error => (.error error, store)
        | .ok copy => (next copy).run fault (budget.map Nat.pred) store copy

/-- Outcome of a body as one atomic transaction. -/
def transact (fault : ε) (script : Script σ ε ρ ρ) (budget : Option Nat) (store : σ) :
    Except ε ρ × σ :=
  script.run fault budget store store

@[simp] theorem pure_eq (value : α) : (pure value : Script σ ε ρ α) = .done value := rfl

@[simp] theorem bind_done (value : α) (f : α → Script σ ε ρ β) :
    (Script.done value >>= f) = f value := rfl

@[simp] theorem bind_statement (write : σ → Except ε σ) (next : σ → Script σ ε ρ α)
    (f : α → Script σ ε ρ β) :
    (Script.statement write next >>= f) = .statement write (fun s => next s >>= f) := rfl

@[simp] theorem bind_query (read : σ → α) (f : α → Script σ ε ρ β) :
    (query read >>= f) = .statement .ok (fun s => f (read s)) := rfl

@[simp] theorem bind_execute (refused : ε) (write : σ → Option σ) (f : Unit → Script σ ε ρ β) :
    (execute refused write >>= f) =
      .statement (fun s => (write s).elim (.error refused) .ok) (fun _ => f ()) := rfl

variable {fault : ε} {store copy : σ}

@[simp] theorem run_done (answer : ρ) (budget : Option Nat) :
    (Script.done answer).run fault budget store copy = (.ok answer, copy) := rfl

@[simp] theorem run_rollback (answer : ρ) (budget : Option Nat) :
    (Script.rollback answer).run fault budget store copy = (.ok answer, store) := rfl

theorem run_read (next : σ → Script σ ε ρ ρ) :
    (Script.statement .ok next).run fault none store copy = (next copy).run fault none store copy :=
  rfl

theorem run_write (refused : ε) (write : σ → Option σ) (next : σ → Script σ ε ρ ρ) :
    (Script.statement (fun s => (write s).elim (.error refused) .ok) next).run fault none store copy =
      (write copy).elim (.error refused, store) (fun copy => (next copy).run fault none store copy) := by
  cases h : write copy with
  | none => simp [run, h]
  | some changed => simp [run, h]

/-- A body that fails leaves the store as it was. -/
theorem run_error {script : Script σ ε ρ ρ} {budget : Option Nat} {error : ε}
    (h : (script.run fault budget store copy).1 = .error error) :
    (script.run fault budget store copy).2 = store := by
  induction script generalizing budget copy with
  | done answer => cases h
  | rollback answer => rfl
  | fail error => rfl
  | statement write next ih =>
      unfold run at h ⊢
      by_cases hSpent : budget = some 0
      · rw [if_pos hSpent]
      · rw [if_neg hSpent] at h ⊢
        cases hWrite : write copy with
        | error error => rfl
        | ok changed =>
            rw [hWrite] at h
            exact ih changed h

variable (fault) in
/-- A failure of storage gives the transaction up, or comes too late to be noticed. -/
theorem run_budget (script : Script σ ε ρ ρ) (budget : Option Nat) (store copy : σ) :
    script.run fault budget store copy = (.error fault, store) ∨
      script.run fault budget store copy = script.run fault none store copy := by
  induction script generalizing budget copy with
  | done answer => exact .inr rfl
  | rollback answer => exact .inr rfl
  | fail error => exact .inr rfl
  | statement write next ih =>
      by_cases hSpent : budget = some 0
      · exact .inl (by rw [run, if_pos hSpent])
      · rw [run, if_neg hSpent, run, if_neg (Option.some_ne_none 0).symm]
        cases write copy with
        | error error => exact .inr rfl
        | ok changed => exact ih changed (budget.map Nat.pred) changed

variable (fault) in
theorem transact_budget (script : Script σ ε ρ ρ) (budget : Option Nat) (store : σ) :
    script.transact fault budget store = (.error fault, store) ∨
      script.transact fault budget store = script.transact fault none store :=
  run_budget fault script budget store store

end Script

/-- What a request has yet to do: give its answer, or run a transaction and go on. The
environment chooses `ω` anew for each transaction. -/
inductive Task (σ ω α : Type) where
  | done (answer : α)
  | step (run : ω → σ → σ) (next : ω → σ → Task σ ω α)

namespace Task

variable {σ ω α β : Type}

def bind : Task σ ω α → (α → Task σ ω β) → Task σ ω β
  | .done answer, f => f answer
  | .step run next, f => .step run (fun w s => (next w s).bind f)

instance : Monad (Task σ ω) where
  pure := .done
  bind := bind

/-- One transaction whose answer is not yet looked at. -/
def atomically (transaction : ω → σ → α × σ) : Task σ ω α :=
  .step (fun w s => (transaction w s).2) (fun w s => .done (transaction w s).1)

/-- `Runs task seen rest`: transactions that found and left the stores `seen` take
the task to `rest`. -/
inductive Runs : Task σ ω α → List (σ × σ) → Task σ ω α → Prop where
  | refl (task : Task σ ω α) : Runs task [] task
  | step {run : ω → σ → σ} {next : ω → σ → Task σ ω α} {seen : List (σ × σ)} {rest : Task σ ω α}
      (w : ω) (s : σ) (later : Runs (next w s) seen rest) :
      Runs (.step run next) ((s, run w s) :: seen) rest

theorem Runs.snoc {task : Task σ ω α} {run : ω → σ → σ} {next : ω → σ → Task σ ω α}
    {seen : List (σ × σ)} (h : Runs task seen (.step run next)) (w : ω) (s : σ) :
    Runs task (seen ++ [(s, run w s)]) (next w s) := by
  generalize hRest : Task.step run next = rest at h
  induction h with
  | refl =>
      subst hRest
      exact .step w s (.refl _)
  | step w' s' _ ih => exact .step w' s' (ih hRest)

theorem runs_done {answer other : α} {seen : List (σ × σ)}
    (h : Runs (.done answer : Task σ ω α) seen (.done other)) : seen = [] ∧ answer = other := by
  cases h
  exact ⟨rfl, rfl⟩

/-- A sequence runs its parts one after the other. -/
theorem runs_bind {task : Task σ ω α} {f : α → Task σ ω β} {seen : List (σ × σ)} {b : β}
    (h : Runs (task >>= f) seen (.done b)) :
    ∃ a first later, seen = first ++ later ∧ Runs task first (.done a) ∧
      Runs (f a) later (.done b) := by
  induction task generalizing seen with
  | done a => exact ⟨a, [], seen, rfl, .refl _, h⟩
  | step run next ih =>
      generalize hLast : Task.done b = last at h
      cases h with
      | refl => cases hLast
      | step w s later =>
          subst hLast
          obtain ⟨a, first, rest, rfl, hFirst, hRest⟩ := ih w s later
          exact ⟨a, _, rest, rfl, .step w s hFirst, hRest⟩

theorem runs_atomically {transaction : ω → σ → α × σ} {seen : List (σ × σ)} {a : α}
    (h : Runs (atomically transaction) seen (.done a)) :
    ∃ w s, seen = [(s, (transaction w s).2)] ∧ a = (transaction w s).1 := by
  cases h with
  | step w s later =>
      obtain ⟨rfl, rfl⟩ := runs_done later
      exact ⟨w, s, rfl, rfl⟩

/-- Run a task alone, with a given environment. -/
def serve : Task σ ω α → List ω → σ → Option (α × List (σ × σ) × σ)
  | .done answer, [], s => some (answer, [], s)
  | .done _, _ :: _, _ => none
  | .step _ _, [], _ => none
  | .step run next, w :: later, s =>
      ((next w s).serve later (run w s)).map (fun (answer, seen, t) =>
        (answer, (s, run w s) :: seen, t))

section Safety

variable (Inv : σ → Prop) (Guarantee : σ → σ → Prop)

/-- Stores that transactions can lead to. -/
def Rely : σ → σ → Prop := Relation.ReflTransGen Guarantee

/-- Every transaction of the task is guaranteed, whatever others did since the
store `past` that it saw last; the answer fits the last store. -/
def Safe (Post : α → σ → Prop) : Task σ ω α → σ → Prop
  | .done answer, past => Post answer past
  | .step run next, past => ∀ w s, Rely Guarantee past s → Inv s →
      Guarantee s (run w s) ∧ (next w s).Safe Post (run w s)

variable {Inv} {Guarantee}

theorem safe_bind {First : α → σ → Prop} {Post : β → σ → Prop} {task : Task σ ω α}
    {f : α → Task σ ω β} {past : σ} (hTask : task.Safe Inv Guarantee First past)
    (hNext : ∀ a s, First a s → (f a).Safe Inv Guarantee Post s) :
    (task >>= f).Safe Inv Guarantee Post past := by
  induction task generalizing past with
  | done a => exact hNext a past hTask
  | step run next ih =>
      intro w s hRely hInv
      obtain ⟨hRan, hLater⟩ := hTask w s hRely hInv
      exact ⟨hRan, ih w s hLater⟩

/-- What every guaranteed transaction keeps is kept. -/
theorem Rely.keeps {Fact : σ → Prop} (hFact : ∀ s t, Guarantee s t → Fact s → Fact t) {s t : σ}
    (h : Rely Guarantee s t) (hStart : Fact s) : Fact t := by
  induction h with
  | refl => exact hStart
  | tail _ hLast ih => exact hFact _ _ hLast ih

/-- Facts that every transaction keeps still hold when a task answers. -/
theorem Safe.frame {Post : α → σ → Prop} {Fact : σ → Prop} {task : Task σ ω α} {past : σ}
    (hFact : ∀ s t, Guarantee s t → Fact s → Fact t) (h : task.Safe Inv Guarantee Post past)
    (hPast : Fact past) : task.Safe Inv Guarantee (fun a s => Post a s ∧ Fact s) past := by
  induction task generalizing past with
  | done a => exact ⟨h, hPast⟩
  | step run next ih =>
      intro w s hRely hInv
      obtain ⟨hRan, hLater⟩ := h w s hRely hInv
      exact ⟨hRan, ih w s hLater (hFact _ _ hRan (hRely.keeps hFact hPast))⟩

theorem Safe.mono {Post Weaker : α → σ → Prop} {task : Task σ ω α} {past : σ}
    (hPost : ∀ a s, Post a s → Weaker a s) (h : task.Safe Inv Guarantee Post past) :
    task.Safe Inv Guarantee Weaker past := by
  induction task generalizing past with
  | done a => exact hPost a past h
  | step run next ih =>
      intro w s hRely hInv
      obtain ⟨hRan, hLater⟩ := h w s hRely hInv
      exact ⟨hRan, ih w s hLater⟩

end Safety

end Task

/-- A request in progress, with the stores its transactions found and left. -/
structure Client {σ ω α κ : Type} (start : κ → Task σ ω α) where
  request : κ
  seen : List (σ × σ)
  remaining : Task σ ω α
  ran : Task.Runs (start request) seen remaining

/-- A store, and the requests in progress. -/
structure Concurrent {σ ω α κ : Type} (ι : Type) (start : κ → Task σ ω α) where
  store : σ
  clients : ι → Option (Client start)

namespace Concurrent

variable {σ ω α κ ι : Type}

/-- What happens in a run. -/
inductive Event (σ α κ ι : Type) where
  | received (client : ι) (request : κ)
  | ran (client : ι) (before after : σ)
  | answered (client : ι) (request : κ) (seen : List (σ × σ)) (answer : α)

section Steps

variable [DecidableEq ι] {start : κ → Task σ ω α}

/-- Some client makes the next move. -/
inductive Step : Concurrent ι start → Event σ α κ ι → Concurrent ι start → Prop where
  | received {system : Concurrent ι start} {i : ι} (request : κ) (idle : system.clients i = none) :
      Step system (.received i request)
        ⟨system.store, Function.update system.clients i
          (some ⟨request, [], start request, .refl _⟩)⟩
  | ran {system : Concurrent ι start} {i : ι} {request : κ} {seen : List (σ × σ)} {run : ω → σ → σ}
      {next : ω → σ → Task σ ω α} {h : Task.Runs (start request) seen (.step run next)}
      (waiting : system.clients i = some ⟨request, seen, .step run next, h⟩) (w : ω) :
      Step system (.ran i system.store (run w system.store))
        ⟨run w system.store, Function.update system.clients i (some ⟨request,
          seen ++ [(system.store, run w system.store)], next w system.store,
          h.snoc w system.store⟩)⟩
  | answered {system : Concurrent ι start} {i : ι} {request : κ} {seen : List (σ × σ)} {answer : α}
      {h : Task.Runs (start request) seen (.done answer)}
      (waiting : system.clients i = some ⟨request, seen, .done answer, h⟩) :
      Step system (.answered i request seen answer)
        ⟨system.store, Function.update system.clients i none⟩

/-- Any interleaving of moves, with what happened in order. -/
inductive Steps (first : Concurrent ι start) : List (Event σ α κ ι) → Concurrent ι start → Prop where
  | refl : Steps first [] first
  | step {events : List (Event σ α κ ι)} {e : Event σ α κ ι} {system last : Concurrent ι start}
      (earlier : Steps first events system) (move : Step system e last) :
      Steps first (events ++ [e]) last

theorem Steps.trans {first middle last : Concurrent ι start} {events later : List (Event σ α κ ι)}
    (hFirst : Steps first events middle) (hLater : Steps middle later last) :
    Steps first (events ++ later) last := by
  induction hLater with
  | refl => rwa [List.append_nil]
  | step _ hMove ih =>
      rw [← List.append_assoc]
      exact .step ih hMove

/-- A client that runs its task alone. -/
theorem Steps.finish {i : ι} {request : κ} {task : Task σ ω α} {before : List (σ × σ)}
    {system : Concurrent ι start} {h : Task.Runs (start request) before task}
    (waiting : system.clients i = some ⟨request, before, task, h⟩) {ws : List ω} {answer : α}
    {seen : List (σ × σ)} {store : σ} (hServe : task.serve ws system.store = some (answer, seen, store)) :
    ∃ events, Steps system events ⟨store, Function.update system.clients i none⟩ ∧
      Event.answered i request (before ++ seen) answer ∈ events := by
  induction ws generalizing task before system seen with
  | nil =>
      cases task with
      | done a =>
          cases hServe
          rw [List.append_nil]
          exact ⟨_, .step .refl (.answered waiting), List.mem_singleton_self _⟩
      | step run next => cases hServe
  | cons w ws ih =>
      cases task with
      | done a => cases hServe
      | step run next =>
          rw [Task.serve, Option.map_eq_some_iff] at hServe
          obtain ⟨⟨later, rest, t⟩, hLater, hSame⟩ := hServe
          cases hSame
          have hMove := Step.ran waiting w
          have hNext : (⟨run w system.store, Function.update system.clients i (some ⟨request,
              before ++ [(system.store, run w system.store)], next w system.store,
              h.snoc w system.store⟩)⟩ : Concurrent ι start).clients i = some _ :=
            Function.update_self i _ _
          obtain ⟨events, hSteps, hMem⟩ := ih hNext hLater
          rw [Function.update_idem] at hSteps
          rw [List.append_assoc] at hMem
          exact ⟨_, (Steps.step .refl hMove).trans hSteps, List.mem_append_right _ hMem⟩

theorem Steps.serve {i : ι} {system : Concurrent ι start} (idle : system.clients i = none)
    {request : κ} {ws : List ω} {answer : α} {seen : List (σ × σ)} {store : σ}
    (hServe : (start request).serve ws system.store = some (answer, seen, store)) :
    ∃ events, Steps system events ⟨store, system.clients⟩ ∧
      Event.answered i request seen answer ∈ events := by
  have hReceived : (⟨system.store, Function.update system.clients i
      (some ⟨request, [], start request, .refl _⟩)⟩ : Concurrent ι start).clients i = some _ :=
    Function.update_self i _ _
  obtain ⟨events, hSteps, hMem⟩ := Steps.finish hReceived hServe
  rw [Function.update_idem, ← idle, Function.update_eq_self] at hSteps
  exact ⟨_, (Steps.step .refl (.received request idle)).trans hSteps, List.mem_append_right _ hMem⟩

/-- Serve requests one after the other, each alone. -/
def serveAll (start : κ → Task σ ω α) : List (κ × List ω) → σ → Option (List (κ × List (σ × σ) × α) × σ)
  | [], s => some ([], s)
  | (request, ws) :: later, s =>
      ((start request).serve ws s).bind (fun (answer, seen, t) =>
        (serveAll start later t).map (fun (answers, u) => ((request, seen, answer) :: answers, u)))

theorem Steps.serveAll {i : ι} {system : Concurrent ι start} (idle : system.clients i = none)
    {requests : List (κ × List ω)} {answers : List (κ × List (σ × σ) × α)} {store : σ}
    (hServe : serveAll start requests system.store = some (answers, store)) :
    ∃ events, Steps system events ⟨store, system.clients⟩ ∧
      ∀ x ∈ answers, Event.answered i x.1 x.2.1 x.2.2 ∈ events := by
  induction requests generalizing system answers with
  | nil =>
      cases hServe
      exact ⟨[], .refl, fun x hx => absurd hx List.not_mem_nil⟩
  | cons first later ih =>
      obtain ⟨⟨answer, seen, t⟩, hFirst, hServe⟩ := Option.bind_eq_some_iff.mp hServe
      obtain ⟨⟨rest, u⟩, hLater, hSame⟩ := Option.map_eq_some_iff.mp hServe
      cases hSame
      obtain ⟨events, hSteps, hMem⟩ := Steps.serve idle hFirst
      have hIdle : (⟨t, system.clients⟩ : Concurrent ι start).clients i = none := idle
      obtain ⟨others, hOthers, hRest⟩ := ih hIdle hLater
      refine ⟨events ++ others, hSteps.trans hOthers, fun x hx => ?_⟩
      rcases List.mem_cons.mp hx with rfl | hx
      · exact List.mem_append_left _ hMem
      · exact List.mem_append_right _ (hRest x hx)

end Steps

section Invariant

variable {start : κ → Task σ ω α} {Inv : σ → Prop} {Guarantee : σ → σ → Prop}

/-- Transactions on a store that came to `store`, in order. -/
structure Coherent (Inv : σ → Prop) (Guarantee : σ → σ → Prop) (seen : List (σ × σ)) (store : σ) :
    Prop where
  each : ∀ x ∈ seen, Inv x.1 ∧ Guarantee x.1 x.2 ∧ Task.Rely Guarantee x.2 store
  ordered : seen.Pairwise (fun x y => Task.Rely Guarantee x.2 y.1)

theorem Coherent.nil (store : σ) : Coherent Inv Guarantee [] store where
  each := fun _ h => by cases h
  ordered := .nil

theorem Coherent.extend {seen : List (σ × σ)} {store later : σ} (h : Coherent Inv Guarantee seen store)
    (hLater : Guarantee store later) : Coherent Inv Guarantee seen later where
  each := fun x hx => ⟨(h.each x hx).1, (h.each x hx).2.1, (h.each x hx).2.2.tail hLater⟩
  ordered := h.ordered

theorem Coherent.snoc {seen : List (σ × σ)} {store later : σ} (h : Coherent Inv Guarantee seen store)
    (hInv : Inv store) (hLater : Guarantee store later) :
    Coherent Inv Guarantee (seen ++ [(store, later)]) later where
  each := by
    intro x hx
    rcases List.mem_append.mp hx with hx | hx
    · exact (h.extend hLater).each x hx
    · rw [List.mem_singleton.mp hx]
      exact ⟨hInv, hLater, .refl⟩
  ordered := by
    refine List.pairwise_append.mpr ⟨h.ordered, List.pairwise_singleton _ _, fun x hx y hy => ?_⟩
    rw [List.mem_singleton.mp hy]
    exact (h.each x hx).2.2

/-- Transactions of a run, in order. -/
def transactions (events : List (Event σ α κ ι)) : List (σ × σ) :=
  events.filterMap (fun
    | .ran _ before after => some (before, after)
    | _ => none)

/-- Where a client stands: its transactions ran on stores of the run, and what is
left of it is safe since the store it saw last. -/
def Stands (Inv : σ → Prop) (Guarantee : σ → σ → Prop) (Post : α → σ → Prop)
    (seen : List (σ × σ)) (remaining : Task σ ω α) (store : σ) : Prop :=
  Coherent Inv Guarantee seen store ∧ ∃ past, (∀ x ∈ seen, Task.Rely Guarantee x.2 past) ∧
    Task.Rely Guarantee past store ∧ remaining.Safe Inv Guarantee Post past

/-- What holds all along a run. -/
structure Sound (start : κ → Task σ ω α) (Inv : σ → Prop) (Guarantee : σ → σ → Prop)
    (Post : κ → α → σ → Prop) (events : List (Event σ α κ ι)) (system : Concurrent ι start) :
    Prop where
  store : Inv system.store
  clients : ∀ i client, system.clients i = some client → client.seen ⊆ transactions events ∧
    Stands Inv Guarantee (Post client.request) client.seen client.remaining system.store
  history : Coherent Inv Guarantee (transactions events) system.store
  answers : ∀ i request seen answer, Event.answered i request seen answer ∈ events →
    Task.Runs (start request) seen (.done answer) ∧ seen ⊆ transactions events ∧
      Stands Inv Guarantee (Post request) seen (.done answer : Task σ ω α) system.store

theorem Stands.extend {Post : α → σ → Prop} {seen : List (σ × σ)} {remaining : Task σ ω α}
    {store later : σ} (h : Stands Inv Guarantee Post seen remaining store)
    (hLater : Guarantee store later) : Stands Inv Guarantee Post seen remaining later := by
  obtain ⟨hSeen, past, hPast, hStore, hSafe⟩ := h
  exact ⟨hSeen.extend hLater, past, hPast, hStore.tail hLater, hSafe⟩

variable [DecidableEq ι] {Post : κ → α → σ → Prop}

/-- A client after a move is the one that moved, or one that waited. -/
theorem client_of_update {clients : ι → Option (Client start)} {i j : ι}
    {value : Option (Client start)} {client : Client start}
    (h : Function.update clients i value j = some client) :
    value = some client ∨ clients j = some client := by
  by_cases hSame : j = i
  · subst hSame
    rw [Function.update_self] at h
    exact .inl h
  · rw [Function.update_of_ne hSame] at h
    exact .inr h

theorem Sound.step {events : List (Event σ α κ ι)} {e : Event σ α κ ι}
    {system last : Concurrent ι start}
    (hInv : ∀ s t, Guarantee s t → Inv s → Inv t)
    (hStart : ∀ request s, Inv s → (start request).Safe Inv Guarantee (Post request) s)
    (h : Sound start Inv Guarantee Post events system) (hMove : Step system e last) :
    Sound start Inv Guarantee Post (events ++ [e]) last := by
  have hGrows : transactions events ⊆ transactions (events ++ [e]) := by
    intro x hx
    rw [transactions, List.filterMap_append]
    exact List.mem_append_left _ hx
  have hSame : transactions [e] = [] → transactions (events ++ [e]) = transactions events := by
    intro hNone
    rw [transactions, List.filterMap_append]
    exact (congrArg _ hNone).trans (List.append_nil _)
  have hEarlier : ∀ {i request seen answer}, Event.answered i request seen answer ∈ events →
      Task.Runs (start request) seen (.done answer) ∧ seen ⊆ transactions (events ++ [e]) ∧
        Stands Inv Guarantee (Post request) seen (.done answer : Task σ ω α) system.store := by
    intro i request seen answer hMem
    obtain ⟨hAnswered, hSeen, hStands⟩ := h.answers i request seen answer hMem
    exact ⟨hAnswered, List.Subset.trans hSeen hGrows, hStands⟩
  cases hMove with
  | @received i request idle =>
      refine ⟨h.store, fun j client hClient => ?_, ?_, fun j request seen answer hMem => ?_⟩
      · rcases client_of_update hClient with hMoved | hWaited
        · cases hMoved
          exact ⟨List.nil_subset _, .nil _, system.store, fun _ hNone => absurd hNone List.not_mem_nil,
            .refl, hStart request _ h.store⟩
        · obtain ⟨hSeen, hStands⟩ := h.clients j client hWaited
          exact ⟨List.Subset.trans hSeen hGrows, hStands⟩
      · rw [hSame rfl]
        exact h.history
      · rcases List.mem_append.mp hMem with hMem | hMem
        · exact hEarlier hMem
        · cases List.mem_singleton.mp hMem
  | @ran i request seen run next hRuns waiting w =>
      obtain ⟨hKnown, hSeen, past, -, hPast, hSafe⟩ := h.clients i _ waiting
      obtain ⟨hGuarantee, hLater⟩ := hSafe w system.store hPast h.store
      refine ⟨hInv _ _ hGuarantee h.store, fun j client hClient => ?_, ?_,
        fun j request seen answer hMem => ?_⟩
      · rcases client_of_update hClient with hMoved | hWaited
        · cases hMoved
          have hNow := hSeen.snoc h.store hGuarantee
          refine ⟨fun x hx => ?_, hNow, _, fun x hx => (hNow.each x hx).2.2, .refl, hLater⟩
          rcases List.mem_append.mp hx with hx | hx
          · exact hGrows (hKnown hx)
          · rw [transactions, List.filterMap_append]
            exact List.mem_append_right _ hx
        · obtain ⟨hSeen, hStands⟩ := h.clients j client hWaited
          exact ⟨List.Subset.trans hSeen hGrows, hStands.extend hGuarantee⟩
      · rw [transactions, List.filterMap_append]
        exact h.history.snoc h.store hGuarantee
      · rcases List.mem_append.mp hMem with hMem | hMem
        · obtain ⟨hAnswered, hSeen, hStands⟩ := hEarlier hMem
          exact ⟨hAnswered, hSeen, hStands.extend hGuarantee⟩
        · cases List.mem_singleton.mp hMem
  | @answered i request seen answer hRuns waiting =>
      refine ⟨h.store, fun j client hClient => ?_, ?_, fun j request' seen' answer' hMem => ?_⟩
      · rcases client_of_update hClient with hMoved | hWaited
        · cases hMoved
        · obtain ⟨hSeen, hStands⟩ := h.clients j client hWaited
          exact ⟨List.Subset.trans hSeen hGrows, hStands⟩
      · rw [hSame rfl]
        exact h.history
      · rcases List.mem_append.mp hMem with hMem | hMem
        · exact hEarlier hMem
        · cases List.mem_singleton.mp hMem
          obtain ⟨hSeen, hStands⟩ := h.clients i _ waiting
          exact ⟨hRuns, List.Subset.trans hSeen hGrows, hStands⟩

/-- Any interleaving of safe requests keeps the invariant; every transaction is
guaranteed, and every answer comes from transactions on stores of the run. -/
theorem Steps.sound {events : List (Event σ α κ ι)} {first last : Concurrent ι start}
    (hInv : ∀ s t, Guarantee s t → Inv s → Inv t)
    (hStart : ∀ request s, Inv s → (start request).Safe Inv Guarantee (Post request) s)
    (hFirst : Inv first.store) (hIdle : ∀ i, first.clients i = none) (h : Steps first events last) :
    Sound start Inv Guarantee Post events last := by
  induction h with
  | refl =>
      refine ⟨hFirst, fun i client hClient => ?_, .nil _, fun _ _ _ _ hMem => by cases hMem⟩
      rw [hIdle] at hClient
      cases hClient
  | step _ hMove ih => exact ih.step hInv hStart hMove

end Invariant

end Concurrent

end Library
