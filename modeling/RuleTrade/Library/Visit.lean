import Mathlib.Data.List.Forall2

/-! Visits of bounded depth: they run out of depth, raise, or return a value with
the items they noted on the way. -/

namespace Library

inductive Visit (ε ι α : Type) where
  | endless
  | raised (error : ε)
  | returned (value : α) (noted : List ι)
  deriving DecidableEq, Repr

namespace Visit

variable {ε ι α β γ : Type}

def bind : Visit ε ι α → (α → Visit ε ι β) → Visit ε ι β
  | .endless, _ => .endless
  | .raised error, _ => .raised error
  | .returned value noted, f =>
      match f value with
      | .endless => .endless
      | .raised error => .raised error
      | .returned result more => .returned result (noted ++ more)

def map (f : α → β) : Visit ε ι α → Visit ε ι β
  | .endless => .endless
  | .raised error => .raised error
  | .returned value noted => .returned (f value) noted

/-- Visit the items of a list in order, up to the first one that raises. -/
def all (f : α → Visit ε ι β) : List α → Visit ε ι (List β)
  | [] => .returned [] []
  | item :: rest => (f item).bind fun first => (all f rest).map (first :: ·)

/-- How a visit ended, without what it gave. -/
inductive Ending where
  | endless
  | raised
  | returned
  deriving DecidableEq, Repr

def Ending.andThen : Ending → Ending → Ending
  | .returned, next => next
  | ending, _ => ending

def ending : Visit ε ι α → Ending
  | .endless => .endless
  | .raised _ => .raised
  | .returned _ _ => .returned

/-- Result of a visit that did not run out of depth. -/
def settled : Visit ε ι α → Option (Except ε (α × List ι))
  | .endless => none
  | .raised error => some (.error error)
  | .returned value noted => some (.ok (value, noted))

@[simp] theorem ending_map (f : α → β) (visit : Visit ε ι α) :
    (visit.map f).ending = visit.ending := by
  cases visit <;> rfl

theorem settled_eq_none_iff {visit : Visit ε ι α} :
    visit.settled = none ↔ visit.ending = .endless := by
  cases visit <;> simp [settled, ending]

theorem bind_eq_returned {visit : Visit ε ι α} {f : α → Visit ε ι β} {result : β}
    {noted : List ι} :
    visit.bind f = .returned result noted ↔ ∃ value own more, visit = .returned value own ∧
      f value = .returned result more ∧ noted = own ++ more := by
  cases visit with
  | endless => simp [bind]
  | raised error => simp [bind]
  | returned value own =>
      cases hNext : f value with
      | endless => simp [bind, hNext]
      | raised error => simp [bind, hNext]
      | returned other more =>
          simp only [bind, hNext, returned.injEq]
          constructor
          · rintro ⟨rfl, rfl⟩
            exact ⟨value, own, more, ⟨rfl, rfl⟩, hNext, rfl⟩
          · rintro ⟨value', own', more', ⟨rfl, rfl⟩, hNext', rfl⟩
            rw [hNext] at hNext'
            cases hNext'
            exact ⟨rfl, rfl⟩

theorem map_eq_returned {visit : Visit ε ι α} {f : α → β} {result : β} {noted : List ι} :
    visit.map f = .returned result noted ↔ ∃ value, visit = .returned value noted ∧
      f value = result := by
  cases visit with
  | endless => simp [map]
  | raised error => simp [map]
  | returned value own =>
      simp only [map, returned.injEq]
      constructor
      · rintro ⟨hResult, rfl⟩
        exact ⟨value, ⟨rfl, rfl⟩, hResult⟩
      · rintro ⟨value', ⟨rfl, rfl⟩, hResult⟩
        exact ⟨hResult, rfl⟩

theorem bind_eq_raised {visit : Visit ε ι α} {f : α → Visit ε ι β} {error : ε} :
    visit.bind f = .raised error ↔ visit = .raised error ∨
      ∃ value noted, visit = .returned value noted ∧ f value = .raised error := by
  cases visit with
  | endless => simp [bind]
  | raised own => simp [bind]
  | returned value own => cases hNext : f value <;> simp [bind, hNext]

theorem map_eq_raised {visit : Visit ε ι α} {f : α → β} {error : ε} :
    visit.map f = .raised error ↔ visit = .raised error := by
  cases visit <;> simp [map]

theorem ending_bind_of_returned {visit : Visit ε ι α} {f : α → Visit ε ι β} {value : α}
    {noted : List ι} (h : visit = .returned value noted) :
    (visit.bind f).ending = (f value).ending := by
  subst h
  rw [bind]
  cases f value <;> rfl

/-- The ending of a sequence where the second visit ends alike after any value. -/
theorem ending_bind_of_forall {visit : Visit ε ι α} {f : α → Visit ε ι β} {next : Ending}
    (h : ∀ value, (f value).ending = next) :
    (visit.bind f).ending = visit.ending.andThen next := by
  cases visit with
  | endless => rfl
  | raised error => rfl
  | returned value noted => exact (ending_bind_of_returned rfl).trans (h value)

theorem ending_all_cons (f : α → Visit ε ι β) (item : α) (rest : List α) :
    (all f (item :: rest)).ending = (f item).ending.andThen (all f rest).ending :=
  ending_bind_of_forall fun _ => ending_map _ _

theorem Ending.andThen_assoc (first second third : Ending) :
    (first.andThen second).andThen third = first.andThen (second.andThen third) := by
  cases first <;> rfl

theorem ending_all_append (f : α → Visit ε ι β) (items others : List α) :
    (all f (items ++ others)).ending = (all f items).ending.andThen (all f others).ending := by
  induction items with
  | nil => rfl
  | cons item items ih =>
      rw [List.cons_append, ending_all_cons, ending_all_cons, ih, Ending.andThen_assoc]

/-- Lists of lists are visited as their items are. -/
theorem ending_all_flatten {f : α → Visit ε ι β} {g : List α → Visit ε ι γ}
    (hg : ∀ items, (g items).ending = (all f items).ending) (lists : List (List α)) :
    (all g lists).ending = (all f lists.flatten).ending := by
  induction lists with
  | nil => rfl
  | cons items lists ih =>
      rw [ending_all_cons, List.flatten_cons, ending_all_append, hg, ih]

/-- What the visit of a list returns is what the visits of its items return. -/
theorem all_eq_returned {f : α → Visit ε ι β} {items : List α} {results : List β}
    {noted : List ι} (h : all f items = .returned results noted) :
    ∃ found : List (β × List ι), List.Forall₂ (fun item pair => f item = .returned pair.1 pair.2)
      items found ∧ results = found.map Prod.fst ∧ noted = found.flatMap Prod.snd := by
  induction items generalizing results noted with
  | nil =>
      cases h
      exact ⟨[], .nil, rfl, rfl⟩
  | cons item rest ih =>
      rw [all, bind_eq_returned] at h
      obtain ⟨first, own, more, hFirst, hRest, rfl⟩ := h
      obtain ⟨others, hOthers, rfl⟩ := map_eq_returned.mp hRest
      obtain ⟨found, hFound, rfl, rfl⟩ := ih hOthers
      exact ⟨(first, own) :: found, .cons hFirst hFound, rfl, rfl⟩

/-- A list whose visit raises has an item whose visit does. -/
theorem all_eq_raised {f : α → Visit ε ι β} {items : List α} {error : ε}
    (h : all f items = .raised error) : ∃ item ∈ items, f item = .raised error := by
  induction items with
  | nil => cases h
  | cons item rest ih =>
      rw [all, bind_eq_raised] at h
      rcases h with hHere | ⟨first, noted, -, hRest⟩
      · exact ⟨item, List.mem_cons_self, hHere⟩
      · obtain ⟨other, hOther, hRaised⟩ := ih (map_eq_raised.mp hRest)
        exact ⟨other, List.mem_cons_of_mem item hOther, hRaised⟩

end Visit

end Library
