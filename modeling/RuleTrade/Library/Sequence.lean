import Mathlib.Data.List.Sort
import Mathlib.Data.Int.Basic

/-! Sequence operations with signed positions: a negative position counts
from the end, and slice bounds are clamped to the sequence. -/

namespace Library.Sequence

variable {α β : Type}

/-- `xs[i]`, or `none` where the position is out of range. -/
def item? (xs : List α) (i : Int) : Option α :=
  if 0 ≤ i then xs[i.toNat]?
  else if 0 ≤ xs.length + i then xs[(xs.length + i).toNat]?
  else none

/-- A slice bound as a position in `0..length`. -/
def bound (length : Nat) (i : Int) : Nat :=
  if i < 0 then (length + i).toNat else min i.toNat length

/-- `xs[start:stop]`. -/
def slice (xs : List α) (start stop : Int) : List α :=
  (xs.drop (bound xs.length start)).take (bound xs.length stop - bound xs.length start)

/-- Tuples with one member of each list, the last list varying fastest. -/
def product : List (List α) → List (List α)
  | [] => [[]]
  | xs :: rest => xs.flatMap (fun x => (product rest).map (x :: ·))

/-- Stable ascending sort by a key. -/
def sortBy [LE β] [DecidableLE β] (key : α → β) (xs : List α) : List α :=
  xs.insertionSort (fun x y => key x ≤ key y)

/-- Stable descending sort by a key: equal keys keep their order. -/
def sortByDescending [LE β] [DecidableLE β] (key : α → β) (xs : List α) : List α :=
  xs.insertionSort (fun x y => key y ≤ key x)

theorem mem_sortBy [LE β] [DecidableLE β] {key : α → β} {xs : List α} {x : α} :
    x ∈ sortBy key xs ↔ x ∈ xs :=
  (List.perm_insertionSort _ xs).mem_iff

theorem mem_sortByDescending [LE β] [DecidableLE β] {key : α → β} {xs : List α} {x : α} :
    x ∈ sortByDescending key xs ↔ x ∈ xs :=
  (List.perm_insertionSort _ xs).mem_iff

/-- The head of a descending sort is a member with the largest key. -/
theorem head_sortByDescending [LinearOrder β] {key : α → β} {xs : List α} {top : α}
    (h : (sortByDescending key xs).head? = some top) : top ∈ xs ∧ ∀ x ∈ xs, key x ≤ key top := by
  obtain ⟨rest, hSorted⟩ := List.head?_eq_some_iff.mp h
  refine ⟨mem_sortByDescending.mp (hSorted ▸ List.mem_cons_self), fun x hx => ?_⟩
  have hTotal : Std.Total (fun x y : α => key y ≤ key x) := ⟨fun x y => le_total (key y) (key x)⟩
  have hTrans : IsTrans α (fun x y : α => key y ≤ key x) := ⟨fun _ _ _ hxy hyz => hyz.trans hxy⟩
  have hPairwise : List.Pairwise (fun x y : α => key y ≤ key x) (sortByDescending key xs) :=
    List.pairwise_insertionSort _ xs
  rw [hSorted, List.pairwise_cons] at hPairwise
  have hx' : x ∈ sortByDescending key xs := mem_sortByDescending.mpr hx
  rw [hSorted] at hx'
  rcases List.mem_cons.mp hx' with rfl | hx
  · exact le_rfl
  · exact hPairwise.1 x hx

section Slice

theorem bound_of_nonneg {length : Nat} {i : Int} (h : 0 ≤ i) :
    bound length i = min i.toNat length := if_neg (by omega)

theorem bound_of_neg {length : Nat} {i : Int} (h : i < 0) :
    bound length i = (length + i).toNat := if_pos h

theorem slice_of_bound_le {xs : List α} {start stop : Int}
    (h : bound xs.length stop ≤ bound xs.length start) : slice xs start stop = [] := by
  rw [slice, Nat.sub_eq_zero_of_le h, List.take_zero]

/-- A window that ends before a row lies in the rows up to it, unless its end
wraps around in the longer list. -/
theorem slice_take {xs : List α} {rows : Nat} {start stop : Int} (hStart : 0 ≤ start)
    (hStop : stop ≤ rows) (h : 0 ≤ stop ∨ xs.length ≤ rows ∨ xs.length + stop ≤ 0) :
    slice (xs.take rows) start stop = slice xs start stop := by
  rcases Nat.lt_or_ge rows xs.length with hRows | hRows
  · have hLength : (xs.take rows).length = rows := by
      rw [List.length_take]
      omega
    rcases Int.lt_or_le stop 0 with hNegative | hPositive
    · -- the end wraps around to nothing in both lists
      rw [slice_of_bound_le, slice_of_bound_le]
      · rw [bound_of_neg hNegative]
        omega
      · rw [bound_of_neg hNegative, hLength]
        omega
    · have hEnd : bound xs.length stop = stop.toNat := by
        rw [bound_of_nonneg hPositive]
        omega
      have hEnd' : bound (xs.take rows).length stop = stop.toNat := by
        rw [bound_of_nonneg hPositive, hLength]
        omega
      rcases Int.lt_or_le start stop with hOpen | hClosed
      · have hFrom : bound xs.length start = start.toNat := by
          rw [bound_of_nonneg hStart]
          omega
        have hFrom' : bound (xs.take rows).length start = start.toNat := by
          rw [bound_of_nonneg hStart, hLength]
          omega
        rw [slice, slice, hEnd, hEnd', hFrom, hFrom', List.drop_take, List.take_take]
        congr 1
        omega
      · rw [slice_of_bound_le, slice_of_bound_le]
        · rw [hEnd, bound_of_nonneg hStart]
          omega
        · rw [hEnd', bound_of_nonneg hStart, hLength]
          omega
  · rw [List.take_of_length_le hRows]

theorem length_slice (xs : List α) (start stop : Int) :
    (slice xs start stop).length = bound xs.length stop - bound xs.length start := by
  have hStop : bound xs.length stop ≤ xs.length := by
    unfold bound
    split_ifs <;> omega
  rw [slice, List.length_take, List.length_drop]
  omega

/-- For a window from the first row the condition is exact. -/
theorem slice_take_iff {xs : List α} {rows : Nat} {stop : Int} (hStop : stop ≤ rows) :
    slice (xs.take rows) 0 stop = slice xs 0 stop ↔
      0 ≤ stop ∨ xs.length ≤ rows ∨ xs.length + stop ≤ 0 := by
  refine ⟨fun h => ?_, slice_take le_rfl hStop⟩
  by_contra hWraps
  push Not at hWraps
  have hLengths := congrArg List.length h
  rw [length_slice, length_slice, bound_of_neg hWraps.1, bound_of_neg hWraps.1,
    List.length_take] at hLengths
  have hFirst (length : Nat) : bound length 0 = 0 := by simp [bound]
  rw [hFirst, hFirst] at hLengths
  omega

end Slice

section Stable

variable {r s : α → α → Prop} [DecidableRel r]

/-- Insertion before all equal elements keeps a sorted list sorted. -/
theorem pairwise_orderedInsert [Std.Total r] [IsTrans α r] {x : α} {xs : List α}
    (h : xs.Pairwise (fun y z => r y z ∧ (r z y → s y z))) (hx : ∀ y ∈ xs, s x y) :
    (xs.orderedInsert r x).Pairwise (fun y z => r y z ∧ (r z y → s y z)) := by
  induction xs with
  | nil => simp
  | cons y ys ih =>
      obtain ⟨hy, hys⟩ := List.pairwise_cons.mp h
      rw [List.orderedInsert]
      split_ifs with hxy
      · refine List.pairwise_cons.mpr ⟨fun z hz => ⟨?_, fun _ => hx z hz⟩, h⟩
        rcases List.mem_cons.mp hz with rfl | hz
        · exact hxy
        · exact IsTrans.trans _ _ _ hxy (hy z hz).1
      · refine List.pairwise_cons.mpr
          ⟨fun z hz => ?_, ih hys (fun z hz => hx z (List.mem_cons_of_mem y hz))⟩
        rcases (List.mem_orderedInsert r).mp hz with rfl | hz
        · exact ⟨(Std.Total.total z y).resolve_left hxy, fun h => absurd h hxy⟩
        · exact hy z hz

/-- A stable sort keeps the order that equal elements had. -/
theorem pairwise_insertionSort_stable [Std.Total r] [IsTrans α r] {xs : List α}
    (h : xs.Pairwise s) :
    (xs.insertionSort r).Pairwise (fun x y => r x y ∧ (r y x → s x y)) := by
  induction xs with
  | nil => simp
  | cons x xs ih =>
      obtain ⟨hx, hxs⟩ := List.pairwise_cons.mp h
      exact pairwise_orderedInsert (ih hxs)
        (fun y hy => hx y ((List.perm_insertionSort r xs).mem_iff.mp hy))

end Stable

section SortTwice

theorem perm_sortBy [LE β] [DecidableLE β] (key : α → β) (xs : List α) :
    (sortBy key xs).Perm xs :=
  List.perm_insertionSort _ xs

theorem perm_sortByDescending [LE β] [DecidableLE β] (key : α → β) (xs : List α) :
    (sortByDescending key xs).Perm xs :=
  List.perm_insertionSort _ xs

variable {γ : Type} [LE β] [DecidableLE β] [LE γ] [DecidableLE γ]
  [hTotal : Std.Total (fun x y : β => x ≤ y)] [hTrans : IsTrans β (fun x y => x ≤ y)]
  [hTotal' : Std.Total (fun x y : γ => x ≤ y)] [hTrans' : IsTrans γ (fun x y => x ≤ y)]

omit [LE γ] [DecidableLE γ] hTotal' hTrans' in
theorem pairwise_sortBy (key : α → β) (xs : List α) :
    (sortBy key xs).Pairwise (fun x y => key x ≤ key y) := by
  have : Std.Total (fun x y : α => key x ≤ key y) := ⟨fun x y => hTotal.total (key x) (key y)⟩
  have : IsTrans α (fun x y : α => key x ≤ key y) := ⟨fun x y z => hTrans.trans _ _ _⟩
  exact List.pairwise_insertionSort _ xs

/-- Sorting by a minor key first orders equal major keys by the minor one. -/
theorem pairwise_sortBy_sortBy (major : α → β) (minor : α → γ) (xs : List α) :
    (sortBy major (sortBy minor xs)).Pairwise
      (fun x y => major x ≤ major y ∧ (major y ≤ major x → minor x ≤ minor y)) := by
  have : Std.Total (fun x y : α => major x ≤ major y) :=
    ⟨fun x y => hTotal.total (major x) (major y)⟩
  have : IsTrans α (fun x y : α => major x ≤ major y) := ⟨fun x y z => hTrans.trans _ _ _⟩
  exact pairwise_insertionSort_stable (pairwise_sortBy minor xs)

theorem pairwise_sortByDescending_sortBy (major : α → β) (minor : α → γ) (xs : List α) :
    (sortByDescending major (sortBy minor xs)).Pairwise
      (fun x y => major y ≤ major x ∧ (major x ≤ major y → minor x ≤ minor y)) := by
  have : Std.Total (fun x y : α => major y ≤ major x) :=
    ⟨fun x y => hTotal.total (major y) (major x)⟩
  have : IsTrans α (fun x y : α => major y ≤ major x) :=
    ⟨fun x y z hxy hyz => hTrans.trans _ _ _ hyz hxy⟩
  exact pairwise_insertionSort_stable (pairwise_sortBy minor xs)

omit [LE γ] [DecidableLE γ] hTotal' hTrans' in
/-- Elements with distinct keys sort to one list in whatever order they come. -/
theorem sortBy_of_perm [hAntisymm : Std.Antisymm (fun x y : β => x ≤ y)] {key : α → β}
    {xs ys : List α} (h : xs.Perm ys) (hNodup : (xs.map key).Nodup) :
    sortBy key xs = sortBy key ys := by
  have hSorted : (sortBy key xs).Perm (sortBy key ys) :=
    (perm_sortBy key xs).trans (h.trans (perm_sortBy key ys).symm)
  refine hSorted.eq_of_pairwise (fun x y hx hy hLess hMore => ?_) (pairwise_sortBy key xs)
    (pairwise_sortBy key ys)
  exact List.inj_on_of_nodup_map hNodup (mem_sortBy.mp hx)
    (mem_sortBy.mp (hSorted.mem_iff.mpr hy)) (hAntisymm.antisymm _ _ hLess hMore)

omit [LE γ] [DecidableLE γ] hTotal' hTrans' in
/-- Elements that are their keys sort to one list in whatever order they come. -/
theorem sortBy_of_perm_of_injective [hAntisymm : Std.Antisymm (fun x y : β => x ≤ y)] {key : α → β}
    (hKey : Function.Injective key) {xs ys : List α} (h : xs.Perm ys) :
    sortBy key xs = sortBy key ys := by
  have hSorted : (sortBy key xs).Perm (sortBy key ys) :=
    (perm_sortBy key xs).trans (h.trans (perm_sortBy key ys).symm)
  refine hSorted.eq_of_pairwise (fun x y _ _ hLess hMore => ?_) (pairwise_sortBy key xs)
    (pairwise_sortBy key ys)
  exact hKey (hAntisymm.antisymm _ _ hLess hMore)

omit [LE γ] [DecidableLE γ] hTotal' hTrans' in
theorem sortBy_sortBy (key : α → β) (xs : List α) : sortBy key (sortBy key xs) = sortBy key xs :=
  (pairwise_sortBy key xs).insertionSort_eq

end SortTwice

/-- Positions `0, 1, ...` paired with the elements. -/
def enumerate (xs : List α) : List (Nat × α) :=
  (List.range xs.length).zip xs

/-- A fallible map that returns has mapped every element. -/
theorem forall₂_of_mapM {ε : Type} {f : α → Except ε β} {xs : List α} {ys : List β}
    (h : xs.mapM f = .ok ys) : List.Forall₂ (fun x y => f x = .ok y) xs ys := by
  induction xs generalizing ys with
  | nil =>
      cases h
      exact .nil
  | cons x xs ih =>
      rw [List.mapM_cons] at h
      cases hFirst : f x with
      | error e =>
          rw [hFirst] at h
          cases h
      | ok y =>
          cases hRest : xs.mapM f with
          | error e =>
              rw [hFirst, hRest] at h
              cases h
          | ok rest =>
              rw [hFirst, hRest] at h
              cases h
              exact .cons hFirst (ih hRest)

theorem mapM_of_forall₂ {ε : Type} {f : α → Except ε β} {xs : List α} {ys : List β}
    (h : List.Forall₂ (fun x y => f x = .ok y) xs ys) : xs.mapM f = .ok ys := by
  induction h with
  | nil => rfl
  | cons hFirst _ ih =>
      rw [List.mapM_cons, hFirst, ih]
      rfl

/-- A fallible loop whose steps all return is the loop over what they return. -/
theorem foldlM_of_forall₂ {ε γ : Type} {f : β → α → Except ε β} {g : β → γ → β} {xs : List α}
    {ys : List γ} (h : List.Forall₂ (fun x y => ∀ b, f b x = .ok (g b y)) xs ys) (b : β) :
    xs.foldlM f b = .ok (ys.foldl g b) := by
  induction h generalizing b with
  | nil => rfl
  | cons hFirst _ ih =>
      rw [List.foldlM_cons, hFirst, List.foldl_cons]
      exact ih _

/-- A fallible map returns when it does on every element. -/
theorem exists_ok_mapM {ε : Type} {f : α → Except ε β} {xs : List α}
    (h : ∀ x ∈ xs, ∃ y, f x = .ok y) : ∃ ys, xs.mapM f = .ok ys := by
  induction xs with
  | nil => exact ⟨[], rfl⟩
  | cons x xs ih =>
      obtain ⟨y, hFirst⟩ := h x List.mem_cons_self
      obtain ⟨ys, hRest⟩ := ih (fun z hz => h z (List.mem_cons_of_mem x hz))
      refine ⟨y :: ys, ?_⟩
      rw [List.mapM_cons, hFirst, hRest]
      rfl

/-- A fallible loop returns when every step does, if that is a matter of its element. -/
theorem exists_ok_foldlM_iff {ε : Type} {f : β → α → Except ε β} {P : α → Prop}
    (hStep : ∀ b x, (∃ b', f b x = .ok b') ↔ P x) {xs : List α} {start : β} :
    (∃ out, xs.foldlM f start = .ok out) ↔ ∀ x ∈ xs, P x := by
  induction xs generalizing start with
  | nil => simp [pure, Except.pure]
  | cons x xs ih =>
      rw [List.foldlM_cons, List.forall_mem_cons, ← hStep start x]
      cases hFirst : f start x with
      | error e => simp [bind, Except.bind]
      | ok next =>
          show (∃ out, xs.foldlM f next = .ok out) ↔ _
          simp [ih]

/-- A fallible loop whose steps return under a condition on their element is the
loop over what they return. -/
theorem foldlM_ok_iff {ε : Type} {f : β → α → Except ε β} {P : α → Prop} {g : β → α → β}
    {xs : List α} (hStep : ∀ x ∈ xs, ∀ b b', f b x = .ok b' ↔ P x ∧ b' = g b x) {start out : β} :
    xs.foldlM f start = .ok out ↔ (∀ x ∈ xs, P x) ∧ out = xs.foldl g start := by
  induction xs generalizing start with
  | nil => simp [pure, Except.pure, eq_comm]
  | cons x xs ih =>
      have hLater : ∀ y ∈ xs, ∀ b b', f b y = .ok b' ↔ P y ∧ b' = g b y :=
        fun y hy => hStep y (List.mem_cons_of_mem x hy)
      rw [List.foldlM_cons, List.forall_mem_cons, List.foldl_cons]
      cases hFirst : f start x with
      | error e =>
          have hFails : ¬P x := by
            intro hP
            rw [(hStep x List.mem_cons_self start _).mpr ⟨hP, rfl⟩] at hFirst
            cases hFirst
          simp [bind, Except.bind, hFails]
      | ok next =>
          obtain ⟨hP, rfl⟩ := (hStep x List.mem_cons_self start next).mp hFirst
          show xs.foldlM f (g start x) = .ok out ↔ _
          simp [ih hLater, hP]

theorem exists_right {R : α → β → Prop} {xs : List α} {ys : List β} (h : List.Forall₂ R xs ys)
    {x : α} (hx : x ∈ xs) : ∃ y ∈ ys, R x y := by
  induction h with
  | nil => cases hx
  | cons hFirst hRest ih =>
      rcases List.mem_cons.mp hx with rfl | hx
      · exact ⟨_, List.mem_cons_self, hFirst⟩
      · obtain ⟨y, hy, hxy⟩ := ih hx
        exact ⟨y, List.mem_cons_of_mem _ hy, hxy⟩

theorem exists_left {R : α → β → Prop} {xs : List α} {ys : List β} (h : List.Forall₂ R xs ys)
    {y : β} (hy : y ∈ ys) : ∃ x ∈ xs, R x y := exists_right h.flip hy

/-- Elements that contribute nothing may be left out. -/
theorem flatMap_filter {g : α → List β} {p : α → Bool} {xs : List α}
    (h : ∀ x ∈ xs, p x = false → g x = []) : (xs.filter p).flatMap g = xs.flatMap g := by
  induction xs with
  | nil => rfl
  | cons x rest ih =>
      have hRest := ih (fun y hy => h y (List.mem_cons_of_mem x hy))
      cases hx : p x with
      | true => rw [List.filter_cons_of_pos hx, List.flatMap_cons, List.flatMap_cons, hRest]
      | false =>
          rw [List.filter_cons_of_neg (by simp [hx]), List.flatMap_cons, hRest,
            h x List.mem_cons_self hx, List.nil_append]

/-- What does not depend on the position is selected and mapped as before. -/
theorem map_filter_mapIdx {γ : Type} {f : Nat → α → β} {p : β → Bool} {p' : α → Bool} {g : β → γ}
    {g' : α → γ} (hSelect : ∀ i x, p (f i x) = p' x) (hMap : ∀ i x, g (f i x) = g' x)
    (xs : List α) : ((xs.mapIdx f).filter p).map g = (xs.filter p').map g' := by
  induction xs generalizing f with
  | nil => rfl
  | cons x rest ih =>
      have hRest := ih (fun i => hSelect (i + 1)) (fun i => hMap (i + 1))
      rw [List.mapIdx_cons, List.filter_cons, List.filter_cons, hSelect]
      cases p' x with
      | true => simpa [hMap] using hRest
      | false => simpa using hRest

theorem map_mapIdx {γ : Type} {f : Nat → α → β} {g : β → γ} {g' : α → γ}
    (hMap : ∀ i x, g (f i x) = g' x) (xs : List α) : (xs.mapIdx f).map g = xs.map g' := by
  induction xs generalizing f with
  | nil => rfl
  | cons x rest ih =>
      rw [List.mapIdx_cons, List.map_cons, List.map_cons, hMap, ih (fun i => hMap (i + 1))]

/-- Where only the element of one key contributes, it contributes everything. -/
theorem flatMap_of_nodup {γ : Type} {key : α → β} {g : α → List γ} {xs : List α}
    (hUnique : (xs.map key).Nodup) {x : α} (hx : x ∈ xs)
    (hOther : ∀ y ∈ xs, key y ≠ key x → g y = []) : xs.flatMap g = g x := by
  obtain ⟨before, after, rfl⟩ := List.append_of_mem hx
  rw [List.map_append, List.map_cons, List.nodup_middle, List.nodup_cons,
    ← List.map_append] at hUnique
  have hRest : ∀ y ∈ before ++ after, g y = [] := by
    intro y hy
    apply hOther y
    · rcases List.mem_append.mp hy with hBefore | hAfter
      · exact List.mem_append_left _ hBefore
      · exact List.mem_append_right _ (List.mem_cons_of_mem _ hAfter)
    · intro hSame
      exact hUnique.1 (hSame ▸ List.mem_map_of_mem hy)
  rw [List.forall_mem_append] at hRest
  rw [List.flatMap_append, List.flatMap_cons, List.flatMap_eq_nil_iff.mpr hRest.1,
    List.flatMap_eq_nil_iff.mpr hRest.2, List.nil_append, List.append_nil]

/-- A list without repeats holds one element and no other. -/
theorem eq_singleton_iff {xs : List α} {x : α} (h : xs.Nodup) :
    xs = [x] ↔ x ∈ xs ∧ ∀ y ∈ xs, y = x := by
  constructor
  · rintro rfl
    simp
  · rintro ⟨hMem, hOnly⟩
    cases xs with
    | nil => cases hMem
    | cons first rest =>
        obtain rfl := hOnly first List.mem_cons_self
        rw [List.cons.injEq]
        refine ⟨rfl, List.eq_nil_iff_forall_not_mem.mpr fun y hy => ?_⟩
        rw [hOnly y (List.mem_cons_of_mem _ hy)] at hy
        exact (List.nodup_cons.mp h).1 hy

/-- A key finds the element that has it, when no other has. -/
theorem find?_of_nodup [DecidableEq β] {key : α → β} {xs : List α} (hUnique : (xs.map key).Nodup)
    {x : α} (hx : x ∈ xs) : xs.find? (fun y => key y = key x) = some x := by
  cases hFind : xs.find? (fun y => key y = key x) with
  | none => exact absurd (List.find?_eq_none.mp hFind x hx) (by simp)
  | some y =>
      have hKey : key y = key x := by simpa using List.find?_some hFind
      rw [List.inj_on_of_nodup_map hUnique (List.mem_of_find?_eq_some hFind) hx hKey]

/-- After the last element with a property no other has it. -/
theorem not_of_getLast?_filter {α : Type} {p : α → Bool} {xs ys : List α} {a : α}
    (hLast : ((xs ++ ys).filter p).getLast? = some a) (hMem : a ∈ xs) (hUnique : (xs ++ ys).Nodup) :
    ∀ y ∈ ys, p y = false := by
  intro y hY
  by_contra hHas
  have hNonempty : ys.filter p ≠ [] :=
    List.ne_nil_of_mem (List.mem_filter.mpr ⟨hY, by simpa using hHas⟩)
  rw [List.filter_append, List.getLast?_append_of_ne_nil _ hNonempty] at hLast
  have hLater : a ∈ ys := List.mem_of_mem_filter (List.mem_of_getLast? hLast)
  exact (List.disjoint_of_nodup_append hUnique) hMem hLater

end Library.Sequence
