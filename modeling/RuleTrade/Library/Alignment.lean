import RuleTrade.Library.Dict
import RuleTrade.Library.Sequence

/-! Two sequences aligned by labels. The key of an element is its label with the
number of elements of that label up to it, so each element has a key of its own. -/

namespace Library

section Index

variable {α κ : Type} [DecidableEq κ]

/-- Elements seen so far: how many there are of each label, and each under its key. -/
structure Indexing (κ α : Type) where
  counts : Dict κ Nat
  indexed : Dict (κ × Nat) α

def Indexing.add (label : α → κ) (s : Indexing κ α) (x : α) : Indexing κ α :=
  let count := s.counts.getD (label x) 0 + 1
  ⟨s.counts.set (label x) count, s.indexed.set (label x, count) x⟩

/-- Elements by their keys. -/
def index (label : α → κ) (xs : List α) : Dict (κ × Nat) α :=
  (xs.foldl (Indexing.add label) ⟨Dict.empty, Dict.empty⟩).indexed

/-- The element of a label with a number, counted from one. -/
def nth (label : α → κ) (xs : List α) (key : κ × Nat) : Option α :=
  if key.2 = 0 then none else (xs.filter (fun x => label x = key.1))[key.2 - 1]?

variable (label : α → κ)

/-- What is kept about the elements seen so far. -/
structure Indexing.Of (seen : List α) (s : Indexing κ α) : Prop where
  counts : ∀ k, s.counts.getD k 0 = (seen.filter (fun x => label x = k)).length
  indexed : ∀ key, s.indexed.get? key = nth label seen key

variable {label}

theorem Indexing.Of.add {seen : List α} {s : Indexing κ α} (h : s.Of label seen) (x : α) :
    (s.add label x).Of label (seen ++ [x]) where
  counts := by
    intro k
    rw [Indexing.add, Dict.getD_set, List.filter_append, List.length_append]
    by_cases hSame : k = label x
    · subst hSame
      rw [if_pos rfl, h.counts]
      simp
    · rw [if_neg hSame, h.counts]
      simp [Ne.symm hSame]
  indexed := by
    rintro ⟨k, n⟩
    rw [Indexing.add, Dict.get?_set, h.counts, nth, List.filter_append]
    by_cases hSame : k = label x
    · subst hSame
      by_cases hLast : n = (seen.filter (fun y => label y = label x)).length + 1
      · subst hLast
        simp
      · rw [if_neg (fun hKey => hLast (congrArg Prod.snd hKey)), h.indexed, nth]
        by_cases hZero : n = 0
        · rw [if_pos hZero, if_pos hZero]
        · rw [if_neg hZero, if_neg hZero]
          rcases Nat.lt_or_gt_of_ne hLast with hBefore | hAfter
          · exact (List.getElem?_append_left (by simp only; omega)).symm
          · rw [List.getElem?_eq_none (by simp only; omega),
              List.getElem?_eq_none (by simp; omega)]
    · rw [if_neg (fun hKey => hSame (congrArg Prod.fst hKey)), h.indexed, nth]
      simp [Ne.symm hSame]

theorem Indexing.of_foldl {seen xs : List α} {s : Indexing κ α} (h : s.Of label seen) :
    (xs.foldl (Indexing.add label) s).Of label (seen ++ xs) := by
  induction xs generalizing seen s with
  | nil => rwa [List.append_nil]
  | cons x rest ih =>
      have hRest := ih (h.add x)
      rwa [List.append_assoc, List.singleton_append] at hRest

theorem get?_index (xs : List α) (key : κ × Nat) : (index label xs).get? key = nth label xs key := by
  have hEmpty : (⟨Dict.empty, Dict.empty⟩ : Indexing κ α).Of label [] :=
    ⟨fun _ => rfl, fun _ => by simp [nth, Dict.get?, Dict.empty, Dict.find]⟩
  exact (Indexing.of_foldl hEmpty).indexed key

theorem label_of_index {xs : List α} {key : κ × Nat} {x : α}
    (h : (index label xs).get? key = some x) : x ∈ xs ∧ label x = key.1 := by
  rw [get?_index, nth] at h
  split at h
  · cases h
  · have hMem := List.mem_filter.mp (List.mem_of_getElem? h)
    exact ⟨hMem.1, of_decide_eq_true hMem.2⟩

/-- Among distinct elements each has one key. -/
theorem existsUnique_key {xs : List α} (hDistinct : xs.Nodup) {x : α} (hx : x ∈ xs) :
    ∃! key, (index label xs).get? key = some x := by
  have hMem : x ∈ xs.filter (fun y => label y = label x) :=
    List.mem_filter.mpr ⟨hx, decide_eq_true rfl⟩
  obtain ⟨i, hi, hFound⟩ := List.mem_iff_getElem.mp hMem
  refine ⟨(label x, i + 1), ?_, ?_⟩
  · show (index label xs).get? (label x, i + 1) = some x
    rw [get?_index, nth, if_neg (Nat.succ_ne_zero i), Nat.add_sub_cancel,
      List.getElem?_eq_getElem hi, hFound]
  · rintro ⟨k, n⟩ hKey
    obtain ⟨-, hLabel⟩ := label_of_index hKey
    simp only at hLabel
    subst hLabel
    simp only [get?_index, nth] at hKey
    split at hKey
    · cases hKey
    · next hZero =>
        obtain ⟨hn, hOther⟩ := List.getElem?_eq_some_iff.mp hKey
        have hSame := (hDistinct.filter _).getElem_inj_iff.mp (hOther.trans hFound.symm)
        exact Prod.ext rfl (by simp only at hZero hSame ⊢; omega)

end Index

section Union

variable {α κ : Type} [DecidableEq κ]

/-- Keys of either side. -/
def unionKeys (a b : Dict κ α) : List κ := a.keys ++ b.keys.filter (fun key => key ∉ a.keys)

theorem mem_unionKeys {a b : Dict κ α} {key : κ} :
    key ∈ unionKeys a b ↔ key ∈ a.keys ∨ key ∈ b.keys := by
  rw [unionKeys, List.mem_append, List.mem_filter, decide_eq_true_eq]
  tauto

theorem nodup_unionKeys (a b : Dict κ α) : (unionKeys a b).Nodup := by
  rw [unionKeys, List.nodup_append']
  refine ⟨a.nodup, b.nodup.filter _, ?_⟩
  intro key ha hb
  exact of_decide_eq_true (List.mem_filter.mp hb).2 ha

theorem unionKeys_perm (a b : Dict κ α) : (unionKeys a b).Perm (unionKeys b a) := by
  rw [List.perm_ext_iff_of_nodup (nodup_unionKeys a b) (nodup_unionKeys b a)]
  intro key
  rw [mem_unionKeys, mem_unionKeys]
  exact or_comm

/-- Differences of two sides, key by key. -/
def differences {δ : Type} (difference : κ → Option α → Option α → Option δ) (keys : List κ)
    (a b : Dict κ α) : List δ :=
  keys.filterMap (fun key => difference key (a.get? key) (b.get? key))

/-- The other way round there are the same differences, each the other way round. -/
theorem differences_swap {δ : Type} {difference : κ → Option α → Option α → Option δ}
    {exchange : δ → δ} {keys keys' : List κ} {a b : Dict κ α} (hKeys : keys'.Perm keys)
    (h : ∀ key, difference key (b.get? key) (a.get? key) =
      (difference key (a.get? key) (b.get? key)).map exchange) :
    (differences difference keys' b a).Perm ((differences difference keys a b).map exchange) := by
  unfold differences
  rw [List.map_filterMap, List.filterMap_congr (fun key _ => h key)]
  exact hKeys.filterMap _

end Union

section Group

variable {δ γ : Type} [LinearOrder γ] (label : δ → γ)

/-- Collect items under their labels, in order of appearance. -/
def collect (items : List δ) : Dict γ (List δ) :=
  items.foldl (fun groups item => groups.set (label item) (groups.getD (label item) [] ++ [item]))
    Dict.empty

/-- The groups in order of their labels. -/
def groups (items : List δ) : List (γ × List δ) :=
  let collected := collect label items
  (Sequence.sortBy id collected.keys).map (fun g => (g, collected.getD g []))

variable {label}

theorem getD_foldl_collect (items : List δ) (d : Dict γ (List δ)) (g : γ) :
    (items.foldl (fun groups item =>
        groups.set (label item) (groups.getD (label item) [] ++ [item])) d).getD g [] =
      d.getD g [] ++ items.filter (fun item => label item = g) := by
  induction items generalizing d with
  | nil => simp
  | cons item rest ih =>
      rw [List.foldl_cons, ih, Dict.getD_set, List.filter_cons]
      by_cases hSame : g = label item
      · subst hSame
        simp
      · simp [hSame, Ne.symm hSame]

theorem getD_collect (items : List δ) (g : γ) :
    (collect label items).getD g [] = items.filter (fun item => label item = g) := by
  rw [collect, getD_foldl_collect]
  rfl

theorem mem_keys_foldl_collect {items : List δ} {d : Dict γ (List δ)} {g : γ} :
    g ∈ (items.foldl (fun groups item =>
        groups.set (label item) (groups.getD (label item) [] ++ [item])) d).keys ↔
      g ∈ d.keys ∨ g ∈ items.map label := by
  induction items generalizing d with
  | nil => simp
  | cons item rest ih =>
      rw [List.foldl_cons, ih, Dict.mem_keys_set, List.map_cons, List.mem_cons]
      tauto

theorem mem_keys_collect {items : List δ} {g : γ} :
    g ∈ (collect label items).keys ↔ g ∈ items.map label := by
  rw [collect, mem_keys_foldl_collect]
  simp [Dict.keys, Dict.empty]

theorem mem_groups {items : List δ} {g : γ} {group : List δ} :
    (g, group) ∈ groups label items ↔
      g ∈ items.map label ∧ group = items.filter (fun item => label item = g) := by
  unfold groups
  simp only [List.mem_map, Sequence.mem_sortBy, mem_keys_collect, getD_collect, Prod.mk.injEq]
  constructor
  · rintro ⟨_, hMem, rfl, rfl⟩
    exact ⟨hMem, rfl⟩
  · rintro ⟨hMem, rfl⟩
    exact ⟨g, hMem, rfl, rfl⟩

/-- Items in another order, exchanged for items of the same labels, make the same
groups up to order and exchange. -/
theorem groups_perm {items items' : List δ} {exchange : δ → δ}
    (hItems : items'.Perm (items.map exchange)) (hLabel : ∀ item, label (exchange item) = label item) :
    List.Forall₂ (fun group group' => group'.1 = group.1 ∧ group'.2.Perm (group.2.map exchange))
      (groups label items) (groups label items') := by
  have hLabels : (items.map exchange).map label = items.map label := by
    rw [List.map_map]
    exact List.map_congr_left (fun item _ => hLabel item)
  have hKeys : (collect label items').keys.Perm (collect label items).keys := by
    refine (List.perm_ext_iff_of_nodup (collect label items').nodup (collect label items).nodup).mpr ?_
    intro g
    show g ∈ (collect label items').keys ↔ g ∈ (collect label items).keys
    rw [mem_keys_collect, mem_keys_collect, (hItems.map label).mem_iff, hLabels]
  have hSorted : Sequence.sortBy id (collect label items').keys =
      Sequence.sortBy id (collect label items).keys := by
    have hOrdered (gs : List γ) : (Sequence.sortBy id gs).Pairwise (fun a b : γ => a ≤ b) :=
      Sequence.pairwise_sortBy id gs
    exact List.Perm.eq_of_pairwise' (hOrdered _) (hOrdered _)
      (((Sequence.perm_sortBy id _).trans hKeys).trans (Sequence.perm_sortBy id _).symm)
  unfold groups
  simp only [hSorted, List.forall₂_map_left_iff, List.forall₂_map_right_iff, List.forall₂_same,
    true_and, getD_collect]
  intro g _
  refine (hItems.filter _).trans ?_
  rw [List.filter_map]
  simp [Function.comp_def, hLabel]

end Group

end Library
