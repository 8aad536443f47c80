import Mathlib.Data.List.Basic
import Mathlib.Data.List.Nodup
import Mathlib.Data.List.Induction
import Mathlib.Logic.Embedding.Basic
import Mathlib.Algebra.Order.BigOperators.Group.List
import Mathlib.Algebra.Order.Ring.Rat
import Mathlib.Tactic.Ring

/-! Insertion-ordered dictionaries. Iteration order is the order in which keys
were first written, and a later write to a known key keeps its position. Keys
are distinct by construction, so lookup never depends on shadowed entries. -/

namespace Library

/-- An insertion-ordered finite map. The entry list never repeats a key. -/
structure Dict (κ α : Type) where
  entries : List (κ × α)
  nodup : (entries.map Prod.fst).Nodup
  deriving DecidableEq

namespace Dict

variable {κ α β : Type}

theorem ext_entries {d e : Dict κ α} (h : d.entries = e.entries) : d = e := by
  cases d
  cases e
  cases h
  rfl

def empty : Dict κ α := ⟨[], List.nodup_nil⟩

def keys (d : Dict κ α) : List κ := d.entries.map Prod.fst

def values (d : Dict κ α) : List α := d.entries.map Prod.snd

def isEmpty (d : Dict κ α) : Bool := d.entries.isEmpty

/-- Change every value and keep keys and order. -/
def mapValues (f : α → β) (d : Dict κ α) : Dict κ β :=
  ⟨d.entries.map (fun entry => (entry.1, f entry.2)), by
    simpa [List.map_map, Function.comp_def] using d.nodup⟩

/-- Change every value, knowing its key. -/
def mapEntries (f : κ → α → β) (d : Dict κ α) : Dict κ β :=
  ⟨d.entries.map (fun entry => (entry.1, f entry.1 entry.2)), by
    simpa [List.map_map, Function.comp_def] using d.nodup⟩

/-- Rename keys. No two keys become one. -/
def mapKeys {μ : Type} (f : κ ↪ μ) (d : Dict κ α) : Dict μ α :=
  ⟨d.entries.map (fun entry => (f entry.1, entry.2)), by
    have hKeys := d.nodup.map f.injective
    simpa [List.map_map, Function.comp_def] using hKeys⟩

@[simp] theorem keys_empty : (empty : Dict κ α).keys = [] := rfl

@[simp] theorem keys_mapValues (f : α → β) (d : Dict κ α) : (d.mapValues f).keys = d.keys := by
  simp [keys, mapValues, List.map_map, Function.comp_def]

@[simp] theorem values_mapValues (f : α → β) (d : Dict κ α) :
    (d.mapValues f).values = d.values.map f := by
  simp [values, mapValues, List.map_map, Function.comp_def]

theorem length_values (d : Dict κ α) : d.values.length = d.keys.length := by
  simp [values, keys]

theorem isEmpty_eq_false {d : Dict κ α} (h : d.entries ≠ []) : d.isEmpty = false := by
  simpa [isEmpty] using h

section Lookup

variable [DecidableEq κ]

/-- Look a key up in an entry list. -/
def find (key : κ) : List (κ × α) → Option α
  | [] => none
  | entry :: rest => if entry.1 = key then some entry.2 else find key rest

def get? (d : Dict κ α) (key : κ) : Option α := find key d.entries

def getD (d : Dict κ α) (key : κ) (fallback : α) : α := (d.get? key).getD fallback

def contains (d : Dict κ α) (key : κ) : Bool := (d.get? key).isSome

/-- Overwrite a key in place, or append it. -/
def write (key : κ) (value : α) : List (κ × α) → List (κ × α)
  | [] => [(key, value)]
  | entry :: rest =>
      if entry.1 = key then (key, value) :: rest else entry :: write key value rest

theorem keys_write (key : κ) (value : α) (entries : List (κ × α)) :
    (write key value entries).map Prod.fst =
      if key ∈ entries.map Prod.fst then entries.map Prod.fst
      else entries.map Prod.fst ++ [key] := by
  induction entries with
  | nil => simp [write]
  | cons entry rest ih =>
      by_cases h : entry.1 = key
      · simp [write, h]
      · have h' : key ≠ entry.1 := Ne.symm h
        simp only [write, h, if_false, List.map_cons, ih, List.mem_cons, h', false_or]
        split_ifs <;> rfl

def set (d : Dict κ α) (key : κ) (value : α) : Dict κ α :=
  ⟨write key value d.entries, by
    rw [keys_write]
    split_ifs with h
    · exact d.nodup
    · exact List.nodup_append.mpr ⟨d.nodup, List.nodup_singleton _, by
        intro a ha b hb hab
        rw [List.mem_singleton] at hb
        subst hab hb
        exact h ha⟩⟩

/-- Later pairs overwrite earlier ones, as in a dictionary display. -/
def ofList (pairs : List (κ × α)) : Dict κ α :=
  pairs.foldl (fun d pair => d.set pair.1 pair.2) empty

/-- `dict.update`: write every entry of `later`. -/
def update (d later : Dict κ α) : Dict κ α :=
  later.entries.foldl (fun d pair => d.set pair.1 pair.2) d

theorem find_eq_none_iff (key : κ) (entries : List (κ × α)) :
    find key entries = none ↔ key ∉ entries.map Prod.fst := by
  induction entries with
  | nil => simp [find]
  | cons entry rest ih =>
      by_cases h : entry.1 = key
      · simp [find, h]
      · simp [find, h, ih, Ne.symm h]

theorem find_isSome_iff (key : κ) (entries : List (κ × α)) :
    (find key entries).isSome ↔ key ∈ entries.map Prod.fst := by
  rw [Option.isSome_iff_ne_none, Ne, find_eq_none_iff, not_not]

theorem mem_of_find {key : κ} {value : α} {entries : List (κ × α)}
    (h : find key entries = some value) : (key, value) ∈ entries := by
  induction entries with
  | nil => simp [find] at h
  | cons entry rest ih =>
      obtain ⟨k, v⟩ := entry
      by_cases hk : k = key
      · simp only [find, hk, if_true, Option.some.injEq] at h
        simp [hk, h]
      · simp only [find, hk, if_false] at h
        exact List.mem_cons_of_mem _ (ih h)

theorem find_of_mem {key : κ} {value : α} {entries : List (κ × α)}
    (hNodup : (entries.map Prod.fst).Nodup) (h : (key, value) ∈ entries) :
    find key entries = some value := by
  induction entries with
  | nil => simp at h
  | cons entry rest ih =>
      simp only [List.map_cons, List.nodup_cons] at hNodup
      rcases List.mem_cons.mp h with rfl | h
      · simp [find]
      · have hne : entry.1 ≠ key := by
          rintro rfl
          exact hNodup.1 (List.mem_map.mpr ⟨(entry.1, value), h, rfl⟩)
        simp [find, hne, ih hNodup.2 h]

theorem find_write (key other : κ) (value : α) (entries : List (κ × α)) :
    find other (write key value entries) =
      if other = key then some value else find other entries := by
  induction entries with
  | nil =>
      by_cases h : other = key
      · simp [write, find, h]
      · simp [write, find, h, Ne.symm h]
  | cons entry rest ih =>
      by_cases h : entry.1 = key
      · by_cases ho : other = key
        · simp [write, h, find, ho]
        · simp [write, h, find, ho, Ne.symm ho]
      · by_cases ho : other = key
        · subst ho
          simp [write, h, find, ih]
        · simp [write, h, find, ho, ih]

@[simp] theorem get?_empty (key : κ) : (empty : Dict κ α).get? key = none := rfl

theorem get?_set (d : Dict κ α) (key other : κ) (value : α) :
    (d.set key value).get? other = if other = key then some value else d.get? other :=
  find_write key other value d.entries

@[simp] theorem get?_set_self (d : Dict κ α) (key : κ) (value : α) :
    (d.set key value).get? key = some value := by
  rw [get?_set, if_pos rfl]

theorem get?_set_of_ne {d : Dict κ α} {key other : κ} {value : α} (h : other ≠ key) :
    (d.set key value).get? other = d.get? other := by
  rw [get?_set, if_neg h]

theorem get?_isSome_iff {d : Dict κ α} {key : κ} : (d.get? key).isSome ↔ key ∈ d.keys :=
  find_isSome_iff key d.entries

theorem get?_eq_none_iff {d : Dict κ α} {key : κ} : d.get? key = none ↔ key ∉ d.keys :=
  find_eq_none_iff key d.entries

theorem mem_of_get? {d : Dict κ α} {key : κ} {value : α} (h : d.get? key = some value) :
    (key, value) ∈ d.entries :=
  mem_of_find h

theorem get?_of_mem {d : Dict κ α} {key : κ} {value : α} (h : (key, value) ∈ d.entries) :
    d.get? key = some value :=
  find_of_mem d.nodup h

theorem mem_keys_set {d : Dict κ α} {key other : κ} {value : α} :
    other ∈ (d.set key value).keys ↔ other = key ∨ other ∈ d.keys := by
  rw [← get?_isSome_iff, ← get?_isSome_iff, get?_set]
  by_cases h : other = key <;> simp [h]

theorem mem_keys_of_get? {d : Dict κ α} {key : κ} {value : α} (h : d.get? key = some value) :
    key ∈ d.keys := by
  rw [← get?_isSome_iff, h]
  rfl

theorem mem_keys_of_contains {d : Dict κ α} {key : κ} (h : d.contains key = true) :
    key ∈ d.keys :=
  get?_isSome_iff.mp h

/-- A write under an allowed key keeps the keys among the allowed ones. -/
theorem keys_set_subset {d : Dict κ α} {key : κ} {value : α} {allowed : List κ}
    (h : d.keys ⊆ allowed) (hKey : key ∈ allowed) : (d.set key value).keys ⊆ allowed := by
  intro k hk
  rcases mem_keys_set.mp hk with rfl | hk
  · exact hKey
  · exact h hk

theorem mem_values_set {d : Dict κ α} {key : κ} {value v : α}
    (h : v ∈ (d.set key value).values) : v = value ∨ v ∈ d.values := by
  obtain ⟨⟨k, w⟩, hmem, rfl⟩ := List.mem_map.mp h
  have hget := get?_of_mem hmem
  rw [get?_set] at hget
  by_cases hk : k = key
  · simp only [hk, if_true, Option.some.injEq] at hget
    exact Or.inl hget.symm
  · simp only [hk, if_false] at hget
    exact Or.inr (List.mem_map.mpr ⟨(k, w), mem_of_get? hget, rfl⟩)

theorem get?_mapValues (f : α → β) (d : Dict κ α) (key : κ) :
    (d.mapValues f).get? key = (d.get? key).map f := by
  obtain ⟨entries, hNodup⟩ := d
  simp only [get?, mapValues]
  clear hNodup
  induction entries with
  | nil => rfl
  | cons entry rest ih =>
      by_cases h : entry.1 = key <;> simp [find, h, ih]

theorem get?_mapEntries (f : κ → α → β) (d : Dict κ α) (key : κ) :
    (d.mapEntries f).get? key = (d.get? key).map (f key) := by
  obtain ⟨entries, hNodup⟩ := d
  simp only [get?, mapEntries]
  clear hNodup
  induction entries with
  | nil => rfl
  | cons entry rest ih =>
      by_cases h : entry.1 = key
      · simp [find, h]
      · simp [find, h, ih]

section Renaming

variable {μ : Type} [DecidableEq μ] (f : κ ↪ μ)

@[simp] theorem get?_mapKeys (d : Dict κ α) (key : κ) :
    (d.mapKeys f).get? (f key) = d.get? key := by
  obtain ⟨entries, hNodup⟩ := d
  simp only [get?, mapKeys]
  clear hNodup
  induction entries with
  | nil => rfl
  | cons entry rest ih =>
      by_cases h : entry.1 = key
      · simp [find, h]
      · simp [find, h, ih]

@[simp] theorem getD_mapKeys (d : Dict κ α) (key : κ) (fallback : α) :
    (d.mapKeys f).getD (f key) fallback = d.getD key fallback := by
  rw [getD, get?_mapKeys, getD]

theorem write_mapKeys (key : κ) (value : α) (entries : List (κ × α)) :
    write (f key) value (entries.map (fun entry => (f entry.1, entry.2))) =
      (write key value entries).map (fun entry => (f entry.1, entry.2)) := by
  induction entries with
  | nil => rfl
  | cons entry rest ih =>
      by_cases h : entry.1 = key
      · simp [write, h]
      · simp [write, h, ih]

/-- Writing under a renamed key renames the written map. -/
theorem set_mapKeys (d : Dict κ α) (key : κ) (value : α) :
    (d.mapKeys f).set (f key) value = (d.set key value).mapKeys f := by
  apply ext_entries
  exact write_mapKeys f key value d.entries

end Renaming

theorem set_entries_ne_nil (d : Dict κ α) (key : κ) (value : α) :
    (d.set key value).entries ≠ [] := by
  intro h
  have := mem_of_get? (get?_set_self d key value)
  rw [h] at this
  simp at this

theorem foldl_set_ne_nil {key : β → κ} {value : Dict κ α → β → α} {xs : List β} {d : Dict κ α}
    (h : d.entries ≠ []) :
    (xs.foldl (fun d x => d.set (key x) (value d x)) d).entries ≠ [] := by
  induction xs generalizing d with
  | nil => exact h
  | cons x xs ih => exact ih (set_entries_ne_nil _ _ _)

theorem keys_set_of_mem {d : Dict κ α} {key : κ} {value : α} (h : key ∈ d.keys) :
    (d.set key value).keys = d.keys := by
  exact (keys_write key value d.entries).trans (if_pos h)

theorem getD_set (d : Dict κ α) (key other : κ) (value fallback : α) :
    (d.set key value).getD other fallback =
      if other = key then value else d.getD other fallback := by
  simp only [getD, get?_set]
  split_ifs <;> rfl

theorem foldl_update (entries : List (κ × α)) (hNodup : (entries.map Prod.fst).Nodup)
    (d : Dict κ α) (key : κ) :
    (entries.foldl (fun d pair => d.set pair.1 pair.2) d).get? key =
      (find key entries).or (d.get? key) := by
  induction entries generalizing d with
  | nil => rfl
  | cons entry rest ih =>
      rw [List.map_cons, List.nodup_cons] at hNodup
      rw [List.foldl_cons, ih hNodup.2, get?_set]
      by_cases h : key = entry.1
      · have hFresh : find entry.1 rest = none := (find_eq_none_iff entry.1 rest).mpr hNodup.1
        simp [find, h, hFresh]
      · simp [find, h, Ne.symm h]

/-- Entries of the later dictionary win. -/
theorem get?_update (d later : Dict κ α) (key : κ) :
    (d.update later).get? key = (later.get? key).or (d.get? key) :=
  foldl_update later.entries later.nodup d key

theorem keys_foldl_set {β : Type} {key : β → κ} {value : Dict κ α → β → α} {xs : List β}
    {d : Dict κ α} (h : ∀ x ∈ xs, key x ∈ d.keys) :
    (xs.foldl (fun d x => d.set (key x) (value d x)) d).keys = d.keys := by
  induction xs generalizing d with
  | nil => rfl
  | cons x xs ih =>
      have hFirst : (d.set (key x) (value d x)).keys = d.keys :=
        keys_set_of_mem (h x List.mem_cons_self)
      rw [List.foldl_cons, ih, hFirst]
      intro y hy
      rw [hFirst]
      exact h y (List.mem_cons_of_mem x hy)

/-- An update of known keys changes no keys. -/
theorem keys_update {d later : Dict κ α} (h : later.keys ⊆ d.keys) :
    (d.update later).keys = d.keys :=
  keys_foldl_set (fun entry hEntry => h (List.mem_map.mpr ⟨entry, hEntry, rfl⟩))

/-- What a list of writes leaves: known keys, and values written or old. -/
theorem foldl_set_keys {β : Type} {key : β → κ} {value : Dict κ α → β → α} {xs : List β}
    {d : Dict κ α} {allowed : List κ} (hStart : d.keys ⊆ allowed)
    (h : ∀ x ∈ xs, key x ∈ allowed) :
    (xs.foldl (fun d x => d.set (key x) (value d x)) d).keys ⊆ allowed := by
  induction xs generalizing d with
  | nil => exact hStart
  | cons x xs ih =>
      exact ih (keys_set_subset hStart (h x List.mem_cons_self))
        (fun y hy => h y (List.mem_cons_of_mem x hy))

theorem foldl_set_values {β : Type} {key : β → κ} {value : Dict κ α → β → α} {xs : List β}
    {d : Dict κ α} {P : α → Prop} (hStart : ∀ v ∈ d.values, P v)
    (hStep : ∀ x ∈ xs, ∀ d : Dict κ α, (∀ v ∈ d.values, P v) → P (value d x)) :
    ∀ v ∈ (xs.foldl (fun d x => d.set (key x) (value d x)) d).values, P v := by
  induction xs generalizing d with
  | nil => exact hStart
  | cons x xs ih =>
      refine ih (fun v hv => ?_) (fun y hy => hStep y (List.mem_cons_of_mem x hy))
      rcases mem_values_set hv with rfl | hv
      · exact hStep x List.mem_cons_self d hStart
      · exact hStart v hv

/-- A fallible loop that writes one key at each step has the keys of its steps. -/
theorem mem_keys_foldlM {ε β : Type} {key : β → κ}
    {f : Dict κ α → β → Except ε (Dict κ α)} {xs : List β} {d out : Dict κ α}
    (hStep : ∀ d x d', f d x = .ok d' → ∃ value, d' = d.set (key x) value)
    (h : xs.foldlM f d = .ok out) {k : κ} : k ∈ out.keys ↔ k ∈ d.keys ∨ k ∈ xs.map key := by
  induction xs generalizing d with
  | nil =>
      cases h
      simp
  | cons x xs ih =>
      rw [List.foldlM_cons] at h
      cases hFirst : f d x with
      | error e =>
          rw [hFirst] at h
          cases h
      | ok next =>
          rw [hFirst] at h
          obtain ⟨value, rfl⟩ := hStep d x next hFirst
          rw [ih h, mem_keys_set, List.map_cons, List.mem_cons, or_assoc, or_left_comm]

/-- A dictionary display is no longer than its pairs. -/
theorem length_keys_ofList (pairs : List (κ × α)) : (ofList pairs).keys.length ≤ pairs.length := by
  have hSubset : (ofList pairs).keys ⊆ pairs.map Prod.fst :=
    foldl_set_keys (List.nil_subset _) (fun pair hPair => List.mem_map.mpr ⟨pair, hPair, rfl⟩)
  exact (List.subperm_of_subset (ofList pairs).nodup hSubset).length_le.trans
    (List.length_map _).le

theorem write_of_notMem {key : κ} {value : α} {entries : List (κ × α)}
    (h : key ∉ entries.map Prod.fst) : write key value entries = entries ++ [(key, value)] := by
  induction entries with
  | nil => rfl
  | cons entry rest ih =>
      rw [List.map_cons, List.mem_cons, not_or] at h
      rw [write, if_neg (Ne.symm h.1), ih h.2, List.cons_append]

theorem entries_foldl_set {pairs : List (κ × α)} {d : Dict κ α}
    (h : (d.entries.map Prod.fst ++ pairs.map Prod.fst).Nodup) :
    (pairs.foldl (fun d pair => d.set pair.1 pair.2) d).entries = d.entries ++ pairs := by
  induction pairs generalizing d with
  | nil => simp
  | cons pair rest ih =>
      have hFresh : pair.1 ∉ d.entries.map Prod.fst := fun hMem =>
        (List.nodup_append.mp h).2.2 pair.1 hMem pair.1 (by simp) rfl
      have hSet : (d.set pair.1 pair.2).entries = d.entries ++ [pair] := write_of_notMem hFresh
      rw [List.foldl_cons, ih, hSet, List.append_assoc, List.singleton_append]
      rw [hSet, List.map_append, List.append_assoc]
      simpa using h

/-- A display of distinct keys lists its pairs. -/
theorem entries_ofList {pairs : List (κ × α)} (h : (pairs.map Prod.fst).Nodup) :
    (ofList pairs).entries = pairs := by
  have hEmpty : ((empty : Dict κ α).entries.map Prod.fst ++ pairs.map Prod.fst).Nodup := h
  exact (entries_foldl_set hEmpty).trans (List.nil_append pairs)

theorem mem_values_ofList {pairs : List (κ × α)} {v : α} (h : v ∈ (ofList pairs).values) :
    v ∈ pairs.map Prod.snd := by
  refine foldl_set_values ?_ ?_ v h
  · intro w hw
    cases hw
  · intro pair hPair _ _
    exact List.mem_map.mpr ⟨pair, hPair, rfl⟩

theorem mem_keys_ofList {pairs : List (κ × α)} {key : κ} :
    key ∈ (ofList pairs).keys ↔ key ∈ pairs.map Prod.fst := by
  unfold ofList
  induction pairs using List.reverseRecOn with
  | nil => simp
  | append_singleton rest last ih =>
      rw [List.foldl_append, List.foldl_cons, List.foldl_nil, mem_keys_set, ih, List.map_append,
        List.mem_append, List.map_cons, List.map_nil, List.mem_singleton, or_comm]

/-- A display looks up the last of the pairs of a key. -/
theorem get?_ofList (pairs : List (κ × α)) (key : κ) : (ofList pairs).get? key =
    ((pairs.filter (fun pair => pair.1 = key)).getLast?).map Prod.snd := by
  unfold ofList
  induction pairs using List.reverseRecOn with
  | nil => rfl
  | append_singleton rest last ih =>
      rw [List.foldl_append, List.foldl_cons, List.foldl_nil, get?_set, ih, List.filter_append]
      by_cases hKey : last.1 = key
      · simp [hKey]
      · simp [hKey, Ne.symm hKey]

/-- A display looks up pairs of its own. -/
theorem mem_of_get?_ofList {pairs : List (κ × α)} {key : κ} {value : α}
    (h : (ofList pairs).get? key = some value) : (key, value) ∈ pairs := by
  unfold ofList at h
  induction pairs using List.reverseRecOn with
  | nil => cases h
  | append_singleton rest last ih =>
      rw [List.foldl_append, List.foldl_cons, List.foldl_nil, get?_set] at h
      split at h
      · rename_i hKey
        cases h
        rw [hKey]
        exact List.mem_append_right _ (List.mem_singleton_self _)
      · exact List.mem_append_left _ (ih h)

/-- A key that a display pairs with one value only looks it up. -/
theorem get?_ofList_of_alike {pairs : List (κ × α)} {key : κ} {value : α}
    (hMem : (key, value) ∈ pairs) (hAlike : ∀ other, (key, other) ∈ pairs → other = value) :
    (ofList pairs).get? key = some value := by
  have hKey : key ∈ (ofList pairs).keys :=
    mem_keys_ofList.mpr (List.mem_map.mpr ⟨(key, value), hMem, rfl⟩)
  obtain ⟨found, hFound⟩ := Option.isSome_iff_exists.mp (get?_isSome_iff.mpr hKey)
  rw [hFound, hAlike found (mem_of_get?_ofList hFound)]

/-- Write a function of the key at every listed key. -/
theorem getD_foldl_set (f : κ → α) (xs : List κ) (d : Dict κ α) (key : κ) (fallback : α) :
    (xs.foldl (fun d x => d.set x (f x)) d).getD key fallback =
      if key ∈ xs then f key else d.getD key fallback := by
  induction xs generalizing d with
  | nil => rfl
  | cons x xs ih =>
      rw [List.foldl_cons, ih, getD_set]
      by_cases hx : key = x
      · subst hx
        simp
      · simp [hx]

/-- Values are what the keys look up. -/
theorem values_eq_map (d : Dict κ α) (fallback : α) :
    d.values = d.keys.map (fun key => d.getD key fallback) := by
  rw [values, keys, List.map_map]
  refine List.map_congr_left (fun entry hEntry => ?_)
  rw [Function.comp_apply, getD, get?_of_mem hEntry]
  rfl

theorem mem_values_of_getD {d : Dict κ α} {v : α} (fallback : α) (h : v ∈ d.values) :
    ∃ key ∈ d.keys, d.getD key fallback = v := by
  obtain ⟨⟨key, w⟩, hMem, rfl⟩ := List.mem_map.mp h
  have hGet := get?_of_mem hMem
  exact ⟨key, mem_keys_of_get? hGet, by rw [getD, hGet]; rfl⟩

theorem getD_mem_values {d : Dict κ α} {key : κ} (fallback : α) (h : key ∈ d.keys) :
    d.getD key fallback ∈ d.values := by
  obtain ⟨value, hGet⟩ := Option.isSome_iff_exists.mp (get?_isSome_iff.mpr h)
  rw [getD, hGet]
  exact List.mem_map.mpr ⟨_, mem_of_get? hGet, rfl⟩

end Lookup

section Total

/-- Exact total of a rational-valued dictionary. -/
def total (d : Dict κ ℚ) : ℚ := d.values.sum

@[simp] theorem total_empty : (empty : Dict κ ℚ).total = 0 := rfl

variable [DecidableEq κ]

theorem sum_write (key : κ) (value : ℚ) (entries : List (κ × ℚ)) :
    ((write key value entries).map Prod.snd).sum =
      (entries.map Prod.snd).sum + (value - (find key entries).getD 0) := by
  induction entries with
  | nil => simp [write, find]
  | cons entry rest ih =>
      by_cases h : entry.1 = key
      · simp [write, find, h]
        ring
      · simp only [write, h, if_false, List.map_cons, List.sum_cons, ih, find]
        ring

/-- A write changes the total by the new value less the one it replaces. -/
theorem total_set (d : Dict κ ℚ) (key : κ) (value : ℚ) :
    (d.set key value).total = d.total + (value - d.getD key 0) :=
  sum_write key value d.entries

/-- Adding to a key, starting from zero when it is new, adds to the total. -/
theorem total_set_add (d : Dict κ ℚ) (key : κ) (value : ℚ) :
    (d.set key (d.getD key 0 + value)).total = d.total + value := by
  rw [total_set]
  ring

end Total

end Dict

end Library
