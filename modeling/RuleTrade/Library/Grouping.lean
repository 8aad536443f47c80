import RuleTrade.Library.Dict
import RuleTrade.Library.Sequence

/-! Grouping by a key. Elements with one key are merged, in order, into the first
of them. -/

namespace Library.Grouping

variable {α κ : Type} [DecidableEq κ] (key : α → κ) (merge : α → α → α)

/-- One element joins the group of its key, or opens it. -/
def join (groups : Dict κ α) (x : α) : Dict κ α :=
  match groups.get? (key x) with
  | none => groups.set (key x) x
  | some existing => groups.set (key x) (merge existing x)

def gather (xs : List α) : Dict κ α := xs.foldl (join key merge) Dict.empty

/-- The members of one group, merged into their first. -/
def mergeAll : List α → Option α
  | [] => none
  | first :: rest => some (rest.foldl merge first)

variable {key merge}

theorem mergeAll_append_singleton (xs : List α) (x : α) :
    mergeAll merge (xs ++ [x]) =
      some (match mergeAll merge xs with
        | none => x
        | some merged => merge merged x) := by
  cases xs with
  | nil => rfl
  | cons first rest => simp [mergeAll]

theorem get?_join (groups : Dict κ α) (x : α) (k : κ) :
    (join key merge groups x).get? k =
      if k = key x then some (match groups.get? (key x) with
        | none => x
        | some existing => merge existing x)
      else groups.get? k := by
  rw [join]
  cases hGroup : groups.get? (key x) with
  | none => rw [Dict.get?_set]
  | some existing => rw [Dict.get?_set]

/-- A group holds its members merged in order. -/
theorem get?_gather (xs : List α) (k : κ) :
    (gather key merge xs).get? k = mergeAll merge (xs.filter (fun x => key x = k)) := by
  induction xs using List.reverseRecOn generalizing k with
  | nil => rfl
  | append_singleton xs x ih =>
      rw [gather, List.foldl_append, List.foldl_cons, List.foldl_nil]
      change (join key merge (gather key merge xs) x).get? k = _
      rw [get?_join, ih, ih, List.filter_append]
      by_cases hKey : k = key x
      · subst hKey
        rw [if_pos rfl, List.filter_cons_of_pos (by simp), List.filter_nil,
          mergeAll_append_singleton]
      · rw [if_neg hKey, List.filter_cons_of_neg (by simp [Ne.symm hKey]), List.filter_nil,
          List.append_nil]

/-- Elements with distinct keys stay as they are. -/
theorem values_gather_of_nodup {xs : List α} (h : (xs.map key).Nodup) :
    (gather key merge xs).values = xs := by
  have hEntries : (gather key merge xs).entries = xs.map (fun x => (key x, x)) := by
    induction xs using List.reverseRecOn with
    | nil => rfl
    | append_singleton xs x ih =>
        rw [List.map_append, List.nodup_append] at h
        have hFresh : (gather key merge xs).get? (key x) = none := by
          rw [get?_gather, List.filter_eq_nil_iff.mpr]
          · rfl
          · intro y hy hSame
            exact h.2.2 (key y) (List.mem_map_of_mem hy) (key x) (by simp) (by simpa using hSame)
        rw [gather, List.foldl_append, List.foldl_cons, List.foldl_nil]
        change (join key merge (gather key merge xs) x).entries = _
        rw [join, hFresh]
        change Dict.write _ _ _ = _
        rw [Dict.write_of_notMem (Dict.get?_eq_none_iff.mp hFresh), ih h.1, List.map_append]
        rfl
  rw [Dict.values, hEntries, List.map_map]
  exact List.map_id xs

section Stable

variable (hMerge : ∀ a b, key (merge a b) = key a)

include hMerge

omit [DecidableEq κ] in
/-- Merging keeps the key of a group. -/
theorem key_of_mergeAll {xs : List α} {k : κ} {merged : α} (hAll : ∀ x ∈ xs, key x = k)
    (h : mergeAll merge xs = some merged) : key merged = k := by
  cases xs with
  | nil => cases h
  | cons first rest =>
      cases h
      have hFold : ∀ start, key (rest.foldl merge start) = key start := by
        induction rest with
        | nil => exact fun start => rfl
        | cons x rest ih =>
            intro start
            have hRest : ∀ y ∈ first :: rest, key y = k := by
              intro y hy
              rcases List.mem_cons.mp hy with rfl | hy
              · exact hAll _ List.mem_cons_self
              · exact hAll y (List.mem_cons_of_mem _ (List.mem_cons_of_mem x hy))
            rw [List.foldl_cons, ih hRest, hMerge]
      rw [hFold, hAll first List.mem_cons_self]

theorem map_key_gather (xs : List α) :
    (gather key merge xs).values.map key = (gather key merge xs).keys := by
  rw [Dict.values, Dict.keys, List.map_map]
  apply List.map_congr_left
  rintro ⟨k, merged⟩ hEntry
  have hGroup := Dict.get?_of_mem hEntry
  rw [get?_gather] at hGroup
  exact key_of_mergeAll hMerge (fun x hx => by simpa using (List.mem_filter.mp hx).2) hGroup

/-- No two groups have one key. -/
theorem nodup_key_gather (xs : List α) : ((gather key merge xs).values.map key).Nodup := by
  rw [map_key_gather hMerge]
  exact (gather key merge xs).nodup

/-- The groups are the merged members of each key. -/
theorem mem_values_gather {xs : List α} {merged : α} :
    merged ∈ (gather key merge xs).values ↔
      mergeAll merge (xs.filter (fun x => key x = key merged)) = some merged := by
  rw [← get?_gather]
  constructor
  · intro hMem
    obtain ⟨⟨k, v⟩, hEntry, rfl⟩ := List.mem_map.mp hMem
    have hGroup := Dict.get?_of_mem hEntry
    rw [get?_gather] at hGroup
    have hKey := key_of_mergeAll hMerge (fun x hx => by simpa using (List.mem_filter.mp hx).2)
      hGroup
    show (gather key merge xs).get? (key v) = some v
    rw [hKey, get?_gather]
    exact hGroup
  · intro hGroup
    exact List.mem_map.mpr ⟨_, Dict.mem_of_get? hGroup, rfl⟩

end Stable

end Library.Grouping
