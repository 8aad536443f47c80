import Mathlib.Data.List.Basic
import Mathlib.Data.List.Nodup
import Mathlib.Data.List.Perm.Basic

/-! Outlines: trees that are laid out as one list of entries, parents before
children. A content that is marked as shared is laid out once per name, with
everything under it; every other content is laid out wherever it stands. -/

namespace Library

inductive Outline (α : Type) where
  | node (content : α) (children : List (Outline α))

namespace Outline

section Layout

variable {α κ : Type} [DecidableEq κ] (name : α → κ) (shared : α → Bool)

def content : Outline α → α
  | .node a _ => a

def children : Outline α → List (Outline α)
  | .node _ children => children

mutual

/-- The outline and every outline under it, depth first. -/
def nodes : Outline α → List (Outline α)
  | .node a children => .node a children :: allNodes children

def allNodes : List (Outline α) → List (Outline α)
  | [] => []
  | t :: rest => t.nodes ++ allNodes rest

end

mutual

/-- All contents depth first, each with the name it stands under. -/
def entries (parent : Option κ) : Outline α → List (α × Option κ)
  | .node a children => (a, parent) :: allEntries (some (name a)) children

def allEntries (parent : Option κ) : List (Outline α) → List (α × Option κ)
  | [] => []
  | t :: rest => entries parent t ++ allEntries parent rest

end

mutual

/-- Append the entries of an outline, unless its content is shared and its name
is placed. -/
def place (parent : Option κ) : Outline α → List (α × Option κ) → List (α × Option κ)
  | .node a children, placed =>
      if shared a && placed.any (fun entry => name entry.1 = name a) then placed
      else placeAll (some (name a)) children (placed ++ [(a, parent)])

def placeAll (parent : Option κ) : List (Outline α) → List (α × Option κ) → List (α × Option κ)
  | [], placed => placed
  | t :: rest, placed => placeAll parent rest (place parent t placed)

end

/-- Names of the entries. -/
def names (placed : List (α × Option κ)) : List κ := placed.map (fun entry => name entry.1)

/-- Outlines of one name have children of the same names. -/
def Coherent (t : Outline α) : Prop :=
  ∀ n ∈ t.nodes, ∀ m ∈ t.nodes, name n.content = name m.content →
    n.children.map (fun c => name c.content) = m.children.map (fun c => name c.content)

/-- Everything under a shared content is shared. -/
def SharesBelow (t : Outline α) : Prop :=
  ∀ n ∈ t.nodes, shared n.content = true → ∀ c ∈ n.children, shared c.content = true

end Layout

section Nodes

variable {α κ : Type} {name : α → κ} {shared : α → Bool}

theorem self_mem_nodes (t : Outline α) : t ∈ t.nodes := by
  cases t with
  | node a children => exact List.mem_cons_self

theorem mem_allNodes {n : Outline α} {ts : List (Outline α)} :
    n ∈ allNodes ts ↔ ∃ t ∈ ts, n ∈ t.nodes := by
  induction ts with
  | nil => simp [allNodes]
  | cons t rest ih => simp [allNodes, ih]

@[simp] theorem allNodes_append (ts us : List (Outline α)) :
    allNodes (ts ++ us) = allNodes ts ++ allNodes us := by
  induction ts with
  | nil => rfl
  | cons t rest ih => rw [List.cons_append, allNodes, allNodes, ih, List.append_assoc]

theorem allNodes_subset_nodes {a : α} {children : List (Outline α)} :
    allNodes children ⊆ (Outline.node a children).nodes := by
  intro n hn
  exact List.mem_cons_of_mem _ hn

theorem nodes_subset_allNodes {t : Outline α} {ts : List (Outline α)} (h : t ∈ ts) :
    t.nodes ⊆ allNodes ts := by
  intro n hn
  exact mem_allNodes.mpr ⟨t, h, hn⟩

mutual

/-- What passes from each outline to its children passes from the root to all. -/
theorem forall_nodes {P : Outline α → Prop} : ∀ t : Outline α, P t →
    (∀ n ∈ t.nodes, P n → ∀ c ∈ n.children, P c) → ∀ n ∈ t.nodes, P n
  | .node a children, hRoot, hStep, n, hn => by
      rcases List.mem_cons.mp hn with rfl | hn
      · exact hRoot
      · apply forall_allNodes children _ _ n hn
        · exact hStep _ (self_mem_nodes _) hRoot
        · intro m hm
          exact hStep m (allNodes_subset_nodes hm)

theorem forall_allNodes {P : Outline α → Prop} : ∀ ts : List (Outline α), (∀ t ∈ ts, P t) →
    (∀ n ∈ allNodes ts, P n → ∀ c ∈ n.children, P c) → ∀ n ∈ allNodes ts, P n
  | [], _, _, n, hn => absurd hn List.not_mem_nil
  | t :: rest, hRoots, hStep, n, hn => by
      rcases List.mem_append.mp hn with hn | hn
      · apply forall_nodes t (hRoots t List.mem_cons_self) _ n hn
        intro m hm
        exact hStep m (List.mem_append_left _ hm)
      · apply forall_allNodes rest (fun u hu => hRoots u (List.mem_cons_of_mem _ hu)) _ n hn
        intro m hm
        exact hStep m (List.mem_append_right _ hm)

end

@[simp] theorem allEntries_append (parent : Option κ) (ts us : List (Outline α)) :
    allEntries name parent (ts ++ us) = allEntries name parent ts ++ allEntries name parent us := by
  induction ts with
  | nil => rfl
  | cons t rest ih => rw [List.cons_append, allEntries, allEntries, ih, List.append_assoc]

mutual

theorem contents_entries (parent : Option κ) : ∀ t : Outline α,
    (entries name parent t).map Prod.fst = t.nodes.map content
  | .node a children => by
      rw [entries, nodes, List.map_cons, List.map_cons, contents_allEntries]
      rfl

theorem contents_allEntries (parent : Option κ) : ∀ ts : List (Outline α),
    (allEntries name parent ts).map Prod.fst = (allNodes ts).map content
  | [] => rfl
  | t :: rest => by
      rw [allEntries, allNodes, List.map_append, List.map_append, contents_entries,
        contents_allEntries]

end

theorem names_subset {placed placed' : List (α × Option κ)} (h : placed <+: placed') :
    names name placed ⊆ names name placed' := by
  intro k hk
  obtain ⟨entry, hEntry, rfl⟩ := List.mem_map.mp hk
  exact List.mem_map_of_mem (h.subset hEntry)

/-- Entries whose content is not shared. -/
def unshared (shared : α → Bool) (placed : List (α × Option κ)) : List (α × Option κ) :=
  placed.filter (fun entry => !shared entry.1)

theorem SharesBelow.unshared_entries {t : Outline α} (h : SharesBelow shared t)
    (hShared : shared t.content = true) (parent : Option κ) :
    unshared shared (entries name parent t) = [] := by
  apply List.filter_eq_nil_iff.mpr
  intro entry hEntry
  have hContent : entry.1 ∈ t.nodes.map content := by
    have hContents : (entries name parent t).map Prod.fst = t.nodes.map content :=
      contents_entries parent t
    rw [← hContents]
    exact List.mem_map_of_mem hEntry
  obtain ⟨n, hn, hContent⟩ := List.mem_map.mp hContent
  simp [← hContent, forall_nodes (P := fun n => shared n.content = true) t hShared h n hn]

theorem names_unshared_entries (parent : Option κ) (t : Outline α) :
    names name (unshared shared (entries name parent t)) =
      (t.nodes.filter (fun n => !shared n.content)).map (fun n => name n.content) := by
  have hContents : (entries name parent t).map Prod.fst = t.nodes.map content :=
    contents_entries parent t
  have hFiltered := congrArg (fun contents => (contents.filter (fun a => !shared a)).map name)
    hContents
  simpa [names, unshared, List.filter_map, Function.comp_def] using hFiltered

/-- An outline is coherent when it is so on shared contents, names of other
contents do not repeat, and none of these is a shared name. -/
theorem coherent_of_apart {t : Outline α} {parent : Option κ}
    (hShared : ∀ n ∈ t.nodes, ∀ m ∈ t.nodes, shared n.content = true → shared m.content = true →
      name n.content = name m.content →
      n.children.map (fun c => name c.content) = m.children.map (fun c => name c.content))
    (hUnshared : (names name (unshared shared (entries name parent t))).Nodup)
    (hApart : ∀ n ∈ t.nodes, ∀ m ∈ t.nodes, shared n.content = true → shared m.content = false →
      name n.content ≠ name m.content) : Coherent name t := by
  intro n hn m hm hName
  rw [names_unshared_entries] at hUnshared
  cases hnShared : shared n.content <;> cases hmShared : shared m.content
  · have hSame : n = m := List.inj_on_of_nodup_map hUnshared
      (List.mem_filter.mpr ⟨hn, by simp [hnShared]⟩) (List.mem_filter.mpr ⟨hm, by simp [hmShared]⟩)
      hName
    rw [hSame]
  · exact absurd hName.symm (hApart m hm n hn hmShared hnShared)
  · exact absurd hName (hApart n hn m hm hnShared hmShared)
  · exact hShared n hn m hm hnShared hmShared hName

/-- Keys are distinct when they are so on both sides of a test and across it. -/
theorem nodup_map_of_filter {f : α → κ} {p : α → Bool} {xs : List α}
    (hPass : ((xs.filter p).map f).Nodup) (hFail : ((xs.filter (fun x => !p x)).map f).Nodup)
    (hApart : ∀ x ∈ xs, ∀ y ∈ xs, p x = true → p y = false → f x ≠ f y) : (xs.map f).Nodup := by
  have hSplit := (List.filter_append_perm p xs).map f
  refine hSplit.nodup_iff.mp ?_
  rw [List.map_append, List.nodup_append']
  refine ⟨hPass, hFail, fun k hk hk' => ?_⟩
  obtain ⟨x, hx, rfl⟩ := List.mem_map.mp hk
  obtain ⟨y, hy, hSame⟩ := List.mem_map.mp hk'
  obtain ⟨hx, hxPass⟩ := List.mem_filter.mp hx
  obtain ⟨hy, hyFail⟩ := List.mem_filter.mp hy
  exact hApart x hx y hy hxPass (by simpa using hyFail) hSame.symm

end Nodes

section Placement

variable {α κ : Type} [DecidableEq κ] {name : α → κ} {shared : α → Bool}

mutual

/-- Nothing that is placed is moved. -/
theorem prefix_place (parent : Option κ) : ∀ (t : Outline α) (placed : List (α × Option κ)),
    placed <+: place name shared parent t placed
  | .node a children, placed => by
      rw [place]
      split
      · exact List.prefix_refl placed
      · exact (List.prefix_append placed _).trans (prefix_placeAll _ children _)

theorem prefix_placeAll (parent : Option κ) : ∀ (ts : List (Outline α))
    (placed : List (α × Option κ)), placed <+: placeAll name shared parent ts placed
  | [], placed => List.prefix_refl placed
  | t :: rest, placed => by
      rw [placeAll]
      exact (prefix_place parent t placed).trans (prefix_placeAll parent rest _)

end

theorem any_name_iff {placed : List (α × Option κ)} {k : κ} :
    placed.any (fun entry => name entry.1 = k) = true ↔ k ∈ names name placed := by
  simp [names]

theorem name_mem_place (parent : Option κ) (t : Outline α) (placed : List (α × Option κ)) :
    name t.content ∈ names name (place name shared parent t placed) := by
  cases t with
  | node a children =>
      rw [place]
      split
      · rename_i hPresent
        rw [Bool.and_eq_true, any_name_iff] at hPresent
        exact hPresent.2
      · apply names_subset (prefix_placeAll _ children _)
        simp [names, content]

theorem name_mem_placeAll (parent : Option κ) {ts : List (Outline α)} {t : Outline α}
    (h : t ∈ ts) (placed : List (α × Option κ)) :
    name t.content ∈ names name (placeAll name shared parent ts placed) := by
  induction ts generalizing placed with
  | nil => cases h
  | cons first rest ih =>
      rw [placeAll]
      rcases List.mem_cons.mp h with rfl | h
      · exact names_subset (prefix_placeAll parent rest _) (name_mem_place parent t placed)
      · exact ih h _

mutual

/-- An entry was placed before, or it is the content of an outline whose
children are all placed under their names. -/
theorem mem_place (parent : Option κ) : ∀ (t : Outline α) (placed : List (α × Option κ)),
    ∀ entry ∈ place name shared parent t placed, entry ∈ placed ∨ ∃ n ∈ t.nodes,
      entry.1 = n.content ∧ ∀ c ∈ n.children,
        name c.content ∈ names name (place name shared parent t placed)
  | .node a children, placed, entry, hEntry => by
      rw [place] at hEntry ⊢
      split at hEntry
      · exact .inl hEntry
      · rename_i hOpen
        rw [if_neg hOpen]
        rcases mem_placeAll _ children _ entry hEntry with hPlaced | ⟨n, hn, hContent, hBelow⟩
        · rcases List.mem_append.mp hPlaced with hPlaced | hNew
          · exact .inl hPlaced
          · rw [List.mem_singleton.mp hNew]
            exact .inr ⟨_, self_mem_nodes _, rfl, fun c hc => name_mem_placeAll _ hc _⟩
        · exact .inr ⟨n, allNodes_subset_nodes hn, hContent, hBelow⟩

theorem mem_placeAll (parent : Option κ) : ∀ (ts : List (Outline α)) (placed : List (α × Option κ)),
    ∀ entry ∈ placeAll name shared parent ts placed, entry ∈ placed ∨ ∃ n ∈ allNodes ts,
      entry.1 = n.content ∧ ∀ c ∈ n.children,
        name c.content ∈ names name (placeAll name shared parent ts placed)
  | [], placed, entry, hEntry => .inl hEntry
  | t :: rest, placed, entry, hEntry => by
      rw [placeAll] at hEntry ⊢
      rcases mem_placeAll parent rest _ entry hEntry with hPlaced | ⟨n, hn, hContent, hBelow⟩
      · rcases mem_place parent t placed entry hPlaced with hPlaced | ⟨n, hn, hContent, hBelow⟩
        · exact .inl hPlaced
        · refine .inr ⟨n, List.mem_append_left _ hn, hContent, fun c hc => ?_⟩
          exact names_subset (prefix_placeAll parent rest _) (hBelow c hc)
      · exact .inr ⟨n, List.mem_append_right _ hn, hContent, hBelow⟩

end

/-- The layout of a coherent outline misses no name. -/
theorem Coherent.name_mem {t : Outline α} (h : Coherent name t) (parent : Option κ) :
    ∀ n ∈ t.nodes, name n.content ∈ names name (place name shared parent t []) := by
  apply forall_nodes (P := fun n => name n.content ∈ names name (place name shared parent t [])) t
    (name_mem_place parent t [])
  intro n hn hName c hc
  obtain ⟨entry, hEntry, hSame⟩ := List.mem_map.mp hName
  rcases mem_place parent t [] entry hEntry with hNone | ⟨m, hm, hContent, hBelow⟩
  · exact absurd hNone List.not_mem_nil
  · rw [hContent] at hSame
    have hChild : name c.content ∈ m.children.map (fun c => name c.content) := by
      rw [h m hm n hn hSame]
      exact List.mem_map_of_mem hc
    obtain ⟨d, hd, hChild⟩ := List.mem_map.mp hChild
    rw [← hChild]
    exact hBelow d hd

mutual

/-- Parents are names of the layout. -/
theorem parents_known_place {parent : Option κ} : ∀ (t : Outline α) (placed : List (α × Option κ)),
    (∀ k ∈ parent, k ∈ names name placed) →
    (∀ entry ∈ placed, ∀ k ∈ entry.2, k ∈ names name placed) →
    ∀ entry ∈ place name shared parent t placed, ∀ k ∈ entry.2,
      k ∈ names name (place name shared parent t placed)
  | .node a children, placed, hParent, hPlaced => by
      rw [place]
      split
      · exact hPlaced
      · have hGrown : names name placed ⊆ names name (placed ++ [(a, parent)]) :=
          names_subset (List.prefix_append placed _)
        apply parents_known_placeAll children
        · intro k hk
          rw [Option.mem_some_iff.mp hk |>.symm]
          simp [names]
        · intro entry hEntry k hk
          rcases List.mem_append.mp hEntry with hEntry | hEntry
          · exact hGrown (hPlaced entry hEntry k hk)
          · rw [List.mem_singleton.mp hEntry] at hk
            exact hGrown (hParent k hk)

theorem parents_known_placeAll {parent : Option κ} : ∀ (ts : List (Outline α))
    (placed : List (α × Option κ)), (∀ k ∈ parent, k ∈ names name placed) →
    (∀ entry ∈ placed, ∀ k ∈ entry.2, k ∈ names name placed) →
    ∀ entry ∈ placeAll name shared parent ts placed, ∀ k ∈ entry.2,
      k ∈ names name (placeAll name shared parent ts placed)
  | [], placed, _, hPlaced => hPlaced
  | t :: rest, placed, hParent, hPlaced => by
      rw [placeAll]
      apply parents_known_placeAll rest
      · intro k hk
        exact names_subset (prefix_place parent t placed) (hParent k hk)
      · exact parents_known_place t placed hParent hPlaced

end

theorem parents_known (t : Outline α) : ∀ entry ∈ place name shared none t [],
    ∀ k ∈ entry.2, k ∈ names name (place name shared none t []) := by
  apply parents_known_place
  · intro k hk
    cases hk
  · intro entry hEntry
    cases hEntry

end Placement

section Unshared

variable {α κ : Type} [DecidableEq κ] {name : α → κ} {shared : α → Bool}

mutual

/-- Contents that are not shared are laid out depth first, each under its parent. -/
theorem unshared_place (parent : Option κ) : ∀ (t : Outline α) (placed : List (α × Option κ)),
    SharesBelow shared t → unshared shared (place name shared parent t placed) =
      unshared shared placed ++ unshared shared (entries name parent t)
  | .node a children, placed, h => by
      rw [place]
      split
      · rename_i hPresent
        rw [h.unshared_entries (Bool.and_eq_true_iff.mp hPresent).1, List.append_nil]
      · rw [unshared_placeAll _ children _ (fun n hn => h n (allNodes_subset_nodes hn)), entries]
        simp only [unshared, List.filter_append, List.append_assoc]
        rw [← List.filter_append, List.singleton_append]

theorem unshared_placeAll (parent : Option κ) : ∀ (ts : List (Outline α))
    (placed : List (α × Option κ)),
    (∀ n ∈ allNodes ts, shared n.content = true → ∀ c ∈ n.children, shared c.content = true) →
    unshared shared (placeAll name shared parent ts placed) =
      unshared shared placed ++ unshared shared (allEntries name parent ts)
  | [], placed, _ => by simp [placeAll, allEntries, unshared]
  | t :: rest, placed, h => by
      rw [placeAll, unshared_placeAll parent rest _ (fun n hn => h n (List.mem_append_right _ hn)),
        unshared_place parent t placed (fun n hn => h n (List.mem_append_left _ hn)), allEntries]
      simp only [unshared, List.filter_append, List.append_assoc]

end

mutual

/-- A shared content is placed only under a new name. -/
theorem shared_nodup_place (parent : Option κ) : ∀ (t : Outline α) (placed : List (α × Option κ)),
    (names name (placed.filter (fun entry => shared entry.1))).Nodup →
    (names name ((place name shared parent t placed).filter (fun entry => shared entry.1))).Nodup
  | .node a children, placed, h => by
      rw [place]
      split
      · exact h
      · rename_i hOpen
        apply shared_nodup_placeAll
        rw [List.filter_append, names, List.map_append, List.nodup_append']
        refine ⟨h, ?_, ?_⟩
        · cases hShared : shared a <;> simp [hShared]
        · intro k hk hNew
          obtain ⟨entry, hEntry, rfl⟩ := List.mem_map.mp hk
          cases hShared : shared a with
          | false => simp [hShared] at hNew
          | true =>
              simp only [hShared, List.filter_cons_of_pos, List.filter_nil, List.map_cons,
                List.map_nil, List.mem_singleton] at hNew
              apply hOpen
              rw [Bool.and_eq_true, any_name_iff, ← hNew]
              exact ⟨hShared, List.mem_map_of_mem (List.mem_of_mem_filter hEntry)⟩

theorem shared_nodup_placeAll (parent : Option κ) : ∀ (ts : List (Outline α))
    (placed : List (α × Option κ)),
    (names name (placed.filter (fun entry => shared entry.1))).Nodup →
    (names name ((placeAll name shared parent ts placed).filter
      (fun entry => shared entry.1))).Nodup
  | [], placed, h => h
  | t :: rest, placed, h => by
      rw [placeAll]
      exact shared_nodup_placeAll parent rest _ (shared_nodup_place parent t placed h)

end

/-- Names do not repeat, when those of unshared contents do not and none of
these is a shared name. -/
theorem nodup_names_place {t : Outline α} (parent : Option κ) (h : SharesBelow shared t)
    (hUnshared : (names name (unshared shared (entries name parent t))).Nodup)
    (hApart : ∀ n ∈ t.nodes, ∀ m ∈ t.nodes, shared n.content = true → shared m.content = false →
      name n.content ≠ name m.content) :
    (names name (place name shared parent t [])).Nodup := by
  have hContent {entry : α × Option κ} (hEntry : entry ∈ place name shared parent t []) :
      ∃ n ∈ t.nodes, entry.1 = n.content := by
    rcases mem_place parent t [] entry hEntry with hNone | ⟨n, hn, hContent, -⟩
    · exact absurd hNone List.not_mem_nil
    · exact ⟨n, hn, hContent⟩
  apply nodup_map_of_filter (shared_nodup_place parent t [] List.nodup_nil)
  · have hEntries : unshared shared (place name shared parent t []) = _ :=
      unshared_place parent t [] h
    rw [show unshared shared ([] : List (α × Option κ)) = [] from rfl, List.nil_append] at hEntries
    rw [← hEntries] at hUnshared
    exact hUnshared
  · intro entry hEntry other hOther hShared hNot
    obtain ⟨n, hn, hEntryContent⟩ := hContent hEntry
    obtain ⟨m, hm, hOtherContent⟩ := hContent hOther
    rw [hEntryContent] at hShared ⊢
    rw [hOtherContent] at hNot ⊢
    exact hApart n hn m hm hShared hNot

end Unshared

end Outline

end Library
