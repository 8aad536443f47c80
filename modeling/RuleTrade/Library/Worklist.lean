import Mathlib.Data.List.Basic
import Mathlib.Data.List.Nodup
import Mathlib.Data.List.Perm.Subperm
import Mathlib.Logic.Relation
import Mathlib.Tactic.Ring

/-! Search with a stack of pending nodes. A node is expanded when it is taken for the
first time, or marked when an edge leads to it. The fuel bounds the number of nodes that are
taken. -/

namespace Library.Worklist

variable {α : Type} [DecidableEq α] (next : α → List α)

/-- The nodes that a search sees, the last of the list being those it saw first. -/
def explore : Nat → List α → List α → Option (List α)
  | _, [], seen => some seen
  | 0, _ :: _, _ => none
  | fuel + 1, node :: rest, seen =>
      if node ∈ seen then explore fuel rest seen
      else explore fuel (next node ++ rest) (node :: seen)

/-- A node leads to another in one step. -/
def LeadsTo (parent child : α) : Prop := child ∈ next parent

variable {next}

section Discovery

/-- The nodes of a list that were not found, each once. -/
def freshOf (found : List α) : List α → List α
  | [] => []
  | node :: rest =>
      if node ∈ found then freshOf found rest else node :: freshOf (node :: found) rest

/-- The nodes that a search finds when it marks a node as soon as an edge leads to it. The nodes
it starts from are found only through an edge. -/
def discover (next : α → List α) : Nat → List α → List α → Option (List α)
  | _, [], found => some found
  | 0, _ :: _, _ => none
  | fuel + 1, node :: rest, found =>
      let new := freshOf found (next node)
      discover next fuel (new.reverse ++ rest) (new.reverse ++ found)

theorem mem_freshOf {found nodes : List α} {node : α} :
    node ∈ freshOf found nodes ↔ node ∈ nodes ∧ node ∉ found := by
  induction nodes generalizing found with
  | nil => simp [freshOf]
  | cons head rest ih =>
      rw [freshOf]
      by_cases hHead : head ∈ found
      · rw [if_pos hHead, ih, List.mem_cons]
        constructor
        · rintro ⟨hRest, hNew⟩
          exact ⟨Or.inr hRest, hNew⟩
        · rintro ⟨rfl | hRest, hNew⟩
          · exact absurd hHead hNew
          · exact ⟨hRest, hNew⟩
      · rw [if_neg hHead, List.mem_cons, ih, List.mem_cons, List.mem_cons]
        by_cases hSame : node = head
        · simp [hSame, hHead]
        · simp [hSame]

theorem nodup_freshOf (found nodes : List α) : (freshOf found nodes).Nodup := by
  induction nodes generalizing found with
  | nil => exact List.nodup_nil
  | cons head rest ih =>
      rw [freshOf]
      by_cases hHead : head ∈ found
      · rw [if_pos hHead]
        exact ih found
      · rw [if_neg hHead]
        refine List.nodup_cons.mpr ⟨fun hAgain => ?_, ih _⟩
        exact (mem_freshOf.mp hAgain).2 List.mem_cons_self

/-- Nodes that are found leave as many fewer to find. -/
theorem length_filter_fresh {nodes found new : List α} (hNew : new.Nodup)
    (hNodes : ∀ node ∈ new, node ∈ nodes ∧ node ∉ found) :
    new.length + (nodes.filter (· ∉ new.reverse ++ found)).length ≤
      (nodes.filter (· ∉ found)).length := by
  have hFound : new.Subperm ((nodes.filter (· ∉ found)).filter (· ∈ new)) := by
    apply hNew.subperm
    intro node hNode
    obtain ⟨hMem, hNot⟩ := hNodes node hNode
    simp [List.mem_filter, hMem, hNot, hNode]
  have hRest : nodes.filter (· ∉ new.reverse ++ found) =
      (nodes.filter (· ∉ found)).filter (fun node => ! decide (node ∈ new)) := by
    rw [List.filter_filter]
    apply List.filter_congr
    intro node _
    simp
  have hSplit := List.length_eq_length_filter_add (l := nodes.filter (· ∉ found))
    fun node => decide (node ∈ new)
  rw [hRest]
  have := hFound.length_le
  omega

/-- With fuel for the nodes that edges lead to, the discovery ends. -/
theorem discover_isSome {nodes : List α} (hInside : ∀ node, ∀ child ∈ next node, child ∈ nodes)
    {fuel : Nat} {pending found : List α}
    (hFuel : pending.length + (nodes.filter (· ∉ found)).length ≤ fuel) :
    ∃ result, discover next fuel pending found = some result := by
  induction fuel generalizing pending found with
  | zero =>
      cases pending with
      | nil => exact ⟨found, rfl⟩
      | cons node rest => simp at hFuel
  | succ fuel ih =>
      cases pending with
      | nil => exact ⟨found, rfl⟩
      | cons node rest =>
          rw [discover]
          apply ih
          have hFewer := length_filter_fresh (nodup_freshOf found (next node))
            (fun child hChild => ⟨hInside node child (mem_freshOf.mp hChild).1,
              (mem_freshOf.mp hChild).2⟩)
          simp only [List.length_cons, List.length_append, List.length_reverse] at hFuel ⊢
          omega

theorem nodup_discover {fuel : Nat} {pending found result : List α} (hFound : found.Nodup)
    (h : discover next fuel pending found = some result) : result.Nodup := by
  induction fuel generalizing pending found with
  | zero =>
      cases pending with
      | nil =>
          cases h
          exact hFound
      | cons node rest => cases h
  | succ fuel ih =>
      cases pending with
      | nil =>
          cases h
          exact hFound
      | cons node rest =>
          refine ih ?_ h
          refine List.nodup_append.mpr ⟨List.nodup_reverse.mpr (nodup_freshOf _ _), hFound, ?_⟩
          intro fresh hFresh old hOld hSame
          subst hSame
          exact (mem_freshOf.mp (List.mem_reverse.mp hFresh)).2 hOld

omit [DecidableEq α] in
/-- A path from a found node ends at a found node or passes a pending one. -/
theorem found_or_pending {pending found : List α}
    (hClosed : ∀ node ∈ found, node ∈ pending ∨ ∀ child ∈ next node, child ∈ found) {start node : α}
    (hPath : Relation.TransGen (LeadsTo next) start node) (hStart : start ∈ found) :
    node ∈ found ∨ ∃ root ∈ pending, Relation.TransGen (LeadsTo next) root node := by
  induction hPath using Relation.TransGen.head_induction_on with
  | single hEdge =>
      rcases hClosed _ hStart with hPending | hChildren
      · exact Or.inr ⟨_, hPending, .single hEdge⟩
      · exact Or.inl (hChildren _ hEdge)
  | head hEdge hRest ih =>
      rcases hClosed _ hStart with hPending | hChildren
      · exact Or.inr ⟨_, hPending, .head hEdge hRest⟩
      · exact ih (hChildren _ hEdge)

/-- What a discovery finds: what the pending nodes lead to, and nothing else. -/
theorem mem_discover {fuel : Nat} {pending found result : List α}
    (h : discover next fuel pending found = some result)
    (hClosed : ∀ node ∈ found, node ∈ pending ∨ ∀ child ∈ next node, child ∈ found) (node : α) :
    node ∈ result ↔ node ∈ found ∨
      ∃ root ∈ pending, Relation.TransGen (LeadsTo next) root node := by
  induction fuel generalizing pending found with
  | zero =>
      cases pending with
      | nil =>
          cases h
          simp
      | cons root rest => cases h
  | succ fuel ih =>
      cases pending with
      | nil =>
          cases h
          simp
      | cons root rest =>
          have hSplit : ∀ x, x ∈ (freshOf found (next root)).reverse ++ found ↔
              x ∈ next root ∨ x ∈ found := by
            intro x
            rw [List.mem_append, List.mem_reverse, mem_freshOf]
            by_cases hx : x ∈ found <;> simp [hx]
          have hStill : ∀ x ∈ (freshOf found (next root)).reverse ++ found,
              x ∈ (freshOf found (next root)).reverse ++ rest ∨
                ∀ child ∈ next x, child ∈ (freshOf found (next root)).reverse ++ found := by
            intro x hx
            rcases List.mem_append.mp hx with hNew | hOld
            · exact Or.inl (List.mem_append_left _ hNew)
            · rcases hClosed x hOld with hPending | hChildren
              · rcases List.mem_cons.mp hPending with rfl | hRest
                · exact Or.inr fun child hChild => (hSplit child).mpr (Or.inl hChild)
                · exact Or.inl (List.mem_append_right _ hRest)
              · exact Or.inr fun child hChild =>
                  List.mem_append_right _ (hChildren child hChild)
          rw [ih h hStill, hSplit]
          constructor
          · rintro ((hChild | hOld) | ⟨other, hOther, hPath⟩)
            · exact Or.inr ⟨root, List.mem_cons_self, .single hChild⟩
            · exact Or.inl hOld
            · rcases List.mem_append.mp hOther with hNew | hRest
              · have hEdge := (mem_freshOf.mp (List.mem_reverse.mp hNew)).1
                exact Or.inr ⟨root, List.mem_cons_self, .head hEdge hPath⟩
              · exact Or.inr ⟨other, List.mem_cons_of_mem _ hRest, hPath⟩
          · rintro (hOld | ⟨other, hOther, hPath⟩)
            · exact Or.inl (Or.inr hOld)
            · rcases List.mem_cons.mp hOther with rfl | hRest
              · rcases Relation.TransGen.head'_iff.mp hPath with ⟨child, hEdge, hLater⟩
                have hFound := (hSplit child).mpr (Or.inl hEdge)
                rcases Relation.reflTransGen_iff_eq_or_transGen.mp hLater with hSame | hLater
                · exact Or.inl (Or.inl (hSame ▸ hEdge))
                · rcases found_or_pending hStill hLater hFound with hEnd | hEnd
                  · exact Or.inl ((hSplit node).mp hEnd)
                  · exact Or.inr hEnd
              · exact Or.inr ⟨other, List.mem_append_right _ hRest, hPath⟩

end Discovery

end Library.Worklist
