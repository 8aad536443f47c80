import Mathlib.Data.List.Count
import Mathlib.Logic.Relation
import Mathlib.Tactic.Basic

/-! Depth-first search in a graph given by the successors of each node. One search
looks for a cycle and colours the nodes, the other marks what a node reaches. The
fuel of a search bounds the depth of its recursion. -/

namespace Library.DepthFirst

variable {α σ : Type}

/-- Try the items in turn, with a state, until one finds what it looks for. -/
def anyOf (step : α → σ → Option (Bool × σ)) : List α → σ → Option (Bool × σ)
  | [], state => some (false, state)
  | item :: rest, state =>
      match step item state with
      | none => none
      | some (true, after) => some (true, after)
      | some (false, after) => anyOf step rest after

/-- Nodes on the current path and nodes that are done. -/
structure Colours (α : Type) where
  visiting : List α
  visited : List α
  deriving DecidableEq, Repr

section Search

variable [DecidableEq α] (successors : α → List α)

/-- Whether the search from a node meets a node of its own path. The path keeps its
colours when it does. -/
def searchFrom : Nat → α → Colours α → Option (Bool × Colours α)
  | 0, _, _ => none
  | fuel + 1, node, colours =>
      if node ∈ colours.visiting then some (true, colours)
      else if node ∈ colours.visited then some (false, colours)
      else
        match anyOf (searchFrom fuel) (successors node)
            { colours with visiting := node :: colours.visiting } with
        | none => none
        | some (true, after) => some (true, after)
        | some (false, after) =>
            some (false,
              { visiting := after.visiting.erase node, visited := node :: after.visited })

/-- Search from every root that is not done. -/
def findsCycle (fuel : Nat) (roots : List α) : Option Bool :=
  (anyOf (fun root colours =>
      if root ∈ colours.visited then some (false, colours)
      else searchFrom successors fuel root colours) roots ⟨[], []⟩).map Prod.fst

/-- Mark a node and what it reaches through nodes that are present. -/
def mark (nodes : List α) : Nat → α → List α → Option (List α)
  | 0, _, _ => none
  | fuel + 1, node, marked =>
      if node ∈ marked ∨ node ∉ nodes then some marked
      else (successors node).foldlM (fun marked child => mark nodes fuel child marked)
        (node :: marked)

end Search

/-- One node is a successor of another. -/
def Successor (successors : α → List α) (child parent : α) : Prop := child ∈ successors parent

def Cyclic (successors : α → List α) : Prop := ∃ node, Relation.TransGen (Successor successors) node node

theorem not_transGen_self_of_acc {successors : α → List α} {node : α}
    (h : Acc (Successor successors) node) :
    ¬ Relation.TransGen (Successor successors) node node := by
  induction h with
  | intro node _ ih =>
      intro hCycle
      obtain ⟨child, hPath, hEdge⟩ := Relation.TransGen.tail'_iff.mp hCycle
      exact ih child hEdge (.head' hEdge hPath)

section AnyOf

variable {step : α → σ → Option (Bool × σ)} {I : σ → Prop} {F : Prop} {Q : α → Prop}

/-- What each step ensures, the whole run ensures. -/
theorem anyOf_spec {items : List α}
    (hStep : ∀ item ∈ items, ∀ state, I state → ∃ found after,
      step item state = some (found, after) ∧ (found = true → F) ∧
        (found = false → I after ∧ Q item))
    {state : σ} (hState : I state) :
    ∃ found after, anyOf step items state = some (found, after) ∧ (found = true → F) ∧
      (found = false → I after ∧ ∀ item ∈ items, Q item) := by
  induction items generalizing state with
  | nil => exact ⟨false, state, rfl, by simp, by simpa using hState⟩
  | cons item rest ih =>
      obtain ⟨found, after, hRun, hFound, hGoesOn⟩ := hStep item (by simp) state hState
      cases found with
      | true => exact ⟨true, after, by simp [anyOf, hRun], hFound, by simp⟩
      | false =>
          obtain ⟨hAfter, hItem⟩ := hGoesOn rfl
          obtain ⟨found, last, hRest, hLast, hEnds⟩ :=
            ih (fun other hOther => hStep other (by simp [hOther])) hAfter
          refine ⟨found, last, by simp [anyOf, hRun, hRest], hLast, fun hNone => ?_⟩
          obtain ⟨hKept, hAll⟩ := hEnds hNone
          refine ⟨hKept, ?_⟩
          intro other hOther
          rcases List.mem_cons.mp hOther with rfl | hOther
          · exact hItem
          · exact hAll other hOther

/-- Two runs whose steps agree on what they find, and stay related until they do. -/
theorem anyOf_simulates {τ : Type} {other : α → τ → Option (Bool × τ)} {R : σ → τ → Prop}
    {items : List α}
    (hStep : ∀ item ∈ items, ∀ s t, R s t →
      (step item s = none ∧ other item t = none) ∨ ∃ found s' t', step item s = some (found, s') ∧
        other item t = some (found, t') ∧ (found = false → R s' t'))
    {s : σ} {t : τ} (h : R s t) :
    (anyOf step items s = none ∧ anyOf other items t = none) ∨
      ∃ found s' t', anyOf step items s = some (found, s') ∧
        anyOf other items t = some (found, t') ∧ (found = false → R s' t') := by
  induction items generalizing s t with
  | nil => exact Or.inr ⟨false, s, t, rfl, rfl, fun _ => h⟩
  | cons item rest ih =>
      rcases hStep item (by simp) s t h with ⟨hLeft, hRight⟩ | ⟨found, s', t', hLeft, hRight, hKept⟩
      · exact Or.inl ⟨by simp [anyOf, hLeft], by simp [anyOf, hRight]⟩
      · cases found with
        | true => exact Or.inr ⟨true, s', t', by simp [anyOf, hLeft], by simp [anyOf, hRight], by simp⟩
        | false =>
            have hRest := ih (fun later hLater => hStep later (by simp [hLater])) (hKept rfl)
            simpa only [anyOf, hLeft, hRight] using hRest

end AnyOf

section Cycle

variable [DecidableEq α] {successors : α → List α} {nodes : List α}

theorem countP_notMem_cons_lt {node : α} {path : List α} (hNode : node ∈ nodes)
    (hFresh : node ∉ path) :
    nodes.countP (· ∉ node :: path) < nodes.countP (· ∉ path) := by
  induction nodes with
  | nil => simp at hNode
  | cons head rest ih =>
      have hRest : rest.countP (· ∉ node :: path) ≤ rest.countP (· ∉ path) :=
        List.countP_mono_left (by simp)
      by_cases hHead : head = node
      · subst hHead
        simp only [List.countP_cons, List.mem_cons, true_or, not_true, decide_false, hFresh,
          not_false_eq_true, decide_true, if_true]
        simpa using Nat.lt_succ_of_le hRest
      · have hLater := ih ((List.mem_cons.mp hNode).resolve_left (Ne.symm hHead))
        have hOff : head ∈ node :: path ↔ head ∈ path := by simp [hHead]
        rw [List.countP_cons, List.countP_cons]
        simp only [hOff]
        omega

/-- With fuel for the nodes off its path, the search from a node ends. When it finds
nothing, the path is as before and the nodes that are done, this one among them, start
no endless chain. -/
theorem searchFrom_spec (hClosed : ∀ node ∈ nodes, ∀ child ∈ successors node, child ∈ nodes)
    (fuel : Nat) {node : α} {colours : Colours α} (hNode : node ∈ nodes)
    (hFuel : nodes.countP (· ∉ colours.visiting) < fuel)
    (hDone : ∀ done ∈ colours.visited, Acc (Successor successors) done)
    (hPath : ∀ above ∈ colours.visiting, Relation.TransGen (Successor successors) node above) :
    ∃ found after, searchFrom successors fuel node colours = some (found, after) ∧
      (found = true → Cyclic successors) ∧
      (found = false → (after.visiting = colours.visiting ∧
        ∀ done ∈ after.visited, Acc (Successor successors) done) ∧
        Acc (Successor successors) node) := by
  induction fuel generalizing node colours with
  | zero => omega
  | succ fuel ih =>
      by_cases hVisiting : node ∈ colours.visiting
      · exact ⟨true, colours, by simp [searchFrom, hVisiting],
          fun _ => ⟨node, hPath node hVisiting⟩, by simp⟩
      by_cases hVisited : node ∈ colours.visited
      · exact ⟨false, colours, by simp [searchFrom, hVisiting, hVisited], by simp,
          fun _ => ⟨⟨rfl, hDone⟩, hDone node hVisited⟩⟩
      have hShorter := countP_notMem_cons_lt hNode hVisiting
      have hChildren : ∀ child ∈ successors node, ∀ now : Colours α,
          now.visiting = node :: colours.visiting ∧
            (∀ done ∈ now.visited, Acc (Successor successors) done) →
          ∃ found after, searchFrom successors fuel child now = some (found, after) ∧
            (found = true → Cyclic successors) ∧
            (found = false → (after.visiting = node :: colours.visiting ∧
              ∀ done ∈ after.visited, Acc (Successor successors) done) ∧
              Acc (Successor successors) child) := by
        intro child hChild now hNow
        have hBelow : Successor successors child node := hChild
        have hLeft : nodes.countP (· ∉ now.visiting) < fuel := by
          rw [hNow.1]
          omega
        have hAbovePath : ∀ above ∈ now.visiting,
            Relation.TransGen (Successor successors) child above := by
          intro above hAbove
          rw [hNow.1] at hAbove
          rcases List.mem_cons.mp hAbove with rfl | hAbove
          · exact .single hBelow
          · exact .head hBelow (hPath above hAbove)
        have hRun := ih (hClosed node hNode child hChild) hLeft hNow.2 hAbovePath
        rwa [hNow.1] at hRun
      have hStart : ({ colours with visiting := node :: colours.visiting } :
          Colours α).visiting = node :: colours.visiting ∧
            ∀ done ∈ colours.visited, Acc (Successor successors) done := ⟨rfl, hDone⟩
      obtain ⟨found, after, hRun, hFound, hEnds⟩ := anyOf_spec hChildren hStart
      cases found with
      | true =>
          exact ⟨true, after, by simp [searchFrom, hVisiting, hVisited, hRun], hFound, by simp⟩
      | false =>
          obtain ⟨⟨hSame, hAfter⟩, hAll⟩ := hEnds rfl
          have hAcc : Acc (Successor successors) node := Acc.intro node hAll
          refine ⟨false, ⟨after.visiting.erase node, node :: after.visited⟩,
            by simp [searchFrom, hVisiting, hVisited, hRun], by simp,
            fun _ => ⟨⟨by simp [hSame], ?_⟩, hAcc⟩⟩
          intro done hMem
          rcases List.mem_cons.mp hMem with rfl | hMem
          · exact hAcc
          · exact hAfter done hMem

/-- With fuel for all nodes the search ends, and it finds a cycle exactly when there is
one. Without a cycle no node starts an endless chain. Nodes that lead nowhere need not be
searched from. -/
theorem findsCycle_roots_spec {roots : List α}
    (hClosed : ∀ node ∈ nodes, ∀ child ∈ successors node, child ∈ nodes)
    (hPresent : ∀ root ∈ roots, root ∈ nodes)
    (hOutside : ∀ node, node ∉ roots → successors node = []) {fuel : Nat}
    (hFuel : nodes.length < fuel) :
    ∃ found, findsCycle successors fuel roots = some found ∧
      (found = true ↔ Cyclic successors) ∧
      (found = false → WellFounded (Successor successors)) := by
  have hRoots : ∀ root ∈ roots, ∀ now : Colours α,
      now.visiting = [] ∧ (∀ done ∈ now.visited, Acc (Successor successors) done) →
      ∃ found after,
        (if root ∈ now.visited then some (false, now)
          else searchFrom successors fuel root now) = some (found, after) ∧
        (found = true → Cyclic successors) ∧
        (found = false → (after.visiting = [] ∧
          ∀ done ∈ after.visited, Acc (Successor successors) done) ∧
          Acc (Successor successors) root) := by
    intro root hRoot now hNow
    by_cases hVisited : root ∈ now.visited
    · exact ⟨false, now, by simp [hVisited], by simp, fun _ => ⟨hNow, hNow.2 root hVisited⟩⟩
    · have hLeft : nodes.countP (· ∉ now.visiting) < fuel :=
        Nat.lt_of_le_of_lt List.countP_le_length hFuel
      have hRun := searchFrom_spec hClosed fuel (hPresent root hRoot) hLeft hNow.2 (by simp [hNow.1])
      rw [hNow.1] at hRun
      simpa only [if_neg hVisited] using hRun
  have hStart : (⟨[], []⟩ : Colours α).visiting = [] ∧
      ∀ done ∈ (⟨[], []⟩ : Colours α).visited, Acc (Successor successors) done := ⟨rfl, by simp⟩
  obtain ⟨found, after, hRun, hFound, hEnds⟩ := anyOf_spec hRoots hStart
  have hAcyclic : found = false → WellFounded (Successor successors) := by
    intro hNone
    refine ⟨fun node => ?_⟩
    by_cases hNode : node ∈ roots
    · exact (hEnds hNone).2 node hNode
    · exact Acc.intro node (fun child hChild => by simp [Successor, hOutside node hNode] at hChild)
  refine ⟨found, by simp [findsCycle, hRun], ⟨hFound, ?_⟩, hAcyclic⟩
  rintro ⟨node, hCycle⟩
  by_contra hNone
  exact not_transGen_self_of_acc ((hAcyclic (by simpa using hNone)).apply node) hCycle

theorem findsCycle_spec (hClosed : ∀ node ∈ nodes, ∀ child ∈ successors node, child ∈ nodes)
    (hOutside : ∀ node, node ∉ nodes → successors node = []) {fuel : Nat}
    (hFuel : nodes.length < fuel) :
    ∃ found, findsCycle successors fuel nodes = some found ∧
      (found = true ↔ Cyclic successors) ∧
      (found = false → WellFounded (Successor successors)) :=
  findsCycle_roots_spec hClosed (fun _ hRoot => hRoot) hOutside hFuel

end Cycle

end Library.DepthFirst
