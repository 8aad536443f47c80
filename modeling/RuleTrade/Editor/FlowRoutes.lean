import Mathlib.Data.String.Basic
import RuleTrade.Library.DepthFirst
import RuleTrade.Library.Dict

/-! Routes between the nodes of a Flow that a user draws: a route is refused when it
would close a cycle. -/

namespace RuleTrade

open Library

structure FlowEdge where
  source : String
  target : String
  deriving DecidableEq, Repr

section Search

/-- Targets of each source, in the order of the edges. -/
def outgoing (edges : List FlowEdge) : Dict String (List String) :=
  edges.foldl (fun map edge =>
    map.set edge.source (map.getD edge.source [] ++ [edge.target])) Dict.empty

/-- Nodes that were visited, and those of the current descent. -/
structure FlowVisits where
  seen : List String
  active : List String
  deriving DecidableEq, Repr

/-- `visit`. The fuel bounds the depth of the descent. -/
def visitNode (targets : Dict String (List String)) :
    Nat → String → FlowVisits → Option (Bool × FlowVisits)
  | 0, _, _ => none
  | fuel + 1, id, visits =>
      if id ∈ visits.active then some (true, visits)
      else if id ∈ visits.seen then some (false, visits)
      else
        match DepthFirst.anyOf (visitNode targets fuel) (targets.getD id [])
            ⟨id :: visits.seen, id :: visits.active⟩ with
        | none => none
        | some (true, after) => some (true, after)
        | some (false, after) => some (false, { after with active := after.active.erase id })

/-- `hasFlowCycle`; none where the fuel does not reach. -/
def hasFlowCycle (fuel : Nat) (edges : List FlowEdge) (next : FlowEdge) : Option Bool :=
  if next.source = next.target then some true
  else
    let targets := outgoing (edges ++ [next])
    (DepthFirst.anyOf (visitNode targets fuel) targets.keys ⟨[], []⟩).map Prod.fst

example : hasFlowCycle 4 [⟨"portfolio", "growth"⟩] ⟨"growth", "portfolio"⟩ = some true := by
  decide +kernel

/-- The call returns: every descent that is deep enough ends in one answer. -/
def Returns (edges : List FlowEdge) (next : FlowEdge) (found : Bool) : Prop :=
  ∃ bound, ∀ fuel, bound ≤ fuel → hasFlowCycle fuel edges next = some found

/-- Routes that were accepted one after another. -/
inductive AcceptedRoutes : List FlowEdge → Prop where
  | none : AcceptedRoutes []
  | connect {edges : List FlowEdge} {next : FlowEdge} (h : AcceptedRoutes edges)
      (hReturns : Returns edges next false) : AcceptedRoutes (edges ++ [next])

end Search

section Graph

def HasEdge (edges : List FlowEdge) (source target : String) : Prop := ⟨source, target⟩ ∈ edges

/-- Some node lies on a directed cycle. -/
def HasDirectedCycle (edges : List FlowEdge) : Prop :=
  ∃ node, Relation.TransGen (HasEdge edges) node node

/-- The map holds the targets of every edge, and sources are its keys. -/
theorem outgoing_spec (edges : List FlowEdge) :
    (∀ source target, target ∈ (outgoing edges).getD source [] ↔ HasEdge edges source target) ∧
      ∀ source, source ∈ (outgoing edges).keys ↔ ∃ target, HasEdge edges source target := by
  induction edges using List.reverseRecOn with
  | nil =>
      constructor
      · intro source target
        simp [outgoing, HasEdge, Dict.getD, Dict.get?, Dict.empty, Dict.find]
      · intro source
        simp [outgoing, HasEdge]
  | append_singleton edges edge ih =>
      obtain ⟨hTargets, hKeys⟩ := ih
      have hStep : outgoing (edges ++ [edge]) = (outgoing edges).set edge.source
          ((outgoing edges).getD edge.source [] ++ [edge.target]) := by
        rw [outgoing, List.foldl_append]
        rfl
      have hEdge (source target : String) : HasEdge (edges ++ [edge]) source target ↔
          HasEdge edges source target ∨ (source = edge.source ∧ target = edge.target) := by
        rw [HasEdge, List.mem_append, List.mem_singleton, HasEdge]
        apply or_congr_right
        constructor
        · rintro rfl
          exact ⟨rfl, rfl⟩
        · rintro ⟨rfl, rfl⟩
          rfl
      constructor
      · intro source target
        rw [hStep, hEdge, ← hTargets, Dict.getD, Dict.get?_set]
        by_cases hSource : source = edge.source
        · subst hSource
          rw [if_pos rfl, Option.getD_some, List.mem_append, List.mem_singleton]
          simp
        · rw [if_neg hSource]
          simp [hSource, Dict.getD]
      · intro source
        rw [hStep, Dict.mem_keys_set, hKeys]
        simp only [hEdge]
        constructor
        · rintro (rfl | ⟨target, h⟩)
          · exact ⟨edge.target, Or.inr ⟨rfl, rfl⟩⟩
          · exact ⟨target, Or.inl h⟩
        · rintro ⟨target, h | ⟨h, -⟩⟩
          · exact Or.inr ⟨target, h⟩
          · exact Or.inl h

/-- Nodes that lead to each other through successors lie on a directed cycle. -/
theorem cyclic_iff (edges : List FlowEdge) :
    DepthFirst.Cyclic (fun id => (outgoing edges).getD id []) ↔ HasDirectedCycle edges := by
  have hSwap : DepthFirst.Successor (fun id => (outgoing edges).getD id []) =
      Function.swap (HasEdge edges) := by
    funext child parent
    exact propext ((outgoing_spec edges).1 parent child)
  rw [DepthFirst.Cyclic, HasDirectedCycle, hSwap]
  simp only [Relation.transGen_swap]

end Graph

section Exact

/-- What is visited is on the current path or done. -/
structure SameVisits (path : List String) (visits : FlowVisits)
    (colours : DepthFirst.Colours String) : Prop where
  active : visits.active = path
  visiting : colours.visiting = path
  seen : ∀ id, id ∈ visits.seen ↔ id ∈ colours.visited ∨ id ∈ path

/-- A visit goes as the search with colours does. -/
theorem visitNode_simulates (targets : Dict String (List String)) (fuel : Nat) {path : List String}
    (id : String) {visits : FlowVisits} {colours : DepthFirst.Colours String}
    (h : SameVisits path visits colours) :
    (visitNode targets fuel id visits = none ∧
        DepthFirst.searchFrom (fun id => targets.getD id []) fuel id colours = none) ∨
      ∃ found visits' colours', visitNode targets fuel id visits = some (found, visits') ∧
        DepthFirst.searchFrom (fun id => targets.getD id []) fuel id colours =
          some (found, colours') ∧ (found = false → SameVisits path visits' colours') := by
  induction fuel generalizing path id visits colours with
  | zero => exact Or.inl ⟨rfl, rfl⟩
  | succ fuel ih =>
      rw [visitNode, DepthFirst.searchFrom, h.active, h.visiting]
      by_cases hActive : id ∈ path
      · rw [if_pos hActive, if_pos hActive]
        exact Or.inr ⟨true, _, _, rfl, rfl, by simp⟩
      rw [if_neg hActive, if_neg hActive]
      by_cases hDone : id ∈ colours.visited
      · rw [if_pos ((h.seen id).mpr (Or.inl hDone)), if_pos hDone]
        exact Or.inr ⟨false, _, _, rfl, rfl, fun _ => h⟩
      have hNew : id ∉ visits.seen := fun hSeen => ((h.seen id).mp hSeen).elim hDone hActive
      rw [if_neg hNew, if_neg hDone]
      have hStart : SameVisits (id :: path) ⟨id :: visits.seen, id :: path⟩
          { colours with visiting := id :: path } := by
        refine ⟨rfl, rfl, fun other => ?_⟩
        rw [List.mem_cons, List.mem_cons, h.seen other]
        exact or_left_comm
      have hTargets : ∀ child ∈ targets.getD id [], ∀ s t, SameVisits (id :: path) s t → _ :=
        fun child _ s t hRelated => ih child hRelated
      rcases DepthFirst.anyOf_simulates hTargets hStart with
        ⟨hLeft, hRight⟩ | ⟨found, visits', colours', hLeft, hRight, hKept⟩
      · rw [hLeft, hRight]
        exact Or.inl ⟨rfl, rfl⟩
      · rw [hLeft, hRight]
        cases found with
        | true => exact Or.inr ⟨true, _, _, rfl, rfl, by simp⟩
        | false =>
            obtain ⟨hEnds, hVisiting, hSeen⟩ := hKept rfl
            refine Or.inr ⟨false, _, _, rfl, rfl, fun _ => ⟨?_, ?_, fun other => ?_⟩⟩
            · simp [hEnds]
            · simp [hVisiting]
            · rw [hSeen other, List.mem_cons, List.mem_cons]
              exact or_left_comm.trans or_assoc.symm

/-- The nodes of the edges. -/
def nodesOf (edges : List FlowEdge) : List String :=
  edges.map FlowEdge.source ++ edges.map FlowEdge.target

/-- The loop over the sources goes as the search for a cycle does. -/
theorem anyOf_visitNode (targets : Dict String (List String)) (roots : List String) (fuel : Nat) :
    (DepthFirst.anyOf (visitNode targets (fuel + 1)) roots ⟨[], []⟩).map Prod.fst =
      DepthFirst.findsCycle (fun id => targets.getD id []) (fuel + 1) roots := by
  have hStep : ∀ root ∈ roots, ∀ visits colours, SameVisits [] visits colours →
      (visitNode targets (fuel + 1) root visits = none ∧
        (if root ∈ colours.visited then some (false, colours)
          else DepthFirst.searchFrom (fun id => targets.getD id []) (fuel + 1) root colours) =
            none) ∨
        ∃ found visits' colours',
          visitNode targets (fuel + 1) root visits = some (found, visits') ∧
          (if root ∈ colours.visited then some (false, colours)
            else DepthFirst.searchFrom (fun id => targets.getD id []) (fuel + 1) root colours) =
              some (found, colours') ∧ (found = false → SameVisits [] visits' colours') := by
    intro root _ visits colours h
    by_cases hDone : root ∈ colours.visited
    · refine Or.inr ⟨false, visits, colours, ?_, by rw [if_pos hDone], fun _ => h⟩
      have hSeen : root ∈ visits.seen := (h.seen root).mpr (Or.inl hDone)
      rw [visitNode, h.active, if_neg List.not_mem_nil, if_pos hSeen]
    · rw [if_neg hDone]
      exact visitNode_simulates targets (fuel + 1) root h
  have hStart : SameVisits [] ⟨[], []⟩ ⟨[], []⟩ := ⟨rfl, rfl, by simp⟩
  rw [DepthFirst.findsCycle]
  rcases DepthFirst.anyOf_simulates hStep hStart with
    ⟨hLeft, hRight⟩ | ⟨found, visits, colours, hLeft, hRight, -⟩
  · rw [hLeft, hRight]
    rfl
  · rw [hLeft, hRight]
    rfl

/-- With fuel for all nodes the call answers whether the edges have a cycle. -/
theorem hasFlowCycle_spec (edges : List FlowEdge) (next : FlowEdge) :
    ∃ found, Returns edges next found ∧
      (found = true ↔ HasDirectedCycle (edges ++ [next])) := by
  by_cases hLoop : next.source = next.target
  · refine ⟨true, ⟨0, fun fuel _ => by rw [hasFlowCycle, if_pos hLoop]⟩, fun _ => ?_, fun _ => rfl⟩
    refine ⟨next.source, .single ?_⟩
    have hNext : (⟨next.source, next.source⟩ : FlowEdge) = next := by
      rw [FlowEdge.mk.injEq]
      exact ⟨rfl, hLoop⟩
    rw [HasEdge, hNext]
    exact List.mem_append_right _ (List.mem_singleton_self next)
  · obtain ⟨hTargets, hKeys⟩ := outgoing_spec (edges ++ [next])
    have hClosed : ∀ node ∈ nodesOf (edges ++ [next]),
        ∀ child ∈ (outgoing (edges ++ [next])).getD node [],
          child ∈ nodesOf (edges ++ [next]) := by
      intro node _ child hChild
      exact List.mem_append_right _ (List.mem_map_of_mem ((hTargets node child).mp hChild))
    have hPresent : ∀ root ∈ (outgoing (edges ++ [next])).keys,
        root ∈ nodesOf (edges ++ [next]) := by
      intro root hRoot
      obtain ⟨target, hEdge⟩ := (hKeys root).mp hRoot
      exact List.mem_append_left _ (List.mem_map_of_mem hEdge)
    have hOutside : ∀ node, node ∉ (outgoing (edges ++ [next])).keys →
        (outgoing (edges ++ [next])).getD node [] = [] := by
      intro node hNode
      rw [Dict.getD, Dict.get?_eq_none_iff.mpr hNode, Option.getD_none]
    have hRun (fuel : Nat) (hFuel : (nodesOf (edges ++ [next])).length < fuel) :=
      DepthFirst.findsCycle_roots_spec hClosed hPresent hOutside hFuel
    obtain ⟨first, -, hFirst, -⟩ := hRun _ (Nat.lt_succ_self _)
    rw [cyclic_iff] at hFirst
    refine ⟨first, ⟨(nodesOf (edges ++ [next])).length + 1, fun fuel hFuel => ?_⟩, hFirst⟩
    obtain ⟨found, hFound, hCyclic, -⟩ := hRun fuel hFuel
    rw [cyclic_iff, ← hFirst, Bool.eq_iff_iff.symm] at hCyclic
    obtain ⟨depth, rfl⟩ : ∃ depth, fuel = depth + 1 := ⟨fuel - 1, by omega⟩
    rw [hasFlowCycle, if_neg hLoop, anyOf_visitNode, hFound, hCyclic]

/-- Routes that were accepted have no cycle. -/
theorem acyclic_of_accepted {edges : List FlowEdge} (h : AcceptedRoutes edges) :
    ¬ HasDirectedCycle edges := by
  cases h with
  | none =>
      rintro ⟨node, hCycle⟩
      obtain ⟨_, hEdge, -⟩ := Relation.TransGen.head'_iff.mp hCycle
      exact absurd hEdge List.not_mem_nil
  | @connect edges next _ hReturns =>
      intro hCycle
      obtain ⟨found, ⟨bound, hBound⟩, hFound⟩ := hasFlowCycle_spec edges next
      obtain ⟨other, hOther⟩ := hReturns
      have hLeft := hBound (max bound other) (le_max_left _ _)
      rw [hOther (max bound other) (le_max_right _ _), Option.some_inj] at hLeft
      exact absurd (hFound.mpr hCycle) (by simp [← hLeft])

/-- The call always returns and is exact, so accepted routes stay without a cycle. -/
theorem flowRoutes_stay_acyclic :
    (∀ (edges : List FlowEdge) (next : FlowEdge), ∃ found, Returns edges next found ∧
      (found = true ↔ HasDirectedCycle (edges ++ [next]))) ∧
      ∀ edges, AcceptedRoutes edges → ¬ HasDirectedCycle edges :=
  ⟨hasFlowCycle_spec, fun _ h => acyclic_of_accepted h⟩

end Exact

end RuleTrade
