import Mathlib.Data.Fintype.Basic
import Mathlib.Data.Fintype.Order
import Mathlib.Logic.Relation
import Mathlib.Order.Interval.Finset.Basic

/-! The reduction of a strict order on finitely many nodes. An edge joins two nodes with none
between them. Paths of edges are the order, and no edge can be left out. -/

namespace Library.Reduction

variable {α : Type} {lt : α → α → Prop} {nodes : List α} {a b : α}

/-- A node below another, with none of the nodes between them. -/
structure Covers (lt : α → α → Prop) (nodes : List α) (a b : α) : Prop where
  source : a ∈ nodes
  target : b ∈ nodes
  below : lt a b
  nearest : ∀ c ∈ nodes, lt a c → ¬ lt c b

section Paths

theorem lt_of_path (hTrans : ∀ {a b c}, lt a b → lt b c → lt a c)
    (h : Relation.TransGen (Covers lt nodes) a b) : lt a b := by
  induction h with
  | single hEdge => exact hEdge.below
  | tail _ hEdge ih => exact hTrans ih hEdge.below

/-- Nodes in order are joined by a path. -/
theorem path_of_lt (hTrans : ∀ {a b c}, lt a b → lt b c → lt a c) (hIrrefl : ∀ a, ¬ lt a a)
    (ha : a ∈ nodes) (hb : b ∈ nodes) (h : lt a b) : Relation.TransGen (Covers lt nodes) a b := by
  classical
  let order : PartialOrder {node // node ∈ nodes} :=
    { le := fun x y => x = y ∨ lt x y
      lt := fun x y => lt x y
      le_refl := fun x => Or.inl rfl
      le_trans := by
        rintro x y z (rfl | hxy) (rfl | hyz)
        · exact Or.inl rfl
        · exact Or.inr hyz
        · exact Or.inr hxy
        · exact Or.inr (hTrans hxy hyz)
      lt_iff_le_not_ge := by
        intro x y
        constructor
        · intro hxy
          refine ⟨Or.inr hxy, ?_⟩
          rintro (rfl | hyx)
          · exact hIrrefl _ hxy
          · exact hIrrefl _ (hTrans hxy hyx)
        · rintro ⟨rfl | hxy, hNot⟩
          · exact absurd (Or.inl rfl) hNot
          · exact hxy
      le_antisymm := by
        rintro x y (rfl | hxy) (hyx | hyx)
        · rfl
        · rfl
        · exact hyx.symm
        · exact absurd (hTrans hxy hyx) (hIrrefl _) }
  let finite : LocallyFiniteOrder {node // node ∈ nodes} := Fintype.toLocallyFiniteOrder
  have hPath : Relation.TransGen (· ⋖ ·) (⟨a, ha⟩ : {node // node ∈ nodes}) ⟨b, hb⟩ :=
    transGen_covBy_of_lt h
  refine hPath.lift Subtype.val fun x y hCovers => ?_
  exact ⟨x.2, y.2, hCovers.1, fun c hc hLess hMore => hCovers.2 (c := ⟨c, hc⟩) hLess hMore⟩

/-- No edge is implied by the others. -/
theorem not_path_of_others (hTrans : ∀ {a b c}, lt a b → lt b c → lt a c)
    (h : Covers lt nodes a b) :
    ¬ Relation.TransGen (fun x y => Covers lt nodes x y ∧ ¬ (x = a ∧ y = b)) a b := by
  intro hPath
  obtain ⟨next, ⟨hFirst, hOther⟩, hRest⟩ := Relation.TransGen.head'_iff.mp hPath
  rcases Relation.reflTransGen_iff_eq_or_transGen.mp hRest with rfl | hLater
  · exact hOther ⟨rfl, rfl⟩
  · have hPath : Relation.TransGen (Covers lt nodes) next b :=
      hLater.lift id fun x y hEdge => hEdge.1
    exact h.nearest next hFirst.target hFirst.below (lt_of_path hTrans hPath)

end Paths

end Library.Reduction
