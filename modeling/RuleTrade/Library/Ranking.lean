import Mathlib.Data.List.Sort

/-! Rankings of scored entries. Two descending rankings of the same entries that
break ties in opposite directions share a prefix as long as nothing ties in it. -/

namespace Library.Ranking

variable {κ τ : Type} [LinearOrder κ]

/-- No two entries with equal scores, but fewer than `count` better ones, differ. -/
def Untied (count : Nat) (entries : List (κ × τ)) : Prop :=
  ∀ a ∈ entries, ∀ b ∈ entries, a.1 = b.1 →
    entries.countP (fun c => a.1 < c.1) < count → a = b

theorem Untied.perm {count : Nat} {xs ys : List (κ × τ)} (hPerm : xs.Perm ys)
    (h : Untied count xs) : Untied count ys := by
  intro a ha b hb hScore hCount
  rw [← hPerm.countP_eq] at hCount
  exact h a (hPerm.mem_iff.mpr ha) b (hPerm.mem_iff.mpr hb) hScore hCount

theorem untied_zero (entries : List (κ × τ)) : Untied 0 entries :=
  fun _ _ _ _ _ hCount => absurd hCount (Nat.not_lt_zero _)

/-- Below a best entry one less counts. -/
theorem untied_cons {count : Nat} {x : κ × τ} {xs : List (κ × τ)}
    (hBest : ∀ y ∈ xs, y.1 ≤ x.1) :
    Untied (count + 1) (x :: xs) ↔ (∀ y ∈ xs, y.1 = x.1 → y = x) ∧ Untied count xs := by
  constructor
  · intro h
    have hTop : ∀ y ∈ xs, y.1 = x.1 → y = x := by
      intro y hy hScore
      apply h y (List.mem_cons_of_mem x hy) x List.mem_cons_self hScore
      have hNone : (x :: xs).countP (fun c => y.1 < c.1) = 0 := by
        rw [List.countP_eq_zero]
        intro c hc
        rw [hScore, decide_eq_true_eq, not_lt]
        rcases List.mem_cons.mp hc with rfl | hc
        · exact le_rfl
        · exact hBest c hc
      omega
    refine ⟨hTop, fun a ha b hb hScore hCount => ?_⟩
    apply h a (List.mem_cons_of_mem x ha) b (List.mem_cons_of_mem x hb) hScore
    rw [List.countP_cons]
    split_ifs <;> omega
  · rintro ⟨hTop, h⟩ a ha b hb hScore hCount
    -- An entry as good as the best one is the best one.
    have hOfBest : ∀ c ∈ x :: xs, c.1 = x.1 → c = x := by
      intro c hc hSame
      rcases List.mem_cons.mp hc with rfl | hc
      · rfl
      · exact hTop c hc hSame
    by_cases hSame : a.1 = x.1
    · rw [hOfBest a ha hSame, hOfBest b hb (hScore ▸ hSame)]
    · have hMem : ∀ c ∈ x :: xs, c.1 = a.1 → c ∈ xs := by
        intro c hc hEq
        rcases List.mem_cons.mp hc with rfl | hc
        · exact absurd hEq.symm hSame
        · exact hc
      have ha' := hMem a ha rfl
      have hWorse : a.1 < x.1 := lt_of_le_of_ne (hBest a ha') hSame
      rw [List.countP_cons, if_pos (decide_eq_true hWorse)] at hCount
      exact h a ha' b (hMem b hb hScore.symm) hScore (by omega)

variable [PartialOrder τ]

/-- The first `count` entries agree exactly when they are untied. -/
theorem take_eq_take_iff {xs ys : List (κ × τ)} (hPerm : xs.Perm ys)
    (hXs : xs.Pairwise (fun a b => b.1 ≤ a.1 ∧ (a.1 ≤ b.1 → b.2 ≤ a.2)))
    (hYs : ys.Pairwise (fun a b => b.1 ≤ a.1 ∧ (a.1 ≤ b.1 → a.2 ≤ b.2))) (count : Nat) :
    xs.take count = ys.take count ↔ Untied count xs := by
  induction count generalizing xs ys with
  | zero => simp [untied_zero]
  | succ count ih =>
      cases xs with
      | nil =>
          rw [← hPerm.nil_eq]
          simp [Untied]
      | cons x xs =>
          cases ys with
          | nil => exact absurd hPerm.length_eq (by simp)
          | cons y ys =>
              obtain ⟨hX, hXs'⟩ := List.pairwise_cons.mp hXs
              obtain ⟨hY, hYs'⟩ := List.pairwise_cons.mp hYs
              have hBestX : ∀ z ∈ x :: xs, z.1 ≤ x.1 := by
                intro z hz
                rcases List.mem_cons.mp hz with rfl | hz
                · exact le_rfl
                · exact (hX z hz).1
              have hBestY : ∀ z ∈ y :: ys, z.1 ≤ y.1 := by
                intro z hz
                rcases List.mem_cons.mp hz with rfl | hz
                · exact le_rfl
                · exact (hY z hz).1
              have hScore : y.1 = x.1 :=
                le_antisymm (hBestX y (hPerm.mem_iff.mpr List.mem_cons_self))
                  (hBestY x (hPerm.mem_iff.mp List.mem_cons_self))
              rw [untied_cons (fun z hz => (hX z hz).1), List.take_succ_cons, List.take_succ_cons,
                List.cons.injEq]
              constructor
              · rintro ⟨rfl, hRest⟩
                refine ⟨fun z hz hSame => ?_, (ih hPerm.cons_inv hXs' hYs').mp hRest⟩
                -- The best tag in one order is the worst in the other.
                have hHigh : z.2 ≤ x.2 := (hX z hz).2 hSame.ge
                have hLow : x.2 ≤ z.2 := by
                  rcases List.mem_cons.mp (hPerm.mem_iff.mp (List.mem_cons_of_mem x hz)) with rfl | hz
                  · exact le_rfl
                  · exact (hY z hz).2 hSame.ge
                exact Prod.ext hSame (le_antisymm hHigh hLow)
              · rintro ⟨hTop, hRest⟩
                have hSame : y = x := by
                  rcases List.mem_cons.mp (hPerm.mem_iff.mpr List.mem_cons_self : y ∈ x :: xs) with h | h
                  · exact h
                  · exact hTop y h hScore
                subst hSame
                exact ⟨rfl, (ih hPerm.cons_inv hXs' hYs').mpr hRest⟩

end Library.Ranking
