import Mathlib.Data.List.Basic
import Mathlib.Data.List.Nodup

/-! Three-way choices. Two sides that started from a base settle on a value when
one of them kept it or both came to the same. -/

namespace Library.ThreeWay

variable {α : Type} [DecidableEq α]

/-- The value two sides settle on, if they do. -/
def settled (base left right : α) : Option α :=
  if left = base then some right
  else if right = base then some left
  else if left = right then some left
  else none

theorem settled_left (base right : α) : settled base base right = some right := if_pos rfl

theorem settled_right (base left : α) : settled base left base = some left := by
  by_cases h : left = base
  · rw [h, settled_left]
  · simp only [settled, h, if_false, if_true]

theorem settled_same (base side : α) : settled base side side = some side := by
  by_cases h : side = base
  · rw [h, settled_left]
  · simp only [settled, h, if_false, if_true]

/-- Neither side goes first. -/
theorem settled_comm (base left right : α) : settled base left right = settled base right left := by
  by_cases hLeft : left = base
  · rw [hLeft, settled_left, settled_right]
  · by_cases hRight : right = base
    · rw [hRight, settled_left, settled_right]
    · by_cases hSame : left = right
      · rw [hSame]
      · simp only [settled, hLeft, hRight, hSame, Ne.symm hSame, if_false]

theorem settled_eq_none {base left right : α} :
    settled base left right = none ↔ left ≠ base ∧ right ≠ base ∧ left ≠ right := by
  unfold settled
  split_ifs with hLeft hRight hSame <;> simp_all

theorem settled_eq_some {base left right value : α} (h : settled base left right = some value) :
    (left = base ∧ value = right) ∨ (right = base ∧ value = left) ∨
      (left = right ∧ value = left) := by
  unfold settled at h
  split_ifs at h with hLeft hRight hSame
  · exact .inl ⟨hLeft, (Option.some.inj h).symm⟩
  · exact .inr (.inl ⟨hRight, (Option.some.inj h).symm⟩)
  · exact .inr (.inr ⟨hSame, (Option.some.inj h).symm⟩)

end Library.ThreeWay
