import Mathlib.Data.Rat.Init
import Mathlib.Data.List.Basic

/-! JSON documents with exact numbers. Equality is decidable, so a document
can stand for its own content digest. -/

namespace Library

inductive Json where
  | null
  | bool (value : Bool)
  | number (value : ℚ)
  | text (value : String)
  | array (items : List Json)
  | object (fields : List (String × Json))

namespace Json

mutual

/-- Structural comparison of two documents. -/
def beq : Json → Json → Bool
  | .null, .null => true
  | .bool a, .bool b => a == b
  | .number a, .number b => a == b
  | .text a, .text b => a == b
  | .array xs, .array ys => beqItems xs ys
  | .object xs, .object ys => beqFields xs ys
  | _, _ => false

def beqItems : List Json → List Json → Bool
  | [], [] => true
  | x :: xs, y :: ys => beq x y && beqItems xs ys
  | _, _ => false

def beqFields : List (String × Json) → List (String × Json) → Bool
  | [], [] => true
  | (k, x) :: xs, (l, y) :: ys => k == l && beq x y && beqFields xs ys
  | _, _ => false

end

mutual

theorem eq_of_beq : ∀ {x y : Json}, beq x y = true → x = y
  | .null, .null, _ => rfl
  | .bool a, .bool b, h => by rw [beq, beq_iff_eq] at h; rw [h]
  | .number a, .number b, h => by rw [beq, beq_iff_eq] at h; rw [h]
  | .text a, .text b, h => by rw [beq, beq_iff_eq] at h; rw [h]
  | .array xs, .array ys, h => by rw [beq] at h; rw [eq_of_beqItems h]
  | .object xs, .object ys, h => by rw [beq] at h; rw [eq_of_beqFields h]

theorem eq_of_beqItems : ∀ {xs ys : List Json}, beqItems xs ys = true → xs = ys
  | [], [], _ => rfl
  | x :: xs, y :: ys, h => by
      simp only [beqItems, Bool.and_eq_true] at h
      rw [eq_of_beq h.1, eq_of_beqItems h.2]

theorem eq_of_beqFields : ∀ {xs ys : List (String × Json)}, beqFields xs ys = true → xs = ys
  | [], [], _ => rfl
  | (k, x) :: xs, (l, y) :: ys, h => by
      simp only [beqFields, Bool.and_eq_true, beq_iff_eq] at h
      rw [h.1.1, eq_of_beq h.1.2, eq_of_beqFields h.2]

end

mutual

theorem beq_self : ∀ x : Json, beq x x = true
  | .null => rfl
  | .bool _ => by simp [beq]
  | .number _ => by simp [beq]
  | .text _ => by simp [beq]
  | .array xs => by rw [beq]; exact beqItems_self xs
  | .object xs => by rw [beq]; exact beqFields_self xs

theorem beqItems_self : ∀ xs : List Json, beqItems xs xs = true
  | [] => rfl
  | x :: xs => by simp [beqItems, beq_self x, beqItems_self xs]

theorem beqFields_self : ∀ xs : List (String × Json), beqFields xs xs = true
  | [] => rfl
  | (_, x) :: xs => by simp [beqFields, beq_self x, beqFields_self xs]

end

instance : DecidableEq Json := fun x y =>
  decidable_of_iff (beq x y = true) ⟨eq_of_beq, fun h => h ▸ beq_self x⟩

end Json

end Library
