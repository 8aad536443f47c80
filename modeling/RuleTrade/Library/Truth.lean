import Mathlib.Data.List.Basic
import Mathlib.Data.List.Forall2

/-! Three-valued truth. Unknown is a missing answer, so a connective is
decided as soon as the known operands force it. -/

namespace Library

inductive Truth where
  | true
  | false
  | unknown
  deriving DecidableEq, Repr

namespace Truth

def ofBool (b : Bool) : Truth := if b then .true else .false

def text : Truth → String
  | .true => "true"
  | .false => "false"
  | .unknown => "unknown"

def ofText? (text : String) : Option Truth :=
  if text = "true" then some .true
  else if text = "false" then some .false
  else if text = "unknown" then some .unknown
  else none

@[simp] theorem ofText?_text (t : Truth) : ofText? t.text = some t := by
  cases t <;> rfl

def not : Truth → Truth
  | .true => .false
  | .false => .true
  | .unknown => .unknown

/-- Binary conjunction. -/
def and (left right : Truth) : Truth :=
  if left = .false ∨ right = .false then .false
  else if left = .unknown ∨ right = .unknown then .unknown
  else .true

/-- False as soon as one operand is false, else unknown if one is unknown. -/
def all (values : List Truth) : Truth :=
  if .false ∈ values then .false
  else if .unknown ∈ values then .unknown
  else .true

/-- True as soon as one operand is true, else unknown if one is unknown. -/
def any (values : List Truth) : Truth :=
  if .true ∈ values then .true
  else if .unknown ∈ values then .unknown
  else .false

/-- At least `minimum` operands are true, whatever the unknown ones are. -/
def atLeast (minimum : Nat) (values : List Truth) : Truth :=
  if minimum ≤ values.count .true then .true
  else if values.count .true + values.count .unknown < minimum then .false
  else .unknown

@[simp] theorem and_true (t : Truth) : t.and .true = t := by
  cases t <;> rfl

theorem and_assoc (s t u : Truth) : (s.and t).and u = s.and (t.and u) := by
  cases s <;> cases t <;> cases u <;> rfl

@[simp] theorem all_nil : all [] = .true := rfl

/-- A conjunction over a list is the fold of the binary connective. -/
theorem all_cons (t : Truth) (values : List Truth) : all (t :: values) = t.and (all values) := by
  by_cases hFalse : Truth.false ∈ values
  · cases t <;> simp [all, and, hFalse]
  · by_cases hUnknown : Truth.unknown ∈ values
    · cases t <;> simp [all, and, hFalse, hUnknown]
    · cases t <;> simp [all, and, hFalse, hUnknown]

@[simp] theorem true_and (t : Truth) : Truth.true.and t = t := by
  cases t <;> rfl

theorem all_append (left right : List Truth) : all (left ++ right) = (all left).and (all right) := by
  induction left with
  | nil => simp
  | cons t rest ih => rw [List.cons_append, all_cons, all_cons, ih, and_assoc]

section Order

/-- What is known of `t` is still so in `refined`. -/
def Refines (t refined : Truth) : Prop := t ≠ .unknown → refined = t

/-- Answers to all operands that agree with the known ones. -/
def Completes (values : List Truth) (completed : List Bool) : Prop :=
  List.Forall₂ (fun t b => t.Refines (ofBool b)) values completed

theorem Refines.not {s t : Truth} (h : s.Refines t) : s.not.Refines t.not := by
  intro hKnown
  rw [h (fun hUnknown => hKnown (by rw [hUnknown]; rfl))]

theorem refines_ofBool_iff {t : Truth} {b : Bool} :
    t.Refines (ofBool b) ↔ t = .unknown ∨ t = ofBool b := by
  cases t <;> cases b <;> simp [Refines, ofBool]

/-- Unknown operands can all be answered alike. -/
theorem completes_fill (values : List Truth) (b : Bool) :
    Completes values (values.map (fun t => if t = .unknown then b else decide (t = .true))) := by
  induction values with
  | nil => exact List.Forall₂.nil
  | cons t rest ih =>
      refine List.Forall₂.cons ?_ ih
      cases t <;> simp [Refines, ofBool]

theorem count_fill_true (values : List Truth) :
    (values.map (fun t => if t = .unknown then Bool.true else decide (t = .true))).count Bool.true =
      values.count .true + values.count .unknown := by
  induction values with
  | nil => rfl
  | cons t rest ih =>
      rw [List.map_cons, List.count_cons, ih]
      cases t <;> simp <;> omega

theorem count_fill_false (values : List Truth) :
    (values.map (fun t => if t = .unknown then Bool.false else decide (t = .true))).count Bool.true =
      values.count .true := by
  induction values with
  | nil => rfl
  | cons t rest ih =>
      rw [List.map_cons, List.count_cons, ih]
      cases t <;> simp

/-- The true operands of a completion are the known ones and some unknown ones. -/
theorem Completes.count {values : List Truth} {completed : List Bool}
    (h : Completes values completed) :
    values.count .true ≤ completed.count Bool.true ∧
      completed.count Bool.true ≤ values.count .true + values.count .unknown := by
  induction h with
  | nil => exact ⟨Nat.le_refl _, Nat.le_refl _⟩
  | cons hFirst _ ih =>
      simp only [List.count_cons]
      rcases refines_ofBool_iff.mp hFirst with rfl | rfl
      · constructor
        · simp
          omega
        · simp
          split <;> omega
      · rename_i b _ _ _
        cases b <;> simp [ofBool] <;> omega

/-- Enough operands are true when they are in every completion. -/
theorem atLeast_eq_true_iff {minimum : Nat} {values : List Truth} :
    atLeast minimum values = .true ↔
      ∀ completed, Completes values completed → minimum ≤ completed.count Bool.true := by
  have hAtLeast : atLeast minimum values = .true ↔ minimum ≤ values.count .true := by
    unfold atLeast
    split_ifs with hTrue <;> simp [hTrue]
  rw [hAtLeast]
  constructor
  · intro h completed hCompletes
    exact Nat.le_trans h hCompletes.count.1
  · intro h
    rw [← count_fill_false]
    exact h _ (completes_fill values Bool.false)

theorem atLeast_eq_false_iff {minimum : Nat} {values : List Truth} :
    atLeast minimum values = .false ↔
      ∀ completed, Completes values completed → completed.count Bool.true < minimum := by
  have hAtLeast : atLeast minimum values = .false ↔
      values.count .true + values.count .unknown < minimum := by
    unfold atLeast
    split_ifs with hTrue hFalse
    · simp
      omega
    · simp [hFalse]
    · simp [hFalse]
  rw [hAtLeast]
  constructor
  · intro h completed hCompletes
    exact Nat.lt_of_le_of_lt hCompletes.count.2 h
  · intro h
    rw [← count_fill_true]
    exact h _ (completes_fill values Bool.true)

theorem completes_of_refines {values refined : List Truth} {completed : List Bool}
    (h : List.Forall₂ Refines values refined) (hCompletes : Completes refined completed) :
    Completes values completed := by
  induction h generalizing completed with
  | nil => exact hCompletes
  | cons hFirst _ ih =>
      cases hCompletes with
      | cons hCompleted hRest =>
          refine List.Forall₂.cons (fun hKnown => ?_) (ih hRest)
          rw [hCompleted (by rw [hFirst hKnown]; exact hKnown), hFirst hKnown]

/-- A count that is decided stays so when more operands are known. -/
theorem atLeast_refines {values refined : List Truth} (h : List.Forall₂ Refines values refined)
    (minimum : Nat) : (atLeast minimum values).Refines (atLeast minimum refined) := by
  intro hKnown
  cases hOutcome : atLeast minimum values with
  | unknown => exact absurd hOutcome hKnown
  | true =>
      rw [atLeast_eq_true_iff] at hOutcome ⊢
      exact fun completed hCompletes => hOutcome completed (completes_of_refines h hCompletes)
  | false =>
      rw [atLeast_eq_false_iff] at hOutcome ⊢
      exact fun completed hCompletes => hOutcome completed (completes_of_refines h hCompletes)

/-- All operands are as many as there are. -/
theorem atLeast_length (values : List Truth) : atLeast values.length values = all values := by
  have hLength : values.length =
      values.count .true + values.count .false + values.count .unknown := by
    induction values with
    | nil => rfl
    | cons t rest ih =>
        rw [List.length_cons, ih]
        cases t <;> simp <;> omega
  unfold atLeast all
  simp only [← List.count_pos_iff]
  split_ifs <;> first | rfl | omega

theorem atLeast_one (values : List Truth) : atLeast 1 values = any values := by
  unfold atLeast any
  simp only [← List.count_pos_iff]
  split_ifs <;> first | rfl | omega

theorem all_refines {values refined : List Truth} (h : List.Forall₂ Refines values refined) :
    (all values).Refines (all refined) := by
  rw [← atLeast_length, ← atLeast_length, ← h.length_eq]
  exact atLeast_refines h _

theorem any_refines {values refined : List Truth} (h : List.Forall₂ Refines values refined) :
    (any values).Refines (any refined) := by
  rw [← atLeast_one, ← atLeast_one]
  exact atLeast_refines h 1

end Order

end Truth

end Library
