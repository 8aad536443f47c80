import Mathlib.Data.Finsupp.Weight
import Mathlib.GroupTheory.GroupAction.Ring
import RuleTrade.IR.Requirements

/-! What the targets of a Strategy IR mean: the weights they come to, whatever selections
choose and whatever is retained. -/

namespace RuleTrade

open Library

/-- Weights of assets. -/
abbrev Weights := String →₀ ℚ

namespace Weights

/-- A weight in equal parts on members, each as often as it occurs. -/
noncomputable def equal (total : ℚ) (members : List String) : Weights :=
  (members.map (fun member => Finsupp.single member (total / members.length))).sum

/-- Sum of weights; none when a part is missing. -/
noncomputable def sumOf (parts : List (Option Weights)) : Option Weights :=
  parts.foldr (Option.map₂ (· + ·)) (some 0)

@[simp] theorem sumOf_singleton (part : Option Weights) : sumOf [part] = part := by
  cases part <;> simp [sumOf]

theorem sumOf_append (parts others : List (Option Weights)) :
    sumOf (parts ++ others) = Option.map₂ (· + ·) (sumOf parts) (sumOf others) := by
  induction parts with
  | nil =>
      rw [List.nil_append]
      cases sumOf others <;> simp [sumOf]
  | cons part parts ih =>
      show Option.map₂ _ part (sumOf (parts ++ others)) =
        Option.map₂ _ (Option.map₂ _ part (sumOf parts)) _
      rw [ih]
      exact (Option.map₂_assoc (fun a b c => add_assoc a b c)).symm

theorem equal_mul (total factor : ℚ) (members : List String) :
    equal (total * factor) members = factor • equal total members := by
  rw [equal, equal, List.smul_sum, List.map_map]
  congr 2
  funext member
  rw [Function.comp_apply, Finsupp.smul_single, smul_eq_mul]
  ring_nf

theorem degree_equal {members : List String} (h : members ≠ []) (total : ℚ) :
    (equal total members).degree = total := by
  have hLength : (members.length : ℚ) ≠ 0 := by
    rw [Nat.cast_ne_zero]
    exact (List.length_pos_iff.mpr h).ne'
  rw [equal, map_list_sum, List.map_map]
  simp only [Function.comp_def, Finsupp.degree_single, List.map_const', List.sum_replicate,
    nsmul_eq_mul]
  exact mul_div_cancel₀ total hLength

/-- A sum of parts that each come to a total comes to the sum of the totals. -/
theorem degree_sumOf {ι : Type} {items : List ι} {part : ι → Option Weights} {total : ι → ℚ}
    (h : ∀ item ∈ items, ∀ weights ∈ part item, weights.degree = total item) :
    ∀ weights ∈ sumOf (items.map part), weights.degree = (items.map total).sum := by
  induction items with
  | nil =>
      intro weights hWeights
      cases hWeights
      exact map_zero _
  | cons item items ih =>
      intro weights hWeights
      obtain ⟨first, rest, hFirst, hRest, rfl⟩ := Option.map₂_eq_some_iff.mp hWeights
      rw [map_add, h item (by simp) first hFirst, List.map_cons, List.sum_cons,
        ih (fun other hOther => h other (by simp [hOther])) rest hRest]

end Weights

/-- What is decided outside of the targets: the members that a selection gives, none when
it orders nothing, and the targets that are retained. -/
structure Decisions where
  members : String → Option (List String)
  retained : String → Option Weights

section Meaning

variable (operations : Dict String StrategyIROperation)

/-- Members of an operation over assets. -/
def membersOf (decisions : Decisions) (assets : String) : Option (List String) :=
  match (bodyOf operations assets).bind IROperationBody.symbols? with
  | some symbols => some symbols
  | none => decisions.members assets

/-- Weights that an operation of targets means. Without any nothing is ordered. -/
inductive Means (decisions : Decisions) : String → Option Weights → Prop where
  | equalWeight {id assets total}
      (h : bodyOf operations id = some (.equalWeightOp assets (.finite total))) :
      Means decisions id ((membersOf operations decisions assets).map (Weights.equal total))
  | merge {id left right a b} (h : bodyOf operations id = some (.mergeTargetsOp left right))
      (hLeft : Means decisions left a) (hRight : Means decisions right b) :
      Means decisions id (Option.map₂ (· + ·) a b)
  | scale {id targets factor a}
      (h : bodyOf operations id = some (.scaleTargetsOp targets (.finite factor)))
      (hTargets : Means decisions targets a) :
      Means decisions id (a.map (factor • ·))
  | retain {id targets} (h : bodyOf operations id = some (.retainTargetsOp targets)) :
      Means decisions id (decisions.retained id)
  | firstNonEmpty {id primary fallback a b}
      (h : bodyOf operations id = some (.firstNonEmptyTargetsOp primary fallback))
      (hPrimary : Means decisions primary a) (hFallback : Means decisions fallback b) :
      Means decisions id (a.or b)
  | observe {id targets lastExitState a}
      (h : bodyOf operations id = some (.observeTargetExitsOp targets lastExitState))
      (hTargets : Means decisions targets a) : Means decisions id a

/-- Nothing that is allocated to is empty, and what is retained is fully invested. -/
structure Invests (decisions : Decisions) : Prop where
  members : ∀ assets, ∀ members ∈ membersOf operations decisions assets, members ≠ []
  retained : ∀ id, ∀ weights ∈ decisions.retained id, weights.degree = 1

end Meaning

end RuleTrade
