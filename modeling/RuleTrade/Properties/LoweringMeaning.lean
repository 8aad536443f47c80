import Mathlib.Algebra.Module.Rat
import RuleTrade.Backend.StrategyLowering
import RuleTrade.IR.Meaning
import RuleTrade.IR.Validation

/-! Targets keep their meaning when they are lowered: what a branch is lowered to comes to
the weights of its targets, and a complete branch is fully invested. -/

namespace RuleTrade

open Library

section Weights

/-- Members of a sleeve. A fallback stands in for a selection that has none. -/
def LeanTargetSleeve.members (decisions : Decisions) (sleeve : LeanTargetSleeve) :
    Option (List String) :=
  (sleeve.selectionId.elim (some sleeve.symbols) decisions.members).or
    (sleeve.fallbackSymbols.head?.map (fun symbol => [symbol]))

noncomputable def LeanTargetSleeve.weights (decisions : Decisions) (sleeve : LeanTargetSleeve) :
    Option Weights :=
  (sleeve.members decisions).map (Weights.equal sleeve.totalWeight)

noncomputable def LeanSnapshotAllocation.weights (decisions : Decisions)
    (allocation : LeanSnapshotAllocation) : Option Weights :=
  (decisions.retained allocation.snapshotId).map (allocation.factor • ·)

/-- Weights that a lowered branch comes to. -/
noncomputable def LoweredTargets.weights (decisions : Decisions) (lowered : LoweredTargets) :
    Option Weights :=
  Weights.sumOf (lowered.sleeves.map (LeanTargetSleeve.weights decisions) ++
    lowered.snapshotAllocations.map (LeanSnapshotAllocation.weights decisions))

theorem weights_merged (decisions : Decisions) (lowered other : LoweredTargets) :
    (lowered.merged other).weights decisions =
      Option.map₂ (· + ·) (lowered.weights decisions) (other.weights decisions) := by
  simp only [LoweredTargets.weights, LoweredTargets.merged, List.map_append, Weights.sumOf_append]
  generalize Weights.sumOf (lowered.snapshotAllocations.map _) = a
  generalize Weights.sumOf (lowered.sleeves.map _) = b
  generalize Weights.sumOf (other.snapshotAllocations.map _) = c
  generalize Weights.sumOf (other.sleeves.map _) = d
  cases a <;> cases b <;> cases c <;> cases d <;> simp [add_add_add_comm]

theorem map_scales (weights : Option Weights) (scale factor : ℚ) :
    (weights.map (factor • ·)).map (scale • ·) = weights.map ((scale * factor) • ·) := by
  cases weights <;> simp [mul_smul]

end Weights

section Carried

variable (operations : Dict String StrategyIROperation)

/-- What targets are lowered to under a scale. -/
structure Carries (id : String) (scale : ℚ) (lowered : LoweredTargets) : Prop where
  means : ∀ decisions, ∃ weights, Means operations decisions id weights ∧
    lowered.weights decisions = weights.map (scale • ·)
  members : ∀ decisions, Invests operations decisions →
    ∀ sleeve ∈ lowered.sleeves, ∀ members ∈ sleeve.members decisions, members ≠ []

/-- Symbols and selection that stand for the members of an operation. -/
def Chosen (assets : String) (symbols : List String) (selectionId : Option String) : Prop :=
  ∀ decisions, membersOf operations decisions assets =
    selectionId.elim (some symbols) decisions.members

/-- A sleeve of an allocation, before it is scaled. -/
structure LeanTargetSleeve.Allocated (assets : String) (weight : ExtendedDecimal)
    (sleeve : LeanTargetSleeve) : Prop where
  total : weight = .finite sleeve.totalWeight
  chosen : Chosen operations assets sleeve.symbols sleeve.selectionId
  fallback : sleeve.fallbackSymbols = []

/-- Snapshots are kept under their ids, for the targets that they retain. -/
def SnapshotsCarry (state : LoweringState) : Prop :=
  ∀ id snapshot, state.snapshots.get? id = some snapshot →
    snapshot.id = id ∧ ∃ inner lowered, bodyOf operations id = some (.retainTargetsOp inner) ∧
      snapshot.sleeveIds = lowered.sleeves.map LeanTargetSleeve.id ∧
      lowered.snapshotAllocations = [] ∧ Carries operations inner 1 lowered

/-- A lowering that keeps the snapshots, never runs out of fuel and returns such values. -/
abbrev Lowering.Meets {α : Type} (x : Lowering α) (Q : α → Prop) : Prop :=
  Effect.Ensures (SnapshotsCarry operations) (fun stop => stop ≠ .outOfFuel) x Q

variable {operations} {α : Type} {Q : α → Prop}

theorem snapshotsCarry_start : SnapshotsCarry operations {} := by
  intro id snapshot hSnapshot
  cases hSnapshot

theorem meets_refuse (message : String) : (refuse message : Lowering α).Meets operations Q :=
  .fail (by simp)

theorem meets_required {stop : LoweringStop} (h : stop ≠ .outOfFuel) (found : Option α) :
    (required stop found).Meets operations (fun a => found = some a) := by
  cases found with
  | none => exact .fail h
  | some a => exact .ret rfl

theorem meets_finiteNumber (number : ExtendedDecimal) :
    (finiteNumber number).Meets operations (fun value => number = .finite value) := by
  cases number with
  | finite value => exact .ret rfl
  | infinite negative => exact .fail (by simp)
  | nan => exact .fail (by simp)

/-- Writing to the other dictionaries. -/
theorem meets_store {change : LoweringState → LoweringState} {a : α}
    (h : ∀ state, (change state).snapshots = state.snapshots) (hReturn : Q a) :
    Lowering.Meets operations (Effect.update change >>= fun _ => pure a) Q := by
  apply Effect.Ensures.bind
  · apply Effect.Ensures.update
    intro state hState id snapshot hSnapshot
    rw [h state] at hSnapshot
    exact hState id snapshot hSnapshot
  · exact fun _ _ => .ret hReturn

theorem meets_lowerFilter (body : Option IROperationBody) :
    (lowerFilter body).Meets operations (fun _ => True) := by
  unfold lowerFilter
  split
  · apply (meets_finiteNumber _).bind
    intro threshold _
    apply Effect.Ensures.bind
    · exact .collect (fun _ _ => (meets_finiteNumber _).bind (fun _ _ => .ret trivial))
    · exact fun _ _ => Effect.Ensures.bind (.collect (fun _ _ =>
        (meets_required (by simp) _).bind (fun _ _ =>
          (meets_required (by simp) _).bind (fun _ _ => .ret trivial)))) (fun _ _ => .ret trivial)
  · exact .ret trivial

end Carried

section Members

variable {operations : Dict String StrategyIROperation} {requirements : StrategyRequirements}

theorem bodyOf_eq {id : String} {operation : StrategyIROperation}
    (h : operations.get? id = some operation) : bodyOf operations id = some operation.body := by
  rw [bodyOf, h]
  rfl

theorem meets_lowerMomentumSelection (ranked : String) (count : Int) (policy : ShortagePolicy)
    (selectionId : String) (cooldown : Option String) :
    (lowerMomentumSelection operations requirements ranked count policy selectionId
      cooldown).Meets operations (fun _ => True) := by
  unfold lowerMomentumSelection
  apply (meets_required (by simp) _).bind
  intro returns _
  apply (meets_required (by simp) _).bind
  intro history _
  apply (meets_lowerFilter _).bind
  intro filter _
  apply Effect.Ensures.bind (Q := fun _ => True)
  · cases returns.value with
    | none => exact .ret trivial
    | some value => exact (meets_required (by simp) _).weaken (fun _ _ => trivial)
  · exact fun _ _ => meets_store (fun _ => rfl) trivial

theorem chosen_fixed {assets : String} {body : IROperationBody} {symbols : List String}
    (hBody : bodyOf operations assets = some body) (hSymbols : body.symbols? = some symbols) :
    Chosen operations assets symbols none := by
  intro decisions
  simp [membersOf, hBody, hSymbols]

theorem chosen_selected {assets : String} {body : IROperationBody}
    (hBody : bodyOf operations assets = some body) (hSymbols : body.symbols? = none)
    (symbols : List String) : Chosen operations assets symbols (some assets) := by
  intro decisions
  simp [membersOf, hBody, hSymbols]

theorem meets_lowerMembers (assets : String) :
    (lowerMembers operations requirements assets).Meets operations
      (fun chosen => Chosen operations assets chosen.1 chosen.2) := by
  unfold lowerMembers
  cases hUpstream : operations.get? assets with
  | none => exact meets_refuse _
  | some upstream =>
      have hBody := bodyOf_eq hUpstream
      obtain ⟨own, component, body⟩ := upstream
      cases body with
      | assetSetOp symbols => exact .ret (chosen_fixed hBody rfl)
      | universeOp symbols => exact .ret (chosen_fixed hBody rfl)
      | randomNOp source count resample bindings =>
          exact (meets_required (by simp) _).bind (fun _ _ =>
            meets_store (fun _ => rfl) (chosen_selected hBody rfl _))
      | topNOp ranked count policy =>
          exact (meets_lowerMomentumSelection _ _ _ _ _).bind (fun _ _ =>
            .ret (chosen_selected hBody rfl _))
      | elapsedSessionsGateOp candidates state sessions =>
          dsimp only
          split
          · exact (meets_lowerMomentumSelection _ _ _ _ _).bind (fun _ _ =>
              (meets_required (by simp) _).bind (fun _ _ =>
                meets_store (fun _ => rfl) (chosen_selected hBody rfl _)))
          · exact meets_refuse _
      | _ => exact meets_refuse _

theorem meets_lowerSleeve (id assets : String) (weight : ExtendedDecimal) :
    (lowerSleeve operations requirements id assets weight).Meets operations
      (LeanTargetSleeve.Allocated operations assets weight) := by
  apply (meets_lowerMembers assets).bind
  intro chosen hChosen
  apply (meets_finiteNumber _).bind
  intro total hTotal
  exact meets_store (fun _ => rfl) ⟨hTotal, hChosen, rfl⟩

/-- The symbol of a fallback, which allocates the same weight to it. -/
theorem meets_fallbackSymbol (weight : ExtendedDecimal) (spares : String) :
    (fallbackSymbol operations weight spares).Meets operations (fun symbol =>
      ∃ spare, bodyOf operations spares = some (.equalWeightOp spare weight) ∧
        (bodyOf operations spare).bind IROperationBody.symbols? = some [symbol]) := by
  unfold fallbackSymbol
  split
  · split
    · split_ifs with hSame
      · subst hSame
        exact .ret ⟨_, ‹_›, ‹_›⟩
      · exact meets_refuse _
    · exact meets_refuse _
  · exact meets_refuse _

end Members

section Targets

theorem id_of_operationsById {ir : StrategyIR} {id : String} {operation : StrategyIROperation}
    (h : ir.operationsById.get? id = some operation) : operation.id = id := by
  obtain ⟨entry, -, hEntry⟩ := List.mem_map.mp (Dict.mem_of_get?_ofList h)
  cases hEntry
  rfl

variable {operations : Dict String StrategyIROperation} {requirements : StrategyRequirements}
  {sqrt : ℚ → ℚ}

/-- A scaled sleeve carries what is allocated, or the fallback where there is nothing. -/
theorem carries_sleeve (sqrt : ℚ → ℚ) (fallback : Option String) {id assets : String}
    {weight : ExtendedDecimal} {sleeve lowered : LeanTargetSleeve} {scale : ℚ}
    {source : Option String}
    (hSleeve : sleeve.Allocated operations assets weight)
    (hLowered : lowered =
      { sleeve.scaled (.exact sqrt) scale source with fallbackSymbols := fallback.toList })
    (hMeans : ∀ decisions, Means operations decisions id
      (((membersOf operations decisions assets).or (fallback.map (fun symbol => [symbol]))).map
        (Weights.equal sleeve.totalWeight))) :
    Carries operations id scale { sleeves := [lowered] } := by
  have hMembers : ∀ decisions, lowered.members decisions =
      (membersOf operations decisions assets).or (fallback.map (fun symbol => [symbol])) := by
    intro decisions
    rw [hSleeve.chosen decisions, hLowered]
    cases fallback <;> rfl
  constructor
  · intro decisions
    refine ⟨_, hMeans decisions, ?_⟩
    apply (Weights.sumOf_singleton _).trans
    rw [LeanTargetSleeve.weights, hMembers, Option.map_map, hLowered]
    congr 1
    funext members
    exact Weights.equal_mul _ _ _
  · intro decisions hInvests other hOther members hChosen
    rw [List.mem_singleton.mp hOther, hMembers] at hChosen
    rcases Option.or_eq_some_iff.mp hChosen with hFound | ⟨-, hFallback⟩
    · exact hInvests.members assets members hFound
    · obtain ⟨symbol, -, rfl⟩ := Option.map_eq_some_iff.mp hFallback
      exact List.cons_ne_nil _ _

theorem Carries.merge {id left right : String} {scale : ℚ} {first second : LoweredTargets}
    (h : bodyOf operations id = some (.mergeTargetsOp left right))
    (hLeft : Carries operations left scale first) (hRight : Carries operations right scale second) :
    Carries operations id scale (first.merged second) := by
  constructor
  · intro decisions
    obtain ⟨a, hA, hFirst⟩ := hLeft.means decisions
    obtain ⟨b, hB, hSecond⟩ := hRight.means decisions
    refine ⟨_, .merge h hA hB, ?_⟩
    rw [weights_merged, hFirst, hSecond]
    cases a <;> cases b <;> simp [smul_add]
  · intro decisions hInvests sleeve hSleeve
    rcases List.mem_append.mp hSleeve with hSleeve | hSleeve
    · exact hLeft.members decisions hInvests sleeve hSleeve
    · exact hRight.members decisions hInvests sleeve hSleeve

theorem Carries.scale {id targets : String} {scale factor : ℚ} {lowered : LoweredTargets}
    (h : bodyOf operations id = some (.scaleTargetsOp targets (.finite factor)))
    (hTargets : Carries operations targets (scale * factor) lowered) :
    Carries operations id scale lowered := by
  refine ⟨?_, hTargets.members⟩
  intro decisions
  obtain ⟨weights, hWeights, hSame⟩ := hTargets.means decisions
  exact ⟨_, .scale h hWeights, by rw [hSame, map_scales]⟩

theorem Carries.kept {id targets inner : String} {scale factor : ℚ} {snapshot : LeanTargetSnapshot}
    (h : bodyOf operations id = some (.scaleTargetsOp targets (.finite factor)))
    (hRetain : bodyOf operations targets = some (.retainTargetsOp inner))
    (hSnapshot : snapshot.id = targets) (component : String) :
    Carries operations id scale
      { snapshotAllocations := [⟨snapshot.id, scale * factor, component⟩] } := by
  constructor
  · intro decisions
    refine ⟨_, .scale h (.retain hRetain), ?_⟩
    rw [map_scales, ← hSnapshot]
    exact Weights.sumOf_singleton _
  · intro decisions hInvests sleeve hSleeve
    cases hSleeve

/-- A snapshot is taken once for the targets that it retains. -/
theorem meets_lowerSnapshot {operation : StrategyIROperation} {inner : String}
    {lower : Lowering LoweredTargets}
    (hRetain : bodyOf operations operation.id = some (.retainTargetsOp inner))
    (hLower : lower.Meets operations (Carries operations inner 1)) :
    (lowerSnapshot operation lower).Meets operations
      (fun snapshot => snapshot.id = operation.id) := by
  unfold lowerSnapshot
  apply Effect.Ensures.bind (Q := fun existing =>
    ∀ snapshot : LeanTargetSnapshot, existing = some snapshot → snapshot.id = operation.id)
  · apply Effect.Ensures.read
    intro state hState snapshot hSnapshot
    exact (hState _ _ hSnapshot).1
  · intro existing hExisting
    cases existing with
    | some snapshot => exact .ret (hExisting snapshot rfl)
    | none =>
        apply hLower.bind
        intro lowered hLowered
        dsimp only
        split_ifs with hPlain
        · refine Effect.Ensures.bind (.update ?_) (fun _ _ => .ret rfl)
          intro state hState id snapshot hSnapshot
          change (state.snapshots.set operation.id _).get? id = some snapshot at hSnapshot
          rw [Dict.get?_set] at hSnapshot
          split_ifs at hSnapshot with hSame
          · cases hSnapshot
            subst hSame
            exact ⟨rfl, inner, lowered, hRetain, rfl, List.isEmpty_iff.mp hPlain, hLowered⟩
          · exact hState id snapshot hSnapshot
        · exact meets_refuse _

variable (operations requirements sqrt)

/-- With enough fuel targets are lowered to what carries them, or refused. -/
def LowersToMeaning (id : String) : Prop :=
  ∃ enough, ∀ fuel ≥ enough, ∀ scale source,
    (lowerTargets (.exact sqrt) operations requirements fuel id scale source).Meets operations
      (Carries operations id scale)

variable {operations requirements sqrt}

theorem lowers_of_round {id : String} (enough : Nat) (h : ∀ fuel ≥ enough, ∀ scale source,
    (lowerTargets (.exact sqrt) operations requirements (fuel + 1) id scale source).Meets operations
      (Carries operations id scale)) : LowersToMeaning operations requirements sqrt id := by
  refine ⟨enough + 1, ?_⟩
  intro fuel hFuel scale source
  obtain ⟨rest, rfl⟩ : ∃ rest, fuel = rest + 1 := ⟨fuel - 1, by omega⟩
  exact h rest (by omega) scale source

theorem mem_operandIds {id child : String} {body : IROperationBody}
    (hBody : bodyOf operations id = some body) (hChild : child ∈ body.operands.map IROperand.id) :
    child ∈ operandIds operations id := by
  obtain ⟨operation, hOperation, rfl⟩ := Option.map_eq_some_iff.mp hBody
  rw [operandIds, hOperation]
  exact hChild

theorem lowers_scale {id own component targets : String} {number : ExtendedDecimal}
    (hKeys : ∀ id operation, operations.get? id = some operation → operation.id = id)
    (h : operations.get? id = some ⟨own, component, .scaleTargetsOp targets number⟩)
    (hBelow : LowersToMeaning operations requirements sqrt targets)
    (hRetained : ∀ inner, bodyOf operations targets = some (.retainTargetsOp inner) →
      LowersToMeaning operations requirements sqrt inner) :
    LowersToMeaning operations requirements sqrt id := by
  obtain ⟨m, hBelow⟩ := hBelow
  obtain ⟨n, hKept⟩ : ∃ n, ∀ fuel ≥ n, ∀ inner,
      bodyOf operations targets = some (.retainTargetsOp inner) →
        (lowerTargets (.exact sqrt) operations requirements fuel inner 1 none).Meets
          operations (Carries operations inner 1) := by
    by_cases hRetains : ∃ inner, bodyOf operations targets = some (.retainTargetsOp inner)
    · obtain ⟨inner, hRetain⟩ := hRetains
      obtain ⟨n, hInner⟩ := hRetained inner hRetain
      refine ⟨n, fun fuel hFuel other hOther => ?_⟩
      cases hRetain.symm.trans hOther
      exact hInner fuel hFuel 1 none
    · exact ⟨0, fun _ _ inner hInner => absurd ⟨inner, hInner⟩ hRetains⟩
  apply lowers_of_round (m + n)
  intro fuel hFuel scale source
  rw [lowerTargets, h]
  dsimp only
  split_ifs
  · exact meets_refuse _
  · apply (meets_finiteNumber _).bind
    rintro factor rfl
    split
    · rename_i kept component inner hFound
      obtain rfl : kept = targets := hKeys _ _ hFound
      have hRetain := bodyOf_eq hFound
      apply (meets_lowerSnapshot hRetain (hKept fuel (by omega) inner hRetain)).bind
      intro snapshot hSnapshot
      exact .ret (.kept (bodyOf_eq h) hRetain hSnapshot _)
    · apply (hBelow fuel (by omega) _ _).weaken
      exact fun _ hLowered => .scale (bodyOf_eq h) hLowered

theorem lowers_firstNonEmpty {id own component primary spares : String}
    (h : operations.get? id = some ⟨own, component, .firstNonEmptyTargetsOp primary spares⟩) :
    LowersToMeaning operations requirements sqrt id := by
  apply lowers_of_round 0
  intro fuel _ scale source
  rw [lowerTargets, h]
  dsimp only
  split
  · rename_i assets weight hPrimary
    apply (meets_fallbackSymbol _ _).bind
    rintro symbol ⟨spare, hSpares, hSymbol⟩
    apply (meets_lowerSleeve _ _ _).bind
    intro sleeve hSleeve
    obtain rfl := hSleeve.total
    apply (Effect.Ensures.read (Q := fun _ => True) (fun _ _ => trivial)).bind
    intro momentum _
    split_ifs
    · apply meets_store (fun _ => rfl)
      apply carries_sleeve sqrt (some symbol) hSleeve rfl
      intro decisions
      have hSpare : membersOf operations decisions spare = some [symbol] := by
        rw [membersOf, hSymbol]
      have hMeans := Means.firstNonEmpty (bodyOf_eq h)
        (Means.equalWeight hPrimary : Means operations decisions _ _) (.equalWeight hSpares)
      rw [hSpare] at hMeans
      cases hMembers : membersOf operations decisions assets <;> simpa [hMembers] using hMeans
    · exact meets_refuse _
  · exact meets_refuse _

/-- Targets without endless operands are lowered, by induction along the operands. -/
theorem lowers_of_founded
    (hKeys : ∀ id operation, operations.get? id = some operation → operation.id = id)
    (hFounded : WellFounded (fun child parent => child ∈ operandIds operations parent))
    (id : String) : LowersToMeaning operations requirements sqrt id := by
  induction id using hFounded.transGen.induction with
  | _ id ih =>
  cases hOperation : operations.get? id with
  | none =>
      apply lowers_of_round 0
      intro fuel _ scale source
      rw [lowerTargets, hOperation]
      exact meets_refuse _
  | some operation =>
      have hBody := bodyOf_eq hOperation
      have hOperand := fun child => @mem_operandIds _ id child _ hBody
      obtain ⟨own, component, body⟩ := operation
      cases body with
      | mergeTargetsOp left right =>
          obtain ⟨m, hLeft⟩ := ih left (.single (hOperand left (.head _)))
          obtain ⟨n, hRight⟩ := ih right (.single (hOperand right (.tail _ (.head _))))
          apply lowers_of_round (m + n)
          intro fuel hFuel scale source
          rw [lowerTargets, hOperation]
          exact (hLeft fuel (by omega) _ _).bind (fun _ hFirst =>
            (hRight fuel (by omega) _ _).bind (fun _ hSecond => .ret (.merge hBody hFirst hSecond)))
      | scaleTargetsOp targets number =>
          have hTargets := hOperand targets (.head _)
          apply lowers_scale hKeys hOperation (ih targets (.single hTargets))
          intro inner hRetain
          exact ih inner (.tail (.single (mem_operandIds hRetain (.head _))) hTargets)
      | equalWeightOp assets weight =>
          apply lowers_of_round 0
          intro fuel _ scale source
          rw [lowerTargets, hOperation]
          apply (meets_lowerSleeve _ _ _).bind
          intro sleeve hSleeve
          obtain rfl := hSleeve.total
          apply meets_store (fun _ => rfl)
          apply carries_sleeve sqrt none hSleeve
          · rw [Option.toList_none, ← hSleeve.fallback]
            rfl
          · intro decisions
            simpa using Means.equalWeight hBody
      | firstNonEmptyTargetsOp primary spares => exact lowers_firstNonEmpty hOperation
      | observeTargetExitsOp targets state =>
          obtain ⟨m, hTargets⟩ := ih targets (.single (hOperand targets (.head _)))
          apply lowers_of_round m
          intro fuel hFuel scale source
          rw [lowerTargets, hOperation]
          apply (hTargets fuel hFuel _ _).bind
          intro lowered hLowered
          apply (Effect.Ensures.read (Q := fun _ => True) (fun _ _ => trivial)).bind
          intro cooldowns _
          split_ifs
          · refine .ret ⟨fun decisions => ?_, hLowered.members⟩
            obtain ⟨weights, hWeights, hSame⟩ := hLowered.means decisions
            exact ⟨weights, .observe hBody hWeights, hSame⟩
          · exact meets_refuse _
      | _ =>
          apply lowers_of_round 0
          intro fuel _ scale source
          rw [lowerTargets, hOperation]
          exact meets_refuse _

end Targets

section Branches

/-- Under full investment lowered targets come to the weight of their branch. -/
theorem Carries.degree {operations : Dict String StrategyIROperation} {sqrt : ℚ → ℚ} {id : String}
    {scale : ℚ} {lowered : LoweredTargets} (h : Carries operations id scale lowered)
    {decisions : Decisions} (hInvests : Invests operations decisions) :
    ∀ weights ∈ lowered.weights decisions,
      weights.degree = lowered.branchWeight (.exact sqrt) := by
  intro weights hWeights
  rw [LoweredTargets.weights, Weights.sumOf_append] at hWeights
  obtain ⟨direct, kept, hDirect, hKept, rfl⟩ := Option.map₂_eq_some_iff.mp hWeights
  rw [map_add, LoweredTargets.branchWeight, DecimalContext.exact_add, DecimalContext.exact_sum,
    DecimalContext.exact_sum, Weights.degree_sumOf _ direct hDirect,
    Weights.degree_sumOf _ kept hKept]
  · intro allocation _ found hFound
    obtain ⟨retained, hRetained, rfl⟩ := Option.map_eq_some_iff.mp hFound
    rw [map_rat_smul, hInvests.retained _ retained hRetained, smul_eq_mul, mul_one]
  · intro sleeve hSleeve found hFound
    obtain ⟨members, hMembers, rfl⟩ := Option.map_eq_some_iff.mp hFound
    exact Weights.degree_equal (h.members decisions hInvests sleeve hSleeve members hMembers) _

/-- Targets mean full investment, whatever is selected and fully invested when retained. -/
def MeansInvestment (operations : Dict String StrategyIROperation) (targets : String) : Prop :=
  ∀ decisions, Invests operations decisions →
    ∃ weights, Means operations decisions targets weights ∧ ∀ w ∈ weights, w.degree = 1

/-- A complete branch means full investment. -/
theorem Carries.invested {operations : Dict String StrategyIROperation} {sqrt : ℚ → ℚ} {id : String}
    {lowered : LoweredTargets} (h : Carries operations id 1 lowered)
    (hComplete : lowered.branchWeight (.exact sqrt) = 1) : MeansInvestment operations id := by
  intro decisions hInvests
  obtain ⟨weights, hWeights, hSame⟩ := h.means decisions
  refine ⟨weights, hWeights, ?_⟩
  intro w hw
  rw [← hComplete]
  apply h.degree hInvests
  rw [hSame, hw]
  simp

theorem meets_requireCompleteBranch {operations : Dict String StrategyIROperation}
    (ctx : DecimalContext) (lowered : LoweredTargets) (label : String) :
    (requireCompleteBranch ctx lowered label).Meets operations
      (fun _ => lowered.branchWeight ctx = 1) := by
  unfold requireCompleteBranch
  split_ifs with hComplete
  · exact .ret hComplete
  · exact meets_refuse _

end Branches

section Accepted

variable {ir : StrategyIR} {order : DependencyOrder} {bound : Nat}
  {requirements : StrategyRequirements} {sqrt : ℚ → ℚ}

/-- The search of the validation finds no cycle only where operands end. -/
theorem founded_of_cycleIssues {operations : Dict String StrategyIROperation}
    (h : cycleIssues operations order bound = .ok []) (hBound : operations.keys.length < bound) :
    WellFounded (fun child parent => child ∈ operandIds operations parent) := by
  have hOutside : ∀ id, id ∉ operations.keys → operandIds operations id = [] := by
    intro id hId
    rw [operandIds, Dict.get?_eq_none_iff.mpr hId]
    rfl
  have hMem : ∀ id child, child ∈ dependencies operations order id ↔
      child ∈ operandIds operations id ∧ child ∈ operations.keys := by
    intro id child
    rw [dependencies, (order.perm _).mem_iff, List.mem_dedup, List.mem_filter]
    exact and_congr_right (fun _ => Dict.get?_isSome_iff)
  obtain ⟨found, hFound, -, hFounded⟩ := DepthFirst.findsCycle_spec
    (fun id _ child hChild => ((hMem id child).mp hChild).2)
    (fun id hId => by
      rw [dependencies, hOutside id hId]
      exact (order.perm _).eq_nil) hBound
  rw [cycleIssues, hFound] at h
  cases found with
  | true => cases h
  | false =>
      refine ⟨fun id => (hFounded rfl).induction id (fun id ih => Acc.intro id ?_)⟩
      intro child hChild
      by_cases hPresent : child ∈ operations.keys
      · exact ih child ((hMem id child).mpr ⟨hChild, hPresent⟩)
      · refine Acc.intro child (fun below hBelow => ?_)
        rw [hOutside child hPresent] at hBelow
        cases hBelow

/-- Operations that are collected without an issue are kept as they stand. -/
theorem entries_of_collected {states : List String} {index : Nat}
    {operations all : Dict String StrategyIROperation} {items : List StrategyIROperation}
    (h : collectOperations states index operations items = .ok (all, [])) :
    all.entries = operations.entries ++ items.map (fun operation => (operation.id, operation)) := by
  induction items generalizing index operations with
  | nil =>
      cases h
      simp
  | cons operation rest ih =>
      obtain ⟨own, -, h⟩ := except_bind_ok.mp h
      obtain ⟨⟨found, later⟩, hRest, h⟩ := except_bind_ok.mp h
      obtain ⟨rfl, hIssues⟩ := Prod.mk.inj (Except.ok.inj h)
      simp only [List.append_eq_nil_iff] at hIssues
      obtain ⟨⟨⟨hId, -⟩, -⟩, rfl⟩ := hIssues
      unfold idIssues irIssueUnless at hId
      split_ifs at hId with hEmpty hNew
      have hFresh : operation.id ∉ operations.keys := by
        intro hMem
        rw [Dict.contains, Dict.get?_isSome_iff.mpr hMem] at hNew
        cases hNew
      have hAdd : addOperation operations operation = operations.set operation.id operation := by
        rw [addOperation, if_neg]
        rintro (hNone | hOld)
        · exact hEmpty hNone
        · exact hFresh (Dict.mem_keys_of_contains hOld)
      have hEntries : (operations.set operation.id operation).entries =
          operations.entries ++ [(operation.id, operation)] := Dict.write_of_notMem hFresh
      rw [ih hRest, hAdd, hEntries, List.append_assoc]
      rfl

/-- Operands of an accepted IR end. -/
theorem founded_of_accepted (h : validateStrategyIr order bound ir)
    (hBound : ir.operations.length < bound) :
    WellFounded (fun child parent => child ∈ operandIds ir.operationsById parent) := by
  unfold validateStrategyIr collectIrValidationIssues at h
  cases hCollected : collectOperations ir.stateIds 0 Dict.empty ir.operations with
  | error failure =>
      rw [hCollected] at h
      cases h
  | ok collected =>
      obtain ⟨operations, own⟩ := collected
      rw [hCollected] at h
      obtain ⟨cycles, hCycles, h⟩ := except_bind_ok.mp h
      obtain ⟨marked, -, h⟩ := except_bind_ok.mp h
      have hNone := Except.ok.inj h
      simp only [List.append_eq_nil_iff] at hNone
      obtain ⟨⟨⟨⟨⟨⟨⟨⟨⟨-, -⟩, -⟩, rfl⟩, -⟩, rfl⟩, -⟩, -⟩, -⟩, -⟩ := hNone
      have hEntries := entries_of_collected hCollected
      have hSame : operations = ir.operationsById := by
        apply Dict.ext_entries
        rw [hEntries, StrategyIR.operationsById, Dict.entries_ofList]
        · rfl
        · have hNodup := operations.nodup
          rw [hEntries] at hNodup
          exact hNodup
      subst hSame
      apply founded_of_cycleIssues hCycles
      rwa [Dict.keys, hEntries, List.map_append, List.map_map, List.length_append, List.length_map,
        Dict.empty, List.length_map, List.length_nil, Nat.zero_add]

/-- One allocation to one asset, every day. -/
def heldIR : StrategyIR where
  strategyIdentity := "held"
  operations := [⟨"day", "schedule", .dailyScheduleOp⟩, ⟨"assets", "universe", .assetSetOp ["SPY"]⟩,
    ⟨"held", "allocation", .equalWeightOp "assets" (.finite 1)⟩,
    ⟨"order", "rebalance", .rebalanceOp "held"⟩]
  entrypoints := [⟨"day", "order"⟩]

theorem heldIR_accepted : validateStrategyIr ⟨id, fun ids => .refl ids⟩ 5 heldIR := by
  unfold validateStrategyIr
  decide

end Accepted

end RuleTrade
