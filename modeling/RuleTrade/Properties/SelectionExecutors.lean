import RuleTrade.Execution.CompatibilitySelection
import RuleTrade.Library.Ranking
import RuleTrade.Properties.PrefixInvariance
import RuleTrade.Properties.SelectionStages
import Mathlib.Data.String.Basic

/-! The two executors of a Selection. They read the same truths and scores; they
differ in the order of tied members under a descending direction, and when no
member can be ranked and the policy chooses all there are. -/

namespace RuleTrade

open Library

section Observations

variable {ctx : DecimalContext} {snapshot : DailyMarketSnapshot} {cutoff : Nat}
  {candidate bindingId : Option String}

/-- An observation of the older executor is a daily reading, of a scalar cell. -/
theorem observation_ok {node : DailyValueNode} {result : DailyValueResult}
    {evidence : ValueObservationEvidence}
    (h : CompatibilitySelection.observation ctx (snapshot.view cutoff) candidate bindingId node =
      .ok (result, evidence)) :
    snapshot.dailyReading ctx cutoff node candidate bindingId =
        .ok ⟨evidence.value, evidence.reason, evidence.observedAt⟩ ∧
      result.semanticType.axes = [] ∧ result.cells.get? [] = some ⟨evidence.value, evidence.reason⟩ := by
  obtain ⟨evaluated, hEvaluated, h⟩ := except_bind_ok.mp h
  have hEvaluate := except_mapError_ok.mp hEvaluated
  split_ifs at h with hAxes
  rw [not_not] at hAxes
  split at h
  · cases h
  · cases h
  · rename_i cell observedAt hCell hObserved
    cases h
    refine ⟨?_, scalar_semanticType hEvaluate hAxes, hCell⟩
    rw [DailyMarketSnapshot.dailyReading, except_mapError_ok.mpr hEvaluate, except_ok_bind,
      if_neg (not_not.mpr hAxes), hCell, hObserved]

/-- A comparison of scalar results is the comparison of their cells. -/
theorem compareDailyValues_scalar {left right : DailyValueResult} {operator : ComparisonOperator}
    {truth : DailyTruthResult} {a b : DailyCell} (hLeftType : left.semanticType.axes = [])
    (hRightType : right.semanticType.axes = []) (hA : left.cells.get? [] = some a)
    (hB : right.cells.get? [] = some b) (h : compareDailyValues left right operator = .ok truth) :
    truth.values.get? [] = some (comparisonTruth operator a.value b.value) := by
  obtain ⟨axes, hAxes, h⟩ := except_bind_ok.mp h
  have hScalar := except_mapError_ok.mp hAxes
  unfold requireCompatibleValues at hScalar
  rw [alignedAxes_scalar hLeftType hRightType] at hScalar
  split_ifs at hScalar
  cases hScalar
  obtain ⟨keys, hKeys, h⟩ := except_bind_ok.mp h
  cases hKeys
  have hLeftKey : project [] left.axes [] = [] := by simp [project]
  have hRightKey : project [] right.axes [] = [] := by simp [project]
  have hTruth : .ok {
      axes := []
      values := Dict.empty.set [] (comparisonTruth operator a.value b.value)
      reasons := Dict.empty.set [] (if a.value.isSome ∧ b.value.isSome then none
        else a.reason.or b.reason) } = (.ok truth : Except DailyValueError DailyTruthResult) := by
    rw [← h]
    show _ = (Sequence.product []).foldlM _ _
    simp only [Sequence.product, List.foldlM_cons, List.foldlM_nil, hLeftKey, hRightKey, hA, hB]
    rfl
  cases hTruth
  exact Dict.get?_set_self _ _ _

end Observations

section Reading

variable {ctx : DecimalContext} {snapshot : DailyMarketSnapshot} {d : Decision} {r : Runtime}
  {bindingId candidate : Option String} {members : List String}
  (hEnvironment : d.environment = snapshot.environment ctx)

include hEnvironment

/-- The Program reads what the older executor observed. -/
theorem value_of_observation {node : DailyValueNode} {result : DailyValueResult}
    {evidence : ValueObservationEvidence}
    (h : CompatibilitySelection.observation ctx (snapshot.view d.cutoff) candidate bindingId node =
      .ok (result, evidence)) :
    ∃ observed, (value d r bindingId members (.daily node) candidate).result = .ok observed ∧
      observed.value = evidence.value := by
  obtain ⟨hReading, -⟩ := observation_ok h
  have hInRange : ¬((d.cutoff : Int) < 0 ∨ d.environment.dates.length ≤ (d.cutoff : Int)) := by
    have hCutoff := d.inRange
    omega
  have hDaily : d.environment.daily (d.cutoff : Int).toNat node candidate bindingId =
      .ok ⟨evidence.value, evidence.reason, evidence.observedAt⟩ := by
    rw [hEnvironment, Int.toNat_natCast]
    exact hReading
  rw [value, Decision.daily, if_neg hInRange,
    Logged.result_bind_of_ok ((Logged.result_lift _).trans hDaily)]
  exact ⟨_, rfl, rfl⟩

mutual

/-- A truth of the older executor is the Program's. Forms that the older executor
rejects never get here. -/
theorem condition_of_condition : ∀ (c : Condition) {outcome : Truth}
    {evidence : List ComparisonEvidenceV2},
    CompatibilitySelection.condition ctx (snapshot.view d.cutoff) candidate bindingId c =
      .ok (outcome, evidence) →
    (condition d r bindingId members c candidate).result = .ok outcome
  | .comparison semanticId operator (.daily left) (.daily right), outcome, evidence, h => by
      obtain ⟨⟨truth, compared⟩, hCompared, h⟩ := except_bind_ok.mp h
      cases h
      obtain ⟨⟨l, leftEvidence⟩, hLeft, hRest⟩ := except_bind_ok.mp hCompared
      obtain ⟨⟨r', rightEvidence⟩, hRight, hRest⟩ := except_bind_ok.mp hRest
      obtain ⟨truths, hTruths, hRest⟩ := except_bind_ok.mp hRest
      obtain ⟨-, hLeftType, hLeftCell⟩ := observation_ok hLeft
      obtain ⟨-, hRightType, hRightCell⟩ := observation_ok hRight
      have hOutcome := compareDailyValues_scalar hLeftType hRightType hLeftCell hRightCell
        (except_mapError_ok.mp hTruths)
      simp only [hOutcome] at hRest
      split at hRest
      · rename_i found reason hFound hReason
        cases hFound
        cases hRest
        obtain ⟨leftObserved, hLeftValue, hLeftSame⟩ := value_of_observation hEnvironment hLeft
        obtain ⟨rightObserved, hRightValue, hRightSame⟩ := value_of_observation hEnvironment hRight
        rw [condition, Logged.result_bind_of_ok hLeftValue, Logged.result_bind_of_ok hRightValue,
          hLeftSame, hRightSame, Logged.result_pure]
      · cases hRest
  | .not semanticId child, outcome, evidence, h => by
      obtain ⟨⟨truth, compared⟩, hChild, h⟩ := except_bind_ok.mp h
      cases h
      rw [condition, Logged.result_bind_of_ok (condition_of_condition child hChild),
        Logged.result_pure]
  | .booleanGroup semanticId kind children, outcome, evidence, h => by
      obtain ⟨results, hChildren, h⟩ := except_bind_ok.mp h
      obtain ⟨truth, hTruth, h⟩ := except_bind_ok.mp h
      cases h
      rw [condition, Logged.result_bind_of_ok (conditions_of_conditions children hChildren)]
      unfold combineTruth at hTruth
      split_ifs at hTruth
      cases kind with
      | all =>
          cases hTruth
          rfl
      | any =>
          cases hTruth
          rfl
  | .nOfM semanticId minimumTrue children, outcome, evidence, h => by
      obtain ⟨results, hChildren, h⟩ := except_bind_ok.mp h
      split_ifs at h

theorem conditions_of_conditions : ∀ (children : List Condition)
    {results : List (Truth × List ComparisonEvidenceV2)},
    CompatibilitySelection.conditions ctx (snapshot.view d.cutoff) candidate bindingId children =
      .ok results →
    (conditions d r bindingId members children candidate).result = .ok (results.map Prod.fst)
  | [], results, h => by
      cases h
      rfl
  | child :: rest, results, h => by
      obtain ⟨⟨truth, compared⟩, hChild, h⟩ := except_bind_ok.mp h
      obtain ⟨others, hRest, h⟩ := except_bind_ok.mp h
      cases h
      rw [conditions, Logged.result_bind_of_ok (condition_of_condition child hChild),
        Logged.result_bind_of_ok (conditions_of_conditions rest hRest), Logged.result_pure]
      rfl

end

end Reading

section Scored

variable {ctx : DecimalContext} {view : DailyView} {s : Selection}

/-- Truths and scores as the daily values give them. -/
def dailyAssignment (ctx : DecimalContext) (view : DailyView) (s : Selection) : Assignment where
  score member := match s.ranking with
    | .daily node => (CompatibilitySelection.score ctx view s node member).toOption.bind
        ValueObservationEvidence.value
    | _ => none
  eligible member :=
    ((CompatibilitySelection.outcome ctx view s member).toOption.map Prod.fst).getD .unknown

/-- Members that can be ranked, with their scores first. -/
def Assignment.scored (a : Assignment) (members : List String) : List (ℚ × String) :=
  (a.candidates members).map Prod.swap

theorem Assignment.scored_eq (a : Assignment) (members : List String) :
    a.scored members =
      (members.filter (fun member => a.eligible member = .true)).filterMap
        (fun member => (a.score member).map (·, member)) := by
  rw [Assignment.scored, Assignment.candidates, List.map_filterMap, List.filterMap_filter]
  congr 1
  funext member
  by_cases hTrue : a.eligible member = .true
  · simp [hTrue, Function.comp_def]
  · simp [hTrue]

theorem Assignment.score_of_mem {a : Assignment} {members : List String} {entry : ℚ × String}
    (h : entry ∈ a.scored members) : a.score entry.2 = some entry.1 := by
  rw [Assignment.scored_eq, List.mem_filterMap] at h
  obtain ⟨member, -, hEntry⟩ := h
  obtain ⟨score, hScore, rfl⟩ := Option.map_eq_some_iff.mp hEntry
  exact hScore

/-- What an execution of the older executor read, and what it selected. -/
structure Executed (ctx : DecimalContext) (view : DailyView) (s : Selection)
    (members : List String) (execution : SelectionExecutionV2) : Prop where
  outcome : ∀ member ∈ members, ∃ evidence,
    CompatibilitySelection.outcome ctx view s member =
      .ok ((dailyAssignment ctx view s).eligible member, evidence)
  score : ∃ node, s.ranking = .daily node ∧ ∀ member ∈ members,
    (dailyAssignment ctx view s).eligible member = .true →
      ∃ evidence, CompatibilitySelection.score ctx view s node member = .ok evidence ∧
        evidence.value = (dailyAssignment ctx view s).score member
  selected : execution.selectedAssets = (CompatibilitySelection.choose s
    ((CompatibilitySelection.rank s.direction ((dailyAssignment ctx view s).scored members)).map
      Prod.snd)).1

/-- A fallible map that keeps its argument, filtered by what it found. -/
theorem filter_of_forall₂ {α β : Type} {R : α → β → Prop} {xs : List α} {ys : List β}
    {p : β → Bool} {q : α → Bool} {f : β → α} (h : List.Forall₂ R xs ys)
    (hSame : ∀ x y, R x y → p y = q x ∧ f y = x) : (ys.filter p).map f = xs.filter q := by
  induction h with
  | nil => rfl
  | @cons x y xs ys hFirst hRest ih =>
      obtain ⟨hTest, hValue⟩ := hSame x y hFirst
      rw [List.filter_cons, List.filter_cons, hTest]
      split_ifs
      · rw [List.map_cons, ih, hValue]
      · exact ih

theorem filterMap_of_forall₂ {α β γ : Type} {R : α → β → Prop} {xs : List α} {ys : List β}
    {f : β → Option γ} {g : α → Option γ} (h : List.Forall₂ R xs ys)
    (hSame : ∀ x ∈ xs, ∀ y, R x y → f y = g x) : ys.filterMap f = xs.filterMap g := by
  induction h with
  | nil => rfl
  | @cons x y xs ys hFirst hRest ih =>
      rw [List.filterMap_cons, List.filterMap_cons, hSame x List.mem_cons_self y hFirst,
        ih (fun z hz => hSame z (List.mem_cons_of_mem x hz))]

theorem executed_of_execution {strategy : CanonicalStrategy} {snapshot : DailyMarketSnapshot}
    {cutoff : Nat} {members : List String} {execution : SelectionExecutionV2}
    (hSelection : strategy.selection = some s)
    (hDomain : snapshot.domains.get? s.universeId = some members)
    (h : executeSelectionV2 ctx strategy snapshot cutoff = .ok execution) :
    Executed ctx (snapshot.view cutoff) s members execution := by
  unfold executeSelectionV2 at h
  simp only [hSelection] at h
  split_ifs at h
  obtain ⟨found, hFound, h⟩ := except_bind_ok.mp h
  have hMembers : found = members := by
    simp only [CompatibilitySelection.members, hDomain] at hFound
    exact (Except.ok.inj hFound).symm
  subst hMembers
  obtain ⟨outcomes, hOutcomes, h⟩ := except_bind_ok.mp h
  split at h
  case h_2 => cases h
  case h_1 node hRanking =>
    obtain ⟨observations, hObservations, h⟩ := except_bind_ok.mp h
    cases h
    have hRead := Sequence.forall₂_of_mapM hOutcomes
    have hOutcome : ∀ member ∈ found, ∃ evidence,
        CompatibilitySelection.outcome ctx (snapshot.view cutoff) s member =
          .ok ((dailyAssignment ctx (snapshot.view cutoff) s).eligible member, evidence) := by
      intro member hMember
      obtain ⟨entry, -, hEntry⟩ := Sequence.exists_right hRead hMember
      obtain ⟨result, hResult, -⟩ := except_bind_ok.mp hEntry
      refine ⟨result.2, ?_⟩
      simp only [dailyAssignment, hResult]
      rfl
    have hEligible : (outcomes.filter (fun entry => entry.2.1 = .true)).map Prod.fst =
        found.filter (fun member =>
          (dailyAssignment ctx (snapshot.view cutoff) s).eligible member = .true) := by
      apply filter_of_forall₂ hRead
      intro member entry hEntry
      obtain ⟨result, hResult, hEntry⟩ := except_bind_ok.mp hEntry
      cases hEntry
      refine ⟨?_, rfl⟩
      simp only [dailyAssignment, hResult]
      rfl
    rw [hEligible] at hObservations
    have hObserved := Sequence.forall₂_of_mapM hObservations
    have hScore : ∀ member evidence,
        CompatibilitySelection.score ctx (snapshot.view cutoff) s node member = .ok evidence →
          evidence.value = (dailyAssignment ctx (snapshot.view cutoff) s).score member := by
      intro member evidence hEvidence
      simp only [dailyAssignment, hRanking, hEvidence]
      rfl
    refine ⟨hOutcome, ⟨node, hRanking, fun member hMember hTrue => ?_⟩, ?_⟩
    · obtain ⟨entry, -, hEntry⟩ := Sequence.exists_right hObserved
        (List.mem_filter.mpr ⟨hMember, decide_eq_true hTrue⟩)
      obtain ⟨evidence, hEvidence, -⟩ := except_bind_ok.mp hEntry
      exact ⟨evidence, hEvidence, hScore member evidence hEvidence⟩
    · have hScored : observations.filterMap (fun entry => entry.2.value.map (·, entry.1)) =
          (dailyAssignment ctx (snapshot.view cutoff) s).scored found := by
        rw [Assignment.scored_eq]
        apply filterMap_of_forall₂ hObserved
        intro member hMember entry hEntry
        obtain ⟨evidence, hEvidence, hEntry⟩ := except_bind_ok.mp hEntry
        cases hEntry
        rw [hScore member evidence hEvidence]
      simp only [hScored]

/-- The Program's Selection reads the same truths and scores. -/
theorem Executed.referenceReads {snapshot : DailyMarketSnapshot} {d : Decision} {r : Runtime}
    {members : List String} {execution : SelectionExecutionV2}
    (hEnvironment : d.environment = snapshot.environment ctx)
    (h : Executed ctx (snapshot.view d.cutoff) s members execution) :
    ReferenceReads d r s members (dailyAssignment ctx (snapshot.view d.cutoff) s) where
  eligible := by
    intro eligibility hEligibility member hMember
    obtain ⟨evidence, hOutcome⟩ := h.outcome member hMember
    rw [CompatibilitySelection.outcome, Option.mem_def.mp hEligibility] at hOutcome
    exact condition_of_condition hEnvironment eligibility hOutcome
  unconditional := by
    intro hNone member hMember
    obtain ⟨evidence, hOutcome⟩ := h.outcome member hMember
    rw [CompatibilitySelection.outcome, hNone] at hOutcome
    exact (Prod.mk.inj (Except.ok.inj hOutcome)).1.symm
  score := by
    intro member hMember hTrue
    obtain ⟨node, hRanking, hScores⟩ := h.score
    obtain ⟨evidence, hEvidence, hSame⟩ := hScores member hMember hTrue
    obtain ⟨⟨result, observed⟩, hObserved, hEvidence⟩ := except_bind_ok.mp hEvidence
    cases hEvidence
    obtain ⟨observation, hValue, hRead⟩ := value_of_observation hEnvironment hObserved
    rw [hRanking]
    exact ⟨observation, hValue, hRead.trans hSame⟩

end Scored

section Ranked

theorem before_total : Std.Total CompatibilitySelection.Before where
  total x y := by
    rcases lt_trichotomy x.1 y.1 with hLess | hSame | hMore
    · exact Or.inl (Or.inl hLess)
    · rcases String.le_total x.2 y.2 with hFirst | hFirst
      · exact Or.inl (Or.inr ⟨hSame, hFirst⟩)
      · exact Or.inr (Or.inr ⟨hSame.symm, hFirst⟩)
    · exact Or.inr (Or.inl hMore)

theorem before_trans : IsTrans (ℚ × String) CompatibilitySelection.Before where
  trans x y z hxy hyz := by
    rcases hxy with hxy | ⟨hxy, hSymbols⟩
    · rcases hyz with hyz | ⟨hyz, -⟩
      · exact Or.inl (hxy.trans hyz)
      · exact Or.inl (hyz ▸ hxy)
    · rcases hyz with hyz | ⟨hyz, hRest⟩
      · exact Or.inl (hxy ▸ hyz)
      · exact Or.inr ⟨hxy.trans hyz, String.le_trans hSymbols hRest⟩

theorem rank_perm (direction : SortDirection) (scored : List (ℚ × String)) :
    (CompatibilitySelection.rank direction scored).Perm scored := by
  cases direction <;> exact List.perm_insertionSort _ scored

/-- Ascending, both executors rank alike. -/
theorem rank_ascending (scored : List (ℚ × String)) :
    CompatibilitySelection.rank .ascending scored = rankMembers .ascending scored := by
  have hTotal := before_total
  have hTrans := before_trans
  have hSorted : (CompatibilitySelection.rank .ascending scored).Pairwise
      (Precedes .ascending) := by
    apply (List.pairwise_insertionSort CompatibilitySelection.Before scored).imp
    intro x y hBefore
    rcases hBefore with hLess | ⟨hSame, hSymbols⟩
    · exact ⟨hLess.le, fun hGe => absurd hLess (not_lt.mpr hGe)⟩
    · exact ⟨hSame.le, fun _ => hSymbols⟩
  exact List.Perm.eq_of_pairwise (fun _ _ _ _ => Precedes.antisymm) hSorted
    (rankMembers_pairwise .ascending scored)
    ((rank_perm _ scored).trans (rankMembers_perm _ scored).symm)

/-- Descending, the older executor has tied members in descending order too. -/
theorem rank_descending_pairwise (scored : List (ℚ × String)) :
    (CompatibilitySelection.rank .descending scored).Pairwise
      (fun x y => y.1 ≤ x.1 ∧ (x.1 ≤ y.1 → y.2 ≤ x.2)) := by
  have hTotal : Std.Total (fun x y => CompatibilitySelection.Before y x) :=
    ⟨fun x y => before_total.total y x⟩
  have hTrans : IsTrans (ℚ × String) (fun x y => CompatibilitySelection.Before y x) :=
    ⟨fun x y z hxy hyz => before_trans.trans z y x hyz hxy⟩
  apply (List.pairwise_insertionSort (fun x y => CompatibilitySelection.Before y x) scored).imp
  intro x y hBefore
  rcases hBefore with hLess | ⟨hSame, hSymbols⟩
  · exact ⟨hLess.le, fun hGe => absurd hLess (not_lt.mpr hGe)⟩
  · exact ⟨hSame.le, fun _ => hSymbols⟩

/-- Names tell scored members apart. -/
theorem take_names_iff {a : Assignment} {members : List String} {xs ys : List (ℚ × String)}
    (hXs : xs ⊆ a.scored members) (hYs : ys ⊆ a.scored members) (count : Nat) :
    (xs.map Prod.snd).take count = (ys.map Prod.snd).take count ↔ xs.take count = ys.take count := by
  have hNamed : ∀ zs ⊆ a.scored members, (zs.take count).map
      (fun entry => ((a.score entry.2).getD 0, entry.2)) = zs.take count := by
    intro zs hZs
    conv_rhs => rw [← List.map_id (zs.take count)]
    apply List.map_congr_left
    intro entry hEntry
    rw [Assignment.score_of_mem (hZs (List.mem_of_mem_take hEntry))]
    rfl
  rw [← List.map_take, ← List.map_take]
  constructor
  · intro h
    rw [← hNamed xs hXs, ← hNamed ys hYs]
    have hMapped := congrArg (List.map (fun name => ((a.score name).getD 0, name))) h
    simpa only [List.map_map, Function.comp_def] using hMapped
  · intro h
    rw [h]

/-- When the executors select alike: there is a ranked member or no fallback to
tell them apart, and no tie among the members chosen in descending order. -/
def SelectsAlike (s : Selection) (scored : List (ℚ × String)) : Prop :=
  (scored = [] → s.shortagePolicy = .chooseAll → s.fallbackAsset = none) ∧
    (s.direction = .descending → s.count ≤ scored.length ∨ s.shortagePolicy = .chooseAll →
      Ranking.Untied s.count scored)

/-- Without a ranked member only the fallback can tell the executors apart. -/
theorem chosen_of_none (s : Selection) :
    (chooseMembers s []).1 = (CompatibilitySelection.choose s []).1 ↔
      (s.shortagePolicy = .chooseAll → s.fallbackAsset = none) := by
  have hShort : ¬s.count ≤ 0 := by
    have hCount := s.count_range
    omega
  simp only [chooseMembers, CompatibilitySelection.choose, List.length_nil, hShort, false_or, ne_eq,
    not_true_eq_false, false_and, if_false, List.take_nil]
  cases s.shortagePolicy <;> cases s.fallbackAsset <;> simp

theorem chosen_iff {a : Assignment} {s : Selection} {members : List String} :
    (chooseMembers s (a.ordered s members)).1 =
        (CompatibilitySelection.choose s
          ((CompatibilitySelection.rank s.direction (a.scored members)).map Prod.snd)).1 ↔
      SelectsAlike s (a.scored members) := by
  have hPerm := rank_perm s.direction (a.scored members)
  have hPerm' := rankMembers_perm s.direction (a.scored members)
  have hLength : ((CompatibilitySelection.rank s.direction (a.scored members)).map
      Prod.snd).length = (a.scored members).length := by
    rw [List.length_map, hPerm.length_eq]
  have hLength' : (a.ordered s members).length = (a.scored members).length := by
    rw [Assignment.ordered, List.length_map]
    exact hPerm'.length_eq
  by_cases hEmpty : a.scored members = []
  · have hNone : a.ordered s members = [] := List.length_eq_zero_iff.mp (by rw [hLength', hEmpty]; rfl)
    have hNone' : (CompatibilitySelection.rank s.direction (a.scored members)).map Prod.snd = [] :=
      List.length_eq_zero_iff.mp (by rw [hLength, hEmpty]; rfl)
    have hUntied : Ranking.Untied s.count (a.scored members) := by
      rw [hEmpty]
      intro x hx
      cases hx
    rw [hNone, hNone', chosen_of_none]
    exact ⟨fun h => ⟨fun _ => h, fun _ _ => hUntied⟩, fun h => h.1 hEmpty⟩
  · have hSome : a.ordered s members ≠ [] := by
      intro hNone
      rw [hNone] at hLength'
      exact hEmpty (List.length_eq_zero_iff.mp hLength'.symm)
    simp only [SelectsAlike, chooseMembers, CompatibilitySelection.choose, hLength, hLength', hEmpty,
      false_imp_iff, true_and, hSome, ne_eq, not_false_eq_true]
    split_ifs with hFull
    · simp only [hFull, true_imp_iff]
      cases hDirection : s.direction with
      | ascending =>
          have hSame : a.ordered s members = (CompatibilitySelection.rank .ascending
              (a.scored members)).map Prod.snd := by
            rw [rank_ascending, Assignment.ordered, hDirection]
            rfl
          simp [hSame]
      | descending =>
          have hOrdered : a.ordered s members =
              (rankMembers .descending (a.scored members)).map Prod.snd := by
            rw [Assignment.ordered, hDirection]
            rfl
          rw [hDirection] at hPerm hPerm'
          rw [hOrdered, take_names_iff hPerm'.subset hPerm.subset, eq_comm,
            Ranking.take_eq_take_iff (hPerm.trans hPerm'.symm) (rank_descending_pairwise _)
              (rankMembers_pairwise .descending _)]
          simp only [true_imp_iff]
          exact ⟨Ranking.Untied.perm hPerm, Ranking.Untied.perm hPerm.symm⟩
    · simp only [hFull, false_imp_iff, implies_true, iff_true]
      cases s.fallbackAsset <;> rfl

end Ranked

/-- A due Selection statement selects what the older executor selects exactly
when no tie decides, and no fallback stands in for a Selection without members. -/
theorem selection_executors_agree_iff (ctx : DecimalContext) (strategy : CanonicalStrategy)
    (snapshot : DailyMarketSnapshot) (d : Decision) (r : Runtime) (statement : SelectionStatement)
    {members : List String} {execution : SelectionExecutionV2}
    (hEnvironment : d.environment = snapshot.environment ctx)
    (hSelection : strategy.selection = some statement.selection)
    (hDomain : snapshot.domains.get? statement.selection.universeId = some members)
    (hDue : d.due statement.clockId = .ok true)
    (hExecution : executeSelectionV2 ctx strategy snapshot d.cutoff = .ok execution) :
    ∃ final, (selection d r statement).result = .ok final ∧
      (final.selections.get? statement.outputId = some execution.selectedAssets ↔
        SelectsAlike statement.selection ((dailyAssignment ctx (snapshot.view d.cutoff)
          statement.selection).scored members)) := by
  have hExecuted := executed_of_execution hSelection hDomain hExecution
  have hMembers : d.members statement.selection.universeId = .ok members := by
    rw [Decision.members, hEnvironment]
    simp only [DailyMarketSnapshot.environment, hDomain]
  obtain ⟨final, hFinal, hPublished⟩ :=
    selection_result hDue hMembers (hExecuted.referenceReads hEnvironment)
  refine ⟨final, hFinal, ?_⟩
  rw [hPublished, Option.some.injEq, hExecuted.selected]
  exact chosen_iff

/-- The member with the highest close. -/
def highestClose : Selection :=
  { Selection.anyOf 1 .chooseAll one_in_countRange with
    ranking := .daily (.observe
      { semanticId := "close", subjectKind := some .candidate, bindingId := some "candidate" }
      .close .adjusted)
    ranking_bound := rfl }

def highestCloseStatement : SelectionStatement where
  semanticId := "pick"
  selection := highestClose
  outputId := "top"

theorem pairOfMembers_nodup : ["A", "B"].Nodup := by decide

/-- The older Selection of the member with the highest close, of two. -/
def highestCloseStrategy : CanonicalStrategy :=
  .ofSelection (.ofGroup "universe" ["A", "B"] pairOfMembers_nodup) highestClose

/-- Two members, one session. -/
def pairOfCloses (first second : ℚ) : DailyMarketSnapshot :=
  ((DailyMarketSnapshot.single "A" (⟨2024, 1, 8⟩, some first) []).withSeries "B" [some second]
    rfl).overDomain "universe" ["A", "B"] (by decide)

def pairOpening (first second : ℚ) : Decision :=
  (pairOfCloses first second).opening (.exact id) (.daily [.select highestCloseStatement])

theorem selection_executors_agree_iff_untied : ∃ execution final,
    executeSelectionV2 (.exact id) highestCloseStrategy (pairOfCloses 10 11) 0 = .ok execution ∧
      (selection (pairOpening 10 11) (({} : Checkpoint).runtime (pairOpening 10 11).program)
        highestCloseStatement).result = .ok final ∧
      (final.selections.get? "top" = some execution.selectedAssets ↔
        SelectsAlike highestClose ((dailyAssignment (.exact id) ((pairOfCloses 10 11).view 0)
          highestClose).scored ["A", "B"])) := by
  have hExecuted : (executeSelectionV2 (.exact id) highestCloseStrategy (pairOfCloses 10 11)
      0).toOption.any (fun _ => true) = true := by decide +kernel
  obtain ⟨execution, hExecution, -⟩ := exists_ok_of_any hExecuted
  obtain ⟨final, hFinal, hAlike⟩ := selection_executors_agree_iff (.exact id) highestCloseStrategy
    (pairOfCloses 10 11) (pairOpening 10 11)
    (({} : Checkpoint).runtime (pairOpening 10 11).program) highestCloseStatement rfl rfl rfl rfl
    hExecution
  exact ⟨execution, final, hExecution, hFinal, hAlike⟩

/-- Of two members with one close the older executor keeps the last symbol and
the Program the first. -/
theorem tied_members_selected_apart : ∃ execution final,
    executeSelectionV2 (.exact id) highestCloseStrategy (pairOfCloses 10 10) 0 = .ok execution ∧
      (selection (pairOpening 10 10) (({} : Checkpoint).runtime (pairOpening 10 10).program)
        highestCloseStatement).result = .ok final ∧
      execution.selectedAssets = ["B"] ∧ final.selections.get? "top" = some ["A"] := by
  have hOlder : (executeSelectionV2 (.exact id) highestCloseStrategy (pairOfCloses 10 10)
      0).toOption.any (fun execution => execution.selectedAssets = ["B"]) = true := by
    decide +kernel
  have hProgram : (selection (pairOpening 10 10)
      (({} : Checkpoint).runtime (pairOpening 10 10).program)
      highestCloseStatement).result.toOption.any
        (fun final => final.selections.get? "top" = some ["A"]) = true := by
    decide +kernel
  obtain ⟨execution, hExecution, hLast⟩ := exists_ok_of_any hOlder
  obtain ⟨final, hFinal, hFirst⟩ := exists_ok_of_any hProgram
  exact ⟨execution, final, hExecution, hFinal, of_decide_eq_true hLast, of_decide_eq_true hFirst⟩

end RuleTrade
