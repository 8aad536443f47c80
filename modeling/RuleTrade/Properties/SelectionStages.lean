import RuleTrade.Backend.GeneratedSelection
import RuleTrade.Execution.Trace
import RuleTrade.Strategy.Fragments

/-! The Selection the generated algorithm makes, in each of its three places,
against the one the reference makes. -/

namespace RuleTrade

open Library

/-- Scores and eligibility of members, as both sides observe them. -/
structure Assignment where
  score : String → Option ℚ
  eligible : String → Truth

/-- Members that can be ranked, with their scores. -/
def Assignment.candidates (a : Assignment) (symbols : List String) : List (String × ℚ) :=
  symbols.filterMap (fun member =>
    if a.eligible member = .true then (a.score member).map (member, ·) else none)

theorem Assignment.candidates_perm (a : Assignment) {left right : List String}
    (h : left.Perm right) : (a.candidates left).Perm (a.candidates right) :=
  h.filterMap _

section Reference

variable (d : Decision) (r : Runtime) (s : Selection) (members : List String) (a : Assignment)

/-- The reference reads the assignment. Only eligible members are scored. -/
structure ReferenceReads : Prop where
  eligible : ∀ eligibility ∈ s.eligibility, ∀ member ∈ members,
    (condition d r (some s.binding.id) members eligibility (some member)).result =
      .ok (a.eligible member)
  unconditional : s.eligibility = none → ∀ member ∈ members, a.eligible member = .true
  score : ∀ member ∈ members, a.eligible member = .true →
    ∃ observation, (value d r (some s.binding.id) members s.ranking (some member)).result =
      .ok observation ∧ observation.value = a.score member

variable {d r s members a}

theorem rankMember_result (h : ReferenceReads d r s members a) {member : String}
    (hMember : member ∈ members) :
    (rankMember d r s members member).result =
      .ok (if a.eligible member = .true then (a.score member).map (·, member) else none) := by
  have hScored : ((if a.eligible member ≠ .true then pure none
      else do
        let score ← value d r (some s.binding.id) members s.ranking (some member)
        pure (score.value.map (·, member))) : Evaluation (Option (ℚ × String))).result =
      .ok (if a.eligible member = .true then (a.score member).map (·, member) else none) := by
    by_cases hTrue : a.eligible member = .true
    · obtain ⟨observation, hValue, hScore⟩ := h.score member hMember hTrue
      rw [if_neg (not_not.mpr hTrue), if_pos hTrue, Logged.result_bind_eq_ok]
      exact ⟨observation, hValue, by rw [hScore]; rfl⟩
    · rw [if_pos hTrue, if_neg hTrue]
      rfl
  unfold rankMember
  cases hCondition : s.eligibility with
  | none =>
      exact Logged.result_bind_eq_ok.mpr
        ⟨_, by rw [h.unconditional hCondition member hMember]; rfl, hScored⟩
  | some eligibility =>
      exact Logged.result_bind_eq_ok.mpr
        ⟨_, h.eligible eligibility hCondition member hMember, hScored⟩

/-- Names of the ranked members. -/
def Assignment.ordered (a : Assignment) (s : Selection) (members : List String) : List String :=
  (rankMembers s.direction ((a.candidates members).map Prod.swap)).map Prod.snd

/-- A due Selection publishes what it chooses of the ranked members and reports
how it chose them. -/
theorem selection_reports {statement : SelectionStatement}
    (hDue : d.due statement.clockId = .ok true)
    (hMembers : d.members statement.selection.universeId = .ok members)
    (h : ReferenceReads d r statement.selection members a) :
    ∃ final line, (selection d r statement).result = .ok final ∧
      final.selections.get? statement.outputId =
        some (chooseMembers statement.selection (a.ordered statement.selection members)).1 ∧
      final.evidence = r.evidence ++ [line] ∧
      line.outcome =
        (chooseMembers statement.selection (a.ordered statement.selection members)).2 := by
  have hScored := Logged.result_forEach (fun member hMember => rankMember_result h hMember)
  have hEligible : (members.map (fun member =>
      if a.eligible member = .true then (a.score member).map (·, member) else none)).filterMap id =
      (a.candidates members).map Prod.swap := by
    rw [List.filterMap_map, Assignment.candidates, List.map_filterMap]
    congr 1
    funext member
    by_cases hTrue : a.eligible member = .true
    · simp [hTrue, Function.comp_def]
    · simp [hTrue]
  rw [selection, Logged.result_bind_of_ok ((Logged.result_lift _).trans hDue), if_pos rfl,
    Logged.result_bind_of_ok ((Logged.result_lift _).trans hMembers),
    Logged.result_bind_of_ok hScored]
  rw [hEligible]
  refine ⟨_, _, rfl, ?_, rfl, rfl⟩
  rw [note_selections]
  exact Dict.get?_set_self _ _ _

theorem selection_result {statement : SelectionStatement}
    (hDue : d.due statement.clockId = .ok true)
    (hMembers : d.members statement.selection.universeId = .ok members)
    (h : ReferenceReads d r statement.selection members a) :
    ∃ final, (selection d r statement).result = .ok final ∧
      final.selections.get? statement.outputId =
        some (chooseMembers statement.selection (a.ordered statement.selection members)).1 := by
  obtain ⟨final, -, hResult, hSelected, -⟩ := selection_reports hDue hMembers h
  exact ⟨final, hResult, hSelected⟩

end Reference

section Ranking

/-- Rank order of scored members, best first in either direction. -/
def Precedes (direction : SortDirection) (x y : ℚ × String) : Prop :=
  match direction with
  | .ascending => x.1 ≤ y.1 ∧ (y.1 ≤ x.1 → x.2 ≤ y.2)
  | .descending => y.1 ≤ x.1 ∧ (x.1 ≤ y.1 → x.2 ≤ y.2)

theorem Precedes.antisymm {direction : SortDirection} {x y : ℚ × String}
    (hxy : Precedes direction x y) (hyx : Precedes direction y x) : x = y := by
  cases direction with
  | ascending =>
      exact Prod.ext (le_antisymm hxy.1 hyx.1) (String.le_antisymm (hxy.2 hyx.1) (hyx.2 hxy.1))
  | descending =>
      exact Prod.ext (le_antisymm hyx.1 hxy.1) (String.le_antisymm (hxy.2 hyx.1) (hyx.2 hxy.1))

theorem rankMembers_pairwise (direction : SortDirection) (scored : List (ℚ × String)) :
    (rankMembers direction scored).Pairwise (Precedes direction) := by
  cases direction with
  | ascending => exact Sequence.pairwise_sortBy_sortBy Prod.fst Prod.snd scored
  | descending => exact Sequence.pairwise_sortByDescending_sortBy Prod.fst Prod.snd scored

theorem rankMembers_perm (direction : SortDirection) (scored : List (ℚ × String)) :
    (rankMembers direction scored).Perm scored := by
  cases direction with
  | ascending => exact (Sequence.perm_sortBy _ _).trans (Sequence.perm_sortBy _ _)
  | descending => exact (Sequence.perm_sortByDescending _ _).trans (Sequence.perm_sortBy _ _)

/-- The generated order is the reference order of the same scores. -/
theorem rank_eq_rankMembers (s : LeanMomentumSelection) {scored : List (String × ℚ)}
    {reference : List (ℚ × String)} (h : (scored.map Prod.swap).Perm reference) :
    s.rank scored = (rankMembers s.direction reference).map Prod.snd := by
  have hNames (sorted : List (String × ℚ)) (hPerm : sorted.Perm scored)
      (hSorted : (sorted.map Prod.swap).Pairwise (Precedes s.direction)) :
      sorted.map Prod.fst = (rankMembers s.direction reference).map Prod.snd := by
    have hSame : sorted.map Prod.swap = rankMembers s.direction reference :=
      List.Perm.eq_of_pairwise (fun _ _ _ _ => Precedes.antisymm) hSorted
        (rankMembers_pairwise s.direction reference)
        ((hPerm.map _).trans (h.trans (rankMembers_perm s.direction reference).symm))
    rw [← hSame, List.map_map]
    rfl
  unfold LeanMomentumSelection.rank
  cases hDirection : s.direction with
  | ascending =>
      rw [hDirection] at hNames
      refine hNames _ ((Sequence.perm_sortBy _ _).trans (Sequence.perm_sortBy _ _)) ?_
      exact List.pairwise_map.mpr (Sequence.pairwise_sortBy_sortBy Prod.snd Prod.fst scored)
  | descending =>
      rw [hDirection] at hNames
      refine hNames _ ((Sequence.perm_sortByDescending _ _).trans (Sequence.perm_sortBy _ _)) ?_
      exact List.pairwise_map.mpr
        (Sequence.pairwise_sortByDescending_sortBy Prod.snd Prod.fst scored)

end Ranking

section Generated

variable {market : GeneratedMarket} {plan : LeanMomentumSelection} {a : Assignment}

/-- The generated algorithm reads the assignment. -/
structure GeneratedReads (market : GeneratedMarket) (plan : LeanMomentumSelection)
    (a : Assignment) : Prop where
  score : ∀ ticker ∈ plan.symbols, plan.ranking.read market ticker = a.score ticker
  eligible : ∀ ticker ∈ plan.symbols,
    plan.eligibilityHolds market ticker = true ↔ a.eligible ticker = .true

omit market plan a in
/-- Tickers paired with what they have, when they have it, stay distinct. -/
theorem nodup_filterMap_pair {α : Type} (read : String → Option α) {symbols : List String}
    (h : symbols.Nodup) :
    ((symbols.filterMap (fun ticker => (read ticker).map (ticker, ·))).map Prod.fst).Nodup := by
  have hFilter : (symbols.filterMap (fun ticker => (read ticker).map (ticker, ·))).map Prod.fst =
      symbols.filter (fun ticker => (read ticker).isSome) := by
    rw [List.map_filterMap, ← List.filterMap_eq_filter]
    congr 1
    funext ticker
    cases hRead : read ticker <;> simp [Option.guard, hRead]
  rw [hFilter]
  exact h.filter _

/-- Scores that pass the eligibility comparisons are those of the candidates. -/
theorem eligible_scores (h : GeneratedReads market plan a) (hNodup : plan.symbols.Nodup) :
    (plan.scores market).entries.filter (fun entry => plan.eligibilityHolds market entry.1) =
      a.candidates plan.symbols := by
  rw [LeanMomentumSelection.scores, Dict.entries_ofList (nodup_filterMap_pair _ hNodup),
    List.filter_filterMap]
  refine List.filterMap_congr (fun ticker hTicker => ?_)
  have hEligible := h.eligible ticker hTicker
  rw [h.score ticker hTicker]
  by_cases hTrue : a.eligible ticker = .true
  · rw [if_pos hTrue]
    cases a.score ticker <;> simp [hEligible.mpr hTrue]
  · rw [if_neg hTrue]
    have hFails := mt hEligible.mp hTrue
    cases a.score ticker <;> simp [hFails]

/-- A lowered Selection is the plan of its group, value and comparisons. -/
theorem lowerSelection_ok {definitions : StrategyDefinitions} {statement : SelectionStatement}
    (h : lowerSelection definitions statement = .ok plan) :
    ∃ ranking eligibility, plan = selectionPlan statement.selection
      (definitions.groupAssets statement.selection.universeId) ranking eligibility := by
  unfold lowerSelection at h
  split at h
  · cases h
  · obtain ⟨ranking, -, h⟩ := except_bind_ok.mp h
    obtain ⟨eligibility, -, h⟩ := except_bind_ok.mp h
    cases h
    exact ⟨ranking, eligibility, rfl⟩

end Generated

section Stages

variable {market : GeneratedMarket} {s : Selection} {symbols : List String} {ranking : LeanValue}
  {eligibility : List LeanComparison} {a : Assignment} {members : List String}

/-- A lowered Selection has no threshold, so its filter is its eligibility. -/
theorem passes_selectionPlan (entry : String × ℚ) :
    (selectionPlan s symbols ranking eligibility).passes market entry =
      (selectionPlan s symbols ranking eligibility).eligibilityHolds market entry.1 := by
  cases eligibility with
  | nil => rfl
  | cons first rest => rfl

variable (hReads : GeneratedReads market (selectionPlan s symbols ranking eligibility) a)
  (hNodup : symbols.Nodup) (hPerm : members.Perm symbols)

include hReads hNodup hPerm

/-- All three places rank the same members in the same order. -/
theorem rank_eligible :
    (selectionPlan s symbols ranking eligibility).rank
        (((selectionPlan s symbols ranking eligibility).scores market).entries.filter
          ((selectionPlan s symbols ranking eligibility).passes market)) =
      a.ordered s members := by
  have hSame : (selectionPlan s symbols ranking eligibility).passes market =
      fun entry => (selectionPlan s symbols ranking eligibility).eligibilityHolds market entry.1 :=
    funext passes_selectionPlan
  rw [hSame, eligible_scores hReads hNodup]
  exact rank_eq_rankMembers _ ((a.candidates_perm hPerm.symm).map Prod.swap)

theorem rebalance_invests :
    SelectionPath.invests market (selectionPlan s symbols ranking eligibility) .rebalance
        s.fallbackAsset.toList =
      if (a.ordered s members).length < s.count ∧
          (s.fallbackAsset = none → s.shortagePolicy = .requireFull)
      then s.fallbackAsset.toList else (a.ordered s members).take s.count := by
  have hRank := rank_eligible hReads hNodup hPerm
  have hInput : (selectionPlan s symbols ranking eligibility).rebalanceInput market =
      ((selectionPlan s symbols ranking eligibility).scores market).entries.filter
        ((selectionPlan s symbols ranking eligibility).passes market) := by
    cases eligibility with
    | nil => exact (List.filter_eq_self.mpr (fun entry _ => rfl)).symm
    | cons first rest => rfl
  have hShort : ((a.ordered s members).take s.count).length < s.count ↔
      (a.ordered s members).length < s.count := by
    rw [List.length_take]
    omega
  unfold SelectionPath.invests LeanMomentumSelection.rebalanceStage
  rw [hInput, hRank]
  cases hFallback : s.fallbackAsset with
  | some fallback =>
      change (if ((a.ordered s members).take s.count).length < s.count then [fallback]
        else (a.ordered s members).take s.count) = _
      simp only [hShort, reduceCtorEq, false_implies, and_true, Option.toList_some]
  | none =>
      have hPlan : (selectionPlan s symbols ranking eligibility).shortagePolicy =
        s.shortagePolicy := rfl
      cases hPolicy : s.shortagePolicy with
      | requireFull =>
          rw [hPlan, hPolicy]
          change (if ((a.ordered s members).take s.count).length < s.count then none
            else some ((a.ordered s members).take s.count)).getD [] = _
          simp only [hShort, imp_self, and_true, Option.toList_none]
          split_ifs <;> rfl
      | chooseAll =>
          rw [hPlan, hPolicy]
          change (if ((a.ordered s members).take s.count).length = 0 then none
            else some ((a.ordered s members).take s.count)).getD [] = _
          have hKept : ¬((a.ordered s members).length < s.count ∧
              ((none : Option String) = none →
                ShortagePolicy.chooseAll = ShortagePolicy.requireFull)) :=
            fun h => by cases h.2 rfl
          rw [if_neg hKept]
          by_cases hEmpty : ((a.ordered s members).take s.count).length = 0
          · rw [if_pos hEmpty, List.length_eq_zero_iff.mp hEmpty]
            rfl
          · rw [if_neg hEmpty]
            rfl

theorem snapshot_invests :
    SelectionPath.invests market (selectionPlan s symbols ranking eligibility) .snapshot
        s.fallbackAsset.toList =
      if (a.ordered s members).length < s.count
      then s.fallbackAsset.toList else (a.ordered s members).take s.count := by
  have hShort : ((a.ordered s members).take s.count).length < s.count ↔
      (a.ordered s members).length < s.count := by
    rw [List.length_take]
    omega
  unfold SelectionPath.invests LeanMomentumSelection.snapshotStage
  rw [rank_eligible hReads hNodup hPerm]
  cases hFallback : s.fallbackAsset with
  | some fallback =>
      change (if ((a.ordered s members).take s.count).length < s.count then [fallback]
        else (a.ordered s members).take s.count) = _
      simp only [hShort, Option.toList_some]
  | none =>
      change (if ((a.ordered s members).take s.count).length < s.count then none
        else some ((a.ordered s members).take s.count)).getD [] = _
      simp only [hShort, Option.toList_none]
      split_ifs <;> rfl

theorem policy_invests :
    SelectionPath.invests market (selectionPlan s symbols ranking eligibility) .policy
        s.fallbackAsset.toList = (chooseMembers s (a.ordered s members)).1 := by
  have hRanked : (selectionPlan s symbols ranking eligibility).policyRanked market =
      a.ordered s members := by
    rw [← rank_eligible hReads hNodup hPerm]
    unfold LeanMomentumSelection.policyRanked
    congr 2
    exact funext (fun entry => (passes_selectionPlan entry).symm)
  unfold SelectionPath.invests LeanMomentumSelection.policyStage
  rw [hRanked]
  have hCount := s.count_range.1
  have hSuccess : (selectionPlan s symbols ranking eligibility).success
      ((a.ordered s members).take s.count) = true ↔
      a.ordered s members ≠ [] ∧
        (s.count ≤ (a.ordered s members).length ∨ s.shortagePolicy = .chooseAll) := by
    rw [← List.length_pos_iff]
    unfold LeanMomentumSelection.success
    have hPlan : (selectionPlan s symbols ranking eligibility).shortagePolicy =
      s.shortagePolicy := rfl
    cases hPolicy : s.shortagePolicy with
    | chooseAll =>
        rw [hPlan, hPolicy, decide_eq_true_eq, List.length_take]
        simp only [or_true, and_true]
        omega
    | requireFull =>
        have hPlanCount : (selectionPlan s symbols ranking eligibility).count = s.count := rfl
        rw [hPlan, hPolicy, decide_eq_true_eq, List.length_take, hPlanCount]
        simp only [reduceCtorEq, or_false]
        omega
  unfold chooseMembers
  by_cases hMet : a.ordered s members ≠ [] ∧
      (s.count ≤ (a.ordered s members).length ∨ s.shortagePolicy = .chooseAll)
  · rw [if_pos hMet]
    exact if_pos (hSuccess.mpr hMet)
  · rw [if_neg hMet]
    refine (if_neg (fun h => hMet (hSuccess.mp h))).trans ?_
    cases s.fallbackAsset <;> rfl

end Stages

/-- The policy is to choose all, and there are some members but too few. -/
def Selection.partiallyFilled (s : Selection) (candidates : List String) : Bool :=
  s.shortagePolicy = .chooseAll && candidates ≠ [] && candidates.length < s.count

/-- What a place invests is not the members, when it gives them up. -/
def SelectionPath.replaces (path : SelectionPath) (fallbackAsset : Option String)
    (candidates : List String) : Bool :=
  match path, fallbackAsset with
  | .policy, _ => false
  | .rebalance, none => false
  | .snapshot, none => true
  | .rebalance, some fallback | .snapshot, some fallback => candidates ≠ [fallback]

/-- A place does not invest the members of a partially filled Selection: it
takes the fallback, or nothing. -/
def SelectionPath.misplaces (path : SelectionPath) (s : Selection) (candidates : List String) :
    Bool :=
  s.partiallyFilled candidates && path.replaces s.fallbackAsset candidates

/-- When a Selection runs short, the fallback is what it selects unless it is
partially filled and its members are other ones. -/
theorem fallback_eq_chooseMembers {s : Selection} {ordered : List String}
    (hShort : ordered.length < s.count) :
    s.fallbackAsset.toList = (chooseMembers s ordered).1 ↔
      ¬(s.partiallyFilled ordered = true ∧ s.fallbackAsset.toList ≠ ordered) := by
  have hTake : ordered.take s.count = ordered := List.take_of_length_le hShort.le
  unfold chooseMembers
  by_cases hPartial : s.partiallyFilled ordered = true
  · have hParts := hPartial
    simp only [Selection.partiallyFilled, Bool.and_eq_true, decide_eq_true_eq] at hParts
    rw [if_pos ⟨hParts.1.2, Or.inr hParts.1.1⟩, hTake]
    simp [hPartial]
  · have hUnmet : ¬(ordered ≠ [] ∧ (s.count ≤ ordered.length ∨ s.shortagePolicy = .chooseAll)) := by
      rintro ⟨hNonempty, hFull | hAll⟩
      · omega
      · exact hPartial (by simp [Selection.partiallyFilled, hNonempty, hAll, hShort])
    rw [if_neg hUnmet]
    simp only [hPartial, Bool.false_eq_true, false_and, not_false_eq_true, iff_true]
    cases s.fallbackAsset <;> rfl

theorem chooseMembers_full {s : Selection} {ordered : List String}
    (hFull : s.count ≤ ordered.length) : (chooseMembers s ordered).1 = ordered.take s.count := by
  have hNonempty : ordered ≠ [] := by
    rintro rfl
    exact absurd (s.count_range.1.trans hFull) (by simp)
  rw [chooseMembers, if_pos ⟨hNonempty, Or.inl hFull⟩]

theorem chooseMembers_all {s : Selection} {ordered : List String}
    (hAll : s.shortagePolicy = .chooseAll) (hFallback : s.fallbackAsset = none) :
    (chooseMembers s ordered).1 = ordered.take s.count := by
  unfold chooseMembers
  by_cases hNonempty : ordered ≠ []
  · rw [if_pos ⟨hNonempty, Or.inr hAll⟩]
  · rw [if_neg (fun h => hNonempty h.1), hFallback, not_not.mp hNonempty]
    simp

theorem misplaces_perm {path : SelectionPath} {s : Selection} {left right : List String}
    (h : left.Perm right) : path.misplaces s left = path.misplaces s right := by
  have hEmpty : left ≠ [] ↔ right ≠ [] := by
    rw [← List.length_pos_iff, ← List.length_pos_iff, h.length_eq]
  have hSole (fallback : String) : left ≠ [fallback] ↔ right ≠ [fallback] := by
    refine not_congr ⟨?_, ?_⟩
    · rintro rfl
      exact (List.singleton_perm.mp h).symm
    · rintro rfl
      exact List.perm_singleton.mp h
  unfold SelectionPath.misplaces Selection.partiallyFilled SelectionPath.replaces
  rw [h.length_eq]
  simp only [hEmpty, hSole]

theorem Assignment.ordered_perm (a : Assignment) (s : Selection) (members : List String) :
    (a.ordered s members).Perm ((a.candidates members).map Prod.fst) := by
  have hRanked := (rankMembers_perm s.direction ((a.candidates members).map Prod.swap)).map Prod.snd
  rw [List.map_map] at hRanked
  exact hRanked

/-- Taking the fallback of a short Selection is wrong exactly when it is
partially filled by others. -/
theorem fallback_iff_misplaces {s : Selection} {ordered : List String} {path : SelectionPath}
    (hPath : path ≠ .policy)
    (hReplaces : path = .rebalance → s.fallbackAsset = none → s.shortagePolicy = .requireFull)
    (hShort : ordered.length < s.count) :
    s.fallbackAsset.toList = (chooseMembers s ordered).1 ↔ path.misplaces s ordered = false := by
  rw [fallback_eq_chooseMembers hShort, ← Bool.not_eq_true]
  refine not_congr ?_
  rw [SelectionPath.misplaces, Bool.and_eq_true]
  refine and_congr_right (fun hPartial => ?_)
  simp only [Selection.partiallyFilled, Bool.and_eq_true, decide_eq_true_eq] at hPartial
  cases hFallback : s.fallbackAsset with
  | some fallback =>
      have hSole : [fallback] ≠ ordered ↔ decide (ordered ≠ [fallback]) = true := by
        rw [decide_eq_true_eq, ne_comm]
      cases path with
      | policy => exact absurd rfl hPath
      | rebalance => exact hSole
      | snapshot => exact hSole
  | none =>
      cases path with
      | policy => exact absurd rfl hPath
      | rebalance =>
          have hFull := hReplaces rfl hFallback
          rw [hPartial.1.1] at hFull
          cases hFull
      | snapshot => exact iff_of_true hPartial.1.2.symm rfl

theorem misplaces_short {path : SelectionPath} {s : Selection} {candidates : List String}
    (h : path.misplaces s candidates = true) : candidates.length < s.count := by
  rw [SelectionPath.misplaces, Bool.and_eq_true] at h
  have hPartial := h.1
  simp only [Selection.partiallyFilled, Bool.and_eq_true, decide_eq_true_eq] at hPartial
  exact hPartial.2

/-- A sleeve of a Selection falls back to the asset the Selection names. -/
theorem sleeveTarget_fallback {definitions : StrategyDefinitions}
    {outputs : Dict String SelectionStatement} {selections : Dict String LeanMomentumSelection}
    {ref : String} {statement : SelectionStatement} {target : SleeveTarget}
    (hOutput : outputs.get? ref = some statement)
    (hTarget : sleeveTarget definitions outputs selections (.selection ref) = .ok target) :
    target.fallbackSymbols = statement.selection.fallbackAsset.toList := by
  unfold sleeveTarget at hTarget
  simp only [hOutput] at hTarget
  cases hPlan : selections.get? statement.selection.semanticId with
  | none => simp [hPlan] at hTarget
  | some plan =>
      simp only [hPlan, Except.ok.injEq] at hTarget
      rw [← hTarget]

/-- Three members wanted of a universe of one, else `F`. -/
def pickThree : SelectionStatement where
  semanticId := "pick"
  selection := (Selection.anyOf 3 .chooseAll (by decide)).orElse "F"
  outputId := "top"

/-- First decision over a snapshot. -/
def DailyMarketSnapshot.opening (snapshot : DailyMarketSnapshot) (ctx : DecimalContext)
    (program : SemanticProgram) : Decision where
  program := program
  environment := snapshot.environment ctx
  cutoff := 0
  inRange := List.length_pos_iff.mpr snapshot.dates_nonempty
  priorState := program.initialState
  priorEventTruths := Dict.empty

def loneOpening : Decision :=
  ((DailyMarketSnapshot.single "A" (⟨2024, 1, 5⟩, some 10) []).overDomain "universe" ["A"]
    (by decide)).opening (.exact id) (.daily [.select pickThree])

def loneGroup : StrategyDefinitions := .ofGroup "universe" ["A"] (by decide)

def emptyMarket : GeneratedMarket :=
  ⟨⟨.exact id, id, fun _ => ""⟩, Dict.empty, fun _ _ => true⟩

/-- One point for every member, and all eligible. -/
def flatAssignment : Assignment := ⟨fun _ => some 1, fun _ => .true⟩

end RuleTrade
