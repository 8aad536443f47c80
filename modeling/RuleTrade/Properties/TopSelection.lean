import RuleTrade.Properties.SelectionStages

/-! What a Selection keeps of its ranked members: the best of them, in an order
that the listing of the domain does not decide. -/

namespace RuleTrade

open Library

section Ranked

variable (a : Assignment) (direction : SortDirection) (members : List String)

/-- An eligible member with its score. -/
def Assignment.Ranked (score : ℚ) (member : String) : Prop :=
  member ∈ members ∧ a.eligible member = .true ∧ a.score member = some score

/-- Both members have scores, and the first is not behind the second. -/
def Assignment.Before (x y : String) : Prop :=
  ∃ scoreX scoreY, a.score x = some scoreX ∧ a.score y = some scoreY ∧
    Precedes direction (scoreX, x) (scoreY, y)

/-- The best members in order, at most `count` of them. -/
structure Assignment.Top (count : Nat) (selected : List String) : Prop where
  length : selected.length = min count (a.candidates members).length
  nodup : selected.Nodup
  ranked : ∀ member ∈ selected, ∃ score, a.Ranked members score member
  sorted : selected.Pairwise (a.Before direction)
  best : ∀ member ∈ selected, ∀ other ∉ selected, ∀ score, a.Ranked members score other →
    ¬a.Before direction other member

variable {a direction members}

theorem mem_candidates {member : String} {score : ℚ} :
    (member, score) ∈ a.candidates members ↔ a.Ranked members score member := by
  rw [Assignment.candidates, List.mem_filterMap, Assignment.Ranked]
  constructor
  · rintro ⟨other, hOther, hEntry⟩
    split_ifs at hEntry with hEligible
    obtain ⟨_, hScore, hPair⟩ := Option.map_eq_some_iff.mp hEntry
    obtain ⟨rfl, rfl⟩ := Prod.mk.inj hPair
    exact ⟨hOther, hEligible, hScore⟩
  · rintro ⟨hMember, hEligible, hScore⟩
    exact ⟨member, hMember, by rw [if_pos hEligible, hScore]; rfl⟩

theorem nodup_candidates (hNodup : members.Nodup) :
    ((a.candidates members).map Prod.fst).Nodup := by
  have hSublist : ((a.candidates members).map Prod.fst).Sublist members := by
    rw [Assignment.candidates]
    induction members with
    | nil => exact List.Sublist.refl _
    | cons member rest ih =>
        have hRest := ih (List.nodup_cons.mp hNodup).2
        rw [List.filterMap_cons]
        split
        · exact hRest.cons _
        · rename_i entry hEntry
          split_ifs at hEntry
          obtain ⟨_, -, rfl⟩ := Option.map_eq_some_iff.mp hEntry
          exact hRest.cons_cons _
  exact hSublist.nodup hNodup

/-- Members of the ranking are the ranked ones. -/
theorem mem_ranking {entry : ℚ × String} :
    entry ∈ rankMembers direction ((a.candidates members).map Prod.swap) ↔
      a.Ranked members entry.1 entry.2 := by
  rw [(rankMembers_perm _ _).mem_iff, ← mem_candidates, List.mem_map]
  constructor
  · rintro ⟨_, hEntry, rfl⟩
    exact hEntry
  · intro hEntry
    exact ⟨_, hEntry, rfl⟩

theorem nodup_ranking (hNodup : members.Nodup) :
    ((rankMembers direction ((a.candidates members).map Prod.swap)).map Prod.snd).Nodup := by
  have hPerm := (rankMembers_perm direction ((a.candidates members).map Prod.swap)).map Prod.snd
  rw [List.map_map] at hPerm
  exact hPerm.nodup_iff.mpr (nodup_candidates hNodup)

theorem Assignment.Before.antisymm {x y : String} (hxy : a.Before direction x y)
    (hyx : a.Before direction y x) : x = y := by
  obtain ⟨scoreX, scoreY, hX, hY, hFirst⟩ := hxy
  obtain ⟨scoreY', scoreX', hY', hX', hSecond⟩ := hyx
  obtain rfl := Option.some.inj (hX.symm.trans hX')
  obtain rfl := Option.some.inj (hY.symm.trans hY')
  exact congrArg Prod.snd (hFirst.antisymm hSecond)

/-- The head of the ranking is the top of the members. -/
theorem ordered_top {s : Selection} (hNodup : members.Nodup) :
    a.Top s.direction members s.count ((a.ordered s members).take s.count) := by
  have hOrdered : (a.ordered s members).Nodup := nodup_ranking hNodup
  have hSorted : (a.ordered s members).Pairwise (a.Before s.direction) := by
    rw [Assignment.ordered, List.pairwise_map]
    refine (rankMembers_pairwise _ _).imp_of_mem (fun {x y} hx hy hxy => ?_)
    exact ⟨x.1, y.1, (mem_ranking.mp hx).2.2, (mem_ranking.mp hy).2.2, hxy⟩
  have hRanked : ∀ member ∈ a.ordered s members, ∃ score, a.Ranked members score member := by
    intro member hMember
    obtain ⟨entry, hEntry, rfl⟩ := List.mem_map.mp hMember
    exact ⟨entry.1, mem_ranking.mp hEntry⟩
  refine ⟨?_, hOrdered.sublist (List.take_sublist _ _),
    fun member hMember => hRanked member (List.mem_of_mem_take hMember),
    hSorted.sublist (List.take_sublist _ _), fun member hMember other hOther score hScore => ?_⟩
  · rw [List.length_take, (a.ordered_perm s members).length_eq, List.length_map]
  · have hLater : other ∈ (a.ordered s members).drop s.count := by
      have hAll : other ∈ a.ordered s members :=
        List.mem_map.mpr ⟨(score, other), mem_ranking.mpr hScore, rfl⟩
      rw [← List.take_append_drop s.count (a.ordered s members), List.mem_append] at hAll
      exact hAll.resolve_left hOther
    rw [← List.take_append_drop s.count (a.ordered s members), List.pairwise_append] at hSorted
    intro hBefore
    have hSame := (hSorted.2.2 member hMember other hLater).antisymm hBefore
    exact hOther (hSame ▸ hMember)

/-- A listing of the domain in another order gives the same ranking. -/
theorem ranking_of_perm {members' : List String} (h : members'.Perm members) :
    rankMembers direction ((a.candidates members').map Prod.swap) =
      rankMembers direction ((a.candidates members).map Prod.swap) := by
  have hPerm : (rankMembers direction ((a.candidates members').map Prod.swap)).Perm
      (rankMembers direction ((a.candidates members).map Prod.swap)) :=
    (rankMembers_perm _ _).trans
      (((a.candidates_perm h).map _).trans (rankMembers_perm _ _).symm)
  exact hPerm.eq_of_pairwise (fun _ _ _ _ => Precedes.antisymm)
    (rankMembers_pairwise _ _) (rankMembers_pairwise _ _)

theorem ordered_of_perm {s : Selection} {members' : List String} (h : members'.Perm members) :
    a.ordered s members' = a.ordered s members := by
  rw [Assignment.ordered, ranking_of_perm h, Assignment.ordered]

end Ranked

section Selection

variable {d d' : Decision} {r r' : Runtime} {statement : SelectionStatement}
  {members members' : List String} {a : Assignment}

/-- The shortage policy accepts the ranked members. -/
def Assignment.Meets (a : Assignment) (s : Selection) (members : List String) : Prop :=
  a.candidates members ≠ [] ∧
    (s.count ≤ (a.candidates members).length ∨ s.shortagePolicy = .chooseAll)

theorem ordered_eq_nil_iff {s : Selection} :
    a.ordered s members = [] ↔ a.candidates members = [] := by
  rw [← List.length_eq_zero_iff, (a.ordered_perm s members).length_eq, List.length_map,
    List.length_eq_zero_iff]

/-- Chosen members and the reported outcome, by the shortage policy. -/
theorem chooseMembers_ordered (s : Selection) :
    (a.Meets s members →
      chooseMembers s (a.ordered s members) = ((a.ordered s members).take s.count, "selected")) ∧
    (¬a.Meets s members → (chooseMembers s (a.ordered s members)).1 = s.fallbackAsset.toList ∧
      ((chooseMembers s (a.ordered s members)).2 = "selection_fallback" ↔
        s.fallbackAsset.isSome = true)) := by
  have hCondition : (a.ordered s members ≠ [] ∧ (s.count ≤ (a.ordered s members).length ∨
      s.shortagePolicy = .chooseAll)) ↔ a.Meets s members := by
    rw [Assignment.Meets, ne_eq, ordered_eq_nil_iff, (a.ordered_perm s members).length_eq,
      List.length_map]
  constructor
  · intro hMeets
    rw [chooseMembers, if_pos (hCondition.mpr hMeets)]
  · intro hShort
    rw [chooseMembers, if_neg (hCondition.not.mpr hShort)]
    cases s.fallbackAsset with
    | none => simp
    | some asset => simp

/-- Two listings of one domain give one Selection: the top of the members that
can be ranked, or the fallback when the shortage policy refuses them. -/
theorem selection_is_stable_top (hDue : d.due statement.clockId = .ok true)
    (hDue' : d'.due statement.clockId = .ok true)
    (hMembers : d.members statement.selection.universeId = .ok members)
    (hMembers' : d'.members statement.selection.universeId = .ok members')
    (hPerm : members'.Perm members) (hNodup : members.Nodup)
    (hReads : ReferenceReads d r statement.selection members a)
    (hReads' : ReferenceReads d' r' statement.selection members' a) :
    ∃ final final' selected line,
      (selection d r statement).result = .ok final ∧
      (selection d' r' statement).result = .ok final' ∧
      final.selections.get? statement.outputId = some selected ∧
      final'.selections.get? statement.outputId = some selected ∧
      selected.length ≤ statement.selection.count ∧ selected.Nodup ∧
      (a.Meets statement.selection members → a.Top statement.selection.direction members
        statement.selection.count selected) ∧
      (¬a.Meets statement.selection members →
        selected = statement.selection.fallbackAsset.toList) ∧
      final.evidence = r.evidence ++ [line] ∧
      (line.outcome = "selection_fallback" ↔ ¬a.Meets statement.selection members ∧
        statement.selection.fallbackAsset.isSome = true) := by
  obtain ⟨final, line, hResult, hSelected, hEvidence, hOutcome⟩ :=
    selection_reports hDue hMembers hReads
  obtain ⟨final', -, hResult', hSelected', -, -⟩ := selection_reports hDue' hMembers' hReads'
  rw [ordered_of_perm hPerm] at hSelected'
  obtain ⟨hMet, hShort⟩ := @chooseMembers_ordered members a statement.selection
  refine ⟨final, final', _, line, hResult, hResult', hSelected, hSelected', ?_⟩
  by_cases hMeets : a.Meets statement.selection members
  · have hTop := @ordered_top a members statement.selection hNodup
    rw [hMet hMeets] at hOutcome ⊢
    refine ⟨hTop.length.trans_le (min_le_left _ _), hTop.nodup, fun _ => hTop,
      fun h => absurd hMeets h, hEvidence, ?_⟩
    rw [hOutcome]
    have hSelected : "selected" ≠ "selection_fallback" := by decide
    exact ⟨fun h => absurd h hSelected, fun h => absurd hMeets h.1⟩
  · obtain ⟨hFallback, hReported⟩ := hShort hMeets
    rw [hOutcome, hFallback, hReported]
    refine ⟨?_, ?_, fun h => absurd h hMeets, fun _ => rfl, hEvidence, by simp [hMeets]⟩
    · have hCount := statement.selection.count_range.1
      cases statement.selection.fallbackAsset with
      | none => exact Nat.zero_le _
      | some asset => exact hCount
    · cases statement.selection.fallbackAsset with
      | none => exact List.nodup_nil
      | some asset => exact List.nodup_singleton _

def listingOpening (members : List String) (hMembers : members ≠ [] ∧ members.Nodup) : Decision :=
  ((DailyMarketSnapshot.single "A" (⟨2024, 1, 5⟩, some 10) []).overDomain "universe" members
    hMembers).opening (.exact id) (.daily [.select pickThree])

theorem flatAssignment_read (members : List String) (hMembers : members ≠ [] ∧ members.Nodup)
    (r : Runtime) :
    ReferenceReads (listingOpening members hMembers) r pickThree.selection members
      flatAssignment :=
  ⟨fun _ hEligibility => absurd hEligibility (Option.not_mem_none _), fun _ _ _ => rfl,
    fun _ _ _ => ⟨_, rfl, rfl⟩⟩

/-- Two equal members, listed in either order. -/
theorem selection_is_stable_top_pair : ∃ final final' selected,
    (selection (listingOpening ["A", "B"] (by decide)) (({} : Checkpoint).runtime
      loneOpening.program) pickThree).result = .ok final ∧
    (selection (listingOpening ["B", "A"] (by decide)) (({} : Checkpoint).runtime
      loneOpening.program) pickThree).result = .ok final' ∧
    final.selections.get? "top" = some selected ∧ final'.selections.get? "top" = some selected := by
  obtain ⟨final, final', selected, _, hResult, hResult', hSelected, hSelected', -⟩ :=
    @selection_is_stable_top (listingOpening ["A", "B"] (by decide))
      (listingOpening ["B", "A"] (by decide)) _ _ pickThree ["A", "B"] ["B", "A"] _
      rfl rfl rfl rfl (List.Perm.swap "A" "B" []) (by decide)
      (flatAssignment_read _ _ (({} : Checkpoint).runtime loneOpening.program))
      (flatAssignment_read _ _ (({} : Checkpoint).runtime loneOpening.program))
  exact ⟨final, final', selected, hResult, hResult', hSelected, hSelected'⟩

end Selection

end RuleTrade
