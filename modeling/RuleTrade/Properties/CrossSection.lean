import RuleTrade.Properties.TopSelection

/-! Cross-sectional transforms of the members of a domain: what the standing of
a member among the available ones says, whatever the order of the listing. -/

namespace RuleTrade

open Library

/-- Members with a value, best first. -/
def availableRanking (direction : SortDirection) (score : String → Option ℚ)
    (members : List String) : List (ℚ × String) :=
  rankMembers direction (members.filterMap (fun member => (score member).map (·, member)))

section Available

variable {direction : SortDirection} {score : String → Option ℚ} {members : List String}

/-- Available members are the candidates of an assignment that accepts all. -/
theorem availableRanking_eq :
    availableRanking direction score members = rankMembers direction
      (((⟨score, fun _ => .true⟩ : Assignment).candidates members).map Prod.swap) := by
  rw [availableRanking, Assignment.candidates, List.map_filterMap]
  congr 2
  funext member
  simp [Function.comp_def]

theorem mem_availableRanking {entry : ℚ × String} :
    entry ∈ availableRanking direction score members ↔
      entry.2 ∈ members ∧ score entry.2 = some entry.1 := by
  rw [availableRanking_eq, mem_ranking]
  exact ⟨fun h => ⟨h.1, h.2.2⟩, fun h => ⟨h.1, rfl, h.2⟩⟩

theorem availableRanking_pairwise :
    (availableRanking direction score members).Pairwise (Precedes direction) :=
  rankMembers_pairwise _ _

theorem nodup_availableRanking (hNodup : members.Nodup) :
    ((availableRanking direction score members).map Prod.snd).Nodup := by
  rw [availableRanking_eq]
  exact nodup_ranking hNodup

theorem availableRanking_perm {members' : List String} (h : members'.Perm members) :
    availableRanking direction score members' = availableRanking direction score members := by
  rw [availableRanking_eq, ranking_of_perm h, ← availableRanking_eq]

end Available

section Standing

variable {ctx : DecimalContext} {transform : CrossSectionalTransform} {bins : Option Nat}
  {available : List (ℚ × String)}

theorem crossSectionalOutcome_of_mem (hNodup : (available.map Prod.snd).Nodup) {position : Nat}
    {entry : ℚ × String} (h : available[position]? = some entry) :
    crossSectionalOutcome ctx transform bins available entry.2 =
      (some (crossSectionalTransform ctx transform bins available position entry.1), none) := by
  obtain ⟨hPosition, rfl⟩ := List.getElem?_eq_some_iff.mp h
  have hIndex : (available.map Prod.snd).idxOf available[position].2 = position := by
    have hRange : position < (available.map Prod.snd).length := by simpa using hPosition
    have hSame := hNodup.idxOf_getElem position hRange
    rwa [List.getElem_map] at hSame
  have hFind : available.find? (fun other => other.2 = available[position].2) =
      some available[position] := by
    have hMem : available[position] ∈ available := List.getElem_mem _
    cases hFound : available.find? (fun other => other.2 = available[position].2) with
    | none => exact absurd (decide_eq_true rfl) (List.find?_eq_none.mp hFound _ hMem)
    | some other =>
        have hName : other.2 = available[position].2 := by simpa using List.find?_some hFound
        rw [List.inj_on_of_nodup_map hNodup (List.mem_of_find?_eq_some hFound) hMem hName]
  rw [crossSectionalOutcome, hFind, hIndex]

theorem crossSectionalOutcome_of_notMem {candidate : String}
    (h : candidate ∉ available.map Prod.snd) :
    (crossSectionalOutcome ctx transform bins available candidate).1 = none := by
  have hFind : available.find? (fun entry => entry.2 = candidate) = none := by
    rw [List.find?_eq_none]
    intro entry hEntry hName
    exact h (List.mem_map.mpr ⟨entry, hEntry, of_decide_eq_true hName⟩)
  rw [crossSectionalOutcome, hFind]

end Standing

section Numbers

variable {numbers : List ℚ} {number : ℚ}

theorem le_maximum (h : number ∈ numbers) : number ≤ maximum numbers := by
  cases numbers with
  | nil => cases h
  | cons first rest => exact (List.max?_eq_some_iff.mp List.max?_cons').2 number h

theorem minimum_le (h : number ∈ numbers) : minimum numbers ≤ number := by
  cases numbers with
  | nil => cases h
  | cons first rest => exact (List.min?_eq_some_iff.mp List.min?_cons').2 number h

end Numbers

section Standing

/-- Share of the other available members that a position leaves behind. -/
def standing (count position : Nat) : ℚ :=
  if count = 1 then 1 else ((count : ℚ) - 1 - position) / (count - 1)

theorem standing_antitone {count first second : Nat} (hCount : 1 ≤ count) (h : first ≤ second) :
    standing count second ≤ standing count first := by
  rw [standing, standing]
  split_ifs with hSingle
  · exact le_rfl
  · have hOrder : (first : ℚ) ≤ second := by exact_mod_cast h
    have hOthers : (0 : ℚ) ≤ count - 1 := by
      rw [sub_nonneg]
      exact_mod_cast hCount
    exact div_le_div_of_nonneg_right (by linarith) hOthers

/-- A share rounded up into bins. -/
def binned (bins : Nat) (share : ℚ) : ℚ := max 1 (min (bins : ℚ) (⌈share * bins⌉ : ℤ))

theorem binned_mono {bins : Nat} {share share' : ℚ} (h : share ≤ share') :
    binned bins share ≤ binned bins share' := by
  have hCeil : ⌈share * bins⌉ ≤ ⌈share' * bins⌉ :=
    Int.ceil_le_ceil (mul_le_mul_of_nonneg_right h (Nat.cast_nonneg _))
  have hCast : ((⌈share * bins⌉ : ℤ) : ℚ) ≤ (⌈share' * bins⌉ : ℤ) := by exact_mod_cast hCeil
  exact max_le_max le_rfl (min_le_min le_rfl hCast)

theorem binned_range {bins : Nat} (hBins : 1 ≤ bins) (share : ℚ) :
    ∃ bin : Nat, binned bins share = bin ∧ 1 ≤ bin ∧ bin ≤ bins := by
  refine ⟨(max 1 (min (bins : ℤ) ⌈share * bins⌉)).toNat, ?_, by omega, by omega⟩
  have hNonneg : 0 ≤ max 1 (min (bins : ℤ) ⌈share * bins⌉) := by omega
  have hCast : (((max 1 (min (bins : ℤ) ⌈share * bins⌉)).toNat : ℤ) : ℚ) =
      ((max 1 (min (bins : ℤ) ⌈share * bins⌉) : ℤ) : ℚ) := by
    rw [Int.toNat_of_nonneg hNonneg]
  rw [binned]
  push_cast at hCast ⊢
  exact hCast.symm

end Standing

section Laws

variable (direction : SortDirection) (score : String → Option ℚ) (members : List String)

def availableCount : Nat := (members.filter (fun member => (score member).isSome)).length

/-- A member of the domain with a value. -/
def IsAvailable (member : String) : Prop := member ∈ members ∧ (score member).isSome = true

/-- Both members have values, and the first one is strictly better. -/
def Better (x y : String) : Prop :=
  ∃ scoreX scoreY, score x = some scoreX ∧ score y = some scoreY ∧
    match direction with
    | .ascending => scoreX < scoreY
    | .descending => scoreY < scoreX

/-- What the transforms of a cross section say about its members. -/
structure CrossSectionLaws
    (outcome : CrossSectionalTransform → Option Nat → String → Option ℚ) : Prop where
  available : ∀ transform bins member,
    (outcome transform bins member).isSome = true ↔ IsAvailable score members member
  rank_range : ∀ bins member, IsAvailable score members member →
    ∃ rank : Nat, 1 ≤ rank ∧ rank ≤ availableCount score members ∧
      outcome .rank bins member = some rank
  rank_unique : ∀ bins (rank : Nat), 1 ≤ rank → rank ≤ availableCount score members →
    ∃! member, IsAvailable score members member ∧ outcome .rank bins member = some rank
  percentile_first : ∀ bins member, 1 < availableCount score members →
    outcome .rank bins member = some 1 → outcome .percentile bins member = some 1
  percentile_last : ∀ bins member, 1 < availableCount score members →
    outcome .rank bins member = some (availableCount score members : ℚ) →
    outcome .percentile bins member = some 0
  better_rank : ∀ bins x y rankX rankY, Better direction score x y →
    outcome .rank bins x = some rankX → outcome .rank bins y = some rankY → rankX ≤ rankY
  better_share : ∀ transform ∈ [CrossSectionalTransform.percentile, .quantile, .bucket],
    ∀ bins x y shareX shareY, Better direction score x y →
    outcome transform bins x = some shareX → outcome transform bins y = some shareY →
    shareY ≤ shareX
  binned : ∀ transform ∈ [CrossSectionalTransform.quantile, .bucket],
    ∀ bins member share, 2 ≤ bins → bins ≤ 100 →
    outcome transform (some bins) member = some share →
    ∃ bin : Nat, share = bin ∧ 1 ≤ bin ∧ bin ≤ bins
  min_max : ∀ bins member share, outcome .minMax bins member = some share →
    0 ≤ share ∧ share ≤ 1

end Laws

section Exact

variable {sqrt : ℚ → ℚ} {direction : SortDirection} {score : String → Option ℚ}
  {members : List String} {transform : CrossSectionalTransform} {bins : Option Nat}

/-- Value of a transform for a member. -/
def crossSectionValue (ctx : DecimalContext) (direction : SortDirection)
    (score : String → Option ℚ) (members : List String) (transform : CrossSectionalTransform)
    (bins : Option Nat) (member : String) : Option ℚ :=
  (crossSectionalOutcome ctx transform bins (availableRanking direction score members) member).1

theorem length_availableRanking :
    (availableRanking direction score members).length = availableCount score members := by
  rw [availableRanking, (rankMembers_perm _ _).length_eq, availableCount]
  induction members with
  | nil => rfl
  | cons member rest ih =>
      cases hScore : score member with
      | none => simp [hScore, ih]
      | some number => simp [hScore, ih]

/-- A value is the transform of a place in the ranking. -/
theorem crossSectionValue_eq_some_iff {ctx : DecimalContext} (hNodup : members.Nodup)
    {member : String} {result : ℚ} :
    crossSectionValue ctx direction score members transform bins member = some result ↔
      ∃ position number,
        (availableRanking direction score members)[position]? = some (number, member) ∧
        result = crossSectionalTransform ctx transform bins
          (availableRanking direction score members) position number := by
  constructor
  · intro h
    by_cases hMember : member ∈ (availableRanking direction score members).map Prod.snd
    · obtain ⟨entry, hEntry, rfl⟩ := List.mem_map.mp hMember
      obtain ⟨position, hPosition⟩ := List.getElem?_of_mem hEntry
      rw [crossSectionValue,
        crossSectionalOutcome_of_mem (nodup_availableRanking hNodup) hPosition] at h
      exact ⟨position, entry.1, hPosition, (Option.some.inj h).symm⟩
    · rw [crossSectionValue, crossSectionalOutcome_of_notMem hMember] at h
      cases h
  · rintro ⟨position, number, hPosition, rfl⟩
    rw [crossSectionValue]
    exact congrArg Prod.fst
      (crossSectionalOutcome_of_mem (nodup_availableRanking hNodup) hPosition)

theorem better_position {x y : String} {first second : Nat}
    {numberX numberY : ℚ} (h : Better direction score x y)
    (hX : (availableRanking direction score members)[first]? = some (numberX, x))
    (hY : (availableRanking direction score members)[second]? = some (numberY, y)) :
    first < second := by
  obtain ⟨scoreX, scoreY, hScoreX, hScoreY, hBetter⟩ := h
  obtain rfl := Option.some.inj
    ((mem_availableRanking.mp (List.mem_of_getElem? hX)).2.symm.trans hScoreX)
  obtain rfl := Option.some.inj
    ((mem_availableRanking.mp (List.mem_of_getElem? hY)).2.symm.trans hScoreY)
  obtain ⟨hFirst, hAtFirst⟩ := List.getElem?_eq_some_iff.mp hX
  obtain ⟨hSecond, hAtSecond⟩ := List.getElem?_eq_some_iff.mp hY
  by_contra hLate
  rcases Nat.eq_or_lt_of_le (Nat.le_of_not_lt hLate) with rfl | hEarlier
  · obtain ⟨hSame, -⟩ := Prod.mk.inj (hAtFirst.symm.trans hAtSecond)
    subst hSame
    cases direction <;> exact lt_irrefl _ hBetter
  · have hBehind := List.pairwise_iff_getElem.mp
      (@availableRanking_pairwise direction score members)
      second first hSecond hFirst hEarlier
    rw [hAtFirst, hAtSecond] at hBehind
    cases direction <;> exact absurd hBehind.1 (not_le.mpr hBetter)

/-- Share of a transform, rounded up into bins where it has bins. -/
def rounded (transform : CrossSectionalTransform) (bins : Option Nat) (share : ℚ) : ℚ :=
  if transform = .percentile then share else binned (bins.getD 1) share

theorem rounded_mono {share share' : ℚ} (h : share ≤ share') :
    rounded transform bins share ≤ rounded transform bins share' := by
  rw [rounded, rounded]
  split_ifs
  · exact h
  · exact binned_mono h

/-- Transforms of exact numbers, by the place in the ranking. -/
theorem transform_standing (position : Nat) (number : ℚ) :
    crossSectionalTransform (.exact sqrt) .rank bins (availableRanking direction score members)
        position number = position + 1 ∧
      ∀ transform ∈ [CrossSectionalTransform.percentile, .quantile, .bucket],
        crossSectionalTransform (.exact sqrt) transform bins
          (availableRanking direction score members) position number =
          rounded transform bins (standing (availableCount score members) position) := by
  rw [← @length_availableRanking direction score members]
  refine ⟨rfl, fun transform hTransform => ?_⟩
  cases transform with
  | percentile | quantile | bucket => rfl
  | _ => simp at hTransform

theorem isAvailable_iff {member : String} :
    IsAvailable score members member ↔
      ∃ (position : Nat) (number : ℚ),
        (availableRanking direction score members)[position]? = some (number, member) := by
  constructor
  · rintro ⟨hMember, hScore⟩
    obtain ⟨number, hNumber⟩ := Option.isSome_iff_exists.mp hScore
    obtain ⟨position, hPosition⟩ := List.getElem?_of_mem
      (mem_availableRanking.mpr ⟨hMember, hNumber⟩ :
        (number, member) ∈ availableRanking direction score members)
    exact ⟨position, number, hPosition⟩
  · rintro ⟨position, number, hPosition⟩
    obtain ⟨hMember, hNumber⟩ := mem_availableRanking.mp (List.mem_of_getElem? hPosition)
    exact ⟨hMember, Option.isSome_iff_exists.mpr ⟨number, hNumber⟩⟩

theorem rank_eq_some_iff (hNodup : members.Nodup) {member : String} {rank : Nat} :
    crossSectionValue (.exact sqrt) direction score members .rank bins member = some (rank : ℚ) ↔
      ∃ (position : Nat) (number : ℚ),
        (availableRanking direction score members)[position]? = some (number, member) ∧
        rank = position + 1 := by
  rw [crossSectionValue_eq_some_iff hNodup]
  constructor
  · rintro ⟨position, number, hPosition, hRank⟩
    rw [(transform_standing position number).1] at hRank
    exact ⟨position, number, hPosition, by exact_mod_cast hRank⟩
  · rintro ⟨position, number, hPosition, rfl⟩
    refine ⟨position, number, hPosition, ?_⟩
    rw [(transform_standing position number).1]
    push_cast
    rfl

theorem share_eq_some_iff (hNodup : members.Nodup) {member : String} {share : ℚ}
    (hTransform : transform ∈ [CrossSectionalTransform.percentile, .quantile, .bucket]) :
    crossSectionValue (.exact sqrt) direction score members transform bins member = some share ↔
      ∃ (position : Nat) (number : ℚ),
        (availableRanking direction score members)[position]? = some (number, member) ∧
        share = rounded transform bins (standing (availableCount score members) position) := by
  rw [crossSectionValue_eq_some_iff hNodup]
  constructor
  · rintro ⟨position, number, hPosition, hShare⟩
    rw [(transform_standing position number).2 transform hTransform] at hShare
    exact ⟨position, number, hPosition, hShare⟩
  · rintro ⟨position, number, hPosition, hShare⟩
    refine ⟨position, number, hPosition, ?_⟩
    rw [(transform_standing position number).2 transform hTransform, hShare]

theorem minMax_range {position : Nat} {number : ℚ} {member : String}
    (h : (availableRanking direction score members)[position]? = some (number, member)) :
    0 ≤ crossSectionalTransform (.exact sqrt) .minMax bins
        (availableRanking direction score members) position number ∧
      crossSectionalTransform (.exact sqrt) .minMax bins
        (availableRanking direction score members) position number ≤ 1 := by
  have hNumber : number ∈ (availableRanking direction score members).map Prod.fst :=
    List.mem_map.mpr ⟨_, List.mem_of_getElem? h, rfl⟩
  have hValue : crossSectionalTransform (.exact sqrt) .minMax bins
      (availableRanking direction score members) position number =
      if maximum ((availableRanking direction score members).map Prod.fst) -
          minimum ((availableRanking direction score members).map Prod.fst) = 0 then 0
      else (number - minimum ((availableRanking direction score members).map Prod.fst)) /
        (maximum ((availableRanking direction score members).map Prod.fst) -
          minimum ((availableRanking direction score members).map Prod.fst)) := rfl
  rw [hValue]
  generalize (availableRanking direction score members).map Prod.fst = numbers at hNumber ⊢
  have hHigh := le_maximum hNumber
  have hLow := minimum_le hNumber
  by_cases hFlat : maximum numbers - minimum numbers = 0
  · simp [hFlat]
  · have hSpread : 0 < maximum numbers - minimum numbers :=
      lt_of_le_of_ne (by linarith) (Ne.symm hFlat)
    rw [if_neg hFlat]
    exact ⟨div_nonneg (by linarith) hSpread.le, (div_le_one hSpread).mpr (by linarith)⟩

theorem crossSection_satisfies_laws (sqrt : ℚ → ℚ) (direction : SortDirection)
    (score : String → Option ℚ) (hNodup : members.Nodup) :
    CrossSectionLaws direction score members
      (crossSectionValue (.exact sqrt) direction score members) where
  available transform bins member := by
    rw [@isAvailable_iff direction, Option.isSome_iff_exists]
    constructor
    · rintro ⟨result, hResult⟩
      obtain ⟨position, number, hPosition, -⟩ := (crossSectionValue_eq_some_iff hNodup).mp hResult
      exact ⟨position, number, hPosition⟩
    · rintro ⟨position, number, hPosition⟩
      exact ⟨_, (crossSectionValue_eq_some_iff hNodup).mpr ⟨position, number, hPosition, rfl⟩⟩
  rank_range bins member hAvailable := by
    obtain ⟨position, number, hPosition⟩ := (@isAvailable_iff direction ..).mp hAvailable
    obtain ⟨hRange, -⟩ := List.getElem?_eq_some_iff.mp hPosition
    rw [length_availableRanking] at hRange
    exact ⟨position + 1, by omega, by omega,
      (rank_eq_some_iff hNodup).mpr ⟨position, number, hPosition, rfl⟩⟩
  rank_unique bins rank hLow hHigh := by
    have hRange : rank - 1 < (availableRanking direction score members).length := by
      rw [length_availableRanking]
      omega
    have hPosition := List.getElem?_eq_getElem hRange
    generalize (availableRanking direction score members)[rank - 1] = entry at hPosition
    refine ⟨entry.2, ⟨(@isAvailable_iff direction ..).mpr ⟨_, _, hPosition⟩,
      (rank_eq_some_iff hNodup).mpr ⟨rank - 1, entry.1, hPosition, by omega⟩⟩, ?_⟩
    rintro other ⟨-, hOther⟩
    obtain ⟨position, number, hAt, hRank⟩ := (rank_eq_some_iff hNodup).mp hOther
    have hSame : position = rank - 1 := by omega
    rw [hSame, hPosition] at hAt
    exact (congrArg Prod.snd (Option.some.inj hAt)).symm
  percentile_first bins member hMany hFirst := by
    obtain ⟨position, number, hPosition, hRank⟩ :=
      (@rank_eq_some_iff sqrt direction score members bins hNodup member 1).mp (by exact_mod_cast hFirst)
    obtain rfl : position = 0 := by omega
    refine (share_eq_some_iff hNodup (by simp)).mpr ⟨0, number, hPosition, ?_⟩
    show 1 = standing _ _
    have hOthers : (availableCount score members : ℚ) - 1 ≠ 0 := by
      rw [sub_ne_zero]
      exact_mod_cast hMany.ne'
    rw [standing, if_neg hMany.ne', Nat.cast_zero, sub_zero, div_self hOthers]
  percentile_last bins member hMany hLast := by
    obtain ⟨position, number, hPosition, hRank⟩ := (rank_eq_some_iff hNodup).mp hLast
    refine (share_eq_some_iff hNodup (by simp)).mpr ⟨position, number, hPosition, ?_⟩
    show 0 = standing _ _
    rw [standing, if_neg hMany.ne', hRank]
    push_cast
    ring
  better_rank bins x y rankX rankY hBetter hX hY := by
    obtain ⟨first, numberX, hFirst, rfl⟩ := (crossSectionValue_eq_some_iff hNodup).mp hX
    obtain ⟨second, numberY, hSecond, rfl⟩ := (crossSectionValue_eq_some_iff hNodup).mp hY
    have hOrder : (first : ℚ) ≤ second := by exact_mod_cast (better_position hBetter hFirst hSecond).le
    rw [(transform_standing first numberX).1, (transform_standing second numberY).1]
    linarith
  better_share transform hTransform bins x y shareX shareY hBetter hX hY := by
    obtain ⟨first, numberX, hFirst, rfl⟩ := (share_eq_some_iff hNodup hTransform).mp hX
    obtain ⟨second, numberY, hSecond, rfl⟩ := (share_eq_some_iff hNodup hTransform).mp hY
    obtain ⟨hRange, -⟩ := List.getElem?_eq_some_iff.mp hFirst
    rw [length_availableRanking] at hRange
    have hOrder := (better_position hBetter hFirst hSecond).le
    exact rounded_mono (standing_antitone (by omega) hOrder)
  binned transform hTransform bins member share hLow hHigh hShare := by
    have hBinned : transform ≠ .percentile := by
      rintro rfl
      simp at hTransform
    obtain ⟨position, number, -, rfl⟩ :=
      (share_eq_some_iff hNodup (List.mem_cons_of_mem _ hTransform)).mp hShare
    rw [rounded, if_neg hBinned]
    exact binned_range (show 1 ≤ bins by omega) _
  min_max bins member share hShare := by
    obtain ⟨position, number, hPosition, rfl⟩ := (crossSectionValue_eq_some_iff hNodup).mp hShare
    exact minMax_range hPosition

end Exact

section Runtime

variable {d : Decision} {r : Runtime} {bindingId : Option String} {members : List String}
  {source : ValueExpression} {score : String → Option ℚ}

/-- Each member's source value, where it has one, is its score. -/
def SourceReads (d : Decision) (r : Runtime) (bindingId : Option String) (members : List String)
    (source : ValueExpression) (score : String → Option ℚ) : Prop :=
  ∀ member ∈ members, ∃ item,
    (value d r bindingId members source (some member)).result = .ok item ∧
      item.value = score member

theorem value_crossSectional (hSource : SourceReads d r bindingId members source score)
    (id domain : String) (transform : CrossSectionalTransform) (direction : SortDirection)
    (bins : Option Nat) (member : String) :
    ∃ item, (value d r bindingId members
        (.crossSectional id source domain transform direction bins) (some member)).result =
          .ok item ∧
      item.value = crossSectionValue d.environment.context direction score members transform bins
        member := by
  have hItems : (Logged.forEach (fun member => do
      let item ← value d r bindingId members source (some member)
      pure (item.value, member)) members).result =
      .ok (members.map (fun member => (score member, member))) := by
    apply Logged.result_forEach
    intro member hMember
    obtain ⟨item, hItem, hScore⟩ := hSource member hMember
    rw [Logged.result_bind_of_ok hItem, hScore]
    rfl
  have hAvailable : (members.map (fun member => (score member, member))).filterMap
      (fun item => item.1.map (·, item.2)) =
      members.filterMap (fun member => (score member).map (·, member)) := by
    rw [List.filterMap_map]
    rfl
  rw [value]
  refine ⟨_, (Logged.result_bind_of_ok hItems).trans rfl, ?_⟩
  rw [hAvailable]
  rfl

/-- Cross sections of exact numbers satisfy the laws, whatever the listing. -/
theorem cross_sections_lawful {sqrt : ℚ → ℚ} (hExact : d.environment.context = .exact sqrt)
    (hNodup : members.Nodup) (source : ValueExpression) (score : String → Option ℚ)
    (id domain : String) (direction : SortDirection) :
    ∃ outcome, CrossSectionLaws direction score members outcome ∧
      ∀ members', members'.Perm members → SourceReads d r bindingId members' source score →
        ∀ transform bins member, ∃ item,
          (value d r bindingId members'
            (.crossSectional id source domain transform direction bins) (some member)).result =
              .ok item ∧
          item.value = outcome transform bins member := by
  refine ⟨_, crossSection_satisfies_laws sqrt direction score hNodup,
    fun members' hPerm hSource' transform bins member => ?_⟩
  obtain ⟨item, hItem, hValue⟩ :=
    value_crossSectional hSource' id domain transform direction bins member
  refine ⟨item, hItem, hValue.trans ?_⟩
  rw [hExact, crossSectionValue, crossSectionValue, availableRanking_perm hPerm]

/-- Two members that score the same, listed in the other order. -/
theorem cross_sections_lawful_pair : ∃ outcome,
    CrossSectionLaws .ascending (fun _ => some 1) ["A", "B"] outcome ∧ ∃ item,
      (value loneOpening (({} : Checkpoint).runtime loneOpening.program) none ["B", "A"]
        (.crossSectional "rank" (.literal "one" 1 .score .ratio none) "universe" .rank .ascending
          none) (some "A")).result = .ok item ∧
      item.value = outcome .rank none "A" := by
  obtain ⟨outcome, hLaws, hRead⟩ := @cross_sections_lawful loneOpening
    (({} : Checkpoint).runtime loneOpening.program) none ["A", "B"] id rfl (by decide)
    (.literal "one" 1 .score .ratio none) (fun _ => some 1) "rank" "universe" .ascending
  exact ⟨outcome, hLaws, hRead ["B", "A"] (List.Perm.swap "A" "B" [])
    (fun _ _ => ⟨_, rfl, rfl⟩) .rank none "A"⟩

end Runtime

end RuleTrade
