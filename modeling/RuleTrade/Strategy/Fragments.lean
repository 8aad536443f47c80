import RuleTrade.Strategy.Models
import RuleTrade.Strategy.DailyValues

/-! Fragments of programs and snapshots: one target, one price, one clock, one
series. Their shape rules hold for all parameters. -/

namespace RuleTrade

open Library

theorem AllocationTargetKind.asset_ne_retain (ref : String) : asset ref ≠ retain := by
  intro h
  cases h

theorem AllocationTargetKind.cash_ne_retain : cash ≠ retain := by
  intro h
  cases h

theorem AllocationTargetKind.selection_ne_retain (ref : String) : selection ref ≠ retain := by
  intro h
  cases h

/-- Everything into one target. -/
def AllocationStatement.sole (semanticId : String) (kind : AllocationTargetKind) :
    AllocationStatement where
  semanticId := semanticId
  method := .equal
  legs := [{ semanticId := semanticId ++ "-leg"
             target := { semanticId := semanticId ++ "-target", kind := kind } }]
  legs_range := ⟨le_rfl, by simp⟩
  weights_range := rfl
  retain_sole := fun _ => ⟨rfl, rfl⟩
  fixed_weights := fun h => by cases h
  derived_weights := fun _ => rfl
  bounds_range := ⟨rfl, rfl⟩
  bounds_ordered := rfl
  score_target := fun h => by cases h
  plain_bounds := fun _ => ⟨rfl, rfl, rfl⟩

/-- Equal parts into two targets. -/
def AllocationStatement.evenly (semanticId : String) (first second : AllocationTargetKind)
    (hFirst : first ≠ .retain) (hSecond : second ≠ .retain) : AllocationStatement where
  semanticId := semanticId
  method := .equal
  legs := [
    { semanticId := semanticId ++ "-first"
      target := { semanticId := semanticId ++ "-first-target", kind := first } },
    { semanticId := semanticId ++ "-second"
      target := { semanticId := semanticId ++ "-second-target", kind := second } }]
  legs_range := ⟨by simp, by simp⟩
  weights_range := rfl
  retain_sole := by
    rintro ⟨leg, hLeg, hRetain⟩
    simp only [List.mem_cons, List.not_mem_nil, or_false] at hLeg
    rcases hLeg with rfl | rfl
    · exact absurd hRetain hFirst
    · exact absurd hRetain hSecond
  fixed_weights := fun h => by cases h
  derived_weights := fun _ => rfl
  bounds_range := ⟨rfl, rfl⟩
  bounds_ordered := rfl
  score_target := fun h => by cases h
  plain_bounds := fun _ => ⟨rfl, rfl, rfl⟩

/-- Half into each of two targets. -/
def AllocationStatement.halves (semanticId : String) (first second : AllocationTargetKind)
    (hFirst : first ≠ .retain) (hSecond : second ≠ .retain) : AllocationStatement where
  semanticId := semanticId
  method := .fixed
  legs := [
    { semanticId := semanticId ++ "-first", weight := some (1 / 2)
      target := { semanticId := semanticId ++ "-first-target", kind := first } },
    { semanticId := semanticId ++ "-second", weight := some (1 / 2)
      target := { semanticId := semanticId ++ "-second-target", kind := second } }]
  legs_range := ⟨by simp, by simp⟩
  weights_range := by
    simp only [List.all_cons, List.all_nil, inUnitInterval, Option.all_some]
    decide +kernel
  retain_sole := by
    rintro ⟨leg, hLeg, hRetain⟩
    simp only [List.mem_cons, List.not_mem_nil, or_false] at hLeg
    rcases hLeg with rfl | rfl
    · exact absurd hRetain hFirst
    · exact absurd hRetain hSecond
  fixed_weights := fun _ => ⟨rfl, by
    simp only [List.map_cons, List.map_nil, List.sum_cons, List.sum_nil, Option.getD_some]
    norm_num⟩
  derived_weights := fun h => absurd rfl h
  bounds_range := ⟨rfl, rfl⟩
  bounds_ordered := rfl
  score_target := fun h => by cases h
  plain_bounds := fun _ => ⟨rfl, rfl, rfl⟩

/-- Everything into cash. -/
def intoCash : List ProgramStatement := [.allocate (.sole "cash" .cash)]

theorem one_in_countRange : 1 ≤ 1 ∧ 1 ≤ 100 := ⟨le_rfl, by norm_num⟩

theorem loneMember_valid (member : String) : [member] ≠ [] ∧ [member].Nodup :=
  ⟨List.cons_ne_nil member [], List.nodup_singleton member⟩

/-- Members of a universe that all rank alike. -/
def Selection.anyOf (count : Nat) (shortagePolicy : ShortagePolicy)
    (hCount : 1 ≤ count ∧ count ≤ 100) : Selection where
  semanticId := "selection"
  universeId := "universe"
  binding := { id := "candidate", domainId := "universe" }
  ranking := .literal "score" 1 .score .points none
  count := count
  shortagePolicy := shortagePolicy
  count_range := hCount
  binding_domain := rfl
  ranking_bound := rfl
  eligibility_bound := rfl

/-- Close of one asset. -/
def closeOf (symbol : String) : DailyValueNode :=
  .observe { semanticId := "close", subjectKind := some .asset, subjectId := some symbol } .close
    .adjusted

/-- Close of one asset, under a name of its own. -/
def ownCloseOf (symbol : String) : DailyValueNode :=
  .observe { semanticId := "close-" ++ symbol, subjectKind := some .asset, subjectId := some symbol }
    .close .adjusted

/-- A price against a constant one. -/
def above (price : ValueExpression) (level : ℚ) : Condition :=
  .comparison "compare" .gt price (.literal "level" level .price .usdPerShare (some "adjusted_close"))

/-- A program with one clock and no state. -/
def SemanticProgram.onClock (clock : ProgramClock) (statements : List ProgramStatement) :
    SemanticProgram where
  semanticId := "program"
  clocks := [clock]
  statements := statements
  clock_ids_unique := List.nodup_singleton _

/-- A program on a daily clock. -/
def SemanticProgram.daily (statements : List ProgramStatement) : SemanticProgram :=
  .onClock { id := "daily", timeframe := .daily } statements

/-- A snapshot of one adjusted-close series and no domain. -/
def DailyMarketSnapshot.single (symbol : String) (first : CalendarDate × Option ℚ)
    (rest : List (CalendarDate × Option ℚ)) : DailyMarketSnapshot where
  snapshotId := "snapshot"
  clock := { id := "daily-close" }
  series := ⟨[(symbol, ⟨[((.close, .adjusted), (first :: rest).map Prod.snd)],
    List.nodup_singleton _⟩)], List.nodup_singleton _⟩
  domains := Dict.empty
  dates := (first :: rest).map Prod.fst
  dates_nonempty := by simp
  series_lengths := by simp [Dict.values]
  domains_valid := by simp [Dict.values, Dict.empty]

/-- The same series over one domain. -/
def DailyMarketSnapshot.overDomain (snapshot : DailyMarketSnapshot) (domainId : String)
    (members : List String) (hMembers : members ≠ [] ∧ members.Nodup) : DailyMarketSnapshot where
  snapshotId := snapshot.snapshotId
  clock := snapshot.clock
  series := snapshot.series
  domains := ⟨[(domainId, members)], List.nodup_singleton _⟩
  dates := snapshot.dates
  dates_nonempty := snapshot.dates_nonempty
  series_lengths := snapshot.series_lengths
  domains_valid := by
    intro listed hListed
    rw [List.mem_singleton.mp hListed]
    exact hMembers

/-- A Selection that falls back to one asset. -/
def Selection.orElse (s : Selection) (asset : String) : Selection :=
  { s with fallbackAsset := some asset }

/-- One more adjusted-close series. -/
def DailyMarketSnapshot.withSeries (snapshot : DailyMarketSnapshot) (symbol : String)
    (closes : Series) (hLength : closes.length = snapshot.dates.length) : DailyMarketSnapshot where
  snapshotId := snapshot.snapshotId
  clock := snapshot.clock
  series := snapshot.series.set symbol ⟨[((.close, .adjusted), closes)], List.nodup_singleton _⟩
  domains := snapshot.domains
  dates := snapshot.dates
  dates_nonempty := snapshot.dates_nonempty
  series_lengths := by
    intro fields hFields values hValues
    rcases Dict.mem_values_set hFields with rfl | hFields
    · rw [List.mem_singleton.mp hValues]
      exact hLength
    · exact snapshot.series_lengths fields hFields values hValues
  domains_valid := snapshot.domains_valid

/-- The whole of a fixed allocation. -/
def AllocationStatement.wholly (semanticId : String) (kind : AllocationTargetKind)
    (hKind : kind ≠ .retain) : AllocationStatement where
  semanticId := semanticId
  method := .fixed
  legs := [{ semanticId := semanticId ++ "-leg", weight := some 1
             target := { semanticId := semanticId ++ "-target", kind := kind } }]
  legs_range := ⟨le_rfl, by simp⟩
  weights_range := by
    simp only [List.all_cons, List.all_nil, inUnitInterval, Option.all_some]
    decide +kernel
  retain_sole := by
    rintro ⟨leg, hLeg, hRetain⟩
    rw [List.mem_singleton.mp hLeg] at hRetain
    exact absurd hRetain hKind
  fixed_weights := fun _ => ⟨rfl, by
    simp only [List.map_cons, List.map_nil, List.sum_cons, List.sum_nil, Option.getD_some]
    norm_num⟩
  derived_weights := fun h => absurd rfl h
  bounds_range := ⟨rfl, rfl⟩
  bounds_ordered := rfl
  score_target := fun h => by cases h
  plain_bounds := fun _ => ⟨rfl, rfl, rfl⟩

/-- One allocation in a state, and another one in every other state. -/
def GuardedAllocationStatement.inState (key expected : String)
    (held otherwise : AllocationStatement) : GuardedAllocationStatement where
  semanticId := "policy"
  primary := otherwise
  overrides := [{ semanticId := "override", priority := 1
                  when := .stateEquals "override-state" key expected, action := held }]

/-- Statements before a policy, on daily and weekly clocks of New York. -/
def SemanticProgram.temporal (initialState : Dict String String)
    (statements : List ProgramStatement) (policy : GuardedAllocationStatement) :
    SemanticProgram where
  semanticId := "program"
  clocks := [
    { id := "daily", timeframe := .daily, timezone := "America/New_York" },
    { id := "weekly", timeframe := .weekly, timezone := "America/New_York" }]
  initialState := initialState
  statements := statements ++ [.guardedAllocation policy]
  clock_ids_unique := by
    simp

end RuleTrade
