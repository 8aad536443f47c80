import RuleTrade.Authoring.References
import RuleTrade.Execution.StatementRules
import RuleTrade.Strategy.DailySoundness

/-! Which executions raise no static error. A value is sound where it stands
when every reading it makes is typed there; the validator asks less than this
of remembered values and of what composite values are made of. -/

namespace RuleTrade

open Library

/-- Errors that validation is there to exclude. -/
def ProgramError.Static : ProgramError → Prop
  | .daily e => e.Static
  | .programValueMustBeScalar | .crossSectionRequiresCandidate | .unsupportedProgramValue _
  | .unknownClock _ | .unresolvedStatementCannotExecute => True
  | _ => False

section Sound

variable (program : SemanticProgram) (bindingId : Option String)

/-- A node of scalar type that observes a candidate only when there is one. -/
def DailyValueNode.sound (inside : Bool) (node : DailyValueNode) : Bool :=
  match inferDailyType bindingId node with
  | .error _ => false
  | .ok type => type.axes = [] && (inside || !node.observesCandidate)

mutual

/-- The value evaluates without a static error, `inside` a candidate's scope or
outside of one. -/
def ValueExpression.sound : ValueExpression → Bool → Bool
  | .daily node, inside | .eventRelative _ _ node _, inside => node.sound bindingId inside
  | .clockedValue _ node clockId, inside => hasClock program clockId && node.sound bindingId inside
  | .crossSectional _ source _ _ _ _, inside => inside && source.sound true
  | .crossSectionalAggregate _ source _ _ _, _ => source.sound true
  | .score _ terms conditionTerms _, inside =>
      ScoreTerm.allSound terms inside && ConditionPointTerm.allSound conditionTerms inside
  | .candidateTrailingReturn _ _ _ _, _ | .candidateCurrentPrice _ _ _, _ => false
  | .literal _ _ _ _ _, _ | .rememberedValue _ _ _ _ _, _ | .barsSinceEvent _ _, _
  | .barsSinceState _ _, _ | .timeSinceEvent _ _, _ | .timeSinceState _ _, _ => true

def ScoreTerm.allSound : List ScoreTerm → Bool → Bool
  | [], _ => true
  | .mk _ value _ :: rest, inside => value.sound inside && ScoreTerm.allSound rest inside

def ConditionPointTerm.allSound : List ConditionPointTerm → Bool → Bool
  | [], _ => true
  | .mk _ condition _ _ _ :: rest, inside =>
      condition.sound inside && ConditionPointTerm.allSound rest inside

def Condition.sound : Condition → Bool → Bool
  | .comparison _ _ left right, inside => left.sound inside && right.sound inside
  | .booleanGroup _ _ children, inside | .nOfM _ _ children, inside =>
      Condition.allSound children inside
  | .not _ child, inside => child.sound inside
  | .stateEquals _ _ _, _ | .eventWindow _ _ _, _ => true

def Condition.allSound : List Condition → Bool → Bool
  | [], _ => true
  | child :: rest, inside => child.sound inside && Condition.allSound rest inside

end

/-- The values a statement evaluates by itself are sound where they stand. -/
def ProgramStatement.sound : ProgramStatement → Bool
  | .select s =>
      s.selection.eligibility.all (fun c => c.sound program (some s.selection.binding.id) true) &&
        s.selection.ranking.sound program (some s.selection.binding.id) true
  | .control head _ _ => head.condition.sound program none false
  | .onEvent _ event _ => event.condition.all (fun c => c.sound program none false)
  | .transition _ t => t.when.sound program none false
  | .rememberValue s => s.value.sound program none false
  | .guardedAllocation s =>
      s.guard.all (fun c => c.sound program none false) &&
        s.overrides.all (fun rule => rule.when.sound program none false)
  | .allocate _ | .unresolved _ => true

/-- Every value of the Program is sound where it stands. -/
def SemanticProgram.sound : Bool :=
  (allProgramStatements program.statements).all (fun s => s.sound program)

end Sound

section Readings

variable {program : SemanticProgram} {bindingId : Option String} {members : List String}

/-- A reading by itself is sound. -/
def Reading.sound (program : SemanticProgram) (bindingId : Option String) : Reading → Bool
  | .ofValue expression candidate => expression.sound program bindingId candidate.isSome
  | .ofCondition c => c.sound program bindingId false

mutual

/-- The atomic readings of a sound value are sound. -/
theorem ValueExpression.sound_readings (v : ValueExpression) {candidate : Option String}
    (h : v.sound program bindingId candidate.isSome = true) :
    ∀ reading ∈ v.readings members candidate, reading.sound program bindingId = true := by
  cases v with
  | crossSectional id source domain transform direction bins =>
      simp only [ValueExpression.sound, Bool.and_eq_true] at h
      cases candidate with
      | none => exact absurd h.1 (by simp)
      | some self =>
          intro reading hReading
          obtain ⟨member, -, hMem⟩ := List.mem_flatMap.mp hReading
          have hSource : source.sound program bindingId (some member).isSome = true := h.2
          exact source.sound_readings hSource reading hMem
  | crossSectionalAggregate id source domain reduction coverage =>
      simp only [ValueExpression.sound] at h
      intro reading hReading
      obtain ⟨member, -, hMem⟩ := List.mem_flatMap.mp hReading
      have hSource : source.sound program bindingId (some member).isSome = true := h
      exact source.sound_readings hSource reading hMem
  | score id terms conditionTerms policy =>
      simp only [ValueExpression.sound, Bool.and_eq_true] at h
      intro reading hReading
      rcases List.mem_append.mp hReading with hMem | hMem
      · exact ScoreTerm.sound_readings terms h.1 reading hMem
      · exact ConditionPointTerm.sound_readings conditionTerms h.2 reading hMem
  | _ =>
      intro reading hReading
      obtain rfl := List.mem_singleton.mp hReading
      exact h

theorem ScoreTerm.sound_readings (terms : List ScoreTerm) {candidate : Option String}
    (h : ScoreTerm.allSound program bindingId terms candidate.isSome = true) :
    ∀ reading ∈ ScoreTerm.allReadings members terms candidate,
      reading.sound program bindingId = true := by
  cases terms with
  | nil =>
      intro reading hReading
      cases hReading
  | cons term rest =>
      obtain ⟨id, value, weight⟩ := term
      simp only [ScoreTerm.allSound, Bool.and_eq_true] at h
      intro reading hReading
      rcases List.mem_append.mp hReading with hMem | hMem
      · exact value.sound_readings h.1 reading hMem
      · exact ScoreTerm.sound_readings rest h.2 reading hMem

theorem ConditionPointTerm.sound_readings (terms : List ConditionPointTerm)
    {candidate : Option String}
    (h : ConditionPointTerm.allSound program bindingId terms candidate.isSome = true) :
    ∀ reading ∈ ConditionPointTerm.allReadings members terms candidate,
      reading.sound program bindingId = true := by
  cases terms with
  | nil =>
      intro reading hReading
      cases hReading
  | cons term rest =>
      obtain ⟨id, condition, truePoints, falsePoints, unknownPoints⟩ := term
      simp only [ConditionPointTerm.allSound, Bool.and_eq_true] at h
      intro reading hReading
      rcases List.mem_append.mp hReading with hMem | hMem
      · exact condition.sound_readings h.1 reading hMem
      · exact ConditionPointTerm.sound_readings rest h.2 reading hMem

theorem Condition.sound_readings (c : Condition) {candidate : Option String}
    (h : c.sound program bindingId candidate.isSome = true) :
    ∀ reading ∈ c.readings members candidate, reading.sound program bindingId = true := by
  cases c with
  | comparison id operator left right =>
      simp only [Condition.sound, Bool.and_eq_true] at h
      intro reading hReading
      rcases List.mem_append.mp hReading with hMem | hMem
      · exact left.sound_readings h.1 reading hMem
      · exact right.sound_readings h.2 reading hMem
  | not id child => exact child.sound_readings h
  | booleanGroup id kind children => exact Condition.sound_allReadings children h
  | nOfM id minimumTrue children => exact Condition.sound_allReadings children h
  | stateEquals id key expected =>
      intro reading hReading
      obtain rfl := List.mem_singleton.mp hReading
      rfl
  | eventWindow id event relation =>
      intro reading hReading
      obtain rfl := List.mem_singleton.mp hReading
      rfl

theorem Condition.sound_allReadings (children : List Condition) {candidate : Option String}
    (h : Condition.allSound program bindingId children candidate.isSome = true) :
    ∀ reading ∈ Condition.allReadings members children candidate,
      reading.sound program bindingId = true := by
  cases children with
  | nil =>
      intro reading hReading
      cases hReading
  | cons child rest =>
      simp only [Condition.allSound, Bool.and_eq_true] at h
      intro reading hReading
      rcases List.mem_append.mp hReading with hMem | hMem
      · exact child.sound_readings h.1 reading hMem
      · exact Condition.sound_allReadings rest h.2 reading hMem

end

end Readings

section Evaluation

/-- Sound nodes are read without a static error. -/
def Environment.Sound (environment : Environment) : Prop :=
  ∀ (row : Nat) (node : DailyValueNode) (candidate bindingId : Option String) (e : ProgramError),
    node.sound bindingId candidate.isSome = true →
    environment.daily row node candidate bindingId = .error e → ¬e.Static

theorem DailyMarketSnapshot.environment_sound (snapshot : DailyMarketSnapshot)
    (ctx : DecimalContext) : (snapshot.environment ctx).Sound := by
  intro row node candidate bindingId e hSound hError
  unfold DailyValueNode.sound at hSound
  split at hSound
  · cases hSound
  · rename_i type hType
    simp only [Bool.and_eq_true, Bool.or_eq_true, Bool.not_eq_true', decide_eq_true_eq] at hSound
    have hOver := evaluate_over ctx (snapshot.view row) (snapshot.view_safe row) hType hSound.2
    have hReading : Yields (fun e => ¬e.Static) (fun _ => True)
        (snapshot.dailyReading ctx row node candidate bindingId) := by
      apply yields_bind.mpr
      apply yields_mapError.mpr
      refine hOver.mono (fun _ he => he) (fun result hAxes => ?_)
      rw [hAxes, hSound.1]
      simp only [ne_eq, not_true_eq_false, if_false]
      split
      · exact id
      · exact id
      · trivial
    exact yields_failure_iff.mp hReading e hError

variable {d : Decision} {r : Runtime}

abbrev AvoidsStatic {α : Type} (x : PUnit → Evaluation α) : Prop :=
  Logged.Avoids ProgramError.Static x

theorem hasClock_isSome {program : SemanticProgram} {clockId : String}
    (h : hasClock program clockId = true) :
    (program.clocks.find? (fun clock => clock.id = clockId)).isSome = true := by
  rw [List.find?_isSome]
  simpa [hasClock] using h

theorem clock_known {clockId : String} (h : hasClock d.program clockId = true) :
    ∃ clock, d.clock clockId = .ok clock := by
  obtain ⟨clock, hClock⟩ := Option.isSome_iff_exists.mp (hasClock_isSome h)
  exact ⟨clock, by simp [Decision.clock, hClock]⟩

theorem due_avoids {clockId : Option String} (h : ClockKnown d.program clockId) :
    AvoidsStatic (fun _ => (Logged.lift (d.due clockId) : Evaluation Bool)) := by
  intro e hFail
  exfalso
  cases hDue : d.due clockId with
  | ok due =>
      rw [hDue] at hFail
      cases hFail
  | error e' =>
      obtain ⟨id, rfl, -⟩ := due_error hDue
      obtain ⟨clock, hClock⟩ := clock_known (h id rfl)
      rw [Decision.due, Decision.clockDueAt, hClock] at hDue
      cases hDue

theorem members_avoids (universeId : String) :
    AvoidsStatic (fun _ => (Logged.lift (d.members universeId) : Evaluation (List String))) := by
  intro e hFail
  cases hMembers : d.members universeId with
  | ok members =>
      rw [hMembers] at hFail
      cases hFail
  | error e' =>
      rw [hMembers] at hFail
      cases hFail
      rw [members_error hMembers]
      exact id

theorem daily_avoids (hEnvironment : d.environment.Sound) {node : DailyValueNode}
    {candidate bindingId : Option String} (h : node.sound bindingId candidate.isSome = true)
    (index : Int) : AvoidsStatic (fun _ => d.daily node candidate bindingId index) := by
  intro e hFail
  unfold Decision.daily at hFail
  split_ifs at hFail
  rcases Logged.bind_eq_failure.mp hFail with hRead | ⟨_, _, -, hRecord⟩
  · cases hCase : d.environment.daily index.toNat node candidate bindingId with
    | ok reading =>
        rw [hCase] at hRead
        cases hRead
    | error e' =>
        rw [hCase] at hRead
        cases hRead
        exact hEnvironment _ _ _ _ _ h hCase
  · cases hRecord

theorem recorded_avoids (observation : ProgramValueObservation) :
    AvoidsStatic (fun _ => recorded observation) :=
  recorded_holds (Logged.avoids_sequential ProgramError.Static) observation

theorem daysSinceAnchor_avoids (anchor : Option Int) :
    AvoidsStatic (fun _ => (Logged.lift (daysSinceAnchor d anchor) : Evaluation (Option ℚ))) := by
  intro e hFail
  unfold daysSinceAnchor at hFail
  split at hFail
  · cases hFail
  · split at hFail
    · cases hFail
      exact id
    · cases hFail

/-- A sound reading by itself raises no static error. -/
theorem reading_avoids (hEnvironment : d.environment.Sound) {bindingId : Option String}
    {members : List String} {reading : Reading} (hAtomic : reading.Atomic)
    (h : reading.sound d.program bindingId = true) :
    reading.Has (fun {α : Type} (x : PUnit → Evaluation α) => AvoidsStatic x)
      (answerWorlds d r (fun _ => d.environment.daily)) bindingId members := by
  have hP := Logged.avoids_sequential (ω := ProgramValueObservation) ProgramError.Static
  cases reading with
  | ofCondition c =>
      cases c with
      | stateEquals id key expected => exact hP.success _ _
      | eventWindow id event relation => exact hP.success _ _
      | _ => exact absurd hAtomic id
  | ofValue expression candidate =>
      cases expression with
      | daily node => exact daily_avoids hEnvironment h _
      | eventRelative id event source offset =>
          show AvoidsStatic (fun _ => value d r bindingId members _ candidate)
          simp only [value]
          split
          · exact hP.success _ _
          · exact hP.bind (daily_avoids hEnvironment h _) (fun o => recorded_avoids _)
      | clockedValue id source clockId =>
          simp only [Reading.sound, ValueExpression.sound, Bool.and_eq_true] at h
          obtain ⟨clock, hClock⟩ := clock_known h.1
          show AvoidsStatic (fun _ => value d r bindingId members _ candidate)
          simp only [value, Decision.lastCompletedClockCutoff, hClock]
          refine hP.bind (hP.success (d.completedRow clock) []) (fun boundary => ?_)
          cases boundary with
          | none => exact recorded_avoids _
          | some row => exact hP.bind (daily_avoids hEnvironment h.2 _) (fun o => recorded_avoids _)
      | rememberedValue id memory quantity unit refinement => exact recorded_avoids _
      | barsSinceEvent id event => exact recorded_avoids _
      | barsSinceState id key => exact recorded_avoids _
      | timeSinceEvent id event =>
          exact hP.bind (daysSinceAnchor_avoids _) (fun days => recorded_avoids _)
      | timeSinceState id key =>
          exact hP.bind (daysSinceAnchor_avoids _) (fun days => recorded_avoids _)
      | crossSectional id source domain transform direction bins =>
          obtain rfl : candidate = none := hAtomic
          simp [Reading.sound, ValueExpression.sound] at h
      | crossSectionalAggregate => exact absurd hAtomic id
      | score => exact absurd hAtomic id
      | literal id number quantity unit refinement => exact hP.success _ _
      | candidateTrailingReturn => cases h
      | candidateCurrentPrice => cases h

/-- All readings of a sound value or condition are read safely. -/
theorem allRead_of_sound (hEnvironment : d.environment.Sound) {bindingId : Option String}
    {members : List String} {readings : List Reading}
    (h : ∀ reading ∈ readings, reading.sound d.program bindingId = true) :
    AllRead (fun {α : Type} (x : PUnit → Evaluation α) => AvoidsStatic x) d r
      (fun _ => d.environment.daily) bindingId members readings :=
  fun reading hReading hAtomic => reading_avoids hEnvironment hAtomic (h reading hReading)

theorem predicate_avoids (hEnvironment : d.environment.Sound) {c : Condition}
    (h : c.sound d.program none false = true) : AvoidsStatic (fun _ => predicate d r c) := by
  have hRead : AllRead (fun {α : Type} (x : PUnit → Evaluation α) => AvoidsStatic x) d r
      (fun _ => d.environment.daily) none [] (c.readings [] none) :=
    allRead_of_sound hEnvironment (c.sound_readings h)
  exact predicate_holds (Logged.avoids_sequential ProgramError.Static) hRead

end Evaluation

section Entries

variable {d : Decision} {r : Runtime} {available : List String}

theorem lift_avoids {α : Type} {x : Except ProgramError α}
    (h : ∀ e, x = .error e → ¬e.Static) :
    AvoidsStatic (fun _ => (Logged.lift x : Evaluation α)) := by
  intro e hFail
  cases x with
  | ok a => cases hFail
  | error e' =>
      obtain rfl : e' = e := Logged.failure.inj hFail
      exact h e' rfl

theorem ProgramError.OfAllocation.not_static {e : ProgramError} (h : e.OfAllocation) :
    ¬e.Static := by
  cases e <;> first | exact id | exact absurd h id

theorem ProgramError.OfCheckpoint.not_static {e : ProgramError} (h : e.OfCheckpoint) :
    ¬e.Static := by
  cases e <;> first | exact id | exact absurd h id

/-- An allocation whose clock is known raises no static error. -/
theorem allocation_avoids {a : AllocationStatement} {outcome : String}
    (h : ClockKnown d.program a.clockId) :
    AvoidsStatic (fun _ => (Logged.lift (allocation d r a outcome) : Evaluation Runtime)) := by
  apply lift_avoids
  intro e hError
  rcases allocation_error hError with hDue | hOwn
  · apply due_avoids h e
    rw [hDue]
    rfl
  · exact hOwn.not_static

theorem selection_avoids (hEnvironment : d.environment.Sound) {s : SelectionStatement}
    (h : (ProgramStatement.select s).sound d.program = true)
    (hAdmitted : SelectionAdmitted d.program s) : AvoidsStatic (fun _ => selection d r s) := by
  simp only [ProgramStatement.sound, Bool.and_eq_true, Option.all_eq_true] at h
  have hRead (members : List String) (member : String) :
      AllRead (fun {α : Type} (x : PUnit → Evaluation α) => AvoidsStatic x) d r
        (fun _ => d.environment.daily) (some s.selection.binding.id) members
        (s.selection.readings members member) := by
    apply allRead_of_sound hEnvironment
    intro reading hReading
    rcases List.mem_append.mp hReading with hMem | hMem
    · cases hEligibility : s.selection.eligibility with
      | none =>
          rw [hEligibility] at hMem
          cases hMem
      | some c =>
          rw [hEligibility] at hMem
          exact c.sound_readings (h.1 c hEligibility) reading hMem
    · exact s.selection.ranking.sound_readings h.2 reading hMem
  exact selection_holds (Logged.avoids_sequential ProgramError.Static)
    (due_avoids hAdmitted.clock) (members_avoids s.selection.universeId) hRead

theorem previousTruth_avoids (hEnvironment : d.environment.Sound) {event : EventDefinition}
    (h : event.condition.all (fun c => c.sound d.program none false) = true) :
    AvoidsStatic (fun _ => (Logged.lift (previousTruth d r event) : Evaluation Truth)) := by
  apply lift_avoids
  intro e hError
  unfold previousTruth at hError
  split at hError
  · cases hError
  · cases hError
  · rename_i c hTrigger hNone
    split_ifs at hError
    have hSound : c.sound d.program none false = true := by
      simpa [EventDefinition.condition, hTrigger] using h
    have hPrior : d.prior.environment.Sound := hEnvironment
    exact predicate_avoids (r := r.prior d) hPrior hSound e (Logged.result_eq_error.mp hError)

theorem event_avoids (hEnvironment : d.environment.Sound) (semanticId : String)
    {event : EventDefinition}
    (h : event.condition.all (fun c => c.sound d.program none false) = true)
    (hClock : ClockKnown d.program (some event.clockId)) :
    AvoidsStatic (fun _ => enterEvent d r semanticId event) := by
  have hP := Logged.avoids_sequential (ω := ProgramValueObservation) ProgramError.Static
  refine hP.bind (due_avoids hClock) (fun due => ?_)
  split_ifs
  · refine hP.bind ?_ (fun current => hP.bind (previousTruth_avoids hEnvironment h)
      (fun previous => hP.success _ []))
    unfold currentTruth
    split
    · exact hP.success _ []
    · rename_i c hTrigger
      have hSound : c.sound d.program none false = true := by
        simpa [EventDefinition.condition, hTrigger] using h
      exact predicate_avoids hEnvironment hSound
  · exact hP.success _ []

theorem guarded_avoids (hEnvironment : d.environment.Sound) {s : GuardedAllocationStatement}
    (h : (ProgramStatement.guardedAllocation s).sound d.program = true)
    (hAdmitted : PolicyAdmitted d.program available s) :
    AvoidsStatic (fun _ => enterGuarded d r s) := by
  simp only [ProgramStatement.sound, Bool.and_eq_true, Option.all_eq_true, List.all_eq_true] at h
  have hRead {c : Condition} (hSound : c.sound d.program none false = true) :
      AllRead (fun {α : Type} (x : PUnit → Evaluation α) => AvoidsStatic x) d r
        (fun _ => d.environment.daily) none [] (c.readings [] none) :=
    allRead_of_sound hEnvironment (c.sound_readings hSound)
  have hP := Logged.avoids_sequential (ω := ProgramValueObservation) ProgramError.Static
  intro e hFail
  unfold enterGuarded at hFail
  rcases Logged.bind_eq_failure.mp hFail with hGuard | ⟨guard, -, -, hFail⟩
  · unfold guardTruth at hGuard
    cases hCondition : s.guard with
    | none =>
        rw [hCondition] at hGuard
        cases hGuard
    | some c =>
        rw [hCondition] at hGuard
        exact predicate_avoids hEnvironment (h.1 c hCondition) e hGuard
  by_cases hBlocks : s.blocks guard = true
  · rw [if_pos hBlocks] at hFail
    cases hFail
  rw [if_neg hBlocks] at hFail
  rcases Logged.bind_eq_failure.mp hFail with hOverride | ⟨override, log, hOverride, hFail⟩
  · have hRanked : ∀ rule ∈ s.ranked, rule.when.sound d.program none false = true :=
      fun rule hRule => h.2 rule (Sequence.mem_sortByDescending.mp hRule)
    exact firstOverride_holds hP (fun rule hRule => hRead (hRanked rule hRule)) e hOverride
  · have hMem : ∀ rule ∈ override, rule ∈ s.overrides := by
      rintro rule rfl
      have hResult := Logged.result_eq_ok.mpr ⟨log, hOverride⟩
      exact Sequence.mem_sortByDescending.mp (mem_of_firstOverride hResult)
    cases hChoice : s.choice override (allocationResolvable r s.primary) with
    | none =>
        rw [hChoice] at hFail
        cases hFail
    | some choice =>
        rw [hChoice] at hFail
        have hClock := (hAdmitted.actions _ (choice_mem_actions hMem hChoice)).clock
        apply lift_avoids ?_ e hFail
        intro e' hError
        rcases except_bind_error.mp hError with hError | ⟨_, -, hNote⟩
        · rcases allocation_error hError with hDue | hOwn
          · exact due_avoids hClock e' (congrArg Logged.lift hDue)
          · exact hOwn.not_static
        · cases hNote

/-- A sound statement that passed its checks raises no static error on entry. -/
theorem enter_avoids (hEnvironment : d.environment.Sound) {s : ProgramStatement}
    (h : s.sound d.program = true) (hAdmitted : s.Admitted d.program available) :
    AvoidsStatic (fun _ => enter d r s) := by
  have hP := Logged.avoids_sequential (ω := ProgramValueObservation) ProgramError.Static
  cases s with
  | select s => exact hP.bind (selection_avoids hEnvironment h hAdmitted) (fun _ => hP.success _ [])
  | allocate a => exact hP.bind (allocation_avoids hAdmitted.clock) (fun _ => hP.success _ [])
  | control head thenStatements otherwiseStatements =>
      have hRead : AllRead (fun {α : Type} (x : PUnit → Evaluation α) => AvoidsStatic x) d r
          (fun _ => d.environment.daily) none [] (head.condition.readings [] none) :=
        allRead_of_sound hEnvironment (head.condition.sound_readings h)
      exact hP.bind (control_holds hP (due_avoids hAdmitted.1) hRead) (fun _ => hP.success _ [])
  | onEvent semanticId event body =>
      exact hP.bind (event_avoids hEnvironment semanticId h hAdmitted.1) (fun _ => hP.success _ [])
  | transition semanticId t =>
      have hRead : AllRead (fun {α : Type} (x : PUnit → Evaluation α) => AvoidsStatic x) d r
          (fun _ => d.environment.daily) none [] (t.when.readings [] none) :=
        allRead_of_sound hEnvironment (t.when.sound_readings h)
      exact hP.bind (transition_holds hP (due_avoids hAdmitted.1) hRead) (fun _ => hP.success _ [])
  | rememberValue s =>
      have hRead : AllRead (fun {α : Type} (x : PUnit → Evaluation α) => AvoidsStatic x) d r
          (fun _ => d.environment.daily) none [] (s.value.readings [] none) :=
        allRead_of_sound hEnvironment (s.value.sound_readings h)
      exact hP.bind (remember_holds hP (due_avoids hAdmitted) hRead) (fun _ => hP.success _ [])
  | guardedAllocation s =>
      exact hP.bind (guarded_avoids hEnvironment h hAdmitted) (fun _ => hP.success _ [])
  | unresolved s => exact absurd hAdmitted id

end Entries

section Runs

variable {program : SemanticProgram} {environment : Environment} {cutoffIndex : Option Int}
  {revisionId : Option String} {ck : Checkpoint}

/-- No execution of an accepted Program raises a static error when every value of
the Program is sound where it stands. -/
theorem accepted_execution_sound (ctx : DecimalContext) (snapshot : DailyMarketSnapshot)
    (hAccepted : Accepted program) (hSound : program.sound = true) :
    ∀ e, executeProgramV2 ctx program snapshot cutoffIndex revisionId ck = .error e →
      ¬e.Static := by
  intro e h
  unfold executeProgramV2 executeIn at h
  have hIssues : validateProgramV2 program = [] := hAccepted
  simp only [hIssues, ne_eq, not_true_eq_false, if_false] at h
  split at h
  case isFalse =>
    cases h
    exact id
  case isTrue hRange =>
    split at h
    · rename_i hCheck
      cases h
      exact (checkCheckpoint_error hCheck).not_static
    · unfold Decision.run at h
      split at h
      · rename_i hFail
        cases h
        obtain ⟨r, s, hVisit, hEnter⟩ :=
          (interprets _).error_iff.mp (Logged.result_eq_error.mpr hFail)
        obtain ⟨available, hAdmitted⟩ := visits_admitted hAccepted hVisit
        exact enter_avoids (snapshot.environment_sound ctx)
          (List.all_eq_true.mp hSound s (visits_mem hVisit)) hAdmitted e
          (Logged.result_eq_error.mp hEnter)
      · cases h

end Runs

/-- Remember a close, then compare it with a constant. -/
def rememberClose : SemanticProgram :=
  .daily [
    .rememberValue {
      semanticId := "remember", memoryId := "memory", value := .daily (closeOf "A") },
    .control { semanticId := "control", condition := above (.daily (closeOf "A")) 10 } intoCash []]

/-- On a snapshot without the asset the execution fails for want of its closes. -/
theorem rememberClose_sound :
    executeProgramV2 (.exact id) rememberClose (.single "B" (⟨2024, 1, 8⟩, some 10) []) =
        .error (.daily (.providerFieldMissing "A" .close .adjusted)) ∧
      ¬ProgramError.Static (.daily (.providerFieldMissing "A" .close .adjusted)) := by
  have hFails : executeProgramV2 (.exact id) rememberClose
      (.single "B" (⟨2024, 1, 8⟩, some 10) []) =
        .error (.daily (.providerFieldMissing "A" .close .adjusted)) := rfl
  exact ⟨hFails, accepted_execution_sound (.exact id) _ (by decide +kernel) (by decide +kernel) _
    hFails⟩

def candidateClose : DailyValueNode :=
  .observe { semanticId := "close", subjectKind := some .candidate, bindingId := some "candidate" }
    .close .adjusted

/-- Remember the close of a candidate, outside of every Selection. -/
def rememberCandidate : SemanticProgram :=
  .daily [.rememberValue {
    semanticId := "remember", memoryId := "memory", value := .daily candidateClose }]

theorem rememberCandidate_unbound : Accepted rememberCandidate ∧
    executeProgramV2 (.exact id) rememberCandidate (.single "A" (⟨2024, 1, 8⟩, some 10) []) =
      .error (.daily (.semantic .unboundCandidate)) ∧
    ProgramError.Static (.daily (.semantic .unboundCandidate)) :=
  ⟨by decide +kernel, rfl, trivial⟩

end RuleTrade
