import RuleTrade.Strategy.Fragments
import RuleTrade.Execution.Run
import RuleTrade.Strategy.Acceptance

/-! Checkpoint closure: the maps of a decision stay inside the Program's
addresses and on rows up to the cutoff, so the checkpoint of a result passes
every check of any later execution. -/

namespace RuleTrade

open Library

section Checks

/-- A checkpoint the boundary lets through at a cutoff. -/
structure CheckpointFits (program : SemanticProgram) (cutoff : Nat) (ck : Checkpoint) : Prop where
  shape : ∀ state ∈ ck.priorState, sameKeys state program.initialState = true
  cutoffs : ck.eventCutoffs.keys ⊆ ProgramStatement.allEventAddresses program.statements
  counts : ck.eventCounts.keys ⊆ ProgramStatement.allEventAddresses program.statements
  truths : ck.priorEventTruths.keys ⊆ ProgramStatement.allEventAddresses program.statements
  entries : ck.stateEnteredCutoffs.keys ⊆ program.initialState.keys
  memories : ck.rememberedValues.keys ⊆ ProgramStatement.allMemoryAddresses program.statements
  anchors : ∀ anchor ∈ ck.eventCutoffs.values, 0 ≤ anchor ∧ anchor ≤ cutoff
  entered : ∀ anchor ∈ ck.stateEnteredCutoffs.values, 0 ≤ anchor ∧ anchor ≤ cutoff
  nonnegative : ∀ count ∈ ck.eventCounts.values, 0 ≤ count
  valid : ∀ truth ∈ ck.priorEventTruths.values, (Truth.ofText? truth).isSome = true

theorem require_ok_iff {holds : Bool} {e : ProgramError} : require holds e = .ok () ↔ holds = true := by
  cases holds <;> simp [require]

theorem requireAddresses_ok_iff {name : String} {keys allowed : List String} :
    requireAddresses name keys allowed = .ok () ↔ keys ⊆ allowed := by
  simp only [requireAddresses]
  constructor
  · intro h key hKey
    split at h
    · rename_i hNone
      by_contra hNot
      have hMem : key ∈ Sequence.sortBy id (keys.filter (fun key => key ∉ allowed)) :=
        Sequence.mem_sortBy.mpr (List.mem_filter.mpr ⟨hKey, by simpa using hNot⟩)
      rw [hNone] at hMem
      cases hMem
    · cases h
  · intro h
    rw [if_pos]
    rw [List.eq_nil_iff_forall_not_mem]
    intro key hKey
    obtain ⟨hMem, hNot⟩ := List.mem_filter.mp (Sequence.mem_sortBy.mp hKey)
    simp only [decide_not, Bool.not_eq_true', decide_eq_false_iff_not] at hNot
    exact hNot (h hMem)

theorem unit_bind_ok_iff {x y : Except ProgramError PUnit} :
    (x >>= fun _ => y) = .ok () ↔ x = .ok () ∧ y = .ok () := by
  cases x <;> simp [Bind.bind, Except.bind]

theorem anchored_iff {cutoff : Nat} {anchor : Int} :
    anchored cutoff anchor = true ↔ 0 ≤ anchor ∧ anchor ≤ cutoff := by
  simp [anchored]

/-- The checks of the boundary say exactly that the checkpoint fits. -/
theorem checkCheckpoint_ok_iff {program : SemanticProgram} {cutoff : Nat} {ck : Checkpoint} :
    checkCheckpoint program cutoff ck = .ok () ↔ CheckpointFits program cutoff ck := by
  simp only [checkCheckpoint, unit_bind_ok_iff, require_ok_iff, requireAddresses_ok_iff,
    List.all_eq_true, anchored_iff, decide_eq_true_eq, Option.all_eq_true]
  constructor
  · rintro ⟨h1, h2, h3, h4, h5, h6, h7, h8, h9, h10⟩
    exact ⟨h1, h2, h3, h4, h5, h6, h7, h8, h9, h10⟩
  · rintro ⟨h1, h2, h3, h4, h5, h6, h7, h8, h9, h10⟩
    exact ⟨h1, h2, h3, h4, h5, h6, h7, h8, h9, h10⟩

end Checks

section Invariant

mutual

/-- State keys that transitions under a statement may write. -/
def ProgramStatement.transitionKeys : ProgramStatement → List String
  | .transition _ t => [t.stateKey]
  | .control _ thenBody otherwiseBody =>
      ProgramStatement.allTransitionKeys thenBody ++
        ProgramStatement.allTransitionKeys otherwiseBody
  | .onEvent _ _ body => ProgramStatement.allTransitionKeys body
  | _ => []

def ProgramStatement.allTransitionKeys : List ProgramStatement → List String
  | [] => []
  | s :: rest => s.transitionKeys ++ ProgramStatement.allTransitionKeys rest

end

mutual

/-- An admitted statement transitions declared state only. -/
theorem ProgramStatement.Admitted.transitionKeys {program : SemanticProgram}
    (s : ProgramStatement) {available : List String} (h : s.Admitted program available) :
    s.transitionKeys ⊆ program.initialState.keys := by
  cases s with
  | transition id t =>
      intro key hKey
      obtain rfl := List.mem_singleton.mp hKey
      exact Dict.mem_keys_of_contains h.2.2
  | control head thenBody otherwiseBody =>
      obtain ⟨-, -, hThen, hOtherwise⟩ := h
      exact List.append_subset.mpr
        ⟨ProgramStatement.AllAdmitted.transitionKeys thenBody hThen,
          ProgramStatement.AllAdmitted.transitionKeys otherwiseBody hOtherwise⟩
  | onEvent id event body => exact ProgramStatement.AllAdmitted.transitionKeys body h.2.2
  | _ => exact List.nil_subset _

theorem ProgramStatement.AllAdmitted.transitionKeys {program : SemanticProgram}
    (statements : List ProgramStatement) {available : List String}
    (h : ProgramStatement.AllAdmitted program available statements) :
    ProgramStatement.allTransitionKeys statements ⊆ program.initialState.keys := by
  cases statements with
  | nil => exact List.nil_subset _
  | cons s rest =>
      exact List.append_subset.mpr
        ⟨ProgramStatement.Admitted.transitionKeys s h.1,
          ProgramStatement.AllAdmitted.transitionKeys rest h.2⟩

end

/-- Everything a statement may write to the checkpoint is declared. -/
structure Declared (program : SemanticProgram) (s : ProgramStatement) : Prop where
  events : s.eventAddresses ⊆ ProgramStatement.allEventAddresses program.statements
  memories : s.memoryAddresses ⊆ ProgramStatement.allMemoryAddresses program.statements
  states : s.transitionKeys ⊆ program.initialState.keys

theorem Declared.of_mem {program : SemanticProgram} {s : ProgramStatement}
    {statements : List ProgramStatement}
    (hEvents : ProgramStatement.allEventAddresses statements ⊆
      ProgramStatement.allEventAddresses program.statements)
    (hMemories : ProgramStatement.allMemoryAddresses statements ⊆
      ProgramStatement.allMemoryAddresses program.statements)
    (hStates : ProgramStatement.allTransitionKeys statements ⊆ program.initialState.keys)
    (hs : s ∈ statements) : Declared program s := by
  induction statements with
  | nil => cases hs
  | cons first rest ih =>
      obtain ⟨hEvent, hEvents⟩ := List.append_subset.mp hEvents
      obtain ⟨hMemory, hMemories⟩ := List.append_subset.mp hMemories
      obtain ⟨hState, hStates⟩ := List.append_subset.mp hStates
      rcases List.mem_cons.mp hs with rfl | hs
      · exact ⟨hEvent, hMemory, hState⟩
      · exact ih hEvents hMemories hStates hs

theorem Declared.body {program : SemanticProgram} {s y : ProgramStatement}
    {body : List ProgramStatement} (h : Declared program s) (hBody : body ∈ s.bodies)
    (hy : y ∈ body) : Declared program y := by
  cases s with
  | control head thenBody otherwiseBody =>
      obtain ⟨hThenE, hOtherwiseE⟩ := List.append_subset.mp h.events
      obtain ⟨hThenM, hOtherwiseM⟩ := List.append_subset.mp h.memories
      obtain ⟨hThenS, hOtherwiseS⟩ := List.append_subset.mp h.states
      simp only [ProgramStatement.bodies, List.mem_cons, List.not_mem_nil, or_false] at hBody
      rcases hBody with rfl | rfl
      · exact .of_mem hThenE hThenM hThenS hy
      · exact .of_mem hOtherwiseE hOtherwiseM hOtherwiseS hy
  | onEvent id event statements =>
      obtain rfl := List.mem_singleton.mp hBody
      exact .of_mem (List.cons_subset.mp h.events).2 h.memories h.states hy
  | _ => cases hBody

/-- The maps of a decision stay within the Program and its rows. -/
structure Closed (program : SemanticProgram) (cutoff : Nat) (r : Runtime) : Prop where
  state : ∀ key, key ∈ r.state.keys ↔ key ∈ program.initialState.keys
  cutoffs : r.eventCutoffs.keys ⊆ ProgramStatement.allEventAddresses program.statements
  counts : r.eventCounts.keys ⊆ ProgramStatement.allEventAddresses program.statements
  truths : r.eventTruths.keys ⊆ ProgramStatement.allEventAddresses program.statements
  entries : r.stateEnteredCutoffs.keys ⊆ program.initialState.keys
  memories : r.rememberedValues.keys ⊆ ProgramStatement.allMemoryAddresses program.statements
  anchors : ∀ anchor ∈ r.eventCutoffs.values, 0 ≤ anchor ∧ anchor ≤ cutoff
  entered : ∀ anchor ∈ r.stateEnteredCutoffs.values, 0 ≤ anchor ∧ anchor ≤ cutoff
  nonnegative : ∀ count ∈ r.eventCounts.values, 0 ≤ count

theorem Closed.of_sameMaps {program : SemanticProgram} {cutoff : Nat} {r r' : Runtime}
    (h : Closed program cutoff r) (hMaps : SameMaps r r') : Closed program cutoff r' where
  state := by rw [hMaps.state]; exact h.state
  cutoffs := by rw [hMaps.eventCutoffs]; exact h.cutoffs
  counts := by rw [hMaps.eventCounts]; exact h.counts
  truths := by rw [hMaps.eventTruths]; exact h.truths
  entries := by rw [hMaps.stateEnteredCutoffs]; exact h.entries
  memories := by rw [hMaps.rememberedValues]; exact h.memories
  anchors := by rw [hMaps.eventCutoffs]; exact h.anchors
  entered := by rw [hMaps.stateEnteredCutoffs]; exact h.entered
  nonnegative := by rw [hMaps.eventCounts]; exact h.nonnegative

/-- A count that was not negative before an evaluation is not negative after. -/
theorem count_nonneg {r : Runtime} {event : EventDefinition}
    (h : ∀ count ∈ r.eventCounts.values, 0 ≤ count) : 0 ≤ event.count r := by
  unfold EventDefinition.count Dict.getD
  cases hGet : r.eventCounts.get? event.semanticId with
  | none => simp
  | some count => exact h count (List.mem_map.mpr ⟨_, Dict.mem_of_get? hGet, rfl⟩)

theorem Closed.recordEvent {d : Decision} {r : Runtime} {semanticId : String}
    {event : EventDefinition} {previous current : Truth} (h : Closed d.program d.cutoff r)
    (hEvent : event.semanticId ∈ ProgramStatement.allEventAddresses d.program.statements) :
    Closed d.program d.cutoff (recordEvent d r semanticId event previous current) where
  state := h.state
  cutoffs := by
    change (event.anchored d r previous current).keys ⊆ _
    unfold EventDefinition.anchored
    split_ifs
    · exact Dict.keys_set_subset h.cutoffs hEvent
    · exact h.cutoffs
  counts := by
    change (event.counted r previous current).keys ⊆ _
    unfold EventDefinition.counted
    split_ifs
    · exact Dict.keys_set_subset h.counts hEvent
    · exact h.counts
  truths := Dict.keys_set_subset h.truths hEvent
  entries := h.entries
  memories := h.memories
  anchors := by
    change ∀ anchor ∈ (event.anchored d r previous current).values, _
    unfold EventDefinition.anchored
    split_ifs
    · intro anchor hAnchor
      rcases Dict.mem_values_set hAnchor with rfl | hAnchor
      · exact ⟨Int.natCast_nonneg _, le_rfl⟩
      · exact h.anchors anchor hAnchor
    · exact h.anchors
  entered := h.entered
  nonnegative := by
    change ∀ count ∈ (event.counted r previous current).values, _
    unfold EventDefinition.counted
    split_ifs
    · intro count hCount
      rcases Dict.mem_values_set hCount with rfl | hCount
      · have hCount : 0 ≤ event.count r := count_nonneg h.nonnegative
        omega
      · exact h.nonnegative count hCount
    · exact h.nonnegative

theorem Closed.recordTransition {d : Decision} {r : Runtime} {semanticId : String}
    {t : StateTransition} {outcome : Truth} (h : Closed d.program d.cutoff r)
    (hKey : t.stateKey ∈ d.program.initialState.keys) :
    Closed d.program d.cutoff (recordTransition d r semanticId t outcome) where
  state := by
    intro key
    change key ∈ (t.moved r outcome).keys ↔ _
    unfold StateTransition.moved
    split_ifs
    · rw [Dict.mem_keys_set, h.state]
      exact ⟨fun hk => hk.elim (fun hEq => hEq ▸ hKey) id, Or.inr⟩
    · exact h.state key
  cutoffs := h.cutoffs
  counts := h.counts
  truths := h.truths
  entries := by
    change (t.entered d r outcome).keys ⊆ _
    unfold StateTransition.entered
    split_ifs
    · exact Dict.keys_set_subset h.entries hKey
    · exact h.entries
  memories := h.memories
  anchors := h.anchors
  entered := by
    change ∀ anchor ∈ (t.entered d r outcome).values, _
    unfold StateTransition.entered
    split_ifs
    · intro anchor hAnchor
      rcases Dict.mem_values_set hAnchor with rfl | hAnchor
      · exact ⟨Int.natCast_nonneg _, le_rfl⟩
      · exact h.entered anchor hAnchor
    · exact h.entered
  nonnegative := h.nonnegative

theorem Closed.recordMemory {program : SemanticProgram} {cutoff : Nat} {r : Runtime}
    {s : RememberValueStatement} {observed : ProgramValueObservation}
    (h : Closed program cutoff r)
    (hMemory : s.memoryId ∈ ProgramStatement.allMemoryAddresses program.statements) :
    Closed program cutoff (recordMemory r s observed) where
  state := h.state
  cutoffs := h.cutoffs
  counts := h.counts
  truths := h.truths
  entries := h.entries
  memories := by
    change (s.stored r observed.value).keys ⊆ _
    cases observed.value with
    | none => exact h.memories
    | some number => exact Dict.keys_set_subset h.memories hMemory
  anchors := h.anchors
  entered := h.entered
  nonnegative := h.nonnegative

/-- Step lemma: a declared statement keeps the maps closed. -/
theorem Closed.step {d : Decision} {r r' : Runtime} {s : ProgramStatement}
    {body : List ProgramStatement} (hEnter : enterState d r s = .ok (r', body))
    (hDeclared : Declared d.program s) (h : Closed d.program d.cutoff r) :
    Closed d.program d.cutoff r' := by
  cases effect_of_enter hEnter with
  | notDue => exact h
  | selectionNotDue => exact ⟨h.1, h.2, h.3, h.4, h.5, h.6, h.7, h.8, h.9⟩
  | selected => exact ⟨h.1, h.2, h.3, h.4, h.5, h.6, h.7, h.8, h.9⟩
  | allocated effect => exact h.of_sameMaps effect.sameMaps
  | guarded effect => exact h.of_sameMaps effect.sameMaps
  | controlled => exact ⟨h.1, h.2, h.3, h.4, h.5, h.6, h.7, h.8, h.9⟩
  | evented => exact h.recordEvent (hDeclared.events List.mem_cons_self)
  | transitioned => exact h.recordTransition (hDeclared.states List.mem_cons_self)
  | remembered => exact h.recordMemory (hDeclared.memories List.mem_cons_self)

end Invariant

section Closure

theorem sameKeys_iff {α β : Type} {d : Dict String α} {e : Dict String β} :
    sameKeys d e = true ↔ ∀ key, key ∈ d.keys ↔ key ∈ e.keys := by
  simp only [sameKeys, Bool.and_eq_true, List.all_eq_true, decide_eq_true_eq]
  exact ⟨fun h key => ⟨h.1 key, h.2 key⟩, fun h => ⟨fun key => (h key).1, fun key => (h key).2⟩⟩

variable {program : SemanticProgram} {cutoff : Nat}

/-- A fitting checkpoint starts a decision with closed maps. -/
theorem CheckpointFits.closed {ck : Checkpoint} (h : CheckpointFits program cutoff ck) :
    Closed program cutoff (ck.runtime program) where
  state := by
    intro key
    change key ∈ (ck.state program).keys ↔ _
    unfold Checkpoint.state
    cases hState : ck.priorState with
    | none => rfl
    | some state => exact sameKeys_iff.mp (h.shape state hState) key
  cutoffs := h.cutoffs
  counts := h.counts
  truths := List.nil_subset _
  entries := h.entries
  memories := h.memories
  anchors := h.anchors
  entered := h.entered
  nonnegative := h.nonnegative

/-- The checkpoint of closed maps fits at every later row. -/
theorem Closed.fits {d : Decision} {r : Runtime} {revisionId : Option String}
    {observations : List ProgramValueObservation} (h : Closed program cutoff r) {later : Nat}
    (hLater : cutoff ≤ later) :
    CheckpointFits program later (d.report revisionId r observations).checkpoint where
  shape := by
    intro state hState
    cases hState
    exact sameKeys_iff.mpr h.state
  cutoffs := h.cutoffs
  counts := h.counts
  truths := by
    change (r.eventTruths.mapValues Truth.text).keys ⊆ _
    rw [Dict.keys_mapValues]
    exact h.truths
  entries := h.entries
  memories := h.memories
  anchors := fun anchor hAnchor => by
    have := h.anchors anchor hAnchor
    omega
  entered := fun anchor hAnchor => by
    have := h.entered anchor hAnchor
    omega
  nonnegative := h.nonnegative
  valid := by
    intro truth hTruth
    obtain ⟨⟨key, text⟩, hMem, rfl⟩ := List.mem_map.mp hTruth
    obtain ⟨⟨key', t⟩, -, hPair⟩ := List.mem_map.mp hMem
    cases hPair
    simp

/-- Run lemma: a decision of an accepted Program ends with closed maps. -/
theorem Closed.traced {d : Decision} {start final : Runtime}
    {trace : List (Runtime × ProgramStatement)} (hAccepted : Accepted d.program)
    (hTrace : d.Traced start trace final) (hStart : Closed d.program d.cutoff start) :
    Closed d.program d.cutoff final := by
  have hBody (r : Runtime) (s : ProgramStatement) (r' : Runtime) (body : List ProgramStatement)
      (hEnter : enterState d r s = .ok (r', body)) (hDeclared : Declared d.program s) :
      ∀ y ∈ body, Declared d.program y := by
    intro y hy
    rcases body_of_enter hEnter with rfl | hBody
    · cases hy
    · exact hDeclared.body hBody hy
  refine (Agenda.Steps.invariant_of_commands hBody
    (fun _ _ _ _ hEnter hDeclared h => h.step hEnter hDeclared) hTrace ?_ hStart).1
  exact fun s hs => .of_mem (List.Subset.refl _) (List.Subset.refl _)
      (ProgramStatement.AllAdmitted.transitionKeys _ hAccepted.admitted) hs

/-- The checkpoint of a returned execution fits at its row and at every later one. -/
theorem executed_fits {environment : Environment} {cutoffIndex : Option Int}
    {revisionId : Option String} {ck : Checkpoint} {result : ProgramExecutionResult}
    (h : executeIn environment program cutoffIndex revisionId ck = .ok result) {later : Nat}
    (hLater : cutoffRow environment cutoffIndex ≤ later) :
    CheckpointFits program later result.checkpoint := by
  obtain ⟨hAccepted, cutoff, inRange, hRow, hCheck, trace, final, observations, hTrace, rfl⟩ :=
    executeIn_ok h
  have hStart := (checkCheckpoint_ok_iff.mp hCheck).closed
  have hFinal := Closed.traced (d := ck.decision program environment cutoff inRange)
    hAccepted hTrace hStart
  exact hFinal.fits (by rw [hRow] at hLater; exact Int.ofNat_le.mp hLater)

end Closure

/-- Whatever execution returns, its checkpoint passes every check of another
execution at the same or a later row; so does the checkpoint handed over at any
point of a run after its first execution. -/
theorem checkpoint_closure (ctx : DecimalContext) (program : SemanticProgram)
    (snapshot : DailyMarketSnapshot) (ck : Checkpoint) :
    (∀ (cutoff : Int) (revisionId : Option String) (result : ProgramExecutionResult),
      executeProgramV2 ctx program snapshot (some cutoff) revisionId ck = .ok result →
      ∀ later : Nat, cutoff ≤ later → later < snapshot.dates.length →
        checkCheckpoint program later result.checkpoint = .ok ()) ∧
    (∀ (cutoff : Nat) (result : ProgramExecutionResult) (history : History),
      ProgramRun (snapshot.environment ctx) program ck ((cutoff, result) :: history) →
      ∀ later : Nat, cutoff ≤ later → later < snapshot.dates.length →
        checkCheckpoint program later (handover ck ((cutoff, result) :: history)) = .ok ()) := by
  constructor
  · intro cutoff revisionId result hExecuted later hLater _
    exact checkCheckpoint_ok_iff.mpr (executed_fits hExecuted hLater)
  · intro cutoff result history hRun later hLater _
    obtain ⟨revisionId, hExecuted⟩ := hRun.head
    exact checkCheckpoint_ok_iff.mpr (executed_fits hExecuted (Int.ofNat_le.mpr hLater))

/-- A daily scheduled Event that remembers a constant. -/
def rememberDaily : SemanticProgram :=
  .daily [
    .onEvent "statement" { semanticId := "tick", clockId := "daily", trigger := .scheduled } [
      .rememberValue {
        semanticId := "remember", memoryId := "memory"
        value := .literal "constant" 1 .score .points none }]]

/-- A Friday and the Monday after it. -/
def twoSessions : DailyMarketSnapshot :=
  .single "A" (⟨2024, 1, 5⟩, some 10) [(⟨2024, 1, 8⟩, some 11)]

theorem checkpoint_closure_daily : ∃ result : ProgramExecutionResult,
    executeProgramV2 (DecimalContext.exact id) rememberDaily twoSessions (some 0) none {} =
      .ok result ∧ result.eventCutoffs.get? "tick" = some 0 ∧
    checkCheckpoint rememberDaily 1 result.checkpoint = .ok () := by
  have hChecked : (executeProgramV2 (DecimalContext.exact id) rememberDaily twoSessions (some 0)
      none {}).toOption.any (fun result => result.eventCutoffs.get? "tick" = some 0) = true := by
    decide +kernel
  obtain ⟨result, hExecuted, hTick⟩ := exists_ok_of_any hChecked
  exact ⟨result, hExecuted, of_decide_eq_true hTick,
    (checkpoint_closure (DecimalContext.exact id) rememberDaily twoSessions {}).1 0 none result
      hExecuted 1 (by decide) (by decide)⟩

end RuleTrade
