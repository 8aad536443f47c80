import RuleTrade.Execution.Allocation
import RuleTrade.Library.Agenda

/-! Statement execution. Each statement form has an entry that says what it
does by itself and which body it runs next; the interpreter recurses into
bodies, and the agenda reading of a run looks at entries only. -/

namespace RuleTrade

open Library

section Entries

variable (d : Decision) (r : Runtime)

/-- The decision and runtime that reconstruct a Condition at the row before.
Only the state is the incoming one; the other maps are those of `r`. -/
def Decision.prior : Decision :=
  { d with
    cutoff := d.cutoff - 1
    inRange := lt_of_le_of_lt (Nat.sub_le _ _) d.inRange
    priorEventTruths := Dict.empty }

def Runtime.prior : Runtime where
  state := d.priorState
  eventCutoffs := r.eventCutoffs
  eventCounts := r.eventCounts
  stateEnteredCutoffs := r.stateEnteredCutoffs
  rememberedValues := r.rememberedValues

/-- Truth an Event compares with. A missing entry is reconstructed at the row
before, which keeps no observations. -/
def previousTruth (event : EventDefinition) : Except ProgramError Truth :=
  match event.trigger, d.priorEventTruths.get? event.semanticId with
  | _, some truth => .ok truth
  | .scheduled, none => .ok .false
  | .on _ when, none =>
      if d.cutoff = 0 then .ok .false
      else (predicate d.prior (r.prior d) when).result

theorem previousTruth_recorded {d : Decision} {r : Runtime} {event : EventDefinition}
    {truth : Truth} (h : d.priorEventTruths.get? event.semanticId = some truth) :
    previousTruth d r event = .ok truth := by
  simp only [previousTruth, h]

def currentTruth (event : EventDefinition) : Evaluation Truth :=
  match event.trigger with
  | .scheduled => pure .true
  | .on _ when => predicate d r when

def EventTrigger.fires (trigger : EventTrigger) (previous current : Truth) : Bool :=
  match trigger with
  | .scheduled | .on .whileTrue _ => current = .true
  | .on .risingEdge _ | .on .becameTrue _ | .on .crossesAbove _ =>
      current = .true && previous ≠ .true
  | .on .fallingEdge _ | .on .becameFalse _ | .on .crossesBelow _ =>
      current = .false && previous = .true

def Occurrence.selects (occurrence : Occurrence) (count : Int) : Bool :=
  match occurrence with
  | .every => true
  | .first => count = 1
  | .ordinal n => count = n

def EventDefinition.count (event : EventDefinition) (r : Runtime) : Int :=
  r.eventCounts.getD event.semanticId 0

/-- An Event triggers when its edge fires and its occurrence is selected. -/
def EventDefinition.triggers (event : EventDefinition) (r : Runtime) (previous current : Truth) :
    Bool :=
  event.trigger.fires previous current && event.occurrence.selects (event.count r + 1)

/-- Counts after an evaluation. A firing edge counts even when the occurrence
is not selected. -/
def EventDefinition.counted (event : EventDefinition) (r : Runtime) (previous current : Truth) :
    Dict String Int :=
  if event.trigger.fires previous current then
    r.eventCounts.set event.semanticId (event.count r + 1)
  else r.eventCounts

/-- Trigger rows after an evaluation. -/
def EventDefinition.anchored (event : EventDefinition) (previous current : Truth) :
    Dict String Int :=
  if event.triggers r previous current then r.eventCutoffs.set event.semanticId d.cutoff
  else r.eventCutoffs

/-- Record an evaluated Event: its truth, its count, and its row when it triggers. -/
def recordEvent (semanticId : String) (event : EventDefinition) (previous current : Truth) :
    Runtime :=
  { r with
    eventTruths := r.eventTruths.set event.semanticId current
    eventCounts := event.counted r previous current
    eventCutoffs := event.anchored d r previous current }.note
    semanticId "event" (if event.triggers r previous current then "triggered" else "not_triggered")
    (.event previous current ((event.counted r previous current).getD event.semanticId 0))

def enterEvent (semanticId : String) (event : EventDefinition) : Evaluation (Runtime × Bool) := do
  if ← Logged.lift (d.due (some event.clockId)) then
    let current ← currentTruth d r event
    let previous ← Logged.lift (previousTruth d r event)
    pure (recordEvent d r semanticId event previous current, event.triggers r previous current)
  else pure (r, false)

/-- Way a Control statement takes. -/
inductive ControlBranch where
  | thenBranch
  | otherwiseBranch
  | neither
  deriving DecidableEq

def ControlBranch.pick {α : Type} (thenBody otherwiseBody : List α) : ControlBranch → List α
  | .thenBranch => thenBody
  | .otherwiseBranch => otherwiseBody
  | .neither => []

/-- Branch a Control takes. Unknown follows the stated policy. -/
def ConditionalHead.branch (head : ConditionalHead) (outcome : Truth) : ControlBranch :=
  match outcome, head.unknownPolicy with
  | .true, _ => .thenBranch
  | .false, _ | .unknown, .otherwise => .otherwiseBranch
  | .unknown, .retain => .neither

def ConditionalHead.detail (head : ConditionalHead) (outcome : Truth) : String :=
  match outcome with
  | .true => "then"
  | .false => "otherwise"
  | .unknown => head.unknownPolicy.text

/-- Note the outcome of a Control, and retain when no branch is taken. -/
def recordControl (head : ConditionalHead) (outcome : Truth) : Runtime :=
  { r with retained := if head.branch outcome = ControlBranch.neither then true else r.retained }.note
    head.semanticId "control" outcome.text (.text (head.detail outcome))

def enterControl (head : ConditionalHead) : Evaluation (Runtime × ControlBranch) := do
  if ← Logged.lift (d.due head.clockId) then
    let outcome ← predicate d r head.condition
    pure (recordControl r head outcome, head.branch outcome)
  else pure (r, .neither)

def StateTransition.moved (t : StateTransition) (r : Runtime) (outcome : Truth) :
    Dict String String :=
  if outcome = .true then r.state.set t.stateKey t.toValue else r.state

/-- Entry rows after a transition. Only a real change of value enters a state. -/
def StateTransition.entered (t : StateTransition) (outcome : Truth) : Dict String Int :=
  if outcome = .true ∧ r.state.get? t.stateKey ≠ some t.toValue then
    r.stateEnteredCutoffs.set t.stateKey d.cutoff
  else r.stateEnteredCutoffs

/-- Record a transition. -/
def recordTransition (semanticId : String) (t : StateTransition) (outcome : Truth) : Runtime :=
  { r with
    state := t.moved r outcome
    stateEnteredCutoffs := t.entered d r outcome }.note
    semanticId "transition" outcome.text (.state t.stateKey ((t.moved r outcome).get? t.stateKey))

/-- The guard of a transition is read only when its source value matches. -/
def transitionTruth (t : StateTransition) : Evaluation Truth :=
  if t.fromValue.all (fun v => r.state.get? t.stateKey = some v) then predicate d r t.when
  else pure .false

def enterTransition (semanticId : String) (t : StateTransition) : Evaluation Runtime := do
  if ← Logged.lift (d.due t.clockId) then
    let outcome ← transitionTruth d r t
    pure (recordTransition d r semanticId t outcome)
  else pure r

/-- Memories after a value was asked for. A missing value overwrites nothing. -/
def RememberValueStatement.stored (s : RememberValueStatement) (r : Runtime) :
    Option ℚ → Dict String ℚ
  | none => r.rememberedValues
  | some number => r.rememberedValues.set s.memoryId number

/-- Store an available value, and note it either way. -/
def recordMemory (s : RememberValueStatement) (observed : ProgramValueObservation) : Runtime :=
  { r with
    rememberedValues := s.stored r observed.value }.note
    s.semanticId "remember" (if observed.value.isSome then "stored" else "unavailable")
    (match observed.value with
      | none => .text (observed.reason.getD "unknown")
      | some number => .stored s.memoryId number observed.expressionHash)

def enterRemember (s : RememberValueStatement) : Evaluation Runtime := do
  if ← Logged.lift (d.due s.clockId) then
    let observed ← value d r none [] s.value none
    pure (recordMemory r s observed)
  else pure r

/-- First override whose Condition is true. Later ones are not read. -/
def firstOverride : List OverrideRule → Evaluation (Option OverrideRule)
  | [] => pure none
  | rule :: rest => do
      let outcome ← predicate d r rule.when
      if outcome = .true then pure (some rule) else firstOverride rest

/-- Overrides by priority, highest first. -/
def GuardedAllocationStatement.ranked (s : GuardedAllocationStatement) : List OverrideRule :=
  Sequence.sortByDescending OverrideRule.priority s.overrides

/-- The allocation a guarded policy chooses, with its outcome and rule line. -/
structure PolicyChoice where
  action : AllocationStatement
  outcome : String
  rule : String
  priority : Option Int

def GuardedAllocationStatement.choice (s : GuardedAllocationStatement)
    (override : Option OverrideRule) (resolvable : Bool) : Option PolicyChoice :=
  match override with
  | some rule => some ⟨rule.action, "override", rule.semanticId, some rule.priority⟩
  | none =>
      if resolvable then some ⟨s.primary, "primary", s.primary.semanticId, none⟩
      else s.fallback.map (fun fallback => ⟨fallback, "fallback", fallback.semanticId, none⟩)

/-- Allocate what the policy chose, or retain when it chose nothing. -/
def applyChoice (s : GuardedAllocationStatement) (choice : Option PolicyChoice) :
    Except ProgramError Runtime :=
  match choice with
  | some choice => do
      let allocated ← allocation d r choice.action choice.outcome
      .ok (allocated.note s.semanticId "policy_precedence" choice.outcome
        (.rule choice.rule choice.priority))
  | none =>
      .ok ({ r with retained := true }.note s.semanticId "guarded_allocation" "unresolved_retain"
        (.text "primary unavailable and no fallback"))

def guardTruth (s : GuardedAllocationStatement) : Evaluation Truth :=
  match s.guard with
  | none => pure .true
  | some guard => predicate d r guard

def GuardedAllocationStatement.blocks (s : GuardedAllocationStatement) (guard : Truth) : Bool :=
  guard = .false || (guard = .unknown && s.unknownGuardPolicy = .block)

def enterGuarded (s : GuardedAllocationStatement) : Evaluation Runtime := do
  let guard ← guardTruth d r s
  if s.blocks guard then
    pure ({ r with retained := true }.note s.semanticId "guarded_allocation" "guard_blocked"
      (.text guard.text))
  else do
    let override ← firstOverride d r s.ranked
    Logged.lift (applyChoice d r s (s.choice override (allocationResolvable r s.primary)))

end Entries

section Interpreter

variable (d : Decision)

mutual

def statements : List ProgramStatement → Runtime → Evaluation Runtime
  | [], r => pure r
  | first :: rest, r => do
      let r' ← statement first r
      statements rest r'

def statement : ProgramStatement → Runtime → Evaluation Runtime
  | .select s, r => selection d r s
  | .allocate s, r => Logged.lift (allocation d r s "allocated")
  | .control head thenStatements otherwiseStatements, r => do
      let entered ← enterControl d r head
      match entered.2 with
      | .thenBranch => statements thenStatements entered.1
      | .otherwiseBranch => statements otherwiseStatements entered.1
      | .neither => pure entered.1
  | .onEvent semanticId event body, r => do
      let entered ← enterEvent d r semanticId event
      if entered.2 then statements body entered.1 else pure entered.1
  | .transition semanticId t, r => enterTransition d r semanticId t
  | .rememberValue s, r => enterRemember d r s
  | .guardedAllocation s, r => enterGuarded d r s
  | .unresolved _, _ => .failure .unresolvedStatementCannotExecute

end

/-- What a statement does by itself, and the body it goes on to run. -/
def enter (r : Runtime) : ProgramStatement → Evaluation (Runtime × List ProgramStatement)
  | .select s => do
      let r' ← selection d r s
      pure (r', [])
  | .allocate s => do
      let r' ← Logged.lift (allocation d r s "allocated")
      pure (r', [])
  | .control head thenStatements otherwiseStatements => do
      let entered ← enterControl d r head
      pure (entered.1, entered.2.pick thenStatements otherwiseStatements)
  | .onEvent semanticId event body => do
      let entered ← enterEvent d r semanticId event
      pure (entered.1, if entered.2 then body else [])
  | .transition semanticId t => do
      let r' ← enterTransition d r semanticId t
      pure (r', [])
  | .rememberValue s => do
      let r' ← enterRemember d r s
      pure (r', [])
  | .guardedAllocation s => do
      let r' ← enterGuarded d r s
      pure (r', [])
  | .unresolved _ => .failure .unresolvedStatementCannotExecute

end Interpreter

end RuleTrade
