import RuleTrade.Strategy.Fragments
import RuleTrade.Execution.Readings
import RuleTrade.Execution.Trace

/-! The truth an Event edge compares with when the checkpoint has none. It is
reconstructed at the row before from the incoming state, but from the other
maps as the decision has left them so far. -/

namespace RuleTrade

open Library

/-- An entry of the maps that a decision rewrites as it goes. -/
inductive Entry where
  | event (eventId : String)
  | stateEntry (stateKey : String)
  | memory (memoryId : String)

/-- The two runtimes hold the same entry. -/
def Runtime.SameEntry (r s : Runtime) : Entry → Prop
  | .event id => r.eventCutoffs.get? id = s.eventCutoffs.get? id
  | .stateEntry key => r.stateEnteredCutoffs.get? key = s.stateEnteredCutoffs.get? key
  | .memory id => r.rememberedValues.get? id = s.rememberedValues.get? id

/-- Entry a reading looks up. -/
def Reading.entry : Reading → Option Entry
  | .ofValue (.eventRelative _ event _ _) _ | .ofValue (.barsSinceEvent _ event) _
  | .ofValue (.timeSinceEvent _ event) _ | .ofCondition (.eventWindow _ event _) =>
      some (.event event)
  | .ofValue (.barsSinceState _ key) _ | .ofValue (.timeSinceState _ key) _ =>
      some (.stateEntry key)
  | .ofValue (.rememberedValue _ memory _ _ _) _ => some (.memory memory)
  | _ => none

section Agreement

variable {d : Decision} {r s : Runtime}

/-- Two runtimes under one decision, as worlds. -/
def bothRuntimes (d : Decision) (r s : Runtime) : Worlds Bool where
  decision := fun _ => d
  runtime := fun first => if first then r else s
  context := d.environment.context
  observedAt := d.observedAt
  context_eq := fun _ => rfl
  observedAt_eq := fun _ => rfl

/-- Both worlds compute the same. -/
def Agrees {α : Type} (x : Bool → Evaluation α) : Prop := x true = x false

theorem agrees_sequential : Logged.Sequential Agrees where
  success := fun a log => rfl
  bind := by
    intro α β x f hx hf
    change x true >>= f true = x false >>= f false
    rw [show x true = x false from hx, show f true = f false from funext hf]

/-- A reading whose entry is the same gives the same. -/
theorem reading_agrees (hState : r.state = s.state) {reading : Reading}
    (hAtomic : reading.Atomic) (hEntry : ∀ entry ∈ reading.entry, r.SameEntry s entry)
    (bindingId : Option String) (members : List String) :
    reading.Has Agrees (bothRuntimes d r s) bindingId members := by
  cases reading with
  | ofValue expression candidate =>
      change value d r bindingId members expression candidate =
        value d s bindingId members expression candidate
      cases expression with
      | crossSectional id source domain transform direction bins =>
          cases hAtomic
          simp only [value]
      | crossSectionalAggregate => cases hAtomic
      | score => cases hAtomic
      | eventRelative id event source offset =>
          have hSame : r.eventCutoffs.get? event = s.eventCutoffs.get? event := hEntry _ rfl
          simp only [value, hSame]
      | barsSinceEvent id event =>
          have hSame : r.eventCutoffs.get? event = s.eventCutoffs.get? event := hEntry _ rfl
          simp only [value, hSame]
      | timeSinceEvent id event =>
          have hSame : r.eventCutoffs.get? event = s.eventCutoffs.get? event := hEntry _ rfl
          simp only [value, hSame]
      | barsSinceState id key =>
          have hSame : r.stateEnteredCutoffs.get? key = s.stateEnteredCutoffs.get? key :=
            hEntry _ rfl
          simp only [value, hSame]
      | timeSinceState id key =>
          have hSame : r.stateEnteredCutoffs.get? key = s.stateEnteredCutoffs.get? key :=
            hEntry _ rfl
          simp only [value, hSame]
      | rememberedValue id memory quantity unit refinement =>
          have hSame : r.rememberedValues.get? memory = s.rememberedValues.get? memory :=
            hEntry _ rfl
          simp only [value, hSame]
      | _ => simp only [value]
  | ofCondition test =>
      change condition d r bindingId members test none = condition d s bindingId members test none
      cases test with
      | stateEquals id key expected => simp only [condition, hState]
      | eventWindow id event relation =>
          have hSame : r.eventCutoffs.get? event = s.eventCutoffs.get? event := hEntry _ rfl
          simp only [condition, hSame]
      | _ => cases hAtomic

/-- A Condition only looks up the entries of its readings. -/
theorem predicate_agrees (hState : r.state = s.state) {c : Condition}
    (h : ∀ reading ∈ c.readings [] none, ∀ entry ∈ reading.entry, r.SameEntry s entry) :
    predicate d r c = predicate d s c :=
  condition_holds (bothRuntimes d r s) agrees_sequential c none
    (fun reading hReading hAtomic =>
      reading_agrees hState hAtomic (h reading hReading) none [])

end Agreement

def memoryAbove : Condition :=
  .comparison "compare" .gt (.rememberedValue "recall" "memory" .score .points none)
    (.literal "one" 1 .score .points none)

def aboveEvent : EventDefinition where
  semanticId := "above"
  clockId := "daily"
  trigger := .on .risingEdge memoryAbove

/-- Remember five, then an Event that asks whether the memory is above one. -/
def rememberThenCompare : SemanticProgram :=
  .daily [
    .rememberValue {
      semanticId := "remember", memoryId := "memory"
      value := .literal "five" 5 .score .points none },
    .onEvent "statement" aboveEvent intoCash]

/-- A Monday and a Tuesday. -/
def mondayAndTuesday : DailyMarketSnapshot :=
  .single "A" (⟨2024, 1, 8⟩, some 10) [(⟨2024, 1, 9⟩, some 11)]

/-- Second row of the snapshot, from an empty checkpoint. -/
def tuesdayDecision (program : SemanticProgram) : Decision :=
  ({} : Checkpoint).decision program (mondayAndTuesday.environment (.exact id)) 1 (by decide)

end RuleTrade
