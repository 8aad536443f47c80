import RuleTrade.Backend.Rebalance
import RuleTrade.Strategy.Cooldown

/-! Cooldowns in the generated algorithm: a counter of trading sessions, and for
each state of the plan the last exits of its tickers and the targets it saw. -/

namespace RuleTrade

open Library

/-- The three dictionaries of a cooldown state. -/
structure CooldownStore where
  lastExitSession : Dict String Int := Dict.empty
  lastExitDate : Dict String String := Dict.empty
  previousTargets : Dict String ℚ := Dict.empty

/-- Fields of the algorithm that cooldowns use. -/
structure CooldownFields where
  tradingSessionIndex : Int := -1
  lastTradingSessionDate : Option CalendarDate := none
  stores : Dict String CooldownStore := Dict.empty

def LeanPlan.cooldownState? (plan : LeanPlan) (id : String) : Option LeanCooldownState :=
  plan.cooldownStates.find? (fun state => state.id = id)

/-- Ranked tickers that signal, before the gate. -/
def LeanMomentumSelection.signalCandidates (s : LeanMomentumSelection) (market : GeneratedMarket) :
    List String := (s.rank (s.rebalanceInput market)).take s.count

namespace CooldownStore

/-- Evidence of a candidate at the gate. -/
def check (store : CooldownStore) (tradingSessionIndex : Int) (requiredCompletedSessions : Nat)
    (ticker : String) : CooldownEligibility :=
  let lastExitSession := store.lastExitSession.get? ticker
  let elapsed := lastExitSession.map (tradingSessionIndex - ·)
  { asset := ticker
    lastExit := if lastExitSession.isSome then store.lastExitDate.get? ticker else none
    elapsedTradingDays := elapsed
    decision := cooldownDecision requiredCompletedSessions elapsed }

variable (targets : Dict String ℚ) (tradingSessionIndex : Int) (eventIdentity : String)

def hadTarget (store : CooldownStore) (ticker : String) : Bool :=
  (store.previousTargets.get? ticker).any (0 < ·)

/-- A ticker is in the targets with a positive weight. -/
def hasTarget (ticker : String) : Bool := (targets.get? ticker).any (0 < ·)

def exits (store : CooldownStore) (ticker : String) : Bool :=
  store.hadTarget ticker && !hasTarget targets ticker

/-- Record an exit, and what the ticker is held at. -/
def observe (store : CooldownStore) (ticker : String) : CooldownStore where
  lastExitSession :=
    if store.exits targets ticker then store.lastExitSession.set ticker tradingSessionIndex
    else store.lastExitSession
  lastExitDate :=
    if store.exits targets ticker then store.lastExitDate.set ticker eventIdentity
    else store.lastExitDate
  previousTargets := store.previousTargets.set ticker
    (if hasTarget targets ticker then targets.getD ticker 0 else 0)

/-- Observe the tickers of a state, and name those that exit. -/
def observeAll (store : CooldownStore) : List String → CooldownStore × List String
  | [] => (store, [])
  | ticker :: rest =>
      let later := (store.observe targets tradingSessionIndex eventIdentity ticker).observeAll rest
      (later.1, if store.exits targets ticker then ticker :: later.2 else later.2)

end CooldownStore

/-- Data of the algorithm at one slice: its date, whether the exchange is open on
it, the windows, and the queued event whose data is ready. -/
structure CooldownSlice where
  date : CalendarDate
  isDateOpen : Bool
  market : GeneratedMarket
  event : Option String := none

/-- What a rebalance with cooldowns does. An exit names its state. -/
structure CooldownExecution where
  event : String
  eligibility : List CooldownEligibility
  selected : List String
  targets : Dict String ℚ
  exits : List (String × String)

namespace CooldownFields

variable (plan : LeanPlan) (rebalance : LeanRebalance)

/-- A slice opens a session of its own. -/
def opensSession (fields : CooldownFields) (slice : CooldownSlice) : Bool :=
  fields.lastTradingSessionDate ≠ some slice.date && slice.isDateOpen

def countSession (fields : CooldownFields) (slice : CooldownSlice) : CooldownFields :=
  if fields.opensSession slice then
    { fields with
      tradingSessionIndex := fields.tradingSessionIndex + 1
      lastTradingSessionDate := some slice.date }
  else fields

def store (fields : CooldownFields) (stateId : String) : CooldownStore :=
  fields.stores.getD stateId {}

def check (fields : CooldownFields) (state : LeanCooldownState) (ticker : String) :
    CooldownEligibility :=
  (fields.store state.id).check fields.tradingSessionIndex state.requiredCompletedSessions ticker

/-- The gate that a rebalance runs its selections behind. -/
def gate (fields : CooldownFields) (market : GeneratedMarket) : GeneratedMarket :=
  { market with
    cooldownAllows := fun stateId ticker =>
      (plan.cooldownState? stateId).all (fun state =>
        (fields.check state ticker).decision = .eligible) }

/-- Evidence of the gate of a sleeve. -/
def sleeveChecks (fields : CooldownFields) (market : GeneratedMarket) (sleeveId : String) :
    List CooldownEligibility :=
  match (plan.sleeve? sleeveId).bind (fun sleeve => sleeve.selectionId.bind plan.selection?) with
  | none => []
  | some selection =>
      match selection.cooldownStateId.bind plan.cooldownState? with
      | none => []
      | some state => (selection.signalCandidates market).map (fields.check state)

/-- Observe the targets for one state. -/
def observeState (targets : Dict String ℚ) (eventIdentity : String)
    (observed : CooldownFields × List (String × String)) (stateId : String) :
    CooldownFields × List (String × String) :=
  match plan.cooldownState? stateId with
  | none => observed
  | some state =>
      let store := (observed.1.store stateId).observeAll targets observed.1.tradingSessionIndex
        eventIdentity state.symbols
      ({ observed.1 with stores := observed.1.stores.set stateId store.1 },
        observed.2 ++ store.2.map (stateId, ·))

/-- Execute the rebalance of a queued event. -/
def execute (fields : CooldownFields) (market : GeneratedMarket) (eventIdentity : String) :
    CooldownFields × Option CooldownExecution :=
  let gated := fields.gate plan market
  match rebalance.targets gated plan with
  | none => (fields, none)
  | some targets =>
      let branch := rebalance.branch gated
      let sleeves := branch.pick rebalance.sleeveIds rebalance.otherwiseSleeveIds
      let observed := (branch.pick rebalance.exitStateIds rebalance.otherwiseExitStateIds).foldl
        (observeState plan targets eventIdentity) (fields, [])
      (observed.1, some
        { event := eventIdentity
          eligibility := sleeves.flatMap (fields.sleeveChecks plan gated)
          selected := sleeves.flatMap (fun id =>
            ((plan.sleeve? id).bind (sleeveMembers gated plan)).getD [])
          targets := targets
          exits := observed.2 })

/-- One slice: count its session, then execute what is queued. -/
def onData (fields : CooldownFields) (slice : CooldownSlice) :
    CooldownFields × Option CooldownExecution :=
  let counted := fields.countSession slice
  match slice.event with
  | none => (counted, none)
  | some eventIdentity => counted.execute plan rebalance slice.market eventIdentity

/-- Executions of a run. -/
def run (fields : CooldownFields) : List CooldownSlice → List CooldownExecution
  | [] => []
  | slice :: rest =>
      let next := fields.onData plan rebalance slice
      next.2.toList ++ next.1.run rest

end CooldownFields

end RuleTrade
