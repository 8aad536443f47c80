import RuleTrade.Library.Decimal
import RuleTrade.Library.Dict
import RuleTrade.Library.Sequence

/-! Reference run of the cooldown. A candidate that left the targets is blocked
until enough sessions are complete. -/

namespace RuleTrade

open Library

inductive CooldownDecision where
  | eligible
  | blocked
  deriving DecidableEq, Repr

structure CooldownEligibility where
  asset : String
  lastExit : Option String
  elapsedTradingDays : Option Int
  decision : CooldownDecision
  deriving DecidableEq

structure CooldownEvent where
  event : String
  sessionIndex : Int
  candidates : List String
  eligibility : List CooldownEligibility
  selected : List String
  targets : List (String × ℚ)
  exits : List String

/-- What the loop carries: session and name of each last exit, and the assets held. -/
structure CooldownTrace where
  lastExit : Dict String (Int × String) := Dict.empty
  previousTargets : List String := []

variable (ctx : DecimalContext) (requiredCompletedSessions : Nat)

/-- Whether so many sessions since the last exit are enough. -/
def cooldownDecision (elapsed : Option Int) : CooldownDecision :=
  if elapsed.all (fun sessions : Int => requiredCompletedSessions ≤ sessions) then .eligible
  else .blocked

namespace CooldownTrace

def eligibility (trace : CooldownTrace) (sessionIndex : Int) (asset : String) :
    CooldownEligibility :=
  let prior := trace.lastExit.get? asset
  let elapsed := prior.map (fun exit => sessionIndex - exit.1)
  { asset := asset
    lastExit := prior.map Prod.snd
    elapsedTradingDays := elapsed
    decision := cooldownDecision requiredCompletedSessions elapsed }

/-- What happens at a session with these candidates. -/
def session (trace : CooldownTrace) (sessionIndex : Int) (event : String)
    (candidates : List String) : CooldownEvent :=
  let eligibility := candidates.map (trace.eligibility requiredCompletedSessions sessionIndex)
  let selected :=
    (eligibility.filter (fun item => item.decision = .eligible)).map CooldownEligibility.asset
  { event := event
    sessionIndex := sessionIndex
    candidates := candidates
    eligibility := eligibility
    selected := selected
    targets := (Sequence.sortBy id selected).map (fun asset => (asset, ctx.quot 1 selected.length))
    exits := Sequence.sortBy id (trace.previousTargets.filter (fun asset => asset ∉ selected)) }

/-- The targets are observed after the session is decided. -/
def observe (trace : CooldownTrace) (decided : CooldownEvent) : CooldownTrace where
  lastExit := decided.exits.foldl
    (fun lastExit asset => lastExit.set asset (decided.sessionIndex, decided.event)) trace.lastExit
  previousTargets := decided.selected.dedup

end CooldownTrace

/-- Sessions from an index on. -/
def evaluateCooldownFrom (candidatesByEvent : Dict String (List String)) (trace : CooldownTrace)
    (sessionIndex : Int) : List String → List CooldownEvent
  | [] => []
  | event :: rest =>
      let decided := trace.session ctx requiredCompletedSessions sessionIndex event
        (candidatesByEvent.getD event [])
      decided :: evaluateCooldownFrom candidatesByEvent (trace.observe decided) (sessionIndex + 1) rest

def evaluateCooldown (tradingSessions : List String)
    (candidatesByEvent : Dict String (List String)) : List CooldownEvent :=
  evaluateCooldownFrom ctx requiredCompletedSessions candidatesByEvent {} 0 tradingSessions

end RuleTrade
