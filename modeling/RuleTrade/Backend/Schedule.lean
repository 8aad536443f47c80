import RuleTrade.Backend.TemporalBoundary

/-! Scheduled events of the generated algorithm. The scheduler queues an event on
the days of its rule, and the event is executed with the first data that has a
bar of every symbol it requires. -/

namespace RuleTrade

open Library

/-- Sessions of a run after its warm-up, between the other trading days of the
exchange. -/
structure ExchangeRun where
  earlier : List CalendarDate := []
  sessions : List MarketSession
  later : List CalendarDate := []

def ExchangeRun.tradingDays (run : ExchangeRun) : List CalendarDate :=
  run.earlier ++ run.sessions.map MarketSession.date ++ run.later

/-- Month of a date, with its year. -/
def yearMonth (date : CalendarDate) : Nat × Nat := (date.year, date.month)

/-- Trading days of the month of a date. -/
def daysOfMonth (days : List CalendarDate) (date : CalendarDate) : List CalendarDate :=
  days.filter (fun day => yearMonth day = yearMonth date)

/-- Whether the date rule of a schedule holds on a trading day. A quarterly
schedule keeps the first of every three months. -/
def LeanSchedule.fires (days : List CalendarDate) (date : CalendarDate) : LeanSchedule → Bool
  | .daily => true
  | .monthly day .end => (daysOfMonth days date).reverse[day - 1]? = some date
  | .monthly day .start => (daysOfMonth days date)[day - 1]? = some date
  | .quarterly day => (date.month - 1) % 3 = 0 && (daysOfMonth days date)[day - 1]? = some date

namespace LeanScheduledEvent

variable (event : LeanScheduledEvent)

/-- Every required symbol has a bar with a positive price. -/
def dataIsReady (session : MarketSession) : Bool :=
  event.requiredSymbols.all (fun symbol => (session.bars symbol).any (fun close => 0 < close))

/-- What is queued when the data of a session arrives. -/
def queued (days : List CalendarDate) (session : MarketSession) (pending : Option CalendarDate) :
    Option CalendarDate :=
  if event.schedule.fires days session.date then some session.date else pending

/-- What stays queued after the data of a session. -/
def pendingAfter (days : List CalendarDate) (pending : Option CalendarDate)
    (session : MarketSession) : Option CalendarDate :=
  if event.dataIsReady session then none else event.queued days session pending

/-- Whether the data of a session executes the event. -/
def executesOn (days : List CalendarDate) (session : MarketSession)
    (pending : Option CalendarDate) : Bool :=
  (event.queued days session pending).isSome && event.dataIsReady session

/-- Whether the event is executed at a row of a run. -/
def executes (run : ExchangeRun) (row : Nat) : Bool :=
  run.sessions[row]?.any (fun session => event.executesOn run.tradingDays session
    ((run.sessions.take row).foldl (event.pendingAfter run.tradingDays) none))

/-- With data in every session nothing stays queued. -/
theorem pendingAfter_ready {days : List CalendarDate} :
    ∀ {sessions : List MarketSession}, (∀ session ∈ sessions, event.dataIsReady session = true) →
      sessions.foldl (event.pendingAfter days) none = none
  | [], _ => rfl
  | first :: rest, h => by
      rw [List.foldl_cons]
      have hFirst : event.pendingAfter days none first = none := by
        simp only [pendingAfter, h first List.mem_cons_self, ↓reduceIte]
      rw [hFirst]
      exact pendingAfter_ready (fun session hSession => h session (List.mem_cons_of_mem _ hSession))

/-- With data in every session the event is executed when its rule holds. -/
theorem executes_ready {run : ExchangeRun}
    (hReady : ∀ session ∈ run.sessions, event.dataIsReady session = true) {row : Nat}
    {session : MarketSession} (hSession : run.sessions[row]? = some session) :
    event.executes run row = event.schedule.fires run.tradingDays session.date := by
  have hNone : (run.sessions.take row).foldl (event.pendingAfter run.tradingDays) none = none :=
    event.pendingAfter_ready (fun s hs => hReady s (List.mem_of_mem_take hs))
  have hHere := hReady session (List.mem_of_getElem? hSession)
  simp only [executes, hSession, Option.any_some, executesOn, queued, hNone, hHere, Bool.and_true]
  cases event.schedule.fires run.tradingDays session.date <;> rfl

end LeanScheduledEvent

section Plan

/-- Scheduled events in the order in which they are executed. -/
def LeanPlan.scheduledEvents (plan : LeanPlan) : List LeanScheduledEvent :=
  Sequence.sortBy LeanScheduledEvent.id (plan.dailyEvents ++ plan.monthlyEvents ++
    plan.quarterlyEvents)

/-- Rows with a temporal boundary: the anchor has a bar there. -/
def LeanTemporalProgram.hasBoundary (program : LeanTemporalProgram) (run : ExchangeRun)
    (row : Nat) : Bool :=
  run.sessions[row]?.any (fun session => (session.bars program.anchorSymbol).isSome)

/-- Rows at which the generated algorithm runs what a Program was lowered to. -/
def LeanPlan.acts (plan : LeanPlan) (run : ExchangeRun) (row : Nat) : Bool :=
  plan.temporalProgram.any (fun program => program.hasBoundary run row) ||
    plan.scheduledEvents.any (fun event => event.executes run row)

theorem LeanPlan.acts_temporal {plan : LeanPlan} {program : LeanTemporalProgram}
    (hTemporal : plan.temporalProgram = some program) {run : ExchangeRun} {row : Nat}
    (h : program.hasBoundary run row = true) : plan.acts run row = true := by
  simp [acts, hTemporal, h]

theorem LeanPlan.acts_event {plan : LeanPlan} {event : LeanScheduledEvent}
    (hEvents : plan.scheduledEvents = [event]) (hTemporal : plan.temporalProgram = none)
    (run : ExchangeRun) (row : Nat) : plan.acts run row = event.executes run row := by
  simp [acts, hEvents, hTemporal]

end Plan

end RuleTrade
