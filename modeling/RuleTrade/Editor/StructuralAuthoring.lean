import Mathlib.Data.List.Basic

/-! Controller of the V1 authoring requests. A call reads the document of the last
render, and its answer is installed if no later call was made and the document of the
last render is still the one it read. -/

namespace RuleTrade

/-- What the objects of the page hold, and what the service makes of a Strategy. The
content of an object never changes. -/
structure AuthoringService (Ref Operation Strategy : Type) where
  content : Ref → Strategy
  applied : Strategy → Operation → Option Strategy

section Controller

variable {Ref Operation Strategy : Type}

/-- Actions of the store that concern the canonical document. -/
inductive CanonicalAction (Ref : Type) where
  | replaceCanonical (canonical : Ref)
  | replaceCanonicalDirty (canonical : Ref)
  | other
  deriving DecidableEq, Repr

def editorReducer (canonical : Ref) : CanonicalAction Ref → Ref
  | .replaceCanonical next => next
  | .replaceCanonicalDirty next => next
  | .other => canonical

/-- A call that waits for its answer. -/
structure AuthoringCall (Ref Operation : Type) where
  source : Ref
  operation : Operation
  requestId : Nat
  deriving DecidableEq, Repr

/-- The store and the references of the hook. `latest` is renewed by a render only. -/
structure AuthoringController (Ref Operation : Type) where
  canonical : Ref
  latest : Ref
  requestSequence : Nat := 0
  waiting : List (AuthoringCall Ref Operation) := []
  deriving DecidableEq, Repr

namespace AuthoringController

/-- The page is opened on a document. -/
def opened (document : Ref) : AuthoringController Ref Operation where
  canonical := document
  latest := document

def dispatch (c : AuthoringController Ref Operation) (action : CanonicalAction Ref) :
    AuthoringController Ref Operation :=
  { c with canonical := editorReducer c.canonical action }

def render (c : AuthoringController Ref Operation) : AuthoringController Ref Operation :=
  { c with latest := c.canonical }

/-- `applyResolved` up to its request. -/
def applyResolved (c : AuthoringController Ref Operation) (operation : Operation) :
    AuthoringController Ref Operation :=
  { c with
    requestSequence := c.requestSequence + 1
    waiting := ⟨c.latest, operation, c.requestSequence + 1⟩ :: c.waiting }

/-- `applyResolved` from its answer on, and what it returns. A rejected request has none. -/
def settle [DecidableEq Ref] (c : AuthoringController Ref Operation)
    (call : AuthoringCall Ref Operation) :
    Option Ref → AuthoringController Ref Operation × Bool
  | none => (c, false)
  | some strategy =>
      if call.requestId ≠ c.requestSequence then (c, false)
      else if c.latest ≠ call.source then (c, false)
      else (c.dispatch (.replaceCanonicalDirty strategy), true)

end AuthoringController

/-- What happens next: a call, an answer to a waiting call, another action of the store,
or a render. -/
inductive AuthoringEvent (Ref Operation : Type) where
  | call (operation : Operation)
  | answer (index : Nat) (result : Option Ref)
  | act (action : CanonicalAction Ref)
  | render
  deriving DecidableEq, Repr

/-- The controller with the last replacement from elsewhere and the operations whose
calls returned true since then. -/
structure AuthoringRun (Ref Operation : Type) where
  controller : AuthoringController Ref Operation
  replaced : Ref
  operations : List Operation := []
  deriving DecidableEq, Repr

namespace AuthoringRun

def opened (document : Ref) : AuthoringRun Ref Operation where
  controller := .opened document
  replaced := document

variable [DecidableEq Ref] [DecidableEq Strategy]

/-- The answer is what the service makes of the source, or the request was rejected. -/
def answers (service : AuthoringService Ref Operation Strategy)
    (call : AuthoringCall Ref Operation) (result : Option Ref) : Bool :=
  result.all (fun strategy =>
    service.applied (service.content call.source) call.operation = some (service.content strategy))

/-- A waiting call goes on with its answer. -/
def settle (run : AuthoringRun Ref Operation) (index : Nat) (call : AuthoringCall Ref Operation)
    (result : Option Ref) : AuthoringRun Ref Operation :=
  let settled := run.controller.settle call result
  { run with
    controller := { settled.1 with waiting := settled.1.waiting.eraseIdx index }
    operations := if settled.2 then run.operations ++ [call.operation] else run.operations }

def step (service : AuthoringService Ref Operation Strategy) (run : AuthoringRun Ref Operation) :
    AuthoringEvent Ref Operation → Option (AuthoringRun Ref Operation)
  | .call operation => some { run with controller := run.controller.applyResolved operation }
  | .answer index result =>
      (run.controller.waiting[index]?).bind (fun call =>
        if answers service call result then some (run.settle index call result) else none)
  | .act .other => some { run with controller := run.controller.dispatch .other }
  | .act action =>
      let controller := run.controller.dispatch action
      some { controller := controller, replaced := controller.canonical }
  | .render => some { run with controller := run.controller.render }

end AuthoringRun

end Controller

end RuleTrade
