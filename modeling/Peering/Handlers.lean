import Peering.Handshake.Templates
import Peering.Node
import Peering.Table

/-!
# Handlers

Applications serve routes by handlers. A handler serves one route in one
version; several may serve the same. What one handler does with a message never
keeps the others from getting it.
-/

namespace Peering

/-- A frame of an application, as it came from an active peer. -/
structure Incoming where
  peer : IdHash
  /-- The short name of the peer. -/
  display : String
  version : UInt16
  route : Route
  payload : Bytes
deriving DecidableEq, Repr

/-- How a call of a handler ends. -/
inductive Outcome where
  | ok
  | failed
  | panicked
deriving DecidableEq, Repr

structure Handler where
  /-- Tells handlers apart in reports. -/
  tag : Nat
  version : UInt16
  route : Route
  /-- What comes of a message. -/
  receive : Incoming → Outcome
  /-- What comes of being shut down. Nothing is returned that could tell of a failure. -/
  shutDown : Outcome

/-- Whether a handler is to be called for a message. -/
def Handler.serves (handler : Handler) (message : Incoming) : Bool :=
  handler.route == message.route && handler.version == message.version

/-! ## Calls that may panic -/

/-- A call that was made. -/
structure Call where
  tag : Nat
  message : Incoming
  outcome : Outcome
deriving DecidableEq

def Handler.call (handler : Handler) (message : Incoming) : Call :=
  ⟨handler.tag, message, handler.receive message⟩

/-- A shutdown that was made. -/
structure Dismissal where
  tag : Nat
  outcome : Outcome
deriving DecidableEq

def Handler.dismissal (handler : Handler) : Dismissal :=
  ⟨handler.tag, handler.shutDown⟩

/-- What is logged about handlers. -/
inductive Remark where
  | failed (route : Route) (display : String)
  | panicked (route : Route) (display : String)
  | unserved (route : Route) (version : UInt16) (display : String)
  | panickedOnShutdown (route : Route)
deriving DecidableEq

/-- What handlers were called for, and what was logged about it, each in order. -/
structure Trail where
  calls : List Call
  dismissals : List Dismissal
  remarks : List Remark
deriving DecidableEq

namespace Trail

def empty : Trail :=
  ⟨[], [], []⟩

def noteCall (trail : Trail) (call : Call) : Trail :=
  { trail with calls := trail.calls ++ [call] }

def noteDismissal (trail : Trail) (dismissal : Dismissal) : Trail :=
  { trail with dismissals := trail.dismissals ++ [dismissal] }

def noteRemark (trail : Trail) (remark : Remark) : Trail :=
  { trail with remarks := trail.remarks ++ [remark] }

end Trail

/-- Something has panicked. -/
inductive Panic where
  | raised
deriving DecidableEq

/-- The error that a handler may return. -/
inductive HandlerError where
  | reported
deriving DecidableEq

/-- Work that a panic ends. What was done before stays done. -/
abbrev Work := ExceptT Panic (StateM Trail)

/-- What work comes to, and the trail that it leaves behind one that is there already. -/
def Work.after {α : Type} (trail : Trail) (work : Work α) : Except Panic α × Trail :=
  (ExceptT.run work).run trail

/-- Work of which a panic is told to the caller, and goes no further. -/
def catchUnwind {α : Type} (work : Work α) : Work (Except Panic α) :=
  tryCatch (Except.ok <$> work) fun reason => pure (.error reason)

def log (remark : Remark) : Work Unit :=
  modify (·.noteRemark remark)

namespace Handler

/-- A handler takes a message: it returns, or panics. -/
def take (handler : Handler) (message : Incoming) : Work (Except HandlerError Unit) := do
  modify (·.noteCall (handler.call message))
  match handler.receive message with
  | .ok => pure (.ok ())
  | .failed => pure (.error .reported)
  | .panicked => throw .raised

/-- A handler is shut down: it returns, or panics. -/
def leave (handler : Handler) : Work Unit := do
  modify (·.noteDismissal handler.dismissal)
  match handler.shutDown with
  | .panicked => throw .raised
  | _ => pure ()

/-- Calls a handler for a message. If it fails or panics, that is logged, and no more. -/
def attend (handler : Handler) (message : Incoming) : Work Unit := do
  match ← catchUnwind (handler.take message) with
  | .ok (.ok ()) => pure ()
  | .ok (.error _) => log (.failed message.route message.display)
  | .error _ => log (.panicked message.route message.display)

/-- Shuts a handler down. If it panics, that is logged, and no more. -/
def dismiss (handler : Handler) : Work Unit := do
  match ← catchUnwind handler.leave with
  | .ok () => pure ()
  | .error _ => log (.panickedOnShutdown handler.route)

end Handler

/-! ## Tables of handlers -/

structure HandlerTable where
  /-- The handlers of each route, in the order in which they came. -/
  routes : Table Route (List Handler)
  /-- Every version that some handler serves. -/
  versions : Handshake.VersionSet
  /-- The handlers that have not been shut down. -/
  live : List Handler

namespace HandlerTable

def empty : HandlerTable where
  routes := []
  versions := []
  live := []

def handlersFor (table : HandlerTable) (route : Route) : List Handler :=
  (table.routes.find? route).getD []

def routeCount (table : HandlerTable) : Nat :=
  table.routes.length

/-- Adds a handler, unless it wants a route of the network core. -/
def add (table : HandlerTable) (handler : Handler) : HandlerTable :=
  if handler.route.ctrl = netCtrl then table
  else
    { routes := table.routes.insert handler.route (table.handlersFor handler.route ++ [handler])
      versions := table.versions.insert handler.version
      live := table.live ++ [handler] }

def register (table : HandlerTable) (handlers : List Handler) : HandlerTable :=
  handlers.foldl add table

/-- Calls those of the handlers that are for the version of a message; counts the calls. -/
def serveEach (message : Incoming) : List Handler → Nat → Work Nat
  | [], called => pure called
  | handler :: rest, called => do
      if handler.version != message.version then
        serveEach message rest called
      else
        handler.attend message
        serveEach message rest (called + 1)

/-- Calls every handler for the route and version of a message; tells how many there were. -/
def serve (table : HandlerTable) (message : Incoming) : Work Nat := do
  let called ← serveEach message (table.handlersFor message.route) 0
  if called = 0 then
    log (.unserved message.route message.version message.display)
  return called

/-- The calls that a message makes. -/
def dispatch (table : HandlerTable) (message : Incoming) : List Call :=
  ((table.serve message).after .empty).2.calls

def dismissEach : List Handler → Work Unit
  | [] => pure ()
  | handler :: rest => do
      handler.dismiss
      dismissEach rest

/-- Shuts down every handler that has not been shut down. -/
def retire (table : HandlerTable) : HandlerTable × Work Unit :=
  ({ table with live := [] }, dismissEach table.live)

/-- Shuts down every handler that has not been shut down; gives their tags. -/
def shutDownAll (table : HandlerTable) : HandlerTable × List Nat :=
  let (table, work) := table.retire
  (table, (work.after .empty).2.dismissals.map (·.tag))

end HandlerTable

end Peering
