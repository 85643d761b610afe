import Peering.Endpoint.Frames
import Peering.Frame.Stream

/-!
# How sessions run

A session takes one step at a time: it reads a frame and does what the frame
asks, or goes on with the answer to a handshake. When it is over, whatever the
reason, its connection leaves the registry.

`Endpoint.settle` lets sessions, delivery and dispatch run until nothing moves.
-/

namespace Peering

namespace Endpoint

/-! ## One step of a session -/

def release (endpoint : Endpoint) (session : Session) : Endpoint :=
  { endpoint with
    transport := endpoint.transport.onSocket session.conn (·.release .session) }

/-- Whether a session has locked its socket. -/
def hasSocket (endpoint : Endpoint) (session : Session) : Bool :=
  (endpoint.transport.socket? session.conn).any (·.isHeldBy .session)

/-- Starts to write the answer to a request on the locked socket. -/
def answer (endpoint : Endpoint) (session : Session) (accepted : Bool) : Session :=
  let frame := if accepted then endpoint.templates.accept else endpoint.templates.reject
  { session with
    stage := .answering accepted frame.encode
      (endpoint.timer + endpoint.settings.writeTimeout) }

/-- The socket is held while the peer becomes active, so that the acceptance comes first. -/
def stepAccepting (endpoint : Endpoint) (session : Session) (peer : Node) : Endpoint × Session :=
  if !endpoint.hasSocket session then (endpoint, session)
  else match endpoint.registry.promoteToActive endpoint.clock session.conn .inbound peer with
    | .error _ => (endpoint.release session).refuse session
    | .ok registry =>
        let endpoint := endpoint.setRegistry registry
        (endpoint, endpoint.answer (session.activate peer) true)

def stepRefusing (endpoint : Endpoint) (session : Session) : Endpoint × Session :=
  if endpoint.hasSocket session then (endpoint, endpoint.answer session false)
  else (endpoint, session)

/-- After an acceptance the session reads on; after a rejection it is over. -/
def afterAnswer (endpoint : Endpoint) (session : Session) (accepted : Bool) : Session :=
  if accepted then session.resume (endpoint.timer + endpoint.settings.readTimeout)
  else session.quit

def stepAnswering (endpoint : Endpoint) (session : Session) (accepted : Bool) (left : Bytes)
    (deadline : Nat) : Endpoint × Session :=
  match endpoint.transport.socket? session.conn with
  | none => (endpoint, session.quit)
  | some socket =>
      if socket.isBroken then (endpoint.release session, session.quit)
      else
        let (socket, left) := socket.put left
        let endpoint := { endpoint with
          transport := endpoint.transport.onSocket session.conn fun _ => socket }
        if left.isEmpty then (endpoint.release session, endpoint.afterAnswer session accepted)
        else if deadline ≤ endpoint.timer then (endpoint.release session, session.quit)
        else (endpoint, { session with stage := .answering accepted left deadline })

/-- Whether a session has been told to stop. -/
def isCancelled (endpoint : Endpoint) (session : Session) : Bool :=
  endpoint.stopping || endpoint.registry.isClosed session.conn

/--
Reads the next frame, if it is there. When the session has been told to stop and there
is also something to read, either may be seen first; `heeds` says whether it is the
order to stop.
-/
def stepReading (endpoint : Endpoint) (session : Session) (heeds : Bool) : Endpoint × Session :=
  if endpoint.isCancelled session && heeds then (endpoint, session.quit)
  else match FrameStream.front endpoint.settings.maxFrameBody.toNat session.buffer with
    | .frame frame rest =>
        let deadline := endpoint.timer + endpoint.settings.readTimeout
        endpoint.onFrame { session with buffer := rest, deadline := deadline } frame
    | .oversized _ => (endpoint.onOversized session, session.quit)
    | .incomplete =>
        if endpoint.isCancelled session || session.ended || session.deadline ≤ endpoint.timer then
          (endpoint, session.quit)
        else (endpoint, session)

def advanceSession (endpoint : Endpoint) (session : Session) (heeds : Bool) :
    Endpoint × Session :=
  match session.stage with
  | .reading => endpoint.stepReading session heeds
  | .accepting peer => endpoint.stepAccepting session peer
  | .refusing => endpoint.stepRefusing session
  | .answering accepted left deadline => endpoint.stepAnswering session accepted left deadline
  | .over => (endpoint, session)

/-- A session that is over takes its connection with it. -/
def keepSession (endpoint : Endpoint) (session : Session) : Endpoint :=
  if session.isOver then
    { endpoint with sessions := endpoint.sessions.erase session.conn }.setRegistry
      (endpoint.registry.removeConn session.conn).1
  else
    { endpoint with sessions := endpoint.sessions.insert session.conn session }

/-- One step of the session that reads a socket. -/
def stepSession (endpoint : Endpoint) (conn : ConnId) (heeds : Bool) : Endpoint :=
  match endpoint.sessions.find? conn with
  | none => endpoint
  | some session =>
      let (endpoint, session) := endpoint.advanceSession session heeds
      endpoint.keepSession session

/-! ## Running -/

def sessionLoad (endpoint : Endpoint) (conn : ConnId) : Nat :=
  match endpoint.sessions.find? conn with
  | none => 0
  | some session => session.load

/-- A session goes on until it has to wait; it sees an order to stop first. -/
def runSession (endpoint : Endpoint) (conn : ConnId) : Endpoint :=
  let next := endpoint.stepSession conn true
  if next.sessionLoad conn < endpoint.sessionLoad conn then next.runSession conn else next
termination_by endpoint.sessionLoad conn

/-- How much sessions and delivery have before them. -/
def load (endpoint : Endpoint) : Nat :=
  let outbox := endpoint.transport.outbox
  endpoint.sessions.values.foldr (fun session load => 4 * session.load + load) 0
    + 4 * outbox.queue.length + 3 * (outbox.lanes.flatMap (·.queue)).length
    + endpoint.transport.pending

/-- Every session, all of delivery and every dispatch lane get a turn. -/
def round (endpoint : Endpoint) : Endpoint × List Call :=
  let endpoint := endpoint.sessions.keys.foldl runSession endpoint
  let transport := endpoint.transport.settle (Int.ofNat endpoint.clock)
  let (dispatcher, calls) := endpoint.dispatcher.run endpoint.handlers
  ({ endpoint with transport := transport, dispatcher := dispatcher }, calls)

/-- Runs until a turn finishes nothing; gives the calls of handlers that were made. -/
def settle (endpoint : Endpoint) : Endpoint × List Call :=
  let (next, calls) := endpoint.round
  if next.load < endpoint.load then
    let (last, later) := next.settle
    (last, calls ++ later)
  else (next, calls)
termination_by endpoint.load

/-! ## Sockets come, bring bytes and go -/

/-- The next handle, for a socket that is cancelled at once when the node is stopping. -/
def openConn (endpoint : Endpoint) (socket : Socket) : Endpoint × ConnId :=
  let (conn, registry) := endpoint.registry.takeConn
  let registry := if endpoint.stopping then registry.cancel conn else registry
  let endpoint := endpoint.setRegistry registry
  ({ endpoint with transport := endpoint.transport.addSocket conn socket }, conn)

def addSession (endpoint : Endpoint) (session : Session) : Endpoint :=
  { endpoint with sessions := endpoint.sessions.insert session.conn session }

/-- Takes in a socket that a peer has opened. -/
def acceptSocket (endpoint : Endpoint) (ip : IpAddress) (socket : Socket) :
    Endpoint × Except RegistryError ConnId :=
  let (endpoint, conn) := endpoint.openConn socket
  let (registry, result) := endpoint.registry.promoteToInbound endpoint.clock conn
  let endpoint := endpoint.setRegistry registry
  match result with
  | .error error => (endpoint, .error error)
  | .ok () =>
      let deadline := endpoint.timer + endpoint.settings.readTimeout
      (endpoint.addSession (Session.accepted conn ip endpoint.clock deadline), .ok conn)

/-- Takes in a socket that we have opened to a node, and queues our request. -/
def dialedSocket (endpoint : Endpoint) (node : Node) (socket : Socket) :
    Endpoint × Except RegistryError ConnId :=
  let (endpoint, conn) := endpoint.openConn socket
  let (registry, result) := endpoint.registry.promoteToOutbound endpoint.clock node conn
  let endpoint := endpoint.setRegistry registry
  match result with
  | .error error => (endpoint, .error error)
  | .ok () =>
      let deadline := endpoint.timer + endpoint.settings.readTimeout
      let endpoint := endpoint.addSession (Session.dialing conn node endpoint.clock deadline)
      ((endpoint.sendTo (.outbound conn) endpoint.templates.request).1, .ok conn)

/-- Bytes arrive from a peer; tells whether someone still reads the socket. -/
def receive (endpoint : Endpoint) (conn : ConnId) (bytes : Bytes) : Endpoint × Bool :=
  match endpoint.sessions.find? conn with
  | none => (endpoint, false)
  | some session =>
      (endpoint.addSession { session with buffer := session.buffer ++ bytes }, true)

/-- A peer ends its stream. -/
def endStream (endpoint : Endpoint) (conn : ConnId) : Endpoint :=
  { endpoint with
    sessions := endpoint.sessions.modify conn fun session => { session with ended := true } }

/-! ## Stopping -/

/-- Tells everything to stop, for good. Sockets are dropped without being shut. -/
def cancelAll (endpoint : Endpoint) : Endpoint :=
  let registry := endpoint.sessions.keys.foldl Registry.cancel endpoint.registry
  { endpoint with
    stopping := true
    transport := { endpoint.transport with registry := registry }.stop
    dispatcher := endpoint.dispatcher.stop
    tasks := [] }

/-- Shuts down the handlers that have not been; gives their tags. -/
def shutDownHandlers (endpoint : Endpoint) : Endpoint × List Nat :=
  let (handlers, tags) := endpoint.handlers.shutDownAll
  ({ endpoint with handlers := handlers }, tags)

end Endpoint

end Peering
