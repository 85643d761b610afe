import Peering.Endpoint.Sessions
import Peering.Proofs.Handshake.RoundTrip

/-!
# Two nodes that dial each other

Both nodes run as they would on their own; between them are connections, each
opened by one of the two. A run is any order of dials, of the steps of either
node, and of the arrival of bytes and of ends of streams. Bytes of one direction
of a connection arrive in order, in pieces of any size.

A step that would give up because time has run out is left out of a run, and so
is a connection for which a registry has no room or no fresh handle.
-/

namespace Peering

/-- The two nodes. -/
inductive Side where
  | left
  | right
deriving DecidableEq, Repr

def Side.other : Side → Side
  | .left => .right
  | .right => .left

/-- A connection that one node has opened to the other. -/
structure Link where
  dialer : Side
  /-- The node that was dialed. -/
  target : Node
  /-- The address that the accepting node sees. -/
  origin : IpAddress
  /-- How many bytes each end holds until they are read. -/
  nearCapacity : Nat
  farCapacity : Nat
  /-- The handle at the dialing node, once that has offered the connection to its registry. -/
  near : Option ConnId
  /-- The handle at the accepting node, once that has taken the connection in. -/
  far : Option ConnId

/-- The handle of a connection at one of the nodes. -/
def Link.handle (link : Link) (side : Side) : Option ConnId :=
  if side = link.dialer then link.near else link.far

structure Meeting where
  node : Side → Endpoint
  links : List Link

namespace Endpoint

/-! ## What a run leaves out -/

/--
Whether the next handle is one that no socket has. Handles are 64-bit numbers that
are given out in turn, so only after all of them have been is there one that is not.
-/
def hasHandle (endpoint : Endpoint) : Bool :=
  (endpoint.transport.socket? endpoint.registry.nextConn).isNone

/-- Whether the registry has room for another connection that is shaking hands. -/
def hasPlace (endpoint : Endpoint) (direction : Direction) : Bool :=
  endpoint.registry.active.length + (endpoint.registry.pendingSet direction).length
    < endpoint.registry.limits.maxActive

/-- Whether the next step of a session is to give up because its time has run out. -/
def isLate (endpoint : Endpoint) (conn : ConnId) : Bool :=
  match endpoint.sessions.find? conn with
  | none => false
  | some session =>
      match session.stage with
      | .reading =>
          session.deadline ≤ endpoint.timer && !endpoint.isCancelled session && !session.ended
            && FrameStream.front endpoint.settings.maxFrameBody.toNat session.buffer == .incomplete
      | .answering _ left deadline =>
          deadline ≤ endpoint.timer
            && (endpoint.transport.socket? conn).any fun socket => !(socket.put left).2.isEmpty
      | _ => false

/-- Whether the oldest message of a lane has waited for too long. -/
def isStale (endpoint : Endpoint) (lane : Nat) : Bool :=
  match endpoint.transport.outbox.lane? lane with
  | none => false
  | some lane => lane.queue.head?.any
      (·.isStale (Int.ofNat endpoint.clock) endpoint.transport.outbox.limits.writeTimeout)

def onTransport (endpoint : Endpoint) (change : Transport → Transport) : Endpoint :=
  { endpoint with transport := change endpoint.transport }

end Endpoint

namespace Meeting

/-- One step of a run. -/
inductive Action where
  /-- A node opens a connection to the other one. -/
  | connect (dialer : Side) (target : Node) (origin : IpAddress) (nearCapacity farCapacity : Nat)
  /-- The dialing node offers a connection to its registry and queues its request. -/
  | register (link : Nat)
  /-- The other node takes the connection in. -/
  | accept (link : Nat)
  /-- A session takes a step; `heeds` says what it sees first when it has been told to stop. -/
  | session (side : Side) (conn : ConnId) (heeds : Bool)
  | distribute (side : Side)
  | resolve (side : Side) (lane : Nat)
  | take (side : Side) (lane : Nat)
  | write (side : Side) (lane : Nat)
  | askShut (side : Side) (conn : ConnId)
  | shut (side : Side) (conn : ConnId)
  /-- At most so many bytes that a node has written arrive at the other one. -/
  | deliver (link : Nat) (writer : Side) (most : Nat)
  /-- The end of what a node has written is noticed by the other one. -/
  | hearEnd (link : Nat) (writer : Side)
  | tick (side : Side) (duration : Nat)

/-- Two nodes that have no connection yet. -/
def start (left right : Endpoint) : Meeting where
  node := fun side => match side with
    | .left => left
    | .right => right
  links := []

def update (meeting : Meeting) (side : Side) (endpoint : Endpoint) : Meeting :=
  { meeting with node := fun other => if other = side then endpoint else meeting.node other }

def setLink (meeting : Meeting) (index : Nat) (link : Link) : Meeting :=
  { meeting with links := meeting.links.set index link }

/--
Whether a dial names the other node as it is, and neither node would take the
other for itself.
-/
def isTrue (meeting : Meeting) (dialer : Side) (target : Node) (origin : IpAddress) : Bool :=
  let near := (meeting.node dialer).registry
  let far := (meeting.node dialer.other).registry
  target.id == far.self.id && target.idHash == far.self.idHash && !near.isSelf target
    && !far.isSelf (Node.create near.self.id origin near.self.port 0)

def connect (meeting : Meeting) (link : Link) : Meeting :=
  { meeting with links := meeting.links ++ [link] }

def register (meeting : Meeting) (index : Nat) (link : Link) : Meeting :=
  let endpoint := meeting.node link.dialer
  if link.near.isNone && endpoint.hasHandle && endpoint.hasPlace .outbound then
    (meeting.update link.dialer
      (endpoint.dialedSocket link.target (Socket.create link.nearCapacity)).1).setLink index
      { link with near := some endpoint.registry.nextConn }
  else meeting

def accept (meeting : Meeting) (index : Nat) (link : Link) : Meeting :=
  let endpoint := meeting.node link.dialer.other
  if link.far.isNone && endpoint.hasHandle && endpoint.hasPlace .inbound then
    (meeting.update link.dialer.other
      (endpoint.acceptSocket link.origin (Socket.create link.farCapacity)).1).setLink index
      { link with far := some endpoint.registry.nextConn }
  else meeting

/-- Bytes that one node has written on its handle arrive on the handle of the other one. -/
def deliver (meeting : Meeting) (writer : Side) (source sink : ConnId) (most : Nat) : Meeting :=
  let (transport, bytes) := (meeting.node writer).transport.read source most
  (meeting.update writer ((meeting.node writer).onTransport fun _ => transport)).update
    writer.other ((meeting.node writer.other).receive sink bytes).1

def hearEnd (meeting : Meeting) (writer : Side) (source sink : ConnId) : Meeting :=
  let transport := (meeting.node writer).transport
  if transport.isEnded source && (transport.socket? source).all (·.unread.isEmpty) then
    meeting.update writer.other ((meeting.node writer.other).endStream sink)
  else meeting

def onLink (meeting : Meeting) (index : Nat) (change : Link → Meeting) : Meeting :=
  match meeting.links[index]? with
  | none => meeting
  | some link => change link

/-- What happens on the two handles of a connection, once it has both. -/
def onHandles (meeting : Meeting) (index : Nat) (writer : Side)
    (change : ConnId → ConnId → Meeting) : Meeting :=
  meeting.onLink index fun link =>
    match link.handle writer, link.handle writer.other with
    | some source, some sink => change source sink
    | _, _ => meeting

def act (meeting : Meeting) : Action → Meeting
  | .connect dialer target origin nearCapacity farCapacity =>
      if meeting.isTrue dialer target origin then
        meeting.connect ⟨dialer, target, origin, nearCapacity, farCapacity, none, none⟩
      else meeting
  | .register index => meeting.onLink index (meeting.register index)
  | .accept index => meeting.onLink index (meeting.accept index)
  | .session side conn heeds =>
      if (meeting.node side).isLate conn then meeting
      else meeting.update side ((meeting.node side).stepSession conn heeds)
  | .distribute side =>
      meeting.update side ((meeting.node side).onTransport (·.distribute))
  | .resolve side lane =>
      if (meeting.node side).isStale lane then meeting
      else meeting.update side ((meeting.node side).onTransport
        (·.resolve (Int.ofNat (meeting.node side).clock) lane))
  | .take side lane => meeting.update side ((meeting.node side).onTransport (·.take lane))
  | .write side lane => meeting.update side ((meeting.node side).onTransport (·.write lane))
  | .askShut side conn => meeting.update side ((meeting.node side).onTransport (·.askShut conn))
  | .shut side conn => meeting.update side ((meeting.node side).onTransport (·.shut conn))
  | .deliver index writer most =>
      meeting.onHandles index writer fun source sink => meeting.deliver writer source sink most
  | .hearEnd index writer => meeting.onHandles index writer (meeting.hearEnd writer)
  | .tick side duration =>
      let endpoint := meeting.node side
      meeting.update side { endpoint with
        clock := endpoint.clock + duration
        transport := { endpoint.transport with timer := endpoint.transport.timer + duration } }

def run (meeting : Meeting) (actions : List Action) : Meeting :=
  actions.foldl act meeting

/-! ## Rest and agreement -/

/--
Nothing is under way: every connection is taken in at both ends, nothing is
queued, no session has something to do, no bytes wait for a session, and no end
of a connection is closed while a session still reads the other one.
-/
structure IsQuiet (meeting : Meeting) : Prop where
  taken : ∀ link ∈ meeting.links, link.near.isSome = true ∧ link.far.isSome = true
  sent : ∀ side, (meeting.node side).transport.outbox.queue = [] ∧
    ∀ lane ∈ (meeting.node side).transport.outbox.lanes, lane = WriterLane.empty
  waiting : ∀ side conn session, (meeting.node side).sessions.find? conn = some session →
    (match session.stage with | .reading => True | _ => False) ∧
      FrameStream.front (meeting.node side).settings.maxFrameBody.toNat session.buffer = .incomplete
  arrived : ∀ link ∈ meeting.links, ∀ writer source sink socket, link.handle writer = some source →
    link.handle writer.other = some sink → (meeting.node writer.other).sessions.has sink = true →
    (meeting.node writer).transport.socket? source = some socket → socket.unread = []
  heard : ∀ link ∈ meeting.links, ∀ writer source sink, link.handle writer = some source →
    link.handle writer.other = some sink → (meeting.node writer).registry.isClosed source = true →
    (meeting.node writer.other).sessions.has sink = false

/-- A node is active with the other one on a connection, and has no other connection. -/
def IsOnlyOn (endpoint : Endpoint) (peer : IdHash) (conn : ConnId) : Prop :=
  (∃ active, endpoint.registry.active = [(peer, active)] ∧ active.conn.id = conn) ∧
    endpoint.registry.outbound = [] ∧ endpoint.registry.inbound = []

/-- Both nodes are active with each other on the same connection, and on no other. -/
def Agrees (meeting : Meeting) : Prop :=
  ∃ link ∈ meeting.links, ∃ near far, link.near = some near ∧ link.far = some far ∧
    IsOnlyOn (meeting.node link.dialer)
      (meeting.node link.dialer.other).registry.self.idHash near ∧
    IsOnlyOn (meeting.node link.dialer.other)
      (meeting.node link.dialer).registry.self.idHash far

/-! ## Nodes that can meet -/

/-- A node as it is before it meets anybody. -/
structure IsUnmet (endpoint : Endpoint) : Prop where
  self : endpoint.registry.self.idHash = endpoint.registry.self.id.hash
  outbound : endpoint.registry.outbound = []
  inbound : endpoint.registry.inbound = []
  active : endpoint.registry.active = []
  temp : (endpoint.registry.temp.map (·.idHash)).Nodup
  bans : endpoint.registry.bans = []
  closed : endpoint.registry.closed = []
  teardowns : endpoint.registry.teardowns = []
  sockets : endpoint.transport.sockets = []
  outbox : endpoint.transport.outbox = Outbox.create endpoint.transport.outbox.limits
  lanes : 0 < endpoint.transport.outbox.limits.lanes
  sendQueue : 0 < endpoint.transport.outbox.limits.sendQueue
  laneQueue : 0 < endpoint.transport.outbox.limits.laneQueue
  backlog : 0 < endpoint.transport.outbox.limits.backlog
  sessions : endpoint.sessions = []
  going : endpoint.stopping = false
  templates : endpoint.templates = Endpoint.buildTemplates endpoint.settings endpoint.registry.self
    endpoint.handlers.versions

/--
A node can shake hands with another one: its request passes the other's checks,
and each accepts frames of the length that the other sends.
-/
structure CanAsk (dialer acceptor : Endpoint) : Prop where
  check : (Endpoint.profile dialer.settings dialer.registry.self
    dialer.handlers.versions).request.cut.check acceptor.settings.chainId
    acceptor.handlers.versions = .ok ()
  sendable : dialer.templates.request.payload.length ≤ dialer.transport.outbox.limits.maxBody
  request : dialer.templates.request.payload.length ≤ acceptor.settings.maxFrameBody.toNat
  accept : acceptor.templates.accept.payload.length ≤ dialer.settings.maxFrameBody.toNat
  reject : acceptor.templates.reject.payload.length ≤ dialer.settings.maxFrameBody.toNat

end Meeting

end Peering
