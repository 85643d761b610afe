import Peering.Proofs.Delivery.Freight
import Peering.Proofs.Meeting.Scene

/-!
# Nodes that connect to each other

Any number of nodes, each of which runs as it would on its own. Any of them opens
connections to any other, for a candidate whose address has led it there; the id that
the candidate has is only what somebody has said about the node at that address. A run is
any order of connections, of the steps of the nodes and of their tasks, of changes that
are made to them, and of the arrival of bytes and of ends of streams.
-/

namespace Peering

/-- A connection that one node has opened to another. -/
structure Line (ι : Type) where
  dialer : ι
  acceptor : ι
  /-- The candidate that was dialed. -/
  target : Node
  /-- The address that the accepting node sees. -/
  origin : IpAddress
  /-- How many bytes each end holds until they are read. -/
  nearCapacity : Nat
  farCapacity : Nat
  /-- The handle at the dialing node, once that has offered the connection to its registry. -/
  near : Option ConnId
  /-- The handle at the accepting node, once that has taken the connection in. -/
  far : Option ConnId

/-- The sockets of a connection. -/
def Line.ends {ι : Type} (line : Line ι) : List (ι × ConnId) :=
  line.near.toList.map (line.dialer, ·) ++ line.far.toList.map (line.acceptor, ·)

/-- Builds the frames of the handshake anew, after the port or the versions have changed. -/
def Endpoint.announce (endpoint : Endpoint) (port : UInt16) (versions : Handshake.VersionSet) :
    Endpoint :=
  let self := { endpoint.registry.self with port := port }
  { endpoint with templates := Endpoint.buildTemplates endpoint.settings self versions }

/-- Takes over from another endpoint what has nothing to do with connections. -/
def Endpoint.adopt (endpoint other : Endpoint) : Endpoint :=
  { endpoint with
    handlers := other.handlers
    violations := other.violations
    dispatcher := other.dispatcher
    requested := other.requested
    tasks := other.tasks
    running := other.running
    shuffle := other.shuffle }

/-- Gives at most so many bytes that are unread on a socket to the other end of it. -/
def Endpoint.handOver (endpoint : Endpoint) (conn : ConnId) (most : Nat) : Endpoint × Bytes :=
  (endpoint.onTransport fun transport => (transport.read conn most).1,
    (endpoint.transport.read conn most).2)

structure Network (ι : Type) where
  node : ι → Endpoint
  lines : List (Line ι)

namespace Network

/-- One step of a run. -/
inductive Action (ι : Type) where
  /-- A node opens a connection for a candidate, and another one is at the address. -/
  | connect (dialer acceptor : ι) (target : Node) (origin : IpAddress)
    (nearCapacity farCapacity : Nat)
  /-- The dialing node offers a connection to its registry and queues its request. -/
  | register (line : Nat)
  /-- The other node takes the connection in. -/
  | accept (line : Nat)
  /-- The session of a socket takes a step; `heeds` says whether an order to stop is seen first. -/
  | session (node : ι) (conn : ConnId) (heeds : Bool)
  /-- A task of delivery takes a step, or something is done to the queues or the registry. -/
  | transport (node : ι) (action : Transport.Action)
  /-- At most so many bytes that the dialing node has written arrive at the other one. -/
  | carryOut (line most : Nat)
  /-- At most so many bytes that the accepting node has written arrive at the other one. -/
  | carryBack (line most : Nat)
  /-- The session of a socket learns that the stream has ended. -/
  | endStream (node : ι) (conn : ConnId)
  | tick (node : ι) (duration : Nat)
  | announce (node : ι) (port : UInt16) (versions : Handshake.VersionSet)
  /-- The handlers, the counts and the tasks of a node become any others. -/
  | adopt (node : ι) (other : Endpoint)
  /-- A node is told to stop. -/
  | halt (node : ι)

variable {ι : Type}

/-- Nodes without any connection. -/
def start (opening : ι → Endpoint) : Network ι where
  node := opening
  lines := []

def ends (network : Network ι) : List (ι × ConnId) :=
  network.lines.flatMap Line.ends

def setLine (network : Network ι) (index : Nat) (line : Line ι) : Network ι :=
  { network with lines := network.lines.set index line }

def onLine (network : Network ι) (index : Nat) (change : Line ι → Network ι) : Network ι :=
  match network.lines[index]? with
  | none => network
  | some line => change line

variable [DecidableEq ι]

def update (network : Network ι) (node : ι) (endpoint : Endpoint) : Network ι :=
  { network with node := fun other => if other = node then endpoint else network.node other }

def register (network : Network ι) (index : Nat) (line : Line ι) : Network ι :=
  let endpoint := network.node line.dialer
  if line.near.isNone && endpoint.hasHandle then
    (network.update line.dialer
      (endpoint.dialedSocket line.target (Socket.create line.nearCapacity)).1).setLine index
      { line with near := some endpoint.registry.nextConn }
  else network

def accept (network : Network ι) (index : Nat) (line : Line ι) : Network ι :=
  let endpoint := network.node line.acceptor
  if line.far.isNone && endpoint.hasHandle then
    (network.update line.acceptor
      (endpoint.acceptSocket line.origin (Socket.create line.farCapacity)).1).setLine index
      { line with far := some endpoint.registry.nextConn }
  else network

/-- Bytes that one node has written on a socket arrive at the socket of another one. -/
def carry (network : Network ι) (writer : ι) (source : ConnId) (reader : ι) (sink : ConnId)
    (most : Nat) : Network ι :=
  let (endpoint, bytes) := (network.node writer).handOver source most
  let network := network.update writer endpoint
  network.update reader ((network.node reader).receive sink bytes).1

/-- What happens on the two handles of a connection, once it has both. -/
def onHandles (network : Network ι) (index : Nat)
    (change : Line ι → ConnId → ConnId → Network ι) : Network ι :=
  network.onLine index fun line =>
    match line.near, line.far with
    | some near, some far => change line near far
    | _, _ => network

def act (network : Network ι) : Action ι → Network ι
  | .connect dialer acceptor target origin nearCapacity farCapacity =>
      { network with lines := network.lines ++
        [⟨dialer, acceptor, target, origin, nearCapacity, farCapacity, none, none⟩] }
  | .register index => network.onLine index (network.register index)
  | .accept index => network.onLine index (network.accept index)
  | .session node conn heeds => network.update node ((network.node node).stepSession conn heeds)
  | .transport node action =>
      if action.isInternal then
        network.update node ((network.node node).onTransport (·.act action))
      else network
  | .carryOut index most => network.onHandles index fun line near far =>
      network.carry line.dialer near line.acceptor far most
  | .carryBack index most => network.onHandles index fun line near far =>
      network.carry line.acceptor far line.dialer near most
  | .endStream node conn => network.update node ((network.node node).endStream conn)
  | .tick node duration =>
      let endpoint := network.node node
      network.update node { endpoint with
        clock := endpoint.clock + duration
        transport := { endpoint.transport with timer := endpoint.transport.timer + duration } }
  | .announce node port versions =>
      network.update node ((network.node node).announce port versions)
  | .adopt node other => network.update node ((network.node node).adopt other)
  | .halt node => network.update node (network.node node).cancelAll

def run (network : Network ι) (actions : List (Action ι)) : Network ι :=
  actions.foldl act network

end Network

end Peering
