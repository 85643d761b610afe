import Peering.Destination
import Peering.Node
import Peering.Table

/-!
# Registry

Every known peer is in one of four sets: temp (candidates that wait to be
dialed), outbound (dialed, handshake pending), inbound (accepted, handshake
pending) and active (handshake complete). The registry owns the connections in
the last three; it also remembers bans, boot nodes and their addresses.

This module has the state and the questions that can be asked of it; the moves
between the sets are in `Peering.Registry.Moves`.
-/

namespace Peering

inductive RegistryError where
  | full
  | isSelf
  | banned
  | alreadyKnown
  | alreadyActive
  | alreadyConnected
  | notFound (conn : ConnId)
  | notSeed
deriving DecidableEq, Repr

def RegistryError.message : RegistryError → String
  | .full => "Registry full"
  | .isSelf => "Node is self"
  | .banned => "Node is banned"
  | .alreadyKnown => "Node already known"
  | .alreadyActive => "Node already active"
  | .alreadyConnected => "Node already connected"
  | .notFound conn => "Connection " ++ toString conn ++ " not found"
  | .notSeed => "Not a seed node"

/-- Which side opened the socket. -/
inductive Direction where
  | inbound
  | outbound
deriving DecidableEq, Repr

/-- Which set a node is in. -/
inductive NodeSet where
  | temp
  | outbound
  | inbound
  | active
deriving DecidableEq, Repr

/-- An open socket as the registry sees it. -/
structure Connection where
  id : ConnId
  openedAt : Nat

/-- Who we are, so that we do not talk to ourselves. -/
structure Identity where
  id : NodeId
  idHash : IdHash
  ip : IpAddress
  port : UInt16

def Identity.create (id : NodeId) (ip : IpAddress) (port : UInt16) : Identity where
  id := id
  idHash := id.hash
  ip := ip
  port := port

structure Limits where
  maxTemp : Nat
  maxActive : Nat
  banDuration : Nat
  tempTtl : Nat
  handshakeTimeout : Nat

/-- A connection whose handshake is not complete. -/
structure Pending where
  conn : Connection
  /-- The node that was dialed; an accepted socket has none yet. -/
  node : Option Node

/-- Whether a pending connection is one with this peer. -/
def Pending.isWith (pending : Pending) (peer : IdHash) : Bool :=
  pending.node.any (·.idHash == peer)

/-- A connection whose handshake is complete. -/
structure Active where
  node : Node
  conn : Connection

/-- Sizes of the sets at one instant. -/
structure Counts where
  temp : Nat
  outbound : Nat
  inbound : Nat
  active : Nat
  banned : Nat
deriving DecidableEq, Repr

structure Registry where
  self : Identity
  limits : Limits
  /-- The handle that the next socket gets. -/
  nextConn : ConnId
  /-- Candidates, oldest first. -/
  temp : List Node
  outbound : Table ConnId Pending
  inbound : Table ConnId Pending
  active : Table IdHash Active
  /-- When the ban of a node ends. -/
  bans : Table IdHash Nat
  bootNodes : List Node
  seeds : List IpAddress
  /-- Connections whose reader has been told to stop. -/
  closed : List ConnId
  /-- Closed connections whose write half is to be shut in an orderly way. -/
  teardowns : List ConnId

namespace Registry

def create (self : Identity) (limits : Limits) : Registry where
  self := self
  limits := limits
  nextConn := 1
  temp := []
  outbound := []
  inbound := []
  active := []
  bans := []
  bootNodes := []
  seeds := []
  closed := []
  teardowns := []

/-- Records the port that was bound when any port would do. -/
def setPort (registry : Registry) (port : UInt16) : Registry :=
  { registry with self := { registry.self with port := port } }

/-- Hands out the next handle. -/
def takeConn (registry : Registry) : ConnId × Registry :=
  (registry.nextConn, { registry with nextConn := registry.nextConn + 1 })

/-! ## Questions about a node -/

/-- A node is us if it has our id, or our id hash and port, or our address and port. -/
def isSelf (registry : Registry) (node : Node) : Bool :=
  let self := registry.self
  node.id == self.id
    || (node.idHash == self.idHash && node.port == self.port)
    || (node.ip == self.ip && node.port == self.port && !self.ip.isUnspecified)

def inTemp (registry : Registry) (peer : IdHash) : Bool :=
  registry.temp.any (·.idHash == peer)

def isActive (registry : Registry) (peer : IdHash) : Bool :=
  registry.active.has peer

def isBanned (registry : Registry) (now : Nat) (peer : IdHash) : Bool :=
  (registry.bans.find? peer).any (now < ·)

def isSeed (registry : Registry) (ip : IpAddress) : Bool :=
  registry.seeds.contains ip

/-- The socket on which this peer is being dialed. -/
def dialTo? (registry : Registry) (peer : IdHash) : Option ConnId :=
  registry.outbound.keyWhere? (·.isWith peer)

def isDialed (registry : Registry) (peer : IdHash) : Bool :=
  (registry.dialTo? peer).isSome

/-- A node is worth dialing unless it is us, banned, active or being dialed already. -/
def validate (registry : Registry) (now : Nat) (node : Node) : Bool :=
  !registry.isSelf node
    && !registry.isBanned now node.idHash
    && !registry.isActive node.idHash
    && !registry.isDialed node.idHash

/-- Every set that a peer is in. -/
def membership (registry : Registry) (peer : IdHash) : List NodeSet :=
  (if registry.inTemp peer then [.temp] else [])
    ++ (if registry.isDialed peer then [.outbound] else [])
    ++ (if (registry.inbound.keyWhere? (·.isWith peer)).isSome then [.inbound] else [])
    ++ (if registry.isActive peer then [.active] else [])

/-! ## Questions about connections -/

def isClosed (registry : Registry) (conn : ConnId) : Bool :=
  registry.closed.contains conn

/-- The active peer on a socket. -/
def activeOn? (registry : Registry) (conn : ConnId) : Option IdHash :=
  registry.active.keyWhere? (·.conn.id == conn)

/-- Whether some set holds the socket. -/
def holds (registry : Registry) (conn : ConnId) : Bool :=
  registry.outbound.has conn || registry.inbound.has conn || (registry.activeOn? conn).isSome

/-- The socket that a destination stands for right now, unless it has been closed. -/
def writerFor (registry : Registry) (dest : Destination) : Option ConnId :=
  let conn : Option ConnId := match dest with
    | .active peer => (registry.active.find? peer).map (·.conn.id)
    | .inbound conn => (registry.inbound.find? conn).map (·.conn.id)
    | .outbound conn => (registry.outbound.find? conn).map (·.conn.id)
  conn.filter fun conn => !registry.isClosed conn

/-! ## Views -/

def activeNode? (registry : Registry) (peer : IdHash) : Option Node :=
  (registry.active.find? peer).map (·.node)

def activeNodes (registry : Registry) : List Node :=
  registry.active.values.map (·.node)

def counts (registry : Registry) (now : Nat) : Counts where
  temp := registry.temp.length
  outbound := registry.outbound.length
  inbound := registry.inbound.length
  active := registry.active.length
  banned := registry.bans.countP fun entry => now < entry.2

/-- The mean of the measured latencies of active nodes, rounded down. -/
def averageLatencyMs (registry : Registry) : Option UInt64 :=
  let samples := registry.activeNodes.filterMap (·.latencyMs)
  if samples.isEmpty then none
  else some (samples.foldl (· + ·) 0 / UInt64.ofNat samples.length)

/-- Active nodes not heard from for at least `idle`. -/
def silent (registry : Registry) (now idle : Nat) : List IdHash :=
  (registry.active.select fun active => idle ≤ now - active.node.lastSeen).keys

end Registry

end Peering
