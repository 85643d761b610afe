import Peering.Address.Text
import Peering.NodeId

/-!
# Nodes

What is known about a peer, whether it is only a candidate or already connected.
Instants and durations are counted in nanoseconds.
-/

namespace Peering

/-- The handle of one socket; handles are never reused. -/
abbrev ConnId := UInt64

/-- One millisecond, in the unit of instants and durations. -/
def millisecond : Nat := 1000000

structure Node where
  id : NodeId
  idHash : IdHash
  ip : IpAddress
  port : UInt16
  /-- Came from the configured boot list. -/
  fromBootList : Bool
  lastSeen : Nat
  /-- When the node entered the set it is in. -/
  since : Nat
  bestBlock : UInt64
  totalDifficulty : BitVec 128
  /-- The software revision the peer advertised. -/
  revision : String
  /-- Last measured round trip in milliseconds. -/
  latencyMs : Option UInt64
  conn : Option ConnId

namespace Node

/-- A node of which only identity and address are known. -/
def create (id : NodeId) (ip : IpAddress) (port : UInt16) (now : Nat) : Node where
  id := id
  idHash := id.hash
  ip := ip
  port := port
  fromBootList := false
  lastSeen := now
  since := now
  bestBlock := 0
  totalDifficulty := 0
  revision := ""
  latencyMs := none
  conn := none

def display (node : Node) : String :=
  node.id.display

def address (node : Node) : SocketAddress :=
  ⟨node.ip, node.port⟩

end Node

end Peering
