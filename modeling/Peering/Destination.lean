import Peering.Lane
import Peering.Node

/-!
# Destinations

An outgoing frame is addressed to an active node, or to a socket that is still
shaking hands. All frames of one destination go through one lane.
-/

namespace Peering

inductive Destination where
  /-- The active node with this id hash. -/
  | active (peer : IdHash)
  /-- An accepted socket before it is active. -/
  | inbound (conn : ConnId)
  /-- A dialed socket before it is active. -/
  | outbound (conn : ConnId)
deriving DecidableEq, Repr

namespace Destination

/-- A handle folded to 32 bits. -/
def foldConn (conn : ConnId) : UInt32 :=
  (conn ^^^ (conn >>> 32)).toUInt32

def laneKey : Destination → UInt32
  | .active peer => peer
  | .inbound conn => foldConn conn
  | .outbound conn => foldConn conn

def lane (dest : Destination) (lanes : Nat) : Nat :=
  Lane.forKey dest.laneKey lanes

end Destination

end Peering
