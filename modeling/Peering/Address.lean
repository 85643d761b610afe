import Peering.Bytes

/-!
# Internet addresses

An address is its bits; the octets on the wire and the text forms are read off them.
-/

namespace Peering

inductive IpAddress where
  | v4 (bits : BitVec 32)
  | v6 (bits : BitVec 128)
deriving DecidableEq, Repr

namespace IpAddress

/-- The address that stands for "any", which no peer has. -/
def isUnspecified : IpAddress → Bool
  | .v4 bits => bits == 0
  | .v6 bits => bits == 0

/-- The octets in network order. -/
def octets : IpAddress → Bytes
  | .v4 bits => bigEndian 4 bits.toNat
  | .v6 bits => bigEndian 16 bits.toNat

end IpAddress

/-- Where a peer listens. -/
structure SocketAddress where
  ip : IpAddress
  port : UInt16
deriving DecidableEq, Repr

end Peering
