/-!
# Lanes

Traffic is spread over a fixed number of lanes by a key, so that equal keys
always share a lane and keep their order.
-/

namespace Peering

namespace Lane

/-- The finalizer of MurmurHash3, a permutation of the 32-bit words. -/
def mix (key : UInt32) : UInt32 :=
  let key := (key ^^^ (key >>> 16)) * 0x85ebca6b
  let key := (key ^^^ (key >>> 13)) * 0xc2b2ae35
  key ^^^ (key >>> 16)

/-- The lane of a key; with no lanes it is lane 0. -/
def forKey (key : UInt32) (lanes : Nat) : Nat :=
  (mix key).toNat % max lanes 1

end Lane

end Peering
