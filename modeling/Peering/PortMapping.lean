import Peering.Address.Text
import Peering.Node

/-!
# Port mapping on the local router

A node behind a router may ask it to forward the listening port. What there is
around the host, and what the router answers, is given; nothing is mapped when
the feature is off or no router can be reached.
-/

namespace Peering

namespace PortMapping

/-- A lease is never shorter than this many seconds. -/
def shortestLease : Nat := 600

/-- A lease covers two refresh periods, within what 32 bits can say. -/
def leaseSeconds (refresh : Nat) : Nat :=
  max (min (refresh / (1000 * millisecond) * 2) 0xffffffff) shortestLease

inductive Error where
  | disabled
  | noLocalAddress
  | gateway (cause : String)
  | mapping (cause : String)
  | task (cause : String)
deriving DecidableEq, Repr

def Error.message : Error → String
  | .disabled => "UPnP disabled"
  | .noLocalAddress => "No routable local IPv4 address"
  | .gateway cause => "UPnP gateway not found: " ++ cause
  | .mapping cause => "Port mapping failed: " ++ cause
  | .task cause => "UPnP task failed: " ++ cause

/-- What there is around a host. -/
structure Surroundings where
  /-- Our address on the way to everyone else, if that goes by IPv4. -/
  route : Option (BitVec 32)
  /--
  What becomes of a request to forward a port to us for so many seconds: where the
  router is, and its address on the other side.
  -/
  router : SocketAddress → Nat → Except Error (SocketAddress × IpAddress)

/-- A host from which nobody can be reached. -/
def Surroundings.none : Surroundings where
  route := Option.none
  router := fun _ _ => .error (.gateway "no response")

structure Status where
  enabled : Bool
  gateway : Option SocketAddress
  externalIp : Option IpAddress
  mappedPort : Option UInt16

structure Mapper where
  enabled : Bool
  lease : Nat
  /-- Our address on the router's side, once mapped. -/
  mapped : Option SocketAddress
  gateway : Option SocketAddress
  externalIp : Option IpAddress

namespace Mapper

def create (enabled : Bool) (refresh : Nat) : Mapper where
  enabled := enabled
  lease := leaseSeconds refresh
  mapped := none
  gateway := none
  externalIp := none

def status (mapper : Mapper) : Status where
  enabled := mapper.enabled
  gateway := mapper.gateway
  externalIp := mapper.externalIp
  mappedPort := mapper.mapped.map (·.port)

/-- Asks the router to forward a port, and keeps the mapping that it grants. -/
def mapPort (mapper : Mapper) (surroundings : Surroundings) (port : UInt16) :
    Mapper × Except Error IpAddress :=
  if !mapper.enabled then (mapper, .error .disabled)
  else match surroundings.route with
    | none => (mapper, .error .noLocalAddress)
    | some route =>
        let inside : SocketAddress := ⟨.v4 route, port⟩
        match surroundings.router inside mapper.lease with
        | .error error => (mapper, .error error)
        | .ok (gateway, outside) =>
            ({ mapper with
              mapped := some inside
              gateway := some gateway
              externalIp := some outside }, .ok outside)

/-- What asking for a mapping comes to. -/
def map (mapper : Mapper) (surroundings : Surroundings := .none) (port : UInt16 := 0) :
    Except Error IpAddress :=
  (mapper.mapPort surroundings port).2

/-- Forgets the mapping. -/
def unmap (mapper : Mapper) : Mapper :=
  { mapper with mapped := none, gateway := none, externalIp := none }

end Mapper

end PortMapping

end Peering
