import Peering.Address.Text

/-!
# The host

What the operating system answers when a node asks for sockets. The host here
has no privileges and its network is down: an IPv4 address, or every address at
once, can be bound at any port that is free and not reserved, and nobody can be
reached.
-/

namespace Peering

/-- Why the operating system refuses. -/
inductive OsError where
  | notFound
  | permissionDenied
  | addressInUse
  | addressNotAvailable
  | networkUnreachable
  | tryAgain
deriving DecidableEq, Repr

namespace OsError

/-- The number of the error. -/
def code : OsError → Nat
  | .notFound => 2
  | .permissionDenied => 13
  | .addressInUse => 98
  | .addressNotAvailable => 99
  | .networkUnreachable => 101
  | .tryAgain => 11

/-- The name of its kind. -/
def kind : OsError → String
  | .notFound => "NotFound"
  | .permissionDenied => "PermissionDenied"
  | .addressInUse => "AddrInUse"
  | .addressNotAvailable => "AddrNotAvailable"
  | .networkUnreachable => "NetworkUnreachable"
  | .tryAgain => "WouldBlock"

def description : OsError → String
  | .notFound => "No such file or directory"
  | .permissionDenied => "Permission denied"
  | .addressInUse => "Address already in use"
  | .addressNotAvailable => "Cannot assign requested address"
  | .networkUnreachable => "Network is unreachable"
  | .tryAgain => "Resource temporarily unavailable"

def message (error : OsError) : String :=
  error.description ++ " (os error " ++ toString error.code ++ ")"

end OsError

structure Host where
  /-- The addresses that are bound. -/
  bound : List SocketAddress
  /-- The port that is given out next to who takes any. -/
  nextPort : UInt16

namespace Host

/-- The first port that is given out to who takes any. -/
def firstEphemeral : UInt16 := 32768

/-- Ports below this one need privileges. -/
def firstFree : UInt16 := 1024

def create : Host where
  bound := []
  nextPort := firstEphemeral

/-- Whether a listener at one address is in the way of another. -/
def overlaps (first second : SocketAddress) : Bool :=
  first.port == second.port
    && (first.ip == second.ip || first.ip.isUnspecified || second.ip.isUnspecified)

/-- Whether the host has an address, as far as it checks while its network is down. -/
def hasAddress : IpAddress → Bool
  | .v4 _ => true
  | .v6 bits => bits == 0 || IpAddress.isMapped bits

/-- Binds an address; port 0 stands for any port. -/
def bind (host : Host) (address : SocketAddress) : Except OsError (SocketAddress × Host) :=
  if address.port ≠ 0 ∧ address.port < firstFree then .error .permissionDenied
  else if !hasAddress address.ip then .error .addressNotAvailable
  else if address.port = 0 then
    let given : SocketAddress := ⟨address.ip, host.nextPort⟩
    .ok (given, { bound := given :: host.bound, nextPort := host.nextPort + 1 })
  else if host.bound.any (overlaps address) then .error .addressInUse
  else .ok (address, { host with bound := address :: host.bound })

/-- Gives a bound address back. -/
def unbind (host : Host) (address : SocketAddress) : Host :=
  { host with bound := host.bound.erase address }

/-- Gives back what came of binding an address. -/
def release (host : Host) : Except OsError SocketAddress → Host
  | .ok address => host.unbind address
  | .error _ => host

/-- Opens a connection to an address. -/
def connect (_host : Host) (_address : SocketAddress) : Except OsError Unit :=
  .error .networkUnreachable

/-- Starts the threads that call handlers. -/
def startThreads (_host : Host) : Except OsError Unit :=
  .ok ()

end Host

end Peering
