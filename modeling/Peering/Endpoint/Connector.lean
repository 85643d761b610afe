import Peering.Address.Text
import Peering.Endpoint.Sessions
import Peering.Host

/-!
# Dialing

The connector takes candidates from the queue and dials them while there is room
for active nodes. Once the queue is empty, the boot nodes are queued again.
-/

namespace Peering

inductive ConnectError where
  | timeout (address : SocketAddress)
  | io (address : SocketAddress) (cause : OsError)
  /-- The registry did not take the connection to the node with this short name. -/
  | refused (display : String) (cause : RegistryError)
deriving DecidableEq, Repr

def ConnectError.message : ConnectError → String
  | .timeout address => "Connect to " ++ address.text ++ " timed out"
  | .io address cause => "Connect to " ++ address.text ++ " failed: " ++ cause.message
  | .refused display cause => "Registry refused " ++ display ++ ": " ++ cause.message

namespace Endpoint

/-- How many bytes a connection to another host holds until they are read. -/
def socketCapacity (endpoint : Endpoint) : Nat :=
  endpoint.settings.socketBufferSize.toNat

/-- Takes in the connection to a node, or says why there is none. -/
def connectTo (endpoint : Endpoint) (node : Node) (opened : Except OsError Unit) :
    Endpoint × Except ConnectError ConnId :=
  match opened with
  | .error cause => (endpoint, .error (.io node.address cause))
  | .ok () =>
      let (endpoint, result) :=
        endpoint.dialedSocket node (Socket.create endpoint.socketCapacity)
      (endpoint, result.mapError (.refused node.display))

/-- Whether another node may be dialed. -/
def hasRoom (endpoint : Endpoint) : Bool :=
  let counts := endpoint.registry.counts endpoint.clock
  counts.active + counts.outbound < endpoint.settings.maxActiveNodes.toNat

/-- Dials at most so many candidates, the oldest first. -/
def dialMany (host : Host) : Nat → Endpoint → Endpoint
  | 0, endpoint => endpoint
  | count + 1, endpoint =>
      if !endpoint.isRunning || !endpoint.hasRoom then endpoint
      else
        let clock := endpoint.clock
        let (candidate, registry) :=
          endpoint.registry.takeTemp clock endpoint.settings.syncSeedsOnly
        let endpoint := endpoint.setRegistry registry
        match candidate with
        | none => endpoint.setRegistry (endpoint.registry.requeueBootNodes clock).1
        | some node =>
            dialMany host count (endpoint.connectTo node (host.connect node.address)).1

/-- One pass of the connector: each candidate is dialed once, and the last look finds none. -/
def dialQueued (endpoint : Endpoint) (host : Host) : Endpoint :=
  dialMany host (endpoint.registry.temp.length + 1) endpoint

end Endpoint

end Peering
