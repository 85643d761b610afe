import Peering.BootUri
import Peering.Endpoint.Connector
import Peering.Maintenance
import Peering.PortMapping

/-!
# The manager

The rest of a program talks to the network through a manager. It is made from
settings, started once and shut down once. This module has its state and what
can be asked of it; starting and shutting down are in `Peering.Manager.Lifecycle`.
-/

namespace Peering

inductive ManagerError where
  | settings (cause : SettingsError)
  | nodeId (cause : BootUriError)
  | bootNode (uri : String) (cause : BootUriError)
  | bind (address : SocketAddress) (cause : OsError)
  | spawn (cause : OsError)
  | shutDown
deriving DecidableEq, Repr

def ManagerError.message : ManagerError → String
  | .settings cause => "Invalid config: " ++ cause.message?.getD ""
  | .nodeId cause => "Invalid node id: " ++ cause.message
  | .bootNode uri cause => "Invalid boot node " ++ uri ++ ": " ++ cause.message
  | .bind address cause => "Failed to bind " ++ address.text ++ ": " ++ cause.message
  | .spawn cause => "Failed to start dispatch threads: " ++ cause.message
  | .shutDown => "Manager already shut down"

/-- What there is once the network has been started. -/
structure Started where
  /-- Where we listen, if the address could be bound. -/
  address : Option SocketAddress
deriving DecidableEq, Repr

structure Manager where
  endpoint : Endpoint
  mapper : PortMapping.Mapper
  /-- Some call has begun to start the network. -/
  starting : Bool
  /-- Some call has begun to shut down. -/
  stopped : Bool
  started : Option Started

namespace Manager

/-! ## Making one -/

/-- Reads every boot URI, or names the first that is wrong. -/
def bootNodes : List String → Except ManagerError (List Node)
  | [] => .ok []
  | uri :: rest => do
      let node ← (BootUri.parse uri 0).mapError (.bootNode uri)
      return node :: (← bootNodes rest)

/-- The id in the settings, or a fresh one when there is none. -/
def identify (settings : Settings) (fresh : NodeId) : Except ManagerError NodeId :=
  if settings.nodeId.isEmpty then .ok fresh
  else (NodeId.ofBytes (Utf8.encode settings.nodeId)).mapError .nodeId

/-- A manager that has not been started; its boot nodes are queued. -/
def create (settings : Settings) (fresh : NodeId) : Except ManagerError Manager := do
  settings.validate.mapError .settings
  let id ← identify settings fresh
  let nodes ← bootNodes settings.bootNodes
  let endpoint := Endpoint.create settings id HandlerTable.empty
  return {
    endpoint := endpoint.setRegistry (endpoint.registry.addBootNodes endpoint.clock nodes).1
    mapper := PortMapping.Mapper.create settings.upnpEnabled
      (Settings.durationOf settings.upnpIntervalMs)
    starting := false
    stopped := false
    started := none }

def setEndpoint (manager : Manager) (endpoint : Endpoint) : Manager :=
  { manager with endpoint := endpoint }

/-! ## Questions -/

def settings (manager : Manager) : Settings :=
  manager.endpoint.settings

def registry (manager : Manager) : Registry :=
  manager.endpoint.registry

def id (manager : Manager) : NodeId :=
  manager.registry.self.id

def isRunning (manager : Manager) : Bool :=
  manager.endpoint.running

/-- Where we listen, while the network is started. -/
def address (manager : Manager) : Option SocketAddress :=
  manager.started.bind (·.address)

def isBanned (manager : Manager) (peer : IdHash) : Bool :=
  manager.registry.isBanned manager.endpoint.clock peer

structure Status where
  nodeId : String
  chainId : UInt32
  running : Bool
  address : Option SocketAddress
  counts : Counts
  averageLatencyMs : Option UInt64
  outbound : Tally
  receiveDropped : Nat
  mapping : PortMapping.Status

/-- A report; while the network is not started, nothing has been sent or dropped. -/
def status (manager : Manager) : Status where
  nodeId := manager.id.text
  chainId := manager.settings.chainId
  running := manager.isRunning
  address := manager.address
  counts := manager.registry.counts manager.endpoint.clock
  averageLatencyMs := manager.registry.averageLatencyMs
  outbound := if manager.started.isSome then manager.endpoint.transport.outbox.tally
    else Tally.zero
  receiveDropped := if manager.started.isSome then manager.endpoint.dispatcher.dropped else 0
  mapping := manager.mapper.status

/-! ## Sending -/

/-- Queues a frame for an active node; frames of the network core are not ours to send. -/
def send (manager : Manager) (peer : IdHash) (frame : Frame) : Manager × Bool :=
  if frame.isNet then (manager, false)
  else if manager.started.isSome && manager.endpoint.isRunning then
    let (endpoint, taken) := manager.endpoint.sendTo (.active peer) frame
    (manager.setEndpoint endpoint, taken)
  else (manager, false)

def sendAll (frame : Frame) : List IdHash → Manager → Manager × Nat
  | [], manager => (manager, 0)
  | peer :: rest, manager =>
      let (manager, taken) := manager.send peer frame
      let (manager, count) := sendAll frame rest manager
      (manager, if taken then count + 1 else count)

/-- Queues a frame for every active node; counts those that were taken. -/
def broadcast (manager : Manager) (frame : Frame) : Manager × Nat :=
  sendAll frame manager.registry.active.keys manager

/-! ## Other calls -/

/-- Counts a violation; tells whether the peer was banned for it. -/
def violation (manager : Manager) (peer : IdHash) : Manager × Bool :=
  let (endpoint, banned) := manager.endpoint.violation peer
  (manager.setEndpoint endpoint, banned)

/-- Queues a candidate. -/
def addNode (manager : Manager) (node : Node) : Except RegistryError Manager := do
  let registry ← manager.registry.addTemp manager.endpoint.clock node
  return manager.setEndpoint (manager.endpoint.setRegistry registry)

def updateChainInfo (manager : Manager) (peer : IdHash) (bestBlock : UInt64)
    (totalDifficulty : BitVec 128) : Manager :=
  manager.setEndpoint (manager.endpoint.setRegistry
    (manager.registry.updateChainInfo peer bestBlock totalDifficulty))

end Manager

end Peering
