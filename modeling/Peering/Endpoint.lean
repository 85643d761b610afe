import Peering.Delivery.Settle
import Peering.Dispatch
import Peering.Session
import Peering.Settings
import Peering.Violations

/-!
# The endpoint

Everything that a running node keeps: its connections, its queues, its handlers
and the sessions that read its sockets. This module has the state and the small
moves on it; what frames do is in `Peering.Endpoint.Frames`, and how sessions
run is in `Peering.Endpoint.Sessions`.
-/

namespace Peering

/-- A task that is repeated. -/
inductive Chore where
  | status
  | keepalive
  | gossip
  | eviction
deriving DecidableEq, Repr

/-- A repeated task, its period, and when it is due. -/
structure Periodic where
  chore : Chore
  period : Nat
  next : Nat
deriving DecidableEq, Repr

structure Endpoint where
  settings : Settings
  handlers : HandlerTable
  templates : Handshake.Templates
  violations : Violations
  transport : Transport
  dispatcher : Dispatcher
  sessions : Table ConnId Session
  /-- When each unanswered request for gossip was sent. -/
  requested : Table IdHash Nat
  tasks : List Periodic
  /-- The clock by which nodes age and bans end. -/
  clock : Nat
  /-- The node has been started. -/
  running : Bool
  /-- The node has been told to stop, for good. -/
  stopping : Bool
  /-- Brings nodes into the order in which one or some of them are chosen. -/
  shuffle : List Node → List Node

namespace Endpoint

/-! ## Identity -/

/-- What a node says about itself: the settings, the port that it has now, its versions. -/
def profile (settings : Settings) (self : Identity) (versions : Handshake.VersionSet) :
    Handshake.Profile where
  id := self.id
  chainId := settings.chainId
  ip := self.ip
  port := self.port
  revision := settings.revision
  versions := versions

def buildTemplates (settings : Settings) (self : Identity) (versions : Handshake.VersionSet) :
    Handshake.Templates :=
  Handshake.Templates.build (profile settings self versions)

/-! ## Parts -/

def outboxLimits (settings : Settings) : OutboxLimits where
  lanes := settings.writerLanes.toNat
  sendQueue := settings.sendQueueCapacity.toNat
  laneQueue := settings.laneQueueCapacity.toNat
  backlog := settings.writeBacklog.toNat
  writeTimeout := settings.writeTimeout
  maxBody := settings.maxFrameBody.toNat

/-- An endpoint on which nothing has happened. -/
def create (settings : Settings) (id : NodeId) (handlers : HandlerTable) : Endpoint :=
  let self := Identity.create id settings.ip settings.port
  { settings := settings
    handlers := handlers
    templates := buildTemplates settings self handlers.versions
    violations := Violations.create settings.errorTolerance.toNat
      settings.errorCounterCapacity.toNat
    transport := Transport.create (Registry.create self settings.limits) (outboxLimits settings)
    dispatcher := Dispatcher.create settings.dispatchLanes.toNat
      settings.receiveQueueCapacity.toNat
    sessions := []
    requested := []
    tasks := []
    clock := 0
    running := false
    stopping := false
    shuffle := fun nodes => nodes }

def registry (endpoint : Endpoint) : Registry :=
  endpoint.transport.registry

def setRegistry (endpoint : Endpoint) (registry : Registry) : Endpoint :=
  { endpoint with transport := { endpoint.transport with registry := registry } }

def timer (endpoint : Endpoint) : Nat :=
  endpoint.transport.timer

def isRunning (endpoint : Endpoint) : Bool :=
  endpoint.running && !endpoint.stopping

/-! ## Moves -/

/-- Queues a frame; tells whether it was taken. -/
def sendTo (endpoint : Endpoint) (dest : Destination) (frame : Frame) : Endpoint × Bool :=
  let (transport, taken) := endpoint.transport.send ⟨dest, frame, Int.ofNat endpoint.clock⟩
  ({ endpoint with transport := transport }, taken)

/-- Counts a violation; tells whether the peer was banned for it. -/
def violation (endpoint : Endpoint) (peer : IdHash) : Endpoint × Bool :=
  let (violations, registry, banned) :=
    endpoint.violations.check endpoint.registry endpoint.clock peer
  ({ endpoint with violations := violations }.setRegistry registry, banned)

def submit (endpoint : Endpoint) (message : Incoming) : Endpoint :=
  { endpoint with dispatcher := (endpoint.dispatcher.submit message).1 }

/-! ## Gossip requests -/

/-- Forgets the request to a peer, and gives the time since it was sent. -/
def takeLatency (endpoint : Endpoint) (peer : IdHash) : Endpoint × Option Nat :=
  match endpoint.requested.find? peer with
  | none => (endpoint, none)
  | some sent =>
      ({ endpoint with requested := endpoint.requested.erase peer },
        some (endpoint.clock - sent))

/-- Forgets the requests that are as old as a greatest age; tells how many there were. -/
def pruneRequests (endpoint : Endpoint) (maxAge : Nat) : Endpoint × Nat :=
  let kept := endpoint.requested.select fun sent => endpoint.clock - sent < maxAge
  ({ endpoint with requested := kept }, endpoint.requested.length - kept.length)

end Endpoint

end Peering
