import Peering.Frame
import Peering.Payload
import Peering.Registry
import Peering.Json.Fault

/-!
# Settings

Everything that can be set about a node, its defaults, and the values that a
node cannot run with. How settings are written and read as JSON is in
`Peering.Settings.Document`.
-/

namespace Peering

/-- What a node does when its listening address cannot be bound. -/
inductive BindFailurePolicy where
  /-- It does not start. -/
  | fail
  /-- It runs without a listener and only dials. -/
  | degrade
deriving DecidableEq, Repr

structure Settings where
  /-- Peers on other chains are rejected. -/
  chainId : UInt32
  /-- The text of our node id; a fresh one is made when it is empty. -/
  nodeId : String
  /-- The address to bind and to announce. -/
  ip : IpAddress
  /-- The port to listen on; 0 takes any free one. -/
  port : UInt16
  /-- URIs of boot nodes. -/
  bootNodes : List String
  /-- The software revision to announce. -/
  revision : String
  /-- Whether to map the port on the local router. -/
  upnpEnabled : Bool
  /-- Only dial boot nodes and do not gossip. -/
  syncSeedsOnly : Bool
  maxTempNodes : UInt64
  maxActiveNodes : UInt64
  /-- Most violations of a peer that do not lead to a ban. -/
  errorTolerance : UInt32
  /-- Most peers whose violations are remembered. -/
  errorCounterCapacity : UInt64
  bindFailurePolicy : BindFailurePolicy
  writerLanes : UInt64
  dispatchLanes : UInt64
  sendQueueCapacity : UInt64
  laneQueueCapacity : UInt64
  writeBacklog : UInt64
  receiveQueueCapacity : UInt64
  listenBacklog : UInt32
  socketBufferSize : UInt32
  /-- Longest payload sent or accepted. -/
  maxFrameBody : UInt64
  connectTimeoutMs : UInt64
  readTimeoutMs : UInt64
  writeTimeoutMs : UInt64
  handshakeTimeoutMs : UInt64
  banDurationMs : UInt64
  tempNodeTtlMs : UInt64
  connectIntervalMs : UInt64
  statusIntervalMs : UInt64
  activeNodesIntervalMs : UInt64
  evictionIntervalMs : UInt64
  upnpIntervalMs : UInt64
deriving DecidableEq

inductive SettingsError where
  /-- The text is not a JSON document of settings. -/
  | unreadable (fault : Json.Fault)
  | invalid (field reason : String)
deriving DecidableEq, Repr

/-- What is wrong with a value; what is wrong with a JSON text is not put into words. -/
def SettingsError.message? : SettingsError → Option String
  | .unreadable _ => none
  | .invalid field reason => some ("Invalid value for " ++ field ++ ": " ++ reason)

namespace Settings

def default : Settings where
  chainId := 256
  nodeId := ""
  ip := .v4 0
  port := 30303
  bootNodes := []
  revision := "p2p-core/0.1.0"
  upnpEnabled := false
  syncSeedsOnly := false
  maxTempNodes := 128
  maxActiveNodes := 128
  errorTolerance := 50
  errorCounterCapacity := 1024
  bindFailurePolicy := .degrade
  writerLanes := 32
  dispatchLanes := 8
  sendQueueCapacity := 4096
  laneQueueCapacity := 1024
  writeBacklog := 256
  receiveQueueCapacity := 1024
  listenBacklog := 1024
  socketBufferSize := 8388608
  maxFrameBody := 2097152
  connectTimeoutMs := 5000
  readTimeoutMs := 120000
  writeTimeoutMs := 10000
  handshakeTimeoutMs := 10000
  banDurationMs := 600000
  tempNodeTtlMs := 300000
  connectIntervalMs := 1000
  statusIntervalMs := 10000
  activeNodesIntervalMs := 5000
  evictionIntervalMs := 5000
  upnpIntervalMs := 3000000

/-! ## Validation -/

/-- The sizes of which there has to be at least one. -/
def sizes (settings : Settings) : List (String × UInt64) :=
  [("writer_lanes", settings.writerLanes),
   ("dispatch_lanes", settings.dispatchLanes),
   ("send_queue_capacity", settings.sendQueueCapacity),
   ("lane_queue_capacity", settings.laneQueueCapacity),
   ("write_backlog", settings.writeBacklog),
   ("receive_queue_capacity", settings.receiveQueueCapacity),
   ("error_counter_capacity", settings.errorCounterCapacity),
   ("max_active_nodes", settings.maxActiveNodes),
   ("max_frame_body", settings.maxFrameBody)]

/-- The times at which something is repeated. -/
def intervals (settings : Settings) : List (String × UInt64) :=
  [("read_timeout_ms", settings.readTimeoutMs),
   ("connect_interval_ms", settings.connectIntervalMs),
   ("status_interval_ms", settings.statusIntervalMs),
   ("active_nodes_interval_ms", settings.activeNodesIntervalMs),
   ("eviction_interval_ms", settings.evictionIntervalMs),
   ("upnp_interval_ms", settings.upnpIntervalMs)]

/-- Refuses the first zero among named numbers. -/
def refuseZero (reason : String) : List (String × UInt64) → Except SettingsError Unit
  | [] => .ok ()
  | (field, value) :: rest =>
      if value = 0 then .error (.invalid field reason) else refuseZero reason rest

/-- Refuses values that a node cannot run with. -/
def validate (settings : Settings) : Except SettingsError Unit := do
  refuseZero "must be greater than zero" settings.sizes
  refuseZero "interval must be greater than zero" settings.intervals
  if UInt32.size ≤ settings.maxFrameBody.toNat then
    throw (.invalid "max_frame_body" "does not fit the 32-bit length field")
  let idLength := settings.nodeId.utf8ByteSize
  if idLength ≠ 0 ∧ idLength ≠ NodeId.byteLength then
    throw (.invalid "node_id"
      ("expected " ++ toString NodeId.byteLength ++ " bytes, got " ++ toString idLength))
  if Payload.maxRevision < settings.revision.utf8ByteSize then
    throw (.invalid "revision" "too long")

/-! ## Times, in the unit of instants -/

def durationOf (milliseconds : UInt64) : Nat :=
  milliseconds.toNat * millisecond

def readTimeout (settings : Settings) : Nat :=
  durationOf settings.readTimeoutMs

def writeTimeout (settings : Settings) : Nat :=
  durationOf settings.writeTimeoutMs

/-! ## Limits -/

def limits (settings : Settings) : Limits where
  maxTemp := settings.maxTempNodes.toNat
  maxActive := settings.maxActiveNodes.toNat
  banDuration := durationOf settings.banDurationMs
  tempTtl := durationOf settings.tempNodeTtlMs
  handshakeTimeout := durationOf settings.handshakeTimeoutMs

end Settings

end Peering
