import Peering.Endpoint
import Peering.Gossip
import Peering.Registry.Upkeep

/-!
# What frames do

Before its peer is active a session takes exactly one frame, the request or the
response of the handshake; any other frame ends it. Afterwards frames of the
network core are answered here, and all others go to the handlers.
-/

namespace Peering

namespace Endpoint

/-! ## Handshake -/

/-- The session waits for the socket so as to reject the request, if the socket is still open. -/
def refuse (endpoint : Endpoint) (session : Session) : Endpoint × Session :=
  let session := { session with phase := .rejected }
  match endpoint.registry.writerFor (.inbound session.conn) with
  | none => (endpoint, session.quit)
  | some conn =>
      ({ endpoint with transport := endpoint.transport.onSocket conn (·.ask .session) },
        { session with stage := .refusing })

/-- The node that makes a request: its id, the address of the socket, the port it listens on. -/
def requester (endpoint : Endpoint) (session : Session) (request : Handshake.Request) : Node :=
  { Node.create request.id session.ip request.port endpoint.clock with
    revision := Utf8.lossy request.revision }

/-- A request that can be read is rejected or, once the socket is free, decided. -/
def onRequest (endpoint : Endpoint) (session : Session) (payload : Bytes) : Endpoint × Session :=
  match Handshake.Request.decode payload with
  | .error _ => (endpoint, session.fail)
  | .ok request =>
      match request.check endpoint.settings.chainId endpoint.handlers.versions with
      | .error _ => endpoint.refuse session
      | .ok () =>
          let session := { session with phase := .validated }
          match endpoint.registry.writerFor (.inbound session.conn) with
          | none => (endpoint, session.quit)
          | some conn =>
              ({ endpoint with transport := endpoint.transport.onSocket conn (·.ask .session) },
                { session with stage := .accepting (endpoint.requester session request) })

/-- An accepting response activates the node that was dialed. -/
def onResponse (endpoint : Endpoint) (session : Session) (payload : Bytes) :
    Endpoint × Session :=
  match Handshake.Response.decode payload with
  | .error _ => (endpoint, session.fail)
  | .ok response =>
      if !response.accepted then (endpoint, session.fail)
      else match session.dialed with
        | none => (endpoint, session.fail)
        | some dialed =>
            let session := { session with dialed := none, phase := .validated }
            let node := { dialed with revision := response.revisionText }
            match endpoint.registry.promoteToActive endpoint.clock session.conn .outbound node with
            | .error _ => (endpoint, session.fail)
            | .ok registry =>
                let latency := endpoint.clock - session.openedAt
                (endpoint.setRegistry (registry.updateLatency node.idHash latency),
                  session.activate node)

/-! ## Gossip -/

/-- What a peer is told about the other active nodes. -/
def entriesFor (endpoint : Endpoint) (asking : IdHash) : List Gossip.Entry :=
  ((endpoint.shuffle (endpoint.registry.activeNodes.filter (·.idHash ≠ asking))).take
    Gossip.maxEntries).map Gossip.Entry.ofNode

/-- Queues the nodes of gossip entries as candidates until the queue is full; counts them. -/
def ingest (now : Nat) (registry : Registry) : List Gossip.Entry → Registry × Nat
  | [] => (registry, 0)
  | entry :: rest =>
      match registry.addTemp now (entry.toNode now) with
      | .ok registry =>
          let (registry, count) := ingest now registry rest
          (registry, count + 1)
      | .error .full => (registry, 0)
      | .error _ => ingest now registry rest

/-- Gossip that can be read answers a request, if one was sent, and brings candidates. -/
def onGossip (endpoint : Endpoint) (peer : IdHash) (payload : Bytes) : Endpoint :=
  match Gossip.decode payload with
  | .error _ => (endpoint.violation peer).1
  | .ok entries =>
      let (endpoint, latency) := endpoint.takeLatency peer
      let registry := match latency with
        | none => endpoint.registry
        | some latency => endpoint.registry.updateLatency peer latency
      endpoint.setRegistry (ingest endpoint.clock registry entries).1

/-! ## Frames of an active peer -/

/-- Frames of the network core; a handshake again or an unknown action is a violation. -/
def onNetFrame (endpoint : Endpoint) (peer : IdHash) (frame : Frame) : Endpoint :=
  if frame.action = NetAction.ping then
    (endpoint.sendTo (.active peer) (Frame.net NetAction.pong [])).1
  else if frame.action = NetAction.pong then
    endpoint
  else if frame.action = NetAction.activeNodesRequest then
    (endpoint.sendTo (.active peer)
      (Frame.net NetAction.activeNodesResponse (Gossip.encode (endpoint.entriesFor peer)))).1
  else if frame.action = NetAction.activeNodesResponse then
    endpoint.onGossip peer frame.payload
  else
    (endpoint.violation peer).1

/-- A frame of an application, as its handlers get it. -/
def incoming (peer : PeerName) (frame : Frame) : Incoming where
  peer := peer.idHash
  display := peer.display
  version := frame.version
  route := frame.route
  payload := frame.payload

/-- A frame of an active peer; whatever it is, the peer has been heard from. -/
def onActiveFrame (endpoint : Endpoint) (peer : PeerName) (frame : Frame) : Endpoint :=
  let endpoint := endpoint.setRegistry (endpoint.registry.touch endpoint.clock peer.idHash)
  if frame.isNet then endpoint.onNetFrame peer.idHash frame
  else endpoint.submit (incoming peer frame)

/-- What a frame does, by how far the handshake of its session has come. -/
def onFrame (endpoint : Endpoint) (session : Session) (frame : Frame) : Endpoint × Session :=
  match session.phase, session.peer with
  | .awaitingRequest, _ =>
      if frame.isNet && frame.action == NetAction.handshakeRequest then
        endpoint.onRequest session frame.payload
      else (endpoint, session.fail)
  | .awaitingResponse, _ =>
      if frame.isNet && frame.action == NetAction.handshakeResponse then
        endpoint.onResponse session frame.payload
      else (endpoint, session.fail)
  | .active, some peer => (endpoint.onActiveFrame peer frame, session)
  | .active, none => (endpoint, if frame.isNet then session.quit else session)
  | .validated, _ => (endpoint, session.fail)
  | .rejected, _ => (endpoint, session.fail)

/-- A header beyond the limit is a violation of an active peer. -/
def onOversized (endpoint : Endpoint) (session : Session) : Endpoint :=
  match session.peer with
  | some peer => (endpoint.violation peer.idHash).1
  | none => endpoint

end Endpoint

end Peering
