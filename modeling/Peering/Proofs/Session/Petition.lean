import Peering.Endpoint.Sessions
import Peering.Proofs.Delivery.Endurance
import Peering.Proofs.Handshake.Negotiation
import Peering.Proofs.Handshake.RoundTrip
import Peering.Proofs.Registry.Filing

/-!
# Requests to be heard

What it means that an endpoint hears a request: the session of an accepted connection
is about to read it, and from then on the session takes its steps while the peer reads
as it likes, other tasks queue for the socket and leave it, and time passes.

Beside the definitions this module has what such turns leave as it is.
-/

namespace Peering

namespace Registry

variable {registry after : Registry} {now : Nat} {conn : ConnId} {pending : Pending} {node : Node}

/-- The registry agrees to make an accepted connection active on just these conditions. -/
def Agrees (registry : Registry) (now : Nat) (node : Node) : Prop :=
  registry.isSelf node = false ∧ registry.isBanned now node.idHash = false ∧
    registry.isActive node.idHash = false ∧
    registry.active.length < registry.limits.maxActive ∧
    (registry.isDialed node.idHash = false ∨ node.idHash < registry.self.idHash)

theorem agrees_of_promoteToActive
    (hpromote : registry.promoteToActive now conn .inbound node = .ok after) :
    registry.Agrees now node := by
  obtain ⟨hself, hbanned, hroom, hactive, _, _, _, hyield, _⟩ := promoteToActive_ok hpromote
  refine ⟨hself, hbanned, hactive, hroom, ?_⟩
  rcases yieldDial_ok hyield with ⟨h, _⟩ | ⟨_, hfree, _⟩ | ⟨_, hless, _⟩
  · cases h
  · exact Or.inl hfree
  · exact Or.inr hless

theorem promoteToActive_of_agrees (hpending : registry.inbound.find? conn = some pending)
    (hagrees : registry.Agrees now node) :
    ∃ after, registry.promoteToActive now conn .inbound node = .ok after := by
  obtain ⟨hself, hbanned, hactive, hroom, hdial⟩ := hagrees
  have hfound : (registry.pendingSet .inbound).find? conn = some pending := hpending
  have hyield : ∃ middle, registry.yieldDial .inbound node.idHash = .ok middle := by
    cases hto : registry.dialTo? node.idHash with
    | none => exact ⟨registry, by simp only [yieldDial, hto]⟩
    | some dialing =>
        have hless := hdial.resolve_left (by simp [isDialed, hto])
        exact ⟨_, by simp only [yieldDial, hto, if_pos hless]; rfl⟩
  obtain ⟨middle, hyield⟩ := hyield
  refine ⟨middle.activate now .inbound conn pending node, ?_⟩
  simp only [promoteToActive, hself, hfound, hbanned, hactive, hyield, Bool.false_eq_true, if_false,
    Nat.not_le.mpr hroom]
  rfl

/-- The connection that was pending is the one on which the peer is active. -/
theorem find?_promoteToActive (hpending : registry.inbound.find? conn = some pending)
    (hpromote : registry.promoteToActive now conn .inbound node = .ok after) :
    ∃ active, after.active.find? node.idHash = some active ∧ active.conn = pending.conn := by
  obtain ⟨_, _, _, _, found, middle, hfound, _, rfl⟩ := promoteToActive_ok hpromote
  have hsame : found = pending := Option.some.inj (hfound.symm.trans hpending)
  subst hsame
  have hhash : (mergeKnown node found.node).idHash = node.idHash := mergeKnown_idHash _ _
  refine ⟨⟨{ mergeKnown node found.node with conn := some conn, since := now, lastSeen := now },
    found.conn⟩, ?_, rfl⟩
  simp only [activate, hhash]
  exact (Table.find?_insert ..).trans (if_pos rfl)

/-- An accepted connection that goes takes its own entry, and nothing else, with it. -/
theorem removeConn_of_inbound (hpending : registry.inbound.find? conn = some pending) :
    (registry.removeConn conn).1 =
      { registry with inbound := registry.inbound.erase conn }.close conn := by
  have hhas : registry.inbound.has conn = true := by simp [Table.has, hpending]
  simp only [removeConn, hhas, if_true]

end Registry

/-! ## Petitions -/

/-- A request that the session of an accepted connection is about to read. -/
structure Petition where
  start : Endpoint
  conn : ConnId
  session : Session
  pending : Pending
  socket : Socket
  /-- What the node says about itself. -/
  profile : Handshake.Profile
  frame : Frame
  /-- What the peer has sent behind the request. -/
  rest : Bytes

/-- An endpoint that deals with a petition, and what the peer has read of its socket since. -/
structure Hearing where
  endpoint : Endpoint
  received : Bytes

namespace Hearing

variable {conn : ConnId}

/-- What the session is doing, until it is over. -/
def stage? (hearing : Hearing) (conn : ConnId) : Option Stage :=
  (hearing.endpoint.sessions.find? conn).map Session.stage

/-- Whether the session is still busy with the request. -/
def isBusy (hearing : Hearing) (conn : ConnId) : Bool :=
  match hearing.stage? conn with
  | some (.accepting _) => true
  | some .refusing => true
  | some (.answering ..) => true
  | _ => false

/-- What happens while the session deals with a request. -/
inductive Turn where
  /-- The session goes on, if it is not done; while it answers it does not look whether to stop. -/
  | go
  /-- The peer reads at most so many bytes. -/
  | read (most : Nat)
  /-- Another task queues for the lock of the socket. -/
  | queue (holder : Holder)
  /-- Another task gives up the lock, or its place in the queue. -/
  | leave (holder : Holder)
  | wait (duration : Nat)

def withTransport (hearing : Hearing) (transport : Transport) : Hearing :=
  { hearing with endpoint := { hearing.endpoint with transport := transport } }

def act (conn : ConnId) (hearing : Hearing) : Turn → Hearing
  | .go =>
      if hearing.isBusy conn then { hearing with endpoint := hearing.endpoint.stepSession conn true }
      else hearing
  | .read most =>
      let (transport, bytes) := hearing.endpoint.transport.read conn most
      { hearing.withTransport transport with received := hearing.received ++ bytes }
  | .queue holder =>
      if holder = .session then hearing
      else hearing.withTransport (hearing.endpoint.transport.onSocket conn (·.ask holder))
  | .leave holder =>
      if holder = .session then hearing
      else hearing.withTransport (hearing.endpoint.transport.onSocket conn (·.release holder))
  | .wait duration =>
      let transport := hearing.endpoint.transport
      hearing.withTransport { transport with timer := transport.timer + duration }

/-- Whether the session, if it goes on, finds that its answer cannot be written. -/
def fails (hearing : Hearing) (conn : ConnId) : Bool :=
  match hearing.stage? conn with
  | some (.answering _ left deadline) =>
      (hearing.endpoint.transport.socket? conn).all fun socket =>
        socket.isBroken || !(socket.put left).2.isEmpty && deadline ≤ hearing.endpoint.timer
  | _ => false

/-- Whether no write of the session fails. -/
def succeeds (conn : ConnId) (hearing : Hearing) : List Turn → Bool
  | [] => true
  | .go :: rest => !hearing.fails conn && (hearing.act conn .go).succeeds conn rest
  | turn :: rest => (hearing.act conn turn).succeeds conn rest

def run (conn : ConnId) (hearing : Hearing) (turns : List Turn) : Hearing :=
  turns.foldl (act conn) hearing

/-- All that the peer has read of the socket, or can still read. -/
def sent (hearing : Hearing) (conn : ConnId) : Bytes :=
  hearing.received ++ hearing.endpoint.transport.unread conn

end Hearing

namespace Petition

/-- The connection is open and pending, nothing is on its way on it, and the request is there. -/
structure IsOpen (petition : Petition) : Prop where
  listed : petition.start.sessions.find? petition.conn = some petition.session
  own : petition.session.conn = petition.conn
  awaiting : petition.session.phase = .awaitingRequest
  reading : petition.session.stage = .reading
  running : petition.start.stopping = false
  pending : petition.start.registry.inbound.find? petition.conn = some petition.pending
  handle : petition.pending.conn.id = petition.conn
  opened : petition.start.registry.isClosed petition.conn = false
  socket : petition.start.transport.socket? petition.conn = some petition.socket
  templates : petition.start.templates = Handshake.Templates.build petition.profile
  front : FrameStream.front petition.start.settings.maxFrameBody.toNat petition.session.buffer =
    .frame petition.frame petition.rest
  net : petition.frame.isNet = true
  action : petition.frame.action = NetAction.handshakeRequest

/-- The session has read the request; nobody has told it to stop, so it does not matter what it heeds. -/
def heard (petition : Petition) : Hearing :=
  ⟨petition.start.stepSession petition.conn true, []⟩

def run (petition : Petition) (turns : List Hearing.Turn) : Hearing :=
  petition.heard.run petition.conn turns

/-- The node that asks: its id, the address of the socket and the port it names. -/
def node (petition : Petition) (request : Handshake.Request) : Node :=
  petition.start.requester petition.session request

/-- The conditions on which a request is accepted. -/
def Welcomes (petition : Petition) (request : Handshake.Request) : Prop :=
  (request.chainId = petition.start.settings.chainId ∧
    ((∃ version ∈ request.versions, version ∈ petition.start.handlers.versions) ∨
      petition.start.handlers.versions = [] ∧ request.versions = [])) ∧
  petition.start.registry.Agrees petition.start.clock (petition.node request)

/-- The response that is given. -/
def response (petition : Petition) (accepted : Bool) : Handshake.Response :=
  ⟨accepted, Utf8.encode petition.profile.revision⟩

/-- A socket has come from another by tasks that lock it, write to it and read it. -/
def Continues (socket before : Socket) : Prop :=
  socket.isBroken = before.isBroken ∧ socket.capacity = before.capacity

/-- Nothing has changed that does not belong to the connection, but for the registry. -/
structure Spares (petition : Petition) (after : Endpoint) : Prop where
  beside : { after with
    transport := petition.start.transport, sessions := petition.start.sessions } = petition.start
  outbox : after.transport.outbox = petition.start.transport.outbox
  sockets : ∀ other, other ≠ petition.conn →
    after.transport.socket? other = petition.start.transport.socket? other
  sessions : ∀ other, other ≠ petition.conn →
    after.sessions.find? other = petition.start.sessions.find? other
  kept : ∃ socket, after.transport.socket? petition.conn = some socket ∧
    Continues socket petition.socket

/-- The session is over, and its connection has left the registry. -/
structure Closes (petition : Petition) (after : Endpoint) : Prop where
  session : after.sessions.find? petition.conn = none
  registry : after.registry = { petition.start.registry with
    inbound := petition.start.registry.inbound.erase petition.conn }.close petition.conn

/-- The connection is the one on which the peer is active, and the session reads on. -/
structure Joins (petition : Petition) (node : Node) (after : Endpoint) : Prop where
  promoted : petition.start.registry.promoteToActive petition.start.clock petition.conn .inbound
    node = .ok after.registry
  active : ∃ active, after.registry.active.find? node.idHash = some active ∧
    active.conn.id = petition.conn
  session : ∃ session, after.sessions.find? petition.conn = some session ∧
    session.stage = .reading ∧ session.phase = .active ∧
    session.peer = some ⟨node.idHash, node.display⟩

/-- What has become of the petition in the end. -/
def Settled (petition : Petition) (hearing : Hearing) : Prop :=
  petition.Spares hearing.endpoint ∧
  match Handshake.Request.decode petition.frame.payload with
  | .error _ =>
      hearing.sent petition.conn = petition.socket.unread ∧ petition.Closes hearing.endpoint
  | .ok request =>
      ∃ answer : Frame, ∃ response, answer.isNet = true ∧
        answer.action = NetAction.handshakeResponse ∧
        Handshake.Response.decode answer.payload = .ok response ∧
        hearing.sent petition.conn = petition.socket.unread ++ answer.encode ∧
        (response.accepted = true ↔ petition.Welcomes request) ∧
        (response.accepted = true → petition.Joins (petition.node request) hearing.endpoint) ∧
        (response.accepted = false → petition.Closes hearing.endpoint)

/-! ## Steps of the session -/

variable {petition : Petition} {hearing : Hearing} {request : Handshake.Request}

/-- How the registry and the session stand while a response is written. -/
def Rules (petition : Petition) (request : Handshake.Request) (registry : Registry)
    (session : Session) : Bool → Prop
  | true => petition.Welcomes request ∧
      petition.start.registry.promoteToActive petition.start.clock petition.conn .inbound
        (petition.node request) = .ok registry ∧
      session.phase = .active ∧
      session.peer = some ⟨(petition.node request).idHash, (petition.node request).display⟩
  | false => ¬petition.Welcomes request ∧ registry = petition.start.registry

/-- The session goes on, and has neither written nor moved anything. -/
structure Waits (petition : Petition) (hearing : Hearing) (session : Session) : Prop where
  found : hearing.endpoint.sessions.find? petition.conn = some session
  own : session.conn = petition.conn
  spares : petition.Spares hearing.endpoint
  registry : hearing.endpoint.registry = petition.start.registry
  sent : hearing.sent petition.conn = petition.socket.unread
  queued : ∀ socket, hearing.endpoint.transport.socket? petition.conn = some socket →
    .session ∈ socket.lock

/-- The session has these bytes of a response left to write. -/
structure Writes (petition : Petition) (hearing : Hearing) (session : Session)
    (request : Handshake.Request) (accepted : Bool) (left : Bytes) : Prop where
  found : hearing.endpoint.sessions.find? petition.conn = some session
  own : session.conn = petition.conn
  spares : petition.Spares hearing.endpoint
  rules : petition.Rules request hearing.endpoint.registry session accepted
  sent : hearing.sent petition.conn ++ left =
    petition.socket.unread ++ (petition.response accepted).toFrame.encode

/-- How far a petition has come. -/
inductive Progress (petition : Petition) (hearing : Hearing) : Prop where
  /-- The session waits for the socket so as to decide. -/
  | deciding (session : Session) (request : Handshake.Request)
      (hstage : session.stage = .accepting (petition.node request))
      (hdecode : Handshake.Request.decode petition.frame.payload = .ok request)
      (hcheck : request.check petition.start.settings.chainId petition.start.handlers.versions =
        .ok ())
      (hwaits : petition.Waits hearing session)
  /-- The session waits for the socket so as to refuse. -/
  | refusing (session : Session) (request : Handshake.Request)
      (hstage : session.stage = .refusing)
      (hdecode : Handshake.Request.decode petition.frame.payload = .ok request)
      (hunwelcome : ¬petition.Welcomes request) (hwaits : petition.Waits hearing session)
  | answering (session : Session) (request : Handshake.Request) (accepted : Bool) (left : Bytes)
      (deadline : Nat) (hstage : session.stage = .answering accepted left deadline)
      (hdecode : Handshake.Request.decode petition.frame.payload = .ok request)
      (hwrites : petition.Writes hearing session request accepted left)
  | settled (hidle : hearing.isBusy petition.conn = false) (hsettled : petition.Settled hearing)

/-! ## What stays -/

variable {endpoint after : Endpoint} {session next : Session} {left : Bytes}

theorem IsOpen.spares (hopen : petition.IsOpen) : petition.Spares petition.start :=
  ⟨rfl, rfl, fun _ _ => rfl, fun _ _ => rfl, petition.socket, hopen.socket, rfl, rfl⟩

theorem Spares.templates (h : petition.Spares endpoint) :
    endpoint.templates = petition.start.templates := by
  have htemplates := congrArg Endpoint.templates h.beside
  exact htemplates

theorem Spares.clock (h : petition.Spares endpoint) : endpoint.clock = petition.start.clock := by
  have hclock := congrArg Endpoint.clock h.beside
  exact hclock

theorem socket?_own (transport : Transport) (conn : ConnId) (change : Socket → Socket) :
    (transport.onSocket conn change).socket? conn = (transport.socket? conn).map change :=
  (Transport.socket?_onSocket ..).trans (if_pos rfl)

theorem Spares.onSocket (h : petition.Spares endpoint) (change : Socket → Socket)
    (hchange : ∀ socket, endpoint.transport.socket? petition.conn = some socket →
      Continues (change socket) socket) :
    petition.Spares
      { endpoint with transport := endpoint.transport.onSocket petition.conn change } := by
  obtain ⟨socket, hsocket, hbroken, hcapacity⟩ := h.kept
  obtain ⟨hsame, hsize⟩ := hchange socket hsocket
  refine { h with sockets := fun other hother => ?_, kept := ⟨change socket, ?_, ?_, ?_⟩ }
  · exact ((Transport.socket?_onSocket ..).trans (if_neg hother)).trans (h.sockets other hother)
  · rw [socket?_own, hsocket, Option.map_some]
  · exact hsame.trans hbroken
  · exact hsize.trans hcapacity

theorem Spares.ask (h : petition.Spares endpoint) (holder : Holder) :
    petition.Spares
      { endpoint with transport := endpoint.transport.onSocket petition.conn (·.ask holder) } :=
  h.onSocket _ fun _ _ => ⟨Socket.ask_isBroken, Socket.ask_capacity⟩

theorem Spares.release (h : petition.Spares endpoint) (holder : Holder) :
    petition.Spares
      { endpoint with transport := endpoint.transport.onSocket petition.conn (·.release holder) } :=
  h.onSocket _ fun _ _ => ⟨rfl, rfl⟩

theorem Spares.setRegistry (h : petition.Spares endpoint) (registry : Registry) :
    petition.Spares (endpoint.setRegistry registry) :=
  { h with }

theorem Spares.addSession (h : petition.Spares endpoint) (hown : session.conn = petition.conn) :
    petition.Spares (endpoint.addSession session) :=
  { h with sessions := fun other hother =>
      ((Table.find?_insert ..).trans (if_neg (hown ▸ hother))).trans (h.sessions other hother) }

theorem find?_addSession (endpoint : Endpoint) (hown : session.conn = petition.conn) :
    (endpoint.addSession session).sessions.find? petition.conn = some session :=
  (Table.find?_insert ..).trans (if_pos hown.symm)

/-- A session that goes on is put back. -/
theorem stepSession_of_going (hfound : endpoint.sessions.find? petition.conn = some session)
    (hadvance : endpoint.advanceSession session true = (after, next)) (hgoing : next.isOver = false) :
    endpoint.stepSession petition.conn true = after.addSession next := by
  simp only [Endpoint.stepSession, hfound, hadvance, Endpoint.keepSession, hgoing,
    Bool.false_eq_true, if_false]
  rfl

theorem waits_of_going (received : Bytes)
    (hfound : endpoint.sessions.find? petition.conn = some session)
    (hadvance : endpoint.advanceSession session true = (after, next)) (hgoing : next.isOver = false)
    (hown : next.conn = petition.conn) (hspares : petition.Spares after)
    (hregistry : after.registry = petition.start.registry)
    (hsent : received ++ after.transport.unread petition.conn = petition.socket.unread)
    (hqueued : ∀ socket, after.transport.socket? petition.conn = some socket →
      .session ∈ socket.lock) :
    petition.Waits ⟨endpoint.stepSession petition.conn true, received⟩ next := by
  rw [stepSession_of_going hfound hadvance hgoing]
  exact ⟨find?_addSession after hown, hown, hspares.addSession hown, hregistry, hsent, hqueued⟩

/-- A session that is over goes, and closes its connection. -/
theorem closes_of_over (hopen : petition.IsOpen)
    (hfound : endpoint.sessions.find? petition.conn = some session)
    (hadvance : endpoint.advanceSession session true = (after, next)) (hover : next.isOver = true)
    (hown : next.conn = petition.conn) (hspares : petition.Spares after)
    (hregistry : after.registry = petition.start.registry) :
    petition.Spares (endpoint.stepSession petition.conn true) ∧
      petition.Closes (endpoint.stepSession petition.conn true) ∧
      (endpoint.stepSession petition.conn true).transport.unread petition.conn =
        after.transport.unread petition.conn := by
  simp only [Endpoint.stepSession, hfound, hadvance, Endpoint.keepSession, hover, if_true, hown]
  refine ⟨?_, ⟨?_, ?_⟩, rfl⟩
  · exact { hspares with sessions := fun other hother =>
      ((Table.find?_erase ..).trans (if_neg hother)).trans (hspares.sessions other hother) }
  · exact (Table.find?_erase ..).trans (if_pos rfl)
  · rw [hregistry]
    exact Registry.removeConn_of_inbound hopen.pending

theorem not_isBusy_of_closes (h : petition.Closes hearing.endpoint) :
    hearing.isBusy petition.conn = false := by
  rw [Hearing.isBusy, Hearing.stage?, h.session]
  rfl

theorem IsOpen.writer (h : petition.IsOpen) (hown : session.conn = petition.conn)
    (hregistry : endpoint.registry = petition.start.registry) :
    endpoint.registry.writerFor (.inbound session.conn) = some petition.conn := by
  rw [hregistry, hown]
  simp only [Registry.writerFor, h.pending, Option.map_some, h.handle, Option.filter_some, h.opened,
    Bool.not_false, if_true]

theorem asked_unread (transport : Transport) (conn : ConnId) (holder : Holder) :
    (transport.onSocket conn (·.ask holder)).unread conn = transport.unread conn := by
  refine Transport.unread_onSocket transport conn fun socket => ?_
  unfold Socket.ask
  split <;> rfl

/-- A session that has asked for the socket is queued. -/
theorem queued_ask (transport : Transport) (conn : ConnId) (socket : Socket)
    (hsocket : (transport.onSocket conn (·.ask .session)).socket? conn = some socket) :
    .session ∈ socket.lock := by
  rw [socket?_own] at hsocket
  obtain ⟨_, _, rfl⟩ := Option.map_eq_some_iff.mp hsocket
  exact Socket.mem_ask.mpr (Or.inr rfl)

end Petition

end Peering
