import Peering.Endpoint.Sessions
import Peering.Proofs.Frame.Stream
import Peering.Proofs.Registry.Moves

/-!
# Visits of a session

A session visits its endpoint step by step, and anything may have become of the
endpoint in between. Here is what one visit does: until the peer is active it
touches no more than sockets; it makes a connection active at most where the
handshake says so; and with an active peer it hands over what it reads.
-/

namespace Peering

/-! ## What a registry does not gain -/

namespace Registry

variable {registry middle after : Registry}

/-- Every active entry in the second registry was in the first one, on the same connection. -/
def BringsNone (registry after : Registry) : Prop :=
  ∀ peer active, (peer, active) ∈ after.active →
    ∃ known, (peer, known) ∈ registry.active ∧ known.conn = active.conn

theorem bringsNone_of_same (hactive : after.active = registry.active) : BringsNone registry after :=
  fun _ active hmem => ⟨active, hactive ▸ hmem, rfl⟩

theorem BringsNone.refl (registry : Registry) : BringsNone registry registry :=
  bringsNone_of_same rfl

theorem BringsNone.trans (hfirst : BringsNone registry middle) (hsecond : BringsNone middle after) :
    BringsNone registry after := by
  intro peer active hmem
  obtain ⟨known, hknown, hconn⟩ := hsecond peer active hmem
  obtain ⟨first, hfirst, hsame⟩ := hfirst peer known hknown
  exact ⟨first, hfirst, hsame.trans hconn⟩

theorem Shrinks.bringsNone (hshrinks : Shrinks registry after) : BringsNone registry after :=
  fun _ active hmem => ⟨active, hshrinks.active.subset hmem, rfl⟩

theorem updateActive_bringsNone (registry : Registry) (peer : IdHash) (change : Node → Node) :
    BringsNone registry (registry.updateActive peer change) := by
  intro other active hmem
  rw [updateActive, Table.mem_modify] at hmem
  rcases hmem with ⟨_, hold⟩ | ⟨_, known, hold, rfl⟩
  · exact ⟨active, hold, rfl⟩
  · exact ⟨known, hold, rfl⟩

end Registry

namespace Endpoint

variable {endpoint middle after : Endpoint} {session : Session} {frame : Frame} {peer : IdHash}

/-! ## Nothing but sockets -/

/-- Nothing has changed but the locks and the bytes of sockets. -/
def Silent (endpoint after : Endpoint) : Prop :=
  after = { endpoint with
    transport := { endpoint.transport with sockets := after.transport.sockets } }

theorem Silent.refl (endpoint : Endpoint) : Silent endpoint endpoint :=
  rfl

theorem silent_onSocket (endpoint : Endpoint) (conn : ConnId) (change : Socket → Socket) :
    Silent endpoint { endpoint with transport := endpoint.transport.onSocket conn change } :=
  rfl

theorem Silent.trans (hfirst : Silent endpoint middle) (hsecond : Silent middle after) :
    Silent endpoint after := by
  unfold Silent at *
  rw [hsecond, hfirst]

theorem Silent.registry (hsilent : Silent endpoint after) : after.registry = endpoint.registry := by
  rw [hsilent]
  rfl

theorem Silent.dispatcher (hsilent : Silent endpoint after) :
    after.dispatcher = endpoint.dispatcher := by
  rw [hsilent]

/-! ## The handshake -/

/-- A session goes on without a peer, and reads no more. -/
structure GivesUp (session next : Session) : Prop where
  conn : next.conn = session.conn
  peer : next.peer = session.peer
  buffer : next.buffer = session.buffer
  stage : next.stage = .over ∨ next.stage = .refusing

theorem refuse_gives_up (endpoint : Endpoint) (session : Session) :
    Silent endpoint (endpoint.refuse session).1 ∧ GivesUp session (endpoint.refuse session).2 := by
  unfold refuse
  dsimp only
  split
  · exact ⟨.refl endpoint, rfl, rfl, rfl, Or.inl rfl⟩
  · rename_i conn _
    exact ⟨silent_onSocket endpoint conn _, rfl, rfl, rfl, Or.inr rfl⟩

/-- A request is decided once the socket is free only if it can be read and is compatible. -/
theorem onRequest_cases (endpoint : Endpoint) (session : Session) (payload : Bytes) :
    Silent endpoint (endpoint.onRequest session payload).1 ∧
      (GivesUp session (endpoint.onRequest session payload).2 ∨
        ∃ request, Handshake.Request.decode payload = .ok request ∧
          request.check endpoint.settings.chainId endpoint.handlers.versions = .ok () ∧
          (endpoint.onRequest session payload).2 = { session with
            phase := .validated, stage := .accepting (endpoint.requester session request) }) := by
  unfold onRequest
  split
  · exact ⟨.refl endpoint, Or.inl ⟨rfl, rfl, rfl, Or.inl rfl⟩⟩
  rename_i request hdecode
  split
  · obtain ⟨hsilent, hgives⟩ := refuse_gives_up endpoint session
    exact ⟨hsilent, Or.inl hgives⟩
  rename_i hcheck
  dsimp only
  split
  · exact ⟨.refl endpoint, Or.inl ⟨rfl, rfl, rfl, Or.inl rfl⟩⟩
  · rename_i conn _
    exact ⟨silent_onSocket endpoint conn _, Or.inr ⟨request, hdecode, hcheck, rfl⟩⟩

/-- A response activates the dialed node only if it can be read, accepts and the registry agrees. -/
theorem onResponse_cases (endpoint : Endpoint) (session : Session) (payload : Bytes) :
    ((endpoint.onResponse session payload).1 = endpoint ∧
      GivesUp session (endpoint.onResponse session payload).2) ∨
    ∃ response dialed registry latency, Handshake.Response.decode payload = .ok response ∧
      response.accepted = true ∧ session.dialed = some dialed ∧
      endpoint.registry.promoteToActive endpoint.clock session.conn .outbound
        { dialed with revision := response.revisionText } = .ok registry ∧
      (endpoint.onResponse session payload).1 =
        endpoint.setRegistry (registry.updateLatency dialed.idHash latency) ∧
      (endpoint.onResponse session payload).2 =
        { session with dialed := none, phase := .active, peer := some ⟨dialed.idHash,
          dialed.display⟩ } := by
  unfold onResponse
  split
  · exact Or.inl ⟨rfl, rfl, rfl, rfl, Or.inl rfl⟩
  rename_i response hdecode
  split
  · exact Or.inl ⟨rfl, rfl, rfl, rfl, Or.inl rfl⟩
  rename_i haccepted
  split
  · exact Or.inl ⟨rfl, rfl, rfl, rfl, Or.inl rfl⟩
  rename_i dialed hdialed
  dsimp only
  split
  · exact Or.inl ⟨rfl, rfl, rfl, rfl, Or.inl rfl⟩
  rename_i registry hpromote
  exact Or.inr ⟨response, dialed, registry, _, hdecode, by simpa using haccepted, hdialed, hpromote,
    rfl, rfl⟩

/-- On the locked socket the request is accepted if the registry agrees, and refused otherwise. -/
theorem stepAccepting_cases (endpoint : Endpoint) (session : Session) (node : Node) :
    endpoint.stepAccepting session node = (endpoint, session) ∨
    (Silent endpoint (endpoint.stepAccepting session node).1 ∧
      GivesUp session (endpoint.stepAccepting session node).2) ∨
    ∃ registry,
      endpoint.registry.promoteToActive endpoint.clock session.conn .inbound node = .ok registry ∧
      (endpoint.stepAccepting session node).1 = endpoint.setRegistry registry ∧
      (endpoint.stepAccepting session node).2 =
        endpoint.answer (session.activate node) true := by
  unfold stepAccepting
  split
  · exact Or.inl rfl
  split
  · obtain ⟨hsilent, hgives⟩ := refuse_gives_up (endpoint.release session) session
    exact Or.inr (Or.inl ⟨(silent_onSocket endpoint _ _).trans hsilent, hgives⟩)
  · rename_i registry hpromote
    exact Or.inr (Or.inr ⟨registry, hpromote, rfl, rfl⟩)

/-- While an answer is written nothing but the socket changes; only an acceptance is followed by reading. -/
theorem stepAnswering_cases (endpoint : Endpoint) (session : Session) (accepted : Bool)
    (left : Bytes) (deadline : Nat) :
    Silent endpoint (endpoint.stepAnswering session accepted left deadline).1 ∧
      ((endpoint.stepAnswering session accepted left deadline).2 = session.quit ∨
        (∃ rest, (endpoint.stepAnswering session accepted left deadline).2 =
          { session with stage := .answering accepted rest deadline }) ∨
        (accepted = true ∧ ∃ later,
          (endpoint.stepAnswering session accepted left deadline).2 = session.resume later)) := by
  unfold stepAnswering
  split
  · exact ⟨.refl endpoint, Or.inl rfl⟩
  rename_i socket _
  split
  · exact ⟨silent_onSocket endpoint _ _, Or.inl rfl⟩
  dsimp only
  split
  · refine ⟨rfl, ?_⟩
    unfold afterAnswer
    cases accepted with
    | true => exact Or.inr (Or.inr ⟨rfl, _, rfl⟩)
    | false => exact Or.inl rfl
  split
  · exact ⟨rfl, Or.inl rfl⟩
  · exact ⟨rfl, Or.inr (Or.inl ⟨_, rfl⟩)⟩

/-! ## Frames of an active peer -/

/-- The messages for the handlers go in, and no connection becomes active. -/
structure HandsOver (endpoint after : Endpoint) (messages : List Incoming) : Prop where
  dispatcher : after.dispatcher =
    messages.foldl (fun dispatcher message => (dispatcher.submit message).1) endpoint.dispatcher
  registry : Registry.BringsNone endpoint.registry after.registry

theorem Silent.handsOver (hsilent : Silent endpoint after) : HandsOver endpoint after [] :=
  ⟨hsilent.dispatcher, Registry.bringsNone_of_same (congrArg Registry.active hsilent.registry)⟩

theorem violation_handsOver (endpoint : Endpoint) (peer : IdHash) :
    HandsOver endpoint (endpoint.violation peer).1 [] := by
  refine ⟨rfl, ?_⟩
  show Registry.BringsNone endpoint.registry
    (endpoint.violations.check endpoint.registry endpoint.clock peer).2.1
  unfold Violations.check
  dsimp only
  split
  · exact (Registry.dropActive_shrinks (endpoint.registry.ban endpoint.clock peer) peer).bringsNone
  · exact .refl _

theorem ingest_active (now : Nat) (registry : Registry) (entries : List Gossip.Entry) :
    (ingest now registry entries).1.active = registry.active := by
  induction entries generalizing registry with
  | nil => rfl
  | cons entry rest ih =>
      unfold ingest
      split
      · rename_i after hadd
        obtain ⟨_, _, _, _, _, _, rfl⟩ := Registry.addTemp_ok hadd
        exact ih _
      · rfl
      · exact ih registry

theorem takeLatency_registry (endpoint : Endpoint) (peer : IdHash) :
    (endpoint.takeLatency peer).1.registry = endpoint.registry := by
  unfold takeLatency
  split <;> rfl

theorem takeLatency_dispatcher (endpoint : Endpoint) (peer : IdHash) :
    (endpoint.takeLatency peer).1.dispatcher = endpoint.dispatcher := by
  unfold takeLatency
  split <;> rfl

theorem onGossip_handsOver (endpoint : Endpoint) (peer : IdHash) (payload : Bytes) :
    HandsOver endpoint (endpoint.onGossip peer payload) [] := by
  unfold onGossip
  split
  · exact violation_handsOver endpoint peer
  rename_i entries _
  have hregistry := takeLatency_registry endpoint peer
  have hdispatcher := takeLatency_dispatcher endpoint peer
  generalize endpoint.takeLatency peer = taken at hregistry hdispatcher
  obtain ⟨middle, latency⟩ := taken
  refine ⟨hdispatcher, ?_⟩
  refine Registry.BringsNone.trans ?_ (Registry.bringsNone_of_same (ingest_active _ _ entries))
  rw [hregistry]
  split
  · exact .refl _
  · exact Registry.updateActive_bringsNone _ peer _

theorem sendTo_handsOver (endpoint : Endpoint) (dest : Destination) (frame : Frame) :
    HandsOver endpoint (endpoint.sendTo dest frame).1 [] :=
  ⟨rfl, .refl _⟩

theorem onNetFrame_handsOver (endpoint : Endpoint) (peer : IdHash) (frame : Frame) :
    HandsOver endpoint (endpoint.onNetFrame peer frame) [] := by
  unfold onNetFrame
  split
  · exact sendTo_handsOver endpoint _ _
  split
  · exact ⟨rfl, .refl _⟩
  split
  · exact sendTo_handsOver endpoint _ _
  split
  · exact onGossip_handsOver endpoint peer _
  · exact violation_handsOver endpoint peer

/-- A frame of an application is handed over once, a frame of the network core never. -/
theorem onActiveFrame_handsOver (endpoint : Endpoint) (peer : PeerName) (frame : Frame) :
    HandsOver endpoint (endpoint.onActiveFrame peer frame)
      (if frame.isNet then [] else [incoming peer frame]) := by
  have htouch := Registry.updateActive_bringsNone endpoint.registry peer.idHash
    fun node => { node with lastSeen := endpoint.clock }
  unfold onActiveFrame
  dsimp only
  split
  · obtain ⟨hdispatcher, hregistry⟩ := onNetFrame_handsOver
      (endpoint.setRegistry (endpoint.registry.touch endpoint.clock peer.idHash)) peer.idHash frame
    exact ⟨hdispatcher, htouch.trans hregistry⟩
  · exact ⟨rfl, htouch⟩

/-! ## A frame, by the phase of its session -/

/-- A frame is a request that can be read and is compatible with what the endpoint serves. -/
def AdmitsRequest (endpoint : Endpoint) (frame : Frame) : Prop :=
  frame.isNet = true ∧ frame.action = NetAction.handshakeRequest ∧
    ∃ request, Handshake.Request.decode frame.payload = .ok request ∧
      request.check endpoint.settings.chainId endpoint.handlers.versions = .ok ()

/-- A frame is a response that can be read and accepts. -/
def AdmitsResponse (frame : Frame) : Prop :=
  frame.isNet = true ∧ frame.action = NetAction.handshakeResponse ∧
    ∃ response, Handshake.Response.decode frame.payload = .ok response ∧ response.accepted = true

/-- A connection has become active under a name, and nothing else has changed. -/
inductive Promotes (endpoint : Endpoint) (conn : ConnId) (after : Endpoint) : PeerName → Prop where
  | accepted (node : Node) (registry : Registry)
      (hpromote : endpoint.registry.promoteToActive endpoint.clock conn .inbound node = .ok registry)
      (hafter : after = endpoint.setRegistry registry) :
      Promotes endpoint conn after ⟨node.idHash, node.display⟩
  | dialed (node : Node) (registry : Registry) (latency : Nat)
      (hpromote : endpoint.registry.promoteToActive endpoint.clock conn .outbound node = .ok registry)
      (hafter : after = endpoint.setRegistry (registry.updateLatency node.idHash latency)) :
      Promotes endpoint conn after ⟨node.idHash, node.display⟩

/-- All that a frame can do. -/
inductive Receipt (endpoint : Endpoint) (session : Session) (frame : Frame) (after : Endpoint)
    (next : Session) : Prop where
  | refused (hunnamed : session.phase = .active → session.peer = none)
      (hsilent : Silent endpoint after) (hnext : GivesUp session next)
  | request (node : Node) (hphase : session.phase = .awaitingRequest)
      (hadmits : endpoint.AdmitsRequest frame) (hsilent : Silent endpoint after)
      (hnext : next = { session with phase := .validated, stage := .accepting node })
  | response (name : PeerName) (hphase : session.phase = .awaitingResponse)
      (hadmits : AdmitsResponse frame) (hpromotes : Promotes endpoint session.conn after name)
      (hnext : next = { session with dialed := none, phase := .active, peer := some name })
  | active (name : PeerName) (hphase : session.phase = .active) (hpeer : session.peer = some name)
      (hafter : after = endpoint.onActiveFrame name frame) (hnext : next = session)
  /-- Nobody is known to have sent the frame. -/
  | unnamed (hphase : session.phase = .active) (hpeer : session.peer = none)
      (hafter : after = endpoint) (hnext : next = session)

theorem onFrame_receipt (endpoint : Endpoint) (session : Session) (frame : Frame) :
    Receipt endpoint session frame (endpoint.onFrame session frame).1
      (endpoint.onFrame session frame).2 := by
  have hfail : session.phase ≠ .active → Receipt endpoint session frame endpoint session.fail :=
    fun hphase => .refused (fun hactive => absurd hactive hphase) (.refl endpoint)
      ⟨rfl, rfl, rfl, Or.inl rfl⟩
  unfold onFrame
  split
  · rename_i hphase
    have hother : session.phase ≠ .active := by rw [hphase]; nofun
    split
    · rename_i hframe
      obtain ⟨hnet, haction⟩ := Bool.and_eq_true_iff.mp hframe
      obtain ⟨hsilent, hgives | ⟨request, hdecode, hcheck, hnext⟩⟩ :=
        onRequest_cases endpoint session frame.payload
      · exact .refused (fun hactive => absurd hactive hother) hsilent hgives
      · exact .request _ hphase ⟨hnet, beq_iff_eq.mp haction, request, hdecode, hcheck⟩ hsilent hnext
    · exact hfail hother
  · rename_i hphase
    have hother : session.phase ≠ .active := by rw [hphase]; nofun
    split
    · rename_i hframe
      obtain ⟨hnet, haction⟩ := Bool.and_eq_true_iff.mp hframe
      rcases onResponse_cases endpoint session frame.payload with ⟨hafter, hgives⟩ |
        ⟨response, dialed, registry, latency, hdecode, haccepted, _, hpromote, hafter, hnext⟩
      · exact .refused (fun hactive => absurd hactive hother)
          (by rw [hafter]; exact .refl endpoint) hgives
      · exact .response ⟨dialed.idHash, dialed.display⟩ hphase
          ⟨hnet, beq_iff_eq.mp haction, response, hdecode, haccepted⟩
          (.dialed { dialed with revision := response.revisionText } registry latency hpromote hafter)
          hnext
    · exact hfail hother
  · rename_i name hphase hpeer
    exact .active name hphase hpeer rfl rfl
  · rename_i hphase hpeer
    dsimp only
    split
    · exact .refused (fun _ => hpeer) (.refl endpoint) ⟨rfl, rfl, rfl, Or.inl rfl⟩
    · exact .unnamed hphase hpeer rfl rfl
  · rename_i hphase
    exact hfail (by rw [hphase]; nofun)
  · rename_i hphase
    exact hfail (by rw [hphase]; nofun)

end Endpoint

end Peering
