import Peering.Proofs.Registry.Identity
import Peering.Proofs.Registry.Leads
import Peering.Proofs.Delivery.Endurance
import Peering.Proofs.Session.Reach
import Peering.Proofs.Session.Setup

/-!
# What a step of a session leaves behind

A step of a session brings its own connection among the active ones at most, under
the hash of the node that was dialed or that asked; it hands in at most one message,
to an active peer; and it writes on its own socket only, and only an answer.
-/

namespace Peering

namespace Endpoint

open Registry (Keyed Narrows)

variable {endpoint middle after : Endpoint} {session : Session} {frame : Frame} {conn : ConnId}

/-! ## Frames of an active peer -/

/-- Nothing new leads to any connection, and at most one message is handed in, to an active peer. -/
structure Calm (endpoint after : Endpoint) : Prop where
  narrows : endpoint.registry.Narrows after.registry
  self : after.registry.self = endpoint.registry.self
  outbox : after.transport.outbox = endpoint.transport.outbox ∨ ∃ peer frame time,
    after.transport.outbox = (endpoint.transport.outbox.send ⟨.active peer, frame, time⟩).1
  sockets : after.transport.sockets = endpoint.transport.sockets
  sessions : after.sessions = endpoint.sessions

theorem Calm.of_registry (hnarrows : endpoint.registry.Narrows after.registry)
    (hself : after.registry.self = endpoint.registry.self)
    (houtbox : after.transport.outbox = endpoint.transport.outbox)
    (hsockets : after.transport.sockets = endpoint.transport.sockets)
    (hsessions : after.sessions = endpoint.sessions) : Calm endpoint after :=
  ⟨hnarrows, hself, Or.inl houtbox, hsockets, hsessions⟩

theorem Calm.refl (endpoint : Endpoint) : Calm endpoint endpoint :=
  .of_registry (Registry.narrows_of_same rfl rfl rfl) rfl rfl rfl rfl

/-- A change of the registry that leads nowhere new comes first. -/
theorem Calm.after_registry {registry : Registry} (hnarrows : endpoint.registry.Narrows registry)
    (hself : registry.self = endpoint.registry.self)
    (h : Calm (endpoint.setRegistry registry) after) : Calm endpoint after :=
  ⟨hnarrows.trans h.narrows, h.self.trans hself, h.outbox, h.sockets, h.sessions⟩

theorem violation_calm (endpoint : Endpoint) (peer : IdHash) :
    Calm endpoint (endpoint.violation peer).1 := by
  have hcheck : endpoint.registry.Narrows (endpoint.violation peer).1.registry ∧
      (endpoint.violation peer).1.registry.self = endpoint.registry.self := by
    show Narrows _ (endpoint.violations.check endpoint.registry endpoint.clock peer).2.1 ∧
      (endpoint.violations.check endpoint.registry endpoint.clock peer).2.1.self = _
    unfold Violations.check
    dsimp only
    split
    · have hbanned := Registry.dropActive_shrinks (endpoint.registry.ban endpoint.clock peer) peer
      exact ⟨hbanned.leads, Registry.dropActive_self (endpoint.registry.ban endpoint.clock peer) peer⟩
    · exact ⟨Registry.narrows_of_same rfl rfl rfl, rfl⟩
  exact .of_registry hcheck.1 hcheck.2 rfl rfl rfl

theorem ingest_calm (now : Nat) (registry : Registry) (entries : List Gossip.Entry) :
    Narrows registry (ingest now registry entries).1 ∧
      (ingest now registry entries).1.self = registry.self := by
  induction entries generalizing registry with
  | nil => exact ⟨Registry.narrows_of_same rfl rfl rfl, rfl⟩
  | cons entry rest ih =>
      unfold ingest
      split
      · rename_i next hadd
        obtain ⟨_, _, _, _, _, _, rfl⟩ := Registry.addTemp_ok hadd
        exact ⟨Narrows.trans (Registry.narrows_of_same rfl rfl rfl) (ih _).1, (ih _).2⟩
      · exact ⟨Registry.narrows_of_same rfl rfl rfl, rfl⟩
      · exact ih registry

theorem takeLatency_calm (endpoint : Endpoint) (peer : IdHash) :
    Calm endpoint (endpoint.takeLatency peer).1 := by
  unfold takeLatency
  split <;> exact .of_registry (Registry.narrows_of_same rfl rfl rfl) rfl rfl rfl rfl

theorem onGossip_calm (endpoint : Endpoint) (peer : IdHash) (payload : Bytes) :
    Calm endpoint (endpoint.onGossip peer payload) := by
  unfold onGossip
  split
  · exact violation_calm endpoint peer
  rename_i entries _
  obtain ⟨hnarrows, hself, houtbox, hsockets, hsessions⟩ := takeLatency_calm endpoint peer
  generalize endpoint.takeLatency peer = taken at hnarrows hself houtbox hsockets hsessions
  obtain ⟨next, latency⟩ := taken
  cases latency with
  | none =>
      obtain ⟨hingests, hsame⟩ := ingest_calm next.clock next.registry entries
      exact ⟨hnarrows.trans hingests, hsame.trans hself, houtbox, hsockets, hsessions⟩
  | some latency =>
      have hmeasured : Narrows next.registry (next.registry.updateLatency peer latency) :=
        Registry.updateActive_narrows _ _ _
      obtain ⟨hingests, hsame⟩ := ingest_calm next.clock
        (next.registry.updateLatency peer latency) entries
      exact ⟨hnarrows.trans (hmeasured.trans hingests), hsame.trans hself, houtbox, hsockets,
        hsessions⟩

theorem sendTo_calm (endpoint : Endpoint) (peer : IdHash) (frame : Frame) :
    Calm endpoint (endpoint.sendTo (.active peer) frame).1 :=
  ⟨Registry.narrows_of_same rfl rfl rfl, rfl, Or.inr ⟨peer, frame, _, rfl⟩, rfl, rfl⟩

theorem onActiveFrame_calm (endpoint : Endpoint) (peer : PeerName) (frame : Frame) :
    Calm endpoint (endpoint.onActiveFrame peer frame) := by
  have htouch : Narrows endpoint.registry (endpoint.registry.touch endpoint.clock peer.idHash) :=
    Registry.updateActive_narrows _ _ _
  refine .after_registry htouch rfl ?_
  unfold onActiveFrame onNetFrame
  dsimp only
  split
  · split
    · exact sendTo_calm _ _ _
    split
    · exact .refl _
    split
    · exact sendTo_calm _ _ _
    split
    · exact onGossip_calm _ _ _
    · exact violation_calm _ _
  · exact .of_registry (Registry.narrows_of_same rfl rfl rfl) rfl rfl rfl rfl

theorem onOversized_calm (endpoint : Endpoint) (session : Session) :
    Calm endpoint (endpoint.onOversized session) := by
  unfold onOversized
  split
  · exact violation_calm _ _
  · exact .refl _

/-! ## One step -/

/-- The node as which the peer of a session can become active in the next step. -/
def Proposes (session : Session) (peer : IdHash) : Prop :=
  ∃ node : Node, node.idHash = peer ∧
    (session.dialed = some node ∨ session.stage = .accepting node)

/-- What a step of a session can do to its endpoint. -/
structure Stirs (endpoint : Endpoint) (session : Session) (after : Endpoint) : Prop where
  leads : endpoint.registry.Keyed → ∀ dest conn, after.registry.Leads dest conn →
    endpoint.registry.Leads dest conn ∨
      ∃ peer, dest = .active peer ∧ conn = session.conn ∧ Proposes session peer
  self : after.registry.self = endpoint.registry.self
  outbox : after.transport.outbox = endpoint.transport.outbox ∨ ∃ peer frame time,
    after.transport.outbox = (endpoint.transport.outbox.send ⟨.active peer, frame, time⟩).1
  isSome : ∀ conn, (after.transport.socket? conn).isSome =
    (endpoint.transport.socket? conn).isSome
  unread : ∀ conn, session.stage = .reading ∨ conn ≠ session.conn →
    after.transport.unread conn = endpoint.transport.unread conn
  sessions : after.sessions = endpoint.sessions

theorem Calm.stirs (h : Calm endpoint after) (session : Session) : Stirs endpoint session after where
  leads := fun _ dest conn hleads => Or.inl (h.narrows dest conn hleads)
  self := h.self
  outbox := h.outbox
  isSome := fun conn => by simp only [Transport.socket?, h.sockets]
  unread := fun conn _ => by simp only [Transport.unread, Transport.socket?, h.sockets]
  sessions := h.sessions

theorem Stirs.refl (endpoint : Endpoint) (session : Session) : Stirs endpoint session endpoint :=
  (Calm.refl endpoint).stirs session

/-- A session changes a socket without writing, or writes an answer on its own one. -/
theorem Stirs.onSocket (h : Stirs endpoint session middle) (changed : ConnId)
    (change : Socket → Socket) (hchange : (∀ socket, (change socket).unread = socket.unread) ∨
      session.stage ≠ .reading ∧ changed = session.conn) :
    Stirs endpoint session
      { middle with transport := middle.transport.onSocket changed change } where
  leads := h.leads
  self := h.self
  outbox := h.outbox
  isSome := fun conn => by
    rw [← h.isSome conn, Transport.socket?_onSocket]
    split
    · exact Option.isSome_map
    · rfl
  unread := fun conn hconn => by
    rw [← h.unread conn hconn]
    rcases hchange with hsame | ⟨hbusy, rfl⟩
    · exact Transport.unread_onSocket _ _ hsame
    · have hother := hconn.resolve_left hbusy
      exact Transport.unread_congr ((Transport.socket?_onSocket ..).trans (if_neg hother))
  sessions := h.sessions

theorem Stirs.ask (h : Stirs endpoint session middle) (conn : ConnId) (holder : Holder) :
    Stirs endpoint session
      { middle with transport := middle.transport.onSocket conn (·.ask holder) } :=
  h.onSocket conn _ (Or.inl fun _ => Socket.ask_unread)

theorem Stirs.release (h : Stirs endpoint session middle) :
    Stirs endpoint session (middle.release session) :=
  h.onSocket session.conn _ (Or.inl fun _ => rfl)

theorem Stirs.refuse (h : Stirs endpoint session middle) :
    Stirs endpoint session (middle.refuse session).1 := by
  unfold Endpoint.refuse
  dsimp only
  split
  · exact h
  · exact h.ask _ _

theorem onRequest_stirs (endpoint : Endpoint) (session : Session) (payload : Bytes) :
    Stirs endpoint session (endpoint.onRequest session payload).1 := by
  unfold onRequest
  split
  · exact .refl endpoint session
  split
  · exact (Stirs.refl endpoint session).refuse
  dsimp only
  split
  · exact .refl endpoint session
  · exact (Stirs.refl endpoint session).ask _ _

theorem onResponse_stirs (endpoint : Endpoint) (session : Session) (payload : Bytes) :
    Stirs endpoint session (endpoint.onResponse session payload).1 := by
  rcases onResponse_cases endpoint session payload with ⟨hafter, _⟩ |
    ⟨_, dialed, registry, latency, _, _, hdialed, hpromote, hafter, _⟩
  · rw [hafter]
    exact .refl endpoint session
  · rw [hafter]
    have hself : registry.self = endpoint.registry.self := Registry.promoteToActive_self hpromote
    refine ⟨fun hkeyed dest conn hleads => ?_, hself, Or.inl rfl, fun _ => rfl, fun _ _ => rfl, rfl⟩
    have hmeasured : Narrows registry (registry.updateLatency dialed.idHash latency) :=
      Registry.updateActive_narrows _ _ _
    rcases hkeyed.promoteToActive_leads hpromote (hmeasured dest conn hleads) with hold | ⟨rfl, rfl⟩
    · exact Or.inl hold
    · exact Or.inr ⟨_, rfl, rfl, dialed, rfl, Or.inl hdialed⟩

theorem onFrame_stirs (endpoint : Endpoint) (session : Session) (frame : Frame) :
    Stirs endpoint session (endpoint.onFrame session frame).1 := by
  unfold onFrame
  split
  · split
    · exact onRequest_stirs endpoint session frame.payload
    · exact .refl endpoint session
  · split
    · exact onResponse_stirs endpoint session frame.payload
    · exact .refl endpoint session
  · exact (onActiveFrame_calm endpoint _ frame).stirs session
  · exact .refl endpoint session
  · exact .refl endpoint session
  · exact .refl endpoint session

theorem stepReading_stirs (endpoint : Endpoint) (session : Session) (heeds : Bool) :
    Stirs endpoint session (endpoint.stepReading session heeds).1 := by
  unfold stepReading
  split
  · exact .refl endpoint session
  split
  · rename_i frame rest _
    have hframe := onFrame_stirs endpoint { session with
      buffer := rest, deadline := endpoint.timer + endpoint.settings.readTimeout } frame
    exact ⟨hframe.leads, hframe.self, hframe.outbox, hframe.isSome, hframe.unread, hframe.sessions⟩
  · exact (onOversized_calm endpoint session).stirs session
  · split <;> exact .refl endpoint session

theorem stepAccepting_stirs {node : Node} (hstage : session.stage = .accepting node) :
    Stirs endpoint session (endpoint.stepAccepting session node).1 := by
  unfold stepAccepting
  split
  · exact .refl endpoint session
  split
  · exact (Stirs.refl endpoint session).release.refuse
  · rename_i registry hpromote
    refine ⟨fun hkeyed dest conn hleads => ?_, Registry.promoteToActive_self hpromote, Or.inl rfl,
      fun _ => rfl, fun _ _ => rfl, rfl⟩
    rcases hkeyed.promoteToActive_leads hpromote hleads with hold | ⟨rfl, rfl⟩
    · exact Or.inl hold
    · exact Or.inr ⟨_, rfl, rfl, node, rfl, Or.inr hstage⟩

theorem stepAnswering_stirs {accepted : Bool} {left : Bytes} {deadline : Nat}
    (hstage : session.stage = .answering accepted left deadline) :
    Stirs endpoint session (endpoint.stepAnswering session accepted left deadline).1 := by
  have hbusy : session.stage ≠ .reading := by rw [hstage]; nofun
  unfold stepAnswering
  split
  · exact .refl endpoint session
  split
  · exact (Stirs.refl endpoint session).release
  have hwrites : ∀ socket : Socket, Stirs endpoint session { endpoint with
      transport := endpoint.transport.onSocket session.conn fun _ => socket } := fun _ =>
    (Stirs.refl endpoint session).onSocket session.conn _ (Or.inr ⟨hbusy, rfl⟩)
  dsimp only
  split
  · exact (hwrites _).release
  split
  · exact (hwrites _).release
  · exact hwrites _

theorem advanceSession_stirs (endpoint : Endpoint) (session : Session) (heeds : Bool) :
    Stirs endpoint session (endpoint.advanceSession session heeds).1 := by
  unfold advanceSession
  split
  · exact stepReading_stirs endpoint session heeds
  · rename_i node hstage
    exact stepAccepting_stirs hstage
  · unfold stepRefusing
    split <;> exact .refl endpoint session
  · rename_i hstage
    exact stepAnswering_stirs hstage
  · exact .refl endpoint session

/-! ## What becomes of the session -/

/-- A request has been found in the buffer of a session that waits for one. -/
def Hears (session : Session) (peer : IdHash) : Prop :=
  session.phase = .awaitingRequest ∧ ∃ limit frame rest request,
    FrameStream.front limit session.buffer = .frame frame rest ∧
    Handshake.Request.decode frame.payload = .ok request ∧ request.id.hash = peer

/-- What a session keeps when it goes on. -/
structure Follows (session next : Session) : Prop where
  conn : next.conn = session.conn
  dialed : ∀ node, next.dialed = some node → session.dialed = some node
  phase : next.phase = .awaitingRequest → session.phase = .awaitingRequest
  stage : ∀ node, next.stage = .accepting node →
    session.stage = .accepting node ∨ Hears session node.idHash

theorem Follows.of_same {next : Session} (hconn : next.conn = session.conn)
    (hdialed : next.dialed = session.dialed)
    (hphase : next.phase = session.phase ∨ next.phase ≠ .awaitingRequest)
    (hstage : next.stage = session.stage ∨ ∀ node, next.stage ≠ .accepting node) :
    Follows session next where
  conn := hconn
  dialed := fun _ h => hdialed ▸ h
  phase := fun h => hphase.elim (fun hsame => hsame ▸ h) fun hother => absurd h hother
  stage := fun node h => Or.inl (hstage.elim (fun hsame => hsame ▸ h) fun hother =>
    absurd h (hother node))

theorem Follows.refl (session : Session) : Follows session session :=
  .of_same rfl rfl (Or.inl rfl) (Or.inl rfl)

theorem Follows.quit (session : Session) : Follows session session.quit :=
  .of_same rfl rfl (Or.inl rfl) (Or.inr fun _ => nofun)

theorem Follows.fail (session : Session) : Follows session session.fail :=
  .of_same rfl rfl (Or.inr nofun) (Or.inr fun _ => nofun)

theorem refuse_follows (endpoint : Endpoint) (session : Session) :
    Follows session (endpoint.refuse session).2 := by
  unfold Endpoint.refuse
  dsimp only
  split
  · exact .of_same rfl rfl (Or.inr nofun) (Or.inr fun _ => nofun)
  · exact .of_same rfl rfl (Or.inr nofun) (Or.inr fun _ => nofun)

/-- Whatever becomes of a request, the session waits for no other. -/
theorem onRequest_next (endpoint : Endpoint) (session : Session) (payload : Bytes) :
    (endpoint.onRequest session payload).2.conn = session.conn ∧
      (endpoint.onRequest session payload).2.dialed = session.dialed ∧
      (endpoint.onRequest session payload).2.phase ≠ .awaitingRequest ∧
      ∀ node, (endpoint.onRequest session payload).2.stage = .accepting node →
        session.stage = .accepting node ∨ ∃ request,
          Handshake.Request.decode payload = .ok request ∧ request.id.hash = node.idHash := by
  unfold onRequest
  split
  · exact ⟨rfl, rfl, nofun, nofun⟩
  rename_i request hdecode
  split
  · unfold Endpoint.refuse
    dsimp only
    split <;> exact ⟨rfl, rfl, nofun, nofun⟩
  dsimp only
  split
  · exact ⟨rfl, rfl, nofun, nofun⟩
  · refine ⟨rfl, rfl, nofun, fun node hstage => Or.inr ⟨request, hdecode, ?_⟩⟩
    cases hstage
    rfl

theorem onResponse_follows (endpoint : Endpoint) (session : Session) (payload : Bytes) :
    Follows session (endpoint.onResponse session payload).2 := by
  unfold onResponse
  split
  · exact .fail session
  split
  · exact .fail session
  split
  · exact .fail session
  dsimp only
  split
  · exact ⟨rfl, nofun, nofun, nofun⟩
  · exact ⟨rfl, nofun, nofun, fun _ => Or.inl⟩

/-- The request that a session finds first is the one that it goes by. -/
theorem onFrame_follows {limit : Nat} {rest : Bytes} (deadline : Nat)
    (hfront : FrameStream.front limit session.buffer = .frame frame rest) :
    Follows session
      (endpoint.onFrame { session with buffer := rest, deadline := deadline } frame).2 := by
  have hfails : Follows session { session with buffer := rest, deadline := deadline }.fail :=
    .of_same rfl rfl (Or.inr nofun) (Or.inr fun _ => nofun)
  unfold onFrame
  split
  · rename_i hphase
    split
    · obtain ⟨hconn, hdialed, hnext, hstage⟩ := onRequest_next endpoint
        { session with buffer := rest, deadline := deadline } frame.payload
      refine ⟨hconn, fun _ h => hdialed.symm.trans h, fun h => absurd h hnext, fun node h => ?_⟩
      refine (hstage node h).imp id ?_
      rintro ⟨request, hdecode, hhash⟩
      exact ⟨hphase, limit, frame, rest, request, hfront, hdecode, hhash⟩
    · exact hfails
  · rename_i hresponse
    split
    · obtain ⟨hconn, hdialed, hphase, hstage⟩ := onResponse_follows endpoint
        { session with buffer := rest, deadline := deadline } frame.payload
      refine ⟨hconn, hdialed, hphase, fun node h => Or.inl ?_⟩
      rcases hstage node h with hsame | ⟨hwaits, _⟩
      · exact hsame
      · cases hresponse.symm.trans hwaits
    · exact hfails
  · exact .of_same rfl rfl (Or.inl rfl) (Or.inl rfl)
  · dsimp only
    split
    · exact .of_same rfl rfl (Or.inl rfl) (Or.inr fun _ => nofun)
    · exact .of_same rfl rfl (Or.inl rfl) (Or.inl rfl)
  · exact hfails
  · exact hfails

theorem stepReading_follows (endpoint : Endpoint) (session : Session) (heeds : Bool) :
    Follows session (endpoint.stepReading session heeds).2 := by
  unfold stepReading
  split
  · exact .quit session
  split
  · rename_i hfront
    exact onFrame_follows _ hfront
  · exact .quit session
  · split
    · exact .quit session
    · exact .refl session

theorem stepAccepting_follows (endpoint : Endpoint) (session : Session) (node : Node) :
    Follows session (endpoint.stepAccepting session node).2 := by
  unfold stepAccepting
  split
  · exact .refl session
  split
  · exact refuse_follows _ session
  · exact .of_same rfl rfl (Or.inr nofun) (Or.inr fun _ => nofun)

theorem stepAnswering_follows (endpoint : Endpoint) (session : Session) (accepted : Bool)
    (left : Bytes) (deadline : Nat) :
    Follows session (endpoint.stepAnswering session accepted left deadline).2 := by
  unfold stepAnswering
  split
  · exact .quit session
  split
  · exact .quit session
  dsimp only
  split
  · unfold afterAnswer
    split
    · exact .of_same rfl rfl (Or.inl rfl) (Or.inr fun _ => nofun)
    · exact .quit session
  split
  · exact .quit session
  · exact .of_same rfl rfl (Or.inl rfl) (Or.inr fun _ => nofun)

theorem advanceSession_follows (endpoint : Endpoint) (session : Session) (heeds : Bool) :
    Follows session (endpoint.advanceSession session heeds).2 := by
  unfold advanceSession
  split
  · exact stepReading_follows endpoint session heeds
  · exact stepAccepting_follows endpoint session _
  · unfold stepRefusing
    split
    · exact .of_same rfl rfl (Or.inl rfl) (Or.inr fun _ => nofun)
    · exact .refl session
  · exact stepAnswering_follows endpoint session _ _ _
  · exact .refl session

end Endpoint

end Peering
