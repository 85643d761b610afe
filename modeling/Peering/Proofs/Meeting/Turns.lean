import Peering.Proofs.Handshake.RoundTrip
import Peering.Proofs.Meeting.Ends

/-!
# The turns of sessions

What one step of a session does to the end that it reads: the session goes on,
puts bytes of its answer on the socket, or is over and takes its connection with
it. Only a promotion of an accepted connection reaches other ends, because a dial
may have to yield to it.
-/

namespace Peering

/-- An end whose connection has to yield when it is a dial. -/
def End.yielded (old : End) : End :=
  if old.place.isDialed then { old with place := .closed } else old

namespace Endpoint

variable {endpoint middle after : Endpoint} {peer : IdHash} {conn other : ConnId}
  {session : Session} {new newer : End}

/-- A node changes one of its ends only. -/
structure Becomes (peer : IdHash) (conn : ConnId) (endpoint after : Endpoint) (new : End) :
    Prop where
  steady : after.Steady peer
  same : endpoint.IsSame after
  here : after.endOf conn = new
  others : ∀ other, other ≠ conn → after.endOf other = endpoint.endOf other

theorem IsSame.refl (endpoint : Endpoint) : endpoint.IsSame endpoint :=
  ⟨rfl, rfl, rfl, rfl, rfl, rfl⟩

theorem IsSame.trans (hfirst : endpoint.IsSame middle) (hsecond : middle.IsSame after) :
    endpoint.IsSame after :=
  ⟨hsecond.settings.trans hfirst.settings, hsecond.handlers.trans hfirst.handlers,
    hsecond.templates.trans hfirst.templates, hsecond.self.trans hfirst.self,
    hsecond.limits.trans hfirst.limits, hsecond.outboxLimits.trans hfirst.outboxLimits⟩

theorem Becomes.refl (h : Steady peer endpoint) (conn : ConnId) :
    Becomes peer conn endpoint endpoint (endpoint.endOf conn) :=
  ⟨h, IsSame.refl endpoint, rfl, fun _ _ => rfl⟩

theorem Becomes.trans (hfirst : Becomes peer conn endpoint middle new)
    (hsecond : Becomes peer conn middle after newer) : Becomes peer conn endpoint after newer :=
  ⟨hsecond.steady, hfirst.same.trans hsecond.same, hsecond.here,
    fun other hother => (hsecond.others other hother).trans (hfirst.others other hother)⟩

/-! ## Parts of a turn -/

theorem Steady.addSession (h : Steady peer endpoint) (hconn : session.conn = conn)
    (hknown : endpoint.registry.Knows conn) :
    Becomes peer conn endpoint (endpoint.addSession session)
      { endpoint.endOf conn with session := some session } := by
  have hfind : ∀ other, (endpoint.addSession session).sessions.find? other =
      if other = conn then some session else endpoint.sessions.find? other := by
    intro other
    rw [← hconn]
    exact Table.find?_insert _ _ _ _
  refine ⟨{ h with session := ?_ }, ⟨rfl, rfl, rfl, rfl, rfl, rfl⟩, ?_, ?_⟩
  · intro other found hfound
    rw [hfind] at hfound
    split at hfound
    · rename_i hother
      cases hfound
      rw [hother]
      exact ⟨hconn, hknown⟩
    · exact h.session other found hfound
  · simp only [endOf, hfind, if_true]
    rfl
  · intro other hother
    simp only [endOf, hfind, if_neg hother]
    rfl

theorem Steady.setRegistry (h : Steady peer endpoint) {registry : Registry}
    (hdeals : registry.DealsWith peer)
    (hclosed : ∀ conn, endpoint.registry.isClosed conn = true → registry.isClosed conn = true)
    (hknows : ∀ conn, endpoint.registry.Knows conn → registry.Knows conn)
    (hopened : ∀ conn, registry.Knows conn → (endpoint.transport.socket? conn).isSome = true) :
    Steady peer (endpoint.setRegistry registry) where
  deals := hdeals
  light := h.light
  cargo_known := fun conn bytes hmem => hknows conn (h.cargo_known conn bytes hmem)
  opened := hopened
  closer := fun conn socket hsocket hcloser => hclosed conn (h.closer conn socket hsocket hcloser)
  unhung := h.unhung
  session := fun conn session hsession =>
    ⟨(h.session conn session hsession).1, hknows conn (h.session conn session hsession).2⟩
  going := h.going

theorem Steady.release_registry (h : Steady peer endpoint) {registry : Registry}
    (hdeals : registry.DealsWith peer) (hreleases : endpoint.registry.Releases registry) :
    Steady peer (endpoint.setRegistry registry) :=
  h.setRegistry hdeals hreleases.closed (fun conn => (hreleases.knows conn).mpr)
    fun conn hknown => h.opened conn ((hreleases.knows conn).mp hknown)

theorem endOf_setRegistry (endpoint : Endpoint) (registry : Registry) (conn : ConnId) :
    (endpoint.setRegistry registry).endOf conn =
      { endpoint.endOf conn with place := registry.placeOf conn } :=
  rfl

theorem becomes_setRegistry {registry : Registry} {place : Place}
    (hsteady : Steady peer (endpoint.setRegistry registry))
    (hterms : endpoint.registry.KeepsTerms registry)
    (hplaces : ∀ other, registry.placeOf other =
      if other = conn then place else endpoint.registry.placeOf other) :
    Becomes peer conn endpoint (endpoint.setRegistry registry)
      { endpoint.endOf conn with place := place } := by
  refine ⟨hsteady, ⟨rfl, rfl, rfl, hterms.self, hterms.limits, rfl⟩, ?_, ?_⟩
  · rw [endOf_setRegistry, hplaces, if_pos rfl]
  · intro other hother
    rw [endOf_setRegistry, hplaces, if_neg hother]
    rfl

/-- A session that is over takes its connection with it. -/
theorem Steady.keepSession_over (h : Steady peer endpoint) (hconn : session.conn = conn)
    (hknown : endpoint.registry.Knows conn) (hover : session.isOver = true) :
    Becomes peer conn endpoint (endpoint.keepSession session)
      { endpoint.endOf conn with place := .closed, session := none } := by
  have hdropped : Steady peer { endpoint with sessions := endpoint.sessions.erase conn } := by
    refine { h with session := ?_ }
    intro other found hfound
    have hfind := Table.find?_erase endpoint.sessions other conn
    rw [show ({ endpoint with sessions := endpoint.sessions.erase conn } : Endpoint).sessions.find?
      other = _ from hfind] at hfound
    split at hfound
    · cases hfound
    · exact h.session other found hfound
  have hends : ∀ other, { endpoint with sessions := endpoint.sessions.erase conn }.endOf other =
      { endpoint.endOf other with
        session := if other = conn then none else endpoint.sessions.find? other } := by
    intro other
    simp only [endOf, Table.find?_erase]
    rfl
  have hsteady := hdropped.release_registry (h.deals.removeConn hknown)
    (h.deals.coherent.keyed.removeConn_releases conn)
  have hmoves := becomes_setRegistry hsteady (endpoint.registry.removeConn_keepsTerms conn)
    (h.deals.placeOf_removeConn hknown)
  have hafter : endpoint.keepSession session =
      { endpoint with sessions := endpoint.sessions.erase conn }.setRegistry
        (endpoint.registry.removeConn conn).1 := by
    rw [keepSession, if_pos hover, hconn]
  rw [hafter]
  have hsame : endpoint.IsSame { endpoint with sessions := endpoint.sessions.erase conn } :=
    ⟨rfl, rfl, rfl, rfl, rfl, rfl⟩
  refine ⟨hmoves.steady, hsame.trans hmoves.same, ?_, ?_⟩
  · rw [hmoves.here, hends, if_pos rfl]
  · intro other hother
    rw [hmoves.others other hother, hends, if_neg hother]
    rfl

theorem keepSession_of_going (hgoing : session.isOver = false) :
    endpoint.keepSession session = endpoint.addSession session := by
  rw [keepSession, if_neg (by simp [hgoing])]
  rfl

/-- A task asks for a lock or gives it up; nobody else notices. -/
theorem Steady.onSocket (h : Steady peer endpoint) {change : Socket → Socket}
    (hopen : ∀ socket, KeepsOpen socket (change socket))
    (hunread : ∀ socket, (change socket).unread = socket.unread) :
    Becomes peer conn endpoint
      { endpoint with transport := endpoint.transport.onSocket conn change }
      (endpoint.endOf conn) := by
  have hsockets := fun other => Transport.socket?_onSocket endpoint.transport other conn change
  have hstill : Carries peer endpoint
      { endpoint with transport := endpoint.transport.onSocket conn change } :=
    Carries.of_still h rfl h.light rfl rfl (unread_of_change hsockets hunread)
      (KeepsSockets.of_change conn _ hsockets fun socket _ => Or.inl (hopen socket))
  have hends : ∀ other, { endpoint with transport := endpoint.transport.onSocket conn change }.endOf
      other = endpoint.endOf other := fun other =>
    endOf_onTransport rfl (unread_of_change hsockets hunread other) rfl
  exact ⟨hstill.steady, hstill.same, hends conn, fun other _ => hends other⟩

/-- A session puts bytes on a socket that is not broken. -/
theorem Steady.put (h : Steady peer endpoint) {socket : Socket} (left : Bytes)
    (hsocket : endpoint.transport.socket? conn = some socket) :
    ∃ bytes, left = bytes ++ (socket.put left).2 ∧
      Becomes peer conn endpoint
        { endpoint with transport := endpoint.transport.onSocket conn fun _ => (socket.put left).1 }
        { endpoint.endOf conn with unread := (endpoint.endOf conn).unread ++ bytes } := by
  refine ⟨left.take (socket.capacity - socket.unread.length), (List.take_append_drop _ _).symm, ?_⟩
  have hsockets := fun other => Transport.socket?_onSocket endpoint.transport other conn
    fun _ => (socket.put left).1
  have hkept : KeepsSockets (endpoint.registry.isClosed · = true) endpoint.transport
      (endpoint.transport.onSocket conn fun _ => (socket.put left).1) := by
    apply KeepsSockets.of_change conn _ hsockets
    intro old hold
    have hsame : old = socket := Option.some.inj (hold.symm.trans hsocket)
    rw [hsame]
    exact Or.inl ⟨rfl, id⟩
  have hbefore : endpoint.transport.unread conn = socket.unread := by
    simp [Transport.unread, hsocket]
  have hafter : (endpoint.transport.onSocket conn fun _ => (socket.put left).1).unread conn =
      socket.unread ++ left.take (socket.capacity - socket.unread.length) := by
    rw [Transport.unread, hsockets, if_pos rfl, hsocket]
    rfl
  refine ⟨h.of_transport rfl h.light (fun _ bytes hmem => ⟨bytes, hmem⟩) hkept,
    ⟨rfl, rfl, rfl, rfl, rfl, rfl⟩, ?_, ?_⟩
  · simp only [endOf, hbefore, hafter]
    rfl
  · intro other hother
    refine endOf_onTransport rfl ?_ rfl
    simp [Transport.unread, hsockets, hother]

/-! ## A turn -/

variable {next : Session} {limit : Nat} {frame : Frame} {rest : Bytes} {heeds : Bool}

theorem stepSession_eq (hsession : endpoint.sessions.find? conn = some session)
    (hadvance : endpoint.advanceSession session heeds = (middle, next)) :
    endpoint.stepSession conn heeds = middle.keepSession next := by
  simp only [stepSession, hsession, hadvance]

theorem Becomes.knows (h : Becomes peer conn endpoint middle new) (hplace : new.place ≠ .unknown) :
    middle.registry.Knows conn := by
  rw [Registry.knows_iff_place]
  rw [← h.here] at hplace
  exact hplace

theorem Becomes.addSession (h : Becomes peer conn endpoint middle new) (hconn : next.conn = conn)
    (hplace : new.place ≠ .unknown) :
    Becomes peer conn endpoint (middle.addSession next) { new with session := some next } := by
  rw [← h.here]
  exact h.trans (h.steady.addSession hconn (h.knows hplace))

theorem Becomes.goesOn (h : Becomes peer conn endpoint middle new) (hconn : next.conn = conn)
    (hplace : new.place ≠ .unknown) (hgoing : next.isOver = false) :
    Becomes peer conn endpoint (middle.keepSession next) { new with session := some next } := by
  rw [keepSession_of_going hgoing]
  exact h.addSession hconn hplace

theorem Becomes.ends (h : Becomes peer conn endpoint middle new) (hconn : next.conn = conn)
    (hplace : new.place ≠ .unknown) (hover : next.isOver = true) :
    Becomes peer conn endpoint (middle.keepSession next)
      { new with place := .closed, session := none } := by
  rw [← h.here]
  exact h.trans (h.steady.keepSession_over hconn (h.knows hplace) hover)

/-! ## Reading -/

theorem Steady.isCancelled_eq (h : Steady peer endpoint) (hconn : session.conn = conn) :
    endpoint.isCancelled session = (endpoint.endOf conn).place.isClosed := by
  rw [isCancelled, h.going, Bool.false_or, hconn]
  rfl

theorem Steady.place_ne_unknown (h : Steady peer endpoint)
    (hsession : endpoint.sessions.find? conn = some session) :
    (endpoint.endOf conn).place ≠ .unknown :=
  Registry.knows_iff_place.mp (h.session conn session hsession).2

/-- A step may leave a session as it is. -/
theorem Steady.turn_stays (h : Steady peer endpoint)
    (hsession : endpoint.sessions.find? conn = some session) (hgoing : session.isOver = false)
    (hadvance : endpoint.advanceSession session heeds = (endpoint, session)) :
    Becomes peer conn endpoint (endpoint.stepSession conn heeds) (endpoint.endOf conn) := by
  have hconn := (h.session conn session hsession).1
  rw [stepSession_eq hsession hadvance]
  have hstays := (Becomes.refl h conn).goesOn hconn (h.place_ne_unknown hsession) hgoing
  have hsame : { endpoint.endOf conn with session := some session } = endpoint.endOf conn := by
    simp only [endOf, hsession]
  rwa [hsame] at hstays

/-- A dial that is closed does not become active, whatever answer it has got. -/
theorem promote_closed (hclosed : (endpoint.endOf conn).place = .closed) (node : Node) :
    ∃ error, endpoint.registry.promoteToActive endpoint.clock conn .outbound node =
      .error error := by
  have hnone : (endpoint.registry.pendingSet .outbound).find? conn = none :=
    Option.isSome_eq_false_iff.mp (congrArg Place.isDialed hclosed) |> Option.isNone_iff_eq_none.mp
  cases hself : endpoint.registry.isSelf node with
  | true => exact ⟨.isSelf, by simp only [Registry.promoteToActive, hself, if_true]⟩
  | false =>
      exact ⟨.notFound conn, by
        simp only [Registry.promoteToActive, hself, hnone, Bool.false_eq_true, if_false]⟩

/-- Whatever frame comes for a dial that is closed, an acceptance too, ends its session. -/
theorem onFrame_closed (hconn : session.conn = conn) (hphase : session.phase = .awaitingResponse)
    (hclosed : (endpoint.endOf conn).place = .closed) (frame : Frame) :
    ∃ next : Session, endpoint.onFrame session frame = (endpoint, next) ∧ next.conn = conn ∧
      next.isOver = true := by
  have hfails : ∃ next : Session, (endpoint, session.fail) = (endpoint, next) ∧
      next.conn = conn ∧ next.isOver = true := ⟨_, rfl, hconn, rfl⟩
  simp only [onFrame, hphase, onResponse]
  split
  · split
    · exact hfails
    · rename_i response _
      split
      · exact hfails
      · split
        · exact hfails
        · rename_i dialed _
          obtain ⟨error, herror⟩ := promote_closed hclosed
            { dialed with revision := response.revisionText }
          simp only [hconn, herror]
          exact ⟨_, rfl, rfl, rfl⟩
  · exact hfails

/-- The session of a dial that is closed stops, even when it sees an answer first. -/
theorem Steady.turn_cancelled (h : Steady peer endpoint)
    (hsession : endpoint.sessions.find? conn = some session) (hstage : session.stage = .reading)
    (hphase : session.phase = .awaitingResponse) (hpeer : session.peer = none)
    (hclosed : (endpoint.endOf conn).place = .closed) :
    Becomes peer conn endpoint (endpoint.stepSession conn heeds)
      { endpoint.endOf conn with place := .closed, session := none } := by
  have hconn := (h.session conn session hsession).1
  have hcancelled : endpoint.isCancelled session = true := by
    rw [h.isCancelled_eq hconn, hclosed]
    rfl
  obtain ⟨next, hadvance, hnext, hover⟩ : ∃ next : Session,
      endpoint.advanceSession session heeds = (endpoint, next) ∧ next.conn = conn ∧
        next.isOver = true := by
    simp only [advanceSession, hstage, stepReading, hcancelled, Bool.true_and, Bool.true_or, if_true]
    split
    · exact ⟨_, rfl, hconn, rfl⟩
    · split
      · rename_i frame rest _
        refine onFrame_closed ?_ ?_ hclosed frame
        · exact hconn
        · exact hphase
      · simp only [onOversized, hpeer]
        exact ⟨_, rfl, hconn, rfl⟩
      · exact ⟨_, rfl, hconn, rfl⟩
  rw [stepSession_eq hsession hadvance]
  exact (Becomes.refl h conn).ends hnext (h.place_ne_unknown hsession) hover

/-- Nothing happens while a frame is incomplete and more may come. -/
theorem Steady.turn_waits (h : Steady peer endpoint)
    (hsession : endpoint.sessions.find? conn = some session) (hstage : session.stage = .reading)
    (hopen : (endpoint.endOf conn).place.isClosed = false) (hlate : endpoint.isLate conn = false)
    (hfront : FrameStream.front endpoint.settings.maxFrameBody.toNat session.buffer = .incomplete)
    (hended : session.ended = false) :
    Becomes peer conn endpoint (endpoint.stepSession conn heeds) (endpoint.endOf conn) := by
  have hconn := (h.session conn session hsession).1
  have hcancelled : endpoint.isCancelled session = false :=
    (h.isCancelled_eq hconn).trans hopen
  have htime : ¬session.deadline ≤ endpoint.timer := by
    simpa [isLate, hsession, hstage, hcancelled, hended, hfront] using hlate
  have hadvance : endpoint.advanceSession session heeds = (endpoint, session) := by
    simp [advanceSession, hstage, stepReading, hcancelled, hfront, hended, htime]
  exact h.turn_stays hsession (by simp only [Session.isOver, hstage]) hadvance

/-- A session ends when no more can come and a frame is incomplete. -/
theorem Steady.turn_ended (h : Steady peer endpoint)
    (hsession : endpoint.sessions.find? conn = some session) (hstage : session.stage = .reading)
    (hopen : (endpoint.endOf conn).place.isClosed = false)
    (hfront : FrameStream.front endpoint.settings.maxFrameBody.toNat session.buffer = .incomplete)
    (hended : session.ended = true) :
    Becomes peer conn endpoint (endpoint.stepSession conn heeds)
      { endpoint.endOf conn with place := .closed, session := none } := by
  have hconn := (h.session conn session hsession).1
  have hcancelled : endpoint.isCancelled session = false :=
    (h.isCancelled_eq hconn).trans hopen
  have hadvance : endpoint.advanceSession session heeds = (endpoint, session.quit) := by
    simp [advanceSession, hstage, stepReading, hcancelled, hfront, hended]
  rw [stepSession_eq hsession hadvance]
  exact (Becomes.refl h conn).ends hconn (h.place_ne_unknown hsession) rfl

/-- A session that has cut a frame off its buffer. -/
def afterFrame (endpoint : Endpoint) (session : Session) (rest : Bytes) : Session :=
  { session with
    buffer := rest
    deadline := endpoint.timer + endpoint.settings.readTimeout }

theorem Steady.advance_frame (h : Steady peer endpoint)
    (hsession : endpoint.sessions.find? conn = some session) (hstage : session.stage = .reading)
    (hopen : (endpoint.endOf conn).place.isClosed = false)
    (hfront : FrameStream.front endpoint.settings.maxFrameBody.toNat session.buffer =
      .frame frame rest) :
    endpoint.advanceSession session heeds = endpoint.onFrame (endpoint.afterFrame session rest) frame := by
  have hcancelled : endpoint.isCancelled session = false :=
    (h.isCancelled_eq (h.session conn session hsession).1).trans hopen
  simp [advanceSession, hstage, stepReading, hcancelled, hfront, afterFrame]

/-! ## Handshake -/

variable {node : Node}

theorem Steady.writerFor_accepted (h : Steady peer endpoint)
    (hplace : (endpoint.endOf conn).place = .accepted) :
    endpoint.registry.writerFor (.inbound conn) = some conn := by
  obtain ⟨pending, hmem⟩ := Table.has_iff.mp (show endpoint.registry.inbound.has conn = true from
    congrArg Place.isAccepted hplace)
  have hfound := Table.find?_of_mem h.deals.coherent.inbound_keys hmem
  have hentry := (h.deals.coherent.inbound_entry conn pending hmem).1
  have hopen : endpoint.registry.isClosed conn = false := congrArg Place.isClosed hplace
  simp [Registry.writerFor, hfound, hentry, hopen]

/-- The session of an accepted socket asks for the lock; that is all that changes but the session. -/
theorem Steady.asks (h : Steady peer endpoint) :
    Becomes peer conn endpoint
      { endpoint with transport := endpoint.transport.onSocket conn (·.ask .session) }
      (endpoint.endOf conn) :=
  h.onSocket (fun socket => keepsOpen_ask socket (by simp)) fun _ => Socket.ask_unread

theorem Steady.releases (h : Steady peer endpoint) (hconn : session.conn = conn) :
    Becomes peer conn endpoint (endpoint.release session) (endpoint.endOf conn) := by
  rw [release, hconn]
  exact h.onSocket (fun socket => keepsOpen_release socket _) fun _ => rfl

/-- A request that passes the checks waits for the socket. -/
theorem Steady.turn_request (h : Steady peer endpoint)
    (hsession : endpoint.sessions.find? conn = some session) (hstage : session.stage = .reading)
    (hphase : session.phase = .awaitingRequest)
    (hplace : (endpoint.endOf conn).place = .accepted) {request : Handshake.Request}
    (hfront : FrameStream.front endpoint.settings.maxFrameBody.toNat session.buffer =
      .frame request.toFrame rest)
    (hcheck : request.cut.check endpoint.settings.chainId endpoint.handlers.versions = .ok ()) :
    Becomes peer conn endpoint (endpoint.stepSession conn heeds)
      { endpoint.endOf conn with session := some { endpoint.afterFrame session rest with
        phase := .validated
        stage := .accepting (endpoint.requester session request.cut) } } := by
  have hconn := (h.session conn session hsession).1
  have hopen : (endpoint.endOf conn).place.isClosed = false := by rw [hplace]; rfl
  have hwriter := h.writerFor_accepted hplace
  have hadvance : endpoint.advanceSession session heeds =
      ({ endpoint with transport := endpoint.transport.onSocket conn (·.ask .session) },
        { endpoint.afterFrame session rest with
          phase := .validated
          stage := .accepting (endpoint.requester session request.cut) }) := by
    rw [h.advance_frame hsession hstage hopen hfront]
    simp only [onFrame, afterFrame, hphase, Handshake.Request.toFrame, Frame.net, Frame.isNet,
      beq_self_eq_true, Bool.and_self, if_true,
      onRequest, Handshake.Request.decode_encode, hcheck, hconn, hwriter]
    rfl
  rw [stepSession_eq hsession hadvance]
  exact h.asks.goesOn hconn (h.place_ne_unknown hsession) rfl

theorem Steady.advance_response (h : Steady peer endpoint)
    (hsession : endpoint.sessions.find? conn = some session) (hstage : session.stage = .reading)
    (hphase : session.phase = .awaitingResponse)
    (hopen : (endpoint.endOf conn).place.isClosed = false) {response : Handshake.Response}
    (hfront : FrameStream.front endpoint.settings.maxFrameBody.toNat session.buffer =
      .frame response.toFrame rest) :
    endpoint.advanceSession session heeds =
      endpoint.onResponse (endpoint.afterFrame session rest) response.encode := by
  rw [h.advance_frame hsession hstage hopen hfront]
  simp only [onFrame, afterFrame, hphase, Handshake.Response.toFrame, Frame.net, Frame.isNet,
    beq_self_eq_true, Bool.and_self, if_true]

/-- A dial that is rejected is over. -/
theorem Steady.turn_rejected (h : Steady peer endpoint)
    (hsession : endpoint.sessions.find? conn = some session) (hstage : session.stage = .reading)
    (hphase : session.phase = .awaitingResponse)
    (hplace : (endpoint.endOf conn).place = .dialed) {response : Handshake.Response}
    (hanswer : response.accepted = false)
    (hfront : FrameStream.front endpoint.settings.maxFrameBody.toNat session.buffer =
      .frame response.toFrame rest) :
    Becomes peer conn endpoint (endpoint.stepSession conn heeds)
      { endpoint.endOf conn with place := .closed, session := none } := by
  have hconn := (h.session conn session hsession).1
  have hopen : (endpoint.endOf conn).place.isClosed = false := by rw [hplace]; rfl
  have hadvance : endpoint.advanceSession session heeds =
      (endpoint, (endpoint.afterFrame session rest).fail) := by
    rw [h.advance_response hsession hstage hphase hopen hfront]
    simp [onResponse, Handshake.Response.decode_encode, Handshake.Response.cut, hanswer]
  rw [stepSession_eq hsession hadvance]
  exact (Becomes.refl h conn).ends hconn (h.place_ne_unknown hsession) rfl

/-- A dial that is accepted makes the node active. -/
theorem Steady.turn_accepted (h : Steady peer endpoint)
    (hsession : endpoint.sessions.find? conn = some session) (hstage : session.stage = .reading)
    (hphase : session.phase = .awaitingResponse)
    (hplace : (endpoint.endOf conn).place = .dialed) (hdialed : session.dialed = some node)
    (hself : endpoint.registry.isSelf node = false) (hnode : node.idHash = peer)
    (hroom : 0 < endpoint.registry.limits.maxActive) {response : Handshake.Response}
    (hanswer : response.accepted = true)
    (hfront : FrameStream.front endpoint.settings.maxFrameBody.toNat session.buffer =
      .frame response.toFrame rest) :
    ∃ next, next.stage = .reading ∧ next.buffer = rest ∧ next.ended = session.ended ∧
      Becomes peer conn endpoint (endpoint.stepSession conn heeds)
        { endpoint.endOf conn with place := .active, session := some next } := by
  have hconn := (h.session conn session hsession).1
  have hopen : (endpoint.endOf conn).place.isClosed = false := by rw [hplace]; rfl
  let joining : Node := { node with revision := response.cut.revisionText }
  have hself' : endpoint.registry.isSelf joining = false := hself
  obtain ⟨registry, hpromote, hdeals, hterms, hplaces⟩ :=
    h.deals.promote_dialed endpoint.clock hplace hself' hnode hroom
  let latency := endpoint.clock - session.openedAt
  let next : Session :=
    { endpoint.afterFrame session rest with dialed := none, phase := .validated }.activate joining
  have hadvance : endpoint.advanceSession session heeds =
      (endpoint.setRegistry (registry.updateLatency node.idHash latency), next) := by
    rw [h.advance_response hsession hstage hphase hopen hfront]
    have hpromote' : endpoint.registry.promoteToActive endpoint.clock
        (endpoint.afterFrame session rest).conn .outbound joining = .ok registry := by
      rw [← hpromote, afterFrame, hconn]
    have haccepted : response.cut.accepted = true := hanswer
    simp only [onResponse, Handshake.Response.decode_encode, haccepted, Bool.not_true,
      Bool.false_eq_true, if_false]
    simp only [afterFrame, hdialed] at hpromote' ⊢
    rw [hpromote']
    rfl
  have hupdated : Becomes peer conn endpoint
      (endpoint.setRegistry (registry.updateLatency node.idHash latency))
      { endpoint.endOf conn with place := .active } := by
    refine becomes_setRegistry (h.release_registry ?_ ?_) ?_ ?_
    · rw [Registry.updateLatency, hnode]
      exact hdeals.updateActive _ fun _ => ⟨rfl, rfl⟩
    · exact (h.deals.coherent.promoteToActive_releases hpromote).trans
        (Registry.updateActive_releases _ _ _)
    · exact ⟨hterms.self, hterms.limits, hterms.bans⟩
    · intro other
      exact Registry.placeOf_updateActive _ |>.trans (hplaces other)
  refine ⟨next, hstage, rfl, rfl, ?_⟩
  rw [stepSession_eq hsession hadvance]
  have hgoing : next.isOver = false := by
    simp only [next, Session.isOver, Session.activate, afterFrame, hstage]
  exact hupdated.goesOn hconn (by simp [Place.active, Place.unknown]) hgoing

/-! ## Answers -/

/-- A node becomes active on one of its ends, and whatever it dials yields. -/
structure Joins (peer : IdHash) (conn : ConnId) (endpoint after : Endpoint) (new : End) : Prop where
  steady : after.Steady peer
  same : endpoint.IsSame after
  here : after.endOf conn = new
  others : ∀ other, other ≠ conn → after.endOf other = End.yielded (endpoint.endOf other)

/-- A session whose node does not join gives the socket back, and will ask for it to refuse. -/
theorem Steady.turn_declined (h : Steady peer endpoint)
    (hsession : endpoint.sessions.find? conn = some session) (hstage : session.stage = .accepting node)
    (hplace : (endpoint.endOf conn).place = .accepted) (hlocked : endpoint.hasSocket session = true)
    {error : RegistryError}
    (hpromote : endpoint.registry.promoteToActive endpoint.clock conn .inbound node =
      .error error) :
    Becomes peer conn endpoint (endpoint.stepSession conn heeds) { endpoint.endOf conn with
      session := some { session with phase := .rejected, stage := .refusing } } := by
  have hconn := (h.session conn session hsession).1
  have hreleased := h.releases hconn
  have hwriter : (endpoint.release session).registry.writerFor (.inbound conn) = some conn :=
    h.writerFor_accepted hplace
  have hadvance : endpoint.advanceSession session heeds =
      ({ endpoint.release session with
          transport := (endpoint.release session).transport.onSocket conn (·.ask .session) },
        { session with phase := .rejected, stage := .refusing }) := by
    simp only [advanceSession, hstage, stepAccepting, hlocked, Bool.not_true,
      Bool.false_eq_true, if_false, hconn, hpromote, refuse, hwriter]
  have hasked : Becomes peer conn (endpoint.release session) _ _ := hreleased.steady.asks
  rw [hreleased.here] at hasked
  rw [stepSession_eq hsession hadvance]
  exact (hreleased.trans hasked).goesOn hconn (h.place_ne_unknown hsession) rfl

/-- A session whose node joins answers it, and whatever the node is being dialed with yields. -/
theorem Steady.turn_joining (h : Steady peer endpoint)
    (hsession : endpoint.sessions.find? conn = some session) (hstage : session.stage = .accepting node)
    (hlocked : endpoint.hasSocket session = true) {registry : Registry}
    (hpromote : endpoint.registry.promoteToActive endpoint.clock conn .inbound node = .ok registry)
    (hdeals : registry.DealsWith peer) (hterms : endpoint.registry.KeepsTerms registry)
    (hplaces : ∀ other, registry.placeOf other =
      if other = conn then .active
      else if (endpoint.registry.placeOf other).isDialed then .closed
      else endpoint.registry.placeOf other) :
    Joins peer conn endpoint (endpoint.stepSession conn heeds) { endpoint.endOf conn with
      place := .active
      session := some (endpoint.answer (session.activate node) true) } := by
  have hconn := (h.session conn session hsession).1
  have hadvance : endpoint.advanceSession session heeds =
      (endpoint.setRegistry registry, endpoint.answer (session.activate node) true) := by
    simp only [advanceSession, hstage, stepAccepting, hlocked, Bool.not_true,
      Bool.false_eq_true, if_false, hconn, hpromote]
    rfl
  have hsteady := h.release_registry hdeals (h.deals.coherent.promoteToActive_releases hpromote)
  have hsame : endpoint.IsSame (endpoint.setRegistry registry) :=
    ⟨rfl, rfl, rfl, hterms.self, hterms.limits, rfl⟩
  have hhere : (endpoint.setRegistry registry).endOf conn =
      { endpoint.endOf conn with place := .active } := by
    rw [endOf_setRegistry, hplaces, if_pos rfl]
  have hjoined := (Becomes.refl hsteady conn).goesOn
    (show (endpoint.answer (session.activate node) true).conn = conn from hconn)
    (by rw [hhere]; simp [Place.active, Place.unknown]) rfl
  rw [stepSession_eq hsession hadvance]
  refine ⟨hjoined.steady, hsame.trans hjoined.same, ?_, ?_⟩
  · rw [hjoined.here, hhere]
  · intro other hother
    rw [hjoined.others other hother, endOf_setRegistry, hplaces, if_neg hother]
    unfold End.yielded
    show _ = if (endpoint.registry.placeOf other).isDialed then _ else _
    split
    · rfl
    · rfl

/-- What a session does once it has the socket: the node joins, or it will be refused. -/
theorem Steady.turn_accepting (h : Steady peer endpoint)
    (hsession : endpoint.sessions.find? conn = some session) (hstage : session.stage = .accepting node)
    (hplace : (endpoint.endOf conn).place = .accepted)
    (hself : endpoint.registry.isSelf node = false) (hnode : node.idHash = peer)
    (hroom : 0 < endpoint.registry.limits.maxActive) :
    Becomes peer conn endpoint (endpoint.stepSession conn heeds) (endpoint.endOf conn) ∨
    ((endpoint.registry.IsJoined ∨
        endpoint.registry.IsDialing ∧ ¬peer < endpoint.registry.self.idHash) ∧
      Becomes peer conn endpoint (endpoint.stepSession conn heeds) { endpoint.endOf conn with
        session := some { session with phase := .rejected, stage := .refusing } }) ∨
    (¬endpoint.registry.IsJoined ∧
      (endpoint.registry.IsDialing → peer < endpoint.registry.self.idHash) ∧
      Joins peer conn endpoint (endpoint.stepSession conn heeds) { endpoint.endOf conn with
        place := .active
        session := some (endpoint.answer (session.activate node) true) }) := by
  cases hlocked : endpoint.hasSocket session with
  | false =>
      left
      have hadvance : endpoint.advanceSession session heeds = (endpoint, session) := by
        simp [advanceSession, hstage, stepAccepting, hlocked]
      exact h.turn_stays hsession (by simp only [Session.isOver, hstage]) hadvance
  | true =>
      right
      rcases h.deals.promote_accepted endpoint.clock hplace hself hnode hroom with
        ⟨⟨error, hpromote⟩, hreason⟩ | ⟨registry, hpromote, hdeals, hterms, hfree, hyields, hplaces⟩
      · exact Or.inl ⟨hreason, h.turn_declined hsession hstage hplace hlocked hpromote⟩
      · exact Or.inr ⟨hfree, hyields,
          h.turn_joining hsession hstage hlocked hpromote hdeals hterms hplaces⟩

theorem Steady.turn_refusing (h : Steady peer endpoint)
    (hsession : endpoint.sessions.find? conn = some session) (hstage : session.stage = .refusing) :
    Becomes peer conn endpoint (endpoint.stepSession conn heeds) (endpoint.endOf conn) ∨
    Becomes peer conn endpoint (endpoint.stepSession conn heeds)
      { endpoint.endOf conn with session := some (endpoint.answer session false) } := by
  have hconn := (h.session conn session hsession).1
  have hknown := h.place_ne_unknown hsession
  cases hlocked : endpoint.hasSocket session with
  | false =>
      left
      have hadvance : endpoint.advanceSession session heeds = (endpoint, session) := by
        simp [advanceSession, hstage, stepRefusing, hlocked]
      exact h.turn_stays hsession (by simp only [Session.isOver, hstage]) hadvance
  | true =>
      right
      have hadvance : endpoint.advanceSession session heeds =
          (endpoint, endpoint.answer session false) := by
        simp [advanceSession, hstage, stepRefusing, hlocked]
      rw [stepSession_eq hsession hadvance]
      exact (Becomes.refl h conn).goesOn hconn hknown rfl

/-- An answer is put on the socket piece by piece; an acceptance is followed by reading. -/
theorem Steady.turn_answering (h : Steady peer endpoint)
    (hsession : endpoint.sessions.find? conn = some session) {accepted : Bool} {left : Bytes}
    {deadline : Nat} (hstage : session.stage = .answering accepted left deadline)
    (hopen : (endpoint.endOf conn).place.isClosed = false) (hlate : endpoint.isLate conn = false) :
    ∃ bytes rest, left = bytes ++ rest ∧
      ((rest = [] ∧ accepted = false ∧
        Becomes peer conn endpoint (endpoint.stepSession conn heeds) { endpoint.endOf conn with
          place := .closed
          session := none
          unread := (endpoint.endOf conn).unread ++ bytes }) ∨
      ∃ next, next.buffer = session.buffer ∧ next.ended = session.ended ∧
        next.phase = session.phase ∧
        (rest = [] ∧ accepted = true ∧ next.stage = .reading ∨
          next.stage = .answering accepted rest deadline) ∧
        Becomes peer conn endpoint (endpoint.stepSession conn heeds) { endpoint.endOf conn with
          session := some next
          unread := (endpoint.endOf conn).unread ++ bytes }) := by
  have hplace := h.place_ne_unknown hsession
  obtain ⟨hconn, hknown⟩ := h.session conn session hsession
  subst hconn
  obtain ⟨socket, hsocket⟩ :=
    Option.isSome_iff_exists.mp (h.opened _ hknown)
  have hwhole : socket.isBroken = false := by
    refine Bool.eq_false_iff.mpr fun hbroken => ?_
    have hclosed := h.closed_of_broken hsocket hbroken
    rw [show (endpoint.endOf session.conn).place.isClosed = true from hclosed] at hopen
    cases hopen
  obtain ⟨bytes, hleft, hput⟩ := h.put left hsocket
  refine ⟨bytes, (socket.put left).2, hleft, ?_⟩
  have hadvance : endpoint.advanceSession session heeds = endpoint.stepAnswering session accepted left
      deadline := by
    simp only [advanceSession, hstage]
  rw [stepAnswering, hsocket] at hadvance
  simp only [hwhole, Bool.false_eq_true, if_false] at hadvance
  by_cases hrest : (socket.put left).2 = []
  · have hreleased := hput.trans (hput.steady.releases rfl)
    rw [hput.here] at hreleased
    have hdone : endpoint.advanceSession session heeds =
        ({ endpoint with transport := endpoint.transport.onSocket session.conn fun _ =>
            (socket.put left).1 }.release session, endpoint.afterAnswer session accepted) := by
      rw [hadvance, hrest]
      rfl
    rw [stepSession_eq hsession hdone]
    cases accepted with
    | false =>
        left
        exact ⟨hrest, rfl, hreleased.ends rfl hplace rfl⟩
    | true =>
        right
        exact ⟨endpoint.afterAnswer session true, rfl, rfl, rfl, Or.inl ⟨hrest, rfl, rfl⟩,
          hreleased.goesOn rfl hplace rfl⟩
  · right
    have htime : ¬deadline ≤ endpoint.timer := by
      simpa [isLate, hsession, hstage, hsocket, hrest] using hlate
    have hmore : endpoint.advanceSession session heeds =
        ({ endpoint with transport := endpoint.transport.onSocket session.conn fun _ =>
            (socket.put left).1 },
          { session with stage := .answering accepted (socket.put left).2 deadline }) := by
      rw [hadvance, if_neg (by simpa using hrest)]
      exact if_neg htime
    rw [stepSession_eq hsession hmore]
    exact ⟨{ session with stage := .answering accepted (socket.put left).2 deadline }, rfl, rfl, rfl,
      Or.inr rfl, hput.goesOn rfl hplace rfl⟩

end Endpoint

end Peering
