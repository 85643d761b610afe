import Peering.Proofs.Session.Petition

/-!
# The decision about a request

The session of an accepted connection reads the request of its peer and answers it
on the socket. Here it is followed from there to the end of its answer.

Main statement: a request that cannot be read is not answered. Every other one gets
one response, which accepts it just on the conditions of compatibility, identity and
room; the registry has done what the response says, and nothing else has changed.
-/

namespace Peering

namespace Petition

variable {petition : Petition} {hearing : Hearing} {request : Handshake.Request}
variable {endpoint after : Endpoint} {session next : Session} {left : Bytes}

/-! ## The reading of the request -/

theorem IsOpen.unread (hopen : petition.IsOpen) :
    petition.start.transport.unread petition.conn = petition.socket.unread := by
  simp only [Transport.unread, hopen.socket, Option.map_some, Option.getD_some]

/-- The session finds the request, and does about it what requests ask for. -/
theorem advance_start (hopen : petition.IsOpen) : ∃ deadline,
    petition.start.advanceSession petition.session true = petition.start.onRequest
      { petition.session with buffer := petition.rest, deadline := deadline }
      petition.frame.payload := by
  have hrunning : petition.start.isCancelled petition.session = false := by
    simp only [Endpoint.isCancelled, hopen.running, hopen.own, hopen.opened, Bool.or_self]
  refine ⟨petition.start.timer + petition.start.settings.readTimeout, ?_⟩
  simp only [Endpoint.advanceSession, hopen.reading, Endpoint.stepReading, hrunning,
    Bool.false_and, Bool.false_eq_true, if_false, hopen.front, Endpoint.onFrame, hopen.awaiting,
    hopen.net, hopen.action, BEq.rfl, Bool.and_self, if_true]

theorem welcomes_check (hcheck : petition.Welcomes request) :
    request.check petition.start.settings.chainId petition.start.handlers.versions = .ok () :=
  (request.check_eq_ok_iff _ _).mpr hcheck.1

theorem progress_heard (hopen : petition.IsOpen) : petition.Progress petition.heard := by
  obtain ⟨deadline, hadvance⟩ := advance_start hopen
  have hwriter : petition.start.registry.writerFor (.inbound petition.session.conn) =
      some petition.conn := hopen.writer hopen.own rfl
  have hasked := hopen.spares.ask .session
  have hqueued := queued_ask petition.start.transport petition.conn
  have hunread := (asked_unread petition.start.transport petition.conn .session).trans hopen.unread
  cases hdecode : Handshake.Request.decode petition.frame.payload with
  | error error =>
      simp only [Endpoint.onRequest, hdecode] at hadvance
      obtain ⟨hspares, hcloses, hsame⟩ := closes_of_over hopen hopen.listed hadvance rfl hopen.own
        hopen.spares rfl
      refine .settled (not_isBusy_of_closes hcloses) ⟨hspares, ?_⟩
      rw [hdecode]
      exact ⟨hsame.trans hopen.unread, hcloses⟩
  | ok request =>
      cases hcheck : request.check petition.start.settings.chainId
          petition.start.handlers.versions with
      | error error =>
          simp only [Endpoint.onRequest, hdecode, hcheck, Endpoint.refuse, hwriter] at hadvance
          have hwaits := waits_of_going [] hopen.listed hadvance rfl hopen.own hasked rfl hunread
            hqueued
          refine .refusing _ request rfl hdecode (fun hwelcome => ?_) hwaits
          rw [welcomes_check hwelcome] at hcheck
          cases hcheck
      | ok _ =>
          simp only [Endpoint.onRequest, hdecode, hcheck, hwriter] at hadvance
          have hwaits := waits_of_going [] hopen.listed hadvance rfl hopen.own hasked rfl hunread
            hqueued
          exact .deciding _ request rfl hdecode hcheck hwaits

/-! ## The decision -/

theorem release_unread (transport : Transport) (conn : ConnId) (holder : Holder) :
    (transport.onSocket conn (·.release holder)).unread conn = transport.unread conn :=
  Transport.unread_onSocket transport conn fun _ => rfl

/-- A session that has no lock yet goes on waiting. -/
theorem Waits.again (h : petition.Waits hearing session)
    (hadvance : hearing.endpoint.advanceSession session true = (hearing.endpoint, session))
    (hgoing : session.isOver = false) :
    petition.Waits { hearing with endpoint := hearing.endpoint.stepSession petition.conn true } session :=
  waits_of_going hearing.received h.found hadvance hgoing h.own h.spares h.registry h.sent h.queued

/-- On the locked socket the session starts to write what the templates say. -/
theorem progress_of_answer (hopen : petition.IsOpen) (registry : Registry) {accepted : Bool}
    (hwaits : petition.Waits hearing session)
    (hdecode : Handshake.Request.decode petition.frame.payload = .ok request)
    (hadvance : hearing.endpoint.advanceSession session true =
      (hearing.endpoint.setRegistry registry,
        (hearing.endpoint.setRegistry registry).answer next accepted))
    (hown : next.conn = petition.conn) (hrules : petition.Rules request registry next accepted) :
    petition.Progress { hearing with endpoint := hearing.endpoint.stepSession petition.conn true } := by
  have hframe : (if accepted then hearing.endpoint.templates.accept
      else hearing.endpoint.templates.reject) = (petition.response accepted).toFrame := by
    rw [hwaits.spares.templates, hopen.templates]
    cases accepted <;> rfl
  let deadline := hearing.endpoint.timer + hearing.endpoint.settings.writeTimeout
  refine .answering ((hearing.endpoint.setRegistry registry).answer next accepted) request accepted
    (petition.response accepted).toFrame.encode deadline
    (congrArg (fun frame : Frame => Stage.answering accepted frame.encode deadline) hframe)
    hdecode ?_
  rw [stepSession_of_going hwaits.found hadvance rfl]
  refine ⟨find?_addSession _ hown, hown, (hwaits.spares.setRegistry registry).addSession hown, ?_,
    congrArg (· ++ _) hwaits.sent⟩
  cases accepted with
  | true => exact hrules
  | false => exact hrules

theorem progress_deciding (hopen : petition.IsOpen)
    (hstage : session.stage = .accepting (petition.node request))
    (hdecode : Handshake.Request.decode petition.frame.payload = .ok request)
    (hcheck : request.check petition.start.settings.chainId petition.start.handlers.versions =
      .ok ())
    (hwaits : petition.Waits hearing session) :
    petition.Progress { hearing with endpoint := hearing.endpoint.stepSession petition.conn true } := by
  have hadvance : hearing.endpoint.advanceSession session true =
      hearing.endpoint.stepAccepting session (petition.node request) := by
    simp only [Endpoint.advanceSession, hstage]
  unfold Endpoint.stepAccepting at hadvance
  rw [hwaits.registry, hwaits.spares.clock, hwaits.own] at hadvance
  cases hlock : hearing.endpoint.hasSocket session with
  | false =>
      simp only [hlock, Bool.not_false, if_true] at hadvance
      have hgoing : session.isOver = false := by simp [Session.isOver, hstage]
      exact .deciding session request hstage hdecode hcheck (hwaits.again hadvance hgoing)
  | true =>
      simp only [hlock, Bool.not_true, Bool.false_eq_true, if_false] at hadvance
      cases hpromote : petition.start.registry.promoteToActive petition.start.clock petition.conn
          .inbound (petition.node request) with
      | error error =>
          have hunwelcome : ¬petition.Welcomes request := by
            intro hwelcome
            obtain ⟨after, hok⟩ := Registry.promoteToActive_of_agrees hopen.pending hwelcome.2
            rw [hpromote] at hok
            cases hok
          have hregistry : (hearing.endpoint.release session).registry = petition.start.registry :=
            hwaits.registry
          simp only [hpromote, Endpoint.refuse, hopen.writer hwaits.own hregistry] at hadvance
          have hspares : petition.Spares (hearing.endpoint.release session) := by
            unfold Endpoint.release
            rw [hwaits.own]
            exact hwaits.spares.release .session
          refine .refusing _ request rfl hdecode hunwelcome (waits_of_going hearing.received
            hwaits.found hadvance rfl hwaits.own (hspares.ask .session) hregistry ?_
            (queued_ask _ _))
          rw [asked_unread, Endpoint.release, hwaits.own, release_unread]
          exact hwaits.sent
      | ok registry =>
          rw [hpromote] at hadvance
          have hwelcome : petition.Welcomes request :=
            ⟨(request.check_eq_ok_iff _ _).mp hcheck, Registry.agrees_of_promoteToActive hpromote⟩
          exact progress_of_answer hopen registry hwaits hdecode hadvance hwaits.own
            ⟨hwelcome, hpromote, rfl, rfl⟩

theorem progress_refusing (hopen : petition.IsOpen) (hstage : session.stage = .refusing)
    (hdecode : Handshake.Request.decode petition.frame.payload = .ok request)
    (hunwelcome : ¬petition.Welcomes request) (hwaits : petition.Waits hearing session) :
    petition.Progress { hearing with endpoint := hearing.endpoint.stepSession petition.conn true } := by
  have hadvance : hearing.endpoint.advanceSession session true =
      hearing.endpoint.stepRefusing session := by
    simp only [Endpoint.advanceSession, hstage]
  unfold Endpoint.stepRefusing at hadvance
  cases hlock : hearing.endpoint.hasSocket session with
  | false =>
      simp only [hlock, Bool.false_eq_true, if_false] at hadvance
      have hgoing : session.isOver = false := by simp [Session.isOver, hstage]
      exact .refusing session request hstage hdecode hunwelcome (hwaits.again hadvance hgoing)
  | true =>
      simp only [hlock, if_true] at hadvance
      exact progress_of_answer hopen hearing.endpoint.registry hwaits hdecode hadvance hwaits.own
        ⟨hunwelcome, hwaits.registry⟩

/-! ## The answer -/

theorem put_append (socket : Socket) (bytes : Bytes) :
    (socket.put bytes).1.unread ++ (socket.put bytes).2 = socket.unread ++ bytes := by
  simp only [Socket.put, List.append_assoc, List.take_append_drop]

/-- The write of a session that does not fail finds its socket, and fits or is in time. -/
theorem writes_of_not_fails {accepted : Bool} {left : Bytes} {deadline : Nat}
    (hfound : hearing.endpoint.sessions.find? petition.conn = some session)
    (hstage : session.stage = .answering accepted left deadline)
    (hfits : hearing.fails petition.conn = false) :
    ∃ socket, hearing.endpoint.transport.socket? petition.conn = some socket ∧
      socket.isBroken = false ∧
      ((socket.put left).2.isEmpty = true ∨ ¬deadline ≤ hearing.endpoint.timer) := by
  simp only [Hearing.fails, Hearing.stage?, hfound, Option.map_some, hstage] at hfits
  cases hsocket : hearing.endpoint.transport.socket? petition.conn with
  | none =>
      rw [hsocket] at hfits
      cases hfits
  | some socket =>
      rw [hsocket, Option.all_some, Bool.or_eq_false_iff, Bool.and_eq_false_iff] at hfits
      obtain ⟨hunbroken, hfits⟩ := hfits
      exact ⟨socket, rfl, hunbroken, hfits.imp (by simp) (by simp)⟩

/-- The response that has been written can be read, and says what the registry has done. -/
theorem settled_of_written (accepted : Bool)
    (hdecode : Handshake.Request.decode petition.frame.payload = .ok request)
    (hspares : petition.Spares hearing.endpoint)
    (hsent : hearing.sent petition.conn =
      petition.socket.unread ++ (petition.response accepted).toFrame.encode)
    (hwelcome : accepted = true ↔ petition.Welcomes request)
    (hjoins : accepted = true → petition.Joins (petition.node request) hearing.endpoint)
    (hcloses : accepted = false → petition.Closes hearing.endpoint) :
    petition.Settled hearing := by
  refine ⟨hspares, ?_⟩
  rw [hdecode]
  exact ⟨(petition.response accepted).toFrame, (petition.response accepted).cut, rfl, rfl,
    Handshake.Response.decode_encode _, hsent, hwelcome, hjoins, hcloses⟩

/-- After the acceptance the session reads on, and its connection is active. -/
theorem progress_of_acceptance (hopen : petition.IsOpen) {later : Nat}
    (hdecode : Handshake.Request.decode petition.frame.payload = .ok request)
    (hwrites : petition.Writes hearing session request true left)
    (hadvance : hearing.endpoint.advanceSession session true = (after, session.resume later))
    (hspares : petition.Spares after) (hregistry : after.registry = hearing.endpoint.registry)
    (hsent : hearing.received ++ after.transport.unread petition.conn =
      petition.socket.unread ++ (petition.response true).toFrame.encode) :
    petition.Progress { hearing with endpoint := hearing.endpoint.stepSession petition.conn true } := by
  obtain ⟨hwelcome, hpromote, hphase, hpeer⟩ := hwrites.rules
  rw [stepSession_of_going hwrites.found hadvance rfl]
  have hfound : (after.addSession (session.resume later)).sessions.find? petition.conn =
      some (session.resume later) := find?_addSession after hwrites.own
  have hpromoted : (after.addSession (session.resume later)).registry =
      hearing.endpoint.registry := hregistry
  obtain ⟨active, hactive, hconn⟩ := Registry.find?_promoteToActive hopen.pending hpromote
  have hjoins : petition.Joins (petition.node request)
      (after.addSession (session.resume later)) :=
    ⟨hpromoted ▸ hpromote, ⟨active, hpromoted ▸ hactive, hconn ▸ hopen.handle⟩,
      session.resume later, hfound, rfl, hphase, hpeer⟩
  refine .settled ?_ (settled_of_written true hdecode (hspares.addSession hwrites.own) hsent
    (iff_of_true rfl hwelcome) (fun _ => hjoins) fun h => absurd h (by simp))
  rw [Hearing.isBusy, Hearing.stage?, hfound]
  rfl

/-- After the rejection the session is over, and its connection closed. -/
theorem progress_of_rejection (hopen : petition.IsOpen)
    (hdecode : Handshake.Request.decode petition.frame.payload = .ok request)
    (hwrites : petition.Writes hearing session request false left)
    (hadvance : hearing.endpoint.advanceSession session true = (after, session.quit))
    (hspares : petition.Spares after) (hregistry : after.registry = hearing.endpoint.registry)
    (hsent : hearing.received ++ after.transport.unread petition.conn =
      petition.socket.unread ++ (petition.response false).toFrame.encode) :
    petition.Progress { hearing with endpoint := hearing.endpoint.stepSession petition.conn true } := by
  obtain ⟨hunwelcome, hsame⟩ := hwrites.rules
  obtain ⟨hspared, hcloses, hunread⟩ := closes_of_over hopen hwrites.found hadvance rfl hwrites.own
    hspares (hregistry.trans hsame)
  refine .settled (not_isBusy_of_closes hcloses) (settled_of_written false hdecode hspared ?_
    (iff_of_false (by simp) hunwelcome) (fun h => absurd h (by simp))
    fun _ => hcloses)
  exact (congrArg (hearing.received ++ ·) hunread).trans hsent

/-- The endpoint whose session has put on its socket what fits. -/
def written (endpoint : Endpoint) (session : Session) (socket : Socket) (left : Bytes) : Endpoint :=
  { endpoint with
    transport := endpoint.transport.onSocket session.conn fun _ => (socket.put left).1 }

theorem stepAnswering_eq {socket : Socket} {accepted : Bool} {left : Bytes} {deadline : Nat}
    (hsocket : endpoint.transport.socket? session.conn = some socket)
    (hunbroken : socket.isBroken = false) :
    endpoint.stepAnswering session accepted left deadline =
      let after := written endpoint session socket left
      if (socket.put left).2.isEmpty then
        (after.release session, after.afterAnswer session accepted)
      else if deadline ≤ endpoint.timer then (after.release session, session.quit)
      else (after, { session with stage := .answering accepted (socket.put left).2 deadline }) := by
  simp only [Endpoint.stepAnswering, hsocket, hunbroken, Bool.false_eq_true, if_false]
  rfl

theorem written_unread {socket : Socket} (left : Bytes)
    (hsocket : endpoint.transport.socket? session.conn = some socket) :
    (written endpoint session socket left).transport.unread session.conn ++ (socket.put left).2 =
      endpoint.transport.unread session.conn ++ left := by
  simp only [written, Transport.unread, Transport.socket?_onSocket, if_true, hsocket,
    Option.map_some, Option.getD_some, put_append]

theorem progress_answering (hopen : petition.IsOpen) {accepted : Bool} {left : Bytes}
    {deadline : Nat} (hstage : session.stage = .answering accepted left deadline)
    (hdecode : Handshake.Request.decode petition.frame.payload = .ok request)
    (hwrites : petition.Writes hearing session request accepted left)
    (hfits : hearing.fails petition.conn = false) :
    petition.Progress { hearing with endpoint := hearing.endpoint.stepSession petition.conn true } := by
  obtain ⟨socket, hsocket, hunbroken, hfits⟩ := writes_of_not_fails hwrites.found hstage hfits
  have hown := hwrites.own
  rw [← hown] at hsocket
  have hadvance : hearing.endpoint.advanceSession session true =
      hearing.endpoint.stepAnswering session accepted left deadline := by
    simp only [Endpoint.advanceSession, hstage]
  rw [stepAnswering_eq hsocket hunbroken] at hadvance
  dsimp only at hadvance
  have hspares : petition.Spares (written hearing.endpoint session socket left) := by
    rw [written, hown]
    refine hwrites.spares.onSocket _ fun found hfound => ?_
    rw [hown, hfound] at hsocket
    cases hsocket
    exact ⟨rfl, rfl⟩
  have hsent : hearing.received ++ ((written hearing.endpoint session socket left).transport.unread
      petition.conn ++ (socket.put left).2) =
        petition.socket.unread ++ (petition.response accepted).toFrame.encode := by
    rw [← hown, written_unread left hsocket, hown, ← List.append_assoc]
    exact hwrites.sent
  by_cases hdone : (socket.put left).2.isEmpty = true
  · -- all of the response is written
    rw [if_pos hdone] at hadvance
    rw [List.isEmpty_iff.mp hdone, List.append_nil] at hsent
    have hreleased : petition.Spares
        ((written hearing.endpoint session socket left).release session) := by
      rw [Endpoint.release, hown]
      exact hspares.release .session
    have hunread : ((written hearing.endpoint session socket left).release session).transport.unread
        petition.conn =
          (written hearing.endpoint session socket left).transport.unread petition.conn := by
      rw [Endpoint.release, hown]
      exact release_unread _ _ _
    rw [← hunread] at hsent
    cases accepted with
    | true => exact progress_of_acceptance hopen hdecode hwrites hadvance hreleased rfl hsent
    | false => exact progress_of_rejection hopen hdecode hwrites hadvance hreleased rfl hsent
  · have hlate : ¬deadline ≤ hearing.endpoint.timer := hfits.resolve_left hdone
    rw [if_neg hdone, if_neg hlate] at hadvance
    refine .answering
      { session with stage := .answering accepted (socket.put left).2 deadline } request accepted
      (socket.put left).2 deadline rfl hdecode ?_
    rw [stepSession_of_going hwrites.found hadvance rfl]
    refine ⟨find?_addSession _ hown, hown, hspares.addSession hown, ?_,
      (List.append_assoc ..).trans hsent⟩
    cases accepted with
    | true => exact hwrites.rules
    | false => exact hwrites.rules

/-! ## Turns -/

theorem read_registry (transport : Transport) (conn : ConnId) (most : Nat) :
    (transport.read conn most).1.registry = transport.registry := by
  unfold Transport.read
  split <;> rfl

theorem Spares.read (h : petition.Spares endpoint) (most : Nat) :
    petition.Spares
      { endpoint with transport := (endpoint.transport.read petition.conn most).1 } := by
  unfold Transport.read
  split
  · exact h
  · rename_i socket hsocket
    refine h.onSocket _ fun found hfound => ?_
    rw [hsocket] at hfound
    cases hfound
    exact ⟨rfl, rfl⟩

theorem queued_onSocket {transport : Transport} {conn : ConnId} {change : Socket → Socket}
    (hchange : ∀ socket : Socket, .session ∈ socket.lock → .session ∈ (change socket).lock)
    (socket : Socket) (hsocket : (transport.onSocket conn change).socket? conn = some socket) :
    ∃ before, transport.socket? conn = some before ∧
      (.session ∈ before.lock → .session ∈ socket.lock) := by
  rw [socket?_own] at hsocket
  obtain ⟨before, hbefore, rfl⟩ := Option.map_eq_some_iff.mp hsocket
  exact ⟨before, hbefore, hchange before⟩

theorem queued_read {transport : Transport} {conn : ConnId} (most : Nat) (socket : Socket)
    (hsocket : (transport.read conn most).1.socket? conn = some socket) :
    ∃ before, transport.socket? conn = some before ∧
      (.session ∈ before.lock → .session ∈ socket.lock) := by
  unfold Transport.read at hsocket
  split at hsocket
  · exact ⟨socket, hsocket, id⟩
  · rename_i before hbefore
    rw [socket?_own, hbefore] at hsocket
    cases hsocket
    exact ⟨before, hbefore, id⟩

/-- What happens beside the session changes neither entries nor what has been sent. -/
theorem Progress.stays {later : Hearing} (h : petition.Progress hearing)
    (hsessions : later.endpoint.sessions = hearing.endpoint.sessions)
    (hregistry : later.endpoint.registry = hearing.endpoint.registry)
    (hspares : petition.Spares hearing.endpoint → petition.Spares later.endpoint)
    (hsent : later.sent petition.conn = hearing.sent petition.conn)
    (hqueued : ∀ socket, later.endpoint.transport.socket? petition.conn = some socket →
      ∃ before, hearing.endpoint.transport.socket? petition.conn = some before ∧
        (.session ∈ before.lock → .session ∈ socket.lock)) :
    petition.Progress later := by
  have hwaits : ∀ session, petition.Waits hearing session → petition.Waits later session :=
    fun session h => ⟨hsessions ▸ h.found, h.own, hspares h.spares, hregistry.trans h.registry,
      hsent.trans h.sent, fun socket hsocket =>
        have ⟨before, hbefore, hstays⟩ := hqueued socket hsocket
        hstays (h.queued before hbefore)⟩
  cases h with
  | deciding session request hstage hdecode hcheck h =>
      exact .deciding session request hstage hdecode hcheck (hwaits session h)
  | refusing session request hstage hdecode hunwelcome h =>
      exact .refusing session request hstage hdecode hunwelcome (hwaits session h)
  | answering session request accepted left deadline hstage hdecode h =>
      exact .answering session request accepted left deadline hstage hdecode
        ⟨hsessions ▸ h.found, h.own, hspares h.spares, hregistry ▸ h.rules, hsent ▸ h.sent⟩
  | settled hidle h =>
      refine .settled ?_ ⟨hspares h.1, ?_⟩
      · rwa [Hearing.isBusy, Hearing.stage?, hsessions]
      · have hcloses : petition.Closes hearing.endpoint → petition.Closes later.endpoint :=
          fun h => ⟨hsessions ▸ h.session, hregistry.trans h.registry⟩
        have hjoins : ∀ node, petition.Joins node hearing.endpoint → petition.Joins node later.endpoint :=
          fun node h => ⟨hregistry ▸ h.promoted, hregistry ▸ h.active, hsessions ▸ h.session⟩
        obtain ⟨_, hend⟩ := h
        rw [hsent]
        split at hend
        · exact ⟨hend.1, hcloses hend.2⟩
        · obtain ⟨answer, response, hnet, haction, hread, hwritten, hwelcome, hjoined, hclosed⟩ := hend
          exact ⟨answer, response, hnet, haction, hread, hwritten, hwelcome,
            fun h => hjoins _ (hjoined h), fun h => hcloses (hclosed h)⟩

theorem Progress.act (hopen : petition.IsOpen) (h : petition.Progress hearing)
    (turn : Hearing.Turn) (hfits : turn = .go → hearing.fails petition.conn = false) :
    petition.Progress (hearing.act petition.conn turn) := by
  cases turn with
  | go =>
      by_cases hbusy : hearing.isBusy petition.conn = true
      · rw [Hearing.act, if_pos hbusy]
        cases h with
        | deciding session request hstage hdecode hcheck hwaits =>
            exact progress_deciding hopen hstage hdecode hcheck hwaits
        | refusing session request hstage hdecode hunwelcome hwaits =>
            exact progress_refusing hopen hstage hdecode hunwelcome hwaits
        | answering session request accepted left deadline hstage hdecode hwrites =>
            exact progress_answering hopen hstage hdecode hwrites (hfits rfl)
        | settled hidle _ => exact absurd hbusy (by simp [hidle])
      · rwa [Hearing.act, if_neg hbusy]
  | read most =>
      refine h.stays rfl (read_registry _ _ _) (fun hspares => hspares.read most) ?_
        (queued_read most)
      simp only [Hearing.sent, Hearing.act, Hearing.withTransport, List.append_assoc,
        hearing.endpoint.transport.read_append_unread petition.conn most]
  | queue holder =>
      by_cases hown : holder = .session
      · rwa [Hearing.act, if_pos hown]
      · rw [Hearing.act, if_neg hown]
        exact h.stays rfl rfl (fun hspares => hspares.ask holder)
          (congrArg (hearing.received ++ ·) (asked_unread _ _ _))
          (queued_onSocket fun _ hqueued => Socket.mem_ask.mpr (Or.inl hqueued))
  | leave holder =>
      by_cases hown : holder = .session
      · rwa [Hearing.act, if_pos hown]
      · rw [Hearing.act, if_neg hown]
        exact h.stays rfl rfl (fun hspares => hspares.release holder)
          (congrArg (hearing.received ++ ·) (release_unread _ _ _))
          (queued_onSocket fun _ hqueued => Socket.mem_release.mpr ⟨hqueued, Ne.symm hown⟩)
  | wait duration =>
      exact h.stays rfl rfl (fun hspares => { hspares with }) rfl
        fun socket hsocket => ⟨socket, hsocket, id⟩

theorem Progress.run (hopen : petition.IsOpen) (h : petition.Progress hearing)
    (turns : List Hearing.Turn) (hsucceeds : hearing.succeeds petition.conn turns = true) :
    petition.Progress (hearing.run petition.conn turns) := by
  induction turns generalizing hearing with
  | nil => exact h
  | cons turn rest ih =>
      cases turn with
      | go =>
          obtain ⟨hfits, hrest⟩ := Bool.and_eq_true_iff.mp hsucceeds
          exact ih (h.act hopen .go fun _ => by simpa using hfits) hrest
      | read most => exact ih (h.act hopen (.read most) fun hgo => by cases hgo) hsucceeds
      | queue holder => exact ih (h.act hopen (.queue holder) fun hgo => by cases hgo) hsucceeds
      | leave holder => exact ih (h.act hopen (.leave holder) fun hgo => by cases hgo) hsucceeds
      | wait duration => exact ih (h.act hopen (.wait duration) fun hgo => by cases hgo) hsucceeds

/-! ## The end -/

/-- The socket has room for the response, and its peer has not gone. -/
structure HasRoom (petition : Petition) : Prop where
  unbroken : petition.socket.isBroken = false
  room : ∀ accepted, petition.socket.unread.length +
    (petition.response accepted).toFrame.encode.length ≤ petition.socket.capacity

/-- No other task is at the socket, and all that was on it has been read. -/
def Free (petition : Petition) (hearing : Hearing) : Prop :=
  ∃ socket, hearing.endpoint.transport.socket? petition.conn = some socket ∧ socket.unread = [] ∧
    ∀ holder ∈ socket.lock, holder = .session

theorem Free.hasSocket (h : petition.Free hearing) (hwaits : petition.Waits hearing session) :
    hearing.endpoint.hasSocket session = true := by
  obtain ⟨socket, hsocket, _, halone⟩ := h
  obtain ⟨holder, hholder⟩ := Option.isSome_iff_exists.mp
    (List.isSome_head?.mpr (List.ne_nil_of_mem (hwaits.queued _ hsocket)))
  have hown : holder = Holder.session := halone holder (List.mem_of_mem_head? hholder)
  rw [Endpoint.hasSocket, hwaits.own, hsocket, Option.any_some, Socket.isHeldBy_iff, hholder, hown]

/-- How far the session is from its end, as long as it is not over. -/
def distance (hearing : Hearing) (conn : ConnId) : Nat :=
  (hearing.stage? conn).elim 0 Session.Stage.rank

theorem isBusy_iff (hearing : Hearing) (conn : ConnId) :
    hearing.isBusy conn = true ↔ 1 < distance hearing conn := by
  unfold Hearing.isBusy distance
  rcases hearing.stage? conn with _ | (_ | _ | _ | _ | _) <;> simp [Session.Stage.rank]

theorem distance_eq (hfound : hearing.endpoint.sessions.find? petition.conn = some session) :
    distance hearing petition.conn = Session.Stage.rank session.stage := by
  rw [distance, Hearing.stage?, hfound, Option.map_some, Option.elim_some]

theorem distance_stepSession
    (hfound : hearing.endpoint.sessions.find? petition.conn = some session)
    (hadvance : hearing.endpoint.advanceSession session true = (after, next))
    (hown : next.conn = petition.conn) :
    distance { hearing with endpoint := hearing.endpoint.stepSession petition.conn true }
      petition.conn ≤ Session.Stage.rank next.stage := by
  cases hover : next.isOver with
  | false =>
      rw [stepSession_of_going hfound hadvance hover]
      exact Nat.le_of_eq (distance_eq (find?_addSession after hown))
  | true =>
      have hgone : (hearing.endpoint.stepSession petition.conn true).sessions.find? petition.conn =
          none := by
        simp only [Endpoint.stepSession, hfound, hadvance, Endpoint.keepSession, hover, if_true]
        exact (Table.find?_erase ..).trans (if_pos hown.symm)
      rw [distance, Hearing.stage?, hgone]
      exact Nat.zero_le _

theorem stepSession_transport
    (hfound : hearing.endpoint.sessions.find? petition.conn = some session)
    (hadvance : hearing.endpoint.advanceSession session true = (after, next)) :
    ((hearing.endpoint.stepSession petition.conn true).transport.socket? petition.conn) =
      after.transport.socket? petition.conn := by
  simp only [Endpoint.stepSession, hfound, hadvance, Endpoint.keepSession]
  split <;> rfl

/-- On a free socket a session that waits for it goes on, and leaves it free. -/
theorem Free.goes (hopen : petition.IsOpen) (hfree : petition.Free hearing)
    (hwaits : petition.Waits hearing session)
    (hwaiting : (∃ node, session.stage = .accepting node) ∨ session.stage = .refusing) :
    petition.Free { hearing with endpoint := hearing.endpoint.stepSession petition.conn true } ∧
      distance { hearing with endpoint := hearing.endpoint.stepSession petition.conn true }
        petition.conn < distance hearing petition.conn := by
  have hlock := hfree.hasSocket hwaits
  have hown := hwaits.own
  obtain ⟨socket, hsocket, hempty, halone⟩ := hfree
  rw [distance_eq hwaits.found]
  have hstep : ∃ after next, hearing.endpoint.advanceSession session true = (after, next) ∧
      next.conn = petition.conn ∧
      Session.Stage.rank next.stage < Session.Stage.rank session.stage ∧
      ∃ socket, after.transport.socket? petition.conn = some socket ∧ socket.unread = [] ∧
        ∀ holder ∈ socket.lock, holder = .session := by
    rcases hwaiting with ⟨node, hstage⟩ | hstage
    · simp only [Endpoint.advanceSession, hstage, Endpoint.stepAccepting, hlock, Bool.not_true,
        Bool.false_eq_true, if_false]
      split
      · -- the registry refuses: the lock is given up and asked for again
        have hregistry : (hearing.endpoint.release session).registry = petition.start.registry :=
          hwaits.registry
        simp only [Endpoint.refuse, hopen.writer hown hregistry]
        refine ⟨_, _, rfl, hown, show 3 < 4 by decide, (socket.release .session).ask .session,
          ?_, Socket.ask_unread.trans hempty, fun holder hholder => ?_⟩
        · simp only [Endpoint.release, hown, socket?_own, hsocket, Option.map_some]
        · rcases Socket.mem_ask.mp hholder with hkept | hsame
          · exact halone holder (Socket.mem_release.mp hkept).1
          · exact hsame
      · exact ⟨_, _, rfl, hown, show 2 < 4 by decide, socket, hsocket, hempty, halone⟩
    · simp only [Endpoint.advanceSession, hstage, Endpoint.stepRefusing, hlock, if_true]
      exact ⟨_, _, rfl, hown, show 2 < 3 by decide, socket, hsocket, hempty, halone⟩
  obtain ⟨after, next, hadvance, hnext, hless, hafter⟩ := hstep
  refine ⟨?_, Nat.lt_of_le_of_lt (distance_stepSession hwaits.found hadvance hnext) hless⟩
  rwa [Free, stepSession_transport hwaits.found hadvance]

/-- On a free socket with room for the response, what is left of it is written at once. -/
theorem Free.answers (hroom : petition.HasRoom) (hfree : petition.Free hearing) {accepted : Bool}
    {deadline : Nat} (hstage : session.stage = .answering accepted left deadline)
    (hwrites : petition.Writes hearing session request accepted left) :
    hearing.fails petition.conn = false ∧
      distance { hearing with endpoint := hearing.endpoint.stepSession petition.conn true }
        petition.conn ≤ 1 := by
  obtain ⟨socket, hsocket, hempty, _⟩ := hfree
  obtain ⟨_, hkept, hbroken, hcapacity⟩ := hwrites.spares.kept
  rw [hsocket] at hkept
  cases hkept
  have hunbroken : socket.isBroken = false := hbroken.trans hroom.unbroken
  have hleft : left.length ≤ socket.capacity - socket.unread.length := by
    have hsent := congrArg List.length hwrites.sent
    have hfits := hroom.room accepted
    simp only [List.length_append] at hsent
    simp only [hempty, List.length_nil]
    omega
  have hwritten : (socket.put left).2 = [] := List.drop_eq_nil_of_le hleft
  refine ⟨?_, ?_⟩
  · simp only [Hearing.fails, Hearing.stage?, hwrites.found, Option.map_some, hstage, hsocket,
      Option.all_some, hunbroken, hwritten, List.isEmpty_nil, Bool.not_true, Bool.false_and,
      Bool.or_self]
  · have hown := hwrites.own
    rw [← hown] at hsocket
    have hadvance : hearing.endpoint.advanceSession session true =
        hearing.endpoint.stepAnswering session accepted left deadline := by
      simp only [Endpoint.advanceSession, hstage]
    rw [stepAnswering_eq hsocket hunbroken] at hadvance
    simp only [hwritten, List.isEmpty_nil, if_true] at hadvance
    refine Nat.le_trans (distance_stepSession hwrites.found hadvance ?_) ?_
    · cases accepted <;> exact hown
    · cases accepted
      · exact Nat.zero_le 1
      · exact Nat.le_refl 1

theorem act_go (hbusy : hearing.isBusy petition.conn = true) :
    hearing.act petition.conn .go =
      { hearing with endpoint := hearing.endpoint.stepSession petition.conn true } := by
  rw [Hearing.act, if_pos hbusy]

/-- On a free socket with room the session comes to its end by itself. -/
theorem Progress.finishes (hopen : petition.IsOpen) (hroom : petition.HasRoom)
    (h : petition.Progress hearing) (hfree : petition.Free hearing) :
    ∃ turns, hearing.succeeds petition.conn turns = true ∧
      (hearing.run petition.conn turns).isBusy petition.conn = false := by
  induction hdistance : distance hearing petition.conn using Nat.strongRecOn generalizing hearing with
  | ind rounds ih =>
      by_cases hidle : hearing.isBusy petition.conn = false
      · exact ⟨[], rfl, hidle⟩
      have hbusy : hearing.isBusy petition.conn = true := by simpa using hidle
      have hact := act_go hbusy
      have hgoes : hearing.fails petition.conn = false ∧
          ((hearing.act petition.conn .go).isBusy petition.conn = false ∨
            petition.Free (hearing.act petition.conn .go) ∧
              distance (hearing.act petition.conn .go) petition.conn < rounds) := by
        rw [hact, ← hdistance]
        cases h with
        | deciding session request hstage _ _ hwaits =>
            have hfits : hearing.fails petition.conn = false := by
              simp only [Hearing.fails, Hearing.stage?, hwaits.found, Option.map_some, hstage]
            exact ⟨hfits, Or.inr (hfree.goes hopen hwaits (Or.inl ⟨_, hstage⟩))⟩
        | refusing session request hstage _ _ hwaits =>
            have hfits : hearing.fails petition.conn = false := by
              simp only [Hearing.fails, Hearing.stage?, hwaits.found, Option.map_some, hstage]
            exact ⟨hfits, Or.inr (hfree.goes hopen hwaits (Or.inr hstage))⟩
        | answering session request accepted left deadline hstage _ hwrites =>
            obtain ⟨hfits, hend⟩ := hfree.answers hroom hstage hwrites
            refine ⟨hfits, Or.inl (Bool.eq_false_iff.mpr fun hagain => ?_)⟩
            exact absurd ((isBusy_iff _ _).mp hagain) (Nat.not_lt.mpr hend)
        | settled hidle _ => exact absurd hbusy (by simp [hidle])
      obtain ⟨hfits, hidle | ⟨hfree, hless⟩⟩ := hgoes
      · exact ⟨[.go], by simp [Hearing.succeeds, hfits], hidle⟩
      · obtain ⟨turns, hsucceeds, hidle⟩ :=
          ih _ hless (h.act hopen .go fun _ => hfits) hfree rfl
        exact ⟨.go :: turns, by simp [Hearing.succeeds, hfits, hsucceeds], hidle⟩

theorem run_append (turns more : List Hearing.Turn) :
    hearing.run petition.conn (turns ++ more) =
      (hearing.run petition.conn turns).run petition.conn more :=
  List.foldl_append ..

theorem succeeds_append (turns more : List Hearing.Turn) :
    hearing.succeeds petition.conn (turns ++ more) =
      (hearing.succeeds petition.conn turns &&
        (hearing.run petition.conn turns).succeeds petition.conn more) := by
  induction turns generalizing hearing with
  | nil => rfl
  | cons turn rest ih =>
      cases turn with
      | go =>
          simp only [List.cons_append, Hearing.succeeds, ih, Bool.and_assoc]
          rfl
      | _ => exact ih

/-- The tasks that are named leave the socket, and the session does not. -/
theorem run_leave (holders : List Holder) {socket : Socket}
    (hsocket : hearing.endpoint.transport.socket? petition.conn = some socket) :
    hearing.succeeds petition.conn (holders.map .leave) = true ∧
      ∃ later, (hearing.run petition.conn (holders.map .leave)).endpoint.transport.socket?
        petition.conn = some later ∧
        ∀ holder ∈ later.lock, holder ∈ socket.lock ∧ (holder ∈ holders → holder = .session) := by
  induction holders generalizing hearing socket with
  | nil => exact ⟨rfl, socket, hsocket, fun _ h => ⟨h, fun hnone => nomatch hnone⟩⟩
  | cons first rest ih =>
      have hleft : ∃ later, (hearing.act petition.conn (.leave first)).endpoint.transport.socket?
          petition.conn = some later ∧
          ∀ holder ∈ later.lock, holder ∈ socket.lock ∧ (holder = first → holder = .session) := by
        by_cases hown : first = .session
        · rw [Hearing.act, if_pos hown]
          exact ⟨socket, hsocket, fun _ h => ⟨h, fun hsame => hsame.trans hown⟩⟩
        · rw [Hearing.act, if_neg hown]
          refine ⟨socket.release first, ?_, fun holder hholder => ?_⟩
          · exact (socket?_own ..).trans (by rw [hsocket, Option.map_some])
          · obtain ⟨hkept, hne⟩ := Socket.mem_release.mp hholder
            exact ⟨hkept, fun hsame => absurd hsame hne⟩
      obtain ⟨middle, hmiddle, hfirst⟩ := hleft
      obtain ⟨hsucceeds, later, hlater, hrest⟩ := ih hmiddle
      refine ⟨hsucceeds, later, hlater, fun holder hholder => ?_⟩
      obtain ⟨hkept, hnamed⟩ := hrest holder hholder
      obtain ⟨hheld, hsame⟩ := hfirst holder hkept
      exact ⟨hheld, fun hmem => (List.mem_cons.mp hmem).elim hsame hnamed⟩

/-- Once the other tasks have left the socket and the peer has read it, the socket is free. -/
theorem exists_free {socket : Socket}
    (hsocket : hearing.endpoint.transport.socket? petition.conn = some socket) :
    ∃ turns, hearing.succeeds petition.conn turns = true ∧
      petition.Free (hearing.run petition.conn turns) := by
  obtain ⟨hsucceeds, later, hlater, halone⟩ := run_leave socket.lock hsocket
  refine ⟨socket.lock.map .leave ++ [.read later.unread.length], ?_, ?_⟩
  · rw [succeeds_append, hsucceeds]
    rfl
  · rw [run_append]
    refine ⟨(later.read later.unread.length).1, ?_, List.drop_length, fun holder hholder => ?_⟩
    · change ((hearing.run petition.conn (socket.lock.map .leave)).endpoint.transport.read
        petition.conn later.unread.length).1.socket? petition.conn = _
      simp only [Transport.read, hlater, socket?_own, Option.map_some]
    · obtain ⟨hheld, hsame⟩ := halone holder hholder
      exact hsame hheld

theorem Progress.kept (h : petition.Progress hearing) :
    ∃ socket, hearing.endpoint.transport.socket? petition.conn = some socket := by
  cases h with
  | deciding _ _ _ _ _ h => exact h.spares.kept.imp fun _ h => h.1
  | refusing _ _ _ _ _ h => exact h.spares.kept.imp fun _ h => h.1
  | answering _ _ _ _ _ _ _ h => exact h.spares.kept.imp fun _ h => h.1
  | settled _ h => exact h.1.kept.imp fun _ h => h.1

/-- A session that is not busy any more has settled the petition. -/
theorem Progress.settled_of_idle (h : petition.Progress hearing)
    (hidle : hearing.isBusy petition.conn = false) : petition.Settled hearing := by
  have hbusy : ∀ session stage, hearing.endpoint.sessions.find? petition.conn = some session →
      session.stage = stage → hearing.stage? petition.conn = some stage := by
    rintro session _ hfound rfl
    rw [Hearing.stage?, hfound, Option.map_some]
  cases h with
  | deciding session request hstage _ _ h =>
      rw [Hearing.isBusy, hbusy session _ h.found hstage] at hidle
      cases hidle
  | refusing session request hstage _ _ h =>
      rw [Hearing.isBusy, hbusy session _ h.found hstage] at hidle
      cases hidle
  | answering session request accepted left deadline hstage _ h =>
      rw [Hearing.isBusy, hbusy session _ h.found hstage] at hidle
      cases hidle
  | settled _ h => exact h

/-- What cannot be read keeps the session busy at no time. -/
theorem Progress.idle_of_unreadable {error : Handshake.Error} (h : petition.Progress hearing)
    (hdecode : Handshake.Request.decode petition.frame.payload = .error error) :
    hearing.isBusy petition.conn = false := by
  cases h with
  | deciding _ _ _ hreadable _ _ => cases hreadable.symm.trans hdecode
  | refusing _ _ _ hreadable _ _ => cases hreadable.symm.trans hdecode
  | answering _ _ _ _ _ _ hreadable _ => cases hreadable.symm.trans hdecode
  | settled hidle _ => exact hidle

/--
However the turns go in which no write of the session fails: when the session is no longer
busy with the request, the request is settled. One that cannot be read is settled at once,
and every other one can still be settled if the socket has room for the response: the other
tasks have to leave it, and the peer to read.
-/
theorem request_decided (hopen : petition.IsOpen) (turns : List Hearing.Turn)
    (hsucceeds : petition.heard.succeeds petition.conn turns = true) :
    ((petition.run turns).isBusy petition.conn = false → petition.Settled (petition.run turns)) ∧
      (∀ error, Handshake.Request.decode petition.frame.payload = .error error →
        (petition.run turns).isBusy petition.conn = false) ∧
      (petition.HasRoom → ∃ more, petition.heard.succeeds petition.conn (turns ++ more) = true ∧
        (petition.run (turns ++ more)).isBusy petition.conn = false) := by
  have hprogress := (progress_heard hopen).run hopen turns hsucceeds
  refine ⟨hprogress.settled_of_idle, fun _ => hprogress.idle_of_unreadable, fun hroom => ?_⟩
  obtain ⟨socket, hsocket⟩ := hprogress.kept
  obtain ⟨leaving, hleave, hfree⟩ := exists_free hsocket
  obtain ⟨last, hlast, hidle⟩ := (hprogress.run hopen leaving hleave).finishes hopen hroom hfree
  refine ⟨leaving ++ last, ?_, ?_⟩
  · rw [succeeds_append, succeeds_append, hsucceeds, Bool.true_and]
    exact Bool.and_eq_true_iff.mpr ⟨hleave, hlast⟩
  · rw [run, run_append, run_append]
    exact hidle

theorem templates_eq {given wanted : Handshake.Templates} (hrequest : given.request = wanted.request)
    (haccept : given.accept = wanted.accept) (hreject : given.reject = wanted.reject) :
    given = wanted := by
  cases given
  cases wanted
  rw [Handshake.Templates.mk.injEq]
  exact ⟨hrequest, haccept, hreject⟩

/-- What a node asks that has been dialed itself. -/
def crossingRequest : Handshake.Profile :=
  ⟨Registry.repeatedId 0x61, Settings.default.chainId, .v4 0x0a000002, 30303, "", []⟩

/-- The node that has dialed it, and that has its request now. -/
def crossingHost : Endpoint :=
  let asker := crossingRequest
  let opened := Endpoint.create { Settings.default with ip := .v4 0x0a000001 }
    (Registry.repeatedId 0x62) HandlerTable.empty
  let dialing := (opened.dialedSocket (Node.create asker.id asker.ip asker.port 0)
    (Socket.create 512)).1
  let accepting := (dialing.acceptSocket asker.ip (Socket.create 512)).1
  (accepting.receive 2 asker.request.toFrame.encode).1

def crossing : Petition where
  start := crossingHost
  conn := 2
  session := (crossingHost.sessions.find? 2).get (by decide +kernel)
  pending := (crossingHost.registry.inbound.find? 2).get (by decide +kernel)
  socket := (crossingHost.transport.socket? 2).get (by decide +kernel)
  profile := Endpoint.profile crossingHost.settings crossingHost.registry.self []
  frame := crossingRequest.request.toFrame
  rest := []

/-- The hash of the node is the larger one: its dial goes, and the request is accepted. -/
theorem request_decided_of_crossing :
    let turns := [.go, .queue (.lane 0), .go, .read 24]
    crossing.start.registry.outbound.length = 1 ∧
      (crossing.run turns).isBusy 2 = false ∧
      crossing.Settled (crossing.run turns) ∧
      (crossing.run turns).endpoint.registry.outbound.length = 0 ∧
      (crossing.run turns).endpoint.registry.active.length = 1 := by
  intro turns
  have hsession : crossing.start.sessions.find? crossing.conn = some crossing.session := by
    simp only [crossing, Option.some_get]
  have hpending : crossing.start.registry.inbound.find? crossing.conn = some crossing.pending := by
    simp only [crossing, Option.some_get]
  have hsocket : crossing.start.transport.socket? crossing.conn = some crossing.socket := by
    simp only [crossing, Option.some_get]
  have hreading : crossing.session.stage = .reading := by
    have hrank : Session.Stage.rank crossing.session.stage = 1 := by decide +kernel
    revert hrank
    cases crossing.session.stage <;> simp [Session.Stage.rank]
  have hopen : crossing.IsOpen :=
    { listed := hsession
      own := by decide +kernel
      awaiting := by decide +kernel
      reading := hreading
      running := by decide +kernel
      pending := hpending
      handle := by decide +kernel
      opened := by decide +kernel
      socket := hsocket
      templates := templates_eq (by decide +kernel) (by decide +kernel) (by decide +kernel)
      front := by decide +kernel
      net := by decide +kernel
      action := by decide +kernel }
  have hidle : (crossing.run turns).isBusy 2 = false := by decide +kernel
  obtain ⟨hsettled, _⟩ := request_decided hopen turns (by decide +kernel)
  exact ⟨by decide +kernel, hidle, hsettled hidle, by decide +kernel, by decide +kernel⟩

end Petition

end Peering
