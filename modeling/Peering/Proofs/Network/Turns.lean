import Peering.Proofs.Network.Ties
import Peering.Proofs.Session.Containment

/-!
# Sessions and tied connections

A step of a session stands beside every connection but its own. On its own one it goes
by what it has been told: by the node that was dialed, or by the request that it reads.
-/

namespace Peering

namespace Endpoint

variable {endpoint after : Endpoint} {session next : Session} {known : ConnId → Prop}
  {conn other : ConnId} {peer own : IdHash} {got bytes : Bytes} {heeds : Bool}

/-! ## The end of a step -/

theorem find?_keepSession (endpoint : Endpoint) (session : Session) (conn : ConnId) :
    (endpoint.keepSession session).sessions.find? conn =
      if conn = session.conn then if session.isOver then none else some session
      else endpoint.sessions.find? conn := by
  unfold keepSession
  split
  · exact Table.find?_erase _ _ _
  · exact Table.find?_insert _ _ _ _

theorem keepSession_narrows (endpoint : Endpoint) (session : Session) :
    endpoint.registry.Narrows (endpoint.keepSession session).registry := by
  unfold keepSession
  split
  · exact (Registry.removeConn_shrinks endpoint.registry session.conn).leads
  · exact (Registry.Shrinks.refl _).leads

theorem keepSession_self (endpoint : Endpoint) (session : Session) :
    (endpoint.keepSession session).registry.self = endpoint.registry.self := by
  unfold keepSession
  split
  · exact Registry.removeConn_self endpoint.registry session.conn
  · rfl

theorem keepSession_outbox (endpoint : Endpoint) (session : Session) :
    (endpoint.keepSession session).transport.outbox = endpoint.transport.outbox := by
  unfold keepSession
  split <;> rfl

theorem keepSession_sockets (endpoint : Endpoint) (session : Session) :
    (endpoint.keepSession session).transport.sockets = endpoint.transport.sockets := by
  unfold keepSession
  split <;> rfl

/-- What a step of a session does, the end of the step included. -/
structure Turn (endpoint : Endpoint) (session next : Session) (after : Endpoint) : Prop where
  follows : Follows session next
  leads : endpoint.registry.Keyed → ∀ dest conn, after.registry.Leads dest conn →
    endpoint.registry.Leads dest conn ∨
      ∃ peer, dest = .active peer ∧ conn = session.conn ∧ Proposes session peer
  self : after.registry.self = endpoint.registry.self
  outbox : after.transport.outbox = endpoint.transport.outbox ∨ ∃ peer frame time,
    after.transport.outbox = (endpoint.transport.outbox.send ⟨.active peer, frame, time⟩).1
  isSome : ∀ conn, (after.transport.socket? conn).isSome =
    (endpoint.transport.socket? conn).isSome
  unread : ∀ conn, session.stage = .reading ∨ conn ≠ session.conn →
    after.transport.unread conn = endpoint.transport.unread conn
  find? : ∀ conn, after.sessions.find? conn = if conn = session.conn then
    if next.isOver then none else some next else endpoint.sessions.find? conn
  keyed : endpoint.registry.Keyed → after.registry.Keyed
  templates : after.templates = endpoint.templates

theorem keepSession_keyed (hkeyed : endpoint.registry.Keyed) (session : Session) :
    (endpoint.keepSession session).registry.Keyed := by
  unfold keepSession
  split
  · exact hkeyed.shrink (Registry.removeConn_shrinks endpoint.registry session.conn)
  · exact hkeyed

theorem stepSession_turn (hfind : endpoint.sessions.find? conn = some session) (heeds : Bool) :
    Turn endpoint session (endpoint.advanceSession session heeds).2
      (endpoint.stepSession conn heeds) := by
  have hstirs := advanceSession_stirs endpoint session heeds
  have hfollows := advanceSession_follows endpoint session heeds
  have hkeeps := stepSession_keepsSetup endpoint conn heeds
  have hkeyed := fun hkeyed => ((Visit.mk endpoint session heeds).confined hkeyed).keyed
  have hstep : endpoint.stepSession conn heeds =
      (endpoint.advanceSession session heeds).1.keepSession (endpoint.advanceSession session heeds).2 :=
    Stay.stepSession_eq hfind heeds
  have htemplates : (endpoint.stepSession conn heeds).templates = endpoint.templates := by
    rw [hkeeps]
  rw [hstep] at htemplates ⊢
  refine ⟨hfollows, fun hkeyed dest conn hleads => ?_,
    (keepSession_self _ _).trans hstirs.self, ?_, fun conn => ?_, fun conn hconn => ?_,
    fun conn => ?_, fun hold => keepSession_keyed (hkeyed hold) _, htemplates⟩
  · exact hstirs.leads hkeyed dest conn (keepSession_narrows _ _ dest conn hleads)
  · rw [keepSession_outbox]
    exact hstirs.outbox
  · rw [← hstirs.isSome conn, Transport.socket?, keepSession_sockets]
    rfl
  · rw [← hstirs.unread conn hconn]
    exact Transport.unread_congr (by rw [Transport.socket?, keepSession_sockets]; rfl)
  · rw [find?_keepSession, hfollows.conn, hstirs.sessions]

namespace Turn

theorem queues (h : Turn endpoint session next after) (conn : ConnId) : Queues conn endpoint after := by
  refine h.outbox.imp id ?_
  rintro ⟨peer, frame, time, hsent⟩
  exact ⟨⟨.active peer, frame, time⟩, nofun, hsent⟩

/-- A step of another session stands beside a connection. -/
theorem works (h : Turn endpoint session next after) (hkeyed : endpoint.registry.Keyed)
    (hconn : conn ≠ session.conn) : Works conn endpoint after := by
  refine .of_queues (fun dest hleads => ?_) (h.queues conn) (h.unread conn (Or.inr hconn))
    ((h.find? conn).trans (if_neg hconn))
  rcases h.leads hkeyed dest conn hleads with hold | ⟨_, _, hsame, _⟩
  · exact hold
  · exact absurd hsame hconn

theorem find?_own (h : Turn endpoint session next after) {found : Session}
    (hfound : after.sessions.find? session.conn = some found) :
    found = next ∧ next.isOver = false := by
  rw [h.find?, if_pos rfl] at hfound
  split at hfound
  · cases hfound
  · rename_i hgoes
    exact ⟨(Option.some.inj hfound).symm, Bool.eq_false_iff.mpr hgoes⟩

theorem tidy (h : Turn endpoint session next after) (htidy : Tidy known own endpoint)
    (hfind : endpoint.sessions.find? session.conn = some session) : Tidy known own after where
  keyed := h.keyed htidy.keyed
  leads := fun dest conn hleads => by
    rcases h.leads htidy.keyed dest conn hleads with hold | ⟨_, _, rfl, _⟩
    · exact htidy.leads dest conn hold
    · exact (htidy.sessions _ session hfind).2
  sessions := fun conn found hfound => by
    by_cases hconn : conn = session.conn
    · subst hconn
      obtain ⟨rfl, _⟩ := h.find?_own hfound
      exact ⟨h.follows.conn, (htidy.sessions _ session hfind).2⟩
    · rw [h.find?, if_neg hconn] at hfound
      exact htidy.sessions conn found hfound
  jobs := fun job hjob => htidy.jobs job ((h.queues job.conn).jobs.mp hjob)
  cargo := fun dest bytes hmem => by
    rcases h.outbox with hsame | ⟨peer, frame, time, hsent⟩
    · exact htidy.cargo dest bytes (hsame ▸ hmem)
    · rw [hsent] at hmem
      rcases List.mem_cons.mp ((Outbox.thins_send _ _).mem hmem) with hnew | hold
      · exact Or.inl ⟨peer, congrArg Prod.fst hnew⟩
      · exact htidy.cargo dest bytes hold
  sockets := fun conn hknown => (h.isSome conn).trans (htidy.sockets conn hknown)
  identity := h.self ▸ htidy.identity
  request := h.templates ▸ htidy.request

/-- On a tied connection nothing is done under another hash. -/
theorem tied (h : Turn endpoint session next after) (hkeyed : endpoint.registry.Keyed)
    (hfind : endpoint.sessions.find? session.conn = some session)
    (htied : Tied endpoint session.conn peer) : Tied after session.conn peer where
  leads := fun other hleads => by
    rcases h.leads hkeyed _ _ hleads with hold | ⟨_, hdest, _, hproposes⟩
    · exact htied.leads other hold
    · cases hdest
      exact htied.proposes session hfind other hproposes
  waits := fun found hfound hphase => by
    obtain ⟨rfl, _⟩ := h.find?_own hfound
    exact htied.waits session hfind (h.follows.phase hphase)
  proposes := fun found hfound other hproposes => by
    obtain ⟨rfl, _⟩ := h.find?_own hfound
    obtain ⟨node, rfl, hdialed | hstage⟩ := hproposes
    · exact htied.proposes session hfind _ ⟨node, rfl, Or.inl (h.follows.dialed node hdialed)⟩
    · rcases h.follows.stage node hstage with hold | ⟨hphase, _⟩
      · exact htied.proposes session hfind _ ⟨node, rfl, Or.inr hold⟩
      · exact absurd hphase (htied.waits session hfind)
  jobs := fun job hjob => htied.jobs job ((h.queues session.conn).jobs.mp hjob)

end Turn

/-! ## Before a connection is tied -/

theorem onFrame_phase (endpoint : Endpoint) {frame : Frame}
    (hphase : session.phase = .awaitingRequest) :
    (endpoint.onFrame session frame).2.phase ≠ .awaitingRequest := by
  unfold onFrame
  split
  · split
    · exact (onRequest_next _ _ _).2.2.1
    · exact Handshake.Phase.noConfusion
  · rename_i hother
    cases hphase.symm.trans hother
  · rename_i hother _
    cases hphase.symm.trans hother
  · rename_i hother _
    cases hphase.symm.trans hother
  · rename_i hother
    cases hphase.symm.trans hother
  · rename_i hother
    cases hphase.symm.trans hother

/-- A session that waits for a request goes on waiting, or it waits for none any more. -/
theorem advance_of_waiting (endpoint : Endpoint) (hphase : session.phase = .awaitingRequest)
    (hstage : session.stage = .reading) :
    (endpoint.advanceSession session heeds).2 = session ∨
      (endpoint.advanceSession session heeds).2.isOver = true ∨
      (endpoint.advanceSession session heeds).2.phase ≠ .awaitingRequest := by
  have hquit : session.quit.isOver = true := rfl
  simp only [advanceSession, hstage, stepReading]
  split
  · exact Or.inr (Or.inl hquit)
  split
  · exact Or.inr (Or.inr (onFrame_phase endpoint hphase))
  · exact Or.inr (Or.inl hquit)
  · split
    · exact Or.inr (Or.inl hquit)
    · exact Or.inl rfl

/-- A session without bytes waits, or it quits. -/
theorem advance_of_empty (endpoint : Endpoint) (hstage : session.stage = .reading)
    (hbuffer : session.buffer = []) :
    (endpoint.advanceSession session heeds).1 = endpoint ∧
      ((endpoint.advanceSession session heeds).2 = session ∨
        (endpoint.advanceSession session heeds).2.isOver = true) := by
  have hfront : FrameStream.front endpoint.settings.maxFrameBody.toNat session.buffer =
      .incomplete := hbuffer ▸ rfl
  simp only [advanceSession, hstage, stepReading, hfront]
  split
  · exact ⟨rfl, Or.inr rfl⟩
  · split
    · exact ⟨rfl, Or.inr rfl⟩
    · exact ⟨rfl, Or.inl rfl⟩

theorem Quiet.step (h : Quiet endpoint conn got) (htidy : Tidy known own endpoint) :
    Quiet (endpoint.stepSession conn heeds) conn got ∨
      ∀ peer, Names got peer → Tied (endpoint.stepSession conn heeds) conn peer := by
  obtain ⟨session, hfind, hphase, hstage, hdialed, hbuffer⟩ := h.session
  have hturn := stepSession_turn hfind heeds
  obtain rfl := (htidy.sessions conn session hfind).1
  have hidle : ∀ job ∈ (endpoint.stepSession session.conn heeds).transport.outbox.jobs,
      job.conn ≠ session.conn := fun job hjob hconn =>
    h.idle ⟨job, (hturn.queues session.conn).jobs.mp hjob, hconn⟩
  have haside : ∀ dest,
      (endpoint.stepSession session.conn heeds).registry.Leads dest session.conn →
      dest = .inbound session.conn := fun dest hleads => by
    rcases hturn.leads htidy.keyed dest _ hleads with hold | ⟨_, _, _, node, _, hnamed⟩
    · exact h.aside dest hold
    · rcases hnamed with hdialed' | hstage'
      · cases hdialed.symm.trans hdialed'
      · cases hstage.symm.trans hstage'
  have htied : ∀ peer, (∀ found,
      (endpoint.stepSession session.conn heeds).sessions.find? session.conn = some found →
      found.phase ≠ .awaitingRequest ∧ ∀ other, Proposes found other → other = peer) →
      Tied (endpoint.stepSession session.conn heeds) session.conn peer := fun peer hsession => by
    refine .of_session (fun other hleads => ?_) (fun job hjob hconn => ?_) hsession
    · cases haside _ hleads
    · exact absurd hconn (hidle job hjob)
  -- It has read nothing yet, it has given up, or it has answered the request in its buffer.
  rcases advance_of_waiting endpoint hphase hstage with hsame | hover | hmoves
  · left
    refine ⟨haside, fun ⟨job, hjob, hconn⟩ => hidle job hjob hconn,
      (hturn.unread _ (Or.inl hstage)).trans h.unread, session, ?_, hphase, hstage, hdialed, hbuffer⟩
    rw [hturn.find?, if_pos rfl, hsame, if_neg]
    simp [Session.isOver, hstage]
  · right
    refine fun peer _ => htied peer fun found hfound => ?_
    cases hover.symm.trans (hturn.find?_own hfound).2
  · right
    refine fun peer hnames => htied peer fun found hfound => ?_
    obtain ⟨rfl, _⟩ := hturn.find?_own hfound
    refine ⟨hmoves, ?_⟩
    rintro _ ⟨node, rfl, hdialed' | hstage'⟩
    · cases hdialed.symm.trans (hturn.follows.dialed node hdialed')
    · rcases hturn.follows.stage node hstage' with hold | ⟨_, limit, frame, rest, request, hheard⟩
      · cases hstage.symm.trans hold
      · obtain ⟨hfront, hdecode, hhash⟩ := hheard
        exact hhash.symm.trans (hnames limit frame rest request (hbuffer ▸ hfront) hdecode)

/-- Where nothing has arrived, nothing is done but that the session may quit. -/
theorem Asking.step (h : Asking endpoint conn peer got) (htidy : Tidy known own endpoint) :
    Asking (endpoint.stepSession conn heeds) conn peer got := by
  cases hfind : endpoint.sessions.find? conn with
  | none => rwa [stepSession, hfind]
  | some session =>
      have hturn := stepSession_turn hfind heeds
      have hstep : endpoint.stepSession conn heeds =
          (endpoint.advanceSession session heeds).1.keepSession
            (endpoint.advanceSession session heeds).2 := Stay.stepSession_eq hfind heeds
      obtain rfl := (htidy.sessions conn session hfind).1
      obtain ⟨hstage, hbuffer⟩ := h.session session hfind
      obtain ⟨hstill, hnext⟩ := advance_of_empty endpoint hstage hbuffer
      have hqueues := hturn.queues session.conn
      refine ⟨fun found hleads => h.pending found ?_, fun found hfound => ?_,
        fun job hjob => h.jobs job (hqueues.jobs.mp hjob), hqueues.freight ▸ h.single, ?_⟩
      · rw [hstep, hstill] at hleads
        exact keepSession_narrows _ _ _ _ hleads
      · obtain ⟨rfl, hgoes⟩ := hturn.find?_own hfound
        rcases hnext with hsame | hover
        · rw [hsame]
          exact ⟨hstage, hbuffer⟩
        · cases hover.symm.trans hgoes
      · rw [hqueues.freight, hturn.unread _ (Or.inl hstage)]
        exact h.names

/-! ## Bytes arrive -/

theorem handOver_append_unread (endpoint : Endpoint) (conn : ConnId) (most : Nat) :
    (endpoint.handOver conn most).2 ++ (endpoint.handOver conn most).1.transport.unread conn =
      endpoint.transport.unread conn :=
  Transport.read_append_unread endpoint.transport conn most

/-- Whose bytes are read has the same connections and the same messages as before. -/
theorem handOver_same (endpoint : Endpoint) (conn : ConnId) (most : Nat) :
    (endpoint.handOver conn most).1.registry = endpoint.registry ∧
      (endpoint.handOver conn most).1.transport.outbox = endpoint.transport.outbox := by
  show (endpoint.transport.read conn most).1.registry = _ ∧
    (endpoint.transport.read conn most).1.outbox = _
  unfold Transport.read
  split <;> exact ⟨rfl, rfl⟩

theorem isSome_handOver (endpoint : Endpoint) (conn : ConnId) (most : Nat) (other : ConnId)
    (hsome : (endpoint.transport.socket? other).isSome = true) :
    ((endpoint.handOver conn most).1.transport.socket? other).isSome = true := by
  obtain ⟨socket, hsocket⟩ := Option.isSome_iff_exists.mp hsome
  obtain ⟨_, hafter, _⟩ := Transport.endures_act endpoint.transport other (.read conn most) socket
    hsocket
  exact Option.isSome_iff_exists.mpr ⟨_, hafter⟩

/-! ### The end that has written them -/

theorem works_handOver (hother : other ≠ conn) (most : Nat) :
    Works other endpoint (endpoint.handOver conn most).1 := by
  obtain ⟨hregistry, houtbox⟩ := handOver_same endpoint conn most
  have hunread : (endpoint.transport.act (.read conn most)).unread other =
      endpoint.transport.unread other :=
    Transport.unread_act nofun fun _ hread => hother (Transport.Action.read.inj hread).1.symm
  exact .of_queues (fun dest => by rw [hregistry]; exact id) (Or.inl houtbox) hunread rfl

theorem Tied.handOver (h : Tied endpoint conn peer) (found : ConnId) (most : Nat) :
    Tied (endpoint.handOver found most).1 conn peer := by
  obtain ⟨hregistry, houtbox⟩ := handOver_same endpoint found most
  exact ⟨fun other => by rw [hregistry]; exact h.leads other, h.waits, h.proposes,
    by rw [houtbox]; exact h.jobs⟩

theorem Tidy.handOver (h : Tidy known own endpoint) (conn : ConnId) (most : Nat) :
    Tidy known own (endpoint.handOver conn most).1 := by
  obtain ⟨hregistry, houtbox⟩ := handOver_same endpoint conn most
  exact ⟨hregistry ▸ h.keyed, fun dest => by rw [hregistry]; exact h.leads dest, h.sessions,
    by rw [houtbox]; exact h.jobs, by rw [houtbox]; exact h.cargo,
    fun conn hknown => isSome_handOver _ _ _ _ (h.sockets conn hknown),
    hregistry ▸ h.identity, h.request⟩

/-- Where nothing has been written, nothing is handed over. -/
theorem Quiet.handOver (h : Quiet endpoint conn got) (most : Nat) :
    (endpoint.handOver conn most).2 = [] ∧ Quiet (endpoint.handOver conn most).1 conn got := by
  obtain ⟨hregistry, houtbox⟩ := handOver_same endpoint conn most
  obtain ⟨hbytes, hunread⟩ :=
    List.append_eq_nil_iff.mp ((handOver_append_unread endpoint conn most).trans h.unread)
  refine ⟨hbytes, fun dest => by rw [hregistry]; exact h.aside dest, ?_, hunread, h.session⟩
  rw [Transport.HasJob, houtbox]
  exact h.idle

/-- What is handed over is part of the request. -/
theorem Asking.handOver (h : Asking endpoint conn peer got) (most : Nat) :
    Asking (endpoint.handOver conn most).1 conn peer (got ++ (endpoint.handOver conn most).2) := by
  obtain ⟨hregistry, houtbox⟩ := handOver_same endpoint conn most
  refine ⟨fun found => by rw [hregistry]; exact h.pending found, h.session,
    by rw [houtbox]; exact h.jobs, by rw [houtbox]; exact h.single, ?_⟩
  rw [houtbox, List.append_assoc got, handOver_append_unread]
  exact h.names

/-! ### The end that gets them -/

theorem find?_receive (h : Tidy known own endpoint) (conn : ConnId) (bytes : Bytes) (other : ConnId) :
    (endpoint.receive conn bytes).1.sessions.find? other = if other = conn then
      (endpoint.sessions.find? conn).map fun session =>
        { session with buffer := session.buffer ++ bytes }
      else endpoint.sessions.find? other := by
  unfold receive
  split
  · rename_i hnone
    split
    · rename_i hsame
      rw [hsame, hnone]
      rfl
    · rfl
  · rename_i session hfind
    obtain rfl := (h.sessions conn session hfind).1
    rw [hfind]
    exact Table.find?_insert _ _ _ _

/-- Only the buffer of the session changes where bytes arrive. -/
theorem session_of_receive (h : Tidy known own endpoint) {found : Session}
    (hfound : (endpoint.receive conn bytes).1.sessions.find? other = some found) :
    ∃ session buffer, endpoint.sessions.find? other = some session ∧
      found = { session with buffer := buffer } := by
  rw [find?_receive h] at hfound
  split at hfound
  · rename_i hsame
    obtain ⟨session, hfind, rfl⟩ := Option.map_eq_some_iff.mp hfound
    exact ⟨session, _, hsame ▸ hfind, rfl⟩
  · exact ⟨found, found.buffer, hfound, rfl⟩

theorem receive_transport (endpoint : Endpoint) (conn : ConnId) (bytes : Bytes) :
    (endpoint.receive conn bytes).1.transport = endpoint.transport := by
  unfold receive
  split <;> rfl

theorem receive_templates (endpoint : Endpoint) (conn : ConnId) (bytes : Bytes) :
    (endpoint.receive conn bytes).1.templates = endpoint.templates := by
  unfold receive
  split <;> rfl

theorem works_receive (h : Tidy known own endpoint) (hother : other ≠ conn ∨ bytes = []) :
    Works other endpoint (endpoint.receive conn bytes).1 := by
  refine .of_queues (fun dest => ?_) (Or.inl ?_) ?_ ?_
  · rw [registry, receive_transport]
    exact id
  · rw [receive_transport]
  · rw [receive_transport]
  · rw [find?_receive h]
    split
    · rename_i hsame
      obtain rfl := hother.resolve_left (absurd hsame)
      rw [hsame]
      cases endpoint.sessions.find? conn <;> simp
    · rfl

theorem Tied.receive (h : Tied endpoint other peer) (htidy : Tidy known own endpoint) :
    Tied (endpoint.receive conn bytes).1 other peer := by
  refine ⟨fun found => ?_, fun found hfound => ?_, fun found hfound => ?_, ?_⟩
  · rw [registry, receive_transport]
    exact h.leads found
  · obtain ⟨session, buffer, hfind, rfl⟩ := session_of_receive htidy hfound
    exact h.waits session hfind
  · obtain ⟨session, buffer, hfind, rfl⟩ := session_of_receive htidy hfound
    exact h.proposes session hfind
  · rw [receive_transport]
    exact h.jobs

theorem Tidy.receive (h : Tidy known own endpoint) (conn : ConnId) (bytes : Bytes) :
    Tidy known own (endpoint.receive conn bytes).1 where
  keyed := by
    rw [registry, receive_transport]
    exact h.keyed
  leads := by
    rw [registry, receive_transport]
    exact h.leads
  sessions := fun other found hfound => by
    obtain ⟨session, buffer, hfind, rfl⟩ := session_of_receive h hfound
    exact h.sessions other session hfind
  jobs := by
    rw [receive_transport]
    exact h.jobs
  cargo := by
    rw [receive_transport]
    exact h.cargo
  sockets := by
    rw [receive_transport]
    exact h.sockets
  identity := by
    rw [registry, receive_transport]
    exact h.identity
  request := receive_templates endpoint conn bytes ▸ h.request

theorem Quiet.receive (h : Quiet endpoint conn got) (htidy : Tidy known own endpoint)
    (bytes : Bytes) : Quiet (endpoint.receive conn bytes).1 conn (got ++ bytes) := by
  refine ⟨?_, ?_, ?_, ?_⟩
  · rw [registry, receive_transport]
    exact h.aside
  · rw [receive_transport]
    exact h.idle
  · rw [receive_transport]
    exact h.unread
  · obtain ⟨session, hfind, hphase, hstage, hdialed, rfl⟩ := h.session
    refine ⟨{ session with buffer := session.buffer ++ bytes }, ?_, hphase, hstage, hdialed, rfl⟩
    rw [find?_receive htidy, if_pos rfl, hfind]
    rfl

end Endpoint

end Peering
