import Peering.Proofs.Network.Scene
import Peering.Proofs.Session.Traces

/-!
# Connections that are tied to one hash

Everything that a node keeps about a connection under the hash of a peer, the entry of
the registry, the session and the writes that are still to be done, uses the same
hash, once the connection is tied to it. A connection that was dialed is tied from
the start. One that was accepted is not before its session has read the request; until
then nothing is written on it, and the other end writes no more than its request.

Beside the definitions this module has what the steps of a node preserve that do not
concern the session of the connection.
-/

namespace Peering

/-! ## Requests in bytes -/

/-- Whatever request these bytes begin with, it is made under an id with this hash. -/
def Names (bytes : Bytes) (peer : IdHash) : Prop :=
  ∀ limit frame rest request, FrameStream.front limit bytes = .frame frame rest →
    Handshake.Request.decode frame.payload = .ok request → request.id.hash = peer

theorem Names.of_append {bytes missing : Bytes} {peer : IdHash} (h : Names (bytes ++ missing) peer) :
    Names bytes peer :=
  fun limit frame rest request hfront =>
    h limit frame (rest ++ missing) request (FrameStream.front_append_frame hfront missing)

/-- The request of a node says who it is. -/
theorem names_request (profile : Handshake.Profile) :
    Names (Handshake.Templates.build profile).request.encode profile.id.hash := by
  intro limit frame rest request hfront hdecode
  obtain ⟨hwhole, _, hsize⟩ := FrameStream.front_eq_frame_iff.mp hfront
  let most := max frame.payload.length profile.request.encode.length
  have hfound : FrameStream.front most (Handshake.Templates.build profile).request.encode =
      .frame frame rest :=
    FrameStream.front_eq_frame_iff.mpr ⟨hwhole, Nat.le_max_left _ _, hsize⟩
  have hshort : profile.request.encode.length < UInt32.size :=
    Nat.lt_trans (Handshake.Request.length_encode_lt _) (by decide)
  have hrequest : FrameStream.front most (Handshake.Templates.build profile).request.encode =
      .frame (Handshake.Templates.build profile).request [] :=
    FrameStream.front_eq_frame_iff.mpr ⟨(List.append_nil _).symm, Nat.le_max_right _ _, hshort⟩
  cases hfound.symm.trans hrequest
  cases hdecode.symm.trans (Handshake.Request.decode_encode profile.request)
  rfl

namespace Endpoint

open Transport (Ships)

variable {endpoint after : Endpoint} {known : ConnId → Prop} {conn : ConnId} {peer own : IdHash}
  {got : Bytes}

/-! ## Connections -/

/-- All that is kept about a connection under a hash is kept under this one. -/
structure Tied (endpoint : Endpoint) (conn : ConnId) (peer : IdHash) : Prop where
  leads : ∀ other, endpoint.registry.Leads (.active other) conn → other = peer
  waits : ∀ session, endpoint.sessions.find? conn = some session →
    session.phase ≠ .awaitingRequest
  proposes : ∀ session, endpoint.sessions.find? conn = some session →
    ∀ other, Proposes session other → other = peer
  jobs : ∀ job ∈ endpoint.transport.outbox.jobs, job.conn = conn →
    ∀ other, job.message.dest = .active other → other = peer

theorem Tied.of_session (hleads : ∀ other, ¬endpoint.registry.Leads (.active other) conn)
    (hjobs : ∀ job ∈ endpoint.transport.outbox.jobs, job.conn = conn →
      ∀ other, job.message.dest ≠ .active other)
    (hsession : ∀ session, endpoint.sessions.find? conn = some session →
      session.phase ≠ .awaitingRequest ∧ ∀ other, Proposes session other → other = peer) :
    Tied endpoint conn peer where
  leads := fun other hother => absurd hother (hleads other)
  waits := fun session hfind => (hsession session hfind).1
  proposes := fun session hfind => (hsession session hfind).2
  jobs := fun job hjob hconn other hdest => absurd hdest (hjobs job hjob hconn other)

/-- The session of an accepted connection waits for a request, and has these bytes of it. -/
structure Quiet (endpoint : Endpoint) (conn : ConnId) (got : Bytes) : Prop where
  aside : endpoint.registry.Aside conn
  idle : ¬endpoint.transport.HasJob conn
  unread : endpoint.transport.unread conn = []
  session : ∃ session, endpoint.sessions.find? conn = some session ∧
    session.phase = .awaitingRequest ∧ session.stage = .reading ∧ session.dialed = none ∧
    session.buffer = got

/--
Nothing has arrived on a dialed connection. What the other end has got of it, what is on
the way and what is still to be written is the request of this node, or some of it is lost.
-/
structure Asking (endpoint : Endpoint) (conn : ConnId) (own : IdHash) (got : Bytes) : Prop where
  pending : ∀ peer, ¬endpoint.registry.Leads (.active peer) conn
  session : ∀ session, endpoint.sessions.find? conn = some session →
    session.stage = .reading ∧ session.buffer = []
  jobs : ∀ job ∈ endpoint.transport.outbox.jobs, job.conn = conn →
    job.message.dest = .outbound conn
  single : (endpoint.transport.outbox.freight conn).length ≤ 1
  names : ∃ lost, Names (got ++ endpoint.transport.unread conn ++
    (endpoint.transport.outbox.freight conn).flatten ++ lost) own

/-- All that is kept is kept about known connections, and messages name them as they should. -/
structure Tidy (known : ConnId → Prop) (own : IdHash) (endpoint : Endpoint) : Prop where
  keyed : endpoint.registry.Keyed
  leads : ∀ dest conn, endpoint.registry.Leads dest conn → known conn
  sessions : ∀ conn session, endpoint.sessions.find? conn = some session →
    session.conn = conn ∧ known conn
  jobs : ∀ job ∈ endpoint.transport.outbox.jobs, known job.conn ∧
    ∀ key, job.message.dest = .outbound key → job.conn = key
  cargo : ∀ dest bytes, (dest, bytes) ∈ endpoint.transport.outbox.cargo →
    (∃ peer, dest = .active peer) ∨ ∃ conn, dest = .outbound conn ∧ known conn
  sockets : ∀ conn, known conn → (endpoint.transport.socket? conn).isSome = true
  identity : endpoint.registry.self.id.hash = own
  request : Names endpoint.templates.request.encode own

theorem Tidy.congr (h : Tidy known own endpoint) {others : ConnId → Prop}
    (hothers : ∀ conn, others conn ↔ known conn) : Tidy others own endpoint := by
  obtain rfl : others = known := funext fun conn => propext (hothers conn)
  exact h

/-! ## Steps beside the session of a connection -/

/-- What a step does to a connection if the session of the connection takes no part in it. -/
structure Works (conn : ConnId) (endpoint after : Endpoint) : Prop where
  leads : ∀ dest, after.registry.Leads dest conn → endpoint.registry.Leads dest conn
  jobs : ∀ job ∈ after.transport.outbox.jobs, job.conn = conn →
    job ∈ endpoint.transport.outbox.jobs ∨ endpoint.registry.Leads job.message.dest conn ∧
      ∀ key, job.message.dest ≠ .inbound key
  idle : ¬endpoint.transport.HasJob conn →
    after.transport.unread conn = endpoint.transport.unread conn
  ships : (∀ job ∈ endpoint.transport.outbox.jobs,
      job.conn = conn ↔ job.message.dest = .outbound conn) →
    (endpoint.transport.outbox.freight conn).length ≤ 1 →
    Ships conn endpoint.transport after.transport
  session : ∃ ended : Session → Bool, after.sessions.find? conn =
    (endpoint.sessions.find? conn).map fun session => { session with ended := ended session }

theorem sessions_same (h : after.sessions.find? conn = endpoint.sessions.find? conn) :
    ∃ ended : Session → Bool, after.sessions.find? conn =
      (endpoint.sessions.find? conn).map fun session => { session with ended := ended session } := by
  refine ⟨Session.ended, h.trans ?_⟩
  cases endpoint.sessions.find? conn <;> rfl

namespace Works

theorem find? (h : Works conn endpoint after) {next : Session}
    (hnext : after.sessions.find? conn = some next) : ∃ session ended,
      endpoint.sessions.find? conn = some session ∧ next = { session with ended := ended } := by
  obtain ⟨ended, hsame⟩ := h.session
  obtain ⟨session, hsession, rfl⟩ := Option.map_eq_some_iff.mp (hsame.symm.trans hnext)
  exact ⟨session, ended session, hsession, rfl⟩

theorem tied (h : Works conn endpoint after) (htied : Tied endpoint conn peer) :
    Tied after conn peer where
  leads := fun other hleads => htied.leads other (h.leads _ hleads)
  waits := fun next hnext => by
    obtain ⟨session, ended, hsession, rfl⟩ := h.find? hnext
    exact htied.waits session hsession
  proposes := fun next hnext other hproposes => by
    obtain ⟨session, ended, hsession, rfl⟩ := h.find? hnext
    exact htied.proposes session hsession other hproposes
  jobs := fun job hjob hconn other hdest => by
    rcases h.jobs job hjob hconn with hold | ⟨hleads, _⟩
    · exact htied.jobs job hold hconn other hdest
    · exact htied.leads other (hdest ▸ hleads)

theorem quiet (h : Works conn endpoint after) (hquiet : Quiet endpoint conn got) :
    Quiet after conn got where
  aside := fun dest hleads => hquiet.aside dest (h.leads dest hleads)
  idle := by
    rintro ⟨job, hjob, hconn⟩
    rcases h.jobs job hjob hconn with hold | ⟨hleads, hdest⟩
    · exact hquiet.idle ⟨job, hold, hconn⟩
    · exact hdest conn (hquiet.aside _ hleads)
  unread := (h.idle hquiet.idle).trans hquiet.unread
  session := by
    obtain ⟨ended, hsame⟩ := h.session
    obtain ⟨session, hsession, hphase, hstage, hdialed, hbuffer⟩ := hquiet.session
    rw [hsession] at hsame
    exact ⟨_, hsame, hphase, hstage, hdialed, hbuffer⟩

theorem asking (h : Works conn endpoint after) (htidy : Tidy known own endpoint)
    (hasking : Asking endpoint conn peer got) : Asking after conn peer got := by
  have hbound : ∀ job ∈ endpoint.transport.outbox.jobs,
      job.conn = conn ↔ job.message.dest = .outbound conn := fun job hjob =>
    ⟨hasking.jobs job hjob, (htidy.jobs job hjob).2 conn⟩
  obtain ⟨hsingle, bytes, lost, hfreight, hunread⟩ := h.ships hbound hasking.single
  refine ⟨fun peer hleads => hasking.pending peer (h.leads _ hleads), fun next hnext => ?_,
    fun job hjob hconn => ?_, hsingle, ?_⟩
  · obtain ⟨session, ended, hsession, rfl⟩ := h.find? hnext
    exact hasking.session session hsession
  · rcases h.jobs job hjob hconn with hold | ⟨hleads, hdest⟩
    · exact hasking.jobs job hold hconn
    · cases hdest' : job.message.dest with
      | active peer => exact absurd (hdest' ▸ hleads) (hasking.pending peer)
      | inbound key => exact absurd hdest' (hdest key)
      | outbound key =>
          rw [hdest'] at hleads
          obtain ⟨pending, hmem, rfl⟩ := hleads
          rw [htidy.keyed.outbound_own key pending hmem]
  · obtain ⟨before, hnames⟩ := hasking.names
    refine ⟨lost ++ before, ?_⟩
    rw [hunread]
    rw [hfreight] at hnames
    simpa only [List.append_assoc] using hnames

end Works

/-- Where every connection stands aside from a step, the node stays tidy. -/
theorem Tidy.works (h : Tidy known own endpoint) (hworks : ∀ conn, Works conn endpoint after)
    (hkeyed : after.registry.Keyed)
    (hcargo : ∀ dest bytes, (dest, bytes) ∈ after.transport.outbox.cargo →
      (∃ all, (dest, all) ∈ endpoint.transport.outbox.cargo) ∨ ∃ peer, dest = .active peer)
    (hsockets : ∀ conn, (endpoint.transport.socket? conn).isSome = true →
      (after.transport.socket? conn).isSome = true)
    (hid : after.registry.self.id = endpoint.registry.self.id)
    (htemplates : after.templates = endpoint.templates) : Tidy known own after where
  keyed := hkeyed
  leads := fun dest conn hleads => h.leads dest conn ((hworks conn).leads dest hleads)
  sessions := fun conn next hnext => by
    obtain ⟨session, ended, hsession, rfl⟩ := (hworks conn).find? hnext
    exact h.sessions conn session hsession
  jobs := fun job hjob => by
    rcases (hworks job.conn).jobs job hjob rfl with hold | ⟨hleads, _⟩
    · exact h.jobs job hold
    · refine ⟨h.leads _ _ hleads, fun key hdest => ?_⟩
      rw [hdest] at hleads
      obtain ⟨pending, hmem, hconn⟩ := hleads
      exact hconn.symm.trans (h.keyed.outbound_own key pending hmem)
  cargo := fun dest bytes hmem => (hcargo dest bytes hmem).elim
    (fun ⟨all, hold⟩ => h.cargo dest all hold) Or.inl
  sockets := fun conn hknown => hsockets conn (h.sockets conn hknown)
  identity := hid ▸ h.identity
  request := htemplates ▸ h.request

/-! ## Messages that are handed in -/

/-- The queues are as they were, or a message has been handed in that is not for a connection. -/
def Queues (conn : ConnId) (endpoint after : Endpoint) : Prop :=
  after.transport.outbox = endpoint.transport.outbox ∨ ∃ message : Message,
    message.dest ≠ .outbound conn ∧
      after.transport.outbox = (endpoint.transport.outbox.send message).1

theorem Queues.jobs (h : Queues conn endpoint after) {job : Job} :
    job ∈ after.transport.outbox.jobs ↔ job ∈ endpoint.transport.outbox.jobs := by
  rcases h with hsame | ⟨message, _, hsent⟩
  · rw [hsame]
  · exact Transport.mem_jobs_congr (funext fun _ => hsent ▸ Outbox.work?_send message)

theorem Queues.freight (h : Queues conn endpoint after) :
    after.transport.outbox.freight conn = endpoint.transport.outbox.freight conn := by
  rcases h with hsame | ⟨message, hdest, hsent⟩
  · rw [hsame]
  · rw [hsent]
    exact Outbox.freight_send hdest

/-- A step beside a connection that writes nothing. -/
theorem Works.of_queues
    (hleads : ∀ dest, after.registry.Leads dest conn → endpoint.registry.Leads dest conn)
    (hqueues : Queues conn endpoint after)
    (hunread : after.transport.unread conn = endpoint.transport.unread conn)
    (hsession : after.sessions.find? conn = endpoint.sessions.find? conn) :
    Works conn endpoint after where
  leads := hleads
  jobs := fun job hjob _ => Or.inl (hqueues.jobs.mp hjob)
  idle := fun _ => hunread
  ships := fun _ hsingle => ⟨hqueues.freight ▸ hsingle, [], [], by simp [hqueues.freight],
    by simp [hunread]⟩
  session := sessions_same hsession

/-! ## Delivery -/

theorem works_act (h : Tidy known own endpoint) {action : Transport.Action}
    (hinternal : action.isInternal = true) (conn : ConnId) :
    Works conn endpoint (endpoint.onTransport (·.act action)) where
  leads := fun dest hleads => (Transport.registry_act h.keyed hinternal).2 dest conn hleads
  jobs := fun job hjob hconn => by
    refine (Transport.jobs_act hjob).imp id fun hwriter => ?_
    refine ⟨hconn ▸ Registry.leads_of_writerFor hwriter, fun key hdest => ?_⟩
    obtain ⟨bytes, hcargo⟩ := Outbox.mem_cargo_of_job hjob
    rcases Transport.cargo_act hinternal hcargo with ⟨all, hold⟩ | ⟨peer, hactive⟩
    · rcases h.cargo _ _ hold with ⟨peer, hactive⟩ | ⟨found, houtbound, _⟩
      · cases hactive.symm.trans hdest
      · cases houtbound.symm.trans hdest
    · cases hactive.symm.trans hdest
  idle := Transport.unread_act_of_idle hinternal
  ships := Transport.ships_act hinternal
  session := sessions_same rfl

theorem Tidy.act (h : Tidy known own endpoint) {action : Transport.Action}
    (hinternal : action.isInternal = true) :
    Tidy known own (endpoint.onTransport (·.act action)) := by
  refine h.works (works_act h hinternal) (Transport.registry_act h.keyed hinternal).1
    (fun dest bytes => Transport.cargo_act hinternal) (fun conn hsome => ?_)
    (Transport.id_act hinternal) rfl
  obtain ⟨socket, hsocket⟩ := Option.isSome_iff_exists.mp hsome
  obtain ⟨_, hafter, _⟩ := Transport.endures_act endpoint.transport conn action socket hsocket
  exact Option.isSome_iff_exists.mpr ⟨_, hafter⟩

/-! ## What else happens to a node -/

theorem works_tick (endpoint : Endpoint) (duration : Nat) (conn : ConnId) :
    Works conn endpoint { endpoint with
      clock := endpoint.clock + duration
      transport := { endpoint.transport with timer := endpoint.transport.timer + duration } } :=
  .of_queues (fun _ => id) (Or.inl rfl) rfl rfl

theorem works_endStream (endpoint : Endpoint) (ended conn : ConnId) :
    Works conn endpoint (endpoint.endStream ended) := by
  have hworks : Works conn endpoint endpoint := .of_queues (fun _ => id) (Or.inl rfl) rfl rfl
  refine { hworks with session := ?_ }
  have hfind := Table.find?_modify endpoint.sessions conn ended fun session =>
    { session with ended := true }
  by_cases hconn : conn = ended
  · exact ⟨fun _ => true, hfind.trans (if_pos hconn)⟩
  · exact sessions_same (hfind.trans (if_neg hconn))

/-- What every cancellation keeps is kept when all sessions are cancelled. -/
theorem cancelAll_induction {P : Registry → Prop} (endpoint : Endpoint) (hstart : P endpoint.registry)
    (hcancel : ∀ registry conn, P registry → P (registry.cancel conn)) :
    P endpoint.cancelAll.registry := by
  have hfold : ∀ (conns : List ConnId) (registry : Registry), P registry →
      P (conns.foldl Registry.cancel registry) := by
    intro conns
    induction conns with
    | nil => exact fun _ => id
    | cons conn rest ih => exact fun registry hstart => ih _ (hcancel registry conn hstart)
  exact hfold endpoint.sessions.keys endpoint.registry hstart

theorem cancelAll_shrinks (endpoint : Endpoint) :
    endpoint.registry.Shrinks endpoint.cancelAll.registry :=
  cancelAll_induction endpoint (.refl _) fun registry conn hshrinks =>
    hshrinks.trans (Registry.cancel_shrinks registry conn)

theorem cancelAll_self (endpoint : Endpoint) :
    endpoint.cancelAll.registry.self = endpoint.registry.self :=
  cancelAll_induction (P := fun registry => registry.self = endpoint.registry.self) endpoint rfl
    fun registry conn hself => (Registry.cancel_self registry conn).trans hself

theorem works_cancelAll (endpoint : Endpoint) (conn : ConnId) :
    Works conn endpoint endpoint.cancelAll where
  leads := fun dest => (cancelAll_shrinks endpoint).leads dest conn
  jobs := fun job (hjob : job ∈ endpoint.transport.stop.outbox.jobs) _ =>
    Or.inl (Transport.jobs_stop hjob)
  idle := fun _ => rfl
  ships := fun _ hsingle => Transport.ships_of_thins hsingle
    ((Outbox.thins_stop endpoint.transport.outbox).filter _) rfl
  session := sessions_same rfl

theorem Tidy.tick (h : Tidy known own endpoint) (duration : Nat) :
    Tidy known own { endpoint with
      clock := endpoint.clock + duration
      transport := { endpoint.transport with timer := endpoint.transport.timer + duration } } :=
  h.works (works_tick endpoint duration) h.keyed (fun _ _ hmem => Or.inl ⟨_, hmem⟩)
    (fun _ => id) rfl rfl

theorem Tidy.endStream (h : Tidy known own endpoint) (conn : ConnId) :
    Tidy known own (endpoint.endStream conn) :=
  h.works (works_endStream endpoint conn) h.keyed (fun _ _ hmem => Or.inl ⟨_, hmem⟩)
    (fun _ => id) rfl rfl

theorem Tidy.cancelAll (h : Tidy known own endpoint) : Tidy known own endpoint.cancelAll :=
  h.works (works_cancelAll endpoint) (h.keyed.shrink (cancelAll_shrinks endpoint))
    (fun _ _ hmem => Or.inl ⟨_, (Outbox.thins_stop endpoint.transport.outbox).mem hmem⟩)
    (fun _ => id) (congrArg Identity.id (cancelAll_self endpoint)) rfl

theorem works_adopt (endpoint other : Endpoint) (conn : ConnId) :
    Works conn endpoint (endpoint.adopt other) :=
  .of_queues (fun _ => id) (Or.inl rfl) rfl rfl

theorem Tidy.adopt (h : Tidy known own endpoint) (other : Endpoint) :
    Tidy known own (endpoint.adopt other) :=
  { h with }

theorem works_announce (endpoint : Endpoint) (port : UInt16) (versions : Handshake.VersionSet)
    (conn : ConnId) : Works conn endpoint (endpoint.announce port versions) :=
  .of_queues (fun _ => id) (Or.inl rfl) rfl rfl

/-- Frames that are built anew name the same node. -/
theorem Tidy.announce (h : Tidy known own endpoint) (port : UInt16)
    (versions : Handshake.VersionSet) : Tidy known own (endpoint.announce port versions) :=
  { h with request := h.identity ▸ names_request (profile endpoint.settings
      { endpoint.registry.self with port := port } versions) }

end Endpoint

end Peering
