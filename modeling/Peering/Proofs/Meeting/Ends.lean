import Peering.Proofs.Delivery.Endurance
import Peering.Proofs.Meeting.Cargo
import Peering.Proofs.Meeting.Scene
import Peering.Proofs.Registry.Places

/-!
# The ends of connections

What a node has of one connection: where it stands in the registry, its session,
and the bytes that are on their way out. A step of delivery moves bytes of one
end to its socket, or drops them because the connection is closed; it changes
nothing else about any end.
-/

namespace Peering

/-- One end of a connection, as its node has it. -/
structure End where
  place : Place
  session : Option Session
  /-- Bytes that have been written and not read. -/
  unread : Bytes
  /-- Bytes of a request that are still to be written. -/
  unsent : Bytes

/-- Bytes are written in order; those of a connection that is no dial any more may be dropped. -/
def End.Flows (before after : End) : Prop :=
  ∃ bytes rest lost, before.unsent = bytes ++ rest ++ lost ∧
    (lost = [] ∨ before.place ≠ .dialed) ∧
    after = { before with unread := before.unread ++ bytes, unsent := rest }

theorem End.Flows.refl (before : End) : before.Flows before :=
  ⟨[], before.unsent, [], by simp, Or.inl rfl, by simp⟩

theorem append_eq_nil {first second third : Bytes} (hnil : first ++ second ++ third = []) :
    first = [] ∧ second = [] ∧ third = [] := by
  obtain ⟨hfront, hthird⟩ := List.append_eq_nil_iff.mp hnil
  obtain ⟨hfirst, hsecond⟩ := List.append_eq_nil_iff.mp hfront
  exact ⟨hfirst, hsecond, hthird⟩

theorem End.Flows.eq_of_nil {before after : End} (h : before.Flows after) (hnil : before.unsent = []) :
    after = before := by
  obtain ⟨bytes, rest, lost, hunsent, _, rfl⟩ := h
  rw [hnil] at hunsent
  obtain ⟨rfl, rfl, _⟩ := append_eq_nil hunsent.symm
  cases before
  simp only at hnil
  simp [hnil]

namespace Endpoint

variable {endpoint after : Endpoint} {peer : IdHash} {conn other : ConnId} {index : Nat}

/-- The bytes of a cargo that are meant for a dialed connection. -/
def unsentTo (cargo : List (Destination × Bytes)) (conn : ConnId) : Bytes :=
  (cargo.filter fun load => load.1 = .outbound conn).flatMap (·.2)

theorem unsentTo_single (dest : Destination) (bytes : Bytes) (conn : ConnId) :
    unsentTo [(dest, bytes)] conn = if dest = .outbound conn then bytes else [] := by
  by_cases hdest : dest = .outbound conn
  · simp [unsentTo, hdest]
  · simp [unsentTo, hdest]

def endOf (endpoint : Endpoint) (conn : ConnId) : End where
  place := endpoint.registry.placeOf conn
  session := endpoint.sessions.find? conn
  unread := endpoint.transport.unread conn
  unsent := unsentTo endpoint.transport.outbox.cargo conn

/-- What stays the same about a node while it runs. -/
structure IsSame (endpoint after : Endpoint) : Prop where
  settings : after.settings = endpoint.settings
  handlers : after.handlers = endpoint.handlers
  templates : after.templates = endpoint.templates
  self : after.registry.self = endpoint.registry.self
  limits : after.registry.limits = endpoint.registry.limits
  outboxLimits : after.transport.outbox.limits = endpoint.transport.outbox.limits

/-- What a node that meets only one other node keeps. -/
structure Steady (peer : IdHash) (endpoint : Endpoint) : Prop where
  deals : endpoint.registry.DealsWith peer
  light : endpoint.transport.outbox.IsLight
  cargo_known : ∀ conn bytes, (.outbound conn, bytes) ∈ endpoint.transport.outbox.cargo →
    endpoint.registry.Knows conn
  opened : ∀ conn, endpoint.registry.Knows conn → (endpoint.transport.socket? conn).isSome = true
  closer : ∀ conn socket, endpoint.transport.socket? conn = some socket →
    .closer ∈ socket.lock ∨ socket.shut = true → endpoint.registry.isClosed conn = true
  unhung : ∀ conn socket, endpoint.transport.socket? conn = some socket → socket.hungUp = false
  session : ∀ conn session, endpoint.sessions.find? conn = some session →
    session.conn = conn ∧ endpoint.registry.Knows conn
  going : endpoint.stopping = false

/-- A socket that fails has been shut, so its connection is closed. -/
theorem Steady.closed_of_broken (h : Steady peer endpoint) {socket : Socket}
    (hsocket : endpoint.transport.socket? conn = some socket) (hbroken : socket.isBroken = true) :
    endpoint.registry.isClosed conn = true := by
  rw [Socket.isBroken, h.unhung conn socket hsocket, Bool.false_or] at hbroken
  exact h.closer conn socket hsocket (Or.inr hbroken)

/-! ## Sockets -/

/-- A change of a socket that neither hangs it up nor shuts it, now or later. -/
def KeepsOpen (before after : Socket) : Prop :=
  after.hungUp = before.hungUp ∧
    (.closer ∈ after.lock ∨ after.shut = true → .closer ∈ before.lock ∨ before.shut = true)

theorem keepsOpen_ask (socket : Socket) {holder : Holder} (hholder : holder ≠ .closer) :
    KeepsOpen socket (socket.ask holder) := by
  have hother : (socket.ask holder).hungUp = socket.hungUp ∧
      (socket.ask holder).shut = socket.shut := by
    unfold Socket.ask
    split
    · exact ⟨rfl, rfl⟩
    · exact ⟨rfl, rfl⟩
  refine ⟨hother.1, ?_⟩
  rw [hother.2, Socket.mem_ask]
  intro h
  rcases h with (hlock | hcloser) | hshut
  · exact Or.inl hlock
  · exact absurd hcloser.symm hholder
  · exact Or.inr hshut

theorem keepsOpen_release (socket : Socket) (holder : Holder) :
    KeepsOpen socket (socket.release holder) := by
  refine ⟨rfl, ?_⟩
  rw [Socket.mem_release]
  exact Or.imp And.left id

/-- No socket comes or goes, and none is shut while its connection is open. -/
def KeepsSockets (closed : ConnId → Prop) (before after : Transport) : Prop :=
  ∀ conn, (∀ socket, after.socket? conn = some socket → ∃ old, before.socket? conn = some old ∧
      (KeepsOpen old socket ∨ socket.hungUp = old.hungUp ∧ closed conn)) ∧
    ((before.socket? conn).isSome = true → (after.socket? conn).isSome = true)

theorem KeepsSockets.of_same {closed : ConnId → Prop} {before after : Transport}
    (hsockets : ∀ conn, after.socket? conn = before.socket? conn) :
    KeepsSockets closed before after := by
  intro conn
  rw [hsockets]
  exact ⟨fun socket hsocket => ⟨socket, hsocket, Or.inl ⟨rfl, id⟩⟩, id⟩

theorem KeepsSockets.of_change {closed : ConnId → Prop} {before after : Transport} (changed : ConnId)
    (change : Socket → Socket)
    (hafter : ∀ conn, after.socket? conn =
      if conn = changed then (before.socket? conn).map change else before.socket? conn)
    (hchange : ∀ socket, before.socket? changed = some socket →
      KeepsOpen socket (change socket) ∨ (change socket).hungUp = socket.hungUp ∧ closed changed) :
    KeepsSockets closed before after := by
  intro conn
  rw [hafter]
  split
  · rename_i hconn
    subst hconn
    refine ⟨?_, by simp⟩
    intro socket hsocket
    obtain ⟨old, hold, rfl⟩ := Option.map_eq_some_iff.mp hsocket
    exact ⟨old, hold, hchange old hold⟩
  · exact ⟨fun socket hsocket => ⟨socket, hsocket, Or.inl ⟨rfl, id⟩⟩, id⟩

theorem unread_of_change {before after : Transport} {changed : ConnId} {change : Socket → Socket}
    (hafter : ∀ conn, after.socket? conn =
      if conn = changed then (before.socket? conn).map change else before.socket? conn)
    (hchange : ∀ socket, (change socket).unread = socket.unread) (conn : ConnId) :
    after.unread conn = before.unread conn := by
  refine (Transport.unread_congr ?_).trans (Transport.unread_onSocket before changed hchange)
  rw [hafter, Transport.socket?_onSocket]

theorem Steady.of_transport (h : Steady peer endpoint) {transport : Transport}
    (hregistry : transport.registry = endpoint.transport.registry)
    (hlight : transport.outbox.IsLight)
    (hcargo : ∀ conn bytes, (.outbound conn, bytes) ∈ transport.outbox.cargo →
      ∃ old, (.outbound conn, old) ∈ endpoint.transport.outbox.cargo)
    (hsockets : KeepsSockets (endpoint.registry.isClosed · = true) endpoint.transport transport) :
    Steady peer { endpoint with transport := transport } := by
  have hsame : { endpoint with transport := transport }.registry = endpoint.registry := hregistry
  refine ⟨?_, hlight, ?_, ?_, ?_, ?_, ?_, h.going⟩
  · rw [hsame]
    exact h.deals
  · intro conn bytes hmem
    obtain ⟨old, hold⟩ := hcargo conn bytes hmem
    rw [hsame]
    exact h.cargo_known conn old hold
  · intro conn hknown
    rw [hsame] at hknown
    exact (hsockets conn).2 (h.opened conn hknown)
  · intro conn socket hsocket hcloser
    obtain ⟨old, hold, hopen | ⟨_, hclosed⟩⟩ := (hsockets conn).1 socket hsocket
    · rw [hsame]
      exact h.closer conn old hold (hopen.2 hcloser)
    · rw [hsame]
      exact hclosed
  · intro conn socket hsocket
    obtain ⟨old, hold, hopen⟩ := (hsockets conn).1 socket hsocket
    have hsame : socket.hungUp = old.hungUp := hopen.elim And.left And.left
    exact hsame.trans (h.unhung conn old hold)
  · intro conn session hsession
    rw [hsame]
    exact h.session conn session hsession

/-! ## Delivery -/

/-- What a step of delivery does to a node: it moves bytes, and no end changes otherwise. -/
structure Carries (peer : IdHash) (endpoint after : Endpoint) : Prop where
  steady : after.Steady peer
  same : endpoint.IsSame after
  flows : ∀ conn, (endpoint.endOf conn).Flows (after.endOf conn)

theorem Carries.refl (h : Steady peer endpoint) : Carries peer endpoint endpoint :=
  ⟨h, ⟨rfl, rfl, rfl, rfl, rfl, rfl⟩, fun _ => End.Flows.refl _⟩

theorem IsSame.of_transport {transport : Transport}
    (hregistry : transport.registry = endpoint.transport.registry)
    (hlimits : transport.outbox.limits = endpoint.transport.outbox.limits) :
    endpoint.IsSame { endpoint with transport := transport } :=
  ⟨rfl, rfl, rfl, congrArg Registry.self hregistry, congrArg Registry.limits hregistry, hlimits⟩

/-- An outbox that carries bytes for one connection has none for another. -/
theorem unsent_of_ne {bytes : Bytes} (hcargo : endpoint.transport.outbox.cargo =
    [(.outbound conn, bytes)]) (hother : other ≠ conn) : (endpoint.endOf other).unsent = [] := by
  have hdest : Destination.outbound conn ≠ .outbound other := by simpa using Ne.symm hother
  rw [endOf, hcargo, unsentTo_single, if_neg hdest]

theorem endOf_onTransport {transport : Transport}
    (hregistry : transport.registry = endpoint.transport.registry)
    (hunread : transport.unread conn = endpoint.transport.unread conn)
    (hcargo : transport.outbox.cargo = endpoint.transport.outbox.cargo) :
    { endpoint with transport := transport }.endOf conn = endpoint.endOf conn := by
  simp only [endOf, registry, hregistry, hunread, hcargo]

theorem Carries.of_still (h : Steady peer endpoint) {transport : Transport}
    (hregistry : transport.registry = endpoint.transport.registry)
    (hlight : transport.outbox.IsLight)
    (hlimits : transport.outbox.limits = endpoint.transport.outbox.limits)
    (hcargo : transport.outbox.cargo = endpoint.transport.outbox.cargo)
    (hunread : ∀ conn, transport.unread conn = endpoint.transport.unread conn)
    (hsockets : KeepsSockets (endpoint.registry.isClosed · = true) endpoint.transport transport) :
    Carries peer endpoint { endpoint with transport := transport } where
  steady := h.of_transport hregistry hlight (fun _ bytes hmem => ⟨bytes, hcargo ▸ hmem⟩) hsockets
  same := IsSame.of_transport hregistry hlimits
  flows := fun conn => by
    rw [endOf_onTransport hregistry (hunread conn) hcargo]
    exact End.Flows.refl _

/-- What is on its way to a connection that is no dial any more can be dropped. -/
theorem Carries.of_lost (h : Steady peer endpoint) {transport : Transport} {bytes : Bytes}
    (hregistry : transport.registry = endpoint.transport.registry)
    (hlight : transport.outbox.IsLight)
    (hlimits : transport.outbox.limits = endpoint.transport.outbox.limits)
    (hwas : endpoint.transport.outbox.cargo = [(.outbound conn, bytes)])
    (hgone : transport.outbox.cargo = [])
    (hlost : (endpoint.endOf conn).place ≠ .dialed)
    (hunread : ∀ conn, transport.unread conn = endpoint.transport.unread conn)
    (hsockets : KeepsSockets (endpoint.registry.isClosed · = true) endpoint.transport transport) :
    Carries peer endpoint { endpoint with transport := transport } where
  steady := by
    refine h.of_transport hregistry hlight ?_ hsockets
    intro other left hmem
    rw [hgone] at hmem
    cases hmem
  same := IsSame.of_transport hregistry hlimits
  flows := by
    intro other
    refine ⟨[], [], (endpoint.endOf other).unsent, by simp, ?_, ?_⟩
    · by_cases hother : other = conn
      · rw [hother]
        exact Or.inr hlost
      · exact Or.inl (unsent_of_ne hwas hother)
    · simp only [endOf, registry, hregistry, hunread, hgone, List.append_nil]
      rfl

/-- Time goes by. -/
theorem Steady.tick (h : Steady peer endpoint) (duration : Nat) :
    Carries peer endpoint { endpoint with
      clock := endpoint.clock + duration
      transport := { endpoint.transport with timer := endpoint.transport.timer + duration } } where
  steady := { h with }
  same := ⟨rfl, rfl, rfl, rfl, rfl, rfl⟩
  flows := fun _ => End.Flows.refl _

theorem Steady.distribute (h : Steady peer endpoint) :
    Carries peer endpoint (endpoint.onTransport (·.distribute)) := by
  obtain ⟨hlight, hcargo⟩ := Outbox.distribute_light h.light
  exact Carries.of_still h rfl hlight endpoint.transport.outbox.limits_distribute hcargo
    (fun _ => rfl) (KeepsSockets.of_same fun _ => rfl)

/-- A dial that is held is found by its destination. -/
theorem Steady.not_dialed_of_none (h : Steady peer endpoint)
    (hnone : endpoint.registry.writerFor (.outbound conn) = none) :
    (endpoint.endOf conn).place ≠ .dialed := by
  intro hplace
  obtain ⟨pending, hone, _⟩ := h.deals.dialed_entry (congrArg Place.isDialed hplace)
  have hmem : (conn, pending) ∈ endpoint.registry.outbound := by simp [hone]
  have hentry := (h.deals.coherent.outbound_entry conn pending hmem).1
  have hopen : endpoint.registry.isClosed conn = false := congrArg Place.isClosed hplace
  simp [Registry.writerFor, hone, Table.find?, hentry, hopen] at hnone

theorem Steady.resolve (h : Steady peer endpoint) (hfresh : endpoint.isStale index = false) :
    Carries peer endpoint
      (endpoint.onTransport (·.resolve (Int.ofNat endpoint.clock) index)) := by
  obtain ⟨hregistry, hsockets, _, _⟩ :=
    endpoint.transport.resolve_cases (Int.ofNat endpoint.clock) index
  have hlimits := endpoint.transport.limits_resolve (Int.ofNat endpoint.clock) index
  have hkept : KeepsSockets (endpoint.registry.isClosed · = true) endpoint.transport
      (endpoint.transport.resolve (Int.ofNat endpoint.clock) index) :=
    KeepsSockets.of_same fun conn => by simp only [Transport.socket?, hsockets]
  have hunread : ∀ conn, (endpoint.transport.resolve (Int.ofNat endpoint.clock) index).unread conn =
      endpoint.transport.unread conn := by
    intro conn
    simp only [Transport.unread, Transport.socket?, hsockets]
  have hyoung : ∀ lane, endpoint.transport.outbox.lane? index = some lane →
      ∀ message, lane.queue.head? = some message →
        message.isStale (Int.ofNat endpoint.clock) endpoint.transport.outbox.limits.writeTimeout =
          false := by
    intro lane hlane message hhead
    simpa [isStale, hlane, hhead] using hfresh
  obtain ⟨hlight, hcargo | ⟨conn, bytes, hwas, hnone, hgone⟩⟩ :=
    Transport.resolve_light h.light h.deals.coherent hyoung
  · exact Carries.of_still h hregistry hlight hlimits hcargo hunread hkept
  · exact Carries.of_lost h hregistry hlight hlimits hwas hgone (h.not_dialed_of_none hnone) hunread
      hkept

theorem Steady.take (h : Steady peer endpoint) (index : Nat) :
    Carries peer endpoint (endpoint.onTransport (·.take index)) := by
  obtain ⟨hlight, hcargo⟩ :
      (endpoint.transport.take index).outbox.IsLight ∧ _ := Transport.take_light h.light
  have hlimits := endpoint.transport.limits_take index
  rcases endpoint.transport.take_cases index with hsame | ⟨job, rest, hwork⟩
  · rw [onTransport, hsame]
    exact Carries.refl h
  · obtain ⟨hregistry, _, hsockets, _⟩ := Transport.take_idle hwork
    refine Carries.of_still h hregistry hlight hlimits hcargo ?_ ?_
    · exact unread_of_change hsockets fun _ => Socket.ask_unread
    · apply KeepsSockets.of_change job.conn _ hsockets
      intro socket hsocket
      exact Or.inl (keepsOpen_ask socket (by simp))

/-- A writer whose socket fails gives up its job, and the connection is closed already. -/
theorem Steady.failJob (h : Steady peer endpoint) {job : Job} {left : Bytes} {deadline : Nat}
    {backlog : List Job} {socket : Socket}
    (hwork : endpoint.transport.outbox.work? index = some (.busy job left deadline, backlog))
    (hsocket : endpoint.transport.socket? job.conn = some socket) (hbroken : socket.isBroken = true) :
    Carries peer endpoint (endpoint.onTransport (·.failJob index job)) := by
  have hplace : endpoint.registry.placeOf job.conn = .closed :=
    h.deals.closed_place (h.closed_of_broken hsocket hbroken)
  obtain ⟨hregistry, _, hsockets, _⟩ := Transport.failJob_busy hwork
  obtain ⟨hlight, hwas, hgone⟩ := Transport.failJob_light h.light hwork
  have hkeeps := hregistry.trans (Registry.removeConn_of_closed hplace)
  have hlimits : (endpoint.transport.failJob index job).outbox.limits =
      endpoint.transport.outbox.limits := Transport.limits_finishJob _ _ _ _
  have hlost : (endpoint.endOf job.conn).place ≠ .dialed := by
    intro hdialed
    cases hplace.symm.trans hdialed
  apply Carries.of_lost h hkeeps hlight hlimits hwas hgone hlost
  · exact fun conn => Transport.unread_failJob hwork
  · exact KeepsSockets.of_change job.conn _ hsockets
      fun socket _ => Or.inl (keepsOpen_release socket _)

/-- A writer puts the first bytes that its job has left, and goes on with the others. -/
theorem Steady.write_job (h : Steady peer endpoint) {job : Job} {left bytes : Bytes}
    (hwritable : endpoint.transport.writable? index = some (job, left, bytes)) :
    Carries peer endpoint (endpoint.onTransport (·.write index)) := by
  obtain ⟨hlight, hwas, rest, hleft, hcargo⟩ := Transport.write_light h.light hwritable
  obtain ⟨deadline, backlog, socket, hwork, hsocket, hhead, hopen, _, hregistry, _, rest', hleft',
    hsockets, _⟩ := Transport.write_some hwritable
  obtain rfl : rest' = rest := List.append_cancel_left (hleft'.symm.trans hleft)
  have hput : KeepsSockets (endpoint.registry.isClosed · = true) endpoint.transport
      (endpoint.transport.write index) := by
    refine KeepsSockets.of_change job.conn (fun old =>
      if rest' = [] then { old with unread := socket.unread ++ bytes }.release (.lane index)
      else { old with unread := socket.unread ++ bytes }) ?_ ?_
    · intro conn
      rw [hsockets]
      split
      · rename_i hconn
        rw [hconn, hsocket, Option.map_some]
      · rfl
    · intro old hold
      left
      split
      · exact keepsOpen_release { old with unread := socket.unread ++ bytes } _
      · exact ⟨rfl, id⟩
  have hunread : ∀ conn, (endpoint.transport.write index).unread conn =
      if conn = job.conn then endpoint.transport.unread conn ++ bytes
      else endpoint.transport.unread conn := by
    intro conn
    simp only [Transport.unread, hsockets]
    split
    · rename_i hconn
      rw [hconn, hsocket]
      split <;> rfl
    · rfl
  have hrest : ∀ conn, unsentTo (endpoint.transport.write index).outbox.cargo conn =
      if conn = job.conn then rest' else [] := by
    intro conn
    rw [hcargo]
    by_cases hnil : rest' = []
    · simp [hnil, unsentTo]
    · simp [hnil, unsentTo_single, eq_comm]
  refine ⟨h.of_transport hregistry hlight ?_ hput,
    IsSame.of_transport hregistry (endpoint.transport.limits_write index), ?_⟩
  · intro conn found hmem
    rw [hcargo] at hmem
    split at hmem
    · cases hmem
    · cases List.mem_singleton.mp hmem
      exact ⟨left, by rw [hwas]; exact List.mem_singleton.mpr rfl⟩
  · intro conn
    by_cases hconn : conn = job.conn
    · subst hconn
      refine ⟨bytes, rest', [], ?_, Or.inl rfl, ?_⟩
      · rw [endOf, hwas, unsentTo_single, if_pos rfl, List.append_nil]
        exact hleft
      · simp only [endOf, onTransport, registry, hregistry, hunread, hrest, if_true]
    · refine ⟨[], [], [], unsent_of_ne hwas hconn, Or.inl rfl, ?_⟩
      simp only [endOf, onTransport, registry, hregistry, hunread, hrest, if_neg hconn,
        List.append_nil]

/-- A writer puts bytes of its job, or gives up a job whose connection is closed. -/
theorem Steady.write (h : Steady peer endpoint) (index : Nat) :
    Carries peer endpoint (endpoint.onTransport (·.write index)) := by
  cases hwritable : endpoint.transport.writable? index with
  | none =>
      rcases Transport.write_none hwritable with hsame |
        ⟨job, left, deadline, backlog, socket, hwork, hsocket, hbroken, hfail⟩
      · rw [onTransport, hsame]
        exact Carries.refl h
      · rw [onTransport, hfail]
        exact h.failJob hwork hsocket hbroken
  | some writing =>
      obtain ⟨job, left, bytes⟩ := writing
      exact h.write_job hwritable

/-- The closing task of a connection asks for the lock. -/
theorem Steady.askShut (h : Steady peer endpoint) (conn : ConnId) :
    Carries peer endpoint (endpoint.onTransport (·.askShut conn)) := by
  by_cases hawaits : endpoint.transport.awaitsShut conn = true
  · have hclosed : endpoint.registry.isClosed conn = true := by
      obtain ⟨hteardown, _⟩ := Bool.and_eq_true_iff.mp hawaits
      exact h.deals.teardown conn (List.contains_iff_mem.mp hteardown)
    rw [onTransport, Transport.askShut, if_pos hawaits]
    have hsockets := fun other =>
      Transport.socket?_onSocket endpoint.transport other conn (·.ask .closer)
    refine Carries.of_still h rfl h.light rfl rfl ?_ ?_
    · exact unread_of_change hsockets fun _ => Socket.ask_unread
    · apply KeepsSockets.of_change conn _ hsockets
      intro socket _
      refine Or.inr ⟨?_, hclosed⟩
      unfold Socket.ask
      split <;> rfl
  · rw [onTransport, Transport.askShut, if_neg hawaits]
    exact Carries.refl h

/-- The closing task shuts the write half of a connection that is closed. -/
theorem Steady.shut (h : Steady peer endpoint) (conn : ConnId) :
    Carries peer endpoint (endpoint.onTransport (·.shut conn)) := by
  cases hsocket : endpoint.transport.socket? conn with
  | none =>
      rw [onTransport, Transport.shut, hsocket]
      exact Carries.refl h
  | some socket =>
      by_cases hheld : socket.isHeldBy .closer = true
      · have hmem : .closer ∈ socket.lock := List.mem_of_head? (Socket.isHeldBy_iff.mp hheld)
        have hclosed := h.closer conn socket hsocket (Or.inl hmem)
        have hsockets := fun other => Transport.socket?_onSocket endpoint.transport other conn
          fun socket => socket.shutWrite.release .closer
        have hshut : endpoint.transport.shut conn = endpoint.transport.onSocket conn
            fun socket => socket.shutWrite.release .closer := by
          simp only [Transport.shut, hsocket, hheld, if_true]
        rw [onTransport, hshut]
        refine Carries.of_still h rfl h.light rfl rfl ?_ ?_
        · exact unread_of_change hsockets fun _ => rfl
        · exact KeepsSockets.of_change conn _ hsockets fun _ _ => Or.inr ⟨rfl, hclosed⟩
      · have hsame : endpoint.transport.shut conn = endpoint.transport := by
          simp [Transport.shut, hsocket, hheld]
        rw [onTransport, hsame]
        exact Carries.refl h

end Endpoint

end Peering
