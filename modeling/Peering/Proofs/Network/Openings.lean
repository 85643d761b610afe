import Peering.Proofs.Network.Ties

/-!
# New connections

A connection is opened under a handle that the node does not know yet, so nothing that
is kept can be about it. If it was dialed, it is tied to the node that was dialed; if it
was accepted, its session waits for a request.
-/

namespace Peering

namespace Endpoint

open Registry (Keyed Narrows)

variable {endpoint after : Endpoint} {known : ConnId → Prop} {dest : Destination} {own : IdHash}
  {node : Node} {ip : IpAddress} {capacity : Nat}

/-- A socket has been opened under the next handle, and only this destination leads to it. -/
structure Opening (endpoint : Endpoint) (dest : Destination) (after : Endpoint) : Prop where
  keyed : after.registry.Keyed
  leads : ∀ other conn, after.registry.Leads other conn →
    endpoint.registry.Leads other conn ∨ other = dest ∧ conn = endpoint.registry.nextConn
  self : after.registry.self = endpoint.registry.self
  outbox : after.transport.outbox = endpoint.transport.outbox ∨
    dest = .outbound endpoint.registry.nextConn ∧ ∃ time, after.transport.outbox =
      (endpoint.transport.outbox.send ⟨dest, endpoint.templates.request, time⟩).1
  socket : ∃ capacity, after.transport.socket? endpoint.registry.nextConn =
    some (Socket.create capacity)
  sockets : ∀ conn, conn ≠ endpoint.registry.nextConn →
    after.transport.socket? conn = endpoint.transport.socket? conn
  sessions : ∀ conn, conn ≠ endpoint.registry.nextConn →
    after.sessions.find? conn = endpoint.sessions.find? conn
  templates : after.templates = endpoint.templates

/-- A handle that the node does not know has no part in anything. -/
theorem Tidy.unknown (h : Tidy known own endpoint) (hfree : endpoint.hasHandle = true) :
    ¬known endpoint.registry.nextConn := by
  intro hknown
  have hsome := h.sockets _ hknown
  rw [Option.isNone_iff_eq_none.mp hfree] at hsome
  cases hsome

/-- The registry with which a new connection is offered. -/
def offered (endpoint : Endpoint) : Registry :=
  let (conn, registry) := endpoint.registry.takeConn
  if endpoint.stopping then registry.cancel conn else registry

theorem offered_shrinks (endpoint : Endpoint) :
    endpoint.registry.takeConn.2.Shrinks endpoint.offered := by
  unfold offered
  dsimp only
  split
  · exact Registry.cancel_shrinks _ _
  · exact .refl _

theorem offered_self (endpoint : Endpoint) : endpoint.offered.self = endpoint.registry.self := by
  unfold offered
  dsimp only
  split
  · exact Registry.cancel_self _ _
  · rfl

theorem offered_narrows (endpoint : Endpoint) : endpoint.registry.Narrows endpoint.offered :=
  Narrows.trans (Registry.narrows_of_same rfl rfl rfl) (offered_shrinks endpoint).leads

/-- A move that offers the next connection keeps the entries in order. -/
theorem Tidy.offer (h : Tidy known own endpoint) (hunknown : ¬known endpoint.registry.nextConn)
    (move : Registry.Move) (hoffer : move.offer? = some endpoint.registry.nextConn) :
    (endpoint.offered.perform move).Keyed := by
  have htaken : endpoint.registry.takeConn.2.Keyed := { h.keyed with }
  have hkeyed := htaken.shrink (offered_shrinks endpoint)
  obtain ⟨_, hsettles⟩ := hkeyed.perform_settles move fun found hfound hmem => by
    obtain rfl := Option.some.inj (hoffer.symm.trans hfound)
    obtain ⟨dest, hleads⟩ := Registry.mem_handles_iff_leads.mp hmem
    exact hunknown (h.leads dest _ (offered_narrows endpoint dest _ hleads))
  exact hsettles.keyed

/-- What accepting and dialing have in common before the session is added. -/
theorem opening_of_promoted (endpoint : Endpoint) (capacity : Nat) {registry : Registry} (hkeyed : registry.Keyed)
    (hleads : ∀ other conn, registry.Leads other conn →
      endpoint.offered.Leads other conn ∨ other = dest ∧ conn = endpoint.registry.nextConn)
    (hself : registry.self = endpoint.offered.self) :
    Opening endpoint dest
      ((endpoint.openConn (Socket.create capacity)).1.setRegistry registry) where
  keyed := hkeyed
  leads := fun other conn hother => (hleads other conn hother).imp_left
    (offered_narrows endpoint other conn)
  self := hself.trans (offered_self endpoint)
  outbox := Or.inl rfl
  socket := ⟨capacity, (Transport.socket?_addSocket _ _ _ _).trans (if_pos rfl)⟩
  sockets := fun _ hconn => (Transport.socket?_addSocket _ _ _ _).trans (if_neg hconn)
  sessions := fun _ _ => rfl
  templates := rfl

theorem Opening.addSession (h : Opening endpoint dest after) (session : Session)
    (hconn : session.conn = endpoint.registry.nextConn) :
    Opening endpoint dest (after.addSession session) :=
  { h with sessions := fun conn hother =>
      (Table.find?_insert _ _ _ _).trans ((if_neg (hconn ▸ hother)).trans (h.sessions conn hother)) }

theorem Tidy.find?_next (h : Tidy known own endpoint)
    (hunknown : ¬known endpoint.registry.nextConn) :
    endpoint.sessions.find? endpoint.registry.nextConn = none := by
  cases hfind : endpoint.sessions.find? endpoint.registry.nextConn with
  | none => rfl
  | some session => exact absurd (h.sessions _ session hfind).2 hunknown

theorem Tidy.acceptSocket (h : Tidy known own endpoint)
    (hunknown : ¬known endpoint.registry.nextConn) (ip : IpAddress) (capacity : Nat) :
    Opening endpoint (.inbound endpoint.registry.nextConn)
        (endpoint.acceptSocket ip (Socket.create capacity)).1 ∧
      ∀ session, (endpoint.acceptSocket ip (Socket.create capacity)).1.sessions.find?
        endpoint.registry.nextConn = some session → ∃ openedAt deadline,
          session = Session.accepted endpoint.registry.nextConn ip openedAt deadline := by
  have hopening := opening_of_promoted endpoint capacity
    (h.offer hunknown (.promoteToInbound endpoint.clock endpoint.registry.nextConn) rfl)
    (fun other conn hleads => Registry.promoteToInbound_leads hleads)
    (Registry.promoteToInbound_self _ _ _)
  unfold Endpoint.acceptSocket
  dsimp only
  split
  · refine ⟨hopening, fun session hfind => ?_⟩
    cases (h.find?_next hunknown).symm.trans hfind
  · refine ⟨hopening.addSession _ rfl, fun session hfind => ?_⟩
    cases ((Table.find?_insert _ _ _ _).trans (if_pos rfl)).symm.trans hfind
    exact ⟨_, _, rfl⟩

theorem Tidy.dialedSocket (h : Tidy known own endpoint)
    (hunknown : ¬known endpoint.registry.nextConn) (node : Node) (capacity : Nat) :
    Opening endpoint (.outbound endpoint.registry.nextConn)
        (endpoint.dialedSocket node (Socket.create capacity)).1 ∧
      ∀ session, (endpoint.dialedSocket node (Socket.create capacity)).1.sessions.find?
        endpoint.registry.nextConn = some session → ∃ openedAt deadline,
          session = Session.dialing endpoint.registry.nextConn node openedAt deadline := by
  have hopening := opening_of_promoted endpoint capacity
    (h.offer hunknown
      (.promoteToOutbound endpoint.clock node endpoint.registry.nextConn) rfl)
    (fun other conn hleads => Registry.promoteToOutbound_leads hleads)
    (Registry.promoteToOutbound_self _ _ _ _)
  unfold Endpoint.dialedSocket
  dsimp only
  split
  · refine ⟨hopening, fun session hfind => ?_⟩
    cases (h.find?_next hunknown).symm.trans hfind
  · have hdialing := hopening.addSession (Session.dialing endpoint.registry.nextConn node
      endpoint.clock (endpoint.timer + endpoint.settings.readTimeout)) rfl
    refine ⟨{ hdialing with outbox := Or.inr ⟨rfl, _, rfl⟩ }, fun session hfind => ?_⟩
    cases ((Table.find?_insert _ _ _ _).trans (if_pos rfl)).symm.trans hfind
    exact ⟨_, _, rfl⟩

/-! ## What an opening does to connections -/

namespace Opening

/-- The other connections are left alone. -/
theorem works (h : Opening endpoint dest after) {conn : ConnId}
    (hconn : conn ≠ endpoint.registry.nextConn) : Works conn endpoint after := by
  refine .of_queues (fun other hleads => ?_) ?_ (Transport.unread_congr (h.sockets conn hconn))
    (h.sessions conn hconn)
  · exact (h.leads other conn hleads).resolve_right fun hnew => hconn hnew.2
  · refine h.outbox.imp id ?_
    rintro ⟨rfl, time, hsent⟩
    exact ⟨_, fun hsame => hconn (Destination.outbound.inj hsame).symm, hsent⟩

theorem jobs (h : Opening endpoint dest after) {job : Job} :
    job ∈ after.transport.outbox.jobs ↔ job ∈ endpoint.transport.outbox.jobs := by
  rcases h.outbox with hsame | ⟨_, _, hsent⟩
  · rw [hsame]
  · exact Transport.mem_jobs_congr (funext fun _ => hsent ▸ Outbox.work?_send _)

theorem tidy (h : Opening endpoint dest after) (htidy : Tidy known own endpoint)
    (hsession : ∀ session, after.sessions.find? endpoint.registry.nextConn = some session →
      session.conn = endpoint.registry.nextConn) :
    Tidy (fun conn => known conn ∨ conn = endpoint.registry.nextConn) own after where
  keyed := h.keyed
  leads := fun other conn hleads =>
    (h.leads other conn hleads).imp (htidy.leads other conn) And.right
  sessions := fun conn session hfind => by
    by_cases hconn : conn = endpoint.registry.nextConn
    · subst hconn
      exact ⟨hsession session hfind, Or.inr rfl⟩
    · obtain ⟨hown, hknown⟩ := htidy.sessions conn session (h.sessions conn hconn ▸ hfind)
      exact ⟨hown, Or.inl hknown⟩
  jobs := fun job hjob => (htidy.jobs job (h.jobs.mp hjob)).imp_left Or.inl
  cargo := fun other bytes hmem => by
    have hold : (other, bytes) ∈ endpoint.transport.outbox.cargo → (∃ peer, other = .active peer) ∨
        ∃ conn, other = .outbound conn ∧ (known conn ∨ conn = endpoint.registry.nextConn) :=
      fun hmem => (htidy.cargo other bytes hmem).imp_right fun ⟨conn, hdest, hknown⟩ =>
        ⟨conn, hdest, Or.inl hknown⟩
    rcases h.outbox with hsame | ⟨rfl, time, hsent⟩
    · exact hold (hsame ▸ hmem)
    · rw [hsent] at hmem
      rcases List.mem_cons.mp ((Outbox.thins_send _ _).mem hmem) with hnew | hmem
      · exact Or.inr ⟨_, congrArg Prod.fst hnew, Or.inr rfl⟩
      · exact hold hmem
  sockets := fun conn hknown => by
    by_cases hconn : conn = endpoint.registry.nextConn
    · obtain ⟨capacity, hsocket⟩ := h.socket
      rw [hconn, hsocket]
      rfl
    · rw [h.sockets conn hconn]
      exact htidy.sockets conn (hknown.resolve_right hconn)
  identity := h.self ▸ htidy.identity
  request := h.templates ▸ htidy.request

section Fresh

variable (h : Opening endpoint dest after) (htidy : Tidy known own endpoint)
  (hunknown : ¬known endpoint.registry.nextConn)

include h htidy hunknown

theorem leads_fresh {other : Destination}
    (hleads : after.registry.Leads other endpoint.registry.nextConn) : other = dest :=
  ((h.leads other _ hleads).resolve_left fun hold => hunknown (htidy.leads other _ hold)).1

theorem idle_fresh {job : Job} (hjob : job ∈ after.transport.outbox.jobs) :
    job.conn ≠ endpoint.registry.nextConn :=
  fun hconn => hunknown (hconn ▸ (htidy.jobs job (h.jobs.mp hjob)).1)

/-- Our request is all that has been handed in for the connection. -/
theorem freight_fresh : after.transport.outbox.freight endpoint.registry.nextConn = [] ∨
    after.transport.outbox.freight endpoint.registry.nextConn =
      [endpoint.templates.request.encode] := by
  let isFresh := fun load : Destination × Bytes =>
    decide (load.1 = .outbound endpoint.registry.nextConn)
  have hnone : endpoint.transport.outbox.cargo.filter isFresh = [] := by
    refine List.filter_eq_nil_iff.mpr fun ⟨other, bytes⟩ hmem hfresh => ?_
    have hdest := of_decide_eq_true hfresh
    rcases htidy.cargo other bytes hmem with ⟨peer, hactive⟩ | ⟨conn, houtbound, hknown⟩
    · cases hactive.symm.trans hdest
    · cases houtbound.symm.trans hdest
      exact hunknown hknown
  rcases h.outbox with hsame | ⟨rfl, time, hsent⟩
  · rw [hsame]
    exact Or.inl (congrArg (List.map Prod.snd) hnone)
  · have hthins := (Outbox.thins_send endpoint.transport.outbox
      ⟨.outbound endpoint.registry.nextConn, endpoint.templates.request, time⟩).filter isFresh
    rw [List.filter_cons_of_pos (by simp [isFresh, Message.load]), hnone, ← hsent] at hthins
    rcases hthins.eq_or_nil (Nat.le_refl 1) with hone | hnil
    · exact Or.inr (congrArg (List.map Prod.snd) hone)
    · exact Or.inl (congrArg (List.map Prod.snd) hnil)

end Fresh

theorem unread_fresh (h : Opening endpoint dest after) :
    after.transport.unread endpoint.registry.nextConn = [] := by
  obtain ⟨capacity, hsocket⟩ := h.socket
  rw [Transport.unread, hsocket]
  rfl

end Opening

/-! ## The two ends -/

/-- The session of an accepted connection waits for a request, if the connection is taken in. -/
theorem Tidy.accepts (h : Tidy known own endpoint)
    (hunknown : ¬known endpoint.registry.nextConn) (ip : IpAddress) (capacity : Nat) :
    let after := (endpoint.acceptSocket ip (Socket.create capacity)).1
    Quiet after endpoint.registry.nextConn [] ∨
      ∀ peer, Tied after endpoint.registry.nextConn peer := by
  obtain ⟨hopening, hsession⟩ := h.acceptSocket hunknown ip capacity
  intro after
  cases hfind : after.sessions.find? endpoint.registry.nextConn with
  | some session =>
      left
      obtain ⟨_, _, rfl⟩ := hsession session hfind
      exact ⟨fun dest hleads => hopening.leads_fresh h hunknown hleads,
        fun ⟨_, hjob, hconn⟩ => hopening.idle_fresh h hunknown hjob hconn,
        hopening.unread_fresh, _, hfind, rfl, rfl, rfl, rfl⟩
  | none =>
      right
      refine fun peer => .of_session (fun other hleads => ?_)
        (fun job hjob hconn => absurd hconn (hopening.idle_fresh h hunknown hjob))
        fun session hsome => ?_
      · cases hopening.leads_fresh h hunknown hleads
      · cases hfind.symm.trans hsome

/-- A dialed connection is tied to the node that was dialed. -/
theorem Tidy.dials (h : Tidy known own endpoint)
    (hunknown : ¬known endpoint.registry.nextConn) (node : Node) (capacity : Nat) :
    let after := (endpoint.dialedSocket node (Socket.create capacity)).1
    Tied after endpoint.registry.nextConn node.idHash ∧
      Asking after endpoint.registry.nextConn own [] := by
  obtain ⟨hopening, hsession⟩ := h.dialedSocket hunknown node capacity
  intro after
  have hleads : ∀ other, ¬after.registry.Leads (.active other) endpoint.registry.nextConn :=
    fun other hother => nomatch hopening.leads_fresh h hunknown hother
  constructor
  · refine .of_session hleads
      (fun job hjob hconn => absurd hconn (hopening.idle_fresh h hunknown hjob)) fun session hfind => ?_
    obtain ⟨_, _, rfl⟩ := hsession session hfind
    refine ⟨nofun, ?_⟩
    rintro _ ⟨found, rfl, hdialed | hstage⟩
    · exact congrArg Node.idHash (Option.some.inj hdialed).symm
    · cases hstage
  · refine ⟨hleads, fun session hfind => ?_,
      fun job hjob hconn => absurd hconn (hopening.idle_fresh h hunknown hjob), ?_, ?_⟩
    · obtain ⟨_, _, rfl⟩ := hsession session hfind
      exact ⟨rfl, rfl⟩
    · rcases hopening.freight_fresh h hunknown with hnil | hone
      · exact hnil ▸ Nat.zero_le 1
      · exact hone ▸ Nat.le_refl 1
    · rcases hopening.freight_fresh h hunknown with hnil | hone
      · refine ⟨endpoint.templates.request.encode, ?_⟩
        rw [hopening.unread_fresh, hnil]
        exact h.request
      · refine ⟨[], ?_⟩
        rw [hopening.unread_fresh, hone]
        simpa using h.request

end Endpoint

end Peering
