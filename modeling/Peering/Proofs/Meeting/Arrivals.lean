import Peering.Proofs.Meeting.Turns

/-!
# What comes to a node

Sockets that are opened, bytes that are read by the peer or come from it, and the
end of the peer's stream: what each does to the end of its connection.
-/

namespace Peering

/-- An end of which nothing is known yet. -/
def End.blank : End :=
  ⟨.unknown, none, [], []⟩

/-- What an end becomes when bytes arrive, or the end of the peer's stream. -/
def End.hears (old : End) (bytes : Bytes) : End :=
  { old with session := old.session.map fun session =>
      { session with buffer := session.buffer ++ bytes } }

def End.hearsEnd (old : End) : End :=
  { old with session := old.session.map fun session => { session with ended := true } }

namespace Endpoint

variable {endpoint : Endpoint} {peer : IdHash} {conn : ConnId} {session : Session}

/-! ## Bytes -/

/-- Bytes that have been written are read by the peer. -/
theorem Steady.read (h : Steady peer endpoint) (conn : ConnId) (most : Nat) :
    ∃ rest, (endpoint.endOf conn).unread = (endpoint.transport.read conn most).2 ++ rest ∧
      Becomes peer conn endpoint
        { endpoint with transport := (endpoint.transport.read conn most).1 }
        { endpoint.endOf conn with unread := rest } := by
  cases hsocket : endpoint.transport.socket? conn with
  | none =>
      have hread : endpoint.transport.read conn most = (endpoint.transport, []) := by
        simp only [Transport.read, hsocket]
      rw [hread]
      exact ⟨(endpoint.endOf conn).unread, rfl, Becomes.refl h conn⟩
  | some socket =>
      have hread : endpoint.transport.read conn most =
          (endpoint.transport.onSocket conn fun _ => (socket.read most).1, (socket.read most).2) := by
        simp only [Transport.read, hsocket]
      have hsockets := fun other => Transport.socket?_onSocket endpoint.transport other conn
        fun _ => (socket.read most).1
      have hbefore : endpoint.transport.unread conn = socket.unread := by
        simp [Transport.unread, hsocket]
      have hafter : (endpoint.transport.onSocket conn fun _ => (socket.read most).1).unread conn =
          socket.unread.drop most := by
        rw [Transport.unread, hsockets, if_pos rfl, hsocket]
        rfl
      have hkept : KeepsSockets (endpoint.registry.isClosed · = true) endpoint.transport
          (endpoint.transport.onSocket conn fun _ => (socket.read most).1) := by
        apply KeepsSockets.of_change conn _ hsockets
        intro old hold
        have hsame : old = socket := Option.some.inj (hold.symm.trans hsocket)
        rw [hsame]
        exact Or.inl ⟨rfl, id⟩
      rw [hread]
      refine ⟨socket.unread.drop most, ?_, ?_⟩
      · exact hbefore.trans (List.take_append_drop _ _).symm
      refine ⟨h.of_transport rfl h.light (fun _ bytes hmem => ⟨bytes, hmem⟩) hkept,
        ⟨rfl, rfl, rfl, rfl, rfl, rfl⟩, ?_, ?_⟩
      · simp only [endOf, hafter]
        rfl
      · intro other hother
        refine endOf_onTransport rfl ?_ rfl
        simp [Transport.unread, hsockets, hother]

/-- Bytes that arrive are kept while a session reads the socket. -/
theorem Steady.receive (h : Steady peer endpoint) (bytes : Bytes) :
    Becomes peer conn endpoint (endpoint.receive conn bytes).1
      ((endpoint.endOf conn).hears bytes) := by
  cases hsession : endpoint.sessions.find? conn with
  | none =>
      have hreceive : (endpoint.receive conn bytes).1 = endpoint := by
        simp only [Endpoint.receive, hsession]
      have hsame : (endpoint.endOf conn).hears bytes = endpoint.endOf conn := by
        simp only [End.hears, endOf, hsession, Option.map_none]
      rw [hreceive, hsame]
      exact Becomes.refl h conn
  | some session =>
      obtain ⟨hconn, hknown⟩ := h.session conn session hsession
      have hreceive : (endpoint.receive conn bytes).1 =
          endpoint.addSession { session with buffer := session.buffer ++ bytes } := by
        simp only [Endpoint.receive, hsession]
      have hsome : (endpoint.endOf conn).session = some session := hsession
      rw [hreceive, End.hears, hsome]
      exact h.addSession hconn hknown

theorem Steady.endStream (h : Steady peer endpoint) :
    Becomes peer conn endpoint (endpoint.endStream conn) (endpoint.endOf conn).hearsEnd := by
  have hfind : ∀ other, (endpoint.endStream conn).sessions.find? other =
      if other = conn then (endpoint.sessions.find? other).map
        fun session => { session with ended := true }
      else endpoint.sessions.find? other := by
    intro other
    rw [Endpoint.endStream, Table.find?_modify]
  refine ⟨{ h with session := ?_ }, ⟨rfl, rfl, rfl, rfl, rfl, rfl⟩, ?_, ?_⟩
  · intro other found hfound
    rw [hfind] at hfound
    split at hfound
    · obtain ⟨session, hsession, rfl⟩ := Option.map_eq_some_iff.mp hfound
      exact h.session other session hsession
    · exact h.session other found hfound
  · simp only [endOf, hfind, if_true]
    rfl
  · intro other hother
    simp only [endOf, hfind, if_neg hother]
    rfl

/-- Only of a connection that is not held any more does the peer come to the end. -/
theorem Steady.not_held_of_ended (h : Steady peer endpoint)
    (hended : endpoint.transport.isEnded conn = true) :
    endpoint.registry.holds conn = false := by
  rw [Transport.isEnded, Bool.or_eq_true] at hended
  rcases hended with hshut | hidle
  · cases hsocket : endpoint.transport.socket? conn with
    | none =>
        rw [hsocket] at hshut
        cases hshut
    | some socket =>
        rw [hsocket] at hshut
        have hplace := h.deals.closed_place (h.closer conn socket hsocket (Or.inr hshut))
        have hheld : ∀ place : Place, place = .closed →
            (place.isDialed || place.isAccepted || place.isActive) = false := by
          rintro _ rfl
          rfl
        exact hheld _ hplace
  · rw [Transport.isOpen] at hidle
    simp only [Bool.not_eq_true', Bool.or_eq_false_iff] at hidle
    exact hidle.1.1.1

/-! ## New sockets -/

theorem Steady.next_blank (h : Steady peer endpoint) (hfree : endpoint.hasHandle = true) :
    endpoint.endOf endpoint.registry.nextConn = End.blank := by
  have hnone : endpoint.transport.socket? endpoint.registry.nextConn = none :=
    Option.isNone_iff_eq_none.mp hfree
  have hunknown : ¬endpoint.registry.Knows endpoint.registry.nextConn := by
    intro hknown
    have hsome := h.opened _ hknown
    rw [hnone] at hsome
    cases hsome
  have hplace : endpoint.registry.placeOf endpoint.registry.nextConn = .unknown :=
    Classical.not_not.mp fun hplace => hunknown (Registry.knows_iff_place.mpr hplace)
  have hsession : endpoint.sessions.find? endpoint.registry.nextConn = none := by
    cases hsession : endpoint.sessions.find? endpoint.registry.nextConn with
    | none => rfl
    | some session => exact absurd (h.session _ session hsession).2 hunknown
  have hunsent : unsentTo endpoint.transport.outbox.cargo endpoint.registry.nextConn = [] := by
    apply List.flatMap_eq_nil_iff.mpr
    intro load hload
    obtain ⟨hmem, hdest⟩ := List.mem_filter.mp hload
    have hdest : load.1 = .outbound endpoint.registry.nextConn := by simpa using hdest
    refine absurd (h.cargo_known _ load.2 ?_) hunknown
    rw [← hdest]
    exact hmem
  simp only [endOf, hplace, hsession, hunsent, Transport.unread, hnone]
  rfl

/-- A node with one socket more, of which its registry does not know yet. -/
def withSocket (endpoint : Endpoint) (capacity : Nat) : Endpoint :=
  { endpoint with
    transport := { endpoint.transport with
      registry := { endpoint.registry with nextConn := endpoint.registry.nextConn + 1 } }.addSocket
        endpoint.registry.nextConn (Socket.create capacity) }

theorem Steady.openConn_eq (h : Steady peer endpoint) (capacity : Nat) :
    endpoint.openConn (Socket.create capacity) =
      (endpoint.withSocket capacity, endpoint.registry.nextConn) := by
  simp only [openConn, Registry.takeConn, h.going]
  rfl

theorem socket?_withSocket (capacity : Nat) (other : ConnId) :
    (endpoint.withSocket capacity).transport.socket? other =
      if other = endpoint.registry.nextConn then some (Socket.create capacity)
      else endpoint.transport.socket? other :=
  Transport.socket?_addSocket _ _ _ _

theorem Steady.withSocket (h : Steady peer endpoint) (hfree : endpoint.hasHandle = true)
    (capacity : Nat) :
    Becomes peer endpoint.registry.nextConn endpoint (endpoint.withSocket capacity) End.blank := by
  have hsteady : (endpoint.withSocket capacity).Steady peer := by
    refine ⟨?_, h.light, h.cargo_known, ?_, ?_, ?_, h.session, h.going⟩
    · exact {
        coherent := h.deals.coherent.of_same_sets rfl rfl rfl rfl
        outbound := h.deals.outbound
        active := h.deals.active
        bans := h.deals.bans
        single := h.deals.single
        teardown := h.deals.teardown }
    · intro other hknown
      rw [socket?_withSocket]
      split
      · rfl
      · exact h.opened other hknown
    · intro other socket hsocket hcloser
      rw [socket?_withSocket] at hsocket
      split at hsocket
      · cases hsocket
        simp [Socket.create] at hcloser
      · exact h.closer other socket hsocket hcloser
    · intro other socket hsocket
      rw [socket?_withSocket] at hsocket
      split at hsocket
      · cases hsocket
        rfl
      · exact h.unhung other socket hsocket
  have hends : ∀ other, (endpoint.withSocket capacity).endOf other = endpoint.endOf other := by
    intro other
    have hunread : (endpoint.withSocket capacity).transport.unread other =
        endpoint.transport.unread other := by
      rw [Transport.unread, Transport.unread, socket?_withSocket]
      split
      · rename_i hother
        rw [hother, Option.isNone_iff_eq_none.mp hfree]
        rfl
      · rfl
    simp only [endOf, hunread]
    rfl
  refine ⟨hsteady, ⟨rfl, rfl, rfl, rfl, rfl, rfl⟩, ?_, fun other _ => hends other⟩
  rw [hends, h.next_blank hfree]

/-- A registry takes in the connection of a new socket, or closes it. -/
theorem Steady.learns (h : Steady peer endpoint) (hfree : endpoint.hasHandle = true) (capacity : Nat)
    {registry : Registry} {place : Place} (hdeals : registry.DealsWith peer)
    (hlearns : (endpoint.withSocket capacity).registry.Learns endpoint.registry.nextConn registry)
    (hterms : endpoint.registry.KeepsTerms registry)
    (hplaces : ∀ other, registry.placeOf other = if other = endpoint.registry.nextConn then place
      else (endpoint.withSocket capacity).registry.placeOf other) :
    Becomes peer endpoint.registry.nextConn endpoint
      ((endpoint.withSocket capacity).setRegistry registry) { End.blank with place := place } := by
  have hopened := h.withSocket hfree capacity
  have hsteady : ((endpoint.withSocket capacity).setRegistry registry).Steady peer := by
    refine hopened.steady.setRegistry hdeals hlearns.closed
      (fun conn hknown => (hlearns.knows conn).mpr (Or.inl hknown)) ?_
    intro conn hknown
    rcases (hlearns.knows conn).mp hknown with hold | hnew
    · exact hopened.steady.opened conn hold
    · rw [socket?_withSocket, if_pos hnew]
      rfl
  have hmoves := becomes_setRegistry hsteady ⟨hterms.self, hterms.limits, hterms.bans⟩ hplaces
  rw [hopened.here] at hmoves
  exact hopened.trans hmoves

/-- A socket that a peer has opened waits for the request. -/
theorem Steady.acceptSocket (h : Steady peer endpoint) (hfree : endpoint.hasHandle = true)
    (hroom : endpoint.hasPlace .inbound = true) (ip : IpAddress) (capacity : Nat) :
    Becomes peer endpoint.registry.nextConn endpoint
      (endpoint.acceptSocket ip (Socket.create capacity)).1
      { End.blank with
        place := .accepted
        session := some (Session.accepted endpoint.registry.nextConn ip endpoint.clock
          (endpoint.timer + endpoint.settings.readTimeout)) } := by
  have hopened := h.withSocket hfree capacity
  have hnew : (endpoint.withSocket capacity).registry.placeOf endpoint.registry.nextConn = .unknown :=
    congrArg End.place hopened.here
  have hspace : (endpoint.withSocket capacity).registry.active.length +
      (endpoint.withSocket capacity).registry.inbound.length <
        (endpoint.withSocket capacity).registry.limits.maxActive := by
    exact of_decide_eq_true hroom
  obtain ⟨hdeals, hterms, hok, hplaces⟩ :=
    hopened.steady.deals.promoteToInbound endpoint.clock hnew hspace
  have hlearned := h.learns hfree capacity hdeals (Registry.promoteToInbound_learns _ _ _)
    ⟨hterms.self, hterms.limits, hterms.bans⟩ hplaces
  have haccept : (endpoint.acceptSocket ip (Socket.create capacity)).1 =
      ((endpoint.withSocket capacity).setRegistry
        ((endpoint.withSocket capacity).registry.promoteToInbound endpoint.clock
          endpoint.registry.nextConn).1).addSession
        (Session.accepted endpoint.registry.nextConn ip endpoint.clock
          (endpoint.timer + endpoint.settings.readTimeout)) := by
    simp only [Endpoint.acceptSocket, h.openConn_eq]
    rw [show (endpoint.withSocket capacity).clock = endpoint.clock from rfl, hok]
    rfl
  rw [haccept]
  exact hlearned.addSession rfl (by simp [Place.accepted, Place.unknown])

/-- A request is queued when nothing else is on its way. -/
theorem Steady.sendTo (h : Steady peer endpoint) {frame : Frame}
    (hknown : endpoint.registry.Knows conn) (hempty : endpoint.transport.outbox.cargo = [])
    (hfits : frame.payload.length ≤ endpoint.transport.outbox.limits.maxBody) :
    Becomes peer conn endpoint (endpoint.sendTo (.outbound conn) frame).1
      { endpoint.endOf conn with unsent := frame.encode } := by
  let message : Message := ⟨.outbound conn, frame, Int.ofNat endpoint.clock⟩
  obtain ⟨hlight, hcargo⟩ :=
    Outbox.send_light h.light hempty (show message.frame.payload.length ≤ _ from hfits) rfl
  have hsend : (endpoint.sendTo (.outbound conn) frame).1 = { endpoint with
      transport := { endpoint.transport with outbox := (endpoint.transport.outbox.send message).1 } } :=
    rfl
  have hunsent : ∀ other, unsentTo (endpoint.transport.outbox.send message).1.cargo other =
      if other = conn then frame.encode else [] := by
    intro other
    rw [hcargo, Message.load, unsentTo_single]
    by_cases hother : other = conn
    · rw [if_pos (hother ▸ rfl), if_pos hother]
    · rw [if_neg (fun hdest => hother (Destination.outbound.inj hdest).symm), if_neg hother]
  rw [hsend]
  refine ⟨{ h with light := hlight, cargo_known := ?_ },
    ⟨rfl, rfl, rfl, rfl, rfl, endpoint.transport.outbox.limits_send message⟩, ?_, ?_⟩
  · intro other bytes hmem
    have hload : (Destination.outbound other, bytes) ∈ [message.load] := hcargo ▸ hmem
    have hsame : Destination.outbound other = .outbound conn :=
      congrArg Prod.fst (List.mem_singleton.mp hload)
    rw [Destination.outbound.inj hsame]
    exact hknown
  · simp only [endOf, hunsent, if_true]
    rfl
  · intro other hother
    simp only [endOf, hunsent, if_neg hother, hempty]
    rfl

/--
A dial is taken, and its request queued, unless the peer is active or dialed
already; then its connection is closed at once.
-/
theorem Steady.dialedSocket (h : Steady peer endpoint) (hfree : endpoint.hasHandle = true)
    (hroom : endpoint.hasPlace .outbound = true) {node : Node}
    (hself : endpoint.registry.isSelf node = false) (hnode : node.idHash = peer) (capacity : Nat)
    (hempty : ¬endpoint.registry.IsJoined → ¬endpoint.registry.IsDialing →
      endpoint.transport.outbox.cargo = [])
    (hfits : endpoint.templates.request.payload.length ≤ endpoint.transport.outbox.limits.maxBody) :
    (¬endpoint.registry.IsJoined ∧ ¬endpoint.registry.IsDialing ∧
      Becomes peer endpoint.registry.nextConn endpoint
        (endpoint.dialedSocket node (Socket.create capacity)).1
        { End.blank with
          place := .dialed
          session := some (Session.dialing endpoint.registry.nextConn node endpoint.clock
            (endpoint.timer + endpoint.settings.readTimeout))
          unsent := endpoint.templates.request.encode }) ∨
    ((endpoint.registry.IsJoined ∨ endpoint.registry.IsDialing) ∧
      Becomes peer endpoint.registry.nextConn endpoint
        (endpoint.dialedSocket node (Socket.create capacity)).1
        { End.blank with place := .closed }) := by
  have hopened := h.withSocket hfree capacity
  have hnew : (endpoint.withSocket capacity).registry.placeOf endpoint.registry.nextConn = .unknown :=
    congrArg End.place hopened.here
  have hspace : (endpoint.withSocket capacity).registry.active.length +
      (endpoint.withSocket capacity).registry.outbound.length <
        (endpoint.withSocket capacity).registry.limits.maxActive := by
    exact of_decide_eq_true hroom
  obtain ⟨hdeals, hterms, ⟨hok, hjoined, hdialing, hplaces⟩ | ⟨⟨error, hrefused⟩, hreason, hplaces⟩⟩ :=
    hopened.steady.deals.promoteToOutbound endpoint.clock hnew
      (show (endpoint.withSocket capacity).registry.isSelf node = false from hself) hnode hspace
  · left
    refine ⟨hjoined, hdialing, ?_⟩
    have hlearned := h.learns hfree capacity hdeals (Registry.promoteToOutbound_learns _ _ _ _)
      ⟨hterms.self, hterms.limits, hterms.bans⟩ hplaces
    have hadded := hlearned.addSession (show (Session.dialing endpoint.registry.nextConn node
      endpoint.clock (endpoint.timer + endpoint.settings.readTimeout)).conn =
        endpoint.registry.nextConn from rfl) (by simp [Place.dialed, Place.unknown])
    have hdial : (endpoint.dialedSocket node (Socket.create capacity)).1 =
        ((((endpoint.withSocket capacity).setRegistry
          ((endpoint.withSocket capacity).registry.promoteToOutbound endpoint.clock node
            endpoint.registry.nextConn).1).addSession (Session.dialing endpoint.registry.nextConn node
              endpoint.clock (endpoint.timer + endpoint.settings.readTimeout))).sendTo
                (.outbound endpoint.registry.nextConn) endpoint.templates.request).1 := by
      simp only [Endpoint.dialedSocket, h.openConn_eq]
      rw [show (endpoint.withSocket capacity).clock = endpoint.clock from rfl, hok]
      rfl
    rw [hdial]
    have hsent := hadded.steady.sendTo (hadded.knows (by simp [Place.dialed, Place.unknown]))
      (hempty hjoined hdialing) hfits
    rw [hadded.here] at hsent
    exact hadded.trans hsent
  · right
    refine ⟨hreason, ?_⟩
    have hlearned := h.learns hfree capacity hdeals (Registry.promoteToOutbound_learns _ _ _ _)
      ⟨hterms.self, hterms.limits, hterms.bans⟩ hplaces
    have hdial : (endpoint.dialedSocket node (Socket.create capacity)).1 =
        (endpoint.withSocket capacity).setRegistry
          ((endpoint.withSocket capacity).registry.promoteToOutbound endpoint.clock node
            endpoint.registry.nextConn).1 := by
      simp only [Endpoint.dialedSocket, h.openConn_eq]
      rw [show (endpoint.withSocket capacity).clock = endpoint.clock from rfl, hrefused]
    rw [hdial]
    exact hlearned

end Endpoint

end Peering
