import Peering.Proofs.Meeting.Runs
import Peering.Proofs.Registry.History

/-!
# Two nodes that dial each other come to agree

At rest no connection can stand anywhere on its course but where both ends are
active or both have given it up: before that something is still under way. Since
somebody is active or dials from the first dial on, and nobody dials at rest,
there is a connection on which both are active. Main statement: whatever the order
of steps, two nodes at rest that have dialed each other at least once are active
with each other on one connection, the same for both, and have no other.
-/

namespace Peering

namespace Meeting

variable {first : Side → Endpoint} {meeting : Meeting} {side : Side} {link : Link} {index : Nat}
  {conn near far : ConnId} {session : Session}

/-! ## What rest means for a connection -/

theorem IsQuiet.unsent (hquiet : meeting.IsQuiet) (link : Link) (side : Side) :
    (meeting.endAt link side).unsent = [] := by
  obtain ⟨hqueue, hlanes⟩ := hquiet.sent side
  have hcargo : (meeting.node side).transport.outbox.cargo = [] := by
    rw [Outbox.cargo, hqueue]
    apply List.flatMap_eq_nil_iff.mpr
    intro lane hlane
    rw [hlanes lane hlane]
    rfl
  cases hhandle : link.handle side with
  | none =>
      rw [endAt, hhandle]
      rfl
  | some conn =>
      rw [endAt_some hhandle]
      show Endpoint.unsentTo (meeting.node side).transport.outbox.cargo conn = []
      rw [hcargo]
      rfl

theorem has_of_session (hsession : (meeting.endAt link side).session = some session) :
    ∃ conn, link.handle side = some conn ∧ (meeting.node side).sessions.find? conn = some session := by
  cases hhandle : link.handle side with
  | none =>
      rw [endAt, hhandle] at hsession
      cases hsession
  | some conn =>
      rw [endAt_some hhandle] at hsession
      exact ⟨conn, rfl, hsession⟩

/-- A session reads, and what it has read is no frame. -/
theorem IsQuiet.waits (hquiet : meeting.IsQuiet)
    (hsession : (meeting.endAt link side).session = some session) :
    (session.stage = .reading) ∧
      FrameStream.front (meeting.node side).settings.maxFrameBody.toNat session.buffer =
        .incomplete := by
  obtain ⟨conn, _, hfound⟩ := has_of_session hsession
  obtain ⟨hstage, hfront⟩ := hquiet.waiting side conn session hfound
  refine ⟨?_, hfront⟩
  split at hstage
  · assumption
  · exact hstage.elim

/-- No bytes are on their way to a session. -/
theorem IsQuiet.unread (hquiet : meeting.IsQuiet) (hlink : link ∈ meeting.links)
    (hsession : (meeting.endAt link side.other).session = some session) :
    (meeting.endAt link side).unread = [] := by
  obtain ⟨sink, hto, hfound⟩ := has_of_session hsession
  cases hhandle : link.handle side with
  | none =>
      rw [endAt, hhandle]
      rfl
  | some source =>
      rw [endAt_some hhandle]
      show (meeting.node side).transport.unread source = []
      rw [Transport.unread]
      cases hsocket : (meeting.node side).transport.socket? source with
      | none => rfl
      | some socket =>
          refine hquiet.arrived link hlink side source sink socket hhandle hto ?_ hsocket
          rw [Table.has, hfound]
          rfl

/-- No session reads a connection whose other end is closed. -/
theorem IsQuiet.heard_end (hquiet : meeting.IsQuiet) (hlink : link ∈ meeting.links)
    (hclosed : (meeting.endAt link side).place = .closed) :
    (meeting.endAt link side.other).session = none := by
  cases hsession : (meeting.endAt link side.other).session with
  | none => rfl
  | some session =>
      obtain ⟨sink, hto, hfound⟩ := has_of_session hsession
      cases hhandle : link.handle side with
      | none =>
          rw [endAt, hhandle] at hclosed
          cases hclosed
      | some source =>
          rw [endAt_some hhandle] at hclosed
          have hnone := hquiet.heard link hlink side source sink hhandle hto
            (congrArg Place.isClosed hclosed)
          rw [Table.has, hfound] at hnone
          cases hnone

theorem IsQuiet.not_busy (hquiet : meeting.IsQuiet) {place : Place} {kind : Session → Prop}
    (hkind : ∀ session, kind session → session.stage ≠ .reading) :
    ¬(meeting.endAt link side).Has place kind := by
  intro hhas
  obtain ⟨_, session, hsession, hthis⟩ := hhas
  exact hkind session hthis (hquiet.waits hsession).1

theorem IsQuiet.not_deciding (hquiet : meeting.IsQuiet) {isCaller : Node → Prop} :
    ¬(meeting.endAt link side).IsDeciding isCaller := by
  apply hquiet.not_busy
  rintro session ⟨caller, hstage, _⟩
  rw [hstage]
  exact Stage.noConfusion

theorem IsQuiet.not_refusing (hquiet : meeting.IsQuiet) :
    ¬(meeting.endAt link side).IsRefusing := by
  apply hquiet.not_busy
  intro session hstage
  rw [hstage]
  exact Stage.noConfusion

theorem IsQuiet.not_rejecting (hquiet : meeting.IsQuiet) :
    ¬(meeting.endAt link side).IsRejecting := by
  apply hquiet.not_busy
  rintro session ⟨left, deadline, hstage⟩
  rw [hstage]
  exact Stage.noConfusion

/-! ## Rest can be tested -/

/-- Whether a session waits for more bytes. -/
def isWaiting (endpoint : Endpoint) (session : Session) : Bool :=
  match session.stage with
  | .reading =>
      FrameStream.front endpoint.settings.maxFrameBody.toNat session.buffer == .incomplete
  | _ => false

/-- Whether nothing of what a node has written on a connection, nor its end, is on its way. -/
def isHeard (meeting : Meeting) (link : Link) (writer : Side) : Bool :=
  match link.handle writer, link.handle writer.other with
  | some source, some sink =>
      !(meeting.node writer.other).sessions.has sink ||
        !(meeting.node writer).registry.isClosed source &&
          ((meeting.node writer).transport.socket? source).all (·.unread.isEmpty)
  | _, _ => false

def atRest (meeting : Meeting) : Bool :=
  [Side.left, Side.right].all fun side =>
    (meeting.node side).transport.outbox.queue.isEmpty
      && (meeting.node side).transport.outbox.lanes.all (· == WriterLane.empty)
      && (meeting.node side).sessions.all (fun entry => isWaiting (meeting.node side) entry.2)
      && meeting.links.all fun link => meeting.isHeard link side

theorem isQuiet_of_atRest (hrest : meeting.atRest = true) : meeting.IsQuiet := by
  have hside : ∀ side, (meeting.node side).transport.outbox.queue = [] ∧
      (∀ lane ∈ (meeting.node side).transport.outbox.lanes, lane = WriterLane.empty) ∧
      (∀ entry ∈ (meeting.node side).sessions, isWaiting (meeting.node side) entry.2 = true) ∧
      ∀ link ∈ meeting.links, meeting.isHeard link side = true := by
    intro side
    have hmem : side ∈ [Side.left, Side.right] := by cases side <;> decide
    have hthis := List.all_eq_true.mp hrest side hmem
    simp only [Bool.and_eq_true, List.isEmpty_iff, List.all_eq_true, beq_iff_eq] at hthis
    exact ⟨hthis.1.1.1, hthis.1.1.2, hthis.1.2, hthis.2⟩
  have hheard : ∀ link ∈ meeting.links, ∀ writer, ∃ source sink, link.handle writer = some source ∧
      link.handle writer.other = some sink ∧
      ((meeting.node writer.other).sessions.has sink = true →
        (meeting.node writer).registry.isClosed source = false ∧
          ((meeting.node writer).transport.socket? source).all (·.unread.isEmpty) = true) := by
    intro link hlink writer
    have hthis := (hside writer).2.2.2 link hlink
    unfold isHeard at hthis
    split at hthis
    · rename_i source sink hfrom hto
      refine ⟨source, sink, hfrom, hto, ?_⟩
      intro hhas
      rw [hhas] at hthis
      simpa using hthis
    · cases hthis
  refine ⟨?_, ?_, ?_, ?_, ?_⟩
  · intro link hlink
    obtain ⟨source, sink, hfrom, hto, _⟩ := hheard link hlink link.dialer
    rw [← handle_dialer, ← handle_other, hfrom, hto]
    exact ⟨rfl, rfl⟩
  · exact fun side => ⟨(hside side).1, (hside side).2.1⟩
  · intro side conn session hsession
    have hwaits := (hside side).2.2.1 (conn, session) (Table.mem_of_find? hsession)
    unfold isWaiting at hwaits
    split at hwaits
    · rename_i hstage
      exact ⟨by rw [hstage]; trivial, eq_of_beq hwaits⟩
    · cases hwaits
  · intro link hlink writer source sink socket hfrom hto hhas hsocket
    obtain ⟨_, _, hfound, hother, hempty⟩ := hheard link hlink writer
    rw [hfrom] at hfound
    rw [hto] at hother
    cases hfound
    cases hother
    have hunread := (hempty hhas).2
    rw [hsocket] at hunread
    simpa using hunread
  · intro link hlink writer source sink hfrom hto hclosed
    obtain ⟨_, _, hfound, hother, hempty⟩ := hheard link hlink writer
    rw [hfrom] at hfound
    rw [hto] at hother
    cases hfound
    cases hother
    apply Bool.eq_false_iff.mpr
    intro hhas
    rw [(hempty hhas).1] at hclosed
    cases hclosed

/-! ## Nothing is left half way -/

theorem mem_links (hlink : meeting.HasLink index link) : link ∈ meeting.links :=
  List.mem_of_getElem? hlink

theorem Sound.not_blank (h : Sound first meeting) (hquiet : meeting.IsQuiet)
    (hlink : meeting.HasLink index link) (side : Side) : meeting.endAt link side ≠ .blank := by
  obtain ⟨hnear, hfar⟩ := hquiet.taken link (mem_links hlink)
  have hhandle : (link.handle side).isSome = true := by
    unfold Link.handle
    split
    · exact hnear
    · exact hfar
  obtain ⟨conn, hsome⟩ := Option.isSome_iff_exists.mp hhandle
  rw [endAt_some hsome]
  intro hblank
  exact Registry.knows_iff_place.mp (h.known index link side conn hlink hsome)
    (congrArg End.place hblank)

/-- At rest no dial waits for its answer. -/
theorem Sound.not_asking (h : Sound first meeting) (hmeet : CanMeet first) (hquiet : meeting.IsQuiet)
    (hlink : meeting.HasLink index link) :
    ¬(meeting.endAt link link.dialer).IsAsking link.target := by
  intro hasks
  obtain ⟨hplace, session, hsession, hwaits⟩ := hasks
  obtain ⟨_, hfront⟩ := hquiet.waits hsession
  have hcourse := (h.stands index link hlink).course
  have hnotLost : ¬(meeting.endAt link link.dialer).IsLost := by
    intro hlost
    rw [hlost.1] at hplace
    cases hplace
  have hnotGone : ¬(meeting.endAt link link.dialer.other).IsGone := by
    intro hgone
    have hnone := hquiet.heard_end (mem_links hlink) hgone.1
    rw [other_other, hsession] at hnone
    cases hnone
  cases hcourse with
  | unregistered hblank => exact h.not_blank hquiet hlink _ hblank
  | asking _ hfresh hrequest =>
      rcases hfresh with hblank | hawaits
      · exact h.not_blank hquiet hlink _ hblank
      · obtain ⟨_, found, hfound, _⟩ := hawaits
        have hwhole : found.buffer ++ [] = (terms first link).request.toFrame.encode := by
          rw [← hrequest, toFar, buffer_of_some hfound, hquiet.unsent,
            hquiet.unread (mem_links hlink) hfound]
          exact (List.append_nil _).symm
        have hframe := h.front_request hmeet link hwhole
        rw [if_pos rfl, (hquiet.waits hfound).2] at hframe
        cases hframe
  | dropped hlost => exact hnotLost hlost
  | deciding _ hdecides => exact hquiet.not_deciding hdecides
  | overtaken hlost => exact hnotLost hlost
  | refused _ hrefusing => exact hquiet.not_refusing hrefusing
  | rejected _ hends =>
      rcases hends with hrejecting | hgone
      · exact hquiet.not_rejecting hrejecting
      · exact hnotGone hgone
  | accepted _ hhost _ hanswer =>
      obtain ⟨_, found, hfound, _⟩ := hhost
      have howed : (meeting.endAt link link.dialer.other).owed = [] := by
        rw [End.owed, hfound, Option.map_some, Option.getD_some, Session.owed, (hquiet.waits hfound).1]
      have hunread : (meeting.endAt link link.dialer.other).unread = [] := by
        rw [← other_other link.dialer] at hsession
        exact hquiet.unread (mem_links hlink) hsession
      have hwhole : session.buffer ++ [] = (terms first link).accept.toFrame.encode := by
        rw [← hanswer, toNear, buffer_of_some hsession, hunread, howed]
        exact (List.append_nil _).symm
      have hframe := h.front_accept hmeet link hwhole
      rw [if_pos rfl, hfront] at hframe
      cases hframe
  | agreed hjoined =>
      rw [hjoined.1] at hplace
      cases hplace
  | ended hlost => exact hnotLost hlost

/-- At rest nobody dials. -/
theorem Sound.not_dialing (h : Sound first meeting) (hmeet : CanMeet first) (hquiet : meeting.IsQuiet)
    (side : Side) : ¬meeting.dialing side := by
  intro hdialing
  obtain ⟨conn, hdialed⟩ := hdialing
  obtain ⟨index, link, hlink, hplace⟩ := h.end_of_place (Place.ne_unknown_of_dialed hdialed)
  rw [← hplace] at hdialed
  have hcourse := (h.stands index link hlink).course
  rcases eq_or_eq_other link.dialer side with rfl | rfl
  · exact h.not_asking hmeet hquiet hlink (hcourse.near_dialed hdialed)
  · rw [hcourse.far_not_dialed] at hdialed
    cases hdialed

/-- At rest no connection is taken in that is not active. -/
theorem Sound.not_accepted (h : Sound first meeting) (hmeet : CanMeet first) (hquiet : meeting.IsQuiet)
    (side : Side) (conn : ConnId) :
    ((meeting.node side).registry.placeOf conn).isAccepted = false := by
  apply Bool.eq_false_iff.mpr
  intro haccepted
  obtain ⟨index, link, hlink, hplace⟩ := h.end_of_place (Place.ne_unknown_of_accepted haccepted)
  rw [← hplace] at haccepted
  have hcourse := (h.stands index link hlink).course
  rcases eq_or_eq_other link.dialer side with rfl | rfl
  · rw [hcourse.near_not_accepted] at haccepted
    cases haccepted
  have hnotGone : ¬(meeting.endAt link link.dialer.other).IsGone := by
    intro hgone
    rw [hgone.1] at haccepted
    cases haccepted
  have hnotHost : ¬(meeting.endAt link link.dialer.other).IsHost := by
    intro hhost
    rw [hhost.1] at haccepted
    cases haccepted
  have hnotAsking := h.not_asking hmeet hquiet hlink
  cases hcourse with
  | unregistered hblank => exact h.not_blank hquiet hlink _ hblank
  | asking hasks => exact hnotAsking hasks
  | dropped hlost hfresh =>
      rcases hfresh with hblank | hawaits
      · exact h.not_blank hquiet hlink _ hblank
      · exact hawaits.session_ne (hquiet.heard_end (mem_links hlink) hlost.1)
  | deciding hasks => exact hnotAsking hasks
  | overtaken _ hdecides => exact hquiet.not_deciding hdecides
  | refused hasks => exact hnotAsking hasks
  | rejected hasks => exact hnotAsking hasks
  | accepted hasks => exact hnotAsking hasks
  | agreed _ hhost => exact hnotHost hhost
  | ended _ hends =>
      rcases hends with hrefusing | hrejecting | hgone
      · exact hquiet.not_refusing hrefusing
      · exact hquiet.not_rejecting hrejecting
      · exact hnotGone hgone

/-! ## Agreement -/

/-- A node that is active at rest is active on one connection and has no other. -/
theorem Sound.only_on (h : Sound first meeting) (hmeet : CanMeet first) (hquiet : meeting.IsQuiet)
    (hactive : ((meeting.node side).registry.placeOf conn).isActive = true) :
    IsOnlyOn (meeting.node side) (meeting.node side.other).registry.self.idHash conn := by
  have hdeals := (h.steady side).deals
  refine ⟨?_, hdeals.outbound_nil (h.not_dialing hmeet hquiet side), ?_⟩
  · rw [h.hash_eq]
    exact hdeals.active_entry hactive
  · apply List.eq_nil_iff_forall_not_mem.mpr
    intro entry hentry
    have hhas : (meeting.node side).registry.inbound.has entry.1 = true :=
      Table.has_iff.mpr ⟨entry.2, hentry⟩
    have hfree := h.not_accepted hmeet hquiet side entry.1
    rw [Registry.placeOf, hhas] at hfree
    cases hfree

/-- Somebody is active, so both are, on one connection. -/
theorem Sound.agrees (h : Sound first meeting) (hmeet : CanMeet first) (hquiet : meeting.IsQuiet)
    (hdialed : meeting.links ≠ []) : meeting.Agrees := by
  obtain ⟨link, hmem⟩ := List.exists_mem_of_ne_nil _ hdialed
  obtain ⟨index, hlink⟩ := List.getElem?_of_mem hmem
  obtain ⟨side, conn, hactive⟩ : ∃ side, meeting.joined side := by
    rcases h.eager ⟨index, link, hlink, (hquiet.taken link hmem).1⟩ with hjoined | ⟨side, hdialing⟩
    · exact hjoined
    · exact absurd hdialing (h.not_dialing hmeet hquiet side)
  obtain ⟨index, link, hlink, hplace⟩ := h.end_of_place (Place.ne_unknown_of_active hactive)
  rw [← hplace] at hactive
  have hcourse := (h.stands index link hlink).course
  have hends : (meeting.endAt link link.dialer).IsJoined ∧
      (meeting.endAt link link.dialer.other).IsHost := by
    rcases eq_or_eq_other link.dialer side with rfl | rfl
    · exact hcourse.near_active hactive
    · obtain ⟨hhost, hasks | hjoined⟩ := hcourse.far_active hactive
      · exact absurd hasks (h.not_asking hmeet hquiet hlink)
      · exact ⟨hjoined, hhost⟩
  obtain ⟨hjoined, hhost⟩ := hends
  obtain ⟨hnear, hfar⟩ := hquiet.taken link (mem_links hlink)
  obtain ⟨near, hnear⟩ := Option.isSome_iff_exists.mp hnear
  obtain ⟨far, hfar⟩ := Option.isSome_iff_exists.mp hfar
  have hnearActive := congrArg Place.isActive hjoined.1
  have hfarActive := congrArg Place.isActive hhost.1
  rw [endAt_some ((handle_dialer link).trans hnear)] at hnearActive
  rw [endAt_some ((handle_other link).trans hfar)] at hfarActive
  have hother := h.only_on hmeet hquiet hfarActive
  rw [other_other] at hother
  exact ⟨link, mem_links hlink, near, far, hnear, hfar, h.only_on hmeet hquiet hnearActive, hother⟩

/-- Two nodes that dial each other, at rest, are active on the same connection and on no other. -/
theorem agrees_of_quiet (left right : Endpoint) (hleft : IsUnmet left) (hright : IsUnmet right)
    (hdistinct : left.registry.self.idHash ≠ right.registry.self.idHash)
    (hasks : CanAsk left right) (hanswers : CanAsk right left) (actions : List Action)
    (hquiet : ((start left right).run actions).IsQuiet)
    (hdialed : ((start left right).run actions).links ≠ []) :
    ((start left right).run actions).Agrees := by
  have hmeet : CanMeet (start left right).node := by
    refine ⟨?_, ?_, ?_⟩
    · intro side
      cases side
      · exact hleft
      · exact hright
    · intro side
      cases side
      · exact hdistinct
      · exact hdistinct.symm
    · intro side
      cases side
      · exact hasks
      · exact hanswers
  exact ((sound_start hmeet).run hmeet actions).agrees hmeet hquiet hdialed

def crossingNode (byte : UInt8) (ip : IpAddress) : Endpoint :=
  Endpoint.create { Settings.default with writerLanes := 1, ip := ip } (Registry.repeatedId byte)
    HandlerTable.empty

/-- Both nodes dial before either has an answer. -/
def crossing : List Action :=
  [.connect .left (Node.create (Registry.repeatedId 0x62) (.v4 0x0a000002) 30303 0)
      (.v4 0x0a000001) 512 512,
    .connect .right (Node.create (Registry.repeatedId 0x61) (.v4 0x0a000001) 30303 0)
      (.v4 0x0a000002) 512 512,
    .register 0, .register 1, .accept 0, .accept 1,
    .distribute .left, .resolve .left 0, .take .left 0, .write .left 0,
    .distribute .right, .resolve .right 0, .take .right 0, .write .right 0,
    .deliver 0 .left 512, .deliver 1 .right 512,
    .session .left 2 true, .session .right 2 true, .session .left 2 true, .session .right 2 true,
    .session .left 2 true, .session .right 2 true, .session .left 2 true,
    .deliver 1 .left 512, .deliver 0 .right 512, .session .left 1 false,
    .session .right 1 true]

def crossed : Meeting :=
  (start (crossingNode 0x61 (.v4 0x0a000001)) (crossingNode 0x62 (.v4 0x0a000002))).run crossing

theorem agrees_of_crossing : crossed.atRest = true ∧ crossed.links ≠ [] ∧ crossed.Agrees := by
  have hrest : crossed.atRest = true := by decide +kernel
  have hlinks : crossed.links ≠ [] := by
    have hlength : crossed.links.length = 2 := by decide +kernel
    intro hnone
    rw [hnone] at hlength
    cases hlength
  have hunmet : ∀ byte ip, IsUnmet (crossingNode byte ip) := by
    intro byte ip
    exact isUnmet_create rfl _ _
  have hasks : CanAsk (crossingNode 0x61 (.v4 0x0a000001)) (crossingNode 0x62 (.v4 0x0a000002)) :=
    ⟨rfl, by decide +kernel, by decide +kernel, by decide +kernel, by decide +kernel⟩
  have hanswers : CanAsk (crossingNode 0x62 (.v4 0x0a000002)) (crossingNode 0x61 (.v4 0x0a000001)) :=
    ⟨rfl, by decide +kernel, by decide +kernel, by decide +kernel, by decide +kernel⟩
  exact ⟨hrest, hlinks, agrees_of_quiet _ _ (hunmet ..) (hunmet ..) (by decide +kernel) hasks hanswers
    crossing (isQuiet_of_atRest hrest) hlinks⟩

end Meeting

end Peering
