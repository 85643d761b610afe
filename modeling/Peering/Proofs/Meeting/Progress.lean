import Peering.Proofs.Meeting.Sound

/-!
# Sessions get on

A step of a session takes its connection from one point of its course to the
next: a request that has arrived is decided, an answer makes the dial active or
ends it, and a dial that has yielded is closed.
-/

namespace Peering

namespace Meeting

variable {first : Side → Endpoint} {meeting : Meeting} {link : Link} {index : Nat} {conn : ConnId}
  {session : Session} {heeds : Bool}

/-- Two nodes that can meet: they have not met yet, differ in their hashes, and can shake hands. -/
structure CanMeet (first : Side → Endpoint) : Prop where
  unmet : ∀ side, IsUnmet (first side)
  distinct : ∀ side, hashOf first side ≠ hashOf first side.other
  ask : ∀ side, CanAsk (first side) (first side.other)

/-! ## What the nodes say -/

theorem CanMeet.request_eq (hmeet : CanMeet first) (link : Link) :
    (first link.dialer).templates.request = (terms first link).request.toFrame := by
  rw [(hmeet.unmet link.dialer).templates]
  rfl

theorem CanMeet.accept_eq (hmeet : CanMeet first) (link : Link) :
    (first link.dialer.other).templates.accept = (terms first link).accept.toFrame := by
  rw [(hmeet.unmet link.dialer.other).templates]
  rfl

theorem CanMeet.reject_eq (hmeet : CanMeet first) (link : Link) :
    (first link.dialer.other).templates.reject = (terms first link).reject.toFrame := by
  rw [(hmeet.unmet link.dialer.other).templates]
  rfl

theorem size_of_short {n : Nat} (hshort : n < 256) : n < UInt32.size :=
  Nat.lt_trans hshort (by decide)

/-- The accepting node cuts a request off its buffer once all of it is there. -/
theorem Sound.front_request (h : Sound first meeting) (hmeet : CanMeet first) (link : Link)
    {buffer missing : Bytes}
    (hwhole : buffer ++ missing = (terms first link).request.toFrame.encode) :
    FrameStream.front (meeting.node link.dialer.other).settings.maxFrameBody.toNat buffer =
      if missing = [] then .frame (terms first link).request.toFrame [] else .incomplete := by
  refine FrameStream.front_of_prefix hwhole ?_ (size_of_short (Handshake.Request.length_encode_lt _))
  rw [(h.same link.dialer.other).settings, ← hmeet.request_eq link]
  exact (hmeet.ask link.dialer).request

theorem Sound.front_accept (h : Sound first meeting) (hmeet : CanMeet first) (link : Link)
    {buffer missing : Bytes}
    (hwhole : buffer ++ missing = (terms first link).accept.toFrame.encode) :
    FrameStream.front (meeting.node link.dialer).settings.maxFrameBody.toNat buffer =
      if missing = [] then .frame (terms first link).accept.toFrame [] else .incomplete := by
  refine FrameStream.front_of_prefix hwhole ?_ (size_of_short (Handshake.Response.length_encode_lt _))
  rw [(h.same link.dialer).settings, ← hmeet.accept_eq link]
  exact (hmeet.ask link.dialer).accept

theorem Sound.front_reject (h : Sound first meeting) (hmeet : CanMeet first) (link : Link)
    {buffer missing : Bytes}
    (hwhole : buffer ++ missing = (terms first link).reject.toFrame.encode) :
    FrameStream.front (meeting.node link.dialer).settings.maxFrameBody.toNat buffer =
      if missing = [] then .frame (terms first link).reject.toFrame [] else .incomplete := by
  refine FrameStream.front_of_prefix hwhole ?_ (size_of_short (Handshake.Response.length_encode_lt _))
  rw [(h.same link.dialer).settings, ← hmeet.reject_eq link]
  exact (hmeet.ask link.dialer).reject

theorem front_nil (limit : Nat) : FrameStream.front limit [] = .incomplete :=
  rfl

/-! ## The dialing node -/

theorem buffer_of_some {this : End} (hsession : this.session = some session) :
    this.buffer = session.buffer := by
  rw [End.buffer, hsession]
  rfl

theorem hasEnded_of_some {this : End} (hsession : this.session = some session) :
    this.hasEnded = session.ended := by
  rw [End.hasEnded, hsession]
  rfl

/-- A session that reads finds nothing to do. -/
theorem Sound.waits {side : Side} (h : Sound first meeting)
    (hsession : (meeting.node side).sessions.find? conn = some session)
    (hlate : (meeting.node side).isLate conn = false) (hstage : session.stage = .reading)
    (hopen : ((meeting.node side).endOf conn).place.isClosed = false)
    (hfront : FrameStream.front (meeting.node side).settings.maxFrameBody.toNat session.buffer =
      .incomplete)
    (hended : session.ended = false) :
    Sound first (meeting.update side ((meeting.node side).stepSession conn heeds)) :=
  h.stays (h.knows_of_session hsession)
    ((h.steady side).turn_waits hsession hstage hopen hlate hfront hended)

/-- A dial ends that was refused, because somebody is active or the other node dials. -/
theorem Sound.near_ends (h : Sound first meeting) (hlink : meeting.HasLink index link)
    (hnear : link.near = some conn) (hdialed : ((meeting.node link.dialer).endOf conn).place = .dialed)
    (hreason : meeting.refusable first link.dialer)
    (hunsent : ((meeting.node link.dialer).endOf conn).unsent = [])
    (hfar : (meeting.endAt link link.dialer.other).IsRefusing ∨
      (meeting.endAt link link.dialer.other).IsRejecting ∨
      (meeting.endAt link link.dialer.other).IsGone)
    (hbecomes : Endpoint.Becomes (hashOf first link.dialer.other) conn (meeting.node link.dialer)
      ((meeting.node link.dialer).stepSession conn heeds)
      { (meeting.node link.dialer).endOf conn with place := .closed, session := none }) :
    Sound first (meeting.update link.dialer ((meeting.node link.dialer).stepSession conn heeds)) := by
  refine h.turned_near hlink hnear ⟨hbecomes, ?_, ?_, fun _ => Or.inr (Or.inr hreason)⟩ ?_
  · rw [hdialed]
    intro hactive
    cases hactive
  · simp [Place.closed, Place.unknown]
  · exact Course.ended ⟨rfl, fun _ hnone => by cases hnone⟩ hfar (Or.inl hunsent)

/-- The session of a dial that is closed stops. -/
theorem Sound.near_stops (h : Sound first meeting) (hlink : meeting.HasLink index link)
    (hnear : link.near = some conn)
    (hsession : (meeting.node link.dialer).sessions.find? conn = some session)
    (hlost : ((meeting.node link.dialer).endOf conn).IsLost) :
    Sound first (meeting.update link.dialer ((meeting.node link.dialer).stepSession conn heeds)) := by
  have hclosed : ((meeting.node link.dialer).endOf conn).place = .closed := hlost.1
  have hturned : Turned first meeting link.dialer conn ((meeting.node link.dialer).stepSession conn heeds)
      { (meeting.node link.dialer).endOf conn with place := .closed, session := none } := by
    have hasks := hlost.2 session hsession
    refine ⟨(h.steady link.dialer).turn_cancelled hsession hasks.stage hasks.phase hasks.peer
      hclosed, ?_, ?_, ?_⟩
    · rw [hclosed]
      exact id
    · simp [Place.closed, Place.unknown]
    · rw [hclosed]
      intro hdialed
      cases hdialed
  have hcourse := (h.stands index link hlink).course
  rw [endAt_some ((handle_dialer link).trans hnear)] at hcourse
  exact h.turned_near hlink hnear hturned
    ((hcourse.stops_near hclosed).mono (hturned.yields _) (hturned.refusable _))

/-- A dial that waits has one session, which reads. -/
theorem asking_session (hnear : link.near = some conn)
    (hsession : (meeting.node link.dialer).sessions.find? conn = some session)
    (hasks : (meeting.endAt link link.dialer).IsAsking link.target) :
    session.stage = .reading ∧ session.phase = .awaitingResponse ∧
      session.dialed = some link.target ∧
        ((meeting.node link.dialer).endOf conn).place = .dialed := by
  rw [endAt_some ((handle_dialer link).trans hnear)] at hasks
  obtain ⟨hplace, found, hfound, hwaits, hdialed⟩ := hasks
  obtain rfl := Option.some.inj (hsession.symm.trans hfound)
  exact ⟨hwaits.stage, hwaits.phase, hdialed, hplace⟩

/-- A dial whose request is refused ends once it knows. -/
theorem Sound.near_refused (h : Sound first meeting) (hmeet : CanMeet first)
    (hlink : meeting.HasLink index link) (hnear : link.near = some conn)
    (hsession : (meeting.node link.dialer).sessions.find? conn = some session)
    (hlate : (meeting.node link.dialer).isLate conn = false)
    (hasks : (meeting.endAt link link.dialer).IsAsking link.target)
    (hfar : (meeting.endAt link link.dialer.other).IsRefusing ∨
      (meeting.endAt link link.dialer.other).IsRejecting ∨
      (meeting.endAt link link.dialer.other).IsGone)
    (hrequest : toFar (meeting.endAt link link.dialer) (meeting.endAt link link.dialer.other) = [])
    (hanswer : toNear (meeting.endAt link link.dialer) (meeting.endAt link link.dialer.other) <+:
      (terms first link).reject.toFrame.encode)
    (hreason : meeting.refusable first link.dialer) :
    Sound first (meeting.update link.dialer ((meeting.node link.dialer).stepSession conn heeds)) := by
  have hsteady := h.steady link.dialer
  have hhere : meeting.endAt link link.dialer = (meeting.node link.dialer).endOf conn :=
    endAt_some ((handle_dialer link).trans hnear)
  obtain ⟨hstage, hphase, hdialed, hplace⟩ := asking_session hnear hsession hasks
  have hopen : ((meeting.node link.dialer).endOf conn).place.isClosed = false := by rw [hplace]; rfl
  obtain ⟨_, _, hunsent⟩ := append_eq_nil hrequest
  rw [hhere] at hunsent
  have hbuffer : (meeting.endAt link link.dialer).buffer = session.buffer := by
    rw [hhere]
    exact buffer_of_some hsession
  obtain ⟨rest, hrest⟩ := hanswer
  rw [toNear, hbuffer, List.append_assoc, List.append_assoc] at hrest
  have hfront := h.front_reject hmeet link hrest
  split at hfront
  · exact h.near_ends hlink hnear hplace hreason hunsent hfar
      (hsteady.turn_rejected hsession hstage hphase hplace rfl hfront)
  · cases hended : session.ended with
    | false => exact h.waits hsession hlate hstage hopen hfront hended
    | true =>
        exact h.near_ends hlink hnear hplace hreason hunsent hfar
          (hsteady.turn_ended hsession hstage hopen hfront hended)

theorem isSelf_congr {registry after : Registry} (hself : after.self = registry.self) (node : Node) :
    after.isSelf node = registry.isSelf node := by
  simp only [Registry.isSelf, hself]

/-- A dial whose request is accepted is active once it knows. -/
theorem Sound.near_joins (h : Sound first meeting) (hmeet : CanMeet first)
    (hlink : meeting.HasLink index link) (hnear : link.near = some conn)
    (hsession : (meeting.node link.dialer).sessions.find? conn = some session)
    (hlate : (meeting.node link.dialer).isLate conn = false)
    (hasks : (meeting.endAt link link.dialer).IsAsking link.target)
    (hfar : (meeting.endAt link link.dialer.other).IsHost)
    (hrequest : toFar (meeting.endAt link link.dialer) (meeting.endAt link link.dialer.other) = [])
    (hanswer : toNear (meeting.endAt link link.dialer) (meeting.endAt link link.dialer.other) =
      (terms first link).accept.toFrame.encode)
    (hnearOpen : (meeting.endAt link link.dialer).hasEnded = false)
    (hfarOpen : (meeting.endAt link link.dialer.other).hasEnded = false) :
    Sound first (meeting.update link.dialer ((meeting.node link.dialer).stepSession conn heeds)) := by
  have hsteady := h.steady link.dialer
  have hhere : meeting.endAt link link.dialer = (meeting.node link.dialer).endOf conn :=
    endAt_some ((handle_dialer link).trans hnear)
  obtain ⟨hstage, hphase, hdialed, hplace⟩ := asking_session hnear hsession hasks
  have hopen : ((meeting.node link.dialer).endOf conn).place.isClosed = false := by rw [hplace]; rfl
  rw [hhere] at hrequest hanswer hnearOpen
  have hsome : ((meeting.node link.dialer).endOf conn).session = some session := hsession
  rw [hasEnded_of_some hsome] at hnearOpen
  rw [toNear, buffer_of_some hsome, List.append_assoc] at hanswer
  have hfront := h.front_accept hmeet link hanswer
  split at hfront
  · rename_i hmissing
    have hhonest := h.honest index link hlink
    have hself : (meeting.node link.dialer).registry.isSelf link.target = false :=
      (isSelf_congr (h.same link.dialer).self _).trans hhonest.notSelf
    have hroom : 0 < (meeting.node link.dialer).registry.limits.maxActive := by
      rw [(h.same link.dialer).limits]
      exact h.roomy link.dialer conn (h.knows_of_session hsession)
    obtain ⟨next, hreads, hrest, hended, hbecomes⟩ := hsteady.turn_accepted hsession hstage hphase
      hplace hdialed hself hhonest.target hroom rfl hfront
    refine h.turned_near hlink hnear ⟨hbecomes, fun _ => rfl, ?_, fun _ => Or.inr (Or.inl rfl)⟩ ?_
    · simp [Place.active, Place.unknown]
    · refine Course.agreed ⟨rfl, next, rfl, hreads⟩ hfar hrequest ?_ (hended.trans hnearOpen) hfarOpen
      rw [toNear, buffer_of_some rfl, hrest, List.append_assoc, hmissing]
      rfl
  · exact h.waits hsession hlate hstage hopen hfront hnearOpen

/-- The session of a dial for which nothing has come finds nothing to do. -/
theorem Sound.near_idle (h : Sound first meeting) (hnear : link.near = some conn)
    (hsession : (meeting.node link.dialer).sessions.find? conn = some session)
    (hlate : (meeting.node link.dialer).isLate conn = false) (hstage : session.stage = .reading)
    (hplace : (meeting.endAt link link.dialer).place.isClosed = false)
    (hanswer : toNear (meeting.endAt link link.dialer) (meeting.endAt link link.dialer.other) = [])
    (hnearOpen : (meeting.endAt link link.dialer).hasEnded = false) :
    Sound first (meeting.update link.dialer ((meeting.node link.dialer).stepSession conn heeds)) := by
  have hsome : ((meeting.node link.dialer).endOf conn).session = some session := hsession
  rw [endAt_some ((handle_dialer link).trans hnear)] at hplace hanswer hnearOpen
  refine h.waits hsession hlate hstage hplace ?_ ((hasEnded_of_some hsome).symm.trans hnearOpen)
  rw [← buffer_of_some hsome, (append_eq_nil hanswer).1]
  exact front_nil _

/-- The session that reads a dial takes a step. -/
theorem Sound.near_turn (h : Sound first meeting) (hmeet : CanMeet first)
    (hlink : meeting.HasLink index link) (hnear : link.near = some conn)
    (hsession : (meeting.node link.dialer).sessions.find? conn = some session)
    (hlate : (meeting.node link.dialer).isLate conn = false) :
    Sound first (meeting.update link.dialer ((meeting.node link.dialer).stepSession conn heeds)) := by
  have hhere : meeting.endAt link link.dialer = (meeting.node link.dialer).endOf conn :=
    endAt_some ((handle_dialer link).trans hnear)
  have hsome : (meeting.endAt link link.dialer).session = some session := by
    rw [hhere]
    exact hsession
  have hcourse := (h.stands index link hlink).course
  cases hcourse with
  | unregistered hblank =>
      rw [hblank] at hsome
      cases hsome
  | asking hasks hfar hrequest hanswer hnearOpen hfarOpen =>
      have hstage := (asking_session hnear hsession hasks).1
      exact h.near_idle hnear hsession hlate hstage (by rw [hasks.1]; rfl) hanswer hnearOpen
  | dropped hlost => exact h.near_stops hlink hnear hsession (hhere ▸ hlost)
  | deciding hasks hfar hrequest hanswer hnearOpen hfarOpen =>
      have hstage := (asking_session hnear hsession hasks).1
      exact h.near_idle hnear hsession hlate hstage (by rw [hasks.1]; rfl) hanswer hnearOpen
  | overtaken hlost => exact h.near_stops hlink hnear hsession (hhere ▸ hlost)
  | refused hasks hfar hrequest hanswer hreason =>
      refine h.near_refused hmeet hlink hnear hsession hlate hasks (Or.inl hfar) hrequest ?_ hreason
      rw [hanswer]
      exact List.nil_prefix
  | rejected hasks hfar hrequest hanswer hreason =>
      exact h.near_refused hmeet hlink hnear hsession hlate hasks (Or.inr hfar) hrequest hanswer
        hreason
  | accepted hasks hfar hrequest hanswer hnearOpen hfarOpen =>
      exact h.near_joins hmeet hlink hnear hsession hlate hasks hfar hrequest hanswer hnearOpen
        hfarOpen
  | agreed hjoined hfar hrequest hanswer hnearOpen hfarOpen =>
      obtain ⟨hplace, found, hfound, hstage⟩ := hjoined
      obtain rfl := Option.some.inj (hsome.symm.trans hfound)
      exact h.near_idle hnear hsession hlate hstage (by rw [hplace]; rfl) hanswer hnearOpen
  | ended hlost => exact h.near_stops hlink hnear hsession (hhere ▸ hlost)

end Meeting

end Peering
