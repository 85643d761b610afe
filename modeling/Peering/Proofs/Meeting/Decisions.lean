import Peering.Proofs.Meeting.Progress

/-!
# Requests are decided

What the accepting node does with a request. The case that matters is the one in
which it becomes active: its own dial, if it has one, yields, and that dial can
be anywhere on its course but accepted.
-/

namespace Peering

namespace Meeting

variable {first : Side → Endpoint} {meeting after : Meeting} {side : Side} {endpoint : Endpoint}
  {link : Link} {index : Nat} {conn : ConnId} {session : Session} {new : End}
  {heeds : Bool}

/-! ## Who is active -/

theorem joined_of_end (link : Link) (hactive : (meeting.endAt link side).place.isActive = true) :
    meeting.joined side := by
  cases hhandle : link.handle side with
  | none =>
      rw [endAt, hhandle] at hactive
      cases hactive
  | some conn =>
      rw [endAt_some hhandle] at hactive
      exact ⟨conn, hactive⟩

theorem dialing_of_end (link : Link) (hdialed : (meeting.endAt link side).place.isDialed = true) :
    meeting.dialing side := by
  cases hhandle : link.handle side with
  | none =>
      rw [endAt, hhandle] at hdialed
      cases hdialed
  | some conn =>
      rw [endAt_some hhandle] at hdialed
      exact ⟨conn, hdialed⟩

/-- Whoever is active is active with a node that is active too, or will be once it has its answer. -/
theorem Sound.joined_other (h : Sound first meeting) (hjoined : meeting.joined side) :
    meeting.joined side.other ∨ meeting.dialing side.other := by
  obtain ⟨conn, hactive⟩ := hjoined
  obtain ⟨index, link, hlink, hplace⟩ := h.end_of_place (Place.ne_unknown_of_active hactive)
  rw [← hplace] at hactive
  have hcourse := (h.stands index link hlink).course
  rcases eq_or_eq_other link.dialer side with rfl | rfl
  · left
    apply joined_of_end link
    rw [(hcourse.near_active hactive).2.1]
    rfl
  · rw [other_other]
    rcases (hcourse.far_active hactive).2 with hasks | hjoins
    · right
      apply dialing_of_end link
      rw [hasks.1]
      rfl
    · left
      apply joined_of_end link
      rw [hjoins.1]
      rfl

/-! ## A node joins -/

/-- A node becomes active on one of its ends. -/
structure Joined (first : Side → Endpoint) (meeting : Meeting) (side : Side) (conn : ConnId)
    (endpoint : Endpoint) (new : End) : Prop where
  joins : Endpoint.Joins (hashOf first side.other) conn (meeting.node side) endpoint new
  was : ((meeting.node side).endOf conn).place = .accepted
  active : new.place = .active
  /-- A dial of a node with the larger hash may yield. -/
  larger : meeting.dialing side → hashOf first side.other < hashOf first side

namespace Joined

theorem placeOf (h : Joined first meeting side conn endpoint new) {other : ConnId}
    (hother : other ≠ conn) :
    endpoint.registry.placeOf other =
      if ((meeting.node side).registry.placeOf other).isDialed then .closed
      else (meeting.node side).registry.placeOf other := by
  have hplace := congrArg End.place (h.joins.others other hother)
  apply hplace.trans
  unfold End.yielded
  split <;> rename_i hdialed
  · exact (if_pos hdialed).symm
  · exact (if_neg hdialed).symm

theorem isJoined (h : Joined first meeting side conn endpoint new) :
    (meeting.update side endpoint).joined side := by
  refine ⟨conn, ?_⟩
  rw [update_self]
  have hplace : endpoint.registry.placeOf conn = new.place := congrArg End.place h.joins.here
  rw [hplace, h.active]
  rfl

theorem yields (h : Joined first meeting side conn endpoint new) (dialer : Side)
    (hyields : meeting.yields first dialer) : (meeting.update side endpoint).yields first dialer := by
  refine ⟨hyields.1, ?_⟩
  rcases eq_or_eq_other side dialer with rfl | rfl
  · exact h.isJoined
  · rw [Meeting.joined, update_other _ _ (other_ne side)]
    exact hyields.2

theorem knows (h : Joined first meeting side conn endpoint new) (other : ConnId) :
    endpoint.registry.Knows other ↔ (meeting.node side).registry.Knows other := by
  rw [Registry.knows_iff_place, Registry.knows_iff_place]
  by_cases hother : other = conn
  · have hnew : endpoint.registry.placeOf other = .active := by
      rw [hother]
      exact (congrArg End.place h.joins.here).trans h.active
    have hold : (meeting.node side).registry.placeOf other = .accepted := by
      rw [hother]
      exact h.was
    rw [hnew, hold]
    decide
  · rw [h.placeOf hother]
    split
    · rename_i hdialed
      refine ⟨fun _ hunknown => ?_, fun _ => by decide⟩
      rw [hunknown] at hdialed
      cases hdialed
    · exact Iff.rfl

end Joined

/-- Whoever dials is not active. -/
theorem Sound.not_joined (h : Sound first meeting) (hdialing : meeting.dialing side) :
    ¬meeting.joined side :=
  (h.steady side).deals.not_joined hdialing

/-- The other connections stand when a node has joined, though one that it has dialed yields. -/
theorem Sound.stands_joined (h : Sound first meeting)
    (hjoined : Joined first meeting link.dialer.other conn endpoint new)
    (hwaits : ¬meeting.joined link.dialer) {other : Nat} {found : Link}
    (hfound : meeting.HasLink other found) (hother : found.handle link.dialer.other ≠ some conn) :
    (meeting.update link.dialer.other endpoint).Stands first found := by
  have hback : link.dialer.other.other = link.dialer := other_other _
  have hthere : (meeting.update link.dialer.other endpoint).endAt found link.dialer =
      meeting.endAt found link.dialer := endAt_update_other _ (other_ne link.dialer).symm
  have hhere : (meeting.update link.dialer.other endpoint).endAt found link.dialer.other =
      (meeting.endAt found link.dialer.other).yielded := by
    cases hwas : found.handle link.dialer.other with
    | none =>
        rw [endAt, endAt, hwas]
        rfl
    | some there =>
        rw [endAt_update_self hwas, endAt_some hwas]
        apply hjoined.joins.others there
        rintro rfl
        exact hother hwas
  obtain ⟨hbefore, hquiet⟩ := h.stands other found hfound
  have hreason : (meeting.update link.dialer.other endpoint).refusable first found.dialer :=
    Or.inl ⟨_, hjoined.isJoined⟩
  have hafter := hbefore.mono (hjoined.yields found.dialer) fun _ => hreason
  -- the node that joins has dialed the connection, or has been dialed
  rcases eq_or_eq_other link.dialer.other found.dialer with hdialer | hdialer
  · have hfar : found.dialer.other = link.dialer := by rw [hdialer, hback]
    rw [← hdialer] at hhere
    refine ⟨?_, ?_⟩
    · rw [hfar, hthere, ← hdialer, hhere]
      rw [hfar, ← hdialer] at hafter
      apply hafter.yields_near
      intro hdialed
      refine ⟨⟨?_, ?_⟩, ?_⟩
      · have hless := hjoined.larger (hdialer ▸ dialing_of_end _ hdialed)
        rwa [hback, ← hfar, other_other] at hless
      · have hjoins := hjoined.isJoined
        rwa [← hdialer] at hjoins
      · intro hhost
        refine hwaits (joined_of_end found ?_)
        rw [hhost.1]
        rfl
    · rw [hfar, hthere, ← hfar]
      exact hquiet
  · rw [hback] at hdialer
    have hkept : (meeting.endAt found link.dialer.other).yielded =
        meeting.endAt found link.dialer.other := by
      have hplace := hbefore.far_not_dialed
      rw [hdialer] at hplace
      rw [End.yielded, if_neg (by simp [hplace])]
    rw [hkept] at hhere
    refine ⟨?_, ?_⟩
    · rw [hdialer] at hafter ⊢
      rw [hthere, hhere]
      exact hafter
    · rw [hdialer, hhere, ← hdialer]
      exact hquiet

/-- A node becomes active with a node that waits for its answer. -/
theorem Sound.joins (h : Sound first meeting)
    (hjoined : Joined first meeting link.dialer.other conn endpoint new)
    (hlink : meeting.HasLink index link) (hfar : link.far = some conn)
    (hasks : (meeting.endAt link link.dialer).IsAsking link.target)
    (hcourse : Course (terms first link) False False (meeting.endAt link link.dialer) new)
    (hsilent : new.unsent = []) : Sound first (meeting.update link.dialer.other endpoint) := by
  have hhandle : link.handle link.dialer.other = some conn := (handle_other link).trans hfar
  have hwaits : ¬meeting.joined link.dialer := by
    refine h.not_joined (dialing_of_end link ?_)
    rw [hasks.1]
    rfl
  refine h.of_nodes rfl ?_ ?_ ?_ ?_ fun _ => Or.inl ⟨_, hjoined.isJoined⟩
  · exact forall_update (fun found node => node.Steady (hashOf first found.other))
      hjoined.joins.steady (h.steady _)
  · exact forall_update (fun found node => (meeting.node found).IsSame node)
      hjoined.joins.same (Endpoint.IsSame.refl _)
  · exact forall_update (fun found node => ∀ conn, node.registry.Knows conn ↔
      (meeting.node found).registry.Knows conn) hjoined.knows fun _ => Iff.rfl
  · intro other found hfound
    by_cases hsame : found.handle link.dialer.other = some conn
    · obtain rfl := h.same_link hlink hfound hhandle hsame
      have hthere : (meeting.update found.dialer.other endpoint).endAt found found.dialer =
          meeting.endAt found found.dialer := endAt_update_other _ (other_ne found.dialer).symm
      have hhere : (meeting.update found.dialer.other endpoint).endAt found found.dialer.other = new :=
        (endAt_update_self hhandle).trans hjoined.joins.here
      refine ⟨?_, ?_⟩
      · rw [hhere, hthere]
        exact hcourse.mono False.elim False.elim
      · rw [hhere]
        exact hsilent
    · exact h.stands_joined hjoined hwaits hfound hsame

/-! ## The accepting node -/

/-- The accepting end goes on to a later point of the course. -/
theorem Sound.far_goes (h : Sound first meeting) (hlink : meeting.HasLink index link)
    (hfar : link.far = some conn)
    (hbecomes : Endpoint.Becomes (hashOf first link.dialer.other.other) conn
      (meeting.node link.dialer.other) endpoint new)
    (hplace : ((meeting.node link.dialer.other).endOf conn).place = .accepted ∨
      ((meeting.node link.dialer.other).endOf conn).place = .active ∧ new.place = .active)
    (hknown : new.place ≠ .unknown)
    (hcourse : Course (terms first link) (meeting.yields first link.dialer)
      (meeting.refusable first link.dialer) (meeting.endAt link link.dialer) new)
    (hsilent : new.unsent = ((meeting.node link.dialer.other).endOf conn).unsent) :
    Sound first (meeting.update link.dialer.other endpoint) := by
  have hturned : Turned first meeting link.dialer.other conn endpoint new := by
    refine ⟨hbecomes, ?_, hknown, ?_⟩
    · intro hactive
      rcases hplace with haccepted | ⟨_, hnew⟩
      · rw [haccepted] at hactive
        cases hactive
      · rw [hnew]
        rfl
    · intro hdialed
      rcases hplace with haccepted | ⟨hold, _⟩
      · rw [haccepted] at hdialed
        cases hdialed
      · rw [hold] at hdialed
        cases hdialed
  apply h.turned_far hlink hfar hturned (hcourse.mono (hturned.yields _) (hturned.refusable _))
  have hwas := (h.stands index link hlink).silent
  rw [endAt_some ((handle_other link).trans hfar)] at hwas
  exact hsilent.trans hwas

/-- The accepting node reads what is there of a request. -/
theorem Sound.far_reads (h : Sound first meeting) (hmeet : CanMeet first)
    (hlink : meeting.HasLink index link) (hfar : link.far = some conn)
    (hsession : (meeting.node link.dialer.other).sessions.find? conn = some session)
    (hlate : (meeting.node link.dialer.other).isLate conn = false)
    (hawaits : ((meeting.node link.dialer.other).endOf conn).IsAwaiting link.origin)
    (hrequest : toFar (meeting.endAt link link.dialer)
        ((meeting.node link.dialer.other).endOf conn) = [] ∨
      toFar (meeting.endAt link link.dialer) ((meeting.node link.dialer.other).endOf conn) <+:
        (terms first link).request.toFrame.encode)
    (hdecides : ∀ next : End,
      next.unread = ((meeting.node link.dialer.other).endOf conn).unread →
      next.hasEnded = session.ended → next.buffer = [] → next.owed = [] →
      next.IsDeciding (terms first link).isCaller →
      toFar (meeting.endAt link link.dialer) ((meeting.node link.dialer.other).endOf conn) =
        (terms first link).request.toFrame.encode →
      toFar (meeting.endAt link link.dialer) next = [] →
      Course (terms first link) (meeting.yields first link.dialer)
        (meeting.refusable first link.dialer) (meeting.endAt link link.dialer) next)
    (hends : session.ended = true → ∀ next : End, next.IsGone →
      Course (terms first link) (meeting.yields first link.dialer)
        (meeting.refusable first link.dialer) (meeting.endAt link link.dialer) next) :
    Sound first (meeting.update link.dialer.other
      ((meeting.node link.dialer.other).stepSession conn heeds)) := by
  have hsteady := h.steady link.dialer.other
  have hsome : ((meeting.node link.dialer.other).endOf conn).session = some session := hsession
  obtain ⟨hplace, found, hfound, hstage, hphase, hip⟩ := hawaits
  obtain rfl := Option.some.inj (hsome.symm.trans hfound)
  have hopen : ((meeting.node link.dialer.other).endOf conn).place.isClosed = false := by
    rw [hplace]
    rfl
  have hidle : FrameStream.front (meeting.node link.dialer.other).settings.maxFrameBody.toNat
      session.buffer = .incomplete →
      Sound first (meeting.update link.dialer.other
        ((meeting.node link.dialer.other).stepSession conn heeds)) := by
    intro hfront
    cases hended : session.ended with
    | false => exact h.waits hsession hlate hstage hopen hfront hended
    | true =>
        exact h.far_goes hlink hfar (hsteady.turn_ended hsession hstage hopen hfront hended)
          (Or.inl hplace) (by simp [Place.closed, Place.unknown]) (hends hended _ ⟨rfl, rfl⟩) rfl
  rw [toFar, buffer_of_some hsome] at hrequest
  rcases hrequest with hnone | ⟨rest, hrest⟩
  · apply hidle
    rw [(append_eq_nil hnone).1]
    exact front_nil _
  · have hwhole := hrest
    rw [List.append_assoc, List.append_assoc] at hrest
    have hfront := h.front_request hmeet link hrest
    split at hfront
    · rename_i hmissing
      obtain ⟨hunread, hlater⟩ := List.append_eq_nil_iff.mp hmissing
      obtain ⟨hunsent, hmore⟩ := List.append_eq_nil_iff.mp hlater
      have hcheck : (terms first link).request.cut.check
          (meeting.node link.dialer.other).settings.chainId
          (meeting.node link.dialer.other).handlers.versions = .ok () := by
        rw [(h.same link.dialer.other).settings, (h.same link.dialer.other).handlers]
        exact (hmeet.ask link.dialer).check
      refine h.far_goes hlink hfar
        (hsteady.turn_request hsession hstage hphase hplace hfront hcheck) (Or.inl hplace) ?_ ?_ rfl
      · rw [hplace]
        decide
      · refine hdecides _ rfl rfl rfl rfl ⟨hplace, _, rfl, _, rfl, ?_, ?_⟩ ?_ ?_
        · exact (hmeet.unmet link.dialer).self.symm
        · rw [← (h.honest index link hlink).caller, ← hip]
          rfl
        · rw [toFar, buffer_of_some hsome, ← hwhole, hmore, List.append_nil]
        · rw [toFar, hunread, hunsent]
          rfl
    · exact hidle hfront

theorem Sound.hash_eq (h : Sound first meeting) (side : Side) :
    (meeting.node side).registry.self.idHash = hashOf first side := by
  rw [hashOf, (h.same side).self]

/-- The accepting node decides a request, if it has the socket. -/
theorem Sound.far_decides (h : Sound first meeting) (hmeet : CanMeet first)
    (hlink : meeting.HasLink index link) (hfar : link.far = some conn)
    (hsession : (meeting.node link.dialer.other).sessions.find? conn = some session)
    (hdecides : ((meeting.node link.dialer.other).endOf conn).IsDeciding (terms first link).isCaller)
    (hrefuses : meeting.refusable first link.dialer → ∀ next : End,
      next.unread = ((meeting.node link.dialer.other).endOf conn).unread →
      next.buffer = session.buffer → next.owed = [] → next.IsRefusing →
      Course (terms first link) (meeting.yields first link.dialer)
        (meeting.refusable first link.dialer) (meeting.endAt link link.dialer) next)
    (hjoins : ¬meeting.yields first link.dialer →
      (meeting.endAt link link.dialer).IsAsking link.target ∧ ∀ next : End,
        next.unread = ((meeting.node link.dialer.other).endOf conn).unread →
        next.buffer = session.buffer → next.hasEnded = session.ended →
        next.owed = (terms first link).accept.toFrame.encode → next.IsHost →
        Course (terms first link) False False (meeting.endAt link link.dialer) next) :
    Sound first (meeting.update link.dialer.other
      ((meeting.node link.dialer.other).stepSession conn heeds)) := by
  have hsteady := h.steady link.dialer.other
  have hsome : ((meeting.node link.dialer.other).endOf conn).session = some session := hsession
  obtain ⟨hplace, found, hfound, caller, hstage, hhash, hself⟩ := hdecides
  obtain rfl := Option.some.inj (hsome.symm.trans hfound)
  have hpeer : caller.idHash = hashOf first link.dialer.other.other := by
    rw [other_other]
    exact hhash
  have hother : (meeting.node link.dialer.other).registry.isSelf caller = false :=
    (isSelf_congr (h.same link.dialer.other).self _).trans hself
  have hroom : 0 < (meeting.node link.dialer.other).registry.limits.maxActive := by
    rw [(h.same link.dialer.other).limits]
    exact h.roomy link.dialer.other conn (h.knows_of_session hsession)
  rcases hsteady.turn_accepting hsession hstage hplace hother hpeer hroom with
    hstays | ⟨hreason, hbecomes⟩ | ⟨hfree, hlarger, hbecomes⟩
  · exact h.stays (h.knows_of_session hsession) hstays
  · have hrefusable : meeting.refusable first link.dialer := by
      rcases hreason with hjoined | ⟨hdialing, hless⟩
      · exact Or.inl ⟨_, hjoined⟩
      · right
        rw [h.hash_eq, other_other] at hless
        exact ⟨UInt32.lt_of_le_of_ne (UInt32.not_lt.mp hless) (hmeet.distinct _).symm, hdialing⟩
    refine h.far_goes hlink hfar hbecomes (Or.inl hplace) ?_
      (hrefuses hrefusable _ rfl rfl rfl ⟨hplace, _, rfl, rfl⟩) rfl
    rw [hplace]
    decide
  · have hless : meeting.dialing link.dialer.other →
        hashOf first link.dialer.other.other < hashOf first link.dialer.other := by
      intro hdialing
      rw [← h.hash_eq link.dialer.other]
      exact hlarger hdialing
    have hkeeps : ¬meeting.yields first link.dialer := by
      intro hyields
      have hdialing := (h.joined_other hyields.2).resolve_left hfree
      have hgreater := hless hdialing
      rw [other_other] at hgreater
      exact absurd hgreater (UInt32.lt_asymm hyields.1)
    obtain ⟨hasks, hcourse⟩ := hjoins hkeeps
    refine h.joins ⟨hbecomes, hplace, rfl, hless⟩ hlink hfar hasks
      (hcourse _ rfl rfl rfl ?_ ⟨rfl, _, rfl, ?_⟩) ?_
    · have haccept : (meeting.node link.dialer.other).templates.accept =
          (terms first link).accept.toFrame := by
        rw [(h.same link.dialer.other).templates]
        exact hmeet.accept_eq link
      rw [← haccept]
      rfl
    · exact Or.inr ⟨_, _, rfl⟩
    · have hwas := (h.stands index link hlink).silent
      rw [endAt_some ((handle_other link).trans hfar)] at hwas
      exact hwas

/-- A refusal is answered once the accepting node has the socket. -/
theorem Sound.far_refuses (h : Sound first meeting) (hmeet : CanMeet first)
    (hlink : meeting.HasLink index link) (hfar : link.far = some conn)
    (hsession : (meeting.node link.dialer.other).sessions.find? conn = some session)
    (hrefusing : ((meeting.node link.dialer.other).endOf conn).IsRefusing)
    (hcourse : ∀ next : End, next.IsRejecting → next.buffer = session.buffer →
      next.unread = ((meeting.node link.dialer.other).endOf conn).unread →
      next.owed = (terms first link).reject.toFrame.encode →
      Course (terms first link) (meeting.yields first link.dialer)
        (meeting.refusable first link.dialer) (meeting.endAt link link.dialer) next) :
    Sound first (meeting.update link.dialer.other
      ((meeting.node link.dialer.other).stepSession conn heeds)) := by
  have hsome : ((meeting.node link.dialer.other).endOf conn).session = some session := hsession
  obtain ⟨hplace, found, hfound, hstage⟩ := hrefusing
  obtain rfl := Option.some.inj (hsome.symm.trans hfound)
  rcases (h.steady link.dialer.other).turn_refusing hsession hstage with hstays | hbecomes
  · exact h.stays (h.knows_of_session hsession) hstays
  · have hreject : (meeting.node link.dialer.other).templates.reject =
        (terms first link).reject.toFrame := by
      rw [(h.same link.dialer.other).templates]
      exact hmeet.reject_eq link
    refine h.far_goes hlink hfar hbecomes (Or.inl hplace) ?_
      (hcourse _ ⟨hplace, _, rfl, _, _, rfl⟩ rfl rfl ?_) rfl
    · rw [hplace]
      decide
    · rw [← hreject]
      rfl

/-- A rejection is written piece by piece; when all of it is written, the connection is closed. -/
theorem Sound.far_rejects (h : Sound first meeting)
    (hlink : meeting.HasLink index link) (hfar : link.far = some conn)
    (hsession : (meeting.node link.dialer.other).sessions.find? conn = some session)
    (hlate : (meeting.node link.dialer.other).isLate conn = false)
    (hrejecting : ((meeting.node link.dialer.other).endOf conn).IsRejecting)
    (hcourse : ∀ next : End, next.IsRejecting ∨ next.IsGone →
      (session.buffer = [] → next.buffer = []) →
      next.unread ++ next.owed = ((meeting.node link.dialer.other).endOf conn).unread ++
        session.owed →
      Course (terms first link) (meeting.yields first link.dialer)
        (meeting.refusable first link.dialer) (meeting.endAt link link.dialer) next) :
    Sound first (meeting.update link.dialer.other
      ((meeting.node link.dialer.other).stepSession conn heeds)) := by
  have hsome : ((meeting.node link.dialer.other).endOf conn).session = some session := hsession
  obtain ⟨hplace, found, hfound, left, deadline, hstage⟩ := hrejecting
  obtain rfl := Option.some.inj (hsome.symm.trans hfound)
  have hopen : ((meeting.node link.dialer.other).endOf conn).place.isClosed = false := by
    rw [hplace]
    rfl
  have howed : session.owed = left := by rw [Session.owed, hstage]
  obtain ⟨bytes, rest, hleft, hturn⟩ :=
    (h.steady link.dialer.other).turn_answering hsession hstage hopen hlate
  rcases hturn with ⟨hrest, _, hbecomes⟩ | ⟨next, hbuffer, _, _, hnext, hbecomes⟩
  · refine h.far_goes hlink hfar hbecomes (Or.inl hplace) (by simp [Place.closed, Place.unknown])
      (hcourse _ (Or.inr ⟨rfl, rfl⟩) (fun _ => rfl) ?_) rfl
    rw [howed, hleft, hrest, List.append_nil]
    exact List.append_nil _
  · have hstill : next.stage = .answering false rest deadline := by
      rcases hnext with ⟨_, haccepted, _⟩ | hstill
      · cases haccepted
      · exact hstill
    refine h.far_goes hlink hfar hbecomes (Or.inl hplace) ?_
      (hcourse _ (Or.inl ⟨hplace, next, rfl, _, _, hstill⟩) ?_ ?_) rfl
    · rw [hplace]
      decide
    · intro hempty
      exact hbuffer.trans hempty
    · rw [howed, hleft, ← List.append_assoc]
      apply congrArg (_ ++ ·)
      rw [End.owed, Option.map_some, Option.getD_some, Session.owed, hstill]

/-- An acceptance is written piece by piece, and then the session reads on. -/
theorem Sound.far_hosts (h : Sound first meeting)
    (hlink : meeting.HasLink index link) (hfar : link.far = some conn)
    (hsession : (meeting.node link.dialer.other).sessions.find? conn = some session)
    (hlate : (meeting.node link.dialer.other).isLate conn = false)
    (hhost : ((meeting.node link.dialer.other).endOf conn).IsHost)
    (hempty : session.buffer = []) (hended : session.ended = false)
    (hcourse : ∀ next : End, next.IsHost → next.buffer = [] → next.hasEnded = false →
      next.unread ++ next.owed = ((meeting.node link.dialer.other).endOf conn).unread ++
        session.owed →
      Course (terms first link) (meeting.yields first link.dialer)
        (meeting.refusable first link.dialer) (meeting.endAt link link.dialer) next) :
    Sound first (meeting.update link.dialer.other
      ((meeting.node link.dialer.other).stepSession conn heeds)) := by
  have hsome : ((meeting.node link.dialer.other).endOf conn).session = some session := hsession
  obtain ⟨hplace, found, hfound, hstage⟩ := hhost
  obtain rfl := Option.some.inj (hsome.symm.trans hfound)
  have hopen : ((meeting.node link.dialer.other).endOf conn).place.isClosed = false := by
    rw [hplace]
    rfl
  rcases hstage with hreads | ⟨left, deadline, hanswers⟩
  · refine h.waits hsession hlate hreads hopen ?_ hended
    rw [hempty]
    exact front_nil _
  · have howed : session.owed = left := by rw [Session.owed, hanswers]
    obtain ⟨bytes, rest, hleft, hturn⟩ :=
      (h.steady link.dialer.other).turn_answering hsession hanswers hopen hlate
    rcases hturn with ⟨_, haccepted, _⟩ | ⟨next, hbuffer, hnextEnded, _, hnext, hbecomes⟩
    · cases haccepted
    · have hnextOwed : next.owed = rest := by
        rcases hnext with ⟨hrest, _, hreads⟩ | hstill
        · rw [Session.owed, hreads, hrest]
        · rw [Session.owed, hstill]
      refine h.far_goes hlink hfar hbecomes (Or.inr ⟨hplace, hplace⟩) ?_
        (hcourse _ ⟨hplace, next, rfl, ?_⟩ (hbuffer.trans hempty) (hnextEnded.trans hended) ?_) rfl
      · rw [hplace]
        decide
      · rcases hnext with ⟨_, _, hreads⟩ | hstill
        · exact Or.inl hreads
        · exact Or.inr ⟨_, _, hstill⟩
      · rw [howed, hleft, ← List.append_assoc]
        exact congrArg (_ ++ ·) hnextOwed

/-- The session of an accepted socket takes a step. -/
theorem Sound.far_turn (h : Sound first meeting) (hmeet : CanMeet first)
    (hlink : meeting.HasLink index link) (hfar : link.far = some conn)
    (hsession : (meeting.node link.dialer.other).sessions.find? conn = some session)
    (hlate : (meeting.node link.dialer.other).isLate conn = false) :
    Sound first (meeting.update link.dialer.other
      ((meeting.node link.dialer.other).stepSession conn heeds)) := by
  have hsome : ((meeting.node link.dialer.other).endOf conn).session = some session := hsession
  have hcourse := (h.stands index link hlink).course
  rw [endAt_some ((handle_other link).trans hfar)] at hcourse
  have hreads : ((meeting.node link.dialer.other).endOf conn).IsFresh link.origin →
      ((meeting.node link.dialer.other).endOf conn).IsAwaiting link.origin := by
    intro hfresh
    rcases hfresh with hblank | hawaits
    · rw [hblank] at hsome
      cases hsome
    · exact hawaits
  have hfarEnded := hasEnded_of_some hsome
  have hfarBuffer := buffer_of_some hsome
  have hkept : ∀ {next : End}, next.buffer = session.buffer →
      ((meeting.node link.dialer.other).endOf conn).buffer = [] → next.buffer = [] :=
    fun hbuffer hempty => hbuffer.trans (hfarBuffer.symm.trans hempty)
  have hfarOwed : ((meeting.node link.dialer.other).endOf conn).owed = session.owed := by
    rw [End.owed, hsome]
    rfl
  have htoNear : ∀ {next : End},
      next.unread ++ next.owed = ((meeting.node link.dialer.other).endOf conn).unread ++
        session.owed →
      toNear (meeting.endAt link link.dialer) next =
        toNear (meeting.endAt link link.dialer) ((meeting.node link.dialer.other).endOf conn) := by
    intro next hbytes
    rw [toNear, toNear, hfarOwed, List.append_assoc, List.append_assoc, hbytes]
  cases hcourse with
  | unregistered hblank hfresh hrequest hanswer hopen =>
      refine h.far_reads hmeet hlink hfar hsession hlate (hreads hfresh) (Or.inl hrequest) ?_ ?_
      · intro next _ _ _ _ _ hwhole
        rw [hrequest] at hwhole
        exact absurd hwhole.symm (Frame.encode_ne_nil _)
      · intro hended
        rw [hfarEnded, hended] at hopen
        cases hopen
  | asking hasks hfresh hrequest hanswer hnearOpen hopen =>
      refine h.far_reads hmeet hlink hfar hsession hlate (hreads hfresh)
        (Or.inr (hrequest ▸ List.prefix_rfl)) ?_ ?_
      · intro next hunread hended hbuffer howed hdecides _ hrest
        refine .deciding hasks hdecides hrest ?_ hnearOpen (hended.trans (hfarEnded.symm.trans hopen))
        exact (toNear_of_nil hanswer hunread).trans howed
      · intro hended
        rw [hfarEnded, hended] at hopen
        cases hopen
  | dropped hlost hfresh hrequest =>
      refine h.far_reads hmeet hlink hfar hsession hlate (hreads hfresh) (hrequest.imp id And.right) ?_
        ?_
      · intro next _ _ _ _ hdecides hwhole _
        refine .overtaken hlost hdecides ?_
        rcases hrequest with hnone | ⟨hyields, _⟩
        · rw [hnone] at hwhole
          exact absurd hwhole.symm (Frame.encode_ne_nil _)
        · exact hyields
      · intro _ next hgone
        refine .ended hlost (Or.inr (Or.inr hgone)) ?_
        rcases hrequest with hnone | ⟨hyields, _⟩
        · exact Or.inl (append_eq_nil hnone).2.2
        · exact Or.inr hyields
  | deciding hasks hdecides hrequest hanswer hnearOpen hopen =>
      refine h.far_decides hmeet hlink hfar hsession hdecides ?_ ?_
      · intro hreason next hunread hbuffer howed hrefusing
        exact .refused hasks hrefusing (toFar_nil hrequest (hkept hbuffer))
          ((toNear_of_nil hanswer hunread).trans howed) hreason
      · intro _
        refine ⟨hasks, ?_⟩
        intro next hunread hbuffer hended howed hhost
        exact .accepted hasks hhost (toFar_nil hrequest (hkept hbuffer))
          ((toNear_of_nil hanswer hunread).trans howed) hnearOpen
          (hended.trans (hfarEnded.symm.trans hopen))
  | overtaken hlost hdecides hyields =>
      refine h.far_decides hmeet hlink hfar hsession hdecides ?_ ?_
      · intro _ next _ _ _ hrefusing
        exact .ended hlost (Or.inl hrefusing) (Or.inr hyields)
      · intro hkeeps
        exact absurd hyields hkeeps
  | refused hasks hrefusing hrequest hanswer hreason =>
      apply h.far_refuses hmeet hlink hfar hsession hrefusing
      intro next hrejecting hbuffer hunread howed
      refine .rejected hasks (Or.inl hrejecting) (toFar_nil hrequest (hkept hbuffer)) ?_ hreason
      exact (toNear_of_nil hanswer hunread).trans howed ▸ List.prefix_rfl
  | rejected hasks hends hrequest hanswer hreason =>
      rcases hends with hrejecting | hgone
      · apply h.far_rejects hlink hfar hsession hlate hrejecting
        intro next hends hbuffer hbytes
        have hquiet := toFar_nil hrequest fun hempty => hbuffer (hfarBuffer.symm.trans hempty)
        refine .rejected hasks hends hquiet ?_ hreason
        rw [htoNear hbytes]
        exact hanswer
      · rw [hgone.2] at hsome
        cases hsome
  | accepted hasks hhost hrequest hanswer hnearOpen hopen =>
      have hused := (append_eq_nil hrequest).1
      refine h.far_hosts hlink hfar hsession hlate hhost (hfarBuffer.symm.trans hused)
        (hfarEnded.symm.trans hopen) ?_
      intro next hhost hbuffer hended hbytes
      exact .accepted hasks hhost (toFar_nil hrequest fun _ => hbuffer)
        ((htoNear hbytes).trans hanswer) hnearOpen hended
  | agreed hjoined hhost hrequest hanswer hnearOpen hopen =>
      have hused := (append_eq_nil hrequest).1
      refine h.far_hosts hlink hfar hsession hlate hhost (hfarBuffer.symm.trans hused)
        (hfarEnded.symm.trans hopen) ?_
      intro next hhost hbuffer hended hbytes
      exact .agreed hjoined hhost (toFar_nil hrequest fun _ => hbuffer)
        ((htoNear hbytes).trans hanswer) hnearOpen hended
  | ended hlost hends hsilent =>
      rcases hends with hrefusing | hrejecting | hgone
      · apply h.far_refuses hmeet hlink hfar hsession hrefusing
        intro next hrejecting _ _ _
        exact .ended hlost (Or.inr (Or.inl hrejecting)) hsilent
      · apply h.far_rejects hlink hfar hsession hlate hrejecting
        intro next hends _ _
        exact .ended hlost (Or.inr hends) hsilent
      · rw [hgone.2] at hsome
        cases hsome

end Meeting

end Peering
