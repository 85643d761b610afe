import Peering.Proofs.Meeting.Decisions

/-!
# Every step keeps a meeting sound

The steps that are left are those that open connections and those that bring
bytes and ends of streams from one node to the other. A run of any length starts
sound and stays so.
-/

namespace Peering

namespace Meeting

variable {first : Side → Endpoint} {meeting after : Meeting} {side writer : Side}
  {endpoint : Endpoint} {link next : Link} {index most : Nat} {conn source sink : ConnId} {new : End}
  {heeds : Bool}

/-! ## Sessions -/

theorem Sound.session (h : Sound first meeting) (hmeet : CanMeet first)
    (hlate : (meeting.node side).isLate conn = false) :
    Sound first (meeting.update side ((meeting.node side).stepSession conn heeds)) := by
  cases hsession : (meeting.node side).sessions.find? conn with
  | none =>
      have hidle : (meeting.node side).stepSession conn heeds = meeting.node side := by
        simp only [Endpoint.stepSession, hsession]
      rw [hidle]
      exact h.carries (Endpoint.Carries.refl (h.steady side))
  | some session =>
      obtain ⟨index, link, hlink, hhandle⟩ := h.owned side conn (h.knows_of_session hsession)
      rcases eq_or_eq_other link.dialer side with rfl | rfl
      · exact h.near_turn hmeet hlink ((handle_dialer link).symm.trans hhandle) hsession hlate
      · exact h.far_turn hmeet hlink ((handle_other link).symm.trans hhandle) hsession hlate

/-! ## Bytes and ends of streams -/

theorem placeOf_of_becomes {peer : IdHash} {old : Endpoint}
    (h : Endpoint.Becomes peer conn old endpoint new) (hplace : new.place = (old.endOf conn).place)
    (other : ConnId) : endpoint.registry.placeOf other = old.registry.placeOf other := by
  by_cases hother : other = conn
  · rw [hother]
    exact (congrArg End.place h.here).trans hplace
  · exact congrArg End.place (h.others other hother)

/-- Both nodes change: one of them hears what the other one has written. -/
theorem Sound.arrives (h : Sound first meeting) (hlink : meeting.HasLink index link)
    (hfrom : link.handle writer = some source) (hto : link.handle writer.other = some sink)
    (hlinks : after.links = meeting.links) {bytes rest : Bytes}
    (hunread : ((meeting.node writer).endOf source).unread = bytes ++ rest)
    (hread : Endpoint.Becomes (hashOf first writer.other) source (meeting.node writer)
      (after.node writer) { (meeting.node writer).endOf source with unread := rest })
    (hheard : Endpoint.Becomes (hashOf first writer.other.other) sink (meeting.node writer.other)
      (after.node writer.other) (((meeting.node writer.other).endOf sink).hears bytes)) :
    Sound first after := by
  refine h.of_places hlinks ?_ ?_ ?_ ?_
  · intro side conn
    rcases eq_or_eq_other writer side with rfl | rfl
    · exact placeOf_of_becomes hread rfl conn
    · exact placeOf_of_becomes hheard rfl conn
  · intro side
    rcases eq_or_eq_other writer side with rfl | rfl
    · exact hread.steady
    · exact hheard.steady
  · intro side
    rcases eq_or_eq_other writer side with rfl | rfl
    · exact hread.same
    · exact hheard.same
  intro hgrows other found hfound
  by_cases hsame : found.handle writer = some source
  · obtain rfl := h.same_link hlink hfound hfrom hsame
    have hhere : after.endAt found writer = { meeting.endAt found writer with unread := rest } := by
      rw [endAt_some hfrom, endAt_some hfrom]
      exact hread.here
    have hthere : after.endAt found writer.other = (meeting.endAt found writer.other).hears bytes := by
      rw [endAt_some hto, endAt_some hto]
      exact hheard.here
    have hknown : (meeting.endAt found writer.other).place ≠ .unknown := by
      rw [endAt_some hto]
      exact Registry.knows_iff_place.mp (h.known index found _ sink hlink hto)
    rw [← endAt_some hfrom] at hunread
    obtain ⟨hbefore, hsilent⟩ := h.stands index found hlink
    have hcourse := hbefore.mono (hgrows.yields _) (hgrows.refusable _)
    rcases eq_or_eq_other writer found.dialer with hdialer | hdialer
    · subst hdialer
      refine ⟨?_, ?_⟩
      · rw [hhere, hthere]
        exact hcourse.arrives_far hunread hknown
      · rw [hthere]
        exact hsilent
    · have hfar : found.dialer.other = writer := by rw [hdialer, other_other]
      subst hfar
      rw [other_other] at hthere hknown
      refine ⟨?_, ?_⟩
      · rw [hhere, hthere]
        exact hcourse.arrives_near hunread hknown
      · rw [hhere]
        exact hsilent
  · have hends : ∀ side, after.endAt found side = meeting.endAt found side := by
      intro side
      apply endAt_congr
      intro conn hhandle
      rcases eq_or_eq_other writer side with rfl | rfl
      · apply hread.others conn
        rintro rfl
        exact hsame hhandle
      · apply hheard.others conn
        rintro rfl
        obtain rfl := h.same_link hlink hfound hto hhandle
        exact hsame hfrom
    exact (h.stands other found hfound).mono (hends _) (hends _) (hgrows.yields _)
      (hgrows.refusable _)

theorem Sound.deliver (h : Sound first meeting) (hlink : meeting.HasLink index link)
    (hfrom : link.handle writer = some source) (hto : link.handle writer.other = some sink) :
    Sound first (meeting.deliver writer source sink most) := by
  obtain ⟨rest, hunread, hread⟩ := (h.steady writer).read source most
  have hwriter : (meeting.deliver writer source sink most).node writer =
      { meeting.node writer with
        transport := ((meeting.node writer).transport.read source most).1 } :=
    (update_other _ _ (other_ne writer).symm).trans (update_self ..)
  have hreader : (meeting.deliver writer source sink most).node writer.other =
      ((meeting.node writer.other).receive sink
        ((meeting.node writer).transport.read source most).2).1 :=
    update_self ..
  refine h.arrives hlink hfrom hto rfl hunread ?_ ?_
  · rw [hwriter]
    exact hread
  · rw [hreader]
    exact (h.steady writer.other).receive _

/-- Of a connection that a node knows, the other one hears the end only when it is closed. -/
theorem Sound.closed_of_ended (h : Sound first meeting)
    (hknown : (meeting.node side).registry.Knows conn)
    (hended : (meeting.node side).transport.isEnded conn = true) :
    ((meeting.node side).endOf conn).place = .closed :=
  ((h.steady side).deals.single conn).closed_of_free (Registry.knows_iff_place.mp hknown)
    ((h.steady side).not_held_of_ended hended)

theorem Sound.hearEnd (h : Sound first meeting) (hlink : meeting.HasLink index link)
    (hfrom : link.handle writer = some source) (hto : link.handle writer.other = some sink) :
    Sound first (meeting.hearEnd writer source sink) := by
  unfold Meeting.hearEnd
  dsimp only
  split
  · rename_i hend
    have hended := (Bool.and_eq_true_iff.mp hend).1
    have hclosed : (meeting.endAt link writer).place = .closed := by
      rw [endAt_some hfrom]
      exact h.closed_of_ended (h.known index link _ _ hlink hfrom) hended
    have hplace := Registry.knows_iff_place.mp (h.known index link _ sink hlink hto)
    have hturned : Turned first meeting writer.other sink ((meeting.node writer.other).endStream sink)
        ((meeting.node writer.other).endOf sink).hearsEnd :=
      ⟨(h.steady writer.other).endStream, id, hplace, Or.inl⟩
    have hcourse := (h.stands index link hlink).course.mono (hturned.yields _) (hturned.refusable _)
    rcases eq_or_eq_other writer link.dialer with hdialer | hdialer
    · subst hdialer
      have hsilent := (h.stands index link hlink).silent
      rw [endAt_some hto] at hcourse hsilent
      exact h.turned_far hlink ((handle_other link).symm.trans hto) hturned
        (hcourse.ends_far hclosed hplace) hsilent
    · have hfar : link.dialer.other = writer := by rw [hdialer, other_other]
      subst hfar
      rw [other_other] at hto hturned hcourse ⊢
      rw [endAt_some hto] at hcourse
      exact h.turned_near hlink ((handle_dialer link).symm.trans hto) hturned
        (hcourse.ends_near hclosed)
  · exact h

/-! ## New connections -/

theorem hasLink_setLink (meeting : Meeting) (hlink : meeting.HasLink index link) {other : Nat}
    {found : Link} : (meeting.setLink index next).HasLink other found ↔
      other = index ∧ found = next ∨ other ≠ index ∧ meeting.HasLink other found := by
  obtain ⟨hlength, _⟩ := List.getElem?_eq_some_iff.mp hlink
  unfold HasLink
  rw [setLink, List.getElem?_set]
  by_cases hother : other = index
  · rw [if_pos hother.symm, if_pos (hother ▸ hlength), Option.some_inj]
    simp [hother, eq_comm]
  · rw [if_neg (Ne.symm hother)]
    simp [hother]

/-- A node gives the next handle to a connection that it has no handle of yet. -/
structure Opened (first : Side → Endpoint) (meeting : Meeting) (side : Side) (link next : Link)
    (endpoint : Endpoint) (new : End) : Prop where
  becomes : Endpoint.Becomes (hashOf first side.other) (meeting.node side).registry.nextConn
    (meeting.node side) endpoint new
  blank : (meeting.node side).endOf (meeting.node side).registry.nextConn = .blank
  known : new.place ≠ .unknown
  room : 0 < (first side).registry.limits.maxActive
  free : link.handle side = none
  dialer : next.dialer = link.dialer
  target : next.target = link.target
  origin : next.origin = link.origin
  handle : next.handle side = some (meeting.node side).registry.nextConn
  other : next.handle side.other = link.handle side.other
  /-- Somebody is active or dials, if the connection is offered to the dialing registry. -/
  eager : next.near = link.near ∨ meeting.joined side ∨ meeting.dialing side ∨
    new.place.isDialed = true

namespace Opened

variable (h : Opened first meeting side link next endpoint new)
include h

theorem place_eq {other : ConnId} (hknown : (meeting.node side).registry.placeOf other ≠ .unknown) :
    endpoint.registry.placeOf other = (meeting.node side).registry.placeOf other := by
  refine congrArg End.place (h.becomes.others other ?_)
  rintro rfl
  exact hknown (congrArg End.place h.blank)

theorem grows : Grows meeting (meeting.update side endpoint) := by
  refine .of_places ?_
  exact forall_update (fun found node => ∀ conn,
      (meeting.node found).registry.placeOf conn ≠ .unknown →
        node.registry.placeOf conn = (meeting.node found).registry.placeOf conn)
    (fun _ hknown => h.place_eq hknown) fun _ _ => rfl

theorem knows (found : Side) (conn : ConnId) :
    ((meeting.update side endpoint).node found).registry.Knows conn ↔
      (meeting.node found).registry.Knows conn ∨
        found = side ∧ conn = (meeting.node side).registry.nextConn := by
  rcases eq_or_eq_other side found with rfl | rfl
  · rw [update_self]
    by_cases hconn : conn = (meeting.node found).registry.nextConn
    · refine ⟨fun _ => Or.inr ⟨rfl, hconn⟩, fun _ => ?_⟩
      rw [hconn]
      exact h.becomes.knows h.known
    · have hsame := congrArg End.place (h.becomes.others conn hconn)
      rw [Registry.knows_iff_place, Registry.knows_iff_place]
      show endpoint.registry.placeOf conn ≠ .unknown ↔ _
      rw [show endpoint.registry.placeOf conn = (meeting.node found).registry.placeOf conn from hsame]
      exact ⟨Or.inl, fun hknown => hknown.resolve_right fun hnew => hconn hnew.2⟩
  · rw [update_other _ _ (other_ne side)]
    exact ⟨Or.inl, fun hknown => hknown.resolve_right fun hnew => other_ne side hnew.1⟩

/-- A handle that a connection has after the step it had before, or it is the new one. -/
theorem handle_cases (found : Side) {conn : ConnId} (hhandle : next.handle found = some conn) :
    link.handle found = some conn ∨ found = side ∧ conn = (meeting.node side).registry.nextConn := by
  rcases eq_or_eq_other side found with rfl | rfl
  · right
    rw [h.handle] at hhandle
    exact ⟨rfl, (Option.some.inj hhandle).symm⟩
  · left
    rw [← h.other]
    exact hhandle

theorem handle_mono (found : Side) {conn : ConnId} (hhandle : link.handle found = some conn) :
    next.handle found = some conn := by
  rcases eq_or_eq_other side found with rfl | rfl
  · rw [h.free] at hhandle
    cases hhandle
  · rw [h.other]
    exact hhandle

/-- A connection has a handle of before, or it has just got the new one. -/
theorem handle_was (hlink : meeting.HasLink index link) {other : Nat} {found : Link} {some_ : Side}
    {conn : ConnId}
    (hfound : ((meeting.update side endpoint).setLink index next).HasLink other found)
    (hhandle : found.handle some_ = some conn) :
    (other = index ∧ some_ = side ∧ conn = (meeting.node side).registry.nextConn) ∨
      ∃ old, meeting.HasLink other old ∧ old.handle some_ = some conn := by
  rcases (hasLink_setLink (meeting.update side endpoint) hlink).mp hfound with ⟨rfl, rfl⟩ | ⟨_, hold⟩
  · rcases h.handle_cases some_ hhandle with hbefore | ⟨hside, hconn⟩
    · exact Or.inr ⟨link, hlink, hbefore⟩
    · exact Or.inl ⟨rfl, hside, hconn⟩
  · exact Or.inr ⟨found, hold, hhandle⟩

theorem was : meeting.endAt link side = .blank := by
  rw [endAt, h.free]

theorem here (index : Nat) :
    ((meeting.update side endpoint).setLink index next).endAt next side = new := by
  rw [endAt_some h.handle]
  show ((meeting.update side endpoint).node side).endOf _ = new
  rw [update_self]
  exact h.becomes.here

theorem there (index : Nat) :
    ((meeting.update side endpoint).setLink index next).endAt next side.other =
      meeting.endAt link side.other := by
  cases hhandle : link.handle side.other with
  | none => rw [endAt, endAt, h.other, hhandle]
  | some conn =>
      rw [endAt_some (h.other.trans hhandle), endAt_some hhandle]
      show ((meeting.update side endpoint).node side.other).endOf conn = _
      rw [update_other _ _ (other_ne side)]

end Opened

/-- No connection has the next handle yet. -/
theorem Sound.next_free (h : Sound first meeting)
    (hblank : (meeting.node side).endOf (meeting.node side).registry.nextConn = .blank)
    (hlink : meeting.HasLink index link) :
    link.handle side ≠ some (meeting.node side).registry.nextConn := by
  intro hhandle
  exact Registry.knows_iff_place.mp (h.known index link side _ hlink hhandle)
    (congrArg End.place hblank)

/-- The other connections stand where they stood when a node takes up one. -/
theorem Sound.stands_opened (h : Sound first meeting)
    (hopened : Opened first meeting side link next endpoint new) {other : Nat} {found : Link}
    (hfound : meeting.HasLink other found) :
    ((meeting.update side endpoint).setLink index next).Stands first found := by
  have hends : ∀ some_, ((meeting.update side endpoint).setLink index next).endAt found some_ =
      meeting.endAt found some_ := by
    intro some_
    apply endAt_congr
    intro conn hhandle
    rcases eq_or_eq_other side some_ with rfl | rfl
    · show ((meeting.update some_ endpoint).node some_).endOf conn = _
      rw [update_self]
      apply hopened.becomes.others conn
      rintro rfl
      exact h.next_free hopened.blank hfound hhandle
    · show ((meeting.update side endpoint).node side.other).endOf conn = _
      rw [update_other _ _ (other_ne side)]
  exact (h.stands other found hfound).mono (hends _) (hends _) (hopened.grows.yields _)
    (hopened.grows.refusable _)

/-- A node takes up a connection. -/
theorem Sound.opened (h : Sound first meeting) (hlink : meeting.HasLink index link)
    (hopened : Opened first meeting side link next endpoint new)
    (hcourse : ((meeting.update side endpoint).setLink index next).Stands first next) :
    Sound first ((meeting.update side endpoint).setLink index next) := by
  have hgrows : Grows meeting ((meeting.update side endpoint).setLink index next) :=
    ⟨hopened.grows.joined, hopened.grows.dialing⟩
  have hlinks : ∀ {other : Nat} {found : Link},
      ((meeting.update side endpoint).setLink index next).HasLink other found ↔
        other = index ∧ found = next ∨ other ≠ index ∧ meeting.HasLink other found :=
    hasLink_setLink (meeting.update side endpoint) hlink
  have hnext := hlinks.mpr (Or.inl ⟨rfl, rfl⟩)
  constructor
  case steady =>
    exact forall_update (fun found node => node.Steady (hashOf first found.other))
      hopened.becomes.steady (h.steady _)
  case same =>
    intro found
    exact (h.same found).trans (forall_update (fun found node => (meeting.node found).IsSame node)
      hopened.becomes.same (Endpoint.IsSame.refl _) found)
  case honest =>
    intro other found hfound
    rcases hlinks.mp hfound with ⟨_, rfl⟩ | ⟨_, hold⟩
    · obtain ⟨htarget, hnear, hcaller⟩ := h.honest index link hlink
      refine ⟨?_, ?_, ?_⟩
      · rw [hopened.target, hopened.dialer]
        exact htarget
      · rw [hopened.target, hopened.dialer]
        exact hnear
      · rw [hopened.origin, hopened.dialer]
        exact hcaller
    · exact h.honest other found hold
  case owned =>
    intro found conn hknown
    rcases (hopened.knows found conn).mp hknown with hbefore | ⟨rfl, rfl⟩
    · obtain ⟨other, old, hold, hhandle⟩ := h.owned found conn hbefore
      by_cases hother : other = index
      · have hsame : old = link := Option.some.inj (hold.symm.trans (hother ▸ hlink))
        exact ⟨index, next, hnext, hopened.handle_mono found (hsame ▸ hhandle)⟩
      · exact ⟨other, old, hlinks.mpr (Or.inr ⟨hother, hold⟩), hhandle⟩
    · exact ⟨index, next, hnext, hopened.handle⟩
  case known =>
    intro other found some_ conn hfound hhandle
    apply (hopened.knows some_ conn).mpr
    rcases hopened.handle_was hlink hfound hhandle with ⟨_, hside, hconn⟩ | ⟨old, hold, hbefore⟩
    · exact Or.inr ⟨hside, hconn⟩
    · exact Or.inl (h.known other old some_ conn hold hbefore)
  case distinct =>
    intro other found third last some_ conn hfound hlast hhandle hlastHandle
    rcases hopened.handle_was hlink hfound hhandle with ⟨hother, rfl, hconn⟩ | ⟨old, hold, hbefore⟩
    · rcases hopened.handle_was hlink hlast hlastHandle with ⟨hthird, _, _⟩ | ⟨old, hold, hbefore⟩
      · rw [hother, hthird]
      · exact absurd (hconn ▸ hbefore) (h.next_free hopened.blank hold)
    · rcases hopened.handle_was hlink hlast hlastHandle with ⟨_, rfl, hconn⟩ | ⟨older, holder, hthen⟩
      · exact absurd (hconn ▸ hbefore) (h.next_free hopened.blank hold)
      · exact h.distinct other old third older some_ conn hold holder hbefore hthen
  case roomy =>
    intro found conn hknown
    rcases (hopened.knows found conn).mp hknown with hbefore | ⟨rfl, _⟩
    · exact h.roomy found conn hbefore
    · exact hopened.room
  case stands =>
    intro other found hfound
    rcases hlinks.mp hfound with ⟨_, rfl⟩ | ⟨_, hold⟩
    · exact hcourse
    · exact h.stands_opened hopened hold
  case eager =>
    intro hregistered
    obtain ⟨other, found, hfound, hnear⟩ := hregistered
    have hold : next.near = link.near → (∃ some_, meeting.joined some_) ∨
        ∃ some_, meeting.dialing some_ := by
      intro hsame
      rcases hlinks.mp hfound with ⟨_, rfl⟩ | ⟨_, hbefore⟩
      · exact h.eager ⟨index, link, hlink, hsame ▸ hnear⟩
      · exact h.eager ⟨other, found, hbefore, hnear⟩
    rcases hopened.eager with hsame | hjoined | hdialing | hdialed
    · exact hgrows.eager (hold hsame)
    · exact hgrows.eager (Or.inl ⟨side, hjoined⟩)
    · exact hgrows.eager (Or.inr ⟨side, hdialing⟩)
    · refine Or.inr ⟨side, (meeting.node side).registry.nextConn, ?_⟩
      show (((meeting.update side endpoint).node side).registry.placeOf _).isDialed = true
      rw [update_self]
      rw [← hopened.becomes.here] at hdialed
      exact hdialed

theorem Sound.connect (h : Sound first meeting) {target : Node} {origin : IpAddress}
    {nearCapacity farCapacity : Nat} (htrue : meeting.isTrue side target origin = true) :
    Sound first (meeting.connect ⟨side, target, origin, nearCapacity, farCapacity, none, none⟩) := by
  have hlinks : ∀ {index : Nat} {found : Link},
      (meeting.connect ⟨side, target, origin, nearCapacity, farCapacity, none, none⟩).HasLink index
        found → meeting.HasLink index found ∨
          found = ⟨side, target, origin, nearCapacity, farCapacity, none, none⟩ := by
    intro index found hfound
    rw [HasLink, Meeting.connect, List.getElem?_append] at hfound
    split at hfound
    · exact Or.inl hfound
    · exact Or.inr (List.mem_singleton.mp (List.mem_of_getElem? hfound))
  have hbare : ∀ {index : Nat} {found : Link} {some_ : Side} {conn : ConnId},
      (meeting.connect ⟨side, target, origin, nearCapacity, farCapacity, none, none⟩).HasLink index
        found → found.handle some_ = some conn → meeting.HasLink index found := by
    intro index found some_ conn hfound hhandle
    rcases hlinks hfound with hold | rfl
    · exact hold
    · rw [Link.handle, ite_self] at hhandle
      cases hhandle
  refine ⟨h.steady, h.same, ?_, ?_, ?_, ?_, h.roomy, ?_, ?_⟩
  · intro index found hfound
    rcases hlinks hfound with hold | rfl
    · exact h.honest index found hold
    · simp only [isTrue, Bool.and_eq_true, Bool.not_eq_true', beq_iff_eq] at htrue
      obtain ⟨⟨⟨_, hhash⟩, hnear⟩, hfar⟩ := htrue
      rw [isSelf_congr (h.same _).self] at hnear hfar
      rw [(h.same side).self] at hfar
      exact ⟨hhash.trans (h.hash_eq _), hnear, hfar⟩
  · intro found conn hknown
    obtain ⟨index, link, hlink, hhandle⟩ := h.owned found conn hknown
    refine ⟨index, link, ?_, hhandle⟩
    rw [HasLink, Meeting.connect, List.getElem?_append_left (List.getElem?_eq_some_iff.mp hlink).1]
    exact hlink
  · intro index found some_ conn hfound hhandle
    exact h.known index found some_ conn (hbare hfound hhandle) hhandle
  · intro index found other last some_ conn hfound hlast hhandle hother
    exact h.distinct index found other last some_ conn (hbare hfound hhandle) (hbare hlast hother)
      hhandle hother
  · intro index found hfound
    rcases hlinks hfound with hold | rfl
    · exact ⟨(h.stands index found hold).course, (h.stands index found hold).silent⟩
    · have hblank : ∀ some_, meeting.endAt
          ⟨side, target, origin, nearCapacity, farCapacity, none, none⟩ some_ = .blank := by
        intro some_
        rw [endAt, Link.handle, ite_self]
      refine ⟨?_, congrArg End.unsent (hblank _)⟩
      exact .unregistered (hblank _) (Or.inl (hblank _)) (congr (congrArg toFar (hblank _)) (hblank _))
        (congr (congrArg toNear (hblank _)) (hblank _)) (congrArg End.hasEnded (hblank _))
  · intro hregistered
    obtain ⟨index, found, hfound, hnear⟩ := hregistered
    rcases hlinks hfound with hold | rfl
    · exact h.eager ⟨index, found, hold, hnear⟩
    · cases hnear

/-- Nothing is on its way out of a node that neither is active nor dials. -/
theorem Sound.cargo_nil (h : Sound first meeting) (hfree : ¬meeting.joined side)
    (hidle : ¬meeting.dialing side) : (meeting.node side).transport.outbox.cargo = [] := by
  apply List.eq_nil_iff_forall_not_mem.mpr
  intro load hload
  obtain ⟨⟨conn, hdest⟩, hbytes⟩ := (h.steady side).light.dialed load hload
  have hknown := (h.steady side).cargo_known conn load.2 (by rw [← hdest]; exact hload)
  obtain ⟨index, link, hlink, hhandle⟩ := h.owned side conn hknown
  have hunsent : (meeting.endAt link side).unsent = [] := by
    obtain ⟨hcourse, hsilent⟩ := h.stands index link hlink
    rcases eq_or_eq_other side link.dialer with rfl | hdialer
    · apply hcourse.unsent_nil (fun hyields => hfree hyields.2)
      exact Bool.eq_false_iff.mpr fun hdialed => hidle (dialing_of_end _ hdialed)
    · rwa [hdialer, other_other] at hsilent
  rw [endAt_some hhandle] at hunsent
  refine hbytes (List.flatMap_eq_nil_iff.mp hunsent load (List.mem_filter.mpr ⟨hload, ?_⟩))
  simpa using hdest

/-- What a registry makes of a dial is where its connection begins. -/
theorem Sound.registers (h : Sound first meeting) (hlink : meeting.HasLink index link)
    (hnone : link.near = none)
    (hblank : (meeting.node link.dialer).endOf (meeting.node link.dialer).registry.nextConn = .blank)
    (hroom : 0 < (first link.dialer).registry.limits.maxActive)
    (hbecomes : Endpoint.Becomes (hashOf first link.dialer.other)
      (meeting.node link.dialer).registry.nextConn (meeting.node link.dialer) endpoint new)
    (hknown : new.place ≠ .unknown)
    (heager : meeting.joined link.dialer ∨ meeting.dialing link.dialer ∨ new.place.isDialed = true)
    (hbuffer : new.buffer = []) (hunread : new.unread = []) (hopen : new.hasEnded = false)
    (htaken : new.IsAsking link.target ∧ new.unsent = (terms first link).request.toFrame.encode ∨
      new.IsLost ∧ new.unsent = []) :
    Sound first ((meeting.update link.dialer endpoint).setLink index
      { link with near := some (meeting.node link.dialer).registry.nextConn }) := by
  have hopened : Opened first meeting link.dialer link
      { link with near := some (meeting.node link.dialer).registry.nextConn } endpoint new := {
    becomes := hbecomes
    blank := hblank
    known := hknown
    room := hroom
    free := (handle_dialer link).trans hnone
    dialer := rfl
    target := rfl
    origin := rfl
    handle := handle_dialer _
    other := (handle_other _).trans (handle_other link).symm
    eager := Or.inr heager }
  apply h.opened hlink hopened
  obtain ⟨hcourse, hsilent⟩ := h.stands index link hlink
  rw [hopened.was] at hcourse
  have hgrows := hopened.grows
  refine ⟨?_, ?_⟩
  · have hcourse := hcourse.mono (hgrows.yields _) (hgrows.refusable _)
    rw [← hopened.there index] at hcourse
    have hnew := hcourse.registers hbuffer hunread hopen htaken
    rwa [← hopened.here index] at hnew
  · exact (congrArg End.unsent (hopened.there index)).trans hsilent

theorem Sound.register (h : Sound first meeting) (hmeet : CanMeet first)
    (hlink : meeting.HasLink index link) : Sound first (meeting.register index link) := by
  unfold Meeting.register
  dsimp only
  split
  · rename_i hready
    simp only [Bool.and_eq_true, Option.isNone_iff_eq_none] at hready
    obtain ⟨⟨hnone, hfree⟩, hplace⟩ := hready
    have hsteady := h.steady link.dialer
    have hblank := hsteady.next_blank hfree
    have hhonest := h.honest index link hlink
    have hself : (meeting.node link.dialer).registry.isSelf link.target = false :=
      (isSelf_congr (h.same link.dialer).self _).trans hhonest.notSelf
    have hfits : (meeting.node link.dialer).templates.request.payload.length ≤
        (meeting.node link.dialer).transport.outbox.limits.maxBody := by
      rw [(h.same link.dialer).templates, (h.same link.dialer).outboxLimits]
      exact (hmeet.ask link.dialer).sendable
    have hrequest : (meeting.node link.dialer).templates.request.encode =
        (terms first link).request.toFrame.encode := by
      rw [(h.same link.dialer).templates, hmeet.request_eq link]
    have hroom : 0 < (first link.dialer).registry.limits.maxActive := by
      have hless := of_decide_eq_true hplace
      rw [(h.same link.dialer).limits] at hless
      exact Nat.zero_lt_of_lt hless
    rcases hsteady.dialedSocket hfree hplace hself hhonest.target link.nearCapacity h.cargo_nil
      hfits with ⟨_, _, hbecomes⟩ | ⟨hreason, hbecomes⟩
    · refine h.registers hlink hnone hblank hroom hbecomes (by simp [Place.dialed, Place.unknown])
        (Or.inr (Or.inr rfl)) rfl rfl rfl (Or.inl ⟨⟨rfl, _, rfl, ⟨rfl, rfl, rfl⟩, rfl⟩, hrequest⟩)
    · refine h.registers hlink hnone hblank hroom hbecomes (by simp [Place.closed, Place.unknown]) ?_
        rfl rfl rfl (Or.inr ⟨⟨rfl, fun _ hnone => by cases hnone⟩, rfl⟩)
      rcases hreason with hjoined | hdialing
      · exact Or.inl hjoined
      · exact Or.inr (Or.inl hdialing)
  · exact h

/-- A connection that is taken in waits for its request. -/
theorem Sound.takes (h : Sound first meeting) (hlink : meeting.HasLink index link)
    (hnone : link.far = none)
    (hblank : (meeting.node link.dialer.other).endOf
      (meeting.node link.dialer.other).registry.nextConn = .blank)
    (hroom : 0 < (first link.dialer.other).registry.limits.maxActive)
    (hbecomes : Endpoint.Becomes (hashOf first link.dialer.other.other)
      (meeting.node link.dialer.other).registry.nextConn (meeting.node link.dialer.other) endpoint new)
    (hknown : new.place ≠ .unknown) (hawaits : new.IsAwaiting link.origin)
    (hbuffer : new.buffer = []) (hunread : new.unread = []) (hunsent : new.unsent = [])
    (howed : new.owed = []) (hopen : new.hasEnded = false) :
    Sound first ((meeting.update link.dialer.other endpoint).setLink index
      { link with far := some (meeting.node link.dialer.other).registry.nextConn }) := by
  have hback : link.dialer.other.other = link.dialer := other_other _
  have hopened : Opened first meeting link.dialer.other link
      { link with far := some (meeting.node link.dialer.other).registry.nextConn } endpoint new := {
    becomes := hbecomes
    blank := hblank
    known := hknown
    room := hroom
    free := (handle_other link).trans hnone
    dialer := rfl
    target := rfl
    origin := rfl
    handle := handle_other _
    other := by
      rw [hback]
      exact (handle_dialer _).trans (handle_dialer link).symm
    eager := Or.inl rfl }
  apply h.opened hlink hopened
  obtain ⟨hcourse, _⟩ := h.stands index link hlink
  rw [hopened.was] at hcourse
  have hgrows := hopened.grows
  refine ⟨?_, (congrArg End.unsent (hopened.here index)).trans hunsent⟩
  have hcourse := hcourse.mono (hgrows.yields _) (hgrows.refusable _)
  have hthere := hopened.there index
  rw [hback] at hthere
  rw [← hthere] at hcourse
  have hnew := hcourse.accepts hawaits hbuffer hunread howed hopen
  rwa [← hopened.here index] at hnew

theorem Sound.accept (h : Sound first meeting) (hlink : meeting.HasLink index link) :
    Sound first (meeting.accept index link) := by
  unfold Meeting.accept
  dsimp only
  split
  · rename_i hready
    simp only [Bool.and_eq_true, Option.isNone_iff_eq_none] at hready
    obtain ⟨⟨hnone, hfree⟩, hplace⟩ := hready
    have hsteady := h.steady link.dialer.other
    have hroom : 0 < (first link.dialer.other).registry.limits.maxActive := by
      have hless := of_decide_eq_true hplace
      rw [(h.same link.dialer.other).limits] at hless
      exact Nat.zero_lt_of_lt hless
    exact h.takes hlink hnone (hsteady.next_blank hfree) hroom
      (hsteady.acceptSocket hfree hplace link.origin link.farCapacity)
      (by simp [Place.accepted, Place.unknown]) ⟨rfl, _, rfl, rfl, rfl, rfl⟩ rfl rfl rfl rfl rfl
  · exact h

/-! ## Runs -/

theorem Sound.onLink (h : Sound first meeting) {change : Link → Meeting}
    (hchange : ∀ link, meeting.HasLink index link → Sound first (change link)) :
    Sound first (meeting.onLink index change) := by
  unfold Meeting.onLink
  split
  · exact h
  · rename_i link hlink
    exact hchange link hlink

theorem Sound.onHandles (h : Sound first meeting) {change : ConnId → ConnId → Meeting}
    (hchange : ∀ link source sink, meeting.HasLink index link → link.handle writer = some source →
      link.handle writer.other = some sink → Sound first (change source sink)) :
    Sound first (meeting.onHandles index writer change) := by
  unfold Meeting.onHandles
  apply h.onLink
  intro link hlink
  split
  · rename_i source sink hfrom hto
    exact hchange link source sink hlink hfrom hto
  · exact h

/-- Every step keeps a meeting sound. -/
theorem Sound.act (h : Sound first meeting) (hmeet : CanMeet first) (action : Action) :
    Sound first (meeting.act action) := by
  cases action with
  | connect dialer target origin nearCapacity farCapacity =>
      simp only [Meeting.act]
      split
      · rename_i htrue
        exact h.connect htrue
      · exact h
  | register index => exact h.onLink fun link hlink => h.register hmeet hlink
  | accept index => exact h.onLink fun link hlink => h.accept hlink
  | session side conn =>
      simp only [Meeting.act]
      split
      · exact h
      · rename_i hlate
        exact h.session hmeet (Bool.eq_false_iff.mpr hlate)
  | distribute side => exact h.carries (h.steady side).distribute
  | resolve side lane =>
      simp only [Meeting.act]
      split
      · exact h
      · rename_i hstale
        exact h.carries ((h.steady side).resolve (Bool.eq_false_iff.mpr hstale))
  | take side lane => exact h.carries ((h.steady side).take lane)
  | write side lane => exact h.carries ((h.steady side).write lane)
  | askShut side conn => exact h.carries ((h.steady side).askShut conn)
  | shut side conn => exact h.carries ((h.steady side).shut conn)
  | deliver index writer most =>
      exact h.onHandles fun link source sink hlink hfrom hto => h.deliver hlink hfrom hto
  | hearEnd index writer =>
      exact h.onHandles fun link source sink hlink hfrom hto => h.hearEnd hlink hfrom hto
  | tick side duration => exact h.carries ((h.steady side).tick duration)

theorem Sound.run (h : Sound first meeting) (hmeet : CanMeet first) (actions : List Action) :
    Sound first (meeting.run actions) := by
  induction actions generalizing meeting with
  | nil => exact h
  | cons action rest ih => exact ih (h.act hmeet action)

/-! ## The start -/

theorem refuseZero_ok {reason : String} {values : List (String × UInt64)}
    (hok : Settings.refuseZero reason values = .ok ()) : ∀ value ∈ values, 0 < value.2.toNat := by
  induction values with
  | nil => simp
  | cons value rest ih =>
      rw [Settings.refuseZero] at hok
      split at hok
      · cases hok
      · rename_i hvalue
        intro found hfound
        rcases List.mem_cons.mp hfound with rfl | hrest
        · exact Nat.pos_of_ne_zero fun hzero => hvalue (UInt64.toNat_inj.mp hzero)
        · exact ih hok found hrest

/-- A node that is made from settings it can run with has not met anybody. -/
theorem isUnmet_create {settings : Settings} (hvalid : settings.validate = .ok ()) (id : NodeId)
    (handlers : HandlerTable) : IsUnmet (Endpoint.create settings id handlers) := by
  have hsizes : Settings.refuseZero "must be greater than zero" settings.sizes = .ok () := by
    unfold Settings.validate at hvalid
    cases hrefused : Settings.refuseZero "must be greater than zero" settings.sizes with
    | error error =>
        rw [hrefused] at hvalid
        cases hvalid
    | ok value => rfl
  have hpositive := refuseZero_ok hsizes
  exact {
    self := rfl
    outbound := rfl
    inbound := rfl
    active := rfl
    temp := List.nodup_nil
    bans := rfl
    closed := rfl
    teardowns := rfl
    sockets := rfl
    outbox := rfl
    lanes := hpositive ("writer_lanes", settings.writerLanes) (by simp [Settings.sizes])
    sendQueue := hpositive ("send_queue_capacity", settings.sendQueueCapacity)
      (by simp [Settings.sizes])
    laneQueue := hpositive ("lane_queue_capacity", settings.laneQueueCapacity)
      (by simp [Settings.sizes])
    backlog := hpositive ("write_backlog", settings.writeBacklog) (by simp [Settings.sizes])
    sessions := rfl
    going := rfl
    templates := rfl }

theorem IsUnmet.place (h : IsUnmet endpoint) (conn : ConnId) :
    endpoint.registry.placeOf conn = .unknown := by
  simp only [Registry.placeOf, Registry.activeOn?, Registry.isClosed, h.outbound, h.inbound, h.active,
    h.closed]
  rfl

theorem IsUnmet.steady (h : IsUnmet endpoint) (peer : IdHash) : endpoint.Steady peer := by
  have hunknown : ∀ conn, ¬endpoint.registry.Knows conn := by
    intro conn
    rw [Registry.knows_iff_place]
    exact not_not_intro (h.place conn)
  have hsocket : ∀ conn, endpoint.transport.socket? conn = none := by
    intro conn
    simp only [Transport.socket?, h.sockets]
    rfl
  have hcargo : endpoint.transport.outbox.cargo = [] := by
    rw [h.outbox]
    exact Outbox.cargo_create _
  have hdialed : ∀ peer, endpoint.registry.isDialed peer = false := by
    intro peer
    simp only [Registry.isDialed, Registry.dialTo?, h.outbound]
    rfl
  have hactive : ∀ peer, endpoint.registry.isActive peer = false := by
    intro peer
    simp only [Registry.isActive, h.active]
    rfl
  refine ⟨⟨⟨h.temp, ?_, ?_, ?_, ?_, ?_, ?_, ?_, ?_, ?_, ?_⟩, Or.inl h.outbound, Or.inl h.active,
    h.bans, ?_, ?_⟩, ?_, ?_, ?_, ?_, ?_, ?_, h.going⟩
  · simp [h.outbound, Table.keys]
  · simp [h.inbound, Table.keys]
  · simp [h.active, Table.keys]
  · exact fun node _ => hdialed node.idHash
  · exact fun node _ => hactive node.idHash
  · exact fun peer _ => hactive peer
  · simp [h.outbound]
  · simp [h.outbound]
  · simp [h.inbound]
  · simp [h.active]
  · intro conn
    exact Or.inl (h.place conn)
  · simp [h.teardowns]
  · rw [h.outbox]
    exact Outbox.isLight_create h.lanes h.sendQueue h.laneQueue h.backlog
  · simp [hcargo]
  · exact fun conn hknown => absurd hknown (hunknown conn)
  · simp [hsocket]
  · simp [hsocket]
  · intro conn session hsession
    rw [h.sessions] at hsession
    cases hsession

theorem sound_start (hmeet : CanMeet first) :
    Sound first (start (first .left) (first .right)) := by
  have hnode : ∀ side, (start (first .left) (first .right)).node side = first side := by
    intro side
    cases side <;> rfl
  have hnone : ∀ {index : Nat} {link : Link},
      ¬(start (first .left) (first .right)).HasLink index link := by
    intro index link hlink
    cases hlink
  have hunknown : ∀ side conn,
      ¬((start (first .left) (first .right)).node side).registry.Knows conn := by
    intro side conn
    rw [hnode, Registry.knows_iff_place]
    exact not_not_intro ((hmeet.unmet side).place conn)
  refine ⟨?_, ?_, ?_, ?_, ?_, ?_, ?_, ?_, ?_⟩
  · intro side
    rw [hnode]
    exact (hmeet.unmet side).steady _
  · intro side
    rw [hnode]
    exact Endpoint.IsSame.refl _
  · exact fun index link hlink => absurd hlink hnone
  · exact fun side conn hknown => absurd hknown (hunknown side conn)
  · exact fun index link side conn hlink => absurd hlink hnone
  · exact fun index link other found side conn hlink => absurd hlink hnone
  · exact fun side conn hknown => absurd hknown (hunknown side conn)
  · exact fun index link hlink => absurd hlink hnone
  · intro hregistered
    obtain ⟨index, link, hlink, _⟩ := hregistered
    exact absurd hlink hnone

end Meeting

end Peering
