import Peering.Proofs.Meeting.Course

/-!
# What a meeting keeps

The invariant of two nodes that dial each other: each node keeps to itself what a
steady node keeps, every connection that one of them knows is one between them,
and every connection has come to a point of its course. Whatever has been
registered, somebody is active or is still dialing.
-/

namespace Peering

namespace Meeting

variable {first : Side → Endpoint} {meeting after : Meeting} {side : Side} {endpoint : Endpoint}
  {link : Link} {index : Nat} {conn : ConnId} {new : End}

/-! ## Sides -/

theorem other_other (side : Side) : side.other.other = side := by
  cases side <;> rfl

theorem other_ne (side : Side) : side.other ≠ side := by
  cases side <;> decide

theorem eq_or_eq_other (side some_ : Side) : some_ = side ∨ some_ = side.other := by
  cases side <;> cases some_ <;> decide

theorem update_self (meeting : Meeting) (side : Side) (endpoint : Endpoint) :
    (meeting.update side endpoint).node side = endpoint := by
  simp [update]

theorem update_other (meeting : Meeting) {side found : Side} (endpoint : Endpoint)
    (hne : found ≠ side) : (meeting.update side endpoint).node found = meeting.node found := by
  simp [update, hne]

/-- What holds of the node that changes and of the other one holds of both. -/
theorem forall_update (P : Side → Endpoint → Prop) (hself : P side endpoint)
    (hother : P side.other (meeting.node side.other)) (found : Side) :
    P found ((meeting.update side endpoint).node found) := by
  rcases eq_or_eq_other side found with rfl | rfl
  · rw [update_self]
    exact hself
  · rw [update_other _ _ (other_ne side)]
    exact hother

/-! ## Ends -/

def HasLink (meeting : Meeting) (index : Nat) (link : Link) : Prop :=
  meeting.links[index]? = some link

/-- The end of a connection at one of the nodes. -/
def endAt (meeting : Meeting) (link : Link) (side : Side) : End :=
  match link.handle side with
  | none => End.blank
  | some conn => (meeting.node side).endOf conn

theorem endAt_some (hhandle : link.handle side = some conn) :
    meeting.endAt link side = (meeting.node side).endOf conn := by
  rw [endAt, hhandle]

theorem endAt_congr (hnode : ∀ conn, link.handle side = some conn →
    (after.node side).endOf conn = (meeting.node side).endOf conn) :
    after.endAt link side = meeting.endAt link side := by
  unfold endAt
  cases hhandle : link.handle side with
  | none => rfl
  | some conn => exact hnode conn hhandle

theorem endAt_update_self (hhandle : link.handle side = some conn) :
    (meeting.update side endpoint).endAt link side = endpoint.endOf conn := by
  rw [endAt_some hhandle, update_self]

theorem endAt_update_other (found : Side) (hne : found ≠ side) :
    (meeting.update side endpoint).endAt link found = meeting.endAt link found := by
  refine endAt_congr fun _ _ => ?_
  rw [update_other _ _ hne]

/-! ## Terms -/

/-- Under which hash a node is known. -/
def hashOf (first : Side → Endpoint) (side : Side) : IdHash :=
  (first side).registry.self.idHash

/-- What the nodes of a connection say to each other, as they were at the start. -/
def terms (first : Side → Endpoint) (link : Link) : Terms where
  request := (Endpoint.profile (first link.dialer).settings (first link.dialer).registry.self
    (first link.dialer).handlers.versions).request
  accept := ⟨true, Utf8.encode (first link.dialer.other).settings.revision⟩
  reject := ⟨false, Utf8.encode (first link.dialer.other).settings.revision⟩
  target := link.target
  origin := link.origin
  isCaller := fun node => node.idHash = hashOf first link.dialer ∧
    (first link.dialer.other).registry.isSelf node = false

def joined (meeting : Meeting) (side : Side) : Prop :=
  (meeting.node side).registry.IsJoined

def dialing (meeting : Meeting) (side : Side) : Prop :=
  (meeting.node side).registry.IsDialing

/-- A dial yields when its node has the larger hash and is active. -/
def yields (first : Side → Endpoint) (meeting : Meeting) (dialer : Side) : Prop :=
  hashOf first dialer.other < hashOf first dialer ∧ meeting.joined dialer

/--
A request is refused when a node is active, or when the accepting node has the
smaller hash and dials.
-/
def refusable (first : Side → Endpoint) (meeting : Meeting) (dialer : Side) : Prop :=
  (∃ side, meeting.joined side) ∨
    hashOf first dialer.other < hashOf first dialer ∧ meeting.dialing dialer.other

/-- A connection has come to some point of its course. -/
structure Stands (first : Side → Endpoint) (meeting : Meeting) (link : Link) : Prop where
  course : Course (terms first link) (meeting.yields first link.dialer)
    (meeting.refusable first link.dialer) (meeting.endAt link link.dialer)
    (meeting.endAt link link.dialer.other)
  silent : (meeting.endAt link link.dialer.other).unsent = []

/-- A dial is to the other node, and neither node takes the other one for itself. -/
structure IsHonest (first : Side → Endpoint) (link : Link) : Prop where
  target : link.target.idHash = hashOf first link.dialer.other
  notSelf : (first link.dialer).registry.isSelf link.target = false
  caller : (first link.dialer.other).registry.isSelf
    (Node.create (first link.dialer).registry.self.id link.origin
      (first link.dialer).registry.self.port 0) = false

/-- What a meeting keeps. -/
structure Sound (first : Side → Endpoint) (meeting : Meeting) : Prop where
  steady : ∀ side, (meeting.node side).Steady (hashOf first side.other)
  same : ∀ side, (first side).IsSame (meeting.node side)
  honest : ∀ index link, meeting.HasLink index link → IsHonest first link
  owned : ∀ side conn, (meeting.node side).registry.Knows conn →
    ∃ index link, meeting.HasLink index link ∧ link.handle side = some conn
  known : ∀ index link side conn, meeting.HasLink index link →
    link.handle side = some conn → (meeting.node side).registry.Knows conn
  distinct : ∀ index link other found side conn, meeting.HasLink index link →
    meeting.HasLink other found → link.handle side = some conn →
    found.handle side = some conn → index = other
  roomy : ∀ side conn, (meeting.node side).registry.Knows conn →
    0 < (first side).registry.limits.maxActive
  stands : ∀ index link, meeting.HasLink index link → meeting.Stands first link
  eager : (∃ index link, meeting.HasLink index link ∧ link.near.isSome = true) →
    (∃ side, meeting.joined side) ∨ ∃ side, meeting.dialing side

/-! ## Steps of the nodes -/

theorem Stands.mono (h : meeting.Stands first link)
    (hnear : after.endAt link link.dialer = meeting.endAt link link.dialer)
    (hfar : after.endAt link link.dialer.other = meeting.endAt link link.dialer.other)
    (hyields : meeting.yields first link.dialer → after.yields first link.dialer)
    (hrefusable : meeting.refusable first link.dialer → after.refusable first link.dialer) :
    after.Stands first link := by
  refine ⟨?_, ?_⟩
  · rw [hnear, hfar]
    exact h.course.mono hyields hrefusable
  · rw [hfar]
    exact h.silent

/-- Steps that open no connection. -/
theorem Sound.of_nodes (h : Sound first meeting) (hlinks : after.links = meeting.links)
    (hsteady : ∀ side, (after.node side).Steady (hashOf first side.other))
    (hsame : ∀ side, (meeting.node side).IsSame (after.node side))
    (hknows : ∀ side conn,
      (after.node side).registry.Knows conn ↔ (meeting.node side).registry.Knows conn)
    (hstands : ∀ index link, meeting.HasLink index link → after.Stands first link)
    (heager : (∃ side, meeting.joined side) ∨ (∃ side, meeting.dialing side) →
      (∃ side, after.joined side) ∨ ∃ side, after.dialing side) : Sound first after where
  steady := hsteady
  same := fun side => (h.same side).trans (hsame side)
  honest := by
    unfold HasLink
    rw [hlinks]
    exact h.honest
  owned := by
    intro side conn hknown
    unfold HasLink
    rw [hlinks]
    exact h.owned side conn ((hknows side conn).mp hknown)
  known := by
    intro index link side conn hlink hhandle
    rw [HasLink, hlinks] at hlink
    exact (hknows side conn).mpr (h.known index link side conn hlink hhandle)
  distinct := by
    unfold HasLink
    rw [hlinks]
    exact h.distinct
  roomy := fun side conn hknown => h.roomy side conn ((hknows side conn).mp hknown)
  stands := by
    unfold HasLink
    rw [hlinks]
    exact hstands
  eager := by
    unfold HasLink
    rw [hlinks]
    exact fun hregistered => heager (h.eager hregistered)

theorem Sound.knows_of_session (h : Sound first meeting) {session : Session}
    (hsession : (meeting.node side).sessions.find? conn = some session) :
    (meeting.node side).registry.Knows conn :=
  ((h.steady side).session conn session hsession).2

/-- A connection that a node has somewhere is an end of one between the two. -/
theorem Sound.end_of_place (h : Sound first meeting)
    (hplace : (meeting.node side).registry.placeOf conn ≠ .unknown) :
    ∃ index link, meeting.HasLink index link ∧
      (meeting.endAt link side).place = (meeting.node side).registry.placeOf conn := by
  obtain ⟨index, link, hlink, hhandle⟩ := h.owned side conn (Registry.knows_iff_place.mpr hplace)
  refine ⟨index, link, hlink, ?_⟩
  rw [endAt_some hhandle]
  rfl

/-- A node of whose ends one changes. -/
structure Turned (first : Side → Endpoint) (meeting : Meeting) (side : Side) (conn : ConnId)
    (endpoint : Endpoint) (new : End) : Prop where
  becomes : Endpoint.Becomes (hashOf first side.other) conn (meeting.node side) endpoint new
  /-- What was active is still active. -/
  active : ((meeting.node side).endOf conn).place.isActive = true → new.place.isActive = true
  known : new.place ≠ .unknown
  /-- A dial ends only when it succeeds or its request may be refused. -/
  dialed : ((meeting.node side).endOf conn).place.isDialed = true → new.place.isDialed = true ∨
    new.place.isActive = true ∨ meeting.refusable first side

namespace Turned

theorem placeOf (h : Turned first meeting side conn endpoint new) (other : ConnId) :
    endpoint.registry.placeOf other =
      if other = conn then new.place else (meeting.node side).registry.placeOf other := by
  split
  · rename_i hother
    rw [hother]
    exact congrArg End.place h.becomes.here
  · rename_i hother
    exact congrArg End.place (h.becomes.others other hother)

theorem joined (h : Turned first meeting side conn endpoint new) (found : Side)
    (hjoined : meeting.joined found) : (meeting.update side endpoint).joined found := by
  rcases eq_or_eq_other side found with rfl | rfl
  · obtain ⟨other, hactive⟩ := hjoined
    refine ⟨other, ?_⟩
    rw [update_self, h.placeOf]
    split
    · rename_i hother
      rw [hother] at hactive
      exact h.active hactive
    · exact hactive
  · rw [Meeting.joined, update_other _ _ (other_ne side)]
    exact hjoined

theorem dialing (h : Turned first meeting side conn endpoint new) (hdialing : meeting.dialing side) :
    (meeting.update side endpoint).dialing side ∨
      (∃ found, (meeting.update side endpoint).joined found) ∨
        hashOf first side.other < hashOf first side ∧ meeting.dialing side.other := by
  obtain ⟨other, hdialed⟩ := hdialing
  have hkept : endpoint.registry.placeOf other = (meeting.node side).registry.placeOf other →
      (meeting.update side endpoint).dialing side := by
    intro hsame
    refine ⟨other, ?_⟩
    rw [update_self, hsame]
    exact hdialed
  by_cases hother : other = conn
  · rw [hother] at hdialed
    have hnew : (meeting.update side endpoint).node side = endpoint := update_self ..
    rcases h.dialed hdialed with hdialed | hactive | ⟨found, hjoined⟩ | hreason
    · refine Or.inl ⟨conn, ?_⟩
      rw [hnew, h.placeOf, if_pos rfl]
      exact hdialed
    · refine Or.inr (Or.inl ⟨side, conn, ?_⟩)
      rw [hnew, h.placeOf, if_pos rfl]
      exact hactive
    · exact Or.inr (Or.inl ⟨found, h.joined found hjoined⟩)
    · exact Or.inr (Or.inr hreason)
  · exact Or.inl (hkept (by rw [h.placeOf, if_neg hother]))

theorem yields (h : Turned first meeting side conn endpoint new) (dialer : Side)
    (hyields : meeting.yields first dialer) : (meeting.update side endpoint).yields first dialer :=
  ⟨hyields.1, h.joined dialer hyields.2⟩

theorem refusable (h : Turned first meeting side conn endpoint new) (dialer : Side)
    (hreason : meeting.refusable first dialer) :
    (meeting.update side endpoint).refusable first dialer := by
  rcases hreason with ⟨found, hjoined⟩ | ⟨hless, hdialing⟩
  · exact Or.inl ⟨found, h.joined found hjoined⟩
  · rcases eq_or_eq_other side dialer with rfl | rfl
    · right
      refine ⟨hless, ?_⟩
      rw [Meeting.dialing, update_other _ _ (other_ne dialer)]
      exact hdialing
    · rw [other_other] at hless hdialing
      rcases h.dialing hdialing with hkept | hjoined | ⟨hgreater, _⟩
      · right
        rw [other_other]
        exact ⟨hless, hkept⟩
      · exact Or.inl hjoined
      · exact absurd hgreater (UInt32.lt_asymm hless)

theorem eager (h : Turned first meeting side conn endpoint new)
    (hwas : (∃ found, meeting.joined found) ∨ ∃ found, meeting.dialing found) :
    (∃ found, (meeting.update side endpoint).joined found) ∨
      ∃ found, (meeting.update side endpoint).dialing found := by
  rcases hwas with ⟨found, hjoined⟩ | ⟨found, hdialing⟩
  · exact Or.inl ⟨found, h.joined found hjoined⟩
  · have hother : meeting.dialing side.other → (meeting.update side endpoint).dialing side.other := by
      intro hdialing
      rw [Meeting.dialing, update_other _ _ (other_ne side)]
      exact hdialing
    rcases eq_or_eq_other side found with rfl | rfl
    · rcases h.dialing hdialing with hkept | hjoined | ⟨_, hdials⟩
      · exact Or.inr ⟨_, hkept⟩
      · exact Or.inl hjoined
      · exact Or.inr ⟨_, hother hdials⟩
    · exact Or.inr ⟨_, hother hdialing⟩

end Turned

/-- A connection stands where it stood unless it is the one whose end has changed. -/
theorem Sound.turned (h : Sound first meeting) (hturned : Turned first meeting side conn endpoint new)
    (hknown : (meeting.node side).registry.Knows conn)
    (hcourse : ∀ index link, meeting.HasLink index link → link.handle side = some conn →
      (meeting.update side endpoint).Stands first link) :
    Sound first (meeting.update side endpoint) := by
  have hknows : ∀ other, endpoint.registry.Knows other ↔ (meeting.node side).registry.Knows other := by
    intro other
    rw [Registry.knows_iff_place, hturned.placeOf]
    split
    · rename_i hother
      rw [hother]
      exact ⟨fun _ => hknown, fun _ => hturned.known⟩
    · exact Registry.knows_iff_place.symm
  have hends : ∀ index link, meeting.HasLink index link → link.handle side ≠ some conn →
      ∀ found, (meeting.update side endpoint).endAt link found = meeting.endAt link found := by
    intro index link hlink hne found
    apply endAt_congr
    intro other hhandle
    rcases eq_or_eq_other side found with rfl | rfl
    · rw [update_self]
      apply hturned.becomes.others other
      rintro rfl
      exact hne hhandle
    · rw [update_other _ _ (other_ne side)]
  refine h.of_nodes rfl ?_ ?_ ?_ ?_ hturned.eager
  · exact forall_update (fun found node => node.Steady (hashOf first found.other))
      hturned.becomes.steady (h.steady _)
  · exact forall_update (fun found node => (meeting.node found).IsSame node)
      hturned.becomes.same (Endpoint.IsSame.refl _)
  · exact forall_update (fun found node => ∀ conn, node.registry.Knows conn ↔
      (meeting.node found).registry.Knows conn) hknows fun _ => Iff.rfl
  · intro index link hlink
    by_cases hhandle : link.handle side = some conn
    · exact hcourse index link hlink hhandle
    · exact (h.stands index link hlink).mono (hends index link hlink hhandle _)
        (hends index link hlink hhandle _) (hturned.yields _) (hturned.refusable _)

/-! ## One connection -/

theorem handle_dialer (link : Link) : link.handle link.dialer = link.near := by
  rw [Link.handle, if_pos rfl]

theorem handle_other (link : Link) : link.handle link.dialer.other = link.far := by
  rw [Link.handle, if_neg (other_ne link.dialer)]

theorem Sound.same_link (h : Sound first meeting) {found : Link} {other : Nat}
    (hlink : meeting.HasLink index link) (hfound : meeting.HasLink other found)
    (hhandle : link.handle side = some conn) (hother : found.handle side = some conn) :
    found = link := by
  have hindex := h.distinct index link other found side conn hlink hfound hhandle hother
  rw [HasLink, ← hindex, hlink] at hfound
  exact (Option.some.inj hfound).symm

/-- The dialing node turns one end. -/
theorem Sound.turned_near (h : Sound first meeting) (hlink : meeting.HasLink index link)
    (hnear : link.near = some conn)
    (hturned : Turned first meeting link.dialer conn endpoint new)
    (hcourse : Course (terms first link)
      ((meeting.update link.dialer endpoint).yields first link.dialer)
      ((meeting.update link.dialer endpoint).refusable first link.dialer) new
      (meeting.endAt link link.dialer.other)) :
    Sound first (meeting.update link.dialer endpoint) := by
  have hhandle : link.handle link.dialer = some conn := (handle_dialer link).trans hnear
  apply h.turned hturned (h.known index link _ conn hlink hhandle)
  intro other found hfound hsame
  obtain rfl := h.same_link hlink hfound hhandle hsame
  have hhere : (meeting.update found.dialer endpoint).endAt found found.dialer = new :=
    (endAt_update_self hhandle).trans hturned.becomes.here
  have hthere : (meeting.update found.dialer endpoint).endAt found found.dialer.other =
      meeting.endAt found found.dialer.other :=
    endAt_update_other _ (other_ne found.dialer)
  refine ⟨?_, ?_⟩
  · rw [hhere, hthere]
    exact hcourse
  · rw [hthere]
    exact (h.stands index found hlink).silent

/-- The accepting node turns one end. -/
theorem Sound.turned_far (h : Sound first meeting) (hlink : meeting.HasLink index link)
    (hfar : link.far = some conn)
    (hturned : Turned first meeting link.dialer.other conn endpoint new)
    (hcourse : Course (terms first link)
      ((meeting.update link.dialer.other endpoint).yields first link.dialer)
      ((meeting.update link.dialer.other endpoint).refusable first link.dialer)
      (meeting.endAt link link.dialer) new)
    (hsilent : new.unsent = []) :
    Sound first (meeting.update link.dialer.other endpoint) := by
  have hhandle : link.handle link.dialer.other = some conn := (handle_other link).trans hfar
  apply h.turned hturned (h.known index link _ conn hlink hhandle)
  intro other found hfound hsame
  obtain rfl := h.same_link hlink hfound hhandle hsame
  have hhere : (meeting.update found.dialer.other endpoint).endAt found found.dialer.other = new :=
    (endAt_update_self hhandle).trans hturned.becomes.here
  have hthere : (meeting.update found.dialer.other endpoint).endAt found found.dialer =
      meeting.endAt found found.dialer :=
    endAt_update_other _ (other_ne found.dialer).symm
  refine ⟨?_, ?_⟩
  · rw [hhere, hthere]
    exact hcourse
  · rw [hhere]
    exact hsilent

/-- Nothing is lost when nothing changes. -/
theorem Sound.stays (h : Sound first meeting) (hknown : (meeting.node side).registry.Knows conn)
    (hbecomes : Endpoint.Becomes (hashOf first side.other) conn (meeting.node side) endpoint
      ((meeting.node side).endOf conn)) : Sound first (meeting.update side endpoint) := by
  have hturned : Turned first meeting side conn endpoint ((meeting.node side).endOf conn) :=
    ⟨hbecomes, id, Registry.knows_iff_place.mp hknown, Or.inl⟩
  have hends : ∀ link found,
      (meeting.update side endpoint).endAt link found = meeting.endAt link found := by
    intro link found
    apply endAt_congr
    intro other _
    rcases eq_or_eq_other side found with rfl | rfl
    · rw [update_self]
      by_cases hother : other = conn
      · rw [hother]
        exact hbecomes.here
      · exact hbecomes.others other hother
    · rw [update_other _ _ (other_ne side)]
  apply h.turned hturned hknown
  intro index link hlink _
  exact (h.stands index link hlink).mono (hends link _) (hends link _) (hturned.yields _)
    (hturned.refusable _)

/-! ## Steps that move bytes only -/

/-- Whoever is active stays so, and so does whoever dials. -/
structure Grows (meeting after : Meeting) : Prop where
  joined : ∀ side, meeting.joined side → after.joined side
  dialing : ∀ side, meeting.dialing side → after.dialing side

namespace Grows

theorem yields (h : Grows meeting after) (dialer : Side)
    (hyields : meeting.yields first dialer) : after.yields first dialer :=
  ⟨hyields.1, h.joined dialer hyields.2⟩

theorem refusable (h : Grows meeting after) (dialer : Side)
    (hreason : meeting.refusable first dialer) : after.refusable first dialer := by
  rcases hreason with ⟨found, hjoined⟩ | ⟨hless, hdialing⟩
  · exact Or.inl ⟨found, h.joined found hjoined⟩
  · exact Or.inr ⟨hless, h.dialing _ hdialing⟩

theorem eager (h : Grows meeting after)
    (hwas : (∃ side, meeting.joined side) ∨ ∃ side, meeting.dialing side) :
    (∃ side, after.joined side) ∨ ∃ side, after.dialing side := by
  rcases hwas with ⟨found, hjoined⟩ | ⟨found, hdialing⟩
  · exact Or.inl ⟨found, h.joined found hjoined⟩
  · exact Or.inr ⟨found, h.dialing found hdialing⟩

/-- A connection that a node knows stays where it is. -/
theorem of_places (hplaces : ∀ side conn, (meeting.node side).registry.placeOf conn ≠ .unknown →
    (after.node side).registry.placeOf conn = (meeting.node side).registry.placeOf conn) :
    Grows meeting after := by
  refine ⟨?_, ?_⟩
  · intro side hjoined
    obtain ⟨conn, hactive⟩ := hjoined
    refine ⟨conn, ?_⟩
    rw [hplaces side conn (Place.ne_unknown_of_active hactive)]
    exact hactive
  · intro side hdialing
    obtain ⟨conn, hdialed⟩ := hdialing
    refine ⟨conn, ?_⟩
    rw [hplaces side conn (Place.ne_unknown_of_dialed hdialed)]
    exact hdialed

end Grows

/-- A step that changes no place keeps a meeting sound if every connection stands. -/
theorem Sound.of_places (h : Sound first meeting) (hlinks : after.links = meeting.links)
    (hplaces : ∀ side conn,
      (after.node side).registry.placeOf conn = (meeting.node side).registry.placeOf conn)
    (hsteady : ∀ side, (after.node side).Steady (hashOf first side.other))
    (hsame : ∀ side, (meeting.node side).IsSame (after.node side))
    (hstands : Grows meeting after →
      ∀ index link, meeting.HasLink index link → after.Stands first link) :
    Sound first after := by
  have hgrows : Grows meeting after := .of_places fun side conn _ => hplaces side conn
  refine h.of_nodes hlinks hsteady hsame ?_ (hstands hgrows) hgrows.eager
  intro side conn
  rw [Registry.knows_iff_place, Registry.knows_iff_place, hplaces]

/-- A step of delivery moves bytes of requests only. -/
theorem Sound.carries (h : Sound first meeting)
    (hcarries : Endpoint.Carries (hashOf first side.other) (meeting.node side) endpoint) :
    Sound first (meeting.update side endpoint) := by
  refine h.of_places rfl ?_ ?_ ?_ ?_
  · refine forall_update (fun found node => ∀ conn, node.registry.placeOf conn =
      (meeting.node found).registry.placeOf conn) ?_ fun _ => rfl
    intro conn
    obtain ⟨_, _, _, _, _, hafter⟩ := hcarries.flows conn
    exact congrArg End.place hafter
  · exact forall_update (fun found node => node.Steady (hashOf first found.other))
      hcarries.steady (h.steady _)
  · exact forall_update (fun found node => (meeting.node found).IsSame node)
      hcarries.same (Endpoint.IsSame.refl _)
  · intro hgrows index link hlink
    obtain ⟨hcourse, hsilent⟩ := h.stands index link hlink
    have hflows : (meeting.endAt link side).Flows
        ((meeting.update side endpoint).endAt link side) := by
      unfold endAt
      split
      · exact End.Flows.refl _
      · rw [update_self]
        exact hcarries.flows _
    have hother : (meeting.update side endpoint).endAt link side.other =
        meeting.endAt link side.other :=
      endAt_update_other _ (other_ne side)
    rcases eq_or_eq_other side link.dialer with hdialer | hdialer
    · subst hdialer
      refine ⟨?_, ?_⟩
      · rw [hother]
        exact (hcourse.flows hflows).mono (hgrows.yields _) (hgrows.refusable _)
      · rw [hother]
        exact hsilent
    · have hfar : link.dialer.other = side := by rw [hdialer, other_other]
      have hnear : (meeting.update side endpoint).endAt link link.dialer =
          meeting.endAt link link.dialer := by
        rw [hdialer, hother]
      rw [hfar] at hsilent
      have hsame := hflows.eq_of_nil hsilent
      refine Stands.mono ⟨hcourse, hfar ▸ hsilent⟩ hnear ?_ (hgrows.yields _) (hgrows.refusable _)
      rw [hfar]
      exact hsame

end Meeting

end Peering
