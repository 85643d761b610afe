import Peering.Proofs.Frame.Stream
import Peering.Proofs.Meeting.Arrivals

/-!
# The course of a connection

How far a connection between two nodes has come, told by its two ends and the
bytes between them. The bytes that the accepting node has not used are what is
left of one request, those that the dialing node has not used are what is left of
one answer.
-/

namespace Peering

/-! ## Ends -/

/-- Bytes of an answer that are still to be written. -/
def Session.owed (session : Session) : Bytes :=
  match session.stage with
  | .answering _ left _ => left
  | _ => []

/-- A session that waits for the answer to a request. -/
structure Session.Asks (session : Session) : Prop where
  stage : session.stage = .reading
  phase : session.phase = .awaitingResponse
  peer : session.peer = none

namespace End

variable {old new : End}

def buffer (this : End) : Bytes :=
  (this.session.map (·.buffer)).getD []

def hasEnded (this : End) : Bool :=
  this.session.any (·.ended)

def owed (this : End) : Bytes :=
  (this.session.map (·.owed)).getD []

/-- The connection stands in a place and has a session of some kind. -/
def Has (this : End) (place : Place) (kind : Session → Prop) : Prop :=
  this.place = place ∧ ∃ session, this.session = some session ∧ kind session

/-- A dial that waits for the answer to its request. -/
def IsAsking (this : End) (target : Node) : Prop :=
  this.Has .dialed fun session => session.Asks ∧ session.dialed = some target

/-- A dial that has been accepted. -/
def IsJoined (this : End) : Prop :=
  this.Has .active fun session => session.stage = .reading

/-- A dial that is closed. -/
def IsLost (this : End) : Prop :=
  this.place = .closed ∧ ∀ session, this.session = some session → session.Asks

/-- An accepted socket that waits for a request. -/
def IsAwaiting (this : End) (origin : IpAddress) : Prop :=
  this.Has .accepted fun session => session.stage = .reading ∧ session.phase = .awaitingRequest ∧
    session.ip = origin

/-- A socket that has not been accepted, or on which no request has come yet. -/
def IsFresh (this : End) (origin : IpAddress) : Prop :=
  this = blank ∨ this.IsAwaiting origin

/-- An accepted socket whose request waits to be decided. -/
def IsDeciding (this : End) (isCaller : Node → Prop) : Prop :=
  this.Has .accepted fun session => ∃ caller, session.stage = .accepting caller ∧ isCaller caller

def IsRefusing (this : End) : Prop :=
  this.Has .accepted fun session => session.stage = .refusing

def IsRejecting (this : End) : Prop :=
  this.Has .accepted fun session => ∃ left deadline, session.stage = .answering false left deadline

/-- A socket whose request has been accepted. -/
def IsHost (this : End) : Prop :=
  this.Has .active fun session =>
    session.stage = .reading ∨ ∃ left deadline, session.stage = .answering true left deadline

def IsGone (this : End) : Prop :=
  this.place = .closed ∧ this.session = none

/-! ## Ends that differ in their bytes only -/

/-- What arrives at an end or leaves it changes neither its place nor what its session does. -/
structure Like (old new : End) : Prop where
  place : new.place = old.place
  session : ∃ change : Session → Session, new.session = old.session.map change ∧
    ∀ session, (change session).stage = session.stage ∧ (change session).phase = session.phase ∧
      (change session).dialed = session.dialed ∧ (change session).ip = session.ip ∧
        (change session).peer = session.peer

theorem Like.of_same (hplace : new.place = old.place) (hsession : new.session = old.session) :
    old.Like new :=
  ⟨hplace, id, by rw [hsession, Option.map_id, id], fun _ => ⟨rfl, rfl, rfl, rfl, rfl⟩⟩

theorem like_hears (old : End) (bytes : Bytes) : old.Like (old.hears bytes) :=
  ⟨rfl, _, rfl, fun _ => ⟨rfl, rfl, rfl, rfl, rfl⟩⟩

theorem like_hearsEnd (old : End) : old.Like old.hearsEnd :=
  ⟨rfl, _, rfl, fun _ => ⟨rfl, rfl, rfl, rfl, rfl⟩⟩

theorem Like.has {place : Place} {kind : Session → Prop} (h : old.Like new)
    (hhas : old.Has place kind)
    (hkind : ∀ session after : Session, after.stage = session.stage → after.phase = session.phase →
      after.dialed = session.dialed → after.ip = session.ip → after.peer = session.peer →
      kind session → kind after) :
    new.Has place kind := by
  obtain ⟨hplace, session, hsession, hthis⟩ := hhas
  obtain ⟨change, hchange, hsame⟩ := h.session
  obtain ⟨hstage, hphase, hdialed, hip, hpeer⟩ := hsame session
  refine ⟨h.place.trans hplace, change session, ?_,
    hkind _ _ hstage hphase hdialed hip hpeer hthis⟩
  rw [hchange, hsession, Option.map_some]

theorem Like.isAsking (h : old.Like new) {target : Node} (hold : old.IsAsking target) :
    new.IsAsking target := by
  apply h.has hold
  rintro session after hstage hphase hdialed _ hpeer ⟨hwas, hnode⟩
  exact ⟨⟨hstage.trans hwas.stage, hphase.trans hwas.phase, hpeer.trans hwas.peer⟩,
    hdialed.trans hnode⟩

theorem Like.isJoined (h : old.Like new) (hold : old.IsJoined) : new.IsJoined :=
  h.has hold fun _ _ hstage _ _ _ _ hwas => hstage.trans hwas

theorem Like.isLost (h : old.Like new) (hold : old.IsLost) : new.IsLost := by
  refine ⟨h.place.trans hold.1, ?_⟩
  intro session hsession
  obtain ⟨change, hchange, hsame⟩ := h.session
  rw [hchange] at hsession
  obtain ⟨before, hbefore, rfl⟩ := Option.map_eq_some_iff.mp hsession
  have hwas := hold.2 before hbefore
  obtain ⟨hstage, hphase, _, _, hpeer⟩ := hsame before
  exact ⟨hstage.trans hwas.stage, hphase.trans hwas.phase, hpeer.trans hwas.peer⟩

theorem Like.isAwaiting (h : old.Like new) {origin : IpAddress} (hold : old.IsAwaiting origin) :
    new.IsAwaiting origin := by
  apply h.has hold
  rintro session after hstage hphase _ hip _ ⟨hwas, hwait, hfrom⟩
  exact ⟨hstage.trans hwas, hphase.trans hwait, hip.trans hfrom⟩

theorem Like.isDeciding (h : old.Like new) {isCaller : Node → Prop} (hold : old.IsDeciding isCaller) :
    new.IsDeciding isCaller := by
  apply h.has hold
  rintro session after hstage _ _ _ _ ⟨caller, hwas, hcaller⟩
  exact ⟨caller, hstage.trans hwas, hcaller⟩

theorem Like.isRefusing (h : old.Like new) (hold : old.IsRefusing) : new.IsRefusing :=
  h.has hold fun _ _ hstage _ _ _ _ hwas => hstage.trans hwas

theorem Like.isRejecting (h : old.Like new) (hold : old.IsRejecting) : new.IsRejecting := by
  apply h.has hold
  rintro session after hstage _ _ _ _ ⟨left, deadline, hwas⟩
  exact ⟨left, deadline, hstage.trans hwas⟩

theorem Like.isHost (h : old.Like new) (hold : old.IsHost) : new.IsHost := by
  apply h.has hold
  rintro session after hstage _ _ _ _ (hwas | ⟨left, deadline, hwas⟩)
  · exact Or.inl (hstage.trans hwas)
  · exact Or.inr ⟨left, deadline, hstage.trans hwas⟩

theorem Like.isGone (h : old.Like new) (hold : old.IsGone) : new.IsGone := by
  obtain ⟨change, hchange, _⟩ := h.session
  refine ⟨h.place.trans hold.1, ?_⟩
  rw [hchange, hold.2, Option.map_none]

theorem Like.owed_eq (h : old.Like new) : new.owed = old.owed := by
  obtain ⟨change, hchange, hsame⟩ := h.session
  cases hsession : old.session with
  | none => rw [owed, owed, hchange, hsession, Option.map_none]
  | some session =>
      rw [owed, owed, hchange, hsession]
      simp only [Option.map_some, Option.getD_some, Session.owed, (hsame session).1]

theorem Has.session_ne {this : End} {place : Place} {kind : Session → Prop} (h : this.Has place kind) :
    this.session ≠ none := by
  obtain ⟨_, session, hsession, _⟩ := h
  simp [hsession]

/-- An end stands in one place only. -/
theorem not_has {this : End} {place other : Place} {kind : Session → Prop} (hplace : this.place = place)
    (hne : other ≠ place) : ¬this.Has other kind := by
  intro hhas
  exact hne (hhas.1.symm.trans hplace)

theorem not_known_blank {this : End} (hblank : this = blank) : this.place = .unknown := by
  rw [hblank]
  rfl

end End

/-! ## Connections -/

/-- What the two nodes say to each other on a connection. -/
structure Terms where
  request : Handshake.Request
  accept : Handshake.Response
  reject : Handshake.Response
  /-- The node that is dialed, and the address that its peer dials from. -/
  target : Node
  origin : IpAddress
  /-- The node that the request is to make of the one that dials. -/
  isCaller : Node → Prop

/-- Bytes for the accepting node that it has not used. -/
def toFar (near far : End) : Bytes :=
  far.buffer ++ near.unread ++ near.unsent

/-- Bytes for the dialing node that it has not used. -/
def toNear (near far : End) : Bytes :=
  near.buffer ++ far.unread ++ far.owed

/-- Nothing is on its way to a far end whose buffer stays empty. -/
theorem toFar_nil {near far next : End} (hnil : toFar near far = [])
    (hbuffer : far.buffer = [] → next.buffer = []) : toFar near next = [] := by
  obtain ⟨hempty, hread, hwritten⟩ := append_eq_nil hnil
  rw [toFar, hbuffer hempty, hread, hwritten]
  rfl

/-- Where nothing was on its way to the near end, its answer is what the far end owes now. -/
theorem toNear_of_nil {near far next : End} (hnil : toNear near far = [])
    (hunread : next.unread = far.unread) : toNear near next = next.owed := by
  obtain ⟨hempty, hsent, _⟩ := append_eq_nil hnil
  rw [toNear, hempty, hunread, hsent]
  rfl

/--
How far a connection has come. A dial is given up in silence only when it yields,
and a request is refused only when there is a reason to.
-/
inductive Course (terms : Terms) (yields refusable : Prop) (near far : End) : Prop
  /-- The dialing node has not offered the connection to its registry yet. -/
  | unregistered (hnear : near = End.blank) (hfar : far.IsFresh terms.origin)
      (hrequest : toFar near far = []) (hanswer : toNear near far = [])
      (hfarOpen : far.hasEnded = false)
  | asking (hnear : near.IsAsking terms.target) (hfar : far.IsFresh terms.origin)
      (hrequest : toFar near far = terms.request.toFrame.encode) (hanswer : toNear near far = [])
      (hnearOpen : near.hasEnded = false) (hfarOpen : far.hasEnded = false)
  /-- The dial is closed before its request has arrived. -/
  | dropped (hnear : near.IsLost) (hfar : far.IsFresh terms.origin)
      (hrequest : toFar near far = [] ∨ yields ∧ toFar near far <+: terms.request.toFrame.encode)
  | deciding (hnear : near.IsAsking terms.target) (hfar : far.IsDeciding terms.isCaller)
      (hrequest : toFar near far = []) (hanswer : toNear near far = [])
      (hnearOpen : near.hasEnded = false) (hfarOpen : far.hasEnded = false)
  /-- The dial has yielded while its request waits to be decided. -/
  | overtaken (hnear : near.IsLost) (hfar : far.IsDeciding terms.isCaller) (hyields : yields)
  | refused (hnear : near.IsAsking terms.target) (hfar : far.IsRefusing)
      (hrequest : toFar near far = []) (hanswer : toNear near far = []) (hreason : refusable)
  | rejected (hnear : near.IsAsking terms.target) (hfar : far.IsRejecting ∨ far.IsGone)
      (hrequest : toFar near far = []) (hanswer : toNear near far <+: terms.reject.toFrame.encode)
      (hreason : refusable)
  | accepted (hnear : near.IsAsking terms.target) (hfar : far.IsHost)
      (hrequest : toFar near far = []) (hanswer : toNear near far = terms.accept.toFrame.encode)
      (hnearOpen : near.hasEnded = false) (hfarOpen : far.hasEnded = false)
  | agreed (hnear : near.IsJoined) (hfar : far.IsHost)
      (hrequest : toFar near far = []) (hanswer : toNear near far = [])
      (hnearOpen : near.hasEnded = false) (hfarOpen : far.hasEnded = false)
  /-- The dial is closed and its request is not accepted any more. -/
  | ended (hnear : near.IsLost) (hfar : far.IsRefusing ∨ far.IsRejecting ∨ far.IsGone)
      (hsilent : near.unsent = [] ∨ yields)

namespace Course

variable {terms : Terms} {yields refusable yields' refusable' : Prop} {near far near' far' : End}

theorem mono (h : Course terms yields refusable near far) (hyields : yields → yields')
    (hrefusable : refusable → refusable') : Course terms yields' refusable' near far := by
  cases h with
  | unregistered hnear hfar hrequest hanswer hfarOpen =>
      exact unregistered hnear hfar hrequest hanswer hfarOpen
  | asking hnear hfar hrequest hanswer hnearOpen hfarOpen =>
      exact asking hnear hfar hrequest hanswer hnearOpen hfarOpen
  | dropped hnear hfar hrequest =>
      exact dropped hnear hfar (hrequest.imp id fun h => ⟨hyields h.1, h.2⟩)
  | deciding hnear hfar hrequest hanswer hnearOpen hfarOpen =>
      exact deciding hnear hfar hrequest hanswer hnearOpen hfarOpen
  | overtaken hnear hfar h => exact overtaken hnear hfar (hyields h)
  | refused hnear hfar hrequest hanswer hreason =>
      exact refused hnear hfar hrequest hanswer (hrefusable hreason)
  | rejected hnear hfar hrequest hanswer hreason =>
      exact rejected hnear hfar hrequest hanswer (hrefusable hreason)
  | accepted hnear hfar hrequest hanswer hnearOpen hfarOpen =>
      exact accepted hnear hfar hrequest hanswer hnearOpen hfarOpen
  | agreed hnear hfar hrequest hanswer hnearOpen hfarOpen =>
      exact agreed hnear hfar hrequest hanswer hnearOpen hfarOpen
  | ended hnear hfar hsilent => exact ended hnear hfar (hsilent.imp id hyields)

/-- Bytes that move between the two ends leave a connection where it is. -/
theorem like (h : Course terms yields refusable near far) (hnear : near.Like near')
    (hfar : far.Like far') (hnearBlank : near = .blank → near' = .blank)
    (hfarBlank : far = .blank → far' = .blank) (htoFar : toFar near' far' = toFar near far)
    (htoNear : toNear near' far' = toNear near far)
    (hnearEnded : near'.hasEnded = near.hasEnded) (hfarEnded : far'.hasEnded = far.hasEnded)
    (hunsent : near.unsent = [] → near'.unsent = []) : Course terms yields refusable near' far' := by
  have hfresh : far.IsFresh terms.origin → far'.IsFresh terms.origin :=
    fun hfresh => hfresh.imp hfarBlank hfar.isAwaiting
  cases h with
  | unregistered hblank hwas hrequest hanswer hfarOpen =>
      exact unregistered (hnearBlank hblank) (hfresh hwas) (htoFar.trans hrequest)
        (htoNear.trans hanswer) (hfarEnded.trans hfarOpen)
  | asking hasks hwas hrequest hanswer hnearOpen hfarOpen =>
      exact asking (hnear.isAsking hasks) (hfresh hwas) (htoFar.trans hrequest)
        (htoNear.trans hanswer) (hnearEnded.trans hnearOpen) (hfarEnded.trans hfarOpen)
  | dropped hlost hwas hrequest =>
      exact dropped (hnear.isLost hlost) (hfresh hwas) (by rwa [htoFar])
  | deciding hasks hwas hrequest hanswer hnearOpen hfarOpen =>
      exact deciding (hnear.isAsking hasks) (hfar.isDeciding hwas) (htoFar.trans hrequest)
        (htoNear.trans hanswer) (hnearEnded.trans hnearOpen) (hfarEnded.trans hfarOpen)
  | overtaken hlost hwas hyields =>
      exact overtaken (hnear.isLost hlost) (hfar.isDeciding hwas) hyields
  | refused hasks hwas hrequest hanswer hreason =>
      exact refused (hnear.isAsking hasks) (hfar.isRefusing hwas) (htoFar.trans hrequest)
        (htoNear.trans hanswer) hreason
  | rejected hasks hwas hrequest hanswer hreason =>
      exact rejected (hnear.isAsking hasks) (hwas.imp hfar.isRejecting hfar.isGone)
        (htoFar.trans hrequest) (by rwa [htoNear]) hreason
  | accepted hasks hwas hrequest hanswer hnearOpen hfarOpen =>
      exact accepted (hnear.isAsking hasks) (hfar.isHost hwas) (htoFar.trans hrequest)
        (htoNear.trans hanswer) (hnearEnded.trans hnearOpen) (hfarEnded.trans hfarOpen)
  | agreed hjoined hwas hrequest hanswer hnearOpen hfarOpen =>
      exact agreed (hnear.isJoined hjoined) (hfar.isHost hwas) (htoFar.trans hrequest)
        (htoNear.trans hanswer) (hnearEnded.trans hnearOpen) (hfarEnded.trans hfarOpen)
  | ended hlost hwas hsilent =>
      exact ended (hnear.isLost hlost)
        (hwas.imp hfar.isRefusing (Or.imp hfar.isRejecting hfar.isGone)) (hsilent.imp hunsent id)

/-- The dialing node writes bytes, or drops those of a dial that is closed. -/
theorem flows (h : Course terms yields refusable near far) (hflows : near.Flows near') :
    Course terms yields refusable near' far := by
  obtain ⟨bytes, rest, lost, hunsent, hlost, rfl⟩ := hflows
  have hlike : near.Like { near with unread := near.unread ++ bytes, unsent := rest } :=
    End.Like.of_same rfl rfl
  have hsplit : toFar near far = toFar { near with unread := near.unread ++ bytes, unsent := rest }
      far ++ lost := by
    simp only [toFar, hunsent, List.append_assoc]
  by_cases hnone : lost = []
  · rw [hnone, List.append_nil] at hsplit hunsent
    refine h.like hlike (End.Like.of_same rfl rfl) ?_ id hsplit.symm rfl rfl rfl ?_
    · rintro rfl
      obtain ⟨rfl, rfl⟩ := List.append_eq_nil_iff.mp hunsent.symm
      rfl
    · intro hempty
      exact (List.append_eq_nil_iff.mp (hunsent.symm.trans hempty)).2
  · have hplace : near.place ≠ .dialed := hlost.resolve_left hnone
    have hrequest : toFar near far ≠ [] := by
      rw [hsplit]
      simp [hnone]
    cases h with
    | unregistered hblank hwas hempty => exact absurd hempty hrequest
    | asking hasks => exact absurd hasks.1 hplace
    | dropped hgone hwas hempty =>
        obtain ⟨hyields, hprefix⟩ := hempty.resolve_left hrequest
        rw [hsplit] at hprefix
        exact dropped (hlike.isLost hgone) hwas
          (Or.inr ⟨hyields, (List.prefix_append _ _).trans hprefix⟩)
    | deciding hasks => exact absurd hasks.1 hplace
    | overtaken hgone hwas hyields => exact overtaken (hlike.isLost hgone) hwas hyields
    | refused hasks => exact absurd hasks.1 hplace
    | rejected hasks => exact absurd hasks.1 hplace
    | accepted hasks => exact absurd hasks.1 hplace
    | agreed hjoined hwas hempty => exact absurd hempty hrequest
    | ended hgone hwas hsilent =>
        refine ended (hlike.isLost hgone) hwas (hsilent.imp ?_ id)
        intro hempty
        rw [hunsent] at hempty
        exact (append_eq_nil hempty).2.1

theorem hears_of_none {this : End} (hsession : this.session = none) (bytes : Bytes) :
    this.hears bytes = this := by
  rw [End.hears, hsession, Option.map_none, ← hsession]

/-- Bytes of the dialing node arrive; they are lost when no session reads them. -/
theorem arrives_far (h : Course terms yields refusable near far) {bytes rest : Bytes}
    (hunread : near.unread = bytes ++ rest) (hknown : far.place ≠ .unknown) :
    Course terms yields refusable { near with unread := rest } (far.hears bytes) := by
  have hlike : near.Like { near with unread := rest } := End.Like.of_same rfl rfl
  cases hsession : far.session with
  | some session =>
      refine h.like hlike (End.like_hears far bytes) ?_ ?_ ?_ ?_ rfl ?_ id
      · rintro rfl
        obtain ⟨_, rfl⟩ := List.append_eq_nil_iff.mp hunread.symm
        rfl
      · intro hblank
        exact absurd (End.not_known_blank hblank) hknown
      · simp [toFar, End.buffer, End.hears, hsession, hunread]
      · simp only [toNear, (End.like_hears far bytes).owed_eq]
        rfl
      · simp [End.hasEnded, End.hears, hsession]
  | none =>
      rw [hears_of_none hsession]
      have hnobody : ∀ {place : Place} {kind : Session → Prop}, ¬far.Has place kind :=
        fun hhas => hhas.session_ne hsession
      have hnotFresh : ¬far.IsFresh terms.origin := by
        rintro (hblank | hawaits)
        · exact hknown (End.not_known_blank hblank)
        · exact hnobody hawaits
      cases h with
      | unregistered _ hwas => exact absurd hwas hnotFresh
      | asking _ hwas => exact absurd hwas hnotFresh
      | dropped _ hwas => exact absurd hwas hnotFresh
      | deciding _ hwas => exact absurd hwas hnobody
      | overtaken _ hwas => exact absurd hwas hnobody
      | refused _ hwas => exact absurd hwas hnobody
      | rejected hasks hwas hrequest hanswer hreason =>
          refine rejected (hlike.isAsking hasks) hwas ?_ hanswer hreason
          simp only [toFar, hunread, List.append_eq_nil_iff] at hrequest ⊢
          exact ⟨⟨hrequest.1.1, hrequest.1.2.2⟩, hrequest.2⟩
      | accepted _ hwas => exact absurd hwas hnobody
      | agreed _ hwas => exact absurd hwas hnobody
      | ended hgone hwas hsilent => exact ended (hlike.isLost hgone) hwas hsilent

/-- Bytes of the accepting node arrive; they are lost when the dial is given up. -/
theorem arrives_near (h : Course terms yields refusable near far) {bytes rest : Bytes}
    (hunread : far.unread = bytes ++ rest) (hknown : near.place ≠ .unknown) :
    Course terms yields refusable (near.hears bytes) { far with unread := rest } := by
  have hlike : far.Like { far with unread := rest } := End.Like.of_same rfl rfl
  have hnear := End.like_hears near bytes
  have hfarBlank : far = .blank → { far with unread := rest } = .blank := by
    rintro rfl
    obtain ⟨_, rfl⟩ := List.append_eq_nil_iff.mp hunread.symm
    rfl
  cases hsession : near.session with
  | some session =>
      refine h.like hnear hlike ?_ hfarBlank ?_ ?_ ?_ rfl id
      · intro hblank
        exact absurd (End.not_known_blank hblank) hknown
      · rfl
      · simp [toNear, End.buffer, End.hears, End.owed, hsession, hunread]
      · simp [End.hasEnded, End.hears, hsession]
  | none =>
      have hnobody : ∀ {place : Place} {kind : Session → Prop}, ¬near.Has place kind :=
        fun hhas => hhas.session_ne hsession
      cases h with
      | unregistered hblank => exact absurd (End.not_known_blank hblank) hknown
      | asking hasks => exact absurd hasks hnobody
      | dropped hgone hwas hrequest =>
          exact dropped (hnear.isLost hgone) (hwas.imp hfarBlank hlike.isAwaiting) hrequest
      | deciding hasks => exact absurd hasks hnobody
      | overtaken hgone hwas hyields =>
          exact overtaken (hnear.isLost hgone) (hlike.isDeciding hwas) hyields
      | refused hasks => exact absurd hasks hnobody
      | rejected hasks => exact absurd hasks hnobody
      | accepted hasks => exact absurd hasks hnobody
      | agreed hjoined => exact absurd hjoined hnobody
      | ended hgone hwas hsilent =>
          exact ended (hnear.isLost hgone)
            (hwas.imp hlike.isRefusing (Or.imp hlike.isRejecting hlike.isGone)) hsilent

/-- The accepting node comes to the end of what a dial that is closed has sent. -/
theorem ends_far (h : Course terms yields refusable near far) (hclosed : near.place = .closed)
    (hknown : far.place ≠ .unknown) : Course terms yields refusable near far.hearsEnd := by
  have hlike := End.like_hearsEnd far
  have hbuffer : far.hearsEnd.buffer = far.buffer := by
    cases hsession : far.session <;> simp [End.buffer, End.hearsEnd, hsession]
  cases h with
  | unregistered hblank =>
      rw [hblank] at hclosed
      cases hclosed
  | asking hasks => exact absurd hasks (End.not_has hclosed (by decide))
  | dropped hgone hwas hrequest =>
      refine dropped hgone (hwas.imp (fun hblank => absurd (End.not_known_blank hblank) hknown)
        hlike.isAwaiting) ?_
      rwa [toFar, hbuffer]
  | deciding hasks => exact absurd hasks (End.not_has hclosed (by decide))
  | overtaken hgone hwas hyields => exact overtaken hgone (hlike.isDeciding hwas) hyields
  | refused hasks => exact absurd hasks (End.not_has hclosed (by decide))
  | rejected hasks => exact absurd hasks (End.not_has hclosed (by decide))
  | accepted hasks => exact absurd hasks (End.not_has hclosed (by decide))
  | agreed hjoined => exact absurd hjoined (End.not_has hclosed (by decide))
  | ended hgone hwas hsilent =>
      exact ended hgone (hwas.imp hlike.isRefusing (Or.imp hlike.isRejecting hlike.isGone)) hsilent

/-- The dialing node comes to the end of what an accepting node that is gone has sent. -/
theorem ends_near (h : Course terms yields refusable near far) (hclosed : far.place = .closed) :
    Course terms yields refusable near.hearsEnd far := by
  have hlike := End.like_hearsEnd near
  have hnotFresh : ¬far.IsFresh terms.origin := by
    rintro (hblank | hawaits)
    · rw [hblank] at hclosed
      cases hclosed
    · exact End.not_has hclosed (by decide) hawaits
  have hbuffer : near.hearsEnd.buffer = near.buffer := by
    cases hsession : near.session <;> simp [End.buffer, End.hearsEnd, hsession]
  cases h with
  | unregistered _ hwas => exact absurd hwas hnotFresh
  | asking _ hwas => exact absurd hwas hnotFresh
  | dropped _ hwas => exact absurd hwas hnotFresh
  | deciding _ hwas => exact absurd hwas (End.not_has hclosed (by decide))
  | overtaken _ hwas => exact absurd hwas (End.not_has hclosed (by decide))
  | refused _ hwas => exact absurd hwas (End.not_has hclosed (by decide))
  | rejected hasks hwas hrequest hanswer hreason =>
      refine rejected (hlike.isAsking hasks) hwas hrequest ?_ hreason
      rwa [toNear, hbuffer]
  | accepted _ hwas => exact absurd hwas (End.not_has hclosed (by decide))
  | agreed _ hwas => exact absurd hwas (End.not_has hclosed (by decide))
  | ended hgone hwas hsilent => exact ended (hlike.isLost hgone) hwas hsilent

/-! ### What an end tells about the other one -/

theorem near_cases (h : Course terms yields refusable near far) :
    near = .blank ∨ near.IsAsking terms.target ∨ near.place = .closed ∨
      near.IsJoined ∧ far.IsHost := by
  cases h with
  | unregistered hblank => exact Or.inl hblank
  | asking hasks => exact Or.inr (Or.inl hasks)
  | dropped hlost => exact Or.inr (Or.inr (Or.inl hlost.1))
  | deciding hasks => exact Or.inr (Or.inl hasks)
  | overtaken hlost => exact Or.inr (Or.inr (Or.inl hlost.1))
  | refused hasks => exact Or.inr (Or.inl hasks)
  | rejected hasks => exact Or.inr (Or.inl hasks)
  | accepted hasks => exact Or.inr (Or.inl hasks)
  | agreed hjoined hhost => exact Or.inr (Or.inr (Or.inr ⟨hjoined, hhost⟩))
  | ended hlost => exact Or.inr (Or.inr (Or.inl hlost.1))

theorem far_cases (h : Course terms yields refusable near far) :
    far = .blank ∨ far.place = .accepted ∨ far.place = .closed ∨
      far.IsHost ∧ (near.IsAsking terms.target ∨ near.IsJoined) := by
  have hfresh : far.IsFresh terms.origin → far = .blank ∨ far.place = .accepted := by
    intro hfresh
    rcases hfresh with hblank | hawaits
    · exact Or.inl hblank
    · exact Or.inr hawaits.1
  cases h with
  | unregistered _ hfar => exact (hfresh hfar).imp_right Or.inl
  | asking _ hfar => exact (hfresh hfar).imp_right Or.inl
  | dropped _ hfar => exact (hfresh hfar).imp_right Or.inl
  | deciding _ hdecides => exact Or.inr (Or.inl hdecides.1)
  | overtaken _ hdecides => exact Or.inr (Or.inl hdecides.1)
  | refused _ hrefusing => exact Or.inr (Or.inl hrefusing.1)
  | rejected _ hends =>
      rcases hends with hrejecting | hgone
      · exact Or.inr (Or.inl hrejecting.1)
      · exact Or.inr (Or.inr (Or.inl hgone.1))
  | accepted hasks hhost => exact Or.inr (Or.inr (Or.inr ⟨hhost, Or.inl hasks⟩))
  | agreed hjoined hhost => exact Or.inr (Or.inr (Or.inr ⟨hhost, Or.inr hjoined⟩))
  | ended _ hends =>
      rcases hends with hrefusing | hrejecting | hgone
      · exact Or.inr (Or.inl hrefusing.1)
      · exact Or.inr (Or.inl hrejecting.1)
      · exact Or.inr (Or.inr (Or.inl hgone.1))

/-- Who is active on a dial has been accepted. -/
theorem near_active (h : Course terms yields refusable near far)
    (hactive : near.place.isActive = true) : near.IsJoined ∧ far.IsHost := by
  rcases h.near_cases with hblank | hasks | hclosed | hboth
  · simp [hblank, End.blank, Place.unknown] at hactive
  · simp [hasks.1, Place.dialed] at hactive
  · simp [hclosed, Place.closed] at hactive
  · exact hboth

/-- A dial that is held waits for its answer. -/
theorem near_dialed (h : Course terms yields refusable near far)
    (hdialed : near.place.isDialed = true) : near.IsAsking terms.target := by
  rcases h.near_cases with hblank | hasks | hclosed | hboth
  · simp [hblank, End.blank, Place.unknown] at hdialed
  · exact hasks
  · simp [hclosed, Place.closed] at hdialed
  · simp [hboth.1.1, Place.active] at hdialed

/-- The dialing end is never among the connections that are taken in. -/
theorem near_not_accepted (h : Course terms yields refusable near far) :
    near.place.isAccepted = false := by
  rcases h.near_cases with hblank | hasks | hclosed | hboth
  · simp [hblank, End.blank, Place.unknown]
  · simp [hasks.1, Place.dialed]
  · simp [hclosed, Place.closed]
  · simp [hboth.1.1, Place.active]

/-- Who is active on an accepted connection is awaited or active at the other end. -/
theorem far_active (h : Course terms yields refusable near far)
    (hactive : far.place.isActive = true) :
    far.IsHost ∧ (near.IsAsking terms.target ∨ near.IsJoined) := by
  rcases h.far_cases with hblank | haccepted | hclosed | hboth
  · simp [hblank, End.blank, Place.unknown] at hactive
  · simp [haccepted, Place.accepted] at hactive
  · simp [hclosed, Place.closed] at hactive
  · exact hboth

/-- The accepting end is no dial. -/
theorem far_not_dialed (h : Course terms yields refusable near far) :
    far.place.isDialed = false := by
  rcases h.far_cases with hblank | haccepted | hclosed | hboth
  · simp [hblank, End.blank, Place.unknown]
  · simp [haccepted, Place.accepted]
  · simp [hclosed, Place.closed]
  · simp [hboth.1.1, Place.active]

/-- The session of a dial that is closed stops. -/
theorem stops_near (h : Course terms yields refusable near far) (hclosed : near.place = .closed) :
    Course terms yields refusable { near with place := .closed, session := none } far := by
  have hlost : End.IsLost { near with place := .closed, session := none } :=
    ⟨rfl, fun _ hnone => by cases hnone⟩
  cases h with
  | unregistered hblank =>
      rw [hblank] at hclosed
      cases hclosed
  | asking hasks => exact absurd hasks (End.not_has hclosed (by decide))
  | dropped _ hwas hrequest => exact dropped hlost hwas hrequest
  | deciding hasks => exact absurd hasks (End.not_has hclosed (by decide))
  | overtaken _ hwas hyields => exact overtaken hlost hwas hyields
  | refused hasks => exact absurd hasks (End.not_has hclosed (by decide))
  | rejected hasks => exact absurd hasks (End.not_has hclosed (by decide))
  | accepted hasks => exact absurd hasks (End.not_has hclosed (by decide))
  | agreed hjoined => exact absurd hjoined (End.not_has hclosed (by decide))
  | ended _ hwas hsilent => exact ended hlost hwas hsilent

/-- A dial that yields is closed, and its request may be refused. -/
theorem yields_near (h : Course terms yields refusable near far)
    (hdialed : near.place.isDialed = true → yields ∧ ¬far.IsHost) :
    Course terms yields refusable near.yielded far := by
  have hkeeps : near.place.isDialed = false → Course terms yields refusable near.yielded far := by
    intro hplace
    rw [End.yielded, if_neg (by simp [hplace])]
    exact h
  have hloses : near.IsAsking terms.target → near.yielded.IsLost := by
    intro hasks
    obtain ⟨hplace, session, hsession, hwaits, _⟩ := hasks
    rw [End.yielded, if_pos (by rw [hplace]; rfl)]
    refine ⟨rfl, ?_⟩
    intro found hfound
    obtain rfl := Option.some.inj (hsession.symm.trans hfound)
    exact hwaits
  have hbytes : toFar near.yielded far = toFar near far := by
    unfold End.yielded
    split <;> rfl
  have hdials : ∀ {target : Node}, near.IsAsking target → near.place.isDialed = true := by
    intro target hasks
    rw [hasks.1]
    rfl
  have hlost : near.IsLost → near.place.isDialed = false := by
    intro hlost
    rw [hlost.1]
    rfl
  cases h with
  | unregistered hblank =>
      apply hkeeps
      rw [hblank]
      rfl
  | asking hasks hfar hrequest =>
      refine dropped (hloses hasks) hfar (Or.inr ⟨(hdialed (hdials hasks)).1, ?_⟩)
      exact hbytes.trans hrequest ▸ List.prefix_rfl
  | dropped hgone => exact hkeeps (hlost hgone)
  | deciding hasks hfar => exact overtaken (hloses hasks) hfar (hdialed (hdials hasks)).1
  | overtaken hgone => exact hkeeps (hlost hgone)
  | refused hasks hfar =>
      exact ended (hloses hasks) (Or.inl hfar) (Or.inr (hdialed (hdials hasks)).1)
  | rejected hasks hfar =>
      exact ended (hloses hasks) (Or.inr hfar) (Or.inr (hdialed (hdials hasks)).1)
  | accepted hasks hhost => exact absurd hhost (hdialed (hdials hasks)).2
  | agreed hjoined =>
      apply hkeeps
      rw [hjoined.1]
      rfl
  | ended hgone => exact hkeeps (hlost hgone)

/-! ### New ends -/

/-- A dial is offered to the registry, which takes it or closes it. -/
theorem registers (h : Course terms yields refusable .blank far) (hbuffer : near.buffer = [])
    (hunread : near.unread = []) (hnearOpen : near.hasEnded = false)
    (htaken : near.IsAsking terms.target ∧ near.unsent = terms.request.toFrame.encode ∨
      near.IsLost ∧ near.unsent = []) : Course terms yields refusable near far := by
  have hnotLost : ¬End.blank.IsLost := fun hlost => by cases hlost.1
  cases h with
  | unregistered _ hfresh hrequest hanswer hfarOpen =>
      have hused : far.buffer = [] := (append_eq_nil hrequest).1
      have hnothing : toNear near far = [] := by
        rw [toNear, hbuffer]
        exact hanswer
      rcases htaken with ⟨hasks, hunsent⟩ | ⟨hlost, hunsent⟩
      · refine asking hasks hfresh ?_ hnothing hnearOpen hfarOpen
        rw [toFar, hused, hunread, hunsent]
        rfl
      · refine dropped hlost hfresh (Or.inl ?_)
        rw [toFar, hused, hunread, hunsent]
        rfl
  | asking hasks => exact absurd hasks (End.not_has rfl (by decide))
  | dropped hlost => exact absurd hlost hnotLost
  | deciding hasks => exact absurd hasks (End.not_has rfl (by decide))
  | overtaken hlost => exact absurd hlost hnotLost
  | refused hasks => exact absurd hasks (End.not_has rfl (by decide))
  | rejected hasks => exact absurd hasks (End.not_has rfl (by decide))
  | accepted hasks => exact absurd hasks (End.not_has rfl (by decide))
  | agreed hjoined => exact absurd hjoined (End.not_has rfl (by decide))
  | ended hlost => exact absurd hlost hnotLost

/-- A connection is taken in. -/
theorem accepts (h : Course terms yields refusable near .blank) (hawaits : far.IsAwaiting terms.origin)
    (hbuffer : far.buffer = []) (hunread : far.unread = []) (howed : far.owed = [])
    (hfarOpen : far.hasEnded = false) : Course terms yields refusable near far := by
  have hnotGone : ¬End.blank.IsGone := fun hgone => by cases hgone.1
  have htoFar : toFar near far = toFar near .blank := by
    rw [toFar, hbuffer]
    rfl
  have htoNear : toNear near far = toNear near .blank := by
    rw [toNear, hunread, howed]
    rfl
  cases h with
  | unregistered hnone _ hrequest hanswer =>
      exact unregistered hnone (Or.inr hawaits) (htoFar.trans hrequest) (htoNear.trans hanswer)
        hfarOpen
  | asking hasks _ hrequest hanswer hnearOpen =>
      exact asking hasks (Or.inr hawaits) (htoFar.trans hrequest) (htoNear.trans hanswer) hnearOpen
        hfarOpen
  | dropped hlost _ hrequest => exact dropped hlost (Or.inr hawaits) (by rwa [htoFar])
  | deciding _ hdecides => exact absurd hdecides (End.not_has rfl (by decide))
  | overtaken _ hdecides => exact absurd hdecides (End.not_has rfl (by decide))
  | refused _ hrefusing => exact absurd hrefusing (End.not_has rfl (by decide))
  | rejected _ hends =>
      rcases hends with hrejecting | hgone
      · exact absurd hrejecting (End.not_has rfl (by decide))
      · exact absurd hgone hnotGone
  | accepted _ hhost => exact absurd hhost (End.not_has rfl (by decide))
  | agreed _ hhost => exact absurd hhost (End.not_has rfl (by decide))
  | ended _ hends =>
      rcases hends with hrefusing | hrejecting | hgone
      · exact absurd hrefusing (End.not_has rfl (by decide))
      · exact absurd hrejecting (End.not_has rfl (by decide))
      · exact absurd hgone hnotGone

/-- Bytes of a request are left only while its dial waits or has yielded. -/
theorem unsent_nil (h : Course terms yields refusable near far) (hkeeps : ¬yields)
    (hdialed : near.place.isDialed = false) : near.unsent = [] := by
  have hnotAsking : ¬near.IsAsking terms.target := by
    intro hasks
    rw [hasks.1] at hdialed
    cases hdialed
  have hnone : toFar near far = [] → near.unsent = [] :=
    fun hrequest => (List.append_eq_nil_iff.mp hrequest).2
  cases h with
  | unregistered _ _ hrequest => exact hnone hrequest
  | asking hasks => exact absurd hasks hnotAsking
  | dropped _ _ hrequest => exact hnone (hrequest.resolve_right fun hyields => hkeeps hyields.1)
  | deciding hasks => exact absurd hasks hnotAsking
  | overtaken _ _ hyields => exact absurd hyields hkeeps
  | refused hasks => exact absurd hasks hnotAsking
  | rejected hasks => exact absurd hasks hnotAsking
  | accepted hasks => exact absurd hasks hnotAsking
  | agreed _ _ hrequest => exact hnone hrequest
  | ended _ _ hsilent => exact hsilent.resolve_right hkeeps

end Course

end Peering
