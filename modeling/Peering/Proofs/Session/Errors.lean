import Peering.Proofs.Registry.Expulsion
import Peering.Proofs.Session.Containment
import Peering.Proofs.Violations

/-!
# The errors of a visit

A visit of a session with a peer counts one error against it for a frame that no
active peer may send, and one for a header beyond the limit; it counts nothing for
other frames, or when the stream ends, fails or falls silent. The error that brings
the count past the tolerance has the peer banned and dropped; no other visit does
that to anybody.
-/

namespace Peering

/-! ## What a frame does -/

/--
A frame of an active peer breaks the protocol if it belongs to the network core and
is a handshake again, has an unknown action or tells of nodes in a way that cannot be read.
-/
theorem Frame.isViolation_iff (frame : Frame) :
    frame.isViolation = true ↔ frame.isNet = true ∧
      (frame.action = NetAction.handshakeRequest ∨ frame.action = NetAction.handshakeResponse ∨
        6 ≤ frame.action.toNat ∨
        (frame.action = NetAction.activeNodesResponse ∧
          ∃ error, Gossip.decode frame.payload = .error error)) := by
  rw [Frame.isViolation, Bool.and_eq_true]
  refine and_congr_right fun _ => ?_
  simp only [← UInt8.toNat_inj, NetAction.ping, NetAction.pong, NetAction.activeNodesRequest,
    NetAction.activeNodesResponse, NetAction.handshakeRequest, NetAction.handshakeResponse,
    UInt8.reduceToNat]
  split
  · refine iff_of_false Bool.false_ne_true ?_
    omega
  split
  · refine iff_of_false Bool.false_ne_true ?_
    omega
  split
  · refine iff_of_false Bool.false_ne_true ?_
    omega
  split
  · rename_i hresponse
    simp only [hresponse, true_and]
    cases Gossip.decode frame.payload <;> simp
  · refine iff_of_true rfl ?_
    omega

namespace Endpoint

open Registry (Undisturbed)

variable {endpoint after : Endpoint} {frame : Frame} {peer : IdHash} {violates : Bool}

/-- What becomes of an endpoint by a peer that breaks the protocol or does not. -/
inductive Judges (endpoint : Endpoint) (peer : IdHash) (after : Endpoint) : Bool → Prop where
  | lets (hviolations : after.violations = endpoint.violations)
      (hregistry : Undisturbed endpoint.registry after.registry) : Judges endpoint peer after false
  | counts (registry : Registry) (hundisturbed : Undisturbed endpoint.registry registry)
      (hviolations : after.violations = (endpoint.violations.record peer).1)
      (hregistry : after.registry =
        (endpoint.violations.check registry endpoint.clock peer).2.1) :
      Judges endpoint peer after true

theorem violation_violations (endpoint : Endpoint) (peer : IdHash) :
    (endpoint.violation peer).1.violations = (endpoint.violations.record peer).1 := by
  show (endpoint.violations.check endpoint.registry endpoint.clock peer).1 = _
  unfold Violations.check
  dsimp only
  split <;> rfl

theorem violation_judges (endpoint : Endpoint) (peer : IdHash) :
    Judges endpoint peer (endpoint.violation peer).1 true :=
  .counts endpoint.registry (.refl _) (violation_violations endpoint peer) rfl

theorem ingest_undisturbed (now : Nat) (registry : Registry) (entries : List Gossip.Entry) :
    Undisturbed registry (ingest now registry entries).1 := by
  induction entries generalizing registry with
  | nil => exact .refl registry
  | cons entry rest ih =>
      unfold ingest
      split
      · rename_i after hadd
        exact (Registry.addTemp_undisturbed hadd).trans (ih after)
      · exact .refl registry
      · exact ih registry

theorem takeLatency_violations (endpoint : Endpoint) (peer : IdHash) :
    (endpoint.takeLatency peer).1.violations = endpoint.violations := by
  unfold takeLatency
  split <;> rfl

theorem onGossip_judges (endpoint : Endpoint) (peer : IdHash) (payload : Bytes) :
    Judges endpoint peer (endpoint.onGossip peer payload)
      (match Gossip.decode payload with
        | .error _ => true
        | .ok _ => false) := by
  unfold onGossip
  cases Gossip.decode payload with
  | error error => exact violation_judges endpoint peer
  | ok entries =>
      have hregistry := takeLatency_registry endpoint peer
      have hviolations := takeLatency_violations endpoint peer
      generalize endpoint.takeLatency peer = taken at hregistry hviolations
      obtain ⟨middle, latency⟩ := taken
      refine .lets hviolations ?_
      show Undisturbed endpoint.registry (ingest middle.clock _ entries).1
      refine Undisturbed.trans ?_ (ingest_undisturbed _ _ entries)
      rw [hregistry]
      split
      · exact .refl _
      · exact Registry.updateActive_undisturbed _ peer _

theorem onNetFrame_judges (endpoint : Endpoint) (peer : IdHash) (hnet : frame.isNet = true) :
    Judges endpoint peer (endpoint.onNetFrame peer frame) frame.isViolation := by
  unfold onNetFrame
  rw [Frame.isViolation, hnet, Bool.true_and]
  split
  · exact .lets rfl (.refl _)
  split
  · exact .lets rfl (.refl _)
  split
  · exact .lets rfl (.refl _)
  split
  · exact onGossip_judges endpoint peer frame.payload
  · exact violation_judges endpoint peer

/-- What was done to the data of active nodes before is no part of it. -/
theorem Judges.of_undisturbed {registry : Registry}
    (hundisturbed : Undisturbed endpoint.registry registry)
    (hjudges : Judges (endpoint.setRegistry registry) peer after violates) :
    Judges endpoint peer after violates := by
  cases hjudges with
  | lets hviolations hregistry => exact .lets hviolations (hundisturbed.trans hregistry)
  | counts later hlater hviolations hregistry =>
      exact .counts later (hundisturbed.trans hlater) hviolations hregistry

theorem onActiveFrame_judges (endpoint : Endpoint) (name : PeerName) (frame : Frame) :
    Judges endpoint name.idHash (endpoint.onActiveFrame name frame) frame.isViolation := by
  have htouch := Registry.updateActive_undisturbed endpoint.registry name.idHash
    fun node => { node with lastSeen := endpoint.clock }
  refine .of_undisturbed htouch ?_
  unfold onActiveFrame
  dsimp only
  split
  · rename_i hnet
    exact onNetFrame_judges _ _ hnet
  · rename_i happlication
    rw [Frame.isViolation, Bool.eq_false_iff.mpr happlication, Bool.false_and]
    exact .lets rfl (.refl _)

theorem Judges.violations (hjudges : Judges endpoint peer after violates) :
    after.violations = endpoint.violations.recordAll (if violates then [peer] else []) := by
  cases hjudges with
  | lets hviolations => exact hviolations
  | counts registry _ hviolations => exact hviolations

/-- The error that is too many. -/
theorem Judges.expels (hjudges : Judges endpoint peer after true)
    (hcrossed : (endpoint.violations.record peer).2 = true) :
    endpoint.registry.Expels peer (endpoint.clock + endpoint.registry.limits.banDuration)
      after.registry := by
  cases hjudges with
  | counts registry hundisturbed _ hregistry =>
      rw [hregistry, Violations.check]
      simp only [hcrossed, if_true]
      exact Registry.expels_dropActive hundisturbed endpoint.clock peer

theorem Judges.undisturbed (hjudges : Judges endpoint peer after violates)
    (hwithin : ¬ (violates = true ∧ (endpoint.violations.record peer).2 = true)) :
    Undisturbed endpoint.registry after.registry := by
  cases hjudges with
  | lets _ hregistry => exact hregistry
  | counts registry hundisturbed _ hregistry =>
      have hcrossed : ¬ (endpoint.violations.record peer).2 = true := fun h => hwithin ⟨rfl, h⟩
      rw [hregistry, Violations.check]
      simp only [hcrossed]
      exact hundisturbed

theorem Silent.violations (hsilent : Silent endpoint after) :
    after.violations = endpoint.violations := by
  rw [hsilent]

theorem Promotes.violations {conn : ConnId} {name : PeerName}
    (hpromotes : Promotes endpoint conn after name) : after.violations = endpoint.violations := by
  cases hpromotes with
  | accepted node registry _ hafter => rw [hafter]; rfl
  | dialed node registry latency _ hafter => rw [hafter]; rfl

theorem keepSession_violations (endpoint : Endpoint) (session : Session) :
    (endpoint.keepSession session).violations = endpoint.violations := by
  unfold keepSession
  split <;> rfl

end Endpoint

/-! ## What a visit counts -/

namespace Visit

open Registry (Undisturbed)

variable {visit : Visit} {frame : Frame} {name : PeerName} {origin : Origin} {frames : List Frame}

/-- The errors that a visit counts. -/
def errors (visit : Visit) : List IdHash :=
  if visit.isViolation then visit.session.peer.toList.map (·.idHash) else []

theorem frame?_of_oversized (hoversized : visit.isOversized = true) : visit.frame? = none := by
  unfold isOversized at hoversized
  split at hoversized
  · rename_i error hlook
    obtain ⟨hreading, hrunning, hfront⟩ := look?_eq_some hlook
    simp only [frame?, hreading, isStopped, if_neg hrunning, hfront]
  · cases hoversized

theorem isViolation_of_frame (hframe : visit.frame? = some frame) :
    visit.isOversized = false ∧ visit.isViolation = frame.isViolation := by
  have hsmall : visit.isOversized = false := by
    by_contra hoversized
    cases hframe.symm.trans (frame?_of_oversized (by simpa using hoversized))
  exact ⟨hsmall, by rw [isViolation, hsmall, hframe]; rfl⟩

theorem isViolation_of_silence (hframe : visit.frame? = none) :
    visit.isViolation = visit.isOversized := by
  rw [isViolation, hframe]
  exact Bool.or_false _

/-- A header beyond the limit is found at the front of the buffer, by a session that reads on. -/
theorem isOversized_iff (visit : Visit) :
    visit.isOversized = true ↔ visit.session.stage = .reading ∧
      (visit.before.isCancelled visit.session && visit.heeds) = false ∧
      ∃ header, Header.peek? visit.session.buffer = some header ∧
        visit.before.settings.maxFrameBody.toNat < header.length.toNat := by
  constructor
  · intro hoversized
    unfold isOversized at hoversized
    split at hoversized
    · rename_i error hlook
      obtain ⟨hreading, hrunning, hfront⟩ := look?_eq_some hlook
      obtain ⟨header, hpeek, hlimit, _⟩ := FrameStream.front_eq_oversized_iff.mp hfront
      exact ⟨hreading, Bool.eq_false_iff.mpr hrunning, header, hpeek, hlimit⟩
    · cases hoversized
  · rintro ⟨hreading, hrunning, header, hpeek, hlimit⟩
    have hfront := FrameStream.front_eq_oversized_iff.mpr ⟨header, hpeek, hlimit, rfl⟩
    simp [isOversized, look?, hreading, isStopped, hrunning, hfront]

/-- A session that reads and finds neither a frame nor a header beyond the limit does nothing. -/
theorem after_of_reading (hreading : visit.session.stage = .reading) (hframe : visit.frame? = none)
    (hsmall : visit.isOversized = false) : visit.after = visit.before := by
  by_cases hstopped : visit.isStopped = true
  · exact (advance_of_stopped hreading hstopped).1
  have hlook : visit.look? = some (FrameStream.front visit.before.settings.maxFrameBody.toNat
      visit.session.buffer) := by
    simp only [look?, hreading, if_neg hstopped]
  cases hfront : FrameStream.front visit.before.settings.maxFrameBody.toNat
      visit.session.buffer with
  | frame frame rest =>
      rw [hfront] at hlook
      cases hframe.symm.trans (advance_of_frame hlook).1
  | incomplete =>
      rw [hfront] at hlook
      exact (advance_of_incomplete hlook).1
  | oversized error =>
      rw [isOversized, hlook, hfront] at hsmall
      cases hsmall

/-- All that a visit with a peer can be: a header beyond the limit, a wait or an end, or a frame. -/
theorem cases_of_named (hstands : Stands origin frames visit.session)
    (hpeer : visit.session.peer = some name) :
    (visit.isOversized = true ∧ visit.frame? = none ∧
      visit.after = (visit.before.violation name.idHash).1 ∧ visit.next.isOver = true) ∨
    (visit.isViolation = false ∧ visit.frame? = none ∧ Endpoint.Silent visit.before visit.after) ∨
    ∃ frame, visit.frame? = some frame ∧
      visit.after = visit.before.onActiveFrame name frame ∧ visit.next.isOver = false := by
  by_cases hoversized : visit.isOversized = true
  · obtain ⟨hafter, hnext⟩ := advance_of_oversized hoversized
    rw [Endpoint.onOversized, hpeer] at hafter
    exact Or.inl ⟨hoversized, frame?_of_oversized hoversized, hafter, by rw [hnext]; rfl⟩
  have hsmall : visit.isOversized = false := Bool.eq_false_iff.mpr hoversized
  rcases visit.course with ⟨hframe, hsilent⟩ | ⟨hframe, hreading, _⟩ | ⟨_, _, hstage, _⟩ |
    ⟨_, _, hstage, _⟩ | ⟨frame, rest, deadline, hframe, hreading, _, hreceipt⟩
  · exact Or.inr (Or.inl ⟨(isViolation_of_silence hframe).trans hsmall, hframe, hsilent⟩)
  · have hafter := after_of_reading hreading hframe hsmall
    exact Or.inr (Or.inl ⟨(isViolation_of_silence hframe).trans hsmall, hframe,
      by rw [hafter]; exact .refl _⟩)
  · cases (hstands.of_accepting hstage).1.symm.trans hpeer
  · cases (hstands.of_accepting hstage).1.symm.trans hpeer
  · obtain ⟨hafter, hnext⟩ := active_of_named hstands hreading hpeer hreceipt
    refine Or.inr (Or.inr ⟨frame, hframe, hafter, ?_⟩)
    rw [hnext, Session.isOver]
    simp only [hreading]

theorem judges_of_named (hstands : Stands origin frames visit.session)
    (hpeer : visit.session.peer = some name) :
    Endpoint.Judges visit.before name.idHash visit.after visit.isViolation := by
  rcases cases_of_named hstands hpeer with ⟨hoversized, _, hafter, _⟩ |
    ⟨hviolation, _, hsilent⟩ | ⟨frame, hframe, hafter, _⟩
  · rw [isViolation, hoversized, Bool.true_or, hafter]
    exact Endpoint.violation_judges visit.before name.idHash
  · rw [hviolation]
    refine .lets hsilent.violations ?_
    rw [hsilent.registry]
    exact .refl _
  · rw [(isViolation_of_frame hframe).2, hafter]
    exact Endpoint.onActiveFrame_judges visit.before name frame

/-- What ends a session with a peer, unless it is the error that is too many, is nothing to the registry. -/
theorem registry_of_over (hstands : Stands origin frames visit.session)
    (hpeer : visit.session.peer = some name) (hover : visit.next.isOver = true)
    (hwithin : ¬ (visit.isViolation = true ∧
      (visit.before.violations.record name.idHash).2 = true)) :
    visit.after.registry = visit.before.registry := by
  rcases cases_of_named hstands hpeer with ⟨hoversized, _, hafter, _⟩ | ⟨_, _, hsilent⟩ |
    ⟨_, _, _, hgoes⟩
  · have hviolation : visit.isViolation = true := by rw [isViolation, hoversized, Bool.true_or]
    have hcrossed : ¬ (visit.before.violations.record name.idHash).2 = true :=
      fun hcrossed => hwithin ⟨hviolation, hcrossed⟩
    rw [hafter]
    show (visit.before.violations.check visit.before.registry visit.before.clock name.idHash).2.1 = _
    rw [Violations.check]
    simp only [hcrossed]
    rfl
  · exact hsilent.registry
  · cases hgoes.symm.trans hover

theorem errors_of_unnamed (hpeer : visit.session.peer = none) : visit.errors = [] := by
  rw [errors, hpeer]
  exact ite_self _

/-- With a peer, a visit counts one error for the frame that it reads or the header that it finds. -/
theorem errors_of_named (hpeer : visit.session.peer = some name) :
    visit.errors = List.replicate (visit.frame?.toList.countP Frame.isViolation +
      [visit].countP isOversized) name.idHash := by
  rw [errors, hpeer, List.countP_singleton]
  cases hframe : visit.frame? with
  | none =>
      rw [isViolation_of_silence hframe]
      cases visit.isOversized <;> rfl
  | some frame =>
      obtain ⟨hsmall, hviolation⟩ := isViolation_of_frame hframe
      rw [hsmall, hviolation]
      cases hbreaks : frame.isViolation <;> simp [hbreaks]

/-- The counters of an endpoint change by the errors that a visit counts, and by nothing else. -/
theorem violations_after (hstands : Stands origin frames visit.session) :
    visit.after.violations = visit.before.violations.recordAll visit.errors := by
  cases hpeer : visit.session.peer with
  | some name =>
      rw [(judges_of_named hstands hpeer).violations, errors, hpeer]
      rfl
  | none =>
      rw [errors_of_unnamed hpeer]
      cases hnext : visit.next.peer with
      | none => exact (silent_of_unnamed hnext).violations
      | some name => exact (promotes_of_named hpeer hnext).violations

/-- The step in which a session counts the error that is too many. -/
theorem expels_of_crossed (hstands : Stands origin frames visit.session)
    (hpeer : visit.session.peer = some name) (hviolation : visit.isViolation = true)
    (hcrossed : (visit.before.violations.record name.idHash).2 = true) :
    visit.before.registry.Expels name.idHash
      (visit.before.clock + visit.before.registry.limits.banDuration)
      (visit.after.keepSession visit.next).registry := by
  have hjudges := judges_of_named hstands hpeer
  rw [hviolation] at hjudges
  have hexpels := hjudges.expels hcrossed
  rcases Stay.keepSession_cases visit.after visit.next with ⟨_, _, hregistry⟩ | ⟨_, _, hregistry⟩
  · rw [hregistry]
    exact hexpels.removeConn _
  · rw [hregistry]
    exact hexpels

/-- Any other step of a session: nobody is disturbed, unless the session takes its connection along. -/
theorem undisturbed_of_within (hstands : Stands origin frames visit.session)
    (hpeer : visit.session.peer = some name)
    (hwithin : ¬ (visit.isViolation = true ∧
      (visit.before.violations.record name.idHash).2 = true)) :
    Undisturbed (if visit.next.isOver then (visit.before.registry.removeConn visit.session.conn).1
      else visit.before.registry) (visit.after.keepSession visit.next).registry := by
  rcases Stay.keepSession_cases visit.after visit.next with ⟨hover, _, hregistry⟩ |
    ⟨hgoes, _, hregistry⟩
  · rw [if_pos hover, hregistry, visit.next_conn, registry_of_over hstands hpeer hover hwithin]
    exact .refl _
  · rw [if_neg (by rw [hgoes]; exact Bool.false_ne_true), hregistry]
    exact (judges_of_named hstands hpeer).undisturbed hwithin

end Visit

end Peering
