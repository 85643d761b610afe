import Peering.Proofs.Registry.Spares
import Peering.Proofs.Session.Gate

/-!
# What a visit reaches

The sessions of an endpoint share its registry. Of all its connections a visit of a
session reaches its own, the dial to the same node that yields when the session's
peer becomes active, and, on the one violation that is too many, the connection on
which the peer is active.
-/

namespace Peering

/-! ## Moves without an offer -/

namespace Registry

variable {registry middle after : Registry} {touched : ConnId → Prop} {now : Nat} {conn : ConnId}
  {peer : IdHash} {past : List Event}

/-- What leaves the sets is closed, and only touched connections are concerned. -/
structure Confined (registry : Registry) (touched : ConnId → Prop) (after : Registry) : Prop where
  settles : ∃ released, Settles registry [] after released
  spares : Spares registry touched after

theorem Confined.keyed (hconfined : Confined registry touched after) : Keyed after :=
  hconfined.settles.choose_spec.keyed

theorem Confined.trans (hfirst : Confined registry touched middle)
    (hsecond : Confined middle touched after) : Confined registry touched after where
  settles := by
    obtain ⟨_, hfirst⟩ := hfirst.settles
    obtain ⟨_, hsecond⟩ := hsecond.settles
    exact ⟨_, hfirst.trans hsecond⟩
  spares := hfirst.spares.trans hsecond.spares

theorem Keyed.confined_of_same (hkeyed : Keyed registry)
    (houtbound : after.outbound = registry.outbound)
    (hinbound : after.inbound = registry.inbound) (hactive : after.active = registry.active)
    (hclosed : after.closed = registry.closed) : Confined registry touched after :=
  ⟨⟨[], hkeyed.settles_of_same houtbound hinbound hactive hclosed⟩,
    spares_of_same houtbound hinbound hactive hclosed⟩

theorem Keyed.confined (hkeyed : Keyed registry) : Confined registry touched registry :=
  hkeyed.confined_of_same rfl rfl rfl rfl

theorem Keyed.addTemp_confined {node : Node} (hkeyed : Keyed registry)
    (hadd : registry.addTemp now node = .ok after) : Confined registry touched after := by
  obtain ⟨_, _, _, _, _, _, rfl⟩ := addTemp_ok hadd
  exact hkeyed.confined_of_same rfl rfl rfl rfl

theorem Keyed.updateActive_confined (hkeyed : Keyed registry) (peer : IdHash)
    (change : Node → Node) : Confined registry touched (registry.updateActive peer change) :=
  ⟨⟨[], hkeyed.updateActive_settles peer change⟩, updateActive_spares registry peer change⟩

theorem Keyed.dropActive_confined (hkeyed : Keyed registry)
    (htouched : ∀ conn, registry.IsActiveOn peer conn → touched conn) :
    Confined registry touched (registry.dropActive peer).1 :=
  ⟨hkeyed.dropActive_settles peer, hkeyed.dropActive_spares htouched⟩

theorem Keyed.promoteToActive_confined {direction : Direction} {node : Node}
    (hkeyed : Keyed registry) (hown : touched conn)
    (hdial : ∀ other, direction = .inbound → registry.IsYieldingDial node.idHash other →
      touched other)
    (hpromote : registry.promoteToActive now conn direction node = .ok after) :
    Confined registry touched after :=
  ⟨hkeyed.promoteToActive_settles hpromote, hkeyed.promoteToActive_spares hown hdial hpromote⟩

/-- The data of active nodes says nothing about who is active where. -/
theorem isActiveOn_updateActive {other : IdHash} (change : Node → Node)
    (hon : (registry.updateActive other change).IsActiveOn peer conn) :
    registry.IsActiveOn peer conn := by
  obtain ⟨active, hfind, hconn⟩ := hon
  rw [updateActive, Table.find?_modify] at hfind
  split at hfind
  · obtain ⟨known, hknown, rfl⟩ := Option.map_eq_some_iff.mp hfind
    exact ⟨known, hknown, hconn⟩
  · exact ⟨active, hfind, hconn⟩

/-- A move that is offered nothing leaves the past as it is. -/
theorem Owns.settle {released : List ConnId} (h : Owns past registry)
    (hsettles : Settles registry [] after released) : Owns past after := by
  have hafter : (released ++ after.handles).Nodup := hsettles.handles.nodup_iff.mp h.nodup
  have hmem : ∀ conn, conn ∈ registry.handles ↔ conn ∈ released ∨ conn ∈ after.handles := fun conn => by
    rw [← List.mem_append, ← hsettles.handles.mem_iff, List.nil_append]
  refine ⟨hsettles.keyed, (List.nodup_append.mp hafter).2.1, fun conn hheld => ?_,
    fun conn hoffered => ?_, fun conn hheld hclosed => ?_, fun conn hclosed => ?_⟩
  · exact h.offered conn ((hmem conn).mpr (Or.inr hheld))
  · rw [hsettles.closed]
    rcases h.known conn hoffered with hheld | hclosed
    · rcases (hmem conn).mp hheld with hreleased | hkept
      · exact Or.inr (Or.inr hreleased)
      · exact Or.inl hkept
    · exact Or.inr (Or.inl hclosed)
  · rcases (hsettles.closed conn).mp hclosed with hwas | hreleased
    · exact h.cancelled conn ((hmem conn).mpr (Or.inr hheld)) hwas
    · exact absurd rfl ((List.nodup_append.mp hafter).2.2 conn hreleased conn hheld)
  · rcases (hsettles.closed conn).mp hclosed with hwas | hreleased
    · exact h.closed conn hwas
    · exact Or.inl (h.offered conn ((hmem conn).mpr (Or.inl hreleased)))

end Registry

/-! ## One visit -/

/-- Whether a frame of an active peer breaks the protocol. -/
def Frame.isViolation (frame : Frame) : Bool :=
  frame.isNet &&
    if frame.action = NetAction.ping then false
    else if frame.action = NetAction.pong then false
    else if frame.action = NetAction.activeNodesRequest then false
    else if frame.action = NetAction.activeNodesResponse then
      match Gossip.decode frame.payload with
      | .error _ => true
      | .ok _ => false
    else true

namespace Endpoint

open Registry (Keyed Confined)

variable {endpoint after : Endpoint} {session : Session} {frame : Frame} {peer : IdHash}
  {touched : ConnId → Prop}

theorem Silent.confined (hkeyed : Keyed endpoint.registry) (hsilent : Silent endpoint after) :
    Confined endpoint.registry touched after.registry := by
  rw [hsilent.registry]
  exact hkeyed.confined

/-- A violation reaches nobody, unless it is the one that is too many. -/
theorem violation_confined (hkeyed : Keyed endpoint.registry)
    (htouched : (endpoint.violations.record peer).2 = true →
      ∀ conn, endpoint.registry.IsActiveOn peer conn → touched conn) :
    Confined endpoint.registry touched (endpoint.violation peer).1.registry := by
  show Confined endpoint.registry touched
    (endpoint.violations.check endpoint.registry endpoint.clock peer).2.1
  unfold Violations.check
  dsimp only
  split
  case isTrue hcrossed =>
    have hbanned : Confined endpoint.registry touched (endpoint.registry.ban endpoint.clock peer) :=
      hkeyed.confined_of_same rfl rfl rfl rfl
    exact hbanned.trans (hbanned.keyed.dropActive_confined (htouched hcrossed))
  case isFalse => exact hkeyed.confined

theorem ingest_confined {registry : Registry} (hkeyed : Keyed registry) (now : Nat)
    (entries : List Gossip.Entry) : Confined registry touched (ingest now registry entries).1 := by
  induction entries generalizing registry with
  | nil => exact hkeyed.confined
  | cons entry rest ih =>
      unfold ingest
      split
      · rename_i next hadd
        have hadded : Confined registry touched next := hkeyed.addTemp_confined hadd
        exact hadded.trans (ih hadded.keyed)
      · exact hkeyed.confined
      · exact ih hkeyed

theorem onGossip_confined {payload : Bytes} (hkeyed : Keyed endpoint.registry)
    (htouched : (∃ error, Gossip.decode payload = .error error) →
      (endpoint.violations.record peer).2 = true →
      ∀ conn, endpoint.registry.IsActiveOn peer conn → touched conn) :
    Confined endpoint.registry touched (endpoint.onGossip peer payload).registry := by
  unfold onGossip
  split
  · rename_i error herror
    exact violation_confined hkeyed (htouched ⟨error, herror⟩)
  · rename_i entries _
    have hregistry := takeLatency_registry endpoint peer
    generalize endpoint.takeLatency peer = taken at hregistry
    obtain ⟨next, latency⟩ := taken
    have hsame : next.registry = endpoint.registry := hregistry
    cases latency with
    | none =>
        show Confined _ _ (ingest next.clock next.registry entries).1
        rw [hsame]
        exact ingest_confined hkeyed _ entries
    | some latency =>
        show Confined _ _ (ingest next.clock (next.registry.updateLatency peer latency) entries).1
        rw [hsame]
        have hmeasured : Confined endpoint.registry touched
            (endpoint.registry.updateLatency peer latency) := hkeyed.updateActive_confined peer _
        exact hmeasured.trans (ingest_confined hmeasured.keyed _ entries)

theorem onNetFrame_confined (hkeyed : Keyed endpoint.registry) (hnet : frame.isNet = true)
    (htouched : frame.isViolation = true → (endpoint.violations.record peer).2 = true →
      ∀ conn, endpoint.registry.IsActiveOn peer conn → touched conn) :
    Confined endpoint.registry touched (endpoint.onNetFrame peer frame).registry := by
  unfold onNetFrame
  rw [Frame.isViolation, hnet, Bool.true_and] at htouched
  split
  · exact hkeyed.confined
  split
  · exact hkeyed.confined
  split
  · exact hkeyed.confined
  rename_i hping hpong hrequest
  rw [if_neg hping, if_neg hpong, if_neg hrequest] at htouched
  split
  · rename_i hresponse
    rw [if_pos hresponse] at htouched
    refine onGossip_confined hkeyed ?_
    rintro ⟨error, herror⟩
    rw [herror] at htouched
    exact htouched rfl
  · rename_i hother
    rw [if_neg hother] at htouched
    exact violation_confined hkeyed (htouched rfl)

theorem onActiveFrame_confined {name : PeerName} (hkeyed : Keyed endpoint.registry)
    (htouched : frame.isViolation = true → (endpoint.violations.record name.idHash).2 = true →
      ∀ conn, endpoint.registry.IsActiveOn name.idHash conn → touched conn) :
    Confined endpoint.registry touched (endpoint.onActiveFrame name frame).registry := by
  let next := endpoint.setRegistry (endpoint.registry.touch endpoint.clock name.idHash)
  have htouch : Confined endpoint.registry touched next.registry :=
    hkeyed.updateActive_confined name.idHash fun node => { node with lastSeen := endpoint.clock }
  show Confined _ _ (if frame.isNet then next.onNetFrame name.idHash frame
    else next.submit (incoming name frame)).registry
  split
  · rename_i hnet
    refine htouch.trans (onNetFrame_confined htouch.keyed hnet
      fun hviolation hcrossed conn hon => htouched hviolation hcrossed conn ?_)
    exact Registry.isActiveOn_updateActive (fun node => { node with lastSeen := endpoint.clock }) hon
  · exact htouch

/-- A frame reaches the own connection of its session, and as a violation that of its peer. -/
theorem onFrame_confined (hkeyed : Keyed endpoint.registry) (hown : touched session.conn)
    (htouched : ∀ name, session.peer = some name → frame.isViolation = true →
      (endpoint.violations.record name.idHash).2 = true →
      ∀ conn, endpoint.registry.IsActiveOn name.idHash conn → touched conn) :
    Confined endpoint.registry touched (endpoint.onFrame session frame).1.registry := by
  unfold onFrame
  split
  · split
    · exact (onRequest_cases endpoint session frame.payload).1.confined hkeyed
    · exact hkeyed.confined
  · split
    · rcases onResponse_cases endpoint session frame.payload with ⟨hafter, _⟩ |
        ⟨_, dialed, registry, latency, _, _, _, hpromote, hafter, _⟩
      · rw [hafter]
        exact hkeyed.confined
      · rw [hafter]
        have hpromoted : Confined endpoint.registry touched registry := by
          refine hkeyed.promoteToActive_confined hown ?_ hpromote
          intro _ hinbound
          cases hinbound
        have hmeasured : Confined registry touched (registry.updateLatency dialed.idHash latency) :=
          hpromoted.keyed.updateActive_confined dialed.idHash _
        exact hpromoted.trans hmeasured
    · exact hkeyed.confined
  · rename_i name _ hpeer
    exact onActiveFrame_confined hkeyed (htouched name hpeer)
  · exact hkeyed.confined
  · exact hkeyed.confined
  · exact hkeyed.confined

end Endpoint

namespace Visit

open Registry (Keyed Confined)

variable {visit : Visit} {frame : Frame} {conn : ConnId}

/-- What a session that reads on finds at the front of its buffer. -/
def look? (visit : Visit) : Option Front :=
  match visit.session.stage with
  | .reading =>
      if visit.isStopped then none
      else some (FrameStream.front visit.before.settings.maxFrameBody.toNat visit.session.buffer)
  | _ => none

/-- Whether the visit finds a header beyond the limit. -/
def isOversized (visit : Visit) : Bool :=
  match visit.look? with
  | some (.oversized _) => true
  | _ => false

/-- Whether the visit reads what no active peer may send. -/
def isViolation (visit : Visit) : Bool :=
  visit.isOversized || visit.frame?.any (·.isViolation)

/-- The connections that a visit may reach. -/
inductive Reaches (visit : Visit) (conn : ConnId) : Prop where
  | own (hown : conn = visit.session.conn)
  /-- The dial to the node that becomes active in the visit, if it is ours to yield. -/
  | yielding (node : Node) (hstage : visit.session.stage = .accepting node)
      (hpromoted : visit.next.peer = some ⟨node.idHash, node.display⟩)
      (hdial : visit.before.registry.IsYieldingDial node.idHash conn)
  /-- The connection on which the peer is active, on the violation that is too many. -/
  | expelled (name : PeerName) (hpeer : visit.session.peer = some name)
      (hviolation : visit.isViolation = true)
      (hcrossed : (visit.before.violations.record name.idHash).2 = true)
      (hactive : visit.before.registry.IsActiveOn name.idHash conn)

/-- What stops a session that reads, other than a frame. -/
inductive Stops (visit : Visit) : Prop where
  /-- The session has been told to stop, and looks at that first. -/
  | cancelled (hreading : visit.session.stage = .reading) (hstopped : visit.isStopped = true)
  | oversized (hoversized : visit.isOversized = true)
  /--
  There is no frame, and the session has been told to stop, or the stream has ended,
  with or without a part of a frame, or the time is up.
  -/
  | dry (hlook : visit.look? = some .incomplete)
      (hended : visit.before.isCancelled visit.session = true ∨ visit.session.ended = true ∨
        visit.session.deadline ≤ visit.before.timer)

theorem advance_of_stopped (hreading : visit.session.stage = .reading)
    (hstopped : visit.isStopped = true) :
    visit.after = visit.before ∧ visit.next = visit.session.quit := by
  unfold isStopped at hstopped
  simp only [after, next, Endpoint.advanceSession, hreading, Endpoint.stepReading, if_pos hstopped,
    and_self]

/-- A session that finds something goes by what it finds. -/
theorem look?_eq_some {found : Front} (hlook : visit.look? = some found) :
    visit.session.stage = .reading ∧
      ¬ (visit.before.isCancelled visit.session && visit.heeds) = true ∧
      FrameStream.front visit.before.settings.maxFrameBody.toNat visit.session.buffer = found := by
  unfold look? at hlook
  split at hlook
  · rename_i hreading
    split at hlook
    · cases hlook
    · rename_i hrunning
      exact ⟨hreading, hrunning, Option.some.inj hlook⟩
  · cases hlook

theorem advance_of_oversized (hoversized : visit.isOversized = true) :
    visit.after = visit.before.onOversized visit.session ∧ visit.next = visit.session.quit := by
  unfold isOversized at hoversized
  split at hoversized
  · rename_i error hlook
    obtain ⟨hreading, hrunning, hfront⟩ := look?_eq_some hlook
    simp only [after, next, Endpoint.advanceSession, hreading, Endpoint.stepReading,
      if_neg hrunning, hfront, and_self]
  · cases hoversized

theorem advance_of_incomplete (hlook : visit.look? = some .incomplete) :
    visit.after = visit.before ∧
      (visit.before.isCancelled visit.session = true ∨ visit.session.ended = true ∨
        visit.session.deadline ≤ visit.before.timer → visit.next = visit.session.quit) := by
  obtain ⟨hreading, hrunning, hfront⟩ := look?_eq_some hlook
  simp only [after, next, Endpoint.advanceSession, hreading, Endpoint.stepReading, if_neg hrunning,
    hfront, Bool.or_eq_true, decide_eq_true_eq, or_assoc]
  split
  · exact ⟨rfl, fun _ => rfl⟩
  · rename_i hwaits
    exact ⟨rfl, fun hended => absurd hended hwaits⟩

/-- A frame that is found goes through the handling of frames. -/
theorem advance_of_frame {rest : Bytes} (hlook : visit.look? = some (.frame frame rest)) :
    visit.frame? = some frame ∧ ∃ deadline, visit.after =
      (visit.before.onFrame { visit.session with buffer := rest, deadline := deadline } frame).1 := by
  obtain ⟨hreading, hrunning, hfront⟩ := look?_eq_some hlook
  refine ⟨?_, visit.before.timer + visit.before.settings.readTimeout, ?_⟩
  · simp only [frame?, hreading, isStopped, if_neg hrunning, hfront]
  · simp only [after, Endpoint.advanceSession, hreading, Endpoint.stepReading, if_neg hrunning,
      hfront]

theorem confined_of_reading (hkeyed : Keyed visit.before.registry)
    (hreading : visit.session.stage = .reading) :
    Confined visit.before.registry visit.Reaches visit.after.registry := by
  by_cases hstopped : visit.isStopped = true
  · rw [(advance_of_stopped hreading hstopped).1]
    exact hkeyed.confined
  have hlook : visit.look? = some (FrameStream.front visit.before.settings.maxFrameBody.toNat
      visit.session.buffer) := by
    simp only [look?, hreading, if_neg hstopped]
  cases hfront : FrameStream.front visit.before.settings.maxFrameBody.toNat
      visit.session.buffer with
  | frame frame rest =>
      rw [hfront] at hlook
      obtain ⟨hframe, deadline, hafter⟩ := advance_of_frame hlook
      rw [hafter]
      refine Endpoint.onFrame_confined hkeyed (.own rfl) fun name hpeer hviolation hcrossed _ hon =>
        .expelled name hpeer ?_ hcrossed hon
      rw [isViolation, hframe, Option.any_some, hviolation, Bool.or_true]
  | incomplete =>
      rw [hfront] at hlook
      rw [(advance_of_incomplete hlook).1]
      exact hkeyed.confined
  | oversized error =>
      have hoversized : visit.isOversized = true := by
        rw [isOversized, hlook, hfront]
      rw [(advance_of_oversized hoversized).1, Endpoint.onOversized]
      split
      · rename_i name hpeer
        exact Endpoint.violation_confined hkeyed fun hcrossed _ hon =>
          .expelled name hpeer (by rw [isViolation, hoversized, Bool.true_or]) hcrossed hon
      · exact hkeyed.confined

/-- A visit reaches no connections but those that it may reach. -/
theorem confined (visit : Visit) (hkeyed : Keyed visit.before.registry) :
    Confined visit.before.registry visit.Reaches visit.after.registry := by
  rcases visit.course with ⟨_, hsilent⟩ | ⟨_, hreading, _⟩ | ⟨_, _, _, hsilent, _⟩ |
    ⟨node, _, hstage, hpromotes, hnext⟩ | ⟨_, _, _, _, hreading, _⟩
  · exact hsilent.confined hkeyed
  · exact confined_of_reading hkeyed hreading
  · exact hsilent.confined hkeyed
  · have hpromoted : visit.next.peer = some ⟨node.idHash, node.display⟩ := by
      rw [hnext]
      rfl
    generalize hname : (⟨node.idHash, node.display⟩ : PeerName) = name at hpromotes
    cases hpromotes with
    | accepted other registry hpromote hafter =>
        obtain ⟨hhash, _⟩ := PeerName.mk.inj hname
        rw [hafter]
        refine hkeyed.promoteToActive_confined (.own rfl) (fun conn _ hdial => ?_) hpromote
        rw [← hhash] at hdial
        exact .yielding node hstage hpromoted hdial
    | dialed other registry latency hpromote hafter =>
        rw [hafter]
        have hmoved : Confined visit.before.registry visit.Reaches registry := by
          refine hkeyed.promoteToActive_confined (.own rfl) ?_ hpromote
          intro _ hinbound
          cases hinbound
        have hmeasured : Confined registry visit.Reaches
            (registry.updateLatency other.idHash latency) :=
          hmoved.keyed.updateActive_confined other.idHash _
        exact hmoved.trans hmeasured
  · exact confined_of_reading hkeyed hreading

/-- What stops a session ends it in that visit. -/
theorem isOver_of_stops (hstops : visit.Stops) : visit.next.isOver = true := by
  have hquit : visit.next = visit.session.quit := by
    cases hstops with
    | cancelled hreading hstopped => exact (advance_of_stopped hreading hstopped).2
    | oversized hoversized => exact (advance_of_oversized hoversized).2
    | dry hlook hended => exact (advance_of_incomplete hlook).2 hended
  rw [hquit]
  rfl

end Visit

end Peering
