import Peering.Proofs.Session.Errors

/-!
# The conduct of a peer

A session counts the errors of its peer on an endpoint on which other errors are
counted, too. Over a whole run, those counted against the peer are as many as the
frames and headers that call for it, and the peer is banned and dropped in the step
in which its count passes the tolerance, and in no other.
-/

namespace Peering

/-- An endpoint with the session of one connection, what that has done, and the errors counted so far. -/
structure Conduct where
  endpoint : Endpoint
  diary : Diary
  log : List IdHash

namespace Conduct

open Registry (Undisturbed Expels)

inductive Turn where
  | receive (bytes : Bytes)
  /-- The stream has ended, or it cannot be read any more. -/
  | endStream
  /-- A step of the session, if it is not over. -/
  | step (heeds : Bool)
  /-- Whatever becomes of the rest of the endpoint, with the errors that are counted there. -/
  | elsewhere (other : Endpoint) (errors : List IdHash)

namespace Turn

def bytes : Turn → Bytes
  | .receive bytes => bytes
  | _ => []

def errors : Turn → List IdHash
  | .elsewhere _ errors => errors
  | _ => []

end Turn

/-- A session on an endpoint that has these counters, before anything has arrived. -/
def opening (endpoint : Endpoint) (violations : Violations) (session : Session) : Conduct :=
  ⟨{ endpoint with violations := violations }.addSession session, Diary.opening session, []⟩

/-- Another endpoint, but with the same session of a connection and with these errors counted. -/
def meanwhile (endpoint : Endpoint) (conn : ConnId) (other : Endpoint) (errors : List IdHash) :
    Endpoint :=
  { other with
    sessions := match endpoint.sessions.find? conn with
      | none => other.sessions.erase conn
      | some session => other.sessions.insert conn session
    violations := endpoint.violations.recordAll errors }

def act (conn : ConnId) (conduct : Conduct) : Turn → Conduct
  | .receive bytes =>
      { conduct with
        endpoint := (conduct.endpoint.receive conn bytes).1
        diary := conduct.diary.act (.receive bytes) }
  | .endStream =>
      { conduct with
        endpoint := conduct.endpoint.endStream conn
        diary := conduct.diary.act .endStream }
  | .step heeds =>
      match conduct.endpoint.sessions.find? conn with
      | none => conduct
      | some session =>
          ⟨conduct.endpoint.stepSession conn heeds,
            conduct.diary.act (.step conduct.endpoint heeds),
            conduct.log ++ (Visit.mk conduct.endpoint session heeds).errors⟩
  | .elsewhere other errors =>
      { conduct with
        endpoint := meanwhile conduct.endpoint conn other errors
        log := conduct.log ++ errors }

def run (conn : ConnId) (conduct : Conduct) (turns : List Turn) : Conduct :=
  turns.foldl (act conn) conduct

variable {origin : Origin} {conn : ConnId} {start : Violations} {arrived : Bytes}
  {others : List IdHash} {conduct : Conduct} {name : PeerName}

/-- The errors that the session has counted, in order. -/
def errors (diary : Diary) : List IdHash :=
  diary.visits.flatMap Visit.errors

/-- The endpoint has the session as it is, until that is over. -/
def IsSeated (conn : ConnId) (conduct : Conduct) : Prop :=
  conduct.endpoint.sessions.find? conn =
    if conduct.diary.session.isOver then none else some conduct.diary.session

/-- What the errors of a session are counted for. -/
structure Counts (diary : Diary) : Prop where
  unnamed : diary.session.peer = none → errors diary = []
  named : ∀ name, diary.session.peer = some name →
    errors diary = List.replicate (diary.frames.tail.countP Frame.isViolation +
      diary.visits.countP Visit.isOversized) name.idHash
  oversized : diary.visits.countP Visit.isOversized ≤ if diary.session.isOver then 1 else 0

/-- What holds of a session and of the counters, whatever has happened. -/
structure Holds (origin : Origin) (conn : ConnId) (start : Violations) (arrived : Bytes)
    (others : List IdHash) (conduct : Conduct) : Prop where
  gate : Diary.Gate origin conn conduct.diary
  seated : IsSeated conn conduct
  bytes : conduct.diary.frames.flatMap Frame.encode ++ conduct.diary.session.buffer = arrived
  counts : Counts conduct.diary
  violations : conduct.endpoint.violations = start.recordAll conduct.log
  log : ∀ peer, conduct.log.count peer = (errors conduct.diary).count peer + others.count peer

/-! ## What is counted -/

/-- A session with a peer has read the frame that brought it. -/
theorem frames_ne_nil {diary : Diary} (hgate : Diary.Gate origin conn diary)
    (hpeer : diary.session.peer = some name) : diary.frames ≠ [] := by
  obtain ⟨frame, hfirst, _⟩ := hgate.admitted (Or.inl ⟨name, hpeer⟩)
  rintro hnone
  rw [hnone] at hfirst
  cases hfirst

theorem errors_step (diary : Diary) (endpoint : Endpoint) (heeds : Bool) :
    errors (diary.act (.step endpoint heeds)) =
      errors diary ++ (Visit.mk endpoint diary.session heeds).errors := by
  simp [errors, Diary.act]

theorem tail_frames_step {diary : Diary} (hgate : Diary.Gate origin conn diary)
    (hpeer : diary.session.peer = some name) (endpoint : Endpoint) (heeds : Bool) :
    (diary.act (.step endpoint heeds)).frames.tail =
      diary.frames.tail ++ (Visit.mk endpoint diary.session heeds).frame?.toList := by
  rw [Diary.frames_step]
  cases (Visit.mk endpoint diary.session heeds).frame? with
  | none => simp
  | some frame => exact List.tail_append_of_ne_nil (frames_ne_nil hgate hpeer)

/-- A header beyond the limit is the end, so there was none if the session goes on. -/
theorem Counts.oversized_step {diary : Diary} (hcounts : Counts diary)
    (hgoes : diary.session.isOver = false) (endpoint : Endpoint) (heeds : Bool) :
    diary.visits.countP Visit.isOversized = 0 ∧
      (diary.act (.step endpoint heeds)).visits.countP Visit.isOversized =
        [Visit.mk endpoint diary.session heeds].countP Visit.isOversized := by
  have hnone := hcounts.oversized
  rw [hgoes] at hnone
  refine ⟨Nat.le_zero.mp hnone, ?_⟩
  show (diary.visits ++ [_]).countP Visit.isOversized = _
  rw [List.countP_append, Nat.le_zero.mp hnone, Nat.zero_add]

theorem Counts.step {diary : Diary} (hcounts : Counts diary) (hgate : Diary.Gate origin conn diary)
    (hgoes : diary.session.isOver = false) (endpoint : Endpoint) (heeds : Bool) :
    Counts (diary.act (.step endpoint heeds)) := by
  let visit : Visit := ⟨endpoint, diary.session, heeds⟩
  have hstands : Stands origin diary.frames visit.session := hgate.stands
  obtain ⟨hnone, hvisits⟩ := hcounts.oversized_step hgoes endpoint heeds
  refine ⟨fun hunnamed => ?_, fun name hname => ?_, ?_⟩
  · rw [errors_step]
    cases hpeer : diary.session.peer with
    | none => rw [hcounts.unnamed hpeer, Visit.errors_of_unnamed hpeer]; rfl
    | some name =>
        have hnext := (Visit.handsOver_of_named hstands hpeer).1
        cases hnext.symm.trans hunnamed
  · have hname : visit.next.peer = some name := hname
    rw [errors_step, hvisits]
    cases hpeer : diary.session.peer with
    | none =>
        -- the frame that brings the peer is that of the handshake, and nothing is counted for it
        obtain ⟨first, hfirst⟩ := Visit.frames_of_promotion hstands hpeer hname
        have hsmall : ¬ visit.isOversized = true := by
          intro hoversized
          rw [(Visit.advance_of_oversized hoversized).2] at hname
          cases hpeer.symm.trans hname
        rw [hcounts.unnamed hpeer, Visit.errors_of_unnamed hpeer, Diary.frames_step, hfirst,
          List.countP_singleton, if_neg hsmall]
        rfl
    | some other =>
        obtain rfl : other = name :=
          Option.some.inj ((Visit.handsOver_of_named hstands hpeer).1.symm.trans hname)
        rw [hcounts.named other hpeer, Visit.errors_of_named hpeer, hnone, tail_frames_step hgate hpeer,
          List.replicate_append_replicate, List.countP_append, Nat.add_zero, Nat.add_assoc]
  · rw [hvisits, List.countP_singleton]
    show _ ≤ if visit.next.isOver then 1 else 0
    cases hoversized : visit.isOversized with
    | false => exact Nat.zero_le _
    | true =>
        rw [(Visit.advance_of_oversized hoversized).2]
        exact Nat.le_refl 1

/-! ## The session on its endpoint -/

theorem IsSeated.receive (hseated : IsSeated conn conduct) (hconn : conduct.diary.session.conn = conn)
    (bytes : Bytes) : IsSeated conn (conduct.act conn (.receive bytes)) := by
  unfold IsSeated at *
  show (conduct.endpoint.receive conn bytes).1.sessions.find? conn =
    if conduct.diary.session.isOver then none
    else some { conduct.diary.session with buffer := conduct.diary.session.buffer ++ bytes }
  cases hover : conduct.diary.session.isOver with
  | true =>
      rw [hover] at hseated
      rw [Endpoint.receive, hseated]
      exact hseated
  | false =>
      rw [hover] at hseated
      rw [Endpoint.receive, hseated]
      exact (Table.find?_insert _ _ _ _).trans (if_pos hconn.symm)

theorem IsSeated.endStream (hseated : IsSeated conn conduct) :
    IsSeated conn (conduct.act conn .endStream) := by
  unfold IsSeated at *
  show (conduct.endpoint.endStream conn).sessions.find? conn =
    if conduct.diary.session.isOver then none else some { conduct.diary.session with ended := true }
  rw [Endpoint.endStream, Table.find?_modify, if_pos rfl, hseated]
  cases conduct.diary.session.isOver <;> rfl

theorem IsSeated.elsewhere (hseated : IsSeated conn conduct) (other : Endpoint)
    (errors : List IdHash) : IsSeated conn (conduct.act conn (.elsewhere other errors)) := by
  refine Eq.trans ?_ hseated
  show (meanwhile conduct.endpoint conn other errors).sessions.find? conn = _
  unfold meanwhile
  cases conduct.endpoint.sessions.find? conn with
  | none => exact (Table.find?_erase _ _ _).trans (if_pos rfl)
  | some session => exact (Table.find?_insert _ _ _ _).trans (if_pos rfl)

theorem act_step_of_seated (hseated : IsSeated conn conduct)
    (hgoes : conduct.diary.session.isOver = false) (heeds : Bool) :
    let visit : Visit := ⟨conduct.endpoint, conduct.diary.session, heeds⟩
    conduct.endpoint.stepSession conn heeds = visit.after.keepSession visit.next ∧
    conduct.act conn (.step heeds) = ⟨visit.after.keepSession visit.next,
      conduct.diary.act (.step conduct.endpoint heeds), conduct.log ++ visit.errors⟩ := by
  intro visit
  unfold IsSeated at hseated
  rw [hgoes] at hseated
  have hstep : conduct.endpoint.stepSession conn heeds = visit.after.keepSession visit.next :=
    Stay.stepSession_eq hseated heeds
  refine ⟨hstep, ?_⟩
  rw [act, hseated, ← hstep]
  rfl

theorem act_step_of_over (hseated : IsSeated conn conduct)
    (hover : conduct.diary.session.isOver = true) (heeds : Bool) :
    conduct.act conn (.step heeds) = conduct := by
  unfold IsSeated at hseated
  rw [hover] at hseated
  rw [act, hseated]
  rfl

/-! ## Every run -/

namespace Holds

theorem receive (h : Holds origin conn start arrived others conduct) (bytes : Bytes) :
    Holds origin conn start (arrived ++ bytes) others (conduct.act conn (.receive bytes)) where
  gate := h.gate.act (.receive bytes)
  seated := h.seated.receive h.gate.conn_eq bytes
  bytes := by
    rw [← h.bytes, List.append_assoc]
    rfl
  counts := ⟨h.counts.unnamed, h.counts.named, h.counts.oversized⟩
  violations := by
    refine Eq.trans ?_ h.violations
    show (conduct.endpoint.receive conn bytes).1.violations = _
    unfold Endpoint.receive
    split <;> rfl
  log := h.log

theorem endStream (h : Holds origin conn start arrived others conduct) :
    Holds origin conn start arrived others (conduct.act conn .endStream) where
  gate := h.gate.act .endStream
  seated := h.seated.endStream
  bytes := h.bytes
  counts := ⟨h.counts.unnamed, h.counts.named, h.counts.oversized⟩
  violations := h.violations
  log := h.log

theorem elsewhere (h : Holds origin conn start arrived others conduct) (other : Endpoint)
    (errors : List IdHash) :
    Holds origin conn start arrived (others ++ errors)
      (conduct.act conn (.elsewhere other errors)) where
  gate := h.gate
  seated := h.seated.elsewhere other errors
  bytes := h.bytes
  counts := h.counts
  violations := by
    show conduct.endpoint.violations.recordAll errors = start.recordAll (conduct.log ++ errors)
    rw [h.violations, Violations.recordAll_append]
  log := fun peer => by
    show (conduct.log ++ errors).count peer = _
    rw [List.count_append, List.count_append, h.log peer]
    exact Nat.add_assoc _ _ _

theorem step (h : Holds origin conn start arrived others conduct) (heeds : Bool) :
    Holds origin conn start arrived others (conduct.act conn (.step heeds)) := by
  cases hover : conduct.diary.session.isOver with
  | true =>
      rw [act_step_of_over h.seated hover heeds]
      exact h
  | false =>
      let visit : Visit := ⟨conduct.endpoint, conduct.diary.session, heeds⟩
      have hstands : Stands origin conduct.diary.frames visit.session := h.gate.stands
      rw [(act_step_of_seated h.seated hover heeds).2]
      refine ⟨h.gate.act (.step conduct.endpoint heeds), ?_, ?_,
        h.counts.step h.gate hover _ heeds, ?_, ?_⟩
      · have hconn : visit.next.conn = conn := visit.next_conn.trans h.gate.conn_eq
        show (visit.after.keepSession visit.next).sessions.find? conn =
          if visit.next.isOver then none else some visit.next
        rcases Stay.keepSession_cases visit.after visit.next with ⟨hends, hgone, _⟩ |
          ⟨hgoes, hkept, _⟩
        · rw [hconn] at hgone
          rw [hgone, hends]
          rfl
        · rw [hconn] at hkept
          rw [hkept, hgoes]
          rfl
      · rw [← h.bytes, Diary.frames_step, List.flatMap_append, List.append_assoc]
        exact congrArg _ visit.read_append_buffer
      · show (visit.after.keepSession visit.next).violations = start.recordAll (conduct.log ++ _)
        rw [Endpoint.keepSession_violations, Visit.violations_after hstands, Violations.recordAll_append]
        exact congrArg (Violations.recordAll · visit.errors) h.violations
      · intro peer
        rw [errors_step, List.count_append, List.count_append, h.log peer]
        exact Nat.add_right_comm _ _ _

theorem act (h : Holds origin conn start arrived others conduct) (turn : Turn) :
    Holds origin conn start (arrived ++ turn.bytes) (others ++ turn.errors)
      (conduct.act conn turn) := by
  cases turn with
  | receive bytes => exact (List.append_nil others).symm ▸ h.receive bytes
  | endStream => exact (List.append_nil others).symm ▸ (List.append_nil arrived).symm ▸ h.endStream
  | step heeds =>
      exact (List.append_nil others).symm ▸ (List.append_nil arrived).symm ▸ h.step heeds
  | elsewhere other errors => exact (List.append_nil arrived).symm ▸ h.elsewhere other errors

theorem run (h : Holds origin conn start arrived others conduct) (turns : List Turn) :
    Holds origin conn start (arrived ++ turns.flatMap Turn.bytes)
      (others ++ turns.flatMap Turn.errors) (conduct.run conn turns) := by
  induction turns generalizing arrived others conduct with
  | nil => simpa [Conduct.run] using h
  | cons turn rest ih =>
      rw [List.flatMap_cons, List.flatMap_cons, ← List.append_assoc, ← List.append_assoc]
      exact ih (h.act turn)

end Holds

theorem holds_opening (origin : Origin) (conn : ConnId) (openedAt deadline : Nat)
    (endpoint : Endpoint) (start : Violations) :
    Holds origin conn start [] [] (opening endpoint start (origin.session conn openedAt deadline)) := by
  have hfresh : (origin.session conn openedAt deadline).conn = conn ∧
      (origin.session conn openedAt deadline).isOver = false ∧
      (origin.session conn openedAt deadline).buffer = [] ∧
      (origin.session conn openedAt deadline).peer = none := by
    cases origin <;> exact ⟨rfl, rfl, rfl, rfl⟩
  obtain ⟨hconn, hgoes, hbuffer, hpeer⟩ := hfresh
  refine ⟨Diary.gate_opening origin conn openedAt deadline, ?_, hbuffer,
    ⟨fun _ => rfl, fun name hname => ?_, Nat.zero_le _⟩, rfl, fun _ => rfl⟩
  · show (endpoint.sessions.insert _ _).find? conn = if _ then none else some _
    rw [Table.find?_insert, if_pos hconn.symm]
    show _ = if (origin.session conn openedAt deadline).isOver then none else _
    rw [hgoes]
    rfl
  · cases hpeer.symm.trans hname

/-- The counts of the errors in a log, by what they were counted for. -/
theorem Holds.log_named (h : Holds origin conn start arrived others conduct)
    (hname : conduct.diary.session.peer = some name) (peer : IdHash) :
    conduct.log.count peer = others.count peer +
      if peer = name.idHash then conduct.diary.frames.tail.countP Frame.isViolation +
        conduct.diary.visits.countP Visit.isOversized else 0 := by
  rw [h.log peer, h.counts.named name hname, Nat.add_comm, List.count_replicate]
  simp only [beq_iff_eq, @eq_comm _ name.idHash]

/-- What the next step of a session does to its peer and to everyone else. -/
theorem Holds.next_step (h : Holds origin conn start arrived others conduct)
    (hname : conduct.diary.session.peer = some name)
    (hgoes : conduct.diary.session.isOver = false) (heeds : Bool) :
    let registry := conduct.endpoint.registry
    let visit : Visit := ⟨conduct.endpoint, conduct.diary.session, heeds⟩
    let after := (conduct.endpoint.stepSession conn heeds).registry
    let passes := visit.isViolation = true ∧
      conduct.endpoint.violations.tolerance < conduct.endpoint.violations.count name.idHash + 1
    (passes →
      registry.Expels name.idHash (conduct.endpoint.clock + registry.limits.banDuration) after) ∧
    (¬ passes →
      Undisturbed (if visit.next.isOver then (registry.removeConn conn).1 else registry) after) := by
  intro registry visit after passes
  have hstands : Stands origin conduct.diary.frames visit.session := h.gate.stands
  have hafter : after = (visit.after.keepSession visit.next).registry :=
    congrArg Endpoint.registry (act_step_of_seated h.seated hgoes heeds).1
  rw [hafter]
  refine ⟨fun ⟨hviolation, hpasses⟩ => ?_, fun hwithin => ?_⟩
  · exact Visit.expels_of_crossed hstands hname hviolation (Violations.record_crosses_iff.mpr hpasses)
  · have hconn : visit.session.conn = conn := h.gate.conn_eq
    rw [← hconn]
    exact Visit.undisturbed_of_within hstands hname fun ⟨hviolation, hcrossed⟩ =>
      hwithin ⟨hviolation, Violations.record_crosses_iff.mp hcrossed⟩

/--
Whatever arrives on a connection, and whatever becomes of the endpoint between the
steps of its session, which the endpoint has until it is over: the counters are those
of the errors that have been counted there, in order. The session counts none before
it has its peer. From then on it counts one against that peer for each frame after the
first that breaks the protocol, and one if a header beyond the limit ends it; the
frames are those of the bytes that have arrived. The next step of the session bans and
drops the peer if it counts an error that brings the count past the tolerance. In any
other step nobody is banned or dropped and no connection is closed, but that the
session takes its own connection along if it ends. As long as the peer has not been
forgotten, the count passes the tolerance with every error one past it.
-/
theorem run_counts_errors (origin : Origin) (conn : ConnId) (openedAt deadline : Nat)
    (endpoint : Endpoint) (tolerance capacity : Nat) (past : List IdHash) (turns : List Turn)
    (heeds : Bool) :
    let start := Violations.create tolerance capacity
    let conduct := (opening endpoint (start.recordAll past)
      (origin.session conn openedAt deadline)).run conn turns
    let diary := conduct.diary
    let registry := conduct.endpoint.registry
    let visit : Visit := ⟨conduct.endpoint, diary.session, heeds⟩
    let after := (conduct.endpoint.stepSession conn heeds).registry
    let elsewhere := turns.flatMap Turn.errors
    conduct.endpoint.sessions.find? conn =
      (if diary.session.isOver then none else some diary.session) ∧
    diary.frames.flatMap Frame.encode ++ diary.session.buffer = turns.flatMap Turn.bytes ∧
    conduct.endpoint.violations = start.recordAll (past ++ conduct.log) ∧
    (diary.session.peer = none → ∀ peer, conduct.log.count peer = elsewhere.count peer) ∧
    (∀ name, diary.session.peer = some name →
      (∀ peer, conduct.log.count peer = elsewhere.count peer +
        if peer = name.idHash then diary.frames.tail.countP Frame.isViolation +
          diary.visits.countP Visit.isOversized else 0) ∧
      diary.visits.countP Visit.isOversized ≤ (if diary.session.isOver then 1 else 0) ∧
      (diary.session.isOver = false →
        let passes := visit.isViolation = true ∧
          tolerance < conduct.endpoint.violations.count name.idHash + 1
        (passes →
          Expels registry name.idHash (conduct.endpoint.clock + registry.limits.banDuration) after) ∧
        (¬ passes → Undisturbed
          (if visit.next.isOver then (registry.removeConn conn).1 else registry) after)) ∧
      (start.Retains name.idHash (past ++ conduct.log) →
        (tolerance < conduct.endpoint.violations.count name.idHash + 1 ↔
          ((past ++ conduct.log).count name.idHash + 1) % (tolerance + 1) = 0))) ∧
    (∀ frame : Frame, frame.isViolation = true ↔ frame.isNet = true ∧
      (frame.action = NetAction.handshakeRequest ∨ frame.action = NetAction.handshakeResponse ∨
        6 ≤ frame.action.toNat ∨
        (frame.action = NetAction.activeNodesResponse ∧
          ∃ error, Gossip.decode frame.payload = .error error))) ∧
    ∀ visit : Visit, visit.isOversized = true ↔ visit.session.stage = .reading ∧
      (visit.before.isCancelled visit.session && visit.heeds) = false ∧
      ∃ header, Header.peek? visit.session.buffer = some header ∧
        visit.before.settings.maxFrameBody.toNat < header.length.toNat := by
  intro start conduct diary registry visit after elsewhere
  have h : Holds origin conn (start.recordAll past) ([] ++ turns.flatMap Turn.bytes)
      ([] ++ elsewhere) conduct :=
    (holds_opening origin conn openedAt deadline endpoint (start.recordAll past)).run turns
  rw [List.nil_append, List.nil_append] at h
  have hviolations : conduct.endpoint.violations = start.recordAll (past ++ conduct.log) := by
    rw [h.violations, Violations.recordAll_append]
  have hterms : conduct.endpoint.violations.tolerance = tolerance := by
    rw [hviolations]
    exact (Violations.recordAll_terms start _).1
  refine ⟨h.seated, h.bytes, hviolations, fun hnone peer => ?_, fun name hname =>
    ⟨h.log_named hname, h.counts.oversized, fun hgoes => ?_, fun hretains => ?_⟩,
    Frame.isViolation_iff, Visit.isOversized_iff⟩
  · rw [h.log peer, h.counts.unnamed hnone, List.count_nil, Nat.zero_add]
  · have hnext := h.next_step hname hgoes heeds
    rwa [hterms] at hnext
  · rw [← Violations.crosses_of_retains hretains, Violations.record_crosses_iff, ← hviolations, hterms]

/-- The peer accepts, sends a ping and an unknown action; a second handshake is still to be read. -/
def nuisance : List Turn :=
  [.receive ((Handshake.Response.toFrame ⟨true, []⟩).encode ++ (Frame.net NetAction.ping []).encode ++
    (Frame.net 9 []).encode ++ (Frame.net NetAction.handshakeRequest []).encode),
    .step true, .step false, .step true]

def pestered : Conduct :=
  (opening Diary.calling ((Violations.create 1 8).recordAll [])
    ((Origin.dialed (Registry.repeatedNode 0x62)).session 1 0 100)).run 1 nuisance

/-- One error is tolerated; the second one is counted in the next step and is too many. -/
theorem run_counts_errors_of_nuisance :
    let node := Registry.repeatedNode 0x62
    let name : PeerName := ⟨node.idHash, node.display⟩
    pestered.diary.frames.length = 3 ∧ pestered.log.count name.idHash = 1 ∧
      pestered.endpoint.registry.isActive name.idHash = true ∧
      (([] ++ pestered.log).count name.idHash + 1) % (1 + 1) = 0 ∧
      Expels pestered.endpoint.registry name.idHash
        (pestered.endpoint.clock + pestered.endpoint.registry.limits.banDuration)
        (pestered.endpoint.stepSession 1 true).registry := by
  intro node name
  have hpestered : (opening Diary.calling ((Violations.create 1 8).recordAll [])
      ((Origin.dialed (Registry.repeatedNode 0x62)).session 1 0 100)).run 1 nuisance = pestered := rfl
  obtain ⟨_, _, _, _, hnamed, _⟩ := run_counts_errors (.dialed (Registry.repeatedNode 0x62)) 1 0 100
    Diary.calling 1 8 [] nuisance true
  rw [hpestered] at hnamed
  have hpeer : pestered.diary.session.peer = some name := by decide +kernel
  have hgoes : pestered.diary.session.isOver = false := by decide +kernel
  have hcrossed : (Visit.mk pestered.endpoint pestered.diary.session true).isViolation = true ∧
      1 < pestered.endpoint.violations.count name.idHash + 1 := by decide +kernel
  have hlog : pestered.log.all (· == name.idHash) = true := by decide +kernel
  obtain ⟨_, _, hnext, hpasses⟩ := hnamed name hpeer
  have hretains : (Violations.create 1 8).Retains name.idHash ([] ++ pestered.log) := by
    intro before other later hcalls hother
    rw [List.nil_append] at hcalls
    have hmem : other ∈ pestered.log := by rw [hcalls]; simp
    exact absurd (beq_iff_eq.mp (List.all_eq_true.mp hlog other hmem)) hother
  exact ⟨by decide +kernel, by decide +kernel, by decide +kernel, (hpasses hretains).mp hcrossed.2,
    (hnext hgoes).1 hcrossed⟩

end Conduct

end Peering
