import Peering.Proofs.Delivery.Steps
import Peering.Proofs.Registry.Handles

/-!
# Runs of delivery

A run is any order of the steps of delivery, of what the peers do, of the clock
and of the moves of the registry. This module has the actions, the jobs that
writers have in hand, and what each action does to those jobs.
-/

namespace Peering

namespace Transport

/-! ## Actions -/

/-- One step of a task, of a peer or of the clock. -/
inductive Action where
  | send (message : Message)
  | distribute
  | resolve (now : Int) (index : Nat)
  | take (index : Nat)
  | write (index : Nat)
  | expire (index : Nat)
  | askShut (conn : ConnId)
  | shut (conn : ConnId)
  | read (conn : ConnId) (most : Nat)
  | hangUp (conn : ConnId)
  | tick (duration : Nat)
  | stop
  | dial (now : Nat) (node : Node) (capacity : Nat)
  | accept (now : Nat) (capacity : Nat)
  | cancel (conn : ConnId)
  /-- A move of the registry that offers no connection. -/
  | manage (move : Registry.Move)

/-- Gives the next handle to a new socket, as long as the handles have not come round. -/
def openSocket (transport : Transport) (capacity : Nat)
    (promote : Registry → ConnId → Registry) : Transport :=
  let (conn, registry) := transport.registry.takeConn
  if (transport.socket? conn).isSome then transport
  else { transport with registry := promote registry conn }.addSocket conn (Socket.create capacity)

def act (transport : Transport) : Action → Transport
  | .send message => (transport.send message).1
  | .distribute => transport.distribute
  | .resolve now index => transport.resolve now index
  | .take index => transport.take index
  | .write index => transport.write index
  | .expire index => transport.expire index
  | .askShut conn => transport.askShut conn
  | .shut conn => transport.shut conn
  | .read conn most => (transport.read conn most).1
  | .hangUp conn => transport.hangUp conn
  | .tick duration => { transport with timer := transport.timer + duration }
  | .stop => transport.stop
  | .dial now node capacity => transport.openSocket capacity fun registry conn =>
      (registry.promoteToOutbound now node conn).1
  | .accept now capacity => transport.openSocket capacity fun registry conn =>
      (registry.promoteToInbound now conn).1
  | .cancel conn =>
      if transport.registry.holds conn then
        { transport with registry := transport.registry.cancel conn }
      else transport
  | .manage move =>
      if move.offer?.isNone && transport.registry.namesDialed move then
        { transport with registry := transport.registry.perform move }
      else transport

def run (transport : Transport) (actions : List Action) : Transport :=
  actions.foldl act transport

/-! ## Jobs -/

variable {transport after : Transport} {index other : Nat} {conn : ConnId} {job : Job} {left : Bytes}

/-- A writer has a job in hand, and these bytes of it left to write. -/
def Writes (transport : Transport) (index : Nat) (job : Job) (left : Bytes) : Prop :=
  ∃ deadline backlog, transport.outbox.work? index = some (.busy job left deadline, backlog)

/-- Some job for a connection is in hand or waits for a writer. -/
def HasJob (transport : Transport) (conn : ConnId) : Prop :=
  ∃ job ∈ transport.outbox.jobs, job.conn = conn

theorem Writes.hasJob (hwrites : transport.Writes index job left) : transport.HasJob job.conn := by
  obtain ⟨deadline, backlog, hwork⟩ := hwrites
  exact ⟨job, Outbox.mem_jobs.mpr ⟨index, _, backlog, hwork, Or.inl rfl⟩, rfl⟩

/-- A writer has one job at a time. -/
theorem Writes.eq_of_busy {given : Job} {rest : Bytes} {deadline : Nat} {backlog : List Job}
    (hwrites : transport.Writes index job left)
    (hold : transport.outbox.work? index = some (.busy given rest deadline, backlog)) :
    job = given ∧ left = rest := by
  obtain ⟨_, _, hbusy⟩ := hwrites
  rw [hold] at hbusy
  cases hbusy
  exact ⟨rfl, rfl⟩

theorem writes_congr (hwork : after.outbox.work? = transport.outbox.work?) :
    after.Writes index job left ↔ transport.Writes index job left := by
  simp only [Writes, hwork]

theorem mem_jobs_congr (hwork : after.outbox.work? = transport.outbox.work?) :
    job ∈ after.outbox.jobs ↔ job ∈ transport.outbox.jobs := by
  simp only [Outbox.mem_jobs, hwork]

theorem hasJob_congr (hwork : after.outbox.work? = transport.outbox.work?) :
    after.HasJob conn ↔ transport.HasJob conn := by
  simp only [HasJob, mem_jobs_congr hwork]

/-- Where no job is new, no connection has a new one. -/
theorem HasJob.of_jobs (hjob : after.HasJob conn)
    (hjobs : ∀ job ∈ after.outbox.jobs, job ∈ transport.outbox.jobs) : transport.HasJob conn :=
  hjob.imp fun job hmem => ⟨hjobs job hmem.1, hmem.2⟩

section OneLane

variable {writer : Writer} {backlog : List Job}
  (hwork : after.outbox.work? = fun other =>
    if other = index then some (writer, backlog) else transport.outbox.work? other)

include hwork

/-- After a change to one lane the other writers have what they had. -/
theorem writes_update : after.Writes other job left ↔
    (other = index ∧ ∃ deadline, writer = .busy job left deadline) ∨
    (other ≠ index ∧ transport.Writes other job left) := by
  simp only [Writes, hwork]
  by_cases hother : other = index
  · simp only [hother, if_true, Option.some.injEq, Prod.mk.injEq, true_and, ne_eq, not_true_eq_false,
      false_and, or_false]
    constructor
    · rintro ⟨deadline, _, hwriter, _⟩
      exact ⟨deadline, hwriter⟩
    · rintro ⟨deadline, hwriter⟩
      exact ⟨deadline, backlog, hwriter, rfl⟩
  · simp [hother]

/-- After a change to one lane a job is one of that lane, or it was there. -/
theorem mem_jobs_of_update (hjob : job ∈ after.outbox.jobs) :
    (writer.job? = some job ∨ job ∈ backlog) ∨ job ∈ transport.outbox.jobs := by
  obtain ⟨lane, found, waiting, hlane, hfound⟩ := Outbox.mem_jobs.mp hjob
  rw [hwork] at hlane
  by_cases hsame : lane = index
  · simp only [hsame, if_true, Option.some.injEq, Prod.mk.injEq] at hlane
    obtain ⟨rfl, rfl⟩ := hlane
    exact Or.inl hfound
  · simp only [hsame, if_false] at hlane
    exact Or.inr (Outbox.mem_jobs.mpr ⟨lane, found, waiting, hlane, hfound⟩)

end OneLane

/-! ## Jobs through a step -/

/-- A writer keeps what it has in hand while its lane deals with a message. -/
theorem writes_resolve (transport : Transport) (now : Int) (index : Nat) :
    (transport.resolve now index).Writes other job left ↔ transport.Writes other job left := by
  obtain ⟨_, _, _, hwork | ⟨writer, backlog, new, hold, _, hwork⟩⟩ :=
    resolve_cases transport now index
  · exact writes_congr hwork
  rw [writes_update hwork]
  constructor
  · rintro (⟨rfl, deadline, rfl⟩ | ⟨_, hw⟩)
    · exact ⟨deadline, backlog, hold⟩
    · exact hw
  · intro hw
    by_cases hother : other = index
    · subst hother
      obtain ⟨deadline, waiting, hw⟩ := hw
      rw [hold] at hw
      cases hw
      exact Or.inl ⟨rfl, deadline, rfl⟩
    · exact Or.inr ⟨hother, hw⟩

/-- A job that a lane adds is for the connection that its destination leads to. -/
theorem jobs_resolve {now : Int} (hjob : job ∈ (transport.resolve now index).outbox.jobs) :
    job ∈ transport.outbox.jobs ∨
      transport.registry.writerFor job.message.dest = some job.conn := by
  obtain ⟨_, _, _, hwork | ⟨writer, backlog, new, hold, hwriter, hwork⟩⟩ :=
    resolve_cases transport now index
  · exact Or.inl ((mem_jobs_congr hwork).mp hjob)
  rcases mem_jobs_of_update hwork hjob with (hfound | hfound) | hold
  · exact Or.inl (Outbox.mem_jobs.mpr ⟨index, writer, backlog, hold, Or.inl hfound⟩)
  · rcases List.mem_append.mp hfound with hmem | hmem
    · exact Or.inl (Outbox.mem_jobs.mpr ⟨index, writer, backlog, hold, Or.inr hmem⟩)
    · rw [List.mem_singleton.mp hmem]
      exact Or.inr hwriter
  · exact Or.inl hold

/-- The job that a writer takes has not been begun. -/
theorem writes_take (transport : Transport) (index : Nat) (hleft : left ≠ job.bytes) :
    (transport.take index).Writes other job left ↔ transport.Writes other job left := by
  rcases take_cases transport index with hsame | ⟨new, rest, hold⟩
  · rw [hsame]
  obtain ⟨_, _, _, deadline, hwork⟩ := take_idle hold
  rw [writes_update hwork]
  constructor
  · rintro (⟨_, _, heq⟩ | ⟨_, hw⟩)
    · cases heq
      exact absurd rfl hleft
    · exact hw
  · intro hw
    refine Or.inr ⟨?_, hw⟩
    rintro rfl
    obtain ⟨_, _, hbusy⟩ := hw
    rw [hold] at hbusy
    cases hbusy

theorem jobs_take (hjob : job ∈ (transport.take index).outbox.jobs) :
    job ∈ transport.outbox.jobs := by
  rcases take_cases transport index with hsame | ⟨new, rest, hold⟩
  · rwa [hsame] at hjob
  obtain ⟨_, _, _, deadline, hwork⟩ := take_idle hold
  rcases mem_jobs_of_update hwork hjob with (hfound | hfound) | hold
  · cases hfound
    exact Outbox.mem_jobs.mpr ⟨index, _, _, hold, Or.inr List.mem_cons_self⟩
  · exact Outbox.mem_jobs.mpr ⟨index, _, _, hold, Or.inr (List.mem_cons_of_mem _ hfound)⟩
  · exact hold

theorem work?_stop_some {writer : Writer} {backlog : List Job}
    (hwork : transport.stop.outbox.work? index = some (writer, backlog)) :
    backlog = [] ∧ ∃ before, transport.outbox.work? index = some (writer, before) := by
  obtain ⟨⟨_, before⟩, hold, heq⟩ := Option.map_eq_some_iff.mp (Outbox.work?_stop ▸ hwork)
  cases heq
  exact ⟨rfl, before, hold⟩

theorem writes_stop (transport : Transport) :
    transport.stop.Writes index job left ↔ transport.Writes index job left := by
  constructor
  · rintro ⟨deadline, backlog, hw⟩
    obtain ⟨_, before, hold⟩ := work?_stop_some hw
    exact ⟨deadline, before, hold⟩
  · rintro ⟨deadline, backlog, hw⟩
    exact ⟨deadline, [], Outbox.work?_stop.trans (by rw [hw]; rfl)⟩

theorem jobs_stop (hjob : job ∈ transport.stop.outbox.jobs) : job ∈ transport.outbox.jobs := by
  obtain ⟨index, writer, backlog, hw, hin⟩ := Outbox.mem_jobs.mp hjob
  obtain ⟨rfl, before, hold⟩ := work?_stop_some hw
  rcases hin with hin | hin
  · exact Outbox.mem_jobs.mpr ⟨index, writer, before, hold, Or.inl hin⟩
  · cases hin

/-- A job that is given up is the only one that goes. -/
theorem writes_failJob {given : Job} {remaining : Bytes} {deadline : Nat} {backlog : List Job}
    (hold : transport.outbox.work? index = some (.busy given remaining deadline, backlog)) :
    (transport.failJob index given).Writes other job left ↔
      other ≠ index ∧ transport.Writes other job left := by
  obtain ⟨_, _, _, hwork⟩ := failJob_busy hold
  rw [writes_update hwork]
  constructor
  · rintro (⟨_, _, heq⟩ | hw)
    · cases heq
    · exact hw
  · exact Or.inr

theorem jobs_failJob {given : Job} {deadline : Nat} {backlog : List Job}
    (hold : transport.outbox.work? index = some (.busy given left deadline, backlog))
    (hjob : job ∈ (transport.failJob index given).outbox.jobs) : job ∈ transport.outbox.jobs := by
  obtain ⟨_, _, _, hwork⟩ := failJob_busy hold
  rcases mem_jobs_of_update hwork hjob with (hfound | hfound) | hold
  · cases hfound
  · exact Outbox.mem_jobs.mpr ⟨index, _, _, hold, Or.inr hfound⟩
  · exact hold

theorem jobs_write (hjob : job ∈ (transport.write index).outbox.jobs) :
    job ∈ transport.outbox.jobs := by
  cases hwritable : transport.writable? index with
  | none =>
      rcases write_none hwritable with hsame | ⟨_, _, _, _, _, hold, _, _, hfail⟩
      · rwa [hsame] at hjob
      · rw [hfail] at hjob
        exact jobs_failJob hold hjob
  | some found =>
      obtain ⟨given, left, bytes⟩ := found
      obtain ⟨_, backlog, _, hold, _, _, _, _, _, _, rest, _, _, hwork⟩ := write_some hwritable
      rcases mem_jobs_of_update hwork hjob with (hin | hin) | hkept
      · refine Outbox.mem_jobs.mpr ⟨index, _, backlog, hold, Or.inl ?_⟩
        split at hin
        · cases hin
        · exact hin
      · exact Outbox.mem_jobs.mpr ⟨index, _, backlog, hold, Or.inr hin⟩
      · exact hkept

end Transport

end Peering
