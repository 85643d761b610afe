import Peering.Delivery
import Peering.Proofs.Table

/-!
# What the steps of delivery do

One statement for each step, in terms of the work of the lanes (what a writer has
in hand and what its backlog has) and of the sockets. Later proofs use these and
do not look into the steps.
-/

namespace Peering

/-! ## Sockets -/

namespace Socket

variable {socket : Socket} {holder other : Holder}

theorem mem_ask : other ∈ (socket.ask holder).lock ↔ other ∈ socket.lock ∨ other = holder := by
  unfold ask
  split
  · rename_i hqueued
    have hmem : holder ∈ socket.lock := by simpa using hqueued
    constructor
    · exact Or.inl
    · rintro (h | rfl)
      · exact h
      · exact hmem
  · simp

theorem mem_release : other ∈ (socket.release holder).lock ↔ other ∈ socket.lock ∧ other ≠ holder := by
  simp [release]

@[simp] theorem ask_unread : (socket.ask holder).unread = socket.unread := by
  unfold ask; split <;> rfl

@[simp] theorem ask_capacity : (socket.ask holder).capacity = socket.capacity := by
  unfold ask; split <;> rfl

@[simp] theorem ask_isBroken : (socket.ask holder).isBroken = socket.isBroken := by
  unfold ask; split <;> rfl

/-- Who has the lock keeps it when another one asks. -/
theorem head?_ask (hhead : socket.lock.head? = some other) :
    (socket.ask holder).lock.head? = some other := by
  unfold ask
  split
  · exact hhead
  · simp [List.head?_append, hhead]

/-- Who has the lock keeps it when another one gives up the place. -/
theorem head?_release (hhead : socket.lock.head? = some other) (hne : other ≠ holder) :
    (socket.release holder).lock.head? = some other := by
  obtain ⟨rest, hlock⟩ := List.head?_eq_some_iff.mp hhead
  simp [release, hlock, hne]

theorem isHeldBy_iff : socket.isHeldBy holder = true ↔ socket.lock.head? = some holder := by
  simp [isHeldBy]

end Socket

/-! ## The work of a lane -/

namespace Outbox

variable {outbox : Outbox} {index other : Nat} {lane old : WriterLane} {job : Job}

/-- What the writer of a lane has in hand, and what waits for it. -/
def work? (outbox : Outbox) (index : Nat) : Option (Writer × List Job) :=
  (outbox.lane? index).map fun lane => (lane.writer, lane.backlog)

theorem work?_eq_some {writer : Writer} {backlog : List Job} :
    outbox.work? index = some (writer, backlog) ↔
      ∃ queue, outbox.lane? index = some ⟨queue, backlog, writer⟩ := by
  unfold work?
  rw [Option.map_eq_some_iff]
  constructor
  · rintro ⟨⟨queue, waiting, now⟩, hlane, heq⟩
    cases heq
    exact ⟨queue, hlane⟩
  · rintro ⟨queue, hlane⟩
    exact ⟨_, hlane, rfl⟩

theorem mem_jobs : job ∈ outbox.jobs ↔ ∃ index writer backlog,
    outbox.work? index = some (writer, backlog) ∧ (writer.job? = some job ∨ job ∈ backlog) := by
  simp only [jobs, List.mem_flatMap, WriterLane.jobs, List.mem_append, Option.mem_toList]
  constructor
  · rintro ⟨lane, hlane, hjob⟩
    obtain ⟨index, hindex⟩ := List.mem_iff_getElem?.mp hlane
    exact ⟨index, lane.writer, lane.backlog, work?_eq_some.mpr ⟨lane.queue, hindex⟩, hjob⟩
  · rintro ⟨index, writer, backlog, hwork, hjob⟩
    obtain ⟨queue, hlane⟩ := work?_eq_some.mp hwork
    exact ⟨_, List.mem_of_getElem? hlane, hjob⟩

theorem lane?_setLane (hold : outbox.lane? index = some old) (lane : WriterLane) (other : Nat) :
    (outbox.setLane index lane).lane? other =
      if other = index then some lane else outbox.lane? other := by
  have hindex : index < outbox.lanes.length := (List.getElem?_eq_some_iff.mp hold).1
  unfold lane? setLane
  by_cases hother : other = index
  · simp [hother, hindex]
  · simp [hother, List.getElem?_set_ne (Ne.symm hother)]

theorem work?_setLane (hold : outbox.lane? index = some old) (lane : WriterLane) (other : Nat) :
    (outbox.setLane index lane).work? other =
      if other = index then some (lane.writer, lane.backlog) else outbox.work? other := by
  rw [work?, lane?_setLane hold]
  split <;> rfl

/-- A lane whose queue alone changes has the same work. -/
theorem work?_setLane_of_same (hold : outbox.lane? index = some old)
    (hsame : (lane.writer, lane.backlog) = (old.writer, old.backlog)) :
    (outbox.setLane index lane).work? other = outbox.work? other := by
  rw [work?_setLane hold]
  split
  · rename_i h
    rw [h, hsame, work?, hold, Option.map_some]
  · rfl

theorem work?_send (message : Message) : (outbox.send message).1.work? index = outbox.work? index := by
  unfold send
  split
  · rfl
  split
  · rfl
  split <;> rfl

/-- Nothing is taken, whatever its length. -/
def IsShut (outbox : Outbox) : Prop :=
  outbox.stopped = true ∨ outbox.limits.sendQueue ≤ outbox.queue.length

/-- A message that its peer accepts joins the queue, unless the outbox is shut and stays so. -/
theorem send_fitting (outbox : Outbox) {message : Message}
    (hfits : message.frame.payload.length ≤ outbox.limits.maxBody) :
    (outbox.IsShut ∧ (outbox.send message).2 = false ∧ (outbox.send message).1.IsShut ∧
      (outbox.send message).1.queue = outbox.queue ∧
      (outbox.send message).1.tally.oversized = outbox.tally.oversized) ∨
    (¬outbox.IsShut ∧
      outbox.send message = ({ outbox with queue := outbox.queue ++ [message] }, true)) := by
  rw [send, if_neg (Nat.not_lt.mpr hfits)]
  by_cases hstopped : outbox.stopped = true
  · rw [if_pos hstopped]
    exact Or.inl ⟨Or.inl hstopped, rfl, Or.inl hstopped, rfl, rfl⟩
  by_cases hfull : outbox.limits.sendQueue ≤ outbox.queue.length
  · rw [if_neg hstopped, if_pos hfull]
    exact Or.inl ⟨Or.inr hfull, rfl, Or.inr hfull, rfl, rfl⟩
  · rw [if_neg hstopped, if_neg hfull]
    exact Or.inr ⟨not_or.mpr ⟨hstopped, hfull⟩, rfl⟩

theorem work?_enterLane (message : Message) :
    (outbox.enterLane message).work? index = outbox.work? index := by
  unfold enterLane
  dsimp only
  split
  · rfl
  split
  · rfl
  · rename_i lane hlane _
    exact work?_setLane_of_same hlane rfl

theorem work?_distribute : outbox.distribute.work? index = outbox.work? index := by
  unfold distribute
  split
  · rfl
  · exact work?_enterLane _

theorem work?_stop : outbox.stop.work? index =
    (outbox.work? index).map fun work => (work.1, []) := by
  simp [stop, work?, lane?, Option.map_map, Function.comp_def]

end Outbox

namespace Transport

variable {transport : Transport} {index : Nat} {conn : ConnId} {job : Job} {left : Bytes}
  {deadline : Nat} {backlog : List Job}

theorem socket?_onSocket (transport : Transport) (conn other : ConnId) (change : Socket → Socket) :
    (transport.onSocket other change).socket? conn =
      if conn = other then (transport.socket? conn).map change else transport.socket? conn :=
  Table.find?_modify _ _ _ _

theorem socket?_addSocket (transport : Transport) (conn other : ConnId) (socket : Socket) :
    (transport.addSocket other socket).socket? conn =
      if conn = other then some socket else transport.socket? conn :=
  Table.find?_insert _ _ _ _

/-! ## Lanes -/

/-- Dealing with a message leaves the work as it is, or adds a job for the socket that it leads to. -/
theorem resolve_cases (transport : Transport) (now : Int) (index : Nat) :
    (transport.resolve now index).registry = transport.registry ∧
    (transport.resolve now index).sockets = transport.sockets ∧
    (transport.resolve now index).timer = transport.timer ∧
    ((transport.resolve now index).outbox.work? = transport.outbox.work? ∨
      ∃ writer backlog job, transport.outbox.work? index = some (writer, backlog) ∧
        transport.registry.writerFor job.message.dest = some job.conn ∧
        (transport.resolve now index).outbox.work? = fun other =>
          if other = index then some (writer, backlog ++ [job])
          else transport.outbox.work? other) := by
  unfold resolve
  dsimp only
  split
  · exact ⟨rfl, rfl, rfl, Or.inl rfl⟩
  rename_i lane hlane
  split
  · exact ⟨rfl, rfl, rfl, Or.inl rfl⟩
  rename_i message rest hqueue
  refine ⟨rfl, rfl, rfl, ?_⟩
  dsimp only
  split
  · exact Or.inl (funext fun _ => Outbox.work?_setLane_of_same hlane rfl)
  split
  · exact Or.inl (funext fun _ => Outbox.work?_setLane_of_same hlane rfl)
  rename_i conn hwriter
  unfold Outbox.enterBacklog
  split
  · exact Or.inl (funext fun _ => Outbox.work?_setLane_of_same hlane rfl)
  · exact Or.inr ⟨lane.writer, lane.backlog, ⟨conn, message⟩,
      Outbox.work?_eq_some.mpr ⟨lane.queue, hlane⟩, hwriter,
      funext fun _ => Outbox.work?_setLane hlane _ _⟩

/-! ## Writers -/

/-- A writer takes a job only if it is idle and its backlog has one. -/
theorem take_cases (transport : Transport) (index : Nat) :
    transport.take index = transport ∨
    ∃ job rest, transport.outbox.work? index = some (.idle, job :: rest) := by
  cases hlane : transport.outbox.lane? index with
  | none => exact Or.inl (by simp [take, hlane])
  | some lane =>
      obtain ⟨queue, backlog, writer⟩ := lane
      cases writer with
      | busy job left deadline => exact Or.inl (by simp [take, hlane])
      | idle =>
          cases backlog with
          | nil => exact Or.inl (by simp [take, hlane])
          | cons job rest =>
              exact Or.inr ⟨job, rest, Outbox.work?_eq_some.mpr ⟨queue, hlane⟩⟩

theorem take_idle {rest : List Job}
    (hwork : transport.outbox.work? index = some (.idle, job :: rest)) :
    (transport.take index).registry = transport.registry ∧
    (transport.take index).timer = transport.timer ∧
    (∀ conn, (transport.take index).socket? conn =
      if conn = job.conn then (transport.socket? conn).map (·.ask (.lane index))
      else transport.socket? conn) ∧
    ∃ deadline, (transport.take index).outbox.work? = fun other =>
      if other = index then some (.busy job job.bytes deadline, rest)
      else transport.outbox.work? other := by
  obtain ⟨queue, hlane⟩ := Outbox.work?_eq_some.mp hwork
  unfold take
  simp only [hlane]
  exact ⟨rfl, rfl, fun conn => socket?_onSocket _ _ _ _, _,
    funext fun _ => Outbox.work?_setLane hlane _ _⟩

theorem finishJob_busy (hwork : transport.outbox.work? index = some (.busy job left deadline, backlog))
    (done : Job) (change : Tally → Tally) :
    (transport.finishJob index done change).registry = transport.registry ∧
    (transport.finishJob index done change).timer = transport.timer ∧
    (∀ conn, (transport.finishJob index done change).socket? conn =
      if conn = done.conn then (transport.socket? conn).map (·.release (.lane index))
      else transport.socket? conn) ∧
    (transport.finishJob index done change).outbox.work? = fun other =>
      if other = index then some (.idle, backlog) else transport.outbox.work? other := by
  obtain ⟨queue, hlane⟩ := Outbox.work?_eq_some.mp hwork
  unfold finishJob
  simp only [hlane]
  exact ⟨rfl, rfl, fun conn => socket?_onSocket _ _ _ _,
    funext fun _ => Outbox.work?_setLane hlane _ _⟩

theorem failJob_busy (hwork : transport.outbox.work? index = some (.busy job left deadline, backlog)) :
    (transport.failJob index job).registry = (transport.registry.removeConn job.conn).1 ∧
    (transport.failJob index job).timer = transport.timer ∧
    (∀ conn, (transport.failJob index job).socket? conn =
      if conn = job.conn then (transport.socket? conn).map (·.release (.lane index))
      else transport.socket? conn) ∧
    (transport.failJob index job).outbox.work? = fun other =>
      if other = index then some (.idle, backlog) else transport.outbox.work? other := by
  obtain ⟨hregistry, htimer, hsocket, hworkAfter⟩ := finishJob_busy hwork job fun tally =>
    { tally with failed := tally.failed + 1 }
  exact ⟨congrArg (fun registry => (registry.removeConn job.conn).1) hregistry, htimer, hsocket,
    hworkAfter⟩

/-- The job that a writer would go on with, the bytes it has left, and those that fit. -/
def writable? (transport : Transport) (index : Nat) : Option (Job × Bytes × Bytes) :=
  match transport.outbox.work? index with
  | some (.busy job left _, _) =>
      match transport.socket? job.conn with
      | some socket =>
          if socket.isHeldBy (.lane index) && !socket.isBroken then
            some (job, left, left.take (socket.capacity - socket.unread.length))
          else none
      | none => none
  | _ => none

/-- A writer that puts nothing does nothing, or fails because the socket is broken. -/
theorem write_none (hwritable : transport.writable? index = none) :
    transport.write index = transport ∨
    ∃ job left deadline backlog socket,
      transport.outbox.work? index = some (.busy job left deadline, backlog) ∧
      transport.socket? job.conn = some socket ∧ socket.isBroken = true ∧
      transport.write index = transport.failJob index job := by
  unfold write
  split
  · rename_i queue backlog job left deadline hlane
    have hwork := Outbox.work?_eq_some.mpr ⟨queue, hlane⟩
    split
    · exact Or.inl rfl
    rename_i socket hsocket
    simp only [writable?, hwork, hsocket] at hwritable
    split
    · exact Or.inl rfl
    rename_i hheld
    split
    · rename_i hbroken
      exact Or.inr ⟨job, left, deadline, backlog, socket, hwork, hsocket, hbroken, rfl⟩
    · rename_i hbroken
      simp_all
  · exact Or.inl rfl

/-- What a writer puts comes after what is unread; the lock goes when nothing is left. -/
theorem write_some {bytes : Bytes} (hwritable : transport.writable? index = some (job, left, bytes)) :
    ∃ deadline backlog socket,
      transport.outbox.work? index = some (.busy job left deadline, backlog) ∧
      transport.socket? job.conn = some socket ∧ socket.lock.head? = some (.lane index) ∧
      socket.isBroken = false ∧ bytes = left.take (socket.capacity - socket.unread.length) ∧
      (transport.write index).registry = transport.registry ∧
      (transport.write index).timer = transport.timer ∧
      ∃ rest, left = bytes ++ rest ∧
      (∀ conn, (transport.write index).socket? conn =
        if conn = job.conn then
          some (if rest = [] then
            { socket with unread := socket.unread ++ bytes }.release (.lane index)
          else { socket with unread := socket.unread ++ bytes })
        else transport.socket? conn) ∧
      (transport.write index).outbox.work? = fun other =>
        if other = index then
          some (if rest = [] then .idle else .busy job rest deadline, backlog)
        else transport.outbox.work? other := by
  unfold writable? at hwritable
  split at hwritable
  · rename_i found remaining deadline backlog hwork
    split at hwritable
    · rename_i socket hsocket
      split at hwritable
      · rename_i hfree
        cases hwritable
        obtain ⟨hheld, hbroken⟩ := Bool.and_eq_true_iff.mp hfree
        have hopen : socket.isBroken = false := by simpa using hbroken
        obtain ⟨queue, hlane⟩ := Outbox.work?_eq_some.mp hwork
        refine ⟨deadline, backlog, socket, hwork, hsocket, Socket.isHeldBy_iff.mp hheld, hopen, rfl,
          ?_⟩
        by_cases hrest : left.drop (socket.capacity - socket.unread.length) = []
        · have hwrite : transport.write index =
              (transport.onSocket job.conn fun _ => (socket.put left).1).finishJob index job
                fun tally => { tally with written := tally.written + 1 } := by
            simp [write, hlane, hsocket, hheld, hopen, Socket.put, hrest]
          have hput : (transport.onSocket job.conn fun _ => (socket.put left).1).outbox.work? index =
              some (.busy job left deadline, backlog) := hwork
          obtain ⟨hregistry, htimer, hsockets, hworkAfter⟩ := finishJob_busy hput job
            fun tally => { tally with written := tally.written + 1 }
          rw [hwrite]
          refine ⟨hregistry, htimer, [], ?_, ?_, hworkAfter⟩
          · rw [← hrest, List.take_append_drop]
          · intro conn
            rw [hsockets, socket?_onSocket]
            by_cases hconn : conn = job.conn
            · simp [hconn, hsocket, Socket.put]
            · simp [hconn]
        · have hwrite : transport.write index =
              { transport.onSocket job.conn fun _ => (socket.put left).1 with
                outbox := transport.outbox.setLane index
                  ⟨queue, backlog, .busy job (socket.put left).2 deadline⟩ } := by
            simp [write, hlane, hsocket, hheld, hopen, Socket.put, hrest, onSocket]
          rw [hwrite]
          refine ⟨rfl, rfl, left.drop (socket.capacity - socket.unread.length),
            (List.take_append_drop _ _).symm, ?_, ?_⟩
          · intro conn
            refine (socket?_onSocket transport conn job.conn fun _ => (socket.put left).1).trans ?_
            by_cases hconn : conn = job.conn
            · simp [hconn, hsocket, hrest, Socket.put]
            · simp [hconn]
          · refine funext fun other => (Outbox.work?_setLane hlane _ _).trans ?_
            simp [hrest, Socket.put]
      · cases hwritable
    · cases hwritable
  · cases hwritable

/-- A writer that gives up fails with its job. -/
theorem expire_cases (transport : Transport) (index : Nat) :
    transport.expire index = transport ∨
    ∃ job left deadline backlog,
      transport.outbox.work? index = some (.busy job left deadline, backlog) ∧
      deadline ≤ transport.timer ∧ transport.expire index = transport.failJob index job := by
  unfold expire
  split
  · rename_i queue backlog job left deadline hlane
    split
    · rename_i hdue
      exact Or.inr ⟨job, left, deadline, backlog, Outbox.work?_eq_some.mpr ⟨queue, hlane⟩, hdue, rfl⟩
    · exact Or.inl rfl
  · exact Or.inl rfl

theorem expire_of_due
    (hwork : transport.outbox.work? index = some (.busy job left deadline, backlog))
    (hdue : deadline ≤ transport.timer) : transport.expire index = transport.failJob index job := by
  obtain ⟨queue, hlane⟩ := Outbox.work?_eq_some.mp hwork
  simp [expire, hlane, hdue]

end Transport

end Peering
