import Peering.Proofs.Delivery.Sockets

/-!
# Writers and their places at the locks

A writer takes a job from its backlog, asks for the lock of the socket, and puts
bytes until none are left; or it gives up, and has to remove the connection before
it takes another job. It is in the queue for a lock just as long as it is busy with
a job for the connection, so a lock that nobody asks for has no writer behind it.
-/

namespace Peering

namespace Transport

variable {before after : Transport} {conn changed : ConnId} {index other : Nat} {job : Job}
  {left : Bytes}

/-- A writer has the lock of a connection, or waits for it. -/
def Queues (transport : Transport) (conn : ConnId) (index : Nat) : Prop :=
  ∃ socket, transport.socket? conn = some socket ∧ .lane index ∈ socket.lock

/-- A writer is busy with a job for a connection. -/
def Busy (transport : Transport) (conn : ConnId) (index : Nat) : Prop :=
  ∃ job left, transport.Writes index job left ∧ job.conn = conn

/-- Jobs wait for the writer of a lane. -/
def Waits (transport : Transport) (index : Nat) : Prop :=
  ∃ writer job rest, transport.outbox.work? index = some (writer, job :: rest)

/-! ## Places in a queue -/

theorem queues_congr (hsocket : after.socket? conn = before.socket? conn) :
    after.Queues conn index ↔ before.Queues conn index := by
  rw [Queues, Queues, hsocket]

theorem queues_onSocket (transport : Transport) (change : Socket → Socket) :
    (transport.onSocket changed change).Queues conn index ↔
      ∃ socket, transport.socket? conn = some socket ∧
        .lane index ∈ (if conn = changed then change socket else socket).lock := by
  rw [Queues, socket?_onSocket]
  split <;> simp

/-- A change to a socket that leaves the writers in their places. -/
theorem queues_of_lock {change : Socket → Socket}
    (hlanes : ∀ socket, .lane index ∈ (change socket).lock ↔ .lane index ∈ socket.lock) :
    (before.onSocket changed change).Queues conn index ↔ before.Queues conn index := by
  rw [queues_onSocket, Queues]
  refine exists_congr fun socket => and_congr_right fun _ => ?_
  split
  · exact hlanes socket
  · exact Iff.rfl

/-- A socket gives way to one that has the same queue. -/
theorem queues_replace {socket next : Socket} (hsocket : before.socket? changed = some socket)
    (hlock : next.lock = socket.lock) :
    (before.onSocket changed fun _ => next).Queues conn index ↔ before.Queues conn index := by
  rw [queues_onSocket, Queues]
  refine exists_congr fun found => and_congr_right fun hfound => ?_
  split
  · rename_i hconn
    subst hconn
    obtain rfl : socket = found := Option.some.inj (hsocket.symm.trans hfound)
    rw [hlock]
  · exact Iff.rfl

theorem queues_ask (transport : Transport) :
    (transport.onSocket changed (·.ask (.lane index))).Queues conn other ↔
      transport.Queues conn other ∨
        other = index ∧ conn = changed ∧ (transport.socket? conn).isSome = true := by
  rw [queues_onSocket, Queues]
  cases transport.socket? conn with
  | none => simp
  | some socket =>
      by_cases hconn : conn = changed
      · simp [hconn, Socket.mem_ask]
      · simp [hconn]

theorem queues_release (transport : Transport) :
    (transport.onSocket changed (·.release (.lane index))).Queues conn other ↔
      transport.Queues conn other ∧ ¬(other = index ∧ conn = changed) := by
  rw [queues_onSocket, Queues]
  cases transport.socket? conn with
  | none => simp
  | some socket =>
      by_cases hconn : conn = changed
      · simp [hconn, Socket.mem_release]
      · simp [hconn]

theorem queues_openSocket (transport : Transport) (capacity : Nat)
    (promote : Registry → ConnId → Registry) :
    (transport.openSocket capacity promote).Queues conn index ↔ transport.Queues conn index := by
  unfold openSocket
  dsimp only
  split
  · exact Iff.rfl
  rename_i hfree
  rw [Queues, socket?_addSocket]
  split
  · rename_i hconn
    rw [Option.not_isSome_iff_eq_none, ← hconn] at hfree
    simp [Queues, hfree, Socket.create]
  · exact Iff.rfl

/-- A writer has one job at a time. -/
theorem Writes.unique {given : Job} {rest : Bytes} (hwrites : before.Writes index job left)
    (hgiven : before.Writes index given rest) : job = given ∧ left = rest := by
  obtain ⟨_, _, hbusy⟩ := hgiven
  exact hwrites.eq_of_busy hbusy

/-! ## What a step does to one writer -/

/-- No job comes to wait, unless there is room for one in a backlog. -/
def Stocks (before after : Transport) : Prop :=
  ∀ index, after.Waits index → before.Waits index ∨ 0 < before.outbox.limits.backlog

/-- Every writer has what it had, and its places. -/
structure Stays (before after : Transport) : Prop where
  stocks : Stocks before after
  writes : ∀ index job left, after.Writes index job left ↔ before.Writes index job left
  queues : ∀ conn index, after.Queues conn index ↔ before.Queues conn index

/-- A writer that was idle asks for the lock of the socket of its job. -/
structure Begins (before after : Transport) (index : Nat) (job : Job) : Prop where
  stocks : Stocks before after
  idle : ∀ found left, ¬before.Writes index found left
  writes : ∀ other found left, after.Writes other found left ↔
    before.Writes other found left ∨ other = index ∧ found = job ∧ left = job.bytes
  queues : ∀ conn other, after.Queues conn other ↔ before.Queues conn other ∨
    other = index ∧ conn = job.conn ∧ (before.socket? conn).isSome = true

/-- A writer has less left of its job than before. -/
structure Proceeds (before after : Transport) (index : Nat) (job : Job) (bytes rest : Bytes) :
    Prop where
  stocks : Stocks before after
  busy : before.Writes index job (bytes ++ rest)
  writes : ∀ other found left, after.Writes other found left ↔
    other = index ∧ found = job ∧ left = rest ∨ other ≠ index ∧ before.Writes other found left
  queues : ∀ conn other, after.Queues conn other ↔ before.Queues conn other

/-- A writer is rid of its job and of the lock. -/
structure Drops (before after : Transport) (index : Nat) (job : Job) (left : Bytes) : Prop where
  stocks : Stocks before after
  busy : before.Writes index job left
  writes : ∀ other found rest, after.Writes other found rest ↔
    other ≠ index ∧ before.Writes other found rest
  queues : ∀ conn other, after.Queues conn other ↔
    before.Queues conn other ∧ ¬(other = index ∧ conn = job.conn)

theorem stocks_of_work (hwork : after.outbox.work? = before.outbox.work?) : Stocks before after :=
  fun _ hwaits => Or.inl (by rwa [Waits, hwork] at hwaits)

theorem stocks_of_lane {lane old : WriterLane} (hold : before.outbox.lane? index = some old)
    (hlanes : ∀ other, after.outbox.lane? other =
      if other = index then some lane else before.outbox.lane? other)
    (hbacklog : lane.backlog ≠ [] → old.backlog ≠ [] ∨ 0 < before.outbox.limits.backlog) :
    Stocks before after := by
  rintro other ⟨writer, job, rest, hwork⟩
  rw [Outbox.work?, hlanes] at hwork
  by_cases hother : other = index
  · subst hother
    rw [if_pos rfl, Option.map_some, Option.some.injEq, Prod.mk.injEq] at hwork
    refine (hbacklog (by simp [hwork.2])).imp (fun hwas => ?_) id
    obtain ⟨first, later, hbegins⟩ := List.exists_cons_of_ne_nil hwas
    exact ⟨old.writer, first, later, by rw [Outbox.work?, hold, Option.map_some, hbegins]⟩
  · rw [if_neg hother] at hwork
    exact Or.inl ⟨writer, job, rest, hwork⟩

theorem Stays.refl (transport : Transport) : Stays transport transport :=
  ⟨stocks_of_work rfl, fun _ _ _ => Iff.rfl, fun _ _ => Iff.rfl⟩

/-- Neither the work of the lanes nor a socket changes. -/
theorem Stays.of_same (hwork : after.outbox.work? = before.outbox.work?)
    (hsockets : after.sockets = before.sockets) : Stays before after where
  stocks := stocks_of_work hwork
  writes := fun _ _ _ => writes_congr hwork
  queues := fun conn _ => queues_congr (congrArg (Table.find? · conn) hsockets)

/-- One lane changes, but not what its writer has. -/
theorem Stays.of_lane {lane old : WriterLane} (hold : before.outbox.lane? index = some old)
    (hlanes : ∀ other, after.outbox.lane? other =
      if other = index then some lane else before.outbox.lane? other)
    (hwriter : lane.writer = old.writer)
    (hbacklog : lane.backlog ≠ [] → old.backlog ≠ [] ∨ 0 < before.outbox.limits.backlog)
    (hsockets : after.sockets = before.sockets) : Stays before after where
  stocks := stocks_of_lane hold hlanes hbacklog
  writes := fun _ _ _ => writes_same_writer hold hlanes hwriter
  queues := fun conn _ => queues_congr (congrArg (Table.find? · conn) hsockets)

theorem Drops.of_lane {lane old : WriterLane} {deadline : Nat}
    (hold : before.outbox.lane? index = some old) (hbusy : old.writer = .busy job left deadline)
    (hlanes : ∀ other, after.outbox.lane? other =
      if other = index then some lane else before.outbox.lane? other)
    (hidle : lane.writer = .idle) (hbacklog : lane.backlog ≠ [] → old.backlog ≠ [])
    (hsockets : after.sockets = (before.onSocket job.conn (·.release (.lane index))).sockets) :
    Drops before after index job left where
  stocks := stocks_of_lane hold hlanes fun hwaits => Or.inl (hbacklog hwaits)
  busy := writes_of_lane hold hbusy
  writes := fun _ _ _ => writes_idle hlanes hidle
  queues := fun conn _ =>
    (queues_congr (congrArg (Table.find? · conn) hsockets)).trans (queues_release before)

/-- As long as the writers in the queues are those that are busy, this stays so. -/
def Level (transport : Transport) (conn : ConnId) : Prop :=
  ∀ index, transport.Queues conn index ↔ transport.Busy conn index

theorem Stays.level (h : Stays before after) (hlevel : before.Level conn) : after.Level conn := by
  intro index
  rw [h.queues, hlevel index]
  simp only [Busy, h.writes]

theorem Begins.level (h : Begins before after index job) (hlevel : before.Level conn)
    (hsocket : job.conn = conn → (before.socket? conn).isSome = true) : after.Level conn := by
  intro other
  rw [h.queues, hlevel other]
  simp only [Busy, h.writes]
  constructor
  · rintro (⟨found, left, hwrites, hconn⟩ | ⟨rfl, rfl, _⟩)
    · exact ⟨found, left, Or.inl hwrites, hconn⟩
    · exact ⟨job, job.bytes, Or.inr ⟨rfl, rfl, rfl⟩, rfl⟩
  · rintro ⟨found, left, hwrites | ⟨rfl, rfl, rfl⟩, hconn⟩
    · exact Or.inl ⟨found, left, hwrites, hconn⟩
    · exact Or.inr ⟨rfl, hconn.symm, hsocket hconn⟩

theorem Proceeds.level {bytes rest : Bytes} (h : Proceeds before after index job bytes rest)
    (hlevel : before.Level conn) : after.Level conn := by
  intro other
  rw [h.queues, hlevel other]
  simp only [Busy, h.writes]
  constructor
  · rintro ⟨found, left, hwrites, hconn⟩
    by_cases hother : other = index
    · subst hother
      obtain ⟨rfl, rfl⟩ := hwrites.unique h.busy
      exact ⟨found, rest, Or.inl ⟨rfl, rfl, rfl⟩, hconn⟩
    · exact ⟨found, left, Or.inr ⟨hother, hwrites⟩, hconn⟩
  · rintro ⟨found, left, ⟨rfl, rfl, rfl⟩ | ⟨_, hwrites⟩, hconn⟩
    · exact ⟨found, _, h.busy, hconn⟩
    · exact ⟨found, left, hwrites, hconn⟩

theorem Drops.level (h : Drops before after index job left) (hlevel : before.Level conn) :
    after.Level conn := by
  intro other
  rw [h.queues, hlevel other]
  simp only [Busy, h.writes]
  constructor
  · rintro ⟨⟨found, rest, hwrites, rfl⟩, hother⟩
    refine ⟨found, rest, ⟨?_, hwrites⟩, rfl⟩
    rintro rfl
    exact hother ⟨rfl, congrArg Job.conn (hwrites.unique h.busy).1⟩
  · rintro ⟨found, rest, ⟨hother, hwrites⟩, hconn⟩
    exact ⟨⟨found, rest, hwrites, hconn⟩, fun hsame => hother hsame.1⟩

end Transport

namespace Pipeline

open Transport

variable {pipeline : Pipeline} {conn : ConnId} {index : Nat} {step : Step}

/-- What a step does to the writers: each has a job in hand, or is busy with one, or is free. -/
inductive Effort (pipeline : Pipeline) (step : Step) (after : Pipeline) : Prop where
  | rests
      (stays : Stays pipeline.transport after.transport)
      (hands : after.writerHand = pipeline.writerHand) : Effort pipeline step after
  | receives (index : Nat) (job : Job)
      (stays : Stays pipeline.transport after.transport)
      (idle : ∀ found left, ¬pipeline.transport.Writes index found left)
      (waits : pipeline.transport.Waits index)
      (grip : pipeline.writerHand index = .empty)
      (hands : after.writerHand = (pipeline.holdWriter index (.taken job)).writerHand) :
      Effort pipeline step after
  | begins (index : Nat) (job : Job)
      (begins : Begins pipeline.transport after.transport index job)
      (grip : pipeline.writerHand index = .taken job)
      (lane : (pipeline.outbox.lane? index).isSome = true)
      (hands : after.writerHand = (pipeline.holdWriter index .empty).writerHand) :
      Effort pipeline step after
  | proceeds (index : Nat) (job : Job) (bytes rest : Bytes)
      (proceeds : Proceeds pipeline.transport after.transport index job bytes rest)
      (hands : after.writerHand = pipeline.writerHand) : Effort pipeline step after
  | finishes (index : Nat) (job : Job)
      (drops : Drops pipeline.transport after.transport index job [])
      (hands : after.writerHand = pipeline.writerHand) : Effort pipeline step after
  | givesUp (index : Nat) (job : Job) (left : Bytes)
      (drops : Drops pipeline.transport after.transport index job left)
      (grip : pipeline.writerHand index = .empty)
      (hands : after.writerHand = (pipeline.holdWriter index (.leaving job.conn)).writerHand) :
      Effort pipeline step after
  | removes (index : Nat) (conn : ConnId)
      (stays : Stays pipeline.transport after.transport)
      (grip : pipeline.writerHand index = .leaving conn)
      (hands : after.writerHand = (pipeline.holdWriter index .empty).writerHand)
      (registry : after.transport.registry = (pipeline.transport.registry.removeConn conn).1) :
      Effort pipeline step after
  /-- Its task ends; it is rid of a job that it was busy with. -/
  | quits (index : Nat)
      (asks : step = .quit (.writer index))
      (ends : (Stays pipeline.transport after.transport ∧
          ∀ found left, ¬pipeline.transport.Writes index found left) ∨
        ∃ job left, Drops pipeline.transport after.transport index job left)
      (hands : after.writerHand = (pipeline.holdWriter index .empty).writerHand) :
      Effort pipeline step after

theorem effort_same (step : Step) : Effort pipeline step pipeline :=
  .rests (.refl _) rfl

/-- A writer that is not busy has nothing left. -/
theorem not_writes_of_idle {lane : WriterLane} (hlane : pipeline.outbox.lane? index = some lane)
    (hidle : lane.writer = .idle) (found : Job) (left : Bytes) :
    ¬pipeline.transport.Writes index found left := by
  rintro ⟨deadline, backlog, hwork⟩
  rw [Outbox.work?, show pipeline.transport.outbox.lane? index = some lane from hlane, Option.map_some,
    hidle] at hwork
  cases hwork

/-! ### Steps of the lanes -/

theorem effort_send (pipeline : Pipeline) (message : Message) :
    Effort pipeline (.send message) (pipeline.send message).1 :=
  .rests (.of_same (funext fun _ => Outbox.work?_send message) rfl) rfl

theorem effort_pull (pipeline : Pipeline) : Effort pipeline .pull pipeline.pull.1 := by
  unfold pull
  split
  · exact .rests (.of_same rfl rfl) rfl
  · exact effort_same _

theorem effort_pass (pipeline : Pipeline) : Effort pipeline .pass pipeline.pass.1 := by
  unfold pass
  split
  · exact effort_same _
  · exact .rests (.of_same (funext fun _ => Outbox.work?_enterLane _) rfl) rfl

theorem effort_pick (pipeline : Pipeline) (index : Nat) :
    Effort pipeline (.pick index) (pipeline.pick index).1 := by
  unfold pick
  split
  · rename_i message rest backlog writer hhand hlane
    exact .rests (.of_lane hlane (Outbox.lane?_setLane hlane _) rfl Or.inl rfl) rfl
  · exact effort_same _

theorem effort_judge (pipeline : Pipeline) (now : Int) (index : Nat) :
    Effort pipeline (.judge now index) (pipeline.judge now index).1 := by
  unfold judge
  split
  · split <;> exact .rests (.of_same rfl rfl) rfl
  · exact effort_same _

theorem effort_find (pipeline : Pipeline) (index : Nat) :
    Effort pipeline (.find index) (pipeline.find index).1 := by
  unfold find
  split
  · split <;> exact .rests (.of_same rfl rfl) rfl
  · exact effort_same _

theorem effort_leave (pipeline : Pipeline) (index : Nat) :
    Effort pipeline (.leave index) (pipeline.leave index).1 := by
  unfold leave
  split
  · rename_i job lane hhand hlane
    unfold Outbox.enterBacklog
    split
    · exact .rests (.of_lane hlane (Outbox.lane?_setLane hlane _) rfl Or.inl rfl) rfl
    · rename_i hroom
      exact .rests (.of_lane hlane (Outbox.lane?_setLane hlane _) rfl
        (fun _ => Or.inr (Nat.zero_lt_of_lt (Nat.lt_of_not_le hroom))) rfl) rfl
  · exact effort_same _

/-! ### Steps of the writers -/

theorem effort_receive (pipeline : Pipeline) (index : Nat) :
    Effort pipeline (.receive index) (pipeline.receive index).1 := by
  unfold receive
  split
  · rename_i queue job rest hhand hlane
    exact .receives index job
      (.of_lane hlane (Outbox.lane?_setLane hlane _) rfl (fun _ => Or.inl (List.cons_ne_nil _ _)) rfl)
      (not_writes_of_idle hlane rfl) ⟨.idle, job, rest, Outbox.work?_eq_some.mpr ⟨queue, hlane⟩⟩
      hhand rfl
  · exact effort_same _

theorem effort_ask (pipeline : Pipeline) (index : Nat) :
    Effort pipeline (.ask index) (pipeline.ask index).1 := by
  unfold ask
  split
  · rename_i job queue backlog hhand hlane
    have hidle := not_writes_of_idle hlane rfl
    refine .begins index job ⟨stocks_of_lane hlane (Outbox.lane?_setLane hlane _) Or.inl, hidle,
      fun other found left => ?_, fun conn other => ?_⟩ hhand
      (by rw [hlane]; rfl) rfl
    · refine (writes_turn (Outbox.lane?_setLane hlane _)).trans ?_
      by_cases hother : other = index
      · subst hother
        simp [hidle, eq_comm]
      · simp [hother]
    · exact queues_ask { pipeline.transport with outbox := _ }
  · exact effort_same _

theorem effort_put (pipeline : Pipeline) (index most : Nat) :
    Effort pipeline (.put index most) (pipeline.put index most).1 := by
  rcases put_cases pipeline index most with
    hsame | ⟨queue, backlog, job, bytes, rest, deadline, socket, hlane, hsocket, _, hput⟩
  · rw [hsame]
    exact effort_same _
  rw [hput]
  refine .proceeds index job bytes rest ⟨stocks_of_lane hlane (Outbox.lane?_setLane hlane _) Or.inl,
    writes_of_lane hlane rfl, fun other found left => ?_, fun conn other => ?_⟩ rfl
  · refine (writes_turn (Outbox.lane?_setLane hlane _)).trans ?_
    simp [eq_comm]
  · exact queues_replace
      (show socket? { pipeline.transport with outbox := _ } job.conn = _ from hsocket) rfl

theorem effort_finish (pipeline : Pipeline) (index : Nat) :
    Effort pipeline (.finish index) (pipeline.finish index).1 := by
  unfold finish
  split
  · rename_i queue backlog job deadline hlane
    rw [finishJob_of_lane hlane]
    exact .finishes index job
      (.of_lane hlane rfl (Outbox.lane?_setLane hlane _) rfl id rfl) rfl
  · exact effort_same _

theorem effort_giveUp (pipeline : Pipeline) (index : Nat) :
    Effort pipeline (.giveUp index) (pipeline.giveUp index).1 := by
  unfold giveUp
  split
  · rename_i queue backlog job left deadline hhand hlane
    rw [finishJob_of_lane hlane]
    exact .givesUp index job left
      (.of_lane hlane rfl (Outbox.lane?_setLane hlane _) rfl id rfl) hhand rfl
  · exact effort_same _

theorem effort_remove (pipeline : Pipeline) (index : Nat) :
    Effort pipeline (.remove index) (pipeline.remove index).1 := by
  unfold remove
  split
  · rename_i conn hhand
    exact .removes index conn (.of_same rfl rfl) hhand rfl rfl
  · exact effort_same _

theorem effort_quit (pipeline : Pipeline) (task : Task) :
    Effort pipeline (.quit task) (pipeline.quit task).1 := by
  cases task with
  | distributor => exact .rests (.of_same rfl rfl) rfl
  | lane index =>
      unfold quit
      dsimp only
      split
      · exact effort_same _
      · rename_i lane hlane
        exact .rests (.of_lane hlane (Outbox.lane?_setLane hlane _) rfl Or.inl rfl) rfl
  | writer index =>
      unfold quit
      dsimp only
      split
      · exact effort_same _
      · rename_i lane hlane
        let ended : WriterLane := { lane with backlog := [], writer := .idle }
        have hlanes := Outbox.lane?_setLane hlane ended
        cases hwriter : lane.writer with
        | idle =>
            exact .quits index rfl (Or.inl ⟨.of_lane hlane hlanes hwriter.symm (absurd rfl) rfl,
              not_writes_of_idle hlane hwriter⟩) rfl
        | busy job left deadline =>
            exact .quits index rfl (Or.inr ⟨job, left,
              .of_lane hlane hwriter hlanes rfl (absurd rfl) rfl⟩) rfl

/-! ### Other steps -/

theorem effort_outside (pipeline : Pipeline) (hstep : step.isOutside = true) :
    Effort pipeline step (pipeline.act step).1 := by
  have hwork : ∀ after : Transport, after.outbox = pipeline.transport.outbox →
      (∀ conn index, after.Queues conn index ↔ pipeline.transport.Queues conn index) →
      Effort pipeline step (pipeline.withTransport after) := fun after houtbox hqueues =>
    .rests ⟨stocks_of_work (congrArg Outbox.work? houtbox),
      fun _ _ _ => writes_congr (congrArg Outbox.work? houtbox), hqueues⟩ rfl
  cases step with
  | askShut changed =>
      refine hwork (pipeline.transport.askShut changed) ?_ fun conn index => ?_
      · unfold Transport.askShut
        split <;> rfl
      · unfold Transport.askShut
        split
        · exact queues_of_lock fun _ => Socket.mem_ask.trans (or_iff_left nofun)
        · exact Iff.rfl
  | shut changed =>
      refine hwork (pipeline.transport.shut changed) ?_ fun conn index => ?_
      · unfold Transport.shut
        split
        · split <;> rfl
        · rfl
      · unfold Transport.shut
        split
        · split
          · exact queues_of_lock fun _ => Socket.mem_release.trans (and_iff_left nofun)
          · exact Iff.rfl
        · exact Iff.rfl
  | read changed most =>
      refine hwork (pipeline.transport.read changed most).1 ?_ fun conn index => ?_
      · unfold Transport.read
        split <;> rfl
      · unfold Transport.read
        split
        · exact Iff.rfl
        · rename_i socket hsocket
          exact queues_replace hsocket rfl
  | hangUp changed =>
      exact hwork (pipeline.transport.hangUp changed) rfl fun _ _ => queues_of_lock fun _ => Iff.rfl
  | tick duration => exact hwork { pipeline.transport with timer := _ } rfl fun _ _ => Iff.rfl
  | dial now node capacity =>
      exact hwork _ (outbox_openSocket _ _ _) fun _ _ => queues_openSocket _ _ _
  | accept now capacity =>
      exact hwork _ (outbox_openSocket _ _ _) fun _ _ => queues_openSocket _ _ _
  | cancel changed => exact hwork { pipeline.transport with registry := _ } rfl fun _ _ => Iff.rfl
  | manage move => exact hwork { pipeline.transport with registry := _ } rfl fun _ _ => Iff.rfl
  | _ => cases hstep

theorem effort_stop (pipeline : Pipeline) :
    Effort pipeline .stop (pipeline.withTransport pipeline.transport.stop) := by
  refine .rests ⟨?_, fun _ _ _ => writes_stop _, fun _ _ => Iff.rfl⟩ rfl
  rintro index ⟨writer, job, rest, hwork⟩
  have hstopped : pipeline.transport.outbox.stop.work? index = some (writer, job :: rest) := hwork
  rw [Outbox.work?_stop] at hstopped
  obtain ⟨work, _, hnone⟩ := Option.map_eq_some_iff.mp hstopped
  cases congrArg Prod.snd hnone

/-- Every step does one of these things. -/
theorem act_effort (pipeline : Pipeline) (step : Step) :
    Effort pipeline step (pipeline.act step).1 := by
  cases step with
  | send message => exact effort_send pipeline message
  | pull => exact effort_pull pipeline
  | pass => exact effort_pass pipeline
  | pick index => exact effort_pick pipeline index
  | judge now index => exact effort_judge pipeline now index
  | find index => exact effort_find pipeline index
  | leave index => exact effort_leave pipeline index
  | receive index => exact effort_receive pipeline index
  | ask index => exact effort_ask pipeline index
  | put index most => exact effort_put pipeline index most
  | finish index => exact effort_finish pipeline index
  | giveUp index => exact effort_giveUp pipeline index
  | remove index => exact effort_remove pipeline index
  | stop => exact effort_stop pipeline
  | quit task => exact effort_quit pipeline task
  | _ => exact effort_outside pipeline rfl

/-! ## What is kept -/

variable {after : Pipeline} {other : Nat} {job : Job} {left : Bytes} {grip : WriterHand}

theorem grip_cases (hands : after.writerHand = (pipeline.holdWriter index grip).writerHand)
    (other : Nat) : other = index ∧ after.writerHand other = grip ∨
      other ≠ index ∧ after.writerHand other = pipeline.writerHand other := by
  rw [hands]
  by_cases hother : other = index
  · exact Or.inl ⟨hother, hother ▸ holdWriter_self _ _ _⟩
  · exact Or.inr ⟨hother, holdWriter_other _ _ _ hother⟩

theorem Effort.stocks (h : Effort pipeline step after) :
    Stocks pipeline.transport after.transport := by
  cases h with
  | rests stays _ => exact stays.stocks
  | receives _ _ stays _ _ _ _ => exact stays.stocks
  | begins _ _ begins _ _ _ => exact begins.stocks
  | proceeds _ _ _ _ proceeds _ => exact proceeds.stocks
  | finishes _ _ drops _ => exact drops.stocks
  | givesUp _ _ _ drops _ _ => exact drops.stocks
  | removes _ _ stays _ _ _ => exact stays.stocks
  | quits _ _ ends _ =>
      rcases ends with ⟨stays, _⟩ | ⟨_, _, drops⟩
      · exact stays.stocks
      · exact drops.stocks

/-- A writer that is busy was busy with the same job, or had it in hand. -/
theorem Effort.writes (h : Effort pipeline step after)
    (hwrites : after.transport.Writes index job left) :
    (∃ rest, pipeline.transport.Writes index job rest) ∨
      pipeline.writerHand index = .taken job ∧ after.writerHand index = .empty ∧
        (pipeline.outbox.lane? index).isSome = true := by
  cases h with
  | rests stays _ => exact Or.inl ⟨left, (stays.writes _ _ _).mp hwrites⟩
  | receives _ _ stays _ _ _ _ => exact Or.inl ⟨left, (stays.writes _ _ _).mp hwrites⟩
  | begins _ _ begins grip lane hands =>
      rcases (begins.writes _ _ _).mp hwrites with hold | ⟨rfl, rfl, rfl⟩
      · exact Or.inl ⟨left, hold⟩
      · exact Or.inr ⟨grip, hands ▸ holdWriter_self _ _ _, lane⟩
  | proceeds _ _ bytes _ proceeds _ =>
      rcases (proceeds.writes _ _ _).mp hwrites with ⟨rfl, rfl, rfl⟩ | ⟨_, hold⟩
      · exact Or.inl ⟨bytes ++ left, proceeds.busy⟩
      · exact Or.inl ⟨left, hold⟩
  | finishes _ _ drops _ => exact Or.inl ⟨left, ((drops.writes _ _ _).mp hwrites).2⟩
  | givesUp _ _ _ drops _ _ => exact Or.inl ⟨left, ((drops.writes _ _ _).mp hwrites).2⟩
  | removes _ _ stays _ _ _ => exact Or.inl ⟨left, (stays.writes _ _ _).mp hwrites⟩
  | quits _ _ ends _ =>
      rcases ends with ⟨stays, _⟩ | ⟨_, _, drops⟩
      · exact Or.inl ⟨left, (stays.writes _ _ _).mp hwrites⟩
      · exact Or.inl ⟨left, ((drops.writes _ _ _).mp hwrites).2⟩

theorem Effort.level (h : Effort pipeline step after) (hlevel : pipeline.transport.Level conn)
    (hsocket : pipeline.Carries conn → (pipeline.transport.socket? conn).isSome = true) :
    after.transport.Level conn := by
  cases h with
  | rests stays _ => exact stays.level hlevel
  | receives _ _ stays _ _ _ _ => exact stays.level hlevel
  | begins index job begins grip lane _ =>
      obtain ⟨found, hfound⟩ := Option.isSome_iff_exists.mp lane
      refine begins.level hlevel fun hconn => hsocket ⟨index, job, ?_, hconn⟩
      rw [load_of_lane hfound, Load.of, grip]
      simp [WriterHand.job?]
  | proceeds _ _ _ _ proceeds _ => exact proceeds.level hlevel
  | finishes _ _ drops _ => exact drops.level hlevel
  | givesUp _ _ _ drops _ _ => exact drops.level hlevel
  | removes _ _ stays _ _ _ => exact stays.level hlevel
  | quits _ _ ends _ =>
      rcases ends with ⟨stays, _⟩ | ⟨_, _, drops⟩
      · exact stays.level hlevel
      · exact drops.level hlevel

/-- A job has come as far as the backlog of a lane, and not further than its writer. -/
def Reached (pipeline : Pipeline) (index : Nat) : Prop :=
  pipeline.transport.Waits index ∨ (∃ job, pipeline.writerHand index = .taken job) ∨
    ∃ job left, pipeline.transport.Writes index job left

/-- A writer that is busy goes on, is done, or gives up, or its task ends. -/
theorem Effort.goesOn (h : Effort pipeline step after)
    (hwrites : pipeline.transport.Writes index job left) :
    (∃ bytes rest, left = bytes ++ rest ∧ after.transport.Writes index job rest) ∨ left = [] ∨
      after.writerHand index = .leaving job.conn ∨ step = .quit (.writer index) := by
  have hstays : after.transport.Writes index job left →
      ∃ bytes rest, left = bytes ++ rest ∧ after.transport.Writes index job rest :=
    fun hwrites => ⟨[], left, rfl, hwrites⟩
  cases h with
  | rests stays _ => exact Or.inl (hstays ((stays.writes _ _ _).mpr hwrites))
  | receives _ _ stays _ _ _ _ => exact Or.inl (hstays ((stays.writes _ _ _).mpr hwrites))
  | begins _ _ begins _ _ _ => exact Or.inl (hstays ((begins.writes _ _ _).mpr (Or.inl hwrites)))
  | removes _ _ stays _ _ _ => exact Or.inl (hstays ((stays.writes _ _ _).mpr hwrites))
  | proceeds other found bytes rest proceeds _ =>
      by_cases hother : index = other
      · subst hother
        obtain ⟨rfl, rfl⟩ := hwrites.unique proceeds.busy
        exact Or.inl ⟨bytes, rest, rfl, (proceeds.writes _ _ _).mpr (Or.inl ⟨rfl, rfl, rfl⟩)⟩
      · exact Or.inl (hstays ((proceeds.writes _ _ _).mpr (Or.inr ⟨hother, hwrites⟩)))
  | finishes other found drops _ =>
      by_cases hother : index = other
      · subst hother
        exact Or.inr (Or.inl (hwrites.unique drops.busy).2)
      · exact Or.inl (hstays ((drops.writes _ _ _).mpr ⟨hother, hwrites⟩))
  | givesUp other found rest drops _ hands =>
      by_cases hother : index = other
      · subst hother
        obtain ⟨rfl, _⟩ := hwrites.unique drops.busy
        exact Or.inr (Or.inr (Or.inl (hands ▸ holdWriter_self _ _ _)))
      · exact Or.inl (hstays ((drops.writes _ _ _).mpr ⟨hother, hwrites⟩))
  | quits other asks ends _ =>
      by_cases hother : index = other
      · exact Or.inr (Or.inr (Or.inr (hother ▸ asks)))
      · rcases ends with ⟨stays, _⟩ | ⟨_, _, drops⟩
        · exact Or.inl (hstays ((stays.writes _ _ _).mpr hwrites))
        · exact Or.inl (hstays ((drops.writes _ _ _).mpr ⟨hother, hwrites⟩))

/-- What becomes of the hand of one writer. -/
inductive Regrip (pipeline : Pipeline) (step : Step) (after : Pipeline) (index : Nat) : Prop where
  | keeps (hand : after.writerHand index = pipeline.writerHand index) :
      Regrip pipeline step after index
  | takes (job : Job)
      (idle : ∀ found left, ¬pipeline.transport.Writes index found left)
      (waits : pipeline.transport.Waits index)
      (was : pipeline.writerHand index = .empty)
      (hand : after.writerHand index = .taken job) : Regrip pipeline step after index
  | asks (job : Job)
      (was : pipeline.writerHand index = .taken job)
      (hand : after.writerHand index = .empty) : Regrip pipeline step after index
  | givesUp (job : Job)
      (busy : pipeline.transport.Busy job.conn index)
      (was : pipeline.writerHand index = .empty)
      (free : ∀ found left, ¬after.transport.Writes index found left)
      (hand : after.writerHand index = .leaving job.conn) : Regrip pipeline step after index
  | removes (conn : ConnId)
      (was : pipeline.writerHand index = .leaving conn)
      (hand : after.writerHand index = .empty)
      (registry : after.transport.registry = (pipeline.transport.registry.removeConn conn).1) :
      Regrip pipeline step after index
  | quits
      (asks : step = .quit (.writer index))
      (hand : after.writerHand index = .empty) : Regrip pipeline step after index

theorem Effort.regrip (h : Effort pipeline step after) (other : Nat) :
    Regrip pipeline step after other := by
  have hturn : ∀ {index grip}, after.writerHand = (pipeline.holdWriter index grip).writerHand →
      (other = index → after.writerHand other = grip → Regrip pipeline step after other) →
      Regrip pipeline step after other := fun hands hself =>
    (grip_cases hands other).elim (fun hsame => hself hsame.1 hsame.2) fun hother => .keeps hother.2
  cases h with
  | rests _ hands => exact .keeps (congrFun hands other)
  | proceeds _ _ _ _ _ hands => exact .keeps (congrFun hands other)
  | finishes _ _ _ hands => exact .keeps (congrFun hands other)
  | receives index job _ idle waits grip hands =>
      exact hturn hands fun hsame hand => .takes job (hsame ▸ idle) (hsame ▸ waits) (hsame ▸ grip) hand
  | begins index job _ grip _ hands =>
      exact hturn hands fun hsame hand => .asks job (hsame ▸ grip) hand
  | givesUp index job left drops grip hands =>
      exact hturn hands fun hsame hand => .givesUp job (hsame ▸ ⟨job, left, drops.busy, rfl⟩)
        (hsame ▸ grip) (fun _ _ hwrites => ((drops.writes _ _ _).mp hwrites).1 hsame) hand
  | removes index conn _ grip hands registry =>
      exact hturn hands fun hsame hand => .removes conn (hsame ▸ grip) hand registry
  | quits index asks _ hands => exact hturn hands fun hsame hand => .quits (hsame ▸ asks) hand

/-- Jobs come that far only if a backlog has room for one. -/
theorem Effort.reached (h : Effort pipeline step after) (hreached : after.Reached other) :
    pipeline.Reached other ∨ 0 < pipeline.outbox.limits.backlog := by
  rcases hreached with hwaits | ⟨job, htaken⟩ | ⟨job, left, hwrites⟩
  · exact (h.stocks other hwaits).imp Or.inl id
  · cases h.regrip other with
    | keeps hand => exact Or.inl (Or.inr (Or.inl ⟨job, hand ▸ htaken⟩))
    | takes _ _ waits _ _ => exact Or.inl (Or.inl waits)
    | asks _ _ hand => cases hand.symm.trans htaken
    | givesUp _ _ _ _ hand => cases hand.symm.trans htaken
    | removes _ _ hand _ => cases hand.symm.trans htaken
    | quits _ hand => cases hand.symm.trans htaken
  · rcases h.writes hwrites with ⟨rest, hwas⟩ | ⟨htaken, _, _⟩
    · exact Or.inl (Or.inr (Or.inr ⟨job, rest, hwas⟩))
    · exact Or.inl (Or.inr (Or.inl ⟨job, htaken⟩))

/-- A writer that is busy has nothing else in hand. -/
def OneHanded (pipeline : Pipeline) : Prop :=
  ∀ index job left, pipeline.transport.Writes index job left → pipeline.writerHand index = .empty

theorem OneHanded.effort (honly : pipeline.OneHanded) (h : Effort pipeline step after) :
    after.OneHanded := by
  intro other job left hwrites
  rcases h.writes hwrites with ⟨rest, hwas⟩ | ⟨_, hempty, _⟩
  · cases h.regrip other with
    | keeps hand => exact hand.trans (honly other job rest hwas)
    | takes _ idle _ _ _ => exact absurd hwas (idle job rest)
    | asks _ _ hand => exact hand
    | givesUp _ _ _ free _ => exact absurd hwrites (free job left)
    | removes _ _ hand _ => exact hand
    | quits _ hand => exact hand
  · exact hempty

end Pipeline

end Peering
