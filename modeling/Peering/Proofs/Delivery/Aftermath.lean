import Peering.Proofs.Delivery.Severed

/-!
# What follows a stream that has broken off

When the connection is closed, no task is given it any more; but a job that is left
for it goes its way. Whoever has the lock then puts the job after the part of a frame
as soon as the peer has read; and if nobody has it, the lane that has the job comes to
it after the other jobs before it, each of which may fail.

Main statement: when a stream stays intact, and when another piece follows the part of
a frame that it ends with, for every order in which the tasks take their steps.
-/

namespace Peering

namespace Pipeline

open Transport

variable {pipeline : Pipeline} {conn changed : ConnId} {index : Nat} {queue : List Message}
  {backlog : List Job} {job : Job} {left : Bytes} {deadline : Nat} {hand : LaneHand}
  {grip : WriterHand} {lane : WriterLane}

/-! ## One lane and its writer -/

/-- A lane with its queues, and what it and its writer have in hand. -/
structure Station (pipeline : Pipeline) (index : Nat) (lane : WriterLane) (hand : LaneHand)
    (grip : WriterHand) : Prop where
  lane : pipeline.outbox.lane? index = some lane
  hand : pipeline.laneHand index = hand
  grip : pipeline.writerHand index = grip

theorem Station.jobs (h : Station pipeline index lane hand grip) : (pipeline.load index).jobs =
    lane.writer.unwritten ++ grip.job?.toList ++ lane.backlog ++ hand.job?.toList := by
  rw [load_of_lane h.lane, h.hand, h.grip]
  rfl

/-- A job that the writer does not have waits for it. -/
theorem Station.waits (h : Station pipeline index lane hand grip)
    (hmem : job ∈ (pipeline.load index).jobs) (hwriter : job ∉ lane.writer.unwritten)
    (hgrip : job ∉ grip.job?.toList) : job ∈ lane.backlog ++ hand.job?.toList := by
  rw [h.jobs] at hmem
  simpa only [List.mem_append, hwriter, hgrip, false_or] using hmem

/-- A lane leaves its job for a writer that has no other one waiting. -/
theorem Station.leave (h : Station pipeline index ⟨queue, [], .idle⟩ (.bound job) grip)
    (hroom : 0 < pipeline.outbox.limits.backlog) :
    Station (pipeline.leave index).1 index ⟨queue, [job], .idle⟩ .empty grip ∧
      ∀ conn, (pipeline.leave index).1.transport.socket? conn = pipeline.transport.socket? conn := by
  have hleft := leave_bound h.hand h.lane
  have hfree : ¬pipeline.outbox.limits.backlog ≤ ([] : List Job).length := Nat.not_le.mpr hroom
  simp only [Outbox.enterBacklog, if_neg hfree] at hleft
  rw [hleft]
  exact ⟨⟨(Outbox.lane?_setLane h.lane _ index).trans (if_pos rfl), holdLane_self _ _ _, h.grip⟩,
    fun _ => rfl⟩

theorem Station.receive (h : Station pipeline index ⟨queue, job :: backlog, .idle⟩ hand .empty) :
    Station (pipeline.receive index).1 index ⟨queue, backlog, .idle⟩ hand (.taken job) ∧
      ∀ conn, (pipeline.receive index).1.transport.socket? conn = pipeline.transport.socket? conn := by
  simp only [Pipeline.receive, h.grip, h.lane]
  exact ⟨⟨(Outbox.lane?_setLane h.lane _ index).trans (if_pos rfl), h.hand, holdWriter_self _ _ _⟩,
    fun _ => rfl⟩

theorem Station.ask (h : Station pipeline index ⟨queue, backlog, .idle⟩ hand (.taken job)) :
    (∃ deadline, Station (pipeline.ask index).1 index ⟨queue, backlog, .busy job job.bytes deadline⟩
      hand .empty) ∧
      ∀ conn, (pipeline.ask index).1.transport.socket? conn =
        if conn = job.conn then (pipeline.transport.socket? conn).map (·.ask (.lane index))
        else pipeline.transport.socket? conn := by
  rw [ask_taken h.grip h.lane]
  exact ⟨⟨_, (Outbox.lane?_setLane h.lane _ index).trans (if_pos rfl), h.hand, holdWriter_self _ _ _⟩,
    fun conn => socket?_onSocket { pipeline.transport with outbox := _ } conn job.conn _⟩

theorem Station.tick (h : Station pipeline index lane hand grip) (duration : Nat) :
    Station (pipeline.act (.tick duration)).1 index lane hand grip :=
  ⟨h.lane, h.hand, h.grip⟩

theorem Station.giveUp
    (h : Station pipeline index ⟨queue, backlog, .busy job left deadline⟩ hand .empty) :
    Station (pipeline.giveUp index).1 index ⟨queue, backlog, .idle⟩ hand (.leaving job.conn) ∧
      ∀ conn, conn ≠ job.conn →
        (pipeline.giveUp index).1.transport.socket? conn = pipeline.transport.socket? conn := by
  simp only [Pipeline.giveUp, h.grip, h.lane,
    finishJob_of_lane (show pipeline.transport.outbox.lane? index = _ from h.lane)]
  refine ⟨⟨(Outbox.lane?_setLane h.lane _ index).trans (if_pos rfl), h.hand, holdWriter_self _ _ _⟩,
    fun conn hconn => ?_⟩
  exact (socket?_onSocket { pipeline.transport with outbox := _ } conn job.conn _).trans (if_neg hconn)

theorem Station.remove (h : Station pipeline index lane hand (.leaving changed)) :
    Station (pipeline.remove index).1 index lane hand .empty ∧
      ∀ conn, (pipeline.remove index).1.transport.socket? conn = pipeline.transport.socket? conn := by
  rw [remove_leaving h.grip]
  exact ⟨⟨h.lane, h.hand, holdWriter_self _ _ _⟩, fun _ => rfl⟩

end Pipeline

namespace Chronicle

open Pipeline Transport

variable {chronicle : Chronicle} {conn changed : ConnId} {index : Nat} {queue : List Message}
  {backlog : List Job} {job : Job} {left : Bytes} {deadline : Nat} {hand : LaneHand} {step : Step}

/-! ## When another piece follows -/

theorem Continues.of_act (step : Step)
    (htakes : chronicle.pipeline.Takes step ∧ chronicle.pipeline.InTime step)
    (hpieces : pieces conn (chronicle.act step).notes = pieces conn chronicle.notes)
    (h : (chronicle.act step).Continues conn) : chronicle.Continues conn := by
  obtain ⟨later, piece, hproper, hfollows⟩ := h
  exact ⟨step :: later, piece, ⟨htakes, hproper⟩, hpieces ▸ hfollows⟩

theorem CutShort.act (hcut : chronicle.CutShort conn) (step : Step)
    (hput : ∀ index most, step ≠ .put index most) :
    pieces conn (chronicle.act step).notes = pieces conn chronicle.notes ∧
      (chronicle.act step).CutShort conn := by
  have hquiet : Quiet conn chronicle.pipeline.transport (chronicle.act step).pipeline.transport
      (chronicle.pipeline.act step).2 := quiet_act chronicle.pipeline hput
  have hpieces := pieces_act_of_quiet hquiet
  exact ⟨hpieces, hpieces ▸ hcut.1, fun index job left hmidway =>
    hcut.2 index job left (hquiet.midway index job left hmidway)⟩

/-- Once the peer has read everything, the writer that has the lock begins a piece. -/
theorem CutShort.continues (hcut : chronicle.CutShort conn) {socket : Socket}
    (hsocket : chronicle.pipeline.transport.socket? conn = some socket)
    (hopen : socket.isBroken = false) (hroom : 0 < socket.capacity)
    (hhead : socket.lock.head? = some (.lane index))
    (hwrites : chronicle.pipeline.transport.Writes index job left) (hconn : job.conn = conn) :
    chronicle.Continues conn := by
  have hleft : left = job.bytes := by
    by_contra hbegun
    exact hcut.2 index job left ⟨hwrites, hconn, hbegun⟩
  subst hleft hconn
  obtain ⟨deadline, backlog, hwork⟩ := hwrites
  obtain ⟨queue, hlane⟩ := Outbox.work?_eq_some.mp hwork
  let emptied := chronicle.act (.read job.conn socket.unread.length)
  have hemptied : emptied.pipeline.transport.socket? job.conn = some { socket with unread := [] } := by
    show (chronicle.pipeline.transport.read job.conn _).1.socket? job.conn = _
    simp [Transport.read, hsocket, socket?_onSocket, Socket.read]
  have hkept : emptied.pipeline.outbox.lane? index =
      some ⟨queue, backlog, .busy job job.bytes deadline⟩ := by
    show (chronicle.pipeline.transport.read job.conn _).1.outbox.lane? index = _
    simpa [Transport.read, hsocket, onSocket] using hlane
  have hbytes : job.bytes.take 1 ≠ [] := by
    simpa [List.take_eq_nil_iff] using bytes_ne_nil job
  have hnotes : (emptied.pipeline.put index 1).2 = [.put job job.bytes (job.bytes.take 1)] := by
    have hheld : ({ socket with unread := [] } : Socket).isHeldBy (.lane index) = true :=
      Socket.isHeldBy_iff.mpr hhead
    have hunbroken : ({ socket with unread := [] } : Socket).isBroken = false := hopen
    have hone : min 1 socket.capacity = 1 := Nat.min_eq_left hroom
    simp [Pipeline.put, hkept, hemptied, hheld, hunbroken, hone, hbytes]
  obtain ⟨hpieces, _⟩ := hcut.act (.read job.conn socket.unread.length) (by simp)
  refine Continues.of_act (.read job.conn socket.unread.length) ⟨trivial, trivial⟩ hpieces
    ⟨[.put index 1], ⟨job, job.bytes.take 1⟩, ⟨⟨trivial, trivial⟩, trivial⟩, ?_⟩
  show pieces job.conn (emptied.notes ++ (emptied.pipeline.put index 1).2) = _
  rw [pieces_append, hnotes]
  simp [Note.onto, Watch.note, hbytes, emptied]

/-- A stream has broken off, nobody asks for the lock, and the socket takes bytes. -/
structure Vacant (conn : ConnId) (chronicle : Chronicle) : Prop where
  cut : chronicle.CutShort conn
  free : ∃ socket, chronicle.pipeline.transport.socket? conn = some socket ∧
    socket.isBroken = false ∧ 0 < socket.capacity ∧ socket.lock = []
  room : 0 < chronicle.pipeline.outbox.limits.backlog

namespace Vacant

theorem not_queues (h : Vacant conn chronicle) :
    ¬chronicle.pipeline.transport.Queues conn index := by
  rintro ⟨found, hfound, hqueued⟩
  obtain ⟨socket, hsocket, _, _, hlock⟩ := h.free
  obtain rfl : socket = found := Option.some.inj (hsocket.symm.trans hfound)
  rw [hlock] at hqueued
  cases hqueued

/-- A step that leaves the socket alone leads on if there is a way on from its end. -/
theorem act (h : Vacant conn chronicle) (step : Step) (hput : ∀ index most, step ≠ .put index most)
    (htakes : chronicle.pipeline.Takes step ∧ chronicle.pipeline.InTime step)
    (hsocket : (chronicle.pipeline.act step).1.transport.socket? conn =
      chronicle.pipeline.transport.socket? conn)
    (hlater : Vacant conn (chronicle.act step) → (chronicle.act step).Continues conn) :
    chronicle.Continues conn := by
  obtain ⟨hpieces, hcut⟩ := h.cut.act step hput
  refine Continues.of_act step htakes hpieces (hlater ⟨hcut, ?_, ?_⟩)
  · obtain ⟨socket, hfound, hfree⟩ := h.free
    exact ⟨socket, hsocket.trans hfound, hfree⟩
  · show 0 < (chronicle.pipeline.act step).1.outbox.limits.backlog
    rw [(lanes_act chronicle.pipeline step).1]
    exact h.room

theorem remove (h : Vacant conn chronicle) {lane : WriterLane}
    (hstation : Station chronicle.pipeline index lane hand (.leaving changed))
    (hlater : ∀ after, Vacant conn after → Station after.pipeline index lane hand .empty →
      after.Continues conn) : chronicle.Continues conn := by
  obtain ⟨hnext, hsockets⟩ := hstation.remove
  exact h.act (.remove index) (by simp) ⟨trivial, trivial⟩ (hsockets conn)
    fun hvacant => hlater _ hvacant hnext

/-- A writer that is busy elsewhere gives up in time, and removes the other connection. -/
theorem giveUp (h : Vacant conn chronicle)
    (hstation : Station chronicle.pipeline index ⟨queue, backlog, .busy job left deadline⟩ hand .empty)
    (hconn : job.conn ≠ conn)
    (hlater : ∀ after, Vacant conn after →
      Station after.pipeline index ⟨queue, backlog, .idle⟩ hand .empty → after.Continues conn) :
    chronicle.Continues conn := by
  refine h.act (.tick deadline) (by simp) ⟨trivial, trivial⟩ rfl fun hlate => ?_
  have hdue := hstation.tick deadline
  obtain ⟨hnext, hsocket⟩ := hdue.giveUp
  refine hlate.act (.giveUp index) (by simp) ⟨trivial, fun given rest due waiting hwork => ?_⟩
    (hsocket conn hconn.symm) fun hvacant => hvacant.remove hnext hlater
  have hsame : some (Writer.busy job left deadline, backlog) = some (.busy given rest due, waiting) :=
    (congrArg (Option.map _) hdue.lane).symm.trans hwork
  cases hsame
  exact Or.inl (Nat.le_add_left _ _)

/-- A writer that has taken a job for the connection puts it. -/
theorem ask_own (h : Vacant conn chronicle)
    (hstation : Station chronicle.pipeline index ⟨queue, backlog, .idle⟩ hand (.taken job))
    (hconn : job.conn = conn) : chronicle.Continues conn := by
  obtain ⟨⟨deadline, hnext⟩, hsockets⟩ := hstation.ask
  obtain ⟨hpieces, hcut⟩ := h.cut.act (.ask index) (by simp)
  obtain ⟨socket, hsocket, hopen, hroom, hlock⟩ := h.free
  have hasked : (chronicle.act (.ask index)).pipeline.transport.socket? conn =
      some (socket.ask (.lane index)) := by
    refine (hsockets conn).trans ?_
    rw [if_pos hconn.symm, hsocket, Option.map_some]
  have hfirst : (socket.ask (.lane index)).lock.head? = some (.lane index) := by
    simp [Socket.ask, hlock]
  have hspace : 0 < (socket.ask (.lane index)).capacity := by
    rw [Socket.ask_capacity]
    exact hroom
  exact Continues.of_act (.ask index) ⟨trivial, trivial⟩ hpieces
    (hcut.continues hasked (Socket.ask_isBroken.trans hopen) hspace hfirst
      (writes_of_lane hnext.lane rfl) hconn)

/-- A writer that has taken another job gives it up in time. -/
theorem ask_other (h : Vacant conn chronicle)
    (hstation : Station chronicle.pipeline index ⟨queue, backlog, .idle⟩ hand (.taken job))
    (hconn : job.conn ≠ conn)
    (hlater : ∀ after, Vacant conn after →
      Station after.pipeline index ⟨queue, backlog, .idle⟩ hand .empty → after.Continues conn) :
    chronicle.Continues conn := by
  obtain ⟨⟨deadline, hnext⟩, hsockets⟩ := hstation.ask
  exact h.act (.ask index) (by simp) ⟨trivial, trivial⟩ ((hsockets conn).trans (if_neg hconn.symm))
    fun hvacant => hvacant.giveUp hnext hconn hlater

/-- A writer that is free goes through its backlog, and the lane leaves what it has for it. -/
theorem continues (h : Vacant conn chronicle)
    (hstation : Station chronicle.pipeline index ⟨queue, backlog, .idle⟩ hand .empty)
    (hjob : ∃ job ∈ backlog ++ hand.job?.toList, job.conn = conn) : chronicle.Continues conn := by
  induction backlog generalizing chronicle with
  | nil =>
      obtain ⟨job, hmem, hconn⟩ := hjob
      cases hand with
      | bound given =>
          obtain rfl : job = given := by simpa [LaneHand.job?] using hmem
          obtain ⟨hleft, hsockets⟩ := hstation.leave h.room
          refine h.act (.leave index) (by simp) ⟨trivial, trivial⟩ (hsockets conn) fun hvacant => ?_
          obtain ⟨hreceived, hsame⟩ := hleft.receive
          exact hvacant.act (.receive index) (by simp) ⟨trivial, trivial⟩ (hsame conn)
            fun hnext => hnext.ask_own hreceived hconn
      | _ => cases hmem
  | cons first rest ih =>
      obtain ⟨hreceived, hsockets⟩ := hstation.receive
      refine h.act (.receive index) (by simp) ⟨trivial, trivial⟩ (hsockets conn) fun hvacant => ?_
      by_cases hconn : first.conn = conn
      · exact hvacant.ask_own hreceived hconn
      · refine hvacant.ask_other hreceived hconn fun after hafter hfree => ih hafter hfree ?_
        obtain ⟨job, hmem, hfound⟩ := hjob
        rcases List.mem_cons.mp hmem with rfl | hmem
        · exact absurd hfound hconn
        · exact ⟨job, hmem, hfound⟩

end Vacant

/-- If nobody asks for the lock, the lane that has the job comes to it. -/
theorem Kept.continues_of_vacant (h : Kept conn chronicle) (hvacant : Vacant conn chronicle)
    (hcarries : chronicle.pipeline.Carries conn) : chronicle.Continues conn := by
  obtain ⟨index, job, hmem, hconn⟩ := hcarries
  cases hlane : chronicle.pipeline.outbox.lane? index with
  | none =>
      rw [Pipeline.load, hlane] at hmem
      cases hmem
  | some lane =>
      obtain ⟨queue, backlog, writer⟩ := lane
      have hstation : Station chronicle.pipeline index ⟨queue, backlog, writer⟩
          (chronicle.pipeline.laneHand index) (chronicle.pipeline.writerHand index) :=
        ⟨hlane, rfl, rfl⟩
      cases writer with
      | busy given left deadline =>
          have hwrites : chronicle.pipeline.transport.Writes index given left :=
            writes_of_lane hlane rfl
          have hother : given.conn ≠ conn := fun hsame =>
            hvacant.not_queues ((h.manned.level index).mpr ⟨given, left, hwrites, hsame⟩)
          rw [h.manned.single index given left hwrites] at hstation
          have hgiven : job ∉ (Writer.busy given left deadline).unwritten := fun hpart =>
            hother (Writer.eq_of_mem_unwritten hpart ▸ hconn)
          have hwaits := hstation.waits hmem hgiven List.not_mem_nil
          exact hvacant.giveUp hstation hother fun after hafter hfree =>
            hafter.continues hfree ⟨job, hwaits, hconn⟩
      | idle =>
          cases hgrip : chronicle.pipeline.writerHand index with
          | empty =>
              rw [hgrip] at hstation
              have hwaits := hstation.waits hmem List.not_mem_nil List.not_mem_nil
              exact hvacant.continues hstation ⟨job, hwaits, hconn⟩
          | leaving changed =>
              rw [hgrip] at hstation
              have hwaits := hstation.waits hmem List.not_mem_nil List.not_mem_nil
              exact hvacant.remove hstation fun after hafter hfree =>
                hafter.continues hfree ⟨job, hwaits, hconn⟩
          | taken given =>
              rw [hgrip] at hstation
              by_cases hsame : given.conn = conn
              · exact hvacant.ask_own hstation hsame
              · have hgiven : job ∉ (WriterHand.taken given).job?.toList := fun hheld =>
                  hsame (List.mem_singleton.mp hheld ▸ hconn)
                have hwaits := hstation.waits hmem List.not_mem_nil hgiven
                exact hvacant.ask_other hstation hsame fun after hafter hfree =>
                  hafter.continues hfree ⟨job, hwaits, hconn⟩

/-- A stream that has broken off while exposed goes on with another piece. -/
theorem Kept.continues (h : Kept conn chronicle) (hcut : chronicle.CutShort conn)
    (hexposed : chronicle.pipeline.Exposed conn) : chronicle.Continues conn := by
  obtain ⟨socket, hsocket, hopen, hheld, hcarries⟩ := hexposed
  obtain ⟨found, hfound, hroom⟩ := hcut.socket h.traced
  obtain rfl : socket = found := Option.some.inj (hsocket.symm.trans hfound)
  cases hlock : socket.lock with
  | nil =>
      obtain ⟨newest, older, hpieces, _⟩ := hcut.1
      have hstocked := h.stocked (by simp [hpieces])
      exact h.continues_of_vacant ⟨hcut, ⟨socket, hsocket, hopen, hroom, hlock⟩, hstocked⟩ hcarries
  | cons holder waiting =>
      have hhead : socket.lock.head? = some holder := by rw [hlock, List.head?_cons]
      cases holder with
      | closer =>
          rw [Socket.isHeldBy_iff.mpr hhead] at hheld
          cases hheld
      | lane index =>
          have hqueued : chronicle.pipeline.transport.Queues conn index :=
            ⟨socket, hsocket, List.mem_of_mem_head? hhead⟩
          obtain ⟨job, left, hwrites, hconn⟩ := (h.manned.level index).mp hqueued
          exact hcut.continues hsocket hopen hroom hhead hwrites hconn
      | session => exact absurd (List.mem_of_mem_head? hhead) (h.manned.strangers socket hsocket)

/--
Over every run the stream of a connection is its pieces, each the front of a frame
for it, and it is intact as long as it has not broken off while exposed. When it has
broken off, the connection is gone, or a writer still has to remove it; and if it is
exposed then, another piece can follow. Once the connection is gone and the stream
is not exposed, nothing follows, whatever happens.
-/
theorem run_cut_short (self : Identity) (limits : Limits) (outboxLimits : OutboxLimits)
    (conn : ConnId) (steps : List Step) :
    let start := opening (Registry.create self limits) outboxLimits
    let chronicle := start.run steps
    let stream := pieces conn chronicle.notes
    received conn chronicle.notes ++ chronicle.pipeline.transport.unread conn =
        stream.reverse.flatMap Piece.sent ∧
    (∀ piece ∈ stream,
      piece.job.conn = conn ∧ piece.sent ≠ [] ∧ piece.sent <+: piece.job.bytes) ∧
    ((∀ before, before <+: steps →
      ¬((start.run before).CutShort conn ∧ (start.run before).pipeline.Exposed conn)) →
      chronicle.Intact conn) ∧
    (chronicle.CutShort conn → start.Along Pipeline.Takes steps →
      (chronicle.pipeline.transport.IsGone conn ∨
        ∃ index, chronicle.pipeline.writerHand index = .leaving conn) ∧
      (chronicle.pipeline.Exposed conn → chronicle.Continues conn)) ∧
    (chronicle.CutShort conn → chronicle.pipeline.transport.IsGone conn →
      ¬chronicle.pipeline.Exposed conn →
      ∀ later, pieces conn (chronicle.run later).notes = stream) := by
  intro start chronicle stream
  have hstart : Kept conn start := kept_opening self limits outboxLimits conn
  have htraced : Traced conn chronicle := hstart.traced.run steps
  refine ⟨htraced.wire.stream, htraced.wire.piece, ?_, fun hcut hproper => ?_, htraced.sealed_run⟩
  · exact hstart.traced.intact_run (fun piece hmem => by cases hmem) steps
  · have hkept : Kept conn chronicle := hstart.run hproper
    exact ⟨hkept.gone hcut, hkept.continues hcut⟩

/-- A writer gives up with part of a frame put, while the lane has another job in hand. -/
def halfSent : List Step :=
  let find : List Step := [.pull, .pass, .pick 0, .judge 0 0, .find 0]
  [.accept 0 10, .send ⟨.inbound 1, ⟨1, 1, 1, [0xaa, 0xbb, 0xcc, 0xdd]⟩, 0⟩,
    .send ⟨.inbound 1, ⟨1, 1, 2, [0xee]⟩, 0⟩] ++ find ++ [.leave 0] ++ find ++
    [.receive 0, .ask 0, .put 0 64, .tick 100, .giveUp 0, .remove 0]

example :
    let self := Identity.create (Registry.repeatedId 0x7a) (.v4 0x7f000001) 1
    let start := opening (Registry.create self ⟨8, 8, 600, 300, 600⟩) ⟨1, 8, 8, 8, 100, 16⟩
    let cut := start.run halfSent
    let later := cut.run [.leave 0, .receive 0, .ask 0, .read 1 10, .put 0 64, .read 1 10]
    cut.pipeline.outbox.jobs = [] ∧ cut.pipeline.transport.registry.isClosed 1 = true ∧
      received 1 later.notes = [0, 1, 1, 1, 0, 0, 0, 4, 0xaa, 0xbb, 0, 1, 1, 2, 0, 0, 0, 1, 0xee] := by
  decide +kernel

end Chronicle

end Peering
