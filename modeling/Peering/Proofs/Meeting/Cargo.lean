import Peering.Proofs.Delivery.Runs
import Peering.Proofs.Frame.Stream

/-!
# The cargo of an outbox

What an outbox still has to bring onto sockets: its messages, wherever they wait,
and what a writer has left of one. An outbox with at most one message drops none
for want of room, so its steps only move the message, until it is on a socket or
its destination is gone.
-/

namespace Peering

def Message.load (message : Message) : Destination × Bytes :=
  (message.dest, message.frame.encode)

def Writer.cargo : Writer → List (Destination × Bytes)
  | .idle => []
  | .busy job left _ => [(job.message.dest, left)]

def WriterLane.cargo (lane : WriterLane) : List (Destination × Bytes) :=
  lane.writer.cargo ++ lane.backlog.map (·.message.load) ++ lane.queue.map Message.load

namespace Outbox

variable {outbox : Outbox} {index : Nat} {lane old : WriterLane} {job : Job} {left : Bytes}
  {backlog : List Job} {deadline : Nat} {conn : ConnId}

/-- Destinations, each with the bytes that are still to be written there. -/
def cargo (outbox : Outbox) : List (Destination × Bytes) :=
  outbox.queue.map Message.load ++ outbox.lanes.flatMap WriterLane.cargo

/-- The other lanes stay as they are when one lane changes. -/
theorem lanes_setLane (hold : outbox.lane? index = some old) :
    ∃ before after, outbox.lanes = before ++ old :: after ∧
      ∀ lane, (outbox.setLane index lane).lanes = before ++ lane :: after := by
  obtain ⟨hindex, hget⟩ := List.getElem?_eq_some_iff.mp hold
  refine ⟨outbox.lanes.take index, outbox.lanes.drop (index + 1), ?_, ?_⟩
  · rw [← hget, List.getElem_cons_drop, List.take_append_drop]
  · intro lane
    rw [setLane, List.set_eq_take_append_cons_drop, if_pos hindex]

theorem cargo_setLane_of_same (hold : outbox.lane? index = some old)
    (hsame : lane.cargo = old.cargo) : (outbox.setLane index lane).cargo = outbox.cargo := by
  obtain ⟨before, after, hlanes, hset⟩ := lanes_setLane hold
  rw [cargo, cargo, hset, hlanes]
  simp [hsame, setLane]

/-- When a lane has all of the cargo, what becomes of the lane becomes of the cargo. -/
theorem cargo_setLane_of_only (hold : outbox.lane? index = some old)
    (hone : outbox.cargo.length ≤ 1) (hsome : old.cargo ≠ []) :
    outbox.cargo = old.cargo ∧ ∀ lane, (outbox.setLane index lane).cargo = lane.cargo := by
  obtain ⟨before, after, hlanes, hset⟩ := lanes_setLane hold
  have hpos := List.length_pos_iff.mpr hsome
  rw [cargo, hlanes] at hone
  simp only [List.flatMap_append, List.flatMap_cons, List.length_append] at hone
  have hqueue : outbox.queue.map Message.load = [] := List.length_eq_zero_iff.mp (by omega)
  have hbefore : before.flatMap WriterLane.cargo = [] := List.length_eq_zero_iff.mp (by omega)
  have hafter : after.flatMap WriterLane.cargo = [] := List.length_eq_zero_iff.mp (by omega)
  constructor
  · rw [cargo, hlanes, hqueue]
    simp [hbefore, hafter]
  · intro lane
    rw [cargo, hset]
    simp [setLane, hqueue, hbefore, hafter]

/-- Bytes that are meant for a dialed connection. -/
def IsRequest (load : Destination × Bytes) : Prop :=
  (∃ conn, load.1 = .outbound conn) ∧ load.2 ≠ []

/-- At most one message is on its way, its job leads to its own destination, and queues have room. -/
structure IsLight (outbox : Outbox) : Prop where
  lanes : 0 < outbox.lanes.length
  sendQueue : 0 < outbox.limits.sendQueue
  laneQueue : 0 < outbox.limits.laneQueue
  backlog : 0 < outbox.limits.backlog
  going : outbox.stopped = false
  single : outbox.cargo.length ≤ 1
  dest : ∀ job ∈ outbox.jobs, job.message.dest = .outbound job.conn
  dialed : ∀ load ∈ outbox.cargo, IsRequest load

theorem cargo_create (limits : OutboxLimits) : (create limits).cargo = [] := by
  simp [cargo, create, WriterLane.cargo, WriterLane.empty, Writer.cargo]

theorem isLight_create {limits : OutboxLimits} (hlanes : 0 < limits.lanes)
    (hsendQueue : 0 < limits.sendQueue) (hlaneQueue : 0 < limits.laneQueue)
    (hbacklog : 0 < limits.backlog) : (create limits).IsLight where
  lanes := by simpa [create] using hlanes
  sendQueue := hsendQueue
  laneQueue := hlaneQueue
  backlog := hbacklog
  going := rfl
  single := by simp [cargo_create]
  dialed := by simp [cargo_create]
  dest := by
    intro job hjob
    obtain ⟨lane, hlane, hmem⟩ := List.mem_flatMap.mp hjob
    rw [(List.mem_replicate.mp hlane).2] at hmem
    cases hmem

/-- Lightness depends on the cargo and on the jobs of the lane that changes. -/
theorem IsLight.setLane (hlight : outbox.IsLight) (hold : outbox.lane? index = some old)
    (hjobs : ∀ job ∈ lane.jobs, job.message.dest = .outbound job.conn)
    (hcargo : (outbox.setLane index lane).cargo = outbox.cargo ∨
      (outbox.setLane index lane).cargo.length ≤ 1 ∧
        ∀ load ∈ (outbox.setLane index lane).cargo, IsRequest load) :
    (outbox.setLane index lane).IsLight := by
  obtain ⟨before, after, hlanes, hset⟩ := lanes_setLane hold
  refine ⟨?_, hlight.sendQueue, hlight.laneQueue, hlight.backlog, hlight.going, ?_, ?_, ?_⟩
  · rw [hset, List.length_append, List.length_cons]
    omega
  · rcases hcargo with hsame | ⟨hsingle, _⟩
    · rw [hsame]
      exact hlight.single
    · exact hsingle
  · intro job hjob
    simp only [jobs, hset, List.flatMap_append, List.flatMap_cons, List.mem_append] at hjob
    have hwas : ∀ job, job ∈ before.flatMap WriterLane.jobs ∨ job ∈ after.flatMap WriterLane.jobs →
        job ∈ outbox.jobs := by
      intro job hmem
      simp only [jobs, hlanes, List.flatMap_append, List.flatMap_cons, List.mem_append]
      rcases hmem with hmem | hmem
      · exact Or.inl hmem
      · exact Or.inr (Or.inr hmem)
    rcases hjob with hmem | hmem | hmem
    · exact hlight.dest job (hwas job (Or.inl hmem))
    · exact hjobs job hmem
    · exact hlight.dest job (hwas job (Or.inr hmem))
  · rcases hcargo with hsame | ⟨_, hdialed⟩
    · rw [hsame]
      exact hlight.dialed
    · exact hdialed

theorem IsLight.lane_jobs (hlight : outbox.IsLight) (hold : outbox.lane? index = some old) :
    ∀ job ∈ old.jobs, job.message.dest = .outbound job.conn :=
  fun job hjob => hlight.dest job (List.mem_flatMap.mpr ⟨old, List.mem_of_getElem? hold, hjob⟩)

/-- A lane whose writer has a job has nothing else, and what becomes of it becomes of the cargo. -/
theorem IsLight.busy_lane (hlight : outbox.IsLight) {queue : List Message}
    (hlane : outbox.lane? index = some ⟨queue, backlog, .busy job left deadline⟩) :
    queue = [] ∧ backlog = [] ∧ job.message.dest = .outbound job.conn ∧
      outbox.cargo = [(.outbound job.conn, left)] ∧
      ∀ lane, (outbox.setLane index lane).cargo = lane.cargo := by
  have hsome : (⟨queue, backlog, .busy job left deadline⟩ : WriterLane).cargo ≠ [] := by
    simp [WriterLane.cargo, Writer.cargo]
  obtain ⟨hcargo, hset⟩ := cargo_setLane_of_only hlane hlight.single hsome
  have hone := hlight.single
  rw [hcargo] at hone
  simp only [WriterLane.cargo, Writer.cargo, List.length_append, List.length_map,
    List.length_cons, List.length_nil] at hone
  have hbacklog : backlog = [] := List.length_eq_zero_iff.mp (by omega)
  have hqueue : queue = [] := List.length_eq_zero_iff.mp (by omega)
  have hdest := hlight.lane_jobs hlane job (by simp [WriterLane.jobs, Writer.job?])
  refine ⟨hqueue, hbacklog, hdest, ?_, hset⟩
  rw [hcargo]
  simp [WriterLane.cargo, Writer.cargo, hbacklog, hqueue, hdest]

/-- A lane that has nothing left leaves no cargo. -/
theorem IsLight.setLane_empty (hlight : outbox.IsLight) (hold : outbox.lane? index = some old)
    (hset : (outbox.setLane index lane).cargo = lane.cargo) (hcargo : lane.cargo = [])
    (hjobs : ∀ job ∈ lane.jobs, job.message.dest = .outbound job.conn) :
    (outbox.setLane index lane).IsLight ∧ (outbox.setLane index lane).cargo = [] := by
  have hgone := hset.trans hcargo
  exact ⟨hlight.setLane hold hjobs (Or.inr (by simp [hgone])), hgone⟩

/-! ## Queues -/

theorem send_light (hlight : outbox.IsLight) (hempty : outbox.cargo = []) {message : Message}
    (hfits : message.frame.payload.length ≤ outbox.limits.maxBody)
    (hdest : message.dest = .outbound conn) :
    (outbox.send message).1.IsLight ∧ (outbox.send message).1.cargo = [message.load] := by
  have hqueue : outbox.queue = [] := List.map_eq_nil_iff.mp (List.append_eq_nil_iff.mp hempty).1
  have hlanes : outbox.lanes.flatMap WriterLane.cargo = [] := (List.append_eq_nil_iff.mp hempty).2
  have hsend : (outbox.send message).1 = { outbox with queue := [message] } := by
    simp [send, Nat.not_lt.mpr hfits, hlight.going, hqueue, Nat.not_le.mpr hlight.sendQueue]
  have hcargo : (outbox.send message).1.cargo = [message.load] := by
    simp [hsend, cargo, hlanes]
  refine ⟨?_, hcargo⟩
  exact { hlight with
    lanes := by simpa [hsend] using hlight.lanes
    sendQueue := by simpa [hsend] using hlight.sendQueue
    laneQueue := by simpa [hsend] using hlight.laneQueue
    backlog := by simpa [hsend] using hlight.backlog
    going := by simpa [hsend] using hlight.going
    single := by simp [hcargo]
    dest := by simpa [hsend, jobs] using hlight.dest
    dialed := by
      rw [hcargo]
      intro load hload
      rw [List.mem_singleton.mp hload]
      exact ⟨⟨conn, hdest⟩, message.frame.encode_ne_nil⟩ }

theorem limits_send (outbox : Outbox) (message : Message) :
    (outbox.send message).1.limits = outbox.limits := by
  unfold send
  split
  · rfl
  split
  · rfl
  split <;> rfl

theorem limits_distribute (outbox : Outbox) : outbox.distribute.limits = outbox.limits := by
  unfold distribute
  split
  · rfl
  unfold enterLane
  dsimp only
  split
  · rfl
  split <;> rfl

theorem lane_lt (dest : Destination) {lanes : Nat} (hlanes : 0 < lanes) : dest.lane lanes < lanes := by
  have hmax : max lanes 1 = lanes := Nat.max_eq_left hlanes
  rw [Destination.lane, Lane.forKey, hmax]
  exact Nat.mod_lt _ hlanes

/-- The one message moves to a lane that is empty. -/
theorem distribute_light (hlight : outbox.IsLight) :
    outbox.distribute.IsLight ∧ outbox.distribute.cargo = outbox.cargo := by
  unfold distribute
  split
  · exact ⟨hlight, rfl⟩
  rename_i message rest hqueue
  have hone := hlight.single
  rw [cargo, hqueue] at hone
  simp only [List.map_cons, List.length_append, List.length_cons, List.length_map] at hone
  have hrest : rest = [] := List.length_eq_zero_iff.mp (by omega)
  have hlanes : outbox.lanes.flatMap WriterLane.cargo = [] := List.length_eq_zero_iff.mp (by omega)
  subst hrest
  have hwas : outbox.cargo = [message.load] := by simp [cargo, hqueue, hlanes]
  have hpopped : ({ outbox with queue := [] } : Outbox).IsLight :=
    { hlight with
      single := by simp [cargo, hlanes]
      dialed := by simp [cargo, hlanes] }
  have hindex := lane_lt message.dest hlight.lanes
  obtain ⟨lane, hlane⟩ : ∃ lane, ({ outbox with queue := [] } : Outbox).lane?
      (message.dest.lane outbox.lanes.length) = some lane :=
    ⟨_, List.getElem?_eq_getElem hindex⟩
  have hempty : lane.cargo = [] :=
    List.flatMap_eq_nil_iff.mp hlanes lane (List.mem_of_getElem? hlane)
  simp only [WriterLane.cargo, List.append_eq_nil_iff, List.map_eq_nil_iff] at hempty
  obtain ⟨⟨hwriter, hwaiting⟩, hqueued⟩ := hempty
  have hroom : ¬outbox.limits.laneQueue ≤ lane.queue.length := by
    rw [hqueued]
    exact Nat.not_le.mpr hlight.laneQueue
  have henter : ({ outbox with queue := [] } : Outbox).enterLane message =
      ({ outbox with queue := [] } : Outbox).setLane (message.dest.lane outbox.lanes.length)
        { lane with queue := [message] } := by
    unfold enterLane
    simp only [lane?] at hlane ⊢
    simp only [hlane]
    rw [if_neg hroom, hqueued, List.nil_append]
  obtain ⟨before, after, hsplit, hset⟩ := lanes_setLane hlane
  have hothers : before.flatMap WriterLane.cargo = [] ∧ after.flatMap WriterLane.cargo = [] := by
    rw [show outbox.lanes = _ from hsplit] at hlanes
    simp only [List.flatMap_append, List.flatMap_cons, List.append_eq_nil_iff] at hlanes
    exact ⟨hlanes.1, hlanes.2.2⟩
  have hcargo : (({ outbox with queue := [] } : Outbox).setLane
      (message.dest.lane outbox.lanes.length) { lane with queue := [message] }).cargo =
        outbox.cargo := by
    rw [cargo, hset, hwas]
    simp [setLane, hothers.1, hothers.2, WriterLane.cargo, hwriter, hwaiting]
  rw [henter]
  have hjobs : ∀ job ∈ lane.jobs, job.message.dest = .outbound job.conn := hpopped.lane_jobs hlane
  refine ⟨hpopped.setLane hlane hjobs (Or.inr ?_), hcargo⟩
  rw [hcargo]
  exact ⟨hlight.single, hlight.dialed⟩

end Outbox

namespace Transport

variable {transport : Transport} {index : Nat} {job : Job} {left bytes : Bytes}

/-! ## Limits -/

theorem limits_resolve (transport : Transport) (now : Int) (index : Nat) :
    (transport.resolve now index).outbox.limits = transport.outbox.limits := by
  unfold resolve
  dsimp only
  split
  · rfl
  split
  · rfl
  split
  · rfl
  split
  · rfl
  · unfold Outbox.enterBacklog
    split <;> rfl

theorem limits_take (transport : Transport) (index : Nat) :
    (transport.take index).outbox.limits = transport.outbox.limits := by
  unfold take
  dsimp only
  split <;> rfl

theorem limits_finishJob (transport : Transport) (index : Nat) (job : Job) (change : Tally → Tally) :
    (transport.finishJob index job change).outbox.limits = transport.outbox.limits := by
  unfold finishJob
  split <;> rfl

theorem limits_write (transport : Transport) (index : Nat) :
    (transport.write index).outbox.limits = transport.outbox.limits := by
  unfold write
  split
  · split
    · rfl
    split
    · rfl
    split
    · exact limits_finishJob _ _ _ _
    dsimp only
    split
    · exact limits_finishJob _ _ _ _
    · rfl
  · rfl

/-! ## Lanes and writers -/

/-- A lane leaves the one message to its writer, unless the destination is gone. -/
theorem resolve_light (hlight : transport.outbox.IsLight)
    (hcoherent : transport.registry.Coherent) {now : Int}
    (hfresh : ∀ lane, transport.outbox.lane? index = some lane → ∀ message, lane.queue.head? =
      some message → message.isStale now transport.outbox.limits.writeTimeout = false) :
    (transport.resolve now index).outbox.IsLight ∧
    ((transport.resolve now index).outbox.cargo = transport.outbox.cargo ∨
      ∃ conn bytes, transport.outbox.cargo = [(.outbound conn, bytes)] ∧
        transport.registry.writerFor (.outbound conn) = none ∧
        (transport.resolve now index).outbox.cargo = []) := by
  unfold resolve
  dsimp only
  split
  · exact ⟨hlight, Or.inl rfl⟩
  rename_i lane hlane
  split
  · exact ⟨hlight, Or.inl rfl⟩
  rename_i message rest hqueue
  have hstale := hfresh lane hlane message (by rw [hqueue, List.head?_cons])
  have hsome : lane.cargo ≠ [] := by simp [WriterLane.cargo, hqueue]
  obtain ⟨hcargo, hset⟩ := Outbox.cargo_setLane_of_only hlane hlight.single hsome
  have hone := hlight.single
  rw [hcargo] at hone
  simp only [WriterLane.cargo, hqueue, List.map_cons, List.length_append, List.length_map,
    List.length_cons] at hone
  have hwriter : lane.writer.cargo = [] := List.length_eq_zero_iff.mp (by omega)
  have hbacklog : lane.backlog = [] := List.length_eq_zero_iff.mp (by omega)
  have hrest : rest = [] := List.length_eq_zero_iff.mp (by omega)
  have hwas : transport.outbox.cargo = [message.load] := by
    rw [hcargo]
    simp [WriterLane.cargo, hwriter, hbacklog, hqueue, hrest]
  obtain ⟨⟨conn, hdest⟩, _⟩ := hlight.dialed message.load (by simp [hwas])
  simp only [Message.load] at hdest
  have hidle : ∀ job ∈ lane.jobs, job.message.dest = .outbound job.conn := hlight.lane_jobs hlane
  rw [if_neg (by simp [hstale])]
  split
  · rename_i hnone
    have hnothing : { lane with queue := rest }.cargo = [] := by
      simp [WriterLane.cargo, hwriter, hbacklog, hrest]
    obtain ⟨hdropped, hgone⟩ := hlight.setLane_empty hlane (hset _) hnothing hidle
    refine ⟨{ hdropped with }, Or.inr ⟨conn, message.frame.encode, ?_, hdest ▸ hnone, hgone⟩⟩
    rw [hwas, Message.load, hdest]
  · rename_i found hfound
    have hsame : found = conn := by
      rw [hdest] at hfound
      obtain ⟨hmap, _⟩ := Option.filter_eq_some_iff.mp hfound
      obtain ⟨pending, hpending, rfl⟩ := Option.map_eq_some_iff.mp hmap
      exact (hcoherent.outbound_entry conn pending (Table.mem_of_find? hpending)).1
    have hroom : ¬transport.outbox.limits.backlog ≤ lane.backlog.length := by
      rw [hbacklog]
      exact Nat.not_le.mpr hlight.backlog
    have hkept : (transport.outbox.enterBacklog index { lane with queue := rest }
        ⟨found, message⟩).cargo = transport.outbox.cargo := by
      rw [Outbox.enterBacklog, if_neg hroom, hset, hwas]
      simp [WriterLane.cargo, hwriter, hbacklog, hrest]
    refine ⟨?_, Or.inl hkept⟩
    rw [Outbox.enterBacklog, if_neg hroom] at hkept ⊢
    refine hlight.setLane hlane ?_ (Or.inl hkept)
    intro job hjob
    simp only [WriterLane.jobs, List.mem_append, List.mem_singleton] at hjob
    rcases hjob with hjob | hjob | rfl
    · exact hidle job (List.mem_append_left _ hjob)
    · exact hidle job (List.mem_append_right _ hjob)
    · exact hdest.trans (congrArg Destination.outbound hsame.symm)

theorem take_light (hlight : transport.outbox.IsLight) :
    (transport.take index).outbox.IsLight ∧
      (transport.take index).outbox.cargo = transport.outbox.cargo := by
  unfold take
  dsimp only
  split
  · rename_i queue job rest hlane
    have hcargo : (transport.outbox.setLane index
        ⟨queue, rest, .busy job job.bytes
          (transport.timer + transport.outbox.limits.writeTimeout)⟩).cargo =
        transport.outbox.cargo :=
      Outbox.cargo_setLane_of_same hlane rfl
    have hjobs : ∀ found ∈ job :: rest, found.message.dest = .outbound found.conn :=
      hlight.lane_jobs hlane
    exact ⟨hlight.setLane hlane hjobs (Or.inl hcargo), hcargo⟩
  · exact ⟨hlight, rfl⟩

/-- A job that is given up is no cargo any more. -/
theorem failJob_light (hlight : transport.outbox.IsLight) {deadline : Nat} {backlog : List Job}
    (hwork : transport.outbox.work? index = some (.busy job left deadline, backlog)) :
    (transport.failJob index job).outbox.IsLight ∧
      transport.outbox.cargo = [(.outbound job.conn, left)] ∧
      (transport.failJob index job).outbox.cargo = [] := by
  obtain ⟨queue, hlane⟩ := Outbox.work?_eq_some.mp hwork
  obtain ⟨rfl, rfl, _, hcargo, hset⟩ := hlight.busy_lane hlane
  obtain ⟨hafter, hgone⟩ := hlight.setLane_empty hlane (hset ⟨[], [], .idle⟩) rfl
    fun found hfound => by cases hfound
  simp only [failJob, finishJob, hlane]
  exact ⟨{ hafter with }, hcargo, hgone⟩

/-- What a writer puts is taken off the cargo. -/
theorem write_light (hlight : transport.outbox.IsLight)
    (hwritable : transport.writable? index = some (job, left, bytes)) :
    (transport.write index).outbox.IsLight ∧
    transport.outbox.cargo = [(.outbound job.conn, left)] ∧
    ∃ rest, left = bytes ++ rest ∧ (transport.write index).outbox.cargo =
      if rest = [] then [] else [(.outbound job.conn, rest)] := by
  obtain ⟨deadline, backlog, socket, hwork, hsocket, hhead, hopen, hbytes, _⟩ :=
    write_some hwritable
  have hheld : socket.isHeldBy (.lane index) = true := Socket.isHeldBy_iff.mpr hhead
  obtain ⟨queue, hlane⟩ := Outbox.work?_eq_some.mp hwork
  obtain ⟨rfl, rfl, hdest, hwas, hset⟩ := hlight.busy_lane hlane
  have hsplit : left = bytes ++ left.drop (socket.capacity - socket.unread.length) := by
    rw [hbytes, List.take_append_drop]
  by_cases hrest : left.drop (socket.capacity - socket.unread.length) = []
  · obtain ⟨hafter, hgone⟩ := hlight.setLane_empty hlane (hset ⟨[], [], .idle⟩) rfl
      fun found hfound => by cases hfound
    have hwrite : (transport.write index).outbox =
        (transport.outbox.setLane index ⟨[], [], .idle⟩).count
          fun tally => { tally with written := tally.written + 1 } := by
      simp [write, hlane, hsocket, hheld, hopen, Socket.put, hrest, finishJob, onSocket]
    rw [hwrite]
    refine ⟨{ hafter with }, hwas, [], hrest ▸ hsplit, ?_⟩
    exact hgone
  · have hkept : (transport.outbox.setLane index ⟨[], [], .busy job
        (left.drop (socket.capacity - socket.unread.length)) deadline⟩).cargo =
        [(.outbound job.conn, left.drop (socket.capacity - socket.unread.length))] := by
      rw [hset]
      simp [WriterLane.cargo, Writer.cargo, hdest]
    have hwrite : (transport.write index).outbox =
        transport.outbox.setLane index ⟨[], [], .busy job
          (left.drop (socket.capacity - socket.unread.length)) deadline⟩ := by
      simp [write, hlane, hsocket, hheld, hopen, Socket.put, hrest, onSocket]
    rw [hwrite]
    refine ⟨hlight.setLane hlane (fun found hfound => ?_)
      (Or.inr (by simp [hkept, Outbox.IsRequest, hrest])), hwas, _, hsplit, ?_⟩
    · simp only [WriterLane.jobs, Writer.job?, Option.toList, List.append_nil,
        List.mem_singleton] at hfound
      rw [hfound]
      exact hdest
    · rw [hkept, if_neg hrest]

end Transport

end Peering
