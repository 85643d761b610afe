import Peering.Proofs.Delivery.Pipeline

/-!
# What the steps of the pipeline do to the messages on their way

A message comes in at the entry, joins its lane, is bound to a socket, and is
written. What a lane and its writer have is one load, in the order in which it is
to be written, whichever hand or queue it is in. Every step is one of nine effects
on the entry, on one load and on the tally; later proofs use these effects and do
not look into the steps.
-/

namespace Peering

/-! ## Loads -/

/-- What a lane and its writer have, the oldest first. -/
structure Load where
  /-- Messages whose socket has not been found yet. -/
  waiting : List Message
  /-- Jobs that have bytes left to write. -/
  jobs : List Job
  /-- The job that has been written and is not counted yet. -/
  done : List Job

def LaneHand.message? : LaneHand → Option Message
  | .taken message => some message
  | .fresh message => some message
  | _ => none

def LaneHand.job? : LaneHand → Option Job
  | .bound job => some job
  | _ => none

def WriterHand.job? : WriterHand → Option Job
  | .taken job => some job
  | _ => none

/-- The job of which a writer has bytes left. -/
def Writer.unwritten : Writer → List Job
  | .busy job (_ :: _) _ => [job]
  | _ => []

/-- The job of which a writer has nothing left. -/
def Writer.done : Writer → List Job
  | .busy job [] _ => [job]
  | _ => []

theorem Writer.unwritten_busy {job : Job} {left : Bytes} {deadline : Nat} (hleft : left ≠ []) :
    (Writer.busy job left deadline).unwritten = [job] := by
  cases left with
  | nil => exact absurd rfl hleft
  | cons byte rest => rfl

theorem Writer.eq_of_mem_unwritten {job given : Job} {left : Bytes} {deadline : Nat}
    (hmem : given ∈ (Writer.busy job left deadline).unwritten) : given = job := by
  cases left with
  | nil => cases hmem
  | cons _ _ => exact List.mem_singleton.mp hmem

theorem Writer.done_busy {job : Job} {left : Bytes} {deadline : Nat} (hleft : left ≠ []) :
    (Writer.busy job left deadline).done = [] := by
  cases left with
  | nil => exact absurd rfl hleft
  | cons byte rest => rfl

/-- Whether a message was counted when it was handed in. -/
def Fate.isRefusal : Fate → Bool
  | .oversized => true
  | .refused => true
  | _ => false

/-- The tally with one message more. -/
def Tally.add (tally : Tally) : Fate → Tally
  | .written => { tally with written := tally.written + 1 }
  | .stale => { tally with stale := tally.stale + 1 }
  | .oversized => { tally with oversized := tally.oversized + 1 }
  | .refused => { tally with queueFull := tally.queueFull + 1 }
  | .laneFull => { tally with queueFull := tally.queueFull + 1 }
  | .backlogFull => { tally with backlogFull := tally.backlogFull + 1 }
  | .noChannel => { tally with noChannel := tally.noChannel + 1 }
  | .failed => { tally with failed := tally.failed + 1 }

/-- Whether a note says nothing of what becomes of a message. -/
def Note.isSilent : Note → Bool
  | .read _ _ => true
  | .put _ left bytes => bytes ≠ left
  | _ => false

/-! ## What the notes say -/

def Note.call? : Note → Option (Message × Bool)
  | .called message taken => some (message, taken)
  | _ => none

def Note.settled? : Note → Option (Message × Fate)
  | .settled message fate => some (message, fate)
  | _ => none

/-- The calls on the outbox, each with its message and whether the message was taken. -/
def calls (notes : List Note) : List (Message × Bool) :=
  notes.filterMap Note.call?

/-- The messages that are no longer on their way, each with its fate. -/
def fates (notes : List Note) : List (Message × Fate) :=
  notes.filterMap Note.settled?

theorem calls_append (first second : List Note) :
    calls (first ++ second) = calls first ++ calls second :=
  List.filterMap_append

theorem fates_append (first second : List Note) :
    fates (first ++ second) = fates first ++ fates second :=
  List.filterMap_append

/-- What no silent note has, silent notes do not have. -/
theorem filterMap_of_silent {A : Type} {pick : Note → Option A} {notes : List Note}
    (hpick : ∀ note, note.isSilent = true → pick note = none)
    (hsilent : notes.all Note.isSilent = true) : notes.filterMap pick = [] :=
  List.filterMap_eq_nil_iff.mpr fun note hmem =>
    hpick note (List.all_eq_true.mp hsilent note hmem)

theorem calls_of_silent {notes : List Note} (hsilent : notes.all Note.isSilent = true) :
    calls notes = [] := by
  refine filterMap_of_silent (fun note hnote => ?_) hsilent
  cases note with
  | called message taken => cases hnote
  | _ => rfl

theorem fates_of_silent {notes : List Note} (hsilent : notes.all Note.isSilent = true) :
    fates notes = [] := by
  refine filterMap_of_silent (fun note hnote => ?_) hsilent
  cases note with
  | settled message fate => cases hnote
  | _ => rfl

namespace Load

def none : Load :=
  ⟨[], [], []⟩

def of (lane : WriterLane) (hand : LaneHand) (grip : WriterHand) : Load where
  waiting := hand.message?.toList ++ lane.queue
  jobs := lane.writer.unwritten ++ grip.job?.toList ++ lane.backlog ++ hand.job?.toList
  done := lane.writer.done

/-- All messages of a load. -/
def messages (load : Load) : List Message :=
  (load.done ++ load.jobs).map (·.message) ++ load.waiting

theorem messages_concat (waiting : List Message) (jobs done : List Job) (job : Job) :
    (Load.mk waiting (jobs ++ [job]) done).messages.Perm
      (job.message :: (Load.mk waiting jobs done).messages) := by
  have hjobs : (done ++ (jobs ++ [job])).Perm (job :: (done ++ jobs)) :=
    ((List.perm_append_singleton job jobs).append_left done).trans List.perm_middle
  exact (hjobs.map (·.message)).append_right waiting

/-- A message comes to a load. -/
def join (load : Load) (message : Message) : Load :=
  { load with waiting := load.waiting ++ [message] }

/-- The socket of the oldest message is found. -/
def bind (load : Load) (job : Job) : Load :=
  { load with waiting := load.waiting.tail, jobs := load.jobs ++ [job] }

/-- The oldest job is written. -/
def complete (load : Load) (job : Job) : Load :=
  { load with jobs := load.jobs.tail, done := [job] }

/-- A part of a load, in the same order. -/
structure Within (small large : Load) : Prop where
  waiting : small.waiting.Sublist large.waiting
  jobs : small.jobs.Sublist large.jobs

theorem Within.refl (load : Load) : Within load load :=
  ⟨List.Sublist.refl _, List.Sublist.refl _⟩

end Load

namespace Pipeline

variable {pipeline after : Pipeline} {index : Nat} {lane old : WriterLane}

/-- What has been taken in and has no lane yet. -/
def entry (pipeline : Pipeline) : List Message :=
  pipeline.distributor.toList ++ pipeline.outbox.queue

def load (pipeline : Pipeline) (index : Nat) : Load :=
  match pipeline.outbox.lane? index with
  | none => Load.none
  | some lane => Load.of lane (pipeline.laneHand index) (pipeline.writerHand index)

/-- The loads, with another one for one lane. -/
def loadWith (pipeline : Pipeline) (index : Nat) (load : Load) : Nat → Load :=
  fun other => if other = index then load else pipeline.load other

theorem loadWith_self (load : Load) : pipeline.loadWith index load index = load :=
  if_pos rfl

theorem loadWith_other {other : Nat} (hother : other ≠ index) (load : Load) :
    pipeline.loadWith index load other = pipeline.load other :=
  if_neg hother

theorem load_of_lane (hlane : pipeline.outbox.lane? index = some lane) : pipeline.load index =
    Load.of lane (pipeline.laneHand index) (pipeline.writerHand index) := by
  rw [load, hlane]

theorem lane?_same (hlane : pipeline.outbox.lane? index = some lane) (other : Nat) :
    pipeline.outbox.lane? other =
      if other = index then some lane else pipeline.outbox.lane? other := by
  split
  · rename_i hother
    rw [hother, hlane]
  · rfl

/-- Only one lane and its hands change. -/
structure Turns (pipeline after : Pipeline) (index : Nat) (old lane : WriterLane) : Prop where
  was : pipeline.outbox.lane? index = some old
  lanes : ∀ other, after.outbox.lane? other =
    if other = index then some lane else pipeline.outbox.lane? other
  hands : ∀ other, other ≠ index → after.laneHand other = pipeline.laneHand other
  grips : ∀ other, other ≠ index → after.writerHand other = pipeline.writerHand other

namespace Turns

/-- Then only the load of this lane changes. -/
theorem load {new : Load} (h : Turns pipeline after index old lane)
    (hnew : Load.of lane (after.laneHand index) (after.writerHand index) = new) :
    after.load = pipeline.loadWith index new := by
  funext other
  by_cases hother : other = index
  · subst hother
    rw [loadWith_self, load_of_lane ((h.lanes other).trans (if_pos rfl)), hnew]
  · rw [loadWith_other hother, Pipeline.load, Pipeline.load, h.lanes, if_neg hother,
      h.hands other hother, h.grips other hother]

/-- A load stays that is only handed on. -/
theorem load_same (h : Turns pipeline after index old lane)
    (hnew : Load.of lane (after.laneHand index) (after.writerHand index) =
      Load.of old (pipeline.laneHand index) (pipeline.writerHand index)) :
    after.load = pipeline.load := by
  rw [h.load hnew, ← load_of_lane h.was]
  funext other
  by_cases hother : other = index
  · rw [hother, loadWith_self]
  · rw [loadWith_other hother]

/-- A part of every load stays when a part of one of them does. -/
theorem load_within (h : Turns pipeline after index old lane)
    (hwithin : (Load.of lane (after.laneHand index) (after.writerHand index)).Within
      (Load.of old (pipeline.laneHand index) (pipeline.writerHand index))) (other : Nat) :
    (after.load other).Within (pipeline.load other) := by
  rw [h.load rfl]
  by_cases hother : other = index
  · rw [hother, loadWith_self, load_of_lane h.was]
    exact hwithin
  · rw [loadWith_other hother]
    exact Load.Within.refl _

end Turns

theorem load_congr (hlanes : after.outbox.lanes = pipeline.outbox.lanes)
    (hhands : after.laneHand = pipeline.laneHand)
    (hgrips : ∀ other, (after.writerHand other).job? = (pipeline.writerHand other).job?) :
    after.load = pipeline.load := by
  funext other
  simp only [load, Outbox.lane?, hlanes, hhands]
  cases pipeline.outbox.lanes[other]? with
  | none => rfl
  | some lane => simp only [Load.of, hgrips]

/-! ## Effects -/

/--
What a step does to the messages on their way, with what can be seen of it. In
every case but one the tally moves as the notes say.
-/
inductive Effect (pipeline : Pipeline) (step : Step) (after : Pipeline) : List Note → Prop where
  | still (notes : List Note)
      (silent : notes.all Note.isSilent = true)
      (entry : after.entry = pipeline.entry)
      (load : after.load = pipeline.load)
      (tally : after.outbox.tally = pipeline.outbox.tally) :
      Effect pipeline step after notes
  | accepts (message : Message)
      (fits : message.frame.payload.length ≤ pipeline.outbox.limits.maxBody)
      (entry : after.entry = pipeline.entry ++ [message])
      (load : after.load = pipeline.load)
      (tally : after.outbox.tally = pipeline.outbox.tally) :
      Effect pipeline step after [.called message true]
  | refuses (message : Message) (fate : Fate)
      (refusal : fate.isRefusal = true)
      (entry : after.entry = pipeline.entry)
      (load : after.load = pipeline.load)
      (tally : after.outbox.tally = pipeline.outbox.tally.add fate) :
      Effect pipeline step after [.called message false, .settled message fate]
  /-- The outbox has stopped. -/
  | ignores (message : Message)
      (stopped : pipeline.outbox.stopped = true)
      (entry : after.entry = pipeline.entry)
      (load : after.load = pipeline.load) :
      Effect pipeline step after [.called message false]
  | joins (message : Message)
      (lane : message.dest.lane pipeline.outbox.lanes.length < pipeline.outbox.lanes.length)
      (entry : pipeline.entry = message :: after.entry)
      (load : after.load = pipeline.loadWith (message.dest.lane pipeline.outbox.lanes.length)
        ((pipeline.load (message.dest.lane pipeline.outbox.lanes.length)).join message))
      (tally : after.outbox.tally = pipeline.outbox.tally) :
      Effect pipeline step after []
  /-- A message leaves its place on the way and is counted. -/
  | leaves (index : Nat) (message : Message) (fate : Fate)
      (lane : index < pipeline.outbox.lanes.length)
      (counted : fate.isRefusal = false)
      (entry : after.entry.Sublist pipeline.entry)
      (load : (after.load index).Within (pipeline.load index))
      (others : ∀ other, other ≠ index → after.load other = pipeline.load other)
      (gone : (pipeline.entry ++ (pipeline.load index).messages).Perm
        (message :: (after.entry ++ (after.load index).messages)))
      (tally : after.outbox.tally = pipeline.outbox.tally.add fate) :
      Effect pipeline step after [.settled message fate]
  | binds (index : Nat) (job : Job)
      (lane : index < pipeline.outbox.lanes.length)
      (asks : step = .find index)
      (hand : pipeline.laneHand index = .fresh job.message)
      (found : pipeline.transport.registry.writerFor job.message.dest = some job.conn)
      (entry : after.entry = pipeline.entry)
      (waiting : (pipeline.load index).waiting =
        job.message :: ((pipeline.load index).bind job).waiting)
      (load : after.load = pipeline.loadWith index ((pipeline.load index).bind job))
      (tally : after.outbox.tally = pipeline.outbox.tally) :
      Effect pipeline step after [.bound job]
  | completes (index : Nat) (job : Job) (left : Bytes)
      (lane : index < pipeline.outbox.lanes.length)
      (entry : after.entry = pipeline.entry)
      (jobs : (pipeline.load index).jobs = job :: ((pipeline.load index).complete job).jobs)
      (done : (pipeline.load index).done = [])
      (load : after.load = pipeline.loadWith index ((pipeline.load index).complete job))
      (tally : after.outbox.tally = pipeline.outbox.tally) :
      Effect pipeline step after [.put job left left]
  /-- Messages are lost without a count: in a shutdown, or because there is no lane. -/
  | loses
      (why : step.isShutdown = true ∨ pipeline.outbox.lanes.length = 0)
      (entry : after.entry.Sublist pipeline.entry)
      (load : ∀ other, (after.load other).Within (pipeline.load other)) :
      Effect pipeline step after []

/-- A message that only the load of one lane had leaves it. -/
theorem Turns.leaves {step : Step} {message : Message} {fate : Fate}
    (h : Turns pipeline after index old lane) (hcounted : fate.isRefusal = false)
    (hentry : after.entry = pipeline.entry)
    (hwithin : (Load.of lane (after.laneHand index) (after.writerHand index)).Within
      (Load.of old (pipeline.laneHand index) (pipeline.writerHand index)))
    (hgone : (Load.of old (pipeline.laneHand index) (pipeline.writerHand index)).messages.Perm
      (message :: (Load.of lane (after.laneHand index) (after.writerHand index)).messages))
    (htally : after.outbox.tally = pipeline.outbox.tally.add fate) :
    Effect pipeline step after [.settled message fate] := by
  have hload := h.load rfl
  have hindex := (List.getElem?_eq_some_iff.mp h.was).1
  have hnew := (congrFun hload index).trans (loadWith_self _)
  have hbefore := load_of_lane h.was
  refine .leaves index message fate hindex hcounted (hentry ▸ List.Sublist.refl _) ?_
    (fun other hother => (congrFun hload other).trans (loadWith_other hother _)) ?_ htally
  · rw [hnew, hbefore]
    exact hwithin
  · rw [hnew, hbefore, hentry]
    exact (hgone.append_left pipeline.entry).trans List.perm_middle

/-! ### The entry -/

theorem send_effect (pipeline : Pipeline) (message : Message) :
    Effect pipeline (.send message) (pipeline.send message).1 (pipeline.send message).2 := by
  by_cases hlong : pipeline.outbox.limits.maxBody < message.frame.payload.length
  · simp only [send, refusal, Outbox.send, if_pos hlong]
    exact .refuses message .oversized rfl rfl rfl rfl
  by_cases hstopped : pipeline.outbox.stopped = true
  · simp only [send, refusal, Outbox.send, if_neg hlong, if_pos hstopped]
    exact .ignores message hstopped rfl rfl
  by_cases hfull : pipeline.outbox.limits.sendQueue ≤ pipeline.outbox.queue.length
  · simp only [send, refusal, Outbox.send, if_neg hlong, if_neg hstopped, if_pos hfull]
    exact .refuses message .refused rfl rfl rfl rfl
  · simp only [send, refusal, Outbox.send, if_neg hlong, if_neg hstopped, if_neg hfull]
    refine .accepts message (Nat.le_of_not_lt hlong) ?_ rfl rfl
    exact (List.append_assoc _ _ _).symm

theorem pull_effect (pipeline : Pipeline) :
    Effect pipeline .pull pipeline.pull.1 pipeline.pull.2 := by
  unfold pull
  split
  · rename_i message rest hhand hqueue
    refine .still [] rfl ?_ rfl rfl
    have hentry : pipeline.entry = message :: rest := by
      rw [entry, hhand, hqueue]
      rfl
    rw [hentry]
    rfl
  · exact .still [] rfl rfl rfl rfl

theorem lane_lt_length {message : Message} {lanes : Nat} (hlanes : 0 < lanes) :
    message.dest.lane lanes < lanes := by
  unfold Destination.lane Lane.forKey
  rw [Nat.max_eq_left hlanes]
  exact Nat.mod_lt _ hlanes

theorem pass_effect (pipeline : Pipeline) :
    Effect pipeline .pass pipeline.pass.1 pipeline.pass.2 := by
  unfold pass
  split
  · exact .still [] rfl rfl rfl rfl
  rename_i message hhand
  have hentry : pipeline.entry = message :: pipeline.outbox.queue := by
    rw [entry, hhand]
    rfl
  cases hlane : pipeline.outbox.lane? (message.dest.lane pipeline.outbox.lanes.length) with
  | none =>
      have hempty : pipeline.outbox.lanes.length = 0 := by
        have hbound := List.getElem?_eq_none_iff.mp hlane
        rcases Nat.eq_zero_or_pos pipeline.outbox.lanes.length with hzero | hpos
        · exact hzero
        · exact absurd (lane_lt_length hpos) (Nat.not_lt.mpr hbound)
      simp only [isLaneFull, Outbox.enterLane, hlane, Option.any_none, Bool.false_eq_true, if_false]
      refine .loses (Or.inr hempty) ?_ fun _ => Load.Within.refl _
      rw [hentry]
      exact List.sublist_cons_self _ _
  | some lane =>
      have hindex := (List.getElem?_eq_some_iff.mp hlane).1
      by_cases hfull : pipeline.outbox.limits.laneQueue ≤ lane.queue.length
      · simp only [isLaneFull, Outbox.enterLane, hlane, Option.any_some, hfull, decide_true,
          if_true]
        refine .leaves _ message .laneFull hindex rfl ?_ (Load.Within.refl _) (fun _ _ => rfl) ?_
          rfl
        · rw [hentry]
          exact List.sublist_cons_self _ _
        · rw [hentry]
          exact List.Perm.refl _
      · simp only [isLaneFull, Outbox.enterLane, hlane, Option.any_some, hfull, decide_false,
          Bool.false_eq_true, if_false]
        refine .joins message hindex hentry (Turns.load ⟨hlane, Outbox.lane?_setLane hlane _,
          fun _ _ => rfl, fun _ _ => rfl⟩ ?_) rfl
        rw [load_of_lane hlane]
        simp [Load.of, Load.join, holdDistributor, withOutbox, withTransport]

/-! ### Lanes -/

theorem pick_effect (pipeline : Pipeline) (index : Nat) :
    Effect pipeline (.pick index) (pipeline.pick index).1 (pipeline.pick index).2 := by
  unfold pick
  split
  · rename_i message rest backlog writer hhand hlane
    refine .still [] rfl rfl (Turns.load_same ⟨hlane, Outbox.lane?_setLane hlane _,
      fun _ => holdLane_other _ _ _, fun _ _ => rfl⟩ ?_) rfl
    rw [holdLane_self, hhand]
    rfl
  · exact .still [] rfl rfl rfl rfl

theorem judge_effect (pipeline : Pipeline) (now : Int) (index : Nat) :
    Effect pipeline (.judge now index) (pipeline.judge now index).1
      (pipeline.judge now index).2 := by
  unfold judge
  split
  · rename_i message lane hhand hlane
    split
    · refine Turns.leaves ⟨hlane, lane?_same hlane, fun _ => holdLane_other _ _ _,
        fun _ _ => rfl⟩ rfl rfl ?_ ?_ rfl
      · rw [holdLane_self, hhand]
        exact ⟨List.sublist_cons_self _ _, List.Sublist.refl _⟩
      · rw [holdLane_self, hhand]
        exact List.perm_middle
    · refine .still [] rfl rfl (Turns.load_same
        ⟨hlane, lane?_same hlane, fun _ => holdLane_other _ _ _, fun _ _ => rfl⟩ ?_) rfl
      rw [holdLane_self, hhand]
      rfl
  · exact .still [] rfl rfl rfl rfl

theorem find_effect (pipeline : Pipeline) (index : Nat) :
    Effect pipeline (.find index) (pipeline.find index).1 (pipeline.find index).2 := by
  unfold find
  split
  · rename_i message lane hhand hlane
    split
    · refine Turns.leaves ⟨hlane, lane?_same hlane, fun _ => holdLane_other _ _ _,
        fun _ _ => rfl⟩ rfl rfl ?_ ?_ rfl
      · rw [holdLane_self, hhand]
        exact ⟨List.sublist_cons_self _ _, List.Sublist.refl _⟩
      · rw [holdLane_self, hhand]
        exact List.perm_middle
    · rename_i conn hfound
      have hindex := (List.getElem?_eq_some_iff.mp hlane).1
      refine .binds index ⟨conn, message⟩ hindex rfl hhand hfound rfl ?_
        (Turns.load ⟨hlane, lane?_same hlane, fun _ => holdLane_other _ _ _, fun _ _ => rfl⟩
          ?_) rfl
      · rw [load_of_lane hlane, hhand]
        rfl
      · rw [load_of_lane hlane, holdLane_self, hhand]
        simp [Load.of, Load.bind, LaneHand.message?, LaneHand.job?, holdLane]
  · exact .still [] rfl rfl rfl rfl

theorem leave_effect (pipeline : Pipeline) (index : Nat) :
    Effect pipeline (.leave index) (pipeline.leave index).1 (pipeline.leave index).2 := by
  unfold leave
  split
  · rename_i job lane hhand hlane
    unfold Outbox.enterBacklog
    by_cases hfull : pipeline.outbox.limits.backlog ≤ lane.backlog.length
    · rw [if_pos hfull, if_pos hfull]
      refine Turns.leaves ⟨hlane, Outbox.lane?_setLane hlane lane, fun _ => holdLane_other _ _ _,
        fun _ _ => rfl⟩ rfl rfl ?_ ?_ rfl
      · rw [holdLane_self, hhand]
        refine ⟨List.Sublist.refl _, ?_⟩
        simp only [Load.of, LaneHand.job?, Option.toList_none, List.append_nil]
        exact List.sublist_append_left _ _
      · rw [holdLane_self, hhand]
        refine (Load.messages_concat _ _ _ _).trans ?_
        simp [Load.of, LaneHand.message?, LaneHand.job?, Load.messages, holdLane, withOutbox,
          withTransport]
    · rw [if_neg hfull, if_neg hfull]
      refine .still [] rfl rfl (Turns.load_same ⟨hlane, Outbox.lane?_setLane hlane _,
        fun _ => holdLane_other _ _ _, fun _ _ => rfl⟩ ?_) rfl
      rw [holdLane_self, hhand]
      simp [Load.of, LaneHand.message?, LaneHand.job?, holdLane, withOutbox, withTransport]
  · exact .still [] rfl rfl rfl rfl

/-! ### Writers -/

theorem receive_effect (pipeline : Pipeline) (index : Nat) :
    Effect pipeline (.receive index) (pipeline.receive index).1 (pipeline.receive index).2 := by
  unfold receive
  split
  · rename_i queue job rest hhand hlane
    refine .still [] rfl rfl (Turns.load_same ⟨hlane, Outbox.lane?_setLane hlane _,
      fun _ _ => rfl, fun _ => holdWriter_other _ _ _⟩ ?_) rfl
    rw [holdWriter_self, hhand]
    rfl
  · exact .still [] rfl rfl rfl rfl

theorem ask_effect (pipeline : Pipeline) (index : Nat) :
    Effect pipeline (.ask index) (pipeline.ask index).1 (pipeline.ask index).2 := by
  unfold ask
  split
  · rename_i job queue backlog hhand hlane
    refine .still [] rfl rfl (Turns.load_same ⟨hlane, Outbox.lane?_setLane hlane _,
      fun _ _ => rfl, fun _ => holdWriter_other _ _ _⟩ ?_) rfl
    rw [holdWriter_self, hhand]
    simp only [Load.of, Writer.unwritten_busy (Transport.bytes_ne_nil job),
      Writer.done_busy (Transport.bytes_ne_nil job)]
    rfl
  · exact .still [] rfl rfl rfl rfl

/-- A writer that puts bytes has the lock, and what it has left begins with them. -/
theorem put_cases (pipeline : Pipeline) (index most : Nat) :
    pipeline.put index most = (pipeline, []) ∨
    ∃ queue backlog job bytes rest deadline socket,
      pipeline.outbox.lane? index = some ⟨queue, backlog, .busy job (bytes ++ rest) deadline⟩ ∧
      pipeline.transport.socket? job.conn = some socket ∧
      socket.lock.head? = some (.lane index) ∧
      pipeline.put index most = (pipeline.withTransport ({ pipeline.transport with
        outbox := pipeline.outbox.setLane index ⟨queue, backlog, .busy job rest deadline⟩ }.onSocket
          job.conn fun _ => { socket with unread := socket.unread ++ bytes }),
        if bytes = [] then [] else [.put job (bytes ++ rest) bytes]) := by
  unfold put
  split
  · rename_i queue backlog job left deadline hlane
    split
    · rename_i socket hsocket
      split
      · rename_i hgoes
        obtain ⟨hheld, _⟩ := Bool.and_eq_true_iff.mp hgoes
        let count := min most (socket.capacity - socket.unread.length)
        refine Or.inr ⟨queue, backlog, job, left.take count, left.drop count, deadline, socket, ?_,
          hsocket, Socket.isHeldBy_iff.mp hheld, ?_⟩
        · rw [List.take_append_drop, hlane]
        · rw [List.take_append_drop, ← put_take socket left most]
      · exact Or.inl rfl
    · exact Or.inl rfl
  · exact Or.inl rfl

theorem put_effect (pipeline : Pipeline) (index most : Nat) :
    Effect pipeline (.put index most) (pipeline.put index most).1 (pipeline.put index most).2 := by
  rcases put_cases pipeline index most with
    hsame | ⟨queue, backlog, job, bytes, rest, deadline, socket, hlane, _, _, hput⟩
  · rw [hsame]
    exact .still [] rfl rfl rfl rfl
  rw [hput]
  have hlanes := Outbox.lane?_setLane hlane ⟨queue, backlog, .busy job rest deadline⟩
  by_cases hbytes : bytes = []
  · subst hbytes
    exact .still [] rfl rfl
      (Turns.load_same ⟨hlane, hlanes, fun _ _ => rfl, fun _ _ => rfl⟩ rfl) rfl
  rw [if_neg hbytes]
  have hleft : bytes ++ rest ≠ [] := fun hnil => hbytes (List.append_eq_nil_iff.mp hnil).1
  by_cases hrest : rest = []
  · subst hrest
    rw [List.append_nil] at hlane hleft ⊢
    refine .completes index job bytes (List.getElem?_eq_some_iff.mp hlane).1 rfl ?_ ?_
      (Turns.load ⟨hlane, hlanes, fun _ _ => rfl, fun _ _ => rfl⟩ ?_) rfl
    · rw [load_of_lane hlane, Load.complete, Load.of, Writer.unwritten_busy hleft]
      rfl
    · rw [load_of_lane hlane, Load.of, Writer.done_busy hleft]
    · rw [load_of_lane hlane]
      simp only [Load.of, Load.complete, Writer.unwritten_busy hleft]
      rfl
  · refine .still _ (by simpa [Note.isSilent] using hrest) rfl
      (Turns.load_same ⟨hlane, hlanes, fun _ _ => rfl, fun _ _ => rfl⟩ ?_) rfl
    simp only [Load.of, Writer.unwritten_busy hleft, Writer.unwritten_busy hrest,
      Writer.done_busy hleft, Writer.done_busy hrest]
    rfl

theorem finishJob_of_lane {transport : Transport} (hlane : transport.outbox.lane? index = some lane)
    (job : Job) (change : Tally → Tally) : transport.finishJob index job change =
      { transport with
        outbox := (transport.outbox.setLane index { lane with writer := .idle }).count change
        }.onSocket job.conn (·.release (.lane index)) := by
  simp only [Transport.finishJob, hlane]

theorem finish_effect (pipeline : Pipeline) (index : Nat) :
    Effect pipeline (.finish index) (pipeline.finish index).1 (pipeline.finish index).2 := by
  unfold finish
  split
  · rename_i queue backlog job deadline hlane
    rw [finishJob_of_lane hlane]
    exact Turns.leaves ⟨hlane, Outbox.lane?_setLane hlane _, fun _ _ => rfl, fun _ _ => rfl⟩ rfl rfl
      ⟨List.Sublist.refl _, List.Sublist.refl _⟩ (List.Perm.refl _) rfl
  · exact .still [] rfl rfl rfl rfl

theorem giveUp_effect (pipeline : Pipeline) (index : Nat) :
    Effect pipeline (.giveUp index) (pipeline.giveUp index).1 (pipeline.giveUp index).2 := by
  unfold giveUp
  split
  · rename_i queue backlog job left deadline hhand hlane
    rw [finishJob_of_lane hlane]
    refine Turns.leaves ⟨hlane, Outbox.lane?_setLane hlane _, fun _ _ => rfl,
      fun _ => holdWriter_other _ _ _⟩ rfl rfl ?_ ?_ rfl
    · rw [holdWriter_self, hhand]
      refine ⟨List.Sublist.refl _, ?_⟩
      simp only [Load.of, List.append_assoc]
      exact List.sublist_append_right _ _
    · rw [holdWriter_self, hhand]
      cases left with
      | nil => exact List.Perm.refl _
      | cons byte rest => exact List.Perm.refl _
  · exact .still [] rfl rfl rfl rfl

theorem remove_effect (pipeline : Pipeline) (index : Nat) :
    Effect pipeline (.remove index) (pipeline.remove index).1 (pipeline.remove index).2 := by
  unfold remove
  split
  · rename_i conn hhand
    refine .still [] rfl rfl (load_congr rfl rfl fun other => ?_) rfl
    by_cases hother : other = index
    · subst hother
      rw [holdWriter_self, hhand]
      rfl
    · exact congrArg WriterHand.job? (if_neg hother)
  · exact .still [] rfl rfl rfl rfl

/-! ### Other steps -/

theorem quit_effect (pipeline : Pipeline) (task : Task) :
    Effect pipeline (.quit task) (pipeline.quit task).1 (pipeline.quit task).2 := by
  have hsame : Effect pipeline (.quit task) pipeline [] :=
    .loses (Or.inl rfl) (List.Sublist.refl _) fun _ => Load.Within.refl _
  cases task with
  | distributor => exact .loses (Or.inl rfl) (List.nil_sublist _) fun _ => Load.Within.refl _
  | lane index =>
      cases hlane : pipeline.outbox.lane? index with
      | none =>
          simp only [quit, hlane]
          exact hsame
      | some lane =>
          simp only [quit, hlane]
          refine .loses (Or.inl rfl) (List.Sublist.refl _) (Turns.load_within
            ⟨hlane, Outbox.lane?_setLane hlane _, fun _ => holdLane_other _ _ _,
              fun _ _ => rfl⟩ ?_)
          rw [holdLane_self]
          refine ⟨List.nil_sublist _, ?_⟩
          simp only [Load.of, LaneHand.job?, Option.toList_none, List.append_nil]
          exact List.sublist_append_left _ _
  | writer index =>
      cases hlane : pipeline.outbox.lane? index with
      | none =>
          simp only [quit, hlane]
          exact hsame
      | some lane =>
          simp only [quit, hlane]
          let ended : WriterLane := { lane with backlog := [], writer := .idle }
          have houtbox := letGo_outbox index lane.writer
            { pipeline.transport with outbox := pipeline.outbox.setLane index ended }
          have hlanes := fun other => (congrArg (·.lane? other) houtbox).trans
            (Outbox.lane?_setLane hlane ended other)
          refine .loses (Or.inl rfl) ?_ (Turns.load_within
            ⟨hlane, hlanes, fun _ _ => rfl, fun _ => holdWriter_other _ _ _⟩ ?_)
          · cases lane.writer <;> exact List.Sublist.refl _
          · rw [holdWriter_self]
            exact ⟨List.Sublist.refl _, List.sublist_append_right _ _⟩

theorem stop_effect (pipeline : Pipeline) :
    Effect pipeline .stop (pipeline.withTransport pipeline.transport.stop) [] := by
  refine .loses (Or.inl rfl) ((List.nil_sublist _).append_left _) fun other => ?_
  have hlane : (pipeline.withTransport pipeline.transport.stop).outbox.lane? other =
      (pipeline.outbox.lane? other).map fun lane => { lane with queue := [], backlog := [] } :=
    List.getElem?_map
  unfold load
  rw [hlane]
  cases pipeline.outbox.lane? other with
  | none => exact Load.Within.refl _
  | some lane =>
      refine ⟨(List.nil_sublist _).append_left _, ?_⟩
      simp only [Load.of, List.append_assoc]
      exact ((List.sublist_append_right _ _).append_left _).append_left _

/-- Whether a step is one of the peers, of the clock or of the registry. -/
def Step.isOutside : Step → Bool
  | .askShut _ => true
  | .shut _ => true
  | .read _ _ => true
  | .hangUp _ => true
  | .tick _ => true
  | .dial _ _ _ => true
  | .accept _ _ => true
  | .cancel _ => true
  | .manage _ => true
  | _ => false

theorem outbox_openSocket (transport : Transport) (capacity : Nat)
    (promote : Registry → ConnId → Registry) :
    (transport.openSocket capacity promote).outbox = transport.outbox := by
  unfold Transport.openSocket
  dsimp only
  split <;> rfl

/-- What comes from outside changes neither the outbox nor a hand. -/
theorem outside_cases (pipeline : Pipeline) {step : Step} (hstep : step.isOutside = true) :
    ∃ transport, transport.outbox = pipeline.transport.outbox ∧
      (pipeline.act step).1 = pipeline.withTransport transport ∧
      (pipeline.act step).2.all Note.isSilent = true := by
  cases step with
  | askShut conn =>
      refine ⟨_, ?_, rfl, rfl⟩
      unfold Transport.askShut
      split <;> rfl
  | shut conn =>
      refine ⟨_, ?_, rfl, rfl⟩
      unfold Transport.shut
      split
      · split <;> rfl
      · rfl
  | read conn most =>
      refine ⟨(pipeline.transport.read conn most).1, ?_, rfl, rfl⟩
      unfold Transport.read
      split <;> rfl
  | hangUp conn => exact ⟨pipeline.transport.hangUp conn, rfl, rfl, rfl⟩
  | tick duration =>
      refine ⟨_, ?_, rfl, rfl⟩
      rfl
  | dial now node capacity => exact ⟨_, outbox_openSocket _ _ _, rfl, rfl⟩
  | accept now capacity => exact ⟨_, outbox_openSocket _ _ _, rfl, rfl⟩
  | cancel conn =>
      refine ⟨_, ?_, rfl, rfl⟩
      rfl
  | manage move =>
      refine ⟨_, ?_, rfl, rfl⟩
      rfl
  | _ => cases hstep

theorem outside_effect (pipeline : Pipeline) {step : Step} (hstep : step.isOutside = true) :
    Effect pipeline step (pipeline.act step).1 (pipeline.act step).2 := by
  obtain ⟨transport, houtbox, hact, hsilent⟩ := outside_cases pipeline hstep
  rw [hact]
  refine .still _ hsilent ?_ (load_congr ?_ rfl fun _ => rfl) ?_
  · exact congrArg (fun outbox => pipeline.distributor.toList ++ outbox.queue) houtbox
  · exact congrArg Outbox.lanes houtbox
  · exact congrArg Outbox.tally houtbox

/-- Every step is an effect. -/
theorem act_effect (pipeline : Pipeline) (step : Step) :
    Effect pipeline step (pipeline.act step).1 (pipeline.act step).2 := by
  cases step with
  | send message => exact send_effect pipeline message
  | pull => exact pull_effect pipeline
  | pass => exact pass_effect pipeline
  | pick index => exact pick_effect pipeline index
  | judge now index => exact judge_effect pipeline now index
  | find index => exact find_effect pipeline index
  | leave index => exact leave_effect pipeline index
  | receive index => exact receive_effect pipeline index
  | ask index => exact ask_effect pipeline index
  | put index most => exact put_effect pipeline index most
  | finish index => exact finish_effect pipeline index
  | giveUp index => exact giveUp_effect pipeline index
  | remove index => exact remove_effect pipeline index
  | stop => exact stop_effect pipeline
  | quit task => exact quit_effect pipeline task
  | _ => exact outside_effect pipeline rfl

/-! ## What stays as it was set -/

/-- An outbox has its limits and its lanes for good, and it goes on. -/
structure GoesOn (before after : Outbox) : Prop where
  limits : after.limits = before.limits
  lanes : after.lanes.length = before.lanes.length
  stopped : after.stopped = before.stopped

theorem GoesOn.refl (outbox : Outbox) : GoesOn outbox outbox :=
  ⟨rfl, rfl, rfl⟩

theorem goesOn_setLane (outbox : Outbox) (index : Nat) (lane : WriterLane) :
    GoesOn outbox (outbox.setLane index lane) :=
  ⟨rfl, List.length_set, rfl⟩

theorem goesOn_send (outbox : Outbox) (message : Message) :
    GoesOn outbox (outbox.send message).1 := by
  unfold Outbox.send
  split
  · exact ⟨rfl, rfl, rfl⟩
  split
  · exact .refl _
  split <;> exact ⟨rfl, rfl, rfl⟩

theorem goesOn_enterLane (outbox : Outbox) (message : Message) :
    GoesOn outbox (outbox.enterLane message) := by
  unfold Outbox.enterLane
  dsimp only
  split
  · exact .refl _
  split
  · exact ⟨rfl, rfl, rfl⟩
  · exact goesOn_setLane _ _ _

theorem goesOn_enterBacklog (outbox : Outbox) (index : Nat) (lane : WriterLane) (job : Job) :
    GoesOn outbox (outbox.enterBacklog index lane job) := by
  unfold Outbox.enterBacklog
  split
  · exact ⟨rfl, List.length_set, rfl⟩
  · exact goesOn_setLane _ _ _

theorem goesOn_finishJob (transport : Transport) (index : Nat) (job : Job)
    (change : Tally → Tally) :
    GoesOn transport.outbox (transport.finishJob index job change).outbox := by
  unfold Transport.finishJob
  split
  · exact .refl _
  · exact ⟨rfl, List.length_set, rfl⟩

theorem goesOn_outside (pipeline : Pipeline) {step : Step} (hstep : step.isOutside = true) :
    GoesOn pipeline.outbox (pipeline.act step).1.outbox := by
  obtain ⟨transport, houtbox, hact, _⟩ := outside_cases pipeline hstep
  rw [hact]
  show GoesOn pipeline.transport.outbox transport.outbox
  rw [houtbox]
  exact .refl _

theorem goesOn_act (pipeline : Pipeline) {step : Step} (hstep : step.isShutdown = false) :
    GoesOn pipeline.outbox (pipeline.act step).1.outbox := by
  cases step with
  | send message => exact goesOn_send _ _
  | pull =>
      simp only [act, pull]
      split <;> exact ⟨rfl, rfl, rfl⟩
  | pass =>
      simp only [act, pass]
      split
      · exact .refl _
      · exact goesOn_enterLane _ _
  | pick index =>
      simp only [act, pick]
      split
      · exact goesOn_setLane _ _ _
      · exact .refl _
  | judge now index =>
      simp only [act, judge]
      split
      · split <;> exact ⟨rfl, rfl, rfl⟩
      · exact .refl _
  | find index =>
      simp only [act, find]
      split
      · split <;> exact ⟨rfl, rfl, rfl⟩
      · exact .refl _
  | leave index =>
      simp only [act, leave]
      split
      · exact goesOn_enterBacklog _ _ _ _
      · exact .refl _
  | receive index =>
      simp only [act, receive]
      split
      · exact goesOn_setLane _ _ _
      · exact .refl _
  | ask index =>
      simp only [act, ask]
      split
      · exact goesOn_setLane _ _ _
      · exact .refl _
  | put index most =>
      rcases put_cases pipeline index most with hsame | ⟨_, _, _, _, _, _, _, _, _, _, hput⟩
      · rw [act, hsame]
        exact .refl _
      · rw [act, hput]
        exact goesOn_setLane _ _ _
  | finish index =>
      simp only [act, finish]
      split
      · exact goesOn_finishJob _ _ _ _
      · exact .refl _
  | giveUp index =>
      simp only [act, giveUp]
      split
      · exact goesOn_finishJob _ _ _ _
      · exact .refl _
  | remove index =>
      simp only [act, remove]
      split <;> exact .refl _
  | stop => cases hstep
  | quit task => cases hstep
  | _ => exact goesOn_outside pipeline rfl

/-- A shutdown leaves the limits and the lanes. -/
theorem lanes_act (pipeline : Pipeline) (step : Step) :
    (pipeline.act step).1.outbox.limits = pipeline.outbox.limits ∧
      (pipeline.act step).1.outbox.lanes.length = pipeline.outbox.lanes.length := by
  cases hstep : step.isShutdown with
  | false => exact ⟨(goesOn_act pipeline hstep).limits, (goesOn_act pipeline hstep).lanes⟩
  | true =>
      cases step with
      | stop => exact ⟨rfl, List.length_map _⟩
      | quit task =>
          cases task with
          | distributor => exact ⟨rfl, rfl⟩
          | lane index =>
              simp only [act, quit]
              split
              · exact ⟨rfl, rfl⟩
              · exact ⟨rfl, List.length_set⟩
          | writer index =>
              simp only [act, quit]
              split
              · exact ⟨rfl, rfl⟩
              · rename_i lane _
                cases lane.writer <;> exact ⟨rfl, List.length_set⟩
      | _ => cases hstep

end Pipeline

/-- Nothing is on its way at the start of a run. -/
theorem Chronicle.load_opening (registry : Registry) (limits : OutboxLimits) (index : Nat) :
    (Chronicle.opening registry limits).pipeline.load index = Load.none := by
  unfold Pipeline.load
  split
  · rfl
  · rename_i lane hlane
    cases (List.mem_replicate.mp (List.mem_of_getElem? hlane)).2
    rfl

end Peering
