import Peering.Proofs.Delivery.CutShort

/-!
# The pipeline, hand by hand

A step of delivery takes a message out of one queue and puts it into the next. The
task that does this has the message in hand in between, and other tasks may go on
meanwhile. Here every step is cut where another task can come in: a task takes a
message, asks the clock or the registry about it, and hands it on, in steps of
their own. A write goes on in portions of any size and may fail at any time.

Main statement: the steps of delivery are sequences of these steps, so what holds
of all runs here holds of all runs there.
-/

namespace Peering

/-! ## Hands -/

/-- What the task of a lane has in hand. -/
inductive LaneHand where
  | empty
  | taken (message : Message)
  /-- The message was not stale when the lane looked at the clock. -/
  | fresh (message : Message)
  /-- The socket has been found; the job is not in the backlog yet. -/
  | bound (job : Job)
deriving DecidableEq, Repr

/-- What the writer of a lane has in hand before and after a write. -/
inductive WriterHand where
  | empty
  /-- It has not asked for the lock of the socket yet. -/
  | taken (job : Job)
  /-- A write has failed, and its connection is not removed yet. -/
  | leaving (conn : ConnId)
deriving DecidableEq, Repr

/-- What became of a message that is no longer on its way. -/
inductive Fate where
  | written
  | stale
  /-- It was not taken in because of its length. -/
  | oversized
  /-- It was not taken in because the send queue was full. -/
  | refused
  | laneFull
  | backlogFull
  | noChannel
  | failed
deriving DecidableEq, Repr

/-- What can be seen of a run. -/
inductive Note where
  /-- A message was handed in; whether it was taken. -/
  | called (message : Message) (taken : Bool)
  | settled (message : Message) (fate : Fate)
  /-- A lane has found the socket of a message. -/
  | bound (job : Job)
  /-- A writer that had some bytes of a job left has put the first of them on the socket. -/
  | put (job : Job) (left bytes : Bytes)
  /-- The peer has read from a connection. -/
  | read (conn : ConnId) (bytes : Bytes)
deriving DecidableEq

structure Pipeline where
  transport : Transport
  /-- What the distributor has in hand. -/
  distributor : Option Message
  laneHand : Nat → LaneHand
  writerHand : Nat → WriterHand

namespace Pipeline

/-- Delivery between two of its steps: all hands are empty. -/
def atRest (transport : Transport) : Pipeline where
  transport := transport
  distributor := none
  laneHand := fun _ => .empty
  writerHand := fun _ => .empty

def outbox (pipeline : Pipeline) : Outbox :=
  pipeline.transport.outbox

def withTransport (pipeline : Pipeline) (transport : Transport) : Pipeline :=
  { pipeline with transport := transport }

def withOutbox (pipeline : Pipeline) (outbox : Outbox) : Pipeline :=
  pipeline.withTransport { pipeline.transport with outbox := outbox }

def holdDistributor (pipeline : Pipeline) (hand : Option Message) : Pipeline :=
  { pipeline with distributor := hand }

def holdLane (pipeline : Pipeline) (index : Nat) (hand : LaneHand) : Pipeline :=
  { pipeline with
    laneHand := fun other => if other = index then hand else pipeline.laneHand other }

def holdWriter (pipeline : Pipeline) (index : Nat) (hand : WriterHand) : Pipeline :=
  { pipeline with
    writerHand := fun other => if other = index then hand else pipeline.writerHand other }

/-! ## Steps of the tasks -/

/-- Why a message that is handed in would not be taken, as far as it is counted. -/
def refusal (pipeline : Pipeline) (message : Message) : List Fate :=
  if pipeline.outbox.limits.maxBody < message.frame.payload.length then [.oversized]
  else if pipeline.outbox.stopped then []
  else if pipeline.outbox.limits.sendQueue ≤ pipeline.outbox.queue.length then [.refused]
  else []

def send (pipeline : Pipeline) (message : Message) : Pipeline × List Note :=
  let (outbox, taken) := pipeline.outbox.send message
  (pipeline.withOutbox outbox,
    .called message taken :: (pipeline.refusal message).map (.settled message))

/-- The distributor takes the oldest message. -/
def pull (pipeline : Pipeline) : Pipeline × List Note :=
  match pipeline.distributor, pipeline.outbox.queue with
  | none, message :: rest =>
      ((pipeline.withOutbox { pipeline.outbox with queue := rest }).holdDistributor (some message),
        [])
  | _, _ => (pipeline, [])

/-- Whether the lane of a message has no room for it. -/
def isLaneFull (pipeline : Pipeline) (message : Message) : Bool :=
  (pipeline.outbox.lane? (message.dest.lane pipeline.outbox.lanes.length)).any fun lane =>
    pipeline.outbox.limits.laneQueue ≤ lane.queue.length

/-- The distributor hands its message to the lane. -/
def pass (pipeline : Pipeline) : Pipeline × List Note :=
  match pipeline.distributor with
  | none => (pipeline, [])
  | some message =>
      ((pipeline.withOutbox (pipeline.outbox.enterLane message)).holdDistributor none,
        if pipeline.isLaneFull message then [.settled message .laneFull] else [])

/-- A lane takes its oldest message. -/
def pick (pipeline : Pipeline) (index : Nat) : Pipeline × List Note :=
  match pipeline.laneHand index, pipeline.outbox.lane? index with
  | .empty, some ⟨message :: rest, backlog, writer⟩ =>
      ((pipeline.withOutbox (pipeline.outbox.setLane index ⟨rest, backlog, writer⟩)).holdLane index
        (.taken message), [])
  | _, _ => (pipeline, [])

/-- A lane looks at the clock and drops its message if that is stale. -/
def judge (pipeline : Pipeline) (now : Int) (index : Nat) : Pipeline × List Note :=
  match pipeline.laneHand index, pipeline.outbox.lane? index with
  | .taken message, some _ =>
      if message.isStale now pipeline.outbox.limits.writeTimeout then
        ((pipeline.withOutbox (pipeline.outbox.count fun tally =>
          { tally with stale := tally.stale + 1 })).holdLane index .empty,
          [.settled message .stale])
      else (pipeline.holdLane index (.fresh message), [])
  | _, _ => (pipeline, [])

/-- A lane asks the registry for the socket of its message and drops it if there is none. -/
def find (pipeline : Pipeline) (index : Nat) : Pipeline × List Note :=
  match pipeline.laneHand index, pipeline.outbox.lane? index with
  | .fresh message, some _ =>
      match pipeline.transport.registry.writerFor message.dest with
      | none =>
          ((pipeline.withOutbox (pipeline.outbox.count fun tally =>
            { tally with noChannel := tally.noChannel + 1 })).holdLane index .empty,
            [.settled message .noChannel])
      | some conn =>
          (pipeline.holdLane index (.bound ⟨conn, message⟩), [.bound ⟨conn, message⟩])
  | _, _ => (pipeline, [])

/-- A lane leaves its job for the writer. -/
def leave (pipeline : Pipeline) (index : Nat) : Pipeline × List Note :=
  match pipeline.laneHand index, pipeline.outbox.lane? index with
  | .bound job, some lane =>
      ((pipeline.withOutbox (pipeline.outbox.enterBacklog index lane job)).holdLane index .empty,
        if pipeline.outbox.limits.backlog ≤ lane.backlog.length then
          [.settled job.message .backlogFull]
        else [])
  | _, _ => (pipeline, [])

/-- A writer takes its oldest job. -/
def receive (pipeline : Pipeline) (index : Nat) : Pipeline × List Note :=
  match pipeline.writerHand index, pipeline.outbox.lane? index with
  | .empty, some ⟨queue, job :: rest, .idle⟩ =>
      ((pipeline.withOutbox (pipeline.outbox.setLane index ⟨queue, rest, .idle⟩)).holdWriter index
        (.taken job), [])
  | _, _ => (pipeline, [])

/-- A writer asks for the lock of the socket of its job; its time begins. -/
def ask (pipeline : Pipeline) (index : Nat) : Pipeline × List Note :=
  match pipeline.writerHand index, pipeline.outbox.lane? index with
  | .taken job, some ⟨queue, backlog, .idle⟩ =>
      let deadline := pipeline.transport.timer + pipeline.outbox.limits.writeTimeout
      let lane : WriterLane := ⟨queue, backlog, .busy job job.bytes deadline⟩
      ((pipeline.withTransport
        ({ pipeline.transport with outbox := pipeline.outbox.setLane index lane }.onSocket job.conn
          (·.ask (.lane index)))).holdWriter index .empty, [])
  | _, _ => (pipeline, [])

/-- A writer that has the lock puts as much as fits on its socket, and no more than `most` bytes. -/
def put (pipeline : Pipeline) (index most : Nat) : Pipeline × List Note :=
  match pipeline.outbox.lane? index with
  | some ⟨queue, backlog, .busy job left deadline⟩ =>
      match pipeline.transport.socket? job.conn with
      | some socket =>
          if socket.isHeldBy (.lane index) && !socket.isBroken then
            let count := min most (socket.capacity - socket.unread.length)
            let lane : WriterLane := ⟨queue, backlog, .busy job (left.drop count) deadline⟩
            (pipeline.withTransport
              ({ pipeline.transport with outbox := pipeline.outbox.setLane index lane }.onSocket
                job.conn fun _ => (socket.put (left.take count)).1),
              if left.take count = [] then [] else [.put job left (left.take count)])
          else (pipeline, [])
      | none => (pipeline, [])
  | _ => (pipeline, [])

/-- A writer that has nothing left of its job counts it and gives up the lock. -/
def finish (pipeline : Pipeline) (index : Nat) : Pipeline × List Note :=
  match pipeline.outbox.lane? index with
  | some ⟨_, _, .busy job [] _⟩ =>
      (pipeline.withTransport (pipeline.transport.finishJob index job fun tally =>
        { tally with written := tally.written + 1 }), [.settled job.message .written])
  | _ => (pipeline, [])

/-- A write fails: its time is over, or the socket does not take it. -/
def giveUp (pipeline : Pipeline) (index : Nat) : Pipeline × List Note :=
  match pipeline.writerHand index, pipeline.outbox.lane? index with
  | .empty, some ⟨_, _, .busy job _ _⟩ =>
      ((pipeline.withTransport (pipeline.transport.finishJob index job fun tally =>
        { tally with failed := tally.failed + 1 })).holdWriter index (.leaving job.conn),
        [.settled job.message .failed])
  | _, _ => (pipeline, [])

/-- A writer whose write has failed removes the connection. -/
def remove (pipeline : Pipeline) (index : Nat) : Pipeline × List Note :=
  match pipeline.writerHand index with
  | .leaving conn =>
      ((pipeline.withTransport (pipeline.transport.removeConn conn).1).holdWriter index .empty, [])
  | _ => (pipeline, [])

/-- A writer that ends gives up its place in the queue for a lock. -/
def letGo (index : Nat) (writer : Writer) (transport : Transport) : Transport :=
  match writer with
  | .idle => transport
  | .busy job _ _ => transport.onSocket job.conn (·.release (.lane index))

theorem letGo_outbox (index : Nat) (writer : Writer) (transport : Transport) :
    (letGo index writer transport).outbox = transport.outbox := by
  cases writer <;> rfl

/-- The tasks of the pipeline. -/
inductive Task where
  | distributor
  | lane (index : Nat)
  | writer (index : Nat)

/-- A task ends, and what it has in hand and what waits for it is lost. -/
def quit (pipeline : Pipeline) : Task → Pipeline × List Note
  | .distributor =>
      ((pipeline.withOutbox { pipeline.outbox with queue := [], stopped := true }).holdDistributor
        none, [])
  | .lane index =>
      match pipeline.outbox.lane? index with
      | none => (pipeline, [])
      | some lane =>
          ((pipeline.withOutbox (pipeline.outbox.setLane index
            { lane with queue := [] })).holdLane index .empty, [])
  | .writer index =>
      match pipeline.outbox.lane? index with
      | none => (pipeline, [])
      | some lane =>
          let ended := { lane with backlog := [], writer := .idle }
          ((pipeline.withTransport (letGo index lane.writer
            { pipeline.transport with outbox := pipeline.outbox.setLane index ended })).holdWriter
              index .empty, [])

/-! ## Runs -/

inductive Step where
  | send (message : Message)
  | pull
  | pass
  | pick (index : Nat)
  | judge (now : Int) (index : Nat)
  | find (index : Nat)
  | leave (index : Nat)
  | receive (index : Nat)
  | ask (index : Nat)
  | put (index most : Nat)
  | finish (index : Nat)
  | giveUp (index : Nat)
  | remove (index : Nat)
  | askShut (conn : ConnId)
  | shut (conn : ConnId)
  | read (conn : ConnId) (most : Nat)
  | hangUp (conn : ConnId)
  | tick (duration : Nat)
  | dial (now : Nat) (node : Node) (capacity : Nat)
  | accept (now : Nat) (capacity : Nat)
  | cancel (conn : ConnId)
  | manage (move : Registry.Move)
  /-- The queues are dropped at once. -/
  | stop
  /-- One task ends. -/
  | quit (task : Task)

/-- Whether a step is part of a shutdown. -/
def Step.isShutdown : Step → Bool
  | .stop => true
  | .quit _ => true
  | _ => false

/-- The message that a step hands in. -/
def Step.sent? : Step → Option Message
  | .send message => some message
  | _ => none

/-- A step, and what can be seen of it. -/
def act (pipeline : Pipeline) : Step → Pipeline × List Note
  | .send message => pipeline.send message
  | .pull => pipeline.pull
  | .pass => pipeline.pass
  | .pick index => pipeline.pick index
  | .judge now index => pipeline.judge now index
  | .find index => pipeline.find index
  | .leave index => pipeline.leave index
  | .receive index => pipeline.receive index
  | .ask index => pipeline.ask index
  | .put index most => pipeline.put index most
  | .finish index => pipeline.finish index
  | .giveUp index => pipeline.giveUp index
  | .remove index => pipeline.remove index
  | .askShut conn => (pipeline.withTransport (pipeline.transport.askShut conn), [])
  | .shut conn => (pipeline.withTransport (pipeline.transport.shut conn), [])
  | .read conn most =>
      let (transport, bytes) := pipeline.transport.read conn most
      (pipeline.withTransport transport, [.read conn bytes])
  | .hangUp conn => (pipeline.withTransport (pipeline.transport.hangUp conn), [])
  | .tick duration =>
      (pipeline.withTransport
        { pipeline.transport with timer := pipeline.transport.timer + duration }, [])
  | .dial now node capacity =>
      (pipeline.withTransport (pipeline.transport.openSocket capacity fun registry conn =>
        (registry.promoteToOutbound now node conn).1), [])
  | .accept now capacity =>
      (pipeline.withTransport (pipeline.transport.openSocket capacity fun registry conn =>
        (registry.promoteToInbound now conn).1), [])
  | .cancel conn =>
      (pipeline.withTransport
        { pipeline.transport with registry := pipeline.transport.registry.cancel conn }, [])
  | .manage move =>
      (pipeline.withTransport
        { pipeline.transport with registry := pipeline.transport.registry.perform move }, [])
  | .stop => (pipeline.withTransport pipeline.transport.stop, [])
  | .quit task => pipeline.quit task

/-- The pipeline after some steps. -/
def after (pipeline : Pipeline) (steps : List Step) : Pipeline :=
  steps.foldl (fun pipeline step => (pipeline.act step).1) pipeline

end Pipeline

/-- A run of the pipeline, with everything that was seen of it. -/
structure Chronicle where
  pipeline : Pipeline
  notes : List Note

namespace Chronicle

/-- The start of a run. -/
def opening (registry : Registry) (limits : OutboxLimits) : Chronicle where
  pipeline := Pipeline.atRest (Transport.create registry limits)
  notes := []

def act (chronicle : Chronicle) (step : Pipeline.Step) : Chronicle where
  pipeline := (chronicle.pipeline.act step).1
  notes := chronicle.notes ++ (chronicle.pipeline.act step).2

def run (chronicle : Chronicle) (steps : List Pipeline.Step) : Chronicle :=
  steps.foldl act chronicle

theorem run_pipeline (chronicle : Chronicle) (steps : List Pipeline.Step) :
    (chronicle.run steps).pipeline = chronicle.pipeline.after steps := by
  induction steps generalizing chronicle with
  | nil => rfl
  | cons step rest ih => exact ih (chronicle.act step)

/-- What every allowed step keeps, a run of allowed steps keeps. -/
theorem run_induction {P : Chronicle → Prop} {allowed : Pipeline.Step → Prop}
    {chronicle : Chronicle} (hstart : P chronicle)
    (hact : ∀ chronicle step, P chronicle → allowed step → P (chronicle.act step))
    (steps : List Pipeline.Step) (hsteps : ∀ step ∈ steps, allowed step) :
    P (chronicle.run steps) := by
  induction steps generalizing chronicle with
  | nil => exact hstart
  | cons step rest ih =>
      obtain ⟨hstep, hrest⟩ := List.forall_mem_cons.mp hsteps
      exact ih (hact chronicle step hstart hstep) hrest

/-- What every step keeps, every run keeps. -/
theorem run_keeps {P : Chronicle → Prop} {chronicle : Chronicle} (hstart : P chronicle)
    (hact : ∀ chronicle step, P chronicle → P (chronicle.act step)) (steps : List Pipeline.Step) :
    P (chronicle.run steps) := by
  have hsteps : ∀ step ∈ steps, (fun _ : Pipeline.Step => True) step := fun _ _ => trivial
  exact run_induction hstart (fun chronicle step h _ => hact chronicle step h) steps hsteps

end Chronicle

/-- The message that an action hands in. -/
def Transport.Action.sent? : Transport.Action → Option Message
  | .send message => some message
  | _ => none

namespace Pipeline

/-! ## Hands that change -/

section Hands

variable (pipeline : Pipeline) (index : Nat) (hand : LaneHand) (grip : WriterHand)

@[simp] theorem holdLane_self : (pipeline.holdLane index hand).laneHand index = hand :=
  if_pos rfl

theorem holdLane_other {other : Nat} (hother : other ≠ index) :
    (pipeline.holdLane index hand).laneHand other = pipeline.laneHand other :=
  if_neg hother

@[simp] theorem holdLane_withOutbox (outbox : Outbox) :
    (pipeline.holdLane index hand).withOutbox outbox =
      (pipeline.withOutbox outbox).holdLane index hand :=
  rfl

@[simp] theorem holdLane_holdLane (later : LaneHand) :
    (pipeline.holdLane index hand).holdLane index later = pipeline.holdLane index later := by
  simp only [holdLane, Pipeline.mk.injEq, true_and, and_true]
  funext other
  split <;> rfl

@[simp] theorem holdWriter_self : (pipeline.holdWriter index grip).writerHand index = grip :=
  if_pos rfl

theorem holdWriter_other {other : Nat} (hother : other ≠ index) :
    (pipeline.holdWriter index grip).writerHand other = pipeline.writerHand other :=
  if_neg hother

@[simp] theorem holdWriter_withTransport (transport : Transport) :
    (pipeline.holdWriter index grip).withTransport transport =
      (pipeline.withTransport transport).holdWriter index grip :=
  rfl

@[simp] theorem holdWriter_holdWriter (later : WriterHand) :
    (pipeline.holdWriter index grip).holdWriter index later = pipeline.holdWriter index later := by
  simp only [holdWriter, Pipeline.mk.injEq, true_and]
  funext other
  split <;> rfl

end Hands

/-! ## Steps of delivery are sequences of these steps -/

/-- Some steps hand in what some actions hand in, and they stop only if the actions do. -/
structure Serves (actions : List Transport.Action) (steps : List Step) : Prop where
  sent : steps.filterMap Step.sent? = actions.filterMap Transport.Action.sent?
  running : .stop ∉ actions → ∀ step ∈ steps, step.isShutdown = false

/-- Whether a step hands in nothing and stops nothing. -/
def Step.isInner (step : Step) : Bool :=
  step.sent?.isNone && !step.isShutdown

theorem Serves.of_inner {action : Transport.Action} {steps : List Step}
    (hinner : steps.all Step.isInner = true) (haction : action.sent? = none) :
    Serves [action] steps where
  sent := by
    have hnone : steps.filterMap Step.sent? = [] :=
      List.filterMap_eq_nil_iff.mpr fun step hmem =>
        Option.isNone_iff_eq_none.mp
          (Bool.and_eq_true_iff.mp (List.all_eq_true.mp hinner step hmem)).1
    rw [hnone, List.filterMap_cons, haction]
    rfl
  running := fun _ step hmem => by
    simpa using (Bool.and_eq_true_iff.mp (List.all_eq_true.mp hinner step hmem)).2

theorem Serves.cons {action : Transport.Action} {rest : List Transport.Action}
    {first later : List Step} (hfirst : Serves [action] first) (hlater : Serves rest later) :
    Serves (action :: rest) (first ++ later) where
  sent := by
    rw [List.filterMap_append, hfirst.sent, hlater.sent, ← List.filterMap_append]
    rfl
  running := fun hstop step hmem => by
    rcases List.mem_append.mp hmem with hmem | hmem
    · refine hfirst.running (fun heq => hstop ?_) step hmem
      exact List.mem_cons.mpr (Or.inl (List.mem_singleton.mp heq))
    · exact hlater.running (fun hin => hstop (List.mem_cons_of_mem _ hin)) step hmem

variable {transport : Transport} {index : Nat}

@[simp] theorem holdLane_atRest : (atRest transport).holdLane index .empty = atRest transport := by
  simp [holdLane, atRest]

@[simp] theorem holdWriter_atRest :
    (atRest transport).holdWriter index .empty = atRest transport := by
  simp [holdWriter, atRest]

theorem after_append (pipeline : Pipeline) (first second : List Step) :
    pipeline.after (first ++ second) = (pipeline.after first).after second :=
  List.foldl_append

theorem after_distribute (transport : Transport) :
    (atRest transport).after [.pull, .pass] = atRest transport.distribute := by
  cases hqueue : transport.outbox.queue with
  | nil =>
      simp [after, act, pull, pass, atRest, outbox, hqueue, Transport.distribute, Outbox.distribute]
  | cons message rest =>
      simp [after, act, pull, pass, atRest, outbox, hqueue, Transport.distribute, Outbox.distribute,
        withOutbox, withTransport, holdDistributor]

section Tasks

variable {pipeline : Pipeline} {message : Message} {job : Job} {conn : ConnId} {now : Int}
  {lane : WriterLane} {queue : List Message} {backlog : List Job} {deadline : Nat}

theorem judge_stale (hhand : pipeline.laneHand index = .taken message)
    (hlane : pipeline.outbox.lane? index = some lane)
    (hstale : message.isStale now pipeline.outbox.limits.writeTimeout = true) :
    pipeline.judge now index = ((pipeline.withOutbox (pipeline.outbox.count fun tally =>
      { tally with stale := tally.stale + 1 })).holdLane index .empty,
      [.settled message .stale]) := by
  simp [judge, hlane, hhand, hstale]

theorem judge_fresh (hhand : pipeline.laneHand index = .taken message)
    (hlane : pipeline.outbox.lane? index = some lane)
    (hfresh : message.isStale now pipeline.outbox.limits.writeTimeout = false) :
    pipeline.judge now index = (pipeline.holdLane index (.fresh message), []) := by
  simp [judge, hlane, hhand, hfresh]

theorem find_none (hhand : pipeline.laneHand index = .fresh message)
    (hlane : pipeline.outbox.lane? index = some lane)
    (hnone : pipeline.transport.registry.writerFor message.dest = none) :
    pipeline.find index = ((pipeline.withOutbox (pipeline.outbox.count fun tally =>
      { tally with noChannel := tally.noChannel + 1 })).holdLane index .empty,
      [.settled message .noChannel]) := by
  simp [find, hlane, hhand, hnone]

theorem find_some (hhand : pipeline.laneHand index = .fresh message)
    (hlane : pipeline.outbox.lane? index = some lane)
    (hsome : pipeline.transport.registry.writerFor message.dest = some conn) :
    pipeline.find index =
      (pipeline.holdLane index (.bound ⟨conn, message⟩), [.bound ⟨conn, message⟩]) := by
  simp [find, hlane, hhand, hsome]

theorem find_empty (hhand : pipeline.laneHand index = .empty) :
    pipeline.find index = (pipeline, []) := by
  simp [find, hhand]

theorem leave_bound (hhand : pipeline.laneHand index = .bound job)
    (hlane : pipeline.outbox.lane? index = some lane) :
    (pipeline.leave index).1 =
      (pipeline.withOutbox (pipeline.outbox.enterBacklog index lane job)).holdLane index
        .empty := by
  rw [leave, hhand, hlane]

theorem leave_empty (hhand : pipeline.laneHand index = .empty) :
    pipeline.leave index = (pipeline, []) := by
  simp [leave, hhand]

theorem ask_taken (hhand : pipeline.writerHand index = .taken job)
    (hlane : pipeline.outbox.lane? index = some ⟨queue, backlog, .idle⟩) :
    (pipeline.ask index).1 = (pipeline.withTransport
      ({ pipeline.transport with outbox := pipeline.outbox.setLane index ⟨queue, backlog,
        .busy job job.bytes (pipeline.transport.timer + pipeline.outbox.limits.writeTimeout)⟩
        }.onSocket job.conn (·.ask (.lane index)))).holdWriter index .empty := by
  rw [ask, hhand, hlane]

theorem finish_done (hlane : pipeline.outbox.lane? index =
    some ⟨queue, backlog, .busy job [] deadline⟩) : (pipeline.finish index).1 =
      pipeline.withTransport (pipeline.transport.finishJob index job fun tally =>
        { tally with written := tally.written + 1 }) := by
  rw [finish, hlane]

theorem remove_leaving (hhand : pipeline.writerHand index = .leaving conn) :
    (pipeline.remove index).1 =
      (pipeline.withTransport (pipeline.transport.removeConn conn).1).holdWriter index .empty := by
  rw [remove, hhand]

end Tasks

theorem after_resolve (transport : Transport) (now : Int) (index : Nat) :
    (atRest transport).after [.pick index, .judge now index, .find index, .leave index] =
      atRest (transport.resolve now index) := by
  cases hlane : transport.outbox.lane? index with
  | none => simp [after, act, pick, judge, find, leave, atRest, outbox, hlane, Transport.resolve]
  | some lane =>
      obtain ⟨queue, backlog, writer⟩ := lane
      cases queue with
      | nil => simp [after, act, pick, judge, find, leave, atRest, outbox, hlane, Transport.resolve]
      | cons message rest =>
          let picked := { transport with
            outbox := transport.outbox.setLane index ⟨rest, backlog, writer⟩ }
          have hpick : ((atRest transport).pick index).1 =
              (atRest picked).holdLane index (.taken message) := by
            simp [pick, outbox, atRest, hlane, picked, withOutbox, withTransport]
          have hlaneLeft : (atRest picked).outbox.lane? index = some ⟨rest, backlog, writer⟩ := by
            show (transport.outbox.setLane index _).lane? index = _
            rw [Outbox.lane?_setLane hlane, if_pos rfl]
          have hself := holdLane_self (atRest picked) index
          show ((((((atRest transport).pick index).1.judge now index).1.find index).1.leave
            index)).1 = _
          rw [hpick]
          unfold Transport.resolve
          simp only [hlane]
          cases hstale : message.isStale now transport.outbox.limits.writeTimeout with
          | true =>
              rw [judge_stale (hself (.taken message)) hlaneLeft hstale,
                find_empty (holdLane_self _ _ _), leave_empty (holdLane_self _ _ _),
                holdLane_withOutbox, holdLane_holdLane]
              exact holdLane_atRest
          | false =>
              rw [judge_fresh (hself (.taken message)) hlaneLeft hstale, holdLane_holdLane]
              cases hwriter : transport.registry.writerFor message.dest with
              | none =>
                  rw [find_none (hself (.fresh message)) hlaneLeft hwriter,
                    leave_empty (holdLane_self _ _ _), holdLane_withOutbox, holdLane_holdLane]
                  exact holdLane_atRest
              | some conn =>
                  have henter : picked.outbox.enterBacklog index ⟨rest, backlog, writer⟩
                      ⟨conn, message⟩ = transport.outbox.enterBacklog index
                        ⟨rest, backlog, writer⟩ ⟨conn, message⟩ := by
                    simp [Outbox.enterBacklog, picked, Outbox.setLane, Outbox.count]
                  rw [find_some (hself (.fresh message)) hlaneLeft hwriter, holdLane_holdLane,
                    leave_bound (hself (.bound ⟨conn, message⟩)) hlaneLeft, holdLane_withOutbox,
                    holdLane_holdLane]
                  refine holdLane_atRest.trans ?_
                  exact congrArg (fun outbox => atRest { transport with outbox := outbox }) henter

theorem after_take (transport : Transport) (index : Nat) :
    (atRest transport).after [.receive index, .ask index] = atRest (transport.take index) := by
  cases hlane : transport.outbox.lane? index with
  | none => simp [after, act, receive, ask, atRest, outbox, hlane, Transport.take]
  | some lane =>
      obtain ⟨queue, backlog, writer⟩ := lane
      cases writer with
      | busy job left deadline =>
          simp [after, act, receive, ask, atRest, outbox, hlane, Transport.take]
      | idle =>
          cases backlog with
          | nil => simp [after, act, receive, ask, atRest, outbox, hlane, Transport.take]
          | cons job rest =>
              let received := { transport with
                outbox := transport.outbox.setLane index ⟨queue, rest, .idle⟩ }
              have hreceive : ((atRest transport).receive index).1 =
                  (atRest received).holdWriter index (.taken job) := by
                simp [receive, outbox, atRest, hlane, received, withOutbox, withTransport]
              have hlaneLeft : received.outbox.lane? index = some ⟨queue, rest, .idle⟩ := by
                rw [Outbox.lane?_setLane hlane, if_pos rfl]
              show ((((atRest transport).receive index).1).ask index).1 = _
              have hset : received.outbox.setLane index ⟨queue, rest, .busy job job.bytes
                  (received.timer + received.outbox.limits.writeTimeout)⟩ =
                  transport.outbox.setLane index ⟨queue, rest, .busy job job.bytes
                    (transport.timer + transport.outbox.limits.writeTimeout)⟩ := by
                simp [received, Outbox.setLane]
              have htaken := holdWriter_self (atRest received) index (.taken job)
              rw [hreceive, ask_taken htaken hlaneLeft, holdWriter_withTransport,
                holdWriter_holdWriter]
              refine holdWriter_atRest.trans ?_
              simp only [Transport.take, hlane]
              exact congrArg (fun outbox => atRest
                ({ transport with outbox := outbox }.onSocket job.conn (·.ask (.lane index)))) hset

theorem after_failJob {queue : List Message} {backlog : List Job} {job : Job} {left : Bytes}
    {deadline : Nat}
    (hlane : transport.outbox.lane? index = some ⟨queue, backlog, .busy job left deadline⟩) :
    (atRest transport).after [.giveUp index, .remove index] =
      atRest (transport.failJob index job) := by
  have hgiveUp : ((atRest transport).giveUp index).1 =
      (atRest (transport.finishJob index job fun tally =>
        { tally with failed := tally.failed + 1 })).holdWriter index (.leaving job.conn) := by
    simp [giveUp, outbox, atRest, hlane, withTransport]
  show ((((atRest transport).giveUp index).1).remove index).1 = _
  rw [hgiveUp, remove_leaving (holdWriter_self _ _ _), holdWriter_withTransport,
    holdWriter_holdWriter]
  exact holdWriter_atRest

/-- It does not matter to the end of a job how much of it was left. -/
theorem finishJob_setLane (transport : Transport) {queue : List Message} {backlog : List Job}
    {old : Writer}
    (hlane : transport.outbox.lane? index = some ⟨queue, backlog, old⟩) (writer : Writer)
    (job : Job) (change : Tally → Tally) :
    let lane : WriterLane := ⟨queue, backlog, writer⟩
    { transport with outbox := transport.outbox.setLane index lane }.finishJob index job change =
      transport.finishJob index job change := by
  have hset := (Outbox.lane?_setLane hlane ⟨queue, backlog, writer⟩ index).trans (if_pos rfl)
  simp only [Transport.finishJob, hlane, hset]
  simp [Outbox.setLane, Outbox.count, Transport.onSocket]

/-- What fits of some bytes is put even if no more than that is tried. -/
theorem put_min (socket : Socket) (left : Bytes) :
    left.drop (min left.length (socket.capacity - socket.unread.length)) = (socket.put left).2 ∧
      (socket.put (left.take (min left.length (socket.capacity - socket.unread.length)))).1 =
        (socket.put left).1 := by
  unfold Socket.put
  rcases Nat.le_total (socket.capacity - socket.unread.length) left.length with hroom | hroom
  · simp [Nat.min_eq_right hroom, List.take_take]
  · simp [Nat.min_eq_left hroom, List.take_of_length_le hroom, List.drop_of_length_le hroom]

/-- No more of some bytes is put than fits. -/
theorem put_take (socket : Socket) (left : Bytes) (most : Nat) :
    (socket.put (left.take (min most (socket.capacity - socket.unread.length)))).1 =
      { socket with
        unread := socket.unread ++
          left.take (min most (socket.capacity - socket.unread.length)) } := by
  simp only [Socket.put, List.take_take, Nat.min_eq_right (Nat.min_le_right _ _)]

/-- A writer that may put all that it has left does what one write does. -/
theorem put_all {queue : List Message} {backlog : List Job} {job : Job} {left : Bytes}
    {deadline : Nat} {socket : Socket}
    (hlane : transport.outbox.lane? index = some ⟨queue, backlog, .busy job left deadline⟩)
    (hsocket : transport.socket? job.conn = some socket)
    (hgoes : (socket.isHeldBy (.lane index) && !socket.isBroken) = true) :
    let lane : WriterLane := ⟨queue, backlog, .busy job (socket.put left).2 deadline⟩
    ((atRest transport).put index left.length).1 =
      atRest ({ transport with outbox := transport.outbox.setLane index lane }.onSocket job.conn
        fun _ => (socket.put left).1) := by
  have hcount := put_min socket left
  have hlane' : (atRest transport).outbox.lane? index =
      some ⟨queue, backlog, .busy job left deadline⟩ := hlane
  have hsocket' : (atRest transport).transport.socket? job.conn = some socket := hsocket
  simp only [put, hlane', hsocket', hgoes, if_true, hcount]
  rfl

theorem after_write (transport : Transport) (index : Nat) : ∃ steps,
    steps.all Step.isInner = true ∧ (atRest transport).after steps = atRest (transport.write index) := by
  unfold Transport.write
  split
  · rename_i queue backlog job left deadline hlane
    split
    · exact ⟨[], rfl, rfl⟩
    rename_i socket hsocket
    split
    · exact ⟨[], rfl, rfl⟩
    rename_i hheld
    split
    · exact ⟨_, rfl, after_failJob hlane⟩
    rename_i hbroken
    have hgoes : (socket.isHeldBy (.lane index) && !socket.isBroken) = true := by
      simpa using And.intro hheld hbroken
    have hput := put_all hlane hsocket hgoes
    dsimp only
    split
    · rename_i hdone
      refine ⟨[.put index left.length, .finish index], rfl, ?_⟩
      show (((atRest transport).put index left.length).1.finish index).1 = _
      have hnil : (socket.put left).2 = [] := List.isEmpty_iff.mp hdone
      let lane : WriterLane := ⟨queue, backlog, .busy job (socket.put left).2 deadline⟩
      let putting := { transport with outbox := transport.outbox.setLane index lane }.onSocket
        job.conn fun _ => (socket.put left).1
      have hlaneDone : (atRest putting).outbox.lane? index =
          some ⟨queue, backlog, .busy job [] deadline⟩ := by
        show (transport.outbox.setLane index lane).lane? index = _
        rw [Outbox.lane?_setLane hlane, if_pos rfl, ← hnil]
      have hfinish := finishJob_setLane (transport.onSocket job.conn fun _ =>
        (socket.put left).1) hlane (.busy job (socket.put left).2 deadline) job fun tally =>
          { tally with written := tally.written + 1 }
      rw [hput, finish_done hlaneDone]
      exact congrArg atRest hfinish
    · exact ⟨[.put index left.length], rfl, hput⟩
  · exact ⟨[], rfl, rfl⟩

theorem after_expire (transport : Transport) (index : Nat) : ∃ steps,
    steps.all Step.isInner = true ∧ (atRest transport).after steps = atRest (transport.expire index) := by
  unfold Transport.expire
  split
  · rename_i hlane
    split
    · exact ⟨_, rfl, after_failJob hlane⟩
    · exact ⟨[], rfl, rfl⟩
  · exact ⟨[], rfl, rfl⟩

/-- Every step of delivery is a sequence of these steps. -/
theorem after_act (transport : Transport) (action : Transport.Action) : ∃ steps,
    Serves [action] steps ∧ (atRest transport).after steps = atRest (transport.act action) := by
  have hinner : ∀ steps : List Step, steps.all Step.isInner = true → action.sent? = none →
      (atRest transport).after steps = atRest (transport.act action) → ∃ steps,
        Serves [action] steps ∧ (atRest transport).after steps = atRest (transport.act action) :=
    fun steps hsteps hnone hafter => ⟨steps, .of_inner hsteps hnone, hafter⟩
  cases action with
  | send message => exact ⟨[.send message], ⟨rfl, by simp [Step.isShutdown]⟩, rfl⟩
  | stop => exact ⟨[.stop], ⟨rfl, by simp⟩, rfl⟩
  | distribute => exact hinner _ rfl rfl (after_distribute transport)
  | resolve now index => exact hinner _ rfl rfl (after_resolve transport now index)
  | take index => exact hinner _ rfl rfl (after_take transport index)
  | write index =>
      obtain ⟨steps, hsteps, hafter⟩ := after_write transport index
      exact hinner steps hsteps rfl hafter
  | expire index =>
      obtain ⟨steps, hsteps, hafter⟩ := after_expire transport index
      exact hinner steps hsteps rfl hafter
  | askShut conn => exact hinner [.askShut conn] rfl rfl rfl
  | shut conn => exact hinner [.shut conn] rfl rfl rfl
  | read conn most => exact hinner [.read conn most] rfl rfl rfl
  | hangUp conn => exact hinner [.hangUp conn] rfl rfl rfl
  | tick duration => exact hinner [.tick duration] rfl rfl rfl
  | dial now node capacity => exact hinner [.dial now node capacity] rfl rfl rfl
  | accept now capacity => exact hinner [.accept now capacity] rfl rfl rfl
  | cancel conn =>
      by_cases hholds : transport.registry.holds conn = true
      · exact hinner [.cancel conn] rfl rfl (congrArg atRest (if_pos hholds).symm)
      · exact hinner [] rfl rfl (congrArg atRest (if_neg hholds).symm)
  | manage move =>
      by_cases hnamed : (move.offer?.isNone && transport.registry.namesDialed move) = true
      · exact hinner [.manage move] rfl rfl (congrArg atRest (if_pos hnamed).symm)
      · exact hinner [] rfl rfl (congrArg atRest (if_neg hnamed).symm)

theorem after_run (transport : Transport) (actions : List Transport.Action) : ∃ steps,
    Serves actions steps ∧ (atRest transport).after steps = atRest (transport.run actions) := by
  induction actions generalizing transport with
  | nil => exact ⟨[], ⟨rfl, by simp⟩, rfl⟩
  | cons action rest ih =>
      obtain ⟨first, hserves, hfirst⟩ := after_act transport action
      obtain ⟨later, hrest, hlater⟩ := ih (transport.act action)
      refine ⟨first ++ later, hserves.cons hrest, ?_⟩
      rw [after_append, hfirst]
      exact hlater

end Pipeline

/-- Whatever delivery comes to, the pipeline comes to with the same messages. -/
theorem Chronicle.reaches_run (registry : Registry) (limits : OutboxLimits)
    (actions : List Transport.Action) : ∃ steps, Pipeline.Serves actions steps ∧
      ((opening registry limits).run steps).pipeline =
        Pipeline.atRest ((Transport.create registry limits).run actions) := by
  obtain ⟨steps, hserves, hsteps⟩ :=
    Pipeline.after_run (Transport.create registry limits) actions
  exact ⟨steps, hserves, (run_pipeline _ steps).trans hsteps⟩

end Peering
