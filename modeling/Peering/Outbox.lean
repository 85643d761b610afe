import Peering.Destination
import Peering.Frame

/-!
# The outbox

Outgoing messages pass three queues: one for all of them, one for each lane, and
a backlog of writes for each lane. No queue ever blocks: what finds its queue
full is dropped and counted. This module has the state of the queues and the
moves that need nothing else; the moves that look at connections and sockets are
in `Peering.Delivery`.
-/

namespace Peering

structure Message where
  dest : Destination
  frame : Frame
  /-- When it was handed in; clocks may be set back, so this can lie ahead. -/
  enqueuedAt : Int
deriving DecidableEq, Repr

/-- A message is stale once it has waited for longer than a write may take. -/
def Message.isStale (message : Message) (now : Int) (writeTimeout : Nat) : Bool :=
  Int.ofNat writeTimeout < now - message.enqueuedAt

/-- A message and the socket that it has to be written to. -/
structure Job where
  conn : ConnId
  message : Message
deriving DecidableEq, Repr

def Job.bytes (job : Job) : Bytes :=
  job.message.frame.encode

/-- What the writer of a lane is doing. -/
inductive Writer where
  | idle
  /-- It has these bytes of a job left to write, and gives up at the deadline. -/
  | busy (job : Job) (left : Bytes) (deadline : Nat)
deriving DecidableEq, Repr

/-- The job that a writer has in hand. -/
def Writer.job? : Writer → Option Job
  | .idle => none
  | .busy job _ _ => some job

structure WriterLane where
  queue : List Message
  backlog : List Job
  writer : Writer
deriving DecidableEq, Repr

namespace WriterLane

def empty : WriterLane where
  queue := []
  backlog := []
  writer := .idle

/-- Every job of a lane, the one in hand first. -/
def jobs (lane : WriterLane) : List Job :=
  lane.writer.job?.toList ++ lane.backlog

end WriterLane

structure OutboxLimits where
  lanes : Nat
  sendQueue : Nat
  laneQueue : Nat
  backlog : Nat
  /-- How long a write may take. -/
  writeTimeout : Nat
  /-- Longest payload that a peer accepts. -/
  maxBody : Nat
deriving DecidableEq, Repr

/-- What became of the messages that are no longer on their way. -/
structure Tally where
  written : Nat
  stale : Nat
  queueFull : Nat
  backlogFull : Nat
  noChannel : Nat
  failed : Nat
  oversized : Nat
deriving DecidableEq, Repr

namespace Tally

def zero : Tally :=
  ⟨0, 0, 0, 0, 0, 0, 0⟩

/-- How many messages have been counted. -/
def total (tally : Tally) : Nat :=
  tally.written + tally.stale + tally.queueFull + tally.backlogFull + tally.noChannel +
    tally.failed + tally.oversized

end Tally

structure Outbox where
  limits : OutboxLimits
  queue : List Message
  lanes : List WriterLane
  tally : Tally
  /-- Nothing is taken or moved any more. -/
  stopped : Bool
deriving DecidableEq, Repr

namespace Outbox

def create (limits : OutboxLimits) : Outbox where
  limits := limits
  queue := []
  lanes := List.replicate limits.lanes WriterLane.empty
  tally := Tally.zero
  stopped := false

def lane? (outbox : Outbox) (index : Nat) : Option WriterLane :=
  outbox.lanes[index]?

def setLane (outbox : Outbox) (index : Nat) (lane : WriterLane) : Outbox :=
  { outbox with lanes := outbox.lanes.set index lane }

def count (outbox : Outbox) (change : Tally → Tally) : Outbox :=
  { outbox with tally := change outbox.tally }

/-- Every job that is not finished. -/
def jobs (outbox : Outbox) : List Job :=
  outbox.lanes.flatMap WriterLane.jobs

/--
Hands in a message without waiting; tells whether it was taken. What the peer
would refuse for its length is not taken, nor is anything once the outbox has
stopped, nor what finds the queue full.
-/
def send (outbox : Outbox) (message : Message) : Outbox × Bool :=
  if outbox.limits.maxBody < message.frame.payload.length then
    (outbox.count fun tally => { tally with oversized := tally.oversized + 1 }, false)
  else if outbox.stopped then
    (outbox, false)
  else if outbox.limits.sendQueue ≤ outbox.queue.length then
    (outbox.count fun tally => { tally with queueFull := tally.queueFull + 1 }, false)
  else
    ({ outbox with queue := outbox.queue ++ [message] }, true)

/-- Puts a message into the queue of its lane, or drops it when that is full. -/
def enterLane (outbox : Outbox) (message : Message) : Outbox :=
  let index := message.dest.lane outbox.lanes.length
  match outbox.lane? index with
  | none => outbox
  | some lane =>
      if outbox.limits.laneQueue ≤ lane.queue.length then
        outbox.count fun tally => { tally with queueFull := tally.queueFull + 1 }
      else
        outbox.setLane index { lane with queue := lane.queue ++ [message] }

/-- Moves the oldest message to its lane. -/
def distribute (outbox : Outbox) : Outbox :=
  match outbox.queue with
  | [] => outbox
  | message :: rest => { outbox with queue := rest }.enterLane message

/-- Moves so many messages to their lanes. -/
def distributeMany : Nat → Outbox → Outbox
  | 0, outbox => outbox
  | count + 1, outbox => distributeMany count outbox.distribute

/-- Puts a job into the backlog of a lane, or drops it when that is full. -/
def enterBacklog (outbox : Outbox) (index : Nat) (lane : WriterLane) (job : Job) : Outbox :=
  if outbox.limits.backlog ≤ lane.backlog.length then
    (outbox.setLane index lane).count fun tally =>
      { tally with backlogFull := tally.backlogFull + 1 }
  else
    outbox.setLane index { lane with backlog := lane.backlog ++ [job] }

/-- Stops for good. What waits is dropped; a write that has begun goes on. -/
def stop (outbox : Outbox) : Outbox :=
  { outbox with
    queue := []
    lanes := outbox.lanes.map fun lane => { lane with queue := [], backlog := [] }
    stopped := true }

end Outbox

end Peering
