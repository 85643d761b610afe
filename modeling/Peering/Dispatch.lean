import Peering.Handlers
import Peering.Lane

/-!
# Dispatch lanes

Messages for applications are spread over lanes by their peer. Each lane has a
bounded queue and one thread, which has one message in hand at a time, so that a
slow handler delays only the peers of its lane. What finds the queue full is
dropped and counted.
-/

namespace Peering

structure DispatchLane where
  queue : List Incoming
  /-- The message whose handlers are being called. -/
  inHand : Option Incoming
  /-- The thread of the lane has not ended. -/
  running : Bool
deriving DecidableEq, Repr

namespace DispatchLane

def empty : DispatchLane where
  queue := []
  inHand := none
  running := true

end DispatchLane

structure Dispatcher where
  capacity : Nat
  lanes : List DispatchLane
  dropped : Nat
  /-- Messages are still taken. -/
  isOpen : Bool
  /-- Threads end when they next look. -/
  stopping : Bool
deriving DecidableEq, Repr

namespace Dispatcher

def create (lanes capacity : Nat) : Dispatcher where
  capacity := capacity
  lanes := List.replicate lanes DispatchLane.empty
  dropped := 0
  isOpen := true
  stopping := false

def setLane (dispatcher : Dispatcher) (index : Nat) (lane : DispatchLane) : Dispatcher :=
  { dispatcher with lanes := dispatcher.lanes.set index lane }

/-- Queues a message on the lane of its peer; tells whether it was taken. -/
def submit (dispatcher : Dispatcher) (message : Incoming) : Dispatcher × Bool :=
  let index := Lane.forKey message.peer dispatcher.lanes.length
  if !dispatcher.isOpen then (dispatcher, false)
  else match dispatcher.lanes[index]? with
    | none => (dispatcher, false)
    | some lane =>
        if !lane.running then (dispatcher, false)
        else if dispatcher.capacity ≤ lane.queue.length then
          ({ dispatcher with dropped := dispatcher.dropped + 1 }, false)
        else
          (dispatcher.setLane index { lane with queue := lane.queue ++ [message] }, true)

/-- An idle thread takes its oldest message, or ends when it is told to. -/
def takeUp (dispatcher : Dispatcher) (index : Nat) : Dispatcher :=
  match dispatcher.lanes[index]? with
  | some ⟨message :: rest, none, true⟩ =>
      dispatcher.setLane index
        (if dispatcher.stopping then ⟨[], none, false⟩ else ⟨rest, some message, true⟩)
  | _ => dispatcher

/-- The handlers of the message in hand return; gives the calls that were made. -/
def finish (dispatcher : Dispatcher) (table : HandlerTable) (index : Nat) :
    Dispatcher × List Call :=
  match dispatcher.lanes[index]? with
  | some ⟨queue, some message, running⟩ =>
      (dispatcher.setLane index ⟨queue, none, running⟩, table.dispatch message)
  | _ => (dispatcher, [])

/-- No message is taken any more; the threads deal with those that are queued. -/
def close (dispatcher : Dispatcher) : Dispatcher :=
  { dispatcher with isOpen := false }

/-- Closes, and tells the threads to end. -/
def stop (dispatcher : Dispatcher) : Dispatcher :=
  { dispatcher.close with stopping := true }

/-! ## Letting the threads run -/

/-- The thread of a lane deals with so many messages. -/
def runLane (table : HandlerTable) (index : Nat) : Nat → Dispatcher → Dispatcher × List Call
  | 0, dispatcher => (dispatcher, [])
  | count + 1, dispatcher =>
      let (dispatcher, calls) := (dispatcher.takeUp index).finish table index
      let (dispatcher, later) := runLane table index count dispatcher
      (dispatcher, calls ++ later)

/-- How many messages a lane has, the one in hand included. -/
def laneLoad (dispatcher : Dispatcher) (index : Nat) : Nat :=
  match dispatcher.lanes[index]? with
  | none => 0
  | some lane => lane.inHand.toList.length + lane.queue.length

/-- The threads of the lanes that are listed deal with all their messages. -/
def runLanes (table : HandlerTable) : List Nat → Dispatcher → Dispatcher × List Call
  | [], dispatcher => (dispatcher, [])
  | index :: others, dispatcher =>
      let (dispatcher, calls) := runLane table index (dispatcher.laneLoad index) dispatcher
      let (dispatcher, later) := runLanes table others dispatcher
      (dispatcher, calls ++ later)

/-- Every thread deals with all its messages. -/
def run (dispatcher : Dispatcher) (table : HandlerTable) : Dispatcher × List Call :=
  runLanes table (List.range dispatcher.lanes.length) dispatcher

end Dispatcher

end Peering
