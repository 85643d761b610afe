import Mathlib.Logic.Function.Basic
import Peering.Dispatch
import Peering.Proofs.Dispatch.Calling

/-!
# Threads of the dispatch lanes

What the threads of the lanes do, cut at every point where something else may come
between: a thread takes a message from the queue, looks whether it is to end, looks
up the handlers, and calls them one by one; any call may fail or panic. Submissions,
closing and the order to end fall wherever they like. The operations of the
dispatcher are sequences of these steps.
-/

namespace Peering

/-- How far a thread is with a message, beyond what its lane tells. -/
inductive Hand where
  | empty
  /-- Taken from the queue; the thread has not looked yet whether it is to end. -/
  | taken (message : Incoming)
  /-- The handlers that are still to be called for the message of the lane. -/
  | calling (left : List Handler)

/-- A message with the handlers that were looked up for it. -/
structure Begun where
  message : Incoming
  handlers : List Handler

/-- What tells a call, apart from how it ended. -/
def Call.made (call : Call) : Nat × Incoming :=
  (call.tag, call.message)

/-- One call for every handler, in the order of the table. -/
def Begun.calls (begun : Begun) : List (Nat × Incoming) :=
  begun.handlers.map fun handler => (handler.tag, begun.message)

/-- What has happened at a dispatcher, in order. -/
structure Ledger where
  /-- Every message that was submitted, and whether it was taken. -/
  offers : List (Incoming × Bool)
  begun : List Begun
  calls : List Call
  /-- The messages all of whose handlers have returned. -/
  done : List Incoming

namespace Ledger

def empty : Ledger :=
  ⟨[], [], [], []⟩

def accepted (ledger : Ledger) : List Incoming :=
  (ledger.offers.filter (·.2)).map (·.1)

def refused (ledger : Ledger) : List Incoming :=
  (ledger.offers.filter (!·.2)).map (·.1)

/-- The messages whose handlers were looked up. -/
def dispatched (ledger : Ledger) : List Incoming :=
  ledger.begun.map (·.message)

def noteOffer (ledger : Ledger) (message : Incoming) (taken : Bool) : Ledger :=
  { ledger with offers := ledger.offers ++ [(message, taken)] }

def noteBegun (ledger : Ledger) (begun : Begun) : Ledger :=
  { ledger with begun := ledger.begun ++ [begun] }

def noteCall (ledger : Ledger) (call : Call) : Ledger :=
  { ledger with calls := ledger.calls ++ [call] }

def noteDone (ledger : Ledger) (message : Incoming) : Ledger :=
  { ledger with done := ledger.done ++ [message] }

end Ledger

/-- A dispatcher with the hands of its threads, and what has happened so far. -/
structure Workroom where
  dispatcher : Dispatcher
  hands : Nat → Hand
  ledger : Ledger

namespace Workroom

def opening (lanes capacity : Nat) : Workroom where
  dispatcher := Dispatcher.create lanes capacity
  hands := fun _ => .empty
  ledger := .empty

def put (room : Workroom) (index : Nat) (lane : DispatchLane) (hand : Hand) : Workroom :=
  { room with
    dispatcher := room.dispatcher.setLane index lane
    hands := Function.update room.hands index hand }

def submit (room : Workroom) (message : Incoming) : Workroom :=
  let (dispatcher, taken) := room.dispatcher.submit message
  { room with
    dispatcher := dispatcher
    ledger := room.ledger.noteOffer message taken }

/-- An idle thread takes the oldest message. -/
def receive (room : Workroom) (index : Nat) : Workroom :=
  match room.dispatcher.lanes[index]?, room.hands index with
  | some ⟨message :: rest, none, true⟩, .empty =>
      room.put index ⟨rest, none, true⟩ (.taken message)
  | _, _ => room

/-- A thread that has taken a message looks whether it is to end. -/
def look (room : Workroom) (index : Nat) : Workroom :=
  match room.dispatcher.lanes[index]?, room.hands index with
  | some ⟨queue, none, true⟩, .taken message =>
      room.put index
        (if room.dispatcher.stopping then ⟨[], none, false⟩ else ⟨queue, some message, true⟩)
        .empty
  | _, _ => room

/-- A thread looks up the handlers for its message in the table as it is. -/
def dispatch (room : Workroom) (index : Nat) (table : HandlerTable) : Workroom :=
  match room.dispatcher.lanes[index]?, room.hands index with
  | some ⟨queue, some message, running⟩, .empty =>
      { room.put index ⟨queue, some message, running⟩ (.calling (table.serving message)) with
        ledger := room.ledger.noteBegun ⟨message, table.serving message⟩ }
  | _, _ => room

/-- The next handler returns, fails or panics. -/
def call (room : Workroom) (index : Nat) (outcome : Outcome) : Workroom :=
  match room.dispatcher.lanes[index]?, room.hands index with
  | some ⟨queue, some message, running⟩, .calling (handler :: left) =>
      { room.put index ⟨queue, some message, running⟩ (.calling left) with
        ledger := room.ledger.noteCall ⟨handler.tag, message, outcome⟩ }
  | _, _ => room

/-- A thread is done with its message once no handler is left. -/
def finish (room : Workroom) (index : Nat) : Workroom :=
  match room.dispatcher.lanes[index]?, room.hands index with
  | some ⟨queue, some message, running⟩, .calling [] =>
      { room.put index ⟨queue, none, running⟩ .empty with
        ledger := room.ledger.noteDone message }
  | _, _ => room

/-- A thread ends when its queue is closed and drained. -/
def leave (room : Workroom) (index : Nat) : Workroom :=
  match room.dispatcher.lanes[index]?, room.hands index with
  | some ⟨[], none, true⟩, .empty =>
      if room.dispatcher.isOpen then room else room.put index ⟨[], none, false⟩ .empty
  | _, _ => room

inductive Step where
  | submit (message : Incoming)
  | receive (index : Nat)
  | look (index : Nat)
  | dispatch (index : Nat) (table : HandlerTable)
  | call (index : Nat) (outcome : Outcome)
  | finish (index : Nat)
  | leave (index : Nat)
  | close
  /-- The threads are told to end. -/
  | cancel

def act (room : Workroom) : Step → Workroom
  | .submit message => room.submit message
  | .receive index => room.receive index
  | .look index => room.look index
  | .dispatch index table => room.dispatch index table
  | .call index outcome => room.call index outcome
  | .finish index => room.finish index
  | .leave index => room.leave index
  | .close => { room with dispatcher := room.dispatcher.close }
  | .cancel => { room with dispatcher := { room.dispatcher with stopping := true } }

def run (room : Workroom) (steps : List Step) : Workroom :=
  steps.foldl act room

variable {room : Workroom} {index : Nat} {message : Incoming} {queue : List Incoming}
  {running : Bool}

/-- What every step keeps, a run keeps. -/
theorem run_induction {P : Workroom → Prop} (hstart : P room)
    (hact : ∀ room step, P room → P (room.act step)) (steps : List Step) : P (room.run steps) := by
  induction steps generalizing room with
  | nil => exact hstart
  | cons step rest ih => exact ih (hact room step hstart)

/-! ## The operations of the dispatcher -/

theorem setLane_same (dispatcher : Dispatcher) {lane : DispatchLane}
    (hlane : dispatcher.lanes[index]? = some lane) : dispatcher.setLane index lane = dispatcher := by
  obtain ⟨hbound, rfl⟩ := List.getElem?_eq_some_iff.mp hlane
  simp [Dispatcher.setLane]

theorem setLane_setLane (dispatcher : Dispatcher) (first second : DispatchLane) :
    (dispatcher.setLane index first).setLane index second = dispatcher.setLane index second := by
  simp [Dispatcher.setLane]

theorem lanes_put_self {lane other : DispatchLane} {hand : Hand}
    (hlane : room.dispatcher.lanes[index]? = some lane) :
    (room.put index other hand).dispatcher.lanes[index]? = some other :=
  List.getElem?_set_self (List.getElem?_eq_some_iff.mp hlane).1

theorem hands_put_self (room : Workroom) (index : Nat) (lane : DispatchLane) (hand : Hand) :
    (room.put index lane hand).hands index = hand :=
  Function.update_self ..

/-- An idle thread that receives and looks is one that takes up. -/
theorem run_takeUp (hhand : room.hands index = .empty) :
    (room.run [.receive index, .look index]).dispatcher = room.dispatcher.takeUp index := by
  show ((room.receive index).look index).dispatcher = room.dispatcher.takeUp index
  unfold Dispatcher.takeUp
  split
  · rename_i message rest hlane
    have hreceive : room.receive index = room.put index ⟨rest, none, true⟩ (.taken message) := by
      simp only [receive, hlane, hhand]
    rw [hreceive]
    simp only [look, lanes_put_self hlane, hands_put_self]
    exact setLane_setLane ..
  · rename_i hother
    have hreceive : room.receive index = room := by
      unfold receive
      split
      · rename_i hlane _
        exact absurd hlane (hother _ _)
      · rfl
    rw [hreceive]
    simp [look, hhand]

/-- The handlers of a message return one after the other. -/
theorem run_calls (room : Workroom) (handlers : List Handler)
    (hlane : room.dispatcher.lanes[index]? = some ⟨queue, some message, running⟩)
    (hhand : room.hands index = .calling handlers) :
    let after := room.run (handlers.map fun handler => .call index (handler.receive message))
    after.dispatcher = room.dispatcher ∧ after.hands index = .calling [] ∧
      after.ledger.calls = room.ledger.calls ++ handlers.map (·.call message) := by
  induction handlers generalizing room with
  | nil => exact ⟨rfl, hhand, (List.append_nil _).symm⟩
  | cons handler rest ih =>
      have hcall : room.call index (handler.receive message) =
          { room.put index ⟨queue, some message, running⟩ (.calling rest) with
            ledger := room.ledger.noteCall (handler.call message) } := by
        simp only [call, hlane, hhand, Handler.call]
      have hsame : (room.call index (handler.receive message)).dispatcher = room.dispatcher := by
        rw [hcall]
        exact setLane_same _ hlane
      obtain ⟨hdispatcher, hdone, hcalls⟩ := ih (room.call index (handler.receive message))
        (hsame ▸ hlane) (by rw [hcall]; exact Function.update_self ..)
      refine ⟨hdispatcher.trans hsame, hdone, hcalls.trans ?_⟩
      simp [hcall, Ledger.noteCall]

/-- A thread that looks up the handlers and has all of them return is one that finishes. -/
theorem run_finish (table : HandlerTable)
    (hlane : room.dispatcher.lanes[index]? = some ⟨queue, some message, running⟩)
    (hhand : room.hands index = .empty) :
    let after := room.run (.dispatch index table ::
      (table.serving message).map (fun handler => .call index (handler.receive message)) ++
        [.finish index])
    after.dispatcher = (room.dispatcher.finish table index).1 ∧
      after.ledger.calls = room.ledger.calls ++ (room.dispatcher.finish table index).2 := by
  have hdispatch : room.dispatch index table =
      { room.put index ⟨queue, some message, running⟩ (.calling (table.serving message)) with
        ledger := room.ledger.noteBegun ⟨message, table.serving message⟩ } := by
    simp only [dispatch, hlane, hhand]
  have hsame : (room.dispatch index table).dispatcher = room.dispatcher := by
    rw [hdispatch]
    exact setLane_same _ hlane
  obtain ⟨hdispatcher, hdone, hcalls⟩ := run_calls (room.dispatch index table)
    (table.serving message) (hsame ▸ hlane) (by rw [hdispatch]; exact Function.update_self ..)
  rw [hsame] at hdispatcher
  have hmodel : room.dispatcher.finish table index =
      (room.dispatcher.setLane index ⟨queue, none, running⟩,
        (table.serving message).map (·.call message)) := by
    simp only [Dispatcher.finish, hlane, HandlerTable.dispatch_eq]
  rw [hmodel]
  simp only [run, List.cons_append, List.foldl_cons, List.foldl_append, List.foldl_nil, act] at *
  rw [finish, hdispatcher, hlane, hdone]
  refine ⟨?_, hcalls.trans ?_⟩
  · dsimp only [put]
    rw [hdispatcher]
  · rw [hdispatch]
    rfl

/-- To stop is to give the order to end and to close. -/
theorem run_stop (room : Workroom) :
    (room.run [.cancel, .close]).dispatcher = room.dispatcher.stop :=
  rfl

end Workroom

end Peering
