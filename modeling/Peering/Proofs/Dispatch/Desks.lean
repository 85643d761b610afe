import Peering.Proofs.Dispatch.Workroom

/-!
# Desks

A peer never changes its lane, and a lane is a queue with one thread, so what was
taken from a peer is what has been dispatched, followed by what the lane still
holds; a thread that ends forgets the latter. Every step of a thread moves one
message or one call from one part of its desk to the next, and the other desks do
not notice.
-/

namespace Peering

/-! ## Desks -/

/-- A lane with the hand of its thread. -/
structure Desk where
  /-- Taken, and not dispatched yet. -/
  waiting : List Incoming
  /-- The message whose handlers are being called. -/
  current : List Incoming
  /-- The calls that are left to make for it. -/
  left : List (Nat × Incoming)
  running : Bool

namespace Desk

def of (lane : DispatchLane) : Hand → Desk
  | .empty => ⟨lane.inHand.toList ++ lane.queue, [], [], lane.running⟩
  | .taken message => ⟨message :: lane.queue, [], [], lane.running⟩
  | .calling left => ⟨lane.queue, lane.inHand.toList,
      lane.inHand.toList.flatMap fun message => Begun.calls ⟨message, left⟩, lane.running⟩

/-- A message that is queued waits behind all others, wherever the thread is. -/
theorem of_enqueue (lane : DispatchLane) (hand : Hand) (message : Incoming) :
    Desk.of { lane with queue := lane.queue ++ [message] } hand =
      { Desk.of lane hand with waiting := (Desk.of lane hand).waiting ++ [message] } := by
  cases hand <;> simp [Desk.of]

def closed : Desk :=
  ⟨[], [], [], false⟩

/-- All messages in the queue and in the hand of the thread. -/
def load (desk : Desk) : List Incoming :=
  desk.current ++ desk.waiting

/-- Where a desk stands with the messages of some kind that were offered to its lane. -/
structure Owes (desk : Desk) (ledger : Ledger) (p : Incoming → Bool) : Prop where
  /-- Of what was taken, some has been dispatched and the rest waits. -/
  stream : desk.running = true →
    ledger.accepted.filter p = ledger.dispatched.filter p ++ desk.waiting.filter p
  front : ledger.dispatched.filter p <+: ledger.accepted.filter p
  calls : (ledger.begun.flatMap Begun.calls).filter (p ·.2) =
    (ledger.calls.map Call.made).filter (p ·.2) ++ desk.left.filter (p ·.2)
  done : ledger.dispatched.filter p = ledger.done.filter p ++ desk.current.filter p

end Desk

/-! ## Ledgers -/

namespace Ledger

variable {ledger : Ledger} {message : Incoming}

theorem accepted_noteOffer (ledger : Ledger) (message : Incoming) (taken : Bool) :
    (ledger.noteOffer message taken).accepted =
      ledger.accepted ++ if taken then [message] else [] := by
  cases taken <;> simp [accepted, noteOffer]

theorem refused_noteOffer (ledger : Ledger) (message : Incoming) (taken : Bool) :
    (ledger.noteOffer message taken).refused =
      ledger.refused ++ if taken then [] else [message] := by
  cases taken <;> simp [refused, noteOffer]

theorem dispatched_noteBegun (ledger : Ledger) (begun : Begun) :
    (ledger.noteBegun begun).dispatched = ledger.dispatched ++ [begun.message] := by
  simp [dispatched, noteBegun]

theorem flatMap_calls_noteBegun (ledger : Ledger) (begun : Begun) :
    (ledger.noteBegun begun).begun.flatMap Begun.calls =
      ledger.begun.flatMap Begun.calls ++ begun.calls := by
  simp [noteBegun]

/-- An offer was either taken or refused. -/
theorem offers_perm (ledger : Ledger) :
    (ledger.offers.map (·.1)).Perm (ledger.refused ++ ledger.accepted) := by
  have hsplit := (List.filter_append_perm (fun offer : Incoming × Bool => !offer.2)
    ledger.offers).symm.map (·.1)
  simpa [refused, accepted] using hsplit

end Ledger

/-! ## What happens at a desk, and elsewhere -/

namespace Desk.Owes

variable {desk : Desk} {ledger : Ledger} {p : Incoming → Bool} {message : Incoming}

/-- What happens to messages of another kind does not concern a desk. -/
theorem offered_elsewhere (howes : desk.Owes ledger p) (hother : p message = false) (taken : Bool) :
    desk.Owes (ledger.noteOffer message taken) p := by
  have haccepted : (ledger.noteOffer message taken).accepted.filter p = ledger.accepted.filter p := by
    cases taken <;> simp [Ledger.accepted_noteOffer, hother]
  exact ⟨fun hrunning => haccepted ▸ howes.stream hrunning, haccepted ▸ howes.front, howes.calls,
    howes.done⟩

theorem refused (howes : desk.Owes ledger p) (message : Incoming) :
    desk.Owes (ledger.noteOffer message false) p := by
  have haccepted : (ledger.noteOffer message false).accepted = ledger.accepted := by
    simp [Ledger.accepted_noteOffer]
  exact ⟨fun hrunning => haccepted ▸ howes.stream hrunning, haccepted ▸ howes.front, howes.calls,
    howes.done⟩

theorem queued (howes : desk.Owes ledger p) (hrunning : desk.running = true) (message : Incoming) :
    { desk with waiting := desk.waiting ++ [message] }.Owes (ledger.noteOffer message true) p where
  stream := fun _ => by
    rw [Ledger.accepted_noteOffer, if_pos rfl, List.filter_append, howes.stream hrunning,
      List.filter_append, List.append_assoc]
    rfl
  front := by
    rw [Ledger.accepted_noteOffer, List.filter_append]
    exact howes.front.trans (List.prefix_append _ _)
  calls := howes.calls
  done := howes.done

theorem ended (howes : desk.Owes ledger p) (hcurrent : desk.current = []) (hleft : desk.left = []) :
    Desk.closed.Owes ledger p where
  stream := nofun
  front := howes.front
  calls := howes.calls.trans (by rw [hleft]; rfl)
  done := howes.done.trans (by rw [hcurrent]; rfl)

theorem begun_elsewhere {begun : Begun} (howes : desk.Owes ledger p)
    (hother : p begun.message = false) : desk.Owes (ledger.noteBegun begun) p := by
  have hdispatched : (ledger.noteBegun begun).dispatched.filter p = ledger.dispatched.filter p := by
    simp [Ledger.dispatched_noteBegun, hother]
  have hcalls : begun.calls.filter (p ·.2) = [] := by simp [Begun.calls, hother]
  refine ⟨fun hrunning => hdispatched ▸ howes.stream hrunning, hdispatched ▸ howes.front, ?_,
    hdispatched ▸ howes.done⟩
  rw [Ledger.flatMap_calls_noteBegun, List.filter_append, hcalls, List.append_nil]
  exact howes.calls

theorem begun {begun : Begun} {rest : List Incoming} {running : Bool}
    (howes : Desk.Owes ⟨begun.message :: rest, [], [], running⟩ ledger p)
    (hrunning : running = true) :
    Desk.Owes ⟨rest, [begun.message], begun.calls, running⟩ (ledger.noteBegun begun) p := by
  have hstream : ledger.accepted.filter p =
      (ledger.noteBegun begun).dispatched.filter p ++ rest.filter p := by
    have hwaiting : (begun.message :: rest).filter p = [begun.message].filter p ++ rest.filter p :=
      List.filter_append [begun.message] rest
    rw [howes.stream hrunning, Ledger.dispatched_noteBegun, List.filter_append, List.append_assoc,
      hwaiting]
  refine ⟨fun _ => hstream, hstream ▸ List.prefix_append _ _, ?_, ?_⟩
  · have hcalls := howes.calls
    simp only [List.filter_nil, List.append_nil] at hcalls
    rw [Ledger.flatMap_calls_noteBegun, List.filter_append, hcalls]
    rfl
  · have hdone := howes.done
    simp only [List.filter_nil, List.append_nil] at hdone
    rw [Ledger.dispatched_noteBegun, List.filter_append, hdone]
    rfl

theorem called_elsewhere {call : Call} (howes : desk.Owes ledger p)
    (hother : p call.message = false) : desk.Owes (ledger.noteCall call) p where
  stream := howes.stream
  front := howes.front
  calls := howes.calls.trans (by simp [Ledger.noteCall, Call.made, hother])
  done := howes.done

theorem called {call : Call} {left : List (Nat × Incoming)} (howes : desk.Owes ledger p)
    (hleft : desk.left = call.made :: left) :
    { desk with left := left }.Owes (ledger.noteCall call) p where
  stream := howes.stream
  front := howes.front
  calls := by
    have hmade : (call.made :: left).filter (p ·.2) =
        ([call].map Call.made).filter (p ·.2) ++ left.filter (p ·.2) :=
      List.filter_append [call.made] left
    rw [Ledger.noteCall, List.map_append, List.filter_append, List.append_assoc, ← hmade, ← hleft]
    exact howes.calls
  done := howes.done

theorem finished_elsewhere (howes : desk.Owes ledger p) (hother : p message = false) :
    desk.Owes (ledger.noteDone message) p where
  stream := howes.stream
  front := howes.front
  calls := howes.calls
  done := howes.done.trans (by simp [Ledger.noteDone, hother])

theorem finished {waiting : List Incoming} {running : Bool}
    (howes : Desk.Owes ⟨waiting, [message], [], running⟩ ledger p) :
    Desk.Owes ⟨waiting, [], [], running⟩ (ledger.noteDone message) p where
  stream := howes.stream
  front := howes.front
  calls := howes.calls
  done := howes.done.trans (by simp [Ledger.noteDone])

end Desk.Owes

namespace Workroom

variable {room : Workroom} {index : Nat} {message : Incoming} {desk : Desk} {ledger : Ledger}
  {p : Incoming → Bool}

/-- The lane of a message, as a desk. -/
def laneOf (room : Workroom) (message : Incoming) : Nat :=
  Lane.forKey message.peer room.dispatcher.lanes.length

def desk? (room : Workroom) (index : Nat) : Option Desk :=
  room.dispatcher.lanes[index]?.map (Desk.of · (room.hands index))

/-- The messages at some part of the desks, desk by desk. -/
def gather (room : Workroom) (part : Desk → List Incoming) : List Incoming :=
  (List.range room.dispatcher.lanes.length).flatMap fun index =>
    (room.desk? index).toList.flatMap part

theorem desk?_put {lane after : DispatchLane} {hand : Hand}
    (hlane : room.dispatcher.lanes[index]? = some lane) :
    (room.put index after hand).desk? =
      Function.update room.desk? index (some (Desk.of after hand)) := by
  funext other
  by_cases hsame : other = index
  · subst hsame
    simp [desk?, lanes_put_self hlane, hands_put_self]
  · rw [Function.update_of_ne hsame, desk?, desk?]
    simp [put, Dispatcher.setLane, List.getElem?_set_ne (Ne.symm hsame),
      Function.update_of_ne hsame]

theorem desk?_enqueue {lane : DispatchLane} (hlane : room.dispatcher.lanes[index]? = some lane)
    (message : Incoming) :
    { room with
      dispatcher := room.dispatcher.setLane index { lane with queue := lane.queue ++ [message] }
      ledger := ledger }.desk? =
      Function.update room.desk? index (some { Desk.of lane (room.hands index) with
        waiting := (Desk.of lane (room.hands index)).waiting ++ [message] }) := by
  funext other
  by_cases hsame : other = index
  · subst hsame
    rw [Function.update_self, ← Desk.of_enqueue, desk?]
    simp [Dispatcher.setLane, List.getElem?_set_self (List.getElem?_eq_some_iff.mp hlane).1]
  · rw [Function.update_of_ne hsame, desk?, desk?]
    simp [Dispatcher.setLane, List.getElem?_set_ne (Ne.symm hsame)]

/-! ## What a step does -/

/-- All that a step can do to the desks and the ledger. -/
inductive Effect (room : Workroom) (after : Nat → Option Desk) (ledger : Ledger) : Prop where
  | still (hdesks : after = room.desk?) (hledger : ledger = room.ledger)
  | refused (message : Incoming) (hdesks : after = room.desk?)
      (hledger : ledger = room.ledger.noteOffer message false)
  | queued (message : Incoming) (desk : Desk)
      (hdesk : room.desk? (room.laneOf message) = some desk) (hrunning : desk.running = true)
      (hdesks : after = Function.update room.desk? (room.laneOf message)
        (some { desk with waiting := desk.waiting ++ [message] }))
      (hledger : ledger = room.ledger.noteOffer message true)
  | ended (index : Nat) (desk : Desk) (hdesk : room.desk? index = some desk)
      (hcurrent : desk.current = []) (hleft : desk.left = [])
      (hending : room.dispatcher.stopping = true ∨ room.dispatcher.isOpen = false)
      (hdesks : after = Function.update room.desk? index (some .closed))
      (hledger : ledger = room.ledger)
  | begun (index : Nat) (begun : Begun) (rest : List Incoming) (running : Bool)
      (hdesk : room.desk? index = some ⟨begun.message :: rest, [], [], running⟩)
      (hdesks : after = Function.update room.desk? index
        (some ⟨rest, [begun.message], begun.calls, running⟩))
      (hledger : ledger = room.ledger.noteBegun begun)
  | called (index : Nat) (desk : Desk) (call : Call) (left : List (Nat × Incoming))
      (hdesk : room.desk? index = some desk) (hleft : desk.left = call.made :: left)
      (hdesks : after = Function.update room.desk? index (some { desk with left := left }))
      (hledger : ledger = room.ledger.noteCall call)
  | finished (index : Nat) (waiting : List Incoming) (message : Incoming) (running : Bool)
      (hdesk : room.desk? index = some ⟨waiting, [message], [], running⟩)
      (hdesks : after = Function.update room.desk? index (some ⟨waiting, [], [], running⟩))
      (hledger : ledger = room.ledger.noteDone message)

theorem update_desk_same (hdesk : room.desk? index = some desk) :
    Function.update room.desk? index (some desk) = room.desk? := by
  rw [← hdesk, Function.update_eq_self]

theorem desk?_of_lane {lane : DispatchLane} (hlane : room.dispatcher.lanes[index]? = some lane) :
    room.desk? index = some (Desk.of lane (room.hands index)) := by
  rw [desk?, hlane, Option.map_some]

/-- A submission is taken by a lane that runs and has room, or it is refused. -/
theorem submit_cases (dispatcher : Dispatcher) (message : Incoming) :
    (∃ lane, dispatcher.lanes[Lane.forKey message.peer dispatcher.lanes.length]? = some lane ∧
      lane.running = true ∧
      dispatcher.submit message = (dispatcher.setLane
        (Lane.forKey message.peer dispatcher.lanes.length)
        { lane with queue := lane.queue ++ [message] }, true)) ∨
    dispatcher.submit message = ({ dispatcher with dropped := dispatcher.dropped + 1 }, false) ∨
    (dispatcher.submit message = (dispatcher, false) ∧
      (dispatcher.isOpen = false ∨
        ∀ lane, dispatcher.lanes[Lane.forKey message.peer dispatcher.lanes.length]? = some lane →
          lane.running = false)) := by
  unfold Dispatcher.submit
  dsimp only
  split
  · rename_i hclosed
    exact Or.inr (Or.inr ⟨rfl, Or.inl (by simpa using hclosed)⟩)
  split
  · rename_i hnone
    exact Or.inr (Or.inr ⟨rfl, Or.inr fun lane hlane => by rw [hnone] at hlane; cases hlane⟩)
  rename_i lane hlane
  split
  · rename_i hrunning
    refine Or.inr (Or.inr ⟨rfl, Or.inr fun other hother => ?_⟩)
    obtain rfl : lane = other := Option.some.inj (hlane.symm.trans hother)
    simpa using hrunning
  split
  · exact Or.inr (Or.inl rfl)
  · rename_i hrunning _
    exact Or.inl ⟨lane, hlane, by simpa using hrunning, rfl⟩

theorem submit_effect (room : Workroom) (message : Incoming) :
    Effect room (room.submit message).desk? (room.submit message).ledger := by
  unfold submit
  rcases submit_cases room.dispatcher message with
    ⟨lane, hlane, hrunning, heq⟩ | heq | ⟨heq, _⟩
  · rw [heq]
    refine .queued message _ (desk?_of_lane hlane) ?_ (desk?_enqueue hlane message) rfl
    unfold Desk.of
    split <;> exact hrunning
  · rw [heq]
    exact .refused message rfl rfl
  · rw [heq]
    exact .refused message rfl rfl

theorem receive_effect (room : Workroom) (index : Nat) :
    Effect room (room.receive index).desk? (room.receive index).ledger := by
  unfold receive
  split
  · rename_i message rest hlane hhand
    refine .still ?_ rfl
    rw [desk?_put hlane]
    refine update_desk_same ?_
    rw [desk?_of_lane hlane, hhand]
    rfl
  · exact .still rfl rfl

theorem look_effect (room : Workroom) (index : Nat) :
    Effect room (room.look index).desk? (room.look index).ledger := by
  unfold look
  split
  · rename_i queue message hlane hhand
    have hdesk := desk?_of_lane hlane
    rw [hhand] at hdesk
    split
    · rename_i hstopping
      exact .ended index _ hdesk rfl rfl (Or.inl hstopping) (desk?_put hlane) rfl
    · refine .still ?_ rfl
      rw [desk?_put hlane]
      exact update_desk_same hdesk
  · exact .still rfl rfl

theorem dispatch_effect (room : Workroom) (index : Nat) (table : HandlerTable) :
    Effect room (room.dispatch index table).desk? (room.dispatch index table).ledger := by
  unfold dispatch
  split
  · rename_i queue message running hlane hhand
    have hdesk := desk?_of_lane hlane
    rw [hhand] at hdesk
    refine .begun index ⟨message, table.serving message⟩ queue running hdesk ?_ rfl
    refine Eq.trans (desk?_put hlane) ?_
    simp [Desk.of]
  · exact .still rfl rfl

theorem call_effect (room : Workroom) (index : Nat) (outcome : Outcome) :
    Effect room (room.call index outcome).desk? (room.call index outcome).ledger := by
  unfold call
  split
  · rename_i queue message running handler left hlane hhand
    have hdesk := desk?_of_lane hlane
    rw [hhand] at hdesk
    refine .called index _ ⟨handler.tag, message, outcome⟩ (Begun.calls ⟨message, left⟩) hdesk
      (by simp [Desk.of, Begun.calls, Call.made]) ?_ rfl
    refine Eq.trans (desk?_put hlane) ?_
    simp [Desk.of]
  · exact .still rfl rfl

theorem finish_effect (room : Workroom) (index : Nat) :
    Effect room (room.finish index).desk? (room.finish index).ledger := by
  unfold finish
  split
  · rename_i queue message running hlane hhand
    have hdesk := desk?_of_lane hlane
    rw [hhand] at hdesk
    exact .finished index queue message running hdesk (desk?_put hlane) rfl
  · exact .still rfl rfl

theorem leave_effect (room : Workroom) (index : Nat) :
    Effect room (room.leave index).desk? (room.leave index).ledger := by
  unfold leave
  split
  · rename_i hlane hhand
    have hdesk := desk?_of_lane hlane
    rw [hhand] at hdesk
    split
    · exact .still rfl rfl
    · rename_i hopen
      exact .ended index _ hdesk rfl rfl (Or.inr (by simpa using hopen)) (desk?_put hlane) rfl
  · exact .still rfl rfl

theorem act_effect (room : Workroom) (step : Step) :
    Effect room (room.act step).desk? (room.act step).ledger := by
  cases step with
  | submit message => exact submit_effect room message
  | receive index => exact receive_effect room index
  | look index => exact look_effect room index
  | dispatch index table => exact dispatch_effect room index table
  | call index outcome => exact call_effect room index outcome
  | finish index => exact finish_effect room index
  | leave index => exact leave_effect room index
  | close => exact .still rfl rfl
  | cancel => exact .still rfl rfl

/-! ## What every step keeps -/

/-- Every message is at the lane of its peer, and no lane has lost count of any kind of message. -/
structure Sound (lanes : Nat) (desks : Nat → Option Desk) (ledger : Ledger) : Prop where
  placed : ∀ index desk, desks index = some desk →
    ∀ message ∈ desk.load, Lane.forKey message.peer lanes = index
  calls : ∀ index desk, desks index = some desk →
    ∀ call ∈ desk.left, Lane.forKey call.2.peer lanes = index
  running : ∀ index desk, desks index = some desk → desk.running = false → desk.load = []
  owes : ∀ index (p : Incoming → Bool),
    (∀ message, p message = true → Lane.forKey message.peer lanes = index) →
    ∀ desk, desks index = some desk → desk.Owes ledger p

variable {lanes : Nat}

/-- An update of one desk is seen there, and nowhere else. -/
theorem desk_of_update {desks : Nat → Option Desk} {index other : Nat} {new desk : Desk}
    (hdesk : Function.update desks index (some new) other = some desk) :
    (other = index ∧ desk = new) ∨ (other ≠ index ∧ desks other = some desk) := by
  by_cases hsame : other = index
  · subst hsame
    rw [Function.update_self] at hdesk
    exact Or.inl ⟨rfl, (Option.some.inj hdesk).symm⟩
  · rw [Function.update_of_ne hsame] at hdesk
    exact Or.inr ⟨hsame, hdesk⟩

namespace Sound

variable {desks : Nat → Option Desk} {other : Nat}

/-- A message of one lane is not of the kind of another lane. -/
theorem elsewhere (hp : ∀ message, p message = true → Lane.forKey message.peer lanes = other)
    (hlane : Lane.forKey message.peer lanes = index) (hother : other ≠ index) :
    p message = false :=
  Bool.eq_false_iff.mpr fun htrue => hother ((hp message htrue).symm.trans hlane)

theorem refused (hsound : Sound lanes desks ledger) (message : Incoming) :
    Sound lanes desks (ledger.noteOffer message false) where
  placed := hsound.placed
  calls := hsound.calls
  running := hsound.running
  owes := fun index p hp desk hdesk => (hsound.owes index p hp desk hdesk).refused message

theorem queued (hsound : Sound lanes desks ledger)
    (hdesk : desks (Lane.forKey message.peer lanes) = some desk) (hrunning : desk.running = true) :
    Sound lanes (Function.update desks (Lane.forKey message.peer lanes)
      (some { desk with waiting := desk.waiting ++ [message] })) (ledger.noteOffer message true) where
  placed := fun index found hfound => by
    rcases desk_of_update hfound with ⟨rfl, rfl⟩ | ⟨_, hold⟩
    · intro other hmem
      rw [Desk.load, ← List.append_assoc, List.mem_append, List.mem_singleton] at hmem
      rcases hmem with hmem | rfl
      · exact hsound.placed _ desk hdesk other hmem
      · rfl
    · exact hsound.placed index found hold
  calls := fun index found hfound => by
    rcases desk_of_update hfound with ⟨rfl, rfl⟩ | ⟨_, hold⟩
    · exact hsound.calls _ desk hdesk
    · exact hsound.calls index found hold
  running := fun index found hfound hstopped => by
    rcases desk_of_update hfound with ⟨rfl, rfl⟩ | ⟨_, hold⟩
    · rw [hrunning] at hstopped
      cases hstopped
    · exact hsound.running index found hold hstopped
  owes := fun index p hp found hfound => by
    rcases desk_of_update hfound with ⟨rfl, rfl⟩ | ⟨hother, hold⟩
    · exact (hsound.owes _ p hp desk hdesk).queued hrunning message
    · exact (hsound.owes index p hp found hold).offered_elsewhere (elsewhere hp rfl hother) true

theorem ended (hsound : Sound lanes desks ledger) (hdesk : desks index = some desk)
    (hcurrent : desk.current = []) (hleft : desk.left = []) :
    Sound lanes (Function.update desks index (some .closed)) ledger where
  placed := fun other found hfound => by
    rcases desk_of_update hfound with ⟨rfl, rfl⟩ | ⟨_, hold⟩
    · exact fun message hmem => absurd hmem List.not_mem_nil
    · exact hsound.placed other found hold
  calls := fun other found hfound => by
    rcases desk_of_update hfound with ⟨rfl, rfl⟩ | ⟨_, hold⟩
    · exact fun call hmem => absurd hmem List.not_mem_nil
    · exact hsound.calls other found hold
  running := fun other found hfound hstopped => by
    rcases desk_of_update hfound with ⟨rfl, rfl⟩ | ⟨_, hold⟩
    · rfl
    · exact hsound.running other found hold hstopped
  owes := fun other p hp found hfound => by
    rcases desk_of_update hfound with ⟨rfl, rfl⟩ | ⟨_, hold⟩
    · exact (hsound.owes other p hp desk hdesk).ended hcurrent hleft
    · exact hsound.owes other p hp found hold

theorem begun {begun : Begun} {rest : List Incoming} {running : Bool}
    (hsound : Sound lanes desks ledger)
    (hdesk : desks index = some ⟨begun.message :: rest, [], [], running⟩) :
    Sound lanes (Function.update desks index (some ⟨rest, [begun.message], begun.calls, running⟩))
      (ledger.noteBegun begun) := by
  have hplaced := hsound.placed index _ hdesk
  have hlane : Lane.forKey begun.message.peer lanes = index := hplaced _ List.mem_cons_self
  have hrunning : running = true := by
    by_contra hstopped
    exact List.cons_ne_nil _ _ (hsound.running index _ hdesk (Bool.eq_false_iff.mpr hstopped))
  refine ⟨fun other found hfound => ?_, fun other found hfound => ?_,
    fun other found hfound hstopped => ?_, fun other p hp found hfound => ?_⟩
  · rcases desk_of_update hfound with ⟨rfl, rfl⟩ | ⟨_, hold⟩
    · exact hplaced
    · exact hsound.placed other found hold
  · rcases desk_of_update hfound with ⟨rfl, rfl⟩ | ⟨_, hold⟩
    · intro call hmem
      obtain ⟨handler, _, rfl⟩ := List.mem_map.mp hmem
      exact hlane
    · exact hsound.calls other found hold
  · rcases desk_of_update hfound with ⟨rfl, rfl⟩ | ⟨_, hold⟩
    · rw [hrunning] at hstopped
      cases hstopped
    · exact hsound.running other found hold hstopped
  · rcases desk_of_update hfound with ⟨rfl, rfl⟩ | ⟨hother, hold⟩
    · exact (hsound.owes other p hp _ hdesk).begun hrunning
    · exact (hsound.owes other p hp found hold).begun_elsewhere (elsewhere hp hlane hother)

theorem called {call : Call} {left : List (Nat × Incoming)} (hsound : Sound lanes desks ledger)
    (hdesk : desks index = some desk) (hleft : desk.left = call.made :: left) :
    Sound lanes (Function.update desks index (some { desk with left := left }))
      (ledger.noteCall call) := by
  have hcalls := hsound.calls index desk hdesk
  rw [hleft] at hcalls
  have hlane : Lane.forKey call.message.peer lanes = index := hcalls call.made List.mem_cons_self
  refine ⟨fun other found hfound => ?_, fun other found hfound => ?_,
    fun other found hfound hstopped => ?_, fun other p hp found hfound => ?_⟩
  · rcases desk_of_update hfound with ⟨rfl, rfl⟩ | ⟨_, hold⟩
    · exact hsound.placed other desk hdesk
    · exact hsound.placed other found hold
  · rcases desk_of_update hfound with ⟨rfl, rfl⟩ | ⟨_, hold⟩
    · exact fun later hmem => hcalls later (List.mem_cons_of_mem _ hmem)
    · exact hsound.calls other found hold
  · rcases desk_of_update hfound with ⟨rfl, rfl⟩ | ⟨_, hold⟩
    · exact hsound.running other desk hdesk hstopped
    · exact hsound.running other found hold hstopped
  · rcases desk_of_update hfound with ⟨rfl, rfl⟩ | ⟨hother, hold⟩
    · exact (hsound.owes other p hp desk hdesk).called hleft
    · exact (hsound.owes other p hp found hold).called_elsewhere (elsewhere hp hlane hother)

theorem finished {waiting : List Incoming} {running : Bool} (hsound : Sound lanes desks ledger)
    (hdesk : desks index = some ⟨waiting, [message], [], running⟩) :
    Sound lanes (Function.update desks index (some ⟨waiting, [], [], running⟩))
      (ledger.noteDone message) := by
  have hplaced := hsound.placed index _ hdesk
  have hlane : Lane.forKey message.peer lanes = index := hplaced _ List.mem_cons_self
  refine ⟨fun other found hfound => ?_, fun other found hfound => ?_,
    fun other found hfound hstopped => ?_, fun other p hp found hfound => ?_⟩
  · rcases desk_of_update hfound with ⟨rfl, rfl⟩ | ⟨_, hold⟩
    · exact fun later hmem => hplaced later (List.mem_cons_of_mem _ hmem)
    · exact hsound.placed other found hold
  · rcases desk_of_update hfound with ⟨rfl, rfl⟩ | ⟨_, hold⟩
    · exact fun call hmem => absurd hmem List.not_mem_nil
    · exact hsound.calls other found hold
  · rcases desk_of_update hfound with ⟨rfl, rfl⟩ | ⟨_, hold⟩
    · exact absurd (hsound.running other _ hdesk hstopped) (List.cons_ne_nil _ _)
    · exact hsound.running other found hold hstopped
  · rcases desk_of_update hfound with ⟨rfl, rfl⟩ | ⟨hother, hold⟩
    · exact (hsound.owes other p hp _ hdesk).finished
    · exact (hsound.owes other p hp found hold).finished_elsewhere (elsewhere hp hlane hother)

theorem effect (hsound : Sound room.dispatcher.lanes.length room.desk? room.ledger)
    (heffect : Effect room desks ledger) :
    Sound room.dispatcher.lanes.length desks ledger := by
  cases heffect with
  | still hdesks hledger => rwa [hdesks, hledger]
  | refused message hdesks hledger =>
      rw [hdesks, hledger]
      exact hsound.refused message
  | queued message desk hdesk hrunning hdesks hledger =>
      rw [hdesks, hledger]
      exact hsound.queued hdesk hrunning
  | ended index desk hdesk hcurrent hleft _ hdesks hledger =>
      rw [hdesks, hledger]
      exact hsound.ended hdesk hcurrent hleft
  | begun index begun rest running hdesk hdesks hledger =>
      rw [hdesks, hledger]
      exact hsound.begun hdesk
  | called index desk call left hdesk hleft hdesks hledger =>
      rw [hdesks, hledger]
      exact hsound.called hdesk hleft
  | finished index waiting message running hdesk hdesks hledger =>
      rw [hdesks, hledger]
      exact hsound.finished hdesk

end Sound

end Workroom

end Peering
