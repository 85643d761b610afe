import Mathlib.Data.List.Perm.Basic
import Peering.Proofs.Dispatch.Desks
import Peering.Proofs.Lane

/-!
# What becomes of the messages

Nothing is lost between the desks: until the lanes are closed or told to end, every
message was dropped and counted, has been dispatched, or waits at the lane of its
peer.

Main statement: the messages of a peer are dispatched in the order in which they
were taken, each once, whatever the handlers do, and the counts agree.
-/

namespace Peering

namespace Workroom

variable {room : Workroom} {index : Nat} {ledger : Ledger}

/-! ## What only submissions, closing and the order to end change -/

structure KeepsTerms (room after : Workroom) : Prop where
  isOpen : after.dispatcher.isOpen = room.dispatcher.isOpen
  stopping : after.dispatcher.stopping = room.dispatcher.stopping
  dropped : after.dispatcher.dropped = room.dispatcher.dropped
  lanes : after.dispatcher.lanes.length = room.dispatcher.lanes.length
  offers : after.ledger.offers = room.ledger.offers

theorem KeepsTerms.refl (room : Workroom) : KeepsTerms room room :=
  ⟨rfl, rfl, rfl, rfl, rfl⟩

theorem receive_keepsTerms (room : Workroom) (index : Nat) :
    KeepsTerms room (room.receive index) := by
  unfold receive
  split
  · exact ⟨rfl, rfl, rfl, List.length_set, rfl⟩
  · exact .refl room

theorem look_keepsTerms (room : Workroom) (index : Nat) : KeepsTerms room (room.look index) := by
  unfold look
  split
  · exact ⟨rfl, rfl, rfl, List.length_set, rfl⟩
  · exact .refl room

theorem dispatch_keepsTerms (room : Workroom) (index : Nat) (table : HandlerTable) :
    KeepsTerms room (room.dispatch index table) := by
  unfold dispatch
  split
  · exact ⟨rfl, rfl, rfl, List.length_set, rfl⟩
  · exact .refl room

theorem call_keepsTerms (room : Workroom) (index : Nat) (outcome : Outcome) :
    KeepsTerms room (room.call index outcome) := by
  unfold call
  split
  · exact ⟨rfl, rfl, rfl, List.length_set, rfl⟩
  · exact .refl room

theorem finish_keepsTerms (room : Workroom) (index : Nat) :
    KeepsTerms room (room.finish index) := by
  unfold finish
  split
  · exact ⟨rfl, rfl, rfl, List.length_set, rfl⟩
  · exact .refl room

theorem leave_keepsTerms (room : Workroom) (index : Nat) : KeepsTerms room (room.leave index) := by
  unfold leave
  split
  · split
    · exact .refl room
    · exact ⟨rfl, rfl, rfl, List.length_set, rfl⟩
  · exact .refl room

theorem act_terms (room : Workroom) (step : Step) :
    (∃ message, step = .submit message) ∨ step = .close ∨ step = .cancel ∨
      KeepsTerms room (room.act step) := by
  cases step with
  | submit message => exact Or.inl ⟨message, rfl⟩
  | receive index => exact Or.inr (Or.inr (Or.inr (receive_keepsTerms room index)))
  | look index => exact Or.inr (Or.inr (Or.inr (look_keepsTerms room index)))
  | dispatch index table => exact Or.inr (Or.inr (Or.inr (dispatch_keepsTerms room index table)))
  | call index outcome => exact Or.inr (Or.inr (Or.inr (call_keepsTerms room index outcome)))
  | finish index => exact Or.inr (Or.inr (Or.inr (finish_keepsTerms room index)))
  | leave index => exact Or.inr (Or.inr (Or.inr (leave_keepsTerms room index)))
  | close => exact Or.inr (Or.inl rfl)
  | cancel => exact Or.inr (Or.inr (Or.inl rfl))

theorem submit_terms (dispatcher : Dispatcher) (message : Incoming) :
    (dispatcher.submit message).1.isOpen = dispatcher.isOpen ∧
      (dispatcher.submit message).1.stopping = dispatcher.stopping ∧
      (dispatcher.submit message).1.lanes.length = dispatcher.lanes.length := by
  rcases submit_cases dispatcher message with ⟨lane, _, _, heq⟩ | heq | ⟨heq, _⟩
  · rw [heq]
    exact ⟨rfl, rfl, List.length_set⟩
  · rw [heq]
    exact ⟨rfl, rfl, rfl⟩
  · rw [heq]
    exact ⟨rfl, rfl, rfl⟩

theorem act_lanes_length (room : Workroom) (step : Step) :
    (room.act step).dispatcher.lanes.length = room.dispatcher.lanes.length := by
  rcases act_terms room step with ⟨message, rfl⟩ | rfl | rfl | hterms
  · exact (submit_terms room.dispatcher message).2.2
  · rfl
  · rfl
  · exact hterms.lanes

theorem act_isOpen {step : Step} (hstep : step ≠ .close) :
    (room.act step).dispatcher.isOpen = room.dispatcher.isOpen := by
  rcases act_terms room step with ⟨message, rfl⟩ | rfl | rfl | hterms
  · exact (submit_terms room.dispatcher message).1
  · exact absurd rfl hstep
  · rfl
  · exact hterms.isOpen

theorem act_stopping {step : Step} (hstep : step ≠ .cancel) :
    (room.act step).dispatcher.stopping = room.dispatcher.stopping := by
  rcases act_terms room step with ⟨message, rfl⟩ | rfl | rfl | hterms
  · exact (submit_terms room.dispatcher message).2.1
  · rfl
  · exact absurd rfl hstep
  · exact hterms.stopping

/-! ## Counts while nothing is closed -/

/-- A dispatcher that takes messages: every thread runs, and what is refused is counted. -/
structure Serves (room : Workroom) : Prop where
  isOpen : room.dispatcher.isOpen = true
  stopping : room.dispatcher.stopping = false
  lanes : 0 < room.dispatcher.lanes.length
  running : ∀ index desk, room.desk? index = some desk → desk.running = true
  dropped : room.dispatcher.dropped = room.ledger.refused.length

/-- A lane that runs refuses a message only by counting it as dropped. -/
theorem Serves.submit_dropped (hserves : Serves room) (message : Incoming) :
    (room.dispatcher.submit message).1.dropped =
      room.dispatcher.dropped + if (room.dispatcher.submit message).2 then 0 else 1 := by
  rcases submit_cases room.dispatcher message with ⟨lane, _, _, heq⟩ | heq | ⟨heq, hwhy⟩
  · rw [heq]
    rfl
  · rw [heq]
    rfl
  · exfalso
    rcases hwhy with hclosed | hstopped
    · rw [hserves.isOpen] at hclosed
      cases hclosed
    · have hbound : Lane.forKey message.peer room.dispatcher.lanes.length <
          room.dispatcher.lanes.length := Lane.forKey_lt hserves.lanes message.peer
      have hlane := List.getElem?_eq_getElem hbound
      have hrunning := hserves.running _ _ (desk?_of_lane hlane)
      have hending := hstopped _ hlane
      unfold Desk.of at hrunning
      split at hrunning <;> simp [hending] at hrunning

theorem Effect.running {after : Nat → Option Desk} (heffect : Effect room after ledger)
    (hserves : Serves room) {desk : Desk} (hdesk : after index = some desk) :
    desk.running = true := by
  have hbefore := hserves.running
  cases heffect with
  | still hdesks => exact hbefore index desk (hdesks ▸ hdesk)
  | refused message hdesks => exact hbefore index desk (hdesks ▸ hdesk)
  | queued message old hold hrunning hdesks =>
      rw [hdesks] at hdesk
      rcases desk_of_update hdesk with ⟨_, rfl⟩ | ⟨_, hother⟩
      · exact hrunning
      · exact hbefore index desk hother
  | ended other old hold _ _ hending =>
      rcases hending with hstopping | hclosed
      · rw [hserves.stopping] at hstopping
        cases hstopping
      · rw [hserves.isOpen] at hclosed
        cases hclosed
  | begun other begun rest running hold hdesks =>
      rw [hdesks] at hdesk
      rcases desk_of_update hdesk with ⟨_, rfl⟩ | ⟨_, hother⟩
      · have hrunning := hbefore other _ hold
        exact hrunning
      · exact hbefore index desk hother
  | called other old call left hold _ hdesks =>
      rw [hdesks] at hdesk
      rcases desk_of_update hdesk with ⟨_, rfl⟩ | ⟨_, hother⟩
      · exact hbefore other old hold
      · exact hbefore index desk hother
  | finished other waiting message running hold hdesks =>
      rw [hdesks] at hdesk
      rcases desk_of_update hdesk with ⟨_, rfl⟩ | ⟨_, hother⟩
      · have hrunning := hbefore other _ hold
        exact hrunning
      · exact hbefore index desk hother

theorem Serves.act (hserves : Serves room) {step : Step} (hclose : step ≠ .close)
    (hcancel : step ≠ .cancel) : Serves (room.act step) where
  isOpen := (act_isOpen hclose).trans hserves.isOpen
  stopping := (act_stopping hcancel).trans hserves.stopping
  lanes := by
    rw [act_lanes_length]
    exact hserves.lanes
  running := fun _ _ hdesk => (act_effect room step).running hserves hdesk
  dropped := by
    rcases act_terms room step with ⟨message, rfl⟩ | rfl | rfl | hterms
    · refine (hserves.submit_dropped message).trans ?_
      show _ = (room.ledger.noteOffer message (room.dispatcher.submit message).2).refused.length
      rw [Ledger.refused_noteOffer, List.length_append, hserves.dropped]
      split <;> rfl
    · exact absurd rfl hclose
    · exact absurd rfl hcancel
    · rw [hterms.dropped, hserves.dropped, Ledger.refused, Ledger.refused, hterms.offers]

/-! ## Sums over the lanes -/

/-- What lies below a bound is what lies at each place below it. -/
theorem flatMap_range_filter_perm {A : Type} (key : A → Nat) (items : List A) (bound : Nat) :
    ((List.range bound).flatMap fun index => items.filter (key · == index)).Perm
      (items.filter (key · < bound)) := by
  induction bound with
  | zero => simp
  | succ bound ih =>
      have hsplit := List.filter_append_perm (fun item => decide (key item < bound))
        (items.filter (key · < bound + 1))
      rw [List.filter_filter, List.filter_filter] at hsplit
      have hbelow : items.filter (fun item => decide (key item < bound) &&
          decide (key item < bound + 1)) = items.filter (key · < bound) := by
        refine List.filter_congr fun item _ => ?_
        rw [← Bool.decide_and, decide_eq_decide]
        omega
      have hlast : items.filter (fun item => (!decide (key item < bound)) &&
          decide (key item < bound + 1)) = items.filter (key · == bound) := by
        refine List.filter_congr fun item _ => ?_
        rw [Bool.eq_iff_iff]
        simp
        omega
      rw [hbelow, hlast] at hsplit
      rw [List.range_succ, List.flatMap_append, List.flatMap_singleton]
      exact (ih.append_right _).trans hsplit

theorem flatMap_lanes_perm {lanes : Nat} (hlanes : 0 < lanes) (messages : List Incoming) :
    ((List.range lanes).flatMap fun index =>
      messages.filter (Lane.forKey ·.peer lanes == index)).Perm messages := by
  have hparts := flatMap_range_filter_perm (fun message : Incoming =>
    Lane.forKey message.peer lanes) messages lanes
  have hall : messages.filter (Lane.forKey ·.peer lanes < lanes) = messages :=
    List.filter_eq_self.mpr fun message _ => by
      rw [decide_eq_true_iff]
      exact Lane.forKey_lt hlanes message.peer
  rw [hall] at hparts
  exact hparts

/-- What falls into two parts at every lane falls into these parts altogether. -/
theorem gather_perm {whole front : List Incoming} {part : Desk → List Incoming}
    (hlanes : 0 < room.dispatcher.lanes.length)
    (hplaced : ∀ index desk, room.desk? index = some desk → ∀ message ∈ part desk,
      Lane.forKey message.peer room.dispatcher.lanes.length = index)
    (hparts : ∀ index desk, room.desk? index = some desk → ∀ p : Incoming → Bool,
      (∀ message, p message = true →
        Lane.forKey message.peer room.dispatcher.lanes.length = index) →
      whole.filter p = front.filter p ++ (part desk).filter p) :
    whole.Perm (front ++ room.gather part) := by
  have hlane : ∀ index ∈ List.range room.dispatcher.lanes.length,
      (whole.filter (Lane.forKey ·.peer room.dispatcher.lanes.length == index)).Perm
      (front.filter (Lane.forKey ·.peer room.dispatcher.lanes.length == index) ++
        (room.desk? index).toList.flatMap part) := by
    intro index hmem
    obtain ⟨desk, hdesk⟩ : ∃ desk, room.desk? index = some desk :=
      ⟨_, desk?_of_lane (List.getElem?_eq_getElem (List.mem_range.mp hmem))⟩
    have hall : (part desk).filter (Lane.forKey ·.peer room.dispatcher.lanes.length == index) =
        part desk :=
      List.filter_eq_self.mpr fun message hmem =>
        beq_iff_eq.mpr (hplaced index desk hdesk message hmem)
    have hsplit := hparts index desk hdesk
      (Lane.forKey ·.peer room.dispatcher.lanes.length == index)
      (fun message hkey => beq_iff_eq.mp hkey)
    rw [hsplit, hall, hdesk]
    simp
  have hsum := List.flatMap_append_perm (List.range room.dispatcher.lanes.length)
    (fun index => front.filter (Lane.forKey ·.peer room.dispatcher.lanes.length == index))
    (fun index => (room.desk? index).toList.flatMap part)
  exact (flatMap_lanes_perm hlanes whole).symm.trans
    ((List.Perm.flatMap_left _ hlane).trans (hsum.symm.trans
      ((flatMap_lanes_perm hlanes front).append_right _)))

namespace Sound

/-- What has been dispatched is done, or its handlers are being called. -/
theorem dispatched_perm (hsound : Sound room.dispatcher.lanes.length room.desk? room.ledger)
    (hlanes : 0 < room.dispatcher.lanes.length) :
    room.ledger.dispatched.Perm (room.ledger.done ++ room.gather Desk.current) :=
  gather_perm hlanes
    (fun index desk hdesk message hmem =>
      hsound.placed index desk hdesk message (List.mem_append_left _ hmem))
    fun index desk hdesk p hp => (hsound.owes index p hp desk hdesk).done

/-- While every thread runs, what was taken is dispatched or waits. -/
theorem accepted_perm (hsound : Sound room.dispatcher.lanes.length room.desk? room.ledger)
    (hserves : Serves room) :
    room.ledger.accepted.Perm (room.ledger.dispatched ++ room.gather Desk.waiting) :=
  gather_perm hserves.lanes
    (fun index desk hdesk message hmem =>
      hsound.placed index desk hdesk message (List.mem_append_right _ hmem))
    fun index desk hdesk p hp =>
      (hsound.owes index p hp desk hdesk).stream (hserves.running index desk hdesk)

end Sound

/-! ## Every run -/

theorem desk?_opening {lanes capacity : Nat} (hdesk : (opening lanes capacity).desk? index = some desk) :
    desk = ⟨[], [], [], true⟩ := by
  obtain ⟨lane, hlane, rfl⟩ := Option.map_eq_some_iff.mp hdesk
  obtain rfl := (List.mem_replicate.mp (List.mem_of_getElem? hlane)).2
  rfl

theorem sound_opening (lanes capacity : Nat) :
    Sound lanes (opening lanes capacity).desk? (opening lanes capacity).ledger where
  placed := fun index desk hdesk message hmem => by
    rw [desk?_opening hdesk] at hmem
    exact absurd hmem List.not_mem_nil
  calls := fun index desk hdesk call hmem => by
    rw [desk?_opening hdesk] at hmem
    exact absurd hmem List.not_mem_nil
  running := fun index desk hdesk hstopped => by
    rw [desk?_opening hdesk] at hstopped
    cases hstopped
  owes := fun index p _ desk hdesk => by
    rw [desk?_opening hdesk]
    exact ⟨fun _ => rfl, List.prefix_rfl, rfl, rfl⟩

theorem serves_opening {lanes : Nat} (hlanes : 0 < lanes) (capacity : Nat) :
    Serves (opening lanes capacity) where
  isOpen := rfl
  stopping := rfl
  lanes := by
    rw [opening, Dispatcher.create, List.length_replicate]
    exact hlanes
  running := fun index desk hdesk => by rw [desk?_opening hdesk]
  dropped := rfl

theorem run_sound (lanes capacity : Nat) (steps : List Step) :
    let room := (opening lanes capacity).run steps
    room.dispatcher.lanes.length = lanes ∧
      Sound room.dispatcher.lanes.length room.desk? room.ledger := by
  refine run_induction (P := fun room => room.dispatcher.lanes.length = lanes ∧
    Sound room.dispatcher.lanes.length room.desk? room.ledger) ?_ ?_ steps
  · have hlength : (opening lanes capacity).dispatcher.lanes.length = lanes :=
      List.length_replicate
    rw [hlength]
    exact ⟨rfl, sound_opening lanes capacity⟩
  · rintro room step ⟨hlength, hsound⟩
    rw [act_lanes_length]
    exact ⟨hlength, hsound.effect (act_effect room step)⟩

theorem Serves.run (hserves : Serves room) {steps : List Step} (hclose : .close ∉ steps)
    (hcancel : .cancel ∉ steps) : Serves (room.run steps) := by
  induction steps generalizing room with
  | nil => exact hserves
  | cons step rest ih =>
      refine ih (hserves.act ?_ ?_) (fun hmem => hclose (List.mem_cons_of_mem _ hmem))
        (fun hmem => hcancel (List.mem_cons_of_mem _ hmem))
      · rintro rfl
        exact hclose List.mem_cons_self
      · rintro rfl
        exact hcancel List.mem_cons_self

theorem run_isOpen_of_closed (hclosed : room.dispatcher.isOpen = false) (steps : List Step) :
    (room.run steps).dispatcher.isOpen = false := by
  refine run_induction (P := fun room => room.dispatcher.isOpen = false) hclosed ?_ steps
  intro room step hclosed
  by_cases hstep : step = .close
  · rw [hstep]
    rfl
  · rw [act_isOpen hstep, hclosed]

theorem run_isOpen_of_close {steps : List Step} (hclose : .close ∈ steps) :
    (room.run steps).dispatcher.isOpen = false := by
  obtain ⟨before, after, rfl⟩ := List.append_of_mem hclose
  show ((before ++ .close :: after).foldl act room).dispatcher.isOpen = false
  rw [List.foldl_append]
  exact run_isOpen_of_closed rfl after

theorem submit_of_closed {dispatcher : Dispatcher} (hclosed : dispatcher.isOpen = false)
    (message : Incoming) : dispatcher.submit message = (dispatcher, false) := by
  simp [Dispatcher.submit, hclosed]

/--
However the submissions, the threads, the outcomes of the handlers, closing and the
order to end fall together: the messages of a peer are dispatched in the order in
which they were taken, each once, and the calls for them are made in that order,
whatever comes of a call. Until the lanes are closed or told to end, every message
that was submitted has been dropped, has been dispatched or waits, a submission
fails exactly if it is counted as dropped, and the counts agree. Once the lanes are
closed a submission changes nothing.
-/
theorem run_dispatches_in_order (lanes capacity : Nat) (hlanes : 0 < lanes) (steps : List Step) :
    let room := (opening lanes capacity).run steps
    let ledger := room.ledger
    (∀ peer,
      ledger.dispatched.filter (·.peer == peer) <+: ledger.accepted.filter (·.peer == peer) ∧
      ledger.done.filter (·.peer == peer) <+: ledger.dispatched.filter (·.peer == peer) ∧
      (ledger.calls.map Call.made).filter (·.2.peer == peer) <+:
        (ledger.begun.flatMap Begun.calls).filter (·.2.peer == peer)) ∧
    (.close ∉ steps → .cancel ∉ steps →
      (ledger.offers.map (·.1)).Perm
        (ledger.refused ++ (ledger.dispatched ++ room.gather Desk.waiting)) ∧
      ledger.dispatched.Perm (ledger.done ++ room.gather Desk.current) ∧
      ledger.refused.length = room.dispatcher.dropped ∧
      ledger.offers.length =
        room.dispatcher.dropped + ledger.dispatched.length + (room.gather Desk.waiting).length ∧
      ∀ message, (room.dispatcher.submit message).1.dropped =
        room.dispatcher.dropped + if (room.dispatcher.submit message).2 then 0 else 1) ∧
    (.close ∈ steps → ∀ message,
      room.dispatcher.submit message = (room.dispatcher, false)) := by
  intro room ledger
  obtain ⟨hlength, hsound⟩ := run_sound lanes capacity steps
  refine ⟨fun peer => ?_, fun hclose hcancel => ?_,
    fun hclose => submit_of_closed (run_isOpen_of_close hclose)⟩
  · have hbound : Lane.forKey peer room.dispatcher.lanes.length < room.dispatcher.lanes.length :=
      Lane.forKey_lt (hlength ▸ hlanes) peer
    obtain ⟨desk, hdesk⟩ : ∃ desk,
        room.desk? (Lane.forKey peer room.dispatcher.lanes.length) = some desk :=
      ⟨_, desk?_of_lane (List.getElem?_eq_getElem hbound)⟩
    have howes := hsound.owes _ (·.peer == peer)
      (fun message hpeer => by rw [beq_iff_eq.mp hpeer]) desk hdesk
    exact ⟨howes.front, ⟨_, howes.done.symm⟩, ⟨_, howes.calls.symm⟩⟩
  · have hserves := (serves_opening hlanes capacity).run hclose hcancel
    have hperm := ledger.offers_perm.trans ((hsound.accepted_perm hserves).append_left _)
    refine ⟨hperm, hsound.dispatched_perm hserves.lanes, hserves.dropped.symm, ?_,
      hserves.submit_dropped⟩
    have hcount := hperm.length_eq
    simp only [List.length_map, List.length_append] at hcount
    rw [hcount, hserves.dropped, Nat.add_assoc]

/-- A frame of one peer, for a handler that panics. -/
def knock (byte : UInt8) : Incoming :=
  ⟨7, "a", 1, ⟨2, 0⟩, [byte]⟩

def panicking : HandlerTable :=
  HandlerTable.empty.register [⟨1, 1, ⟨2, 0⟩, fun _ => .panicked, .ok⟩]

/-- The second frame takes the place of the first in the queue, the third finds none. -/
def crowded : List Step :=
  let index := Lane.forKey 7 2
  [.submit (knock 0), .receive index, .submit (knock 1), .submit (knock 2), .look index,
    .dispatch index panicking, .call index .panicked, .finish index, .receive index]

theorem run_dispatches_in_order_of_crowded :
    let room := (opening 2 1).run crowded
    0 < 2 ∧ .close ∉ crowded ∧ .cancel ∉ crowded ∧
      room.ledger.dispatched.filter (·.peer == 7) <+: room.ledger.accepted.filter (·.peer == 7) ∧
      room.ledger.done = [knock 0] ∧ room.ledger.accepted = [knock 0, knock 1] ∧
      room.ledger.offers.length = 1 + 1 + (room.gather Desk.waiting).length := by
  intro room
  have hclose : .close ∉ crowded := by simp [crowded]
  have hcancel : .cancel ∉ crowded := by simp [crowded]
  obtain ⟨horder, hcounts, _⟩ := run_dispatches_in_order 2 1 (by decide) crowded
  have hdropped : room.dispatcher.dropped = 1 := by decide +kernel
  have hdispatched : room.ledger.dispatched.length = 1 := by decide +kernel
  have hoffers := (hcounts hclose hcancel).2.2.2.1
  rw [hdropped, hdispatched] at hoffers
  exact ⟨by decide, hclose, hcancel, (horder 7).1, by decide +kernel, by decide +kernel, hoffers⟩

end Workroom

end Peering
