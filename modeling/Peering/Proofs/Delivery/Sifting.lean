import Peering.Proofs.Delivery.Sparing

/-!
# A run without its stale messages

A run is sifted: what will be found stale is not handed in, and the distributor and
the lanes do not take it. All other steps are done in the same order.

Main statement: as long as no message finds its queue full, the sifted run comes
to just what is left of the full one, and shows the same but for the calls with
stale messages and their end.
-/

namespace Peering

/-- The message that a note says was found stale. -/
def Note.stale? : Note → Option Message
  | .settled message .stale => some message
  | _ => none

/-- Whether a note says that a message found the send queue or the queue of its lane full. -/
def Note.isOverflow : Note → Bool
  | .settled _ .refused => true
  | .settled _ .laneFull => true
  | _ => false

/-! ## Outboxes -/

theorem WriterLane.spared_concat (doomed : Nat → Bool) (lane : WriterLane) (message : Message) :
    WriterLane.spared doomed { lane with queue := lane.queue ++ [message] } =
      { lane.spared doomed with
        queue := (lane.spared doomed).queue ++
          if doomed lane.queue.length then [] else [message] } := by
  simp only [WriterLane.spared, spare_concat]

namespace Outbox

variable {outbox : Outbox} {index : Nat} {lane : WriterLane}

theorem setLane_self (hlane : outbox.lane? index = some lane) :
    outbox.setLane index lane = outbox := by
  obtain ⟨hindex, rfl⟩ := List.getElem?_eq_some_iff.mp hlane
  simp [setLane]

theorem setLane_setLane (outbox : Outbox) (index : Nat) (lane later : WriterLane) :
    (outbox.setLane index lane).setLane index later = outbox.setLane index later := by
  simp [setLane]

theorem spared_concat (doomed : Spot → Bool) (outbox : Outbox) (message : Message) :
    spared doomed { outbox with queue := outbox.queue ++ [message] } =
      { outbox.spared doomed with
        queue := (outbox.spared doomed).queue ++
          if doomed (.queue outbox.queue.length) then [] else [message] } := by
  simp only [spared, spare_concat]

/-- What moves only the messages of one lane changes only what is left of that lane. -/
theorem spared_turn {later : Spot → Bool} {move : Spot → Spot}
    (hlane : outbox.lane? index = some lane)
    (hqueue : ∀ position, move (.queue position) = .queue position)
    (hothers : ∀ other, other ≠ index → ∀ position,
      move (.lane other position) = .lane other position) :
    outbox.spared (later ∘ move) = (outbox.spared later).setLane index
      (lane.spared fun position => later (move (.lane index position))) := by
  have hlist : ∀ other, (outbox.spared (later ∘ move)).lane? other =
      ((outbox.spared later).setLane index
        (lane.spared fun position => later (move (.lane index position)))).lane? other := by
    intro other
    rw [lane?_setLane ((lane?_spared later _ index).trans (congrArg _ hlane)), lane?_spared,
      lane?_spared]
    by_cases hother : other = index
    · subst hother
      rw [if_pos rfl, hlane]
      rfl
    · simp only [if_neg hother, Function.comp_apply, hothers other hother]
  have hlanes := List.ext_getElem? hlist
  simp only [spared, setLane, Function.comp_apply, hqueue] at hlanes ⊢
  rw [hlanes]

/-- Nothing that could be doomed outlives a stop. -/
theorem spared_stop (doomed later : Spot → Bool) (outbox : Outbox) :
    (outbox.spared doomed).stop = outbox.stop.spared later := by
  have hlanes : (outbox.spared doomed).stop.lanes = (outbox.stop.spared later).lanes := by
    refine List.ext_getElem? fun index => ?_
    simp only [stop, spared, List.getElem?_map, List.getElem?_mapIdx]
    cases outbox.lanes[index]? <;> rfl
  simp only [stop, spared] at hlanes ⊢
  rw [hlanes]
  rfl

end Outbox

namespace Pipeline

variable {pipeline : Pipeline} {later : Spot → Bool} {message : Message} {index : Nat}
  {lane : WriterLane}

/-! ## Moves, and what they leave -/

section Moves

variable {move : Spot → Spot}

/-- What moves no message out of the hand of a lane. -/
theorem spared_moved {outbox : Outbox} (houtbox : pipeline.outbox.spared (later ∘ move) = outbox)
    (hhands : ∀ index, move (.hand index) = .hand index) :
    pipeline.spared (later ∘ move) = ((pipeline.spared later).withOutbox outbox).holdDistributor
      (if later (move .distributor) then none else pipeline.distributor) := by
  subst houtbox
  simp only [spared, Function.comp_apply, hhands]
  rfl

/-- What moves only the messages of one lane. -/
theorem spared_turn {outbox : Outbox} (houtbox : pipeline.outbox.spared (later ∘ move) = outbox)
    (hdistributor : move .distributor = .distributor)
    (hothers : ∀ other, other ≠ index → move (.hand other) = .hand other) :
    pipeline.spared (later ∘ move) = ((pipeline.spared later).withOutbox outbox).holdLane index
      ((pipeline.laneHand index).spared (later (move (.hand index)))) := by
  subst houtbox
  simp only [spared, holdLane, withOutbox, withTransport, Pipeline.mk.injEq, Function.comp_apply,
    hdistributor, true_and, and_true]
  refine ⟨rfl, funext fun other => ?_⟩
  split
  · rename_i hother
    rw [hother]
  · rename_i hother
    rw [hothers other hother]

/-- What moves only places where no message is. -/
theorem spared_still
    (hqueue : pipeline.outbox.queue = [] ∨ ∀ position, move (.queue position) = .queue position)
    (hdistributor : pipeline.distributor = none ∨ move .distributor = .distributor)
    (hlanes : ∀ index, (∀ lane ∈ pipeline.outbox.lane? index, lane.queue = []) ∨
      ∀ position, move (.lane index position) = .lane index position)
    (hhands : ∀ index, move (.hand index) = .hand index) :
    pipeline.spared (later ∘ move) = pipeline.spared later := by
  have hlist : ∀ index, (pipeline.outbox.spared (later ∘ move)).lane? index =
      (pipeline.outbox.spared later).lane? index := by
    intro index
    simp only [Outbox.lane?_spared, Function.comp_apply]
    rcases hlanes index with hnone | hstill
    · cases hlane : pipeline.outbox.lane? index with
      | none => rfl
      | some lane => simp [WriterLane.spared, hnone lane hlane, spare]
    · simp only [hstill]
  have houtbox : pipeline.outbox.spared (later ∘ move) = pipeline.outbox.spared later := by
    have hlanes := List.ext_getElem? hlist
    simp only [Outbox.spared, Function.comp_apply] at hlanes ⊢
    rw [hlanes]
    rcases hqueue with hnil | hstill
    · simp only [hnil, spare]
    · simp only [hstill]
  rw [spared_moved houtbox hhands]
  rcases hdistributor with hnone | hstill
  · simp only [spared, hnone, ite_self]
    rfl
  · rw [hstill]
    rfl

end Moves

/-- What is left of a lane that is there. -/
theorem lane?_spared_of_some (hlane : pipeline.outbox.lane? index = some lane) :
    (pipeline.spared later).outbox.lane? index =
      some (lane.spared fun position => later (.lane index position)) := by
  rw [lane?_spared, hlane]
  rfl

/-! ## Steps that are sifted -/

/--
Whether a step stays in the run. It does not if it would move a doomed message, nor
if it finds a hand full that is empty without the doomed.
-/
def keeps (pipeline : Pipeline) (later : Spot → Bool) : Step → Bool
  | .send message =>
      !((pipeline.outbox.send message).2 && later (.queue pipeline.outbox.queue.length))
  | .pull => pipeline.distributor.isNone && !later .distributor
  | .pick index => decide (pipeline.laneHand index = .empty) && !later (.hand index)
  | _ => true

/-- A step that stays does to what is left what it does to the whole; one that does not, nothing. -/
structure Sifts (pipeline : Pipeline) (later : Spot → Bool) (step : Step) : Prop where
  kept : pipeline.keeps later step = true →
    (pipeline.spared (later ∘ pipeline.move step)).act step =
      ((pipeline.act step).1.spared later,
        (pipeline.act step).2.filter fun note => note.stale?.isNone)
  dropped : pipeline.keeps later step = false →
    pipeline.spared (later ∘ pipeline.move step) = (pipeline.act step).1.spared later ∧
      (pipeline.act step).2 = step.sent?.toList.map (.called · true)

/-- A step that always stays. -/
theorem Sifts.of_kept {step : Step} (hkeeps : pipeline.keeps later step = true)
    (hact : (pipeline.spared (later ∘ pipeline.move step)).act step =
      ((pipeline.act step).1.spared later,
        (pipeline.act step).2.filter fun note => note.stale?.isNone)) :
    pipeline.Sifts later step where
  kept _ := hact
  dropped hdropped := by
    rw [hkeeps] at hdropped
    cases hdropped

theorem Sifts.of_spares {step : Step} (hkeeps : pipeline.keeps later step = true)
    (hmove : pipeline.move step = id) (hspares : Spares later pipeline step)
    (hstale : (pipeline.act step).2.filterMap Note.stale? = []) : pipeline.Sifts later step := by
  have hall : (pipeline.act step).2.filter (fun note => note.stale?.isNone) =
      (pipeline.act step).2 :=
    List.filter_eq_self.mpr fun note hnote =>
      Option.isNone_iff_eq_none.mpr (List.filterMap_eq_nil_iff.mp hstale note hnote)
  refine .of_kept hkeeps ?_
  rw [hmove, hall]
  exact hspares

/-! ### Handing in -/

theorem send_taken (hfits : ¬ pipeline.outbox.limits.maxBody < message.frame.payload.length)
    (hgoing : ¬ pipeline.outbox.stopped = true)
    (hroom : ¬ pipeline.outbox.limits.sendQueue ≤ pipeline.outbox.queue.length) :
    pipeline.send message =
      (pipeline.withOutbox { pipeline.outbox with queue := pipeline.outbox.queue ++ [message] },
        [.called message true]) := by
  simp [send, refusal, Outbox.send, hfits, hgoing, hroom]

/-- What is handed in has not been judged. -/
theorem stale?_send (pipeline : Pipeline) (message : Message) :
    (pipeline.send message).2.filterMap Note.stale? = [] := by
  simp only [send, refusal]
  split
  · rfl
  split
  · rfl
  · split <;> rfl

theorem sifts_send (message : Message)
    (hroom : (pipeline.send message).2.any Note.isOverflow = false) :
    pipeline.Sifts later (.send message) := by
  have hlimits : (pipeline.spared later).outbox.limits = pipeline.outbox.limits := rfl
  have hstopped : (pipeline.spared later).outbox.stopped = pipeline.outbox.stopped := rfl
  by_cases hlong : pipeline.outbox.limits.maxBody < message.frame.payload.length
  · refine .of_spares ?_ rfl ?_ (stale?_send pipeline message)
    · simp [keeps, Outbox.send, hlong]
    · simp only [Spares, act, send, refusal, Outbox.send, hlimits, hlong, if_true,
        spared_withOutbox, Outbox.spared_count, implies_true]
      rfl
  by_cases hstop : pipeline.outbox.stopped = true
  · refine .of_spares ?_ rfl ?_ (stale?_send pipeline message)
    · simp [keeps, Outbox.send, hlong, hstop]
    · simp only [Spares, act, send, refusal, Outbox.send, hlimits, hlong, hstopped, hstop, if_true,
        if_false]
      rfl
  have hfits : ¬ pipeline.outbox.limits.sendQueue ≤ pipeline.outbox.queue.length := by
    intro hfull
    simp [send, refusal, hlong, hstop, hfull, Note.isOverflow] at hroom
  have hsparedFits : ¬ (pipeline.spared later).outbox.limits.sendQueue ≤
      (pipeline.spared later).outbox.queue.length :=
    fun hfull => hfits (Nat.le_trans hfull (length_spare_le _ _))
  have hkeeps : pipeline.keeps later (.send message) =
      !later (.queue pipeline.outbox.queue.length) := by
    simp [keeps, Outbox.send, hlong, hstop, hfits]
  have hsend := send_taken hlong hstop hfits
  constructor
  · intro hkept
    have hstays : later (.queue pipeline.outbox.queue.length) = false := by
      simpa [hkeeps] using hkept
    have hspared : (pipeline.spared later).send message = _ :=
      send_taken hlong hstop hsparedFits
    simp only [act, hsend, spared_withOutbox, Outbox.spared_concat, hstays]
    exact hspared
  · intro hdropped
    have hdoomed : later (.queue pipeline.outbox.queue.length) = true := by
      simpa [hkeeps] using hdropped
    simp only [act, hsend, spared_withOutbox, Outbox.spared_concat, hdoomed, if_true,
      List.append_nil]
    exact ⟨rfl, rfl⟩

/-! ### The distributor -/

theorem pull_of_queue {rest : List Message} (hhand : pipeline.distributor = none)
    (hqueue : pipeline.outbox.queue = message :: rest) :
    pipeline.pull = ((pipeline.withOutbox { pipeline.outbox with queue := rest }).holdDistributor
      (some message), []) := by
  simp [pull, hhand, hqueue]

theorem movePull_lane (index position : Nat) :
    pipeline.movePull (.lane index position) = .lane index position :=
  ite_self _

theorem movePull_hand (index : Nat) : pipeline.movePull (.hand index) = .hand index :=
  ite_self _

theorem movePull_queue (hhand : pipeline.distributor = none) :
    pipeline.movePull (.queue 0) = .distributor ∧
      ∀ position, pipeline.movePull (.queue (position + 1)) = .queue position := by
  simp [movePull, hhand]

/-- The distributor takes a message. -/
theorem spared_movePull {rest : List Message} (hhand : pipeline.distributor = none)
    (hqueue : pipeline.outbox.queue = message :: rest) :
    pipeline.spared (later ∘ pipeline.movePull) =
      (((pipeline.spared later).withOutbox { (pipeline.spared later).outbox with
        queue := (if later .distributor then [] else [message]) ++
          spare (fun position => later (.queue position)) rest }).holdDistributor none) := by
  obtain ⟨hfirst, hnext⟩ := movePull_queue hhand
  have houtbox : pipeline.outbox.spared (later ∘ pipeline.movePull) =
      { (pipeline.spared later).outbox with
        queue := (if later .distributor then [] else [message]) ++
          spare (fun position => later (.queue position)) rest } := by
    simp only [Outbox.spared, Function.comp_apply, movePull_lane, outbox_spared, hqueue, spare,
      hfirst, hnext]
    split <;> rfl
  rw [spared_moved houtbox movePull_hand, hhand, ite_self]

theorem sifts_pull : pipeline.Sifts later .pull := by
  cases hhand : pipeline.distributor with
  | some message =>
      have hmove : pipeline.move .pull = id := by
        funext spot
        simp [move, movePull, hhand]
      constructor
      · intro hkept
        simp [keeps, hhand] at hkept
      · intro _
        rw [hmove]
        simp [act, pull, hhand, Step.sent?]
  | none =>
      cases hqueue : pipeline.outbox.queue with
      | nil =>
          have hsame : pipeline.spared (later ∘ pipeline.movePull) = pipeline.spared later :=
            spared_still (.inl hqueue) (.inl hhand) (fun index => .inr (movePull_lane index))
              movePull_hand
          have hstill : pipeline.pull = (pipeline, []) := by simp [pull, hqueue]
          constructor
          · intro _
            simp only [act, move, hsame, hstill]
            simp [pull, outbox_spared, Outbox.spared, hqueue, spare]
          · intro _
            simp only [act, move, hsame, hstill]
            exact ⟨trivial, rfl⟩
      | cons message rest =>
          have hpull := pull_of_queue hhand hqueue
          constructor
          · intro hkept
            have hstays : later .distributor = false := by simpa [keeps, hhand] using hkept
            simp only [act, move, spared_movePull hhand hqueue, hpull, hstays,
              spared_holdDistributor]
            exact pull_of_queue rfl rfl
          · intro hdropped
            have hdoomed : later .distributor = true := by simpa [keeps, hhand] using hdropped
            simp only [act, move, spared_movePull hhand hqueue, hpull, hdoomed,
              spared_holdDistributor]
            exact ⟨rfl, rfl⟩

theorem movePass_of_ne {spot : Spot} (hspot : spot ≠ .distributor) :
    pipeline.movePass spot = spot := by
  unfold movePass
  split
  · exact absurd rfl hspot
  · rfl

theorem pass_empty (hhand : pipeline.distributor = none) : pipeline.pass = (pipeline, []) := by
  simp [pass, hhand]

theorem pass_of_none (hhand : pipeline.distributor = some message)
    (hlane : pipeline.outbox.lane? (message.dest.lane pipeline.outbox.lanes.length) = none) :
    pipeline.pass = (pipeline.holdDistributor none, []) := by
  simp only [pass, hhand, Outbox.enterLane, isLaneFull, hlane]
  rfl

theorem pass_of_lane (hhand : pipeline.distributor = some message)
    (hindex : message.dest.lane pipeline.outbox.lanes.length = index)
    (hlane : pipeline.outbox.lane? index = some lane)
    (hroom : ¬ pipeline.outbox.limits.laneQueue ≤ lane.queue.length) :
    pipeline.pass = ((pipeline.withOutbox (pipeline.outbox.setLane index
      { lane with queue := lane.queue ++ [message] })).holdDistributor none, []) := by
  simp [pass, hhand, Outbox.enterLane, isLaneFull, hindex, hlane, hroom]

theorem movePass_distributor (hhand : pipeline.distributor = some message) :
    pipeline.movePass .distributor = pipeline.landing message := by
  simp [movePass, hhand]

theorem landing_of_none
    (hlane : pipeline.outbox.lane? (message.dest.lane pipeline.outbox.lanes.length) = none) :
    pipeline.landing message = .past false := by
  simp only [landing, hlane]

theorem landing_of_full (hindex : message.dest.lane pipeline.outbox.lanes.length = index)
    (hlane : pipeline.outbox.lane? index = some lane)
    (hfull : pipeline.outbox.limits.laneQueue ≤ lane.queue.length) :
    pipeline.landing message = .past false := by
  simp only [landing, hindex, hlane, hfull, if_true]

theorem landing_of_room (hindex : message.dest.lane pipeline.outbox.lanes.length = index)
    (hlane : pipeline.outbox.lane? index = some lane)
    (hroom : ¬ pipeline.outbox.limits.laneQueue ≤ lane.queue.length) :
    pipeline.landing message = .lane index lane.queue.length := by
  simp only [landing, hindex, hlane, hroom, if_false]

/-- The distributor gives up its message. -/
theorem spared_movePass (hhand : pipeline.distributor = some message) :
    pipeline.spared (later ∘ pipeline.movePass) = (pipeline.spared later).holdDistributor
      (if later (pipeline.landing message) then none else some message) := by
  have houtbox : pipeline.outbox.spared (later ∘ pipeline.movePass) =
      pipeline.outbox.spared later := by
    simp only [Outbox.spared, Function.comp_apply, movePass_of_ne, ne_eq, reduceCtorEq,
      not_false_eq_true]
  rw [spared_moved houtbox fun index => movePass_of_ne (by simp), hhand,
    movePass_distributor hhand]
  rfl

theorem sifts_pass (hpast : ∀ isStale, later (.past isStale) = isStale)
    (hroom : pipeline.pass.2.any Note.isOverflow = false) : pipeline.Sifts later .pass := by
  cases hhand : pipeline.distributor with
  | none =>
      refine .of_spares rfl ?_ ?_ ?_
      · funext spot
        cases spot <;> simp [move, movePass, hhand]
      · simp [Spares, act, pass, hhand, spared]
      · simp [act, pass, hhand]
  | some message =>
      refine .of_kept rfl ?_
      simp only [act, move, spared_movePass hhand]
      obtain ⟨index, hindex⟩ : ∃ index, message.dest.lane pipeline.outbox.lanes.length = index :=
        ⟨_, rfl⟩
      have hsparedIndex :
          message.dest.lane (pipeline.spared later).outbox.lanes.length = index := by
        rw [length_spared, hindex]
      cases hlane : pipeline.outbox.lane? index with
      | none =>
          have hstays : later (pipeline.landing message) = false := by
            rw [landing_of_none (hindex ▸ hlane), hpast]
          have hnone : (pipeline.spared later).outbox.lane?
              (message.dest.lane (pipeline.spared later).outbox.lanes.length) = none := by
            rw [hsparedIndex, lane?_spared, hlane]
            rfl
          simp only [hstays, pass_of_none hhand (hindex ▸ hlane), spared_holdDistributor, ite_self]
          exact pass_of_none rfl hnone
      | some lane =>
          have hfits : ¬ pipeline.outbox.limits.laneQueue ≤ lane.queue.length := by
            intro hfull
            simp [pass, hhand, isLaneFull, hindex, hlane, hfull, Note.isOverflow] at hroom
          have hlanding := landing_of_room hindex hlane hfits
          have hsparedLane : (pipeline.spared later).outbox.lane? index = _ :=
            lane?_spared_of_some hlane
          have hsparedFits : ¬ (pipeline.spared later).outbox.limits.laneQueue ≤
              (lane.spared fun position => later (.lane index position)).queue.length :=
            fun hfull => hfits (Nat.le_trans hfull (length_spare_le _ _))
          simp only [hlanding, pass_of_lane hhand hindex hlane hfits, spared_holdDistributor,
            ite_self, spared_withOutbox, Outbox.spared_setLane, WriterLane.spared_concat]
          split
          · rw [List.append_nil, pass_empty rfl]
            exact congrArg (fun outbox =>
              (((pipeline.spared later).withOutbox outbox).holdDistributor none, []))
              (Outbox.setLane_self hsparedLane).symm
          · have hhanded : ((pipeline.spared later).holdDistributor (some message)).distributor =
                some message := rfl
            exact pass_of_lane hhanded hsparedIndex hsparedLane hsparedFits

/-! ### Lanes -/

section Pick

variable {rest : List Message} {backlog : List Job} {writer : Writer}

theorem movePick_queue (position : Nat) :
    pipeline.movePick index (.queue position) = .queue position :=
  ite_self _

theorem movePick_distributor : pipeline.movePick index .distributor = .distributor :=
  ite_self _

theorem movePick_hand (other : Nat) : pipeline.movePick index (.hand other) = .hand other :=
  ite_self _

theorem movePick_lane_other {other : Nat} (hother : other ≠ index) (position : Nat) :
    pipeline.movePick index (.lane other position) = .lane other position := by
  cases position <;> simp [movePick, hother]

theorem movePick_lane_self (hhand : pipeline.laneHand index = .empty) :
    pipeline.movePick index (.lane index 0) = .hand index ∧
      ∀ position, pipeline.movePick index (.lane index (position + 1)) = .lane index position := by
  simp [movePick, hhand]

theorem pick_busy (hhand : pipeline.laneHand index ≠ .empty) :
    pipeline.pick index = (pipeline, []) := by
  unfold pick
  split
  · rename_i hempty _
    exact absurd hempty hhand
  · rfl

theorem pick_nothing (hnone : ∀ lane ∈ pipeline.outbox.lane? index, lane.queue = []) :
    pipeline.pick index = (pipeline, []) := by
  unfold pick
  split
  · rename_i hlane
    cases hnone _ hlane
  · rfl

theorem pick_of_lane (hhand : pipeline.laneHand index = .empty)
    (hlane : pipeline.outbox.lane? index = some ⟨message :: rest, backlog, writer⟩) :
    pipeline.pick index =
      ((pipeline.withOutbox (pipeline.outbox.setLane index ⟨rest, backlog, writer⟩)).holdLane index
        (.taken message), []) := by
  simp [pick, hhand, hlane]

/-- A lane takes what has been put in front of its queue. -/
theorem pick_ahead (hlane : pipeline.outbox.lane? index = some lane) (message : Message)
    (rest : List Message) (backlog : List Job) (writer : Writer) :
    ((pipeline.withOutbox (pipeline.outbox.setLane index
      ⟨message :: rest, backlog, writer⟩)).holdLane index .empty).pick index =
        ((pipeline.withOutbox (pipeline.outbox.setLane index ⟨rest, backlog, writer⟩)).holdLane
          index (.taken message), []) := by
  have hahead : ((pipeline.withOutbox (pipeline.outbox.setLane index
      ⟨message :: rest, backlog, writer⟩)).holdLane index .empty).outbox.lane? index =
        some ⟨message :: rest, backlog, writer⟩ :=
    (Outbox.lane?_setLane hlane _ index).trans (if_pos rfl)
  rw [pick_of_lane (holdLane_self _ _ _) hahead, holdLane_withOutbox, holdLane_holdLane]
  exact congrArg (fun outbox => ((pipeline.withOutbox outbox).holdLane index (.taken message), []))
    (Outbox.setLane_setLane _ _ _ _)

/-- A lane takes a message. -/
theorem spared_movePick (hhand : pipeline.laneHand index = .empty)
    (hlane : pipeline.outbox.lane? index = some ⟨message :: rest, backlog, writer⟩) :
    pipeline.spared (later ∘ pipeline.movePick index) =
      ((pipeline.spared later).withOutbox ((pipeline.outbox.spared later).setLane index
        ⟨(if later (.hand index) then [] else [message]) ++
          spare (fun position => later (.lane index position)) rest, backlog, writer⟩)).holdLane
        index .empty := by
  obtain ⟨hfirst, hnext⟩ := movePick_lane_self hhand
  have houtbox : pipeline.outbox.spared (later ∘ pipeline.movePick index) = _ :=
    Outbox.spared_turn hlane movePick_queue fun other => movePick_lane_other
  rw [spared_turn houtbox movePick_distributor fun other _ => movePick_hand other, hhand]
  simp only [WriterLane.spared, spare, hfirst, hnext]
  split <;> rfl

/-- A lane is busy, has nothing to take, or takes its oldest message. -/
theorem pick_cases (pipeline : Pipeline) (index : Nat) :
    pipeline.laneHand index ≠ .empty ∨
      pipeline.laneHand index = .empty ∧
        ((∀ lane ∈ pipeline.outbox.lane? index, lane.queue = []) ∨
          ∃ message rest backlog writer,
            pipeline.outbox.lane? index = some ⟨message :: rest, backlog, writer⟩) := by
  by_cases hhand : pipeline.laneHand index = .empty
  · refine Or.inr ⟨hhand, ?_⟩
    cases hlane : pipeline.outbox.lane? index with
    | none => exact Or.inl fun _ hnone => absurd hnone (by simp)
    | some lane =>
        obtain ⟨queue, backlog, writer⟩ := lane
        cases queue with
        | nil => exact Or.inl fun lane hsome => by rw [← Option.some.inj hsome]
        | cons message rest => exact Or.inr ⟨message, rest, backlog, writer, rfl⟩
  · exact Or.inl hhand

theorem sifts_pick (index : Nat) : pipeline.Sifts later (.pick index) := by
  rcases pick_cases pipeline index with
    hbusy | ⟨hhand, hnone | ⟨message, rest, backlog, writer, hlane⟩⟩
  · have hmove : pipeline.move (.pick index) = id := funext fun spot => if_neg hbusy
    constructor
    · intro hkept
      simp [keeps, hbusy] at hkept
    · intro _
      rw [hmove]
      simp only [act, pick_busy hbusy]
      exact ⟨rfl, rfl⟩
  · have hsame : pipeline.spared (later ∘ pipeline.movePick index) = pipeline.spared later := by
      refine spared_still (.inr movePick_queue) (.inr movePick_distributor) (fun other => ?_)
        movePick_hand
      by_cases hother : other = index
      · exact .inl (hother ▸ hnone)
      · exact .inr (movePick_lane_other hother)
    have hsparedNone : ∀ lane ∈ (pipeline.spared later).outbox.lane? index, lane.queue = [] := by
      intro lane hlane
      rw [lane?_spared] at hlane
      obtain ⟨old, hold, rfl⟩ := Option.map_eq_some_iff.mp hlane
      simp [WriterLane.spared, hnone old hold, spare]
    constructor
    · intro _
      simp only [act, move, hsame, pick_nothing hnone, pick_nothing hsparedNone]
      rfl
    · intro _
      simp only [act, move, hsame, pick_nothing hnone]
      exact ⟨trivial, rfl⟩
  · have hpick := pick_of_lane hhand hlane
    have hstart : pipeline.spared (later ∘ pipeline.movePick index) = _ :=
      spared_movePick hhand hlane
    constructor
    · intro hkept
      have hstays : later (.hand index) = false := by simpa [keeps, hhand] using hkept
      rw [hstays, if_neg Bool.false_ne_true, List.singleton_append] at hstart
      simp only [act, move, hpick, hstart, spared_holdLane, spared_withOutbox,
        Outbox.spared_setLane, LaneHand.spared, hstays]
      exact pick_ahead (lane?_spared_of_some hlane) _ _ _ _
    · intro hdropped
      have hdoomed : later (.hand index) = true := by simpa [keeps, hhand] using hdropped
      rw [hdoomed] at hstart
      simp only [act, move, hpick, hstart, spared_holdLane, spared_withOutbox,
        Outbox.spared_setLane, LaneHand.spared, hdoomed]
      exact ⟨rfl, rfl⟩

end Pick

section Judge

variable {now : Int}

/-- A lane has a message in hand that it has not judged yet. -/
def Judging (pipeline : Pipeline) (index : Nat) : Prop :=
  ∃ message lane, pipeline.laneHand index = .taken message ∧
    pipeline.outbox.lane? index = some lane

theorem judge_idle (now : Int) (hidle : ¬ pipeline.Judging index) :
    pipeline.judge now index = (pipeline, []) := by
  unfold judge
  split
  · rename_i message lane hhand hlane
    exact absurd ⟨message, lane, hhand, hlane⟩ hidle
  · rfl

theorem moveJudge_idle (now : Int) (hidle : ¬ pipeline.Judging index) :
    pipeline.moveJudge now index = id := by
  funext spot
  unfold moveJudge
  split
  · rename_i message lane hhand hlane
    exact absurd ⟨message, lane, hhand, hlane⟩ hidle
  · rfl

theorem Judging.of_spared (hjudging : (pipeline.spared later).Judging index) :
    pipeline.Judging index := by
  obtain ⟨message, lane, hhand, hlane⟩ := hjudging
  rw [lane?_spared] at hlane
  obtain ⟨old, hold, -⟩ := Option.map_eq_some_iff.mp hlane
  rw [laneHand_spared] at hhand
  cases htaken : pipeline.laneHand index with
  | taken given => exact ⟨given, old, htaken, hold⟩
  | empty | fresh | bound =>
      rw [htaken] at hhand
      cases hhand

theorem moveJudge_of_ne {spot : Spot} (hspot : spot ≠ .hand index) :
    pipeline.moveJudge now index spot = spot := by
  unfold moveJudge
  split
  · exact if_neg hspot
  · rfl

theorem moveJudge_self (hhand : pipeline.laneHand index = .taken message)
    (hlane : pipeline.outbox.lane? index = some lane) :
    pipeline.moveJudge now index (.hand index) =
      .past (message.isStale now pipeline.outbox.limits.writeTimeout) := by
  simp [moveJudge, hhand, hlane]

/-- A lane looks at the clock. -/
theorem spared_moveJudge (hpast : ∀ isStale, later (.past isStale) = isStale)
    (hhand : pipeline.laneHand index = .taken message)
    (hlane : pipeline.outbox.lane? index = some lane) :
    pipeline.spared (later ∘ pipeline.moveJudge now index) = (pipeline.spared later).holdLane index
      (if message.isStale now pipeline.outbox.limits.writeTimeout then .empty
        else .taken message) := by
  have houtbox : pipeline.outbox.spared (later ∘ pipeline.moveJudge now index) =
      pipeline.outbox.spared later := by
    simp only [Outbox.spared, Function.comp_apply, moveJudge_of_ne, ne_eq, reduceCtorEq,
      not_false_eq_true]
  rw [spared_turn houtbox (moveJudge_of_ne (by simp)) fun other hother =>
    moveJudge_of_ne (by simpa using hother), moveJudge_self hhand hlane, hpast, hhand]
  rfl

theorem sifts_judge (hpast : ∀ isStale, later (.past isStale) = isStale) (now : Int)
    (index : Nat) : pipeline.Sifts later (.judge now index) := by
  by_cases hjudging : pipeline.Judging index
  · obtain ⟨message, lane, hhand, hlane⟩ := hjudging
    refine .of_kept rfl ?_
    simp only [act, move, spared_moveJudge hpast hhand hlane]
    cases hstale : message.isStale now pipeline.outbox.limits.writeTimeout with
    | true =>
        have hempty : ¬ ((pipeline.spared later).holdLane index .empty).Judging index := by
          rintro ⟨message, lane, hhand, -⟩
          rw [holdLane_self] at hhand
          cases hhand
        rw [judge_stale hhand hlane hstale, spared_holdLane]
        exact judge_idle now hempty
    | false =>
        have htaken := holdLane_self (pipeline.spared later) index (.taken message)
        rw [judge_fresh hhand hlane hstale, spared_holdLane]
        refine (judge_fresh htaken (lane?_spared_of_some hlane) hstale).trans ?_
        rw [holdLane_holdLane]
        rfl
  · have hsparedIdle : ¬ (pipeline.spared later).Judging index :=
      fun hspared => hjudging hspared.of_spared
    refine .of_spares rfl (moveJudge_idle now hjudging) ?_ ?_
    · simp only [Spares, act, judge_idle now hjudging, judge_idle now hsparedIdle]
    · simp only [act, judge_idle now hjudging]
      rfl

end Judge

/-! ### Ends of the tasks -/

theorem sifts_stop : pipeline.Sifts later .stop := by
  refine .of_kept rfl (Prod.ext ?_ rfl)
  show (pipeline.spared (later ∘ moveStop)).withOutbox
    (pipeline.outbox.spared (later ∘ moveStop)).stop =
      (pipeline.spared later).withOutbox (pipeline.outbox.stop.spared later)
  rw [Outbox.spared_stop _ later]
  rfl

theorem quit_lane_of_some (hlane : pipeline.outbox.lane? index = some lane) :
    pipeline.quit (.lane index) =
      ((pipeline.withOutbox (pipeline.outbox.setLane index { lane with queue := [] })).holdLane
        index .empty, []) := by
  simp [quit, hlane]

/-- It does not matter what a lane that ends has. -/
theorem quit_lane_ahead {old : WriterLane} (hlane : pipeline.outbox.lane? index = some old)
    (lane : WriterLane) (hand : LaneHand) :
    ((pipeline.withOutbox (pipeline.outbox.setLane index lane)).holdLane index hand).quit
        (.lane index) =
      ((pipeline.withOutbox (pipeline.outbox.setLane index { lane with queue := [] })).holdLane
        index .empty, []) := by
  have hahead : ((pipeline.withOutbox (pipeline.outbox.setLane index lane)).holdLane index
      hand).outbox.lane? index = some lane :=
    (Outbox.lane?_setLane hlane _ index).trans (if_pos rfl)
  rw [quit_lane_of_some hahead, holdLane_withOutbox, holdLane_holdLane]
  exact congrArg (fun outbox => ((pipeline.withOutbox outbox).holdLane index .empty, []))
    (Outbox.setLane_setLane _ _ _ _)

theorem sifts_quit_distributor : pipeline.Sifts later (.quit .distributor) := by
  have houtbox : pipeline.outbox.spared (later ∘ pipeline.moveQuit .distributor) =
      { pipeline.outbox.spared later with
        queue := spare (fun _ => later (.past false)) pipeline.outbox.queue } := rfl
  refine .of_kept rfl (Prod.ext ?_ rfl)
  simp only [act, move, spared_moved houtbox fun _ => rfl, quit, spared_holdDistributor, ite_self]
  rfl

theorem moveQuit_other {other : Nat} (hother : other ≠ index) :
    (∀ position, pipeline.moveQuit (.lane index) (.lane other position) = .lane other position) ∧
      pipeline.moveQuit (.lane index) (.hand other) = .hand other := by
  simp [moveQuit, hother]

theorem moveQuit_of_none (hlane : pipeline.outbox.lane? index = none) :
    pipeline.moveQuit (.lane index) = id := by
  funext spot
  cases spot <;> simp [moveQuit, hlane]

theorem quit_lane_of_none (hlane : pipeline.outbox.lane? index = none) :
    pipeline.quit (.lane index) = (pipeline, []) := by
  simp [quit, hlane]

theorem sifts_quit_lane (index : Nat) : pipeline.Sifts later (.quit (.lane index)) := by
  cases hlane : pipeline.outbox.lane? index with
  | none =>
      have hsparedNone : (pipeline.spared later).outbox.lane? index = none := by
        rw [lane?_spared, hlane]
        rfl
      refine .of_spares rfl (moveQuit_of_none hlane) ?_ ?_
      · simp only [Spares, act, quit_lane_of_none hlane, quit_lane_of_none hsparedNone]
      · simp only [act, quit_lane_of_none hlane]
        rfl
  | some lane =>
      have houtbox : pipeline.outbox.spared (later ∘ pipeline.moveQuit (.lane index)) = _ :=
        Outbox.spared_turn hlane (fun _ => rfl) fun _ hother => (moveQuit_other hother).1
      have hturn : pipeline.spared (later ∘ pipeline.moveQuit (.lane index)) = _ :=
        spared_turn houtbox rfl fun _ hother => (moveQuit_other hother).2
      refine .of_kept rfl ?_
      simp only [act, move, hturn, quit_lane_of_some hlane, spared_holdLane, spared_withOutbox,
        Outbox.spared_setLane]
      exact quit_lane_ahead (lane?_spared_of_some hlane) _ _

/-! ### Behind the look at the clock -/

theorem stale?_behind {step : Step} (hstep : step.isBehind = true) :
    (pipeline.act step).2.filterMap Note.stale? = [] := by
  cases step with
  | find index =>
      simp only [act, find]
      split
      · split <;> rfl
      · rfl
  | leave index =>
      simp only [act, leave]
      split
      · split <;> rfl
      · rfl
  | put index most =>
      rcases put_cases pipeline index most with
        hsame | ⟨queue, backlog, job, bytes, rest, deadline, socket, _, _, _, hput⟩
      · simp only [act, hsame]
        rfl
      · simp only [act, hput]
        split <;> rfl
  | receive index =>
      simp only [act, receive]
      split <;> rfl
  | ask index =>
      simp only [act, ask]
      split <;> rfl
  | finish index =>
      simp only [act, finish]
      split <;> rfl
  | giveUp index =>
      simp only [act, giveUp]
      split <;> rfl
  | remove index =>
      simp only [act, remove]
      split <;> rfl
  | quit task =>
      cases task with
      | writer index =>
          simp only [act, quit]
          split <;> rfl
      | _ => cases hstep
  | send | pull | pass | pick | judge | stop => cases hstep
  | _ => rfl

theorem move_behind {step : Step} (hstep : step.isBehind = true) : pipeline.move step = id := by
  cases step with
  | quit task =>
      cases task with
      | writer index => rfl
      | _ => cases hstep
  | send | pull | pass | pick | judge | stop => cases hstep
  | _ => rfl

theorem keeps_behind {step : Step} (hstep : step.isBehind = true) :
    pipeline.keeps later step = true := by
  cases step with
  | send | pull | pass | pick | judge | stop => cases hstep
  | _ => rfl

theorem sifts_behind {step : Step} (hstep : step.isBehind = true) : pipeline.Sifts later step :=
  .of_spares (keeps_behind hstep) (move_behind hstep) (spares_behind later pipeline hstep)
    (stale?_behind hstep)

/-- Every step that overflows no queue is sifted. -/
theorem sifts_act (hpast : ∀ isStale, later (.past isStale) = isStale) (step : Step)
    (hroom : (pipeline.act step).2.any Note.isOverflow = false) : pipeline.Sifts later step := by
  cases step with
  | send message => exact sifts_send message hroom
  | pull => exact sifts_pull
  | pass => exact sifts_pass hpast hroom
  | pick index => exact sifts_pick index
  | judge now index => exact sifts_judge hpast now index
  | stop => exact sifts_stop
  | quit task =>
      cases task with
      | distributor => exact sifts_quit_distributor
      | lane index => exact sifts_quit_lane index
      | writer index => exact sifts_behind rfl
  | _ => exact sifts_behind rfl

end Pipeline

end Peering
