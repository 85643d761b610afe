import Peering.Proofs.Delivery.Accounting
import Peering.Proofs.Delivery.Sifting

/-!
# Where the stale messages are

What some steps will find stale is, before that, in the queues and hands in front of
the look at the clock. A step adds what is handed in with it and takes away what it
finds stale. What it loses is not among them, for that is never found stale.

Main statement: this account holds for every step, whatever comes later.
-/

namespace Peering

/-- The messages that were found stale. -/
def foundStale (notes : List Note) : List Message :=
  notes.filterMap Note.stale?

theorem foundStale_append (first second : List Note) :
    foundStale (first ++ second) = foundStale first ++ foundStale second :=
  List.filterMap_append

/-- The message of a lane that has not looked at the clock yet. -/
def LaneHand.taken? : LaneHand → Option Message
  | .taken message => some message
  | _ => none

/-- Nothing is kept when only what is doomed is and nothing is doomed. -/
theorem spare_not_of_none {A : Type} {doomed : Nat → Bool}
    (hnone : ∀ position, doomed position = false) (items : List A) :
    spare (fun position => !doomed position) items = [] := by
  induction items generalizing doomed with
  | nil => rfl
  | cons item later ih => simp [spare, hnone 0, ih fun position => hnone (position + 1)]

namespace Pipeline

variable {pipeline after : Pipeline} {later : Spot → Bool} {move : Spot → Spot} {step : Step}
  {message : Message} {index : Nat} {old lane : WriterLane}

/-! ## The condemned -/

/-- The queue of a lane. -/
def waiting (pipeline : Pipeline) (index : Nat) : List Message :=
  (pipeline.outbox.lane? index).elim [] (·.queue)

theorem waiting_of_lane (hlane : pipeline.outbox.lane? index = some lane) :
    pipeline.waiting index = lane.queue := by
  rw [waiting, hlane]
  rfl

theorem Turns.waiting (h : Turns pipeline after index old lane) :
    after.waiting index = lane.queue :=
  waiting_of_lane ((h.lanes index).trans (if_pos rfl))

theorem turns_holdLane (hold : pipeline.outbox.lane? index = some old) (lane : WriterLane)
    (hand : LaneHand) :
    Turns pipeline ((pipeline.withOutbox (pipeline.outbox.setLane index lane)).holdLane index hand)
      index old lane :=
  ⟨hold, Outbox.lane?_setLane hold _, fun _ => holdLane_other _ _ _, fun _ _ => rfl⟩

theorem turns_holdDistributor (hold : pipeline.outbox.lane? index = some old) (lane : WriterLane)
    (hand : Option Message) :
    Turns pipeline
      ((pipeline.withOutbox (pipeline.outbox.setLane index lane)).holdDistributor hand)
      index old lane :=
  ⟨hold, Outbox.lane?_setLane hold _, fun _ _ => rfl, fun _ _ => rfl⟩

/-- The doomed messages that have no lane yet. -/
def condemnedAhead (pipeline : Pipeline) (later : Spot → Bool) : List Message :=
  spare (fun position => !later (.queue position)) pipeline.outbox.queue ++
    if later .distributor then pipeline.distributor.toList else []

/-- The doomed messages of a lane. -/
def condemnedIn (pipeline : Pipeline) (later : Spot → Bool) (index : Nat) : List Message :=
  spare (fun position => !later (.lane index position)) (pipeline.waiting index) ++
    if later (.hand index) then (pipeline.laneHand index).taken?.toList else []

def condemned (pipeline : Pipeline) (later : Spot → Bool) : List Message :=
  pipeline.condemnedAhead later ++
    (List.range pipeline.outbox.lanes.length).flatMap (pipeline.condemnedIn later)

/-- The call that a step makes, with whether its message will be found stale. -/
def handedIn (pipeline : Pipeline) (later : Spot → Bool) : Step → List ((Message × Bool) × Bool)
  | .send message =>
      let taken := (pipeline.outbox.send message).2
      [((message, taken), taken && later (.queue pipeline.outbox.queue.length))]
  | _ => []

/-- The doomed messages that a step hands in. -/
def condemnedBy (pipeline : Pipeline) (later : Spot → Bool) (step : Step) : List Message :=
  ((pipeline.handedIn later step).filter (·.2)).map (·.1.1)

/-- A step adds to the condemned what it hands in, and takes away what it finds stale. -/
structure Tracks (pipeline : Pipeline) (later : Spot → Bool) (step : Step) : Prop where
  condemned : (pipeline.condemned (later ∘ pipeline.move step) ++
    pipeline.condemnedBy later step).Perm
      (foundStale (pipeline.act step).2 ++ (pipeline.act step).1.condemned later)
  tally : (pipeline.act step).1.outbox.tally.stale =
    pipeline.outbox.tally.stale + (foundStale (pipeline.act step).2).length

theorem condemnedAhead_of_none (hhand : pipeline.distributor = none) :
    pipeline.condemnedAhead later =
      spare (fun position => !later (.queue position)) pipeline.outbox.queue := by
  rw [condemnedAhead, hhand, Option.toList_none, ite_self, List.append_nil]

theorem condemnedIn_of_none (hhand : (pipeline.laneHand index).taken? = none) :
    pipeline.condemnedIn later index =
      spare (fun position => !later (.lane index position)) (pipeline.waiting index) := by
  rw [condemnedIn, hhand, Option.toList_none, ite_self, List.append_nil]

theorem condemnedIn_still (hwaiting : after.waiting index = pipeline.waiting index)
    (htaken : (after.laneHand index).taken? = (pipeline.laneHand index).taken?)
    (hqueue : ∀ position, move (.lane index position) = .lane index position)
    (hhand : move (.hand index) = .hand index) :
    after.condemnedIn later index = pipeline.condemnedIn (later ∘ move) index := by
  simp only [condemnedIn, Function.comp_apply, hwaiting, htaken, hqueue, hhand]

/-- A step that leaves the lanes alone is checked on the rest. -/
theorem Tracks.of_lanes {notes : List Note} (hact : pipeline.act step = (after, notes))
    (hsame : ∀ index,
      after.condemnedIn later index = pipeline.condemnedIn (later ∘ pipeline.move step) index)
    (hchange : (pipeline.condemnedAhead (later ∘ pipeline.move step) ++
      pipeline.condemnedBy later step).Perm (foundStale notes ++ after.condemnedAhead later))
    (htally : after.outbox.tally.stale =
      pipeline.outbox.tally.stale + (foundStale notes).length) : pipeline.Tracks later step := by
  have hlanes := (lanes_act pipeline step).2
  have hin : after.condemnedIn later = pipeline.condemnedIn (later ∘ pipeline.move step) :=
    funext hsame
  rw [hact] at hlanes
  constructor <;> rw [hact]
  · refine List.perm_iff_count.mpr fun message => ?_
    have hcount := hchange.count_eq message
    simp only [Pipeline.condemned, hlanes, hin, List.count_append] at hcount ⊢
    omega
  · exact htally

/-- A step that changes one lane is checked on this lane and on what has no lane yet. -/
theorem Tracks.of_turn {notes : List Note} (hact : pipeline.act step = (after, notes))
    (h : Turns pipeline after index old lane)
    (hqueue : ∀ other, other ≠ index → ∀ position,
      pipeline.move step (.lane other position) = .lane other position)
    (hhand : ∀ other, other ≠ index → pipeline.move step (.hand other) = .hand other)
    (hchange : (pipeline.condemnedAhead (later ∘ pipeline.move step) ++
      pipeline.condemnedIn (later ∘ pipeline.move step) index ++
        pipeline.condemnedBy later step).Perm
          (foundStale notes ++ (after.condemnedAhead later ++ after.condemnedIn later index)))
    (htally : after.outbox.tally.stale =
      pipeline.outbox.tally.stale + (foundStale notes).length) : pipeline.Tracks later step := by
  have hlanes := (lanes_act pipeline step).2
  have hindex := (List.getElem?_eq_some_iff.mp h.was).1
  have hothers : ∀ other, other ≠ index →
      after.condemnedIn later other = pipeline.condemnedIn (later ∘ pipeline.move step) other := by
    intro other hother
    refine condemnedIn_still ?_ ?_ (hqueue other hother) (hhand other hother)
    · rw [waiting, waiting, h.lanes, if_neg hother]
    · rw [h.hands other hother]
  have hin := flatMap_range_perm _ _ hindex hothers
  rw [hact] at hlanes
  constructor <;> rw [hact]
  · refine List.perm_iff_count.mpr fun message => ?_
    have hcounts := And.intro (hin.count_eq message) (hchange.count_eq message)
    simp only [Pipeline.condemned, hlanes, List.count_append] at hcounts ⊢
    omega
  · exact htally

/-- A step that only changes one lane is checked on this lane. -/
theorem Tracks.of_lane {notes : List Note} (hact : pipeline.act step = (after, notes))
    (h : Turns pipeline after index old lane) (hhanded : pipeline.condemnedBy later step = [])
    (hahead : after.condemnedAhead later = pipeline.condemnedAhead (later ∘ pipeline.move step))
    (hqueue : ∀ other, other ≠ index → ∀ position,
      pipeline.move step (.lane other position) = .lane other position)
    (hhand : ∀ other, other ≠ index → pipeline.move step (.hand other) = .hand other)
    (hchange : (pipeline.condemnedIn (later ∘ pipeline.move step) index).Perm
      (foundStale notes ++ after.condemnedIn later index))
    (htally : after.outbox.tally.stale =
      pipeline.outbox.tally.stale + (foundStale notes).length) : pipeline.Tracks later step := by
  refine .of_turn hact h hqueue hhand ?_ htally
  rw [hhanded, hahead, List.append_nil]
  exact (hchange.append_left _).trans (List.perm_append_comm_assoc _ _ _)

/-! ## Behind the look at the clock -/

/-- What is in front of the look at the clock stays, and nothing is counted as stale. -/
structure SameFront (pipeline after : Pipeline) : Prop where
  queue : after.outbox.queue = pipeline.outbox.queue
  distributor : after.distributor = pipeline.distributor
  waiting : ∀ index, after.waiting index = pipeline.waiting index
  taken : ∀ index, (after.laneHand index).taken? = (pipeline.laneHand index).taken?
  tally : after.outbox.tally.stale = pipeline.outbox.tally.stale

theorem SameFront.refl (pipeline : Pipeline) : SameFront pipeline pipeline :=
  ⟨rfl, rfl, fun _ => rfl, fun _ => rfl, rfl⟩

theorem SameFront.of_turn (h : Turns pipeline after index old lane)
    (hwaiting : lane.queue = old.queue)
    (htaken : (after.laneHand index).taken? = (pipeline.laneHand index).taken?)
    (hqueue : after.outbox.queue = pipeline.outbox.queue)
    (hdistributor : after.distributor = pipeline.distributor)
    (htally : after.outbox.tally.stale = pipeline.outbox.tally.stale) :
    SameFront pipeline after := by
  refine ⟨hqueue, hdistributor, fun other => ?_, fun other => ?_, htally⟩
  · by_cases hother : other = index
    · subst hother
      rw [h.waiting, waiting_of_lane h.was, hwaiting]
    · rw [Pipeline.waiting, Pipeline.waiting, h.lanes, if_neg hother]
  · by_cases hother : other = index
    · rw [hother, htaken]
    · rw [h.hands other hother]

theorem Tracks.of_sameFront (h : SameFront pipeline (pipeline.act step).1)
    (hmove : pipeline.move step = id) (hhanded : pipeline.condemnedBy later step = [])
    (hstale : foundStale (pipeline.act step).2 = []) : pipeline.Tracks later step := by
  have hact : pipeline.act step = ((pipeline.act step).1, (pipeline.act step).2) := rfl
  refine .of_lanes hact (fun index => ?_) ?_ ?_
  · rw [hmove]
    exact condemnedIn_still (h.waiting index) (h.taken index) (fun _ => rfl) rfl
  · rw [hmove, hhanded, hstale, List.append_nil, condemnedAhead, condemnedAhead, h.queue,
      h.distributor]
    exact List.Perm.refl _
  · rw [hstale]
    exact h.tally

/-- A step that does nothing. -/
theorem Tracks.of_idle (hact : pipeline.act step = (pipeline, []))
    (hmove : pipeline.move step = id) (hhanded : pipeline.condemnedBy later step = []) :
    pipeline.Tracks later step := by
  refine .of_sameFront ?_ hmove hhanded ?_
  · rw [hact]
    exact .refl pipeline
  · rw [hact]
    rfl

theorem sameFront_find (pipeline : Pipeline) (index : Nat) :
    SameFront pipeline (pipeline.find index).1 := by
  unfold find
  split
  · rename_i message lane hhand hlane
    split
    · refine .of_turn ⟨hlane, lane?_same hlane, fun _ => holdLane_other _ _ _, fun _ _ => rfl⟩ rfl
        ?_ rfl rfl rfl
      rw [holdLane_self, hhand]
      rfl
    · refine .of_turn ⟨hlane, lane?_same hlane, fun _ => holdLane_other _ _ _, fun _ _ => rfl⟩ rfl
        ?_ rfl rfl rfl
      rw [holdLane_self, hhand]
      rfl
  · exact .refl pipeline

theorem sameFront_leave (pipeline : Pipeline) (index : Nat) :
    SameFront pipeline (pipeline.leave index).1 := by
  unfold leave
  split
  · rename_i job lane hhand hlane
    unfold Outbox.enterBacklog
    split
    · refine .of_turn ⟨hlane, Outbox.lane?_setLane hlane lane, fun _ => holdLane_other _ _ _,
        fun _ _ => rfl⟩ rfl ?_ rfl rfl rfl
      rw [holdLane_self, hhand]
      rfl
    · refine .of_turn (turns_holdLane hlane _ .empty) rfl ?_ rfl rfl rfl
      rw [holdLane_self, hhand]
      rfl
  · exact .refl pipeline

theorem sameFront_receive (pipeline : Pipeline) (index : Nat) :
    SameFront pipeline (pipeline.receive index).1 := by
  unfold receive
  split
  · rename_i hlane
    exact .of_turn ⟨hlane, Outbox.lane?_setLane hlane _, fun _ _ => rfl,
      fun _ => holdWriter_other _ _ _⟩ rfl rfl rfl rfl rfl
  · exact .refl pipeline

theorem sameFront_ask (pipeline : Pipeline) (index : Nat) :
    SameFront pipeline (pipeline.ask index).1 := by
  unfold ask
  split
  · rename_i hlane
    exact .of_turn ⟨hlane, Outbox.lane?_setLane hlane _, fun _ _ => rfl,
      fun _ => holdWriter_other _ _ _⟩ rfl rfl rfl rfl rfl
  · exact .refl pipeline

theorem sameFront_put (pipeline : Pipeline) (index most : Nat) :
    SameFront pipeline (pipeline.put index most).1 := by
  rcases put_cases pipeline index most with
    hsame | ⟨queue, backlog, job, bytes, rest, deadline, socket, hlane, _, _, hput⟩
  · rw [hsame]
    exact .refl pipeline
  · rw [hput]
    exact .of_turn ⟨hlane, Outbox.lane?_setLane hlane _, fun _ _ => rfl, fun _ _ => rfl⟩
      rfl rfl rfl rfl rfl

theorem sameFront_finish (pipeline : Pipeline) (index : Nat) :
    SameFront pipeline (pipeline.finish index).1 := by
  unfold finish
  split
  · rename_i hlane
    rw [finishJob_of_lane hlane]
    exact .of_turn ⟨hlane, Outbox.lane?_setLane hlane _, fun _ _ => rfl, fun _ _ => rfl⟩
      rfl rfl rfl rfl rfl
  · exact .refl pipeline

theorem sameFront_giveUp (pipeline : Pipeline) (index : Nat) :
    SameFront pipeline (pipeline.giveUp index).1 := by
  unfold giveUp
  split
  · rename_i hlane
    rw [finishJob_of_lane hlane]
    exact .of_turn ⟨hlane, Outbox.lane?_setLane hlane _, fun _ _ => rfl,
      fun _ => holdWriter_other _ _ _⟩ rfl rfl rfl rfl rfl
  · exact .refl pipeline

theorem sameFront_remove (pipeline : Pipeline) (index : Nat) :
    SameFront pipeline (pipeline.remove index).1 := by
  unfold remove
  split
  · exact ⟨rfl, rfl, fun _ => rfl, fun _ => rfl, rfl⟩
  · exact .refl pipeline

theorem sameFront_quit_writer (pipeline : Pipeline) (index : Nat) :
    SameFront pipeline (pipeline.quit (.writer index)).1 := by
  simp only [quit]
  split
  · exact .refl pipeline
  · rename_i lane hlane
    let ended : WriterLane := { lane with backlog := [], writer := .idle }
    have houtbox := letGo_outbox index lane.writer
      { pipeline.transport with outbox := pipeline.outbox.setLane index ended }
    have hlanes := fun other => (congrArg (·.lane? other) houtbox).trans
      (Outbox.lane?_setLane hlane ended other)
    refine .of_turn ⟨hlane, hlanes, fun _ _ => rfl, fun _ => holdWriter_other _ _ _⟩ rfl rfl ?_ rfl
      ?_
    · cases lane.writer <;> rfl
    · cases lane.writer <;> rfl

theorem sameFront_outside (pipeline : Pipeline) (hstep : step.isOutside = true) :
    SameFront pipeline (pipeline.act step).1 := by
  obtain ⟨transport, houtbox, hact, _⟩ := outside_cases pipeline hstep
  rw [hact]
  refine ⟨congrArg Outbox.queue houtbox, rfl, fun index => ?_, fun _ => rfl,
    congrArg (·.tally.stale) houtbox⟩
  exact congrArg (fun outbox => (outbox.lane? index).elim [] WriterLane.queue) houtbox

theorem sameFront_behind (pipeline : Pipeline) (hstep : step.isBehind = true) :
    SameFront pipeline (pipeline.act step).1 := by
  cases step with
  | find index => exact sameFront_find pipeline index
  | leave index => exact sameFront_leave pipeline index
  | receive index => exact sameFront_receive pipeline index
  | ask index => exact sameFront_ask pipeline index
  | put index most => exact sameFront_put pipeline index most
  | finish index => exact sameFront_finish pipeline index
  | giveUp index => exact sameFront_giveUp pipeline index
  | remove index => exact sameFront_remove pipeline index
  | quit task =>
      cases task with
      | writer index => exact sameFront_quit_writer pipeline index
      | _ => cases hstep
  | send | pull | pass | pick | judge | stop => cases hstep
  | _ => exact sameFront_outside pipeline rfl

theorem tracks_behind (hstep : step.isBehind = true) : pipeline.Tracks later step := by
  refine .of_sameFront (sameFront_behind pipeline hstep) (move_behind hstep) ?_
    (stale?_behind hstep)
  cases step with
  | send => cases hstep
  | _ => rfl

/-! ## In front of it -/

/-- What is not taken changes nothing in front of the look at the clock. -/
theorem send_cases (pipeline : Pipeline) (message : Message) :
    (pipeline.outbox.send message).2 = false ∧ SameFront pipeline (pipeline.send message).1 ∨
      (pipeline.outbox.send message).2 = true ∧ pipeline.send message = (pipeline.withOutbox
        { pipeline.outbox with queue := pipeline.outbox.queue ++ [message] },
        [.called message true]) := by
  by_cases hlong : pipeline.outbox.limits.maxBody < message.frame.payload.length
  · simp only [send, Outbox.send, if_pos hlong]
    exact Or.inl ⟨trivial, rfl, rfl, fun _ => rfl, fun _ => rfl, rfl⟩
  by_cases hstop : pipeline.outbox.stopped = true
  · simp only [send, Outbox.send, if_neg hlong, if_pos hstop]
    exact Or.inl ⟨trivial, .refl pipeline⟩
  by_cases hfull : pipeline.outbox.limits.sendQueue ≤ pipeline.outbox.queue.length
  · simp only [send, Outbox.send, if_neg hlong, if_neg hstop, if_pos hfull]
    exact Or.inl ⟨trivial, rfl, rfl, fun _ => rfl, fun _ => rfl, rfl⟩
  · refine Or.inr ⟨?_, send_taken hlong hstop hfull⟩
    simp [Outbox.send, hlong, hstop, hfull]

theorem tracks_send (message : Message) : pipeline.Tracks later (.send message) := by
  rcases send_cases pipeline message with ⟨hrefused, hfront⟩ | ⟨htaken, hsend⟩
  · refine .of_sameFront hfront rfl ?_ (stale?_send pipeline message)
    simp [condemnedBy, handedIn, hrefused]
  · have hhanded : pipeline.condemnedBy later (.send message) =
        if later (.queue pipeline.outbox.queue.length) then [message] else [] := by
      simp only [condemnedBy, handedIn, htaken, Bool.true_and]
      cases later (.queue pipeline.outbox.queue.length) <;> rfl
    have hact : pipeline.act (.send message) = _ := hsend
    refine .of_lanes hact (fun _ => rfl) ?_ rfl
    show (pipeline.condemnedAhead later ++ pipeline.condemnedBy later (.send message)).Perm
      (spare (fun position => !later (.queue position)) (pipeline.outbox.queue ++ [message]) ++
        if later .distributor then pipeline.distributor.toList else [])
    rw [hhanded, spare_concat, condemnedAhead, List.append_assoc, List.append_assoc]
    cases later (.queue pipeline.outbox.queue.length) with
    | false => exact List.Perm.of_eq (congrArg _ (List.append_nil _))
    | true => exact List.perm_append_comm.append_left _

theorem tracks_pull : pipeline.Tracks later .pull := by
  have hlanes : ∀ index, pipeline.condemnedIn later index =
      pipeline.condemnedIn (later ∘ pipeline.movePull) index :=
    fun index => condemnedIn_still rfl rfl (movePull_lane index) (movePull_hand index)
  cases hhand : pipeline.distributor with
  | some message =>
      refine .of_idle ?_ ?_ rfl
      · simp [act, pull, hhand]
      · funext spot
        simp [move, movePull, hhand]
  | none =>
      cases hqueue : pipeline.outbox.queue with
      | nil =>
          have hact : pipeline.act .pull = (pipeline, []) := by simp [act, pull, hqueue]
          refine .of_lanes hact hlanes ?_ rfl
          simp [condemnedAhead, hhand, hqueue, spare, condemnedBy, handedIn, foundStale]
      | cons message rest =>
          refine .of_lanes (pull_of_queue hhand hqueue) hlanes ?_ rfl
          obtain ⟨hfirst, hnext⟩ := movePull_queue hhand
          show (pipeline.condemnedAhead (later ∘ pipeline.movePull) ++ []).Perm
            (spare (fun position => !later (.queue position)) rest ++
              if later .distributor then [message] else [])
          rw [condemnedAhead, hhand, hqueue]
          simp only [Function.comp_apply, spare, hfirst, hnext]
          cases later .distributor with
          | false => simp
          | true => simpa using (List.perm_append_singleton _ _).symm

theorem movePass_lane (pipeline : Pipeline) (index position : Nat) :
    pipeline.movePass (.lane index position) = .lane index position :=
  movePass_of_ne (by simp)

theorem movePass_hand (pipeline : Pipeline) (index : Nat) :
    pipeline.movePass (.hand index) = .hand index :=
  movePass_of_ne (by simp)

theorem tracks_pass (hpast : ∀ isStale, later (.past isStale) = isStale) :
    pipeline.Tracks later .pass := by
  cases hhand : pipeline.distributor with
  | none =>
      refine .of_idle (pass_empty hhand) ?_ rfl
      funext spot
      cases spot <;> simp [move, movePass, hhand]
  | some message =>
      have hahead : pipeline.condemnedAhead (later ∘ pipeline.move .pass) =
          spare (fun position => !later (.queue position)) pipeline.outbox.queue ++
            if later (pipeline.landing message) then [message] else [] := by
        simp only [condemnedAhead, move, Function.comp_apply, movePass_of_ne, ne_eq, reduceCtorEq,
          not_false_eq_true, movePass_distributor hhand, hhand, Option.toList_some]
      have hlanes : ∀ index, pipeline.condemnedIn later index =
          pipeline.condemnedIn (later ∘ pipeline.movePass) index :=
        fun index => condemnedIn_still rfl rfl (movePass_lane pipeline index)
          (movePass_hand pipeline index)
      obtain ⟨index, hindex⟩ : ∃ index, message.dest.lane pipeline.outbox.lanes.length = index :=
        ⟨_, rfl⟩
      cases hlane : pipeline.outbox.lane? index with
      | none =>
          have hlost : later (pipeline.landing message) = false := by
            rw [landing_of_none (hindex ▸ hlane), hpast]
          refine .of_lanes (pass_of_none hhand (hindex ▸ hlane)) hlanes ?_ rfl
          rw [hahead, hlost, condemnedAhead_of_none rfl, if_neg Bool.false_ne_true, List.append_nil]
          exact List.Perm.of_eq (List.append_nil _)
      | some lane =>
          by_cases hfull : pipeline.outbox.limits.laneQueue ≤ lane.queue.length
          · have hlost : later (pipeline.landing message) = false := by
              rw [landing_of_full hindex hlane hfull, hpast]
            have hact : pipeline.act .pass = ((pipeline.withOutbox (pipeline.outbox.count
                fun tally => { tally with queueFull := tally.queueFull + 1 })).holdDistributor none,
                [.settled message .laneFull]) := by
              simp [act, pass, hhand, Outbox.enterLane, isLaneFull, hindex, hlane, hfull]
            refine .of_lanes hact hlanes ?_ rfl
            rw [hahead, hlost, condemnedAhead_of_none rfl, if_neg Bool.false_ne_true,
              List.append_nil]
            exact List.Perm.of_eq (List.append_nil _)
          · have hturn := turns_holdDistributor hlane
              { lane with queue := lane.queue ++ [message] } none
            refine .of_turn (pass_of_lane hhand hindex hlane hfull) hturn
              (fun other _ position => pipeline.movePass_lane other position)
              (fun other _ => pipeline.movePass_hand other) ?_ rfl
            rw [hahead, landing_of_room hindex hlane hfull, condemnedAhead_of_none rfl]
            simp only [condemnedIn, move, Function.comp_apply, movePass_lane, movePass_hand,
              waiting_of_lane hlane, hturn.waiting, spare_concat]
            refine List.perm_iff_count.mpr fun given => ?_
            cases later (.lane index lane.queue.length) <;>
              simp [condemnedBy, handedIn, foundStale, holdDistributor, withOutbox, withTransport,
                outbox, Outbox.setLane, List.count_cons, List.count_append]
            omega

theorem tracks_pick (index : Nat) : pipeline.Tracks later (.pick index) := by
  have hahead : pipeline.condemnedAhead later =
      pipeline.condemnedAhead (later ∘ pipeline.move (.pick index)) := by
    simp only [condemnedAhead, move, Function.comp_apply, movePick_queue, movePick_distributor]
  rcases pick_cases pipeline index with
    hbusy | ⟨hhand, hnone | ⟨message, rest, backlog, writer, hlane⟩⟩
  · exact .of_idle (pick_busy hbusy) (funext fun spot => if_neg hbusy) rfl
  · have hwaiting : pipeline.waiting index = [] := by
      unfold waiting
      cases hlane : pipeline.outbox.lane? index with
      | none => rfl
      | some lane => exact hnone lane hlane
    refine .of_lanes (pick_nothing hnone) (fun other => ?_) ?_ rfl
    · by_cases hother : other = index
      · rw [hother, condemnedIn, condemnedIn, hwaiting]
        simp only [move, Function.comp_apply, movePick_hand, spare]
      · exact condemnedIn_still rfl rfl (movePick_lane_other hother) (movePick_hand other)
    · rw [← hahead]
      exact List.Perm.of_eq (List.append_nil _)
  · have hturn := turns_holdLane hlane ⟨rest, backlog, writer⟩ (.taken message)
    obtain ⟨hfirst, hnext⟩ := movePick_lane_self hhand
    refine .of_lane (pick_of_lane hhand hlane) hturn rfl hahead (fun _ => movePick_lane_other)
      (fun other _ => movePick_hand other) ?_ rfl
    simp only [condemnedIn, move, Function.comp_apply, movePick_hand, waiting_of_lane hlane, hhand,
      hturn.waiting, holdLane_self, spare, hfirst, hnext]
    cases later (.hand index) with
    | false => exact List.Perm.refl _
    | true =>
        refine (List.Perm.of_eq (List.append_nil _)).trans ?_
        exact (List.perm_append_singleton message _).symm

theorem tracks_judge (hpast : ∀ isStale, later (.past isStale) = isStale) (now : Int)
    (index : Nat) : pipeline.Tracks later (.judge now index) := by
  by_cases hjudging : pipeline.Judging index
  swap
  · exact .of_idle (judge_idle now hjudging) (moveJudge_idle now hjudging) rfl
  obtain ⟨message, lane, hhand, hlane⟩ := hjudging
  have hself : pipeline.move (.judge now index) (.hand index) =
      .past (message.isStale now pipeline.outbox.limits.writeTimeout) :=
    moveJudge_self hhand hlane
  have hqueues : ∀ other position,
      pipeline.move (.judge now index) (.lane other position) = .lane other position := by
    intro other position
    have hspot : Spot.lane other position ≠ .hand index := by simp
    exact moveJudge_of_ne hspot
  have hhands : ∀ other, other ≠ index →
      pipeline.move (.judge now index) (.hand other) = .hand other := by
    intro other hother
    have hspot : Spot.hand other ≠ .hand index := by simpa using hother
    exact moveJudge_of_ne hspot
  have hahead : pipeline.condemnedAhead later =
      pipeline.condemnedAhead (later ∘ pipeline.move (.judge now index)) := by
    simp only [condemnedAhead, move, Function.comp_apply, moveJudge_of_ne, ne_eq, reduceCtorEq,
      not_false_eq_true]
  have hin : pipeline.condemnedIn (later ∘ pipeline.move (.judge now index)) index =
      spare (fun position => !later (.lane index position)) (pipeline.waiting index) ++
        if message.isStale now pipeline.outbox.limits.writeTimeout then [message] else [] := by
    simp only [condemnedIn, Function.comp_apply, hqueues, hself, hpast, hhand]
    rfl
  cases hstale : message.isStale now pipeline.outbox.limits.writeTimeout with
  | true =>
      refine .of_lane (judge_stale hhand hlane hstale) ⟨hlane, lane?_same hlane,
        fun _ => holdLane_other _ _ _, fun _ _ => rfl⟩ rfl hahead (fun other _ => hqueues other)
        hhands ?_ rfl
      rw [hin, hstale, condemnedIn_of_none (congrArg _ (holdLane_self _ _ _))]
      exact List.perm_append_singleton _ _
  | false =>
      refine .of_lane (judge_fresh hhand hlane hstale) ⟨hlane, lane?_same hlane,
        fun _ => holdLane_other _ _ _, fun _ _ => rfl⟩ rfl hahead (fun other _ => hqueues other)
        hhands ?_ rfl
      rw [hin, hstale, condemnedIn_of_none (congrArg _ (holdLane_self _ _ _))]
      exact List.Perm.of_eq (List.append_nil _)

/-! ## Ends of the tasks -/

theorem waiting_stop (pipeline : Pipeline) (index : Nat) :
    (pipeline.withTransport pipeline.transport.stop).waiting index = [] := by
  have hlane : (pipeline.withTransport pipeline.transport.stop).outbox.lane? index =
      (pipeline.outbox.lane? index).map fun lane => { lane with queue := [], backlog := [] } :=
    List.getElem?_map
  rw [waiting, hlane]
  cases pipeline.outbox.lane? index <;> rfl

theorem tracks_stop (hpast : ∀ isStale, later (.past isStale) = isStale) :
    pipeline.Tracks later .stop := by
  refine .of_lanes rfl (fun index => ?_) ?_ rfl
  · have hlost : ∀ position, (later ∘ pipeline.move .stop) (.lane index position) = false :=
      fun _ => hpast false
    rw [condemnedIn, condemnedIn, waiting_stop, spare_not_of_none hlost]
    rfl
  · have hlost : ∀ position, (later ∘ pipeline.move .stop) (.queue position) = false :=
      fun _ => hpast false
    rw [condemnedAhead, condemnedAhead, spare_not_of_none hlost]
    exact List.Perm.of_eq (List.append_nil _)

theorem tracks_quit_distributor (hpast : ∀ isStale, later (.past isStale) = isStale) :
    pipeline.Tracks later (.quit .distributor) := by
  have hqueue : ∀ position,
      (later ∘ pipeline.move (.quit .distributor)) (.queue position) = false :=
    fun _ => hpast false
  have hhand : (later ∘ pipeline.move (.quit .distributor)) .distributor = false := hpast false
  refine .of_lanes rfl (fun index => rfl) ?_ rfl
  rw [condemnedAhead, condemnedAhead_of_none rfl, spare_not_of_none hqueue, hhand]
  exact List.Perm.refl _

theorem tracks_quit_lane (hpast : ∀ isStale, later (.past isStale) = isStale) (index : Nat) :
    pipeline.Tracks later (.quit (.lane index)) := by
  cases hlane : pipeline.outbox.lane? index with
  | none => exact .of_idle (quit_lane_of_none hlane) (moveQuit_of_none hlane) rfl
  | some lane =>
      have hturn := turns_holdLane hlane { lane with queue := [] } .empty
      have hqueue : ∀ position,
          (later ∘ pipeline.move (.quit (.lane index))) (.lane index position) = false := by
        simp [move, moveQuit, hlane, hpast]
      have hhand : (later ∘ pipeline.move (.quit (.lane index))) (.hand index) = false := by
        simp [move, moveQuit, hlane, hpast]
      refine .of_lane (quit_lane_of_some hlane) hturn rfl rfl
        (fun _ hother => (moveQuit_other hother).1) (fun _ hother => (moveQuit_other hother).2) ?_
        rfl
      rw [condemnedIn, spare_not_of_none hqueue, hhand,
        condemnedIn_of_none (congrArg _ (holdLane_self _ _ _)), hturn.waiting]
      exact List.Perm.refl _

/-- Every step keeps the account, whatever comes later. -/
theorem tracks_act (pipeline : Pipeline) (hpast : ∀ isStale, later (.past isStale) = isStale)
    (step : Step) : pipeline.Tracks later step := by
  cases step with
  | send message => exact tracks_send message
  | pull => exact tracks_pull
  | pass => exact tracks_pass hpast
  | pick index => exact tracks_pick index
  | judge now index => exact tracks_judge hpast now index
  | stop => exact tracks_stop hpast
  | quit task =>
      cases task with
      | distributor => exact tracks_quit_distributor hpast
      | lane index => exact tracks_quit_lane hpast index
      | writer index => exact tracks_behind rfl
  | _ => exact tracks_behind rfl

end Pipeline

end Peering
