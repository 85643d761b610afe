import Mathlib.Tactic
import Peering.Proofs.Delivery.Effects

/-!
# What is left without the stale messages

Whether a message goes stale is seen only when its lane looks at the clock, long
after it was handed in. So every message on its way is followed through the steps
that are still to come, and a state is looked at without those that will be found
stale.

Main statement: the tasks behind that look do the same to what is left as they do
to the whole.
-/

namespace Peering

/-- Where a message is before its lane has looked at the clock, and how it has left. -/
inductive Spot where
  | queue (position : Nat)
  | distributor
  | lane (index position : Nat)
  /-- A lane has taken it. -/
  | hand (index : Nat)
  /-- A lane has looked at the clock, or the message was lost before. -/
  | past (isStale : Bool)
deriving DecidableEq

/-- Whether a message has been found stale. -/
def Spot.foundStale : Spot → Bool
  | .past isStale => isStale
  | _ => false

namespace Pipeline

/-! ## The way of one message -/

section Moves

variable (pipeline : Pipeline)

def movePull (spot : Spot) : Spot :=
  if pipeline.distributor.isSome then spot
  else match spot with
    | .queue 0 => .distributor
    | .queue (position + 1) => .queue position
    | spot => spot

/-- Where the message of the distributor comes to. -/
def landing (message : Message) : Spot :=
  let index := message.dest.lane pipeline.outbox.lanes.length
  match pipeline.outbox.lane? index with
  | none => .past false
  | some lane =>
      if pipeline.outbox.limits.laneQueue ≤ lane.queue.length then .past false
      else .lane index lane.queue.length

def movePass (spot : Spot) : Spot :=
  match spot, pipeline.distributor with
  | .distributor, some message => pipeline.landing message
  | spot, _ => spot

def movePick (index : Nat) (spot : Spot) : Spot :=
  if pipeline.laneHand index = .empty then
    match spot with
    | .lane other 0 => if other = index then .hand index else spot
    | .lane other (position + 1) => if other = index then .lane index position else spot
    | spot => spot
  else spot

def moveJudge (now : Int) (index : Nat) (spot : Spot) : Spot :=
  match pipeline.laneHand index, pipeline.outbox.lane? index with
  | .taken message, some _ =>
      if spot = .hand index then
        .past (message.isStale now pipeline.outbox.limits.writeTimeout)
      else spot
  | _, _ => spot

/-- What has no lane yet, or waits in one, is lost. -/
def moveStop : Spot → Spot
  | .queue _ => .past false
  | .lane _ _ => .past false
  | spot => spot

def moveQuit : Task → Spot → Spot
  | .distributor, .queue _ => .past false
  | .distributor, .distributor => .past false
  | .lane index, .lane other position =>
      if other = index ∧ (pipeline.outbox.lane? index).isSome then .past false
      else .lane other position
  | .lane index, .hand other =>
      if other = index ∧ (pipeline.outbox.lane? index).isSome then .past false else .hand other
  | _, spot => spot

/-- Where a step takes what is at a spot. -/
def move : Step → Spot → Spot
  | .pull => pipeline.movePull
  | .pass => pipeline.movePass
  | .pick index => pipeline.movePick index
  | .judge now index => pipeline.moveJudge now index
  | .stop => moveStop
  | .quit task => pipeline.moveQuit task
  | _ => id

end Moves

/-- Whether what is at a spot will be found stale in some steps. -/
def goesStale : Pipeline → List Step → Spot → Bool
  | _, [], spot => spot.foundStale
  | pipeline, step :: rest, spot =>
      (pipeline.act step).1.goesStale rest (pipeline.move step spot)

theorem move_past (pipeline : Pipeline) (step : Step) (isStale : Bool) :
    pipeline.move step (.past isStale) = .past isStale := by
  cases step with
  | pull => exact ite_self _
  | pick index => exact ite_self _
  | judge now index =>
      simp only [move, moveJudge]
      split <;> rfl
  | quit task => cases task <;> rfl
  | _ => rfl

theorem goesStale_past (pipeline : Pipeline) (steps : List Step) (isStale : Bool) :
    pipeline.goesStale steps (.past isStale) = isStale := by
  induction steps generalizing pipeline with
  | nil => rfl
  | cons step rest ih => rw [goesStale, move_past, ih]

end Pipeline

/-! ## What is left of a state -/

/-- A list without what is at the doomed positions. -/
def spare {A : Type} (doomed : Nat → Bool) : List A → List A
  | [] => []
  | item :: later =>
      if doomed 0 then spare (fun position => doomed (position + 1)) later
      else item :: spare (fun position => doomed (position + 1)) later

section Spare

variable {A : Type} {doomed : Nat → Bool}

theorem spare_append (doomed : Nat → Bool) (items more : List A) : spare doomed (items ++ more) =
    spare doomed items ++ spare (fun position => doomed (items.length + position)) more := by
  induction items generalizing doomed with
  | nil => simp [spare]
  | cons item later ih =>
      rw [List.cons_append, spare, spare, ih, List.length_cons]
      simp only [Nat.add_right_comm later.length 1]
      split
      · rfl
      · rfl

theorem spare_concat (doomed : Nat → Bool) (items : List A) (item : A) :
    spare doomed (items ++ [item]) =
      spare doomed items ++ if doomed items.length then [] else [item] := by
  rw [spare_append]
  rfl

theorem length_spare_le (doomed : Nat → Bool) (items : List A) :
    (spare doomed items).length ≤ items.length := by
  induction items generalizing doomed with
  | nil => exact Nat.le_refl 0
  | cons item later ih =>
      rw [spare]
      split
      · exact Nat.le_succ_of_le (ih _)
      · exact Nat.succ_le_succ (ih _)

theorem spare_of_none (hnone : ∀ position, doomed position = false) (items : List A) :
    spare doomed items = items := by
  induction items generalizing doomed with
  | nil => rfl
  | cons item later ih => simp [spare, hnone 0, ih fun position => hnone (position + 1)]

end Spare

def LaneHand.spared (isDoomed : Bool) : LaneHand → LaneHand
  | .taken message => if isDoomed then .empty else .taken message
  | hand => hand

def WriterLane.spared (doomed : Nat → Bool) (lane : WriterLane) : WriterLane :=
  { lane with queue := spare doomed lane.queue }

/-- The outbox without its doomed messages, as if nothing had ever been found stale. -/
def Outbox.spared (doomed : Spot → Bool) (outbox : Outbox) : Outbox :=
  { outbox with
    queue := spare (fun position => doomed (.queue position)) outbox.queue
    lanes := outbox.lanes.mapIdx fun index lane =>
      lane.spared fun position => doomed (.lane index position)
    tally := { outbox.tally with stale := 0 } }

def Transport.spared (doomed : Spot → Bool) (transport : Transport) : Transport :=
  { transport with outbox := transport.outbox.spared doomed }

def Pipeline.spared (doomed : Spot → Bool) (pipeline : Pipeline) : Pipeline where
  transport := pipeline.transport.spared doomed
  distributor := if doomed .distributor then none else pipeline.distributor
  laneHand := fun index => (pipeline.laneHand index).spared (doomed (.hand index))
  writerHand := pipeline.writerHand

namespace Outbox

theorem lane?_spared (doomed : Spot → Bool) (outbox : Outbox) (index : Nat) :
    (outbox.spared doomed).lane? index = (outbox.lane? index).map
      (WriterLane.spared fun position => doomed (.lane index position)) :=
  List.getElem?_mapIdx

theorem spared_setLane (doomed : Spot → Bool) (outbox : Outbox) (index : Nat) (lane : WriterLane) :
    (outbox.setLane index lane).spared doomed = (outbox.spared doomed).setLane index
      (lane.spared fun position => doomed (.lane index position)) := by
  simp [spared, setLane, List.mapIdx_set]

/-- A count of another kind is the same without the stale messages. -/
theorem spared_count (doomed : Spot → Bool) (outbox : Outbox) (change : Tally → Tally)
    (hchange : ∀ tally, change { tally with stale := 0 } = { change tally with stale := 0 }) :
    (outbox.count change).spared doomed = (outbox.spared doomed).count change := by
  simp [spared, count, hchange]

theorem spared_enterBacklog (doomed : Spot → Bool) (outbox : Outbox) (index : Nat)
    (lane : WriterLane) (job : Job) :
    (outbox.enterBacklog index lane job).spared doomed = (outbox.spared doomed).enterBacklog index
      (lane.spared fun position => doomed (.lane index position)) job := by
  have hlimits : (outbox.spared doomed).limits = outbox.limits := rfl
  have hbacklog : ∀ doomed, (lane.spared doomed).backlog = lane.backlog := fun _ => rfl
  unfold enterBacklog
  rw [hlimits, hbacklog]
  split
  · simp only [spared_count, implies_true, spared_setLane]
  · rw [spared_setLane]
    rfl

end Outbox

namespace Transport

variable (doomed : Spot → Bool) (transport : Transport)

theorem spared_onSocket (conn : ConnId) (change : Socket → Socket) :
    (transport.onSocket conn change).spared doomed =
      (transport.spared doomed).onSocket conn change :=
  rfl

theorem spared_finishJob (index : Nat) (job : Job) (change : Tally → Tally)
    (hchange : ∀ tally, change { tally with stale := 0 } = { change tally with stale := 0 }) :
    (transport.finishJob index job change).spared doomed =
      (transport.spared doomed).finishJob index job change := by
  have houtbox : (transport.spared doomed).outbox = transport.outbox.spared doomed := rfl
  unfold finishJob
  simp only [houtbox, Outbox.lane?_spared]
  cases transport.outbox.lane? index with
  | none => rfl
  | some lane =>
      simp only [Option.map_some, spared_onSocket]
      simp only [spared, Outbox.spared_count doomed _ _ hchange, Outbox.spared_setLane]
      rfl

theorem spared_openSocket (capacity : Nat) (promote : Registry → ConnId → Registry) :
    (transport.openSocket capacity promote).spared doomed =
      (transport.spared doomed).openSocket capacity promote := by
  have hregistry : (transport.spared doomed).registry = transport.registry := rfl
  have hsocket : ∀ conn, (transport.spared doomed).socket? conn = transport.socket? conn :=
    fun _ => rfl
  simp only [openSocket, hregistry, hsocket]
  split <;> rfl

end Transport

namespace Pipeline

section Parts

variable (doomed : Spot → Bool) (pipeline : Pipeline)

theorem outbox_spared : (pipeline.spared doomed).outbox = pipeline.outbox.spared doomed :=
  rfl

theorem lane?_spared (index : Nat) : (pipeline.spared doomed).outbox.lane? index =
    (pipeline.outbox.lane? index).map
      (WriterLane.spared fun position => doomed (.lane index position)) :=
  Outbox.lane?_spared doomed pipeline.outbox index

theorem laneHand_spared (index : Nat) : (pipeline.spared doomed).laneHand index =
    (pipeline.laneHand index).spared (doomed (.hand index)) :=
  rfl

theorem writerHand_spared : (pipeline.spared doomed).writerHand = pipeline.writerHand :=
  rfl

theorem length_spared :
    (pipeline.spared doomed).outbox.lanes.length = pipeline.outbox.lanes.length :=
  List.length_mapIdx

/-- What loses no message loses only its count of the stale ones. -/
theorem spared_of_still {doomed : Spot → Bool} {pipeline : Pipeline}
    (hqueue : spare (fun position => doomed (.queue position)) pipeline.outbox.queue =
      pipeline.outbox.queue)
    (hlanes : ∀ index lane, pipeline.outbox.lane? index = some lane →
      lane.spared (fun position => doomed (.lane index position)) = lane)
    (hdistributor : (if doomed .distributor then none else pipeline.distributor) =
      pipeline.distributor)
    (hhands : ∀ index, (pipeline.laneHand index).spared (doomed (.hand index)) =
      pipeline.laneHand index) :
    pipeline.spared doomed =
      pipeline.withOutbox (pipeline.outbox.count fun tally => { tally with stale := 0 }) := by
  have hlist : ∀ index, (pipeline.outbox.spared doomed).lane? index =
      pipeline.outbox.lane? index := by
    intro index
    rw [Outbox.lane?_spared]
    cases hlane : pipeline.outbox.lane? index with
    | none => rfl
    | some lane => exact congrArg some (hlanes index lane hlane)
  have houtbox : pipeline.outbox.spared doomed =
      pipeline.outbox.count fun tally => { tally with stale := 0 } := by
    have hlanes := List.ext_getElem? hlist
    simp only [Outbox.spared, Outbox.count, hqueue] at hlanes ⊢
    rw [hlanes]
  have htransport : pipeline.transport.spared doomed =
      { pipeline.transport with outbox := pipeline.outbox.spared doomed } := rfl
  rw [spared, htransport, houtbox, hdistributor, funext hhands]
  rfl

theorem spared_withOutbox (outbox : Outbox) : (pipeline.withOutbox outbox).spared doomed =
    (pipeline.spared doomed).withOutbox (outbox.spared doomed) :=
  rfl

theorem spared_withTransport (transport : Transport) :
    (pipeline.withTransport transport).spared doomed =
      (pipeline.spared doomed).withTransport (transport.spared doomed) :=
  rfl

theorem spared_holdDistributor (hand : Option Message) :
    (pipeline.holdDistributor hand).spared doomed =
      (pipeline.spared doomed).holdDistributor (if doomed .distributor then none else hand) :=
  rfl

theorem spared_holdLane (index : Nat) (hand : LaneHand) :
    (pipeline.holdLane index hand).spared doomed =
      (pipeline.spared doomed).holdLane index (hand.spared (doomed (.hand index))) := by
  simp only [spared, holdLane, Pipeline.mk.injEq, true_and, and_true]
  funext other
  split
  · rename_i hother
    rw [hother]
  · rfl

theorem spared_holdWriter (index : Nat) (hand : WriterHand) :
    (pipeline.holdWriter index hand).spared doomed =
      (pipeline.spared doomed).holdWriter index hand :=
  rfl

end Parts

/-! ## Behind the look at the clock -/

/-- A step does the same to what is left as to the whole, and shows the same. -/
def Spares (doomed : Spot → Bool) (pipeline : Pipeline) (step : Step) : Prop :=
  (pipeline.spared doomed).act step =
    ((pipeline.act step).1.spared doomed, (pipeline.act step).2)

variable (doomed : Spot → Bool) (pipeline : Pipeline)

theorem spares_find (index : Nat) : Spares doomed pipeline (.find index) := by
  have hregistry : (pipeline.spared doomed).transport.registry = pipeline.transport.registry := rfl
  simp only [Spares, act, find]
  rw [lane?_spared, laneHand_spared, hregistry]
  cases pipeline.laneHand index with
  | empty => rfl
  | taken message => cases hdoom : doomed (.hand index) <;> simp [LaneHand.spared]
  | bound job => rfl
  | fresh message =>
      cases pipeline.outbox.lane? index with
      | none => rfl
      | some lane =>
          simp only [LaneHand.spared, Option.map_some]
          cases pipeline.transport.registry.writerFor message.dest with
          | none =>
              simp only [spared_holdLane, spared_withOutbox, Outbox.spared_count, implies_true]
              rfl
          | some conn => simp only [spared_holdLane, LaneHand.spared]

theorem spares_leave (index : Nat) : Spares doomed pipeline (.leave index) := by
  simp only [Spares, act, leave]
  rw [lane?_spared, laneHand_spared]
  cases pipeline.laneHand index with
  | empty => rfl
  | taken message => cases hdoom : doomed (.hand index) <;> simp [LaneHand.spared]
  | fresh message => rfl
  | bound job =>
      cases pipeline.outbox.lane? index with
      | none => rfl
      | some lane =>
          simp only [LaneHand.spared, Option.map_some, spared_holdLane, spared_withOutbox,
            Outbox.spared_enterBacklog]
          rfl

theorem spares_receive (index : Nat) : Spares doomed pipeline (.receive index) := by
  simp only [Spares, act, receive]
  rw [lane?_spared, writerHand_spared]
  cases pipeline.outbox.lane? index with
  | none => cases pipeline.writerHand index <;> rfl
  | some lane =>
      obtain ⟨queue, backlog, writer⟩ := lane
      -- Only an empty hand, an idle writer and a job that waits make a step.
      cases pipeline.writerHand index <;> cases backlog <;> cases writer <;> try rfl
      simp only [Option.map_some, WriterLane.spared, spared_holdWriter, spared_withOutbox,
        Outbox.spared_setLane]
      rfl

theorem spares_ask (index : Nat) : Spares doomed pipeline (.ask index) := by
  simp only [Spares, act, ask]
  rw [lane?_spared, writerHand_spared]
  cases pipeline.outbox.lane? index with
  | none => cases pipeline.writerHand index <;> rfl
  | some lane =>
      obtain ⟨queue, backlog, writer⟩ := lane
      cases pipeline.writerHand index <;> cases writer <;> try rfl
      simp only [Option.map_some, WriterLane.spared, spared_holdWriter, spared_withTransport,
        Transport.spared_onSocket]
      simp only [Transport.spared, Outbox.spared_setLane]
      rfl

theorem spares_put (index most : Nat) : Spares doomed pipeline (.put index most) := by
  have hsocket : ∀ conn, (pipeline.spared doomed).transport.socket? conn =
      pipeline.transport.socket? conn := fun _ => rfl
  simp only [Spares, act, put]
  rw [lane?_spared]
  cases pipeline.outbox.lane? index with
  | none => rfl
  | some lane =>
      obtain ⟨queue, backlog, writer⟩ := lane
      cases writer with
      | idle => rfl
      | busy job left deadline =>
          simp only [Option.map_some, WriterLane.spared, hsocket]
          cases pipeline.transport.socket? job.conn with
          | none => rfl
          | some socket =>
              dsimp only
              split
              · simp only [spared_withTransport, Transport.spared_onSocket]
                simp only [Transport.spared, Outbox.spared_setLane]
                rfl
              · rfl

theorem spares_finish (index : Nat) : Spares doomed pipeline (.finish index) := by
  simp only [Spares, act, finish]
  rw [lane?_spared]
  cases pipeline.outbox.lane? index with
  | none => rfl
  | some lane =>
      obtain ⟨queue, backlog, writer⟩ := lane
      cases writer with
      | idle => rfl
      | busy job left deadline =>
          cases left with
          | cons byte rest => rfl
          | nil =>
              simp only [Option.map_some, WriterLane.spared, spared_withTransport,
                Transport.spared_finishJob, implies_true]
              rfl

theorem spares_giveUp (index : Nat) : Spares doomed pipeline (.giveUp index) := by
  simp only [Spares, act, giveUp]
  rw [lane?_spared, writerHand_spared]
  cases pipeline.outbox.lane? index with
  | none => cases pipeline.writerHand index <;> rfl
  | some lane =>
      obtain ⟨queue, backlog, writer⟩ := lane
      cases pipeline.writerHand index <;> cases writer <;> try rfl
      simp only [Option.map_some, WriterLane.spared, spared_holdWriter, spared_withTransport,
        Transport.spared_finishJob, implies_true]
      rfl

theorem spares_remove (index : Nat) : Spares doomed pipeline (.remove index) := by
  simp only [Spares, act, remove]
  rw [writerHand_spared]
  cases pipeline.writerHand index <;> rfl

theorem spared_letGo (index : Nat) (writer : Writer) (transport : Transport) :
    (letGo index writer transport).spared doomed =
      letGo index writer (transport.spared doomed) := by
  cases writer <;> rfl

theorem spares_quit_writer (index : Nat) : Spares doomed pipeline (.quit (.writer index)) := by
  simp only [Spares, act, quit]
  rw [lane?_spared]
  cases pipeline.outbox.lane? index with
  | none => rfl
  | some lane =>
      simp only [Option.map_some, spared_holdWriter, spared_withTransport, spared_letGo]
      simp only [Transport.spared, Outbox.spared_setLane]
      rfl

theorem spares_outside {step : Step} (hstep : step.isOutside = true) :
    Spares doomed pipeline step := by
  have hsocket : ∀ conn, (pipeline.spared doomed).transport.socket? conn =
      pipeline.transport.socket? conn := fun _ => rfl
  cases step with
  | askShut conn =>
      have hwaits : (pipeline.spared doomed).transport.awaitsShut conn =
          pipeline.transport.awaitsShut conn := rfl
      simp only [Spares, act, Transport.askShut, hwaits]
      split <;> rfl
  | shut conn =>
      simp only [Spares, act, Transport.shut, hsocket]
      cases pipeline.transport.socket? conn with
      | none => rfl
      | some socket =>
          dsimp only
          split <;> rfl
  | read conn most =>
      simp only [Spares, act, Transport.read, hsocket]
      cases pipeline.transport.socket? conn <;> rfl
  | hangUp conn => rfl
  | tick duration => rfl
  | dial now node capacity =>
      simp only [Spares, act, spared_withTransport, Transport.spared_openSocket]
      rfl
  | accept now capacity =>
      simp only [Spares, act, spared_withTransport, Transport.spared_openSocket]
      rfl
  | cancel conn => rfl
  | manage move => rfl
  | _ => cases hstep

/-- Whether a step touches no message that its lane has not judged yet. -/
def Step.isBehind : Step → Bool
  | .find _ => true
  | .leave _ => true
  | .receive _ => true
  | .ask _ => true
  | .put _ _ => true
  | .finish _ => true
  | .giveUp _ => true
  | .remove _ => true
  | .quit (.writer _) => true
  | step => step.isOutside

/-- The tasks behind the look at the clock do not see what goes stale before it. -/
theorem spares_behind {step : Step} (hstep : step.isBehind = true) :
    Spares doomed pipeline step := by
  cases step with
  | find index => exact spares_find doomed pipeline index
  | leave index => exact spares_leave doomed pipeline index
  | receive index => exact spares_receive doomed pipeline index
  | ask index => exact spares_ask doomed pipeline index
  | put index most => exact spares_put doomed pipeline index most
  | finish index => exact spares_finish doomed pipeline index
  | giveUp index => exact spares_giveUp doomed pipeline index
  | remove index => exact spares_remove doomed pipeline index
  | quit task =>
      cases task with
      | writer index => exact spares_quit_writer doomed pipeline index
      | _ => cases hstep
  | send | pull | pass | pick | judge | stop => cases hstep
  | _ => exact spares_outside doomed pipeline rfl

end Pipeline

end Peering
