import Mathlib.Data.List.Basic
import Mathlib.Data.List.Perm.Basic
import Peering.Proofs.Delivery.Effects

/-!
# Every message is accounted for

Before a shutdown a message that was handed in is in one queue, in one hand, or
it has met one fate, and the tally counts the fates. The queues and hands of a
lane are one load, so a step is checked against the entry and one load.
-/

namespace Peering

/-! ## The tally of some fates -/

def Tally.of (fates : List Fate) : Tally where
  written := fates.count .written
  stale := fates.count .stale
  queueFull := fates.count .refused + fates.count .laneFull
  backlogFull := fates.count .backlogFull
  noChannel := fates.count .noChannel
  failed := fates.count .failed
  oversized := fates.count .oversized

theorem Tally.of_concat (fates : List Fate) (fate : Fate) :
    Tally.of (fates ++ [fate]) = (Tally.of fates).add fate := by
  cases fate <;> simp [Tally.of, Tally.add, List.count_append] <;> omega

theorem Tally.of_append (fates later : List Fate) :
    Tally.of (fates ++ later) = later.foldl Tally.add (Tally.of fates) := by
  induction later generalizing fates with
  | nil => rw [List.append_nil, List.foldl_nil]
  | cons fate rest ih =>
      rw [List.append_cons, ih, Tally.of_concat, List.foldl_cons]

theorem Tally.total_of (fates : List Fate) : (Tally.of fates).total = fates.length := by
  induction fates with
  | nil => rfl
  | cons fate rest ih =>
      rw [List.length_cons, ← ih]
      cases fate <;> simp [Tally.of, Tally.total] <;> omega

/-! ## What is on its way -/

theorem Writer.job?_toList (writer : Writer) :
    writer.job?.toList = writer.done ++ writer.unwritten := by
  cases writer with
  | idle => rfl
  | busy job left deadline => cases left <;> rfl

namespace Load

variable {load : Load} {job : Job}

theorem messages_join (load : Load) (message : Message) :
    (load.join message).messages = load.messages ++ [message] :=
  (List.append_assoc _ _ _).symm

theorem messages_bind (hwaiting : load.waiting = job.message :: (load.bind job).waiting) :
    (load.bind job).messages = load.messages := by
  rw [messages, messages, hwaiting]
  simp [bind]

theorem messages_complete (hjobs : load.jobs = job :: (load.complete job).jobs)
    (hdone : load.done = []) : (load.complete job).messages = load.messages := by
  rw [messages, messages, hjobs, hdone]
  rfl

end Load

namespace Pipeline

variable {pipeline after : Pipeline} {step : Step} {notes : List Note} {index : Nat}

/-- The messages in the queues: that of all messages, those of the lanes, and the backlogs. -/
def queued (pipeline : Pipeline) : List Message :=
  pipeline.outbox.queue ++ pipeline.outbox.lanes.flatMap (·.queue) ++
    pipeline.outbox.lanes.flatMap (·.backlog.map (·.message))

/-- The job that the writer of a lane writes. -/
def writing? (pipeline : Pipeline) (index : Nat) : Option Job :=
  (pipeline.outbox.lane? index).bind (·.writer.job?)

/-- The messages in the hands of a lane and its writer. -/
def handsOf (pipeline : Pipeline) (index : Nat) : List Message :=
  (pipeline.laneHand index).message?.toList ++ ((pipeline.laneHand index).job?.toList ++
    (pipeline.writerHand index).job?.toList ++ (pipeline.writing? index).toList).map (·.message)

/-- The messages in the hands of the distributor, the lanes and the writers. -/
def inHand (pipeline : Pipeline) : List Message :=
  pipeline.distributor.toList ++
    (List.range pipeline.outbox.lanes.length).flatMap pipeline.handsOf

/-- All messages on their way, load by load. -/
def onWay (pipeline : Pipeline) : List Message :=
  pipeline.entry ++
    (List.range pipeline.outbox.lanes.length).flatMap fun index => (pipeline.load index).messages

theorem flatMap_eq_range {A B : Type} (xs : List A) (f : A → List B) :
    xs.flatMap f = (List.range xs.length).flatMap fun index => xs[index]?.toList.flatMap f := by
  induction xs with
  | nil => rfl
  | cons x rest ih =>
      rw [List.flatMap_cons, List.length_cons, List.range_succ_eq_map, List.flatMap_cons,
        List.flatMap_map, ih]
      simp

/-- The load of a lane is what is in its queues and hands. -/
theorem load_perm (hindex : index < pipeline.outbox.lanes.length) :
    ((pipeline.outbox.lanes[index]?.toList.flatMap (·.queue) ++
      pipeline.outbox.lanes[index]?.toList.flatMap (·.backlog.map (·.message))) ++
        pipeline.handsOf index).Perm (pipeline.load index).messages := by
  have hlane := List.getElem?_eq_getElem hindex
  rw [load_of_lane hlane, hlane, handsOf, writing?, Outbox.lane?, hlane]
  refine List.perm_iff_count.mpr fun message => ?_
  simp [Load.messages, Load.of, Writer.job?_toList, List.count_append]
  omega

/-- What is on its way is in a queue or in a hand. -/
theorem onWay_perm (pipeline : Pipeline) :
    (pipeline.queued ++ pipeline.inHand).Perm pipeline.onWay := by
  let indices := List.range pipeline.outbox.lanes.length
  let queues := fun index : Nat =>
    pipeline.outbox.lanes[index]?.toList.flatMap fun lane => lane.queue
  let backlogs := fun index : Nat =>
    pipeline.outbox.lanes[index]?.toList.flatMap fun lane => lane.backlog.map (·.message)
  have hqueued : pipeline.queued =
      pipeline.outbox.queue ++ indices.flatMap queues ++ indices.flatMap backlogs := by
    rw [queued, flatMap_eq_range pipeline.outbox.lanes,
      flatMap_eq_range pipeline.outbox.lanes (fun lane => lane.backlog.map (·.message))]
  have hinHand : pipeline.inHand =
      pipeline.distributor.toList ++ indices.flatMap pipeline.handsOf := rfl
  have honWay : pipeline.onWay = pipeline.distributor.toList ++ pipeline.outbox.queue ++
      indices.flatMap fun index => (pipeline.load index).messages := rfl
  have hqueues := List.flatMap_append_perm indices queues backlogs
  have hhands := List.flatMap_append_perm indices
    (fun index => queues index ++ backlogs index) pipeline.handsOf
  have hloads := List.Perm.flatMap_left indices
    fun index hmem => load_perm (List.mem_range.mp hmem)
  rw [hqueued, hinHand, honWay]
  refine List.perm_iff_count.mpr fun message => ?_
  have hcounts := And.intro (hqueues.count_eq message) ((hhands.trans hloads).count_eq message)
  simp only [List.count_append] at hcounts ⊢
  omega

/-- When one list of many changes, all of them together change by it. -/
theorem flatMap_range_perm (first second : Nat → List Message) {count : Nat}
    (hindex : index < count) (hothers : ∀ other, other ≠ index → second other = first other) :
    ((List.range count).flatMap second ++ first index).Perm
      ((List.range count).flatMap first ++ second index) := by
  refine List.perm_iff_count.mpr fun message => ?_
  induction count with
  | zero => cases hindex
  | succ count ih =>
      rw [List.range_succ, List.flatMap_append, List.flatMap_append]
      simp only [List.count_append, List.flatMap_cons, List.flatMap_nil, List.append_nil] at ih ⊢
      rcases Nat.lt_succ_iff_lt_or_eq.mp hindex with hbelow | hlast
      · have hcount := ih hbelow
        rw [hothers count (Nat.ne_of_gt hbelow)]
        omega
      · subst hlast
        have hsame : (List.range index).flatMap second = (List.range index).flatMap first :=
          List.flatMap_congr fun other hmem => hothers other (Nat.ne_of_lt (List.mem_range.mp hmem))
        rw [hsame]
        omega

/-- A step that only changes the entry and one load is checked on these. -/
theorem onWay_change {gained lost : List Message} (hindex : index < pipeline.outbox.lanes.length)
    (hlanes : after.outbox.lanes.length = pipeline.outbox.lanes.length)
    (hothers : ∀ other, other ≠ index → after.load other = pipeline.load other)
    (hchange : (pipeline.entry ++ (pipeline.load index).messages ++ gained).Perm
      (lost ++ (after.entry ++ (after.load index).messages))) :
    (pipeline.onWay ++ gained).Perm (lost ++ after.onWay) := by
  have hloads := flatMap_range_perm (fun other => (pipeline.load other).messages)
    (fun other => (after.load other).messages) hindex
    fun other hother => congrArg Load.messages (hothers other hother)
  refine List.perm_iff_count.mpr fun message => ?_
  have hcounts := And.intro (hloads.count_eq message) (hchange.count_eq message)
  simp only [onWay, hlanes, List.count_append] at hcounts ⊢
  omega

theorem onWay_congr (hlanes : after.outbox.lanes.length = pipeline.outbox.lanes.length)
    (hload : after.load = pipeline.load) : after.onWay = after.entry ++
      (List.range pipeline.outbox.lanes.length).flatMap fun index =>
        (pipeline.load index).messages := by
  rw [onWay, hlanes, hload]

/-- What a step books: what comes onto the way, what leaves it, and what is counted. -/
structure Books (pipeline after : Pipeline) (notes : List Note) : Prop where
  onWay : (pipeline.onWay ++ (calls notes).map (·.1)).Perm ((fates notes).map (·.1) ++ after.onWay)
  tally : after.outbox.tally = ((fates notes).map (·.2)).foldl Tally.add pipeline.outbox.tally
  /-- What is not taken is counted, and nothing else is counted as such. -/
  refused : ((calls notes).filter (!·.2)).map (·.1) =
    ((fates notes).filter (·.2.isRefusal)).map (·.1)

theorem Effect.books (h : Effect pipeline step after notes) (hstep : step.isShutdown = false)
    (hpos : 0 < pipeline.outbox.lanes.length) (hgoing : pipeline.outbox.stopped = false)
    (hlanes : after.outbox.lanes.length = pipeline.outbox.lanes.length) :
    Books pipeline after notes := by
  cases h with
  | still notes silent entry load tally =>
      have hcalls := calls_of_silent silent
      have hfates := fates_of_silent silent
      refine ⟨?_, ?_, ?_⟩
      · rw [hcalls, hfates, onWay_congr hlanes load, entry]
        exact List.Perm.of_eq (List.append_nil _)
      · rw [hfates]
        exact tally
      · rw [hcalls, hfates]
        rfl
  | accepts message fits entry load tally =>
      refine ⟨?_, tally, rfl⟩
      rw [onWay_congr hlanes load, entry, onWay, List.append_assoc, List.append_assoc]
      exact List.perm_append_comm.append_left _
  | refuses message fate refusal entry load tally =>
      refine ⟨?_, tally, ?_⟩
      · rw [onWay_congr hlanes load, entry]
        exact List.perm_append_comm
      · show [message] = ([(message, fate)].filter (·.2.isRefusal)).map (·.1)
        simp [refusal]
  | ignores message stopped entry load =>
      rw [hgoing] at stopped
      cases stopped
  | joins message lane entry load tally =>
      refine ⟨onWay_change lane hlanes (fun other hother => ?_) ?_, tally, rfl⟩
      · rw [load, loadWith_other hother]
      · rw [load, loadWith_self, entry, Load.messages_join]
        refine (List.Perm.of_eq (List.append_nil _)).trans ?_
        refine (List.perm_append_singleton _ _).symm.trans ?_
        exact List.Perm.of_eq (List.append_assoc _ _ _)
  | leaves index message fate lane counted entry load others gone tally =>
      refine ⟨onWay_change lane hlanes others ?_, tally, ?_⟩
      · exact (List.Perm.of_eq (List.append_nil _)).trans gone
      · show [] = ([(message, fate)].filter (·.2.isRefusal)).map (·.1)
        simp [counted]
  | binds index job lane asks hand found entry waiting load tally =>
      refine ⟨onWay_change lane hlanes (fun other hother => ?_) ?_, tally, rfl⟩
      · rw [load, loadWith_other hother]
      · rw [load, loadWith_self, entry, Load.messages_bind waiting]
        exact List.Perm.of_eq (List.append_nil _)
  | completes index job left lane entry jobs done load tally =>
      refine ⟨onWay_change lane hlanes (fun other hother => ?_) ?_, tally, rfl⟩
      · rw [load, loadWith_other hother]
      · rw [load, loadWith_self, entry, Load.messages_complete jobs done]
        exact List.Perm.of_eq (List.append_nil _)
  | loses why entry load =>
      rcases why with hshut | hzero
      · rw [hstep] at hshut
        cases hshut
      · exact absurd hpos (by omega)

/-! ## The calls -/

theorem calls_refusal (pipeline : Pipeline) (message : Message) :
    calls ((pipeline.refusal message).map (.settled message)) = [] := by
  rw [calls, List.filterMap_map]
  exact List.filterMap_eq_nil_iff.mpr fun _ _ => rfl

/-- The notes have the calls, and only them. -/
theorem calls_act (pipeline : Pipeline) (step : Step) :
    (calls (pipeline.act step).2).map (·.1) = step.sent?.toList := by
  cases step with
  | send message =>
      show message :: (calls ((pipeline.refusal message).map (.settled message))).map (·.1) = _
      rw [calls_refusal]
      rfl
  | pull =>
      simp only [act, pull]
      split <;> rfl
  | pass =>
      simp only [act, pass]
      split
      · rfl
      · split <;> rfl
  | pick index =>
      simp only [act, pick]
      split <;> rfl
  | judge now index =>
      simp only [act, judge]
      split
      · split <;> rfl
      · rfl
  | find index =>
      simp only [act, find]
      split
      · split <;> rfl
      · rfl
  | leave index =>
      simp only [act, leave]
      split
      · split <;> rfl
      · rfl
  | receive index =>
      simp only [act, receive]
      split <;> rfl
  | ask index =>
      simp only [act, ask]
      split <;> rfl
  | put index most =>
      rcases put_cases pipeline index most with hsame | ⟨_, _, _, _, _, _, _, _, _, _, hput⟩
      · rw [act, hsame]
        rfl
      · rw [act, hput]
        split <;> rfl
  | finish index =>
      simp only [act, finish]
      split <;> rfl
  | giveUp index =>
      simp only [act, giveUp]
      split <;> rfl
  | remove index =>
      simp only [act, remove]
      split <;> rfl
  | quit task =>
      cases task with
      | distributor => rfl
      | lane index =>
          simp only [act, quit]
          split <;> rfl
      | writer index =>
          simp only [act, quit]
          split <;> rfl
  | _ => rfl

end Pipeline

/-! ## Runs -/

namespace Chronicle

open Pipeline

variable {chronicle : Chronicle} {registry : Registry} {limits : OutboxLimits}

theorem calls_run (chronicle : Chronicle) (steps : List Step) :
    (calls (chronicle.run steps).notes).map (·.1) =
      (calls chronicle.notes).map (·.1) ++ steps.filterMap Step.sent? := by
  induction steps generalizing chronicle with
  | nil => exact (List.append_nil _).symm
  | cons step rest ih =>
      show (calls ((chronicle.act step).run rest).notes).map (·.1) = _
      rw [ih (chronicle.act step), act, calls_append, List.map_append, calls_act,
        List.append_assoc]
      cases step <;> rfl

/-- The account of a run, in balance. -/
structure Accounted (chronicle : Chronicle) : Prop where
  lanes : 0 < chronicle.pipeline.outbox.lanes.length
  going : chronicle.pipeline.outbox.stopped = false
  onWay : ((calls chronicle.notes).map (·.1)).Perm
    ((fates chronicle.notes).map (·.1) ++ chronicle.pipeline.onWay)
  tally : chronicle.pipeline.outbox.tally = Tally.of ((fates chronicle.notes).map (·.2))
  refused : ((calls chronicle.notes).filter (!·.2)).map (·.1) =
    ((fates chronicle.notes).filter (·.2.isRefusal)).map (·.1)

theorem accounted_opening (hlanes : 0 < limits.lanes) : Accounted (opening registry limits) where
  lanes := by
    show 0 < (List.replicate limits.lanes WriterLane.empty).length
    rwa [List.length_replicate]
  going := rfl
  onWay := by
    have honWay : (opening registry limits).pipeline.onWay = [] := by
      refine List.flatMap_eq_nil_iff.mpr fun index _ => ?_
      rw [load_opening]
      rfl
    rw [honWay]
    rfl
  tally := rfl
  refused := rfl

theorem Accounted.act (h : Accounted chronicle) {step : Step} (hstep : step.isShutdown = false) :
    Accounted (chronicle.act step) := by
  have hgoesOn := goesOn_act chronicle.pipeline hstep
  have hbooks := (act_effect chronicle.pipeline step).books hstep h.lanes h.going hgoesOn.lanes
  refine ⟨hgoesOn.lanes ▸ h.lanes, hgoesOn.stopped.trans h.going, ?_, ?_, ?_⟩
  · simp only [Chronicle.act, calls_append, fates_append, List.map_append, List.append_assoc]
    refine (h.onWay.append_right _).trans ?_
    rw [List.append_assoc]
    exact hbooks.onWay.append_left _
  · simp only [Chronicle.act, fates_append, List.map_append]
    rw [Tally.of_append, ← h.tally]
    exact hbooks.tally
  · simp only [Chronicle.act, calls_append, fates_append, List.filter_append, List.map_append]
    rw [h.refused, hbooks.refused]

theorem accounted_run (hlanes : 0 < limits.lanes) {steps : List Step}
    (hsteps : ∀ step ∈ steps, step.isShutdown = false) :
    Accounted ((opening registry limits).run steps) :=
  run_induction (accounted_opening hlanes) (fun _ _ h hstep => h.act hstep) steps hsteps

theorem Accounted.length_calls (h : Accounted chronicle) : (calls chronicle.notes).length =
    chronicle.pipeline.outbox.tally.total +
      (chronicle.pipeline.queued.length + chronicle.pipeline.inHand.length) := by
  have honWay := (h.onWay.trans ((onWay_perm _).symm.append_left _)).length_eq
  rw [List.length_map, List.length_append, List.length_append, List.length_map] at honWay
  rw [h.tally, Tally.total_of, List.length_map, honWay]

/-- A message that is not taken is counted at once. -/
theorem send_notes {pipeline : Pipeline} (hgoing : pipeline.outbox.stopped = false)
    (message : Message) : (pipeline.send message).2 = [.called message true] ∨
      ∃ fate, fate.isRefusal = true ∧
        (pipeline.send message).2 = [.called message false, .settled message fate] := by
  by_cases hlong : pipeline.outbox.limits.maxBody < message.frame.payload.length
  · refine Or.inr ⟨.oversized, rfl, ?_⟩
    simp [send, refusal, Outbox.send, hlong]
  by_cases hfull : pipeline.outbox.limits.sendQueue ≤ pipeline.outbox.queue.length
  · refine Or.inr ⟨.refused, rfl, ?_⟩
    simp [send, refusal, Outbox.send, hlong, hgoing, hfull]
  · refine Or.inl ?_
    simp [send, refusal, Outbox.send, hlong, hgoing, hfull]

/--
Before a shutdown every message that was handed in has met one fate or is in one
queue or one hand, and the tally counts the fates. A call says that its message
was taken unless the message is counted at once, for its length or because the send
queue is full, and only then is a message counted so.
-/
theorem run_accounts (registry : Registry) (limits : OutboxLimits) (hlanes : 0 < limits.lanes)
    (steps : List Step) (hsteps : ∀ step ∈ steps, step.isShutdown = false) :
    let chronicle := (opening registry limits).run steps
    let sent := steps.filterMap Step.sent?
    let tally := chronicle.pipeline.outbox.tally
    let onWay := chronicle.pipeline.queued ++ chronicle.pipeline.inHand
    sent.length = tally.total + chronicle.pipeline.queued.length +
      chronicle.pipeline.inHand.length ∧
    sent.Perm ((fates chronicle.notes).map (·.1) ++ onWay) ∧
    tally = Tally.of ((fates chronicle.notes).map (·.2)) ∧
    ((calls chronicle.notes).filter (!·.2)).map (·.1) =
      ((fates chronicle.notes).filter (·.2.isRefusal)).map (·.1) ∧
    ∀ before message later, steps = before ++ .send message :: later →
      let notes := (((opening registry limits).run before).pipeline.send message).2
      notes = [.called message true] ∨ ∃ fate, fate.isRefusal = true ∧
        notes = [.called message false, .settled message fate] := by
  intro chronicle sent tally onWay
  have haccount : Accounted chronicle := accounted_run hlanes hsteps
  have hsent : (calls chronicle.notes).map (·.1) = sent := calls_run _ steps
  have honWay : sent.Perm ((fates chronicle.notes).map (·.1) ++ onWay) :=
    hsent ▸ haccount.onWay.trans ((onWay_perm _).symm.append_left _)
  refine ⟨?_, honWay, haccount.tally, haccount.refused, ?_⟩
  · rw [← hsent, List.length_map, haccount.length_calls, Nat.add_assoc]
  · intro before message later hsplit
    refine send_notes (accounted_run hlanes fun step hmem => hsteps step ?_).going message
    rw [hsplit]
    exact List.mem_append_left _ hmem

/-- Five calls on one lane that has room for one message in each queue. -/
def fiveCalls : List Step :=
  let brief : Message := ⟨.inbound 1, ⟨1, 1, 1, [0xaa]⟩, 0⟩
  let long : Message := ⟨.inbound 1, ⟨1, 1, 1, [0xaa, 0xbb, 0xcc]⟩, 0⟩
  [.accept 0 64, .send brief, .send brief, .send long, .pull, .pass, .pick 0, .judge 0 0, .find 0,
    .leave 0, .receive 0, .ask 0, .put 0 64, .finish 0, .send brief, .pull, .send brief]

def narrow : Chronicle :=
  opening (Registry.create (Identity.create (Registry.repeatedId 0x7a) (.v4 0x7f000001) 1)
    ⟨8, 8, 600, 300, 600⟩) ⟨1, 1, 1, 1, 100, 2⟩

/-- One is written, one refused and one too long; one waits, and one is in hand. -/
theorem run_accounts_of_five_calls :
    let pipeline := (narrow.run fiveCalls).pipeline
    (∀ step ∈ fiveCalls, step.isShutdown = false) ∧
    pipeline.outbox.tally = { Tally.zero with written := 1, queueFull := 1, oversized := 1 } ∧
    pipeline.queued.length = 1 ∧ pipeline.inHand.length = 1 ∧
    (fiveCalls.filterMap Step.sent?).length =
      pipeline.outbox.tally.total + pipeline.queued.length + pipeline.inHand.length := by
  intro pipeline
  have hsteps : ∀ step ∈ fiveCalls, step.isShutdown = false := by decide
  obtain ⟨hcalls, _⟩ := run_accounts narrow.pipeline.transport.registry ⟨1, 1, 1, 1, 100, 2⟩
    (by decide) fiveCalls hsteps
  exact ⟨hsteps, by decide +kernel, by decide +kernel, by decide +kernel, hcalls⟩

end Chronicle

/-! ## Delivery -/

theorem Pipeline.inHand_atRest (transport : Transport) :
    (atRest transport).inHand =
      (transport.outbox.lanes.flatMap fun lane => lane.writer.job?.toList).map (·.message) := by
  rw [List.map_flatMap, flatMap_eq_range]
  refine List.flatMap_congr fun index _ => ?_
  show ((atRest transport).writing? index).toList.map Job.message = _
  unfold writing? Outbox.lane?
  show _ = (atRest transport).outbox.lanes[index]?.toList.flatMap _
  cases (atRest transport).outbox.lanes[index]? with
  | none => rfl
  | some lane => simp

/-- Between two steps of delivery only the writers have messages in hand. -/
theorem Pipeline.length_onWay_atRest (transport : Transport) :
    (atRest transport).queued.length + (atRest transport).inHand.length =
      transport.outbox.queue.length + (transport.outbox.lanes.flatMap (·.queue)).length +
        transport.outbox.jobs.length := by
  have hjobs := (List.flatMap_append_perm transport.outbox.lanes
    (fun lane => lane.writer.job?.toList) (·.backlog)).length_eq
  have hqueued : (atRest transport).queued = transport.outbox.queue ++
      transport.outbox.lanes.flatMap (·.queue) ++
        (transport.outbox.lanes.flatMap (·.backlog)).map (·.message) := by
    rw [List.map_flatMap]
    rfl
  rw [hqueued, inHand_atRest, Outbox.jobs]
  simp only [List.length_append, List.length_map] at hjobs ⊢
  have hsame : (transport.outbox.lanes.flatMap WriterLane.jobs).length = _ := hjobs.symm
  omega

/-- Before it stops, delivery has counted or still has every message that was handed in. -/
theorem Transport.tally_run (registry : Registry) (limits : OutboxLimits)
    (hlanes : 0 < limits.lanes) (actions : List Action) (hrunning : .stop ∉ actions) :
    let outbox := ((create registry limits).run actions).outbox
    (actions.filterMap Action.sent?).length = outbox.tally.total + (outbox.queue.length +
      (outbox.lanes.flatMap (·.queue)).length + outbox.jobs.length) := by
  intro outbox
  obtain ⟨steps, hserves, hreach⟩ := Chronicle.reaches_run registry limits actions
  have haccount : Chronicle.Accounted ((Chronicle.opening registry limits).run steps) :=
    Chronicle.accounted_run hlanes (hserves.running hrunning)
  have hsent : (calls ((Chronicle.opening registry limits).run steps).notes).map (·.1) =
      actions.filterMap Action.sent? := (Chronicle.calls_run _ steps).trans hserves.sent
  rw [← hsent, List.length_map, haccount.length_calls, hreach, Pipeline.length_onWay_atRest]
  rfl

end Peering
