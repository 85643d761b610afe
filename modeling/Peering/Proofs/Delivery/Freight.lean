import Peering.Proofs.Delivery.Endurance
import Peering.Proofs.Delivery.Sockets
import Peering.Proofs.Meeting.Cargo
import Peering.Proofs.Registry.Identity

/-!
# Freight for one connection

The steps of a node that neither open a socket nor read one, seen from one
connection: nothing new leads to it, a job is for it only if its destination leads
to it, and what has been handed in for it under its own handle is written in order,
or lost.
-/

namespace Peering

/-! ## Lists that lose items -/

/-- The second list has items of the first one, in any order. -/
def Thins {A : Type} (before after : List A) : Prop :=
  ∃ kept : List A, kept.Perm after ∧ kept.Sublist before

namespace Thins

variable {A : Type} {before after : List A}

theorem of_sublist (hsublist : after.Sublist before) : Thins before after :=
  ⟨after, .refl after, hsublist⟩

theorem of_perm (hperm : before.Perm after) : Thins before after :=
  ⟨before, hperm, .refl before⟩

theorem refl (items : List A) : Thins items items :=
  of_perm (.refl items)

theorem mem (h : Thins before after) {item : A} (hmem : item ∈ after) : item ∈ before := by
  obtain ⟨kept, hperm, hsublist⟩ := h
  exact hsublist.subset (hperm.mem_iff.mpr hmem)

theorem filter (h : Thins before after) (keep : A → Bool) :
    Thins (before.filter keep) (after.filter keep) := by
  obtain ⟨kept, hperm, hsublist⟩ := h
  exact ⟨kept.filter keep, hperm.filter keep, hsublist.filter keep⟩

/-- Of one item at most, it is kept or it goes. -/
theorem eq_or_nil (h : Thins before after) (hsingle : before.length ≤ 1) :
    after = before ∨ after = [] := by
  obtain ⟨kept, hperm, hsublist⟩ := h
  match before, hsingle with
  | [], _ =>
      rw [List.sublist_nil.mp hsublist] at hperm
      exact Or.inr (List.nil_perm.mp hperm)
  | [item], _ =>
      rcases List.sublist_singleton.mp hsublist with rfl | rfl
      · exact Or.inr (List.nil_perm.mp hperm)
      · exact Or.inl (List.singleton_perm.mp hperm).symm

end Thins

namespace Outbox

variable {outbox : Outbox} {index : Nat} {lane old : WriterLane} {message : Message} {conn : ConnId}

/-- What was handed in under the handle of a connection and is still to be written. -/
def freight (outbox : Outbox) (conn : ConnId) : List Bytes :=
  (outbox.cargo.filter (·.1 = .outbound conn)).map (·.2)

theorem mem_cargo_of_job {job : Job} (hjob : job ∈ outbox.jobs) :
    ∃ bytes, (job.message.dest, bytes) ∈ outbox.cargo := by
  obtain ⟨lane, hlane, hjob⟩ := List.mem_flatMap.mp hjob
  have hin : ∀ bytes, (job.message.dest, bytes) ∈ lane.writer.cargo ++
      lane.backlog.map (·.message.load) → (job.message.dest, bytes) ∈ outbox.cargo :=
    fun bytes hmem => List.mem_append_right _
      (List.mem_flatMap.mpr ⟨lane, hlane, List.mem_append_left _ hmem⟩)
  rcases List.mem_append.mp hjob with hbusy | hwaits
  · cases hwriter : lane.writer with
    | idle => simp [hwriter, Writer.job?] at hbusy
    | busy found left deadline =>
        have hsame : job = found := by simpa [hwriter, Writer.job?] using hbusy
        exact ⟨left, hin left (by simp [hwriter, Writer.cargo, hsame])⟩
  · exact ⟨_, hin _ (List.mem_append_right _ (List.mem_map.mpr ⟨job, hwaits, rfl⟩))⟩

theorem thins_setLane (hold : outbox.lane? index = some old)
    (hlane : lane.cargo.Sublist old.cargo) :
    Thins outbox.cargo (outbox.setLane index lane).cargo := by
  obtain ⟨before, after, hlanes, hset⟩ := lanes_setLane hold
  refine .of_sublist ?_
  rw [cargo, cargo, hset, hlanes, List.flatMap_append, List.flatMap_append, List.flatMap_cons,
    List.flatMap_cons]
  exact (List.Sublist.refl _).append ((List.Sublist.refl _).append (hlane.append (.refl _)))

theorem thins_enterLane (outbox : Outbox) (message : Message) :
    Thins (message.load :: outbox.cargo) (outbox.enterLane message).cargo := by
  unfold enterLane
  dsimp only
  split
  · exact .of_sublist (List.sublist_cons_self ..)
  rename_i lane hlane
  split
  · exact .of_sublist (List.sublist_cons_self ..)
  · obtain ⟨before, after, hlanes, hset⟩ := lanes_setLane hlane
    refine .of_perm ?_
    rw [cargo, cargo, hset, hlanes]
    simp only [List.flatMap_append, List.flatMap_cons, WriterLane.cargo, List.map_append,
      List.map_cons, List.map_nil, setLane, List.append_assoc, List.singleton_append]
    simp only [← List.append_assoc]
    exact List.perm_middle.symm

theorem thins_distribute (outbox : Outbox) : Thins outbox.cargo outbox.distribute.cargo := by
  unfold distribute
  split
  · exact .refl _
  · rename_i message rest hqueue
    have hcargo : outbox.cargo = message.load :: { outbox with queue := rest }.cargo := by
      simp only [cargo, hqueue, List.map_cons, List.cons_append]
    rw [hcargo]
    exact thins_enterLane _ message

theorem thins_send (outbox : Outbox) (message : Message) :
    Thins (message.load :: outbox.cargo) (outbox.send message).1.cargo := by
  have hkept : Thins (message.load :: outbox.cargo) outbox.cargo :=
    .of_sublist (List.sublist_cons_self ..)
  unfold send
  split
  · exact hkept
  split
  · exact hkept
  split
  · exact hkept
  · refine .of_perm ?_
    simp only [cargo, List.map_append, List.map_cons, List.map_nil, List.append_assoc,
      List.singleton_append]
    exact List.perm_middle.symm

/-- A message for another destination changes nothing for a connection. -/
theorem freight_send (hdest : message.dest ≠ .outbound conn) :
    (outbox.send message).1.freight conn = outbox.freight conn := by
  unfold send
  split
  · rfl
  split
  · rfl
  split
  · rfl
  · simp [freight, cargo, Message.load, hdest]

theorem thins_stop (outbox : Outbox) : Thins outbox.cargo outbox.stop.cargo := by
  refine .of_sublist ?_
  have hlanes : ∀ lanes : List WriterLane,
      ((lanes.map fun lane => { lane with queue := [], backlog := [] }).flatMap
        WriterLane.cargo).Sublist (lanes.flatMap WriterLane.cargo) := by
    intro lanes
    induction lanes with
    | nil => exact .refl _
    | cons lane rest ih =>
        refine List.Sublist.append ?_ ih
        simp [WriterLane.cargo]
  exact (List.nil_sublist _).append (hlanes outbox.lanes)

end Outbox

namespace Transport

variable {transport : Transport} {index : Nat} {job : Job} {left : Bytes} {conn : ConnId}

theorem thins_finishJob (transport : Transport) (index : Nat) (job : Job) (change : Tally → Tally) :
    Thins transport.outbox.cargo (transport.finishJob index job change).outbox.cargo := by
  unfold finishJob
  split
  · exact .refl _
  · rename_i lane hlane
    refine Outbox.thins_setLane hlane ?_
    simp only [WriterLane.cargo, Writer.cargo, List.nil_append, List.append_assoc]
    exact List.sublist_append_right ..

theorem thins_resolve (transport : Transport) (now : Int) (index : Nat) :
    Thins transport.outbox.cargo (transport.resolve now index).outbox.cargo := by
  unfold resolve
  dsimp only
  split
  · exact .refl _
  rename_i lane hlane
  split
  · exact .refl _
  rename_i message rest hqueue
  have hdrop : Thins transport.outbox.cargo
      (transport.outbox.setLane index { lane with queue := rest }).cargo := by
    refine Outbox.thins_setLane hlane ?_
    simp only [WriterLane.cargo, hqueue, List.map_cons]
    exact (List.Sublist.refl _).append (List.sublist_cons_self ..)
  split
  · exact hdrop
  split
  · exact hdrop
  · unfold Outbox.enterBacklog
    split
    · exact hdrop
    · refine Outbox.thins_setLane hlane ?_
      simp only [WriterLane.cargo, hqueue, List.map_cons, List.map_append, List.map_nil,
        List.append_assoc, List.singleton_append]
      exact .refl _

theorem thins_take (transport : Transport) (index : Nat) :
    Thins transport.outbox.cargo (transport.take index).outbox.cargo := by
  unfold take
  dsimp only
  split
  · rename_i queue job rest hlane
    refine Outbox.thins_setLane hlane ?_
    simp only [WriterLane.cargo, Writer.cargo, List.map_cons, List.nil_append, List.cons_append]
    exact .refl _
  · exact .refl _

/-- A writer takes bytes from the front of what its job has left. -/
theorem write_cargo {bytes : Bytes} (hwritable : transport.writable? index = some (job, left, bytes)) :
    ∃ rest before after, left = bytes ++ rest ∧
      transport.outbox.cargo = before ++ (job.message.dest, left) :: after ∧
      ((transport.write index).outbox.cargo = before ++ (job.message.dest, rest) :: after ∨
        rest = [] ∧ (transport.write index).outbox.cargo = before ++ after) := by
  obtain ⟨deadline, backlog, socket, hwork, hsocket, hhead, hopen, hbytes, _⟩ :=
    write_some hwritable
  have hheld : socket.isHeldBy (.lane index) = true := Socket.isHeldBy_iff.mpr hhead
  obtain ⟨queue, hlane⟩ := Outbox.work?_eq_some.mp hwork
  obtain ⟨before, after, hlanes, hset⟩ := Outbox.lanes_setLane hlane
  have hcargo : ∀ writer : Writer, (transport.outbox.setLane index ⟨queue, backlog, writer⟩).cargo =
      (transport.outbox.queue.map Message.load ++ before.flatMap WriterLane.cargo) ++
        (writer.cargo ++ (backlog.map (·.message.load) ++ queue.map Message.load ++
          after.flatMap WriterLane.cargo)) := by
    intro writer
    rw [Outbox.cargo, hset]
    simp only [List.flatMap_append, List.flatMap_cons, WriterLane.cargo, List.append_assoc]
    rfl
  have hbefore : transport.outbox.cargo =
      (transport.outbox.setLane index ⟨queue, backlog, .busy job left deadline⟩).cargo := by
    rw [Outbox.cargo, Outbox.cargo, hset, hlanes]
    rfl
  refine ⟨(socket.put left).2, _, _, hbytes ▸ (List.take_append_drop _ left).symm,
    hbefore.trans (hcargo _), ?_⟩
  by_cases hrest : (socket.put left).2 = []
  · have hwrite : transport.write index = (transport.onSocket job.conn fun _ => (socket.put left).1
        ).finishJob index job fun tally => { tally with written := tally.written + 1 } := by
      simp [write, hlane, hsocket, hheld, hopen, hrest]
    have hsame : (transport.onSocket job.conn fun _ => (socket.put left).1).outbox.lane? index =
        some ⟨queue, backlog, .busy job left deadline⟩ := hlane
    right
    refine ⟨hrest, ?_⟩
    rw [hwrite, finishJob, hsame]
    exact hcargo .idle
  · have hwrite : transport.write index =
        { transport.onSocket job.conn fun _ => (socket.put left).1 with
          outbox := transport.outbox.setLane index
            ⟨queue, backlog, .busy job (socket.put left).2 deadline⟩ } := by
      simp [write, hlane, hsocket, hheld, hopen, hrest, onSocket]
    left
    rw [hwrite]
    exact hcargo _

/-! ## Internal steps -/

/--
Whether an action neither opens a socket nor reads one, makes no connection active,
and hands in no more than messages for active peers.
-/
def Action.isInternal : Action → Bool
  | .send ⟨.active _, _, _⟩ => true
  | .send _ => false
  | .read .. => false
  | .dial .. => false
  | .accept .. => false
  | .manage move => !move.isPromotion
  | _ => true

def Action.sent : Action → List Message
  | .send message => [message]
  | _ => []

variable {action : Action}

theorem sent_active (hinternal : action.isInternal = true) {message : Message}
    (hsent : message ∈ action.sent) : ∃ peer, message.dest = .active peer := by
  cases action with
  | send new =>
      obtain rfl := List.mem_singleton.mp hsent
      obtain ⟨dest, frame, time⟩ := message
      cases dest with
      | active peer => exact ⟨peer, rfl⟩
      | inbound key => cases hinternal
      | outbound key => cases hinternal
  | _ => cases hsent

theorem thins_failJob (transport : Transport) (index : Nat) (job : Job) :
    Thins transport.outbox.cargo (transport.failJob index job).outbox.cargo :=
  thins_finishJob transport index job _

theorem thins_act (transport : Transport) (hwrite : ∀ index, action ≠ .write index) :
    Thins (action.sent.map Message.load ++ transport.outbox.cargo)
      (transport.act action).outbox.cargo := by
  cases action with
  | send message => exact Outbox.thins_send _ message
  | distribute => exact Outbox.thins_distribute _
  | resolve now index => exact thins_resolve transport now index
  | take index => exact thins_take transport index
  | write index => exact absurd rfl (hwrite index)
  | expire index =>
      rcases expire_cases transport index with hsame | ⟨job, _, _, _, _, _, hfail⟩
      · rw [act, hsame]
        exact .refl _
      · rw [act, hfail]
        exact thins_failJob transport index job
  | stop => exact Outbox.thins_stop _
  | askShut changed =>
      unfold act askShut
      dsimp only
      split <;> exact .refl _
  | shut changed =>
      unfold act Transport.shut
      dsimp only
      split
      · split <;> exact .refl _
      · exact .refl _
  | read changed most =>
      unfold act read
      dsimp only
      split <;> exact .refl _
  | dial now node capacity =>
      rw [act, Pipeline.outbox_openSocket]
      exact .refl _
  | accept now capacity =>
      rw [act, Pipeline.outbox_openSocket]
      exact .refl _
  | cancel changed =>
      unfold act
      dsimp only
      split <;> exact .refl _
  | manage move =>
      unfold act
      dsimp only
      split <;> exact .refl _
  | _ => exact .refl _

/-- A step that puts nothing on a socket thins what is under way. -/
theorem thins_write (hwritable : transport.writable? index = none) :
    Thins transport.outbox.cargo (transport.write index).outbox.cargo := by
  rcases write_none hwritable with hsame | ⟨job, _, _, _, _, _, _, _, hfail⟩
  · rw [hsame]
    exact .refl _
  · rw [hfail]
    exact thins_failJob transport index job

/-- What is under way was so before, at least in part, or it is for an active peer. -/
theorem cargo_act (hinternal : action.isInternal = true) {dest : Destination} {bytes : Bytes}
    (hmem : (dest, bytes) ∈ (transport.act action).outbox.cargo) :
    (∃ all, (dest, all) ∈ transport.outbox.cargo) ∨ ∃ peer, dest = .active peer := by
  have hcases : (dest, bytes) ∈ action.sent.map Message.load ∨
      (dest, bytes) ∈ transport.outbox.cargo → (∃ all, (dest, all) ∈ transport.outbox.cargo) ∨
        ∃ peer, dest = .active peer := by
    rintro (hnew | hold)
    · obtain ⟨message, hsent, hload⟩ := List.mem_map.mp hnew
      obtain ⟨peer, hpeer⟩ := sent_active hinternal hsent
      exact Or.inr ⟨peer, (congrArg Prod.fst hload).symm.trans hpeer⟩
    · exact Or.inl ⟨bytes, hold⟩
  by_cases hwrite : ∀ index, action ≠ .write index
  · exact hcases (List.mem_append.mp ((thins_act transport hwrite).mem hmem))
  obtain ⟨index, rfl⟩ : ∃ index, action = .write index := by simpa using hwrite
  cases hwritable : transport.writable? index with
  | none => exact hcases (Or.inr ((thins_write hwritable).mem hmem))
  | some found =>
      obtain ⟨job, left, wrote⟩ := found
      obtain ⟨rest, before, after, _, hwas, hnow⟩ := write_cargo hwritable
      rw [hwas]
      rw [Transport.act] at hmem
      left
      rcases hnow with hnow | ⟨_, hnow⟩ <;> rw [hnow] at hmem
      · rcases List.mem_append.mp hmem with hmem | hmem
        · exact ⟨bytes, List.mem_append_left _ hmem⟩
        rcases List.mem_cons.mp hmem with heq | hmem
        · exact ⟨left, (Prod.mk.inj heq).1 ▸ List.mem_append_right _ List.mem_cons_self⟩
        · exact ⟨bytes, List.mem_append_right _ (List.mem_cons_of_mem _ hmem)⟩
      · rcases List.mem_append.mp hmem with hmem | hmem
        · exact ⟨bytes, List.mem_append_left _ hmem⟩
        · exact ⟨bytes, List.mem_append_right _ (List.mem_cons_of_mem _ hmem)⟩

/-- Only the writer of a job for the connection puts bytes there. -/
theorem unread_write (hjob : ∀ job left bytes, transport.writable? index = some (job, left, bytes) →
    job.conn ≠ conn) : (transport.write index).unread conn = transport.unread conn := by
  cases hwritable : transport.writable? index with
  | none =>
      rcases write_none hwritable with hsame | ⟨_, _, _, _, _, hwork, _, _, hfail⟩
      · rw [hsame]
      · rw [hfail]
        exact unread_failJob hwork
  | some found =>
      obtain ⟨job, left, bytes⟩ := found
      obtain ⟨_, _, _, _, _, _, _, _, _, _, _, _, hsocket, _⟩ := write_some hwritable
      refine unread_congr ((hsocket conn).trans (if_neg ?_))
      exact (hjob job left bytes hwritable).symm

theorem mem_jobs_of_writable {bytes : Bytes}
    (hwritable : transport.writable? index = some (job, left, bytes)) :
    job ∈ transport.outbox.jobs := by
  obtain ⟨_, _, _, hwork, _⟩ := write_some hwritable
  exact Outbox.mem_jobs.mpr ⟨index, _, _, hwork, Or.inl rfl⟩

/-- Where no job is for a connection, an internal step puts nothing on it. -/
theorem unread_act_of_idle (hinternal : action.isInternal = true)
    (hidle : ¬transport.HasJob conn) :
    (transport.act action).unread conn = transport.unread conn := by
  by_cases hwrite : ∀ index, action ≠ .write index
  · exact unread_act hwrite fun most hread => by rw [hread] at hinternal; cases hinternal
  obtain ⟨index, rfl⟩ : ∃ index, action = .write index := by simpa using hwrite
  exact unread_write fun job left bytes hwritable hconn =>
    hidle ⟨job, mem_jobs_of_writable hwritable, hconn⟩

/-- Bytes of a freight have come onto the socket in order, and others may be lost. -/
def Ships (conn : ConnId) (before after : Transport) : Prop :=
  (after.outbox.freight conn).length ≤ 1 ∧ ∃ bytes lost,
    (before.outbox.freight conn).flatten = bytes ++ (after.outbox.freight conn).flatten ++ lost ∧
    after.unread conn = before.unread conn ++ bytes

theorem ships_of_thins {after : Transport}
    (hsingle : (transport.outbox.freight conn).length ≤ 1)
    (hthins : Thins (transport.outbox.cargo.filter (·.1 = .outbound conn))
      (after.outbox.cargo.filter (·.1 = .outbound conn)))
    (hunread : after.unread conn = transport.unread conn) : Ships conn transport after := by
  have hlength : (transport.outbox.cargo.filter (·.1 = .outbound conn)).length ≤ 1 := by
    simpa [Outbox.freight] using hsingle
  rcases hthins.eq_or_nil hlength with hsame | hnil
  · have hfreight : after.outbox.freight conn = transport.outbox.freight conn :=
      congrArg (List.map Prod.snd) hsame
    exact ⟨hfreight ▸ hsingle, [], [], by simp [hfreight], by simp [hunread]⟩
  · have hfreight : after.outbox.freight conn = [] := congrArg (List.map Prod.snd) hnil
    exact ⟨by simp [hfreight], [], (transport.outbox.freight conn).flatten, by simp [hfreight],
      by simp [hunread]⟩

theorem ships_write (hbound : ∀ job ∈ transport.outbox.jobs,
      job.conn = conn ↔ job.message.dest = .outbound conn)
    (hsingle : (transport.outbox.freight conn).length ≤ 1) :
    Ships conn transport (transport.write index) := by
  cases hwritable : transport.writable? index with
  | none =>
      refine ships_of_thins hsingle ((thins_write hwritable).filter _) (unread_write ?_)
      intro job left bytes hsome
      rw [hwritable] at hsome
      cases hsome
  | some found =>
      obtain ⟨job, left, bytes⟩ := found
      have hjob := hbound job (mem_jobs_of_writable hwritable)
      obtain ⟨rest, before, after, hleft, hwas, hnow⟩ := write_cargo hwritable
      by_cases hconn : job.conn = conn
      · -- the job has all of the freight
        have hdest := hjob.mp hconn
        have hfirst : transport.outbox.freight conn =
            (before.filter (·.1 = .outbound conn)).map (·.2) ++
              left :: (after.filter (·.1 = .outbound conn)).map (·.2) := by
          simp [Outbox.freight, hwas, hdest]
        rw [hfirst] at hsingle
        simp only [List.length_append, List.length_cons, List.length_map] at hsingle
        have hbefore : before.filter (·.1 = .outbound conn) = [] :=
          List.length_eq_zero_iff.mp (by omega)
        have hafter : after.filter (·.1 = .outbound conn) = [] :=
          List.length_eq_zero_iff.mp (by omega)
        have hall : (transport.outbox.freight conn).flatten = left := by
          simp [hfirst, hbefore, hafter]
        have hkept : ((transport.write index).outbox.freight conn).length ≤ 1 ∧
            ((transport.write index).outbox.freight conn).flatten = rest := by
          rcases hnow with hnow | ⟨rfl, hnow⟩
          · simp [Outbox.freight, hnow, hdest, hbefore, hafter]
          · simp [Outbox.freight, hnow, hbefore, hafter]
        refine ⟨hkept.1, bytes, [], by rw [hall, hkept.2, List.append_nil, hleft], ?_⟩
        obtain ⟨_, _, socket, _, hsocket, _, _, _, _, _, _, _, hsockets, _⟩ := write_some hwritable
        subst hconn
        simp only [unread, hsockets, if_true, hsocket, Option.map_some, Option.getD_some]
        split <;> rfl
      · have hdest : job.message.dest ≠ .outbound conn := fun hdest => hconn (hjob.mpr hdest)
        have hsame : (transport.write index).outbox.cargo.filter (·.1 = .outbound conn) =
            transport.outbox.cargo.filter (·.1 = .outbound conn) := by
          rcases hnow with hnow | ⟨_, hnow⟩ <;> simp [hnow, hwas, hdest]
        refine ships_of_thins hsingle (hsame ▸ .refl _) (unread_write ?_)
        intro other _ _ hsome
        rw [hwritable] at hsome
        cases hsome
        exact hconn

/-- An internal step ships the freight of a connection, as long as all its jobs belong to it. -/
theorem ships_act (hinternal : action.isInternal = true)
    (hbound : ∀ job ∈ transport.outbox.jobs, job.conn = conn ↔ job.message.dest = .outbound conn)
    (hsingle : (transport.outbox.freight conn).length ≤ 1) :
    Ships conn transport (transport.act action) := by
  by_cases hwrite : ∀ index, action ≠ .write index
  · refine ships_of_thins hsingle ?_
      (unread_act hwrite fun most hread => by rw [hread] at hinternal; cases hinternal)
    have hsent : (action.sent.map Message.load).filter (·.1 = .outbound conn) = [] := by
      refine List.filter_eq_nil_iff.mpr fun load hmem => ?_
      obtain ⟨message, hsent, rfl⟩ := List.mem_map.mp hmem
      obtain ⟨peer, hpeer⟩ := sent_active hinternal hsent
      simp [Message.load, hpeer]
    have hthins := (thins_act transport hwrite).filter (·.1 = .outbound conn)
    rwa [List.filter_append, hsent, List.nil_append] at hthins
  · obtain ⟨index, rfl⟩ : ∃ index, action = .write index := by simpa using hwrite
    exact ships_write hbound hsingle

/-! ## The registry -/

open Registry (Narrows)

theorem registry_failJob {deadline : Nat} {backlog : List Job}
    (hwork : transport.outbox.work? index = some (.busy job left deadline, backlog)) :
    (transport.failJob index job).registry = transport.registry.perform (.removeConn job.conn) :=
  (failJob_busy hwork).1

/-- All that an internal step can do to the registry. -/
theorem registry_act_cases (transport : Transport) (hinternal : action.isInternal = true) :
    (transport.act action).registry = transport.registry ∨
      (∃ conn, (transport.act action).registry = transport.registry.cancel conn) ∨
      ∃ move, move.offer? = none ∧ move.isPromotion = false ∧
        (transport.act action).registry = transport.registry.perform move := by
  cases action with
  | resolve now index => exact Or.inl (resolve_cases transport now index).1
  | take index =>
      rcases take_cases transport index with hstill | ⟨job, rest, hold⟩
      · exact Or.inl (congrArg Transport.registry hstill)
      · exact Or.inl (take_idle hold).1
  | write index =>
      cases hwritable : transport.writable? index with
      | none =>
          rcases write_none hwritable with hstill | ⟨job, _, _, _, _, hold, _, _, hfail⟩
          · exact Or.inl (congrArg Transport.registry hstill)
          · exact Or.inr (Or.inr ⟨.removeConn job.conn, rfl, rfl,
              (congrArg Transport.registry hfail).trans (registry_failJob hold)⟩)
      | some found =>
          obtain ⟨_, _, _, _, _, _, _, _, hregistry, _⟩ := write_some hwritable
          exact Or.inl hregistry
  | expire index =>
      rcases expire_cases transport index with hstill | ⟨job, _, _, _, hold, _, hfail⟩
      · exact Or.inl (congrArg Transport.registry hstill)
      · exact Or.inr (Or.inr ⟨.removeConn job.conn, rfl, rfl,
          (congrArg Transport.registry hfail).trans (registry_failJob hold)⟩)
  | askShut changed =>
      unfold Transport.act askShut
      dsimp only
      split <;> exact Or.inl rfl
  | shut changed =>
      unfold Transport.act Transport.shut
      dsimp only
      split
      · split <;> exact Or.inl rfl
      · exact Or.inl rfl
  | read changed most => cases hinternal
  | dial now node capacity => cases hinternal
  | accept now capacity => cases hinternal
  | cancel changed =>
      unfold Transport.act
      dsimp only
      split
      · exact Or.inr (Or.inl ⟨changed, rfl⟩)
      · exact Or.inl rfl
  | manage move =>
      unfold Transport.act
      dsimp only
      split
      · rename_i hmove
        exact Or.inr (Or.inr ⟨move, Option.isNone_iff_eq_none.mp (Bool.and_eq_true_iff.mp hmove).1,
          by simpa [Action.isInternal] using hinternal, rfl⟩)
      · exact Or.inl rfl
  | _ => exact Or.inl rfl

/-- After an internal step nothing new leads to any connection. -/
theorem registry_act (hkeyed : transport.registry.Keyed) (hinternal : action.isInternal = true) :
    (transport.act action).registry.Keyed ∧
      transport.registry.Narrows (transport.act action).registry := by
  rcases registry_act_cases transport hinternal with hsame | ⟨conn, hcancel⟩ |
    ⟨move, hoffer, hpromotion, hmove⟩
  · rw [hsame]
    exact ⟨hkeyed, (Registry.Shrinks.refl _).leads⟩
  · have hshrinks := Registry.cancel_shrinks transport.registry conn
    rw [hcancel]
    exact ⟨hkeyed.shrink hshrinks, hshrinks.leads⟩
  · obtain ⟨_, hsettles⟩ := hkeyed.perform_settles move (by simp [hoffer])
    rw [hmove]
    exact ⟨hsettles.keyed, Registry.perform_narrows hoffer hpromotion⟩

/-- A node keeps its id through internal steps. -/
theorem id_act (hinternal : action.isInternal = true) :
    (transport.act action).registry.self.id = transport.registry.self.id := by
  rcases registry_act_cases transport hinternal with hsame | ⟨conn, hcancel⟩ |
    ⟨move, _, _, hmove⟩
  · rw [hsame]
  · rw [hcancel, Registry.cancel_self]
  · rw [hmove, Registry.perform_id]

end Transport

end Peering
