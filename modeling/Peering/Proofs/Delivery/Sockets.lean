import Peering.Proofs.Delivery.Wire
import Peering.Proofs.Delivery.Accounting
import Peering.Proofs.Registry.Leads

/-!
# What delivery does to one connection

The steps of delivery, seen from one connection: what they can do to its socket,
which of them put bytes on it, what can lead to it afterwards, and which messages
and jobs are for it. No step touches the place of a session in the queue for a lock.
-/

namespace Peering

/-! ## Sockets -/

/-- All that a step of delivery can do to a socket. -/
inductive Touch : Option Socket → Option Socket → Prop where
  | rests (found : Option Socket) : Touch found found
  | opens (capacity : Nat) : Touch none (some (Socket.create capacity))
  | asks (socket : Socket) (holder : Holder) (hother : holder ≠ .session) :
      Touch (some socket) (some (socket.ask holder))
  | releases (socket : Socket) (index : Nat) :
      Touch (some socket) (some (socket.release (.lane index)))
  | shuts (socket : Socket) : Touch (some socket) (some (socket.shutWrite.release .closer))
  | fills (socket : Socket) (index : Nat) (bytes : Bytes)
      (hholds : socket.lock.head? = some (.lane index)) :
      Touch (some socket) (some { socket with unread := socket.unread ++ bytes })
  | reads (socket : Socket) (most : Nat) : Touch (some socket) (some (socket.read most).1)
  | hangsUp (socket : Socket) : Touch (some socket) (some socket.hangUp)

/-- The place of a session in the queue for the lock of its socket. -/
inductive Seat where
  | absent
  | waits
  | holds

/-- A session has this place at a socket, if the socket is there. -/
def Seat.TakenAt (seat : Seat) (found : Option Socket) : Prop :=
  match seat with
  | .absent => ∀ socket, found = some socket → Holder.session ∉ socket.lock
  | .waits => ∃ socket, found = some socket ∧ Holder.session ∈ socket.lock
  | .holds => ∃ socket, found = some socket ∧ socket.lock.head? = some .session

namespace Touch

variable {before after : Option Socket} {socket : Socket} {place : Seat}

theorem session (htouch : Touch (some socket) after) : ∃ next, after = some next ∧
    (Holder.session ∈ next.lock ↔ Holder.session ∈ socket.lock) ∧
    (socket.lock.head? = some .session → next.lock.head? = some .session) := by
  cases htouch with
  | rests => exact ⟨socket, rfl, Iff.rfl, id⟩
  | asks _ holder hother =>
      refine ⟨_, rfl, ?_, Socket.head?_ask⟩
      rw [Socket.mem_ask, or_iff_left hother.symm]
  | releases _ index =>
      refine ⟨_, rfl, ?_, fun hhead => Socket.head?_release hhead Holder.noConfusion⟩
      exact Socket.mem_release.trans (and_iff_left (show Holder.session ≠ .lane index from nofun))
  | shuts =>
      refine ⟨_, rfl, ?_, fun hhead => ?_⟩
      · exact Socket.mem_release.trans (and_iff_left (show Holder.session ≠ .closer from nofun))
      · have hshut : socket.shutWrite.lock.head? = some .session := hhead
        exact Socket.head?_release hshut Holder.noConfusion
  | fills _ index bytes hholds => exact ⟨_, rfl, Iff.rfl, id⟩
  | reads _ most => exact ⟨_, rfl, Iff.rfl, id⟩
  | hangsUp => exact ⟨_, rfl, Iff.rfl, id⟩

/-- A socket keeps its size, stays broken, and stays with its closing task until it is shut. -/
theorem endures (htouch : Touch before after) : Transport.Endures before after := by
  cases htouch with
  | rests => exact .refl _
  | opens capacity => exact nofun
  | asks socket holder _ => exact Transport.endures_ask socket holder
  | releases socket index => exact Transport.endures_release socket index
  | shuts socket =>
      have hbroken : (socket.shutWrite.release .closer).isBroken = true := Bool.or_true _
      rintro _ ⟨⟩
      exact ⟨_, rfl, rfl, fun _ => hbroken, fun _ => Or.inr hbroken⟩
  | fills socket index bytes _ =>
      rintro _ ⟨⟩
      exact ⟨_, rfl, rfl, id, Or.inl⟩
  | reads socket most =>
      rintro _ ⟨⟩
      exact ⟨_, rfl, rfl, id, Or.inl⟩
  | hangsUp socket =>
      rintro _ ⟨⟩
      exact ⟨_, rfl, rfl, fun _ => Bool.true_or _, Or.inl⟩

theorem isSome (htouch : Touch before after) (hbefore : before.isSome = true) :
    after.isSome = true := by
  obtain ⟨socket, rfl⟩ := Option.isSome_iff_exists.mp hbefore
  obtain ⟨next, rfl, _⟩ := htouch.session
  rfl

/-- No step of delivery takes the place of a session, or gives it one. -/
theorem seat (htouch : Touch before after) (hseat : place.TakenAt before) :
    place.TakenAt after := by
  cases place with
  | waits =>
      obtain ⟨socket, rfl, hmem⟩ := hseat
      obtain ⟨next, rfl, hsame, _⟩ := htouch.session
      exact ⟨next, rfl, hsame.mpr hmem⟩
  | holds =>
      obtain ⟨socket, rfl, hhead⟩ := hseat
      obtain ⟨next, rfl, _, hstays⟩ := htouch.session
      exact ⟨next, rfl, hstays hhead⟩
  | absent =>
      rintro next rfl
      cases hbefore : before with
      | some socket =>
          rw [hbefore] at htouch
          obtain ⟨_, hsame, hmem, _⟩ := htouch.session
          cases hsame
          rw [hmem]
          exact hseat socket hbefore
      | none =>
          rw [hbefore] at htouch
          cases htouch
          exact List.not_mem_nil

end Touch

namespace Transport

variable {transport : Transport} {conn changed : ConnId}

theorem touch_onSocket (transport : Transport) {change : Socket → Socket}
    (hchange : ∀ socket, transport.socket? changed = some socket →
      Touch (some socket) (some (change socket))) :
    Touch (transport.socket? conn) ((transport.onSocket changed change).socket? conn) := by
  rw [socket?_onSocket]
  split
  · rename_i hconn
    subst hconn
    cases hfound : transport.socket? conn with
    | none => exact .rests none
    | some socket => exact hchange socket hfound
  · exact .rests _

theorem touch_openSocket (transport : Transport) (capacity : Nat)
    (promote : Registry → ConnId → Registry) :
    Touch (transport.socket? conn) ((transport.openSocket capacity promote).socket? conn) := by
  unfold openSocket
  dsimp only
  split
  · exact .rests _
  rename_i hfree
  rw [socket?_addSocket]
  split
  · rename_i hconn
    subst hconn
    rw [Option.not_isSome_iff_eq_none.mp hfree]
    exact .opens capacity
  · exact .rests _

theorem touch_finishJob (transport : Transport) (index : Nat) (job : Job) (change : Tally → Tally) :
    Touch (transport.socket? conn) ((transport.finishJob index job change).socket? conn) := by
  unfold finishJob
  split
  · exact .rests _
  · exact touch_onSocket { transport with outbox := _ } fun socket _ =>
      .releases socket index

end Transport

namespace Pipeline

open Transport

variable {pipeline : Pipeline} {conn : ConnId}

theorem touch_quit (pipeline : Pipeline) (task : Task) :
    Touch (pipeline.transport.socket? conn) ((pipeline.quit task).1.transport.socket? conn) := by
  cases task with
  | distributor => exact .rests _
  | lane index =>
      unfold quit
      dsimp only
      split <;> exact .rests _
  | writer index =>
      unfold quit
      dsimp only
      split
      · exact .rests _
      · rename_i lane _
        cases lane.writer with
        | idle => exact .rests _
        | busy job left deadline =>
            exact touch_onSocket { pipeline.transport with outbox := _ } fun socket _ =>
              .releases socket index

theorem touch_put (pipeline : Pipeline) (index most : Nat) :
    Touch (pipeline.transport.socket? conn)
      ((pipeline.put index most).1.transport.socket? conn) := by
  rcases put_cases pipeline index most with
    hsame | ⟨_, _, _, bytes, _, _, socket, _, hsocket, hhead, hput⟩
  · rw [hsame]
    exact .rests _
  · rw [hput]
    refine touch_onSocket { pipeline.transport with outbox := _ } fun found hfound => ?_
    obtain rfl : socket = found := Option.some.inj (hsocket.symm.trans hfound)
    exact .fills socket index bytes hhead

theorem act_touch (pipeline : Pipeline) (step : Step) (conn : ConnId) :
    Touch (pipeline.transport.socket? conn) ((pipeline.act step).1.transport.socket? conn) := by
  cases step with
  | pull =>
      simp only [act, pull]
      split <;> exact .rests _
  | pass =>
      simp only [act, pass]
      split <;> exact .rests _
  | pick index =>
      simp only [act, pick]
      split <;> exact .rests _
  | judge now index =>
      simp only [act, judge]
      split
      · split <;> exact .rests _
      · exact .rests _
  | find index =>
      simp only [act, find]
      split
      · split <;> exact .rests _
      · exact .rests _
  | leave index =>
      simp only [act, leave]
      split <;> exact .rests _
  | receive index =>
      simp only [act, receive]
      split <;> exact .rests _
  | ask index =>
      simp only [act, ask]
      split
      · exact touch_onSocket { pipeline.transport with outbox := _ } fun socket _ =>
          .asks socket (.lane index) Holder.noConfusion
      · exact .rests _
  | put index most => exact touch_put pipeline index most
  | finish index =>
      simp only [act, finish]
      split
      · exact touch_finishJob _ _ _ _
      · exact .rests _
  | giveUp index =>
      simp only [act, giveUp]
      split
      · exact touch_finishJob _ _ _ _
      · exact .rests _
  | remove index =>
      simp only [act, remove]
      split <;> exact .rests _
  | askShut changed =>
      unfold act Transport.askShut
      dsimp only
      split
      · exact touch_onSocket _ fun socket _ => .asks socket .closer Holder.noConfusion
      · exact .rests _
  | shut changed =>
      unfold act Transport.shut
      dsimp only
      split
      · split
        · exact touch_onSocket _ fun socket _ => .shuts socket
        · exact .rests _
      · exact .rests _
  | read changed most =>
      unfold act Transport.read
      dsimp only
      split
      · exact .rests _
      · rename_i socket hsocket
        refine touch_onSocket _ fun found hfound => ?_
        obtain rfl : socket = found := Option.some.inj (hsocket.symm.trans hfound)
        exact .reads socket most
  | hangUp changed => exact touch_onSocket _ fun socket _ => .hangsUp socket
  | dial now node capacity => exact touch_openSocket _ _ _
  | accept now capacity => exact touch_openSocket _ _ _
  | quit task => exact touch_quit pipeline task
  | _ => exact .rests _

end Pipeline

/-! ## What writers put -/

def Note.laidOn (conn : ConnId) : Note → Bytes
  | .put job _ bytes => if job.conn = conn then bytes else []
  | _ => []

/-- The bytes that the writers of lanes have put on a connection, in order. -/
def laid (conn : ConnId) (notes : List Note) : Bytes :=
  notes.flatMap (Note.laidOn conn)

theorem laid_append (conn : ConnId) (first second : List Note) :
    laid conn (first ++ second) = laid conn first ++ laid conn second :=
  List.flatMap_append

theorem laid_of_elsewhere {conn : ConnId} {notes : List Note}
    (helsewhere : ∀ job left bytes, .put job left bytes ∈ notes → job.conn ≠ conn) :
    laid conn notes = [] := by
  refine List.flatMap_eq_nil_iff.mpr fun note hmem => ?_
  cases note with
  | put job left bytes => exact if_neg (helsewhere job left bytes hmem)
  | _ => rfl

namespace Pipeline

open Transport

variable {pipeline : Pipeline} {conn : ConnId} {message : Message}

/-- A message whose socket has not been found yet. -/
def Unbound (pipeline : Pipeline) (message : Message) : Prop :=
  message ∈ pipeline.entry ∨ ∃ index, message ∈ (pipeline.load index).waiting

/-- Some job with bytes left to write is for the connection. -/
def Carries (pipeline : Pipeline) (conn : ConnId) : Prop :=
  ∃ index, ∃ job ∈ (pipeline.load index).jobs, job.conn = conn

theorem load_withTransport {transport : Transport} (houtbox : transport.outbox = pipeline.outbox) :
    (pipeline.withTransport transport).load = pipeline.load :=
  load_congr (congrArg Outbox.lanes houtbox) rfl fun _ => rfl

theorem unbound_withTransport {transport : Transport} (houtbox : transport.outbox = pipeline.outbox) :
    (pipeline.withTransport transport).Unbound message ↔ pipeline.Unbound message := by
  have hentry : (pipeline.withTransport transport).entry = pipeline.entry :=
    congrArg (fun outbox => pipeline.distributor.toList ++ outbox.queue) houtbox
  rw [Unbound, Unbound, load_withTransport houtbox, hentry]

theorem carries_withTransport {transport : Transport} (houtbox : transport.outbox = pipeline.outbox) :
    (pipeline.withTransport transport).Carries conn ↔ pipeline.Carries conn := by
  rw [Carries, Carries, load_withTransport houtbox]

theorem carries_of_writes {index : Nat} {job : Job} {left : Bytes}
    (hwrites : pipeline.transport.Writes index job left) (hleft : left ≠ []) :
    pipeline.Carries job.conn := by
  obtain ⟨deadline, backlog, hwork⟩ := hwrites
  obtain ⟨queue, hlane⟩ := Outbox.work?_eq_some.mp hwork
  refine ⟨index, job, ?_, rfl⟩
  rw [load_of_lane hlane, Load.of, Writer.unwritten_busy hleft]
  exact List.mem_cons_self

/-- A step leaves the stream of a connection alone, or a writer that has the lock puts bytes there. -/
theorem quiet_or_fills (pipeline : Pipeline) (step : Step) (conn : ConnId) :
    Quiet conn pipeline.transport (pipeline.act step).1.transport (pipeline.act step).2 ∨
    ∃ index job bytes rest, Fills pipeline.transport (pipeline.act step).1.transport index job bytes
      rest ∧ job.conn = conn ∧ bytes ≠ [] ∧
        (pipeline.act step).2 = [.put job (bytes ++ rest) bytes] := by
  by_cases hput : ∃ index most, step = .put index most
  · obtain ⟨index, most, rfl⟩ := hput
    rw [act]
    rcases put_fills pipeline index most with hsame | ⟨job, bytes, rest, hfills, hnotes⟩
    · rw [hsame]
      exact Or.inl (.refl _)
    rw [hnotes]
    by_cases hbytes : bytes = []
    · subst hbytes
      exact Or.inl hfills.quiet_of_nil
    rw [if_neg hbytes]
    by_cases hconn : job.conn = conn
    · exact Or.inr ⟨index, job, bytes, rest, hfills, hconn, hbytes, rfl⟩
    · exact Or.inl (hfills.quiet_elsewhere hconn)
  · exact Or.inl (quiet_act pipeline fun index most heq => hput ⟨index, most, heq⟩)

/-- What the peer reads was there, or a writer has put it there. -/
theorem act_stream (pipeline : Pipeline) (step : Step) (conn : ConnId) :
    received conn (pipeline.act step).2 ++ (pipeline.act step).1.transport.unread conn =
      pipeline.transport.unread conn ++ laid conn (pipeline.act step).2 := by
  rcases quiet_or_fills pipeline step conn with
    hquiet | ⟨index, job, bytes, rest, hfills, rfl, _, hnotes⟩
  · rw [laid_of_elsewhere hquiet.puts, List.append_nil]
    exact hquiet.stream
  · rw [hnotes]
    refine hfills.unread_after.trans ?_
    simp [laid, Note.laidOn]

/-- Bytes come from a writer that has a job for the connection and the lock of it. -/
theorem writer_of_laid {step : Step} (hlaid : laid conn (pipeline.act step).2 ≠ []) :
    pipeline.Carries conn ∧ ∃ index, pipeline.transport.Holds conn index := by
  rcases quiet_or_fills pipeline step conn with
    hquiet | ⟨index, job, bytes, rest, hfills, rfl, hbytes, _⟩
  · exact absurd (laid_of_elsewhere hquiet.puts) hlaid
  · exact ⟨carries_of_writes hfills.writes fun hnil => hbytes (List.append_eq_nil_iff.mp hnil).1,
      index, hfills.holds⟩

/-! ## Messages and jobs -/

variable {after : Pipeline} {index other : Nat} {step : Step}

/-- After a change to one load, what a load has is in the new one, or it was there. -/
theorem mem_of_loadWith {A : Type} {item : A} {new : Load} (pick : Load → List A)
    (hload : after.load = pipeline.loadWith index new) (hmem : item ∈ pick (after.load other)) :
    item ∈ pick new ∨ item ∈ pick (pipeline.load other) := by
  rw [hload, loadWith] at hmem
  split at hmem
  · exact Or.inl hmem
  · exact Or.inr hmem

theorem within_of_others (hload : (after.load index).Within (pipeline.load index))
    (hothers : ∀ other, other ≠ index → after.load other = pipeline.load other) (other : Nat) :
    (after.load other).Within (pipeline.load other) := by
  by_cases hother : other = index
  · rw [hother]
    exact hload
  · rw [hothers other hother]
    exact .refl _

/-- A message whose socket is still to be found was handed in before, or just now. -/
theorem unbound_act (hafter : (pipeline.act step).1.Unbound message) :
    pipeline.Unbound message ∨ step.sent? = some message := by
  have hcalls := calls_act pipeline step
  have heffect := act_effect pipeline step
  generalize (pipeline.act step).1 = after at hafter heffect
  generalize (pipeline.act step).2 = notes at hcalls heffect
  have hsmaller : (∀ old ∈ after.entry, old ∈ pipeline.entry) →
      (∀ index, ∀ old ∈ (after.load index).waiting, pipeline.Unbound old) →
      pipeline.Unbound message := by
    intro hentry hload
    rcases hafter with hmem | ⟨index, hmem⟩
    · exact Or.inl (hentry message hmem)
    · exact hload index message hmem
  have hsame : after.entry = pipeline.entry → after.load = pipeline.load →
      pipeline.Unbound message := by
    intro hentry hload
    exact hsmaller (fun _ hmem => hentry ▸ hmem) fun index _ hmem => Or.inr ⟨index, hload ▸ hmem⟩
  cases heffect with
  | still _ _ entry load _ => exact Or.inl (hsame entry load)
  | refuses _ _ _ entry load _ => exact Or.inl (hsame entry load)
  | ignores _ _ entry load => exact Or.inl (hsame entry load)
  | accepts new _ entry load _ =>
      rcases hafter with hmem | ⟨index, hmem⟩
      · rw [entry] at hmem
        rcases List.mem_append.mp hmem with hold | hnew
        · exact Or.inl (Or.inl hold)
        · rw [List.mem_singleton] at hnew
          subst hnew
          exact Or.inr (Option.toList_eq_singleton_iff.mp hcalls.symm)
      · exact Or.inl (Or.inr ⟨index, load ▸ hmem⟩)
  | joins new _ entry load _ =>
      have hjoins : pipeline.Unbound new := Or.inl (entry ▸ List.mem_cons_self)
      refine Or.inl (hsmaller (fun _ hmem => entry ▸ List.mem_cons_of_mem _ hmem) ?_)
      intro other old hmem
      rcases mem_of_loadWith Load.waiting load hmem with hnew | hold
      · rcases List.mem_append.mp hnew with hold | heq
        · exact Or.inr ⟨_, hold⟩
        · rw [List.mem_singleton.mp heq]
          exact hjoins
      · exact Or.inr ⟨other, hold⟩
  | leaves index _ _ _ _ entry load others _ _ =>
      exact Or.inl (hsmaller (fun _ hmem => entry.subset hmem) fun other _ hmem =>
        Or.inr ⟨other, (within_of_others load others other).waiting.subset hmem⟩)
  | binds index job _ _ _ _ entry _ load _ =>
      refine Or.inl (hsmaller (fun _ hmem => entry ▸ hmem) fun other old hmem => ?_)
      rcases mem_of_loadWith Load.waiting load hmem with hnew | hold
      · exact Or.inr ⟨index, List.mem_of_mem_tail hnew⟩
      · exact Or.inr ⟨other, hold⟩
  | completes index job _ _ entry _ _ load _ =>
      refine Or.inl (hsmaller (fun _ hmem => entry ▸ hmem) fun other old hmem => ?_)
      rcases mem_of_loadWith Load.waiting load hmem with hnew | hold
      · exact Or.inr ⟨index, hnew⟩
      · exact Or.inr ⟨other, hold⟩
  | loses _ entry load =>
      exact Or.inl (hsmaller (fun _ hmem => entry.subset hmem) fun index _ hmem =>
        Or.inr ⟨index, (load index).waiting.subset hmem⟩)

/-- A job is for a connection that the destination of its message led to. -/
theorem carries_act (hafter : (pipeline.act step).1.Carries conn) :
    pipeline.Carries conn ∨ ∃ message, pipeline.Unbound message ∧
      pipeline.transport.registry.writerFor message.dest = some conn := by
  have heffect := act_effect pipeline step
  generalize (pipeline.act step).1 = after at hafter heffect
  generalize (pipeline.act step).2 = notes at heffect
  obtain ⟨lane, job, hmem, rfl⟩ := hafter
  cases heffect with
  | still _ _ _ load _ => exact Or.inl ⟨lane, job, load ▸ hmem, rfl⟩
  | refuses _ _ _ _ load _ => exact Or.inl ⟨lane, job, load ▸ hmem, rfl⟩
  | ignores _ _ _ load => exact Or.inl ⟨lane, job, load ▸ hmem, rfl⟩
  | accepts _ _ _ load _ => exact Or.inl ⟨lane, job, load ▸ hmem, rfl⟩
  | joins _ _ _ load _ =>
      rcases mem_of_loadWith Load.jobs load hmem with hnew | hold
      · exact Or.inl ⟨_, job, hnew, rfl⟩
      · exact Or.inl ⟨lane, job, hold, rfl⟩
  | leaves index _ _ _ _ _ load others _ _ =>
      exact Or.inl ⟨lane, job, (within_of_others load others lane).jobs.subset hmem, rfl⟩
  | binds index bound _ _ _ found _ waiting load _ =>
      rcases mem_of_loadWith Load.jobs load hmem with hnew | hold
      · rcases List.mem_append.mp hnew with hold | heq
        · exact Or.inl ⟨index, job, hold, rfl⟩
        · rw [List.mem_singleton] at heq
          subst heq
          exact Or.inr ⟨job.message, Or.inr ⟨index, waiting ▸ List.mem_cons_self⟩, found⟩
      · exact Or.inl ⟨lane, job, hold, rfl⟩
  | completes index _ _ _ _ _ _ load _ =>
      rcases mem_of_loadWith Load.jobs load hmem with hnew | hold
      · exact Or.inl ⟨index, job, List.mem_of_mem_tail hnew, rfl⟩
      · exact Or.inl ⟨lane, job, hold, rfl⟩
  | loses _ _ load => exact Or.inl ⟨lane, job, (load lane).jobs.subset hmem, rfl⟩

end Pipeline

/-! ## The registry -/

namespace Transport

open Registry

variable {transport before after : Transport} {conn : ConnId} {move : Move}

/-- Every connection of the registry has a socket. -/
structure Housed (transport : Transport) : Prop where
  keyed : transport.registry.Keyed
  socket : ∀ dest conn, transport.registry.Leads dest conn →
    (transport.socket? conn).isSome = true

/-- A new socket has been opened for a connection, and only this destination leads to it. -/
structure Opens (before after : Transport) (dest : Destination) (conn : ConnId) : Prop where
  fresh : before.socket? conn = none
  socket : (after.socket? conn).isSome = true
  leads : ∀ other found, after.registry.Leads other found →
    before.registry.Leads other found ∨ other = dest ∧ found = conn

theorem Housed.offer (h : Housed transport) (hoffer : move.offer? = some conn)
    (hfree : transport.socket? conn = none) :
    (transport.registry.takeConn.2.perform move).Keyed := by
  have hkeyed : transport.registry.takeConn.2.Keyed := { h.keyed with }
  obtain ⟨_, hsettles⟩ := hkeyed.perform_settles move fun found hfound hmem => by
    obtain rfl : conn = found := Option.some.inj (hoffer.symm.trans hfound)
    obtain ⟨dest, hleads⟩ := mem_handles_iff_leads.mp hmem
    have hsocket := h.socket dest conn hleads
    rw [hfree] at hsocket
    cases hsocket
  exact hsettles.keyed

theorem Housed.openSocket (h : Housed transport) (capacity : Nat) (dest : ConnId → Destination)
    (promote : ConnId → Move) (hoffer : ∀ conn, (promote conn).offer? = some conn)
    (hleads : ∀ registry conn other found, ((registry : Registry).perform (promote conn)).Leads other found →
      registry.Leads other found ∨ other = dest conn ∧ found = conn) :
    let opened := transport.openSocket capacity fun registry conn => registry.perform (promote conn)
    opened.registry.Keyed ∧ (opened = transport ∨
      Opens transport opened (dest transport.registry.nextConn) transport.registry.nextConn) := by
  dsimp only [Transport.openSocket]
  split
  · exact ⟨h.keyed, Or.inl rfl⟩
  · rename_i hfree
    have hfresh := Option.not_isSome_iff_eq_none.mp hfree
    refine ⟨h.offer (hoffer _) hfresh, Or.inr ⟨hfresh, ?_, fun other found => hleads _ _ other found⟩⟩
    rw [socket?_addSocket]
    exact congrArg Option.isSome (if_pos rfl)

end Transport

namespace Pipeline

open Transport Registry

variable {pipeline : Pipeline} {step : Step} {conn : ConnId}

/-- Whether a step offers no connection by itself, and leaves it to sessions to accept peers. -/
def Step.isOrdinary : Step → Bool
  | .manage move => move.offer?.isNone && move.accepts?.isNone
  | _ => true

/-- Whether a step offers no connection by itself. -/
def Step.offersNone : Step → Bool
  | .manage move => move.offer?.isNone
  | _ => true

/-- The accepted connection that a step says is a peer's. -/
def Step.accepts? : Step → Option ConnId
  | .manage move => move.accepts?
  | _ => none

theorem Step.ordinary_cases (hordinary : step.isOrdinary = true) :
    step.offersNone = true ∧ step.accepts? = none := by
  cases step with
  | manage move =>
      obtain ⟨hoffer, haccepts⟩ := Bool.and_eq_true_iff.mp hordinary
      exact ⟨hoffer, Option.isNone_iff_eq_none.mp haccepts⟩
  | _ => exact ⟨rfl, rfl⟩

/-- Whether a step asks the registry to change. -/
def Step.isRegistrar : Step → Bool
  | .remove _ => true
  | .dial _ _ _ => true
  | .accept _ _ => true
  | .cancel _ => true
  | .manage _ => true
  | _ => false

theorem registry_act_of_other (pipeline : Pipeline) (hstep : step.isRegistrar = false) :
    (pipeline.act step).1.transport.registry = pipeline.transport.registry := by
  cases step with
  | pull =>
      simp only [act, pull]
      split <;> rfl
  | pass =>
      simp only [act, pass]
      split <;> rfl
  | pick index =>
      simp only [act, pick]
      split <;> rfl
  | judge now index =>
      simp only [act, judge]
      split
      · split <;> rfl
      · rfl
  | find index =>
      simp only [act, find]
      split
      · split <;> rfl
      · rfl
  | leave index =>
      simp only [act, leave]
      split <;> rfl
  | receive index =>
      simp only [act, receive]
      split <;> rfl
  | ask index =>
      simp only [act, ask]
      split <;> rfl
  | put index most =>
      rcases put_cases pipeline index most with hsame | ⟨_, _, _, _, _, _, _, _, _, _, hput⟩
      · rw [act, hsame]
      · rw [act, hput]
        rfl
  | finish index =>
      simp only [act, finish]
      split
      · rename_i hlane
        rw [finishJob_of_lane hlane]
        rfl
      · rfl
  | giveUp index =>
      simp only [act, giveUp]
      split
      · rename_i hlane
        rw [finishJob_of_lane hlane]
        rfl
      · rfl
  | askShut changed =>
      simp only [act, Transport.askShut]
      split <;> rfl
  | shut changed =>
      simp only [act, Transport.shut]
      split
      · split <;> rfl
      · rfl
  | read changed most =>
      simp only [act, Transport.read]
      split <;> rfl
  | quit task =>
      cases task with
      | distributor => rfl
      | lane index =>
          simp only [act, quit]
          split <;> rfl
      | writer index =>
          simp only [act, quit]
          split
          · rfl
          · rename_i lane _
            cases lane.writer <;> rfl
  | remove index => cases hstep
  | dial now node capacity => cases hstep
  | accept now capacity => cases hstep
  | cancel changed => cases hstep
  | manage move => cases hstep
  | _ => rfl

/-- A step opens a socket, or what leads to an accepted connection did so or is named by it. -/
theorem act_registry (h : Housed pipeline.transport) (hoffers : step.offersNone = true) :
    (pipeline.act step).1.transport.registry.Keyed ∧
      (pipeline.transport.registry.Reroutes step.accepts? (pipeline.act step).1.transport.registry ∨
        ∃ conn, Opens pipeline.transport (pipeline.act step).1.transport (.inbound conn) conn ∨
          Opens pipeline.transport (pipeline.act step).1.transport (.outbound conn) conn) := by
  have hshrinks : ∀ after, pipeline.transport.registry.Shrinks after →
      after.Keyed ∧ pipeline.transport.registry.Reroutes step.accepts? after :=
    fun after hshrinks => ⟨h.keyed.shrink hshrinks, hshrinks.leads.reroutes⟩
  cases hstep : step.isRegistrar with
  | false =>
      rw [registry_act_of_other pipeline hstep]
      exact ⟨h.keyed, Or.inl (Shrinks.refl _).leads.reroutes⟩
  | true =>
      cases step with
      | remove index =>
          simp only [act, remove]
          split
          · exact (hshrinks _ (removeConn_shrinks _ _)).imp id Or.inl
          · exact (hshrinks _ (Shrinks.refl _)).imp id Or.inl
      | dial now node capacity =>
          obtain ⟨hkeyed, hsame | hopens⟩ := h.openSocket capacity .outbound
            (.promoteToOutbound now node ·) (fun _ => rfl) fun _ _ _ _ => promoteToOutbound_leads
          · exact ⟨hkeyed, Or.inl fun _ _ hleads => Or.inl (congrArg Transport.registry hsame ▸ hleads)⟩
          · exact ⟨hkeyed, Or.inr ⟨_, Or.inr hopens⟩⟩
      | accept now capacity =>
          obtain ⟨hkeyed, hsame | hopens⟩ := h.openSocket capacity .inbound
            (.promoteToInbound now ·) (fun _ => rfl) fun _ _ _ _ => promoteToInbound_leads
          · exact ⟨hkeyed, Or.inl fun _ _ hleads => Or.inl (congrArg Transport.registry hsame ▸ hleads)⟩
          · exact ⟨hkeyed, Or.inr ⟨_, Or.inl hopens⟩⟩
      | cancel changed => exact (hshrinks _ (cancel_shrinks _ changed)).imp id Or.inl
      | manage move =>
          have hoffer : move.offer? = none := Option.isNone_iff_eq_none.mp hoffers
          obtain ⟨_, hsettles⟩ := h.keyed.perform_settles move (by simp [hoffer])
          exact ⟨hsettles.keyed, Or.inl (h.keyed.perform_reroutes hoffer)⟩
      | _ => cases hstep

theorem housed_act (h : Housed pipeline.transport) (hoffers : step.offersNone = true) :
    Housed (pipeline.act step).1.transport := by
  have hstays : ∀ conn, (pipeline.transport.socket? conn).isSome = true →
      ((pipeline.act step).1.transport.socket? conn).isSome = true :=
    fun conn => (act_touch pipeline step conn).isSome
  obtain ⟨hkeyed, hreroutes | ⟨opened, hopens⟩⟩ := act_registry h hoffers
  · refine ⟨hkeyed, fun dest conn hleads => ?_⟩
    rcases hreroutes dest conn hleads with hold | ⟨_, hold | ⟨_, hold⟩⟩
    · exact hstays conn (h.socket dest conn hold)
    · exact hstays conn (h.socket _ conn hold)
    · exact hstays conn (h.socket _ conn hold)
  · have hopened : ∃ dest, Opens pipeline.transport (pipeline.act step).1.transport dest opened :=
      hopens.elim (fun hopens => ⟨_, hopens⟩) fun hopens => ⟨_, hopens⟩
    obtain ⟨dest, hopened⟩ := hopened
    refine ⟨hkeyed, fun other conn hleads => ?_⟩
    rcases hopened.leads other conn hleads with hold | ⟨_, rfl⟩
    · exact hstays conn (h.socket other conn hold)
    · exact hopened.socket

/-- What is not led to by others stays so, unless it is opened by a dial. -/
theorem aside_act (h : Housed pipeline.transport) (hordinary : step.isOrdinary = true)
    (haside : pipeline.transport.registry.Aside conn) :
    (pipeline.act step).1.transport.registry.Aside conn ∨
      pipeline.transport.socket? conn = none ∧
        ((pipeline.act step).1.transport.socket? conn).isSome = true ∧
        (pipeline.act step).1.transport.registry.Unaccepted conn := by
  obtain ⟨hoffers, hnone⟩ := step.ordinary_cases hordinary
  obtain ⟨_, hreroutes | ⟨opened, haccepts | hdials⟩⟩ := act_registry h hoffers
  · exact Or.inl (haside.reroutes hreroutes (by simp [hnone]))
  · refine Or.inl fun dest hleads => ?_
    rcases haccepts.leads dest conn hleads with hold | ⟨rfl, rfl⟩
    · exact haside dest hold
    · rfl
  · by_cases hconn : conn = opened
    · subst hconn
      refine Or.inr ⟨hdials.fresh, hdials.socket, fun hleads => ?_⟩
      rcases hdials.leads _ conn hleads with hold | ⟨heq, _⟩
      · have hsocket := h.socket _ conn hold
        rw [hdials.fresh] at hsocket
        cases hsocket
      · cases heq
    · refine Or.inl fun dest hleads => ?_
      rcases hdials.leads dest conn hleads with hold | ⟨_, heq⟩
      · exact haside dest hold
      · exact absurd heq hconn

/-- A connection that is there is not accepted later. -/
theorem unaccepted_act (h : Housed pipeline.transport) (hordinary : step.isOrdinary = true)
    (hsocket : (pipeline.transport.socket? conn).isSome = true)
    (hunaccepted : pipeline.transport.registry.Unaccepted conn) :
    (pipeline.act step).1.transport.registry.Unaccepted conn := by
  obtain ⟨_, hreroutes | ⟨opened, hopens⟩⟩ := act_registry h (step.ordinary_cases hordinary).1
  · exact hunaccepted.reroutes hreroutes
  · intro hleads
    have hfresh : pipeline.transport.socket? opened = none :=
      hopens.elim (·.fresh) (·.fresh)
    have hcase : pipeline.transport.registry.Leads (.inbound conn) conn ∨ conn = opened :=
      hopens.elim (fun hopens => (hopens.leads _ conn hleads).imp id (·.2))
        fun hopens => (hopens.leads _ conn hleads).imp id (·.2)
    rcases hcase with hold | rfl
    · exact hunaccepted hold
    · rw [hfresh] at hsocket
      cases hsocket

end Pipeline

end Peering
