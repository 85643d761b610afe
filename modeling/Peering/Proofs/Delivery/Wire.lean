import Peering.Proofs.Delivery.Destinations

/-!
# What comes onto the connections

What a peer reads from a connection is made of pieces, each the front of a frame,
and the pieces that are whole frames are the jobs that have been written, in their
order. A writer in the middle of a frame has the lock, so nobody comes between.
-/

namespace Peering

/-! ## What the notes say of a connection -/

/-- What bytes do to the pieces of a connection. -/
def Note.onto (conn : ConnId) (pieces : List Piece) : Note → List Piece
  | .put job left bytes => if job.conn = conn then Watch.note pieces job left bytes else pieces
  | _ => pieces

def Note.readFrom (conn : ConnId) : Note → Bytes
  | .read changed bytes => if changed = conn then bytes else []
  | _ => []

/-- Whether a note says nothing of bytes. -/
def Note.isBare : Note → Bool
  | .put _ _ _ => false
  | .read _ _ => false
  | _ => true

/-- What the writers have put on a connection, the newest piece first. -/
def pieces (conn : ConnId) (notes : List Note) : List Piece :=
  notes.foldl (Note.onto conn) []

/-- What the peer has read from a connection. -/
def received (conn : ConnId) (notes : List Note) : Bytes :=
  notes.flatMap (Note.readFrom conn)

theorem pieces_append (conn : ConnId) (first second : List Note) :
    pieces conn (first ++ second) = second.foldl (Note.onto conn) (pieces conn first) :=
  List.foldl_append

theorem received_append (conn : ConnId) (first second : List Note) :
    received conn (first ++ second) = received conn first ++ received conn second :=
  List.flatMap_append

theorem received_of_bare {conn : ConnId} {notes : List Note}
    (hbare : notes.all Note.isBare = true) : received conn notes = [] := by
  refine List.flatMap_eq_nil_iff.mpr fun note hmem => ?_
  have hnote := List.all_eq_true.mp hbare note hmem
  cases note with
  | read changed bytes => cases hnote
  | _ => rfl

section Elsewhere

variable {conn : ConnId} {notes : List Note}
  (helsewhere : ∀ job left bytes, .put job left bytes ∈ notes → job.conn ≠ conn)
include helsewhere

/-- Bytes for other connections make no pieces here. -/
theorem foldl_onto_of_elsewhere (older : List Piece) :
    notes.foldl (Note.onto conn) older = older := by
  induction notes with
  | nil => rfl
  | cons note rest ih =>
      have hnote : note.onto conn older = older := by
        cases note with
        | put job left bytes => exact if_neg (helsewhere job left bytes List.mem_cons_self)
        | _ => rfl
      rw [List.foldl_cons, hnote]
      exact ih fun job left bytes hmem => helsewhere job left bytes (List.mem_cons_of_mem _ hmem)

theorem written_of_elsewhere : (written notes).filter (·.conn = conn) = [] := by
  refine List.filter_eq_nil_iff.mpr fun job hmem => ?_
  obtain ⟨note, hnote, hjob⟩ := List.mem_filterMap.mp hmem
  cases note with
  | put other left bytes =>
      simp only [Note.written?, Option.ite_none_right_eq_some, Option.some.injEq] at hjob
      have hne := helsewhere other left bytes hnote
      simp [← hjob.2, hne]
  | _ => cases hjob

end Elsewhere

namespace Transport

variable {before after : Transport} {conn changed : ConnId} {index other : Nat} {job : Job}
  {left : Bytes} {notes : List Note}

/-- A writer has the lock of a connection. -/
def Holds (transport : Transport) (conn : ConnId) (index : Nat) : Prop :=
  ∃ socket, transport.socket? conn = some socket ∧ socket.lock.head? = some (.lane index)

/-- A writer has begun a job for a connection. -/
def Midway (transport : Transport) (conn : ConnId) (index : Nat) (job : Job) (left : Bytes) :
    Prop :=
  transport.Writes index job left ∧ job.conn = conn ∧ left ≠ job.bytes

/-- Nothing comes onto a connection, and who is in the middle of a job for it keeps the lock. -/
structure Quiet (conn : ConnId) (before after : Transport) (notes : List Note) : Prop where
  stream : received conn notes ++ after.unread conn = before.unread conn
  puts : ∀ job left bytes, .put job left bytes ∈ notes → job.conn ≠ conn
  midway : ∀ index job left, after.Midway conn index job left →
    before.Midway conn index job left
  holds : ∀ index job left, after.Midway conn index job left → before.Holds conn index →
    after.Holds conn index

theorem puts_of_bare (hbare : notes.all Note.isBare = true) (job : Job) (left bytes : Bytes)
    (hmem : .put job left bytes ∈ notes) : job.conn ≠ conn := by
  cases List.all_eq_true.mp hbare _ hmem

/-- The socket does not change, and no writer goes on. -/
theorem Quiet.of_same (hbare : notes.all Note.isBare = true)
    (hsocket : after.socket? conn = before.socket? conn)
    (hwrites : ∀ index job left, left ≠ job.bytes → after.Writes index job left →
      before.Writes index job left) : Quiet conn before after notes where
  stream := by
    rw [received_of_bare hbare]
    exact unread_congr hsocket
  puts := puts_of_bare hbare
  midway := fun index job left h => ⟨hwrites index job left h.2.2 h.1, h.2⟩
  holds := fun index _ _ _ hholds => by rwa [Holds, hsocket]

theorem Quiet.refl (transport : Transport) : Quiet conn transport transport [] :=
  .of_same rfl rfl fun _ _ _ _ => id

/-- Only the lock of one connection changes, and not for one who is in the middle of a job. -/
theorem Quiet.of_lock {change : Socket → Socket} (hbare : notes.all Note.isBare = true)
    (hsockets : after.sockets = (before.onSocket changed change).sockets)
    (hunread : ∀ socket, (change socket).unread = socket.unread)
    (hwrites : ∀ index job left, left ≠ job.bytes → after.Writes index job left →
      before.Writes index job left)
    (hhead : ∀ index job left, left ≠ job.bytes → after.Writes index job left → ∀ socket,
      socket.lock.head? = some (.lane index) → (change socket).lock.head? = some (.lane index)) :
    Quiet conn before after notes := by
  have hsocket : after.socket? conn = (before.onSocket changed change).socket? conn :=
    congrArg (Table.find? · conn) hsockets
  refine ⟨?_, puts_of_bare hbare, fun index job left h => ⟨hwrites index job left h.2.2 h.1, h.2⟩,
    ?_⟩
  · rw [received_of_bare hbare]
    exact (unread_congr hsocket).trans (unread_onSocket before changed hunread)
  · intro index job left h hholds
    obtain ⟨socket, hfound, hlock⟩ := hholds
    by_cases hconn : conn = changed
    · refine ⟨change socket, ?_, hhead index job left h.2.2 h.1 socket hlock⟩
      rw [hsocket, socket?_onSocket, if_pos hconn, hfound]
      rfl
    · refine ⟨socket, ?_, hlock⟩
      rw [hsocket, socket?_onSocket, if_neg hconn, hfound]

/-- What the writers have left after a change to one lane. -/
theorem writes_turn {lane : WriterLane} (hlanes : ∀ other, after.outbox.lane? other =
      if other = index then some lane else before.outbox.lane? other) :
    after.Writes other job left ↔
      (other = index ∧ ∃ deadline, lane.writer = .busy job left deadline) ∨
      (other ≠ index ∧ before.Writes other job left) := by
  have hwork : after.outbox.work? = fun other =>
      if other = index then some (lane.writer, lane.backlog) else before.outbox.work? other := by
    funext other
    rw [Outbox.work?, hlanes]
    split <;> rfl
  exact writes_update hwork

theorem writes_of_lane {lane : WriterLane} {deadline : Nat}
    (hlane : before.outbox.lane? index = some lane)
    (hwriter : lane.writer = .busy job left deadline) : before.Writes index job left :=
  ⟨deadline, lane.backlog, by rw [Outbox.work?, hlane, Option.map_some, hwriter]⟩

/-- A lane whose writer goes on with nothing. -/
theorem writes_same_writer {lane old : WriterLane} (hold : before.outbox.lane? index = some old)
    (hlanes : ∀ other, after.outbox.lane? other =
      if other = index then some lane else before.outbox.lane? other)
    (hwriter : lane.writer = old.writer) :
    after.Writes other job left ↔ before.Writes other job left := by
  rw [writes_turn hlanes]
  by_cases hother : other = index
  · simp [hother, Writes, Outbox.work?, hold, hwriter]
  · simp [hother]

theorem writes_of_same_writer {lane old : WriterLane} (hold : before.outbox.lane? index = some old)
    (hlanes : ∀ other, after.outbox.lane? other =
      if other = index then some lane else before.outbox.lane? other)
    (hwriter : lane.writer = old.writer) (hwrites : after.Writes other job left) :
    before.Writes other job left :=
  (writes_same_writer hold hlanes hwriter).mp hwrites

/-- A lane whose writer has nothing in hand. -/
theorem writes_idle {lane : WriterLane} (hlanes : ∀ other, after.outbox.lane? other =
      if other = index then some lane else before.outbox.lane? other)
    (hidle : lane.writer = .idle) :
    after.Writes other job left ↔ other ≠ index ∧ before.Writes other job left := by
  simp [writes_turn hlanes, hidle]

/-- A writer that is done lets the lock go; nobody in the middle of a job loses it. -/
theorem Quiet.of_release {lane : WriterLane} (hbare : notes.all Note.isBare = true)
    (hlanes : ∀ other, after.outbox.lane? other =
      if other = index then some lane else before.outbox.lane? other)
    (hidle : lane.writer = .idle)
    (hsockets : after.sockets = (before.onSocket changed (·.release (.lane index))).sockets) :
    Quiet conn before after notes := by
  have hothers : ∀ other job left, after.Writes other job left →
      other ≠ index ∧ before.Writes other job left :=
    fun _ _ _ => (writes_idle hlanes hidle).mp
  refine .of_lock hbare hsockets (fun _ => rfl)
    (fun other job left _ hwrites => (hothers other job left hwrites).2) ?_
  intro other job left _ hwrites socket hhead
  refine Socket.head?_release hhead fun heq => ?_
  cases heq
  exact (hothers _ job left hwrites).1 rfl

theorem quiet_openSocket (transport : Transport) (capacity : Nat)
    (promote : Registry → ConnId → Registry) :
    Quiet conn transport (transport.openSocket capacity promote) [] where
  stream := unread_openSocket transport capacity promote
  puts := puts_of_bare rfl
  midway := fun index job left h => by
    rwa [Midway, Writes, Pipeline.outbox_openSocket] at h
  holds := fun index job left _ hholds => by
    obtain ⟨socket, hsocket, hlock⟩ := hholds
    unfold openSocket
    dsimp only
    split
    · exact ⟨socket, hsocket, hlock⟩
    · rename_i hfree
      refine ⟨socket, ?_, hlock⟩
      rw [socket?_addSocket, if_neg]
      · exact hsocket
      · rintro rfl
        rw [hsocket] at hfree
        exact hfree rfl

theorem quiet_read (transport : Transport) (changed : ConnId) (most : Nat) :
    Quiet conn transport (transport.read changed most).1
      [.read changed (transport.read changed most).2] := by
  refine ⟨?_, fun job left bytes hmem => ?_, ?_, ?_⟩
  · by_cases hconn : changed = conn
    · subst hconn
      show (if changed = changed then (transport.read changed most).2 else []) ++ [] ++ _ = _
      rw [if_pos rfl, List.append_nil]
      exact read_append_unread transport changed most
    · show (if changed = conn then (transport.read changed most).2 else []) ++ [] ++ _ = _
      rw [if_neg hconn]
      have hother : ∀ count, Action.read changed most ≠ .read conn count := by
        rintro _ ⟨⟩
        exact hconn rfl
      exact unread_act (fun _ => Action.noConfusion) hother
  · cases List.mem_singleton.mp hmem
  · intro index job left h
    unfold read at h
    split at h <;> exact h
  · intro index job left _ hholds
    obtain ⟨socket, hsocket, hlock⟩ := hholds
    unfold read
    split
    · exact ⟨socket, hsocket, hlock⟩
    · rename_i found hfound
      by_cases hconn : conn = changed
      · subst hconn
        rw [hfound] at hsocket
        cases hsocket
        refine ⟨(socket.read most).1, ?_, hlock⟩
        rw [socket?_onSocket, if_pos rfl, hfound]
        rfl
      · refine ⟨socket, ?_, hlock⟩
        rw [socket?_onSocket, if_neg hconn]
        exact hsocket

/-- A writer that has the lock puts the first of its bytes on the socket. -/
structure Fills (before after : Transport) (index : Nat) (job : Job) (bytes rest : Bytes) :
    Prop where
  writes : before.Writes index job (bytes ++ rest)
  goesOn : after.Writes index job rest
  others : ∀ other found left, after.Writes other found left →
    (other = index ∧ found = job ∧ left = rest) ∨ (other ≠ index ∧ before.Writes other found left)
  holds : before.Holds job.conn index
  elsewhere : ∀ other, other ≠ job.conn → after.socket? other = before.socket? other
  fuller : ∀ socket, before.socket? job.conn = some socket →
    after.socket? job.conn = some { socket with unread := socket.unread ++ bytes }

namespace Fills

variable {bytes rest : Bytes}

theorem holds_after (h : Fills before after index job bytes rest) :
    after.Holds job.conn index := by
  obtain ⟨socket, hsocket, hhead⟩ := h.holds
  exact ⟨_, h.fuller socket hsocket, hhead⟩

theorem unread_after (h : Fills before after index job bytes rest) :
    after.unread job.conn = before.unread job.conn ++ bytes := by
  obtain ⟨socket, hsocket, _⟩ := h.holds
  rw [unread, unread, h.fuller socket hsocket, hsocket]
  rfl

/-- A writer for whose bytes there is no room has done nothing. -/
theorem quiet_of_nil (h : Fills before after index job [] rest) : Quiet conn before after [] := by
  refine .of_same rfl ?_ fun other found left _ hafter => ?_
  · by_cases hconn : conn = job.conn
    · obtain ⟨socket, hsocket, _⟩ := h.holds
      have hsame := h.fuller socket hsocket
      rw [List.append_nil] at hsame
      rw [hconn, hsame, hsocket]
    · exact h.elsewhere conn hconn
  · rcases h.others other found left hafter with ⟨rfl, rfl, rfl⟩ | ⟨_, hwas⟩
    · exact h.writes
    · exact hwas

theorem quiet_elsewhere (h : Fills before after index job bytes rest) (hconn : job.conn ≠ conn) :
    Quiet conn before after [.put job (bytes ++ rest) bytes] := by
  have hsame := h.elsewhere conn (Ne.symm hconn)
  refine ⟨unread_congr hsame, fun other left new hmem => ?_, ?_, ?_⟩
  · cases List.mem_singleton.mp hmem
    exact hconn
  · intro other found left hmidway
    rcases h.others other found left hmidway.1 with ⟨_, rfl, _⟩ | ⟨_, hwas⟩
    · exact absurd hmidway.2.1 hconn
    · exact ⟨hwas, hmidway.2⟩
  · intro other _ _ _ hholds
    rwa [Holds, hsame]

end Fills

end Transport

namespace Pipeline

open Transport

variable {conn : ConnId}

/-! ## Most steps leave the connections alone -/

theorem quiet_send (pipeline : Pipeline) (message : Message) :
    Quiet conn pipeline.transport (pipeline.send message).1.transport
      (pipeline.send message).2 := by
  have hbare : (pipeline.send message).2.all Note.isBare = true := by
    simp [send, Note.isBare]
  refine .of_same hbare rfl fun index job left _ hwrites => ?_
  exact (writes_congr (funext fun _ => Outbox.work?_send message)).mp hwrites

theorem quiet_pull (pipeline : Pipeline) :
    Quiet conn pipeline.transport pipeline.pull.1.transport pipeline.pull.2 := by
  unfold pull
  split
  · exact .of_same rfl rfl fun _ _ _ _ => id
  · exact .refl _

theorem quiet_pass (pipeline : Pipeline) :
    Quiet conn pipeline.transport pipeline.pass.1.transport pipeline.pass.2 := by
  unfold pass
  split
  · exact .refl _
  · rename_i message hhand
    have hbare : (if pipeline.isLaneFull message then [Note.settled message .laneFull]
        else []).all Note.isBare = true := by
      split <;> rfl
    refine .of_same hbare rfl fun index job left _ hwrites => ?_
    exact (writes_congr (funext fun _ => Outbox.work?_enterLane message)).mp hwrites

theorem quiet_pick (pipeline : Pipeline) (index : Nat) :
    Quiet conn pipeline.transport (pipeline.pick index).1.transport (pipeline.pick index).2 := by
  unfold pick
  split
  · rename_i message rest backlog writer hhand hlane
    exact .of_same rfl rfl fun _ _ _ _ =>
      writes_of_same_writer hlane (Outbox.lane?_setLane hlane _) rfl
  · exact .refl _

theorem quiet_judge (pipeline : Pipeline) (now : Int) (index : Nat) :
    Quiet conn pipeline.transport (pipeline.judge now index).1.transport
      (pipeline.judge now index).2 := by
  unfold judge
  split
  · split <;> exact .of_same rfl rfl fun _ _ _ _ => id
  · exact .refl _

theorem quiet_find (pipeline : Pipeline) (index : Nat) :
    Quiet conn pipeline.transport (pipeline.find index).1.transport (pipeline.find index).2 := by
  unfold find
  split
  · split <;> exact .of_same rfl rfl fun _ _ _ _ => id
  · exact .refl _

theorem quiet_leave (pipeline : Pipeline) (index : Nat) :
    Quiet conn pipeline.transport (pipeline.leave index).1.transport
      (pipeline.leave index).2 := by
  unfold leave
  split
  · rename_i job lane hhand hlane
    unfold Outbox.enterBacklog
    split <;> exact .of_same rfl rfl fun _ _ _ _ =>
      writes_of_same_writer hlane (Outbox.lane?_setLane hlane _) rfl
  · exact .refl _

theorem quiet_receive (pipeline : Pipeline) (index : Nat) :
    Quiet conn pipeline.transport (pipeline.receive index).1.transport
      (pipeline.receive index).2 := by
  unfold receive
  split
  · rename_i queue job rest hhand hlane
    exact .of_same rfl rfl fun _ _ _ _ =>
      writes_of_same_writer hlane (Outbox.lane?_setLane hlane _) rfl
  · exact .refl _

/-- Who asks for the lock has not begun. -/
theorem quiet_ask (pipeline : Pipeline) (index : Nat) :
    Quiet conn pipeline.transport (pipeline.ask index).1.transport (pipeline.ask index).2 := by
  unfold ask
  split
  · rename_i job queue backlog hhand hlane
    refine .of_lock rfl rfl (fun _ => Socket.ask_unread) (fun other found left hbegun hwrites => ?_)
      fun _ _ _ _ _ _ => Socket.head?_ask
    rcases (writes_turn (Outbox.lane?_setLane hlane _)).mp hwrites with ⟨_, _, hbusy⟩ | ⟨_, hwas⟩
    · cases hbusy
      exact absurd rfl hbegun
    · exact hwas
  · exact .refl _

theorem quiet_finish (pipeline : Pipeline) (index : Nat) :
    Quiet conn pipeline.transport (pipeline.finish index).1.transport
      (pipeline.finish index).2 := by
  unfold finish
  split
  · rename_i queue backlog job deadline hlane
    rw [finishJob_of_lane hlane]
    exact .of_release rfl (Outbox.lane?_setLane hlane _) rfl rfl
  · exact .refl _

theorem quiet_giveUp (pipeline : Pipeline) (index : Nat) :
    Quiet conn pipeline.transport (pipeline.giveUp index).1.transport
      (pipeline.giveUp index).2 := by
  unfold giveUp
  split
  · rename_i queue backlog job left deadline hhand hlane
    rw [finishJob_of_lane hlane]
    exact .of_release rfl (Outbox.lane?_setLane hlane _) rfl rfl
  · exact .refl _

theorem quiet_remove (pipeline : Pipeline) (index : Nat) :
    Quiet conn pipeline.transport (pipeline.remove index).1.transport
      (pipeline.remove index).2 := by
  unfold remove
  split
  · exact .of_same rfl rfl fun _ _ _ _ => id
  · exact .refl _

theorem quiet_quit (pipeline : Pipeline) (task : Task) :
    Quiet conn pipeline.transport (pipeline.quit task).1.transport (pipeline.quit task).2 := by
  cases task with
  | distributor => exact .of_same rfl rfl fun _ _ _ _ => id
  | lane index =>
      unfold quit
      dsimp only
      split
      · exact .refl _
      · rename_i lane hlane
        exact .of_same rfl rfl fun _ _ _ _ =>
          writes_of_same_writer hlane (Outbox.lane?_setLane hlane _) rfl
  | writer index =>
      unfold quit
      dsimp only
      split
      · exact .refl _
      · rename_i lane hlane
        let ended : WriterLane := { lane with backlog := [], writer := .idle }
        let ending := { pipeline.transport with outbox := pipeline.outbox.setLane index ended }
        have hlanes := Outbox.lane?_setLane hlane ended
        cases hwriter : lane.writer with
        | idle =>
            refine .of_same rfl rfl fun other job left _ hwrites => ?_
            exact writes_of_same_writer hlane hlanes hwriter.symm hwrites
        | busy job left deadline => exact .of_release rfl hlanes rfl rfl

/-- Nor does what comes from outside, but for what the peer reads. -/
theorem quiet_outside (pipeline : Pipeline) {step : Step} (hstep : step.isOutside = true) :
    Quiet conn pipeline.transport (pipeline.act step).1.transport (pipeline.act step).2 := by
  cases step with
  | askShut changed =>
      unfold act Transport.askShut
      dsimp only
      split
      · exact .of_lock rfl rfl (fun _ => Socket.ask_unread) (fun _ _ _ _ => id)
          fun _ _ _ _ _ _ => Socket.head?_ask
      · exact .refl _
  | shut changed =>
      unfold act Transport.shut
      dsimp only
      split
      · split
        · refine .of_lock rfl rfl (fun _ => rfl) (fun _ _ _ _ => id) ?_
          intro index job left _ _ socket hhead
          have hshut : socket.shutWrite.lock.head? = some (.lane index) := hhead
          exact Socket.head?_release hshut Holder.noConfusion
        · exact .refl _
      · exact .refl _
  | read changed most => exact quiet_read _ _ _
  | hangUp changed =>
      exact .of_lock rfl rfl (fun _ => rfl) (fun _ _ _ _ => id) fun _ _ _ _ _ _ => id
  | tick duration => exact .of_same rfl rfl fun _ _ _ _ => id
  | dial now node capacity =>
      exact quiet_openSocket pipeline.transport capacity fun registry opened =>
        (registry.promoteToOutbound now node opened).1
  | accept now capacity =>
      exact quiet_openSocket pipeline.transport capacity fun registry opened =>
        (registry.promoteToInbound now opened).1
  | cancel changed => exact .of_same rfl rfl fun _ _ _ _ => id
  | manage move => exact .of_same rfl rfl fun _ _ _ _ => id
  | _ => cases hstep

theorem quiet_act (pipeline : Pipeline) {step : Step}
    (hput : ∀ index most, step ≠ .put index most) :
    Quiet conn pipeline.transport (pipeline.act step).1.transport (pipeline.act step).2 := by
  cases step with
  | send message => exact quiet_send pipeline message
  | pull => exact quiet_pull pipeline
  | pass => exact quiet_pass pipeline
  | pick index => exact quiet_pick pipeline index
  | judge now index => exact quiet_judge pipeline now index
  | find index => exact quiet_find pipeline index
  | leave index => exact quiet_leave pipeline index
  | receive index => exact quiet_receive pipeline index
  | ask index => exact quiet_ask pipeline index
  | put index most => exact absurd rfl (hput index most)
  | finish index => exact quiet_finish pipeline index
  | giveUp index => exact quiet_giveUp pipeline index
  | remove index => exact quiet_remove pipeline index
  | stop => exact .of_same rfl rfl fun _ _ _ _ => (writes_stop _).mp
  | quit task => exact quiet_quit pipeline task
  | _ => exact quiet_outside pipeline rfl

/-- A writer that cannot go on does nothing. -/
theorem put_fills (pipeline : Pipeline) (index most : Nat) :
    pipeline.put index most = (pipeline, []) ∨ ∃ job bytes rest,
      Fills pipeline.transport (pipeline.put index most).1.transport index job bytes rest ∧
      (pipeline.put index most).2 =
        if bytes = [] then [] else [.put job (bytes ++ rest) bytes] := by
  rcases put_cases pipeline index most with
    hsame | ⟨queue, backlog, job, bytes, rest, deadline, socket, hlane, hsocket, hhead, hput⟩
  · exact Or.inl hsame
  let lane : WriterLane := ⟨queue, backlog, .busy job rest deadline⟩
  have hsockets := fun other => socket?_onSocket
    { pipeline.transport with outbox := pipeline.outbox.setLane index lane } other job.conn
      fun _ => { socket with unread := socket.unread ++ bytes }
  refine Or.inr ⟨job, bytes, rest, ?_, ?_⟩
  · rw [hput]
    refine ⟨writes_of_lane hlane rfl,
      (writes_turn (Outbox.lane?_setLane hlane _)).mpr (Or.inl ⟨rfl, deadline, rfl⟩),
      fun other found left hafter => ?_, ⟨socket, hsocket, hhead⟩,
      fun other hother => (hsockets other).trans (if_neg hother), fun held hheld => ?_⟩
    · rcases (writes_turn (Outbox.lane?_setLane hlane _)).mp hafter with ⟨heq, _, hbusy⟩ | hother
      · cases hbusy
        exact Or.inl ⟨heq, rfl, rfl⟩
      · exact Or.inr hother
    · rw [hsocket] at hheld
      cases hheld
      refine ((hsockets job.conn).trans (if_pos rfl)).trans ?_
      exact congrArg (Option.map _) hsocket
  · rw [hput]

end Pipeline

/-! ## The stream of a connection -/

/-- The jobs of the pieces that are whole frames, the oldest first. -/
def wholeJobs (pieces : List Piece) : List Job :=
  (pieces.reverse.filter fun piece => piece.sent = piece.job.bytes).map (·.job)

theorem wholeJobs_cons (piece : Piece) (older : List Piece) : wholeJobs (piece :: older) =
    wholeJobs older ++ if piece.sent = piece.job.bytes then [piece.job] else [] := by
  simp only [wholeJobs, List.reverse_cons, List.filter_append, List.map_append]
  split
  · rename_i hwhole
    simp [hwhole]
  · rename_i hpart
    simp [hpart]

namespace Chronicle

open Pipeline Transport

variable {chronicle : Chronicle} {conn : ConnId} {index : Nat} {job : Job} {bytes rest : Bytes}

/-- What is known of a connection at any time. -/
structure OnWire (conn : ConnId) (chronicle : Chronicle) : Prop where
  stream : received conn chronicle.notes ++ chronicle.pipeline.transport.unread conn =
    (pieces conn chronicle.notes).reverse.flatMap Piece.sent
  piece : ∀ piece ∈ pieces conn chronicle.notes,
    piece.job.conn = conn ∧ piece.sent ≠ [] ∧ piece.sent <+: piece.job.bytes
  whole : wholeJobs (pieces conn chronicle.notes) = (written chronicle.notes).filter (·.conn = conn)
  /-- A writer in the middle of a job has the lock, and the newest piece is what it has put. -/
  midway : ∀ index job left, chronicle.pipeline.transport.Midway conn index job left →
    chronicle.pipeline.transport.Holds conn index ∧
      ∃ sent older, pieces conn chronicle.notes = ⟨job, sent⟩ :: older ∧ sent ++ left = job.bytes

theorem onWire_opening (registry : Registry) (limits : OutboxLimits) (conn : ConnId) :
    OnWire conn (opening registry limits) where
  stream := rfl
  piece := fun piece hmem => by cases hmem
  whole := rfl
  midway := fun index job left h => by
    obtain ⟨⟨deadline, backlog, hwork⟩, _⟩ := h
    obtain ⟨queue, hlane⟩ := Outbox.work?_eq_some.mp hwork
    cases (List.mem_replicate.mp (List.mem_of_getElem? hlane)).2

theorem OnWire.of_quiet {after : Pipeline} {notes : List Note} (h : OnWire conn chronicle)
    (hquiet : Quiet conn chronicle.pipeline.transport after.transport notes) :
    OnWire conn ⟨after, chronicle.notes ++ notes⟩ := by
  have hpieces : pieces conn (chronicle.notes ++ notes) = pieces conn chronicle.notes := by
    rw [pieces_append]
    exact foldl_onto_of_elsewhere hquiet.puts _
  have hwritten : (written (chronicle.notes ++ notes)).filter (·.conn = conn) =
      (written chronicle.notes).filter (·.conn = conn) := by
    rw [written_append, List.filter_append, written_of_elsewhere hquiet.puts, List.append_nil]
  refine ⟨?_, ?_, ?_, ?_⟩
  · rw [received_append, hpieces, List.append_assoc, hquiet.stream]
    exact h.stream
  · rw [hpieces]
    exact h.piece
  · rw [hpieces, hwritten]
    exact h.whole
  · intro index job left hmidway
    rw [hpieces]
    obtain ⟨hholds, hnewest⟩ := h.midway index job left (hquiet.midway index job left hmidway)
    exact ⟨hquiet.holds index job left hmidway hholds, hnewest⟩

/-- What a writer puts begins a piece, or goes on with the newest one. -/
theorem OnWire.note_eq (h : OnWire conn chronicle)
    (hwrites : chronicle.pipeline.transport.Writes index job (bytes ++ rest))
    (hconn : job.conn = conn) (hbytes : bytes ≠ []) :
    ∃ sent older, Watch.note (pieces conn chronicle.notes) job (bytes ++ rest) bytes =
        ⟨job, sent ++ bytes⟩ :: older ∧ sent ++ (bytes ++ rest) = job.bytes ∧
      (sent = [] ∧ older = pieces conn chronicle.notes ∨
        pieces conn chronicle.notes = ⟨job, sent⟩ :: older) := by
  by_cases hbegun : bytes ++ rest = job.bytes
  · refine ⟨[], pieces conn chronicle.notes, ?_, hbegun, Or.inl ⟨rfl, rfl⟩⟩
    simp [Watch.note, hbytes, hbegun]
  · obtain ⟨_, sent, older, hnewest, hsent⟩ := h.midway index job _ ⟨hwrites, hconn, hbegun⟩
    refine ⟨sent, older, ?_, hsent, Or.inr hnewest⟩
    simp [Watch.note, hbytes, hbegun, hnewest]

theorem OnWire.of_put {after : Pipeline} (h : OnWire conn chronicle)
    (hfills : Fills chronicle.pipeline.transport after.transport index job bytes rest)
    (hconn : job.conn = conn) (hbytes : bytes ≠ []) :
    OnWire conn ⟨after, chronicle.notes ++ [.put job (bytes ++ rest) bytes]⟩ := by
  obtain ⟨sent, older, hnote, hsent, hcase⟩ := h.note_eq hfills.writes hconn hbytes
  have hpieces : pieces conn (chronicle.notes ++ [.put job (bytes ++ rest) bytes]) =
      ⟨job, sent ++ bytes⟩ :: older := by
    rw [pieces_append, ← hnote]
    exact if_pos hconn
  have hwhole : sent ++ bytes = job.bytes ↔ rest = [] := by
    rw [← hsent, ← List.append_assoc, eq_comm, List.append_right_eq_self]
  have hwritten : (written (chronicle.notes ++ [.put job (bytes ++ rest) bytes])).filter
      (·.conn = conn) = (written chronicle.notes).filter (·.conn = conn) ++
        if rest = [] then [job] else [] := by
    rw [written_append, List.filter_append]
    by_cases hrest : rest = [] <;> simp [written, Note.written?, hrest, hconn]
  -- the newest piece was no whole frame, so it is not counted twice
  have hold : wholeJobs (pieces conn chronicle.notes) = wholeJobs older ∧
      (pieces conn chronicle.notes).reverse.flatMap Piece.sent =
        older.reverse.flatMap Piece.sent ++ sent ∧
      ∀ piece ∈ older, piece ∈ pieces conn chronicle.notes := by
    rcases hcase with ⟨rfl, rfl⟩ | hnewest
    · exact ⟨rfl, (List.append_nil _).symm, fun _ => id⟩
    · have hpart : sent ≠ job.bytes := by
        rw [← hsent]
        simp [hbytes]
      rw [hnewest, wholeJobs_cons, if_neg hpart, List.append_nil]
      exact ⟨rfl, by simp, fun _ => List.mem_cons_of_mem _⟩
  refine ⟨?_, ?_, ?_, ?_⟩
  · have hunread := hfills.unread_after
    rw [hconn] at hunread
    rw [hpieces, hunread, received_append, ← List.append_assoc]
    show received conn chronicle.notes ++ [] ++ _ ++ bytes = _
    rw [List.append_nil, h.stream, hold.2.1]
    simp
  · rw [hpieces]
    intro piece hmem
    rcases List.mem_cons.mp hmem with rfl | hmem
    · exact ⟨hconn, by simp [hbytes], rest, (List.append_assoc _ _ _).trans hsent⟩
    · exact h.piece piece (hold.2.2 piece hmem)
  · rw [hpieces, wholeJobs_cons, hwritten, ← h.whole, hold.1]
    simp only [hwhole]
  · intro other found left hmidway
    rcases hfills.others other found left hmidway.1 with ⟨rfl, rfl, rfl⟩ | ⟨hne, hwas⟩
    · refine ⟨hconn ▸ hfills.holds_after, sent ++ bytes, older, hpieces, ?_⟩
      exact (List.append_assoc _ _ _).trans hsent
    · -- only one writer has the lock
      obtain ⟨⟨socket, hsocket, hlock⟩, _⟩ := h.midway other found left ⟨hwas, hmidway.2⟩
      obtain ⟨same, hsame, hhead⟩ := hfills.holds
      rw [hconn, hsocket] at hsame
      cases hsame
      rw [hlock] at hhead
      cases hhead
      exact absurd rfl hne

theorem OnWire.put (h : OnWire conn chronicle) (index most : Nat) :
    OnWire conn ⟨(chronicle.pipeline.put index most).1,
      chronicle.notes ++ (chronicle.pipeline.put index most).2⟩ := by
  rcases put_fills chronicle.pipeline index most with hsame | ⟨job, bytes, rest, hfills, hnotes⟩
  · rw [hsame]
    exact h.of_quiet (.refl _)
  rw [hnotes]
  by_cases hbytes : bytes = []
  · subst hbytes
    exact h.of_quiet hfills.quiet_of_nil
  rw [if_neg hbytes]
  by_cases hconn : job.conn = conn
  · exact h.of_put hfills hconn hbytes
  · exact h.of_quiet (hfills.quiet_elsewhere hconn)

theorem OnWire.act (h : OnWire conn chronicle) (step : Step) :
    OnWire conn (chronicle.act step) := by
  by_cases hput : ∃ index most, step = .put index most
  · obtain ⟨index, most, rfl⟩ := hput
    exact h.put index most
  · exact h.of_quiet (quiet_act chronicle.pipeline fun index most heq => hput ⟨index, most, heq⟩)

/-! ## Runs -/

theorem onWire_run (registry : Registry) (limits : OutboxLimits) (conn : ConnId)
    (steps : List Step) : OnWire conn ((opening registry limits).run steps) :=
  run_keeps (onWire_opening registry limits conn) (fun _ step h => h.act step) steps

/--
Over every run the frames written for a destination are some of those whose call
said that they were taken, in the order of the calls, each for the socket that the
registry had for the destination when the lane had the message in hand. What comes
onto a connection is made of fronts of frames, and the whole ones among them are
the ones written, in order.
-/
theorem run_delivers (registry : Registry) (limits : OutboxLimits) (steps : List Step) :
    let start := opening registry limits
    let notes := (start.run steps).notes
    (∀ dest, (jobsTo dest (written notes)).Sublist (jobsTo dest (bound notes)) ∧
      ((jobsTo dest (written notes)).map (·.message)).Sublist (toDest dest (accepted notes))) ∧
    (∀ job ∈ written notes, job.message.frame.payload.length ≤ limits.maxBody ∧
      ∃ before index later, steps = before ++ .find index :: later ∧
        (start.run before).pipeline.laneHand index = .fresh job.message ∧
        (start.run before).pipeline.transport.registry.writerFor job.message.dest =
          some job.conn) ∧
    ∀ conn, received conn notes ++ (start.run steps).pipeline.transport.unread conn =
        (pieces conn notes).reverse.flatMap Piece.sent ∧
      (∀ piece ∈ pieces conn notes,
        piece.job.conn = conn ∧ piece.sent ≠ [] ∧ piece.sent <+: piece.job.bytes) ∧
      wholeJobs (pieces conn notes) = (written notes).filter (·.conn = conn) := by
  intro start notes
  have horder : ∀ dest, (jobsTo dest (written notes)).Sublist (jobsTo dest (bound notes)) ∧
      ((jobsTo dest (written notes)).map (·.message)).Sublist (toDest dest (accepted notes)) :=
    fun dest => ((inOrder_run registry limits steps).2 dest).written_sublist
  have hfits : Fits limits (start.run steps) := fits_run registry limits steps
  refine ⟨horder, fun job hmem => ?_, fun conn => ?_⟩
  · have hto : job ∈ jobsTo job.message.dest (written notes) :=
      List.mem_filter.mpr ⟨hmem, decide_eq_true rfl⟩
    obtain ⟨hbound, haccepted⟩ := horder job.message.dest
    have htaken : job.message ∈ accepted notes :=
      (List.mem_filter.mp (haccepted.subset (List.mem_map_of_mem hto))).1
    refine ⟨hfits.payload job.message htaken, ?_⟩
    rcases bound_run start steps (List.mem_filter.mp (hbound.subset hto)).1 with hnone | hfound
    · cases hnone
    · exact hfound
  · have hwire := onWire_run registry limits conn steps
    exact ⟨hwire.stream, hwire.piece, hwire.whole⟩

/-- Two frames for one connection on one lane, put in portions as the peer makes room. -/
def inPortions : List Step :=
  let lane : List Step := [.pull, .pass, .pick 0, .judge 0 0, .find 0, .leave 0]
  [.accept 0 12, .send ⟨.inbound 1, ⟨1, 1, 1, [0xaa]⟩, 0⟩, .send ⟨.inbound 1, ⟨1, 1, 2, [0xbb]⟩, 0⟩] ++
    lane ++ lane ++ [.receive 0, .ask 0, .put 0 4, .put 0 64, .finish 0, .receive 0, .ask 0,
      .put 0 64, .read 1 64, .put 0 64, .finish 0]

example :
    let self := Identity.create (Registry.repeatedId 0x7a) (.v4 0x7f000001) 1
    let start := opening (Registry.create self ⟨8, 8, 600, 300, 600⟩) ⟨1, 8, 8, 8, 100, 16⟩
    let notes := (start.run inPortions).notes
    (written notes).map (·.message.frame.action) = [1, 2] ∧
      received 1 notes = [0, 1, 1, 1, 0, 0, 0, 1, 0xaa, 0, 1, 1] := by
  decide +kernel

end Chronicle

end Peering
