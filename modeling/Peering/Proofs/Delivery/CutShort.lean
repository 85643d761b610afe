import Peering.Proofs.Delivery.Endurance

/-!
# Writes that are cut short

What a peer reads on a connection is made of pieces, each the front of one job.
Every byte string can be read as some frames and the start of another, so what
matters is whose bytes they are: a stream is intact when only its newest piece
is not a whole frame.

A write that times out part way gives the lock up before the connection is shut.
Main statement: after that nothing more comes onto the connection if and only if
it is broken, or its closing task has the lock, or no other job for it is left.
-/

namespace Peering

open Transport

/-- What has come onto a connection of one job. -/
structure Piece where
  job : Job
  sent : Bytes
deriving DecidableEq

/-- A connection as its peer sees it, over a run. -/
structure Watch where
  transport : Transport
  /-- What the peer has read. -/
  received : Bytes
  /-- What the writers have put on the connection, the newest piece first. -/
  pieces : List Piece

namespace Watch

/-- Notes bytes of a job; a writer that had begun the job goes on with its piece. -/
def note (pieces : List Piece) (job : Job) (left bytes : Bytes) : List Piece :=
  if bytes = [] then pieces
  else if left = job.bytes then ⟨job, bytes⟩ :: pieces
  else match pieces with
    | [] => [⟨job, bytes⟩]
    | newest :: older => ⟨job, newest.sent ++ bytes⟩ :: older

/-- The pieces after a step of the writer of a lane. -/
def noteWrite (watch : Watch) (conn : ConnId) (index : Nat) : List Piece :=
  match watch.transport.writable? index with
  | some (job, left, bytes) =>
      if job.conn = conn then note watch.pieces job left bytes else watch.pieces
  | none => watch.pieces

/-- Watches a connection while something happens. -/
def act (conn : ConnId) (watch : Watch) (action : Action) : Watch where
  transport := watch.transport.act action
  received := match action with
    | .read changed most =>
        if changed = conn then watch.received ++ (watch.transport.read conn most).2
        else watch.received
    | _ => watch.received
  pieces := match action with
    | .write index => watch.noteWrite conn index
    | _ => watch.pieces

def run (conn : ConnId) (watch : Watch) (actions : List Action) : Watch :=
  actions.foldl (act conn) watch

/-- The watch at the start of a run, before any connection. -/
def opening (self : Identity) (limits : Limits) (outboxLimits : OutboxLimits) : Watch where
  transport := Transport.create (Registry.create self limits) outboxLimits
  received := []
  pieces := []

/-- Everything that has come onto the connection. -/
def stream (watch : Watch) (conn : ConnId) : Bytes :=
  watch.received ++ watch.transport.unread conn

/-- The stream is whole frames, but for the newest piece. -/
def Intact (watch : Watch) : Prop :=
  ∀ piece ∈ watch.pieces.tail, piece.sent = piece.job.bytes

instance (watch : Watch) : Decidable watch.Intact :=
  inferInstanceAs (Decidable (∀ piece ∈ watch.pieces.tail, piece.sent = piece.job.bytes))

/-- The newest piece is not a whole frame, and no writer goes on with it. -/
def CutShort (watch : Watch) (conn : ConnId) : Prop :=
  (∃ newest older, watch.pieces = newest :: older ∧ newest.sent ≠ newest.job.bytes) ∧
  ∀ index job left, watch.transport.Writes index job left → job.conn = conn → left = job.bytes

/-- A writer can still come to put bytes on the connection. -/
def Exposed (watch : Watch) (conn : ConnId) : Prop :=
  ∃ socket, watch.transport.socket? conn = some socket ∧ socket.isBroken = false ∧
    socket.isHeldBy .closer = false ∧ watch.transport.HasJob conn

/-! ## The record of a run -/

variable {watch : Watch} {conn : ConnId} {index : Nat} {job : Job} {left bytes : Bytes}

/-- What the watch of a connection keeps through a run. -/
structure Recorded (conn : ConnId) (watch : Watch) : Prop where
  orderly : Orderly conn watch.transport
  stream : watch.stream conn = watch.pieces.reverse.flatMap Piece.sent
  piece : ∀ piece ∈ watch.pieces,
    piece.job.conn = conn ∧ piece.sent ≠ [] ∧ piece.sent <+: piece.job.bytes
  midway : ∀ index job left, watch.transport.Writes index job left → job.conn = conn →
    left ≠ job.bytes → ∃ sent older, watch.pieces = ⟨job, sent⟩ :: older ∧ sent ++ left = job.bytes
  room : watch.pieces ≠ [] →
    ∃ socket, watch.transport.socket? conn = some socket ∧ 0 < socket.capacity
  gone : watch.CutShort conn →
    (∀ socket, watch.transport.socket? conn = some socket → socket.isBroken = true) ∨
      watch.transport.registry.isClosed conn = true

theorem recorded_opening (self : Identity) (limits : Limits) (outboxLimits : OutboxLimits)
    (conn : ConnId) : Recorded conn (opening self limits outboxLimits) where
  orderly := orderly_create self limits outboxLimits conn
  stream := rfl
  piece := fun piece hmem => by cases hmem
  midway := fun index job left hwrites => by
    obtain ⟨deadline, backlog, hwork⟩ := hwrites
    obtain ⟨queue, hlane⟩ := Outbox.work?_eq_some.mp hwork
    cases (List.mem_replicate.mp (List.mem_of_getElem? hlane)).2
  room := fun hpieces => absurd rfl hpieces
  gone := fun ⟨⟨_, _, hpieces, _⟩, _⟩ => by cases hpieces

/-- The socket of a piece is there for good. -/
theorem Recorded.room_act (h : Recorded conn watch) (action : Action) (hpieces : watch.pieces ≠ []) :
    ∃ socket, (watch.transport.act action).socket? conn = some socket ∧ 0 < socket.capacity := by
  obtain ⟨socket, hsocket, hcapacity⟩ := h.room hpieces
  obtain ⟨next, hnext, hsame, _⟩ := endures_act watch.transport conn action socket hsocket
  exact ⟨next, hnext, by rwa [hsame]⟩

theorem Recorded.gone_act (h : Recorded conn watch) (action : Action) (hcut : watch.CutShort conn) :
    (∀ socket, (watch.transport.act action).socket? conn = some socket → socket.isBroken = true) ∨
      (watch.transport.act action).registry.isClosed conn = true := by
  obtain ⟨newest, older, hpieces, _⟩ := hcut.1
  obtain ⟨socket, hsocket, _⟩ := h.room (by simp [hpieces])
  rcases h.gone hcut with hbroken | hclosed
  · refine Or.inl fun found hfound => ?_
    obtain ⟨next, hnext, _, hstays, _⟩ := endures_act watch.transport conn action socket hsocket
    rw [hnext] at hfound
    cases hfound
    exact hstays (hbroken socket hsocket)
  · exact Or.inr (isClosed_act action hclosed)

/-- What a step keeps in which no writer goes on or gives up. -/
theorem Recorded.of_quiet (h : Recorded conn watch) {action : Action}
    (hwrite : ∀ other, action ≠ .write other) (hexpire : ∀ other, action ≠ .expire other) :
    Recorded conn (watch.act conn action) := by
  have hpieces : (watch.act conn action).pieces = watch.pieces := by
    cases action with
    | write other => exact absurd rfl (hwrite other)
    | _ => rfl
  have hstream : (watch.act conn action).stream conn = watch.stream conn := by
    by_cases hread : ∃ most, action = .read conn most
    · obtain ⟨most, rfl⟩ := hread
      simp only [Watch.stream, Watch.act, if_true, List.append_assoc]
      rw [← read_append_unread watch.transport conn most]
      rfl
    · have hunread : (watch.transport.act action).unread conn = watch.transport.unread conn :=
        unread_act hwrite fun most heq => hread ⟨most, heq⟩
      have hreceived : (watch.act conn action).received = watch.received := by
        cases action with
        | read changed most =>
            have hne : changed ≠ conn := fun heq => hread ⟨most, heq ▸ rfl⟩
            simp [Watch.act, hne]
        | _ => rfl
      rw [Watch.stream, hreceived]
      exact congrArg (watch.received ++ ·) hunread
  refine ⟨h.orderly.act action, ?_, ?_, ?_, ?_, ?_⟩
  · rw [hstream, hpieces, h.stream]
  · rw [hpieces]
    exact h.piece
  · intro index job left hw hc hleft
    rw [hpieces]
    exact h.midway index job left ((writes_act hleft hwrite hexpire).mp hw) hc hleft
  · rw [hpieces]
    exact h.room_act action
  · rintro ⟨hnewest, hidle⟩
    refine h.gone_act action ⟨hpieces ▸ hnewest, ?_⟩
    intro index job left hw hc
    by_cases hleft : left = job.bytes
    · exact hleft
    · exact hidle index job left ((writes_act hleft hwrite hexpire).mpr hw) hc

/-- A writer that fails has its connection closed, whatever it had written. -/
theorem Recorded.of_fail (h : Recorded conn watch) {action : Action} {deadline : Nat}
    {backlog : List Job}
    (hold : watch.transport.outbox.work? index = some (.busy job left deadline, backlog))
    (hfail : watch.transport.act action = watch.transport.failJob index job)
    (hpieces : (watch.act conn action).pieces = watch.pieces)
    (hreceived : (watch.act conn action).received = watch.received) :
    Recorded conn (watch.act conn action) := by
  have hafter : (watch.act conn action).transport = watch.transport.failJob index job := hfail
  have hwrites : ∀ other found remaining,
      (watch.act conn action).transport.Writes other found remaining ↔
        other ≠ index ∧ watch.transport.Writes other found remaining := by
    intro other found remaining
    rw [hafter]
    exact writes_failJob hold
  refine ⟨h.orderly.act action, ?_, ?_, ?_, ?_, ?_⟩
  · rw [Watch.stream, hreceived, hpieces, hafter, unread_failJob hold]
    exact h.stream
  · rw [hpieces]
    exact h.piece
  · intro other found remaining hw hc hleft
    rw [hpieces]
    exact h.midway other found remaining ((hwrites _ _ _).mp hw).2 hc hleft
  · rw [hpieces]
    exact h.room_act action
  · rintro ⟨hnewest, hidle⟩
    by_cases hconn : job.conn = conn
    · right
      have hjob : watch.transport.HasJob conn := hconn ▸ Writes.hasJob ⟨deadline, backlog, hold⟩
      rw [hafter, (failJob_busy hold).1, hconn]
      exact h.orderly.coherent.keyed.isClosed_removed (h.orderly.known hjob)
    · refine h.gone_act action ⟨hpieces ▸ hnewest, ?_⟩
      intro other found remaining hw hc
      refine hidle other found remaining ((hwrites _ _ _).mpr ⟨?_, hw⟩) hc
      rintro rfl
      obtain ⟨rfl, _⟩ := hw.eq_of_busy hold
      exact hconn hc

/-- A writer on another connection changes nothing on this one. -/
theorem Recorded.of_write_elsewhere (h : Recorded conn watch)
    (hwritable : watch.transport.writable? index = some (job, left, bytes)) (hconn : job.conn ≠ conn) :
    Recorded conn (watch.act conn (.write index)) := by
  obtain ⟨deadline, backlog, _, hold, _, _, _, _, _, _, rest, _, hsocket, hwork⟩ :=
    write_some hwritable
  have hpieces : (watch.act conn (.write index)).pieces = watch.pieces := by
    simp [Watch.act, noteWrite, hwritable, hconn]
  have hsame : (watch.transport.write index).socket? conn = watch.transport.socket? conn := by
    rw [hsocket, if_neg hconn.symm]
  have hwrites : ∀ other found remaining, found.conn = conn →
      ((watch.transport.write index).Writes other found remaining ↔
        watch.transport.Writes other found remaining) := by
    intro other found remaining hc
    rw [writes_update hwork]
    constructor
    · rintro (⟨_, _, heq⟩ | ⟨_, hw⟩)
      · split at heq <;> cases heq
        exact absurd hc hconn
      · exact hw
    · intro hw
      refine Or.inr ⟨?_, hw⟩
      rintro rfl
      obtain ⟨rfl, _⟩ := hw.eq_of_busy hold
      exact hconn hc
  refine ⟨h.orderly.act (.write index), ?_, ?_, ?_, ?_, ?_⟩
  · rw [hpieces, ← h.stream]
    exact congrArg (watch.received ++ ·) (unread_congr hsame)
  · rw [hpieces]
    exact h.piece
  · intro other found remaining hw hc hleft
    rw [hpieces]
    exact h.midway other found remaining ((hwrites _ _ _ hc).mp hw) hc hleft
  · rw [hpieces]
    exact h.room_act _
  · rintro ⟨hnewest, hidle⟩
    refine h.gone_act _ ⟨hpieces ▸ hnewest, ?_⟩
    exact fun other found remaining hw hc =>
      hidle other found remaining ((hwrites _ _ _ hc).mpr hw) hc

/-- Only the writer that has the lock can be in the middle of a job. -/
theorem Recorded.writes_at (h : Recorded conn watch)
    (hwritable : watch.transport.writable? index = some (job, left, bytes)) (hconn : job.conn = conn)
    {other : Nat} {found : Job} {remaining : Bytes}
    (hwrites : watch.transport.Writes other found remaining) (hfound : found.conn = conn)
    (hbegun : remaining ≠ found.bytes) : other = index ∧ found = job ∧ remaining = left := by
  obtain ⟨deadline, backlog, socket, hold, hsocket, hhead, _⟩ := write_some hwritable
  have hlock := h.orderly.midway other found remaining socket hwrites hfound hbegun (hconn ▸ hsocket)
  rw [hhead] at hlock
  cases hlock
  exact ⟨rfl, hwrites.eq_of_busy hold⟩

/-- What the writer that has the lock puts begins a piece, or goes on with the newest. -/
theorem Recorded.noteWrite_eq (h : Recorded conn watch)
    (hwritable : watch.transport.writable? index = some (job, left, bytes)) (hconn : job.conn = conn)
    (hbytes : bytes ≠ []) :
    ∃ sent older, watch.noteWrite conn index = ⟨job, sent ++ bytes⟩ :: older ∧
      sent ++ left = job.bytes ∧
      ((sent = [] ∧ left = job.bytes ∧ older = watch.pieces) ∨
        (left ≠ job.bytes ∧ watch.pieces = ⟨job, sent⟩ :: older)) := by
  by_cases hleft : left = job.bytes
  · exact ⟨[], watch.pieces, by simp [noteWrite, hwritable, hconn, note, hbytes, hleft], hleft,
      Or.inl ⟨rfl, hleft, rfl⟩⟩
  · obtain ⟨deadline, backlog, _, hold, _⟩ := write_some hwritable
    obtain ⟨sent, older, hpieces, hsent⟩ :=
      h.midway index job left ⟨deadline, backlog, hold⟩ hconn hleft
    exact ⟨sent, older, by simp [noteWrite, hwritable, hconn, note, hbytes, hleft, hpieces], hsent,
      Or.inr ⟨hleft, hpieces⟩⟩

theorem Recorded.of_write (h : Recorded conn watch)
    (hwritable : watch.transport.writable? index = some (job, left, bytes)) (hconn : job.conn = conn)
    (hbytes : bytes ≠ []) : Recorded conn (watch.act conn (.write index)) := by
  obtain ⟨sent, older, hnote, hsent, hcase⟩ := h.noteWrite_eq hwritable hconn hbytes
  obtain ⟨deadline, backlog, socket, hold, hfound, hhead, _, hfits, _, _, rest, hleft, hsocket,
    hwork⟩ := write_some hwritable
  have hpieces : (watch.act conn (.write index)).pieces = ⟨job, sent ++ bytes⟩ :: older := hnote
  rw [hconn] at hfound
  have hunread : (watch.transport.write index).unread conn =
      watch.transport.unread conn ++ bytes := by
    rw [unread, hsocket, if_pos hconn.symm, unread, hfound]
    by_cases hrest : rest = []
    · simp [hrest, Socket.release]
    · simp [hrest]
  have hcapacity : 0 < socket.capacity := by
    refine Nat.pos_of_ne_zero fun hzero => hbytes ?_
    simp [hfits, hzero]
  have hwhole : sent ++ bytes ++ rest = job.bytes := by
    rw [List.append_assoc, ← hleft, hsent]
  have hstream : watch.pieces.reverse.flatMap Piece.sent ++ bytes =
      older.reverse.flatMap Piece.sent ++ (sent ++ bytes) := by
    rcases hcase with ⟨rfl, _, rfl⟩ | ⟨_, hwas⟩
    · rfl
    · simp [hwas]
  refine ⟨h.orderly.act (.write index), ?_, ?_, ?_, ?_, ?_⟩
  · have hrecorded := h.stream
    rw [Watch.stream] at hrecorded
    rw [hpieces, Watch.stream]
    simp only [Watch.act, Transport.act, hunread, ← List.append_assoc, hrecorded]
    simp [hstream]
  · rw [hpieces]
    intro piece hmem
    rcases List.mem_cons.mp hmem with rfl | hmem
    · exact ⟨hconn, by simp [hbytes], rest, hwhole⟩
    · apply h.piece piece
      rcases hcase with ⟨_, _, rfl⟩ | ⟨_, hwas⟩
      · exact hmem
      · exact hwas ▸ List.mem_cons_of_mem _ hmem
  · intro other found remaining hw hc hbegun
    rcases (writes_update hwork).mp hw with ⟨rfl, _, heq⟩ | ⟨hne, hw⟩
    · split at heq <;> cases heq
      exact ⟨sent ++ bytes, older, hpieces, hwhole⟩
    · exact absurd (h.writes_at hwritable hconn hw hc hbegun).1 hne
  · intro _
    refine ⟨_, (hsocket conn).trans (if_pos hconn.symm), ?_⟩
    split <;> exact hcapacity
  · rintro ⟨⟨newest, below, hnewest, hpart⟩, hidle⟩
    rw [hpieces] at hnewest
    cases hnewest
    by_cases hrest : rest = []
    · refine absurd ?_ hpart
      rw [← hwhole, hrest, List.append_nil]
    · have hw : (watch.transport.write index).Writes index job rest :=
        (writes_update hwork).mpr (Or.inl ⟨rfl, deadline, by simp [hrest]⟩)
      have hall := hidle index job rest hw hconn
      have hlength := congrArg List.length hwhole
      rw [← hall] at hlength
      have hpos := List.length_pos_iff.mpr hbytes
      simp only [List.length_append] at hlength
      omega

/-- A writer that has no room has done nothing. -/
theorem Recorded.of_write_nothing (h : Recorded conn watch)
    (hwritable : watch.transport.writable? index = some (job, left, [])) (hconn : job.conn = conn) :
    Recorded conn (watch.act conn (.write index)) := by
  obtain ⟨deadline, backlog, socket, hold, hfound, _, _, _, hregistry, _, rest, hleft, hsocket,
    hwork⟩ := write_some hwritable
  rw [List.nil_append] at hleft
  subst hleft
  have hrest : left ≠ [] := h.orderly.unfinished index job left ⟨deadline, backlog, hold⟩ hconn
  have hpieces : (watch.act conn (.write index)).pieces = watch.pieces := by
    simp [Watch.act, noteWrite, hwritable, hconn, note]
  have hsame : (watch.transport.write index).socket? conn = watch.transport.socket? conn := by
    rw [hsocket, if_pos hconn.symm, ← hconn, hfound]
    simp [hrest]
  have hwrites : ∀ other found remaining,
      (watch.transport.write index).Writes other found remaining ↔
        watch.transport.Writes other found remaining := by
    intro other found remaining
    rw [writes_update hwork]
    by_cases hother : other = index
    · subst hother
      simp [hrest, Writes, hold]
    · simp [hother]
  refine ⟨h.orderly.act (.write index), ?_, ?_, ?_, ?_, ?_⟩
  · rw [hpieces, ← h.stream]
    exact congrArg (watch.received ++ ·) (unread_congr hsame)
  · rw [hpieces]
    exact h.piece
  · intro other found remaining hw
    rw [hpieces]
    exact h.midway other found remaining ((hwrites _ _ _).mp hw)
  · rw [hpieces]
    exact h.room_act _
  · rintro ⟨hnewest, hidle⟩
    exact h.gone_act _ ⟨hpieces ▸ hnewest, fun other found remaining hw =>
      hidle other found remaining ((hwrites _ _ _).mpr hw)⟩

theorem Recorded.act (h : Recorded conn watch) (action : Action) :
    Recorded conn (watch.act conn action) := by
  by_cases hwrite : ∃ index, action = .write index
  · obtain ⟨index, rfl⟩ := hwrite
    cases hwritable : watch.transport.writable? index with
    | none =>
        have hpieces : (watch.act conn (.write index)).pieces = watch.pieces := by
          simp [Watch.act, noteWrite, hwritable]
        rcases write_none hwritable with hsame | ⟨job, left, deadline, backlog, _, hold, _, _, hfail⟩
        · have heq : watch.act conn (.write index) = watch := by
            simp [Watch.act, noteWrite, hwritable, Transport.act, hsame]
          rwa [heq]
        · exact h.of_fail hold hfail hpieces rfl
    | some found =>
        obtain ⟨job, left, bytes⟩ := found
        by_cases hconn : job.conn = conn
        · by_cases hbytes : bytes = []
          · subst hbytes
            exact h.of_write_nothing hwritable hconn
          · exact h.of_write hwritable hconn hbytes
        · exact h.of_write_elsewhere hwritable hconn
  · by_cases hexpire : ∃ index, action = .expire index
    · obtain ⟨index, rfl⟩ := hexpire
      rcases expire_cases watch.transport index with
        hsame | ⟨job, left, deadline, backlog, hold, _, hfail⟩
      · have heq : watch.act conn (.expire index) = watch := by
          simp [Watch.act, Transport.act, hsame]
        rwa [heq]
      · exact h.of_fail hold hfail rfl rfl
    · exact h.of_quiet (fun index heq => hwrite ⟨index, heq⟩) fun index heq => hexpire ⟨index, heq⟩

theorem Recorded.run (h : Recorded conn watch) (actions : List Action) :
    Recorded conn (watch.run conn actions) := by
  induction actions generalizing watch with
  | nil => exact h
  | cons action rest ih => exact ih (h.act action)

/-! ## When a stream stays intact -/

/-- A writer that can write shows that the stream is exposed. -/
theorem exposed_of_writable
    (hwritable : watch.transport.writable? index = some (job, left, bytes)) (hconn : job.conn = conn) :
    watch.Exposed conn := by
  obtain ⟨deadline, backlog, socket, hold, hfound, hhead, hbroken, _⟩ := write_some hwritable
  refine ⟨socket, hconn ▸ hfound, hbroken, ?_, hconn ▸ Writes.hasJob ⟨deadline, backlog, hold⟩⟩
  rw [← Bool.not_eq_true, Socket.isHeldBy_iff, hhead]
  simp

theorem Recorded.intact_act (h : Recorded conn watch) (hintact : watch.Intact)
    (hsafe : ¬(watch.CutShort conn ∧ watch.Exposed conn)) (action : Action) :
    (watch.act conn action).Intact := by
  cases action with
  | write index =>
      cases hwritable : watch.transport.writable? index with
      | none =>
          have hpieces : watch.noteWrite conn index = watch.pieces := by simp [noteWrite, hwritable]
          simpa [Intact, Watch.act, hpieces] using hintact
      | some found =>
          obtain ⟨job, left, bytes⟩ := found
          by_cases hconn : job.conn = conn
          · by_cases hbytes : bytes = []
            · have hpieces : watch.noteWrite conn index = watch.pieces := by
                simp [noteWrite, hwritable, hconn, note, hbytes]
              simpa [Intact, Watch.act, hpieces] using hintact
            · obtain ⟨sent, older, hnote, _, hcase⟩ := h.noteWrite_eq hwritable hconn hbytes
              have holder : ∀ piece ∈ older, piece.sent = piece.job.bytes := by
                rcases hcase with ⟨_, hleft, rfl⟩ | ⟨_, hwas⟩
                · intro piece hmem
                  obtain ⟨newest, below, hnewest⟩ := List.exists_cons_of_ne_nil (List.ne_nil_of_mem hmem)
                  rw [hnewest] at hmem
                  rcases List.mem_cons.mp hmem with rfl | hmem
                  · by_cases hpart : piece.sent = piece.job.bytes
                    · exact hpart
                    · refine absurd ⟨⟨⟨piece, below, hnewest, hpart⟩, ?_⟩,
                        exposed_of_writable hwritable hconn⟩ hsafe
                      -- a writer in the middle of a job would have the lock
                      intro other found remaining hw hc
                      by_cases hbegun : remaining = found.bytes
                      · exact hbegun
                      · obtain ⟨_, rfl, rfl⟩ := h.writes_at hwritable hconn hw hc hbegun
                        exact hleft
                  · exact hintact piece (by rw [hnewest]; exact hmem)
                · intro piece hmem
                  exact hintact piece (by rw [hwas]; exact hmem)
              simpa [Intact, Watch.act, hnote] using holder
          · have hpieces : watch.noteWrite conn index = watch.pieces := by
              simp [noteWrite, hwritable, hconn]
            simpa [Intact, Watch.act, hpieces] using hintact
  | _ => exact hintact

/-- After a write was cut short on a stream that is not exposed, nothing is put any more. -/
theorem Recorded.sealed_act (h : Recorded conn watch) (hcut : watch.CutShort conn)
    (hsealed : ¬watch.Exposed conn) (action : Action) :
    (watch.act conn action).pieces = watch.pieces ∧ (watch.act conn action).CutShort conn ∧
      ¬(watch.act conn action).Exposed conn := by
  have hpieces : (watch.act conn action).pieces = watch.pieces := by
    cases action with
    | write index =>
        cases hwritable : watch.transport.writable? index with
        | none => simp [Watch.act, noteWrite, hwritable]
        | some found =>
            have hconn : found.1.conn ≠ conn := fun hconn =>
              hsealed (exposed_of_writable hwritable hconn)
            simp [Watch.act, noteWrite, hwritable, hconn]
    | _ => rfl
  refine ⟨hpieces, ⟨hpieces ▸ hcut.1, ?_⟩, ?_⟩
  · intro index job left hw hc
    by_cases hleft : left = job.bytes
    · exact hleft
    refine hcut.2 index job left ?_ hc
    by_cases hwrite : ∃ other, action = .write other
    · obtain ⟨other, rfl⟩ := hwrite
      cases hwritable : watch.transport.writable? other with
      | none =>
          rcases write_none hwritable with hsame | ⟨given, _, _, _, _, hold, _, _, hfail⟩
          · simpa [Watch.act, Transport.act, hsame] using hw
          · simp only [Watch.act, Transport.act, hfail] at hw
            exact ((writes_failJob hold).mp hw).2
      | some found =>
          have hconn : found.1.conn ≠ conn := fun hconn =>
            hsealed (exposed_of_writable hwritable hconn)
          obtain ⟨_, _, _, _, _, _, _, _, _, _, rest, _, _, hwork⟩ := write_some hwritable
          rcases (writes_update hwork).mp hw with ⟨_, _, heq⟩ | ⟨_, hw⟩
          · split at heq <;> cases heq
            exact absurd hc hconn
          · exact hw
    · exact hw.of_act hleft fun other heq => hwrite ⟨other, heq⟩
  · rintro ⟨next, hnext, hbroken, hheld, hjob⟩
    obtain ⟨newest, older, hwas, _⟩ := hcut.1
    obtain ⟨socket, hsocket, _⟩ := h.room (by simp [hwas])
    obtain ⟨found, hfound, _, hstays, hcloser⟩ :=
      endures_act watch.transport conn action socket hsocket
    have heq : found = next := Option.some.inj (hfound.symm.trans hnext)
    subst heq
    have hopen : socket.isBroken = false := by
      rw [← Bool.not_eq_true]
      intro hbad
      rw [hstays hbad] at hbroken
      cases hbroken
    refine hsealed ⟨socket, hsocket, hopen, ?_, ?_⟩
    · rw [← Bool.not_eq_true, Socket.isHeldBy_iff]
      intro hhead
      rcases hcloser hhead with hhead | hbad
      · rw [Socket.isHeldBy_iff.mpr hhead] at hheld
        cases hheld
      · rw [hbad] at hbroken
        cases hbroken
    · rcases h.gone hcut with hbad | hclosed
      · rw [hbad socket hsocket] at hopen
        cases hopen
      · exact h.orderly.hasJob_act hclosed hjob

theorem Recorded.sealed_run (h : Recorded conn watch) (hcut : watch.CutShort conn)
    (hsealed : ¬watch.Exposed conn) (actions : List Action) :
    (watch.run conn actions).pieces = watch.pieces := by
  induction actions generalizing watch with
  | nil => rfl
  | cons action rest ih =>
      obtain ⟨hpieces, hcutNext, hsealedNext⟩ := h.sealed_act hcut hsealed action
      exact (ih (h.act action) hcutNext hsealedNext).trans hpieces

/-! ## When a stream goes on -/

/-- Once the peer has read everything, the writer that has the lock begins a piece. -/
theorem Recorded.begins (h : Recorded conn watch) (hcut : watch.CutShort conn) {socket : Socket}
    (hsocket : watch.transport.socket? conn = some socket) (hopen : socket.isBroken = false)
    (hhead : socket.lock.head? = some (.lane index)) :
    ∃ actions piece, (watch.run conn actions).pieces = piece :: watch.pieces := by
  have hmem : .lane index ∈ socket.lock := List.mem_of_mem_head? hhead
  rcases h.orderly.busy socket _ hsocket hmem with hcloser | ⟨k, job, left, hk, hw, hconn⟩
  · cases hcloser
  cases hk
  have hleft : left = job.bytes := hcut.2 index job left hw hconn
  obtain ⟨deadline, backlog, hwork⟩ := hw
  obtain ⟨newest, older, hpieces, _⟩ := hcut.1
  obtain ⟨found, hfound, hroom⟩ := h.room (by simp [hpieces])
  rw [hsocket] at hfound
  cases hfound
  have hread : (watch.transport.act (.read conn socket.unread.length)).socket? conn =
      some { socket with unread := [] } := by
    simp [Transport.act, Transport.read, hsocket, socket?_onSocket, Socket.read]
  have hkept : (watch.transport.act (.read conn socket.unread.length)).outbox =
      watch.transport.outbox := by
    simp [Transport.act, Transport.read, hsocket, onSocket]
  have hwritable :
      (watch.transport.act (.read conn socket.unread.length)).writable? index =
        some (job, left, left.take socket.capacity) := by
    have hheld : ({ socket with unread := [] } : Socket).isHeldBy (.lane index) = true :=
      Socket.isHeldBy_iff.mpr hhead
    have hunbroken : ({ socket with unread := [] } : Socket).isBroken = false := hopen
    rw [← hconn] at hread
    rw [writable?, hkept, hwork]
    dsimp only
    rw [← hconn, hread]
    simp [hheld, hunbroken]
  have hbytes : left.take socket.capacity ≠ [] := by
    rw [hleft]
    intro hempty
    have hlength := congrArg List.length hempty
    have hpos := List.length_pos_iff.mpr (bytes_ne_nil job)
    rw [List.length_take, List.length_nil] at hlength
    omega
  refine ⟨[.read conn socket.unread.length, .write index], ⟨job, left.take socket.capacity⟩, ?_⟩
  simp only [Watch.run, List.foldl_cons, List.foldl_nil]
  show Watch.noteWrite (watch.act conn (.read conn socket.unread.length)) conn index = _
  simp only [noteWrite, Watch.act, hwritable, hconn, if_true, note, if_neg hbytes, if_pos hleft]

/-- A stream was cut short, and nobody asks for the lock of its socket. -/
structure Idle (conn : ConnId) (watch : Watch) : Prop where
  recorded : Recorded conn watch
  cut : watch.CutShort conn
  free : ∃ socket, watch.transport.socket? conn = some socket ∧ socket.isBroken = false ∧
    socket.lock = []

theorem CutShort.of_act (hcut : watch.CutShort conn) {action : Action}
    (hwrite : ∀ other, action ≠ .write other) :
    (watch.act conn action).pieces = watch.pieces ∧ (watch.act conn action).CutShort conn := by
  have hpieces : (watch.act conn action).pieces = watch.pieces := by
    cases action with
    | write index => exact absurd rfl (hwrite index)
    | _ => rfl
  refine ⟨hpieces, hpieces ▸ hcut.1, ?_⟩
  intro index job left hw hc
  by_cases hleft : left = job.bytes
  · exact hleft
  · exact hcut.2 index job left (hw.of_act hleft hwrite) hc

theorem Idle.act (h : Idle conn watch) {action : Action} (hwrite : ∀ other, action ≠ .write other)
    (hsocket : (watch.transport.act action).socket? conn = watch.transport.socket? conn) :
    Idle conn (watch.act conn action) where
  recorded := h.recorded.act action
  cut := (h.cut.of_act hwrite).2
  free := by
    obtain ⟨socket, hfound, hfree⟩ := h.free
    exact ⟨socket, hsocket.trans hfound, hfree⟩

/-- A writer that is busy elsewhere is idle again when its time is over. -/
theorem Idle.giveUp (h : Idle conn watch) {deadline : Nat} {backlog : List Job}
    (hwork : watch.transport.outbox.work? index = some (.busy job left deadline, backlog)) :
    ∃ after, after = watch.run conn [.tick deadline, .expire index] ∧ Idle conn after ∧
      after.pieces = watch.pieces ∧
      after.transport.outbox.work? index = some (.idle, backlog) := by
  have htick : Idle conn (watch.act conn (.tick deadline)) := h.act (by simp) rfl
  have hbusy : (watch.act conn (.tick deadline)).transport.outbox.work? index =
      some (.busy job left deadline, backlog) := hwork
  have hdue : deadline ≤ (watch.act conn (.tick deadline)).transport.timer := Nat.le_add_left _ _
  have hfail : (watch.act conn (.tick deadline)).transport.act (.expire index) =
      (watch.act conn (.tick deadline)).transport.failJob index job :=
    expire_of_due hbusy hdue
  have hconn : conn ≠ job.conn := by
    intro heq
    obtain ⟨socket, hfound, _, hlock⟩ := h.free
    have hmem := h.recorded.orderly.queued index job left socket ⟨deadline, backlog, hwork⟩ heq.symm
      hfound
    rw [hlock] at hmem
    cases hmem
  obtain ⟨_, _, hsocket, hafter⟩ := failJob_busy hbusy
  refine ⟨_, rfl, ?_, rfl, ?_⟩
  · apply htick.act (by simp)
    rw [hfail, hsocket, if_neg hconn]
  · show ((watch.act conn (.tick deadline)).transport.act (.expire index)).outbox.work? index = _
    rw [hfail, hafter]
    exact if_pos rfl

/-- An idle writer goes through its backlog until it comes to a job for the connection. -/
theorem Idle.begins (h : Idle conn watch) {backlog : List Job}
    (hwork : watch.transport.outbox.work? index = some (.idle, backlog))
    (hjob : ∃ job ∈ backlog, job.conn = conn) :
    ∃ actions piece, (watch.run conn actions).pieces = piece :: watch.pieces := by
  induction backlog generalizing watch with
  | nil =>
      obtain ⟨job, hmem, _⟩ := hjob
      cases hmem
  | cons job rest ih =>
      obtain ⟨_, _, hsocket, deadline, hafter⟩ := take_idle hwork
      obtain ⟨hpieces, hcut⟩ := h.cut.of_act (show ∀ other, Action.take index ≠ .write other by simp)
      by_cases hconn : job.conn = conn
      · obtain ⟨socket, hfound, hopen, hlock⟩ := h.free
        have hasked : (watch.act conn (.take index)).transport.socket? conn =
            some (socket.ask (.lane index)) := by
          show (watch.transport.take index).socket? conn = _
          rw [hsocket, if_pos hconn.symm, hfound, Option.map_some]
        have hhead : (socket.ask (.lane index)).lock.head? = some (.lane index) := by
          simp [Socket.ask, hlock]
        obtain ⟨actions, piece, hbegun⟩ := (h.recorded.act (.take index)).begins hcut hasked
          (Socket.ask_isBroken.trans hopen) hhead
        exact ⟨.take index :: actions, piece, hbegun.trans (congrArg (piece :: ·) hpieces)⟩
      · have htaken : Idle conn (watch.act conn (.take index)) := by
          apply h.act (by simp)
          show (watch.transport.take index).socket? conn = _
          rw [hsocket, if_neg (Ne.symm hconn)]
        have hbusy : (watch.act conn (.take index)).transport.outbox.work? index =
            some (.busy job job.bytes deadline, rest) := by
          show (watch.transport.take index).outbox.work? index = _
          rw [hafter]
          exact if_pos rfl
        obtain ⟨after, hrun, hidle, hsame, hrest⟩ := htaken.giveUp hbusy
        obtain ⟨found, hmem, hfound⟩ := hjob
        have hlater : found ∈ rest := by
          rcases List.mem_cons.mp hmem with rfl | hmem
          · exact absurd hfound hconn
          · exact hmem
        obtain ⟨actions, piece, hbegun⟩ := ih hidle hrest ⟨found, hlater, hfound⟩
        refine ⟨.take index :: .tick deadline :: .expire index :: actions, piece, ?_⟩
        rw [hsame, hpieces, hrun] at hbegun
        exact hbegun

/-- A stream that was cut short goes on with another job when it is exposed. -/
theorem Recorded.exposed_begins (h : Recorded conn watch) (hcut : watch.CutShort conn)
    (hexposed : watch.Exposed conn) :
    ∃ actions piece, (watch.run conn actions).pieces = piece :: watch.pieces := by
  obtain ⟨socket, hsocket, hopen, hheld, job, hmem, hconn⟩ := hexposed
  cases hlock : socket.lock with
  | cons holder waiting =>
      have hhead : socket.lock.head? = some holder := by rw [hlock, List.head?_cons]
      rcases h.orderly.busy socket holder hsocket (List.mem_of_mem_head? hhead) with
        rfl | ⟨index, _, _, rfl, _⟩
      · rw [Socket.isHeldBy_iff.mpr hhead] at hheld
        cases hheld
      · exact h.begins hcut hsocket hopen hhead
  | nil =>
      have hidle : Idle conn watch := ⟨h, hcut, socket, hsocket, hopen, hlock⟩
      obtain ⟨index, writer, backlog, hwork, hin⟩ := Outbox.mem_jobs.mp hmem
      cases writer with
      | idle =>
          rcases hin with hin | hin
          · cases hin
          · exact hidle.begins hwork ⟨job, hin, hconn⟩
      | busy given left deadline =>
          obtain ⟨after, hrun, hafter, hsame, hrest⟩ := hidle.giveUp hwork
          rcases hin with hin | hin
          · cases hin
            have hqueued := h.orderly.queued index job left socket ⟨deadline, backlog, hwork⟩ hconn
              hsocket
            rw [hlock] at hqueued
            cases hqueued
          · obtain ⟨actions, piece, hbegun⟩ := hafter.begins hrest ⟨job, hin, hconn⟩
            refine ⟨.tick deadline :: .expire index :: actions, piece, ?_⟩
            rw [hsame, hrun] at hbegun
            exact hbegun

/-! ## Runs -/

theorem Recorded.intact_run (h : Recorded conn watch) (hintact : watch.Intact)
    (actions : List Action)
    (hsafe : ∀ before, before <+: actions →
      ¬((watch.run conn before).CutShort conn ∧ (watch.run conn before).Exposed conn)) :
    (watch.run conn actions).Intact := by
  induction actions generalizing watch with
  | nil => exact hintact
  | cons action rest ih =>
      have hnow : ¬(watch.CutShort conn ∧ watch.Exposed conn) := hsafe [] (List.nil_prefix)
      refine ih (h.act action) (h.intact_act hintact hnow action) fun before hbefore => ?_
      exact hsafe (action :: before) (List.cons_prefix_cons.mpr ⟨rfl, hbefore⟩)

/--
Over every run the stream is its pieces, each the front of a frame. It is intact
as long as no write has been cut short while the stream was exposed. After a
write that was cut short nothing more comes, whatever happens, if and only if the
stream is not exposed.
-/
theorem run_stream (self : Identity) (limits : Limits) (outboxLimits : OutboxLimits)
    (conn : ConnId) (actions : List Action) :
    let start := opening self limits outboxLimits
    let watch := start.run conn actions
    watch.stream conn = watch.pieces.reverse.flatMap Piece.sent ∧
    (∀ piece ∈ watch.pieces,
      piece.job.conn = conn ∧ piece.sent ≠ [] ∧ piece.sent <+: piece.job.bytes) ∧
    ((∀ before, before <+: actions →
      ¬((start.run conn before).CutShort conn ∧ (start.run conn before).Exposed conn)) →
      watch.Intact) ∧
    (watch.CutShort conn →
      ((∀ later, (watch.run conn later).pieces = watch.pieces) ↔ ¬watch.Exposed conn)) := by
  intro start watch
  have hstart : Recorded conn start := recorded_opening self limits outboxLimits conn
  have hwatch : Recorded conn watch := hstart.run actions
  refine ⟨hwatch.stream, hwatch.piece, ?_, ?_⟩
  · exact hstart.intact_run (fun piece hmem => by cases hmem) actions
  · intro hcut
    constructor
    · intro hquiet hexposed
      obtain ⟨later, piece, hbegun⟩ := hwatch.exposed_begins hcut hexposed
      have hlength := congrArg List.length (hbegun.symm.trans (hquiet later))
      simp at hlength
    · exact hwatch.sealed_run hcut

/-! ## A frame that comes after half a frame -/

/-- An accepted connection that holds ten bytes, and two jobs for it on one lane. -/
def twoJobs : List Action :=
  [.accept 0 10, .send ⟨.inbound 1, ⟨1, 1, 1, [0xaa, 0xbb, 0xcc, 0xdd]⟩, 0⟩,
    .send ⟨.inbound 1, ⟨1, 1, 2, [0xee, 0xff]⟩, 0⟩, .distribute, .distribute, .resolve 0 0,
    .resolve 0 0]

def oneLane : Watch :=
  opening (Identity.create (Registry.repeatedId 0x7a) (.v4 0x7f000001) 1) ⟨8, 8, 600, 300, 600⟩
    ⟨1, 64, 64, 64, 100, 1024⟩

/-- The first job times out part way; the peer reads, and the second job follows. -/
theorem second_job_follows_half_frame :
    let cut := oneLane.run 1 (twoJobs ++ [.take 0, .write 0, .tick 100, .expire 0])
    let later := cut.run 1 [.read 1 10, .take 0, .write 0]
    cut.transport.outbox.tally.failed = 1 ∧ cut.Intact ∧
    cut.stream 1 = [0, 1, 1, 1, 0, 0, 0, 4, 0xaa, 0xbb] ∧
    later.transport.outbox.tally.written = 1 ∧ ¬later.Intact ∧
    later.stream 1 = [0, 1, 1, 1, 0, 0, 0, 4, 0xaa, 0xbb, 0, 1, 1, 2, 0, 0, 0, 2, 0xee, 0xff] := by
  decide +kernel

end Watch

end Peering
