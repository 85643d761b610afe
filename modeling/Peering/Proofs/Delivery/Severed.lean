import Peering.Proofs.Delivery.Writers

/-!
# Streams that break off

A stream breaks off when a writer leaves a job in the middle: it ends with a part of
a frame. The writer gives the lock up first, removes the connection in a step of its
own, and it takes a while until the socket is shut. The jobs that are on their way
do not learn of this, wherever they are: in the hand of a lane that has looked the
connection up, in a backlog, or with a writer.

A stream is intact as long as it has not broken off while exposed; and nothing comes
after it once the connection is gone, unless it is exposed.
-/

namespace Peering

namespace Transport

/-- A connection is closed, or its socket takes no bytes. -/
def IsGone (transport : Transport) (conn : ConnId) : Prop :=
  transport.registry.isClosed conn = true ∨
    ∃ socket, transport.socket? conn = some socket ∧ socket.isBroken = true

/-- A connection is known to the registry, and it has a socket. -/
structure Met (transport : Transport) (conn : ConnId) : Prop where
  socket : (transport.socket? conn).isSome = true
  known : transport.registry.Knows conn

theorem knows_openSocket {transport : Transport} {conn : ConnId} (capacity : Nat)
    {promote : Registry → ConnId → Registry}
    (hlearns : ∀ (registry : Registry) other, registry.Learns other (promote registry other))
    (hknown : transport.registry.Knows conn) :
    (transport.openSocket capacity promote).registry.Knows conn := by
  unfold openSocket
  dsimp only
  split
  · exact hknown
  · exact ((hlearns _ _).knows conn).mpr (Or.inl hknown)

end Transport

namespace Registry

theorem isClosed_of_writerFor {registry : Registry} {dest : Destination} {conn : ConnId}
    (hwriter : registry.writerFor dest = some conn) : registry.isClosed conn = false := by
  unfold writerFor at hwriter
  simpa using (Option.filter_eq_some_iff.mp hwriter).2

end Registry

namespace Pipeline

open Transport Registry

variable {pipeline : Pipeline} {step : Step} {conn : ConnId} {index : Nat} {job : Job}
  {left bytes : Bytes}

/-! ## The steps that the tasks take -/

/-- A connection is offered only with its socket, and a writer ends only between two jobs. -/
def Takes (pipeline : Pipeline) : Step → Prop
  | .manage move => move.offer? = none
  | .quit (.writer index) =>
      pipeline.writerHand index = .empty ∧ ∀ job left, ¬pipeline.transport.Writes index job left
  | _ => True

/-- A writer gives up only when its time is over, or the socket takes no bytes. -/
def InTime (pipeline : Pipeline) : Step → Prop
  | .giveUp index => ∀ job left deadline backlog,
      pipeline.outbox.work? index = some (.busy job left deadline, backlog) →
        deadline ≤ pipeline.transport.timer ∨
          ∃ socket, pipeline.transport.socket? job.conn = some socket ∧ socket.isBroken = true
  | _ => True

theorem Takes.offersNone (htakes : pipeline.Takes step) : step.offersNone = true := by
  cases step with
  | manage move => exact Option.isNone_iff_eq_none.mpr htakes
  | _ => rfl

/-- What has been closed stays closed. -/
theorem closed_act (pipeline : Pipeline) (step : Step)
    (hclosed : pipeline.transport.registry.isClosed conn = true) :
    (pipeline.act step).1.transport.registry.isClosed conn = true := by
  cases hstep : step.isRegistrar with
  | false => rwa [registry_act_of_other pipeline hstep]
  | true =>
      cases step with
      | remove index =>
          simp only [act, remove]
          split
          · exact isClosed_removeConn_of_isClosed hclosed
          · exact hclosed
      | dial now node capacity =>
          exact isClosed_openSocket _ capacity _
            (fun registry other => promoteToOutbound_learns registry now node other) hclosed
      | accept now capacity =>
          exact isClosed_openSocket _ capacity _
            (fun registry other => promoteToInbound_learns registry now other) hclosed
      | cancel changed => exact isClosed_cancel.mpr (Or.inl hclosed)
      | manage move => exact isClosed_perform_of_isClosed move hclosed
      | _ => cases hstep

theorem gone_act (pipeline : Pipeline) (step : Step) (hgone : pipeline.transport.IsGone conn) :
    (pipeline.act step).1.transport.IsGone conn := by
  rcases hgone with hclosed | ⟨socket, hsocket, hbroken⟩
  · exact Or.inl (closed_act pipeline step hclosed)
  · obtain ⟨next, hnext, _, hstays, _⟩ := (act_touch pipeline step conn).endures socket hsocket
    exact Or.inr ⟨next, hnext, hstays hbroken⟩

theorem knows_act (hhoused : Housed pipeline.transport) (hoffers : step.offersNone = true)
    (hknown : pipeline.transport.registry.Knows conn) :
    (pipeline.act step).1.transport.registry.Knows conn := by
  cases hstep : step.isRegistrar with
  | false => rwa [registry_act_of_other pipeline hstep]
  | true =>
      cases step with
      | remove index =>
          simp only [act, remove]
          split
          · exact ((hhoused.keyed.removeConn_releases _).knows conn).mpr hknown
          · exact hknown
      | dial now node capacity =>
          exact knows_openSocket capacity
            (fun registry other => promoteToOutbound_learns registry now node other) hknown
      | accept now capacity =>
          exact knows_openSocket capacity
            (fun registry other => promoteToInbound_learns registry now other) hknown
      | cancel changed =>
          refine hknown.imp (fun hholds => ?_) fun hclosed => isClosed_cancel.mpr (Or.inl hclosed)
          rwa [show (pipeline.act (.cancel changed)).1.transport.registry.holds conn =
            pipeline.transport.registry.holds conn by
              simp only [act, withTransport, Registry.cancel]; split <;> rfl]
      | manage move =>
          have hoffer : move.offer? = none := Option.isNone_iff_eq_none.mp hoffers
          exact ((hhoused.keyed.perform_releases hoffer).knows conn).mpr hknown
      | _ => cases hstep

/-! ## Who still has to do with a connection -/

/-- Some task has a job for a connection, or has to remove it. -/
def Minds (pipeline : Pipeline) (conn : ConnId) : Prop :=
  pipeline.Carries conn ∨ ∃ index, pipeline.transport.Busy conn index ∨
    pipeline.writerHand index = .leaving conn

theorem carries_of_taken (hlane : (pipeline.outbox.lane? index).isSome = true)
    (hgrip : pipeline.writerHand index = .taken job) : pipeline.Carries job.conn := by
  obtain ⟨lane, hlane⟩ := Option.isSome_iff_exists.mp hlane
  refine ⟨index, job, ?_, rfl⟩
  rw [load_of_lane hlane, Load.of, hgrip]
  simp [WriterHand.job?]

/-- A task has to do with a connection only after the registry has given it out. -/
theorem minds_act (hafter : (pipeline.act step).1.Minds conn) :
    pipeline.Minds conn ∨ ∃ dest, pipeline.transport.registry.writerFor dest = some conn := by
  have heffort := act_effort pipeline step
  rcases hafter with hcarries | ⟨index, ⟨job, left, hwrites, rfl⟩ | hleaving⟩
  · rcases carries_act hcarries with hold | ⟨message, _, hfound⟩
    · exact Or.inl (Or.inl hold)
    · exact Or.inr ⟨message.dest, hfound⟩
  · rcases heffort.writes hwrites with ⟨rest, hwas⟩ | ⟨hgrip, _, hlane⟩
    · exact Or.inl (Or.inr ⟨index, Or.inl ⟨job, rest, hwas, rfl⟩⟩)
    · exact Or.inl (Or.inl (carries_of_taken hlane hgrip))
  · refine Or.inl (Or.inr ⟨index, ?_⟩)
    cases heffort.regrip index with
    | keeps hand => exact Or.inr (hand ▸ hleaving)
    | takes _ _ _ _ hand => cases hand.symm.trans hleaving
    | asks _ _ hand => cases hand.symm.trans hleaving
    | givesUp job busy _ _ hand =>
        cases hand.symm.trans hleaving
        exact Or.inl busy
    | removes _ _ hand _ => cases hand.symm.trans hleaving
    | quits _ hand => cases hand.symm.trans hleaving

/-- What holds of the tasks and of one connection through a run. -/
structure Manned (conn : ConnId) (pipeline : Pipeline) : Prop where
  housed : Housed pipeline.transport
  single : pipeline.OneHanded
  level : pipeline.transport.Level conn
  strangers : Seat.absent.TakenAt (pipeline.transport.socket? conn)
  met : pipeline.Minds conn → pipeline.transport.Met conn
  stocked : ∀ index, pipeline.Reached index → 0 < pipeline.outbox.limits.backlog

theorem Manned.met_act (h : Manned conn pipeline) (htakes : pipeline.Takes step)
    (hafter : (pipeline.act step).1.Minds conn) :
    (pipeline.act step).1.transport.Met conn := by
  have hmet : pipeline.transport.Met conn := by
    rcases minds_act hafter with hold | ⟨dest, hfound⟩
    · exact h.met hold
    · have hleads := leads_of_writerFor hfound
      exact ⟨h.housed.socket dest conn hleads,
        Or.inl (h.housed.keyed.holds_iff_mem.mpr (mem_handles_iff_leads.mpr ⟨dest, hleads⟩))⟩
  exact ⟨(act_touch pipeline step conn).isSome hmet.socket,
    knows_act h.housed htakes.offersNone hmet.known⟩

theorem Manned.act (h : Manned conn pipeline) (htakes : pipeline.Takes step) :
    Manned conn (pipeline.act step).1 where
  housed := housed_act h.housed htakes.offersNone
  single := h.single.effort (act_effort pipeline step)
  level := (act_effort pipeline step).level h.level fun hcarries => (h.met (Or.inl hcarries)).socket
  strangers := (act_touch pipeline step conn).seat h.strangers
  met := h.met_act htakes
  stocked := fun index hreached => by
    rw [(lanes_act pipeline step).1]
    exact ((act_effort pipeline step).reached hreached).elim (h.stocked index) id

theorem manned_opening (self : Identity) (limits : Limits) (outboxLimits : OutboxLimits)
    (conn : ConnId) :
    Manned conn (atRest (Transport.create (Registry.create self limits) outboxLimits)) := by
  let start := atRest (Transport.create (Registry.create self limits) outboxLimits)
  have hwork : ∀ index writer backlog,
      start.transport.outbox.work? index = some (writer, backlog) → writer = .idle ∧ backlog = [] := by
    intro index writer backlog hwork
    obtain ⟨queue, hlane⟩ := Outbox.work?_eq_some.mp hwork
    cases (List.mem_replicate.mp (List.mem_of_getElem? hlane)).2
    exact ⟨rfl, rfl⟩
  have hidle : ∀ index job left, ¬start.transport.Writes index job left := by
    rintro index job left ⟨deadline, backlog, hbusy⟩
    cases (hwork index _ _ hbusy).1
  have hnone : ¬start.Minds conn := by
    rintro (⟨index, job, hmem, _⟩ | ⟨index, ⟨job, left, hwrites, _⟩ | hleaving⟩)
    · rw [show start.load index = Load.none from
        Chronicle.load_opening (Registry.create self limits) outboxLimits index] at hmem
      cases hmem
    · exact hidle index job left hwrites
    · cases hleaving
  refine ⟨⟨keyed_create self limits, fun dest conn hleads => ?_⟩, fun index job left hwrites => ?_,
    fun index => ?_, fun socket hsocket => ?_, fun hminds => absurd hminds hnone,
    fun index hreached => ?_⟩
  · exact absurd hleads (not_leads_create self limits dest conn)
  · exact absurd hwrites (hidle index job left)
  · constructor
    · rintro ⟨socket, hsocket, _⟩
      cases hsocket
    · rintro ⟨job, left, hwrites, _⟩
      exact absurd hwrites (hidle index job left)
  · cases hsocket
  · rcases hreached with ⟨writer, job, rest, hwaits⟩ | ⟨job, htaken⟩ | ⟨job, left, hwrites⟩
    · cases (hwork index _ _ hwaits).2
    · cases htaken
    · exact absurd hwrites (hidle index job left)

/-! ## What can still be put -/

/-- The socket takes bytes, its closing task does not have the lock, and a job for it is left. -/
def Exposed (pipeline : Pipeline) (conn : ConnId) : Prop :=
  ∃ socket, pipeline.transport.socket? conn = some socket ∧ socket.isBroken = false ∧
    socket.isHeldBy .closer = false ∧ pipeline.Carries conn

/-- What it takes for a writer to put bytes. -/
theorem note_of_put {most : Nat} (hnote : .put job left bytes ∈ (pipeline.put index most).2) :
    pipeline.transport.Writes index job left ∧ left ≠ [] ∧
      ∃ socket, pipeline.transport.socket? job.conn = some socket ∧
        socket.lock.head? = some (.lane index) ∧ socket.isBroken = false ∧ 0 < socket.capacity := by
  unfold put at hnote
  split at hnote
  · rename_i queue backlog found remaining deadline hlane
    split at hnote
    · rename_i socket hsocket
      split at hnote
      · rename_i hgoes
        obtain ⟨hheld, hopen⟩ := Bool.and_eq_true_iff.mp hgoes
        dsimp only at hnote
        split at hnote
        · cases hnote
        · rename_i hsome
          cases List.mem_singleton.mp hnote
          refine ⟨writes_of_lane hlane rfl, ?_, socket, hsocket, Socket.isHeldBy_iff.mp hheld,
            by simpa using hopen, Nat.pos_of_ne_zero ?_⟩
          · rintro rfl
            simp at hsome
          · intro hzero
            simp [hzero] at hsome
      · cases hnote
    · cases hnote
  · cases hnote

theorem note_of_act (hnote : .put job left bytes ∈ (pipeline.act step).2) :
    ∃ index, pipeline.transport.Writes index job left ∧ left ≠ [] ∧
      ∃ socket, pipeline.transport.socket? job.conn = some socket ∧
        socket.lock.head? = some (.lane index) ∧ socket.isBroken = false ∧ 0 < socket.capacity := by
  by_cases hput : ∃ index most, step = .put index most
  · obtain ⟨index, most, rfl⟩ := hput
    exact ⟨index, note_of_put hnote⟩
  · have hquiet : Quiet job.conn pipeline.transport (pipeline.act step).1.transport
        (pipeline.act step).2 :=
      quiet_act pipeline fun index most heq => hput ⟨index, most, heq⟩
    exact absurd rfl (hquiet.puts job left bytes hnote)

theorem exposed_of_note (hnote : .put job left bytes ∈ (pipeline.act step).2) :
    pipeline.Exposed job.conn := by
  obtain ⟨index, hwrites, hleft, socket, hsocket, hhead, hopen, _⟩ := note_of_act hnote
  refine ⟨socket, hsocket, hopen, ?_, carries_of_writes hwrites hleft⟩
  rw [← Bool.not_eq_true, Socket.isHeldBy_iff, hhead]
  simp

/-- What is gone is not exposed again. -/
theorem Exposed.of_act (hexposed : (pipeline.act step).1.Exposed conn)
    (hsocket : (pipeline.transport.socket? conn).isSome = true)
    (hgone : pipeline.transport.IsGone conn) : pipeline.Exposed conn := by
  obtain ⟨next, hnext, hopen, hfree, hcarries⟩ := hexposed
  obtain ⟨socket, hsocket⟩ := Option.isSome_iff_exists.mp hsocket
  obtain ⟨same, hsame, _, hbroken, hcloser⟩ :=
    (act_touch pipeline step conn).endures socket hsocket
  obtain rfl : same = next := Option.some.inj (hsame.symm.trans hnext)
  have hunbroken : socket.isBroken = false := by
    rw [← Bool.not_eq_true]
    intro hbad
    cases hopen.symm.trans (hbroken hbad)
  refine ⟨socket, hsocket, hunbroken, ?_, ?_⟩
  · rw [← Bool.not_eq_true, Socket.isHeldBy_iff]
    intro hhead
    rcases hcloser hhead with hstill | hbad
    · cases hfree.symm.trans (Socket.isHeldBy_iff.mpr hstill)
    · cases hopen.symm.trans hbad
  · rcases carries_act hcarries with hold | ⟨message, _, hfound⟩
    · exact hold
    · rcases hgone with hclosed | ⟨found, hfoundSocket, hbad⟩
      · cases hclosed.symm.trans (isClosed_of_writerFor hfound)
      · obtain rfl : socket = found := Option.some.inj (hsocket.symm.trans hfoundSocket)
        cases hunbroken.symm.trans hbad

end Pipeline

namespace Chronicle

open Pipeline Transport

variable {chronicle : Chronicle} {conn : ConnId} {index : Nat} {job : Job} {left : Bytes}
  {step : Step}

/-! ## Streams -/

/-- Every step of a run is allowed where it is taken. -/
def Along (allowed : Pipeline → Step → Prop) (chronicle : Chronicle) : List Step → Prop
  | [] => True
  | step :: rest => allowed chronicle.pipeline step ∧ (chronicle.act step).Along allowed rest

/-- The stream of a connection is whole frames, but for the newest piece. -/
def Intact (chronicle : Chronicle) (conn : ConnId) : Prop :=
  ∀ piece ∈ (pieces conn chronicle.notes).tail, piece.sent = piece.job.bytes

/-- The newest piece is not a whole frame, and no writer goes on with it. -/
def CutShort (chronicle : Chronicle) (conn : ConnId) : Prop :=
  (∃ newest older, pieces conn chronicle.notes = newest :: older ∧
    newest.sent ≠ newest.job.bytes) ∧
  ∀ index job left, ¬chronicle.pipeline.transport.Midway conn index job left

/-- Another piece can follow, by steps that the tasks take when it is time for them. -/
def Continues (chronicle : Chronicle) (conn : ConnId) : Prop :=
  ∃ later piece,
    chronicle.Along (fun pipeline step => pipeline.Takes step ∧ pipeline.InTime step) later ∧
    pieces conn (chronicle.run later).notes = piece :: pieces conn chronicle.notes

/-- What is known of a stream through a run of steps that the tasks take. -/
structure Traced (conn : ConnId) (chronicle : Chronicle) : Prop where
  wire : OnWire conn chronicle
  room : pieces conn chronicle.notes ≠ [] →
    ∃ socket, chronicle.pipeline.transport.socket? conn = some socket ∧ 0 < socket.capacity

theorem pieces_act_of_quiet (hquiet : Quiet conn chronicle.pipeline.transport
      (chronicle.act step).pipeline.transport (chronicle.pipeline.act step).2) :
    pieces conn (chronicle.act step).notes = pieces conn chronicle.notes := by
  show pieces conn (chronicle.notes ++ _) = _
  rw [pieces_append]
  exact foldl_onto_of_elsewhere hquiet.puts _

/-- A stream begins with a note of bytes that a writer has put. -/
theorem begun_act (hpieces : pieces conn (chronicle.act step).notes ≠ []) :
    pieces conn chronicle.notes ≠ [] ∨
      ∃ job left bytes, job.conn = conn ∧ .put job left bytes ∈ (chronicle.pipeline.act step).2 := by
  rcases quiet_or_fills chronicle.pipeline step conn with
    hquiet | ⟨index, job, bytes, rest, _, hconn, _, hnotes⟩
  · exact Or.inl (pieces_act_of_quiet hquiet ▸ hpieces)
  · exact Or.inr ⟨job, _, bytes, hconn, hnotes ▸ List.mem_singleton_self _⟩

/-- What a writer puts begins a piece, or goes on with the newest one. -/
theorem Traced.pieces_act (h : Traced conn chronicle) {after : Transport} {bytes rest : Bytes}
    (hfills : Fills chronicle.pipeline.transport after index job bytes rest)
    (hconn : job.conn = conn) (hbytes : bytes ≠ [])
    (hnotes : (chronicle.pipeline.act step).2 = [.put job (bytes ++ rest) bytes]) :
    ∃ sent older, pieces conn (chronicle.act step).notes = ⟨job, sent ++ bytes⟩ :: older ∧
      sent ++ (bytes ++ rest) = job.bytes ∧
      (sent = [] ∧ older = pieces conn chronicle.notes ∨
        pieces conn chronicle.notes = ⟨job, sent⟩ :: older) := by
  obtain ⟨sent, older, hnote, hsent, hcase⟩ := h.wire.note_eq hfills.writes hconn hbytes
  refine ⟨sent, older, ?_, hsent, hcase⟩
  show pieces conn (chronicle.notes ++ _) = _
  rw [pieces_append, hnotes, ← hnote]
  exact if_pos hconn

theorem Traced.act (h : Traced conn chronicle) (step : Step) :
    Traced conn (chronicle.act step) where
  wire := h.wire.act step
  room := fun hpieces => by
    have hendures := (act_touch chronicle.pipeline step conn).endures
    have hroom : ∃ socket, chronicle.pipeline.transport.socket? conn = some socket ∧
        0 < socket.capacity := by
      rcases begun_act hpieces with hbefore | ⟨job, left, bytes, rfl, hnote⟩
      · exact h.room hbefore
      · obtain ⟨_, _, _, socket, hsocket, _, _, hcapacity⟩ := note_of_act hnote
        exact ⟨socket, hsocket, hcapacity⟩
    obtain ⟨socket, hsocket, hcapacity⟩ := hroom
    obtain ⟨next, hnext, hsame, _⟩ := hendures socket hsocket
    exact ⟨next, hnext, hsame ▸ hcapacity⟩

theorem Traced.run (h : Traced conn chronicle) (steps : List Step) :
    Traced conn (chronicle.run steps) :=
  run_keeps h (fun _ step h => h.act step) steps

theorem traced_opening (registry : Registry) (limits : OutboxLimits) (conn : ConnId) :
    Traced conn (opening registry limits) :=
  ⟨onWire_opening registry limits conn, fun hpieces => absurd rfl hpieces⟩

theorem CutShort.socket (hcut : chronicle.CutShort conn) (h : Traced conn chronicle) :
    ∃ socket, chronicle.pipeline.transport.socket? conn = some socket ∧ 0 < socket.capacity := by
  obtain ⟨newest, older, hpieces, _⟩ := hcut.1
  exact h.room (by simp [hpieces])

/-! ## When a stream stays intact -/

/-- Who puts bytes is the one in the middle of a job, if somebody is. -/
theorem Traced.not_midway (h : Traced conn chronicle) {after : Transport} {bytes rest : Bytes}
    (hfills : Fills chronicle.pipeline.transport after index job bytes rest)
    (hconn : job.conn = conn) (hbegins : bytes ++ rest = job.bytes) (other : Nat) (found : Job)
    (left : Bytes) : ¬chronicle.pipeline.transport.Midway conn other found left := by
  intro hmidway
  obtain ⟨⟨socket, hsocket, hlock⟩, _⟩ := h.wire.midway other found left hmidway
  obtain ⟨same, hsame, hhead⟩ := hfills.holds
  rw [hconn, hsocket] at hsame
  cases hsame
  rw [hlock] at hhead
  cases hhead
  obtain ⟨rfl, rfl⟩ := hmidway.1.unique hfills.writes
  exact hmidway.2.2 hbegins

theorem Traced.intact_act (h : Traced conn chronicle) (hintact : chronicle.Intact conn)
    (hsafe : ¬(chronicle.CutShort conn ∧ chronicle.pipeline.Exposed conn)) (step : Step) :
    (chronicle.act step).Intact conn := by
  rcases quiet_or_fills chronicle.pipeline step conn with
    hquiet | ⟨index, job, bytes, rest, hfills, hconn, hbytes, hnotes⟩
  · rw [Intact, pieces_act_of_quiet hquiet]
    exact hintact
  obtain ⟨sent, older, hpieces, hsent, hcase⟩ := h.pieces_act hfills hconn hbytes hnotes
  rw [Intact, hpieces]
  intro piece (hmem : piece ∈ older)
  rcases hcase with ⟨rfl, rfl⟩ | hnewest
  · obtain ⟨newest, below, hwas⟩ := List.exists_cons_of_ne_nil (List.ne_nil_of_mem hmem)
    have hexposed : chronicle.pipeline.Exposed conn :=
      hconn ▸ exposed_of_note (hnotes ▸ List.mem_singleton_self _)
    have hwhole : newest.sent = newest.job.bytes := by
      by_contra hpart
      exact hsafe ⟨⟨⟨newest, below, hwas, hpart⟩, h.not_midway hfills hconn hsent⟩, hexposed⟩
    rw [hwas] at hmem
    rcases List.mem_cons.mp hmem with rfl | hbelow
    · exact hwhole
    · exact hintact piece (by rw [hwas]; exact hbelow)
  · exact hintact piece (by rw [hnewest]; exact hmem)

theorem Traced.intact_run (h : Traced conn chronicle) (hintact : chronicle.Intact conn)
    (steps : List Step)
    (hsafe : ∀ before, before <+: steps →
      ¬((chronicle.run before).CutShort conn ∧ (chronicle.run before).pipeline.Exposed conn)) :
    (chronicle.run steps).Intact conn := by
  induction steps generalizing chronicle with
  | nil => exact hintact
  | cons step rest ih =>
      have hnow : ¬(chronicle.CutShort conn ∧ chronicle.pipeline.Exposed conn) :=
        hsafe [] List.nil_prefix
      refine ih (h.act step) (h.intact_act hintact hnow step) fun before hbefore => ?_
      exact hsafe (step :: before) (List.cons_prefix_cons.mpr ⟨rfl, hbefore⟩)

/-! ## When nothing follows -/

/-- Once a stream has broken off and is not exposed, nothing is put any more. -/
theorem Traced.sealed_act (h : Traced conn chronicle) (hcut : chronicle.CutShort conn)
    (hgone : chronicle.pipeline.transport.IsGone conn)
    (hsealed : ¬chronicle.pipeline.Exposed conn) (step : Step) :
    pieces conn (chronicle.act step).notes = pieces conn chronicle.notes ∧
      (chronicle.act step).CutShort conn ∧ ¬(chronicle.act step).pipeline.Exposed conn := by
  have hquiet : Quiet conn chronicle.pipeline.transport (chronicle.act step).pipeline.transport
      (chronicle.pipeline.act step).2 := by
    rcases quiet_or_fills chronicle.pipeline step conn with
      hquiet | ⟨index, job, bytes, rest, _, hconn, _, hnotes⟩
    · exact hquiet
    · exact absurd (hconn ▸ exposed_of_note (hnotes ▸ List.mem_singleton_self _)) hsealed
  have hpieces := pieces_act_of_quiet hquiet
  refine ⟨hpieces, ⟨hpieces ▸ hcut.1, fun index job left hmidway => ?_⟩, fun hexposed => ?_⟩
  · exact hcut.2 index job left (hquiet.midway index job left hmidway)
  · obtain ⟨socket, hsocket, _⟩ := hcut.socket h
    exact hsealed (hexposed.of_act (by rw [hsocket]; rfl) hgone)

theorem Traced.sealed_run (h : Traced conn chronicle) (hcut : chronicle.CutShort conn)
    (hgone : chronicle.pipeline.transport.IsGone conn)
    (hsealed : ¬chronicle.pipeline.Exposed conn) (steps : List Step) :
    pieces conn (chronicle.run steps).notes = pieces conn chronicle.notes := by
  induction steps generalizing chronicle with
  | nil => rfl
  | cons step rest ih =>
      obtain ⟨hpieces, hcutNext, hsealedNext⟩ := h.sealed_act hcut hgone hsealed step
      exact (ih (h.act step) hcutNext (gone_act _ step hgone) hsealedNext).trans hpieces

/-! ## Who leaves a job in the middle -/

/-- What is known of a connection through a run of steps that the tasks take. -/
structure Kept (conn : ConnId) (chronicle : Chronicle) : Prop where
  traced : Traced conn chronicle
  manned : Manned conn chronicle.pipeline
  /-- The writer that has left a job in the middle removes the connection. -/
  gone : chronicle.CutShort conn → chronicle.pipeline.transport.IsGone conn ∨
    ∃ index, chronicle.pipeline.writerHand index = .leaving conn
  /-- Bytes were put, so a backlog has room for a job. -/
  stocked : pieces conn chronicle.notes ≠ [] → 0 < chronicle.pipeline.outbox.limits.backlog

/-- A writer that has to remove a connection does so, unless it still has to. -/
theorem Kept.gone_of_leaving (h : Kept conn chronicle) (htakes : chronicle.pipeline.Takes step)
    (hleaving : chronicle.pipeline.writerHand index = .leaving conn) :
    (chronicle.act step).pipeline.transport.IsGone conn ∨
      (chronicle.act step).pipeline.writerHand index = .leaving conn := by
  cases (act_effort chronicle.pipeline step).regrip index with
  | keeps hand => exact Or.inr (hand.trans hleaving)
  | takes _ _ _ was _ => cases was.symm.trans hleaving
  | asks _ was _ => cases was.symm.trans hleaving
  | givesUp _ _ was _ _ => cases was.symm.trans hleaving
  | removes removed was _ registry =>
      cases was.symm.trans hleaving
      have hmet := h.manned.met (Or.inr ⟨index, Or.inr hleaving⟩)
      refine Or.inl (Or.inl ?_)
      show (chronicle.pipeline.act step).1.transport.registry.isClosed conn = true
      rw [registry]
      exact h.manned.housed.keyed.isClosed_removed hmet.known
  | quits asks _ =>
      subst asks
      cases htakes.1.symm.trans hleaving

/-- A job that is left in the middle is left by a writer that has to remove the connection. -/
theorem Kept.leaving_of_midway (h : Kept conn chronicle) (htakes : chronicle.pipeline.Takes step)
    (hcut : (chronicle.act step).CutShort conn)
    (hquiet : Quiet conn chronicle.pipeline.transport (chronicle.act step).pipeline.transport
      (chronicle.pipeline.act step).2)
    (hmidway : chronicle.pipeline.transport.Midway conn index job left) :
    (chronicle.act step).pipeline.writerHand index = .leaving conn := by
  obtain ⟨_, sent, older, hnewest, hsent⟩ := h.traced.wire.midway index job left hmidway
  obtain ⟨hwrites, hconn, hbegun⟩ := hmidway
  rcases (act_effort chronicle.pipeline step).goesOn hwrites with
    ⟨bytes, rest, hleft, hnow⟩ | hnil | hleaving | hquits
  · refine absurd ⟨hnow, hconn, fun hall => hbegun ?_⟩ (hcut.2 index job rest)
    -- what is left of a job is the whole of it only if nothing has been put
    have hlength := congrArg List.length hsent
    rw [← hall, hleft, List.length_append, List.length_append] at hlength
    have hbytes : bytes = [] := List.length_eq_zero_iff.mp (by omega)
    rw [hleft, hbytes, List.nil_append, hall]
  · obtain ⟨newest, below, hpieces, hpart⟩ := hcut.1
    rw [pieces_act_of_quiet hquiet, hnewest] at hpieces
    cases hpieces
    rw [hnil, List.append_nil] at hsent
    exact absurd hsent hpart
  · rwa [hconn] at hleaving
  · subst hquits
    exact absurd hwrites (htakes.2 job left)

theorem Kept.gone_act (h : Kept conn chronicle) (htakes : chronicle.pipeline.Takes step)
    (hcut : (chronicle.act step).CutShort conn) :
    (chronicle.act step).pipeline.transport.IsGone conn ∨
      ∃ index, (chronicle.act step).pipeline.writerHand index = .leaving conn := by
  rcases quiet_or_fills chronicle.pipeline step conn with
    hquiet | ⟨index, job, bytes, rest, hfills, hconn, hbytes, hnotes⟩
  · have hpieces := pieces_act_of_quiet hquiet
    by_cases hmidway : ∃ index job left, chronicle.pipeline.transport.Midway conn index job left
    · obtain ⟨index, job, left, hmidway⟩ := hmidway
      exact Or.inr ⟨index, h.leaving_of_midway htakes hcut hquiet hmidway⟩
    · have hwas : chronicle.CutShort conn :=
        ⟨hpieces ▸ hcut.1, fun index job left hbusy => hmidway ⟨index, job, left, hbusy⟩⟩
      rcases h.gone hwas with hgone | ⟨index, hleaving⟩
      · exact Or.inl (Pipeline.gone_act _ step hgone)
      · exact (h.gone_of_leaving htakes hleaving).imp id fun hstill => ⟨index, hstill⟩
  · obtain ⟨sent, older, hpieces, hsent, _⟩ := h.traced.pieces_act hfills hconn hbytes hnotes
    obtain ⟨newest, below, hnewest, hpart⟩ := hcut.1
    rw [hpieces] at hnewest
    cases hnewest
    refine absurd ⟨hfills.goesOn, hconn, fun hall => ?_⟩ (hcut.2 index job rest)
    have hlength := congrArg List.length hsent
    rw [← hall, List.length_append, List.length_append] at hlength
    exact hbytes (List.length_eq_zero_iff.mp (by omega))

theorem Kept.act (h : Kept conn chronicle) (htakes : chronicle.pipeline.Takes step) :
    Kept conn (chronicle.act step) where
  traced := h.traced.act step
  manned := h.manned.act htakes
  gone := h.gone_act htakes
  stocked := fun hpieces => by
    show 0 < (chronicle.pipeline.act step).1.outbox.limits.backlog
    rw [(lanes_act chronicle.pipeline step).1]
    rcases begun_act hpieces with hbefore | ⟨job, left, bytes, _, hnote⟩
    · exact h.stocked hbefore
    · obtain ⟨index, hwrites, _⟩ := note_of_act hnote
      exact h.manned.stocked index (Or.inr (Or.inr ⟨job, left, hwrites⟩))

theorem Kept.run (h : Kept conn chronicle) {steps : List Step}
    (hproper : chronicle.Along Pipeline.Takes steps) : Kept conn (chronicle.run steps) := by
  induction steps generalizing chronicle with
  | nil => exact h
  | cons step rest ih => exact ih (h.act hproper.1) hproper.2

theorem kept_opening (self : Identity) (limits : Limits) (outboxLimits : OutboxLimits)
    (conn : ConnId) : Kept conn (opening (Registry.create self limits) outboxLimits) where
  traced := traced_opening _ _ conn
  manned := manned_opening self limits outboxLimits conn
  gone := fun hcut => by
    obtain ⟨newest, older, hpieces, _⟩ := hcut.1
    cases hpieces
  stocked := fun hpieces => absurd rfl hpieces

end Chronicle

end Peering
