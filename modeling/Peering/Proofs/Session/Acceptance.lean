import Peering.Proofs.Registry.History
import Peering.Proofs.Session.Deeds

/-!
# The acceptance comes first

A session takes the lock of its socket before it makes its connection active and
keeps it until the acceptance is written. Until the connection is active nothing but
its own handle leads to it, so no lane has a job for it; from then on a lane may
have one, but not the lock.

Main statement: whatever the other tasks do meanwhile, what comes onto the socket of
a connection whose request is accepted is the acceptance, and only after all of it
what the writers of lanes put there.
-/

namespace Peering

/-! ## The guestbook -/

/-- What is written about a run of a reception. -/
structure Guestbook where
  reception : Reception
  notes : List Note
  /-- What each session has put on its socket. -/
  said : ConnId → Bytes
  /-- All templates that there have been. -/
  composed : List Handshake.Templates

namespace Guestbook

open Reception Transport

inductive Turn where
  | deliver (step : Pipeline.Step)
  | serve (conn : ConnId) (service : Service)
  /-- The templates are built anew. -/
  | compose (templates : Handshake.Templates)

/-- The start of a run. -/
def opening (self : Identity) (limits : Limits) (outboxLimits : OutboxLimits)
    (templates : Handshake.Templates) : Guestbook where
  reception := ⟨Pipeline.atRest (Transport.create (Registry.create self limits) outboxLimits),
    templates, fun _ => .awaited⟩
  notes := []
  said := fun _ => []
  composed := [templates]

def note (book : Guestbook) (step : Pipeline.Step) : Guestbook :=
  { book with
    reception := { book.reception with pipeline := (book.reception.pipeline.act step).1 }
    notes := book.notes ++ (book.reception.pipeline.act step).2 }

/-- Connections are offered with their sockets, and accepted peers made active by sessions only. -/
def deliver (book : Guestbook) (step : Pipeline.Step) : Guestbook :=
  if step.isOrdinary then book.note step else book

def serve (book : Guestbook) (conn : ConnId) (service : Service) : Guestbook :=
  { book with
    reception := (book.reception.serve conn service).1
    said := fun other =>
      if other = conn then book.said conn ++ (book.reception.serve conn service).2
      else book.said other }

def act (book : Guestbook) : Turn → Guestbook
  | .deliver step => book.deliver step
  | .serve conn service => book.serve conn service
  | .compose templates =>
      { book with
        reception := { book.reception with templates := templates }
        composed := templates :: book.composed }

def run (book : Guestbook) (turns : List Turn) : Guestbook :=
  turns.foldl act book

def pipeline (book : Guestbook) : Pipeline :=
  book.reception.pipeline

def transport (book : Guestbook) : Transport :=
  book.reception.transport

def answer (book : Guestbook) (conn : ConnId) : Answer :=
  book.reception.answers conn

/-- All that has come onto the socket of a connection. -/
def stream (book : Guestbook) (conn : ConnId) : Bytes :=
  received conn book.notes ++ book.transport.unread conn

end Guestbook

/-! ## How a connection stands -/

namespace Answer

/-- The place that a session has in the queue for the lock of its socket. -/
def seat : Answer → Seat
  | .queued _ => .waits
  | .declined => .holds
  | .granted _ => .holds
  | .writing _ _ _ => .holds
  | _ => .absent

/-- Nothing has been done about the socket, or ever will be. -/
def isIdle : Answer → Bool
  | .awaited => true
  | .due _ => true
  | .closed => true
  | _ => false

/-- The connection has not been made active. -/
def isApart : Answer → Bool
  | .granted accepted => !accepted
  | .writing accepted _ _ => !accepted
  | .given _ => false
  | .cut _ => false
  | _ => true

/-- The connection is active, and the acceptance is not written yet. -/
def isAccepting : Answer → Bool
  | .granted accepted => accepted
  | .writing accepted _ _ => accepted
  | _ => false

theorem seat_of_accepting {answer : Answer} (haccepting : answer.isAccepting = true) :
    answer.seat = .holds := by
  cases answer with
  | granted accepted => rfl
  | writing accepted frame left => rfl
  | _ => cases haccepting

theorem seat_of_idle {answer : Answer} (hidle : answer.isIdle = true) : answer.seat = .absent := by
  cases answer with
  | awaited => rfl
  | due verdict => rfl
  | closed => rfl
  | _ => cases hidle

/-- The acceptance that a session writes, or has written. -/
def acceptance? : Answer → Option Frame
  | .writing accepted frame _ => if accepted then some frame else none
  | .given frame => some frame
  | .cut frame => some frame
  | _ => none

/-- What a session has put on its socket, by how far it is. -/
def Wrote (answer : Answer) (said : Bytes) : Prop :=
  match answer with
  | .writing _ frame left => said ++ left = frame.encode
  | .given frame => said = frame.encode
  | .cut _ => True
  | .closed => True
  | _ => said = []

end Answer

namespace Guestbook

open Reception Transport Pipeline

variable {book : Guestbook} {conn : ConnId}

/-- Who can write to a connection besides its session. -/
inductive Standing (conn : ConnId) (book : Guestbook) : Prop where
  /-- Nobody: nothing but its own handle leads to it. -/
  | apart (hanswer : (book.answer conn).isApart = true)
      (haside : book.transport.registry.Aside conn)
      (hfree : ¬ book.pipeline.Carries conn) (hlaid : laid conn book.notes = [])
  /-- It was dialed, so that its session answers nothing. -/
  | unaccepted (hanswer : (book.answer conn).isIdle = true)
      (hunaccepted : book.transport.registry.Unaccepted conn)
      (hsocket : (book.transport.socket? conn).isSome = true)
  /-- Whoever gets the lock, but the session has it. -/
  | accepting (hanswer : (book.answer conn).isAccepting = true) (hlaid : laid conn book.notes = [])
  | given (frame : Frame) (hanswer : book.answer conn = .given frame)
  | cut (frame : Frame) (hanswer : book.answer conn = .cut frame)

/-- What is known of a connection at any time, as long as nothing is sent to its own handle. -/
structure Kept (conn : ConnId) (book : Guestbook) : Prop where
  housed : Housed book.transport
  finds : book.reception.Finds
  unbound : ∀ message, book.pipeline.Unbound message → message.dest ≠ .inbound conn
  stream : book.stream conn = book.said conn ++ laid conn book.notes
  wrote : (book.answer conn).Wrote (book.said conn)
  seat : (book.answer conn).seat.TakenAt (book.transport.socket? conn)
  opened : (book.answer conn).isIdle = false → (book.transport.socket? conn).isSome = true
  current : book.reception.templates ∈ book.composed
  genuine : ∀ frame, (book.answer conn).acceptance? = some frame →
    frame ∈ book.composed.map (·.accept)
  standing : Standing conn book

theorem kept_opening (self : Identity) (limits : Limits) (outboxLimits : OutboxLimits)
    (templates : Handshake.Templates) (conn : ConnId) :
    Kept conn (opening self limits outboxLimits templates) := by
  have hload := Chronicle.load_opening (Registry.create self limits) outboxLimits
  have hunbound : ∀ message,
      ¬ (opening self limits outboxLimits templates).pipeline.Unbound message := by
    rintro message (hmem | ⟨index, hmem⟩)
    · exact List.not_mem_nil hmem
    · exact List.not_mem_nil (congrArg Load.waiting (hload index) ▸ hmem)
  have hfree : ¬ (opening self limits outboxLimits templates).pipeline.Carries conn := by
    rintro ⟨index, job, hmem, _⟩
    exact List.not_mem_nil (congrArg Load.jobs (hload index) ▸ hmem)
  have hnone : ∀ dest found, ¬ (Registry.create self limits).Leads dest found :=
    Registry.not_leads_create self limits
  exact {
    housed := ⟨Registry.keyed_create self limits, fun dest found hleads =>
      absurd hleads (hnone dest found)⟩
    finds := fun _ _ _ hanswer => by cases hanswer
    unbound := fun message hmem => absurd hmem (hunbound message)
    stream := rfl
    wrote := rfl
    seat := fun socket hsocket => by cases hsocket
    opened := fun hidle => by cases hidle
    current := List.mem_cons_self
    genuine := fun _ hframe => by cases hframe
    standing := .apart rfl (fun dest hleads => absurd hleads (hnone dest conn)) hfree rfl }

/-! ### Steps of delivery -/

section

variable {step : Step}

/-- A step puts something only if a writer has both a job for the connection and the lock. -/
theorem laid_act_eq_nil (hlaid : laid conn book.notes = [])
    (hnobody : ¬ (book.pipeline.Carries conn ∧ ∃ index, book.pipeline.transport.Holds conn index)) :
    laid conn (book.notes ++ (book.pipeline.act step).2) = [] := by
  rw [laid_append, hlaid, List.nil_append]
  by_contra hsome
  exact hnobody (writer_of_laid hsome)

/-- While the acceptance is written no writer has the lock. -/
theorem Kept.not_holds (h : Kept conn book) (hanswer : (book.answer conn).isAccepting = true)
    (index : Nat) : ¬ book.transport.Holds conn index := by
  rintro ⟨socket, hsocket, hhead⟩
  have hseat := h.seat
  rw [Answer.seat_of_accepting hanswer] at hseat
  obtain ⟨same, hsame, hsession⟩ := hseat
  obtain rfl : socket = same := Option.some.inj (hsocket.symm.trans hsame)
  cases hhead.symm.trans hsession

/-- No job comes about for a connection that nothing else leads to. -/
theorem Kept.not_carries_act (h : Kept conn book) (haside : book.transport.registry.Aside conn)
    (hfree : ¬ book.pipeline.Carries conn) : ¬ (book.pipeline.act step).1.Carries conn := by
  intro hcarries
  rcases carries_act hcarries with hold | ⟨message, hunbound, hwriter⟩
  · exact hfree hold
  · exact h.unbound message hunbound (haside _ (Registry.leads_of_writerFor hwriter))

theorem Kept.standing_note (h : Kept conn book) (hordinary : step.isOrdinary = true) :
    Standing conn (book.note step) := by
  have hhoused : Housed book.pipeline.transport := h.housed
  cases h.standing with
  | apart hanswer haside hfree hlaid =>
      have hstill : ¬ (book.pipeline.act step).1.Carries conn := h.not_carries_act haside hfree
      have hquiet : laid conn (book.notes ++ (book.pipeline.act step).2) = [] :=
        laid_act_eq_nil hlaid fun hwriter => hfree hwriter.1
      rcases aside_act hhoused hordinary haside with hstays | ⟨hnone, hsome, hunaccepted⟩
      · exact .apart hanswer hstays hstill hquiet
      · refine .unaccepted ?_ hunaccepted hsome
        by_contra hbusy
        have hsocket := h.opened (Bool.eq_false_iff.mpr hbusy)
        rw [show book.transport.socket? conn = none from hnone] at hsocket
        cases hsocket
  | unaccepted hanswer hunaccepted hsocket =>
      exact .unaccepted hanswer (unaccepted_act hhoused hordinary hsocket hunaccepted)
        ((act_touch book.pipeline step conn).isSome hsocket)
  | accepting hanswer hlaid =>
      exact .accepting hanswer (laid_act_eq_nil hlaid fun ⟨_, index, hholds⟩ =>
        h.not_holds hanswer index hholds)
  | given frame hanswer => exact .given frame hanswer
  | cut frame hanswer => exact .cut frame hanswer

theorem Kept.stream_note (h : Kept conn book) :
    (book.note step).stream conn =
      book.said conn ++ laid conn (book.notes ++ (book.pipeline.act step).2) :=
  calc
    received conn (book.notes ++ (book.pipeline.act step).2) ++
        (book.pipeline.act step).1.transport.unread conn
      = received conn book.notes ++ (book.pipeline.transport.unread conn ++
          laid conn (book.pipeline.act step).2) := by
        rw [received_append, List.append_assoc, act_stream]
    _ = book.stream conn ++ laid conn (book.pipeline.act step).2 :=
        (List.append_assoc _ _ _).symm
    _ = book.said conn ++ laid conn (book.notes ++ (book.pipeline.act step).2) := by
        rw [h.stream, laid_append, List.append_assoc]

theorem Kept.note (h : Kept conn book) (hordinary : step.isOrdinary = true)
    (hcalls : ∀ message, step.sent? = some message → message.dest ≠ .inbound conn) :
    Kept conn (book.note step) where
  housed := housed_act h.housed (Step.ordinary_cases hordinary).1
  finds := h.finds
  unbound := fun message hunbound => (unbound_act hunbound).elim (h.unbound message) (hcalls message)
  stream := h.stream_note
  wrote := h.wrote
  seat := (act_touch book.pipeline step conn).seat h.seat
  opened := fun hbusy => (act_touch book.pipeline step conn).isSome (h.opened hbusy)
  current := h.current
  genuine := h.genuine
  standing := h.standing_note hordinary

/-- A step of delivery lets a connection stand as it does. -/
theorem Kept.deliver (h : Kept conn book)
    (hcalls : ∀ message, step.sent? = some message → message.dest ≠ .inbound conn) :
    Kept conn (book.deliver step) := by
  unfold Guestbook.deliver
  split
  · rename_i hordinary
    exact h.note hordinary hcalls
  · exact h

end

/-! ### Steps of sessions -/

/-- What a step of a session writes into the guestbook. -/
def enter (book : Guestbook) (conn : ConnId) (answer : Answer) (transport : Transport)
    (bytes : Bytes) : Guestbook :=
  { book with
    reception := (book.reception.withTransport transport).turnTo conn answer
    said := fun other => if other = conn then book.said conn ++ bytes else book.said other }

theorem serve_enters (book : Guestbook) (conn : ConnId) (service : Service) :
    ∃ answer transport bytes, book.serve conn service = book.enter conn answer transport bytes ∧
      Deed book.reception conn (book.answer conn) answer transport bytes := by
  obtain ⟨answer, transport, hresult, hdeed⟩ := serve_does book.reception conn service
  refine ⟨answer, transport, _, ?_, hdeed⟩
  unfold Guestbook.serve enter
  rw [hresult]

variable {other : ConnId} {before answer : Answer} {transport : Transport} {bytes : Bytes}

theorem answer_enter_other (hother : conn ≠ other) :
    (book.enter other answer transport bytes).answer conn = book.answer conn :=
  turnTo_other hother

theorem said_enter_other (hother : conn ≠ other) :
    (book.enter other answer transport bytes).said conn = book.said conn :=
  if_neg hother

theorem Kept.finds_enter (h : Kept conn book)
    (hdeed : Deed book.reception other (book.answer other) answer transport bytes) :
    (book.enter other answer transport bytes).reception.Finds := by
  intro found verdict own hanswer
  by_cases hfound : found = other
  · subst hfound
    exact hdeed.finds rfl h.finds h.housed.keyed verdict own (turnTo_self.symm.trans hanswer)
  · exact h.finds found verdict own ((turnTo_other hfound).symm.trans hanswer)

/-- The sessions of other connections let a connection stand as it does. -/
theorem Kept.elsewhere (h : Kept conn book) (hother : conn ≠ other)
    (hdeed : Deed book.reception other (book.answer other) answer transport bytes) :
    Kept conn (book.enter other answer transport bytes) := by
  have hdiscreet := hdeed.discreet rfl h.finds
  have hsocket := hdiscreet.elsewhere conn hother
  have hreroutes := hdiscreet.reroutes h.housed.keyed
  have hanswer : (book.enter other answer transport bytes).answer conn = book.answer conn :=
    answer_enter_other hother
  have hsaid : (book.enter other answer transport bytes).said conn = book.said conn :=
    said_enter_other hother
  refine ⟨hdiscreet.housed h.housed, h.finds_enter hdeed, fun message hunbound => ?_, ?_, ?_, ?_,
    ?_, h.current, fun frame hframe => h.genuine frame (hanswer ▸ hframe), ?_⟩
  · exact h.unbound message ((unbound_withTransport hdiscreet.outbox).mp hunbound)
  · rw [hsaid]
    exact (congrArg (received conn book.notes ++ ·) (unread_congr hsocket)).trans h.stream
  · rw [hanswer, hsaid]
    exact h.wrote
  · rw [hanswer]
    exact hsocket.symm ▸ h.seat
  · rw [hanswer]
    exact hsocket.symm ▸ h.opened
  · cases h.standing with
    | apart hapart haside hfree hlaid =>
        refine .apart (hanswer ▸ hapart) (haside.reroutes hreroutes ?_)
          (fun hcarries => hfree ((carries_withTransport hdiscreet.outbox).mp hcarries)) hlaid
        rintro ⟨⟩
        exact hother rfl
    | unaccepted hidle hunaccepted hopened =>
        exact .unaccepted (hanswer ▸ hidle) (hunaccepted.reroutes hreroutes)
          ((hdiscreet.isSome conn).trans hopened)
    | accepting haccepting hlaid => exact .accepting (hanswer ▸ haccepting) hlaid
    | given frame hgiven => exact .given frame (hanswer.trans hgiven)
    | cut frame hcut => exact .cut frame (hanswer.trans hcut)

theorem seat_release (transport : Transport) (conn : ConnId) :
    Seat.absent.TakenAt ((transport.onSocket conn (·.release .session)).socket? conn) := by
  intro released hreleased
  rw [socket?_onSocket, if_pos rfl] at hreleased
  obtain ⟨socket, _, rfl⟩ := Option.map_eq_some_iff.mp hreleased
  exact fun hmem => (Socket.mem_release.mp hmem).2 rfl

theorem seat_of_lock (hlock : book.reception.hasLock conn = true) :
    Seat.holds.TakenAt (book.transport.socket? conn) := by
  unfold hasLock at hlock
  cases hsocket : book.reception.transport.socket? conn with
  | none =>
      rw [hsocket] at hlock
      cases hlock
  | some socket =>
      rw [hsocket] at hlock
      exact ⟨socket, hsocket, Socket.isHeldBy_iff.mp hlock⟩

/-- What a step of its own session does to a connection. -/
structure Advances (conn : ConnId) (book : Guestbook) (answer : Answer) (transport : Transport)
    (bytes : Bytes) : Prop where
  unread : transport.unread conn = book.transport.unread conn ++ bytes
  quiet : bytes ≠ [] → laid conn book.notes = []
  wrote : answer.Wrote (book.said conn ++ bytes)
  seat : answer.seat.TakenAt (transport.socket? conn)
  opened : answer.isIdle = false → (book.transport.socket? conn).isSome = true

/-- A session that has the lock shares its socket with nobody. -/
theorem Kept.laid_of_holding (h : Kept conn book) (hseat : (book.answer conn).seat = .holds) :
    laid conn book.notes = [] := by
  cases h.standing with
  | apart _ _ _ hlaid => exact hlaid
  | accepting _ hlaid => exact hlaid
  | unaccepted hidle _ _ => exact absurd hseat (Answer.seat_of_idle hidle ▸ nofun)
  | given _ hgiven => exact absurd hseat (hgiven ▸ nofun)
  | cut _ hcut => exact absurd hseat (hcut ▸ nofun)

/-- The writers of lanes put something on what was dialed, or after an answer. -/
theorem Kept.writer_of_laid (h : Kept conn book) (hlaid : laid conn book.notes ≠ []) :
    (∃ frame, book.answer conn = .given frame ∨ book.answer conn = .cut frame) ∨
      book.transport.registry.Unaccepted conn := by
  cases h.standing with
  | apart _ _ _ hnone => exact absurd hnone hlaid
  | accepting _ hnone => exact absurd hnone hlaid
  | unaccepted _ hunaccepted _ => exact Or.inr hunaccepted
  | given frame hgiven => exact Or.inl ⟨frame, Or.inl hgiven⟩
  | cut frame hcut => exact Or.inl ⟨frame, Or.inr hcut⟩

theorem Kept.advances (h : Kept conn book) (hanswer : book.answer conn = before)
    (hdeed : Deed book.reception conn before answer transport bytes) :
    Advances conn book answer transport bytes := by
  have hwrote := h.wrote
  have hseat := h.seat
  have hopened := h.opened
  rw [hanswer] at hwrote hseat hopened
  have hstill : book.transport.unread conn = book.transport.unread conn ++ [] :=
    (List.append_nil _).symm
  have hreleased : (book.transport.onSocket conn (·.release .session)).unread conn =
      book.transport.unread conn ++ [] :=
    (unread_onSocket book.transport conn fun socket =>
      (rfl : (socket.release .session).unread = socket.unread)).trans hstill
  have hsame : book.said conn ++ [] = book.said conn := List.append_nil _
  have hnone : ([] : Bytes) ≠ [] → laid conn book.notes = [] := fun hnil => absurd rfl hnil
  cases hdeed with
  | rests => exact ⟨hstill, hnone, hsame.symm ▸ hwrote, hseat, hopened⟩
  | hears verdict => exact ⟨hstill, hnone, hsame.trans hwrote, hseat, nofun⟩
  | ends => exact ⟨hstill, hnone, trivial, hseat, nofun⟩
  | misses verdict => exact ⟨hstill, hnone, trivial, hseat, nofun⟩
  | locates verdict found hfound =>
      have hleads := Registry.leads_of_writerFor hfound
      obtain rfl : conn = found := h.housed.keyed.eq_of_leads_inbound hleads
      exact ⟨hstill, hnone, hsame.trans hwrote, hseat, fun _ => h.housed.socket _ conn hleads⟩
  | asks verdict found =>
      obtain rfl : found = conn := h.finds conn verdict found hanswer
      obtain ⟨socket, hsocket⟩ := Option.isSome_iff_exists.mp (hopened rfl)
      refine ⟨(unread_onSocket book.transport found fun _ => Socket.ask_unread).trans hstill, hnone,
        hsame.trans hwrote, ⟨socket.ask .session, ?_, Socket.mem_ask.mpr (Or.inr rfl)⟩, hopened⟩
      rw [socket?_onSocket, if_pos rfl]
      exact congrArg (Option.map _) hsocket
  | declines node hlock =>
      exact ⟨hstill, hnone, hsame.trans hwrote, seat_of_lock hlock, hopened⟩
  | refuses hlock => exact ⟨hstill, hnone, hsame.trans hwrote, seat_of_lock hlock, hopened⟩
  | accepts now node registry hlock hpromote =>
      exact ⟨hstill, hnone, hsame.trans hwrote, seat_of_lock hlock, hopened⟩
  | stepsBack =>
      exact ⟨hreleased, hnone, hsame.trans hwrote, seat_release book.transport conn, nofun⟩
  | fetches accepted frame _ =>
      have hfirst : book.said conn = [] := hwrote
      refine ⟨hstill, hnone, ?_, hseat, hopened⟩
      rw [hfirst]
      rfl
  | puts accepted frame bytes rest socket hsocket =>
      have hput : (book.reception.transport.onSocket conn fun _ =>
          { socket with unread := socket.unread ++ bytes }).socket? conn =
            some { socket with unread := socket.unread ++ bytes } := by
        rw [socket?_onSocket, if_pos rfl]
        exact congrArg (Option.map _) hsocket
      refine ⟨?_, fun _ => h.laid_of_holding (hanswer ▸ rfl), ?_, ?_, hopened⟩
      · have hwas : book.transport.socket? conn = some socket := hsocket
        rw [unread, unread, hput, hwas]
        rfl
      · exact (List.append_assoc _ _ _).trans hwrote
      · obtain ⟨held, hheld, hhead⟩ := hseat
        obtain rfl : socket = held := Option.some.inj (hsocket.symm.trans hheld)
        exact ⟨_, hput, hhead⟩
  | finishes frame =>
      exact ⟨hreleased, hnone, hwrote, seat_release book.transport conn, hopened⟩
  | fails frame left => exact ⟨hreleased, hnone, trivial, seat_release book.transport conn, hopened⟩
  | parts frame left => exact ⟨hreleased, hnone, trivial, seat_release book.transport conn, nofun⟩

/-- The acceptance is that of the templates at the time, and does not change any more. -/
theorem Kept.genuine_of_deed (h : Kept conn book)
    (hdeed : Deed book.reception conn (book.answer conn) answer transport bytes) (frame : Frame)
    (hframe : answer.acceptance? = some frame) : frame ∈ book.composed.map (·.accept) := by
  have hgenuine := h.genuine frame
  generalize book.answer conn = before at hdeed hgenuine
  cases hdeed with
  | rests => exact hgenuine hframe
  | fetches accepted fetched hfetched =>
      cases accepted with
      | true =>
          obtain rfl : fetched = frame := Option.some.inj hframe
          exact hfetched rfl ▸ List.mem_map_of_mem h.current
      | false => cases hframe
  | puts accepted written bytes rest socket _ => exact hgenuine hframe
  | finishes written => exact hgenuine hframe
  | fails written left => exact hgenuine hframe
  | _ => cases hframe

theorem Kept.stands (h : Kept conn book) (hanswer : book.answer conn = before)
    (hdeed : Deed book.reception conn before answer transport bytes) :
    Standing conn (book.enter conn answer transport bytes) := by
  have hself : (book.enter conn answer transport bytes).answer conn = answer := turnTo_self
  have hdiscreet := hdeed.discreet hanswer h.finds
  cases h.standing with
  | given frame hgiven =>
      obtain rfl : before = .given frame := hanswer.symm.trans hgiven
      cases hdeed
      exact .given frame hself
  | cut frame hcut =>
      obtain rfl : before = .cut frame := hanswer.symm.trans hcut
      cases hdeed
      exact .cut frame hself
  | apart hapart haside hfree hlaid =>
      rw [hanswer] at hapart
      have hstays : answer.isApart = true → transport.registry = book.transport.registry →
          Standing conn (book.enter conn answer transport bytes) := fun hapart hregistry =>
        .apart (hself.symm ▸ hapart) (hregistry.symm ▸ haside)
          (fun hcarries => hfree ((carries_withTransport hdiscreet.outbox).mp hcarries)) hlaid
      cases hdeed with
      | rests => exact hstays hapart rfl
      -- from here on lanes find the connection, but the session has had the lock before
      | accepts now node registry hlock hpromote => exact .accepting (hself.symm ▸ rfl) hlaid
      | fetches accepted frame _ => exact hstays hapart rfl
      | puts accepted frame bytes rest socket _ => exact hstays hapart rfl
      | finishes frame => cases hapart
      | fails frame left => cases hapart
      | _ => exact hstays rfl rfl
  | unaccepted hidle hunaccepted hsocket =>
      rw [hanswer] at hidle
      have hstays : answer.isIdle = true → Standing conn (book.enter conn answer transport bytes) :=
        fun hidle => .unaccepted (hself.symm ▸ hidle)
          (hunaccepted.reroutes (hdiscreet.reroutes h.housed.keyed))
          ((hdiscreet.isSome conn).trans hsocket)
      cases hdeed with
      | rests => exact hstays hidle
      | hears verdict => exact hstays rfl
      | ends => exact hstays rfl
      | misses verdict => exact hstays rfl
      -- the handle of a dialed connection leads nowhere
      | locates verdict found hfound =>
          have hleads := Registry.leads_of_writerFor hfound
          obtain rfl : conn = found := h.housed.keyed.eq_of_leads_inbound hleads
          exact absurd hleads hunaccepted
      | _ => cases hidle
  | accepting haccepting hlaid =>
      rw [hanswer] at haccepting
      have hstays : answer.isAccepting = true →
          Standing conn (book.enter conn answer transport bytes) :=
        fun haccepting => .accepting (hself.symm ▸ haccepting) hlaid
      cases hdeed with
      | rests => exact hstays haccepting
      | fetches accepted frame _ => exact hstays haccepting
      | puts accepted frame bytes rest socket _ => exact hstays haccepting
      | finishes frame => exact .given frame hself
      | fails frame left => exact .cut frame hself
      | _ => cases haccepting

theorem Kept.stream_enter (h : Kept conn book) (hadvances : Advances conn book answer transport bytes) :
    (book.enter conn answer transport bytes).stream conn =
      book.said conn ++ bytes ++ laid conn book.notes :=
  calc
    received conn book.notes ++ transport.unread conn
      = book.stream conn ++ bytes := by
        rw [hadvances.unread, ← List.append_assoc]
        rfl
    _ = book.said conn ++ laid conn book.notes ++ bytes := by rw [h.stream]
    _ = book.said conn ++ bytes ++ laid conn book.notes := by
        by_cases hbytes : bytes = []
        · rw [hbytes, List.append_nil, List.append_nil]
        · rw [hadvances.quiet hbytes, List.append_nil, List.append_nil]

/-- The session of a connection lets it stand as it does, or brings it further. -/
theorem Kept.own (h : Kept conn book)
    (hdeed : Deed book.reception conn (book.answer conn) answer transport bytes) :
    Kept conn (book.enter conn answer transport bytes) := by
  have hdiscreet := hdeed.discreet rfl h.finds
  have hadvances := h.advances rfl hdeed
  have hself : (book.enter conn answer transport bytes).answer conn = answer := turnTo_self
  have hsaid : (book.enter conn answer transport bytes).said conn = book.said conn ++ bytes :=
    if_pos rfl
  refine ⟨hdiscreet.housed h.housed, h.finds_enter hdeed, fun message hunbound => ?_, ?_, ?_, ?_,
    ?_, h.current, fun frame hframe => ?_, h.stands rfl hdeed⟩
  · exact h.unbound message ((unbound_withTransport hdiscreet.outbox).mp hunbound)
  · rw [hsaid]
    exact h.stream_enter hadvances
  · rw [hself, hsaid]
    exact hadvances.wrote
  · rw [hself]
    exact hadvances.seat
  · rw [hself]
    exact fun hbusy => (hdiscreet.isSome conn).trans (hadvances.opened hbusy)
  · rw [hself] at hframe
    exact h.genuine_of_deed hdeed frame hframe

/-- A session leaves a connection as it is, whether it is its own or not. -/
theorem Kept.serve (h : Kept conn book) (other : ConnId) (service : Service) :
    Kept conn (book.serve other service) := by
  obtain ⟨answer, transport, bytes, hentered, hdeed⟩ := serve_enters book other service
  rw [hentered]
  by_cases hother : conn = other
  · subst hother
    exact h.own hdeed
  · exact h.elsewhere hother hdeed

theorem Kept.compose (h : Kept conn book) (templates : Handshake.Templates) :
    Kept conn (book.act (.compose templates)) :=
  { h with
    current := List.mem_cons_self
    genuine := fun frame hframe => List.mem_cons_of_mem _ (h.genuine frame hframe)
    standing := by
      cases h.standing with
      | apart hanswer haside hfree hlaid => exact .apart hanswer haside hfree hlaid
      | unaccepted hanswer hunaccepted hsocket => exact .unaccepted hanswer hunaccepted hsocket
      | accepting hanswer hlaid => exact .accepting hanswer hlaid
      | given frame hanswer => exact .given frame hanswer
      | cut frame hanswer => exact .cut frame hanswer }

/-! ## Runs -/

theorem Kept.act (h : Kept conn book) {turn : Turn}
    (hcalls : ∀ message, turn = .deliver (.send message) → message.dest ≠ .inbound conn) :
    Kept conn (book.act turn) := by
  cases turn with
  | deliver step =>
      refine h.deliver fun message hsent => ?_
      cases step with
      | send called => exact hcalls message (Option.some.inj hsent ▸ rfl)
      | _ => cases hsent
  | serve other service => exact h.serve other service
  | compose templates => exact h.compose templates

theorem Kept.run (h : Kept conn book) {turns : List Turn}
    (hcalls : ∀ message, .deliver (.send message) ∈ turns → message.dest ≠ .inbound conn) :
    Kept conn (book.run turns) := by
  induction turns generalizing book with
  | nil => exact h
  | cons turn rest ih =>
      refine ih (h.act fun message hturn => ?_) fun message hmem =>
        hcalls message (List.mem_cons_of_mem _ hmem)
      exact hcalls message (hturn ▸ List.mem_cons_self)

/--
However the steps of delivery, of the sessions and of the clock take turns: the socket
of a connection whose request is accepted has nothing on it until its session writes,
then a front of the acceptance, and in the end all of the acceptance and after it what
the writers of lanes have put there. Before that they put nothing on a connection that
stands among the accepted ones, unless the write of the acceptance has failed.

The assumption holds of all tasks: the handle of an accepted connection is for its own
session, which does not send to it but asks for the socket.
-/
theorem run_acceptance_first (self : Identity) (limits : Limits) (outboxLimits : OutboxLimits)
    (templates : Handshake.Templates) (turns : List Turn) (conn : ConnId)
    (hcalls : ∀ message, .deliver (.send message) ∈ turns → message.dest ≠ .inbound conn) :
    let book := (opening self limits outboxLimits templates).run turns
    (book.answer conn = .granted true →
      laid conn book.notes = [] ∧ book.stream conn = []) ∧
    (∀ frame left, book.answer conn = .writing true frame left →
      laid conn book.notes = [] ∧ book.stream conn ++ left = frame.encode) ∧
    (∀ frame, book.answer conn = .given frame →
      frame ∈ book.composed.map (·.accept) ∧
        book.stream conn = frame.encode ++ laid conn book.notes) ∧
    (laid conn book.notes ≠ [] →
      (∃ frame, book.answer conn = .given frame ∨ book.answer conn = .cut frame) ∨
        book.transport.registry.Unaccepted conn) := by
  intro book
  have h : Kept conn book := (kept_opening self limits outboxLimits templates conn).run hcalls
  have hstream := h.stream
  have hwrote := h.wrote
  refine ⟨fun hgranted => ?_, fun frame left hwriting => ?_, fun frame hgiven => ?_,
    h.writer_of_laid⟩
  · have hlaid : laid conn book.notes = [] := h.laid_of_holding (hgranted ▸ rfl)
    rw [hgranted] at hwrote
    refine ⟨hlaid, ?_⟩
    rw [hstream, hlaid, List.append_nil]
    exact hwrote
  · have hlaid : laid conn book.notes = [] := h.laid_of_holding (hwriting ▸ rfl)
    rw [hwriting] at hwrote
    refine ⟨hlaid, ?_⟩
    rw [hstream, hlaid, List.append_nil]
    exact hwrote
  · rw [hgiven] at hwrote
    refine ⟨h.genuine frame (hgiven ▸ rfl), ?_⟩
    rw [hstream]
    exact congrArg (· ++ laid conn book.notes) hwrote

/-- A lane has a frame for a node that is active before a byte of the acceptance is written. -/
def overtaken : List Turn :=
  let node := Registry.repeatedNode 0x61
  let frame : Frame := ⟨1, 1, 1, [0xaa]⟩
  [.deliver (.accept 0 24), .serve 1 (.hear (some (.welcome node))), .serve 1 .locate, .serve 1 .ask,
    .serve 1 (.decide 0), .deliver (.send ⟨.active node.idHash, frame, 0⟩), .deliver .pull,
    .deliver .pass, .deliver (.pick 0), .deliver (.judge 0 0), .deliver (.find 0),
    .deliver (.leave 0), .deliver (.receive 0), .deliver (.ask 0), .deliver (.put 0 64),
    .serve 1 .fetch, .serve 1 (.put 4), .deliver (.put 0 64), .serve 1 (.put 64),
    .serve 1 .finish, .deliver (.put 0 64)]

/-- What the lane writes comes after the acceptance. -/
theorem run_acceptance_first_of_overtaken :
    let self := Identity.create (Registry.repeatedId 0x62) (.v4 0x0a000001) 30303
    let templates := Handshake.Templates.build
      ⟨Registry.repeatedId 0x62, 7, .v4 0x0a000001, 30303, "r", [1]⟩
    let book := (opening self ⟨8, 8, 60, 60, 60⟩ ⟨1, 8, 8, 8, 100, 16⟩ templates).run overtaken
    (∀ message, .deliver (.send message) ∈ overtaken → message.dest ≠ .inbound 1) ∧
      laid 1 book.notes = [0, 1, 1, 1, 0, 0, 0, 1, 0xaa] ∧
      book.answer 1 = .given templates.accept ∧
      book.stream 1 = templates.accept.encode ++ laid 1 book.notes := by
  intro self templates book
  have hcalls : ∀ message, .deliver (.send message) ∈ overtaken → message.dest ≠ .inbound 1 := by
    intro message hmem
    simp only [overtaken, List.mem_cons, Turn.deliver.injEq, Step.send.injEq, reduceCtorEq,
      List.not_mem_nil, false_or, or_false] at hmem
    rw [hmem]
    nofun
  have htest : (match book.answer 1 with
      | .given frame => decide (frame = templates.accept)
      | _ => false) = true := by decide +kernel
  have hgiven : book.answer 1 = .given templates.accept := by
    split at htest
    · rename_i frame hanswer
      rw [hanswer, of_decide_eq_true htest]
    · cases htest
  obtain ⟨_, _, hfirst, _⟩ := run_acceptance_first self ⟨8, 8, 60, 60, 60⟩ ⟨1, 8, 8, 8, 100, 16⟩
    templates overtaken 1 hcalls
  exact ⟨hcalls, by decide +kernel, hgiven, (hfirst templates.accept hgiven).2⟩

end Guestbook

end Peering
