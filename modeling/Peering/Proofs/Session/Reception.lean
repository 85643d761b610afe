import Peering.Endpoint.Sessions
import Peering.Proofs.Delivery.Pipeline

/-!
# The reception

The session of an accepted connection answers the request of its peer on the socket
itself. Here its answer is cut where another task can come in: it finds the socket,
asks for the lock, asks the registry, looks at the templates and writes, in steps of
their own and in portions of any size, while the steps of delivery go on between
them, and the sessions of other connections.

Main statement: what a session does about a request, at once or later, is a sequence
of these steps.
-/

namespace Peering

/-- What a session has found out about a request. -/
inductive Verdict where
  /-- It is compatible, and this node makes it. -/
  | welcome (node : Node)
  | refuse

/-- How far the session of an accepted connection is with its answer. -/
inductive Answer where
  /-- No request has been read. -/
  | awaited
  /-- The socket has to be found. -/
  | due (verdict : Verdict)
  /-- The socket has been found; its lock has not been asked for. -/
  | located (verdict : Verdict) (found : ConnId)
  /-- The session waits for the lock, or has got it and has done nothing yet. -/
  | queued (verdict : Verdict)
  /-- The registry has not agreed; the session still has the lock. -/
  | declined
  /-- The session is about to look at the templates. -/
  | granted (accepted : Bool)
  | writing (accepted : Bool) (frame : Frame) (left : Bytes)
  /-- All of the acceptance is written, and the lock is free. -/
  | given (frame : Frame)
  /-- The write of the acceptance has failed. -/
  | cut (frame : Frame)
  /-- The session has ended without an acceptance. -/
  | closed

/-- All sockets with the sessions that answer on them. -/
structure Reception where
  pipeline : Pipeline
  templates : Handshake.Templates
  answers : ConnId → Answer

namespace Reception

def transport (reception : Reception) : Transport :=
  reception.pipeline.transport

def withTransport (reception : Reception) (transport : Transport) : Reception :=
  { reception with pipeline := reception.pipeline.withTransport transport }

def turnTo (reception : Reception) (conn : ConnId) (answer : Answer) : Reception :=
  { reception with
    answers := fun other => if other = conn then answer else reception.answers other }

/-- Whether a session has locked its socket. -/
def hasLock (reception : Reception) (conn : ConnId) : Bool :=
  (reception.transport.socket? conn).any (·.isHeldBy .session)

def release (reception : Reception) (conn : ConnId) : Reception :=
  reception.withTransport (reception.transport.onSocket conn (·.release .session))

/-! ## Steps of a session -/

/-- A session reads a request, which may be one that it cannot read. -/
def hear (reception : Reception) (conn : ConnId) (verdict : Option Verdict) : Reception :=
  match reception.answers conn, verdict with
  | .awaited, none => reception.turnTo conn .closed
  | .awaited, some verdict => reception.turnTo conn (.due verdict)
  | _, _ => reception

def locate (reception : Reception) (conn : ConnId) : Reception :=
  match reception.answers conn with
  | .due verdict =>
      match reception.transport.registry.writerFor (.inbound conn) with
      | none => reception.turnTo conn .closed
      | some found => reception.turnTo conn (.located verdict found)
  | _ => reception

def ask (reception : Reception) (conn : ConnId) : Reception :=
  match reception.answers conn with
  | .located verdict found =>
      (reception.withTransport (reception.transport.onSocket found (·.ask .session))).turnTo conn
        (.queued verdict)
  | _ => reception

/-- A session that has the lock asks the registry to make its connection active. -/
def decide (reception : Reception) (now : Nat) (conn : ConnId) : Reception :=
  match reception.answers conn with
  | .queued verdict =>
      if !reception.hasLock conn then reception
      else match verdict with
        | .refuse => reception.turnTo conn (.granted false)
        | .welcome node =>
            match reception.transport.registry.promoteToActive now conn .inbound node with
            | .error _ => reception.turnTo conn .declined
            | .ok registry =>
                (reception.withTransport { reception.transport with registry := registry }).turnTo
                  conn (.granted true)
  | _ => reception

/-- A session whose request is declined gives up the lock, and has to ask for it again. -/
def stepBack (reception : Reception) (conn : ConnId) : Reception :=
  match reception.answers conn with
  | .declined => (reception.release conn).turnTo conn (.due .refuse)
  | _ => reception

def fetch (reception : Reception) (conn : ConnId) : Reception :=
  match reception.answers conn with
  | .granted accepted =>
      let frame :=
        if accepted then reception.templates.accept else reception.templates.reject
      reception.turnTo conn (.writing accepted frame frame.encode)
  | _ => reception

/-- A session puts as much as fits on its socket, and no more than `most` bytes; gives these. -/
def put (reception : Reception) (conn : ConnId) (most : Nat) : Reception × Bytes :=
  match reception.answers conn, reception.transport.socket? conn with
  | .writing accepted frame left, some socket =>
      if socket.isBroken then (reception, [])
      else
        let count := min most (socket.capacity - socket.unread.length)
        ((reception.withTransport (reception.transport.onSocket conn fun _ =>
          (socket.put (left.take count)).1)).turnTo conn
            (.writing accepted frame (left.drop count)), left.take count)
  | _, _ => (reception, [])

/-- A session that has nothing left to write gives up the lock. -/
def finish (reception : Reception) (conn : ConnId) : Reception :=
  match reception.answers conn with
  | .writing true frame [] => (reception.release conn).turnTo conn (.given frame)
  | .writing false _ [] => (reception.release conn).turnTo conn .closed
  | _ => reception

/-- The write fails: its time is over, or the socket does not take it. -/
def giveUp (reception : Reception) (conn : ConnId) : Reception :=
  match reception.answers conn with
  | .writing true frame _ => (reception.release conn).turnTo conn (.cut frame)
  | .writing false _ _ => (reception.release conn).turnTo conn .closed
  | _ => reception

/-- A session ends before it has read a request. -/
def leave (reception : Reception) (conn : ConnId) : Reception :=
  match reception.answers conn with
  | .awaited => reception.turnTo conn .closed
  | _ => reception

inductive Service where
  | hear (verdict : Option Verdict)
  | locate
  | ask
  | decide (now : Nat)
  | stepBack
  | fetch
  | put (most : Nat)
  | finish
  | giveUp
  | leave

/-- A step of the session of a connection, and the bytes that it puts on its socket. -/
def serve (reception : Reception) (conn : ConnId) : Service → Reception × Bytes
  | .hear verdict => (reception.hear conn verdict, [])
  | .locate => (reception.locate conn, [])
  | .ask => (reception.ask conn, [])
  | .decide now => (reception.decide now conn, [])
  | .stepBack => (reception.stepBack conn, [])
  | .fetch => (reception.fetch conn, [])
  | .put most => reception.put conn most
  | .finish => (reception.finish conn, [])
  | .giveUp => (reception.giveUp conn, [])
  | .leave => (reception.leave conn, [])

def serveAll (reception : Reception) (conn : ConnId) (services : List Service) : Reception :=
  services.foldl (fun reception service => (reception.serve conn service).1) reception

/-! ## Answers are sequences of these steps -/

variable {reception : Reception} {conn : ConnId} {answer : Answer}

@[simp] theorem turnTo_self : (reception.turnTo conn answer).answers conn = answer :=
  if_pos rfl

theorem turnTo_same (hsame : reception.answers conn = answer) :
    reception.turnTo conn answer = reception := by
  unfold turnTo
  congr 1
  funext other
  split
  · rename_i hother
    rw [hother, hsame]
  · rfl

theorem turnTo_other {other : ConnId} (hother : other ≠ conn) :
    (reception.turnTo conn answer).answers other = reception.answers other :=
  if_neg hother

end Reception

/-- The stage of a session tells how far it is with its answer. -/
def Answer.Shows (answer : Answer) (session : Session) : Prop :=
  match answer with
  | .awaited => session.stage = .reading
  | .queued (.welcome node) => session.stage = .accepting node
  | .queued .refuse => session.stage = .refusing
  | .writing accepted _ left => ∃ deadline, session.stage = .answering accepted left deadline
  | .given _ => session.stage = .reading
  | .cut _ => session.stage = .over
  | .closed => session.stage = .over
  | _ => False

namespace Reception

variable {endpoint : Endpoint} {answers : ConnId → Answer} {last : Answer}
  {outcome : Endpoint × Session}

/-- A reception between two steps of its endpoint, with one answer in view. -/
def atDesk (endpoint : Endpoint) (answers : ConnId → Answer) (conn : ConnId) (answer : Answer) :
    Reception where
  pipeline := Pipeline.atRest endpoint.transport
  templates := endpoint.templates
  answers := fun other => if other = conn then answer else answers other

/-- Steps of a session lead to what its endpoint and itself have become. -/
def Enacts (answers : ConnId → Answer) (conn : ConnId) (endpoint : Endpoint) (answer : Answer)
    (outcome : Endpoint × Session) : Prop :=
  ∃ services last, (atDesk endpoint answers conn answer).serveAll conn services =
    atDesk outcome.1 answers conn last ∧ last.Shows outcome.2

@[simp] theorem atDesk_answers : (atDesk endpoint answers conn answer).answers conn = answer :=
  if_pos rfl

@[simp] theorem atDesk_turnTo (endpoint : Endpoint) (answers : ConnId → Answer) (conn : ConnId)
    (answer last : Answer) :
    (atDesk endpoint answers conn answer).turnTo conn last = atDesk endpoint answers conn last := by
  simp only [turnTo, atDesk, Reception.mk.injEq, true_and]
  funext other
  split <;> rfl

theorem Enacts.rest {session : Session} (hshows : answer.Shows session) :
    Enacts answers conn endpoint answer (endpoint, session) :=
  ⟨[], answer, rfl, hshows⟩

theorem Enacts.step (service : Service) (middle : Endpoint) (last : Answer)
    (hserve : ((atDesk endpoint answers conn answer).serve conn service).1 =
      atDesk middle answers conn last) (h : Enacts answers conn middle last outcome) :
    Enacts answers conn endpoint answer outcome := by
  obtain ⟨services, final, hserves, hshows⟩ := h
  refine ⟨service :: services, final, ?_, hshows⟩
  rw [← hserves, ← hserve]
  rfl

/-- A session whose request is known looks for its socket, and asks for the lock if it is there. -/
theorem enacts_due (verdict : Verdict) {absent queued : Session} (habsent : absent.stage = .over)
    (hqueued : (Answer.queued verdict).Shows queued) :
    Enacts answers conn endpoint (.due verdict)
      (match endpoint.registry.writerFor (.inbound conn) with
        | none => (endpoint, absent)
        | some found =>
            ({ endpoint with transport := endpoint.transport.onSocket found (·.ask .session) },
              queued)) := by
  cases hwriter : endpoint.registry.writerFor (.inbound conn) with
  | none =>
      have hnone : (atDesk endpoint answers conn (.due verdict)).transport.registry.writerFor
        (.inbound conn) = none := hwriter
      exact .step .locate endpoint .closed (by simp [serve, locate, hnone]) (.rest habsent)
  | some found =>
      have hsome : (atDesk endpoint answers conn (.due verdict)).transport.registry.writerFor
        (.inbound conn) = some found := hwriter
      let asked := { endpoint with transport := endpoint.transport.onSocket found (·.ask .session) }
      refine .step .locate endpoint (.located verdict found) (by simp [serve, locate, hsome])
        (.step .ask asked (.queued verdict) ?_ (.rest hqueued))
      simp only [serve, ask, atDesk_answers]
      exact atDesk_turnTo asked _ _ _ _

/-- A session that refuses a request does it in these steps. -/
theorem enacts_refuse (endpoint : Endpoint) (session : Session) :
    Enacts answers session.conn endpoint (.due .refuse) (endpoint.refuse session) :=
  enacts_due .refuse rfl rfl

/-- A session that reads a request does about it what these steps do. -/
theorem enacts_onRequest (endpoint : Endpoint) (session : Session) (payload : Bytes) :
    Enacts answers session.conn endpoint .awaited (endpoint.onRequest session payload) := by
  have hhear : ∀ verdict, ((atDesk endpoint answers session.conn .awaited).serve session.conn
      (.hear (some verdict))).1 = atDesk endpoint answers session.conn (.due verdict) :=
    fun verdict => by simp [serve, hear]
  unfold Endpoint.onRequest
  split
  · exact .step (.hear none) endpoint .closed (by simp [serve, hear]) (.rest rfl)
  split
  · exact .step (.hear (some .refuse)) endpoint _ (hhear _) (enacts_refuse endpoint session)
  · rename_i request _ _ _
    exact .step (.hear (some (.welcome (endpoint.requester session request)))) endpoint _ (hhear _)
      (enacts_due _ rfl rfl)

theorem hasLock_atDesk (endpoint : Endpoint) (session : Session) (answers : ConnId → Answer)
    (answer : Answer) :
    (atDesk endpoint answers session.conn answer).hasLock session.conn = endpoint.hasSocket session :=
  rfl

/-- A session that starts to write its answer looks at the templates. -/
theorem enacts_answer (endpoint : Endpoint) (session : Session) (accepted : Bool) :
    Enacts answers conn endpoint (.granted accepted) (endpoint, endpoint.answer session accepted) := by
  refine .step .fetch endpoint (.writing accepted (if accepted then endpoint.templates.accept
    else endpoint.templates.reject) _) ?_ (.rest ⟨_, rfl⟩)
  simp [serve, fetch]
  rfl

theorem enacts_stepAccepting (endpoint : Endpoint) (session : Session) (node : Node)
    (hstage : session.stage = .accepting node) :
    Enacts answers session.conn endpoint (.queued (.welcome node))
      (endpoint.stepAccepting session node) := by
  unfold Endpoint.stepAccepting
  cases hlock : endpoint.hasSocket session with
  | false => exact .rest hstage
  | true =>
      have hheld := (hasLock_atDesk endpoint session answers (.queued (.welcome node))).trans hlock
      simp only [Bool.not_true, Bool.false_eq_true, if_false]
      split
      · rename_i error herror
        have hdeclined : (atDesk endpoint answers session.conn
          (.queued (.welcome node))).transport.registry.promoteToActive endpoint.clock session.conn
            .inbound node = .error error := herror
        refine .step (.decide endpoint.clock) endpoint .declined
          (by simp [serve, decide, hheld, hdeclined]) (.step .stepBack (endpoint.release session)
            (.due .refuse) ?_ (enacts_refuse (endpoint.release session) session))
        simp only [serve, stepBack, atDesk_answers]
        exact atDesk_turnTo (endpoint.release session) _ _ _ _
      · rename_i registry hpromote
        have hagreed : (atDesk endpoint answers session.conn
          (.queued (.welcome node))).transport.registry.promoteToActive endpoint.clock session.conn
            .inbound node = .ok registry := hpromote
        refine .step (.decide endpoint.clock) (endpoint.setRegistry registry) (.granted true) ?_
          (enacts_answer (endpoint.setRegistry registry) (session.activate node) true)
        simp only [serve, decide, atDesk_answers, hheld, hagreed, Bool.not_true, Bool.false_eq_true,
          if_false]
        exact atDesk_turnTo (endpoint.setRegistry registry) _ _ _ _

theorem enacts_stepRefusing (endpoint : Endpoint) (session : Session)
    (hstage : session.stage = .refusing) :
    Enacts answers session.conn endpoint (.queued .refuse) (endpoint.stepRefusing session) := by
  unfold Endpoint.stepRefusing
  cases hlock : endpoint.hasSocket session with
  | false => exact .rest hstage
  | true =>
      have hheld := (hasLock_atDesk endpoint session answers (.queued .refuse)).trans hlock
      exact .step (.decide 0) endpoint (.granted false) (by simp [serve, decide, hheld])
        (enacts_answer endpoint session false)

/-- A session that stops writing gives up the lock, whether it is done or not. -/
theorem enacts_release (endpoint : Endpoint) (session : Session) (accepted : Bool) (frame : Frame)
    (left : Bytes) (next : Session) (hover : next.stage = .over) :
    Enacts answers session.conn endpoint (.writing accepted frame left)
      (endpoint.release session, next) := by
  cases accepted with
  | true =>
      refine .step .giveUp (endpoint.release session) (.cut frame) ?_ (.rest hover)
      simp only [serve, giveUp, atDesk_answers]
      exact atDesk_turnTo (endpoint.release session) _ _ _ _
  | false =>
      refine .step .giveUp (endpoint.release session) .closed ?_ (.rest hover)
      simp only [serve, giveUp, atDesk_answers]
      exact atDesk_turnTo (endpoint.release session) _ _ _ _

theorem enacts_finish (endpoint : Endpoint) (session : Session) (accepted : Bool) (frame : Frame) :
    Enacts answers session.conn endpoint (.writing accepted frame [])
      (endpoint.release session, endpoint.afterAnswer session accepted) := by
  cases accepted with
  | true =>
      refine .step .finish (endpoint.release session) (.given frame) ?_ (.rest rfl)
      simp only [serve, finish, atDesk_answers]
      exact atDesk_turnTo (endpoint.release session) _ _ _ _
  | false =>
      refine .step .finish (endpoint.release session) .closed ?_ (.rest rfl)
      simp only [serve, finish, atDesk_answers]
      exact atDesk_turnTo (endpoint.release session) _ _ _ _

theorem enacts_stepAnswering (endpoint : Endpoint) (session : Session) (accepted : Bool)
    (frame : Frame) (left : Bytes) (deadline : Nat) :
    Enacts answers session.conn endpoint (.writing accepted frame left)
      (endpoint.stepAnswering session accepted left deadline) := by
  unfold Endpoint.stepAnswering
  cases hsocket : endpoint.transport.socket? session.conn with
  | none =>
      -- there is no lock to give up
      have hsame : endpoint.release session = endpoint :=
        congrArg (fun sockets => { endpoint with
          transport := { endpoint.transport with sockets := sockets } })
          (Table.modify_eq_self (congrArg Option.isSome hsocket) _)
      have hreleased : Enacts answers session.conn endpoint (.writing accepted frame left) _ :=
        enacts_release endpoint session accepted frame left session.quit rfl
      rw [hsame] at hreleased
      exact hreleased
  | some socket =>
      dsimp only
      split
      · exact enacts_release endpoint session accepted frame left _ rfl
      rename_i hbroken
      let written := { endpoint with
        transport := endpoint.transport.onSocket session.conn fun _ => (socket.put left).1 }
      have hput : ((atDesk endpoint answers session.conn (.writing accepted frame left)).serve
          session.conn (.put left.length)).1 =
            atDesk written answers session.conn (.writing accepted frame (socket.put left).2) := by
        have hfound : (atDesk endpoint answers session.conn
          (.writing accepted frame left)).transport.socket? session.conn = some socket := hsocket
        obtain ⟨hrest, hfits⟩ := Pipeline.put_min socket left
        simp only [serve, put, atDesk_answers, hfound, hbroken, Bool.false_eq_true, if_false, hrest,
          hfits]
        exact atDesk_turnTo written _ _ _ _
      refine .step (.put left.length) written (.writing accepted frame (socket.put left).2) hput ?_
      split
      · rename_i hdone
        rw [List.isEmpty_iff.mp hdone]
        exact enacts_finish written session accepted frame
      split
      · exact enacts_release written session accepted frame _ _ rfl
      · exact .rest ⟨deadline, rfl⟩

/-- Whatever a session does until it reads on or has ended, it does in these steps. -/
theorem enacts_advance (endpoint : Endpoint) (session : Session) (hshows : answer.Shows session)
    (hbusy : session.stage ≠ .reading) (heeds : Bool) :
    Enacts answers session.conn endpoint answer (endpoint.advanceSession session heeds) := by
  have hover : session.stage = .over →
      endpoint.advanceSession session heeds = (endpoint, session) := by
    intro hstage
    simp only [Endpoint.advanceSession, hstage]
  match answer with
  | .awaited => exact absurd hshows hbusy
  | .given _ => exact absurd hshows hbusy
  | .cut _ =>
      rw [hover hshows]
      exact .rest hshows
  | .closed =>
      rw [hover hshows]
      exact .rest hshows
  | .queued (.welcome node) =>
      have hstage : session.stage = .accepting node := hshows
      simp only [Endpoint.advanceSession, hstage]
      exact enacts_stepAccepting endpoint session node hstage
  | .queued .refuse =>
      have hstage : session.stage = .refusing := hshows
      simp only [Endpoint.advanceSession, hstage]
      exact enacts_stepRefusing endpoint session hstage
  | .writing accepted frame left =>
      obtain ⟨deadline, hstage⟩ := hshows
      simp only [Endpoint.advanceSession, hstage]
      exact enacts_stepAnswering endpoint session accepted frame left deadline

end Reception

end Peering
