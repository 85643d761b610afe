import Peering.Proofs.Registry.History
import Peering.Proofs.Session.Visits

/-!
# The gate

A session lets nothing through before its connection is active. It reads one frame
for its handshake; whatever goes wrong with that one ends the session before it reads
another, and a second promotion is never asked for, since the phase that asks for
the first one is left by it.

Main statement: whatever bytes arrive, and whatever has become of the endpoint at
each visit, a session touches nothing but sockets until it makes its connection
active, which it does once at most and only for the frame that its handshake
admits, and from then on it hands over the frames of applications, each once and in
order.
-/

namespace Peering

/-- How a connection came about. -/
inductive Origin where
  | accepted (ip : IpAddress)
  | dialed (node : Node)

namespace Origin

def session (origin : Origin) (conn : ConnId) (openedAt deadline : Nat) : Session :=
  match origin with
  | .accepted ip => Session.accepted conn ip openedAt deadline
  | .dialed node => Session.dialing conn node openedAt deadline

/-- The frame that the handshake of a connection waits for. -/
def Admits (origin : Origin) (endpoint : Endpoint) (frame : Frame) : Prop :=
  match origin with
  | .accepted _ => endpoint.AdmitsRequest frame
  | .dialed _ => Endpoint.AdmitsResponse frame

end Origin

/-- One step of a session, with the endpoint as the session finds it. -/
structure Visit where
  before : Endpoint
  session : Session
  /-- The session looks first whether it has been told to stop. -/
  heeds : Bool

namespace Visit

def after (visit : Visit) : Endpoint :=
  (visit.before.advanceSession visit.session visit.heeds).1

def next (visit : Visit) : Session :=
  (visit.before.advanceSession visit.session visit.heeds).2

/-- Whether the session stops before it looks for a frame. -/
def isStopped (visit : Visit) : Bool :=
  visit.before.isCancelled visit.session && visit.heeds

/-- The frame that is read in the visit. -/
def frame? (visit : Visit) : Option Frame :=
  match visit.session.stage with
  | .reading =>
      if visit.isStopped then none
      else match FrameStream.front visit.before.settings.maxFrameBody.toNat
          visit.session.buffer with
        | .frame frame _ => some frame
        | _ => none
  | _ => none

/-- What a frame gives the handlers, once the session has a peer. -/
def messages (visit : Visit) : List Incoming :=
  match visit.frame?, visit.session.peer with
  | some frame, some name => if frame.isNet then [] else [Endpoint.incoming name frame]
  | _, _ => []

/-- Whether the session gets its peer in the visit. -/
def isPromotion (visit : Visit) : Bool :=
  visit.session.peer.isNone && visit.next.peer.isSome

end Visit

/-- What a session has done so far, and the session as it is. -/
structure Diary where
  visits : List Visit
  session : Session

namespace Diary

inductive Turn where
  | receive (bytes : Bytes)
  | endStream
  /-- A step of the session, on the endpoint as it is by then. -/
  | step (endpoint : Endpoint) (heeds : Bool)

def opening (session : Session) : Diary :=
  ⟨[], session⟩

def act (diary : Diary) : Turn → Diary
  | .receive bytes =>
      { diary with session := { diary.session with buffer := diary.session.buffer ++ bytes } }
  | .endStream => { diary with session := { diary.session with ended := true } }
  | .step endpoint heeds =>
      let visit : Visit := ⟨endpoint, diary.session, heeds⟩
      ⟨diary.visits ++ [visit], visit.next⟩

def run (diary : Diary) (turns : List Turn) : Diary :=
  turns.foldl act diary

/-- The frames that were read, in order. -/
def frames (diary : Diary) : List Frame :=
  diary.visits.filterMap Visit.frame?

/-- The messages that were handed over, in order. -/
def messages (diary : Diary) : List Incoming :=
  diary.visits.flatMap Visit.messages

end Diary

/-- All the bytes that arrive in some turns. -/
def Diary.Turn.bytes : Diary.Turn → Bytes
  | .receive bytes => bytes
  | _ => []

/-! ## One visit -/

namespace Visit

variable {visit : Visit} {frame : Frame} {name : PeerName}

/-- All that a visit can be. -/
inductive Course (visit : Visit) : Prop where
  /-- Nothing is read, and nothing but sockets changes. -/
  | waits (hframe : visit.frame? = none)
      (hsilent : Endpoint.Silent visit.before visit.after)
      (hconn : visit.next.conn = visit.session.conn)
      (hbuffer : visit.next.buffer = visit.session.buffer)
      (hpeer : visit.next.peer = visit.session.peer)
      (hphase : visit.next.phase = visit.session.phase)
      (hstage : visit.next.stage = visit.session.stage ∨ visit.next.stage = .over ∨
        (visit.session.stage = .refusing ∧ ∃ left deadline,
          visit.next.stage = .answering false left deadline) ∨
        ∃ accepted left deadline, visit.session.stage = .answering accepted left deadline ∧
          ((∃ rest, visit.next.stage = .answering accepted rest deadline) ∨
            (accepted = true ∧ visit.next.stage = .reading)))
  /-- A header beyond the limit ends the session. -/
  | oversized (hframe : visit.frame? = none) (hreading : visit.session.stage = .reading)
      (hafter : visit.after = visit.before.onOversized visit.session)
      (hnext : visit.next = visit.session.quit)
  /-- The registry does not agree to the connection. -/
  | refuses (node : Node) (hframe : visit.frame? = none)
      (hstage : visit.session.stage = .accepting node)
      (hsilent : Endpoint.Silent visit.before visit.after)
      (hgives : Endpoint.GivesUp visit.session visit.next)
  /-- The connection becomes active, and the acceptance is to be written. -/
  | accepts (node : Node) (hframe : visit.frame? = none)
      (hstage : visit.session.stage = .accepting node)
      (hpromotes : Endpoint.Promotes visit.before visit.session.conn visit.after
        ⟨node.idHash, node.display⟩)
      (hnext : visit.next = visit.after.answer (visit.session.activate node) true)
  | reads (frame : Frame) (rest : Bytes) (deadline : Nat) (hframe : visit.frame? = some frame)
      (hreading : visit.session.stage = .reading)
      (hbuffer : visit.session.buffer = frame.encode ++ rest)
      (hreceipt : Endpoint.Receipt visit.before
        { visit.session with buffer := rest, deadline := deadline } frame visit.after visit.next)

/-- The session only goes on waiting, or ends. -/
theorem course_of_still (hframe : visit.frame? = none) (hafter : visit.after = visit.before)
    (hnext : visit.next = visit.session ∨ visit.next = visit.session.quit) : Course visit := by
  have hsilent : Endpoint.Silent visit.before visit.after := by
    rw [hafter]
    exact .refl visit.before
  rcases hnext with hnext | hnext
  · exact .waits hframe hsilent (by rw [hnext]) (by rw [hnext]) (by rw [hnext]) (by rw [hnext])
      (Or.inl (by rw [hnext]))
  · exact .waits hframe hsilent (by rw [hnext]; rfl) (by rw [hnext]; rfl) (by rw [hnext]; rfl)
      (by rw [hnext]; rfl) (Or.inr (Or.inl (by rw [hnext]; rfl)))

theorem frame?_of_busy (visit : Visit) (hbusy : visit.session.stage ≠ .reading) : visit.frame? = none := by
  unfold frame?
  split
  · rename_i hreading
    exact absurd hreading hbusy
  · rfl

theorem course_of_reading (hreading : visit.session.stage = .reading) : Course visit := by
  have hadvance : visit.before.advanceSession visit.session visit.heeds =
      visit.before.stepReading visit.session visit.heeds := by
    simp only [Endpoint.advanceSession, hreading]
  have hafter := congrArg Prod.fst hadvance
  have hnext := congrArg Prod.snd hadvance
  unfold Endpoint.stepReading at hafter hnext
  rw [← isStopped] at hafter hnext
  by_cases hstopped : visit.isStopped = true
  · rw [if_pos hstopped] at hafter hnext
    exact course_of_still (by simp only [frame?, hreading, hstopped, if_true]) hafter
      (Or.inr hnext)
  rw [if_neg hstopped] at hafter hnext
  cases hfront : FrameStream.front visit.before.settings.maxFrameBody.toNat
      visit.session.buffer with
  | frame frame rest =>
      simp only [hfront] at hafter hnext
      have hframe : visit.frame? = some frame := by
        simp only [frame?, hreading, hstopped, hfront]
        rfl
      refine .reads frame rest (visit.before.timer + visit.before.settings.readTimeout) hframe
        hreading (FrameStream.front_eq_frame_iff.mp hfront).1 ?_
      have hreceipt := Endpoint.onFrame_receipt visit.before { visit.session with
        buffer := rest
        deadline := visit.before.timer + visit.before.settings.readTimeout } frame
      rw [← hafter, ← hnext] at hreceipt
      exact hreceipt
  | incomplete =>
      simp only [hfront] at hafter hnext
      have hframe : visit.frame? = none := by
        simp only [frame?, hreading, hstopped, hfront]
        rfl
      split at hafter
      · rename_i hended
        rw [if_pos hended] at hnext
        exact course_of_still hframe hafter (Or.inr hnext)
      · rename_i hwaits
        rw [if_neg hwaits] at hnext
        exact course_of_still hframe hafter (Or.inl hnext)
  | oversized error =>
      simp only [hfront] at hafter hnext
      have hframe : visit.frame? = none := by
        simp only [frame?, hreading, hstopped, hfront]
        rfl
      exact .oversized hframe hreading hafter hnext

theorem course_of_accepting {node : Node} (hstage : visit.session.stage = .accepting node) :
    Course visit := by
  have hframe := frame?_of_busy visit (by rw [hstage]; nofun)
  have hadvance : visit.before.advanceSession visit.session visit.heeds =
      visit.before.stepAccepting visit.session node := by
    simp only [Endpoint.advanceSession, hstage]
  have hafter := congrArg Prod.fst hadvance
  have hnext := congrArg Prod.snd hadvance
  rcases Endpoint.stepAccepting_cases visit.before visit.session node with
    hstill | ⟨hsilent, hgives⟩ | ⟨registry, hpromote, hfirst, hsecond⟩
  · rw [hstill] at hafter hnext
    exact course_of_still hframe hafter (Or.inl hnext)
  · rw [← hafter] at hsilent
    rw [← hnext] at hgives
    exact .refuses node hframe hstage hsilent hgives
  · exact .accepts node hframe hstage (.accepted node registry hpromote (hafter.trans hfirst))
      (by rw [after, hafter, hfirst]; exact hnext.trans hsecond)

theorem course_of_refusing (hstage : visit.session.stage = .refusing) : Course visit := by
  have hframe := frame?_of_busy visit (by rw [hstage]; nofun)
  have hadvance : visit.before.advanceSession visit.session visit.heeds =
      visit.before.stepRefusing visit.session := by
    simp only [Endpoint.advanceSession, hstage]
  have hafter := congrArg Prod.fst hadvance
  have hnext := congrArg Prod.snd hadvance
  unfold Endpoint.stepRefusing at hafter hnext
  by_cases hsocket : visit.before.hasSocket visit.session = true
  · rw [if_pos hsocket] at hafter hnext
    have hsilent : Endpoint.Silent visit.before visit.after := by
      rw [after, hafter]
      exact .refl visit.before
    have hanswer : visit.next = visit.before.answer visit.session false := hnext
    refine .waits hframe hsilent (by rw [hanswer]; rfl) (by rw [hanswer]; rfl) (by rw [hanswer]; rfl)
      (by rw [hanswer]; rfl) (Or.inr (Or.inr (Or.inl ⟨hstage, ?_⟩)))
    rw [hanswer]
    exact ⟨_, _, rfl⟩
  · rw [if_neg hsocket] at hafter hnext
    exact course_of_still hframe hafter (Or.inl hnext)

theorem course_of_answering {accepted : Bool} {left : Bytes} {deadline : Nat}
    (hstage : visit.session.stage = .answering accepted left deadline) : Course visit := by
  have hframe := frame?_of_busy visit (by rw [hstage]; nofun)
  have hadvance : visit.before.advanceSession visit.session visit.heeds =
      visit.before.stepAnswering visit.session accepted left deadline := by
    simp only [Endpoint.advanceSession, hstage]
  have hafter := congrArg Prod.fst hadvance
  have hnext := congrArg Prod.snd hadvance
  obtain ⟨hsilent, hcases⟩ :=
    Endpoint.stepAnswering_cases visit.before visit.session accepted left deadline
  rw [← hafter] at hsilent
  rw [← hnext] at hcases
  rcases hcases with hquit | ⟨rest, hrest⟩ | ⟨haccepted, later, hlater⟩
  · have hquit : visit.next = visit.session.quit := hquit
    exact .waits hframe hsilent (by rw [hquit]; rfl) (by rw [hquit]; rfl) (by rw [hquit]; rfl)
      (by rw [hquit]; rfl) (Or.inr (Or.inl (by rw [hquit]; rfl)))
  · have hrest : visit.next = _ := hrest
    exact .waits hframe hsilent (by rw [hrest]) (by rw [hrest]) (by rw [hrest]) (by rw [hrest])
      (Or.inr (Or.inr (Or.inr
        ⟨accepted, left, deadline, hstage, Or.inl ⟨rest, by rw [hrest]⟩⟩)))
  · have hlater : visit.next = _ := hlater
    exact .waits hframe hsilent (by rw [hlater]; rfl) (by rw [hlater]; rfl) (by rw [hlater]; rfl)
      (by rw [hlater]; rfl) (Or.inr (Or.inr (Or.inr
        ⟨accepted, left, deadline, hstage, Or.inr ⟨haccepted, by rw [hlater]; rfl⟩⟩)))

theorem course (visit : Visit) : Course visit := by
  cases hstage : visit.session.stage with
  | reading => exact course_of_reading hstage
  | accepting node => exact course_of_accepting hstage
  | refusing => exact course_of_refusing hstage
  | answering accepted left deadline => exact course_of_answering hstage
  | _ =>
      have hadvance : visit.before.advanceSession visit.session visit.heeds =
          (visit.before, visit.session) := by
        simp only [Endpoint.advanceSession, hstage]
      exact course_of_still (frame?_of_busy visit (by rw [hstage]; nofun)) (congrArg Prod.fst hadvance)
        (Or.inl (congrArg Prod.snd hadvance))

/-- Until its session has a peer, a visit touches nothing but sockets. -/
theorem silent_of_unnamed (hpeer : visit.next.peer = none) :
    Endpoint.Silent visit.before visit.after := by
  rcases visit.course with ⟨_, hsilent⟩ | ⟨_, _, hafter, hnext⟩ | ⟨node, _, _, hsilent, _⟩ |
    ⟨node, _, _, _, hnext⟩ | ⟨frame, rest, deadline, _, _, _, hreceipt⟩
  · exact hsilent
  · rw [hnext] at hpeer
    have hnone : visit.session.peer = none := hpeer
    rw [hafter, Endpoint.onOversized, hnone]
    exact .refl visit.before
  · exact hsilent
  · rw [hnext] at hpeer
    cases hpeer
  · cases hreceipt with
    | refused _ hsilent _ => exact hsilent
    | request node _ _ hsilent _ => exact hsilent
    | response name _ _ _ hnext =>
        rw [hnext] at hpeer
        cases hpeer
    | active name _ hname _ hnext =>
        rw [hnext] at hpeer
        cases hname.symm.trans hpeer
    | unnamed _ _ hafter _ =>
        rw [hafter]
        exact .refl visit.before

/-- A session gets its peer only by making the connection active under that name. -/
theorem promotes_of_named (hbefore : visit.session.peer = none)
    (hpeer : visit.next.peer = some name) :
    Endpoint.Promotes visit.before visit.session.conn visit.after name := by
  rcases visit.course with ⟨_, _, _, _, hsame⟩ | ⟨_, _, _, hnext⟩ | ⟨node, _, _, _, hgives⟩ |
    ⟨node, _, _, hpromotes, hnext⟩ | ⟨frame, rest, deadline, _, _, _, hreceipt⟩
  · cases hbefore.symm.trans (hsame.symm.trans hpeer)
  · rw [hnext] at hpeer
    cases hbefore.symm.trans hpeer
  · cases hbefore.symm.trans (hgives.peer.symm.trans hpeer)
  · rw [hnext] at hpeer
    cases hpeer
    exact hpromotes
  · cases hreceipt with
    | refused _ _ hgives => cases hbefore.symm.trans (hgives.peer.symm.trans hpeer)
    | request node _ _ _ hnext =>
        rw [hnext] at hpeer
        cases hbefore.symm.trans hpeer
    | response other _ _ hpromotes hnext =>
        rw [hnext] at hpeer
        cases hpeer
        exact hpromotes
    | active other _ hname _ _ => cases hbefore.symm.trans hname
    | unnamed _ _ _ hnext =>
        rw [hnext] at hpeer
        cases hbefore.symm.trans hpeer

/-- What is read is what stood at the front of the buffer. -/
theorem read_append_buffer (visit : Visit) :
    visit.frame?.toList.flatMap Frame.encode ++ visit.next.buffer = visit.session.buffer := by
  rcases visit.course with ⟨hframe, _, _, hbuffer⟩ | ⟨hframe, _, _, hnext⟩ |
    ⟨node, hframe, _, _, hgives⟩ | ⟨node, hframe, _, _, hnext⟩ |
    ⟨frame, rest, deadline, hframe, _, hbuffer, hreceipt⟩
  · rw [hframe, hbuffer]
    rfl
  · rw [hframe, hnext]
    rfl
  · rw [hframe, hgives.buffer]
    rfl
  · rw [hframe, hnext]
    rfl
  · have hrest : visit.next.buffer = rest := by
      cases hreceipt with
      | refused _ _ hgives => exact hgives.buffer
      | request node _ _ _ hnext => rw [hnext]
      | response other _ _ _ hnext => rw [hnext]
      | active other _ _ _ hnext => rw [hnext]
      | unnamed _ _ _ hnext => rw [hnext]
    rw [hframe, hrest, hbuffer]
    simp

theorem next_conn (visit : Visit) : visit.next.conn = visit.session.conn := by
  rcases visit.course with ⟨_, _, hconn⟩ | ⟨_, _, _, hnext⟩ | ⟨node, _, _, _, hgives⟩ |
    ⟨node, _, _, _, hnext⟩ | ⟨frame, rest, deadline, _, _, _, hreceipt⟩
  · exact hconn
  · rw [hnext]
    rfl
  · exact hgives.conn
  · rw [hnext]
    rfl
  · cases hreceipt with
    | refused _ _ hgives => exact hgives.conn
    | request node _ _ _ hnext => rw [hnext]
    | response other _ _ _ hnext => rw [hnext]
    | active other _ _ _ hnext => rw [hnext]
    | unnamed _ _ _ hnext => rw [hnext]

theorem messages_of_silence (hframe : visit.frame? = none) : visit.messages = [] := by
  rw [messages, hframe]

theorem messages_of_unnamed (hpeer : visit.session.peer = none) : visit.messages = [] := by
  unfold messages
  split
  · rename_i hname
    cases hpeer.symm.trans hname
  · rfl

theorem messages_of_named (hframe : visit.frame? = some frame)
    (hpeer : visit.session.peer = some name) :
    visit.messages = if frame.isNet then [] else [Endpoint.incoming name frame] := by
  rw [messages, hframe, hpeer]

end Visit

/-! ## How a session stands -/

def Origin.phase : Origin → Handshake.Phase
  | .accepted _ => .awaitingRequest
  | .dialed _ => .awaitingResponse

/-- How far a session has come, by the frames that it has read. -/
inductive Stands (origin : Origin) (frames : List Frame) (session : Session) : Prop where
  | waiting (hstage : session.stage = .reading) (hphase : session.phase = origin.phase)
      (hpeer : session.peer = none) (hframes : frames = [])
  | deciding (node : Node) (hstage : session.stage = .accepting node)
      (hpeer : session.peer = none) (hframes : ∃ frame, frames = [frame])
  | refusing (hstage : session.stage = .refusing ∨
      ∃ left deadline, session.stage = .answering false left deadline)
      (hpeer : session.peer = none)
  | welcoming (left : Bytes) (deadline : Nat)
      (hstage : session.stage = .answering true left deadline) (hphase : session.phase = .active)
      (name : PeerName) (hpeer : session.peer = some name) (hframes : frames ≠ [])
  | active (hstage : session.stage = .reading) (hphase : session.phase = .active)
      (name : PeerName) (hpeer : session.peer = some name) (hframes : frames ≠ [])
  | ended (hstage : session.stage = .over)

namespace Stands

variable {origin : Origin} {frames : List Frame} {session : Session}

/-- What is known of a session, by its stage. -/
theorem known (hstands : Stands origin frames session) :
    match session.stage with
    | .reading => (session.phase = origin.phase ∧ session.peer = none ∧ frames = []) ∨
        (session.phase = .active ∧ (∃ name, session.peer = some name) ∧ frames ≠ [])
    | .accepting _ => session.peer = none ∧ ∃ frame, frames = [frame]
    | .refusing => session.peer = none
    | .answering accepted _ _ =>
        if accepted then
          session.phase = .active ∧ (∃ name, session.peer = some name) ∧ frames ≠ []
        else session.peer = none
    | .over => True := by
  cases hstands with
  | waiting hstage hphase hpeer hframes =>
      rw [hstage]
      exact Or.inl ⟨hphase, hpeer, hframes⟩
  | deciding node hstage hpeer hframes =>
      rw [hstage]
      exact ⟨hpeer, hframes⟩
  | refusing hstage hpeer =>
      rcases hstage with hstage | ⟨left, deadline, hstage⟩
      · rw [hstage]
        exact hpeer
      · rw [hstage]
        exact hpeer
  | welcoming left deadline hstage hphase name hpeer hframes =>
      rw [hstage]
      exact ⟨hphase, ⟨name, hpeer⟩, hframes⟩
  | active hstage hphase name hpeer hframes =>
      rw [hstage]
      exact Or.inr ⟨hphase, ⟨name, hpeer⟩, hframes⟩
  | ended hstage =>
      rw [hstage]
      exact trivial

/-- A session that reads waits for its first frame, or has a peer. -/
theorem of_reading (hstands : Stands origin frames session) (hreading : session.stage = .reading) :
    (session.phase = origin.phase ∧ session.peer = none ∧ frames = []) ∨
      (session.phase = .active ∧ (∃ name, session.peer = some name) ∧ frames ≠ []) := by
  have hknown := hstands.known
  rw [hreading] at hknown
  exact hknown

theorem of_accepting {node : Node} (hstands : Stands origin frames session)
    (haccepting : session.stage = .accepting node) :
    session.peer = none ∧ ∃ frame, frames = [frame] := by
  have hknown := hstands.known
  rw [haccepting] at hknown
  exact hknown

theorem of_answering {accepted : Bool} {left : Bytes} {deadline : Nat}
    (hstands : Stands origin frames session)
    (hanswering : session.stage = .answering accepted left deadline) :
    if accepted then session.phase = .active ∧ (∃ name, session.peer = some name) ∧ frames ≠ []
    else session.peer = none := by
  have hknown := hstands.known
  rw [hanswering] at hknown
  exact hknown

theorem of_refusing (hstands : Stands origin frames session)
    (hrefusing : session.stage = .refusing) : session.peer = none := by
  have hknown := hstands.known
  rw [hrefusing] at hknown
  exact hknown

theorem of_gives_up (before : Session) (hpeer : before.peer = none)
    (hgives : Endpoint.GivesUp before session) : Stands origin frames session := by
  rcases hgives.stage with hover | hrefusing
  · exact .ended hover
  · exact .refusing (Or.inl hrefusing) (hgives.peer.trans hpeer)

/-- Bytes that arrive, and the end of the stream, do not change how a session stands. -/
theorem of_same {other : Session} (hstands : Stands origin frames session)
    (hstage : other.stage = session.stage) (hphase : other.phase = session.phase)
    (hpeer : other.peer = session.peer) : Stands origin frames other := by
  cases hstands with
  | waiting hreading hfirst hnone hframes =>
      exact .waiting (hstage.trans hreading) (hphase.trans hfirst) (hpeer.trans hnone) hframes
  | deciding node haccepting hnone hframes =>
      exact .deciding node (hstage.trans haccepting) (hpeer.trans hnone) hframes
  | refusing hrefusing hnone => exact .refusing (by rwa [hstage]) (hpeer.trans hnone)
  | welcoming left deadline hanswering hactive name hname hframes =>
      exact .welcoming left deadline (hstage.trans hanswering) (hphase.trans hactive) name
        (hpeer.trans hname) hframes
  | active hreading hactive name hname hframes =>
      exact .active (hstage.trans hreading) (hphase.trans hactive) name (hpeer.trans hname) hframes
  | ended hover => exact .ended (hstage.trans hover)

end Stands

theorem Origin.phase_ne_active (origin : Origin) : origin.phase ≠ .active := by
  cases origin <;> nofun

namespace Visit

variable {visit : Visit} {origin : Origin} {frames : List Frame} {name : PeerName}

/-- A frame that comes once a session has a peer is one of an active connection. -/
theorem active_of_named {frame : Frame} {rest : Bytes} {deadline : Nat}
    (hstands : Stands origin frames visit.session) (hreading : visit.session.stage = .reading)
    (hpeer : visit.session.peer = some name)
    (hreceipt : Endpoint.Receipt visit.before
      { visit.session with buffer := rest, deadline := deadline } frame visit.after visit.next) :
    visit.after = visit.before.onActiveFrame name frame ∧
      visit.next = { visit.session with buffer := rest, deadline := deadline } := by
  have hphase : visit.session.phase = .active := by
    rcases hstands.of_reading hreading with ⟨_, hnone, _⟩ | ⟨hphase, _⟩
    · cases hnone.symm.trans hpeer
    · exact hphase
  cases hreceipt with
  | refused hunnamed _ _ => cases (hunnamed hphase).symm.trans hpeer
  | request node hother _ _ _ => cases hphase.symm.trans hother
  | response other hother _ _ _ => cases hphase.symm.trans hother
  | active other _ hname hafter hnext =>
      obtain rfl : other = name := Option.some.inj (hname.symm.trans hpeer)
      exact ⟨hafter, hnext⟩
  | unnamed _ hnone _ _ => cases hnone.symm.trans hpeer

/-- With a peer, a session hands over what it reads and makes no connection active. -/
theorem handsOver_of_named (hstands : Stands origin frames visit.session)
    (hpeer : visit.session.peer = some name) :
    visit.next.peer = some name ∧
      Endpoint.HandsOver visit.before visit.after visit.messages := by
  rcases visit.course with ⟨hframe, hsilent, _, _, hsame⟩ | ⟨hframe, _, hafter, hnext⟩ |
    ⟨node, _, hstage, _, _⟩ | ⟨node, _, hstage, _, _⟩ |
    ⟨frame, rest, deadline, hframe, hreading, _, hreceipt⟩
  · rw [messages_of_silence hframe]
    exact ⟨hsame.trans hpeer, hsilent.handsOver⟩
  · rw [messages_of_silence hframe, hafter, hnext, Endpoint.onOversized, hpeer]
    exact ⟨hpeer, Endpoint.violation_handsOver visit.before name.idHash⟩
  · cases (hstands.of_accepting hstage).1.symm.trans hpeer
  · cases (hstands.of_accepting hstage).1.symm.trans hpeer
  · obtain ⟨hafter, hnext⟩ := active_of_named hstands hreading hpeer hreceipt
    rw [messages_of_named hframe hpeer, hafter, hnext]
    exact ⟨hpeer, Endpoint.onActiveFrame_handsOver visit.before name frame⟩

theorem stands_next (hstands : Stands origin frames visit.session) :
    Stands origin (frames ++ visit.frame?.toList) visit.next := by
  rcases visit.course with ⟨hframe, _, _, _, hpeer, hphase, hstage⟩ | ⟨_, _, _, hnext⟩ |
    ⟨node, hframe, hstage, _, hgives⟩ | ⟨node, hframe, hstage, _, hnext⟩ |
    ⟨frame, rest, deadline, hframe, hreading, _, hreceipt⟩
  · rw [hframe, Option.toList_none, List.append_nil]
    rcases hstage with hsame | hover | ⟨hrefusing, left, deadline, hanswering⟩ |
      ⟨accepted, left, deadline, hanswering, ⟨rest, hrest⟩ | ⟨rfl, hreading⟩⟩
    · exact hstands.of_same hsame hphase hpeer
    · exact .ended hover
    · exact .refusing (Or.inr ⟨left, deadline, hanswering⟩)
        (hpeer.trans (hstands.of_refusing hrefusing))
    · have hanswers := hstands.of_answering hanswering
      cases accepted with
      | true =>
          obtain ⟨hactive, ⟨name, hname⟩, hframes⟩ := hanswers
          exact .welcoming rest deadline hrest (hphase.trans hactive) name (hpeer.trans hname)
            hframes
      | false => exact .refusing (Or.inr ⟨rest, deadline, hrest⟩) (hpeer.trans hanswers)
    · obtain ⟨hactive, ⟨name, hname⟩, hframes⟩ := hstands.of_answering hanswering
      exact .active hreading (hphase.trans hactive) name (hpeer.trans hname) hframes
  · exact .ended (by rw [hnext]; rfl)
  · exact .of_gives_up visit.session (hstands.of_accepting hstage).1 hgives
  · obtain ⟨_, first, hframes⟩ := hstands.of_accepting hstage
    rw [hframe, hnext]
    exact .welcoming _ _ rfl rfl ⟨node.idHash, node.display⟩ rfl (by simp [hframes])
  · rw [hframe, Option.toList_some]
    have hread : frames ++ [frame] ≠ [] := List.append_ne_nil_of_right_ne_nil _ (List.cons_ne_nil _ _)
    rcases hstands.of_reading hreading with ⟨hphase, hnone, hframes⟩ | ⟨hphase, ⟨name, hname⟩, _⟩
    · cases hreceipt with
      | refused _ _ hgives =>
          exact .of_gives_up { visit.session with buffer := rest, deadline := deadline } hnone hgives
      | request node _ _ _ hnext =>
          exact .deciding node (by rw [hnext]) (by rw [hnext]; exact hnone)
            ⟨frame, by rw [hframes]; rfl⟩
      | response other _ _ _ hnext =>
          exact .active (by rw [hnext]; exact hreading) (by rw [hnext]) other (by rw [hnext]) hread
      | active other hactive => exact absurd (hphase.symm.trans hactive) origin.phase_ne_active
      | unnamed hactive => exact absurd (hphase.symm.trans hactive) origin.phase_ne_active
    · cases hreceipt with
      | refused hunnamed _ _ => cases (hunnamed hphase).symm.trans hname
      | request node hother _ _ _ => cases hphase.symm.trans hother
      | response other hother _ _ _ => cases hphase.symm.trans hother
      | active other _ _ _ hnext =>
          exact .active (by rw [hnext]; exact hreading) (by rw [hnext]; exact hphase) name
            (by rw [hnext]; exact hname) hread
      | unnamed _ hnone _ _ => cases hnone.symm.trans hname

theorem reading_of_frame {frame : Frame} (hframe : visit.frame? = some frame) :
    visit.session.stage = .reading := by
  unfold frame? at hframe
  split at hframe
  · assumption
  · cases hframe

/-- What a session without a peer reads is its first frame. -/
theorem frames_of_unnamed {frame : Frame} (hstands : Stands origin frames visit.session)
    (hpeer : visit.session.peer = none) (hframe : visit.frame? = some frame) : frames = [] := by
  rcases hstands.of_reading (reading_of_frame hframe) with ⟨_, _, hframes⟩ | ⟨_, ⟨name, hname⟩, _⟩
  · exact hframes
  · cases hpeer.symm.trans hname

/-- A session gets its peer for its first frame. -/
theorem frames_of_promotion (hstands : Stands origin frames visit.session)
    (hbefore : visit.session.peer = none) (hpeer : visit.next.peer = some name) :
    ∃ frame, frames ++ visit.frame?.toList = [frame] := by
  rcases visit.course with ⟨_, _, _, _, hsame⟩ | ⟨_, _, _, hnext⟩ | ⟨node, _, _, _, hgives⟩ |
    ⟨node, hframe, hstage, _, _⟩ | ⟨frame, rest, deadline, hframe, hreading, _, _⟩
  · cases hbefore.symm.trans (hsame.symm.trans hpeer)
  · rw [hnext] at hpeer
    cases hbefore.symm.trans hpeer
  · cases hbefore.symm.trans (hgives.peer.symm.trans hpeer)
  · obtain ⟨_, first, hframes⟩ := hstands.of_accepting hstage
    exact ⟨first, by rw [hframe, hframes]; rfl⟩
  · rcases hstands.of_reading hreading with ⟨_, _, hframes⟩ | ⟨_, ⟨other, hother⟩, _⟩
    · exact ⟨frame, by rw [hframe, hframes]; rfl⟩
    · cases hbefore.symm.trans hother

/-- A session gets a peer, or comes to a decision, only for a frame that its handshake admits. -/
theorem admits_of_progress (hstands : Stands origin frames visit.session)
    (hbefore : visit.session.peer = none)
    (hundecided : ∀ node, visit.session.stage ≠ .accepting node)
    (hprogress : (∃ name, visit.next.peer = some name) ∨
      ∃ node, visit.next.stage = .accepting node) :
    ∃ frame, visit.frame? = some frame ∧ origin.Admits visit.before frame := by
  rcases visit.course with ⟨_, _, _, _, hpeer, _, hstage⟩ | ⟨_, _, _, hnext⟩ |
    ⟨node, _, hstage, _, _⟩ | ⟨node, _, hstage, _, _⟩ |
    ⟨frame, rest, deadline, hframe, hreading, _, hreceipt⟩
  · exfalso
    rcases hprogress with ⟨name, hname⟩ | ⟨node, hnode⟩
    · cases hbefore.symm.trans (hpeer.symm.trans hname)
    · rcases hstage with hsame | hover | ⟨_, left, deadline, hlater⟩ |
        ⟨accepted, left, deadline, _, ⟨rest, hlater⟩ | ⟨_, hlater⟩⟩
      · exact hundecided node (hsame.symm.trans hnode)
      · cases hover.symm.trans hnode
      · cases hlater.symm.trans hnode
      · cases hlater.symm.trans hnode
      · cases hlater.symm.trans hnode
  · exfalso
    rw [hnext] at hprogress
    rcases hprogress with ⟨name, hname⟩ | ⟨node, hnode⟩
    · cases hbefore.symm.trans hname
    · cases hnode
  · exact absurd hstage (hundecided node)
  · exact absurd hstage (hundecided node)
  · refine ⟨frame, hframe, ?_⟩
    rcases hstands.of_reading hreading with ⟨hphase, _, _⟩ | ⟨_, ⟨other, hother⟩, _⟩
    · cases hreceipt with
      | refused _ _ hgives =>
          exfalso
          rcases hprogress with ⟨name, hname⟩ | ⟨node, hnode⟩
          · cases hbefore.symm.trans (hgives.peer.symm.trans hname)
          · rcases hgives.stage with hover | hrefusing
            · cases hover.symm.trans hnode
            · cases hrefusing.symm.trans hnode
      | request node hawaiting hadmits _ _ =>
          cases origin with
          | accepted ip => exact hadmits
          | dialed node => cases hphase.symm.trans hawaiting
      | response name hawaiting hadmits _ _ =>
          cases origin with
          | accepted ip => cases hphase.symm.trans hawaiting
          | dialed node => exact hadmits
      | active name _ hname _ _ => cases hbefore.symm.trans hname
      | unnamed hactive => exact absurd (hphase.symm.trans hactive) origin.phase_ne_active
    · cases hbefore.symm.trans hother

end Visit

/-! ## Every run -/

namespace Diary

variable {diary : Diary} {origin : Origin} {conn : ConnId} {name : PeerName}

/-- The first frame was one that the handshake admits, on the endpoint as it was then. -/
def HasAdmitted (origin : Origin) (diary : Diary) : Prop :=
  ∃ frame, diary.frames.head? = some frame ∧
    ∃ visit ∈ diary.visits, visit.frame? = some frame ∧ origin.Admits visit.before frame

/-- What holds of a session, whatever has arrived. -/
structure Gate (origin : Origin) (conn : ConnId) (diary : Diary) : Prop where
  conn_eq : diary.session.conn = conn
  stands : Stands origin diary.frames diary.session
  visits : ∀ visit ∈ diary.visits, visit.session.conn = conn ∧
    ∀ name, visit.session.peer = some name →
      visit.next.peer = some name ∧ Endpoint.HandsOver visit.before visit.after visit.messages
  admitted : (∃ name, diary.session.peer = some name) ∨
    (∃ node, diary.session.stage = .accepting node) → diary.HasAdmitted origin
  repeated : 2 ≤ diary.frames.length → ∃ name, diary.session.peer = some name
  promotions : diary.visits.countP Visit.isPromotion = diary.session.peer.toList.length
  /-- A peer stays the peer. -/
  kept : ∀ visit ∈ diary.visits, ∀ name, visit.next.peer = some name →
    diary.session.peer = some name
  unnamed : diary.session.peer = none → diary.messages = []
  named : ∀ name, diary.session.peer = some name →
    diary.messages = (diary.frames.tail.filter (!·.isNet)).map (Endpoint.incoming name)

theorem frames_step (diary : Diary) (endpoint : Endpoint) (heeds : Bool) :
    (diary.act (.step endpoint heeds)).frames =
      diary.frames ++ (Visit.mk endpoint diary.session heeds).frame?.toList := by
  simp only [frames, act, List.filterMap_append]
  cases hframe : (Visit.mk endpoint diary.session heeds).frame? <;> simp [hframe]

theorem messages_step (diary : Diary) (endpoint : Endpoint) (heeds : Bool) :
    (diary.act (.step endpoint heeds)).messages =
      diary.messages ++ (Visit.mk endpoint diary.session heeds).messages := by
  simp [messages, act]

theorem HasAdmitted.step (hadmitted : diary.HasAdmitted origin) (endpoint : Endpoint)
    (heeds : Bool) : (diary.act (.step endpoint heeds)).HasAdmitted origin := by
  obtain ⟨frame, hfirst, visit, hmem, hframe, hadmits⟩ := hadmitted
  refine ⟨frame, ?_, visit, List.mem_append_left _ hmem, hframe, hadmits⟩
  rw [frames_step, List.head?_append, hfirst]
  rfl

namespace Gate

/-- Bytes that arrive, and the end of the stream, change nothing that the gate is about. -/
theorem of_same {session : Session} (hgate : Gate origin conn diary)
    (hconn : session.conn = diary.session.conn) (hstage : session.stage = diary.session.stage)
    (hphase : session.phase = diary.session.phase) (hpeer : session.peer = diary.session.peer) :
    Gate origin conn { diary with session := session } where
  conn_eq := hconn.trans hgate.conn_eq
  stands := hgate.stands.of_same hstage hphase hpeer
  visits := hgate.visits
  admitted := fun hprogress => hgate.admitted (by rwa [hpeer, hstage] at hprogress)
  repeated := fun hframes => by
    obtain ⟨name, hname⟩ := hgate.repeated hframes
    exact ⟨name, hpeer.trans hname⟩
  promotions := by
    rw [hpeer]
    exact hgate.promotions
  kept := fun visit hmem name hname => hpeer.trans (hgate.kept visit hmem name hname)
  unnamed := fun hnone => hgate.unnamed (hpeer.symm.trans hnone)
  named := fun name hname => hgate.named name (hpeer.symm.trans hname)

variable {endpoint : Endpoint}

/-- A visit of a session that has its peer. -/
theorem step_named (hgate : Gate origin conn diary) (hname : diary.session.peer = some name)
    (endpoint : Endpoint) (heeds : Bool) :
    Gate origin conn (diary.act (.step endpoint heeds)) := by
  let visit : Visit := ⟨endpoint, diary.session, heeds⟩
  have hstands : Stands origin diary.frames visit.session := hgate.stands
  have hnow : visit.session.peer = some name := hname
  obtain ⟨hnext, hhands⟩ := Visit.handsOver_of_named hstands hnow
  have hadmitted := (hgate.admitted (Or.inl ⟨name, hname⟩)).step endpoint heeds
  refine ⟨visit.next_conn.trans hgate.conn_eq, ?_, ?_, fun _ => hadmitted,
    fun _ => ⟨name, hnext⟩, ?_, ?_, fun hnone => ?_, fun other hother => ?_⟩
  · rw [frames_step]
    exact Visit.stands_next hstands
  · intro other hmem
    rcases List.mem_append.mp hmem with hold | hnew
    · exact hgate.visits other hold
    · obtain rfl := List.mem_singleton.mp hnew
      refine ⟨hgate.conn_eq, fun found hfound => ?_⟩
      obtain rfl : name = found := Option.some.inj (hnow.symm.trans hfound)
      exact ⟨hnext, hhands⟩
  · have hquiet : visit.isPromotion = false := by
      rw [Visit.isPromotion, hnow]
      rfl
    have hsame : (diary.act (.step endpoint heeds)).session.peer = diary.session.peer :=
      hnext.trans hname.symm
    show (diary.visits ++ [visit]).countP Visit.isPromotion = _
    rw [List.countP_append, List.countP_singleton, hquiet, hgate.promotions, hsame]
    rfl
  · intro other hmem found hfound
    rcases List.mem_append.mp hmem with hold | hnew
    · exact hnext.trans (hname.symm.trans (hgate.kept other hold found hfound))
    · obtain rfl := List.mem_singleton.mp hnew
      exact hfound
  · cases hnext.symm.trans hnone
  · obtain rfl : name = other := Option.some.inj (hnext.symm.trans hother)
    rw [messages_step, frames_step, hgate.named name hname]
    show _ ++ visit.messages = ((diary.frames ++ visit.frame?.toList).tail.filter _).map _
    cases hframe : visit.frame? with
    | none => simp [Visit.messages_of_silence hframe]
    | some frame =>
        have hsome : diary.frames ≠ [] := by
          rcases hstands.of_reading (Visit.reading_of_frame hframe) with ⟨_, hnone, _⟩ |
            ⟨_, _, hframes⟩
          · cases hnone.symm.trans hnow
          · exact hframes
        rw [Visit.messages_of_named hframe hnow, Option.toList_some,
          List.tail_append_of_ne_nil hsome, List.filter_append, List.map_append]
        cases hnet : frame.isNet <;> simp [hnet]

/-- A visit of a session that has no peer yet. -/
theorem step_unnamed (hgate : Gate origin conn diary) (hnone : diary.session.peer = none)
    (endpoint : Endpoint) (heeds : Bool) :
    Gate origin conn (diary.act (.step endpoint heeds)) := by
  let visit : Visit := ⟨endpoint, diary.session, heeds⟩
  have hstands : Stands origin diary.frames visit.session := hgate.stands
  have hnow : visit.session.peer = none := hnone
  have hquiet : (diary.act (.step endpoint heeds)).messages = [] := by
    rw [messages_step, hgate.unnamed hnone, Visit.messages_of_unnamed hnow]
    rfl
  have hstands_next : Stands origin (diary.act (.step endpoint heeds)).frames visit.next := by
    rw [frames_step]
    exact Visit.stands_next hstands
  refine ⟨visit.next_conn.trans hgate.conn_eq, hstands_next, ?_, fun hprogress => ?_,
    fun hframes => ?_, ?_, ?_, fun _ => hquiet, fun name hname => ?_⟩
  · intro other hmem
    rcases List.mem_append.mp hmem with hold | hnew
    · exact hgate.visits other hold
    · obtain rfl := List.mem_singleton.mp hnew
      exact ⟨hgate.conn_eq, fun found hfound => nomatch hnow.symm.trans hfound⟩
  · by_cases hdecided : ∃ node, diary.session.stage = .accepting node
    · exact (hgate.admitted (Or.inr hdecided)).step endpoint heeds
    · have hundecided : ∀ node, visit.session.stage ≠ .accepting node :=
        fun node hstage => hdecided ⟨node, hstage⟩
      obtain ⟨frame, hframe, hadmits⟩ := Visit.admits_of_progress hstands hnow hundecided hprogress
      refine ⟨frame, ?_, visit, List.mem_append_right _ (List.mem_singleton_self visit), hframe,
        hadmits⟩
      rw [frames_step, Visit.frames_of_unnamed hstands hnow hframe]
      show ([] ++ visit.frame?.toList).head? = some frame
      rw [hframe]
      rfl
  · exfalso
    rw [frames_step] at hframes
    cases hframe : (Visit.mk endpoint diary.session heeds).frame? with
    | none =>
        rw [hframe, Option.toList_none, List.append_nil] at hframes
        obtain ⟨name, hname⟩ := hgate.repeated hframes
        cases hnone.symm.trans hname
    | some frame =>
        rw [hframe, Visit.frames_of_unnamed hstands hnow hframe] at hframes
        exact absurd (show 2 ≤ 1 from hframes) (by decide)
  · show (diary.visits ++ [visit]).countP Visit.isPromotion = visit.next.peer.toList.length
    rw [List.countP_append, List.countP_singleton, hgate.promotions, hnone, Visit.isPromotion, hnow]
    cases visit.next.peer <;> rfl
  · intro other hmem found hfound
    rcases List.mem_append.mp hmem with hold | hnew
    · cases hnone.symm.trans (hgate.kept other hold found hfound)
    · obtain rfl := List.mem_singleton.mp hnew
      exact hfound
  · obtain ⟨frame, hframes⟩ := Visit.frames_of_promotion hstands hnow hname
    rw [hquiet, frames_step]
    show [] = ((diary.frames ++ visit.frame?.toList).tail.filter _).map _
    rw [hframes]
    rfl

theorem act (hgate : Gate origin conn diary) (turn : Turn) : Gate origin conn (diary.act turn) := by
  cases turn with
  | receive bytes => exact hgate.of_same rfl rfl rfl rfl
  | endStream => exact hgate.of_same rfl rfl rfl rfl
  | step endpoint heeds =>
      cases hpeer : diary.session.peer with
      | none => exact hgate.step_unnamed hpeer endpoint heeds
      | some name => exact hgate.step_named hpeer endpoint heeds

end Gate

theorem gate_opening (origin : Origin) (conn : ConnId) (openedAt deadline : Nat) :
    Gate origin conn (opening (origin.session conn openedAt deadline)) := by
  have hfresh : (origin.session conn openedAt deadline).conn = conn ∧
      (origin.session conn openedAt deadline).stage = .reading ∧
      (origin.session conn openedAt deadline).phase = origin.phase ∧
      (origin.session conn openedAt deadline).peer = none := by
    cases origin <;> exact ⟨rfl, rfl, rfl, rfl⟩
  obtain ⟨hconn, hstage, hphase, hpeer⟩ := hfresh
  refine ⟨hconn, .waiting hstage hphase hpeer rfl, fun _ hmem => absurd hmem List.not_mem_nil, ?_,
    fun hframes => absurd (show 2 ≤ 0 from hframes) (by decide), ?_,
    fun _ hmem => absurd hmem List.not_mem_nil, fun _ => rfl, ?_⟩
  · rintro (⟨name, hname⟩ | ⟨node, hnode⟩)
    · cases hpeer.symm.trans hname
    · cases hstage.symm.trans hnode
  · show 0 = (origin.session conn openedAt deadline).peer.toList.length
    rw [hpeer]
    rfl
  · intro name hname
    cases hpeer.symm.trans hname

theorem gate_run (origin : Origin) (conn : ConnId) (openedAt deadline : Nat) (turns : List Turn) :
    Gate origin conn ((opening (origin.session conn openedAt deadline)).run turns) := by
  suffices h : ∀ diary, Gate origin conn diary → Gate origin conn (diary.run turns) from
    h _ (gate_opening origin conn openedAt deadline)
  induction turns with
  | nil => exact fun _ hgate => hgate
  | cons turn rest ih => exact fun diary hgate => ih (diary.act turn) (hgate.act turn)

/-- The frames that were read, and what is left in the buffer, are the bytes that have arrived. -/
theorem run_bytes (diary : Diary) (turns : List Turn) :
    (diary.run turns).frames.flatMap Frame.encode ++ (diary.run turns).session.buffer =
      diary.frames.flatMap Frame.encode ++ diary.session.buffer ++ turns.flatMap Turn.bytes := by
  induction turns generalizing diary with
  | nil => exact (List.append_nil _).symm
  | cons turn rest ih =>
      rw [List.flatMap_cons, ← List.append_assoc]
      refine (ih (diary.act turn)).trans (congrArg (· ++ rest.flatMap Turn.bytes) ?_)
      cases turn with
      | receive bytes => exact (List.append_assoc _ _ _).symm
      | endStream => exact (List.append_nil _).symm
      | step endpoint heeds =>
          have hread := (Visit.mk endpoint diary.session heeds).read_append_buffer
          rw [frames_step, List.flatMap_append, List.append_assoc]
          exact (congrArg (diary.frames.flatMap Frame.encode ++ ·) hread).trans
            (List.append_nil _).symm

/-- A session that has a peer has made its connection active under that name. -/
theorem Gate.promoted (hgate : Gate origin conn diary) (hname : diary.session.peer = some name) :
    ∃ visit ∈ diary.visits, visit.isPromotion = true ∧
      Endpoint.Promotes visit.before conn visit.after name := by
  have hcount := hgate.promotions
  rw [hname] at hcount
  obtain ⟨visit, hmem, hpromotion⟩ :=
    List.countP_pos_iff.mp (Nat.lt_of_lt_of_eq Nat.zero_lt_one hcount.symm)
  obtain ⟨hbefore, hnext⟩ := Bool.and_eq_true_iff.mp hpromotion
  obtain ⟨other, hother⟩ := Option.isSome_iff_exists.mp hnext
  obtain rfl : other = name :=
    Option.some.inj ((hgate.kept visit hmem other hother).symm.trans hname)
  refine ⟨visit, hmem, hpromotion, ?_⟩
  rw [← (hgate.visits visit hmem).1]
  exact Visit.promotes_of_named (Option.isNone_iff_eq_none.mp hbefore) hother

/--
Whatever bytes arrive at the session of a connection, and whatever has become of the
endpoint at each of its visits: a visit that leaves the session without a peer
changes nothing but sockets; the visit in which the session gets its peer makes the
connection active and does nothing else; with a peer, the session hands over what
it reads and makes nothing active. There is one such promotion at most. The session
reads a second frame, or comes back to reading, only if the first one was admitted
by the handshake and the connection was promoted. What has been handed over are the
frames of applications after the first frame, in order, each with the id hash and
the display id of the promoted node and with its own version, route and payload; the
frames are those of the bytes that have arrived.
-/
theorem run_gate (origin : Origin) (conn : ConnId) (openedAt deadline : Nat)
    (turns : List Turn) :
    let diary := (opening (origin.session conn openedAt deadline)).run turns
    (∀ visit ∈ diary.visits, visit.next.peer = none →
      Endpoint.Silent visit.before visit.after) ∧
    (∀ visit ∈ diary.visits, ∀ name, visit.session.peer = none → visit.next.peer = some name →
      Endpoint.Promotes visit.before conn visit.after name) ∧
    (∀ visit ∈ diary.visits, ∀ name, visit.session.peer = some name →
      visit.next.peer = some name ∧
        Endpoint.HandsOver visit.before visit.after visit.messages) ∧
    diary.visits.countP Visit.isPromotion ≤ 1 ∧
    (∀ frame later, diary.frames = frame :: later →
      later ≠ [] ∨ diary.session.stage = .reading →
      (∃ visit ∈ diary.visits, visit.frame? = some frame ∧ origin.Admits visit.before frame) ∧
        ∃ name, diary.session.peer = some name) ∧
    (diary.session.peer = none → diary.messages = []) ∧
    (∀ name, diary.session.peer = some name →
      (∃ visit ∈ diary.visits, visit.isPromotion = true ∧
        Endpoint.Promotes visit.before conn visit.after name) ∧
      diary.messages = (diary.frames.tail.filter (!·.isNet)).map fun frame =>
        { peer := name.idHash
          display := name.display
          version := frame.version
          route := ⟨frame.ctrl, frame.action⟩
          payload := frame.payload }) ∧
    diary.frames.flatMap Frame.encode ++ diary.session.buffer = turns.flatMap Turn.bytes := by
  intro diary
  have hgate : Gate origin conn diary := gate_run origin conn openedAt deadline turns
  refine ⟨fun visit _ hpeer => visit.silent_of_unnamed hpeer, fun visit hmem name hbefore hname => ?_,
    fun visit hmem => (hgate.visits visit hmem).2, ?_, fun frame later hframes hsurvives => ?_,
    hgate.unnamed, fun name hname => ⟨hgate.promoted hname, hgate.named name hname⟩, ?_⟩
  · rw [← (hgate.visits visit hmem).1]
    exact Visit.promotes_of_named hbefore hname
  · rw [hgate.promotions]
    cases diary.session.peer with
    | none => exact Nat.zero_le 1
    | some name => exact Nat.le_refl 1
  · have hnamed : ∃ name, diary.session.peer = some name := by
      rcases hsurvives with hlater | hreading
      · refine hgate.repeated ?_
        rw [hframes, List.length_cons]
        exact Nat.succ_le_succ (List.length_pos_iff.mpr hlater)
      · rcases hgate.stands.of_reading hreading with ⟨_, _, hnone⟩ | ⟨_, hname, _⟩
        · cases hframes.symm.trans hnone
        · exact hname
    obtain ⟨first, hfirst, visit, hmem, hframe, hadmits⟩ := hgate.admitted (Or.inl hnamed)
    rw [hframes] at hfirst
    obtain rfl : frame = first := Option.some.inj hfirst
    exact ⟨⟨visit, hmem, hframe, hadmits⟩, hnamed⟩
  · refine (run_bytes _ turns).trans ?_
    cases origin <;> rfl

/-- A node that has dialed another one. -/
def calling : Endpoint :=
  ((Endpoint.create { Settings.default with writerLanes := 1 } (Registry.repeatedId 0x61)
    HandlerTable.empty).dialedSocket (Registry.repeatedNode 0x62) (Socket.create 512)).1

/-- The response, a ping and a frame of an application arrive in two pieces. -/
def answered : List Turn :=
  let bytes := (Handshake.Response.toFrame ⟨true, []⟩).encode ++
    (Frame.net NetAction.ping []).encode ++ (Frame.mk 1 2 0 [7]).encode
  [.receive (bytes.take 20), .step calling false, .step calling true, .receive (bytes.drop 20),
    .step calling true, .step calling false, .endStream, .step calling true]

/-- Of the frames that arrive, one is for the handshake, one is answered and one is handed over. -/
theorem run_gate_of_answered :
    let diary := (opening ((Origin.dialed (Registry.repeatedNode 0x62)).session 1 0 100)).run answered
    let node := Registry.repeatedNode 0x62
    diary.session.peer = some ⟨node.idHash, node.display⟩ ∧ diary.frames.length = 3 ∧
      diary.visits.countP Visit.isPromotion ≤ 1 ∧
      diary.messages = [⟨node.idHash, node.display, 1, ⟨2, 0⟩, [7]⟩] := by
  intro diary node
  have hpeer : diary.session.peer = some ⟨node.idHash, node.display⟩ := by decide +kernel
  obtain ⟨_, _, _, honce, _, _, hnamed, _⟩ := run_gate (.dialed node) 1 0 100 answered
  have hframes : diary.frames.tail.filter (!·.isNet) = [⟨1, 2, 0, [7]⟩] := by decide +kernel
  refine ⟨hpeer, by decide +kernel, honce, ?_⟩
  rw [(hnamed _ hpeer).2, hframes]
  rfl

end Diary

end Peering
