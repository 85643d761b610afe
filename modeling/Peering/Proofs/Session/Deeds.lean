import Peering.Proofs.Delivery.Sockets
import Peering.Proofs.Session.Reception

/-!
# What a step of a session does

All that a step of a session can do to its answer, to the transport and to its
socket, said once; and that this is of no concern to the sockets of other
connections, nor to the queues of messages.
-/

namespace Peering

namespace Reception

open Transport Registry

variable {reception : Reception} {conn : ConnId} {before answer : Answer}
  {transport : Transport} {bytes : Bytes}

/--
All that a step of a session can do: from one answer to the next, with the transport
after it and the bytes that it puts on its socket.
-/
inductive Deed (reception : Reception) (conn : ConnId) :
    Answer → Answer → Transport → Bytes → Prop where
  | rests (answer : Answer) : Deed reception conn answer answer reception.transport []
  | hears (verdict : Verdict) :
      Deed reception conn .awaited (.due verdict) reception.transport []
  /-- No request comes that can be read. -/
  | ends : Deed reception conn .awaited .closed reception.transport []
  /-- The connection is gone. -/
  | misses (verdict : Verdict) : Deed reception conn (.due verdict) .closed reception.transport []
  | locates (verdict : Verdict) (found : ConnId)
      (hfound : reception.transport.registry.writerFor (.inbound conn) = some found) :
      Deed reception conn (.due verdict) (.located verdict found) reception.transport []
  | asks (verdict : Verdict) (found : ConnId) :
      Deed reception conn (.located verdict found) (.queued verdict)
        (reception.transport.onSocket found (·.ask .session)) []
  | declines (node : Node) (hlock : reception.hasLock conn = true) :
      Deed reception conn (.queued (.welcome node)) .declined reception.transport []
  | refuses (hlock : reception.hasLock conn = true) :
      Deed reception conn (.queued .refuse) (.granted false) reception.transport []
  | accepts (now : Nat) (node : Node) (registry : Registry) (hlock : reception.hasLock conn = true)
      (hpromote : reception.transport.registry.promoteToActive now conn .inbound node =
        .ok registry) :
      Deed reception conn (.queued (.welcome node)) (.granted true)
        { reception.transport with registry := registry } []
  | stepsBack : Deed reception conn .declined (.due .refuse)
      (reception.transport.onSocket conn (·.release .session)) []
  | fetches (accepted : Bool) (frame : Frame)
      (hframe : accepted = true → frame = reception.templates.accept) :
      Deed reception conn (.granted accepted) (.writing accepted frame frame.encode)
        reception.transport []
  | puts (accepted : Bool) (frame : Frame) (bytes rest : Bytes) (socket : Socket)
      (hsocket : reception.transport.socket? conn = some socket) :
      Deed reception conn (.writing accepted frame (bytes ++ rest)) (.writing accepted frame rest)
        (reception.transport.onSocket conn fun _ =>
          { socket with unread := socket.unread ++ bytes }) bytes
  | finishes (frame : Frame) : Deed reception conn (.writing true frame []) (.given frame)
      (reception.transport.onSocket conn (·.release .session)) []
  | fails (frame : Frame) (left : Bytes) :
      Deed reception conn (.writing true frame left) (.cut frame)
        (reception.transport.onSocket conn (·.release .session)) []
  /-- A refusal is written, or its write fails. -/
  | parts (frame : Frame) (left : Bytes) :
      Deed reception conn (.writing false frame left) .closed
        (reception.transport.onSocket conn (·.release .session)) []

/-- A step of a session, as what it does. -/
def Does (reception : Reception) (conn : ConnId) (result : Reception × Bytes) : Prop :=
  ∃ answer transport, result.1 = (reception.withTransport transport).turnTo conn answer ∧
    Deed reception conn (reception.answers conn) answer transport result.2

theorem does_nothing (reception : Reception) (conn : ConnId) :
    Does reception conn (reception, []) :=
  ⟨_, _, (turnTo_same rfl).symm, .rests _⟩

/-- Whatever the answer is from which a deed starts. -/
theorem does_of_deed (hanswer : reception.answers conn = before)
    (hdeed : Deed reception conn before answer transport bytes) :
    Does reception conn ((reception.withTransport transport).turnTo conn answer, bytes) :=
  ⟨answer, transport, rfl, hanswer ▸ hdeed⟩

theorem serve_does (reception : Reception) (conn : ConnId) (service : Service) :
    Does reception conn (reception.serve conn service) := by
  cases service with
  | hear verdict =>
      simp only [serve, hear]
      split
      · rename_i hanswer
        exact does_of_deed hanswer .ends
      · rename_i verdict hanswer
        exact does_of_deed hanswer (.hears verdict)
      · exact does_nothing reception conn
  | locate =>
      simp only [serve, locate]
      split
      · rename_i verdict hanswer
        split
        · exact does_of_deed hanswer (.misses verdict)
        · rename_i found hfound
          exact does_of_deed hanswer (.locates verdict found hfound)
      · exact does_nothing reception conn
  | ask =>
      simp only [serve, ask]
      split
      · rename_i verdict found hanswer
        exact does_of_deed hanswer (.asks verdict found)
      · exact does_nothing reception conn
  | decide now =>
      simp only [serve, decide]
      split
      · rename_i verdict hanswer
        split
        · exact does_nothing reception conn
        rename_i hlock
        have hlock : reception.hasLock conn = true := by simpa using hlock
        split
        · exact does_of_deed hanswer (.refuses hlock)
        · rename_i node
          split
          · exact does_of_deed hanswer (.declines node hlock)
          · rename_i registry hpromote
            exact does_of_deed hanswer (.accepts now node registry hlock hpromote)
      · exact does_nothing reception conn
  | stepBack =>
      simp only [serve, stepBack]
      split
      · rename_i hanswer
        exact does_of_deed hanswer .stepsBack
      · exact does_nothing reception conn
  | fetch =>
      simp only [serve, fetch]
      split
      · rename_i accepted hanswer
        exact does_of_deed hanswer (.fetches accepted _ fun haccepted => if_pos haccepted)
      · exact does_nothing reception conn
  | put most =>
      simp only [serve, put]
      split
      · rename_i accepted frame left socket hanswer hsocket
        split
        · exact does_nothing reception conn
        · rw [Pipeline.put_take]
          have hleft := congrArg (Answer.writing accepted frame)
            (List.take_append_drop (min most (socket.capacity - socket.unread.length)) left)
          exact does_of_deed (hanswer.trans hleft.symm) (.puts accepted frame _ _ socket hsocket)
      · exact does_nothing reception conn
  | finish =>
      simp only [serve, finish]
      split
      · rename_i frame hanswer
        exact does_of_deed hanswer (.finishes frame)
      · rename_i frame hanswer
        exact does_of_deed hanswer (.parts frame [])
      · exact does_nothing reception conn
  | giveUp =>
      simp only [serve, giveUp]
      split
      · rename_i frame left hanswer
        exact does_of_deed hanswer (.fails frame left)
      · rename_i frame left hanswer
        exact does_of_deed hanswer (.parts frame left)
      · exact does_nothing reception conn
  | leave =>
      simp only [serve, leave]
      split
      · rename_i hanswer
        exact does_of_deed hanswer .ends
      · exact does_nothing reception conn

/-- A step of a session is of no concern to other sockets, and to no queue. -/
structure Discreet (conn : ConnId) (before after : Transport) : Prop where
  outbox : after.outbox = before.outbox
  keyed : before.registry.Keyed → after.registry.Keyed
  reroutes : before.registry.Keyed → before.registry.Reroutes (some conn) after.registry
  elsewhere : ∀ other, other ≠ conn → after.socket? other = before.socket? other
  isSome : ∀ other, (after.socket? other).isSome = (before.socket? other).isSome

theorem Discreet.refl (conn : ConnId) (transport : Transport) : Discreet conn transport transport :=
  ⟨rfl, id, fun _ => (Shrinks.refl _).leads.reroutes, fun _ _ => rfl, fun _ => rfl⟩

theorem discreet_onSocket (conn : ConnId) (transport : Transport) (change : Socket → Socket) :
    Discreet conn transport (transport.onSocket conn change) where
  outbox := rfl
  keyed := id
  reroutes := fun _ => (Shrinks.refl _).leads.reroutes
  elsewhere := fun other hother => (socket?_onSocket _ _ _ _).trans (if_neg hother)
  isSome := fun other => by
    rw [socket?_onSocket]
    split
    · exact Option.isSome_map
    · rfl

theorem discreet_promote {now : Nat} {node : Node} {registry : Registry}
    (hpromote : transport.registry.promoteToActive now conn .inbound node = .ok registry) :
    Discreet conn transport { transport with registry := registry } where
  outbox := rfl
  keyed := fun hkeyed => (hkeyed.promoteToActive_settles hpromote).choose_spec.keyed
  reroutes := fun hkeyed => hkeyed.promoteToActive_reroutes (fun _ => rfl) hpromote
  elsewhere := fun _ _ => rfl
  isSome := fun _ => rfl

/-- Every session that has found a socket has found its own. -/
def Finds (reception : Reception) : Prop :=
  ∀ conn verdict found, reception.answers conn = .located verdict found → found = conn

theorem Deed.discreet (hdeed : Deed reception conn before answer transport bytes)
    (hanswer : reception.answers conn = before) (hfinds : reception.Finds) :
    Discreet conn reception.transport transport := by
  cases hdeed with
  | asks verdict found =>
      rw [hfinds conn verdict found hanswer]
      exact discreet_onSocket conn _ _
  | accepts now node registry _ hpromote => exact discreet_promote hpromote
  | stepsBack => exact discreet_onSocket conn _ _
  | puts accepted frame bytes rest socket _ => exact discreet_onSocket conn _ _
  | finishes frame => exact discreet_onSocket conn _ _
  | fails frame left => exact discreet_onSocket conn _ _
  | parts frame left => exact discreet_onSocket conn _ _
  | _ => exact .refl conn _

theorem Discreet.housed {before after : Transport} (hdiscreet : Discreet conn before after)
    (h : Housed before) : Housed after := by
  refine ⟨hdiscreet.keyed h.keyed, fun dest found hleads => ?_⟩
  rw [hdiscreet.isSome]
  rcases hdiscreet.reroutes h.keyed dest found hleads with hold | ⟨_, hold | ⟨_, hold⟩⟩
  · exact h.socket dest found hold
  · exact h.socket _ found hold
  · exact h.socket _ found hold

/-- The socket that a session finds is its own. -/
theorem Deed.finds (hdeed : Deed reception conn before answer transport bytes)
    (hanswer : reception.answers conn = before) (hfinds : reception.Finds)
    (hkeyed : reception.transport.registry.Keyed) (verdict : Verdict) (found : ConnId)
    (hlocated : answer = .located verdict found) : found = conn := by
  cases hdeed with
  | rests => exact hfinds conn verdict found (hanswer.trans hlocated)
  | locates _ _ hfound =>
      cases hlocated
      exact (hkeyed.eq_of_leads_inbound (leads_of_writerFor hfound)).symm
  | _ => cases hlocated

end Reception

end Peering
