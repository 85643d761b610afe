import Peering.Handshake
import Peering.Node

/-!
# Sessions

A session reads one socket: it cuts frames out of the bytes, drives the
handshake of its connection and, once the peer is active, answers what the peer
asks. Answers to a handshake are written on the socket itself, which has to be
locked for it; while a session waits for that, it reads nothing.
-/

namespace Peering

/-- What a session is doing. -/
inductive Stage where
  /-- It waits for the next frame. -/
  | reading
  /-- It waits for the socket to activate this peer and accept its request. -/
  | accepting (peer : Node)
  /-- It waits for the socket to reject the request. -/
  | refusing
  /-- It has locked the socket and has these bytes of its answer left to write. -/
  | answering (accepted : Bool) (left : Bytes) (deadline : Nat)
  /-- It reads no more. -/
  | over

/-- The active peer of a session. -/
structure PeerName where
  idHash : IdHash
  display : String
deriving DecidableEq, Repr

structure Session where
  conn : ConnId
  /-- The address at the other end of the socket. -/
  ip : IpAddress
  phase : Handshake.Phase
  stage : Stage
  /-- The node that was dialed, until its handshake completes. -/
  dialed : Option Node
  openedAt : Nat
  /-- Set once the peer is active. -/
  peer : Option PeerName
  /-- Bytes that have arrived and are not cut into frames. -/
  buffer : Bytes
  /-- The peer has ended its stream. -/
  ended : Bool
  /-- When the session gives up waiting for the next frame. -/
  deadline : Nat

namespace Session

/-- The session of an accepted socket. -/
def accepted (conn : ConnId) (ip : IpAddress) (openedAt deadline : Nat) : Session where
  conn := conn
  ip := ip
  phase := Handshake.Phase.initial false
  stage := .reading
  dialed := none
  openedAt := openedAt
  peer := none
  buffer := []
  ended := false
  deadline := deadline

/-- The session of a dialed socket. -/
def dialing (conn : ConnId) (node : Node) (openedAt deadline : Nat) : Session where
  conn := conn
  ip := node.ip
  phase := Handshake.Phase.initial true
  stage := .reading
  dialed := some node
  openedAt := openedAt
  peer := none
  buffer := []
  ended := false
  deadline := deadline

def isOver (session : Session) : Bool :=
  match session.stage with
  | .over => true
  | _ => false

/-- Ends without an answer. -/
def quit (session : Session) : Session :=
  { session with stage := .over }

/-- Ends because the handshake has failed. -/
def fail (session : Session) : Session :=
  { session with phase := .rejected, stage := .over }

/-- The peer has become active. -/
def activate (session : Session) (node : Node) : Session :=
  { session with phase := .active, peer := some ⟨node.idHash, node.display⟩ }

/-- Goes back to waiting for the next frame. -/
def resume (session : Session) (deadline : Nat) : Session :=
  { session with stage := .reading, deadline := deadline }

/-- How far a stage is from the end of a session. -/
def Stage.rank : Stage → Nat
  | .accepting _ => 4
  | .refusing => 3
  | .answering .. => 2
  | .reading => 1
  | .over => 0

/-- How much a session has before it; every step of one takes some of it away. -/
def load (session : Session) : Nat :=
  session.buffer.length + Stage.rank session.stage

end Session

end Peering
