import Peering.Bytes

/-!
# Sockets as their writers see them

What has been written to a socket waits there until the peer reads it, and only
so much fits. Several tasks write to one socket; a lock lets one of them write
at a time, in the order in which they asked.
-/

namespace Peering

/-- A task that asks for the lock of a socket. -/
inductive Holder where
  /-- The writer of a lane. -/
  | lane (index : Nat)
  /-- The session that reads the socket; it answers handshakes itself. -/
  | session
  /-- The task that shuts the write half. -/
  | closer
deriving DecidableEq, Repr

structure Socket where
  /-- How many bytes can wait for the peer. -/
  capacity : Nat
  /-- Bytes written that the peer has not read. -/
  unread : Bytes
  /-- The peer's end is gone. -/
  hungUp : Bool
  /-- Our write half has been shut. -/
  shut : Bool
  /-- The task that may write, followed by the tasks that wait for their turn. -/
  lock : List Holder
deriving DecidableEq, Repr

namespace Socket

def create (capacity : Nat) : Socket where
  capacity := capacity
  unread := []
  hungUp := false
  shut := false
  lock := []

/-- Whether a write fails at once. -/
def isBroken (socket : Socket) : Bool :=
  socket.hungUp || socket.shut

/-! ## The lock -/

/-- Queues for the lock; who is queued already keeps the place. -/
def ask (socket : Socket) (holder : Holder) : Socket :=
  if socket.lock.contains holder then socket
  else { socket with lock := socket.lock ++ [holder] }

/-- Gives up the lock, or the place in the queue for it. -/
def release (socket : Socket) (holder : Holder) : Socket :=
  { socket with lock := socket.lock.filter (· ≠ holder) }

def isHeldBy (socket : Socket) (holder : Holder) : Bool :=
  socket.lock.head? == some holder

/-! ## Bytes -/

/-- Writes as many bytes as fit, and gives back the others. -/
def put (socket : Socket) (bytes : Bytes) : Socket × Bytes :=
  let room := socket.capacity - socket.unread.length
  ({ socket with unread := socket.unread ++ bytes.take room }, bytes.drop room)

/-- The peer reads at most so many bytes. -/
def read (socket : Socket) (most : Nat) : Socket × Bytes :=
  ({ socket with unread := socket.unread.drop most }, socket.unread.take most)

/-- The peer's end goes, and with it what the peer has not read. -/
def hangUp (socket : Socket) : Socket :=
  { socket with hungUp := true }

/-- Shuts the write half; the peer can still read what is there. -/
def shutWrite (socket : Socket) : Socket :=
  { socket with shut := true }

end Socket

end Peering
