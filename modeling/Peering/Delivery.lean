import Peering.Outbox
import Peering.Registry.Moves
import Peering.Socket

/-!
# Delivery

How messages get from the queues onto sockets. Each lane takes its messages in
order, drops the stale ones, finds the socket of the others and leaves the write
to its writer. A write that fails or takes too long removes its connection.
Closing a connection shuts its write half once the lock is free.

Every function here is one indivisible step of one task; `Peering.Delivery.Settle`
runs them in a fixed order.
-/

namespace Peering

/-- Everything that takes part in delivery. -/
structure Transport where
  registry : Registry
  outbox : Outbox
  sockets : Table ConnId Socket
  /-- The clock by which writes time out. -/
  timer : Nat

namespace Transport

def create (registry : Registry) (limits : OutboxLimits) : Transport where
  registry := registry
  outbox := Outbox.create limits
  sockets := []
  timer := 0

def socket? (transport : Transport) (conn : ConnId) : Option Socket :=
  transport.sockets.find? conn

def onSocket (transport : Transport) (conn : ConnId) (change : Socket → Socket) : Transport :=
  { transport with sockets := transport.sockets.modify conn change }

def addSocket (transport : Transport) (conn : ConnId) (socket : Socket) : Transport :=
  { transport with sockets := transport.sockets.insert conn socket }

/-- Hands in a message; tells whether it was taken. -/
def send (transport : Transport) (message : Message) : Transport × Bool :=
  let (outbox, taken) := transport.outbox.send message
  ({ transport with outbox := outbox }, taken)

def distribute (transport : Transport) : Transport :=
  { transport with outbox := transport.outbox.distribute }

/-! ## Lanes -/

/-- A lane deals with its oldest message: it drops it or leaves a job for its writer. -/
def resolve (transport : Transport) (now : Int) (index : Nat) : Transport :=
  let outbox := transport.outbox
  match outbox.lane? index with
  | none => transport
  | some lane =>
      match lane.queue with
      | [] => transport
      | message :: rest =>
          let lane := { lane with queue := rest }
          let outbox :=
            if message.isStale now outbox.limits.writeTimeout then
              (outbox.setLane index lane).count fun tally =>
                { tally with stale := tally.stale + 1 }
            else match transport.registry.writerFor message.dest with
              | none => (outbox.setLane index lane).count fun tally =>
                  { tally with noChannel := tally.noChannel + 1 }
              | some conn => outbox.enterBacklog index lane ⟨conn, message⟩
          { transport with outbox := outbox }

/-! ## Writers -/

/-- An idle writer takes its oldest job and asks for the lock of the socket. -/
def take (transport : Transport) (index : Nat) : Transport :=
  let outbox := transport.outbox
  match outbox.lane? index with
  | some ⟨queue, job :: rest, .idle⟩ =>
      let deadline := transport.timer + outbox.limits.writeTimeout
      let lane : WriterLane := ⟨queue, rest, .busy job job.bytes deadline⟩
      { transport with outbox := outbox.setLane index lane }.onSocket job.conn
        (·.ask (.lane index))
  | _ => transport

/-- A writer is done with its job and gives up the lock. -/
def finishJob (transport : Transport) (index : Nat) (job : Job) (change : Tally → Tally) :
    Transport :=
  match transport.outbox.lane? index with
  | none => transport
  | some lane =>
      let outbox := (transport.outbox.setLane index { lane with writer := .idle }).count change
      { transport with outbox := outbox }.onSocket job.conn (·.release (.lane index))

/-- A write has failed, and with it the connection. -/
def failJob (transport : Transport) (index : Nat) (job : Job) : Transport :=
  let transport := transport.finishJob index job fun tally =>
    { tally with failed := tally.failed + 1 }
  { transport with registry := (transport.registry.removeConn job.conn).1 }

/-- A writer that holds the lock writes what fits. -/
def write (transport : Transport) (index : Nat) : Transport :=
  match transport.outbox.lane? index with
  | some ⟨queue, backlog, .busy job left deadline⟩ =>
      match transport.socket? job.conn with
      | none => transport
      | some socket =>
          if !socket.isHeldBy (.lane index) then transport
          else if socket.isBroken then transport.failJob index job
          else
            let (socket, left) := socket.put left
            let transport := transport.onSocket job.conn fun _ => socket
            if left.isEmpty then
              transport.finishJob index job fun tally =>
                { tally with written := tally.written + 1 }
            else
              { transport with
                outbox := transport.outbox.setLane index
                  ⟨queue, backlog, .busy job left deadline⟩ }
  | _ => transport

/-- A writer gives up at its deadline, whether it is writing or waits for the lock. -/
def expire (transport : Transport) (index : Nat) : Transport :=
  match transport.outbox.lane? index with
  | some ⟨_, _, .busy job _ deadline⟩ =>
      if deadline ≤ transport.timer then transport.failJob index job else transport
  | _ => transport

/-! ## Closing -/

/-- Whether a closed connection still has to have its write half shut. -/
def awaitsShut (transport : Transport) (conn : ConnId) : Bool :=
  transport.registry.teardowns.contains conn
    && (transport.socket? conn).any fun socket => !socket.shut

/-- The closing task of a connection asks for the lock. -/
def askShut (transport : Transport) (conn : ConnId) : Transport :=
  if transport.awaitsShut conn then transport.onSocket conn (·.ask .closer) else transport

/-- The closing task shuts the write half once it has the lock. -/
def shut (transport : Transport) (conn : ConnId) : Transport :=
  match transport.socket? conn with
  | some socket =>
      if socket.isHeldBy .closer then
        transport.onSocket conn fun socket => socket.shutWrite.release .closer
      else transport
  | none => transport

/-- Takes a connection out of the registry; tells whether it was there. -/
def removeConn (transport : Transport) (conn : ConnId) : Transport × Bool :=
  let (registry, found) := transport.registry.removeConn conn
  ({ transport with registry := registry }, found)

/-- Stops the outbox. -/
def stop (transport : Transport) : Transport :=
  { transport with outbox := transport.outbox.stop }

/-! ## The peer's side -/

/-- Whether some task of ours can still write to a socket. -/
def isOpen (transport : Transport) (conn : ConnId) : Bool :=
  transport.registry.holds conn
    || transport.outbox.jobs.any (·.conn == conn)
    || transport.awaitsShut conn
    || (transport.socket? conn).any (!·.lock.isEmpty)

/-- Whether the peer comes to an end of the stream after what is unread. -/
def isEnded (transport : Transport) (conn : ConnId) : Bool :=
  (transport.socket? conn).any (·.shut) || !transport.isOpen conn

/-- The peer reads at most so many bytes. -/
def read (transport : Transport) (conn : ConnId) (most : Nat) : Transport × Bytes :=
  match transport.socket? conn with
  | none => (transport, [])
  | some socket =>
      let (socket, bytes) := socket.read most
      (transport.onSocket conn fun _ => socket, bytes)

def hangUp (transport : Transport) (conn : ConnId) : Transport :=
  transport.onSocket conn (·.hangUp)

end Transport

end Peering
