import Peering.Delivery

/-!
# Letting delivery settle

Runs the tasks of delivery until none can go on, in three phases: the send queue
is emptied into the lanes; each lane deals with all its messages; the writers
write, each its jobs in order, and the closing tasks shut what they can.
-/

namespace Peering

namespace Transport

/-- The lanes by index. -/
def laneIndexes (transport : Transport) : List Nat :=
  List.range transport.outbox.lanes.length

/-! ## Queues -/

def distributeAll (transport : Transport) : Transport :=
  { transport with
    outbox := transport.outbox.distributeMany transport.outbox.queue.length }

def resolveMany (now : Int) (index : Nat) : Nat → Transport → Transport
  | 0, transport => transport
  | count + 1, transport => resolveMany now index count (transport.resolve now index)

/-- A lane deals with all its messages. -/
def resolveLane (now : Int) (transport : Transport) (index : Nat) : Transport :=
  match transport.outbox.lane? index with
  | none => transport
  | some lane => resolveMany now index lane.queue.length transport

def resolveAll (now : Int) (transport : Transport) : Transport :=
  transport.laneIndexes.foldl (resolveLane now) transport

/-! ## Writers -/

/-- A writer goes on with its job, or takes one, as far as it can. -/
def stepWriter (transport : Transport) (index : Nat) : Transport :=
  ((transport.take index).write index).expire index

def stepWriterMany (index : Nat) : Nat → Transport → Transport
  | 0, transport => transport
  | count + 1, transport => stepWriterMany index count (transport.stepWriter index)

/-- A writer goes through its jobs until one of them has to wait. -/
def runWriter (transport : Transport) (index : Nat) : Transport :=
  match transport.outbox.lane? index with
  | none => transport
  | some lane => stepWriterMany index lane.jobs.length transport

/-- The closing task of a connection goes on as far as it can. -/
def runCloser (transport : Transport) (conn : ConnId) : Transport :=
  (transport.askShut conn).shut conn

/-- One turn of every writer and every closing task. -/
def writeRound (transport : Transport) : Transport :=
  let transport := transport.laneIndexes.foldl runWriter transport
  transport.registry.teardowns.foldl runCloser transport

/--
How much writers and closing tasks have before them. A job counts more than a
closing task, because a job that fails can leave one behind.
-/
def pending (transport : Transport) : Nat :=
  2 * transport.outbox.jobs.length
    + transport.registry.teardowns.countP fun conn => transport.awaitsShut conn

/-- Gives turns to the writers and closing tasks until a turn finishes nothing. -/
def writeAll (transport : Transport) : Transport :=
  let next := transport.writeRound
  if next.pending < transport.pending then next.writeAll else next
termination_by transport.pending

/-! ## All phases -/

def settle (transport : Transport) (now : Int) : Transport :=
  (resolveAll now transport.distributeAll).writeAll

/-- Time passes for the writers. -/
def advance (transport : Transport) (duration : Nat) (now : Int) : Transport :=
  let transport := { transport with timer := transport.timer + duration }
  transport.writeAll.settle now

end Transport

end Peering
