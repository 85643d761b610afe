import Peering.Endpoint.Sessions

/-!
# Maintenance

What a running node does at intervals: it reports its status, pings silent
peers, asks a peer for gossip, and forgets what has expired. The end of this
module lets time pass, which makes these tasks and the timeouts of sessions due.
-/

namespace Peering

namespace Maintenance

/--
A silent peer is pinged at most two periods after it was last heard, which is
half of the time after which it would be given up.
-/
def keepalivePeriod (readTimeout : Nat) : Nat :=
  max (readTimeout / 4) millisecond

/-- A task that is late by no more than this keeps its rhythm. -/
def lateness : Nat := 5 * millisecond

end Maintenance

namespace Periodic

/-- How many times a task runs when it is looked at this late. -/
def runs (task : Periodic) (now : Nat) : Nat :=
  if now < task.next then 0
  else if task.next + Maintenance.lateness < now then 1
  else (now - task.next) / task.period + 1

/-- A task after it has run; one that was too late starts a new rhythm. -/
def reschedule (task : Periodic) (now : Nat) : Periodic :=
  if now < task.next then task
  else if task.next + Maintenance.lateness < now then { task with next := now + task.period }
  else { task with next := task.next + task.runs now * task.period }

end Periodic

namespace Endpoint

/-! ## The tasks -/

def latencyText (endpoint : Endpoint) : String :=
  match endpoint.registry.averageLatencyMs with
  | some ms => toString ms.toNat ++ "ms"
  | none => "n/a"

/-- How many messages never got to a socket for want of room or time. -/
def droppedSends (tally : Tally) : Nat :=
  tally.stale + tally.queueFull + tally.backlogFull + tally.oversized

def countsLine (endpoint : Endpoint) : String :=
  let counts := endpoint.registry.counts endpoint.clock
  "P2P status: active=" ++ toString counts.active ++ " inbound=" ++ toString counts.inbound ++
    " outbound=" ++ toString counts.outbound ++ " temp=" ++ toString counts.temp ++
    " banned=" ++ toString counts.banned ++ " latency=" ++ endpoint.latencyText

def dropsLine (endpoint : Endpoint) : String :=
  let tally := endpoint.transport.outbox.tally
  "P2P drops: send=" ++ toString (droppedSends tally) ++ " (stale=" ++ toString tally.stale ++
    ") receive=" ++ toString endpoint.dispatcher.dropped

/-- The status report; a line on drops is added once there are any. -/
def statusLines (endpoint : Endpoint) : List String :=
  if droppedSends endpoint.transport.outbox.tally = 0 ∧ endpoint.dispatcher.dropped = 0 then
    [endpoint.countsLine]
  else
    [endpoint.countsLine, endpoint.dropsLine]

/-- Queues a ping to each of the peers that are listed; counts those that were taken. -/
def pingAll (endpoint : Endpoint) : List IdHash → Endpoint × Nat
  | [] => (endpoint, 0)
  | peer :: rest =>
      let (endpoint, taken) := endpoint.sendTo (.active peer) (Frame.net NetAction.ping [])
      let (endpoint, count) := endpoint.pingAll rest
      (endpoint, if taken then count + 1 else count)

/-- Pings every active peer that has been silent for at least `idle`. -/
def pingSilent (endpoint : Endpoint) (now idle : Nat) : Endpoint × Nat :=
  endpoint.pingAll (endpoint.registry.silent now idle)

/-- Some active node, if there is one. -/
def someActive (endpoint : Endpoint) : Option Node :=
  (endpoint.shuffle endpoint.registry.activeNodes).head?

/-- Asks one active node for gossip; a request that is not taken is not waited for. -/
def requestGossip (endpoint : Endpoint) : Endpoint × Option IdHash :=
  match endpoint.someActive with
  | none => (endpoint, none)
  | some node =>
      let peer := node.idHash
      let asking := { endpoint with
        requested := endpoint.requested.insert peer endpoint.clock }
      let (asking, taken) :=
        asking.sendTo (.active peer) (Frame.net NetAction.activeNodesRequest [])
      if taken then (asking, some peer)
      else ({ asking with requested := asking.requested.erase peer }, none)

/-- Forgets what has expired, and requests too old to measure a latency by. -/
def evict (endpoint : Endpoint) (now : Nat) : Endpoint :=
  let endpoint := endpoint.setRegistry (endpoint.registry.evict now).1
  (endpoint.pruneRequests endpoint.settings.readTimeout).1

def keepalive (endpoint : Endpoint) : Nat :=
  Maintenance.keepalivePeriod endpoint.settings.readTimeout

def runChore (endpoint : Endpoint) : Chore → Endpoint
  | .status => endpoint
  | .keepalive => (endpoint.pingSilent endpoint.clock endpoint.keepalive).1
  | .gossip => endpoint.requestGossip.1
  | .eviction => endpoint.evict endpoint.clock

/-! ## Starting the tasks -/

/-- The tasks of a node and their periods; a node that only dials seeds does not gossip. -/
def chores (endpoint : Endpoint) : List (Chore × Nat) :=
  let settings := endpoint.settings
  [(.status, Settings.durationOf settings.statusIntervalMs), (.keepalive, endpoint.keepalive)]
    ++ (if settings.syncSeedsOnly then []
        else [(.gossip, Settings.durationOf settings.activeNodesIntervalMs)])
    ++ [(.eviction, Settings.durationOf settings.evictionIntervalMs)]

/-- Starts the tasks, each due after its first period; tells how many there are. -/
def startTasks (endpoint : Endpoint) : Endpoint × Nat :=
  let started := endpoint.chores.map fun (chore, period) =>
    (⟨chore, period, endpoint.timer + period⟩ : Periodic)
  (if endpoint.stopping then endpoint else { endpoint with tasks := endpoint.tasks ++ started },
    started.length)

/-! ## Time -/

/-- Something that happens at a time. -/
inductive Due where
  /-- A session has waited too long for a frame. -/
  | session (conn : ConnId)
  /-- A task runs so many times. -/
  | chore (chore : Chore) (runs : Nat)

def isWaiting (session : Session) : Bool :=
  match session.stage with
  | .reading => true
  | _ => false

/-- All that is due by now, the earliest first. -/
def due (endpoint : Endpoint) : List (Nat × Due) :=
  let now := endpoint.timer
  let late := endpoint.sessions.values.filter fun session =>
    isWaiting session && decide (session.deadline ≤ now)
  let tasks := endpoint.tasks.filter fun task => decide (task.next ≤ now)
  let all := late.map (fun session => (session.deadline, Due.session session.conn))
    ++ tasks.map fun task => (task.next, Due.chore task.chore (task.runs now))
  all.mergeSort fun first second => first.1 ≤ second.1

def runChoreMany (chore : Chore) : Nat → Endpoint → Endpoint
  | 0, endpoint => endpoint
  | count + 1, endpoint => runChoreMany chore count (endpoint.runChore chore)

def happen (endpoint : Endpoint) : Due → Endpoint
  | .session conn => endpoint.runSession conn
  | .chore chore runs => runChoreMany chore runs endpoint

/-- Moves the timers once, and does what is due then. -/
def advance (endpoint : Endpoint) (duration : Nat) : Endpoint :=
  let transport := { endpoint.transport with timer := endpoint.transport.timer + duration }
  let later := { endpoint with transport := transport }
  let waiting := { later with tasks := later.tasks.map (·.reschedule later.timer) }
  later.due.foldl (fun endpoint event => endpoint.happen event.2) waiting

end Endpoint

end Peering
