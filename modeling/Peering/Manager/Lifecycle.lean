import Peering.Manager

/-!
# Starting, registering, shutting down

These three calls can overlap, and each of them is made of steps that are
indivisible only one by one. A stage says how far a call has come, and with what
in hand; a step moves a call from one stage to the next. The calls at the end of
each section run through their stages without interruption.
-/

namespace Peering

namespace Manager

/-- The handshake frames for an identity and versions. -/
def buildTemplates (manager : Manager) (self : Identity) (versions : Handshake.VersionSet) :
    Handshake.Templates :=
  Endpoint.buildTemplates manager.settings self versions

def storeTemplates (manager : Manager) (templates : Handshake.Templates) : Manager :=
  manager.setEndpoint { manager.endpoint with templates := templates }

/-! ## Registering handlers -/

/-- How far a call that registers handlers has come. -/
inductive RegisterStage where
  | entered (handlers : List Handler)
  /-- The handlers are in the table. -/
  | listed
  /-- The identity has been read. -/
  | identified (self : Identity)
  /-- The new frames have been built. -/
  | built (templates : Handshake.Templates)
  | returned

def registerStep (manager : Manager) : RegisterStage → Manager × RegisterStage
  | .entered handlers =>
      (manager.setEndpoint { manager.endpoint with
        handlers := manager.endpoint.handlers.register handlers }, .listed)
  | .listed => (manager, .identified manager.registry.self)
  | .identified self =>
      (manager, .built (manager.buildTemplates self manager.endpoint.handlers.versions))
  | .built templates => (manager.storeTemplates templates, .returned)
  | .returned => (manager, .returned)

def registerSteps : Nat → Manager → RegisterStage → Manager
  | 0, manager, _ => manager
  | count + 1, manager, stage =>
      let (manager, stage) := manager.registerStep stage
      registerSteps count manager stage

/-- Adds handlers, and announces their versions from now on. -/
def register (manager : Manager) (handlers : List Handler) : Manager :=
  registerSteps 4 manager (.entered handlers)

/-! ## Starting -/

/-- How far a call that starts the network has come. -/
inductive RunStage where
  | entered
  /-- No call has begun to shut down. -/
  | checked
  /-- This call is the one that starts the network. -/
  | claimed
  /-- The address has been bound, or the node goes on without one. -/
  | bound (address : Option SocketAddress)
  /-- The port that was bound has been announced to the registry. -/
  | announced (address : Option SocketAddress)
  | identified (address : Option SocketAddress) (self : Identity)
  | built (address : Option SocketAddress) (templates : Handshake.Templates)
  /-- The network is to be started. -/
  | ready (address : Option SocketAddress)
  /-- Queues and threads are there. -/
  | begun (address : Option SocketAddress)
  /-- The flag is up. -/
  | flagged (address : Option SocketAddress)
  /-- The tasks are there. -/
  | tasked (address : Option SocketAddress)
  | returned (result : Except ManagerError Unit)

/-- The address that is to be bound. -/
def wanted (manager : Manager) : SocketAddress :=
  ⟨manager.settings.ip, manager.settings.port⟩

/-- What follows from the answer to binding the address. -/
def afterBind (manager : Manager) : Except OsError SocketAddress → Manager × RunStage
  | .ok address => (manager, .bound (some address))
  | .error cause =>
      match manager.settings.bindFailurePolicy with
      | .fail =>
          ({ manager with starting := false }, .returned (.error (.bind manager.wanted cause)))
      | .degrade => (manager, .bound none)

/-- What follows from the answer to starting the threads. -/
def afterStart (manager : Manager) (address : Option SocketAddress) :
    Except OsError Unit → Manager × RunStage
  | .ok () => (manager, .begun address)
  | .error cause => ({ manager with starting := false }, .returned (.error (.spawn cause)))

/-- One step of a start, given what the host answers to binding the address and to starting threads. -/
def runStep (manager : Manager) (bound : Except OsError SocketAddress)
    (threads : Except OsError Unit) : RunStage → Manager × RunStage
  | .entered =>
      (manager, if manager.stopped then .returned (.error .shutDown) else .checked)
  | .checked =>
      if manager.starting then (manager, .returned (.ok ()))
      else ({ manager with starting := true }, .claimed)
  | .claimed => manager.afterBind bound
  | .bound address =>
      match address.filter (·.port ≠ manager.registry.self.port) with
      | none => (manager, .ready address)
      | some other =>
          (manager.setEndpoint (manager.endpoint.setRegistry
            (manager.registry.setPort other.port)), .announced address)
  | .announced address => (manager, .identified address manager.registry.self)
  | .identified address self =>
      (manager, .built address
        (manager.buildTemplates self manager.endpoint.handlers.versions))
  | .built address templates => (manager.storeTemplates templates, .ready address)
  | .ready address => manager.afterStart address threads
  | .begun address =>
      (manager.setEndpoint { manager.endpoint with running := true }, .flagged address)
  | .flagged address => (manager.setEndpoint manager.endpoint.startTasks.1, .tasked address)
  | .tasked address => ({ manager with started := some ⟨address⟩ }, .returned (.ok ()))
  | .returned result => (manager, .returned result)

def runSteps (bound : Except OsError SocketAddress) (threads : Except OsError Unit) :
    Nat → Manager → RunStage → Manager × RunStage
  | 0, manager, stage => (manager, stage)
  | count + 1, manager, stage =>
      let (manager, stage) := manager.runStep bound threads stage
      runSteps bound threads count manager stage

/-- Whether a start from this state gets as far as binding the address. -/
def wouldBind (manager : Manager) : Bool :=
  !manager.stopped && !manager.starting

/-- Starts the network, unless it has been started or shut down before. -/
def run (manager : Manager) (host : Host) : Manager × Host × Except ManagerError Unit :=
  if manager.wouldBind then
    let (bound, host) : Except OsError SocketAddress × Host :=
      match host.bind manager.wanted with
      | .ok (address, host) => (.ok address, host)
      | .error cause => (.error cause, host)
    match runSteps bound host.startThreads 11 manager .entered with
    | (manager, .returned (.ok ())) => (manager, host, .ok ())
    | (manager, .returned (.error cause)) => (manager, host.release bound, .error cause)
    | (manager, _) => (manager, host, .ok ())
  else if manager.stopped then (manager, host, .error .shutDown)
  else (manager, host, .ok ())

/-! ## Shutting down -/

/-- How far a call that shuts down has come. -/
inductive ShutdownStage where
  | entered
  /-- This call is the one that shuts down. -/
  | claimed
  /-- The flag is down. -/
  | lowered
  /-- Everything has been told to stop. -/
  | cancelled
  /-- The handlers have been shut down. -/
  | handlersDone
  /-- Every connection is closed. -/
  | closed
  /-- Nothing counts as started any more. -/
  | cleared
  | returned
deriving DecidableEq, Repr

/-- One step of a shutdown; gives the tags of the handlers that it shut down. -/
def shutdownStep (manager : Manager) : ShutdownStage → Manager × ShutdownStage × List Nat
  | .entered =>
      if manager.stopped then (manager, .returned, [])
      else ({ manager with stopped := true }, .claimed, [])
  | .claimed =>
      (manager.setEndpoint { manager.endpoint with running := false }, .lowered, [])
  | .lowered => (manager.setEndpoint manager.endpoint.cancelAll, .cancelled, [])
  | .cancelled =>
      let (endpoint, tags) := manager.endpoint.shutDownHandlers
      (manager.setEndpoint endpoint, .handlersDone, tags)
  | .handlersDone =>
      (manager.setEndpoint (manager.endpoint.setRegistry manager.registry.closeAll.1),
        .closed, [])
  | .closed => ({ manager with started := none, mapper := manager.mapper.unmap }, .cleared, [])
  | .cleared => (manager.setEndpoint manager.endpoint.settle.1, .returned, [])
  | .returned => (manager, .returned, [])

def shutdownSteps : Nat → Manager → ShutdownStage → Manager × List Nat
  | 0, manager, _ => (manager, [])
  | count + 1, manager, stage =>
      let (manager, stage, tags) := manager.shutdownStep stage
      let (manager, later) := shutdownSteps count manager stage
      (manager, tags ++ later)

/-- Stops everything, once; gives the tags of the handlers that were shut down. -/
def shutdown (manager : Manager) (host : Host) : Manager × Host × List Nat :=
  let host := match manager.address with
    | some address => host.unbind address
    | none => host
  let (manager, tags) := shutdownSteps 7 manager .entered
  (manager, host, tags)

end Manager

end Peering
