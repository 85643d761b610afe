import Peering.Handlers

/-!
# Handlers that fail or panic

A panic ends the work in which it comes up, but not what had been done before. Work
that is called with a guard against panics always returns, so of a handler that
panics there is left a call and a remark, as of one that fails, and the next handler
has its turn.

Main statements: a message is given to every handler for its route and version, and a
shutdown to every live handler, however each of these calls ends.
-/

namespace Peering

namespace Work

variable {α β : Type} (trail : Trail)

@[simp]
theorem after_pure (value : α) : after trail (pure value) = (.ok value, trail) :=
  rfl

@[simp]
theorem after_throw (reason : Panic) :
    after trail (throw reason : Work α) = (.error reason, trail) :=
  rfl

@[simp]
theorem after_modify (change : Trail → Trail) :
    after trail (modify change : Work PUnit) = (.ok (), change trail) :=
  rfl

@[simp]
theorem after_log (remark : Remark) :
    after trail (log remark) = (.ok (), trail.noteRemark remark) :=
  rfl

/-- Work goes on from where the work before it returned; a panic is passed on. -/
theorem after_bind (work : Work α) (next : α → Work β) :
    after trail (work >>= next) =
      match after trail work with
      | (.ok value, later) => after later (next value)
      | (.error reason, later) => (.error reason, later) := by
  unfold after
  rw [ExceptT.run_bind, StateT.run_bind]
  rcases (ExceptT.run work).run trail with ⟨_ | _, _⟩ <;> rfl

@[simp]
theorem after_map (change : α → β) (work : Work α) :
    after trail (change <$> work) = ((after trail work).1.map change, (after trail work).2) := by
  rw [map_eq_pure_bind, after_bind]
  rcases after trail work with ⟨_ | _, _⟩ <;> rfl

theorem after_tryCatch (work : Work α) (handle : Panic → Work α) :
    after trail (tryCatch work handle) =
      match after trail work with
      | (.ok value, later) => (.ok value, later)
      | (.error reason, later) => after later (handle reason) := by
  unfold after
  simp only [tryCatch, tryCatchThe, MonadExceptOf.tryCatch, ExceptT.tryCatch, ExceptT.run_mk,
    StateT.run_bind]
  show (StateT.run (ExceptT.run work) trail >>= _) = _
  rcases (ExceptT.run work).run trail with ⟨_ | _, _⟩ <;> rfl

/-- Guarded work returns whatever comes of it, and what it did before a panic stays done. -/
@[simp]
theorem after_catchUnwind (work : Work α) :
    after trail (catchUnwind work) = (.ok (after trail work).1, (after trail work).2) := by
  rw [catchUnwind, after_tryCatch, after_map]
  rcases after trail work with ⟨_ | _, _⟩ <;> rfl

end Work

/-! ## One handler -/

/-- What is remarked upon a call. -/
def Call.remarks (call : Call) : List Remark :=
  match call.outcome with
  | .ok => []
  | .failed => [.failed call.message.route call.message.display]
  | .panicked => [.panicked call.message.route call.message.display]

/-- What is remarked upon the shutdown of a handler. -/
def Handler.farewell (handler : Handler) : List Remark :=
  match handler.shutDown with
  | .panicked => [.panickedOnShutdown handler.route]
  | _ => []

namespace Trail

/-- A trail that goes on with calls and with what is remarked upon them. -/
def withCalls (trail : Trail) (calls : List Call) : Trail :=
  { trail with
    calls := trail.calls ++ calls
    remarks := trail.remarks ++ calls.flatMap Call.remarks }

/-- A trail that goes on with the shutdown of handlers. -/
def withDismissals (trail : Trail) (handlers : List Handler) : Trail :=
  { trail with
    dismissals := trail.dismissals ++ handlers.map Handler.dismissal
    remarks := trail.remarks ++ handlers.flatMap Handler.farewell }

theorem withCalls_nil (trail : Trail) : trail.withCalls [] = trail := by
  simp [withCalls]

theorem withCalls_cons (trail : Trail) (call : Call) (later : List Call) :
    (trail.withCalls [call]).withCalls later = trail.withCalls (call :: later) := by
  simp [withCalls]

theorem withDismissals_nil (trail : Trail) : trail.withDismissals [] = trail := by
  simp [withDismissals]

theorem withDismissals_cons (trail : Trail) (handler : Handler) (later : List Handler) :
    (trail.withDismissals [handler]).withDismissals later =
      trail.withDismissals (handler :: later) := by
  simp [withDismissals]

end Trail

namespace Handler

/-- A handler that is attended to has been called, and nothing of it gets any further. -/
theorem after_attend (trail : Trail) (handler : Handler) (message : Incoming) :
    (handler.attend message).after trail =
      (.ok (), trail.withCalls [handler.call message]) := by
  simp only [attend, take, Work.after_bind, Work.after_catchUnwind, Work.after_modify]
  cases houtcome : handler.receive message <;>
    simp [Trail.withCalls, Trail.noteCall, Trail.noteRemark, Call.remarks, call, houtcome]

theorem after_dismiss (trail : Trail) (handler : Handler) :
    handler.dismiss.after trail = (.ok (), trail.withDismissals [handler]) := by
  simp only [dismiss, leave, Work.after_bind, Work.after_catchUnwind, Work.after_modify]
  cases houtcome : handler.shutDown <;>
    simp [Trail.withDismissals, Trail.noteDismissal, Trail.noteRemark, farewell, houtcome]

end Handler

/-! ## All of them -/

namespace HandlerTable

/-- The handlers that a table has for the route and the version of a message. -/
def serving (table : HandlerTable) (message : Incoming) : List Handler :=
  (table.handlersFor message.route).filter (·.version == message.version)

/-- The handlers for the version of a message are called and counted, whatever comes of it. -/
theorem after_serveEach (trail : Trail) (message : Incoming) (handlers : List Handler)
    (called : Nat) :
    let calls := (handlers.filter (·.version == message.version)).map (·.call message)
    (serveEach message handlers called).after trail =
      (.ok (called + calls.length), trail.withCalls calls) := by
  induction handlers generalizing trail called with
  | nil => simp [serveEach, Trail.withCalls_nil]
  | cons handler rest ih =>
      by_cases hversion : handler.version = message.version
      · rw [serveEach, if_neg (by simpa using hversion), Work.after_bind, Handler.after_attend]
        simp only [ih, Trail.withCalls_cons]
        simp [hversion, Nat.add_assoc, Nat.add_comm 1]
      · rw [serveEach, if_pos (by simpa using hversion), ih]
        simp [hversion]

/-- What is remarked when a message finds no handler. -/
def unserved (message : Incoming) (calls : List Call) : List Remark :=
  if calls = [] then [.unserved message.route message.version message.display] else []

/-- A message is given to every handler that serves it, however any of the calls ends. -/
theorem after_serve (table : HandlerTable) (message : Incoming) :
    let calls := (table.serving message).map (·.call message)
    (table.serve message).after .empty =
      (.ok calls.length, ⟨calls, [], calls.flatMap Call.remarks ++ unserved message calls⟩) := by
  intro calls
  have hall : (serveEach message (table.handlersFor message.route) 0).after .empty =
      (.ok calls.length, Trail.empty.withCalls calls) := by
    rw [after_serveEach, Nat.zero_add]
    rfl
  rw [serve, Work.after_bind, hall]
  by_cases hnone : calls = []
  · simp [hnone, unserved, Trail.withCalls, Trail.noteRemark, Trail.empty, Except.map]
  · simp [hnone, unserved, Trail.withCalls, Trail.empty]

/-- The calls that a message makes are one for each handler that serves it. -/
theorem dispatch_eq (table : HandlerTable) (message : Incoming) :
    table.dispatch message = (table.serving message).map (·.call message) := by
  rw [dispatch, after_serve]

theorem after_dismissEach (trail : Trail) (handlers : List Handler) :
    (dismissEach handlers).after trail = (.ok (), trail.withDismissals handlers) := by
  induction handlers generalizing trail with
  | nil => rw [dismissEach, Work.after_pure, Trail.withDismissals_nil]
  | cons handler rest ih =>
      rw [dismissEach, Work.after_bind, Handler.after_dismiss]
      simp only [ih, Trail.withDismissals_cons]

/-- Every live handler is shut down, however any of the shutdowns ends. -/
theorem after_retire (table : HandlerTable) :
    table.retire.2.after .empty =
      (.ok (), ⟨[], table.live.map Handler.dismissal, table.live.flatMap Handler.farewell⟩) :=
  after_dismissEach .empty table.live

end HandlerTable

end Peering
