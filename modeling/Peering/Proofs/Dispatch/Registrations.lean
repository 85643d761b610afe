import Mathlib.Data.List.Dedup
import Peering.Proofs.Dispatch.Workroom
import Peering.Proofs.Handshake.Versions
import Peering.Proofs.Table

/-!
# A table of handlers and its history

A table keeps three views of the handlers that were registered: by route, as a set
of versions, and as those that are still to be shut down. All three follow from one
list, the registrations in the order in which they were accepted.

Main statement: after any history a message goes to the registrations for its route
and version, in their order, and each call ends as it does, whatever comes of the
others; the versions and the routes are those of the registrations; and each
registration is shut down once, also when others panic.
-/

namespace Peering

/-- A handler whose next call for a message ends in a given way. -/
def Handler.taking (handler : Handler) (outcome : Outcome) : Handler :=
  { handler with receive := fun _ => outcome }

/-- A handler whose shutdown ends in a given way. -/
def Handler.ending (handler : Handler) (outcome : Outcome) : Handler :=
  { handler with shutDown := outcome }

namespace HandlerTable

open Handshake

variable {table : HandlerTable} {registered : List Handler} {dismissed : List Dismissal}

/-! ## Histories -/

/--
What a program does with a table, and what the handlers make of it: for each call how
it ends, by the place of the handler on its route or among those that are live.
-/
inductive Event where
  | register (handlers : List Handler)
  | dispatch (message : Incoming) (outcomes : Nat → Outcome)
  | shutDownAll (outcomes : Nat → Outcome)

/-- The handlers of a route, as they are going to take the next message. -/
def taking (table : HandlerTable) (route : Route) (outcomes : Nat → Outcome) : HandlerTable :=
  { table with
    routes := table.routes.modify route fun handlers =>
      handlers.mapIdx fun place handler => handler.taking (outcomes place) }

/-- The live handlers, as they are going to take their shutdown. -/
def ending (table : HandlerTable) (outcomes : Nat → Outcome) : HandlerTable :=
  { table with live := table.live.mapIdx fun place handler => handler.ending (outcomes place) }

/-- What an event makes of a table, and the trail that it leaves. -/
def perform (table : HandlerTable) : Event → HandlerTable × Trail
  | .register handlers => (table.register handlers, .empty)
  | .dispatch message outcomes =>
      (table, (((table.taking message.route outcomes).serve message).after .empty).2)
  | .shutDownAll outcomes =>
      let (table, work) := (table.ending outcomes).retire
      (table, (work.after .empty).2)

def run (table : HandlerTable) (events : List Event) : HandlerTable :=
  events.foldl (fun table event => (table.perform event).1) table

/-- All shutdowns that a history has made, in their order. -/
def dismissedBy (table : HandlerTable) : List Event → List Dismissal
  | [] => []
  | event :: rest =>
      (table.perform event).2.dismissals ++ (table.perform event).1.dismissedBy rest

/-- The registrations that an event brings; handlers for the network core are refused. -/
def Event.accepted : Event → List Handler
  | .register handlers => handlers.filter (·.route.ctrl ≠ netCtrl)
  | .dispatch _ _ => []
  | .shutDownAll _ => []

/-! ## What a table shows of its registrations -/

/-- A table and the registrations that it stands for, of which the first have been shut down. -/
structure Reflects (table : HandlerTable) (registered : List Handler)
    (dismissed : List Dismissal) : Prop where
  handlers : ∀ route, table.handlersFor route = registered.filter (·.route == route)
  ascending : VersionSet.Ascending table.versions
  versions : ∀ version,
    version ∈ table.versions ↔ ∃ handler ∈ registered, handler.version = version
  distinct : table.routes.keys.Nodup
  routes : ∀ route, route ∈ table.routes.keys ↔ ∃ handler ∈ registered, handler.route = route
  gone : dismissed.map (·.tag) = (registered.take dismissed.length).map (·.tag)
  live : table.live = registered.drop dismissed.length

theorem reflects_empty : Reflects empty [] [] where
  handlers := fun _ => rfl
  ascending := List.Pairwise.nil
  versions := fun _ => by simp [empty]
  distinct := List.nodup_nil
  routes := fun _ => by simp [empty, Table.keys]
  gone := rfl
  live := rfl

/-- Nothing is shut down that was not registered. -/
theorem Reflects.length_le (hreflects : Reflects table registered dismissed) :
    dismissed.length ≤ registered.length := by
  have hlength := congrArg List.length hreflects.gone
  rw [List.length_map, List.length_map, List.length_take] at hlength
  omega

theorem Reflects.add (hreflects : Reflects table registered dismissed) {handler : Handler}
    (hother : handler.route.ctrl ≠ netCtrl) :
    Reflects (table.add handler) (registered ++ [handler]) dismissed := by
  rw [HandlerTable.add, if_neg hother]
  refine ⟨fun route => ?_, hreflects.ascending.insert _, fun version => ?_,
    Table.nodup_keys_insert hreflects.distinct, fun route => ?_, ?_, ?_⟩
  · rw [handlersFor, Table.find?_insert, List.filter_append]
    by_cases hroute : route = handler.route
    · simp [hroute, hreflects.handlers]
    · have hsame := hreflects.handlers route
      rw [handlersFor] at hsame
      simp [hroute, Ne.symm hroute, hsame]
  · simp [hreflects.versions, or_and_right, exists_or, or_comm, eq_comm]
  · rw [Table.mem_keys_insert, hreflects.routes]
    simp [or_and_right, exists_or, or_comm, eq_comm]
  · rw [hreflects.gone, List.take_append_of_le_length hreflects.length_le]
  · rw [hreflects.live, List.drop_append_of_le_length hreflects.length_le]

/-- Handlers are added in their order; those for the network core leave the table as it is. -/
theorem Reflects.register (hreflects : Reflects table registered dismissed)
    (handlers : List Handler) :
    Reflects (table.register handlers) (registered ++ handlers.filter (·.route.ctrl ≠ netCtrl))
      dismissed := by
  induction handlers generalizing table registered with
  | nil => simpa [HandlerTable.register] using hreflects
  | cons handler rest ih =>
      rw [HandlerTable.register, List.foldl_cons, ← HandlerTable.register]
      by_cases hcore : handler.route.ctrl = netCtrl
      · rw [HandlerTable.add, if_pos hcore, List.filter_cons_of_neg (by simpa using hcore)]
        exact ih hreflects
      · rw [List.filter_cons_of_pos (by simpa using hcore), List.append_cons]
        exact ih (hreflects.add hcore)

/-! ## Calls -/

/--
The calls that a message makes: one for each registration for its route and version,
which ends as it is given for the place of the registration on the route.
-/
def callsFor (registered : List Handler) (message : Incoming) (outcomes : Nat → Outcome) :
    List Call :=
  ((registered.filter (·.route == message.route)).zipIdx.filter
    (·.1.version == message.version)).map
      fun (handler, place) => ⟨handler.tag, message, outcomes place⟩

theorem handlersFor_taking (table : HandlerTable) (route : Route) (outcomes : Nat → Outcome) :
    (table.taking route outcomes).handlersFor route =
      (table.handlersFor route).mapIdx fun place handler => handler.taking (outcomes place) := by
  rw [handlersFor, taking, Table.find?_modify, if_pos rfl, handlersFor]
  cases table.routes.find? route <;> rfl

/-- Of the handlers of a route those for the version are called, and each does what it does. -/
theorem Reflects.calls (hreflects : Reflects table registered dismissed) (message : Incoming)
    (outcomes : Nat → Outcome) :
    ((table.taking message.route outcomes).serving message).map (·.call message) =
      callsFor registered message outcomes := by
  rw [HandlerTable.serving, handlersFor_taking, hreflects.handlers, List.mapIdx_eq_zipIdx_map,
    List.filter_map, List.map_map]
  rfl

/-- Whom a message is given to does not depend on how any call ends. -/
theorem made_callsFor (registered : List Handler) (message : Incoming)
    (outcomes : Nat → Outcome) :
    (callsFor registered message outcomes).map Call.made =
      (registered.filter (·.serves message)).map fun handler => (handler.tag, message) := by
  have hserves : registered.filter (·.serves message) =
      (registered.filter (·.route == message.route)).filter (·.version == message.version) := by
    rw [List.filter_filter]
    exact List.filter_congr fun handler _ => Bool.and_comm ..
  rw [hserves, ← List.zipIdx_map_fst 0 (registered.filter _), List.filter_map, List.map_map,
    callsFor, List.map_map]
  rfl

/-! ## Shutdowns -/

/-- The shutdown of each handler, which ends as it is given for its place. -/
def dismissalsFor (handlers : List Handler) (outcomes : Nat → Outcome) : List Dismissal :=
  handlers.mapIdx fun place handler => ⟨handler.tag, outcomes place⟩

theorem dismissals_ending (table : HandlerTable) (outcomes : Nat → Outcome) :
    (table.ending outcomes).live.map Handler.dismissal = dismissalsFor table.live outcomes := by
  rw [ending, dismissalsFor, List.mapIdx_eq_zipIdx_map, List.mapIdx_eq_zipIdx_map, List.map_map]
  rfl

theorem tag_dismissalsFor (handlers : List Handler) (outcomes : Nat → Outcome) :
    (dismissalsFor handlers outcomes).map (·.tag) = handlers.map (·.tag) := by
  rw [dismissalsFor, List.mapIdx_eq_zipIdx_map, List.map_map,
    ← List.zipIdx_map_fst 0 handlers, List.map_map, List.zipIdx_map_fst]
  rfl

/-- A shutdown comes to the live handlers, and each does what it does. -/
theorem dismissals_shutDownAll (table : HandlerTable) (outcomes : Nat → Outcome) :
    (table.perform (.shutDownAll outcomes)).2.dismissals = dismissalsFor table.live outcomes := by
  rw [← dismissals_ending]
  exact congrArg (·.2.dismissals) (after_retire (table.ending outcomes))

theorem dismissals_dispatch (table : HandlerTable) (message : Incoming)
    (outcomes : Nat → Outcome) :
    (table.perform (.dispatch message outcomes)).2.dismissals = [] :=
  congrArg (·.2.dismissals) (after_serve (table.taking message.route outcomes) message)

/-! ## Runs -/

/-- The registrations of a history, in the order in which they were accepted. -/
def registrations (events : List Event) : List Handler :=
  events.flatMap Event.accepted

theorem Reflects.perform (hreflects : Reflects table registered dismissed) (event : Event) :
    Reflects (table.perform event).1 (registered ++ event.accepted)
      (dismissed ++ (table.perform event).2.dismissals) := by
  cases event with
  | register handlers =>
      rw [HandlerTable.perform, Trail.empty, List.append_nil]
      exact hreflects.register handlers
  | dispatch message outcomes =>
      rw [dismissals_dispatch, Event.accepted, List.append_nil, List.append_nil]
      exact hreflects
  | shutDownAll outcomes =>
      rw [dismissals_shutDownAll, Event.accepted, List.append_nil]
      have hlength : (dismissed ++ dismissalsFor table.live outcomes).length =
          registered.length := by
        have hle := hreflects.length_le
        rw [List.length_append, dismissalsFor, List.length_mapIdx, hreflects.live,
          List.length_drop]
        omega
      refine ⟨hreflects.handlers, hreflects.ascending, hreflects.versions, hreflects.distinct,
        hreflects.routes, ?_, ?_⟩
      · rw [hlength, List.take_length, List.map_append, tag_dismissalsFor, hreflects.gone,
          hreflects.live, ← List.map_append, List.take_append_drop]
      · rw [hlength, List.drop_length]
        rfl

theorem Reflects.run (hreflects : Reflects table registered dismissed) (events : List Event) :
    Reflects (table.run events) (registered ++ registrations events)
      (dismissed ++ table.dismissedBy events) := by
  induction events generalizing table registered dismissed with
  | nil => simpa [HandlerTable.run, registrations, dismissedBy] using hreflects
  | cons event rest ih =>
      have hrest := ih (hreflects.perform event)
      rwa [List.append_assoc, List.append_assoc] at hrest

/-- A table that follows from its registrations has one entry for each route among them. -/
theorem Reflects.routeCount (hreflects : Reflects table registered dismissed) :
    table.routeCount = (registered.map (·.route)).dedup.length := by
  have hperm : table.routes.keys.Perm (registered.map (·.route)).dedup := by
    refine (List.perm_ext_iff_of_nodup hreflects.distinct (List.nodup_dedup _)).mpr fun route => ?_
    rw [hreflects.routes, List.mem_dedup, List.mem_map]
  rw [HandlerTable.routeCount, ← hperm.length_eq, Table.keys, List.length_map]

theorem dismissedBy_concat (table : HandlerTable) (events : List Event) (event : Event) :
    table.dismissedBy (events ++ [event]) =
      table.dismissedBy events ++ ((table.run events).perform event).2.dismissals := by
  induction events generalizing table with
  | nil => simp [dismissedBy, HandlerTable.run]
  | cons first rest ih =>
      rw [List.cons_append, dismissedBy, ih, dismissedBy, List.append_assoc]
      rfl

/--
Whatever a table has been through, a message makes one call for each registration so
far for its route and version, in the order of the registrations, and their number is
returned. Each call ends as that handler takes the message, which keeps none of the
others from being called; the registrations for the network core do not count. The
versions are those of the registrations, in ascending order and each once, and there
are as many routes as the registrations have different ones. Whenever the handlers are
shut down, the registrations that no shutdown has come to are shut down in their
order, each as it ends, also if some panic; so up to then each registration has been
shut down once, by the first shutdown after it.
-/
theorem run_follows_registrations (events : List Event) :
    let table := empty.run events
    let registered := registrations events
    let dismissed := empty.dismissedBy events
    (∀ message outcomes,
      let calls := callsFor registered message outcomes
      ((table.taking message.route outcomes).serve message).after .empty =
          (.ok (registered.countP (·.serves message)),
            ⟨calls, [], calls.flatMap Call.remarks ++ unserved message calls⟩) ∧
        calls.map Call.made =
          (registered.filter (·.serves message)).map fun handler => (handler.tag, message)) ∧
    (VersionSet.Ascending table.versions ∧
      ∀ version, version ∈ table.versions ↔ ∃ handler ∈ registered, handler.version = version) ∧
    table.routeCount = (registered.map (·.route)).dedup.length ∧
    ∀ outcomes,
      let waiting := registered.drop dismissed.length
      let all := empty.dismissedBy (events ++ [.shutDownAll outcomes])
      ((table.ending outcomes).retire.2.after .empty =
          (.ok (), ⟨[], dismissalsFor waiting outcomes,
            (waiting.mapIdx fun place handler => handler.ending (outcomes place)).flatMap
              Handler.farewell⟩)) ∧
        all = dismissed ++ dismissalsFor waiting outcomes ∧
        all.map (·.tag) = registered.map (·.tag) := by
  intro table registered dismissed
  have hreflects : Reflects table registered dismissed := reflects_empty.run events
  refine ⟨fun message outcomes => ⟨?_, made_callsFor registered message outcomes⟩,
    ⟨hreflects.ascending, hreflects.versions⟩, hreflects.routeCount, fun outcomes => ?_⟩
  · have hcount : (callsFor registered message outcomes).length =
        registered.countP (·.serves message) := by
      have hmade := congrArg List.length (made_callsFor registered message outcomes)
      rwa [List.length_map, List.length_map, ← List.countP_eq_length_filter] at hmade
    rw [after_serve, hreflects.calls, hcount]
  · intro waiting all
    have hall : all = dismissed ++ dismissalsFor waiting outcomes := by
      rw [show all = _ from dismissedBy_concat empty events _, dismissals_shutDownAll,
        hreflects.live]
    refine ⟨?_, hall, ?_⟩
    · rw [after_retire, dismissals_ending, hreflects.live]
      rw [ending, hreflects.live]
    · rw [hall, List.map_append, tag_dismissalsFor, hreflects.gone, ← List.map_append,
        List.take_append_drop]

end HandlerTable

end Peering
