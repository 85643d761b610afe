import Peering.Proofs.Session.Reach

/-!
# Containment

A session runs on an endpoint among others: between two of its steps anything may
become of the endpoint, and the registry may be called and its connections cancelled
in any way. No step of the session touches more than what its visit may reach, and
whatever ends the session takes its connection out of the registry and closes it.
-/

namespace Peering

namespace Registry

variable {registry after : Registry} {conn : ConnId} {past events : List Event}

/-- A history during which handles are given out and sockets are shut as in another registry. -/
def liveBeside (registry other : Registry) (events : List Event) : Registry :=
  { registry.live events with nextConn := other.nextConn, teardowns := other.teardowns }

theorem Owns.liveBeside (h : Owns past registry) (other : Registry)
    (hfresh : (offers (past ++ events)).Nodup) :
    Owns (past ++ events) (registry.liveBeside other events) := by
  have hlived := h.live events hfresh
  exact hlived.settle (hlived.keyed.settles_of_same rfl rfl rfl rfl)

theorem Without.not_mem_handles (hwithout : Without registry conn after) : conn ∉ after.handles := by
  simp [handles, hwithout.outbound, hwithout.inbound, hwithout.active, Table.select]

theorem Owns.removeConn_confined {touched : ConnId → Prop} (h : Owns past registry)
    (htouched : touched conn) : Confined registry touched (registry.removeConn conn).1 :=
  ⟨h.keyed.removeConn_settles conn, h.keyed.removeConn_spares h.nodup htouched⟩

end Registry

/-- An endpoint with the session of one connection, and the steps that the session has taken. -/
structure Stay where
  endpoint : Endpoint
  visits : List Visit

namespace Stay

open Registry (Event Owns Confined Spares offers)

inductive Turn where
  | receive (bytes : Bytes)
  | endStream
  /-- A step of the session. -/
  | step (heeds : Bool)
  /-- Whatever the rest of the node does, with its calls on the registry. -/
  | elsewhere (other : Endpoint) (events : List Event)

def Turn.events : Turn → List Event
  | .elsewhere _ events => events
  | _ => []

def opening (endpoint : Endpoint) : Stay :=
  ⟨endpoint, []⟩

/-- Another endpoint, but with the registry of this one as it has lived on, and the same session. -/
def meanwhile (endpoint : Endpoint) (conn : ConnId) (other : Endpoint) (events : List Event) :
    Endpoint :=
  let sessions := match endpoint.sessions.find? conn with
    | none => other.sessions.erase conn
    | some session => other.sessions.insert conn session
  { other with sessions := sessions }.setRegistry
    (endpoint.registry.liveBeside other.registry events)

def act (conn : ConnId) (stay : Stay) : Turn → Stay
  | .receive bytes => { stay with endpoint := (stay.endpoint.receive conn bytes).1 }
  | .endStream => { stay with endpoint := stay.endpoint.endStream conn }
  | .step heeds =>
      match stay.endpoint.sessions.find? conn with
      | none => stay
      | some session =>
          ⟨stay.endpoint.stepSession conn heeds,
            stay.visits ++ [⟨stay.endpoint, session, heeds⟩]⟩
  | .elsewhere other events =>
      { stay with endpoint := meanwhile stay.endpoint conn other events }

def run (conn : ConnId) (stay : Stay) (turns : List Turn) : Stay :=
  turns.foldl (act conn) stay

variable {conn : ConnId} {stay : Stay} {endpoint : Endpoint} {session : Session}
  {past : List Event}

/-! ## One step -/

theorem stepSession_eq (hfind : endpoint.sessions.find? conn = some session) (heeds : Bool) :
    let visit : Visit := ⟨endpoint, session, heeds⟩
    endpoint.stepSession conn heeds = visit.after.keepSession visit.next := by
  intro visit
  rw [Endpoint.stepSession, hfind]
  rfl

/-- A session that is over leaves the endpoint, and its connection leaves the registry. -/
theorem keepSession_cases (endpoint : Endpoint) (session : Session) :
    (session.isOver = true ∧
      (endpoint.keepSession session).sessions.find? session.conn = none ∧
      (endpoint.keepSession session).registry = (endpoint.registry.removeConn session.conn).1) ∨
    (session.isOver = false ∧
      (endpoint.keepSession session).sessions.find? session.conn = some session ∧
      (endpoint.keepSession session).registry = endpoint.registry) := by
  unfold Endpoint.keepSession
  split
  case isTrue hover =>
    refine Or.inl ⟨hover, ?_, rfl⟩
    exact (Table.find?_erase _ _ _).trans (if_pos rfl)
  case isFalse hgoes =>
    refine Or.inr ⟨Bool.not_eq_true _ ▸ hgoes, ?_, rfl⟩
    exact (Table.find?_insert _ _ _ _).trans (if_pos rfl)

/-- All that a step of a session does to the registry and to the session. -/
theorem stepSession_confined (howns : Owns past endpoint.registry)
    (hfind : endpoint.sessions.find? conn = some session) (hconn : session.conn = conn)
    (heeds : Bool) :
    let visit : Visit := ⟨endpoint, session, heeds⟩
    let next := endpoint.stepSession conn heeds
    Confined endpoint.registry visit.Reaches next.registry ∧
      ((visit.next.isOver = true ∧ next.sessions.find? conn = none ∧
          conn ∉ next.registry.handles) ∨
        (visit.next.isOver = false ∧ next.sessions.find? conn = some visit.next)) := by
  intro visit next
  have hnext : next = visit.after.keepSession visit.next := stepSession_eq hfind heeds
  have hsame : visit.next.conn = conn := visit.next_conn.trans hconn
  have hvisit : Confined endpoint.registry visit.Reaches visit.after.registry :=
    visit.confined howns.keyed
  obtain ⟨released, hsettles⟩ := hvisit.settles
  have hafter : Owns past visit.after.registry := howns.settle hsettles
  rcases keepSession_cases visit.after visit.next with ⟨hover, hgone, hregistry⟩ |
    ⟨hgoes, hkept, hregistry⟩
  · rw [hsame] at hgone hregistry
    rw [hnext, hregistry]
    have hremoved : Confined visit.after.registry visit.Reaches
        (visit.after.registry.removeConn conn).1 := hafter.removeConn_confined (.own hconn.symm)
    exact ⟨hvisit.trans hremoved, Or.inl ⟨hover, hgone,
      (hafter.keyed.removeConn_without hafter.nodup conn).not_mem_handles⟩⟩
  · rw [hsame] at hkept
    rw [hnext, hregistry]
    exact ⟨hvisit, Or.inr ⟨hgoes, hkept⟩⟩

/-! ## Runs -/

/-- What a step of the session of a connection has done. -/
structure Kept (conn : ConnId) (visit : Visit) : Prop where
  finds : visit.before.sessions.find? conn = some visit.session
  conn_eq : visit.session.conn = conn
  spares : Spares visit.before.registry visit.Reaches (visit.before.stepSession conn visit.heeds).registry
  ends : visit.Stops →
    (visit.before.stepSession conn visit.heeds).sessions.find? conn = none

/-- How a stay stands: the session is there, or its connection is out. -/
structure Holds (conn : ConnId) (past : List Event) (stay : Stay) : Prop where
  owns : Owns past stay.endpoint.registry
  offered : conn ∈ offers past
  session : (∃ session, stay.endpoint.sessions.find? conn = some session ∧ session.conn = conn) ∨
    (stay.endpoint.sessions.find? conn = none ∧ conn ∉ stay.endpoint.registry.handles)
  visits : ∀ visit ∈ stay.visits, Kept conn visit

/-- Bytes that arrive and the end of the stream change the session and nothing else. -/
theorem Holds.of_session (h : Holds conn past stay) {next : Endpoint}
    (hregistry : next.registry = stay.endpoint.registry)
    (hsession : ∀ session, stay.endpoint.sessions.find? conn = some session → session.conn = conn →
      ∃ after, next.sessions.find? conn = some after ∧ after.conn = conn)
    (hnone : stay.endpoint.sessions.find? conn = none → next.sessions.find? conn = none) :
    Holds conn past { stay with endpoint := next } where
  owns := hregistry ▸ h.owns
  offered := h.offered
  session := by
    rcases h.session with ⟨session, hfind, hconn⟩ | ⟨hgone, hout⟩
    · exact Or.inl (hsession session hfind hconn)
    · exact Or.inr ⟨hnone hgone, hregistry ▸ hout⟩
  visits := h.visits

theorem Holds.receive (h : Holds conn past stay) (bytes : Bytes) :
    Holds conn past (stay.act conn (.receive bytes)) := by
  refine h.of_session ?_ (fun session hfind hconn => ?_) (fun hgone => ?_)
  · unfold Endpoint.receive
    split <;> rfl
  · simp only [Endpoint.receive, hfind, Endpoint.addSession]
    rw [hconn, Table.find?_insert, if_pos rfl]
    exact ⟨_, rfl, rfl⟩
  · simp only [Endpoint.receive, hgone]

theorem Holds.endStream (h : Holds conn past stay) :
    Holds conn past (stay.act conn .endStream) := by
  refine h.of_session rfl (fun session hfind hconn => ?_) (fun hgone => ?_)
  · rw [Endpoint.endStream, Table.find?_modify, if_pos rfl, hfind]
    exact ⟨_, rfl, hconn⟩
  · rw [Endpoint.endStream, Table.find?_modify, if_pos rfl, hgone]
    rfl

theorem Holds.step (h : Holds conn past stay) (heeds : Bool) :
    Holds conn past (stay.act conn (.step heeds)) := by
  rcases h.session with ⟨session, hfind, hconn⟩ | ⟨hgone, hout⟩
  · let visit : Visit := ⟨stay.endpoint, session, heeds⟩
    obtain ⟨hconfined, hnext⟩ := stepSession_confined h.owns hfind hconn heeds
    obtain ⟨released, hsettles⟩ := hconfined.settles
    have hkept : Kept conn visit := by
      refine ⟨hfind, hconn, hconfined.spares, fun hstops => ?_⟩
      rcases hnext with ⟨_, hnone, _⟩ | ⟨hgoes, _⟩
      · exact hnone
      · cases (Visit.isOver_of_stops hstops).symm.trans hgoes
    have hact : stay.act conn (.step heeds) =
        ⟨stay.endpoint.stepSession conn heeds, stay.visits ++ [visit]⟩ := by
      simp only [act, hfind, visit]
    rw [hact]
    refine ⟨h.owns.settle hsettles, h.offered, ?_, ?_⟩
    · rcases hnext with ⟨_, hnone, hout⟩ | ⟨_, hgoes⟩
      · exact Or.inr ⟨hnone, hout⟩
      · exact Or.inl ⟨_, hgoes, visit.next_conn.trans hconn⟩
    · intro other hmem
      rcases List.mem_append.mp hmem with hold | hnew
      · exact h.visits other hold
      · exact List.mem_singleton.mp hnew ▸ hkept
  · have hact : stay.act conn (.step heeds) = stay := by
      simp only [act, hgone]
    rw [hact]
    exact h

theorem find?_meanwhile (endpoint other : Endpoint) (conn : ConnId) (events : List Event) :
    (meanwhile endpoint conn other events).sessions.find? conn = endpoint.sessions.find? conn := by
  unfold meanwhile
  cases endpoint.sessions.find? conn with
  | none => exact (Table.find?_erase _ _ _).trans (if_pos rfl)
  | some session => exact (Table.find?_insert _ _ _ _).trans (if_pos rfl)

theorem Holds.elsewhere (h : Holds conn past stay) (other : Endpoint) {events : List Event}
    (hfresh : (offers (past ++ events)).Nodup) :
    Holds conn (past ++ events) (stay.act conn (.elsewhere other events)) := by
  have hfind := find?_meanwhile stay.endpoint other conn events
  refine ⟨h.owns.liveBeside other.registry hfresh, ?_, ?_, h.visits⟩
  · rw [Registry.offers_append]
    exact List.mem_append_left _ h.offered
  · rcases h.session with ⟨session, hthere, hconn⟩ | ⟨hgone, hout⟩
    · exact Or.inl ⟨session, hfind.trans hthere, hconn⟩
    · exact Or.inr ⟨hfind.trans hgone, h.owns.stays_out events hfresh h.offered hout⟩

theorem Holds.act (h : Holds conn past stay) (turn : Turn)
    (hfresh : (offers (past ++ turn.events)).Nodup) :
    Holds conn (past ++ turn.events) (stay.act conn turn) := by
  cases turn with
  | receive bytes => exact (List.append_nil past).symm ▸ h.receive bytes
  | endStream => exact (List.append_nil past).symm ▸ h.endStream
  | step heeds => exact (List.append_nil past).symm ▸ h.step heeds
  | elsewhere other events => exact h.elsewhere other hfresh

theorem Holds.run (h : Holds conn past stay) (turns : List Turn)
    (hfresh : (offers (past ++ turns.flatMap Turn.events)).Nodup) :
    Holds conn (past ++ turns.flatMap Turn.events) (stay.run conn turns) := by
  induction turns generalizing past stay with
  | nil => simpa [Stay.run] using h
  | cons turn rest ih =>
      rw [List.flatMap_cons, ← List.append_assoc] at hfresh ⊢
      exact ih (h.act turn (Registry.nodup_offers_left hfresh)) hfresh

/--
Let a session run on an endpoint whose registry has any history that offers no
connection twice. Each of its steps leaves the entries of every connection that its
visit may not reach as they are, in their sets and not closed, and the session ends
in the step in which it sees that it has been cancelled, finds a header beyond the
limit, or finds no frame when it has been cancelled, the stream has ended or the time
is up. As soon as it has ended, in these
ways or any other, no set of the registry holds its connection and the connection is
closed, whatever happens next.
-/
theorem run_contained (self : Identity) (limits : Limits) (before : List Event)
    (endpoint : Endpoint) (session : Session) (turns : List Turn)
    (hlived : endpoint.registry =
      (Registry.create self limits).liveBeside endpoint.registry before)
    (hoffered : session.conn ∈ offers before)
    (hfind : endpoint.sessions.find? session.conn = some session)
    (hfresh : (offers (before ++ turns.flatMap Turn.events)).Nodup) :
    let stay := (opening endpoint).run session.conn turns
    (∀ visit ∈ stay.visits,
      visit.before.sessions.find? session.conn = some visit.session ∧
        Spares visit.before.registry visit.Reaches
          (visit.before.stepSession session.conn visit.heeds).registry ∧
        (visit.Stops →
          (visit.before.stepSession session.conn visit.heeds).sessions.find? session.conn =
            none)) ∧
    (stay.endpoint.sessions.find? session.conn = none →
      session.conn ∉ stay.endpoint.registry.handles ∧
        stay.endpoint.registry.isClosed session.conn = true) := by
  intro stay
  have howns : Owns before endpoint.registry := by
    rw [hlived]
    exact (Registry.owns_create self limits).liveBeside _ (Registry.nodup_offers_left hfresh)
  have hstart : Holds session.conn before (opening endpoint) :=
    ⟨howns, hoffered, Or.inl ⟨session, hfind, rfl⟩, fun _ hmem => absurd hmem List.not_mem_nil⟩
  have h := hstart.run turns hfresh
  refine ⟨fun visit hmem => ?_, fun hgone => ?_⟩
  · obtain ⟨hfinds, _, hspares, hends⟩ := h.visits visit hmem
    exact ⟨hfinds, hspares, hends⟩
  · rcases h.session with ⟨other, hthere, _⟩ | ⟨_, hout⟩
    · cases hgone.symm.trans hthere
    · exact ⟨hout, (h.owns.known _ h.offered).resolve_left hout⟩

/-- A node that has accepted a socket. -/
def hosting : Endpoint :=
  ((Endpoint.create Settings.default (Registry.repeatedId 0x61) HandlerTable.empty).acceptSocket
    (.v4 0x0a000002) (Socket.create 512)).1

/-- Another socket is accepted; half a header arrives on the first one, and its stream ends. -/
def disconnecting : List Turn :=
  [.elsewhere hosting [.call (.promoteToInbound 0 2)], .receive [0, 0, 0, 1], .step true,
    .endStream, .step false]

/-- The first connection is out and closed; the other one is still there. -/
theorem run_contained_of_disconnecting :
    let stay := (opening hosting).run 1 disconnecting
    stay.visits.length = 2 ∧ 1 ∉ stay.endpoint.registry.handles ∧
      stay.endpoint.registry.isClosed 1 = true ∧ stay.endpoint.registry.handles = [2] := by
  intro stay
  let session := Session.accepted 1 (.v4 0x0a000002) 0 120000000000
  obtain ⟨_, hover⟩ := run_contained hosting.registry.self hosting.registry.limits
    [.call (.promoteToInbound 0 1)] hosting session disconnecting
    (by rfl) (by decide) (by rfl) (by decide)
  have hgone : stay.endpoint.sessions.find? 1 = none :=
    Option.isNone_iff_eq_none.mp (by decide +kernel)
  obtain ⟨hout, hclosed⟩ := hover hgone
  exact ⟨by decide +kernel, hout, hclosed, by decide +kernel⟩

end Stay

end Peering
