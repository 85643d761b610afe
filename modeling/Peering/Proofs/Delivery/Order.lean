import Peering.Proofs.Delivery.Runs
import Peering.Proofs.Frame.Stream

/-!
# The order of the writers

Through every run the queue for the lock of a socket is the writers with a job
for it, and its closing task: a writer in the middle of a job has the lock.
-/

namespace Peering

namespace Transport

variable {transport after : Transport} {index : Nat} {conn : ConnId} {left : Bytes}

/-! ## The lock of a connection -/

/-- What a run keeps about one connection. -/
structure Orderly (conn : ConnId) (transport : Transport) : Prop where
  coherent : transport.registry.Coherent
  opened : transport.registry.Knows conn → (transport.socket? conn).isSome = true
  known : transport.HasJob conn → transport.registry.Knows conn
  queued : ∀ index job left socket, transport.Writes index job left → job.conn = conn →
    transport.socket? conn = some socket → .lane index ∈ socket.lock
  busy : ∀ socket holder, transport.socket? conn = some socket → holder ∈ socket.lock →
    holder = .closer ∨ ∃ index job left,
      holder = .lane index ∧ transport.Writes index job left ∧ job.conn = conn
  unfinished : ∀ index job left, transport.Writes index job left → job.conn = conn → left ≠ []
  midway : ∀ index job left socket, transport.Writes index job left → job.conn = conn →
    left ≠ job.bytes → transport.socket? conn = some socket →
    socket.lock.head? = some (.lane index)

theorem orderly_create (self : Identity) (limits : Limits) (outboxLimits : OutboxLimits)
    (conn : ConnId) :
    Orderly conn (Transport.create (Registry.create self limits) outboxLimits) := by
  have hwork : ∀ index writer backlog,
      (Outbox.create outboxLimits).work? index = some (writer, backlog) →
      writer = .idle ∧ backlog = [] := by
    intro index writer backlog hwork
    obtain ⟨queue, hlane⟩ := Outbox.work?_eq_some.mp hwork
    have hmem := List.mem_of_getElem? hlane
    have heq := (List.mem_replicate.mp hmem).2
    cases heq
    exact ⟨rfl, rfl⟩
  have hidle : ∀ index job left,
      ¬(Transport.create (Registry.create self limits) outboxLimits).Writes index job left := by
    rintro index job left ⟨deadline, backlog, h⟩
    cases (hwork index _ _ h).1
  refine ⟨Registry.coherent_create self limits, ?_, ?_, ?_, ?_, ?_, ?_⟩
  · rintro (h | h)
    · simp [Registry.holds, Registry.activeOn?, create, Registry.create, Table.has, Table.find?,
        Table.keyWhere?] at h
    · simp [Registry.isClosed, create, Registry.create] at h
  · rintro ⟨job, hmem, _⟩
    obtain ⟨index, writer, backlog, h, hjob⟩ := Outbox.mem_jobs.mp hmem
    obtain ⟨rfl, rfl⟩ := hwork index writer backlog h
    rcases hjob with hjob | hjob
    · cases hjob
    · cases hjob
  · exact fun index job left socket h => absurd h (hidle index job left)
  · intro socket holder hsocket
    cases hsocket
  · exact fun index job left h => absurd h (hidle index job left)
  · exact fun index job left socket h => absurd h (hidle index job left)

/-- What a step keeps that changes neither the work nor the socket of the connection. -/
theorem Orderly.of_same (h : Orderly conn transport)
    (hcoherent : after.registry.Coherent)
    (hknows : after.registry.Knows conn ↔ transport.registry.Knows conn)
    (hsocket : after.socket? conn = transport.socket? conn)
    (hwork : after.outbox.work? = transport.outbox.work?) : Orderly conn after where
  coherent := hcoherent
  opened := fun hknown => hsocket ▸ h.opened (hknows.mp hknown)
  known := fun hjob => hknows.mpr (h.known ((hasJob_congr hwork).mp hjob))
  queued := fun index job left socket hwrites hconn hfound =>
    h.queued index job left socket ((writes_congr hwork).mp hwrites) hconn (hsocket ▸ hfound)
  busy := fun socket holder hfound hholder => by
    rcases h.busy socket holder (hsocket ▸ hfound) hholder with hcloser | ⟨k, job, left, hk, hw, hc⟩
    · exact Or.inl hcloser
    · exact Or.inr ⟨k, job, left, hk, (writes_congr hwork).mpr hw, hc⟩
  unfinished := fun index job left hwrites =>
    h.unfinished index job left ((writes_congr hwork).mp hwrites)
  midway := fun index job left socket hwrites hconn hleft hfound =>
    h.midway index job left socket ((writes_congr hwork).mp hwrites) hconn hleft (hsocket ▸ hfound)

/-- A change to the socket that leaves the writers in their places. -/
theorem Orderly.of_socket (h : Orderly conn transport) (changed : ConnId) (change : Socket → Socket)
    (hlanes : ∀ socket index, .lane index ∈ (change socket).lock ↔ .lane index ∈ socket.lock)
    (hothers : ∀ socket holder, holder ∈ (change socket).lock → holder ∈ socket.lock ∨
      holder = .closer)
    (hhead : ∀ socket index, socket.lock.head? = some (.lane index) →
      (change socket).lock.head? = some (.lane index)) :
    Orderly conn (transport.onSocket changed change) := by
  by_cases hconn : conn = changed
  · have hfind : (transport.onSocket changed change).socket? conn =
        (transport.socket? conn).map change := by
      rw [socket?_onSocket, if_pos hconn]
    refine ⟨h.coherent, ?_, h.known, ?_, ?_, h.unfinished, ?_⟩
    · intro hknown
      rw [hfind, Option.isSome_map]
      exact h.opened hknown
    · intro index job left socket hwrites hjob hsocket
      obtain ⟨old, hold, rfl⟩ := Option.map_eq_some_iff.mp (hfind ▸ hsocket)
      exact (hlanes old index).mpr (h.queued index job left old hwrites hjob hold)
    · intro socket holder hsocket hholder
      obtain ⟨old, hold, rfl⟩ := Option.map_eq_some_iff.mp (hfind ▸ hsocket)
      rcases hothers old holder hholder with hmem | hcloser
      · exact h.busy old holder hold hmem
      · exact Or.inl hcloser
    · intro index job left socket hwrites hjob hleft hsocket
      obtain ⟨old, hold, rfl⟩ := Option.map_eq_some_iff.mp (hfind ▸ hsocket)
      exact hhead old index (h.midway index job left old hwrites hjob hleft hold)
  · have hfind : (transport.onSocket changed change).socket? conn = transport.socket? conn := by
      rw [socket?_onSocket, if_neg hconn]
    exact h.of_same h.coherent Iff.rfl hfind rfl

theorem Orderly.of_same_lock (h : Orderly conn transport) (changed : ConnId)
    (change : Socket → Socket) (hlock : ∀ socket, (change socket).lock = socket.lock) :
    Orderly conn (transport.onSocket changed change) :=
  h.of_socket changed change (fun socket index => by rw [hlock])
    (fun socket holder hmem => Or.inl (hlock socket ▸ hmem)) fun socket index hhead => by
      rwa [hlock]

/-! ## Steps keep the order -/

theorem Orderly.resolve (h : Orderly conn transport) (now : Int) (index : Nat) :
    Orderly conn (transport.resolve now index) := by
  obtain ⟨hregistry, hsockets, _, hwork | ⟨writer, backlog, job, hold, hwriter, hwork⟩⟩ :=
    resolve_cases transport now index
  · refine h.of_same (hregistry ▸ h.coherent) (by rw [hregistry]) ?_ hwork
    simp only [socket?, hsockets]
  · have hsocket : (transport.resolve now index).socket? conn = transport.socket? conn := by
      simp only [socket?, hsockets]
    have hwrites : ∀ other job left, (transport.resolve now index).Writes other job left ↔
        transport.Writes other job left := fun _ _ _ => writes_resolve transport now index
    refine ⟨hregistry ▸ h.coherent, ?_, ?_, ?_, ?_, ?_, ?_⟩
    · intro hknown
      rw [hsocket]
      exact h.opened (hregistry ▸ hknown)
    · intro hjob
      rw [hregistry]
      obtain ⟨job, hmem, rfl⟩ := hjob
      rcases jobs_resolve hmem with hold | hdest
      · exact h.known ⟨job, hold, rfl⟩
      · exact Or.inl (h.coherent.writerFor_some hdest).1
    · intro other found left socket hw hc hs
      exact h.queued other found left socket ((hwrites _ _ _).mp hw) hc (hsocket ▸ hs)
    · intro socket holder hs hholder
      rcases h.busy socket holder (hsocket ▸ hs) hholder with hcloser | ⟨k, found, left, hk, hw, hc⟩
      · exact Or.inl hcloser
      · exact Or.inr ⟨k, found, left, hk, (hwrites _ _ _).mpr hw, hc⟩
    · intro other found left hw hc
      exact h.unfinished other found left ((hwrites _ _ _).mp hw) hc
    · intro other found left socket hw hc hleft hs
      exact h.midway other found left socket ((hwrites _ _ _).mp hw) hc hleft (hsocket ▸ hs)

/-- The socket of a connection is what it was, or the changed one of what it was. -/
theorem socket?_was {changed : ConnId} {change : Socket → Socket} {socket : Socket}
    (hafter : after.socket? conn =
      if conn = changed then (transport.socket? conn).map change else transport.socket? conn)
    (hsocket : after.socket? conn = some socket) :
    ∃ old, transport.socket? conn = some old ∧
      ((conn ≠ changed ∧ socket = old) ∨ (conn = changed ∧ socket = change old)) := by
  rw [hafter] at hsocket
  split at hsocket
  · rename_i hconn
    obtain ⟨old, hfound, rfl⟩ := Option.map_eq_some_iff.mp hsocket
    exact ⟨old, hfound, Or.inr ⟨hconn, rfl⟩⟩
  · rename_i hconn
    exact ⟨socket, hsocket, Or.inl ⟨hconn, rfl⟩⟩

theorem bytes_ne_nil (job : Job) : job.bytes ≠ [] :=
  job.message.frame.encode_ne_nil

theorem Orderly.take (h : Orderly conn transport) (index : Nat) :
    Orderly conn (transport.take index) := by
  rcases take_cases transport index with hsame | ⟨job, rest, hold⟩
  · rwa [hsame]
  obtain ⟨hregistry, _, hsocket, deadline, hwork⟩ := take_idle hold
  have hidle : ∀ found left, ¬transport.Writes index found left := by
    rintro found left ⟨_, _, hw⟩
    rw [hold] at hw
    cases hw
  refine ⟨hregistry ▸ h.coherent, ?_, ?_, ?_, ?_, ?_, ?_⟩
  · intro hknown
    have hopen := h.opened (hregistry ▸ hknown)
    rw [hsocket]
    split
    · rwa [Option.isSome_map]
    · exact hopen
  · intro hjob
    rw [hregistry]
    exact h.known (hjob.of_jobs fun _ => jobs_take)
  · intro other found left socket hw hc hs
    rcases (writes_update hwork).mp hw with ⟨rfl, _, heq⟩ | ⟨_, hw⟩
    · cases heq
      rw [hsocket, if_pos hc.symm] at hs
      obtain ⟨old, _, rfl⟩ := Option.map_eq_some_iff.mp hs
      exact Socket.mem_ask.mpr (Or.inr rfl)
    · obtain ⟨old, hfound, ⟨_, rfl⟩ | ⟨_, rfl⟩⟩ := socket?_was (hsocket conn) hs
      · exact h.queued other found left _ hw hc hfound
      · exact Socket.mem_ask.mpr (Or.inl (h.queued other found left _ hw hc hfound))
  · intro socket holder hs hholder
    have hold' : ∀ old, transport.socket? conn = some old → holder ∈ old.lock →
        holder = .closer ∨ ∃ k found left, holder = .lane k ∧
          (transport.take index).Writes k found left ∧ found.conn = conn := by
      intro old hfound hmem
      rcases h.busy old holder hfound hmem with hcloser | ⟨k, found, left, hk, hw, hc⟩
      · exact Or.inl hcloser
      · have hne : k ≠ index := fun heq => hidle found left (heq ▸ hw)
        exact Or.inr ⟨k, found, left, hk, (writes_update hwork).mpr (Or.inr ⟨hne, hw⟩), hc⟩
    obtain ⟨old, hfound, ⟨_, rfl⟩ | ⟨hconn, rfl⟩⟩ := socket?_was (hsocket conn) hs
    · exact hold' _ hfound hholder
    · rcases Socket.mem_ask.mp hholder with hmem | hnew
      · exact hold' _ hfound hmem
      · exact Or.inr ⟨index, job, job.bytes, hnew,
          (writes_update hwork).mpr (Or.inl ⟨rfl, deadline, rfl⟩), hconn.symm⟩
  · intro other found left hw hc
    rcases (writes_update hwork).mp hw with ⟨rfl, _, heq⟩ | ⟨_, hw⟩
    · cases heq
      exact bytes_ne_nil _
    · exact h.unfinished other found left hw hc
  · intro other found left socket hw hc hleft hs
    rcases (writes_update hwork).mp hw with ⟨rfl, _, heq⟩ | ⟨_, hw⟩
    · cases heq
      exact absurd rfl hleft
    · obtain ⟨old, hfound, ⟨_, rfl⟩ | ⟨_, rfl⟩⟩ := socket?_was (hsocket conn) hs
      · exact h.midway other found left _ hw hc hleft hfound
      · exact Socket.head?_ask (h.midway other found left _ hw hc hleft hfound)

/-- A writer that gives up its job gives up its place in the queue for the lock. -/
theorem Orderly.letGo {registry : Registry} {job : Job} {deadline : Nat} {backlog : List Job}
    (h : Orderly conn transport)
    (hold : transport.outbox.work? index = some (.busy job left deadline, backlog))
    (hregistry : after.registry = registry) (hcoherent : registry.Coherent)
    (hknows : registry.Knows conn ↔ transport.registry.Knows conn)
    (hsocket : after.socket? conn =
      if conn = job.conn then (transport.socket? conn).map (·.release (.lane index))
      else transport.socket? conn)
    (hwork : after.outbox.work? = fun other =>
      if other = index then some (.idle, backlog) else transport.outbox.work? other) :
    Orderly conn after := by
  have hwrites : ∀ other found left, after.Writes other found left →
      other ≠ index ∧ transport.Writes other found left := by
    intro other found left hw
    rcases (writes_update hwork).mp hw with ⟨_, _, heq⟩ | hw
    · cases heq
    · exact hw
  refine ⟨hregistry ▸ hcoherent, ?_, ?_, ?_, ?_, ?_, ?_⟩
  · intro hknown
    have hopen := h.opened (hknows.mp (hregistry ▸ hknown))
    rw [hsocket]
    split
    · rwa [Option.isSome_map]
    · exact hopen
  · intro hjob
    rw [hregistry]
    refine hknows.mpr (h.known (hjob.of_jobs fun found hmem => ?_))
    rcases mem_jobs_of_update hwork hmem with (hfound | hfound) | hkept
    · cases hfound
    · exact Outbox.mem_jobs.mpr ⟨index, _, _, hold, Or.inr hfound⟩
    · exact hkept
  · intro other found left socket hw hc hs
    obtain ⟨hne, hw⟩ := hwrites other found left hw
    obtain ⟨old, hfound, ⟨_, rfl⟩ | ⟨_, rfl⟩⟩ := socket?_was hsocket hs
    · exact h.queued other found left _ hw hc hfound
    · refine Socket.mem_release.mpr ⟨h.queued other found left _ hw hc hfound, ?_⟩
      exact fun heq => hne (Holder.lane.inj heq)
  · intro socket holder hs hholder
    have hkept : ∀ old, transport.socket? conn = some old → holder ∈ old.lock →
        (conn = job.conn → holder ≠ .lane index) →
        holder = .closer ∨ ∃ k found left, holder = .lane k ∧
          after.Writes k found left ∧ found.conn = conn := by
      intro old hfound hmem hne
      rcases h.busy old holder hfound hmem with hcloser | ⟨k, found, left, rfl, hw, hc⟩
      · exact Or.inl hcloser
      · have hk : k ≠ index := by
          rintro rfl
          obtain ⟨rfl, _⟩ := hw.eq_of_busy hold
          exact hne hc.symm rfl
        exact Or.inr ⟨k, found, left, rfl, (writes_update hwork).mpr (Or.inr ⟨hk, hw⟩), hc⟩
    obtain ⟨old, hfound, ⟨hconn, rfl⟩ | ⟨_, rfl⟩⟩ := socket?_was hsocket hs
    · exact hkept _ hfound hholder fun heq => absurd heq hconn
    · obtain ⟨hmem, hne⟩ := Socket.mem_release.mp hholder
      exact hkept _ hfound hmem fun _ => hne
  · intro other found left hw hc
    exact h.unfinished other found left (hwrites other found left hw).2 hc
  · intro other found left socket hw hc hleft hs
    obtain ⟨hne, hw⟩ := hwrites other found left hw
    obtain ⟨old, hfound, ⟨_, rfl⟩ | ⟨_, rfl⟩⟩ := socket?_was hsocket hs
    · exact h.midway other found left _ hw hc hleft hfound
    · exact Socket.head?_release (h.midway other found left _ hw hc hleft hfound)
        fun heq => hne (Holder.lane.inj heq)

theorem Orderly.failJob {job : Job} {deadline : Nat} {backlog : List Job}
    (h : Orderly conn transport)
    (hold : transport.outbox.work? index = some (.busy job left deadline, backlog)) :
    Orderly conn (transport.failJob index job) := by
  obtain ⟨hregistry, _, hsocket, hwork⟩ := failJob_busy hold
  exact h.letGo hold hregistry (h.coherent.shrink (Registry.removeConn_shrinks _ _))
    ((h.coherent.keyed.removeConn_releases job.conn).knows conn) (hsocket conn) hwork

theorem Orderly.expire (h : Orderly conn transport) (index : Nat) :
    Orderly conn (transport.expire index) := by
  rcases expire_cases transport index with hsame | ⟨job, left, deadline, backlog, hold, _, hfail⟩
  · rwa [hsame]
  · rw [hfail]
    exact h.failJob hold

/-- A writer that goes on with its job has the lock, so nobody's place changes. -/
theorem Orderly.goOn {job : Job} {rest : Bytes} {deadline : Nat} {backlog : List Job}
    (h : Orderly conn transport)
    (hold : transport.outbox.work? index = some (.busy job left deadline, backlog))
    (hhead : ∀ socket, job.conn = conn → transport.socket? conn = some socket →
      socket.lock.head? = some (.lane index))
    (hregistry : after.registry = transport.registry)
    (hsocket : after.socket? conn = transport.socket? conn) (hrest : rest ≠ [])
    (hwork : after.outbox.work? = fun other =>
      if other = index then some (.busy job rest deadline, backlog)
      else transport.outbox.work? other) :
    Orderly conn after := by
  have hwas : ∀ other found remaining, after.Writes other found remaining →
      (other = index ∧ found = job ∧ remaining = rest ∧ transport.Writes index job left) ∨
      transport.Writes other found remaining := by
    intro other found remaining hw
    rcases (writes_update hwork).mp hw with ⟨rfl, _, heq⟩ | ⟨_, hw⟩
    · cases heq
      exact Or.inl ⟨rfl, rfl, rfl, deadline, backlog, hold⟩
    · exact Or.inr hw
  refine ⟨hregistry ▸ h.coherent, ?_, ?_, ?_, ?_, ?_, ?_⟩
  · intro hknown
    rw [hsocket]
    exact h.opened (hregistry ▸ hknown)
  · intro hjob
    rw [hregistry]
    refine h.known (hjob.of_jobs fun found hmem => ?_)
    rcases mem_jobs_of_update hwork hmem with hfound | hkept
    · exact Outbox.mem_jobs.mpr ⟨index, _, _, hold, hfound⟩
    · exact hkept
  · intro other found remaining socket hw hc hs
    rcases hwas other found remaining hw with ⟨rfl, rfl, _, hw⟩ | hw
    · exact h.queued other found left socket hw hc (hsocket ▸ hs)
    · exact h.queued other found remaining socket hw hc (hsocket ▸ hs)
  · intro socket holder hs hholder
    rcases h.busy socket holder (hsocket ▸ hs) hholder with
      hcloser | ⟨k, found, remaining, hk, hw, hc⟩
    · exact Or.inl hcloser
    · refine Or.inr ⟨k, found, ?_⟩
      by_cases hindex : k = index
      · subst hindex
        obtain ⟨rfl, _⟩ := hw.eq_of_busy hold
        exact ⟨rest, hk, (writes_update hwork).mpr (Or.inl ⟨rfl, deadline, rfl⟩), hc⟩
      · exact ⟨remaining, hk, (writes_update hwork).mpr (Or.inr ⟨hindex, hw⟩), hc⟩
  · intro other found remaining hw hc
    rcases hwas other found remaining hw with ⟨rfl, rfl, rfl, _⟩ | hw
    · exact hrest
    · exact h.unfinished other found remaining hw hc
  · intro other found remaining socket hw hc hnew hs
    rcases hwas other found remaining hw with ⟨rfl, rfl, rfl, _⟩ | hw
    · exact hhead socket hc (hsocket ▸ hs)
    · exact h.midway other found remaining socket hw hc hnew (hsocket ▸ hs)

theorem Orderly.write (h : Orderly conn transport) (index : Nat) :
    Orderly conn (transport.write index) := by
  cases hwritable : transport.writable? index with
  | none =>
      rcases write_none hwritable with hsame | ⟨job, left, deadline, backlog, _, hold, _, _, hfail⟩
      · rwa [hsame]
      · rw [hfail]
        exact h.failJob hold
  | some found =>
      obtain ⟨job, left, bytes⟩ := found
      obtain ⟨deadline, backlog, socket, hold, hfound, hhead, _, _, hregistry, _, rest, hleft,
        hsocket, hwork⟩ := write_some hwritable
      -- the bytes are put first, which changes no lock; then the job is done or goes on
      have hput := h.of_same_lock job.conn
        (fun socket => { socket with unread := socket.unread ++ bytes }) fun _ => rfl
      by_cases hrest : rest = []
      · subst hrest
        simp only [if_true] at hsocket hwork
        refine hput.letGo hold hregistry h.coherent Iff.rfl ?_ hwork
        rw [hsocket, socket?_onSocket]
        by_cases hconn : conn = job.conn
        · simp [hconn, hfound]
        · simp [hconn]
      · simp only [hrest, if_false] at hsocket hwork
        refine hput.goOn hold ?_ hregistry ?_ hrest hwork
        · intro other hconn hother
          rw [socket?_onSocket, ← hconn, if_pos rfl, hfound, Option.map_some] at hother
          cases hother
          exact hhead
        · rw [hsocket, socket?_onSocket]
          by_cases hconn : conn = job.conn
          · simp [hconn, hfound]
          · simp [hconn]

theorem Orderly.shut (h : Orderly conn transport) (changed : ConnId) :
    Orderly conn (transport.shut changed) := by
  unfold Transport.shut
  split
  · rename_i socket hsocket
    split
    · exact h.of_socket changed (fun socket => socket.shutWrite.release .closer)
        (fun socket index => by simp [Socket.mem_release, Socket.shutWrite])
        (fun socket holder hmem => Or.inl (Socket.mem_release.mp hmem).1)
        fun socket index hhead =>
          Socket.head?_release (show socket.shutWrite.lock.head? = _ from hhead) (by simp)
    · exact h
  · exact h

/-- A new socket has an empty queue, and no job leads to it yet. -/
theorem Orderly.openSocket (h : Orderly conn transport) (capacity : Nat)
    (promote : Registry → ConnId → Registry)
    (hcoherent : ∀ (registry : Registry) other, registry.Coherent →
      (promote registry other).Coherent)
    (hlearns : ∀ (registry : Registry) other, registry.Learns other (promote registry other)) :
    Orderly conn (transport.openSocket capacity promote) := by
  unfold Transport.openSocket
  dsimp only
  split
  · exact h
  rename_i hfree
  have htaken : transport.registry.takeConn.2.Coherent := h.coherent.of_same_sets rfl rfl rfl rfl
  have hknows := (hlearns transport.registry.takeConn.2 transport.registry.takeConn.1).knows conn
  by_cases hconn : conn = transport.registry.takeConn.1
  · rw [← hconn] at hfree
    have hnojob : ¬transport.HasJob conn := fun hjob => hfree (h.opened (h.known hjob))
    have hidle : ∀ index job left, transport.Writes index job left → job.conn ≠ conn :=
      fun index job left hw heq => hnojob (heq ▸ hw.hasJob)
    refine ⟨hcoherent _ _ htaken, ?_, ?_, ?_, ?_, ?_, ?_⟩
    · intro _
      rw [socket?_addSocket, if_pos hconn]
      rfl
    · exact fun hjob => absurd hjob hnojob
    · exact fun index job left socket hw hc => absurd hc (hidle index job left hw)
    · intro socket holder hs hholder
      rw [socket?_addSocket, if_pos hconn] at hs
      cases hs
      cases hholder
    · exact fun index job left hw hc => absurd hc (hidle index job left hw)
    · exact fun index job left socket hw hc => absurd hc (hidle index job left hw)
  · refine h.of_same (hcoherent _ _ htaken) ?_ ?_ rfl
    · exact hknows.trans (or_iff_left hconn)
    · rw [socket?_addSocket, if_neg hconn]
      rfl

theorem Orderly.stop (h : Orderly conn transport) : Orderly conn transport.stop := by
  have hwrites : ∀ index job left, transport.stop.Writes index job left ↔
      transport.Writes index job left := fun _ _ _ => writes_stop transport
  refine ⟨h.coherent, h.opened, ?_, ?_, ?_, ?_, ?_⟩
  · exact fun hjob => h.known (hjob.of_jobs fun _ => jobs_stop)
  · exact fun index job left socket hw => h.queued index job left socket ((hwrites _ _ _).mp hw)
  · intro socket holder hs hholder
    rcases h.busy socket holder hs hholder with hcloser | ⟨k, found, left, hk, hw, hc⟩
    · exact Or.inl hcloser
    · exact Or.inr ⟨k, found, left, hk, (hwrites _ _ _).mpr hw, hc⟩
  · exact fun index job left hw => h.unfinished index job left ((hwrites _ _ _).mp hw)
  · exact fun index job left socket hw => h.midway index job left socket ((hwrites _ _ _).mp hw)

theorem Orderly.act (h : Orderly conn transport) (action : Action) :
    Orderly conn (transport.act action) := by
  cases action with
  | send message => exact h.of_same h.coherent Iff.rfl rfl (funext fun _ => Outbox.work?_send _)
  | distribute => exact h.of_same h.coherent Iff.rfl rfl (funext fun _ => Outbox.work?_distribute)
  | resolve now index => exact h.resolve now index
  | take index => exact h.take index
  | write index => exact h.write index
  | expire index => exact h.expire index
  | askShut changed =>
      unfold Transport.act askShut
      dsimp only
      split
      · exact h.of_socket changed _ (fun socket index => by simp [Socket.mem_ask])
          (fun socket holder hmem => Socket.mem_ask.mp hmem)
          fun socket index hhead => Socket.head?_ask hhead
      · exact h
  | shut changed => exact h.shut changed
  | read changed most =>
      unfold Transport.act read
      dsimp only
      split
      · exact h
      · rename_i socket hsocket
        by_cases hconn : conn = changed
        · subst hconn
          have hsame := h.of_same_lock conn (fun socket => (socket.read most).1) fun _ => rfl
          refine hsame.of_same h.coherent Iff.rfl ?_ rfl
          simp only [socket?_onSocket, if_true, hsocket, Option.map_some]
        · refine h.of_same h.coherent Iff.rfl ?_ rfl
          rw [socket?_onSocket, if_neg hconn]
  | hangUp changed => exact h.of_same_lock changed _ fun _ => rfl
  | tick duration => exact h.of_same h.coherent Iff.rfl rfl rfl
  | stop => exact h.stop
  | dial now node capacity =>
      exact h.openSocket capacity (fun registry conn => (registry.promoteToOutbound now node conn).1)
        (fun registry other hcoherent => hcoherent.perform
          (show registry.namesDialed (.promoteToOutbound now node other) = true from rfl))
        fun registry other => Registry.promoteToOutbound_learns registry now node other
  | accept now capacity =>
      exact h.openSocket capacity (fun registry conn => (registry.promoteToInbound now conn).1)
        (fun registry other hcoherent => hcoherent.perform
          (show registry.namesDialed (.promoteToInbound now other) = true from rfl))
        fun registry other => Registry.promoteToInbound_learns registry now other
  | cancel changed =>
      unfold Transport.act
      dsimp only
      split
      · rename_i hholds
        refine h.of_same (Registry.cancel_coherent h.coherent) ?_ rfl rfl
        exact (Registry.cancel_releases (Or.inl hholds)).knows conn
      · exact h
  | manage move =>
      unfold Transport.act
      dsimp only
      split
      · rename_i hmove
        obtain ⟨hoffer, hnames⟩ := Bool.and_eq_true_iff.mp hmove
        exact h.of_same (h.coherent.perform hnames)
          ((h.coherent.keyed.perform_releases (Option.isNone_iff_eq_none.mp hoffer)).knows conn) rfl rfl
      · exact h

end Transport

end Peering
