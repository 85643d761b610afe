import Peering.Proofs.Delivery.Order

/-!
# What no action takes back

A broken socket stays broken, a closed connection stays closed, and the closing
task that has the lock keeps it until the socket is shut.
-/

namespace Peering

namespace Transport

variable {transport : Transport} {index : Nat} {conn : ConnId} {job : Job} {left : Bytes}

/-- A socket keeps its size, stays broken, and stays with its closing task until it is shut. -/
def Endures (before after : Option Socket) : Prop :=
  ∀ socket, before = some socket → ∃ next, after = some next ∧ next.capacity = socket.capacity ∧
    (socket.isBroken = true → next.isBroken = true) ∧
    (socket.lock.head? = some .closer → next.lock.head? = some .closer ∨ next.isBroken = true)

theorem Endures.refl (before : Option Socket) : Endures before before :=
  fun socket hsocket => ⟨socket, hsocket, rfl, id, Or.inl⟩

theorem endures_onSocket (transport : Transport) (changed : ConnId) (change : Socket → Socket)
    (hchange : ∀ socket, transport.socket? changed = some socket →
      Endures (some socket) (some (change socket))) :
    Endures (transport.socket? conn) ((transport.onSocket changed change).socket? conn) := by
  rw [socket?_onSocket]
  split
  · rename_i hconn
    intro socket hsocket
    rw [hsocket]
    exact hchange socket (hconn ▸ hsocket) socket rfl
  · exact Endures.refl _

theorem endures_ask (socket : Socket) (holder : Holder) :
    Endures (some socket) (some (socket.ask holder)) := by
  rintro _ ⟨⟩
  exact ⟨_, rfl, Socket.ask_capacity, fun h => Socket.ask_isBroken.trans h,
    fun h => Or.inl (Socket.head?_ask h)⟩

theorem endures_release (socket : Socket) (index : Nat) :
    Endures (some socket) (some (socket.release (.lane index))) := by
  rintro _ ⟨⟩
  exact ⟨_, rfl, rfl, id, fun h => Or.inl (Socket.head?_release h (by simp))⟩

theorem endures_openSocket (transport : Transport) (capacity : Nat)
    (promote : Registry → ConnId → Registry) :
    Endures (transport.socket? conn) ((transport.openSocket capacity promote).socket? conn) := by
  unfold openSocket
  dsimp only
  split
  · exact Endures.refl _
  rename_i hfree
  rw [socket?_addSocket]
  split
  · rename_i hconn
    intro socket hsocket
    rw [← hconn, hsocket] at hfree
    exact absurd rfl hfree
  · exact Endures.refl _

theorem endures_write (transport : Transport) (index : Nat) :
    Endures (transport.socket? conn) ((transport.write index).socket? conn) := by
  cases hwritable : transport.writable? index with
  | none =>
      rcases write_none hwritable with hsame | ⟨job, _, _, _, _, hold, _, _, hfail⟩
      · rw [hsame]
        exact Endures.refl _
      · obtain ⟨_, _, hsocket, _⟩ := failJob_busy hold
        rw [hfail, hsocket, ← socket?_onSocket]
        exact endures_onSocket transport job.conn _ fun socket _ => endures_release socket index
  | some found =>
      obtain ⟨job, left, bytes⟩ := found
      obtain ⟨_, _, socket, _, hfound, hhead, _, _, _, _, rest, _, hsocket, _⟩ :=
        write_some hwritable
      rw [hsocket]
      split
      · rename_i hconn
        rw [hconn, hfound]
        rintro _ ⟨⟩
        refine ⟨_, rfl, ?_, ?_, ?_⟩
        · split <;> rfl
        · intro hbroken
          split <;> exact hbroken
        · intro hcloser
          rw [hhead] at hcloser
          cases hcloser
      · exact Endures.refl _

theorem endures_act (transport : Transport) (conn : ConnId) (action : Action) :
    Endures (transport.socket? conn) ((transport.act action).socket? conn) := by
  cases action with
  | send message => exact Endures.refl _
  | distribute => exact Endures.refl _
  | resolve now index =>
      obtain ⟨_, hsockets, _⟩ := resolve_cases transport now index
      simp only [act, socket?, hsockets]
      exact Endures.refl _
  | take index =>
      rcases take_cases transport index with hsame | ⟨job, rest, hold⟩
      · rw [act, hsame]
        exact Endures.refl _
      · obtain ⟨_, _, hsocket, _⟩ := take_idle hold
        rw [act, hsocket, ← socket?_onSocket]
        exact endures_onSocket transport job.conn _ fun socket _ => endures_ask socket _
  | write index => exact endures_write transport index
  | expire index =>
      rcases expire_cases transport index with hsame | ⟨job, _, _, _, hold, _, hfail⟩
      · rw [act, hsame]
        exact Endures.refl _
      · obtain ⟨_, _, hsocket, _⟩ := failJob_busy hold
        rw [act, hfail, hsocket, ← socket?_onSocket]
        exact endures_onSocket transport job.conn _ fun socket _ => endures_release socket index
  | askShut changed =>
      unfold act askShut
      dsimp only
      split
      · exact endures_onSocket transport changed _ fun socket _ => endures_ask socket _
      · exact Endures.refl _
  | shut changed =>
      unfold act Transport.shut
      dsimp only
      split
      · split
        · refine endures_onSocket transport changed _ fun socket _ => ?_
          rintro _ ⟨⟩
          exact ⟨_, rfl, rfl, by simp [Socket.isBroken, Socket.release, Socket.shutWrite],
            by simp [Socket.isBroken, Socket.release, Socket.shutWrite]⟩
        · exact Endures.refl _
      · exact Endures.refl _
  | read changed most =>
      unfold act read
      dsimp only
      split
      · exact Endures.refl _
      · rename_i socket hsocket
        refine endures_onSocket transport changed _ fun found hfound => ?_
        rw [hsocket] at hfound
        cases hfound
        rintro _ ⟨⟩
        exact ⟨_, rfl, rfl, id, Or.inl⟩
  | hangUp changed =>
      refine endures_onSocket transport changed _ fun socket _ => ?_
      rintro _ ⟨⟩
      exact ⟨_, rfl, rfl, by simp [Socket.isBroken, Socket.hangUp], Or.inl⟩
  | tick duration => exact Endures.refl _
  | stop => exact Endures.refl _
  | dial now node capacity => exact endures_openSocket transport _ _
  | accept now capacity => exact endures_openSocket transport _ _
  | cancel changed =>
      unfold act
      dsimp only
      split <;> exact Endures.refl _
  | manage move =>
      unfold act
      dsimp only
      split <;> exact Endures.refl _

theorem isClosed_failJob {deadline : Nat} {backlog : List Job}
    (hold : transport.outbox.work? index = some (.busy job left deadline, backlog))
    (hclosed : transport.registry.isClosed conn = true) :
    (transport.failJob index job).registry.isClosed conn = true := by
  rw [(failJob_busy hold).1]
  exact Registry.isClosed_removeConn_of_isClosed hclosed

theorem isClosed_openSocket (transport : Transport) (capacity : Nat)
    (promote : Registry → ConnId → Registry)
    (hlearns : ∀ (registry : Registry) other, registry.Learns other (promote registry other))
    (hclosed : transport.registry.isClosed conn = true) :
    (transport.openSocket capacity promote).registry.isClosed conn = true := by
  unfold openSocket
  dsimp only
  split
  · exact hclosed
  · exact (hlearns _ _).closed conn hclosed

theorem isClosed_act (action : Action) (hclosed : transport.registry.isClosed conn = true) :
    (transport.act action).registry.isClosed conn = true := by
  cases action with
  | resolve now index => rwa [Transport.act, (resolve_cases transport now index).1]
  | take index =>
      rcases take_cases transport index with hsame | ⟨job, rest, hold⟩
      · rwa [Transport.act, hsame]
      · rwa [Transport.act, (take_idle hold).1]
  | write index =>
      cases hwritable : transport.writable? index with
      | none =>
          rcases write_none hwritable with hsame | ⟨job, _, _, _, _, hold, _, _, hfail⟩
          · rwa [Transport.act, hsame]
          · rw [Transport.act, hfail]
            exact isClosed_failJob hold hclosed
      | some found =>
          obtain ⟨_, _, _, _, _, _, _, _, hregistry, _⟩ := write_some hwritable
          rwa [Transport.act, hregistry]
  | expire index =>
      rcases expire_cases transport index with hsame | ⟨job, _, _, _, hold, _, hfail⟩
      · rwa [Transport.act, hsame]
      · rw [Transport.act, hfail]
        exact isClosed_failJob hold hclosed
  | askShut changed =>
      unfold Transport.act askShut
      dsimp only
      split <;> exact hclosed
  | shut changed =>
      unfold Transport.act Transport.shut
      dsimp only
      split
      · split <;> exact hclosed
      · exact hclosed
  | read changed most =>
      unfold Transport.act read
      dsimp only
      split <;> exact hclosed
  | dial now node capacity =>
      exact isClosed_openSocket transport capacity _
        (fun registry other => Registry.promoteToOutbound_learns registry now node other) hclosed
  | accept now capacity =>
      exact isClosed_openSocket transport capacity _
        (fun registry other => Registry.promoteToInbound_learns registry now other) hclosed
  | cancel changed =>
      unfold Transport.act
      dsimp only
      split
      · exact Registry.isClosed_cancel.mpr (Or.inl hclosed)
      · exact hclosed
  | manage move =>
      unfold Transport.act
      dsimp only
      split
      · exact Registry.isClosed_perform_of_isClosed move hclosed
      · exact hclosed
  | _ => exact hclosed

/-- A job was there, or its destination leads to its connection. -/
theorem jobs_act {action : Action} (hjob : job ∈ (transport.act action).outbox.jobs) :
    job ∈ transport.outbox.jobs ∨
      transport.registry.writerFor job.message.dest = some job.conn := by
  cases action with
  | resolve now index => exact jobs_resolve hjob
  | send message => exact Or.inl ((mem_jobs_congr (funext fun _ => Outbox.work?_send _)).mp hjob)
  | distribute => exact Or.inl ((mem_jobs_congr (funext fun _ => Outbox.work?_distribute)).mp hjob)
  | take index => exact Or.inl (jobs_take hjob)
  | write index => exact Or.inl (jobs_write hjob)
  | expire index =>
      rcases expire_cases transport index with hsame | ⟨given, _, _, _, hold, _, hfail⟩
      · rw [Transport.act, hsame] at hjob
        exact Or.inl hjob
      · rw [Transport.act, hfail] at hjob
        exact Or.inl (jobs_failJob hold hjob)
  | askShut changed =>
      unfold Transport.act askShut at hjob
      dsimp only at hjob
      split at hjob <;> exact Or.inl hjob
  | shut changed =>
      unfold Transport.act Transport.shut at hjob
      dsimp only at hjob
      split at hjob
      · split at hjob <;> exact Or.inl hjob
      · exact Or.inl hjob
  | read changed most =>
      unfold Transport.act read at hjob
      dsimp only at hjob
      split at hjob <;> exact Or.inl hjob
  | stop => exact Or.inl (jobs_stop hjob)
  | dial now node capacity =>
      unfold Transport.act Transport.openSocket at hjob
      dsimp only at hjob
      split at hjob <;> exact Or.inl hjob
  | accept now capacity =>
      unfold Transport.act Transport.openSocket at hjob
      dsimp only at hjob
      split at hjob <;> exact Or.inl hjob
  | cancel changed =>
      unfold Transport.act at hjob
      dsimp only at hjob
      split at hjob <;> exact Or.inl hjob
  | manage move =>
      unfold Transport.act at hjob
      dsimp only at hjob
      split at hjob <;> exact Or.inl hjob
  | _ => exact Or.inl hjob

/-- A closed connection gets no new job. -/
theorem Orderly.hasJob_act (h : Orderly conn transport) {action : Action}
    (hclosed : transport.registry.isClosed conn = true)
    (hjob : (transport.act action).HasJob conn) : transport.HasJob conn := by
  obtain ⟨job, hmem, rfl⟩ := hjob
  rcases jobs_act hmem with hold | hdest
  · exact ⟨job, hold, rfl⟩
  · have hopen := (h.coherent.writerFor_some hdest).2
    rw [hclosed] at hopen
    cases hopen

/-- A job that has been begun stays in hand, except when its own writer goes on or gives up. -/
theorem writes_act {action : Action} (hleft : left ≠ job.bytes)
    (hwrite : ∀ other, action ≠ .write other) (hexpire : ∀ other, action ≠ .expire other) :
    (transport.act action).Writes index job left ↔ transport.Writes index job left := by
  cases action with
  | send message => exact writes_congr (funext fun _ => Outbox.work?_send _)
  | distribute => exact writes_congr (funext fun _ => Outbox.work?_distribute)
  | resolve now other => exact writes_resolve transport now other
  | take other => exact writes_take transport other hleft
  | write other => exact absurd rfl (hwrite other)
  | expire other => exact absurd rfl (hexpire other)
  | askShut changed =>
      unfold act askShut
      dsimp only
      split <;> exact Iff.rfl
  | shut changed =>
      unfold act Transport.shut
      dsimp only
      split
      · split <;> exact Iff.rfl
      · exact Iff.rfl
  | read changed most =>
      unfold act read
      dsimp only
      split <;> exact Iff.rfl
  | stop => exact writes_stop transport
  | dial now node capacity =>
      unfold act openSocket
      dsimp only
      split <;> exact Iff.rfl
  | accept now capacity =>
      unfold act openSocket
      dsimp only
      split <;> exact Iff.rfl
  | cancel changed =>
      unfold act
      dsimp only
      split <;> exact Iff.rfl
  | manage move =>
      unfold act
      dsimp only
      split <;> exact Iff.rfl
  | _ => exact Iff.rfl

/-- Only the writing of a job makes it a job that has been begun. -/
theorem Writes.of_act {action : Action} (hleft : left ≠ job.bytes)
    (hwrite : ∀ other, action ≠ .write other)
    (hw : (transport.act action).Writes index job left) : transport.Writes index job left := by
  by_cases hexpire : ∃ other, action = .expire other
  · obtain ⟨other, rfl⟩ := hexpire
    rcases expire_cases transport other with hsame | ⟨given, _, _, _, hold, _, hfail⟩
    · rwa [Transport.act, hsame] at hw
    · rw [Transport.act, hfail] at hw
      exact ((writes_failJob hold).mp hw).2
  · exact (writes_act hleft hwrite fun other heq => hexpire ⟨other, heq⟩).mp hw

/-! ## Bytes that wait for the peer -/

/-- What has been written to a connection and not been read. -/
def unread (transport : Transport) (conn : ConnId) : Bytes :=
  ((transport.socket? conn).map (·.unread)).getD []

theorem unread_congr {after : Transport} (hsocket : after.socket? conn = transport.socket? conn) :
    after.unread conn = transport.unread conn := by
  rw [unread, unread, hsocket]

theorem unread_onSocket (transport : Transport) (changed : ConnId) {change : Socket → Socket}
    (hchange : ∀ socket, (change socket).unread = socket.unread) :
    (transport.onSocket changed change).unread conn = transport.unread conn := by
  unfold unread
  rw [socket?_onSocket]
  split
  · simp [Option.map_map, Function.comp_def, hchange]
  · rfl

theorem unread_failJob {deadline : Nat} {backlog : List Job}
    (hold : transport.outbox.work? index = some (.busy job left deadline, backlog)) :
    (transport.failJob index job).unread conn = transport.unread conn := by
  obtain ⟨_, _, hsocket, _⟩ := failJob_busy hold
  refine (unread_congr ?_).trans
    (unread_onSocket transport job.conn fun socket => (rfl : (socket.release (.lane index)).unread = _))
  rw [hsocket, socket?_onSocket]

theorem unread_openSocket (transport : Transport) (capacity : Nat)
    (promote : Registry → ConnId → Registry) :
    (transport.openSocket capacity promote).unread conn = transport.unread conn := by
  unfold openSocket
  dsimp only
  split
  · rfl
  rename_i hfree
  unfold unread
  rw [socket?_addSocket]
  split
  · rename_i hconn
    rw [Option.not_isSome_iff_eq_none, ← hconn] at hfree
    rw [hfree]
    rfl
  · rfl

/-- Only a writer adds bytes, and only the peer takes them. -/
theorem unread_act {action : Action} (hwrite : ∀ index, action ≠ .write index)
    (hread : ∀ most, action ≠ .read conn most) :
    (transport.act action).unread conn = transport.unread conn := by
  cases action with
  | resolve now index =>
      obtain ⟨_, hsockets, _⟩ := resolve_cases transport now index
      simp only [act, unread, socket?, hsockets]
  | take index =>
      rcases take_cases transport index with hsame | ⟨job, rest, hold⟩
      · rw [act, hsame]
      · obtain ⟨_, _, hsocket, _⟩ := take_idle hold
        refine (unread_congr ?_).trans (unread_onSocket transport job.conn
          fun socket => (Socket.ask_unread : (socket.ask (.lane index)).unread = _))
        rw [act, hsocket, socket?_onSocket]
  | write index => exact absurd rfl (hwrite index)
  | expire index =>
      rcases expire_cases transport index with hsame | ⟨job, _, _, _, hold, _, hfail⟩
      · rw [act, hsame]
      · rw [act, hfail]
        exact unread_failJob hold
  | askShut changed =>
      unfold act askShut
      dsimp only
      split
      · exact unread_onSocket transport changed fun _ => Socket.ask_unread
      · rfl
  | shut changed =>
      unfold act Transport.shut
      dsimp only
      split
      · split
        · exact unread_onSocket transport changed fun _ => rfl
        · rfl
      · rfl
  | read changed most =>
      have hconn : conn ≠ changed := fun heq => hread most (heq ▸ rfl)
      unfold act read
      dsimp only
      split
      · rfl
      · apply unread_congr
        rw [socket?_onSocket, if_neg hconn]
  | hangUp changed => exact unread_onSocket transport changed fun _ => rfl
  | dial now node capacity => exact unread_openSocket transport _ _
  | accept now capacity => exact unread_openSocket transport _ _
  | cancel changed =>
      unfold act
      dsimp only
      split <;> rfl
  | manage move =>
      unfold act
      dsimp only
      split <;> rfl
  | _ => rfl

/-- What the peer reads comes from the front. -/
theorem read_append_unread (transport : Transport) (conn : ConnId) (most : Nat) :
    (transport.read conn most).2 ++ (transport.read conn most).1.unread conn =
      transport.unread conn := by
  unfold read
  split
  · rfl
  · rename_i socket hsocket
    simp only [unread, socket?_onSocket, if_true, hsocket, Option.map_some, Option.getD_some,
      Socket.read, List.take_append_drop]

end Transport

end Peering
