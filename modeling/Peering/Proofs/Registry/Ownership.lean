import Peering.Proofs.Registry.History

/-!
# Who owns a connection

An entry of the three sets of connections owns the connection that it records. A
move hands entries on from set to set, takes in the connection that it is offered,
and releases some: what is released is closed in the same move, and nothing else is.
So a connection that was ever offered is owned once, or it is closed; closed and
owned at the same time only if it was cancelled from outside.

This holds for promotions of any peer on any connection. The sets need not be
disjoint as sets of peers for it, only every entry has to stand under its own key.
-/

namespace Peering

namespace Registry

variable {registry middle after : Registry} {now : Nat} {conn other : ConnId}
  {conns offered released : List ConnId}

/-! ## Entries and their connections -/

/-- The connection of every entry of the three sets of connections. -/
def handles (registry : Registry) : List ConnId :=
  registry.outbound.map (·.2.conn.id) ++ registry.inbound.map (·.2.conn.id) ++
    registry.active.map (·.2.conn.id)

/-- No key is used twice in a set, and a pending entry stands under its own connection. -/
structure Keyed (registry : Registry) : Prop where
  outbound_keys : registry.outbound.keys.Nodup
  inbound_keys : registry.inbound.keys.Nodup
  active_keys : registry.active.keys.Nodup
  outbound_own : ∀ conn pending, (conn, pending) ∈ registry.outbound → pending.conn.id = conn
  inbound_own : ∀ conn pending, (conn, pending) ∈ registry.inbound → pending.conn.id = conn

theorem keyed_create (self : Identity) (limits : Limits) : Keyed (Registry.create self limits) := by
  constructor <;> simp [create, Table.keys]

theorem Keyed.shrink (hkeyed : Keyed registry) (hshrinks : Shrinks registry after) :
    Keyed after where
  outbound_keys := (hshrinks.outbound.map _).nodup hkeyed.outbound_keys
  inbound_keys := (hshrinks.inbound.map _).nodup hkeyed.inbound_keys
  active_keys := (hshrinks.active.map _).nodup hkeyed.active_keys
  outbound_own := fun conn pending hmem =>
    hkeyed.outbound_own conn pending (hshrinks.outbound.subset hmem)
  inbound_own := fun conn pending hmem =>
    hkeyed.inbound_own conn pending (hshrinks.inbound.subset hmem)

theorem mem_handles : conn ∈ registry.handles ↔
    (∃ key pending, (key, pending) ∈ registry.outbound ∧ pending.conn.id = conn) ∨
    (∃ key pending, (key, pending) ∈ registry.inbound ∧ pending.conn.id = conn) ∨
    ∃ peer active, (peer, active) ∈ registry.active ∧ active.conn.id = conn := by
  simp only [handles, List.mem_append, List.mem_map, Prod.exists, or_assoc]

theorem Keyed.has_outbound (hkeyed : Keyed registry) (hnew : conn ∉ registry.handles) :
    registry.outbound.has conn = false := by
  refine Table.has_eq_false_iff.mpr fun pending hmem => hnew (mem_handles.mpr (Or.inl ?_))
  exact ⟨conn, pending, hmem, hkeyed.outbound_own conn pending hmem⟩

theorem Keyed.has_inbound (hkeyed : Keyed registry) (hnew : conn ∉ registry.handles) :
    registry.inbound.has conn = false := by
  refine Table.has_eq_false_iff.mpr fun pending hmem => hnew (mem_handles.mpr (Or.inr (Or.inl ?_)))
  exact ⟨conn, pending, hmem, hkeyed.inbound_own conn pending hmem⟩

/-! ## What is closed -/

theorem isClosed_close : (registry.close conn).isClosed other = true ↔
    registry.isClosed other = true ∨ other = conn := by
  unfold close
  split
  · rename_i hclosed
    constructor
    · exact Or.inl
    · rintro (h | rfl)
      · exact h
      · exact hclosed
  · simp [isClosed]

theorem isClosed_closeMany : (registry.closeMany conns).isClosed other = true ↔
    registry.isClosed other = true ∨ other ∈ conns := by
  induction conns generalizing registry with
  | nil => simp [closeMany]
  | cons conn rest ih =>
      rw [closeMany, List.foldl_cons, ← closeMany, ih, isClosed_close, List.mem_cons, or_assoc]

theorem isClosed_addAll_of_isClosed (nodes : List Node) (hclosed : registry.isClosed other = true) :
    (registry.addAll now nodes).1.isClosed other = true :=
  addAll_induction (P := fun after => after.isClosed other = true) nodes hclosed
    fun _ _ _ hsame hadd => by
      obtain ⟨_, _, _, _, _, _, rfl⟩ := addTemp_ok hadd
      exact hsame

theorem isClosed_dropActive_of_isClosed (peer : IdHash) (hclosed : registry.isClosed other = true) :
    (registry.dropActive peer).1.isClosed other = true := by
  unfold dropActive
  split
  · exact isClosed_close.mpr (Or.inl hclosed)
  · exact hclosed

theorem isClosed_removeConn_of_isClosed (hclosed : registry.isClosed other = true) :
    (registry.removeConn conn).1.isClosed other = true := by
  unfold removeConn
  split
  · exact isClosed_close.mpr (Or.inl hclosed)
  split
  · exact isClosed_close.mpr (Or.inl hclosed)
  split
  · exact isClosed_dropActive_of_isClosed _ hclosed
  · exact hclosed

theorem isClosed_promoteToActive_of_isClosed {direction : Direction} {peer : Node}
    (hpromote : registry.promoteToActive now conn direction peer = .ok after)
    (hclosed : registry.isClosed other = true) : after.isClosed other = true := by
  obtain ⟨_, _, _, _, pending, middle, _, hyield, rfl⟩ := promoteToActive_ok hpromote
  have hmiddle : middle.isClosed other = true := by
    rcases yieldDial_ok hyield with ⟨_, rfl⟩ | ⟨_, _, rfl⟩ | ⟨_, _, _, _, rfl⟩
    · exact hclosed
    · exact hclosed
    · exact isClosed_close.mpr (Or.inl hclosed)
  cases direction <;> exact hmiddle

/-- What has been closed stays closed, whatever is done to the registry. -/
theorem isClosed_perform_of_isClosed (move : Move) (hclosed : registry.isClosed other = true) :
    (registry.perform move).isClosed other = true := by
  cases move with
  | addTemp now node =>
      refine unlessRefused_induction (P := fun after => after.isClosed other = true) hclosed
        fun _ hadd => ?_
      obtain ⟨_, _, _, _, _, _, rfl⟩ := addTemp_ok hadd
      exact hclosed
  | addBootNodes now nodes => exact isClosed_addAll_of_isClosed nodes hclosed
  | requeueBootNodes now => exact isClosed_addAll_of_isClosed _ hclosed
  | takeTemp now seedsOnly =>
      show (registry.takeTemp now seedsOnly).2.isClosed other = true
      unfold takeTemp
      split <;> exact hclosed
  | promoteToOutbound now node conn =>
      exact settleOffer_induction (P := fun after => after.isClosed other = true)
        (fun _ hinsert => by
          obtain ⟨_, _, _, _, _, rfl⟩ := insertOutbound_ok hinsert
          exact hclosed) (isClosed_close.mpr (Or.inl hclosed))
  | promoteToInbound now conn =>
      exact settleOffer_induction (P := fun after => after.isClosed other = true)
        (fun _ hinsert => (insertInbound_ok hinsert).2 ▸ hclosed)
        (isClosed_close.mpr (Or.inl hclosed))
  | promoteToActive now conn direction peer =>
      exact unlessRefused_induction (P := fun after => after.isClosed other = true) hclosed
        fun _ hpromote => isClosed_promoteToActive_of_isClosed hpromote hclosed
  | dropActive peer => exact isClosed_dropActive_of_isClosed peer hclosed
  | removeConn conn => exact isClosed_removeConn_of_isClosed hclosed
  | evict now => exact isClosed_closeMany.mpr (Or.inl hclosed)
  | closeAll => exact isClosed_closeMany.mpr (Or.inl hclosed)
  | _ => exact hclosed

@[simp] theorem close_handles : (registry.close conn).handles = registry.handles := by
  simp [handles]

theorem closeMany_handles (registry : Registry) (conns : List ConnId) :
    (registry.closeMany conns).handles = registry.handles :=
  closeMany_induction (P := fun other => other.handles = registry.handles) conns rfl
    fun _ _ h => close_handles.trans h

/-! ## Moves settle what they take -/

/--
Every connection that was owned or offered before is owned after, or it is among
the released ones, and just these are closed.
-/
structure Settles (registry : Registry) (offered : List ConnId) (after : Registry)
    (released : List ConnId) : Prop where
  keyed : Keyed after
  handles : (offered ++ registry.handles).Perm (released ++ after.handles)
  closed : ∀ conn, after.isClosed conn = true ↔ registry.isClosed conn = true ∨ conn ∈ released

/-- A move among entries that stand as they are. -/
theorem Keyed.settles_of_same (hkeyed : Keyed registry) (houtbound : after.outbound = registry.outbound)
    (hinbound : after.inbound = registry.inbound) (hactive : after.active = registry.active)
    (hclosed : after.closed = registry.closed) : Settles registry [] after [] where
  keyed := by
    obtain ⟨houtKeys, hinKeys, hactiveKeys, houtOwn, hinOwn⟩ := hkeyed
    exact ⟨houtbound ▸ houtKeys, hinbound ▸ hinKeys, hactive ▸ hactiveKeys, houtbound ▸ houtOwn,
      hinbound ▸ hinOwn⟩
  handles := by
    rw [Registry.handles, Registry.handles, houtbound, hinbound, hactive]
  closed := by simp [isClosed, hclosed]

theorem Settles.trans {later : List ConnId} (hfirst : Settles registry offered middle released)
    (hsecond : Settles middle [] after later) : Settles registry offered after (released ++ later) where
  keyed := hsecond.keyed
  handles := by
    rw [List.append_assoc]
    exact hfirst.handles.trans (hsecond.handles.append_left released)
  closed := fun conn => by
    rw [hsecond.closed, hfirst.closed, List.mem_append, or_assoc]

/-- What has left the sets is closed. -/
theorem Keyed.settles_closeMany (hkeyed : Keyed after) (conns : List ConnId)
    (hclosed : after.closed = registry.closed)
    (hhandles : (offered ++ registry.handles).Perm (conns ++ after.handles)) :
    Settles registry offered (after.closeMany conns) conns where
  keyed := closeMany_induction conns hkeyed fun _ conn h => h.shrink ((Shrinks.refl _).close conn)
  handles := by rwa [closeMany_handles]
  closed := fun conn => by rw [isClosed_closeMany, isClosed, isClosed, hclosed]

theorem Keyed.settles_refused (hkeyed : Keyed registry) (conn : ConnId) :
    Settles registry [conn] (registry.close conn) [conn] :=
  hkeyed.settles_closeMany [conn] rfl (List.Perm.refl _)

/-! ## Offers and candidates -/

theorem Keyed.addTemp_settles {node : Node} (hkeyed : Keyed registry)
    (hadd : registry.addTemp now node = .ok after) : Settles registry [] after [] := by
  obtain ⟨_, _, _, _, _, _, rfl⟩ := addTemp_ok hadd
  exact hkeyed.settles_of_same rfl rfl rfl rfl

theorem Keyed.addAll_settles (hkeyed : Keyed registry) (now : Nat) (nodes : List Node) :
    Settles registry [] (registry.addAll now nodes).1 [] :=
  addAll_induction (P := fun other => Settles registry [] other []) nodes
    (hkeyed.settles_of_same rfl rfl rfl rfl) fun _ _ _ h hadd => h.trans (h.keyed.addTemp_settles hadd)

theorem Keyed.insertOutbound_settles {node : Node} (hkeyed : Keyed registry)
    (hnew : conn ∉ registry.handles) (hinsert : registry.insertOutbound now node conn = .ok after) :
    Settles registry [conn] after [] := by
  obtain ⟨_, _, _, _, _, rfl⟩ := insertOutbound_ok hinsert
  refine ⟨?_, ?_, by simp [isClosed]⟩
  · refine { hkeyed with
      outbound_keys := Table.nodup_keys_insert hkeyed.outbound_keys
      outbound_own := ?_ }
    intro key pending hentry
    rcases Table.mem_insert.mp hentry with ⟨_, hold⟩ | ⟨rfl, rfl⟩
    · exact hkeyed.outbound_own key pending hold
    · rfl
  · rw [Registry.handles, Registry.handles, Table.insert_of_free (hkeyed.has_outbound hnew)]
    apply List.perm_iff_count.mpr
    intro handle
    simp only [List.map_append, List.map_cons, List.map_nil, List.count_append, List.nil_append]
    omega

theorem Keyed.insertInbound_settles (hkeyed : Keyed registry) (hnew : conn ∉ registry.handles)
    (hinsert : registry.insertInbound now conn = .ok after) : Settles registry [conn] after [] := by
  obtain ⟨_, rfl⟩ := insertInbound_ok hinsert
  refine ⟨?_, ?_, by simp [isClosed]⟩
  · refine { hkeyed with
      inbound_keys := Table.nodup_keys_insert hkeyed.inbound_keys
      inbound_own := ?_ }
    intro key pending hentry
    rcases Table.mem_insert.mp hentry with ⟨_, hold⟩ | ⟨rfl, rfl⟩
    · exact hkeyed.inbound_own key pending hold
    · rfl
  · rw [Registry.handles, Registry.handles, Table.insert_of_free (hkeyed.has_inbound hnew)]
    apply List.perm_iff_count.mpr
    intro handle
    simp only [List.map_append, List.map_cons, List.map_nil, List.count_append, List.nil_append]
    omega

/-! ## Removals -/

/-- The connections of a set are that of one entry and those of the others. -/
theorem count_handles_erase {κ α : Type} [DecidableEq κ] {table : Table κ α} {key : κ} {value : α}
    (handle : α → ConnId) (hkeys : table.keys.Nodup) (hmem : (key, value) ∈ table) (conn : ConnId) :
    (table.map (handle ·.2)).count conn =
      [handle value].count conn + ((table.erase key).map (handle ·.2)).count conn := by
  have hperm := (Table.perm_cons_erase hkeys hmem).map (handle ·.2)
  rw [hperm.count_eq, List.map_cons, ← List.count_append, List.singleton_append]

theorem Keyed.eraseOutbound_settles {pending : Pending} (hkeyed : Keyed registry)
    (hentry : (conn, pending) ∈ registry.outbound) :
    Settles registry [] ({ registry with outbound := registry.outbound.erase conn }.close conn)
      [conn] := by
  refine (hkeyed.shrink (erase_outbound_shrinks _ conn)).settles_closeMany [conn] rfl
    (List.perm_iff_count.mpr fun handle => ?_)
  have hcount := count_handles_erase (·.conn.id) hkeyed.outbound_keys hentry handle
  rw [hkeyed.outbound_own conn pending hentry] at hcount
  simp only [Registry.handles, List.count_append, List.nil_append, hcount]
  omega

theorem Keyed.eraseInbound_settles {pending : Pending} (hkeyed : Keyed registry)
    (hentry : (conn, pending) ∈ registry.inbound) :
    Settles registry [] ({ registry with inbound := registry.inbound.erase conn }.close conn)
      [conn] := by
  refine (hkeyed.shrink (erase_inbound_shrinks _ conn)).settles_closeMany [conn] rfl
    (List.perm_iff_count.mpr fun handle => ?_)
  have hcount := count_handles_erase (·.conn.id) hkeyed.inbound_keys hentry handle
  rw [hkeyed.inbound_own conn pending hentry] at hcount
  simp only [Registry.handles, List.count_append, List.nil_append, hcount]
  omega

theorem Keyed.dropActive_settles (hkeyed : Keyed registry) (peer : IdHash) :
    ∃ released, Settles registry [] (registry.dropActive peer).1 released := by
  unfold dropActive
  split
  · rename_i active hactive
    refine ⟨[active.conn.id], (hkeyed.shrink (erase_active_shrinks _ peer)).settles_closeMany
      [active.conn.id] rfl (List.perm_iff_count.mpr fun handle => ?_)⟩
    have hcount := count_handles_erase (·.conn.id) hkeyed.active_keys (Table.mem_of_find? hactive)
      handle
    simp only [Registry.handles, List.count_append, List.nil_append, hcount]
    omega
  · exact ⟨[], hkeyed.settles_of_same rfl rfl rfl rfl⟩

theorem Keyed.removeConn_settles (hkeyed : Keyed registry) (conn : ConnId) :
    ∃ released, Settles registry [] (registry.removeConn conn).1 released := by
  unfold removeConn
  split
  · rename_i hinbound
    obtain ⟨pending, hentry⟩ := Table.has_iff.mp hinbound
    exact ⟨[conn], hkeyed.eraseInbound_settles hentry⟩
  split
  · rename_i houtbound
    obtain ⟨pending, hentry⟩ := Table.has_iff.mp houtbound
    exact ⟨[conn], hkeyed.eraseOutbound_settles hentry⟩
  split
  · exact hkeyed.dropActive_settles _
  · exact ⟨[], hkeyed.settles_of_same rfl rfl rfl rfl⟩

theorem keys_eq_handles {table : Table ConnId Pending}
    (hown : ∀ conn pending, (conn, pending) ∈ table → pending.conn.id = conn) :
    table.keys = table.map (·.2.conn.id) :=
  List.map_congr_left fun entry hmem => (hown entry.1 entry.2 hmem).symm

/-- A set is what passes a test and what does not; the entries stand under their connections. -/
theorem count_handles_select {table : Table ConnId Pending} (test : Pending → Bool)
    (hown : ∀ conn pending, (conn, pending) ∈ table → pending.conn.id = conn) (conn : ConnId) :
    (table.map (·.2.conn.id)).count conn = (table.select test).keys.count conn +
      ((table.select fun pending => !test pending).map (·.2.conn.id)).count conn := by
  have hkeys : (table.select test).keys = (table.select test).map (·.2.conn.id) :=
    keys_eq_handles fun conn pending hmem => hown conn pending ((Table.mem_select test).mp hmem).1
  have hperm : (table.select test ++ table.select fun pending => !test pending).Perm table :=
    List.filter_append_perm _ _
  rw [hkeys, ← (hperm.map (·.2.conn.id)).count_eq, List.map_append, List.count_append]

theorem Keyed.evict_settles (hkeyed : Keyed registry) (now : Nat) :
    ∃ released, Settles registry [] (registry.evict now).1 released := by
  have hshrinks : Shrinks registry { registry with
      temp := registry.temp.filter (registry.isFresh now)
      inbound := registry.inbound.select fun pending => !registry.isOverdue now pending
      outbound := registry.outbound.select fun pending => !registry.isOverdue now pending
      bans := registry.bans.select (now < ·) } :=
    ⟨List.filter_sublist, List.filter_sublist, List.filter_sublist, List.Sublist.refl _⟩
  refine ⟨_, (hkeyed.shrink hshrinks).settles_closeMany _ rfl
    (List.perm_iff_count.mpr fun handle => ?_)⟩
  have hinbound := count_handles_select (registry.isOverdue now) hkeyed.inbound_own handle
  have houtbound := count_handles_select (registry.isOverdue now) hkeyed.outbound_own handle
  simp only [Registry.handles, List.count_append, List.nil_append, hinbound, houtbound]
  omega

theorem Keyed.closeAll_settles (hkeyed : Keyed registry) :
    ∃ released, Settles registry [] registry.closeAll.1 released := by
  have hshrinks : Shrinks registry
      { registry with temp := [], inbound := [], outbound := [], active := [] } :=
    ⟨List.nil_sublist _, List.nil_sublist _, List.nil_sublist _, List.nil_sublist _⟩
  refine ⟨_, (hkeyed.shrink hshrinks).settles_closeMany _ rfl
    (List.perm_iff_count.mpr fun handle => ?_)⟩
  simp only [Registry.handles, keys_eq_handles hkeyed.inbound_own,
    keys_eq_handles hkeyed.outbound_own, Table.values, List.map_map, Function.comp_def,
    List.map_nil, List.count_append, List.count_nil, List.nil_append]
  omega

/-! ## What a removal leaves alone -/

theorem select_eq_self {α : Type} {κ : Type} {table : Table κ α} (handle : α → ConnId)
    (hnot : conn ∉ table.map (handle ·.2)) :
    table.select (fun value => handle value ≠ conn) = table := by
  refine List.filter_eq_self.mpr fun entry hmem => ?_
  have hother : handle entry.2 ≠ conn := fun heq => hnot (List.mem_map.mpr ⟨entry, hmem, heq⟩)
  simpa using hother

/-- With different keys and different connections, an entry is the only one on its connection. -/
theorem erase_eq_select {κ α : Type} [DecidableEq κ] {table : Table κ α} {key : κ} {value : α}
    (handle : α → ConnId) (hkeys : table.keys.Nodup) (hnodup : (table.map (handle ·.2)).Nodup)
    (hmem : (key, value) ∈ table) (hvalue : handle value = conn) :
    table.erase key = table.select fun other => handle other ≠ conn := by
  have hnot : conn ∉ (table.erase key).map (handle ·.2) := by
    have hcount := count_handles_erase handle hkeys hmem conn
    have honce := List.nodup_iff_count.mp hnodup conn
    rw [hvalue, List.count_singleton_self] at hcount
    exact List.count_eq_zero.mp (by omega)
  refine List.filter_congr fun entry hentry => decide_eq_decide.mpr (not_congr ⟨?_, ?_⟩)
  · intro hkey
    have hentry' : (key, entry.2) ∈ table := hkey ▸ hentry
    rw [Table.eq_of_mem_of_mem hkeys hentry' hmem, hvalue]
  · intro hhandle
    by_cases hkey : entry.1 = key
    · exact hkey
    · exact absurd (List.mem_map.mpr ⟨entry, Table.mem_erase.mpr ⟨hkey, hentry⟩, hhandle⟩) hnot

/-- Every entry that is not on the connection stays, in its place. -/
structure Without (registry : Registry) (conn : ConnId) (after : Registry) : Prop where
  outbound : after.outbound = registry.outbound.select fun pending => pending.conn.id ≠ conn
  inbound : after.inbound = registry.inbound.select fun pending => pending.conn.id ≠ conn
  active : after.active = registry.active.select fun active => active.conn.id ≠ conn

theorem Keyed.removeConn_without (hkeyed : Keyed registry) (hnodup : registry.handles.Nodup)
    (conn : ConnId) : Without registry conn (registry.removeConn conn).1 := by
  rw [handles, List.nodup_append, List.nodup_append] at hnodup
  obtain ⟨⟨houtbound, hinbound, houtIn⟩, hactive, hpending⟩ := hnodup
  have hinKeys := keys_eq_handles hkeyed.inbound_own
  have houtKeys := keys_eq_handles hkeyed.outbound_own
  unfold removeConn
  split
  · rename_i hhas
    obtain ⟨pending, hentry⟩ := Table.has_iff.mp hhas
    have hheld := Table.has_iff_mem_keys.mp hhas
    rw [hinKeys] at hheld
    constructor
    · rw [close_outbound, select_eq_self _ fun hout => houtIn conn hout conn hheld rfl]
    · rw [close_inbound]
      exact erase_eq_select _ hkeyed.inbound_keys hinbound hentry
        (hkeyed.inbound_own conn pending hentry)
    · rw [close_active, select_eq_self _ fun hact =>
        hpending conn (List.mem_append_right _ hheld) conn hact rfl]
  rename_i hnotIn
  rw [Table.has_iff_mem_keys, hinKeys] at hnotIn
  split
  · rename_i hhas
    obtain ⟨pending, hentry⟩ := Table.has_iff.mp hhas
    have hheld := Table.has_iff_mem_keys.mp hhas
    rw [houtKeys] at hheld
    constructor
    · rw [close_outbound]
      exact erase_eq_select _ hkeyed.outbound_keys houtbound hentry
        (hkeyed.outbound_own conn pending hentry)
    · rw [close_inbound, select_eq_self _ hnotIn]
    · rw [close_active, select_eq_self _ fun hact =>
        hpending conn (List.mem_append_left _ hheld) conn hact rfl]
  rename_i hnotOut
  rw [Table.has_iff_mem_keys, houtKeys] at hnotOut
  split
  · rename_i peer hpeer
    obtain ⟨active, hentry, hconn⟩ := Table.mem_of_keyWhere? hpeer
    simp only [dropActive, Table.find?_of_mem hkeyed.active_keys hentry]
    constructor
    · rw [close_outbound, select_eq_self _ hnotOut]
    · rw [close_inbound, select_eq_self _ hnotIn]
    · rw [close_active]
      exact erase_eq_select _ hkeyed.active_keys hactive hentry (beq_iff_eq.mp hconn)
  · rename_i hnone
    have hnotActive : conn ∉ registry.active.map (·.2.conn.id) := by
      intro hmem
      obtain ⟨⟨peer, active⟩, hentry, hconn⟩ := List.mem_map.mp hmem
      have hsome := (Table.keyWhere?_isSome_iff (·.conn.id == conn)).mpr
        ⟨peer, active, hentry, beq_iff_eq.mpr hconn⟩
      rw [activeOn?] at hnone
      rw [hnone] at hsome
      cases hsome
    constructor
    · rw [select_eq_self _ hnotOut]
    · rw [select_eq_self _ hnotIn]
    · rw [select_eq_self _ hnotActive]

/-! ## Promotion to the active set -/

theorem Keyed.yieldDial_settles {direction : Direction} {peer : IdHash} (hkeyed : Keyed registry)
    (hyield : registry.yieldDial direction peer = .ok after) :
    ∃ released, Settles registry [] after released := by
  rcases yieldDial_ok hyield with ⟨_, rfl⟩ | ⟨_, _, rfl⟩ | ⟨_, _, dialing, hdial, rfl⟩
  · exact ⟨[], hkeyed.settles_of_same rfl rfl rfl rfl⟩
  · exact ⟨[], hkeyed.settles_of_same rfl rfl rfl rfl⟩
  · obtain ⟨pending, hentry, _⟩ := Table.mem_of_keyWhere? hdial
    exact ⟨[dialing], hkeyed.eraseOutbound_settles hentry⟩

/-- A peer that was not active becomes active on the connection that was pending. -/
theorem Keyed.activate_settles {direction : Direction} {pending : Pending} {peer : Node}
    (hkeyed : Keyed registry) (now : Nat) (hactive : registry.isActive peer.idHash = false)
    (hentry : (conn, pending) ∈ registry.pendingSet direction) :
    Settles registry [] (registry.activate now direction conn pending peer) [] := by
  have hfree : registry.active.has (mergeKnown peer pending.node).idHash = false := by
    rw [mergeKnown_idHash]
    exact hactive
  have hactiveKeys : ∀ entry, (registry.active.insert (mergeKnown peer pending.node).idHash
      entry).keys.Nodup := fun entry => Table.nodup_keys_insert hkeyed.active_keys
  cases direction with
  | inbound =>
      have herased := hkeyed.shrink (erase_inbound_shrinks registry conn)
      refine ⟨{ herased with active_keys := hactiveKeys _ },
        List.perm_iff_count.mpr fun handle => ?_, by simp [isClosed, activate]⟩
      have hcount := count_handles_erase (·.conn.id) hkeyed.inbound_keys hentry handle
      simp only [Registry.handles, activate, Table.insert_of_free hfree, List.map_append,
        List.map_cons, List.map_nil, List.count_append, List.nil_append, hcount]
      omega
  | outbound =>
      have herased := hkeyed.shrink (erase_outbound_shrinks registry conn)
      refine ⟨{ herased with active_keys := hactiveKeys _ },
        List.perm_iff_count.mpr fun handle => ?_, by simp [isClosed, activate]⟩
      have hcount := count_handles_erase (·.conn.id) hkeyed.outbound_keys hentry handle
      simp only [Registry.handles, activate, Table.insert_of_free hfree, List.map_append,
        List.map_cons, List.map_nil, List.count_append, List.nil_append, hcount]
      omega

theorem Keyed.promoteToActive_settles {direction : Direction} {peer : Node} (hkeyed : Keyed registry)
    (hpromote : registry.promoteToActive now conn direction peer = .ok after) :
    ∃ released, Settles registry [] after released := by
  obtain ⟨_, _, _, hactive, pending, middle, hpending, hyield, rfl⟩ := promoteToActive_ok hpromote
  obtain ⟨released, hyields⟩ := hkeyed.yieldDial_settles hyield
  rw [← pendingSet_of_yieldDial hyield] at hpending
  have hactivates := hyields.keyed.activate_settles now
    ((yieldDial_shrinks hyield).isActive hactive) (Table.mem_of_find? hpending)
  exact ⟨_, hyields.trans hactivates⟩

/-! ## All moves -/

theorem Keyed.updateActive_settles (hkeyed : Keyed registry) (peer : IdHash) (change : Node → Node) :
    Settles registry [] (registry.updateActive peer change) [] := by
  have hsame : (registry.updateActive peer change).handles = registry.handles := by
    have hactive : (registry.updateActive peer change).active.map (·.2.conn.id) =
        registry.active.map (·.2.conn.id) := by
      refine (List.map_map ..).trans (List.map_congr_left fun entry _ => ?_)
      dsimp only [Function.comp]
      split <;> rfl
    rw [Registry.handles, hactive]
    rfl
  have hkeys : (registry.updateActive peer change).active.keys.Nodup := by
    rw [updateActive, Table.keys_modify]
    exact hkeyed.active_keys
  refine ⟨{ hkeyed with active_keys := hkeys }, ?_, ?_⟩
  · rw [hsame]
  · simp [isClosed, updateActive]

theorem Keyed.perform_settles (hkeyed : Keyed registry) (move : Move)
    (hnew : ∀ conn, move.offer? = some conn → conn ∉ registry.handles) :
    ∃ released, Settles registry move.offer?.toList (registry.perform move) released := by
  have hsame : Settles registry [] registry [] := hkeyed.settles_of_same rfl rfl rfl rfl
  cases move with
  | addTemp now node =>
      exact ⟨[], unlessRefused_induction hsame fun _ hadd => hkeyed.addTemp_settles hadd⟩
  | addBootNodes now nodes =>
      have hseeded : Keyed { registry with
          seeds := nodes.foldl (fun seeds node =>
            if seeds.contains node.ip then seeds else seeds ++ [node.ip]) registry.seeds
          bootNodes := nodes } := { hkeyed with }
      have hqueued := hseeded.addAll_settles now nodes
      exact ⟨[], hqueued.keyed, hqueued.handles, hqueued.closed⟩
  | requeueBootNodes now => exact ⟨_, hkeyed.addAll_settles _ _⟩
  | takeTemp now seedsOnly =>
      obtain ⟨rest, _, heq⟩ := registry.takeTemp_snd now seedsOnly
      rw [Registry.perform, heq]
      exact ⟨_, hkeyed.settles_of_same rfl rfl rfl rfl⟩
  | promoteToOutbound now node conn =>
      exact settleOffer_induction
        (P := fun after => ∃ released, Settles registry [conn] after released)
        (fun _ hinsert => ⟨[], hkeyed.insertOutbound_settles (hnew conn rfl) hinsert⟩)
        ⟨[conn], hkeyed.settles_refused conn⟩
  | promoteToInbound now conn =>
      exact settleOffer_induction
        (P := fun after => ∃ released, Settles registry [conn] after released)
        (fun _ hinsert => ⟨[], hkeyed.insertInbound_settles (hnew conn rfl) hinsert⟩)
        ⟨[conn], hkeyed.settles_refused conn⟩
  | promoteToActive now conn direction peer =>
      exact unlessRefused_induction (P := fun after => ∃ released, Settles registry [] after released)
        ⟨[], hsame⟩ fun _ hpromote => hkeyed.promoteToActive_settles hpromote
  | dropActive peer => exact hkeyed.dropActive_settles peer
  | removeConn conn => exact hkeyed.removeConn_settles conn
  | ban now peer => exact ⟨[], hkeyed.settles_of_same rfl rfl rfl rfl⟩
  | evict now => exact hkeyed.evict_settles now
  | closeAll => exact hkeyed.closeAll_settles
  | touch now peer =>
      unfold Registry.perform touch
      exact ⟨[], hkeyed.updateActive_settles peer _⟩
  | updateChainInfo peer bestBlock totalDifficulty =>
      unfold Registry.perform updateChainInfo
      exact ⟨[], hkeyed.updateActive_settles peer _⟩
  | updateLatency peer latency =>
      unfold Registry.perform updateLatency
      exact ⟨[], hkeyed.updateActive_settles peer _⟩
  | setPort port => exact ⟨[], hkeyed.settles_of_same rfl rfl rfl rfl⟩

/-! ## Histories with cancellations -/

/-- A call on the registry, or the end of a connection that comes from outside. -/
inductive Event where
  | call (move : Move)
  | cancel (conn : ConnId)

def occur (registry : Registry) : Event → Registry
  | .call move => registry.perform move
  | .cancel conn => registry.cancel conn

/-- The registry after a history. -/
def live (registry : Registry) (events : List Event) : Registry :=
  events.foldl occur registry

def Event.offer? : Event → Option ConnId
  | .call move => move.offer?
  | .cancel _ => none

def Event.cancelled? : Event → Option ConnId
  | .call _ => none
  | .cancel conn => some conn

/-- The connections that were offered, in this order. -/
def offers (events : List Event) : List ConnId :=
  events.filterMap Event.offer?

def cancels (events : List Event) : List ConnId :=
  events.filterMap Event.cancelled?

theorem offers_append (first second : List Event) :
    offers (first ++ second) = offers first ++ offers second :=
  List.filterMap_append

theorem offers_call (past : List Event) (move : Move) :
    offers (past ++ [.call move]) = offers past ++ move.offer?.toList := by
  rw [offers_append]
  cases hoffer : move.offer? <;> simp [offers, Event.offer?, hoffer]

theorem nodup_offers_left {first second : List Event} (hfresh : (offers (first ++ second)).Nodup) :
    (offers first).Nodup := by
  rw [offers_append] at hfresh
  exact (List.nodup_append.mp hfresh).1

/-- What the past of a registry says about the connections that it owns and has closed. -/
structure Owns (past : List Event) (registry : Registry) : Prop where
  keyed : Keyed registry
  nodup : registry.handles.Nodup
  offered : ∀ conn ∈ registry.handles, conn ∈ offers past
  known : ∀ conn ∈ offers past, conn ∈ registry.handles ∨ registry.isClosed conn = true
  cancelled : ∀ conn ∈ registry.handles, registry.isClosed conn = true → conn ∈ cancels past
  closed : ∀ conn, registry.isClosed conn = true → conn ∈ offers past ∨ conn ∈ cancels past

theorem owns_create (self : Identity) (limits : Limits) :
    Owns [] (Registry.create self limits) where
  keyed := keyed_create self limits
  nodup := List.nodup_nil
  offered := fun _ hmem => by cases hmem
  known := fun _ hmem => by cases hmem
  cancelled := fun _ hmem => by cases hmem
  closed := fun _ hclosed => by simp [isClosed, create] at hclosed

variable {past : List Event} {move : Move}

/-- What a call does with the connections, if the one that it offers is new. -/
theorem Owns.settles (h : Owns past registry) (move : Move)
    (hfresh : (offers (past ++ [.call move])).Nodup) :
    ∃ released, Settles registry move.offer?.toList (registry.perform move) released ∧
      (move.offer?.toList ++ registry.handles).Nodup := by
  have hnew : ∀ conn, move.offer? = some conn → conn ∉ registry.handles := by
    intro conn hoffer hmem
    rw [offers_call, List.nodup_append] at hfresh
    exact hfresh.2.2 conn (h.offered conn hmem) conn (by simp [hoffer]) rfl
  obtain ⟨released, hsettles⟩ := h.keyed.perform_settles move hnew
  refine ⟨released, hsettles, ?_⟩
  cases hoffer : move.offer? with
  | none => simpa using h.nodup
  | some conn => simpa using ⟨hnew conn hoffer, h.nodup⟩

theorem Owns.call (h : Owns past registry) (move : Move)
    (hfresh : (offers (past ++ [.call move])).Nodup) :
    Owns (past ++ [.call move]) (registry.perform move) := by
  obtain ⟨released, hsettles, hnodup⟩ := h.settles move hfresh
  have hoffers := offers_call past move
  have hcancels : cancels (past ++ [.call move]) = cancels past := by
    simp [cancels, Event.cancelled?]
  have hafter : (released ++ (registry.perform move).handles).Nodup :=
    hsettles.handles.nodup_iff.mp hnodup
  have hmem : ∀ conn, conn ∈ move.offer?.toList ∨ conn ∈ registry.handles ↔
      conn ∈ released ∨ conn ∈ (registry.perform move).handles := fun conn => by
    rw [← List.mem_append, hsettles.handles.mem_iff, List.mem_append]
  have hapart : ∀ conn ∈ (registry.perform move).handles, conn ∉ released := by
    intro conn hheld hreleased
    exact (List.nodup_append.mp hafter).2.2 conn hreleased conn hheld rfl
  rw [hoffers] at hfresh
  refine ⟨hsettles.keyed, (List.nodup_append.mp hafter).2.1, ?_, ?_, ?_, ?_⟩
  · intro conn hheld
    rw [hoffers, List.mem_append]
    rcases (hmem conn).mpr (Or.inr hheld) with hoffered | hbefore
    · exact Or.inr hoffered
    · exact Or.inl (h.offered conn hbefore)
  · intro conn hknown
    rw [hoffers, List.mem_append] at hknown
    rw [hsettles.closed]
    have hkept : conn ∈ move.offer?.toList ∨ conn ∈ registry.handles →
        conn ∈ (registry.perform move).handles ∨ registry.isClosed conn = true ∨ conn ∈ released := by
      intro hbefore
      rcases (hmem conn).mp hbefore with hreleased | hheld
      · exact Or.inr (Or.inr hreleased)
      · exact Or.inl hheld
    rcases hknown with hold | hoffered
    · rcases h.known conn hold with hbefore | hclosed
      · exact hkept (Or.inr hbefore)
      · exact Or.inr (Or.inl hclosed)
    · exact hkept (Or.inl hoffered)
  · intro conn hheld hclosed
    rw [hcancels]
    rw [hsettles.closed] at hclosed
    have hwas := hclosed.resolve_right (hapart conn hheld)
    rcases (hmem conn).mpr (Or.inr hheld) with hoffered | hbefore
    · -- a connection that is new can have been closed only from outside
      refine (h.closed conn hwas).resolve_left fun hold => ?_
      exact (List.nodup_append.mp hfresh).2.2 conn hold conn hoffered rfl
    · exact h.cancelled conn hbefore hwas
  · intro conn hclosed
    rw [hoffers, hcancels, List.mem_append, or_assoc, or_comm (a := conn ∈ move.offer?.toList),
      ← or_assoc]
    rcases (hsettles.closed conn).mp hclosed with hwas | hreleased
    · exact Or.inl (h.closed conn hwas)
    · rcases (hmem conn).mpr (Or.inl hreleased) with hoffered | hbefore
      · exact Or.inr hoffered
      · exact Or.inl (Or.inl (h.offered conn hbefore))

theorem isClosed_cancel : (registry.cancel conn).isClosed other = true ↔
    registry.isClosed other = true ∨ other = conn := by
  unfold cancel
  split
  · rename_i hclosed
    constructor
    · exact Or.inl
    · rintro (h | rfl)
      · exact h
      · exact hclosed
  · simp [isClosed]

theorem cancel_handles : (registry.cancel conn).handles = registry.handles := by
  unfold Registry.cancel
  split <;> rfl

theorem Owns.cancel (h : Owns past registry) (conn : ConnId) :
    Owns (past ++ [.cancel conn]) (registry.cancel conn) := by
  have hoffers : offers (past ++ [.cancel conn]) = offers past := by
    simp [offers, Event.offer?]
  have hcancels : cancels (past ++ [.cancel conn]) = cancels past ++ [conn] := by
    simp [cancels, Event.cancelled?]
  have hhandles : (registry.cancel conn).handles = registry.handles := cancel_handles
  have hkeyed : Keyed (registry.cancel conn) := by
    unfold Registry.cancel
    split
    · exact h.keyed
    · exact { h.keyed with }
  refine ⟨hkeyed, hhandles ▸ h.nodup, ?_, ?_, ?_, ?_⟩
  · rw [hhandles, hoffers]
    exact h.offered
  · intro other hknown
    rw [hhandles, isClosed_cancel, ← or_assoc]
    exact Or.inl (h.known other (hoffers ▸ hknown))
  · intro other hheld hclosed
    rw [hhandles] at hheld
    rw [hcancels, List.mem_append, List.mem_singleton]
    rcases isClosed_cancel.mp hclosed with hwas | hsame
    · exact Or.inl (h.cancelled other hheld hwas)
    · exact Or.inr hsame
  · intro other hclosed
    rw [hoffers, hcancels, List.mem_append, List.mem_singleton, ← or_assoc]
    rcases isClosed_cancel.mp hclosed with hwas | hsame
    · exact Or.inl (h.closed other hwas)
    · exact Or.inr hsame

theorem Owns.live (h : Owns past registry) (events : List Event)
    (hfresh : (offers (past ++ events)).Nodup) : Owns (past ++ events) (registry.live events) := by
  induction events generalizing past registry with
  | nil => simpa [Registry.live] using h
  | cons event rest ih =>
      rw [← List.singleton_append, ← List.append_assoc] at hfresh ⊢
      refine ih ?_ hfresh
      cases event with
      | call move => exact h.call move (nodup_offers_left hfresh)
      | cancel conn => exact h.cancel conn

/-- A call closes, of the connections that are owned or offered, those that it leaves without owner. -/
theorem Owns.isClosed_perform (h : Owns past registry) (move : Move)
    (hfresh : (offers (past ++ [.call move])).Nodup) (conn : ConnId) :
    (registry.perform move).isClosed conn = true ↔ registry.isClosed conn = true ∨
      ((move.offer? = some conn ∨ conn ∈ registry.handles) ∧
        conn ∉ (registry.perform move).handles) := by
  obtain ⟨released, hsettles, hnodup⟩ := h.settles move hfresh
  have hafter : (released ++ (registry.perform move).handles).Nodup :=
    hsettles.handles.nodup_iff.mp hnodup
  have hmem := hsettles.handles.mem_iff (a := conn)
  rw [List.mem_append, List.mem_append, Option.mem_toList] at hmem
  rw [hsettles.closed, hmem]
  refine or_congr_right ⟨fun hreleased => ⟨Or.inl hreleased, fun hheld => ?_⟩, ?_⟩
  · exact (List.nodup_append.mp hafter).2.2 conn hreleased conn hheld rfl
  · intro hgone
    exact hgone.1.resolve_right hgone.2

/-- What has been offered and has no owner is never taken in again. -/
theorem Owns.stays_out (h : Owns past registry) (events : List Event)
    (hfresh : (offers (past ++ events)).Nodup) (hoffered : conn ∈ offers past)
    (hout : conn ∉ registry.handles) : conn ∉ (registry.live events).handles := by
  induction events generalizing past registry with
  | nil => exact hout
  | cons event rest ih =>
      rw [← List.singleton_append, ← List.append_assoc] at hfresh
      have hearlier := nodup_offers_left hfresh
      have hknown : conn ∈ offers (past ++ [event]) := by
        rw [offers_append]
        exact List.mem_append_left _ hoffered
      refine ih (h.live [event] hearlier) hfresh hknown ?_
      cases event with
      | call move =>
          obtain ⟨released, hsettles, _⟩ := h.settles move hearlier
          have hnew : conn ∉ move.offer?.toList := by
            intro hmem
            rw [offers_call, List.nodup_append] at hearlier
            exact hearlier.2.2 conn hoffered conn hmem rfl
          intro hheld
          have hbefore := hsettles.handles.mem_iff.mpr (List.mem_append_right released hheld)
          rcases List.mem_append.mp hbefore with hmem | hmem
          · exact hnew hmem
          · exact hout hmem
      | cancel other =>
          have hsame : (registry.cancel other).handles = registry.handles := cancel_handles
          intro hheld
          exact hout (hsame ▸ hheld)

/--
In a history that offers every connection at most once, a connection that has been
offered is owned by one entry of one set, or it is closed and owned by none. A
connection that is owned and closed was cancelled from outside. One that has no
owner never gets one again. Every call closes exactly the connections that it
removes or refuses, and the removal of a connection leaves the entries on all
others as they are.
-/
theorem live_owns_or_closes (self : Identity) (limits : Limits) (before after : List Event)
    (hfresh : (offers (before ++ after)).Nodup) :
    let registry := (Registry.create self limits).live before
    (∀ conn ∈ offers before,
      (registry.handles.count conn = 1 ∧
        (registry.isClosed conn = true → conn ∈ cancels before)) ∨
      (registry.handles.count conn = 0 ∧ registry.isClosed conn = true)) ∧
    (∀ conn ∈ offers before,
      conn ∉ registry.handles → conn ∉ (registry.live after).handles) ∧
    (∀ move, (∀ conn ∈ offers before, move.offer? ≠ some conn) → ∀ conn,
      (registry.perform move).isClosed conn = true ↔ registry.isClosed conn = true ∨
        ((move.offer? = some conn ∨ conn ∈ registry.handles) ∧
          conn ∉ (registry.perform move).handles)) ∧
    ∀ conn, Without registry conn (registry.perform (.removeConn conn)) := by
  intro registry
  have hearlier := nodup_offers_left hfresh
  have howns : Owns before registry := (owns_create self limits).live before hearlier
  refine ⟨?_, ?_, ?_, ?_⟩
  · intro conn hoffered
    by_cases hheld : conn ∈ registry.handles
    · refine Or.inl ⟨?_, howns.cancelled conn hheld⟩
      rw [howns.nodup.count, if_pos hheld]
    · exact Or.inr ⟨List.count_eq_zero.mpr hheld, (howns.known conn hoffered).resolve_left hheld⟩
  · intro conn hoffered hout
    exact howns.stays_out after hfresh hoffered hout
  · intro move hnew
    refine howns.isClosed_perform move ?_
    rw [offers_call, List.nodup_append]
    refine ⟨hearlier, ?_, ?_⟩
    · cases move.offer? <;> simp
    · intro conn hold other hoffer heq
      exact hnew conn hold (heq ▸ Option.mem_toList.mp hoffer)
  · intro conn
    exact howns.keyed.removeConn_without howns.nodup conn

/-- A dial yields to the request of the same peer, and the request is then cancelled from outside. -/
def yielding : List Event :=
  [.call (.promoteToOutbound 0 (repeatedNode 0x61) 1), .call (.promoteToInbound 0 2),
    .call (.promoteToActive 1 2 .inbound (repeatedNode 0x61)), .cancel 2]

/-- The dial is closed and out for good; the cancelled request is owned until it is removed. -/
theorem live_owns_or_closes_of_yielding :
    let dial : List Event := [.call (.promoteToOutbound 2 (repeatedNode 0x63) 3)]
    let registry := crossingStart.live yielding
    (offers (yielding ++ dial)).Nodup ∧ registry.handles = [2] ∧
    (registry.isClosed 1 = true ∧ 1 ∉ (registry.live dial).handles) ∧
    (registry.isClosed 2 = true ∧ 2 ∈ cancels yielding) ∧
    (2 ∉ (registry.perform (.removeConn 2)).handles) := by
  intro dial registry
  have hfresh : (offers (yielding ++ dial)).Nodup := by decide
  have hhandles : registry.handles = [2] := by decide +kernel
  have hone : registry.isClosed 1 = true := by decide +kernel
  have htwo : registry.isClosed 2 = true := by decide +kernel
  obtain ⟨howned, hout, _, hwithout⟩ :=
    live_owns_or_closes crossingStart.self crossingStart.limits yielding dial hfresh
  have hfirst : 1 ∉ registry.handles → 1 ∉ (registry.live dial).handles := hout 1 (by decide)
  have hcancelled : registry.isClosed 2 = true → 2 ∈ cancels yielding := by
    rcases howned 2 (by decide) with hheld | hgone
    · exact hheld.2
    · exact absurd hgone.1 (by decide +kernel)
  have hremoved : Without registry 2 (registry.perform (.removeConn 2)) := hwithout 2
  refine ⟨hfresh, hhandles, ⟨hone, hfirst ?_⟩, ⟨htwo, hcancelled htwo⟩, ?_⟩
  · rw [hhandles]
    decide
  · rw [handles, hremoved.outbound, hremoved.inbound, hremoved.active]
    decide +kernel

end Registry

end Peering
