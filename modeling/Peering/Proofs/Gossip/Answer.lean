import Peering.Endpoint.Frames
import Peering.Proofs.Delivery.Steps
import Peering.Proofs.Gossip
import Peering.Proofs.Registry.Filing

/-!
# What a peer is told about the others

A request for gossip is answered from the active nodes as they stand, brought into
some order and cut off after forty. A revision may be longer than what an entry has
room for, as every byte of it that was no text has become a character of three bytes;
it is cut when it is written, so every entry has a greatest length all the same.

Main statement: an answer can be read, it names different active nodes other than the
peer that asks, as many as there are or forty, and no sender refuses it for its length
that lets through the longest answer there can be.
-/

namespace Peering

/-! ## The longest answer -/

namespace Payload

theorem length_putIp_le (ip : IpAddress) : (putIp ip).length ≤ 17 := by
  cases ip <;> simp [putIp, IpAddress.octets]

theorem length_putShort_le (bytes : Bytes) : (putShort bytes).length ≤ 1 + maxRevision := by
  have hkept : (bytes.take maxRevision).length ≤ maxRevision := List.length_take_le _ _
  rw [putShort, List.length_cons]
  omega

end Payload

namespace Gossip

/-- The bytes of an entry with the longest address and the longest revision. -/
def longestEntry : Nat := 144

/-- The bytes of an answer that is full of such entries. -/
def longestAnswer : Nat := 1 + maxEntries * longestEntry

theorem Entry.length_encode_le (entry : Entry) : entry.encode.length ≤ longestEntry := by
  have hip := Payload.length_putIp_le entry.ip
  have hrevision := Payload.length_putShort_le (Utf8.encode entry.revision)
  simp only [encode, Payload.putPort, List.length_append, entry.id.length_eq, length_bigEndian,
    Payload.maxRevision, longestEntry] at hrevision ⊢
  omega

theorem length_encode_le (entries : List Entry) : (encode entries).length ≤ longestAnswer := by
  have hcount : (entries.take maxEntries).length ≤ maxEntries := List.length_take_le _ _
  have hentries : ∀ entries : List Entry,
      (entries.flatMap Entry.encode).length ≤ entries.length * longestEntry := by
    intro entries
    induction entries with
    | nil => exact Nat.zero_le _
    | cons entry rest ih =>
        have hentry := entry.length_encode_le
        rw [List.flatMap_cons, List.length_append, List.length_cons, Nat.add_mul, Nat.one_mul]
        omega
  have hbody := Nat.le_trans (hentries (entries.take maxEntries))
    (Nat.mul_le_mul_right longestEntry hcount)
  rw [encode, List.length_cons, longestAnswer]
  omega

end Gossip

/-! ## The nodes that are told -/

namespace Registry

variable {registry : Registry} {asking : IdHash}

/-- Some of the nodes that a peer may be told of, and as many as an answer has room for. -/
structure Presents (registry : Registry) (asking : IdHash) (told : List Node) : Prop where
  /-- Each is the active node of its id hash. -/
  active : ∀ node ∈ told, registry.activeNode? node.idHash = some node
  others : ∀ node ∈ told, node.idHash ≠ asking
  different : (told.map (·.idHash)).Nodup
  count : told.length = min 40 (registry.active.erase asking).length

theorem Filed.active_hashes (hfiled : Filed registry) :
    registry.activeNodes.map (·.idHash) = registry.active.keys := by
  simp only [activeNodes, Table.values, Table.keys, List.map_map]
  exact List.map_congr_left fun entry hmem => (hfiled.active_entry entry.1 entry.2 hmem).1

theorem Filed.activeNode?_of_mem (hfiled : Filed registry) {node : Node}
    (hmem : node ∈ registry.activeNodes) : registry.activeNode? node.idHash = some node := by
  simp only [activeNodes, Table.values, List.map_map, List.mem_map] at hmem
  obtain ⟨⟨peer, active⟩, hentry, rfl⟩ := hmem
  have hpeer : active.node.idHash = peer := (hfiled.active_entry peer active hentry).1
  show registry.activeNode? active.node.idHash = some active.node
  rw [hpeer, activeNode?, Table.find?_of_mem hfiled.active_keys hentry]
  rfl

/-- The nodes other than a peer are those under the other keys. -/
theorem Filed.others_eq (hfiled : Filed registry) (asking : IdHash) :
    registry.activeNodes.filter (·.idHash ≠ asking) =
      (registry.active.erase asking).values.map (·.node) := by
  have hsame : registry.active.filter (fun entry => decide (entry.2.node.idHash ≠ asking)) =
      registry.active.erase asking :=
    List.filter_congr fun entry hmem => by rw [(hfiled.active_entry entry.1 entry.2 hmem).1]
  rw [← hsame]
  simp only [activeNodes, Table.values, List.map_map, List.filter_map]
  rfl

/-- Whichever order they are brought into, the first forty are such nodes. -/
theorem Filed.presents (hfiled : Filed registry) {order : List Node}
    (horder : order.Perm (registry.activeNodes.filter (·.idHash ≠ asking))) :
    registry.Presents asking (order.take Gossip.maxEntries) := by
  have hmem : ∀ node ∈ order.take Gossip.maxEntries,
      node ∈ registry.activeNodes ∧ node.idHash ≠ asking := by
    intro node hnode
    have hfound := List.mem_filter.mp (horder.subset (List.mem_of_mem_take hnode))
    exact ⟨hfound.1, of_decide_eq_true hfound.2⟩
  have hhashes : (order.map (·.idHash)).Nodup := by
    rw [(horder.map _).nodup_iff]
    have hall : (registry.activeNodes.map (·.idHash)).Nodup :=
      hfiled.active_hashes ▸ hfiled.active_keys
    exact (List.filter_sublist.map _).nodup hall
  refine ⟨fun node hnode => hfiled.activeNode?_of_mem (hmem node hnode).1,
    fun node hnode => (hmem node hnode).2, ?_, ?_⟩
  · exact ((List.take_sublist _ _).map _).nodup hhashes
  · rw [List.length_take, horder.length_eq, hfiled.others_eq]
    simp [Table.values, Gossip.maxEntries]

/-- That a peer was heard from changes nothing about the others. -/
theorem Filed.others_touch (hfiled : Filed registry) (now : Nat) (asking : IdHash) :
    (registry.touch now asking).activeNodes.filter (·.idHash ≠ asking) =
      registry.activeNodes.filter (·.idHash ≠ asking) := by
  have htouched : Filed (registry.touch now asking) := hfiled.perform (.touch now asking)
  have herase : (registry.touch now asking).active.erase asking = registry.active.erase asking := by
    simp only [touch, Registry.updateActive, Table.erase_modify]
  rw [htouched.others_eq, hfiled.others_eq, herase]

end Registry

/-! ## Answers -/

namespace Endpoint

open Registry (Filed)

variable {endpoint : Endpoint}

theorem entriesFor_touch (hfiled : Filed endpoint.registry) (now : Nat) (asking : IdHash) :
    (endpoint.setRegistry (endpoint.registry.touch now asking)).entriesFor asking =
      endpoint.entriesFor asking := by
  show ((endpoint.shuffle _).take _).map _ = ((endpoint.shuffle _).take _).map _
  exact congrArg (fun nodes => ((endpoint.shuffle nodes).take Gossip.maxEntries).map
    Gossip.Entry.ofNode) (hfiled.others_touch now asking)

theorem onNetFrame_request (endpoint : Endpoint) {frame : Frame}
    (haction : frame.action = NetAction.activeNodesRequest) (asking : IdHash) :
    endpoint.onNetFrame asking frame =
      (endpoint.sendTo (.active asking) (Frame.net NetAction.activeNodesResponse
        (Gossip.encode (endpoint.entriesFor asking)))).1 := by
  rw [onNetFrame, haction]
  rfl

/--
In every history of the registry, whoever asks, and however the nodes are shuffled:
the answer reads as one entry for each of the nodes that are told, with the text that
the first 64 bytes of the revision show and all else as the registry has it. It is no
longer than forty of the longest entries and a byte, so an outbox that lets so much
through takes it or has no room. It is the payload that the peer is sent, by the
session that reads the request as by any other caller.
-/
theorem answer_tells (self : Identity) (limits : Limits) (events : List Registry.Event)
    (bare : Endpoint) (hshuffle : ∀ nodes, (bare.shuffle nodes).Perm nodes) (asking : IdHash) :
    let endpoint := bare.setRegistry ((Registry.create self limits).live events)
    let payload := Gossip.encode (endpoint.entriesFor asking)
    let answer := Frame.net NetAction.activeNodesResponse payload
    (∃ told, endpoint.registry.Presents asking told ∧
      Gossip.decode payload = .ok (told.map fun node =>
        { id := node.id, ip := node.ip, port := node.port,
          revision := Utf8.lossy ((Utf8.encode node.revision).take 64),
          bestBlock := node.bestBlock, totalDifficulty := node.totalDifficulty })) ∧
    payload.length ≤ 1 + 40 * 144 ∧
    (∀ (outbox : Outbox) (message : Message), message.frame = answer →
      1 + 40 * 144 ≤ outbox.limits.maxBody →
      (outbox.send message).1.tally.oversized = outbox.tally.oversized ∧
        ((outbox.send message).2 = false → outbox.IsShut)) ∧
    ∀ frame : Frame, frame.action = NetAction.activeNodesRequest →
      endpoint.onNetFrame asking frame = (endpoint.sendTo (.active asking) answer).1 ∧
      ∀ (session : Session) (peer : PeerName), session.phase = .active →
        session.peer = some peer → peer.idHash = asking → frame.isNet = true →
        endpoint.onFrame session frame =
          (((endpoint.setRegistry (endpoint.registry.touch endpoint.clock asking)).sendTo
            (.active asking) answer).1, session) := by
  intro endpoint payload answer
  have hfiled : Filed endpoint.registry := Registry.filed_live self limits events
  have hlength : payload.length ≤ 1 + 40 * 144 := Gossip.length_encode_le _
  have hcount : (endpoint.entriesFor asking).length ≤ Gossip.maxEntries := by
    rw [entriesFor, List.length_map]
    exact List.length_take_le _ _
  refine ⟨⟨_, hfiled.presents (hshuffle _), ?_⟩, hlength, ?_, ?_⟩
  · rw [Gossip.decode_encode, List.take_of_length_le hcount, entriesFor,
      List.map_map]
    rfl
  · intro outbox message hmessage hroom
    have hfits : message.frame.payload.length ≤ outbox.limits.maxBody := by
      rw [hmessage]
      exact Nat.le_trans hlength hroom
    rcases outbox.send_fitting hfits with ⟨hshut, _, _, _, htally⟩ | ⟨_, hsend⟩
    · exact ⟨htally, fun _ => hshut⟩
    · rw [hsend]
      exact ⟨rfl, nofun⟩
  · intro frame haction
    refine ⟨onNetFrame_request endpoint haction asking, ?_⟩
    rintro session peer hphase hpeer rfl hnet
    have htouched := onNetFrame_request (endpoint.setRegistry
      (endpoint.registry.touch endpoint.clock peer.idHash)) haction peer.idHash
    rw [entriesFor_touch hfiled] at htouched
    rw [onFrame, hphase, hpeer]
    simp only [onActiveFrame, hnet, if_true]
    rw [htouched]

/-- A peer that has sent 64 bytes which are no text for its revision. -/
def unreadablePeer : Node :=
  { Registry.repeatedNode 0x61 with revision := Utf8.lossy (List.replicate 64 0xff) }

/-- Each of the bytes has become a replacement character. -/
theorem encode_unreadable : Utf8.encode unreadablePeer.revision =
    (List.replicate 64 Utf8.replacement).flatMap String.utf8EncodeChar := by
  have hread : Utf8.lossyFrom none (List.replicate 64 0xff) =
      List.replicate 64 Utf8.replacement := by decide +kernel
  show (String.ofList (Utf8.lossyFrom none (List.replicate 64 0xff))).toList.flatMap _ = _
  rw [String.toList_ofList, hread]

/-- It becomes active, and so does the peer that asks. -/
def unreadableAndAsking : List Registry.Event :=
  [.call (.promoteToInbound 0 1), .call (.promoteToActive 0 1 .inbound unreadablePeer),
    .call (.promoteToInbound 0 2),
    .call (.promoteToActive 0 2 .inbound (Registry.repeatedNode 0x63))]

/-- The 192 bytes that its revision has now are cut, and a byte of the answer is no text again. -/
theorem answer_tells_of_unreadable :
    let start := Registry.crossingStart
    let bare := { Endpoint.create Settings.default start.self.id HandlerTable.empty with
      shuffle := List.reverse }
    let endpoint := bare.setRegistry (start.live unreadableAndAsking)
    let asking := (Registry.repeatedNode 0x63).idHash
    (∀ nodes, (bare.shuffle nodes).Perm nodes) ∧
    (Utf8.encode unreadablePeer.revision).length = 192 ∧
    Utf8.lossy ((Utf8.encode unreadablePeer.revision).take 64) =
      String.ofList (List.replicate 22 Utf8.replacement) ∧
    ∃ told : Node, endpoint.registry.activeNode? told.idHash = some told ∧ told.idHash ≠ asking ∧
      Gossip.decode (Gossip.encode (endpoint.entriesFor asking)) = .ok [{
        id := told.id, ip := told.ip, port := told.port,
        revision := Utf8.lossy ((Utf8.encode told.revision).take 64),
        bestBlock := told.bestBlock, totalDifficulty := told.totalDifficulty }] := by
  intro start bare endpoint asking
  have hshuffle : ∀ nodes, (bare.shuffle nodes).Perm nodes := List.reverse_perm
  have hothers : (endpoint.registry.active.erase asking).length = 1 := by decide +kernel
  obtain ⟨⟨told, hpresents, hdecode⟩, -⟩ :=
    answer_tells start.self start.limits unreadableAndAsking bare hshuffle asking
  have hone : told.length = 1 := hpresents.count.trans (congrArg (min 40) hothers)
  obtain ⟨node, rfl⟩ := List.length_eq_one_iff.mp hone
  rw [encode_unreadable]
  exact ⟨hshuffle, by decide +kernel, congrArg String.ofList (by decide +kernel), node,
    hpresents.active node List.mem_cons_self, hpresents.others node List.mem_cons_self, hdecode⟩

end Endpoint

end Peering
