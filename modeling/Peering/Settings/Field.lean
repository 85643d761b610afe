import Peering.Json.Reader
import Peering.Settings

/-!
# The fields of a settings document

Each setting has a name in documents, a way to be written and read there, and a
place in the settings. The table `Settings.fields` lists them in the order in
which they are written.
-/

namespace Peering

/-- Whether a document is written on one line or on one line per value. -/
inductive Layout where
  | compact
  | lines
deriving DecidableEq, Repr

/-- How values of one type stand in a document. -/
structure Codec (α : Type) where
  write : Layout → α → List Char
  read : List Char → Except Json.Fault (α × List Char)
  /-- Reading uses up some of the text. -/
  length_read_lt : ∀ chars value rest, read chars = .ok (value, rest) → rest.length < chars.length

namespace Codec

/-- A value that is written as another one, and read from those that stand for one. -/
def via {α β : Type} (codec : Codec α) (toOther : β → α) (ofOther : α → Option β) : Codec β where
  write layout value := codec.write layout (toOther value)
  read chars := do
    let (other, rest) ← codec.read chars
    match ofOther other with
    | some value => return (value, rest)
    | none => throw .mismatched
  length_read_lt chars value rest h := by
    obtain ⟨⟨other, left⟩, hread, h⟩ := Json.bind_eq_ok h
    dsimp only at h
    split at h
    · cases h
      exact codec.length_read_lt _ _ _ hread
    · cases h

/-- Natural numbers up to a greatest one. -/
def natural (greatest : Nat) : Codec Nat where
  write _ value := decimalDigits value
  read := Json.readNatural greatest
  length_read_lt _ _ _ h := Json.length_readNatural_lt h

def word16 : Codec UInt16 :=
  (natural (UInt16.size - 1)).via UInt16.toNat fun value => some (UInt16.ofNat value)

def word32 : Codec UInt32 :=
  (natural (UInt32.size - 1)).via UInt32.toNat fun value => some (UInt32.ofNat value)

def word64 : Codec UInt64 :=
  (natural (UInt64.size - 1)).via UInt64.toNat fun value => some (UInt64.ofNat value)

def flag : Codec Bool where
  write _ value := if value then "true".toList else "false".toList
  read := Json.readBool
  length_read_lt _ _ _ h := Json.length_readBool_lt h

def text : Codec String where
  write _ value := Json.Quoted.write value
  read := Json.readText
  length_read_lt _ _ _ h := Json.length_readText_lt h

def address : Codec IpAddress :=
  text.via IpAddress.text IpAddress.parse?

/-! ## Lists of texts -/

def indent (depth : Nat) : List Char :=
  List.replicate (2 * depth) ' '

/-- Parts between brackets that stand `depth` levels deep. -/
def enclose (layout : Layout) (depth : Nat) (opening closing : Char) (parts : List (List Char)) :
    List Char :=
  match layout, parts with
  | _, [] => [opening, closing]
  | .compact, parts => opening :: List.intercalate [','] parts ++ [closing]
  | .lines, parts =>
      let start := '\n' :: indent (depth + 1)
      opening :: start ++ List.intercalate (',' :: start) parts ++
        '\n' :: indent depth ++ [closing]

def texts : Codec (List String) where
  write layout values := enclose layout 1 '[' ']' (values.map Json.Quoted.write)
  read := Json.readTexts
  length_read_lt _ _ _ h := Json.length_readTexts_lt h

/-! ## The policy -/

def policyName : BindFailurePolicy → String
  | .fail => "fail"
  | .degrade => "degrade"

def policyNamed : String → Except Json.Fault BindFailurePolicy
  | "fail" => .ok .fail
  | "degrade" => .ok .degrade
  | _ => .error .mismatched

/-- A policy is named by a text, or by the key of an object whose value is null. -/
def readPolicy (chars : List Char) : Except Json.Fault (BindFailurePolicy × List Char) :=
  match Json.skipSpaces chars with
  | [] => .error .ended
  | '"' :: rest => do
      let (name, rest) ← Json.readText ('"' :: rest)
      return (← policyNamed name, rest)
  | '{' :: rest => do
      let (name, rest) ← Json.readText rest
      let policy ← policyNamed name
      let rest ← Json.readNull (← Json.expectMark ':' rest)
      return (policy, ← Json.expectMark '}' rest)
  | _ => .error .malformed

theorem length_readPolicy_lt {chars rest : List Char} {policy : BindFailurePolicy}
    (h : readPolicy chars = .ok (policy, rest)) : rest.length < chars.length := by
  have hspaces := Json.length_skipSpaces_le chars
  unfold readPolicy at h
  split at h
  · cases h
  · next heq =>
      obtain ⟨⟨name, afterName⟩, hname, h⟩ := Json.bind_eq_ok h
      obtain ⟨found, _, h⟩ := Json.bind_eq_ok h
      cases h
      have := Json.length_readText_lt hname
      rw [heq] at hspaces
      omega
  · next heq =>
      obtain ⟨⟨name, afterName⟩, hname, h⟩ := Json.bind_eq_ok h
      obtain ⟨found, _, h⟩ := Json.bind_eq_ok h
      obtain ⟨afterColon, hcolon, h⟩ := Json.bind_eq_ok h
      obtain ⟨afterNull, hnull, h⟩ := Json.bind_eq_ok h
      obtain ⟨afterClose, hclose, h⟩ := Json.bind_eq_ok h
      cases h
      have := Json.length_readText_lt hname
      have := Json.length_expectMark_lt hcolon
      have := Json.length_readNull_lt hnull
      have := Json.length_expectMark_lt hclose
      simp only [heq, List.length_cons] at hspaces
      omega
  · cases h

def policy : Codec BindFailurePolicy where
  write _ value := Json.Quoted.write (policyName value)
  read := readPolicy
  length_read_lt _ _ _ h := length_readPolicy_lt h

end Codec

namespace Settings

/-- One setting as it stands in documents. -/
structure Field where
  name : String
  Value : Type
  codec : Codec Value
  get : Settings → Value
  set : Value → Settings → Settings

open Codec in
/-- All settings, in the order in which they are written. -/
def fields : List Field :=
  [⟨"chain_id", _, word32, chainId, fun v s => { s with chainId := v }⟩,
   ⟨"node_id", _, text, nodeId, fun v s => { s with nodeId := v }⟩,
   ⟨"ip", _, address, ip, fun v s => { s with ip := v }⟩,
   ⟨"port", _, word16, port, fun v s => { s with port := v }⟩,
   ⟨"boot_nodes", _, texts, bootNodes, fun v s => { s with bootNodes := v }⟩,
   ⟨"revision", _, text, revision, fun v s => { s with revision := v }⟩,
   ⟨"upnp_enabled", _, flag, upnpEnabled, fun v s => { s with upnpEnabled := v }⟩,
   ⟨"sync_seeds_only", _, flag, syncSeedsOnly, fun v s => { s with syncSeedsOnly := v }⟩,
   ⟨"max_temp_nodes", _, word64, maxTempNodes, fun v s => { s with maxTempNodes := v }⟩,
   ⟨"max_active_nodes", _, word64, maxActiveNodes, fun v s => { s with maxActiveNodes := v }⟩,
   ⟨"error_tolerance", _, word32, errorTolerance, fun v s => { s with errorTolerance := v }⟩,
   ⟨"error_counter_capacity", _, word64, errorCounterCapacity,
      fun v s => { s with errorCounterCapacity := v }⟩,
   ⟨"bind_failure_policy", _, policy, bindFailurePolicy,
      fun v s => { s with bindFailurePolicy := v }⟩,
   ⟨"writer_lanes", _, word64, writerLanes, fun v s => { s with writerLanes := v }⟩,
   ⟨"dispatch_lanes", _, word64, dispatchLanes, fun v s => { s with dispatchLanes := v }⟩,
   ⟨"send_queue_capacity", _, word64, sendQueueCapacity,
      fun v s => { s with sendQueueCapacity := v }⟩,
   ⟨"lane_queue_capacity", _, word64, laneQueueCapacity,
      fun v s => { s with laneQueueCapacity := v }⟩,
   ⟨"write_backlog", _, word64, writeBacklog, fun v s => { s with writeBacklog := v }⟩,
   ⟨"receive_queue_capacity", _, word64, receiveQueueCapacity,
      fun v s => { s with receiveQueueCapacity := v }⟩,
   ⟨"listen_backlog", _, word32, listenBacklog, fun v s => { s with listenBacklog := v }⟩,
   ⟨"socket_buffer_size", _, word32, socketBufferSize,
      fun v s => { s with socketBufferSize := v }⟩,
   ⟨"max_frame_body", _, word64, maxFrameBody, fun v s => { s with maxFrameBody := v }⟩,
   ⟨"connect_timeout_ms", _, word64, connectTimeoutMs,
      fun v s => { s with connectTimeoutMs := v }⟩,
   ⟨"read_timeout_ms", _, word64, readTimeoutMs, fun v s => { s with readTimeoutMs := v }⟩,
   ⟨"write_timeout_ms", _, word64, writeTimeoutMs, fun v s => { s with writeTimeoutMs := v }⟩,
   ⟨"handshake_timeout_ms", _, word64, handshakeTimeoutMs,
      fun v s => { s with handshakeTimeoutMs := v }⟩,
   ⟨"ban_duration_ms", _, word64, banDurationMs, fun v s => { s with banDurationMs := v }⟩,
   ⟨"temp_node_ttl_ms", _, word64, tempNodeTtlMs, fun v s => { s with tempNodeTtlMs := v }⟩,
   ⟨"connect_interval_ms", _, word64, connectIntervalMs,
      fun v s => { s with connectIntervalMs := v }⟩,
   ⟨"status_interval_ms", _, word64, statusIntervalMs,
      fun v s => { s with statusIntervalMs := v }⟩,
   ⟨"active_nodes_interval_ms", _, word64, activeNodesIntervalMs,
      fun v s => { s with activeNodesIntervalMs := v }⟩,
   ⟨"eviction_interval_ms", _, word64, evictionIntervalMs,
      fun v s => { s with evictionIntervalMs := v }⟩,
   ⟨"upnp_interval_ms", _, word64, upnpIntervalMs, fun v s => { s with upnpIntervalMs := v }⟩]

end Settings

end Peering
