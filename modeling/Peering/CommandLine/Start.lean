import Peering.CommandLine.Word
import Peering.Settings
import Peering.Text.Blank
import Peering.Address.Text

/-!
# The options of a start

A node is started with the settings of a file, or with the defaults, and with
what the options say in place of them. This module has the options as a table,
how their values are read, and what they change.
-/

namespace Peering

namespace CommandLine

structure StartOptions where
  /-- The file with the settings. -/
  file : Option String
  ip : Option IpAddress
  port : Option UInt16
  chainId : Option UInt32
  /-- Boot URIs with commas between them. -/
  peers : Option String
  maxActive : Option UInt64
  upnp : Bool
  seedsOnly : Bool
deriving DecidableEq

namespace StartOptions

/-- No option at all. -/
def empty : StartOptions :=
  ⟨none, none, none, none, none, none, false, false⟩

/-! ## Reading values -/

/-- The number up to a greatest one that all characters together denote. -/
def digits? (greatest : Nat) (chars : List Char) : Option Nat :=
  match NumberForm.read ⟨10, none, true, greatest⟩ chars with
  | some (value, []) => some value
  | _ => none

/-- As `digits?`, after a plus sign, if any. -/
def counted? (greatest : Nat) : List Char → Option Nat
  | '+' :: chars => digits? greatest chars
  | chars => digits? greatest chars

/-- As `counted?`; zero may have a minus sign as well. -/
def signed? (greatest : Nat) : List Char → Option Nat
  | '-' :: chars => digits? 0 chars
  | chars => counted? greatest chars

/-! ## The table -/

/-- An option with a value. -/
structure Valued where
  name : String
  letter : Option Char
  isGiven : StartOptions → Bool
  /-- Takes the value in, unless it is not one of this option. -/
  store : String → StartOptions → Option StartOptions

/-- An option that is there or not. -/
structure Flag where
  name : String
  isGiven : StartOptions → Bool
  raise : StartOptions → StartOptions

def valued : List Valued :=
  [⟨"config", some 'c', (·.file.isSome), fun text options =>
      if text.isEmpty then none else some { options with file := some text }⟩,
   ⟨"ip", none, (·.ip.isSome), fun text options =>
      (IpAddress.parse? text).map fun ip => { options with ip := some ip }⟩,
   ⟨"port", some 'p', (·.port.isSome), fun text options =>
      (signed? (UInt16.size - 1) text.toList).map fun value =>
        { options with port := some (UInt16.ofNat value) }⟩,
   ⟨"chain-id", none, (·.chainId.isSome), fun text options =>
      (signed? (UInt32.size - 1) text.toList).map fun value =>
        { options with chainId := some (UInt32.ofNat value) }⟩,
   ⟨"peers", none, (·.peers.isSome), fun text options =>
      some { options with peers := some text }⟩,
   ⟨"max-active", none, (·.maxActive.isSome), fun text options =>
      (counted? (UInt64.size - 1) text.toList).map fun value =>
        { options with maxActive := some (UInt64.ofNat value) }⟩]

def flags : List Flag :=
  [⟨"upnp", (·.upnp), fun options => { options with upnp := true }⟩,
   ⟨"seeds-only", (·.seedsOnly), fun options => { options with seedsOnly := true }⟩]

/-! ## What they change -/

/-- The boot URIs in a list with commas; blanks around them and empty ones are left out. -/
def splitPeers (text : String) : List String :=
  let parts := (text.splitOn ",").map fun part => String.ofList (trimBlanks part.toList)
  parts.filter fun part => !part.isEmpty

/-- The settings with the values of the options in place of their own. -/
def override (options : StartOptions) (settings : Settings) : Settings :=
  { settings with
    ip := options.ip.getD settings.ip
    port := options.port.getD settings.port
    chainId := options.chainId.getD settings.chainId
    bootNodes := (options.peers.map splitPeers).getD settings.bootNodes
    maxActiveNodes := options.maxActive.getD settings.maxActiveNodes
    upnpEnabled := settings.upnpEnabled || options.upnp
    syncSeedsOnly := settings.syncSeedsOnly || options.seedsOnly }

end StartOptions

end CommandLine

end Peering
