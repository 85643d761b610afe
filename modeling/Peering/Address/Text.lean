import Peering.Address

/-!
# Text forms of addresses

IPv4 as a dotted quad, IPv6 in the form of RFC 5952 (lower case, no leading
zeros, the first longest run of two or more zero groups as `::`, an IPv4-mapped
address with its quad), a socket address as `quad:port` or `[groups]:port`.

The readers work on the characters left to read and give back what they did not
use, so a reader that fails has used nothing.
-/

namespace Peering

/-! ## Writing -/

/-- The decimal digits of a number. -/
def decimalDigits (n : Nat) : List Char :=
  Nat.toDigits 10 n

/-- The lower-case hexadecimal digits of a number. -/
def hexDigits (n : Nat) : List Char :=
  Nat.toDigits 16 n

namespace IpAddress

/-- The four octets of an IPv4 address as numbers. -/
def quad (bits : BitVec 32) : List Nat :=
  [3, 2, 1, 0].map fun place => bits.toNat >>> (8 * place) % 256

/-- The eight groups of an IPv6 address as numbers. -/
def groups (bits : BitVec 128) : List Nat :=
  [7, 6, 5, 4, 3, 2, 1, 0].map fun place => bits.toNat >>> (16 * place) % 65536

def quadChars (bits : BitVec 32) : List Char :=
  List.intercalate ['.'] ((quad bits).map decimalDigits)

def groupChars (parts : List Nat) : List Char :=
  List.intercalate [':'] (parts.map hexDigits)

/-- How many zero groups stand at the front. -/
def zerosAhead (parts : List Nat) : Nat :=
  (parts.takeWhile (· == 0)).length

/-- Start and length of the first longest run of zero groups. -/
def zeroRun (parts : List Nat) : Nat × Nat :=
  (List.range parts.length).foldl
    (fun best start =>
      let length := zerosAhead (parts.drop start)
      if best.2 < length then (start, length) else best)
    (0, 0)

/-- Whether an IPv6 address is an IPv4 address in disguise (`::ffff:a.b.c.d`). -/
def isMapped (bits : BitVec 128) : Bool :=
  bits.toNat >>> 32 == 0xffff

def v6Chars (bits : BitVec 128) : List Char :=
  let parts := groups bits
  let (start, length) := zeroRun parts
  if isMapped bits then
    "::ffff:".toList ++ quadChars (bits.setWidth 32)
  else if 1 < length then
    groupChars (parts.take start) ++ ':' :: ':' :: groupChars (parts.drop (start + length))
  else
    groupChars parts

def chars : IpAddress → List Char
  | .v4 bits => quadChars bits
  | .v6 bits => v6Chars bits

def text (ip : IpAddress) : String :=
  String.ofList ip.chars

end IpAddress

namespace SocketAddress

def chars (address : SocketAddress) : List Char :=
  let port := decimalDigits address.port.toNat
  match address.ip with
  | .v4 bits => IpAddress.quadChars bits ++ ':' :: port
  | .v6 bits => '[' :: IpAddress.v6Chars bits ++ ']' :: ':' :: port

def text (address : SocketAddress) : String :=
  String.ofList address.chars

end SocketAddress

/-! ## Reading -/

/-- The value of a digit in any base up to sixteen. -/
def digitValue (char : Char) : Nat :=
  let n := char.toNat
  if 0x30 ≤ n && n ≤ 0x39 then n - 0x30
  else if 0x61 ≤ n && n ≤ 0x66 then n - 0x61 + 10
  else if 0x41 ≤ n && n ≤ 0x46 then n - 0x41 + 10
  else 16

def isDigitIn (base : Nat) (char : Char) : Bool :=
  digitValue char < base

/-- The number that digits denote. -/
def digitsValue (base : Nat) (digits : List Char) : Nat :=
  digits.foldl (fun value char => value * base + digitValue char) 0

/-- What a written number has to satisfy to be read. -/
structure NumberForm where
  base : Nat
  /-- Most digits allowed, if there is a limit. -/
  longest : Option Nat
  /-- Whether zeros may stand before the first other digit. -/
  leadingZeros : Bool
  /-- Greatest value allowed. -/
  greatest : Nat

/-- Reads all digits that follow, or nothing when they do not have the form. -/
def NumberForm.read (form : NumberForm) (chars : List Char) : Option (Nat × List Char) :=
  let digits := chars.takeWhile (isDigitIn form.base)
  let value := digitsValue form.base digits
  if digits.isEmpty then none
  else if form.longest.any (· < digits.length) then none
  else if !form.leadingZeros && digits.head? == some '0' && 1 < digits.length then none
  else if form.greatest < value then none
  else some (value, chars.dropWhile (isDigitIn form.base))

def octetForm : NumberForm := ⟨10, some 3, false, 255⟩
def groupForm : NumberForm := ⟨16, some 4, true, 65535⟩
def portForm : NumberForm := ⟨10, none, true, 65535⟩
def scopeForm : NumberForm := ⟨10, none, true, 4294967295⟩

/-- Skips one given character. -/
def skipChar (char : Char) : List Char → Option (List Char)
  | [] => none
  | first :: rest => if first = char then some rest else none

namespace IpAddress

def readQuad (chars : List Char) : Option (BitVec 32 × List Char) := do
  let (a, chars) ← octetForm.read chars
  let (b, chars) ← octetForm.read (← skipChar '.' chars)
  let (c, chars) ← octetForm.read (← skipChar '.' chars)
  let (d, chars) ← octetForm.read (← skipChar '.' chars)
  return (BitVec.ofNat 32 (((a * 256 + b) * 256 + c) * 256 + d), chars)

/-- All groups but the first stand after a colon. -/
def afterColon (isFirst : Bool) (chars : List Char) : Option (List Char) :=
  if isFirst then some chars else skipChar ':' chars

/--
Reads at most `room` groups. A quad at the end counts as two groups and needs
room for both; the flag tells whether one was read.
-/
def readGroups : Nat → Bool → List Char → List Nat × Bool × List Char
  | 0, _, chars => ([], false, chars)
  | room + 1, isFirst, chars =>
      let quad := if room = 0 then none else afterColon isFirst chars >>= readQuad
      match quad with
      | some (bits, rest) => ([bits.toNat / 65536, bits.toNat % 65536], true, rest)
      | none =>
          match afterColon isFirst chars >>= groupForm.read with
          | some (group, rest) =>
              let (others, hasQuad, rest) := readGroups room false rest
              (group :: others, hasQuad, rest)
          | none => ([], false, chars)

/-- The address whose eight groups are given, first group highest. -/
def ofGroups (parts : List Nat) : BitVec 128 :=
  BitVec.ofNat 128 (parts.foldl (fun value group => value * 65536 + group) 0)

/-- Eight groups, or fewer around one `::` that stands for at least one zero group. -/
def readV6 (chars : List Char) : Option (BitVec 128 × List Char) := do
  let (head, hasQuad, rest) := readGroups 8 true chars
  if head.length = 8 then
    return (ofGroups head, rest)
  else if hasQuad then
    none
  else
    let rest ← skipChar ':' (← skipChar ':' rest)
    let (tail, _, rest) := readGroups (7 - head.length) true rest
    let zeros := List.replicate (8 - head.length - tail.length) 0
    return (ofGroups (head ++ zeros ++ tail), rest)

def read (chars : List Char) : Option (IpAddress × List Char) :=
  match readQuad chars with
  | some (bits, rest) => some (.v4 bits, rest)
  | none => (readV6 chars).map fun (bits, rest) => (.v6 bits, rest)

/-- The address a whole text denotes. -/
def parse? (text : String) : Option IpAddress :=
  match read text.toList with
  | some (ip, []) => some ip
  | _ => none

end IpAddress

namespace SocketAddress

def readPort (chars : List Char) : Option (UInt16 × List Char) := do
  let (port, rest) ← portForm.read (← skipChar ':' chars)
  return (UInt16.ofNat port, rest)

/-- Skips a scope such as `%5`, which names an interface and not a peer. -/
def skipScope (chars : List Char) : List Char :=
  match skipChar '%' chars >>= scopeForm.read with
  | some (_, rest) => rest
  | none => chars

def readV4 (chars : List Char) : Option (SocketAddress × List Char) := do
  let (bits, rest) ← IpAddress.readQuad chars
  let (port, rest) ← readPort rest
  return (⟨.v4 bits, port⟩, rest)

def readV6 (chars : List Char) : Option (SocketAddress × List Char) := do
  let (bits, rest) ← IpAddress.readV6 (← skipChar '[' chars)
  let (port, rest) ← readPort (← skipChar ']' (skipScope rest))
  return (⟨.v6 bits, port⟩, rest)

/-- The socket address that characters denote when all of them are used. -/
def ofChars? (chars : List Char) : Option SocketAddress :=
  match (readV4 chars).orElse fun _ => readV6 chars with
  | some (address, []) => some address
  | _ => none

def parse? (text : String) : Option SocketAddress :=
  ofChars? text.toList

end SocketAddress

end Peering
