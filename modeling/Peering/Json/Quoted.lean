import Peering.Address.Text
import Peering.Json.Fault

/-!
# Quoted text in JSON

A text stands between double quotes. A backslash starts an escape; characters
below the blank have to be escaped. A character above `ffff` may be escaped as
a pair of surrogates, and a surrogate on its own is no character.
-/

namespace Peering

namespace Json

namespace Quoted

/-! ## Escapes -/

/-- The characters with an escape of one letter. -/
def shortEscapes : List (Char × Char) :=
  [('"', '"'), ('\\', '\\'), ('/', '/'), ('b', '\x08'), ('f', '\x0c'), ('n', '\n'),
   ('r', '\r'), ('t', '\t')]

/-- The character that an escape letter stands for. -/
def shortEscape? (letter : Char) : Option Char :=
  (shortEscapes.find? (·.1 == letter)).map (·.2)

/-- The code unit in the four hexadecimal digits at the front. -/
def codeUnit (chars : List Char) : Except Fault Nat :=
  let digits := chars.take 4
  if (String.ofList digits).utf8ByteSize < 4 then .error .ended
  else if digits.all (isDigitIn 16) then .ok (digitsValue 16 digits)
  else .error .malformed

def isLeadingSurrogate (unit : Nat) : Bool :=
  0xd800 ≤ unit && unit ≤ 0xdbff

def isTrailingSurrogate (unit : Nat) : Bool :=
  0xdc00 ≤ unit && unit ≤ 0xdfff

/-- The escaped trailing surrogate that has to follow a leading one. -/
def trailingUnit : List Char → Except Fault Nat
  | [] => .error .ended
  | ['\\'] => .error .ended
  | '\\' :: 'u' :: rest => do
      let unit ← codeUnit rest
      if isTrailingSurrogate unit then return unit else throw .malformed
  | _ => .error .malformed

/-- The character after a backslash, and how many characters its escape takes. -/
def escape : List Char → Except Fault (Char × Nat)
  | [] => .error .ended
  | 'u' :: rest => do
      let unit ← codeUnit rest
      if isTrailingSurrogate unit then
        throw .malformed
      else if isLeadingSurrogate unit then
        let trailing ← trailingUnit (rest.drop 4)
        return (Char.ofNat (0x10000 + (unit - 0xd800) * 0x400 + (trailing - 0xdc00)), 11)
      else
        return (Char.ofNat unit, 5)
  | letter :: _ =>
      match shortEscape? letter with
      | some char => .ok (char, 1)
      | none => .error .malformed

/-- How many characters an escape takes when nobody asks for its character. -/
def escapeLength : List Char → Except Fault Nat
  | [] => .error .ended
  | 'u' :: rest => do
      let _ ← codeUnit rest
      return 5
  | letter :: _ => if (shortEscape? letter).isSome then .ok 1 else .error .malformed

/-! ## Reading -/

/-- Characters that may not stand in a text as they are. -/
def isControl (char : Char) : Bool :=
  char.toNat < 0x20

/-- The characters up to the closing quote. -/
def body : List Char → Except Fault (List Char × List Char)
  | [] => .error .ended
  | '"' :: rest => .ok ([], rest)
  | '\\' :: rest => do
      let (char, length) ← escape rest
      let (others, rest) ← body (rest.drop length)
      return (char :: others, rest)
  | char :: rest =>
      if isControl char then .error .malformed
      else do
        let (others, rest) ← body rest
        return (char :: others, rest)
termination_by chars => chars.length

/-- What follows the closing quote. -/
def skipBody : List Char → Except Fault (List Char)
  | [] => .error .ended
  | '"' :: rest => .ok rest
  | '\\' :: rest => do
      let length ← escapeLength rest
      skipBody (rest.drop length)
  | char :: rest => if isControl char then .error .malformed else skipBody rest
termination_by chars => chars.length

theorem length_body_lt {chars text rest : List Char} (h : body chars = .ok (text, rest)) :
    rest.length < chars.length := by
  fun_induction body chars generalizing text rest with
  | case1 => cases h
  | case2 => cases h; exact Nat.lt_succ_self _
  | case3 tail ih =>
      obtain ⟨⟨char, length⟩, _, h⟩ := bind_eq_ok h
      obtain ⟨⟨others, left⟩, hbody, h⟩ := bind_eq_ok h
      cases h
      have := ih length hbody
      simp only [List.length_drop, List.length_cons] at this ⊢
      omega
  | case4 => cases h
  | case5 char tail _ _ _ ih =>
      obtain ⟨⟨others, left⟩, hbody, h⟩ := bind_eq_ok h
      cases h
      exact Nat.lt_succ_of_lt (ih hbody)

theorem length_skipBody_lt {chars rest : List Char} (h : skipBody chars = .ok rest) :
    rest.length < chars.length := by
  fun_induction skipBody chars with
  | case1 => cases h
  | case2 => cases h; exact Nat.lt_succ_self _
  | case3 tail ih =>
      obtain ⟨length, _, h⟩ := bind_eq_ok h
      have := ih length h
      simp only [List.length_drop, List.length_cons] at this ⊢
      omega
  | case4 => cases h
  | case5 char tail _ _ _ ih => exact Nat.lt_succ_of_lt (ih h)

/-! ## Writing -/

/-- A control character without a short escape. -/
def writeUnit (char : Char) : List Char :=
  let digits := hexDigits char.toNat
  '\\' :: 'u' :: List.replicate (4 - digits.length) '0' ++ digits

/-- A character as it stands between quotes. -/
def writeChar (char : Char) : List Char :=
  if char = '"' then ['\\', '"']
  else if char = '\\' then ['\\', '\\']
  else if char = '\x08' then ['\\', 'b']
  else if char = '\x0c' then ['\\', 'f']
  else if char = '\n' then ['\\', 'n']
  else if char = '\r' then ['\\', 'r']
  else if char = '\t' then ['\\', 't']
  else if isControl char then writeUnit char
  else [char]

def write (text : String) : List Char :=
  '"' :: text.toList.flatMap writeChar ++ ['"']

end Quoted

end Json

end Peering
