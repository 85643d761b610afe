import Peering.Address.Text
import Peering.Json.Fault

/-!
# Numerals in JSON

A numeral is a sign, whole digits without leading zeros, and possibly a fraction
and an exponent. Only a natural number of 64 bits written without fraction
and exponent counts as an integer here; any other numeral is taken as a double,
and one beyond the doubles is no number at all.
-/

namespace Peering

namespace Json

/-- The parts of a number as it is written. -/
structure Numeral where
  negative : Bool
  whole : List Char
  /-- The digits after the point; without a point there are none. -/
  fraction : List Char
  /-- The power of ten after an `e`. -/
  exponent : Option Int
deriving DecidableEq, Repr

namespace Numeral

def isDigit (char : Char) : Bool :=
  isDigitIn 10 char

/-! ## Reading -/

/-- All digits at the front, at least one. -/
def readDigits (chars : List Char) : Except Fault (List Char × List Char) :=
  let rest := chars.dropWhile isDigit
  if chars.head?.any isDigit then .ok (chars.takeWhile isDigit, rest)
  else .error (if rest.isEmpty then .ended else .malformed)

/-- A lone zero, or digits that do not start with zero. -/
def readWhole (chars : List Char) : Except Fault (List Char × List Char) := do
  let (found, rest) ← readDigits chars
  if found.head? == some '0' && 1 < found.length then throw .malformed
  return (found, rest)

def readFraction : List Char → Except Fault (List Char × List Char)
  | '.' :: rest => readDigits rest
  | chars => .ok ([], chars)

/-- A possibly signed power of ten. -/
def readPower : List Char → Except Fault (Int × List Char)
  | '-' :: rest => do
      let (found, rest) ← readDigits rest
      return (-Int.ofNat (digitsValue 10 found), rest)
  | '+' :: rest => do
      let (found, rest) ← readDigits rest
      return (Int.ofNat (digitsValue 10 found), rest)
  | chars => do
      let (found, rest) ← readDigits chars
      return (Int.ofNat (digitsValue 10 found), rest)

def readExponent : List Char → Except Fault (Option Int × List Char)
  | [] => .ok (none, [])
  | char :: rest =>
      if char = 'e' ∨ char = 'E' then do
        let (power, rest) ← readPower rest
        return (some power, rest)
      else
        .ok (none, char :: rest)

/-- A numeral without its sign. -/
def readMagnitude (negative : Bool) (chars : List Char) : Except Fault (Numeral × List Char) := do
  let (whole, rest) ← readWhole chars
  let (fraction, rest) ← readFraction rest
  let (exponent, rest) ← readExponent rest
  return ({ negative, whole, fraction, exponent }, rest)

def read : List Char → Except Fault (Numeral × List Char)
  | '-' :: rest => readMagnitude true rest
  | chars => readMagnitude false chars

theorem length_readDigits_lt {chars found rest : List Char}
    (h : readDigits chars = .ok (found, rest)) :
    rest.length < chars.length := by
  cases chars with
  | nil => cases h
  | cons char tail =>
      by_cases hdigit : isDigit char = true
      · simp only [readDigits, List.head?_cons, Option.any_some, hdigit, if_true] at h
        cases h
        rw [List.dropWhile_cons_of_pos hdigit]
        exact Nat.lt_succ_of_le (List.dropWhile_sublist _).length_le
      · simp [readDigits, hdigit] at h

theorem length_readWhole_lt {chars found rest : List Char}
    (h : readWhole chars = .ok (found, rest)) :
    rest.length < chars.length := by
  obtain ⟨⟨digits, left⟩, hdigits, h⟩ := bind_eq_ok h
  dsimp only at h
  split at h
  · cases h
  · cases h
    exact length_readDigits_lt hdigits

theorem length_readFraction_le {chars found rest : List Char}
    (h : readFraction chars = .ok (found, rest)) :
    rest.length ≤ chars.length := by
  unfold readFraction at h
  split at h
  · exact Nat.le_succ_of_le (Nat.le_of_lt (length_readDigits_lt h))
  · cases h
    exact Nat.le_refl _

theorem length_readPower_le {chars rest : List Char} {value : Int}
    (h : readPower chars = .ok (value, rest)) :
    rest.length ≤ chars.length := by
  unfold readPower at h
  split at h <;> obtain ⟨⟨found, left⟩, hdigits, h⟩ := bind_eq_ok h <;> cases h
  · exact Nat.le_succ_of_le (Nat.le_of_lt (length_readDigits_lt hdigits))
  · exact Nat.le_succ_of_le (Nat.le_of_lt (length_readDigits_lt hdigits))
  · exact Nat.le_of_lt (length_readDigits_lt hdigits)

theorem length_readExponent_le {chars rest : List Char} {value : Option Int}
    (h : readExponent chars = .ok (value, rest)) : rest.length ≤ chars.length := by
  unfold readExponent at h
  split at h
  · cases h
    exact Nat.le_refl _
  · split at h
    · obtain ⟨⟨power, left⟩, hpower, h⟩ := bind_eq_ok h
      cases h
      exact Nat.le_succ_of_le (length_readPower_le hpower)
    · cases h
      exact Nat.le_refl _

theorem length_readMagnitude_lt {negative : Bool} {chars rest : List Char} {numeral : Numeral}
    (h : readMagnitude negative chars = .ok (numeral, rest)) : rest.length < chars.length := by
  obtain ⟨⟨_, afterWhole⟩, hwhole, h⟩ := bind_eq_ok h
  obtain ⟨⟨_, afterFraction⟩, hfraction, h⟩ := bind_eq_ok h
  obtain ⟨⟨_, afterExponent⟩, hexponent, h⟩ := bind_eq_ok h
  cases h
  have := length_readWhole_lt hwhole
  have := length_readFraction_le hfraction
  have := length_readExponent_le hexponent
  omega

theorem length_read_lt {chars rest : List Char} {numeral : Numeral}
    (h : read chars = .ok (numeral, rest)) : rest.length < chars.length := by
  unfold read at h
  split at h
  · exact Nat.lt_succ_of_lt (length_readMagnitude_lt h)
  · exact length_readMagnitude_lt h

/-! ## Meaning -/

/-- The natural number a numeral denotes when it is an integer of 64 bits. -/
def natural? (numeral : Numeral) : Option Nat :=
  let value := digitsValue 10 numeral.whole
  if !numeral.negative && numeral.fraction.isEmpty && numeral.exponent.isNone
      && value < UInt64.size then some value
  else none

/-- Appends digits while the number fits into 64 bits; gives the digits left over. -/
def fill (value : Nat) : List Char → Nat × List Char
  | [] => (value, [])
  | digit :: rest =>
      let longer := value * 10 + digitValue digit
      if longer < UInt64.size then fill longer rest else (value, digit :: rest)

/-- The nearest number of 53 bits, zeros at the end not counted; a tie goes to the even one. -/
def nearestDouble (n : Nat) : Nat :=
  let unit := 1 <<< (n.log2 - 52)
  let lower := n / unit
  let excess := n % unit * 2
  if excess < unit ∨ (excess = unit ∧ lower % 2 = 0) then lower * unit else (lower + 1) * unit

/-- From here on numbers round to infinity. -/
def doubleBound : Nat := (1 <<< 1024) - (1 <<< 970)

/--
Whether the double for a numeral is infinite. It is the product of its leading
digits and a power of ten, each rounded to a double first.
-/
def isInfinite (numeral : Numeral) : Bool :=
  let (significand, dropped) := fill 0 numeral.whole
  let (significand, lost) := fill significand numeral.fraction
  let scale := Int.ofNat dropped.length - Int.ofNat (numeral.fraction.length - lost.length)
    + numeral.exponent.getD 0
  let power := scale.toNat
  significand ≠ 0 && 0 ≤ scale
    && (308 < power
      || doubleBound ≤ nearestDouble significand * nearestDouble (Nat.pow 10 power))

end Numeral

/-! ## Integers -/

/-- The fault of a numeral where something else is wanted. -/
def Numeral.fault (numeral : Numeral) : Fault :=
  if numeral.natural?.isNone && numeral.isInfinite then .malformed else .mismatched

end Json

end Peering
