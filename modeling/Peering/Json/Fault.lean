/-!
# Faults of JSON readers

A reader takes its value off the front of the characters and gives back what it
did not use. This module has what all readers share: the ways in which they can
fail, the blanks between tokens, the fixed words, and single marks.

A reader that succeeds never leaves more than it was given; each reader states
so in a lemma, because the loops over lists and objects end by it.
-/

namespace Peering

namespace Json

inductive Fault where
  /-- The text is not JSON. -/
  | malformed
  /-- The text is JSON, but no value of the wanted type. -/
  | mismatched
  /-- The text ends inside a value. -/
  | ended
deriving DecidableEq, Repr

/-- The fault of a value that was read well and is of another type, or the fault in reading it. -/
def faultOf {α : Type} : Except Fault α → Fault
  | .ok _ => .mismatched
  | .error fault => fault

/-- A step of a reader that succeeds comes from a first part and a second part that succeed. -/
theorem bind_eq_ok {ε α β : Type} {first : Except ε α} {second : α → Except ε β} {value : β}
    (h : first >>= second = .ok value) :
    ∃ middle, first = .ok middle ∧ second middle = .ok value := by
  cases first with
  | error => cases h
  | ok middle => exact ⟨middle, rfl, h⟩

/-! ## Blanks -/

/-- The four blanks that may stand between tokens. -/
def isSpace (char : Char) : Bool :=
  char == ' ' || char == '\n' || char == '\t' || char == '\r'

def skipSpaces (chars : List Char) : List Char :=
  chars.dropWhile isSpace

theorem length_skipSpaces_le (chars : List Char) : (skipSpaces chars).length ≤ chars.length :=
  (List.dropWhile_sublist _).length_le

/-! ## Words and marks -/

/-- Skips the letters of a fixed word. -/
def expectWord : List Char → List Char → Except Fault (List Char)
  | [], chars => .ok chars
  | _ :: _, [] => .error .ended
  | expected :: others, char :: rest =>
      if char = expected then expectWord others rest else .error .malformed

theorem length_expectWord_le {word chars rest : List Char} (h : expectWord word chars = .ok rest) :
    rest.length ≤ chars.length := by
  induction word generalizing chars with
  | nil =>
      cases h
      exact Nat.le_refl _
  | cons expected others ih =>
      cases chars with
      | nil => cases h
      | cons char chars =>
          simp only [expectWord] at h
          split at h
          · exact Nat.le_succ_of_le (ih h)
          · cases h

/-- Skips blanks and one mark. -/
def expectMark (mark : Char) (chars : List Char) : Except Fault (List Char) :=
  match skipSpaces chars with
  | [] => .error .ended
  | char :: rest => if char = mark then .ok rest else .error .malformed

theorem length_expectMark_lt {mark : Char} {chars rest : List Char}
    (h : expectMark mark chars = .ok rest) : rest.length < chars.length := by
  have hspaces := length_skipSpaces_le chars
  unfold expectMark at h
  split at h
  · cases h
  · next heq =>
      split at h
      · cases h
        rw [heq] at hspaces
        exact hspaces
      · cases h

/-- Succeeds only when nothing but blanks is left. -/
def expectEnd (chars : List Char) : Except Fault Unit :=
  if (skipSpaces chars).isEmpty then .ok () else .error .malformed

end Json

end Peering
