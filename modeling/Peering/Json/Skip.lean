import Peering.Json.Reader

/-!
# Skipping a JSON value

A value that nobody asks for is passed over, however deep its lists and objects
are nested. It has to be JSON, but texts in it may hold lone surrogates, and a
numeral in it that is not complete is malformed even at the end of the text.
-/

namespace Peering

namespace Json

namespace Skip

/-- An opened list or object. -/
inductive Bracket where
  | list
  | object
deriving DecidableEq, Repr

def Bracket.closing : Bracket → Char
  | .list => ']'
  | .object => '}'

/-- Skips a numeral. -/
def numeral (chars : List Char) : Except Fault (List Char) :=
  match Numeral.read chars with
  | .ok (_, rest) => .ok rest
  | .error _ => .error .malformed

/-- Skips a key and its colon. -/
def key (chars : List Char) : Except Fault (List Char) :=
  match skipSpaces chars with
  | [] => .error .ended
  | '"' :: rest => do expectMark ':' (← Quoted.skipBody rest)
  | _ => .error .malformed

/-- Skips the key in front of a value, if it stands in an object. -/
def keyIn : Bracket → List Char → Except Fault (List Char)
  | .list, chars => .ok chars
  | .object, chars => key chars

/-- What stands at the front of a value. -/
inductive Start where
  /-- A value without parts, and what follows it. -/
  | scalar (rest : List Char)
  /-- An opening bracket, and what follows it. -/
  | opening (bracket : Bracket) (rest : List Char)

def start (chars : List Char) : Except Fault Start :=
  match skipSpaces chars with
  | [] => .error .ended
  | '[' :: rest => .ok (.opening .list rest)
  | '{' :: rest => .ok (.opening .object rest)
  | 'n' :: rest => .scalar <$> expectWord "ull".toList rest
  | 't' :: rest => .scalar <$> expectWord "rue".toList rest
  | 'f' :: rest => .scalar <$> expectWord "alse".toList rest
  | '"' :: rest => .scalar <$> Quoted.skipBody rest
  | char :: rest =>
      if char == '-' || Numeral.isDigit char then .scalar <$> numeral (char :: rest)
      else .error .malformed

/-- Where to go on inside brackets. -/
inductive Onward where
  /-- The bracket is closed here. -/
  | close (rest : List Char)
  /-- A value follows. -/
  | value (chars : List Char)

/-- Looks for the first value behind an opening bracket. -/
def afterOpening (bracket : Bracket) (chars : List Char) : Except Fault Onward :=
  match skipSpaces chars with
  | [] => .error .ended
  | char :: rest =>
      if char = bracket.closing then .ok (.close rest)
      else .value <$> keyIn bracket (char :: rest)

/-- Looks for what follows a value inside brackets. -/
def afterValue (bracket : Bracket) (chars : List Char) : Except Fault Onward :=
  match skipSpaces chars with
  | [] => .error .ended
  | char :: rest =>
      if char = bracket.closing then .ok (.close rest)
      else if char = ',' then .value <$> keyIn bracket rest
      else .error .malformed

theorem map_eq_ok {α β : Type} {f : α → β} {result : Except Fault α} {value : β}
    (h : f <$> result = .ok value) : ∃ inner, result = .ok inner ∧ f inner = value := by
  cases result with
  | error => cases h
  | ok inner => exact ⟨inner, rfl, Except.ok.inj h⟩

theorem length_numeral_lt {chars rest : List Char} (h : numeral chars = .ok rest) :
    rest.length < chars.length := by
  unfold numeral at h
  split at h
  · next hread =>
      cases h
      exact Numeral.length_read_lt hread
  · cases h

theorem length_keyIn_le {bracket : Bracket} {chars rest : List Char}
    (h : keyIn bracket chars = .ok rest) : rest.length ≤ chars.length := by
  cases bracket with
  | list =>
      cases h
      exact Nat.le_refl _
  | object =>
      have hspaces := length_skipSpaces_le chars
      simp only [keyIn, key] at h
      split at h
      · cases h
      · next heq =>
          obtain ⟨left, hbody, h⟩ := bind_eq_ok h
          have := Quoted.length_skipBody_lt hbody
          have := length_expectMark_lt h
          simp only [heq, List.length_cons] at hspaces
          omega
      · cases h

/-- What is left behind the front of a value. -/
def Start.rest : Start → List Char
  | .scalar rest => rest
  | .opening _ rest => rest

theorem length_start_lt {chars : List Char} {found : Start} (h : start chars = .ok found) :
    found.rest.length < chars.length := by
  have hspaces := length_skipSpaces_le chars
  unfold start at h
  split at h
  · cases h
  · next heq => cases h; rw [heq] at hspaces; exact hspaces
  · next heq => cases h; rw [heq] at hspaces; exact hspaces
  · next heq =>
      obtain ⟨left, hword, rfl⟩ := map_eq_ok h
      rw [heq] at hspaces
      exact Nat.lt_of_lt_of_le (Nat.lt_succ_of_le (length_expectWord_le hword)) hspaces
  · next heq =>
      obtain ⟨left, hword, rfl⟩ := map_eq_ok h
      rw [heq] at hspaces
      exact Nat.lt_of_lt_of_le (Nat.lt_succ_of_le (length_expectWord_le hword)) hspaces
  · next heq =>
      obtain ⟨left, hword, rfl⟩ := map_eq_ok h
      rw [heq] at hspaces
      exact Nat.lt_of_lt_of_le (Nat.lt_succ_of_le (length_expectWord_le hword)) hspaces
  · next heq =>
      obtain ⟨left, hbody, rfl⟩ := map_eq_ok h
      rw [heq] at hspaces
      exact Nat.lt_of_lt_of_le (Nat.lt_succ_of_lt (Quoted.length_skipBody_lt hbody)) hspaces
  · next heq =>
      split at h
      · obtain ⟨left, hnumeral, rfl⟩ := map_eq_ok h
        rw [heq] at hspaces
        exact Nat.lt_of_lt_of_le (length_numeral_lt hnumeral) hspaces
      · cases h

/-- What is left where reading goes on. -/
def Onward.rest : Onward → List Char
  | .close rest => rest
  | .value chars => chars

theorem length_afterOpening_le {bracket : Bracket} {chars : List Char} {onward : Onward}
    (h : afterOpening bracket chars = .ok onward) : onward.rest.length ≤ chars.length := by
  have hspaces := length_skipSpaces_le chars
  unfold afterOpening at h
  split at h
  · cases h
  · next heq =>
      rw [heq] at hspaces
      split at h
      · cases h
        exact Nat.le_of_succ_le hspaces
      · obtain ⟨left, hkey, rfl⟩ := map_eq_ok h
        exact Nat.le_trans (length_keyIn_le hkey) hspaces

theorem length_afterValue_lt {bracket : Bracket} {chars : List Char} {onward : Onward}
    (h : afterValue bracket chars = .ok onward) : onward.rest.length < chars.length := by
  have hspaces := length_skipSpaces_le chars
  unfold afterValue at h
  split at h
  · cases h
  · next heq =>
      rw [heq] at hspaces
      split at h
      · cases h
        exact hspaces
      · split at h
        · obtain ⟨left, hkey, rfl⟩ := map_eq_ok h
          exact Nat.lt_of_le_of_lt (length_keyIn_le hkey) hspaces
        · cases h

/-- Where a skip stands between two tokens. -/
inductive Place where
  /-- A value has to stand here. -/
  | value
  /-- A value has just ended here. -/
  | behind
deriving DecidableEq, Repr

/-- Skips to the end of the outermost of the open brackets, given innermost first. -/
def finish (place : Place) (brackets : List Bracket) (chars : List Char) :
    Except Fault (List Char) :=
  match place, brackets with
  | .behind, [] => .ok chars
  | .behind, bracket :: outer =>
      match _ : afterValue bracket chars with
      | .error fault => .error fault
      | .ok (.close rest) => finish .behind outer rest
      | .ok (.value others) => finish .value (bracket :: outer) others
  | .value, brackets =>
      match _ : start chars with
      | .error fault => .error fault
      | .ok (.scalar rest) => finish .behind brackets rest
      | .ok (.opening bracket rest) =>
          match _ : afterOpening bracket rest with
          | .error fault => .error fault
          | .ok (.close rest) => finish .behind brackets rest
          | .ok (.value others) => finish .value (bracket :: brackets) others
termination_by chars.length
decreasing_by
  · exact length_afterValue_lt (by assumption)
  · exact length_afterValue_lt (by assumption)
  · exact length_start_lt (by assumption)
  · exact Nat.lt_of_le_of_lt (length_afterOpening_le (by assumption))
      (length_start_lt (by assumption))
  · exact Nat.lt_of_le_of_lt (length_afterOpening_le (by assumption))
      (length_start_lt (by assumption))

theorem length_finish_le {place : Place} {brackets : List Bracket} {chars rest : List Char}
    (h : finish place brackets chars = .ok rest) :
    rest.length ≤ chars.length ∧ (place = .value → rest.length < chars.length) := by
  fun_induction finish place brackets chars with
  | case1 => cases h; exact ⟨Nat.le_refl _, by simp⟩
  | case2 => cases h
  | case3 _ _ _ _ hnext ih =>
      have := length_afterValue_lt hnext
      exact ⟨Nat.le_of_lt (Nat.lt_of_le_of_lt (ih h).1 this), by simp⟩
  | case4 _ _ _ _ hnext ih =>
      have := length_afterValue_lt hnext
      exact ⟨Nat.le_of_lt (Nat.lt_of_le_of_lt (ih h).1 this), by simp⟩
  | case5 => cases h
  | case6 _ _ _ hstart ih =>
      have := Nat.lt_of_le_of_lt (ih h).1 (length_start_lt hstart)
      exact ⟨Nat.le_of_lt this, fun _ => this⟩
  | case7 => cases h
  | case8 _ _ _ _ hstart _ hnext ih =>
      have hopened := Nat.lt_of_le_of_lt (length_afterOpening_le hnext) (length_start_lt hstart)
      have := Nat.lt_of_le_of_lt (ih h).1 hopened
      exact ⟨Nat.le_of_lt this, fun _ => this⟩
  | case9 _ _ _ _ hstart _ hnext ih =>
      have hopened := Nat.lt_of_le_of_lt (length_afterOpening_le hnext) (length_start_lt hstart)
      have := Nat.lt_of_le_of_lt (ih h).1 hopened
      exact ⟨Nat.le_of_lt this, fun _ => this⟩

end Skip

/-- Skips one value. -/
def skipValue (chars : List Char) : Except Fault (List Char) :=
  Skip.finish .value [] chars

theorem length_skipValue_lt {chars rest : List Char} (h : skipValue chars = .ok rest) :
    rest.length < chars.length :=
  (Skip.length_finish_le h).2 rfl

end Json

end Peering
