import Peering.Json.Numeral
import Peering.Json.Quoted

/-!
# Typed readers of JSON values

Each reader takes a value of one type. Given a value of another type it reads
far enough to tell whether that was JSON at all.
-/

namespace Peering

namespace Json

/-- The fault of a value that is not of the wanted type. -/
def mismatch (chars : List Char) : Fault :=
  match skipSpaces chars with
  | [] => .ended
  | 'n' :: rest => faultOf (expectWord "ull".toList rest)
  | 't' :: rest => faultOf (expectWord "rue".toList rest)
  | 'f' :: rest => faultOf (expectWord "alse".toList rest)
  | '"' :: rest => faultOf (Quoted.body rest)
  | '[' :: _ => .mismatched
  | '{' :: _ => .mismatched
  | char :: rest =>
      if char == '-' || Numeral.isDigit char then
        match Numeral.read (char :: rest) with
        | .ok (numeral, _) => numeral.fault
        | .error fault => fault
      else .malformed

/-! ## Scalars -/

def readNull (chars : List Char) : Except Fault (List Char) :=
  match skipSpaces chars with
  | 'n' :: rest => expectWord "ull".toList rest
  | others => .error (mismatch others)

def readBool (chars : List Char) : Except Fault (Bool × List Char) :=
  match skipSpaces chars with
  | 't' :: rest => do return (true, ← expectWord "rue".toList rest)
  | 'f' :: rest => do return (false, ← expectWord "alse".toList rest)
  | others => .error (mismatch others)

/-- The value of a numeral that is a natural number up to `greatest`. -/
def naturalUpTo (greatest : Nat) (numeral : Numeral) : Except Fault Nat :=
  match numeral.natural? with
  | some value => if value ≤ greatest then .ok value else .error .mismatched
  | none => .error numeral.fault

def readNatural (greatest : Nat) (chars : List Char) : Except Fault (Nat × List Char) :=
  match skipSpaces chars with
  | [] => .error .ended
  | char :: rest =>
      if char == '-' || Numeral.isDigit char then do
        let (numeral, rest) ← Numeral.read (char :: rest)
        return (← naturalUpTo greatest numeral, rest)
      else .error (mismatch (char :: rest))

def readText (chars : List Char) : Except Fault (String × List Char) :=
  match skipSpaces chars with
  | '"' :: rest => do
      let (text, rest) ← Quoted.body rest
      return (String.ofList text, rest)
  | others => .error (mismatch others)

theorem length_readNull_lt {chars rest : List Char} (h : readNull chars = .ok rest) :
    rest.length < chars.length := by
  have hspaces := length_skipSpaces_le chars
  unfold readNull at h
  split at h
  · next heq =>
      have := length_expectWord_le h
      simp only [heq, List.length_cons] at hspaces
      omega
  · cases h

theorem length_readBool_lt {chars rest : List Char} {value : Bool}
    (h : readBool chars = .ok (value, rest)) : rest.length < chars.length := by
  have hspaces := length_skipSpaces_le chars
  unfold readBool at h
  split at h
  · next heq =>
      obtain ⟨left, hword, h⟩ := bind_eq_ok h
      cases h
      have := length_expectWord_le hword
      simp only [heq, List.length_cons] at hspaces
      omega
  · next heq =>
      obtain ⟨left, hword, h⟩ := bind_eq_ok h
      cases h
      have := length_expectWord_le hword
      simp only [heq, List.length_cons] at hspaces
      omega
  · cases h

theorem length_readNatural_lt {greatest value : Nat} {chars rest : List Char}
    (h : readNatural greatest chars = .ok (value, rest)) : rest.length < chars.length := by
  have hspaces := length_skipSpaces_le chars
  unfold readNatural at h
  split at h
  · cases h
  · next heq =>
      split at h
      · obtain ⟨⟨numeral, left⟩, hnumeral, h⟩ := bind_eq_ok h
        obtain ⟨number, _, h⟩ := bind_eq_ok h
        cases h
        have := Numeral.length_read_lt hnumeral
        rw [heq] at hspaces
        omega
      · cases h

theorem length_readText_lt {chars rest : List Char} {text : String}
    (h : readText chars = .ok (text, rest)) : rest.length < chars.length := by
  have hspaces := length_skipSpaces_le chars
  unfold readText at h
  split at h
  · next heq =>
      obtain ⟨⟨body, left⟩, hbody, h⟩ := bind_eq_ok h
      cases h
      have := Quoted.length_body_lt hbody
      simp only [heq, List.length_cons] at hspaces
      omega
  · cases h

/-! ## Lists -/

/-- Where the next element of a list stands, or what follows the list. -/
inductive Element where
  | element (chars : List Char)
  | close (rest : List Char)

/-- Looks for the next element; all but the first stand after a comma. -/
def nextElement (isFirst : Bool) (chars : List Char) : Except Fault Element :=
  match skipSpaces chars with
  | [] => .error .ended
  | ']' :: rest => .ok (.close rest)
  | char :: rest =>
      if isFirst then .ok (.element (char :: rest))
      else if char = ',' then
        match skipSpaces rest with
        | [] => .error .ended
        | ']' :: _ => .error .malformed
        | others => .ok (.element others)
      else .error .malformed

theorem length_nextElement_le {isFirst : Bool} {chars others : List Char}
    (h : nextElement isFirst chars = .ok (.element others)) : others.length ≤ chars.length := by
  have hspaces := length_skipSpaces_le chars
  unfold nextElement at h
  split at h
  · cases h
  · cases h
  · next char rest _ heq =>
      rw [heq] at hspaces
      split at h
      · cases h
        exact hspaces
      · split at h
        · have hrest := length_skipSpaces_le rest
          split at h
          · cases h
          · cases h
          · cases h
            simp only [List.length_cons] at hspaces
            omega
        · cases h

theorem length_nextElement_close_lt {isFirst : Bool} {chars rest : List Char}
    (h : nextElement isFirst chars = .ok (.close rest)) : rest.length < chars.length := by
  have hspaces := length_skipSpaces_le chars
  unfold nextElement at h
  split at h
  · cases h
  · next heq =>
      cases h
      rw [heq] at hspaces
      exact hspaces
  · split at h
    · cases h
    · split at h
      · split at h <;> cases h
      · cases h

/-- The elements of a list of texts up to its closing bracket. -/
def textElements (isFirst : Bool) (chars : List Char) : Except Fault (List String × List Char) :=
  match _ : nextElement isFirst chars with
  | .error fault => .error fault
  | .ok (.close rest) => .ok ([], rest)
  | .ok (.element others) =>
      match _ : readText others with
      | .error fault => .error fault
      | .ok (text, rest) => do
          let (texts, rest) ← textElements false rest
          return (text :: texts, rest)
termination_by chars.length
decreasing_by
  exact Nat.lt_of_lt_of_le (length_readText_lt (by assumption))
    (length_nextElement_le (by assumption))

def readTexts (chars : List Char) : Except Fault (List String × List Char) :=
  match skipSpaces chars with
  | '[' :: rest => textElements true rest
  | others => .error (mismatch others)

theorem length_textElements_lt {isFirst : Bool} {chars rest : List Char} {texts : List String}
    (h : textElements isFirst chars = .ok (texts, rest)) : rest.length < chars.length := by
  fun_induction textElements isFirst chars generalizing texts rest with
  | case1 => cases h
  | case2 _ _ _ hnext =>
      cases h
      exact length_nextElement_close_lt hnext
  | case3 => cases h
  | case4 _ _ _ hnext _ _ htext ih =>
      obtain ⟨⟨others, left⟩, hothers, h⟩ := bind_eq_ok h
      cases h
      have := ih hothers
      have := length_readText_lt htext
      have := length_nextElement_le hnext
      omega

theorem length_readTexts_lt {chars rest : List Char} {texts : List String}
    (h : readTexts chars = .ok (texts, rest)) : rest.length < chars.length := by
  have hspaces := length_skipSpaces_le chars
  unfold readTexts at h
  split at h
  · next heq =>
      have := length_textElements_lt h
      simp only [heq, List.length_cons] at hspaces
      omega
  · cases h

end Json

end Peering
