import Peering.Json.Skip
import Peering.Proofs.Json.Written

/-!
# A value that nobody asks for is skipped whole

`Tree` is JSON as it is meant, `Tree.write` how it stands in a text without blanks. A
skip that stands in front of a written tree, inside any open brackets, ends up behind
it. Main statement: `skipValue_write`.
-/

namespace Peering

namespace Json

inductive Tree where
  | null
  | flag (value : Bool)
  | number (value : Number)
  | text (value : String)
  | list (elements : List Tree)
  | object (members : List (String × Tree))

namespace Tree

mutual

/-- A tree on one line, without blanks. -/
def write : Tree → List Char
  | .null => "null".toList
  | .flag value => if value then "true".toList else "false".toList
  | .number value => value.write
  | .text value => Quoted.write value
  | .list elements => '[' :: (writeElements true elements ++ [']'])
  | .object members => '{' :: (writeMembers true members ++ ['}'])

/-- The elements, with a comma before each but a first one. -/
def writeElements (isFirst : Bool) : List Tree → List Char
  | [] => []
  | element :: later =>
      (if isFirst then [] else [',']) ++ (element.write ++ writeElements false later)

def writeMembers (isFirst : Bool) : List (String × Tree) → List Char
  | [] => []
  | (name, value) :: later =>
      (if isFirst then [] else [',']) ++
        (Quoted.write name ++ ':' :: (value.write ++ writeMembers false later))

end

end Tree

namespace Skip

variable {chars others rest : List Char} {bracket : Bracket} {brackets : List Bracket}

/-! ## One token -/

theorem finish_of_scalar (hstart : start chars = .ok (.scalar rest)) :
    finish .value brackets chars = finish .behind brackets rest := by
  rw [finish]
  split <;> simp_all

theorem finish_of_opening_close (hstart : start chars = .ok (.opening bracket others))
    (hclose : afterOpening bracket others = .ok (.close rest)) :
    finish .value brackets chars = finish .behind brackets rest := by
  rw [finish]
  split
  · simp_all
  · simp_all
  · rename_i found left hfound
    obtain ⟨rfl, rfl⟩ : found = bracket ∧ left = others := by simp_all
    split <;> simp_all

theorem finish_of_opening_value (hstart : start chars = .ok (.opening bracket others))
    (hvalue : afterOpening bracket others = .ok (.value rest)) :
    finish .value brackets chars = finish .value (bracket :: brackets) rest := by
  rw [finish]
  split
  · simp_all
  · simp_all
  · rename_i found left hfound
    obtain ⟨rfl, rfl⟩ : found = bracket ∧ left = others := by simp_all
    split <;> simp_all

theorem finish_of_close (hclose : afterValue bracket chars = .ok (.close rest)) :
    finish .behind (bracket :: brackets) chars = finish .behind brackets rest := by
  rw [finish]
  split <;> simp_all

theorem finish_of_value (hvalue : afterValue bracket chars = .ok (.value rest)) :
    finish .behind (bracket :: brackets) chars = finish .value (bracket :: brackets) rest := by
  rw [finish]
  split <;> simp_all

theorem start_text (value : String) (rest : List Char) :
    start (Quoted.write value ++ rest) = .ok (.scalar rest) := by
  rw [Quoted.write_append, start, skipSpaces_cons (by decide)]
  show (Start.scalar <$> Quoted.skipBody _) = _
  rw [Quoted.skipBody_written]
  rfl

theorem key_write (name : String) (rest : List Char) :
    key (Quoted.write name ++ ':' :: rest) = .ok rest := by
  rw [Quoted.write_append, key, skipSpaces_cons (by decide)]
  show (Quoted.skipBody _ >>= _) = _
  rw [Quoted.skipBody_written]
  exact expectMark_self (show isSpace ':' = false by decide)

/-- A number starts with its sign or a digit. -/
theorem number_eq_cons (value : Number) : ∃ first later, value.write = first :: later ∧
    isSpace first = false ∧ (first == '-' || Numeral.isDigit first) = true := by
  rw [Number.write]
  cases value.negative with
  | true => exact ⟨'-', _, rfl, rfl, rfl⟩
  | false =>
      obtain ⟨first, later, heq, hdigit⟩ := Number.decimalDigits_eq_cons value.whole
      rw [if_neg (by decide), Number.writeMagnitude, heq]
      exact ⟨first, _, rfl, isSpace_of_isDigit hdigit, Bool.or_eq_true_iff.mpr (Or.inr hdigit)⟩

theorem start_number (value : Number) (hends : EndsValue rest) :
    start (value.write ++ rest) = .ok (.scalar rest) := by
  have hread : numeral (value.write ++ rest) = .ok rest := by
    rw [numeral, value.read_write hends]
  obtain ⟨first, later, heq, hspace, hfirst⟩ := number_eq_cons value
  rw [heq, List.cons_append] at hread ⊢
  rw [start, skipSpaces_cons hspace]
  split
  case h_1 hcons => cases hcons
  case h_8 hcons =>
    cases hcons
    rw [if_pos hfirst, hread]
    rfl
  all_goals
    rename_i hcons
    cases hcons
    exact absurd hfirst (by decide)

/-! ## Written trees -/

/-- A tree starts with neither a blank nor a closing bracket. -/
theorem write_eq_cons (tree : Tree) : ∃ first later, tree.write = first :: later ∧
    isSpace first = false ∧ first ≠ ']' := by
  cases tree with
  | null => exact ⟨_, _, rfl, by decide, by decide⟩
  | flag value => cases value <;> exact ⟨_, _, rfl, by decide, by decide⟩
  | number value =>
      obtain ⟨first, later, heq, hspace, hfirst⟩ := number_eq_cons value
      refine ⟨first, later, heq, hspace, ?_⟩
      rintro rfl
      exact absurd hfirst (by decide)
  | text value => exact ⟨_, _, rfl, by decide, by decide⟩
  | list elements => exact ⟨_, _, rfl, by decide, by decide⟩
  | object members => exact ⟨_, _, rfl, by decide, by decide⟩

theorem afterOpening_element (tree : Tree) (rest : List Char) :
    afterOpening .list (tree.write ++ rest) = .ok (.value (tree.write ++ rest)) := by
  obtain ⟨first, later, heq, hspace, hclosing⟩ := write_eq_cons tree
  rw [heq, List.cons_append, afterOpening, skipSpaces_cons hspace]
  exact if_neg hclosing

theorem afterOpening_member (name : String) (rest : List Char) :
    afterOpening .object (Quoted.write name ++ ':' :: rest) = .ok (.value rest) := by
  have hkey := key_write name rest
  rw [Quoted.write_append] at hkey ⊢
  have hquote : '"' ≠ Bracket.object.closing := by decide
  rw [afterOpening, skipSpaces_cons (by decide)]
  show (if '"' = Bracket.object.closing then _ else _) = _
  rw [if_neg hquote, keyIn, hkey]
  rfl

theorem afterValue_element (rest : List Char) :
    afterValue .list (',' :: rest) = .ok (.value rest) :=
  rfl

theorem afterValue_member (name : String) (rest : List Char) :
    afterValue .object (',' :: (Quoted.write name ++ ':' :: rest)) = .ok (.value rest) := by
  have hcomma : ',' ≠ Bracket.object.closing := by decide
  rw [afterValue, skipSpaces_cons (by decide)]
  show (if ',' = Bracket.object.closing then _ else _) = _
  rw [if_neg hcomma, if_pos rfl, keyIn, key_write]
  rfl

theorem endsValue_elements (later : List Tree) (rest : List Char) :
    EndsValue (Tree.writeElements false later ++ ']' :: rest) := by
  cases later with
  | nil => exact endsValue_cons (Or.inr (Or.inl rfl))
  | cons element later => exact endsValue_cons (Or.inl rfl)

theorem endsValue_members (later : List (String × Tree)) (rest : List Char) :
    EndsValue (Tree.writeMembers false later ++ '}' :: rest) := by
  cases later with
  | nil => exact endsValue_cons (Or.inr (Or.inr rfl))
  | cons member later => exact endsValue_cons (Or.inl rfl)

mutual

/-- A skip passes over a tree, whatever brackets are open around it. -/
theorem finish_tree : ∀ (tree : Tree) (brackets : List Bracket) (rest : List Char),
    EndsValue rest → finish .value brackets (tree.write ++ rest) = finish .behind brackets rest
  | .null, _, _, _ => finish_of_scalar rfl
  | .flag true, _, _, _ => finish_of_scalar rfl
  | .flag false, _, _, _ => finish_of_scalar rfl
  | .number value, _, _, hends => by
      rw [Tree.write]
      exact finish_of_scalar (start_number value hends)
  | .text value, _, rest, _ => by
      rw [Tree.write]
      exact finish_of_scalar (start_text value rest)
  | .list [], _, _, _ => finish_of_opening_close rfl rfl
  | .list (element :: later), brackets, rest, _ => by
      have hchars : (Tree.list (element :: later)).write ++ rest =
          '[' :: (element.write ++ (Tree.writeElements false later ++ ']' :: rest)) := by
        simp [Tree.write, Tree.writeElements]
      rw [hchars, finish_of_opening_value rfl (afterOpening_element element _),
        finish_tree element _ _ (endsValue_elements later rest), finish_elements later]
  | .object [], _, _, _ => finish_of_opening_close rfl rfl
  | .object ((name, value) :: later), brackets, rest, _ => by
      have hchars : (Tree.object ((name, value) :: later)).write ++ rest =
          '{' :: (Quoted.write name ++
            ':' :: (value.write ++ (Tree.writeMembers false later ++ '}' :: rest))) := by
        simp [Tree.write, Tree.writeMembers]
      rw [hchars, finish_of_opening_value rfl (afterOpening_member name _),
        finish_tree value _ _ (endsValue_members later rest), finish_members later]

/-- The elements behind a first one, and the bracket that closes their list. -/
theorem finish_elements : ∀ (elements : List Tree) (brackets : List Bracket) (rest : List Char),
    finish .behind (.list :: brackets) (Tree.writeElements false elements ++ ']' :: rest) =
      finish .behind brackets rest
  | [], _, _ => finish_of_close rfl
  | element :: later, brackets, rest => by
      have hchars : Tree.writeElements false (element :: later) ++ ']' :: rest =
          ',' :: (element.write ++ (Tree.writeElements false later ++ ']' :: rest)) := by
        simp [Tree.writeElements]
      rw [hchars, finish_of_value (afterValue_element _),
        finish_tree element _ _ (endsValue_elements later rest), finish_elements later]

/-- The members behind a first one, and the bracket that closes their object. -/
theorem finish_members : ∀ (members : List (String × Tree)) (brackets : List Bracket)
    (rest : List Char),
    finish .behind (.object :: brackets) (Tree.writeMembers false members ++ '}' :: rest) =
      finish .behind brackets rest
  | [], _, _ => finish_of_close rfl
  | (name, value) :: later, brackets, rest => by
      have hchars : Tree.writeMembers false ((name, value) :: later) ++ '}' :: rest =
          ',' :: (Quoted.write name ++
            ':' :: (value.write ++ (Tree.writeMembers false later ++ '}' :: rest))) := by
        simp [Tree.writeMembers]
      rw [hchars, finish_of_value (afterValue_member name _),
        finish_tree value _ _ (endsValue_members later rest), finish_members later]

end

end Skip

/-- What stands behind a written tree is what a skip of it leaves. -/
theorem skipValue_write (tree : Tree) {rest : List Char} (hends : EndsValue rest) :
    skipValue (tree.write ++ rest) = .ok rest := by
  rw [skipValue, Skip.finish_tree tree [] rest hends, Skip.finish]

end Json

end Peering
