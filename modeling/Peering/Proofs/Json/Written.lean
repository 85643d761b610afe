import Peering.Json.Reader
import Peering.Proofs.Address.Written

/-!
# Written JSON is read back

Every reader is met with what is written for it, followed by anything that can stand
behind a value: nothing, a comma or a closing bracket. Blanks between tokens are never
written, so no reader has to skip any.
-/

namespace Peering

namespace Json

variable {char : Char} {chars rest : List Char}

/-! ## Between values -/

/-- Nothing that could be taken for more of a value stands at the front. -/
def EndsValue (rest : List Char) : Prop :=
  ∀ char ∈ rest.head?, char = ',' ∨ char = ']' ∨ char = '}'

theorem endsValue_cons (hchar : char = ',' ∨ char = ']' ∨ char = '}') : EndsValue (char :: rest) := by
  rintro _ ⟨⟩
  exact hchar

theorem EndsValue.noDigitAhead (hends : EndsValue rest) : NoDigitAhead 10 rest := by
  intro char hchar
  rcases hends char hchar with rfl | rfl | rfl <;> decide

theorem skipSpaces_cons (hchar : isSpace char = false) : skipSpaces (char :: rest) = char :: rest :=
  List.dropWhile_cons_of_neg (by simp [hchar])

theorem expectMark_self (hmark : isSpace char = false) :
    expectMark char (char :: rest) = .ok rest := by
  rw [expectMark, skipSpaces_cons hmark]
  exact if_pos rfl

/-- The parts in the order of writing, with a comma before each but a first one. -/
def ahead : Bool → List (List Char) → List Char
  | _, [] => []
  | true, part :: later => part ++ ahead false later
  | false, part :: later => ',' :: (part ++ ahead false later)

theorem intercalate_comma (parts : List (List Char)) :
    List.intercalate [','] parts = ahead true parts := by
  cases parts with
  | nil => rfl
  | cons part later =>
      rw [ahead]
      induction later generalizing part with
      | nil => simp [ahead]
      | cons next later ih => rw [List.intercalate_cons_cons, ih, ahead, List.append_assoc]; rfl

theorem endsValue_ahead (parts : List (List Char)) (hends : EndsValue rest) :
    EndsValue (ahead false parts ++ rest) := by
  cases parts with
  | nil => exact hends
  | cons part later => exact endsValue_cons (Or.inl rfl)

/-! ## Texts -/

namespace Quoted

/-- An escape without its backslash, and the character that it is one of. -/
def Escapes (letters : List Char) (char : Char) : Prop :=
  ∀ rest, escape (letters ++ rest) = .ok (char, letters.length) ∧
    escapeLength (letters ++ rest) = .ok letters.length

theorem escapes_short {letter : Char} (hletter : letter ≠ 'u')
    (hshort : shortEscape? letter = some char) : Escapes [letter] char := by
  intro rest
  constructor
  · simp [escape, hshort]
  · simp [escapeLength, hshort]

/-- Four digits at the front are one code unit. -/
theorem codeUnit_append {digits : List Char} (hlength : digits.length = 4)
    (hsize : (String.ofList digits).utf8ByteSize = 4) (hdigits : digits.all (isDigitIn 16) = true) :
    codeUnit (digits ++ rest) = .ok (digitsValue 16 digits) := by
  have htake : (digits ++ rest).take 4 = digits := by rw [← hlength, List.take_left]
  simp [codeUnit, htake, hsize, hdigits]

/-- A control character is written with four digits that denote it. -/
theorem codeUnit_control {n : Nat} (hcontrol : n < 0x20) (rest : List Char) :
    let digits := List.replicate (4 - (hexDigits n).length) '0' ++ hexDigits n
    digits.length = 4 ∧ codeUnit (digits ++ rest) = .ok n := by
  intro digits
  have hall : ∀ n < 0x20,
      let digits := List.replicate (4 - (hexDigits n).length) '0' ++ hexDigits n
      digits.length = 4 ∧ (String.ofList digits).utf8ByteSize = 4 ∧
        digits.all (isDigitIn 16) = true ∧ digitsValue 16 digits = n := by
    decide +kernel
  obtain ⟨hlength, hsize, hdigits, hvalue⟩ := hall n hcontrol
  exact ⟨hlength, by rw [codeUnit_append hlength hsize hdigits, hvalue]⟩

theorem writeUnit_escapes (hcontrol : isControl char = true) :
    ∃ letters, writeUnit char = '\\' :: letters ∧ Escapes letters char := by
  have hless : char.toNat < 0x20 := of_decide_eq_true hcontrol
  have htrailing : isTrailingSurrogate char.toNat = false := by
    simp only [isTrailingSurrogate, Bool.and_eq_false_iff, decide_eq_false_iff_not]
    omega
  have hleading : isLeadingSurrogate char.toNat = false := by
    simp only [isLeadingSurrogate, Bool.and_eq_false_iff, decide_eq_false_iff_not]
    omega
  refine ⟨_, rfl, fun rest => ?_⟩
  obtain ⟨hlength, hunit⟩ := codeUnit_control hless rest
  have hcount : ∀ digits : List Char, digits.length = 4 → ('u' :: digits).length = 5 :=
    fun _ hfour => congrArg Nat.succ hfour
  constructor
  · simp only [List.cons_append, List.append_eq, escape, hunit, hcount _ hlength]
    simp [bind, Except.bind, pure, Except.pure, htrailing, hleading, Char.ofNat_toNat]
  · simp only [List.cons_append, List.append_eq, escapeLength, hunit, hcount _ hlength]
    rfl

/-- A character is written as an escape of it, or as it is. -/
theorem writeChar_cases (char : Char) :
    (∃ letters, writeChar char = '\\' :: letters ∧ Escapes letters char) ∨
      (writeChar char = [char] ∧ char ≠ '"' ∧ char ≠ '\\' ∧ isControl char = false) := by
  unfold writeChar
  iterate 7
    split
    · rename_i heq
      subst heq
      exact Or.inl ⟨_, rfl, escapes_short (by decide) (by decide)⟩
  split
  · rename_i hcontrol
    exact Or.inl (writeUnit_escapes hcontrol)
  · rename_i hquote hbackslash _ _ _ _ _ hplain
    exact Or.inr ⟨rfl, hquote, hbackslash, Bool.eq_false_iff.mpr hplain⟩

theorem body_writeChar (char : Char) (chars : List Char) :
    body (writeChar char ++ chars) = do
      let (others, rest) ← body chars
      return (char :: others, rest) := by
  rcases writeChar_cases char with ⟨letters, hwrite, hescapes⟩ | ⟨hwrite, hquote, hbackslash, hplain⟩
  · rw [hwrite, List.cons_append, body, (hescapes chars).1]
    show (body ((letters ++ chars).drop letters.length) >>= _) = _
    rw [List.drop_left]
  · rw [hwrite, List.singleton_append, body, if_neg (by simp [hplain])]
    · exact hquote
    · exact hbackslash

theorem skipBody_writeChar (char : Char) (chars : List Char) :
    skipBody (writeChar char ++ chars) = skipBody chars := by
  rcases writeChar_cases char with ⟨letters, hwrite, hescapes⟩ | ⟨hwrite, hquote, hbackslash, hplain⟩
  · rw [hwrite, List.cons_append, skipBody, (hescapes chars).2]
    show skipBody ((letters ++ chars).drop letters.length) = _
    rw [List.drop_left]
  · rw [hwrite, List.singleton_append, skipBody, if_neg (by simp [hplain])]
    · exact hquote
    · exact hbackslash

theorem body_written (text rest : List Char) :
    body (text.flatMap writeChar ++ '"' :: rest) = .ok (text, rest) := by
  induction text with
  | nil => rw [List.flatMap_nil, List.nil_append, body]
  | cons char text ih =>
      rw [List.flatMap_cons, List.append_assoc, body_writeChar, ih]
      rfl

theorem skipBody_written (text rest : List Char) :
    skipBody (text.flatMap writeChar ++ '"' :: rest) = .ok rest := by
  induction text with
  | nil => rw [List.flatMap_nil, List.nil_append, skipBody]
  | cons char text ih => rw [List.flatMap_cons, List.append_assoc, skipBody_writeChar, ih]

theorem write_append (text : String) (rest : List Char) :
    write text ++ rest = '"' :: (text.toList.flatMap writeChar ++ '"' :: rest) := by
  simp [write]

end Quoted

theorem readText_write (text : String) (rest : List Char) :
    readText (Quoted.write text ++ rest) = .ok (text, rest) := by
  rw [Quoted.write_append, readText, skipSpaces_cons (by decide)]
  show (Quoted.body _ >>= _) = _
  rw [Quoted.body_written]
  exact congrArg (fun text => Except.ok (text, rest)) String.ofList_toList

/-! ## Numbers -/

namespace Numeral

theorem isDigit_decimalDigits (n : Nat) : ∀ char ∈ decimalDigits n, isDigit char = true :=
  fun _ hchar => isDigitIn_of_mem_toDigits (by decide) (by decide) hchar

theorem readDigits_append {digits : List Char} (hsome : digits ≠ [])
    (hdigits : ∀ char ∈ digits, isDigit char = true) (hends : NoDigitAhead 10 rest) :
    readDigits (digits ++ rest) = .ok (digits, rest) := by
  obtain ⟨first, later, rfl⟩ := List.exists_cons_of_ne_nil hsome
  have hstop : rest.takeWhile isDigit = [] ∧ rest.dropWhile isDigit = rest := by
    cases rest with
    | nil => exact ⟨rfl, rfl⟩
    | cons char rest => simp [isDigit, hends char rfl]
  simp only [readDigits, List.takeWhile_append_of_pos hdigits, List.dropWhile_append_of_pos hdigits,
    hstop]
  rw [if_pos (by simp [hdigits first List.mem_cons_self]), List.append_nil]

/-- Whole digits have no zero in front of another digit. -/
theorem readWhole_decimalDigits (n : Nat) (hends : NoDigitAhead 10 rest) :
    readWhole (decimalDigits n ++ rest) = .ok (decimalDigits n, rest) := by
  have hleading : ((decimalDigits n).head? == some '0' && decide (1 < (decimalDigits n).length)) =
      false := by
    by_cases hzero : (decimalDigits n).head? = some '0'
    · obtain rfl := head_toDigits (by decide) (by decide) hzero
      rfl
    · simp [hzero]
  have hread : readDigits (decimalDigits n ++ rest) = .ok (decimalDigits n, rest) :=
    readDigits_append Nat.toDigits_ne_nil (isDigit_decimalDigits n) hends
  rw [readWhole, hread]
  show (if _ then _ else _) = _
  rw [if_neg (by simp [hleading])]
  rfl

end Numeral

/-- A number as it can be written: digits, and a power of ten to multiply them with. -/
structure Number where
  negative : Bool
  whole : Nat
  fraction : List (Fin 10)
  exponent : Option Int
deriving DecidableEq

namespace Number

def ofNat (n : Nat) : Number :=
  ⟨false, n, [], none⟩

def fractionDigits (fraction : List (Fin 10)) : List Char :=
  fraction.map fun digit : Fin 10 => Nat.digitChar digit.val

def writeFraction (fraction : List (Fin 10)) : List Char :=
  if fraction.isEmpty then [] else '.' :: fractionDigits fraction

def writePower : Int → List Char
  | .ofNat power => decimalDigits power
  | .negSucc power => '-' :: decimalDigits (power + 1)

def writeExponent : Option Int → List Char
  | none => []
  | some power => 'e' :: writePower power

def writeMagnitude (number : Number) : List Char :=
  decimalDigits number.whole ++ (writeFraction number.fraction ++ writeExponent number.exponent)

def write (number : Number) : List Char :=
  if number.negative then '-' :: number.writeMagnitude else number.writeMagnitude

/-- The parts that are read off it. -/
def numeral (number : Number) : Numeral :=
  ⟨number.negative, decimalDigits number.whole, fractionDigits number.fraction, number.exponent⟩

theorem write_ofNat (n : Nat) : (ofNat n).write = decimalDigits n := by
  simp [write, ofNat, writeMagnitude, writeFraction, writeExponent]

theorem decimalDigits_eq_cons (n : Nat) :
    ∃ first later, decimalDigits n = first :: later ∧ Numeral.isDigit first = true := by
  obtain ⟨first, later, heq⟩ := List.exists_cons_of_ne_nil (Nat.toDigits_ne_nil (n := n) (b := 10))
  refine ⟨first, later, heq, Numeral.isDigit_decimalDigits n first ?_⟩
  rw [decimalDigits, heq]
  exact List.mem_cons_self

theorem readPower_write (power : Int) (hends : NoDigitAhead 10 rest) :
    Numeral.readPower (writePower power ++ rest) = .ok (power, rest) := by
  have hread : ∀ n, Numeral.readDigits (decimalDigits n ++ rest) = .ok (decimalDigits n, rest) :=
    fun n => Numeral.readDigits_append Nat.toDigits_ne_nil (Numeral.isDigit_decimalDigits n) hends
  have hvalue : ∀ n, digitsValue 10 (decimalDigits n) = n :=
    fun _ => digitsValue_toDigits (by decide) (by decide)
  cases power with
  | ofNat n =>
      obtain ⟨first, later, heq, hdigit⟩ := decimalDigits_eq_cons n
      have hn := hread n
      rw [writePower]
      rw [heq, List.cons_append] at hn ⊢
      rw [Numeral.readPower, hn, ← heq]
      · exact congrArg (fun value => Except.ok (Int.ofNat value, rest)) (hvalue n)
      · rintro _ ⟨⟩
        exact absurd hdigit (by decide)
      · rintro _ ⟨⟩
        exact absurd hdigit (by decide)
  | negSucc n =>
      rw [writePower, List.cons_append, Numeral.readPower, hread]
      exact congrArg (fun value => Except.ok (-Int.ofNat value, rest)) (hvalue (n + 1))

theorem readExponent_write (exponent : Option Int) (hends : EndsValue rest) :
    Numeral.readExponent (writeExponent exponent ++ rest) = .ok (exponent, rest) := by
  cases exponent with
  | some power =>
      rw [writeExponent, List.cons_append, Numeral.readExponent, if_pos (Or.inl rfl),
        readPower_write power hends.noDigitAhead]
      rfl
  | none =>
      rw [writeExponent, List.nil_append]
      cases rest with
      | nil => rfl
      | cons char rest =>
          rw [Numeral.readExponent, if_neg]
          rcases hends char rfl with rfl | rfl | rfl <;> decide

/-- What stands behind a fraction is neither a digit nor a point. -/
theorem exponent_ahead (exponent : Option Int) (hends : EndsValue rest) :
    ∀ char ∈ (writeExponent exponent ++ rest).head?, isDigitIn 10 char = false ∧ char ≠ '.' := by
  intro char hchar
  cases exponent with
  | some power =>
      obtain rfl : 'e' = char := Option.some.inj hchar
      decide
  | none => rcases hends char hchar with rfl | rfl | rfl <;> decide

theorem readFraction_write (fraction : List (Fin 10))
    (hends : ∀ char ∈ rest.head?, isDigitIn 10 char = false ∧ char ≠ '.') :
    Numeral.readFraction (writeFraction fraction ++ rest) = .ok (fractionDigits fraction, rest) := by
  by_cases hnone : fraction = []
  · subst hnone
    cases rest with
    | nil => rfl
    | cons char rest =>
        show Numeral.readFraction (char :: rest) = _
        rw [Numeral.readFraction]
        · rfl
        · rintro _ ⟨⟩
          exact (hends _ rfl).2 rfl
  · have hdigits : ∀ char ∈ fractionDigits fraction, Numeral.isDigit char = true := by
      have hall : ∀ digit : Fin 10, Numeral.isDigit (Nat.digitChar digit.val) = true := by decide
      intro char hchar
      obtain ⟨digit, _, rfl⟩ := List.mem_map.mp hchar
      exact hall digit
    have hsome : fractionDigits fraction ≠ [] := fun heq => hnone (List.map_eq_nil_iff.mp heq)
    rw [writeFraction, if_neg (mt List.isEmpty_iff.mp hnone), List.cons_append,
      Numeral.readFraction]
    exact Numeral.readDigits_append hsome hdigits fun char hchar => (hends char hchar).1

theorem readMagnitude_write (number : Number) (hends : EndsValue rest) :
    Numeral.readMagnitude number.negative (number.writeMagnitude ++ rest) =
      .ok (number.numeral, rest) := by
  have hafter := exponent_ahead number.exponent hends
  have hwhole : NoDigitAhead 10
      (writeFraction number.fraction ++ (writeExponent number.exponent ++ rest)) := by
    rw [writeFraction]
    split
    · exact fun char hchar => (hafter char hchar).1
    · rintro _ ⟨⟩
      decide
  rw [writeMagnitude, List.append_assoc, List.append_assoc, Numeral.readMagnitude,
    Numeral.readWhole_decimalDigits _ hwhole]
  show (Numeral.readFraction _ >>= _) = _
  rw [readFraction_write _ hafter]
  show (Numeral.readExponent _ >>= _) = _
  rw [readExponent_write _ hends]
  rfl

theorem read_write (number : Number) (hends : EndsValue rest) :
    Numeral.read (number.write ++ rest) = .ok (number.numeral, rest) := by
  have hmagnitude := number.readMagnitude_write hends
  rw [write]
  cases hsign : number.negative with
  | true =>
      rw [hsign] at hmagnitude
      rw [if_pos rfl, List.cons_append, Numeral.read, hmagnitude]
  | false =>
      rw [hsign] at hmagnitude
      rw [if_neg (by decide)]
      obtain ⟨first, later, heq, hdigit⟩ := decimalDigits_eq_cons number.whole
      rw [writeMagnitude, heq, List.cons_append, List.cons_append] at hmagnitude ⊢
      rw [Numeral.read, hmagnitude]
      rintro _ ⟨⟩
      exact absurd hdigit (by decide)

end Number

theorem isSpace_of_isDigit (hdigit : Numeral.isDigit char = true) : isSpace char = false := by
  rw [← Bool.not_eq_true]
  simp only [isSpace, Bool.or_eq_true, beq_iff_eq]
  rintro (((rfl | rfl) | rfl) | rfl) <;> exact absurd hdigit (by decide)

theorem readNatural_decimalDigits {greatest value : Nat} (hvalue : value ≤ greatest)
    (hgreatest : greatest < UInt64.size) (hends : EndsValue rest) :
    readNatural greatest (decimalDigits value ++ rest) = .ok (value, rest) := by
  have hread := (Number.ofNat value).read_write hends
  have hnatural : (Number.ofNat value).numeral.natural? = some value := by
    have hdigits : digitsValue 10 (decimalDigits value) = value :=
      digitsValue_toDigits (by decide) (by decide)
    have hfits : value < UInt64.size := Nat.lt_of_le_of_lt hvalue hgreatest
    simp [Numeral.natural?, Number.numeral, Number.ofNat, Number.fractionDigits, hdigits, hfits]
  obtain ⟨first, later, heq, hdigit⟩ := Number.decimalDigits_eq_cons value
  rw [Number.write_ofNat] at hread
  rw [heq, List.cons_append] at hread ⊢
  rw [readNatural, skipSpaces_cons (isSpace_of_isDigit hdigit)]
  show (if _ then _ else _) = _
  rw [if_pos (by simp [hdigit]), hread]
  show (naturalUpTo greatest _ >>= _) = _
  rw [naturalUpTo, hnatural]
  show (if _ then _ else _) >>= _ = _
  rw [if_pos hvalue]
  rfl

/-! ## Lists of texts -/

theorem textElements_of_close {isFirst : Bool}
    (hnext : nextElement isFirst chars = .ok (.close rest)) :
    textElements isFirst chars = .ok ([], rest) := by
  rw [textElements]
  split <;> simp_all

theorem textElements_of_element {isFirst : Bool} {others : List Char} {text : String}
    (hnext : nextElement isFirst chars = .ok (.element others))
    (htext : readText others = .ok (text, rest)) :
    textElements isFirst chars = do
      let (texts, rest) ← textElements false rest
      return (text :: texts, rest) := by
  rw [textElements]
  split
  · simp_all
  · simp_all
  · rename_i found hfound
    obtain rfl : found = others := by simp_all
    split
    · simp_all
    · simp_all

/-- A text is found behind the comma that it is written with. -/
theorem nextElement_text (isFirst : Bool) (text : String) (later : List (List Char))
    (rest : List Char) :
    nextElement isFirst (ahead isFirst (Quoted.write text :: later) ++ rest) =
      .ok (.element (Quoted.write text ++ (ahead false later ++ rest))) := by
  cases isFirst with
  | true => rw [ahead, List.append_assoc]; rfl
  | false => rw [ahead, List.cons_append, List.append_assoc]; rfl

theorem textElements_written (texts : List String) (isFirst : Bool) (rest : List Char) :
    textElements isFirst (ahead isFirst (texts.map Quoted.write) ++ ']' :: rest) =
      .ok (texts, rest) := by
  induction texts generalizing isFirst with
  | nil =>
      refine textElements_of_close ?_
      rw [List.map_nil, ahead]
      rfl
  | cons text texts ih =>
      rw [List.map_cons, textElements_of_element (nextElement_text isFirst text _ _)
        (readText_write text _), ih]
      rfl

end Json

end Peering
