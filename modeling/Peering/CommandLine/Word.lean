/-!
# Words of a command line

A word is an option with a long name, an option with one letter, or a plain word.
A lone `-` is a plain word, and after a lone `--` every word is one.
-/

namespace Peering

namespace CommandLine

inductive Word where
  /-- The word `--`. -/
  | escape
  /-- Two dashes and a name, and what follows the first `=`. -/
  | long (name : String) (value : Option String)
  /-- A dash and a letter, and what follows the letter. -/
  | short (letter : Char) (rest : List Char)
  | plain (text : String)
deriving DecidableEq, Repr

namespace Word

def ofLong (chars : List Char) : Word :=
  let name := String.ofList (chars.takeWhile (· != '='))
  match chars.dropWhile (· != '=') with
  | [] => .long name none
  | _ :: value => .long name (some (String.ofList value))

def ofChars : List Char → Word
  | ['-', '-'] => .escape
  | '-' :: '-' :: chars => ofLong chars
  | '-' :: letter :: rest => .short letter rest
  | chars => .plain (String.ofList chars)

def ofString (text : String) : Word :=
  ofChars text.toList

def text : Word → String
  | .escape => "--"
  | .long name none => "--" ++ name
  | .long name (some value) => "--" ++ name ++ "=" ++ value
  | .short letter rest => String.ofList ('-' :: letter :: rest)
  | .plain text => text

/-- The value that stands in the word of a letter, if there is one; an `=` before it is left out. -/
def attached : List Char → Option String
  | [] => none
  | '=' :: value => some (String.ofList value)
  | value => some (String.ofList value)

/-- Whether a word asks for help. -/
def asksForHelp : Word → Bool
  | .long name none => name == "help"
  | .short letter _ => letter == 'h'
  | _ => false

/-- Whether a word asks for the version. -/
def asksForVersion : Word → Bool
  | .long name none => name == "version"
  | .short letter _ => letter == 'V'
  | _ => false

end Word

end CommandLine

end Peering
