import Peering.Text.Shapeless
import Peering.Address.Text

/-!
# Quoted text in diagnostics

A diagnostic shows a text between double quotes, so that it can be told where the
text starts and ends, and shows every character that could be overlooked by a
name or by its number.
-/

namespace Peering

/-- One character between the quotes. -/
def quotedChar (char : Char) : List Char :=
  match char with
  | '"' => ['\\', '"']
  | '\\' => ['\\', '\\']
  | '\n' => ['\\', 'n']
  | '\r' => ['\\', 'r']
  | '\t' => ['\\', 't']
  | '\x00' => ['\\', '0']
  | char =>
      if isShapeless char then "\\u\x7b".toList ++ hexDigits char.toNat ++ ['\x7d'] else [char]

def quoted (text : String) : String :=
  String.ofList ('"' :: text.toList.flatMap quotedChar ++ ['"'])

end Peering
