import NameResolution.Unicode.GraphemeExtend
import NameResolution.Unicode.Unprintable

/-!
# Quoted text

How a string literal is written: between quotes, with a backslash before whatever could not be read
as it stands.  Characters without a printed form, and marks that would merge into the character
before them, are written by number.  So a quoted text stays on one line.
-/

namespace NameResolution.Surface

/-- How a character is written between quotes. -/
def escape (c : Char) : List Char :=
  match c with
  | '\x00' => ['\\', '0']
  | '\t' => ['\\', 't']
  | '\r' => ['\\', 'r']
  | '\n' => ['\\', 'n']
  | '"' => ['\\', '"']
  | '\\' => ['\\', '\\']
  | _ =>
    if Unicode.isGraphemeExtend c || Unicode.isUnprintable c then
      ['\\', 'u', '{'] ++ Nat.toDigits 16 c.toNat ++ ['}']
    else [c]

/-- A text between quotes. -/
def quote (text : String) : String :=
  "\"" ++ String.ofList (text.toList.flatMap escape) ++ "\""

end NameResolution.Surface
