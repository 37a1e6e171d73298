/-!
# Quoted text in JSON

A quoted text is taken apart into `Piece`s by `pieces?`, which undoes the escapes one by one.
`joinPieces?` makes a text of the pieces: it puts the two halves of a surrogate pair together.  A
half that stands alone is a piece of no text.
-/

namespace NameResolution.Json

/-- A part of a quoted text: a character, or a number from a `\u` escape. -/
inductive Piece where
  | char (c : Char)
  | code (n : Nat)
deriving DecidableEq

/-- The value of a hexadecimal digit. -/
def hexDigit? (c : Char) : Option Nat :=
  if c.isDigit then some (c.toNat - '0'.toNat)
  else if 'a' ≤ c && c ≤ 'f' then some (c.toNat - 'a'.toNat + 10)
  else if 'A' ≤ c && c ≤ 'F' then some (c.toNat - 'A'.toNat + 10)
  else none

/-- The number that four hexadecimal digits stand for. -/
def hexCode? (a b c d : Char) : Option Nat := do
  return (((← hexDigit? a) * 16 + (← hexDigit? b)) * 16 + (← hexDigit? c)) * 16 + (← hexDigit? d)

/-- The character that stands behind a backslash, for all escapes but `\u`. -/
def escaped? : Char → Option Char
  | '"' => some '"'
  | '\\' => some '\\'
  | '/' => some '/'
  | 'b' => some '\x08'
  | 'f' => some '\x0c'
  | 'n' => some '\n'
  | 'r' => some '\r'
  | 't' => some '\t'
  | _ => none

/-- Reads the escapes of a quoted text.  Control characters must be escaped. -/
def pieces? : List Char → Option (List Piece)
  | [] => some []
  | '\\' :: 'u' :: a :: b :: c :: d :: rest => do
    return .code (← hexCode? a b c d) :: (← pieces? rest)
  | '\\' :: c :: rest => do return .char (← escaped? c) :: (← pieces? rest)
  | c :: rest => do
    guard (c ≠ '\\' ∧ ' ' ≤ c)
    return .char c :: (← pieces? rest)

/-- Joins the pieces of a quoted text.  A surrogate counts only as half of a pair. -/
def joinPieces? : List Piece → Option (List Char)
  | [] => some []
  | .char c :: rest => return c :: (← joinPieces? rest)
  | .code high :: .code low :: rest =>
    if 0xD800 ≤ high && high ≤ 0xDBFF then do
      guard (0xDC00 ≤ low ∧ low ≤ 0xDFFF)
      return Char.ofNat (0x10000 + (high - 0xD800) * 0x400 + (low - 0xDC00)) :: (← joinPieces? rest)
    else do
      guard (high < 0xDC00 ∨ 0xDFFF < high)
      return Char.ofNat high :: (← joinPieces? (.code low :: rest))
  | .code n :: rest => do
    guard (n < 0xD800 ∨ 0xDFFF < n)
    return Char.ofNat n :: (← joinPieces? rest)

/-- The text that pieces make. -/
def ofPieces? (pieces : List Piece) : Option String := do
  return String.ofList (← joinPieces? pieces)

end NameResolution.Json
