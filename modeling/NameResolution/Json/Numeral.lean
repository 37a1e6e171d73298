/-!
# JSON numbers

A `Numeral` is a number in the parts in which it is written.  `Numeral.ofChars?` reads one; a number
has no leading zeros, no plus sign, and digits on both sides of a point.

`Numeral.inRange` says whether a number can be held as a double.  The digits in front, as many as
fit into 64 bits, and the power of ten by which they are to be scaled are both rounded to doubles,
and their product must not round to infinity.
-/

namespace NameResolution.Json

/-- A number as it is written. -/
structure Numeral where
  negative : Bool
  /-- The digits before the point. -/
  whole : List Char
  /-- The digits behind the point; there are none if there is no point. -/
  fraction : List Char
  exponent : Option Int
deriving DecidableEq

/-- The value of decimal digits, most significant first. -/
def digitsValue (digits : List Char) : Nat :=
  digits.foldl (fun n c => n * 10 + (c.toNat - '0'.toNat)) 0

namespace Numeral

/-! ### Reading -/

/-- Takes a minus sign off. -/
def sign : List Char → Bool × List Char
  | '-' :: rest => (true, rest)
  | rest => (false, rest)

/-- What may stand at the end of a number: nothing, or `e`, an optional sign and digits. -/
def exponent? : List Char → Option (Option Int)
  | [] => some none
  | e :: rest => do
    let (negative, digits) := match rest with
      | '+' :: digits => (false, digits)
      | rest => sign rest
    guard (e = 'e' ∨ e = 'E')
    guard (digits ≠ [] ∧ digits.all Char.isDigit)
    return some (if negative then -(digitsValue digits : Int) else digitsValue digits)

/-- The digits behind a point, if there is one, and what follows them. -/
def fraction? : List Char → Option (List Char × List Char)
  | '.' :: rest => do
    guard (rest.takeWhile Char.isDigit ≠ [])
    return (rest.takeWhile Char.isDigit, rest.dropWhile Char.isDigit)
  | rest => some ([], rest)

/-- Reads a number. -/
def ofChars? (chars : List Char) : Option Numeral := do
  let (negative, unsigned) := sign chars
  let whole := unsigned.takeWhile Char.isDigit
  guard (whole ≠ [] ∧ (whole.head? ≠ some '0' ∨ whole.length = 1))
  let (fraction, rest) ← fraction? (unsigned.dropWhile Char.isDigit)
  return ⟨negative, whole, fraction, ← exponent? rest⟩

/-! ### Writing -/

/-- The written form. -/
def toText (n : Numeral) : String :=
  (if n.negative then "-" else "") ++ String.ofList n.whole
    ++ (if n.fraction.isEmpty then "" else "." ++ String.ofList n.fraction)
    ++ (match n.exponent with
      | none => ""
      | some exponent => "e" ++ toString exponent)

/-! ### Integers -/

/-- The value, if this is integer notation.  A zero with a minus sign is not: no integer has one. -/
def toInt? (n : Numeral) : Option Int :=
  if n.fraction = [] ∧ n.exponent = none ∧ ¬(n.negative = true ∧ n.whole = ['0']) then
    some (if n.negative then -(digitsValue n.whole : Int) else digitsValue n.whole)
  else none

/-! ### The range of doubles -/

/-- The double that is nearest to a natural number, if there were no largest double.  Of two nearest
ones it is the one with the even significand. -/
def roundToDouble (n : Nat) : Nat :=
  if n < Nat.pow 2 53 then n
  else
    let unit := Nat.pow 2 (n.log2 - 52)
    let below := n / unit
    let above := if 2 * (n % unit) < unit ∨ (2 * (n % unit) = unit ∧ below % 2 = 0) then 0 else 1
    (below + above) * unit

/-- The least number that rounds to infinity. -/
def doubleLimit : Nat := Nat.pow 2 1024 - Nat.pow 2 970

/-- Appends digits to a number as long as it fits into 64 bits.  The second result is how many
digits have not been appended. -/
def appendDigits (n : Nat) : List Char → Nat × Nat
  | [] => (n, 0)
  | c :: rest =>
    let next := n * 10 + (c.toNat - '0'.toNat)
    if next < UInt64.size then appendDigits next rest else (n, rest.length + 1)

/-- The digits in front, and the power of ten by which they are to be scaled. -/
def scaled (n : Numeral) : Nat × Int :=
  let (front, left) := appendDigits 0 (n.whole ++ n.fraction)
  (front, n.exponent.getD 0 - n.fraction.length + left)

/-- Whether the number can be held as a double. -/
def inRange (n : Numeral) : Bool :=
  let (front, scale) := n.scaled
  front == 0 || scale < 0 || (scale ≤ 308 &&
    roundToDouble front * roundToDouble (Nat.pow 10 scale.toNat) < doubleLimit)

end Numeral

end NameResolution.Json
