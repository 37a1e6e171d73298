import NameResolution.Json.Numeral

/-!
# JSON values

The data model of a JSON document.  Integers are kept apart from numbers that are written with a
fraction or an exponent, because the two are different data to a reader of this library: `1.0` is
not an integer.  Objects keep their fields in the order of the document, repeated keys included.
-/

namespace NameResolution

/-- A JSON value. -/
inductive Json where
  | null
  | bool (value : Bool)
  /-- A number in integer notation. -/
  | int (value : Int)
  /-- Any other number.  A zero with a minus sign is one of these. -/
  | decimal (numeral : Json.Numeral)
  | str (value : String)
  | arr (items : List Json)
  | obj (fields : List (String × Json))

namespace Json

instance : Inhabited Json := ⟨null⟩

/-- A natural number as JSON. -/
def nat (n : Nat) : Json := int n

/-- A number as JSON. -/
def ofNumeral (n : Numeral) : Json :=
  match n.toInt? with
  | some value => int value
  | none => decimal n

end Json

end NameResolution
