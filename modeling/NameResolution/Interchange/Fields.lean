import NameResolution.Json.Basic

/-!
# The parts of a JSON record

A record is an object, or an array that holds the parts in their order without the names.
`Json.fields?` gives the parts of a record by name, whichever it is.  Names that the record does
not know are passed over; a known name that stands twice makes the record unreadable.

Every part comes with the proof that it is smaller than the whole, so readers recurse on parts.
-/

namespace NameResolution.Json

/-- A value inside `j`. -/
abbrev Part (j : Json) : Type := { v : Json // sizeOf v < sizeOf j }

/-- The items of an array. -/
def items? : (j : Json) → Option (List (Part j))
  | arr items => some <| items.attach.map fun ⟨item, h⟩ =>
    ⟨item, by have := List.sizeOf_lt_of_mem h; simp; omega⟩
  | _ => none

/-- The parts of a record by name, for the names in `names`, which are in their order. -/
def fields? (names : List String) : (j : Json) → Option (List (String × Part j))
  | obj fields =>
    if names.all fun name => (fields.filter (·.1 == name)).length ≤ 1 then
      some <| fields.attach.map fun ⟨(name, v), h⟩ =>
        (name, ⟨v, by have := List.sizeOf_lt_of_mem h; simp at this; simp; omega⟩)
    else none
  | arr items =>
    if items.length ≤ names.length then
      some <| names.zip <| items.attach.map fun ⟨item, h⟩ =>
        ⟨item, by have := List.sizeOf_lt_of_mem h; simp; omega⟩
    else none
  | _ => none

/-! ### Records that come in several forms -/

/-- Where a record stands that comes in several forms. -/
inductive Nesting where
  | outermost
  /-- Inside another record that comes in several forms. -/
  | inside
deriving DecidableEq

/-- The form that a tag stands for.  A tag is the name of the form; inside another tagged record it
may also be the number of the form, counted from zero in the order of `kinds`. -/
def kindOfTag? (nesting : Nesting) (kinds : List String) : Json → Option String
  | str kind => some kind
  | int index => if nesting = .inside ∧ 0 ≤ index then kinds[index.toNat]? else none
  | _ => none

/-- Which form a record has: its tag is under the key `kind`, or is the first part of an array. -/
def kind? (nesting : Nesting) (kinds : List String) : Json → Option String
  | obj fields =>
    match fields.filter (·.1 == "kind") with
    | [(_, tag)] => kindOfTag? nesting kinds tag
    | _ => none
  | arr (tag :: _) => kindOfTag? nesting kinds tag
  | _ => none

end NameResolution.Json
