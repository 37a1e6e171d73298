import NameResolution.Json.Basic
import NameResolution.Json.Quoted

/-!
# JSON documents

A `Document` is JSON as it is written: it follows the grammar, but no text in it has been put
together and no number measured.  `Document.read?` reads all of it.  `Document.select?` reads only
what an `Outline` asks for: a reader of records passes over the fields that it does not know, and
what is passed over need not make sense beyond the grammar.
-/

namespace NameResolution.Json

/-- JSON as it is written. -/
inductive Document where
  | null
  | bool (value : Bool)
  | number (numeral : Numeral)
  | quoted (pieces : List Piece)
  | arr (items : List Document)
  | obj (fields : List (List Piece × Document))

namespace Document

/-! ### Reading all of a document -/

mutual

/-- Reads a document.  Its texts must make sense and its numbers must be in the range of doubles. -/
def read? : Document → Option Json
  | null => some .null
  | bool value => some (.bool value)
  | number numeral => if numeral.inRange then some (.ofNumeral numeral) else none
  | quoted pieces => return .str (← ofPieces? pieces)
  | arr items => return .arr (← readItems? items)
  | obj fields => return .obj (← readFields? fields)

/-- Reads the items of an array. -/
def readItems? : List Document → Option (List Json)
  | [] => some []
  | item :: rest => do return (← item.read?) :: (← readItems? rest)

/-- Reads the fields of an object. -/
def readFields? : List (List Piece × Document) → Option (List (String × Json))
  | [] => some []
  | field :: rest => do return (← readField? field) :: (← readFields? rest)

/-- Reads one field. -/
def readField? : List Piece × Document → Option (String × Json)
  | (key, value) => do return (← ofPieces? key, ← value.read?)

end

/-! ### Nesting -/

mutual

/-- Whether arrays and objects nest at most `room` deep. -/
def fits : Nat → Document → Bool
  | 0, arr _ => false
  | 0, obj _ => false
  | room + 1, arr items => itemsFit room items
  | room + 1, obj fields => fieldsFit room fields
  | _, _ => true

/-- Whether all items nest at most `room` deep. -/
def itemsFit (room : Nat) : List Document → Bool
  | [] => true
  | item :: rest => fits room item && itemsFit room rest

/-- Whether all fields nest at most `room` deep. -/
def fieldsFit (room : Nat) : List (List Piece × Document) → Bool
  | [] => true
  | field :: rest => fieldFits room field && fieldsFit room rest

/-- Whether one field nests at most `room` deep. -/
def fieldFits (room : Nat) : List Piece × Document → Bool
  | (_, value) => fits room value

end

end Document

/-! ### Outlines -/

/-- Which parts of a document are read. -/
inductive Outline where
  /-- All of it. -/
  | whole
  /-- An array, and of every item the same parts. -/
  | list (items : Outline)
  /-- A record, and of it only these fields, in their order. -/
  | record (fields : List (String × Outline))

namespace Document

mutual

/-- Reads the parts that an outline asks for.  A document of another form than that of the outline
is read as a whole.  What is read nests at most `room` deep. -/
def select? : Nat → Outline → Document → Option Json
  | room + 1, .list items, arr documents => return .arr (← selectItems? room items documents)
  | room + 1, .record fields, obj documents => return .obj (← selectFields? room fields documents)
  | room + 1, .record fields, arr documents =>
    return .arr (← selectParts? room (fields.map (·.2)) documents)
  | room, _, document => if document.fits room then document.read? else none

/-- Reads the same parts of every item. -/
def selectItems? (room : Nat) (outline : Outline) : List Document → Option (List Json)
  | [] => some []
  | item :: rest => do
    return (← select? room outline item) :: (← selectItems? room outline rest)

/-- Reads the parts of a record that is written without names. -/
def selectParts? (room : Nat) (outlines : List Outline) : List Document → Option (List Json)
  | [] => some []
  | item :: rest => do
    return (← select? room (outlines.headD .whole) item)
      :: (← selectParts? room outlines.tail rest)

/-- Reads the fields of a record that are asked for, and the names of all. -/
def selectFields? (room : Nat) (fields : List (String × Outline)) :
    List (List Piece × Document) → Option (List (String × Json))
  | [] => some []
  | field :: rest => do
    return (← selectField? room fields field).toList ++ (← selectFields? room fields rest)

/-- Reads one field of a record if it is asked for. -/
def selectField? (room : Nat) (fields : List (String × Outline)) :
    List Piece × Document → Option (Option (String × Json))
  | (key, value) => do
    let name ← ofPieces? key
    match fields.lookup name with
    | none => return none
    | some outline => return some (name, ← select? room outline value)

end

end Document

end NameResolution.Json
