import NameResolution.Json.Token

/-!
# Reading JSON

`Document.parse?` reads a text as a document, with nothing but blanks around it.  It goes through
the tokens once and keeps the arrays and objects that are still open on a stack, innermost first, so
it needs no bound on how deep a document nests.  `Json.parse?` reads all of the document.
-/

namespace NameResolution.Json

/-- An array or object that is still open, with what it holds so far, last first. -/
inductive Open where
  | arr (reversed : List Document)
  /-- `key` is the key of the value that is being read. -/
  | obj (reversed : List (List Piece × Document)) (key : List Piece)

namespace Document

mutual

/-- Reads a value that starts with the next token. -/
def value? (stack : List Open) : List Token → Option Document
  | .scalar v :: rest => after? stack v rest
  | .openBracket :: .closeBracket :: rest => after? stack (arr []) rest
  | .openBracket :: rest => value? (.arr [] :: stack) rest
  | .openBrace :: .closeBrace :: rest => after? stack (obj []) rest
  | .openBrace :: .scalar (quoted key) :: .colon :: rest => value? (.obj [] key :: stack) rest
  | _ => none

/-- Goes on behind a value that is complete. -/
def after? (stack : List Open) (v : Document) : List Token → Option Document
  | [] => if stack.isEmpty then some v else none
  | .comma :: .scalar (quoted key) :: .colon :: rest =>
    match stack with
    | .obj reversed last :: outer => value? (.obj ((last, v) :: reversed) key :: outer) rest
    | _ => none
  | .comma :: rest =>
    match stack with
    | .arr reversed :: outer => value? (.arr (v :: reversed) :: outer) rest
    | _ => none
  | .closeBracket :: rest =>
    match stack with
    | .arr reversed :: outer => after? outer (arr (v :: reversed).reverse) rest
    | _ => none
  | .closeBrace :: rest =>
    match stack with
    | .obj reversed last :: outer => after? outer (obj ((last, v) :: reversed).reverse) rest
    | _ => none
  | _ => none

end

/-- Reads a text as a document. -/
def parse? (text : String) : Option Document := do value? [] (← tokens? text.toList)

end Document

/-- Reads a text as a JSON value. -/
def parse? (text : String) : Option Json := do (← Document.parse? text).read?

end NameResolution.Json
