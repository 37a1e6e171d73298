import NameResolution.Json.Document

/-!
# JSON tokens

`Json.tokens?` cuts a document into tokens.  It is one pass over the characters with a small
state, the `Lexer`: the tokens found so far and the token that is still open.  Everything that is
neither punctuation, blank nor quoted belongs to a *word*, and a word must be a keyword or a
number (`Json.ofWord?`).  Two words can only meet with something between them, so reading words
to their full length loses no document.
-/

namespace NameResolution.Json

/-- A token of a document. -/
inductive Token where
  | openBrace
  | closeBrace
  | openBracket
  | closeBracket
  | comma
  | colon
  /-- A keyword, a number or a quoted text. -/
  | scalar (document : Document)

/-! ### Words and quoted text -/

/-- What a word stands for. -/
def ofWord? (word : List Char) : Option Document :=
  match String.ofList word with
  | "null" => some .null
  | "true" => some (.bool true)
  | "false" => some (.bool false)
  | _ => return .number (← Numeral.ofChars? word)

/-- What a quoted text stands for. -/
def ofQuoted? (quoted : List Char) : Option Document := return .quoted (← pieces? quoted)

/-! ### The lexer -/

/-- The token that is still open.  Characters are kept last first. -/
inductive Pending where
  | nothing
  | word (reversed : List Char)
  | quoted (reversed : List Char)
  /-- Inside a quoted text, directly behind a backslash. -/
  | escape (reversed : List Char)

/-- The tokens found so far, last first, and the open one. -/
structure Lexer where
  reversed : List Token
  pending : Pending

namespace Lexer

/-- Ends an open word. -/
def closeWord? (lexer : Lexer) : Option Lexer :=
  match lexer.pending with
  | .word reversed => return ⟨.scalar (← ofWord? reversed.reverse) :: lexer.reversed, .nothing⟩
  | _ => some lexer

/-- A character outside of quotes that ends any open word. -/
def punctuation (c : Char) : Option (Option Token) :=
  match c with
  | '{' => some (some .openBrace)
  | '}' => some (some .closeBrace)
  | '[' => some (some .openBracket)
  | ']' => some (some .closeBracket)
  | ',' => some (some .comma)
  | ':' => some (some .colon)
  | ' ' | '\n' | '\r' | '\t' => some none
  | _ => none

/-- Reads one character. -/
def step? (lexer : Lexer) (c : Char) : Option Lexer :=
  match lexer.pending with
  | .escape reversed => some { lexer with pending := .quoted (c :: reversed) }
  | .quoted reversed =>
    match c with
    | '"' => return ⟨.scalar (← ofQuoted? reversed.reverse) :: lexer.reversed, .nothing⟩
    | '\\' => some { lexer with pending := .escape (c :: reversed) }
    | _ => some { lexer with pending := .quoted (c :: reversed) }
  | pending =>
    match punctuation c with
    | some (some token) => do
      let closed ← lexer.closeWord?
      return ⟨token :: closed.reversed, .nothing⟩
    | some none => lexer.closeWord?
    | none =>
      if c == '"' then return { (← lexer.closeWord?) with pending := .quoted [] }
      else match pending with
        | .word reversed => some { lexer with pending := .word (c :: reversed) }
        | _ => some { lexer with pending := .word [c] }

/-- The tokens of a document that has been read to its end. -/
def finish? (lexer : Lexer) : Option (List Token) := do
  let closed ← lexer.closeWord?
  match closed.pending with
  | .nothing => some closed.reversed.reverse
  | _ => none

end Lexer

/-- The tokens of a document. -/
def tokens? (text : List Char) : Option (List Token) := do
  (← text.foldlM Lexer.step? ⟨[], .nothing⟩).finish?

end NameResolution.Json
