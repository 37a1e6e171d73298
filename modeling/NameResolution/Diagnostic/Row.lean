import NameResolution.Diagnostic.Styled

/-!
# Rows of styled characters

A `Row` is a line of text while it is laid out: text can be written at any column, over what stands
there already.  `Row.toLine` joins neighbours of one style into runs; it keeps every character
(`plain_toLine`).
-/

namespace NameResolution

/-- A character in a style. -/
structure Cell where
  style : Style
  char : Char
deriving DecidableEq

/-- The cells of a line, from left to right. -/
abbrev Row : Type := List Cell

namespace Row

/-- Writes a text from a column on.  A row that ends before that column is filled up with blanks. -/
def write (column : Nat) (style : Style) (text : List Char) (row : Row) : Row :=
  if text.isEmpty then row
  else
    row.take column ++ List.replicate (column - row.length) ⟨.normal, ' '⟩
      ++ text.map (Cell.mk style) ++ row.drop (column + text.length)

/-- Puts a cell in front of a line. -/
def prepend (cell : Cell) : StyledLine → StyledLine
  | [] => [⟨cell.style, String.singleton cell.char⟩]
  | run :: rest =>
    if run.style = cell.style then
      ⟨run.style, String.singleton cell.char ++ run.text⟩ :: rest
    else ⟨cell.style, String.singleton cell.char⟩ :: run :: rest

/-- The runs of a row. -/
def toLine (row : Row) : StyledLine := row.foldr prepend []

theorem plain_prepend (cell : Cell) (line : StyledLine) :
    (prepend cell line).plain = String.singleton cell.char ++ line.plain := by
  cases line with
  | nil => simp [prepend, StyledLine.plain, String.join]
  | cons run rest =>
    by_cases h : run.style = cell.style
    · simp [prepend, StyledLine.plain, h, String.append_assoc]
    · simp [prepend, StyledLine.plain, h]

/-- Joining cells into runs changes no character. -/
theorem plain_toLine (row : Row) : row.toLine.plain = String.ofList (row.map Cell.char) := by
  induction row with
  | nil => rfl
  | cons cell rest ih =>
    rw [toLine, List.foldr_cons, plain_prepend]
    rw [toLine] at ih
    rw [ih, List.map_cons, String.ofList_cons]

end Row

end NameResolution
