import NameResolution.Diagnostic.Snippet

/-!
# The places of markers in the lines of a source

`Snippet.placed` gives the markers of a snippet from top to bottom, each with its line and the
columns that it covers there.

A line break at the end of a source begins no line.  What stands behind it is placed on the line
that it ends.
-/

namespace NameResolution

/-! ### Lines -/

/-- Puts a character in front of lines. -/
def prependToLines (c : Char) (lines : List (List Char)) : List (List Char) :=
  if c = '\n' then [] :: lines
  else match lines with
    | [] => [[c]]
    | line :: rest => (c :: line) :: rest

namespace Source

/-- The lines of a source, at least one. -/
def lines (source : Source) : List (List Char) :=
  if source.content.isEmpty then [[]] else source.content.toList.foldr prependToLines []

/-- The line with a number. -/
def line (source : Source) (number : Nat) : List Char := (source.lines[number - 1]?).getD []

/-- The position of a byte offset on one of the lines.  Behind the last line break it is two places
behind the text of the last line: the line break has a place of its own. -/
def positionInLines (source : Source) (offset : Nat) : Position :=
  let position := source.position offset
  let last := source.lines.length
  if position.line ≤ last then position else ⟨last, (source.line last).length + 2⟩

end Source

/-! ### Markers -/

/-- An annotation with its place in the lines of its source. -/
structure Placed where
  /-- The position that is stated for the marker. -/
  position : Position
  /-- How many characters of the line stand in front of the marked ones. -/
  start : Nat
  /-- How many characters of the line stand in front of the end of the marked ones. -/
  stop : Nat
  role : Role
  label : String
deriving DecidableEq

namespace Snippet

/-- Finds the place of an annotation.  At least one column is marked, and none beyond the line
break. -/
def place (source : Source) (a : Annotation) : Placed :=
  let first := source.positionInLines a.start
  let last := source.positionInLines a.stop
  let length := (source.line first.line).length
  let start := min (first.column - 1) length
  let stop := if last.line = first.line then min (last.column - 1) length else length
  ⟨first, start, max (start + 1) stop, a.role, a.label⟩

/-- The annotations with their places, from top to bottom. -/
def placed (snippet : Snippet) : List Placed :=
  (snippet.annotations.map (place snippet.source)).mergeSort
    fun a b => a.position.line ≤ b.position.line

/-- The number of the last line that an annotation reaches. -/
def lastLine (snippet : Snippet) : Nat :=
  (snippet.source.position ((snippet.annotations.map Annotation.stop).foldl max 0)).line

end Snippet

end NameResolution
