import NameResolution.Diagnostic.Placed
import NameResolution.Diagnostic.Row
import NameResolution.Unicode.Whitespace

/-!
# The columns that an excerpt shows

All lines of an excerpt are cut to one `Window` of columns.  Deep indentation is cut off, and a line
that is too long is cut to the part around the markers and their labels.  Dots take the place of
what is cut off.

No window begins behind the start of a marker (`left_ofExtent_le`).
-/

namespace NameResolution

/-! ### What has to be seen -/

/-- The smallest of some numbers, or zero. -/
def least : List Nat → Nat
  | [] => 0
  | [n] => n
  | n :: rest => min n (least rest)

/-- What the marked lines of a snippet measure. -/
structure Extent where
  /-- The least number of blanks in front of a line that does not consist of blanks. -/
  indent : Nat
  /-- The length of the longest line. -/
  longest : Nat
  /-- The least column where a marker starts. -/
  start : Nat
  /-- The greatest column where a marker ends. -/
  stop : Nat
  /-- The greatest column where a marker ends together with its label. -/
  labelStop : Nat
deriving DecidableEq

namespace Placed

/-- The column where the marker ends together with its label. -/
def labelStop (placed : Placed) : Nat :=
  if placed.label.isEmpty then placed.stop else placed.stop + placed.label.length + 1

end Placed

namespace Snippet

/-- Measures the marked lines. -/
def extent (snippet : Snippet) : Extent :=
  let marked := snippet.placed.map fun placed => snippet.source.line placed.position.line
  let inked := marked.filter fun line => !line.all Unicode.isWhitespace
  { indent := least (inked.map fun line => (line.takeWhile Unicode.isWhitespace).length)
    longest := (marked.map List.length).foldl max 0
    start := least (snippet.placed.map Placed.start)
    stop := (snippet.placed.map Placed.stop).foldl max 0
    labelStop := (snippet.placed.map Placed.labelStop).foldl max 0 }

end Snippet

/-! ### Windows -/

/-- The columns from `left` to `right`.  A line with no more than `room` columns behind `left` is
shown to its end. -/
structure Window where
  left : Nat
  right : Nat
  room : Nat
deriving DecidableEq

namespace Window

/-- The dots that stand for what is cut off. -/
def dots : List Char := ['.', '.', '.']

/-- A window as wide as there is room. -/
def startingAt (room left : Nat) : Window := ⟨left, left + room, room⟩

/-- Chooses the window for lines.  Indentation counts up to where the first marker starts; if it has
more than 26 columns only 22 are shown.  If the lines do not fit then, all of the indentation is cut
off, or else the window is put around the markers, with their labels if possible.  Six columns on
either side are kept for dots. -/
def ofExtent (room : Nat) (extent : Extent) : Window :=
  let blank := min extent.indent extent.start
  let indent := blank - 6
  let start := extent.start - 6
  let stop := extent.stop + 6
  let labelStop := extent.labelStop + 6
  let left := if 26 < blank then blank - 22 else 0
  let right := max extent.longest left
  if right - left ≤ room then ⟨left, right, room⟩
  else if labelStop - indent ≤ room then startingAt room indent
  else if labelStop - start ≤ room then
    startingAt room (start - (room - (labelStop - start)) / 2)
  else if stop - start ≤ room then
    startingAt room (start - (room - (stop - start)) / 5 * 2)
  else ⟨start, stop, room⟩

/-- A window begins no later than the first marker. -/
theorem left_ofExtent_le (room : Nat) (extent : Extent) :
    (ofExtent room extent).left ≤ extent.start := by
  simp only [ofExtent, startingAt]
  repeat' split
  all_goals
    dsimp only
    omega

/-- How many characters at the start of a line are not shown. -/
def skipped (window : Window) (line : List Char) : Nat := min window.left line.length

/-- The column of a line where the shown part ends. -/
def stop (window : Window) (line : List Char) : Nat :=
  if line.length - window.left ≤ window.room then line.length
  else min line.length window.right

/-- Writes the shown part of a line into a row, from a column on. -/
def writeLine (window : Window) (column : Nat) (line : List Char) (row : Row) : Row :=
  let shown := (line.take (window.stop line)).drop (window.skipped line)
  let row := row.write column .normal shown
  let row := if window.left = 0 then row else row.write column .frame dots
  if window.stop line < line.length then
    row.write (column + (shown.length - dots.length)) .frame dots
  else row

end Window

end NameResolution
