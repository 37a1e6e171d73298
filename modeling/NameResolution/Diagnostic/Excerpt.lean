import NameResolution.Diagnostic.Window

/-!
# Diagnostics with excerpts

A diagnostic is shown with the lines of the sources that its markers lie on: below each such line
the marked characters are underlined, and the label of the marker follows.  Between two marked lines
the lines of the source are left out, unless it is just one.

The layout is made for markers within one line, at most one on each line.
-/

namespace NameResolution

namespace Excerpt

/-- Blanks. -/
def blanks (n : Nat) : String := String.ofList (List.replicate n ' ')

/-- How wide the lines of an excerpt may be. -/
def lineWidth : Nat := 140

/-- The column of the code.  `gutter` is the width of the line numbers. -/
def codeColumn (gutter : Nat) : Nat := gutter + 3

/-- The row with nothing but the line beside the code. -/
def barRow (gutter : Nat) : Row := Row.write (gutter + 1) .frame ['|'] []

/-- The line between blocks. -/
def bar (gutter : Nat) : StyledLine := (barRow gutter).toLine

/-- A line of a source with its number. -/
def sourceLine (gutter : Nat) (window : Window) (source : Source) (number : Nat) : StyledLine :=
  let digits := (toString number).toList
  let padded := List.replicate (gutter - digits.length) ' ' ++ digits
  let numbered := (barRow gutter).write 0 .frame padded
  (window.writeLine (codeColumn gutter) (source.line number) numbered).toLine

/-- The line below a marked line: a mark for each column of the marker, and its label. -/
def markLine (gutter : Nat) (window : Window) (source : Source) (placed : Placed) : StyledLine :=
  let (style, mark) := match placed.role with
    | .primary => (Style.mistake, '^')
    | .context => (Style.context, '-')
  let skipped := window.skipped (source.line placed.position.line)
  let column (n : Nat) : Nat := codeColumn gutter + (n - skipped)
  let marks := List.replicate (placed.stop - placed.start) mark
  let marked := (barRow gutter).write (column placed.start) style marks
  (marked.write (column (placed.stop + 1)) style placed.label.toList).toLine

/-- What stands between two marked lines: nothing, the one line between them, or dots. -/
def gap (gutter : Nat) (window : Window) (source : Source) (above below : Nat) :
    List StyledLine :=
  if below ≤ above + 1 then []
  else if below = above + 2 then [sourceLine gutter window source (above + 1)]
  else [[⟨.frame, String.ofList Window.dots⟩]]

/-- The marked lines below line `above`, or from the first one on. -/
def markedLines (gutter : Nat) (window : Window) (source : Source) (above : Option Nat) :
    List Placed → List StyledLine
  | [] => []
  | placed :: rest =>
    let number := placed.position.line
    (match above with
      | none => []
      | some above => gap gutter window source above number)
    ++ [sourceLine gutter window source number, markLine gutter window source placed]
    ++ markedLines gutter window source (some number) rest

/-- The line that names a source and a place in it. -/
def header (gutter : Nat) (arrow : String) (source : Source) (at? : Option Placed) : StyledLine :=
  let position := (at?.map Placed.position).getD .first
  [⟨.normal, blanks gutter⟩, ⟨.frame, arrow⟩,
    ⟨.normal, s!"{source.origin.displayName}:{position.line}:{position.column}"⟩]

/-- The lines of a snippet below its header. -/
def body (gutter : Nat) (snippet : Snippet) : List StyledLine :=
  let window := Window.ofExtent (lineWidth - codeColumn gutter) snippet.extent
  bar gutter :: markedLines gutter window snippet.source none snippet.placed

/-- The first snippet.  Its header shows the first mistake. -/
def firstSnippet (gutter : Nat) (snippet : Snippet) : List StyledLine :=
  let shown := (snippet.placed.find? (·.role == .primary)).or snippet.placed.head?
  header gutter "--> " snippet.source shown :: body gutter snippet

/-- Any further snippet.  Its header shows the first marker. -/
def furtherSnippet (gutter : Nat) (snippet : Snippet) : List StyledLine :=
  bar gutter :: header gutter "::: " snippet.source snippet.placed.head? :: body gutter snippet

/-- The hints below the snippets. -/
def hintLines (gutter : Nat) (hints : List String) : List StyledLine :=
  if hints.isEmpty then []
  else bar gutter :: hints.map fun hint =>
    [⟨.normal, blanks (gutter + 1)⟩, ⟨.frame, "= "⟩, ⟨.strong, "help"⟩, ⟨.normal, ": " ++ hint⟩]

end Excerpt

namespace Diagnostic

/-- The lines of a diagnostic. -/
def excerptLines (sources : Sources) (d : Diagnostic) : Except Fault (List StyledLine) := do
  let snippets ← d.snippets sources
  let gutter := (toString ((snippets.map Snippet.lastLine).foldl max 0)).length
  let title : StyledLine := [⟨.mistake, toString d.severity⟩, ⟨.strong, ": " ++ d.message⟩]
  match snippets with
  | [] => return []
  | first :: further =>
    return title :: (Excerpt.firstSnippet gutter first
      ++ further.flatMap (Excerpt.furtherSnippet gutter) ++ Excerpt.hintLines gutter d.hints)

end Diagnostic

namespace Diagnostics

/-- The lines of all diagnostics. -/
def excerptLines (sources : Sources) : Diagnostics → Except Fault (List StyledLine)
  | [] => return []
  | d :: rest => do
    let lines ← d.excerptLines sources
    return lines ++ (← excerptLines sources rest)

/-- All diagnostics with excerpts as one text, in terminal colours if asked for. -/
def render (colored : Bool) (sources : Sources) (ds : Diagnostics) : Except Fault String := do
  let write := if colored then StyledLine.colored else StyledLine.plain
  return "\n".intercalate ((← excerptLines sources ds).map write)

end Diagnostics

end NameResolution
