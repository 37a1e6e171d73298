import NameResolution.Fault

/-!
# Sources and positions

`Sources` keeps every source text of a session under a `SourceId`, and `NodeSpans` the `Span` that
each node was read from.  `Source.position` turns a byte offset into a line and a column: it walks
over the characters that lie wholly before the offset, so an offset inside a character counts as the
start of that character, and one past the end as the end.

Lines and columns are counted in full.  `Source.lineColumn` gives them with the 32 bits that they are
reported with, where 2 ^ 32 becomes 0.
-/

namespace NameResolution

/-! ### Spans -/

/-- The handle of one source. -/
structure SourceId where
  val : UInt32
deriving DecidableEq, Inhabited

/-- A range of bytes of one source, from `start` up to but not including `stop`. -/
structure Span where
  source : SourceId
  start : UInt32
  stop : UInt32
deriving DecidableEq, Inhabited

namespace Span

/-- The number of bytes. -/
def length (span : Span) : UInt32 := span.stop - span.start

/-- Whether the span covers no byte. -/
def isEmpty (span : Span) : Bool := span.start == span.stop

end Span

/-! ### Sources -/

/-- Where a source came from. -/
inductive Origin where
  /-- A file, with its path. -/
  | file (path : String)
  /-- A text held in memory, with the name it is shown under. -/
  | memory (name : String)
deriving DecidableEq

/-- The name that diagnostics show. -/
def Origin.displayName : Origin → String
  | .file path => path
  | .memory name => name

/-- One source text. -/
structure Source where
  origin : Origin
  content : String
deriving DecidableEq

/-- A line and a column, both counted from one.  Columns count characters. -/
structure Position where
  line : Nat
  column : Nat
deriving DecidableEq

/-- A line and a column as they are reported, with 32 bits each. -/
structure LineColumn where
  line : UInt32
  column : UInt32
deriving DecidableEq

namespace Position

/-- The position of the first character of a text. -/
def first : Position := ⟨1, 1⟩

/-- The position behind `c`, if `c` stands at `p`. -/
def next (p : Position) (c : Char) : Position :=
  if c = '\n' then ⟨p.line + 1, 1⟩ else ⟨p.line, p.column + 1⟩

/-- Steps from `p` over the characters that fit into `budget` bytes. -/
def advance (p : Position) (budget : Nat) : List Char → Position
  | [] => p
  | c :: rest =>
    if c.utf8Size ≤ budget then advance (p.next c) (budget - c.utf8Size) rest else p

end Position

namespace Source

/-- The position of a byte offset. -/
def position (source : Source) (offset : Nat) : Position :=
  Position.first.advance offset source.content.toList

/-- The line and the column that are reported for a byte offset. -/
def lineColumn (source : Source) (offset : UInt32) : LineColumn :=
  let position := source.position offset.toNat
  ⟨position.line.toUInt32, position.column.toUInt32⟩

end Source

/-! ### All sources -/

/-- The sources of a session; a `SourceId` is an index into the list. -/
structure Sources where
  entries : List Source
deriving DecidableEq

/-- Why a file could not be loaded. -/
inductive LoadError where
  | notFound
  /-- The bytes are not UTF-8. -/
  | invalidData
deriving DecidableEq

namespace Sources

/-- No sources. -/
def empty : Sources := ⟨[]⟩

/-- The number of sources. -/
def length (sources : Sources) : Nat := sources.entries.length

/-- Whether there are no sources. -/
def isEmpty (sources : Sources) : Bool := sources.entries.isEmpty

/-- Adds a source at the end and returns its id. -/
def add (sources : Sources) (source : Source) : SourceId × Sources :=
  (⟨sources.entries.length.toUInt32⟩, ⟨sources.entries ++ [source]⟩)

/-- Adds a file whose bytes have been read; `none` stands for a file that does not exist. -/
def load (sources : Sources) (path : String) (bytes? : Option ByteArray) :
    Except LoadError (SourceId × Sources) :=
  match bytes? with
  | none => .error .notFound
  | some bytes =>
    match String.fromUTF8? bytes with
    | none => .error .invalidData
    | some content => .ok (sources.add ⟨.file path, content⟩)

/-- The source with an id that must have been handed out. -/
def get (sources : Sources) (id : SourceId) : Except Fault Source :=
  match sources.entries[id.val.toNat]? with
  | some source => .ok source
  | none => .error .invalidSource

end Sources

/-! ### The spans of nodes -/

/-- The span of each node, the last recorded one first, at most one for a node. -/
structure NodeSpans where
  entries : List (NodeId × Span)
deriving DecidableEq

namespace NodeSpans

/-- No spans. -/
def empty : NodeSpans := ⟨[]⟩

/-- The number of nodes with a span. -/
def length (spans : NodeSpans) : Nat := spans.entries.length

/-- Whether no node has a span. -/
def isEmpty (spans : NodeSpans) : Bool := spans.entries.isEmpty

/-- The span of a node, if it has one. -/
def get? (spans : NodeSpans) (id : NodeId) : Option Span := spans.entries.lookup id

/-- Whether a node has a span. -/
def contains (spans : NodeSpans) (id : NodeId) : Bool := (spans.get? id).isSome

/-- Records the span of a node in place of any earlier one. -/
def insert (spans : NodeSpans) (id : NodeId) (span : Span) : NodeSpans :=
  ⟨(id, span) :: spans.entries.filter (·.1 ≠ id)⟩

/-- The span of a node that must have one. -/
def get (spans : NodeSpans) (id : NodeId) : Except Fault Span :=
  match spans.get? id with
  | some span => .ok span
  | none => .error (.missingSpan id)

end NodeSpans

end NameResolution
