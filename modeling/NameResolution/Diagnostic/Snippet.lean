import NameResolution.Diagnostic.Basic

/-!
# The markers of a diagnostic by source

`Diagnostic.snippets` groups the markers of a diagnostic into one `Snippet` for each source, in the
order in which the sources first occur.  No marker is lost and none is repeated.  Inside a snippet
the primary markers come first.
-/

namespace NameResolution

/-- A marker within its source: a range of bytes with a label. -/
structure Annotation where
  role : Role
  start : Nat
  stop : Nat
  label : String
deriving DecidableEq

/-- A source with the markers that lie in it. -/
structure Snippet where
  id : SourceId
  source : Source
  annotations : List Annotation
deriving DecidableEq

/-- The range of a marker in a source of `limit` bytes.  An empty one is widened to one byte, but
not past the end of the source. -/
def annotationRange (limit : Nat) (span : Span) : Nat × Nat :=
  let start := span.start.toNat
  let stop := span.stop.toNat
  if start = stop then (start, min (start + 1) limit) else (start, stop)

namespace Annotation

/-- A marker as an annotation of its source, which has `limit` bytes. -/
def ofMarker (limit : Nat) (marker : Marker) (role : Role) : Annotation :=
  let (start, stop) := annotationRange limit marker.span
  ⟨role, start, stop, marker.label⟩

end Annotation

namespace Diagnostic

/-- The source ids that are not listed yet, in the order of their first occurrence. -/
def newSources (listed : List SourceId) : List SourceId → List SourceId
  | [] => []
  | id :: rest =>
    if listed.contains id then newSources listed rest else id :: newSources (id :: listed) rest

/-- The sources of the markers, in the order of their first occurrence. -/
def sourceIds (d : Diagnostic) : List SourceId :=
  newSources [] (d.markers.map (·.1.span.source))

/-- The snippet of one source. -/
def snippet (sources : Sources) (d : Diagnostic) (id : SourceId) : Except Fault Snippet := do
  let source ← sources.get id
  let limit := source.content.utf8ByteSize
  return ⟨id, source, (d.markers.filter (·.1.span.source == id)).map fun (marker, role) =>
    .ofMarker limit marker role⟩

/-- The snippets of the given sources. -/
def snippetsOf (sources : Sources) (d : Diagnostic) :
    List SourceId → Except Fault (List Snippet)
  | [] => return []
  | id :: rest => do
    let first ← d.snippet sources id
    return first :: (← snippetsOf sources d rest)

/-- One snippet for each source of a marker. -/
def snippets (sources : Sources) (d : Diagnostic) : Except Fault (List Snippet) :=
  d.snippetsOf sources d.sourceIds

end Diagnostic

end NameResolution
