import NameResolution.Diagnostic.Basic

/-!
# Diagnostics without excerpts

Each diagnostic is its message, a line with the place of every marker, and a line for every hint.
-/

namespace NameResolution

namespace Sources

/-- The place of a marker: the name of its source, line and column. -/
def location (sources : Sources) (span : Span) : Except Fault String := do
  let source ← sources.get span.source
  let place := source.lineColumn span.start
  return s!"{source.origin.displayName}:{place.line}:{place.column}"

end Sources

namespace Diagnostic

/-- The lines of the markers. -/
def markerLines (sources : Sources) : List (Marker × Role) → Except Fault (List String)
  | [] => return []
  | (marker, role) :: rest => do
    let location ← sources.location marker.span
    let arrow := match role with
      | .primary => "-->"
      | .context => ":::"
    let label := if marker.label.isEmpty then "" else ": " ++ marker.label
    return s!"  {arrow} {location}{label}" :: (← markerLines sources rest)

/-- The lines of a diagnostic. -/
def plainLines (sources : Sources) (d : Diagnostic) : Except Fault (List String) := do
  return s!"{d.severity}: {d.message}" ::
    ((← markerLines sources d.markers) ++ d.hints.map fun hint => s!"  = help: {hint}")

end Diagnostic

namespace Diagnostics

/-- The lines of all diagnostics. -/
def plainLines (sources : Sources) : Diagnostics → Except Fault (List String)
  | [] => return []
  | d :: rest => do
    let lines ← d.plainLines sources
    return lines ++ (← plainLines sources rest)

/-- All diagnostics as one text. -/
def renderPlain (sources : Sources) (ds : Diagnostics) : Except Fault String := do
  return "\n".intercalate (← plainLines sources ds)

end Diagnostics

end NameResolution
