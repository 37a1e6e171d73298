import NameResolution.Source
import NameResolution.Surface.Printer

/-!
# Printed modules as sources

`Program.index` gives every module of a program a source, the printed module, and every node the
span of its text in there.  So programs that come from no file have positions too.
-/

namespace NameResolution

/-- The path under which the printed module is registered. -/
def Namespace.filePath (ns : Namespace) : String := "/".intercalate ns.segments ++ ".sb"

/-- Sources, and the spans of nodes in them. -/
structure Indexed where
  sources : Sources
  spans : NodeSpans
deriving DecidableEq

namespace Indexed

/-- No sources, and no spans. -/
def empty : Indexed := ⟨.empty, .empty⟩

/-- Records the places of nodes in a source.  Of two nodes with one id the later one counts. -/
def addExtents (source : SourceId) (spans : NodeSpans) : List Surface.Extent → NodeSpans
  | [] => spans
  | extent :: rest =>
    addExtents source
      (spans.insert extent.id ⟨source, extent.start.toUInt32, extent.stop.toUInt32⟩) rest

/-- Adds a printed module as a source and records the span of each of its nodes. -/
def addModule (indexed : Indexed) (m : Module) : Indexed :=
  let (source, sources) := indexed.sources.add ⟨.file m.ns.filePath, m.print⟩
  ⟨sources, addExtents source indexed.spans (m.markup.extents 0)⟩

end Indexed

/-- Prints every module into a source of its own. -/
def Program.index (p : Program) : Indexed := p.modules.foldl Indexed.addModule .empty

end NameResolution
