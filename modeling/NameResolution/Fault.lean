import NameResolution.Name

/-!
# Faults

A fault says that a function was called on data which an earlier stage would have refused: it is
never the answer to a program that passed the stages in order.  Errors in a program are another
type, `NameResolution.Error`.
-/

namespace NameResolution

/-- A broken precondition. -/
inductive Fault where
  /-- The cycle search met a namespace that no module has. -/
  | unknownModule (ns : Namespace)
  /-- The interface table has no entry for `ns`. -/
  | noInterface (ns : Namespace)
  /-- `owner` re-exports `target` but has no import of it. -/
  | reexportNotImported (owner target : Namespace)
  /-- A local scope lies outside the module that is being resolved. -/
  | scopeEscaped (lexical owner : Namespace)
  /-- No span is recorded for a node. -/
  | missingSpan (node : NodeId)
  /-- A source id that was never handed out. -/
  | invalidSource
deriving DecidableEq

namespace Fault

/-- What is reported for a fault. -/
def message : Fault → String
  | unknownModule ns =>
    s!"graph: module `{ns}` missing from the module table (undefined imports are rejected before cycle detection)"
  | noInterface ns =>
    s!"resolve: no interface for module `{ns}` (the graph gate guarantees every import target exists)"
  | reexportNotImported owner target =>
    s!"resolve: module `{owner}` re-exports `{target}` without importing it (export validation runs for every module before resolution)"
  | scopeEscaped lexical owner => s!"resolve: lexical scope `{lexical}` escaped module `{owner}`"
  | missingSpan node =>
    s!"diagnostics: node {node} has no position (the parser records a span for every node)"
  | invalidSource => "invalid SourceId"

end Fault

end NameResolution
