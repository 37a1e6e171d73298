import NameResolution.Diagnostic.Basic
import NameResolution.Error

/-!
# Diagnostics for errors

`Error.diagnostics` tells an error as diagnostics.  It looks up the span of every node that the
error names, and of no other; a node without a span is a fault.

Most errors are one diagnostic.  Undefined imports and undefined exports are one each.  Where the
list of offenders of an error is empty, there is nothing to tell.
-/

namespace NameResolution

namespace NodeSpans

/-- A marker at a node. -/
def marker (spans : NodeSpans) (label : String) (node : NodeId) : Except Fault Marker :=
  return ⟨← spans.get node, label⟩

/-- Markers at nodes, in order. -/
def markers (spans : NodeSpans) : List (String × NodeId) → Except Fault (List Marker)
  | [] => return []
  | (label, node) :: rest => do
    let first ← spans.marker label node
    return first :: (← spans.markers rest)

end NodeSpans

namespace Error

/-- The kind of diagnostic that tells an error. -/
def kind : Error → Diagnostic.Kind
  | repeatedModule .. => .repeatedModule
  | undefinedImports .. => .undefinedImports
  | importCycle .. => .importCycle
  | undefinedName .. => .undefinedName
  | ambiguousName .. => .ambiguousName
  | unimportedReexports .. => .unimportedReexports
  | undeclaredExports .. => .undeclaredExports
  | repeatedDeclaration .. => .repeatedDeclaration
  | nestedTooDeeply .. => .nestedTooDeeply

/-- A diagnostic whose main marker is that of `node`. -/
def report (spans : NodeSpans) (kind : Diagnostic.Kind) (node : NodeId)
    (label detail : String) : Except Fault Diagnostic := do
  return ((Diagnostic.new kind (← spans.get node)).withLabel label).withDetail detail

/-! ### The wording -/

/-- Labels the imports of a cycle: each leads from the namespace at its place in the path. -/
def edgeLabels : (path : List Namespace) → (imports : List Import) → List (String × NodeId)
  | _, [] => []
  | [], i :: rest => (s!"imports `{i.target}`", i.id) :: edgeLabels [] rest
  | source :: path, i :: rest => (s!"`{source}` imports `{i.target}`", i.id) :: edgeLabels path rest

/-- How an occurrence without a meaning is named. -/
def undefinedDetail (name : Name) : NameSort → String
  | .value => s!"`{name}` is not defined"
  | .type => s!"type `{name}` is not defined"

/-- What is wrong with an occurrence without a meaning, and what may help. -/
def undefinedHelp (name : Name) (owner : Namespace) : Unresolved → String × String
  | .unbound =>
    ("not found in this scope", s!"define `{name.ident}` or import a module that exports it")
  | .notDeclared =>
    (s!"`{owner}` has no declaration `{name.ident}`",
      s!"define `{name.ident}` in module `{name.qualifier}`")
  | .notExported =>
    (s!"`{name.qualifier}` does not export `{name.ident}`",
      s!"export `{name.ident}` from module `{name.qualifier}`")
  | .moduleNotImported =>
    (s!"`{name.qualifier}` is not imported", s!"add an import for module `{name.qualifier}`")

/-- Which modules are re-exported without an import. -/
def notImportedDetail (names : List Namespace) : String :=
  let list := ", ".intercalate (names.map fun ns => s!"`{ns}`")
  if names.length = 1 then s!"module {list} is exported but not imported"
  else s!"modules {list} are exported but not imported"

/-! ### One case for each error -/

/-- Imports without a target, a diagnostic for each. -/
def undefinedModules (spans : NodeSpans) : List Import → Except Fault Diagnostics
  | [] => return []
  | i :: rest => do
    let first ← report spans .undefinedImports i.id "no module with this name"
      (toString i.target)
    return first.withHint s!"add a module named `{i.target}` or fix the import"
      :: (← undefinedModules spans rest)

/-- Exports without a declaration, a diagnostic for each. -/
def undefinedExports (spans : NodeSpans) (owner : Namespace) :
    List (NodeId × String) → Except Fault Diagnostics
  | [] => return []
  | (node, ident) :: rest => do
    let first ← report spans .undeclaredExports node "not declared in this module" ident
    return first.withHint s!"define `{ident}` in module `{owner}`"
      :: (← undefinedExports spans owner rest)

/-- Something that is declared at several nodes.  The main marker is that of the second node, and
the first node is context; a single node is marked with `single`. -/
def repeated (spans : NodeSpans) (kind : Diagnostic.Kind) (single detail hint : String) :
    List NodeId → Except Fault Diagnostics
  | [] => return []
  | [only] => do return [(← report spans kind only single detail).withHint hint]
  | first :: second :: others => do
    let d ← report spans kind second "declared again here" detail
    let again ← spans.markers (others.map ("declared again here", ·))
    let first ← spans.marker "first declared here" first
    return [((again.foldl .withPrimary d).relatedTo first).withHint hint]

/-- The diagnostics that tell an error. -/
def diagnostics (spans : NodeSpans) : Error → Except Fault Diagnostics
  | repeatedModule ns modules =>
    repeated spans .repeatedModule "" (toString ns) "merge the modules or rename one of them"
      modules
  | undefinedImports imports => undefinedModules spans imports
  | importCycle path imports =>
    match edgeLabels path imports with
    | [] => return []
    | (label, node) :: rest => do
      let d ← report spans .importCycle node label (showPath path)
      return [(← spans.markers rest).foldl .relatedTo d]
  | undefinedName node name sort owner reason => do
    let (label, hint) := undefinedHelp name owner reason
    let d ← report spans .undefinedName node label (undefinedDetail name sort)
    return [d.withHint hint]
  | ambiguousName node ident imports => do
    let d ← report spans .ambiguousName node "ambiguous reference" ident
    let defined ← spans.markers <| imports.map fun i =>
      (s!"`{ident}` is defined in `{i.target}`, imported here", i.id)
    let d := defined.foldl .relatedTo d
    match imports with
    | [] => return [d]
    | i :: _ => return [d.withHint s!"qualify the reference, e.g. `{i.target.name ident}`"]
  | unimportedReexports _ exports =>
    match exports with
    | [] => return []
    | (node, _) :: rest => do
      let d ← report spans .unimportedReexports node "not imported"
        (notImportedDetail (exports.map (·.2)))
      let others ← spans.markers (rest.map fun e => ("not imported", e.1))
      return [exports.foldl (fun d e => d.withHint s!"add an import for module `{e.2}`")
        (others.foldl .withPrimary d)]
  | undeclaredExports owner exports => undefinedExports spans owner exports
  | repeatedDeclaration _ ident decls =>
    repeated spans .repeatedDeclaration "declared again here"
      s!"`{ident}` is declared {decls.length} times" "rename or remove all but one declaration"
      decls
  | nestedTooDeeply node => do
    return [← report spans .nestedTooDeeply node "nested too deeply"
      "expression nesting exceeds the configured limit"]

end Error

end NameResolution
