import NameResolution.Fault
import NameResolution.Syntax

/-!
# Errors

An `Error` says why a program is refused.  It names the nodes that are to blame by their ids and
knows nothing about positions.  Every error ends the analysis of its program.

What can end in both ways, by an error in the program or by a fault, ends in a `Failure`.
-/

namespace NameResolution

/-- What an occurrence was looked up as. -/
inductive NameSort where
  | value
  | type
deriving DecidableEq

namespace NameSort

/-- The word for it in a message. -/
protected def toString : NameSort → String
  | value => "name"
  | type => "type"

instance : ToString NameSort := ⟨NameSort.toString⟩

end NameSort

/-- Why an occurrence has no meaning. -/
inductive Unresolved where
  /-- Not qualified, and neither declared nor bound nor imported. -/
  | unbound
  /-- Qualified with the module itself, which does not declare it. -/
  | notDeclared
  /-- Qualified with a module in reach that does not export it. -/
  | notExported
  /-- Qualified with a namespace out of reach. -/
  | moduleNotImported
deriving DecidableEq

/-- Why a program is refused. -/
inductive Error where
  /-- Several modules have the namespace `ns`. -/
  | repeatedModule (ns : Namespace) (modules : List NodeId)
  /-- Imports whose targets do not exist: all of the program. -/
  | undefinedImports (imports : List Import)
  /-- Modules that import each other in a circle.  The first namespace of `path` stands at its end
  again, and each import leads from one namespace of the path to the next. -/
  | importCycle (path : List Namespace) (imports : List Import)
  /-- An occurrence without a meaning. -/
  | undefinedName (node : NodeId) (name : Name) (sort : NameSort) (owner : Namespace)
      (reason : Unresolved)
  /-- An occurrence that is not qualified and that several imported modules export. -/
  | ambiguousName (node : NodeId) (ident : String) (imports : List Import)
  /-- Re-exports of modules that `owner` does not import. -/
  | unimportedReexports (owner : Namespace) (exports : List (NodeId × Namespace))
  /-- Exports of identifiers that `owner` does not declare. -/
  | undeclaredExports (owner : Namespace) (exports : List (NodeId × String))
  /-- All declarations of an identifier that is declared repeatedly. -/
  | repeatedDeclaration (owner : Namespace) (ident : String) (decls : List NodeId)
  /-- An expression or type that nests deeper than allowed. -/
  | nestedTooDeeply (node : NodeId)
deriving DecidableEq

/-- Namespaces with arrows between them. -/
def showPath (path : List Namespace) : String := " -> ".intercalate (path.map toString)

namespace Error

/-- The error in one line. -/
def message : Error → String
  | repeatedModule ns modules => s!"module `{ns}` is declared {modules.length} times"
  | undefinedImports imports => s!"{imports.length} import(s) refer to undefined modules"
  | importCycle path _ => "cyclic dependency: " ++ showPath path
  | undefinedName _ name sort owner _ => s!"undefined {sort} `{name}` in module `{owner}`"
  | ambiguousName _ ident imports =>
    s!"`{ident}` is defined in {imports.length} imported modules"
  | unimportedReexports owner exports =>
    s!"module `{owner}` re-exports {exports.length} module(s) it does not import"
  | undeclaredExports owner exports =>
    s!"module `{owner}` exports {exports.length} undefined declaration(s)"
  | repeatedDeclaration owner ident decls =>
    s!"`{ident}` is declared {decls.length} times in module `{owner}`"
  | nestedTooDeeply node => s!"recursion limit exceeded at node {node}"

end Error

/-- How a computation ends that does not give a value. -/
inductive Failure where
  | error (e : Error)
  | fault (f : Fault)
deriving DecidableEq

/-! A computation that knows only one of the two is used where both are possible. -/

instance : MonadLift (Except Fault) (Except Failure) := ⟨fun x => x.mapError .fault⟩

instance : MonadLift (Except Error) (Except Failure) := ⟨fun x => x.mapError .error⟩

end NameResolution
