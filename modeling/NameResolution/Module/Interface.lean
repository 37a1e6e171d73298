import NameResolution.Error

/-!
# Interfaces

An `Interface` is what a module shows to others: its imports, its exports and the identifiers it
declares.  The `Interfaces` of a program are looked up by namespace.  To ask for a module that has
none is a fault.
-/

namespace NameResolution

/-! ### The interface of a module -/

/-- What a module shows to others. -/
structure Interface where
  ns : Namespace
  imports : List Import
  exports : List Export
  declared : List String
deriving DecidableEq

namespace Interface

/-- The interface of a module. -/
def ofModule (m : Module) : Interface := ⟨m.ns, m.imports, m.exports, m.declared⟩

/-- Whether the module declares `ident`. -/
def declares (interface : Interface) (ident : String) : Bool := interface.declared.contains ident

/-- Whether a declaration export exposes `ident`. -/
def exposes (interface : Interface) (ident : String) : Bool :=
  interface.exports.any (·.exposes ident)

/-- The namespaces that are re-exported, in order. -/
def reexports (interface : Interface) : List Namespace :=
  interface.exports.filterMap fun
    | .decl .. => none
    | .reexport _ target => some target

/-- The first import of a namespace. -/
def firstImport? (interface : Interface) (target : Namespace) : Option Import :=
  interface.imports.find? (·.target == target)

end Interface

/-! ### The interfaces of a program -/

/-- The interfaces of a program, at most one for a namespace. -/
structure Interfaces where
  entries : List Interface
deriving DecidableEq

namespace Interfaces

/-- The interfaces of no program. -/
def empty : Interfaces := ⟨[]⟩

/-- The number of interfaces. -/
def length (interfaces : Interfaces) : Nat := interfaces.entries.length

/-- Whether there is no interface. -/
def isEmpty (interfaces : Interfaces) : Bool := interfaces.entries.isEmpty

/-- The interface of a module, if there is one. -/
def get? (interfaces : Interfaces) (ns : Namespace) : Option Interface :=
  interfaces.entries.find? (·.ns == ns)

/-- Enters an interface in place of any earlier one of its namespace. -/
def insert (interfaces : Interfaces) (interface : Interface) : Interfaces :=
  if (interfaces.get? interface.ns).isSome then
    ⟨interfaces.entries.map fun other => if other.ns == interface.ns then interface else other⟩
  else ⟨interfaces.entries ++ [interface]⟩

/-- The interfaces of a program.  Of modules with the same namespace the last one counts. -/
def ofProgram (p : Program) : Interfaces :=
  p.modules.foldl (fun interfaces m => interfaces.insert (.ofModule m)) empty

/-- The interface of a module that must have one. -/
def get (interfaces : Interfaces) (ns : Namespace) : Except Fault Interface :=
  match interfaces.get? ns with
  | some interface => .ok interface
  | none => .error (.noInterface ns)

/-- Whether the module `ns` declares `ident`. -/
def declares (interfaces : Interfaces) (ns : Namespace) (ident : String) : Except Fault Bool :=
  (interfaces.get ns).map (·.declares ident)

/-- Whether a declaration export of the module `ns` exposes `ident`. -/
def exposes (interfaces : Interfaces) (ns : Namespace) (ident : String) : Except Fault Bool :=
  (interfaces.get ns).map (·.exposes ident)

end Interfaces

end NameResolution
