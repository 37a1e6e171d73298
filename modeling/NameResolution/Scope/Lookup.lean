import NameResolution.Module.Interface
import NameResolution.Scope.Binders

/-!
# The meaning of an occurrence

An identifier that is not qualified means, in this order, a declaration of the module itself, the
innermost binder around the occurrence, or what exactly one import in reach exposes.  Types have no
binders, and the primitive types are never looked up.

A qualified name keeps its namespace.  It must be a binder around the occurrence, or be declared by
the module itself, or be exposed by a module in reach.
-/

namespace NameResolution

/-- The types that every module knows. -/
def primitiveTypes : List String := ["Int", "Float", "Bool", "Char", "String", "Unit"]

/-- What stays the same while a module is resolved. -/
structure Context where
  interfaces : Interfaces
  /-- The module that is being resolved. -/
  owner : Namespace
  /-- The imports in reach of it. -/
  reach : List Import
  /-- How deep expressions and types may nest. -/
  limit : UInt32
deriving DecidableEq

namespace Context

variable (ctx : Context)

/-! ### Modules in reach -/

/-- The imports among `reach` whose modules expose `ident`. -/
def exposing (ident : String) : (reach : List Import) → Except Fault (List Import)
  | [] => return []
  | i :: rest => do
    if ← ctx.interfaces.exposes i.target ident then return i :: (← exposing ident rest)
    else exposing ident rest

/-- The failure at an occurrence without a meaning. -/
def undefined {α : Type} (node : NodeId) (name : Name) (sort : NameSort) (reason : Unresolved) :
    Except Failure α :=
  throw (.error (.undefinedName node name sort ctx.owner reason))

/-- The meaning of an identifier that only an import can give. -/
def fromImports (node : NodeId) (ident : String) (sort : NameSort) : Except Failure Name := do
  match ← ctx.exposing ident ctx.reach with
  | [] => ctx.undefined node (.unqualified ident) sort .unbound
  | [i] => return i.target.name ident
  | several => throw (.error (.ambiguousName node ident several))

/-- The meaning of a qualified name that is no binder: itself, if its module has it to give. -/
def fromModule (node : NodeId) (name : Name) (sort : NameSort) : Except Failure Name := do
  if name.qualifier = ctx.owner then
    if ← ctx.interfaces.declares name.qualifier name.ident then return name
    else ctx.undefined node name sort .notDeclared
  else if ctx.reach.any (·.target == name.qualifier) then
    if ← ctx.interfaces.exposes name.qualifier name.ident then return name
    else ctx.undefined node name sort .notExported
  else ctx.undefined node name sort .moduleNotImported

/-! ### Variables and types -/

/-- The meaning of a variable in the scope `lexical`. -/
def variableMeaning (binders : Binders) (lexical : Namespace) (node : NodeId) (name : Name) :
    Except Failure Name := do
  unless ctx.owner.encloses lexical do throw (.fault (.scopeEscaped lexical ctx.owner))
  if name.isQualified then
    if binders.isVisible name lexical then return name else ctx.fromModule node name .value
  else if ← ctx.interfaces.declares ctx.owner name.ident then return ctx.owner.name name.ident
  else
    match binders.lookup lexical ctx.owner name.ident with
    | some binder => return binder
    | none => ctx.fromImports node name.ident .value

/-- The meaning of the name of a type. -/
def typeMeaning (node : NodeId) (name : Name) : Except Failure Name := do
  if name.isQualified then ctx.fromModule node name .type
  else if primitiveTypes.contains name.ident then return name
  else if ← ctx.interfaces.declares ctx.owner name.ident then return ctx.owner.name name.ident
  else ctx.fromImports node name.ident .type

end Context

end NameResolution
