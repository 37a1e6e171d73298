import NameResolution.Name

/-!
# Syntax

The closed tree of modules, declarations, expressions, patterns and types.  Every node carries its
own `NodeId`.  Resolution builds a new tree and changes none of these values in place.
-/

namespace NameResolution

/-! ### Types, literals and patterns -/

/-- A type. -/
inductive Ty where
  /-- A type variable. -/
  | var (id : NodeId) (ident : String)
  /-- A type constructor applied to arguments. -/
  | con (id : NodeId) (name : Name) (args : List Ty)
  /-- A function type. -/
  | arrow (id : NodeId) (param result : Ty)

/-- The id of the outermost node. -/
def Ty.id : Ty → NodeId
  | .var id _ | .con id _ _ | .arrow id _ _ => id

/-- A literal. -/
inductive Literal where
  | int (value : Int64)
  | bool (value : Bool)
  | str (value : String)
  | unit
deriving DecidableEq

/-- The left side of a `match` arm. -/
inductive Pattern where
  | lit (id : NodeId) (value : Literal)
  /-- Binds the whole value. -/
  | bind (id : NodeId) (name : Name)
  | wildcard (id : NodeId)
  /-- A constructor of the type `type`.  The type is resolved; `ctor` is a plain label. -/
  | variant (id : NodeId) (type : Name) (ctor : String) (fields : List Name)
deriving DecidableEq

/-- The id of the outermost node. -/
def Pattern.id : Pattern → NodeId
  | .lit id _ | .bind id _ | .wildcard id | .variant id _ _ _ => id

/-! ### Expressions -/

mutual

/-- An expression. -/
inductive Expr where
  | lit (id : NodeId) (value : Literal)
  | var (id : NodeId) (name : Name)
  | app (id : NodeId) (func arg : Expr)
  | lambda (id : NodeId) (param : Name) (body : Expr)
  /-- An expression with its type stated. -/
  | annot (id : NodeId) (expr : Expr) (type : Ty)
  /-- `let binder = bound in body`; the binder is visible in `body` only. -/
  | letIn (id : NodeId) (binder : Name) (bound body : Expr)
  | ifThenElse (id : NodeId) (cond thenBranch elseBranch : Expr)
  | matchWith (id : NodeId) (scrutinee : Expr) (arms : List Arm)

/-- One arm of a `match`. -/
structure Arm where
  pattern : Pattern
  body : Expr

end

/-- The id of the outermost node. -/
def Expr.id : Expr → NodeId
  | .lit id _ | .var id _ | .app id _ _ | .lambda id _ _ | .annot id _ _ | .letIn id _ _ _
  | .ifThenElse id _ _ _ | .matchWith id _ _ => id

/-! ### Declarations and modules -/

/-- A constructor of a `data` declaration. -/
structure Constructor where
  id : NodeId
  label : String
  fields : List Ty

/-- A top-level declaration. -/
inductive Decl where
  /-- A value, with its type if one is stated. -/
  | value (id : NodeId) (ident : String) (signature : Option Ty) (body : Expr)
  /-- A data type. -/
  | data (id : NodeId) (ident : String) (params : List String) (constructors : List Constructor)

namespace Decl

/-- The id of the declaration, not of its body. -/
def id : Decl → NodeId
  | value id _ _ _ | data id _ _ _ => id

/-- The declared identifier. -/
def ident : Decl → String
  | value _ ident _ _ | data _ ident _ _ => ident

end Decl

/-- One `import`.  A module may import the same namespace several times. -/
structure Import where
  id : NodeId
  target : Namespace
deriving DecidableEq

/-- One `export`. -/
inductive Export where
  /-- Exposes a declaration of the module. -/
  | decl (id : NodeId) (ident : String)
  /-- Passes an imported module on to the importers of this one. -/
  | reexport (id : NodeId) (target : Namespace)
deriving DecidableEq

namespace Export

/-- The id of the export. -/
def id : Export → NodeId
  | decl id _ | reexport id _ => id

/-- Whether this exposes the declaration `ident`. -/
def exposes (ident : String) : Export → Bool
  | decl _ exposed => exposed == ident
  | reexport .. => false

end Export

/-- A module.  `id` is the occurrence of its header. -/
structure Module where
  id : NodeId
  ns : Namespace
  imports : List Import
  exports : List Export
  decls : List Decl

namespace Module

/-- The declared identifiers in order, repetitions included. -/
def declared (m : Module) : List String := m.decls.map Decl.ident

/-- Whether some import of the module targets `ns`. -/
def importsModule (m : Module) (ns : Namespace) : Bool := m.imports.any (·.target == ns)

end Module

/-- All modules of a compilation, in the order they were supplied. -/
structure Program where
  modules : List Module

end NameResolution
