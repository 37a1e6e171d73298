import NameResolution.Proofs.Scope.Binders
import NameResolution.Proofs.Scope.Lookup

/-!
# Resolution in an explicit environment

Lexical scope said directly.  `Module.resolveIn` keeps no set of binders: it hands down the list
`env` of the binders that enclose the current place, innermost first, and what changes from one
place to the next is only the number of the next scope (`Counted`).

* An identifier means a declaration of the module, else the first binder of `env` that has it, else
  what exactly one import in reach exports (`Context.variableIn`).
* A qualified name is a binder of `env`, or its module has it to give (`Context.qualified`).
* Types know no binders, and the primitive ones are not looked up (`Context.typeName`).

Nothing here can fault: a module that has no interface gives nothing.
-/

namespace NameResolution

/-! ### The meaning of a variable -/

namespace Context

variable (ctx : Context)

/-- The meaning of a variable inside the binders `env`. -/
def variableIn (env : List Name) (node : NodeId) (name : Name) : Except Error Name :=
  if name.isQualified then
    if name ∈ env then .ok name else ctx.qualified node name .value
  else if ctx.interfaces.hasDecl ctx.owner name.ident then .ok (ctx.owner.name name.ident)
  else
    match env.find? (·.ident == name.ident) with
    | some binder => .ok binder
    | none => ctx.imported node name.ident .value

/-- Refuses a node that stands inside too many other ones. -/
def checkDepth (depth : Nat) (node : NodeId) : Except Error Unit :=
  if depth < ctx.limit.toNat then .ok () else .error (.nestedTooDeeply node)

end Context

/-! ### Numbering scopes -/

/-- A computation that numbers the scopes of a module.  The numbers start again after 2 ^ 32
scopes. -/
abbrev Counted (α : Type) : Type := StateT UInt32 (Except Error) α

namespace Counted

/-- Binds an identifier in the next scope, which lies in that of the binders `env`. -/
def bindName (owner : Namespace) (env : List Name) (ident : String) : Counted Name :=
  modifyGet fun k => (((innermost owner env).child (scopeSegment k.toNat)).name ident, k + 1)

/-- Binds the fields of a variant pattern, each inside the ones before it. -/
def bindFields (owner : Namespace) (env : List Name) : List Name → Counted (List Name)
  | [] => return []
  | field :: rest => do
    let name ← bindName owner env field.ident
    return name :: (← bindFields owner (name :: env) rest)

end Counted

/-! ### Types and patterns -/

variable (ctx : Context)

mutual

/-- Resolves a type that stands inside `depth` nodes. -/
def Ty.resolveIn (depth : Nat) : Ty → Except Error Ty
  | .var id ident => do
    ctx.checkDepth depth id
    return .var id ident
  | .con id name args => do
    ctx.checkDepth depth id
    let name ← ctx.typeName id name
    return .con id name (← Ty.resolveListIn (depth + 1) args)
  | .arrow id param result => do
    ctx.checkDepth depth id
    let param ← param.resolveIn (depth + 1)
    return .arrow id param (← result.resolveIn (depth + 1))

/-- Resolves types from left to right. -/
def Ty.resolveListIn (depth : Nat) : List Ty → Except Error (List Ty)
  | [] => return []
  | type :: rest => do
    let type ← type.resolveIn depth
    return type :: (← Ty.resolveListIn depth rest)

end

/-- Resolves a pattern inside the binders `env`. -/
def Pattern.resolveIn (env : List Name) : Pattern → Counted Pattern
  | .lit id value => return .lit id value
  | .wildcard id => return .wildcard id
  | .bind id name => return .bind id (← Counted.bindName ctx.owner env name.ident)
  | .variant id type ctor fields => do
    let type ← ctx.typeName id type
    return .variant id type ctor (← Counted.bindFields ctx.owner env fields)

/-! ### Expressions -/

mutual

/-- Resolves an expression inside the binders `env` and inside `depth` nodes. -/
def Expr.resolveIn (env : List Name) (depth : Nat) : Expr → Counted Expr
  | .lit id value => do
    ctx.checkDepth depth id
    return .lit id value
  | .var id name => do
    ctx.checkDepth depth id
    return .var id (← ctx.variableIn env id name)
  | .app id func arg => do
    ctx.checkDepth depth id
    let func ← func.resolveIn env (depth + 1)
    return .app id func (← arg.resolveIn env (depth + 1))
  | .lambda id param body => do
    ctx.checkDepth depth id
    let param ← Counted.bindName ctx.owner env param.ident
    return .lambda id param (← body.resolveIn (param :: env) (depth + 1))
  | .annot id expr type => do
    ctx.checkDepth depth id
    let expr ← expr.resolveIn env (depth + 1)
    return .annot id expr (← type.resolveIn ctx (depth + 1))
  | .letIn id binder bound body => do
    ctx.checkDepth depth id
    -- The binder is not visible in `bound`, and the scopes in `bound` are numbered before its own.
    let bound ← bound.resolveIn env (depth + 1)
    let binder ← Counted.bindName ctx.owner env binder.ident
    return .letIn id binder bound (← body.resolveIn (binder :: env) (depth + 1))
  | .ifThenElse id cond thenBranch elseBranch => do
    ctx.checkDepth depth id
    let cond ← cond.resolveIn env (depth + 1)
    let thenBranch ← thenBranch.resolveIn env (depth + 1)
    return .ifThenElse id cond thenBranch (← elseBranch.resolveIn env (depth + 1))
  | .matchWith id scrutinee arms => do
    ctx.checkDepth depth id
    let scrutinee ← scrutinee.resolveIn env (depth + 1)
    return .matchWith id scrutinee (← Arm.resolveListIn env (depth + 1) arms)

/-- Resolves an arm. -/
def Arm.resolveIn (env : List Name) (depth : Nat) : Arm → Counted Arm
  | ⟨pattern, body⟩ => do
    -- The next arm starts from `env` again; only the numbers of scopes go on.
    let pattern ← pattern.resolveIn ctx env
    return ⟨pattern, ← body.resolveIn (pattern.extend env) depth⟩

/-- Resolves arms from first to last. -/
def Arm.resolveListIn (env : List Name) (depth : Nat) : List Arm → Counted (List Arm)
  | [] => return []
  | arm :: rest => do
    let arm ← arm.resolveIn env depth
    return arm :: (← Arm.resolveListIn env depth rest)

end

/-! ### Declarations and modules -/

/-- Resolves constructors from first to last. -/
def Constructor.resolveListIn : List Constructor → Except Error (List Constructor)
  | [] => return []
  | ctor :: rest => do
    let fields ← Ty.resolveListIn ctx 0 ctor.fields
    return { ctor with fields } :: (← Constructor.resolveListIn rest)

/-- Resolves the stated type of a value. -/
def Decl.resolveSignatureIn : Option Ty → Except Error (Option Ty)
  | none => return none
  | some type => return some (← type.resolveIn ctx 0)

/-- Resolves a declaration. -/
def Decl.resolveIn : Decl → Counted Decl
  | .value id ident signature body => do
    let signature ← Decl.resolveSignatureIn ctx signature
    return .value id ident signature (← body.resolveIn ctx [] 0)
  | .data id ident params constructors =>
    return .data id ident params (← Constructor.resolveListIn ctx constructors)

/-- Resolves declarations from first to last. -/
def Decl.resolveListIn : List Decl → Counted (List Decl)
  | [] => return []
  | decl :: rest => do
    let decl ← decl.resolveIn ctx
    return decl :: (← Decl.resolveListIn rest)

/-- Resolves a module that the imports `reach` are in reach of. -/
def Module.resolveIn (interfaces : Interfaces) (reach : List Import) (limit : UInt32)
    (m : Module) : Except Error Module := do
  let (decls, _) ← (Decl.resolveListIn ⟨interfaces, m.ns, reach, limit⟩ m.decls).run 0
  return { m with decls }

end NameResolution
