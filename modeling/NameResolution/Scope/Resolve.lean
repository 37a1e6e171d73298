import NameResolution.Import.Reach
import NameResolution.Scope.Lookup

/-!
# Resolving the names of a module

`Module.resolve` qualifies every variable, every type and every binder of a module, or fails at the
first occurrence that has no meaning.  Everything else in the module stays as it is.

The parts of a term are resolved in the order in which they are written, and binders are counted in
that order too.  A `let` binder is not visible in what is bound to it; the fields of a variant
pattern are nested from left to right.

Expressions and types that are open at the same time are counted, and what nests deeper than the
limit is refused.  Patterns do not count.
-/

namespace NameResolution

/-! ### The state -/

/-- What changes while a module is resolved. -/
structure ScopeState where
  binders : Binders
  /-- How many expressions and types are open, which is never more than the limit. -/
  depth : Nat
deriving DecidableEq

/-- Nothing bound and nothing open. -/
def ScopeState.initial : ScopeState := ⟨.empty, 0⟩

/-- A computation that resolves something. -/
abbrev Resolution (α : Type) : Type := StateT ScopeState (Except Failure) α

namespace Resolution

/-- Opens an expression or a type. -/
def openNode (limit : UInt32) (node : NodeId) : Resolution Unit := do
  if (← get).depth < limit.toNat then modify fun s => { s with depth := s.depth + 1 }
  else throw (.error (.nestedTooDeeply node))

/-- Closes what was opened last. -/
def closeNode : Resolution Unit := modify fun s => { s with depth := s.depth - 1 }

/-- Resolves a node between opening and closing it. -/
def nested {α : Type} (limit : UInt32) (node : NodeId) (body : Resolution α) : Resolution α := do
  openNode limit node
  let resolved ← body
  closeNode
  return resolved

/-- Binds an identifier in a new scope inside `lexical`. -/
def bindName (lexical : Namespace) (ident : String) : Resolution Name :=
  modifyGet fun s =>
    let (name, binders) := s.binders.bind lexical ident
    (name, { s with binders })

/-- Binds the fields of a variant pattern, each inside the scope of the one before it.  The second
result is the innermost scope. -/
def bindFields (lexical : Namespace) : List Name → Resolution (List Name × Namespace)
  | [] => return ([], lexical)
  | field :: rest => do
    let name ← bindName lexical field.ident
    let (names, scope) ← bindFields name.qualifier rest
    return (name :: names, scope)

end Resolution

open Resolution (bindFields bindName nested)

variable (ctx : Context)

/-! ### Types and patterns -/

mutual

/-- Resolves a type. -/
def Ty.resolve : Ty → Resolution Ty
  | .var id ident => nested ctx.limit id <| return .var id ident
  | .con id name args => nested ctx.limit id do
    let name ← ctx.typeMeaning id name
    return .con id name (← Ty.resolveList args)
  | .arrow id param result => nested ctx.limit id do
    let param ← param.resolve
    return .arrow id param (← result.resolve)

/-- Resolves types from left to right. -/
def Ty.resolveList : List Ty → Resolution (List Ty)
  | [] => return []
  | type :: rest => do
    let type ← type.resolve
    return type :: (← Ty.resolveList rest)

end

/-- Resolves a pattern.  The second result is the scope for what stands behind it. -/
def Pattern.resolve (lexical : Namespace) : Pattern → Resolution (Pattern × Namespace)
  | .lit id value => return (.lit id value, lexical)
  | .wildcard id => return (.wildcard id, lexical)
  | .bind id name => do
    let name ← bindName lexical name.ident
    return (.bind id name, name.qualifier)
  | .variant id type ctor fields => do
    let type ← ctx.typeMeaning id type
    let (fields, scope) ← bindFields lexical fields
    return (.variant id type ctor fields, scope)

/-! ### Expressions -/

mutual

/-- Resolves an expression in the scope `lexical`. -/
def Expr.resolve (lexical : Namespace) : Expr → Resolution Expr
  | .lit id value => nested ctx.limit id <| return .lit id value
  | .var id name => nested ctx.limit id do
    return .var id (← ctx.variableMeaning (← get).binders lexical id name)
  | .app id func arg => nested ctx.limit id do
    let func ← func.resolve lexical
    return .app id func (← arg.resolve lexical)
  | .lambda id param body => nested ctx.limit id do
    let param ← bindName lexical param.ident
    return .lambda id param (← body.resolve param.qualifier)
  | .annot id expr type => nested ctx.limit id do
    let expr ← expr.resolve lexical
    return .annot id expr (← type.resolve ctx)
  | .letIn id binder bound body => nested ctx.limit id do
    let bound ← bound.resolve lexical
    let binder ← bindName lexical binder.ident
    return .letIn id binder bound (← body.resolve binder.qualifier)
  | .ifThenElse id cond thenBranch elseBranch => nested ctx.limit id do
    let cond ← cond.resolve lexical
    let thenBranch ← thenBranch.resolve lexical
    return .ifThenElse id cond thenBranch (← elseBranch.resolve lexical)
  | .matchWith id scrutinee arms => nested ctx.limit id do
    let scrutinee ← scrutinee.resolve lexical
    return .matchWith id scrutinee (← Arm.resolveList lexical arms)

/-- Resolves an arm. -/
def Arm.resolve (lexical : Namespace) : Arm → Resolution Arm
  | ⟨pattern, body⟩ => do
    let (pattern, scope) ← pattern.resolve ctx lexical
    return ⟨pattern, ← body.resolve scope⟩

/-- Resolves arms from first to last. -/
def Arm.resolveList (lexical : Namespace) : List Arm → Resolution (List Arm)
  | [] => return []
  | arm :: rest => do
    let arm ← arm.resolve lexical
    return arm :: (← Arm.resolveList lexical rest)

end

/-! ### Declarations and modules -/

/-- Resolves a constructor. -/
def Constructor.resolve (ctor : Constructor) : Resolution Constructor := do
  return { ctor with fields := ← Ty.resolveList ctx ctor.fields }

/-- Resolves constructors from first to last. -/
def Constructor.resolveList : List Constructor → Resolution (List Constructor)
  | [] => return []
  | ctor :: rest => do
    let ctor ← ctor.resolve ctx
    return ctor :: (← Constructor.resolveList rest)

/-- Resolves the stated type of a value. -/
def Decl.resolveSignature : Option Ty → Resolution (Option Ty)
  | none => return none
  | some type => return some (← type.resolve ctx)

/-- Resolves a declaration. -/
def Decl.resolve : Decl → Resolution Decl
  | .value id ident signature body => do
    let signature ← Decl.resolveSignature ctx signature
    return .value id ident signature (← body.resolve ctx ctx.owner)
  | .data id ident params constructors =>
    return .data id ident params (← Constructor.resolveList ctx constructors)

/-- Resolves declarations from first to last. -/
def Decl.resolveList : List Decl → Resolution (List Decl)
  | [] => return []
  | decl :: rest => do
    let decl ← decl.resolve ctx
    return decl :: (← Decl.resolveList rest)

/-- Resolves a module against the interfaces of its program. -/
def Module.resolve (interfaces : Interfaces) (limit : UInt32) (m : Module) :
    Except Failure Module := do
  let reach ← interfaces.reach m.ns
  let (decls, _) ← (Decl.resolveList ⟨interfaces, m.ns, reach, limit⟩ m.decls).run .initial
  return { m with decls }

end NameResolution
