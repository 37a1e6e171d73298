import NameResolution.Syntax

/-!
# Syntax without ids

`Program.eraseIds` puts the same id in place of all ids.  What is left is what a program says, so
two programs are equal up to their ids if they are the same without them.
-/

namespace NameResolution

/-! ### Types, patterns and expressions -/

mutual

/-- A type without ids. -/
def Ty.eraseIds : Ty → Ty
  | .var _ ident => .var ⟨0⟩ ident
  | .con _ name args => .con ⟨0⟩ name (Ty.listEraseIds args)
  | .arrow _ param result => .arrow ⟨0⟩ param.eraseIds result.eraseIds

/-- Types without ids. -/
def Ty.listEraseIds : List Ty → List Ty
  | [] => []
  | type :: rest => type.eraseIds :: Ty.listEraseIds rest

end

/-- A pattern without its id. -/
def Pattern.eraseIds : Pattern → Pattern
  | .lit _ value => .lit ⟨0⟩ value
  | .bind _ name => .bind ⟨0⟩ name
  | .wildcard _ => .wildcard ⟨0⟩
  | .variant _ type ctor fields => .variant ⟨0⟩ type ctor fields

mutual

/-- An expression without ids. -/
def Expr.eraseIds : Expr → Expr
  | .lit _ value => .lit ⟨0⟩ value
  | .var _ name => .var ⟨0⟩ name
  | .app _ func arg => .app ⟨0⟩ func.eraseIds arg.eraseIds
  | .lambda _ param body => .lambda ⟨0⟩ param body.eraseIds
  | .annot _ expr type => .annot ⟨0⟩ expr.eraseIds type.eraseIds
  | .letIn _ binder bound body => .letIn ⟨0⟩ binder bound.eraseIds body.eraseIds
  | .ifThenElse _ cond thenBranch elseBranch =>
    .ifThenElse ⟨0⟩ cond.eraseIds thenBranch.eraseIds elseBranch.eraseIds
  | .matchWith _ scrutinee arms => .matchWith ⟨0⟩ scrutinee.eraseIds (Arm.listEraseIds arms)

/-- An arm without ids. -/
def Arm.eraseIds : Arm → Arm
  | ⟨pattern, body⟩ => ⟨pattern.eraseIds, body.eraseIds⟩

/-- Arms without ids. -/
def Arm.listEraseIds : List Arm → List Arm
  | [] => []
  | arm :: rest => arm.eraseIds :: Arm.listEraseIds rest

end

/-! ### Declarations and modules -/

/-- A constructor without ids. -/
def Constructor.eraseIds (c : Constructor) : Constructor :=
  ⟨⟨0⟩, c.label, Ty.listEraseIds c.fields⟩

/-- A declaration without ids. -/
def Decl.eraseIds : Decl → Decl
  | .value _ ident signature body => .value ⟨0⟩ ident (signature.map Ty.eraseIds) body.eraseIds
  | .data _ ident params constructors =>
    .data ⟨0⟩ ident params (constructors.map Constructor.eraseIds)

/-- An import without its id. -/
def Import.eraseIds (i : Import) : Import := ⟨⟨0⟩, i.target⟩

/-- An export without its id. -/
def Export.eraseIds : Export → Export
  | .decl _ ident => .decl ⟨0⟩ ident
  | .reexport _ target => .reexport ⟨0⟩ target

/-- A module without ids. -/
def Module.eraseIds (m : Module) : Module :=
  ⟨⟨0⟩, m.ns, m.imports.map Import.eraseIds, m.exports.map Export.eraseIds,
    m.decls.map Decl.eraseIds⟩

/-- A program without ids. -/
def Program.eraseIds (p : Program) : Program := ⟨p.modules.map Module.eraseIds⟩

end NameResolution
