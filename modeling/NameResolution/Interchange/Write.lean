import NameResolution.Json.Basic
import NameResolution.Source
import NameResolution.Syntax

/-!
# Writing syntax as JSON

Every value of the syntax has one written form.  Records are objects with one field for each part,
all of them present.  The types with several forms write which one they are under the key `kind`;
only a literal is an object with a single field, named for its form, or the text `unit`.
-/

namespace NameResolution

open Json (nat)

/-! ### Names and spans -/

/-- A node id is written as a number. -/
def NodeId.toJson (id : NodeId) : Json := nat id.val.toNat

/-- A namespace is written as the array of its segments. -/
def Namespace.toJson (ns : Namespace) : Json := .arr (ns.segments.map .str)

/-- A name is written with its namespace even if that is empty. -/
def Name.toJson (name : Name) : Json :=
  .obj [("namespace", name.qualifier.toJson), ("ident", .str name.ident)]

/-- A source id is written as a number. -/
def SourceId.toJson (id : SourceId) : Json := nat id.val.toNat

/-- A span is written with its source and its two ends. -/
def Span.toJson (span : Span) : Json :=
  .obj [("source", span.source.toJson), ("start", nat span.start.toNat),
    ("end", nat span.stop.toNat)]

/-! ### Types, literals and patterns -/

mutual

/-- Writes a type. -/
def Ty.toJson : Ty → Json
  | .var id ident => .obj [("kind", .str "var"), ("id", id.toJson), ("ident", .str ident)]
  | .con id name args =>
    .obj [("kind", .str "con"), ("id", id.toJson), ("name", name.toJson),
      ("args", .arr (Ty.listToJson args))]
  | .arrow id param result =>
    .obj [("kind", .str "arrow"), ("id", id.toJson), ("param", param.toJson),
      ("result", result.toJson)]

/-- Writes types in order. -/
def Ty.listToJson : List Ty → List Json
  | [] => []
  | type :: rest => type.toJson :: Ty.listToJson rest

end

/-- Writes a literal under the name of its sort; the unit is just that name. -/
def Literal.toJson : Literal → Json
  | .int value => .obj [("int", .int value.toInt)]
  | .bool value => .obj [("bool", .bool value)]
  | .str value => .obj [("str", .str value)]
  | .unit => .str "unit"

/-- Writes a pattern. -/
def Pattern.toJson : Pattern → Json
  | .lit id value => .obj [("kind", .str "lit"), ("id", id.toJson), ("lit", value.toJson)]
  | .bind id name => .obj [("kind", .str "bind"), ("id", id.toJson), ("name", name.toJson)]
  | .wildcard id => .obj [("kind", .str "wildcard"), ("id", id.toJson)]
  | .variant id type ctor fields =>
    .obj [("kind", .str "variant"), ("id", id.toJson), ("ty", type.toJson), ("ctor", .str ctor),
      ("fields", .arr (fields.map Name.toJson))]

/-! ### Expressions -/

mutual

/-- Writes an expression. -/
def Expr.toJson : Expr → Json
  | .lit id value => .obj [("kind", .str "lit"), ("id", id.toJson), ("lit", value.toJson)]
  | .var id name => .obj [("kind", .str "var"), ("id", id.toJson), ("name", name.toJson)]
  | .app id func arg =>
    .obj [("kind", .str "app"), ("id", id.toJson), ("func", func.toJson), ("arg", arg.toJson)]
  | .lambda id param body =>
    .obj [("kind", .str "lambda"), ("id", id.toJson), ("param", param.toJson),
      ("body", body.toJson)]
  | .annot id expr type =>
    .obj [("kind", .str "annot"), ("id", id.toJson), ("expr", expr.toJson), ("ty", type.toJson)]
  | .letIn id binder bound body =>
    .obj [("kind", .str "let"), ("id", id.toJson), ("binder", binder.toJson),
      ("bound", bound.toJson), ("body", body.toJson)]
  | .ifThenElse id cond thenBranch elseBranch =>
    .obj [("kind", .str "if"), ("id", id.toJson), ("cond", cond.toJson),
      ("then_branch", thenBranch.toJson), ("else_branch", elseBranch.toJson)]
  | .matchWith id scrutinee arms =>
    .obj [("kind", .str "match"), ("id", id.toJson), ("scrutinee", scrutinee.toJson),
      ("arms", .arr (Arm.listToJson arms))]

/-- Writes an arm. -/
def Arm.toJson : Arm → Json
  | ⟨pattern, body⟩ => .obj [("pattern", pattern.toJson), ("body", body.toJson)]

/-- Writes arms in order. -/
def Arm.listToJson : List Arm → List Json
  | [] => []
  | arm :: rest => arm.toJson :: Arm.listToJson rest

end

/-! ### Declarations and modules -/

/-- Writes a constructor. -/
def Constructor.toJson (ctor : Constructor) : Json :=
  .obj [("id", ctor.id.toJson), ("label", .str ctor.label),
    ("fields", .arr (Ty.listToJson ctor.fields))]

/-- Writes a declaration; a type that is not stated is written as `null`. -/
def Decl.toJson : Decl → Json
  | .value id ident signature body =>
    .obj [("kind", .str "let"), ("id", id.toJson), ("ident", .str ident),
      ("annotation", (signature.map Ty.toJson).getD .null), ("body", body.toJson)]
  | .data id ident params constructors =>
    .obj [("kind", .str "data"), ("id", id.toJson), ("ident", .str ident),
      ("params", .arr (params.map .str)),
      ("constructors", .arr (constructors.map Constructor.toJson))]

/-- Writes an import. -/
def Import.toJson (i : Import) : Json :=
  .obj [("id", i.id.toJson), ("namespace", i.target.toJson)]

/-- Writes an export; a re-export is of the kind `module`. -/
def Export.toJson : Export → Json
  | .decl id ident => .obj [("kind", .str "decl"), ("id", id.toJson), ("ident", .str ident)]
  | .reexport id target =>
    .obj [("kind", .str "module"), ("id", id.toJson), ("namespace", target.toJson)]

/-- Writes a module. -/
def Module.toJson (m : Module) : Json :=
  .obj [("id", m.id.toJson), ("namespace", m.ns.toJson),
    ("imports", .arr (m.imports.map Import.toJson)),
    ("exports", .arr (m.exports.map Export.toJson)),
    ("decls", .arr (m.decls.map Decl.toJson))]

/-- Writes a program. -/
def Program.toJson (p : Program) : Json := .obj [("modules", .arr (p.modules.map Module.toJson))]

end NameResolution
