import NameResolution.Surface.Markup
import NameResolution.Surface.Quoted
import NameResolution.Syntax

/-!
# Printing modules

A module is printed with its header, every import, every export and every declaration on a line of
its own, in this order.  Compound expressions and types stand in parentheses.

The text of a node is the part that names it: the namespace for a header, an import or a
re-export, the identifier for a declaration or its export, the label with its fields for a
constructor, and the whole term for an expression, a pattern or a type.
-/

namespace NameResolution

open Surface (Markup)

/-! ### Names and types -/

/-- The text of a name. -/
def Name.markup (name : Name) : Markup := .text (toString name)

/-- The text of a namespace. -/
def Namespace.markup (ns : Namespace) : Markup := .text (toString ns)

mutual

/-- A variable stands alone, as does a constructor without arguments. -/
def Ty.markup : Ty → Markup
  | .var id ident => .node id ident
  | .con id name args =>
    .node id (if args.isEmpty then name.markup else "(" ++ name.markup ++ Ty.listMarkup args ++ ")")
  | .arrow id param result => .node id ("(" ++ param.markup ++ " -> " ++ result.markup ++ ")")

/-- Types with a blank before each. -/
def Ty.listMarkup : List Ty → Markup
  | [] => .empty
  | type :: rest => " " ++ type.markup ++ Ty.listMarkup rest

end

/-! ### Literals and patterns -/

/-- The written form of a literal. -/
def Literal.toText : Literal → String
  | .int value => toString value.toInt
  | .bool value => if value then "true" else "false"
  | .str value => Surface.quote value
  | .unit => "()"

/-- The text of a literal. -/
def Literal.markup (value : Literal) : Markup := .text value.toText

/-- The binders of a variant pattern, in parentheses unless there are none. -/
def Pattern.fieldsMarkup (fields : List Name) : Markup :=
  if fields.isEmpty then .empty
  else .text ("(" ++ ", ".intercalate (fields.map toString) ++ ")")

/-- A variant shows its type and its constructor, with a point between them. -/
def Pattern.markup : Pattern → Markup
  | .lit id value => .node id value.markup
  | .bind id name => .node id name.markup
  | .wildcard id => .node id "_"
  | .variant id type ctor fields =>
    .node id (type.markup ++ "." ++ ctor ++ Pattern.fieldsMarkup fields)

/-! ### Expressions -/

mutual

/-- Every compound expression stands in parentheses, so none needs a precedence. -/
def Expr.markup : Expr → Markup
  | .lit id value => .node id value.markup
  | .var id name => .node id name.markup
  | .app id func arg => .node id ("(" ++ func.markup ++ " " ++ arg.markup ++ ")")
  | .lambda id param body => .node id ("(\\" ++ param.markup ++ " -> " ++ body.markup ++ ")")
  | .annot id expr type => .node id ("(" ++ expr.markup ++ " : " ++ type.markup ++ ")")
  | .letIn id binder bound body =>
    .node id
      ("(let " ++ binder.markup ++ " = " ++ bound.markup ++ " in " ++ body.markup ++ ")")
  | .ifThenElse id cond thenBranch elseBranch =>
    .node id
      ("(if " ++ cond.markup ++ " then " ++ thenBranch.markup ++ " else " ++ elseBranch.markup
        ++ ")")
  | .matchWith id scrutinee arms =>
    .node id ("(match " ++ scrutinee.markup ++ " with" ++ Arm.listMarkup arms ++ ")")

/-- An arm starts with a bar. -/
def Arm.markup : Arm → Markup
  | ⟨pattern, body⟩ => " | " ++ pattern.markup ++ " -> " ++ body.markup

/-- Arms one after the other. -/
def Arm.listMarkup : List Arm → Markup
  | [] => .empty
  | arm :: rest => arm.markup ++ Arm.listMarkup rest

end

/-! ### Declarations and modules -/

/-- A constructor is its label and its fields. -/
def Constructor.markup (ctor : Constructor) : Markup :=
  .node ctor.id (.text ctor.label ++ Ty.listMarkup ctor.fields)

/-- The constructors of a data type, the first behind `=` and the others behind `|`. -/
def Constructor.listMarkup : List Constructor → Markup
  | [] => .empty
  | first :: rest =>
    " = " ++ first.markup ++ .concat (rest.map fun ctor => " | " ++ ctor.markup)

/-- A value shows its type only if one is stated. -/
def Decl.markup : Decl → Markup
  | .value id ident signature body =>
    "let " ++ .node id ident
      ++ (match signature with
        | none => .empty
        | some type => " : " ++ type.markup)
      ++ " = " ++ body.markup
  | .data id ident params constructors =>
    "data " ++ .node id ident ++ .concat (params.map fun param => .text (" " ++ param))
      ++ Constructor.listMarkup constructors

/-- The line of an import. -/
def Import.markup (i : Import) : Markup := "import " ++ .node i.id i.target.markup

/-- The line of an export; a re-export says that it exposes a module. -/
def Export.markup : Export → Markup
  | .decl id ident => "export " ++ .node id ident
  | .reexport id target => "export module " ++ .node id target.markup

/-- The first line of a module. -/
def Module.header (m : Module) : Markup := "module " ++ .node m.id m.ns.markup

/-- The lines of a module. -/
def Module.lines (m : Module) : List Markup :=
  m.header :: (m.imports.map Import.markup ++ m.exports.map Export.markup
    ++ m.decls.map Decl.markup)

/-- Every line of a module ends with a line break. -/
def Module.markup (m : Module) : Markup := .concat (m.lines.map (· ++ .text "\n"))

/-- The printed module. -/
def Module.print (m : Module) : String := m.markup.toText

/-- All modules, with an empty line between them. -/
def Program.dump (p : Program) : String := "\n".intercalate (p.modules.map Module.print)

end NameResolution
