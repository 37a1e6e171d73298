import NameResolution.Interchange.Fields
import NameResolution.Source
import NameResolution.Syntax

/-!
# Reading syntax from JSON

The readers accept what `NameResolution.Interchange.Write` writes, and a little more: fields in any
order, fields with unknown names, lists and annotations that are left out, records given as arrays,
and forms given by number inside a record that itself comes in several forms.  All else is refused;
a number must be written as an integer and fit its type.
-/

namespace NameResolution

/-! ### Scalars and lists -/

namespace Json

/-- A text. -/
def text? : Json → Option String
  | str value => some value
  | _ => none

/-- An integer from `0` up to `2 ^ 32 - 1`. -/
def word? : Json → Option UInt32
  | int value =>
    if 0 ≤ value ∧ value.toNat < UInt32.size then some (UInt32.ofNat value.toNat) else none
  | _ => none

/-- An array whose items are all read by `item?`. -/
def list? {α : Type} (item? : Json → Option α) (j : Json) : Option (List α) := do
  (← j.items?).mapM fun item => item? item.val

end Json

/-- A part of a record that may be left out if it is an empty list. -/
def Json.listPart? {α : Type} {j : Json} (item? : Json → Option α) :
    Option (Json.Part j) → Option (List α)
  | none => some []
  | some part => part.val.list? item?

/-! ### Names and spans -/

/-- A node id is a number. -/
def NodeId.ofJson? (j : Json) : Option NodeId := return ⟨← j.word?⟩

/-- A namespace is the array of its segments. -/
def Namespace.ofJson? (j : Json) : Option Namespace := return ⟨← j.list? Json.text?⟩

/-- A name is a record of its namespace and its identifier. -/
def Name.ofJson? (j : Json) : Option Name := do
  let fields ← j.fields? ["namespace", "ident"]
  return ⟨← Namespace.ofJson? (← fields.lookup "namespace").val,
    ← (← fields.lookup "ident").val.text?⟩

/-- A source id is a number. -/
def SourceId.ofJson? (j : Json) : Option SourceId := return ⟨← j.word?⟩

/-- A span is a record of its source and its two ends. -/
def Span.ofJson? (j : Json) : Option Span := do
  let fields ← j.fields? ["source", "start", "end"]
  return ⟨← SourceId.ofJson? (← fields.lookup "source").val,
    ← (← fields.lookup "start").val.word?, ← (← fields.lookup "end").val.word?⟩

/-! ### Types, literals and patterns -/

/-- Reads a type; arguments that are left out are none. -/
def Ty.ofJson? (nesting : Json.Nesting) (j : Json) : Option Ty := do
  match ← j.kind? nesting ["var", "con", "arrow"] with
  | "var" => do
    let fields ← j.fields? ["kind", "id", "ident"]
    let id ← NodeId.ofJson? (← fields.lookup "id").val
    return .var id (← (← fields.lookup "ident").val.text?)
  | "con" => do
    let fields ← j.fields? ["kind", "id", "name", "args"]
    let id ← NodeId.ofJson? (← fields.lookup "id").val
    let name ← Name.ofJson? (← fields.lookup "name").val
    match fields.lookup "args" with
    | none => return .con id name []
    | some part =>
      return .con id name (← (← part.val.items?).mapM fun item => Ty.ofJson? .inside item.val)
  | "arrow" => do
    let fields ← j.fields? ["kind", "id", "param", "result"]
    let id ← NodeId.ofJson? (← fields.lookup "id").val
    let param ← fields.lookup "param"
    let result ← fields.lookup "result"
    return .arrow id (← Ty.ofJson? .inside param.val) (← Ty.ofJson? .inside result.val)
  | _ => none
termination_by sizeOf j
decreasing_by
  · exact Nat.lt_trans item.property part.property
  · exact param.property
  · exact result.property

/-- A literal is an object with one field, named for its sort.  The unit may be just its name, and
inside a record that comes in several forms its field may hold an empty object. -/
def Literal.ofJson? (nesting : Json.Nesting) : Json → Option Literal
  | .str "unit" => some .unit
  | .obj [("unit", .null)] => some .unit
  | .obj [("unit", .obj [])] => if nesting = .inside then some .unit else none
  | .obj [("int", .int value)] =>
    if Int64.minValue.toInt ≤ value ∧ value ≤ Int64.maxValue.toInt then
      some (.int (Int64.ofInt value))
    else none
  | .obj [("bool", .bool value)] => some (.bool value)
  | .obj [("str", .str value)] => some (.str value)
  | _ => none

/-- Reads a pattern; fields that are left out are none. -/
def Pattern.ofJson? (nesting : Json.Nesting) (j : Json) : Option Pattern := do
  match ← j.kind? nesting ["lit", "bind", "wildcard", "variant"] with
  | "lit" => do
    let fields ← j.fields? ["kind", "id", "lit"]
    let id ← NodeId.ofJson? (← fields.lookup "id").val
    return .lit id (← Literal.ofJson? .inside (← fields.lookup "lit").val)
  | "bind" => do
    let fields ← j.fields? ["kind", "id", "name"]
    let id ← NodeId.ofJson? (← fields.lookup "id").val
    return .bind id (← Name.ofJson? (← fields.lookup "name").val)
  | "wildcard" => do
    let fields ← j.fields? ["kind", "id"]
    return .wildcard (← NodeId.ofJson? (← fields.lookup "id").val)
  | "variant" => do
    let fields ← j.fields? ["kind", "id", "ty", "ctor", "fields"]
    let id ← NodeId.ofJson? (← fields.lookup "id").val
    let type ← Name.ofJson? (← fields.lookup "ty").val
    let ctor ← (← fields.lookup "ctor").val.text?
    return .variant id type ctor (← Json.listPart? Name.ofJson? (fields.lookup "fields"))
  | _ => none

/-! ### Expressions -/

mutual

/-- Reads an expression. -/
def Expr.ofJson? (nesting : Json.Nesting) (j : Json) : Option Expr := do
  match ← j.kind? nesting ["lit", "var", "app", "lambda", "annot", "let", "if", "match"] with
  | "lit" => do
    let fields ← j.fields? ["kind", "id", "lit"]
    let id ← NodeId.ofJson? (← fields.lookup "id").val
    return .lit id (← Literal.ofJson? .inside (← fields.lookup "lit").val)
  | "var" => do
    let fields ← j.fields? ["kind", "id", "name"]
    let id ← NodeId.ofJson? (← fields.lookup "id").val
    return .var id (← Name.ofJson? (← fields.lookup "name").val)
  | "app" => do
    let fields ← j.fields? ["kind", "id", "func", "arg"]
    let id ← NodeId.ofJson? (← fields.lookup "id").val
    let func ← fields.lookup "func"
    let arg ← fields.lookup "arg"
    return .app id (← Expr.ofJson? .inside func.val) (← Expr.ofJson? .inside arg.val)
  | "lambda" => do
    let fields ← j.fields? ["kind", "id", "param", "body"]
    let id ← NodeId.ofJson? (← fields.lookup "id").val
    let param ← Name.ofJson? (← fields.lookup "param").val
    let body ← fields.lookup "body"
    return .lambda id param (← Expr.ofJson? .inside body.val)
  | "annot" => do
    let fields ← j.fields? ["kind", "id", "expr", "ty"]
    let id ← NodeId.ofJson? (← fields.lookup "id").val
    let expr ← fields.lookup "expr"
    let type ← Ty.ofJson? .inside (← fields.lookup "ty").val
    return .annot id (← Expr.ofJson? .inside expr.val) type
  | "let" => do
    let fields ← j.fields? ["kind", "id", "binder", "bound", "body"]
    let id ← NodeId.ofJson? (← fields.lookup "id").val
    let binder ← Name.ofJson? (← fields.lookup "binder").val
    let bound ← fields.lookup "bound"
    let body ← fields.lookup "body"
    return .letIn id binder (← Expr.ofJson? .inside bound.val) (← Expr.ofJson? .inside body.val)
  | "if" => do
    let fields ← j.fields? ["kind", "id", "cond", "then_branch", "else_branch"]
    let id ← NodeId.ofJson? (← fields.lookup "id").val
    let cond ← fields.lookup "cond"
    let thenBranch ← fields.lookup "then_branch"
    let elseBranch ← fields.lookup "else_branch"
    return .ifThenElse id (← Expr.ofJson? .inside cond.val)
      (← Expr.ofJson? .inside thenBranch.val) (← Expr.ofJson? .inside elseBranch.val)
  | "match" => do
    let fields ← j.fields? ["kind", "id", "scrutinee", "arms"]
    let id ← NodeId.ofJson? (← fields.lookup "id").val
    let scrutinee ← fields.lookup "scrutinee"
    let arms ← fields.lookup "arms"
    return .matchWith id (← Expr.ofJson? .inside scrutinee.val)
      (← (← arms.val.items?).mapM fun item => Arm.ofJson? .inside item.val)
  | _ => none
termination_by sizeOf j
decreasing_by
  · exact func.property
  · exact arg.property
  · exact body.property
  · exact expr.property
  · exact bound.property
  · exact body.property
  · exact cond.property
  · exact thenBranch.property
  · exact elseBranch.property
  · exact scrutinee.property
  · exact Nat.lt_trans item.property arms.property

/-- An arm is a record of its pattern and its body. -/
def Arm.ofJson? (nesting : Json.Nesting) (j : Json) : Option Arm := do
  let fields ← j.fields? ["pattern", "body"]
  let body ← fields.lookup "body"
  return ⟨← Pattern.ofJson? nesting (← fields.lookup "pattern").val,
    ← Expr.ofJson? nesting body.val⟩
termination_by sizeOf j
decreasing_by exact body.property

end

/-! ### Declarations and modules -/

/-- Reads a constructor; fields that are left out are none. -/
def Constructor.ofJson? (nesting : Json.Nesting) (j : Json) : Option Constructor := do
  let fields ← j.fields? ["id", "label", "fields"]
  return ⟨← NodeId.ofJson? (← fields.lookup "id").val, ← (← fields.lookup "label").val.text?,
    ← Json.listPart? (Ty.ofJson? nesting) (fields.lookup "fields")⟩

/-- The stated type of a declaration: absent, `null` or a type. -/
def Decl.signature? {j : Json} : Option (Json.Part j) → Option (Option Ty)
  | none => some none
  | some ⟨.null, _⟩ => some none
  | some part => return some (← Ty.ofJson? .inside part.val)

/-- Reads a declaration; only its own lists and the stated type may be left out. -/
def Decl.ofJson? (j : Json) : Option Decl := do
  match ← j.kind? .outermost ["let", "data"] with
  | "let" => do
    let fields ← j.fields? ["kind", "id", "ident", "annotation", "body"]
    return .value (← NodeId.ofJson? (← fields.lookup "id").val)
      (← (← fields.lookup "ident").val.text?)
      (← Decl.signature? (fields.lookup "annotation"))
      (← Expr.ofJson? .inside (← fields.lookup "body").val)
  | "data" => do
    let fields ← j.fields? ["kind", "id", "ident", "params", "constructors"]
    return .data (← NodeId.ofJson? (← fields.lookup "id").val)
      (← (← fields.lookup "ident").val.text?)
      (← Json.listPart? Json.text? (fields.lookup "params"))
      (← Json.listPart? (Constructor.ofJson? .inside) (fields.lookup "constructors"))
  | _ => none

/-- Reads an import. -/
def Import.ofJson? (j : Json) : Option Import := do
  let fields ← j.fields? ["id", "namespace"]
  return ⟨← NodeId.ofJson? (← fields.lookup "id").val,
    ← Namespace.ofJson? (← fields.lookup "namespace").val⟩

/-- Reads an export. -/
def Export.ofJson? (j : Json) : Option Export := do
  match ← j.kind? .outermost ["decl", "module"] with
  | "decl" => do
    let fields ← j.fields? ["kind", "id", "ident"]
    return .decl (← NodeId.ofJson? (← fields.lookup "id").val)
      (← (← fields.lookup "ident").val.text?)
  | "module" => do
    let fields ← j.fields? ["kind", "id", "namespace"]
    return .reexport (← NodeId.ofJson? (← fields.lookup "id").val)
      (← Namespace.ofJson? (← fields.lookup "namespace").val)
  | _ => none

/-- Reads a module; lists that are left out are empty. -/
def Module.ofJson? (j : Json) : Option Module := do
  let fields ← j.fields? ["id", "namespace", "imports", "exports", "decls"]
  return ⟨← NodeId.ofJson? (← fields.lookup "id").val,
    ← Namespace.ofJson? (← fields.lookup "namespace").val,
    ← Json.listPart? Import.ofJson? (fields.lookup "imports"),
    ← Json.listPart? Export.ofJson? (fields.lookup "exports"),
    ← Json.listPart? Decl.ofJson? (fields.lookup "decls")⟩

/-- A program is a record with the list of its modules, which may not be left out. -/
def Program.ofJson? (j : Json) : Option Program := do
  let fields ← j.fields? ["modules"]
  return ⟨← (← fields.lookup "modules").val.list? Module.ofJson?⟩

end NameResolution
