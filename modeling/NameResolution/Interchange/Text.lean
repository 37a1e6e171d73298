import NameResolution.Interchange.Read
import NameResolution.Json.Parser

/-!
# Reading syntax from text

`Program.ofText?` and its companions read a text that holds one value.  A record that has only one
form is read field by field, and fields that it does not know are passed over.  A record that comes
in several forms is read as a whole, because its form may stand behind its other fields.

What is read may nest `maxNesting` deep.
-/

namespace NameResolution

namespace Json

/-- How deep arrays and objects may nest in what is read of a text. -/
def maxNesting : Nat := 127

/-- Reads the parts of a text that an outline asks for. -/
def decode? {α : Type} (outline : Outline) (read? : Json → Option α) (text : String) :
    Option α := do
  read? (← (← Document.parse? text).select? maxNesting outline)

end Json

open Json (Outline decode?)

/-! ### Names and spans -/

/-- Reads a node id. -/
def NodeId.ofText? : String → Option NodeId := decode? .whole NodeId.ofJson?

/-- Reads a namespace. -/
def Namespace.ofText? : String → Option Namespace := decode? .whole Namespace.ofJson?

/-- What is read of a name. -/
def Name.outline : Outline := .record [("namespace", .whole), ("ident", .whole)]

/-- Reads a name. -/
def Name.ofText? : String → Option Name := decode? Name.outline Name.ofJson?

/-- What is read of a span. -/
def Span.outline : Outline := .record [("source", .whole), ("start", .whole), ("end", .whole)]

/-- Reads a span. -/
def Span.ofText? : String → Option Span := decode? Span.outline Span.ofJson?

/-! ### Types, literals, patterns and expressions -/

/-- Reads a type. -/
def Ty.ofText? : String → Option Ty := decode? .whole (Ty.ofJson? .outermost)

/-- Reads a literal. -/
def Literal.ofText? : String → Option Literal := decode? .whole (Literal.ofJson? .outermost)

/-- Reads a pattern. -/
def Pattern.ofText? : String → Option Pattern := decode? .whole (Pattern.ofJson? .outermost)

/-- Reads an expression. -/
def Expr.ofText? : String → Option Expr := decode? .whole (Expr.ofJson? .outermost)

/-- What is read of an arm. -/
def Arm.outline : Outline := .record [("pattern", .whole), ("body", .whole)]

/-- Reads an arm. -/
def Arm.ofText? : String → Option Arm := decode? Arm.outline (Arm.ofJson? .outermost)

/-! ### Declarations and modules -/

/-- What is read of a constructor. -/
def Constructor.outline : Outline :=
  .record [("id", .whole), ("label", .whole), ("fields", .whole)]

/-- Reads a constructor. -/
def Constructor.ofText? : String → Option Constructor :=
  decode? Constructor.outline (Constructor.ofJson? .outermost)

/-- Reads a declaration. -/
def Decl.ofText? : String → Option Decl := decode? .whole Decl.ofJson?

/-- What is read of an import. -/
def Import.outline : Outline := .record [("id", .whole), ("namespace", .whole)]

/-- Reads an import. -/
def Import.ofText? : String → Option Import := decode? Import.outline Import.ofJson?

/-- Reads an export. -/
def Export.ofText? : String → Option Export := decode? .whole Export.ofJson?

/-- What is read of a module. -/
def Module.outline : Outline :=
  .record [("id", .whole), ("namespace", .whole), ("imports", .list Import.outline),
    ("exports", .whole), ("decls", .whole)]

/-- Reads a module. -/
def Module.ofText? : String → Option Module := decode? Module.outline Module.ofJson?

/-- What is read of a program. -/
def Program.outline : Outline := .record [("modules", .list Module.outline)]

/-- Reads a program. -/
def Program.ofText? : String → Option Program := decode? Program.outline Program.ofJson?

end NameResolution
