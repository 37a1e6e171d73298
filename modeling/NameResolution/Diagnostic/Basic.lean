import NameResolution.Source

/-!
# Diagnostics

A `Diagnostic` is what a user is told about one mistake: a message, markers in the sources and
hints.  Its main marker is the one it is made with; the other markers and the hints are added one by
one.
-/

namespace NameResolution

/-! ### Kinds and severities -/

/-- What a diagnostic is about.  The order is that of the stages of the analysis. -/
inductive Diagnostic.Kind where
  | repeatedModule
  | undefinedImports
  | importCycle
  | unimportedReexports
  | undeclaredExports
  | repeatedDeclaration
  | undefinedName
  | ambiguousName
  | nestedTooDeeply
deriving DecidableEq, Ord

/-- How much a diagnostic weighs. -/
inductive Severity where
  | error
  | warning
deriving DecidableEq

namespace Severity

instance : Inhabited Severity := ⟨error⟩

/-- The word that starts a diagnostic. -/
protected def toString : Severity → String
  | error => "error"
  | warning => "warning"

instance : ToString Severity := ⟨Severity.toString⟩

end Severity

/-- A message with a gap for a detail. -/
structure Template where
  before : String
  after : String
deriving DecidableEq

namespace Template

/-- The message with a detail in its gap. -/
def fill (template : Template) (detail : String) : String :=
  template.before ++ detail ++ template.after

/-- The template as a text, with a pair of braces in its gap. -/
def toText (template : Template) : String := template.fill "\x7b\x7d"

end Template

namespace Diagnostic.Kind

/-- All kinds are errors. -/
def severity (_ : Diagnostic.Kind) : Severity := .error

/-- The hint that every diagnostic of a kind starts with. -/
def hint? : Diagnostic.Kind → Option String
  | importCycle =>
    some "move the shared declarations into a module both sides can import"
  | nestedTooDeeply => some "split the expression into smaller declarations"
  | _ => none

/-- The message without any detail. -/
def fallback : Diagnostic.Kind → String
  | repeatedModule => "duplicate module"
  | undefinedImports => "undefined module"
  | importCycle => "cyclic dependency"
  | unimportedReexports => "exported module is not imported"
  | undeclaredExports => "exported declaration is not defined"
  | repeatedDeclaration => "duplicate declaration"
  | undefinedName => "undefined name"
  | ambiguousName => "ambiguous reference"
  | nestedTooDeeply => "recursion limit exceeded"

/-- The message around a detail. -/
def template : Diagnostic.Kind → Template
  | repeatedModule => ⟨"module `", "` is declared more than once"⟩
  | undefinedImports => ⟨"module `", "` is not defined"⟩
  | undeclaredExports => ⟨"`", "` is exported but not defined"⟩
  | ambiguousName => ⟨"`", "` is ambiguous"⟩
  | unimportedReexports | repeatedDeclaration | undefinedName => ⟨"", ""⟩
  | importCycle => ⟨fallback importCycle ++ ": ", ""⟩
  | nestedTooDeeply => ⟨fallback nestedTooDeeply ++ ": ", ""⟩

/-- The message, with a detail or without. -/
def message (kind : Diagnostic.Kind) : (detail? : Option String) → String
  | none => kind.fallback
  | some detail => kind.template.fill detail

end Diagnostic.Kind

/-! ### Diagnostics -/

/-- A place in a source with a label, which may be empty. -/
structure Marker where
  span : Span
  label : String
deriving DecidableEq

/-- Whether a marker shows a mistake or something to see it by. -/
inductive Role where
  | primary
  | context
deriving DecidableEq

/-- What a user is told about one mistake. -/
structure Diagnostic where
  kind : Diagnostic.Kind
  message : String
  /-- The mistaken occurrence. -/
  main : Marker
  /-- Further occurrences of the same mistake. -/
  further : List Marker
  /-- Other places that explain the mistake. -/
  context : List Marker
  hints : List String
deriving DecidableEq

namespace Diagnostic

/-- A diagnostic at a place, without details. -/
def new (kind : Diagnostic.Kind) (span : Span) : Diagnostic where
  kind := kind
  message := kind.fallback
  main := ⟨span, ""⟩
  further := []
  context := []
  hints := kind.hint?.toList

/-- Gives the message a detail. -/
def withDetail (d : Diagnostic) (detail : String) : Diagnostic :=
  { d with message := d.kind.message (some detail) }

/-- Labels the main marker. -/
def withLabel (d : Diagnostic) (label : String) : Diagnostic :=
  { d with main := { d.main with label } }

/-- Adds a primary marker. -/
def withPrimary (d : Diagnostic) (marker : Marker) : Diagnostic :=
  { d with further := d.further ++ [marker] }

/-- Adds a context marker. -/
def relatedTo (d : Diagnostic) (marker : Marker) : Diagnostic :=
  { d with context := d.context ++ [marker] }

/-- Adds a hint. -/
def withHint (d : Diagnostic) (hint : String) : Diagnostic := { d with hints := d.hints ++ [hint] }

/-- The markers at mistaken occurrences, the main one first. -/
def primary (d : Diagnostic) : List Marker := d.main :: d.further

/-- A diagnostic weighs what its kind weighs. -/
def severity (d : Diagnostic) : Severity := d.kind.severity

/-- Whether the diagnostic is an error. -/
def isError (d : Diagnostic) : Bool := d.severity == .error

/-- Whether the diagnostic is a warning. -/
def isWarning (d : Diagnostic) : Bool := d.severity == .warning

/-- All markers with their roles, the primary ones first. -/
def markers (d : Diagnostic) : List (Marker × Role) :=
  d.primary.map (·, .primary) ++ d.context.map (·, .context)

/-- A marker in a line of text. -/
def showMarker (marker : Marker) : String :=
  let span := marker.span
  s!" (at {span.source.val}:{span.start}..{span.stop}"
    ++ (if marker.label.isEmpty then "" else " " ++ marker.label) ++ ")"

/-- The diagnostic in one line. -/
protected def toString (d : Diagnostic) : String :=
  s!"{d.severity}: {d.message}" ++ String.join (d.markers.map fun m => showMarker m.1)
    ++ String.join (d.hints.map fun hint => s!" (hint: {hint})")

instance : ToString Diagnostic := ⟨Diagnostic.toString⟩

end Diagnostic

/-! ### Lists of diagnostics -/

/-- Diagnostics in the order they are reported. -/
abbrev Diagnostics : Type := List Diagnostic

namespace Diagnostics

/-- Whether any of the diagnostics is an error. -/
def hasErrors (ds : Diagnostics) : Bool := List.any ds Diagnostic.isError

/-- Whether any of the diagnostics is a warning. -/
def hasWarnings (ds : Diagnostics) : Bool := List.any ds Diagnostic.isWarning

/-- The number of errors among the diagnostics. -/
def errorCount (ds : Diagnostics) : Nat := List.countP Diagnostic.isError ds

end Diagnostics

end NameResolution
