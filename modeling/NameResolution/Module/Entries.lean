import NameResolution.Error

/-!
# Entries of a module

`Module.checkEntries` checks what a module says about itself: whatever it re-exports it also
imports, whatever it exports it also declares, and it declares no identifier twice.  Each check
collects all of its offenders, and the first check that finds any decides.
-/

namespace NameResolution

namespace Module

/-- Re-exports of modules that are not imported, in order. -/
def unimportedReexports (m : Module) : List (NodeId × Namespace) :=
  m.exports.filterMap fun
    | .decl .. => none
    | .reexport id target => if m.importsModule target then none else some (id, target)

/-- Exports of identifiers that are not declared, in order. -/
def undeclaredExports (m : Module) : List (NodeId × String) :=
  m.exports.filterMap fun
    | .decl id ident => if m.declared.contains ident then none else some (id, ident)
    | .reexport .. => none

/-- The declarations of an identifier, in order. -/
def declarationsOf (m : Module) (ident : String) : List NodeId :=
  (m.decls.filter (·.ident == ident)).map Decl.id

/-- The first identifier, in the order of declarations, that is declared more than once. -/
def repeatedIdent? (m : Module) : Option String :=
  m.declared.find? fun ident => 1 < (m.declarationsOf ident).length

/-- Checks the entries of a module. -/
def checkEntries (m : Module) : Except Error Unit :=
  if !m.unimportedReexports.isEmpty then
    .error (.unimportedReexports m.ns m.unimportedReexports)
  else if !m.undeclaredExports.isEmpty then
    .error (.undeclaredExports m.ns m.undeclaredExports)
  else
    match m.repeatedIdent? with
    | some ident => .error (.repeatedDeclaration m.ns ident (m.declarationsOf ident))
    | none => .ok ()

end Module

end NameResolution
