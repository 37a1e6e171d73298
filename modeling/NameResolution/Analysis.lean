import NameResolution.Import.Graph
import NameResolution.Module.Entries
import NameResolution.Scope.Resolve

/-!
# Analysis of a program

The stages of the analysis in order.  `Program.check` admits the import graph and collects the
interfaces; only a `CheckedProgram` can be resolved.  `CheckedProgram.resolve` checks the entries of
every module before it resolves the first one.  The first error ends the analysis.
-/

namespace NameResolution

/-- The settings of an analysis. -/
structure Config where
  /-- How deep expressions and types may nest. -/
  recursionLimit : UInt32 := 512
deriving DecidableEq

/-- A program whose import graph has been admitted, with its interfaces. -/
structure CheckedProgram where
  program : Program
  interfaces : Interfaces

/-- Admits the import graph of a program. -/
def Program.check (p : Program) : Except Failure CheckedProgram := do
  checkImports p.modules
  return ⟨p, .ofProgram p⟩

/-- Checks the entries of modules, first to last. -/
def Module.checkEntriesOf : List Module → Except Error Unit
  | [] => return ()
  | m :: rest => do
    m.checkEntries
    checkEntriesOf rest

/-- Resolves modules, first to last. -/
def Module.resolveList (interfaces : Interfaces) (limit : UInt32) :
    List Module → Except Failure (List Module)
  | [] => return []
  | m :: rest => do
    let m ← m.resolve interfaces limit
    return m :: (← resolveList interfaces limit rest)

/-- Resolves a program. -/
def CheckedProgram.resolve (checked : CheckedProgram) (config : Config) :
    Except Failure Program := do
  Module.checkEntriesOf checked.program.modules
  return ⟨← Module.resolveList checked.interfaces config.recursionLimit checked.program.modules⟩

/-- Checks a program and resolves it. -/
def Program.analyze (p : Program) (config : Config) : Except Failure Program := do
  (← p.check).resolve config

end NameResolution
