import NameResolution.Proofs.Analysis.View
import NameResolution.Proofs.Import.Redundant
import Mathlib

/-!
# An import of what is in reach changes nothing

A module may import what has been in reach of it already, at any place among its imports: the
program is then analyzed to the same declarations (`Program.analyze_insertImport`).  The new import
may come first and so be the one through which its target is listed, but what the resolver sees are
targets (`Interfaces.sameView_insertImport`).
-/

namespace NameResolution

variable {p q : Program} {ns : Namespace} {i : Import}

/-- The table shows what it has shown without the import. -/
theorem Interfaces.sameView_insertImport (hi : InReach (.ofProgram p) ns i.target) (k : Nat) :
    (ofProgram p).SameView (ofProgram (p.insertImport ns k i)) where
  hasDecl_eq := hasDecl_insertImport p
  hasExport_eq := hasExport_insertImport p
  inReach_iff := inReach_insertImport_iff hi

namespace Module

variable {m resolved : Module}

/-- Inserting an import and putting in other declarations do not meet. -/
theorem insertImport_withDecls (h : resolved.headerOnly = m.headerOnly) (k : Nat) :
    { m.insertImport ns k i with decls := resolved.decls } = resolved.insertImport ns k i := by
  obtain ⟨id, owner, imports, exports, decls⟩ := m
  obtain ⟨id', owner', imports', exports', decls'⟩ := resolved
  obtain ⟨rfl, rfl, rfl, rfl, -⟩ := Module.mk.inj h
  rw [insertImport, insertImport]
  split_ifs <;> rfl

/-- A module of the program and its counterpart are resolved to the same declarations. -/
theorem resolve_insertImport (hi : InReach (.ofProgram p) ns i.target) {k : Nat}
    (hclosed : (Interfaces.ofProgram (p.insertImport ns k i)).Closed) (hm : m ∈ p.modules)
    {limit : UInt32} (hresolve : m.resolve (.ofProgram p) limit = .ok resolved) :
    (m.insertImport ns k i).resolve (.ofProgram (p.insertImport ns k i)) limit =
      .ok (resolved.insertImport ns k i) := by
  have hknown : ((Interfaces.ofProgram (p.insertImport ns k i)).get? m.ns).isSome := by
    have hmem : m.insertImport ns k i ∈ (p.insertImport ns k i).modules := List.mem_map_of_mem hm
    rw [← m.insertImport_ns]
    exact Interfaces.get?_ofProgram_isSome hmem
  have hview := Interfaces.sameView_insertImport hi k
  rw [hview.resolve_eq_ok hclosed m.insertImport_ns m.insertImport_decls hknown hresolve,
    insertImport_withDecls (headerOnly_of_resolve hresolve)]

end Module

/-- **An import of what is in reach changes nothing.**  Let a program be analyzed to `q`.  With one
more import of something in reach of the module `ns`, whatever its id and its place among the
imports of that module, it is analyzed to `q` with that import.  So every module, be it an importer
of `ns` or not, has the declarations that it has in `q`. -/
theorem Program.analyze_insertImport {config : Config} (hanalyze : p.analyze config = .ok q)
    {reach : List Import} (hreach : (Interfaces.ofProgram p).reach ns = .ok reach)
    (hi : i.target ∈ reach.map Import.target) (k : Nat) :
    (p.insertImport ns k i).analyze config = .ok (q.insertImport ns k i) ∧
      (q.insertImport ns k i).modules.map Module.decls = q.modules.map Module.decls := by
  obtain ⟨himports, hentries, hmodules⟩ := Program.analyze_eq_ok_iff.mp hanalyze
  have hinReach := (Interfaces.mem_targets_reach_iff hreach).mp hi
  -- The gate and the check of the entries admit the program with the import, too.
  have hchain := hinReach.transGen (Interfaces.closed_ofProgram himports hentries)
  have himports' := checkImports_insertImport (k := k) hchain himports
  have hentries' : ∀ m ∈ (p.insertImport ns k i).modules, m.checkEntries = .ok () := by
    intro m hm
    obtain ⟨source, hsource, rfl⟩ := List.mem_map.mp hm
    exact Module.checkEntries_insertImport (hentries source hsource)
  have hclosed := Interfaces.closed_ofProgram himports' hentries'
  constructor
  · refine Program.analyze_eq_ok_iff.mpr ⟨himports', hentries', ?_⟩
    have hmodules' := (List.forall₂_and_left _ _).mpr ⟨fun _ hm => hm, hmodules⟩
    rw [insertImport, insertImport, List.forall₂_map_left_iff, List.forall₂_map_right_iff]
    exact hmodules'.imp fun _ _ h => Module.resolve_insertImport hinReach hclosed h.1 h.2
  · rw [insertImport, List.map_map]
    exact List.map_congr_left fun m _ => m.insertImport_decls

/-- A module imports, in front of the facade that passes it on, the module that declares what it
names. -/
theorem Program.analyze_insertImport_passed_on :
    let lib : Module := ⟨⟨0⟩, ⟨["Lib"]⟩, [], [.decl ⟨1⟩ "T"], [.data ⟨2⟩ "T" [] []]⟩
    let facade : Module :=
      ⟨⟨3⟩, ⟨["Facade"]⟩, [⟨⟨4⟩, ⟨["Lib"]⟩⟩], [.reexport ⟨5⟩ ⟨["Lib"]⟩], []⟩
    let toLib : Import := ⟨⟨6⟩, ⟨["Lib"]⟩⟩
    let toFacade : Import := ⟨⟨7⟩, ⟨["Facade"]⟩⟩
    let main (imports : List Import) (t : Name) : Module :=
      ⟨⟨8⟩, ⟨["Main"]⟩, imports, [],
        [.value ⟨9⟩ "x" (some (.con ⟨10⟩ t [])) (.lit ⟨11⟩ .unit)]⟩
    let p (imports : List Import) (t : Name) : Program := ⟨[main imports t, facade, lib]⟩
    let t : Name := .unqualified "T"
    let t' : Name := ⟨⟨["Lib"]⟩, "T"⟩
    let reach : List Import := [toFacade, ⟨⟨4⟩, ⟨["Lib"]⟩⟩]
    (p [toFacade] t).analyze {} = .ok (p [toFacade] t') ∧
      (Interfaces.ofProgram (p [toFacade] t)).reach ⟨["Main"]⟩ = .ok reach ∧
      toLib.target ∈ reach.map Import.target ∧
      (p [toLib, toFacade] t).analyze {} = .ok (p [toLib, toFacade] t') := by
  intro lib facade toLib toFacade main p t t' reach
  have hanalyze : (p [toFacade] t).analyze {} = .ok (p [toFacade] t') := by cbv
  have hreach : (Interfaces.ofProgram (p [toFacade] t)).reach ⟨["Main"]⟩ = .ok reach := by cbv
  have hi : toLib.target ∈ reach.map Import.target := by decide
  exact ⟨hanalyze, hreach, hi, (Program.analyze_insertImport hanalyze hreach hi 0).1⟩

end NameResolution
