import NameResolution.Proofs.Import.Closure
import NameResolution.Proofs.Import.Verdict
import NameResolution.Proofs.Module.Interface
import Mathlib.Data.List.InsertIdx

/-!
# An import of what is in reach

`Program.insertImport` gives the module of one namespace one more import.  Suppose that its target
has been in reach of the module before.  Then a chain of imports has led from the module to the
target already (`InReach.transGen`), so no chain leads to a new place
(`Program.transGen_of_insertImport`), and the same namespaces are in reach of every module
(`Interfaces.inReach_insertImport_iff`).
-/

namespace NameResolution

/-! ### Inserting an import -/

/-- The module with the import `i` inserted at place `k`, if it is the one of the namespace `ns`.
Past the end of the imports there is no place. -/
def Module.insertImport (ns : Namespace) (k : Nat) (i : Import) (m : Module) : Module :=
  if m.ns = ns then { m with imports := m.imports.insertIdx k i } else m

/-- The program with the import `i` inserted at place `k` in the module of the namespace `ns`. -/
def Program.insertImport (ns : Namespace) (k : Nat) (i : Import) (p : Program) : Program :=
  ⟨p.modules.map (Module.insertImport ns k i)⟩

variable {ns : Namespace} {k : Nat} {i : Import}

namespace Module

@[simp] theorem insertImport_ns (m : Module) : (m.insertImport ns k i).ns = m.ns := by
  rw [insertImport]
  split_ifs <;> rfl

@[simp] theorem insertImport_exports (m : Module) :
    (m.insertImport ns k i).exports = m.exports := by
  rw [insertImport]
  split_ifs <;> rfl

@[simp] theorem insertImport_decls (m : Module) : (m.insertImport ns k i).decls = m.decls := by
  rw [insertImport]
  split_ifs <;> rfl

@[simp] theorem insertImport_declared (m : Module) :
    (m.insertImport ns k i).declared = m.declared := by
  rw [declared, insertImport_decls, declared]

/-- All imports stay. -/
theorem imports_subset_insertImport (m : Module) :
    m.imports ⊆ (m.insertImport ns k i).imports := by
  rw [insertImport]
  split_ifs
  · exact List.subset_insertIdx ..
  · exact List.Subset.refl _

/-- No other import is added than `i`, and to no other module than that of `ns`. -/
theorem mem_imports_insertImport {m : Module} {j : Import}
    (hj : j ∈ (m.insertImport ns k i).imports) : j ∈ m.imports ∨ m.ns = ns ∧ j = i := by
  rw [insertImport] at hj
  split_ifs at hj with hns
  · rcases List.eq_or_mem_of_mem_insertIdx hj with hj | hj
    · exact Or.inr ⟨hns, hj⟩
    · exact Or.inl hj
  · exact Or.inl hj

/-- One more import spoils no entry of a module. -/
theorem checkEntries_insertImport {m : Module} (h : m.checkEntries = .ok ()) :
    (m.insertImport ns k i).checkEntries = .ok () := by
  rw [checkEntries_eq_ok_iff] at h ⊢
  obtain ⟨himported, hdeclared, hnodup⟩ := h
  rw [insertImport_exports, insertImport_declared]
  refine ⟨fun id target hexport => ?_, hdeclared, hnodup⟩
  obtain ⟨j, hj, htarget⟩ := List.any_eq_true.mp (himported id target hexport)
  exact List.any_eq_true.mpr ⟨j, imports_subset_insertImport m hj, htarget⟩

end Module

/-- The namespaces of a program stay. -/
theorem Program.map_ns_insertImport (p : Program) :
    (p.insertImport ns k i).modules.map Module.ns = p.modules.map Module.ns := by
  rw [insertImport, List.map_map]
  exact List.map_congr_left fun m _ => m.insertImport_ns

/-! ### The table -/

namespace Interfaces

variable {p : Program}

/-- The table holds the interfaces of the modules with the import inserted. -/
theorem get?_ofProgram_insertImport (p : Program) (owner : Namespace) :
    (ofProgram (p.insertImport ns k i)).get? owner =
      (p.modules.reverse.find? (·.ns == owner)).map
        fun m => .ofModule (m.insertImport ns k i) := by
  have hns : ((·.ns == owner) ∘ Module.insertImport ns k i) = (·.ns == owner) := by
    funext m
    rw [Function.comp_apply, Module.insertImport_ns]
  rw [get?_ofProgram, Program.insertImport, ← List.map_reverse, List.find?_map, hns, Option.map_map]
  rfl

theorem hasDecl_insertImport (p : Program) (owner : Namespace) (ident : String) :
    (ofProgram (p.insertImport ns k i)).hasDecl owner ident =
      (ofProgram p).hasDecl owner ident := by
  rw [hasDecl, hasDecl, get?_ofProgram_insertImport, get?_ofProgram, Option.any_map,
    Option.any_map]
  congr 1
  funext m
  simp only [Interface.declares, Interface.ofModule, Module.insertImport_declared]

theorem hasExport_insertImport (p : Program) (owner : Namespace) (ident : String) :
    (ofProgram (p.insertImport ns k i)).hasExport owner ident =
      (ofProgram p).hasExport owner ident := by
  rw [hasExport, hasExport, get?_ofProgram_insertImport, get?_ofProgram, Option.any_map,
    Option.any_map]
  congr 1
  funext m
  simp only [Interface.exposes, Interface.ofModule, Module.insertImport_exports]

/-! ### What is in reach -/

/-- The imports of a module in the table are imports of the program. -/
theorem imports_of_get? {owner : Namespace} {interface : Interface} {j : Import}
    (hget : (ofProgram p).get? owner = some interface) (hj : j ∈ interface.imports) :
    Imports p.modules owner j.target := by
  obtain ⟨m, hm, hns, rfl⟩ := exists_module_of_get? hget
  exact ⟨m, hm, hns, j, hj, rfl⟩

end Interfaces

/-- **What is in reach is reached by imports alone**: whatever is re-exported is imported too. -/
theorem InReach.transGen {p : Program} (hclosed : (Interfaces.ofProgram p).Closed)
    {owner target : Namespace} (h : InReach (.ofProgram p) owner target) :
    Relation.TransGen (Imports p.modules) owner target := by
  induction h with
  | imported hget hi => exact .single (Interfaces.imports_of_get? hget hi)
  | reexported _ hget htarget ih =>
    obtain ⟨j, hj⟩ := Option.isSome_iff_exists.mp (hclosed.reexports_imported hget _ htarget)
    rw [Interface.firstImport?] at hj
    have hlink := Interfaces.imports_of_get? hget (List.mem_of_find?_eq_some hj)
    rw [beq_iff_eq.mp (List.find?_some hj :)] at hlink
    exact ih.tail hlink

namespace Interfaces

variable {p : Program}

/-- Each module of the table is still there, with the import inserted. -/
theorem exists_get?_insertImport (ns : Namespace) (k : Nat) (i : Import) {owner : Namespace}
    {interface : Interface} (hget : (ofProgram p).get? owner = some interface) :
    ∃ m : Module, interface = .ofModule m ∧
      (ofProgram (p.insertImport ns k i)).get? owner =
        some (.ofModule (m.insertImport ns k i)) := by
  rw [get?_ofProgram] at hget
  obtain ⟨m, hm, rfl⟩ := Option.map_eq_some_iff.mp hget
  refine ⟨m, rfl, ?_⟩
  rw [get?_ofProgram_insertImport, hm, Option.map_some]

/-- Each module of the new table has been in the table without the import. -/
theorem exists_get?_of_insertImport {owner : Namespace} {interface : Interface}
    (hget : (ofProgram (p.insertImport ns k i)).get? owner = some interface) :
    ∃ m : Module, m.ns = owner ∧ interface = .ofModule (m.insertImport ns k i) ∧
      (ofProgram p).get? owner = some (.ofModule m) := by
  rw [get?_ofProgram_insertImport] at hget
  obtain ⟨m, hm, rfl⟩ := Option.map_eq_some_iff.mp hget
  refine ⟨m, beq_iff_eq.mp (List.find?_some hm :), rfl, ?_⟩
  rw [get?_ofProgram, hm, Option.map_some]

/-- What has been in reach, stays in reach. -/
theorem inReach_insertImport {owner target : Namespace} (h : InReach (.ofProgram p) owner target) :
    InReach (.ofProgram (p.insertImport ns k i)) owner target := by
  induction h with
  | imported hget hj =>
    obtain ⟨m, rfl, hget'⟩ := exists_get?_insertImport ns k i hget
    exact .imported hget' (m.imports_subset_insertImport hj)
  | reexported _ hget htarget ih =>
    obtain ⟨m, rfl, hget'⟩ := exists_get?_insertImport ns k i hget
    refine .reexported ih hget' ?_
    rw [Interface.reexports, Interface.ofModule, Module.insertImport_exports]
    exact htarget

/-- An import of what is in reach brings nothing else into reach. -/
theorem inReach_of_insertImport (hi : InReach (.ofProgram p) ns i.target)
    {owner target : Namespace} (h : InReach (.ofProgram (p.insertImport ns k i)) owner target) :
    InReach (.ofProgram p) owner target := by
  induction h with
  | imported hget hj =>
    obtain ⟨m, rfl, rfl, hget'⟩ := exists_get?_of_insertImport hget
    rcases Module.mem_imports_insertImport hj with hj | ⟨rfl, rfl⟩
    · exact .imported hget' hj
    · exact hi
  | reexported _ hget htarget ih =>
    obtain ⟨m, rfl, rfl, hget'⟩ := exists_get?_of_insertImport hget
    rw [Interface.reexports, Interface.ofModule, Module.insertImport_exports] at htarget
    exact .reexported ih hget' htarget

/-- **The same namespaces are in reach of every module.** -/
theorem inReach_insertImport_iff (hi : InReach (.ofProgram p) ns i.target)
    {owner target : Namespace} :
    InReach (.ofProgram (p.insertImport ns k i)) owner target ↔
      InReach (.ofProgram p) owner target :=
  ⟨inReach_of_insertImport hi, inReach_insertImport⟩

end Interfaces

/-! ### The gate -/

namespace Program

variable {p : Program}

/-- **No chain of imports leads to a new place** if one has led to the target before. -/
theorem transGen_of_insertImport (hi : Relation.TransGen (Imports p.modules) ns i.target)
    {a b : Namespace}
    (h : Relation.TransGen (Imports (p.insertImport ns k i).modules) a b) :
    Relation.TransGen (Imports p.modules) a b := by
  refine Relation.TransGen.closed ?_ _ _ h
  rintro a b ⟨m', hm', rfl, j, hj, rfl⟩
  obtain ⟨m, hm, rfl⟩ := List.mem_map.mp hm'
  rw [Module.insertImport_ns]
  rcases Module.mem_imports_insertImport hj with hj | ⟨rfl, rfl⟩
  · exact .single ⟨m, hm, rfl, j, hj, rfl⟩
  · exact hi

/-- The gate admits the program with the import as it admitted the one without. -/
theorem checkImports_insertImport (hi : Relation.TransGen (Imports p.modules) ns i.target)
    (h : checkImports p.modules = .ok ()) :
    checkImports (p.insertImport ns k i).modules = .ok () := by
  rw [checkImports_eq_ok_iff_not_cyclic] at h ⊢
  obtain ⟨hdistinct, hdefined, hacyclic⟩ := h
  refine ⟨?_, ?_, ?_⟩
  · rw [p.map_ns_insertImport]
    exact hdistinct
  · intro m' hm' j hj
    rw [p.map_ns_insertImport]
    obtain ⟨m, hm, rfl⟩ := List.mem_map.mp hm'
    rcases Module.mem_imports_insertImport hj with hj | ⟨-, rfl⟩
    · exact hdefined m hm j hj
    · -- The chain that leads to the target ends with an import of it.
      obtain ⟨_, -, ⟨via, hvia, -, last, hlast, htarget⟩⟩ := Relation.TransGen.tail'_iff.mp hi
      rw [← htarget]
      exact hdefined via hvia last hlast
  · rintro ⟨m, -, hcycle⟩
    exact hacyclic (cyclic_of_transGen (transGen_of_insertImport hi hcycle))

end Program

end NameResolution
