import NameResolution.Proofs.Analysis.Stages
import NameResolution.Proofs.Import.Headers

/-!
# What the stages before the resolver read

All stages before the resolver read the headers and the interfaces of modules.  So programs whose
modules have the same headers and the same interfaces pass the same checks and have the same table,
and what is left to compare is how their modules are resolved with it
(`Program.SameOutline.analyze_eq_ok`).
-/

namespace NameResolution

/-- The table is made of the interfaces of the modules. -/
theorem Interfaces.ofProgram_eq_foldl (p : Program) :
    ofProgram p = (p.modules.map Interface.ofModule).foldl insert empty := by
  rw [List.foldl_map]
  rfl

/-- The modules of both programs have the same headers and the same interfaces. -/
structure Program.SameOutline (p p' : Program) : Prop where
  headers_eq : p'.modules.map Module.headerOnly = p.modules.map Module.headerOnly
  interfaces_eq : p'.modules.map Interface.ofModule = p.modules.map Interface.ofModule

namespace Program.SameOutline

variable {p p' : Program}

theorem checkImports_eq (h : p.SameOutline p') :
    checkImports p'.modules = checkImports p.modules := by
  rw [← checkImports_map_headerOnly, ← checkImports_map_headerOnly p.modules, h.headers_eq]

theorem ofProgram_eq (h : p.SameOutline p') : Interfaces.ofProgram p' = .ofProgram p := by
  rw [Interfaces.ofProgram_eq_foldl, Interfaces.ofProgram_eq_foldl, h.interfaces_eq]

theorem checkEntries_eq_ok (h : p.SameOutline p')
    (hentries : ∀ m ∈ p.modules, m.checkEntries = .ok ()) :
    ∀ m ∈ p'.modules, m.checkEntries = .ok () := by
  intro m hm
  -- The check reads interfaces, and that of `m` is the interface of some module of `p`.
  have hmem : Interface.ofModule m ∈ p.modules.map Interface.ofModule := by
    rw [← h.interfaces_eq]
    exact List.mem_map_of_mem hm
  obtain ⟨source, hsource, hsame⟩ := List.mem_map.mp hmem
  exact Module.checkEntries_eq_ok_of_ofModule_eq hsame.symm (hentries source hsource)

/-- **An analysis goes through if the modules are resolved with the table of the other program.** -/
theorem analyze_eq_ok (h : p.SameOutline p') {config : Config} {q q' : Program}
    (hanalyze : p.analyze config = .ok q)
    (hmodules : List.Forall₂ (fun m m' => m.resolve (.ofProgram p) config.recursionLimit = .ok m')
      p'.modules q'.modules) : p'.analyze config = .ok q' := by
  obtain ⟨himports, hentries, -⟩ := Program.analyze_eq_ok_iff.mp hanalyze
  refine Program.analyze_eq_ok_iff.mpr ⟨?_, h.checkEntries_eq_ok hentries, ?_⟩
  · rw [h.checkImports_eq, himports]
  · rw [h.ofProgram_eq]
    exact hmodules

end Program.SameOutline

end NameResolution
