import NameResolution.Proofs.Import.Reach
import NameResolution.Proofs.Import.Search
import NameResolution.Proofs.Module.Entries
import NameResolution.Proofs.Scope.Lexical
import Mathlib.Data.List.Nodup

/-!
# The interfaces of a program

Of modules with the same namespace the last one is in the table (`get?_ofProgram`), so whatever the
table holds is the interface of a module of the program.  If the imports of the program have been
admitted and the entries of its modules have been checked, then the table is closed
(`closed_ofProgram`), and what it exports is declared (`hasDecl_of_hasExport`).
-/

namespace NameResolution

theorem Interface.exposes_iff {interface : Interface} {ident : String} :
    interface.exposes ident = true ↔ ∃ id, .decl id ident ∈ interface.exports := by
  rw [exposes, List.any_eq_true]
  constructor
  · rintro ⟨e, he, hexposed⟩
    cases e with
    | decl id exposed =>
      obtain rfl : exposed = ident := beq_iff_eq.mp hexposed
      exact ⟨id, he⟩
    | reexport id target => cases hexposed
  · rintro ⟨id, he⟩
    exact ⟨_, he, beq_self_eq_true ident⟩

namespace Interfaces

/-! ### Looking up what has been entered -/

/-- An interface that is entered replaces the one of its namespace and no other one. -/
theorem get?_insert (interfaces : Interfaces) (interface : Interface) (ns : Namespace) :
    (interfaces.insert interface).get? ns =
      if interface.ns = ns then some interface else interfaces.get? ns := by
  rw [insert]
  cases hknown : (interfaces.get? interface.ns).isSome with
  | true =>
    -- Replacing an interface leaves the namespaces in the table as they are.
    rw [if_pos rfl, get?, get?, List.find?_map]
    have hns : ((fun other : Interface => other.ns == ns) ∘ fun other =>
        if other.ns == interface.ns then interface else other) = fun other => other.ns == ns := by
      funext other
      by_cases hother : other.ns = interface.ns
      · simp [hother]
      · simp [hother]
    rw [hns]
    by_cases hsame : interface.ns = ns
    · subst hsame
      obtain ⟨found, hfound⟩ := Option.isSome_iff_exists.mp hknown
      rw [get?] at hfound
      have hfoundNs : found.ns = interface.ns := by simpa using List.find?_some hfound
      rw [if_pos rfl, hfound]
      simp [hfoundNs]
    · rw [if_neg hsame]
      cases hfound : interfaces.entries.find? (·.ns == ns) with
      | none => rfl
      | some found =>
        have hfoundNs : found.ns = ns := by simpa using List.find?_some hfound
        have hne : ¬found.ns = interface.ns := fun h => hsame (h.symm.trans hfoundNs)
        simp [hne]
  | false =>
    rw [if_neg (by simp), get?, get?, List.find?_append]
    by_cases hsame : interface.ns = ns
    · subst hsame
      have hnone : interfaces.entries.find? (·.ns == interface.ns) = none := by
        simpa [get?] using hknown
      rw [if_pos rfl, hnone]
      simp
    · rw [if_neg hsame]
      simp [hsame]

/-- **Of modules with the same namespace the last one counts.** -/
theorem get?_ofProgram (p : Program) (ns : Namespace) :
    (ofProgram p).get? ns = (p.modules.reverse.find? (·.ns == ns)).map Interface.ofModule := by
  suffices hfold : ∀ (modules : List Module) (interfaces : Interfaces),
      (modules.foldl (fun interfaces m => interfaces.insert (.ofModule m)) interfaces).get? ns =
        ((modules.reverse.find? (·.ns == ns)).map Interface.ofModule).or (interfaces.get? ns) by
    rw [ofProgram, hfold, empty, get?]
    simp
  intro modules
  -- The modules are entered from the first one on, so the table to start from has to vary.
  induction modules with
  | nil => intro interfaces; rfl
  | cons m rest ih =>
    intro interfaces
    rw [List.foldl_cons, ih, List.reverse_cons, List.find?_append, get?_insert]
    cases rest.reverse.find? (·.ns == ns) with
    | some found => rfl
    | none =>
      by_cases hns : m.ns = ns
      · simp [Interface.ofModule, hns]
      · simp [Interface.ofModule, hns]

variable {p : Program} {ns : Namespace}

/-- What the table holds is the interface of a module. -/
theorem exists_module_of_get? {interface : Interface}
    (h : (ofProgram p).get? ns = some interface) :
    ∃ m ∈ p.modules, m.ns = ns ∧ interface = .ofModule m := by
  rw [get?_ofProgram] at h
  obtain ⟨m, hm, hinterface⟩ := Option.map_eq_some_iff.mp h
  refine ⟨m, ?_, ?_, hinterface.symm⟩
  · exact List.mem_reverse.mp (List.mem_of_find?_eq_some hm)
  · simpa using List.find?_some hm

/-- Every module has an interface in the table. -/
theorem get?_ofProgram_isSome {m : Module} (hm : m ∈ p.modules) :
    ((ofProgram p).get? m.ns).isSome := by
  rw [get?_ofProgram, Option.isSome_map, List.find?_isSome]
  exact ⟨m, List.mem_reverse.mpr hm, beq_self_eq_true m.ns⟩

/-- With distinct namespaces each module is in the table. -/
theorem get?_ofProgram_of_mem (hdistinct : (p.modules.map Module.ns).Nodup) {m : Module}
    (hm : m ∈ p.modules) : (ofProgram p).get? m.ns = some (.ofModule m) := by
  obtain ⟨interface, hget⟩ := Option.isSome_iff_exists.mp (get?_ofProgram_isSome hm)
  obtain ⟨found, hfound, hns, rfl⟩ := exists_module_of_get? hget
  rw [hget, List.inj_on_of_nodup_map hdistinct hfound hm hns]

/-- What the table declares is declared by a module. -/
theorem exists_module_of_hasDecl {ident : String} (h : (ofProgram p).hasDecl ns ident = true) :
    ∃ m ∈ p.modules, m.ns = ns ∧ ident ∈ m.declared := by
  obtain ⟨interface, hget, hdeclares⟩ := (Option.any_eq_true _ _).mp h
  obtain ⟨m, hm, hns, rfl⟩ := exists_module_of_get? hget
  exact ⟨m, hm, hns, List.contains_iff_mem.mp hdeclares⟩

/-- What the table exports is exported by a module. -/
theorem exists_module_of_hasExport {ident : String}
    (h : (ofProgram p).hasExport ns ident = true) :
    ∃ m ∈ p.modules, m.ns = ns ∧ ∃ id, .decl id ident ∈ m.exports := by
  obtain ⟨interface, hget, hexposes⟩ := (Option.any_eq_true _ _).mp h
  obtain ⟨m, hm, hns, rfl⟩ := exists_module_of_get? hget
  exact ⟨m, hm, hns, Interface.exposes_iff.mp hexposes⟩

/-- With distinct namespaces the table exports what the modules export. -/
theorem hasExport_ofProgram_iff (hdistinct : (p.modules.map Module.ns).Nodup) {ident : String} :
    (ofProgram p).hasExport ns ident = true ↔
      ∃ source ∈ p.modules, source.ns = ns ∧ ∃ id, .decl id ident ∈ source.exports := by
  refine ⟨exists_module_of_hasExport, ?_⟩
  rintro ⟨source, hsource, rfl, hexport⟩
  have hget := get?_ofProgram_of_mem hdistinct hsource
  exact (Option.any_eq_true _ _).mpr ⟨_, hget, Interface.exposes_iff.mpr hexport⟩

/-! ### Programs with checked imports and entries -/

/-- **In a program that passes the checks no search for imports in reach faults.** -/
theorem closed_ofProgram (himports : checkImports p.modules = .ok ())
    (hentries : ∀ m ∈ p.modules, m.checkEntries = .ok ()) : (ofProgram p).Closed where
  imports_defined := by
    intro ns interface hget i hi
    obtain ⟨m, hm, -, rfl⟩ := exists_module_of_get? hget
    obtain ⟨-, hdefined, -⟩ := checkImports_eq_ok_iff.mp himports
    have htarget := undefinedImports_eq_nil_iff.mp hdefined m hm i hi
    obtain ⟨target, hnamed⟩ := Option.isSome_iff_exists.mp htarget
    have hns : target.ns = i.target := by simpa using List.find?_some hnamed
    rw [← hns]
    exact get?_ofProgram_isSome (List.mem_of_find?_eq_some hnamed)
  reexports_imported := by
    intro ns interface hget target htarget
    obtain ⟨m, hm, -, rfl⟩ := exists_module_of_get? hget
    obtain ⟨e, he, hreexport⟩ := List.mem_filterMap.mp htarget
    cases e with
    | decl id ident => cases hreexport
    | reexport id other =>
      cases hreexport
      obtain ⟨himported, -, -⟩ := Module.checkEntries_eq_ok_iff.mp (hentries m hm)
      rw [Interface.firstImport?, List.find?_isSome]
      exact List.any_eq_true.mp (himported id target he)

/-- What is exported is declared. -/
theorem hasDecl_of_hasExport (hentries : ∀ m ∈ p.modules, m.checkEntries = .ok ())
    {ident : String} (h : (ofProgram p).hasExport ns ident = true) :
    (ofProgram p).hasDecl ns ident = true := by
  obtain ⟨interface, hget, hexposes⟩ := (Option.any_eq_true _ _).mp h
  obtain ⟨m, hm, -, rfl⟩ := exists_module_of_get? hget
  obtain ⟨id, he⟩ := Interface.exposes_iff.mp hexposes
  obtain ⟨-, hdeclared, -⟩ := Module.checkEntries_eq_ok_iff.mp (hentries m hm)
  exact (Option.any_eq_true _ _).mpr ⟨_, hget, List.contains_iff_mem.mpr (hdeclared id ident he)⟩

end Interfaces

end NameResolution
