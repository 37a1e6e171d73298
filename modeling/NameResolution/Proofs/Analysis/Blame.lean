import NameResolution.Proofs.Analysis.Stages
import NameResolution.Proofs.Import.Blame
import NameResolution.Proofs.Scope.Blame

/-!
# What an analysis blames

An error of an analysis carries at least one id, and all ids that it carries are those of nodes of
the program (`Program.blames_of_analyze`), whichever stage has found it: the gate blames headers and
imports, the check of the entries exports and declarations, and the resolver a node of the module
that it is at, possibly with imports in reach.  These may be imports of other modules, but of the
same program.
-/

namespace NameResolution

/-! ### Entries -/

namespace Module

variable {m : Module}

theorem blames_unimportedReexports (h : m.unimportedReexports ≠ []) :
    (Error.unimportedReexports m.ns m.unimportedReexports).Blames m.nodes where
  ne_nil := mt List.map_eq_nil_iff.mp h
  subset := by
    intro id hid
    obtain ⟨entry, hentry, rfl⟩ := List.mem_map.mp hid
    obtain ⟨e, he, hsome⟩ := List.mem_filterMap.mp hentry
    cases e with
    | decl id ident => cases hsome
    | reexport id target =>
      obtain ⟨-, hsome⟩ := Option.ite_none_left_eq_some.mp hsome
      cases hsome
      exact export_mem_nodes he

theorem blames_undeclaredExports (h : m.undeclaredExports ≠ []) :
    (Error.undeclaredExports m.ns m.undeclaredExports).Blames m.nodes where
  ne_nil := mt List.map_eq_nil_iff.mp h
  subset := by
    intro id hid
    obtain ⟨entry, hentry, rfl⟩ := List.mem_map.mp hid
    obtain ⟨e, he, hsome⟩ := List.mem_filterMap.mp hentry
    cases e with
    | decl id ident =>
      obtain ⟨-, hsome⟩ := Option.ite_none_left_eq_some.mp hsome
      cases hsome
      exact export_mem_nodes he
    | reexport id target => cases hsome

theorem blames_repeatedDeclaration {ident : String} (h : m.repeatedIdent? = some ident) :
    (Error.repeatedDeclaration m.ns ident (m.declarationsOf ident)).Blames m.nodes where
  ne_nil := by
    have hlength : 1 < (m.declarationsOf ident).length := by
      simpa using List.find?_some h
    apply List.ne_nil_of_length_pos
    show 0 < (m.declarationsOf ident).length
    omega
  subset := by
    intro id hid
    obtain ⟨decl, hdecl, rfl⟩ := List.mem_map.mp hid
    exact decl_subset_nodes (List.mem_of_mem_filter hdecl) decl.id_mem_nodes

/-- **The check of the entries blames exports or declarations.** -/
theorem blames_of_checkEntries {e : Error} (h : m.checkEntries = .error e) : e.Blames m.nodes := by
  by_cases himported : m.unimportedReexports = []
  · by_cases hdeclared : m.undeclaredExports = []
    · cases hrepeated : m.repeatedIdent? with
      | none =>
        rw [checkEntries_of_distinct himported hdeclared hrepeated] at h
        cases h
      | some ident =>
        rw [checkEntries_of_repeated himported hdeclared hrepeated] at h
        cases h
        exact blames_repeatedDeclaration hrepeated
    · rw [checkEntries_of_undeclared himported hdeclared] at h
      cases h
      exact blames_undeclaredExports hdeclared
  · rw [checkEntries_of_unimported himported] at h
    cases h
    exact blames_unimportedReexports himported

theorem blames_of_checkEntriesOf {modules : List Module} {e : Error}
    (h : checkEntriesOf modules = .error e) : e.Blames (modules.flatMap Module.nodes) := by
  induction modules with
  | nil => cases h
  | cons m rest ih =>
    rw [checkEntriesOf] at h
    rw [List.flatMap_cons]
    rcases bind_eq_error_iff.mp h with hm | ⟨_, -, hrest⟩
    · exact (blames_of_checkEntries hm).mono (List.subset_append_left ..)
    · exact (ih hrest).mono (List.subset_append_right ..)

end Module

/-! ### The resolver -/

section Resolver

variable {p : Program}

/-- The imports in reach of a module are imports of the program. -/
theorem Interfaces.map_id_reach_subset {ns : Namespace} {reach : List Import}
    (h : (ofProgram p).reach ns = .ok reach) : reach.map Import.id ⊆ p.nodes := by
  refine map_id_subset_nodes fun i hi => ?_
  obtain ⟨_, interface, hget, himport⟩ := mem_imports_of_reach h i hi
  obtain ⟨m, hm, -, rfl⟩ := exists_module_of_get? hget
  exact ⟨m, hm, himport⟩

theorem Module.blames_of_resolve (hclosed : (Interfaces.ofProgram p).Closed) {m : Module}
    (hm : m ∈ p.modules) {limit : UInt32} {e : Error}
    (h : m.resolve (.ofProgram p) limit = .error (.error e)) : e.Blames p.nodes := by
  obtain ⟨reach, hreach⟩ := hclosed.exists_reach_eq_ok (Interfaces.get?_ofProgram_isSome hm)
  have hdecls : m.decls.flatMap Decl.nodes ⊆ p.nodes :=
    List.Subset.trans m.decls_subset_nodes (Program.module_subset_nodes hm)
  exact Module.blames_of_reach hreach (Interfaces.map_id_reach_subset hreach) hdecls h

theorem Module.blames_of_resolveList (hclosed : (Interfaces.ofProgram p).Closed)
    {modules : List Module} (hmodules : ∀ m ∈ modules, m ∈ p.modules) {limit : UInt32} {e : Error}
    (h : Module.resolveList (.ofProgram p) limit modules = .error (.error e)) :
    e.Blames p.nodes := by
  induction modules with
  | nil => cases h
  | cons m rest ih =>
    obtain ⟨hm, hrest⟩ := List.forall_mem_cons.mp hmodules
    rw [Module.resolveList] at h
    rcases bind_eq_error_iff.mp h with hresolve | ⟨_, -, h⟩
    · exact Module.blames_of_resolve hclosed hm hresolve
    · rcases bind_eq_error_iff.mp h with h | ⟨_, -, ⟨⟩⟩
      exact ih hrest h

end Resolver

/-- **An error of an analysis is about nodes of the program.** -/
theorem Program.blames_of_analyze {p : Program} {config : Config} {e : Error}
    (h : p.analyze config = .error (.error e)) : e.Blames p.nodes := by
  rw [Program.analyze] at h
  rcases bind_eq_error_iff.mp h with hcheck | ⟨checked, hcheck, hresolve⟩
  · rw [Program.check] at hcheck
    rcases bind_eq_error_iff.mp hcheck with himports | ⟨_, -, ⟨⟩⟩
    exact blames_of_checkImports himports
  · obtain ⟨⟨⟩, himports, hchecked⟩ := bind_eq_ok_iff.mp hcheck
    obtain rfl := pure_eq_ok_iff.mp hchecked
    rw [CheckedProgram.resolve] at hresolve
    rcases bind_eq_error_iff.mp hresolve with hentries | ⟨⟨⟩, hentries, hmodules⟩
    · obtain ⟨_, hentries, ⟨⟩⟩ := mapError_eq_error_iff.mp hentries
      exact Module.blames_of_checkEntriesOf hentries
    · have hentries := Module.checkEntriesOf_eq_ok_iff.mp (mapError_eq_ok_iff.mp hentries)
      have hclosed := Interfaces.closed_ofProgram himports hentries
      rcases bind_eq_error_iff.mp hmodules with hmodules | ⟨modules, -, ⟨⟩⟩
      exact Module.blames_of_resolveList hclosed (fun _ hm => hm) hmodules

end NameResolution
