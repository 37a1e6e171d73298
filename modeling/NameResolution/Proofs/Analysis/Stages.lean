import NameResolution.Proofs.Import.Headers
import NameResolution.Proofs.Module.Interface
import NameResolution.Proofs.Pointwise
import NameResolution.Proofs.Scope.Answers
import Mathlib.Data.List.Forall2

/-!
# The stages of an analysis

`Program.analyze_eq_ok_iff` takes a successful analysis apart into its stages.  For the analyses
that do not succeed, each stage makes the next one safe: the gate gives every import a target, the
check of the entries gives every re-export an import, so the imports in reach of a module are
always found, and resolving with them looks up nothing else.  Hence no analysis faults
(`Program.analyze_ok_or_error`).
-/

namespace NameResolution

/-! ### Resolving modules -/

theorem Module.resolveList_eq_ok_iff {interfaces : Interfaces} {limit : UInt32}
    {modules resolved : List Module} :
    Module.resolveList interfaces limit modules = .ok resolved ↔
      List.Forall₂ (fun m m' => m.resolve interfaces limit = .ok m') modules resolved := by
  induction modules generalizing resolved with
  | nil => rw [List.forall₂_nil_left_iff, Module.resolveList, pure_eq_ok_iff, eq_comm]
  | cons m rest ih =>
    rw [List.forall₂_cons_left_iff, Module.resolveList, bind_eq_ok_iff]
    simp only [bind_eq_ok_iff, pure_eq_ok_iff, ih]
    constructor
    · rintro ⟨m', hm, rest', hrest, rfl⟩
      exact ⟨m', rest', hm, hrest, rfl⟩
    · rintro ⟨m', rest', hm, hrest, rfl⟩
      exact ⟨m', hm, rest', hrest, rfl⟩

/-! ### A successful analysis -/

theorem Program.analyze_eq_ok_iff {p q : Program} {config : Config} :
    p.analyze config = .ok q ↔
      checkImports p.modules = .ok () ∧ (∀ m ∈ p.modules, m.checkEntries = .ok ()) ∧
        List.Forall₂ (fun m m' => m.resolve (.ofProgram p) config.recursionLimit = .ok m')
          p.modules q.modules := by
  rw [← Module.checkEntriesOf_eq_ok_iff, ← Module.resolveList_eq_ok_iff, Program.analyze,
    bind_eq_ok_iff, Program.check]
  constructor
  · rintro ⟨checked, hcheck, hresolve⟩
    obtain ⟨⟨⟩, himports, hchecked⟩ := bind_eq_ok_iff.mp hcheck
    obtain rfl := pure_eq_ok_iff.mp hchecked
    obtain ⟨⟨⟩, hentries, hresolved⟩ := bind_eq_ok_iff.mp hresolve
    obtain ⟨modules, hmodules, hq⟩ := bind_eq_ok_iff.mp hresolved
    obtain rfl := pure_eq_ok_iff.mp hq
    exact ⟨himports, mapError_eq_ok_iff.mp hentries, hmodules⟩
  · rintro ⟨himports, hentries, hmodules⟩
    refine ⟨⟨p, .ofProgram p⟩, bind_eq_ok_iff.mpr ⟨(), himports, rfl⟩, ?_⟩
    refine bind_eq_ok_iff.mpr ⟨(), mapError_eq_ok_iff.mpr hentries, ?_⟩
    exact bind_eq_ok_iff.mpr ⟨q.modules, hmodules, rfl⟩

/-- Resolving changes declarations only. -/
theorem Module.headerOnly_of_resolve {interfaces : Interfaces} {limit : UInt32}
    {m resolved : Module} (h : m.resolve interfaces limit = .ok resolved) :
    resolved.headerOnly = m.headerOnly := by
  obtain ⟨reach, decls, b, -, -, rfl⟩ := Module.resolve_eq_ok_iff.mp h
  rfl

theorem Module.ns_of_resolve {interfaces : Interfaces} {limit : UInt32} {m resolved : Module}
    (h : m.resolve interfaces limit = .ok resolved) : resolved.ns = m.ns :=
  (Module.mk.inj (Module.headerOnly_of_resolve h)).2.1

theorem Program.headers_of_analyze {p q : Program} {config : Config}
    (h : p.analyze config = .ok q) :
    q.modules.map Module.headerOnly = p.modules.map Module.headerOnly := by
  obtain ⟨-, -, hmodules⟩ := Program.analyze_eq_ok_iff.mp h
  exact map_eq_of_forall₂ hmodules Module.headerOnly_of_resolve

theorem Program.ns_of_analyze {p q : Program} {config : Config} (h : p.analyze config = .ok q) :
    q.modules.map Module.ns = p.modules.map Module.ns := by
  have hheaders := congrArg (List.map Module.ns) (Program.headers_of_analyze h)
  rw [List.map_map, List.map_map] at hheaders
  exact hheaders

/-! ### An analysis that fails -/

/-- With the imports in reach at hand no lookup faults, in whatever state it is made. -/
theorem Occurrence.lookUp_ne_fault {ctx : Context} (hctx : ctx.Grounded) {env : List Name}
    {binders : Binders} (htracks : Tracks ctx.owner env binders) (o : Occurrence) (fault : Fault) :
    o.lookUp ctx binders (innermost ctx.owner env) ≠ .error (.fault fault) := by
  intro h
  cases o with
  | value node name enclosing =>
    rw [lookUp, Context.variableMeaning_eq hctx binders htracks.chain.owner_encloses] at h
    obtain ⟨_, -, ⟨⟩⟩ := mapError_eq_error_iff.mp h
  | type node name =>
    rw [lookUp, Context.typeMeaning_eq hctx] at h
    obtain ⟨_, -, ⟨⟩⟩ := mapError_eq_error_iff.mp h

/-- In a closed table a module that has an interface resolves or has an error. -/
theorem Module.resolve_ne_fault {interfaces : Interfaces} (hclosed : interfaces.Closed)
    {m : Module} (hm : (interfaces.get? m.ns).isSome) (limit : UInt32) (fault : Fault) :
    m.resolve interfaces limit ≠ .error (.fault fault) := by
  intro h
  obtain ⟨reach, hreach⟩ := hclosed.exists_reach_eq_ok hm
  cases Module.answers_of_resolve hreach h with
  | @lookUp o _ _ _ _ _ htracks hfails =>
    exact o.lookUp_ne_fault (Context.grounded_of_reach hreach limit) htracks fault hfails

theorem Module.resolveList_ne_fault {interfaces : Interfaces} (hclosed : interfaces.Closed)
    {modules : List Module} (hmodules : ∀ m ∈ modules, (interfaces.get? m.ns).isSome)
    (limit : UInt32) (fault : Fault) :
    Module.resolveList interfaces limit modules ≠ .error (.fault fault) := by
  induction modules with
  | nil => rintro ⟨⟩
  | cons m rest ih =>
    intro h
    rw [Module.resolveList, bind_eq_error_iff] at h
    rcases h with hm | ⟨m', -, hrest⟩
    · exact Module.resolve_ne_fault hclosed (hmodules m List.mem_cons_self) limit fault hm
    · rcases bind_eq_error_iff.mp hrest with hrest | ⟨rest', -, ⟨⟩⟩
      exact ih (fun other hother => hmodules other (List.mem_cons_of_mem _ hother)) hrest

theorem CheckedProgram.resolve_ne_fault {p : Program} (himports : checkImports p.modules = .ok ())
    (config : Config) (fault : Fault) :
    CheckedProgram.resolve ⟨p, .ofProgram p⟩ config ≠ .error (.fault fault) := by
  intro h
  rw [CheckedProgram.resolve, bind_eq_error_iff] at h
  rcases h with hentries | ⟨⟨⟩, hentries, hmodules⟩
  · -- The check of the entries knows no faults at all.
    change (Module.checkEntriesOf p.modules).mapError Failure.error = _ at hentries
    cases hchecked : Module.checkEntriesOf p.modules with
    | error e => rw [hchecked] at hentries; cases hentries
    | ok u => rw [hchecked] at hentries; cases hentries
  · have hentries := Module.checkEntriesOf_eq_ok_iff.mp (mapError_eq_ok_iff.mp hentries)
    have hclosed := Interfaces.closed_ofProgram himports hentries
    rcases bind_eq_error_iff.mp hmodules with hmodules | ⟨modules, -, ⟨⟩⟩
    exact Module.resolveList_ne_fault hclosed (fun m hm => Interfaces.get?_ofProgram_isSome hm)
      config.recursionLimit fault hmodules

/-- **Every analysis gives a program or an error in it, and never faults.** -/
theorem Program.analyze_ok_or_error (p : Program) (config : Config) :
    (∃ q, p.analyze config = .ok q) ∨ ∃ e, p.analyze config = .error (.error e) := by
  cases hresult : p.analyze config with
  | ok q => exact Or.inl ⟨q, rfl⟩
  | error failure =>
    cases failure with
    | error e => exact Or.inr ⟨e, rfl⟩
    | fault fault =>
      rw [Program.analyze, bind_eq_error_iff] at hresult
      rcases hresult with hcheck | ⟨checked, hcheck, hresolve⟩
      · rcases bind_eq_error_iff.mp hcheck with himports | ⟨_, -, ⟨⟩⟩
        exact absurd himports (checkImports_ne_fault p.modules fault)
      · obtain ⟨⟨⟩, himports, hchecked⟩ := bind_eq_ok_iff.mp hcheck
        obtain rfl := pure_eq_ok_iff.mp hchecked
        exact absurd hresolve (CheckedProgram.resolve_ne_fault himports config fault)

end NameResolution
