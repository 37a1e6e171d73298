import NameResolution.Proofs.Analysis.View
import NameResolution.Proofs.Import.Verdict
import Mathlib

/-!
# The order of modules, imports and exports

An analysis does not depend on the order in which modules, imports and exports are listed: it
succeeds in every order or in none, and gives a module the same declarations in all of them
(`Program.analyze_reordered`).

Once the gate has admitted a program, its namespaces are distinct, so the table of interfaces holds
all of its modules, and two reordered programs have the same table up to order
(`Program.Reordered.exists_get?`).  What is in reach is a least fixed point of questions about
members of its lists.  So both tables show the same (`Program.Reordered.sameView`), and a module is
resolved alike in both of them.
-/

namespace NameResolution

/-- The same modules in another order, each of them with its imports and its exports in another
order. -/
def Program.Reordered (p p' : Program) : Prop := Module.ListReordered p.modules p'.modules

theorem Program.Reordered.symm {p p' : Program} (h : p.Reordered p') : p'.Reordered p :=
  Module.ListReordered.symm h

theorem Interface.mem_reexports_iff {interface : Interface} {target : Namespace} :
    target ∈ interface.reexports ↔ ∃ id, .reexport id target ∈ interface.exports := by
  rw [reexports, List.mem_filterMap]
  constructor
  · rintro ⟨e, he, hreexport⟩
    cases e with
    | decl id ident => cases hreexport
    | reexport id other =>
      cases hreexport
      exact ⟨id, he⟩
  · rintro ⟨id, he⟩
    exact ⟨_, he, rfl⟩

/-! ### A module among reordered ones -/

namespace Module.Reordered

variable {m m' : Module}

theorem declared_eq (h : m.Reordered m') : m'.declared = m.declared := by
  rw [declared, declared, h.decls_eq]

theorem checkEntries_eq_ok (h : m.Reordered m') (hm : m.checkEntries = .ok ()) :
    m'.checkEntries = .ok () := by
  rw [checkEntries_eq_ok_iff] at hm ⊢
  simp only [importsModule, List.any_eq_true, h.imports.mem_iff, h.exports.mem_iff] at hm
  simp only [importsModule, List.any_eq_true, h.declared_eq]
  exact hm

end Module.Reordered

namespace Program.Reordered

variable {p p' : Program}

theorem nodup (h : p.Reordered p') (hdistinct : (p.modules.map Module.ns).Nodup) :
    (p'.modules.map Module.ns).Nodup :=
  (Module.ListReordered.perm_ns h).nodup_iff.mp hdistinct

/-- Modules of the same namespace are each other's counterparts. -/
theorem reordered_of_ns_eq (h : p.Reordered p') (hdistinct : (p.modules.map Module.ns).Nodup)
    {m m' : Module} (hm : m ∈ p.modules) (hm' : m' ∈ p'.modules) (hns : m'.ns = m.ns) :
    m.Reordered m' := by
  obtain ⟨source, hsource, hreordered⟩ := Module.ListReordered.exists_left h hm'
  have hsame : source.ns = m.ns := hreordered.ns_eq.symm.trans hns
  obtain rfl := List.inj_on_of_nodup_map hdistinct hsource hm hsame
  exact hreordered

/-! ### The same view -/

/-- What the table of one program holds is in that of the other one, up to order. -/
theorem exists_get? (h : p.Reordered p') (hdistinct : (p.modules.map Module.ns).Nodup)
    {ns : Namespace} {interface : Interface}
    (hget : (Interfaces.ofProgram p).get? ns = some interface) :
    ∃ m m' : Module, interface = .ofModule m ∧ m.Reordered m' ∧
      (Interfaces.ofProgram p').get? ns = some (.ofModule m') := by
  obtain ⟨m, hm, rfl, rfl⟩ := Interfaces.exists_module_of_get? hget
  obtain ⟨m', hm', hreordered⟩ := Module.ListReordered.exists_right h hm
  have hget' := Interfaces.get?_ofProgram_of_mem (h.nodup hdistinct) hm'
  rw [hreordered.ns_eq] at hget'
  exact ⟨m, m', rfl, hreordered, hget'⟩

theorem hasDecl_of_hasDecl (h : p.Reordered p') (hdistinct : (p.modules.map Module.ns).Nodup)
    {ns : Namespace} {ident : String}
    (hdecl : (Interfaces.ofProgram p).hasDecl ns ident = true) :
    (Interfaces.ofProgram p').hasDecl ns ident = true := by
  obtain ⟨interface, hget, hdeclares⟩ := (Option.any_eq_true _ _).mp hdecl
  obtain ⟨m, m', rfl, hreordered, hget'⟩ := h.exists_get? hdistinct hget
  refine (Option.any_eq_true _ _).mpr ⟨_, hget', ?_⟩
  rw [Interface.declares, Interface.ofModule, hreordered.declared_eq]
  exact hdeclares

theorem hasExport_of_hasExport (h : p.Reordered p') (hdistinct : (p.modules.map Module.ns).Nodup)
    {ns : Namespace} {ident : String}
    (hexport : (Interfaces.ofProgram p).hasExport ns ident = true) :
    (Interfaces.ofProgram p').hasExport ns ident = true := by
  obtain ⟨interface, hget, hexposes⟩ := (Option.any_eq_true _ _).mp hexport
  obtain ⟨m, m', rfl, hreordered, hget'⟩ := h.exists_get? hdistinct hget
  obtain ⟨id, hmem⟩ := Interface.exposes_iff.mp hexposes
  refine (Option.any_eq_true _ _).mpr ⟨_, hget', Interface.exposes_iff.mpr ⟨id, ?_⟩⟩
  exact hreordered.exports.mem_iff.mp hmem

/-- What is in reach is in reach in every order. -/
theorem inReach (h : p.Reordered p') (hdistinct : (p.modules.map Module.ns).Nodup)
    {ns target : Namespace} (hreach : InReach (.ofProgram p) ns target) :
    InReach (.ofProgram p') ns target := by
  induction hreach with
  | imported hget hi =>
    obtain ⟨m, m', rfl, hreordered, hget'⟩ := h.exists_get? hdistinct hget
    exact .imported hget' (hreordered.imports.mem_iff.mp hi)
  | reexported _ hget htarget ih =>
    obtain ⟨m, m', rfl, hreordered, hget'⟩ := h.exists_get? hdistinct hget
    obtain ⟨id, hmem⟩ := Interface.mem_reexports_iff.mp htarget
    have hmem' := hreordered.exports.mem_iff.mp hmem
    exact .reexported ih hget' (Interface.mem_reexports_iff.mpr ⟨id, hmem'⟩)

/-- **The tables of both programs show the same.** -/
theorem sameView (h : p.Reordered p') (hdistinct : (p.modules.map Module.ns).Nodup) :
    (Interfaces.ofProgram p).SameView (.ofProgram p') where
  hasDecl_eq _ _ := Bool.eq_iff_iff.mpr
    ⟨h.symm.hasDecl_of_hasDecl (h.nodup hdistinct), h.hasDecl_of_hasDecl hdistinct⟩
  hasExport_eq _ _ := Bool.eq_iff_iff.mpr
    ⟨h.symm.hasExport_of_hasExport (h.nodup hdistinct), h.hasExport_of_hasExport hdistinct⟩
  inReach_iff := ⟨h.symm.inReach (h.nodup hdistinct), h.inReach hdistinct⟩

/-! ### The stages -/

/-- A module of a checked program and its counterpart are resolved to the same declarations. -/
theorem resolve_eq_ok (h : p.Reordered p') (himports : checkImports p.modules = .ok ())
    (hentries : ∀ m ∈ p.modules, m.checkEntries = .ok ()) {m m' resolved : Module}
    {limit : UInt32} (hm' : m' ∈ p'.modules) (hreordered : m.Reordered m')
    (hresolve : m.resolve (.ofProgram p) limit = .ok resolved) :
    m'.resolve (.ofProgram p') limit = .ok { m' with decls := resolved.decls } := by
  have hdistinct := (checkImports_eq_ok_iff_not_cyclic.mp himports).1
  -- The search from `m'` cannot fault either, for its program passes the same checks.
  have hclosed : (Interfaces.ofProgram p').Closed := by
    refine Interfaces.closed_ofProgram (Module.ListReordered.checkImports_eq_ok h himports) ?_
    intro other hother
    obtain ⟨source, hsource, hsame⟩ := Module.ListReordered.exists_left h hother
    exact hsame.checkEntries_eq_ok (hentries source hsource)
  have hknown : ((Interfaces.ofProgram p').get? m.ns).isSome := by
    rw [← hreordered.ns_eq]
    exact Interfaces.get?_ofProgram_isSome hm'
  have hview := h.sameView hdistinct
  exact hview.resolve_eq_ok hclosed hreordered.ns_eq hreordered.decls_eq hknown hresolve

theorem exists_analyze_eq_ok (h : p.Reordered p') {config : Config} {q : Program}
    (hanalyze : p.analyze config = .ok q) : ∃ q', p'.analyze config = .ok q' := by
  obtain ⟨himports, hentries, hmodules⟩ := Program.analyze_eq_ok_iff.mp hanalyze
  have hresolved : ∀ m' ∈ p'.modules, ∃ resolved,
      m'.resolve (.ofProgram p') config.recursionLimit = .ok resolved := by
    intro m' hm'
    obtain ⟨m, hm, hreordered⟩ := Module.ListReordered.exists_left h hm'
    obtain ⟨resolved, -, hresolve⟩ := exists_right_of_forall₂ hmodules hm
    exact ⟨_, h.resolve_eq_ok himports hentries hm' hreordered hresolve⟩
  -- The modules of `p'` are resolved one by one, each because its counterpart is.
  obtain ⟨modules', hmodules'⟩ := exists_forall₂ hresolved
  refine ⟨⟨modules'⟩, Program.analyze_eq_ok_iff.mpr ⟨?_, ?_, hmodules'⟩⟩
  · exact Module.ListReordered.checkImports_eq_ok h himports
  · intro m' hm'
    obtain ⟨m, hm, hreordered⟩ := Module.ListReordered.exists_left h hm'
    exact hreordered.checkEntries_eq_ok (hentries m hm)

end Program.Reordered

/-! ### The result -/

namespace Program.Reordered

variable {p p' q q' : Program}

/-- Modules of the same namespace get the same declarations. -/
theorem decls_eq (h : p.Reordered p') {config : Config} (hanalyze : p.analyze config = .ok q)
    (hanalyze' : p'.analyze config = .ok q') {m m' : Module} (hm : m ∈ q.modules)
    (hm' : m' ∈ q'.modules) (hns : m'.ns = m.ns) : m'.decls = m.decls := by
  obtain ⟨himports, hentries, hmodules⟩ := Program.analyze_eq_ok_iff.mp hanalyze
  obtain ⟨-, -, hmodules'⟩ := Program.analyze_eq_ok_iff.mp hanalyze'
  obtain ⟨source, hsource, hresolve⟩ := exists_left_of_forall₂ hmodules hm
  obtain ⟨source', hsource', hresolve'⟩ := exists_left_of_forall₂ hmodules' hm'
  have hns_eq : source'.ns = source.ns :=
    calc source'.ns = m'.ns := (Module.ns_of_resolve hresolve').symm
      _ = m.ns := hns
      _ = source.ns := Module.ns_of_resolve hresolve
  have hdistinct := (checkImports_eq_ok_iff_not_cyclic.mp himports).1
  have hreordered := h.reordered_of_ns_eq hdistinct hsource hsource' hns_eq
  -- What the counterpart is resolved to is the only result there is.
  have hsame := h.resolve_eq_ok himports hentries hsource' hreordered hresolve
  rw [hresolve'] at hsame
  cases hsame
  rfl

end Program.Reordered

/-- **An analysis does not depend on the order of modules, imports and exports.**  It succeeds in
every order or in none; the modules of a namespace then have the same declarations, and each module
keeps its own header. -/
theorem Program.analyze_reordered {p p' : Program} (h : p.Reordered p') (config : Config) :
    ((∃ q, p.analyze config = .ok q) ↔ ∃ q', p'.analyze config = .ok q') ∧
      ∀ q q', p.analyze config = .ok q → p'.analyze config = .ok q' →
        (∀ m ∈ q.modules, ∀ m' ∈ q'.modules, m'.ns = m.ns → m'.decls = m.decls) ∧
          q.modules.map Module.headerOnly = p.modules.map Module.headerOnly ∧
          q'.modules.map Module.headerOnly = p'.modules.map Module.headerOnly := by
  constructor
  · constructor
    · rintro ⟨q, hanalyze⟩
      exact h.exists_analyze_eq_ok hanalyze
    · rintro ⟨q', hanalyze⟩
      exact h.symm.exists_analyze_eq_ok hanalyze
  · intro q q' hanalyze hanalyze'
    refine ⟨fun m hm m' hm' hns => h.decls_eq hanalyze hanalyze' hm hm' hns, ?_, ?_⟩
    · exact Program.headers_of_analyze hanalyze
    · exact Program.headers_of_analyze hanalyze'

/-- A type comes through a re-export or directly, whichever import is listed first. -/
theorem Program.analyze_reordered_reexported_type :
    let lib : Module := ⟨⟨0⟩, ⟨["Lib"]⟩, [], [.decl ⟨1⟩ "T"], [.data ⟨2⟩ "T" [] []]⟩
    let facade (exports : List Export) : Module :=
      ⟨⟨3⟩, ⟨["Facade"]⟩, [⟨⟨4⟩, ⟨["Lib"]⟩⟩], exports, [.data ⟨5⟩ "U" [] []]⟩
    let main (imports : List Import) (t u : Name) : Module :=
      ⟨⟨6⟩, ⟨["Main"]⟩, imports, [],
        [.value ⟨7⟩ "x" (some (.arrow ⟨8⟩ (.con ⟨9⟩ t []) (.con ⟨10⟩ u []))) (.lit ⟨11⟩ .unit)]⟩
    let toLib : Import := ⟨⟨12⟩, ⟨["Lib"]⟩⟩
    let toFacade : Import := ⟨⟨13⟩, ⟨["Facade"]⟩⟩
    let passLib : Export := .reexport ⟨14⟩ ⟨["Lib"]⟩
    let exposeU : Export := .decl ⟨15⟩ "U"
    let p (t u : Name) : Program :=
      ⟨[lib, facade [passLib, exposeU], main [toLib, toFacade] t u]⟩
    let p' (t u : Name) : Program :=
      ⟨[main [toFacade, toLib] t u, facade [exposeU, passLib], lib]⟩
    let t : Name := .unqualified "T"
    let u : Name := .unqualified "U"
    let t' : Name := ⟨⟨["Lib"]⟩, "T"⟩
    let u' : Name := ⟨⟨["Facade"]⟩, "U"⟩
    (p t u).Reordered (p' t u) ∧ (p t u).analyze {} = .ok (p t' u') ∧
      (p' t u).analyze {} = .ok (p' t' u') ∧
      ∀ q', (p' t u).analyze {} = .ok q' →
        ∀ m ∈ (p t' u').modules, ∀ m' ∈ q'.modules, m'.ns = m.ns → m'.decls = m.decls := by
  intro lib facade main toLib toFacade passLib exposeU p p' t u t' u'
  have hreordered : (p t u).Reordered (p' t u) := by
    have hlib : lib.Reordered lib := ⟨rfl, rfl, .refl _, .refl _, rfl⟩
    have hfacade : (facade [passLib, exposeU]).Reordered (facade [exposeU, passLib]) :=
      ⟨rfl, rfl, .refl _, .swap exposeU passLib [], rfl⟩
    have hmain : (main [toLib, toFacade] t u).Reordered (main [toFacade, toLib] t u) :=
      ⟨rfl, rfl, .swap toFacade toLib [], .refl _, rfl⟩
    exact ⟨_, (List.reverse_perm _).symm, .cons hmain (.cons hfacade (.cons hlib .nil))⟩
  have hanalyze : (p t u).analyze {} = .ok (p t' u') := by cbv
  have hanalyze' : (p' t u).analyze {} = .ok (p' t' u') := by cbv
  refine ⟨hreordered, hanalyze, hanalyze', fun q' hq' => ?_⟩
  exact ((Program.analyze_reordered hreordered {}).2 _ q' hanalyze hq').1

end NameResolution
