import NameResolution.Proofs.Analysis.Stages
import NameResolution.Proofs.Scope.Occurrence
import Mathlib

/-!
# References of an analyzed program

The resolver looks at export lists only.  That what it finds there is declared somewhere takes the
earlier stages: the gate tells modules with the same namespace apart, and the check of the entries
covers the exports of every module (`Program.provides_of_gives`).  Together with the meanings of
the occurrences in a resolved module this leaves no reference that dangles
(`Program.references_of_analyze`).
-/

namespace NameResolution

/-- Some module declares `name`, and `m` may use it: the module is `m`, or one in reach of `m` that
exports it. -/
def Program.Provides (p : Program) (m : Module) (reach : List Import) (name : Name) : Prop :=
  ∃ source ∈ p.modules, source.ns = name.qualifier ∧ name.ident ∈ source.declared ∧
    (source = m ∨
      source.ns ∈ reach.map Import.target ∧ ∃ id, .decl id name.ident ∈ source.exports)

variable {p q : Program} {m : Module} {reach : List Import} {limit : UInt32}

/-- What is given to a module of a checked program, a module of the program provides. -/
theorem Program.provides_of_gives (hrepeated : repeatedModule? p.modules = none)
    (hentries : ∀ m ∈ p.modules, m.checkEntries = .ok ()) (hm : m ∈ p.modules) {name : Name}
    (h : Context.Gives ⟨.ofProgram p, m.ns, reach, limit⟩ name) : p.Provides m reach name := by
  cases h with
  | own hqualifier hdecl =>
    -- The table knows a module by its namespace, and that is not repeated.
    obtain ⟨source, hsource, hns, hdeclared⟩ := Interfaces.exists_module_of_hasDecl hdecl
    refine ⟨source, hsource, hns.trans hqualifier.symm, hdeclared, Or.inl ?_⟩
    exact eq_of_ns_eq hrepeated hsource hm hns
  | imported hqualifier hexport =>
    -- The exporting module declares what it exports, for its entries have been checked.
    obtain ⟨source, hsource, hns, id, he⟩ := Interfaces.exists_module_of_hasExport hexport
    obtain ⟨-, hdeclared, -⟩ := Module.checkEntries_eq_ok_iff.mp (hentries source hsource)
    refine ⟨source, hsource, hns, hdeclared id name.ident he, Or.inr ⟨?_, id, he⟩⟩
    rw [hns]
    exact hqualifier

section Resolved

variable {interfaces : Interfaces} {m m' : Module}

/-- The occurrences of a module are resolved with the imports in reach of it, and among the binders
that it has in the end. -/
theorem Module.occurrences_of_resolve (h : m.resolve interfaces limit = .ok m') :
    ∃ reach b, interfaces.reach m.ns = .ok reach ∧ Numbered m'.ns .empty m'.bindings b ∧
      List.Forall₂ (Occurrence.Resolves ⟨interfaces, m.ns, reach, limit⟩ b.names) m.occurrences
        m'.occurrences := by
  obtain ⟨reach, decls', b, hreach, hdecls, rfl⟩ := Module.resolve_eq_ok_iff.mp h
  have hoccurrences :=
    hdecls.occurrences (Binders.wellNumbered_empty m.ns) (List.suffix_refl b.names)
  exact ⟨reach, b, hreach, hdecls.numbered, hoccurrences⟩

/-- Every occurrence of a resolved module has a meaning. -/
theorem Module.refersTo_of_resolve (h : m.resolve interfaces limit = .ok m') :
    ∃ reach, interfaces.reach m.ns = .ok reach ∧
      ∀ o ∈ m'.occurrences, o.RefersTo m' (Context.Gives ⟨interfaces, m.ns, reach, limit⟩) := by
  obtain ⟨reach, b, hreach, hnumbered, hoccurrences⟩ := Module.occurrences_of_resolve h
  refine ⟨reach, hreach, fun o ho => ?_⟩
  obtain ⟨_, -, hresolves⟩ := exists_left_of_forall₂ hoccurrences ho
  exact hresolves.refersTo (Module.ns_of_resolve h).symm hnumbered

end Resolved

/-- **An analyzed program has no reference that dangles**: in each of its modules every variable is
a binder whose scope encloses it or declared by a module of the source, and so is the name of every
type unless it is primitive; and the declaring module is the module itself, or is in reach and
exports the name. -/
theorem Program.references_of_analyze {config : Config} (h : p.analyze config = .ok q) :
    List.Forall₂
      (fun m m' => m'.ns = m.ns ∧ ∃ reach, (Interfaces.ofProgram p).reach m.ns = .ok reach ∧
        ∀ o ∈ m'.occurrences, o.RefersTo m' (p.Provides m reach))
      p.modules q.modules := by
  obtain ⟨himports, hentries, hmodules⟩ := Program.analyze_eq_ok_iff.mp h
  obtain ⟨hrepeated, -, -⟩ := checkImports_eq_ok_iff.mp himports
  have hmembers := (List.forall₂_and_left _ _).mpr ⟨fun m (hm : m ∈ p.modules) => hm, hmodules⟩
  refine hmembers.imp ?_
  rintro m m' ⟨hm, hresolve⟩
  obtain ⟨reach, hreach, hrefers⟩ := Module.refersTo_of_resolve hresolve
  refine ⟨Module.ns_of_resolve hresolve, reach, hreach, fun o ho => ?_⟩
  exact (hrefers o ho).imp fun _ => Program.provides_of_gives hrepeated hentries hm

/-- A function of its own module, a binder, and a type that an import exports. -/
theorem Program.references_of_analyze_imported_type :
    let lib : Module := ⟨⟨0⟩, ⟨["Lib"]⟩, [], [.decl ⟨1⟩ "T"], [.data ⟨2⟩ "T" [] []]⟩
    let main (f x t : Name) : Module :=
      ⟨⟨3⟩, ⟨["Main"]⟩, [⟨⟨4⟩, ⟨["Lib"]⟩⟩], [], [.value ⟨5⟩ "f" none (.lambda ⟨6⟩ x
        (.annot ⟨7⟩ (.app ⟨8⟩ (.var ⟨9⟩ f) (.var ⟨10⟩ x)) (.con ⟨11⟩ t [])))]⟩
    let p : Program :=
      ⟨[lib, main (.unqualified "f") (.unqualified "x") (.unqualified "T")]⟩
    let q : Program :=
      ⟨[lib, main ⟨⟨["Main"]⟩, "f"⟩ ⟨⟨["Main", "#0"]⟩, "x"⟩ ⟨⟨["Lib"]⟩, "T"⟩]⟩
    p.analyze {} = .ok q ∧
      List.Forall₂
        (fun m m' => m'.ns = m.ns ∧ ∃ reach, (Interfaces.ofProgram p).reach m.ns = .ok reach ∧
          ∀ o ∈ m'.occurrences, o.RefersTo m' (p.Provides m reach))
        p.modules q.modules := by
  intro lib main p q
  have hanalyze : p.analyze {} = .ok q := by cbv
  exact ⟨hanalyze, Program.references_of_analyze hanalyze⟩

end NameResolution
