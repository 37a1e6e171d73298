import NameResolution.Proofs.Analysis.References
import NameResolution.Proofs.Scope.Bare

/-!
# What an analysis leaves as it is

An analysis changes nothing in a program but qualifiers of names, and of these none that is there
already (`Program.analyze_frame`).  The first part compares the trees with all such qualifiers taken
away; the second part goes through the occurrences, which come in the same order in both programs.
-/

namespace NameResolution

/-- The same occurrence, with the same name up to its qualifier, and with the same name if that is
qualified. -/
structure Occurrence.Kept (o o' : Occurrence) : Prop where
  node_eq : o'.node = o.node
  ident_eq : o'.name.ident = o.name.ident
  name_eq : o.name.isQualified = true → o'.name = o.name

theorem Occurrence.Resolves.kept {ctx : Context} {met : List Name} {o o' : Occurrence}
    (h : o.Resolves ctx met o') : o.Kept o' := by
  cases h with
  | value htracks hmet hname =>
    obtain ⟨hident, hkept, -⟩ := Context.variableAt_eq_ok hname
    exact ⟨rfl, hident, hkept⟩
  | type hname =>
    obtain ⟨hident, hkept, -⟩ := Context.typeName_eq_ok hname
    exact ⟨rfl, hident, hkept⟩

variable {interfaces : Interfaces} {limit : UInt32} {m m' : Module}

theorem Module.bare_of_resolve (h : m.resolve interfaces limit = .ok m') : m'.bare = m.bare := by
  obtain ⟨reach, decls', b, -, hdecls, rfl⟩ := Module.resolve_eq_ok_iff.mp h
  rw [bare, bare, hdecls.bare_eq]

theorem Module.kept_of_resolve (h : m.resolve interfaces limit = .ok m') :
    List.Forall₂ Occurrence.Kept m.occurrences m'.occurrences := by
  obtain ⟨_, _, -, -, hoccurrences⟩ := Module.occurrences_of_resolve h
  exact hoccurrences.imp fun _ _ => Occurrence.Resolves.kept

/-- **An analysis changes nothing but qualifiers**: without those of variables, of binders and of
names of types the programs are the same, and every variable and every name of a type that has been
qualified before is the same. -/
theorem Program.analyze_frame {p q : Program} {config : Config} (h : p.analyze config = .ok q) :
    q.bare = p.bare ∧
      List.Forall₂ (fun m m' => List.Forall₂ Occurrence.Kept m.occurrences m'.occurrences)
        p.modules q.modules := by
  obtain ⟨-, -, hmodules⟩ := Program.analyze_eq_ok_iff.mp h
  constructor
  · rw [bare, bare, map_eq_of_forall₂ hmodules Module.bare_of_resolve]
  · exact hmodules.imp fun _ _ => Module.kept_of_resolve

/-- A pattern with two fields, the type of which is qualified, and a stated type which is not. -/
theorem Program.analyze_frame_variant_pattern :
    let main (x t a b : Name) : Module := ⟨⟨0⟩, ⟨["Main"]⟩, [], [.decl ⟨1⟩ "f"],
      [.data ⟨2⟩ "T" ["v"] [⟨⟨3⟩, "C", [.var ⟨4⟩ "v", .con ⟨5⟩ (.unqualified "Int") []]⟩],
        .value ⟨6⟩ "f" none (.lambda ⟨7⟩ x (.matchWith ⟨8⟩ (.annot ⟨9⟩ (.var ⟨10⟩ x)
          (.con ⟨11⟩ t [.var ⟨12⟩ "v"])) [⟨.variant ⟨13⟩ ⟨⟨["Main"]⟩, "T"⟩ "C" [a, b],
            .var ⟨14⟩ b⟩]))]⟩
    let p : Program := ⟨[main (.unqualified "x") (.unqualified "T") (.unqualified "a")
      (.unqualified "b")]⟩
    let q : Program := ⟨[main ⟨⟨["Main", "#0"]⟩, "x"⟩ ⟨⟨["Main"]⟩, "T"⟩
      ⟨⟨["Main", "#0", "#1"]⟩, "a"⟩ ⟨⟨["Main", "#0", "#1", "#2"]⟩, "b"⟩]⟩
    p.analyze {} = .ok q ∧ q.bare = p.bare ∧
      List.Forall₂ (fun m m' => List.Forall₂ Occurrence.Kept m.occurrences m'.occurrences)
        p.modules q.modules := by
  intro main p q
  have hanalyze : p.analyze {} = .ok q := by cbv
  exact ⟨hanalyze, Program.analyze_frame hanalyze⟩

end NameResolution
