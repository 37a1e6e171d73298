import NameResolution.Proofs.Analysis.BinderNames
import NameResolution.Proofs.Analysis.References

/-!
# Qualified names in an analyzed program

A name that is resolved is qualified with the scope of a binder, with the module itself, or with
the target of an import.  The scope of a binder is never empty, but nothing keeps a module from
having the empty namespace.  A reference to a declaration of such a module stays without a qualifier
(`Program.analyze_nameless_module`); all other references and all binders get one
(`Program.qualified_or_nameless`).  So an analyzed program is fully qualified if all of its modules
have names (`Program.qualified_of_analyze`).
-/

namespace NameResolution

/-! ### Qualified programs -/

/-- The name is qualified.  That of a type may be primitive instead. -/
def Occurrence.Qualified : Occurrence → Prop
  | .value _ name _ => name.isQualified = true
  | .type _ name => name.isQualified = true ∨ name.ident ∈ primitiveTypes

instance : DecidablePred Occurrence.Qualified
  | .value _ name _ => inferInstanceAs (Decidable (name.isQualified = true))
  | .type _ name =>
    inferInstanceAs (Decidable (name.isQualified = true ∨ name.ident ∈ primitiveTypes))

/-- All binders are qualified, and so are all names that are used. -/
structure Program.Qualified (p : Program) : Prop where
  bindings : ∀ b ∈ p.bindings, b.name.isQualified = true
  occurrences : ∀ m ∈ p.modules, ∀ o ∈ m.occurrences, o.Qualified

/-- A module with the empty namespace declares `ident`. -/
def Program.Nameless (p : Program) (ident : String) : Prop :=
  ∃ source ∈ p.modules, source.ns = .empty ∧ ident ∈ source.declared

/-! ### Where qualifiers come from -/

theorem Namespace.child_ne_empty (ns : Namespace) (segment : String) :
    ns.child segment ≠ .empty := by
  intro h
  have hsegments : ns.segments ++ [segment] = [] := congrArg segments h
  simp at hsegments

theorem Binders.WellNumbered.isQualified {owner : Namespace} {binders : Binders}
    (h : binders.WellNumbered owner) {name : Name} (hname : name ∈ binders.names) :
    name.isQualified = true := by
  obtain ⟨k, hk⟩ := List.mem_iff_getElem?.mp (List.mem_reverse.mpr hname)
  obtain ⟨outer, -, hqualifier⟩ := h.numbered k name hk
  rw [Name.isQualified_iff, hqualifier]
  exact Namespace.child_ne_empty _ _

/-- A resolved occurrence is qualified, unless some module gives a name without a qualifier. -/
theorem Occurrence.Resolves.qualified_or_gives {ctx : Context} {met : List Name}
    {o o' : Occurrence} (h : o.Resolves ctx met o') :
    o'.Qualified ∨ o'.name.qualifier = .empty ∧ ctx.Gives o'.name := by
  by_cases hempty : o'.name.qualifier = .empty
  · cases h with
    | value htracks hmet hname =>
      rcases (Context.variableAt_eq_ok hname).2.2 with hvisible | hgives
      · exact Or.inl (htracks.wellNumbered.isQualified (Binders.isVisible_iff.mp hvisible).1)
      · exact Or.inr ⟨hempty, hgives⟩
    | type hname =>
      rcases (Context.typeName_eq_ok hname).2.2 with ⟨-, hprimitive⟩ | hgives
      · exact Or.inl (Or.inr hprimitive)
      · exact Or.inr ⟨hempty, hgives⟩
  · have hqualified := Name.isQualified_iff.mpr hempty
    cases h with
    | value => exact Or.inl hqualified
    | type => exact Or.inl (Or.inl hqualified)

/-! ### Analyzed programs -/

variable {p q : Program} {config : Config}

theorem Program.isQualified_of_mem_bindings (h : p.analyze config = .ok q) :
    ∀ b ∈ q.bindings, b.name.isQualified = true := by
  obtain ⟨-, -, hmodules⟩ := Program.analyze_eq_ok_iff.mp h
  intro b hb
  obtain ⟨m', hm', hb⟩ := List.mem_flatMap.mp hb
  obtain ⟨m, -, hresolve⟩ := exists_left_of_forall₂ hmodules hm'
  obtain ⟨_, hnumbered⟩ := Module.numbered_of_resolve hresolve
  refine (hnumbered.wellNumbered (Binders.wellNumbered_empty _)).isQualified ?_
  rw [hnumbered.names_eq_of_empty, List.mem_reverse]
  exact List.mem_map_of_mem hb

/-- **Only references to a module without a name are left without a qualifier.** -/
theorem Program.qualified_or_nameless (h : p.analyze config = .ok q) :
    ∀ m ∈ q.modules, ∀ o ∈ m.occurrences, o.Qualified ∨ p.Nameless o.name.ident := by
  obtain ⟨himports, hentries, hmodules⟩ := Program.analyze_eq_ok_iff.mp h
  obtain ⟨hrepeated, -, -⟩ := checkImports_eq_ok_iff.mp himports
  intro m' hm' o ho
  obtain ⟨m, hm, hresolve⟩ := exists_left_of_forall₂ hmodules hm'
  obtain ⟨_, _, -, -, hoccurrences⟩ := Module.occurrences_of_resolve hresolve
  obtain ⟨given, -, hresolves⟩ := exists_left_of_forall₂ hoccurrences ho
  refine hresolves.qualified_or_gives.imp_right ?_
  rintro ⟨hempty, hgives⟩
  obtain ⟨source, hsource, hns, hdeclared, -⟩ :=
    Program.provides_of_gives hrepeated hentries hm hgives
  exact ⟨source, hsource, hns.trans hempty, hdeclared⟩

/-- **If all modules have names, an analyzed program is fully qualified.** -/
theorem Program.qualified_of_analyze (h : p.analyze config = .ok q)
    (hnamed : ∀ m ∈ p.modules, m.ns ≠ .empty) : q.Qualified where
  bindings := Program.isQualified_of_mem_bindings h
  occurrences m hm o ho := by
    rcases Program.qualified_or_nameless h m hm o ho with hqualified | ⟨source, hsource, hns, -⟩
    · exact hqualified
    · exact absurd hns (hnamed source hsource)

/-- A binder, a declaration of the module, one of an import, and a primitive type. -/
theorem Program.qualified_of_analyze_import :
    let lib : Module :=
      ⟨⟨0⟩, ⟨["Lib"]⟩, [], [.decl ⟨1⟩ "g"], [.value ⟨2⟩ "g" none (.lit ⟨3⟩ .unit)]⟩
    let main (x f g : Name) : Module := ⟨⟨4⟩, ⟨["Main"]⟩, [⟨⟨5⟩, ⟨["Lib"]⟩⟩], [],
      [.value ⟨6⟩ "f" (some (.con ⟨7⟩ (.unqualified "Int") [])) (.lambda ⟨8⟩ x
        (.app ⟨9⟩ (.app ⟨10⟩ (.var ⟨11⟩ f) (.var ⟨12⟩ x)) (.var ⟨13⟩ g)))]⟩
    let p : Program := ⟨[lib, main (.unqualified "x") (.unqualified "f") (.unqualified "g")]⟩
    let q : Program :=
      ⟨[lib, main ⟨⟨["Main", "#0"]⟩, "x"⟩ ⟨⟨["Main"]⟩, "f"⟩ ⟨⟨["Lib"]⟩, "g"⟩]⟩
    p.analyze {} = .ok q ∧ (∀ m ∈ p.modules, m.ns ≠ .empty) ∧ q.Qualified := by
  intro lib main p q
  have hanalyze : p.analyze {} = .ok q := by cbv
  have hnamed : ∀ m ∈ p.modules, m.ns ≠ .empty := by decide
  exact ⟨hanalyze, hnamed, Program.qualified_of_analyze hanalyze hnamed⟩

/-- A module with the empty namespace is admitted, and the references to its declarations stay as
they are. -/
theorem Program.analyze_nameless_module :
    let p : Program := ⟨[⟨⟨0⟩, .empty, [], [], [.value ⟨1⟩ "f" none (.lit ⟨2⟩ .unit),
      .value ⟨3⟩ "g" none (.var ⟨4⟩ (.unqualified "f"))]⟩]⟩
    p.analyze {} = .ok p ∧ ¬p.Qualified := by
  intro p
  refine ⟨by cbv, fun hqualified => ?_⟩
  have hf := hqualified.occurrences _ List.mem_cons_self
    (.value ⟨4⟩ (.unqualified "f") []) (List.mem_singleton_self _)
  exact absurd hf (by decide)

end NameResolution
