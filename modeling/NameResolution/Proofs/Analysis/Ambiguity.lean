import NameResolution.Proofs.Import.Redundant
import NameResolution.Proofs.Scope.Answers

/-!
# Ambiguous names

An occurrence is ambiguous if and only if its meaning is left to the imports, and several modules in
reach export it (`Occurrence.lookUp_eq_ambiguous_iff`).  In a program that has passed the checks the
imports that the error lists are all of these; no two of them lead to the same module, and none to
the module itself, which would import itself by a chain of imports otherwise
(`Program.ambiguity_iff`).

The way out that the error suggests is a way out.  A qualified name is asked for in the module that
it names alone; that module is in reach and exports it, and no binder can get in between, for one
that is visible is what the name says (`Occurrence.LeftToImports.lookUp_of_gives`).  Main statement:
`Program.ambiguity_exact`.
-/

namespace NameResolution

/-! ### Names that are ambiguous -/

/-- The occurrence is not qualified, and neither the module nor a binder gives it a meaning. -/
inductive Occurrence.LeftToImports (ctx : Context) (binders : Binders) (lexical : Namespace) :
    Occurrence → Prop
  | value {node : NodeId} {name : Name} {enclosing : List Name}
      (howner : ctx.owner.encloses lexical = true) (hname : ¬name.isQualified = true)
      (hdecl : ctx.interfaces.hasDecl ctx.owner name.ident = false)
      (hbinder : binders.lookup lexical ctx.owner name.ident = none) :
      LeftToImports ctx binders lexical (.value node name enclosing)
  | type {node : NodeId} {name : Name} (hname : ¬name.isQualified = true)
      (hprimitive : name.ident ∉ primitiveTypes)
      (hdecl : ctx.interfaces.hasDecl ctx.owner name.ident = false) :
      LeftToImports ctx binders lexical (.type node name)

namespace Context

variable {ctx : Context} {node place : NodeId} {name : Name} {sort : NameSort}
  {ident other : String} {imports : List Import} {binders : Binders} {lexical : Namespace}

theorem qualified_ne_ambiguous :
    ctx.qualified node name sort ≠ .error (.ambiguousName place ident imports) := by
  unfold qualified refused
  split_ifs
  all_goals rintro ⟨⟩

/-- All that export the identifier are listed, and they are several. -/
theorem imported_eq_ambiguous_iff :
    ctx.imported node other sort = .error (.ambiguousName place ident imports) ↔
      node = place ∧ other = ident ∧ imports = ctx.exporters ident ∧ 2 ≤ imports.length := by
  unfold imported
  constructor
  · intro h
    cases hexporters : ctx.exporters other with
    | nil =>
      rw [hexporters] at h
      cases h
    | cons i rest =>
      rw [hexporters] at h
      cases rest with
      | nil => cases h
      | cons j others =>
        cases h
        refine ⟨rfl, rfl, hexporters.symm, ?_⟩
        rw [List.length_cons, List.length_cons]
        omega
  · rintro ⟨rfl, rfl, rfl, hseveral⟩
    cases hexporters : ctx.exporters other with
    | nil =>
      rw [hexporters] at hseveral
      cases hseveral
    | cons i rest =>
      rw [hexporters] at hseveral
      cases rest with
      | nil => exact absurd hseveral (by simp)
      | cons j others => rfl

/-- A variable can be ambiguous only if it is looked up among the imports. -/
theorem leftToImports_of_variableMeaning (hctx : ctx.Grounded) {enclosing : List Name}
    (h : ctx.variableMeaning binders lexical node name =
      .error (.error (.ambiguousName place ident imports))) :
    Occurrence.LeftToImports ctx binders lexical (.value node name enclosing) := by
  rw [variableMeaning, fromModule_eq hctx, Interfaces.declares_eq_ok hctx.owner] at h
  by_cases howner : ctx.owner.encloses lexical = true
  · rw [if_pos howner] at h
    by_cases hqualified : name.isQualified = true
    · rw [if_pos hqualified] at h
      by_cases hvisible : binders.isVisible name lexical = true
      · rw [if_pos hvisible] at h
        cases h
      · rw [if_neg hvisible] at h
        obtain ⟨e, he, ⟨⟩⟩ := mapError_eq_error_iff.mp h
        exact absurd he qualified_ne_ambiguous
    · rw [if_neg hqualified] at h
      cases hdecl : ctx.interfaces.hasDecl ctx.owner name.ident with
      | true =>
        rw [hdecl] at h
        cases h
      | false =>
        rw [hdecl] at h
        cases hbinder : binders.lookup lexical ctx.owner name.ident with
        | some binder =>
          rw [hbinder] at h
          cases h
        | none => exact .value howner hqualified hdecl hbinder
  · rw [if_neg howner] at h
    cases h

/-- The name of a type can be ambiguous only if it is looked up among the imports. -/
theorem leftToImports_of_typeMeaning (hctx : ctx.Grounded)
    (h : ctx.typeMeaning node name = .error (.error (.ambiguousName place ident imports))) :
    Occurrence.LeftToImports ctx binders lexical (.type node name) := by
  rw [typeMeaning_eq hctx] at h
  obtain ⟨e, he, ⟨⟩⟩ := mapError_eq_error_iff.mp h
  rw [typeName] at he
  by_cases hqualified : name.isQualified = true
  · rw [if_pos hqualified] at he
    exact absurd he qualified_ne_ambiguous
  · rw [if_neg hqualified] at he
    split_ifs at he with hprimitive hdecl
    exact .type hqualified hprimitive (Bool.eq_false_iff.mpr hdecl)

/-! ### Names that are given -/

/-- A qualified variable that a module has to give means itself, whatever has been bound. -/
theorem variableMeaning_of_gives (hctx : ctx.Grounded) (hdeclares : ctx.DeclaresExports)
    (howner : ctx.owner.encloses lexical = true) (hqualified : name.isQualified = true)
    (hgives : ctx.Gives name) : ctx.variableMeaning binders lexical node name = .ok name := by
  rw [variableMeaning, if_pos howner, if_pos hqualified, fromModule_eq hctx,
    qualified_of_gives hdeclares hgives]
  cases binders.isVisible name lexical <;> rfl

/-- The qualified name of a type that a module has to give means itself. -/
theorem typeMeaning_of_gives (hctx : ctx.Grounded) (hdeclares : ctx.DeclaresExports)
    (hqualified : name.isQualified = true) (hgives : ctx.Gives name) :
    ctx.typeMeaning node name = .ok name := by
  rw [typeMeaning, if_pos hqualified, fromModule_eq hctx, qualified_of_gives hdeclares hgives]
  rfl

end Context

namespace Occurrence

/-- The same occurrence with another name. -/
def withName (name : Name) : Occurrence → Occurrence
  | value node _ enclosing => value node name enclosing
  | type node _ => type node name

variable {ctx : Context} {o : Occurrence} {binders : Binders} {lexical : Namespace}
  {node : NodeId} {ident : String} {imports : List Import}

theorem LeftToImports.name_eq (h : o.LeftToImports ctx binders lexical) :
    o.name = .unqualified o.name.ident := by
  cases h with
  | value howner hname => exact Name.eq_unqualified hname
  | type hname => exact Name.eq_unqualified hname

/-- What is left to the imports is looked up among them. -/
theorem LeftToImports.lookUp_eq (hctx : ctx.Grounded) (h : o.LeftToImports ctx binders lexical) :
    ∃ sort, o.lookUp ctx binders lexical =
      (ctx.imported o.node o.name.ident sort).mapError .error := by
  cases h with
  | value howner hname hdecl hbinder =>
    refine ⟨.value, ?_⟩
    rw [lookUp, Context.variableMeaning, if_pos howner, if_neg hname,
      Interfaces.declares_eq_ok hctx.owner, hdecl, hbinder, ← Context.fromImports_eq hctx]
    rfl
  | type hname hprimitive hdecl =>
    refine ⟨.type, ?_⟩
    rw [lookUp, Context.typeMeaning_eq hctx, Context.typeName, if_neg hname, if_neg hprimitive,
      hdecl]
    rfl

/-- **An occurrence is ambiguous if and only if it is left to several imports.** -/
theorem lookUp_eq_ambiguous_iff (hctx : ctx.Grounded) :
    o.lookUp ctx binders lexical = .error (.error (.ambiguousName node ident imports)) ↔
      o.LeftToImports ctx binders lexical ∧ o.node = node ∧ o.name = .unqualified ident ∧
        imports = ctx.exporters ident ∧ 2 ≤ imports.length := by
  constructor
  · intro h
    have hleft : o.LeftToImports ctx binders lexical := by
      cases o with
      | value place name enclosing => exact Context.leftToImports_of_variableMeaning hctx h
      | type place name => exact Context.leftToImports_of_typeMeaning hctx h
    obtain ⟨sort, hlookUp⟩ := hleft.lookUp_eq hctx
    rw [hlookUp] at h
    obtain ⟨e, he, ⟨⟩⟩ := mapError_eq_error_iff.mp h
    obtain ⟨hnode, rfl, hexporters, hseveral⟩ := Context.imported_eq_ambiguous_iff.mp he
    exact ⟨hleft, hnode, hleft.name_eq, hexporters, hseveral⟩
  · rintro ⟨hleft, hnode, hname, hexporters, hseveral⟩
    obtain ⟨sort, hlookUp⟩ := hleft.lookUp_eq hctx
    have hident : o.name.ident = ident := congrArg Name.ident hname
    rw [hlookUp, Context.imported_eq_ambiguous_iff.mpr ⟨hnode, hident, hexporters, hseveral⟩]
    rfl

/-- **Where a name is left to the imports, a qualified one that is given means itself.** -/
theorem LeftToImports.lookUp_of_gives (h : o.LeftToImports ctx binders lexical)
    (hctx : ctx.Grounded) (hdeclares : ctx.DeclaresExports) {name : Name}
    (hqualified : name.isQualified = true) (hgives : ctx.Gives name) :
    (o.withName name).lookUp ctx binders lexical = .ok name := by
  cases h with
  | value howner =>
    exact Context.variableMeaning_of_gives hctx hdeclares howner hqualified hgives
  | type => exact Context.typeMeaning_of_gives hctx hdeclares hqualified hgives

end Occurrence

/-! ### The imports to blame -/

/-- The imports for which `ident` is ambiguous in the module `ns` that `reach` is in reach of. -/
structure Program.Ambiguity (p : Program) (ns : Namespace) (reach : List Import) (ident : String)
    (imports : List Import) : Prop where
  several : 2 ≤ imports.length
  distinct : (imports.map Import.target).Nodup
  foreign : ns ∉ imports.map Import.target
  inOrder : imports.Sublist reach
  mem_iff (i : Import) : i ∈ imports ↔
    i ∈ reach ∧ ∃ source ∈ p.modules, source.ns = i.target ∧ ∃ id, .decl id ident ∈ source.exports

namespace Interfaces

variable {p : Program} {ns : Namespace}

/-- No module is in reach of itself. -/
theorem not_mem_targets_reach (hclosed : (ofProgram p).Closed) (hacyclic : ¬Cyclic p.modules)
    {reach : List Import} (hreach : (ofProgram p).reach ns = .ok reach) :
    ns ∉ reach.map Import.target := by
  intro hmem
  have hinReach := (mem_targets_reach_iff hreach).mp hmem
  exact hacyclic (cyclic_of_transGen (hinReach.transGen hclosed))

end Interfaces

/-- **Several imports are the ones to blame** if and only if they are those in reach that export the
identifier. -/
theorem Program.ambiguity_iff {p : Program} {ns : Namespace} {reach imports : List Import}
    {limit : UInt32} {ident : String} (himports : checkImports p.modules = .ok ())
    (hclosed : (Interfaces.ofProgram p).Closed)
    (hreach : (Interfaces.ofProgram p).reach ns = .ok reach) :
    p.Ambiguity ns reach ident imports ↔
      imports = Context.exporters ⟨.ofProgram p, ns, reach, limit⟩ ident ∧ 2 ≤ imports.length := by
  obtain ⟨hdistinct, -, hacyclic⟩ := checkImports_eq_ok_iff_not_cyclic.mp himports
  have htargets := Interfaces.nodup_targets_reach hreach
  have hsublist : (Context.exporters ⟨.ofProgram p, ns, reach, limit⟩ ident).Sublist reach :=
    List.filter_sublist
  have hmem : ∀ i, i ∈ Context.exporters ⟨.ofProgram p, ns, reach, limit⟩ ident ↔
      i ∈ reach ∧ ∃ source ∈ p.modules, source.ns = i.target ∧
        ∃ id, .decl id ident ∈ source.exports := by
    intro i
    rw [Context.exporters, List.mem_filter, Interfaces.hasExport_ofProgram_iff hdistinct]
  constructor
  · intro h
    -- Parts of a list without repetitions that have the same members are the same.
    have hnodup := htargets.of_map
    have hsame : ∀ i, i ∈ imports ↔
        i ∈ Context.exporters ⟨.ofProgram p, ns, reach, limit⟩ ident :=
      fun i => (h.mem_iff i).trans (hmem i).symm
    have hperm := (List.perm_ext_iff_of_nodup (hnodup.sublist h.inOrder)
      (hnodup.sublist hsublist)).mpr hsame
    exact ⟨(hnodup.perm_iff_eq_of_sublist h.inOrder hsublist).mp hperm, h.several⟩
  · rintro ⟨rfl, hseveral⟩
    have hpart := hsublist.map Import.target
    have hforeign := Interfaces.not_mem_targets_reach hclosed hacyclic hreach
    exact ⟨hseveral, htargets.sublist hpart, fun h => hforeign (hpart.mem h), hsublist, hmem⟩

/-- **Ambiguities are exact, and their way out works.**  In a program whose imports and entries have
been checked, an occurrence is ambiguous in a module, in whatever state the resolver is, if and only
if it is left to the imports, and the error lists the imports in reach whose modules export it: at
least two, of different modules, none of them the module itself.  Qualified with the target of one
of them, the same occurrence has this name for its meaning in the same state.

If the module does not resolve for an ambiguity, then one of its occurrences is ambiguous so, in a
state in which the binders around it have been met. -/
theorem Program.ambiguity_exact {p : Program} (himports : checkImports p.modules = .ok ())
    (hentries : Module.checkEntriesOf p.modules = .ok ()) {m : Module} (hm : m ∈ p.modules)
    (limit : UInt32) :
    ∃ reach, (Interfaces.ofProgram p).reach m.ns = .ok reach ∧
      (∀ (o : Occurrence) (binders : Binders) (lexical : Namespace) (node : NodeId)
          (ident : String) (imports : List Import),
        (o.lookUp ⟨.ofProgram p, m.ns, reach, limit⟩ binders lexical =
            .error (.error (.ambiguousName node ident imports)) ↔
          o.LeftToImports ⟨.ofProgram p, m.ns, reach, limit⟩ binders lexical ∧
            o.node = node ∧ o.name = .unqualified ident ∧
            p.Ambiguity m.ns reach ident imports) ∧
        (o.lookUp ⟨.ofProgram p, m.ns, reach, limit⟩ binders lexical =
            .error (.error (.ambiguousName node ident imports)) →
          ∀ i ∈ imports, i.target ≠ .empty →
            (o.withName (i.target.name ident)).lookUp ⟨.ofProgram p, m.ns, reach, limit⟩
              binders lexical = .ok (i.target.name ident))) ∧
      ∀ (node : NodeId) (ident : String) (imports : List Import),
        m.resolve (.ofProgram p) limit = .error (.error (.ambiguousName node ident imports)) →
          ∃ o ∈ m.occurrences, ∃ (env : List Name) (binders : Binders),
            env.map Name.ident = o.bound ∧ Tracks m.ns env binders ∧
            o.lookUp ⟨.ofProgram p, m.ns, reach, limit⟩ binders (innermost m.ns env) =
              .error (.error (.ambiguousName node ident imports)) := by
  have hentries := Module.checkEntriesOf_eq_ok_iff.mp hentries
  have hclosed := Interfaces.closed_ofProgram himports hentries
  obtain ⟨reach, hreach⟩ := hclosed.exists_reach_eq_ok (Interfaces.get?_ofProgram_isSome hm)
  have hctx := Context.grounded_of_reach hreach limit
  refine ⟨reach, hreach, fun o binders lexical node ident imports => ⟨?_, fun h => ?_⟩, ?_⟩
  · rw [Occurrence.lookUp_eq_ambiguous_iff hctx, ambiguity_iff himports hclosed hreach]
  · obtain ⟨hleft, -, -, rfl, -⟩ := (Occurrence.lookUp_eq_ambiguous_iff hctx).mp h
    intro i hi htarget
    obtain ⟨hlisted, hexport⟩ := List.mem_filter.mp hi
    have hdeclares : Context.DeclaresExports ⟨.ofProgram p, m.ns, reach, limit⟩ :=
      fun _ => Interfaces.hasDecl_of_hasExport hentries
    have hgives : Context.Gives ⟨.ofProgram p, m.ns, reach, limit⟩ (i.target.name ident) :=
      .imported (List.mem_map_of_mem hlisted) hexport
    exact hleft.lookUp_of_gives hctx hdeclares (Name.isQualified_iff.mpr htarget) hgives
  · intro node ident imports h
    cases Module.answers_of_resolve hreach h with
    | lookUp ho hbound htracks hfails => exact ⟨_, ho, _, _, hbound, htracks, hfails⟩

/-- Two modules export `g`, and one of them is only passed on.  Inside the binder `x` both qualified
names are understood. -/
theorem Program.ambiguity_exact_passed_on :
    let left : Module :=
      ⟨⟨0⟩, ⟨["Left"]⟩, [], [.decl ⟨1⟩ "g"], [.value ⟨2⟩ "g" none (.lit ⟨3⟩ .unit)]⟩
    let right : Module :=
      ⟨⟨4⟩, ⟨["Right"]⟩, [], [.decl ⟨5⟩ "g"], [.value ⟨6⟩ "g" none (.lit ⟨7⟩ .unit)]⟩
    let facade : Module :=
      ⟨⟨8⟩, ⟨["Facade"]⟩, [⟨⟨9⟩, ⟨["Right"]⟩⟩], [.reexport ⟨10⟩ ⟨["Right"]⟩], []⟩
    let body : Expr := .lambda ⟨15⟩ (.unqualified "x") (.var ⟨16⟩ (.unqualified "g"))
    let main : Module := ⟨⟨11⟩, ⟨["Main"]⟩, [⟨⟨12⟩, ⟨["Left"]⟩⟩, ⟨⟨13⟩, ⟨["Facade"]⟩⟩], [],
      [.value ⟨14⟩ "f" none body]⟩
    let p : Program := ⟨[left, right, facade, main]⟩
    let reach : List Import :=
      [⟨⟨12⟩, ⟨["Left"]⟩⟩, ⟨⟨13⟩, ⟨["Facade"]⟩⟩, ⟨⟨9⟩, ⟨["Right"]⟩⟩]
    let imports : List Import := [⟨⟨12⟩, ⟨["Left"]⟩⟩, ⟨⟨9⟩, ⟨["Right"]⟩⟩]
    let binders : Binders := ⟨[⟨⟨["Main", "#0"]⟩, "x"⟩], 1⟩
    checkImports p.modules = .ok () ∧ Module.checkEntriesOf p.modules = .ok () ∧
      (Interfaces.ofProgram p).reach main.ns = .ok reach ∧
      main.resolve (.ofProgram p) 512 = .error (.error (.ambiguousName ⟨16⟩ "g" imports)) ∧
      p.Ambiguity main.ns reach "g" imports ∧
      ∀ i ∈ imports, Context.variableMeaning ⟨.ofProgram p, main.ns, reach, 512⟩ binders
        ⟨["Main", "#0"]⟩ ⟨16⟩ (i.target.name "g") = .ok (i.target.name "g") := by
  intro left right facade body main p reach imports binders
  have himports : checkImports p.modules = .ok () := by cbv
  have hentries : Module.checkEntriesOf p.modules = .ok () := by cbv
  have hmain : main ∈ p.modules := by simp [p]
  have hreach : (Interfaces.ofProgram p).reach main.ns = .ok reach := by cbv
  have hresolve : main.resolve (.ofProgram p) 512 =
      .error (.error (.ambiguousName ⟨16⟩ "g" imports)) := by cbv
  obtain ⟨found, hfound, hlookUp, -⟩ := Program.ambiguity_exact himports hentries hmain 512
  obtain rfl : reach = found := Except.ok.inj (hreach.symm.trans hfound)
  have hfails : Occurrence.lookUp ⟨.ofProgram p, main.ns, reach, 512⟩ binders ⟨["Main", "#0"]⟩
      (.value ⟨16⟩ (.unqualified "g") [.unqualified "x"]) =
      .error (.error (.ambiguousName ⟨16⟩ "g" imports)) := by cbv
  obtain ⟨hambiguous, hqualified⟩ := hlookUp _ _ _ _ _ _
  obtain ⟨-, -, -, hambiguity⟩ := hambiguous.mp hfails
  have hnamed : ∀ i ∈ imports, i.target ≠ .empty := by simp [imports, Namespace.empty]
  refine ⟨himports, hentries, hreach, hresolve, hambiguity, fun i hi => ?_⟩
  exact hqualified hfails i hi (hnamed i hi)

end NameResolution
