import NameResolution.Proofs.Analysis.BinderNames
import NameResolution.Proofs.Analysis.Outline
import NameResolution.Proofs.Scope.Renaming
import NameResolution.Proofs.Scope.Repeated

/-!
# An analysis respects the renaming of a binder

A binder of an analyzed program may be given any identifier that its module neither uses nor
declares; the program is then analyzed to the same one, with the binder renamed
(`Program.analyze_renameAlong`).

The name of the binder in the analyzed program tells it from all other binders of its module, if
these are not more than 2 ^ 32 (`Numbered.count_eq_one`).  With one binder more, two of them can
have the same name, and then it takes the renaming of both
(`Program.analyze_renamed_repeated_scope`).  No module has that name to give: the binder stands in a
scope, and no module of the program looks like a scope (`Renaming.fits_of_numbered`).
-/

namespace NameResolution

/-! ### The binder -/

section Binder

variable {owner : Namespace} {binders binders' : Binders} {bindings : List Binding} {b : Binding}

/-- As long as scopes do not start again, no other binder has the name of `b`. -/
theorem Numbered.count_eq_one (h : Numbered owner .empty bindings binders')
    (hfew : bindings.length ≤ UInt32.size) (hb : b ∈ bindings) :
    (bindings.map Binding.name).count b.name = 1 := by
  have hnodup : (bindings.map Binding.name).Nodup := by
    refine List.Nodup.of_map Name.qualifier ?_
    rw [List.map_map]
    exact h.nodup hfew
  exact List.count_eq_one_of_mem hnodup (List.mem_map_of_mem hb)

/-- A binder of the module is in scope nowhere else, and an identifier that the module does not
declare is fit for it. -/
theorem Renaming.fits_of_numbered {p : Program} (hplain : ∀ m ∈ p.modules, m.ns.Plain)
    (hdistinct : (p.modules.map Module.ns).Nodup) {m : Module} (hm : m ∈ p.modules)
    (hnumbered : Numbered m.ns binders bindings binders') (hb : b ∈ bindings) {ident : String}
    (hdeclared : ident ∉ m.declared) {reach : List Import}
    (hreach : (Interfaces.ofProgram p).reach m.ns = .ok reach) (limit : UInt32) :
    Renaming.Fits ⟨b.name, ident⟩ ⟨.ofProgram p, m.ns, reach, limit⟩ where
  not_gives := by
    obtain ⟨number, -, hqualifier⟩ := hnumbered.exists_number hb
    have hlocal : ∀ m ∈ p.modules, b.name.qualifier ≠ m.ns := by
      intro m hm
      rw [hqualifier]
      exact (hplain m hm).ne_child b.lexical number
    rintro (⟨hown, -⟩ | ⟨himported, -⟩)
    · exact hlocal m hm hown
    · -- What is in reach is a module of the program.
      obtain ⟨i, hi, htarget⟩ := List.mem_map.mp himported
      obtain ⟨-, hknown⟩ := Interfaces.get?_isSome_of_reach hreach
      obtain ⟨interface, hget⟩ := Option.isSome_iff_exists.mp (hknown i hi)
      obtain ⟨target, hmem, hns, -⟩ := Interfaces.exists_module_of_get? hget
      exact hlocal target hmem (htarget.symm.trans hns.symm)
  not_declared := by
    show (Interfaces.ofProgram p).hasDecl m.ns ident = false
    rw [Interfaces.hasDecl, Interfaces.get?_ofProgram_of_mem hdistinct hm]
    exact Bool.eq_false_iff.mpr (mt List.contains_iff_mem.mp hdeclared)

end Binder

/-! ### Modules and programs -/

namespace Module

variable {owner : Namespace} {r : Renaming}

theorem headerOnly_renameAlong (m m' : Module) :
    (m.renameAlong owner r m').headerOnly = m.headerOnly := by
  rw [renameAlong]
  split_ifs
  · rfl
  · rfl

theorem ofModule_renameAlong (m m' : Module) :
    Interface.ofModule (m.renameAlong owner r m') = Interface.ofModule m := by
  rw [renameAlong]
  split_ifs
  · rw [Interface.ofModule, Interface.ofModule, declared, declared,
      map_alongside (Decl.ident_renameAlong r)]
  · rfl

/-- A renamed module is resolved to the resolved one, renamed. -/
theorem resolve_renameAlong {interfaces : Interfaces} {limit : UInt32} {m m' : Module}
    (hr : ∀ reach, interfaces.reach owner = .ok reach → r.Fits ⟨interfaces, owner, reach, limit⟩)
    (hfresh : m.ns = owner → r.ident ∉ m.idents) (h : m.resolve interfaces limit = .ok m') :
    (m.renameAlong owner r m').resolve interfaces limit = .ok (m'.renameAlong owner r m') := by
  rw [renameAlong, renameAlong, ns_of_resolve h]
  split_ifs with hns
  · obtain ⟨reach, decls', b, hreach, hdecls, rfl⟩ := resolve_eq_ok_iff.mp h
    subst hns
    have hrenamed := Decl.ResolvesList.rename (hr reach hreach) hdecls (.empty r) (hfresh rfl)
    exact resolve_eq_ok_iff.mpr ⟨reach, _, _, hreach, hrenamed, rfl⟩
  · exact h

end Module

section Analysis

variable {p q : Program} {config : Config} {m m' : Module} {b : Binding} {ident : String}

/-- If all binders that share the name of `b` get another identifier, and with them the variables
that mean one of these, then the program is analyzed to the same program, in which the same has been
done. -/
theorem Program.analyze_eq_ok_renameAlong (hanalyze : p.analyze config = .ok q)
    (hplain : ∀ m ∈ p.modules, m.ns.Plain) (hm : m ∈ p.modules) (hm' : m' ∈ q.modules)
    (hns : m'.ns = m.ns) (hb : b ∈ m'.bindings) (hdeclared : ident ∉ m.declared)
    (hfresh : ident ∉ m.idents) :
    (p.renameAlong m.ns ⟨b.name, ident⟩ q).analyze config =
      .ok (q.renameAlong m.ns ⟨b.name, ident⟩ q) := by
  obtain ⟨himports, -, hmodules⟩ := Program.analyze_eq_ok_iff.mp hanalyze
  have hdistinct := (checkImports_eq_ok_iff_not_cyclic.mp himports).1
  obtain ⟨source, -, hsource⟩ := exists_left_of_forall₂ hmodules hm'
  obtain ⟨binders, hnumbered⟩ := Module.numbered_of_resolve hsource
  rw [hns] at hnumbered
  have houtline : p.SameOutline (p.renameAlong m.ns ⟨b.name, ident⟩ q) :=
    ⟨map_alongside Module.headerOnly_renameAlong _ _, map_alongside Module.ofModule_renameAlong _ _⟩
  refine houtline.analyze_eq_ok hanalyze ?_
  have hmodules' := (List.forall₂_and_left _ _).mpr ⟨fun _ hother => hother, hmodules⟩
  refine forall₂_alongside hmodules' fun {other other'} h => ?_
  refine Module.resolve_renameAlong (fun reach hreach => ?_) (fun howner => ?_) h.2
  · exact Renaming.fits_of_numbered hplain hdistinct hm hnumbered hb hdeclared hreach _
  · -- Only `m` has its namespace.
    obtain rfl := List.inj_on_of_nodup_map hdistinct h.1 hm howner
    exact hfresh

/-- **An analysis respects the renaming of a binder.**  Let the binder `b` of a module with at most
2 ^ 32 binders get an identifier that the module does not declare and that no binder or variable of
the module has.  If this is done at `b` and at the variables that mean `b`, then the program is
analyzed to the same program, in which the same has been done.  No other binder of the module has
the name of `b`. -/
theorem Program.analyze_renameAlong (hanalyze : p.analyze config = .ok q)
    (hplain : ∀ m ∈ p.modules, m.ns.Plain) (hm : m ∈ p.modules) (hm' : m' ∈ q.modules)
    (hns : m'.ns = m.ns) (hfew : m.binderCount ≤ UInt32.size) (hb : b ∈ m'.bindings)
    (hdeclared : ident ∉ m.declared) (hfresh : ident ∉ m.idents) :
    (p.renameAlong m.ns ⟨b.name, ident⟩ q).analyze config =
        .ok (q.renameAlong m.ns ⟨b.name, ident⟩ q) ∧
      (m'.bindings.map Binding.name).count b.name = 1 := by
  obtain ⟨himports, -, hmodules⟩ := Program.analyze_eq_ok_iff.mp hanalyze
  have hdistinct := (checkImports_eq_ok_iff_not_cyclic.mp himports).1
  obtain ⟨source, hsource, hresolve⟩ := exists_left_of_forall₂ hmodules hm'
  have hsame : source = m := by
    refine List.inj_on_of_nodup_map hdistinct hsource hm ?_
    rw [← hns, Module.ns_of_resolve hresolve]
  obtain ⟨_, hnumbered⟩ := Module.numbered_of_resolve hresolve
  have hlength : m'.bindings.length ≤ UInt32.size := by
    rw [Module.length_bindings_of_resolve hresolve, hsame]
    exact hfew
  exact ⟨analyze_eq_ok_renameAlong hanalyze hplain hm hm' hns hb hdeclared hfresh,
    hnumbered.count_eq_one hlength hb⟩

end Analysis

/-- The outer one of two binders for `x` is renamed.  One occurrence of `x` stays, for it means the
inner binder, and so does what is imported. -/
theorem Program.analyze_renameAlong_shadowed :
    let lib : Module :=
      ⟨⟨0⟩, ⟨["Lib"]⟩, [], [.decl ⟨1⟩ "g"], [.value ⟨2⟩ "g" none (.lit ⟨3⟩ .unit)]⟩
    let main (g outer inner atOuter atInner : Name) : Module :=
      ⟨⟨4⟩, ⟨["Main"]⟩, [⟨⟨5⟩, ⟨["Lib"]⟩⟩], [], [.value ⟨6⟩ "f" none
        (.lambda ⟨7⟩ outer (.letIn ⟨8⟩ inner (.var ⟨9⟩ atOuter)
          (.app ⟨10⟩ (.var ⟨11⟩ g) (.var ⟨12⟩ atInner))))]⟩
    let x : Name := .unqualified "x"
    let y : Name := .unqualified "y"
    let g : Name := .unqualified "g"
    let g' : Name := ⟨⟨["Lib"]⟩, "g"⟩
    let outer (ident : String) : Name := ⟨⟨["Main", "#0"]⟩, ident⟩
    let inner : Name := ⟨⟨["Main", "#0", "#1"]⟩, "x"⟩
    let p : Program := ⟨[lib, main g x x x x]⟩
    let q (ident : String) : Program := ⟨[lib, main g' (outer ident) inner (outer ident) inner]⟩
    p.analyze {} = .ok (q "x") ∧
      p.renameAlong ⟨["Main"]⟩ ⟨outer "x", "y"⟩ (q "x") = ⟨[lib, main g y x y x]⟩ ∧
      (main g x x x x).binderCount ≤ UInt32.size ∧
      (⟨[lib, main g y x y x]⟩ : Program).analyze {} = .ok (q "y") := by
  intro lib main x y g g' outer inner p q
  have hanalyze : p.analyze {} = .ok (q "x") := by cbv
  have hplain : ∀ m ∈ p.modules, m.ns.Plain := by decide
  have hm : main g x x x x ∈ p.modules := List.mem_cons_of_mem _ List.mem_cons_self
  have hm' : main g' (outer "x") inner (outer "x") inner ∈ (q "x").modules :=
    List.mem_cons_of_mem _ List.mem_cons_self
  have hb : ⟨⟨["Main"]⟩, outer "x"⟩ ∈ (main g' (outer "x") inner (outer "x") inner).bindings :=
    List.mem_cons_self
  have hdeclared : "y" ∉ (main g x x x x).declared := by decide
  have hfresh : "y" ∉ (main g x x x x).idents := by decide
  have hfew : (main g x x x x).binderCount ≤ UInt32.size := by decide
  have hrenamed :=
    (Program.analyze_renameAlong hanalyze hplain hm hm' rfl hfew hb hdeclared hfresh).1
  exact ⟨hanalyze, rfl, hfew, hrenamed⟩

/-- In a match with 2 ^ 32 + 1 arms that bind one identifier each, the first and the last one bind
`a`, and they have the same name in the analyzed program.  The only variable is in the first arm.
If the last binder is renamed, and with it the variable that has its name, then the variable means
nothing any more. -/
theorem Program.analyze_renamed_repeated_scope :
    let first (ident : String) : Arm := .binding (.unqualified "a") (.var ⟨6⟩ (.unqualified ident))
    let last (ident : String) : Arm := .binding (.unqualified ident) (.lit ⟨5⟩ .unit)
    let main (ident : String) : Module := .matching (Arm.farApart (first ident) (last ident))
    let a : Name := ⟨⟨["Main", "#0"]⟩, "a"⟩
    (∃ others, (⟨[main "a"]⟩ : Program).analyze {} =
        .ok ⟨[.matching (.binding a (.var ⟨6⟩ a) :: (others ++ [.binding a (.lit ⟨5⟩ .unit)]))]⟩ ∧
      ∀ arm ∈ others, ∃ name, arm = .binding name (.lit ⟨5⟩ .unit)) ∧
    (main "a").ns.Plain ∧ "y" ∉ (main "a").declared ∧ "y" ∉ (main "a").idents ∧
    (⟨[main "y"]⟩ : Program).analyze {} =
      .error (.error (.undefinedName ⟨6⟩ (.unqualified "y") .value ⟨["Main"]⟩ .unbound)) := by
  intro first last main a
  refine ⟨?_, by decide, ?_, ?_, ?_⟩
  · have hreach (arms : List Arm) :
        (Interfaces.ofProgram ⟨[.matching arms]⟩).reach ⟨["Main"]⟩ = .ok [] := by cbv
    have hdecl (arms : List Arm) :
        (Interfaces.ofProgram ⟨[.matching arms]⟩).hasDecl ⟨["Main"]⟩ "a" = false := by cbv
    have himports (arms : List Arm) : checkImports [.matching arms] = .ok () := by cbv
    have hentries (arms : List Arm) : (Module.matching arms).checkEntries = .ok () := by cbv
    have hdepth : 1 < (512 : UInt32).toNat := by decide
    have hne : (⟨["Main", "#0"]⟩ : Namespace) ≠ ⟨["Main"]⟩ := by decide
    obtain ⟨others, hresolve, hshape⟩ := Module.exists_resolve_matching (a := "a") (c := "a")
      (hreach _) (fun b hbound =>
        .var hdepth (Context.variableAt_of_mem (hdecl _) hne hbound ⟨6⟩))
      fun b _ => .lit hdepth
    refine ⟨others, Program.analyze_eq_ok_iff.mpr ⟨himports _, ?_, .cons hresolve .nil⟩, hshape⟩
    exact List.forall_mem_singleton.mpr (hentries _)
  · have hdeclared (arms : List Arm) : (Module.matching arms).declared = ["f"] := rfl
    rw [hdeclared]
    decide
  · have hidents (arms : List Arm) : (Module.matching arms).idents = Arm.listIdents arms :=
      List.append_nil _
    rw [hidents, Arm.listIdents_eq_flatMap]
    intro hy
    obtain ⟨arm, harm, hy⟩ := List.mem_flatMap.mp hy
    rcases List.mem_cons.mp harm with rfl | harm
    · exact absurd hy (by decide)
    · rcases List.mem_append.mp harm with harm | harm
      · obtain rfl := List.eq_of_mem_replicate harm
        exact absurd hy (by decide)
      · obtain rfl := List.mem_singleton.mp harm
        exact absurd hy (by decide)
  · have hfails (rest : List Arm) :
        (⟨[.matching (.binding (.unqualified "a") (.var ⟨6⟩ (.unqualified "y")) :: rest)]⟩ :
            Program).analyze {} =
          .error (.error (.undefinedName ⟨6⟩ (.unqualified "y") .value ⟨["Main"]⟩ .unbound)) := by
      cbv
    exact hfails _

end NameResolution
