import NameResolution.Proofs.Import.Cycle
import NameResolution.Proofs.Module.Reordered
import NameResolution.Proofs.Repetition
import Mathlib

/-!
# The verdict of the gate

`Verdict modules result` says what the gate has to answer about a list of modules: the first
namespace that is repeated; else all imports without a target; else that there is a cycle, or that
the modules are admitted.  The conditions exclude each other, so there is one answer to each list,
and it is the one that the gate gives (`verdict_checkImports`).

None of the conditions depends on the order of the modules, or of the imports of a module, so
neither does the sort of the answer (`checkImports_verdict`).
-/

namespace NameResolution

variable {modules modules' : List Module}

/-! ### Repeated namespaces -/

theorem length_headersOf (modules : List Module) (ns : Namespace) :
    (headersOf modules ns).length = (modules.map Module.ns).count ns := by
  rw [headersOf, List.length_map, List.count, List.countP_map, List.countP_eq_length_filter]
  rfl

theorem repeatedModule?_eq_none_iff :
    repeatedModule? modules = none ↔ (modules.map Module.ns).Nodup := by
  simp only [repeatedModule?, length_headersOf]
  exact find?_repeated_eq_none_iff

/-- The first module whose namespace is repeated has a module of the same namespace behind it, and
before it stand only modules whose namespaces are not repeated. -/
theorem exists_split_of_repeatedModule? {m : Module} (h : repeatedModule? modules = some m) :
    ∃ before after, modules = before ++ m :: after ∧ m.ns ∈ after.map Module.ns ∧
      ∀ other ∈ before, (modules.map Module.ns).count other.ns = 1 := by
  simp only [repeatedModule?, length_headersOf] at h
  exact find?_repeated_eq_some_iff.mp h

/-! ### Imports without a target -/

/-- Every import leads to a module of the list. -/
def ImportsDefined (modules : List Module) : Prop :=
  ∀ m ∈ modules, ∀ i ∈ m.imports, i.target ∈ modules.map Module.ns

theorem moduleNamed?_isSome_iff {ns : Namespace} :
    (moduleNamed? modules ns).isSome ↔ ns ∈ modules.map Module.ns := by
  rw [moduleNamed?, List.find?_isSome, List.mem_map]
  simp only [beq_iff_eq]

theorem undefinedImports_eq (modules : List Module) :
    undefinedImports modules =
      (modules.flatMap Module.imports).filter fun i => i.target ∉ modules.map Module.ns := by
  refine List.filter_congr fun i _ => ?_
  rw [Bool.eq_iff_iff, decide_eq_true_eq, ← moduleNamed?_isSome_iff, Option.isNone_iff_eq_none,
    Option.not_isSome_iff_eq_none]

theorem undefinedImports_eq_nil_iff_importsDefined :
    undefinedImports modules = [] ↔ ImportsDefined modules := by
  rw [undefinedImports_eq_nil_iff]
  simp only [moduleNamed?_isSome_iff, ImportsDefined]

/-! ### The answer to a list of modules -/

/-- What the gate has to answer. -/
inductive Verdict (modules : List Module) : Except Failure Unit → Prop
  /-- The first namespace that is repeated, with all modules that have it. -/
  | repeatedModule {before after : List Module} {m : Module}
      (hmodules : modules = before ++ m :: after) (hagain : m.ns ∈ after.map Module.ns)
      (hfirst : ∀ other ∈ before, (modules.map Module.ns).count other.ns = 1) :
      Verdict modules
        (.error (.error (.repeatedModule m.ns ((modules.filter (·.ns = m.ns)).map Module.id))))
  /-- All imports that have no target. -/
  | undefinedImports (hdistinct : (modules.map Module.ns).Nodup)
      (hundefined : ¬ImportsDefined modules) :
      Verdict modules (.error (.error (.undefinedImports
        ((modules.flatMap Module.imports).filter fun i => i.target ∉ modules.map Module.ns))))
  | importCycle {path : List Namespace} {imports : List Import}
      (hdistinct : (modules.map Module.ns).Nodup) (hdefined : ImportsDefined modules)
      (hcyclic : Cyclic modules) : Verdict modules (.error (.error (.importCycle path imports)))
  | admitted (hdistinct : (modules.map Module.ns).Nodup) (hdefined : ImportsDefined modules)
      (hacyclic : ¬Cyclic modules) : Verdict modules (.ok ())

/-- **The gate gives the answer that it has to.** -/
theorem verdict_checkImports (modules : List Module) : Verdict modules (checkImports modules) := by
  rw [checkImports]
  cases hrepeated : repeatedModule? modules with
  | some m =>
    obtain ⟨before, after, hmodules, hagain, hfirst⟩ := exists_split_of_repeatedModule? hrepeated
    exact .repeatedModule hmodules hagain hfirst
  | none =>
    have hdistinct := repeatedModule?_eq_none_iff.mp hrepeated
    by_cases hdefined : undefinedImports modules = []
    · rw [hdefined]
      have himports := undefinedImports_eq_nil_iff_importsDefined.mp hdefined
      have hdecides := Search.decides_visitAll hrepeated hdefined
      cases hresult : Search.start.visitAll modules (modules.map Module.ns) with
      | ok last =>
        rw [hresult] at hdecides
        exact .admitted hdistinct himports hdecides
      | error failure =>
        rw [hresult] at hdecides
        obtain ⟨hcyclic, path, imports, rfl⟩ := hdecides
        exact .importCycle hdistinct himports hcyclic
    · have himports := fun h => hdefined (undefinedImports_eq_nil_iff_importsDefined.mpr h)
      simp only [List.isEmpty_eq_false_iff.mpr hdefined, Bool.not_false, ↓reduceIte]
      rw [undefinedImports_eq]
      exact .undefinedImports hdistinct himports

/-- **The gate admits** modules with distinct namespaces whose imports lead to modules, but never
back to where they come from. -/
theorem checkImports_eq_ok_iff_not_cyclic :
    checkImports modules = .ok () ↔
      (modules.map Module.ns).Nodup ∧ ImportsDefined modules ∧ ¬Cyclic modules := by
  constructor
  · intro h
    have hverdict := verdict_checkImports modules
    rw [h] at hverdict
    cases hverdict with
    | admitted hdistinct hdefined hacyclic => exact ⟨hdistinct, hdefined, hacyclic⟩
  · rintro ⟨hdistinct, hdefined, hacyclic⟩
    rw [checkImports_eq_ok_iff, repeatedModule?_eq_none_iff,
      undefinedImports_eq_nil_iff_importsDefined]
    refine ⟨hdistinct, hdefined, ?_⟩
    have hdecides := Search.decides_visitAll (repeatedModule?_eq_none_iff.mpr hdistinct)
      (undefinedImports_eq_nil_iff_importsDefined.mpr hdefined)
    cases hresult : Search.start.visitAll modules (modules.map Module.ns) with
    | ok last => exact ⟨last, rfl⟩
    | error failure =>
      rw [hresult] at hdecides
      exact absurd hdecides.1 hacyclic

/-! ### The order of modules and imports -/

namespace Module.ListReordered

theorem imports (h : ListReordered modules modules') {a b : Namespace}
    (hab : Imports modules a b) : Imports modules' a b := by
  obtain ⟨m, hm, rfl, i, hi, rfl⟩ := hab
  obtain ⟨m', hm', hreordered⟩ := h.exists_right hm
  exact ⟨m', hm', hreordered.ns_eq, i, hreordered.imports.mem_iff.mp hi, rfl⟩

theorem cyclic (h : ListReordered modules modules') (hcyclic : Cyclic modules) :
    Cyclic modules' := by
  obtain ⟨m, -, hchain⟩ := hcyclic
  exact cyclic_of_transGen (Relation.TransGen.mono (fun _ _ => h.imports) _ _ hchain)

theorem importsDefined (h : ListReordered modules modules') (hdefined : ImportsDefined modules) :
    ImportsDefined modules' := by
  intro m' hm' i hi
  obtain ⟨m, hm, hreordered⟩ := h.exists_left hm'
  exact h.perm_ns.mem_iff.mp (hdefined m hm i (hreordered.imports.mem_iff.mpr hi))

theorem checkImports_eq_ok (h : ListReordered modules modules')
    (hmodules : checkImports modules = .ok ()) : checkImports modules' = .ok () := by
  rw [checkImports_eq_ok_iff_not_cyclic] at hmodules ⊢
  obtain ⟨hdistinct, hdefined, hacyclic⟩ := hmodules
  exact ⟨h.perm_ns.nodup_iff.mp hdistinct, h.importsDefined hdefined, mt h.symm.cyclic hacyclic⟩

end Module.ListReordered

/-- The sorts of answers that the gate gives. -/
inductive Answer where
  | repeatedModule
  | undefinedImports
  | importCycle
  | admitted
deriving DecidableEq

/-- The sort of an answer, if it is one of the gate. -/
def answer? : Except Failure Unit → Option Answer
  | .error (.error (.repeatedModule ..)) => some .repeatedModule
  | .error (.error (.undefinedImports _)) => some .undefinedImports
  | .error (.error (.importCycle ..)) => some .importCycle
  | .error _ => none
  | .ok () => some .admitted

open Classical in
/-- Three conditions decide what sort of answer the gate gives. -/
theorem Verdict.answer?_eq {result : Except Failure Unit} (h : Verdict modules result) :
    answer? result = some
      (if ¬(modules.map Module.ns).Nodup then .repeatedModule
      else if ¬ImportsDefined modules then .undefinedImports
      else if Cyclic modules then .importCycle else .admitted) := by
  cases h with
  | @repeatedModule before after m hmodules hagain hfirst =>
    have hrepeated : ¬(modules.map Module.ns).Nodup := by
      rw [hmodules, List.map_append, List.map_cons]
      intro hdistinct
      exact (List.nodup_cons.mp (List.nodup_append.mp hdistinct).2.1).1 hagain
    rw [if_pos hrepeated]
    rfl
  | undefinedImports hdistinct hundefined =>
    rw [if_neg (not_not.mpr hdistinct), if_pos hundefined]
    rfl
  | importCycle hdistinct hdefined hcyclic =>
    rw [if_neg (not_not.mpr hdistinct), if_neg (not_not.mpr hdefined), if_pos hcyclic]
    rfl
  | admitted hdistinct hdefined hacyclic =>
    rw [if_neg (not_not.mpr hdistinct), if_neg (not_not.mpr hdefined), if_neg hacyclic]
    rfl

/-- **The gate answers what it has to**, and the sort of its answer does not depend on the order of
the modules or of the imports of a module. -/
theorem checkImports_verdict (modules : List Module) :
    Verdict modules (checkImports modules) ∧
      ∀ modules', Module.ListReordered modules modules' →
        answer? (checkImports modules') = answer? (checkImports modules) := by
  refine ⟨verdict_checkImports modules, fun modules' h => ?_⟩
  have hdistinct := h.perm_ns.nodup_iff
  have hdefined : ImportsDefined modules ↔ ImportsDefined modules' :=
    ⟨h.importsDefined, h.symm.importsDefined⟩
  have hcyclic : Cyclic modules ↔ Cyclic modules' := ⟨h.cyclic, h.symm.cyclic⟩
  rw [(verdict_checkImports modules).answer?_eq, (verdict_checkImports modules').answer?_eq]
  simp only [hdistinct]
  rw [hdefined, hcyclic]

/-- A cycle that is reached from another module only, by the second one of its imports. -/
theorem checkImports_verdict_shared_dependency :
    let lib : Module := ⟨⟨0⟩, ⟨["Lib"]⟩, [], [], []⟩
    let main (imports : List Import) : Module := ⟨⟨1⟩, ⟨["Main"]⟩, imports, [], []⟩
    let a : Module := ⟨⟨2⟩, ⟨["A"]⟩, [⟨⟨3⟩, ⟨["Lib"]⟩⟩, ⟨⟨4⟩, ⟨["B"]⟩⟩], [], []⟩
    let b : Module := ⟨⟨5⟩, ⟨["B"]⟩, [⟨⟨6⟩, ⟨["A"]⟩⟩], [], []⟩
    let toLib : Import := ⟨⟨7⟩, ⟨["Lib"]⟩⟩
    let toB : Import := ⟨⟨8⟩, ⟨["B"]⟩⟩
    let modules := [lib, main [toLib, toB], a, b]
    let modules' := [a, main [toB, toLib], b, lib]
    Module.ListReordered modules modules' ∧ Verdict modules (checkImports modules) ∧
      answer? (checkImports modules') = answer? (checkImports modules) ∧
      answer? (checkImports modules) = some .importCycle := by
  intro lib main a b toLib toB modules modules'
  have hreordered : Module.ListReordered modules modules' := by
    have hmain : (main [toLib, toB]).Reordered (main [toB, toLib]) :=
      ⟨rfl, rfl, .swap toB toLib [], .refl _, rfl⟩
    have hsame (m : Module) : m.Reordered m := ⟨rfl, rfl, .refl _, .refl _, rfl⟩
    refine ⟨[a, main [toLib, toB], b, lib], ?_,
      .cons (hsame a) (.cons hmain (.cons (hsame b) (.cons (hsame lib) .nil)))⟩
    exact (List.perm_append_singleton lib [main [toLib, toB], a, b]).symm.trans (.swap _ _ _)
  obtain ⟨hverdict, horder⟩ := checkImports_verdict modules
  exact ⟨hreordered, hverdict, horder modules' hreordered, by cbv⟩

end NameResolution
