import NameResolution.Analysis
import NameResolution.Proofs.Repetition

/-!
# Modules whose entries have been checked

`checkEntries_eq_ok_iff` says what a module promises that passes the check of its entries: what it
re-exports it imports, what it exports it declares, and it declares nothing twice.  All of this is
read off its interface (`checkEntries_eq_ok_of_ofModule_eq`).
-/

namespace NameResolution.Module

variable {m : Module}

theorem unimportedReexports_eq_nil_iff :
    m.unimportedReexports = [] ↔
      ∀ id target, .reexport id target ∈ m.exports → m.importsModule target = true := by
  rw [unimportedReexports, List.filterMap_eq_nil_iff]
  constructor
  · intro h id target hexport
    have := h _ hexport
    by_cases himports : m.importsModule target = true
    · exact himports
    · simp [himports] at this
  · intro h e he
    cases e with
    | decl id ident => rfl
    | reexport id target => exact if_pos (h id target he)

theorem undeclaredExports_eq_nil_iff :
    m.undeclaredExports = [] ↔ ∀ id ident, .decl id ident ∈ m.exports → ident ∈ m.declared := by
  rw [undeclaredExports, List.filterMap_eq_nil_iff]
  constructor
  · intro h id ident hexport
    have := h _ hexport
    by_cases hdeclared : ident ∈ m.declared
    · exact hdeclared
    · simp [hdeclared] at this
  · intro h e he
    cases e with
    | decl id ident => exact if_pos (List.contains_iff_mem.mpr (h id ident he))
    | reexport id target => rfl

theorem length_declarationsOf (ident : String) :
    (m.declarationsOf ident).length = m.declared.count ident := by
  rw [declarationsOf, List.length_map, declared, List.count, List.countP_map,
    List.countP_eq_length_filter]
  rfl

/-- The search for a repeated identifier, as one for a declaration. -/
theorem repeatedIdent?_eq (m : Module) :
    m.repeatedIdent? =
      (m.decls.find? fun decl =>
        decide (1 < (m.decls.map Decl.ident).count decl.ident)).map Decl.ident := by
  simp only [repeatedIdent?, length_declarationsOf]
  rw [declared, List.find?_map]
  rfl

theorem repeatedIdent?_eq_none_iff : m.repeatedIdent? = none ↔ m.declared.Nodup := by
  rw [repeatedIdent?_eq, Option.map_eq_none_iff, find?_repeated_eq_none_iff, declared]

/-! ### The checks in order -/

theorem checkEntries_of_unimported (h : m.unimportedReexports ≠ []) :
    m.checkEntries = .error (.unimportedReexports m.ns m.unimportedReexports) := by
  unfold checkEntries
  rw [if_pos (by simpa using h)]

theorem checkEntries_of_undeclared (himported : m.unimportedReexports = [])
    (h : m.undeclaredExports ≠ []) :
    m.checkEntries = .error (.undeclaredExports m.ns m.undeclaredExports) := by
  unfold checkEntries
  rw [if_neg (by simpa using himported), if_pos (by simpa using h)]

theorem checkEntries_of_repeated (himported : m.unimportedReexports = [])
    (hdeclared : m.undeclaredExports = []) {ident : String} (h : m.repeatedIdent? = some ident) :
    m.checkEntries = .error (.repeatedDeclaration m.ns ident (m.declarationsOf ident)) := by
  unfold checkEntries
  rw [if_neg (by simpa using himported), if_neg (by simpa using hdeclared), h]

theorem checkEntries_of_distinct (himported : m.unimportedReexports = [])
    (hdeclared : m.undeclaredExports = []) (h : m.repeatedIdent? = none) :
    m.checkEntries = .ok () := by
  unfold checkEntries
  rw [if_neg (by simpa using himported), if_neg (by simpa using hdeclared), h]

/-- **What a module promises that passes the check.** -/
theorem checkEntries_eq_ok_iff :
    m.checkEntries = .ok () ↔
      (∀ id target, .reexport id target ∈ m.exports → m.importsModule target = true) ∧
        (∀ id ident, .decl id ident ∈ m.exports → ident ∈ m.declared) ∧ m.declared.Nodup := by
  rw [← unimportedReexports_eq_nil_iff, ← undeclaredExports_eq_nil_iff,
    ← repeatedIdent?_eq_none_iff]
  by_cases himported : m.unimportedReexports = []
  · by_cases hdeclared : m.undeclaredExports = []
    · cases hrepeated : m.repeatedIdent? with
      | none => simp [checkEntries_of_distinct himported hdeclared hrepeated, himported, hdeclared]
      | some ident => simp [checkEntries_of_repeated himported hdeclared hrepeated]
    · simp [checkEntries_of_undeclared himported hdeclared, hdeclared]
  · simp [checkEntries_of_unimported himported, himported]

/-- The check reads no more of a module than its interface. -/
theorem checkEntries_eq_ok_of_ofModule_eq {m' : Module}
    (hsame : Interface.ofModule m' = Interface.ofModule m) (h : m.checkEntries = .ok ()) :
    m'.checkEntries = .ok () := by
  rw [Interface.ofModule, Interface.ofModule, Interface.mk.injEq] at hsame
  obtain ⟨-, himports, hexports, hdeclared⟩ := hsame
  rw [checkEntries_eq_ok_iff] at h ⊢
  simp only [importsModule, himports, hexports, hdeclared] at h ⊢
  exact h

/-- All modules pass the check if and only if each of them does. -/
theorem checkEntriesOf_eq_ok_iff {modules : List Module} :
    checkEntriesOf modules = .ok () ↔ ∀ m ∈ modules, m.checkEntries = .ok () := by
  induction modules with
  | nil => simp [checkEntriesOf, pure, Except.pure]
  | cons m rest ih =>
    rw [checkEntriesOf, List.forall_mem_cons, ← ih]
    cases hm : m.checkEntries with
    | error e => simp [bind, Except.bind]
    | ok u => simp [bind, Except.bind]

end NameResolution.Module
