import NameResolution.Proofs.Module.Entries

/-!
# The verdict on the entries of a module

`Module.EntriesVerdict m result` says what the check of the entries has to answer about a module:
all re-exports of modules that it does not import; else all exports of identifiers that it does not
declare; else the identifier that is declared repeatedly and has the earliest declaration, with all
its declarations; else that the entries are admitted.

The answer that the check gives is the only one of which this holds
(`Module.checkEntries_eq_iff_verdict`).  So nothing is refused but for a reason, and no offender is
left out, added, or moved.
-/

namespace NameResolution.Module

/-! ### Offending exports -/

/-- The export passes on a module that is not imported. -/
def IsUnimported (m : Module) : Export → Prop
  | .decl .. => False
  | .reexport _ target => target ∉ m.imports.map Import.target

/-- The export exposes an identifier that is not declared. -/
def IsUndeclared (m : Module) : Export → Prop
  | .decl _ ident => ident ∉ m.declared
  | .reexport .. => False

instance (m : Module) : DecidablePred m.IsUnimported
  | .decl .. => inferInstanceAs (Decidable False)
  | .reexport _ target => inferInstanceAs (Decidable (target ∉ m.imports.map Import.target))

instance (m : Module) : DecidablePred m.IsUndeclared
  | .decl _ ident => inferInstanceAs (Decidable (ident ∉ m.declared))
  | .reexport .. => inferInstanceAs (Decidable False)

variable {m : Module}

theorem importsModule_iff {target : Namespace} :
    m.importsModule target = true ↔ target ∈ m.imports.map Import.target := by
  simp only [importsModule, List.any_eq_true, beq_iff_eq, List.mem_map]

/-- The re-exports that the check collects are the offending exports, in order. -/
theorem map_unimportedReexports (m : Module) :
    m.unimportedReexports.map (fun e => Export.reexport e.1 e.2) =
      m.exports.filter fun e => m.IsUnimported e := by
  rw [unimportedReexports, List.map_filterMap, ← List.filterMap_eq_filter]
  refine List.filterMap_congr fun e _ => ?_
  cases e with
  | decl id ident => rfl
  | reexport id target =>
    by_cases himported : target ∈ m.imports.map Import.target
    · have hfalse : ¬m.IsUnimported (.reexport id target) := fun h => h himported
      simp [Option.guard, importsModule_iff.mpr himported, hfalse]
    · have htrue : m.IsUnimported (.reexport id target) := himported
      simp [Option.guard, mt importsModule_iff.mp himported, htrue]

/-- The exports that the check collects are the offending exports, in order. -/
theorem map_undeclaredExports (m : Module) :
    m.undeclaredExports.map (fun e => Export.decl e.1 e.2) =
      m.exports.filter fun e => m.IsUndeclared e := by
  rw [undeclaredExports, List.map_filterMap, ← List.filterMap_eq_filter]
  refine List.filterMap_congr fun e _ => ?_
  cases e with
  | decl id ident =>
    by_cases hdeclared : ident ∈ m.declared
    · have hfalse : ¬m.IsUndeclared (.decl id ident) := fun h => h hdeclared
      simp [Option.guard, hdeclared, hfalse]
    · have htrue : m.IsUndeclared (.decl id ident) := hdeclared
      simp [Option.guard, hdeclared, htrue]
  | reexport id target => rfl

theorem unimportedReexports_eq_nil_iff_forall :
    m.unimportedReexports = [] ↔ ∀ e ∈ m.exports, ¬m.IsUnimported e := by
  rw [← List.map_eq_nil_iff, map_unimportedReexports, List.filter_eq_nil_iff]
  simp only [decide_eq_true_eq]

theorem undeclaredExports_eq_nil_iff_forall :
    m.undeclaredExports = [] ↔ ∀ e ∈ m.exports, ¬m.IsUndeclared e := by
  rw [← List.map_eq_nil_iff, map_undeclaredExports, List.filter_eq_nil_iff]
  simp only [decide_eq_true_eq]

/-- There is one list of re-exports that stands for the offending exports. -/
theorem eq_unimportedReexports {exports : List (NodeId × Namespace)}
    (h : exports.map (fun e => Export.reexport e.1 e.2) =
      m.exports.filter fun e => m.IsUnimported e) : exports = m.unimportedReexports := by
  rw [← map_unimportedReexports] at h
  refine List.map_injective_iff.mpr ?_ h
  rintro ⟨id, target⟩ ⟨id', target'⟩ hsame
  cases hsame
  rfl

/-- There is one list of declaration exports that stands for the offending exports. -/
theorem eq_undeclaredExports {exports : List (NodeId × String)}
    (h : exports.map (fun e => Export.decl e.1 e.2) =
      m.exports.filter fun e => m.IsUndeclared e) : exports = m.undeclaredExports := by
  rw [← map_undeclaredExports] at h
  refine List.map_injective_iff.mpr ?_ h
  rintro ⟨id, ident⟩ ⟨id', ident'⟩ hsame
  cases hsame
  rfl

/-! ### Repeated declarations -/

/-- A repeated identifier is found at its first declaration: it is declared again behind it, and
before it everything is declared once. -/
theorem repeatedIdent?_eq_some_iff {ident : String} :
    m.repeatedIdent? = some ident ↔
      ∃ before decl after, m.decls = before ++ decl :: after ∧ decl.ident = ident ∧
        ident ∈ after.map Decl.ident ∧ ∀ other ∈ before, m.declared.count other.ident = 1 := by
  rw [repeatedIdent?_eq, Option.map_eq_some_iff]
  constructor
  · rintro ⟨decl, hfind, rfl⟩
    obtain ⟨before, after, hdecls, hagain, hfirst⟩ := find?_repeated_eq_some_iff.mp hfind
    exact ⟨before, decl, after, hdecls, rfl, hagain, hfirst⟩
  · rintro ⟨before, decl, after, hdecls, rfl, hagain, hfirst⟩
    exact ⟨decl, find?_repeated_eq_some_iff.mpr ⟨before, after, hdecls, hagain, hfirst⟩, rfl⟩

/-! ### The verdict -/

/-- What the check of the entries has to answer. -/
inductive EntriesVerdict (m : Module) : (result : Except Error Unit) → Prop
  /-- All re-exports of modules that are not imported, if there are any. -/
  | unimportedReexports {exports : List (NodeId × Namespace)} (hne : exports ≠ [])
      (hexports : exports.map (fun e => Export.reexport e.1 e.2) =
        m.exports.filter fun e => m.IsUnimported e) :
      EntriesVerdict m (.error (.unimportedReexports m.ns exports))
  /-- All exports of identifiers that are not declared, if there are any. -/
  | undeclaredExports {exports : List (NodeId × String)}
      (himported : ∀ e ∈ m.exports, ¬m.IsUnimported e) (hne : exports ≠ [])
      (hexports : exports.map (fun e => Export.decl e.1 e.2) =
        m.exports.filter fun e => m.IsUndeclared e) :
      EntriesVerdict m (.error (.undeclaredExports m.ns exports))
  /-- All declarations of the first identifier that is declared again. -/
  | repeatedDeclaration {before after : List Decl} {decl : Decl}
      (himported : ∀ e ∈ m.exports, ¬m.IsUnimported e)
      (hdeclared : ∀ e ∈ m.exports, ¬m.IsUndeclared e)
      (hdecls : m.decls = before ++ decl :: after) (hagain : decl.ident ∈ after.map Decl.ident)
      (hfirst : ∀ other ∈ before, m.declared.count other.ident = 1) :
      EntriesVerdict m (.error (.repeatedDeclaration m.ns decl.ident
        ((m.decls.filter (·.ident = decl.ident)).map Decl.id)))
  | admitted (himported : ∀ e ∈ m.exports, ¬m.IsUnimported e)
      (hdeclared : ∀ e ∈ m.exports, ¬m.IsUndeclared e) (hdistinct : m.declared.Nodup) :
      EntriesVerdict m (.ok ())

/-- The check gives an answer that it has to. -/
theorem entriesVerdict (m : Module) : m.EntriesVerdict m.checkEntries := by
  by_cases hunimported : m.unimportedReexports = []
  · have himported := unimportedReexports_eq_nil_iff_forall.mp hunimported
    by_cases hundeclared : m.undeclaredExports = []
    · have hdeclared := undeclaredExports_eq_nil_iff_forall.mp hundeclared
      cases hrepeated : m.repeatedIdent? with
      | some ident =>
        rw [checkEntries_of_repeated hunimported hundeclared hrepeated]
        obtain ⟨before, decl, after, hdecls, rfl, hagain, hfirst⟩ :=
          repeatedIdent?_eq_some_iff.mp hrepeated
        exact .repeatedDeclaration himported hdeclared hdecls hagain hfirst
      | none =>
        rw [checkEntries_of_distinct hunimported hundeclared hrepeated]
        exact .admitted himported hdeclared (repeatedIdent?_eq_none_iff.mp hrepeated)
    · rw [checkEntries_of_undeclared hunimported hundeclared]
      exact .undeclaredExports himported hundeclared m.map_undeclaredExports
  · rw [checkEntries_of_unimported hunimported]
    exact .unimportedReexports hunimported m.map_unimportedReexports

/-- Whatever the check has to answer, it answers. -/
theorem EntriesVerdict.checkEntries_eq {result : Except Error Unit} (h : m.EntriesVerdict result) :
    m.checkEntries = result := by
  cases h with
  | unimportedReexports hne hexports =>
    obtain rfl := eq_unimportedReexports hexports
    exact checkEntries_of_unimported hne
  | undeclaredExports himported hne hexports =>
    obtain rfl := eq_undeclaredExports hexports
    exact checkEntries_of_undeclared (unimportedReexports_eq_nil_iff_forall.mpr himported) hne
  | @repeatedDeclaration before after decl himported hdeclared hdecls hagain hfirst =>
    have hrepeated : m.repeatedIdent? = some decl.ident :=
      repeatedIdent?_eq_some_iff.mpr ⟨before, decl, after, hdecls, rfl, hagain, hfirst⟩
    exact checkEntries_of_repeated (unimportedReexports_eq_nil_iff_forall.mpr himported)
      (undeclaredExports_eq_nil_iff_forall.mpr hdeclared) hrepeated
  | admitted himported hdeclared hdistinct =>
    exact checkEntries_of_distinct (unimportedReexports_eq_nil_iff_forall.mpr himported)
      (undeclaredExports_eq_nil_iff_forall.mpr hdeclared) (repeatedIdent?_eq_none_iff.mpr hdistinct)

/-- **The check of the entries answers what it has to, and nothing else.** -/
theorem checkEntries_eq_iff_verdict (m : Module) (result : Except Error Unit) :
    m.checkEntries = result ↔ m.EntriesVerdict result := by
  constructor
  · rintro rfl
    exact m.entriesVerdict
  · exact EntriesVerdict.checkEntries_eq

/-- The identifier that is declared first is named, although the other one is repeated before it. -/
example :
    let decl (k : UInt32) (ident : String) : Decl := .data ⟨k⟩ ident [] []
    checkEntries ⟨⟨0⟩, ⟨["App"]⟩, [], [], [decl 1 "a", decl 2 "b", decl 3 "b", decl 4 "a"]⟩ =
      .error (.repeatedDeclaration ⟨["App"]⟩ "a" [⟨1⟩, ⟨4⟩]) := by
  cbv

end NameResolution.Module
