import NameResolution.Proofs.Scope.Binders
import NameResolution.Proofs.Scope.Lookup
import Mathlib.Tactic.SplitIfs

/-!
# What a name means, and what that means in turn

`Context.Gives ctx name` says that some module has `name` to give: the module itself declares it,
or one in reach exports it.  Whatever a variable means is a visible binder or given
(`variableAt_eq_ok`), and whatever a type means is primitive or given (`typeName_eq_ok`).

If the module declares what it exports, then a meaning means itself (`variableAt_idem`,
`typeName_idem`).  For a qualified one this is because it is still given, whatever else it might be
now; a meaning that is not qualified is the very name that was looked up.
-/

namespace NameResolution

theorem Name.isQualified_iff {name : Name} :
    name.isQualified = true ↔ name.qualifier ≠ .empty := by
  obtain ⟨⟨segments⟩, ident⟩ := name
  cases segments with
  | nil => simp [isQualified, Namespace.isEmpty, Namespace.empty]
  | cons segment rest => simp [isQualified, Namespace.isEmpty, Namespace.empty]

/-- A name that is not qualified is its identifier. -/
theorem Name.eq_unqualified {name : Name} (h : ¬name.isQualified = true) :
    name = .unqualified name.ident := by
  rw [isQualified_iff, not_not] at h
  rw [unqualified, ← h]

/-- If a meaning is not qualified, it is the name that was looked up: a qualified one would have
been kept. -/
theorem Name.eq_of_not_isQualified {name n : Name} (hident : n.ident = name.ident)
    (hkept : name.isQualified = true → n = name) (hn : ¬n.isQualified = true) : n = name := by
  by_cases hname : name.isQualified = true
  · exact hkept hname
  · calc n = .unqualified n.ident := eq_unqualified hn
      _ = .unqualified name.ident := by rw [hident]
      _ = name := (eq_unqualified hname).symm

namespace Context

/-- A module has the name to give. -/
inductive Gives (ctx : Context) (name : Name) : Prop
  /-- The module itself declares it. -/
  | own (hqualifier : name.qualifier = ctx.owner)
      (hdecl : ctx.interfaces.hasDecl ctx.owner name.ident = true) : Gives ctx name
  /-- A module in reach exports it. -/
  | imported (hqualifier : name.qualifier ∈ ctx.reach.map Import.target)
      (hexport : ctx.interfaces.hasExport name.qualifier name.ident = true) : Gives ctx name

variable {ctx : Context} {binders : Binders} {lexical : Namespace} {node : NodeId} {name n : Name}
  {sort : NameSort}

/-! ### Meanings are given -/

theorem qualified_eq_ok (h : ctx.qualified node name sort = .ok n) : n = name ∧ ctx.Gives n := by
  unfold qualified at h
  split_ifs at h with howner hdecl hreach hexport
  · cases h
    exact ⟨rfl, .own howner hdecl⟩
  · cases h
  · cases h
    exact ⟨rfl, .imported hreach hexport⟩
  · cases h
  · cases h

theorem imported_eq_ok {ident : String} (h : ctx.imported node ident sort = .ok n) :
    n.ident = ident ∧ ctx.Gives n := by
  rw [imported] at h
  cases hexporters : ctx.exporters ident with
  | nil =>
    rw [hexporters] at h
    cases h
  | cons i rest =>
    rw [hexporters] at h
    cases rest with
    | cons _ _ => cases h
    | nil =>
      cases h
      have hi : i ∈ ctx.exporters ident := hexporters ▸ List.mem_cons_self
      obtain ⟨hreach, hexport⟩ := List.mem_filter.mp hi
      exact ⟨rfl, .imported (List.mem_map_of_mem hreach) hexport⟩

/-- **A variable means a visible binder or what a module gives**, and keeps its identifier. -/
theorem variableAt_eq_ok (h : ctx.variableAt binders lexical node name = .ok n) :
    n.ident = name.ident ∧ (name.isQualified = true → n = name) ∧
      (binders.isVisible n lexical = true ∨ ctx.Gives n) := by
  rw [variableAt] at h
  by_cases hqualified : name.isQualified = true
  · rw [if_pos hqualified] at h
    by_cases hvisible : binders.isVisible name lexical = true
    · rw [if_pos hvisible] at h
      cases h
      exact ⟨rfl, fun _ => rfl, Or.inl hvisible⟩
    · rw [if_neg hvisible] at h
      obtain ⟨rfl, hgives⟩ := qualified_eq_ok h
      exact ⟨rfl, fun _ => rfl, Or.inr hgives⟩
  · rw [if_neg hqualified] at h
    by_cases hdecl : ctx.interfaces.hasDecl ctx.owner name.ident = true
    · rw [if_pos hdecl] at h
      cases h
      exact ⟨rfl, fun hq => absurd hq hqualified, Or.inr (.own rfl hdecl)⟩
    · rw [if_neg hdecl] at h
      cases hlookup : binders.lookup lexical ctx.owner name.ident with
      | some binder =>
        rw [hlookup] at h
        cases h
        obtain ⟨hvisible, hident⟩ := Binders.visible_of_lookup hlookup
        exact ⟨hident, fun hq => absurd hq hqualified, Or.inl hvisible⟩
      | none =>
        rw [hlookup] at h
        obtain ⟨hident, hgives⟩ := imported_eq_ok h
        exact ⟨hident, fun hq => absurd hq hqualified, Or.inr hgives⟩

/-- An identifier that means something that no module gives is found among the binders. -/
theorem lookup_of_variableAt (hqualified : ¬name.isQualified = true) (hgives : ¬ctx.Gives n)
    (h : ctx.variableAt binders lexical node name = .ok n) :
    binders.lookup lexical ctx.owner name.ident = some n := by
  rw [variableAt, if_neg hqualified] at h
  by_cases hdecl : ctx.interfaces.hasDecl ctx.owner name.ident = true
  · rw [if_pos hdecl] at h
    cases h
    exact absurd (.own rfl hdecl) hgives
  · rw [if_neg hdecl] at h
    cases hlookup : binders.lookup lexical ctx.owner name.ident with
    | some binder =>
      rw [hlookup] at h
      cases h
      rfl
    | none =>
      rw [hlookup] at h
      exact absurd (imported_eq_ok h).2 hgives

/-- **The name of a type means a primitive type or what a module gives**, and keeps its
identifier. -/
theorem typeName_eq_ok (h : ctx.typeName node name = .ok n) :
    n.ident = name.ident ∧ (name.isQualified = true → n = name) ∧
      ((n.isQualified = false ∧ n.ident ∈ primitiveTypes) ∨ ctx.Gives n) := by
  rw [typeName] at h
  by_cases hqualified : name.isQualified = true
  · rw [if_pos hqualified] at h
    obtain ⟨rfl, hgives⟩ := qualified_eq_ok h
    exact ⟨rfl, fun _ => rfl, Or.inr hgives⟩
  · rw [if_neg hqualified] at h
    by_cases hprimitive : name.ident ∈ primitiveTypes
    · rw [if_pos hprimitive] at h
      cases h
      exact ⟨rfl, fun _ => rfl, Or.inl ⟨by simpa using hqualified, hprimitive⟩⟩
    · rw [if_neg hprimitive] at h
      by_cases hdecl : ctx.interfaces.hasDecl ctx.owner name.ident = true
      · rw [if_pos hdecl] at h
        cases h
        exact ⟨rfl, fun hq => absurd hq hqualified, Or.inr (.own rfl hdecl)⟩
      · rw [if_neg hdecl] at h
        obtain ⟨hident, hgives⟩ := imported_eq_ok h
        exact ⟨hident, fun hq => absurd hq hqualified, Or.inr hgives⟩

/-! ### Meanings of meanings -/

/-- The module declares whatever it exports. -/
def DeclaresExports (ctx : Context) : Prop :=
  ∀ ident, ctx.interfaces.hasExport ctx.owner ident = true →
    ctx.interfaces.hasDecl ctx.owner ident = true

/-- What is given means itself.  An import of the module by itself would be looked up among the
declarations, which is why these have to cover the exports. -/
theorem qualified_of_gives (hctx : ctx.DeclaresExports) (h : ctx.Gives name) :
    ctx.qualified node name sort = .ok name := by
  rw [qualified]
  by_cases howner : name.qualifier = ctx.owner
  · rw [if_pos howner]
    cases h with
    | own _ hdecl => rw [if_pos hdecl]
    | imported _ hexport => rw [if_pos (hctx _ (howner ▸ hexport))]
  · rw [if_neg howner]
    cases h with
    | own hqualifier _ => exact absurd hqualifier howner
    | imported hqualifier hexport => rw [if_pos hqualifier, if_pos hexport]

/-- **What a variable means, means itself.** -/
theorem variableAt_idem (hctx : ctx.DeclaresExports)
    (h : ctx.variableAt binders lexical node name = .ok n) :
    ctx.variableAt binders lexical node n = .ok n := by
  obtain ⟨hident, hkept, hmeaning⟩ := variableAt_eq_ok h
  by_cases hqualified : n.isQualified = true
  · rw [variableAt, if_pos hqualified]
    by_cases hvisible : binders.isVisible n lexical = true
    · rw [if_pos hvisible]
    · -- No binder, so it was given, and is asked for again where it was given.
      rw [if_neg hvisible]
      exact qualified_of_gives hctx (hmeaning.resolve_left hvisible)
  · have hname := Name.eq_of_not_isQualified hident hkept hqualified
    rwa [← hname] at h

/-- **What the name of a type means, means itself.** -/
theorem typeName_idem (hctx : ctx.DeclaresExports) (h : ctx.typeName node name = .ok n) :
    ctx.typeName node n = .ok n := by
  obtain ⟨hident, hkept, hmeaning⟩ := typeName_eq_ok h
  by_cases hqualified : n.isQualified = true
  · rw [typeName, if_pos hqualified]
    refine qualified_of_gives hctx (hmeaning.resolve_left ?_)
    -- Primitive types are never qualified.
    rintro ⟨hunqualified, -⟩
    rw [hunqualified] at hqualified
    cases hqualified
  · have hname := Name.eq_of_not_isQualified hident hkept hqualified
    rwa [← hname] at h

end Context

end NameResolution
