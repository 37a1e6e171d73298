import NameResolution.Import.Reach
import NameResolution.Proofs.Outcome
import NameResolution.Proofs.Pointwise

/-!
# The imports in reach

What the search for the imports in reach says about the table of interfaces.  A search that ends
without a fault has looked up every module that it lists (`get?_isSome_of_reach`).  It cannot fault
in a table in which every import has a target and every re-export an import
(`exists_reach_eq_ok`).

Each fact is an `Interfaces.Invariant`, kept by one step of the search.  It then holds of the list
that the search ends with, and at the import that the search faults at.
-/

namespace NameResolution

namespace Interface

variable {interface : Interface} {reexported : List Namespace}

/-- A module passes on its first import of each namespace that it re-exports. -/
theorem importsOf_eq_ok_iff {passed : List Import} :
    interface.importsOf reexported = .ok passed ↔
      List.Forall₂ (fun target i => interface.firstImport? target = some i) reexported passed := by
  induction reexported generalizing passed with
  | nil => rw [importsOf, Except.ok.injEq, List.forall₂_nil_left_iff, eq_comm]
  | cons target rest ih =>
    rw [importsOf, List.forall₂_cons_left_iff]
    cases hfirst : interface.firstImport? target with
    | none =>
      constructor
      · rintro ⟨⟩
      · rintro ⟨_, _, ⟨⟩, _⟩
    | some i =>
      constructor
      · intro h
        obtain ⟨imports, hrest, hpassed⟩ := map_eq_ok_iff.mp h
        exact ⟨i, imports, rfl, ih.mp hrest, hpassed.symm⟩
      · rintro ⟨_, imports, ⟨⟩, hrest, rfl⟩
        exact map_eq_ok_iff.mpr ⟨imports, ih.mpr hrest, rfl⟩

/-- A module that imports what it passes on can pass it on. -/
theorem exists_importsOf_eq_ok
    (h : ∀ target ∈ reexported, (interface.firstImport? target).isSome) :
    ∃ passed, interface.importsOf reexported = .ok passed := by
  obtain ⟨passed, hpassed⟩ :=
    exists_forall₂ fun target htarget => Option.isSome_iff_exists.mp (h target htarget)
  exact ⟨passed, importsOf_eq_ok_iff.mpr hpassed⟩

/-- What a module passes on is re-exported by it. -/
theorem mem_importsOf {passed : List Import} (h : interface.importsOf reexported = .ok passed) :
    ∀ i ∈ passed, i.target ∈ reexported ∧ interface.firstImport? i.target = some i := by
  intro i hi
  obtain ⟨target, htarget, hfirst⟩ := exists_left_of_forall₂ (importsOf_eq_ok_iff.mp h) hi
  obtain rfl : i.target = target := by simpa using List.find?_some hfirst
  exact ⟨htarget, hfirst⟩

end Interface

namespace Interfaces

variable {interfaces : Interfaces}

/-! ### Lookups -/

theorem get_eq_ok_iff {ns : Namespace} {interface : Interface} :
    interfaces.get ns = .ok interface ↔ interfaces.get? ns = some interface := by
  rw [get]
  cases interfaces.get? ns with
  | none => simp
  | some found => simp

theorem passedOn_of_get? {ns : Namespace} {interface : Interface}
    (hget : interfaces.get? ns = some interface) :
    interfaces.passedOn ns = interface.passedOn := by
  rw [passedOn, get_eq_ok_iff.mpr hget]
  rfl

/-- A module that passes something on has an interface. -/
theorem exists_get?_of_passedOn {ns : Namespace} {passed : List Import}
    (h : interfaces.passedOn ns = .ok passed) :
    ∃ interface, interfaces.get? ns = some interface ∧ interface.passedOn = .ok passed := by
  rw [passedOn] at h
  obtain ⟨interface, hget, hpassed⟩ := bind_eq_ok_iff.mp h
  exact ⟨interface, get_eq_ok_iff.mp hget, hpassed⟩

/-! ### Invariants of a search -/

/-- What stands in the list after one more step. -/
theorem listed_step (visited rest new : List Import) (i : Import) :
    visited ++ [i] ++ (rest ++ new) = (visited ++ i :: rest) ++ new := by
  simp

/-- Going on with the first pending import keeps `P`. -/
structure Invariant (interfaces : Interfaces) (P : (visited pending : List Import) → Prop) :
    Prop where
  step : ∀ {visited rest passed : List Import} {i : Import}, P visited (i :: rest) →
    interfaces.passedOn i.target = .ok passed →
    P (visited ++ [i]) (rest ++ newImports (visited ++ i :: rest) passed)

namespace Invariant

variable {P : (visited pending : List Import) → Prop} {visited pending : List Import}

/-- An invariant holds of the list that the search ends with. -/
theorem of_expand_eq_ok (hP : interfaces.Invariant P) (hstart : P visited pending)
    {reach : List Import} (h : interfaces.expand visited pending = .ok reach) : P reach [] := by
  fun_induction expand interfaces visited pending with
  | case1 visited =>
    cases h
    exact hstart
  | case2 visited i rest fault hpassed => cases h
  | case3 visited i rest passed hpassed ih => exact ih (hP.step hstart hpassed) h

/-- A search faults at an import that is pending. -/
theorem of_expand_eq_error (hP : interfaces.Invariant P) (hstart : P visited pending)
    {fault : Fault} (h : interfaces.expand visited pending = .error fault) :
    ∃ visited i rest, P visited (i :: rest) ∧ interfaces.passedOn i.target = .error fault := by
  fun_induction expand interfaces visited pending with
  | case1 visited => cases h
  | case2 visited i rest fault' hpassed =>
    cases h
    exact ⟨visited, i, rest, hstart, hpassed⟩
  | case3 visited i rest passed hpassed ih => exact ih (hP.step hstart hpassed) h

end Invariant

/-- The search starts with the imports of the module. -/
theorem reach_eq_ok_iff {ns : Namespace} {reach : List Import} :
    interfaces.reach ns = .ok reach ↔ ∃ interface, interfaces.get? ns = some interface ∧
      interfaces.expand [] (newImports [] interface.imports) = .ok reach := by
  rw [Interfaces.reach, bind_eq_ok_iff]
  simp only [get_eq_ok_iff]

/-! ### Searches that end -/

/-- Each module that is listed has been asked what it passes on. -/
theorem invariant_passedOn :
    interfaces.Invariant fun visited _ =>
      ∀ i ∈ visited, ∃ passed, interfaces.passedOn i.target = .ok passed := by
  constructor
  intro visited rest passed i hvisited hpassed
  rw [List.forall_mem_append, List.forall_mem_singleton]
  exact ⟨hvisited, passed, hpassed⟩

theorem exists_passedOn_of_reach {ns : Namespace} {reach : List Import}
    (h : interfaces.reach ns = .ok reach) :
    ∀ i ∈ reach, ∃ passed, interfaces.passedOn i.target = .ok passed := by
  obtain ⟨interface, -, hexpand⟩ := reach_eq_ok_iff.mp h
  exact invariant_passedOn.of_expand_eq_ok (fun i hi => absurd hi List.not_mem_nil) hexpand

/-- A module whose imports in reach are known has an interface, and so have their targets. -/
theorem get?_isSome_of_reach {ns : Namespace} {reach : List Import}
    (h : interfaces.reach ns = .ok reach) :
    (interfaces.get? ns).isSome ∧ ∀ i ∈ reach, (interfaces.get? i.target).isSome := by
  constructor
  · obtain ⟨interface, hget, -⟩ := reach_eq_ok_iff.mp h
    exact Option.isSome_of_eq_some hget
  · intro i hi
    obtain ⟨passed, hpassed⟩ := exists_passedOn_of_reach h i hi
    obtain ⟨interface, hget, -⟩ := exists_get?_of_passedOn hpassed
    exact Option.isSome_of_eq_some hget

/-- Everything that the search lists is an import of some module in the table. -/
theorem invariant_imports :
    interfaces.Invariant fun visited pending => ∀ i ∈ visited ++ pending,
      ∃ ns interface, interfaces.get? ns = some interface ∧ i ∈ interface.imports := by
  constructor
  intro visited rest passed i hlisted hpassed
  rw [listed_step, List.forall_mem_append]
  refine ⟨hlisted, fun j hj => ?_⟩
  -- What is new has been passed on by the target of `i`, which imports it.
  obtain ⟨interface, hget, himports⟩ := exists_get?_of_passedOn hpassed
  have hj := Interface.mem_imports_of_importsOf himports j (mem_newImports hj).1
  exact ⟨i.target, interface, hget, hj⟩

/-- The imports in reach of a module are imports of modules in the table. -/
theorem mem_imports_of_reach {ns : Namespace} {reach : List Import}
    (h : interfaces.reach ns = .ok reach) :
    ∀ i ∈ reach, ∃ ns interface, interfaces.get? ns = some interface ∧ i ∈ interface.imports := by
  obtain ⟨interface, hget, hexpand⟩ := reach_eq_ok_iff.mp h
  have hstart : ∀ i ∈ [] ++ newImports [] interface.imports,
      ∃ ns interface, interfaces.get? ns = some interface ∧ i ∈ interface.imports :=
    fun i hi => ⟨ns, interface, hget, (mem_newImports hi).1⟩
  simpa using invariant_imports.of_expand_eq_ok hstart hexpand

/-! ### Closed tables -/

/-- Every import of the table has a target in it, and every re-export an import. -/
structure Closed (interfaces : Interfaces) : Prop where
  imports_defined : ∀ {ns interface}, interfaces.get? ns = some interface →
    ∀ i ∈ interface.imports, (interfaces.get? i.target).isSome
  reexports_imported : ∀ {ns interface}, interfaces.get? ns = some interface →
    ∀ target ∈ interface.reexports, (interface.firstImport? target).isSome

namespace Closed

/-- In a closed table every module can pass on what it re-exports. -/
theorem exists_passedOn_eq_ok (h : interfaces.Closed) {ns : Namespace}
    (hns : (interfaces.get? ns).isSome) :
    ∃ passed, interfaces.passedOn ns = .ok passed ∧
      ∀ i ∈ passed, (interfaces.get? i.target).isSome := by
  obtain ⟨interface, hget⟩ := Option.isSome_iff_exists.mp hns
  obtain ⟨passed, hpassed⟩ := Interface.exists_importsOf_eq_ok (h.reexports_imported hget)
  refine ⟨passed, ?_, fun i hi => ?_⟩
  · rw [passedOn_of_get? hget]
    exact hpassed
  · exact h.imports_defined hget i (Interface.mem_imports_of_importsOf hpassed i hi)

/-- The search keeps to the table: whatever is pending can be looked up. -/
theorem invariant_pending (h : interfaces.Closed) :
    interfaces.Invariant fun _ pending => ∀ i ∈ pending, (interfaces.get? i.target).isSome := by
  constructor
  intro visited rest passed i hpending hpassed
  obtain ⟨hi, hrest⟩ := List.forall_mem_cons.mp hpending
  rw [List.forall_mem_append]
  refine ⟨hrest, fun j hj => ?_⟩
  obtain ⟨passed', hpassed', htargets⟩ := h.exists_passedOn_eq_ok hi
  -- Both are what the target of `i` passes on.
  obtain rfl : passed' = passed := Except.ok.inj (hpassed'.symm.trans hpassed)
  exact htargets j (mem_newImports hj).1

/-- **In a closed table no search faults.** -/
theorem exists_reach_eq_ok (h : interfaces.Closed) {ns : Namespace}
    (hns : (interfaces.get? ns).isSome) : ∃ reach, interfaces.reach ns = .ok reach := by
  obtain ⟨interface, hget⟩ := Option.isSome_iff_exists.mp hns
  have hstart : ∀ i ∈ newImports [] interface.imports, (interfaces.get? i.target).isSome :=
    fun i hi => h.imports_defined hget i (mem_newImports hi).1
  cases hexpand : interfaces.expand [] (newImports [] interface.imports) with
  | ok reach => exact ⟨reach, reach_eq_ok_iff.mpr ⟨interface, hget, hexpand⟩⟩
  | error fault =>
    obtain ⟨_, i, _, hpending, hfault⟩ := h.invariant_pending.of_expand_eq_error hstart hexpand
    obtain ⟨passed, hpassed, -⟩ := h.exists_passedOn_eq_ok (hpending i List.mem_cons_self)
    rw [hpassed] at hfault
    cases hfault

end Closed

end Interfaces

end NameResolution
