import NameResolution.Proofs.Import.Reach

/-!
# Searches in two tables

The search for the imports in reach of a module asks a table for the interface of the module and
for those of the modules that it comes to, and of these it reads the imports and the exports.  So a
table in which the module has the same imports, and in which all that one search comes to has the
same imports and exports, is searched with the same result (`Interfaces.Alike.reach_eq_ok`).

What the search asks next depends on the answers so far.  The two searches are therefore run in
lockstep: as long as they have listed the same imports, they have asked the same questions, and the
module that they come to next is one of those on which the tables agree.
-/

namespace NameResolution

namespace Interface

/-- Two interfaces with the same imports and the same exports. -/
structure SameShape (interface interface' : Interface) : Prop where
  imports_eq : interface'.imports = interface.imports
  exports_eq : interface'.exports = interface.exports

namespace SameShape

variable {interface interface' : Interface}

theorem reexports_eq (h : interface.SameShape interface') :
    interface'.reexports = interface.reexports := by
  unfold reexports
  rw [h.exports_eq]

theorem exposes_eq (h : interface.SameShape interface') (ident : String) :
    interface'.exposes ident = interface.exposes ident := by
  unfold exposes
  rw [h.exports_eq]

/-- The same imports are passed on.  Only a fault would name the module. -/
theorem passedOn_eq_ok (h : interface.SameShape interface') {passed : List Import}
    (hpassed : interface.passedOn = .ok passed) : interface'.passedOn = .ok passed := by
  unfold passedOn at hpassed ⊢
  rw [h.reexports_eq]
  refine importsOf_eq_ok_iff.mpr ((importsOf_eq_ok_iff.mp hpassed).imp fun target i hfirst => ?_)
  unfold firstImport? at hfirst ⊢
  rw [h.imports_eq]
  exact hfirst

end SameShape

end Interface

namespace Interfaces

/-! ### What a search comes to -/

/-- What is listed or pending is listed in the end. -/
theorem subset_of_expand {interfaces : Interfaces} {visited pending reach : List Import}
    (h : interfaces.expand visited pending = .ok reach) : visited ++ pending ⊆ reach := by
  have hinvariant : interfaces.Invariant fun visited' pending' =>
      visited ++ pending ⊆ visited' ++ pending' := by
    constructor
    intro visited' rest passed i hsubset _
    rw [listed_step]
    exact List.subset_append_of_subset_left _ hsubset
  simpa using hinvariant.of_expand_eq_ok (List.Subset.refl _) h

/-! ### Tables that are alike for a module -/

/-- Two tables in which the module `ns` imports and declares the same, and in which the targets of
the imports in reach of it have the same imports and exports. -/
structure Alike (interfaces interfaces' : Interfaces) (ns : Namespace) (reach : List Import) :
    Prop where
  own : ∃ interface interface', interfaces.get? ns = some interface ∧
    interfaces'.get? ns = some interface' ∧ interface'.imports = interface.imports ∧
    ∀ ident, ident ∈ interface'.declared ↔ ident ∈ interface.declared
  reached : ∀ i ∈ reach, ∃ interface interface', interfaces.get? i.target = some interface ∧
    interfaces'.get? i.target = some interface' ∧ interface.SameShape interface'

namespace Alike

variable {interfaces interfaces' : Interfaces} {ns : Namespace} {reach : List Import}

/-- What is in reach passes on the same in both tables. -/
theorem passedOn_eq_ok (h : interfaces.Alike interfaces' ns reach) {i : Import} (hi : i ∈ reach)
    {passed : List Import} (hpassed : interfaces.passedOn i.target = .ok passed) :
    interfaces'.passedOn i.target = .ok passed := by
  obtain ⟨interface, interface', hget, hget', hshape⟩ := h.reached i hi
  rw [passedOn_of_get? hget] at hpassed
  rw [passedOn_of_get? hget']
  exact hshape.passedOn_eq_ok hpassed

/-- One step of the first search is one step of the second search. -/
theorem expand_eq_ok (h : interfaces.Alike interfaces' ns reach) {visited pending : List Import}
    (hexpand : interfaces.expand visited pending = .ok reach) :
    interfaces'.expand visited pending = .ok reach := by
  fun_induction expand interfaces visited pending with
  | case1 visited =>
    unfold expand
    exact hexpand
  | case2 visited i rest fault hpassed => cases hexpand
  | case3 visited i rest passed hpassed ih =>
    -- The search lists `i`, so its target is one on which the tables agree.
    have hi : i ∈ reach := by
      apply subset_of_expand hexpand
      simp
    have hsame := h.passedOn_eq_ok hi hpassed
    unfold expand
    split
    · rename_i fault hfault
      rw [hsame] at hfault
      cases hfault
    · rename_i passed' hpassed'
      obtain rfl : passed = passed' := by
        rw [hsame] at hpassed'
        cases hpassed'
        rfl
      exact ih hexpand

/-- **Alike tables are searched with the same result.** -/
theorem reach_eq_ok (h : interfaces.Alike interfaces' ns reach)
    (hreach : interfaces.reach ns = .ok reach) : interfaces'.reach ns = .ok reach := by
  obtain ⟨interface, interface', hget, hget', himports, -⟩ := h.own
  obtain ⟨other, hother, hexpand⟩ := reach_eq_ok_iff.mp hreach
  obtain rfl : interface = other := Option.some.inj (hget.symm.trans hother)
  refine reach_eq_ok_iff.mpr ⟨interface', hget', ?_⟩
  rw [himports]
  exact h.expand_eq_ok hexpand

end Alike

end Interfaces

end NameResolution
