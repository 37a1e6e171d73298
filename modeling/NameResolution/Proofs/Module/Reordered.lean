import NameResolution.Proofs.Pointwise
import NameResolution.Syntax
import Mathlib.Data.List.Perm.Basic

/-!
# Modules in another order

The imports and the exports of a module may be listed in any order, and so may the modules of a
program; the declarations of a module stay as they are.  `Module.Reordered` and
`Module.ListReordered` say so.  Every module of a list has a counterpart in the reordered one
(`ListReordered.exists_right`) and the other way round (`ListReordered.exists_left`).
-/

namespace NameResolution.Module

/-- The same module, with its imports and its exports in another order. -/
structure Reordered (m m' : Module) : Prop where
  id_eq : m'.id = m.id
  ns_eq : m'.ns = m.ns
  imports : m.imports.Perm m'.imports
  exports : m.exports.Perm m'.exports
  decls_eq : m'.decls = m.decls

theorem Reordered.symm {m m' : Module} (h : m.Reordered m') : m'.Reordered m :=
  ⟨h.id_eq.symm, h.ns_eq.symm, h.imports.symm, h.exports.symm, h.decls_eq.symm⟩

/-- The same modules in another order, each of them with its imports and its exports in another
order. -/
def ListReordered (modules modules' : List Module) : Prop :=
  ∃ permuted, modules.Perm permuted ∧ List.Forall₂ Reordered permuted modules'

namespace ListReordered

variable {modules modules' : List Module}

theorem symm (h : ListReordered modules modules') : ListReordered modules' modules := by
  obtain ⟨permuted, hperm, hmodules⟩ := h
  have hback : List.Forall₂ Reordered modules' permuted :=
    .flip (hmodules.imp fun _ _ hm => hm.symm)
  -- Reordering each module and permuting the list can be done in either order.
  have hcomp : Relation.Comp (List.Forall₂ Reordered) List.Perm modules' modules :=
    ⟨permuted, hback, hperm.symm⟩
  rw [List.forall₂_comp_perm_eq_perm_comp_forall₂] at hcomp
  exact hcomp

theorem exists_right (h : ListReordered modules modules') {m : Module} (hm : m ∈ modules) :
    ∃ m' ∈ modules', m.Reordered m' := by
  obtain ⟨permuted, hperm, hmodules⟩ := h
  exact exists_right_of_forall₂ hmodules (hperm.mem_iff.mp hm)

theorem exists_left (h : ListReordered modules modules') {m' : Module} (hm' : m' ∈ modules') :
    ∃ m ∈ modules, m.Reordered m' := by
  obtain ⟨m, hm, hreordered⟩ := h.symm.exists_right hm'
  exact ⟨m, hm, hreordered.symm⟩

theorem perm_ns (h : ListReordered modules modules') :
    (modules.map Module.ns).Perm (modules'.map Module.ns) := by
  obtain ⟨permuted, hperm, hmodules⟩ := h
  have hns : permuted.map Module.ns = modules'.map Module.ns := by
    rw [← List.forall₂_eq_eq_eq, List.forall₂_map_left_iff, List.forall₂_map_right_iff]
    exact hmodules.imp fun _ _ hm => hm.ns_eq.symm
  rw [← hns]
  exact hperm.map Module.ns

end ListReordered

end NameResolution.Module
