import NameResolution.Proofs.Import.Reach
import Mathlib.Data.List.Nodup

/-!
# The imports in reach are a least fixed point

`InReach interfaces ns` holds of the targets of the imports of `ns`, and of whatever is re-exported
by a namespace that it holds of.  The search lists these targets and no other ones
(`Interfaces.mem_targets_reach_iff`), each of them once (`Interfaces.nodup_targets_reach`).

The search keeps a `Frontier`: whatever a listed module re-exports is listed or pending.  With
nothing pending this makes the list closed.
-/

namespace NameResolution

/-- What can be reached from a module through its imports and through re-exports. -/
inductive InReach (interfaces : Interfaces) (ns : Namespace) : Namespace → Prop
  | imported {interface : Interface} {i : Import} (hget : interfaces.get? ns = some interface)
      (hi : i ∈ interface.imports) : InReach interfaces ns i.target
  | reexported {via target : Namespace} {interface : Interface} (h : InReach interfaces ns via)
      (hget : interfaces.get? via = some interface) (htarget : target ∈ interface.reexports) :
      InReach interfaces ns target

namespace Interface

/-- A module passes on one import for each namespace that it re-exports. -/
theorem targets_of_importsOf {interface : Interface} {reexported : List Namespace}
    {passed : List Import} (h : interface.importsOf reexported = .ok passed) :
    passed.map Import.target = reexported := by
  rw [← List.map_id reexported]
  refine map_eq_of_forall₂ (importsOf_eq_ok_iff.mp h) fun hfirst => ?_
  simpa using List.find?_some hfirst

end Interface

namespace Interfaces

variable {interfaces : Interfaces} {ns : Namespace}

/-- What is passed on has the targets that are re-exported. -/
theorem targets_of_passedOn {interface : Interface} {passed : List Import}
    (hget : interfaces.get? ns = some interface) (h : interfaces.passedOn ns = .ok passed) :
    passed.map Import.target = interface.reexports := by
  rw [passedOn_of_get? hget] at h
  exact Interface.targets_of_importsOf h

/-! ### Listing what is new -/

theorem any_target_iff {listed : List Import} {target : Namespace} :
    listed.any (·.target == target) = true ↔ target ∈ listed.map Import.target := by
  simp only [List.any_eq_true, beq_iff_eq, List.mem_map]

/-- All targets are listed in the end. -/
theorem mem_targets_newImports (listed : List Import) {imports : List Import} {i : Import}
    (hi : i ∈ imports) :
    i.target ∈ (listed ++ newImports listed imports).map Import.target := by
  induction imports generalizing listed with
  | nil => cases hi
  | cons j rest ih =>
    rw [newImports]
    by_cases hj : listed.any (·.target == j.target) = true
    · rw [if_pos hj]
      rcases List.mem_cons.mp hi with rfl | hi
      · rw [List.map_append]
        exact List.mem_append_left _ (any_target_iff.mp hj)
      · exact ih listed hi
    · rw [if_neg hj, List.append_cons]
      rcases List.mem_cons.mp hi with rfl | hi
      · exact List.mem_map_of_mem (List.mem_append_left _ (by simp))
      · exact ih (listed ++ [j]) hi

/-- No target is listed twice. -/
theorem nodup_targets_newImports {listed imports : List Import}
    (h : (listed.map Import.target).Nodup) :
    ((listed ++ newImports listed imports).map Import.target).Nodup := by
  induction imports generalizing listed with
  | nil =>
    rw [newImports, List.append_nil]
    exact h
  | cons j rest ih =>
    rw [newImports]
    by_cases hj : listed.any (·.target == j.target) = true
    · rw [if_pos hj]
      exact ih h
    · rw [if_neg hj, List.append_cons]
      refine ih ?_
      rw [List.map_append, List.map_singleton, ← List.concat_eq_append]
      exact h.concat (mt any_target_iff.mpr hj)

/-! ### The search -/

/-- The state of the search from `ns`: all that is listed is in reach, and all that is in reach by
one more step is listed, if only as pending. -/
structure Frontier (interfaces : Interfaces) (ns : Namespace) (visited pending : List Import) :
    Prop where
  sound : ∀ i ∈ visited ++ pending, InReach interfaces ns i.target
  imported : ∀ interface, interfaces.get? ns = some interface →
    ∀ i ∈ interface.imports, i.target ∈ (visited ++ pending).map Import.target
  reexported : ∀ v ∈ visited, ∀ interface, interfaces.get? v.target = some interface →
    ∀ target ∈ interface.reexports, target ∈ (visited ++ pending).map Import.target
  nodup : ((visited ++ pending).map Import.target).Nodup

namespace Frontier

variable {visited : List Import}

/-- The search starts with the imports of the module. -/
theorem start {interface : Interface} (hget : interfaces.get? ns = some interface) :
    Frontier interfaces ns [] (newImports [] interface.imports) where
  sound i hi := .imported hget (mem_newImports hi).1
  imported other hother i hi := by
    obtain rfl : interface = other := Option.some.inj (hget.symm.trans hother)
    exact mem_targets_newImports [] hi
  reexported v hv := absurd hv List.not_mem_nil
  nodup := @nodup_targets_newImports [] _ List.nodup_nil

/-- What the target of a pending import passes on becomes pending. -/
theorem invariant : interfaces.Invariant (Frontier interfaces ns) := by
  constructor
  intro visited rest passed i h hpassed
  have hmono : (visited ++ i :: rest).map Import.target ⊆
      ((visited ++ i :: rest) ++ newImports (visited ++ i :: rest) passed).map Import.target :=
    List.map_subset _ (List.subset_append_left ..)
  obtain ⟨interface, hget, -⟩ := exists_get?_of_passedOn hpassed
  have htargets := targets_of_passedOn hget hpassed
  constructor
  · rw [listed_step]
    intro j hj
    rcases List.mem_append.mp hj with hj | hj
    · exact h.sound j hj
    · have hreach := h.sound i (List.mem_append_right _ List.mem_cons_self)
      exact .reexported hreach hget (htargets ▸ List.mem_map_of_mem (mem_newImports hj).1)
  · rw [listed_step]
    exact fun other hother j hj => hmono (h.imported other hother j hj)
  · rw [listed_step]
    intro v hv other hother target htarget
    rcases List.mem_append.mp hv with hv | hv
    · exact hmono (h.reexported v hv other hother target htarget)
    · -- `i` has just been visited, and what its target re-exports is listed now.
      obtain rfl := List.mem_singleton.mp hv
      obtain rfl : interface = other := Option.some.inj (hget.symm.trans hother)
      obtain ⟨j, hj, rfl⟩ := List.mem_map.mp (htargets ▸ htarget)
      exact mem_targets_newImports _ hj
  · rw [listed_step]
    exact nodup_targets_newImports h.nodup

/-- With nothing pending, what is listed is what is in reach. -/
theorem mem_targets_iff (h : Frontier interfaces ns visited []) {target : Namespace} :
    target ∈ visited.map Import.target ↔ InReach interfaces ns target := by
  constructor
  · intro htarget
    obtain ⟨i, hi, rfl⟩ := List.mem_map.mp htarget
    exact h.sound i (List.mem_append_left _ hi)
  · intro htarget
    induction htarget with
    | imported hget hi => simpa using h.imported _ hget _ hi
    | reexported _ hget htarget ih =>
      obtain ⟨v, hv, rfl⟩ := List.mem_map.mp ih
      simpa using h.reexported v hv _ hget _ htarget

end Frontier

theorem frontier_of_reach {reach : List Import} (h : interfaces.reach ns = .ok reach) :
    Frontier interfaces ns reach [] := by
  obtain ⟨interface, hget, hexpand⟩ := reach_eq_ok_iff.mp h
  exact Frontier.invariant.of_expand_eq_ok (.start hget) hexpand

/-- **What is listed is what is in reach.** -/
theorem mem_targets_reach_iff {reach : List Import} (h : interfaces.reach ns = .ok reach)
    {target : Namespace} : target ∈ reach.map Import.target ↔ InReach interfaces ns target :=
  (frontier_of_reach h).mem_targets_iff

/-- **No target is listed twice.** -/
theorem nodup_targets_reach {reach : List Import} (h : interfaces.reach ns = .ok reach) :
    (reach.map Import.target).Nodup := by
  simpa using (frontier_of_reach h).nodup

end Interfaces

end NameResolution
