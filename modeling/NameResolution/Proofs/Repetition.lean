import Mathlib.Data.List.Count
import Mathlib.Data.List.Nodup

/-!
# The first item with a repeated key

A search for an item whose key occurs more than once finds nothing if and only if the keys are
distinct (`find?_repeated_eq_none_iff`).  What it finds otherwise is the first item of the first
repeated key: the key occurs again behind it, and before it stand only items whose keys occur once
(`find?_repeated_eq_some_iff`).
-/

namespace NameResolution

variable {α β : Type} [DecidableEq β] {key : α → β} {items : List α}

theorem find?_repeated_eq_none_iff :
    items.find? (fun x => decide (1 < (items.map key).count (key x))) = none ↔
      (items.map key).Nodup := by
  rw [List.find?_eq_none, List.nodup_iff_count_le_one]
  simp only [decide_eq_true_eq, Nat.not_lt]
  constructor
  · -- The search counts the keys of items; all other ones occur zero times.
    intro h k
    by_cases hk : k ∈ items.map key
    · obtain ⟨x, hx, rfl⟩ := List.mem_map.mp hk
      exact h x hx
    · rw [List.count_eq_zero_of_not_mem hk]
      exact Nat.zero_le 1
  · exact fun h x _ => h (key x)

theorem find?_repeated_eq_some_iff {x : α} :
    items.find? (fun x => decide (1 < (items.map key).count (key x))) = some x ↔
      ∃ before after, items = before ++ x :: after ∧ key x ∈ after.map key ∧
        ∀ other ∈ before, (items.map key).count (key other) = 1 := by
  rw [List.find?_eq_some_iff_append]
  simp only [decide_eq_true_eq, Bool.not_eq_true', decide_eq_false_iff_not, Nat.not_lt]
  constructor
  · rintro ⟨hx, before, after, hitems, hbefore⟩
    have hfirst : ∀ other ∈ before, (items.map key).count (key other) = 1 := by
      intro other hother
      have hmem : key other ∈ items.map key :=
        List.mem_map_of_mem (hitems ▸ List.mem_append_left _ hother)
      exact Nat.le_antisymm (hbefore other hother) (List.count_pos_iff.mpr hmem)
    refine ⟨before, after, hitems, ?_, hfirst⟩
    have hnot : key x ∉ before.map key := by
      intro hmem
      obtain ⟨other, hother, hkey⟩ := List.mem_map.mp hmem
      have honce := hfirst other hother
      rw [hkey] at honce
      omega
    rw [hitems, List.map_append, List.count_append, List.count_eq_zero_of_not_mem hnot,
      List.map_cons, List.count_cons_self] at hx
    exact List.count_pos_iff.mp (by omega)
  · rintro ⟨before, after, hitems, hagain, hfirst⟩
    refine ⟨?_, before, after, hitems, fun other hother => Nat.le_of_eq (hfirst other hother)⟩
    have hafter := List.count_pos_iff.mpr hagain
    rw [hitems, List.map_append, List.count_append, List.map_cons, List.count_cons_self]
    omega

end NameResolution
