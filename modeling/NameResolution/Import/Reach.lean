import NameResolution.Lists.Count
import NameResolution.Module.Interface

/-!
# Imports in reach

`Interfaces.reach` lists the imports that are in reach of a module: its own ones, and for every
module in reach the imports of what that module re-exports.  Of several imports with the same target
the first one found is listed, and a module's own imports are found first.

Re-exports may go in circles.  The search ends because it lists no target twice, and every target is
that of an import in some interface (`Interfaces.unlisted_append_lt`).
-/

namespace NameResolution

/-! ### What a module passes on -/

namespace Interface

/-- The imports by which a module has the namespaces `reexported`. -/
def importsOf (interface : Interface) : (reexported : List Namespace) → Except Fault (List Import)
  | [] => .ok []
  | target :: rest =>
    match interface.firstImport? target with
    | none => .error (.reexportNotImported interface.ns target)
    | some i => (importsOf interface rest).map (i :: ·)

/-- The imports that a module passes on to its importers. -/
def passedOn (interface : Interface) : Except Fault (List Import) :=
  interface.importsOf interface.reexports

theorem mem_imports_of_importsOf {interface : Interface} {reexported : List Namespace}
    {passed : List Import} (h : interface.importsOf reexported = .ok passed) :
    ∀ i ∈ passed, i ∈ interface.imports := by
  induction reexported generalizing passed with
  | nil => cases h; simp
  | cons target rest ih =>
    unfold importsOf at h
    split at h
    · cases h
    · rename_i i hi
      cases hrest : interface.importsOf rest with
      | error fault => rw [hrest] at h; cases h
      | ok imports =>
        rw [hrest] at h
        cases h
        intro j hj
        rcases List.mem_cons.mp hj with rfl | hj
        · exact List.mem_of_find?_eq_some hi
        · exact ih hrest j hj

end Interface

namespace Interfaces

/-- The imports that the module `ns` passes on to its importers. -/
def passedOn (interfaces : Interfaces) (ns : Namespace) : Except Fault (List Import) := do
  (← interfaces.get ns).passedOn

/-! ### The targets that can be listed -/

/-- All targets of imports. -/
def targets (interfaces : Interfaces) : List Namespace :=
  (interfaces.entries.flatMap Interface.imports).map Import.target

/-- How many targets are not listed. -/
def unlisted (interfaces : Interfaces) (listed : List Import) : Nat :=
  interfaces.targets.countP fun target => !listed.any (·.target == target)

/-- What a module passes on is imported somewhere. -/
theorem mem_targets_of_passedOn {interfaces : Interfaces} {ns : Namespace} {passed : List Import}
    (h : interfaces.passedOn ns = .ok passed) : ∀ i ∈ passed, i.target ∈ interfaces.targets := by
  unfold passedOn get at h
  intro i hi
  cases hget : interfaces.get? ns with
  | none => rw [hget] at h; cases h
  | some interface =>
    rw [hget] at h
    have hmem : i ∈ interface.imports := Interface.mem_imports_of_importsOf h i hi
    exact List.mem_map_of_mem
      (List.mem_flatMap.mpr ⟨interface, List.mem_of_find?_eq_some hget, hmem⟩)

/-- Listing another target leaves fewer that are not listed. -/
theorem unlisted_append_lt {interfaces : Interfaces} {listed new : List Import} {i : Import}
    (hi : i ∈ new) (htarget : i.target ∈ interfaces.targets)
    (hnew : listed.any (·.target == i.target) = false) :
    interfaces.unlisted (listed ++ new) < interfaces.unlisted listed := by
  refine countP_lt_countP (fun target h => ?_) htarget ?_ ?_
  · simp only [List.any_append, Bool.not_or, Bool.and_eq_true] at h
    exact h.1
  · simp only [List.any_append, hnew, Bool.false_or, Bool.not_eq_false']
    exact List.any_eq_true.mpr ⟨i, hi, by simp⟩
  · simp [hnew]

/-! ### The search -/

/-- The imports whose targets are not listed yet, the first one of each target. -/
def newImports (listed : List Import) : List Import → List Import
  | [] => []
  | i :: rest =>
    if listed.any (·.target == i.target) then newImports listed rest
    else i :: newImports (listed ++ [i]) rest

/-- New imports come from the list they are chosen from, and their targets are not listed. -/
theorem mem_newImports {listed imports : List Import} {i : Import}
    (h : i ∈ newImports listed imports) :
    i ∈ imports ∧ listed.any (·.target == i.target) = false := by
  induction imports generalizing listed with
  | nil => simp [newImports] at h
  | cons j rest ih =>
    unfold newImports at h
    split at h
    · have := ih h
      exact ⟨List.mem_cons_of_mem _ this.1, this.2⟩
    · rename_i hj
      rcases List.mem_cons.mp h with rfl | h
      · exact ⟨List.mem_cons_self .., by simpa using hj⟩
      · obtain ⟨hmem, hnew⟩ := ih h
        refine ⟨List.mem_cons_of_mem _ hmem, ?_⟩
        simp only [List.any_append, Bool.or_eq_false_iff] at hnew
        exact hnew.1

/-- Goes through the pending imports in order and lists behind them what their targets pass on.
What is known to be in reach is `visited` followed by `pending`. -/
def expand (interfaces : Interfaces) (visited pending : List Import) :
    Except Fault (List Import) :=
  match pending with
  | [] => .ok visited
  | i :: rest =>
    match _h : interfaces.passedOn i.target with
    | .error fault => .error fault
    | .ok passed =>
      expand interfaces (visited ++ [i]) (rest ++ newImports (visited ++ i :: rest) passed)
termination_by (interfaces.unlisted (visited ++ pending), pending.length)
decreasing_by
  have hassoc : visited ++ [i] ++ (rest ++ newImports (visited ++ i :: rest) passed) =
      (visited ++ i :: rest) ++ newImports (visited ++ i :: rest) passed := by simp
  rw [hassoc]
  cases hnew : newImports (visited ++ i :: rest) passed with
  | nil =>
    simp only [List.append_nil, List.length_cons]
    exact Prod.Lex.right _ (Nat.lt_succ_self _)
  | cons j new =>
    obtain ⟨hmem, hlisted⟩ := mem_newImports (hnew ▸ List.mem_cons_self .. : j ∈ _)
    exact Prod.Lex.left _ _
      (unlisted_append_lt (List.mem_cons_self ..) (mem_targets_of_passedOn _h j hmem) hlisted)

/-- The imports in reach of the module `ns`: its own ones, then those passed on to it, no target
twice. -/
def reach (interfaces : Interfaces) (ns : Namespace) : Except Fault (List Import) := do
  let interface ← interfaces.get ns
  interfaces.expand [] (newImports [] interface.imports)

end Interfaces

end NameResolution
