import NameResolution.Proofs.Import.CyclePath

/-!
# The search for a cycle as a recursion

`depthFirst` is the depth-first search as it is written with calls: it gets the modules above the
one that it comes to, and the imports that have led down to it, and it explores the imports of the
module in order.  `Search.run` keeps all of this on a stack of its own.

A state of the search has the path of the calls, and its frames have what is left of the imports of
each.  So to take the first import of the innermost frame is to explore its target, and then to go
on with the frame without it (`Search.run_take`); the search of a whole frame follows by induction
on its imports.  Nothing is assumed about the modules, so both searches also fail alike.  Main
statement: `Search.visitAll_resting`.
-/

namespace NameResolution

/-! ### The recursion -/

/-- Fewer modules are off a path that has been made longer by one of them. -/
theorem countP_not_mem_append_lt {modules : List Module} {path : List Namespace} {ns : Namespace}
    {m : Module} (hpath : ns ∉ path) (hm : moduleNamed? modules ns = some m) :
    modules.countP (·.ns ∉ path ++ [ns]) < modules.countP (·.ns ∉ path) := by
  obtain ⟨hmem, hns⟩ := moduleNamed?_eq_some hm
  refine countP_lt_countP (fun other hother => ?_) hmem ?_ ?_
  · simp only [List.mem_append, not_or, decide_eq_true_eq] at hother ⊢
    exact hother.1
  · simp [hns]
  · simpa [hns] using hpath

/-- Explores the module `ns` depth first.  It is reached along `path`, by the imports `edges`; no
cycle can be reached from the modules `done`, and the result is the list of these afterwards. -/
def depthFirst (modules : List Module) (path : List Namespace) (edges : List Import)
    (ns : Namespace) (done : List Namespace) : Except Failure (List Namespace) :=
  if ns ∈ done then .ok done
  else if _hpath : ns ∈ path then
    .error (.error (.importCycle (path.drop (path.idxOf ns) ++ [ns])
      (edges.drop (path.idxOf ns))))
  else
    match _hm : moduleNamed? modules ns with
    | none => .error (.fault (.unknownModule ns))
    | some m => do
      let done ← m.imports.foldlM
        (fun done i => depthFirst modules (path ++ [ns]) (edges ++ [i]) i.target done) done
      return ns :: done
termination_by modules.countP (·.ns ∉ path)
decreasing_by exact countP_not_mem_append_lt _hpath _hm

/-- Explores each of the imports of a module, in order: `path` leads up to the module. -/
def depthFirstEach (modules : List Module) (path : List Namespace) (edges imports : List Import)
    (done : List Namespace) : Except Failure (List Namespace) :=
  imports.foldlM (fun done i => depthFirst modules path (edges ++ [i]) i.target done) done

/-- Explores from each of the namespaces, in order. -/
def depthFirstAll (modules : List Module) (roots done : List Namespace) :
    Except Failure (List Namespace) :=
  roots.foldlM (fun done ns => depthFirst modules [] [] ns done) done

section Recursion

variable {modules : List Module} {path : List Namespace} {edges : List Import} {ns : Namespace}
  {done : List Namespace}

theorem depthFirst_of_done (h : ns ∈ done) : depthFirst modules path edges ns done = .ok done := by
  rw [depthFirst, if_pos h]

theorem depthFirst_of_path (hdone : ns ∉ done) (hpath : ns ∈ path) :
    depthFirst modules path edges ns done =
      .error (.error (.importCycle (path.drop (path.idxOf ns) ++ [ns])
        (edges.drop (path.idxOf ns)))) := by
  rw [depthFirst, if_neg hdone, dif_pos hpath]

theorem depthFirst_of_unknown (hdone : ns ∉ done) (hpath : ns ∉ path)
    (hm : moduleNamed? modules ns = none) :
    depthFirst modules path edges ns done = .error (.fault (.unknownModule ns)) := by
  rw [depthFirst, if_neg hdone, dif_neg hpath]
  split
  · rfl
  · rename_i m hsome
    rw [hm] at hsome
    cases hsome

theorem depthFirst_of_new {m : Module} (hdone : ns ∉ done) (hpath : ns ∉ path)
    (hm : moduleNamed? modules ns = some m) :
    depthFirst modules path edges ns done =
      (depthFirstEach modules (path ++ [ns]) edges m.imports done).map (ns :: ·) := by
  rw [depthFirst, if_neg hdone, dif_neg hpath]
  split
  · rename_i hnone
    rw [hm] at hnone
    cases hnone
  · rename_i m' hsome
    obtain rfl : m = m' := Option.some.inj (hm.symm.trans hsome)
    rfl

end Recursion

namespace Search

variable {modules : List Module} {done : List Namespace} {ns : Namespace} {i : Import}
  {imports edges : List Import} {rest : List Frame}

/-! ### Places in the path -/

theorem mem_trail_iff {stack : List Frame} : ns ∈ trail stack ↔ ns ∈ stack.map Frame.ns :=
  List.mem_reverse

/-- A module of a path without repetitions has the place at which it stands. -/
theorem lookup_places_of_mem_trail {stack : List Frame} (hnodup : (trail stack).Nodup)
    (h : ns ∈ trail stack) : (places stack).lookup ns = some ((trail stack).idxOf ns) := by
  cases hlookup : (places stack).lookup ns with
  | none => exact absurd (mem_trail_iff.mp h) (lookup_places_eq_none_iff.mp hlookup)
  | some place =>
    obtain ⟨hlt, hplace⟩ := List.getElem?_eq_some_iff.mp (getElem?_trail_of_lookup_places hlookup)
    rw [← hplace, hnodup.idxOf_getElem place hlt]

theorem lookup_places_of_not_mem_trail {stack : List Frame} (h : ns ∉ trail stack) :
    (places stack).lookup ns = none :=
  lookup_places_eq_none_iff.mpr (mt mem_trail_iff.mpr h)

/-! ### Steps along a path -/

/-- The state of a search that has come along the path `stack` by the imports `edges`. -/
def along (done : List Namespace) (stack : List Frame) (edges : List Import) : Search :=
  ⟨done, places stack, stack, edges⟩

/-- The state of the search between two roots: nothing but what is done. -/
def resting (done : List Namespace) : Search := along done [] []

theorem step_along_leave (h : ns ∉ trail rest) :
    (along done (⟨ns, []⟩ :: rest) edges).step modules =
      .ok (some (along (ns :: done) rest edges.tail)) := by
  have hplaces : (places (⟨ns, []⟩ :: rest)).filter (·.1 ≠ ns) = places rest := by
    have hstack := mt mem_trail_iff.mpr h
    rw [places, List.filter_cons_of_neg (by simp), filter_places_of_not_mem hstack]
  simp only [step, along, leave, hplaces]

theorem step_along_skip (hdone : i.target ∈ done) :
    (along done (⟨ns, i :: imports⟩ :: rest) edges).step modules =
      .ok (some (along done (⟨ns, imports⟩ :: rest) edges)) := by
  have hcontains : done.contains i.target = true := List.contains_iff_mem.mpr hdone
  simp only [step, along, hcontains, ↓reduceIte]
  rfl

theorem step_along_follow (hdone : i.target ∉ done) :
    (along done (⟨ns, i :: imports⟩ :: rest) edges).step modules =
      ((along done (⟨ns, i :: imports⟩ :: rest) edges).follow modules i
        (⟨ns, imports⟩ :: rest)).map some := by
  have hcontains : done.contains i.target = false := by simpa using hdone
  simp only [step, along, hcontains, Bool.false_eq_true, ↓reduceIte]

/-- An import that leads back into the path closes the cycle from its target on. -/
theorem step_along_cycle (hdone : i.target ∉ done) (hnodup : (trail rest ++ [ns]).Nodup)
    (hpath : i.target ∈ trail rest ++ [ns]) :
    (along done (⟨ns, i :: imports⟩ :: rest) edges).step modules =
      .error (.error (.importCycle
        ((trail rest ++ [ns]).drop ((trail rest ++ [ns]).idxOf i.target) ++ [i.target])
        ((edges.reverse ++ [i]).drop ((trail rest ++ [ns]).idxOf i.target)))) := by
  rw [← trail_cons ⟨ns, i :: imports⟩] at hnodup hpath
  have hlookup := lookup_places_of_mem_trail hnodup hpath
  rw [step_along_follow hdone]
  simp only [follow, along, hlookup, trail_cons]
  rw [List.map_drop, List.map_reverse, List.reverse_cons, List.map_cons, List.reverse_cons, trail]
  rfl

theorem step_along_unknown (hdone : i.target ∉ done) (hpath : i.target ∉ trail rest ++ [ns])
    (hm : moduleNamed? modules i.target = none) :
    (along done (⟨ns, i :: imports⟩ :: rest) edges).step modules =
      .error (.fault (.unknownModule i.target)) := by
  rw [← trail_cons ⟨ns, i :: imports⟩] at hpath
  have hlookup := lookup_places_of_not_mem_trail hpath
  rw [step_along_follow hdone]
  simp only [follow, along, hlookup, enter_eq_error hm]
  rfl

theorem step_along_enter {m : Module} (hdone : i.target ∉ done)
    (hpath : i.target ∉ trail rest ++ [ns]) (hm : moduleNamed? modules i.target = some m) :
    (along done (⟨ns, i :: imports⟩ :: rest) edges).step modules =
      .ok (some (along done (⟨i.target, m.imports⟩ :: ⟨ns, imports⟩ :: rest) (i :: edges))) := by
  rw [← trail_cons ⟨ns, i :: imports⟩] at hpath
  have hlookup := lookup_places_of_not_mem_trail hpath
  rw [step_along_follow hdone]
  simp only [follow, along, hlookup, enter_eq_ok hm]
  rfl

/-! ### Runs -/

/-- The search runs on from a frame by exploring its imports, and then leaves it. -/
def FrameExplored (modules : List Module) (ns : Namespace) (rest : List Frame)
    (edges : List Import) : Prop :=
  ∀ (imports : List Import) (done : List Namespace),
    (along done (⟨ns, imports⟩ :: rest) edges).run modules =
      depthFirstEach modules (trail rest ++ [ns]) edges.reverse imports done >>= fun done =>
        (along (ns :: done) rest edges.tail).run modules

/-- To take an import is to explore its target, and to go on without it. -/
theorem run_take (hnodup : (trail rest ++ [ns]).Nodup)
    (hbelow : ∀ m, i.target ∉ trail rest ++ [ns] → moduleNamed? modules i.target = some m →
      FrameExplored modules i.target (⟨ns, imports⟩ :: rest) (i :: edges)) :
    (along done (⟨ns, i :: imports⟩ :: rest) edges).run modules =
      depthFirst modules (trail rest ++ [ns]) (edges.reverse ++ [i]) i.target done >>= fun done =>
        (along done (⟨ns, imports⟩ :: rest) edges).run modules := by
  by_cases hdone : i.target ∈ done
  · rw [run_of_step_some (step_along_skip hdone), depthFirst_of_done hdone]
    rfl
  · -- Both searches look at what is done first, then at the path, and then for the module.
    by_cases hpath : i.target ∈ trail rest ++ [ns]
    · rw [run_of_step_error (step_along_cycle hdone hnodup hpath), depthFirst_of_path hdone hpath]
      rfl
    · cases hm : moduleNamed? modules i.target with
      | none =>
        rw [run_of_step_error (step_along_unknown hdone hpath hm),
          depthFirst_of_unknown hdone hpath hm]
        rfl
      | some m =>
        rw [run_of_step_some (step_along_enter hdone hpath hm), depthFirst_of_new hdone hpath hm,
          hbelow m hpath hm, trail_cons, List.reverse_cons]
        cases depthFirstEach modules (trail rest ++ [ns] ++ [i.target]) (edges.reverse ++ [i])
            m.imports done with
        | error failure => rfl
        | ok explored => rfl

/-- **To run on from a frame is to explore its imports in order**, and then to leave it. -/
theorem frameExplored (hnodup : (trail rest ++ [ns]).Nodup) :
    FrameExplored modules ns rest edges := by
  -- The induction is on how many modules are off the path: each target stands above fewer.
  induction hoff : modules.countP (·.ns ∉ trail rest ++ [ns]) using Nat.strong_induction_on
    generalizing ns rest edges with
  | _ off ih =>
    intro imports
    induction imports with
    | nil =>
      intro done
      rw [← List.concat_eq_append, List.nodup_concat] at hnodup
      obtain ⟨hns, -⟩ := hnodup
      rw [run_of_step_some (step_along_leave hns)]
      rfl
    | cons i imports ihimports =>
      intro done
      have hbelow : ∀ m, i.target ∉ trail rest ++ [ns] → moduleNamed? modules i.target = some m →
          FrameExplored modules i.target (⟨ns, imports⟩ :: rest) (i :: edges) := by
        intro m hpath hm
        have hlt := countP_not_mem_append_lt hpath hm
        rw [hoff] at hlt
        have hlonger : (trail rest ++ [ns] ++ [i.target]).Nodup := by
          rw [← List.concat_eq_append, List.nodup_concat]
          exact ⟨hpath, hnodup⟩
        rw [← trail_cons ⟨ns, imports⟩] at hlt hlonger
        exact ih _ hlt hlonger rfl
      rw [run_take hnodup hbelow, depthFirstEach, List.foldlM_cons, bind_assoc]
      exact bind_congr ihimports

/-! ### Visits -/

/-- **A visit is the recursive search** from an empty path, and it ends with an empty path. -/
theorem visit_resting (ns : Namespace) (done : List Namespace) :
    (resting done).visit modules ns = (depthFirst modules [] [] ns done).map resting := by
  rw [visit]
  by_cases hdone : ns ∈ done
  · have hcontains : (resting done).done.contains ns = true := List.contains_iff_mem.mpr hdone
    rw [if_pos hcontains, depthFirst_of_done hdone]
    rfl
  · have hcontains : ¬(resting done).done.contains ns = true := mt List.contains_iff_mem.mp hdone
    rw [if_neg hcontains]
    cases hm : moduleNamed? modules ns with
    | none =>
      rw [enter_eq_error hm, depthFirst_of_unknown hdone List.not_mem_nil hm]
      rfl
    | some m =>
      -- The root is the only frame, so nothing is left when it has been explored.
      have hframe : FrameExplored modules ns [] [] := frameExplored (List.nodup_singleton ns)
      rw [enter_eq_ok hm, depthFirst_of_new hdone List.not_mem_nil hm]
      refine (hframe m.imports done).trans ?_
      show depthFirstEach modules [ns] [] m.imports done >>= _ =
        ((depthFirstEach modules [ns] [] m.imports done).map _).map _
      cases depthFirstEach modules [ns] [] m.imports done with
      | error failure => rfl
      | ok explored => exact run_of_step_none rfl

/-- **The search with a stack of its own is the recursive search**, over whatever modules and from
whatever roots: it fails alike, or has the same modules done and nothing left on its path. -/
theorem visitAll_resting (roots done : List Namespace) :
    (resting done).visitAll modules roots =
      (depthFirstAll modules roots done).map resting := by
  induction roots generalizing done with
  | nil => rfl
  | cons ns rest ih =>
    rw [visitAll, visit_resting, depthFirstAll, List.foldlM_cons]
    cases depthFirst modules [] [] ns done with
    | error failure => rfl
    | ok explored => exact ih explored

end Search

end NameResolution
