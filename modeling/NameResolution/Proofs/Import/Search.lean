import NameResolution.Import.Graph

/-!
# The states of the search for a cycle

`Search.Step` says all that a step can do, and `Search.Reached` collects the states that the search
comes to, over all roots.  Every way for the search to end is read off a reached state
(`visitAll_of_reached`), so a fact about the search is one induction over `Reached`.

The first such fact is safety: if every import has a target, then every import that a reached state
still has to follow has one (`Reached.mem_imports`), and the gate never faults
(`checkImports_ne_fault`).  What the gate admits is said by `checkImports_eq_ok_iff`.
-/

namespace NameResolution

/-- The module found under a namespace is one of the modules, and has that namespace. -/
theorem moduleNamed?_eq_some {modules : List Module} {ns : Namespace} {m : Module}
    (hm : moduleNamed? modules ns = some m) : m ∈ modules ∧ m.ns = ns :=
  ⟨List.mem_of_find?_eq_some hm, by simpa using List.find?_some hm⟩

namespace Search

variable {modules : List Module} {search next : Search}

/-! ### Steps -/

/-- The state after the module `m` has been put at the end of the path. -/
def entered (m : Module) (ns : Namespace) (search : Search) : Search :=
  { search with
    onPath := (ns, search.stack.length) :: search.onPath
    stack := ⟨ns, m.imports⟩ :: search.stack }

theorem enter_eq_ok {m : Module} {ns : Namespace} (hm : moduleNamed? modules ns = some m)
    (search : Search) : search.enter modules ns = .ok (search.entered m ns) := by
  rw [enter, hm]
  rfl

theorem enter_eq_error {ns : Namespace} (hm : moduleNamed? modules ns = none) (search : Search) :
    search.enter modules ns = .error (.unknownModule ns) := by
  rw [enter, hm]

/-- What a step can do to a path that is not empty. -/
inductive Step (modules : List Module) : Search → Search → Prop
  /-- All imports of the innermost module have been followed. -/
  | leave {search : Search} {ns : Namespace} {rest : List Frame}
      (hstack : search.stack = ⟨ns, []⟩ :: rest) :
      Step modules search (search.leave ns rest)
  /-- The target of the next import is done. -/
  | skip {search : Search} {ns : Namespace} {i : Import} {imports : List Import}
      {rest : List Frame} (hstack : search.stack = ⟨ns, i :: imports⟩ :: rest)
      (hdone : search.done.contains i.target = true) :
      Step modules search { search with stack := ⟨ns, imports⟩ :: rest }
  /-- The target of the next import has not been met. -/
  | enter {search : Search} {ns : Namespace} {i : Import} {imports : List Import}
      {rest : List Frame} {m : Module} (hstack : search.stack = ⟨ns, i :: imports⟩ :: rest)
      (hdone : search.done.contains i.target = false)
      (hpath : search.onPath.lookup i.target = none)
      (hm : moduleNamed? modules i.target = some m) :
      Step modules search (entered m i.target
        { search with stack := ⟨ns, imports⟩ :: rest, edges := i :: search.edges })

/-- Why a step can fail: the next import closes a cycle, or leads nowhere. -/
inductive Stop (modules : List Module) : Search → Failure → Prop
  | cycle {search : Search} {ns : Namespace} {i : Import} {imports : List Import}
      {rest : List Frame} {place : Nat} (hstack : search.stack = ⟨ns, i :: imports⟩ :: rest)
      (hdone : search.done.contains i.target = false)
      (hpath : search.onPath.lookup i.target = some place) :
      Stop modules search (.error (.importCycle
        (((⟨ns, imports⟩ :: rest).reverse.drop place).map Frame.ns ++ [i.target])
        ((i :: search.edges).reverse.drop place)))
  | unknown {search : Search} {ns : Namespace} {i : Import} {imports : List Import}
      {rest : List Frame} (hstack : search.stack = ⟨ns, i :: imports⟩ :: rest)
      (hm : moduleNamed? modules i.target = none) :
      Stop modules search (.fault (.unknownModule i.target))

/-- **All that a step can do.** -/
theorem step_spec (modules : List Module) (search : Search) :
    match search.step modules with
    | .ok none => search.stack = []
    | .ok (some next) => Step modules search next
    | .error failure => Stop modules search failure := by
  rw [step]
  cases hstack : search.stack with
  | nil => rfl
  | cons frame rest =>
    obtain ⟨ns, remaining⟩ := frame
    cases remaining with
    | nil => exact .leave hstack
    | cons i imports =>
      cases hdone : search.done.contains i.target with
      | true =>
        simp only [hdone, ↓reduceIte]
        exact .skip hstack hdone
      | false =>
        simp only [hdone, Bool.false_eq_true, ↓reduceIte, follow]
        cases hpath : search.onPath.lookup i.target with
        | some place => exact .cycle hstack hdone hpath
        | none =>
          cases hm : moduleNamed? modules i.target with
          | none =>
            simp only [enter_eq_error hm]
            exact .unknown hstack hm
          | some m =>
            simp only [enter_eq_ok hm]
            exact .enter hstack hdone hpath hm

/-! ### Runs -/

theorem run_of_step_none (h : search.step modules = .ok none) :
    search.run modules = .ok search := by
  rw [run]
  split <;> simp_all

theorem run_of_step_some (h : search.step modules = .ok (some next)) :
    search.run modules = next.run modules := by
  rw [run]
  split <;> simp_all

theorem run_of_step_error {failure : Failure} (h : search.step modules = .error failure) :
    search.run modules = .error failure := by
  rw [run]
  split <;> simp_all

/-- The states that the search comes to, from whatever roots. -/
inductive Reached (modules : List Module) : Search → Prop
  | start : Reached modules .start
  | root {search : Search} {ns : Namespace} {m : Module} (h : Reached modules search)
      (hstack : search.stack = []) (hdone : search.done.contains ns = false)
      (hm : moduleNamed? modules ns = some m) : Reached modules (search.entered m ns)
  | step {search next : Search} (h : Reached modules search) (hstep : Step modules search next) :
      Reached modules next

/-- How a search may end: at a reached state with an empty path, or where a step fails. -/
def Ends (modules : List Module) : Except Failure Search → Prop
  | .ok last => Reached modules last ∧ last.stack = []
  | .error failure => ∃ last, Reached modules last ∧ Stop modules last failure

theorem run_of_reached (h : Reached modules search) : Ends modules (search.run modules) := by
  fun_induction run modules search with
  | case1 search failure hstep =>
    have hspec := step_spec modules search
    rw [hstep] at hspec
    exact ⟨search, h, hspec⟩
  | case2 search hstep =>
    have hspec := step_spec modules search
    rw [hstep] at hspec
    exact ⟨h, hspec⟩
  | case3 search next hstep ih =>
    have hspec := step_spec modules search
    rw [hstep] at hspec
    exact ih (h.step hspec)

theorem visit_of_reached (h : Reached modules search) (hstack : search.stack = [])
    {ns : Namespace} (hns : (moduleNamed? modules ns).isSome) :
    Ends modules (search.visit modules ns) := by
  rw [visit]
  cases hdone : search.done.contains ns with
  | true => exact ⟨h, hstack⟩
  | false =>
    obtain ⟨m, hm⟩ := Option.isSome_iff_exists.mp hns
    simp only [enter_eq_ok hm]
    exact run_of_reached (h.root hstack hdone hm)

/-- **The search over all roots ends at a reached state.** -/
theorem visitAll_of_reached {roots : List Namespace} (h : Reached modules search)
    (hstack : search.stack = []) (hroots : ∀ ns ∈ roots, (moduleNamed? modules ns).isSome) :
    Ends modules (search.visitAll modules roots) := by
  induction roots generalizing search with
  | nil => exact ⟨h, hstack⟩
  | cons ns rest ih =>
    rw [visitAll]
    have hvisit := visit_of_reached h hstack (hroots ns List.mem_cons_self)
    cases hresult : search.visit modules ns with
    | error failure =>
      rw [hresult] at hvisit
      exact hvisit
    | ok last =>
      rw [hresult] at hvisit
      exact ih hvisit.1 hvisit.2 fun other hother => hroots other (List.mem_cons_of_mem _ hother)

/-! ### No import leads nowhere -/

/-- What a reached state still has to follow are imports of modules. -/
theorem Reached.mem_imports (h : Reached modules search) {frame : Frame}
    (hframe : frame ∈ search.stack) {i : Import} (hi : i ∈ frame.remaining) :
    ∃ m ∈ modules, i ∈ m.imports := by
  induction h generalizing frame with
  | start => exact absurd hframe List.not_mem_nil
  | @root search ns m _ hstack _ hm _ =>
    rw [entered, hstack] at hframe
    obtain rfl := List.mem_singleton.mp hframe
    exact ⟨m, (moduleNamed?_eq_some hm).1, hi⟩
  | step _ hstep ih =>
    cases hstep with
    | leave hstack => exact ih (hstack ▸ List.mem_cons_of_mem _ hframe) hi
    | skip hstack _ =>
      rcases List.mem_cons.mp hframe with rfl | hframe
      · exact ih (hstack ▸ List.mem_cons_self) (List.mem_cons_of_mem _ hi)
      · exact ih (hstack ▸ List.mem_cons_of_mem _ hframe) hi
    | @enter _ _ _ _ m hstack _ _ hm =>
      -- One more frame, with all imports of `m`, and one import less in the frame below it.
      rcases List.mem_cons.mp hframe with rfl | hframe
      · exact ⟨m, (moduleNamed?_eq_some hm).1, hi⟩
      · rcases List.mem_cons.mp hframe with rfl | hframe
        · exact ih (hstack ▸ List.mem_cons_self) (List.mem_cons_of_mem _ hi)
        · exact ih (hstack ▸ List.mem_cons_of_mem _ hframe) hi

end Search

/-! ### The gate -/

/-- Some module has the namespace of a module of the list. -/
theorem moduleNamed?_isSome_of_mem {modules : List Module} {m : Module} (hm : m ∈ modules) :
    (moduleNamed? modules m.ns).isSome := by
  rw [moduleNamed?, List.find?_isSome]
  exact ⟨m, hm, beq_self_eq_true m.ns⟩

/-- The search over all modules ends at a reached state, since all its roots are modules. -/
theorem Search.ends_visitAll (modules : List Module) :
    Ends modules (start.visitAll modules (modules.map Module.ns)) := by
  refine visitAll_of_reached .start rfl fun ns hns => ?_
  obtain ⟨m, hm, rfl⟩ := List.mem_map.mp hns
  exact moduleNamed?_isSome_of_mem hm

theorem undefinedImports_eq_nil_iff {modules : List Module} :
    undefinedImports modules = [] ↔
      ∀ m ∈ modules, ∀ i ∈ m.imports, (moduleNamed? modules i.target).isSome := by
  rw [undefinedImports, List.filter_eq_nil_iff]
  constructor
  · intro h m hm i hi
    have := h i (List.mem_flatMap.mpr ⟨m, hm, hi⟩)
    simpa [Option.isSome_iff_ne_none] using this
  · intro h i hi
    obtain ⟨m, hm, hi⟩ := List.mem_flatMap.mp hi
    simpa [Option.isSome_iff_ne_none] using h m hm i hi

/-- **What the gate admits** has distinct namespaces, a target for every import and no cycle. -/
theorem checkImports_eq_ok_iff {modules : List Module} :
    checkImports modules = .ok () ↔
      repeatedModule? modules = none ∧ undefinedImports modules = [] ∧
        ∃ last, Search.start.visitAll modules (modules.map Module.ns) = .ok last := by
  rw [checkImports]
  cases hrepeated : repeatedModule? modules with
  | some m => simp
  | none =>
    by_cases hdefined : undefinedImports modules = []
    · rw [hdefined]
      cases Search.start.visitAll modules (modules.map Module.ns) with
      | error failure => simp [Except.map]
      | ok last => simp [Except.map]
    · simp [hdefined]

/-- **What the gate refuses** has a repeated namespace, or else imports without a target, or else the
search fails. -/
theorem of_checkImports_eq_error {modules : List Module} {failure : Failure}
    (h : checkImports modules = .error failure) :
    (∃ m, repeatedModule? modules = some m ∧
      failure = .error (.repeatedModule m.ns (headersOf modules m.ns))) ∨
    repeatedModule? modules = none ∧ undefinedImports modules ≠ [] ∧
      failure = .error (.undefinedImports (undefinedImports modules)) ∨
    repeatedModule? modules = none ∧ undefinedImports modules = [] ∧
      Search.start.visitAll modules (modules.map Module.ns) = .error failure := by
  rw [checkImports] at h
  cases hrepeated : repeatedModule? modules with
  | some m =>
    rw [hrepeated] at h
    exact Or.inl ⟨m, rfl, (Except.error.inj h).symm⟩
  | none =>
    rw [hrepeated] at h
    by_cases hdefined : undefinedImports modules = []
    · rw [hdefined, if_neg (by simp)] at h
      refine Or.inr (Or.inr ⟨rfl, hdefined, ?_⟩)
      cases hresult : Search.start.visitAll modules (modules.map Module.ns) with
      | ok last =>
        rw [hresult] at h
        cases h
      | error other =>
        rw [hresult] at h
        cases h
        rfl
    · rw [if_pos (by simpa using hdefined)] at h
      exact Or.inr (Or.inl ⟨rfl, hdefined, (Except.error.inj h).symm⟩)

/-- If no namespace is repeated, a module is known by its namespace. -/
theorem eq_of_ns_eq {modules : List Module} (h : repeatedModule? modules = none) {a b : Module}
    (ha : a ∈ modules) (hb : b ∈ modules) (hns : a.ns = b.ns) : a = b := by
  have hlength : ¬1 < (headersOf modules b.ns).length := by
    simpa using List.find?_eq_none.mp h b hb
  have ha : a ∈ modules.filter (·.ns == b.ns) := List.mem_filter.mpr ⟨ha, by simpa using hns⟩
  have hb : b ∈ modules.filter (·.ns == b.ns) := List.mem_filter.mpr ⟨hb, by simp⟩
  rw [headersOf, List.length_map] at hlength
  generalize modules.filter (·.ns == b.ns) = found at ha hb hlength
  match found with
  | [] => cases ha
  | [m] => rw [List.mem_singleton.mp ha, List.mem_singleton.mp hb]
  | _ :: _ :: _ => simp at hlength

/-- **The gate admits a list of modules or names an error in it; it never faults.** -/
theorem checkImports_ne_fault (modules : List Module) (fault : Fault) :
    checkImports modules ≠ .error (.fault fault) := by
  intro h
  rcases of_checkImports_eq_error h with ⟨m, -, hfailure⟩ | ⟨-, -, hfailure⟩ |
    ⟨-, hdefined, hresult⟩
  · cases hfailure
  · cases hfailure
  · -- The search ends at a reached state or where a step fails.
    have hends := Search.ends_visitAll modules
    rw [hresult] at hends
    obtain ⟨last, hlast, hstop⟩ := hends
    cases hstop with
    | unknown hstack hm =>
      -- The import that leads nowhere was still to be followed, so some module has it.
      obtain ⟨m, hmem, hi⟩ :=
        hlast.mem_imports (hstack ▸ List.mem_cons_self) List.mem_cons_self
      have := undefinedImports_eq_nil_iff.mp hdefined m hmem _ hi
      rw [hm] at this
      cases this

end NameResolution
