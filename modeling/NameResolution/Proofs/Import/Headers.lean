import NameResolution.Proofs.Import.Search

/-!
# The gate reads headers

The gate sees of a module its id, its namespace and its imports.  Taking away the declarations of
all modules therefore changes no step of the search for a cycle (`Search.step_map_headerOnly`),
hence no run, and not the verdict (`checkImports_map_headerOnly`).
-/

namespace NameResolution

/-- A module without its declarations. -/
def Module.headerOnly (m : Module) : Module := { m with decls := [] }

variable (modules : List Module)

/-! ### Modules by namespace -/

theorem headersOf_map_headerOnly (ns : Namespace) :
    headersOf (modules.map Module.headerOnly) ns = headersOf modules ns := by
  rw [headersOf, headersOf, List.filter_map, List.map_map]
  rfl

theorem repeatedModule?_map_headerOnly :
    repeatedModule? (modules.map Module.headerOnly) =
      (repeatedModule? modules).map Module.headerOnly := by
  rw [repeatedModule?, repeatedModule?, List.find?_map]
  simp only [headersOf_map_headerOnly]
  rfl

theorem moduleNamed?_map_headerOnly (ns : Namespace) :
    moduleNamed? (modules.map Module.headerOnly) ns =
      (moduleNamed? modules ns).map Module.headerOnly := by
  rw [moduleNamed?, moduleNamed?, List.find?_map]
  rfl

theorem undefinedImports_map_headerOnly :
    undefinedImports (modules.map Module.headerOnly) = undefinedImports modules := by
  rw [undefinedImports, undefinedImports, List.flatMap_map]
  simp only [moduleNamed?_map_headerOnly, Option.isNone_map]
  rfl

/-! ### The search -/

namespace Search

variable (search : Search)

theorem enter_map_headerOnly (ns : Namespace) :
    search.enter (modules.map Module.headerOnly) ns = search.enter modules ns := by
  rw [enter, enter, moduleNamed?_map_headerOnly]
  cases moduleNamed? modules ns <;> rfl

theorem step_map_headerOnly :
    search.step (modules.map Module.headerOnly) = search.step modules := by
  -- A step asks for modules only when it enters one.
  unfold step follow
  simp only [enter_map_headerOnly]

/-- The same steps make the same run. -/
theorem run_map_headerOnly : search.run (modules.map Module.headerOnly) = search.run modules := by
  fun_induction run modules search with
  | case1 search failure hstep =>
    exact run_of_step_error (by rw [step_map_headerOnly, hstep])
  | case2 search hstep =>
    exact run_of_step_none (by rw [step_map_headerOnly, hstep])
  | case3 search next hstep ih =>
    have hsame : search.step (modules.map Module.headerOnly) = .ok (some next) := by
      rw [step_map_headerOnly, hstep]
    rw [run_of_step_some hsame, ih]

theorem visit_map_headerOnly (ns : Namespace) :
    search.visit (modules.map Module.headerOnly) ns = search.visit modules ns := by
  unfold visit
  simp only [enter_map_headerOnly, run_map_headerOnly]

theorem visitAll_map_headerOnly (roots : List Namespace) :
    search.visitAll (modules.map Module.headerOnly) roots = search.visitAll modules roots := by
  induction roots generalizing search with
  | nil => rfl
  | cons ns rest ih =>
    simp only [visitAll, visit_map_headerOnly, ih]

end Search

/-! ### The gate -/

/-- **The verdict of the gate does not depend on declarations.** -/
theorem checkImports_map_headerOnly :
    checkImports (modules.map Module.headerOnly) = checkImports modules := by
  have hroots : (modules.map Module.headerOnly).map Module.ns = modules.map Module.ns := by
    rw [List.map_map]
    rfl
  rw [checkImports, checkImports, undefinedImports_map_headerOnly,
    repeatedModule?_map_headerOnly, hroots, Search.visitAll_map_headerOnly]
  simp only [headersOf_map_headerOnly]
  cases repeatedModule? modules <;> rfl

end NameResolution
