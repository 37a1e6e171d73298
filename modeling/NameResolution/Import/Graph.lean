import NameResolution.Error
import NameResolution.Lists.Count

/-!
# The import graph

`checkImports` admits the modules of a program to the further stages: their namespaces are distinct,
every import has a target, and no module reaches itself through imports.

The search for a cycle goes depth first, through the modules in order and through the imports of a
module in order.  It keeps its own stack, so that long chains of imports cost no depth of calls.
`Search.run` ends because every step takes an import from a frame, takes a frame from the stack, or
puts a module on the stack that the search had not met.
-/

namespace NameResolution

/-! ### Modules by namespace -/

/-- The headers of the modules with a namespace, in order. -/
def headersOf (modules : List Module) (ns : Namespace) : List NodeId :=
  (modules.filter (·.ns == ns)).map Module.id

/-- The first module whose namespace another module has too. -/
def repeatedModule? (modules : List Module) : Option Module :=
  modules.find? fun m => 1 < (headersOf modules m.ns).length

/-- The module with a namespace. -/
def moduleNamed? (modules : List Module) (ns : Namespace) : Option Module :=
  modules.find? (·.ns == ns)

/-- All imports whose target no module has, in order. -/
def undefinedImports (modules : List Module) : List Import :=
  (modules.flatMap Module.imports).filter fun i => (moduleNamed? modules i.target).isNone

/-! ### The search for a cycle -/

/-- A module on the current path, with the imports that are still to be followed. -/
structure Frame where
  ns : Namespace
  remaining : List Import

/-- The state of the search.  The stack holds the current path, innermost module first, and `edges`
the imports that lead from one module of the path to the next, last one first. -/
structure Search where
  /-- The modules from which no cycle can be reached. -/
  done : List Namespace
  /-- The place of each module on the path, counted from its start. -/
  onPath : List (Namespace × Nat)
  stack : List Frame
  edges : List Import

namespace Search

/-- Nothing met yet. -/
def start : Search := ⟨[], [], [], []⟩

/-- Puts a module at the end of the path. -/
def enter (modules : List Module) (ns : Namespace) (search : Search) : Except Fault Search :=
  match moduleNamed? modules ns with
  | none => .error (.unknownModule ns)
  | some m => .ok { search with
      onPath := (ns, search.stack.length) :: search.onPath
      stack := ⟨ns, m.imports⟩ :: search.stack }

/-- Takes the module `ns`, all of whose imports have been followed, from the path; `rest` is the
path without it. -/
def leave (ns : Namespace) (rest : List Frame) (search : Search) : Search where
  done := ns :: search.done
  onPath := search.onPath.filter (·.1 ≠ ns)
  stack := rest
  edges := search.edges.tail

/-- Follows an import to a module that is not done: `stack` is the path with the import taken from
its frame.  The import closes a cycle if its target lies on the path. -/
def follow (modules : List Module) (i : Import) (stack : List Frame) (search : Search) :
    Except Failure Search :=
  match search.onPath.lookup i.target with
  | some place =>
    .error (.error (.importCycle
      ((stack.reverse.drop place).map Frame.ns ++ [i.target])
      ((i :: search.edges).reverse.drop place)))
  | none =>
    match enter modules i.target { search with stack := stack, edges := i :: search.edges } with
    | .error fault => .error (.fault fault)
    | .ok entered => .ok entered

/-- One step; `none` if the path is empty. -/
def step (modules : List Module) (search : Search) : Except Failure (Option Search) :=
  match search.stack with
  | [] => .ok none
  | ⟨ns, []⟩ :: rest => .ok (some (search.leave ns rest))
  | ⟨ns, i :: imports⟩ :: rest =>
    if search.done.contains i.target then
      .ok (some { search with stack := ⟨ns, imports⟩ :: rest })
    else (search.follow modules i (⟨ns, imports⟩ :: rest)).map some

/-! ### The search ends -/

/-- How many modules have not been met. -/
def unmet (modules : List Module) (search : Search) : Nat :=
  modules.countP fun m => !(search.done.contains m.ns || (search.onPath.lookup m.ns).isSome)

/-- What is left to do for the modules on the path. -/
def work (search : Search) : Nat :=
  search.stack.foldr (fun frame rest => frame.remaining.length + 1 + rest) 0

/-- Entering a module that has not been met leaves fewer of them. -/
theorem unmet_lt_of_enter {modules : List Module} {ns : Namespace} (search : Search)
    {entered : Search} (hdone : search.done.contains ns = false)
    (hpath : search.onPath.lookup ns = none) (h : search.enter modules ns = .ok entered) :
    entered.unmet modules < search.unmet modules := by
  unfold enter at h
  split at h
  · cases h
  · rename_i m hm
    cases h
    have hns : m.ns = ns := by simpa using List.find?_some hm
    refine countP_lt_countP (fun other hother => ?_) (List.mem_of_find?_eq_some hm) ?_ ?_
    · simp only [Bool.not_or, Bool.and_eq_true, Bool.not_eq_true', List.lookup_cons] at hother ⊢
      refine ⟨hother.1, ?_⟩
      split at hother
      · simp at hother
      · exact hother.2
    · simp [hns]
    · simpa [hns, hpath] using hdone

/-- A module that is taken from the path stays met. -/
theorem unmet_leave_le (modules : List Module) (ns : Namespace) (rest : List Frame)
    (search : Search) : (search.leave ns rest).unmet modules ≤ search.unmet modules := by
  refine countP_le_countP (fun m hm => ?_) modules
  simp only [leave, Bool.not_or, Bool.and_eq_true, Bool.not_eq_true', List.contains_eq_mem,
    List.mem_cons, decide_eq_false_iff_not, not_or, Option.isSome_eq_false_iff,
    Option.isNone_iff_eq_none, List.lookup_eq_none_iff, List.mem_filter] at hm ⊢
  refine ⟨hm.1.2, fun entry hentry => ?_⟩
  by_cases heq : entry.1 = ns
  · simpa [heq] using hm.1.1
  · exact hm.2 entry ⟨hentry, by simpa using heq⟩

/-- Every step leaves less to do. -/
theorem lex_of_step {modules : List Module} {search next : Search}
    (h : search.step modules = .ok (some next)) :
    Prod.Lex (· < ·) (· < ·) (next.unmet modules, next.work)
      (search.unmet modules, search.work) := by
  unfold step at h
  split at h
  · cases h
  · rename_i ns rest hstack
    cases h
    rcases Nat.lt_or_eq_of_le (unmet_leave_le modules ns rest search) with hlt | heq
    · exact Prod.Lex.left _ _ hlt
    · rw [heq]
      exact Prod.Lex.right _ (by simp [work, leave, hstack])
  · rename_i ns i imports rest hstack
    split at h
    · cases h
      exact Prod.Lex.right _ (by simp [work, hstack])
    · rename_i hdone
      unfold follow at h
      split at h
      · cases h
      · rename_i hpath
        split at h
        · cases h
        · rename_i entered henter
          cases h
          exact Prod.Lex.left _ _
            (unmet_lt_of_enter
              ⟨search.done, search.onPath, ⟨ns, imports⟩ :: rest, i :: search.edges⟩
              (by simpa using hdone) hpath henter)

/-- Takes steps until the path is empty or a cycle is closed. -/
def run (modules : List Module) (search : Search) : Except Failure Search :=
  match _h : search.step modules with
  | .error failure => .error failure
  | .ok none => .ok search
  | .ok (some next) => run modules next
termination_by (search.unmet modules, search.work)
decreasing_by exact lex_of_step _h

/-- Searches from one module on, unless that has been done. -/
def visit (modules : List Module) (ns : Namespace) (search : Search) : Except Failure Search :=
  if search.done.contains ns then .ok search
  else
    match search.enter modules ns with
    | .error fault => .error (.fault fault)
    | .ok entered => run modules entered

/-- Searches from each of the namespaces, in order. -/
def visitAll (modules : List Module) (search : Search) : List Namespace → Except Failure Search
  | [] => .ok search
  | ns :: rest => do (← search.visit modules ns).visitAll modules rest

end Search

/-! ### The gate -/

/-- Admits the modules of a program, or says why not. -/
def checkImports (modules : List Module) : Except Failure Unit :=
  match repeatedModule? modules with
  | some m => .error (.error (.repeatedModule m.ns (headersOf modules m.ns)))
  | none =>
    if !(undefinedImports modules).isEmpty then
      .error (.error (.undefinedImports (undefinedImports modules)))
    else (Search.start.visitAll modules (modules.map Module.ns)).map fun _ => ()

end NameResolution
