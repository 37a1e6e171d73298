import NameResolution.Proofs.Import.Blame
import Mathlib

/-!
# The cycle that the gate reports

If the gate refuses modules because of a cycle, then it says which one: a path of namespaces that
ends where it starts and meets no module twice before, with the import that leads from each module
of the path to the next one (`checkImports_cyclePath`).

The search reads both off its state, when an import leads back into its path.  With that import the
path is still linked, and as the path of the search grows at one end only, the k-th import from its
start is the one that leads on from the k-th module (`Search.Linked.edge`).  A reported cycle is
what remains of the path and of the imports without their first parts, which are equally long.
-/

namespace NameResolution

variable {modules : List Module}

/-- A cycle of imports without repetitions.  The path returns to where it starts, and `imports` has
the import by which it goes on from each module to the next one. -/
structure CyclePath (modules : List Module) (path : List Namespace) (imports : List Import) :
    Prop where
  two_le_length : 2 ≤ path.length
  head?_eq : path.head? = path.getLast?
  nodup : path.dropLast.Nodup
  subset : path.dropLast ⊆ modules.map Module.ns
  length_eq : path.length = imports.length + 1
  edge : ∀ (k : Nat) (i : Import), imports[k]? = some i →
    ∃ m, path[k]? = some m.ns ∧ moduleNamed? modules m.ns = some m ∧ i ∈ m.imports ∧
      path[k + 1]? = some i.target

namespace Search

variable {stack : List Frame} {edges : List Import}

/-! ### Paths from their starts -/

/-- The modules of a path, the first one of the path first. -/
def trail (stack : List Frame) : List Namespace := (stack.map Frame.ns).reverse

theorem trail_cons (frame : Frame) (rest : List Frame) :
    trail (frame :: rest) = trail rest ++ [frame.ns] :=
  List.reverse_cons

theorem length_trail (stack : List Frame) : (trail stack).length = stack.length := by
  rw [trail, List.length_reverse, List.length_map]

/-- Counted from the start of a path, its k-th import leads from its k-th module to the next. -/
theorem Linked.edge (h : Linked modules stack edges) {k : Nat} {i : Import}
    (hk : edges.reverse[k]? = some i) :
    ∃ m ∈ modules, (trail stack)[k]? = some m.ns ∧ i ∈ m.imports ∧
      (trail stack)[k + 1]? = some i.target := by
  induction h with
  | nil => cases hk
  | single frame => cases hk
  | @cons inner outer rest m j edges hm hns hj htarget h ih =>
    have hlength : (trail (outer :: rest)).length = edges.length + 1 := by
      rw [length_trail, h.length_stack]
    rw [List.reverse_cons] at hk
    rw [trail_cons inner]
    by_cases hlt : k < edges.length
    · rw [List.getElem?_append_left (by rwa [List.length_reverse])] at hk
      obtain ⟨m, hm, hsource, hi, hnext⟩ := ih hk
      refine ⟨m, hm, ?_, hi, ?_⟩
      · rw [List.getElem?_append_left (by omega), hsource]
      · rw [List.getElem?_append_left (by omega), hnext]
    · -- The last import leads from the last module but one to the last one.
      have hle : edges.reverse.length ≤ k := by rw [List.length_reverse]; omega
      rw [List.getElem?_append_right hle, List.getElem?_singleton] at hk
      split_ifs at hk with hzero
      cases hk
      rw [List.length_reverse] at hzero hle
      obtain rfl : k = edges.length := by omega
      refine ⟨m, hm, ?_, hj, ?_⟩
      · have hrest : edges.length = (trail rest).length := by
          rw [trail_cons, List.length_append, List.length_singleton] at hlength
          omega
        rw [List.getElem?_append_left (by omega), trail_cons, hrest, List.getElem?_concat_length,
          hns]
      · rw [← hlength, List.getElem?_concat_length, htarget]

/-- The place of a module is its place in the path. -/
theorem getElem?_trail_of_lookup_places {ns : Namespace} {place : Nat}
    (h : (places stack).lookup ns = some place) : (trail stack)[place]? = some ns := by
  induction stack with
  | nil => cases h
  | cons frame rest ih =>
    rw [places, List.lookup_cons] at h
    rw [trail_cons]
    cases hns : ns == frame.ns with
    | true =>
      rw [hns] at h
      cases h
      rw [← length_trail rest, List.getElem?_concat_length, beq_iff_eq.mp hns]
    | false =>
      rw [hns] at h
      have hlt := lt_length_of_lookup_places h
      rw [List.getElem?_append_left (by rwa [length_trail]), ih h]

/-- **A path that leads back into itself contains a cycle**, from the place of its last module
on. -/
theorem Linked.cyclePath {frame : Frame} {i : Import} {place : Nat}
    (h : Linked modules (frame :: stack) (i :: edges))
    (hrepeated : repeatedModule? modules = none) (hnodup : (trail stack).Nodup)
    (hplace : (trail stack)[place]? = some frame.ns) :
    CyclePath modules ((trail stack).drop place ++ [frame.ns])
      ((i :: edges).reverse.drop place) := by
  have hlength := h.length_stack
  rw [List.length_cons, ← length_trail stack, List.length_cons] at hlength
  have hlt : place < (trail stack).length := (List.getElem?_eq_some_iff.mp hplace).1
  have htrail : (trail stack).drop place ++ [frame.ns] = (trail (frame :: stack)).drop place := by
    rw [trail_cons, List.drop_append_of_le_length (Nat.le_of_lt hlt)]
  have hedge : ∀ (k : Nat) (j : Import), ((i :: edges).reverse.drop place)[k]? = some j →
      ∃ m, ((trail stack).drop place ++ [frame.ns])[k]? = some m.ns ∧
        moduleNamed? modules m.ns = some m ∧ j ∈ m.imports ∧
        ((trail stack).drop place ++ [frame.ns])[k + 1]? = some j.target := by
    intro k j hk
    rw [List.getElem?_drop] at hk
    obtain ⟨m, hm, hfrom, hj, hto⟩ := h.edge hk
    refine ⟨m, ?_, ?_, hj, ?_⟩
    · rw [htrail, List.getElem?_drop, hfrom]
    · obtain ⟨named, hnamed⟩ := Option.isSome_iff_exists.mp (moduleNamed?_isSome_of_mem hm)
      obtain ⟨hmem, hsame⟩ := moduleNamed?_eq_some hnamed
      rwa [eq_of_ns_eq hrepeated hmem hm hsame] at hnamed
    · rw [htrail, List.getElem?_drop, ← Nat.add_assoc, hto]
  refine ⟨?_, ?_, ?_, ?_, ?_, hedge⟩
  · rw [List.length_append, List.length_drop, List.length_singleton]
    omega
  · rw [List.getLast?_concat, List.head?_append, List.head?_drop, hplace, Option.some_or]
  · rw [List.dropLast_concat]
    exact hnodup.sublist (List.drop_sublist ..)
  · -- From each module but the last an import leads on.
    intro ns hns
    rw [List.dropLast_concat] at hns
    obtain ⟨k, hk⟩ := List.mem_iff_getElem?.mp hns
    have hkept := (List.getElem?_eq_some_iff.mp hk).1
    have hsome : k < ((i :: edges).reverse.drop place).length := by
      rw [List.length_drop] at hkept ⊢
      rw [List.length_reverse, List.length_cons]
      omega
    obtain ⟨m, hfrom, hm, -⟩ := hedge k _ (List.getElem?_eq_getElem hsome)
    rw [List.getElem?_append_left hkept, hk] at hfrom
    cases hfrom
    exact List.mem_map_of_mem (moduleNamed?_eq_some hm).1
  · rw [List.length_append, List.length_drop, List.length_singleton, List.length_drop,
      List.length_reverse, List.length_cons]
    omega

/-- **An import that leads back into the path closes a cycle**, which is reported from the module
on to which it leads. -/
theorem Orderly.cyclePath {search : Search} (h : Orderly modules search)
    (hrepeated : repeatedModule? modules = none) {ns : Namespace} {i : Import}
    {imports : List Import} {rest : List Frame} {place : Nat}
    (hstack : search.stack = ⟨ns, i :: imports⟩ :: rest)
    (hpath : search.onPath.lookup i.target = some place) :
    CyclePath modules
      (((⟨ns, imports⟩ :: rest).reverse.drop place).map Frame.ns ++ [i.target])
      ((i :: search.edges).reverse.drop place) := by
  obtain ⟨hplaces, hlinked, hpending, -, -, hnodup⟩ := h
  obtain ⟨m, hm, hns, hi⟩ := hpending _ (hstack ▸ List.mem_cons_self) i List.mem_cons_self
  rw [hplaces, hstack] at hpath
  rw [met, hstack] at hnodup
  rw [hstack] at hlinked
  have hclosed : Linked modules (⟨i.target, []⟩ :: ⟨ns, imports⟩ :: rest) (i :: search.edges) :=
    .cons hm hns hi rfl (hlinked.of_ns_eq rfl)
  have hcycle := hclosed.cyclePath hrepeated (List.nodup_reverse.mpr hnodup.of_append_left)
    (getElem?_trail_of_lookup_places hpath)
  rwa [trail, ← List.map_reverse, ← List.map_drop] at hcycle

end Search

/-! ### The gate -/

/-- **A cycle that the gate reports is one**: a path without repetitions back to where it starts,
and the import that leads on from each of its modules. -/
theorem checkImports_cyclePath {path : List Namespace} {imports : List Import}
    (h : checkImports modules = .error (.error (.importCycle path imports))) :
    CyclePath modules path imports := by
  rcases of_checkImports_eq_error h with ⟨m, -, hfailure⟩ | ⟨-, -, hfailure⟩ |
    ⟨hrepeated, -, hresult⟩
  · cases hfailure
  · cases hfailure
  · have hends := Search.ends_visitAll modules
    rw [hresult] at hends
    obtain ⟨last, hreached, hstop⟩ := hends
    cases hstop with
    | cycle hstack _ hpath => exact (hreached.orderly hrepeated).cyclePath hrepeated hstack hpath

/-- A cycle of two modules, behind a module outside of it and behind one that is done. -/
theorem checkImports_cyclePath_behind_root :
    let lib : Module := ⟨⟨0⟩, ⟨["Lib"]⟩, [], [], []⟩
    let main : Module := ⟨⟨1⟩, ⟨["Main"]⟩, [⟨⟨2⟩, ⟨["Lib"]⟩⟩, ⟨⟨3⟩, ⟨["A"]⟩⟩], [], []⟩
    let a : Module := ⟨⟨4⟩, ⟨["A"]⟩, [⟨⟨5⟩, ⟨["Lib"]⟩⟩, ⟨⟨6⟩, ⟨["B"]⟩⟩], [], []⟩
    let b : Module := ⟨⟨7⟩, ⟨["B"]⟩, [⟨⟨8⟩, ⟨["A"]⟩⟩], [], []⟩
    let modules := [main, lib, a, b]
    let path : List Namespace := [⟨["A"]⟩, ⟨["B"]⟩, ⟨["A"]⟩]
    let imports : List Import := [⟨⟨6⟩, ⟨["B"]⟩⟩, ⟨⟨8⟩, ⟨["A"]⟩⟩]
    checkImports modules = .error (.error (.importCycle path imports)) ∧
      CyclePath modules path imports := by
  intro lib main a b modules path imports
  have hcycle : checkImports modules = .error (.error (.importCycle path imports)) := by cbv
  exact ⟨hcycle, checkImports_cyclePath hcycle⟩

end NameResolution
