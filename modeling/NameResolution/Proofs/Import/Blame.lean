import NameResolution.Proofs.Import.Cycle
import NameResolution.Proofs.Nodes

/-!
# What the gate blames

If the gate refuses a list of modules, then it blames headers or imports of them
(`blames_of_checkImports`), and at least one.  For a cycle this is because the path of the search is
a chain of imports: each module on it but the first one is there because of an import, and on top
comes the one that closes the cycle.
-/

namespace NameResolution

variable {modules : List Module}

namespace Search

/-- The imports along a path are imports of modules. -/
theorem Linked.mem_imports {stack : List Frame} {edges : List Import}
    (h : Linked modules stack edges) : ∀ i ∈ edges, ∃ m ∈ modules, i ∈ m.imports := by
  induction h with
  | nil => exact fun i hi => absurd hi List.not_mem_nil
  | single frame => exact fun i hi => absurd hi List.not_mem_nil
  | cons hm hns hi htarget _ ih => exact List.forall_mem_cons.mpr ⟨⟨_, hm, hi⟩, ih⟩

/-- There is one import between each module of a path and the next one. -/
theorem Linked.length_stack {frame : Frame} {rest : List Frame} {edges : List Import}
    (h : Linked modules (frame :: rest) edges) : (frame :: rest).length = edges.length + 1 := by
  induction rest generalizing frame edges with
  | nil =>
    cases h
    rfl
  | cons outer rest ih =>
    cases h with
    | cons hm hns hi htarget h =>
      rw [List.length_cons, ih h, List.length_cons]

/-- A place is one on the path. -/
theorem lt_length_of_lookup_places {stack : List Frame} {ns : Namespace} {place : Nat}
    (h : (places stack).lookup ns = some place) : place < stack.length := by
  induction stack with
  | nil => cases h
  | cons frame rest ih =>
    rw [places, List.lookup_cons] at h
    rw [List.length_cons]
    cases hns : ns == frame.ns with
    | true =>
      rw [hns] at h
      cases h
      omega
    | false =>
      rw [hns] at h
      have hrest := ih h
      omega

/-- **A cycle consists of imports**, at least one. -/
theorem Orderly.imports_of_cycle {search : Search} (h : Orderly modules search) {ns : Namespace}
    {i : Import} {imports : List Import} {rest : List Frame} {place : Nat}
    (hstack : search.stack = ⟨ns, i :: imports⟩ :: rest)
    (hpath : search.onPath.lookup i.target = some place) :
    (i :: search.edges).reverse.drop place ≠ [] ∧
      ∀ j ∈ (i :: search.edges).reverse.drop place, ∃ m ∈ modules, j ∈ m.imports := by
  have hlinked := h.linked
  rw [hstack] at hlinked
  constructor
  · have hplace : place < search.stack.length := by
      rw [h.places_eq] at hpath
      exact lt_length_of_lookup_places hpath
    rw [hstack, hlinked.length_stack] at hplace
    apply List.ne_nil_of_length_pos
    rw [List.length_drop, List.length_reverse, List.length_cons]
    omega
  · intro j hj
    have hj := List.mem_reverse.mp (List.mem_of_mem_drop hj)
    rcases List.mem_cons.mp hj with rfl | hj
    · obtain ⟨m, hm, -, hi⟩ := h.pending _ (hstack ▸ List.mem_cons_self) j List.mem_cons_self
      exact ⟨m, hm, hi⟩
    · exact hlinked.mem_imports j hj

end Search

/-! ### The gate -/

/-- The ids of imports of modules are nodes of the modules. -/
theorem map_id_subset_nodes {imports : List Import}
    (h : ∀ i ∈ imports, ∃ m ∈ modules, i ∈ m.imports) :
    imports.map Import.id ⊆ modules.flatMap Module.nodes := by
  intro id hid
  obtain ⟨i, hi, rfl⟩ := List.mem_map.mp hid
  obtain ⟨m, hm, himport⟩ := h i hi
  exact List.mem_flatMap.mpr ⟨m, hm, Module.import_mem_nodes himport⟩

/-- The error of the gate for a repeated namespace blames the modules that have it. -/
theorem blames_repeatedModule {m : Module} (h : repeatedModule? modules = some m) :
    (Error.repeatedModule m.ns (headersOf modules m.ns)).Blames (modules.flatMap Module.nodes) where
  ne_nil := by
    have hlength : 1 < (headersOf modules m.ns).length := by
      simpa using List.find?_some h
    apply List.ne_nil_of_length_pos
    show 0 < (headersOf modules m.ns).length
    omega
  subset := by
    intro id hid
    obtain ⟨other, hother, rfl⟩ := List.mem_map.mp hid
    have hmem := List.mem_of_mem_filter hother
    exact List.mem_flatMap.mpr ⟨other, hmem, List.mem_cons_self⟩

/-- The error of the gate for undefined imports blames these imports. -/
theorem blames_undefinedImports (h : undefinedImports modules ≠ []) :
    (Error.undefinedImports (undefinedImports modules)).Blames (modules.flatMap Module.nodes) where
  ne_nil := mt List.map_eq_nil_iff.mp h
  subset := by
    refine map_id_subset_nodes fun i hi => ?_
    exact List.mem_flatMap.mp (List.mem_of_mem_filter hi)

/-- The error of the search for a cycle blames the imports of that cycle. -/
theorem blames_of_visitAll (hrepeated : repeatedModule? modules = none) {e : Error}
    (h : Search.start.visitAll modules (modules.map Module.ns) = .error (.error e)) :
    e.Blames (modules.flatMap Module.nodes) := by
  have hends := Search.ends_visitAll modules
  rw [h] at hends
  obtain ⟨last, hreached, hstop⟩ := hends
  cases hstop with
  | cycle hstack _ hpath =>
    obtain ⟨hne, himports⟩ := (hreached.orderly hrepeated).imports_of_cycle hstack hpath
    exact ⟨mt List.map_eq_nil_iff.mp hne, map_id_subset_nodes himports⟩

/-- **The gate blames nodes of the modules.** -/
theorem blames_of_checkImports {e : Error} (h : checkImports modules = .error (.error e)) :
    e.Blames (modules.flatMap Module.nodes) := by
  rcases of_checkImports_eq_error h with ⟨m, hrepeated, hfailure⟩ | ⟨-, hundefined, hfailure⟩ |
    ⟨hrepeated, -, hresult⟩
  · cases hfailure
    exact blames_repeatedModule hrepeated
  · cases hfailure
    exact blames_undefinedImports hundefined
  · exact blames_of_visitAll hrepeated hresult

end NameResolution
