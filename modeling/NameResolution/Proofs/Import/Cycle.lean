import NameResolution.Proofs.Import.Search
import Mathlib.Data.List.Nodup
import Mathlib.Logic.Relation

/-!
# The search finds a cycle if and only if there is one

A list of modules is `Cyclic` if one of them reaches itself by a chain of imports.  The search over
all modules succeeds exactly if the list is not, and otherwise reports a cycle
(`Search.decides_visitAll`).

Both directions rest on what holds in every reached state (`Search.Reached.orderly`).  The path is a
chain of imports, so an import that leads back into it closes a cycle.  The modules that are done
are `Settled`: each stands before everything that it imports, and no chain of imports can lead
forwards again.
-/

namespace NameResolution

/-! ### Chains of imports -/

/-- Some module `a` imports `b`. -/
def Imports (modules : List Module) (a b : Namespace) : Prop :=
  ∃ m ∈ modules, m.ns = a ∧ ∃ i ∈ m.imports, i.target = b

/-- Some module reaches itself by a chain of imports that is not empty. -/
def Cyclic (modules : List Module) : Prop :=
  ∃ m ∈ modules, Relation.TransGen (Imports modules) m.ns m.ns

variable {modules : List Module}

theorem cyclic_of_transGen {ns : Namespace} (h : Relation.TransGen (Imports modules) ns ns) :
    Cyclic modules := by
  obtain ⟨_, ⟨m, hm, rfl, -⟩, -⟩ := Relation.TransGen.head'_iff.mp h
  exact ⟨m, hm, h⟩

/-- The list holds all that its elements import, and each element stands before its imports. -/
inductive Settled (modules : List Module) : List Namespace → Prop
  | nil : Settled modules []
  | cons {ns : Namespace} {done : List Namespace} (hnew : ns ∉ done)
      (himports : ∀ target, Imports modules ns target → target ∈ done)
      (h : Settled modules done) : Settled modules (ns :: done)

namespace Settled

variable {done : List Namespace} {a b : Namespace}

theorem mem_of_imports (h : Settled modules done) (ha : a ∈ done) (hab : Imports modules a b) :
    b ∈ done := by
  induction h with
  | nil => cases ha
  | cons _ himports _ ih =>
    rcases List.mem_cons.mp ha with rfl | ha
    · exact List.mem_cons_of_mem _ (himports b hab)
    · exact List.mem_cons_of_mem _ (ih ha)

theorem mem_of_reflTransGen (h : Settled modules done) (ha : a ∈ done)
    (hab : Relation.ReflTransGen (Imports modules) a b) : b ∈ done := by
  induction hab with
  | refl => exact ha
  | tail _ hbc ih => exact h.mem_of_imports ih hbc

/-- **No chain of imports leads from a settled namespace back to it.** -/
theorem not_transGen (h : Settled modules done) (ha : a ∈ done) :
    ¬Relation.TransGen (Imports modules) a a := by
  induction h with
  | nil => cases ha
  | cons hnew himports h ih =>
    rcases List.mem_cons.mp ha with rfl | ha
    · -- The first import leads behind `a`, and from there no chain leads back to it.
      intro hcycle
      obtain ⟨target, htarget, hchain⟩ := Relation.TransGen.head'_iff.mp hcycle
      exact hnew (h.mem_of_reflTransGen (himports target htarget) hchain)
    · exact ih ha

end Settled

namespace Search

variable {search next : Search}

/-! ### Places on the path -/

/-- The place of each module of a path, counted from its start. -/
def places : List Frame → List (Namespace × Nat)
  | [] => []
  | frame :: rest => (frame.ns, rest.length) :: places rest

theorem map_fst_places (stack : List Frame) :
    (places stack).map Prod.fst = stack.map Frame.ns := by
  induction stack with
  | nil => rfl
  | cons frame rest ih => rw [places, List.map_cons, ih, List.map_cons]

theorem lookup_places_eq_none_iff {stack : List Frame} {ns : Namespace} :
    (places stack).lookup ns = none ↔ ns ∉ stack.map Frame.ns := by
  rw [List.lookup_eq_none_iff, ← map_fst_places, List.mem_map]
  constructor
  · rintro h ⟨entry, hentry, rfl⟩
    simpa using h entry hentry
  · intro h entry hentry
    simpa using fun hns => h ⟨entry, hentry, hns.symm⟩

theorem filter_places_of_not_mem {stack : List Frame} {ns : Namespace}
    (h : ns ∉ stack.map Frame.ns) : (places stack).filter (·.1 ≠ ns) = places stack := by
  rw [← map_fst_places] at h
  refine List.filter_eq_self.mpr fun entry hentry => ?_
  simpa using fun hns => h (List.mem_map.mpr ⟨entry, hentry, hns⟩)

/-! ### The path as a chain of imports -/

/-- Each module of a path is the target of an import of the one before it; the imports are listed
beside the path, last one first. -/
inductive Linked (modules : List Module) : (stack : List Frame) → (edges : List Import) → Prop
  | nil : Linked modules [] []
  | single (frame : Frame) : Linked modules [frame] []
  | cons {inner outer : Frame} {rest : List Frame} {m : Module} {i : Import} {edges : List Import}
      (hm : m ∈ modules) (hns : m.ns = outer.ns) (hi : i ∈ m.imports)
      (htarget : i.target = inner.ns) (h : Linked modules (outer :: rest) edges) :
      Linked modules (inner :: outer :: rest) (i :: edges)

namespace Linked

variable {frame : Frame} {rest : List Frame} {edges : List Import}

theorem tail (h : Linked modules (frame :: rest) edges) : Linked modules rest edges.tail := by
  cases h with
  | single => exact .nil
  | cons _ _ _ _ h => exact h

/-- Linking does not depend on what remains to be followed. -/
theorem of_ns_eq {other : Frame} (h : Linked modules (frame :: rest) edges)
    (hns : other.ns = frame.ns) : Linked modules (other :: rest) edges := by
  cases h with
  | single => exact .single other
  | cons hm houter hi htarget h => exact .cons hm houter hi (htarget.trans hns.symm) h

/-- The innermost module of a path is reached from every module of the path. -/
theorem reflTransGen (h : Linked modules (frame :: rest) edges) {outer : Frame}
    (houter : outer ∈ frame :: rest) :
    Relation.ReflTransGen (Imports modules) outer.ns frame.ns := by
  induction rest generalizing frame edges with
  | nil =>
    rw [List.mem_singleton.mp houter]
  | cons below rest ih =>
    rcases List.mem_cons.mp houter with rfl | houter
    · exact .refl
    · cases h with
      | cons hm hns hi htarget h => exact (ih h houter).tail ⟨_, hm, hns, _, hi, htarget⟩

end Linked

/-! ### What has been followed -/

/-- Every import of a module on the path remains to be followed, or leads to a module that is done,
or is the one by which the path goes on.  The path goes on with the namespaces `ahead`, of which
there is at most one. -/
def Explored (modules : List Module) (done : List Namespace) :
    (ahead : List Namespace) → (stack : List Frame) → Prop
  | _, [] => True
  | ahead, frame :: rest =>
    (∀ target, Imports modules frame.ns target →
      target ∈ frame.remaining.map Import.target ∨ target ∈ ahead ++ done) ∧
    Explored modules done [frame.ns] rest

/-- What is done, stays done; and what lies ahead may be done by now. -/
theorem Explored.mono {done done' ahead ahead' : List Namespace} {stack : List Frame}
    (h : Explored modules done ahead stack) (hahead : ahead ++ done ⊆ ahead' ++ done')
    (hdone : done ⊆ done') : Explored modules done' ahead' stack := by
  induction stack generalizing ahead ahead' with
  | nil => trivial
  | cons frame rest ih =>
    obtain ⟨hframe, hrest⟩ := h
    refine ⟨fun target htarget => (hframe target htarget).imp_right fun h => hahead h, ?_⟩
    refine ih hrest (List.append_subset.mpr ⟨List.subset_append_left .., ?_⟩)
    exact List.subset_append_of_subset_right _ hdone

/-! ### Reached states -/

/-- The modules that have been met: those on the path, and those that are done. -/
def met (search : Search) : List Namespace := search.stack.map Frame.ns ++ search.done

/-- What holds in every reached state. -/
structure Orderly (modules : List Module) (search : Search) : Prop where
  places_eq : search.onPath = places search.stack
  linked : Linked modules search.stack search.edges
  pending : ∀ frame ∈ search.stack, ∀ i ∈ frame.remaining,
    ∃ m ∈ modules, m.ns = frame.ns ∧ i ∈ m.imports
  explored : Explored modules search.done [] search.stack
  settled : Settled modules search.done
  nodup : search.met.Nodup

namespace Orderly

theorem start : Orderly modules .start where
  places_eq := rfl
  linked := .nil
  pending _ h := absurd h List.not_mem_nil
  explored := trivial
  settled := .nil
  nodup := List.nodup_nil

/-- Only a module that has not been met is put on the path. -/
theorem not_mem_met (h : Orderly modules search) {ns : Namespace}
    (hpath : search.onPath.lookup ns = none) (hdone : search.done.contains ns = false) :
    ns ∉ search.met := by
  rw [h.places_eq, lookup_places_eq_none_iff] at hpath
  rw [met, List.mem_append, not_or]
  exact ⟨hpath, by simpa using hdone⟩

/-- A module that is put at the end of the path has followed none of its imports. -/
theorem entered {m : Module} {ns : Namespace} (ahead : List Namespace)
    (hrepeated : repeatedModule? modules = none) (hm : moduleNamed? modules ns = some m)
    (hplaces : search.onPath = places search.stack)
    (hlinked : ∀ remaining, Linked modules (⟨ns, remaining⟩ :: search.stack) search.edges)
    (hpending : ∀ frame ∈ search.stack, ∀ i ∈ frame.remaining,
      ∃ m ∈ modules, m.ns = frame.ns ∧ i ∈ m.imports)
    (hexplored : Explored modules search.done ahead search.stack) (hahead : ahead ⊆ [ns])
    (hsettled : Settled modules search.done) (hnodup : search.met.Nodup)
    (hnew : ns ∉ search.met) : Orderly modules (search.entered m ns) where
  places_eq := by rw [Search.entered, hplaces, places]
  linked := hlinked m.imports
  pending := by
    obtain ⟨hmem, hns⟩ := moduleNamed?_eq_some hm
    intro frame hframe
    rcases List.mem_cons.mp hframe with rfl | hframe
    · exact fun i hi => ⟨m, hmem, hns, hi⟩
    · exact hpending frame hframe
  explored := by
    refine ⟨fun target htarget => Or.inl ?_, ?_⟩
    · -- There is no other module of that namespace.
      obtain ⟨other, hother, hns, i, hi, rfl⟩ := htarget
      obtain ⟨hmem, hfound⟩ := moduleNamed?_eq_some hm
      obtain rfl := eq_of_ns_eq hrepeated hother hmem (hns.trans hfound.symm)
      exact List.mem_map_of_mem hi
    · refine hexplored.mono (List.append_subset.mpr ⟨?_, ?_⟩) (List.Subset.refl _)
      · exact List.subset_append_of_subset_left _ hahead
      · exact List.subset_append_right ..
  settled := hsettled
  nodup := List.nodup_cons.mpr ⟨hnew, hnodup⟩

/-- A module that leaves the path stands before all that it imports. -/
theorem leave (h : Orderly modules search) {ns : Namespace} {rest : List Frame}
    (hstack : search.stack = ⟨ns, []⟩ :: rest) : Orderly modules (search.leave ns rest) := by
  obtain ⟨hplaces, hlinked, hpending, hexplored, hsettled, hnodup⟩ := h
  rw [met, hstack, List.map_cons, List.cons_append] at hnodup
  rw [hstack] at hplaces hlinked hpending hexplored
  have hnew := (List.nodup_cons.mp hnodup).1
  rw [List.mem_append, not_or] at hnew
  refine ⟨?_, hlinked.tail, ?_, ?_, ?_, ?_⟩
  · rw [Search.leave, hplaces, places, List.filter_cons_of_neg (by simp),
      filter_places_of_not_mem hnew.1]
  · exact fun frame hframe => hpending frame (List.mem_cons_of_mem _ hframe)
  · -- The module that lay ahead is done now.
    exact hexplored.2.mono (List.Subset.refl _) (List.subset_cons_self ..)
  · refine .cons hnew.2 (fun target htarget => ?_) hsettled
    rcases hexplored.1 target htarget with hremaining | hdone
    · cases hremaining
    · exact hdone
  · exact (List.perm_middle.nodup_iff).mpr hnodup

/-- An import that leads to a module that is done needs no more following. -/
theorem skip (h : Orderly modules search) {ns : Namespace} {i : Import} {imports : List Import}
    {rest : List Frame} (hstack : search.stack = ⟨ns, i :: imports⟩ :: rest)
    (hdone : search.done.contains i.target = true) :
    Orderly modules { search with stack := ⟨ns, imports⟩ :: rest } := by
  obtain ⟨hplaces, hlinked, hpending, hexplored, hsettled, hnodup⟩ := h
  rw [met, hstack] at hnodup
  rw [hstack] at hplaces hlinked hpending hexplored
  refine ⟨hplaces, hlinked.of_ns_eq rfl, ?_, ⟨fun target htarget => ?_, hexplored.2⟩, hsettled,
    hnodup⟩
  · intro frame hframe j hj
    rcases List.mem_cons.mp hframe with rfl | hframe
    · exact hpending _ List.mem_cons_self j (List.mem_cons_of_mem _ hj)
    · exact hpending frame (List.mem_cons_of_mem _ hframe) j hj
  · rcases hexplored.1 target htarget with hremaining | hmem
    · rcases List.mem_cons.mp hremaining with rfl | hremaining
      · exact Or.inr (List.contains_iff_mem.mp hdone)
      · exact Or.inl hremaining
    · exact Or.inr hmem

/-- The import that is followed links the path to its new end. -/
theorem enter (h : Orderly modules search) (hrepeated : repeatedModule? modules = none)
    {ns : Namespace} {i : Import} {imports : List Import} {rest : List Frame} {m : Module}
    (hstack : search.stack = ⟨ns, i :: imports⟩ :: rest)
    (hdone : search.done.contains i.target = false)
    (hpath : search.onPath.lookup i.target = none) (hm : moduleNamed? modules i.target = some m) :
    Orderly modules (Search.entered m i.target
      { search with stack := ⟨ns, imports⟩ :: rest, edges := i :: search.edges }) := by
  have hnew := h.not_mem_met hpath hdone
  obtain ⟨hplaces, hlinked, hpending, hexplored, hsettled, hnodup⟩ := h
  rw [met, hstack] at hnodup hnew
  rw [hstack] at hplaces hlinked hpending hexplored
  obtain ⟨source, hsource, hns, hi⟩ := hpending _ List.mem_cons_self i List.mem_cons_self
  refine entered [i.target] hrepeated hm hplaces ?_ ?_ ⟨?_, hexplored.2⟩
    (List.Subset.refl _) hsettled hnodup hnew
  · exact fun remaining => .cons hsource hns hi rfl (hlinked.of_ns_eq rfl)
  · intro frame hframe j hj
    rcases List.mem_cons.mp hframe with rfl | hframe
    · exact hpending _ List.mem_cons_self j (List.mem_cons_of_mem _ hj)
    · exact hpending frame (List.mem_cons_of_mem _ hframe) j hj
  · intro target htarget
    rcases hexplored.1 target htarget with hremaining | hmem
    · rcases List.mem_cons.mp hremaining with rfl | hremaining
      · exact Or.inr List.mem_cons_self
      · exact Or.inl hremaining
    · exact Or.inr (List.mem_cons_of_mem _ hmem)

/-- The path to a root is empty. -/
theorem root (h : Orderly modules search) (hrepeated : repeatedModule? modules = none)
    {ns : Namespace} {m : Module} (hstack : search.stack = [])
    (hdone : search.done.contains ns = false) (hm : moduleNamed? modules ns = some m) :
    Orderly modules (search.entered m ns) := by
  have hnew : ns ∉ search.met := by
    rw [met, hstack]
    simpa using hdone
  obtain ⟨hplaces, hlinked, hpending, hexplored, hsettled, hnodup⟩ := h
  refine entered [] hrepeated hm hplaces (fun remaining => ?_) hpending hexplored
    (List.nil_subset _) hsettled hnodup hnew
  rw [hstack] at hlinked ⊢
  generalize search.edges = edges at hlinked ⊢
  cases hlinked
  exact .single _

end Orderly

/-- **Every reached state is orderly.** -/
theorem Reached.orderly (hrepeated : repeatedModule? modules = none)
    (h : Reached modules search) : Orderly modules search := by
  induction h with
  | start => exact .start
  | root _ hstack hdone hm ih => exact ih.root hrepeated hstack hdone hm
  | step _ hstep ih =>
    cases hstep with
    | leave hstack => exact ih.leave hstack
    | skip hstack hdone => exact ih.skip hstack hdone
    | enter hstack hdone hpath hm => exact ih.enter hrepeated hstack hdone hpath hm

/-! ### What has been met stays met -/

theorem Step.met_subset (h : Step modules search next) : search.met ⊆ next.met := by
  cases h with
  | leave hstack =>
    rw [met, hstack]
    exact List.perm_middle.symm.subset
  | skip hstack _ =>
    rw [met, hstack]
    exact List.Subset.refl _
  | enter hstack _ _ _ =>
    rw [met, hstack]
    exact List.subset_cons_self ..

theorem met_subset_of_run {last : Search} (h : search.run modules = .ok last) :
    search.met ⊆ last.met := by
  fun_induction run modules search with
  | case1 search failure hstep => cases h
  | case2 search hstep =>
    cases h
    exact List.Subset.refl _
  | case3 search next hstep ih =>
    have hspec := step_spec modules search
    rw [hstep] at hspec
    exact List.Subset.trans hspec.met_subset (ih h)

theorem met_of_visit {ns : Namespace} {last : Search} (h : search.visit modules ns = .ok last) :
    search.met ⊆ last.met ∧ ns ∈ last.met := by
  rw [visit] at h
  cases hdone : search.done.contains ns with
  | true =>
    rw [if_pos hdone] at h
    cases h
    exact ⟨List.Subset.refl _, List.mem_append_right _ (List.contains_iff_mem.mp hdone)⟩
  | false =>
    rw [if_neg (by simpa using hdone)] at h
    cases hm : moduleNamed? modules ns with
    | none =>
      rw [enter_eq_error hm] at h
      cases h
    | some m =>
      rw [enter_eq_ok hm] at h
      have hrun := met_subset_of_run h
      exact ⟨List.Subset.trans (List.subset_cons_self ..) hrun, hrun List.mem_cons_self⟩

/-- A search over many roots meets all of them. -/
theorem met_of_visitAll {roots : List Namespace} {last : Search}
    (h : search.visitAll modules roots = .ok last) :
    search.met ⊆ last.met ∧ roots ⊆ last.met := by
  induction roots generalizing search with
  | nil =>
    cases h
    exact ⟨List.Subset.refl _, List.nil_subset _⟩
  | cons ns rest ih =>
    rw [visitAll] at h
    cases hvisit : search.visit modules ns with
    | error failure =>
      rw [hvisit] at h
      cases h
    | ok next =>
      rw [hvisit] at h
      obtain ⟨hmet, hns⟩ := met_of_visit hvisit
      obtain ⟨hnext, hrest⟩ := ih h
      exact ⟨List.Subset.trans hmet hnext, List.cons_subset.mpr ⟨hnext hns, hrest⟩⟩

/-! ### How the search ends -/

/-- An import that leads back into the path closes a cycle. -/
theorem Orderly.cyclic (h : Orderly modules search) {ns : Namespace} {i : Import}
    {imports : List Import} {rest : List Frame} {place : Nat}
    (hstack : search.stack = ⟨ns, i :: imports⟩ :: rest)
    (hpath : search.onPath.lookup i.target = some place) : Cyclic modules := by
  have hmem : i.target ∈ search.stack.map Frame.ns := by
    by_contra hnot
    rw [h.places_eq, lookup_places_eq_none_iff.mpr hnot] at hpath
    cases hpath
  obtain ⟨outer, houter, hns⟩ := List.mem_map.mp hmem
  obtain ⟨m, hm, hsource, hi⟩ :=
    h.pending _ (hstack ▸ List.mem_cons_self) i List.mem_cons_self
  have hlinked := h.linked
  rw [hstack] at hlinked houter
  have hclosing : Imports modules ns outer.ns := ⟨m, hm, hsource, i, hi, hns.symm⟩
  exact cyclic_of_transGen (.tail' (hlinked.reflTransGen houter) hclosing)

/-- What a search over all modules finds out. -/
def Decides (modules : List Module) : Except Failure Search → Prop
  | .ok _ => ¬Cyclic modules
  | .error failure =>
    Cyclic modules ∧ ∃ path imports, failure = .error (.importCycle path imports)

/-- **The search over all modules succeeds if and only if there is no cycle**, and otherwise ends
with one. -/
theorem decides_visitAll (hrepeated : repeatedModule? modules = none)
    (hdefined : undefinedImports modules = []) :
    Decides modules (start.visitAll modules (modules.map Module.ns)) := by
  have hends := ends_visitAll modules
  cases hresult : start.visitAll modules (modules.map Module.ns) with
  | ok last =>
    rw [hresult] at hends
    obtain ⟨hreached, hstack⟩ := hends
    -- The path is empty, so all modules have been met only if all are done.
    have hdone : modules.map Module.ns ⊆ last.done := by
      have hmet := (met_of_visitAll hresult).2
      rwa [met, hstack] at hmet
    rintro ⟨m, hm, hcycle⟩
    exact (hreached.orderly hrepeated).settled.not_transGen (hdone (List.mem_map_of_mem hm)) hcycle
  | error failure =>
    rw [hresult] at hends
    obtain ⟨last, hreached, hstop⟩ := hends
    have horderly := hreached.orderly hrepeated
    cases hstop with
    | cycle hstack _ hpath => exact ⟨horderly.cyclic hstack hpath, _, _, rfl⟩
    | unknown hstack hm =>
      -- The import that leads nowhere was still to be followed, so some module has it.
      obtain ⟨m, hmem, -, hi⟩ :=
        horderly.pending _ (hstack ▸ List.mem_cons_self) _ List.mem_cons_self
      have := undefinedImports_eq_nil_iff.mp hdefined m hmem _ hi
      rw [hm] at this
      cases this

end Search

end NameResolution
