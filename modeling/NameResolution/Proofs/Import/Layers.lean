import NameResolution.Proofs.Import.Closure
import Mathlib.Order.Lattice.Nat

/-!
# The order of the imports in reach

`Interfaces.distance` is the least number of re-exports that lead from the imports of a module to a
namespace.  The search goes by this distance: the imports of the module itself stand first, each of
the others is passed on by a module that stands before it, and no target stands before one that is
nearer (`Interfaces.Layered`).

Two facts about the pending imports carry this.  They differ by one re-export at most, and whatever
is not listed is farther than one of them (`Frontier.exists_pending`), hence farther than the first.
So what the first one passes on is new at exactly one re-export more, and belongs at the end.

No gate has to be passed for this.  Re-exports may go in circles, and `Interfaces.Broken` says when
the search ends with a fault (`Interfaces.reach_layered`).
-/

namespace NameResolution

/-! ### Chains of re-exports -/

/-- What can be reached from a module through an import and `n` re-exports one after the other. -/
inductive ReachedIn (interfaces : Interfaces) (ns : Namespace) : Nat → Namespace → Prop
  | imported {interface : Interface} {i : Import} (hget : interfaces.get? ns = some interface)
      (hi : i ∈ interface.imports) : ReachedIn interfaces ns 0 i.target
  | reexported {n : Nat} {via target : Namespace} {interface : Interface}
      (h : ReachedIn interfaces ns n via) (hget : interfaces.get? via = some interface)
      (htarget : target ∈ interface.reexports) : ReachedIn interfaces ns (n + 1) target

theorem inReach_iff_exists_reachedIn {interfaces : Interfaces} {ns target : Namespace} :
    InReach interfaces ns target ↔ ∃ n, ReachedIn interfaces ns n target := by
  constructor
  · intro h
    induction h with
    | imported hget hi => exact ⟨0, .imported hget hi⟩
    | reexported _ hget htarget ih =>
      obtain ⟨n, hn⟩ := ih
      exact ⟨n + 1, hn.reexported hget htarget⟩
  · rintro ⟨n, h⟩
    induction h with
    | imported hget hi => exact .imported hget hi
    | reexported _ hget htarget ih => exact ih.reexported hget htarget

namespace Interfaces

variable {interfaces : Interfaces} {ns : Namespace}

/-- The least number of re-exports through which a namespace is reached. -/
noncomputable def distance (interfaces : Interfaces) (ns target : Namespace) : Nat :=
  sInf {n | ReachedIn interfaces ns n target}

theorem distance_le {n : Nat} {target : Namespace} (h : ReachedIn interfaces ns n target) :
    interfaces.distance ns target ≤ n :=
  Nat.sInf_le h

theorem reachedIn_distance {target : Namespace} (h : InReach interfaces ns target) :
    ReachedIn interfaces ns (interfaces.distance ns target) target :=
  Nat.sInf_mem (inReach_iff_exists_reachedIn.mp h)

/-! ### What is not listed is farther -/

/-- Whatever is reached is listed, or is farther than some import that is pending. -/
theorem Frontier.exists_pending {visited pending : List Import}
    (h : Frontier interfaces ns visited pending) {n : Nat} {target : Namespace}
    (hreached : ReachedIn interfaces ns n target) :
    target ∈ (visited ++ pending).map Import.target ∨
      ∃ i ∈ pending, interfaces.distance ns i.target < n := by
  induction hreached with
  | imported hget hi => exact Or.inl (h.imported _ hget _ hi)
  | reexported hvia hget htarget ih =>
    rcases ih with hlisted | ⟨i, hi, hlt⟩
    · obtain ⟨i, hi, rfl⟩ := List.mem_map.mp hlisted
      rcases List.mem_append.mp hi with hi | hi
      · exact Or.inl (h.reexported i hi _ hget _ htarget)
      · exact Or.inr ⟨i, hi, Nat.lt_succ_of_le (distance_le hvia)⟩
    · exact Or.inr ⟨i, hi, Nat.lt_succ_of_lt hlt⟩

/-! ### The order of the search -/

/-- The module `via` passes `i` on: it re-exports the target, and `i` is its first import of it. -/
def PassesOn (interfaces : Interfaces) (via : Namespace) (i : Import) : Prop :=
  ∃ interface, interfaces.get? via = some interface ∧ i.target ∈ interface.reexports ∧
    interface.firstImport? i.target = some i

/-- Listed imports that begin with those of the module itself, `direct`.  Each of the others is
passed on by a module that stands before it, and the nearer ones stand first. -/
structure Ordered (interfaces : Interfaces) (ns : Namespace) (direct listed : List Import) :
    Prop where
  isPrefix : direct <+: listed
  passedOn : ∀ k i, listed[k]? = some i → direct.length ≤ k →
    ∃ j ∈ listed.take k, interfaces.PassesOn j.target i
  nearer : listed.Pairwise fun i j =>
    interfaces.distance ns i.target ≤ interfaces.distance ns j.target

/-- The imports that are new with `i`, which has been listed already. -/
theorem Ordered.append {direct listed new : List Import}
    (h : Ordered interfaces ns direct listed) {i : Import} (hi : i ∈ listed)
    (hpassed : ∀ j ∈ new, interfaces.PassesOn i.target j)
    (hdistance : ∀ j ∈ new, interfaces.distance ns j.target = interfaces.distance ns i.target + 1)
    (hnear : ∀ j ∈ listed,
      interfaces.distance ns j.target ≤ interfaces.distance ns i.target + 1) :
    Ordered interfaces ns direct (listed ++ new) where
  isPrefix := h.isPrefix.trans (List.prefix_append ..)
  passedOn := by
    intro k j hj hk
    by_cases hlt : k < listed.length
    · rw [List.getElem?_append_left hlt] at hj
      rw [List.take_append_of_le_length (Nat.le_of_lt hlt)]
      exact h.passedOn k j hj hk
    · have hle : listed.length ≤ k := Nat.le_of_not_lt hlt
      rw [List.getElem?_append_right hle] at hj
      refine ⟨i, ?_, hpassed j (List.mem_of_getElem? hj)⟩
      rw [List.take_append, List.take_of_length_le hle]
      exact List.mem_append_left _ hi
  nearer := by
    refine List.pairwise_append.mpr ⟨h.nearer, ?_, fun a ha b hb => ?_⟩
    · refine List.pairwise_of_forall_mem_list fun a ha b hb => ?_
      rw [hdistance a ha, hdistance b hb]
    · rw [hdistance b hb]
      exact hnear a ha

/-- The state of a search by distance: what is pending differs by one re-export at most. -/
structure Layers (interfaces : Interfaces) (ns : Namespace) (direct visited pending : List Import) :
    Prop where
  frontier : Frontier interfaces ns visited pending
  ordered : Ordered interfaces ns direct (visited ++ pending)
  span : ∀ i ∈ pending, ∀ j ∈ pending,
    interfaces.distance ns j.target ≤ interfaces.distance ns i.target + 1

namespace Layers

variable {direct visited pending rest : List Import}

/-- The imports of the module itself are reached without any re-export. -/
theorem start {interface : Interface} (hget : interfaces.get? ns = some interface) :
    Layers interfaces ns (newImports [] interface.imports) []
      (newImports [] interface.imports) := by
  have hzero : ∀ i ∈ newImports [] interface.imports, interfaces.distance ns i.target = 0 :=
    fun i hi => Nat.le_zero.mp (distance_le (.imported hget (mem_newImports hi).1))
  constructor
  · exact .start hget
  · constructor
    · exact List.prefix_refl _
    · intro k i hi hk
      rw [List.nil_append, List.getElem?_eq_none hk] at hi
      cases hi
    · refine List.pairwise_of_forall_mem_list fun i hi j _ => ?_
      rw [hzero i hi]
      exact Nat.zero_le _
  · intro i hi j hj
    rw [hzero j hj]
    exact Nat.zero_le _

/-- What stands first among the pending imports is nearest. -/
theorem distance_head_le {i : Import} (h : Layers interfaces ns direct visited (i :: rest))
    {j : Import} (hj : j ∈ i :: rest) :
    interfaces.distance ns i.target ≤ interfaces.distance ns j.target := by
  rcases List.mem_cons.mp hj with rfl | hj
  · exact Nat.le_refl _
  · have hpending := (List.pairwise_append.mp h.ordered.nearer).2.1
    exact (List.pairwise_cons.mp hpending).1 j hj

/-- **What is new with the first pending import is one re-export farther.** -/
theorem distance_new {i : Import} (h : Layers interfaces ns direct visited (i :: rest))
    {interface : Interface} (hget : interfaces.get? i.target = some interface) {target : Namespace}
    (htarget : target ∈ interface.reexports)
    (hnew : target ∉ (visited ++ i :: rest).map Import.target) :
    interfaces.distance ns target = interfaces.distance ns i.target + 1 := by
  have hi := h.frontier.sound i (List.mem_append_right _ List.mem_cons_self)
  have hreached := (reachedIn_distance hi).reexported hget htarget
  apply Nat.le_antisymm
  · exact distance_le hreached
  · -- The target is farther than something pending, and nothing pending is nearer than `i`.
    have hinReach := inReach_iff_exists_reachedIn.mpr ⟨_, hreached⟩
    obtain ⟨j, hj, hlt⟩ :=
      (h.frontier.exists_pending (reachedIn_distance hinReach)).resolve_left hnew
    have hle := h.distance_head_le hj
    omega

/-- Going on with the first pending import keeps the order. -/
theorem invariant : interfaces.Invariant (Layers interfaces ns direct) := by
  constructor
  intro visited rest passed i h hpassed
  obtain ⟨interface, hget, himports⟩ := exists_get?_of_passedOn hpassed
  have hmem := Interface.mem_importsOf himports
  have hdistance : ∀ j ∈ newImports (visited ++ i :: rest) passed,
      interfaces.distance ns j.target = interfaces.distance ns i.target + 1 := by
    intro j hj
    obtain ⟨hj, hlisted⟩ := mem_newImports hj
    refine h.distance_new hget (hmem j hj).1 fun htarget => ?_
    rw [any_target_iff.mpr htarget] at hlisted
    cases hlisted
  constructor
  · exact Frontier.invariant.step h.frontier hpassed
  · rw [listed_step]
    refine h.ordered.append (List.mem_append_right _ List.mem_cons_self) ?_ hdistance ?_
    · exact fun j hj => ⟨interface, hget, hmem j (mem_newImports hj).1⟩
    · intro j hj
      rcases List.mem_append.mp hj with hj | hj
      · have hnearer := (List.pairwise_append.mp h.ordered.nearer).2.2
        exact Nat.le_succ_of_le (hnearer j hj i List.mem_cons_self)
      · exact h.span i List.mem_cons_self j hj
  · intro a ha b hb
    have hlow : interfaces.distance ns i.target ≤ interfaces.distance ns a.target := by
      rcases List.mem_append.mp ha with ha | ha
      · exact h.distance_head_le (List.mem_cons_of_mem _ ha)
      · rw [hdistance a ha]
        exact Nat.le_succ _
    have hhigh : interfaces.distance ns b.target ≤ interfaces.distance ns i.target + 1 := by
      rcases List.mem_append.mp hb with hb | hb
      · exact h.span i List.mem_cons_self b (List.mem_cons_of_mem _ hb)
      · rw [hdistance b hb]
    omega

end Layers

/-! ### Faults -/

/-- What a search from `ns` must not meet: a namespace in reach without a module, or a module in
reach that re-exports what it does not import. -/
inductive Broken (interfaces : Interfaces) (ns : Namespace) : Prop
  | start (hget : interfaces.get? ns = none) : Broken interfaces ns
  | missing {via : Namespace} (h : InReach interfaces ns via) (hget : interfaces.get? via = none) :
      Broken interfaces ns
  | notImported {via target : Namespace} {interface : Interface} (h : InReach interfaces ns via)
      (hget : interfaces.get? via = some interface) (htarget : target ∈ interface.reexports)
      (himports : target ∉ interface.imports.map Import.target) : Broken interfaces ns

theorem broken_of_passedOn {via : Namespace} {fault : Fault} (h : InReach interfaces ns via)
    (hfault : interfaces.passedOn via = .error fault) : interfaces.Broken ns := by
  cases hget : interfaces.get? via with
  | none => exact .missing h hget
  | some interface =>
    by_contra hbroken
    -- A module that imports whatever it re-exports can pass it on.
    have hfirst : ∀ target ∈ interface.reexports, (interface.firstImport? target).isSome := by
      intro target htarget
      rw [Interface.firstImport?, List.find?_isSome]
      by_contra hnone
      refine hbroken (.notImported h hget htarget fun himports => hnone ?_)
      obtain ⟨i, hi, rfl⟩ := List.mem_map.mp himports
      exact ⟨i, hi, beq_self_eq_true _⟩
    obtain ⟨passed, hpassed⟩ := Interface.exists_importsOf_eq_ok hfirst
    rw [passedOn_of_get? hget, Interface.passedOn, hpassed] at hfault
    cases hfault

/-- Everything pending is in reach, so whatever the search fails at is in reach. -/
theorem broken_of_expand {visited pending : List Import} {fault : Fault}
    (hfrontier : Frontier interfaces ns visited pending)
    (h : interfaces.expand visited pending = .error fault) : interfaces.Broken ns := by
  obtain ⟨_, i, _, hreached, hpassed⟩ := Frontier.invariant.of_expand_eq_error hfrontier h
  exact broken_of_passedOn (hreached.sound i (List.mem_append_right _ List.mem_cons_self)) hpassed

/-- A search that ends has met nothing that it must not meet. -/
theorem not_broken_of_reach {reach : List Import} (h : interfaces.reach ns = .ok reach) :
    ¬interfaces.Broken ns := by
  have hpassedOn : ∀ via, InReach interfaces ns via →
      ∃ passed, interfaces.passedOn via = .ok passed := by
    intro via hvia
    obtain ⟨i, hi, rfl⟩ := List.mem_map.mp ((mem_targets_reach_iff h).mpr hvia)
    exact exists_passedOn_of_reach h i hi
  rintro (hget | ⟨hvia, hget⟩ | ⟨hvia, hget, htarget, himports⟩)
  · have hisSome := (get?_isSome_of_reach h).1
    rw [hget] at hisSome
    cases hisSome
  · obtain ⟨passed, hpassed⟩ := hpassedOn _ hvia
    obtain ⟨interface, hinterface, -⟩ := exists_get?_of_passedOn hpassed
    rw [hget] at hinterface
    cases hinterface
  · obtain ⟨passed, hpassed⟩ := hpassedOn _ hvia
    rw [← targets_of_passedOn hget hpassed] at htarget
    obtain ⟨i, hi, rfl⟩ := List.mem_map.mp htarget
    rw [passedOn_of_get? hget] at hpassed
    exact himports (List.mem_map_of_mem (Interface.mem_imports_of_importsOf hpassed i hi))

/-! ### The verdict -/

/-- The first import of each target, in order. -/
theorem append_newImports (listed imports : List Import) :
    listed ++ newImports listed imports =
      List.eraseDupsBy.loop (·.target == ·.target) imports listed.reverse := by
  induction imports generalizing listed with
  | nil => rw [newImports, List.append_nil, List.eraseDupsBy.loop, List.reverse_reverse]
  | cons i rest ih =>
    have hany : listed.reverse.any (i.target == ·.target) = listed.any (·.target == i.target) := by
      rw [List.any_reverse]
      exact congrArg listed.any (funext fun j => BEq.comm)
    rw [newImports, List.eraseDupsBy.loop, hany]
    cases listed.any (·.target == i.target) with
    | true => exact ih listed
    | false =>
      show listed ++ i :: newImports (listed ++ [i]) rest = _
      rw [List.append_cons, ih, List.reverse_append, List.reverse_singleton,
        List.singleton_append]

/-- What a search for the imports in reach of `ns` lists, and in which order. -/
structure Layered (interfaces : Interfaces) (ns : Namespace) (reach : List Import) : Prop where
  targets_iff : ∀ target, target ∈ reach.map Import.target ↔ InReach interfaces ns target
  nodup : (reach.map Import.target).Nodup
  ordered : ∃ interface, interfaces.get? ns = some interface ∧
    Ordered interfaces ns (interface.imports.eraseDupsBy (·.target == ·.target)) reach

theorem layered_of_reach {reach : List Import} (h : interfaces.reach ns = .ok reach) :
    interfaces.Layered ns reach where
  targets_iff _ := mem_targets_reach_iff h
  nodup := nodup_targets_reach h
  ordered := by
    obtain ⟨interface, hget, hexpand⟩ := reach_eq_ok_iff.mp h
    refine ⟨interface, hget, ?_⟩
    have hdirect := append_newImports [] interface.imports
    rw [List.eraseDupsBy, ← List.reverse_nil, ← hdirect]
    simpa using (Layers.invariant.of_expand_eq_ok (.start hget) hexpand).ordered

/-- **The imports in reach, in any table.**  The search faults iff it meets something broken; else
it lists what is in reach, each target once, the own imports of the module first and then what they
pass on, by distance. -/
theorem reach_layered (interfaces : Interfaces) (ns : Namespace) :
    ((∃ fault, interfaces.reach ns = .error fault) ↔ interfaces.Broken ns) ∧
      ∀ reach, interfaces.reach ns = .ok reach → interfaces.Layered ns reach := by
  refine ⟨⟨?_, fun hbroken => ?_⟩, fun reach => layered_of_reach⟩
  · rintro ⟨fault, h⟩
    rw [Interfaces.reach] at h
    rcases bind_eq_error_iff.mp h with hget | ⟨interface, hget, hexpand⟩
    · refine .start ?_
      by_contra hsome
      obtain ⟨interface, hinterface⟩ := Option.ne_none_iff_exists'.mp hsome
      rw [get_eq_ok_iff.mpr hinterface] at hget
      cases hget
    · exact broken_of_expand (.start (get_eq_ok_iff.mp hget)) hexpand
  · cases h : interfaces.reach ns with
    | error fault => exact ⟨fault, rfl⟩
    | ok reach => exact absurd hbroken (not_broken_of_reach h)

/-- `Base` and `Lib` re-export each other, and `Lib` is imported twice. -/
theorem reach_layered_circular :
    let base : Interface :=
      ⟨⟨["Base"]⟩, [⟨⟨4⟩, ⟨["Lib"]⟩⟩], [.reexport ⟨5⟩ ⟨["Lib"]⟩], []⟩
    let lib : Interface := ⟨⟨["Lib"]⟩, [⟨⟨6⟩, ⟨["Core"]⟩⟩, ⟨⟨7⟩, ⟨["Base"]⟩⟩],
      [.reexport ⟨8⟩ ⟨["Base"]⟩, .reexport ⟨9⟩ ⟨["Core"]⟩], []⟩
    let main : Interface := ⟨⟨["Main"]⟩, [⟨⟨1⟩, ⟨["Lib"]⟩⟩, ⟨⟨2⟩, ⟨["Lib"]⟩⟩], [], []⟩
    let interfaces : Interfaces := ⟨[main, lib, base, ⟨⟨["Core"]⟩, [], [], []⟩]⟩
    let reach : List Import := [⟨⟨1⟩, ⟨["Lib"]⟩⟩, ⟨⟨7⟩, ⟨["Base"]⟩⟩, ⟨⟨6⟩, ⟨["Core"]⟩⟩]
    interfaces.reach ⟨["Main"]⟩ = .ok reach ∧ interfaces.Layered ⟨["Main"]⟩ reach := by
  intro base lib main interfaces reach
  have hreach : interfaces.reach ⟨["Main"]⟩ = .ok reach := by cbv
  exact ⟨hreach, (reach_layered interfaces _).2 reach hreach⟩

end Interfaces

end NameResolution
