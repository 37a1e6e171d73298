import NameResolution.Name
import Mathlib.Data.List.Induction

/-!
# Nesting of namespaces

`Namespace.encloses` is the order of initial parts: `encloses_refl`, `encloses_trans`,
`encloses_antisymm`.  A child is enclosed by exactly the child itself and what encloses its parent
(`encloses_child_iff`), and `outward` visits a child first and then what its parent visits
(`outward_child`).  So whatever lies inside a namespace is reached from it child by child
(`encloses_induction`), and the way outward back to it grows by one namespace with each child
(`takeWhile_outward_child`).
-/

namespace NameResolution.Namespace

/-! ### `encloses` as an order -/

theorem encloses_iff {outer inner : Namespace} :
    outer.encloses inner = true ↔ outer.segments <+: inner.segments :=
  List.isPrefixOf_iff_prefix

@[simp] theorem encloses_refl (ns : Namespace) : ns.encloses ns = true :=
  encloses_iff.mpr (List.prefix_refl _)

/-- The empty namespace encloses everything. -/
@[simp] theorem empty_encloses (ns : Namespace) : empty.encloses ns = true :=
  encloses_iff.mpr List.nil_prefix

theorem encloses_trans {a b c : Namespace} (hab : a.encloses b = true)
    (hbc : b.encloses c = true) : a.encloses c = true :=
  encloses_iff.mpr ((encloses_iff.mp hab).trans (encloses_iff.mp hbc))

theorem encloses_antisymm {a b : Namespace} (hab : a.encloses b = true)
    (hba : b.encloses a = true) : a = b := by
  have hsegments : a.segments = b.segments := by
    refine (encloses_iff.mp hab).eq_of_length_le ?_
    exact (encloses_iff.mp hba).length_le
  cases a; cases b; cases hsegments; rfl

/-- Of two namespaces around a third one the shorter one encloses the other. -/
theorem encloses_of_length_le {a b inner : Namespace} (ha : a.encloses inner = true)
    (hb : b.encloses inner = true) (hlength : a.length ≤ b.length) : a.encloses b = true :=
  encloses_iff.mpr
    (List.prefix_of_prefix_length_le (encloses_iff.mp ha) (encloses_iff.mp hb) hlength)

/-! ### Children -/

theorem encloses_child_iff {outer inner : Namespace} {segment : String} :
    outer.encloses (inner.child segment) = true ↔
      outer = inner.child segment ∨ outer.encloses inner = true := by
  rw [encloses_iff, encloses_iff, child, List.prefix_concat_iff]
  cases outer
  simp

theorem encloses_child (ns : Namespace) (segment : String) :
    ns.encloses (ns.child segment) = true :=
  encloses_child_iff.mpr (Or.inr (encloses_refl ns))

/-- A child is longer than everything that encloses its parent. -/
theorem ne_child_of_encloses {outer inner : Namespace} (h : outer.encloses inner = true)
    (segment : String) : inner.child segment ≠ outer := by
  rintro rfl
  have hlength := (encloses_iff.mp h).length_le
  rw [child, List.length_append, List.length_singleton] at hlength
  omega

theorem length_le_of_encloses {outer inner : Namespace} (h : outer.encloses inner = true) :
    outer.length ≤ inner.length :=
  (encloses_iff.mp h).length_le

theorem length_child (ns : Namespace) (segment : String) :
    (ns.child segment).length = ns.length + 1 := by
  rw [length, child, List.length_append, List.length_singleton, length]

theorem child_inj {a b : Namespace} {s t : String} :
    a.child s = b.child t ↔ a = b ∧ s = t := by
  cases a; cases b
  rw [child, child, mk.injEq, mk.injEq, List.append_singleton_inj]

/-- What holds of a namespace, and of the children of whatever inside it it holds of, holds of
everything inside it. -/
theorem encloses_induction {owner : Namespace}
    {motive : (ns : Namespace) → owner.encloses ns = true → Prop}
    (self : motive owner (encloses_refl owner))
    (child : ∀ ns segment (h : owner.encloses ns = true), motive ns h →
      motive (ns.child segment) (encloses_trans h (encloses_child ns segment)))
    {ns : Namespace} (h : owner.encloses ns = true) : motive ns h := by
  suffices hinside : ∀ (inside : List String)
      (h : owner.encloses ⟨owner.segments ++ inside⟩ = true), motive _ h by
    obtain ⟨segments⟩ := ns
    obtain ⟨inside, rfl⟩ := encloses_iff.mp h
    exact hinside inside h
  intro inside
  -- The children are taken from the end of the path.
  induction inside using List.reverseRecOn with
  | nil =>
    rw [List.append_nil]
    exact fun _ => self
  | append_singleton init last ih =>
    have hinit : owner.encloses ⟨owner.segments ++ init⟩ = true :=
      encloses_iff.mpr (List.prefix_append ..)
    rw [← List.append_assoc]
    exact fun _ => child _ last hinit (ih hinit)

/-! ### The way outward -/

theorem initialParts_concat {α : Type} (xs : List α) (x : α) :
    initialParts (xs ++ [x]) = (xs ++ [x]) :: initialParts xs := by
  induction xs with
  | nil => rfl
  | cons y ys ih =>
    rw [List.cons_append, initialParts, ih, initialParts, List.map_cons, List.cons_append]

theorem outward_child (ns : Namespace) (segment : String) :
    (ns.child segment).outward = ns.child segment :: ns.outward := by
  rw [outward, child, initialParts_concat, List.map_cons, outward]

theorem prefix_of_mem_initialParts {α : Type} {xs ys : List α} (h : ys ∈ initialParts xs) :
    ys <+: xs := by
  induction xs generalizing ys with
  | nil => exact List.mem_singleton.mp h ▸ List.prefix_refl _
  | cons x xs ih =>
    rcases List.mem_append.mp h with h | h
    · obtain ⟨part, hpart, rfl⟩ := List.mem_map.mp h
      exact List.cons_prefix_cons.mpr ⟨rfl, ih hpart⟩
    · exact List.mem_singleton.mp h ▸ List.nil_prefix

/-- Everything on the way outward encloses the namespace. -/
theorem encloses_of_mem_outward {outer inner : Namespace} (h : outer ∈ inner.outward) :
    outer.encloses inner = true := by
  obtain ⟨part, hpart, rfl⟩ := List.mem_map.mp h
  exact encloses_iff.mpr (prefix_of_mem_initialParts hpart)

/-- The way outward starts at the namespace itself. -/
theorem exists_outward_eq_cons (ns : Namespace) : ∃ rest, ns.outward = ns :: rest := by
  obtain ⟨segments⟩ := ns
  rcases List.eq_nil_or_concat segments with rfl | ⟨init, last, rfl⟩
  · exact ⟨[], rfl⟩
  · rw [List.concat_eq_append]
    exact ⟨_, outward_child ⟨init⟩ last⟩

/-- From a namespace itself nothing is visited on the way to it. -/
theorem takeWhile_outward_self (owner : Namespace) :
    owner.outward.takeWhile (· != owner) = [] := by
  obtain ⟨rest, hrest⟩ := owner.exists_outward_eq_cons
  rw [hrest, List.takeWhile_cons_of_neg (by simp)]

/-- On the way to a namespace a child is visited first, and then what its parent visits. -/
theorem takeWhile_outward_child {owner inner : Namespace} (h : owner.encloses inner = true)
    (segment : String) :
    (inner.child segment).outward.takeWhile (· != owner) =
      inner.child segment :: inner.outward.takeWhile (· != owner) := by
  -- The child is longer than `owner`, so the way does not stop at it.
  have hne := ne_child_of_encloses h segment
  rw [outward_child, List.takeWhile_cons_of_pos (by simpa using hne)]

end NameResolution.Namespace
