import NameResolution.Proofs.Surface.Extents

/-!
# How marked parts of a text lie to each other

`Markup.marks` lists the marked parts of a text with their own markup.  Two of them never overlap by
halves: the one that ends first stands before the other one or is a mark inside it
(`Markup.pairwise_marks`).  This is the only thing that has to be known about the order of marks.
-/

namespace NameResolution.Surface

/-- A marked part of a text: where it starts, the node that it belongs to, and what it consists
of. -/
structure Mark where
  start : Nat
  id : NodeId
  body : Markup

namespace Mark

/-- Where the part ends. -/
def stop (x : Mark) : Nat := x.start + x.body.size

/-- The place of the part. -/
def extent (x : Mark) : Extent := ⟨x.id, x.start, x.stop⟩

end Mark

namespace Markup

/-- The marked parts of a text that starts at `offset`, a part after all parts inside it. -/
def marks (offset : Nat) : Markup → List Mark
  | text _ => []
  | node id body => body.marks offset ++ [⟨offset, id, body⟩]
  | append first second => first.marks offset ++ second.marks (offset + first.size)

/-- The marked parts without their places. -/
def parts : Markup → List (NodeId × Markup)
  | text _ => []
  | node id body => body.parts ++ [(id, body)]
  | append first second => first.parts ++ second.parts

variable {m : Markup} {offset : Nat} {x y : Mark}

theorem map_extent_marks (m : Markup) (offset : Nat) :
    (m.marks offset).map Mark.extent = m.extents offset := by
  induction m generalizing offset with
  | text s => rfl
  | node id body ih => rw [marks, List.map_append, ih, extents]; rfl
  | append first second ihFirst ihSecond => rw [marks, List.map_append, ihFirst, ihSecond, extents]

theorem map_part_marks (m : Markup) (offset : Nat) :
    (m.marks offset).map (fun x => (x.id, x.body)) = m.parts := by
  induction m generalizing offset with
  | text s => rfl
  | node id body ih => rw [marks, List.map_append, ih, parts]; rfl
  | append first second ihFirst ihSecond => rw [marks, List.map_append, ihFirst, ihSecond, parts]

theorem marked_eq_map_parts (m : Markup) :
    m.marked = m.parts.map fun part => (part.1, part.2.toText) := by
  induction m with
  | text s => rfl
  | node id body ih => rw [marked, ih, parts, List.map_append]; rfl
  | append first second ihFirst ihSecond =>
    rw [marked, ihFirst, ihSecond, parts, List.map_append]

/-- A marked part is cut out by its place. -/
theorem cuts_of_mem_marks (hx : x ∈ m.marks offset) :
    x.extent.Cuts offset m.toText x.body.toText := by
  have h := m.forall₂_extents offset
  rw [← map_extent_marks, marked_eq_map_parts, ← m.map_part_marks offset, List.map_map,
    List.forall₂_map_left_iff, List.forall₂_map_right_iff, List.forall₂_same] at h
  exact (h x hx).2

/-- Marked parts lie within the text. -/
theorem bounds_of_mem_marks (hx : x ∈ m.marks offset) :
    offset ≤ x.start ∧ x.stop ≤ offset + m.size := by
  induction m generalizing offset with
  | text s => cases hx
  | node id body ih =>
    rcases List.mem_append.mp hx with hx | hx
    · exact ih hx
    · obtain rfl := List.mem_singleton.mp hx
      exact ⟨Nat.le_refl _, Nat.le_refl _⟩
  | append first second ihFirst ihSecond =>
    show offset ≤ x.start ∧ x.stop ≤ offset + (first.size + second.size)
    rcases List.mem_append.mp hx with hx | hx
    · have := ihFirst hx
      omega
    · have := ihSecond hx
      omega

/-- **Of two marked parts the one that ends first stands before the other one or inside it.** -/
theorem pairwise_marks (m : Markup) (offset : Nat) :
    (m.marks offset).Pairwise fun x y =>
      x.stop ≤ y.start ∨ x ∈ y.body.marks y.start := by
  induction m generalizing offset with
  | text s => exact .nil
  | node id body ih =>
    refine List.pairwise_append.mpr ⟨ih offset, List.pairwise_singleton .., fun x hx y hy => ?_⟩
    obtain rfl := List.mem_singleton.mp hy
    exact Or.inr hx
  | append first second ihFirst ihSecond =>
    refine List.pairwise_append.mpr ⟨ihFirst offset, ihSecond _, fun x hx y hy => Or.inl ?_⟩
    have hfirst := bounds_of_mem_marks hx
    have hsecond := bounds_of_mem_marks hy
    omega

/-- Different marked parts do not overlap, unless one is inside the other. -/
theorem disjoint_or_inside (hx : x ∈ m.marks offset) (hy : y ∈ m.marks offset) (hne : x ≠ y) :
    x.stop ≤ y.start ∨ y.stop ≤ x.start ∨
      x ∈ y.body.marks y.start ∨ y ∈ x.body.marks x.start := by
  have hpairwise := List.pairwise_iff_getElem.mp (m.pairwise_marks offset)
  obtain ⟨i, hi, rfl⟩ := List.getElem_of_mem hx
  obtain ⟨j, hj, rfl⟩ := List.getElem_of_mem hy
  rcases Nat.lt_trichotomy i j with hlt | rfl | hlt
  · rcases hpairwise i j hi hj hlt with hbefore | hinside
    · exact Or.inl hbefore
    · exact Or.inr (Or.inr (Or.inl hinside))
  · exact absurd rfl hne
  · rcases hpairwise j i hj hi hlt with hbefore | hinside
    · exact Or.inr (Or.inl hbefore)
    · exact Or.inr (Or.inr (Or.inr hinside))

/-- The parts inside a marked part are marked parts. -/
theorem marks_subset_of_mem_marks (hx : x ∈ m.marks offset) :
    x.body.marks x.start ⊆ m.marks offset := by
  induction m generalizing offset with
  | text s => cases hx
  | node id body ih =>
    rcases List.mem_append.mp hx with hx | hx
    · exact List.subset_append_of_subset_left _ (ih hx)
    · obtain rfl := List.mem_singleton.mp hx
      exact List.subset_append_left ..
  | append first second ihFirst ihSecond =>
    rcases List.mem_append.mp hx with hx | hx
    · exact List.subset_append_of_subset_left _ (ihFirst hx)
    · exact List.subset_append_of_subset_right _ (ihSecond hx)

end Markup

end NameResolution.Surface
