import NameResolution.Source
import Mathlib

/-!
# Positions between characters

The position of an offset between two characters is reached from the first one by stepping over all
characters that stand before the offset (`Source.position_of_append`).  So its line is given by the
number of line breaks there, and within a line the column grows with each character.
-/

namespace NameResolution

namespace Position

/-- The characters that fit into their own bytes are all stepped over, and no others. -/
theorem advance_append (p : Position) (before after : List Char) :
    p.advance (String.utf8Len before) (before ++ after) = before.foldl next p := by
  induction before generalizing p with
  | nil =>
    cases after with
    | nil => rfl
    | cons c rest =>
      have hpos := c.utf8Size_pos
      rw [List.nil_append, String.utf8Len_nil, advance, if_neg (by omega), List.foldl_nil]
  | cons c rest ih =>
    rw [List.cons_append, advance, String.utf8Len_cons, if_pos (Nat.le_add_left ..),
      Nat.add_sub_cancel, ih, List.foldl_cons]

/-- Each line break leads to the next line. -/
theorem line_foldl_next (p : Position) (cs : List Char) :
    (cs.foldl next p).line = p.line + cs.count '\n' := by
  induction cs generalizing p with
  | nil => rfl
  | cons c rest ih =>
    rw [List.foldl_cons, ih, List.count_cons, next]
    split_ifs with hc hbeq hbeq
    · exact Nat.add_right_comm ..
    · simp [hc] at hbeq
    · simp [hc] at hbeq
    · rfl

/-- Without a line break only the column grows. -/
theorem foldl_next_of_not_mem (p : Position) {cs : List Char} (h : '\n' ∉ cs) :
    cs.foldl next p = ⟨p.line, p.column + cs.length⟩ := by
  induction cs generalizing p with
  | nil => rfl
  | cons c rest ih =>
    have hc : c ≠ '\n' := fun hc => h (hc ▸ List.mem_cons_self)
    rw [List.foldl_cons, ih _ fun hrest => h (List.mem_cons_of_mem _ hrest), next, if_neg hc,
      List.length_cons, Nat.add_right_comm, ← Nat.add_assoc]

end Position

/-- The position behind a part of a text. -/
theorem Source.position_of_append {source : Source} {before after : String}
    (h : source.content = before ++ after) :
    source.position before.utf8ByteSize = before.toList.foldl Position.next .first := by
  rw [position, h, String.toList_append, ← String.utf8Len_toList, Position.advance_append]

end NameResolution
