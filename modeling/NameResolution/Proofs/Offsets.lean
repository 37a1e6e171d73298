import NameResolution.Proofs.Position
import Mathlib

/-!
# Offsets and positions

An offset counts as the last boundary between characters that it does not lie in front of
(`Source.boundary`).  The position of an offset names this boundary: its line and its column say how
many lines, and how many characters of the next one, stand before the boundary, and their bytes add
up to it.  So a position can be taken back to its boundary, and a later offset has no earlier
position.  Reported with 32 bits it is still exact, but for the end of the one or other text of
2 ^ 32 - 1 bytes (`Source.lineColumn_exact`).

The walk of `Position.advance` is described in two steps.  It stops behind the longest beginning of
the text that fits into the offset (`fitting`).  Wherever it stands, the lines of the text are cut
into what is behind and what is ahead (`Position.Stands`), and a step over one character keeps this.
-/

namespace NameResolution

/-! ### What fits into an offset -/

/-- The longest beginning of a text that fits into `budget` bytes. -/
def fitting : (budget : Nat) → List Char → List Char
  | _, [] => []
  | budget, c :: rest =>
    if c.utf8Size ≤ budget then c :: fitting (budget - c.utf8Size) rest else []

theorem fitting_isPrefix (budget : Nat) (cs : List Char) : fitting budget cs <+: cs := by
  induction cs generalizing budget with
  | nil => exact List.nil_prefix
  | cons c rest ih =>
    unfold fitting
    split_ifs with hfits
    · exact List.cons_prefix_cons.mpr ⟨rfl, ih _⟩
    · exact List.nil_prefix

theorem utf8Len_fitting_le (budget : Nat) (cs : List Char) :
    String.utf8Len (fitting budget cs) ≤ budget := by
  induction cs generalizing budget with
  | nil => exact Nat.zero_le _
  | cons c rest ih =>
    unfold fitting
    split_ifs with hfits
    · have hrest := ih (budget - c.utf8Size)
      rw [String.utf8Len_cons]
      omega
    · exact Nat.zero_le _

/-- Whatever beginning fits is part of the longest one. -/
theorem prefix_fitting {budget : Nat} {before cs : List Char} (hbefore : before <+: cs)
    (hfits : String.utf8Len before ≤ budget) : before <+: fitting budget cs := by
  induction cs generalizing budget before with
  | nil =>
    rw [List.prefix_nil.mp hbefore]
    exact List.nil_prefix
  | cons c rest ih =>
    rcases List.prefix_cons_iff.mp hbefore with rfl | ⟨before, rfl, hrest⟩
    · exact List.nil_prefix
    · rw [String.utf8Len_cons] at hfits
      rw [fitting, if_pos (by omega)]
      exact List.cons_prefix_cons.mpr ⟨rfl, ih hrest (by omega)⟩

theorem Position.advance_eq_foldl (p : Position) (budget : Nat) (cs : List Char) :
    p.advance budget cs = (fitting budget cs).foldl next p := by
  induction cs generalizing p budget with
  | nil => rfl
  | cons c rest ih =>
    unfold advance fitting
    split_ifs with hfits
    · exact ih _ _
    · rfl

/-! ### Boundaries -/

namespace Source

variable (source : Source)

/-- The offset lies between two characters, or at an end of the text. -/
def IsBoundary (offset : Nat) : Prop := (String.Pos.Raw.mk offset).IsValid source.content

instance : DecidablePred source.IsBoundary := fun offset =>
  inferInstanceAs (Decidable ((String.Pos.Raw.mk offset).IsValid source.content))

/-- What an offset counts as: going back from it, or from the end of the text if that comes first,
the first boundary. -/
def boundary (offset : Nat) : Nat :=
  Nat.findGreatest source.IsBoundary (min offset source.content.utf8ByteSize)

/-- A boundary has a beginning of the text before it. -/
theorem isBoundary_iff {offset : Nat} :
    source.IsBoundary offset ↔
      ∃ before, before <+: source.content.toList ∧ String.utf8Len before = offset := by
  unfold IsBoundary
  rw [String.Pos.Raw.isValid_iff_exists_append]
  constructor
  · rintro ⟨before, after, hcontent, hoffset⟩
    refine ⟨before.toList, ⟨after.toList, ?_⟩, ?_⟩
    · rw [hcontent, String.toList_append]
    · rw [String.utf8Len_toList]
      exact (congrArg String.Pos.Raw.byteIdx hoffset).symm
  · rintro ⟨before, ⟨after, hcontent⟩, rfl⟩
    refine ⟨.ofList before, .ofList after, ?_, ?_⟩
    · rw [← String.ofList_append, hcontent, String.ofList_toList]
    · rw [String.rawEndPos_ofList]

/-- The last boundary is the one behind all that fits. -/
theorem boundary_eq (offset : Nat) :
    source.boundary offset = String.utf8Len (fitting offset source.content.toList) := by
  have hprefix := fitting_isPrefix offset source.content.toList
  have hsize : String.utf8Len (fitting offset source.content.toList) ≤
      source.content.utf8ByteSize := by
    rw [← String.utf8Len_toList]
    exact String.utf8Len_le_of_prefix hprefix
  have hfits := utf8Len_fitting_le offset source.content.toList
  have hboundary := source.isBoundary_iff.mpr ⟨_, hprefix, rfl⟩
  rw [boundary, Nat.findGreatest_eq_iff]
  refine ⟨le_min hfits hsize, fun _ => hboundary, fun later hlater hle hvalid => ?_⟩
  obtain ⟨before, hbefore, rfl⟩ := source.isBoundary_iff.mp hvalid
  have hwithin := String.utf8Len_le_of_prefix
    (prefix_fitting hbefore (le_trans hle (min_le_left _ _)))
  omega

/-- **Every offset has a last boundary that it does not lie in front of.** -/
theorem isGreatest_boundary (offset : Nat) :
    IsGreatest {o | source.IsBoundary o ∧ o ≤ min offset source.content.utf8ByteSize}
      (source.boundary offset) := by
  have hstart : source.IsBoundary 0 := source.isBoundary_iff.mpr ⟨[], List.nil_prefix, rfl⟩
  constructor
  · exact ⟨Nat.findGreatest_spec (Nat.zero_le _) hstart, Nat.findGreatest_le _⟩
  · rintro o ⟨hvalid, hle⟩
    exact Nat.le_findGreatest hle hvalid

theorem position_eq_foldl (offset : Nat) :
    source.position offset =
      (fitting offset source.content.toList).foldl Position.next .first :=
  Position.advance_eq_foldl _ _ _

/-- An offset has the position of its boundary. -/
theorem position_boundary (offset : Nat) :
    source.position (source.boundary offset) = source.position offset := by
  obtain ⟨after, hafter⟩ := fitting_isPrefix offset source.content.toList
  have hwalk := Position.advance_append .first (fitting offset source.content.toList) after
  rwa [hafter, ← boundary_eq, ← position_eq_foldl] at hwalk

end Source

/-! ### Where the walk stands -/

/-- The bytes of lines, each with its line break. -/
def linesSize (lines : List (List Char)) : Nat := (lines.map fun l => String.utf8Len l + 1).sum

theorem linesSize_concat (lines : List (List Char)) (line : List Char) :
    linesSize (lines ++ [line]) = linesSize lines + (String.utf8Len line + 1) := by
  rw [linesSize, List.map_append, List.sum_append, List.map_singleton, List.sum_singleton]
  rfl

/-- Every character has at least one byte. -/
theorem length_le_utf8Len (cs : List Char) : cs.length ≤ String.utf8Len cs := by
  induction cs with
  | nil => exact Nat.le_refl 0
  | cons c rest ih =>
    have hpos := c.utf8Size_pos
    rw [List.length_cons, String.utf8Len_cons]
    omega

theorem length_le_linesSize (lines : List (List Char)) : lines.length ≤ linesSize lines := by
  have hsum := List.length_le_sum_of_one_le (lines.map fun l => String.utf8Len l + 1) (by simp)
  rwa [List.length_map] at hsum

theorem utf8Len_replicate {c : Char} (hc : c.utf8Size = 1) (n : Nat) :
    String.utf8Len (List.replicate n c) = n := by
  induction n with
  | zero => rfl
  | succ n ih => rw [List.replicate_succ, String.utf8Len_cons, ih, hc]

namespace Position

/-- At the position `p` and behind `o` bytes the lines are cut, and `rest` is what lies ahead. -/
inductive Stands (lines : List (List Char)) :
    (p : Position) → (o : Nat) → (rest : List Char) → Prop
  | cut {earlier later : List (List Char)} {front back rest : List Char}
      (hlines : lines = earlier ++ (front ++ back) :: later)
      (hrest : rest.splitOn '\n' = back :: later) :
      Stands lines ⟨earlier.length + 1, front.length + 1⟩
        (linesSize earlier + String.utf8Len front) rest

variable {lines : List (List Char)} {p : Position} {o : Nat}

theorem Stands.first (cs : List Char) : Stands (cs.splitOn '\n') first 0 cs := by
  obtain ⟨line, later, hlines⟩ := List.exists_cons_of_ne_nil (List.splitOn_ne_nil '\n' cs)
  exact @Stands.cut _ [] later [] line cs hlines hlines

/-- A step over one character adds its bytes. -/
theorem Stands.next {c : Char} {rest : List Char} (h : Stands lines p o (c :: rest)) :
    Stands lines (p.next c) (o + c.utf8Size) rest := by
  cases h with
  | @cut earlier later front back _ hlines hrest =>
    obtain ⟨head, tail, hsplit⟩ := List.exists_cons_of_ne_nil (List.splitOn_ne_nil '\n' rest)
    rw [List.splitOn_eq_splitOnP] at hrest hsplit
    rw [List.splitOnP_cons_eq_if_modifyHead, hsplit] at hrest
    unfold Position.next
    by_cases hc : c = '\n'
    · -- The line ends here, and the next one starts.
      subst hc
      obtain ⟨rfl, rfl⟩ : [] = back ∧ head :: tail = later := by simpa using hrest
      have hsize : linesSize earlier + String.utf8Len front + '\n'.utf8Size =
          linesSize (earlier ++ [front]) + String.utf8Len [] := by
        rw [linesSize_concat, String.utf8Len_nil, show '\n'.utf8Size = 1 from rfl]
        omega
      have hlength : earlier.length + 1 = (earlier ++ [front]).length := by simp
      rw [if_pos rfl, hsize, hlength]
      refine @Stands.cut lines (earlier ++ [front]) tail [] head rest ?_ ?_
      · rw [hlines, List.append_nil, List.append_assoc]
        rfl
      · rw [List.splitOn_eq_splitOnP, hsplit]
    · obtain ⟨rfl, rfl⟩ : c :: head = back ∧ tail = later := by simpa [hc] using hrest
      have hsize : linesSize earlier + String.utf8Len front + c.utf8Size =
          linesSize earlier + String.utf8Len (front ++ [c]) := by
        rw [String.utf8Len_append, String.utf8Len_cons, String.utf8Len_nil]
        omega
      have hlength : front.length + 1 = (front ++ [c]).length := by simp
      rw [if_neg hc, hsize, hlength]
      refine @Stands.cut lines earlier tail (front ++ [c]) head rest ?_ ?_
      · rw [hlines, List.append_assoc]
        rfl
      · rw [List.splitOn_eq_splitOnP, hsplit]

/-- **The walk stands where its position says**, however far it has come. -/
theorem stands_foldl (before after : List Char) :
    Stands ((before ++ after).splitOn '\n') (before.foldl next first) (String.utf8Len before)
      after := by
  suffices h : ∀ (cs : List Char) (p : Position) (o : Nat) (lines : List (List Char)),
      Stands lines p o (cs ++ after) →
        Stands lines (cs.foldl next p) (o + String.utf8Len cs) after by
    have hall := h before first 0 _ (Stands.first (before ++ after))
    rwa [Nat.zero_add] at hall
  intro cs
  induction cs with
  | nil => exact fun p o lines h => h
  | cons c rest ih =>
    intro p o lines h
    have hrest := ih (p.next c) (o + c.utf8Size) lines h.next
    rw [List.foldl_cons, String.utf8Len_cons]
    rwa [Nat.add_assoc, Nat.add_comm c.utf8Size] at hrest

end Position

/-! ### Positions in order -/

namespace Position

/-- The position `q` is not in front of `p`: by line first, then by column. -/
def Upto (p q : Position) : Prop := p.line < q.line ∨ p.line = q.line ∧ p.column ≤ q.column

theorem upto_foldl (p : Position) (cs : List Char) : p.Upto (cs.foldl next p) := by
  induction cs generalizing p with
  | nil => exact Or.inr ⟨rfl, Nat.le_refl _⟩
  | cons c rest ih =>
    have hrest := ih (p.next c)
    rw [List.foldl_cons]
    unfold Upto next at hrest ⊢
    split_ifs at hrest ⊢
    · simp only at hrest
      omega
    · simp only at hrest
      omega

end Position

/-! ### The position of an offset -/

namespace Source

variable (source : Source)

/-- The text, cut at its line breaks. -/
def splitLines : List (List Char) := source.content.toList.splitOn '\n'

/-- The position is that of the boundary `o`: its line exists and reaches up to its column, and the
bytes before it, those of the earlier lines with their line breaks included, are `o`. -/
structure Locates (p : Position) (o : Nat) : Prop where
  line_pos : 1 ≤ p.line
  column_pos : 1 ≤ p.column
  exists_line : ∃ line, source.splitLines[p.line - 1]? = some line ∧ p.column - 1 ≤ line.length ∧
    linesSize (source.splitLines.take (p.line - 1)) + String.utf8Len (line.take (p.column - 1)) = o

variable {source}

theorem Locates.of_stands {p : Position} {o : Nat} {rest : List Char}
    (h : Position.Stands source.splitLines p o rest) : source.Locates p o := by
  cases h with
  | @cut earlier later front back _ hlines _ =>
    refine ⟨Nat.le_add_left .., Nat.le_add_left .., front ++ back, ?_, ?_, ?_⟩
    · rw [hlines]
      simp
    · simp
    · rw [hlines]
      simp

/-- A position is that of one boundary only. -/
theorem Locates.unique {p : Position} {o o' : Nat} (h : source.Locates p o)
    (h' : source.Locates p o') : o = o' := by
  obtain ⟨line, hline, -, hsize⟩ := h.exists_line
  obtain ⟨line', hline', -, hsize'⟩ := h'.exists_line
  obtain rfl : line = line' := Option.some.inj (hline.symm.trans hline')
  rw [← hsize, ← hsize']

theorem locates_position (source : Source) (offset : Nat) :
    source.Locates (source.position offset) (source.boundary offset) := by
  obtain ⟨after, hafter⟩ := fitting_isPrefix offset source.content.toList
  have hstands := Position.stands_foldl (fitting offset source.content.toList) after
  rw [hafter, ← position_eq_foldl, ← boundary_eq] at hstands
  exact .of_stands hstands

/-- A later offset has no earlier position. -/
theorem upto_position (source : Source) {offset offset' : Nat} (h : offset ≤ offset') :
    (source.position offset).Upto (source.position offset') := by
  have hfits := le_trans (utf8Len_fitting_le offset source.content.toList) h
  obtain ⟨between, hbetween⟩ := prefix_fitting (fitting_isPrefix offset _) hfits
  rw [position_eq_foldl, position_eq_foldl, ← hbetween, List.foldl_append]
  exact Position.upto_foldl _ between

/-- **Offsets have the same position if and only if they count as the same boundary.** -/
theorem position_eq_iff (source : Source) {offset offset' : Nat} :
    source.position offset = source.position offset' ↔
      source.boundary offset = source.boundary offset' := by
  constructor
  · intro h
    have hlocates := source.locates_position offset
    rw [h] at hlocates
    exact hlocates.unique (source.locates_position offset')
  · intro h
    rw [← source.position_boundary offset, h, source.position_boundary]

/-- No more lines and columns are counted than there are bytes before the boundary. -/
theorem Locates.line_add_column_le {p : Position} {o : Nat} (h : source.Locates p o) :
    p.line + p.column ≤ o + 2 := by
  obtain ⟨line, hline, hcolumn, hsize⟩ := h.exists_line
  have hexists := (List.getElem?_eq_some_iff.mp hline).1
  have hlines := length_le_linesSize (source.splitLines.take (p.line - 1))
  have hchars := length_le_utf8Len (line.take (p.column - 1))
  rw [List.length_take] at hlines hchars
  omega

/-- The line and the column of a boundary of 32 bits have 32 bits too, but for the last one of all:
as both are counted from one, either of them can be too large by one there. -/
theorem Locates.lt_size_or {p : Position} {o : Nat} (h : source.Locates p o)
    (ho : o < UInt32.size) :
    p.line < UInt32.size ∧ p.column < UInt32.size ∨
      o + 1 = UInt32.size ∧ (p = ⟨UInt32.size, 1⟩ ∨ p = ⟨1, UInt32.size⟩) := by
  have hbound := h.line_add_column_le
  have hline := h.line_pos
  have hcolumn := h.column_pos
  obtain ⟨line, column⟩ := p
  simp only [Position.mk.injEq] at hbound hline hcolumn ⊢
  omega

/-! ### Lines and columns of 32 bits -/

/-- The offset counts as 2 ^ 32 - 1, and all characters before this boundary are line breaks, or all
are other characters of one byte. -/
def CountsOver (source : Source) (offset : UInt32) : Prop :=
  source.boundary offset.toNat + 1 = UInt32.size ∧
    (source.content.toList.count '\n' + 1 = UInt32.size ∨
      '\n' ∉ source.content.toList ∧ source.content.toList.length + 1 = UInt32.size)

/-- In a text of less than 2 ^ 32 bytes, the boundary 2 ^ 32 - 1 is the end. -/
theorem fitting_eq_of_boundary {offset : Nat} (hshort : source.content.utf8ByteSize < UInt32.size)
    (h : source.boundary offset + 1 = UInt32.size) :
    fitting offset source.content.toList = source.content.toList := by
  obtain ⟨after, hafter⟩ := fitting_isPrefix offset source.content.toList
  have hlength := length_le_utf8Len after
  rw [boundary_eq] at h
  rw [← String.utf8Len_toList, ← hafter, String.utf8Len_append] at hshort
  obtain rfl : after = [] := List.length_eq_zero_iff.mp (by omega)
  rwa [List.append_nil] at hafter

/-- The position of the boundary 2 ^ 32 - 1 is reached from the first one over the whole text. -/
theorem position_of_boundary {offset : Nat} (hshort : source.content.utf8ByteSize < UInt32.size)
    (h : source.boundary offset + 1 = UInt32.size) :
    source.position offset = source.content.toList.foldl Position.next .first := by
  rw [position_eq_foldl, fitting_eq_of_boundary hshort h]

/-- A line or a column is too large for 32 bits only where the offset counts over. -/
theorem position_lt_size {offset : UInt32} (hshort : source.content.utf8ByteSize < UInt32.size)
    (h : ¬source.CountsOver offset) :
    (source.position offset.toNat).line < UInt32.size ∧
      (source.position offset.toNat).column < UInt32.size := by
  have hwithin := (source.isGreatest_boundary offset.toNat).1.2
  have hboundary := lt_of_le_of_lt (le_trans hwithin (min_le_right ..)) hshort
  rcases (source.locates_position offset.toNat).lt_size_or hboundary with hbits | ⟨hend, hover⟩
  · exact hbits
  · have hwalk := position_of_boundary hshort hend
    have hline := Position.line_foldl_next .first source.content.toList
    rw [← hwalk] at hline
    refine absurd ⟨hend, ?_⟩ h
    rcases hover with hover | hover
    · rw [hover] at hline
      exact Or.inl ((Nat.add_comm ..).trans hline.symm)
    · -- No line break has been counted, so only the column has grown.
      have hfirst : 1 = 1 + source.content.toList.count '\n' :=
        (congrArg Position.line hover).symm.trans hline
      have hbreak : '\n' ∉ source.content.toList := List.count_eq_zero.mp (by omega)
      rw [Position.foldl_next_of_not_mem _ hbreak, hover] at hwalk
      exact Or.inr ⟨hbreak, (Nat.add_comm ..).trans (congrArg Position.column hwalk).symm⟩

/-- Where the offset counts over, the line or the column starts again from 0. -/
theorem lineColumn_of_countsOver {offset : UInt32}
    (hshort : source.content.utf8ByteSize < UInt32.size) (h : source.CountsOver offset) :
    (source.lineColumn offset).line = 0 ∨ (source.lineColumn offset).column = 0 := by
  obtain ⟨hend, hover⟩ := h
  have hwalk := position_of_boundary hshort hend
  rcases hover with hcount | ⟨hbreak, hlength⟩
  · left
    have hline : (source.position offset.toNat).line = UInt32.size := by
      rw [hwalk, Position.line_foldl_next, ← hcount, Nat.add_comm]
      rfl
    exact (congrArg Nat.toUInt32 hline).trans rfl
  · right
    have hcolumn : (source.position offset.toNat).column = UInt32.size := by
      rw [hwalk, Position.foldl_next_of_not_mem _ hbreak, ← hlength, Nat.add_comm]
      rfl
    exact (congrArg Nat.toUInt32 hcolumn).trans rfl

end Source

namespace LineColumn

/-- The numbers that are reported. -/
def position (place : LineColumn) : Position := ⟨place.line.toNat, place.column.toNat⟩

end LineColumn

namespace Source

variable {source : Source}

/-- What is reported is the position of the offset, where it does not count over. -/
theorem position_lineColumn {offset : UInt32} (hshort : source.content.utf8ByteSize < UInt32.size)
    (h : ¬source.CountsOver offset) :
    (source.lineColumn offset).position = source.position offset.toNat := by
  obtain ⟨hline, hcolumn⟩ := position_lt_size hshort h
  exact congrArg₂ Position.mk (UInt32.toNat_ofNat_of_lt' hline) (UInt32.toNat_ofNat_of_lt' hcolumn)

/-- Lines and columns are counted from one, so nothing is located where the offset counts over. -/
theorem not_locates_of_countsOver {offset : UInt32} {o : Nat}
    (hshort : source.content.utf8ByteSize < UInt32.size) (h : source.CountsOver offset) :
    ¬source.Locates (source.lineColumn offset).position o := by
  intro hlocates
  have hline : 1 ≤ (source.lineColumn offset).line.toNat := hlocates.line_pos
  have hcolumn : 1 ≤ (source.lineColumn offset).column.toNat := hlocates.column_pos
  rcases lineColumn_of_countsOver hshort h with hzero | hzero
  · rw [hzero] at hline
    exact absurd hline (by decide)
  · rw [hzero] at hcolumn
    exact absurd hcolumn (by decide)

/-- What is reported locates the boundary, but for the places where the offset counts over. -/
theorem locates_lineColumn_iff {offset : UInt32}
    (hshort : source.content.utf8ByteSize < UInt32.size) :
    source.Locates (source.lineColumn offset).position (source.boundary offset.toNat) ↔
      ¬source.CountsOver offset := by
  constructor
  · exact fun hlocates h => not_locates_of_countsOver hshort h hlocates
  · intro h
    rw [position_lineColumn hshort h]
    exact source.locates_position _

/-- **Offsets are reported alike if and only if they count as the same boundary**, also where they
count over. -/
theorem lineColumn_eq_iff {offset offset' : UInt32}
    (hshort : source.content.utf8ByteSize < UInt32.size) :
    source.lineColumn offset = source.lineColumn offset' ↔
      source.boundary offset.toNat = source.boundary offset'.toNat := by
  constructor
  · intro h
    by_cases hover : source.CountsOver offset
    · have hother : source.CountsOver offset' := by
        by_contra hother
        have hlocates := (locates_lineColumn_iff hshort).mpr hother
        rw [← h] at hlocates
        exact not_locates_of_countsOver hshort hover hlocates
      exact Nat.succ.inj (hover.1.trans hother.1.symm)
    · have hlocates := (locates_lineColumn_iff hshort).mpr hover
      have hother : ¬source.CountsOver offset' := by
        intro hother
        rw [h] at hlocates
        exact not_locates_of_countsOver hshort hother hlocates
      rw [h] at hlocates
      exact hlocates.unique ((locates_lineColumn_iff hshort).mpr hother)
  · intro h
    have hposition := source.position_eq_iff.mpr h
    rw [lineColumn, lineColumn, hposition]

/-- **The line and the column of an offset are exact** in a text of less than 2 ^ 32 bytes, but for
the places where the offset counts over.  They are those of the last boundary between characters
that the offset does not lie in front of: the line is a line of the text and has the characters
before the column, and the bytes up to there are those before the boundary.  So they keep the order
of offsets, and tell them apart if there is a boundary between them. -/
theorem lineColumn_exact (source : Source) (hshort : source.content.utf8ByteSize < UInt32.size) :
    (∀ offset : UInt32,
      IsGreatest {o | source.IsBoundary o ∧ o ≤ min offset.toNat source.content.utf8ByteSize}
        (source.boundary offset.toNat) ∧
      (¬source.CountsOver offset →
        source.Locates (source.lineColumn offset).position (source.boundary offset.toNat))) ∧
    (∀ offset offset' : UInt32, ¬source.CountsOver offset' → offset ≤ offset' →
      (source.lineColumn offset).position.Upto (source.lineColumn offset').position) ∧
    (∀ offset offset' : UInt32, source.lineColumn offset = source.lineColumn offset' ↔
      source.boundary offset.toNat = source.boundary offset'.toNat) := by
  refine ⟨fun offset => ⟨source.isGreatest_boundary _, (locates_lineColumn_iff hshort).mpr⟩,
    fun offset offset' h' hle => ?_, fun _ _ => lineColumn_eq_iff hshort⟩
  have hwithin : ∀ o : UInt32, source.boundary o.toNat < UInt32.size := fun o =>
    lt_of_le_of_lt (le_trans (source.isGreatest_boundary _).1.2 (min_le_right ..)) hshort
  have h : ¬source.CountsOver offset := by
    -- A later offset counts as no earlier boundary, and there is none behind this one.
    rintro ⟨hend, hover⟩
    have hmono := (source.isGreatest_boundary offset'.toNat).2
      ⟨(source.isGreatest_boundary offset.toNat).1.1,
        le_trans (source.isGreatest_boundary offset.toNat).1.2 (min_le_min_right _ hle)⟩
    have hlast := hwithin offset'
    exact h' ⟨by omega, hover⟩
  rw [position_lineColumn hshort h, position_lineColumn hshort h']
  exact source.upto_position hle

/-- Inside the second character the position is still that before it, and behind the last line break
there is one more line, which is empty. -/
theorem lineColumn_exact_wide_character :
    let source : Source := ⟨.memory "t", "aé\n"⟩
    source.content.utf8ByteSize < UInt32.size ∧
      (¬source.CountsOver 2 ∧ ¬source.CountsOver 9) ∧
      (source.boundary 2 = 1 ∧ source.lineColumn 2 = ⟨1, 2⟩ ∧ source.Locates ⟨1, 2⟩ 1) ∧
      (source.lineColumn 9 = ⟨2, 1⟩ ∧ source.Locates ⟨2, 1⟩ 4) ∧
      Position.Upto ⟨1, 2⟩ ⟨2, 1⟩ ∧ source.lineColumn 1 = source.lineColumn 2 := by
  intro source
  have hshort : source.content.utf8ByteSize < UInt32.size := by decide
  obtain ⟨hexact, horder, hsame⟩ := source.lineColumn_exact hshort
  have hinside : source.boundary 2 = 1 := by decide +kernel
  have hstart : source.boundary 1 = 1 := by decide +kernel
  have hend : source.boundary 9 = 4 := by decide +kernel
  have hplace : source.lineColumn 2 = ⟨1, 2⟩ := by decide +kernel
  have hlast : source.lineColumn 9 = ⟨2, 1⟩ := by decide +kernel
  have hover : ∀ offset : UInt32, source.boundary offset.toNat ≤ 4 → ¬source.CountsOver offset := by
    rintro offset hoffset ⟨hboundary, -⟩
    exact absurd hboundary (ne_of_lt (lt_of_le_of_lt (Nat.succ_le_succ hoffset) (by decide)))
  have hsecond := hover 2 (hinside.le.trans (by decide))
  have hbehind := hover 9 hend.le
  have hlocates : source.Locates _ (source.boundary 2) := (hexact 2).2 hsecond
  have hlocatesLast : source.Locates _ (source.boundary 9) := (hexact 9).2 hbehind
  have hupto := horder 2 9 hbehind (by decide)
  rw [hplace, hinside] at hlocates
  rw [hlast, hend] at hlocatesLast
  rw [hplace, hlast] at hupto
  exact ⟨hshort, ⟨hsecond, hbehind⟩, ⟨hinside, hplace, hlocates⟩, ⟨hlast, hlocatesLast⟩, hupto,
    (hsame 1 2).mpr (hstart.trans hinside.symm)⟩

/-! ### A text of line breaks -/

/-- The end of a text of 2 ^ 32 - 1 line breaks counts over. -/
theorem countsOver_of_line_breaks {n : Nat} (hn : n + 1 = UInt32.size)
    (hcontent : source.content.toList = List.replicate n '\n') :
    source.content.utf8ByteSize = n ∧ source.boundary n = n ∧ source.CountsOver n.toUInt32 := by
  have hsize : source.content.utf8ByteSize = n := by
    rw [← String.utf8Len_toList, hcontent, utf8Len_replicate rfl]
  have hfits : fitting n source.content.toList = source.content.toList := by
    refine (fitting_isPrefix _ _).eq_of_length_le (prefix_fitting List.prefix_rfl ?_).length_le
    rw [String.utf8Len_toList, hsize]
  have hboundary : source.boundary n = n := by
    rw [boundary_eq, hfits, hcontent, utf8Len_replicate rfl]
  have hoffset : n.toUInt32.toNat = n := UInt32.toNat_ofNat_of_lt' (hn ▸ Nat.lt_succ_self n)
  refine ⟨hsize, hboundary, ?_, Or.inl ?_⟩
  · rw [hoffset, hboundary, hn]
  · rw [hcontent, List.count_replicate_self, hn]

/-- At the end of 2 ^ 32 - 1 line breaks nothing is located. -/
theorem lineColumn_line_breaks :
    let source : Source := ⟨.memory "t", .ofList (List.replicate 4294967295 '\n')⟩
    source.content.utf8ByteSize < UInt32.size ∧ source.boundary 4294967295 = 4294967295 ∧
      ¬source.Locates (source.lineColumn 4294967295).position 4294967295 := by
  intro source
  have hcontent : source.content.toList = List.replicate 4294967295 '\n' := String.toList_ofList
  obtain ⟨hsize, hboundary, hover⟩ := countsOver_of_line_breaks rfl hcontent
  have hshort : source.content.utf8ByteSize < UInt32.size := by
    rw [hsize]
    decide
  exact ⟨hshort, hboundary, not_locates_of_countsOver hshort hover⟩

end Source

end NameResolution
