import NameResolution.Proofs.Offsets
import NameResolution.Proofs.Surface.Lines

/-!
# Locations in printed modules

A module is printed with its header and each import, export and declaration on a line of its own, if
no word has a line break in it.  So the line of a declaration is known from its place in the module,
and the spans of all nodes in it start and end on this line, as far as offsets can be recorded with
32 bits (`Program.lines_of_index`).

What the lines hold is known from `Module.newline_not_mem_lines`.  What remains is to count the line
breaks before the line of a mark (`Markup.onLine_of_mem_marks`).  A printed module has a line break
and has other characters, so its lines and columns are reported as they are counted
(`Source.not_countsOver`).
-/

namespace NameResolution

open Surface (Markup Mark Extent)

/-- Both offsets are on the line, the second one not in front of the first one. -/
structure Source.OnLine (source : Source) (line start stop : Nat) : Prop where
  line_start : (source.position start).line = line
  line_stop : (source.position stop).line = line
  column_le : (source.position start).column ≤ (source.position stop).column

/-- The span starts and ends on the line, and not in front of its start, as lines and columns are
reported. -/
structure Source.ReportsOnLine (source : Source) (line : Nat) (span : Span) : Prop where
  line_start : (source.lineColumn span.start).line.toNat = line
  line_stop : (source.lineColumn span.stop).line.toNat = line
  column_le : (source.lineColumn span.start).column ≤ (source.lineColumn span.stop).column

namespace Source

variable {source : Source}

/-- If a text has a line break and another character too, then no offset counts over. -/
theorem not_countsOver {c : Char} (hshort : source.content.utf8ByteSize < UInt32.size)
    (hbreak : '\n' ∈ source.content.toList) (hc : c ∈ source.content.toList) (hother : c ≠ '\n')
    (offset : UInt32) : ¬source.CountsOver offset := by
  have hcount : source.content.toList.count '\n' < source.content.toList.length :=
    List.count_lt_length_iff.mpr ⟨c, hc, hother⟩
  have hlength := length_le_utf8Len source.content.toList
  rw [String.utf8Len_toList] at hlength
  rintro ⟨-, hover | ⟨hnone, -⟩⟩
  · omega
  · exact hnone hbreak

/-- Where no offset counts over, what is on a line is reported there. -/
theorem OnLine.reportsOnLine {line : Nat} {span : Span}
    (h : source.OnLine line span.start.toNat span.stop.toNat)
    (hshort : source.content.utf8ByteSize < UInt32.size)
    (hover : ∀ offset, ¬source.CountsOver offset) : source.ReportsOnLine line span := by
  have hstart := position_lineColumn hshort (hover span.start)
  have hstop := position_lineColumn hshort (hover span.stop)
  constructor
  · exact (congrArg Position.line hstart).trans h.line_start
  · exact (congrArg Position.line hstop).trans h.line_stop
  · have hcolumn := h.column_le
    rw [← hstart, ← hstop] at hcolumn
    exact UInt32.le_iff_toNat_le.mpr hcolumn

end Source

/-! ### Lines of a text -/

namespace Surface.Markup

variable {before after : List Markup} {line : Markup} {x : Mark}

theorem toText_unlines_append (before : List Markup) (line : Markup) (after : List Markup) :
    (unlines (before ++ line :: after)).toText =
      (unlines before).toText ++ (line.toText ++ ("\n" ++ (unlines after).toText)) := by
  induction before with
  | nil =>
    show line.toText ++ "\n" ++ (unlines after).toText = "" ++ _
    rw [String.empty_append, String.append_assoc]
  | cons first rest ih =>
    show first.toText ++ "\n" ++ (unlines (rest ++ line :: after)).toText =
      first.toText ++ "\n" ++ (unlines rest).toText ++ _
    rw [ih, ← String.append_assoc]

/-- What is marked on a line is marked in the text. -/
theorem mem_marks_unlines {offset : Nat} (hx : x ∈ line.marks (offset + (unlines before).size)) :
    x ∈ (unlines (before ++ line :: after)).marks offset := by
  induction before generalizing offset with
  | nil => exact List.mem_append_left _ (List.mem_append_left _ hx)
  | cons first rest ih =>
    refine List.mem_append_right _ (ih ?_)
    rwa [Nat.add_assoc]

/-- **What is marked on a line is on the line.** -/
theorem onLine_of_mem_marks {source : Source}
    (hsource : source.content = (unlines (before ++ line :: after)).toText)
    (hbefore : ∀ line ∈ before, '\n' ∉ line.chars) (hline : '\n' ∉ line.chars)
    (hx : x ∈ line.marks (unlines before).size) :
    source.OnLine (before.length + 1) x.start x.stop := by
  rw [toText_unlines_append] at hsource
  -- The end of the earlier lines, from where only columns are counted.
  have hline_first : ((unlines before).chars.foldl Position.next .first).line =
      before.length + 1 := by
    rw [Position.line_foldl_next, count_newline_unlines hbefore, Position.first, Nat.add_comm]
  have hposition {head tail : String} (hsplit : line.toText = head ++ tail) :
      source.position ((unlines before).toText ++ head).utf8ByteSize =
        ⟨before.length + 1,
          ((unlines before).chars.foldl Position.next .first).column + head.toList.length⟩ := by
    have hhead : '\n' ∉ head.toList := by
      rw [← toList_toText, hsplit, String.toList_append] at hline
      exact fun h => hline (List.mem_append_left _ h)
    have hcontent : source.content =
        (unlines before).toText ++ head ++ (tail ++ ("\n" ++ (unlines after).toText)) := by
      rw [hsource, hsplit, String.append_assoc, String.append_assoc]
    rw [Source.position_of_append hcontent, String.toList_append, List.foldl_append, toList_toText,
      Position.foldl_next_of_not_mem _ hhead, hline_first]
  obtain ⟨left, right, hsplit, hstart, hstop⟩ := cuts_of_mem_marks hx
  have hstart : x.start = ((unlines before).toText ++ left).utf8ByteSize := by
    rw [String.utf8ByteSize_append, ← size_eq]
    exact hstart
  have hstop : x.stop = ((unlines before).toText ++ (left ++ x.body.toText)).utf8ByteSize := by
    rw [← String.append_assoc, String.utf8ByteSize_append, ← hstart]
    exact hstop
  have hpositionStart := hposition (hsplit.trans (String.append_assoc ..))
  have hpositionStop := hposition hsplit
  rw [← hstart] at hpositionStart
  rw [← hstop] at hpositionStop
  constructor
  · rw [hpositionStart]
  · rw [hpositionStop]
  · rw [hpositionStart, hpositionStop, String.toList_append, List.length_append]
    exact Nat.add_le_add_left (Nat.le_add_right ..) _

end Surface.Markup

/-! ### Lines of a module -/

/-- The lines before a declaration are that of the header, those of the imports and exports, and one
for each earlier declaration. -/
theorem Module.exists_lines_of_decl {m : Module} {j : Nat} {d : Decl} (hj : m.decls[j]? = some d) :
    ∃ before after, m.lines = before ++ d.markup :: after ∧
      before.length = 1 + m.imports.length + m.exports.length + j := by
  obtain ⟨hlt, rfl⟩ := List.getElem?_eq_some_iff.mp hj
  refine ⟨m.header :: (m.imports.map Import.markup ++ m.exports.map Export.markup
    ++ (m.decls.take j).map Decl.markup), (m.decls.drop (j + 1)).map Decl.markup, ?_, ?_⟩
  · have hdecls : m.decls.map Decl.markup = (m.decls.take j).map Decl.markup ++
        m.decls[j].markup :: (m.decls.drop (j + 1)).map Decl.markup := by
      rw [← List.map_cons, ← List.map_append, List.getElem_cons_drop, List.take_append_drop]
    rw [lines, hdecls, List.cons_append, List.append_assoc, List.append_assoc, List.append_assoc]
  · simp only [List.length_cons, List.length_append, List.length_map, List.length_take]
    omega

/-- **The text of a node stands on the line of its declaration.** -/
theorem Module.exists_marks_onLine {m : Module} (hlines : ∀ line ∈ m.lines, '\n' ∉ line.chars)
    {j : Nat} {d : Decl} (hj : m.decls[j]? = some d) {n : Node} (hn : n ∈ d.subnodes) :
    ∃ x, m.Marks n x ∧ (Source.mk (.file m.ns.filePath) m.print).OnLine
      (2 + m.imports.length + m.exports.length + j) x.start x.stop := by
  obtain ⟨before, after, hsplit, hlength⟩ := exists_lines_of_decl hj
  have hmarkup : m.markup = Markup.unlines (before ++ d.markup :: after) := by
    rw [← hsplit]
    rfl
  rw [hsplit, List.forall_mem_append, List.forall_mem_cons] at hlines
  obtain ⟨hbefore, hline, -⟩ := hlines
  have hnode : n ∈ m.subnodes := List.mem_cons_of_mem _ (List.mem_append_right _
    (List.mem_flatMap.mpr ⟨d, List.mem_of_getElem? hj, hn⟩))
  have hpart : n.part ∈ (d.markup.marks (Markup.unlines before).size).map
      fun x => (x.id, x.body) := by
    rw [Markup.map_part_marks, d.parts_markup]
    exact List.mem_map_of_mem hn
  obtain ⟨x, hx, hsame⟩ := List.mem_map.mp hpart
  have hmark : x ∈ m.markup.marks 0 := by
    rw [hmarkup]
    refine Markup.mem_marks_unlines ?_
    rwa [Nat.zero_add]
  have hsource : m.print = (Markup.unlines (before ++ d.markup :: after)).toText :=
    congrArg Markup.toText hmarkup
  refine ⟨x, ⟨hnode, hmark, congrArg Prod.fst hsame, congrArg Prod.snd hsame⟩, ?_⟩
  have honLine : (Source.mk (.file m.ns.filePath) m.print).OnLine (before.length + 1) x.start
      x.stop := Markup.onLine_of_mem_marks hsource hbefore hline hx
  rwa [hlength, show 1 + m.imports.length + m.exports.length + j + 1 =
    2 + m.imports.length + m.exports.length + j by omega] at honLine

/-- A printed module has more than line breaks. -/
theorem Module.mem_toList_print (m : Module) : 'm' ∈ m.print.toList :=
  (Markup.toList_toText m.markup).symm ▸ List.mem_cons_self

/-- **A printed module has one line for its header and each import, export and declaration.**  What
is printed for a declaration and for all nodes inside it stands on the line of the declaration.
Offsets are recorded with 32 bits; so if the printed module is shorter than 4 GiB, then the spans of
these nodes start and end on this line. -/
theorem Program.lines_of_index {p : Program} (hdistinct : p.nodes.Nodup)
    (hwords : ∀ m ∈ p.modules, ∀ n ∈ m.subnodes, n.OneLine) {k : Nat} {m : Module}
    (hk : p.modules[k]? = some m) :
    (m.print.toList.count '\n' = 1 + m.imports.length + m.exports.length + m.decls.length ∧
      m.print.toList.getLast? = some '\n') ∧
    ∀ j d, m.decls[j]? = some d → ∀ n ∈ d.subnodes,
      ∃ span source, p.index.spans.get? n.id = some span ∧
        p.index.sources.get span.source = .ok source ∧ source.content = m.print ∧
        (∃ before after, m.print = before ++ n.text ++ after ∧
          span.start = before.utf8ByteSize.toUInt32 ∧
          span.stop = (before ++ n.text).utf8ByteSize.toUInt32 ∧
          source.OnLine (2 + m.imports.length + m.exports.length + j) before.utf8ByteSize
            (before ++ n.text).utf8ByteSize) ∧
        (m.print.utf8ByteSize < UInt32.size →
          source.ReportsOnLine (2 + m.imports.length + m.exports.length + j) span) := by
  have hlines := Module.newline_not_mem_lines (hwords m (List.mem_of_getElem? hk))
  have hprint : m.print.toList = (Markup.unlines m.lines).chars := Markup.toList_toText _
  have hlast : m.print.toList.getLast? = some '\n' := by
    rw [hprint]
    exact Markup.getLast?_unlines (List.cons_ne_nil _ _)
  refine ⟨⟨?_, hlast⟩, fun j d hj n hn => ?_⟩
  · rw [hprint, Markup.count_newline_unlines hlines, Module.lines, List.length_cons,
      List.length_append, List.length_append, List.length_map, List.length_map, List.length_map]
    omega
  · obtain ⟨x, hx, honLine⟩ := Module.exists_marks_onLine hlines hj hn
    refine ⟨_, _, hx.get?_index hdistinct hk,
      (p.get_sources_index hk).2 (length_modules_le hdistinct), rfl, ?_, fun hshort => ?_⟩
    · obtain ⟨before, after, hcut, hstart, hstop⟩ := hx.cuts
      have hstart : x.start = before.utf8ByteSize := hstart.trans (Nat.zero_add _)
      have hstop : x.stop = (before ++ n.text).utf8ByteSize := by
        rw [String.utf8ByteSize_append, ← hstart]
        exact hstop
      rw [hstart, hstop] at honLine
      exact ⟨before, after, hcut, congrArg Nat.toUInt32 hstart, congrArg Nat.toUInt32 hstop,
        honLine⟩
    · have hover := @Source.not_countsOver ⟨.file m.ns.filePath, m.print⟩ 'm' hshort
        (List.mem_of_getLast? hlast) m.mem_toList_print (by decide)
      obtain ⟨hstart, hstop⟩ := hx.cuts.toNat_eq hshort
      refine Source.OnLine.reportsOnLine ?_ hshort hover
      rw [show x.start.toUInt32.toNat = x.start from hstart,
        show x.stop.toUInt32.toNat = x.stop from hstop]
      exact honLine

/-- A literal with a line break on the last line of five. -/
theorem Program.lines_of_index_line_break_in_literal :
    let literal : Expr := .lit ⟨6⟩ (.str "é\n")
    let d : Decl := .value ⟨5⟩ "s" none literal
    let m : Module := ⟨⟨1⟩, ⟨["Data", "T"]⟩, [⟨⟨2⟩, ⟨["Main"]⟩⟩], [.decl ⟨3⟩ "s"],
      [.data ⟨4⟩ "T" ["a"] [], d]⟩
    let p : Program := ⟨[⟨⟨0⟩, ⟨["Main"]⟩, [], [], []⟩, m]⟩
    p.nodes.Nodup ∧ (∀ m ∈ p.modules, ∀ n ∈ m.subnodes, n.OneLine) ∧ p.modules[1]? = some m ∧
      m.decls[1]? = some d ∧ Node.expr literal ∈ d.subnodes ∧
      m.print.utf8ByteSize < UInt32.size ∧ m.print.toList.count '\n' = 5 ∧
      ∃ span source, p.index.spans.get? ⟨6⟩ = some span ∧
        p.index.sources.get span.source = .ok source ∧ source.content = m.print ∧
        source.ReportsOnLine 5 span := by
  intro literal d m p
  have hdistinct : p.nodes.Nodup := by decide
  have hwords : ∀ m ∈ p.modules, ∀ n ∈ m.subnodes, n.OneLine := by decide +kernel
  have hk : p.modules[1]? = some m := rfl
  have hj : m.decls[1]? = some d := rfl
  have hn : Node.expr literal ∈ d.subnodes := .tail _ (.head _)
  have hshort : m.print.utf8ByteSize < UInt32.size := by decide +kernel
  obtain ⟨⟨hcount, -⟩, hspans⟩ := Program.lines_of_index hdistinct hwords hk
  obtain ⟨span, source, hspan, hsource, hcontent, -, honLine⟩ := hspans 1 d hj _ hn
  exact ⟨hdistinct, hwords, hk, hj, hn, hshort, hcount, span, source, hspan, hsource, hcontent,
    honLine hshort⟩

/-! ### A literal that is too long -/

theorem Surface.utf8ByteSize_quote_letters (n : Nat) :
    (quote (.ofList (List.replicate n 'a'))).utf8ByteSize = n + 2 := by
  have hescape : escape 'a' = ['a'] := by decide +kernel
  have hletters : (List.replicate n 'a').flatMap escape = List.replicate n 'a' := by
    rw [List.flatMap_replicate, hescape, List.flatten_replicate_singleton]
  have hquote : '"'.utf8Size = 1 := rfl
  rw [← String.utf8Len_toList, toList_quote, String.toList_ofList, hletters, String.utf8Len_cons,
    String.utf8Len_append, utf8Len_replicate rfl, String.utf8Len_cons, String.utf8Len_nil, hquote]

/-- A literal that ends behind 2 ^ 32 bytes is recorded to end at the first one, on the first
line. -/
theorem Program.exists_span_of_long_literal {text : String}
    (htext : 17 + (Surface.quote text).utf8ByteSize = UInt32.size) :
    let literal : Expr := .lit ⟨2⟩ (.str text)
    let d : Decl := .value ⟨1⟩ "f" none literal
    let m : Module := ⟨⟨0⟩, ⟨["A"]⟩, [], [], [d]⟩
    let p : Program := ⟨[m]⟩
    p.nodes.Nodup ∧ (∀ m ∈ p.modules, ∀ n ∈ m.subnodes, n.OneLine) ∧
      Node.expr literal ∈ d.subnodes ∧
      ∃ span source, p.index.spans.get? ⟨2⟩ = some span ∧
        p.index.sources.get span.source = .ok source ∧ source.content = m.print ∧
        (source.lineColumn span.stop).line = 1 := by
  intro literal d m p
  have hdistinct : p.nodes.Nodup := (by decide : [NodeId.mk 0, ⟨1⟩, ⟨2⟩].Nodup)
  have hk : p.modules[0]? = some m := rfl
  have hmark : (⟨17, ⟨2⟩, .text (Surface.quote text)⟩ : Mark) ∈ m.markup.marks 0 :=
    .tail _ (.tail _ (.head _))
  have hspan := get?_index_of_mem_marks hdistinct hk hmark
  have hstop : Mark.stop ⟨17, ⟨2⟩, .text (Surface.quote text)⟩ = UInt32.size := htext
  have hsource := (p.get_sources_index hk).2 (length_modules_le hdistinct)
  have hsubnodes : m.subnodes = [.header m, .decl d, .expr literal] := rfl
  refine ⟨hdistinct, ?_, .tail _ (.head _), _, _, hspan, hsource, rfl, ?_⟩
  · -- The only words are `A` and `f`.
    simp [p, hsubnodes, m, d, literal, Node.OneLine, Node.words]
  · have hfirst (source : Source) : source.position 0 = .first :=
      Position.advance_append .first [] _
    rw [hstop]
    show (Source.position _ 0).line.toUInt32 = 1
    rw [hfirst]
    rfl

/-- The text of a literal of 2 ^ 32 - 19 letters ends on the line of its declaration, which is the
second one, but its span ends on the first one. -/
theorem Program.lines_of_index_long_literal :
    let literal : Expr := .lit ⟨2⟩ (.str (.ofList (List.replicate 4294967277 'a')))
    let d : Decl := .value ⟨1⟩ "f" none literal
    let m : Module := ⟨⟨0⟩, ⟨["A"]⟩, [], [], [d]⟩
    let p : Program := ⟨[m]⟩
    p.nodes.Nodup ∧ (∀ m ∈ p.modules, ∀ n ∈ m.subnodes, n.OneLine) ∧
      Node.expr literal ∈ d.subnodes ∧
      ∃ span source, p.index.spans.get? ⟨2⟩ = some span ∧
        p.index.sources.get span.source = .ok source ∧ source.content = m.print ∧
        ¬source.ReportsOnLine 2 span := by
  intro literal d m p
  have htext : 17 + (Surface.quote (.ofList (List.replicate 4294967277 'a'))).utf8ByteSize =
      UInt32.size := by
    rw [Surface.utf8ByteSize_quote_letters]
  obtain ⟨hdistinct, hwords, hn, span, source, hspan, hsource, hcontent, hline⟩ :=
    exists_span_of_long_literal htext
  refine ⟨hdistinct, hwords, hn, span, source, hspan, hsource, hcontent, fun hreports => ?_⟩
  have hstop := hreports.line_stop
  rw [hline] at hstop
  exact absurd hstop (by decide)

end NameResolution
