import NameResolution.Proofs.Surface.Parts
import Mathlib

/-!
# Spans cut out the texts of their nodes

In the index of a program with distinct ids each node of a module has a span, which cuts the text of
the node out of the printed module.  The span of a term covers those of all nodes inside it, and
spans of nodes neither of which is inside the other do not overlap (`Program.spans_of_index`).

The printer marks exactly the nodes (`Module.exists_marks`), so what lies inside a mark is what lies
inside its node (`Module.Marks.covers`, `Module.Marks.mem_inside`), and marks never overlap by
halves.
-/

namespace NameResolution

open Surface (Markup Extent Mark)

/-! ### The span of a marked part -/

namespace Program

variable {p : Program}

/-- If ids are distinct, then a node belongs to one module. -/
theorem eq_of_mem_nodes (hdistinct : p.nodes.Nodup) {k k' : Nat} {m m' : Module}
    (hk : p.modules[k]? = some m) (hk' : p.modules[k']? = some m') {id : NodeId}
    (hid : id ∈ m.nodes) (hid' : id ∈ m'.nodes) : k = k' := by
  obtain ⟨hlt, rfl⟩ := List.getElem?_eq_some_iff.mp hk
  obtain ⟨hlt', rfl⟩ := List.getElem?_eq_some_iff.mp hk'
  have hdisjoint := List.pairwise_iff_getElem.mp (List.nodup_flatMap.mp hdistinct).2
  rcases Nat.lt_trichotomy k k' with hbefore | rfl | hafter
  · exact absurd hid' (hdisjoint k k' hlt hlt' hbefore hid)
  · rfl
  · exact absurd hid (hdisjoint k' k hlt' hlt hafter hid')

theorem nodup_nodes_of_mem (hdistinct : p.nodes.Nodup) {m : Module} (hm : m ∈ p.modules) :
    m.nodes.Nodup :=
  (List.nodup_flatMap.mp hdistinct).1 m hm

/-- There are no more modules than ids. -/
theorem length_modules_le (hdistinct : p.nodes.Nodup) : p.modules.length ≤ UInt32.size := by
  have hnodes : p.modules.length ≤ p.nodes.length := by
    have hone : ∀ n ∈ p.modules.map fun m => m.nodes.length, 1 ≤ n := by
      intro n hn
      obtain ⟨m, -, rfl⟩ := List.mem_map.mp hn
      exact Nat.succ_pos _
    have hsum := List.length_le_sum_of_one_le _ hone
    rwa [List.length_map, ← List.length_flatMap] at hsum
  -- Distinct ids are distinct numbers below the size.
  have hnumbers : (p.nodes.map fun id => id.val.toNat).Nodup :=
    hdistinct.map fun id id' hsame => by
      cases id
      cases id'
      exact congrArg NodeId.mk (UInt32.toNat_inj.mp hsame)
  have hbelow : p.nodes.map (fun id => id.val.toNat) ⊆ List.range UInt32.size := by
    intro n hn
    obtain ⟨id, -, rfl⟩ := List.mem_map.mp hn
    exact List.mem_range.mpr id.val.toNat_lt
  have hlength := (List.subperm_of_subset hnumbers hbelow).length_le
  rw [List.length_map, List.length_range] at hlength
  exact Nat.le_trans hnodes hlength

/-- **If ids are distinct, then the span of a marked part is its place.** -/
theorem get?_index_of_mem_marks (hdistinct : p.nodes.Nodup) {k : Nat} {m : Module}
    (hk : p.modules[k]? = some m) {x : Mark} (hx : x ∈ m.markup.marks 0) :
    p.index.spans.get? x.id =
      some ⟨⟨k.toUInt32⟩, x.start.toUInt32, x.stop.toUInt32⟩ := by
  have hextent : x.extent ∈ m.markup.extents 0 := by
    rw [← Markup.map_extent_marks]
    exact List.mem_map_of_mem hx
  have hids : (m.markup.extents 0).map Extent.id = m.nodes := by
    rw [Markup.map_id_extents, m.nodes_markup]
  have hid : x.id ∈ m.nodes := hids ▸ List.mem_map_of_mem hextent
  have hm : m ∈ p.modules := List.mem_of_getElem? hk
  have hsome := (p.isSome_get?_index x.id).mpr (Program.module_subset_nodes hm hid)
  obtain ⟨span, hspan⟩ := Option.isSome_iff_exists.mp hsome
  obtain ⟨k', m', other, hk', hother, hsame, rfl⟩ := records_of_get?_index hspan
  have hid' : x.id ∈ m'.nodes := by
    rw [← m'.nodes_markup, ← m'.markup.map_id_extents 0, ← hsame]
    exact List.mem_map_of_mem hother
  obtain rfl := eq_of_mem_nodes hdistinct hk hk' hid hid'
  obtain rfl := Option.some.inj (hk.symm.trans hk')
  have hnodup : ((m.markup.extents 0).map Extent.id).Nodup :=
    hids ▸ nodup_nodes_of_mem hdistinct hm
  obtain rfl := List.inj_on_of_nodup_map hnodup hother hextent hsame
  exact hspan

end Program

/-! ### Nodes and their marks -/

namespace Module

variable {m : Module}

/-- Nodes are known by their ids. -/
theorem eq_of_id_eq (hdistinct : m.nodes.Nodup) {a b : Node} (ha : a ∈ m.subnodes)
    (hb : b ∈ m.subnodes) (h : a.id = b.id) : a = b := by
  rw [← m.map_id_subnodes] at hdistinct
  exact List.inj_on_of_nodup_map hdistinct ha hb h

/-- Marks are known by their ids. -/
theorem mark_eq_of_id_eq (hdistinct : m.nodes.Nodup) {x y : Mark} (hx : x ∈ m.markup.marks 0)
    (hy : y ∈ m.markup.marks 0) (h : x.id = y.id) : x = y := by
  have hids : (m.markup.marks 0).map Mark.id = m.nodes := by
    rw [← m.nodes_markup, ← m.markup.map_id_extents 0, ← Markup.map_extent_marks, List.map_map]
    rfl
  rw [← hids] at hdistinct
  exact List.inj_on_of_nodup_map hdistinct hx hy h

end Module

namespace Node

variable {n : Node} {offset : Nat} {x : Mark}

/-- The nodes inside a term are marked in its text. -/
theorem exists_mark_of_mem_inside (h : n.IsTerm) {other : Node} (hother : other ∈ n.inside)
    (offset : Nat) : ∃ x ∈ n.body.marks offset, x.id = other.id ∧ x.body = other.body := by
  have hpart : other.part ∈ (n.body.marks offset).map fun x => (x.id, x.body) := by
    rw [Markup.map_part_marks, parts_body h]
    exact List.mem_map_of_mem hother
  obtain ⟨x, hx, hsame⟩ := List.mem_map.mp hpart
  exact ⟨x, hx, congrArg Prod.fst hsame, congrArg Prod.snd hsame⟩

/-- What is marked in the text of a node is a node inside it. -/
theorem exists_inside_of_mem_marks (hx : x ∈ n.body.marks offset) :
    n.IsTerm ∧ ∃ other ∈ n.inside, other.id = x.id := by
  have hpart : (x.id, x.body) ∈ n.body.parts := by
    rw [← n.body.map_part_marks offset]
    exact List.mem_map_of_mem hx
  have hterm : n.IsTerm := by
    cases n with
    | header m => cases hpart
    | imported i => cases hpart
    | exported e => cases e <;> cases hpart
    | decl d => cases hpart
    | ctor c => trivial
    | expr e => trivial
    | pattern p => trivial
    | type t => trivial
  rw [parts_body hterm] at hpart
  obtain ⟨other, hother, hsame⟩ := List.mem_map.mp hpart
  exact ⟨hterm, other, hother, congrArg Prod.fst hsame⟩

end Node

/-- A node with its mark in a module. -/
structure Module.Marks (m : Module) (n : Node) (x : Mark) : Prop where
  node_mem : n ∈ m.subnodes
  mark_mem : x ∈ m.markup.marks 0
  id_eq : x.id = n.id
  body_eq : x.body = n.body

namespace Module.Marks

variable {m : Module} {a b : Node} {x y : Mark}

/-- The mark of a node cuts out the text of the node. -/
theorem cuts (hx : m.Marks a x) : x.extent.Cuts 0 m.print a.text := by
  rw [← a.toText_body, ← hx.body_eq]
  exact Markup.cuts_of_mem_marks hx.mark_mem

/-- The index has the mark of a node as its span, with offsets of 32 bits. -/
theorem get?_index {p : Program} {k : Nat} (hdistinct : p.nodes.Nodup)
    (hk : p.modules[k]? = some m) (hx : m.Marks a x) :
    p.index.spans.get? a.id = some ⟨⟨k.toUInt32⟩, x.start.toUInt32, x.stop.toUInt32⟩ :=
  hx.id_eq ▸ Program.get?_index_of_mem_marks hdistinct hk hx.mark_mem

/-- The mark of a term covers the marks of the nodes inside it. -/
theorem covers (hids : m.nodes.Nodup) (hx : m.Marks a x) (hy : m.Marks b y) (h : a.IsTerm)
    (hb : b ∈ a.inside) : x.start ≤ y.start ∧ y.stop ≤ x.stop := by
  obtain ⟨z, hz, hid, -⟩ := Node.exists_mark_of_mem_inside h hb x.start
  rw [← hx.body_eq] at hz
  have hmem := Markup.marks_subset_of_mem_marks hx.mark_mem hz
  obtain rfl := mark_eq_of_id_eq hids hmem hy.mark_mem (hid.trans hy.id_eq.symm)
  exact Markup.bounds_of_mem_marks hz

/-- A mark inside the mark of another node is that of a node inside it. -/
theorem mem_inside (hids : m.nodes.Nodup) (hx : m.Marks a x) (hy : m.Marks b y)
    (h : x ∈ y.body.marks y.start) : b.IsTerm ∧ a ∈ b.inside := by
  rw [hy.body_eq] at h
  obtain ⟨hterm, other, hother, hid⟩ := Node.exists_inside_of_mem_marks h
  have hmem := m.closed_subnodes b hy.node_mem hother
  rw [← eq_of_id_eq hids hmem hx.node_mem (hid.trans hx.id_eq)]
  exact ⟨hterm, hother⟩

/-- The marks of nodes do not overlap, unless one node is a term and the other one is inside it. -/
theorem disjoint (hids : m.nodes.Nodup) (hx : m.Marks a x) (hy : m.Marks b y) (hne : a ≠ b)
    (hab : ¬(a.IsTerm ∧ b ∈ a.inside)) (hba : ¬(b.IsTerm ∧ a ∈ b.inside)) :
    x.stop ≤ y.start ∨ y.stop ≤ x.start := by
  have hmarks : x ≠ y := by
    rintro rfl
    exact hne (eq_of_id_eq hids hx.node_mem hy.node_mem (hx.id_eq.symm.trans hy.id_eq))
  rcases Markup.disjoint_or_inside hx.mark_mem hy.mark_mem hmarks with h | h | h | h
  · exact Or.inl h
  · exact Or.inr h
  · exact absurd (mem_inside hids hx hy h) hba
  · exact absurd (mem_inside hids hy hx h) hab

end Module.Marks

/-- Every node is marked. -/
theorem Module.exists_marks {m : Module} {n : Node} (hn : n ∈ m.subnodes) : ∃ x, m.Marks n x := by
  have hpart : n.part ∈ (m.markup.marks 0).map fun x => (x.id, x.body) := by
    rw [Markup.map_part_marks, m.parts_markup]
    exact List.mem_map_of_mem hn
  obtain ⟨x, hx, hsame⟩ := List.mem_map.mp hpart
  exact ⟨x, hn, hx, congrArg Prod.fst hsame, congrArg Prod.snd hsame⟩

/-! ### Spans of nodes -/

/-- The span cuts `part` out of the text. -/
structure Span.CutsOut (span : Span) (text part : String) : Prop where
  within : span.Within text
  cut : ∃ before after, text = before ++ part ++ after ∧
    span.start.toNat = before.utf8ByteSize ∧ span.stop.toNat = (before ++ part).utf8ByteSize

theorem Surface.Extent.Cuts.cutsOut {x : Extent} {text part : String} (h : x.Cuts 0 text part)
    (hshort : text.utf8ByteSize < UInt32.size) (source : SourceId) :
    Span.CutsOut ⟨source, x.start.toUInt32, x.stop.toUInt32⟩ text part := by
  refine ⟨h.within hshort source, ?_⟩
  obtain ⟨hstartNat, hstopNat⟩ := h.toNat_eq hshort
  obtain ⟨before, after, hsplit, hstart, hstop⟩ := h
  refine ⟨before, after, hsplit, ?_, ?_⟩
  · rw [hstartNat, hstart, Nat.zero_add]
  · rw [hstopNat, hstop, hstart, Nat.zero_add, String.utf8ByteSize_append]

/-- **The span of a node cuts out the text of the node**, the span of a term covers those of the
nodes inside it, and the spans of other nodes do not overlap. -/
theorem Program.spans_of_index {p : Program} (hdistinct : p.nodes.Nodup)
    (hshort : ∀ m ∈ p.modules, m.print.utf8ByteSize < UInt32.size) {k : Nat} {m : Module}
    (hk : p.modules[k]? = some m) :
    (∀ n ∈ m.subnodes, ∃ span, p.index.spans.get? n.id = some span ∧
      span.source.val.toNat = k ∧
      p.index.sources.get span.source = .ok ⟨.file m.ns.filePath, m.print⟩ ∧
      span.CutsOut m.print n.text) ∧
    ∀ a ∈ m.subnodes, ∀ b ∈ m.subnodes, ∀ s t, p.index.spans.get? a.id = some s →
      p.index.spans.get? b.id = some t →
      (a.IsTerm → b ∈ a.inside → s.start ≤ t.start ∧ t.stop ≤ s.stop) ∧
      (a ≠ b → ¬(a.IsTerm ∧ b ∈ a.inside) → ¬(b.IsTerm ∧ a ∈ b.inside) →
        s.stop ≤ t.start ∨ t.stop ≤ s.start) := by
  have hm : m ∈ p.modules := List.mem_of_getElem? hk
  have hids : m.nodes.Nodup := nodup_nodes_of_mem hdistinct hm
  constructor
  · intro n hn
    obtain ⟨x, hx⟩ := Module.exists_marks hn
    have hlt : k < UInt32.size :=
      Nat.lt_of_lt_of_le (List.getElem?_eq_some_iff.mp hk).1 (length_modules_le hdistinct)
    exact ⟨_, hx.get?_index hdistinct hk, UInt32.toNat_ofNat_of_lt' hlt,
      (p.get_sources_index hk).2 (length_modules_le hdistinct), hx.cuts.cutsOut (hshort m hm) _⟩
  · intro a ha b hb s t hs ht
    obtain ⟨x, hx⟩ := Module.exists_marks ha
    obtain ⟨y, hy⟩ := Module.exists_marks hb
    obtain rfl := Option.some.inj ((hx.get?_index hdistinct hk).symm.trans hs)
    obtain rfl := Option.some.inj ((hy.get?_index hdistinct hk).symm.trans ht)
    obtain ⟨hxstart, hxstop⟩ := hx.cuts.toNat_eq (hshort m hm)
    obtain ⟨hystart, hystop⟩ := hy.cuts.toNat_eq (hshort m hm)
    simp only [UInt32.le_iff_toNat_le]
    rw [show x.start.toUInt32.toNat = x.start from hxstart,
      show x.stop.toUInt32.toNat = x.stop from hxstop,
      show y.start.toUInt32.toNat = y.start from hystart,
      show y.stop.toUInt32.toNat = y.stop from hystop]
    exact ⟨hx.covers hids hy, hx.disjoint hids hy⟩

/-- A constructor with a field, behind another module and before a literal. -/
theorem Program.spans_of_index_wide_characters :
    let field : Ty := .con ⟨5⟩ (.unqualified "Größe") [.var ⟨4⟩ "a"]
    let ctor : Constructor := ⟨⟨3⟩, "Über", [field]⟩
    let literal : Expr := .lit ⟨7⟩ (.str "é\n")
    let m : Module := ⟨⟨1⟩, ⟨["Data", "T"]⟩, [], [],
      [.data ⟨2⟩ "T" ["a"] [ctor], .value ⟨6⟩ "s" none literal]⟩
    let p : Program := ⟨[⟨⟨0⟩, ⟨["Main"]⟩, [], [], []⟩, m]⟩
    p.nodes.Nodup ∧ (∀ m ∈ p.modules, m.print.utf8ByteSize < UInt32.size) ∧
      p.modules[1]? = some m ∧
      (∃ span, p.index.spans.get? ⟨3⟩ = some span ∧ span.source.val.toNat = 1 ∧
        p.index.sources.get span.source = .ok ⟨.file "Data/T.sb", m.print⟩ ∧
        span.CutsOut m.print "Über (Größe a)") ∧
      ∃ s t u, p.index.spans.get? ⟨3⟩ = some s ∧ p.index.spans.get? ⟨5⟩ = some t ∧
        p.index.spans.get? ⟨7⟩ = some u ∧ (s.start ≤ t.start ∧ t.stop ≤ s.stop) ∧
        (t.stop ≤ u.start ∨ u.stop ≤ t.start) := by
  intro field ctor literal m p
  have hdistinct : p.nodes.Nodup := by decide
  have hshort : ∀ m ∈ p.modules, m.print.utf8ByteSize < UInt32.size := by decide +kernel
  have hk : p.modules[1]? = some m := rfl
  obtain ⟨hcuts, hlie⟩ := Program.spans_of_index hdistinct hshort hk
  have hctor : Node.ctor ctor ∈ m.subnodes := by
    simp [Module.subnodes, Module.inside, m, Decl.subnodes, Decl.inside]
  have hfield : Node.type field ∈ ctor.inside := by
    simp [Constructor.inside, ctor, Ty.listInside]
  have hmem : Node.type field ∈ m.subnodes := m.closed_subnodes _ hctor hfield
  have hliteral : Node.expr literal ∈ m.subnodes := by
    simp [Module.subnodes, Module.inside, m, Decl.subnodes, Decl.inside]
  obtain ⟨s, hs, hsource, hget, hcut⟩ := hcuts _ hctor
  obtain ⟨t, ht, -⟩ := hcuts _ hmem
  obtain ⟨u, hu, -⟩ := hcuts _ hliteral
  refine ⟨hdistinct, hshort, hk, ⟨s, hs, hsource, hget, hcut⟩, s, t, u, hs, ht, hu, ?_, ?_⟩
  · exact (hlie _ hctor _ hmem s t hs ht).1 trivial hfield
  · refine (hlie _ hmem _ hliteral t u ht hu).2 ?_ ?_ ?_
    · rintro ⟨⟩
    · rintro ⟨-, h⟩
      simp [Node.inside, Ty.inside, field, Ty.listInside] at h
    · rintro ⟨-, h⟩
      cases h

end NameResolution
