import NameResolution.Proofs.Nodes
import NameResolution.Proofs.Pointwise
import NameResolution.Proofs.Surface.Extents
import NameResolution.Surface.Index
import Mathlib.Data.List.Induction

/-!
# The index of a printed program

The printer marks every node of a module and nothing else (`Module.nodes_markup`), so in the index
of a program every node has a span (`Program.isSome_get?_index`).  The span is that of a node with
this id in some module, which need not be the only one (`Program.records_of_get?_index`), and its
source is the printed module, as long as the modules can be numbered.
-/

namespace NameResolution

open Surface (Markup Extent)

/-! ### What the printer marks -/

@[simp] theorem Name.nodes_markup (name : Name) : name.markup.nodes = [] := rfl

@[simp] theorem Namespace.nodes_markup (ns : Namespace) : ns.markup.nodes = [] := rfl

@[simp] theorem Literal.nodes_markup (value : Literal) : value.markup.nodes = [] := rfl

@[simp] theorem Pattern.nodes_fieldsMarkup (fields : List Name) :
    (Pattern.fieldsMarkup fields).nodes = [] := by
  rw [fieldsMarkup]
  split_ifs <;> rfl

mutual

@[simp] theorem Ty.nodes_markup : (type : Ty) → type.markup.nodes = type.nodes
  | .var id ident => by
    simp only [Ty.markup, Ty.nodes, Markup.nodes_node, Markup.nodes_text, List.nil_append]
  | .con id name args => by
    cases args with
    | nil => rfl
    | cons arg rest =>
      have hargs := Ty.nodes_listMarkup (arg :: rest)
      simp [Ty.markup, Ty.nodes, hargs]
  | .arrow id param result => by
    simp [Ty.markup, Ty.nodes, param.nodes_markup, result.nodes_markup]

@[simp] theorem Ty.nodes_listMarkup : (types : List Ty) →
    (Ty.listMarkup types).nodes = Ty.listNodes types
  | [] => rfl
  | type :: rest => by
    simp [Ty.listMarkup, Ty.listNodes, type.nodes_markup, Ty.nodes_listMarkup rest]

end

@[simp] theorem Pattern.nodes_markup (pattern : Pattern) : pattern.markup.nodes = [pattern.id] := by
  cases pattern with
  | lit id value => rfl
  | bind id name => rfl
  | wildcard id => rfl
  | variant id type ctor fields => simp [Pattern.markup, Pattern.id]

mutual

@[simp] theorem Expr.nodes_markup : (e : Expr) → e.markup.nodes = e.nodes
  | .lit id value => rfl
  | .var id name => rfl
  | .app id func arg => by
    simp [Expr.markup, Expr.nodes, func.nodes_markup, arg.nodes_markup]
  | .lambda id param body => by
    simp [Expr.markup, Expr.nodes, body.nodes_markup]
  | .annot id expr type => by
    simp [Expr.markup, Expr.nodes, expr.nodes_markup]
  | .letIn id binder bound body => by
    simp [Expr.markup, Expr.nodes, bound.nodes_markup, body.nodes_markup]
  | .ifThenElse id cond thenBranch elseBranch => by
    simp [Expr.markup, Expr.nodes, cond.nodes_markup, thenBranch.nodes_markup,
      elseBranch.nodes_markup]
  | .matchWith id scrutinee arms => by
    simp [Expr.markup, Expr.nodes, scrutinee.nodes_markup, Arm.nodes_listMarkup arms]

@[simp] theorem Arm.nodes_markup : (arm : Arm) → arm.markup.nodes = arm.nodes
  | ⟨pattern, body⟩ => by
    simp [Arm.markup, Arm.nodes, body.nodes_markup]

@[simp] theorem Arm.nodes_listMarkup : (arms : List Arm) →
    (Arm.listMarkup arms).nodes = Arm.listNodes arms
  | [] => rfl
  | arm :: rest => by
    simp [Arm.listMarkup, Arm.listNodes, arm.nodes_markup, Arm.nodes_listMarkup rest]

end

@[simp] theorem Constructor.nodes_markup (ctor : Constructor) : ctor.markup.nodes = ctor.nodes := by
  simp [Constructor.markup, Constructor.nodes]

@[simp] theorem Constructor.nodes_listMarkup (ctors : List Constructor) :
    (Constructor.listMarkup ctors).nodes = ctors.flatMap Constructor.nodes := by
  cases ctors with
  | nil => rfl
  | cons first rest => simp [Constructor.listMarkup, List.flatMap_map]

@[simp] theorem Decl.nodes_markup (decl : Decl) : decl.markup.nodes = decl.nodes := by
  cases decl with
  | value id ident signature body =>
    cases signature with
    | none => simp [Decl.markup, Decl.nodes]
    | some type => simp [Decl.markup, Decl.nodes]
  | data id ident params ctors => simp [Decl.markup, Decl.nodes, List.flatMap_map]

@[simp] theorem Import.nodes_markup (i : Import) : i.markup.nodes = [i.id] := by
  simp [Import.markup]

@[simp] theorem Export.nodes_markup (e : Export) : e.markup.nodes = [e.id] := by
  cases e with
  | decl id ident => simp [Export.markup, Export.id]
  | reexport id target => simp [Export.markup, Export.id]

/-- **The printer marks every node of a module, and in order.** -/
theorem Module.nodes_markup (m : Module) : m.markup.nodes = m.nodes := by
  rw [nodes, List.map_eq_flatMap, List.map_eq_flatMap]
  simp [Module.markup, Module.lines, Module.header, List.flatMap_map]

/-! ### Recorded spans -/

namespace NodeSpans

variable {spans : NodeSpans}

/-- A span that is recorded takes the place of an earlier one of the node, and of no other one. -/
theorem get?_insert (spans : NodeSpans) (id node : NodeId) (span : Span) :
    (spans.insert id span).get? node = if node = id then some span else spans.get? node := by
  unfold insert get?
  rw [List.lookup_cons]
  by_cases hnode : node = id
  · rw [if_pos hnode, beq_iff_eq.mpr hnode]
  · rw [if_neg hnode, beq_eq_false_iff_ne.mpr hnode]
    show List.lookup node (spans.entries.filter (·.1 ≠ id)) = List.lookup node spans.entries
    induction spans.entries with
    | nil => rfl
    | cons entry rest ih =>
      by_cases hentry : entry.1 = id
      · have hother : (node == entry.1) = false := by
          rw [hentry]
          exact beq_eq_false_iff_ne.mpr hnode
        rw [List.filter_cons_of_neg (by simpa using hentry), ih, List.lookup_cons, hother]
      · rw [List.filter_cons_of_pos (by simpa using hentry), List.lookup_cons, List.lookup_cons, ih]

end NodeSpans

namespace Indexed

variable {source : SourceId} {spans : NodeSpans} {extents : List Extent} {node : NodeId}

/-- A node with a place gets a span, and a node keeps the span that it has. -/
theorem isSome_get?_addExtents :
    ((addExtents source spans extents).get? node).isSome ↔
      node ∈ extents.map Extent.id ∨ (spans.get? node).isSome := by
  induction extents generalizing spans with
  | nil => simp [addExtents]
  | cons extent rest ih =>
    rw [addExtents, ih, NodeSpans.get?_insert, List.map_cons, List.mem_cons]
    by_cases hnode : node = extent.id
    · simp [hnode]
    · simp [hnode]

/-- The span of a node is that of one of the places, or the one that it has had before. -/
theorem get?_addExtents {span : Span}
    (h : (addExtents source spans extents).get? node = some span) :
    (∃ x ∈ extents, x.id = node ∧ span = ⟨source, x.start.toUInt32, x.stop.toUInt32⟩) ∨
      spans.get? node = some span := by
  induction extents generalizing spans with
  | nil => exact Or.inr h
  | cons extent rest ih =>
    rcases ih h with ⟨x, hx, hrest⟩ | hspan
    · exact Or.inl ⟨x, List.mem_cons_of_mem _ hx, hrest⟩
    · rw [NodeSpans.get?_insert] at hspan
      split_ifs at hspan with hnode
      · cases hspan
        exact Or.inl ⟨extent, List.mem_cons_self, hnode.symm, rfl⟩
      · exact Or.inr hspan

end Indexed

/-! ### Spans inside a text -/

/-- The span lies in the text, from one character boundary up to another. -/
structure Span.Within (span : Span) (text : String) : Prop where
  start_le : span.start.toNat ≤ span.stop.toNat
  stop_le : span.stop.toNat ≤ text.utf8ByteSize
  start_isValid : (⟨span.start.toNat⟩ : String.Pos.Raw).IsValid text
  stop_isValid : (⟨span.stop.toNat⟩ : String.Pos.Raw).IsValid text

namespace Surface.Extent.Cuts

variable {x : Extent} {text part : String}

/-- In a text shorter than 4 GiB offsets are recorded as they are. -/
theorem toNat_eq (h : x.Cuts 0 text part) (hshort : text.utf8ByteSize < UInt32.size) :
    x.start.toUInt32.toNat = x.start ∧ x.stop.toUInt32.toNat = x.stop := by
  obtain ⟨hle, hend, -, -⟩ := h.bounds
  constructor
  · refine UInt32.toNat_ofNat_of_lt' ?_
    show x.start < UInt32.size
    omega
  · refine UInt32.toNat_ofNat_of_lt' ?_
    show x.stop < UInt32.size
    omega

theorem within (h : x.Cuts 0 text part) (hshort : text.utf8ByteSize < UInt32.size)
    (source : SourceId) : Span.Within ⟨source, x.start.toUInt32, x.stop.toUInt32⟩ text := by
  obtain ⟨hle, hend, hstart, hstop⟩ := h.bounds
  obtain ⟨hstartNat, hstopNat⟩ := h.toNat_eq hshort
  constructor
  · rw [hstartNat, hstopNat]
    exact hle
  · rw [hstopNat]
    exact hend
  · rw [hstartNat]
    exact hstart
  · rw [hstopNat]
    exact hstop

end Surface.Extent.Cuts

/-! ### The index of a program -/

namespace Program

/-- The span is that of a node with this id: it lies in the source of its module, where the printer
has put the node. -/
def Records (p : Program) (id : NodeId) (span : Span) : Prop :=
  ∃ (k : Nat) (m : Module) (x : Extent), p.modules[k]? = some m ∧ x ∈ m.markup.extents 0 ∧
    x.id = id ∧ span = ⟨⟨k.toUInt32⟩, x.start.toUInt32, x.stop.toUInt32⟩

/-- The last module is indexed last. -/
theorem index_concat (modules : List Module) (m : Module) :
    (⟨modules ++ [m]⟩ : Program).index = (⟨modules⟩ : Program).index.addModule m :=
  List.foldl_concat ..

/-- Every module is a source. -/
theorem entries_index (modules : List Module) :
    (⟨modules⟩ : Program).index.sources.entries =
      modules.map fun m => ⟨.file m.ns.filePath, m.print⟩ := by
  induction modules using List.reverseRecOn with
  | nil => rfl
  | append_singleton modules m ih =>
    rw [index_concat, List.map_append, ← ih]
    rfl

/-- **Every node of a program has a span, and nothing else has.** -/
theorem isSome_get?_index (p : Program) (id : NodeId) :
    (p.index.spans.get? id).isSome ↔ id ∈ p.nodes := by
  obtain ⟨modules⟩ := p
  induction modules using List.reverseRecOn with
  | nil => simp [index, nodes, Indexed.empty, NodeSpans.empty, NodeSpans.get?]
  | append_singleton modules m ih =>
    rw [index_concat, nodes, List.flatMap_append, List.flatMap_singleton, List.mem_append]
    show ((Indexed.addExtents _ _ (m.markup.extents 0)).get? id).isSome ↔ _
    rw [Indexed.isSome_get?_addExtents, Markup.map_id_extents, m.nodes_markup, ih, or_comm]
    rfl

/-- **A span is that of a node of some module.** -/
theorem records_of_get?_index {p : Program} {id : NodeId} {span : Span}
    (h : p.index.spans.get? id = some span) : p.Records id span := by
  obtain ⟨modules⟩ := p
  induction modules using List.reverseRecOn with
  | nil => cases h
  | append_singleton modules m ih =>
    rw [index_concat] at h
    rcases Indexed.get?_addExtents h with ⟨x, hx, hid, hspan⟩ | h
    · -- The source has been added at the end, where the last module is.
      refine ⟨modules.length, m, x, List.getElem?_concat_length, hx, hid, ?_⟩
      rw [hspan, entries_index, List.length_map]
    · obtain ⟨k, other, x, hk, hrest⟩ := ih h
      have hlt : k < modules.length := (List.getElem?_eq_some_iff.mp hk).1
      exact ⟨k, other, x, (List.getElem?_append_left hlt).trans hk, hrest⟩

/-- Recorded spans lie in the texts of their modules, if these are shorter than 4 GiB. -/
theorem Records.exists_within {p : Program} {id : NodeId} {span : Span} (h : p.Records id span)
    (hshort : ∀ m ∈ p.modules, m.print.utf8ByteSize < UInt32.size) :
    ∃ (k : Nat) (m : Module), p.modules[k]? = some m ∧ span.source = ⟨k.toUInt32⟩ ∧
      span.Within m.print := by
  obtain ⟨k, m, x, hk, hx, -, rfl⟩ := h
  obtain ⟨mark, -, -, hcuts⟩ := exists_right_of_forall₂ (m.markup.forall₂_extents 0) hx
  exact ⟨k, m, hk, rfl, hcuts.within (hshort m (List.mem_of_getElem? hk)) _⟩

/-- **The source that a span names is there.**  It is the printed module, if there are no more
modules than there are ids for them. -/
theorem get_sources_index (p : Program) {k : Nat} {m : Module} (hk : p.modules[k]? = some m) :
    (∃ source, p.index.sources.get ⟨k.toUInt32⟩ = .ok source) ∧
      (p.modules.length ≤ UInt32.size →
        p.index.sources.get ⟨k.toUInt32⟩ = .ok ⟨.file m.ns.filePath, m.print⟩) := by
  obtain ⟨modules⟩ := p
  have hlt : k < modules.length := (List.getElem?_eq_some_iff.mp hk).1
  have hmod : k.toUInt32.toNat = k % UInt32.size := UInt32.toNat_ofNat'
  unfold Sources.get
  rw [entries_index, List.getElem?_map]
  constructor
  · have hother : k.toUInt32.toNat < modules.length := by
      have hle := Nat.mod_le k UInt32.size
      omega
    rw [List.getElem?_eq_getElem hother]
    exact ⟨_, rfl⟩
  · intro hfew
    have hid : (SourceId.mk k.toUInt32).val.toNat = k := by
      show k.toUInt32.toNat = k
      rw [hmod]
      exact Nat.mod_eq_of_lt (Nat.lt_of_lt_of_le hlt hfew)
    rw [hid, hk]
    rfl

end Program

end NameResolution
