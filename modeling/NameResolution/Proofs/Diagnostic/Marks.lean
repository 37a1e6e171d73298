import NameResolution.Diagnostic.OfError
import NameResolution.Proofs.Nodes
import Mathlib.Data.List.Perm.Basic

/-!
# The places that diagnostics mark

What tells an error marks the spans of exactly the nodes that the error carries
(`Error.marks_diagnostics`): each id as often as it is carried, whichever markers of whichever
diagnostics get it.  It faults if and only if one of the ids has no span.

A computation that `Marks` nodes looks up the spans of these nodes, one by one, and shows them in
its result together with those that have been looked up before it.  So the rule for a sequence adds
up nodes, and to add a marker to a diagnostic is to add a span.
-/

namespace NameResolution

/-! ### The spans of a diagnostic -/

namespace Diagnostic

/-- The spans of all markers. -/
def spans (d : Diagnostic) : List Span := d.primary.map Marker.span ++ d.context.map Marker.span

theorem map_span_markers (d : Diagnostic) : d.markers.map (·.1.span) = d.spans := by
  rw [markers, List.map_append, List.map_map, List.map_map]
  rfl

theorem spans_withPrimary (d : Diagnostic) (marker : Marker) :
    (d.withPrimary marker).spans.Perm (d.spans ++ [marker.span]) := by
  show (d.main.span :: ((d.further ++ [marker]).map Marker.span ++ d.context.map Marker.span)).Perm
    (d.main.span :: (d.further.map Marker.span ++ d.context.map Marker.span) ++ [marker.span])
  rw [List.map_append, List.append_assoc, List.cons_append, List.append_assoc]
  exact (List.perm_append_comm.append_left _).cons _

theorem spans_relatedTo (d : Diagnostic) (marker : Marker) :
    (d.relatedTo marker).spans.Perm (d.spans ++ [marker.span]) := by
  show (d.primary.map Marker.span ++ (d.context ++ [marker]).map Marker.span).Perm _
  rw [List.map_append, ← List.append_assoc]
  exact .refl _

/-- Adding markers one by one adds their spans. -/
theorem spans_foldl {add : Diagnostic → Marker → Diagnostic}
    (hadd : ∀ d marker, (add d marker).spans.Perm (d.spans ++ [marker.span]))
    (markers : List Marker) (d : Diagnostic) :
    (markers.foldl add d).spans.Perm (d.spans ++ markers.map Marker.span) := by
  induction markers generalizing d with
  | nil =>
    rw [List.map_nil, List.append_nil]
    exact .refl _
  | cons marker rest ih =>
    have hrest := (ih (add d marker)).trans ((hadd d marker).append_right _)
    rw [List.append_assoc] at hrest
    exact hrest

/-- Hints have no spans. -/
theorem spans_foldl_withHint {α : Type} (hint : α → String) (items : List α) (d : Diagnostic) :
    (items.foldl (fun d item => d.withHint (hint item)) d).spans = d.spans := by
  induction items generalizing d with
  | nil => rfl
  | cons item rest ih => exact ih (d.withHint (hint item))

end Diagnostic

/-- The spans of all markers of some diagnostics. -/
def Diagnostics.spans (ds : Diagnostics) : List Span := ds.flatMap Diagnostic.spans

/-- One diagnostic has the spans that it has alone. -/
@[simp] theorem Diagnostics.spans_singleton (d : Diagnostic) : Diagnostics.spans [d] = d.spans :=
  List.append_nil d.spans

theorem Diagnostics.map_span_markers (ds : Diagnostics) :
    (ds.flatMap Diagnostic.markers).map (·.1.span) = ds.spans := by
  rw [List.map_flatMap, spans]
  exact List.flatMap_congr fun d _ => d.map_span_markers

/-! ### Computations that mark nodes -/

/-- The computation looks up the spans of `nodes`; its result shows them and those that have been
looked up before. -/
def Marks (spans : NodeSpans) (nodes : List NodeId) (before : List Span) {α : Type}
    (shown : α → List Span) : Except Fault α → Prop
  | .ok a => ((shown a).map some).Perm (before.map some ++ nodes.map spans.get?)
  | .error fault => ∃ node ∈ nodes, spans.get? node = none ∧ fault = .missingSpan node

namespace Marks

variable {spans : NodeSpans} {nodes nodes' : List NodeId} {before : List Span} {α β : Type}
  {shown : α → List Span} {shown' : β → List Span}

/-- What looks up nothing shows what has been looked up before. -/
theorem pure {a : α} (h : (shown a).Perm before) :
    Marks spans [] before shown (pure a : Except Fault α) := by
  show ((shown a).map some).Perm (before.map some ++ [])
  rw [List.append_nil]
  exact h.map some

/-- A sequence marks the nodes of its parts. -/
theorem bind {x : Except Fault α} {f : α → Except Fault β} (hx : Marks spans nodes [] shown x)
    (hf : ∀ a, Marks spans nodes' (before ++ shown a) shown' (f a)) :
    Marks spans (nodes ++ nodes') before shown' (x >>= f) := by
  cases x with
  | error fault =>
    obtain ⟨node, hnode, hmissing⟩ := hx
    exact ⟨node, List.mem_append_left _ hnode, hmissing⟩
  | ok a =>
    have hf := hf a
    show Marks spans (nodes ++ nodes') before shown' (f a)
    cases hresult : f a with
    | error fault =>
      rw [hresult] at hf
      obtain ⟨node, hnode, hmissing⟩ := hf
      exact ⟨node, List.mem_append_right _ hnode, hmissing⟩
    | ok b =>
      rw [hresult] at hf
      refine hf.trans ?_
      rw [List.map_append, List.map_append, List.append_assoc]
      exact (List.Perm.append_right _ hx).append_left _

/-- The last step of a sequence puts together what has been looked up. -/
theorem bind_pure {x : Except Fault α} {f : α → β} (hx : Marks spans nodes [] shown x)
    (hf : ∀ a, (shown' (f a)).Perm (before ++ shown a)) :
    Marks spans nodes before shown' (do return f (← x)) := by
  have h := hx.bind fun a => Marks.pure (hf a)
  rwa [List.append_nil] at h

/-- The order of the nodes does not matter. -/
theorem perm {x : Except Fault α} (h : Marks spans nodes before shown x)
    (hperm : nodes.Perm nodes') : Marks spans nodes' before shown x := by
  cases x with
  | error fault =>
    obtain ⟨node, hnode, hmissing⟩ := h
    exact ⟨node, hperm.mem_iff.mp hnode, hmissing⟩
  | ok a => exact h.trans ((hperm.map _).append_left _)

/-- If all nodes have spans, then there is a result. -/
theorem exists_eq_ok {x : Except Fault α} (h : Marks spans nodes before shown x)
    (hnodes : ∀ node ∈ nodes, (spans.get? node).isSome) : ∃ a, x = .ok a := by
  cases x with
  | ok a => exact ⟨a, rfl⟩
  | error fault =>
    obtain ⟨node, hnode, hmissing, -⟩ := h
    have hsome := hnodes node hnode
    rw [hmissing] at hsome
    cases hsome

/-- Everything that is shown is the span of a node. -/
theorem exists_node {a : α} (h : Marks spans nodes [] shown (.ok a)) {span : Span}
    (hspan : span ∈ shown a) : ∃ node ∈ nodes, spans.get? node = some span := by
  have hmem := h.mem_iff.mp (List.mem_map_of_mem hspan)
  exact List.mem_map.mp hmem

/-- The spans of all nodes are shown. -/
theorem mem_shown {a : α} (h : Marks spans nodes [] shown (.ok a)) {node : NodeId}
    (hnode : node ∈ nodes) {span : Span} (hspan : spans.get? node = some span) :
    span ∈ shown a := by
  have hmem : some span ∈ (shown a).map some := by
    refine List.Perm.mem_iff h |>.mpr ?_
    rw [← hspan]
    exact List.mem_map_of_mem hnode
  obtain ⟨shownSpan, hshown, hsame⟩ := List.mem_map.mp hmem
  exact Option.some.inj hsame ▸ hshown

/-- As much is shown as there are nodes. -/
theorem length_eq {a : α} (h : Marks spans nodes [] shown (.ok a)) :
    (shown a).length = nodes.length := by
  have hlength := List.Perm.length_eq h
  rw [List.length_map, List.map_nil, List.nil_append, List.length_map] at hlength
  exact hlength

end Marks

/-! ### Markers -/

namespace NodeSpans

variable (spans : NodeSpans)

theorem marks_get (node : NodeId) :
    Marks spans [node] [] (fun span => [span]) (spans.get node) := by
  unfold get
  cases hspan : spans.get? node with
  | none => exact ⟨node, List.mem_singleton.mpr rfl, hspan, rfl⟩
  | some span =>
    show ([span].map some).Perm ([node].map spans.get?)
    rw [List.map_singleton, List.map_singleton, hspan]

theorem marks_marker (label : String) (node : NodeId) :
    Marks spans [node] [] (fun marker => [marker.span]) (spans.marker label node) :=
  (spans.marks_get node).bind_pure fun _ => .refl _

theorem marks_markers (labelled : List (String × NodeId)) :
    Marks spans (labelled.map Prod.snd) [] (List.map Marker.span) (spans.markers labelled) := by
  induction labelled with
  | nil => exact .pure (.refl _)
  | cons entry rest ih =>
    obtain ⟨label, node⟩ := entry
    refine (spans.marks_marker label node).bind fun first => ?_
    exact ih.bind_pure fun others => .refl _

/-- Markers for items each of which has a label and a node. -/
theorem marks_markers_map {α : Type} (label : α → String) (node : α → NodeId) (items : List α) :
    Marks spans (items.map node) [] (List.map Marker.span)
      (spans.markers (items.map fun item => (label item, node item))) := by
  have h := spans.marks_markers (items.map fun item => (label item, node item))
  rw [List.map_map] at h
  exact h

end NodeSpans

/-! ### Errors -/

namespace Error

variable (spans : NodeSpans)

theorem marks_report (kind : Diagnostic.Kind) (node : NodeId) (label detail : String) :
    Marks spans [node] [] Diagnostic.spans (report spans kind node label detail) :=
  (spans.marks_get node).bind_pure fun _ => .refl _

/-- The computation reports items one after the other, each in a diagnostic of its own. -/
structure ReportsEach (kind : Diagnostic.Kind) {α : Type} (node : α → NodeId)
    (label detail hint : α → String) (tell : List α → Except Fault Diagnostics) : Prop where
  nil : tell [] = .ok []
  cons (item : α) (rest : List α) : tell (item :: rest) = do
    let first ← report spans kind (node item) (label item) (detail item)
    return first.withHint (hint item) :: (← tell rest)

theorem reportsEach_undefinedModules :
    ReportsEach spans .undefinedImports Import.id (fun _ => "no module with this name")
      (fun i => toString i.target)
      (fun i => s!"add a module named `{i.target}` or fix the import")
      (undefinedModules spans) :=
  ⟨rfl, fun _ _ => rfl⟩

theorem reportsEach_undefinedExports (owner : Namespace) :
    ReportsEach spans .undeclaredExports Prod.fst (fun _ => "not declared in this module") Prod.snd
      (fun e => s!"define `{e.2}` in module `{owner}`") (undefinedExports spans owner) :=
  ⟨rfl, fun _ _ => rfl⟩

/-- What reports each item marks the node of each. -/
theorem ReportsEach.marks {spans : NodeSpans} {kind : Diagnostic.Kind} {α : Type}
    {node : α → NodeId} {label detail hint : α → String} {tell : List α → Except Fault Diagnostics}
    (h : ReportsEach spans kind node label detail hint tell) (items : List α) :
    Marks spans (items.map node) [] Diagnostics.spans (tell items) := by
  induction items with
  | nil =>
    rw [h.nil]
    exact .pure (.refl _)
  | cons item rest ih =>
    rw [h.cons]
    refine (marks_report spans kind (node item) _ _).bind fun first => ?_
    exact ih.bind_pure fun others => .refl _

theorem marks_repeated (kind : Diagnostic.Kind) (single detail hint : String)
    (nodes : List NodeId) :
    Marks spans nodes [] Diagnostics.spans (repeated spans kind single detail hint nodes) := by
  match nodes with
  | [] => exact .pure (.refl _)
  | [only] =>
    refine (marks_report spans kind only single detail).bind_pure fun d => ?_
    rw [Diagnostics.spans_singleton]
    exact .refl _
  | first :: second :: others =>
    -- The second node is looked up first, and the first one last.
    have horder : ([second] ++ (others ++ [first])).Perm (first :: second :: others) := by
      exact @List.perm_append_comm _ (second :: others) [first]
    have hothers := spans.marks_markers_map (fun _ => "declared again here") id others
    rw [List.map_id] at hothers
    refine Marks.perm ?_ horder
    refine (marks_report spans kind second "declared again here" detail).bind fun d => ?_
    refine hothers.bind fun again => ?_
    refine (spans.marks_marker "first declared here" first).bind_pure fun marker => ?_
    rw [Diagnostics.spans_singleton]
    have hagain := Diagnostic.spans_foldl Diagnostic.spans_withPrimary again d
    exact (Diagnostic.spans_relatedTo _ marker).trans (hagain.append_right _)

theorem map_snd_edgeLabels (path : List Namespace) (imports : List Import) :
    (edgeLabels path imports).map Prod.snd = imports.map Import.id := by
  induction imports generalizing path with
  | nil => rw [edgeLabels]; rfl
  | cons i rest ih =>
    cases path with
    | nil => rw [edgeLabels, List.map_cons, ih, List.map_cons]
    | cons source path => rw [edgeLabels, List.map_cons, ih, List.map_cons]

theorem marks_importCycle (path : List Namespace) (imports : List Import) :
    Marks spans (imports.map Import.id) [] Diagnostics.spans
      (diagnostics spans (.importCycle path imports)) := by
  rw [← map_snd_edgeLabels path imports, diagnostics]
  cases edgeLabels path imports with
  | nil => exact .pure (.refl _)
  | cons entry rest =>
    obtain ⟨label, node⟩ := entry
    refine (marks_report spans .importCycle node label _).bind fun d => ?_
    refine (spans.marks_markers rest).bind_pure fun others => ?_
    rw [Diagnostics.spans_singleton]
    exact Diagnostic.spans_foldl Diagnostic.spans_relatedTo others d

theorem marks_ambiguousName (node : NodeId) (ident : String) (imports : List Import) :
    Marks spans (node :: imports.map Import.id) [] Diagnostics.spans
      (diagnostics spans (.ambiguousName node ident imports)) := by
  rw [diagnostics]
  refine (marks_report spans .ambiguousName node "ambiguous reference" ident).bind fun d => ?_
  have hdefined := spans.marks_markers_map
    (fun i => s!"`{ident}` is defined in `{i.target}`, imported here") Import.id imports
  cases imports with
  | nil =>
    refine hdefined.bind_pure fun defined => ?_
    rw [Diagnostics.spans_singleton]
    exact Diagnostic.spans_foldl Diagnostic.spans_relatedTo defined d
  | cons i rest =>
    refine hdefined.bind_pure fun defined => ?_
    rw [Diagnostics.spans_singleton]
    exact Diagnostic.spans_foldl Diagnostic.spans_relatedTo defined d

theorem marks_unimportedReexports (owner : Namespace) (exports : List (NodeId × Namespace)) :
    Marks spans (exports.map Prod.fst) [] Diagnostics.spans
      (diagnostics spans (.unimportedReexports owner exports)) := by
  unfold diagnostics
  cases exports with
  | nil => exact .pure (.refl _)
  | cons entry rest =>
    obtain ⟨node, target⟩ := entry
    refine (marks_report spans .unimportedReexports node "not imported" _).bind fun d => ?_
    have hothers := spans.marks_markers_map (fun _ => "not imported") Prod.fst rest
    refine hothers.bind_pure fun others => ?_
    rw [Diagnostics.spans_singleton, Diagnostic.spans_foldl_withHint]
    exact Diagnostic.spans_foldl Diagnostic.spans_withPrimary others d

/-- **What tells an error marks the nodes that the error carries.** -/
theorem marks_diagnostics (e : Error) :
    Marks spans e.nodes [] Diagnostics.spans (e.diagnostics spans) := by
  cases e with
  | repeatedModule ns modules => exact marks_repeated spans _ _ _ _ modules
  | undefinedImports imports => exact (reportsEach_undefinedModules spans).marks imports
  | importCycle path imports => exact marks_importCycle spans path imports
  | undefinedName node name sort owner reason =>
    refine (marks_report spans .undefinedName node _ _).bind_pure fun d => ?_
    rw [Diagnostics.spans_singleton]
    exact .refl _
  | ambiguousName node ident imports => exact marks_ambiguousName spans node ident imports
  | unimportedReexports owner exports => exact marks_unimportedReexports spans owner exports
  | undeclaredExports owner exports => exact (reportsEach_undefinedExports spans owner).marks exports
  | repeatedDeclaration owner ident decls => exact marks_repeated spans _ _ _ _ decls
  | nestedTooDeeply node =>
    refine (marks_report spans .nestedTooDeeply node _ _).bind_pure fun d => ?_
    rw [Diagnostics.spans_singleton]
    exact .refl _

end Error

end NameResolution
