import NameResolution.Proofs.Diagnostic.Marks
import NameResolution.Proofs.Outcome
import NameResolution.Proofs.Pointwise
import Mathlib.Data.List.Forall2

/-!
# What the diagnostics of an error are about

`Error.topics` lists what has to be told about an error: a topic for each import without a target
and for each export without a declaration, and one topic for any other error.  An error about no
nodes has no topics.  If the error can be told at all, then there is one diagnostic for each topic,
in order, with the detail of the topic in its message and with markers at all nodes of the topic
(`Error.tells_topics`).

Adding markers and hints does not change what a diagnostic is headed with, so the heading of each is
that of its report; what it marks has been counted by `Marks`.  Main statement:
`Error.diagnostics_lossless`.
-/

namespace NameResolution

/-! ### Topics -/

/-- What one diagnostic is about: the detail of its message, and the nodes that it marks. -/
structure Topic where
  detail : String
  nodes : List NodeId

/-- One topic about some nodes, but none if there are no nodes. -/
def Topic.about (detail : String) : (nodes : List NodeId) → List Topic
  | [] => []
  | node :: rest => [⟨detail, node :: rest⟩]

/-- What has to be told about an error. -/
def Error.topics : Error → List Topic
  | .repeatedModule ns modules => Topic.about (toString ns) modules
  | .undefinedImports imports => imports.map fun i => ⟨toString i.target, [i.id]⟩
  | .importCycle path imports => Topic.about (showPath path) (imports.map Import.id)
  | .undefinedName node name sort _ _ => [⟨Error.undefinedDetail name sort, [node]⟩]
  | .ambiguousName node ident imports => [⟨ident, node :: imports.map Import.id⟩]
  | .unimportedReexports _ exports =>
    Topic.about (Error.notImportedDetail (exports.map Prod.snd)) (exports.map Prod.fst)
  | .undeclaredExports _ exports => exports.map fun e => ⟨e.2, [e.1]⟩
  | .repeatedDeclaration _ ident decls =>
    Topic.about s!"`{ident}` is declared {decls.length} times" decls
  | .nestedTooDeeply node => [⟨"expression nesting exceeds the configured limit", [node]⟩]

/-! ### Headings -/

namespace Diagnostic

/-- What a diagnostic is headed with. -/
def heading (d : Diagnostic) : Diagnostic.Kind × String := (d.kind, d.message)

/-- Adding things one by one that do not change the heading does not change it. -/
theorem heading_foldl {α : Type} {add : Diagnostic → α → Diagnostic}
    (hadd : ∀ d item, (add d item).heading = d.heading) (items : List α) (d : Diagnostic) :
    (items.foldl add d).heading = d.heading := by
  induction items generalizing d with
  | nil => rfl
  | cons item rest ih => rw [List.foldl_cons, ih, hadd]

theorem heading_withPrimary (d : Diagnostic) (marker : Marker) :
    (d.withPrimary marker).heading = d.heading := rfl

theorem heading_relatedTo (d : Diagnostic) (marker : Marker) :
    (d.relatedTo marker).heading = d.heading := rfl

theorem heading_foldl_withHint {α : Type} (hint : α → String) (items : List α) (d : Diagnostic) :
    (items.foldl (fun d item => d.withHint (hint item)) d).heading = d.heading := by
  refine heading_foldl ?_ items d
  intro d item
  rfl

/-- The diagnostic is headed with a topic and marks its nodes, each as often as it occurs. -/
structure Tells (spans : NodeSpans) (kind : Diagnostic.Kind) (topic : Topic) (d : Diagnostic) :
    Prop where
  heading_eq : d.heading = (kind, kind.message (some topic.detail))
  marks : (d.spans.map some).Perm (topic.nodes.map spans.get?)

end Diagnostic

namespace Error

variable {spans : NodeSpans} {kind : Diagnostic.Kind} {node : NodeId}
  {label single detail hint : String} {d : Diagnostic} {ds : Diagnostics}

theorem heading_of_report (h : report spans kind node label detail = .ok d) :
    d.heading = (kind, kind.message (some detail)) := by
  obtain ⟨span, -, hd⟩ := bind_eq_ok_iff.mp h
  cases hd
  rfl

theorem tells_of_report (h : report spans kind node label detail = .ok d) :
    d.Tells spans kind ⟨detail, [node]⟩ where
  heading_eq := heading_of_report h
  marks := by
    have hmarks := marks_report spans kind node label detail
    rw [h] at hmarks
    exact hmarks

/-- A single diagnostic with the right heading tells a topic, if what marks its nodes gives it. -/
theorem tells_of_marks {nodes : List NodeId} {x : Except Fault Diagnostics}
    (hmarks : Marks spans nodes [] Diagnostics.spans x) (hx : x = .ok [d])
    (hheading : d.heading = (kind, kind.message (some detail))) :
    List.Forall₂ (Diagnostic.Tells spans kind) [⟨detail, nodes⟩] [d] := by
  rw [hx] at hmarks
  change ((Diagnostics.spans [d]).map some).Perm (nodes.map spans.get?) at hmarks
  rw [Diagnostics.spans_singleton] at hmarks
  exact .cons ⟨hheading, hmarks⟩ .nil

/-! ### One diagnostic for each entry -/

/-- What reports each item tells about each, in order. -/
theorem ReportsEach.tells {α : Type} {nodeOf : α → NodeId} {labelOf detailOf hintOf : α → String}
    {tell : List α → Except Fault Diagnostics}
    (htell : ReportsEach spans kind nodeOf labelOf detailOf hintOf tell) {items : List α}
    (h : tell items = .ok ds) :
    List.Forall₂ (Diagnostic.Tells spans kind)
      (items.map fun item => ⟨detailOf item, [nodeOf item]⟩) ds := by
  induction items generalizing ds with
  | nil =>
    rw [htell.nil] at h
    cases h
    exact .nil
  | cons item rest ih =>
    rw [htell.cons] at h
    obtain ⟨first, hfirst, h⟩ := bind_eq_ok_iff.mp h
    obtain ⟨others, hothers, hds⟩ := bind_eq_ok_iff.mp h
    cases hds
    have htells := tells_of_report hfirst
    exact .cons ⟨htells.heading_eq, htells.marks⟩ (ih hothers)

/-! ### One diagnostic for all entries -/

theorem tells_repeated {nodes : List NodeId}
    (h : repeated spans kind single detail hint nodes = .ok ds) :
    List.Forall₂ (Diagnostic.Tells spans kind) (Topic.about detail nodes) ds := by
  have hmarks := marks_repeated spans kind single detail hint nodes
  cases nodes with
  | nil =>
    cases h
    exact .nil
  | cons first rest =>
    cases rest with
    | nil =>
      obtain ⟨d, hd, hds⟩ := bind_eq_ok_iff.mp h
      cases hds
      have hheading := heading_of_report hd
      exact tells_of_marks hmarks h hheading
    | cons second others =>
      obtain ⟨d, hd, hagain⟩ := bind_eq_ok_iff.mp h
      obtain ⟨again, -, hmarker⟩ := bind_eq_ok_iff.mp hagain
      obtain ⟨marker, -, hds⟩ := bind_eq_ok_iff.mp hmarker
      cases hds
      have hheading : (again.foldl .withPrimary d).heading = d.heading :=
        Diagnostic.heading_foldl Diagnostic.heading_withPrimary again d
      exact tells_of_marks hmarks h (hheading.trans (heading_of_report hd))

theorem tells_importCycle {path : List Namespace} {imports : List Import}
    (h : diagnostics spans (.importCycle path imports) = .ok ds) :
    List.Forall₂ (Diagnostic.Tells spans .importCycle)
      (Topic.about (showPath path) (imports.map Import.id)) ds := by
  have hmarks := marks_importCycle spans path imports
  rw [← map_snd_edgeLabels path imports] at hmarks ⊢
  rw [diagnostics] at h hmarks
  cases hlabels : edgeLabels path imports with
  | nil =>
    rw [hlabels] at h
    cases h
    exact .nil
  | cons entry rest =>
    rw [hlabels] at h hmarks
    obtain ⟨d, hd, hothers⟩ := bind_eq_ok_iff.mp h
    obtain ⟨others, -, hds⟩ := bind_eq_ok_iff.mp hothers
    cases hds
    have hheading : (others.foldl .relatedTo d).heading = d.heading :=
      Diagnostic.heading_foldl Diagnostic.heading_relatedTo others d
    exact tells_of_marks hmarks h (hheading.trans (heading_of_report hd))

theorem tells_ambiguousName {ident : String} {imports : List Import}
    (h : diagnostics spans (.ambiguousName node ident imports) = .ok ds) :
    List.Forall₂ (Diagnostic.Tells spans .ambiguousName)
      [⟨ident, node :: imports.map Import.id⟩] ds := by
  have hmarks := marks_ambiguousName spans node ident imports
  obtain ⟨d, hd, hdefined⟩ := bind_eq_ok_iff.mp h
  obtain ⟨defined, -, hds⟩ := bind_eq_ok_iff.mp hdefined
  have hheading : (defined.foldl .relatedTo d).heading = d.heading :=
    Diagnostic.heading_foldl Diagnostic.heading_relatedTo defined d
  cases imports with
  | nil =>
    cases hds
    exact tells_of_marks hmarks h (hheading.trans (heading_of_report hd))
  | cons i rest =>
    cases hds
    exact tells_of_marks hmarks h (hheading.trans (heading_of_report hd))

theorem tells_unimportedReexports {owner : Namespace} {exports : List (NodeId × Namespace)}
    (h : diagnostics spans (.unimportedReexports owner exports) = .ok ds) :
    List.Forall₂ (Diagnostic.Tells spans .unimportedReexports)
      (Topic.about (notImportedDetail (exports.map Prod.snd)) (exports.map Prod.fst)) ds := by
  have hmarks := marks_unimportedReexports spans owner exports
  cases exports with
  | nil =>
    cases h
    exact .nil
  | cons entry rest =>
    obtain ⟨d, hd, hothers⟩ := bind_eq_ok_iff.mp h
    obtain ⟨others, -, hds⟩ := bind_eq_ok_iff.mp hothers
    cases hds
    have hheading : (others.foldl .withPrimary d).heading = d.heading :=
      Diagnostic.heading_foldl Diagnostic.heading_withPrimary others d
    refine tells_of_marks hmarks h ?_
    rw [Diagnostic.heading_foldl_withHint, hheading]
    exact heading_of_report hd

/-- **What tells an error tells each of its topics**, in order, and nothing else. -/
theorem tells_topics {e : Error} (h : e.diagnostics spans = .ok ds) :
    List.Forall₂ (Diagnostic.Tells spans e.kind) e.topics ds := by
  cases e with
  | repeatedModule ns modules => exact tells_repeated h
  | undefinedImports imports => exact (reportsEach_undefinedModules spans).tells h
  | importCycle path imports => exact tells_importCycle h
  | undefinedName node name sort owner reason =>
    obtain ⟨d, hd, hds⟩ := bind_eq_ok_iff.mp h
    cases hds
    have htells := tells_of_report hd
    exact .cons ⟨htells.heading_eq, htells.marks⟩ .nil
  | ambiguousName node ident imports => exact tells_ambiguousName h
  | unimportedReexports owner exports => exact tells_unimportedReexports h
  | undeclaredExports owner exports => exact (reportsEach_undefinedExports spans owner).tells h
  | repeatedDeclaration owner ident decls => exact tells_repeated h
  | nestedTooDeeply node =>
    obtain ⟨d, hd, hds⟩ := bind_eq_ok_iff.mp h
    cases hds
    exact .cons (tells_of_report hd) .nil

/-- **Telling an error loses no place and invents none.**  It faults if and only if one of the ids
that the error carries has no span.  Otherwise the markers of all diagnostics together are at the
spans of these ids, each as often as its id is carried; there is one diagnostic for each topic, in
order; and every diagnostic has the kind of the error and a primary marker. -/
theorem diagnostics_lossless (spans : NodeSpans) (e : Error) :
    ((∃ fault, e.diagnostics spans = .error fault) ↔
      ∃ node ∈ e.nodes, spans.get? node = none) ∧
    ∀ ds, e.diagnostics spans = .ok ds →
      ((ds.flatMap Diagnostic.markers).map fun entry => some entry.1.span).Perm
        (e.nodes.map spans.get?) ∧
      List.Forall₂ (Diagnostic.Tells spans e.kind) e.topics ds ∧
      ∀ d ∈ ds, d.kind = e.kind ∧ d.primary ≠ [] := by
  have hmarks := marks_diagnostics spans e
  refine ⟨⟨?_, ?_⟩, fun ds hds => ⟨?_, tells_topics hds, fun d hd => ⟨?_, List.cons_ne_nil _ _⟩⟩⟩
  · rintro ⟨fault, hfault⟩
    rw [hfault] at hmarks
    obtain ⟨node, hnode, hmissing, -⟩ := hmarks
    exact ⟨node, hnode, hmissing⟩
  · rintro ⟨node, hnode, hmissing⟩
    cases hresult : e.diagnostics spans with
    | error fault => exact ⟨fault, rfl⟩
    | ok ds =>
      -- Every id that is carried is marked with its span, so it has one.
      rw [hresult] at hmarks
      have hmem := (List.Perm.mem_iff hmarks).mpr (List.mem_map_of_mem (f := spans.get?) hnode)
      rw [hmissing] at hmem
      obtain ⟨span, -, hspan⟩ := List.mem_map.mp hmem
      cases hspan
  · rw [hds] at hmarks
    have hspans := ds.map_span_markers
    show ((ds.flatMap Diagnostic.markers).map (some ∘ fun entry => entry.1.span)).Perm _
    rw [← List.map_map, hspans]
    exact hmarks
  · obtain ⟨topic, -, htells⟩ := exists_left_of_forall₂ (tells_topics hds) hd
    exact congrArg Prod.fst htells.heading_eq

/-- A declaration that is repeated twice, once under the same id: its place is marked twice. -/
theorem diagnostics_lossless_repeated_declaration :
    let spans := (NodeSpans.empty.insert ⟨1⟩ ⟨⟨0⟩, 3, 4⟩).insert ⟨2⟩ ⟨⟨0⟩, 8, 9⟩
    let e : Error := .repeatedDeclaration ⟨["App"]⟩ "g" [⟨1⟩, ⟨2⟩, ⟨1⟩]
    ∃ ds, e.diagnostics spans = .ok ds ∧
      ((ds.flatMap Diagnostic.markers).map fun entry => some entry.1.span).Perm
        [some ⟨⟨0⟩, 3, 4⟩, some ⟨⟨0⟩, 8, 9⟩, some ⟨⟨0⟩, 3, 4⟩] ∧
      List.Forall₂ (Diagnostic.Tells spans .repeatedDeclaration)
        [⟨"`g` is declared 3 times", [⟨1⟩, ⟨2⟩, ⟨1⟩]⟩] ds ∧
      ∀ d ∈ ds, d.kind = .repeatedDeclaration ∧ d.primary ≠ [] := by
  intro spans e
  have hds : ∃ ds, e.diagnostics spans = .ok ds := ⟨_, rfl⟩
  obtain ⟨ds, hds⟩ := hds
  exact ⟨ds, hds, (diagnostics_lossless spans e).2 ds hds⟩

end Error

end NameResolution
