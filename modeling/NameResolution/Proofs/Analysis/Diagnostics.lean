import NameResolution.Proofs.Analysis.Blame
import NameResolution.Proofs.Diagnostic.Plain
import NameResolution.Proofs.Surface.Index
import Mathlib

/-!
# Every failure can be shown

Whatever error an analysis ends with, it can be told as diagnostics with the positions that the
printer gives to the program (`Program.diagnostics_of_analyze`).  The error carries ids of nodes of
the program only, the printer marks all of these, and diagnostics mark the spans of no others.
-/

namespace NameResolution

/-- The span lies in the text of the source that it names, in between characters. -/
def Program.Locates (p : Program) (span : Span) : Prop :=
  ∃ source, p.index.sources.get span.source = .ok source ∧ span.Within source.content

/-- Source ids count up to 4 294 967 296, after which they start again.  Each names a source of the
program, and that of its module unless there are more modules. -/
theorem Program.Records.locates {p : Program} {id : NodeId} {span : Span} (h : p.Records id span)
    (hshort : ∀ m ∈ p.modules, m.print.utf8ByteSize < UInt32.size) :
    (∃ source, p.index.sources.get span.source = .ok source) ∧
      (p.modules.length ≤ UInt32.size → p.Locates span) := by
  obtain ⟨k, m, hk, hsource, hwithin⟩ := h.exists_within hshort
  obtain ⟨hget, hown⟩ := p.get_sources_index hk
  rw [Locates, hsource]
  exact ⟨hget, fun hfew => ⟨_, hown hfew, hwithin⟩⟩

/-- An error about nodes of a program is told by at least one diagnostic, and all markers are at
nodes of the program. -/
theorem Error.Blames.exists_diagnostics {p : Program} {e : Error} (h : e.Blames p.nodes) :
    ∃ ds, e.diagnostics p.index.spans = .ok ds ∧ ds ≠ [] ∧
      ∀ span ∈ ds.spans, ∃ id, p.Records id span := by
  have hmarks := e.marks_diagnostics p.index.spans
  have hspans : ∀ node ∈ e.nodes, (p.index.spans.get? node).isSome := by
    intro node hnode
    exact (p.isSome_get?_index node).mpr (h.subset hnode)
  obtain ⟨ds, hds⟩ := hmarks.exists_eq_ok hspans
  rw [hds] at hmarks
  refine ⟨ds, hds, ?_, fun span hspan => ?_⟩
  · -- Without a diagnostic nothing would be marked.
    rintro rfl
    have hlength := hmarks.length_eq
    exact h.ne_nil (List.length_eq_zero_iff.mp hlength.symm)
  · obtain ⟨node, -, hget⟩ := hmarks.exists_node hspan
    exact ⟨node, Program.records_of_get?_index hget⟩

/-- Every node that the error is about is marked where the printer has put it. -/
theorem Error.Blames.exists_marker {p : Program} {e : Error} (h : e.Blames p.nodes)
    {node : NodeId} (hnode : node ∈ e.nodes) {span : Span}
    (hspan : p.index.spans.get? node = some span) :
    ∃ ds, e.diagnostics p.index.spans = .ok ds ∧
      ∃ d ∈ ds, ∃ marker ∈ d.markers, marker.1.span = span := by
  obtain ⟨ds, hds, -⟩ := h.exists_diagnostics
  have hmarks := e.marks_diagnostics p.index.spans
  rw [hds] at hmarks
  obtain ⟨d, hd, hmem⟩ := List.mem_flatMap.mp (hmarks.mem_shown hnode hspan)
  rw [← d.map_span_markers] at hmem
  obtain ⟨marker, hmarker, hsame⟩ := List.mem_map.mp hmem
  exact ⟨ds, hds, d, hd, marker, hmarker, hsame⟩

/-- **Every failure of an analysis can be shown.**  With the spans of the printed program an error
is told by at least one diagnostic, each with a primary marker.  All markers name sources of the
printed program, and so the diagnostics can be written with these.  If there are at most 2 ^ 32
modules, then all markers lie in the sources that they name. -/
theorem Program.diagnostics_of_analyze {p : Program} {config : Config} {e : Error}
    (h : p.analyze config = .error (.error e))
    (hshort : ∀ m ∈ p.modules, m.print.utf8ByteSize < UInt32.size) :
    ∃ ds, e.diagnostics p.index.spans = .ok ds ∧ ds ≠ [] ∧
      (∀ d ∈ ds, d.primary ≠ [] ∧
        ∀ marker ∈ d.markers, ∃ source, p.index.sources.get marker.1.span.source = .ok source) ∧
      (∃ text, ds.renderPlain p.index.sources = .ok text) ∧
      (p.modules.length ≤ UInt32.size →
        ∀ d ∈ ds, ∀ marker ∈ d.markers, p.Locates marker.1.span) := by
  obtain ⟨ds, hds, hne, hrecords⟩ := (Program.blames_of_analyze h).exists_diagnostics
  have hlocates : ∀ span ∈ ds.spans, (∃ source, p.index.sources.get span.source = .ok source) ∧
      (p.modules.length ≤ UInt32.size → p.Locates span) := by
    intro span hspan
    obtain ⟨id, hrecord⟩ := hrecords span hspan
    exact hrecord.locates hshort
  have hmarkers : ∀ d ∈ ds, ∀ marker ∈ d.markers, marker.1.span ∈ ds.spans := by
    intro d hd marker hmarker
    rw [← ds.map_span_markers]
    exact List.mem_map_of_mem (List.mem_flatMap.mpr ⟨d, hd, hmarker⟩)
  refine ⟨ds, hds, hne, fun d hd => ⟨List.cons_ne_nil _ _, fun marker hmarker => ?_⟩,
    Diagnostics.exists_renderPlain_eq_ok fun span hspan => (hlocates span hspan).1,
    fun hfew d hd marker hmarker => ?_⟩
  · exact (hlocates _ (hmarkers d hd marker hmarker)).1
  · exact (hlocates _ (hmarkers d hd marker hmarker)).2 hfew

/-- An ambiguous name, of which a passed-on import is to blame too. -/
theorem Program.diagnostics_of_analyze_ambiguous_name :
    let lib : Module :=
      ⟨⟨0⟩, ⟨["Lib"]⟩, [], [.decl ⟨1⟩ "g"], [.value ⟨2⟩ "g" none (.lit ⟨3⟩ .unit)]⟩
    let facade : Module := ⟨⟨4⟩, ⟨["Facade"]⟩, [⟨⟨5⟩, ⟨["Lib"]⟩⟩],
      [.reexport ⟨6⟩ ⟨["Lib"]⟩, .decl ⟨7⟩ "g"], [.value ⟨8⟩ "g" none (.lit ⟨9⟩ .unit)]⟩
    let main : Module := ⟨⟨10⟩, ⟨["Main"]⟩, [⟨⟨11⟩, ⟨["Facade"]⟩⟩], [],
      [.value ⟨12⟩ "f" none (.var ⟨13⟩ (.unqualified "g"))]⟩
    let p : Program := ⟨[lib, facade, main]⟩
    let e : Error := .ambiguousName ⟨13⟩ "g" [⟨⟨11⟩, ⟨["Facade"]⟩⟩, ⟨⟨5⟩, ⟨["Lib"]⟩⟩]
    p.analyze {} = .error (.error e) ∧ (∀ m ∈ p.modules, m.print.utf8ByteSize < UInt32.size) ∧
      p.modules.length ≤ UInt32.size ∧
      ∃ ds, e.diagnostics p.index.spans = .ok ds ∧ ds ≠ [] ∧ (∀ d ∈ ds, d.primary ≠ []) ∧
        (∃ text, ds.renderPlain p.index.sources = .ok text) ∧
        ∀ d ∈ ds, ∀ marker ∈ d.markers, p.Locates marker.1.span := by
  intro lib facade main p e
  have hanalyze : p.analyze {} = .error (.error e) := by cbv
  have hshort : ∀ m ∈ p.modules, m.print.utf8ByteSize < UInt32.size := by decide
  have hfew : p.modules.length ≤ UInt32.size := by decide
  obtain ⟨ds, hds, hne, hprimary, htext, hlocates⟩ :=
    Program.diagnostics_of_analyze hanalyze hshort
  exact ⟨hanalyze, hshort, hfew, ds, hds, hne, fun d hd => (hprimary d hd).1, htext, hlocates hfew⟩

/-! ### More modules than source ids -/

/-- The module behind 2 ^ 32 other ones gets the source id of the first one. -/
theorem Program.spans_index_concat {modules : List Module} (hmany : modules.length = UInt32.size)
    (m : Module) :
    (⟨modules ++ [m]⟩ : Program).index.spans =
      Indexed.addExtents ⟨0⟩ (⟨modules⟩ : Program).index.spans (m.markup.extents 0) := by
  have hcount : (⟨modules⟩ : Program).index.sources.entries.length = UInt32.size := by
    rw [entries_index, List.length_map, hmany]
  rw [index_concat, Indexed.addModule, Sources.add, hcount]
  rfl

/-- A module whose namespace other modules have as well is the repeated one, if no other module
stands before it. -/
theorem repeatedModule?_cons_replicate {first other : Module} (hne : first.ns ≠ other.ns) {k : Nat}
    (hk : 0 < k) :
    repeatedModule? (first :: List.replicate (k + 1) other) = some other ∧
      headersOf (first :: List.replicate (k + 1) other) other.ns =
        List.replicate (k + 1) other.id := by
  have hfirst : headersOf (first :: List.replicate (k + 1) other) first.ns = [first.id] := by
    simp [headersOf, hne.symm]
  have hother : headersOf (first :: List.replicate (k + 1) other) other.ns =
      List.replicate (k + 1) other.id := by
    simp [headersOf, hne]
  refine ⟨?_, hother⟩
  have hnone : ¬1 < (headersOf (first :: List.replicate (k + 1) other) first.ns).length := by
    simp [hfirst]
  have hseveral : 1 < (headersOf (first :: List.replicate (k + 1) other) other.ns).length := by
    simp [hother, hk]
  simp only [repeatedModule?, List.replicate_succ] at hnone hseveral ⊢
  rw [List.find?_cons_of_neg (by simpa using hnone),
    List.find?_cons_of_pos (by simpa using hseveral)]

/-- If the number of the last module starts again, then its span is looked up in the first one,
which is shorter here. -/
theorem Program.exists_marker_outside {k : Nat} (hk : k + 1 = UInt32.size) :
    let first : Module := ⟨⟨0⟩, ⟨["A"]⟩, [], [], []⟩
    let other : Module := ⟨⟨1⟩, ⟨["LongName"]⟩, [], [], []⟩
    let p : Program := ⟨first :: List.replicate (k + 1) other⟩
    ∃ e, p.analyze {} = .error (.error e) ∧
      (∀ m ∈ p.modules, m.print.utf8ByteSize < UInt32.size) ∧
      ∃ ds, e.diagnostics p.index.spans = .ok ds ∧ ∃ d ∈ ds, ∃ marker ∈ d.markers, ∃ source,
        p.index.sources.get marker.1.span.source = .ok source ∧
        source.content.utf8ByteSize < marker.1.span.stop.toNat := by
  intro first other p
  have hpositive : 0 < k := by
    have hsize : UInt32.size = 4294967296 := rfl
    omega
  have hne : first.ns ≠ other.ns := by decide
  obtain ⟨hrepeated, hheaders⟩ := repeatedModule?_cons_replicate hne hpositive
  have hanalyze : p.analyze {} =
      .error (.error (.repeatedModule other.ns (headersOf p.modules other.ns))) := by
    rw [analyze, check, checkImports, hrepeated]
    rfl
  have hshort : ∀ m ∈ p.modules, m.print.utf8ByteSize < UInt32.size := by
    refine List.forall_mem_cons.mpr ⟨by decide, fun m hm => ?_⟩
    rw [(List.mem_replicate.mp hm).2]
    decide
  have hspan : p.index.spans.get? ⟨1⟩ = some ⟨⟨0⟩, 7, 15⟩ := by
    have hlast : p = ⟨(first :: List.replicate k other) ++ [other]⟩ := by
      simp only [p, List.replicate_succ', List.cons_append]
    have hmany : (first :: List.replicate k other).length = UInt32.size := by
      rw [List.length_cons, List.length_replicate, hk]
    have hextents : other.markup.extents 0 = [⟨⟨1⟩, 7, 15⟩] := by decide
    rw [hlast, spans_index_concat hmany, hextents]
    exact (NodeSpans.get?_insert ..).trans (if_pos rfl)
  have hnode : ⟨1⟩ ∈ headersOf p.modules other.ns := by
    rw [hheaders]
    exact List.mem_replicate.mpr ⟨Nat.succ_ne_zero k, rfl⟩
  obtain ⟨ds, hds, d, hd, marker, hmarker, hsame⟩ :=
    (Program.blames_of_analyze hanalyze).exists_marker hnode hspan
  refine ⟨_, hanalyze, hshort, ds, hds, d, hd, marker, hmarker, ?_⟩
  rw [hsame]
  refine ⟨⟨.file first.ns.filePath, first.print⟩, ?_, by decide⟩
  rw [Sources.get, entries_index]
  rfl

/-- One module more than there are source ids.  All but the first one have the same namespace and
id, and the marker at them does not lie in the source that it names. -/
theorem Program.diagnostics_of_analyze_numbered_again :
    let first : Module := ⟨⟨0⟩, ⟨["A"]⟩, [], [], []⟩
    let other : Module := ⟨⟨1⟩, ⟨["LongName"]⟩, [], [], []⟩
    let p : Program := ⟨first :: List.replicate 4294967296 other⟩
    ∃ e, p.analyze {} = .error (.error e) ∧
      (∀ m ∈ p.modules, m.print.utf8ByteSize < UInt32.size) ∧
      ∃ ds, e.diagnostics p.index.spans = .ok ds ∧ ∃ d ∈ ds, ∃ marker ∈ d.markers, ∃ source,
        p.index.sources.get marker.1.span.source = .ok source ∧
        source.content.utf8ByteSize < marker.1.span.stop.toNat :=
  Program.exists_marker_outside rfl

end NameResolution
