import NameResolution.Diagnostic.Plain
import NameResolution.Proofs.Diagnostic.Marks

/-!
# Diagnostics without excerpts can be written

To write a diagnostic without excerpts takes the source of each of its markers and nothing else
(`Diagnostics.exists_renderPlain_eq_ok`): an offset has a position in any source, even if it lies
behind its end.
-/

namespace NameResolution

variable {sources : Sources}

theorem Sources.exists_location_eq_ok {span : Span} {source : Source}
    (h : sources.get span.source = .ok source) : ∃ text, sources.location span = .ok text := by
  rw [location, h]
  exact ⟨_, rfl⟩

namespace Diagnostic

theorem exists_markerLines_eq_ok {markers : List (Marker × Role)}
    (h : ∀ entry ∈ markers, ∃ source, sources.get entry.1.span.source = .ok source) :
    ∃ lines, markerLines sources markers = .ok lines := by
  induction markers with
  | nil => exact ⟨[], rfl⟩
  | cons entry rest ih =>
    obtain ⟨⟨source, hsource⟩, hrest⟩ := List.forall_mem_cons.mp h
    obtain ⟨location, hlocation⟩ := Sources.exists_location_eq_ok hsource
    obtain ⟨lines, hlines⟩ := ih hrest
    obtain ⟨marker, role⟩ := entry
    unfold markerLines
    rw [hlocation, hlines]
    exact ⟨_, rfl⟩

theorem exists_plainLines_eq_ok {d : Diagnostic}
    (h : ∀ span ∈ d.spans, ∃ source, sources.get span.source = .ok source) :
    ∃ lines, d.plainLines sources = .ok lines := by
  have hmarkers : ∀ entry ∈ d.markers, ∃ source, sources.get entry.1.span.source = .ok source := by
    intro entry hentry
    refine h entry.1.span ?_
    rw [← d.map_span_markers]
    exact List.mem_map_of_mem hentry
  obtain ⟨lines, hlines⟩ := exists_markerLines_eq_ok hmarkers
  rw [plainLines, hlines]
  exact ⟨_, rfl⟩

end Diagnostic

namespace Diagnostics

theorem exists_plainLines_eq_ok {ds : Diagnostics}
    (h : ∀ span ∈ ds.spans, ∃ source, sources.get span.source = .ok source) :
    ∃ lines, plainLines sources ds = .ok lines := by
  induction ds with
  | nil => exact ⟨[], rfl⟩
  | cons d rest ih =>
    rw [spans, List.flatMap_cons, List.forall_mem_append] at h
    obtain ⟨lines, hlines⟩ := Diagnostic.exists_plainLines_eq_ok h.1
    obtain ⟨others, hothers⟩ := ih h.2
    rw [plainLines, hlines, hothers]
    exact ⟨_, rfl⟩

/-- **With the source of every marker at hand nothing faults.** -/
theorem exists_renderPlain_eq_ok {ds : Diagnostics}
    (h : ∀ span ∈ ds.spans, ∃ source, sources.get span.source = .ok source) :
    ∃ text, ds.renderPlain sources = .ok text := by
  obtain ⟨lines, hlines⟩ := exists_plainLines_eq_ok h
  rw [renderPlain, hlines]
  exact ⟨_, rfl⟩

end Diagnostics

end NameResolution
