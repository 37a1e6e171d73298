import NameResolution.Diagnostic.Excerpt
import NameResolution.Proofs.Diagnostic.Marks
import NameResolution.Proofs.Outcome
import NameResolution.Proofs.Pointwise
import Mathlib.Data.List.Nodup

/-!
# The markers of a diagnostic by source

The snippets of a diagnostic partition its markers by source (`Diagnostic.snippets_partition`): one
snippet for each source that a marker is in, the sources in the order of their first occurrence, and
each marker in one place of one snippet.

`newSources` lists every source once, and groups of items by distinct keys are all of the items
(`perm_flatMap_filter`).  So the groups of markers are all of the markers, each in its own group, and
the snippets show the groups one by one.

A snippet takes its source and nothing else.  So diagnostics can be written with excerpts if and only
if the sources of all markers are at hand (`Diagnostics.exists_render_eq_ok_iff`).
-/

namespace NameResolution

/-! ### Groups -/

/-- Items grouped by distinct keys are the items again, in another order, if each of them has one of
the keys. -/
theorem perm_flatMap_filter {α κ : Type} [DecidableEq κ] {key : α → κ} {keys : List κ}
    {items : List α} (hdistinct : keys.Nodup) (hkeys : ∀ x ∈ items, key x ∈ keys) :
    (keys.flatMap fun k => items.filter fun x => key x = k).Perm items := by
  induction keys generalizing items with
  | nil =>
    have hitems : items = [] := by
      apply List.eq_nil_iff_forall_not_mem.mpr
      intro x hx
      exact List.not_mem_nil (hkeys x hx)
    rw [hitems, List.flatMap_nil]
  | cons k rest ih =>
    obtain ⟨hk, hrest⟩ := List.nodup_cons.mp hdistinct
    let others := items.filter fun x => !decide (key x = k)
    have hothers : ∀ x ∈ others, key x ∈ rest := by
      intro x hx
      obtain ⟨hmem, hne⟩ := List.mem_filter.mp hx
      have hkey : key x ≠ k := by simpa using hne
      exact (List.mem_cons.mp (hkeys x hmem)).resolve_left hkey
    -- The groups of the other keys have lost nothing with the items of the first key.
    have hgroups : (rest.flatMap fun k' => items.filter fun x => key x = k') =
        rest.flatMap fun k' => others.filter fun x => key x = k' := by
      refine List.flatMap_congr fun k' hk' => ?_
      rw [List.filter_filter]
      refine List.filter_congr fun x _ => ?_
      have hne : k' ≠ k := by
        rintro rfl
        exact hk hk'
      by_cases hkey : key x = k' <;> simp [hkey, hne]
    rw [List.flatMap_cons, hgroups]
    exact ((ih hrest hothers).append_left _).trans (List.filter_append_perm _ items)

/-! ### Sources -/

namespace Diagnostic

variable {listed ids : List SourceId} {id : SourceId}

theorem mem_newSources : id ∈ newSources listed ids ↔ id ∈ ids ∧ id ∉ listed := by
  induction ids generalizing listed with
  | nil => simp [newSources]
  | cons first rest ih =>
    by_cases hlisted : first ∈ listed
    · simp only [newSources, List.contains_iff_mem, hlisted, ↓reduceIte, ih, List.mem_cons]
      constructor
      · rintro ⟨hid, hnew⟩
        exact ⟨Or.inr hid, hnew⟩
      · rintro ⟨rfl | hid, hnew⟩
        · exact absurd hlisted hnew
        · exact ⟨hid, hnew⟩
    · simp only [newSources, List.contains_iff_mem, hlisted, ↓reduceIte, ih, List.mem_cons, not_or]
      constructor
      · rintro (rfl | ⟨hid, -, hnew⟩)
        · exact ⟨Or.inl rfl, hlisted⟩
        · exact ⟨Or.inr hid, hnew⟩
      · rintro ⟨hid, hnew⟩
        by_cases hfirst : id = first
        · exact Or.inl hfirst
        · exact Or.inr ⟨hid.resolve_left hfirst, hfirst, hnew⟩

/-- A new id that is not the first one occurs one place later than without the first one. -/
theorem idxOf_cons_of_mem_newSources {first : SourceId} (hfirst : first ∈ listed)
    (hid : id ∈ newSources listed ids) : (first :: ids).idxOf id = ids.idxOf id + 1 := by
  have hne : first ≠ id := by
    rintro rfl
    exact (mem_newSources.mp hid).2 hfirst
  exact List.idxOf_cons_ne ids hne

/-- The new ids stand in the order of their first occurrences. -/
theorem pairwise_newSources :
    (newSources listed ids).Pairwise fun a b => ids.idxOf a < ids.idxOf b := by
  induction ids generalizing listed with
  | nil => exact .nil
  | cons first rest ih =>
    have hlater : ∀ known : List SourceId, first ∈ known → (newSources known rest).Pairwise
        fun a b => (first :: rest).idxOf a < (first :: rest).idxOf b := by
      intro known hfirst
      have hrest := @ih known
      refine hrest.imp_of_mem fun {a b} ha hb hab => ?_
      rw [idxOf_cons_of_mem_newSources hfirst ha, idxOf_cons_of_mem_newSources hfirst hb]
      exact Nat.succ_lt_succ hab
    by_cases hlisted : first ∈ listed
    · simp only [newSources, List.contains_iff_mem, hlisted, ↓reduceIte]
      exact hlater listed hlisted
    · simp only [newSources, List.contains_iff_mem, hlisted, ↓reduceIte]
      refine .cons (fun b hb => ?_) (hlater (first :: listed) List.mem_cons_self)
      rw [List.idxOf_cons_self, idxOf_cons_of_mem_newSources List.mem_cons_self hb]
      exact Nat.succ_pos _

/-- The sources of the markers, one for each marker. -/
def markedSources (d : Diagnostic) : List SourceId := d.spans.map Span.source

theorem sourceIds_eq (d : Diagnostic) : d.sourceIds = newSources [] d.markedSources := by
  rw [markedSources, ← map_span_markers, List.map_map]
  rfl

theorem mem_sourceIds {d : Diagnostic} : id ∈ d.sourceIds ↔ id ∈ d.markedSources := by
  rw [sourceIds_eq, mem_newSources, and_iff_left List.not_mem_nil]

theorem pairwise_sourceIds (d : Diagnostic) :
    d.sourceIds.Pairwise fun a b => d.markedSources.idxOf a < d.markedSources.idxOf b := by
  rw [sourceIds_eq]
  exact pairwise_newSources

theorem nodup_sourceIds (d : Diagnostic) : d.sourceIds.Nodup := by
  refine d.pairwise_sourceIds.imp fun {a b} hlt => ?_
  rintro rfl
  exact Nat.lt_irrefl _ hlt

theorem head?_sourceIds (d : Diagnostic) : d.sourceIds.head? = some d.main.span.source := rfl

end Diagnostic

/-! ### One snippet -/

/-- An annotation of the snippet shows a marker with a role.  A range of no bytes becomes one of one
byte, but only if there is one more byte; it is turned around if and only if it starts behind the
end. -/
structure Snippet.Shows (s : Snippet) (a : Annotation) (marker : Marker) (role : Role) : Prop where
  source_eq : marker.span.source = s.id
  role_eq : a.role = role
  label_eq : a.label = marker.label
  start_eq : a.start = marker.span.start.toNat
  stop_of_ne : marker.span.start ≠ marker.span.stop → a.stop = marker.span.stop.toNat
  stop_of_eq : marker.span.start = marker.span.stop →
    a.stop = min (marker.span.start.toNat + 1) s.source.content.utf8ByteSize
  le_iff_of_eq : marker.span.start = marker.span.stop →
    (a.start ≤ a.stop ↔ marker.span.start.toNat ≤ s.source.content.utf8ByteSize)

theorem Snippet.shows_ofMarker {s : Snippet} {marker : Marker} (role : Role)
    (hsource : marker.span.source = s.id) :
    s.Shows (.ofMarker s.source.content.utf8ByteSize marker role) marker role := by
  unfold Annotation.ofMarker annotationRange
  simp only [UInt32.toNat_inj]
  split_ifs with h
  · refine ⟨hsource, rfl, rfl, rfl, fun hne => absurd h hne, fun _ => rfl, fun _ => ?_⟩
    show marker.span.start.toNat ≤ min (marker.span.start.toNat + 1) _ ↔ _
    omega
  · exact ⟨hsource, rfl, rfl, rfl, fun _ => rfl, fun heq => absurd heq h, fun heq => absurd heq h⟩

namespace Diagnostic

variable {sources : Sources} {d : Diagnostic} {id : SourceId} {s : Snippet}
  {snippets : List Snippet}

/-- The markers in one source, the primary ones first. -/
def markersIn (d : Diagnostic) (id : SourceId) : List (Marker × Role) :=
  (d.primary.filter (·.span.source = id)).map (·, .primary) ++
    (d.context.filter (·.span.source = id)).map (·, .context)

theorem filter_markers (d : Diagnostic) (id : SourceId) :
    (d.markers.filter fun entry => entry.1.span.source = id) = d.markersIn id := by
  rw [markers, List.filter_append, List.filter_map, List.filter_map]
  rfl

/-- The snippet shows a source and the markers in it, one after the other. -/
structure ShownBy (sources : Sources) (d : Diagnostic) (s : Snippet) : Prop where
  get_source : sources.get s.id = .ok s.source
  annotations : List.Forall₂ (fun entry a => s.Shows a entry.1 entry.2)
    (d.markersIn s.id) s.annotations

theorem shownBy_of_snippet (h : d.snippet sources id = .ok s) :
    s.id = id ∧ d.ShownBy sources s := by
  obtain ⟨source, hsource, hs⟩ := bind_eq_ok_iff.mp h
  cases hs
  refine ⟨rfl, hsource, ?_⟩
  rw [← filter_markers]
  refine List.forall₂_map_right_iff.mpr (List.forall₂_same.mpr fun entry hentry => ?_)
  have hid : entry.1.span.source = id := by simpa using (List.mem_filter.mp hentry).2
  exact Snippet.shows_ofMarker entry.2 hid

theorem exists_snippet_eq_ok_iff :
    (∃ s, d.snippet sources id = .ok s) ↔ ∃ source, sources.get id = .ok source := by
  unfold snippet
  exact exists_bind_eq_ok_iff fun source => ⟨_, rfl⟩

/-! ### All snippets -/

theorem snippetsOf_eq_ok_iff {ids : List SourceId} :
    d.snippetsOf sources ids = .ok snippets ↔
      List.Forall₂ (fun id s => d.snippet sources id = .ok s) ids snippets := by
  induction ids generalizing snippets with
  | nil => rw [snippetsOf, pure_eq_ok_iff, List.forall₂_nil_left_iff, eq_comm]
  | cons id rest ih =>
    rw [snippetsOf, bind_eq_ok_iff, List.forall₂_cons_left_iff]
    constructor
    · rintro ⟨first, hfirst, h⟩
      obtain ⟨others, hothers, hsnippets⟩ := bind_eq_ok_iff.mp h
      exact ⟨first, others, hfirst, ih.mp hothers, (pure_eq_ok_iff.mp hsnippets).symm⟩
    · rintro ⟨first, others, hfirst, hothers, rfl⟩
      exact ⟨first, hfirst, bind_eq_ok_iff.mpr ⟨others, ih.mpr hothers, rfl⟩⟩

/-- There are snippets if and only if the source of each marker is at hand. -/
theorem exists_snippets_eq_ok_iff :
    (∃ snippets, d.snippets sources = .ok snippets) ↔
      ∀ span ∈ d.spans, ∃ source, sources.get span.source = .ok source := by
  constructor
  · rintro ⟨snippets, hsnippets⟩ span hspan
    have hid : span.source ∈ d.sourceIds := mem_sourceIds.mpr (List.mem_map_of_mem hspan)
    obtain ⟨s, -, hs⟩ := exists_right_of_forall₂ (snippetsOf_eq_ok_iff.mp hsnippets) hid
    exact exists_snippet_eq_ok_iff.mp ⟨s, hs⟩
  · intro h
    have hall : ∀ id ∈ d.sourceIds, ∃ s, d.snippet sources id = .ok s := by
      intro id hid
      obtain ⟨span, hspan, rfl⟩ := List.mem_map.mp (mem_sourceIds.mp hid)
      exact exists_snippet_eq_ok_iff.mpr (h span hspan)
    obtain ⟨snippets, hsnippets⟩ := exists_forall₂ hall
    exact ⟨snippets, snippetsOf_eq_ok_iff.mpr hsnippets⟩

/-- The snippets partition the markers by source. -/
structure PartitionedBy (sources : Sources) (d : Diagnostic) (snippets : List Snippet) :
    Prop where
  /-- The sources stand in the order in which the markers name them first, each of them once. -/
  pairwise_ids : (snippets.map Snippet.id).Pairwise fun a b =>
    d.markedSources.idxOf a < d.markedSources.idxOf b
  mem_ids_iff : ∀ id, id ∈ snippets.map Snippet.id ↔ id ∈ d.markedSources
  head_ids : (snippets.map Snippet.id).head? = some d.main.span.source
  shown : ∀ s ∈ snippets, d.ShownBy sources s
  /-- Each marker has a place of its own, in the snippet of its source, and there are no other
  places. -/
  places : ∃ places : List (Snippet × Annotation),
    places.Perm (snippets.flatMap fun s => s.annotations.map (s, ·)) ∧
    List.Forall₂ (fun entry place => place.1.Shows place.2 entry.1 entry.2) d.markers places

theorem map_id_snippets (h : d.snippets sources = .ok snippets) :
    snippets.map Snippet.id = d.sourceIds := by
  have hids := map_eq_of_forall₂ (snippetsOf_eq_ok_iff.mp h) fun {id s} hs =>
    (shownBy_of_snippet hs).1
  rw [hids, List.map_id']

theorem shownBy_of_mem_snippets (h : d.snippets sources = .ok snippets)
    (hs : s ∈ snippets) : d.ShownBy sources s := by
  obtain ⟨id, -, hsnippet⟩ := exists_left_of_forall₂ (snippetsOf_eq_ok_iff.mp h) hs
  exact (shownBy_of_snippet hsnippet).2

/-- The markers in the sources of the snippets are all markers. -/
theorem perm_flatMap_markersIn (h : d.snippets sources = .ok snippets) :
    (snippets.flatMap fun s => d.markersIn s.id).Perm d.markers := by
  have hkeys : ∀ entry ∈ d.markers, entry.1.span.source ∈ d.sourceIds := by
    intro entry hentry
    have hspan : entry.1.span ∈ d.spans := d.map_span_markers ▸ List.mem_map_of_mem hentry
    exact mem_sourceIds.mpr (List.mem_map_of_mem hspan)
  have hperm := perm_flatMap_filter d.nodup_sourceIds hkeys
  rw [← map_id_snippets h, List.flatMap_map] at hperm
  simpa only [filter_markers] using hperm

/-- The places in the snippets show all markers, each one marker. -/
theorem exists_places (h : d.snippets sources = .ok snippets) :
    ∃ places : List (Snippet × Annotation),
      places.Perm (snippets.flatMap fun s => s.annotations.map (s, ·)) ∧
      List.Forall₂ (fun entry place => place.1.Shows place.2 entry.1 entry.2) d.markers places := by
  have hgroups : List.Forall₂
      (fun entry place => Snippet.Shows place.1 place.2 entry.1 entry.2)
      (snippets.flatMap fun s => d.markersIn s.id)
      (snippets.flatMap fun s => s.annotations.map (s, ·)) := by
    have hself : List.Forall₂ (fun s s' => s = s' ∧ s ∈ snippets) snippets snippets :=
      List.forall₂_same.mpr fun s hs => ⟨rfl, hs⟩
    refine List.rel_flatMap hself ?_
    rintro s _ ⟨rfl, hs⟩
    exact List.forall₂_map_right_iff.mpr (shownBy_of_mem_snippets h hs).annotations
  obtain ⟨places, hplaces, hperm⟩ :=
    List.perm_comp_forall₂ (perm_flatMap_markersIn h).symm hgroups
  exact ⟨places, hperm, hplaces⟩

/-- **The snippets partition the markers by source.**  There are snippets if and only if the source
of each marker is at hand.  Then there is one for each source that a marker is in, in the order in
which the markers name the sources first; so the source of the main marker comes first.  Each snippet
shows the markers in its source, the primary ones first, and each marker has one place in one of the
snippets, that of its source. -/
theorem snippets_partition (sources : Sources) (d : Diagnostic) :
    ((∃ snippets, d.snippets sources = .ok snippets) ↔
      ∀ span ∈ d.spans, ∃ source, sources.get span.source = .ok source) ∧
    ∀ snippets, d.snippets sources = .ok snippets → d.PartitionedBy sources snippets := by
  refine ⟨exists_snippets_eq_ok_iff, fun snippets h => ?_⟩
  have hids := map_id_snippets h
  exact {
    pairwise_ids := hids ▸ d.pairwise_sourceIds
    mem_ids_iff := fun _ => hids ▸ mem_sourceIds
    head_ids := hids ▸ d.head?_sourceIds
    shown := fun _ => shownBy_of_mem_snippets h
    places := exists_places h }

/-- Primary and context markers in turns between two sources.  The second source comes first, as the
main marker is in it; the range of no bytes at its end stays one, that inside the first source does
not. -/
theorem snippets_partition_two_sources :
    let sources : Sources := ⟨[⟨.memory "a", "let x = y"⟩, ⟨.memory "b", "é"⟩]⟩
    let d : Diagnostic := ⟨.ambiguousName, "ambiguous reference", ⟨⟨⟨1⟩, 0, 2⟩, "here"⟩,
      [⟨⟨⟨0⟩, 8, 9⟩, ""⟩], [⟨⟨⟨1⟩, 2, 2⟩, "end"⟩, ⟨⟨⟨0⟩, 3, 3⟩, "there"⟩], []⟩
    (∀ span ∈ d.spans, ∃ source, sources.get span.source = .ok source) ∧
      ∃ snippets, d.snippets sources = .ok snippets ∧
        snippets.map (fun s => (s.id, s.annotations)) =
          [(⟨1⟩, [⟨.primary, 0, 2, "here"⟩, ⟨.context, 2, 2, "end"⟩]),
            (⟨0⟩, [⟨.primary, 8, 9, ""⟩, ⟨.context, 3, 4, "there"⟩])] ∧
        d.PartitionedBy sources snippets := by
  intro sources d
  obtain ⟨hexists, hpartition⟩ := d.snippets_partition sources
  have hsnippets : ∃ snippets, d.snippets sources = .ok snippets ∧
      snippets.map (fun s => (s.id, s.annotations)) =
        [(⟨1⟩, [⟨.primary, 0, 2, "here"⟩, ⟨.context, 2, 2, "end"⟩]),
          (⟨0⟩, [⟨.primary, 8, 9, ""⟩, ⟨.context, 3, 4, "there"⟩])] := ⟨_, rfl, by decide⟩
  obtain ⟨snippets, hsnippets, hannotations⟩ := hsnippets
  exact ⟨hexists.mp ⟨snippets, hsnippets⟩, snippets, hsnippets, hannotations,
    hpartition snippets hsnippets⟩

/-! ### Excerpts -/

theorem exists_excerptLines_eq_ok_iff :
    (∃ lines, d.excerptLines sources = .ok lines) ↔
      ∀ span ∈ d.spans, ∃ source, sources.get span.source = .ok source := by
  rw [← exists_snippets_eq_ok_iff]
  unfold excerptLines
  refine exists_bind_eq_ok_iff fun snippets => ?_
  cases snippets with
  | nil => exact ⟨_, rfl⟩
  | cons first further => exact ⟨_, rfl⟩

end Diagnostic

namespace Diagnostics

variable {sources : Sources} {ds : Diagnostics}

theorem exists_excerptLines_eq_ok_iff :
    (∃ lines, ds.excerptLines sources = .ok lines) ↔
      ∀ span ∈ ds.spans, ∃ source, sources.get span.source = .ok source := by
  induction ds with
  | nil => simp [excerptLines, spans, pure_eq_ok_iff]
  | cons d rest ih =>
    rw [spans, List.flatMap_cons, List.forall_mem_append, ← spans, ← ih,
      ← Diagnostic.exists_excerptLines_eq_ok_iff]
    constructor
    · rintro ⟨lines, h⟩
      obtain ⟨first, hfirst, h⟩ := bind_eq_ok_iff.mp h
      obtain ⟨others, hothers, -⟩ := bind_eq_ok_iff.mp h
      exact ⟨⟨first, hfirst⟩, others, hothers⟩
    · rintro ⟨⟨first, hfirst⟩, others, hothers⟩
      rw [excerptLines, hfirst, hothers]
      exact ⟨_, rfl⟩

/-- **Diagnostics can be written with excerpts if and only if the source of every marker is at
hand.** -/
theorem exists_render_eq_ok_iff {colored : Bool} :
    (∃ text, ds.render colored sources = .ok text) ↔
      ∀ span ∈ ds.spans, ∃ source, sources.get span.source = .ok source := by
  rw [← exists_excerptLines_eq_ok_iff]
  unfold render
  exact exists_bind_eq_ok_iff fun lines => ⟨_, rfl⟩

end Diagnostics

end NameResolution
