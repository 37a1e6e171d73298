import NameResolution.Proofs.Analysis.Blame
import NameResolution.Proofs.Diagnostic.Marks
import NameResolution.Proofs.Import.Verdict
import NameResolution.Proofs.Module.EntriesVerdict
import NameResolution.Proofs.Scope.Answers
import NameResolution.Proofs.Surface.Index
import Mathlib.Data.List.Forall2
import Mathlib.Data.List.Nodup

/-!
# Re-exports of modules that are not imported

Each error has a stage of the analysis that finds it, and no other stage does
(`Program.exists_checkEntries_of_analyze`).  So an analysis that refuses re-exports has found them
in the entries of a module, and it lists all that the module should not have made, in order.

What tells the error is a single diagnostic with a primary marker, a hint and a name for each of
these exports (`Error.diagnostics_unimportedReexports`): one for each occurrence, not for each
module.  A module that is passed on twice is hinted at twice, and named twice, so that each module
is told once if and only if none is passed on twice.  Main statement:
`Program.diagnostic_of_unimportedReexports`.
-/

namespace NameResolution

/-! ### The stage that finds an error -/

/-- The stages of an analysis. -/
inductive Stage where
  /-- The gate, which looks at headers and imports. -/
  | imports
  /-- The check of the entries of each module. -/
  | entries
  /-- The resolver. -/
  | names
deriving DecidableEq

/-- The stage that finds the error. -/
def Error.stage : Error → Stage
  | .repeatedModule .. | .undefinedImports _ | .importCycle .. => .imports
  | .unimportedReexports .. | .undeclaredExports .. | .repeatedDeclaration .. => .entries
  | .undefinedName .. | .ambiguousName .. | .nestedTooDeeply _ => .names

theorem stage_of_checkImports {modules : List Module} {e : Error}
    (h : checkImports modules = .error (.error e)) : e.stage = .imports := by
  have hverdict := verdict_checkImports modules
  rw [h] at hverdict
  cases hverdict <;> rfl

namespace Context

variable {ctx : Context} {node : NodeId} {name : Name} {sort : NameSort}
  {binders : Binders} {lexical : Namespace} {ident : String} {e : Error}

theorem stage_of_qualified (h : ctx.qualified node name sort = .error e) : e.stage = .names := by
  unfold qualified refused at h
  split_ifs at h <;> cases h <;> rfl

theorem stage_of_imported (h : ctx.imported node ident sort = .error e) : e.stage = .names := by
  unfold imported refused at h
  split at h <;> cases h <;> rfl

theorem stage_of_typeName (h : ctx.typeName node name = .error e) : e.stage = .names := by
  unfold typeName at h
  split_ifs at h
  · exact stage_of_qualified h
  · exact stage_of_imported h

theorem stage_of_variableAt (h : ctx.variableAt binders lexical node name = .error e) :
    e.stage = .names := by
  unfold variableAt at h
  split_ifs at h
  · exact stage_of_qualified h
  · cases hbinder : binders.lookup lexical ctx.owner name.ident with
    | some binder =>
      rw [hbinder] at h
      cases h
    | none =>
      rw [hbinder] at h
      exact stage_of_imported h

end Context

/-- What a module fails with, where the imports in reach are known, has to do with its names. -/
theorem Module.stage_of_resolve {interfaces : Interfaces} {reach : List Import} {limit : UInt32}
    {m : Module} {e : Error} (hreach : interfaces.reach m.ns = .ok reach)
    (h : m.resolve interfaces limit = .error (.error e)) : e.stage = .names := by
  have hctx := Context.grounded_of_reach hreach limit
  cases Module.answers_of_resolve hreach h with
  | tooDeep node => rfl
  | @lookUp o env binders _ ho hbound htracks hfails =>
    -- With the imports in reach known, a lookup has an error of its own or none.
    cases o with
    | value node name enclosing =>
      change Context.variableMeaning _ _ _ node name = _ at hfails
      rw [Context.variableMeaning_eq hctx binders htracks.chain.owner_encloses] at hfails
      obtain ⟨e', he, ⟨⟩⟩ := mapError_eq_error_iff.mp hfails
      exact Context.stage_of_variableAt he
    | type node name =>
      change Context.typeMeaning _ node name = _ at hfails
      rw [Context.typeMeaning_eq hctx] at hfails
      obtain ⟨e', he, ⟨⟩⟩ := mapError_eq_error_iff.mp hfails
      exact Context.stage_of_typeName he

theorem Module.stage_of_resolveList {interfaces : Interfaces} {limit : UInt32} {e : Error}
    {modules : List Module} (hreach : ∀ m ∈ modules, ∃ reach, interfaces.reach m.ns = .ok reach)
    (h : Module.resolveList interfaces limit modules = .error (.error e)) : e.stage = .names := by
  induction modules with
  | nil => cases h
  | cons m rest ih =>
    obtain ⟨⟨reach, hm⟩, hrest⟩ := List.forall_mem_cons.mp hreach
    rw [Module.resolveList] at h
    rcases bind_eq_error_iff.mp h with hresolve | ⟨_, -, h⟩
    · exact Module.stage_of_resolve hm hresolve
    · rcases bind_eq_error_iff.mp h with h | ⟨_, -, ⟨⟩⟩
      exact ih hrest h

/-- Some module is to blame for the error of the check of the entries. -/
theorem Module.exists_checkEntries_of_checkEntriesOf {modules : List Module} {e : Error}
    (h : checkEntriesOf modules = .error e) : ∃ m ∈ modules, m.checkEntries = .error e := by
  induction modules with
  | nil => cases h
  | cons m rest ih =>
    rw [checkEntriesOf] at h
    rcases bind_eq_error_iff.mp h with hm | ⟨_, -, hrest⟩
    · exact ⟨m, List.mem_cons_self, hm⟩
    · obtain ⟨found, hfound, herror⟩ := ih hrest
      exact ⟨found, List.mem_cons_of_mem _ hfound, herror⟩

/-- **What only the check of the entries finds, it has found** in one of the modules. -/
theorem Program.exists_checkEntries_of_analyze {p : Program} {config : Config} {e : Error}
    (hstage : e.stage = .entries) (h : p.analyze config = .error (.error e)) :
    ∃ m ∈ p.modules, m.checkEntries = .error e := by
  rw [Program.analyze] at h
  rcases bind_eq_error_iff.mp h with hcheck | ⟨checked, hcheck, hresolve⟩
  · rcases bind_eq_error_iff.mp hcheck with himports | ⟨_, -, ⟨⟩⟩
    have hgate := stage_of_checkImports himports
    rw [hstage] at hgate
    cases hgate
  · obtain ⟨⟨⟩, himports, hchecked⟩ := bind_eq_ok_iff.mp hcheck
    obtain rfl := pure_eq_ok_iff.mp hchecked
    rcases bind_eq_error_iff.mp hresolve with hentries | ⟨⟨⟩, hentries, hmodules⟩
    · obtain ⟨_, hentries, ⟨⟩⟩ := mapError_eq_error_iff.mp hentries
      exact Module.exists_checkEntries_of_checkEntriesOf hentries
    · -- Where the entries are in order, the resolver finds all imports in reach.
      have hentries := Module.checkEntriesOf_eq_ok_iff.mp (mapError_eq_ok_iff.mp hentries)
      have hclosed := Interfaces.closed_ofProgram himports hentries
      rcases bind_eq_error_iff.mp hmodules with hmodules | ⟨modules, -, ⟨⟩⟩
      have hnames := Module.stage_of_resolveList (fun m hm =>
        hclosed.exists_reach_eq_ok (Interfaces.get?_ofProgram_isSome hm)) hmodules
      rw [hstage] at hnames
      cases hnames

/-! ### The diagnostic -/

/-- The hint to import a module. -/
def importHint (ns : Namespace) : String := s!"add an import for module `{ns}`"

/-- The modules are those that occur among the targets, each listed once. -/
def EachOnce (modules targets : List Namespace) : Prop :=
  modules.Nodup ∧ ∀ ns, ns ∈ modules ↔ ns ∈ targets

/-- What lists each target once, but is as long as the targets, leaves out no repetition. -/
theorem EachOnce.nodup {modules targets : List Namespace} (h : EachOnce modules targets)
    (hlength : modules.length = targets.length) : targets.Nodup := by
  obtain ⟨hdistinct, hmem⟩ := h
  have hsubset : modules ⊆ targets := fun ns hns => (hmem ns).mp hns
  have hperm := (hdistinct.subperm hsubset).perm_of_length_le hlength.ge
  exact hperm.nodup_iff.mp hdistinct

namespace Diagnostic

/-- The diagnostic tells of each module once that it is not imported: it has one hint for each, and
its message names each once, in the singular if there is only one. -/
structure TellsEachOnce (d : Diagnostic) (targets : List Namespace) : Prop where
  hints : ∃ modules, EachOnce modules targets ∧ d.hints = modules.map importHint
  message : ∃ modules, EachOnce modules targets ∧ d.message = Error.notImportedDetail modules

theorem tellsEachOnce_iff_nodup {d : Diagnostic} {targets : List Namespace}
    (hhints : d.hints = targets.map importHint)
    (hmessage : d.message = Error.notImportedDetail targets) :
    d.TellsEachOnce targets ↔ targets.Nodup := by
  constructor
  · -- There are as many hints as targets, so none of the targets is repeated.
    rintro ⟨⟨modules, heach, hmodules⟩, -⟩
    have hlength := congrArg List.length (hmodules.symm.trans hhints)
    rw [List.length_map, List.length_map] at hlength
    exact heach.nodup hlength
  · intro hdistinct
    have heach : EachOnce targets targets := ⟨hdistinct, fun _ => Iff.rfl⟩
    exact ⟨⟨targets, heach, hhints⟩, ⟨targets, heach, hmessage⟩⟩

/-- Further primary markers stand behind those that are there, and change nothing else. -/
theorem foldl_withPrimary (markers : List Marker) (d : Diagnostic) :
    markers.foldl withPrimary d = { d with further := d.further ++ markers } := by
  induction markers generalizing d with
  | nil => rw [List.foldl_nil, List.append_nil]
  | cons marker rest ih =>
    rw [List.foldl_cons, ih, withPrimary]
    simp only [List.append_assoc, List.cons_append, List.nil_append]

/-- Further hints stand behind those that are there, and change nothing else. -/
theorem foldl_withHint {α : Type} (hint : α → String) (items : List α) (d : Diagnostic) :
    items.foldl (fun d item => d.withHint (hint item)) d =
      { d with hints := d.hints ++ items.map hint } := by
  induction items generalizing d with
  | nil => rw [List.foldl_nil, List.map_nil, List.append_nil]
  | cons item rest ih =>
    rw [List.foldl_cons, ih, withHint]
    simp only [List.map_cons, List.append_assoc, List.cons_append, List.nil_append]

end Diagnostic

namespace NodeSpans

variable {spans : NodeSpans}

theorem get_eq_ok {node : NodeId} {span : Span} (h : spans.get? node = some span) :
    spans.get node = .ok span := by
  rw [get, h]

/-- Markers with one label stand at the spans of their nodes. -/
theorem markers_eq_ok (label : String) {entries : List (NodeId × Namespace)} {places : List Span}
    (h : List.Forall₂ (fun entry span => spans.get? entry.1 = some span) entries places) :
    spans.markers (entries.map fun entry => (label, entry.1)) =
      .ok (places.map fun span => ⟨span, label⟩) := by
  induction h with
  | nil => rfl
  | cons hspan _ ih =>
    rw [List.map_cons, markers, ih, marker, get_eq_ok hspan]
    rfl

end NodeSpans

/-- **One diagnostic tells of all the re-exports**, with a marker, a hint and a name for each. -/
theorem Error.diagnostics_unimportedReexports {spans : NodeSpans} {owner : Namespace}
    {first : NodeId × Namespace} {rest : List (NodeId × Namespace)} {place : Span}
    {places : List Span} (hfirst : spans.get? first.1 = some place)
    (hrest : List.Forall₂ (fun entry span => spans.get? entry.1 = some span) rest places) :
    diagnostics spans (.unimportedReexports owner (first :: rest)) = .ok [{
      kind := .unimportedReexports
      message := notImportedDetail ((first :: rest).map Prod.snd)
      main := ⟨place, "not imported"⟩
      further := places.map fun span => ⟨span, "not imported"⟩
      context := []
      hints := ((first :: rest).map Prod.snd).map importHint }] := by
  have hreport (detail : String) : report spans .unimportedReexports first.1 "not imported" detail =
      .ok (((Diagnostic.new .unimportedReexports place).withLabel "not imported").withDetail
        detail) := by
    rw [report, NodeSpans.get_eq_ok hfirst]
    rfl
  have hmarkers := NodeSpans.markers_eq_ok "not imported" hrest
  refine bind_eq_ok_iff.mpr ⟨_, hreport _, bind_eq_ok_iff.mpr ⟨_, hmarkers, ?_⟩⟩
  rw [Diagnostic.foldl_withPrimary]
  have hhints := Diagnostic.foldl_withHint (fun entry : NodeId × Namespace => importHint entry.2)
  refine (congrArg (fun d => Except.ok [d]) (hhints (first :: rest) _)).trans ?_
  have hmessage (detail : String) :
      Diagnostic.Kind.unimportedReexports.message (some detail) = detail := by
    simp [Diagnostic.Kind.message, Diagnostic.Kind.template, Template.fill]
  simp only [Diagnostic.new, Diagnostic.withLabel, Diagnostic.withDetail, hmessage,
    Diagnostic.Kind.hint?, Option.toList, List.nil_append, List.map_map]
  rfl

namespace Program

variable {p : Program} {config : Config} {owner : Namespace} {exports : List (NodeId × Namespace)}

/-- The re-exports that an analysis refuses are all those of one module that it should not have
made, in order. -/
theorem exists_owner_of_unimportedReexports
    (h : p.analyze config = .error (.error (.unimportedReexports owner exports))) :
    ∃ m ∈ p.modules, m.ns = owner ∧ exports ≠ [] ∧
      exports.map (fun entry => Export.reexport entry.1 entry.2) =
        m.exports.filter fun e => m.IsUnimported e := by
  obtain ⟨m, hm, hentries⟩ := exists_checkEntries_of_analyze rfl h
  have hverdict := m.entriesVerdict
  rw [hentries] at hverdict
  cases hverdict with
  | unimportedReexports hne hexports => exact ⟨m, hm, rfl, hne, hexports⟩

/-- **Re-exports without an import are told occurrence by occurrence.**  An analysis that refuses
some has found all those of one module, in order, and the printer gives each of them a span.
Wherever they have spans, the error is told by a single diagnostic: it marks each of them as a
mistake, in order, and nothing else; it has a hint for each; and it names the target of each in its
message.  So it tells each module once if and only if no module is passed on twice. -/
theorem diagnostic_of_unimportedReexports
    (h : p.analyze config = .error (.error (.unimportedReexports owner exports))) :
    (∃ m ∈ p.modules, m.ns = owner ∧ exports ≠ [] ∧
      exports.map (fun entry => Export.reexport entry.1 entry.2) =
        m.exports.filter fun e => m.IsUnimported e) ∧
    (∀ entry ∈ exports, (p.index.spans.get? entry.1).isSome) ∧
    ∀ spans : NodeSpans, (∀ entry ∈ exports, (spans.get? entry.1).isSome) →
      ∃ d, Error.diagnostics spans (.unimportedReexports owner exports) = .ok [d] ∧
        List.Forall₂ (fun entry marker => spans.get? entry.1 = some marker.span ∧
          marker.label = "not imported") exports d.primary ∧
        d.context = [] ∧
        d.hints = (exports.map Prod.snd).map importHint ∧
        d.message = Error.notImportedDetail (exports.map Prod.snd) ∧
        (d.TellsEachOnce (exports.map Prod.snd) ↔ (exports.map Prod.snd).Nodup) := by
  have howner := exists_owner_of_unimportedReexports h
  refine ⟨howner, fun entry hentry => ?_, fun spans hspans => ?_⟩
  · have hnodes := (blames_of_analyze h).subset
    exact (p.isSome_get?_index entry.1).mpr (hnodes (List.mem_map_of_mem hentry))
  · obtain ⟨-, -, -, hne, -⟩ := howner
    obtain ⟨first, rest, rfl⟩ := List.exists_cons_of_ne_nil hne
    obtain ⟨hfirst, hrest⟩ := List.forall_mem_cons.mp hspans
    obtain ⟨place, hplace⟩ := Option.isSome_iff_exists.mp hfirst
    obtain ⟨places, hplaces⟩ := exists_forall₂ fun entry hentry =>
      Option.isSome_iff_exists.mp (hrest entry hentry)
    have hdiagnostics : Error.diagnostics spans (.unimportedReexports owner (first :: rest)) = _ :=
      Error.diagnostics_unimportedReexports hplace hplaces
    refine ⟨_, hdiagnostics, ?_, rfl, rfl, rfl, Diagnostic.tellsEachOnce_iff_nodup rfl rfl⟩
    refine .cons ⟨hplace, rfl⟩ (List.forall₂_map_right_iff.mpr ?_)
    exact hplaces.imp fun entry span hspan => ⟨hspan, rfl⟩

/-- Two modules that are not imported and one that is: a single diagnostic, which tells each of the
two once. -/
theorem diagnostic_of_unimportedReexports_distinct :
    let library : Module := ⟨⟨0⟩, ⟨["A"]⟩, [], [], []⟩
    let main : Module := ⟨⟨1⟩, ⟨["Main"]⟩, [⟨⟨2⟩, ⟨["A"]⟩⟩],
      [.reexport ⟨3⟩ ⟨["X"]⟩, .reexport ⟨4⟩ ⟨["A"]⟩, .reexport ⟨5⟩ ⟨["Y"]⟩], []⟩
    let p : Program := ⟨[library, main]⟩
    let exports : List (NodeId × Namespace) := [(⟨3⟩, ⟨["X"]⟩), (⟨5⟩, ⟨["Y"]⟩)]
    p.analyze {} = .error (.error (.unimportedReexports ⟨["Main"]⟩ exports)) ∧
      ∃ d, Error.diagnostics p.index.spans (.unimportedReexports ⟨["Main"]⟩ exports) = .ok [d] ∧
        d.primary.length = 2 ∧ d.TellsEachOnce [⟨["X"]⟩, ⟨["Y"]⟩] ∧
        d.hints = ["add an import for module `X`", "add an import for module `Y`"] := by
  intro library main p exports
  have hanalyze : p.analyze {} =
      .error (.error (.unimportedReexports ⟨["Main"]⟩ exports)) := by cbv
  obtain ⟨-, hspans, htold⟩ := diagnostic_of_unimportedReexports hanalyze
  obtain ⟨d, hd, hprimary, -, hhints, -, honce⟩ := htold p.index.spans hspans
  have hdistinct : (exports.map Prod.snd).Nodup := by decide
  exact ⟨hanalyze, d, hd, hprimary.length_eq.symm, honce.mpr hdistinct, hhints⟩

/-- A module that is passed on twice is hinted at twice and named twice. -/
theorem diagnostic_of_repeated_reexport :
    let main : Module :=
      ⟨⟨0⟩, ⟨["Main"]⟩, [], [.reexport ⟨1⟩ ⟨["X"]⟩, .reexport ⟨2⟩ ⟨["X"]⟩], []⟩
    let p : Program := ⟨[main]⟩
    let exports : List (NodeId × Namespace) := [(⟨1⟩, ⟨["X"]⟩), (⟨2⟩, ⟨["X"]⟩)]
    p.analyze {} = .error (.error (.unimportedReexports ⟨["Main"]⟩ exports)) ∧
      ∃ d, Error.diagnostics p.index.spans (.unimportedReexports ⟨["Main"]⟩ exports) = .ok [d] ∧
        d.hints = ["add an import for module `X`", "add an import for module `X`"] ∧
        d.message = "modules `X`, `X` are exported but not imported" ∧
        ¬d.TellsEachOnce [⟨["X"]⟩, ⟨["X"]⟩] := by
  intro main p exports
  have hanalyze : p.analyze {} =
      .error (.error (.unimportedReexports ⟨["Main"]⟩ exports)) := by cbv
  have hfirst : p.index.spans.get? ⟨1⟩ = some ⟨⟨0⟩, 26, 27⟩ := by cbv
  have hsecond : p.index.spans.get? ⟨2⟩ = some ⟨⟨0⟩, 42, 43⟩ := by cbv
  have hd : Error.diagnostics p.index.spans (.unimportedReexports ⟨["Main"]⟩ exports) = _ :=
    Error.diagnostics_unimportedReexports hfirst (.cons hsecond .nil)
  refine ⟨hanalyze, _, hd, rfl, ?_, ?_⟩
  · decide
  · rw [Diagnostic.tellsEachOnce_iff_nodup rfl rfl]
    decide

end Program

end NameResolution
