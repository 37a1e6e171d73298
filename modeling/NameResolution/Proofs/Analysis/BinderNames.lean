import NameResolution.Proofs.Analysis.Stages
import NameResolution.Proofs.Import.Verdict
import NameResolution.Proofs.Pointwise
import NameResolution.Proofs.Scope.Numbering
import Mathlib

/-!
# The names of binders

In an analyzed program every binder has a scope of its own (`Program.bindings_of_analyze`), if its
modules have fewer than 2 ^ 32 binders each.  Inside a module the scopes are told apart by their
numbers, which count up from zero.  The scopes of different modules are told apart by the modules,
even if one module is nested in the other, because what follows the module in a scope could not be
part of the module.  For the same reason no binder is named like a declaration.
-/

namespace NameResolution

/-- The binders of a program. -/
def Program.bindings (p : Program) : List Binding := p.modules.flatMap Module.bindings

/-- The binders of a resolved module are bound one after the other. -/
theorem Module.numbered_of_resolve {interfaces : Interfaces} {limit : UInt32} {m resolved : Module}
    (h : m.resolve interfaces limit = .ok resolved) :
    ∃ b, Numbered resolved.ns .empty resolved.bindings b := by
  obtain ⟨reach, decls, b, -, hdecls, rfl⟩ := Module.resolve_eq_ok_iff.mp h
  exact ⟨b, hdecls.numbered⟩

/-- A resolved module has as many binders as the given one. -/
theorem Module.length_bindings_of_resolve {interfaces : Interfaces} {limit : UInt32}
    {m resolved : Module} (h : m.resolve interfaces limit = .ok resolved) :
    resolved.bindings.length = m.binderCount := by
  obtain ⟨reach, decls, b, -, hdecls, rfl⟩ := Module.resolve_eq_ok_iff.mp h
  have hmet := hdecls.length_names
  rw [hdecls.numbered.names_eq_of_empty, List.length_reverse, List.length_map] at hmet
  exact hmet.trans (Nat.zero_add _)

/-- Binders of different modules have different scopes. -/
theorem Numbered.disjoint {owner owner' : Namespace} {b b' : Binders}
    {bindings bindings' : List Binding} (h : Numbered owner .empty bindings b)
    (h' : Numbered owner' .empty bindings' b') (hplain : owner.Plain) (hplain' : owner'.Plain)
    (hne : owner ≠ owner') :
    (bindings.map (·.name.qualifier)).Disjoint (bindings'.map (·.name.qualifier)) := by
  intro ns hns hns'
  obtain ⟨binding, hbinding, rfl⟩ := List.mem_map.mp hns
  obtain ⟨binding', hbinding', hsame⟩ := List.mem_map.mp hns'
  obtain ⟨number, hlexical, hqualifier⟩ := h.exists_number hbinding
  obtain ⟨number', hlexical', hqualifier'⟩ := h'.exists_number hbinding'
  have hscope : ScopeIn owner binding.name.qualifier := hqualifier ▸ hlexical.child number
  have hscope' : ScopeIn owner' binding.name.qualifier :=
    hsame ▸ hqualifier' ▸ hlexical'.child number'
  exact hne (hscope.eq_of_plain hscope' hplain hplain')

/-- **Every binder gets a name of its own**, if every module has fewer than 2 ^ 32 of them.  No two
scopes of the program are the same; the binders of a module are numbered from zero in the order of
traversal, and each scope is the scope around it with the number added; no binder is named like a
declaration. -/
theorem Program.bindings_of_analyze {p q : Program} {config : Config}
    (h : p.analyze config = .ok q) (hplain : ∀ m ∈ p.modules, m.ns.Plain)
    (hfew : ∀ m ∈ p.modules, m.binderCount < UInt32.size) :
    (q.bindings.map (·.name.qualifier)).Nodup ∧
      (∀ m ∈ q.modules, ∀ (k : Nat) (b : Binding), m.bindings[k]? = some b →
        b.name.qualifier = b.lexical.child (scopeSegment k)) ∧
      ∀ b ∈ q.bindings, ∀ m ∈ p.modules, ∀ d ∈ m.decls, b.name ≠ m.ns.name d.ident := by
  obtain ⟨himports, -, hmodules⟩ := Program.analyze_eq_ok_iff.mp h
  have hnumbered : ∀ m ∈ q.modules, m.ns.Plain ∧ m.bindings.length ≤ UInt32.size ∧
      ∃ b, Numbered m.ns .empty m.bindings b := by
    intro m hm
    obtain ⟨source, hsource, hresolve⟩ := exists_left_of_forall₂ hmodules hm
    refine ⟨?_, ?_, Module.numbered_of_resolve hresolve⟩
    · rw [Module.ns_of_resolve hresolve]
      exact hplain source hsource
    · rw [Module.length_bindings_of_resolve hresolve]
      exact Nat.le_of_lt (hfew source hsource)
  have hdistinct : (q.modules.map Module.ns).Nodup := by
    rw [Program.ns_of_analyze h]
    exact (checkImports_eq_ok_iff_not_cyclic.mp himports).1
  refine ⟨?_, ?_, ?_⟩
  · rw [Program.bindings, List.map_flatMap, List.nodup_flatMap]
    constructor
    · intro m hm
      obtain ⟨-, hlength, b, hb⟩ := hnumbered m hm
      exact hb.nodup hlength
    · -- The numbers start again in each module, but the modules are different.
      refine (List.pairwise_map.mp hdistinct).imp_of_mem fun hm hm' hne => ?_
      obtain ⟨hmplain, -, b, hb⟩ := hnumbered _ hm
      obtain ⟨hmplain', -, b', hb'⟩ := hnumbered _ hm'
      exact hb.disjoint hb' hmplain hmplain' hne
  · intro m hm k b hb
    obtain ⟨-, hlength, last, hlast⟩ := hnumbered m hm
    exact hlast.qualifier_eq_of_empty hlength hb
  · intro b hb m hm d _ hname
    obtain ⟨m', hm', hb⟩ := List.mem_flatMap.mp hb
    obtain ⟨-, -, last, hlast⟩ := hnumbered m' hm'
    obtain ⟨number, -, hqualifier⟩ := hlast.exists_number hb
    -- The scope of the binder would have to be the module of the declaration.
    have hns : b.lexical.child (scopeSegment number) = m.ns := by
      rw [← hqualifier, hname]
      rfl
    exact (hplain m hm).ne_child b.lexical number hns

/-- Binders of a module and of one that is nested in it. -/
theorem Program.bindings_of_analyze_nested_module :
    let outer (x a b t : Name) : Module := ⟨⟨0⟩, ⟨["A"]⟩, [], [],
      [.data ⟨1⟩ "T" [] [], .value ⟨2⟩ "f" none (.matchWith ⟨3⟩ (.lambda ⟨4⟩ x (.var ⟨5⟩ x))
        [⟨.variant ⟨6⟩ t "C" [a, b], .var ⟨7⟩ b⟩])]⟩
    let inner (y : Name) : Module := ⟨⟨8⟩, ⟨["A", "B"]⟩, [], [],
      [.value ⟨9⟩ "g" none (.letIn ⟨10⟩ y (.lit ⟨11⟩ .unit) (.var ⟨12⟩ y))]⟩
    let p : Program := ⟨[outer (.unqualified "x") (.unqualified "a") (.unqualified "b")
      (.unqualified "T"), inner (.unqualified "y")]⟩
    let q : Program := ⟨[outer ⟨⟨["A", "#0"]⟩, "x"⟩ ⟨⟨["A", "#1"]⟩, "a"⟩
      ⟨⟨["A", "#1", "#2"]⟩, "b"⟩ ⟨⟨["A"]⟩, "T"⟩, inner ⟨⟨["A", "B", "#0"]⟩, "y"⟩]⟩
    p.analyze {} = .ok q ∧ (∀ m ∈ p.modules, m.binderCount < UInt32.size) ∧
      q.bindings.map (·.lexical.segments) = [["A"], ["A"], ["A", "#1"], ["A", "B"]] ∧
      (q.bindings.map (·.name.qualifier)).Nodup ∧
      ∀ b ∈ q.bindings, ∀ m ∈ p.modules, ∀ d ∈ m.decls, b.name ≠ m.ns.name d.ident := by
  intro outer inner p q
  have hanalyze : p.analyze {} = .ok q := by cbv
  have hplain : ∀ m ∈ p.modules, m.ns.Plain := by decide
  have hfew : ∀ m ∈ p.modules, m.binderCount < UInt32.size := by decide
  obtain ⟨hdistinct, -, hdecls⟩ := Program.bindings_of_analyze hanalyze hplain hfew
  exact ⟨hanalyze, hfew, by cbv, hdistinct, hdecls⟩

end NameResolution
