import NameResolution.Analysis
import NameResolution.Proofs.Import.Verdict
import NameResolution.Proofs.Scope.Depth

/-!
# The recursion limit

The stages before the resolver know no limit, so what holds of the resolver holds of an analysis: a
smaller limit does nothing but cut it off, at a node whose nesting depth is the limit and one more
(`Program.limited_analyze`).  `Program.analyze_limit` says what follows for the answers, and that
the count of open nodes stays within 32 bits and is right again behind every node.
-/

namespace NameResolution

/-- The expressions and types of a program, with their nesting depths. -/
def Program.nesting (p : Program) : List (NodeId × Nat) := p.modules.flatMap Module.nesting

/-! ### Stages without a limit -/

theorem neverTooDeep_checkImports (modules : List Module) : NeverTooDeep (checkImports modules) := by
  intro node h
  have hverdict := verdict_checkImports modules
  rw [h] at hverdict
  cases hverdict

theorem Module.checkEntries_ne_nestedTooDeeply (m : Module) (node : NodeId) :
    m.checkEntries ≠ .error (.nestedTooDeeply node) := by
  rw [checkEntries]
  by_cases hreexports : !m.unimportedReexports.isEmpty
  · rw [if_pos hreexports]
    rintro ⟨⟩
  · rw [if_neg hreexports]
    by_cases hexports : !m.undeclaredExports.isEmpty
    · rw [if_pos hexports]
      rintro ⟨⟩
    · rw [if_neg hexports]
      cases m.repeatedIdent? with
      | some ident => rintro ⟨⟩
      | none => rintro ⟨⟩

theorem Module.neverTooDeep_checkEntriesOf (modules : List Module) :
    NeverTooDeep (liftM (checkEntriesOf modules) : Except Failure Unit) := by
  intro node h
  obtain ⟨e, he, ⟨⟩⟩ := mapError_eq_error_iff.mp h
  induction modules with
  | nil => cases he
  | cons m rest ih =>
    rw [checkEntriesOf] at he
    rcases bind_eq_error_iff.mp he with hm | ⟨⟨⟩, -, hrest⟩
    · exact m.checkEntries_ne_nestedTooDeeply node hm
    · exact ih (mapError_eq_error_iff.mpr ⟨_, hrest, rfl⟩) hrest

/-! ### Analyses under two limits -/

theorem Module.limited_resolveList (interfaces : Interfaces) {limit limit' : UInt32}
    (h : limit ≤ limit') : (modules : List Module) →
    Limited limit.toNat (modules.flatMap Module.nesting) (resolveList interfaces limit modules)
      (resolveList interfaces limit' modules)
  | [] => .of_neverTooDeep (.pure [])
  | m :: rest => by
    rw [resolveList, resolveList, List.flatMap_cons]
    refine (m.limited_resolve interfaces h).bind fun m _ => ?_
    exact (limited_resolveList interfaces h rest).map (m :: ·)

/-- **A limit does nothing to an analysis but cut it off**, at a node that is too deep by one. -/
theorem Program.limited_analyze (p : Program) {config config' : Config}
    (h : config.recursionLimit ≤ config'.recursionLimit) :
    Limited config.recursionLimit.toNat p.nesting (p.analyze config) (p.analyze config') := by
  have hcheck : NeverTooDeep p.check :=
    (neverTooDeep_checkImports p.modules).bind fun _ => .pure _
  refine (Limited.of_neverTooDeep hcheck).bind fun checked hchecked => ?_
  obtain ⟨⟨⟩, -, hchecked⟩ := bind_eq_ok_iff.mp hchecked
  obtain rfl := pure_eq_ok_iff.mp hchecked
  have hentries := Module.neverTooDeep_checkEntriesOf p.modules
  refine (Limited.of_neverTooDeep hentries).bind fun _ _ => ?_
  exact (Module.limited_resolveList (.ofProgram p) h p.modules).map Program.mk

/-- **The limit is exact, and cannot be noticed otherwise.**  Under a smaller limit a program has
the same analysis or is refused for its depth.  It is not refused so if no node is too deep, it has
no analysis if some node is, and it is refused at a node that is too deep by one.  The count of
open nodes stays within 32 bits, and is the same before and behind every expression and type. -/
theorem Program.analyze_limit (p : Program) {config config' : Config}
    (h : config.recursionLimit ≤ config'.recursionLimit) :
    (p.analyze config = p.analyze config' ∨
        ∃ node, p.analyze config = .error (.error (.nestedTooDeeply node))) ∧
      ((∀ n ∈ p.nesting, n.2 ≤ config.recursionLimit.toNat) →
        ∀ node, p.analyze config ≠ .error (.error (.nestedTooDeeply node))) ∧
      ((∃ n ∈ p.nesting, config.recursionLimit.toNat < n.2) → ∀ q, p.analyze config ≠ .ok q) ∧
      (∀ node, p.analyze config = .error (.error (.nestedTooDeeply node)) →
        (node, config.recursionLimit.toNat + 1) ∈ p.nesting) ∧
      (∀ node s s', (Resolution.openNode config.recursionLimit node).run s = .ok ((), s') →
        s'.depth = s.depth + 1 ∧ s'.depth < UInt32.size) ∧
      (∀ (ctx : Context) lexical (e : Expr), (e.resolve ctx lexical).Balanced) ∧
      ∀ (ctx : Context) (type : Ty), (type.resolve ctx).Balanced := by
  have hlimited := p.limited_analyze h
  refine ⟨hlimited.eq_or_cut, hlimited.neverTooDeep, ?_, fun node => hlimited.mem_of_cut,
    fun _ _ _ => Resolution.depth_of_openNode, ?_, ?_⟩
  · rintro ⟨n, hn, hdeep⟩
    exact hlimited.ne_ok hn hdeep
  · exact fun ctx lexical e => (Expr.cutOff_resolve (UInt32.le_refl _) 0 lexical e).balanced
  · exact fun ctx type => (Ty.cutOff_resolve (UInt32.le_refl _) 0 type).balanced

/-- A variable and the type that is stated for it are equally deep, and the variable comes first. -/
theorem Program.analyze_limit_stated_type :
    let main (x t : Name) : Module := ⟨⟨0⟩, ⟨["Main"]⟩, [], [], [.data ⟨1⟩ "T" [] [],
      .value ⟨2⟩ "f" none (.lambda ⟨3⟩ x (.annot ⟨4⟩ (.var ⟨5⟩ x) (.con ⟨6⟩ t [])))]⟩
    let p : Program := ⟨[main (.unqualified "x") (.unqualified "T")]⟩
    let q : Program := ⟨[main ⟨⟨["Main", "#0"]⟩, "x"⟩ ⟨⟨["Main"]⟩, "T"⟩]⟩
    (2 : UInt32) ≤ 3 ∧ p.nesting = [(⟨3⟩, 1), (⟨4⟩, 2), (⟨5⟩, 3), (⟨6⟩, 3)] ∧
      p.analyze ⟨3⟩ = .ok q ∧ p.analyze ⟨2⟩ = .error (.error (.nestedTooDeeply ⟨5⟩)) ∧
      (⟨5⟩, 2 + 1) ∈ p.nesting ∧ ∀ q, p.analyze ⟨2⟩ ≠ .ok q := by
  intro main p q
  have hlimit : (2 : UInt32) ≤ 3 := by decide
  have hrefused : p.analyze ⟨2⟩ = .error (.error (.nestedTooDeeply ⟨5⟩)) := by cbv
  obtain ⟨-, -, hdeep, hnode, -⟩ := @Program.analyze_limit p ⟨2⟩ ⟨3⟩ hlimit
  refine ⟨hlimit, by cbv, by cbv, hrefused, hnode _ hrefused, hdeep ?_⟩
  exact ⟨(⟨5⟩, 3), hnode _ hrefused, by decide⟩

end NameResolution
