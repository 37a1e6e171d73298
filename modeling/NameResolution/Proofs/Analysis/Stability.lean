import NameResolution.Proofs.Analysis.Outline
import NameResolution.Proofs.Scope.Requalify
import Mathlib

/-!
# Stability of an analysis

Any names of an analyzed program may be replaced beforehand by what the analysis makes of them; it
then still makes the same program of it (`Program.analyze_stable`).  Replacing all of them gives
idempotence.

No name that can be replaced is part of a header or of an interface.  So the stages before the
resolver do for the mixed program what they do for the given one (`Program.Between.sameOutline`),
and the resolver works with the same table.
-/

namespace NameResolution

/-! ### Mixed modules and programs -/

/-- Modules with some names replaced. -/
inductive Module.Between : (m m' mixed : Module) → Prop
  | mk {id : NodeId} {ns : Namespace} {imports : List Import} {exports : List Export}
      {decls decls' decls'' : List Decl} (hdecls : Listwise Decl.Between decls decls' decls'') :
      Between ⟨id, ns, imports, exports, decls⟩ ⟨id, ns, imports, exports, decls'⟩
        ⟨id, ns, imports, exports, decls''⟩

/-- `mixed` is `p` in which some names have been replaced by those that stand at the same places in
`q`. -/
def Program.Between (p q mixed : Program) : Prop :=
  Listwise Module.Between p.modules q.modules mixed.modules

theorem Decl.Between.ident_eq {decl decl' mixed : Decl} (h : decl.Between decl' mixed) :
    mixed.ident = decl.ident := by
  cases h <;> rfl

namespace Module.Between

variable {m m' mixed : Module}

theorem headerOnly_eq (h : m.Between m' mixed) : mixed.headerOnly = m.headerOnly := by
  obtain ⟨-⟩ := h
  rfl

theorem ofModule_eq (h : m.Between m' mixed) :
    Interface.ofModule mixed = Interface.ofModule m := by
  obtain ⟨hdecls⟩ := h
  rw [Interface.ofModule, Interface.ofModule, Module.declared, Module.declared,
    hdecls.map_eq Decl.Between.ident_eq]

/-- A mixed module is resolved to the same module. -/
theorem resolve_eq_ok {interfaces : Interfaces} {limit : UInt32}
    (hexports : ∀ {ns ident}, interfaces.hasExport ns ident = true →
      interfaces.hasDecl ns ident = true)
    (h : m.Between m' mixed) (hm : m.resolve interfaces limit = .ok m') :
    mixed.resolve interfaces limit = .ok m' := by
  obtain ⟨reach, decls', b, hreach, hdecls, rfl⟩ := Module.resolve_eq_ok_iff.mp hm
  obtain ⟨hmixed⟩ := h
  exact Module.resolve_eq_ok_iff.mpr
    ⟨reach, decls', b, hreach, hdecls.of_between (fun _ => hexports) hmixed, rfl⟩

end Module.Between

/-- A resolved module is the given one with every name replaced. -/
theorem Module.between_right_of_resolve {interfaces : Interfaces} {limit : UInt32} {m m' : Module}
    (h : m.resolve interfaces limit = .ok m') : m.Between m' m' := by
  obtain ⟨reach, decls', b, -, hdecls, rfl⟩ := Module.resolve_eq_ok_iff.mp h
  exact .mk hdecls.between_right

/-! ### Mixed programs in the stages -/

namespace Program.Between

variable {p q mixed : Program}

/-- What is replaced is in declarations, below what they declare. -/
theorem sameOutline (h : p.Between q mixed) : p.SameOutline mixed where
  headers_eq := h.map_eq Module.Between.headerOnly_eq
  interfaces_eq := h.map_eq Module.Between.ofModule_eq

/-- A mixed program is analyzed to the same program. -/
theorem analyze_eq_ok {config : Config} (h : p.Between q mixed)
    (hanalyze : p.analyze config = .ok q) : mixed.analyze config = .ok q := by
  obtain ⟨-, hentries, hmodules⟩ := Program.analyze_eq_ok_iff.mp hanalyze
  refine h.sameOutline.analyze_eq_ok hanalyze (h.forall₂ hmodules fun hmixed hresolve => ?_)
  exact hmixed.resolve_eq_ok (Interfaces.hasDecl_of_hasExport hentries) hresolve

end Program.Between

/-- An analyzed program is the given one with every name replaced. -/
theorem Program.between_right_of_analyze {p q : Program} {config : Config}
    (h : p.analyze config = .ok q) : p.Between q q := by
  obtain ⟨-, -, hmodules⟩ := Program.analyze_eq_ok_iff.mp h
  exact .of_forall₂ hmodules Module.between_right_of_resolve

/-- **An analysis is stable under partial qualification**: if it makes `q` of `p`, then it makes `q`
of every program between `p` and `q`, and of `q` itself. -/
theorem Program.analyze_stable {p q : Program} {config : Config}
    (h : p.analyze config = .ok q) :
    (∀ mixed, p.Between q mixed → mixed.analyze config = .ok q) ∧ q.analyze config = .ok q :=
  ⟨fun _ hmixed => hmixed.analyze_eq_ok h, (Program.between_right_of_analyze h).analyze_eq_ok h⟩

/-- A function from an import is qualified beforehand and so is the binder, but not its
occurrence. -/
theorem Program.analyze_stable_imported_value :
    let lib : Module :=
      ⟨⟨0⟩, ⟨["Lib"]⟩, [], [.decl ⟨1⟩ "g"], [.value ⟨2⟩ "g" none (.lit ⟨3⟩ .unit)]⟩
    let main (g binder x : Name) : Module :=
      ⟨⟨4⟩, ⟨["Main"]⟩, [⟨⟨5⟩, ⟨["Lib"]⟩⟩], [], [.value ⟨6⟩ "f" none
        (.lambda ⟨7⟩ binder (.app ⟨8⟩ (.var ⟨9⟩ g) (.var ⟨10⟩ x)))]⟩
    let g : Name := ⟨⟨["Lib"]⟩, "g"⟩
    let x : Name := ⟨⟨["Main", "#0"]⟩, "x"⟩
    let p : Program := ⟨[lib, main (.unqualified "g") (.unqualified "x") (.unqualified "x")]⟩
    let q : Program := ⟨[lib, main g x x]⟩
    let mixed : Program := ⟨[lib, main g x (.unqualified "x")]⟩
    p.analyze {} = .ok q ∧ p.Between q mixed ∧ mixed.analyze {} = .ok q := by
  intro lib main g x p q mixed
  have hanalyze : p.analyze {} = .ok q := by cbv
  have hlib : lib.Between lib lib := .mk (.cons (.value .lit) .nil)
  have hg : Name.Between (.unqualified "g") g g := Or.inr rfl
  have hbinder : Name.Between (.unqualified "x") x x := Or.inr rfl
  have hx : Name.Between (.unqualified "x") x (.unqualified "x") := Or.inl rfl
  have hmixed : p.Between q mixed :=
    .cons hlib (.cons (.mk (.cons (.value (.lambda hbinder (.app (.var hg) (.var hx)))) .nil)) .nil)
  exact ⟨hanalyze, hmixed, (Program.analyze_stable hanalyze).1 mixed hmixed⟩

end NameResolution
