import NameResolution.Proofs.Import.Lockstep
import NameResolution.Proofs.Scope.Lookup
import NameResolution.Scope.Resolve
import Mathlib

/-!
# What resolving a module depends on

Resolving a module asks the table of interfaces two questions: whether the module itself declares an
identifier, and whether a module in reach exports one.  Two tables that answer these questions alike
(`Context.Alike`) give every name the same meaning, or the same failure (`Context.SameMeanings`),
and so every term the same outcome (`Expr.resolve_eq`).

Tables that are alike for a module (`Interfaces.Alike`) also show it the same imports in reach.
Hence a module is resolved alike in both (`Module.resolve_eq_of_alike`): the bodies of other
modules, what they declare, modules out of reach and the order of the table do not matter.
-/

namespace NameResolution

/-! ### Contexts that answer alike -/

namespace Context

/-- Both contexts are for the same module with the same imports in reach, and give the same answers
about what the module declares and what is exported in reach. -/
structure Alike (ctx ctx' : Context) : Prop where
  owner_eq : ctx'.owner = ctx.owner
  reach_eq : ctx'.reach = ctx.reach
  limit_eq : ctx'.limit = ctx.limit
  hasDecl_eq : ∀ ident,
    ctx'.interfaces.hasDecl ctx.owner ident = ctx.interfaces.hasDecl ctx.owner ident
  hasExport_eq : ∀ i ∈ ctx.reach, ∀ ident,
    ctx'.interfaces.hasExport i.target ident = ctx.interfaces.hasExport i.target ident

namespace Alike

variable {ctx ctx' : Context}

theorem exporters_eq (h : ctx.Alike ctx') (ident : String) :
    ctx'.exporters ident = ctx.exporters ident := by
  unfold exporters
  rw [h.reach_eq]
  exact List.filter_congr fun i hi => h.hasExport_eq i hi ident

theorem imported_eq (h : ctx.Alike ctx') (node : NodeId) (ident : String) (sort : NameSort) :
    ctx'.imported node ident sort = ctx.imported node ident sort := by
  unfold imported refused
  rw [h.exporters_eq, h.owner_eq]

theorem qualified_eq (h : ctx.Alike ctx') (node : NodeId) (name : Name) (sort : NameSort) :
    ctx'.qualified node name sort = ctx.qualified node name sort := by
  unfold qualified refused
  rw [h.owner_eq, h.reach_eq, h.hasDecl_eq]
  by_cases hreach : name.qualifier ∈ ctx.reach.map Import.target
  · obtain ⟨i, hi, htarget⟩ := List.mem_map.mp hreach
    have hexport := h.hasExport_eq i hi name.ident
    rw [htarget] at hexport
    rw [hexport]
  · -- The exports of a module out of reach are not looked at.
    rw [if_neg hreach, if_neg hreach]

theorem variableAt_eq (h : ctx.Alike ctx') (binders : Binders) (lexical : Namespace)
    (node : NodeId) (name : Name) :
    ctx'.variableAt binders lexical node name = ctx.variableAt binders lexical node name := by
  unfold variableAt
  rw [h.qualified_eq, h.imported_eq, h.owner_eq, h.hasDecl_eq]

theorem typeName_eq (h : ctx.Alike ctx') (node : NodeId) (name : Name) :
    ctx'.typeName node name = ctx.typeName node name := by
  unfold typeName
  rw [h.qualified_eq, h.imported_eq, h.owner_eq, h.hasDecl_eq]

end Alike

/-- Both contexts admit the same depth and answer every lookup alike. -/
structure SameMeanings (ctx ctx' : Context) : Prop where
  owner_eq : ctx'.owner = ctx.owner
  limit_eq : ctx'.limit = ctx.limit
  typeMeaning_eq : ∀ node name, ctx'.typeMeaning node name = ctx.typeMeaning node name
  variableMeaning_eq : ∀ binders lexical node name,
    ctx'.variableMeaning binders lexical node name = ctx.variableMeaning binders lexical node name

theorem Alike.sameMeanings {ctx ctx' : Context} (h : ctx.Alike ctx') (hctx : ctx.Grounded)
    (hctx' : ctx'.Grounded) : ctx.SameMeanings ctx' where
  owner_eq := h.owner_eq
  limit_eq := h.limit_eq
  typeMeaning_eq node name := by
    rw [Context.typeMeaning_eq hctx, Context.typeMeaning_eq hctx', h.typeName_eq]
  variableMeaning_eq binders lexical node name := by
    by_cases hlexical : ctx.owner.encloses lexical = true
    · have hlexical' : ctx'.owner.encloses lexical = true := h.owner_eq ▸ hlexical
      rw [Context.variableMeaning_eq hctx binders hlexical,
        Context.variableMeaning_eq hctx' binders hlexical', h.variableAt_eq]
    · -- A place outside the module is the same fault in both.
      have hlexical' : ¬ctx'.owner.encloses lexical = true := h.owner_eq ▸ hlexical
      rw [Context.variableMeaning_outside binders hlexical,
        Context.variableMeaning_outside binders hlexical', h.owner_eq]

end Context

/-! ### The same outcome -/

section Outcome

variable {ctx ctx' : Context}

mutual

theorem Ty.resolve_eq (h : ctx.SameMeanings ctx') : (type : Ty) →
    type.resolve ctx' = type.resolve ctx
  | .var id ident => by
    simp only [Ty.resolve, h.limit_eq]
  | .con id name args => by
    simp only [Ty.resolve, h.limit_eq, h.typeMeaning_eq, Ty.resolveList_eq h args]
  | .arrow id param result => by
    simp only [Ty.resolve, h.limit_eq, param.resolve_eq h, result.resolve_eq h]

theorem Ty.resolveList_eq (h : ctx.SameMeanings ctx') : (types : List Ty) →
    Ty.resolveList ctx' types = Ty.resolveList ctx types
  | [] => by
    simp only [Ty.resolveList]
  | type :: rest => by
    simp only [Ty.resolveList, type.resolve_eq h, Ty.resolveList_eq h rest]

end

theorem Pattern.resolve_eq (h : ctx.SameMeanings ctx') (pattern : Pattern) (lexical : Namespace) :
    pattern.resolve ctx' lexical = pattern.resolve ctx lexical := by
  cases pattern with
  | lit id value => rfl
  | wildcard id => rfl
  | bind id name => rfl
  | variant id type ctor fields => simp only [Pattern.resolve, h.typeMeaning_eq]

mutual

/-- **An expression has the same outcome in both contexts**, at every place and in every state. -/
theorem Expr.resolve_eq (h : ctx.SameMeanings ctx') : (e : Expr) → (lexical : Namespace) →
    e.resolve ctx' lexical = e.resolve ctx lexical
  | .lit id value, lexical => by
    simp only [Expr.resolve, h.limit_eq]
  | .var id name, lexical => by
    simp only [Expr.resolve, h.limit_eq, h.variableMeaning_eq]
  | .app id func arg, lexical => by
    simp only [Expr.resolve, h.limit_eq, func.resolve_eq h, arg.resolve_eq h]
  | .lambda id param body, lexical => by
    simp only [Expr.resolve, h.limit_eq, body.resolve_eq h]
  | .annot id expr type, lexical => by
    simp only [Expr.resolve, h.limit_eq, expr.resolve_eq h, type.resolve_eq h]
  | .letIn id binder bound body, lexical => by
    simp only [Expr.resolve, h.limit_eq, bound.resolve_eq h, body.resolve_eq h]
  | .ifThenElse id cond thenBranch elseBranch, lexical => by
    simp only [Expr.resolve, h.limit_eq, cond.resolve_eq h, thenBranch.resolve_eq h,
      elseBranch.resolve_eq h]
  | .matchWith id scrutinee arms, lexical => by
    simp only [Expr.resolve, h.limit_eq, scrutinee.resolve_eq h, Arm.resolveList_eq h arms]

theorem Arm.resolve_eq (h : ctx.SameMeanings ctx') : (arm : Arm) → (lexical : Namespace) →
    arm.resolve ctx' lexical = arm.resolve ctx lexical
  | ⟨pattern, body⟩, lexical => by
    simp only [Arm.resolve, pattern.resolve_eq h, body.resolve_eq h]

theorem Arm.resolveList_eq (h : ctx.SameMeanings ctx') : (arms : List Arm) →
    (lexical : Namespace) → Arm.resolveList ctx' lexical arms = Arm.resolveList ctx lexical arms
  | [], lexical => by
    simp only [Arm.resolveList]
  | arm :: rest, lexical => by
    simp only [Arm.resolveList, arm.resolve_eq h, Arm.resolveList_eq h rest]

end

theorem Constructor.resolveList_eq (h : ctx.SameMeanings ctx') (ctors : List Constructor) :
    Constructor.resolveList ctx' ctors = Constructor.resolveList ctx ctors := by
  induction ctors with
  | nil => rfl
  | cons ctor rest ih =>
    simp only [Constructor.resolveList, Constructor.resolve, Ty.resolveList_eq h, ih]

theorem Decl.resolve_eq (h : ctx.SameMeanings ctx') (decl : Decl) :
    decl.resolve ctx' = decl.resolve ctx := by
  cases decl with
  | value id ident signature body =>
    have hsignature : Decl.resolveSignature ctx' signature =
        Decl.resolveSignature ctx signature := by
      cases signature with
      | none => rfl
      | some type => simp only [Decl.resolveSignature, type.resolve_eq h]
    simp only [Decl.resolve, hsignature, h.owner_eq, body.resolve_eq h]
  | data id ident params ctors =>
    simp only [Decl.resolve, Constructor.resolveList_eq h]

theorem Decl.resolveList_eq (h : ctx.SameMeanings ctx') (decls : List Decl) :
    Decl.resolveList ctx' decls = Decl.resolveList ctx decls := by
  induction decls with
  | nil => rfl
  | cons decl rest ih => simp only [Decl.resolveList, decl.resolve_eq h, ih]

end Outcome

/-! ### Modules -/

/-- Tables that are alike for a module answer its questions alike. -/
theorem Interfaces.Alike.context {interfaces interfaces' : Interfaces} {ns : Namespace}
    {reach : List Import} (h : interfaces.Alike interfaces' ns reach) (limit : UInt32) :
    Context.Alike ⟨interfaces, ns, reach, limit⟩ ⟨interfaces', ns, reach, limit⟩ where
  owner_eq := rfl
  reach_eq := rfl
  limit_eq := rfl
  hasDecl_eq ident := by
    obtain ⟨interface, interface', hget, hget', -, hdeclared⟩ := h.own
    show interfaces'.hasDecl ns ident = interfaces.hasDecl ns ident
    unfold hasDecl
    rw [hget, hget', Option.any_some, Option.any_some]
    have hsame : interface'.declared.contains ident = interface.declared.contains ident := by
      rw [Bool.eq_iff_iff, List.contains_iff_mem, List.contains_iff_mem]
      exact hdeclared ident
    exact hsame
  hasExport_eq i hi ident := by
    obtain ⟨interface, interface', hget, hget', hshape⟩ := h.reached i hi
    show interfaces'.hasExport i.target ident = interfaces.hasExport i.target ident
    unfold hasExport
    rw [hget, hget', Option.any_some, Option.any_some]
    exact hshape.exposes_eq ident

/-- **A module depends on itself and on the interfaces that it can see.**  If two tables agree on
the imports and the declared identifiers of a module, and on the imports and the exports of all that
is in reach of it in the first one, then the same imports are in reach of it in the second one, and
resolving the module has the same outcome. -/
theorem Module.resolve_eq_of_alike {interfaces interfaces' : Interfaces} {m : Module}
    {reach : List Import} (hreach : interfaces.reach m.ns = .ok reach)
    (h : interfaces.Alike interfaces' m.ns reach) (limit : UInt32) :
    interfaces'.reach m.ns = .ok reach ∧
      m.resolve interfaces' limit = m.resolve interfaces limit := by
  have hreach' := h.reach_eq_ok hreach
  have hmeanings := (h.context limit).sameMeanings (Context.grounded_of_reach hreach limit)
    (Context.grounded_of_reach hreach' limit)
  refine ⟨hreach', ?_⟩
  rw [Module.resolve, Module.resolve, hreach, hreach']
  show ((Decl.resolveList ⟨interfaces', m.ns, reach, limit⟩ m.decls).run .initial >>=
    fun r => pure { m with decls := r.1 }) = _
  rw [Decl.resolveList_eq hmeanings]
  rfl

/-- The second table is in another order.  In it a module in reach declares something else, a module
out of reach exports something else, and declarations are listed in another order. -/
theorem Module.resolve_eq_of_alike_other_bodies :
    let main (declared : List String) : Interface :=
      ⟨⟨["Main"]⟩, [⟨⟨1⟩, ⟨["Facade"]⟩⟩], [], declared⟩
    let facade : Interface :=
      ⟨⟨["Facade"]⟩, [⟨⟨2⟩, ⟨["Lib"]⟩⟩], [.reexport ⟨3⟩ ⟨["Lib"]⟩], []⟩
    let lib (declared : List String) : Interface :=
      ⟨⟨["Lib"]⟩, [], [.decl ⟨4⟩ "g"], declared⟩
    let other (exports : List Export) : Interface := ⟨⟨["Other"]⟩, [], exports, ["g"]⟩
    let interfaces : Interfaces := ⟨[main ["f", "h"], facade, lib ["g"], other []]⟩
    let interfaces' : Interfaces :=
      ⟨[other [.decl ⟨5⟩ "g"], lib ["g", "f"], facade, main ["h", "f"]]⟩
    let body (g f : Name) : Expr := .app ⟨6⟩ (.var ⟨7⟩ g) (.var ⟨8⟩ f)
    let m (g f : Name) : Module :=
      ⟨⟨0⟩, ⟨["Main"]⟩, [⟨⟨1⟩, ⟨["Facade"]⟩⟩], [], [.value ⟨9⟩ "f" none (body g f)]⟩
    let source : Module := m (.unqualified "g") (.unqualified "f")
    let reach : List Import := [⟨⟨1⟩, ⟨["Facade"]⟩⟩, ⟨⟨2⟩, ⟨["Lib"]⟩⟩]
    interfaces.reach source.ns = .ok reach ∧ interfaces.Alike interfaces' source.ns reach ∧
      interfaces'.reach source.ns = .ok reach ∧
      source.resolve interfaces' 512 = source.resolve interfaces 512 ∧
      source.resolve interfaces 512 = .ok (m ⟨⟨["Lib"]⟩, "g"⟩ ⟨⟨["Main"]⟩, "f"⟩) := by
  intro main facade lib other interfaces interfaces' body m source reach
  have hreach : interfaces.reach source.ns = .ok reach := by cbv
  have halike : interfaces.Alike interfaces' source.ns reach := by
    constructor
    · refine ⟨main ["f", "h"], main ["h", "f"], rfl, rfl, rfl, fun ident => ?_⟩
      exact (List.Perm.swap "f" "h" []).mem_iff
    · intro i hi
      rcases List.mem_cons.mp hi with rfl | hi
      · exact ⟨facade, facade, rfl, rfl, rfl, rfl⟩
      · obtain rfl := List.mem_singleton.mp hi
        exact ⟨lib ["g"], lib ["g", "f"], rfl, rfl, rfl, rfl⟩
  obtain ⟨hreach', hresolve⟩ := Module.resolve_eq_of_alike hreach halike 512
  exact ⟨hreach, halike, hreach', hresolve, by cbv⟩

end NameResolution
