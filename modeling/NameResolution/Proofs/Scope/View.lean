import NameResolution.Proofs.Scope.Derivation
import Mathlib.Data.List.Perm.Basic

/-!
# What a derivation sees of its context

A derivation asks its context for the meaning of names and for the limit on nesting, and for nothing
else.  So whatever can be derived in one context can be derived in every context that keeps its
meanings and its limit (`Decl.ResolvesList.of_keeps`).

Two contexts have the same view of a program if the same names are declared and exported in them and
the same modules are in reach, in whatever order and through whichever imports.  Then each of them
keeps the meanings of the other one (`Context.SameView.keeps`): an identifier that one module in
reach exports means the same in any order, and any other number of exporters is an error.
-/

namespace NameResolution

namespace Context

/-- All meanings of `ctx` are meanings of `ctx'`, and nothing that `ctx` admits is nested too deeply
for `ctx'`. -/
structure Keeps (ctx ctx' : Context) : Prop where
  owner_eq : ctx'.owner = ctx.owner
  limit_le : ctx.limit.toNat ≤ ctx'.limit.toNat
  typeName_eq_ok : ∀ {node : NodeId} {name n : Name},
    ctx.typeName node name = .ok n → ctx'.typeName node name = .ok n
  variableAt_eq_ok : ∀ {b : Binders} {lexical : Namespace} {node : NodeId} {name n : Name},
    ctx.variableAt b lexical node name = .ok n → ctx'.variableAt b lexical node name = .ok n

theorem Keeps.depth_lt {ctx ctx' : Context} (h : ctx.Keeps ctx') {depth : Nat}
    (hdepth : depth < ctx.limit.toNat) : depth < ctx'.limit.toNat :=
  Nat.lt_of_lt_of_le hdepth h.limit_le

end Context

/-! ### Derivations in another context -/

section Keeps

variable {ctx ctx' : Context}

mutual

theorem Ty.Resolves.of_keeps (h : ctx.Keeps ctx') {depth : Nat} {type type' : Ty} :
    type.Resolves ctx depth type' → type.Resolves ctx' depth type'
  | .var hdepth => .var (h.depth_lt hdepth)
  | .con hdepth hname hargs =>
    .con (h.depth_lt hdepth) (h.typeName_eq_ok hname) (hargs.of_keeps h)
  | .arrow hdepth hparam hresult =>
    .arrow (h.depth_lt hdepth) (hparam.of_keeps h) (hresult.of_keeps h)

theorem Ty.ResolvesList.of_keeps (h : ctx.Keeps ctx') {depth : Nat} {types types' : List Ty} :
    Ty.ResolvesList ctx depth types types' → Ty.ResolvesList ctx' depth types types'
  | .nil => .nil
  | .cons htype hrest => .cons (htype.of_keeps h) (hrest.of_keeps h)

end

theorem Pattern.Resolves.of_keeps (h : ctx.Keeps ctx') {env : List Name}
    {pattern pattern' : Pattern} {b b' : Binders}
    (hpattern : pattern.Resolves ctx env b pattern' b') :
    pattern.Resolves ctx' env b pattern' b' := by
  cases hpattern with
  | lit => exact .lit
  | wildcard => exact .wildcard
  | bind =>
    rw [← h.owner_eq]
    exact .bind
  | variant htype =>
    rw [← h.owner_eq]
    exact .variant (h.typeName_eq_ok htype)

mutual

theorem Expr.Resolves.of_keeps (h : ctx.Keeps ctx') {env : List Name} {depth : Nat} {e e' : Expr}
    {b b' : Binders} : e.Resolves ctx env depth b e' b' → e.Resolves ctx' env depth b e' b'
  | .lit hdepth => .lit (h.depth_lt hdepth)
  | .var hdepth hname => by
    rw [← h.owner_eq] at hname
    exact .var (h.depth_lt hdepth) (h.variableAt_eq_ok hname)
  | .app hdepth hfunc harg => .app (h.depth_lt hdepth) (hfunc.of_keeps h) (harg.of_keeps h)
  | .lambda hdepth hbody => by
    -- A fresh binder depends on the context through the module only.
    have hbody := hbody.of_keeps h
    rw [← h.owner_eq] at hbody ⊢
    exact .lambda (h.depth_lt hdepth) hbody
  | .annot hdepth hexpr htype => .annot (h.depth_lt hdepth) (hexpr.of_keeps h) (htype.of_keeps h)
  | .letIn hdepth hbound hbody => by
    have hbody := hbody.of_keeps h
    rw [← h.owner_eq] at hbody ⊢
    exact .letIn (h.depth_lt hdepth) (hbound.of_keeps h) hbody
  | .ifThenElse hdepth hcond hthen helse =>
    .ifThenElse (h.depth_lt hdepth) (hcond.of_keeps h) (hthen.of_keeps h) (helse.of_keeps h)
  | .matchWith hdepth hscrutinee harms =>
    .matchWith (h.depth_lt hdepth) (hscrutinee.of_keeps h) (harms.of_keeps h)

theorem Arm.Resolves.of_keeps (h : ctx.Keeps ctx') {env : List Name} {depth : Nat} {arm arm' : Arm}
    {b b' : Binders} : arm.Resolves ctx env depth b arm' b' → arm.Resolves ctx' env depth b arm' b'
  | .mk hpattern hbody => .mk (hpattern.of_keeps h) (hbody.of_keeps h)

theorem Arm.ResolvesList.of_keeps (h : ctx.Keeps ctx') {env : List Name} {depth : Nat}
    {arms arms' : List Arm} {b b' : Binders} :
    Arm.ResolvesList ctx env depth arms b arms' b' →
      Arm.ResolvesList ctx' env depth arms b arms' b'
  | .nil => .nil
  | .cons harm hrest => .cons (harm.of_keeps h) (hrest.of_keeps h)

end

theorem Constructor.Resolves.of_keeps (h : ctx.Keeps ctx') {ctor ctor' : Constructor}
    (hctor : ctor.Resolves ctx ctor') : ctor.Resolves ctx' ctor' := by
  obtain ⟨hfields⟩ := hctor
  exact .mk (hfields.of_keeps h)

theorem Decl.Resolves.of_keeps (h : ctx.Keeps ctx') {decl decl' : Decl} {b b' : Binders}
    (hdecl : decl.Resolves ctx b decl' b') : decl.Resolves ctx' b decl' b' := by
  cases hdecl with
  | value hsignature hbody =>
    refine .value ?_ (hbody.of_keeps h)
    cases hsignature with
    | none => exact .none
    | some htype => exact .some (htype.of_keeps h)
  | data hctors => exact .data (hctors.imp fun _ _ hctor => hctor.of_keeps h)

/-- **What is derived in a context is derived in every context that keeps its meanings.** -/
theorem Decl.ResolvesList.of_keeps (h : ctx.Keeps ctx') {decls decls' : List Decl} {b b' : Binders}
    (hdecls : Decl.ResolvesList ctx decls b decls' b') :
    Decl.ResolvesList ctx' decls b decls' b' := by
  induction hdecls with
  | nil => exact .nil
  | cons hdecl _ ih => exact .cons (hdecl.of_keeps h) ih

end Keeps

/-! ### Contexts with the same view -/

namespace Context

variable {ctx ctx' : Context}

/-- Both contexts are for the same module and show it the same declarations, exports and modules in
reach. -/
structure SameView (ctx ctx' : Context) : Prop where
  owner_eq : ctx'.owner = ctx.owner
  limit_eq : ctx'.limit = ctx.limit
  hasDecl_eq : ∀ ns ident, ctx'.interfaces.hasDecl ns ident = ctx.interfaces.hasDecl ns ident
  hasExport_eq : ∀ ns ident, ctx'.interfaces.hasExport ns ident = ctx.interfaces.hasExport ns ident
  reach : (ctx.reach.map Import.target).Perm (ctx'.reach.map Import.target)

theorem map_target_exporters (ctx : Context) (ident : String) :
    (ctx.exporters ident).map Import.target =
      (ctx.reach.map Import.target).filter (ctx.interfaces.hasExport · ident) := by
  rw [exporters, List.filter_map]
  rfl

/-- An identifier can be imported if there is one module in reach that exports it. -/
theorem imported_eq_ok_iff {node : NodeId} {ident : String} {sort : NameSort} {n : Name} :
    ctx.imported node ident sort = .ok n ↔
      ∃ target, (ctx.exporters ident).map Import.target = [target] ∧ target.name ident = n := by
  rw [imported]
  cases ctx.exporters ident with
  | nil => simp [refused]
  | cons i rest =>
    cases rest with
    | nil => simp
    | cons j rest => simp

namespace SameView

theorem qualified_eq (h : ctx.SameView ctx') (node : NodeId) (name : Name) (sort : NameSort) :
    ctx'.qualified node name sort = ctx.qualified node name sort := by
  simp only [qualified, refused, h.owner_eq, h.hasDecl_eq, h.hasExport_eq, h.reach.mem_iff]

theorem imported_eq_ok (h : ctx.SameView ctx') {node : NodeId} {ident : String} {sort : NameSort}
    {n : Name} (hn : ctx.imported node ident sort = .ok n) :
    ctx'.imported node ident sort = .ok n := by
  rw [imported_eq_ok_iff] at hn ⊢
  obtain ⟨target, hexporters, hname⟩ := hn
  refine ⟨target, ?_, hname⟩
  -- A list with one entry has no other order.
  rw [← List.perm_singleton, ← hexporters, map_target_exporters, map_target_exporters]
  simp only [h.hasExport_eq]
  exact (h.reach.filter _).symm

/-- **Contexts with the same view keep each other's meanings.** -/
theorem keeps (h : ctx.SameView ctx') : ctx.Keeps ctx' where
  owner_eq := h.owner_eq
  limit_le := h.limit_eq ▸ Nat.le_refl _
  typeName_eq_ok := by
    intro node name n hn
    rw [typeName] at hn ⊢
    -- Both contexts go through the same cases; only what an import gives is not literally the same.
    rw [h.qualified_eq, h.owner_eq, h.hasDecl_eq]
    split_ifs at hn ⊢ with hqualified hprimitive hdecl
    · exact hn
    · exact hn
    · exact hn
    · exact h.imported_eq_ok hn
  variableAt_eq_ok := by
    intro b lexical node name n hn
    rw [variableAt] at hn ⊢
    rw [h.qualified_eq, h.owner_eq, h.hasDecl_eq]
    split_ifs at hn ⊢ with hqualified hbinder hdecl
    · exact hn
    · exact hn
    · exact hn
    · cases hlookup : b.lookup lexical ctx.owner name.ident with
      | some binder =>
        rw [hlookup] at hn
        exact hn
      | none =>
        rw [hlookup] at hn
        exact h.imported_eq_ok hn

end SameView

end Context

end NameResolution
