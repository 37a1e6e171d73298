import NameResolution.Proofs.Scope.Derivation
import NameResolution.Proofs.Scope.Meaning

/-!
# Partly resolved syntax

`Expr.Between e e' mixed` says that `mixed` is `e` in which some names have been replaced by those
that stand at the same places in `e'`.  If `e'` is what `e` is resolved to, then `mixed` is resolved
to `e'` as well (`Expr.Resolves.of_between`), in a module that declares what it exports.

The derivation for `mixed` is the one for `e`: a binder counts only by its identifier, which
resolving keeps, so all places get the same enclosing binders and the same numbers; and what a name
means there means itself.
-/

namespace NameResolution

/-! ### Mixing -/

/-- `mixed` is one of the two names. -/
def Name.Between (name name' mixed : Name) : Prop := mixed = name ∨ mixed = name'

/-- Three lists that are related place by place. -/
inductive Listwise {α : Type} (R : α → α → α → Prop) : (as bs cs : List α) → Prop
  | nil : Listwise R [] [] []
  | cons {a b c : α} {as bs cs : List α} (head : R a b c) (tail : Listwise R as bs cs) :
      Listwise R (a :: as) (b :: bs) (c :: cs)

namespace Listwise

variable {α β : Type} {R : α → α → α → Prop} {as bs cs : List α}

/-- What related elements have in common, the lists have in common. -/
theorem map_eq {f : α → β} (h : Listwise R as bs cs) (hf : ∀ {a b c}, R a b c → f c = f a) :
    cs.map f = as.map f := by
  induction h with
  | nil => rfl
  | cons head _ ih => rw [List.map_cons, List.map_cons, hf head, ih]

/-- The third list is related to the second one if its elements are. -/
theorem forall₂ {S T : α → α → Prop} (h : Listwise R as bs cs) (hS : List.Forall₂ S as bs)
    (hT : ∀ {a b c}, R a b c → S a b → T c b) : List.Forall₂ T cs bs := by
  induction h with
  | nil => exact .nil
  | cons head _ ih =>
    cases hS with
    | cons hhead htail => exact .cons (hT head hhead) (ih htail)

/-- Elements that are related with their counterparts make up related lists. -/
theorem of_forall₂ {S : α → α → Prop} (h : List.Forall₂ S as bs)
    (hR : ∀ {a b}, S a b → R a b b) : Listwise R as bs bs := by
  induction h with
  | nil => exact .nil
  | cons hhead _ ih => exact .cons (hR hhead) ih

end Listwise

/-- Types with some names replaced. -/
inductive Ty.Between : (type type' mixed : Ty) → Prop
  | var {id : NodeId} {ident : String} : Between (.var id ident) (.var id ident) (.var id ident)
  | con {id : NodeId} {name name' name'' : Name} {args args' args'' : List Ty}
      (hname : name.Between name' name'') (hargs : Listwise Ty.Between args args' args'') :
      Between (.con id name args) (.con id name' args') (.con id name'' args'')
  | arrow {id : NodeId} {param param' param'' result result' result'' : Ty}
      (hparam : Ty.Between param param' param'') (hresult : Ty.Between result result' result'') :
      Between (.arrow id param result) (.arrow id param' result') (.arrow id param'' result'')

/-- Patterns with some names replaced. -/
inductive Pattern.Between : (pattern pattern' mixed : Pattern) → Prop
  | lit {id : NodeId} {value : Literal} : Between (.lit id value) (.lit id value) (.lit id value)
  | wildcard {id : NodeId} : Between (.wildcard id) (.wildcard id) (.wildcard id)
  | bind {id : NodeId} {name name' name'' : Name} (hname : name.Between name' name'') :
      Between (.bind id name) (.bind id name') (.bind id name'')
  | variant {id : NodeId} {type type' type'' : Name} {ctor : String}
      {fields fields' fields'' : List Name} (htype : type.Between type' type'')
      (hfields : Listwise Name.Between fields fields' fields'') :
      Between (.variant id type ctor fields) (.variant id type' ctor fields')
        (.variant id type'' ctor fields'')

mutual

/-- Expressions with some names replaced. -/
inductive Expr.Between : (e e' mixed : Expr) → Prop
  | lit {id : NodeId} {value : Literal} :
      Expr.Between (.lit id value) (.lit id value) (.lit id value)
  | var {id : NodeId} {name name' name'' : Name} (hname : name.Between name' name'') :
      Expr.Between (.var id name) (.var id name') (.var id name'')
  | app {id : NodeId} {func func' func'' arg arg' arg'' : Expr}
      (hfunc : Expr.Between func func' func'') (harg : Expr.Between arg arg' arg'') :
      Expr.Between (.app id func arg) (.app id func' arg') (.app id func'' arg'')
  | lambda {id : NodeId} {param param' param'' : Name} {body body' body'' : Expr}
      (hparam : param.Between param' param'') (hbody : Expr.Between body body' body'') :
      Expr.Between (.lambda id param body) (.lambda id param' body') (.lambda id param'' body'')
  | annot {id : NodeId} {expr expr' expr'' : Expr} {type type' type'' : Ty}
      (hexpr : Expr.Between expr expr' expr'') (htype : type.Between type' type'') :
      Expr.Between (.annot id expr type) (.annot id expr' type') (.annot id expr'' type'')
  | letIn {id : NodeId} {binder binder' binder'' : Name}
      {bound bound' bound'' body body' body'' : Expr} (hbinder : binder.Between binder' binder'')
      (hbound : Expr.Between bound bound' bound'') (hbody : Expr.Between body body' body'') :
      Expr.Between (.letIn id binder bound body) (.letIn id binder' bound' body')
        (.letIn id binder'' bound'' body'')
  | ifThenElse {id : NodeId} {cond cond' cond'' thenBranch thenBranch' thenBranch'' elseBranch
      elseBranch' elseBranch'' : Expr} (hcond : Expr.Between cond cond' cond'')
      (hthen : Expr.Between thenBranch thenBranch' thenBranch'')
      (helse : Expr.Between elseBranch elseBranch' elseBranch'') :
      Expr.Between (.ifThenElse id cond thenBranch elseBranch)
        (.ifThenElse id cond' thenBranch' elseBranch')
        (.ifThenElse id cond'' thenBranch'' elseBranch'')
  | matchWith {id : NodeId} {scrutinee scrutinee' scrutinee'' : Expr}
      {arms arms' arms'' : List Arm} (hscrutinee : Expr.Between scrutinee scrutinee' scrutinee'')
      (harms : Listwise Arm.Between arms arms' arms'') :
      Expr.Between (.matchWith id scrutinee arms) (.matchWith id scrutinee' arms')
        (.matchWith id scrutinee'' arms'')

/-- Arms with some names replaced. -/
inductive Arm.Between : (arm arm' mixed : Arm) → Prop
  | mk {pattern pattern' pattern'' : Pattern} {body body' body'' : Expr}
      (hpattern : pattern.Between pattern' pattern'') (hbody : Expr.Between body body' body'') :
      Arm.Between ⟨pattern, body⟩ ⟨pattern', body'⟩ ⟨pattern'', body''⟩

end

/-- Constructors with some names replaced. -/
inductive Constructor.Between : (ctor ctor' mixed : Constructor) → Prop
  | mk {id : NodeId} {label : String} {fields fields' fields'' : List Ty}
      (hfields : Listwise Ty.Between fields fields' fields'') :
      Between ⟨id, label, fields⟩ ⟨id, label, fields'⟩ ⟨id, label, fields''⟩

/-- Declarations with some names replaced. -/
inductive Decl.Between : (decl decl' mixed : Decl) → Prop
  | value {id : NodeId} {ident : String} {body body' body'' : Expr}
      (hbody : body.Between body' body'') :
      Between (.value id ident none body) (.value id ident none body')
        (.value id ident none body'')
  | signed {id : NodeId} {ident : String} {type type' type'' : Ty} {body body' body'' : Expr}
      (htype : type.Between type' type'') (hbody : body.Between body' body'') :
      Between (.value id ident (some type) body) (.value id ident (some type') body')
        (.value id ident (some type'') body'')
  | data {id : NodeId} {ident : String} {params : List String}
      {ctors ctors' ctors'' : List Constructor}
      (hctors : Listwise Constructor.Between ctors ctors' ctors'') :
      Between (.data id ident params ctors) (.data id ident params ctors')
        (.data id ident params ctors'')

/-! ### Binders -/

/-- A mixed binder has the identifier of the binder. -/
theorem Name.Between.ident_eq {owner : Namespace} {env : List Name} {b : Binders}
    {name mixed : Name} (h : name.Between (freshBinder owner env b name.ident) mixed) :
    mixed.ident = name.ident := by
  rcases h with rfl | rfl
  · rfl
  · rfl

/-- Mixed fields become the same binders, as each of them counts by its identifier only. -/
theorem Listwise.freshBinders_eq {owner : Namespace} {env : List Name} {b : Binders}
    {fields mixed : List Name}
    (h : Listwise Name.Between fields (freshBinders owner env b fields) mixed) :
    freshBinders owner env b mixed = freshBinders owner env b fields ∧
      afterBinders owner env b mixed = afterBinders owner env b fields := by
  induction fields generalizing env b mixed with
  | nil =>
    cases h
    exact ⟨rfl, rfl⟩
  | cons field rest ih =>
    cases h with
    | cons head tail =>
      obtain ⟨hfresh, hafter⟩ := ih tail
      rw [freshBinders, freshBinders, afterBinders, afterBinders, head.ident_eq, hfresh, hafter]
      exact ⟨rfl, rfl⟩

/-! ### Resolving what is mixed -/

section Mixed

variable {ctx : Context}

theorem Name.Between.typeName_eq (hctx : ctx.DeclaresExports) {node : NodeId}
    {name name' mixed : Name} (h : ctx.typeName node name = .ok name')
    (hmixed : name.Between name' mixed) : ctx.typeName node mixed = .ok name' := by
  rcases hmixed with rfl | rfl
  · exact h
  · exact Context.typeName_idem hctx h

theorem Name.Between.variableAt_eq (hctx : ctx.DeclaresExports) {b : Binders}
    {lexical : Namespace} {node : NodeId} {name name' mixed : Name}
    (h : ctx.variableAt b lexical node name = .ok name')
    (hmixed : name.Between name' mixed) : ctx.variableAt b lexical node mixed = .ok name' := by
  rcases hmixed with rfl | rfl
  · exact h
  · exact Context.variableAt_idem hctx h

mutual

theorem Ty.Resolves.of_between (hctx : ctx.DeclaresExports) {depth : Nat} {type type' mixed : Ty} :
    type.Resolves ctx depth type' → type.Between type' mixed → mixed.Resolves ctx depth type'
  | .var hdepth, hmixed => by
    cases hmixed
    exact .var hdepth
  | .con hdepth hname hargs, hmixed => by
    cases hmixed with
    | con hmixedName hmixedArgs =>
      exact .con hdepth (hmixedName.typeName_eq hctx hname) (hargs.of_between hctx hmixedArgs)
  | .arrow hdepth hparam hresult, hmixed => by
    cases hmixed with
    | arrow hmixedParam hmixedResult =>
      exact .arrow hdepth (hparam.of_between hctx hmixedParam)
        (hresult.of_between hctx hmixedResult)

theorem Ty.ResolvesList.of_between (hctx : ctx.DeclaresExports) {depth : Nat}
    {types types' mixed : List Ty} :
    Ty.ResolvesList ctx depth types types' → Listwise Ty.Between types types' mixed →
      Ty.ResolvesList ctx depth mixed types'
  | .nil, hmixed => by
    cases hmixed
    exact .nil
  | .cons htype hrest, hmixed => by
    cases hmixed with
    | cons head tail => exact .cons (htype.of_between hctx head) (hrest.of_between hctx tail)

end

theorem Pattern.Resolves.of_between (hctx : ctx.DeclaresExports) {env : List Name}
    {pattern pattern' mixed : Pattern} {b b' : Binders} (h : pattern.Resolves ctx env b pattern' b')
    (hmixed : pattern.Between pattern' mixed) : mixed.Resolves ctx env b pattern' b' := by
  cases h with
  | lit =>
    cases hmixed
    exact .lit
  | wildcard =>
    cases hmixed
    exact .wildcard
  | bind =>
    cases hmixed with
    | bind hname =>
      rw [← hname.ident_eq]
      exact .bind
  | variant htype =>
    cases hmixed with
    | variant hmixedType hmixedFields =>
      -- Each field is nested in those before it, so all of them have to become the same binders.
      obtain ⟨hfresh, hafter⟩ := hmixedFields.freshBinders_eq
      rw [← hfresh, ← hafter]
      exact .variant (hmixedType.typeName_eq hctx htype)

mutual

/-- **What is partly resolved is resolved to the same expression.** -/
theorem Expr.Resolves.of_between (hctx : ctx.DeclaresExports) {env : List Name} {depth : Nat}
    {e e' mixed : Expr} {b b' : Binders} :
    e.Resolves ctx env depth b e' b' → e.Between e' mixed → mixed.Resolves ctx env depth b e' b'
  | .lit hdepth, hmixed => by
    cases hmixed
    exact .lit hdepth
  | .var hdepth hname, hmixed => by
    cases hmixed with
    | var hmixedName => exact .var hdepth (hmixedName.variableAt_eq hctx hname)
  | .app hdepth hfunc harg, hmixed => by
    cases hmixed with
    | app hmixedFunc hmixedArg =>
      exact .app hdepth (hfunc.of_between hctx hmixedFunc) (harg.of_between hctx hmixedArg)
  | .lambda hdepth hbody, hmixed => by
    cases hmixed with
    | lambda hmixedParam hmixedBody =>
      -- The mixed binder becomes the same binder, so both bodies stand at the same place.
      have hbody := hbody.of_between hctx hmixedBody
      rw [← hmixedParam.ident_eq] at hbody ⊢
      exact .lambda hdepth hbody
  | .annot hdepth hexpr htype, hmixed => by
    cases hmixed with
    | annot hmixedExpr hmixedType =>
      exact .annot hdepth (hexpr.of_between hctx hmixedExpr) (htype.of_between hctx hmixedType)
  | .letIn hdepth hbound hbody, hmixed => by
    cases hmixed with
    | letIn hmixedBinder hmixedBound hmixedBody =>
      have hbody := hbody.of_between hctx hmixedBody
      rw [← hmixedBinder.ident_eq] at hbody ⊢
      exact .letIn hdepth (hbound.of_between hctx hmixedBound) hbody
  | .ifThenElse hdepth hcond hthen helse, hmixed => by
    cases hmixed with
    | ifThenElse hmixedCond hmixedThen hmixedElse =>
      exact .ifThenElse hdepth (hcond.of_between hctx hmixedCond)
        (hthen.of_between hctx hmixedThen) (helse.of_between hctx hmixedElse)
  | .matchWith hdepth hscrutinee harms, hmixed => by
    cases hmixed with
    | matchWith hmixedScrutinee hmixedArms =>
      exact .matchWith hdepth (hscrutinee.of_between hctx hmixedScrutinee)
        (harms.of_between hctx hmixedArms)

theorem Arm.Resolves.of_between (hctx : ctx.DeclaresExports) {env : List Name} {depth : Nat}
    {arm arm' mixed : Arm} {b b' : Binders} :
    arm.Resolves ctx env depth b arm' b' → arm.Between arm' mixed →
      mixed.Resolves ctx env depth b arm' b'
  | .mk hpattern hbody, hmixed => by
    cases hmixed with
    | mk hmixedPattern hmixedBody =>
      exact .mk (hpattern.of_between hctx hmixedPattern) (hbody.of_between hctx hmixedBody)

theorem Arm.ResolvesList.of_between (hctx : ctx.DeclaresExports) {env : List Name} {depth : Nat}
    {arms arms' mixed : List Arm} {b b' : Binders} :
    Arm.ResolvesList ctx env depth arms b arms' b' → Listwise Arm.Between arms arms' mixed →
      Arm.ResolvesList ctx env depth mixed b arms' b'
  | .nil, hmixed => by
    cases hmixed
    exact .nil
  | .cons harm hrest, hmixed => by
    cases hmixed with
    | cons head tail => exact .cons (harm.of_between hctx head) (hrest.of_between hctx tail)

end

theorem Constructor.Resolves.of_between (hctx : ctx.DeclaresExports)
    {ctor ctor' mixed : Constructor} (h : ctor.Resolves ctx ctor')
    (hmixed : ctor.Between ctor' mixed) : mixed.Resolves ctx ctor' := by
  obtain ⟨hfields⟩ := h
  obtain ⟨hmixedFields⟩ := hmixed
  exact .mk (hfields.of_between hctx hmixedFields)

theorem Decl.Resolves.of_between (hctx : ctx.DeclaresExports) {decl decl' mixed : Decl}
    {b b' : Binders} (h : decl.Resolves ctx b decl' b') (hmixed : decl.Between decl' mixed) :
    mixed.Resolves ctx b decl' b' := by
  cases h with
  | value hsignature hbody =>
    cases hmixed with
    | value hmixedBody =>
      exact .value .none (hbody.of_between hctx hmixedBody)
    | signed hmixedType hmixedBody =>
      cases hsignature with
      | some htype =>
        have htype := htype.of_between hctx hmixedType
        exact .value (.some htype) (hbody.of_between hctx hmixedBody)
  | data hctors =>
    cases hmixed with
    | data hmixedCtors =>
      refine .data (hmixedCtors.forall₂ hctors fun hmixed hctor => ?_)
      exact hctor.of_between hctx hmixed

/-- **Partly resolved declarations are resolved to the same declarations.** -/
theorem Decl.ResolvesList.of_between (hctx : ctx.DeclaresExports) {decls decls' mixed : List Decl}
    {b b' : Binders} (h : Decl.ResolvesList ctx decls b decls' b')
    (hmixed : Listwise Decl.Between decls decls' mixed) :
    Decl.ResolvesList ctx mixed b decls' b' := by
  induction h generalizing mixed with
  | nil =>
    cases hmixed
    exact .nil
  | cons hdecl _ ih =>
    cases hmixed with
    | cons head tail => exact .cons (hdecl.of_between hctx head) (ih tail)

end Mixed

/-! ### Replacing every name -/

section Replaced

theorem Name.between_right (name name' : Name) : name.Between name' name' :=
  Or.inr rfl

theorem Listwise.fields_between_right {owner : Namespace} {env : List Name} {b : Binders}
    (fields : List Name) :
    Listwise Name.Between fields (freshBinders owner env b fields)
      (freshBinders owner env b fields) := by
  induction fields generalizing env b with
  | nil => exact .nil
  | cons field rest ih => exact .cons (Name.between_right _ _) ih

mutual

theorem Ty.Resolves.between_right {ctx : Context} {depth : Nat} {type type' : Ty} :
    type.Resolves ctx depth type' → type.Between type' type'
  | .var _ => .var
  | .con _ _ hargs => .con (Name.between_right _ _) hargs.between_right
  | .arrow _ hparam hresult => .arrow hparam.between_right hresult.between_right

theorem Ty.ResolvesList.between_right {ctx : Context} {depth : Nat} {types types' : List Ty} :
    Ty.ResolvesList ctx depth types types' → Listwise Ty.Between types types' types'
  | .nil => .nil
  | .cons htype hrest => .cons htype.between_right hrest.between_right

end

theorem Pattern.Resolves.between_right {ctx : Context} {env : List Name}
    {pattern pattern' : Pattern} {b b' : Binders} :
    pattern.Resolves ctx env b pattern' b' → pattern.Between pattern' pattern'
  | .lit => .lit
  | .wildcard => .wildcard
  | .bind => .bind (Name.between_right _ _)
  | .variant _ => .variant (Name.between_right _ _) (Listwise.fields_between_right _)

mutual

theorem Expr.Resolves.between_right {ctx : Context} {env : List Name} {depth : Nat} {e e' : Expr}
    {b b' : Binders} : e.Resolves ctx env depth b e' b' → e.Between e' e'
  | .lit _ => .lit
  | .var _ _ => .var (Name.between_right _ _)
  | .app _ hfunc harg => .app hfunc.between_right harg.between_right
  | .lambda _ hbody => .lambda (Name.between_right _ _) hbody.between_right
  | .annot _ hexpr htype => .annot hexpr.between_right htype.between_right
  | .letIn _ hbound hbody =>
    .letIn (Name.between_right _ _) hbound.between_right hbody.between_right
  | .ifThenElse _ hcond hthen helse =>
    .ifThenElse hcond.between_right hthen.between_right helse.between_right
  | .matchWith _ hscrutinee harms => .matchWith hscrutinee.between_right harms.between_right

theorem Arm.Resolves.between_right {ctx : Context} {env : List Name} {depth : Nat}
    {arm arm' : Arm} {b b' : Binders} :
    arm.Resolves ctx env depth b arm' b' → arm.Between arm' arm'
  | .mk hpattern hbody => .mk hpattern.between_right hbody.between_right

theorem Arm.ResolvesList.between_right {ctx : Context} {env : List Name} {depth : Nat}
    {arms arms' : List Arm} {b b' : Binders} :
    Arm.ResolvesList ctx env depth arms b arms' b' → Listwise Arm.Between arms arms' arms'
  | .nil => .nil
  | .cons harm hrest => .cons harm.between_right hrest.between_right

end

variable {ctx : Context} {b b' : Binders}

theorem Constructor.Resolves.between_right {ctor ctor' : Constructor} :
    ctor.Resolves ctx ctor' → ctor.Between ctor' ctor'
  | .mk hfields => .mk hfields.between_right

theorem Decl.Resolves.between_right {decl decl' : Decl} :
    decl.Resolves ctx b decl' b' → decl.Between decl' decl'
  | .value .none hbody => .value hbody.between_right
  | .value (.some htype) hbody => .signed htype.between_right hbody.between_right
  | .data hctors => .data (.of_forall₂ hctors fun hctor => hctor.between_right)

/-- Resolved declarations are the given ones with every name replaced. -/
theorem Decl.ResolvesList.between_right {decls decls' : List Decl}
    (h : Decl.ResolvesList ctx decls b decls' b') : Listwise Decl.Between decls decls' decls' := by
  induction h with
  | nil => exact .nil
  | cons hdecl _ ih => exact .cons hdecl.between_right ih

end Replaced

end NameResolution
