import NameResolution.Proofs.Pointwise
import NameResolution.Proofs.Scope.Derivation
import NameResolution.Proofs.Scope.Meaning

/-!
# Syntax without qualifiers

`Module.bare` takes away the namespaces of those names that are resolved: of variables, of binders
and of the names of types.  What is left is the shape of the module with all its ids, identifiers,
labels and literals.  Resolving keeps it (`Decl.ResolvesList.bare_eq`), so nothing but namespaces of
names can change.
-/

namespace NameResolution

/-! ### Taking qualifiers away -/

/-- The identifier of a name. -/
def Name.bare (name : Name) : Name := .unqualified name.ident

mutual

/-- A type without the qualifiers of names of types. -/
def Ty.bare : Ty → Ty
  | .var id ident => .var id ident
  | .con id name args => .con id name.bare (Ty.listBare args)
  | .arrow id param result => .arrow id param.bare result.bare

/-- Types without qualifiers. -/
def Ty.listBare : List Ty → List Ty
  | [] => []
  | type :: rest => type.bare :: Ty.listBare rest

end

/-- A pattern without the qualifiers of its binders and of its type. -/
def Pattern.bare : Pattern → Pattern
  | .lit id value => .lit id value
  | .bind id name => .bind id name.bare
  | .wildcard id => .wildcard id
  | .variant id type ctor fields => .variant id type.bare ctor (fields.map Name.bare)

mutual

/-- An expression without the qualifiers of variables, binders and names of types. -/
def Expr.bare : Expr → Expr
  | .lit id value => .lit id value
  | .var id name => .var id name.bare
  | .app id func arg => .app id func.bare arg.bare
  | .lambda id param body => .lambda id param.bare body.bare
  | .annot id expr type => .annot id expr.bare type.bare
  | .letIn id binder bound body => .letIn id binder.bare bound.bare body.bare
  | .ifThenElse id cond thenBranch elseBranch =>
    .ifThenElse id cond.bare thenBranch.bare elseBranch.bare
  | .matchWith id scrutinee arms => .matchWith id scrutinee.bare (Arm.listBare arms)

/-- An arm without qualifiers. -/
def Arm.bare : Arm → Arm
  | ⟨pattern, body⟩ => ⟨pattern.bare, body.bare⟩

/-- Arms without qualifiers. -/
def Arm.listBare : List Arm → List Arm
  | [] => []
  | arm :: rest => arm.bare :: Arm.listBare rest

end

/-- A constructor without the qualifiers in its fields. -/
def Constructor.bare (ctor : Constructor) : Constructor :=
  { ctor with fields := Ty.listBare ctor.fields }

/-- A declaration without qualifiers. -/
def Decl.bare : Decl → Decl
  | .value id ident signature body => .value id ident (signature.map Ty.bare) body.bare
  | .data id ident params ctors => .data id ident params (ctors.map Constructor.bare)

/-- A module without the qualifiers in its declarations.  Its header stays. -/
def Module.bare (m : Module) : Module := { m with decls := m.decls.map Decl.bare }

/-- A program without the qualifiers in its declarations. -/
def Program.bare (p : Program) : Program := ⟨p.modules.map Module.bare⟩

/-! ### Resolving names keeps their identifiers -/

theorem Name.bare_eq {name name' : Name} (h : name'.ident = name.ident) : name'.bare = name.bare := by
  rw [bare, bare, h]

theorem bare_freshBinder (owner : Namespace) (env : List Name) (b : Binders)
    (name : Name) : (freshBinder owner env b name.ident).bare = name.bare :=
  rfl

theorem map_bare_freshBinders (owner : Namespace) (env : List Name) (b : Binders)
    (fields : List Name) :
    (freshBinders owner env b fields).map Name.bare = fields.map Name.bare := by
  induction fields generalizing env b with
  | nil => rfl
  | cons field rest ih =>
    rw [freshBinders, List.map_cons, List.map_cons, ih, bare_freshBinder]

theorem Context.bare_of_typeName {ctx : Context} {node : NodeId} {name name' : Name}
    (h : ctx.typeName node name = .ok name') : name'.bare = name.bare :=
  Name.bare_eq (typeName_eq_ok h).1

theorem Context.bare_of_variableAt {ctx : Context} {b : Binders} {lexical : Namespace}
    {node : NodeId} {name name' : Name} (h : ctx.variableAt b lexical node name = .ok name') :
    name'.bare = name.bare :=
  Name.bare_eq (variableAt_eq_ok h).1

/-! ### Resolving syntax keeps all but qualifiers -/

mutual

theorem Ty.Resolves.bare_eq {ctx : Context} {depth : Nat} {type type' : Ty} :
    type.Resolves ctx depth type' → type'.bare = type.bare
  | .var _ => rfl
  | .con _ hname hargs => by
    rw [Ty.bare, Ty.bare, Context.bare_of_typeName hname, hargs.bare_eq]
  | .arrow _ hparam hresult => by rw [Ty.bare, Ty.bare, hparam.bare_eq, hresult.bare_eq]

theorem Ty.ResolvesList.bare_eq {ctx : Context} {depth : Nat} {types types' : List Ty} :
    Ty.ResolvesList ctx depth types types' → Ty.listBare types' = Ty.listBare types
  | .nil => rfl
  | .cons htype hrest => by rw [Ty.listBare, Ty.listBare, htype.bare_eq, hrest.bare_eq]

end

theorem Pattern.Resolves.bare_eq {ctx : Context} {env : List Name} {pattern pattern' : Pattern}
    {b b' : Binders} (h : pattern.Resolves ctx env b pattern' b') :
    pattern'.bare = pattern.bare := by
  cases h with
  | lit => rfl
  | wildcard => rfl
  | bind => rw [bare, bare, bare_freshBinder]
  | variant htype => rw [bare, bare, Context.bare_of_typeName htype, map_bare_freshBinders]

mutual

theorem Expr.Resolves.bare_eq {ctx : Context} {env : List Name} {depth : Nat} {e e' : Expr}
    {b b' : Binders} : e.Resolves ctx env depth b e' b' → e'.bare = e.bare
  | .lit _ => rfl
  | .var _ hname => by rw [Expr.bare, Expr.bare, Context.bare_of_variableAt hname]
  | .app _ hfunc harg => by rw [Expr.bare, Expr.bare, hfunc.bare_eq, harg.bare_eq]
  | .lambda _ hbody => by rw [Expr.bare, Expr.bare, bare_freshBinder, hbody.bare_eq]
  | .annot _ hexpr htype => by rw [Expr.bare, Expr.bare, hexpr.bare_eq, htype.bare_eq]
  | .letIn _ hbound hbody => by
    rw [Expr.bare, Expr.bare, bare_freshBinder, hbound.bare_eq, hbody.bare_eq]
  | .ifThenElse _ hcond hthen helse => by
    rw [Expr.bare, Expr.bare, hcond.bare_eq, hthen.bare_eq, helse.bare_eq]
  | .matchWith _ hscrutinee harms => by
    rw [Expr.bare, Expr.bare, hscrutinee.bare_eq, harms.bare_eq]

theorem Arm.Resolves.bare_eq {ctx : Context} {env : List Name} {depth : Nat} {arm arm' : Arm}
    {b b' : Binders} : arm.Resolves ctx env depth b arm' b' → arm'.bare = arm.bare
  | .mk hpattern hbody => by rw [Arm.bare, Arm.bare, hpattern.bare_eq, hbody.bare_eq]

theorem Arm.ResolvesList.bare_eq {ctx : Context} {env : List Name} {depth : Nat}
    {arms arms' : List Arm} {b b' : Binders} :
    Arm.ResolvesList ctx env depth arms b arms' b' → Arm.listBare arms' = Arm.listBare arms
  | .nil => rfl
  | .cons harm hrest => by rw [Arm.listBare, Arm.listBare, harm.bare_eq, hrest.bare_eq]

end

variable {ctx : Context} {b b' : Binders}

theorem Constructor.Resolves.bare_eq {ctor ctor' : Constructor} (h : ctor.Resolves ctx ctor') :
    ctor'.bare = ctor.bare := by
  obtain ⟨hfields⟩ := h
  rw [bare, bare, hfields.bare_eq]

theorem Decl.Resolves.bare_eq {decl decl' : Decl} (h : decl.Resolves ctx b decl' b') :
    decl'.bare = decl.bare := by
  cases h with
  | value hsignature hbody =>
    cases hsignature with
    | none => rw [bare, bare, hbody.bare_eq]
    | some htype => rw [bare, bare, hbody.bare_eq, Option.map_some, Option.map_some, htype.bare_eq]
  | data hctors => rw [bare, bare, map_eq_of_forall₂ hctors Constructor.Resolves.bare_eq]

/-- **Resolving declarations changes no more than qualifiers.** -/
theorem Decl.ResolvesList.bare_eq {decls decls' : List Decl}
    (h : Decl.ResolvesList ctx decls b decls' b') : decls'.map Decl.bare = decls.map Decl.bare := by
  induction h with
  | nil => rfl
  | cons hdecl _ ih => rw [List.map_cons, List.map_cons, hdecl.bare_eq, ih]

end NameResolution
