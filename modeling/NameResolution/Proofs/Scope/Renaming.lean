import NameResolution.Proofs.Pointwise
import NameResolution.Proofs.Scope.Derivation
import NameResolution.Proofs.Scope.Meaning

/-!
# Renaming a binder

A `Renaming` takes the binder with a given name in resolved syntax to another identifier.  To rename
it in syntax that has not been resolved, one has to know what each name is resolved to:
`e.renameAlong r e'` goes through `e` together with the resolved `e'`, and puts in the new
identifier where the binder or a variable that means it stands in `e'`.

If the new identifier is not in use, then resolving respects the renaming
(`Decl.ResolvesList.rename`).  The simulation carries the binders that have been met along: those of
the renamed expression are those of the given one, renamed.  Neither does an occurrence of the
binder meet another binder or a declaration first (`Context.variableAt_rename_self`), nor does
anything else meet the renamed binder (`Context.variableAt_rename_of_ne`).
-/

namespace NameResolution

/-! ### Renaming -/

/-- A binder, by its name in resolved syntax, and the identifier that it is to have. -/
structure Renaming where
  binder : Name
  ident : String

/-- A name that is resolved to `name'`, renamed. -/
def Name.renameAlong (r : Renaming) (name name' : Name) : Name :=
  if name' = r.binder then { name with ident := r.ident } else name

/-- A resolved name, renamed. -/
def Name.rename (r : Renaming) (name : Name) : Name := name.renameAlong r name

/-- A pattern that is resolved to the second one, renamed. -/
def Pattern.renameAlong (r : Renaming) : Pattern → Pattern → Pattern
  | .bind id name, .bind _ name' => .bind id (name.renameAlong r name')
  | .variant id type ctor fields, .variant _ _ _ fields' =>
    .variant id type ctor (alongside (Name.renameAlong r) fields fields')
  | pattern, _ => pattern

mutual

/-- An expression that is resolved to the second one, renamed. -/
def Expr.renameAlong (r : Renaming) : Expr → Expr → Expr
  | .var id name, .var _ name' => .var id (name.renameAlong r name')
  | .app id func arg, .app _ func' arg' =>
    .app id (func.renameAlong r func') (arg.renameAlong r arg')
  | .lambda id param body, .lambda _ param' body' =>
    .lambda id (param.renameAlong r param') (body.renameAlong r body')
  | .annot id expr type, .annot _ expr' _ => .annot id (expr.renameAlong r expr') type
  | .letIn id binder bound body, .letIn _ binder' bound' body' =>
    .letIn id (binder.renameAlong r binder') (bound.renameAlong r bound') (body.renameAlong r body')
  | .ifThenElse id cond thenBranch elseBranch, .ifThenElse _ cond' thenBranch' elseBranch' =>
    .ifThenElse id (cond.renameAlong r cond') (thenBranch.renameAlong r thenBranch')
      (elseBranch.renameAlong r elseBranch')
  | .matchWith id scrutinee arms, .matchWith _ scrutinee' arms' =>
    .matchWith id (scrutinee.renameAlong r scrutinee') (Arm.listRenameAlong r arms arms')
  | e, _ => e

/-- An arm that is resolved to the second one, renamed. -/
def Arm.renameAlong (r : Renaming) : Arm → Arm → Arm
  | ⟨pattern, body⟩, ⟨pattern', body'⟩ =>
    ⟨pattern.renameAlong r pattern', body.renameAlong r body'⟩

/-- Arms that are resolved to the second ones, renamed. -/
def Arm.listRenameAlong (r : Renaming) : List Arm → List Arm → List Arm
  | arm :: rest, arm' :: rest' => arm.renameAlong r arm' :: Arm.listRenameAlong r rest rest'
  | arms, _ => arms

end

/-- A declaration that is resolved to the second one, renamed.  Types have no binders. -/
def Decl.renameAlong (r : Renaming) : Decl → Decl → Decl
  | .value id ident signature body, .value _ _ _ body' =>
    .value id ident signature (body.renameAlong r body')
  | decl, _ => decl

theorem Decl.ident_renameAlong (r : Renaming) (decl decl' : Decl) :
    (decl.renameAlong r decl').ident = decl.ident := by
  cases decl with
  | value id ident signature body =>
    cases decl' with
    | value id' ident' signature' body' => rfl
    | data id' ident' params' ctors' => rfl
  | data id ident params ctors => rfl

/-- A module that is resolved to the second one, renamed if it is the module `owner`. -/
def Module.renameAlong (owner : Namespace) (r : Renaming) (m m' : Module) : Module :=
  if m.ns = owner then { m with decls := alongside (Decl.renameAlong r) m.decls m'.decls } else m

/-- A program that is analyzed to the second one, with the module `owner` renamed. -/
def Program.renameAlong (owner : Namespace) (r : Renaming) (p q : Program) : Program :=
  ⟨alongside (Module.renameAlong owner r) p.modules q.modules⟩

/-! ### Identifiers in use -/

mutual

/-- The identifiers of the binders and variables of an expression. -/
def Expr.idents : Expr → List String
  | .lit .. => []
  | .var _ name => [name.ident]
  | .app _ func arg => func.idents ++ arg.idents
  | .lambda _ param body => param.ident :: body.idents
  | .annot _ expr _ => expr.idents
  | .letIn _ binder bound body => binder.ident :: (bound.idents ++ body.idents)
  | .ifThenElse _ cond thenBranch elseBranch =>
    cond.idents ++ (thenBranch.idents ++ elseBranch.idents)
  | .matchWith _ scrutinee arms => scrutinee.idents ++ Arm.listIdents arms

/-- The identifiers of the binders and variables of an arm. -/
def Arm.idents : Arm → List String
  | ⟨pattern, body⟩ => pattern.binders.map Name.ident ++ body.idents

/-- The identifiers of the binders and variables of a list of arms. -/
def Arm.listIdents : List Arm → List String
  | [] => []
  | arm :: rest => arm.idents ++ Arm.listIdents rest

end

theorem Arm.listIdents_eq_flatMap (arms : List Arm) :
    Arm.listIdents arms = arms.flatMap Arm.idents := by
  induction arms with
  | nil => rfl
  | cons arm rest ih => rw [Arm.listIdents, List.flatMap_cons, ih]

/-- The identifiers of the binders and variables of a declaration. -/
def Decl.idents : Decl → List String
  | .value _ _ _ body => body.idents
  | .data .. => []

/-- The identifiers of the binders and variables of a module. -/
def Module.idents (m : Module) : List String := m.decls.flatMap Decl.idents

/-! ### Renamed binders -/

/-- Binders that have been met, renamed. -/
def Binders.rename (r : Renaming) (b : Binders) : Binders := ⟨b.names.map (Name.rename r), b.count⟩

section Binders

variable {r : Renaming} {owner lexical : Namespace} {env : List Name} {b : Binders}

@[simp] theorem Name.rename_binder (r : Renaming) :
    r.binder.rename r = { r.binder with ident := r.ident } :=
  if_pos rfl

theorem Name.rename_of_ne {name : Name} (h : name ≠ r.binder) : name.rename r = name :=
  if_neg h

@[simp] theorem Name.qualifier_rename (r : Renaming) (name : Name) :
    (name.rename r).qualifier = name.qualifier := by
  rw [rename, renameAlong]
  split_ifs <;> rfl

/-- Renaming opens no other scopes. -/
theorem innermost_map_rename : innermost owner (env.map (Name.rename r)) = innermost owner env := by
  cases env with
  | nil => rfl
  | cons binder rest => exact Name.qualifier_rename r binder

/-- A renamed binder becomes what the binder becomes, renamed. -/
theorem freshBinder_rename (name : Name) :
    freshBinder owner (env.map (Name.rename r)) (b.rename r)
        (name.renameAlong r (freshBinder owner env b name.ident)).ident =
      (freshBinder owner env b name.ident).rename r := by
  rw [Name.rename, Name.renameAlong, Name.renameAlong, freshBinder, freshBinder,
    innermost_map_rename]
  split_ifs
  · rfl
  · rfl

/-- The binders met are then those that have been met before, renamed. -/
theorem afterBinder_rename (name : Name) :
    afterBinder owner (env.map (Name.rename r)) (b.rename r)
        (name.renameAlong r (freshBinder owner env b name.ident)).ident =
      (afterBinder owner env b name.ident).rename r := by
  have hname := @freshBinder_rename r owner env b name
  show Binders.mk (freshBinder owner _ (b.rename r) _ :: (b.rename r).names) _ =
    Binders.mk ((freshBinder owner env b name.ident).rename r :: (b.rename r).names) _
  rw [hname]
  rfl

/-- Renamed fields become what the fields become, renamed. -/
theorem freshBinders_rename (fields : List Name) :
    freshBinders owner (env.map (Name.rename r)) (b.rename r)
        (alongside (Name.renameAlong r) fields (freshBinders owner env b fields)) =
      (freshBinders owner env b fields).map (Name.rename r) ∧
    afterBinders owner (env.map (Name.rename r)) (b.rename r)
        (alongside (Name.renameAlong r) fields (freshBinders owner env b fields)) =
      (afterBinders owner env b fields).rename r := by
  induction fields generalizing env b with
  | nil => exact ⟨rfl, rfl⟩
  | cons field rest ih =>
    -- The other fields stand inside this one, renamed.
    obtain ⟨hfresh, hafter⟩ :=
      @ih (freshBinder owner env b field.ident :: env) (afterBinder owner env b field.ident)
    rw [List.map_cons] at hfresh hafter
    rw [freshBinders, alongside, freshBinders, afterBinders, afterBinders, freshBinder_rename,
      afterBinder_rename, hfresh, hafter, List.map_cons]
    exact ⟨rfl, rfl⟩

/-! ### What is found among renamed binders -/

/-- No binder has the new identifier. -/
def Renaming.NewTo (r : Renaming) (b : Binders) : Prop := ∀ n ∈ b.names, n.ident ≠ r.ident

namespace Renaming.NewTo

theorem empty (r : Renaming) : r.NewTo .empty := fun _ hn => absurd hn List.not_mem_nil

/-- It stays new behind a binder that has been given another identifier. -/
theorem bind (hb : r.NewTo b) {ident : String} (hident : r.ident ≠ ident) :
    r.NewTo (afterBinder owner env b ident) :=
  List.forall_mem_cons.mpr ⟨Ne.symm hident, hb⟩

end Renaming.NewTo

/-- A name with an identifier other than the new one has been met after the renaming if it has been
met before and is not the binder. -/
theorem mem_names_rename_iff {name : Name} (hident : name.ident ≠ r.ident) :
    name ∈ (b.rename r).names ↔ name ∈ b.names ∧ name ≠ r.binder := by
  rw [Binders.rename, List.mem_map]
  constructor
  · rintro ⟨n, hn, rfl⟩
    by_cases hbinder : n = r.binder
    · rw [hbinder, Name.rename_binder] at hident
      exact absurd rfl hident
    · rw [Name.rename_of_ne hbinder]
      exact ⟨hn, hbinder⟩
  · rintro ⟨hmem, hne⟩
    exact ⟨name, hmem, Name.rename_of_ne hne⟩

/-- What has the new identifier after the renaming is the binder. -/
theorem eq_of_mem_names_rename (hb : r.NewTo b) {name : Name} (hident : name.ident = r.ident)
    (hmem : name ∈ (b.rename r).names) : name = r.binder.rename r := by
  obtain ⟨n, hn, rfl⟩ := List.mem_map.mp hmem
  by_cases hbinder : n = r.binder
  · rw [hbinder]
  · rw [Name.rename_of_ne hbinder] at hident
    exact absurd hident (hb n hn)

theorem isVisible_rename_self (h : b.isVisible r.binder lexical = true) :
    (b.rename r).isVisible (r.binder.rename r) lexical = true := by
  obtain ⟨hmem, hencloses⟩ := Binders.isVisible_iff.mp h
  refine Binders.isVisible_iff.mpr ⟨List.mem_map_of_mem hmem, ?_⟩
  rw [Name.qualifier_rename]
  exact hencloses

theorem isVisible_rename_of_ne {name : Name} (hident : name.ident ≠ r.ident)
    (hne : name ≠ r.binder) :
    (b.rename r).isVisible name lexical = b.isVisible name lexical := by
  rw [Bool.eq_iff_iff, Binders.isVisible_iff, Binders.isVisible_iff, mem_names_rename_iff hident,
    and_iff_left hne]

/-- If the binder is found under its identifier, then it is found under the new one. -/
theorem lookup_rename_self (hb : r.NewTo b)
    (h : b.lookup lexical owner r.binder.ident = some r.binder) :
    (b.rename r).lookup lexical owner r.ident = some (r.binder.rename r) := by
  -- The scope of the binder is on the way outward, and nothing else there has the new identifier.
  obtain ⟨ns, hns, hname⟩ := List.mem_map.mp (List.mem_of_find?_eq_some h)
  have hqualifier : ns = r.binder.qualifier := congrArg Name.qualifier hname
  have hbound : r.binder ∈ b.names := List.contains_iff_mem.mp (List.find?_some h)
  have hrenamed : ns.name r.ident = r.binder.rename r := by
    rw [Name.rename_binder, hqualifier]
    rfl
  rw [Binders.lookup]
  cases hfound : List.find? _ _ with
  | none =>
    have hnone := List.find?_eq_none.mp hfound (ns.name r.ident) (List.mem_map_of_mem hns)
    rw [hrenamed, List.contains_iff_mem] at hnone
    exact absurd (List.mem_map_of_mem hbound) hnone
  | some name =>
    obtain ⟨ns', -, rfl⟩ := List.mem_map.mp (List.mem_of_find?_eq_some hfound)
    have hmem := List.contains_iff_mem.mp (List.find?_some hfound)
    rw [eq_of_mem_names_rename hb rfl hmem]

/-- Of names with other identifiers the same one is met first, unless it is the binder. -/
theorem find?_names_rename {way : List Name} (hway : ∀ name ∈ way, name.ident ≠ r.ident)
    (h : way.find? b.names.contains ≠ some r.binder) :
    way.find? (b.rename r).names.contains = way.find? b.names.contains := by
  induction way with
  | nil => rfl
  | cons name rest ih =>
    obtain ⟨hname, hrest⟩ := List.forall_mem_cons.mp hway
    rw [List.find?_cons] at h
    rw [List.find?_cons, List.find?_cons]
    have hmet := @mem_names_rename_iff r b name hname
    rw [← List.contains_iff_mem, ← List.contains_iff_mem] at hmet
    cases hcontains : b.names.contains name with
    | true =>
      rw [hcontains] at h
      have hne : name ≠ r.binder := fun hbinder => h (congrArg some hbinder)
      rw [hmet.mpr ⟨hcontains, hne⟩]
    | false =>
      rw [hcontains] at h
      -- Renaming makes no name of another identifier.
      have hrenamed : (b.rename r).names.contains name = false := by
        rw [Bool.eq_false_iff]
        intro htrue
        rw [(hmet.mp htrue).1] at hcontains
        cases hcontains
      rw [hrenamed]
      exact ih hrest h

/-- Other identifiers are found where they have been, unless at the binder. -/
theorem lookup_rename_of_ne {ident : String} (hident : ident ≠ r.ident)
    (h : b.lookup lexical owner ident ≠ some r.binder) :
    (b.rename r).lookup lexical owner ident = b.lookup lexical owner ident := by
  -- All names that are tried on the way outward have the identifier that is looked up.
  refine find?_names_rename (fun name hname => ?_) h
  obtain ⟨ns, -, rfl⟩ := List.mem_map.mp hname
  exact hident

end Binders

/-! ### Renamed variables -/

/-- The binder is local to the module, and the module does not declare the new identifier. -/
structure Renaming.Fits (r : Renaming) (ctx : Context) : Prop where
  not_gives : ¬ctx.Gives r.binder
  not_declared : ctx.interfaces.hasDecl ctx.owner r.ident = false

namespace Context

variable {r : Renaming} {ctx : Context} {b : Binders} {lexical : Namespace} {node : NodeId}
  {name name' : Name}

/-- What means the binder, means the renamed binder once it is renamed itself. -/
theorem variableAt_rename_self (hr : r.Fits ctx) (hb : r.NewTo b)
    (h : ctx.variableAt b lexical node name = .ok r.binder) :
    ctx.variableAt (b.rename r) lexical node { name with ident := r.ident } =
      .ok (r.binder.rename r) := by
  obtain ⟨hident, hkept, hmeaning⟩ := variableAt_eq_ok h
  have hvisible := hmeaning.resolve_right hr.not_gives
  by_cases hqualified : name.isQualified = true
  · -- The name is that of the binder, so it is still found among the binders.
    have hname := hkept hqualified
    subst hname
    have hrenamed : (r.binder.rename r).isQualified = true := by
      rw [Name.rename_binder]
      exact hqualified
    rw [← Name.rename_binder, variableAt, if_pos hrenamed, if_pos (isVisible_rename_self hvisible)]
  · have hrenamed : ¬Name.isQualified { name with ident := r.ident } = true := hqualified
    have hdecl : ¬ctx.interfaces.hasDecl ctx.owner r.ident = true := by
      rw [hr.not_declared]
      exact Bool.false_ne_true
    have hlookup : b.lookup lexical ctx.owner r.binder.ident = some r.binder :=
      hident ▸ lookup_of_variableAt hqualified hr.not_gives h
    rw [variableAt, if_neg hrenamed, if_neg hdecl, lookup_rename_self hb hlookup]

/-- What means something else, still means that. -/
theorem variableAt_rename_of_ne (hname : name.ident ≠ r.ident) (hne : name' ≠ r.binder)
    (h : ctx.variableAt b lexical node name = .ok name') :
    ctx.variableAt (b.rename r) lexical node name = .ok name' := by
  have hkept := (variableAt_eq_ok h).2.1
  unfold variableAt at h ⊢
  by_cases hqualified : name.isQualified = true
  · rw [if_pos hqualified] at h ⊢
    have hbinder : name ≠ r.binder := hkept hqualified ▸ hne
    rw [isVisible_rename_of_ne hname hbinder]
    exact h
  · rw [if_neg hqualified] at h ⊢
    split_ifs at h ⊢ with hdecl
    · exact h
    · have hlookup : b.lookup lexical ctx.owner name.ident ≠ some r.binder := by
        intro hlookup
        rw [hlookup] at h
        exact hne (Except.ok.inj h).symm
      rw [lookup_rename_of_ne hname hlookup]
      exact h

/-- **The meaning of a renamed variable is the meaning, renamed.** -/
theorem variableAt_rename (hr : r.Fits ctx) (hb : r.NewTo b) (hname : name.ident ≠ r.ident)
    (h : ctx.variableAt b lexical node name = .ok name') :
    ctx.variableAt (b.rename r) lexical node (name.renameAlong r name') =
      .ok (name'.rename r) := by
  rw [Name.renameAlong]
  split_ifs with hbinder
  · subst hbinder
    exact variableAt_rename_self hr hb h
  · rw [Name.rename_of_ne hbinder]
    exact variableAt_rename_of_ne hname hbinder h

end Context

/-! ### Renamed derivations -/

section Derivations

variable {r : Renaming} {ctx : Context} {env : List Name} {b b' : Binders}

/-- A pattern keeps its type, and its binders are met renamed. -/
theorem Pattern.Resolves.rename {pattern pattern' : Pattern}
    (h : pattern.Resolves ctx env b pattern' b') :
    (pattern.renameAlong r pattern').Resolves ctx (env.map (Name.rename r)) (b.rename r)
      (pattern'.renameAlong r pattern') (b'.rename r) := by
  cases h with
  | lit => exact .lit
  | wildcard => exact .wildcard
  | @bind id name b =>
    show Pattern.Resolves ctx _ (.bind id _) _ (.bind id (Name.rename r _)) _
    rw [← freshBinder_rename, ← afterBinder_rename]
    exact .bind
  | @variant id type type' ctor fields b htype =>
    obtain ⟨hfresh, hafter⟩ := @freshBinders_rename r ctx.owner env b fields
    rw [Pattern.renameAlong, Pattern.renameAlong, alongside_self]
    show Pattern.Resolves ctx _ _ _ (.variant id type' ctor (List.map (Name.rename r) _)) _
    rw [← hfresh, ← hafter]
    exact .variant htype

/-- The binders behind a renamed pattern are those behind the pattern, renamed. -/
theorem Pattern.extend_renameAlong_self (pattern : Pattern) :
    (pattern.renameAlong r pattern).extend (env.map (Name.rename r)) =
      (pattern.extend env).map (Name.rename r) := by
  have hbinders :
      (pattern.renameAlong r pattern).binders = pattern.binders.map (Name.rename r) := by
    cases pattern with
    | lit id value => rfl
    | wildcard id => rfl
    | bind id name => rfl
    | variant id type ctor fields => exact alongside_self fields
  rw [extend, extend, hbinders, List.map_append, List.map_reverse]

/-- The new identifier stays new behind fields that do not bind it. -/
theorem Renaming.NewTo.bindFields {owner : Namespace} (hb : r.NewTo b) {fields : List Name}
    (hfresh : r.ident ∉ fields.map Name.ident) : r.NewTo (afterBinders owner env b fields) := by
  induction fields generalizing env b with
  | nil => exact hb
  | cons field rest ih =>
    rw [List.map_cons, List.mem_cons, not_or] at hfresh
    exact ih (hb.bind hfresh.1) hfresh.2

/-- The new identifier stays new behind a pattern that does not bind it. -/
theorem Renaming.NewTo.pattern (hb : r.NewTo b) {pattern pattern' : Pattern}
    (hpattern : pattern.Resolves ctx env b pattern' b')
    (hfresh : r.ident ∉ pattern.binders.map Name.ident) : r.NewTo b' := by
  cases hpattern with
  | lit => exact hb
  | wildcard => exact hb
  | bind => exact hb.bind fun hident => hfresh (List.mem_singleton.mpr hident)
  | variant htype => exact hb.bindFields hfresh

mutual

/-- **A renamed expression is resolved to the resolved one, renamed**, and the new identifier is
still new behind it. -/
theorem Expr.Resolves.rename {r : Renaming} {ctx : Context} (hr : r.Fits ctx) {env : List Name}
    {depth : Nat} {e e' : Expr} {b b' : Binders} (hb : r.NewTo b) :
    e.Resolves ctx env depth b e' b' → r.ident ∉ e.idents →
      (e.renameAlong r e').Resolves ctx (env.map (Name.rename r)) depth (b.rename r)
        (e'.renameAlong r e') (b'.rename r) ∧ r.NewTo b'
  | .lit hdepth, _ => ⟨.lit hdepth, hb⟩
  | .var hdepth hname, hfresh => by
    rw [Expr.idents, List.mem_singleton] at hfresh
    rw [← @innermost_map_rename r] at hname
    exact ⟨.var hdepth (Context.variableAt_rename hr hb (Ne.symm hfresh) hname), hb⟩
  | .app hdepth hfunc harg, hfresh => by
    rw [Expr.idents, List.mem_append, not_or] at hfresh
    obtain ⟨hfunc, hb⟩ := hfunc.rename hr hb hfresh.1
    obtain ⟨harg, hb⟩ := harg.rename hr hb hfresh.2
    exact ⟨.app hdepth hfunc harg, hb⟩
  | .lambda hdepth hbody, hfresh => by
    rw [Expr.idents, List.mem_cons, not_or] at hfresh
    obtain ⟨hbody, hb⟩ := hbody.rename hr (hb.bind hfresh.1) hfresh.2
    -- The renamed binder is numbered as the binder was, so the body stands inside it.
    rw [List.map_cons, ← freshBinder_rename, ← afterBinder_rename] at hbody
    rw [Expr.renameAlong, Expr.renameAlong, ← Name.rename, ← freshBinder_rename]
    exact ⟨.lambda hdepth hbody, hb⟩
  | .annot hdepth hexpr htype, hfresh => by
    rw [Expr.idents] at hfresh
    obtain ⟨hexpr, hb⟩ := hexpr.rename hr hb hfresh
    exact ⟨.annot hdepth hexpr htype, hb⟩
  | .letIn hdepth hbound hbody, hfresh => by
    rw [Expr.idents, List.mem_cons, List.mem_append, not_or, not_or] at hfresh
    obtain ⟨hbound, hb⟩ := hbound.rename hr hb hfresh.2.1
    obtain ⟨hbody, hb⟩ := hbody.rename hr (hb.bind hfresh.1) hfresh.2.2
    rw [List.map_cons, ← freshBinder_rename, ← afterBinder_rename] at hbody
    rw [Expr.renameAlong, Expr.renameAlong, ← Name.rename, ← freshBinder_rename]
    exact ⟨.letIn hdepth hbound hbody, hb⟩
  | .ifThenElse hdepth hcond hthen helse, hfresh => by
    rw [Expr.idents, List.mem_append, List.mem_append, not_or, not_or] at hfresh
    obtain ⟨hcond, hb⟩ := hcond.rename hr hb hfresh.1
    obtain ⟨hthen, hb⟩ := hthen.rename hr hb hfresh.2.1
    obtain ⟨helse, hb⟩ := helse.rename hr hb hfresh.2.2
    exact ⟨.ifThenElse hdepth hcond hthen helse, hb⟩
  | .matchWith hdepth hscrutinee harms, hfresh => by
    rw [Expr.idents, List.mem_append, not_or] at hfresh
    obtain ⟨hscrutinee, hb⟩ := hscrutinee.rename hr hb hfresh.1
    obtain ⟨harms, hb⟩ := harms.rename hr hb hfresh.2
    exact ⟨.matchWith hdepth hscrutinee harms, hb⟩

theorem Arm.Resolves.rename {r : Renaming} {ctx : Context} (hr : r.Fits ctx) {env : List Name}
    {depth : Nat} {arm arm' : Arm} {b b' : Binders} (hb : r.NewTo b) :
    arm.Resolves ctx env depth b arm' b' → r.ident ∉ arm.idents →
      (arm.renameAlong r arm').Resolves ctx (env.map (Name.rename r)) depth (b.rename r)
        (arm'.renameAlong r arm') (b'.rename r) ∧ r.NewTo b'
  | .mk hpattern hbody, hfresh => by
    rw [Arm.idents, List.mem_append, not_or] at hfresh
    obtain ⟨hbody, hb⟩ := hbody.rename hr (hb.pattern hpattern hfresh.1) hfresh.2
    rw [← Pattern.extend_renameAlong_self] at hbody
    exact ⟨.mk hpattern.rename hbody, hb⟩

theorem Arm.ResolvesList.rename {r : Renaming} {ctx : Context} (hr : r.Fits ctx) {env : List Name}
    {depth : Nat} {arms arms' : List Arm} {b b' : Binders} (hb : r.NewTo b) :
    Arm.ResolvesList ctx env depth arms b arms' b' → r.ident ∉ Arm.listIdents arms →
      Arm.ResolvesList ctx (env.map (Name.rename r)) depth (Arm.listRenameAlong r arms arms')
        (b.rename r) (Arm.listRenameAlong r arms' arms') (b'.rename r) ∧ r.NewTo b'
  | .nil, _ => ⟨.nil, hb⟩
  | .cons harm hrest, hfresh => by
    rw [Arm.listIdents, List.mem_append, not_or] at hfresh
    obtain ⟨harm, hb⟩ := harm.rename hr hb hfresh.1
    obtain ⟨hrest, hb⟩ := hrest.rename hr hb hfresh.2
    exact ⟨.cons harm hrest, hb⟩

end

theorem Decl.Resolves.rename (hr : r.Fits ctx) {decl decl' : Decl}
    (h : decl.Resolves ctx b decl' b') (hb : r.NewTo b) (hfresh : r.ident ∉ decl.idents) :
    (decl.renameAlong r decl').Resolves ctx (b.rename r) (decl'.renameAlong r decl')
      (b'.rename r) ∧ r.NewTo b' := by
  cases h with
  | value hsignature hbody =>
    obtain ⟨hbody, hb⟩ := hbody.rename hr hb hfresh
    exact ⟨.value hsignature hbody, hb⟩
  | data hctors => exact ⟨.data hctors, hb⟩

/-- **Renamed declarations are resolved to the resolved ones, renamed.** -/
theorem Decl.ResolvesList.rename (hr : r.Fits ctx) {decls decls' : List Decl}
    (h : Decl.ResolvesList ctx decls b decls' b') (hb : r.NewTo b)
    (hfresh : r.ident ∉ decls.flatMap Decl.idents) :
    Decl.ResolvesList ctx (alongside (Decl.renameAlong r) decls decls') (b.rename r)
      (alongside (Decl.renameAlong r) decls' decls') (b'.rename r) := by
  induction h with
  | nil => exact .nil
  | cons hdecl _ ih =>
    rw [List.flatMap_cons, List.mem_append, not_or] at hfresh
    obtain ⟨hdecl, hb⟩ := hdecl.rename hr hb hfresh.1
    exact .cons hdecl (ih hb hfresh.2)

end Derivations

end NameResolution
