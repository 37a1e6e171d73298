import NameResolution.Proofs.Outcome
import NameResolution.Proofs.Scope.Binders
import NameResolution.Proofs.Scope.Lookup
import NameResolution.Scope.Resolve
import Mathlib.Data.List.Forall2

/-!
# Derivations of resolved syntax

`Expr.Resolves ctx env depth e b e' b'` says that `e`, which stands inside the binders `env` and
inside `depth` nodes, becomes `e'`, and that the binders met are `b` before it and `b'` after it.
There is one rule for each form of syntax and none that fails, so the rules are exactly the
successful runs of the resolver (`Expr.run_resolve_eq_ok_iff`), and what a successful run gives is
shown by one case for each rule.

The binders `env` say where the expression stands: in the scope of the innermost of them.  What a
variable means is looked up among all binders that have been met, as the resolver does.
-/

namespace NameResolution

/-! ### Binders -/

/-- What `ident` becomes as the next binder, inside the binders `env`. -/
def freshBinder (owner : Namespace) (env : List Name) (b : Binders) (ident : String) : Name :=
  (b.bind (innermost owner env) ident).1

/-- The binders met when `ident` has been bound inside the binders `env`. -/
def afterBinder (owner : Namespace) (env : List Name) (b : Binders) (ident : String) : Binders :=
  (b.bind (innermost owner env) ident).2

/-- What the fields of a pattern become, each inside the ones before it. -/
def freshBinders (owner : Namespace) (env : List Name) (b : Binders) : List Name → List Name
  | [] => []
  | field :: rest =>
    freshBinder owner env b field.ident ::
      freshBinders owner (freshBinder owner env b field.ident :: env)
        (afterBinder owner env b field.ident) rest

/-- The binders met when the fields of a pattern have been bound. -/
def afterBinders (owner : Namespace) (env : List Name) (b : Binders) : List Name → Binders
  | [] => b
  | field :: rest =>
    afterBinders owner (freshBinder owner env b field.ident :: env)
      (afterBinder owner env b field.ident) rest

/-- A new binder stands inside the others. -/
theorem Chain.freshBinder {owner : Namespace} {env : List Name} (h : Chain owner env) (b : Binders)
    (ident : String) : Chain owner (freshBinder owner env b ident :: env) :=
  h.cons b.count.toNat ident

/-- The fields of a pattern stand one inside the other. -/
theorem Chain.freshBinders {owner : Namespace} {env : List Name} (h : Chain owner env) (b : Binders)
    (fields : List Name) : Chain owner ((freshBinders owner env b fields).reverse ++ env) := by
  induction fields generalizing env b with
  | nil => exact h
  | cons field rest ih =>
    rw [NameResolution.freshBinders, List.reverse_cons, List.append_assoc]
    exact ih (h.freshBinder b field.ident) _

/-! ### Runs that succeed -/

namespace Resolution

variable {α β : Type} {b b' : Binders} {d d' : Nat}

theorem run_bind_eq_ok_iff {x : Resolution α} {f : α → Resolution β} {r : β} :
    (x >>= f).run ⟨b, d⟩ = .ok (r, ⟨b', d'⟩) ↔
      ∃ a b₁ d₁, x.run ⟨b, d⟩ = .ok (a, ⟨b₁, d₁⟩) ∧ (f a).run ⟨b₁, d₁⟩ = .ok (r, ⟨b', d'⟩) := by
  rw [StateT.run_bind, bind_eq_ok_iff]
  exact ⟨fun ⟨(a, ⟨b₁, d₁⟩), hx, hf⟩ => ⟨a, b₁, d₁, hx, hf⟩,
    fun ⟨a, b₁, d₁, hx, hf⟩ => ⟨(a, ⟨b₁, d₁⟩), hx, hf⟩⟩

theorem run_pure_eq_ok_iff {a r : α} :
    (pure a : Resolution α).run ⟨b, d⟩ = .ok (r, ⟨b', d'⟩) ↔ a = r ∧ b = b' ∧ d = d' := by
  rw [StateT.run_pure, pure_eq_ok_iff, Prod.mk.injEq, ScopeState.mk.injEq]

theorem run_get_eq_ok_iff {s : ScopeState} :
    (get : Resolution ScopeState).run ⟨b, d⟩ = .ok (s, ⟨b', d'⟩) ↔
      ⟨b, d⟩ = s ∧ b = b' ∧ d = d' :=
  run_pure_eq_ok_iff

theorem run_lift_eq_ok_iff {x : Except Failure α} {a : α} :
    (liftM x : Resolution α).run ⟨b, d⟩ = .ok (a, ⟨b', d'⟩) ↔ x = .ok a ∧ b = b' ∧ d = d' := by
  cases x with
  | error failure =>
    constructor
    · rintro ⟨⟩
    · rintro ⟨⟨⟩, _⟩
  | ok r =>
    constructor
    · rintro ⟨⟩
      exact ⟨rfl, rfl, rfl⟩
    · rintro ⟨⟨⟩, rfl, rfl⟩
      rfl

theorem run_bindName_eq_ok_iff {owner : Namespace} {env : List Name} {ident : String}
    {name : Name} :
    (bindName (innermost owner env) ident).run ⟨b, d⟩ = .ok (name, ⟨b', d'⟩) ↔
      freshBinder owner env b ident = name ∧ afterBinder owner env b ident = b' ∧ d = d' :=
  run_pure_eq_ok_iff

theorem run_bindFields (owner : Namespace) (env : List Name) (b : Binders) (d : Nat)
    (fields : List Name) :
    (bindFields (innermost owner env) fields).run ⟨b, d⟩ =
      .ok ((freshBinders owner env b fields,
        innermost owner ((freshBinders owner env b fields).reverse ++ env)),
        ⟨afterBinders owner env b fields, d⟩) := by
  induction fields generalizing env b with
  | nil => rfl
  | cons field rest ih =>
    rw [bindFields, run_bind_eq_ok_iff]
    refine ⟨_, _, _, run_bindName_eq_ok_iff.mpr ⟨rfl, rfl, rfl⟩, ?_⟩
    rw [run_bind_eq_ok_iff]
    refine ⟨_, _, _, ih (freshBinder owner env b field.ident :: env) _, ?_⟩
    -- The first field comes last in the reversed list.
    rw [freshBinders, afterBinders, List.reverse_cons, List.append_assoc]
    rfl

theorem run_openNode (limit : UInt32) (node : NodeId) (binders : Binders) (depth : Nat) :
    (openNode limit node).run ⟨binders, depth⟩ =
      if depth < limit.toNat then .ok ((), ⟨binders, depth + 1⟩)
      else .error (.error (.nestedTooDeeply node)) := by
  show StateT.run (if depth < limit.toNat then modify fun s => { s with depth := s.depth + 1 }
    else throw (.error (.nestedTooDeeply node)) : Resolution Unit) ⟨binders, depth⟩ = _
  by_cases hdepth : depth < limit.toNat
  · rw [if_pos hdepth, if_pos hdepth]
    rfl
  · rw [if_neg hdepth, if_neg hdepth]
    rfl

/-- What is resolved between opening and closing a node. -/
theorem run_nested (limit : UInt32) (node : NodeId) (x : Resolution α) (binders : Binders)
    (depth : Nat) :
    (nested limit node x).run ⟨binders, depth⟩ =
      if depth < limit.toNat then
        (x.run ⟨binders, depth + 1⟩).map fun r => (r.1, ⟨r.2.binders, r.2.depth - 1⟩)
      else .error (.error (.nestedTooDeeply node)) := by
  rw [nested, StateT.run_bind, run_openNode]
  by_cases hdepth : depth < limit.toNat
  · rw [if_pos hdepth, if_pos hdepth]
    show StateT.run (do let resolved ← x; closeNode; return resolved) ⟨binders, depth + 1⟩ = _
    rw [StateT.run_bind]
    cases x.run ⟨binders, depth + 1⟩ <;> rfl
  · rw [if_neg hdepth, if_neg hdepth]
    rfl

theorem run_nested_eq_ok_iff {limit : UInt32} {node : NodeId} {x : Resolution α} {a : α} :
    (nested limit node x).run ⟨b, d⟩ = .ok (a, ⟨b', d'⟩) ↔
      d < limit.toNat ∧ ∃ d₁, x.run ⟨b, d + 1⟩ = .ok (a, ⟨b', d₁⟩) ∧ d₁ - 1 = d' := by
  rw [run_nested]
  by_cases hdepth : d < limit.toNat
  · rw [if_pos hdepth, map_eq_ok_iff]
    constructor
    · rintro ⟨⟨r, b₁, d₁⟩, hx, ⟨⟩⟩
      exact ⟨hdepth, d₁, hx, rfl⟩
    · rintro ⟨-, d₁, hx, rfl⟩
      exact ⟨(a, ⟨b', d₁⟩), hx, rfl⟩
  · rw [if_neg hdepth]
    constructor
    · rintro ⟨⟩
    · rintro ⟨h, -⟩
      exact absurd h hdepth

end Resolution

/-! ### Rules -/

mutual

/-- How types inside `depth` nodes are resolved. -/
inductive Ty.Resolves (ctx : Context) : (depth : Nat) → (type type' : Ty) → Prop
  | var {depth : Nat} {id : NodeId} {ident : String} (hdepth : depth < ctx.limit.toNat) :
      Ty.Resolves ctx depth (.var id ident) (.var id ident)
  | con {depth : Nat} {id : NodeId} {name name' : Name} {args args' : List Ty}
      (hdepth : depth < ctx.limit.toNat) (hname : ctx.typeName id name = .ok name')
      (hargs : Ty.ResolvesList ctx (depth + 1) args args') :
      Ty.Resolves ctx depth (.con id name args) (.con id name' args')
  | arrow {depth : Nat} {id : NodeId} {param param' result result' : Ty}
      (hdepth : depth < ctx.limit.toNat) (hparam : Ty.Resolves ctx (depth + 1) param param')
      (hresult : Ty.Resolves ctx (depth + 1) result result') :
      Ty.Resolves ctx depth (.arrow id param result) (.arrow id param' result')

/-- How types are resolved from left to right. -/
inductive Ty.ResolvesList (ctx : Context) : (depth : Nat) → (types types' : List Ty) → Prop
  | nil {depth : Nat} : Ty.ResolvesList ctx depth [] []
  | cons {depth : Nat} {type type' : Ty} {rest rest' : List Ty}
      (htype : Ty.Resolves ctx depth type type') (hrest : Ty.ResolvesList ctx depth rest rest') :
      Ty.ResolvesList ctx depth (type :: rest) (type' :: rest')

end

/-- How patterns inside the binders `env` are resolved. -/
inductive Pattern.Resolves (ctx : Context) (env : List Name) :
    (pattern : Pattern) → (b : Binders) → (pattern' : Pattern) → (b' : Binders) → Prop
  | lit {id : NodeId} {value : Literal} {b : Binders} :
      Resolves ctx env (.lit id value) b (.lit id value) b
  | wildcard {id : NodeId} {b : Binders} : Resolves ctx env (.wildcard id) b (.wildcard id) b
  | bind {id : NodeId} {name : Name} {b : Binders} :
      Resolves ctx env (.bind id name) b (.bind id (freshBinder ctx.owner env b name.ident))
        (afterBinder ctx.owner env b name.ident)
  | variant {id : NodeId} {type type' : Name} {ctor : String} {fields : List Name} {b : Binders}
      (htype : ctx.typeName id type = .ok type') :
      Resolves ctx env (.variant id type ctor fields) b
        (.variant id type' ctor (freshBinders ctx.owner env b fields))
        (afterBinders ctx.owner env b fields)

mutual

/-- How expressions inside the binders `env` and inside `depth` nodes are resolved. -/
inductive Expr.Resolves (ctx : Context) :
    (env : List Name) → (depth : Nat) → (e : Expr) → (b : Binders) → (e' : Expr) → (b' : Binders) →
      Prop
  | lit {env : List Name} {depth : Nat} {id : NodeId} {value : Literal} {b : Binders}
      (hdepth : depth < ctx.limit.toNat) :
      Expr.Resolves ctx env depth (.lit id value) b (.lit id value) b
  | var {env : List Name} {depth : Nat} {id : NodeId} {name name' : Name} {b : Binders}
      (hdepth : depth < ctx.limit.toNat)
      (hname : ctx.variableAt b (innermost ctx.owner env) id name = .ok name') :
      Expr.Resolves ctx env depth (.var id name) b (.var id name') b
  | app {env : List Name} {depth : Nat} {id : NodeId} {func func' arg arg' : Expr}
      {b b₁ b' : Binders} (hdepth : depth < ctx.limit.toNat)
      (hfunc : Expr.Resolves ctx env (depth + 1) func b func' b₁)
      (harg : Expr.Resolves ctx env (depth + 1) arg b₁ arg' b') :
      Expr.Resolves ctx env depth (.app id func arg) b (.app id func' arg') b'
  | lambda {env : List Name} {depth : Nat} {id : NodeId} {param : Name} {body body' : Expr}
      {b b' : Binders} (hdepth : depth < ctx.limit.toNat)
      (hbody : Expr.Resolves ctx (freshBinder ctx.owner env b param.ident :: env) (depth + 1)
        body (afterBinder ctx.owner env b param.ident) body' b') :
      Expr.Resolves ctx env depth (.lambda id param body) b
        (.lambda id (freshBinder ctx.owner env b param.ident) body') b'
  | annot {env : List Name} {depth : Nat} {id : NodeId} {expr expr' : Expr} {type type' : Ty}
      {b b' : Binders} (hdepth : depth < ctx.limit.toNat)
      (hexpr : Expr.Resolves ctx env (depth + 1) expr b expr' b')
      (htype : type.Resolves ctx (depth + 1) type') :
      Expr.Resolves ctx env depth (.annot id expr type) b (.annot id expr' type') b'
  | letIn {env : List Name} {depth : Nat} {id : NodeId} {binder : Name}
      {bound bound' body body' : Expr} {b b₁ b' : Binders} (hdepth : depth < ctx.limit.toNat)
      (hbound : Expr.Resolves ctx env (depth + 1) bound b bound' b₁)
      (hbody : Expr.Resolves ctx (freshBinder ctx.owner env b₁ binder.ident :: env) (depth + 1)
        body (afterBinder ctx.owner env b₁ binder.ident) body' b') :
      Expr.Resolves ctx env depth (.letIn id binder bound body) b
        (.letIn id (freshBinder ctx.owner env b₁ binder.ident) bound' body') b'
  | ifThenElse {env : List Name} {depth : Nat} {id : NodeId}
      {cond cond' thenBranch thenBranch' elseBranch elseBranch' : Expr} {b b₁ b₂ b' : Binders}
      (hdepth : depth < ctx.limit.toNat)
      (hcond : Expr.Resolves ctx env (depth + 1) cond b cond' b₁)
      (hthen : Expr.Resolves ctx env (depth + 1) thenBranch b₁ thenBranch' b₂)
      (helse : Expr.Resolves ctx env (depth + 1) elseBranch b₂ elseBranch' b') :
      Expr.Resolves ctx env depth (.ifThenElse id cond thenBranch elseBranch) b
        (.ifThenElse id cond' thenBranch' elseBranch') b'
  | matchWith {env : List Name} {depth : Nat} {id : NodeId} {scrutinee scrutinee' : Expr}
      {arms arms' : List Arm} {b b₁ b' : Binders} (hdepth : depth < ctx.limit.toNat)
      (hscrutinee : Expr.Resolves ctx env (depth + 1) scrutinee b scrutinee' b₁)
      (harms : Arm.ResolvesList ctx env (depth + 1) arms b₁ arms' b') :
      Expr.Resolves ctx env depth (.matchWith id scrutinee arms) b
        (.matchWith id scrutinee' arms') b'

/-- How arms are resolved. -/
inductive Arm.Resolves (ctx : Context) :
    (env : List Name) → (depth : Nat) → (arm : Arm) → (b : Binders) → (arm' : Arm) →
      (b' : Binders) → Prop
  | mk {env : List Name} {depth : Nat} {pattern pattern' : Pattern} {body body' : Expr}
      {b b₁ b' : Binders} (hpattern : pattern.Resolves ctx env b pattern' b₁)
      (hbody : Expr.Resolves ctx (pattern'.extend env) depth body b₁ body' b') :
      Arm.Resolves ctx env depth ⟨pattern, body⟩ b ⟨pattern', body'⟩ b'

/-- How arms are resolved from first to last. -/
inductive Arm.ResolvesList (ctx : Context) :
    (env : List Name) → (depth : Nat) → (arms : List Arm) → (b : Binders) → (arms' : List Arm) →
      (b' : Binders) → Prop
  | nil {env : List Name} {depth : Nat} {b : Binders} : Arm.ResolvesList ctx env depth [] b [] b
  | cons {env : List Name} {depth : Nat} {arm arm' : Arm} {rest rest' : List Arm}
      {b b₁ b' : Binders} (harm : Arm.Resolves ctx env depth arm b arm' b₁)
      (hrest : Arm.ResolvesList ctx env depth rest b₁ rest' b') :
      Arm.ResolvesList ctx env depth (arm :: rest) b (arm' :: rest') b'

end

/-- How constructors are resolved. -/
inductive Constructor.Resolves (ctx : Context) : (ctor ctor' : Constructor) → Prop
  | mk {id : NodeId} {label : String} {fields fields' : List Ty}
      (hfields : Ty.ResolvesList ctx 0 fields fields') :
      Resolves ctx ⟨id, label, fields⟩ ⟨id, label, fields'⟩

/-- How declarations are resolved. -/
inductive Decl.Resolves (ctx : Context) :
    (decl : Decl) → (b : Binders) → (decl' : Decl) → (b' : Binders) → Prop
  | value {id : NodeId} {ident : String} {signature signature' : Option Ty} {body body' : Expr}
      {b b' : Binders} (hsignature : Option.Rel (Ty.Resolves ctx 0) signature signature')
      (hbody : body.Resolves ctx [] 0 b body' b') :
      Resolves ctx (.value id ident signature body) b (.value id ident signature' body') b'
  | data {id : NodeId} {ident : String} {params : List String} {ctors ctors' : List Constructor}
      {b : Binders} (hctors : List.Forall₂ (Constructor.Resolves ctx) ctors ctors') :
      Resolves ctx (.data id ident params ctors) b (.data id ident params ctors') b

/-- How declarations are resolved from first to last. -/
inductive Decl.ResolvesList (ctx : Context) :
    (decls : List Decl) → (b : Binders) → (decls' : List Decl) → (b' : Binders) → Prop
  | nil {b : Binders} : ResolvesList ctx [] b [] b
  | cons {decl decl' : Decl} {rest rest' : List Decl} {b b₁ b' : Binders}
      (hdecl : decl.Resolves ctx b decl' b₁) (hrest : ResolvesList ctx rest b₁ rest' b') :
      ResolvesList ctx (decl :: rest) b (decl' :: rest') b'

/-! ### Rules and runs -/

open Resolution (run_bind_eq_ok_iff run_pure_eq_ok_iff run_lift_eq_ok_iff run_get_eq_ok_iff
  run_bindName_eq_ok_iff run_bindFields run_nested_eq_ok_iff)

theorem Context.typeMeaning_eq_ok_iff {ctx : Context} (hctx : ctx.Grounded) {node : NodeId}
    {name n : Name} : ctx.typeMeaning node name = .ok n ↔ ctx.typeName node name = .ok n := by
  rw [typeMeaning_eq hctx, mapError_eq_ok_iff]

theorem Context.variableMeaning_eq_ok_iff {ctx : Context} (hctx : ctx.Grounded) {b : Binders}
    {env : List Name} (henv : Chain ctx.owner env) {node : NodeId} {name n : Name} :
    ctx.variableMeaning b (innermost ctx.owner env) node name = .ok n ↔
      ctx.variableAt b (innermost ctx.owner env) node name = .ok n := by
  rw [variableMeaning_eq hctx b henv.owner_encloses, mapError_eq_ok_iff]

section Runs

variable {ctx : Context} {b b' : Binders} {d d' : Nat}

mutual

theorem Ty.run_resolve_eq_ok_iff {ctx : Context} (hctx : ctx.Grounded) {b b' : Binders}
    {d d' : Nat} : {type type' : Ty} →
    ((type.resolve ctx).run ⟨b, d⟩ = .ok (type', ⟨b', d'⟩) ↔
      type.Resolves ctx d type' ∧ b = b' ∧ d = d')
  | .var id ident, type' => by
    simp only [Ty.resolve, run_nested_eq_ok_iff, run_pure_eq_ok_iff]
    constructor
    · rintro ⟨hdepth, _, ⟨rfl, rfl, rfl⟩, rfl⟩
      exact ⟨.var hdepth, rfl, rfl⟩
    · rintro ⟨h, rfl, rfl⟩
      cases h with
      | var hdepth => exact ⟨hdepth, _, ⟨rfl, rfl, rfl⟩, rfl⟩
  | .con id name args, type' => by
    simp only [Ty.resolve, run_nested_eq_ok_iff, run_bind_eq_ok_iff, run_lift_eq_ok_iff,
      run_pure_eq_ok_iff, Context.typeMeaning_eq_ok_iff hctx, Ty.run_resolveList_eq_ok_iff hctx]
    constructor
    · rintro ⟨hdepth, _, ⟨name', _, _, ⟨hname, rfl, rfl⟩, args', _, _, ⟨hargs, rfl, rfl⟩, rfl, rfl,
        rfl⟩, rfl⟩
      exact ⟨.con hdepth hname hargs, rfl, rfl⟩
    · rintro ⟨h, rfl, rfl⟩
      cases h with
      | con hdepth hname hargs =>
        exact ⟨hdepth, _, ⟨_, _, _, ⟨hname, rfl, rfl⟩, _, _, _, ⟨hargs, rfl, rfl⟩, rfl, rfl, rfl⟩,
          rfl⟩
  | .arrow id param result, type' => by
    simp only [Ty.resolve, run_nested_eq_ok_iff, run_bind_eq_ok_iff, run_pure_eq_ok_iff,
      Ty.run_resolve_eq_ok_iff hctx]
    constructor
    · rintro ⟨hdepth, _, ⟨param', _, _, ⟨hparam, rfl, rfl⟩, result', _, _, ⟨hresult, rfl, rfl⟩, rfl,
        rfl, rfl⟩, rfl⟩
      exact ⟨.arrow hdepth hparam hresult, rfl, rfl⟩
    · rintro ⟨h, rfl, rfl⟩
      cases h with
      | arrow hdepth hparam hresult =>
        exact ⟨hdepth, _, ⟨_, _, _, ⟨hparam, rfl, rfl⟩, _, _, _, ⟨hresult, rfl, rfl⟩, rfl, rfl,
          rfl⟩, rfl⟩

theorem Ty.run_resolveList_eq_ok_iff {ctx : Context} (hctx : ctx.Grounded) {b b' : Binders}
    {d d' : Nat} : {types types' : List Ty} →
    ((Ty.resolveList ctx types).run ⟨b, d⟩ = .ok (types', ⟨b', d'⟩) ↔
      Ty.ResolvesList ctx d types types' ∧ b = b' ∧ d = d')
  | [], types' => by
    rw [Ty.resolveList, run_pure_eq_ok_iff]
    constructor
    · rintro ⟨rfl, rfl, rfl⟩
      exact ⟨.nil, rfl, rfl⟩
    · rintro ⟨h, rfl, rfl⟩
      cases h
      exact ⟨rfl, rfl, rfl⟩
  | type :: rest, types' => by
    simp only [Ty.resolveList, run_bind_eq_ok_iff, run_pure_eq_ok_iff,
      Ty.run_resolve_eq_ok_iff hctx, Ty.run_resolveList_eq_ok_iff hctx]
    constructor
    · rintro ⟨type', _, _, ⟨htype, rfl, rfl⟩, rest', _, _, ⟨hrest, rfl, rfl⟩, rfl, rfl, rfl⟩
      exact ⟨.cons htype hrest, rfl, rfl⟩
    · rintro ⟨h, rfl, rfl⟩
      cases h with
      | cons htype hrest =>
        exact ⟨_, _, _, ⟨htype, rfl, rfl⟩, _, _, _, ⟨hrest, rfl, rfl⟩, rfl, rfl, rfl⟩

end

theorem Pattern.run_resolve_eq_ok_iff (hctx : ctx.Grounded) {env : List Name}
    {pattern pattern' : Pattern} {scope : Namespace} :
    (pattern.resolve ctx (innermost ctx.owner env)).run ⟨b, d⟩ =
        .ok ((pattern', scope), ⟨b', d'⟩) ↔
      pattern.Resolves ctx env b pattern' b' ∧ innermost ctx.owner (pattern'.extend env) = scope ∧
        d = d' := by
  cases pattern with
  | lit id value =>
    simp only [Pattern.resolve, run_pure_eq_ok_iff, Prod.mk.injEq]
    constructor
    · rintro ⟨⟨rfl, rfl⟩, rfl, rfl⟩
      exact ⟨.lit, rfl, rfl⟩
    · rintro ⟨⟨⟩, rfl, rfl⟩
      exact ⟨⟨rfl, rfl⟩, rfl, rfl⟩
  | wildcard id =>
    simp only [Pattern.resolve, run_pure_eq_ok_iff, Prod.mk.injEq]
    constructor
    · rintro ⟨⟨rfl, rfl⟩, rfl, rfl⟩
      exact ⟨.wildcard, rfl, rfl⟩
    · rintro ⟨⟨⟩, rfl, rfl⟩
      exact ⟨⟨rfl, rfl⟩, rfl, rfl⟩
  | bind id name =>
    simp only [Pattern.resolve, run_bind_eq_ok_iff, run_bindName_eq_ok_iff, run_pure_eq_ok_iff,
      Prod.mk.injEq]
    constructor
    · rintro ⟨_, _, _, ⟨rfl, rfl, rfl⟩, ⟨rfl, rfl⟩, rfl, rfl⟩
      exact ⟨.bind, rfl, rfl⟩
    · rintro ⟨⟨⟩, rfl, rfl⟩
      exact ⟨_, _, _, ⟨rfl, rfl, rfl⟩, ⟨rfl, rfl⟩, rfl, rfl⟩
  | variant id type ctor fields =>
    -- The fields cannot fail, so the type is all that a rule has to ask for.
    simp only [Pattern.resolve, run_bind_eq_ok_iff, run_lift_eq_ok_iff, run_bindFields,
      run_pure_eq_ok_iff, Context.typeMeaning_eq_ok_iff hctx, Except.ok.injEq, Prod.mk.injEq,
      ScopeState.mk.injEq]
    constructor
    · rintro ⟨type', _, _, ⟨htype, rfl, rfl⟩, _, _, _, ⟨rfl, rfl, rfl⟩, ⟨rfl, rfl⟩, rfl, rfl⟩
      exact ⟨.variant htype, rfl, rfl⟩
    · rintro ⟨h, rfl, rfl⟩
      cases h with
      | variant htype =>
        exact ⟨_, _, _, ⟨htype, rfl, rfl⟩, _, _, _, ⟨rfl, rfl, rfl⟩, ⟨rfl, rfl⟩, rfl, rfl⟩

/-- What stands behind a pattern is enclosed by a chain as well. -/
theorem Chain.extend {env : List Name} (henv : Chain ctx.owner env) {pattern pattern' : Pattern}
    (h : pattern.Resolves ctx env b pattern' b') : Chain ctx.owner (pattern'.extend env) := by
  cases h with
  | lit => exact henv
  | wildcard => exact henv
  | bind => exact henv.freshBinder b _
  | variant htype => exact henv.freshBinders b _

mutual

/-- **Derivations are the successful runs**, in a context in which nothing faults. -/
theorem Expr.run_resolve_eq_ok_iff {ctx : Context} (hctx : ctx.Grounded) {env : List Name}
    (henv : Chain ctx.owner env) {b b' : Binders} {d d' : Nat} : {e e' : Expr} →
    ((e.resolve ctx (innermost ctx.owner env)).run ⟨b, d⟩ = .ok (e', ⟨b', d'⟩) ↔
      e.Resolves ctx env d b e' b' ∧ d = d')
  | .lit id value, e' => by
    simp only [Expr.resolve, run_nested_eq_ok_iff, run_pure_eq_ok_iff]
    constructor
    · rintro ⟨hdepth, _, ⟨rfl, rfl, rfl⟩, rfl⟩
      exact ⟨.lit hdepth, rfl⟩
    · rintro ⟨h, rfl⟩
      cases h with
      | lit hdepth => exact ⟨hdepth, _, ⟨rfl, rfl, rfl⟩, rfl⟩
  | .var id name, e' => by
    simp only [Expr.resolve, run_nested_eq_ok_iff, run_bind_eq_ok_iff, run_get_eq_ok_iff,
      run_lift_eq_ok_iff, run_pure_eq_ok_iff]
    constructor
    · rintro ⟨hdepth, _, ⟨_, _, _, ⟨rfl, rfl, rfl⟩, name', _, _, ⟨hname, rfl, rfl⟩, rfl, rfl, rfl⟩,
        rfl⟩
      exact ⟨.var hdepth ((Context.variableMeaning_eq_ok_iff hctx henv).mp hname), rfl⟩
    · rintro ⟨h, rfl⟩
      cases h with
      | var hdepth hname =>
        have hname := (Context.variableMeaning_eq_ok_iff hctx henv).mpr hname
        exact ⟨hdepth, _, ⟨_, _, _, ⟨rfl, rfl, rfl⟩, _, _, _, ⟨hname, rfl, rfl⟩, rfl, rfl, rfl⟩,
          rfl⟩
  | .app id func arg, e' => by
    simp only [Expr.resolve, run_nested_eq_ok_iff, run_bind_eq_ok_iff, run_pure_eq_ok_iff,
      Expr.run_resolve_eq_ok_iff hctx henv]
    constructor
    · rintro ⟨hdepth, _, ⟨func', _, _, ⟨hfunc, rfl⟩, arg', _, _, ⟨harg, rfl⟩, rfl, rfl, rfl⟩, rfl⟩
      exact ⟨.app hdepth hfunc harg, rfl⟩
    · rintro ⟨h, rfl⟩
      cases h with
      | app hdepth hfunc harg =>
        exact ⟨hdepth, _, ⟨_, _, _, ⟨hfunc, rfl⟩, _, _, _, ⟨harg, rfl⟩, rfl, rfl, rfl⟩, rfl⟩
  | .lambda id param body, e' => by
    simp only [Expr.resolve, run_nested_eq_ok_iff, run_bind_eq_ok_iff, run_bindName_eq_ok_iff,
      run_pure_eq_ok_iff]
    -- The body stands inside the new binder.
    have hparam := henv.freshBinder b param.ident
    constructor
    · rintro ⟨hdepth, _, ⟨_, _, _, ⟨rfl, rfl, rfl⟩, body', _, _, hrun, rfl, rfl, rfl⟩, rfl⟩
      obtain ⟨hbody, rfl⟩ := (Expr.run_resolve_eq_ok_iff hctx hparam).mp hrun
      exact ⟨.lambda hdepth hbody, rfl⟩
    · rintro ⟨h, rfl⟩
      cases h with
      | lambda hdepth hbody =>
        have hrun := (Expr.run_resolve_eq_ok_iff hctx hparam).mpr ⟨hbody, rfl⟩
        exact ⟨hdepth, _, ⟨_, _, _, ⟨rfl, rfl, rfl⟩, _, _, _, hrun, rfl, rfl, rfl⟩, rfl⟩
  | .annot id expr type, e' => by
    simp only [Expr.resolve, run_nested_eq_ok_iff, run_bind_eq_ok_iff, run_pure_eq_ok_iff,
      Expr.run_resolve_eq_ok_iff hctx henv, Ty.run_resolve_eq_ok_iff hctx]
    constructor
    · rintro ⟨hdepth, _, ⟨expr', _, _, ⟨hexpr, rfl⟩, type', _, _, ⟨htype, rfl, rfl⟩, rfl, rfl, rfl⟩,
        rfl⟩
      exact ⟨.annot hdepth hexpr htype, rfl⟩
    · rintro ⟨h, rfl⟩
      cases h with
      | annot hdepth hexpr htype =>
        exact ⟨hdepth, _, ⟨_, _, _, ⟨hexpr, rfl⟩, _, _, _, ⟨htype, rfl, rfl⟩, rfl, rfl, rfl⟩, rfl⟩
  | .letIn id binder bound body, e' => by
    -- `bound` comes first, so the binder gets the number that is next after it.
    simp only [Expr.resolve, run_nested_eq_ok_iff, run_bind_eq_ok_iff, run_bindName_eq_ok_iff,
      run_pure_eq_ok_iff, Expr.run_resolve_eq_ok_iff hctx henv]
    constructor
    · rintro ⟨hdepth, _, ⟨bound', b₁, _, ⟨hbound, rfl⟩, _, _, _, ⟨rfl, rfl, rfl⟩, body', _, _, hrun,
        rfl, rfl, rfl⟩, rfl⟩
      have hbinder := henv.freshBinder b₁ binder.ident
      obtain ⟨hbody, rfl⟩ := (Expr.run_resolve_eq_ok_iff hctx hbinder).mp hrun
      exact ⟨.letIn hdepth hbound hbody, rfl⟩
    · rintro ⟨h, rfl⟩
      cases h with
      | letIn hdepth hbound hbody =>
        have hrun :=
          (Expr.run_resolve_eq_ok_iff hctx (henv.freshBinder _ binder.ident)).mpr ⟨hbody, rfl⟩
        exact ⟨hdepth, _, ⟨_, _, _, ⟨hbound, rfl⟩, _, _, _, ⟨rfl, rfl, rfl⟩, _, _, _, hrun, rfl,
          rfl, rfl⟩, rfl⟩
  | .ifThenElse id cond thenBranch elseBranch, e' => by
    simp only [Expr.resolve, run_nested_eq_ok_iff, run_bind_eq_ok_iff, run_pure_eq_ok_iff,
      Expr.run_resolve_eq_ok_iff hctx henv]
    constructor
    · rintro ⟨hdepth, _, ⟨cond', _, _, ⟨hcond, rfl⟩, then', _, _, ⟨hthen, rfl⟩, else', _, _,
        ⟨helse, rfl⟩, rfl, rfl, rfl⟩, rfl⟩
      exact ⟨.ifThenElse hdepth hcond hthen helse, rfl⟩
    · rintro ⟨h, rfl⟩
      cases h with
      | ifThenElse hdepth hcond hthen helse =>
        exact ⟨hdepth, _, ⟨_, _, _, ⟨hcond, rfl⟩, _, _, _, ⟨hthen, rfl⟩, _, _, _, ⟨helse, rfl⟩, rfl,
          rfl, rfl⟩, rfl⟩
  | .matchWith id scrutinee arms, e' => by
    simp only [Expr.resolve, run_nested_eq_ok_iff, run_bind_eq_ok_iff, run_pure_eq_ok_iff,
      Expr.run_resolve_eq_ok_iff hctx henv, Arm.run_resolveList_eq_ok_iff hctx henv]
    constructor
    · rintro ⟨hdepth, _, ⟨scrutinee', _, _, ⟨hscrutinee, rfl⟩, arms', _, _, ⟨harms, rfl⟩, rfl, rfl,
        rfl⟩, rfl⟩
      exact ⟨.matchWith hdepth hscrutinee harms, rfl⟩
    · rintro ⟨h, rfl⟩
      cases h with
      | matchWith hdepth hscrutinee harms =>
        exact ⟨hdepth, _, ⟨_, _, _, ⟨hscrutinee, rfl⟩, _, _, _, ⟨harms, rfl⟩, rfl, rfl, rfl⟩, rfl⟩

theorem Arm.run_resolve_eq_ok_iff {ctx : Context} (hctx : ctx.Grounded) {env : List Name}
    (henv : Chain ctx.owner env) {b b' : Binders} {d d' : Nat} : {arm arm' : Arm} →
    ((arm.resolve ctx (innermost ctx.owner env)).run ⟨b, d⟩ = .ok (arm', ⟨b', d'⟩) ↔
      arm.Resolves ctx env d b arm' b' ∧ d = d')
  | ⟨pattern, body⟩, arm' => by
    simp only [Arm.resolve, run_bind_eq_ok_iff, run_pure_eq_ok_iff, Prod.exists,
      Pattern.run_resolve_eq_ok_iff hctx]
    constructor
    · rintro ⟨pattern', _, _, _, ⟨hpattern, rfl, rfl⟩, body', _, _, hrun, rfl, rfl, rfl⟩
      obtain ⟨hbody, rfl⟩ := (Expr.run_resolve_eq_ok_iff hctx (henv.extend hpattern)).mp hrun
      exact ⟨.mk hpattern hbody, rfl⟩
    · rintro ⟨h, rfl⟩
      cases h with
      | mk hpattern hbody =>
        have hrun := (Expr.run_resolve_eq_ok_iff hctx (henv.extend hpattern)).mpr ⟨hbody, rfl⟩
        exact ⟨_, _, _, _, ⟨hpattern, rfl, rfl⟩, _, _, _, hrun, rfl, rfl, rfl⟩

theorem Arm.run_resolveList_eq_ok_iff {ctx : Context} (hctx : ctx.Grounded) {env : List Name}
    (henv : Chain ctx.owner env) {b b' : Binders} {d d' : Nat} : {arms arms' : List Arm} →
    ((Arm.resolveList ctx (innermost ctx.owner env) arms).run ⟨b, d⟩ = .ok (arms', ⟨b', d'⟩) ↔
      Arm.ResolvesList ctx env d arms b arms' b' ∧ d = d')
  | [], arms' => by
    rw [Arm.resolveList, run_pure_eq_ok_iff]
    constructor
    · rintro ⟨rfl, rfl, rfl⟩
      exact ⟨.nil, rfl⟩
    · rintro ⟨h, rfl⟩
      cases h
      exact ⟨rfl, rfl, rfl⟩
  | arm :: rest, arms' => by
    simp only [Arm.resolveList, run_bind_eq_ok_iff, run_pure_eq_ok_iff,
      Arm.run_resolve_eq_ok_iff hctx henv, Arm.run_resolveList_eq_ok_iff hctx henv]
    constructor
    · rintro ⟨arm', _, _, ⟨harm, rfl⟩, rest', _, _, ⟨hrest, rfl⟩, rfl, rfl, rfl⟩
      exact ⟨.cons harm hrest, rfl⟩
    · rintro ⟨h, rfl⟩
      cases h with
      | cons harm hrest => exact ⟨_, _, _, ⟨harm, rfl⟩, _, _, _, ⟨hrest, rfl⟩, rfl, rfl, rfl⟩

end

theorem Constructor.run_resolveList_eq_ok_iff (hctx : ctx.Grounded)
    {ctors ctors' : List Constructor} :
    (Constructor.resolveList ctx ctors).run ⟨b, 0⟩ = .ok (ctors', ⟨b', d'⟩) ↔
      List.Forall₂ (Constructor.Resolves ctx) ctors ctors' ∧ b = b' ∧ 0 = d' := by
  induction ctors generalizing ctors' d' with
  | nil =>
    rw [Constructor.resolveList, run_pure_eq_ok_iff, List.forall₂_nil_left_iff, eq_comm (b := [])]
  | cons ctor rest ih =>
    simp only [Constructor.resolveList, Constructor.resolve, run_bind_eq_ok_iff,
      run_pure_eq_ok_iff, Ty.run_resolveList_eq_ok_iff hctx, List.forall₂_cons_left_iff]
    constructor
    · rintro ⟨_, _, _, ⟨fields', _, _, ⟨hfields, rfl, rfl⟩, rfl, rfl, rfl⟩, rest', _, _, hrun, rfl,
        rfl, rfl⟩
      obtain ⟨hrest, rfl, rfl⟩ := ih.mp hrun
      exact ⟨⟨_, rest', .mk hfields, hrest, rfl⟩, rfl, rfl⟩
    · rintro ⟨⟨_, rest', ⟨hfields⟩, hrest, rfl⟩, rfl, rfl⟩
      exact ⟨_, _, _, ⟨_, _, _, ⟨hfields, rfl, rfl⟩, rfl, rfl, rfl⟩, _, _, _,
        ih.mpr ⟨hrest, rfl, rfl⟩, rfl, rfl, rfl⟩

theorem Decl.run_resolveSignature_eq_ok_iff (hctx : ctx.Grounded)
    {signature signature' : Option Ty} :
    (Decl.resolveSignature ctx signature).run ⟨b, d⟩ = .ok (signature', ⟨b', d'⟩) ↔
      Option.Rel (Ty.Resolves ctx d) signature signature' ∧ b = b' ∧ d = d' := by
  cases signature with
  | none =>
    rw [Decl.resolveSignature, run_pure_eq_ok_iff]
    constructor
    · rintro ⟨rfl, rfl, rfl⟩
      exact ⟨.none, rfl, rfl⟩
    · rintro ⟨⟨⟩, rfl, rfl⟩
      exact ⟨rfl, rfl, rfl⟩
  | some type =>
    simp only [Decl.resolveSignature, run_bind_eq_ok_iff, run_pure_eq_ok_iff,
      Ty.run_resolve_eq_ok_iff hctx]
    constructor
    · rintro ⟨type', _, _, ⟨htype, rfl, rfl⟩, rfl, rfl, rfl⟩
      exact ⟨.some htype, rfl, rfl⟩
    · rintro ⟨h, rfl, rfl⟩
      cases h with
      | some htype => exact ⟨_, _, _, ⟨htype, rfl, rfl⟩, rfl, rfl, rfl⟩

theorem Decl.run_resolve_eq_ok_iff (hctx : ctx.Grounded) {decl decl' : Decl} :
    (decl.resolve ctx).run ⟨b, 0⟩ = .ok (decl', ⟨b', d'⟩) ↔
      decl.Resolves ctx b decl' b' ∧ 0 = d' := by
  cases decl with
  | value id ident signature body =>
    -- The body stands in the scope of the module, inside no binders.
    have howner : Chain ctx.owner [] := .nil
    simp only [Decl.resolve, run_bind_eq_ok_iff, run_pure_eq_ok_iff,
      Decl.run_resolveSignature_eq_ok_iff hctx]
    constructor
    · rintro ⟨signature', _, _, ⟨hsignature, rfl, rfl⟩, body', _, _, hrun, rfl, rfl, rfl⟩
      obtain ⟨hbody, rfl⟩ := (Expr.run_resolve_eq_ok_iff hctx howner).mp hrun
      exact ⟨.value hsignature hbody, rfl⟩
    · rintro ⟨h, rfl⟩
      cases h with
      | value hsignature hbody =>
        have hrun := (Expr.run_resolve_eq_ok_iff hctx howner).mpr ⟨hbody, rfl⟩
        exact ⟨_, _, _, ⟨hsignature, rfl, rfl⟩, _, _, _, hrun, rfl, rfl, rfl⟩
  | data id ident params ctors =>
    simp only [Decl.resolve, run_bind_eq_ok_iff, run_pure_eq_ok_iff,
      Constructor.run_resolveList_eq_ok_iff hctx]
    constructor
    · rintro ⟨ctors', _, _, ⟨hctors, rfl, rfl⟩, rfl, rfl, rfl⟩
      exact ⟨.data hctors, rfl⟩
    · rintro ⟨h, rfl⟩
      cases h with
      | data hctors => exact ⟨_, _, _, ⟨hctors, rfl, rfl⟩, rfl, rfl, rfl⟩

theorem Decl.run_resolveList_eq_ok_iff (hctx : ctx.Grounded) {decls decls' : List Decl} :
    (Decl.resolveList ctx decls).run ⟨b, 0⟩ = .ok (decls', ⟨b', d'⟩) ↔
      Decl.ResolvesList ctx decls b decls' b' ∧ 0 = d' := by
  induction decls generalizing decls' b d' with
  | nil =>
    rw [Decl.resolveList, run_pure_eq_ok_iff]
    constructor
    · rintro ⟨rfl, rfl, rfl⟩
      exact ⟨.nil, rfl⟩
    · rintro ⟨h, rfl⟩
      cases h
      exact ⟨rfl, rfl, rfl⟩
  | cons decl rest ih =>
    simp only [Decl.resolveList, run_bind_eq_ok_iff, run_pure_eq_ok_iff,
      Decl.run_resolve_eq_ok_iff hctx]
    constructor
    · rintro ⟨decl', _, _, ⟨hdecl, rfl⟩, rest', _, _, hrun, rfl, rfl, rfl⟩
      obtain ⟨hrest, rfl⟩ := ih.mp hrun
      exact ⟨.cons hdecl hrest, rfl⟩
    · rintro ⟨h, rfl⟩
      cases h with
      | cons hdecl hrest =>
        exact ⟨_, _, _, ⟨hdecl, rfl⟩, _, _, _, ih.mpr ⟨hrest, rfl⟩, rfl, rfl, rfl⟩

end Runs

/-- **A module is resolved by a derivation for its declarations**, with the imports in reach of it
and no binder met before. -/
theorem Module.resolve_eq_ok_iff {interfaces : Interfaces} {limit : UInt32} {m m' : Module} :
    m.resolve interfaces limit = .ok m' ↔
      ∃ reach decls' b', interfaces.reach m.ns = .ok reach ∧
        Decl.ResolvesList ⟨interfaces, m.ns, reach, limit⟩ m.decls .empty decls' b' ∧
        m' = { m with decls := decls' } := by
  rw [Module.resolve]
  constructor
  · intro h
    obtain ⟨reach, hreach, h⟩ := bind_eq_ok_iff.mp h
    obtain ⟨⟨decls', ⟨b', d'⟩⟩, hrun, h⟩ := bind_eq_ok_iff.mp h
    obtain rfl := pure_eq_ok_iff.mp h
    have hreach := mapError_eq_ok_iff.mp hreach
    have hctx := Context.grounded_of_reach hreach limit
    exact ⟨reach, decls', b', hreach, ((Decl.run_resolveList_eq_ok_iff hctx).mp hrun).1, rfl⟩
  · rintro ⟨reach, decls', b', hreach, hdecls, rfl⟩
    have hctx := Context.grounded_of_reach hreach limit
    have hrun := (Decl.run_resolveList_eq_ok_iff hctx).mpr ⟨hdecls, rfl⟩
    refine bind_eq_ok_iff.mpr ⟨reach, mapError_eq_ok_iff.mpr hreach, ?_⟩
    exact bind_eq_ok_iff.mpr ⟨_, hrun, rfl⟩

end NameResolution
