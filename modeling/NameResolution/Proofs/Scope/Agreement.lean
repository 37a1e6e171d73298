import NameResolution.Proofs.Scope.Derivation
import NameResolution.Proofs.Scope.Lexical
import NameResolution.Proofs.Scope.Repeated

/-!
# The binders met so far say the same as the enclosing ones

The resolver keeps every binder that it has met and reads off the scopes alone which of them can be
seen.  Here it is shown to give the same outcome as `Module.resolveIn`, which is handed the
enclosing binders: the same module, or the same first error (`Module.resolve_eq_resolveIn`).  This
takes that no two binders share a scope, and so that the module has at most 2 ^ 32 binders: with one
more, a binder can be seen from a place that it does not enclose.

`Refines` relates two computations at a place with the enclosing binders `env`, the first of which
meets at most `n` more binders.  From any state that tracks `env`, in which there is room for these,
they fail alike, or give the same value and leave a state that still tracks `env` and has the same
next number.  There is one lemma for each way to put computations together, and the theorems about
syntax follow the definitions with them.
-/

namespace NameResolution

/-! ### Meanings -/

namespace Context

variable {ctx : Context}

/-- **What a variable means depends on the enclosing binders alone**, if no two binders share a
scope. -/
theorem variableAt_eq_variableIn {env : List Name} {binders : Binders}
    (htracks : Tracks ctx.owner env binders) (hdistinct : binders.Distinct) (node : NodeId)
    (name : Name) :
    ctx.variableAt binders (innermost ctx.owner env) node name = ctx.variableIn env node name := by
  rw [variableAt, variableIn, htracks.isVisible_eq hdistinct, htracks.lookup_eq hdistinct]
  by_cases hqualified : name.isQualified = true
  · -- The scope of a visible binder is one of those of `env`, and no other binder has that scope.
    rw [if_pos hqualified, if_pos hqualified]
    by_cases henv : name ∈ env
    · rw [if_pos (List.contains_iff_mem.mpr henv), if_pos henv]
    · rw [if_neg (fun hmem => henv (List.contains_iff_mem.mp hmem)), if_neg henv]
  · refine (if_neg hqualified).trans (Eq.trans ?_ (if_neg hqualified).symm)
    cases ctx.interfaces.hasDecl ctx.owner name.ident with
    | true => rfl
    | false => cases env.find? (·.ident == name.ident) <;> rfl

end Context

/-! ### Outcomes -/

/-- The outcomes from `binders` that belong together: the same failure, or the same value with all
binders kept, at most `n` more met, the same number next, and as many nodes open as before. -/
inductive Matches (owner : Namespace) (binders : Binders) (n depth : Nat) {α : Type} :
    Except Failure (α × ScopeState) → Except Error (α × UInt32) → Prop
  | error (e : Error) : Matches owner binders n depth (.error (.error e)) (.error e)
  | ok (a : α) {later : Binders} (hnumbered : later.WellNumbered owner)
      (hsubset : binders.names ⊆ later.names)
      (hlength : later.names.length ≤ binders.names.length + n) :
      Matches owner binders n depth (.ok (a, ⟨later, depth⟩)) (.ok (a, later.count))

/-- An outcome from later binders is one from earlier binders. -/
theorem Matches.of_later {owner : Namespace} {binders later : Binders} {n k depth : Nat} {α : Type}
    {x : Except Failure (α × ScopeState)} {y : Except Error (α × UInt32)}
    (h : Matches owner later k depth x y) (hsubset : binders.names ⊆ later.names)
    (hlength : later.names.length + k ≤ binders.names.length + n) :
    Matches owner binders n depth x y := by
  cases h with
  | error e => exact .error e
  | ok a hnumbered hlater hmore =>
    exact .ok a hnumbered (List.Subset.trans hsubset hlater) (Nat.le_trans hmore hlength)

/-- The values of outcomes that belong together are the same. -/
theorem Matches.bind_fst {owner : Namespace} {binders : Binders} {n depth : Nat} {α β : Type}
    {x : Except Failure (α × ScopeState)} {y : Except Error (α × UInt32)}
    (h : Matches owner binders n depth x y) (f : α → β) :
    (do return f (← x).1) = Except.mapError Failure.error (do return f (← y).1) := by
  cases h with
  | error e => rfl
  | ok a hnumbered hsubset hlength => rfl

/-- From every state that tracks `env` and has room for `n` more binders, with `depth` nodes open,
the outcomes belong together. -/
def Refines (owner : Namespace) (env : List Name) (n depth : Nat) {α : Type} (x : Resolution α)
    (y : Counted α) : Prop :=
  ∀ binders, Tracks owner env binders → binders.names.length + n ≤ UInt32.size →
    Matches owner binders n depth (x.run ⟨binders, depth⟩) (y.run binders.count)

namespace Refines

variable {ctx : Context} {owner : Namespace} {env : List Name} {n k depth : Nat} {α β : Type}

theorem pure (a : α) : Refines owner env 0 depth (Pure.pure a) (Pure.pure a) := by
  intro binders htracks _
  exact .ok a htracks.wellNumbered (List.Subset.refl _) (Nat.le_refl _)

theorem bind {x : Resolution α} {y : Counted α} {f : α → Resolution β} {g : α → Counted β}
    (h : Refines owner env n depth x y) (hf : ∀ a, Refines owner env k depth (f a) (g a)) :
    Refines owner env (n + k) depth (x >>= f) (y >>= g) := by
  intro binders htracks hroom
  have hx := h binders htracks (by omega)
  rw [StateT.run_bind, StateT.run_bind]
  generalize x.run ⟨binders, depth⟩ = outcome, y.run binders.count = expected at hx
  cases hx with
  | error e => exact .error e
  | ok a hnumbered hsubset hlength =>
    -- The second computation starts with more binders, which still track `env`.
    have hlater := htracks.of_subset hnumbered hsubset
    exact (hf a _ hlater (by omega)).of_later hsubset (by omega)

theorem bind_pure {x : Resolution α} {y : Counted α} (h : Refines owner env n depth x y)
    (f : α → β) :
    Refines owner env n depth (do return f (← x)) (do return f (← y)) :=
  h.bind fun a => pure (f a)

/-- A computation that binds nothing, before another one. -/
theorem bind_right {x : Resolution α} {y : Counted α} {f : α → Resolution β} {g : α → Counted β}
    (h : Refines owner env 0 depth x y) (hf : ∀ a, Refines owner env n depth (f a) (g a)) :
    Refines owner env n depth (x >>= f) (y >>= g) := by
  rw [← Nat.zero_add n]
  exact h.bind hf

/-- What reads no state. -/
theorem lift {x : Except Failure α} {y : Except Error α} (h : x = y.mapError .error) :
    Refines owner env 0 depth (liftM x) (liftM y) := by
  intro binders htracks _
  subst h
  cases y with
  | error e => exact .error e
  | ok a => exact .ok a htracks.wellNumbered (List.Subset.refl _) (Nat.le_refl _)

/-- A binder encloses what is resolved after it. -/
theorem bindName {ident : String} {f : Name → Resolution β} {g : Name → Counted β}
    (hf : ∀ name, Refines owner (name :: env) n depth (f name) (g name)) :
    Refines owner env (n + 1) depth (Resolution.bindName (innermost owner env) ident >>= f)
      (Counted.bindName owner env ident >>= g) := by
  intro binders htracks hroom
  -- The binder takes up one place, and leaves room for the rest.
  have hlength : (binders.bind (innermost owner env) ident).2.names.length =
      binders.names.length + 1 := rfl
  have hlater := hf _ _ (htracks.bind ident) (by omega)
  exact hlater.of_later (List.subset_cons_self ..) (by omega)

/-- The fields of a pattern enclose what is resolved after them, the last one innermost. -/
theorem bindFields {fields : List Name} {f : List Name × Namespace → Resolution β}
    {g : List Name → Counted β}
    (hf : ∀ names, Refines owner (names.reverse ++ env) n depth
      (f (names, innermost owner (names.reverse ++ env))) (g names)) :
    Refines owner env (n + fields.length) depth
      (Resolution.bindFields (innermost owner env) fields >>= f)
      (Counted.bindFields owner env fields >>= g) := by
  induction fields generalizing env f g with
  | nil => exact hf []
  | cons field rest ih =>
    -- The first field is one more binder around the rest, and comes last in the reversed list.
    rw [Resolution.bindFields, Counted.bindFields, bind_assoc, bind_assoc]
    refine bindName fun name => ?_
    rw [bind_assoc, bind_assoc]
    refine ih fun names => ?_
    have hnames := hf (name :: names)
    rw [List.reverse_cons, List.append_assoc] at hnames
    exact hnames

/-- A node is closed again when what it holds has been resolved. -/
theorem nested {node : NodeId} {x : Resolution α} {y : Counted α}
    (h : Refines owner env n (depth + 1) x y) :
    Refines owner env n depth (Resolution.nested ctx.limit node x)
      (do ctx.checkDepth depth node; y) := by
  intro binders htracks hroom
  rw [Resolution.run_nested, StateT.run_bind, Context.checkDepth]
  by_cases hdepth : depth < ctx.limit.toNat
  · rw [if_pos hdepth, if_pos hdepth]
    have hx := h binders htracks hroom
    show Matches owner binders n depth _ (y.run binders.count)
    generalize x.run ⟨binders, depth + 1⟩ = outcome, y.run binders.count = expected at hx
    cases hx with
    | error e => exact .error e
    | ok a hnumbered hsubset hlength => exact .ok a hnumbered hsubset hlength
  · rw [if_neg hdepth, if_neg hdepth]
    exact .error _

end Refines

/-! ### Types and patterns -/

variable {ctx : Context} {owner : Namespace} {env : List Name}

mutual

theorem Ty.refines_resolveIn (hctx : ctx.Grounded) (depth : Nat) : (type : Ty) →
    Refines owner env 0 depth (type.resolve ctx) (liftM (type.resolveIn ctx depth))
  | .var id ident => by
    rw [Ty.resolve, Ty.resolveIn, liftM_bind, liftM_pure]
    exact Refines.nested (Refines.pure _)
  | .con id name args => by
    simp only [Ty.resolve, Ty.resolveIn, liftM_bind, liftM_pure]
    have hname := Context.typeMeaning_eq hctx id name
    refine Refines.nested (Refines.bind_right (Refines.lift hname) fun name => ?_)
    exact (Ty.refines_resolveListIn hctx (depth + 1) args).bind_pure _
  | .arrow id param result => by
    simp only [Ty.resolve, Ty.resolveIn, liftM_bind, liftM_pure]
    refine Refines.nested ((Ty.refines_resolveIn hctx (depth + 1) param).bind_right fun param => ?_)
    exact (Ty.refines_resolveIn hctx (depth + 1) result).bind_pure _

theorem Ty.refines_resolveListIn (hctx : ctx.Grounded) (depth : Nat) : (types : List Ty) →
    Refines owner env 0 depth (Ty.resolveList ctx types) (liftM (Ty.resolveListIn ctx depth types))
  | [] => Refines.pure []
  | type :: rest => by
    simp only [Ty.resolveList, Ty.resolveListIn, liftM_bind, liftM_pure]
    refine (Ty.refines_resolveIn hctx depth type).bind_right fun type => ?_
    exact (Ty.refines_resolveListIn hctx depth rest).bind_pure _

end

/-- The binders of a pattern enclose what is resolved after it. -/
theorem Refines.pattern (hctx : ctx.Grounded) {n depth : Nat} {β : Type} (pattern : Pattern)
    {f : Pattern × Namespace → Resolution β} {g : Pattern → Counted β}
    (hf : ∀ p, Refines ctx.owner (p.extend env) n depth (f (p, innermost ctx.owner (p.extend env)))
      (g p)) :
    Refines ctx.owner env (n + pattern.binders.length) depth
      (pattern.resolve ctx (innermost ctx.owner env) >>= f) (pattern.resolveIn ctx env >>= g) := by
  cases pattern with
  | lit id value => exact hf (.lit id value)
  | wildcard id => exact hf (.wildcard id)
  | bind id name =>
    rw [Pattern.resolve, Pattern.resolveIn, bind_assoc, bind_assoc]
    exact Refines.bindName fun name => hf (.bind id name)
  | variant id type ctor fields =>
    rw [Pattern.resolve, Pattern.resolveIn, bind_assoc, bind_assoc]
    refine Refines.bind_right (Refines.lift (Context.typeMeaning_eq hctx id type)) fun type => ?_
    rw [bind_assoc, bind_assoc]
    exact Refines.bindFields fun names => hf (.variant id type ctor names)

/-! ### Expressions -/

/-- A variable means to the binders met so far what it means to the enclosing ones: there are not so
many that two of them share a scope. -/
theorem Refines.variable (hctx : ctx.Grounded) {n depth : Nat} {β : Type} (node : NodeId)
    (name : Name) {f : Name → Resolution β} {g : Name → Counted β}
    (hf : ∀ name, Refines ctx.owner env n depth (f name) (g name)) :
    Refines ctx.owner env n depth
      (do f (← ctx.variableMeaning (← get).binders (innermost ctx.owner env) node name))
      (do g (← ctx.variableIn env node name)) := by
  intro binders htracks hroom
  have hdistinct := htracks.wellNumbered.distinct (by omega)
  have hmeaning :=
    Context.variableMeaning_eq hctx binders htracks.chain.owner_encloses node name
  rw [Context.variableAt_eq_variableIn htracks hdistinct] at hmeaning
  exact Refines.bind_right (Refines.lift hmeaning) hf binders htracks hroom

mutual

theorem Expr.refines_resolveIn (hctx : ctx.Grounded) (env : List Name) (depth : Nat) :
    (e : Expr) → Refines ctx.owner env e.binderCount depth
      (e.resolve ctx (innermost ctx.owner env)) (e.resolveIn ctx env depth)
  | .lit id value => by
    rw [Expr.resolve, Expr.resolveIn, Expr.binderCount]
    exact Refines.nested (Refines.pure _)
  | .var id name => by
    rw [Expr.resolve, Expr.resolveIn, Expr.binderCount]
    exact Refines.nested (Refines.variable hctx id name fun name => Refines.pure _)
  | .app id func arg => by
    rw [Expr.resolve, Expr.resolveIn, Expr.binderCount]
    refine Refines.nested ((Expr.refines_resolveIn hctx env (depth + 1) func).bind fun func => ?_)
    exact (Expr.refines_resolveIn hctx env (depth + 1) arg).bind_pure _
  | .lambda id param body => by
    rw [Expr.resolve, Expr.resolveIn, Expr.binderCount]
    refine Refines.nested (Refines.bindName fun param => ?_)
    exact (Expr.refines_resolveIn hctx (param :: env) (depth + 1) body).bind_pure _
  | .annot id expr type => by
    rw [Expr.resolve, Expr.resolveIn, Expr.binderCount]
    have hexpr := Expr.refines_resolveIn hctx env (depth + 1) expr
    refine Refines.nested (hexpr.bind (k := 0) fun expr => ?_)
    exact (Ty.refines_resolveIn hctx (depth + 1) type).bind_pure _
  | .letIn id binder bound body => by
    rw [Expr.resolve, Expr.resolveIn, Expr.binderCount]
    refine Refines.nested ((Expr.refines_resolveIn hctx env (depth + 1) bound).bind fun bound => ?_)
    refine Refines.bindName fun binder => ?_
    exact (Expr.refines_resolveIn hctx (binder :: env) (depth + 1) body).bind_pure _
  | .ifThenElse id cond thenBranch elseBranch => by
    rw [Expr.resolve, Expr.resolveIn, Expr.binderCount]
    refine Refines.nested ((Expr.refines_resolveIn hctx env (depth + 1) cond).bind fun cond => ?_)
    refine (Expr.refines_resolveIn hctx env (depth + 1) thenBranch).bind fun thenBranch => ?_
    exact (Expr.refines_resolveIn hctx env (depth + 1) elseBranch).bind_pure _
  | .matchWith id scrutinee arms => by
    rw [Expr.resolve, Expr.resolveIn, Expr.binderCount]
    refine Refines.nested ((Expr.refines_resolveIn hctx env (depth + 1) scrutinee).bind ?_)
    intro scrutinee
    exact (Arm.refines_resolveListIn hctx env (depth + 1) arms).bind_pure _

theorem Arm.refines_resolveIn (hctx : ctx.Grounded) (env : List Name) (depth : Nat) :
    (arm : Arm) → Refines ctx.owner env arm.binderCount depth
      (arm.resolve ctx (innermost ctx.owner env)) (arm.resolveIn ctx env depth)
  | ⟨pattern, body⟩ => by
    rw [Arm.resolve, Arm.resolveIn, Arm.binderCount]
    refine Refines.pattern hctx pattern fun pattern => ?_
    exact (Expr.refines_resolveIn hctx (pattern.extend env) depth body).bind_pure _

theorem Arm.refines_resolveListIn (hctx : ctx.Grounded) (env : List Name) (depth : Nat) :
    (arms : List Arm) → Refines ctx.owner env (Arm.listBinderCount arms) depth
      (Arm.resolveList ctx (innermost ctx.owner env) arms) (Arm.resolveListIn ctx env depth arms)
  | [] => Refines.pure []
  | arm :: rest => by
    rw [Arm.resolveList, Arm.resolveListIn, Arm.listBinderCount]
    refine (Arm.refines_resolveIn hctx env depth arm).bind fun arm => ?_
    exact (Arm.refines_resolveListIn hctx env depth rest).bind_pure _

end

/-! ### Declarations and modules -/

theorem Constructor.refines_resolveListIn (hctx : ctx.Grounded) : (ctors : List Constructor) →
    Refines owner env 0 0 (Constructor.resolveList ctx ctors)
      (liftM (Constructor.resolveListIn ctx ctors))
  | [] => Refines.pure []
  | ctor :: rest => by
    simp only [Constructor.resolveList, Constructor.resolve, Constructor.resolveListIn, liftM_bind,
      liftM_pure, bind_assoc, pure_bind]
    refine (Ty.refines_resolveListIn hctx 0 ctor.fields).bind_right fun fields => ?_
    exact (Constructor.refines_resolveListIn hctx rest).bind_pure _

theorem Decl.refines_resolveSignatureIn (hctx : ctx.Grounded) (signature : Option Ty) :
    Refines owner env 0 0 (Decl.resolveSignature ctx signature)
      (liftM (Decl.resolveSignatureIn ctx signature)) := by
  cases signature with
  | none => exact Refines.pure none
  | some type =>
    simp only [Decl.resolveSignature, Decl.resolveSignatureIn, liftM_bind, liftM_pure]
    exact (Ty.refines_resolveIn hctx 0 type).bind_pure _

theorem Decl.refines_resolveIn (hctx : ctx.Grounded) (decl : Decl) :
    Refines ctx.owner [] decl.binderCount 0 (decl.resolve ctx) (decl.resolveIn ctx) := by
  cases decl with
  | value id ident signature body =>
    rw [Decl.resolve, Decl.resolveIn, Decl.binderCount]
    refine (Decl.refines_resolveSignatureIn hctx signature).bind_right fun signature => ?_
    exact (Expr.refines_resolveIn hctx [] 0 body).bind_pure _
  | data id ident params ctors =>
    rw [Decl.resolve, Decl.resolveIn, Decl.binderCount]
    exact (Constructor.refines_resolveListIn hctx ctors).bind_pure _

theorem Decl.refines_resolveListIn (hctx : ctx.Grounded) : (decls : List Decl) →
    Refines ctx.owner [] (Decl.listBinderCount decls) 0 (Decl.resolveList ctx decls)
      (Decl.resolveListIn ctx decls)
  | [] => Refines.pure []
  | decl :: rest => by
    rw [Decl.resolveList, Decl.resolveListIn, Decl.listBinderCount]
    refine (Decl.refines_resolveIn hctx decl).bind fun decl => ?_
    exact (Decl.refines_resolveListIn hctx rest).bind_pure _

/-- **Resolving a module is resolving it in an explicit environment**: a module with at most 2 ^ 32
binders gives the same module, or the same first error, whatever the table of interfaces is, if only
the imports in reach are found. -/
theorem Module.resolve_eq_resolveIn {interfaces : Interfaces} {m : Module} {reach : List Import}
    (h : interfaces.reach m.ns = .ok reach) (hfew : m.binderCount ≤ UInt32.size) (limit : UInt32) :
    m.resolve interfaces limit = (m.resolveIn interfaces reach limit).mapError .error := by
  have hctx := Context.grounded_of_reach h limit
  have hroom : Binders.empty.names.length + Decl.listBinderCount m.decls ≤ UInt32.size := by
    rw [Binders.empty, List.length_nil, Nat.zero_add]
    exact hfew
  have hdecls :=
    Decl.refines_resolveListIn hctx m.decls .empty (Tracks.initial m.ns) hroom
  rw [Module.resolve, h, Module.resolveIn]
  exact hdecls.bind_fst fun decls => { m with decls }

/-- A binder that shadows another one, an occurrence of the outer one by its full name, and an
identifier that comes from an import. -/
theorem Module.resolve_eq_resolveIn_shadowed :
    let interfaces : Interfaces :=
      ⟨[⟨⟨["Main"]⟩, [⟨⟨1⟩, ⟨["Lib"]⟩⟩], [], ["f"]⟩, ⟨⟨["Lib"]⟩, [], [.decl ⟨2⟩ "g"], ["g"]⟩]⟩
    let outer : Expr := .var ⟨5⟩ (Namespace.name ⟨["Main", "#0"]⟩ "x")
    let inner : Expr := .app ⟨6⟩ (.var ⟨7⟩ (.unqualified "x")) (.var ⟨8⟩ (.unqualified "g"))
    let body : Expr :=
      .lambda ⟨3⟩ (.unqualified "x") (.lambda ⟨4⟩ (.unqualified "x") (.app ⟨9⟩ outer inner))
    let m : Module := ⟨⟨0⟩, ⟨["Main"]⟩, [⟨⟨1⟩, ⟨["Lib"]⟩⟩], [], [.value ⟨2⟩ "f" none body]⟩
    interfaces.reach m.ns = .ok m.imports ∧ m.binderCount ≤ UInt32.size ∧
      m.resolve interfaces 512 = (m.resolveIn interfaces m.imports 512).mapError .error := by
  intro interfaces outer inner body m
  have hreach : interfaces.reach m.ns = .ok m.imports := by cbv
  have hfew : m.binderCount ≤ UInt32.size := by decide
  exact ⟨hreach, hfew, Module.resolve_eq_resolveIn hreach hfew 512⟩

/-! ### One binder more -/

/-- Arms are resolved until one of them fails. -/
theorem Arm.run_resolveListIn_append {ctx : Context} {env : List Name} {depth : Nat}
    {arms rest : List Arm} {e : Error}
    (harms : ∀ arm ∈ arms, ∀ k, ∃ r, (arm.resolveIn ctx env depth).run k = .ok r)
    (hrest : ∀ k, (Arm.resolveListIn ctx env depth rest).run k = .error e) (k : UInt32) :
    (Arm.resolveListIn ctx env depth (arms ++ rest)).run k = .error e := by
  induction arms generalizing k with
  | nil => exact hrest k
  | cons arm arms ih =>
    obtain ⟨harm, harms⟩ := List.forall_mem_cons.mp harms
    obtain ⟨⟨arm', k'⟩, hk⟩ := harm k
    rw [List.cons_append, Arm.resolveListIn, StateT.run_bind, hk]
    show StateT.run (do return arm' :: (← Arm.resolveListIn ctx env depth _)) k' = _
    rw [StateT.run_bind, ih harms k']
    rfl

/-- A module that matches a value fails where its arms do. -/
theorem Module.resolveIn_matching {interfaces : Interfaces} {reach : List Import} {arms : List Arm}
    {e : Error}
    (harms : (Arm.resolveListIn ⟨interfaces, ⟨["Main"]⟩, reach, 512⟩ [] 1 arms).run 0 = .error e) :
    (Module.matching arms).resolveIn interfaces reach 512 = .error e := by
  set ctx : Context := ⟨interfaces, ⟨["Main"]⟩, reach, 512⟩
  have hmatch :
      (Expr.resolveIn ctx [] 0 (.matchWith ⟨2⟩ (.lit ⟨3⟩ .unit) arms)).run 0 = .error e := by
    rw [Expr.resolveIn, StateT.run_bind]
    refine bind_eq_error_iff.mpr (Or.inr ⟨((), 0), rfl, ?_⟩)
    rw [StateT.run_bind]
    refine bind_eq_error_iff.mpr (Or.inr ⟨(.lit ⟨3⟩ .unit, 0), rfl, ?_⟩)
    rw [StateT.run_bind]
    exact bind_eq_error_iff.mpr (Or.inl harms)
  refine bind_eq_error_iff.mpr (Or.inl ?_)
  rw [Module.matching, Decl.resolveListIn, StateT.run_bind, Decl.resolveIn, StateT.run_bind]
  refine bind_eq_error_iff.mpr (Or.inl (bind_eq_error_iff.mpr (Or.inr ⟨(none, 0), rfl, ?_⟩)))
  rw [StateT.run_bind]
  exact bind_eq_error_iff.mpr (Or.inl hmatch)

/-- In a match with 2 ^ 32 + 1 arms that bind one identifier each, the last arm uses the identifier
that the first arm binds.  Nothing around it is called so, but it is taken for the first binder. -/
theorem Module.resolve_ne_resolveIn_repeated_scope :
    let interfaces : Interfaces := ⟨[⟨⟨["Main"]⟩, [], [], ["f"]⟩]⟩
    let m : Module := .matching (Arm.farApart (.binding (.unqualified "a") (.lit ⟨5⟩ .unit))
      (.binding (.unqualified "c") (.var ⟨6⟩ (.unqualified "a"))))
    interfaces.reach m.ns = .ok [] ∧ (∃ m', m.resolve interfaces 512 = .ok m') ∧
      m.resolveIn interfaces [] 512 =
        .error (.undefinedName ⟨6⟩ (.unqualified "a") .value ⟨["Main"]⟩ .unbound) := by
  intro interfaces m
  have hreach : interfaces.reach ⟨["Main"]⟩ = .ok [] := by cbv
  refine ⟨hreach, ?_, ?_⟩
  · have hdepth : 1 < (512 : UInt32).toNat := by decide
    obtain ⟨others, hresolve, -⟩ := Module.exists_resolve_matching (a := "a") (c := "c") hreach
      (fun b _ => .lit hdepth) fun b hbound =>
        .var hdepth (Context.variableAt_of_mem rfl (by decide) hbound ⟨6⟩)
    exact ⟨_, hresolve⟩
  · refine Module.resolveIn_matching ?_
    rw [Arm.farApart, ← List.cons_append]
    refine Arm.run_resolveListIn_append (fun arm harm k => ?_) (fun k => rfl) 0
    rcases List.mem_cons.mp harm with rfl | harm
    · exact ⟨_, rfl⟩
    · obtain rfl := List.eq_of_mem_replicate harm
      exact ⟨_, rfl⟩

end NameResolution
