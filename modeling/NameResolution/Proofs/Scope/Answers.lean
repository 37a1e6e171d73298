import NameResolution.Proofs.Scope.Occurrence

/-!
# Which lookup a failure answers

If resolving a module fails, then some node of it nests too deeply, or the failure is what the
resolver answers to an occurrence of the module (`Module.answers_of_resolve`): in a state in which
all binders around the occurrence have been met, and in the scope of the innermost of them.

A computation `FailsAmong` occurrences if this holds of each of its failures, from every state that
tracks the binders `env`, and if whatever it leaves behind tracks them still.  So the occurrences of
a sequence are those of its parts one after the other, as they are in `Expr.occurrences`.  What is
known of `env` is that its binders have the identifiers of those that stand around the occurrence in
the source.
-/

namespace NameResolution

/-! ### Lookups -/

namespace Occurrence

/-- What the resolver answers to the occurrence in the scope `lexical`, with the binders that have
been met so far. -/
def lookUp (ctx : Context) (binders : Binders) (lexical : Namespace) :
    Occurrence → Except Failure Name
  | value node name _ => ctx.variableMeaning binders lexical node name
  | type node name => ctx.typeMeaning node name

/-- The identifiers that are bound around the occurrence, innermost first.  Types know none. -/
def bound : Occurrence → List String
  | value _ _ enclosing => enclosing.map Name.ident
  | type .. => []

end Occurrence

/-- The failure is for want of depth, or the answer to one of the occurrences in a state that tracks
the binders around it. -/
inductive Context.Answers (ctx : Context) (occurrences : List Occurrence) : Failure → Prop
  | tooDeep (node : NodeId) : Answers ctx occurrences (.error (.nestedTooDeeply node))
  | lookUp {o : Occurrence} {env : List Name} {binders : Binders} {failure : Failure}
      (ho : o ∈ occurrences) (hbound : env.map Name.ident = o.bound)
      (htracks : Tracks ctx.owner env binders)
      (hfails : o.lookUp ctx binders (innermost ctx.owner env) = .error failure) :
      Answers ctx occurrences failure

theorem Context.Answers.mono {ctx : Context} {occurrences occurrences' : List Occurrence}
    {failure : Failure} (h : ctx.Answers occurrences failure)
    (hsubset : occurrences ⊆ occurrences') : ctx.Answers occurrences' failure := by
  cases h with
  | tooDeep node => exact .tooDeep node
  | lookUp ho hbound htracks hfails => exact .lookUp (hsubset ho) hbound htracks hfails

/-! ### Computations that fail among occurrences -/

/-- From every state that tracks `env`, each failure of the computation answers one of the
occurrences, and a success keeps all binders. -/
structure FailsAmong (ctx : Context) (env : List Name) (occurrences : List Occurrence) {α : Type}
    (x : Resolution α) : Prop where
  answers : ∀ s failure, Tracks ctx.owner env s.binders → x.run s = .error failure →
    ctx.Answers occurrences failure
  grows : ∀ s a later, Tracks ctx.owner env s.binders → x.run s = .ok (a, later) →
    later.binders.WellNumbered ctx.owner ∧ s.binders.names ⊆ later.binders.names

namespace FailsAmong

variable {ctx : Context} {env : List Name} {occurrences occurrences' : List Occurrence}
  {α β : Type}

theorem pure (a : α) : FailsAmong ctx env [] (Pure.pure a) where
  answers := by rintro s failure - ⟨⟩
  grows := by
    rintro s _ _ htracks ⟨⟩
    exact ⟨htracks.wellNumbered, List.Subset.refl _⟩

theorem bind {x : Resolution α} {f : α → Resolution β} (hx : FailsAmong ctx env occurrences x)
    (hf : ∀ a, FailsAmong ctx env occurrences' (f a)) :
    FailsAmong ctx env (occurrences ++ occurrences') (x >>= f) where
  answers := by
    intro s failure htracks h
    rw [StateT.run_bind] at h
    rcases bind_eq_error_iff.mp h with h | ⟨⟨a, later⟩, ha, h⟩
    · exact (hx.answers s failure htracks h).mono (List.subset_append_left ..)
    · obtain ⟨hnumbered, hsubset⟩ := hx.grows s a later htracks ha
      have hlater := htracks.of_subset hnumbered hsubset
      exact ((hf a).answers later failure hlater h).mono (List.subset_append_right ..)
  grows := by
    intro s b last htracks h
    rw [StateT.run_bind] at h
    obtain ⟨⟨a, later⟩, ha, hb⟩ := bind_eq_ok_iff.mp h
    obtain ⟨hnumbered, hsubset⟩ := hx.grows s a later htracks ha
    obtain ⟨hlast, hsubset'⟩ := (hf a).grows later b last (htracks.of_subset hnumbered hsubset) hb
    exact ⟨hlast, List.Subset.trans hsubset hsubset'⟩

theorem bind_pure {x : Resolution α} (hx : FailsAmong ctx env occurrences x) (f : α → β) :
    FailsAmong ctx env occurrences (do return f (← x)) := by
  have hbind := hx.bind fun a => @pure ctx env β (f a)
  rwa [List.append_nil] at hbind

/-- What reads no state. -/
theorem lift {x : Except Failure α}
    (h : ∀ binders failure, Tracks ctx.owner env binders → x = .error failure →
      ctx.Answers occurrences failure) :
    FailsAmong ctx env occurrences (liftM x) where
  answers := by
    intro s failure htracks hfails
    rcases bind_eq_error_iff.mp hfails with hfails | ⟨a, -, ⟨⟩⟩
    exact h s.binders failure htracks hfails
  grows := by
    intro s a later htracks hrun
    obtain ⟨b, -, ⟨⟩⟩ := bind_eq_ok_iff.mp hrun
    exact ⟨htracks.wellNumbered, List.Subset.refl _⟩

/-- The name of a type is looked up without any binders. -/
theorem typeMeaning (node : NodeId) (name : Name) :
    FailsAmong ctx env [.type node name] (liftM (ctx.typeMeaning node name)) := by
  refine lift fun binders failure htracks hfails => ?_
  have hnone : Tracks ctx.owner [] binders := ⟨htracks.wellNumbered, .nil, by simp⟩
  exact .lookUp List.mem_cons_self rfl hnone hfails

/-- What reads the state first. -/
theorem get {f : ScopeState → Resolution α}
    (hf : ∀ s, Tracks ctx.owner env s.binders → FailsAmong ctx env occurrences (f s)) :
    FailsAmong ctx env occurrences (MonadState.get >>= f) where
  answers s failure htracks h := (hf s htracks).answers s failure htracks h
  grows s a later htracks h := (hf s htracks).grows s a later htracks h

/-- A variable is looked up among binders that track the ones around it. -/
theorem variableMeaning {given : List Name} (henv : env.map Name.ident = given.map Name.ident)
    {binders : Binders} (htracks : Tracks ctx.owner env binders) (node : NodeId) (name : Name) :
    FailsAmong ctx env [.value node name given]
      (liftM (ctx.variableMeaning binders (innermost ctx.owner env) node name)) :=
  lift fun _ _ _ hfails => .lookUp List.mem_cons_self henv htracks hfails

/-- A binder stands around what is resolved after it. -/
theorem bindName {ident : String} {f : Name → Resolution β}
    (hf : ∀ name : Name, name.ident = ident → FailsAmong ctx (name :: env) occurrences (f name)) :
    FailsAmong ctx env occurrences (Resolution.bindName (innermost ctx.owner env) ident >>= f) where
  answers s failure htracks h := (hf _ rfl).answers _ failure (htracks.bind ident) h
  grows s b last htracks h := by
    obtain ⟨hnumbered, hsubset⟩ := (hf _ rfl).grows _ b last (htracks.bind ident) h
    exact ⟨hnumbered, List.Subset.trans (List.subset_cons_self ..) hsubset⟩

/-- The fields of a pattern stand around what is resolved after them, the last one innermost. -/
theorem bindFields {fields : List Name} {f : List Name × Namespace → Resolution β}
    (hf : ∀ names : List Name, names.map Name.ident = fields.map Name.ident →
      FailsAmong ctx (names.reverse ++ env) occurrences
        (f (names, innermost ctx.owner (names.reverse ++ env)))) :
    FailsAmong ctx env occurrences
      (Resolution.bindFields (innermost ctx.owner env) fields >>= f) := by
  induction fields generalizing env f with
  | nil => exact hf [] rfl
  | cons field rest ih =>
    rw [Resolution.bindFields, bind_assoc]
    refine bindName fun name hname => ?_
    rw [bind_assoc]
    refine ih fun names hnames => ?_
    have hfields : (name :: names).map Name.ident = (field :: rest).map Name.ident := by
      rw [List.map_cons, List.map_cons, hname, hnames]
    have hall := hf (name :: names) hfields
    rw [List.reverse_cons, List.append_assoc] at hall
    exact hall

/-- To open a node fails for want of depth only. -/
theorem nested {limit : UInt32} {node : NodeId} {x : Resolution α}
    (hx : FailsAmong ctx env occurrences x) :
    FailsAmong ctx env occurrences (Resolution.nested limit node x) where
  answers := by
    rintro ⟨binders, depth⟩ failure htracks h
    rw [Resolution.run_nested] at h
    by_cases hdepth : depth < limit.toNat
    · rw [if_pos hdepth] at h
      cases hrun : x.run ⟨binders, depth + 1⟩ with
      | error failure' =>
        rw [hrun] at h
        cases h
        exact hx.answers ⟨binders, depth + 1⟩ failure htracks hrun
      | ok r =>
        rw [hrun] at h
        cases h
    · rw [if_neg hdepth] at h
      cases h
      exact .tooDeep node
  grows := by
    rintro ⟨binders, depth⟩ a later htracks h
    rw [Resolution.run_nested] at h
    by_cases hdepth : depth < limit.toNat
    · rw [if_pos hdepth] at h
      obtain ⟨⟨b, inside⟩, hrun, ⟨⟩⟩ := map_eq_ok_iff.mp h
      exact hx.grows ⟨binders, depth + 1⟩ b inside htracks hrun
    · rw [if_neg hdepth] at h
      cases h

end FailsAmong

/-! ### Types and patterns -/

variable {ctx : Context} {env : List Name}

mutual

theorem Ty.failsAmong_resolve : (type : Ty) →
    FailsAmong ctx env type.occurrences (type.resolve ctx)
  | .var id ident => by
    rw [Ty.resolve, Ty.occurrences]
    exact .nested (.pure _)
  | .con id name args => by
    rw [Ty.resolve, Ty.occurrences]
    refine .nested ((FailsAmong.typeMeaning id name).bind fun name' => ?_)
    exact (Ty.failsAmong_resolveList args).bind_pure _
  | .arrow id param result => by
    rw [Ty.resolve, Ty.occurrences]
    refine .nested (param.failsAmong_resolve.bind fun param' => ?_)
    exact result.failsAmong_resolve.bind_pure _

theorem Ty.failsAmong_resolveList : (types : List Ty) →
    FailsAmong ctx env (Ty.listOccurrences types) (Ty.resolveList ctx types)
  | [] => by
    rw [Ty.resolveList, Ty.listOccurrences]
    exact .pure _
  | type :: rest => by
    rw [Ty.resolveList, Ty.listOccurrences]
    refine type.failsAmong_resolve.bind fun type' => ?_
    exact (Ty.failsAmong_resolveList rest).bind_pure _

end

/-- The binders of a pattern stand around what is resolved after it. -/
theorem FailsAmong.pattern {β : Type} {given : List Name} {occurrences : List Occurrence}
    (henv : env.map Name.ident = given.map Name.ident) (pattern : Pattern)
    {f : Pattern × Namespace → Resolution β}
    (hf : ∀ p : Pattern, (p.extend env).map Name.ident = (pattern.extend given).map Name.ident →
      FailsAmong ctx (p.extend env) occurrences (f (p, innermost ctx.owner (p.extend env)))) :
    FailsAmong ctx env (pattern.occurrences ++ occurrences)
      (pattern.resolve ctx (innermost ctx.owner env) >>= f) := by
  cases pattern with
  | lit id value => exact hf (.lit id value) henv
  | wildcard id => exact hf (.wildcard id) henv
  | bind id name =>
    rw [Pattern.resolve, bind_assoc]
    refine bindName fun name' hname => hf (.bind id name') ?_
    show name'.ident :: env.map Name.ident = name.ident :: given.map Name.ident
    rw [hname, henv]
  | variant id type ctor fields =>
    rw [Pattern.resolve, bind_assoc]
    refine (FailsAmong.typeMeaning id type).bind fun type' => ?_
    rw [bind_assoc]
    refine bindFields fun names hnames => hf (.variant id type' ctor names) ?_
    show (names.reverse ++ env).map Name.ident = (fields.reverse ++ given).map Name.ident
    rw [List.map_append, List.map_append, List.map_reverse, List.map_reverse, hnames, henv]

/-! ### Expressions -/

/-- One more binder on both sides. -/
theorem map_ident_cons {given : List Name} (henv : env.map Name.ident = given.map Name.ident)
    {name binder : Name} (hname : name.ident = binder.ident) :
    (name :: env).map Name.ident = (binder :: given).map Name.ident := by
  rw [List.map_cons, List.map_cons, hname, henv]

mutual

theorem Expr.failsAmong_resolve {ctx : Context} {env given : List Name}
    (henv : env.map Name.ident = given.map Name.ident) : (e : Expr) →
    FailsAmong ctx env (e.occurrences given) (e.resolve ctx (innermost ctx.owner env))
  | .lit id value => by
    rw [Expr.resolve, Expr.occurrences]
    exact .nested (.pure _)
  | .var id name => by
    rw [Expr.resolve, Expr.occurrences]
    refine .nested (.get fun s htracks => ?_)
    exact (FailsAmong.variableMeaning henv htracks id name).bind_pure _
  | .app id func arg => by
    rw [Expr.resolve, Expr.occurrences]
    refine .nested ((func.failsAmong_resolve henv).bind fun func' => ?_)
    exact (arg.failsAmong_resolve henv).bind_pure _
  | .lambda id param body => by
    rw [Expr.resolve, Expr.occurrences]
    refine .nested (.bindName fun param' hparam => ?_)
    exact (body.failsAmong_resolve (map_ident_cons henv hparam)).bind_pure _
  | .annot id expr type => by
    rw [Expr.resolve, Expr.occurrences]
    refine .nested ((expr.failsAmong_resolve henv).bind fun expr' => ?_)
    exact type.failsAmong_resolve.bind_pure _
  | .letIn id binder bound body => by
    rw [Expr.resolve, Expr.occurrences]
    refine .nested ((bound.failsAmong_resolve henv).bind fun bound' => ?_)
    refine .bindName fun binder' hbinder => ?_
    exact (body.failsAmong_resolve (map_ident_cons henv hbinder)).bind_pure _
  | .ifThenElse id cond thenBranch elseBranch => by
    rw [Expr.resolve, Expr.occurrences]
    refine .nested ((cond.failsAmong_resolve henv).bind fun cond' => ?_)
    refine (thenBranch.failsAmong_resolve henv).bind fun thenBranch' => ?_
    exact (elseBranch.failsAmong_resolve henv).bind_pure _
  | .matchWith id scrutinee arms => by
    rw [Expr.resolve, Expr.occurrences]
    refine .nested ((scrutinee.failsAmong_resolve henv).bind fun scrutinee' => ?_)
    exact (Arm.failsAmong_resolveList henv arms).bind_pure _

theorem Arm.failsAmong_resolve {ctx : Context} {env given : List Name}
    (henv : env.map Name.ident = given.map Name.ident) : (arm : Arm) →
    FailsAmong ctx env (arm.occurrences given) (arm.resolve ctx (innermost ctx.owner env))
  | ⟨pattern, body⟩ => by
    rw [Arm.resolve, Arm.occurrences]
    exact .pattern henv pattern fun p hp => (body.failsAmong_resolve hp).bind_pure _

theorem Arm.failsAmong_resolveList {ctx : Context} {env given : List Name}
    (henv : env.map Name.ident = given.map Name.ident) : (arms : List Arm) →
    FailsAmong ctx env (Arm.listOccurrences given arms)
      (Arm.resolveList ctx (innermost ctx.owner env) arms)
  | [] => by
    rw [Arm.resolveList, Arm.listOccurrences]
    exact .pure _
  | arm :: rest => by
    rw [Arm.resolveList, Arm.listOccurrences]
    refine (arm.failsAmong_resolve henv).bind fun arm' => ?_
    exact (Arm.failsAmong_resolveList henv rest).bind_pure _

end

/-! ### Declarations and modules -/

theorem Constructor.failsAmong_resolveList (ctors : List Constructor) :
    FailsAmong ctx env (ctors.flatMap fun ctor => Ty.listOccurrences ctor.fields)
      (Constructor.resolveList ctx ctors) := by
  induction ctors with
  | nil => exact .pure _
  | cons ctor rest ih =>
    rw [Constructor.resolveList, Constructor.resolve, List.flatMap_cons, bind_assoc]
    refine (Ty.failsAmong_resolveList ctor.fields).bind fun fields' => ?_
    rw [pure_bind]
    exact ih.bind_pure _

theorem Decl.failsAmong_resolveSignature (signature : Option Ty) :
    FailsAmong ctx env (signature.elim [] Ty.occurrences)
      (Decl.resolveSignature ctx signature) := by
  cases signature with
  | none => exact .pure _
  | some type => exact type.failsAmong_resolve.bind_pure _

theorem Decl.failsAmong_resolve (decl : Decl) :
    FailsAmong ctx [] decl.occurrences (decl.resolve ctx) := by
  cases decl with
  | value id ident signature body =>
    rw [Decl.resolve, Decl.occurrences]
    refine (Decl.failsAmong_resolveSignature signature).bind fun signature' => ?_
    have henv : [].map Name.ident = [].map Name.ident := rfl
    exact (body.failsAmong_resolve henv).bind_pure _
  | data id ident params ctors =>
    rw [Decl.resolve, Decl.occurrences]
    exact (Constructor.failsAmong_resolveList ctors).bind_pure _

theorem Decl.failsAmong_resolveList (decls : List Decl) :
    FailsAmong ctx [] (decls.flatMap Decl.occurrences) (Decl.resolveList ctx decls) := by
  induction decls with
  | nil => exact .pure _
  | cons decl rest ih =>
    rw [Decl.resolveList, List.flatMap_cons]
    exact (Decl.failsAmong_resolve decl).bind fun decl' => ih.bind_pure _

/-- **Whatever a module fails with is the answer to one of its occurrences**, or some node of it
nests too deeply. -/
theorem Module.answers_of_resolve {interfaces : Interfaces} {limit : UInt32} {m : Module}
    {reach : List Import} {failure : Failure} (hreach : interfaces.reach m.ns = .ok reach)
    (h : m.resolve interfaces limit = .error failure) :
    Context.Answers ⟨interfaces, m.ns, reach, limit⟩ m.occurrences failure := by
  rw [Module.resolve, hreach] at h
  have hrun : ((Decl.resolveList ⟨interfaces, m.ns, reach, limit⟩ m.decls).run .initial >>=
      fun r => pure { m with decls := r.1 }) = .error failure := h
  rcases bind_eq_error_iff.mp hrun with hdecls | ⟨_, -, ⟨⟩⟩
  exact (Decl.failsAmong_resolveList m.decls).answers _ failure (Tracks.initial m.ns) hdecls

end NameResolution
