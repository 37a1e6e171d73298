import NameResolution.Proofs.Nodes
import NameResolution.Proofs.Scope.Derivation

/-!
# Where resolving a module can fail

If resolving a term fails with an error, then the error blames a node of that term; an ambiguous
name blames some imports in reach besides (`Expr.failsAt_resolve`).

A computation that `FailsAt` nodes has no error that blames any others.  This holds of a sequence as
soon as it holds of its parts, so that there is one case for each form of syntax: the check of its
depth, the lookup of its name and its parts all fail at nodes of it.
-/

namespace NameResolution

/-! ### Computations that fail at nodes -/

/-- Whatever error the computation has, it blames some of the nodes. -/
def FailsAt (nodes : List NodeId) {α : Type} (x : Except Error α) : Prop :=
  ∀ e, x = .error e → e.Blames nodes

theorem FailsAt.ok {nodes : List NodeId} {α : Type} (a : α) : FailsAt nodes (.ok a) := by
  rintro e ⟨⟩

namespace Resolution

variable {nodes : List NodeId} {α β : Type}

/-- Whatever error the computation has in any state, it blames some of the nodes. -/
def FailsAt (nodes : List NodeId) {α : Type} (x : Resolution α) : Prop :=
  ∀ s e, x.run s = .error (.error e) → e.Blames nodes

namespace FailsAt

theorem pure (a : α) : FailsAt nodes (pure a : Resolution α) := by
  rintro s e ⟨⟩

theorem bind {x : Resolution α} {f : α → Resolution β} (hx : FailsAt nodes x)
    (hf : ∀ a, FailsAt nodes (f a)) : FailsAt nodes (x >>= f) := by
  intro s e he
  rw [StateT.run_bind] at he
  rcases bind_eq_error_iff.mp he with he | ⟨a, -, he⟩
  · exact hx s e he
  · exact hf a.1 a.2 e he

theorem lift {x : Except Failure α} (hx : ∀ e, x = .error (.error e) → e.Blames nodes) :
    FailsAt nodes (liftM x : Resolution α) := by
  intro s e he
  rcases bind_eq_error_iff.mp he with he | ⟨a, -, ⟨⟩⟩
  exact hx e he

/-- What reads the state first. -/
theorem get {f : ScopeState → Resolution α} (hf : ∀ s, FailsAt nodes (f s)) :
    FailsAt nodes (MonadState.get >>= f) :=
  fun s e he => hf s s e he

/-- To bind an identifier never fails. -/
theorem bindName (lexical : Namespace) (ident : String) :
    FailsAt nodes (Resolution.bindName lexical ident) := by
  rintro s e ⟨⟩

theorem bindFields (lexical : Namespace) (fields : List Name) :
    FailsAt nodes (Resolution.bindFields lexical fields) := by
  induction fields generalizing lexical with
  | nil => exact .pure _
  | cons field rest ih =>
    exact (bindName lexical field.ident).bind fun name => (ih name.qualifier).bind fun _ => .pure _

/-- To open a node fails at the node. -/
theorem nested {limit : UInt32} {node : NodeId} (hnode : node ∈ nodes) {x : Resolution α}
    (hx : FailsAt nodes x) : FailsAt nodes (Resolution.nested limit node x) := by
  rintro ⟨binders, depth⟩ e he
  rw [run_nested] at he
  by_cases hdepth : depth < limit.toNat
  · rw [if_pos hdepth] at he
    cases hrun : x.run ⟨binders, depth + 1⟩ with
    | error failure =>
      rw [hrun] at he
      cases he
      exact hx _ e hrun
    | ok r =>
      rw [hrun] at he
      cases he
  · rw [if_neg hdepth] at he
    cases he
    exact ⟨List.cons_ne_nil _ _, List.cons_subset.mpr ⟨hnode, List.nil_subset _⟩⟩

end FailsAt

end Resolution

/-! ### Lookups -/

namespace Context

variable {ctx : Context} {nodes : List NodeId} {node : NodeId}

theorem failsAt_refused (hnode : node ∈ nodes) (name : Name) (sort : NameSort)
    (reason : Unresolved) : FailsAt nodes (ctx.refused node name sort reason) := by
  intro e he
  cases he
  exact ⟨List.cons_ne_nil _ _, List.cons_subset.mpr ⟨hnode, List.nil_subset _⟩⟩

/-- An ambiguous name blames the imports in reach through which it is exported. -/
theorem failsAt_imported (hreach : ctx.reach.map Import.id ⊆ nodes) (hnode : node ∈ nodes)
    (ident : String) (sort : NameSort) : FailsAt nodes (ctx.imported node ident sort) := by
  have hexporters : (ctx.exporters ident).map Import.id ⊆ nodes := by
    unfold exporters
    exact List.Subset.trans (List.map_subset _ (List.filter_subset_self _)) hreach
  unfold imported
  cases hresult : ctx.exporters ident with
  | nil => exact failsAt_refused hnode _ _ _
  | cons i rest =>
    cases rest with
    | nil => exact .ok _
    | cons j others =>
      rintro e ⟨⟩
      rw [hresult] at hexporters
      exact ⟨List.cons_ne_nil _ _, List.cons_subset.mpr ⟨hnode, hexporters⟩⟩

theorem failsAt_qualified (hnode : node ∈ nodes) (name : Name) (sort : NameSort) :
    FailsAt nodes (ctx.qualified node name sort) := by
  unfold qualified
  split_ifs
  · exact .ok _
  · exact failsAt_refused hnode _ _ _
  · exact .ok _
  · exact failsAt_refused hnode _ _ _
  · exact failsAt_refused hnode _ _ _

theorem failsAt_typeName (hreach : ctx.reach.map Import.id ⊆ nodes) (hnode : node ∈ nodes)
    (name : Name) : FailsAt nodes (ctx.typeName node name) := by
  unfold typeName
  split_ifs
  · exact failsAt_qualified hnode _ _
  · exact .ok _
  · exact .ok _
  · exact failsAt_imported hreach hnode _ _

theorem failsAt_variableAt (hreach : ctx.reach.map Import.id ⊆ nodes) (hnode : node ∈ nodes)
    (binders : Binders) (lexical : Namespace) (name : Name) :
    FailsAt nodes (ctx.variableAt binders lexical node name) := by
  unfold variableAt
  split_ifs
  · exact .ok _
  · exact failsAt_qualified hnode _ _
  · exact .ok _
  · cases binders.lookup lexical ctx.owner name.ident with
    | some binder => exact .ok _
    | none => exact failsAt_imported hreach hnode _ _

/-- The lookup of the name of a type, as a step of the resolver. -/
theorem failsAt_typeMeaning (hctx : ctx.Grounded) (hreach : ctx.reach.map Import.id ⊆ nodes)
    (hnode : node ∈ nodes) (name : Name) :
    Resolution.FailsAt nodes (liftM (ctx.typeMeaning node name)) := by
  refine .lift fun e he => ?_
  rw [typeMeaning_eq hctx] at he
  obtain ⟨_, he, ⟨⟩⟩ := mapError_eq_error_iff.mp he
  exact failsAt_typeName hreach hnode name e he

/-- The lookup of a variable, as a step of the resolver.  A place outside the module is a fault. -/
theorem failsAt_variableMeaning (hctx : ctx.Grounded) (hreach : ctx.reach.map Import.id ⊆ nodes)
    (hnode : node ∈ nodes) (binders : Binders) (lexical : Namespace) (name : Name) :
    Resolution.FailsAt nodes (liftM (ctx.variableMeaning binders lexical node name)) := by
  refine .lift fun e he => ?_
  by_cases hlexical : ctx.owner.encloses lexical = true
  · rw [variableMeaning_eq hctx binders hlexical] at he
    obtain ⟨_, he, ⟨⟩⟩ := mapError_eq_error_iff.mp he
    exact failsAt_variableAt hreach hnode binders lexical name e he
  · rw [variableMeaning_outside binders hlexical] at he
    cases he

end Context

/-! ### Terms -/

section Terms

variable {ctx : Context} {nodes : List NodeId}

mutual

/-- A type fails at one of its nodes. -/
theorem Ty.failsAt_resolve (hctx : ctx.Grounded) (hreach : ctx.reach.map Import.id ⊆ nodes) :
    (type : Ty) → type.nodes ⊆ nodes → Resolution.FailsAt nodes (type.resolve ctx)
  | .var id ident, h => by
    simp only [Ty.nodes, List.cons_subset, List.nil_subset, and_true] at h
    rw [Ty.resolve]
    exact .nested h (.pure _)
  | .con id name args, h => by
    simp only [Ty.nodes, List.append_subset, List.cons_subset, List.nil_subset, and_true] at h
    rw [Ty.resolve]
    refine .nested h.2 ((Context.failsAt_typeMeaning hctx hreach h.2 name).bind fun name' => ?_)
    exact (Ty.failsAt_resolveList hctx hreach args h.1).bind fun args' => .pure _
  | .arrow id param result, h => by
    simp only [Ty.nodes, List.append_subset, List.cons_subset, List.nil_subset, and_true] at h
    rw [Ty.resolve]
    refine .nested h.2 ((param.failsAt_resolve hctx hreach h.1.1).bind fun param' => ?_)
    exact (result.failsAt_resolve hctx hreach h.1.2).bind fun result' => .pure _

theorem Ty.failsAt_resolveList (hctx : ctx.Grounded) (hreach : ctx.reach.map Import.id ⊆ nodes) :
    (types : List Ty) → Ty.listNodes types ⊆ nodes →
      Resolution.FailsAt nodes (Ty.resolveList ctx types)
  | [], h => by
    rw [Ty.resolveList]
    exact .pure _
  | type :: rest, h => by
    simp only [Ty.listNodes, List.append_subset] at h
    rw [Ty.resolveList]
    refine (type.failsAt_resolve hctx hreach h.1).bind fun type' => ?_
    exact (Ty.failsAt_resolveList hctx hreach rest h.2).bind fun rest' => .pure _

end

/-- A pattern fails at its node. -/
theorem Pattern.failsAt_resolve (hctx : ctx.Grounded) (hreach : ctx.reach.map Import.id ⊆ nodes)
    {pattern : Pattern} (hnode : pattern.id ∈ nodes) (lexical : Namespace) :
    Resolution.FailsAt nodes (pattern.resolve ctx lexical) := by
  cases pattern with
  | lit id value => exact .pure _
  | wildcard id => exact .pure _
  | bind id name =>
    rw [Pattern.resolve]
    exact (Resolution.FailsAt.bindName _ _).bind fun name' => .pure _
  | variant id type ctor fields =>
    rw [Pattern.resolve]
    refine (Context.failsAt_typeMeaning hctx hreach hnode type).bind fun type' => ?_
    exact (Resolution.FailsAt.bindFields _ _).bind fun fields' => .pure _

mutual

/-- **An expression fails at one of its nodes.** -/
theorem Expr.failsAt_resolve (hctx : ctx.Grounded) (hreach : ctx.reach.map Import.id ⊆ nodes) :
    (e : Expr) → (lexical : Namespace) → e.nodes ⊆ nodes →
      Resolution.FailsAt nodes (e.resolve ctx lexical)
  | .lit id value, lexical, h => by
    simp only [Expr.nodes, List.cons_subset, List.nil_subset, and_true] at h
    rw [Expr.resolve]
    exact .nested h (.pure _)
  | .var id name, lexical, h => by
    simp only [Expr.nodes, List.cons_subset, List.nil_subset, and_true] at h
    rw [Expr.resolve]
    refine .nested h (.get fun s => ?_)
    exact (Context.failsAt_variableMeaning hctx hreach h _ _ name).bind fun name' => .pure _
  | .app id func arg, lexical, h => by
    simp only [Expr.nodes, List.append_subset, List.cons_subset, List.nil_subset, and_true] at h
    rw [Expr.resolve]
    refine .nested h.2 ((func.failsAt_resolve hctx hreach _ h.1.1).bind fun func' => ?_)
    exact (arg.failsAt_resolve hctx hreach _ h.1.2).bind fun arg' => .pure _
  | .lambda id param body, lexical, h => by
    simp only [Expr.nodes, List.append_subset, List.cons_subset, List.nil_subset, and_true] at h
    rw [Expr.resolve]
    refine .nested h.2 ((Resolution.FailsAt.bindName _ _).bind fun param' => ?_)
    exact (body.failsAt_resolve hctx hreach _ h.1).bind fun body' => .pure _
  | .annot id expr type, lexical, h => by
    simp only [Expr.nodes, List.append_subset, List.cons_subset, List.nil_subset, and_true] at h
    rw [Expr.resolve]
    refine .nested h.2 ((expr.failsAt_resolve hctx hreach _ h.1.1).bind fun expr' => ?_)
    exact (type.failsAt_resolve hctx hreach h.1.2).bind fun type' => .pure _
  | .letIn id binder bound body, lexical, h => by
    simp only [Expr.nodes, List.append_subset, List.cons_subset, List.nil_subset, and_true] at h
    rw [Expr.resolve]
    refine .nested h.2 ((bound.failsAt_resolve hctx hreach _ h.1.1).bind fun bound' => ?_)
    refine (Resolution.FailsAt.bindName _ _).bind fun binder' => ?_
    exact (body.failsAt_resolve hctx hreach _ h.1.2).bind fun body' => .pure _
  | .ifThenElse id cond thenBranch elseBranch, lexical, h => by
    simp only [Expr.nodes, List.append_subset, List.cons_subset, List.nil_subset, and_true] at h
    rw [Expr.resolve]
    refine .nested h.2 ((cond.failsAt_resolve hctx hreach _ h.1.1.1).bind fun cond' => ?_)
    refine (thenBranch.failsAt_resolve hctx hreach _ h.1.1.2).bind fun thenBranch' => ?_
    exact (elseBranch.failsAt_resolve hctx hreach _ h.1.2).bind fun elseBranch' => .pure _
  | .matchWith id scrutinee arms, lexical, h => by
    simp only [Expr.nodes, List.append_subset, List.cons_subset, List.nil_subset, and_true] at h
    rw [Expr.resolve]
    refine .nested h.2 ((scrutinee.failsAt_resolve hctx hreach _ h.1.1).bind fun scrutinee' => ?_)
    exact (Arm.failsAt_resolveList hctx hreach arms _ h.1.2).bind fun arms' => .pure _

theorem Arm.failsAt_resolve (hctx : ctx.Grounded) (hreach : ctx.reach.map Import.id ⊆ nodes) :
    (arm : Arm) → (lexical : Namespace) → arm.nodes ⊆ nodes →
      Resolution.FailsAt nodes (arm.resolve ctx lexical)
  | ⟨pattern, body⟩, lexical, h => by
    simp only [Arm.nodes, List.cons_subset] at h
    rw [Arm.resolve]
    refine (Pattern.failsAt_resolve hctx hreach h.1 lexical).bind fun pattern' => ?_
    exact (body.failsAt_resolve hctx hreach _ h.2).bind fun body' => .pure _

theorem Arm.failsAt_resolveList (hctx : ctx.Grounded) (hreach : ctx.reach.map Import.id ⊆ nodes) :
    (arms : List Arm) → (lexical : Namespace) → Arm.listNodes arms ⊆ nodes →
      Resolution.FailsAt nodes (Arm.resolveList ctx lexical arms)
  | [], lexical, h => by
    rw [Arm.resolveList]
    exact .pure _
  | arm :: rest, lexical, h => by
    simp only [Arm.listNodes, List.append_subset] at h
    rw [Arm.resolveList]
    refine (arm.failsAt_resolve hctx hreach lexical h.1).bind fun arm' => ?_
    exact (Arm.failsAt_resolveList hctx hreach rest lexical h.2).bind fun rest' => .pure _

end

/-! ### Declarations and modules -/

theorem Constructor.failsAt_resolveList (hctx : ctx.Grounded)
    (hreach : ctx.reach.map Import.id ⊆ nodes) {ctors : List Constructor}
    (h : ctors.flatMap Constructor.nodes ⊆ nodes) :
    Resolution.FailsAt nodes (Constructor.resolveList ctx ctors) := by
  induction ctors with
  | nil => exact .pure _
  | cons ctor rest ih =>
    simp only [List.flatMap_cons, Constructor.nodes, List.append_subset] at h
    rw [Constructor.resolveList, Constructor.resolve, bind_assoc]
    refine (Ty.failsAt_resolveList hctx hreach ctor.fields h.1.1).bind fun fields' => ?_
    rw [pure_bind]
    exact (ih h.2).bind fun rest' => .pure _

theorem Decl.failsAt_resolveSignature (hctx : ctx.Grounded)
    (hreach : ctx.reach.map Import.id ⊆ nodes) {signature : Option Ty}
    (h : signature.elim [] Ty.nodes ⊆ nodes) :
    Resolution.FailsAt nodes (Decl.resolveSignature ctx signature) := by
  cases signature with
  | none => exact .pure _
  | some type =>
    rw [Decl.resolveSignature]
    exact (type.failsAt_resolve hctx hreach h).bind fun type' => .pure _

theorem Decl.failsAt_resolve (hctx : ctx.Grounded) (hreach : ctx.reach.map Import.id ⊆ nodes)
    {decl : Decl} (h : decl.nodes ⊆ nodes) : Resolution.FailsAt nodes (decl.resolve ctx) := by
  cases decl with
  | value id ident signature body =>
    simp only [Decl.nodes, List.cons_subset, List.append_subset] at h
    rw [Decl.resolve]
    refine (Decl.failsAt_resolveSignature hctx hreach h.2.1).bind fun signature' => ?_
    exact (body.failsAt_resolve hctx hreach _ h.2.2).bind fun body' => .pure _
  | data id ident params ctors =>
    simp only [Decl.nodes, List.cons_subset] at h
    rw [Decl.resolve]
    exact (Constructor.failsAt_resolveList hctx hreach h.2).bind fun ctors' => .pure _

theorem Decl.failsAt_resolveList (hctx : ctx.Grounded) (hreach : ctx.reach.map Import.id ⊆ nodes)
    {decls : List Decl} (h : decls.flatMap Decl.nodes ⊆ nodes) :
    Resolution.FailsAt nodes (Decl.resolveList ctx decls) := by
  induction decls with
  | nil => exact .pure _
  | cons decl rest ih =>
    rw [List.flatMap_cons, List.append_subset] at h
    rw [Decl.resolveList]
    refine (Decl.failsAt_resolve hctx hreach h.1).bind fun decl' => ?_
    exact (ih h.2).bind fun rest' => .pure _

/-- **A module fails at a node of one of its declarations**, for which imports in reach may be to
blame as well. -/
theorem Module.blames_of_reach {interfaces : Interfaces} {reach : List Import} {limit : UInt32}
    {m : Module} {e : Error} (hreach : interfaces.reach m.ns = .ok reach)
    (hreachIds : reach.map Import.id ⊆ nodes) (hdecls : m.decls.flatMap Decl.nodes ⊆ nodes)
    (h : m.resolve interfaces limit = .error (.error e)) : e.Blames nodes := by
  have hctx := Context.grounded_of_reach hreach limit
  rw [Module.resolve, hreach] at h
  have hrun : ((Decl.resolveList ⟨interfaces, m.ns, reach, limit⟩ m.decls).run .initial >>=
      fun r => pure { m with decls := r.1 }) = .error (.error e) := h
  rcases bind_eq_error_iff.mp hrun with hfails | ⟨_, -, ⟨⟩⟩
  exact Decl.failsAt_resolveList hctx hreachIds hdecls _ e hfails

end Terms

end NameResolution
