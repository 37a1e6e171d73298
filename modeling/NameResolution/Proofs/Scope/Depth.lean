import NameResolution.Proofs.Scope.Derivation

/-!
# Nesting depths and the limit

`Module.nesting` lists the expressions and the types of a module, each with the number of
expressions and types on the way down to it, itself included.  The resolver counts how many of them
are open, and refuses to open one that nests deeper than its limit.

So a limit does nothing but cut a run off (`Module.cutOff_resolve`).  `CutOff` compares the runs of
a computation under two limits, from states with `depth` nodes open: the run under the smaller limit
stops at a node that is just too deep, or both runs have the same outcome, and then a success means
that no node was too deep.  There is one lemma for each way to put computations together.  What
makes them compose is that a computation which succeeds leaves as many nodes open as it found.
-/

namespace NameResolution

/-! ### Nesting depths -/

mutual

/-- The nodes of a type that stands inside `depth` nodes, with their nesting depths. -/
def Ty.nesting (depth : Nat) : Ty → List (NodeId × Nat)
  | .var id _ => [(id, depth + 1)]
  | .con id _ args => (id, depth + 1) :: Ty.listNesting (depth + 1) args
  | .arrow id param result =>
    (id, depth + 1) :: (param.nesting (depth + 1) ++ result.nesting (depth + 1))

/-- The nodes of a list of types. -/
def Ty.listNesting (depth : Nat) : List Ty → List (NodeId × Nat)
  | [] => []
  | type :: rest => type.nesting depth ++ Ty.listNesting depth rest

end

mutual

/-- The nodes of an expression that stands inside `depth` nodes, with their nesting depths.  Patterns
are no nodes here, and a stated type stands inside its expression. -/
def Expr.nesting (depth : Nat) : Expr → List (NodeId × Nat)
  | .lit id _ | .var id _ => [(id, depth + 1)]
  | .app id func arg => (id, depth + 1) :: (func.nesting (depth + 1) ++ arg.nesting (depth + 1))
  | .lambda id _ body => (id, depth + 1) :: body.nesting (depth + 1)
  | .annot id expr type =>
    (id, depth + 1) :: (expr.nesting (depth + 1) ++ type.nesting (depth + 1))
  | .letIn id _ bound body =>
    (id, depth + 1) :: (bound.nesting (depth + 1) ++ body.nesting (depth + 1))
  | .ifThenElse id cond thenBranch elseBranch =>
    (id, depth + 1) :: (cond.nesting (depth + 1) ++
      (thenBranch.nesting (depth + 1) ++ elseBranch.nesting (depth + 1)))
  | .matchWith id scrutinee arms =>
    (id, depth + 1) :: (scrutinee.nesting (depth + 1) ++ Arm.listNesting (depth + 1) arms)

/-- The nodes of an arm. -/
def Arm.nesting (depth : Nat) : Arm → List (NodeId × Nat)
  | ⟨_, body⟩ => body.nesting depth

/-- The nodes of a list of arms. -/
def Arm.listNesting (depth : Nat) : List Arm → List (NodeId × Nat)
  | [] => []
  | arm :: rest => arm.nesting depth ++ Arm.listNesting depth rest

end

/-- The nodes of a declaration: its body, its stated type and each field of a constructor are roots
of their own. -/
def Decl.nesting : Decl → List (NodeId × Nat)
  | .value _ _ signature body => signature.elim [] (Ty.nesting 0) ++ body.nesting 0
  | .data _ _ _ ctors => ctors.flatMap fun ctor => Ty.listNesting 0 ctor.fields

/-- The nodes of a module. -/
def Module.nesting (m : Module) : List (NodeId × Nat) := m.decls.flatMap Decl.nesting

/-! ### Failures that are not for want of depth -/

/-- The computation does not refuse a node for its depth. -/
def NeverTooDeep {α : Type} (x : Except Failure α) : Prop :=
  ∀ node, x ≠ .error (.error (.nestedTooDeeply node))

namespace NeverTooDeep

variable {α β : Type}

theorem pure (a : α) : NeverTooDeep (Pure.pure a : Except Failure α) := by
  rintro node ⟨⟩

theorem bind {x : Except Failure α} {f : α → Except Failure β} (h : NeverTooDeep x)
    (hf : ∀ a, NeverTooDeep (f a)) : NeverTooDeep (x >>= f) := by
  intro node hnode
  rcases bind_eq_error_iff.mp hnode with hx | ⟨a, -, ha⟩
  · exact h node hx
  · exact hf a node ha

theorem ite {c : Prop} [Decidable c] {x y : Except Failure α} (hx : NeverTooDeep x)
    (hy : NeverTooDeep y) : NeverTooDeep (if c then x else y) := by
  split
  · exact hx
  · exact hy

/-- What can only fault. -/
theorem lift (x : Except Fault α) : NeverTooDeep (liftM x : Except Failure α) := by
  intro node hnode
  obtain ⟨fault, -, ⟨⟩⟩ := mapError_eq_error_iff.mp hnode

end NeverTooDeep

namespace Context

variable (ctx : Context) (node : NodeId) (name : Name) (sort : NameSort)

theorem neverTooDeep_undefined (reason : Unresolved) :
    NeverTooDeep (ctx.undefined node name sort reason : Except Failure Name) := by
  rintro other ⟨⟩

theorem neverTooDeep_fromImports (ident : String) :
    NeverTooDeep (ctx.fromImports node ident sort) := by
  unfold fromImports
  refine .bind (.lift _) fun exposing => ?_
  rcases exposing with - | ⟨i, - | ⟨j, rest⟩⟩
  · exact ctx.neverTooDeep_undefined _ _ _ _
  · exact .pure _
  · rintro other ⟨⟩

theorem neverTooDeep_fromModule : NeverTooDeep (ctx.fromModule node name sort) := by
  unfold fromModule
  have hundefined := ctx.neverTooDeep_undefined node name sort
  refine .ite (.bind (.lift _) fun declares => ?_) (.ite (.bind (.lift _) fun exposes => ?_) ?_)
  · exact .ite (.pure _) (hundefined _)
  · exact .ite (.pure _) (hundefined _)
  · exact hundefined _

theorem neverTooDeep_typeMeaning : NeverTooDeep (ctx.typeMeaning node name) := by
  unfold typeMeaning
  refine .ite (ctx.neverTooDeep_fromModule node name .type) (.ite (.pure _) ?_)
  refine .bind (.lift _) fun declares => .ite (.pure _) ?_
  exact ctx.neverTooDeep_fromImports node .type name.ident

theorem neverTooDeep_variableMeaning (binders : Binders) (lexical : Namespace) :
    NeverTooDeep (ctx.variableMeaning binders lexical node name) := by
  rw [variableMeaning]
  by_cases howner : ctx.owner.encloses lexical = true
  · rw [if_pos howner]
    refine .ite (.ite (.pure _) (ctx.neverTooDeep_fromModule node name .value)) ?_
    refine .bind (.lift _) fun declares => .ite (.pure _) ?_
    cases binders.lookup lexical ctx.owner name.ident with
    | some binder => exact .pure _
    | none => exact ctx.neverTooDeep_fromImports node .value name.ident
  · rw [if_neg howner]
    rintro other ⟨⟩

end Context

/-! ### Outcomes under two limits -/

/-- How the outcome for the nodes `nesting` under `limit` compares with that under a limit that is
not smaller. -/
inductive Limited (limit : Nat) (nesting : List (NodeId × Nat)) {α : Type} :
    (outcome outcome' : Except Failure α) → Prop
  /-- All nodes have been opened. -/
  | ok (a : α) (hnodes : ∀ n ∈ nesting, n.2 ≤ limit) : Limited limit nesting (.ok a) (.ok a)
  | error {failure : Failure} (h : ∀ node, failure ≠ .error (.nestedTooDeeply node)) :
      Limited limit nesting (.error failure) (.error failure)
  /-- A node is deeper than allowed, by one. -/
  | cut {node : NodeId} {outcome' : Except Failure α} (hnode : (node, limit + 1) ∈ nesting) :
      Limited limit nesting (.error (.error (.nestedTooDeeply node))) outcome'

namespace Limited

variable {limit : Nat} {nesting nesting' : List (NodeId × Nat)} {α β : Type}

theorem bind {x y : Except Failure α} {f g : α → Except Failure β} (h : Limited limit nesting x y)
    (hf : ∀ a, x = .ok a → Limited limit nesting' (f a) (g a)) :
    Limited limit (nesting ++ nesting') (x >>= f) (y >>= g) := by
  cases h with
  | ok a hnodes =>
    have ha := hf a rfl
    show Limited limit (nesting ++ nesting') (f a) (g a)
    generalize f a = outcome, g a = outcome' at ha
    cases ha with
    | ok b hnodes' => exact .ok b (List.forall_mem_append.mpr ⟨hnodes, hnodes'⟩)
    | error hfailure => exact .error hfailure
    | cut hnode => exact .cut (List.mem_append_right _ hnode)
  | error hfailure => exact .error hfailure
  | cut hnode => exact .cut (List.mem_append_left _ hnode)

/-- What does not depend on the limit. -/
theorem of_neverTooDeep {x : Except Failure α} (h : NeverTooDeep x) : Limited limit [] x x := by
  cases x with
  | ok a => exact .ok a (by simp)
  | error failure => exact .error fun node hnode => h node (by rw [hnode])

theorem map {x y : Except Failure α} (h : Limited limit nesting x y) (f : α → β) :
    Limited limit nesting (x.map f) (y.map f) := by
  cases h with
  | ok a hnodes => exact .ok (f a) hnodes
  | error hfailure => exact .error hfailure
  | cut hnode => exact .cut hnode

/-- One more node that is not too deep. -/
theorem cons {x y : Except Failure α} (h : Limited limit nesting x y) {n : NodeId × Nat}
    (hn : n.2 ≤ limit) : Limited limit (n :: nesting) x y := by
  cases h with
  | ok a hnodes => exact .ok a (List.forall_mem_cons.mpr ⟨hn, hnodes⟩)
  | error hfailure => exact .error hfailure
  | cut hnode => exact .cut (List.mem_cons_of_mem _ hnode)

variable {x y : Except Failure α}

/-! What a comparison says about the outcomes. -/

theorem eq_or_cut (h : Limited limit nesting x y) :
    x = y ∨ ∃ node, x = .error (.error (.nestedTooDeeply node)) := by
  cases h with
  | ok a hnodes => exact Or.inl rfl
  | error hfailure => exact Or.inl rfl
  | cut hnode => exact Or.inr ⟨_, rfl⟩

theorem neverTooDeep (h : Limited limit nesting x y) (hnodes : ∀ n ∈ nesting, n.2 ≤ limit) :
    NeverTooDeep x := by
  cases h with
  | ok a _ => exact .pure a
  | error hfailure => exact fun node hnode => hfailure node (Except.error.inj hnode)
  | cut hnode => exact absurd (hnodes _ hnode) (Nat.not_succ_le_self _)

theorem ne_ok (h : Limited limit nesting x y) {n : NodeId × Nat} (hn : n ∈ nesting)
    (hdeep : limit < n.2) (a : α) : x ≠ .ok a := by
  cases h with
  | ok b hnodes => exact absurd (hnodes n hn) (Nat.not_le_of_lt hdeep)
  | error hfailure => rintro ⟨⟩
  | cut hnode => rintro ⟨⟩

theorem mem_of_cut (h : Limited limit nesting x y) {node : NodeId}
    (hx : x = .error (.error (.nestedTooDeeply node))) : (node, limit + 1) ∈ nesting := by
  cases h with
  | ok a hnodes => cases hx
  | error hfailure => exact absurd (Except.error.inj hx) (hfailure node)
  | cut hnode =>
    cases hx
    exact hnode

end Limited

/-! ### Computations under two limits -/

/-- The count of open nodes is raised by one, and only below the limit. -/
theorem Resolution.depth_of_openNode {limit : UInt32} {node : NodeId} {s s' : ScopeState}
    (h : (openNode limit node).run s = .ok ((), s')) :
    s'.depth = s.depth + 1 ∧ s'.depth < UInt32.size := by
  obtain ⟨binders, depth⟩ := s
  rw [run_openNode] at h
  by_cases hdepth : depth < limit.toNat
  · rw [if_pos hdepth] at h
    cases h
    have hlimit : limit.toNat < UInt32.size := limit.toNat_lt
    exact ⟨rfl, Nat.lt_of_le_of_lt hdepth hlimit⟩
  · rw [if_neg hdepth] at h
    cases h

/-- A computation that closes what it has opened, if it succeeds. -/
def Resolution.Balanced {α : Type} (x : Resolution α) : Prop :=
  ∀ s a s', x.run s = .ok (a, s') → s'.depth = s.depth

/-- A computation under `limit` and the same one under a limit that is not smaller, for nodes that
stand inside `depth` nodes. -/
structure CutOff (limit depth : Nat) (nesting : List (NodeId × Nat)) {α : Type}
    (x y : Resolution α) : Prop where
  balanced : x.Balanced
  limited : depth ≤ limit → ∀ s, s.depth = depth → Limited limit nesting (x.run s) (y.run s)

namespace CutOff

open Resolution (bindFields bindName nested)

variable {limit depth : Nat} {nesting nesting' : List (NodeId × Nat)} {α β : Type}

theorem pure (a : α) : CutOff limit depth [] (Pure.pure a) (Pure.pure a) where
  balanced := by
    rintro s _ _ ⟨⟩
    rfl
  limited _ s _ := .ok (a, s) (by simp)

theorem bind {x y : Resolution α} {f g : α → Resolution β} (h : CutOff limit depth nesting x y)
    (hf : ∀ a, CutOff limit depth nesting' (f a) (g a)) :
    CutOff limit depth (nesting ++ nesting') (x >>= f) (y >>= g) where
  balanced := by
    intro s b s' hrun
    rw [StateT.run_bind] at hrun
    obtain ⟨⟨a, later⟩, hx, hb⟩ := bind_eq_ok_iff.mp hrun
    rw [(hf a).balanced later b s' hb, h.balanced s a later hx]
  limited hdepth s hs := by
    rw [StateT.run_bind, StateT.run_bind]
    refine (h.limited hdepth s hs).bind ?_
    rintro ⟨a, later⟩ hx
    -- The second computation starts with as many open nodes as the first one.
    exact (hf a).limited hdepth later ((h.balanced s a later hx).trans hs)

theorem bind_pure {x y : Resolution α} (h : CutOff limit depth nesting x y) (f : α → β) :
    CutOff limit depth nesting (do return f (← x)) (do return f (← y)) := by
  have hbind := h.bind fun a => @CutOff.pure limit depth β (f a)
  rwa [List.append_nil] at hbind

/-- What is resolved first may be something that has no depth. -/
theorem bind_of_neverTooDeep {x : Resolution α} {f g : α → Resolution β} (hx : x.Balanced)
    (hfails : ∀ s, NeverTooDeep (x.run s)) (hf : ∀ a, CutOff limit depth nesting (f a) (g a)) :
    CutOff limit depth nesting (x >>= f) (x >>= g) := by
  have h : CutOff limit depth [] x x := ⟨hx, fun _ s _ => .of_neverTooDeep (hfails s)⟩
  exact h.bind hf

theorem lift {x : Except Failure α} {f g : α → Resolution β} (hfails : NeverTooDeep x)
    (hf : ∀ a, CutOff limit depth nesting (f a) (g a)) :
    CutOff limit depth nesting (liftM x >>= f) (liftM x >>= g) := by
  refine bind_of_neverTooDeep ?_ (fun s => hfails.bind fun a => .pure _) hf
  intro s a s' hrun
  obtain ⟨b, -, ⟨⟩⟩ := bind_eq_ok_iff.mp hrun
  rfl

theorem bindName {lexical : Namespace} {ident : String} {f g : Name → Resolution β}
    (hf : ∀ name, CutOff limit depth nesting (f name) (g name)) :
    CutOff limit depth nesting (Resolution.bindName lexical ident >>= f)
      (Resolution.bindName lexical ident >>= g) := by
  refine bind_of_neverTooDeep ?_ (fun s => .pure _) hf
  rintro s _ _ ⟨⟩
  rfl

theorem bindFields {fields : List Name} {lexical : Namespace}
    {f g : List Name × Namespace → Resolution β}
    (hf : ∀ r, CutOff limit depth nesting (f r) (g r)) :
    CutOff limit depth nesting (Resolution.bindFields lexical fields >>= f)
      (Resolution.bindFields lexical fields >>= g) := by
  induction fields generalizing lexical f g with
  | nil => exact hf ([], lexical)
  | cons field rest ih =>
    rw [Resolution.bindFields, bind_assoc, bind_assoc]
    refine bindName fun name => ?_
    rw [bind_assoc, bind_assoc]
    exact ih fun r => hf (name :: r.1, r.2)

/-- Opening a node is what the limit is about. -/
theorem nested {limit limit' : UInt32} (h : limit ≤ limit') {node : NodeId} {x y : Resolution α}
    (hbody : CutOff limit.toNat (depth + 1) nesting x y) :
    CutOff limit.toNat depth ((node, depth + 1) :: nesting) (Resolution.nested limit node x)
      (Resolution.nested limit' node y) where
  balanced := by
    rintro ⟨binders, before⟩ a s' hrun
    rw [Resolution.run_nested] at hrun
    by_cases hbefore : before < limit.toNat
    · rw [if_pos hbefore] at hrun
      obtain ⟨⟨b, later⟩, hx, ⟨⟩⟩ := map_eq_ok_iff.mp hrun
      have hlater := hbody.balanced _ _ _ hx
      show later.depth - 1 = before
      rw [hlater, Nat.add_sub_cancel]
    · rw [if_neg hbefore] at hrun
      cases hrun
  limited := by
    rintro hdepth ⟨binders, before⟩ rfl
    have hlimit : limit.toNat ≤ limit'.toNat := UInt32.le_iff_toNat_le.mp h
    rw [Resolution.run_nested, Resolution.run_nested]
    by_cases hbefore : before < limit.toNat
    · rw [if_pos hbefore, if_pos (Nat.lt_of_lt_of_le hbefore hlimit)]
      exact ((hbody.limited hbefore ⟨binders, before + 1⟩ rfl).map _).cons hbefore
    · -- All of the limit is used up, so this node is too deep by one.
      rw [if_neg hbefore]
      have hlast : limit.toNat = before := Nat.le_antisymm (Nat.le_of_not_lt hbefore) hdepth
      exact .cut (hlast ▸ List.mem_cons_self)

end CutOff

/-! ### Names under two limits -/

namespace Context

/-- The same module under another limit. -/
def withLimit (ctx : Context) (limit : UInt32) : Context := { ctx with limit }

variable (ctx : Context) (limit : UInt32)

theorem exposing_withLimit (ident : String) (reach : List Import) :
    (ctx.withLimit limit).exposing ident reach = ctx.exposing ident reach := by
  induction reach with
  | nil => rfl
  | cons i rest ih =>
    rw [exposing, exposing, ih]
    rfl

theorem fromImports_withLimit (node : NodeId) (ident : String) (sort : NameSort) :
    (ctx.withLimit limit).fromImports node ident sort = ctx.fromImports node ident sort := by
  rw [fromImports, fromImports, exposing_withLimit]
  rfl

theorem typeMeaning_withLimit (node : NodeId) (name : Name) :
    (ctx.withLimit limit).typeMeaning node name = ctx.typeMeaning node name := by
  rw [typeMeaning, typeMeaning, fromImports_withLimit]
  rfl

theorem variableMeaning_withLimit (binders : Binders) (lexical : Namespace) (node : NodeId)
    (name : Name) : (ctx.withLimit limit).variableMeaning binders lexical node name =
      ctx.variableMeaning binders lexical node name := by
  rw [variableMeaning, variableMeaning, fromImports_withLimit]
  rfl

end Context

/-! ### Types and patterns -/

variable {ctx : Context} {limit : UInt32}

mutual

theorem Ty.cutOff_resolve (h : ctx.limit ≤ limit) (depth : Nat) : (type : Ty) →
    CutOff ctx.limit.toNat depth (type.nesting depth) (type.resolve ctx)
      (type.resolve (ctx.withLimit limit))
  | .var id ident => by
    rw [Ty.resolve, Ty.resolve, Ty.nesting]
    exact .nested h (.pure _)
  | .con id name args => by
    rw [Ty.resolve, Ty.resolve, Ty.nesting, ctx.typeMeaning_withLimit]
    refine .nested h (.lift (ctx.neverTooDeep_typeMeaning id name) fun name => ?_)
    exact (Ty.cutOff_resolveList h (depth + 1) args).bind_pure _
  | .arrow id param result => by
    rw [Ty.resolve, Ty.resolve, Ty.nesting]
    refine .nested h ((Ty.cutOff_resolve h (depth + 1) param).bind fun param => ?_)
    exact (Ty.cutOff_resolve h (depth + 1) result).bind_pure _

theorem Ty.cutOff_resolveList (h : ctx.limit ≤ limit) (depth : Nat) : (types : List Ty) →
    CutOff ctx.limit.toNat depth (Ty.listNesting depth types) (Ty.resolveList ctx types)
      (Ty.resolveList (ctx.withLimit limit) types)
  | [] => .pure []
  | type :: rest => by
    rw [Ty.resolveList, Ty.resolveList, Ty.listNesting]
    refine (Ty.cutOff_resolve h depth type).bind fun type => ?_
    exact (Ty.cutOff_resolveList h depth rest).bind_pure _

end

/-- No pattern has a depth. -/
theorem CutOff.pattern {l depth : Nat} {nesting : List (NodeId × Nat)} {β : Type}
    (lexical : Namespace) (pattern : Pattern) {f g : Pattern × Namespace → Resolution β}
    (hf : ∀ r, CutOff l depth nesting (f r) (g r)) :
    CutOff l depth nesting (pattern.resolve ctx lexical >>= f)
      (pattern.resolve (ctx.withLimit limit) lexical >>= g) := by
  cases pattern with
  | lit id value => exact hf (.lit id value, lexical)
  | wildcard id => exact hf (.wildcard id, lexical)
  | bind id name =>
    rw [Pattern.resolve, Pattern.resolve, bind_assoc, bind_assoc]
    exact .bindName fun name => hf (.bind id name, name.qualifier)
  | variant id type ctor fields =>
    rw [Pattern.resolve, Pattern.resolve, ctx.typeMeaning_withLimit, bind_assoc, bind_assoc]
    refine .lift (ctx.neverTooDeep_typeMeaning id type) fun type => ?_
    rw [bind_assoc, bind_assoc]
    exact .bindFields fun r => hf (.variant id type ctor r.1, r.2)

/-! ### Expressions -/

mutual

theorem Expr.cutOff_resolve (h : ctx.limit ≤ limit) (depth : Nat) (lexical : Namespace) :
    (e : Expr) → CutOff ctx.limit.toNat depth (e.nesting depth) (e.resolve ctx lexical)
      (e.resolve (ctx.withLimit limit) lexical)
  | .lit id value => by
    rw [Expr.resolve, Expr.resolve, Expr.nesting]
    exact .nested h (.pure _)
  | .var id name => by
    rw [Expr.resolve, Expr.resolve, Expr.nesting]
    have hmeaning (s : ScopeState) := ctx.neverTooDeep_variableMeaning id name s.binders lexical
    refine .nested h (.bind_of_neverTooDeep ?_ (fun s => .pure _) fun s => ?_)
    · rintro s _ _ ⟨⟩
      rfl
    · rw [ctx.variableMeaning_withLimit]
      exact .lift (hmeaning s) fun name => .pure _
  | .app id func arg => by
    rw [Expr.resolve, Expr.resolve, Expr.nesting]
    refine .nested h ((Expr.cutOff_resolve h (depth + 1) lexical func).bind fun func => ?_)
    exact (Expr.cutOff_resolve h (depth + 1) lexical arg).bind_pure _
  | .lambda id param body => by
    rw [Expr.resolve, Expr.resolve, Expr.nesting]
    refine .nested h (.bindName fun param => ?_)
    exact (Expr.cutOff_resolve h (depth + 1) param.qualifier body).bind_pure _
  | .annot id expr type => by
    rw [Expr.resolve, Expr.resolve, Expr.nesting]
    refine .nested h ((Expr.cutOff_resolve h (depth + 1) lexical expr).bind fun expr => ?_)
    exact (Ty.cutOff_resolve h (depth + 1) type).bind_pure _
  | .letIn id binder bound body => by
    rw [Expr.resolve, Expr.resolve, Expr.nesting]
    refine .nested h ((Expr.cutOff_resolve h (depth + 1) lexical bound).bind fun bound => ?_)
    refine .bindName fun binder => ?_
    exact (Expr.cutOff_resolve h (depth + 1) binder.qualifier body).bind_pure _
  | .ifThenElse id cond thenBranch elseBranch => by
    rw [Expr.resolve, Expr.resolve, Expr.nesting]
    refine .nested h ((Expr.cutOff_resolve h (depth + 1) lexical cond).bind fun cond => ?_)
    refine (Expr.cutOff_resolve h (depth + 1) lexical thenBranch).bind fun thenBranch => ?_
    exact (Expr.cutOff_resolve h (depth + 1) lexical elseBranch).bind_pure _
  | .matchWith id scrutinee arms => by
    rw [Expr.resolve, Expr.resolve, Expr.nesting]
    refine .nested h ?_
    refine (Expr.cutOff_resolve h (depth + 1) lexical scrutinee).bind fun scrutinee => ?_
    exact (Arm.cutOff_resolveList h (depth + 1) lexical arms).bind_pure _

theorem Arm.cutOff_resolve (h : ctx.limit ≤ limit) (depth : Nat) (lexical : Namespace) :
    (arm : Arm) → CutOff ctx.limit.toNat depth (arm.nesting depth) (arm.resolve ctx lexical)
      (arm.resolve (ctx.withLimit limit) lexical)
  | ⟨pattern, body⟩ => by
    rw [Arm.resolve, Arm.resolve, Arm.nesting]
    refine .pattern lexical pattern fun r => ?_
    exact (Expr.cutOff_resolve h depth r.2 body).bind_pure _

theorem Arm.cutOff_resolveList (h : ctx.limit ≤ limit) (depth : Nat) (lexical : Namespace) :
    (arms : List Arm) → CutOff ctx.limit.toNat depth (Arm.listNesting depth arms)
      (Arm.resolveList ctx lexical arms) (Arm.resolveList (ctx.withLimit limit) lexical arms)
  | [] => .pure []
  | arm :: rest => by
    rw [Arm.resolveList, Arm.resolveList, Arm.listNesting]
    refine (Arm.cutOff_resolve h depth lexical arm).bind fun arm => ?_
    exact (Arm.cutOff_resolveList h depth lexical rest).bind_pure _

end

/-! ### Declarations and modules -/

theorem Constructor.cutOff_resolveList (h : ctx.limit ≤ limit) : (ctors : List Constructor) →
    CutOff ctx.limit.toNat 0 (ctors.flatMap fun ctor => Ty.listNesting 0 ctor.fields)
      (Constructor.resolveList ctx ctors) (Constructor.resolveList (ctx.withLimit limit) ctors)
  | [] => .pure []
  | ctor :: rest => by
    rw [Constructor.resolveList, Constructor.resolveList, List.flatMap_cons]
    refine ((Ty.cutOff_resolveList h 0 ctor.fields).bind_pure _).bind fun ctor => ?_
    exact (Constructor.cutOff_resolveList h rest).bind_pure _

theorem Decl.cutOff_resolveSignature (h : ctx.limit ≤ limit) (signature : Option Ty) :
    CutOff ctx.limit.toNat 0 (signature.elim [] (Ty.nesting 0)) (Decl.resolveSignature ctx signature)
      (Decl.resolveSignature (ctx.withLimit limit) signature) := by
  cases signature with
  | none => exact .pure none
  | some type => exact (Ty.cutOff_resolve h 0 type).bind_pure _

theorem Decl.cutOff_resolve (h : ctx.limit ≤ limit) (decl : Decl) :
    CutOff ctx.limit.toNat 0 decl.nesting (decl.resolve ctx)
      (decl.resolve (ctx.withLimit limit)) := by
  cases decl with
  | value id ident signature body =>
    refine (Decl.cutOff_resolveSignature h signature).bind fun signature => ?_
    exact (Expr.cutOff_resolve h 0 ctx.owner body).bind_pure _
  | data id ident params ctors => exact (Constructor.cutOff_resolveList h ctors).bind_pure _

theorem Decl.cutOff_resolveList (h : ctx.limit ≤ limit) : (decls : List Decl) →
    CutOff ctx.limit.toNat 0 (decls.flatMap Decl.nesting) (Decl.resolveList ctx decls)
      (Decl.resolveList (ctx.withLimit limit) decls)
  | [] => .pure []
  | decl :: rest => by
    rw [Decl.resolveList, Decl.resolveList, List.flatMap_cons]
    refine (Decl.cutOff_resolve h decl).bind fun decl => ?_
    exact (Decl.cutOff_resolveList h rest).bind_pure _

/-- **A limit does nothing to a module but cut its resolution off**, at a node that is too deep by
one. -/
theorem Module.limited_resolve (interfaces : Interfaces) {limit limit' : UInt32}
    (h : limit ≤ limit') (m : Module) :
    Limited limit.toNat m.nesting (m.resolve interfaces limit) (m.resolve interfaces limit') := by
  have hreach : NeverTooDeep (liftM (interfaces.reach m.ns) : Except Failure (List Import)) :=
    .lift _
  refine (Limited.of_neverTooDeep hreach).bind fun reach _ => ?_
  have hdecls := @Decl.cutOff_resolveList ⟨interfaces, m.ns, reach, limit⟩ limit' h m.decls
  exact (hdecls.limited (Nat.zero_le _) .initial rfl).map fun r => { m with decls := r.1 }

end NameResolution
