import NameResolution.Proofs.Scope.Derivation

/-!
# The numbers of scopes

A `Binding` is a binder of a resolved tree together with the scope that it stands in.  Both are read
off the tree (`Expr.bindings`), in the order in which it is traversed: a bound expression before its
binder, a pattern before the body of its arm, everything else from left to right.

`Numbered owner b bindings b'` says that these binders are bound one after the other, from the
binders `b` on to the binders `b'`, in scopes that are nested in the module `owner` through scopes
of binders only.  Every derivation binds the binders of what it resolves so
(`Decl.ResolvesList.numbered`).  So the binder at place `i` of a module has the number of this place
(`Numbered.qualifier_eq`), no two scopes of a module are the same as long as the numbers do not
start again (`Numbered.nodup`); and if no segment of a module looks like a number, a scope tells its
module (`ScopeIn.eq_of_plain`).
-/

namespace NameResolution

/-! ### Binders in the order of traversal -/

/-- A binder and the scope that it stands in. -/
structure Binding where
  lexical : Namespace
  name : Name

/-- Binders each of which stands in the scope of the one before it. -/
def Binding.nested (lexical : Namespace) : List Name → List Binding
  | [] => []
  | name :: rest => ⟨lexical, name⟩ :: nested name.qualifier rest

/-- The scope behind binders each of which stands in the scope of the one before it. -/
def Binding.scopeBehind (lexical : Namespace) : List Name → Namespace
  | [] => lexical
  | name :: rest => scopeBehind name.qualifier rest

mutual

/-- The binders of an expression that stands in the scope `lexical`. -/
def Expr.bindings (lexical : Namespace) : Expr → List Binding
  | .lit .. | .var .. => []
  | .app _ func arg => func.bindings lexical ++ arg.bindings lexical
  | .lambda _ param body => ⟨lexical, param⟩ :: body.bindings param.qualifier
  | .annot _ expr _ => expr.bindings lexical
  | .letIn _ binder bound body =>
    bound.bindings lexical ++ ⟨lexical, binder⟩ :: body.bindings binder.qualifier
  | .ifThenElse _ cond thenBranch elseBranch =>
    cond.bindings lexical ++ (thenBranch.bindings lexical ++ elseBranch.bindings lexical)
  | .matchWith _ scrutinee arms => scrutinee.bindings lexical ++ Arm.listBindings lexical arms

/-- The binders of an arm. -/
def Arm.bindings (lexical : Namespace) : Arm → List Binding
  | ⟨pattern, body⟩ =>
    Binding.nested lexical pattern.binders ++
      body.bindings (Binding.scopeBehind lexical pattern.binders)

/-- The binders of a list of arms. -/
def Arm.listBindings (lexical : Namespace) : List Arm → List Binding
  | [] => []
  | arm :: rest => arm.bindings lexical ++ Arm.listBindings lexical rest

end

/-- The binders of a declaration of the module `owner`. -/
def Decl.bindings (owner : Namespace) : Decl → List Binding
  | .value _ _ _ body => body.bindings owner
  | .data .. => []

/-- The binders of a module. -/
def Module.bindings (m : Module) : List Binding := m.decls.flatMap (Decl.bindings m.ns)

/-! ### Scopes of a module -/

/-- The namespace `ns` is nested in the module `owner` through scopes of binders. -/
def ScopeIn (owner ns : Namespace) : Prop :=
  ∃ numbers : List Nat, ns.segments = owner.segments ++ numbers.map scopeSegment

namespace ScopeIn

theorem refl (owner : Namespace) : ScopeIn owner owner := ⟨[], (List.append_nil _).symm⟩

theorem child {owner ns : Namespace} (h : ScopeIn owner ns) (k : Nat) :
    ScopeIn owner (ns.child (scopeSegment k)) := by
  obtain ⟨numbers, hsegments⟩ := h
  refine ⟨numbers ++ [k], ?_⟩
  rw [Namespace.child, hsegments, List.map_append, List.append_assoc]
  rfl

theorem encloses {owner ns : Namespace} (h : ScopeIn owner ns) : owner.encloses ns = true := by
  obtain ⟨numbers, hsegments⟩ := h
  exact Namespace.encloses_iff.mpr ⟨_, hsegments.symm⟩

end ScopeIn

/-- The end of a chain is a scope of the module. -/
theorem Chain.scopeIn {owner : Namespace} {env : List Name} (h : Chain owner env) :
    ScopeIn owner (innermost owner env) := by
  induction h with
  | nil => exact .refl owner
  | cons k ident _ ih => exact ih.child k

/-- No segment of the namespace looks like that of a scope. -/
def Namespace.Plain (ns : Namespace) : Prop := ∀ segment ∈ ns.segments, '#' ∉ segment.toList

instance : DecidablePred Namespace.Plain := fun ns =>
  inferInstanceAs (Decidable (∀ segment ∈ ns.segments, '#' ∉ segment.toList))

theorem hash_mem_scopeSegment (k : Nat) : '#' ∈ (scopeSegment k).toList := by
  rw [scopeSegment, String.toList_append]
  exact List.mem_append_left _ (List.mem_singleton.mpr rfl)

theorem Namespace.Plain.ne_child {ns : Namespace} (h : ns.Plain) (lexical : Namespace) (k : Nat) :
    lexical.child (scopeSegment k) ≠ ns := by
  rintro rfl
  exact h _ (List.mem_append_right _ (List.mem_singleton.mpr rfl)) (hash_mem_scopeSegment k)

/-- The part before the first scope is the module. -/
theorem ScopeIn.takeWhile_eq {owner ns : Namespace} (h : ScopeIn owner ns) (howner : owner.Plain) :
    ns.segments.takeWhile (fun segment => '#' ∉ segment.toList) = owner.segments := by
  obtain ⟨numbers, hsegments⟩ := h
  rw [hsegments, List.takeWhile_append_of_pos fun segment hsegment => by
    simpa using howner segment hsegment]
  cases numbers with
  | nil => simp
  | cons k rest =>
    -- The walk stops at the first scope.
    rw [List.map_cons, List.takeWhile_cons_of_neg (by simpa using hash_mem_scopeSegment k),
      List.append_nil]

/-- **A scope tells its module.** -/
theorem ScopeIn.eq_of_plain {a b ns : Namespace} (ha : ScopeIn a ns) (hb : ScopeIn b ns)
    (hplain : a.Plain) (hplain' : b.Plain) : a = b := by
  have hsegments : a.segments = b.segments :=
    (ha.takeWhile_eq hplain).symm.trans (hb.takeWhile_eq hplain')
  cases a
  cases b
  cases hsegments
  rfl

/-! ### Numbered binders -/

/-- The binders are bound one after the other, each in its scope, from the binders `b` on. -/
inductive Numbered (owner : Namespace) :
    (b : Binders) → (bindings : List Binding) → (b' : Binders) → Prop
  | nil {b : Binders} : Numbered owner b [] b
  | cons {b b' : Binders} {first : Binding} {rest : List Binding}
      (hlexical : ScopeIn owner first.lexical)
      (hname : first.name = (b.bind first.lexical first.name.ident).1)
      (h : Numbered owner (b.bind first.lexical first.name.ident).2 rest b') :
      Numbered owner b (first :: rest) b'

namespace Numbered

variable {owner : Namespace} {b b₁ b' : Binders} {bindings bindings' : List Binding}

theorem append (h : Numbered owner b bindings b₁) (h' : Numbered owner b₁ bindings' b') :
    Numbered owner b (bindings ++ bindings') b' := by
  induction h with
  | nil => exact h'
  | cons hlexical hname _ ih => exact .cons hlexical hname (ih h')

/-- What has been bound has been met. -/
theorem names_eq (h : Numbered owner b bindings b') :
    b'.names = (bindings.map Binding.name).reverse ++ b.names := by
  induction h with
  | nil => rfl
  | @cons b b' first rest _ hname _ ih =>
    rw [ih, List.map_cons, List.reverse_cons, List.append_assoc, hname]
    rfl

theorem names_eq_of_empty (h : Numbered owner .empty bindings b') :
    b'.names = (bindings.map Binding.name).reverse :=
  h.names_eq.trans (List.append_nil _)

/-- No binder is forgotten. -/
theorem suffix (h : Numbered owner b bindings b') : b.names <:+ b'.names :=
  ⟨_, h.names_eq.symm⟩

theorem wellNumbered (h : Numbered owner b bindings b') (hb : b.WellNumbered owner) :
    b'.WellNumbered owner := by
  induction h with
  | nil => exact hb
  | cons hlexical _ _ ih => exact ih (hb.bind hlexical.encloses _)

/-- Binding more binders leaves the chain that has been met. -/
theorem tracks (h : Numbered owner b bindings b') {env : List Name} (henv : Tracks owner env b) :
    Tracks owner env b' :=
  henv.of_subset (h.wellNumbered henv.wellNumbered) h.suffix.subset

/-- The binder at place `i` has the number that is `i` after the first one. -/
theorem qualifier_eq (h : Numbered owner b bindings b') {i : Nat} {binding : Binding}
    (hbinding : bindings[i]? = some binding) :
    binding.name.qualifier =
      binding.lexical.child (scopeSegment (b.count + UInt32.ofNat i).toNat) := by
  induction h generalizing i with
  | nil => cases hbinding
  | @cons b b' first rest _ hname _ ih =>
    cases i with
    | zero =>
      cases hbinding
      have hcount : b.count + UInt32.ofNat 0 = b.count := UInt32.add_zero _
      rw [hname, hcount]
      rfl
    | succ i =>
      have hcount : (b.bind first.lexical first.name.ident).2.count + UInt32.ofNat i =
          b.count + UInt32.ofNat (i + 1) := by
        rw [UInt32.ofNat_add, UInt32.add_comm (UInt32.ofNat i), ← UInt32.add_assoc]
        rfl
      rw [ih hbinding, hcount]

/-- **The binder at place `i` has the number `i`**, as long as the numbers do not start again. -/
theorem qualifier_eq_of_empty (h : Numbered owner .empty bindings b')
    (hfew : bindings.length ≤ UInt32.size) {i : Nat} {binding : Binding}
    (hbinding : bindings[i]? = some binding) :
    binding.name.qualifier = binding.lexical.child (scopeSegment i) := by
  have hplace : i < bindings.length := (List.getElem?_eq_some_iff.mp hbinding).1
  have hnumber : (Binders.empty.count + UInt32.ofNat i).toNat = i := by
    show (0 + UInt32.ofNat i).toNat = i
    rw [UInt32.zero_add, UInt32.toNat_ofNat_of_lt' (Nat.lt_of_lt_of_le hplace hfew)]
  rw [h.qualifier_eq hbinding, hnumber]

/-- Every binder stands in a scope of the module and has a number. -/
theorem exists_number (h : Numbered owner b bindings b') {binding : Binding}
    (hbinding : binding ∈ bindings) :
    ∃ number, ScopeIn owner binding.lexical ∧
      binding.name.qualifier = binding.lexical.child (scopeSegment number) := by
  induction h with
  | nil => cases hbinding
  | @cons b b' first rest hlexical hname _ ih =>
    rcases List.mem_cons.mp hbinding with rfl | hbinding
    · exact ⟨b.count.toNat, hlexical, congrArg Name.qualifier hname⟩
    · exact ih hbinding

/-- **No two binders share a scope**, as long as the numbers do not start again. -/
theorem nodup (h : Numbered owner .empty bindings b') (hfew : bindings.length ≤ UInt32.size) :
    (bindings.map (·.name.qualifier)).Nodup := by
  have hlength : b'.names.length = bindings.length := by
    rw [h.names_eq_of_empty, List.length_reverse, List.length_map]
  have hdistinct := (h.wellNumbered (Binders.wellNumbered_empty owner)).distinct (hlength ▸ hfew)
  rw [Binders.Distinct, h.names_eq_of_empty, List.map_reverse, List.nodup_reverse,
    List.map_map] at hdistinct
  exact hdistinct

end Numbered

/-! ### Derivations number their binders -/

/-- The scope behind a pattern is that of its last binder. -/
theorem innermost_reverse_append (owner : Namespace) (env names : List Name) :
    innermost owner (names.reverse ++ env) =
      Binding.scopeBehind (innermost owner env) names := by
  induction names generalizing env with
  | nil => rfl
  | cons name rest ih =>
    rw [List.reverse_cons, List.append_assoc, List.singleton_append, ih]
    rfl

section Patterns

variable {ctx : Context} {env : List Name} {b b' : Binders}

/-- A new binder stands in a scope of the module. -/
theorem ScopeIn.freshBinder {owner : Namespace} (henv : ScopeIn owner (innermost owner env))
    (b : Binders) (ident : String) :
    ScopeIn owner (innermost owner (freshBinder owner env b ident :: env)) :=
  henv.child b.count.toNat

theorem numbered_freshBinders {owner : Namespace} (henv : ScopeIn owner (innermost owner env))
    (b : Binders) (fields : List Name) :
    Numbered owner b (Binding.nested (innermost owner env) (freshBinders owner env b fields))
      (afterBinders owner env b fields) := by
  induction fields generalizing env b with
  | nil => exact .nil
  | cons field rest ih =>
    -- The other fields stand in the scope of this one and are bound after it.
    exact .cons henv rfl (ih (henv.freshBinder b field.ident) _)

theorem scopeIn_freshBinders {owner : Namespace} (henv : ScopeIn owner (innermost owner env))
    (b : Binders) (fields : List Name) :
    ScopeIn owner
      (Binding.scopeBehind (innermost owner env) (freshBinders owner env b fields)) := by
  induction fields generalizing env b with
  | nil => exact henv
  | cons field rest ih => exact ih (henv.freshBinder b field.ident) _

/-- A pattern binds its binders, and what stands behind it is still inside the module. -/
theorem Pattern.Resolves.numbered {pattern pattern' : Pattern}
    (h : pattern.Resolves ctx env b pattern' b')
    (henv : ScopeIn ctx.owner (innermost ctx.owner env)) :
    Numbered ctx.owner b (Binding.nested (innermost ctx.owner env) pattern'.binders) b' ∧
      ScopeIn ctx.owner (innermost ctx.owner (pattern'.extend env)) := by
  rw [Pattern.extend, innermost_reverse_append]
  cases h with
  | lit => exact ⟨.nil, henv⟩
  | wildcard => exact ⟨.nil, henv⟩
  | bind => exact ⟨.cons henv rfl .nil, henv.freshBinder b _⟩
  | variant => exact ⟨numbered_freshBinders henv b _, scopeIn_freshBinders henv b _⟩

end Patterns

mutual

/-- **An expression binds each of its binders, in order.** -/
theorem Expr.Resolves.numbered {ctx : Context} {env : List Name} {depth : Nat} {e e' : Expr}
    {b b' : Binders} (henv : ScopeIn ctx.owner (innermost ctx.owner env)) :
    e.Resolves ctx env depth b e' b' →
      Numbered ctx.owner b (e'.bindings (innermost ctx.owner env)) b'
  | .lit _ => by
    rw [Expr.bindings]
    exact .nil
  | .var _ _ => by
    rw [Expr.bindings]
    exact .nil
  | .app _ hfunc harg => by
    rw [Expr.bindings]
    exact (hfunc.numbered henv).append (harg.numbered henv)
  | .lambda _ hbody => by
    rw [Expr.bindings]
    exact .cons henv rfl (hbody.numbered (henv.freshBinder b _))
  | .annot _ hexpr _ => by
    rw [Expr.bindings]
    exact hexpr.numbered henv
  | .letIn _ hbound hbody => by
    rw [Expr.bindings]
    -- The binder gets the number that is next after `bound`.
    exact (hbound.numbered henv).append
      (.cons henv rfl (hbody.numbered (henv.freshBinder _ _)))
  | .ifThenElse _ hcond hthen helse => by
    rw [Expr.bindings]
    exact (hcond.numbered henv).append ((hthen.numbered henv).append (helse.numbered henv))
  | .matchWith _ hscrutinee harms => by
    rw [Expr.bindings]
    exact (hscrutinee.numbered henv).append (harms.numbered henv)

theorem Arm.Resolves.numbered {ctx : Context} {env : List Name} {depth : Nat} {arm arm' : Arm}
    {b b' : Binders} (henv : ScopeIn ctx.owner (innermost ctx.owner env)) :
    arm.Resolves ctx env depth b arm' b' →
      Numbered ctx.owner b (arm'.bindings (innermost ctx.owner env)) b'
  | .mk hpattern hbody => by
    -- The body stands behind the pattern and goes on where the pattern has stopped.
    obtain ⟨hbinders, hbehind⟩ := hpattern.numbered henv
    rw [Arm.bindings, ← innermost_reverse_append]
    exact hbinders.append (hbody.numbered hbehind)

theorem Arm.ResolvesList.numbered {ctx : Context} {env : List Name} {depth : Nat}
    {arms arms' : List Arm} {b b' : Binders}
    (henv : ScopeIn ctx.owner (innermost ctx.owner env)) :
    Arm.ResolvesList ctx env depth arms b arms' b' →
      Numbered ctx.owner b (Arm.listBindings (innermost ctx.owner env) arms') b'
  | .nil => by
    rw [Arm.listBindings]
    exact .nil
  | .cons harm hrest => by
    rw [Arm.listBindings]
    exact (harm.numbered henv).append (hrest.numbered henv)

end

theorem Decl.Resolves.numbered {ctx : Context} {decl decl' : Decl} {b b' : Binders}
    (h : decl.Resolves ctx b decl' b') : Numbered ctx.owner b (decl'.bindings ctx.owner) b' := by
  cases h with
  | value _ hbody => exact hbody.numbered (.refl ctx.owner)
  | data _ => exact .nil

/-- **Declarations bind their binders from one to the next.** -/
theorem Decl.ResolvesList.numbered {ctx : Context} {decls decls' : List Decl} {b b' : Binders}
    (h : Decl.ResolvesList ctx decls b decls' b') :
    Numbered ctx.owner b (decls'.flatMap (Decl.bindings ctx.owner)) b' := by
  induction h with
  | nil => exact .nil
  | cons hdecl _ ih =>
    rw [List.flatMap_cons]
    exact hdecl.numbered.append ih

/-! ### As many binders as in the source -/

section Counts

variable {ctx : Context} {env : List Name} {b b' : Binders}

theorem length_afterBinders (owner : Namespace) (env : List Name) (b : Binders)
    (fields : List Name) :
    (afterBinders owner env b fields).names.length = b.names.length + fields.length := by
  induction fields generalizing env b with
  | nil => rfl
  | cons field rest ih =>
    rw [afterBinders, ih, List.length_cons]
    show b.names.length + 1 + rest.length = _
    omega

theorem Pattern.Resolves.length_names {pattern pattern' : Pattern}
    (h : pattern.Resolves ctx env b pattern' b') :
    b'.names.length = b.names.length + pattern.binders.length := by
  cases h with
  | lit => rfl
  | wildcard => rfl
  | bind => rfl
  | variant => exact length_afterBinders _ _ _ _

mutual

theorem Expr.Resolves.length_names {ctx : Context} {env : List Name} {depth : Nat} {e e' : Expr}
    {b b' : Binders} : e.Resolves ctx env depth b e' b' →
      b'.names.length = b.names.length + e.binderCount
  | .lit _ => by rw [Expr.binderCount, Nat.add_zero]
  | .var _ _ => by rw [Expr.binderCount, Nat.add_zero]
  | .app _ hfunc harg => by
    rw [Expr.binderCount, harg.length_names, hfunc.length_names, Nat.add_assoc]
  | .lambda _ hbody => by
    rw [Expr.binderCount, hbody.length_names, ← Nat.add_assoc, Nat.add_right_comm]
    rfl
  | .annot _ hexpr _ => by rw [Expr.binderCount, hexpr.length_names]
  | .letIn _ hbound hbody => by
    have hlength := hbody.length_names
    rw [Expr.binderCount, hlength, afterBinder]
    show _ + 1 + _ = _
    rw [hbound.length_names]
    omega
  | .ifThenElse _ hcond hthen helse => by
    rw [Expr.binderCount, helse.length_names, hthen.length_names, hcond.length_names, Nat.add_assoc,
      Nat.add_assoc]
  | .matchWith _ hscrutinee harms => by
    rw [Expr.binderCount, harms.length_names, hscrutinee.length_names, Nat.add_assoc]

theorem Arm.Resolves.length_names {ctx : Context} {env : List Name} {depth : Nat} {arm arm' : Arm}
    {b b' : Binders} : arm.Resolves ctx env depth b arm' b' →
      b'.names.length = b.names.length + arm.binderCount
  | .mk hpattern hbody => by
    rw [Arm.binderCount, hbody.length_names, hpattern.length_names]
    omega

theorem Arm.ResolvesList.length_names {ctx : Context} {env : List Name} {depth : Nat}
    {arms arms' : List Arm} {b b' : Binders} : Arm.ResolvesList ctx env depth arms b arms' b' →
      b'.names.length = b.names.length + Arm.listBinderCount arms
  | .nil => by rw [Arm.listBinderCount, Nat.add_zero]
  | .cons harm hrest => by
    rw [Arm.listBinderCount, hrest.length_names, harm.length_names, Nat.add_assoc]

end

theorem Decl.Resolves.length_names {decl decl' : Decl} (h : decl.Resolves ctx b decl' b') :
    b'.names.length = b.names.length + decl.binderCount := by
  cases h with
  | value _ hbody => exact hbody.length_names
  | data _ => exact (Nat.add_zero _).symm

/-- **As many binders are met as the declarations have.** -/
theorem Decl.ResolvesList.length_names {decls decls' : List Decl}
    (h : Decl.ResolvesList ctx decls b decls' b') :
    b'.names.length = b.names.length + Decl.listBinderCount decls := by
  induction h with
  | nil => rfl
  | cons hdecl _ ih => rw [Decl.listBinderCount, ih, hdecl.length_names, Nat.add_assoc]

end Counts

end NameResolution
