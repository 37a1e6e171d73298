import NameResolution.Proofs.Pointwise
import NameResolution.Proofs.Scope.Meaning
import NameResolution.Proofs.Scope.Numbering

/-!
# Occurrences in resolved syntax

An `Occurrence` is a variable with the binders whose scopes enclose it, or the name of a type.  The
occurrences of a term are read off the term alone: what `Expr.occurrences` puts around a variable
are the binders that stand in the same tree.

A resolved term has the occurrences of the given one in the same order, and each of them has been
resolved by the rule for names of its sort (`Decl.ResolvesList.occurrences`): the rule for each form
of syntax hands to its parts the binders that the resolved tree has at that place, and these have
been met by then.  So resolving leaves no occurrence without a meaning
(`Occurrence.Resolves.refersTo`).
-/

namespace NameResolution

/-! ### Occurrences -/

/-- A place in which a name is used. -/
inductive Occurrence where
  /-- A variable, with the binders around it, innermost first. -/
  | value (node : NodeId) (name : Name) (enclosing : List Name)
  /-- The name of a type. -/
  | type (node : NodeId) (name : Name)

namespace Occurrence

/-- The node at which the name stands. -/
def node : Occurrence → NodeId
  | value node _ _ | type node _ => node

/-- The name that is used. -/
def name : Occurrence → Name
  | value _ name _ | type _ name => name

end Occurrence

mutual

/-- The names of types in a type. -/
def Ty.occurrences : Ty → List Occurrence
  | .var .. => []
  | .con id name args => .type id name :: Ty.listOccurrences args
  | .arrow _ param result => param.occurrences ++ result.occurrences

/-- The names of types in a list of types. -/
def Ty.listOccurrences : List Ty → List Occurrence
  | [] => []
  | type :: rest => type.occurrences ++ Ty.listOccurrences rest

end

/-- The name of the type in a variant pattern. -/
def Pattern.occurrences : Pattern → List Occurrence
  | .lit .. | .wildcard _ | .bind .. => []
  | .variant id type _ _ => [.type id type]

mutual

/-- The occurrences in an expression that stands inside the binders `env`. -/
def Expr.occurrences (env : List Name) : Expr → List Occurrence
  | .lit .. => []
  | .var id name => [.value id name env]
  | .app _ func arg => func.occurrences env ++ arg.occurrences env
  | .lambda _ param body => body.occurrences (param :: env)
  | .annot _ expr type => expr.occurrences env ++ type.occurrences
  | .letIn _ binder bound body => bound.occurrences env ++ body.occurrences (binder :: env)
  | .ifThenElse _ cond thenBranch elseBranch =>
    cond.occurrences env ++ (thenBranch.occurrences env ++ elseBranch.occurrences env)
  | .matchWith _ scrutinee arms => scrutinee.occurrences env ++ Arm.listOccurrences env arms

/-- The occurrences in an arm. -/
def Arm.occurrences (env : List Name) : Arm → List Occurrence
  | ⟨pattern, body⟩ => pattern.occurrences ++ body.occurrences (pattern.extend env)

/-- The occurrences in a list of arms. -/
def Arm.listOccurrences (env : List Name) : List Arm → List Occurrence
  | [] => []
  | arm :: rest => arm.occurrences env ++ Arm.listOccurrences env rest

end

/-- The occurrences in a declaration. -/
def Decl.occurrences : Decl → List Occurrence
  | .value _ _ signature body => signature.elim [] Ty.occurrences ++ body.occurrences []
  | .data _ _ _ ctors => ctors.flatMap fun ctor => Ty.listOccurrences ctor.fields

/-- The occurrences in a module. -/
def Module.occurrences (m : Module) : List Occurrence := m.decls.flatMap Decl.occurrences

/-! ### Occurrences with a meaning -/

/-- The name is that of a binder whose scope encloses what stands inside the binders `enclosing`.
As long as scopes do not start again, it is one of these. -/
structure Module.Sees (m : Module) (enclosing : List Name) (name : Name) : Prop where
  binder : name ∈ m.bindings.map Binding.name
  encloses : name.qualifier.encloses (innermost m.ns enclosing) = true
  mem_enclosing : m.bindings.length ≤ UInt32.size → name ∈ enclosing

/-- A variable is a binder that it sees or a known name, and the name of a type is primitive or
known. -/
def Occurrence.RefersTo (m : Module) (known : Name → Prop) : Occurrence → Prop
  | .value _ name enclosing => m.Sees enclosing name ∨ known name
  | .type _ name => (name.isQualified = false ∧ name.ident ∈ primitiveTypes) ∨ known name

theorem Occurrence.RefersTo.imp {m : Module} {known known' : Name → Prop} {o : Occurrence}
    (h : o.RefersTo m known) (hknown : ∀ name, known name → known' name) : o.RefersTo m known' := by
  cases o with
  | value node name enclosing => exact h.imp_right (hknown name)
  | type node name => exact h.imp_right (hknown name)

/-! ### Resolved occurrences -/

/-- How an occurrence is resolved in a module in which the binders `met` are met.  A variable is
looked up when the binders that the resolved tree has around it have been met. -/
inductive Occurrence.Resolves (ctx : Context) (met : List Name) : (o o' : Occurrence) → Prop
  | value {node : NodeId} {name name' : Name} {enclosing enclosing' : List Name} {b : Binders}
      (htracks : Tracks ctx.owner enclosing' b) (hmet : b.names <:+ met)
      (hname : ctx.variableAt b (innermost ctx.owner enclosing') node name = .ok name') :
      Resolves ctx met (.value node name enclosing) (.value node name' enclosing')
  | type {node : NodeId} {name name' : Name} (hname : ctx.typeName node name = .ok name') :
      Resolves ctx met (.type node name) (.type node name')

/-- The fields of a pattern stand one inside the other. -/
theorem Tracks.freshBinders {owner : Namespace} {env : List Name} {b : Binders}
    (h : Tracks owner env b) (fields : List Name) :
    Tracks owner ((freshBinders owner env b fields).reverse ++ env)
      (afterBinders owner env b fields) := by
  induction fields generalizing env b with
  | nil => exact h
  | cons field rest ih =>
    rw [NameResolution.freshBinders, List.reverse_cons, List.append_assoc]
    exact ih (h.bind field.ident)

mutual

theorem Ty.Resolves.occurrences {ctx : Context} {met : List Name} {depth : Nat} {type type' : Ty} :
    type.Resolves ctx depth type' →
      List.Forall₂ (Occurrence.Resolves ctx met) type.occurrences type'.occurrences
  | .var _ => by
    rw [Ty.occurrences]
    exact .nil
  | .con _ hname hargs => by
    rw [Ty.occurrences, Ty.occurrences]
    exact .cons (.type hname) hargs.occurrences
  | .arrow _ hparam hresult => by
    rw [Ty.occurrences, Ty.occurrences]
    exact List.rel_append hparam.occurrences hresult.occurrences

theorem Ty.ResolvesList.occurrences {ctx : Context} {met : List Name} {depth : Nat}
    {types types' : List Ty} :
    Ty.ResolvesList ctx depth types types' →
      List.Forall₂ (Occurrence.Resolves ctx met) (Ty.listOccurrences types)
        (Ty.listOccurrences types')
  | .nil => .nil
  | .cons htype hrest => by
    rw [Ty.listOccurrences, Ty.listOccurrences]
    exact List.rel_append htype.occurrences hrest.occurrences

end

section Patterns

variable {ctx : Context} {met env : List Name} {pattern pattern' : Pattern} {b b' : Binders}

theorem Pattern.Resolves.occurrences (h : pattern.Resolves ctx env b pattern' b') :
    List.Forall₂ (Occurrence.Resolves ctx met) pattern.occurrences pattern'.occurrences := by
  cases h with
  | lit => exact .nil
  | wildcard => exact .nil
  | bind => exact .nil
  | variant htype => exact .cons (.type htype) .nil

theorem Pattern.Resolves.tracks (h : pattern.Resolves ctx env b pattern' b')
    (henv : Tracks ctx.owner env b) : Tracks ctx.owner (pattern'.extend env) b' := by
  cases h with
  | lit => exact henv
  | wildcard => exact henv
  | bind => exact henv.bind _
  | variant htype => exact henv.freshBinders _

end Patterns

section Later

variable {ctx : Context} {env : List Name} {depth : Nat} {b b' : Binders}

/-- When an expression has been resolved, the binders around it are still among those met. -/
theorem Expr.Resolves.later {e e' : Expr} (h : e.Resolves ctx env depth b e' b')
    (henv : Tracks ctx.owner env b) : Tracks ctx.owner env b' ∧ b.names <:+ b'.names :=
  have hnumbered := h.numbered henv.chain.scopeIn
  ⟨hnumbered.tracks henv, hnumbered.suffix⟩

theorem Arm.Resolves.later {arm arm' : Arm} (h : arm.Resolves ctx env depth b arm' b')
    (henv : Tracks ctx.owner env b) : Tracks ctx.owner env b' ∧ b.names <:+ b'.names :=
  have hnumbered := h.numbered henv.chain.scopeIn
  ⟨hnumbered.tracks henv, hnumbered.suffix⟩

theorem Arm.ResolvesList.later {arms arms' : List Arm}
    (h : Arm.ResolvesList ctx env depth arms b arms' b') (henv : Tracks ctx.owner env b) :
    Tracks ctx.owner env b' ∧ b.names <:+ b'.names :=
  have hnumbered := h.numbered henv.chain.scopeIn
  ⟨hnumbered.tracks henv, hnumbered.suffix⟩

theorem Decl.ResolvesList.suffix {decls decls' : List Decl}
    (h : Decl.ResolvesList ctx decls b decls' b') : b.names <:+ b'.names :=
  h.numbered.suffix

end Later

mutual

/-- The binders around the given expression play no part. -/
theorem Expr.Resolves.occurrences {ctx : Context} {met env : List Name} {depth : Nat} {e e' : Expr}
    {b b' : Binders} (given : List Name) (henv : Tracks ctx.owner env b) (hmet : b'.names <:+ met) :
    e.Resolves ctx env depth b e' b' →
      List.Forall₂ (Occurrence.Resolves ctx met) (e.occurrences given) (e'.occurrences env)
  | .lit _ => by
    rw [Expr.occurrences]
    exact .nil
  | .var _ hname => by
    rw [Expr.occurrences, Expr.occurrences]
    exact .cons (.value henv hmet hname) .nil
  | .app _ hfunc harg => by
    obtain ⟨hlater, -⟩ := hfunc.later henv
    obtain ⟨-, hsuffix⟩ := harg.later hlater
    rw [Expr.occurrences, Expr.occurrences]
    exact List.rel_append (hfunc.occurrences given henv (hsuffix.trans hmet))
      (harg.occurrences given hlater hmet)
  | .lambda _ hbody => by
    -- The binder that the rule adds around the body is the one that the resolved node has.
    rw [Expr.occurrences, Expr.occurrences]
    exact hbody.occurrences _ (henv.bind _) hmet
  | .annot _ hexpr htype => by
    rw [Expr.occurrences, Expr.occurrences]
    exact List.rel_append (hexpr.occurrences given henv hmet) htype.occurrences
  | .letIn _ hbound hbody => by
    obtain ⟨hlater, -⟩ := hbound.later henv
    obtain ⟨-, hsuffix⟩ := hbody.later (hlater.bind _)
    have hbounded := (List.suffix_cons _ _).trans (hsuffix.trans hmet)
    rw [Expr.occurrences, Expr.occurrences]
    exact List.rel_append (hbound.occurrences given henv hbounded)
      (hbody.occurrences _ (hlater.bind _) hmet)
  | .ifThenElse _ hcond hthen helse => by
    obtain ⟨hlater, -⟩ := hcond.later henv
    obtain ⟨hlater', hsuffix⟩ := hthen.later hlater
    obtain ⟨-, hsuffix'⟩ := helse.later hlater'
    have hmet' := hsuffix'.trans hmet
    rw [Expr.occurrences, Expr.occurrences]
    exact List.rel_append (hcond.occurrences given henv (hsuffix.trans hmet'))
      (List.rel_append (hthen.occurrences given hlater hmet')
        (helse.occurrences given hlater' hmet))
  | .matchWith _ hscrutinee harms => by
    obtain ⟨hlater, -⟩ := hscrutinee.later henv
    obtain ⟨-, hsuffix⟩ := harms.later hlater
    rw [Expr.occurrences, Expr.occurrences]
    exact List.rel_append (hscrutinee.occurrences given henv (hsuffix.trans hmet))
      (harms.occurrences given hlater hmet)

theorem Arm.Resolves.occurrences {ctx : Context} {met env : List Name} {depth : Nat}
    {arm arm' : Arm} {b b' : Binders} (given : List Name) (henv : Tracks ctx.owner env b)
    (hmet : b'.names <:+ met) :
    arm.Resolves ctx env depth b arm' b' →
      List.Forall₂ (Occurrence.Resolves ctx met) (arm.occurrences given) (arm'.occurrences env)
  | .mk hpattern hbody => by
    rw [Arm.occurrences, Arm.occurrences]
    exact List.rel_append hpattern.occurrences (hbody.occurrences _ (hpattern.tracks henv) hmet)

theorem Arm.ResolvesList.occurrences {ctx : Context} {met env : List Name} {depth : Nat}
    {arms arms' : List Arm} {b b' : Binders} (given : List Name) (henv : Tracks ctx.owner env b)
    (hmet : b'.names <:+ met) :
    Arm.ResolvesList ctx env depth arms b arms' b' →
      List.Forall₂ (Occurrence.Resolves ctx met) (Arm.listOccurrences given arms)
        (Arm.listOccurrences env arms')
  | .nil => .nil
  | .cons harm hrest => by
    obtain ⟨hlater, -⟩ := harm.later henv
    obtain ⟨-, hsuffix⟩ := hrest.later hlater
    rw [Arm.listOccurrences, Arm.listOccurrences]
    exact List.rel_append (harm.occurrences given henv (hsuffix.trans hmet))
      (hrest.occurrences given hlater hmet)

end

variable {ctx : Context} {met : List Name} {b b' : Binders}

theorem Constructor.occurrences_of_forall₂ {ctors ctors' : List Constructor}
    (h : List.Forall₂ (Constructor.Resolves ctx) ctors ctors') :
    List.Forall₂ (Occurrence.Resolves ctx met)
      (ctors.flatMap fun ctor => Ty.listOccurrences ctor.fields)
      (ctors'.flatMap fun ctor => Ty.listOccurrences ctor.fields) := by
  induction h with
  | nil => exact .nil
  | cons hctor _ ih =>
    obtain ⟨hfields⟩ := hctor
    rw [List.flatMap_cons, List.flatMap_cons]
    exact List.rel_append hfields.occurrences ih

theorem Decl.Resolves.occurrences {decl decl' : Decl} (h : decl.Resolves ctx b decl' b')
    (hb : b.WellNumbered ctx.owner) (hmet : b'.names <:+ met) :
    List.Forall₂ (Occurrence.Resolves ctx met) decl.occurrences decl'.occurrences := by
  cases h with
  | value hsignature hbody =>
    refine List.rel_append ?_ (hbody.occurrences [] (.outermost hb) hmet)
    cases hsignature with
    | none => exact .nil
    | some htype => exact htype.occurrences
  | data hctors => exact Constructor.occurrences_of_forall₂ hctors

/-- **Each occurrence of a resolved declaration has been resolved by the rule for its sort.** -/
theorem Decl.ResolvesList.occurrences {decls decls' : List Decl}
    (h : Decl.ResolvesList ctx decls b decls' b') (hb : b.WellNumbered ctx.owner)
    (hmet : b'.names <:+ met) :
    List.Forall₂ (Occurrence.Resolves ctx met) (decls.flatMap Decl.occurrences)
      (decls'.flatMap Decl.occurrences) := by
  induction h with
  | nil => exact .nil
  | cons hdecl hrest ih =>
    rw [List.flatMap_cons, List.flatMap_cons]
    exact List.rel_append (hdecl.occurrences hb (hrest.suffix.trans hmet))
      (ih (hdecl.numbered.wellNumbered hb) hmet)

/-! ### Modules -/

/-- What an occurrence of a resolved module is resolved to has a meaning. -/
theorem Occurrence.Resolves.refersTo {m : Module} (hctx : ctx.owner = m.ns)
    (hnumbered : Numbered m.ns .empty m.bindings b') {o o' : Occurrence}
    (h : o.Resolves ctx b'.names o') : o'.RefersTo m ctx.Gives := by
  have hnames := hnumbered.names_eq_of_empty
  cases h with
  | @value node name name' enclosing enclosing' b htracks hmet hname =>
    refine (Context.variableAt_eq_ok hname).2.2.imp_left fun hvisible => ?_
    rw [hctx] at htracks hvisible
    obtain ⟨hmem, hencloses⟩ := Binders.isVisible_iff.mp hvisible
    refine ⟨?_, hencloses, fun hfew => ?_⟩
    · rw [← List.mem_reverse, ← hnames]
      exact hmet.subset hmem
    · -- Not more binders have been met here than in the whole module.
      have hlength : b.names.length ≤ UInt32.size := by
        refine Nat.le_trans hmet.length_le ?_
        rw [hnames, List.length_reverse, List.length_map]
        exact hfew
      rw [htracks.isVisible_eq (htracks.wellNumbered.distinct hlength)] at hvisible
      exact List.contains_iff_mem.mp hvisible
  | type hname => exact (Context.typeName_eq_ok hname).2.2

end NameResolution
