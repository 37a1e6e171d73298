import NameResolution.Proofs.Scope.Derivation

/-!
# Scopes that start again

The numbers of scopes start again after 2 ^ 32 binders.  So in a match with 2 ^ 32 + 1 arms that
bind one identifier each, the first and the last binder get the same scope, and in what stands
behind the last one the first one can still be seen (`Module.exists_resolve_matching`).  What is
shown of modules with at most 2 ^ 32 binders need not hold of such a module.
-/

namespace NameResolution

/-- What is bound directly in the scope of a place is what it is looked up to there. -/
theorem Context.variableAt_of_mem {ctx : Context} {b : Binders} {lexical : Namespace}
    {ident : String} (hdecl : ctx.interfaces.hasDecl ctx.owner ident = false)
    (hne : lexical ≠ ctx.owner) (hbound : lexical.name ident ∈ b.names) (node : NodeId) :
    ctx.variableAt b lexical node (.unqualified ident) = .ok (lexical.name ident) := by
  obtain ⟨rest, hrest⟩ := lexical.exists_outward_eq_cons
  have hlookup : b.lookup lexical ctx.owner ident = some (lexical.name ident) := by
    rw [Binders.lookup, hrest, List.takeWhile_cons_of_pos (by simpa using hne), List.map_cons,
      List.find?_cons_of_pos (List.contains_iff_mem.mpr hbound)]
  have hqualified : ¬(Name.unqualified ident).isQualified = true := Bool.false_ne_true
  have hident : (Name.unqualified ident).ident = ident := rfl
  rw [variableAt, if_neg hqualified, hident, hdecl, hlookup]
  rfl

/-! ### Arms with one binder each -/

/-- An arm that binds an identifier. -/
def Arm.binding (name : Name) (body : Expr) : Arm := ⟨.bind ⟨4⟩ name, body⟩

section Arms

variable {ctx : Context} {env : List Name} {depth : Nat} {b b₁ b' : Binders}

theorem Arm.ResolvesList.append {arms arms' rest rest' : List Arm}
    (h : Arm.ResolvesList ctx env depth arms b arms' b₁)
    (hrest : Arm.ResolvesList ctx env depth rest b₁ rest' b') :
    Arm.ResolvesList ctx env depth (arms ++ rest) b (arms' ++ rest') b' := by
  induction arms generalizing b arms' with
  | nil =>
    cases h
    exact hrest
  | cons arm arms ih =>
    obtain _ | ⟨harm, harms⟩ := h
    exact .cons harm (ih harms)

/-- Arms with one binder each take one number each. -/
theorem Arm.exists_resolvesList_replicate (hdepth : depth < ctx.limit.toNat) (env : List Name)
    (name : Name) (n : Nat) (b : Binders) :
    ∃ arms' b', Arm.ResolvesList ctx env depth
        (List.replicate n (.binding name (.lit ⟨5⟩ .unit))) b arms' b' ∧
      (∀ arm ∈ arms', ∃ name', arm = .binding name' (.lit ⟨5⟩ .unit)) ∧
      b.names ⊆ b'.names ∧ b'.count = b.count + UInt32.ofNat n := by
  induction n generalizing b with
  | zero => exact ⟨[], b, .nil, nofun, List.Subset.refl _, (UInt32.add_zero _).symm⟩
  | succ n ih =>
    obtain ⟨arms', b', harms, hshape, hsubset, hcount⟩ :=
      ih (afterBinder ctx.owner env b name.ident)
    refine ⟨_, b', .cons (.mk .bind (.lit hdepth)) harms, ?_, ?_, ?_⟩
    · exact List.forall_mem_cons.mpr ⟨⟨_, rfl⟩, hshape⟩
    · exact List.Subset.trans (List.subset_cons_self ..) hsubset
    · rw [hcount, UInt32.ofNat_add]
      show b.count + 1 + UInt32.ofNat n = b.count + (UInt32.ofNat n + 1)
      rw [UInt32.add_assoc, UInt32.add_comm 1]

end Arms

/-! ### A match with 2 ^ 32 + 1 binders -/

/-- A module that matches a value with some arms. -/
def Module.matching (arms : List Arm) : Module :=
  ⟨⟨0⟩, ⟨["Main"]⟩, [], [], [.value ⟨1⟩ "f" none (.matchWith ⟨2⟩ (.lit ⟨3⟩ .unit) arms)]⟩

/-- Arms with 2 ^ 32 - 1 other ones between the first and the last one. -/
def Arm.farApart (first last : Arm) : List Arm :=
  first :: (List.replicate (UInt32.size - 1) (.binding (.unqualified "b") (.lit ⟨5⟩ .unit)) ++
    [last])

/-- **The first and the last one of 2 ^ 32 + 1 binders share a scope.** -/
theorem Module.exists_resolve_matching {interfaces : Interfaces} {a c : String}
    {body body' last last' : Expr} (hreach : interfaces.reach ⟨["Main"]⟩ = .ok [])
    (hbody : ∀ b : Binders, Namespace.name ⟨["Main", "#0"]⟩ a ∈ b.names →
      body.Resolves ⟨interfaces, ⟨["Main"]⟩, [], 512⟩ [Namespace.name ⟨["Main", "#0"]⟩ a] 1 b
        body' b)
    (hlast : ∀ b : Binders, Namespace.name ⟨["Main", "#0"]⟩ a ∈ b.names →
      last.Resolves ⟨interfaces, ⟨["Main"]⟩, [], 512⟩ [Namespace.name ⟨["Main", "#0"]⟩ c] 1 b
        last' b) :
    ∃ others,
      (matching (Arm.farApart (.binding (.unqualified a) body)
          (.binding (.unqualified c) last))).resolve interfaces 512 =
        .ok (matching (.binding (Namespace.name ⟨["Main", "#0"]⟩ a) body' ::
          (others ++ [.binding (Namespace.name ⟨["Main", "#0"]⟩ c) last']))) ∧
      ∀ arm ∈ others, ∃ name, arm = .binding name (.lit ⟨5⟩ .unit) := by
  set ctx : Context := ⟨interfaces, ⟨["Main"]⟩, [], 512⟩
  have hdepth (depth : Nat) (h : depth < 512) : depth < ctx.limit.toNat := h
  obtain ⟨others, b, hothers, hshape, hsubset, hcount⟩ :=
    Arm.exists_resolvesList_replicate (hdepth 1 (by decide)) [] (.unqualified "b")
      (UInt32.size - 1) (afterBinder ctx.owner [] .empty a)
  -- So many binders later the numbers start again.
  have hzero : b.count = 0 := by
    rw [hcount]
    show (1 : UInt32) + UInt32.ofNat (UInt32.size - 1) = 0
    decide
  have hbound : Namespace.name ⟨["Main", "#0"]⟩ a ∈ b.names := hsubset List.mem_cons_self
  have hfirst : Arm.Resolves ctx [] 1 (.binding (.unqualified a) body) .empty
      (.binding (Namespace.name ⟨["Main", "#0"]⟩ a) body') (afterBinder ctx.owner [] .empty a) :=
    .mk .bind (hbody _ List.mem_cons_self)
  -- So the last binder gets the scope of the first one, which is still among those met.
  have hfresh : freshBinder ctx.owner [] b c = Namespace.name ⟨["Main", "#0"]⟩ c := by
    rw [freshBinder, Binders.bind, hzero]
    rfl
  have hlast' : Arm.Resolves ctx [] 1 (.binding (.unqualified c) last) b
      (.binding (Namespace.name ⟨["Main", "#0"]⟩ c) last') (afterBinder ctx.owner [] b c) := by
    have hlater := hlast (afterBinder ctx.owner [] b c) (List.mem_cons_of_mem _ hbound)
    rw [← hfresh] at hlater ⊢
    exact .mk .bind hlater
  have harms := Arm.ResolvesList.cons hfirst (hothers.append (.cons hlast' .nil))
  have hscrutinee : Expr.Resolves ctx [] 1 (.lit ⟨3⟩ .unit) .empty (.lit ⟨3⟩ .unit) .empty :=
    .lit (hdepth 1 (by decide))
  have hdecl : Decl.Resolves ctx (.value ⟨1⟩ "f" none (.matchWith ⟨2⟩ _ _)) .empty _ _ :=
    .value .none (.matchWith (hdepth 0 (by decide)) hscrutinee harms)
  exact ⟨others, resolve_eq_ok_iff.mpr ⟨[], _, _, hreach, .cons hdecl .nil, rfl⟩, hshape⟩

end NameResolution
