import NameResolution.Proofs.Nesting
import NameResolution.Scope.Binders
import NameResolution.Syntax
import Mathlib.Data.List.Find
import Mathlib.Data.List.Nodup

/-!
# What can be seen of the binders met so far

A binder is never forgotten, so the set of binders says nothing about scopes by itself.
`Binders.WellNumbered` is what every `bind` keeps: each binder has a scope inside the module, with
the number of its place among the binders.  The numbers start again after 2 ^ 32 binders, so as long
as there are no more of them, no two binders share a scope (`Binders.WellNumbered.distinct`).

`Chain` says that each binder of a list stands directly in the scope of the next one.  If such a
chain ends at a place and its binders have been met (`Tracks`), then they can be seen from the
place.  If besides no two binders share a scope, then what can be seen is exactly the chain: a name
is visible iff it is in the chain (`Tracks.isVisible_eq`), and looking an identifier up finds the
first binder of the chain that has it (`Tracks.lookup_eq`).  Of all other binders it then only
matters that their scopes are other ones.
-/

namespace NameResolution

/-! ### Scope numbers -/

/-- The segment that the binder with number `k` adds to the scope around it. -/
def scopeSegment (k : Nat) : String := "#" ++ toString k

theorem scopeSegment_inj {k l : Nat} : scopeSegment k = scopeSegment l ↔ k = l := by
  constructor
  · intro h
    have hrepr : k.repr = l.repr := (String.append_right_inj "#").mp h
    have hdigits : Nat.toDigits 10 k = Nat.toDigits 10 l := by
      rw [← Nat.toList_repr, hrepr, Nat.toList_repr]
    rw [← Nat.ofDigitChars_ten_toDigits (n := k), hdigits, Nat.ofDigitChars_ten_toDigits]
  · rintro rfl
    rfl

/-- The number that is handed out after `k` other ones. -/
def scopeNumber (k : Nat) : Nat := k % UInt32.size

theorem scopeNumber_of_lt {k : Nat} (h : k < UInt32.size) : scopeNumber k = k :=
  Nat.mod_eq_of_lt h

namespace Binders

/-! ### What is visible and what is found -/

theorem isVisible_iff {binders : Binders} {name : Name} {lexical : Namespace} :
    binders.isVisible name lexical = true ↔
      name ∈ binders.names ∧ name.qualifier.encloses lexical = true := by
  rw [isVisible, Bool.and_eq_true, List.contains_iff_mem]

/-- What is found is a visible binder of the identifier. -/
theorem visible_of_lookup {binders : Binders} {lexical owner : Namespace} {ident : String}
    {name : Name} (h : binders.lookup lexical owner ident = some name) :
    binders.isVisible name lexical = true ∧ name.ident = ident := by
  have hname := List.mem_of_find?_eq_some h
  obtain ⟨ns, hns, rfl⟩ := List.mem_map.mp hname
  have houtward := (List.takeWhile_prefix _).mem hns
  have hbound : ns.name ident ∈ binders.names := List.contains_iff_mem.mp (List.find?_some h)
  exact ⟨isVisible_iff.mpr ⟨hbound, Namespace.encloses_of_mem_outward houtward⟩, rfl⟩

/-! ### Numbered binders -/

/-- Every binder has a scope inside `owner`, with the number of its place among the binders. -/
structure WellNumbered (owner : Namespace) (binders : Binders) : Prop where
  count_eq : binders.count = UInt32.ofNat binders.names.length
  numbered : ∀ (k : Nat) (name : Name), binders.names.reverse[k]? = some name →
    ∃ outer, owner.encloses outer = true ∧
      name.qualifier = outer.child (scopeSegment (scopeNumber k))

/-- No two binders share a scope. -/
def Distinct (binders : Binders) : Prop := (binders.names.map Name.qualifier).Nodup

variable {owner : Namespace} {binders : Binders}

theorem wellNumbered_empty (owner : Namespace) : empty.WellNumbered owner :=
  ⟨rfl, fun _ _ h => by cases h⟩

/-- The new scope has the number of the new place. -/
theorem WellNumbered.bind (h : binders.WellNumbered owner) {lexical : Namespace}
    (hlexical : owner.encloses lexical = true) (ident : String) :
    (binders.bind lexical ident).2.WellNumbered owner where
  count_eq := by
    show binders.count + 1 = UInt32.ofNat (binders.names.length + 1)
    rw [h.count_eq, UInt32.ofNat_add]
    rfl
  numbered := by
    intro k name hname
    have hnames : (binders.bind lexical ident).2.names.reverse =
        binders.names.reverse ++ [(binders.bind lexical ident).1] := List.reverse_cons
    rw [hnames] at hname
    rcases Nat.lt_trichotomy k binders.names.reverse.length with hk | rfl | hk
    · rw [List.getElem?_append_left hk] at hname
      exact h.numbered k name hname
    · -- The binder of the last place is the new one, and the count is the number of that place.
      rw [List.getElem?_concat_length] at hname
      cases hname
      refine ⟨lexical, hlexical, ?_⟩
      show lexical.child (scopeSegment binders.count.toNat) = _
      rw [h.count_eq, List.length_reverse, UInt32.toNat_ofNat']
      rfl
    · rw [List.getElem?_eq_none (by rw [List.length_append, List.length_singleton]; omega)] at hname
      cases hname

/-- **As long as the numbers do not start again, no two binders share a scope.** -/
theorem WellNumbered.distinct (h : binders.WellNumbered owner)
    (hfew : binders.names.length ≤ UInt32.size) : binders.Distinct := by
  rw [Distinct, ← List.nodup_reverse, ← List.map_reverse, List.nodup_iff_getElem?_ne_getElem?]
  intro i j hij hj hsame
  rw [List.length_map] at hj
  have hi := Nat.lt_trans hij hj
  rw [List.getElem?_map, List.getElem?_map, List.getElem?_eq_getElem hi,
    List.getElem?_eq_getElem hj] at hsame
  obtain ⟨outer, -, houter⟩ := h.numbered i _ (List.getElem?_eq_getElem hi)
  obtain ⟨outer', -, houter'⟩ := h.numbered j _ (List.getElem?_eq_getElem hj)
  have hchild : outer.child (scopeSegment (scopeNumber i)) =
      outer'.child (scopeSegment (scopeNumber j)) :=
    houter.symm.trans ((Option.some.inj hsame).trans houter')
  -- A scope determines its number, and the number the place.
  have hnumber := scopeSegment_inj.mp (Namespace.child_inj.mp hchild).2
  rw [List.length_reverse] at hi hj
  rw [scopeNumber_of_lt (Nat.lt_of_lt_of_le hi hfew),
    scopeNumber_of_lt (Nat.lt_of_lt_of_le hj hfew)] at hnumber
  omega

/-- The scope of a binder lies inside the module and is not the module. -/
theorem WellNumbered.inside (h : binders.WellNumbered owner) {name : Name}
    (hname : name ∈ binders.names) :
    owner.encloses name.qualifier = true ∧ name.qualifier ≠ owner := by
  obtain ⟨k, hk⟩ := List.mem_iff_getElem?.mp (List.mem_reverse.mpr hname)
  obtain ⟨outer, houter, hqualifier⟩ := h.numbered k name hk
  rw [hqualifier]
  exact ⟨Namespace.encloses_trans houter (Namespace.encloses_child outer _),
    Namespace.ne_child_of_encloses houter _⟩

/-- A scope belongs to one binder. -/
theorem Distinct.eq_of_qualifier_eq (h : binders.Distinct) {a b : Name}
    (ha : a ∈ binders.names) (hb : b ∈ binders.names) (hab : a.qualifier = b.qualifier) : a = b :=
  List.inj_on_of_nodup_map h ha hb hab

end Binders

/-! ### Chains of enclosing binders -/

/-- The scope that the binders of `env`, innermost first, enclose in the module `owner`. -/
def innermost (owner : Namespace) : (env : List Name) → Namespace
  | [] => owner
  | binder :: _ => binder.qualifier

/-- Each binder of the list opens a scope directly inside the one that the rest encloses. -/
inductive Chain (owner : Namespace) : (env : List Name) → Prop
  | nil : Chain owner []
  | cons {env : List Name} (k : Nat) (ident : String) (h : Chain owner env) :
      Chain owner (((innermost owner env).child (scopeSegment k)).name ident :: env)

namespace Chain

variable {owner : Namespace} {env : List Name}

theorem owner_encloses (h : Chain owner env) : owner.encloses (innermost owner env) = true := by
  induction h with
  | nil => exact Namespace.encloses_refl owner
  | cons k ident _ ih => exact Namespace.encloses_trans ih (Namespace.encloses_child _ _)

/-- The scope of every binder of the chain encloses the end of the chain. -/
theorem qualifier_encloses (h : Chain owner env) {name : Name} (hname : name ∈ env) :
    name.qualifier.encloses (innermost owner env) = true := by
  induction h with
  | nil => simp at hname
  | cons k ident _ ih =>
    rcases List.mem_cons.mp hname with rfl | hname
    · exact Namespace.encloses_refl _
    · exact Namespace.encloses_trans (ih hname) (Namespace.encloses_child _ _)

/-- Between the module and the end of the chain there are only the scopes of the chain. -/
theorem mem_qualifiers (h : Chain owner env) {ns : Namespace} (howner : owner.encloses ns = true)
    (hne : ns ≠ owner) (hns : ns.encloses (innermost owner env) = true) :
    ns ∈ env.map Name.qualifier := by
  induction h with
  | nil => exact absurd (Namespace.encloses_antisymm hns howner) hne
  | cons k ident _ ih =>
    rcases Namespace.encloses_child_iff.mp hns with rfl | hns
    · exact List.mem_cons_self
    · exact List.mem_cons_of_mem _ (ih hns)

/-- The way outward from the end of the chain to the module visits the scopes of the chain. -/
theorem takeWhile_outward (h : Chain owner env) :
    (innermost owner env).outward.takeWhile (· != owner) = env.map Name.qualifier := by
  induction h with
  | nil => exact owner.takeWhile_outward_self
  | @cons env k ident h ih =>
    show ((innermost owner env).child (scopeSegment k)).outward.takeWhile (· != owner) = _
    rw [Namespace.takeWhile_outward_child h.owner_encloses, ih]
    rfl

end Chain

/-! ### The chain is what can be seen -/

/-- The binders met so far include the chain `env`, and each of them has the number of its place. -/
structure Tracks (owner : Namespace) (env : List Name) (binders : Binders) : Prop where
  wellNumbered : binders.WellNumbered owner
  chain : Chain owner env
  met : ∀ name ∈ env, name ∈ binders.names

namespace Tracks

variable {owner : Namespace} {env : List Name} {binders : Binders}

/-- Outside all scopes no binder has to be met. -/
theorem outermost (h : binders.WellNumbered owner) : Tracks owner [] binders :=
  ⟨h, .nil, fun _ hname => absurd hname List.not_mem_nil⟩

theorem initial (owner : Namespace) : Tracks owner [] .empty :=
  outermost (Binders.wellNumbered_empty owner)

/-- A new binder becomes the inner end of the chain. -/
theorem bind (h : Tracks owner env binders) (ident : String) :
    Tracks owner ((binders.bind (innermost owner env) ident).1 :: env)
      (binders.bind (innermost owner env) ident).2 where
  wellNumbered := h.wellNumbered.bind h.chain.owner_encloses ident
  chain := h.chain.cons binders.count.toNat ident
  met name hname := by
    rcases List.mem_cons.mp hname with rfl | hname
    · exact List.mem_cons_self
    · exact List.mem_cons_of_mem _ (h.met name hname)

/-- Binders met elsewhere do not touch the chain. -/
theorem of_subset (h : Tracks owner env binders) {later : Binders}
    (hlater : later.WellNumbered owner) (hsubset : binders.names ⊆ later.names) :
    Tracks owner env later :=
  ⟨hlater, h.chain, fun name hname => hsubset (h.met name hname)⟩

/-- **A name is visible iff it is a binder of the chain**, if no two binders share a scope. -/
theorem isVisible_eq (h : Tracks owner env binders) (hdistinct : binders.Distinct) (name : Name) :
    binders.isVisible name (innermost owner env) = env.contains name := by
  rw [Bool.eq_iff_iff, Binders.isVisible, Bool.and_eq_true, List.contains_iff_mem,
    List.contains_iff_mem]
  constructor
  · -- A scope around the end of the chain belongs to some binder of the chain, and to no other one.
    rintro ⟨hname, hencloses⟩
    obtain ⟨howner, hne⟩ := h.wellNumbered.inside hname
    obtain ⟨binder, hbinder, hsame⟩ :=
      List.mem_map.mp (h.chain.mem_qualifiers howner hne hencloses)
    rwa [← hdistinct.eq_of_qualifier_eq (h.met binder hbinder) hname hsame]
  · intro hname
    exact ⟨h.met name hname, h.chain.qualifier_encloses hname⟩

/-- In the scope of a binder of the chain no other identifier is bound. -/
theorem contains_name (h : Tracks owner env binders) (hdistinct : binders.Distinct) {binder : Name}
    (hbinder : binder ∈ env) (ident : String) :
    binders.names.contains (binder.qualifier.name ident) = (binder.ident == ident) := by
  rw [Bool.eq_iff_iff, List.contains_iff_mem, beq_iff_eq]
  constructor
  · intro hmem
    have := hdistinct.eq_of_qualifier_eq (h.met binder hbinder) hmem rfl
    rw [this]
    rfl
  · rintro rfl
    exact h.met binder hbinder

/-- **Looking up an identifier finds the innermost binder of the chain that has it**, if no two
binders share a scope. -/
theorem lookup_eq (h : Tracks owner env binders) (hdistinct : binders.Distinct) (ident : String) :
    binders.lookup (innermost owner env) owner ident = env.find? (·.ident == ident) := by
  have hfind : env.find? (fun binder => binders.names.contains (binder.qualifier.name ident)) =
      env.find? (·.ident == ident) :=
    List.find?_congr fun binder hbinder => h.contains_name hdistinct hbinder ident
  rw [Binders.lookup, h.chain.takeWhile_outward, List.map_map, List.find?_map]
  show Option.map _ (env.find? fun binder =>
    binders.names.contains (binder.qualifier.name ident)) = _
  rw [hfind]
  cases hbinder : env.find? (·.ident == ident) with
  | none => rfl
  | some binder =>
    have hident : binder.ident = ident := by simpa using List.find?_some hbinder
    subst hident
    rfl

end Tracks

/-! ### Binders of syntax -/

/-- The binders of a pattern from left to right. -/
def Pattern.binders : Pattern → List Name
  | .lit .. | .wildcard _ => []
  | .bind _ name => [name]
  | .variant _ _ _ fields => fields

/-- The binders that enclose what stands behind a pattern. -/
def Pattern.extend (env : List Name) (pattern : Pattern) : List Name :=
  pattern.binders.reverse ++ env

mutual

/-- The number of binders in an expression. -/
def Expr.binderCount : Expr → Nat
  | .lit .. | .var .. => 0
  | .app _ func arg => func.binderCount + arg.binderCount
  | .lambda _ _ body => body.binderCount + 1
  | .annot _ expr _ => expr.binderCount
  | .letIn _ _ bound body => bound.binderCount + (body.binderCount + 1)
  | .ifThenElse _ cond thenBranch elseBranch =>
    cond.binderCount + (thenBranch.binderCount + elseBranch.binderCount)
  | .matchWith _ scrutinee arms => scrutinee.binderCount + Arm.listBinderCount arms

/-- The number of binders in an arm. -/
def Arm.binderCount : Arm → Nat
  | ⟨pattern, body⟩ => body.binderCount + pattern.binders.length

/-- The number of binders in a list of arms. -/
def Arm.listBinderCount : List Arm → Nat
  | [] => 0
  | arm :: rest => arm.binderCount + Arm.listBinderCount rest

end

/-- The number of binders in a declaration. -/
def Decl.binderCount : Decl → Nat
  | .value _ _ _ body => body.binderCount
  | .data .. => 0

/-- The number of binders in declarations. -/
def Decl.listBinderCount : List Decl → Nat
  | [] => 0
  | decl :: rest => decl.binderCount + Decl.listBinderCount rest

/-- The number of binders in a module. -/
def Module.binderCount (m : Module) : Nat := Decl.listBinderCount m.decls

end NameResolution
