import NameResolution.Proofs.Scope.Binders

/-!
# Binders by longest prefix

Identifiers can be bound in any order and inside any namespaces, also inside ones that no binder
has opened or that have segments like those of scopes.  Each of fewer than 2 ^ 32 binders gets a
scope of its own all the same, since the last segment of a scope is the number of its binder
(`Binders.WellNumbered.bindAll`).

`Finds` says what looking an identifier up has to give: of its binders around a place, inside but
not at the module, the one with the longest scope.  To look up from a child is to look at the child
and then to look up from its parent (`Binders.lookup_child`), so by induction on the way from the
module to the place the right binder is found (`Binders.finds_lookup`).  Main statement:
`Binders.longestPrefix_bindAll`, about all sequences of calls.
-/

namespace NameResolution

namespace Binders

/-! ### Sequences of calls -/

/-- Binds identifiers one after the other, each in a new scope inside the namespace beside it. -/
def bindAll (binders : Binders) : (calls : List (Namespace × String)) → List Name × Binders
  | [] => ([], binders)
  | (lexical, ident) :: rest =>
    let (name, next) := binders.bind lexical ident
    let (names, last) := next.bindAll rest
    (name :: names, last)

/-- What has been returned is what has been bound, the last one first. -/
theorem names_bindAll (binders : Binders) (calls : List (Namespace × String)) :
    (binders.bindAll calls).2.names = (binders.bindAll calls).1.reverse ++ binders.names := by
  induction calls generalizing binders with
  | nil => rfl
  | cons call rest ih =>
    have hrest := ih (binders.bind call.1 call.2).2
    show ((binders.bind call.1 call.2).2.bindAll rest).2.names =
      ((binders.bind call.1 call.2).1 :: ((binders.bind call.1 call.2).2.bindAll rest).1).reverse ++
        binders.names
    rw [hrest, List.reverse_cons, List.append_assoc]
    rfl

/-- Every call returns a name. -/
theorem length_bindAll (binders : Binders) (calls : List (Namespace × String)) :
    (binders.bindAll calls).1.length = calls.length := by
  induction calls generalizing binders with
  | nil => rfl
  | cons call rest ih => exact congrArg (· + 1) (ih (binders.bind call.1 call.2).2)

/-- What the `k`-th call returns: its own identifier, in a scope that is numbered by the call. -/
theorem getElem?_bindAll (binders : Binders) (calls : List (Namespace × String)) (k : Nat) :
    (binders.bindAll calls).1[k]? = calls[k]?.map fun call =>
      (call.1.child (scopeSegment (binders.count + UInt32.ofNat k).toNat)).name call.2 := by
  induction calls generalizing binders k with
  | nil => rfl
  | cons call rest ih =>
    cases k with
    | zero =>
      have hcount : binders.count + UInt32.ofNat 0 = binders.count := UInt32.add_zero _
      rw [hcount]
      rfl
    | succ k =>
      have hrest := ih (binders.bind call.1 call.2).2 k
      have hcount : (binders.bind call.1 call.2).2.count + UInt32.ofNat k =
          binders.count + UInt32.ofNat (k + 1) := by
        rw [UInt32.ofNat_add, UInt32.add_comm (UInt32.ofNat k), ← UInt32.add_assoc]
        rfl
      rw [hcount] at hrest
      exact hrest

/-- The scopes of calls inside `owner` are scopes of their own. -/
theorem WellNumbered.bindAll {owner : Namespace} {binders : Binders}
    (h : binders.WellNumbered owner) {calls : List (Namespace × String)}
    (hcalls : ∀ call ∈ calls, owner.encloses call.1 = true) :
    (binders.bindAll calls).2.WellNumbered owner := by
  induction calls generalizing binders with
  | nil => exact h
  | cons call rest ih =>
    obtain ⟨hcall, hrest⟩ := List.forall_mem_cons.mp hcalls
    exact ih (h.bind hcall call.2) hrest

/-! ### Steps of looking up -/

/-- In the module itself nothing is looked up. -/
theorem lookup_self (binders : Binders) (owner : Namespace) (ident : String) :
    binders.lookup owner owner ident = none := by
  rw [lookup, Namespace.takeWhile_outward_self]
  rfl

/-- From a child one looks at the child first and then goes on from its parent. -/
theorem lookup_child (binders : Binders) {owner lexical : Namespace}
    (h : owner.encloses lexical = true) (segment ident : String) :
    binders.lookup (lexical.child segment) owner ident =
      if (lexical.child segment).name ident ∈ binders.names then
        some ((lexical.child segment).name ident)
      else binders.lookup lexical owner ident := by
  rw [lookup, Namespace.takeWhile_outward_child h, List.map_cons, List.find?_cons]
  by_cases hmem : (lexical.child segment).name ident ∈ binders.names
  · rw [if_pos hmem, List.contains_iff_mem.mpr hmem]
  · have hcontains : binders.names.contains ((lexical.child segment).name ident) = false := by
      rw [← Bool.not_eq_true, List.contains_iff_mem]
      exact hmem
    rw [if_neg hmem, hcontains, lookup]

end Binders

/-! ### What has to be found -/

/-- A binder of `ident` whose scope encloses `lexical` and is longer than `owner`. -/
structure Around (names : List Name) (owner lexical : Namespace) (ident : String) (name : Name) :
    Prop where
  bound : name ∈ names
  ident_eq : name.ident = ident
  encloses : name.qualifier.encloses lexical = true
  longer : owner.length < name.qualifier.length

/-- The result is the binder around `lexical` that has the longest scope, or there is none. -/
inductive Finds (names : List Name) (owner lexical : Namespace) (ident : String) :
    (result : Option Name) → Prop
  | longest {name : Name} (haround : Around names owner lexical ident name)
      (hlongest : ∀ other, Around names owner lexical ident other →
        other.qualifier.length ≤ name.qualifier.length) :
      Finds names owner lexical ident (some name)
  | nothing (hnone : ∀ name, ¬Around names owner lexical ident name) :
      Finds names owner lexical ident none

section Lookup

variable {names : List Name} {owner lexical : Namespace} {ident : String}

/-- What is around a place is around every place inside it. -/
theorem Around.child {name : Name} (h : Around names owner lexical ident name) (segment : String) :
    Around names owner (lexical.child segment) ident name :=
  { h with encloses := Namespace.encloses_trans h.encloses (Namespace.encloses_child ..) }

/-- What is around a child is the binder in the child itself, or is around the parent. -/
theorem Around.of_child {name : Name} {segment : String}
    (h : Around names owner (lexical.child segment) ident name) :
    name = (lexical.child segment).name ident ∨ Around names owner lexical ident name := by
  rcases Namespace.encloses_child_iff.mp h.encloses with hqualifier | hencloses
  · left
    calc name = ⟨name.qualifier, name.ident⟩ := rfl
      _ = ⟨lexical.child segment, ident⟩ := by rw [hqualifier, h.ident_eq]
  · exact Or.inr { h with encloses := hencloses }

/-- A binder in a child is around the child, and nothing around it has a longer scope. -/
theorem Finds.of_mem_child (howner : owner.encloses lexical = true) {segment : String}
    (hmem : (lexical.child segment).name ident ∈ names) :
    Finds names owner (lexical.child segment) ident
      (some ((lexical.child segment).name ident)) := by
  have hlonger : owner.length < (lexical.child segment).length := by
    have hlength := Namespace.length_le_of_encloses howner
    rw [Namespace.length_child]
    omega
  refine .longest ⟨hmem, rfl, Namespace.encloses_refl _, hlonger⟩ fun other hother => ?_
  exact Namespace.length_le_of_encloses hother.encloses

/-- Without a binder in the child the same is found from the child as from its parent. -/
theorem Finds.of_not_mem_child {result : Option Name} (h : Finds names owner lexical ident result)
    {segment : String} (hmem : (lexical.child segment).name ident ∉ names) :
    Finds names owner (lexical.child segment) ident result := by
  have hparent : ∀ name, Around names owner (lexical.child segment) ident name →
      Around names owner lexical ident name := by
    intro name hname
    refine hname.of_child.resolve_left ?_
    rintro rfl
    exact hmem hname.bound
  cases h with
  | longest haround hlongest =>
    exact .longest (haround.child segment) fun other hother => hlongest other (hparent other hother)
  | nothing hnone => exact .nothing fun name hname => hnone name (hparent name hname)

/-- **Looking up finds the binder with the longest scope**, whatever binders there are. -/
theorem Binders.finds_lookup (binders : Binders) (howner : owner.encloses lexical = true)
    (ident : String) :
    Finds binders.names owner lexical ident (binders.lookup lexical owner ident) := by
  induction howner using Namespace.encloses_induction with
  | self =>
    rw [lookup_self]
    refine .nothing fun name hname => ?_
    have hshorter := Namespace.length_le_of_encloses hname.encloses
    have hlonger := hname.longer
    omega
  | child lexical segment howner ih =>
    rw [lookup_child binders howner]
    by_cases hmem : (lexical.child segment).name ident ∈ binders.names
    · rw [if_pos hmem]
      exact .of_mem_child howner hmem
    · rw [if_neg hmem]
      exact ih.of_not_mem_child hmem

end Lookup

namespace Binders

/-- What is found is visible, and lies inside the scopes of all visible binders of the
identifier. -/
theorem isVisible_of_lookup {binders : Binders} {owner lexical : Namespace} {ident : String}
    {name : Name} (howner : owner.encloses lexical = true)
    (h : binders.lookup lexical owner ident = some name) :
    binders.isVisible name lexical = true ∧
      ∀ other, binders.isVisible other lexical = true → other.ident = ident →
        owner.length < other.qualifier.length → other.qualifier.encloses name.qualifier = true := by
  have hfinds := binders.finds_lookup howner ident
  rw [h] at hfinds
  cases hfinds with
  | longest haround hlongest =>
    refine ⟨isVisible_iff.mpr ⟨haround.bound, haround.encloses⟩, ?_⟩
    intro other hvisible hident hlonger
    obtain ⟨hbound, hencloses⟩ := isVisible_iff.mp hvisible
    have hlength := hlongest other ⟨hbound, hident, hencloses, hlonger⟩
    exact Namespace.encloses_of_length_le hencloses haround.encloses hlength

/-! ### Every sequence of calls -/

/-- **Binders are a store by longest prefix**, whatever has been bound, inside what and in which
order, in fewer than 2 ^ 32 calls.  Each call returns its identifier in a scope of its own, what has
been returned is bound, and the number of scopes is that of the calls.  Looking up finds the binder
with the longest scope around a place; it is visible there, and the scopes of all other visible
binders of the identifier enclose its own. -/
theorem longestPrefix_bindAll (calls : List (Namespace × String))
    (hfew : calls.length < UInt32.size) :
    let names := (empty.bindAll calls).1
    let binders := (empty.bindAll calls).2
    (∀ k : Nat,
      names[k]? = calls[k]?.map fun call => (call.1.child (scopeSegment k)).name call.2) ∧
    binders.names = names.reverse ∧
    (names.map Name.qualifier).Nodup ∧
    (∀ (scope : Namespace) (ident other : String), scope.name ident ∈ binders.names →
      scope.name other ∈ binders.names → ident = other) ∧
    binders.count.toNat = calls.length ∧
    ∀ (lexical owner : Namespace) (ident : String), owner.encloses lexical = true →
      Finds binders.names owner lexical ident (binders.lookup lexical owner ident) ∧
      ∀ name, binders.lookup lexical owner ident = some name →
        binders.isVisible name lexical = true ∧
        ∀ other, binders.isVisible other lexical = true → other.ident = ident →
          owner.length < other.qualifier.length →
          other.qualifier.encloses name.qualifier = true := by
  intro names binders
  have hnames : binders.names = names.reverse := by
    rw [names_bindAll]
    exact List.append_nil _
  have hlength : binders.names.length = calls.length := by
    rw [hnames, List.length_reverse, length_bindAll]
  -- Every scope lies inside the empty namespace, so all of them are numbered.
  have hnumbered : binders.WellNumbered .empty :=
    (wellNumbered_empty .empty).bindAll fun call _ => Namespace.empty_encloses call.1
  have hdistinct : binders.Distinct := hnumbered.distinct (hlength ▸ Nat.le_of_lt hfew)
  refine ⟨fun k => ?_, hnames, ?_, fun scope ident other hident hother => ?_, ?_, ?_⟩
  · rw [getElem?_bindAll]
    rcases Nat.lt_or_ge k calls.length with hk | hk
    · -- The number of a call is small enough to be the number of its scope.
      have hnumber : (empty.count + UInt32.ofNat k).toNat = k := by
        show (0 + UInt32.ofNat k).toNat = k
        rw [UInt32.zero_add, UInt32.toNat_ofNat_of_lt' (Nat.lt_trans hk hfew)]
      rw [hnumber]
    · rw [List.getElem?_eq_none hk, Option.map_none, Option.map_none]
  · rw [Distinct, hnames, List.map_reverse, List.nodup_reverse] at hdistinct
    exact hdistinct
  · exact congrArg Name.ident (hdistinct.eq_of_qualifier_eq hident hother rfl)
  · rw [hnumbered.count_eq, hlength, UInt32.toNat_ofNat_of_lt' hfew]
  · intro lexical owner ident howner
    exact ⟨binders.finds_lookup howner ident, fun name => isVisible_of_lookup howner⟩

/-- A binder inside a namespace that looks like a scope, one that shadows another binder, and one in
a scope beside the place. -/
theorem longestPrefix_bindAll_shadowed :
    let calls : List (Namespace × String) :=
      [(⟨["M"]⟩, "x"), (⟨["M", "#0", "#7"]⟩, "x"), (⟨["M", "#0"]⟩, "y"), (⟨["M"]⟩, "x")]
    let binders := (empty.bindAll calls).2
    let lexical : Namespace := ⟨["M", "#0", "#7", "#1", "#9"]⟩
    let owner : Namespace := ⟨["M"]⟩
    let found : Name := ⟨⟨["M", "#0", "#7", "#1"]⟩, "x"⟩
    calls.length < UInt32.size ∧ owner.encloses lexical = true ∧
      binders.lookup lexical owner "x" = some found ∧
      Finds binders.names owner lexical "x" (some found) ∧
      binders.isVisible found lexical = true ∧
      ∀ other, binders.isVisible other lexical = true → other.ident = "x" →
        owner.length < other.qualifier.length →
        other.qualifier.encloses found.qualifier = true := by
  intro calls binders lexical owner found
  have hfew : calls.length < UInt32.size := by decide
  have howner : owner.encloses lexical = true := by decide
  have hlookup : binders.lookup lexical owner "x" = some found := by cbv
  obtain ⟨-, -, -, -, -, hlookups⟩ := longestPrefix_bindAll calls hfew
  obtain ⟨hfinds, hvisible⟩ := hlookups lexical owner "x" howner
  rw [hlookup] at hfinds
  exact ⟨hfew, howner, hlookup, hfinds, hvisible found hlookup⟩

end Binders

end NameResolution
