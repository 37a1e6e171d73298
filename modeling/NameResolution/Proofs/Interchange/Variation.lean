import NameResolution.Interchange.Fields
import Mathlib.Data.List.Forall2
import Mathlib.Data.List.Perm.Basic

/-!
# Variations of a written document

The same data can be written in several ways.  `Json.Varies j j'` says that `j'` differs from the
document `j` as far as a reader is expected not to care: the fields of a record may stand in any
order, those that hold their defaults may be left out, and fields of other names may be added.  A
literal is written as an object, too, but is no record; it and the scalars do not vary.

A reader sees a record through `Json.fields?` and `Json.kind?`.  `Varies.exists_parts` says what
these two find in a variation of a record: under each name either a variation of what was written or
nothing, and the latter only for a default.
-/

namespace NameResolution.Json

/-! ### Variations -/

/-- The parts that may be left out of a record. -/
def omissible : List String :=
  ["imports", "exports", "decls", "annotation", "params", "constructors", "fields", "args"]

/-- Whether a part holds its default: no items, or nothing at all. -/
def isDefault : Json → Bool
  | null | arr [] => true
  | _ => false

/-- Whether the fields are those of a literal: a single one, named for the sort of its value. -/
def isLiteral : (fields : List (String × Json)) → Bool
  | [(sort, _)] => ["int", "bool", "str"].contains sort
  | _ => false

/-- Fields with related values, some of those left out that hold their defaults. -/
inductive FieldsKept (R : Json → Json → Prop) : (fields kept : List (String × Json)) → Prop
  | nil : FieldsKept R [] []
  | kept {name : String} {v v' : Json} {fields kept : List (String × Json)} (hvalue : R v v')
      (h : FieldsKept R fields kept) : FieldsKept R ((name, v) :: fields) ((name, v') :: kept)
  | omitted {name : String} {v : Json} {fields kept : List (String × Json)}
      (hname : name ∈ omissible) (hdefault : v.isDefault = true) (h : FieldsKept R fields kept) :
      FieldsKept R ((name, v) :: fields) kept

/-- `j'` is another way to write `j`. -/
inductive Varies : (j j' : Json) → Prop
  | same (j : Json) : Varies j j
  | array {items items' : List Json} (hitems : List.Forall₂ Varies items items') :
      Varies (.arr items) (.arr items')
  /-- The fields that are kept and those that are added stand in any order. -/
  | record {fields kept unknown fields' : List (String × Json)} (hrecord : isLiteral fields = false)
      (hkept : FieldsKept Varies fields kept)
      (hunknown : ∀ field ∈ unknown, field.1 ∉ fields.map Prod.fst)
      (hperm : fields'.Perm (kept ++ unknown)) : Varies (.obj fields) (.obj fields')

/-- Whether there is only one way to write a value: it is a scalar or a literal. -/
def isFixed : Json → Bool
  | arr _ => false
  | obj fields => isLiteral fields
  | _ => true

theorem Varies.eq_of_isFixed {j j' : Json} (h : j.Varies j') (hfixed : j.isFixed = true) :
    j' = j := by
  cases h with
  | same => rfl
  | array hitems => cases hfixed
  | record hrecord =>
    rw [isFixed, hrecord] at hfixed
    cases hfixed

theorem Varies.exists_items {items : List Json} {j : Json} (h : Varies (.arr items) j) :
    ∃ items', j = .arr items' ∧ List.Forall₂ Varies items items' := by
  cases h with
  | same => exact ⟨items, rfl, List.forall₂_same.mpr fun item _ => .same item⟩
  | array hitems => exact ⟨_, rfl, hitems⟩

/-! ### The fields of a variation -/

/-- What is found under the name of a field that was written with the value `v`. -/
inductive Offers (fields : List (String × Json)) (name : String) (v : Json) : Prop
  | written {v' : Json} (honce : fields.filter (·.1 == name) = [(name, v')])
      (hvalue : v.Varies v') : Offers fields name v
  | omitted (hnone : fields.filter (·.1 == name) = []) (hname : name ∈ omissible)
      (hdefault : v.isDefault = true) : Offers fields name v

theorem filter_eq_nil_of_not_mem {fields : List (String × Json)} {name : String}
    (h : name ∉ fields.map Prod.fst) : fields.filter (·.1 == name) = [] := by
  rw [List.filter_eq_nil_iff]
  intro field hfield hname
  exact h (beq_iff_eq.mp hname ▸ List.mem_map_of_mem hfield)

namespace FieldsKept

variable {R : Json → Json → Prop} {fields kept : List (String × Json)}

theorem of_refl (hrefl : ∀ j, R j j) (fields : List (String × Json)) :
    FieldsKept R fields fields := by
  induction fields with
  | nil => exact .nil
  | cons field rest ih => exact .kept (hrefl field.2) ih

theorem names_subset (h : FieldsKept R fields kept) :
    kept.map Prod.fst ⊆ fields.map Prod.fst := by
  induction h with
  | nil => exact List.Subset.refl _
  | kept _ _ ih => exact List.cons_subset_cons _ ih
  | omitted _ _ _ ih => exact List.subset_cons_of_subset _ ih

/-- If no name was written twice, each field is found once or has been left out. -/
theorem offers (h : FieldsKept Varies fields kept) (hdistinct : (fields.map Prod.fst).Nodup)
    {name : String} {v : Json} (hmem : (name, v) ∈ fields) : Offers kept name v := by
  induction h with
  | nil => cases hmem
  | @kept other w w' fields kept hvalue h ih =>
    obtain ⟨hfresh, hdistinct⟩ := List.nodup_cons.mp hdistinct
    rcases List.mem_cons.mp hmem with hsame | hmem
    · cases hsame
      refine .written ?_ hvalue
      have hrest := filter_eq_nil_of_not_mem fun hname => hfresh (h.names_subset hname)
      rw [List.filter_cons, hrest, if_pos (beq_self_eq_true name)]
    · have hne : ¬(other == name) = true := by
        intro hsame
        exact hfresh (List.mem_map.mpr ⟨_, hmem, (beq_iff_eq.mp hsame).symm⟩)
      cases ih hdistinct hmem with
      | written honce hvalue =>
        exact .written (by rw [List.filter_cons, if_neg hne, honce]) hvalue
      | omitted hnone hname hdefault =>
        exact .omitted (by rw [List.filter_cons, if_neg hne, hnone]) hname hdefault
  | @omitted other w fields kept hother hdefault h ih =>
    obtain ⟨hfresh, hdistinct⟩ := List.nodup_cons.mp hdistinct
    rcases List.mem_cons.mp hmem with hsame | hmem
    · cases hsame
      refine .omitted ?_ hother hdefault
      exact filter_eq_nil_of_not_mem fun hname => hfresh (h.names_subset hname)
    · exact ih hdistinct hmem

end FieldsKept

/-- Every variation of a record offers the fields of the record. -/
theorem Varies.exists_fields {fields : List (String × Json)} {j : Json}
    (h : Varies (.obj fields) j) (hdistinct : (fields.map Prod.fst).Nodup) :
    ∃ fields', j = .obj fields' ∧ ∀ {name v}, (name, v) ∈ fields → Offers fields' name v := by
  cases h with
  | same => exact ⟨fields, rfl, (FieldsKept.of_refl Varies.same fields).offers hdistinct⟩
  | @record _ kept unknown fields' hrecord hkept hunknown hperm =>
    refine ⟨fields', rfl, fun {name v} hmem => ?_⟩
    have hadded : unknown.filter (·.1 == name) = [] := by
      refine filter_eq_nil_of_not_mem fun hname => ?_
      obtain ⟨field, hfield, rfl⟩ := List.mem_map.mp hname
      exact hunknown field hfield (List.mem_map.mpr ⟨_, hmem, rfl⟩)
    have hfilter := hperm.filter fun field : String × Json => field.1 == name
    rw [List.filter_append, hadded, List.append_nil] at hfilter
    -- One field or none have only one order.
    cases hkept.offers hdistinct hmem with
    | written honce hvalue =>
      rw [honce] at hfilter
      exact .written (List.perm_singleton.mp hfilter) hvalue
    | omitted hnone hname hdefault =>
      rw [hnone] at hfilter
      exact .omitted (List.perm_nil.mp hfilter) hname hdefault

/-! ### The parts of a variation -/

/-- The first field of a name is the first one that a filter leaves. -/
theorem lookup_eq_head?_filter (fields : List (String × Json)) (name : String) :
    fields.lookup name = (fields.filter (·.1 == name)).head?.map Prod.snd := by
  induction fields with
  | nil => rfl
  | cons field rest ih =>
    obtain ⟨other, v⟩ := field
    rw [List.lookup_cons, List.filter_cons, ih]
    by_cases hname : name = other
    · simp [hname]
    · have hother : ¬other = name := fun h => hname h.symm
      simp [beq_eq_false_iff_ne.mpr hname, hother]

theorem lookup_map_val {j : Json} (parts : List (String × Part j)) (name : String) :
    (parts.map fun part => (part.1, part.2.val)).lookup name =
      (parts.lookup name).map Subtype.val := by
  induction parts with
  | nil => rfl
  | cons part rest ih =>
    rw [List.map_cons, List.lookup_cons, List.lookup_cons, ih]
    cases name == part.1 <;> rfl

/-- The parts of an object are its fields. -/
theorem exists_parts_of_obj {names : List String} {fields : List (String × Json)}
    (h : ∀ name ∈ names, (fields.filter (·.1 == name)).length ≤ 1) :
    ∃ parts, (Json.obj fields).fields? names = some parts ∧
      ∀ name, (parts.lookup name).map Subtype.val = fields.lookup name := by
  have hnames : (names.all fun name => (fields.filter (·.1 == name)).length ≤ 1) = true := by
    simpa only [List.all_eq_true, decide_eq_true_eq] using h
  refine ⟨_, by rw [fields?, if_pos hnames], fun name => ?_⟩
  rw [← lookup_map_val, List.map_map]
  -- Each part is a field with a bound on its size, and without the bounds the fields are left.
  congr 1
  exact List.attach_map_subtype_val fields

/-- What a reader finds under the names of a record that was written with the fields `fields`. -/
structure Reads (fields : List (String × Json)) {j : Json} (parts : List (String × Part j)) :
    Prop where
  kind?_eq : ∀ {kind}, ("kind", .str kind) ∈ fields →
    ∀ nesting kinds, j.kind? nesting kinds = some kind
  lookup : ∀ {name v}, (name, v) ∈ fields →
    (∃ part, parts.lookup name = some part ∧ v.Varies part.val) ∨
      (parts.lookup name = none ∧ name ∈ omissible ∧ v.isDefault = true)

/-- **Every variation of a record can be taken apart.** -/
theorem Varies.exists_parts {fields : List (String × Json)} {j : Json}
    (h : Varies (.obj fields) j) (names : List String) (hnames : fields.map Prod.fst = names)
    (hdistinct : names.Nodup) :
    ∃ parts, j.fields? names = some parts ∧ Reads fields parts := by
  subst hnames
  obtain ⟨fields', rfl, hoffers⟩ := h.exists_fields hdistinct
  have honce : ∀ name ∈ fields.map Prod.fst, (fields'.filter (·.1 == name)).length ≤ 1 := by
    intro name hname
    obtain ⟨field, hfield, rfl⟩ := List.mem_map.mp hname
    cases hoffers hfield with
    | written honce => exact Nat.le_of_eq (congrArg List.length honce)
    | omitted hnone =>
      rw [hnone]
      exact Nat.zero_le 1
  obtain ⟨parts, hparts, hlookup⟩ := exists_parts_of_obj honce
  refine ⟨parts, hparts, fun {kind} hkind nesting kinds => ?_, fun {name v} hmem => ?_⟩
  · cases hoffers hkind with
    | written honce hvalue =>
      -- A tag is a text, so there is no other way to write it.
      have htag := hvalue.eq_of_isFixed rfl
      rw [kind?, honce, htag]
      rfl
    | omitted _ hname => exact absurd hname (by decide)
  · have hpart := hlookup name
    rw [lookup_eq_head?_filter] at hpart
    cases hoffers hmem with
    | written honce hvalue =>
      rw [honce] at hpart
      obtain ⟨part, hfound, rfl⟩ := Option.map_eq_some_iff.mp hpart
      exact Or.inl ⟨part, hfound, hvalue⟩
    | omitted hnone hname hdefault =>
      rw [hnone] at hpart
      exact Or.inr ⟨Option.map_eq_none_iff.mp hpart, hname, hdefault⟩

/-! ### Reading variations -/

/-- The document `v` is read as `a`, in whatever variation. -/
def ReadsAs {α : Type} (read? : Json → Option α) (v : Json) (a : α) : Prop :=
  ∀ v', v.Varies v' → read? v' = some a

theorem readsAs_of_isFixed {α : Type} {read? : Json → Option α} {v : Json} {a : α}
    (hfixed : v.isFixed = true) (h : read? v = some a) : ReadsAs read? v a := by
  intro v' hv
  rw [hv.eq_of_isFixed hfixed, h]

namespace Reads

variable {α : Type} {fields : List (String × Json)} {j : Json} {parts : List (String × Part j)}

/-- A reader of a record that comes in several forms goes on with the form that was written. -/
theorem bind_kind? (h : Reads fields parts) {kind : String} (hmem : ("kind", .str kind) ∈ fields)
    (nesting : Nesting) (kinds : List String) (next : String → Option α) :
    (j.kind? nesting kinds >>= next) = next kind := by
  rw [h.kind?_eq hmem]
  rfl

/-- A part that may not be left out is there. -/
theorem exists_part (h : Reads fields parts) {read? : Json → Option α} {v : Json} {a : α}
    (name : String) (hname : name ∉ omissible) (hread : ReadsAs read? v a)
    (hmem : (name, v) ∈ fields) :
    ∃ part, parts.lookup name = some part ∧ read? part.val = some a := by
  rcases h.lookup hmem with ⟨part, hpart, hvalue⟩ | ⟨-, homissible, -⟩
  · exact ⟨part, hpart, hread part.val hvalue⟩
  · exact absurd homissible hname

end Reads

end NameResolution.Json
