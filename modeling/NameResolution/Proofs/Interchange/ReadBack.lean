import NameResolution.Interchange.Read
import NameResolution.Interchange.Write
import NameResolution.Proofs.Interchange.Variation

/-!
# What is written is read back

A reader reads back what its writer writes, in every variation: fields in another order, defaults
left out, fields of unknown names added (`syntax_readsBack`).  So no two values are written alike,
and writing what has been read gives a document that is read as the same value.

There is one statement for each type of the syntax, by recursion on the value.  The values of a
record are read as they were written by the statements for their types, and what stands around them
is the same for all records (`Json.Varies.exists_parts`).
-/

namespace NameResolution

open Json (Nesting ReadsAs Reads Varies)

/-! ### Texts and lists -/

namespace Json

theorem readsAs_text (s : String) : ReadsAs text? (.str s) s := readsAs_of_isFixed rfl rfl

variable {α : Type} {item? : Json → Option α}

/-- The items of an array are read one after the other. -/
theorem list?_arr (item? : Json → Option α) (items : List Json) :
    (arr items).list? item? = items.mapM item? := by
  rw [list?, items?, Option.bind_eq_bind, Option.bind_some, List.mapM_map]
  change items.attach.mapM (item? ∘ Subtype.val) = _
  rw [← List.mapM_map, List.attach_map_subtype_val]

theorem readsAs_list {items : List Json} {as : List α}
    (h : List.Forall₂ (ReadsAs item?) items as) : ReadsAs (list? item?) (.arr items) as := by
  intro v' hv
  obtain ⟨items', rfl, hitems⟩ := hv.exists_items
  rw [list?_arr]
  -- The induction goes through the items on both sides, so `items'` has to vary.
  clear hv
  induction h generalizing items' with
  | nil =>
    cases hitems
    rfl
  | cons hitem _ ih =>
    cases hitems with
    | cons hhead htail => simp [hitem _ hhead, ih _ htail]

theorem forall₂_readsAs {write : α → Json} (h : ∀ a, ReadsAs item? (write a) a) (as : List α) :
    List.Forall₂ (ReadsAs item?) (as.map write) as := by
  rw [List.forall₂_map_left_iff, List.forall₂_same]
  exact fun a _ => h a

/-- A list that is left out was empty. -/
theorem Reads.listPart?_eq {fields : List (String × Json)} {j : Json}
    {parts : List (String × Part j)} (h : Reads fields parts) {items : List Json} {as : List α}
    (name : String) (hitems : List.Forall₂ (ReadsAs item?) items as)
    (hmem : (name, .arr items) ∈ fields) : listPart? item? (parts.lookup name) = some as := by
  rcases h.lookup hmem with ⟨part, hpart, hvalue⟩ | ⟨hpart, -, hdefault⟩
  · rw [hpart]
    exact readsAs_list hitems part.val hvalue
  · rw [hpart]
    cases hitems with
    | nil => rfl
    | cons _ _ => cases hdefault

end Json

/-! ### Names -/

theorem NodeId.readsAs (id : NodeId) : ReadsAs ofJson? id.toJson id := by
  refine Json.readsAs_of_isFixed rfl ?_
  have hsize : id.val.toNat < UInt32.size := id.val.toNat_lt_size
  simp [ofJson?, toJson, Json.nat, Json.word?, hsize]

theorem Namespace.readsAs (ns : Namespace) : ReadsAs ofJson? ns.toJson ns := by
  intro j h
  have hsegments := Json.readsAs_list (Json.forall₂_readsAs Json.readsAs_text ns.segments)
  rw [ofJson?, hsegments j h]
  rfl

theorem Name.readsAs (name : Name) : ReadsAs ofJson? name.toJson name := by
  intro j h
  obtain ⟨parts, hparts, hreads⟩ := h.exists_parts ["namespace", "ident"] rfl (by decide)
  obtain ⟨ns, hns, hnsRead⟩ :=
    hreads.exists_part "namespace" (by decide) name.qualifier.readsAs (by simp)
  obtain ⟨ident, hident, hidentRead⟩ :=
    hreads.exists_part "ident" (by decide) (Json.readsAs_text name.ident) (by simp)
  simp [ofJson?, hparts, hns, hnsRead, hident, hidentRead]

/-! ### Types, literals and patterns -/

mutual

theorem Ty.readsAs : (type : Ty) → ∀ nesting, ReadsAs (ofJson? nesting) type.toJson type
  | .var id ident => by
    intro nesting j h
    rw [toJson] at h
    obtain ⟨parts, hparts, hreads⟩ := h.exists_parts ["kind", "id", "ident"] rfl (by decide)
    obtain ⟨idPart, hid, hidRead⟩ := hreads.exists_part "id" (by decide) id.readsAs (by simp)
    obtain ⟨identPart, hident, hidentRead⟩ :=
      hreads.exists_part "ident" (by decide) (Json.readsAs_text ident) (by simp)
    rw [ofJson?, hreads.bind_kind? List.mem_cons_self]
    simp [hparts, hid, hidRead, hident, hidentRead]
  | .con id name args => by
    intro nesting j h
    rw [toJson] at h
    obtain ⟨parts, hparts, hreads⟩ :=
      h.exists_parts ["kind", "id", "name", "args"] rfl (by decide)
    obtain ⟨idPart, hid, hidRead⟩ := hreads.exists_part "id" (by decide) id.readsAs (by simp)
    obtain ⟨namePart, hname, hnameRead⟩ :=
      hreads.exists_part "name" (by decide) name.readsAs (by simp)
    have hargs := hreads.listPart?_eq "args" (Ty.forall₂_readsAs args .inside) (by simp)
    rw [ofJson?, hreads.bind_kind? List.mem_cons_self]
    -- The reader asks for the arguments in place, so both cases of a list part come up again.
    cases hpart : parts.lookup "args" with
    | none =>
      rw [hpart, Json.listPart?] at hargs
      cases hargs
      simp [hparts, hid, hidRead, hname, hnameRead, hpart]
    | some part =>
      rw [hpart, Json.listPart?, Json.list?] at hargs
      obtain ⟨items, hitems, hargsRead⟩ := Option.bind_eq_some_iff.mp hargs
      simp only [hparts, hid, hidRead, hname, hnameRead, hpart, hitems, hargsRead,
        Option.bind_eq_bind, Option.bind_some, Option.pure_def]
  | .arrow id param result => by
    intro nesting j h
    rw [toJson] at h
    obtain ⟨parts, hparts, hreads⟩ :=
      h.exists_parts ["kind", "id", "param", "result"] rfl (by decide)
    obtain ⟨idPart, hid, hidRead⟩ := hreads.exists_part "id" (by decide) id.readsAs (by simp)
    obtain ⟨paramPart, hparam, hparamRead⟩ :=
      hreads.exists_part "param" (by decide) (Ty.readsAs param .inside) (by simp)
    obtain ⟨resultPart, hresult, hresultRead⟩ :=
      hreads.exists_part "result" (by decide) (Ty.readsAs result .inside) (by simp)
    rw [ofJson?, hreads.bind_kind? List.mem_cons_self]
    simp [hparts, hid, hidRead, hparam, hparamRead, hresult, hresultRead]

theorem Ty.forall₂_readsAs : (types : List Ty) → ∀ nesting,
    List.Forall₂ (ReadsAs (ofJson? nesting)) (Ty.listToJson types) types
  | [] => fun _ => .nil
  | type :: rest => fun nesting => .cons (type.readsAs nesting) (Ty.forall₂_readsAs rest nesting)

end

theorem Literal.readsAs (value : Literal) (nesting : Nesting) :
    ReadsAs (ofJson? nesting) value.toJson value := by
  cases value with
  | int value =>
    refine Json.readsAs_of_isFixed rfl ?_
    rw [toJson, ofJson?, if_pos ⟨value.minValue_le_toInt, value.toInt_le⟩, Int64.ofInt_toInt]
  | bool value => exact Json.readsAs_of_isFixed rfl (by rw [toJson, ofJson?])
  | str value => exact Json.readsAs_of_isFixed rfl (by rw [toJson, ofJson?])
  | unit => exact Json.readsAs_of_isFixed rfl (by rw [toJson, ofJson?])

theorem Pattern.readsAs (pattern : Pattern) (nesting : Nesting) :
    ReadsAs (ofJson? nesting) pattern.toJson pattern := by
  intro j h
  cases pattern with
  | lit id value =>
    obtain ⟨parts, hparts, hreads⟩ := h.exists_parts ["kind", "id", "lit"] rfl (by decide)
    obtain ⟨idPart, hid, hidRead⟩ := hreads.exists_part "id" (by decide) id.readsAs (by simp)
    obtain ⟨litPart, hlit, hlitRead⟩ :=
      hreads.exists_part "lit" (by decide) (value.readsAs .inside) (by simp)
    rw [ofJson?, hreads.bind_kind? List.mem_cons_self]
    simp [hparts, hid, hidRead, hlit, hlitRead]
  | bind id name =>
    obtain ⟨parts, hparts, hreads⟩ := h.exists_parts ["kind", "id", "name"] rfl (by decide)
    obtain ⟨idPart, hid, hidRead⟩ := hreads.exists_part "id" (by decide) id.readsAs (by simp)
    obtain ⟨namePart, hname, hnameRead⟩ :=
      hreads.exists_part "name" (by decide) name.readsAs (by simp)
    rw [ofJson?, hreads.bind_kind? List.mem_cons_self]
    simp [hparts, hid, hidRead, hname, hnameRead]
  | wildcard id =>
    obtain ⟨parts, hparts, hreads⟩ := h.exists_parts ["kind", "id"] rfl (by decide)
    obtain ⟨idPart, hid, hidRead⟩ := hreads.exists_part "id" (by decide) id.readsAs (by simp)
    rw [ofJson?, hreads.bind_kind? List.mem_cons_self]
    simp [hparts, hid, hidRead]
  | variant id type ctor fields =>
    obtain ⟨parts, hparts, hreads⟩ :=
      h.exists_parts ["kind", "id", "ty", "ctor", "fields"] rfl (by decide)
    obtain ⟨idPart, hid, hidRead⟩ := hreads.exists_part "id" (by decide) id.readsAs (by simp)
    obtain ⟨typePart, htype, htypeRead⟩ :=
      hreads.exists_part "ty" (by decide) type.readsAs (by simp)
    obtain ⟨ctorPart, hctor, hctorRead⟩ :=
      hreads.exists_part "ctor" (by decide) (Json.readsAs_text ctor) (by simp)
    have hfields := hreads.listPart?_eq "fields" (Json.forall₂_readsAs Name.readsAs fields)
      (by simp)
    rw [ofJson?, hreads.bind_kind? List.mem_cons_self]
    simp [hparts, hid, hidRead, htype, htypeRead, hctor, hctorRead, hfields]

/-! ### Expressions -/

mutual

theorem Expr.readsAs : (e : Expr) → ∀ nesting, ReadsAs (Expr.ofJson? nesting) e.toJson e
  | .lit id value => by
    intro nesting j h
    rw [Expr.toJson] at h
    obtain ⟨parts, hparts, hreads⟩ := h.exists_parts ["kind", "id", "lit"] rfl (by decide)
    obtain ⟨idPart, hid, hidRead⟩ := hreads.exists_part "id" (by decide) id.readsAs (by simp)
    obtain ⟨litPart, hlit, hlitRead⟩ :=
      hreads.exists_part "lit" (by decide) (value.readsAs .inside) (by simp)
    rw [Expr.ofJson?, hreads.bind_kind? List.mem_cons_self]
    simp [hparts, hid, hidRead, hlit, hlitRead]
  | .var id name => by
    intro nesting j h
    rw [Expr.toJson] at h
    obtain ⟨parts, hparts, hreads⟩ := h.exists_parts ["kind", "id", "name"] rfl (by decide)
    obtain ⟨idPart, hid, hidRead⟩ := hreads.exists_part "id" (by decide) id.readsAs (by simp)
    obtain ⟨namePart, hname, hnameRead⟩ :=
      hreads.exists_part "name" (by decide) name.readsAs (by simp)
    rw [Expr.ofJson?, hreads.bind_kind? List.mem_cons_self]
    simp [hparts, hid, hidRead, hname, hnameRead]
  | .app id func arg => by
    intro nesting j h
    rw [Expr.toJson] at h
    obtain ⟨parts, hparts, hreads⟩ :=
      h.exists_parts ["kind", "id", "func", "arg"] rfl (by decide)
    obtain ⟨idPart, hid, hidRead⟩ := hreads.exists_part "id" (by decide) id.readsAs (by simp)
    obtain ⟨funcPart, hfunc, hfuncRead⟩ :=
      hreads.exists_part "func" (by decide) (Expr.readsAs func .inside) (by simp)
    obtain ⟨argPart, harg, hargRead⟩ :=
      hreads.exists_part "arg" (by decide) (Expr.readsAs arg .inside) (by simp)
    rw [Expr.ofJson?, hreads.bind_kind? List.mem_cons_self]
    simp [hparts, hid, hidRead, hfunc, hfuncRead, harg, hargRead]
  | .lambda id param body => by
    intro nesting j h
    rw [Expr.toJson] at h
    obtain ⟨parts, hparts, hreads⟩ :=
      h.exists_parts ["kind", "id", "param", "body"] rfl (by decide)
    obtain ⟨idPart, hid, hidRead⟩ := hreads.exists_part "id" (by decide) id.readsAs (by simp)
    obtain ⟨paramPart, hparam, hparamRead⟩ :=
      hreads.exists_part "param" (by decide) param.readsAs (by simp)
    obtain ⟨bodyPart, hbody, hbodyRead⟩ :=
      hreads.exists_part "body" (by decide) (Expr.readsAs body .inside) (by simp)
    rw [Expr.ofJson?, hreads.bind_kind? List.mem_cons_self]
    simp [hparts, hid, hidRead, hparam, hparamRead, hbody, hbodyRead]
  | .annot id expr type => by
    intro nesting j h
    rw [Expr.toJson] at h
    obtain ⟨parts, hparts, hreads⟩ :=
      h.exists_parts ["kind", "id", "expr", "ty"] rfl (by decide)
    obtain ⟨idPart, hid, hidRead⟩ := hreads.exists_part "id" (by decide) id.readsAs (by simp)
    obtain ⟨exprPart, hexpr, hexprRead⟩ :=
      hreads.exists_part "expr" (by decide) (Expr.readsAs expr .inside) (by simp)
    obtain ⟨typePart, htype, htypeRead⟩ :=
      hreads.exists_part "ty" (by decide) (type.readsAs .inside) (by simp)
    rw [Expr.ofJson?, hreads.bind_kind? List.mem_cons_self]
    simp [hparts, hid, hidRead, hexpr, hexprRead, htype, htypeRead]
  | .letIn id binder bound body => by
    intro nesting j h
    rw [Expr.toJson] at h
    obtain ⟨parts, hparts, hreads⟩ :=
      h.exists_parts ["kind", "id", "binder", "bound", "body"] rfl (by decide)
    obtain ⟨idPart, hid, hidRead⟩ := hreads.exists_part "id" (by decide) id.readsAs (by simp)
    obtain ⟨binderPart, hbinder, hbinderRead⟩ :=
      hreads.exists_part "binder" (by decide) binder.readsAs (by simp)
    obtain ⟨boundPart, hbound, hboundRead⟩ :=
      hreads.exists_part "bound" (by decide) (Expr.readsAs bound .inside) (by simp)
    obtain ⟨bodyPart, hbody, hbodyRead⟩ :=
      hreads.exists_part "body" (by decide) (Expr.readsAs body .inside) (by simp)
    rw [Expr.ofJson?, hreads.bind_kind? List.mem_cons_self]
    simp [hparts, hid, hidRead, hbinder, hbinderRead, hbound, hboundRead, hbody, hbodyRead]
  | .ifThenElse id cond thenBranch elseBranch => by
    intro nesting j h
    rw [Expr.toJson] at h
    obtain ⟨parts, hparts, hreads⟩ :=
      h.exists_parts ["kind", "id", "cond", "then_branch", "else_branch"] rfl (by decide)
    obtain ⟨idPart, hid, hidRead⟩ := hreads.exists_part "id" (by decide) id.readsAs (by simp)
    obtain ⟨condPart, hcond, hcondRead⟩ :=
      hreads.exists_part "cond" (by decide) (Expr.readsAs cond .inside) (by simp)
    obtain ⟨thenPart, hthen, hthenRead⟩ :=
      hreads.exists_part "then_branch" (by decide) (Expr.readsAs thenBranch .inside) (by simp)
    obtain ⟨elsePart, helse, helseRead⟩ :=
      hreads.exists_part "else_branch" (by decide) (Expr.readsAs elseBranch .inside) (by simp)
    rw [Expr.ofJson?, hreads.bind_kind? List.mem_cons_self]
    simp [hparts, hid, hidRead, hcond, hcondRead, hthen, hthenRead, helse, helseRead]
  | .matchWith id scrutinee arms => by
    intro nesting j h
    rw [Expr.toJson] at h
    obtain ⟨parts, hparts, hreads⟩ :=
      h.exists_parts ["kind", "id", "scrutinee", "arms"] rfl (by decide)
    obtain ⟨idPart, hid, hidRead⟩ := hreads.exists_part "id" (by decide) id.readsAs (by simp)
    obtain ⟨scrutineePart, hscrutinee, hscrutineeRead⟩ :=
      hreads.exists_part "scrutinee" (by decide) (Expr.readsAs scrutinee .inside) (by simp)
    -- The arms may not be left out, so the list is read like any other part.
    obtain ⟨armsPart, harms, harmsRead⟩ := hreads.exists_part "arms" (by decide)
      (Json.readsAs_list (Arm.forall₂_readsAs arms .inside)) (by simp)
    obtain ⟨items, hitems, hitemsRead⟩ := Option.bind_eq_some_iff.mp harmsRead
    rw [Expr.ofJson?, hreads.bind_kind? List.mem_cons_self]
    simp only [hparts, hid, hidRead, hscrutinee, hscrutineeRead, harms, hitems, hitemsRead,
      Option.bind_eq_bind, Option.bind_some, Option.pure_def]

theorem Arm.readsAs : (arm : Arm) → ∀ nesting, ReadsAs (Arm.ofJson? nesting) arm.toJson arm
  | ⟨pattern, body⟩ => by
    intro nesting j h
    rw [Arm.toJson] at h
    obtain ⟨parts, hparts, hreads⟩ := h.exists_parts ["pattern", "body"] rfl (by decide)
    obtain ⟨patternPart, hpattern, hpatternRead⟩ :=
      hreads.exists_part "pattern" (by decide) (pattern.readsAs nesting) (by simp)
    obtain ⟨bodyPart, hbody, hbodyRead⟩ :=
      hreads.exists_part "body" (by decide) (Expr.readsAs body nesting) (by simp)
    rw [Arm.ofJson?]
    simp [hparts, hpattern, hpatternRead, hbody, hbodyRead]

theorem Arm.forall₂_readsAs : (arms : List Arm) → ∀ nesting,
    List.Forall₂ (ReadsAs (Arm.ofJson? nesting)) (Arm.listToJson arms) arms
  | [] => fun _ => .nil
  | arm :: rest => fun nesting => .cons (Arm.readsAs arm nesting) (Arm.forall₂_readsAs rest nesting)

end

/-! ### Declarations and modules -/

theorem Constructor.readsAs (ctor : Constructor) (nesting : Nesting) :
    ReadsAs (ofJson? nesting) ctor.toJson ctor := by
  intro j h
  obtain ⟨parts, hparts, hreads⟩ := h.exists_parts ["id", "label", "fields"] rfl (by decide)
  obtain ⟨idPart, hid, hidRead⟩ := hreads.exists_part "id" (by decide) ctor.id.readsAs (by simp)
  obtain ⟨labelPart, hlabel, hlabelRead⟩ :=
    hreads.exists_part "label" (by decide) (Json.readsAs_text ctor.label) (by simp)
  have hfields := hreads.listPart?_eq "fields" (Ty.forall₂_readsAs ctor.fields nesting) (by simp)
  simp [ofJson?, hparts, hid, hidRead, hlabel, hlabelRead, hfields]

theorem Ty.exists_toJson_eq_obj (type : Ty) : ∃ fields, type.toJson = .obj fields := by
  cases type with
  | var id ident => exact ⟨_, by rw [toJson]⟩
  | con id name args => exact ⟨_, by rw [toJson]⟩
  | arrow id param result => exact ⟨_, by rw [toJson]⟩

/-- A type is never written as `null`, so `null` can stand for none, and so can its absence. -/
theorem Decl.signature?_eq {fields : List (String × Json)} {j : Json}
    {parts : List (String × Json.Part j)} (h : Reads fields parts) (signature : Option Ty)
    (hmem : ("annotation", (signature.map Ty.toJson).getD .null) ∈ fields) :
    signature? (parts.lookup "annotation") = some signature := by
  cases signature with
  | none =>
    rcases h.lookup hmem with ⟨⟨v, hsize⟩, hpart, hvalue⟩ | ⟨hpart, -, -⟩
    · obtain rfl := hvalue.eq_of_isFixed rfl
      rw [hpart]
      rfl
    · rw [hpart]
      rfl
  | some type =>
    obtain ⟨written, hwritten⟩ := type.exists_toJson_eq_obj
    rcases h.lookup hmem with ⟨⟨v, hsize⟩, hpart, hvalue⟩ | ⟨-, -, hdefault⟩
    · -- The reader tries `null` first, and `v` is an object.
      have hread := type.readsAs .inside v hvalue
      change Varies type.toJson v at hvalue
      rw [hwritten] at hvalue
      rw [hpart]
      cases hvalue <;> simp [signature?, hread]
    · change type.toJson.isDefault = true at hdefault
      rw [hwritten] at hdefault
      cases hdefault

theorem Decl.readsAs (decl : Decl) : ReadsAs ofJson? decl.toJson decl := by
  intro j h
  cases decl with
  | value id ident signature body =>
    obtain ⟨parts, hparts, hreads⟩ :=
      h.exists_parts ["kind", "id", "ident", "annotation", "body"] rfl (by decide)
    obtain ⟨idPart, hid, hidRead⟩ := hreads.exists_part "id" (by decide) id.readsAs (by simp)
    obtain ⟨identPart, hident, hidentRead⟩ :=
      hreads.exists_part "ident" (by decide) (Json.readsAs_text ident) (by simp)
    have hsignature := Decl.signature?_eq hreads signature (by simp)
    obtain ⟨bodyPart, hbody, hbodyRead⟩ :=
      hreads.exists_part "body" (by decide) (body.readsAs .inside) (by simp)
    rw [ofJson?, hreads.bind_kind? List.mem_cons_self]
    simp [hparts, hid, hidRead, hident, hidentRead, hsignature, hbody, hbodyRead]
  | data id ident params ctors =>
    obtain ⟨parts, hparts, hreads⟩ :=
      h.exists_parts ["kind", "id", "ident", "params", "constructors"] rfl (by decide)
    obtain ⟨idPart, hid, hidRead⟩ := hreads.exists_part "id" (by decide) id.readsAs (by simp)
    obtain ⟨identPart, hident, hidentRead⟩ :=
      hreads.exists_part "ident" (by decide) (Json.readsAs_text ident) (by simp)
    have hparams := hreads.listPart?_eq "params"
      (Json.forall₂_readsAs Json.readsAs_text params) (by simp)
    have hctors := hreads.listPart?_eq "constructors"
      (Json.forall₂_readsAs (fun ctor => ctor.readsAs .inside) ctors) (by simp)
    rw [ofJson?, hreads.bind_kind? List.mem_cons_self]
    simp [hparts, hid, hidRead, hident, hidentRead, hparams, hctors]

theorem Import.readsAs (i : Import) : ReadsAs ofJson? i.toJson i := by
  intro j h
  obtain ⟨parts, hparts, hreads⟩ := h.exists_parts ["id", "namespace"] rfl (by decide)
  obtain ⟨idPart, hid, hidRead⟩ := hreads.exists_part "id" (by decide) i.id.readsAs (by simp)
  obtain ⟨targetPart, htarget, htargetRead⟩ :=
    hreads.exists_part "namespace" (by decide) i.target.readsAs (by simp)
  simp [ofJson?, hparts, hid, hidRead, htarget, htargetRead]

theorem Export.readsAs (e : Export) : ReadsAs ofJson? e.toJson e := by
  intro j h
  cases e with
  | decl id ident =>
    obtain ⟨parts, hparts, hreads⟩ := h.exists_parts ["kind", "id", "ident"] rfl (by decide)
    obtain ⟨idPart, hid, hidRead⟩ := hreads.exists_part "id" (by decide) id.readsAs (by simp)
    obtain ⟨identPart, hident, hidentRead⟩ :=
      hreads.exists_part "ident" (by decide) (Json.readsAs_text ident) (by simp)
    rw [ofJson?, hreads.bind_kind? List.mem_cons_self]
    simp [hparts, hid, hidRead, hident, hidentRead]
  | reexport id target =>
    obtain ⟨parts, hparts, hreads⟩ := h.exists_parts ["kind", "id", "namespace"] rfl (by decide)
    obtain ⟨idPart, hid, hidRead⟩ := hreads.exists_part "id" (by decide) id.readsAs (by simp)
    obtain ⟨targetPart, htarget, htargetRead⟩ :=
      hreads.exists_part "namespace" (by decide) target.readsAs (by simp)
    rw [ofJson?, hreads.bind_kind? List.mem_cons_self]
    simp [hparts, hid, hidRead, htarget, htargetRead]

theorem Module.readsAs (m : Module) : ReadsAs ofJson? m.toJson m := by
  intro j h
  obtain ⟨parts, hparts, hreads⟩ :=
    h.exists_parts ["id", "namespace", "imports", "exports", "decls"] rfl (by decide)
  obtain ⟨idPart, hid, hidRead⟩ := hreads.exists_part "id" (by decide) m.id.readsAs (by simp)
  obtain ⟨nsPart, hns, hnsRead⟩ :=
    hreads.exists_part "namespace" (by decide) m.ns.readsAs (by simp)
  have himports := hreads.listPart?_eq "imports"
    (Json.forall₂_readsAs Import.readsAs m.imports) (by simp)
  have hexports := hreads.listPart?_eq "exports"
    (Json.forall₂_readsAs Export.readsAs m.exports) (by simp)
  have hdecls := hreads.listPart?_eq "decls" (Json.forall₂_readsAs Decl.readsAs m.decls) (by simp)
  simp [ofJson?, hparts, hid, hidRead, hns, hnsRead, himports, hexports, hdecls]

theorem Program.readsAs (p : Program) : ReadsAs ofJson? p.toJson p := by
  intro j h
  obtain ⟨parts, hparts, hreads⟩ := h.exists_parts ["modules"] rfl (by decide)
  obtain ⟨modulesPart, hmodules, hmodulesRead⟩ := hreads.exists_part "modules" (by decide)
    (Json.readsAs_list (Json.forall₂_readsAs Module.readsAs p.modules)) (by simp)
  simp [ofJson?, hparts, hmodules, hmodulesRead]

/-! ### All of the syntax -/

/-- What is written is read back, in whatever variation; different values are written differently,
and writing again what has been read makes no difference. -/
structure ReadsBack {α : Type} (write : α → Json) (read? : Json → Option α) : Prop where
  varied : ∀ a, ReadsAs read? (write a) a
  injective : Function.Injective write
  normal : ∀ {j a}, read? j = some a → read? (write a) = some a

theorem ReadsBack.of_readsAs {α : Type} {write : α → Json} {read? : Json → Option α}
    (h : ∀ a, ReadsAs read? (write a) a) : ReadsBack write read? where
  varied := h
  injective := by
    intro a b hab
    have ha : read? (write a) = some a := h a _ (.same _)
    have hb : read? (write b) = some b := h b _ (.same _)
    rw [hab, hb] at ha
    exact (Option.some.inj ha).symm
  normal := fun {_ a} _ => h a _ (.same _)

/-- **Every type of the syntax is read back as it was written.** -/
theorem syntax_readsBack (nesting : Nesting) :
    ReadsBack Program.toJson Program.ofJson? ∧ ReadsBack Module.toJson Module.ofJson? ∧
      ReadsBack Import.toJson Import.ofJson? ∧ ReadsBack Export.toJson Export.ofJson? ∧
      ReadsBack Decl.toJson Decl.ofJson? ∧
      ReadsBack Constructor.toJson (Constructor.ofJson? nesting) ∧
      ReadsBack Expr.toJson (Expr.ofJson? nesting) ∧
      ReadsBack Arm.toJson (Arm.ofJson? nesting) ∧
      ReadsBack Pattern.toJson (Pattern.ofJson? nesting) ∧
      ReadsBack Ty.toJson (Ty.ofJson? nesting) ∧
      ReadsBack Literal.toJson (Literal.ofJson? nesting) ∧
      ReadsBack Name.toJson Name.ofJson? ∧ ReadsBack Namespace.toJson Namespace.ofJson? ∧
      ReadsBack NodeId.toJson NodeId.ofJson? :=
  ⟨.of_readsAs Program.readsAs, .of_readsAs Module.readsAs, .of_readsAs Import.readsAs,
    .of_readsAs Export.readsAs, .of_readsAs Decl.readsAs, .of_readsAs (·.readsAs nesting),
    .of_readsAs (·.readsAs nesting), .of_readsAs (·.readsAs nesting),
    .of_readsAs (·.readsAs nesting), .of_readsAs (·.readsAs nesting),
    .of_readsAs (·.readsAs nesting), .of_readsAs Name.readsAs, .of_readsAs Namespace.readsAs,
    .of_readsAs NodeId.readsAs⟩

/-- A module with its fields in reverse, without what it does not have, and with a comment. -/
theorem syntax_readsBack_commented_module :
    let m : Module := ⟨⟨1⟩, ⟨["Main"]⟩, [], [], [.value ⟨2⟩ "x" none (.lit ⟨3⟩ (.int 7))]⟩
    let body : Json :=
      .obj [("kind", .str "lit"), ("id", .int 3), ("lit", .obj [("int", .int 7)])].reverse
    let decl : Json :=
      .obj [("kind", .str "let"), ("id", .int 2), ("ident", .str "x"), ("body", body)].reverse
    let document : Json := .obj [("id", .int 1), ("namespace", .arr [.str "Main"]),
      ("decls", .arr [decl]), ("comment", .arr [.null])].reverse
    m.toJson.Varies document ∧ Module.ofJson? document = some m := by
  intro m body decl document
  have hbody : Varies (Expr.lit ⟨3⟩ (.int 7)).toJson body := by
    rw [Expr.toJson]
    exact .record rfl (.of_refl Varies.same _) (fun _ h => absurd h List.not_mem_nil)
      (List.reverse_perm _)
  have hdecl : Varies (Decl.value ⟨2⟩ "x" none (.lit ⟨3⟩ (.int 7))).toJson decl := by
    have hannotation : "annotation" ∈ Json.omissible := by decide
    exact .record rfl (.kept (.same _) (.kept (.same _) (.kept (.same _)
      (.omitted hannotation rfl (.kept hbody .nil))))) (fun _ h => absurd h List.not_mem_nil)
      (List.reverse_perm _)
  have hmodule : m.toJson.Varies document := by
    have himports : "imports" ∈ Json.omissible := by decide
    have hexports : "exports" ∈ Json.omissible := by decide
    have hcomment : ∀ field ∈ [("comment", Json.arr [.null])],
        field.1 ∉ ["id", "namespace", "imports", "exports", "decls"] := by simp
    exact .record rfl (.kept (.same _) (.kept (.same _) (.omitted himports rfl
      (.omitted hexports rfl (.kept (.array (.cons hdecl .nil)) .nil))))) hcomment
      (List.reverse_perm _)
  obtain ⟨-, hback, -⟩ := syntax_readsBack .outermost
  exact ⟨hmodule, hback.varied m document hmodule⟩

end NameResolution
