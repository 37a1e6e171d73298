import NameResolution.Proofs.Surface.Readable.Type

/-!
# Printed patterns and expressions can be read in one way only

A text that starts with a printed expression can be cut behind it in one way only, and up to ids
the expression is known (`Expr.eraseIds_eq`).  Expressions of different forms have different texts,
apart from applications and annotations: these are told apart behind their first part.
-/

namespace NameResolution

open Surface

variable {upper : Char → Bool} {rest rest' : List Char}

/-! ### Patterns -/

namespace Pattern

theorem chars_fieldsMarkup (field : Name) (fields : List Name) (rest : List Char) :
    (fieldsMarkup (field :: fields)).chars ++ rest =
      '(' :: ((toString field).toList ++
        (fields.flatMap (fun name => ',' :: ' ' :: (toString name).toList) ++ ')' :: rest)) := by
  have hjoined : (", ".intercalate ((field :: fields).map toString)).toList =
      (toString field).toList ++
        fields.flatMap fun name => ',' :: ' ' :: (toString name).toList := by
    rw [String.toList_intercalate, List.map_cons, List.map_cons, intercalate_cons, List.flatMap_map,
      List.flatMap_map]
    rfl
  show ("(" ++ ", ".intercalate ((field :: fields).map toString) ++ ")").toList ++ rest = _
  rw [String.toList_append, String.toList_append, hjoined]
  simp

/-- The binders of a variant are known. -/
theorem fields_eq {fields fields' : List Name} (h : ∀ name ∈ fields, ∀ w ∈ name.words, IsWord w)
    (h' : ∀ name ∈ fields', ∀ w ∈ name.words, IsWord w)
    (hsame : (fieldsMarkup fields).chars ++ ' ' :: rest =
      (fieldsMarkup fields').chars ++ ' ' :: rest') : fields = fields' ∧ rest = rest' := by
  have hnone {field : Name} {fields : List Name} {rest rest' : List Char} :
      ' ' :: rest ≠ (fieldsMarkup (field :: fields)).chars ++ rest' := by
    rw [chars_fieldsMarkup]
    exact fun h => absurd (List.cons.inj h).1 (by decide)
  cases fields with
  | nil =>
    cases fields' with
    | nil => exact ⟨rfl, (List.cons.inj hsame).2⟩
    | cons field' fields' => exact absurd hsame hnone
  | cons field fields =>
    cases fields' with
    | nil => exact absurd hsame.symm hnone
    | cons field' fields' =>
      obtain ⟨hfield, hfields⟩ := List.forall_mem_cons.mp h
      obtain ⟨hfield', hfields'⟩ := List.forall_mem_cons.mp h'
      rw [chars_fieldsMarkup, chars_fieldsMarkup] at hsame
      obtain ⟨rfl, hbehind⟩ := Name.append_inj hfield hfield'
        (before_flatMap fields (fun _ _ => ends_cons rfl) (ends_cons rfl))
        (before_flatMap fields' (fun _ _ => ends_cons rfl) (ends_cons rfl)) (List.cons.inj hsame).2
      have hcons (c : Char) (cs : List Char) (name : Name) (other : List Char) (hc : c ≠ ',') :
          c :: cs ≠ ',' :: ' ' :: (toString name).toList ++ other :=
        fun h => hc (List.cons.inj h).1
      obtain ⟨hsame, hclose⟩ := flatMap_append_inj (g := fun name : Name => name)
        (P := Ends isTokenChar)
        (fun other hother other' hother' _ _ hrest hrest' hsame =>
          Name.append_inj (hfields other hother) (hfields' other' hother') hrest hrest'
            (List.cons.inj (List.cons.inj hsame).2).2)
        (fun _ _ => ends_cons rfl) (ends_cons rfl) (ends_cons rfl)
        (fun other _ cs => hcons _ _ other cs (by decide))
        (fun other _ cs => hcons _ _ other cs (by decide)) hbehind
      rw [List.map_id', List.map_id'] at hsame
      exact ⟨congrArg (field :: ·) hsame, (List.cons.inj (List.cons.inj hclose).2).2⟩

/-- The name that a pattern is written with, or its literal. -/
def head : Pattern → String
  | lit _ value => value.toText
  | bind _ name => toString name
  | wildcard _ => "_"
  | variant _ type _ _ => toString type

/-- What is written behind the name. -/
def tail : Pattern → List Char
  | variant _ _ ctor fields => '.' :: (ctor.toList ++ (fieldsMarkup fields).chars)
  | _ => []

theorem chars_eq (p : Pattern) : p.markup.chars = p.head.toList ++ p.tail := by
  cases p with
  | lit id value => exact (List.append_nil _).symm
  | bind id name => exact (List.append_nil _).symm
  | wildcard id => exact (List.append_nil _).symm
  | variant id type ctor fields => simp [markup, Name.markup, head, tail]

/-- The form of a pattern. -/
def form : Pattern → Form
  | lit _ value => value.form
  | _ => .name

variable {p p' : Pattern}

theorem form_eq (h : (Node.pattern p).Spelled upper) (rest : List Char) :
    Form.of (p.markup.chars ++ ' ' :: rest) = p.form := by
  cases p with
  | lit id value => exact value.form_eq (ends_cons rfl)
  | bind id name => exact Name.form_eq h.isWord (ends_cons rfl)
  | wildcard id => rfl
  | variant id type ctor fields =>
    have htype := (List.forall_mem_append.mp h.isWord).1
    rw [chars_eq, List.append_assoc]
    exact Name.form_eq htype (ends_cons rfl)

theorem isTokenChar_of_mem_head (h : (Node.pattern p).Spelled upper) (hform : p.form = .name) :
    ∀ c ∈ p.head.toList, isTokenChar c := by
  cases p with
  | lit id value => cases value <;> cases hform
  | bind id name => exact Name.isTokenChar_of_mem h.isWord
  | wildcard id => exact List.all_eq_true.mp (rfl : "_".toList.all isTokenChar = true)
  | variant id type ctor fields =>
    exact Name.isTokenChar_of_mem (List.forall_mem_append.mp h.isWord).1

theorem ends_tail (p : Pattern) (rest : List Char) :
    Ends isTokenChar (p.tail ++ ' ' :: rest) := by
  cases p <;> exact ends_cons rfl

theorem variant_eq {id id' : NodeId} {type type' : Name} {ctor ctor' : String}
    {fields fields' : List Name} (h : (Node.pattern (variant id type ctor fields)).Spelled upper)
    (h' : (Node.pattern (variant id' type' ctor' fields')).Spelled upper)
    (hhead : toString type = toString type')
    (htail : '.' :: (ctor.toList ++ (fieldsMarkup fields).chars) ++ ' ' :: rest =
      '.' :: (ctor'.toList ++ (fieldsMarkup fields').chars) ++ ' ' :: rest') :
    (type = type' ∧ ctor = ctor' ∧ fields = fields') ∧ rest = rest' := by
  obtain ⟨htype, h⟩ := List.forall_mem_append.mp h.isWord
  obtain ⟨hctor, hfields⟩ := List.forall_mem_cons.mp h
  obtain ⟨htype', h'⟩ := List.forall_mem_append.mp h'.isWord
  obtain ⟨hctor', hfields'⟩ := List.forall_mem_cons.mp h'
  have hends (fields : List Name) (rest : List Char) :
      Ends isTokenChar ((fieldsMarkup fields).chars ++ ' ' :: rest) := by
    cases fields with
    | nil => exact ends_cons rfl
    | cons field fields =>
      rw [chars_fieldsMarkup]
      exact ends_cons rfl
  rw [List.cons_append, List.cons_append, List.append_assoc, List.append_assoc] at htail
  obtain ⟨hlabel, hbehind⟩ := hctor.append_inj hctor' (hends _ _) (hends _ _)
    (List.cons.inj htail).2
  obtain ⟨hbinders, hrest⟩ := fields_eq
    (fun name hname w hw => hfields w (List.mem_flatMap.mpr ⟨name, hname, hw⟩))
    (fun name hname w hw => hfields' w (List.mem_flatMap.mpr ⟨name, hname, hw⟩)) hbehind
  exact ⟨⟨Name.eq_of_toString_eq_of_isWord htype htype' hhead, hlabel, hbinders⟩, hrest⟩

/-- Patterns that are no literals are known by what stands behind the name. -/
theorem eraseIds_eq_of_form (h : (Node.pattern p).Spelled upper)
    (h' : (Node.pattern p').Spelled upper) (hform : p.form = .name) (hform' : p'.form = .name)
    (hsame : p.markup.chars ++ ' ' :: rest = p'.markup.chars ++ ' ' :: rest') :
    p.eraseIds = p'.eraseIds ∧ rest = rest' := by
  have hpoint {cs cs' : List Char} : ' ' :: cs ≠ '.' :: cs' :=
    fun h => absurd (List.cons.inj h).1 (by decide)
  rw [chars_eq, chars_eq, List.append_assoc, List.append_assoc] at hsame
  obtain ⟨hhead, htail⟩ := append_inj_of_ends (isTokenChar_of_mem_head h hform)
    (isTokenChar_of_mem_head h' hform') (ends_tail p rest) (ends_tail p' rest') hsame
  have hhead := String.toList_inj.mp hhead
  cases p with
  | lit id value => cases value <;> cases hform
  | bind id name =>
    cases p' with
    | lit id' value' => cases value' <;> cases hform'
    | bind id' name' =>
      obtain rfl := Name.eq_of_toString_eq_of_isWord h.isWord h'.isWord hhead
      exact ⟨rfl, (List.cons.inj htail).2⟩
    | wildcard id' => exact absurd hhead (Name.toString_ne h.isWord (w := "_") (by decide))
    | variant id' type' ctor' fields' => exact absurd htail hpoint
  | wildcard id =>
    cases p' with
    | lit id' value' => cases value' <;> cases hform'
    | bind id' name' => exact absurd hhead.symm (Name.toString_ne h'.isWord (w := "_") (by decide))
    | wildcard id' => exact ⟨rfl, (List.cons.inj htail).2⟩
    | variant id' type' ctor' fields' => exact absurd htail hpoint
  | variant id type ctor fields =>
    cases p' with
    | lit id' value' => cases value' <;> cases hform'
    | bind id' name' => exact absurd htail.symm hpoint
    | wildcard id' => exact absurd htail.symm hpoint
    | variant id' type' ctor' fields' =>
      obtain ⟨⟨rfl, rfl, rfl⟩, hrest⟩ := variant_eq h h' hhead htail
      exact ⟨rfl, hrest⟩

/-- **A text is cut behind a pattern and a blank**, and up to its id the pattern is known. -/
theorem eraseIds_eq (h : (Node.pattern p).Spelled upper) (h' : (Node.pattern p').Spelled upper)
    (hsame : p.markup.chars ++ ' ' :: rest = p'.markup.chars ++ ' ' :: rest') :
    p.eraseIds = p'.eraseIds ∧ rest = rest' := by
  have hform := (form_eq h rest).symm.trans ((congrArg Form.of hsame).trans (form_eq h' rest'))
  -- Literals are told apart by their forms, and from names.  All else starts with a name.
  cases p with
  | lit id value =>
    cases p' with
    | lit id' value' =>
      obtain ⟨rfl, hbehind⟩ := Literal.append_inj (ends_cons rfl) (ends_cons rfl) hsame
      exact ⟨rfl, (List.cons.inj hbehind).2⟩
    | _ => cases value <;> cases hform
  | bind id name => exact eraseIds_eq_of_form h h' rfl hform.symm hsame
  | wildcard id => exact eraseIds_eq_of_form h h' rfl hform.symm hsame
  | variant id type ctor fields => exact eraseIds_eq_of_form h h' rfl hform.symm hsame

end Pattern

/-! ### Expressions -/

namespace Expr

/-! The parts of an expression that is spelled right are spelled right. -/

variable {id : NodeId}

theorem wellSpelled_app {func arg : Expr} (h : (Node.expr (app id func arg)).WellSpelled upper) :
    (Node.expr func).WellSpelled upper ∧ (Node.expr arg).WellSpelled upper := by
  obtain ⟨hfunc, harg⟩ := Node.WellSpelled.of_forall_append (.expr func) h.inside
  exact ⟨hfunc, (Node.WellSpelled.of_forall_append (.expr arg) harg).1⟩

theorem wellSpelled_lambda {param : Name} {body : Expr}
    (h : (Node.expr (lambda id param body)).WellSpelled upper) :
    (Node.expr body).WellSpelled upper :=
  (Node.WellSpelled.of_forall_append (.expr body) h.inside).1

theorem wellSpelled_annot {expr : Expr} {type : Ty}
    (h : (Node.expr (annot id expr type)).WellSpelled upper) :
    (Node.expr expr).WellSpelled upper ∧ (Node.type type).WellSpelled upper := by
  obtain ⟨hexpr, htype⟩ := Node.WellSpelled.of_forall_append (.expr expr) h.inside
  exact ⟨hexpr, (Node.WellSpelled.of_forall_append (.type type) htype).1⟩

theorem wellSpelled_letIn {binder : Name} {bound body : Expr}
    (h : (Node.expr (letIn id binder bound body)).WellSpelled upper) :
    (Node.expr bound).WellSpelled upper ∧ (Node.expr body).WellSpelled upper := by
  obtain ⟨hbound, hbody⟩ := Node.WellSpelled.of_forall_append (.expr bound) h.inside
  exact ⟨hbound, (Node.WellSpelled.of_forall_append (.expr body) hbody).1⟩

theorem wellSpelled_ifThenElse {cond thenBranch elseBranch : Expr}
    (h : (Node.expr (ifThenElse id cond thenBranch elseBranch)).WellSpelled upper) :
    (Node.expr cond).WellSpelled upper ∧ (Node.expr thenBranch).WellSpelled upper ∧
      (Node.expr elseBranch).WellSpelled upper := by
  obtain ⟨hcond, hbranches⟩ := Node.WellSpelled.of_forall_append (.expr cond) h.inside
  obtain ⟨hthen, helse⟩ := Node.WellSpelled.of_forall_append (.expr thenBranch) hbranches
  exact ⟨hcond, hthen, (Node.WellSpelled.of_forall_append (.expr elseBranch) helse).1⟩

theorem wellSpelled_matchWith {scrutinee : Expr} {arms : List Arm}
    (h : (Node.expr (matchWith id scrutinee arms)).WellSpelled upper) :
    (Node.expr scrutinee).WellSpelled upper ∧ ∀ n ∈ Arm.listInside arms, n.Spelled upper :=
  Node.WellSpelled.of_forall_append (.expr scrutinee) h.inside

end Expr

theorem Arm.wellSpelled_cons {pattern : Pattern} {body : Expr} {arms : List Arm}
    (h : ∀ n ∈ listInside (⟨pattern, body⟩ :: arms), n.Spelled upper) :
    (Node.pattern pattern).Spelled upper ∧ (Node.expr body).WellSpelled upper ∧
      ∀ n ∈ listInside arms, n.Spelled upper := by
  obtain ⟨harm, harms⟩ := List.forall_mem_append.mp h
  obtain ⟨hpattern, hbody⟩ := List.forall_mem_cons.mp harm
  exact ⟨hpattern, (Node.WellSpelled.of_forall_append (.expr body) hbody).1, harms⟩

namespace Expr

variable (id : NodeId) (rest : List Char)

theorem chars_app (func arg : Expr) : (app id func arg).markup.chars ++ rest =
    '(' :: (func.markup.chars ++ ' ' :: (arg.markup.chars ++ ')' :: rest)) := by
  simp [markup]

theorem chars_lambda (param : Name) (body : Expr) : (lambda id param body).markup.chars ++ rest =
    '(' :: '\\' :: ((toString param).toList ++
      ' ' :: '-' :: '>' :: ' ' :: (body.markup.chars ++ ')' :: rest)) := by
  simp [markup, Name.markup]

theorem chars_annot (expr : Expr) (type : Ty) : (annot id expr type).markup.chars ++ rest =
    '(' :: (expr.markup.chars ++ ' ' :: ':' :: ' ' :: (type.markup.chars ++ ')' :: rest)) := by
  simp [markup]

theorem chars_letIn (binder : Name) (bound body : Expr) :
    (letIn id binder bound body).markup.chars ++ rest =
      '(' :: 'l' :: 'e' :: 't' :: ' ' :: ((toString binder).toList ++
        ' ' :: '=' :: ' ' :: (bound.markup.chars ++
          ' ' :: 'i' :: 'n' :: ' ' :: (body.markup.chars ++ ')' :: rest))) := by
  simp [markup, Name.markup]

theorem chars_ifThenElse (cond thenBranch elseBranch : Expr) :
    (ifThenElse id cond thenBranch elseBranch).markup.chars ++ rest =
      '(' :: 'i' :: 'f' :: ' ' :: (cond.markup.chars ++
        ' ' :: 't' :: 'h' :: 'e' :: 'n' :: ' ' :: (thenBranch.markup.chars ++
          ' ' :: 'e' :: 'l' :: 's' :: 'e' :: ' ' :: (elseBranch.markup.chars ++ ')' :: rest))) := by
  simp [markup]

theorem chars_matchWith (scrutinee : Expr) (arms : List Arm) :
    (matchWith id scrutinee arms).markup.chars ++ rest =
      '(' :: 'm' :: 'a' :: 't' :: 'c' :: 'h' :: ' ' :: (scrutinee.markup.chars ++
        ' ' :: 'w' :: 'i' :: 't' :: 'h' :: ((Arm.listMarkup arms).chars ++ ')' :: rest)) := by
  simp [markup]

end Expr

theorem Arm.chars_listMarkup (pattern : Pattern) (body : Expr) (arms : List Arm)
    (rest : List Char) :
    (listMarkup (⟨pattern, body⟩ :: arms)).chars ++ rest =
      ' ' :: '|' :: ' ' :: (pattern.markup.chars ++
        ' ' :: '-' :: '>' :: ' ' :: (body.markup.chars ++ ((listMarkup arms).chars ++ rest))) := by
  simp [listMarkup, markup]

namespace Expr

/-- The form of an expression. -/
def form : Expr → Form
  | lit _ value => value.form
  | var _ _ => .name
  | app _ _ _ | annot _ _ _ => .compound
  | lambda _ _ _ => .lambda
  | letIn _ _ _ _ => .letIn
  | ifThenElse _ _ _ _ => .ifThenElse
  | matchWith _ _ _ => .matchWith

/-- An expression can stand in front in a compound, and as its second part. -/
theorem opens {e : Expr} (h : (Node.expr e).WellSpelled upper) (hrest : Ends isTokenChar rest) :
    Opens (e.markup.chars ++ rest) := by
  cases e with
  | lit id value => exact value.opens hrest
  | var id name => exact Name.opens h.self.isWord hrest
  | app id func arg =>
    rw [chars_app]
    exact opens_paren _
  | lambda id param body =>
    rw [chars_lambda]
    exact opens_paren _
  | annot id expr type =>
    rw [chars_annot]
    exact opens_paren _
  | letIn id binder bound body =>
    rw [chars_letIn]
    exact opens_paren _
  | ifThenElse id cond thenBranch elseBranch =>
    rw [chars_ifThenElse]
    exact opens_paren _
  | matchWith id scrutinee arms =>
    rw [chars_matchWith]
    exact opens_paren _

theorem form_eq {e : Expr} (h : (Node.expr e).WellSpelled upper)
    (hrest : Ends isTokenChar rest) : Form.of (e.markup.chars ++ rest) = e.form := by
  cases e with
  | lit id value => exact value.form_eq hrest
  | var id name => exact Name.form_eq h.self.isWord hrest
  | app id func arg =>
    rw [chars_app]
    exact (opens (wellSpelled_app h).1 (ends_cons rfl)).inside_eq
  | lambda id param body =>
    rw [chars_lambda]
    rfl
  | annot id expr type =>
    rw [chars_annot]
    exact (opens (wellSpelled_annot h).1 (ends_cons rfl)).inside_eq
  | letIn id binder bound body =>
    rw [chars_letIn]
    rfl
  | ifThenElse id cond thenBranch elseBranch =>
    rw [chars_ifThenElse]
    rfl
  | matchWith id scrutinee arms =>
    rw [chars_matchWith]
    rfl

/-- Only expressions of one form start a text. -/
theorem form_eq_of_append_eq {e e' : Expr} (h : (Node.expr e).WellSpelled upper)
    (h' : (Node.expr e').WellSpelled upper) (hrest : Ends isTokenChar rest)
    (hrest' : Ends isTokenChar rest')
    (hsame : e.markup.chars ++ rest = e'.markup.chars ++ rest') : e.form = e'.form := by
  rw [← form_eq h hrest, hsame, form_eq h' hrest']

/-- What is applied is not a type. -/
theorem ne_annotation {arg : Expr} (h : (Node.expr arg).WellSpelled upper) {cs : List Char} :
    arg.markup.chars ++ ')' :: rest ≠ ':' :: cs := by
  intro hsame
  have hopens : Opens (arg.markup.chars ++ ')' :: rest) := opens h (ends_cons rfl)
  rw [hsame] at hopens
  exact hopens.ne_colon ':' rfl rfl

end Expr

theorem Arm.ends_listMarkup (arms : List Arm) (rest : List Char) :
    Ends isTokenChar ((listMarkup arms).chars ++ ')' :: rest) := by
  cases arms with
  | nil => exact ends_cons rfl
  | cons arm arms =>
    obtain ⟨pattern, body⟩ := arm
    rw [chars_listMarkup]
    exact ends_cons rfl

-- The recursion is on the first expression.  The texts behind vary in it, since a part of an
-- expression has the rest of the expression behind it.
mutual

/-- **A text is cut behind an expression**, and up to ids the expression is known. -/
theorem Expr.eraseIds_eq : (e e' : Expr) → (Node.expr e).WellSpelled upper →
    (Node.expr e').WellSpelled upper → ∀ {rest rest' : List Char}, Ends isTokenChar rest →
    Ends isTokenChar rest' → e.markup.chars ++ rest = e'.markup.chars ++ rest' →
    e.eraseIds = e'.eraseIds ∧ rest = rest'
  | .lit id value, e', h, h', rest, rest', hrest, hrest', hsame => by
    have hform := Expr.form_eq_of_append_eq h h' hrest hrest' hsame
    cases e' with
    | lit id' value' =>
      obtain ⟨rfl, hrest⟩ := Literal.append_inj hrest hrest' hsame
      exact ⟨rfl, hrest⟩
    | _ => cases value <;> cases hform
  | .var id name, e', h, h', rest, rest', hrest, hrest', hsame => by
    have hform := Expr.form_eq_of_append_eq h h' hrest hrest' hsame
    cases e' with
    | var id' name' =>
      obtain ⟨rfl, hrest⟩ := Name.append_inj h.self.isWord h'.self.isWord hrest hrest' hsame
      exact ⟨rfl, hrest⟩
    | lit id' value' => cases value' <;> cases hform
    | _ => cases hform
  | .app id func arg, e', h, h', rest, rest', hrest, hrest', hsame => by
    have hform := Expr.form_eq_of_append_eq h h' hrest hrest' hsame
    obtain ⟨hfunc, harg⟩ := Expr.wellSpelled_app h
    rw [Expr.chars_app] at hsame
    cases e' with
    | app id' func' arg' =>
      obtain ⟨hfunc', harg'⟩ := Expr.wellSpelled_app h'
      rw [Expr.chars_app] at hsame
      obtain ⟨hfunc, hbehind⟩ := Expr.eraseIds_eq func func' hfunc hfunc' (ends_cons rfl)
        (ends_cons rfl) (List.cons.inj hsame).2
      obtain ⟨harg, hclose⟩ := Expr.eraseIds_eq arg arg' harg harg' (ends_cons rfl) (ends_cons rfl)
        (List.cons.inj hbehind).2
      refine ⟨?_, (List.cons.inj hclose).2⟩
      rw [Expr.eraseIds, Expr.eraseIds, hfunc, harg]
    | annot id' expr' type' =>
      -- The first parts are written alike, and a colon is behind only one of them.
      have hexpr' := (Expr.wellSpelled_annot h').1
      rw [Expr.chars_annot] at hsame
      obtain ⟨-, hbehind⟩ := Expr.eraseIds_eq func expr' hfunc hexpr' (ends_cons rfl)
        (ends_cons rfl) (List.cons.inj hsame).2
      exact absurd (List.cons.inj hbehind).2 (Expr.ne_annotation harg)
    | lit id' value' => cases value' <;> cases hform
    | _ => cases hform
  | .lambda id param body, e', h, h', rest, rest', hrest, hrest', hsame => by
    have hform := Expr.form_eq_of_append_eq h h' hrest hrest' hsame
    cases e' with
    | lambda id' param' body' =>
      have hbody := Expr.wellSpelled_lambda h
      have hbody' := Expr.wellSpelled_lambda h'
      rw [Expr.chars_lambda, Expr.chars_lambda] at hsame
      simp only [List.cons.injEq, true_and] at hsame
      obtain ⟨rfl, hbehind⟩ := Name.append_inj h.self.isWord h'.self.isWord (ends_cons rfl)
        (ends_cons rfl) hsame
      simp only [List.cons.injEq, true_and] at hbehind
      obtain ⟨hbody, hclose⟩ := Expr.eraseIds_eq body body' hbody hbody' (ends_cons rfl)
        (ends_cons rfl) hbehind
      refine ⟨?_, (List.cons.inj hclose).2⟩
      rw [Expr.eraseIds, Expr.eraseIds, hbody]
    | lit id' value' => cases value' <;> cases hform
    | _ => cases hform
  | .annot id expr type, e', h, h', rest, rest', hrest, hrest', hsame => by
    have hform := Expr.form_eq_of_append_eq h h' hrest hrest' hsame
    obtain ⟨hexpr, htype⟩ := Expr.wellSpelled_annot h
    rw [Expr.chars_annot] at hsame
    cases e' with
    | app id' func' arg' =>
      obtain ⟨hfunc', harg'⟩ := Expr.wellSpelled_app h'
      rw [Expr.chars_app] at hsame
      obtain ⟨-, hbehind⟩ := Expr.eraseIds_eq expr func' hexpr hfunc' (ends_cons rfl)
        (ends_cons rfl) (List.cons.inj hsame).2
      exact absurd (List.cons.inj hbehind).2.symm (Expr.ne_annotation harg')
    | annot id' expr' type' =>
      obtain ⟨hexpr', htype'⟩ := Expr.wellSpelled_annot h'
      rw [Expr.chars_annot] at hsame
      obtain ⟨hexpr, hbehind⟩ := Expr.eraseIds_eq expr expr' hexpr hexpr' (ends_cons rfl)
        (ends_cons rfl) (List.cons.inj hsame).2
      simp only [List.cons.injEq, true_and] at hbehind
      obtain ⟨htype, hclose⟩ := type.eraseIds_eq type' htype htype' (ends_cons rfl) (ends_cons rfl)
        hbehind
      refine ⟨?_, (List.cons.inj hclose).2⟩
      rw [Expr.eraseIds, Expr.eraseIds, hexpr, htype]
    | lit id' value' => cases value' <;> cases hform
    | _ => cases hform
  | .letIn id binder bound body, e', h, h', rest, rest', hrest, hrest', hsame => by
    have hform := Expr.form_eq_of_append_eq h h' hrest hrest' hsame
    cases e' with
    | letIn id' binder' bound' body' =>
      obtain ⟨hbound, hbody⟩ := Expr.wellSpelled_letIn h
      obtain ⟨hbound', hbody'⟩ := Expr.wellSpelled_letIn h'
      rw [Expr.chars_letIn, Expr.chars_letIn] at hsame
      simp only [List.cons.injEq, true_and] at hsame
      obtain ⟨rfl, hbehind⟩ := Name.append_inj h.self.isWord h'.self.isWord (ends_cons rfl)
        (ends_cons rfl) hsame
      simp only [List.cons.injEq, true_and] at hbehind
      obtain ⟨hbound, hbehind⟩ := Expr.eraseIds_eq bound bound' hbound hbound' (ends_cons rfl)
        (ends_cons rfl) hbehind
      simp only [List.cons.injEq, true_and] at hbehind
      obtain ⟨hbody, hclose⟩ := Expr.eraseIds_eq body body' hbody hbody' (ends_cons rfl)
        (ends_cons rfl) hbehind
      refine ⟨?_, (List.cons.inj hclose).2⟩
      rw [Expr.eraseIds, Expr.eraseIds, hbound, hbody]
    | lit id' value' => cases value' <;> cases hform
    | _ => cases hform
  | .ifThenElse id cond thenBranch elseBranch, e', h, h', rest, rest', hrest, hrest', hsame => by
    have hform := Expr.form_eq_of_append_eq h h' hrest hrest' hsame
    cases e' with
    | ifThenElse id' cond' thenBranch' elseBranch' =>
      obtain ⟨hcond, hthen, helse⟩ := Expr.wellSpelled_ifThenElse h
      obtain ⟨hcond', hthen', helse'⟩ := Expr.wellSpelled_ifThenElse h'
      rw [Expr.chars_ifThenElse, Expr.chars_ifThenElse] at hsame
      simp only [List.cons.injEq, true_and] at hsame
      obtain ⟨hcond, hbehind⟩ := Expr.eraseIds_eq cond cond' hcond hcond' (ends_cons rfl)
        (ends_cons rfl) hsame
      simp only [List.cons.injEq, true_and] at hbehind
      obtain ⟨hthen, hbehind⟩ := Expr.eraseIds_eq thenBranch thenBranch' hthen hthen'
        (ends_cons rfl) (ends_cons rfl) hbehind
      simp only [List.cons.injEq, true_and] at hbehind
      obtain ⟨helse, hclose⟩ := Expr.eraseIds_eq elseBranch elseBranch' helse helse'
        (ends_cons rfl) (ends_cons rfl) hbehind
      refine ⟨?_, (List.cons.inj hclose).2⟩
      rw [Expr.eraseIds, Expr.eraseIds, hcond, hthen, helse]
    | lit id' value' => cases value' <;> cases hform
    | _ => cases hform
  | .matchWith id scrutinee arms, e', h, h', rest, rest', hrest, hrest', hsame => by
    have hform := Expr.form_eq_of_append_eq h h' hrest hrest' hsame
    cases e' with
    | matchWith id' scrutinee' arms' =>
      obtain ⟨hscrutinee, harms⟩ := Expr.wellSpelled_matchWith h
      obtain ⟨hscrutinee', harms'⟩ := Expr.wellSpelled_matchWith h'
      rw [Expr.chars_matchWith, Expr.chars_matchWith] at hsame
      simp only [List.cons.injEq, true_and] at hsame
      obtain ⟨hscrutinee, hbehind⟩ := Expr.eraseIds_eq scrutinee scrutinee' hscrutinee hscrutinee'
        (ends_cons rfl) (ends_cons rfl) hsame
      simp only [List.cons.injEq, true_and] at hbehind
      obtain ⟨harms, hrest⟩ := Arm.listEraseIds_eq arms arms' harms harms' hbehind
      refine ⟨?_, hrest⟩
      rw [Expr.eraseIds, Expr.eraseIds, hscrutinee, harms]
    | lit id' value' => cases value' <;> cases hform
    | _ => cases hform

theorem Arm.listEraseIds_eq : (arms arms' : List Arm) →
    (∀ n ∈ Arm.listInside arms, n.Spelled upper) → (∀ n ∈ Arm.listInside arms', n.Spelled upper) →
    ∀ {rest rest' : List Char},
    (Arm.listMarkup arms).chars ++ ')' :: rest = (Arm.listMarkup arms').chars ++ ')' :: rest' →
    Arm.listEraseIds arms = Arm.listEraseIds arms' ∧ rest = rest'
  | [], [], _, _, _, _, hsame => ⟨rfl, (List.cons.inj hsame).2⟩
  | [], ⟨pattern', body'⟩ :: arms', _, _, rest, rest', hsame => by
    rw [Arm.chars_listMarkup] at hsame
    exact absurd (List.cons.inj hsame).1 (by decide)
  | ⟨pattern, body⟩ :: arms, [], _, _, rest, rest', hsame => by
    rw [Arm.chars_listMarkup] at hsame
    exact absurd (List.cons.inj hsame).1 (by decide)
  | ⟨pattern, body⟩ :: arms, ⟨pattern', body'⟩ :: arms', h, h', rest, rest', hsame => by
    obtain ⟨hpattern, hbody, harms⟩ := Arm.wellSpelled_cons h
    obtain ⟨hpattern', hbody', harms'⟩ := Arm.wellSpelled_cons h'
    rw [Arm.chars_listMarkup, Arm.chars_listMarkup] at hsame
    simp only [List.cons.injEq, true_and] at hsame
    obtain ⟨hpattern, hbehind⟩ := Pattern.eraseIds_eq hpattern hpattern' hsame
    simp only [List.cons.injEq, true_and] at hbehind
    obtain ⟨hbody, hbehind⟩ := Expr.eraseIds_eq body body' hbody hbody'
      (Arm.ends_listMarkup _ _) (Arm.ends_listMarkup _ _) hbehind
    obtain ⟨harms, hrest⟩ := Arm.listEraseIds_eq arms arms' harms harms' hbehind
    refine ⟨?_, hrest⟩
    rw [Arm.listEraseIds, Arm.listEraseIds, Arm.eraseIds, Arm.eraseIds, hpattern, hbody, harms]

end

end NameResolution
