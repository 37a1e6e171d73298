import NameResolution.Proofs.Erasure
import NameResolution.Proofs.Surface.Forms
import NameResolution.Proofs.Tree

/-!
# Printed types can be read in one way only

If names are spelled so that none can be taken for something else (`Node.Spelled`), then a text that
starts with a printed type can be cut behind it in one way only, and up to ids the type is known
(`Ty.eraseIds_eq`).  The form of a type is told by the first characters of its text (`Ty.form_eq`),
so only types of one form have to be compared, part by part.
-/

namespace NameResolution

open Surface

/-! ### Spelling -/

/-- Variables and heads of types are told apart by their first letters. -/
def Node.Cased (upper : Char → Bool) : Node → Prop
  | type (.var _ ident) => ∀ c ∈ ident.toList.head?, upper c = false
  | type (.con _ name _) => ∀ c ∈ name.ident.toList.head?, upper c = true
  | _ => True

/-- What is written at the node are words, with the right first letters. -/
structure Node.Spelled (upper : Char → Bool) (n : Node) : Prop where
  isWord : ∀ w ∈ n.words, IsWord w
  cased : n.Cased upper

/-- The node and all nodes inside it are spelled right. -/
structure Node.WellSpelled (upper : Char → Bool) (n : Node) : Prop where
  self : n.Spelled upper
  inside : ∀ other ∈ n.inside, other.Spelled upper

instance (upper : Char → Bool) : (n : Node) → Decidable (n.Cased upper)
  | .type (.var _ ident) =>
    decidable_of_iff ((ident.toList.head?.all fun c => !upper c) = true)
      (by simp [Node.Cased, Option.all_eq_true])
  | .type (.con _ name _) =>
    decidable_of_iff ((name.ident.toList.head?.all upper) = true)
      (by simp [Node.Cased, Option.all_eq_true])
  | .type (.arrow ..) | .header _ | .imported _ | .exported _ | .decl _ | .ctor _ | .expr _
  | .pattern _ => .isTrue trivial

instance (upper : Char → Bool) (n : Node) : Decidable (n.Spelled upper) :=
  decidable_of_iff ((∀ w ∈ n.words, IsWord w) ∧ n.Cased upper)
    ⟨fun h => ⟨h.1, h.2⟩, fun h => ⟨h.isWord, h.cased⟩⟩

namespace Node.WellSpelled

variable {upper : Char → Bool} {n m : Node}

/-- With a node all nodes inside it are spelled right throughout. -/
theorem of_mem (h : n.WellSpelled upper) (hm : m ∈ n.inside) : m.WellSpelled upper :=
  ⟨h.inside m hm, fun other hother => h.inside other (n.closed_inside m hm hother)⟩

/-- Nodes one after the other, each behind all nodes inside it, are spelled right one by one. -/
theorem of_forall_append (n : Node) {nodes : List Node}
    (h : ∀ m ∈ n.inside ++ n :: nodes, m.Spelled upper) :
    n.WellSpelled upper ∧ ∀ m ∈ nodes, m.Spelled upper := by
  obtain ⟨hinside, hself⟩ := List.forall_mem_append.mp h
  obtain ⟨hself, hnodes⟩ := List.forall_mem_cons.mp hself
  exact ⟨⟨hself, hinside⟩, hnodes⟩

end Node.WellSpelled

variable {upper : Char → Bool} {rest rest' : List Char}

/-! ### Types -/

/-- What follows the last one of some types. -/
structure Surface.EndsTypes (rest : List Char) : Prop where
  ends : Ends isTokenChar rest
  /-- It is not one more type. -/
  not_type : ∀ c cs, rest = ' ' :: c :: cs → isWordChar c = false ∧ c ≠ '('

theorem Surface.endsTypes_paren (rest : List Char) : EndsTypes (')' :: rest) :=
  ⟨ends_cons rfl, fun _ _ h => by cases h⟩

namespace Ty

theorem wellSpelled_cons {type : Ty} {types : List Ty}
    (h : ∀ n ∈ listInside (type :: types), n.Spelled upper) :
    (Node.type type).WellSpelled upper ∧ ∀ n ∈ listInside types, n.Spelled upper :=
  Node.WellSpelled.of_forall_append (.type type) h

theorem wellSpelled_arrow {id : NodeId} {param result : Ty}
    (h : (Node.type (arrow id param result)).WellSpelled upper) :
    (Node.type param).WellSpelled upper ∧ (Node.type result).WellSpelled upper := by
  obtain ⟨hparam, hresult⟩ := Node.WellSpelled.of_forall_append (.type param) h.inside
  exact ⟨hparam, (Node.WellSpelled.of_forall_append (.type result) hresult).1⟩

theorem chars_applied (id : NodeId) (name : Name) (arg : Ty) (args : List Ty) (rest : List Char) :
    (con id name (arg :: args)).markup.chars ++ rest =
      '(' :: ((toString name).toList ++ ((listMarkup (arg :: args)).chars ++ ')' :: rest)) := by
  simp [markup, Name.markup]

theorem chars_arrow (id : NodeId) (param result : Ty) (rest : List Char) :
    (arrow id param result).markup.chars ++ rest =
      '(' :: (param.markup.chars ++
        ' ' :: '-' :: '>' :: ' ' :: (result.markup.chars ++ ')' :: rest)) := by
  simp [markup]

theorem chars_listMarkup (type : Ty) (types : List Ty) (rest : List Char) :
    (listMarkup (type :: types)).chars ++ rest =
      ' ' :: (type.markup.chars ++ ((listMarkup types).chars ++ rest)) := by
  simp [listMarkup]

/-- A type stands in parentheses or is one name. -/
theorem chars_cases {t : Ty} (h : (Node.type t).WellSpelled upper) :
    (∃ cs, t.markup.chars = '(' :: cs) ∨
      (∃ c cs, t.markup.chars = c :: cs ∧ isWordChar c) ∧ ∀ c ∈ t.markup.chars, isTokenChar c := by
  cases t with
  | var id ident =>
    have hident : IsWord ident := h.self.isWord ident List.mem_cons_self
    obtain ⟨c, cs, hcons, hc, -⟩ := hident.exists_cons
    exact Or.inr ⟨⟨c, cs, hcons, hc⟩, hident.isTokenChar⟩
  | con id name args =>
    cases args with
    | nil =>
      have hname : ∀ w ∈ name.words, IsWord w := h.self.isWord
      obtain ⟨c, cs, hcons, hc, -⟩ := Name.exists_cons hname
      exact Or.inr ⟨⟨c, cs, hcons, hc⟩, Name.isTokenChar_of_mem hname⟩
    | cons arg args =>
      exact Or.inl ⟨_, (List.append_nil _).symm.trans (chars_applied id name arg args [])⟩
  | arrow id param result =>
    exact Or.inl ⟨_, (List.append_nil _).symm.trans (chars_arrow id param result [])⟩

theorem ends_listMarkup (types : List Ty) (hrest : Ends isTokenChar rest) :
    Ends isTokenChar ((listMarkup types).chars ++ rest) := by
  cases types with
  | nil => exact hrest
  | cons type types =>
    rw [chars_listMarkup]
    exact ends_cons rfl

/-- What ends types is not one more type. -/
theorem ne_listMarkup {type : Ty} {types : List Ty} (h : (Node.type type).WellSpelled upper)
    (hrest : EndsTypes rest) : rest ≠ (listMarkup (type :: types)).chars ++ rest' := by
  rw [chars_listMarkup]
  intro hsame
  rcases chars_cases h with ⟨cs, htype⟩ | ⟨⟨c, cs, htype, hc⟩, -⟩
  · rw [htype] at hsame
    exact (hrest.not_type _ _ hsame).2 rfl
  · rw [htype] at hsame
    have hnot := (hrest.not_type _ _ hsame).1
    rw [hc] at hnot
    cases hnot

/-- What the first characters of a printed type tell, up to the end of the first name in it. -/
inductive Form where
  /-- A variable, or a constructor without arguments. -/
  | bare
  | applied
  | arrow

/-- The form of a type. -/
def form : Ty → Form
  | var _ _ => .bare
  | con _ _ args => if args.isEmpty then .bare else .applied
  | arrow _ _ _ => .arrow

/-- The form of what follows an opening parenthesis and a name. -/
def Form.behind : List Char → Form
  | ' ' :: '-' :: _ => arrow
  | _ => applied

/-- The form of a text. -/
def Form.of : List Char → Form
  | '(' :: '(' :: _ => arrow
  | '(' :: cs => behind (cs.dropWhile isTokenChar)
  | _ => bare

theorem Form.of_paren {text : List Char} (htext : ∀ c ∈ text, isTokenChar c)
    (hhead : ∃ c cs, text = c :: cs ∧ isWordChar c) (hrest : Ends isTokenChar rest) :
    of ('(' :: (text ++ rest)) = behind rest := by
  have hdrop := dropWhile_of_ends htext hrest
  obtain ⟨c, cs, rfl, hc⟩ := hhead
  rw [of, hdrop]
  exact fun _ h => ne_of_isWordChar hc rfl (List.cons.inj h).1

theorem form_eq {t : Ty} (h : (Node.type t).WellSpelled upper) (rest : List Char) :
    Form.of (t.markup.chars ++ rest) = t.form := by
  have hbare {t : Ty} {c : Char} {cs : List Char} (hcons : t.markup.chars = c :: cs)
      (hc : isWordChar c) : Form.of (t.markup.chars ++ rest) = .bare := by
    rw [hcons, List.cons_append, Form.of]
    · exact fun _ h => ne_of_isWordChar hc rfl (List.cons.inj h).1
    · exact fun _ h => ne_of_isWordChar hc rfl (List.cons.inj h).1
  cases t with
  | var id ident =>
    obtain ⟨c, cs, hcons, hc, -⟩ := (h.self.isWord ident List.mem_cons_self).exists_cons
    exact hbare (t := .var id ident) hcons hc
  | con id name args =>
    have hname : ∀ w ∈ name.words, IsWord w := h.self.isWord
    obtain ⟨c, cs, hcons, hc, -⟩ := Name.exists_cons hname
    cases args with
    | nil => exact hbare (t := .con id name []) hcons hc
    | cons arg args =>
      rw [chars_applied, Form.of_paren (Name.isTokenChar_of_mem hname) ⟨c, cs, hcons, hc⟩
        (ends_listMarkup _ (ends_cons rfl)), chars_listMarkup]
      rcases chars_cases (wellSpelled_cons h.inside).1 with ⟨cs, harg⟩ | ⟨⟨d, cs, harg, hd⟩, -⟩
      · rw [harg]
        rfl
      · rw [harg, List.cons_append, Form.behind]
        · rfl
        · exact fun _ h => ne_of_isWordChar hd rfl (List.cons.inj (List.cons.inj h).2).1
  | arrow id param result =>
    rw [chars_arrow]
    rcases chars_cases (wellSpelled_arrow h).1 with ⟨cs, hparam⟩ | ⟨hhead, htoken⟩
    · rw [hparam]
      rfl
    · rw [Form.of_paren htoken hhead (ends_cons rfl)]
      rfl

/-- A type without parentheses is known by its name, and a variable by its first letter. -/
theorem eraseIds_eq_of_bare {t t' : Ty} (h : (Node.type t).WellSpelled upper)
    (h' : (Node.type t').WellSpelled upper) (hform : t.form = .bare) (hform' : t'.form = .bare)
    (hrest : Ends isTokenChar rest) (hrest' : Ends isTokenChar rest')
    (hsame : t.markup.chars ++ rest = t'.markup.chars ++ rest') :
    t.eraseIds = t'.eraseIds ∧ rest = rest' := by
  -- A variable is written like a name without a qualifier.
  have hcased {id id' : NodeId} {ident : String} {name : Name}
      (hvar : (Node.type (.var id ident)).WellSpelled upper)
      (hcon : (Node.type (.con id' name [])).WellSpelled upper) :
      Name.unqualified ident ≠ name := by
    rintro rfl
    obtain ⟨c, hc, -⟩ := (hvar.self.isWord ident List.mem_cons_self).head
    have hlower := hvar.self.cased c hc
    rw [hcon.self.cased c hc] at hlower
    cases hlower
  cases t with
  | var id ident =>
    cases t' with
    | var id' ident' =>
      obtain ⟨rfl, hrest⟩ := IsWord.append_inj (h.self.isWord ident List.mem_cons_self)
        (h'.self.isWord ident' List.mem_cons_self) hrest hrest' hsame
      exact ⟨rfl, hrest⟩
    | con id' name' args' =>
      obtain rfl : args' = [] := by
        cases args' with
        | nil => rfl
        | cons arg' args' => cases hform'
      have hident : ∀ w ∈ (Name.unqualified ident).words, IsWord w := h.self.isWord
      exact absurd (Name.append_inj hident h'.self.isWord hrest hrest' hsame).1 (hcased h h')
    | arrow id' param' result' => cases hform'
  | con id name args =>
    obtain rfl : args = [] := by
      cases args with
      | nil => rfl
      | cons arg args => cases hform
    cases t' with
    | var id' ident' =>
      have hident' : ∀ w ∈ (Name.unqualified ident').words, IsWord w := h'.self.isWord
      exact absurd (Name.append_inj h.self.isWord hident' hrest hrest' hsame).1.symm (hcased h' h)
    | con id' name' args' =>
      obtain rfl : args' = [] := by
        cases args' with
        | nil => rfl
        | cons arg' args' => cases hform'
      obtain ⟨rfl, hrest⟩ := Name.append_inj h.self.isWord h'.self.isWord hrest hrest' hsame
      exact ⟨rfl, hrest⟩
    | arrow id' param' result' => cases hform'
  | arrow id param result => cases hform

-- As types have no mark at their end, lists of them end only where no further type starts.
mutual

/-- **A text is cut behind a type**, and up to ids the type is known. -/
theorem eraseIds_eq : (t t' : Ty) → (Node.type t).WellSpelled upper →
    (Node.type t').WellSpelled upper → ∀ {rest rest' : List Char}, Ends isTokenChar rest →
    Ends isTokenChar rest' → t.markup.chars ++ rest = t'.markup.chars ++ rest' →
    t.eraseIds = t'.eraseIds ∧ rest = rest'
  | .var id ident, t', h, h', rest, rest', hrest, hrest', hsame => by
    have hform := (form_eq h rest).symm.trans ((congrArg Form.of hsame).trans (form_eq h' rest'))
    exact eraseIds_eq_of_bare h h' rfl hform.symm hrest hrest' hsame
  | .con id name args, t', h, h', rest, rest', hrest, hrest', hsame => by
    have hform := (form_eq h rest).symm.trans ((congrArg Form.of hsame).trans (form_eq h' rest'))
    have hargs := fun args' => listEraseIds_eq args args' h.inside
    cases args with
    | nil => exact eraseIds_eq_of_bare h h' rfl hform.symm hrest hrest' hsame
    | cons arg args =>
      cases t' with
      | var id' ident' => cases hform
      | arrow id' param' result' => cases hform
      | con id' name' args' =>
        cases args' with
        | nil => cases hform
        | cons arg' args' =>
          rw [chars_applied, chars_applied] at hsame
          obtain ⟨rfl, hbehind⟩ := Name.append_inj h.self.isWord h'.self.isWord
            (ends_listMarkup _ (ends_cons rfl)) (ends_listMarkup _ (ends_cons rfl))
            (List.cons.inj hsame).2
          obtain ⟨hargs, hclose⟩ := hargs _ h'.inside (endsTypes_paren _) (endsTypes_paren _)
            hbehind
          refine ⟨?_, (List.cons.inj hclose).2⟩
          rw [eraseIds, eraseIds, hargs]
  | .arrow id param result, t', h, h', rest, rest', hrest, hrest', hsame => by
    have hform := (form_eq h rest).symm.trans ((congrArg Form.of hsame).trans (form_eq h' rest'))
    cases t' with
    | var id' ident' => cases hform
    | con id' name' args' => cases args' <;> cases hform
    | arrow id' param' result' =>
      obtain ⟨hparam, hresult⟩ := wellSpelled_arrow h
      obtain ⟨hparam', hresult'⟩ := wellSpelled_arrow h'
      rw [chars_arrow, chars_arrow] at hsame
      obtain ⟨hparam, hbehind⟩ := eraseIds_eq param param' hparam hparam' (ends_cons rfl)
        (ends_cons rfl) (List.cons.inj hsame).2
      simp only [List.cons.injEq, true_and] at hbehind
      obtain ⟨hresult, hclose⟩ := eraseIds_eq result result' hresult hresult' (ends_cons rfl)
        (ends_cons rfl) hbehind
      refine ⟨?_, (List.cons.inj hclose).2⟩
      rw [eraseIds, eraseIds, hparam, hresult]

theorem listEraseIds_eq : (types types' : List Ty) → (∀ n ∈ listInside types, n.Spelled upper) →
    (∀ n ∈ listInside types', n.Spelled upper) → ∀ {rest rest' : List Char}, EndsTypes rest →
    EndsTypes rest' → (listMarkup types).chars ++ rest = (listMarkup types').chars ++ rest' →
    listEraseIds types = listEraseIds types' ∧ rest = rest'
  | [], [], _, _, _, _, _, _, hsame => ⟨rfl, hsame⟩
  | [], type' :: types', _, h', rest, rest', hrest, _, hsame =>
    absurd hsame (ne_listMarkup (wellSpelled_cons h').1 hrest)
  | type :: types, [], h, _, rest, rest', _, hrest', hsame =>
    absurd hsame.symm (ne_listMarkup (wellSpelled_cons h).1 hrest')
  | type :: types, type' :: types', h, h', rest, rest', hrest, hrest', hsame => by
    obtain ⟨htype, htypes⟩ := wellSpelled_cons h
    obtain ⟨htype', htypes'⟩ := wellSpelled_cons h'
    rw [chars_listMarkup, chars_listMarkup] at hsame
    obtain ⟨htype, hbehind⟩ := eraseIds_eq type type' htype htype' (ends_listMarkup _ hrest.ends)
      (ends_listMarkup _ hrest'.ends) (List.cons.inj hsame).2
    obtain ⟨htypes, hrest⟩ := listEraseIds_eq types types' htypes htypes' hrest hrest' hbehind
    refine ⟨?_, hrest⟩
    rw [listEraseIds, listEraseIds, htype, htypes]

end

end Ty

end NameResolution
