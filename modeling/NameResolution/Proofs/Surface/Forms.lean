import NameResolution.Proofs.Surface.Tokens

/-!
# What the first characters tell

The first characters of a printed term tell which kind of term it is, and they do so without any
knowledge of what follows it.  A `Form` is a kind of term as far as it is told in this way:
`Form.of` reads it off the text.
-/

namespace NameResolution

open Surface

namespace Surface

/-- What the first characters of a printed term tell. -/
inductive Form where
  | int
  | bool
  | str
  | unit
  | name
  | lambda
  | letIn
  | ifThenElse
  | matchWith
  /-- Something else in parentheses. -/
  | compound
deriving DecidableEq

/-- The characters of names and numbers in front. -/
def word (cs : List Char) : String := String.ofList (cs.takeWhile isTokenChar)

namespace Form

/-- The form of what follows an opening parenthesis. -/
def inside : List Char → Form
  | ')' :: _ => unit
  | '\\' :: _ => lambda
  | cs =>
    if word cs = "let" then letIn
    else if word cs = "if" then ifThenElse
    else if word cs = "match" then matchWith
    else compound

/-- The form of a text. -/
def of : List Char → Form
  | '(' :: cs => inside cs
  | '"' :: _ => str
  | c :: cs =>
    if c.isDigit ∨ c = '-' then int
    else if word (c :: cs) ∈ ["true", "false"] then bool
    else name
  | [] => name

theorem of_cons {c : Char} (hparen : c ≠ '(') (hquote : c ≠ '"') (cs : List Char) :
    of (c :: cs) = if c.isDigit ∨ c = '-' then int
      else if word (c :: cs) ∈ ["true", "false"] then bool else name := by
  rw [of]
  · exact hparen
  · exact hquote

end Form

theorem word_append {text : String} {rest : List Char} (htext : ∀ c ∈ text.toList, isTokenChar c)
    (hrest : Ends isTokenChar rest) : word (text.toList ++ rest) = text := by
  rw [word, takeWhile_of_ends htext hrest, String.ofList_toList]

/-- A text can stand as the first part of a compound in parentheses, and as the second one. -/
structure Opens (cs : List Char) : Prop where
  inside_eq : Form.inside cs = .compound
  ne_colon : ∀ c ∈ cs.head?, c ≠ ':'

theorem opens_cons {c : Char} {cs : List Char} (hclose : c ≠ ')') (hlambda : c ≠ '\\')
    (hcolon : c ≠ ':') (hword : word (c :: cs) ∉ ["let", "if", "match"]) : Opens (c :: cs) := by
  constructor
  · simp only [List.mem_cons, List.not_mem_nil, or_false, not_or] at hword
    obtain ⟨hlet, hif, hmatch⟩ := hword
    rw [Form.inside, if_neg hlet, if_neg hif, if_neg hmatch]
    · exact fun _ h => hclose (List.cons.inj h).1
    · exact fun _ h => hlambda (List.cons.inj h).1
  · intro other hother
    obtain rfl := Option.mem_some.mp hother
    exact hcolon

theorem opens_paren (cs : List Char) : Opens ('(' :: cs) :=
  opens_cons (by decide) (by decide) (by decide) (by
    show "" ∉ ["let", "if", "match"]
    decide)

/-! ### Texts that start like words -/

section Words

variable {text : String} {rest : List Char}

theorem Form.of_append (htext : ∀ c ∈ text.toList, isTokenChar c)
    (hhead : ∃ c cs, text.toList = c :: cs ∧ isWordChar c ∧ c.isDigit = false)
    (hrest : Ends isTokenChar rest) :
    of (text.toList ++ rest) = if text ∈ ["true", "false"] then bool else name := by
  have hword := word_append htext hrest
  obtain ⟨c, cs, hcons, hc, hdigit⟩ := hhead
  rw [hcons, List.cons_append] at hword ⊢
  rw [of_cons (ne_of_isWordChar hc rfl) (ne_of_isWordChar hc rfl), if_neg, hword]
  rintro (h | h)
  · rw [hdigit] at h
    cases h
  · exact ne_of_isWordChar hc rfl h

theorem opens_append (htext : ∀ c ∈ text.toList, isTokenChar c)
    (hhead : ∃ c cs, text.toList = c :: cs ∧ (isWordChar c ∨ c = '-'))
    (hrest : Ends isTokenChar rest) (hne : text ∉ ["let", "if", "match"]) :
    Opens (text.toList ++ rest) := by
  have hword := word_append htext hrest
  obtain ⟨c, cs, hcons, hc⟩ := hhead
  have hc : ∀ d, isWordChar d = false → d ≠ '-' → c ≠ d := by
    rcases hc with hc | rfl
    · exact fun d hd _ => ne_of_isWordChar hc hd
    · exact fun d _ hd => Ne.symm hd
  rw [hcons, List.cons_append] at hword ⊢
  refine opens_cons (hc _ rfl (by decide)) (hc _ rfl (by decide)) (hc _ rfl (by decide)) ?_
  rwa [hword]

end Words

end Surface

/-! ### Names -/

namespace Name

variable {name : Name} {rest : List Char}

theorem form_eq (h : ∀ w ∈ name.words, IsWord w) (hrest : Ends isTokenChar rest) :
    Form.of ((toString name).toList ++ rest) = .name := by
  have htrue := toString_ne h (w := "true") (by decide)
  have hfalse := toString_ne h (w := "false") (by decide)
  rw [Form.of_append (isTokenChar_of_mem h) (exists_cons h) hrest, if_neg]
  simpa using ⟨htrue, hfalse⟩

theorem opens (h : ∀ w ∈ name.words, IsWord w) (hrest : Ends isTokenChar rest) :
    Opens ((toString name).toList ++ rest) := by
  have hlet := toString_ne h (w := "let") (by decide)
  have hif := toString_ne h (w := "if") (by decide)
  have hmatch := toString_ne h (w := "match") (by decide)
  obtain ⟨c, cs, hname, hc, -⟩ := exists_cons h
  refine opens_append (isTokenChar_of_mem h) ⟨c, cs, hname, Or.inl hc⟩ hrest ?_
  simpa using ⟨hlet, hif, hmatch⟩

end Name

/-! ### Literals -/

namespace Literal

variable {rest : List Char}

/-- The form of a literal. -/
def form : Literal → Form
  | int _ => .int
  | bool _ => .bool
  | str _ => .str
  | unit => .unit

/-- The words for the truth values. -/
theorem isTokenChar_of_mem_bool (b : Bool) : ∀ c ∈ (bool b).toText.toList, isTokenChar c := by
  cases b with
  | false => exact List.all_eq_true.mp (rfl : "false".toList.all isTokenChar = true)
  | true => exact List.all_eq_true.mp (rfl : "true".toList.all isTokenChar = true)

theorem exists_cons_bool (b : Bool) :
    ∃ c cs, (bool b).toText.toList = c :: cs ∧ isWordChar c ∧ c.isDigit = false := by
  cases b with
  | false => exact ⟨'f', _, rfl, rfl, rfl⟩
  | true => exact ⟨'t', _, rfl, rfl, rfl⟩

theorem form_eq (v : Literal) (hrest : Ends isTokenChar rest) :
    Form.of (v.toText.toList ++ rest) = v.form := by
  cases v with
  | int i =>
    obtain ⟨c, cs, htext, hc⟩ := exists_cons_toString i.toInt
    show Form.of ((toString i.toInt).toList ++ rest) = .int
    rw [htext, List.cons_append, Form.of_cons, if_pos hc]
    · rintro rfl
      revert hc
      decide
    · rintro rfl
      revert hc
      decide
  | bool b =>
    rw [Form.of_append (isTokenChar_of_mem_bool b) (exists_cons_bool b) hrest, if_pos]
    · rfl
    · cases b <;> decide
  | str s =>
    show Form.of ((quote s).toList ++ rest) = .str
    rw [toList_quote]
    rfl
  | unit => rfl

theorem opens (v : Literal) (hrest : Ends isTokenChar rest) : Opens (v.toText.toList ++ rest) := by
  cases v with
  | int i =>
    obtain ⟨c, cs, htext, hc⟩ := exists_cons_toString i.toInt
    have hhead : isWordChar c ∨ c = '-' := hc.imp_left isWordChar_of_isDigit
    refine opens_append isTokenChar_of_mem_toString ⟨c, cs, htext, hhead⟩ hrest ?_
    -- A numeral has no letters.
    have hletter : ∀ w ∈ ["let", "if", "match"], ∃ c ∈ w.toList, ¬(c.isDigit ∨ c = '-') := by
      simp
    intro hmem
    obtain ⟨d, hd, hnot⟩ := hletter _ hmem
    exact hnot (isDigit_or_eq_of_mem_toString hd)
  | bool b =>
    obtain ⟨c, cs, htext, hc, -⟩ := exists_cons_bool b
    refine opens_append (isTokenChar_of_mem_bool b) ⟨c, cs, htext, Or.inl hc⟩ hrest ?_
    cases b <;> decide
  | str s =>
    show Opens ((quote s).toList ++ rest)
    rw [toList_quote]
    refine opens_cons (by decide) (by decide) (by decide) ?_
    show "" ∉ ["let", "if", "match"]
    decide
  | unit => exact opens_paren _

/-- **A text is cut behind a literal.** -/
theorem append_inj {v v' : Literal} {rest' : List Char} (hrest : Ends isTokenChar rest)
    (hrest' : Ends isTokenChar rest') (h : v.toText.toList ++ rest = v'.toText.toList ++ rest') :
    v = v' ∧ rest = rest' := by
  have hform : v.form = v'.form := by rw [← v.form_eq hrest, h, v'.form_eq hrest']
  cases v with
  | int i =>
    cases v' with
    | int i' =>
      obtain ⟨hi, hrest⟩ := toString_append_inj hrest hrest' h
      exact ⟨congrArg int (Int64.toInt_inj.mp hi), hrest⟩
    | _ => cases hform
  | bool b =>
    cases v' with
    | bool b' =>
      obtain ⟨htext, hrest⟩ := append_inj_of_ends (isTokenChar_of_mem_bool b)
        (isTokenChar_of_mem_bool b') hrest hrest' h
      refine ⟨?_, hrest⟩
      revert htext
      cases b <;> cases b' <;> decide
    | _ => cases hform
  | str s =>
    cases v' with
    | str s' => exact (quote_append_inj h).imp_left (congrArg str)
    | _ => cases hform
  | unit =>
    cases v' with
    | unit => exact ⟨rfl, List.append_cancel_left h⟩
    | _ => cases hform

end Literal

end NameResolution
