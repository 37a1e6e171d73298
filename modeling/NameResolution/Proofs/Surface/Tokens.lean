import NameResolution.Json.Quoted
import NameResolution.Proofs.Paths
import NameResolution.Proofs.Surface.Chars
import NameResolution.Surface.Printer
import Mathlib

/-!
# Words, literals and where they end

A text that starts with a name or a literal can be cut behind it in one way only, if something
follows that belongs to no name and no number: `Name.append_inj`, `Literal.append_inj`.  Names and
numbers go on as long as there are characters for them (`append_inj_of_ends`).  In a quoted text the
characters are read one by one up to the quote that is not escaped (`unescape_escape`).

What a text starts with tells the names from the literals, and from compound expressions: this is
its `Form`.
-/

namespace NameResolution

/-! ### Where a part of a list ends -/

section Ends

variable {α : Type} {part : α → Bool} {first first' rest rest' : List α}

/-- The list does not start with what belongs to a part. -/
def Ends (part : α → Bool) (rest : List α) : Prop := ∀ a ∈ rest.head?, part a = false

theorem ends_nil : Ends part [] := nofun

theorem ends_cons {a : α} (h : part a = false) : Ends part (a :: rest) := by
  intro other hother
  obtain rfl := Option.mem_some.mp hother
  exact h

theorem ends_of_forall (h : ∀ a ∈ rest, part a = false) : Ends part rest :=
  fun a ha => h a (List.mem_of_mem_head? ha)

theorem takeWhile_of_ends (hfirst : ∀ a ∈ first, part a) (hrest : Ends part rest) :
    (first ++ rest).takeWhile part = first := by
  rw [List.takeWhile_append_of_pos hfirst]
  cases rest with
  | nil => exact List.append_nil _
  | cons a rest =>
    rw [List.takeWhile_cons_of_neg (by simpa using hrest a rfl), List.append_nil]

theorem dropWhile_of_ends (hfirst : ∀ a ∈ first, part a) (hrest : Ends part rest) :
    (first ++ rest).dropWhile part = rest := by
  rw [List.dropWhile_append_of_pos hfirst]
  cases rest with
  | nil => rfl
  | cons a rest => exact List.dropWhile_cons_of_neg (by simpa using hrest a rfl)

/-- **A list is cut where a part of it ends.** -/
theorem append_inj_of_ends (hfirst : ∀ a ∈ first, part a) (hfirst' : ∀ a ∈ first', part a)
    (hrest : Ends part rest) (hrest' : Ends part rest') (h : first ++ rest = first' ++ rest') :
    first = first' ∧ rest = rest' := by
  have hsame : first = first' := by
    rw [← takeWhile_of_ends hfirst hrest, h, takeWhile_of_ends hfirst' hrest']
  subst hsame
  exact ⟨rfl, List.append_cancel_left h⟩

end Ends

/-- What holds before items and before what follows them holds before all items. -/
theorem before_flatMap {α γ : Type} {f : α → List γ} {P : List γ → Prop} (as : List α)
    {rest : List γ} (hnext : ∀ a rest, P (f a ++ rest)) (hrest : P rest) :
    P (as.flatMap f ++ rest) := by
  cases as with
  | nil => exact hrest
  | cons a as =>
    rw [List.flatMap_cons, List.append_assoc]
    exact hnext _ _

/-- **A list is cut behind items that can be cut off one by one.**  `P` tells what may follow an
item: one more item, or what is not one. -/
theorem flatMap_append_inj {α β γ : Type} {f : α → List γ} {g : α → β}
    {P : List γ → Prop} {as as' : List α} {rest rest' : List γ}
    (hitem : ∀ a ∈ as, ∀ a' ∈ as', ∀ {rest rest' : List γ}, P rest → P rest' →
      f a ++ rest = f a' ++ rest' → g a = g a' ∧ rest = rest')
    (hnext : ∀ a rest, P (f a ++ rest)) (hrest : P rest) (hrest' : P rest')
    (hends : ∀ a ∈ as', ∀ other, rest ≠ f a ++ other)
    (hends' : ∀ a ∈ as, ∀ other, rest' ≠ f a ++ other)
    (h : as.flatMap f ++ rest = as'.flatMap f ++ rest') :
    as.map g = as'.map g ∧ rest = rest' := by
  induction as generalizing as' with
  | nil =>
    cases as' with
    | nil => exact ⟨rfl, h⟩
    | cons a' as' =>
      rw [List.flatMap_cons, List.append_assoc] at h
      exact absurd h (hends a' List.mem_cons_self _)
  | cons a as ih =>
    rw [List.flatMap_cons, List.append_assoc] at h
    cases as' with
    | nil => exact absurd h.symm (hends' a List.mem_cons_self _)
    | cons a' as' =>
      rw [List.flatMap_cons, List.append_assoc] at h
      obtain ⟨hkey, h⟩ := hitem a List.mem_cons_self a' List.mem_cons_self
        (before_flatMap as hnext hrest) (before_flatMap as' hnext hrest') h
      obtain ⟨hkeys, hrest⟩ := ih
        (fun b hb b' hb' => hitem b (List.mem_cons_of_mem _ hb) b' (List.mem_cons_of_mem _ hb'))
        (fun b hb => hends b (List.mem_cons_of_mem _ hb))
        (fun b hb => hends' b (List.mem_cons_of_mem _ hb)) h
      exact ⟨by rw [List.map_cons, List.map_cons, hkey, hkeys], hrest⟩

/-! ### Words -/

namespace Surface

/-- The characters of words.  Beyond ASCII every character counts as a letter. -/
def isWordChar (c : Char) : Bool := c.isAlphanum || c == '_' || c == '#' || 128 ≤ c.toNat

/-- The words with a meaning of their own. -/
def reserved : List String :=
  ["_", "module", "import", "export", "let", "data", "in", "if", "then", "else", "match", "with",
    "true", "false"]

/-- A word that can stand for something. -/
structure IsWord (w : String) : Prop where
  /-- There is a first character, and it is not a digit. -/
  head : ∃ c ∈ w.toList.head?, c.isDigit = false
  isWordChar : ∀ c ∈ w.toList, isWordChar c
  not_reserved : w ∉ reserved

theorem isWord_iff (w : String) : IsWord w ↔
    (w.toList.head?.any (!·.isDigit) && w.toList.all isWordChar && !reserved.contains w) =
      true := by
  simp only [Bool.and_eq_true, Option.any_eq_true, Bool.not_eq_true', List.all_eq_true,
    List.contains_eq_mem, decide_eq_false_iff_not]
  exact ⟨fun h => ⟨⟨h.head, h.isWordChar⟩, h.not_reserved⟩, fun h => ⟨h.1.1, h.1.2, h.2⟩⟩

instance (w : String) : Decidable (IsWord w) := decidable_of_iff _ (isWord_iff w).symm

/-- The characters of names and numbers. -/
def isTokenChar (c : Char) : Bool := isWordChar c || c == ':' || c == '-'

theorem isTokenChar_of_isWordChar {c : Char} (h : isWordChar c) : isTokenChar c := by
  rw [isTokenChar, h]
  rfl

/-- No character of a word has another meaning. -/
theorem ne_of_isWordChar {c d : Char} (h : isWordChar c) (hd : isWordChar d = false) : c ≠ d := by
  rintro rfl
  rw [h] at hd
  cases hd

namespace IsWord

variable {w : String}

theorem colon_not_mem (h : IsWord w) : ':' ∉ w.toList :=
  fun hmem => ne_of_isWordChar (h.isWordChar ':' hmem) rfl rfl

theorem newline_not_mem (h : IsWord w) : '\n' ∉ w.toList :=
  fun hmem => ne_of_isWordChar (h.isWordChar '\n' hmem) rfl rfl

theorem ne_empty (h : IsWord w) : w ≠ "" := by
  rintro rfl
  obtain ⟨c, hc, -⟩ := h.head
  cases hc

theorem isTokenChar (h : IsWord w) : ∀ c ∈ w.toList, isTokenChar c :=
  fun c hc => isTokenChar_of_isWordChar (h.isWordChar c hc)

/-- A word starts with a character of words that is not a digit. -/
theorem exists_cons (h : IsWord w) :
    ∃ c cs, w.toList = c :: cs ∧ Surface.isWordChar c ∧ c.isDigit = false := by
  obtain ⟨c, hc, hdigit⟩ := h.head
  obtain ⟨cs, hw⟩ := List.head?_eq_some_iff.mp hc
  exact ⟨c, cs, hw, h.isWordChar c (hw ▸ List.mem_cons_self), hdigit⟩

/-- **A text is cut behind a word.** -/
theorem append_inj {w' : String} {rest rest' : List Char} (h : IsWord w) (h' : IsWord w')
    (hrest : Ends Surface.isTokenChar rest) (hrest' : Ends Surface.isTokenChar rest')
    (hsame : w.toList ++ rest = w'.toList ++ rest') : w = w' ∧ rest = rest' :=
  (append_inj_of_ends h.isTokenChar h'.isTokenChar hrest hrest' hsame).imp_left String.toList_inj.mp

end IsWord

theorem colon_not_mem_of_reserved : ∀ w ∈ reserved, ':' ∉ w.toList := by decide

end Surface

open Surface

/-! ### Names -/

namespace Namespace

variable {ns ns' : Namespace}

theorem isTokenChar_of_mem (h : ∀ w ∈ ns.segments, IsWord w) :
    ∀ c ∈ (toString ns).toList, isTokenChar c := by
  rw [toList_toString]
  have hcolon : isTokenChar ':' := rfl
  exact forall_mem_intercalate
    (List.forall_mem_cons.mpr ⟨hcolon, List.forall_mem_singleton.mpr hcolon⟩)
    (List.forall_mem_map.mpr fun w hw => (h w hw).isTokenChar)

/-- A text that holds nothing else shows which namespace is written. -/
theorem eq_of_toString_eq_of_isWord (h : ∀ w ∈ ns.segments, IsWord w)
    (h' : ∀ w ∈ ns'.segments, IsWord w) (hsame : toString ns = toString ns') : ns = ns' :=
  eq_of_toString_eq (fun w hw => ⟨(h w hw).ne_empty, (h w hw).colon_not_mem⟩)
    (fun w hw => ⟨(h' w hw).ne_empty, (h' w hw).colon_not_mem⟩) hsame

end Namespace

namespace Name

variable {name name' : Name}

theorem isTokenChar_of_mem (h : ∀ w ∈ name.words, IsWord w) :
    ∀ c ∈ (toString name).toList, isTokenChar c := by
  rw [toString_eq]
  exact Namespace.isTokenChar_of_mem h

theorem eq_of_toString_eq_of_isWord (h : ∀ w ∈ name.words, IsWord w)
    (h' : ∀ w ∈ name'.words, IsWord w) (hsame : toString name = toString name') : name = name' :=
  eq_of_toString_eq (fun w hw => (h w hw).colon_not_mem) (fun w hw => (h' w hw).colon_not_mem) hsame

theorem exists_cons (h : ∀ w ∈ name.words, IsWord w) :
    ∃ c cs, (toString name).toList = c :: cs ∧ isWordChar c ∧ c.isDigit = false := by
  have hne : name.words ≠ [] := List.concat_ne_nil _ _
  rw [toString_eq, Namespace.toList_toString]
  show ∃ c cs, [':', ':'].intercalate (name.words.map String.toList) = c :: cs ∧ _
  cases hwords : name.words with
  | nil => exact absurd hwords hne
  | cons w rest =>
    obtain ⟨c, cs, hw, hc⟩ := (h w (hwords ▸ List.mem_cons_self)).exists_cons
    rw [List.map_cons, intercalate_cons, hw]
    exact ⟨c, _, rfl, hc⟩

/-- No name is written like a reserved word. -/
theorem toString_ne (h : ∀ w ∈ name.words, IsWord w) {w : String} (hw : w ∈ reserved) :
    toString name ≠ w := by
  intro hsame
  have hname : name = .unqualified w := by
    refine eq_of_toString_eq (fun v hv => (h v hv).colon_not_mem) (fun v hv => ?_) hsame
    rw [List.mem_singleton.mp hv]
    exact colon_not_mem_of_reserved w hw
  have hmem : w ∈ name.words := hname ▸ List.mem_singleton_self w
  exact (h w hmem).not_reserved hw

/-- **A text is cut behind a name.** -/
theorem append_inj {rest rest' : List Char} (h : ∀ w ∈ name.words, IsWord w)
    (h' : ∀ w ∈ name'.words, IsWord w) (hrest : Ends isTokenChar rest)
    (hrest' : Ends isTokenChar rest')
    (hsame : (toString name).toList ++ rest = (toString name').toList ++ rest') :
    name = name' ∧ rest = rest' := by
  obtain ⟨htext, hrest⟩ := append_inj_of_ends (isTokenChar_of_mem h) (isTokenChar_of_mem h') hrest
    hrest' hsame
  exact ⟨eq_of_toString_eq_of_isWord h h' (String.toList_inj.mp htext), hrest⟩

end Name

/-! ### Quoted text -/

namespace Surface

/-- The number that hexadecimal digits stand for. -/
def hexValue (digits : List Char) : Nat :=
  digits.foldl (fun n c => n * 16 + (Json.hexDigit? c).getD 0) 0

/-- The value of a hexadecimal numeral. -/
theorem hexValue_toDigits (n : Nat) : hexValue (Nat.toDigits 16 n) = n := by
  have hdigit : ∀ d < 16, (Json.hexDigit? (Nat.digitChar d)).getD 0 = d := by decide
  induction n using Nat.strong_induction_on with
  | _ n ih =>
  rw [Nat.toDigits_eq_if (by omega)]
  split_ifs with hn
  · rw [hexValue, List.foldl_cons, List.foldl_nil, hdigit n hn, Nat.zero_mul, Nat.zero_add]
  · have hrest := ih (n / 16) (by omega)
    rw [hexValue] at hrest
    rw [hexValue, List.foldl_append, hrest, List.foldl_cons, List.foldl_nil,
      hdigit _ (Nat.mod_lt _ (by omega)), Nat.div_add_mod']

/-- Reads one character of a quoted text. -/
def unescape : List Char → Option (Char × List Char)
  | '\\' :: '0' :: rest => some ('\x00', rest)
  | '\\' :: 't' :: rest => some ('\t', rest)
  | '\\' :: 'r' :: rest => some ('\r', rest)
  | '\\' :: 'n' :: rest => some ('\n', rest)
  | '\\' :: '"' :: rest => some ('"', rest)
  | '\\' :: '\\' :: rest => some ('\\', rest)
  | '\\' :: 'u' :: '{' :: rest =>
    some (Char.ofNat (hexValue (rest.takeWhile (· != '}'))), (rest.dropWhile (· != '}')).tail)
  | '"' :: _ => none
  | c :: rest => some (c, rest)
  | [] => none

/-- **Every character is read as it was written.** -/
theorem unescape_escape (c : Char) (rest : List Char) :
    unescape (escape c ++ rest) = some (c, rest) := by
  unfold escape
  split
  · rfl
  · rfl
  · rfl
  · rfl
  · rfl
  · rfl
  · rename_i hquote hbackslash
    split_ifs
    · have hdigits : ∀ d ∈ Nat.toDigits 16 c.toNat, (d != '}') = true := by
        intro d hd
        obtain ⟨n, -, rfl⟩ := exists_digitChar_of_mem_toDigits hd
        exact bne_iff_ne.mpr (Nat.digitChar_ne '}' (by decide))
      have htext : ['\\', 'u', '{'] ++ Nat.toDigits 16 c.toNat ++ ['}'] ++ rest =
          '\\' :: 'u' :: '{' :: (Nat.toDigits 16 c.toNat ++ '}' :: rest) := by
        rw [List.append_assoc, List.append_assoc]
        rfl
      rw [htext, unescape, takeWhile_of_ends hdigits (ends_cons rfl), hexValue_toDigits,
        Char.ofNat_toNat, List.dropWhile_append_of_pos hdigits]
      rfl
    · show unescape (c :: rest) = some (c, rest)
      unfold unescape
      split <;> simp_all

/-- Behind the last character of a quoted text there is none to read. -/
theorem unescape_quote (rest : List Char) : unescape ('"' :: rest) = none := rfl

theorem escaped_append_inj {cs cs' rest rest' : List Char}
    (h : cs.flatMap escape ++ '"' :: rest = cs'.flatMap escape ++ '"' :: rest') :
    cs = cs' ∧ rest = rest' := by
  -- Reading one character from both texts leaves texts of the same shape.
  induction cs generalizing cs' with
  | nil =>
    cases cs' with
    | nil => exact ⟨rfl, (List.cons.inj h).2⟩
    | cons c' cs' =>
      have hread := congrArg unescape h
      rw [List.flatMap_nil, List.nil_append, List.flatMap_cons, List.append_assoc, unescape_quote,
        unescape_escape] at hread
      cases hread
  | cons c cs ih =>
    have hread := congrArg unescape h
    rw [List.flatMap_cons, List.append_assoc, unescape_escape] at hread
    cases cs' with
    | nil =>
      rw [List.flatMap_nil, List.nil_append, unescape_quote] at hread
      cases hread
    | cons c' cs' =>
      rw [List.flatMap_cons, List.append_assoc, unescape_escape] at hread
      obtain ⟨rfl, hbehind⟩ := Prod.mk.inj (Option.some.inj hread)
      obtain ⟨rfl, hrest⟩ := ih hbehind
      exact ⟨rfl, hrest⟩

/-- **A text is cut behind what is quoted**, whatever follows. -/
theorem quote_append_inj {text text' : String} {rest rest' : List Char}
    (h : (quote text).toList ++ rest = (quote text').toList ++ rest') :
    text = text' ∧ rest = rest' := by
  rw [toList_quote, toList_quote, List.cons_append, List.cons_append, List.append_assoc,
    List.append_assoc] at h
  exact (escaped_append_inj (List.cons.inj h).2).imp_left String.toList_inj.mp

/-! ### Numerals -/

theorem isWordChar_of_isDigit {c : Char} (h : c.isDigit) : isWordChar c := by
  rw [isWordChar, Char.isAlphanum, h, Bool.or_true]
  rfl

theorem isTokenChar_of_mem_toString {i : Int} : ∀ c ∈ (toString i).toList, isTokenChar c := by
  intro c hc
  rcases isDigit_or_eq_of_mem_toString hc with h | rfl
  · exact isTokenChar_of_isWordChar (isWordChar_of_isDigit h)
  · rfl

/-- A numeral starts with a digit or a sign. -/
theorem exists_cons_toString (i : Int) :
    ∃ c cs, (toString i).toList = c :: cs ∧ (c.isDigit ∨ c = '-') := by
  cases htext : (toString i).toList with
  | nil =>
    rw [Int.toString_eq_repr, Int.repr_eq_if] at htext
    split_ifs at htext
    · exact absurd (String.toList_eq_nil_iff.mp htext) Nat.repr_ne_empty
    · rw [String.toList_append] at htext
      cases htext
  | cons c cs =>
    exact ⟨c, cs, rfl, isDigit_or_eq_of_mem_toString (htext ▸ List.mem_cons_self)⟩

/-- **A text is cut behind a number.** -/
theorem toString_append_inj {i i' : Int} {rest rest' : List Char} (hrest : Ends isTokenChar rest)
    (hrest' : Ends isTokenChar rest')
    (h : (toString i).toList ++ rest = (toString i').toList ++ rest') : i = i' ∧ rest = rest' := by
  obtain ⟨htext, hrest⟩ := append_inj_of_ends isTokenChar_of_mem_toString
    isTokenChar_of_mem_toString hrest hrest' h
  exact ⟨Int.repr_inj.mp (String.toList_inj.mp htext), hrest⟩

end Surface

end NameResolution
