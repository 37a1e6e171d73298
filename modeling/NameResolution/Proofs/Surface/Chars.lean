import NameResolution.Surface.Markup
import NameResolution.Surface.Quoted
import Mathlib

/-!
# The characters of printed text

Printed text as a list of characters (`Markup.chars`), which is the text without its marks
(`Markup.toList_toText`).  Facts about which characters are written are stated about these lists.
-/

namespace NameResolution.Surface

namespace Markup

/-- The characters of the text. -/
def chars : Markup → List Char
  | text s => s.toList
  | node _ body => body.chars
  | append first second => first.chars ++ second.chars

@[simp] theorem chars_text (s : String) : (text s).chars = s.toList := rfl

@[simp] theorem chars_empty : empty.chars = [] := rfl

@[simp] theorem chars_node (id : NodeId) (body : Markup) : (node id body).chars = body.chars := rfl

@[simp] theorem chars_append (first second : Markup) :
    (first ++ second).chars = first.chars ++ second.chars := rfl

@[simp] theorem chars_concat (ms : List Markup) : (concat ms).chars = ms.flatMap chars := by
  induction ms with
  | nil => rfl
  | cons m rest ih => rw [concat, chars_append, ih, List.flatMap_cons]

theorem toList_toText (m : Markup) : m.toText.toList = m.chars := by
  induction m with
  | text s => rfl
  | node id body ih => exact ih
  | append first second ihFirst ihSecond =>
    rw [toText, String.toList_append, ihFirst, ihSecond, chars]

end Markup

/-! ### Numerals -/

/-- A hexadecimal numeral has hexadecimal digits. -/
theorem exists_digitChar_of_mem_toDigits {n : Nat} {c : Char} (h : c ∈ Nat.toDigits 16 n) :
    ∃ d < 16, c = Nat.digitChar d := by
  induction n using Nat.strong_induction_on with
  | _ n ih =>
  rw [Nat.toDigits_eq_if (by omega)] at h
  split_ifs at h with hn
  · exact ⟨n, hn, List.mem_singleton.mp h⟩
  · rcases List.mem_append.mp h with h | h
    · exact ih (n / 16) (by omega) h
    · exact ⟨n % 16, Nat.mod_lt _ (by omega), List.mem_singleton.mp h⟩

/-- A decimal numeral has digits, and perhaps a sign. -/
theorem isDigit_or_eq_of_mem_toString {i : Int} {c : Char} (h : c ∈ (toString i).toList) :
    c.isDigit ∨ c = '-' := by
  have hdigits : ∀ n : Nat, c ∈ n.repr.toList → c.isDigit := by
    intro n hc
    rw [Nat.repr_eq_ofList_toDigits, String.toList_ofList] at hc
    exact Nat.isDigit_of_mem_toDigits (by omega) (by omega) hc
  rw [Int.toString_eq_repr, Int.repr_eq_if] at h
  split_ifs at h
  · exact Or.inl (hdigits _ h)
  · rw [String.toList_append] at h
    rcases List.mem_append.mp h with h | h
    · exact Or.inr (List.mem_singleton.mp h)
    · exact Or.inl (hdigits _ h)

/-- A quoted text is what its characters are written as, between quotes. -/
theorem toList_quote (text : String) :
    (quote text).toList = '"' :: (text.toList.flatMap escape ++ ['"']) := by
  have hbody : (String.ofList (text.toList.flatMap escape)).toList = text.toList.flatMap escape :=
    String.toList_ofList
  rw [quote, String.toList_append, String.toList_append, hbody]
  rfl

end NameResolution.Surface
