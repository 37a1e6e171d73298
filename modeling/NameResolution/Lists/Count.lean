/-!
# Counting the elements of a list

Searches that keep a list of what they have met end because the number of things not met yet gets
smaller; `countP_lt_countP` is the step of that argument.
-/

namespace NameResolution

/-- A weaker predicate counts no fewer elements. -/
theorem countP_le_countP {α : Type} {p q : α → Bool} (h : ∀ x, p x = true → q x = true)
    (xs : List α) : xs.countP p ≤ xs.countP q :=
  List.countP_mono_left fun x _ => h x

/-- A weaker predicate that holds of one more element counts more. -/
theorem countP_lt_countP {α : Type} {p q : α → Bool} (h : ∀ x, p x = true → q x = true)
    {xs : List α} {x : α} (hx : x ∈ xs) (hp : p x = false) (hq : q x = true) :
    xs.countP p < xs.countP q := by
  induction xs with
  | nil => simp at hx
  | cons y ys ih =>
    rcases List.mem_cons.mp hx with rfl | hmem
    · have := countP_le_countP h ys
      simp only [List.countP_cons, hp, hq]
      simp only [Bool.false_eq_true, ↓reduceIte]
      omega
    · have := ih hmem
      have : (if p y = true then 1 else 0) ≤ if q y = true then 1 else 0 := by
        by_cases hy : p y = true
        · simp [hy, h y hy]
        · simp [hy]
      simp only [List.countP_cons]
      omega

end NameResolution
