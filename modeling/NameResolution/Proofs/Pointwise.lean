import Mathlib.Data.List.Forall2

/-!
# Lists related item by item

Each item of one list has a counterpart in the other list, and if each item of a list is related to
something then so is the list.  `alongside f` changes each item of a list along with its counterpart
in another list.
-/

namespace NameResolution

variable {α β : Type} {R : α → β → Prop} {as : List α} {bs : List β}

theorem exists_right_of_forall₂ (h : List.Forall₂ R as bs) {a : α} (ha : a ∈ as) :
    ∃ b ∈ bs, R a b := by
  induction h with
  | nil => cases ha
  | cons hab _ ih =>
    rcases List.mem_cons.mp ha with rfl | ha
    · exact ⟨_, List.mem_cons_self, hab⟩
    · obtain ⟨b, hb, hrelated⟩ := ih ha
      exact ⟨b, List.mem_cons_of_mem _ hb, hrelated⟩

theorem exists_left_of_forall₂ (h : List.Forall₂ R as bs) {b : β} (hb : b ∈ bs) :
    ∃ a ∈ as, R a b :=
  exists_right_of_forall₂ h.flip hb

theorem exists_forall₂ (h : ∀ a ∈ as, ∃ b, R a b) : ∃ bs, List.Forall₂ R as bs := by
  induction as with
  | nil => exact ⟨[], .nil⟩
  | cons a rest ih =>
    obtain ⟨b, hab⟩ := h a List.mem_cons_self
    obtain ⟨bs, hrest⟩ := ih fun other hother => h other (List.mem_cons_of_mem _ hother)
    exact ⟨b :: bs, .cons hab hrest⟩

/-- What related items have in common, the lists have in common. -/
theorem map_eq_of_forall₂ {γ : Type} {f : α → γ} {g : β → γ} (h : List.Forall₂ R as bs)
    (hfg : ∀ {a b}, R a b → g b = f a) : bs.map g = as.map f := by
  induction h with
  | nil => rfl
  | cons hab _ ih => rw [List.map_cons, List.map_cons, hfg hab, ih]

/-- What is known of items that look the same is known of lists that look the same. -/
theorem map_eq_of_map_eq {γ : Type} {f : α → β} {g : α → γ} {as as' : List α}
    (h : ∀ a ∈ as, ∀ a' ∈ as', f a = f a' → g a = g a') (hsame : as.map f = as'.map f) :
    as.map g = as'.map g := by
  induction as generalizing as' with
  | nil => rw [List.map_eq_nil_iff.mp hsame.symm]
  | cons a rest ih =>
    cases as' with
    | nil => cases hsame
    | cons a' rest' =>
      obtain ⟨ha, hrest⟩ := List.cons.inj hsame
      rw [List.map_cons, List.map_cons, h a List.mem_cons_self a' List.mem_cons_self ha,
        ih (fun b hb b' hb' => h b (List.mem_cons_of_mem _ hb) b' (List.mem_cons_of_mem _ hb'))
          hrest]

/-! ### Changing items along with their counterparts -/

/-- The items of the first list, each changed along with its counterpart in the second one. -/
def alongside (f : α → α → α) : List α → List α → List α
  | a :: as, b :: bs => f a b :: alongside f as bs
  | as, _ => as

section Alongside

variable {f : α → α → α}

theorem alongside_self (as : List α) : alongside f as as = as.map fun a => f a a := by
  induction as with
  | nil => rfl
  | cons a rest ih => rw [alongside, ih, List.map_cons]

/-- What each item keeps, the list keeps. -/
theorem map_alongside {g : α → β} (hg : ∀ a b, g (f a b) = g a) (as bs : List α) :
    (alongside f as bs).map g = as.map g := by
  induction as generalizing bs with
  | nil =>
    cases bs with
    | nil => rfl
    | cons b bs => rfl
  | cons a rest ih =>
    cases bs with
    | nil => rfl
    | cons b bs => rw [alongside, List.map_cons, List.map_cons, hg, ih]

/-- Related items that stay related when both are changed make up lists that stay related. -/
theorem forall₂_alongside {R S : α → α → Prop} {as bs : List α} (h : List.Forall₂ R as bs)
    (hS : ∀ {a b}, R a b → S (f a b) (f b b)) :
    List.Forall₂ S (alongside f as bs) (alongside f bs bs) := by
  induction h with
  | nil => exact .nil
  | cons hab _ ih => exact .cons (hS hab) ih

end Alongside

end NameResolution
