import Mathlib.Data.List.Forall2

/-!
# Relations, element by element

Options and lists whose elements are related one by one. A loop that can be
repeated on related elements can be repeated on related lists, and a search
that cannot tell related elements apart stops at related ones.
-/

universe u v w

namespace Pointwise
variable {α : Type u} {β : Type v} {γ : Type w}

theorem optionRel_symm {r : α → α → Prop} (symm : ∀ {a b}, r a b → r b a) {x y : Option α}
    (rel : Option.Rel r x y) : Option.Rel r y x := by
  cases rel with
  | some h => exact .some (symm h)
  | none => exact .none

/-- Answers to related questions, chosen along the two lists. -/
theorem forall₂_exists_lift {r : α → β → Prop} {r' : α → γ → Prop} {related : β → γ → Prop}
    (lift : ∀ a b, r a b → ∃ c, r' a c ∧ related b c) {as : List α} {bs : List β}
    (h : List.Forall₂ r as bs) : ∃ cs, List.Forall₂ r' as cs ∧ List.Forall₂ related bs cs := by
  induction h with
  | nil => exact ⟨[], .nil, .nil⟩
  | cons hab _ ih =>
    obtain ⟨c, hac, hbc⟩ := lift _ _ hab
    obtain ⟨cs, hacs, hbcs⟩ := ih
    exact ⟨c :: cs, .cons hac hacs, .cons hbc hbcs⟩

theorem find?_of_forall₂ {related : α → β → Prop} {p : α → Bool} {q : β → Bool}
    (respects : ∀ a b, related a b → p a = q b) {as : List α} {bs : List β}
    (h : List.Forall₂ related as bs) {a : α} (found : as.find? p = some a) :
    ∃ b, bs.find? q = some b ∧ related a b := by
  induction h with
  | nil => cases found
  | @cons x y xs ys hxy _ ih =>
    have hsame := respects x y hxy
    cases hx : p x with
    | true =>
      rw [List.find?_cons_of_pos hx] at found
      obtain rfl := Option.some.inj found
      exact ⟨y, List.find?_cons_of_pos (hsame ▸ hx), hxy⟩
    | false =>
      rw [List.find?_cons_of_neg (by simp [hx])] at found
      obtain ⟨b, hb, hab⟩ := ih found
      exact ⟨b, by rw [List.find?_cons_of_neg (by simp [← hsame, hx])]; exact hb, hab⟩

/-- What a list has over the other is not zipped. -/
theorem zip_take_length (as : List α) (bs : List β) : (as.take bs.length).zip bs = as.zip bs := by
  have hlength : (as.zip bs).length ≤ bs.length := by
    rw [List.length_zip]
    exact Nat.min_le_right _ _
  calc (as.take bs.length).zip bs
    _ = (as.take bs.length).zip (bs.take bs.length) := by rw [List.take_length]
    _ = (as.zip bs).take bs.length := List.take_zipWith.symm
    _ = as.zip bs := List.take_of_length_le hlength

end Pointwise
