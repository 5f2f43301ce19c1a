import Mathlib.Data.List.Chain

/-!
# Checks of neighbouring pairs

A loop goes through the pairs of neighbours of a list and stops at the first
pair that is out of order. It passes exactly on chains, and otherwise it has
found the smallest index whose item is out of order with the one before it.
-/

universe u v

namespace AdjacentPairs
variable {α : Type u} {β : Type v} {r : α → α → Prop}

/-- The item at `i` is out of order with the one before it. -/
def OutOfOrderAt (r : α → α → Prop) (l : List α) (i : Nat) : Prop :=
  1 ≤ i ∧ ∃ a b, l[i - 1]? = some a ∧ l[i]? = some b ∧ ¬ r a b

/-- The smallest such index. -/
structure FirstViolation (r : α → α → Prop) (l : List α) (i : Nat) : Prop where
  violated : OutOfOrderAt r l i
  least : ∀ j, OutOfOrderAt r l j → i ≤ j

theorem outOfOrderAt_one_iff (a b : α) (rest : List α) :
    OutOfOrderAt r (a :: b :: rest) 1 ↔ ¬ r a b := by
  simp [OutOfOrderAt]

theorem outOfOrderAt_cons_iff (a : α) (l : List α) (i : Nat) :
    OutOfOrderAt r (a :: l) (i + 2) ↔ OutOfOrderAt r l (i + 1) := by
  simp [OutOfOrderAt]

theorem outOfOrderAt_map_iff (f : β → α) (l : List β) (i : Nat) :
    OutOfOrderAt r (l.map f) i ↔ OutOfOrderAt (fun a b => r (f a) (f b)) l i := by
  simp only [OutOfOrderAt, List.getElem?_map, Option.map_eq_some_iff]
  constructor
  · rintro ⟨hpositive, _, _, ⟨a, ha, rfl⟩, ⟨b, hb, rfl⟩, hviolated⟩
    exact ⟨hpositive, a, b, ha, hb, hviolated⟩
  · rintro ⟨hpositive, a, b, ha, hb, hviolated⟩
    exact ⟨hpositive, f a, f b, ⟨a, ha, rfl⟩, ⟨b, hb, rfl⟩, hviolated⟩

theorem FirstViolation.unique {l : List α} {i j : Nat} (hi : FirstViolation r l i)
    (hj : FirstViolation r l j) : i = j :=
  Nat.le_antisymm (hi.least j hj.violated) (hj.least i hi.violated)

theorem FirstViolation.map {f : β → α} {l : List β} {i : Nat}
    (h : FirstViolation (fun a b => r (f a) (f b)) l i) : FirstViolation r (l.map f) i where
  violated := (outOfOrderAt_map_iff f l i).mpr h.violated
  least j hj := h.least j ((outOfOrderAt_map_iff f l j).mp hj)

theorem firstViolation_one {a b : α} (rest : List α) (h : ¬ r a b) :
    FirstViolation r (a :: b :: rest) 1 where
  violated := (outOfOrderAt_one_iff a b rest).mpr h
  least _ hj := hj.1

/-- A pair in order in front moves the first violation by one. -/
theorem FirstViolation.cons {a b : α} {rest : List α} {i : Nat} (ordered : r a b)
    (h : FirstViolation r (b :: rest) (i + 1)) : FirstViolation r (a :: b :: rest) (i + 2) where
  violated := (outOfOrderAt_cons_iff a (b :: rest) i).mpr h.violated
  least j hj := by
    rcases j with _ | _ | j
    · exact absurd hj.1 (by omega)
    · exact absurd ordered ((outOfOrderAt_one_iff a b rest).mp hj)
    · have hle := h.least (j + 1) ((outOfOrderAt_cons_iff a (b :: rest) j).mp hj)
      omega

theorem FirstViolation.not_isChain {l : List α} {i : Nat} (h : FirstViolation r l i) :
    ¬ l.IsChain r := by
  intro hchain
  obtain ⟨hpositive, a, b, ha, hb, hviolated⟩ := h.violated
  obtain ⟨i, rfl⟩ := Nat.exists_eq_add_of_le' hpositive
  obtain ⟨hi, rfl⟩ := List.getElem?_eq_some_iff.mp hb
  obtain ⟨_, rfl⟩ := List.getElem?_eq_some_iff.mp ha
  exact hviolated (List.isChain_iff_getElem.mp hchain i hi)

/-- The rule for a loop over neighbours that counts from `index`: by induction on the list, it
passes on a chain and otherwise reports the first violation. -/
theorem loop_cases {ε : Type u} [DecidableRel r] {loop : Nat → List α → Except ε PUnit}
    {report : Nat → ε} (done : ∀ index l, l.length < 2 → loop index l = .ok ⟨⟩)
    (step : ∀ index a b rest, loop index (a :: b :: rest) =
      if r a b then loop (index + 1) (b :: rest) else .error (report index))
    (index : Nat) (l : List α) :
    (l.IsChain r ∧ loop index l = .ok ⟨⟩) ∨
      ∃ i, FirstViolation r l (i + 1) ∧ loop index l = .error (report (index + i)) := by
  induction l generalizing index with
  | nil => exact Or.inl ⟨.nil, done index [] (by simp)⟩
  | cons a rest ih =>
    cases rest with
    | nil => exact Or.inl ⟨.singleton a, done index [a] (by simp)⟩
    | cons b rest =>
      rw [step]
      by_cases hordered : r a b
      · rw [if_pos hordered]
        rcases ih (index + 1) with ⟨hchain, hok⟩ | ⟨i, hfirst, herror⟩
        · exact Or.inl ⟨.cons_cons hordered hchain, hok⟩
        · refine Or.inr ⟨i + 1, hfirst.cons hordered, ?_⟩
          rw [herror, Nat.add_assoc, Nat.add_comm 1 i]
      · rw [if_neg hordered]
        exact Or.inr ⟨0, firstViolation_one rest hordered, rfl⟩

end AdjacentPairs
