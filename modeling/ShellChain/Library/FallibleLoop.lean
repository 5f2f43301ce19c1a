import Mathlib.Data.List.Basic

/-!
# Loops that stop at the first failure

A loop over a list with a state of its own. Each round answers with a result
or an error and leaves a new state behind; an error ends the loop, and the
state is then what the failing round has left. `Rounds` is the relation of the
rounds that succeed: the loop succeeds when there is a round for every element
and fails at the first element without one.
-/

universe u v w x

namespace FallibleLoop
variable {σ : Type u} {α : Type v} {β : Type w} {ε : Type x}

def loop (step : σ → α → Except ε β × σ) : List α → σ → Except ε (List β) × σ
  | [], s => (.ok [], s)
  | a :: rest, s =>
    match step s a with
    | (.error e, s) => (.error e, s)
    | (.ok b, s) =>
      match loop step rest s with
      | (.error e, s) => (.error e, s)
      | (.ok bs, s) => (.ok (b :: bs), s)

/-- Successful rounds over some elements, from one state to another. -/
inductive Rounds (step : σ → α → Except ε β × σ) : σ → List α → List β → σ → Prop where
  | nil (s : σ) : Rounds step s [] [] s
  | cons {s mid final : σ} {a : α} {b : β} {as : List α} {bs : List β}
      (first : step s a = (.ok b, mid)) (rest : Rounds step mid as bs final) :
      Rounds step s (a :: as) (b :: bs) final

variable {step : σ → α → Except ε β × σ} {s mid final : σ} {as done : List α} {bs : List β}

theorem loop_of_rounds (rounds : Rounds step s as bs final) : loop step as s = (.ok bs, final) := by
  induction rounds with
  | nil s => rfl
  | cons first rest ih =>
    rw [loop, first]
    simp only [ih]

theorem Rounds.append {as' : List α} {bs' : List β} (first : Rounds step s as bs mid)
    (second : Rounds step mid as' bs' final) : Rounds step s (as ++ as') (bs ++ bs') final := by
  induction first with
  | nil s => exact second
  | cons first rest ih => exact .cons first (ih second)

/-- Every loop runs to its end or stops at one element. -/
theorem rounds_or_stops (step : σ → α → Except ε β × σ) (as : List α) (s : σ) :
    (∃ bs final, Rounds step s as bs final) ∨
      ∃ done a rest bs mid e final, as = done ++ a :: rest ∧ Rounds step s done bs mid ∧
        step mid a = (.error e, final) := by
  induction as generalizing s with
  | nil => exact Or.inl ⟨[], s, .nil s⟩
  | cons a rest ih =>
    rcases hstep : step s a with ⟨answer, next⟩
    cases answer with
    | error e => exact Or.inr ⟨[], a, rest, [], s, e, next, rfl, .nil s, hstep⟩
    | ok b =>
      rcases ih next with ⟨bs, final, hrounds⟩ | ⟨done, a', rest', bs, mid, e, final, rfl, hrounds,
        hstops⟩
      · exact Or.inl ⟨b :: bs, final, .cons hstep hrounds⟩
      · exact Or.inr ⟨a :: done, a', rest', b :: bs, mid, e, final, rfl, .cons hstep hrounds,
          hstops⟩

theorem loop_of_stops {a : α} {e : ε} (rounds : Rounds step s done bs mid)
    (stops : step mid a = (.error e, final)) (rest : List α) :
    loop step (done ++ a :: rest) s = (.error e, final) := by
  induction rounds with
  | nil s => rw [List.nil_append, loop, stops]
  | cons first later ih =>
    rw [List.cons_append, loop, first]
    simp only [ih stops]

theorem loop_eq_ok_iff : loop step as s = (.ok bs, final) ↔ Rounds step s as bs final := by
  refine ⟨fun h => ?_, loop_of_rounds⟩
  rcases rounds_or_stops step as s with
    ⟨bs', final', hrounds⟩ | ⟨done, a, rest, bs', mid, e, final', rfl, hrounds, hstops⟩
  · rw [loop_of_rounds hrounds] at h
    obtain ⟨hbs, rfl⟩ := Prod.mk.inj h
    obtain rfl := Except.ok.inj hbs
    exact hrounds
  · rw [loop_of_stops hrounds hstops] at h
    cases h

theorem loop_eq_error_iff {e : ε} :
    loop step as s = (.error e, final) ↔
      ∃ done a rest bs mid, as = done ++ a :: rest ∧ Rounds step s done bs mid ∧
        step mid a = (.error e, final) := by
  constructor
  · intro h
    rcases rounds_or_stops step as s with ⟨bs', final', hrounds⟩ | ⟨done, a, rest, bs', mid, e',
      final', rfl, hrounds, hstops⟩
    · rw [loop_of_rounds hrounds] at h
      cases h
    · rw [loop_of_stops hrounds hstops] at h
      obtain ⟨he, rfl⟩ := Prod.mk.inj h
      obtain rfl := Except.error.inj he
      exact ⟨done, a, rest, bs', mid, rfl, hrounds, hstops⟩
  · rintro ⟨done, a, rest, bs', mid, rfl, hrounds, hstops⟩
    exact loop_of_stops hrounds hstops rest

end FallibleLoop
