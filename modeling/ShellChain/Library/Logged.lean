import Mathlib.Data.List.Forall2

/-!
# Computations that keep a log

A logged computation pairs its value with the events it emitted, in the order
it emitted them. Fallible computations are `ExceptT` over it: a failure keeps
the events that came before it and emits nothing after.
-/

universe u v

structure Logged (ε : Type u) (α : Type v) where
  value : α
  log : List ε

namespace Logged
variable {ε : Type u} {α β : Type v}

def emit (event : ε) (value : α) : Logged ε α := ⟨value, [event]⟩

instance : Monad (Logged ε) where
  pure value := ⟨value, []⟩
  bind x f := ⟨(f x.value).value, x.log ++ (f x.value).log⟩

@[simp] theorem value_pure (a : α) : (pure a : Logged ε α).value = a := rfl

@[simp] theorem log_pure (a : α) : (pure a : Logged ε α).log = [] := rfl

@[simp] theorem value_bind (x : Logged ε α) (f : α → Logged ε β) :
    (x >>= f).value = (f x.value).value := rfl

@[simp] theorem log_bind (x : Logged ε α) (f : α → Logged ε β) :
    (x >>= f).log = x.log ++ (f x.value).log := rfl

@[simp] theorem value_emit (event : ε) (a : α) : (emit event a).value = a := rfl

@[simp] theorem log_emit (event : ε) (a : α) : (emit event a).log = [event] := rfl

theorem ext {x y : Logged ε α} (hv : x.value = y.value) (hl : x.log = y.log) : x = y := by
  cases x
  cases y
  simp_all

instance : LawfulMonad (Logged ε) := LawfulMonad.mk' (Logged ε)
  (by intro α x; exact ext rfl (List.append_nil _))
  (by intro α β x f; exact ext rfl rfl)
  (by intro α β γ x f g; exact ext rfl (List.append_assoc _ _ _))

@[simp] theorem value_map (g : α → β) (x : Logged ε α) : (g <$> x).value = g x.value := by
  rw [map_eq_pure_bind]
  rfl

@[simp] theorem log_map (g : α → β) (x : Logged ε α) : (g <$> x).log = x.log := by
  rw [map_eq_pure_bind]
  exact List.append_nil _

/-- Visit a list in order, collecting what each element produced. -/
def traverse (f : α → Logged ε β) : List α → Logged ε (List β)
  | [] => pure []
  | a :: rest => do
    let b ← f a
    let bs ← traverse f rest
    pure (b :: bs)

@[simp] theorem value_traverse (f : α → Logged ε β) (as : List α) :
    (traverse f as).value = as.map fun a => (f a).value := by
  induction as with
  | nil => rfl
  | cons a rest ih => simp [traverse, ih]

@[simp] theorem mem_log_traverse (f : α → Logged ε β) (as : List α) (event : ε) :
    event ∈ (traverse f as).log ↔ ∃ a ∈ as, event ∈ (f a).log := by
  induction as with
  | nil => simp [traverse]
  | cons a rest ih => simp [traverse, ih]

end Logged

/-! ## Fallible computations with a log -/

namespace Logged
section Fallible
variable {ε : Type u} {err err' : Type v} {α β : Type v}

/-- What the computation returned. -/
def outcome (x : ExceptT err (Logged ε) α) : Except err α := x.run.value

/-- What it did on the way. -/
def calls (x : ExceptT err (Logged ε) α) : List ε := x.run.log

/-- A check that emits nothing. -/
def silent (r : Except err α) : ExceptT err (Logged ε) α := ExceptT.mk (pure r)

/-- Call a service: the call is logged whatever the service answers. -/
def invoke (event : ε) (answer : Except err α) : ExceptT err (Logged ε) α :=
  ExceptT.mk (emit event answer)

@[simp] theorem outcome_pure (a : α) : outcome (pure a : ExceptT err (Logged ε) α) = .ok a := rfl

@[simp] theorem calls_pure (a : α) : calls (pure a : ExceptT err (Logged ε) α) = [] := rfl

@[simp] theorem outcome_silent (r : Except err α) :
    outcome (silent r : ExceptT err (Logged ε) α) = r := rfl

@[simp] theorem calls_silent (r : Except err α) :
    calls (silent r : ExceptT err (Logged ε) α) = [] := rfl

@[simp] theorem outcome_invoke (event : ε) (r : Except err α) :
    outcome (invoke event r) = r := rfl

@[simp] theorem calls_invoke (event : ε) (r : Except err α) :
    calls (invoke event r) = [event] := rfl

theorem outcome_bind (x : ExceptT err (Logged ε) α) (f : α → ExceptT err (Logged ε) β) :
    outcome (x >>= f) = outcome x >>= fun a => outcome (f a) := by
  simp only [outcome, ExceptT.run_bind, value_bind]
  cases x.run.value <;> rfl

theorem outcome_bind_eq_ok_iff (x : ExceptT err (Logged ε) α)
    (f : α → ExceptT err (Logged ε) β) (b : β) :
    outcome (x >>= f) = .ok b ↔ ∃ a, outcome x = .ok a ∧ outcome (f a) = .ok b := by
  rw [outcome_bind]
  cases outcome x <;> simp [bind, Except.bind]

theorem calls_bind_of_ok {x : ExceptT err (Logged ε) α} {f : α → ExceptT err (Logged ε) β}
    {a : α} (h : outcome x = .ok a) : calls (x >>= f) = calls x ++ calls (f a) := by
  have hx : x.run.value = .ok a := h
  simp [calls, ExceptT.run_bind, hx]

/-- A failed step is the last thing a computation does. -/
theorem calls_bind_of_error {x : ExceptT err (Logged ε) α} {f : α → ExceptT err (Logged ε) β}
    {e : err} (h : outcome x = .error e) : calls (x >>= f) = calls x := by
  have hx : x.run.value = .error e := h
  simp [calls, ExceptT.run_bind, hx]

theorem calls_bind_pure (x : ExceptT err (Logged ε) α) (g : α → β) :
    calls (x >>= fun a => pure (g a)) = calls x := by
  cases hx : outcome x with
  | error e => exact calls_bind_of_error hx
  | ok a =>
    rw [calls_bind_of_ok hx, calls_pure]
    exact List.append_nil _

theorem silent_ok_bind (a : α) (f : α → ExceptT err (Logged ε) β) :
    silent (.ok a) >>= f = f a := by
  apply ExceptT.ext
  exact Logged.ext rfl (List.nil_append _)

theorem silent_error_bind (e : err) (f : α → ExceptT err (Logged ε) β) :
    silent (.error e) >>= f = silent (.error e) := by
  apply ExceptT.ext
  exact Logged.ext rfl rfl

/-- What a loop returns is what the loop over the outcomes returns. -/
theorem outcome_forM (f : α → ExceptT err (Logged ε) PUnit) (as : List α) :
    outcome (forM as f) = forM as fun a => outcome (f a) := by
  induction as with
  | nil => rfl
  | cons a rest ih =>
    rw [List.forM_cons, List.forM_cons, outcome_bind]
    simp only [ih]

/-- The computation ends with `result` after exactly the events `log`. -/
structure Runs (x : ExceptT err (Logged ε) α) (result : Except err α) (log : List ε) : Prop where
  outcome_eq : outcome x = result
  calls_eq : calls x = log

namespace Runs

theorem silent (r : Except err α) : Runs (Logged.silent r : ExceptT err (Logged ε) α) r [] :=
  ⟨rfl, rfl⟩

theorem invoke (event : ε) (r : Except err α) : Runs (Logged.invoke event r) r [event] :=
  ⟨rfl, rfl⟩

variable {x : ExceptT err (Logged ε) α} {f : α → ExceptT err (Logged ε) β} {log rest : List ε}

theorem ok_bind {a : α} {result : Except err β} (first : Runs x (.ok a) log)
    (second : Runs (f a) result rest) : Runs (x >>= f) result (log ++ rest) := by
  constructor
  · rw [outcome_bind, first.outcome_eq]
    exact second.outcome_eq
  · rw [calls_bind_of_ok first.outcome_eq, first.calls_eq, second.calls_eq]

theorem error_bind {e : err} (first : Runs x (.error e) log) :
    Runs (x >>= f) (.error e) log := by
  constructor
  · rw [outcome_bind, first.outcome_eq]
    rfl
  · rw [calls_bind_of_error first.outcome_eq, first.calls_eq]

theorem forM_ok {f : α → ExceptT err (Logged ε) PUnit} {event : α → ε} {as : List α}
    (h : ∀ a ∈ as, Runs (f a) (.ok ⟨⟩) [event a]) :
    Runs (forM as f) (.ok ⟨⟩) (as.map event) := by
  induction as with
  | nil => exact ⟨rfl, rfl⟩
  | cons a as ih =>
    rw [List.forM_cons, List.map_cons]
    exact ok_bind (h a List.mem_cons_self) (ih fun b hb => h b (List.mem_cons_of_mem a hb))

/-- The iterations after the first failing one are never started. -/
theorem forM_error {f : α → ExceptT err (Logged ε) PUnit} {event : α → ε} {done rest : List α}
    {a : α} {e : err} (before : ∀ b ∈ done, Runs (f b) (.ok ⟨⟩) [event b])
    (failing : Runs (f a) (.error e) [event a]) :
    Runs (forM (done ++ a :: rest) f) (.error e) ((done ++ [a]).map event) := by
  induction done with
  | nil => exact error_bind failing
  | cons b done ih =>
    rw [List.cons_append, List.forM_cons, List.cons_append, List.map_cons]
    exact ok_bind (before b List.mem_cons_self)
      (ih fun c hc => before c (List.mem_cons_of_mem b hc))

end Runs

/-- The elements up to the first one that is refused, that one included. -/
def throughFirst (accepts : ε → Bool) : List ε → List ε
  | [] => []
  | a :: rest => a :: if accepts a then throughFirst accepts rest else []

theorem mem_of_mem_throughFirst {accepts : ε → Bool} {events : List ε} {event : ε}
    (h : event ∈ throughFirst accepts events) : event ∈ events := by
  induction events with
  | nil => cases h
  | cons a rest ih =>
    rw [throughFirst] at h
    rcases List.mem_cons.mp h with rfl | h
    · exact List.mem_cons_self
    · by_cases ha : accepts a
      · rw [if_pos ha] at h
        exact List.mem_cons_of_mem a (ih h)
      · rw [if_neg ha] at h
        cases h

theorem throughFirst_eq_self {accepts : ε → Bool} {events : List ε}
    (all : ∀ event ∈ events, accepts event = true) : throughFirst accepts events = events := by
  induction events with
  | nil => rfl
  | cons a rest ih =>
    rw [throughFirst, if_pos (all a List.mem_cons_self),
      ih fun b hb => all b (List.mem_cons_of_mem a hb)]

/-- A loop that makes one call an iteration stops with the first refused call. -/
theorem calls_forM_invoke (answer : ε → Except err PUnit) (events : List ε) :
    calls (forM events fun event => invoke event (answer event)) =
      throughFirst (fun event => (answer event).isOk) events := by
  induction events with
  | nil => rfl
  | cons event rest ih =>
    rw [List.forM_cons, throughFirst]
    cases hanswer : answer event with
    | error e => exact calls_bind_of_error rfl
    | ok u =>
      have hcalls := calls_bind_of_ok (x := invoke event (Except.ok (ε := err) u))
        (f := fun _ => forM rest fun event => invoke event (answer event)) rfl
      rw [hcalls, ih]
      rfl

end Fallible
end Logged

/-! ## Fallible computations without a log -/

namespace Except
variable {err : Type u} {α β : Type v}

theorem bind_eq_ok_iff (x : Except err α) (f : α → Except err β) (b : β) :
    x >>= f = .ok b ↔ ∃ a, x = .ok a ∧ f a = .ok b := by
  cases x <;> simp [bind, Except.bind]

theorem bind_eq_error_iff (x : Except err α) (f : α → Except err β) (e : err) :
    x >>= f = .error e ↔ x = .error e ∨ ∃ a, x = .ok a ∧ f a = .error e := by
  cases x <;> simp [bind, Except.bind]

theorem ok_bind (a : α) (f : α → Except err β) : (Except.ok a : Except err α) >>= f = f a := rfl

theorem error_bind (e : err) (f : α → Except err β) :
    (Except.error e : Except err α) >>= f = .error e := rfl

/-- What follows a computation matters only for the values it can return. -/
theorem bind_congr_of_ok {x : Except err α} {f g : α → Except err β}
    (h : ∀ a, x = .ok a → f a = g a) : x >>= f = x >>= g := by
  cases x with
  | error e => rfl
  | ok a => exact h a rfl

@[simp] theorem isOk_mapError {err' : Type u} (g : err → err') (x : Except err α) :
    (x.mapError g).isOk = x.isOk := by
  cases x <;> rfl

theorem mapError_eq_ok_iff {err' : Type u} (g : err → err') (x : Except err α) (a : α) :
    x.mapError g = .ok a ↔ x = .ok a := by
  cases x <;> simp [Except.mapError]

/-- A loop succeeds exactly when every iteration does. -/
theorem forM_eq_ok_iff (f : α → Except err PUnit) (as : List α) :
    forM as f = .ok ⟨⟩ ↔ ∀ a ∈ as, f a = .ok ⟨⟩ := by
  induction as with
  | nil => simp [pure, Except.pure]
  | cons a rest ih =>
    rw [List.forM_cons, bind_eq_ok_iff]
    constructor
    · rintro ⟨_, ha, hrest⟩ b hb
      rcases List.mem_cons.mp hb with rfl | hb
      · exact ha
      · exact ih.mp hrest b hb
    · intro h
      exact ⟨⟨⟩, h a List.mem_cons_self, ih.mpr fun b hb => h b (List.mem_cons_of_mem a hb)⟩

theorem forM_mapError {err' : Type u} (g : err → err') (f : α → Except err PUnit) (as : List α) :
    forM as (fun a => (f a).mapError g) = (forM as f).mapError g := by
  induction as with
  | nil => rfl
  | cons a rest ih =>
    rw [List.forM_cons, List.forM_cons, ih]
    cases f a <;> rfl

/-- A loop ends with its first error. -/
theorem forM_eq_error_of_first {f : α → Except err PUnit} {done rest : List α} {a : α} {e : err}
    (before : ∀ b ∈ done, f b = .ok ⟨⟩) (failing : f a = .error e) :
    forM (done ++ a :: rest) f = .error e := by
  induction done with
  | nil =>
    rw [List.nil_append, List.forM_cons, failing]
    rfl
  | cons b done ih =>
    rw [List.cons_append, List.forM_cons, before b List.mem_cons_self]
    exact ih fun c hc => before c (List.mem_cons_of_mem b hc)

/-- Either every answer is a success or there is a first error. -/
theorem forall_ok_or_first_error (f : α → Except err PUnit) (as : List α) :
    (∀ a ∈ as, f a = .ok ⟨⟩) ∨
      ∃ done a rest e, as = done ++ a :: rest ∧ (∀ b ∈ done, f b = .ok ⟨⟩) ∧ f a = .error e := by
  induction as with
  | nil => exact Or.inl (by simp)
  | cons a as ih =>
    cases ha : f a with
    | error e => exact Or.inr ⟨[], a, as, e, rfl, by simp, ha⟩
    | ok u =>
      rcases ih with hall | ⟨done, b, rest, e, rfl, hdone, hb⟩
      · exact Or.inl (List.forall_mem_cons.mpr ⟨ha, hall⟩)
      · exact Or.inr ⟨a :: done, b, rest, e, rfl, List.forall_mem_cons.mpr ⟨ha, hdone⟩, hb⟩

/-- A guard that rejects when its condition holds. -/
theorem ite_error_eq_ok_iff {c : Prop} [Decidable c] (e : err) (x : Except err α) (a : α) :
    (if c then .error e else x) = .ok a ↔ ¬ c ∧ x = .ok a := by
  by_cases hc : c
  · simp [hc]
  · simp [hc]

/-- A check in front of a computation. -/
theorem check_bind_eq_ok_iff (x : Except err PUnit) (y : Except err β) (b : β) :
    (x >>= fun _ => y) = .ok b ↔ x = .ok ⟨⟩ ∧ y = .ok b := by
  rw [bind_eq_ok_iff]
  exact ⟨fun ⟨_, hx, hy⟩ => ⟨hx, hy⟩, fun ⟨hx, hy⟩ => ⟨⟨⟩, hx, hy⟩⟩

theorem mapM_eq_ok_iff {err α β : Type u} (f : α → Except err β) (as : List α) (bs : List β) :
    as.mapM f = .ok bs ↔ List.Forall₂ (fun a b => f a = .ok b) as bs := by
  induction as generalizing bs with
  | nil => simp [pure, Except.pure, eq_comm]
  | cons a rest ih =>
    rw [List.mapM_cons, bind_eq_ok_iff, List.forall₂_cons_left_iff]
    constructor
    · rintro ⟨b, hb, h⟩
      obtain ⟨bs', hbs, h⟩ := (bind_eq_ok_iff _ _ _).mp h
      obtain rfl : b :: bs' = bs := by simpa [pure, Except.pure] using h
      exact ⟨b, bs', hb, (ih bs').mp hbs, rfl⟩
    · rintro ⟨b, bs', hb, hbs, rfl⟩
      exact ⟨b, hb, (bind_eq_ok_iff _ _ _).mpr ⟨bs', (ih bs').mpr hbs, rfl⟩⟩

/-- A failing loop stops at its first failing iteration. -/
theorem mapM_eq_error_iff {err α β : Type u} (f : α → Except err β) (as : List α) (e : err) :
    as.mapM f = .error e ↔ ∃ done a rest bs, as = done ++ a :: rest ∧
      List.Forall₂ (fun a b => f a = .ok b) done bs ∧ f a = .error e := by
  induction as with
  | nil => simp [pure, Except.pure]
  | cons a as ih =>
    rw [List.mapM_cons, bind_eq_error_iff]
    constructor
    · rintro (ha | ⟨b, hb, h⟩)
      · exact ⟨[], a, as, [], rfl, .nil, ha⟩
      · rcases (bind_eq_error_iff _ _ _).mp h with hrest | ⟨_, _, habsurd⟩
        · obtain ⟨done, a', rest, bs, rfl, hdone, ha'⟩ := ih.mp hrest
          exact ⟨a :: done, a', rest, b :: bs, rfl, .cons hb hdone, ha'⟩
        · cases habsurd
    · rintro ⟨done, a', rest, bs, hsplit, hdone, ha'⟩
      cases hdone with
      | nil =>
        obtain ⟨rfl, rfl⟩ := List.cons.inj hsplit
        exact Or.inl ha'
      | cons hb hdone =>
        obtain ⟨rfl, rfl⟩ := List.cons.inj hsplit
        have hrest := ih.mpr ⟨_, a', rest, _, rfl, hdone, ha'⟩
        exact Or.inr ⟨_, hb, (bind_eq_error_iff _ _ _).mpr (Or.inl hrest)⟩

theorem mapM_isOk_iff {err α β : Type u} (f : α → Except err β) (as : List α) :
    (∃ bs, as.mapM f = .ok bs) ↔ ∀ a ∈ as, ∃ b, f a = .ok b := by
  induction as with
  | nil => simp [pure, Except.pure]
  | cons a rest ih =>
    simp only [mapM_eq_ok_iff, List.forall₂_cons_left_iff] at ih ⊢
    rw [List.forall_mem_cons, ← ih]
    constructor
    · rintro ⟨_, b, bs, hb, hbs, rfl⟩
      exact ⟨⟨b, hb⟩, bs, hbs⟩
    · rintro ⟨⟨b, hb⟩, bs, hbs⟩
      exact ⟨b :: bs, b, bs, hb, hbs, rfl⟩

theorem mapM_range_eq_ok_iff {err β : Type} (f : Nat → Except err β) (n : Nat) (bs : List β) :
    (List.range n).mapM f = .ok bs ↔ bs.length = n ∧ ∀ i b, bs[i]? = some b → f i = .ok b := by
  rw [mapM_eq_ok_iff, List.forall₂_iff_get]
  constructor
  · rintro ⟨hlen, h⟩
    rw [List.length_range] at hlen
    refine ⟨hlen.symm, ?_⟩
    intro i b hb
    obtain ⟨hi, rfl⟩ := List.getElem?_eq_some_iff.mp hb
    simpa using h i (by simpa [hlen] using hi) hi
  · rintro ⟨hlen, h⟩
    refine ⟨by simp [hlen], ?_⟩
    intro i hi hb
    simpa using h i bs[i] (List.getElem?_eq_getElem hb)

/-! ## How a computation can fail -/

/-- Every error the computation can end with satisfies `Q`. -/
def FailsOnly (Q : err → Prop) (x : Except err α) : Prop := ∀ e, x = .error e → Q e

namespace FailsOnly
variable {Q : err → Prop}

theorem ok (a : α) : FailsOnly Q (.ok a : Except err α) := by
  intro e h
  cases h

theorem error {e : err} (h : Q e) : FailsOnly Q (.error e : Except err α) := by
  intro e' he
  cases he
  exact h

theorem of_eq_ok {x : Except err α} {a : α} (h : x = .ok a) : FailsOnly Q x := by
  rw [h]
  exact ok a

/-- What runs after a step may use that the step succeeded. -/
theorem bind {x : Except err α} {f : α → Except err β} (first : FailsOnly Q x)
    (second : ∀ a, x = .ok a → FailsOnly Q (f a)) : FailsOnly Q (x >>= f) := by
  intro e h
  rcases (bind_eq_error_iff x f e).mp h with hfirst | ⟨a, ha, hsecond⟩
  · exact first e hfirst
  · exact second a ha e hsecond

theorem mapError {err' : Type u} {g : err → err'} {P : err' → Prop} (h : ∀ e, P (g e))
    (x : Except err α) : FailsOnly P (x.mapError g) := by
  cases x with
  | error e => exact error (h e)
  | ok a => exact ok a

theorem ite {c : Prop} [Decidable c] {x y : Except err α} (pos : c → FailsOnly Q x)
    (neg : ¬ c → FailsOnly Q y) : FailsOnly Q (if c then x else y) := by
  by_cases hc : c
  · rw [if_pos hc]
    exact pos hc
  · rw [if_neg hc]
    exact neg hc

theorem mapM {err α β : Type u} {Q : err → Prop} {f : α → Except err β} {as : List α}
    (each : ∀ a ∈ as, FailsOnly Q (f a)) : FailsOnly Q (as.mapM f) := by
  induction as with
  | nil => exact ok []
  | cons a rest ih =>
    rw [List.mapM_cons]
    apply bind (each a List.mem_cons_self)
    intro b _
    apply bind (ih fun c hc => each c (List.mem_cons_of_mem a hc))
    intro bs _
    exact ok (b :: bs)

theorem forM {f : α → Except err PUnit} {as : List α}
    (each : ∀ a ∈ as, FailsOnly Q (f a)) : FailsOnly Q (as.forM f) := by
  induction as with
  | nil => exact ok PUnit.unit
  | cons a rest ih =>
    apply bind (each a List.mem_cons_self)
    intro _ _
    exact ih fun b hb => each b (List.mem_cons_of_mem a hb)

end FailsOnly

end Except

/-! ## Loops over equal bodies -/

section
universe w
variable {m : Type u → Type v} [Monad m]

theorem forM_congr_of_mem {α : Type w} {f g : α → m PUnit} {as : List α}
    (h : ∀ a ∈ as, f a = g a) : as.forM f = as.forM g := by
  induction as with
  | nil => rfl
  | cons a rest ih =>
    have hrest := ih fun b hb => h b (List.mem_cons_of_mem a hb)
    simp only [List.forM_eq_forM, List.forM_cons] at hrest ⊢
    rw [h a List.mem_cons_self, hrest]

theorem mapM_congr_of_mem [LawfulMonad m] {α : Type w} {β : Type u} {f g : α → m β} {as : List α}
    (h : ∀ a ∈ as, f a = g a) : as.mapM f = as.mapM g := by
  induction as with
  | nil => simp only [List.mapM_nil]
  | cons a rest ih =>
    rw [List.mapM_cons, List.mapM_cons, h a List.mem_cons_self,
      ih fun b hb => h b (List.mem_cons_of_mem a hb)]

end
