import ShellChain.State.LastWriter

/-!
# What the order checks report

Accesses and witnesses are checked by loops of their own over neighbouring
keys. Both establish the order of all pairs and both report the first key that
is not above the one before it, so that a refused list is refused at the same
place whether it comes as keys or as witnesses. The three operations that begin
with one of these checks pass the report on unchanged.
-/

namespace ShellState

open ByteCodec ShellPrimitives AdjacentPairs

def accessOrderError (index : Nat) : StateError :=
  .nonCanonicalWitnessOrdering
    ⟨index, "access keys must be strictly increasing in canonical StateKey order"⟩

def witnessOrderError (index : Nat) : StateError :=
  .nonCanonicalWitnessOrdering
    ⟨index, "witness keys must be strictly increasing in canonical StateKey order"⟩

/-! ## The two loops -/

theorem ne_of_before {a b : StateKey} (h : a.Before b) : a ≠ b := by
  rintro rfl
  exact List.lt_irrefl (encodeStateKey a) h

/-- Both loops start at the second item, so the index they report is the place in the list. -/
theorem ensureIncreasing_one_cases {α : Type} (key : α → StateKey) (context : String)
    (items : List α) :
    ((items.map key).Pairwise StateKey.Before ∧ ensureIncreasing key context 1 items = .ok ()) ∨
      ∃ i, FirstViolation StateKey.Before (items.map key) i ∧
        ensureIncreasing key context 1 items =
          .error (.nonCanonicalWitnessOrdering ⟨i, context⟩) := by
  rcases ensureIncreasing_cases key context 1 items with ⟨hincreasing, hok⟩ | ⟨i, hfirst, herror⟩
  · exact Or.inl ⟨hincreasing, hok⟩
  · rw [Nat.add_comm 1 i] at herror
    exact Or.inr ⟨i + 1, hfirst, herror⟩

theorem ensureIncreasing_one_of_violation {α : Type} {key : α → StateKey} (context : String)
    {items : List α} {i : Nat} (hfirst : FirstViolation StateKey.Before (items.map key) i) :
    ensureIncreasing key context 1 items = .error (.nonCanonicalWitnessOrdering ⟨i, context⟩) := by
  rcases ensureIncreasing_one_cases key context items with ⟨hincreasing, -⟩ | ⟨j, hj, herror⟩
  · exact absurd ((isChain_before_iff _).mpr hincreasing) hfirst.not_isChain
  · rw [herror, hj.unique hfirst]

theorem ensureCanonicalAccessOrder_of_violation {accesses : List StateKey} {i : Nat}
    (hfirst : FirstViolation StateKey.Before accesses i) :
    ensureCanonicalAccessOrder accesses = .error (accessOrderError i) := by
  rw [← List.map_id accesses] at hfirst
  exact ensureIncreasing_one_of_violation _ hfirst

theorem ensureCanonicalWitnessOrder_of_violation {witnesses : List StateWitness} {i : Nat}
    (hfirst : FirstViolation StateKey.Before (witnesses.map StateWitness.key) i) :
    ensureCanonicalWitnessOrder witnesses = .error (witnessOrderError i) :=
  ensureIncreasing_one_of_violation _ hfirst

theorem firstViolation_of_refused {accesses : List StateKey}
    (refused : ensureCanonicalAccessOrder accesses ≠ .ok ()) :
    ∃ i, FirstViolation StateKey.Before accesses i := by
  rcases ensureIncreasing_one_cases id _ accesses with ⟨-, hok⟩ | ⟨i, hfirst, -⟩
  · exact absurd hok refused
  · rw [List.map_id] at hfirst
    exact ⟨i, hfirst⟩

/-- The two loops agree: they pass together, or stop at the same first violation. -/
theorem ensureCanonicalWitnessOrder_agrees (witnesses : List StateWitness) :
    (ensureCanonicalWitnessOrder witnesses = .ok () ∧
        ensureCanonicalAccessOrder (witnesses.map StateWitness.key) = .ok ()) ∨
      ∃ i, FirstViolation StateKey.Before (witnesses.map StateWitness.key) i ∧
        ensureCanonicalWitnessOrder witnesses = .error (witnessOrderError i) ∧
        ensureCanonicalAccessOrder (witnesses.map StateWitness.key) =
          .error (accessOrderError i) := by
  rcases ensureIncreasing_one_cases StateWitness.key _ witnesses with
    ⟨hincreasing, hok⟩ | ⟨i, hfirst, herror⟩
  · exact Or.inl ⟨hok, (ensureCanonicalAccessOrder_eq_ok_iff _).mpr hincreasing⟩
  · exact Or.inr ⟨i, hfirst, herror, ensureCanonicalAccessOrder_of_violation hfirst⟩

/-- Checks of neighbours order all pairs, so that no key occurs twice. A refused list is refused
at the smallest index whose key is not above the one before it, and witnesses are accepted and
refused as their keys are. -/
theorem order_checks_report_first_violation (ks : List StateKey) (ws : List StateWitness) :
    (ensureCanonicalAccessOrder ks = .ok () ↔
      ∀ (i j : Nat) (hi : i < ks.length) (hj : j < ks.length), i < j → ks[i].Before ks[j]) ∧
    (ensureCanonicalAccessOrder ks = .ok () → ks.Nodup) ∧
    (ensureCanonicalAccessOrder ks ≠ .ok () →
      ∃ i, FirstViolation StateKey.Before ks i ∧
        ensureCanonicalAccessOrder ks = .error (accessOrderError i)) ∧
    ((ensureCanonicalWitnessOrder ws = .ok () ∧
        ensureCanonicalAccessOrder (ws.map StateWitness.key) = .ok ()) ∨
      ∃ i, FirstViolation StateKey.Before (ws.map StateWitness.key) i ∧
        ensureCanonicalWitnessOrder ws = .error (witnessOrderError i) ∧
        ensureCanonicalAccessOrder (ws.map StateWitness.key) = .error (accessOrderError i)) := by
  refine ⟨?_, ?_, ?_, ensureCanonicalWitnessOrder_agrees ws⟩
  · rw [ensureCanonicalAccessOrder_eq_ok_iff]
    exact List.pairwise_iff_getElem
  · intro hok
    have hincreasing := (ensureCanonicalAccessOrder_eq_ok_iff ks).mp hok
    exact hincreasing.imp ne_of_before
  · intro hrefused
    obtain ⟨i, hfirst⟩ := firstViolation_of_refused hrefused
    exact ⟨i, hfirst, ensureCanonicalAccessOrder_of_violation hfirst⟩

/-- An account before a stem passes; with the stem twice the list is refused, at the repetition. -/
theorem order_checks_report_first_violation_sample :
    [sampleAccount, sampleStem].Nodup ∧
      ∃ i, FirstViolation StateKey.Before [sampleAccount, sampleStem, sampleStem] i ∧
        ensureCanonicalAccessOrder [sampleAccount, sampleStem, sampleStem] =
          .error (accessOrderError i) := by
  obtain ⟨-, hnodup, -⟩ := order_checks_report_first_violation [sampleAccount, sampleStem] []
  obtain ⟨-, -, hreports, -⟩ :=
    order_checks_report_first_violation [sampleAccount, sampleStem, sampleStem] []
  refine ⟨hnodup ?_, hreports ?_⟩
  · rw [ensureCanonicalAccessOrder_eq_ok_iff]
    decide
  · rw [Ne, ensureCanonicalAccessOrder_eq_ok_iff]
    decide

/-! ## The operations behind the checks -/

/-- A transition with as many values as accesses is refused at the first access out of order, and
nothing is written. -/
theorem applyTransition_of_violation (sha256 : List UInt8 → Root) (acc : InMemoryAccumulator)
    {patch : StatePatch} {i : Nat} (shape : patch.accesses.length = patch.newValues.length)
    (hfirst : FirstViolation StateKey.Before patch.accesses i) :
    acc.applyTransition sha256 patch = (.error (accessOrderError i), acc) := by
  have hshape := (validateShape_eq_ok_iff patch).mpr shape
  have horder := ensureCanonicalAccessOrder_of_violation hfirst
  simp only [InMemoryAccumulator.applyTransition, hshape, horder]

/-- No witness is looked up for accesses out of order. -/
theorem getWitnessForAccesses_of_violation (acc : InMemoryAccumulator) {accesses : List StateKey}
    {i : Nat} (hfirst : FirstViolation StateKey.Before accesses i) :
    acc.getWitnessForAccesses accesses = .error (accessOrderError i) := by
  rw [InMemoryAccumulator.getWitnessForAccesses, ensureCanonicalAccessOrder_of_violation hfirst]
  rfl

/-- No witness is verified in a batch out of order. -/
theorem verifyWitnesses_of_violation (acc : InMemoryAccumulator) (expectedStateRoot : Root)
    {witnesses : List StateWitness} {i : Nat}
    (hfirst : FirstViolation StateKey.Before (witnesses.map StateWitness.key) i) :
    acc.verifyWitnesses witnesses expectedStateRoot = .error (witnessOrderError i) := by
  rw [InMemoryAccumulator.verifyWitnesses, ensureCanonicalWitnessOrder_of_violation hfirst]
  rfl

end ShellState
