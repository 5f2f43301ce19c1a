import ShellChain.Execution.PlannedLineage

/-!
# What a failed block leaves behind

The block loop hands each accepted patch to the applier before it looks at the
next transaction, and nothing takes the patch back when a later transaction
fails. A block that fails has therefore applied exactly the steps of the plan
it took before the failure. `takenSteps` reads them off the inputs.
-/

namespace ShellExecution

open ByteCodec ShellPrimitives ShellState StatelessBlockExecutor SortedMap

variable (sha256 : List UInt8 → Root)

instance (transaction : TransactionEnvelope) (planned : PlannedTransaction) :
    Decidable (Follows sha256 transaction planned) :=
  inferInstanceAs (Decidable (transaction.canonicalRoot sha256 = .ok planned.transactionRoot ∧
    planned.plan.statePatch.Canonical))

/-- The steps a block takes before its first transaction that does not follow the plan. -/
def takenSteps : List TransactionEnvelope → List PlannedTransaction → List PlannedTransaction
  | transaction :: transactions, planned :: rest =>
    if Follows sha256 transaction planned then planned :: takenSteps transactions rest else []
  | _, _ => []

/-- The steps the planner has not given out yet. -/
def PlannedTransactionExecutor.remaining (planner : PlannedTransactionExecutor) :
    List PlannedTransaction :=
  planner.plannedTransactions.drop planner.nextIndex

/-- The loop over the planned executor and the reference applier. -/
abbrev plannedLoop := executeTransactions sha256 (plannedExecutor sha256) (referenceApplier sha256)

/-! ## Runs of the loop -/

/-- From a root the applier agrees with, a block either goes through or stops
with the taken steps applied. -/
theorem plannedLoop_takes (transactions : List TransactionEnvelope)
    (receipts : List ExecutionReceipt) (outcomes : List TransactionExecutionOutcome)
    (done remaining : List PlannedTransaction) (acc : InMemoryAccumulator) :
    (∃ more, remaining = takenSteps sha256 transactions remaining ++ more ∧
        List.Forall₂ (Follows sha256) transactions (takenSteps sha256 transactions remaining)) ∨
      (takenSteps sha256 transactions remaining).length < transactions.length ∧
        ∃ e s, plannedLoop sha256 transactions acc.root receipts outcomes
          ⟨done ++ remaining, done.length⟩ ⟨acc⟩ =
            (.error e, s,
              ⟨finalAccumulator sha256 acc (takenSteps sha256 transactions remaining)⟩) := by
  induction transactions generalizing receipts outcomes done remaining acc with
  | nil => exact Or.inl ⟨remaining, rfl, .nil⟩
  | cons transaction transactions ih =>
    by_cases hfollows : ∃ planned rest, remaining = planned :: rest ∧
        Follows sha256 transaction planned
    · obtain ⟨planned, rest, rfl, hfollows⟩ := hfollows
      have htaken : takenSteps sha256 (transaction :: transactions) (planned :: rest) =
          planned :: takenSteps sha256 transactions rest := if_pos hfollows
      rw [htaken, plannedLoop, executeTransactions_follows sha256 hfollows]
      rcases ih (receipts ++ [planned.plan.receipt]) (outcomes ++ [stepOutcome sha256 acc planned])
        (done ++ [planned]) rest (stepAccumulator sha256 acc planned) with
        ⟨more, hrest, hsteps⟩ | ⟨hshort, e, s, herror⟩
      · exact Or.inl ⟨more, congrArg (planned :: ·) hrest, .cons hfollows hsteps⟩
      · exact Or.inr ⟨Nat.succ_lt_succ hshort, e, s, herror⟩
    · have htaken : takenSteps sha256 (transaction :: transactions) remaining = [] := by
        cases remaining with
        | nil => rfl
        | cons planned rest => exact if_neg fun h => hfollows ⟨planned, rest, rfl, h⟩
      obtain ⟨e, s, herror, _⟩ := executeTransactions_deviates sha256
        (fun planned rest heq h => hfollows ⟨planned, rest, heq, h⟩)
        transactions receipts outcomes done acc
      rw [htaken]
      exact Or.inr ⟨Nat.succ_pos _, e, s, herror⟩

/-- The same for a planner at any index, past the end included. -/
theorem plannedLoop_of_agreement (transactions : List TransactionEnvelope)
    (planner : PlannedTransactionExecutor) (acc : InMemoryAccumulator) :
    ((takenSteps sha256 transactions planner.remaining).length = transactions.length ∧
        ∃ outcome s t, plannedLoop sha256 transactions acc.root [] [] planner ⟨acc⟩ =
          (.ok outcome, s, t)) ∨
      (takenSteps sha256 transactions planner.remaining).length < transactions.length ∧
        ∃ e s, plannedLoop sha256 transactions acc.root [] [] planner ⟨acc⟩ =
          (.error e, s,
            ⟨finalAccumulator sha256 acc (takenSteps sha256 transactions planner.remaining)⟩) := by
  obtain ⟨planned, index⟩ := planner
  by_cases hindex : index ≤ planned.length
  · have hplanner : (⟨planned, index⟩ : PlannedTransactionExecutor) =
        ⟨planned.take index ++ planned.drop index, (planned.take index).length⟩ := by
      rw [List.take_append_drop, List.length_take, Nat.min_eq_left hindex]
    rw [PlannedTransactionExecutor.remaining]
    rcases plannedLoop_takes sha256 transactions [] [] (planned.take index) (planned.drop index)
      acc with ⟨more, hmore, hsteps⟩ | ⟨hshort, herror⟩
    · refine Or.inl ⟨hsteps.length_eq.symm, ?_⟩
      have hok := executeTransactions_ok sha256 hsteps [] [] (planned.take index) more acc
      rw [← hmore, ← hplanner] at hok
      exact ⟨_, _, _, hok⟩
    · rw [← hplanner] at herror
      exact Or.inr ⟨hshort, herror⟩
  · have hremaining : (⟨planned, index⟩ : PlannedTransactionExecutor).remaining = [] :=
      List.drop_eq_nil_of_le (Nat.le_of_not_le hindex)
    rw [hremaining]
    cases transactions with
    | nil => exact Or.inl ⟨rfl, _, _, _, rfl⟩
    | cons transaction transactions =>
      refine Or.inr ⟨Nat.succ_pos _, .executor "missing planned transaction step",
        ⟨planned, index⟩, ?_⟩
      have hmissing : planned[index]? = none := List.getElem?_eq_none (by omega)
      have hexecutor : plannedExecutor sha256 ⟨planned, index⟩ acc.root transaction =
          (.error (.executor "missing planned transaction step"), ⟨planned, index⟩) := by
        simp only [PlannedTransactionExecutor.executeTransaction, hmissing]
      rw [plannedLoop, executeTransactions, hexecutor]
      rfl

/-- From any other root the first patch already fails its continuity check. -/
theorem plannedLoop_of_disagreement {current : Root} {acc : InMemoryAccumulator}
    (disagrees : current ≠ acc.root) (transactions : List TransactionEnvelope)
    (receipts : List ExecutionReceipt) (outcomes : List TransactionExecutionOutcome)
    (planner : PlannedTransactionExecutor) :
    (plannedLoop sha256 transactions current receipts outcomes planner ⟨acc⟩).2.2 = ⟨acc⟩ := by
  cases transactions with
  | nil => rfl
  | cons transaction transactions =>
    have hok : transaction.canonicalRoot sha256 =
        .ok (Ssz.envelopeRootRun sha256 transaction).value := rfl
    rw [plannedLoop, executeTransactions, hok]
    cases hexecutor : plannedExecutor sha256 planner current transaction with
    | mk answer planner' =>
      cases answer with
      | error e => rfl
      | ok plan =>
        have happlier : referenceApplier sha256 ⟨acc⟩ current plan.statePatch =
            (.error (.rootContinuityMismatch ⟨current, acc.root⟩), ⟨acc⟩) :=
          if_pos (Ne.symm disagrees)
        simp only [happlier]

/-! ## When nothing shows -/

/-- The last write to each key stores the value that is there already, and the
cached root is the root of the leaves. -/
structure WritesBack (acc : InMemoryAccumulator) (steps : List PlannedTransaction) : Prop where
  values : ∀ key value,
    lastWritten (steps.flatMap fun p => p.plan.statePatch.writes) key = some value →
      acc.leaves.get? (encodeStateKey key) = some ⟨key, value⟩
  root : acc.root = computeReferenceRoot sha256 acc.leaves

theorem finalAccumulator_leaves (acc : InMemoryAccumulator) (steps : List PlannedTransaction) :
    (finalAccumulator sha256 acc steps).leaves = overridden acc.leaves steps := by
  induction steps generalizing acc with
  | nil => rfl
  | cons planned rest ih =>
    rw [overridden_cons]
    exact ih (stepAccumulator sha256 acc planned)

/-- After at least one step the cached root is the root of the leaves. -/
theorem finalAccumulator_cached {acc : InMemoryAccumulator} {steps : List PlannedTransaction}
    (nonempty : steps ≠ []) :
    (finalAccumulator sha256 acc steps).root =
      computeReferenceRoot sha256 (finalAccumulator sha256 acc steps).leaves := by
  obtain ⟨front, last, rfl⟩ := (List.eq_nil_or_concat' steps).resolve_left nonempty
  rw [finalAccumulator, List.foldl_append]
  rfl

theorem overridden_eq_self_iff (leaves : Leaves) (steps : List PlannedTransaction) :
    overridden leaves steps = leaves ↔
      ∀ key value, lastWritten (steps.flatMap fun p => p.plan.statePatch.writes) key = some value →
        leaves.get? (encodeStateKey key) = some ⟨key, value⟩ := by
  rw [overridden, insertAll_eq_self_iff]
  constructor
  · intro h key value hvalue
    apply h
    rw [lastWritten_filed, hvalue]
    rfl
  · intro h bytes leaf hleaf
    -- A written entry is filed under the encoding of its key.
    obtain ⟨write, _, hwrite⟩ := List.mem_map.mp (mem_of_lastWritten hleaf)
    obtain rfl : encodeStateKey write.1 = bytes := congrArg Prod.fst hwrite
    rw [lastWritten_filed] at hleaf
    obtain ⟨value, hvalue, rfl⟩ := Option.map_eq_some_iff.mp hleaf
    exact h write.1 value hvalue

/-- The taken steps leave no trace exactly when there are none or they write back. -/
theorem finalAccumulator_eq_self_iff (acc : InMemoryAccumulator)
    (steps : List PlannedTransaction) :
    (finalAccumulator sha256 acc steps).leaves = acc.leaves ∧
        (finalAccumulator sha256 acc steps).stateRoot = acc.stateRoot ↔
      steps = [] ∨ WritesBack sha256 acc steps := by
  by_cases hsteps : steps = []
  · subst hsteps
    exact ⟨fun _ => Or.inl rfl, fun _ => ⟨rfl, rfl⟩⟩
  · rw [finalAccumulator_leaves, InMemoryAccumulator.stateRoot, InMemoryAccumulator.stateRoot,
      finalAccumulator_cached sha256 hsteps, finalAccumulator_leaves]
    constructor
    · rintro ⟨hleaves, hroot⟩
      rw [hleaves] at hroot
      exact Or.inr ⟨(overridden_eq_self_iff _ _).mp hleaves, hroot.symm⟩
    · rintro (hnil | hback)
      · exact absurd hnil hsteps
      · have hleaves := (overridden_eq_self_iff acc.leaves steps).mpr hback.values
        rw [hleaves]
        exact ⟨rfl, hback.root.symm⟩

/-- A block that fails leaves the applier as it was if and only if it fails
before its first step, or the steps it took changed nothing. -/
theorem failed_block_keeps_state_iff (sha256 : List UInt8 → Root) (acc : InMemoryAccumulator)
    (preStateRoot : Root) (transactions : List TransactionEnvelope)
    (planner : PlannedTransactionExecutor) :
    (∀ e s t, executeBlock sha256 (plannedExecutor sha256) (referenceApplier sha256)
        preStateRoot transactions planner ⟨acc⟩ = (.error e, s, t) →
          t.accumulator.leaves = acc.leaves ∧ t.accumulator.stateRoot = acc.stateRoot) ↔
      (preStateRoot = acc.stateRoot →
        (takenSteps sha256 transactions planner.remaining).length < transactions.length →
          takenSteps sha256 transactions planner.remaining = [] ∨
            WritesBack sha256 acc (takenSteps sha256 transactions planner.remaining)) := by
  rw [executeBlock]
  by_cases hroot : preStateRoot = acc.root
  · subst hroot
    rcases plannedLoop_of_agreement sha256 transactions planner acc with
      ⟨hall, outcome, s, t, hok⟩ | ⟨hshort, e, s, herror⟩
    · constructor
      · intro _ _ hshort
        omega
      · intro _ e s t herror
        rw [plannedLoop, herror] at hok
        cases hok
    · rw [← finalAccumulator_eq_self_iff]
      constructor
      · intro h _ _
        exact h e s _ herror
      · intro h e' s' t' herror'
        rw [plannedLoop, herror'] at herror
        cases herror
        exact h rfl hshort
  · constructor
    · intro _ hagrees
      exact absurd hagrees hroot
    · intro _ e s t herror
      have hkept := plannedLoop_of_disagreement sha256 hroot transactions [] [] planner
      rw [plannedLoop, herror] at hkept
      rw [show t = ⟨acc⟩ from hkept]
      exact ⟨rfl, rfl⟩

/-! ## A block of two transactions with one planned -/

/-- A plan for one transaction, which writes one account. -/
def onePlanned : PlannedTransaction :=
  ⟨(Ssz.envelopeRootRun Sha256.digest bareEnvelope).value,
    ⟨⟨[sampleAccount], [[1]]⟩, ⟨1, []⟩⟩⟩

theorem follows_onePlanned : Follows Sha256.digest bareEnvelope onePlanned := by
  refine ⟨rfl, ?_⟩
  rw [onePlanned]
  decide

/-- The first step's account is in the state after the block has failed. -/
theorem failed_block_changes_state :
    ∃ e s t, executeBlock Sha256.digest (plannedExecutor Sha256.digest)
        (referenceApplier Sha256.digest) InMemoryAccumulator.new.stateRoot
        [bareEnvelope, bareEnvelope] (.new [onePlanned]) ⟨.new⟩ = (.error e, s, t) ∧
      t.accumulator.leaves.get? (encodeStateKey sampleAccount) = some ⟨sampleAccount, [1]⟩ ∧
      InMemoryAccumulator.new.leaves.get? (encodeStateKey sampleAccount) = none := by
  have htaken : takenSteps Sha256.digest [bareEnvelope, bareEnvelope] [onePlanned] =
      [onePlanned] := if_pos follows_onePlanned
  rcases plannedLoop_of_agreement Sha256.digest [bareEnvelope, bareEnvelope] (.new [onePlanned])
    .new with ⟨hall, _⟩ | ⟨_, e, s, herror⟩
  · have hshort : (takenSteps Sha256.digest [bareEnvelope, bareEnvelope] [onePlanned]).length = 2 :=
      hall
    rw [htaken] at hshort
    cases hshort
  · refine ⟨e, s, _, herror, ?_, rfl⟩
    have hremaining : (PlannedTransactionExecutor.new [onePlanned]).remaining = [onePlanned] := rfl
    rw [hremaining, htaken, finalAccumulator_leaves]
    decide

end ShellExecution
