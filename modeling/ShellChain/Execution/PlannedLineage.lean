import ShellChain.Execution.Engine

/-!
# Planned execution over the reference applier

The planner's index, the applier's accumulator and the loop's running root
advance in lock step. As long as they agree, a block goes through exactly when
its transactions follow the plan, its outcomes are the plan's lineage, and the
applier's comparison of roots does not fail.
-/

namespace ShellExecution

open ByteCodec ShellPrimitives ShellState StatelessBlockExecutor

variable (sha256 : List UInt8 → Root)

/-- The transaction is the planned one and its patch will be accepted. -/
def Follows (transaction : TransactionEnvelope) (planned : PlannedTransaction) : Prop :=
  transaction.canonicalRoot sha256 = .ok planned.transactionRoot ∧
    planned.plan.statePatch.Canonical

/-- The accumulator after an accepted step. -/
def stepAccumulator (acc : InMemoryAccumulator) (planned : PlannedTransaction) :
    InMemoryAccumulator :=
  let leaves := planned.plan.statePatch.writeTo acc.leaves
  ⟨leaves, computeReferenceRoot sha256 leaves⟩

def stepOutcome (acc : InMemoryAccumulator) (planned : PlannedTransaction) :
    TransactionExecutionOutcome :=
  ⟨planned.transactionRoot, (stepAccumulator sha256 acc planned).root, planned.plan.receipt⟩

/-- One outcome for each step, each over the state its predecessors leave. -/
def lineage (acc : InMemoryAccumulator) : List PlannedTransaction → List TransactionExecutionOutcome
  | [] => []
  | planned :: rest =>
    stepOutcome sha256 acc planned :: lineage (stepAccumulator sha256 acc planned) rest

def finalAccumulator (acc : InMemoryAccumulator) (steps : List PlannedTransaction) :
    InMemoryAccumulator :=
  steps.foldl (stepAccumulator sha256) acc

/-- The applier's continuity check failed. -/
def ContinuityFailure (e : ExecutionError) : Prop :=
  ∃ roots, e = .stateTransition (.rootContinuityMismatch roots)

abbrev referenceApplier : StateTransitionApplier ReferenceStateApplier :=
  ReferenceStateApplier.applyTransition sha256

abbrev plannedExecutor : TransactionExecutor PlannedTransactionExecutor :=
  PlannedTransactionExecutor.executeTransaction sha256

/-! ## One transaction -/

theorem plannedExecutor_follows (done : List PlannedTransaction) (planned : PlannedTransaction)
    (rest : List PlannedTransaction) (current : Root) {transaction : TransactionEnvelope}
    (hroot : transaction.canonicalRoot sha256 = .ok planned.transactionRoot) :
    plannedExecutor sha256 ⟨done ++ planned :: rest, done.length⟩ current transaction =
      (.ok planned.plan, ⟨done ++ planned :: rest, done.length + 1⟩) := by
  simp [PlannedTransactionExecutor.executeTransaction, hroot]

theorem plannedExecutor_deviates (done remaining : List PlannedTransaction) (current : Root)
    (transaction : TransactionEnvelope)
    (deviates : ∀ planned rest, remaining = planned :: rest →
      transaction.canonicalRoot sha256 ≠ .ok planned.transactionRoot) :
    ∃ context, plannedExecutor sha256 ⟨done ++ remaining, done.length⟩ current transaction =
      (.error (.executor context), ⟨done ++ remaining, done.length⟩) := by
  cases remaining with
  | nil =>
    refine ⟨"missing planned transaction step", ?_⟩
    simp [PlannedTransactionExecutor.executeTransaction]
  | cons planned rest =>
    have hroot : (Ssz.envelopeRootRun sha256 transaction).value ≠ planned.transactionRoot := by
      intro h
      exact deviates planned rest rfl (congrArg Except.ok h)
    refine ⟨"planned transaction root mismatch", ?_⟩
    simp [PlannedTransactionExecutor.executeTransaction, TransactionEnvelope.canonicalRoot, hroot]

theorem referenceApplier_canonical {acc : InMemoryAccumulator} {planned : PlannedTransaction}
    (canonical : planned.plan.statePatch.Canonical) :
    referenceApplier sha256 ⟨acc⟩ acc.root planned.plan.statePatch =
      (.ok ⟨(stepAccumulator sha256 acc planned).root⟩, ⟨stepAccumulator sha256 acc planned⟩) := by
  simp only [ReferenceStateApplier.applyTransition, InMemoryAccumulator.stateRoot, ne_eq,
    not_true_eq_false, if_false, applyTransition_of_canonical sha256 acc canonical]
  rfl

/-- A patch that is refused is refused for its shape or its order, never for its root. -/
theorem referenceApplier_rejects (acc : InMemoryAccumulator) {patch : StatePatch}
    (rejected : ¬ patch.Canonical) :
    ∃ e, referenceApplier sha256 ⟨acc⟩ acc.root patch = (.error e, ⟨acc⟩) ∧
      ¬ ContinuityFailure (.stateTransition e) := by
  obtain ⟨e, he, hkind⟩ := applyTransition_of_not_canonical sha256 acc rejected
  refine ⟨e, ?_, ?_⟩
  · simp only [ReferenceStateApplier.applyTransition, InMemoryAccumulator.stateRoot, ne_eq,
      not_true_eq_false, if_false, he]
    rfl
  · rintro ⟨roots, h⟩
    obtain rfl := ExecutionError.stateTransition.inj h
    rcases hkind with ⟨_, _, hkind⟩ | ⟨_, hkind⟩
    · cases hkind
    · cases hkind

/-- The loop takes a step that follows the plan. -/
theorem executeTransactions_follows {transaction : TransactionEnvelope}
    {planned : PlannedTransaction} (follows : Follows sha256 transaction planned)
    (transactions : List TransactionEnvelope) (receipts : List ExecutionReceipt)
    (outcomes : List TransactionExecutionOutcome) (done rest : List PlannedTransaction)
    (acc : InMemoryAccumulator) :
    executeTransactions sha256 (plannedExecutor sha256) (referenceApplier sha256)
        (transaction :: transactions) acc.root receipts outcomes
        ⟨done ++ planned :: rest, done.length⟩ ⟨acc⟩ =
      executeTransactions sha256 (plannedExecutor sha256) (referenceApplier sha256)
        transactions (stepAccumulator sha256 acc planned).root (receipts ++ [planned.plan.receipt])
        (outcomes ++ [stepOutcome sha256 acc planned])
        ⟨(done ++ [planned]) ++ rest, (done ++ [planned]).length⟩
        ⟨stepAccumulator sha256 acc planned⟩ := by
  obtain ⟨hroot, hcanonical⟩ := follows
  have hplanner : (⟨(done ++ [planned]) ++ rest, (done ++ [planned]).length⟩ :
      PlannedTransactionExecutor) = ⟨done ++ planned :: rest, done.length + 1⟩ := by simp
  rw [executeTransactions, hroot, hplanner]
  simp only [plannedExecutor_follows sha256 done planned rest acc.root hroot,
    referenceApplier_canonical sha256 hcanonical]
  rfl

/-- The loop stops at a step that does not, before it writes and not because of a root. -/
theorem executeTransactions_deviates {transaction : TransactionEnvelope}
    {remaining : List PlannedTransaction}
    (deviates : ∀ planned rest, remaining = planned :: rest → ¬ Follows sha256 transaction planned)
    (transactions : List TransactionEnvelope) (receipts : List ExecutionReceipt)
    (outcomes : List TransactionExecutionOutcome) (done : List PlannedTransaction)
    (acc : InMemoryAccumulator) :
    ∃ e s, executeTransactions sha256 (plannedExecutor sha256) (referenceApplier sha256)
        (transaction :: transactions) acc.root receipts outcomes
        ⟨done ++ remaining, done.length⟩ ⟨acc⟩ = (.error e, s, ⟨acc⟩) ∧
        ¬ ContinuityFailure e := by
  have hok : transaction.canonicalRoot sha256 =
      .ok (Ssz.envelopeRootRun sha256 transaction).value := rfl
  rw [executeTransactions, hok]
  by_cases hplanned : ∃ planned rest, remaining = planned :: rest ∧
      transaction.canonicalRoot sha256 = .ok planned.transactionRoot
  · obtain ⟨planned, rest, rfl, hroot⟩ := hplanned
    have hrejected : ¬ planned.plan.statePatch.Canonical :=
      fun h => deviates planned rest rfl ⟨hroot, h⟩
    obtain ⟨e, happlier, hkind⟩ := referenceApplier_rejects sha256 acc hrejected
    simp only [plannedExecutor_follows sha256 done planned rest acc.root hroot, happlier]
    exact ⟨_, _, rfl, hkind⟩
  · obtain ⟨context, hexecutor⟩ := plannedExecutor_deviates sha256 done remaining acc.root
      transaction fun planned rest heq hroot => hplanned ⟨planned, rest, heq, hroot⟩
    simp only [hexecutor]
    refine ⟨_, _, rfl, ?_⟩
    rintro ⟨roots, h⟩
    cases h

/-! ## Whole blocks -/

/-- A block that follows the next steps of the plan goes through with their lineage. -/
theorem executeTransactions_ok {transactions : List TransactionEnvelope}
    {steps : List PlannedTransaction}
    (follows : List.Forall₂ (Follows sha256) transactions steps)
    (receipts : List ExecutionReceipt) (outcomes : List TransactionExecutionOutcome)
    (done more : List PlannedTransaction) (acc : InMemoryAccumulator) :
    executeTransactions sha256 (plannedExecutor sha256) (referenceApplier sha256)
        transactions acc.root receipts outcomes
        ⟨done ++ (steps ++ more), done.length⟩ ⟨acc⟩ =
      (.ok ⟨(finalAccumulator sha256 acc steps).root,
          computeReceiptsRoot sha256 (receipts ++ steps.map fun p => p.plan.receipt),
          outcomes ++ lineage sha256 acc steps⟩,
        ⟨done ++ (steps ++ more), done.length + steps.length⟩,
        ⟨finalAccumulator sha256 acc steps⟩) := by
  induction follows generalizing receipts outcomes done acc with
  | nil => simp [executeTransactions, finalAccumulator, lineage]
  | @cons transaction planned transactions steps hhead _ ih =>
    rw [List.cons_append, executeTransactions_follows sha256 hhead,
      ih _ _ (done ++ [planned]) (stepAccumulator sha256 acc planned)]
    simp [finalAccumulator, lineage, Nat.add_assoc, Nat.add_comm 1]

/-- The other way round: a block that goes through has followed the plan, and one
that does not was not stopped by a root. -/
theorem executeTransactions_cases (transactions : List TransactionEnvelope)
    (receipts : List ExecutionReceipt) (outcomes : List TransactionExecutionOutcome)
    (done remaining : List PlannedTransaction) (acc : InMemoryAccumulator) :
    (∃ steps more, remaining = steps ++ more ∧
        List.Forall₂ (Follows sha256) transactions steps) ∨
      ∃ e s t, executeTransactions sha256 (plannedExecutor sha256) (referenceApplier sha256)
        transactions acc.root receipts outcomes ⟨done ++ remaining, done.length⟩ ⟨acc⟩ =
          (.error e, s, t) ∧ ¬ ContinuityFailure e := by
  induction transactions generalizing receipts outcomes done remaining acc with
  | nil => exact Or.inl ⟨[], remaining, rfl, .nil⟩
  | cons transaction transactions ih =>
    by_cases hfollows : ∃ planned rest, remaining = planned :: rest ∧
        Follows sha256 transaction planned
    · obtain ⟨planned, rest, rfl, hfollows⟩ := hfollows
      rw [executeTransactions_follows sha256 hfollows]
      rcases ih _ _ (done ++ [planned]) rest (stepAccumulator sha256 acc planned) with
        ⟨steps, more, rfl, hsteps⟩ | herror
      · exact Or.inl ⟨planned :: steps, more, rfl, .cons hfollows hsteps⟩
      · exact Or.inr herror
    · obtain ⟨e, s, herror, hkind⟩ := executeTransactions_deviates sha256
        (fun planned rest heq hplanned => hfollows ⟨planned, rest, heq, hplanned⟩)
        transactions receipts outcomes done acc
      exact Or.inr ⟨e, s, ⟨acc⟩, herror, hkind⟩

/-! ## Reading the lineage -/

/-- Leaves overridden by the patches of some steps, in order. -/
def overridden (leaves : Leaves) (steps : List PlannedTransaction) : Leaves :=
  leaves.insertAll ((steps.flatMap fun p => p.plan.statePatch.writes).map filedWrite)

theorem overridden_cons (leaves : Leaves) (planned : PlannedTransaction)
    (rest : List PlannedTransaction) :
    overridden leaves (planned :: rest) =
      overridden (planned.plan.statePatch.writeTo leaves) rest := by
  rw [overridden, List.flatMap_cons, List.map_append, SortedMap.insertAll_append]
  rfl

@[simp] theorem length_lineage (acc : InMemoryAccumulator) (steps : List PlannedTransaction) :
    (lineage sha256 acc steps).length = steps.length := by
  induction steps generalizing acc with
  | nil => rfl
  | cons planned rest ih => simp [lineage, ih]

theorem getElem?_lineage (acc : InMemoryAccumulator) (steps : List PlannedTransaction) (i : Nat) :
    (lineage sha256 acc steps)[i]? = steps[i]?.map fun p =>
      ⟨p.transactionRoot, computeReferenceRoot sha256 (overridden acc.leaves (steps.take (i + 1))),
        p.plan.receipt⟩ := by
  induction steps generalizing acc i with
  | nil => rfl
  | cons planned rest ih =>
    rw [List.take_succ_cons, overridden_cons]
    cases i with
    | zero => rfl
    | succ i => exact ih (stepAccumulator sha256 acc planned) i

theorem finalAccumulator_root (acc : InMemoryAccumulator) (steps : List PlannedTransaction) :
    (finalAccumulator sha256 acc steps).root =
      ((lineage sha256 acc steps).getLast?.map fun o => o.postStateRoot).getD acc.root := by
  induction steps generalizing acc with
  | nil => rfl
  | cons planned rest ih =>
    have hrest : (finalAccumulator sha256 acc (planned :: rest)).root =
        (finalAccumulator sha256 (stepAccumulator sha256 acc planned) rest).root := rfl
    rw [hrest, ih, lineage, List.getLast?_cons]
    cases (lineage sha256 (stepAccumulator sha256 acc planned) rest).getLast? with
    | none => rfl
    | some o => rfl

end ShellExecution
