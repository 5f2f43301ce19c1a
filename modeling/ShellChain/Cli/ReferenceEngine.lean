import ShellChain.Execution.PlannedLineage

/-!
# The reference execution engine

The engine of the local runtime: materialise the scenario's state, compare its
root, replay the plan over the block's transactions, and insist that no planned
step is left over.
-/

namespace ShellCli

open ByteCodec ShellPrimitives ShellState ShellExecution

/-- The patch that writes a whole list of entries. -/
def entriesPatch (entries : List (StateKey × MockProgressiveByteList)) : StatePatch :=
  ⟨entries.map Prod.fst, entries.map Prod.snd⟩

def materializeAccumulator (sha256 : List UInt8 → Root)
    (materializedState : List (StateKey × MockProgressiveByteList)) :
    Except StateError InMemoryAccumulator :=
  if materializedState.isEmpty then .ok .new
  else
    let applied := InMemoryAccumulator.new.applyTransition sha256 (entriesPatch materializedState)
    match applied.1 with
    | .error e => .error e
    | .ok _ => .ok applied.2

structure ReferenceExecutionEngine where
  preStateRoot : Root
  materializedState : List (StateKey × MockProgressiveByteList)
  plannedTransactions : List PlannedTransaction

/-- Of the block the engine reads only the transactions of the body. -/
def ReferenceExecutionEngine.executeBlock (sha256 : List UInt8 → Root)
    (engine : ReferenceExecutionEngine) (transactions : List TransactionEnvelope) :
    Except ExecutionError BlockExecutionOutcome := do
  let accumulator ← (materializeAccumulator sha256 engine.materializedState).mapError
    .stateTransition
  if accumulator.stateRoot ≠ engine.preStateRoot then
    .error (.stateTransition (.rootContinuityMismatch
      ⟨engine.preStateRoot, accumulator.stateRoot⟩))
  else do
    let run := StatelessBlockExecutor.executeBlock sha256 (plannedExecutor sha256)
      (referenceApplier sha256) engine.preStateRoot transactions
      (.new engine.plannedTransactions) ⟨accumulator⟩
    let outcome ← run.1
    run.2.1.ensureExhausted
    .ok outcome

/-! ## Materialised state -/

/-- The map a list of entries stands for. -/
def materializedLeaves (entries : List (StateKey × MockProgressiveByteList)) : Leaves :=
  SortedMap.empty.insertAll (entries.map filedWrite)

def materialized (sha256 : List UInt8 → Root)
    (entries : List (StateKey × MockProgressiveByteList)) : InMemoryAccumulator :=
  if entries.isEmpty then .new
  else ⟨materializedLeaves entries, computeReferenceRoot sha256 (materializedLeaves entries)⟩

variable (sha256 : List UInt8 → Root)

theorem materialized_leaves (entries : List (StateKey × MockProgressiveByteList)) :
    (materialized sha256 entries).leaves = materializedLeaves entries := by
  cases entries with
  | nil => rfl
  | cons e rest => rfl

theorem materializeAccumulator_eq_ok_iff (entries : List (StateKey × MockProgressiveByteList))
    (acc : InMemoryAccumulator) :
    materializeAccumulator sha256 entries = .ok acc ↔
      (entries.map Prod.fst).Pairwise StateKey.Before ∧ acc = materialized sha256 entries := by
  cases entries with
  | nil => simp [materializeAccumulator, materialized, eq_comm]
  | cons e rest =>
    have hwrites : (entriesPatch (e :: rest)).writes = e :: rest := (List.zip_of_prod rfl rfl).symm
    rw [materializeAccumulator, if_neg (by simp)]
    by_cases hincreasing : ((e :: rest).map Prod.fst).Pairwise StateKey.Before
    · have hcanonical : (entriesPatch (e :: rest)).Canonical :=
        ⟨by simp [entriesPatch], hincreasing⟩
      have hleaves : (entriesPatch (e :: rest)).writeTo InMemoryAccumulator.new.leaves =
          materializedLeaves (e :: rest) := by
        rw [StatePatch.writeTo, hwrites]
        rfl
      rw [applyTransition_of_canonical sha256 .new hcanonical, hleaves]
      constructor
      · intro h
        exact ⟨hincreasing, (Except.ok.inj h).symm⟩
      · rintro ⟨_, rfl⟩
        rfl
    · have hrejected : ¬ (entriesPatch (e :: rest)).Canonical := fun h => hincreasing h.increasing
      obtain ⟨err, herr, _⟩ := applyTransition_of_not_canonical sha256 .new hrejected
      rw [herr]
      constructor
      · intro h
        cases h
      · intro h
        exact absurd h.1 hincreasing

theorem materializeAccumulator_error {entries : List (StateKey × MockProgressiveByteList)}
    {e : StateError} (h : materializeAccumulator sha256 entries = .error e) : PatchError e := by
  rw [materializeAccumulator] at h
  split at h
  · cases h
  · by_cases hcanonical : (entriesPatch entries).Canonical
    · rw [applyTransition_of_canonical sha256 .new hcanonical] at h
      cases h
    · obtain ⟨err, herr, hkind⟩ := applyTransition_of_not_canonical sha256 .new hcanonical
      rw [herr] at h
      rw [← Except.error.inj h]
      exact hkind

/-! ## The engine -/

namespace ReferenceExecutionEngine
variable (engine : ReferenceExecutionEngine) (transactions : List TransactionEnvelope)

/-- What the engine returns when its block follows the plan to the end. -/
def plannedOutcome : BlockExecutionOutcome :=
  let acc := materialized sha256 engine.materializedState
  ⟨(finalAccumulator sha256 acc engine.plannedTransactions).root,
    computeReceiptsRoot sha256 (engine.plannedTransactions.map fun p => p.plan.receipt),
    lineage sha256 acc engine.plannedTransactions⟩

variable {engine transactions}

/-- Past its own two checks the engine is the block loop and the check for leftovers. -/
theorem executeBlock_of_materialized
    (hmaterialized : materializeAccumulator sha256 engine.materializedState =
      .ok (materialized sha256 engine.materializedState))
    (hroot : (materialized sha256 engine.materializedState).root = engine.preStateRoot) :
    engine.executeBlock sha256 transactions =
      let run := StatelessBlockExecutor.executeTransactions sha256 (plannedExecutor sha256)
        (referenceApplier sha256) transactions (materialized sha256 engine.materializedState).root
        [] [] ⟨[] ++ engine.plannedTransactions, ([] : List PlannedTransaction).length⟩
        ⟨materialized sha256 engine.materializedState⟩
      run.1 >>= fun outcome => run.2.1.ensureExhausted >>= fun _ => .ok outcome := by
  simp only [executeBlock, hmaterialized, Except.mapError, bind, Except.bind,
    InMemoryAccumulator.stateRoot, hroot, ne_eq, not_true_eq_false, if_false]
  rfl

theorem executeBlock_follows
    (hincreasing : (engine.materializedState.map Prod.fst).Pairwise StateKey.Before)
    (hroot : (materialized sha256 engine.materializedState).root = engine.preStateRoot)
    (hfollows : List.Forall₂ (Follows sha256) transactions engine.plannedTransactions) :
    engine.executeBlock sha256 transactions = .ok (engine.plannedOutcome sha256) := by
  have hmaterialized := (materializeAccumulator_eq_ok_iff sha256 _ _).mpr ⟨hincreasing, rfl⟩
  have hrun := executeTransactions_ok sha256 hfollows [] [] [] []
    (materialized sha256 engine.materializedState)
  rw [List.append_nil] at hrun
  rw [executeBlock_of_materialized sha256 hmaterialized hroot]
  simp only [hrun]
  simp [PlannedTransactionExecutor.ensureExhausted, PlannedTransactionExecutor.isExhausted, bind,
    Except.bind, plannedOutcome]

/-- A state that cannot be materialised is refused as the accumulator refuses it. -/
theorem executeBlock_of_refused {e : StateError}
    (hrefused : materializeAccumulator sha256 engine.materializedState = .error e) :
    engine.executeBlock sha256 transactions = .error (.stateTransition e) := by
  rw [executeBlock, hrefused]
  rfl

theorem executeBlock_of_mismatch
    (hmaterialized : materializeAccumulator sha256 engine.materializedState =
      .ok (materialized sha256 engine.materializedState))
    (hroot : (materialized sha256 engine.materializedState).root ≠ engine.preStateRoot) :
    engine.executeBlock sha256 transactions = .error (.stateTransition (.rootContinuityMismatch
      ⟨engine.preStateRoot, (materialized sha256 engine.materializedState).root⟩)) := by
  simp only [executeBlock, hmaterialized, Except.mapError, bind, Except.bind,
    InMemoryAccumulator.stateRoot]
  exact if_pos hroot

theorem ensureExhausted_of_leftover (steps more : List PlannedTransaction)
    (p : PlannedTransaction) :
    PlannedTransactionExecutor.ensureExhausted ⟨steps ++ p :: more, steps.length⟩ =
      .error (.executor "unconsumed planned transaction steps") := by
  simp [PlannedTransactionExecutor.ensureExhausted, PlannedTransactionExecutor.isExhausted]

/-- Past its own checks the engine finds the whole plan followed, or it fails otherwise than in a
comparison of roots. -/
theorem executeBlock_past_checks
    (hmaterialized : materializeAccumulator sha256 engine.materializedState =
      .ok (materialized sha256 engine.materializedState))
    (hroot : (materialized sha256 engine.materializedState).root = engine.preStateRoot) :
    (List.Forall₂ (Follows sha256) transactions engine.plannedTransactions ∧
        engine.executeBlock sha256 transactions = .ok (engine.plannedOutcome sha256)) ∨
      ∃ e, engine.executeBlock sha256 transactions = .error e ∧ ¬ ContinuityFailure e := by
  have hrun : engine.executeBlock sha256 transactions = _ :=
    executeBlock_of_materialized sha256 hmaterialized hroot
  rcases executeTransactions_cases sha256 transactions [] [] []
    engine.plannedTransactions (materialized sha256 engine.materializedState) with
    ⟨steps, more, hplanned, hsteps⟩ | ⟨e, s, t, herror, hkind⟩
  · cases more with
    | nil =>
      rw [List.append_nil] at hplanned
      rw [← hplanned] at hsteps
      obtain ⟨hincreasing, _⟩ := (materializeAccumulator_eq_ok_iff sha256 _ _).mp hmaterialized
      exact Or.inl ⟨hsteps, executeBlock_follows sha256 hincreasing hroot hsteps⟩
    | cons p more =>
      -- The loop ends well, but a planned step is left over.
      have hloop := executeTransactions_ok sha256 hsteps [] [] [] (p :: more)
        (materialized sha256 engine.materializedState)
      rw [← hplanned] at hloop
      simp only [hloop] at hrun
      simp only [hplanned, List.nil_append, List.length_nil, Nat.zero_add,
        ensureExhausted_of_leftover] at hrun
      refine Or.inr ⟨.executor "unconsumed planned transaction steps", hrun, ?_⟩
      rintro ⟨_, h⟩
      cases h
  · simp only [herror] at hrun
    exact Or.inr ⟨e, hrun, hkind⟩

/-- A block the engine accepts follows the plan to the end. -/
theorem executeBlock_eq_ok_iff (outcome : BlockExecutionOutcome) :
    engine.executeBlock sha256 transactions = .ok outcome ↔
      (engine.materializedState.map Prod.fst).Pairwise StateKey.Before ∧
        (materialized sha256 engine.materializedState).root = engine.preStateRoot ∧
        List.Forall₂ (Follows sha256) transactions engine.plannedTransactions ∧
        outcome = engine.plannedOutcome sha256 := by
  constructor
  · intro h
    cases hacc : materializeAccumulator sha256 engine.materializedState with
    | error e =>
      rw [executeBlock_of_refused sha256 hacc] at h
      cases h
    | ok acc =>
      obtain ⟨hincreasing, rfl⟩ := (materializeAccumulator_eq_ok_iff sha256 _ _).mp hacc
      by_cases hroot : (materialized sha256 engine.materializedState).root = engine.preStateRoot
      · rcases executeBlock_past_checks sha256 hacc hroot with ⟨hfollows, hok⟩ | ⟨e, herror, _⟩
        · exact ⟨hincreasing, hroot, hfollows, Except.ok.inj (h.symm.trans hok)⟩
        · cases h.symm.trans herror
      · rw [executeBlock_of_mismatch sha256 hacc hroot] at h
        cases h
  · rintro ⟨hincreasing, hroot, hfollows, rfl⟩
    exact executeBlock_follows sha256 hincreasing hroot hfollows

/-- The only comparison of roots that can fail is the engine's own, before the loop. -/
theorem executeBlock_continuity_iff (roots : RootContinuityError) :
    engine.executeBlock sha256 transactions =
        .error (.stateTransition (.rootContinuityMismatch roots)) ↔
      ∃ acc, materializeAccumulator sha256 engine.materializedState = .ok acc ∧
        acc.stateRoot ≠ engine.preStateRoot ∧ roots = ⟨engine.preStateRoot, acc.stateRoot⟩ := by
  constructor
  · intro h
    cases hacc : materializeAccumulator sha256 engine.materializedState with
    | error e =>
      rw [executeBlock_of_refused sha256 hacc] at h
      obtain rfl : e = .rootContinuityMismatch roots :=
        ExecutionError.stateTransition.inj (Except.error.inj h)
      rcases materializeAccumulator_error sha256 hacc with ⟨_, _, hkind⟩ | ⟨_, hkind⟩
      · cases hkind
      · cases hkind
    | ok acc =>
      obtain ⟨_, rfl⟩ := (materializeAccumulator_eq_ok_iff sha256 _ _).mp hacc
      by_cases hroot : (materialized sha256 engine.materializedState).root = engine.preStateRoot
      · rcases executeBlock_past_checks sha256 hacc hroot with ⟨_, hok⟩ | ⟨e, herror, hkind⟩
        · cases h.symm.trans hok
        · exact absurd ⟨roots, Except.error.inj (herror.symm.trans h)⟩ hkind
      · rw [executeBlock_of_mismatch sha256 hacc hroot] at h
        refine ⟨_, rfl, hroot, ?_⟩
        exact (StateError.rootContinuityMismatch.inj
          (ExecutionError.stateTransition.inj (Except.error.inj h))).symm
  · rintro ⟨acc, hacc, hroot, rfl⟩
    obtain ⟨_, rfl⟩ := (materializeAccumulator_eq_ok_iff sha256 _ _).mp hacc
    exact executeBlock_of_mismatch sha256 hacc hroot

theorem forall₂_follows_iff (planned : List PlannedTransaction) :
    List.Forall₂ (Follows sha256) transactions planned ↔
      transactions.length = planned.length ∧
        (∀ (i : Nat) (transaction : TransactionEnvelope) (p : PlannedTransaction),
          transactions[i]? = some transaction → planned[i]? = some p →
            transaction.canonicalRoot sha256 = .ok p.transactionRoot) ∧
        ∀ p ∈ planned, p.plan.statePatch.Canonical := by
  constructor
  · intro h
    refine ⟨h.length_eq, ?_, ?_⟩
    · intro i transaction p ht hp
      induction h generalizing i with
      | nil => cases ht
      | cons hhead _ ih =>
        cases i with
        | zero =>
          obtain rfl := Option.some.inj ht
          obtain rfl := Option.some.inj hp
          exact hhead.1
        | succ i => exact ih i ht hp
    · intro p hp
      induction h with
      | nil => cases hp
      | cons hhead _ ih =>
        rcases List.mem_cons.mp hp with rfl | hp
        · exact hhead.2
        · exact ih hp
  · rintro ⟨hlength, hroots, hcanonical⟩
    rw [List.forall₂_iff_get]
    refine ⟨hlength, ?_⟩
    intro i ht hp
    refine ⟨hroots i _ _ (List.getElem?_eq_getElem ht) (List.getElem?_eq_getElem hp), ?_⟩
    exact hcanonical _ (List.getElem_mem hp)

/-- The engine computes the planned state lineage: when it returns an outcome,
what the outcome is, and that no comparison of roots fails past the first. -/
theorem reference_execution_exact (sha256 : List UInt8 → Root) (engine : ReferenceExecutionEngine)
    (transactions : List TransactionEnvelope) :
    ((∃ outcome, engine.executeBlock sha256 transactions = .ok outcome) ↔
      (engine.materializedState.map Prod.fst).Pairwise StateKey.Before ∧
      (∃ acc, materializeAccumulator sha256 engine.materializedState = .ok acc ∧
        acc.stateRoot = engine.preStateRoot) ∧
      transactions.length = engine.plannedTransactions.length ∧
      (∀ (i : Nat) (transaction : TransactionEnvelope) (p : PlannedTransaction),
        transactions[i]? = some transaction → engine.plannedTransactions[i]? = some p →
          transaction.canonicalRoot sha256 = .ok p.transactionRoot) ∧
      ∀ p ∈ engine.plannedTransactions,
        p.plan.statePatch.accesses.length = p.plan.statePatch.newValues.length ∧
          p.plan.statePatch.accesses.Pairwise StateKey.Before) ∧
    (∀ outcome, engine.executeBlock sha256 transactions = .ok outcome →
      outcome.transactionOutcomes.length = transactions.length ∧
      (∀ (i : Nat) (transaction : TransactionEnvelope) (p : PlannedTransaction),
        transactions[i]? = some transaction → engine.plannedTransactions[i]? = some p →
          ∃ entry, outcome.transactionOutcomes[i]? = some entry ∧
            transaction.canonicalRoot sha256 = .ok entry.transactionRoot ∧
            entry.receipt = p.plan.receipt ∧
            entry.postStateRoot = computeReferenceRoot sha256
              (overridden (materializedLeaves engine.materializedState)
                (engine.plannedTransactions.take (i + 1)))) ∧
      outcome.postStateRoot = (outcome.transactionOutcomes.getLast?.map fun entry =>
        entry.postStateRoot).getD engine.preStateRoot ∧
      outcome.receiptsRoot = computeReceiptsRoot sha256
        (engine.plannedTransactions.map fun p => p.plan.receipt)) ∧
    ∀ roots, engine.executeBlock sha256 transactions =
        .error (.stateTransition (.rootContinuityMismatch roots)) ↔
      ∃ acc, materializeAccumulator sha256 engine.materializedState = .ok acc ∧
        acc.stateRoot ≠ engine.preStateRoot ∧ roots = ⟨engine.preStateRoot, acc.stateRoot⟩ := by
  refine ⟨?_, ?_, executeBlock_continuity_iff sha256⟩
  · have hshape : ∀ p : PlannedTransaction, p.plan.statePatch.Canonical ↔
        p.plan.statePatch.accesses.length = p.plan.statePatch.newValues.length ∧
          p.plan.statePatch.accesses.Pairwise StateKey.Before :=
      fun p => ⟨fun h => ⟨h.shape, h.increasing⟩, fun h => ⟨h.1, h.2⟩⟩
    simp only [executeBlock_eq_ok_iff, materializeAccumulator_eq_ok_iff, forall₂_follows_iff,
      hshape]
    constructor
    · rintro ⟨_, hincreasing, hroot, hfollows, _⟩
      exact ⟨hincreasing, ⟨_, ⟨hincreasing, rfl⟩, hroot⟩, hfollows⟩
    · rintro ⟨hincreasing, ⟨acc, ⟨_, rfl⟩, hroot⟩, hfollows⟩
      exact ⟨_, hincreasing, hroot, hfollows, rfl⟩
  · intro outcome h
    obtain ⟨_, hroot, hfollows, rfl⟩ := (executeBlock_eq_ok_iff sha256 outcome).mp h
    obtain ⟨hlength, hroots, _⟩ := (forall₂_follows_iff sha256 _).mp hfollows
    refine ⟨?_, ?_, ?_, rfl⟩
    · rw [plannedOutcome, length_lineage, hlength]
    · intro i transaction p ht hp
      have hentry := getElem?_lineage sha256 (materialized sha256 engine.materializedState)
        engine.plannedTransactions i
      rw [hp, Option.map_some, materialized_leaves] at hentry
      exact ⟨_, hentry, hroots i transaction p ht hp, rfl, rfl⟩
    · rw [plannedOutcome, finalAccumulator_root, hroot]

end ReferenceExecutionEngine

/-- One planned step over one materialised account. -/
def sampleEngine : ReferenceExecutionEngine where
  preStateRoot := (materialized Sha256.digest [(sampleAccount, [7])]).root
  materializedState := [(sampleAccount, [7])]
  plannedTransactions :=
    [⟨(Ssz.envelopeRootRun Sha256.digest bareEnvelope).value,
      ⟨⟨[sampleAccount, sampleStem], [[1], [2]]⟩, ⟨1, [9]⟩⟩⟩]

theorem reference_execution_exact_sample :
    ∃ outcome, sampleEngine.executeBlock Sha256.digest [bareEnvelope] = .ok outcome ∧
      outcome.transactionOutcomes.length = 1 ∧
      outcome.receiptsRoot = computeReceiptsRoot Sha256.digest [⟨1, [9]⟩] := by
  obtain ⟨haccepts, houtcome, _⟩ :=
    ReferenceExecutionEngine.reference_execution_exact Sha256.digest sampleEngine [bareEnvelope]
  have hincreasing : (sampleEngine.materializedState.map Prod.fst).Pairwise StateKey.Before := by
    decide
  have hmaterialized : materializeAccumulator Sha256.digest sampleEngine.materializedState =
      .ok (materialized Sha256.digest sampleEngine.materializedState) :=
    (materializeAccumulator_eq_ok_iff _ _ _).mpr ⟨hincreasing, rfl⟩
  have hroots : ∀ (i : Nat) (transaction : TransactionEnvelope) (p : PlannedTransaction),
      [bareEnvelope][i]? = some transaction → sampleEngine.plannedTransactions[i]? = some p →
        transaction.canonicalRoot Sha256.digest = .ok p.transactionRoot := by
    intro i transaction p ht hp
    cases i with
    | zero =>
      obtain rfl := Option.some.inj ht
      obtain rfl := Option.some.inj hp
      rfl
    | succ i => cases ht
  have hroot : (materialized Sha256.digest sampleEngine.materializedState).stateRoot =
      sampleEngine.preStateRoot := by
    simp only [sampleEngine, InMemoryAccumulator.stateRoot]
  have hshape : ∀ p ∈ sampleEngine.plannedTransactions,
      p.plan.statePatch.accesses.length = p.plan.statePatch.newValues.length ∧
        p.plan.statePatch.accesses.Pairwise StateKey.Before := by
    simp only [sampleEngine, List.forall_mem_singleton]
    decide
  obtain ⟨outcome, h⟩ := haccepts.mpr
    ⟨hincreasing, ⟨_, hmaterialized, hroot⟩, rfl, hroots, hshape⟩
  exact ⟨outcome, h, (houtcome outcome h).1, (houtcome outcome h).2.2.2⟩

end ShellCli
