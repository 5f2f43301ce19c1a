import ShellChain.Execution.PlannedLineage
import ShellChain.Library.FallibleLoop

/-!
# Blocks over arbitrary services

The block loop for any executor and any applier. It is a loop that stops at
the first failure, over the running root and the states of the two services.
So a block may be cut anywhere into two, and what an executor has answered in
a block can be written down as a plan that replays the block.
-/

namespace ShellExecution

open ByteCodec ShellPrimitives ShellState StatelessBlockExecutor FallibleLoop

section
variable (sha256 : List UInt8 → Root) {σ τ : Type}
variable (executor : TransactionExecutor σ) (applier : StateTransitionApplier τ)

/-! ## One transaction -/

/-- What one round of the loop does: the plan it carries out, and the outcome. -/
def blockStep : Root × σ × τ → TransactionEnvelope →
    Except ExecutionError (TransactionExecutionPlan × TransactionExecutionOutcome) × Root × σ × τ
  | (current, s, t), transaction =>
    match transaction.canonicalRoot sha256 with
    | .error e => (.error (.transactionRoot e), current, s, t)
    | .ok transactionRoot =>
      match executor s current transaction with
      | (.error e, s) => (.error e, current, s, t)
      | (.ok plan, s) =>
        match applier t current plan.statePatch with
        | (.error e, t) => (.error (.stateTransition e), current, s, t)
        | (.ok outcome, t) =>
          (.ok (plan, ⟨transactionRoot, outcome.postStateRoot, plan.receipt⟩),
            outcome.postStateRoot, s, t)

/-- The outcome of a block from what its rounds have done. -/
def blockOutcome (postStateRoot : Root)
    (executed : List (TransactionExecutionPlan × TransactionExecutionOutcome)) :
    BlockExecutionOutcome :=
  ⟨postStateRoot, computeReceiptsRoot sha256 (executed.map fun d => d.1.receipt),
    executed.map Prod.snd⟩

/-- A transaction that both services accept, at one root. -/
structure Carried (current : Root) (s : σ) (t : τ) (transaction : TransactionEnvelope)
    (plan : TransactionExecutionPlan) (post : Root) (s' : σ) (t' : τ) : Prop where
  planned : executor s current transaction = (.ok plan, s')
  applied : applier t current plan.statePatch = (.ok ⟨post⟩, t')

variable {sha256 executor applier}
variable {current post final : Root} {s s' : σ} {t t' : τ} {transaction : TransactionEnvelope}
variable {plan : TransactionExecutionPlan}

/-- Everything a round can do: the executor fails, the applier fails, or both accept. -/
theorem blockStep_cases (sha256 : List UInt8 → Root) (executor : TransactionExecutor σ)
    (applier : StateTransitionApplier τ) (current : Root) (s : σ) (t : τ)
    (transaction : TransactionEnvelope) :
    (∃ e s', executor s current transaction = (.error e, s') ∧
        blockStep sha256 executor applier (current, s, t) transaction =
          (.error e, current, s', t)) ∨
      (∃ plan s' e t', executor s current transaction = (.ok plan, s') ∧
        applier t current plan.statePatch = (.error e, t') ∧
        blockStep sha256 executor applier (current, s, t) transaction =
          (.error (.stateTransition e), current, s', t')) ∨
      ∃ plan post s' t', Carried executor applier current s t transaction plan post s' t' ∧
        blockStep sha256 executor applier (current, s, t) transaction =
          (.ok (plan, ⟨(Ssz.envelopeRootRun sha256 transaction).value, post, plan.receipt⟩),
            post, s', t') := by
  have hroot : transaction.canonicalRoot sha256 =
      .ok (Ssz.envelopeRootRun sha256 transaction).value := rfl
  rcases hexecutor : executor s current transaction with ⟨e | plan, s'⟩
  · refine Or.inl ⟨e, s', rfl, ?_⟩
    simp only [blockStep, hroot, hexecutor]
  · rcases happlier : applier t current plan.statePatch with ⟨e | transition, t'⟩
    · refine Or.inr (Or.inl ⟨plan, s', e, t', rfl, happlier, ?_⟩)
      simp only [blockStep, hroot, hexecutor, happlier]
    · obtain ⟨post⟩ := transition
      refine Or.inr (Or.inr ⟨plan, post, s', t', ⟨hexecutor, happlier⟩, ?_⟩)
      simp only [blockStep, hroot, hexecutor, happlier]

theorem carried_of_blockStep {d : TransactionExecutionPlan × TransactionExecutionOutcome}
    (h : blockStep sha256 executor applier (current, s, t) transaction = (.ok d, post, s', t')) :
    Carried executor applier current s t transaction d.1 post s' t' ∧
      d.2 = ⟨(Ssz.envelopeRootRun sha256 transaction).value, post, d.1.receipt⟩ := by
  rcases blockStep_cases sha256 executor applier current s t transaction with
    ⟨e, s'', -, hstep⟩ | ⟨_, _, e, _, -, -, hstep⟩ | ⟨plan', post', s'', t'', hcarried, hstep⟩
  · cases hstep.symm.trans h
  · cases hstep.symm.trans h
  · cases hstep.symm.trans h
    exact ⟨hcarried, rfl⟩

/-! ## The loop -/

/-- The block loop is the general one, with what it has collected in front. -/
theorem executeTransactions_eq_loop (transactions : List TransactionEnvelope) (current : Root)
    (receipts : List ExecutionReceipt) (outcomes : List TransactionExecutionOutcome) (s : σ)
    (t : τ) :
    executeTransactions sha256 executor applier transactions current receipts outcomes s t =
      match loop (blockStep sha256 executor applier) transactions (current, s, t) with
      | (.error e, _, s, t) => (.error e, s, t)
      | (.ok executed, final, s, t) =>
        (.ok ⟨final, computeReceiptsRoot sha256 (receipts ++ executed.map fun d => d.1.receipt),
          outcomes ++ executed.map Prod.snd⟩, s, t) := by
  induction transactions generalizing current receipts outcomes s t with
  | nil => simp only [executeTransactions, loop, List.map_nil, List.append_nil]
  | cons transaction rest ih =>
    have hroot : transaction.canonicalRoot sha256 =
        .ok (Ssz.envelopeRootRun sha256 transaction).value := rfl
    rw [loop, executeTransactions, hroot]
    rcases blockStep_cases sha256 executor applier current s t transaction with
      ⟨e, s', hexecutor, hstep⟩ | ⟨plan, s', e, t', hexecutor, happlier, hstep⟩ |
        ⟨plan, post, s', t', hcarried, hstep⟩
    · simp only [hexecutor, hstep]
    · simp only [hexecutor, happlier, hstep]
    · simp only [hcarried.planned, hcarried.applied, hstep, ih]
      rcases loop (blockStep sha256 executor applier) rest (post, s', t') with
        ⟨_ | executed, final, s'', t''⟩
      · rfl
      · simp only [List.append_assoc, List.map_cons, List.singleton_append]

theorem executeBlock_eq_loop (transactions : List TransactionEnvelope) (current : Root) (s : σ)
    (t : τ) :
    executeBlock sha256 executor applier current transactions s t =
      match loop (blockStep sha256 executor applier) transactions (current, s, t) with
      | (.error e, _, s, t) => (.error e, s, t)
      | (.ok executed, final, s, t) => (.ok (blockOutcome sha256 final executed), s, t) :=
  executeTransactions_eq_loop transactions current [] [] s t

theorem executeBlock_of_rounds {transactions : List TransactionEnvelope}
    {executed : List (TransactionExecutionPlan × TransactionExecutionOutcome)}
    (rounds : Rounds (blockStep sha256 executor applier) (current, s, t) transactions executed
      (final, s', t')) :
    executeBlock sha256 executor applier current transactions s t =
      (.ok (blockOutcome sha256 final executed), s', t') := by
  rw [executeBlock_eq_loop, loop_of_rounds rounds]

theorem executeBlock_eq_ok_iff {transactions : List TransactionEnvelope}
    {outcome : BlockExecutionOutcome} :
    executeBlock sha256 executor applier current transactions s t = (.ok outcome, s', t') ↔
      ∃ executed, Rounds (blockStep sha256 executor applier) (current, s, t) transactions executed
          (outcome.postStateRoot, s', t') ∧
        outcome = blockOutcome sha256 outcome.postStateRoot executed := by
  constructor
  · intro h
    rw [executeBlock_eq_loop] at h
    rcases hloop : loop (blockStep sha256 executor applier) transactions (current, s, t) with
      ⟨_ | executed, final, s'', t''⟩
    · rw [hloop] at h
      cases h
    · rw [hloop] at h
      cases h
      exact ⟨executed, loop_eq_ok_iff.mp hloop, rfl⟩
  · rintro ⟨executed, hrounds, houtcome⟩
    rw [executeBlock_of_rounds hrounds, ← houtcome]

theorem executeBlock_eq_error_iff {transactions : List TransactionEnvelope} {e : ExecutionError} :
    executeBlock sha256 executor applier current transactions s t = (.error e, s', t') ↔
      ∃ done transaction rest executed mid final,
        transactions = done ++ transaction :: rest ∧
        Rounds (blockStep sha256 executor applier) (current, s, t) done executed mid ∧
        blockStep sha256 executor applier mid transaction = (.error e, final, s', t') := by
  rw [executeBlock_eq_loop]
  constructor
  · intro h
    rcases hloop : loop (blockStep sha256 executor applier) transactions (current, s, t) with
      ⟨e' | executed, final, s'', t''⟩
    · rw [hloop] at h
      cases h
      obtain ⟨done, transaction, rest, executed, mid, hsplit, hrounds, hstops⟩ :=
        loop_eq_error_iff.mp hloop
      exact ⟨done, transaction, rest, executed, mid, final, hsplit, hrounds, hstops⟩
    · rw [hloop] at h
      cases h
  · rintro ⟨done, transaction, rest, executed, mid, final, rfl, hrounds, hstops⟩
    rw [loop_of_stops hrounds hstops]

/-- The receipts of a block are those of its outcomes. -/
theorem receipts_of_rounds {transactions : List TransactionEnvelope}
    {executed : List (TransactionExecutionPlan × TransactionExecutionOutcome)}
    {start stop : Root × σ × τ}
    (rounds : Rounds (blockStep sha256 executor applier) start transactions executed stop) :
    (executed.map fun d => d.1.receipt) = (executed.map Prod.snd).map fun o => o.receipt := by
  induction rounds with
  | nil => rfl
  | @cons start mid _ _ d _ _ first rest ih =>
    obtain ⟨-, houtcome⟩ := carried_of_blockStep first
    rw [List.map_cons, List.map_cons, List.map_cons, ih, houtcome]

end

/-! ## Cutting a block in two -/

/-- The outcome of two blocks executed as one. -/
def BlockExecutionOutcome.append (sha256 : List UInt8 → Root)
    (first second : BlockExecutionOutcome) : BlockExecutionOutcome :=
  let outcomes := first.transactionOutcomes ++ second.transactionOutcomes
  ⟨second.postStateRoot, computeReceiptsRoot sha256 (outcomes.map fun o => o.receipt), outcomes⟩

/-- Whatever the services, a block is executed as its first part and then, if that goes through,
its second part from the root and the service states the first has led to: the same errors, the
same states of the services, and the outcomes of the two one after the other. -/
theorem blocks_split_anywhere (sha256 : List UInt8 → Root) {σ τ : Type}
    (executor : TransactionExecutor σ) (applier : StateTransitionApplier τ) (preStateRoot : Root)
    (first second : List TransactionEnvelope) (s : σ) (t : τ) :
    executeBlock sha256 executor applier preStateRoot (first ++ second) s t =
      match executeBlock sha256 executor applier preStateRoot first s t with
      | (.error e, s, t) => (.error e, s, t)
      | (.ok outcome, s, t) =>
        match executeBlock sha256 executor applier outcome.postStateRoot second s t with
        | (.error e, s, t) => (.error e, s, t)
        | (.ok outcome', s, t) => (.ok (outcome.append sha256 outcome'), s, t) := by
  rcases rounds_or_stops (blockStep sha256 executor applier) first (preStateRoot, s, t) with
    ⟨executed, ⟨mid, s', t'⟩, hrounds⟩ | ⟨done, transaction, rest, executed, mid, e, ⟨root, s', t'⟩,
      rfl, hrounds, hstops⟩
  · rw [executeBlock_of_rounds hrounds]
    rcases rounds_or_stops (blockStep sha256 executor applier) second (mid, s', t') with
      ⟨executed', ⟨post, s'', t''⟩, hrounds'⟩ | ⟨done, transaction, rest, executed', mid', e,
        ⟨root, s'', t''⟩, rfl, hrounds', hstops⟩
    · have hreceipts := receipts_of_rounds (hrounds.append hrounds')
      simp only [executeBlock_of_rounds (hrounds.append hrounds'), executeBlock_of_rounds hrounds',
        blockOutcome, BlockExecutionOutcome.append, hreceipts, List.map_append]
    · have hsecond := executeBlock_eq_error_iff.mpr
        ⟨done, transaction, rest, executed', mid', root, rfl, hrounds', hstops⟩
      have hwhole := executeBlock_eq_error_iff.mpr
        ⟨first ++ done, transaction, rest, _, mid', root, rfl, hrounds.append hrounds', hstops⟩
      rw [List.append_assoc] at hwhole
      simp only [hwhole, blockOutcome, hsecond]
  · have hfirst := executeBlock_eq_error_iff.mpr
      ⟨done, transaction, rest, executed, mid, root, rfl, hrounds, hstops⟩
    have hwhole := executeBlock_eq_error_iff.mpr
      ⟨done, transaction, rest ++ second, executed, mid, root, rfl, hrounds, hstops⟩
    rw [List.append_assoc, List.cons_append, hwhole, hfirst]

/-! ## Writing a block down and replaying it -/

/-- What some rounds have done, as a plan. -/
def recorded (executed : List (TransactionExecutionPlan × TransactionExecutionOutcome)) :
    List PlannedTransaction :=
  executed.map fun d => ⟨d.2.transactionRoot, d.1⟩

/-- A plan that holds the executor's own answers along a block: each one given at the root and in
the state the answers before it have led to, and filed under the root of its transaction. -/
inductive Answered (sha256 : List UInt8 → Root) {σ τ : Type} (executor : TransactionExecutor σ)
    (applier : StateTransitionApplier τ) : Root × σ × τ → List TransactionEnvelope →
    List PlannedTransaction → Root × σ × τ → Prop where
  | nil (state : Root × σ × τ) : Answered sha256 executor applier state [] [] state
  | cons {current post : Root} {s s' : σ} {t t' : τ} {stop : Root × σ × τ}
      {transaction : TransactionEnvelope} {rest : List TransactionEnvelope}
      {planned : PlannedTransaction} {plan : List PlannedTransaction}
      (carried : Carried executor applier current s t transaction planned.plan post s' t')
      (filed : PlannedTransaction.fromTransaction sha256 transaction planned.plan = .ok planned)
      (later : Answered sha256 executor applier (post, s', t') rest plan stop) :
      Answered sha256 executor applier (current, s, t) (transaction :: rest) (planned :: plan) stop

section
variable {sha256 : List UInt8 → Root} {σ τ : Type}
variable {executor : TransactionExecutor σ} {applier : StateTransitionApplier τ}

theorem Answered.length_eq {start stop : Root × σ × τ} {transactions : List TransactionEnvelope}
    {plan : List PlannedTransaction}
    (answered : Answered sha256 executor applier start transactions plan stop) :
    plan.length = transactions.length := by
  induction answered with
  | nil => rfl
  | cons _ _ _ ih => exact congrArg Nat.succ ih

end

section
variable {sha256 : List UInt8 → Root} {σ : Type} {executor : TransactionExecutor σ}

/-- The applier has followed the plans carried out so far, and the running root is its root. -/
structure InStep (sha256 : List UInt8 → Root) (acc : InMemoryAccumulator)
    (state : Root × σ × ReferenceStateApplier)
    (executed : List (TransactionExecutionPlan × TransactionExecutionOutcome)) : Prop where
  applier : state.2.2 = ⟨finalAccumulator sha256 acc (recorded executed)⟩
  root : state.1 = (finalAccumulator sha256 acc (recorded executed)).root
  canonical : ∀ d ∈ executed, d.1.statePatch.Canonical
  outcomes : executed.map Prod.snd = lineage sha256 acc (recorded executed)

/-- A patch the applier accepts at its own root is canonical, and is written. -/
theorem canonical_of_applied {acc : InMemoryAccumulator} {patch : StatePatch} {post : Root}
    {applier : ReferenceStateApplier}
    (applied : referenceApplier sha256 ⟨acc⟩ acc.root patch = (.ok ⟨post⟩, applier)) :
    patch.Canonical := by
  by_contra hrejected
  obtain ⟨e, happlier, -⟩ := referenceApplier_rejects sha256 acc hrejected
  cases happlier.symm.trans applied

theorem lineage_concat (acc : InMemoryAccumulator) (steps : List PlannedTransaction)
    (planned : PlannedTransaction) :
    lineage sha256 acc (steps ++ [planned]) = lineage sha256 acc steps ++
      [stepOutcome sha256 (finalAccumulator sha256 acc steps) planned] := by
  induction steps generalizing acc with
  | nil => rfl
  | cons first rest ih =>
    rw [List.cons_append, lineage, lineage, ih]
    rfl

theorem recorded_concat (executed : List (TransactionExecutionPlan × TransactionExecutionOutcome))
    (d : TransactionExecutionPlan × TransactionExecutionOutcome) :
    recorded (executed ++ [d]) = recorded executed ++ [⟨d.2.transactionRoot, d.1⟩] :=
  List.map_append

theorem finalAccumulator_concat (acc : InMemoryAccumulator)
    (executed : List (TransactionExecutionPlan × TransactionExecutionOutcome))
    (d : TransactionExecutionPlan × TransactionExecutionOutcome) :
    finalAccumulator sha256 acc (recorded (executed ++ [d])) =
      stepAccumulator sha256 (finalAccumulator sha256 acc (recorded executed))
        ⟨d.2.transactionRoot, d.1⟩ := by
  rw [recorded_concat, finalAccumulator, List.foldl_append]
  rfl

theorem InStep.step {acc : InMemoryAccumulator} {state next : Root × σ × ReferenceStateApplier}
    {transaction : TransactionEnvelope}
    {d : TransactionExecutionPlan × TransactionExecutionOutcome}
    {executed : List (TransactionExecutionPlan × TransactionExecutionOutcome)}
    (first : blockStep sha256 executor (referenceApplier sha256) state transaction =
      (.ok d, next)) (inStep : InStep sha256 acc state executed) :
    InStep sha256 acc next (executed ++ [d]) := by
  obtain ⟨current, s, applier⟩ := state
  obtain ⟨post, s', applier'⟩ := next
  obtain ⟨happlier, hroot, hcanonical, houtcomes⟩ := inStep
  obtain ⟨hcarried, houtcome⟩ := carried_of_blockStep first
  dsimp only at happlier hroot
  subst happlier hroot
  have hpatch := canonical_of_applied hcarried.applied
  have happly := hcarried.applied.symm.trans (@referenceApplier_canonical sha256
    (finalAccumulator sha256 acc (recorded executed)) ⟨d.2.transactionRoot, d.1⟩ hpatch)
  obtain ⟨hpost, rfl⟩ := Prod.mk.inj happly
  obtain rfl := StateTransitionOutcome.mk.inj (Except.ok.inj hpost)
  refine ⟨congrArg ReferenceStateApplier.mk (finalAccumulator_concat acc executed d).symm,
    congrArg InMemoryAccumulator.root (finalAccumulator_concat acc executed d).symm, ?_, ?_⟩
  · intro d' hd'
    rcases List.mem_append.mp hd' with hd' | hd'
    · exact hcanonical d' hd'
    · rw [List.mem_singleton.mp hd']
      exact hpatch
  · rw [recorded_concat, lineage_concat, List.map_append, houtcomes]
    refine congrArg (lineage sha256 acc (recorded executed) ++ [·]) ?_
    rw [houtcome]
    rfl

end

end ShellExecution
