import ShellChain.Execution.FailedBlock

/-!
# The receipts root binds the receipts

Two levels of hashing: a digest for each receipt and one digest over the count
and the receipt digests. The block loop keeps the receipts it will hash and the
outcomes it will report in two lists; they carry the same receipts at every
step, whatever the executor and the applier do.
-/

namespace ShellExecution

open ByteCodec ShellPrimitives ShellState Hashing StatelessBlockExecutor

/-! ## Two levels of hashing -/

section
variable {sha256 : List UInt8 → Root}

/-- The output is the last part of its string, so nothing hangs on its length. -/
theorem binds_receiptRootRun : Binds sha256 Set.univ (receiptRootRun sha256) := by
  apply binds_hash.comp
  · rintro ⟨status, output⟩ _ ⟨status', output'⟩ _ h
    simp only [List.append_assoc] at h
    obtain ⟨hstatus, hafter⟩ := List.append_inj (List.append_cancel_left h) rfl
    obtain ⟨-, houtput⟩ := List.append_inj hafter (by simp)
    rw [List.head_eq_of_cons_eq hstatus, houtput]
  · exact Set.mapsTo_univ _ _

/-- The digests have one length, so the count in front adds nothing either. -/
theorem binds_receiptsRootRun : Binds sha256 Set.univ (receiptsRootRun sha256) := by
  intro S hS as _ bs _ hsa hsb h
  rw [receiptsRootRun, within_bind, within_hash] at hsa hsb
  have hstring := hS hsa.2 hsb.2 h
  simp only [List.append_assoc] at hstring
  obtain ⟨-, hroots⟩ := List.append_inj (List.append_cancel_left hstring) (by simp)
  have hdigests := flatMap_toList_injective (by decide) hroots
  exact binds_receiptRootRun.traverse hS (fun _ _ => trivial) (fun _ _ => trivial) hsa.1 hsb.1
    hdigests

end

/-! ## The block loop -/

def BlockExecutionOutcome.receipts (outcome : BlockExecutionOutcome) : List ExecutionReceipt :=
  outcome.transactionOutcomes.map TransactionExecutionOutcome.receipt

section
variable {sha256 : List UInt8 → Root} {σ τ : Type}
variable {executor : TransactionExecutor σ} {applier : StateTransitionApplier τ}

/-- What a block that goes through has done with its first transaction. -/
theorem executeTransactions_cons_eq_ok {transaction : TransactionEnvelope}
    {rest : List TransactionEnvelope} {current : Root} {receipts : List ExecutionReceipt}
    {outcomes : List TransactionExecutionOutcome} {s : σ} {t : τ} {outcome : BlockExecutionOutcome}
    (h : (executeTransactions sha256 executor applier (transaction :: rest) current receipts
      outcomes s t).1 = .ok outcome) :
    ∃ (done : TransactionExecutionOutcome) (s' : σ) (t' : τ),
      (executeTransactions sha256 executor applier rest done.postStateRoot
        (receipts ++ [done.receipt]) (outcomes ++ [done]) s' t').1 = .ok outcome := by
  rw [executeTransactions] at h
  cases hroot : transaction.canonicalRoot sha256 with
  | error e =>
    rw [hroot] at h
    cases h
  | ok root =>
    rcases hplan : executor s current transaction with ⟨_ | plan, s'⟩
    · simp only [hroot, hplan] at h
      cases h
    · rcases happlied : applier t current plan.statePatch with ⟨_ | applied, t'⟩
      · simp only [hroot, hplan, happlied] at h
        cases h
      · simp only [hroot, hplan, happlied] at h
        exact ⟨⟨root, applied.postStateRoot, plan.receipt⟩, s', t', h⟩

/-- The loop hashes the receipts of the outcomes it reports. -/
theorem executeTransactions_receiptsRoot {transactions : List TransactionEnvelope} {current : Root}
    {receipts : List ExecutionReceipt} {outcomes : List TransactionExecutionOutcome} {s : σ} {t : τ}
    {outcome : BlockExecutionOutcome}
    (same : outcomes.map TransactionExecutionOutcome.receipt = receipts)
    (h : (executeTransactions sha256 executor applier transactions current receipts outcomes s
      t).1 = .ok outcome) :
    outcome.receiptsRoot = computeReceiptsRoot sha256 outcome.receipts := by
  induction transactions generalizing current receipts outcomes s t with
  | nil =>
    obtain rfl := Except.ok.inj h
    exact congrArg (computeReceiptsRoot sha256) same.symm
  | cons transaction rest ih =>
    obtain ⟨done, s', t', hrest⟩ := executeTransactions_cons_eq_ok h
    apply ih _ hrest
    rw [List.map_append, same]
    rfl

theorem executeBlock_receiptsRoot {preStateRoot : Root} {transactions : List TransactionEnvelope}
    {s : σ} {t : τ} {outcome : BlockExecutionOutcome}
    (h : (executeBlock sha256 executor applier preStateRoot transactions s t).1 = .ok outcome) :
    outcome.receiptsRoot = computeReceiptsRoot sha256 outcome.receipts := by
  rw [executeBlock] at h
  exact executeTransactions_receiptsRoot List.map_nil h

end

theorem ensureMatches_eq_ok_iff (outcome : BlockExecutionOutcome)
    (committed : CommittedExecutionRoots) :
    outcome.ensureMatches committed = .ok () ↔
      outcome.postStateRoot = committed.stateRoot ∧
        outcome.receiptsRoot = committed.receiptsRoot := by
  rw [BlockExecutionOutcome.ensureMatches]
  by_cases hstate : outcome.postStateRoot = committed.stateRoot
  · by_cases hreceipts : outcome.receiptsRoot = committed.receiptsRoot
    · simp [hstate, hreceipts]
    · simp [hstate, hreceipts]
  · simp [hstate]

/-! ## Binding -/

/-- No two of the strings hashed for two lists of receipts collide. -/
def ReceiptsCollisionFree (sha256 : List UInt8 → Root) (as bs : List ExecutionReceipt) : Prop :=
  Set.InjOn sha256 {s | s ∈ preimages (receiptsRootRun sha256 as) ∨
    s ∈ preimages (receiptsRootRun sha256 bs)}

/-- Equal receipts roots come from equal receipts, and so blocks that match the same committed
roots, through whatever executors and appliers, report the same receipts in the same order. -/
theorem receipts_root_binds (sha256 : List UInt8 → Root) :
    (∀ as bs : List ExecutionReceipt, ReceiptsCollisionFree sha256 as bs →
      computeReceiptsRoot sha256 as = computeReceiptsRoot sha256 bs → as = bs) ∧
    ∀ {σ τ σ' τ' : Type} (executor : TransactionExecutor σ) (applier : StateTransitionApplier τ)
      (executor' : TransactionExecutor σ') (applier' : StateTransitionApplier τ')
      (preStateRoot preStateRoot' : Root) (transactions transactions' : List TransactionEnvelope)
      (s : σ) (t : τ) (s' : σ') (t' : τ') (outcome outcome' : BlockExecutionOutcome)
      (committed : CommittedExecutionRoots),
      (executeBlock sha256 executor applier preStateRoot transactions s t).1 = .ok outcome →
      (executeBlock sha256 executor' applier' preStateRoot' transactions' s' t').1 = .ok outcome' →
      outcome.ensureMatches committed = .ok () → outcome'.ensureMatches committed = .ok () →
      ReceiptsCollisionFree sha256 outcome.receipts outcome'.receipts →
      outcome.receipts = outcome'.receipts := by
  have hbinds : ∀ as bs : List ExecutionReceipt, ReceiptsCollisionFree sha256 as bs →
      computeReceiptsRoot sha256 as = computeReceiptsRoot sha256 bs → as = bs := by
    intro as bs collisionFree h
    exact binds_receiptsRootRun.eq_of_value_eq trivial trivial collisionFree h
  refine ⟨hbinds, ?_⟩
  intro σ τ σ' τ' executor applier executor' applier' preStateRoot preStateRoot' transactions
    transactions' s t s' t' outcome outcome' committed hrun hrun' hmatch hmatch' collisionFree
  apply hbinds _ _ collisionFree
  calc computeReceiptsRoot sha256 outcome.receipts
    _ = outcome.receiptsRoot := (executeBlock_receiptsRoot hrun).symm
    _ = committed.receiptsRoot := ((ensureMatches_eq_ok_iff _ _).mp hmatch).2
    _ = outcome'.receiptsRoot := ((ensureMatches_eq_ok_iff _ _).mp hmatch').2.symm
    _ = computeReceiptsRoot sha256 outcome'.receipts := executeBlock_receiptsRoot hrun'

/-! ### One block through two executors -/

def sampleReceipts : List ExecutionReceipt := [⟨1, [0xAA]⟩, ⟨0, [0xBB, 0xCC]⟩]

/-- A plan for two transactions, which write an account and a stem. -/
def twoPlanned : List PlannedTransaction :=
  [⟨(Ssz.envelopeRootRun Sha256.digest bareEnvelope).value,
      ⟨⟨[sampleAccount], [[1]]⟩, ⟨1, [0xAA]⟩⟩⟩,
    ⟨(Ssz.envelopeRootRun Sha256.digest bareEnvelope).value,
      ⟨⟨[sampleStem], [[2]]⟩, ⟨0, [0xBB, 0xCC]⟩⟩⟩]

/-- The outcome of a block of the two planned transactions. -/
def plannedOutcome : BlockExecutionOutcome :=
  ⟨(finalAccumulator Sha256.digest .new twoPlanned).root,
    computeReceiptsRoot Sha256.digest sampleReceipts, lineage Sha256.digest .new twoPlanned⟩

/-- An executor without a plan, which hands out receipts. -/
def listedExecutor : TransactionExecutor (List ExecutionReceipt)
  | [], _, _ => (.error (.executor "no receipt left"), [])
  | receipt :: rest, _, _ => (.ok ⟨⟨[], []⟩, receipt⟩, rest)

/-- An applier that is at its last root from the first transaction on. -/
def listedApplier : StateTransitionApplier Unit := fun t _ _ =>
  (.ok ⟨plannedOutcome.postStateRoot⟩, t)

/-- The same roots, over other outcomes of the transactions. -/
def listedOutcome : BlockExecutionOutcome :=
  { plannedOutcome with
    transactionOutcomes := sampleReceipts.map fun receipt =>
      ⟨(Ssz.envelopeRootRun Sha256.digest bareEnvelope).value, plannedOutcome.postStateRoot,
        receipt⟩ }

theorem executed_plannedOutcome :
    (executeBlock Sha256.digest (plannedExecutor Sha256.digest) (referenceApplier Sha256.digest)
      InMemoryAccumulator.new.stateRoot [bareEnvelope, bareEnvelope] (.new twoPlanned) ⟨.new⟩).1 =
        .ok plannedOutcome := by
  have hfollows : List.Forall₂ (Follows Sha256.digest) [bareEnvelope, bareEnvelope] twoPlanned :=
    .cons ⟨rfl, by decide⟩ (.cons ⟨rfl, by decide⟩ .nil)
  exact congrArg Prod.fst (executeTransactions_ok Sha256.digest hfollows [] [] [] [] .new)

theorem executed_listedOutcome :
    (executeBlock Sha256.digest listedExecutor listedApplier InMemoryAccumulator.new.stateRoot
      [bareEnvelope, bareEnvelope] sampleReceipts ()).1 = .ok listedOutcome := by
  have hroot : bareEnvelope.canonicalRoot Sha256.digest =
      .ok (Ssz.envelopeRootRun Sha256.digest bareEnvelope).value := rfl
  simp only [executeBlock, executeTransactions, hroot, sampleReceipts, listedExecutor,
    listedApplier, listedOutcome, plannedOutcome, List.nil_append, List.singleton_append,
    List.map_cons, List.map_nil]

theorem receipts_root_binds_two_executors :
    (executeBlock Sha256.digest (plannedExecutor Sha256.digest) (referenceApplier Sha256.digest)
        InMemoryAccumulator.new.stateRoot [bareEnvelope, bareEnvelope] (.new twoPlanned) ⟨.new⟩).1 =
          .ok plannedOutcome ∧
      (executeBlock Sha256.digest listedExecutor listedApplier InMemoryAccumulator.new.stateRoot
        [bareEnvelope, bareEnvelope] sampleReceipts ()).1 = .ok listedOutcome ∧
      plannedOutcome.receipts = listedOutcome.receipts := by
  have hfree : ReceiptsCollisionFree Sha256.digest plannedOutcome.receipts
      listedOutcome.receipts := by
    have hplanned : plannedOutcome.receipts = sampleReceipts := rfl
    have hlisted : listedOutcome.receipts = sampleReceipts := rfl
    rw [hplanned, hlisted, ReceiptsCollisionFree]
    simp only [← List.mem_append]
    exact injOn_of_nodup (by decide +kernel)
  refine ⟨executed_plannedOutcome, executed_listedOutcome, ?_⟩
  exact (receipts_root_binds Sha256.digest).2 _ _ _ _ _ _ _ _ _ _ _ _ _ _
    ⟨plannedOutcome.postStateRoot, plannedOutcome.receiptsRoot⟩ executed_plannedOutcome
    executed_listedOutcome ((ensureMatches_eq_ok_iff _ _).mpr ⟨rfl, rfl⟩)
    ((ensureMatches_eq_ok_iff _ _).mpr ⟨rfl, rfl⟩) hfree

end ShellExecution
