import ShellChain.Cli.BlockBinding

/-!
# Nodes that accept a block for one scenario

A scenario fixes the plan, the witnesses and the state a block is checked
against. So nodes behind different runtimes can only accept one content for it:
the same transactions in the same order and the same three roots of the header.
The rest of a block is a wrapping, which is free as long as it is consistent in
itself and signed by a proposer the node resolves.
-/

namespace ShellCli

open ByteCodec ShellPrimitives ShellCrypto ShellMempool ShellState ShellExecution ShellConsensus
open ShellNetwork SortedMap Except Hashing

/-- What of a block is fixed by a scenario. -/
structure SameContent (header header' : ConsensusHeader) (body body' : ConsensusBody) : Prop where
  transactions : body'.transactions = body.transactions
  stateRoot : header'.stateRoot = header.stateRoot
  receiptsRoot : header'.receiptsRoot = header.receiptsRoot
  executionWitnessesRoot : header'.executionWitnessesRoot = header.executionWitnessesRoot

/-- What is checked of a block apart from its content. -/
structure Wrapped (sha256 : List UInt8 → Root) (runtime : LocalReferenceRuntime)
    (header : ConsensusHeader) (body : ConsensusBody) (sidecar : ConsensusSidecar)
    (blockRoot : Root) (credential : ProposerCredential) : Prop where
  headerRoot : header.canonicalRoot = .ok blockRoot
  witnessBytes : ∀ maxBytes ∈ runtime.importConfig.headerPrefilter.maxWitnessBytes,
    header.witnessBytes ≤ maxBytes
  bodyRoot : body.transactionsRoot = .ok header.transactionsRoot
  resolved : runtime.resolver ⟨blockRoot, header.proposerIndexHint⟩ = .ok credential
  signed : runtime.dispatcher.verifyValidatorMessage credential.schemeId
    ⟨credential.publicKeyMaterial, validatorSigningRoot sha256 blockRoot,
      header.proposerSignature⟩ = .ok ()
  sidecarRoot : sidecar.blockRoot = blockRoot
  commitment : sidecar.committedRoot = header.executionWitnessesRoot

/-- The strings hashed for the roots of some transactions. -/
def transactionStrings (sha256 : List UInt8 → Root) (transactions : List TransactionEnvelope) :
    Set (List UInt8) :=
  {s | ∃ t ∈ transactions, s ∈ preimages (Ssz.envelopeRootRun sha256 t)}

/-- Transactions whose roots agree in order are the same, if no two strings hashed for them
collide. -/
theorem transactions_eq_of_roots {sha256 : List UInt8 → Root} {ts us : List TransactionEnvelope}
    (limits : ∀ t, t ∈ ts ∨ t ∈ us → t.WithinLimits)
    (collisionFree : Set.InjOn sha256 (transactionStrings sha256 ts ∪ transactionStrings sha256 us))
    (same : List.Forall₂ (fun t u => t.canonicalRoot sha256 = u.canonicalRoot sha256) ts us) :
    ts = us := by
  have hpoint : ∀ t ∈ ts, ∀ u ∈ us, t.canonicalRoot sha256 = u.canonicalRoot sha256 → t = u := by
    intro t ht u hu hroot
    refine Ssz.binds_envelopeRootRun.eq_of_value_eq (limits t (Or.inl ht)) (limits u (Or.inr hu))
      (collisionFree.mono ?_) (Except.ok.inj hroot)
    rintro s (hs | hs)
    · exact Or.inl ⟨t, ht, hs⟩
    · exact Or.inr ⟨u, hu, hs⟩
  clear limits collisionFree
  induction same with
  | nil => rfl
  | cons hroot _ ih =>
    rw [hpoint _ List.mem_cons_self _ List.mem_cons_self hroot, ih]
    intro t ht u hu
    exact hpoint t (List.mem_cons_of_mem _ ht) u (List.mem_cons_of_mem _ hu)

theorem roots_of_follows {sha256 : List UInt8 → Root} {plan : List PlannedTransaction}
    {ts us : List TransactionEnvelope} (first : List.Forall₂ (Follows sha256) ts plan)
    (second : List.Forall₂ (Follows sha256) us plan) :
    List.Forall₂ (fun t u => t.canonicalRoot sha256 = u.canonicalRoot sha256) ts us := by
  induction first generalizing us with
  | nil =>
    cases second
    exact .nil
  | cons hfirst _ ih =>
    cases second with
    | cons hsecond hrest => exact .cons (hfirst.1.trans hsecond.1.symm) (ih hrest)

section
variable {sha256 : List UInt8 → Root} {adapter : LocalReferenceNetworkConsensusAdapter}
variable {origin : NetworkOrigin} {header : ConsensusHeader} {body : ConsensusBody}
variable {sidecar : ConsensusSidecar}

/-- The engine of a scenario. -/
def scenarioEngine (scenario : LocalReferenceScenario) : ReferenceExecutionEngine :=
  ⟨scenario.preStateRoot, scenario.materializedState, scenario.plannedTransactions⟩

/-- A block is accepted exactly when it is wrapped consistently, its transactions are revalidated
and it has the content of the scenario. -/
theorem validateGossipBlock_eq_accept_iff :
    adapter.validateGossipBlock sha256 origin header body sidecar = .ok .accept ↔
      (∃ blockRoot credential,
        Wrapped sha256 adapter.runtime header body sidecar blockRoot credential) ∧
      (∀ t ∈ body.transactions, (adapter.runtime.importServices sha256 adapter.scenario
        adapter.admissionTransactions).revalidator t
          adapter.runtime.importConfig.multiAuthorizationPolicy = .ok ()) ∧
      ReferenceWitnessScenarioPreparer.prepareWitness sha256 ⟨adapter.scenario.preStateRoot,
        adapter.scenario.materializedState, adapter.scenario.block.sidecar.witnesses⟩ header
          sidecar = .ok () ∧
      (scenarioEngine adapter.scenario).executeBlock sha256 body.transactions =
        .ok ((scenarioEngine adapter.scenario).plannedOutcome sha256) ∧
      ((scenarioEngine adapter.scenario).plannedOutcome sha256).postStateRoot = header.stateRoot ∧
      ((scenarioEngine adapter.scenario).plannedOutcome sha256).receiptsRoot =
        header.receiptsRoot := by
  rw [LocalReferenceNetworkConsensusAdapter.validateGossipBlock,
    reportOutcome_eq_accept_iff consensus_not_accept]
  constructor
  · rintro ⟨o, ho⟩
    obtain ⟨blockRoot, credential, executed, haccepted, -⟩ := (importBlock_eq_ok_iff o).mp ho
    have hexecuted : (scenarioEngine adapter.scenario).executeBlock sha256 body.transactions =
        .ok executed := haccepted.execution
    obtain ⟨-, -, -, rfl⟩ := (ReferenceExecutionEngine.executeBlock_eq_ok_iff
      sha256 executed).mp hexecuted
    exact ⟨⟨blockRoot, credential, haccepted.headerRoot, haccepted.witnessBytes,
      haccepted.bodyRoot, haccepted.resolved, haccepted.signed, haccepted.sidecarRoot,
      haccepted.commitment⟩, haccepted.revalidated, haccepted.prepared, hexecuted,
      haccepted.postState, haccepted.receipts⟩
  · rintro ⟨⟨blockRoot, credential, hwrapped⟩, hrevalidated, hprepared, hexecuted, hpost,
      hreceipts⟩
    refine ⟨_, (importBlock_eq_ok_iff _).mpr ⟨blockRoot, credential,
      (scenarioEngine adapter.scenario).plannedOutcome sha256, ?_, rfl⟩⟩
    exact
      { headerRoot := hwrapped.headerRoot
        witnessBytes := hwrapped.witnessBytes
        bodyRoot := hwrapped.bodyRoot
        resolved := hwrapped.resolved
        signed := hwrapped.signed
        revalidated := hrevalidated
        sidecarRoot := hwrapped.sidecarRoot
        commitment := hwrapped.commitment
        prepared := hprepared
        execution := hexecuted
        postState := hpost
        receipts := hreceipts }

/-- Two nodes behind one scenario accept the same content, whatever their runtimes. -/
theorem sameContent_of_accepted {adapter' : LocalReferenceNetworkConsensusAdapter}
    {origin' : NetworkOrigin} {header' : ConsensusHeader} {body' : ConsensusBody}
    {sidecar' : ConsensusSidecar} (sameScenario : adapter'.scenario = adapter.scenario)
    (limits : ∀ t, t ∈ body.transactions ∨ t ∈ body'.transactions → t.WithinLimits)
    (collisionFree : Set.InjOn sha256 (transactionStrings sha256 body.transactions ∪
      transactionStrings sha256 body'.transactions))
    (accepted : adapter.validateGossipBlock sha256 origin header body sidecar = .ok .accept)
    (accepted' : adapter'.validateGossipBlock sha256 origin' header' body' sidecar' =
      .ok .accept) : SameContent header header' body body' := by
  obtain ⟨-, -, hprepared, hexecuted, hpost, hreceipts⟩ :=
    validateGossipBlock_eq_accept_iff.mp accepted
  obtain ⟨-, -, hprepared', hexecuted', hpost', hreceipts'⟩ :=
    validateGossipBlock_eq_accept_iff.mp accepted'
  rw [sameScenario] at hprepared' hexecuted' hpost' hreceipts'
  obtain ⟨hcommitted, -⟩ := (prepareWitness_eq_ok_iff sha256 _ _ _).mp hprepared
  obtain ⟨hcommitted', -⟩ := (prepareWitness_eq_ok_iff sha256 _ _ _).mp hprepared'
  obtain ⟨-, -, hfollows, -⟩ :=
    (ReferenceExecutionEngine.executeBlock_eq_ok_iff sha256 _).mp hexecuted
  obtain ⟨-, -, hfollows', -⟩ :=
    (ReferenceExecutionEngine.executeBlock_eq_ok_iff sha256 _).mp hexecuted'
  refine ⟨(transactions_eq_of_roots limits collisionFree ?_).symm, hpost'.symm.trans hpost,
    hreceipts'.symm.trans hreceipts, hcommitted'.symm.trans hcommitted⟩
  exact roots_of_follows hfollows hfollows'

end

/-- A scenario determines the content of the blocks accepted for it, across runtimes, and it
determines nothing else: once a block is accepted, the same node accepts exactly the blocks with
that content that are wrapped consistently and signed. -/
theorem accepted_blocks_agree (sha256 : List UInt8 → Root)
    (adapter : LocalReferenceNetworkConsensusAdapter) (origin : NetworkOrigin)
    (header header' : ConsensusHeader) (body body' : ConsensusBody)
    (sidecar sidecar' : ConsensusSidecar)
    (limits : ∀ t, t ∈ body.transactions ∨ t ∈ body'.transactions → t.WithinLimits)
    (collisionFree : Set.InjOn sha256 (transactionStrings sha256 body.transactions ∪
      transactionStrings sha256 body'.transactions))
    (accepted : adapter.validateGossipBlock sha256 origin header body sidecar = .ok .accept) :
    (∀ (adapter' : LocalReferenceNetworkConsensusAdapter) (origin' : NetworkOrigin),
      adapter'.scenario = adapter.scenario →
      adapter'.validateGossipBlock sha256 origin' header' body' sidecar' = .ok .accept →
        SameContent header header' body body') ∧
    ∀ origin', adapter.validateGossipBlock sha256 origin' header' body' sidecar' = .ok .accept ↔
      (∃ blockRoot credential,
        Wrapped sha256 adapter.runtime header' body' sidecar' blockRoot credential) ∧
      SameContent header header' body body' := by
  refine ⟨fun adapter' origin' hscenario haccepted =>
    sameContent_of_accepted hscenario limits collisionFree accepted haccepted, ?_⟩
  intro origin'
  constructor
  · intro haccepted
    exact ⟨(validateGossipBlock_eq_accept_iff.mp haccepted).1,
      sameContent_of_accepted rfl limits collisionFree accepted haccepted⟩
  · rintro ⟨hwrapped, hsame⟩
    obtain ⟨-, hrevalidated, hprepared, hexecuted, hpost, hreceipts⟩ :=
      validateGossipBlock_eq_accept_iff.mp accepted
    refine validateGossipBlock_eq_accept_iff.mpr ⟨hwrapped, ?_, ?_, ?_, ?_, ?_⟩
    · rw [hsame.transactions]
      exact hrevalidated
    · rw [prepareWitness_eq_ok_iff] at hprepared ⊢
      rw [hsame.executionWitnessesRoot]
      exact hprepared
    · rw [hsame.transactions]
      exact hexecuted
    · rw [hsame.stateRoot]
      exact hpost
    · rw [hsame.receiptsRoot]
      exact hreceipts

theorem unsignedTransfer_withinLimits : unsignedTransfer.WithinLimits :=
  ⟨by decide, by decide, by decide⟩

theorem unsignedTransfer_collisionFree :
    Set.InjOn Sha256.digest (transactionStrings Sha256.digest [unsignedTransfer]) := by
  have hlisted : Set.InjOn Sha256.digest
      {s | s ∈ preimages (Ssz.envelopeRootRun Sha256.digest unsignedTransfer)} :=
    injOn_of_nodup (by decide +kernel)
  apply hlisted.mono
  rintro s ⟨t, ht, hs⟩
  rwa [List.mem_singleton.mp ht] at hs

/-- The sample block under another transactions root, in the header and in the body. -/
theorem accepted_blocks_agree_sample :
    sampleBlockAdapter.validateGossipBlock Sha256.digest .testHarness
      { unsignedScenario.block.header.toConsensus with transactionsRoot := padTo 32 [7] }
      { unsignedScenario.block.body.toConsensus with transactionsRoot := .ok (padTo 32 [7]) }
      (sidecarWith []).toConsensus = .ok .accept := by
  have haccepted := sidecarWith_accepted []
  obtain ⟨⟨blockRoot, credential, hwrapped⟩, -⟩ := validateGossipBlock_eq_accept_iff.mp haccepted
  obtain ⟨-, hexact⟩ := accepted_blocks_agree Sha256.digest sampleBlockAdapter .testHarness
    unsignedScenario.block.header.toConsensus
    { unsignedScenario.block.header.toConsensus with transactionsRoot := padTo 32 [7] }
    unsignedScenario.block.body.toConsensus
    { unsignedScenario.block.body.toConsensus with transactionsRoot := .ok (padTo 32 [7]) }
    (sidecarWith []).toConsensus (sidecarWith []).toConsensus
    (by
      rintro t (ht | ht)
      all_goals
        rw [List.mem_singleton.mp ht]
        exact unsignedTransfer_withinLimits)
    (by
      rw [Set.union_self]
      exact unsignedTransfer_collisionFree)
    haccepted
  refine (hexact .testHarness).mpr ⟨⟨blockRoot, credential, ?_⟩, rfl, rfl, rfl, rfl⟩
  exact
    { headerRoot := hwrapped.headerRoot
      witnessBytes := hwrapped.witnessBytes
      bodyRoot := rfl
      resolved := hwrapped.resolved
      signed := hwrapped.signed
      sidecarRoot := hwrapped.sidecarRoot
      commitment := hwrapped.commitment }

end ShellCli
