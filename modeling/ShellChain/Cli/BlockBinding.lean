import Mathlib.Data.List.Perm.Subperm
import ShellChain.Cli.AdapterAgreement
import ShellChain.State.Witness

/-!
# What an accepted block is bound to

Three links between a block and what is checked for it go through a value that
is only reported. A body transaction is looked up by its payload root, so the
admission table does not notice a root that is looked up twice. The body's
transactions root is the one it stores. The witnesses that are prepared are
those of the scenario, whatever the sidecar holds. Each link is exact under a
condition on the inputs, stated here.
-/

namespace ShellCli

open ByteCodec ShellPrimitives ShellCrypto ShellMempool ShellState ShellExecution ShellConsensus
open ShellNetwork SortedMap Except

/-! ## Executed once -/

/-- The payload roots of some transactions, in order. -/
def payloadRoots (sha256 : List UInt8 → Root) (transactions : List TransactionEnvelope) :
    List Root :=
  transactions.map fun t => (Ssz.payloadRootRun sha256 t.payload).value

section
variable {sha256 : List UInt8 → Root} {runtime : LocalReferenceRuntime}
variable {scenario : LocalReferenceScenario}

/-- Aligned lists leave no admission transaction without an entry. -/
theorem entryRoots_eq_payloadRoots (shape : validateScenarioShape scenario = .ok ()) :
    (admissionEntries scenario).map (entryRoot sha256) =
      payloadRoots sha256 scenario.admissionTransactions := by
  obtain ⟨hadmission, -, hmaterials⟩ :=
    LocalReferenceRuntime.validateScenarioShape_eq_ok_iff.mp shape
  have hfirsts : (admissionEntries scenario).map Prod.fst = scenario.admissionTransactions :=
    List.map_fst_zip (by omega)
  rw [← hfirsts, payloadRoots, List.map_map]
  rfl

/-- Every payload root of an accepted body is that of an admission transaction. -/
theorem payloadRoots_subset {o : LocalReferenceFlowOutcome}
    (accepted : runtime.run sha256 scenario = .ok o) :
    payloadRoots sha256 scenario.block.body.transactions ⊆
      payloadRoots sha256 scenario.admissionTransactions := by
  obtain ⟨hshape, -, table, hbuilt, himported⟩ :=
    (LocalReferenceRuntime.run_eq_ok_iff o).mp accepted
  obtain ⟨_, _, _, hpassed, -⟩ := (importBlock_eq_ok_iff _).mp himported
  intro root hroot
  obtain ⟨t, ht, rfl⟩ := List.mem_map.mp hroot
  obtain ⟨entry, hfound, -⟩ := (revalidate_eq_ok_iff _ t
    runtime.importConfig.multiAuthorizationPolicy).mp (hpassed.revalidated t ht)
  obtain ⟨hmem, hentry⟩ := mem_of_get?_table hbuilt hfound
  rw [← entryRoots_eq_payloadRoots hshape, ← hentry]
  exact List.mem_map_of_mem hmem

/-- A body without a repeated root uses every admission transaction exactly once. -/
theorem payloadRoots_perm {o : LocalReferenceFlowOutcome}
    (accepted : runtime.run sha256 scenario = .ok o)
    (distinct : (payloadRoots sha256 scenario.block.body.transactions).Nodup) :
    (payloadRoots sha256 scenario.block.body.transactions).Perm
      (payloadRoots sha256 scenario.admissionTransactions) := by
  obtain ⟨hshape, -⟩ := (LocalReferenceRuntime.run_eq_ok_iff o).mp accepted
  obtain ⟨hadmission, -⟩ := LocalReferenceRuntime.validateScenarioShape_eq_ok_iff.mp hshape
  apply (List.Nodup.subperm distinct (payloadRoots_subset accepted)).perm_of_length_le
  rw [payloadRoots, payloadRoots, List.length_map, List.length_map]
  omega

theorem payloadRoots_nodup_iff (transactions : List TransactionEnvelope) :
    (payloadRoots sha256 transactions).Nodup ↔
      transactions.Pairwise fun t u => t.payloadRoot sha256 ≠ u.payloadRoot sha256 := by
  rw [payloadRoots, List.Nodup, List.pairwise_map]
  have hroots : ∀ t u : TransactionEnvelope,
      (Ssz.payloadRootRun sha256 t.payload).value ≠ (Ssz.payloadRootRun sha256 u.payload).value ↔
        t.payloadRoot sha256 ≠ u.payloadRoot sha256 := by
    intro t u
    rw [TransactionEnvelope.payloadRoot, TransactionEnvelope.payloadRoot,
      TransactionPayloadSsz.hashTreeRoot, TransactionPayloadSsz.hashTreeRoot, ne_eq, ne_eq,
      Except.ok.injEq]
  simp only [hroots]

end

/-- In a successful run the body is the admission list in some order, each payload root once,
if and only if the body does not repeat a payload root. -/
theorem executed_once_iff (sha256 : List UInt8 → Root) (runtime : LocalReferenceRuntime)
    (scenario : LocalReferenceScenario) (o : LocalReferenceFlowOutcome)
    (accepted : runtime.run sha256 scenario = .ok o) :
    (payloadRoots sha256 scenario.block.body.transactions).Perm
        (payloadRoots sha256 scenario.admissionTransactions) ∧
      (payloadRoots sha256 scenario.block.body.transactions).Nodup ↔
    scenario.block.body.transactions.Pairwise fun t u =>
      t.payloadRoot sha256 ≠ u.payloadRoot sha256 := by
  rw [← payloadRoots_nodup_iff]
  constructor
  · rintro ⟨-, hdistinct⟩
    exact hdistinct
  · intro hdistinct
    exact ⟨payloadRoots_perm accepted hdistinct, hdistinct⟩

/-! ### Two transfers, in the block in either order or one of them twice -/

/-- Another transfer of the same account, authorized the same way. -/
def secondTransfer : TransactionEnvelope :=
  let payload : TransactionPayloadSsz := ⟨.basic
    { chainId := ⟨⟨zeros 32⟩⟩, nonce := 2, gasLimit := 21000
      fees := ⟨⟨⟨zeros 32⟩⟩, ⟨⟨zeros 32⟩⟩, ⟨⟨zeros 32⟩⟩⟩
      toAddress := zeros 20, value := ⟨⟨zeros 32⟩⟩, input := []
      accessCommitment := zeros 32 }⟩
  ⟨payload, [⟨1, (Ssz.payloadRootRun Sha256.digest payload).value, [0xAA]⟩]⟩

theorem admitted_secondTransfer :
    ∃ v, Logged.outcome (echoRuntime.validateTransaction Sha256.digest secondTransfer
      [⟨[0xAA]⟩]) = .ok v := by
  refine ⟨_, (AdmissionPipeline.admitAndVerify_eq_ok_iff _).mpr ⟨⟨⟨?_, ?_, ?_, ?_, ?_, ?_⟩, rfl⟩,
    ?_, rfl⟩⟩
  · exact List.cons_ne_nil _ _
  · exact List.forall_mem_singleton.mpr rfl
  · exact List.forall_mem_singleton.mpr (by decide)
  · exact Nat.le_refl _
  · exact Nat.le_refl _
  · intro n hn
    obtain rfl := Option.some.inj hn
    exact ⟨by decide, by decide⟩
  · intro i a m ha hm
    cases i with
    | succ i => cases hm
    | zero =>
      obtain rfl := Option.some.inj ha
      obtain rfl := Option.some.inj hm
      rfl

/-- The admission list of both transfers. -/
def transferEntries : List AdmissionEntry :=
  [(AdmissionPipeline.authorizedTransfer, [⟨[0xAA]⟩]), (secondTransfer, [⟨[0xAA]⟩])]

theorem admitted_transferEntries : ∀ entry ∈ transferEntries,
    ∃ v, Logged.outcome (echoRuntime.validateTransaction Sha256.digest entry.1 entry.2) =
      .ok v := by
  intro entry hentry
  rcases List.mem_pair.mp hentry with rfl | rfl
  · exact admitted_authorizedTransfer
  · exact admitted_secondTransfer

theorem transferRoots_ne :
    (Ssz.payloadRootRun Sha256.digest bareEnvelope.payload).value ≠
      (Ssz.payloadRootRun Sha256.digest secondTransfer.payload).value := by
  decide +kernel

/-- A block of two transactions over the list of both transfers. -/
theorem wellFormed_transfers (t u : TransactionEnvelope) :
    WellFormed Sha256.digest (idleScenario [t, u] transferEntries) where
  shape := rfl
  distinct := by
    refine List.nodup_cons.mpr ⟨?_, List.nodup_singleton _⟩
    intro h
    exact transferRoots_ne (List.mem_singleton.mp h)

/-- Such a block is accepted whichever of the transfers it holds. -/
theorem run_transfers {t u : TransactionEnvelope}
    (listed : ∀ v ∈ [t, u], v ∈ transferEntries.map Prod.fst) :
    ∃ o, echoRuntime.run Sha256.digest (idleScenario [t, u] transferEntries) = .ok o := by
  have hwell := wellFormed_transfers t u
  refine run_isOk_iff.mpr ⟨hwell, ?_, ?_⟩
  · refine (mapM_isOk_iff _ _).mpr ?_
    intro entry hentry
    simp only [mapError_eq_ok_iff]
    exact admitted_transferEntries entry hentry
  · refine ⟨_, (importBlock_eq_ok_iff _).mpr ⟨_, _, _, accepted_idleScenario ?_, rfl⟩⟩
    intro v hv
    obtain ⟨entry, hentry, rfl⟩ := List.mem_map.mp (listed v hv)
    exact ⟨entry, (get?_filled_iff hwell.distinct _ _).mpr ⟨entry, hentry, rfl, rfl⟩,
      admitted_transferEntries entry hentry⟩

/-- The block holds the two transfers the other way round. -/
def swappedScenario : LocalReferenceScenario :=
  idleScenario [secondTransfer, AdmissionPipeline.authorizedTransfer] transferEntries

theorem executed_once_iff_sample :
    (∃ o, echoRuntime.run Sha256.digest swappedScenario = .ok o) ∧
      (payloadRoots Sha256.digest swappedScenario.block.body.transactions).Perm
        (payloadRoots Sha256.digest swappedScenario.admissionTransactions) ∧
      (payloadRoots Sha256.digest swappedScenario.block.body.transactions).Nodup := by
  obtain ⟨o, ho⟩ : ∃ o, echoRuntime.run Sha256.digest swappedScenario = .ok o :=
    run_transfers (by simp [transferEntries])
  refine ⟨⟨o, ho⟩, (executed_once_iff Sha256.digest echoRuntime swappedScenario o ho).mpr ?_⟩
  refine List.pairwise_pair.mpr fun h => transferRoots_ne ?_
  exact (Except.ok.inj h).symm

/-- The block holds the first transfer twice. -/
def replayedScenario : LocalReferenceScenario :=
  idleScenario [AdmissionPipeline.authorizedTransfer, AdmissionPipeline.authorizedTransfer]
    transferEntries

/-- The run goes through, the first transaction is executed twice and the second never. -/
theorem replayed_block_accepted :
    (∃ o, echoRuntime.run Sha256.digest replayedScenario = .ok o) ∧
      ¬ (payloadRoots Sha256.digest replayedScenario.block.body.transactions).Nodup ∧
      ¬ (payloadRoots Sha256.digest replayedScenario.block.body.transactions).Perm
        (payloadRoots Sha256.digest replayedScenario.admissionTransactions) := by
  have hrepeated : ¬ (payloadRoots Sha256.digest
      replayedScenario.block.body.transactions).Nodup := by
    intro h
    exact (List.nodup_cons.mp h).1 List.mem_cons_self
  refine ⟨run_transfers (by simp [transferEntries]), hrepeated, fun hperm => hrepeated ?_⟩
  obtain ⟨hshape, hadmission⟩ := wellFormed_transfers AdmissionPipeline.authorizedTransfer
    AdmissionPipeline.authorizedTransfer
  rw [entryRoots_eq_payloadRoots hshape] at hadmission
  exact hperm.nodup_iff.mpr hadmission

/-! ## The transactions root -/

/-- An accepted body stores the root its header carries. -/
theorem bodyRoot_of_run {sha256 : List UInt8 → Root} {runtime : LocalReferenceRuntime}
    {scenario : LocalReferenceScenario} {o : LocalReferenceFlowOutcome}
    (accepted : runtime.run sha256 scenario = .ok o) :
    scenario.block.body.transactionsRoot = scenario.block.header.transactionsRoot := by
  obtain ⟨-, -, table, -, himported⟩ := (LocalReferenceRuntime.run_eq_ok_iff o).mp accepted
  obtain ⟨_, _, _, hpassed, -⟩ := (importBlock_eq_ok_iff _).mp himported
  exact Except.ok.inj hpassed.bodyRoot

/-- In a successful run the header commits to the transactions that are executed if and only if
the root the body stores is the root of its transactions. -/
theorem header_commits_to_transactions_iff (sha256 : List UInt8 → Root)
    (runtime : LocalReferenceRuntime) (scenario : LocalReferenceScenario)
    (o : LocalReferenceFlowOutcome) (accepted : runtime.run sha256 scenario = .ok o) :
    ShellFixtures.computeTransactionsRoot sha256 scenario.block.body.transactions =
        .ok scenario.block.header.transactionsRoot ↔
      ShellFixtures.computeTransactionsRoot sha256 scenario.block.body.transactions =
        .ok scenario.block.body.transactionsRoot := by
  rw [bodyRoot_of_run accepted]

/-! ### The sample block over other roots, states and witnesses -/

/-- The block of the unsigned transfer with any stored transactions root, over any state and with
any witnesses; its one step writes nothing. -/
def storedScenario (transactionsRoot : Root) (state : List (StateKey × MockProgressiveByteList))
    (witnesses : List StateWitness) : LocalReferenceScenario :=
  let engine : ReferenceExecutionEngine :=
    ⟨(materialized Sha256.digest state).root, state, idlePlan [unsignedTransfer]⟩
  let witnessesRoot := ShellFixtures.computeExecutionWitnessesRoot Sha256.digest witnesses
  { block :=
      { header :=
          { unsignedScenario.block.header with
            transactionsRoot := transactionsRoot
            executionWitnessesRoot := witnessesRoot
            stateRoot := (engine.plannedOutcome Sha256.digest).postStateRoot
            receiptsRoot := (engine.plannedOutcome Sha256.digest).receiptsRoot }
        body := ⟨[unsignedTransfer], transactionsRoot⟩
        sidecar := ⟨padTo 32 [1], witnessesRoot, witnesses⟩ }
    admissionTransactions := [AdmissionPipeline.authorizedTransfer]
    preStateRoot := engine.preStateRoot
    materializedState := state
    plannedTransactions := engine.plannedTransactions
    transactionAuthorizationMaterials := [[⟨[0xAA]⟩]] }

section
variable {transactionsRoot : Root} {state : List (StateKey × MockProgressiveByteList)}
variable {witnesses : List StateWitness}

theorem accepted_storedScenario (increasing : (state.map Prod.fst).Pairwise StateKey.Before)
    (verified : (materialized Sha256.digest state).verifyWitnesses witnesses
      (materialized Sha256.digest state).root = .ok ()) :
    let scenario := storedScenario transactionsRoot state witnesses
    Accepted Sha256.digest ⟨echoRuntime.importConfig⟩ scenario.block.header.toConsensus
      scenario.block.body.toConsensus scenario.block.sidecar.toConsensus
      (echoRuntime.importServices Sha256.digest scenario unsignedTable) (padTo 32 [1])
      ⟨1, [0xBB]⟩ (ReferenceExecutionEngine.plannedOutcome Sha256.digest
        ⟨(materialized Sha256.digest state).root, state, idlePlan [unsignedTransfer]⟩) where
  headerRoot := rfl
  witnessBytes maxBytes hmax := by cases hmax
  bodyRoot := rfl
  resolved := rfl
  signed := rfl
  revalidated := accepted_unsignedScenario.revalidated
  sidecarRoot := rfl
  commitment := rfl
  prepared := (prepareWitness_eq_ok_iff Sha256.digest
    ⟨(materialized Sha256.digest state).root, state, witnesses⟩
    (storedScenario transactionsRoot state witnesses).block.header.toConsensus
    (storedScenario transactionsRoot state witnesses).block.sidecar.toConsensus).mpr
      ⟨rfl, _, (materializeAccumulator_eq_ok_iff _ _ _).mpr ⟨increasing, rfl⟩, rfl, verified⟩
  execution := by
    have hidle : (⟨[], []⟩ : StatePatch).Canonical := by decide
    exact ReferenceExecutionEngine.executeBlock_follows Sha256.digest increasing rfl
      (.cons ⟨rfl, hidle⟩ .nil)
  postState := rfl
  receipts := rfl

theorem run_storedScenario (increasing : (state.map Prod.fst).Pairwise StateKey.Before)
    (verified : (materialized Sha256.digest state).verifyWitnesses witnesses
      (materialized Sha256.digest state).root = .ok ()) :
    ∃ o, echoRuntime.run Sha256.digest (storedScenario transactionsRoot state witnesses) =
      .ok o := by
  obtain ⟨-, hadmitted, -⟩ := run_isOk_iff.mp run_unsignedScenario
  exact run_isOk_iff.mpr ⟨⟨rfl, List.nodup_singleton _⟩, hadmitted, _, (importBlock_eq_ok_iff _).mpr
    ⟨_, _, _, accepted_storedScenario increasing verified, rfl⟩⟩

end

/-- With the root of its transactions in it the header commits to them. -/
theorem header_commits_to_transactions_iff_sample :
    ∃ root o, ShellFixtures.computeTransactionsRoot Sha256.digest [unsignedTransfer] = .ok root ∧
      echoRuntime.run Sha256.digest (storedScenario root [] []) = .ok o ∧
      ShellFixtures.computeTransactionsRoot Sha256.digest
          (storedScenario root [] []).block.body.transactions =
        .ok (storedScenario root [] []).block.header.transactionsRoot := by
  obtain ⟨root, hroot⟩ : ∃ root,
      ShellFixtures.computeTransactionsRoot Sha256.digest [unsignedTransfer] = .ok root := ⟨_, rfl⟩
  obtain ⟨o, ho⟩ := @run_storedScenario root [] [] List.Pairwise.nil rfl
  exact ⟨root, o, hroot, ho, (header_commits_to_transactions_iff Sha256.digest echoRuntime
    (storedScenario root [] []) o ho).mpr hroot⟩

/-- The stored root of the sample block is zero, and that of its transactions is not. -/
theorem uncommitted_transactions_accepted :
    (∃ o, echoRuntime.run Sha256.digest unsignedScenario = .ok o) ∧
      ShellFixtures.computeTransactionsRoot Sha256.digest
          unsignedScenario.block.body.transactions ≠
        .ok unsignedScenario.block.header.transactionsRoot := by
  refine ⟨run_unsignedScenario, ?_⟩
  decide +kernel

/-! ## The witnesses -/

/-- The header commits to the witnesses, and they verify against the scenario's state. -/
structure CarriesVerifiedWitnesses (sha256 : List UInt8 → Root) (scenario : LocalReferenceScenario)
    (header : ConsensusHeader) (witnesses : List StateWitness) : Prop where
  committed : ShellFixtures.computeExecutionWitnessesRoot sha256 witnesses =
    header.executionWitnessesRoot
  verified : ∃ acc, materializeAccumulator sha256 scenario.materializedState = .ok acc ∧
    acc.verifyWitnesses witnesses scenario.preStateRoot = .ok ()

/-- What has been prepared for an accepted block are the scenario's own witnesses. -/
theorem scenario_witnesses_carried {sha256 : List UInt8 → Root}
    {adapter : LocalReferenceNetworkConsensusAdapter} {origin : NetworkOrigin}
    {header : ConsensusHeader} {body : ConsensusBody} {sidecar : ConsensusSidecar}
    (accepted : adapter.validateGossipBlock sha256 origin header body sidecar = .ok .accept) :
    CarriesVerifiedWitnesses sha256 adapter.scenario header
      adapter.scenario.block.sidecar.witnesses := by
  obtain ⟨outcome, himported⟩ := (reportOutcome_eq_accept_iff consensus_not_accept _).mp accepted
  obtain ⟨_, _, _, hpassed, -⟩ := (importBlock_eq_ok_iff outcome).mp himported
  obtain ⟨hcommitted, acc, hacc, -, hverified⟩ := (prepareWitness_eq_ok_iff sha256
    ⟨adapter.scenario.preStateRoot, adapter.scenario.materializedState,
      adapter.scenario.block.sidecar.witnesses⟩ header sidecar).mp hpassed.prepared
  exact ⟨hcommitted, acc, hacc, hverified⟩

/-- An accepted gossip block carries committed and verified witnesses if its sidecar holds the
scenario's, and, unless the two commitments collide, only then. -/
theorem gossip_witnesses_carried_iff (sha256 : List UInt8 → Root)
    (adapter : LocalReferenceNetworkConsensusAdapter) (origin : NetworkOrigin)
    (header : ConsensusHeader) (body : ConsensusBody) (s : CanonicalBlockSidecar)
    (accepted : adapter.validateGossipBlock sha256 origin header body s.toConsensus =
      .ok .accept) :
    (s.witnesses = adapter.scenario.block.sidecar.witnesses →
      CarriesVerifiedWitnesses sha256 adapter.scenario header s.witnesses) ∧
    ((∀ ws ∈ [s.witnesses, adapter.scenario.block.sidecar.witnesses],
        ∀ w ∈ ws, ShellFixtures.Measurable w) →
      Set.InjOn sha256
        {b | b ∈ Hashing.preimages (ShellFixtures.executionWitnessesRootRun sha256 s.witnesses) ∨
          b ∈ Hashing.preimages (ShellFixtures.executionWitnessesRootRun sha256
            adapter.scenario.block.sidecar.witnesses)} →
      CarriesVerifiedWitnesses sha256 adapter.scenario header s.witnesses →
      s.witnesses = adapter.scenario.block.sidecar.witnesses) := by
  have hown := scenario_witnesses_carried accepted
  constructor
  · intro hsame
    rw [hsame]
    exact hown
  · intro hmeasured collisionFree hcarried
    apply ShellFixtures.binds_executionWitnessesRootRun.eq_of_value_eq
      (hmeasured _ (by simp)) (hmeasured _ (by simp)) collisionFree
    exact hcarried.committed.trans hown.committed.symm

/-! ### A sidecar with other witnesses -/

/-- The block adapter of the sample scenario. -/
def sampleBlockAdapter : LocalReferenceNetworkConsensusAdapter :=
  ⟨echoRuntime, unsignedScenario, admissionTable Sha256.digest unsignedScenario⟩

theorem tryNew_sampleBlockAdapter :
    LocalReferenceNetworkConsensusAdapter.tryNew Sha256.digest echoRuntime unsignedScenario =
      .ok sampleBlockAdapter :=
  (consensus_tryNew_eq_ok_iff _).mpr ⟨⟨rfl, List.nodup_singleton _⟩, rfl⟩

/-- The declared roots of the sample's sidecar over any witnesses. -/
def sidecarWith (witnesses : List StateWitness) : CanonicalBlockSidecar :=
  { unsignedScenario.block.sidecar with witnesses := witnesses }

/-- Only the declared roots of a sidecar are looked at. -/
theorem sidecarWith_accepted (witnesses : List StateWitness) :
    sampleBlockAdapter.validateGossipBlock Sha256.digest .testHarness
      unsignedScenario.block.header.toConsensus unsignedScenario.block.body.toConsensus
      (sidecarWith witnesses).toConsensus = .ok .accept := by
  obtain ⟨-, -, himported⟩ := run_isOk_iff.mp run_unsignedScenario
  exact (reportOutcome_eq_accept_iff consensus_not_accept _).mpr himported

/-- A sidecar with a witness for a key the state does not have is accepted. -/
theorem foreign_witnesses_accepted :
    LocalReferenceNetworkConsensusAdapter.tryNew Sha256.digest echoRuntime unsignedScenario =
        .ok sampleBlockAdapter ∧
      sampleBlockAdapter.validateGossipBlock Sha256.digest .testHarness
        unsignedScenario.block.header.toConsensus unsignedScenario.block.body.toConsensus
        (sidecarWith [⟨sampleAccount, [1], []⟩]).toConsensus = .ok .accept ∧
      ¬ CarriesVerifiedWitnesses Sha256.digest unsignedScenario
        unsignedScenario.block.header.toConsensus [⟨sampleAccount, [1], []⟩] := by
  refine ⟨tryNew_sampleBlockAdapter, sidecarWith_accepted _, ?_⟩
  rintro ⟨-, acc, hacc, hverified⟩
  obtain rfl : InMemoryAccumulator.new = acc := Except.ok.inj hacc
  cases hverified

/-! ### A sidecar with the scenario's witness -/

/-- The sample block over one account, with the witness of that account. -/
def witnessedScenario : LocalReferenceScenario :=
  storedScenario (zeros 32) [(sampleAccount, [1])] [⟨sampleAccount, [1], []⟩]

theorem verified_sampleAccount :
    (materialized Sha256.digest [(sampleAccount, [1])]).verifyWitnesses [⟨sampleAccount, [1], []⟩]
      (materialized Sha256.digest [(sampleAccount, [1])]).root = .ok () := by
  have hfiled : Filed (materialized Sha256.digest [(sampleAccount, [1])]).leaves :=
    filed_insertAll filed_empty [(sampleAccount, [1])]
  refine (verifyWitnesses_eq_ok_iff hfiled _ _).mpr ⟨List.pairwise_singleton _ _, ?_⟩
  intro w hw
  rw [List.mem_singleton.mp hw]
  exact ⟨rfl, by rw [materialized_leaves]; decide, rfl⟩

/-- Again whatever the sidecar holds. -/
theorem witnessedScenario_accepted (witnesses : List StateWitness) :
    LocalReferenceNetworkConsensusAdapter.validateGossipBlock Sha256.digest
      ⟨echoRuntime, witnessedScenario, unsignedTable⟩ .testHarness
      witnessedScenario.block.header.toConsensus witnessedScenario.block.body.toConsensus
      { witnessedScenario.block.sidecar with witnesses := witnesses }.toConsensus =
        .ok .accept :=
  (reportOutcome_eq_accept_iff consensus_not_accept _).mpr ⟨_, (importBlock_eq_ok_iff _).mpr
    ⟨_, _, _, accepted_storedScenario (List.pairwise_singleton _ _) verified_sampleAccount, rfl⟩⟩

/-- The two witness lists of the sample are hashed without a collision. -/
theorem sample_commitments_collisionFree :
    Set.InjOn Sha256.digest {b |
      b ∈ Hashing.preimages (ShellFixtures.executionWitnessesRootRun Sha256.digest
        [⟨sampleAccount, [2], []⟩]) ∨
      b ∈ Hashing.preimages (ShellFixtures.executionWitnessesRootRun Sha256.digest
        [⟨sampleAccount, [1], []⟩])} := by
  have hlisted : Set.InjOn Sha256.digest {b | b ∈
      Hashing.preimages (ShellFixtures.executionWitnessesRootRun Sha256.digest
        [⟨sampleAccount, [2], []⟩]) ++
      Hashing.preimages (ShellFixtures.executionWitnessesRootRun Sha256.digest
        [⟨sampleAccount, [1], []⟩])} :=
    Hashing.injOn_of_nodup (by decide +kernel)
  apply hlisted.mono
  intro b hb
  exact List.mem_append.mpr hb

/-- The account's witness is carried, one with another value is not. -/
theorem gossip_witnesses_carried_iff_sample :
    CarriesVerifiedWitnesses Sha256.digest witnessedScenario
        witnessedScenario.block.header.toConsensus [⟨sampleAccount, [1], []⟩] ∧
      ¬ CarriesVerifiedWitnesses Sha256.digest witnessedScenario
        witnessedScenario.block.header.toConsensus [⟨sampleAccount, [2], []⟩] := by
  constructor
  · exact (gossip_witnesses_carried_iff Sha256.digest
      ⟨echoRuntime, witnessedScenario, unsignedTable⟩ .testHarness _ _
      witnessedScenario.block.sidecar (witnessedScenario_accepted _)).1 rfl
  · intro hcarried
    have hsame := (gossip_witnesses_carried_iff Sha256.digest
      ⟨echoRuntime, witnessedScenario, unsignedTable⟩ .testHarness _ _
      { witnessedScenario.block.sidecar with witnesses := [⟨sampleAccount, [2], []⟩] }
      (witnessedScenario_accepted _)).2 ?_ sample_commitments_collisionFree hcarried
    · exact absurd hsame (by decide)
    · intro ws hws
      rcases List.mem_pair.mp hws with rfl | rfl
      · exact List.forall_mem_singleton.mpr ⟨by decide, by decide⟩
      · exact List.forall_mem_singleton.mpr ⟨by decide, by decide⟩

end ShellCli
