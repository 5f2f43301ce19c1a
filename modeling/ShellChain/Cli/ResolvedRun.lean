import ShellChain.Cli.ChainedBlocks
import ShellChain.Fixtures.ResolvedScenario

/-!
# From vectors to a run

The runtime is run on scenarios the loader has resolved. The transactions of
these carry no authorization, so each is submitted with a placeholder: a fixed
signature, and key material of zeros. Of the checks of a run the loader has
made most already. What decides is whether two transactions share a payload,
whether the services accept the placeholders and the proposer, and whether the
plan ends at the declared roots.
-/

namespace ShellCli

open ByteCodec ShellPrimitives ShellCrypto ShellMempool ShellState ShellExecution ShellConsensus
open ShellFixtures SortedMap Except

/-! ## Building the scenario -/

def OwnedAuthorizationMaterial.referenceDefault : OwnedAuthorizationMaterial :=
  ⟨List.replicate 32 0⟩

section
variable (sha256 : List UInt8 → Root)

/-- The error side is the panic of `expect`. -/
def synthesizeReferenceAdmissionTransaction (transaction : TransactionEnvelope) :
    Except PrimitiveError TransactionEnvelope :=
  if !transaction.authorizations.isEmpty then .ok transaction
  else do
    let payloadRoot ← transaction.payloadRoot sha256
    .ok { transaction with authorizations := [⟨0, payloadRoot, List.replicate 64 0xA5⟩] }

def plannedStep (step : RootCheckScenarioStep) : PlannedTransaction :=
  ⟨step.transactionRoot,
    ⟨⟨[step.key], [step.newLeafValue]⟩, ⟨step.receiptStatusCode, step.receiptOutput⟩⟩⟩

def referenceMaterials (transaction : TransactionEnvelope) : List OwnedAuthorizationMaterial :=
  let authorizationCount :=
    if transaction.authorizations.isEmpty then 1 else transaction.authorizations.length
  (List.range authorizationCount).map fun _ => .referenceDefault

/-- Everything but the admission transactions is copied from the loaded scenario. -/
def LocalReferenceScenario.assemble (scenario : RootCheckScenario)
    (admissionTransactions : List TransactionEnvelope) : LocalReferenceScenario where
  block :=
    { header :=
        { blockRoot := scenario.header.blockRoot
          blockNumber := scenario.header.blockNumber
          timestamp := scenario.header.timestamp
          parentRoot := scenario.header.parentRoot
          witnessBytes := scenario.header.witnessBytes
          transactionsRoot := scenario.header.transactionsRoot
          executionWitnessesRoot := scenario.header.executionWitnessesRoot
          stateRoot := scenario.header.stateRoot
          receiptsRoot := scenario.header.receiptsRoot
          proposerSignature := scenario.header.proposerSignature
          proposerIndexHint := some scenario.header.proposerIndex }
      body := ⟨scenario.transactions, scenario.header.transactionsRoot⟩
      sidecar := ⟨scenario.sidecar.blockRoot, scenario.header.executionWitnessesRoot,
        scenario.witnesses⟩ }
  admissionTransactions := admissionTransactions
  preStateRoot := scenario.preStateRoot
  materializedState := scenario.materializedState
  plannedTransactions := scenario.steps.map plannedStep
  transactionAuthorizationMaterials := scenario.transactions.map referenceMaterials

def LocalReferenceScenario.fromRootCheckScenario (scenario : RootCheckScenario) :
    Except PrimitiveError LocalReferenceScenario := do
  let admissionTransactions ←
    scenario.transactions.mapM (synthesizeReferenceAdmissionTransaction sha256)
  .ok (.assemble scenario admissionTransactions)

/-! ## What is submitted -/

/-- An unsigned transaction with the placeholder authorization. -/
def placeholderTransaction (transaction : TransactionEnvelope) : TransactionEnvelope :=
  ⟨transaction.payload, [⟨0, (Ssz.payloadRootRun sha256 transaction.payload).value,
    List.replicate 64 0xA5⟩]⟩

theorem synthesize_of_unsigned {transaction : TransactionEnvelope}
    (unsigned : transaction.authorizations = []) :
    synthesizeReferenceAdmissionTransaction sha256 transaction =
      .ok (placeholderTransaction sha256 transaction) := by
  rw [synthesizeReferenceAdmissionTransaction, unsigned]
  rfl

theorem referenceMaterials_of_unsigned {transaction : TransactionEnvelope}
    (unsigned : transaction.authorizations = []) :
    referenceMaterials transaction = [.referenceDefault] := by
  rw [referenceMaterials, unsigned]
  rfl

end

section
variable {sha256 : List UInt8 → Root} {scenario : RootCheckScenario}

theorem fromRootCheckScenario_of_unsigned
    (unsigned : ∀ t ∈ scenario.transactions, t.authorizations = []) :
    LocalReferenceScenario.fromRootCheckScenario sha256 scenario =
      .ok (.assemble scenario (scenario.transactions.map (placeholderTransaction sha256))) := by
  have hsubmitted : scenario.transactions.mapM (synthesizeReferenceAdmissionTransaction sha256) =
      .ok (scenario.transactions.map (placeholderTransaction sha256)) := by
    rw [mapM_eq_ok_iff, List.forall₂_map_right_iff, List.forall₂_same]
    intro t ht
    exact synthesize_of_unsigned sha256 (unsigned t ht)
  rw [LocalReferenceScenario.fromRootCheckScenario, hsubmitted, ok_bind]

/-- The admission entries: one for each transaction, with one material. -/
theorem admissionEntries_assemble
    (unsigned : ∀ t ∈ scenario.transactions, t.authorizations = []) :
    admissionEntries
        (.assemble scenario (scenario.transactions.map (placeholderTransaction sha256))) =
      scenario.transactions.map fun t =>
        (placeholderTransaction sha256 t, [.referenceDefault]) := by
  have hmaterials : scenario.transactions.map referenceMaterials =
      scenario.transactions.map fun _ => [.referenceDefault] :=
    List.map_congr_left fun t ht => referenceMaterials_of_unsigned (unsigned t ht)
  change (scenario.transactions.map (placeholderTransaction sha256)).zip
    (scenario.transactions.map referenceMaterials) = _
  rw [hmaterials, List.zip_map']

/-! ## The plan -/

/-- A plan that writes one witnessed key for each transaction is followed to its end. -/
theorem follows_plannedSteps (wellFormed : scenario.WellFormed sha256) :
    List.Forall₂ (Follows sha256) scenario.transactions (scenario.steps.map plannedStep) := by
  rw [List.forall₂_map_right_iff]
  refine wellFormed.steps.imp ?_
  rintro t s ⟨hroot, -⟩
  exact ⟨hroot, ⟨rfl, List.pairwise_singleton _ _⟩⟩

/-- The engine a resolved scenario is executed by. -/
def referenceEngine (scenario : RootCheckScenario) : ReferenceExecutionEngine :=
  ⟨scenario.preStateRoot, scenario.materializedState, scenario.steps.map plannedStep⟩

theorem executeBlock_referenceEngine (wellFormed : scenario.WellFormed sha256) :
    (referenceEngine scenario).executeBlock sha256 scenario.transactions =
      .ok ((referenceEngine scenario).plannedOutcome sha256) :=
  (ReferenceExecutionEngine.executeBlock_eq_ok_iff sha256 _).mpr
    ⟨wellFormed.preState.increasing, wellFormed.preState.committed,
      follows_plannedSteps wellFormed, rfl⟩

/-- The writes of some steps, oldest first. -/
def stepWrites (steps : List RootCheckScenarioStep) : List (StateKey × MockProgressiveByteList) :=
  steps.map fun s => (s.key, s.newLeafValue)

theorem flatMap_plannedStep (steps : List RootCheckScenarioStep) :
    (steps.map plannedStep).flatMap (fun p => p.plan.statePatch.writes) = stepWrites steps := by
  induction steps with
  | nil => rfl
  | cons s rest ih =>
    rw [List.map_cons, List.flatMap_cons, ih]
    rfl

/-- Every step writes a key the pre-state holds. -/
theorem written_key_held (wellFormed : scenario.WellFormed sha256) {s : RootCheckScenarioStep}
    (hs : s ∈ scenario.steps) :
    lastWritten scenario.materializedState s.key ≠ none := by
  obtain ⟨i, hi, rfl⟩ := List.getElem_of_mem hs
  have hlength := wellFormed.steps.length_eq
  obtain ⟨-, w, hw, hkey⟩ := (List.forall₂_iff_get.mp wellFormed.steps).2 i (hlength ▸ hi) hi
  have hfiled : Filed (materialized sha256 scenario.materializedState).leaves := by
    rw [materialized_leaves]
    exact filed_insertAll filed_empty _
  obtain ⟨-, hverified⟩ :=
    (verifyWitnesses_eq_ok_iff hfiled _ _).mp wellFormed.preState.verified
  obtain ⟨-, hleaf, -⟩ := hverified w hw
  have hread := get?_finalAccumulator sha256 scenario.materializedState [] w.key
  rw [finalAccumulator, List.foldl_nil, hleaf, List.flatMap_nil, List.append_nil] at hread
  intro hnone
  have hkey' : w.key = scenario.steps[i].key := hkey
  rw [hkey', hnone] at hread
  cases hread

/-- The state a resolved scenario ends in. -/
def resolvedPostState (sha256 : List UInt8 → Root) (scenario : RootCheckScenario) :
    InMemoryAccumulator :=
  finalAccumulator sha256 (materialized sha256 scenario.materializedState)
    (scenario.steps.map plannedStep)

theorem get?_resolvedPostState (key : StateKey) :
    (resolvedPostState sha256 scenario).leaves.get? (encodeStateKey key) =
      (lastWritten (scenario.materializedState ++ stepWrites scenario.steps) key).map
        (StoredLeaf.mk key) := by
  rw [resolvedPostState, get?_finalAccumulator, flatMap_plannedStep]

/-- The steps of a well-formed scenario neither add a key nor remove one. -/
theorem held_iff_held_before (wellFormed : scenario.WellFormed sha256) (key : StateKey) :
    lastWritten (scenario.materializedState ++ stepWrites scenario.steps) key = none ↔
      lastWritten scenario.materializedState key = none := by
  rw [lastWritten_append, Option.or_eq_none_iff]
  refine ⟨And.right, fun hbefore => ⟨lastWritten_eq_none ?_, hbefore⟩⟩
  rintro w hw rfl
  obtain ⟨s, hs, rfl⟩ := List.mem_map.mp hw
  exact written_key_held wellFormed hs hbefore

end

/-- A scenario that resolves is executed to its end, whatever it plans to write: no step fails and
none is left over. The state it ends in holds exactly the keys it started with, each with the
value of the last step that names it. -/
theorem resolved_plan_executes (sha256 : List UInt8 → Root) (store : FixtureStore)
    (fixture : RootCheckVector) (scenario : RootCheckScenario)
    (resolved : resolveRootCheckScenario sha256 store fixture = .ok scenario) :
    (referenceEngine scenario).executeBlock sha256 scenario.transactions =
        .ok ((referenceEngine scenario).plannedOutcome sha256) ∧
      ∀ key, (resolvedPostState sha256 scenario).leaves.get? (encodeStateKey key) =
          (lastWritten (scenario.materializedState ++ stepWrites scenario.steps) key).map
            (StoredLeaf.mk key) ∧
        ((resolvedPostState sha256 scenario).leaves.get? (encodeStateKey key) = none ↔
          (materialized sha256 scenario.materializedState).leaves.get? (encodeStateKey key) =
            none) := by
  obtain ⟨vectors, hresolves⟩ := resolveRootCheckScenario_eq_ok_iff.mp resolved
  have hwellFormed := hresolves.wellFormed
  refine ⟨executeBlock_referenceEngine hwellFormed, fun key => ⟨get?_resolvedPostState key, ?_⟩⟩
  have hbefore := get?_finalAccumulator sha256 scenario.materializedState [] key
  rw [finalAccumulator, List.foldl_nil, List.flatMap_nil, List.append_nil] at hbefore
  rw [get?_resolvedPostState, hbefore, Option.map_eq_none_iff, Option.map_eq_none_iff]
  exact held_iff_held_before hwellFormed key

/-! ## Runs -/

/-- The services accept a transaction with its placeholder. Fees and nonce are those of the payload,
whichever variant it is. -/
structure PlaceholderAdmitted (sha256 : List UInt8 → Root) (runtime : LocalReferenceRuntime)
    (transaction : TransactionEnvelope) : Prop where
  payloadLane :
    let floor :=
      leNat runtime.admissionPolicy.feeSchedule.payloadLaneBaseFee.value.bytes.toList
    match transaction.payload.payload with
    | .basic payload => floor ≤ leNat payload.fees.regular.value.bytes.toList
    | .create payload => floor ≤ leNat payload.fees.regular.value.bytes.toList
  witnessLane :
    let floor :=
      leNat runtime.admissionPolicy.feeSchedule.witnessLaneBaseFee.value.bytes.toList
    match transaction.payload.payload with
    | .basic payload => floor ≤ leNat payload.fees.maxWitnessPriorityFee.value.bytes.toList
    | .create payload => floor ≤ leNat payload.fees.maxWitnessPriorityFee.value.bytes.toList
  nonceWindow :
    ∀ n ∈ runtime.admissionStateView.bind (· (placeholderTransaction sha256 transaction)),
    let last := n.toNat + runtime.admissionPolicy.noncePolicy.maxFutureNonceGap.toNat
    match transaction.payload.payload with
    | .basic payload => n.toNat ≤ payload.nonce.toNat ∧ payload.nonce.toNat ≤ last
    | .create payload => n.toNat ≤ payload.nonce.toNat ∧ payload.nonce.toNat ≤ last
  accepted : runtime.dispatcher.verifyTransactionAuthorization 0
    ⟨List.replicate 32 0, AdmissionPipeline.policySigningRoot sha256 runtime.admissionPolicy
      (Ssz.payloadRootRun sha256 transaction.payload).value, List.replicate 64 0xA5⟩ = .ok ()

section
variable {sha256 : List UInt8 → Root} {runtime : LocalReferenceRuntime}

theorem validateTransaction_placeholder (transaction : TransactionEnvelope) :
    (∃ v, Logged.outcome (runtime.validateTransaction sha256
      (placeholderTransaction sha256 transaction) [.referenceDefault]) = .ok v) ↔
      PlaceholderAdmitted sha256 runtime transaction := by
  constructor
  · rintro ⟨v, hv⟩
    obtain ⟨⟨hscreened, -⟩, haccepted, -⟩ := (AdmissionPipeline.admitAndVerify_eq_ok_iff v).mp hv
    exact ⟨hscreened.payloadLane, hscreened.witnessLane, hscreened.nonceWindow,
      haccepted 0 _ _ rfl rfl⟩
  · rintro ⟨hpayload, hwitness, hnonce, haccepted⟩
    refine ⟨_, (AdmissionPipeline.admitAndVerify_eq_ok_iff _).mpr ⟨⟨⟨List.cons_ne_nil _ _, ?_, ?_,
      hpayload, hwitness, hnonce⟩, rfl⟩, ?_, rfl⟩⟩
    · intro a ha
      rw [List.mem_singleton.mp ha]
      rfl
    · intro a ha
      rw [List.mem_singleton.mp ha, List.length_replicate]
      decide
    · intro i a m ha hm
      match i, ha, hm with
      | 0, rfl, rfl => exact haccepted

variable {scenario : RootCheckScenario}

theorem validateScenarioShape_assemble (wellFormed : scenario.WellFormed sha256) :
    validateScenarioShape
      (.assemble scenario (scenario.transactions.map (placeholderTransaction sha256))) =
        .ok () := by
  rw [LocalReferenceRuntime.validateScenarioShape_eq_ok_iff]
  refine ⟨?_, ?_, ?_⟩
  · exact List.length_map _
  · exact (List.length_map _).trans wellFormed.steps.length_eq.symm
  · exact List.length_map _

theorem admitTransactions_assemble
    (unsigned : ∀ t ∈ scenario.transactions, t.authorizations = []) :
    (∃ vs, runtime.admitTransactions sha256
      (.assemble scenario (scenario.transactions.map (placeholderTransaction sha256))) = .ok vs) ↔
      ∀ t ∈ scenario.transactions, PlaceholderAdmitted sha256 runtime t := by
  have hentries := @admissionEntries_assemble sha256 scenario unsigned
  rw [admissionEntries] at hentries
  rw [LocalReferenceRuntime.admitTransactions, hentries, mapM_isOk_iff, List.forall_mem_map]
  simp only [mapError_eq_ok_iff, validateTransaction_placeholder]

/-- The table the placeholders are filed in. -/
def placeholderTable (sha256 : List UInt8 → Root) (transactions : List TransactionEnvelope) :
    AdmissionTable :=
  SortedMap.empty.insertAll (transactions.map fun t =>
    ((Ssz.payloadRootRun sha256 t.payload).value,
      (placeholderTransaction sha256 t, [.referenceDefault])))

theorem buildAdmissionTransactions_assemble
    (unsigned : ∀ t ∈ scenario.transactions, t.authorizations = []) (table : AdmissionTable) :
    buildAdmissionTransactionsByPayloadRoot sha256
        (scenario.transactions.map (placeholderTransaction sha256))
        (scenario.transactions.map referenceMaterials) = .ok table ↔
      (scenario.transactions.map fun t =>
        (Ssz.payloadRootRun sha256 t.payload).value).Nodup ∧
        table = placeholderTable sha256 scenario.transactions := by
  have hentries := @admissionEntries_assemble sha256 scenario unsigned
  have hzip : (scenario.transactions.map (placeholderTransaction sha256)).zip
      (scenario.transactions.map referenceMaterials) = _ := hentries
  rw [buildAdmissionTransactionsByPayloadRoot, hzip, collectAdmissionTransactions_eq_ok_iff,
    List.map_map, List.map_map]
  constructor
  · rintro ⟨hnodup, -, htable⟩
    exact ⟨hnodup, htable⟩
  · rintro ⟨hnodup, htable⟩
    exact ⟨hnodup, fun _ _ => rfl, htable⟩

/-- Every transaction finds its own placeholder. -/
theorem get?_placeholderTable {transactions : List TransactionEnvelope}
    (distinct : (transactions.map fun t => (Ssz.payloadRootRun sha256 t.payload).value).Nodup)
    {t : TransactionEnvelope} (ht : t ∈ transactions) :
    (placeholderTable sha256 transactions).get? (Ssz.payloadRootRun sha256 t.payload).value =
      some (placeholderTransaction sha256 t, [.referenceDefault]) := by
  rw [placeholderTable, get?_insertAll, get?_empty, Option.or_none]
  apply lastWritten_of_nodup
  · rw [List.map_map]
    exact distinct
  · exact List.mem_map.mpr ⟨t, ht, rfl⟩

end

/-- What the loader has left open. -/
structure LeftOpen (sha256 : List UInt8 → Root) (runtime : LocalReferenceRuntime)
    (scenario : RootCheckScenario) : Prop where
  distinct : (scenario.transactions.map fun t =>
    (Ssz.payloadRootRun sha256 t.payload).value).Nodup
  admitted : ∀ t ∈ scenario.transactions, PlaceholderAdmitted sha256 runtime t
  witnessBytes : ∀ maxBytes ∈ runtime.importConfig.headerPrefilter.maxWitnessBytes,
    scenario.header.witnessBytes ≤ maxBytes
  proposer : ∃ credential,
    runtime.resolver ⟨scenario.header.blockRoot, some scenario.header.proposerIndex⟩ =
        .ok credential ∧
      runtime.dispatcher.verifyValidatorMessage credential.schemeId
        ⟨credential.publicKeyMaterial, validatorSigningRoot sha256 scenario.header.blockRoot,
          scenario.header.proposerSignature⟩ = .ok ()
  stateRoot : (resolvedPostState sha256 scenario).root = scenario.header.stateRoot
  receiptsRoot : computeReceiptsRoot sha256 (scenario.steps.map fun s =>
    ⟨s.receiptStatusCode, s.receiptOutput⟩) = scenario.header.receiptsRoot

section
variable {sha256 : List UInt8 → Root} {runtime : LocalReferenceRuntime}
variable {scenario : RootCheckScenario}

theorem receipts_plannedStep (scenario : RootCheckScenario) :
    ((scenario.steps.map plannedStep).map fun p => p.plan.receipt) =
      scenario.steps.map fun s => ⟨s.receiptStatusCode, s.receiptOutput⟩ := by
  rw [List.map_map]
  rfl

/-- Block import of a well-formed scenario, once its placeholders are filed. -/
theorem accepted_assemble (wellFormed : scenario.WellFormed sha256)
    (leftOpen : LeftOpen sha256 runtime scenario) :
    ∃ o, runtime.validateBlockAgainstReference sha256
      (.assemble scenario (scenario.transactions.map (placeholderTransaction sha256)))
      (LocalReferenceScenario.assemble scenario []).block.header.toConsensus
      (LocalReferenceScenario.assemble scenario []).block.body.toConsensus
      (LocalReferenceScenario.assemble scenario []).block.sidecar.toConsensus
      (placeholderTable sha256 scenario.transactions) = .ok o := by
  obtain ⟨credential, hresolved, hsigned⟩ := leftOpen.proposer
  refine ⟨_, (importBlock_eq_ok_iff _).mpr ⟨scenario.header.blockRoot, credential,
    (referenceEngine scenario).plannedOutcome sha256, ?_, rfl⟩⟩
  refine
    { headerRoot := rfl
      witnessBytes := leftOpen.witnessBytes
      bodyRoot := rfl
      resolved := hresolved
      signed := hsigned
      revalidated := ?_
      sidecarRoot := wellFormed.sidecar
      commitment := rfl
      prepared := ?_
      execution := executeBlock_referenceEngine wellFormed
      postState := leftOpen.stateRoot
      receipts := ?_ }
  · intro t ht
    refine (revalidate_eq_ok_iff _ _ runtime.importConfig.multiAuthorizationPolicy).mpr
      ⟨_, get?_placeholderTable leftOpen.distinct ht, ?_⟩
    exact (validateTransaction_placeholder t).mpr (leftOpen.admitted t ht)
  · refine (prepareWitness_eq_ok_iff sha256 _ _
      (LocalReferenceScenario.assemble scenario []).block.sidecar.toConsensus).mpr
        ⟨wellFormed.executionWitnessesRoot, materialized sha256 scenario.materializedState, ?_,
          wellFormed.preState.committed, wellFormed.preState.verified⟩
    exact (materializeAccumulator_eq_ok_iff sha256 _ _).mpr ⟨wellFormed.preState.increasing, rfl⟩
  · exact (congrArg (computeReceiptsRoot sha256) (receipts_plannedStep scenario)).trans
      leftOpen.receiptsRoot

end

/-- A run on a resolved scenario succeeds exactly when what the loader has left open is fine: the
payloads are distinct, the services accept the placeholders and the proposer, the header keeps the
witness limit, and the plan ends at the roots the header declares. -/
theorem resolved_run_exact (sha256 : List UInt8 → Root) (runtime : LocalReferenceRuntime)
    (store : FixtureStore) (fixture : RootCheckVector) (scenario : RootCheckScenario)
    (resolved : resolveRootCheckScenario sha256 store fixture = .ok scenario) :
    ∃ reference, LocalReferenceScenario.fromRootCheckScenario sha256 scenario = .ok reference ∧
      ((∃ o, runtime.run sha256 reference = .ok o) ↔ LeftOpen sha256 runtime scenario) := by
  obtain ⟨vectors, hresolves⟩ := resolveRootCheckScenario_eq_ok_iff.mp resolved
  have hwellFormed := hresolves.wellFormed
  refine ⟨_, fromRootCheckScenario_of_unsigned hwellFormed.unsigned, ?_⟩
  constructor
  · rintro ⟨o, ho⟩
    obtain ⟨-, hadmitted, table, hbuilt, himported⟩ :=
      (LocalReferenceRuntime.run_eq_ok_iff o).mp ho
    obtain ⟨hdistinct, -⟩ := (buildAdmissionTransactions_assemble hwellFormed.unsigned _).mp hbuilt
    obtain ⟨blockRoot, credential, executed, haccepted, -⟩ :=
      (importBlock_eq_ok_iff _).mp himported
    obtain rfl : scenario.header.blockRoot = blockRoot := Except.ok.inj haccepted.headerRoot
    obtain ⟨-, -, -, rfl⟩ :=
      (ReferenceExecutionEngine.executeBlock_eq_ok_iff sha256 executed).mp haccepted.execution
    exact
      { distinct := hdistinct
        admitted := (admitTransactions_assemble hwellFormed.unsigned).mp ⟨_, hadmitted⟩
        witnessBytes := haccepted.witnessBytes
        proposer := ⟨credential, haccepted.resolved, haccepted.signed⟩
        stateRoot := haccepted.postState
        receiptsRoot :=
          (congrArg (computeReceiptsRoot sha256) (receipts_plannedStep scenario)).symm.trans
            haccepted.receipts }
  · intro hopen
    obtain ⟨admissions, hadmitted⟩ :=
      (admitTransactions_assemble hwellFormed.unsigned).mpr hopen.admitted
    obtain ⟨imported, himported⟩ := accepted_assemble hwellFormed hopen
    exact ⟨⟨admissions, imported⟩, (LocalReferenceRuntime.run_eq_ok_iff _).mpr
      ⟨validateScenarioShape_assemble hwellFormed, hadmitted, _,
        (buildAdmissionTransactions_assemble hwellFormed.unsigned _).mpr ⟨hopen.distinct, rfl⟩,
        himported⟩⟩

/-! ## A run -/

/-- The overwriting scenario with the roots its plan ends at. -/
def plannedScenario : RootCheckScenario :=
  overwriteScenario (resolvedPostState Sha256.digest (overwriteScenario (zeros 32) (zeros 32))).root
    (computeReceiptsRoot Sha256.digest [⟨1, [9]⟩])

theorem resolve_plannedScenario :
    resolveRootCheckScenario Sha256.digest plannedScenario.toStore plannedScenario.toVector =
      .ok plannedScenario :=
  resolve_toVector (wellFormed_overwriteScenario _ _)

theorem resolved_plan_executes_sample :
    (resolvedPostState Sha256.digest plannedScenario).leaves.get? (encodeStateKey sampleAccount) =
      some ⟨sampleAccount, [1]⟩ := by
  rw [((resolved_plan_executes Sha256.digest _ _ plannedScenario resolve_plannedScenario).2
    sampleAccount).1]
  decide +kernel

/-- Accepts every signature. -/
def placeholderRuntime : LocalReferenceRuntime :=
  { echoRuntime with dispatcher := ⟨fun _ _ => .ok (), fun _ _ => .ok ()⟩ }

theorem placeholderAdmitted_bareEnvelope :
    PlaceholderAdmitted Sha256.digest placeholderRuntime ⟨bareEnvelope.payload, []⟩ where
  payloadLane := Nat.le_refl _
  witnessLane := Nat.le_refl _
  nonceWindow n hn := by
    obtain rfl := Option.some.inj hn
    exact ⟨by decide, by decide⟩
  accepted := rfl

/-- The declared roots do not decide where the plan ends. -/
theorem resolvedPostState_overwriteScenario (sha256 : List UInt8 → Root)
    (stateRoot receiptsRoot stateRoot' receiptsRoot' : Root) :
    resolvedPostState sha256 (overwriteScenario stateRoot receiptsRoot) =
      resolvedPostState sha256 (overwriteScenario stateRoot' receiptsRoot') :=
  rfl

theorem receiptsRoot_overwriteScenario (stateRoot receiptsRoot : Root) :
    (overwriteScenario stateRoot receiptsRoot).header.receiptsRoot = receiptsRoot :=
  rfl

theorem leftOpen_plannedScenario :
    LeftOpen Sha256.digest placeholderRuntime plannedScenario := by
  refine ⟨List.nodup_singleton _, ?_, ?_, ⟨⟨1, [0xBB]⟩, rfl, rfl⟩, ?_,
    (receiptsRoot_overwriteScenario _ _).symm⟩
  · intro t ht
    rw [List.mem_singleton.mp ht]
    exact placeholderAdmitted_bareEnvelope
  · intro maxBytes hmax
    cases hmax
  · exact congrArg InMemoryAccumulator.root (resolvedPostState_overwriteScenario _ _ _ _ _)

theorem resolved_run_exact_sample :
    ∃ reference o,
      LocalReferenceScenario.fromRootCheckScenario Sha256.digest plannedScenario = .ok reference ∧
        placeholderRuntime.run Sha256.digest reference = .ok o := by
  obtain ⟨reference, hreference, hrun⟩ := resolved_run_exact Sha256.digest placeholderRuntime
    _ _ plannedScenario resolve_plannedScenario
  obtain ⟨o, ho⟩ := hrun.mpr leftOpen_plannedScenario
  exact ⟨reference, o, hreference, ho⟩

end ShellCli
