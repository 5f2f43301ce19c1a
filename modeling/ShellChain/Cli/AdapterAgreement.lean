import ShellChain.Cli.Adapters
import ShellChain.Cli.Revalidation
import ShellChain.Primitives.RootBinding

/-!
# The adapters agree with the run

A run pairs admission transactions with their material by position, the mempool
adapter by payload root. Roots are distinct once an adapter has been built, so
both find the same material. No error is classified as acceptance, so an
adapter accepts exactly what the runtime accepts; everything else is an outcome
other than acceptance or an error.
-/

namespace ShellCli

open ByteCodec ShellPrimitives ShellCrypto ShellMempool ShellState ShellExecution ShellConsensus
open ShellNetwork SortedMap Except

/-! ## No error is acceptance -/

theorem primitive_not_accept (e : PrimitiveError) :
    e.networkValidationOutcome ≠ some .accept := by
  cases e <;> simp [PrimitiveError.networkValidationOutcome]

theorem crypto_not_accept (e : CryptoError) : e.networkValidationOutcome ≠ some .accept := by
  cases e with
  | unsupportedScheme error => simp [CryptoError.networkValidationOutcome]
  | verificationFailed error => simp [CryptoError.networkValidationOutcome]
  | signatureSizeExceeded error =>
    rw [CryptoError.networkValidationOutcome]
    split <;> simp

theorem validation_not_accept (e : ValidationError) :
    e.networkValidationOutcome ≠ some .accept := by
  cases e with
  | primitive error => exact primitive_not_accept error
  | _ => simp [ValidationError.networkValidationOutcome]

theorem consensus_not_accept (e : ConsensusError) :
    e.networkValidationOutcome ≠ some .accept := by
  cases e with
  | primitive error => exact primitive_not_accept error
  | crypto error => exact crypto_not_accept error
  | transactionValidation error => exact validation_not_accept error
  | proposerCredentialResolution error =>
    rw [ConsensusError.networkValidationOutcome]
    split <;> simp
  | _ => simp [ConsensusError.networkValidationOutcome]

/-- An error comes out as an outcome when it is classified as that outcome. -/
theorem reportOutcome_error_eq_ok_iff {err α : Type} (classify : err → Option ValidationOutcome)
    (e : err) (outcome : ValidationOutcome) :
    reportOutcome classify (.error e : Except err α) = .ok outcome ↔
      classify e = some outcome := by
  rw [reportOutcome]
  cases classify e <;> simp

theorem reportOutcome_eq_accept_iff {err α : Type} {classify : err → Option ValidationOutcome}
    (never : ∀ e, classify e ≠ some .accept) (result : Except err α) :
    reportOutcome classify result = .ok .accept ↔ ∃ a, result = .ok a := by
  cases result with
  | ok a => exact ⟨fun _ => ⟨a, rfl⟩, fun _ => rfl⟩
  | error e =>
    constructor
    · intro h
      exact absurd ((reportOutcome_error_eq_ok_iff classify e _).mp h) (never e)
    · rintro ⟨a, h⟩
      cases h

section
variable {sha256 : List UInt8 → Root} {runtime : LocalReferenceRuntime}
variable {scenario : LocalReferenceScenario}

/-! ## Building the adapters -/

/-- The scenario's lists align and no two admission transactions share a payload root. -/
structure WellFormed (sha256 : List UInt8 → Root) (scenario : LocalReferenceScenario) : Prop where
  shape : validateScenarioShape scenario = .ok ()
  distinct : ((admissionEntries scenario).map (entryRoot sha256)).Nodup

/-- The table of a well-formed scenario's admission entries. -/
def admissionTable (sha256 : List UInt8 → Root) (scenario : LocalReferenceScenario) :
    AdmissionTable :=
  insertAll .empty ((admissionEntries scenario).map fun entry => (entryRoot sha256 entry, entry))

def materialTable (sha256 : List UInt8 → Root) (scenario : LocalReferenceScenario) :
    MaterialTable :=
  insertAll .empty ((admissionEntries scenario).map fun entry => (entryRoot sha256 entry, entry.2))

theorem buildAdmission_eq_ok_iff (table : AdmissionTable) :
    buildAdmissionTransactionsByPayloadRoot sha256 scenario.admissionTransactions
        scenario.transactionAuthorizationMaterials = .ok table ↔
      ((admissionEntries scenario).map (entryRoot sha256)).Nodup ∧
        table = admissionTable sha256 scenario := by
  refine (collectAdmissionTransactions_eq_ok_iff sha256 _ _ _).trans ?_
  constructor
  · rintro ⟨hdistinct, -, htable⟩
    exact ⟨hdistinct, htable⟩
  · rintro ⟨hdistinct, htable⟩
    exact ⟨hdistinct, fun _ _ => rfl, htable⟩

theorem consensus_tryNew_eq_ok_iff (adapter : LocalReferenceNetworkConsensusAdapter) :
    LocalReferenceNetworkConsensusAdapter.tryNew sha256 runtime scenario = .ok adapter ↔
      WellFormed sha256 scenario ∧
        adapter = ⟨runtime, scenario, admissionTable sha256 scenario⟩ := by
  rw [LocalReferenceNetworkConsensusAdapter.tryNew, check_bind_eq_ok_iff, bind_eq_ok_iff]
  simp only [buildAdmission_eq_ok_iff]
  constructor
  · rintro ⟨hshape, _, ⟨hdistinct, rfl⟩, hadapter⟩
    exact ⟨⟨hshape, hdistinct⟩, (Except.ok.inj hadapter).symm⟩
  · rintro ⟨⟨hshape, hdistinct⟩, rfl⟩
    exact ⟨hshape, _, ⟨hdistinct, rfl⟩, rfl⟩

theorem mempool_tryNew_eq_ok_iff (adapter : LocalReferenceNetworkMempoolAdapter) :
    LocalReferenceNetworkMempoolAdapter.tryNew sha256 runtime scenario = .ok adapter ↔
      WellFormed sha256 scenario ∧ adapter = ⟨runtime, materialTable sha256 scenario⟩ := by
  have hloop : ∀ table, collectAuthorizationMaterials sha256 (admissionEntries scenario) .empty =
      .ok table ↔ _ := fresh_loop_eq_ok_iff (fun _ => rfl) (fun _ _ _ => rfl)
    (admissionEntries scenario) .empty
  rw [LocalReferenceNetworkMempoolAdapter.tryNew, check_bind_eq_ok_iff, bind_eq_ok_iff]
  constructor
  · rintro ⟨hshape, table, htable, hadapter⟩
    obtain ⟨hdistinct, -, rfl⟩ := (hloop table).mp htable
    exact ⟨⟨hshape, hdistinct⟩, (Except.ok.inj hadapter).symm⟩
  · rintro ⟨⟨hshape, hdistinct⟩, rfl⟩
    exact ⟨hshape, _, (hloop _).mpr ⟨hdistinct, fun _ _ => rfl, rfl⟩, rfl⟩

/-- The material filed under a root is that of the one admission transaction with it. -/
theorem get?_materialTable_iff (wellFormed : WellFormed sha256 scenario) (root : Root)
    (materials : List OwnedAuthorizationMaterial) :
    (materialTable sha256 scenario).get? root = some materials ↔
      ∃ t, (t, materials) ∈ admissionEntries scenario ∧
        (Ssz.payloadRootRun sha256 t.payload).value = root := by
  rw [materialTable, get?_filled_iff wellFormed.distinct]
  constructor
  · rintro ⟨⟨t, materials⟩, hentry, hroot, rfl⟩
    exact ⟨t, hentry, hroot⟩
  · rintro ⟨t, hentry, hroot⟩
    exact ⟨(t, materials), hentry, hroot, rfl⟩

/-- Every admission transaction of an aligned scenario has its material. -/
theorem exists_entry (shape : validateScenarioShape scenario = .ok ()) {t : TransactionEnvelope}
    (ht : t ∈ scenario.admissionTransactions) :
    ∃ materials, (t, materials) ∈ admissionEntries scenario := by
  obtain ⟨hadmission, -, hmaterials⟩ :=
    LocalReferenceRuntime.validateScenarioShape_eq_ok_iff.mp shape
  obtain ⟨i, hi⟩ := List.mem_iff_getElem?.mp ht
  obtain ⟨hbound, -⟩ := List.getElem?_eq_some_iff.mp hi
  have hlength : i < scenario.transactionAuthorizationMaterials.length := by omega
  refine ⟨scenario.transactionAuthorizationMaterials[i], List.mem_iff_getElem?.mpr ⟨i, ?_⟩⟩
  exact List.getElem?_zip_eq_some.mpr ⟨hi, List.getElem?_eq_getElem hlength⟩

/-! ## Gossiped transactions -/

section
variable {adapter : LocalReferenceNetworkMempoolAdapter} {envelope : TransactionEnvelope}

/-- With material on file the adapter reports what validation says, after the same calls. -/
theorem validateGossipTransaction_of_found {materials : List OwnedAuthorizationMaterial}
    (found : adapter.authorizationMaterials.get?
      (Ssz.payloadRootRun sha256 envelope.payload).value = some materials)
    (origin : NetworkOrigin) :
    Logged.Runs (adapter.validateGossipTransaction sha256 origin envelope)
      (reportOutcome ValidationError.networkValidationOutcome (Logged.outcome
        (adapter.runtime.validateTransaction sha256 envelope materials)))
      (Logged.calls (adapter.runtime.validateTransaction sha256 envelope materials)) := by
  rw [LocalReferenceNetworkMempoolAdapter.validateGossipTransaction,
    TransactionEnvelope.payloadRoot_eq]
  change Logged.Runs (Logged.silent (.ok _) >>= _) _ _
  rw [Logged.silent_ok_bind, found, Logged.silent_ok_bind]
  exact ⟨Logged.value_map _ _, Logged.log_map _ _⟩

/-- Without it the adapter stops before any call. -/
theorem validateGossipTransaction_of_missing
    (missing : adapter.authorizationMaterials.get?
      (Ssz.payloadRootRun sha256 envelope.payload).value = none) (origin : NetworkOrigin) :
    Logged.Runs (adapter.validateGossipTransaction sha256 origin envelope)
      (.error (.authorizationMaterialCount ⟨envelope.authorizations.length, 0⟩)) [] := by
  rw [LocalReferenceNetworkMempoolAdapter.validateGossipTransaction,
    TransactionEnvelope.payloadRoot_eq]
  change Logged.Runs (Logged.silent (.ok _) >>= _) _ _
  rw [Logged.silent_ok_bind, missing, Logged.silent_error_bind]
  exact ⟨rfl, rfl⟩

theorem validateGossipTransaction_accept_iff (origin : NetworkOrigin) :
    Logged.outcome (adapter.validateGossipTransaction sha256 origin envelope) = .ok .accept ↔
      ∃ materials, adapter.authorizationMaterials.get?
          (Ssz.payloadRootRun sha256 envelope.payload).value = some materials ∧
        ∃ v, Logged.outcome (adapter.runtime.validateTransaction sha256 envelope materials) =
          .ok v := by
  cases hfound : adapter.authorizationMaterials.get?
    (Ssz.payloadRootRun sha256 envelope.payload).value with
  | none =>
    rw [(validateGossipTransaction_of_missing hfound origin).outcome_eq]
    constructor
    · intro h
      cases h
    · rintro ⟨materials, h, -⟩
      cases h
  | some materials =>
    rw [(validateGossipTransaction_of_found hfound origin).outcome_eq,
      reportOutcome_eq_accept_iff validation_not_accept]
    constructor
    · intro h
      exact ⟨materials, rfl, h⟩
    · rintro ⟨materials', hsame, h⟩
      obtain rfl := Option.some.inj hsame
      exact h

end

/-- By position or by root: the run admits every transaction exactly when the adapter accepts
every one. -/
theorem admitTransactions_isOk_iff (wellFormed : WellFormed sha256 scenario)
    (origin : NetworkOrigin) :
    (∃ admissions, runtime.admitTransactions sha256 scenario = .ok admissions) ↔
      ∀ t ∈ scenario.admissionTransactions, Logged.outcome
        (LocalReferenceNetworkMempoolAdapter.validateGossipTransaction sha256
          ⟨runtime, materialTable sha256 scenario⟩ origin t) = .ok .accept := by
  refine (mapM_isOk_iff _ _).trans ?_
  simp only [mapError_eq_ok_iff, validateGossipTransaction_accept_iff]
  constructor
  · intro hadmitted t ht
    obtain ⟨materials, hentry⟩ := exists_entry wellFormed.shape ht
    exact ⟨materials, (get?_materialTable_iff wellFormed _ _).mpr ⟨t, hentry, rfl⟩,
      hadmitted (t, materials) hentry⟩
  · rintro haccepted ⟨t, materials⟩ hentry
    obtain ⟨materials', hfound, hv⟩ := haccepted t (List.of_mem_zip hentry).1
    have hown := (get?_materialTable_iff wellFormed _ _).mpr ⟨t, hentry, rfl⟩
    rw [hown] at hfound
    obtain rfl := Option.some.inj hfound
    exact hv

/-! ## Blocks -/

/-- Nothing in front of the import fails with a consensus error. -/
def NotConsensus (e : LocalReferenceError) : Prop := ∀ e', e ≠ .consensus e'

theorem failsOnly_validateScenarioShape :
    FailsOnly NotConsensus (validateScenarioShape scenario) := by
  have herror : ∀ error : ScenarioShapeError,
      FailsOnly NotConsensus (.error (.scenarioShape error) : Except _ Unit) := by
    intro error
    apply FailsOnly.error
    intro e' h
    cases h
  exact .ite (fun _ => herror _) fun _ =>
    .ite (fun _ => herror _) fun _ => .ite (fun _ => herror _) fun _ => .ok ()

theorem failsOnly_admitTransactions :
    FailsOnly NotConsensus (runtime.admitTransactions sha256 scenario) := by
  apply FailsOnly.mapM
  intro entry _
  apply FailsOnly.mapError
  intro e e' h
  cases h

theorem failsOnly_collectAdmissionTransactions (entries : List AdmissionEntry)
    (byRoot : AdmissionTable) :
    FailsOnly NotConsensus (collectAdmissionTransactions sha256 entries byRoot) := by
  induction entries generalizing byRoot with
  | nil => exact .ok byRoot
  | cons entry rest ih =>
    apply FailsOnly.ite
    · intro _
      apply FailsOnly.error
      intro e' h
      cases h
    · intro _
      exact ih _

/-- A consensus error of the run is the error of importing the scenario's own block. -/
theorem import_error_of_run {e : ConsensusError}
    (h : runtime.run sha256 scenario = .error (.consensus e)) :
    WellFormed sha256 scenario ∧
      runtime.validateBlockAgainstReference sha256 scenario scenario.block.header.toConsensus
        scenario.block.body.toConsensus scenario.block.sidecar.toConsensus
        (admissionTable sha256 scenario) = .error e := by
  rw [LocalReferenceRuntime.run] at h
  rcases (bind_eq_error_iff _ _ _).mp h with hshape | ⟨_, hshape, h⟩
  · exact absurd rfl (failsOnly_validateScenarioShape _ hshape e)
  rcases (bind_eq_error_iff _ _ _).mp h with hadmission | ⟨_, _, h⟩
  · exact absurd rfl (failsOnly_admitTransactions _ hadmission e)
  rcases (bind_eq_error_iff _ _ _).mp h with hbuild | ⟨table, hbuild, h⟩
  · exact absurd rfl (failsOnly_collectAdmissionTransactions _ _ _ hbuild e)
  obtain ⟨hdistinct, rfl⟩ := (buildAdmission_eq_ok_iff table).mp hbuild
  refine ⟨⟨hshape, hdistinct⟩, ?_⟩
  rcases (bind_eq_error_iff _ _ _).mp h with himport | ⟨_, _, h⟩
  · cases hresult : runtime.validateBlockAgainstReference sha256 scenario
      scenario.block.header.toConsensus scenario.block.body.toConsensus
      scenario.block.sidecar.toConsensus (admissionTable sha256 scenario) with
    | ok outcome =>
      rw [hresult] at himport
      cases himport
    | error e' =>
      rw [hresult] at himport
      cases himport
      rfl
  · cases h

theorem run_isOk_iff :
    (∃ o, runtime.run sha256 scenario = .ok o) ↔
      WellFormed sha256 scenario ∧
        (∃ admissions, runtime.admitTransactions sha256 scenario = .ok admissions) ∧
        ∃ imported, runtime.validateBlockAgainstReference sha256 scenario
          scenario.block.header.toConsensus scenario.block.body.toConsensus
          scenario.block.sidecar.toConsensus (admissionTable sha256 scenario) = .ok imported := by
  simp only [LocalReferenceRuntime.run_eq_ok_iff, buildAdmission_eq_ok_iff]
  constructor
  · rintro ⟨o, hshape, hadmitted, _, ⟨hdistinct, rfl⟩, himported⟩
    exact ⟨⟨hshape, hdistinct⟩, ⟨_, hadmitted⟩, _, himported⟩
  · rintro ⟨⟨hshape, hdistinct⟩, ⟨admissions, hadmitted⟩, imported, himported⟩
    exact ⟨⟨admissions, imported⟩, hshape, hadmitted, _, ⟨hdistinct, rfl⟩, himported⟩

end

/-- The run succeeds exactly when both adapters can be built and accept everything in the
scenario; where the import fails, the block adapter answers with the error's outcome, never
acceptance, or with the error itself. -/
theorem run_agrees_with_adapters (sha256 : List UInt8 → Root) (runtime : LocalReferenceRuntime)
    (scenario : LocalReferenceScenario) (origin blockOrigin : NetworkOrigin) :
    ((∃ o, runtime.run sha256 scenario = .ok o) ↔
      ∃ mempool consensus,
        LocalReferenceNetworkMempoolAdapter.tryNew sha256 runtime scenario = .ok mempool ∧
        LocalReferenceNetworkConsensusAdapter.tryNew sha256 runtime scenario = .ok consensus ∧
        (∀ t ∈ scenario.admissionTransactions, Logged.outcome
          (mempool.validateGossipTransaction sha256 origin t) = .ok .accept) ∧
        consensus.validateGossipBlock sha256 blockOrigin scenario.block.header.toConsensus
          scenario.block.body.toConsensus scenario.block.sidecar.toConsensus = .ok .accept) ∧
    ∀ e, runtime.run sha256 scenario = .error (.consensus e) →
      ∃ consensus,
        LocalReferenceNetworkConsensusAdapter.tryNew sha256 runtime scenario = .ok consensus ∧
        (∀ v, e.networkValidationOutcome = some v →
          consensus.validateGossipBlock sha256 blockOrigin scenario.block.header.toConsensus
            scenario.block.body.toConsensus scenario.block.sidecar.toConsensus = .ok v ∧
          v ≠ .accept) ∧
        (e.networkValidationOutcome = none →
          consensus.validateGossipBlock sha256 blockOrigin scenario.block.header.toConsensus
            scenario.block.body.toConsensus scenario.block.sidecar.toConsensus = .error e) := by
  constructor
  · simp only [run_isOk_iff, mempool_tryNew_eq_ok_iff, consensus_tryNew_eq_ok_iff,
      LocalReferenceNetworkConsensusAdapter.validateGossipBlock,
      reportOutcome_eq_accept_iff consensus_not_accept]
    constructor
    · rintro ⟨hwell, hadmitted, himported⟩
      exact ⟨_, _, ⟨hwell, rfl⟩, ⟨hwell, rfl⟩,
        (admitTransactions_isOk_iff hwell origin).mp hadmitted, himported⟩
    · rintro ⟨_, _, ⟨hwell, rfl⟩, ⟨-, rfl⟩, haccepted, himported⟩
      exact ⟨hwell, (admitTransactions_isOk_iff hwell origin).mpr haccepted, himported⟩
  · intro e h
    obtain ⟨hwell, himport⟩ := import_error_of_run h
    refine ⟨_, (consensus_tryNew_eq_ok_iff _).mpr ⟨hwell, rfl⟩, ?_, ?_⟩
    · intro v hv
      rw [LocalReferenceNetworkConsensusAdapter.validateGossipBlock, himport]
      refine ⟨(reportOutcome_error_eq_ok_iff _ e v).mpr hv, ?_⟩
      rintro rfl
      exact consensus_not_accept e hv
    · intro hnone
      rw [LocalReferenceNetworkConsensusAdapter.validateGossipBlock, himport, reportOutcome, hnone]

/-! ## Altered payloads -/

section
variable {sha256 : List UInt8 → Root} {scenario : LocalReferenceScenario}
variable {envelope : TransactionEnvelope}

/-- Without collisions a payload root on file is that of an admission transaction with the
same payload. -/
theorem payload_eq_of_found (wellFormed : WellFormed sha256 scenario)
    (limit : envelope.payload.WithinLimit)
    (limits : ∀ t ∈ scenario.admissionTransactions, t.payload.WithinLimit)
    (collisionFree : Set.InjOn sha256
      {s | s ∈ Hashing.preimages (Ssz.payloadRootRun sha256 envelope.payload) ∨
        ∃ t ∈ scenario.admissionTransactions,
          s ∈ Hashing.preimages (Ssz.payloadRootRun sha256 t.payload)})
    {materials : List OwnedAuthorizationMaterial}
    (found : (materialTable sha256 scenario).get?
      (Ssz.payloadRootRun sha256 envelope.payload).value = some materials) :
    ∃ t, (t, materials) ∈ admissionEntries scenario ∧ envelope.payload = t.payload := by
  obtain ⟨t, hentry, hroot⟩ := (get?_materialTable_iff wellFormed _ _).mp found
  have ht : t ∈ scenario.admissionTransactions := (List.of_mem_zip hentry).1
  refine ⟨t, hentry, ?_⟩
  apply Ssz.binds_payloadRootRun.eq_of_value_eq limit (limits t ht) _ hroot.symm
  apply collisionFree.mono
  rintro s (hs | hs)
  · exact Or.inl hs
  · exact Or.inr ⟨t, ht, hs⟩

end

/-- The adapter accepts an envelope only with the payload of an admission transaction and that
transaction's material for every authorization; any other payload ends in the same error before
the dispatcher is called. -/
theorem altered_payloads_fail_closed (sha256 : List UInt8 → Root) (runtime : LocalReferenceRuntime)
    (scenario : LocalReferenceScenario) (adapter : LocalReferenceNetworkMempoolAdapter)
    (built : LocalReferenceNetworkMempoolAdapter.tryNew sha256 runtime scenario = .ok adapter)
    (origin : NetworkOrigin) (envelope : TransactionEnvelope)
    (limit : envelope.payload.WithinLimit)
    (limits : ∀ t ∈ scenario.admissionTransactions, t.payload.WithinLimit)
    (collisionFree : Set.InjOn sha256
      {s | s ∈ Hashing.preimages (Ssz.payloadRootRun sha256 envelope.payload) ∨
        ∃ t ∈ scenario.admissionTransactions,
          s ∈ Hashing.preimages (Ssz.payloadRootRun sha256 t.payload)}) :
    let gossip := adapter.validateGossipTransaction sha256 origin envelope
    let signingRoot := AdmissionPipeline.policySigningRoot sha256 runtime.admissionPolicy
      (Ssz.payloadRootRun sha256 envelope.payload).value
    (Logged.outcome gossip = .ok .accept →
      ∃ (i : Nat) (t : TransactionEnvelope) (materials : List OwnedAuthorizationMaterial),
        scenario.admissionTransactions[i]? = some t ∧
        scenario.transactionAuthorizationMaterials[i]? = some materials ∧
        envelope.payload = t.payload ∧
        envelope.authorizations.length = materials.length ∧
        Logged.calls gossip = AdmissionPipeline.authorizationCalls signingRoot envelope
          (materials.map OwnedAuthorizationMaterial.asBorrowed) ∧
        AdmissionPipeline.AllAccepted runtime.dispatcher signingRoot envelope
          (materials.map OwnedAuthorizationMaterial.asBorrowed)) ∧
    ((∀ t ∈ scenario.admissionTransactions, envelope.payload ≠ t.payload) →
      Logged.outcome gossip =
        .error (.authorizationMaterialCount ⟨envelope.authorizations.length, 0⟩) ∧
      Logged.calls gossip = []) := by
  intro gossip signingRoot
  obtain ⟨hwell, rfl⟩ := (mempool_tryNew_eq_ok_iff adapter).mp built
  constructor
  · intro haccept
    obtain ⟨materials, hfound, v, hv⟩ := (validateGossipTransaction_accept_iff origin).mp haccept
    obtain ⟨t, hentry, hpayload⟩ :=
      payload_eq_of_found hwell limit limits collisionFree hfound
    obtain ⟨i, hi⟩ := List.mem_iff_getElem?.mp hentry
    obtain ⟨ht, hmaterials⟩ := List.getElem?_zip_eq_some.mp hi
    obtain ⟨⟨-, hlength⟩, haccepted, -⟩ := (AdmissionPipeline.admitAndVerify_eq_ok_iff v).mp hv
    refine ⟨i, t, materials, ht, hmaterials, hpayload, ?_, ?_, haccepted⟩
    · rw [← hlength, List.length_map]
    · exact (validateGossipTransaction_of_found hfound origin).calls_eq.trans
        (AdmissionPipeline.calls_of_admitted hv)
  · intro hother
    have hmissing : (materialTable sha256 scenario).get?
        (Ssz.payloadRootRun sha256 envelope.payload).value = none := by
      rw [Option.eq_none_iff_forall_ne_some]
      intro materials hfound
      obtain ⟨t, hentry, hpayload⟩ :=
        payload_eq_of_found hwell limit limits collisionFree hfound
      exact hother t (List.of_mem_zip hentry).1 hpayload
    have hruns : Logged.Runs (LocalReferenceNetworkMempoolAdapter.validateGossipTransaction sha256
        ⟨runtime, materialTable sha256 scenario⟩ origin envelope) _ [] :=
      validateGossipTransaction_of_missing hmissing origin
    exact ⟨hruns.outcome_eq, hruns.calls_eq⟩

theorem altered_payloads_fail_closed_transfer :
    ∃ adapter,
      LocalReferenceNetworkMempoolAdapter.tryNew Sha256.digest echoRuntime unsignedScenario =
        .ok adapter ∧
      Logged.outcome (adapter.validateGossipTransaction Sha256.digest .testHarness
        AdmissionPipeline.authorizedTransfer) = .ok .accept ∧
      (Logged.calls (adapter.validateGossipTransaction Sha256.digest .testHarness
        AdmissionPipeline.authorizedTransfer)).length = 1 := by
  have hwell : WellFormed Sha256.digest unsignedScenario := ⟨rfl, List.nodup_singleton _⟩
  have hbuilt : LocalReferenceNetworkMempoolAdapter.tryNew Sha256.digest echoRuntime
      unsignedScenario = .ok ⟨echoRuntime, materialTable Sha256.digest unsignedScenario⟩ :=
    (mempool_tryNew_eq_ok_iff _).mpr ⟨hwell, rfl⟩
  have hfound := (get?_materialTable_iff hwell _ [⟨[0xAA]⟩]).mpr
    ⟨AdmissionPipeline.authorizedTransfer, List.mem_cons_self, rfl⟩
  have haccept : Logged.outcome (LocalReferenceNetworkMempoolAdapter.validateGossipTransaction
      Sha256.digest ⟨echoRuntime, materialTable Sha256.digest unsignedScenario⟩ .testHarness
      AdmissionPipeline.authorizedTransfer) = .ok .accept :=
    (validateGossipTransaction_accept_iff .testHarness).mpr
      ⟨_, hfound, admitted_authorizedTransfer⟩
  obtain ⟨hpaid, -⟩ := altered_payloads_fail_closed Sha256.digest echoRuntime unsignedScenario _
    hbuilt .testHarness AdmissionPipeline.authorizedTransfer
    Ssz.bareEnvelope_withinLimits.payload
    (List.forall_mem_singleton.mpr Ssz.bareEnvelope_withinLimits.payload)
    (Ssz.barePayload_collisionFree.mono (by
      rintro s (hs | ⟨t, ht, hs⟩)
      · exact hs
      · obtain rfl := List.mem_singleton.mp ht
        exact hs))
  obtain ⟨i, t, materials, -, -, -, hcount, hcalls, -⟩ := hpaid haccept
  refine ⟨_, hbuilt, haccept, ?_⟩
  rw [hcalls, AdmissionPipeline.authorizationCalls, List.length_map, List.length_zip,
    List.length_map, ← hcount]
  rfl

end ShellCli
