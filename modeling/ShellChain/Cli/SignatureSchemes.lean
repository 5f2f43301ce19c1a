import ShellChain.Cli.PolicyDependence
import ShellChain.Cli.ResolvedRun
import ShellChain.Crypto.Ed25519

/-!
# Schemes a run depends on

A runtime whose dispatcher is a verifier registry. A run asks the registry for
the schemes of the admission transactions and for the scheme of the proposer's
credential, so nothing registered for any other scheme can be told from its
result. Where Ed25519 is registered, all that scheme 0 has let through is
signed, and the placeholder signature of resolved scenarios is not.
-/

namespace ShellCli

open ByteCodec ShellPrimitives ShellCrypto ShellMempool ShellConsensus ShellNetwork ShellFixtures
open KeyedList Except

/-! ## Two dispatchers -/

/-- The scheme is that of an admission transaction's authorization, or of the credential the
resolver has for the header. -/
def UsesScheme (resolver : ProposerCredentialResolver) (scenario : LocalReferenceScenario)
    (header : ConsensusHeader) (schemeId : UInt8) : Prop :=
  (∃ t ∈ scenario.admissionTransactions, ∃ a ∈ t.authorizations, a.schemeId = schemeId) ∨
    ∃ blockRoot credential, header.canonicalRoot = .ok blockRoot ∧
      resolver ⟨blockRoot, header.proposerIndexHint⟩ = .ok credential ∧
      credential.schemeId = schemeId

/-- The dispatchers give every request for the scheme the same answer, on either path. -/
def SameAnswers (schemeId : UInt8) (first second : SignatureDispatcher) : Prop :=
  first.verifyTransactionAuthorization schemeId = second.verifyTransactionAuthorization schemeId ∧
    first.verifyValidatorMessage schemeId = second.verifyValidatorMessage schemeId

section
variable {sha256 : List UInt8 → Root} {first second : SignatureDispatcher}

/-- Admission asks for the schemes of the envelope's own authorizations. -/
theorem admitAndVerify_congr {envelope : TransactionEnvelope} (policy : AdmissionPolicy)
    (stateView : Option AdmissionStateView) (materials : List AuthorizationMaterial)
    (agree : ∀ a ∈ envelope.authorizations, SameAnswers a.schemeId first second) :
    AdmissionPipeline.admitAndVerify ⟨first, policy⟩ sha256 envelope stateView materials =
      AdmissionPipeline.admitAndVerify ⟨second, policy⟩ sha256 envelope stateView materials := by
  have hrounds : ∀ signingRoot,
      (envelope.authorizations.zip materials).forM
          (AdmissionPipeline.verifyAuthorization ⟨first, policy⟩ signingRoot) =
        (envelope.authorizations.zip materials).forM
          (AdmissionPipeline.verifyAuthorization ⟨second, policy⟩ signingRoot) := by
    intro signingRoot
    apply forM_congr_of_mem
    intro entry hentry
    have hscheme := (agree entry.1 (List.of_mem_zip hentry).1).1
    simp only [AdmissionPipeline.verifyAuthorization, hscheme]
  have hverify : ∀ accepted,
      AdmissionPipeline.verifyAuthorizations ⟨first, policy⟩ sha256 envelope accepted materials =
        AdmissionPipeline.verifyAuthorizations ⟨second, policy⟩ sha256 envelope accepted
          materials := by
    intro accepted
    simp only [AdmissionPipeline.verifyAuthorizations, hrounds]
  simp only [AdmissionPipeline.admitAndVerify, hverify]
  rfl

theorem canonicalRoot_of_prefilterHeader {header : ConsensusHeader} {config : HeaderPrefilterConfig}
    {headerOutcome : HeaderCheckOutcome}
    (passed : prefilterHeader header config = .ok headerOutcome) :
    header.canonicalRoot = .ok headerOutcome.blockRoot := by
  obtain ⟨blockRoot, hroot, hlimit⟩ := (bind_eq_ok_iff _ _ _).mp passed
  rw [mapError_eq_ok_iff] at hroot
  cases hmax : config.maxWitnessBytes with
  | none =>
    simp only [hmax] at hlimit
    rw [hroot, ← Except.ok.inj hlimit]
  | some maxBytes =>
    simp only [hmax, ite_error_eq_ok_iff] at hlimit
    rw [hroot, ← Except.ok.inj hlimit.2]

variable {runtime : LocalReferenceRuntime} {scenario : LocalReferenceScenario}

/-- The runtime with another dispatcher. -/
def LocalReferenceRuntime.withDispatcher (runtime : LocalReferenceRuntime)
    (dispatcher : SignatureDispatcher) : LocalReferenceRuntime :=
  { runtime with dispatcher := dispatcher }

/-- Block import asks for the proposer's scheme and for those of the admission transactions. -/
theorem validateBlockAgainstReference_congr {header : ConsensusHeader} {body : ConsensusBody}
    {sidecar : ConsensusSidecar} {table : AdmissionTable}
    (filed : ∀ root entry, table.get? root = some entry →
      entry.1 ∈ scenario.admissionTransactions)
    (agree : ∀ id, UsesScheme runtime.resolver scenario header id →
      SameAnswers id first second) :
    (runtime.withDispatcher first).validateBlockAgainstReference sha256 scenario header body
        sidecar table =
      (runtime.withDispatcher second).validateBlockAgainstReference sha256 scenario header body
        sidecar table := by
  have hrevalidate : ∀ t policy,
      ReferenceTransactionRevalidator.revalidate sha256
          ⟨first, runtime.admissionPolicy, runtime.admissionStateView, table⟩ t policy =
        ReferenceTransactionRevalidator.revalidate sha256
          ⟨second, runtime.admissionPolicy, runtime.admissionStateView, table⟩ t policy := by
    intro t policy
    simp only [ReferenceTransactionRevalidator.revalidate]
    refine bind_congr_of_ok fun root _ => bind_congr_of_ok fun entry hentry => ?_
    cases hfound : table.get? root with
    | none =>
      rw [hfound] at hentry
      cases hentry
    | some found =>
      rw [hfound] at hentry
      obtain rfl := Except.ok.inj hentry
      rw [admitAndVerify_congr runtime.admissionPolicy runtime.admissionStateView _
        (fun a ha => agree _ (Or.inl ⟨found.1, filed root found hfound, a, ha, rfl⟩))]
  rw [LocalReferenceRuntime.validateBlockAgainstReference,
    LocalReferenceRuntime.validateBlockAgainstReference, outcome_importBlock, outcome_importBlock]
  refine bind_congr_of_ok fun headerOutcome hheader => ?_
  have hroot := canonicalRoot_of_prefilterHeader hheader
  refine bind_congr_of_ok fun _ _ => ?_
  have hsignature : Logged.outcome (verifyHeaderSignature sha256 header headerOutcome.blockRoot
      runtime.resolver first) = Logged.outcome (verifyHeaderSignature sha256 header
        headerOutcome.blockRoot runtime.resolver second) := by
    simp only [verifyHeaderSignature, Logged.outcome_bind, Logged.outcome_invoke,
      Logged.outcome_silent]
    refine bind_congr_of_ok fun credential hcredential => ?_
    have hscheme := (agree credential.schemeId (Or.inr ⟨_, credential, hroot,
      (mapError_eq_ok_iff _ _ _).mp hcredential, rfl⟩)).2
    rw [hscheme]
  change (Logged.outcome (verifyHeaderSignature sha256 header headerOutcome.blockRoot
    runtime.resolver first) >>= _) = (Logged.outcome (verifyHeaderSignature sha256 header
      headerOutcome.blockRoot runtime.resolver second) >>= _)
  rw [hsignature]
  refine bind_congr_of_ok fun _ _ => ?_
  simp only [LocalReferenceRuntime.importServices, LocalReferenceRuntime.withDispatcher,
    hrevalidate]
  rfl

/-- A run depends on the dispatcher only through the schemes it uses. -/
theorem run_congr
    (agree : ∀ id, UsesScheme runtime.resolver scenario scenario.block.header.toConsensus id →
      SameAnswers id first second) :
    (runtime.withDispatcher first).run sha256 scenario =
      (runtime.withDispatcher second).run sha256 scenario := by
  have hadmit : (runtime.withDispatcher first).admitTransactions sha256 scenario =
      (runtime.withDispatcher second).admitTransactions sha256 scenario := by
    refine mapM_congr_of_mem fun entry hentry => ?_
    have hmem := (List.of_mem_zip hentry).1
    exact congrArg (fun x => (Logged.outcome x).mapError LocalReferenceError.admission)
      (admitAndVerify_congr runtime.admissionPolicy runtime.admissionStateView _
        fun a ha => agree _ (Or.inl ⟨entry.1, hmem, a, ha, rfl⟩))
  rw [LocalReferenceRuntime.run, LocalReferenceRuntime.run, hadmit]
  refine bind_congr_of_ok fun _ _ => bind_congr_of_ok fun _ _ => ?_
  refine bind_congr_of_ok fun table hbuilt => ?_
  rw [validateBlockAgainstReference_congr _ agree]
  intro root entry hfound
  exact (List.of_mem_zip (mem_of_get?_table hbuilt hfound).1).1

end

/-! ## Registries -/

/-- The runtime whose dispatcher is a registry after some registrations. -/
def LocalReferenceRuntime.withVerifiers {ν : Type} [SignatureVerifier ν]
    (runtime : LocalReferenceRuntime) (config : DispatcherConfig) (vs : List ν) :
    LocalReferenceRuntime :=
  runtime.withDispatcher (VerifierRegistry.registered config vs).dispatcher

/-- Registries with the same latest verifier of a scheme answer for it alike. -/
theorem sameAnswers_of_latest_eq {ν : Type} [SignatureVerifier ν] (config : DispatcherConfig)
    {vs vs' : List ν} {id : UInt8}
    (same : latest SignatureVerifier.schemeId id vs = latest SignatureVerifier.schemeId id vs') :
    SameAnswers id (VerifierRegistry.registered config vs).dispatcher
      (VerifierRegistry.registered config vs').dispatcher := by
  have hregisters := VerifierRegistry.registers_registered config vs
  have hregisters' := VerifierRegistry.registers_registered config vs'
  have hpath : ∀ request path,
      (VerifierRegistry.registered config vs).verifyForPath id request path =
        (VerifierRegistry.registered config vs').verifyForPath id request path := by
    intro request path
    simp only [VerifierRegistry.verifyForPath, VerifierRegistry.maxSignatureSize,
      hregisters.stored, hregisters'.stored, hregisters.config_eq, hregisters'.config_eq, same]
  constructor
  · funext request
    exact congrArg Logged.outcome (hpath request .transactionAuthorization)
  · funext request
    exact congrArg Logged.outcome (hpath request .validatorMessage)

/-- What is registered for a scheme that neither an admission transaction nor the proposer uses
cannot be told from the verdict on a block, nor from the result of a run: errors included, both
are the same for any two histories of registrations that agree on the schemes in use. -/
theorem unused_schemes_are_inert {ν : Type} [SignatureVerifier ν] (sha256 : List UInt8 → Root)
    (runtime : LocalReferenceRuntime) (scenario : LocalReferenceScenario)
    (config : DispatcherConfig) (vs vs' : List ν) (header : ConsensusHeader)
    (agree : ∀ id, UsesScheme runtime.resolver scenario header id →
      latest SignatureVerifier.schemeId id vs = latest SignatureVerifier.schemeId id vs') :
    (∀ adapter adapter',
      LocalReferenceNetworkConsensusAdapter.tryNew sha256 (runtime.withVerifiers config vs)
          scenario = .ok adapter →
      LocalReferenceNetworkConsensusAdapter.tryNew sha256 (runtime.withVerifiers config vs')
          scenario = .ok adapter' →
      ∀ origin body sidecar,
        adapter.validateGossipBlock sha256 origin header body sidecar =
          adapter'.validateGossipBlock sha256 origin header body sidecar) ∧
      (header = scenario.block.header.toConsensus →
        (runtime.withVerifiers config vs).run sha256 scenario =
          (runtime.withVerifiers config vs').run sha256 scenario) := by
  have hanswers : ∀ id, UsesScheme runtime.resolver scenario header id → SameAnswers id _ _ :=
    fun id hid => sameAnswers_of_latest_eq config (agree id hid)
  constructor
  · intro adapter adapter' hbuilt hbuilt' origin body sidecar
    obtain ⟨hwellFormed, rfl⟩ := (consensus_tryNew_eq_ok_iff adapter).mp hbuilt
    obtain ⟨-, rfl⟩ := (consensus_tryNew_eq_ok_iff adapter').mp hbuilt'
    have htable := (buildAdmission_eq_ok_iff _).mpr ⟨hwellFormed.distinct, rfl⟩
    refine congrArg (reportOutcome ConsensusError.networkValidationOutcome) ?_
    refine validateBlockAgainstReference_congr ?_ hanswers
    intro root entry hfound
    exact (List.of_mem_zip (mem_of_get?_table htable hfound).1).1
  · rintro rfl
    exact run_congr hanswers

/-! ## Ed25519 under scheme 0 -/

/-- Where Ed25519 is the latest verifier of scheme 0, an accepted run has nothing under scheme 0
that is not signed: every transaction of the block has an admission transaction with its payload
root, each authorization of which under scheme 0 is a signature of the policy's signing root by the
key at its own position, and so is the proposer's signature of the block root if its credential
is of scheme 0. -/
theorem accepted_run_is_signed {ω : Type} [SignatureVerifier ω] (sha256 : List UInt8 → Root)
    (dalek : Dalek) (documented : dalek.Documented) (runtime : LocalReferenceRuntime)
    (config : DispatcherConfig) (vs : List (Ed25519Verifier dalek ⊕ ω))
    (registered : dalek.Registered vs) (scenario : LocalReferenceScenario)
    (o : LocalReferenceFlowOutcome)
    (accepted : (runtime.withVerifiers config vs).run sha256 scenario = .ok o) :
    (∀ t ∈ scenario.block.body.transactions, ∃ entry ∈ admissionEntries scenario,
      entryRoot sha256 entry = (Ssz.payloadRootRun sha256 t.payload).value ∧
        entry.1.authorizations ≠ [] ∧ entry.2.length = entry.1.authorizations.length ∧
        ∀ (i : Nat) (a : Authorization) (m : OwnedAuthorizationMaterial),
          entry.1.authorizations[i]? = some a → entry.2[i]? = some m →
          a.schemeId = schemeIdEd25519 → dalek.Signed ⟨m.publicKeyMaterial,
            AdmissionPipeline.policySigningRoot sha256 runtime.admissionPolicy
              (Ssz.payloadRootRun sha256 t.payload).value, a.signature⟩) ∧
      ∃ credential, runtime.resolver
          ⟨scenario.block.header.blockRoot, scenario.block.header.proposerIndexHint⟩ =
            .ok credential ∧
        (credential.schemeId = schemeIdEd25519 → dalek.Signed ⟨credential.publicKeyMaterial,
          validatorSigningRoot sha256 scenario.block.header.blockRoot,
          scenario.block.header.proposerSignature⟩) := by
  obtain ⟨-, -, table, hbuilt, himported⟩ := (LocalReferenceRuntime.run_eq_ok_iff o).mp accepted
  obtain ⟨blockRoot, credential, executed, hpassed, -⟩ := (importBlock_eq_ok_iff _).mp himported
  obtain rfl : scenario.block.header.blockRoot = blockRoot := Except.ok.inj hpassed.headerRoot
  refine ⟨fun t ht => ?_, credential, hpassed.resolved, fun hscheme => ?_⟩
  · obtain ⟨entry, hfound, v, hadmitted⟩ := (revalidate_eq_ok_iff _ t
      runtime.importConfig.multiAuthorizationPolicy).mp (hpassed.revalidated t ht)
    obtain ⟨hmem, hroot⟩ := mem_of_get?_table hbuilt hfound
    obtain ⟨⟨hscreened, hlength⟩, haccepted, -⟩ :=
      (AdmissionPipeline.admitAndVerify_eq_ok_iff v).mp hadmitted
    rw [List.length_map] at hlength
    refine ⟨entry, hmem, hroot, hscreened.authorized, hlength, ?_⟩
    intro i a m ha hm hscheme
    have hanswer := haccepted i a m.asBorrowed ha (by rw [List.getElem?_map, hm, Option.map_some])
    rw [← hroot]
    rw [hscheme] at hanswer
    exact ((verifyTransactionAuthorization_ed25519 documented registered config).mp hanswer).2
  · have hanswer : (VerifierRegistry.registered config vs).dispatcher.verifyValidatorMessage
        credential.schemeId _ = .ok () := hpassed.signed
    rw [hscheme] at hanswer
    exact ((verifyValidatorMessage_ed25519 documented registered config).mp hanswer).2

/-! ## Placeholders -/

theorem admission_of_admitTransactions {sha256 : List UInt8 → Root}
    {runtime : LocalReferenceRuntime} {scenario : LocalReferenceScenario}
    {error : LocalReferenceError}
    (failed : runtime.admitTransactions sha256 scenario = .error error) :
    ∃ e, error = .admission e := by
  have hfails : FailsOnly (fun error => ∃ e, error = LocalReferenceError.admission e)
      (runtime.admitTransactions sha256 scenario) :=
    .mapM fun entry _ => .mapError (fun e => ⟨e, rfl⟩) _
  exact hfails error failed

/-- The second half of the placeholder signature is no reduced scalar. -/
theorem placeholder_unreduced :
    groupOrder ≤ leNat ((List.replicate 64 (0xA5 : UInt8)).drop 32) := by
  decide +kernel

/-- A resolved scenario with a transaction in it is never accepted where Ed25519 is the latest
verifier of scheme 0: whatever it plans, the run ends in admission. -/
theorem no_resolved_block_under_ed25519 {ω : Type} [SignatureVerifier ω]
    (sha256 : List UInt8 → Root) (dalek : Dalek) (documented : dalek.Documented)
    (runtime : LocalReferenceRuntime) (config : DispatcherConfig)
    (vs : List (Ed25519Verifier dalek ⊕ ω)) (registered : dalek.Registered vs)
    (store : FixtureStore) (fixture : RootCheckVector) (scenario : RootCheckScenario)
    (resolved : resolveRootCheckScenario sha256 store fixture = .ok scenario)
    (nonempty : scenario.transactions ≠ []) :
    ∃ reference e, LocalReferenceScenario.fromRootCheckScenario sha256 scenario = .ok reference ∧
      (runtime.withVerifiers config vs).run sha256 reference = .error (.admission e) := by
  obtain ⟨vectors, hresolves⟩ := resolveRootCheckScenario_eq_ok_iff.mp resolved
  have hwellFormed := hresolves.wellFormed
  obtain ⟨t, ht⟩ := List.exists_mem_of_ne_nil _ nonempty
  have hrefused : ¬ ∃ admissions, (runtime.withVerifiers config vs).admitTransactions sha256
      (.assemble scenario (scenario.transactions.map (placeholderTransaction sha256))) =
        .ok admissions := by
    intro hadmitted
    have hplaceholder := (admitTransactions_assemble hwellFormed.unsigned).mp hadmitted t ht
    exact documented.not_signed placeholder_unreduced
      ((verifyTransactionAuthorization_ed25519 documented registered config).mp
        hplaceholder.accepted).2
  cases hadmission : (runtime.withVerifiers config vs).admitTransactions sha256
      (.assemble scenario (scenario.transactions.map (placeholderTransaction sha256))) with
  | ok admissions => exact absurd ⟨admissions, hadmission⟩ hrefused
  | error error =>
    obtain ⟨e, rfl⟩ := admission_of_admitTransactions hadmission
    refine ⟨_, e, fromRootCheckScenario_of_unsigned hwellFormed.unsigned, ?_⟩
    rw [LocalReferenceRuntime.run, validateScenarioShape_assemble hwellFormed, ok_bind, hadmission,
      error_bind]

/-! ## A signed run -/

def sampleKey : List UInt8 :=
  beBytes 32 0x8a88e3dd7409f195fd52db2d3cba5d72ca6709bf1d94121bf3748801b40f6f5c

/-- The signature of the transfer's signing root by the secret key of 32 ones. -/
def sampleAuthorization : List UInt8 :=
  beBytes 32 0xba59bb29341eb7a7c9888e05c1cfc108c0d166df7f65b275723f1978254c48dc ++
    beBytes 32 0x7bed6ca22785a2d429ebb71c8b2e51d6aed47f7d2ab9c15c86e9fefccd952603

/-- The signature of the block's signing root by the same key. -/
def sampleProposal : List UInt8 :=
  beBytes 32 0xd32dca4e6a4a8fdf4c407281b2b2603b10b97701e6d820fa2e18ceba8bb8c3d3 ++
    beBytes 32 0xcc9f2edd5bbf1ef5bd1340724f9d5f646f24e70d716104717b4db699d7ed9e00

theorem length_sampleAuthorization : sampleAuthorization.length = 64 := by
  simp [sampleAuthorization]

theorem length_sampleProposal : sampleProposal.length = 64 := by
  simp [sampleProposal]

def transferSigningRoot : Root :=
  AdmissionPipeline.policySigningRoot Sha256.digest echoRuntime.admissionPolicy
    (Ssz.payloadRootRun Sha256.digest unsignedTransfer.payload).value

def blockSigningRoot : Root := validatorSigningRoot Sha256.digest (padTo 32 [1])

/-- The library on the key and the two signatures. -/
def sampleDalek : Dalek :=
  .recorded sampleKey [(transferSigningRoot.toList, sampleAuthorization),
    (blockSigningRoot.toList, sampleProposal)]

theorem documented_sampleDalek : sampleDalek.Documented := by
  refine Dalek.documented_recorded sampleKey fun entry hentry => ?_
  rcases List.mem_pair.mp hentry with rfl | rfl
  · decide +kernel
  · decide +kernel

/-- The transfer with its authorization under scheme 0. -/
def signedTransfer : TransactionEnvelope where
  payload := unsignedTransfer.payload
  authorizations :=
    [⟨0, (Ssz.payloadRootRun Sha256.digest unsignedTransfer.payload).value, sampleAuthorization⟩]

def signedScenario : LocalReferenceScenario :=
  let scenario := idleScenario [unsignedTransfer] [(signedTransfer, [⟨sampleKey⟩])]
  { scenario with
    block :=
      { scenario.block with
        header := { scenario.block.header with proposerSignature := sampleProposal } } }

def signedRuntime : LocalReferenceRuntime :=
  { echoRuntime with resolver := fun _ => .ok ⟨0, sampleKey⟩ }

def sampleVerifiers : List (Ed25519Verifier sampleDalek ⊕ VerifierRegistry.MockVerifier) :=
  [.inr VerifierRegistry.sampleVerifier, .inl ⟨⟩]

theorem registered_sampleVerifiers : sampleDalek.Registered sampleVerifiers := rfl

theorem signed_transfer :
    sampleDalek.Signed ⟨sampleKey, transferSigningRoot, sampleAuthorization⟩ :=
  Dalek.signed_recorded (length_beBytes _ _) length_sampleAuthorization List.mem_cons_self

theorem signed_proposal : sampleDalek.Signed ⟨sampleKey, blockSigningRoot, sampleProposal⟩ :=
  Dalek.signed_recorded (length_beBytes _ _) length_sampleProposal
    (List.mem_cons_of_mem _ List.mem_cons_self)

theorem admitted_signedTransfer :
    ∃ v, Logged.outcome ((signedRuntime.withVerifiers {} sampleVerifiers).validateTransaction
      Sha256.digest signedTransfer [⟨sampleKey⟩]) = .ok v := by
  refine ⟨_, (AdmissionPipeline.admitAndVerify_eq_ok_iff _).mpr ⟨⟨⟨List.cons_ne_nil _ _, ?_, ?_,
    Nat.le_refl _, Nat.le_refl _, ?_⟩, rfl⟩, ?_, rfl⟩⟩
  · intro a ha
    rw [List.mem_singleton.mp ha]
    rfl
  · intro a ha
    rw [List.mem_singleton.mp ha]
    exact length_sampleAuthorization.trans_le (by decide)
  · intro n hn
    obtain rfl := Option.some.inj hn
    exact ⟨by decide, by decide⟩
  · intro i a m ha hm
    match i, ha, hm with
    | 0, rfl, rfl =>
      exact (verifyTransactionAuthorization_ed25519 documented_sampleDalek
        registered_sampleVerifiers {}).mpr ⟨by decide, signed_transfer⟩

/-- The table of the one admission entry. -/
def signedTable : AdmissionTable :=
  SortedMap.empty.insert (Ssz.payloadRootRun Sha256.digest unsignedTransfer.payload).value
    (signedTransfer, [⟨sampleKey⟩])

theorem accepted_signedScenario :
    Accepted Sha256.digest ⟨signedRuntime.importConfig⟩
      signedScenario.block.header.toConsensus signedScenario.block.body.toConsensus
      signedScenario.block.sidecar.toConsensus
      ((signedRuntime.withVerifiers {} sampleVerifiers).importServices Sha256.digest signedScenario
        signedTable)
      (padTo 32 [1]) ⟨0, sampleKey⟩ (ReferenceExecutionEngine.plannedOutcome Sha256.digest
        ⟨zeros 32, [], idlePlan [unsignedTransfer]⟩) where
  headerRoot := rfl
  witnessBytes maxBytes hmax := by cases hmax
  bodyRoot := rfl
  resolved := rfl
  signed := (verifyValidatorMessage_ed25519 documented_sampleDalek registered_sampleVerifiers
    {}).mpr ⟨fun _ hlimit => (nomatch hlimit), signed_proposal⟩
  revalidated t ht := by
    obtain rfl := List.mem_singleton.mp ht
    refine (revalidate_eq_ok_iff _ _ .requireAll).mpr ⟨(signedTransfer, [⟨sampleKey⟩]), ?_,
      admitted_signedTransfer⟩
    exact (SortedMap.get?_insert _ _ _ _).trans (if_pos rfl)
  sidecarRoot := rfl
  commitment := rfl
  prepared := (prepareWitness_eq_ok_iff Sha256.digest ⟨zeros 32, [], []⟩
    signedScenario.block.header.toConsensus signedScenario.block.sidecar.toConsensus).mpr
      ⟨rfl, .new, rfl, rfl, rfl⟩
  execution := accepted_unsignedScenario.execution
  postState := rfl
  receipts := rfl

theorem run_signedScenario :
    ∃ o, (signedRuntime.withVerifiers {} sampleVerifiers).run Sha256.digest signedScenario =
      .ok o := by
  obtain ⟨v, hv⟩ := admitted_signedTransfer
  refine ⟨⟨[v], _⟩, (LocalReferenceRuntime.run_eq_ok_iff _).mpr
    ⟨rfl, ?_, signedTable, ?_, (importBlock_eq_ok_iff _).mpr
      ⟨_, _, _, accepted_signedScenario, rfl⟩⟩⟩
  · refine (mapM_eq_ok_iff _ _ _).mpr (List.Forall₂.cons ?_ List.Forall₂.nil)
    exact (mapError_eq_ok_iff _ _ _).mpr hv
  · refine (collectAdmissionTransactions_eq_ok_iff Sha256.digest _ _ _).mpr ⟨?_, ?_, rfl⟩
    · exact List.nodup_singleton _
    · intro entry _
      rfl

/-- The transfer is authorized, and the block proposed, by the owner of the key. -/
theorem accepted_run_is_signed_sample :
    (∃ a ∈ signedTransfer.authorizations, sampleDalek.Signed ⟨sampleKey, transferSigningRoot,
        a.signature⟩) ∧
      sampleDalek.Signed ⟨sampleKey, blockSigningRoot, sampleProposal⟩ := by
  obtain ⟨o, ho⟩ := run_signedScenario
  obtain ⟨hbody, credential, hresolved, hproposal⟩ := accepted_run_is_signed Sha256.digest
    sampleDalek documented_sampleDalek signedRuntime {} sampleVerifiers registered_sampleVerifiers
    signedScenario o ho
  obtain rfl := Except.ok.inj hresolved
  refine ⟨?_, hproposal rfl⟩
  obtain ⟨entry, hentry, -, -, -, hsigned⟩ := hbody unsignedTransfer (List.mem_singleton.mpr rfl)
  obtain rfl := List.mem_singleton.mp hentry
  exact ⟨_, List.mem_singleton.mpr rfl, hsigned 0 _ _ rfl rfl rfl⟩

def shortHistory : List VerifierRegistry.MockVerifier :=
  [VerifierRegistry.sampleVerifier, ⟨1, none, none, false⟩]

/-- The same verifier of scheme 1 in the end, and no more than that in common. -/
def longHistory : List VerifierRegistry.MockVerifier :=
  [⟨1, none, none, true⟩, ⟨1, none, none, false⟩, ⟨7, none, some 1, true⟩]

theorem unused_schemes_are_inert_sample :
    (echoRuntime.withVerifiers {} shortHistory).run Sha256.digest unsignedScenario =
      (echoRuntime.withVerifiers {} longHistory).run Sha256.digest unsignedScenario := by
  refine (unused_schemes_are_inert Sha256.digest echoRuntime unsignedScenario {} _ _
    unsignedScenario.block.header.toConsensus ?_).2 rfl
  rintro id (⟨t, ht, a, ha, rfl⟩ | ⟨blockRoot, credential, -, hresolved, rfl⟩)
  · obtain rfl := List.mem_singleton.mp ht
    obtain rfl := List.mem_singleton.mp ha
    rfl
  · obtain rfl := Except.ok.inj hresolved
    rfl

theorem no_resolved_block_under_ed25519_sample :
    ∃ reference e,
      LocalReferenceScenario.fromRootCheckScenario Sha256.digest plannedScenario = .ok reference ∧
        (placeholderRuntime.withVerifiers {} sampleVerifiers).run Sha256.digest reference =
          .error (.admission e) :=
  no_resolved_block_under_ed25519 Sha256.digest sampleDalek documented_sampleDalek
    placeholderRuntime {} sampleVerifiers registered_sampleVerifiers _ _ plannedScenario
    resolve_plannedScenario (List.cons_ne_nil _ _)

end ShellCli
