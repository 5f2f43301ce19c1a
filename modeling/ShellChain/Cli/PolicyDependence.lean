import ShellChain.Cli.BlockBinding

/-!
# How far local policy reaches into block validity

Revalidating a body transaction is three things in a row: the structural checks
of its admission entry, the fee and nonce policy of the runtime, and the
signatures. Only the middle one reads the local policy. A block it stops is
policy-rejected; every other block gets the verdict it would get without the
middle part, and that verdict is never a policy rejection.
-/

namespace ShellCli

open ByteCodec ShellPrimitives ShellCrypto ShellMempool ShellState ShellExecution ShellConsensus
open ShellNetwork SortedMap Except

/-! ## The parts of revalidation -/

section
variable (sha256 : List UInt8 → Root)

/-- The entry a body transaction is revalidated through. -/
def findEntry (table : AdmissionTable) (t : TransactionEnvelope) :
    Except ValidationError AdmissionEntry :=
  match table.get? (Ssz.payloadRootRun sha256 t.payload).value with
  | some entry => .ok entry
  | none => .error (.authorizationMaterialCount ⟨1, 0⟩)

/-- The checks of screening that read nothing but the envelope. -/
def structuralChecks (envelope : TransactionEnvelope) : Except ValidationError Unit := do
  (checkAuthorizationCount envelope.authorizations).mapError .primitive
  (checkAuthorizationPayloadRoots sha256 envelope.payload envelope.authorizations).mapError
    .primitive
  envelope.authorizations.forM fun authorization =>
    (checkUserSignatureSize authorization.signature).mapError .primitive

/-- The checks of screening that read the local policy. -/
def policyChecks (runtime : LocalReferenceRuntime) (envelope : TransactionEnvelope) :
    Except ValidationError Unit := do
  AdmissionPipeline.checkFeePolicy ⟨runtime.dispatcher, runtime.admissionPolicy⟩ envelope
  AdmissionPipeline.checkNoncePolicy ⟨runtime.dispatcher, runtime.admissionPolicy⟩ envelope
    runtime.admissionStateView

/-- The signatures of an entry. -/
def signatureChecks (runtime : LocalReferenceRuntime) (entry : AdmissionEntry) :
    Except ValidationError Unit := do
  let _ ← Logged.outcome (AdmissionPipeline.verifyAuthorizations
    ⟨runtime.dispatcher, runtime.admissionPolicy⟩ sha256 entry.1
    ⟨(Ssz.payloadRootRun sha256 entry.1.payload).value, entry.1.authorizations.length⟩
    (entry.2.map OwnedAuthorizationMaterial.asBorrowed))
  .ok ()

/-- Revalidation with the policy left out. -/
def unpolicedRevalidate (runtime : LocalReferenceRuntime) (table : AdmissionTable)
    (t : TransactionEnvelope) : Except ValidationError Unit := do
  let entry ← findEntry sha256 table t
  structuralChecks sha256 entry.1
  signatureChecks sha256 runtime entry

/-- Revalidation as the runtime's import services do it. -/
def policedRevalidate (runtime : LocalReferenceRuntime) (table : AdmissionTable)
    (t : TransactionEnvelope) : Except ValidationError Unit :=
  ReferenceTransactionRevalidator.revalidate sha256
    ⟨runtime.dispatcher, runtime.admissionPolicy, runtime.admissionStateView, table⟩ t
    runtime.importConfig.multiAuthorizationPolicy

variable {sha256} {runtime : LocalReferenceRuntime} {table : AdmissionTable}

/-- The order of the parts, as screening and verification make it. -/
theorem policedRevalidate_eq (t : TransactionEnvelope) :
    policedRevalidate sha256 runtime table t = (do
      let entry ← findEntry sha256 table t
      structuralChecks sha256 entry.1
      policyChecks runtime entry.1
      signatureChecks sha256 runtime entry) := by
  have hentry : ∀ entry : AdmissionEntry, (do
      let _ ← Logged.outcome (AdmissionPipeline.admitAndVerify
        ⟨runtime.dispatcher, runtime.admissionPolicy⟩ sha256 entry.1 runtime.admissionStateView
        (entry.2.map OwnedAuthorizationMaterial.asBorrowed))
      Except.ok ()) = (do
      structuralChecks sha256 entry.1
      policyChecks runtime entry.1
      signatureChecks sha256 runtime entry) := by
    intro entry
    rw [AdmissionPipeline.admitAndVerify, Logged.outcome_bind, Logged.outcome_silent,
      AdmissionPipeline.screenTransaction, TransactionEnvelope.payloadRoot_eq,
      TransactionPayloadSsz.ensureSupportedTag_protocolTag]
    simp only [structuralChecks, policyChecks, signatureChecks, bind_assoc]
    rfl
  rw [policedRevalidate, ReferenceTransactionRevalidator.revalidate,
    TransactionEnvelope.payloadRoot_eq]
  simp only [hentry]
  rfl

/-! ## What each part can say -/

/-- The entry found for a transaction passes every check that no policy enters. -/
structure SoundEntry (sha256 : List UInt8 → Root) (table : AdmissionTable)
    (t : TransactionEnvelope) (entry : AdmissionEntry) : Prop where
  found : table.get? (Ssz.payloadRootRun sha256 t.payload).value = some entry
  authorized : entry.1.authorizations ≠ []
  boundToPayload : ∀ a ∈ entry.1.authorizations,
    entry.1.payload.hashTreeRoot sha256 = .ok a.payloadRoot
  shortSignatures : ∀ a ∈ entry.1.authorizations, a.signature.length ≤ maxUserSignatureBytes

/-- The runtime's fee schedule, nonce policy and state view let the envelope through. -/
def PolicyAllows (runtime : LocalReferenceRuntime) (envelope : TransactionEnvelope) : Prop :=
  AdmissionPipeline.checkFeePolicy ⟨runtime.dispatcher, runtime.admissionPolicy⟩ envelope =
      .ok () ∧
    AdmissionPipeline.checkNoncePolicy ⟨runtime.dispatcher, runtime.admissionPolicy⟩ envelope
      runtime.admissionStateView = .ok ()

/-- The dispatcher accepts every authorization of the entry with its material. -/
structure SignedEntry (sha256 : List UInt8 → Root) (runtime : LocalReferenceRuntime)
    (entry : AdmissionEntry) : Prop where
  counted : entry.2.length = entry.1.authorizations.length
  accepted : AdmissionPipeline.AllAccepted runtime.dispatcher
    (AdmissionPipeline.policySigningRoot sha256 runtime.admissionPolicy
      (Ssz.payloadRootRun sha256 entry.1.payload).value)
    entry.1 (entry.2.map OwnedAuthorizationMaterial.asBorrowed)

theorem findEntry_eq_ok_iff (t : TransactionEnvelope) (entry : AdmissionEntry) :
    findEntry sha256 table t = .ok entry ↔
      table.get? (Ssz.payloadRootRun sha256 t.payload).value = some entry := by
  rw [findEntry]
  cases table.get? (Ssz.payloadRootRun sha256 t.payload).value <;> simp

theorem structuralChecks_eq_ok_iff (envelope : TransactionEnvelope) :
    structuralChecks sha256 envelope = .ok () ↔
      envelope.authorizations ≠ [] ∧
        (∀ a ∈ envelope.authorizations, envelope.payload.hashTreeRoot sha256 = .ok a.payloadRoot) ∧
        ∀ a ∈ envelope.authorizations, a.signature.length ≤ maxUserSignatureBytes := by
  rw [structuralChecks, check_bind_eq_ok_iff, check_bind_eq_ok_iff, mapError_eq_ok_iff,
    mapError_eq_ok_iff, checkAuthorizationCount_eq_ok_iff,
    checkAuthorizationPayloadRoots_eq_ok_iff]
  refine and_congr_right fun _ => and_congr_right fun _ => (forM_eq_ok_iff _ _).trans ?_
  simp only [mapError_eq_ok_iff, checkUserSignatureSize_eq_ok_iff]

theorem soundEntry_iff (t : TransactionEnvelope) (entry : AdmissionEntry) :
    SoundEntry sha256 table t entry ↔
      findEntry sha256 table t = .ok entry ∧ structuralChecks sha256 entry.1 = .ok () := by
  rw [findEntry_eq_ok_iff, structuralChecks_eq_ok_iff]
  exact ⟨fun ⟨a, b, c, d⟩ => ⟨a, b, c, d⟩, fun ⟨a, b, c, d⟩ => ⟨a, b, c, d⟩⟩

theorem policyChecks_eq_ok_iff (envelope : TransactionEnvelope) :
    policyChecks runtime envelope = .ok () ↔ PolicyAllows runtime envelope :=
  check_bind_eq_ok_iff _ _ _

/-- A policy check that fails is a policy rejection. -/
theorem failsOnly_policyChecks (envelope : TransactionEnvelope) :
    FailsOnly (fun e : ValidationError => e.networkValidationOutcome = some .policyReject)
      (policyChecks runtime envelope) := by
  apply FailsOnly.bind
  · exact .ite (fun _ => .error rfl) fun _ => .ite (fun _ => .error rfl) fun _ => .ok ()
  · intro _ _
    cases runtime.admissionStateView with
    | none => exact .ok ()
    | some view =>
      cases hnonce : view envelope with
      | none =>
        simp only [AdmissionPipeline.checkNoncePolicy, hnonce]
        exact .ok ()
      | some observed =>
        simp only [AdmissionPipeline.checkNoncePolicy, hnonce]
        exact .ite (fun _ => .error rfl) fun _ => .ite (fun _ => .error rfl) fun _ => .ok ()

/-- The error is a verdict on the envelope, or none at all, but no policy rejection. -/
def NotPolicy (e : ValidationError) : Prop := e.networkValidationOutcome ≠ some .policyReject

theorem notPolicy_primitive (e : PrimitiveError) : NotPolicy (.primitive e) := by
  cases e <;> simp [NotPolicy, ValidationError.networkValidationOutcome,
    PrimitiveError.networkValidationOutcome]

theorem notPolicy_mapCryptoError (e : CryptoError) : NotPolicy (mapCryptoError e) := by
  cases e <;> simp [NotPolicy, mapCryptoError, ValidationError.networkValidationOutcome]

theorem failsOnly_structuralChecks (envelope : TransactionEnvelope) :
    FailsOnly NotPolicy (structuralChecks sha256 envelope) := by
  apply FailsOnly.bind (.mapError notPolicy_primitive _)
  intro _ _
  apply FailsOnly.bind (.mapError notPolicy_primitive _)
  intro _ _
  exact .forM fun _ _ => .mapError notPolicy_primitive _

theorem failsOnly_signatureChecks (entry : AdmissionEntry) :
    FailsOnly NotPolicy (signatureChecks sha256 runtime entry) := by
  refine FailsOnly.bind ?_ fun _ _ => .ok ()
  rw [AdmissionPipeline.verifyAuthorizations]
  by_cases hcount : (entry.2.map OwnedAuthorizationMaterial.asBorrowed).length ≠
      entry.1.authorizations.length
  · rw [if_pos hcount]
    exact .error (by simp [NotPolicy, ValidationError.networkValidationOutcome])
  · rw [if_neg hcount, Logged.outcome_bind, Logged.outcome_silent]
    refine FailsOnly.bind (.mapError
      (fun e => by simp [NotPolicy, ValidationError.networkValidationOutcome]) _) ?_
    intro signingRoot _
    cases runtime.admissionPolicy.multiAuthorizationPolicy
    rw [Logged.outcome_bind]
    refine FailsOnly.bind ?_ fun _ _ => .ok _
    change FailsOnly NotPolicy (Logged.outcome (forM (entry.1.authorizations.zip
      (entry.2.map OwnedAuthorizationMaterial.asBorrowed))
      (AdmissionPipeline.verifyAuthorization _ signingRoot)))
    rw [Logged.outcome_forM]
    exact .forM fun _ _ => .mapError notPolicy_mapCryptoError _

theorem failsOnly_unpolicedRevalidate (t : TransactionEnvelope) :
    FailsOnly NotPolicy (unpolicedRevalidate sha256 runtime table t) := by
  apply FailsOnly.bind
  · rw [findEntry]
    cases table.get? (Ssz.payloadRootRun sha256 t.payload).value with
    | none => exact .error (by simp [NotPolicy, ValidationError.networkValidationOutcome])
    | some entry => exact .ok entry
  · intro entry _
    apply FailsOnly.bind (failsOnly_structuralChecks entry.1)
    intro _ _
    exact failsOnly_signatureChecks entry

/-- The transaction passes revalidation under the runtime's policy. -/
def Revalidates (sha256 : List UInt8 → Root) (runtime : LocalReferenceRuntime)
    (table : AdmissionTable) (t : TransactionEnvelope) : Prop :=
  ∃ entry, SoundEntry sha256 table t entry ∧ PolicyAllows runtime entry.1 ∧
    SignedEntry sha256 runtime entry

theorem policedRevalidate_eq_ok_iff (t : TransactionEnvelope) :
    policedRevalidate sha256 runtime table t = .ok () ↔
      Revalidates sha256 runtime table t := by
  refine (revalidate_eq_ok_iff _ t runtime.importConfig.multiAuthorizationPolicy).trans ?_
  simp only [AdmissionPipeline.admitAndVerify_eq_ok_iff, List.length_map]
  constructor
  · rintro ⟨entry, hfound, _, ⟨hscreened, hcount⟩, haccepted, -⟩
    obtain ⟨hauthorized, hbound, hshort, hfees, hnonce⟩ :=
      AdmissionPipeline.screened_iff.mp hscreened
    refine ⟨entry, ⟨hfound, hauthorized, hbound, hshort⟩, ⟨?_, ?_⟩, hcount, haccepted⟩
    · exact AdmissionPipeline.checkFeePolicy_eq_ok_iff.mpr hfees
    · exact (AdmissionPipeline.checkNoncePolicy_eq_ok_iff _).mpr hnonce
  · rintro ⟨entry, hsound, ⟨hfee, hnonce⟩, hcount, haccepted⟩
    have hscreened := AdmissionPipeline.screened_iff.mpr ⟨hsound.authorized,
      hsound.boundToPayload, hsound.shortSignatures,
      AdmissionPipeline.checkFeePolicy_eq_ok_iff.mp hfee,
      (AdmissionPipeline.checkNoncePolicy_eq_ok_iff _).mp hnonce⟩
    exact ⟨entry, hsound.found, _, ⟨hscreened, hcount⟩, haccepted, rfl⟩

/-- A sound entry the policy refuses ends revalidation with a policy rejection. -/
theorem policedRevalidate_of_refused {t : TransactionEnvelope} {entry : AdmissionEntry}
    (sound : SoundEntry sha256 table t entry) (refused : ¬ PolicyAllows runtime entry.1) :
    ∃ e, policedRevalidate sha256 runtime table t = .error e ∧
      e.networkValidationOutcome = some .policyReject := by
  obtain ⟨hfound, hstructure⟩ := (soundEntry_iff t entry).mp sound
  cases hpolicy : policyChecks runtime entry.1 with
  | ok u => exact absurd ((policyChecks_eq_ok_iff entry.1).mp hpolicy) refused
  | error e =>
    refine ⟨e, ?_, failsOnly_policyChecks entry.1 e hpolicy⟩
    rw [policedRevalidate_eq, hfound, ok_bind, hstructure, ok_bind, hpolicy, error_bind]

/-- Anywhere else the policy makes no difference. -/
theorem policedRevalidate_of_not_refused {t : TransactionEnvelope}
    (allowed : ∀ entry, SoundEntry sha256 table t entry → PolicyAllows runtime entry.1) :
    policedRevalidate sha256 runtime table t = unpolicedRevalidate sha256 runtime table t := by
  rw [policedRevalidate_eq, unpolicedRevalidate]
  apply bind_congr_of_ok
  intro entry hfound
  apply bind_congr_of_ok
  intro _ hstructure
  have hallows := allowed entry ((soundEntry_iff t entry).mpr ⟨hfound, hstructure⟩)
  rw [(policyChecks_eq_ok_iff entry.1).mpr hallows, ok_bind]

/-! ## The loop over the body -/

/-- The first transaction that does not pass is one whose sound entry the policy refuses. -/
def PolicyStops (sha256 : List UInt8 → Root) (runtime : LocalReferenceRuntime)
    (table : AdmissionTable) (transactions : List TransactionEnvelope) : Prop :=
  ∃ done t rest entry, transactions = done ++ t :: rest ∧
    (∀ u ∈ done, Revalidates sha256 runtime table u) ∧ SoundEntry sha256 table t entry ∧
    ¬ PolicyAllows runtime entry.1

theorem loop_of_policyStops {transactions : List TransactionEnvelope}
    (stops : PolicyStops sha256 runtime table transactions) :
    ∃ e, forM transactions (policedRevalidate sha256 runtime table) = .error e ∧
      e.networkValidationOutcome = some .policyReject := by
  obtain ⟨done, t, rest, entry, rfl, hdone, hsound, hrefused⟩ := stops
  obtain ⟨e, he, houtcome⟩ := policedRevalidate_of_refused hsound hrefused
  refine ⟨e, forM_eq_error_of_first ?_ he, houtcome⟩
  intro u hu
  exact (policedRevalidate_eq_ok_iff u).mpr (hdone u hu)

theorem loop_of_not_policyStops {transactions : List TransactionEnvelope}
    (passes : ¬ PolicyStops sha256 runtime table transactions) :
    forM transactions (policedRevalidate sha256 runtime table) =
      forM transactions (unpolicedRevalidate sha256 runtime table) := by
  induction transactions with
  | nil => rfl
  | cons t transactions ih =>
    have hallowed : ∀ entry, SoundEntry sha256 table t entry → PolicyAllows runtime entry.1 := by
      intro entry hsound
      by_contra hrefused
      exact passes ⟨[], t, transactions, entry, rfl, by simp, hsound, hrefused⟩
    rw [List.forM_cons, List.forM_cons, ← policedRevalidate_of_not_refused hallowed]
    apply bind_congr_of_ok
    intro _ hfirst
    -- Were the rest stopped by the policy, so would the whole, since `t` passes.
    apply ih
    rintro ⟨done, t', rest, entry, rfl, hdone, hsound, hrefused⟩
    have ht := (policedRevalidate_eq_ok_iff t).mp hfirst
    exact passes ⟨t :: done, t', rest, entry, rfl, List.forall_mem_cons.mpr ⟨ht, hdone⟩,
      hsound, hrefused⟩

end

/-! ## The stages around it -/

section
variable {sha256 : List UInt8 → Root} {pipeline : BlockImportPipeline} {header : ConsensusHeader}
variable {body : ConsensusBody} {sidecar : ConsensusSidecar}

/-- The stages before revalidation pass: the header's prefilter, the body's binding and the
proposer's signature. -/
def HeadStagesPass (sha256 : List UInt8 → Root) (config : BlockImportConfig)
    (resolver : ProposerCredentialResolver) (dispatcher : SignatureDispatcher)
    (header : ConsensusHeader) (body : ConsensusBody) (blockRoot : Root) : Prop :=
  prefilterHeader header config.headerPrefilter = .ok ⟨blockRoot⟩ ∧
    verifyBodyBinding header body = .ok () ∧
    Logged.outcome (verifyHeaderSignature sha256 header blockRoot resolver dispatcher) = .ok ()

theorem outcome_importBlock (services : BlockImportServices) :
    Logged.outcome (pipeline.importBlock sha256 header body sidecar services) = (do
      let headerOutcome ← prefilterHeader header pipeline.config.headerPrefilter
      verifyBodyBinding header body
      Logged.outcome (verifyHeaderSignature sha256 header headerOutcome.blockRoot
        services.resolver services.dispatcher)
      (forM body.transactions fun t =>
        services.revalidator t pipeline.config.multiAuthorizationPolicy).mapError
          ConsensusError.transactionValidation
      Logged.outcome (importFromSidecar header body sidecar services headerOutcome.blockRoot)) := by
  have hloop : Logged.outcome (revalidateBodyTransactions body services.revalidator
      pipeline.config.multiAuthorizationPolicy) = (forM body.transactions fun t =>
        services.revalidator t pipeline.config.multiAuthorizationPolicy).mapError
          ConsensusError.transactionValidation := by
    rw [revalidateBodyTransactions, Logged.outcome_forM, ← forM_mapError]
    rfl
  rw [BlockImportPipeline.importBlock]
  simp only [Logged.outcome_bind, Logged.outcome_silent, hloop, importFromSidecar]

theorem outcome_importBlock_of_headStages {services : BlockImportServices} {blockRoot : Root}
    (pass : HeadStagesPass sha256 pipeline.config services.resolver services.dispatcher header body
      blockRoot) :
    Logged.outcome (pipeline.importBlock sha256 header body sidecar services) = (do
      (forM body.transactions fun t =>
        services.revalidator t pipeline.config.multiAuthorizationPolicy).mapError
          ConsensusError.transactionValidation
      Logged.outcome (importFromSidecar header body sidecar services blockRoot)) := by
  obtain ⟨hheader, hbody, hsignature⟩ := pass
  rw [outcome_importBlock, hheader, ok_bind, hbody, ok_bind, hsignature, ok_bind]

/-- A block that fails before revalidation fails the same way whatever revalidates it. -/
theorem outcome_importBlock_of_not_headStages {services services' : BlockImportServices}
    (resolver : services.resolver = services'.resolver)
    (dispatcher : services.dispatcher = services'.dispatcher)
    (fails : ∀ blockRoot, ¬ HeadStagesPass sha256 pipeline.config services.resolver
      services.dispatcher header body blockRoot) :
    Logged.outcome (pipeline.importBlock sha256 header body sidecar services) =
      Logged.outcome (pipeline.importBlock sha256 header body sidecar services') := by
  rw [outcome_importBlock, outcome_importBlock, ← resolver, ← dispatcher]
  apply bind_congr_of_ok
  intro headerOutcome hheader
  apply bind_congr_of_ok
  intro _ hbody
  apply bind_congr_of_ok
  intro _ hsignature
  exact absurd ⟨hheader, hbody, hsignature⟩ (fails headerOutcome.blockRoot)

/-- The error does not come out as a policy rejection of the block. -/
def NotPolicyVerdict (e : ConsensusError) : Prop :=
  e.networkValidationOutcome ≠ some .policyReject

theorem notPolicyVerdict_of_reject {e : ConsensusError}
    (h : e.networkValidationOutcome = some .reject) : NotPolicyVerdict e := by
  rw [NotPolicyVerdict, h]
  decide

theorem failsOnly_verifySidecarBinding (blockRoot : Root)
    (preparer : ConsensusHeader → ConsensusSidecar → Except StateError Unit) :
    FailsOnly NotPolicyVerdict
      (Logged.outcome (verifySidecarBinding header blockRoot sidecar preparer)) := by
  rw [verifySidecarBinding]
  by_cases hroot : sidecar.blockRoot ≠ blockRoot
  · rw [if_pos hroot]
    exact .error (notPolicyVerdict_of_reject rfl)
  · rw [if_neg hroot]
    by_cases hcommitment : sidecar.committedRoot ≠ header.executionWitnessesRoot
    · rw [if_pos hcommitment]
      exact .error (notPolicyVerdict_of_reject rfl)
    · rw [if_neg hcommitment]
      exact FailsOnly.mapError (P := NotPolicyVerdict)
        (fun e => notPolicyVerdict_of_reject (e := .state e) rfl) (preparer header sidecar)

theorem failsOnly_executeAndCompare
    (engine : ConsensusHeader → ConsensusBody → ConsensusSidecar →
      Except ExecutionError BlockExecutionOutcome) :
    FailsOnly NotPolicyVerdict (Logged.outcome (executeAndCompare header body sidecar engine)) := by
  have hexecution : ∀ e : ExecutionError, NotPolicyVerdict (.execution e) :=
    fun e => notPolicyVerdict_of_reject rfl
  rw [executeAndCompare, Logged.outcome_bind, Logged.outcome_invoke]
  apply FailsOnly.bind (.mapError hexecution _)
  intro outcome _
  rw [Logged.outcome_bind, Logged.outcome_silent]
  apply FailsOnly.bind (.mapError hexecution _)
  intro _ _
  exact .ok outcome

/-- Past revalidation no error is a policy rejection. -/
theorem failsOnly_importFromSidecar (services : BlockImportServices) (blockRoot : Root) :
    FailsOnly NotPolicyVerdict
      (Logged.outcome (importFromSidecar header body sidecar services blockRoot)) := by
  rw [importFromSidecar, Logged.outcome_bind]
  apply FailsOnly.bind (failsOnly_verifySidecarBinding blockRoot services.preparer)
  intro _ _
  rw [Logged.outcome_bind]
  apply FailsOnly.bind (failsOnly_executeAndCompare services.executionEngine)
  intro executed _
  exact .ok _

/-! ## Verdicts -/

theorem reportOutcome_ne_policyReject {α : Type} {result : Except ConsensusError α}
    (h : FailsOnly NotPolicyVerdict result) :
    reportOutcome ConsensusError.networkValidationOutcome result ≠ .ok .policyReject := by
  cases result with
  | ok a =>
    intro hpolicy
    cases hpolicy
  | error e =>
    intro hpolicy
    exact h e rfl ((reportOutcome_error_eq_ok_iff _ e _).mp hpolicy)

/-- The result of a block once the policy is left out of its revalidation. -/
def unpolicedImport (sha256 : List UInt8 → Root) (runtime : LocalReferenceRuntime)
    (scenario : LocalReferenceScenario) (table : AdmissionTable) (header : ConsensusHeader)
    (body : ConsensusBody) (sidecar : ConsensusSidecar) (blockRoot : Root) :
    Except ConsensusError BlockImportOutcome := do
  (forM body.transactions (unpolicedRevalidate sha256 runtime table)).mapError
    ConsensusError.transactionValidation
  Logged.outcome (importFromSidecar header body sidecar
    (runtime.importServices sha256 scenario table) blockRoot)

variable {runtime : LocalReferenceRuntime} {scenario : LocalReferenceScenario}
variable {table : AdmissionTable} {blockRoot : Root}

theorem verdict_of_policyStops (origin : NetworkOrigin)
    (pass : HeadStagesPass sha256 runtime.importConfig runtime.resolver runtime.dispatcher header
      body blockRoot)
    (stops : PolicyStops sha256 runtime table body.transactions) :
    LocalReferenceNetworkConsensusAdapter.validateGossipBlock sha256 ⟨runtime, scenario, table⟩
      origin header body sidecar = .ok .policyReject := by
  obtain ⟨e, hloop, hpolicy⟩ := loop_of_policyStops stops
  have hresult : runtime.validateBlockAgainstReference sha256 scenario header body sidecar table =
      .error (.transactionValidation e) := by
    rw [LocalReferenceRuntime.validateBlockAgainstReference,
      outcome_importBlock_of_headStages pass]
    change ((forM body.transactions (policedRevalidate sha256 runtime table)).mapError _ >>= _) = _
    rw [hloop]
    rfl
  have hclass : (ConsensusError.transactionValidation e).networkValidationOutcome =
      some .policyReject := hpolicy
  rw [LocalReferenceNetworkConsensusAdapter.validateGossipBlock, hresult]
  exact (reportOutcome_error_eq_ok_iff _ _ _).mpr hclass

theorem verdict_of_not_policyStops (origin : NetworkOrigin)
    (pass : HeadStagesPass sha256 runtime.importConfig runtime.resolver runtime.dispatcher header
      body blockRoot)
    (passes : ¬ PolicyStops sha256 runtime table body.transactions) :
    LocalReferenceNetworkConsensusAdapter.validateGossipBlock sha256 ⟨runtime, scenario, table⟩
      origin header body sidecar = reportOutcome ConsensusError.networkValidationOutcome
        (unpolicedImport sha256 runtime scenario table header body sidecar blockRoot) := by
  rw [LocalReferenceNetworkConsensusAdapter.validateGossipBlock,
    LocalReferenceRuntime.validateBlockAgainstReference, outcome_importBlock_of_headStages pass,
    unpolicedImport, ← loop_of_not_policyStops passes]
  rfl

theorem failsOnly_unpolicedImport (sha256 : List UInt8 → Root) (runtime : LocalReferenceRuntime)
    (scenario : LocalReferenceScenario) (table : AdmissionTable) (header : ConsensusHeader)
    (body : ConsensusBody) (sidecar : ConsensusSidecar) (blockRoot : Root) :
    FailsOnly NotPolicyVerdict
      (unpolicedImport sha256 runtime scenario table header body sidecar blockRoot) := by
  apply FailsOnly.bind
  · rw [← forM_mapError]
    apply FailsOnly.forM
    intro t _ e he
    cases ht : unpolicedRevalidate sha256 runtime table t with
    | ok u =>
      rw [ht] at he
      cases he
    | error e' =>
      rw [ht] at he
      obtain rfl := Except.error.inj he
      exact failsOnly_unpolicedRevalidate t e' ht
  · intro _ _
    exact failsOnly_importFromSidecar _ blockRoot

end

/-! ## Two runtimes -/

/-- The runtimes differ at most in their fee schedule, nonce policy and state view. -/
structure DifferOnlyInPolicy (first second : LocalReferenceRuntime) : Prop where
  dispatcher : first.dispatcher = second.dispatcher
  resolver : first.resolver = second.resolver
  importConfig : first.importConfig = second.importConfig
  authorizationDomain :
    first.admissionPolicy.authorizationDomain = second.admissionPolicy.authorizationDomain
  multiAuthorizationPolicy : first.admissionPolicy.multiAuthorizationPolicy =
    second.admissionPolicy.multiAuthorizationPolicy

theorem unpolicedImport_congr {first second : LocalReferenceRuntime}
    (agree : DifferOnlyInPolicy first second) {sha256 : List UInt8 → Root}
    {scenario : LocalReferenceScenario} {table : AdmissionTable} {header : ConsensusHeader}
    {body : ConsensusBody} {sidecar : ConsensusSidecar} {blockRoot : Root} :
    unpolicedImport sha256 first scenario table header body sidecar blockRoot =
      unpolicedImport sha256 second scenario table header body sidecar blockRoot := by
  obtain ⟨dispatcher, resolver, ⟨fees, nonces, domain, multi⟩, config, view⟩ := first
  obtain ⟨dispatcher', resolver', ⟨fees', nonces', domain', multi'⟩, config', view'⟩ := second
  obtain ⟨rfl, rfl, rfl, rfl, rfl⟩ := agree
  rfl

theorem verdict_of_not_headStages {first second : LocalReferenceRuntime}
    (agree : DifferOnlyInPolicy first second) {sha256 : List UInt8 → Root}
    {scenario : LocalReferenceScenario} {table : AdmissionTable} {origin : NetworkOrigin}
    {header : ConsensusHeader} {body : ConsensusBody} {sidecar : ConsensusSidecar}
    (fails : ∀ blockRoot, ¬ HeadStagesPass sha256 first.importConfig first.resolver
      first.dispatcher header body blockRoot) :
    LocalReferenceNetworkConsensusAdapter.validateGossipBlock sha256 ⟨first, scenario, table⟩
        origin header body sidecar =
      LocalReferenceNetworkConsensusAdapter.validateGossipBlock sha256 ⟨second, scenario, table⟩
        origin header body sidecar := by
  have hservices : Logged.outcome (BlockImportPipeline.importBlock sha256 ⟨first.importConfig⟩
      header body sidecar (first.importServices sha256 scenario table)) =
      Logged.outcome (BlockImportPipeline.importBlock sha256 ⟨first.importConfig⟩
        header body sidecar (second.importServices sha256 scenario table)) :=
    outcome_importBlock_of_not_headStages agree.resolver agree.dispatcher fails
  rw [LocalReferenceNetworkConsensusAdapter.validateGossipBlock,
    LocalReferenceNetworkConsensusAdapter.validateGossipBlock,
    LocalReferenceRuntime.validateBlockAgainstReference,
    LocalReferenceRuntime.validateBlockAgainstReference, hservices, ← agree.importConfig]

/-- Two values, each one of two distinct ones as its own condition says, are equal when the
conditions agree. -/
theorem eq_iff_of_two_valued {α : Type} {P Q : Prop} {x y c w : α} (distinct : w ≠ c)
    (hx : P → x = c) (hx' : ¬ P → x = w) (hy : Q → y = c) (hy' : ¬ Q → y = w) :
    x = y ↔ (P ↔ Q) := by
  by_cases hP : P
  · rw [hx hP]
    by_cases hQ : Q
    · simp [hy hQ, hP, hQ]
    · simp [hy' hQ, hP, hQ, distinct.symm]
  · rw [hx' hP]
    by_cases hQ : Q
    · simp [hy hQ, hP, hQ, distinct]
    · simp [hy' hQ, hP, hQ]

/-- Two runtimes that differ only in local policy give a gossip block the same result if and only
if the policy stops the block under both or under neither, once it has come as far as its
transactions. -/
theorem same_verdict_iff (sha256 : List UInt8 → Root) (first second : LocalReferenceRuntime)
    (agree : DifferOnlyInPolicy first second) (scenario : LocalReferenceScenario)
    (adapter adapter' : LocalReferenceNetworkConsensusAdapter)
    (built : LocalReferenceNetworkConsensusAdapter.tryNew sha256 first scenario = .ok adapter)
    (built' : LocalReferenceNetworkConsensusAdapter.tryNew sha256 second scenario = .ok adapter')
    (origin : NetworkOrigin) (header : ConsensusHeader) (body : ConsensusBody)
    (sidecar : ConsensusSidecar) :
    adapter.validateGossipBlock sha256 origin header body sidecar =
        adapter'.validateGossipBlock sha256 origin header body sidecar ↔
      ∀ blockRoot, HeadStagesPass sha256 first.importConfig first.resolver first.dispatcher header
          body blockRoot →
        (PolicyStops sha256 first (admissionTable sha256 scenario) body.transactions ↔
          PolicyStops sha256 second (admissionTable sha256 scenario) body.transactions) := by
  obtain ⟨-, rfl⟩ := (consensus_tryNew_eq_ok_iff adapter).mp built
  obtain ⟨-, rfl⟩ := (consensus_tryNew_eq_ok_iff adapter').mp built'
  by_cases hhead : ∃ blockRoot, HeadStagesPass sha256 first.importConfig first.resolver
      first.dispatcher header body blockRoot
  · obtain ⟨blockRoot, hpass⟩ := hhead
    have hpass' : HeadStagesPass sha256 second.importConfig second.resolver second.dispatcher
        header body blockRoot := by
      rw [← agree.importConfig, ← agree.resolver, ← agree.dispatcher]
      exact hpass
    have hunpoliced := reportOutcome_ne_policyReject (failsOnly_unpolicedImport sha256 second
      scenario (admissionTable sha256 scenario) header body sidecar blockRoot)
    have hverdicts := eq_iff_of_two_valued hunpoliced
      (verdict_of_policyStops origin hpass)
      (fun hpasses => by
        rw [verdict_of_not_policyStops origin hpass hpasses, unpolicedImport_congr agree])
      (verdict_of_policyStops origin hpass')
      (fun hpasses => verdict_of_not_policyStops origin hpass' hpasses)
    rw [hverdicts]
    exact ⟨fun h _ _ => h, fun h => h blockRoot hpass⟩
  · have hfails : ∀ blockRoot, ¬ HeadStagesPass sha256 first.importConfig first.resolver
        first.dispatcher header body blockRoot := not_exists.mp hhead
    constructor
    · intro _ blockRoot hpass
      exact absurd hpass (hfails blockRoot)
    · intro _
      exact verdict_of_not_headStages agree hfails

/-! ### One block, three views of the account's nonce -/

/-- The sample runtime with another state view. -/
def viewingRuntime (view : Option AdmissionStateView) : LocalReferenceRuntime :=
  { echoRuntime with admissionStateView := view }

theorem differOnlyInPolicy_viewingRuntime (view : Option AdmissionStateView) :
    DifferOnlyInPolicy echoRuntime (viewingRuntime view) :=
  ⟨rfl, rfl, rfl, rfl, rfl⟩

/-- The sample's block adapter under another state view. -/
def viewingAdapter (view : Option AdmissionStateView) : LocalReferenceNetworkConsensusAdapter :=
  ⟨viewingRuntime view, unsignedScenario, admissionTable Sha256.digest unsignedScenario⟩

theorem tryNew_viewingAdapter (view : Option AdmissionStateView) :
    LocalReferenceNetworkConsensusAdapter.tryNew Sha256.digest (viewingRuntime view)
      unsignedScenario = .ok (viewingAdapter view) := by
  obtain ⟨hwell, -⟩ := (consensus_tryNew_eq_ok_iff _).mp tryNew_sampleBlockAdapter
  exact (consensus_tryNew_eq_ok_iff _).mpr ⟨hwell, rfl⟩

/-- The sample block gets as far as its transaction under every view. -/
theorem headStagesPass_viewingRuntime (view : Option AdmissionStateView) :
    HeadStagesPass Sha256.digest (viewingRuntime view).importConfig (viewingRuntime view).resolver
      (viewingRuntime view).dispatcher unsignedScenario.block.header.toConsensus
      unsignedScenario.block.body.toConsensus (padTo 32 [1]) :=
  ⟨rfl, rfl, rfl⟩

theorem soundEntry_authorizedTransfer :
    SoundEntry Sha256.digest (admissionTable Sha256.digest unsignedScenario) unsignedTransfer
      (AdmissionPipeline.authorizedTransfer, [⟨[0xAA]⟩]) where
  found := by
    obtain ⟨hwell, -⟩ := (consensus_tryNew_eq_ok_iff _).mp tryNew_sampleBlockAdapter
    exact (get?_filled_iff hwell.distinct _ _).mpr ⟨_, List.mem_singleton.mpr rfl, rfl, rfl⟩
  authorized := AdmissionPipeline.screened_authorizedTransfer.authorized
  boundToPayload := AdmissionPipeline.screened_authorizedTransfer.boundToPayload
  shortSignatures := AdmissionPipeline.screened_authorizedTransfer.shortSignatures

/-- The block's one transaction decides whether the policy stops the block. -/
theorem policyStops_unsignedTransfer_iff (runtime : LocalReferenceRuntime) :
    PolicyStops Sha256.digest runtime (admissionTable Sha256.digest unsignedScenario)
        [unsignedTransfer] ↔
      ¬ PolicyAllows runtime AdmissionPipeline.authorizedTransfer := by
  constructor
  · rintro ⟨done, t, rest, entry, hbody, -, hsound, hrefused⟩
    obtain rfl : t = unsignedTransfer := by
      have ht : t ∈ [unsignedTransfer] := by
        rw [hbody]
        simp
      exact List.mem_singleton.mp ht
    have hentry := soundEntry_authorizedTransfer.found.symm.trans hsound.found
    obtain rfl := Option.some.inj hentry
    exact hrefused
  · intro hrefused
    exact ⟨[], unsignedTransfer, [], _, rfl, by simp, soundEntry_authorizedTransfer, hrefused⟩

theorem same_verdict_iff_noView :
    DifferOnlyInPolicy echoRuntime (viewingRuntime none) ∧
      sampleBlockAdapter.validateGossipBlock Sha256.digest .testHarness
          unsignedScenario.block.header.toConsensus unsignedScenario.block.body.toConsensus
          (sidecarWith []).toConsensus =
        (viewingAdapter none).validateGossipBlock Sha256.digest .testHarness
          unsignedScenario.block.header.toConsensus unsignedScenario.block.body.toConsensus
          (sidecarWith []).toConsensus := by
  have hagree := differOnlyInPolicy_viewingRuntime none
  refine ⟨hagree, (same_verdict_iff Sha256.digest echoRuntime (viewingRuntime none) hagree
    unsignedScenario sampleBlockAdapter (viewingAdapter none) tryNew_sampleBlockAdapter
    (tryNew_viewingAdapter none) .testHarness _ _ _).mpr ?_⟩
  intro _ _
  have hviewed : PolicyAllows echoRuntime AdmissionPipeline.authorizedTransfer := ⟨rfl, rfl⟩
  have hunviewed : PolicyAllows (viewingRuntime none) AdmissionPipeline.authorizedTransfer :=
    ⟨rfl, rfl⟩
  have hfirst := not_not.mpr hviewed
  have hsecond := not_not.mpr hunviewed
  rw [← policyStops_unsignedTransfer_iff] at hfirst hsecond
  exact iff_of_false hfirst hsecond

/-- A node whose view of the account is at nonce 9 rejects a block that other nodes accept. -/
theorem policy_decides_verdict :
    DifferOnlyInPolicy echoRuntime (viewingRuntime (some fun _ => some 9)) ∧
      LocalReferenceNetworkConsensusAdapter.tryNew Sha256.digest echoRuntime unsignedScenario =
        .ok sampleBlockAdapter ∧
      LocalReferenceNetworkConsensusAdapter.tryNew Sha256.digest
          (viewingRuntime (some fun _ => some 9)) unsignedScenario =
        .ok (viewingAdapter (some fun _ => some 9)) ∧
      sampleBlockAdapter.validateGossipBlock Sha256.digest .testHarness
        unsignedScenario.block.header.toConsensus unsignedScenario.block.body.toConsensus
        (sidecarWith []).toConsensus = .ok .accept ∧
      (viewingAdapter (some fun _ => some 9)).validateGossipBlock Sha256.digest .testHarness
        unsignedScenario.block.header.toConsensus unsignedScenario.block.body.toConsensus
        (sidecarWith []).toConsensus = .ok .policyReject := by
  refine ⟨differOnlyInPolicy_viewingRuntime _, tryNew_sampleBlockAdapter,
    tryNew_viewingAdapter _, sidecarWith_accepted [], ?_⟩
  apply verdict_of_policyStops .testHarness (headStagesPass_viewingRuntime _)
  apply (policyStops_unsignedTransfer_iff _).mpr
  rintro ⟨-, hnonce⟩
  cases hnonce

end ShellCli
