import ShellChain.Consensus.ImportExact
import ShellChain.Mempool.AdmissionExact
import ShellChain.Primitives.RootBinding

/-!
# What a signing root is a signature for

Two places build verification requests: admission, for the authorizations of a
transaction, and block import, for the proposer's signature. Both sign a pair
of an object root and a domain. The pair is the outermost hash of the signing
root, so the domain chunk tells the two kinds apart whatever the object root
is, and the object root then gives back the payload or the block root.
-/

namespace ShellConsensus

open ByteCodec ShellPrimitives ShellCrypto ShellMempool Hashing

/-- What a signature is asked to stand for. -/
inductive SigningPurpose where
  | transaction (payload : TransactionPayloadSsz)
  | proposer (blockRoot : Root)

/-- The limit under which a payload root is a commitment; block roots need none. -/
def SigningPurpose.WithinLimit : SigningPurpose → Prop
  | .transaction payload => payload.WithinLimit
  | .proposer _ => True

/-- The requests the system builds for a purpose, under the canonical domain. -/
inductive Requested (sha256 : List UInt8 → Root) :
    SigningPurpose → SignatureVerificationRequest → Prop
  | transaction (pipeline : AdmissionPipeline) (envelope : TransactionEnvelope)
      (stateView : Option AdmissionStateView) (materials : List AuthorizationMaterial)
      (call : DispatcherCall) (domain : pipeline.policy.authorizationDomain = .canonical)
      (made : call ∈ Logged.calls
        (pipeline.admitAndVerify sha256 envelope stateView materials)) :
      Requested sha256 (.transaction envelope.payload) call.request
  | proposer (header : ConsensusHeader) (blockRoot : Root) (services : BlockImportServices)
      (call : DispatcherCall)
      (made : ServiceCall.verifyValidatorMessage call ∈ Logged.calls
        (verifyHeaderSignature sha256 header blockRoot services.resolver services.dispatcher)) :
      Requested sha256 (.proposer blockRoot) call.request

section
variable {sha256 : List UInt8 → Root}

/-- The computation of the signing root, from the payload or from the block root. -/
def signingRun (sha256 : List UInt8 → Root) : SigningPurpose → Hashing Ssz.MerkleCall Root
  | .transaction payload => do
    let payloadRoot ← Ssz.payloadRootRun sha256 payload
    Ssz.signingDataRootRun sha256 ⟨payloadRoot, domainTxShell⟩
  | .proposer blockRoot => Ssz.signingDataRootRun sha256 ⟨blockRoot, domainValidatorMessage⟩

theorem signingRoot_of_proposer {header : ConsensusHeader} {blockRoot : Root}
    {services : BlockImportServices} {call : DispatcherCall}
    (made : ServiceCall.verifyValidatorMessage call ∈ Logged.calls
      (verifyHeaderSignature sha256 header blockRoot services.resolver services.dispatcher)) :
    call.request.signingRoot = validatorSigningRoot sha256 blockRoot := by
  cases hresolved : services.resolver (credentialQuery header blockRoot) with
  | error e =>
    have hcalls : Logged.calls (verifyHeaderSignature sha256 header blockRoot services.resolver
        services.dispatcher) = [.resolveProposerCredential (credentialQuery header blockRoot)] := by
      rw [verifyHeaderSignature]
      apply Logged.calls_bind_of_error (e := .proposerCredentialResolution e)
      exact congrArg (Except.mapError _) hresolved
    rw [hcalls, List.mem_singleton] at made
    cases made
  | ok credential =>
    have hruns : Logged.Runs (verifyHeaderSignature sha256 header blockRoot services.resolver
        services.dispatcher) _ (signatureCalls sha256 header blockRoot credential) :=
      runs_resolved hresolved rfl
    rw [hruns.calls_eq, signatureCalls] at made
    simp only [List.mem_cons, List.not_mem_nil, or_false, reduceCtorEq, false_or,
      ServiceCall.verifyValidatorMessage.injEq] at made
    rw [made]
    rfl

/-- Every request asks about the signing root of its purpose. -/
theorem Requested.signingRoot_eq {purpose : SigningPurpose}
    {request : SignatureVerificationRequest} (h : Requested sha256 purpose request) :
    request.signingRoot = (signingRun sha256 purpose).value := by
  cases h with
  | transaction pipeline envelope stateView materials call domain made =>
    rw [AdmissionPipeline.signingRoot_of_mem_calls made, AdmissionPipeline.policySigningRoot,
      domain]
    rfl
  | proposer header blockRoot services call made => exact signingRoot_of_proposer made

/-! ## Separation -/

theorem domainChunk_ne :
    padTo 32 domainTxShell.toList ≠ padTo 32 domainValidatorMessage.toList := by
  intro h
  have hfits : domainTxShell.toList.length ≤ 32 := by decide
  have hbytes : domainTxShell.toList = domainValidatorMessage.toList :=
    padTo_injective hfits rfl h
  exact absurd hbytes (by decide)

/-- The signing root of a pair determines the object root and the domain chunk. -/
theorem signingDataRoot_inj {S : Set (List UInt8)} (inj : S.InjOn sha256) {a b : SigningData}
    (ha : Within S (Ssz.signingDataRootRun sha256 a))
    (hb : Within S (Ssz.signingDataRootRun sha256 b))
    (h : (Ssz.signingDataRootRun sha256 a).value = (Ssz.signingDataRootRun sha256 b).value) :
    a.objectRoot = b.objectRoot ∧
      padTo 32 a.domainType.toList = padTo 32 b.domainType.toList := by
  have hfields := Ssz.binds_merkleize 1 2 (by decide) inj rfl rfl ha hb h
  simpa only [List.cons.injEq, and_true] using hfields

/-- A signing root is a commitment to its purpose, the kind included. -/
theorem binds_signingRun :
    Binds sha256 {purpose | purpose.WithinLimit} (signingRun sha256) := by
  intro S inj a ha b hb hsa hsb h
  cases a with
  | transaction p =>
    simp only [signingRun, within_bind, Logged.value_bind] at hsa h
    cases b with
    | transaction q =>
      simp only [signingRun, within_bind, Logged.value_bind] at hsb h
      obtain ⟨hroots, _⟩ := signingDataRoot_inj inj hsa.2 hsb.2 h
      rw [Ssz.binds_payloadRootRun inj ha hb hsa.1 hsb.1 hroots]
    | proposer blockRoot =>
      obtain ⟨_, hdomains⟩ := signingDataRoot_inj inj hsa.2 hsb h
      exact absurd hdomains domainChunk_ne
  | proposer blockRoot =>
    cases b with
    | transaction q =>
      simp only [signingRun, within_bind, Logged.value_bind] at hsb h
      obtain ⟨_, hdomains⟩ := signingDataRoot_inj inj hsa hsb.2 h
      exact absurd hdomains.symm domainChunk_ne
    | proposer blockRoot' =>
      obtain ⟨hroots, _⟩ := signingDataRoot_inj inj hsa hsb h
      exact congrArg SigningPurpose.proposer hroots

end

/-- Two requests about one signing root have one purpose: they are of the same
kind, for the same payload or the same block root. -/
theorem signing_roots_separate_purposes (sha256 : List UInt8 → Root)
    (first second : SigningPurpose) (request request' : SignatureVerificationRequest)
    (hfirst : Requested sha256 first request) (hsecond : Requested sha256 second request')
    (firstLimit : first.WithinLimit) (secondLimit : second.WithinLimit)
    (collisionFree : Set.InjOn sha256 {s | s ∈ preimages (signingRun sha256 first) ∨
      s ∈ preimages (signingRun sha256 second)})
    (same : request.signingRoot = request'.signingRoot) :
    (∃ p q, first = .transaction p ∧ second = .transaction q ∧ p = q) ∨
      ∃ b c, first = .proposer b ∧ second = .proposer c ∧ b = c := by
  have hpurpose : first = second := by
    apply binds_signingRun.eq_of_value_eq firstLimit secondLimit collisionFree
    rw [← hfirst.signingRoot_eq, ← hsecond.signingRoot_eq, same]
  subst hpurpose
  cases first with
  | transaction p => exact Or.inl ⟨p, p, rfl, rfl, rfl⟩
  | proposer b => exact Or.inr ⟨b, b, rfl, rfl, rfl⟩

/-- The request admission makes for the sample transfer and a key. -/
def transferRequest (publicKey : List UInt8) : SignatureVerificationRequest :=
  ⟨publicKey, (signingRun Sha256.digest (.transaction bareEnvelope.payload)).value, [0xAA]⟩

theorem requested_transferRequest (publicKey : List UInt8) :
    Requested Sha256.digest (.transaction bareEnvelope.payload) (transferRequest publicKey) := by
  have hmaterials : [(⟨publicKey⟩ : AuthorizationMaterial)].length =
      AdmissionPipeline.authorizedTransfer.authorizations.length := rfl
  have hcalls := congrArg Logged.calls (AdmissionPipeline.admitAndVerify_of_screened
    AdmissionPipeline.screened_authorizedTransfer hmaterials)
  rw [Logged.calls_bind_pure, Logged.calls_forM_invoke] at hcalls
  apply Requested.transaction AdmissionPipeline.echoPipeline AdmissionPipeline.authorizedTransfer
    (some fun _ => some 1) [⟨publicKey⟩] ⟨1, transferRequest publicKey⟩ rfl
  have hlist : ∀ root, AdmissionPipeline.authorizationCalls root
      AdmissionPipeline.authorizedTransfer [⟨publicKey⟩] = [⟨1, ⟨publicKey, root, [0xAA]⟩⟩] :=
    fun _ => rfl
  have hroot : AdmissionPipeline.policySigningRoot Sha256.digest
      AdmissionPipeline.echoPipeline.policy
      (Ssz.payloadRootRun Sha256.digest AdmissionPipeline.authorizedTransfer.payload).value =
      (signingRun Sha256.digest (.transaction bareEnvelope.payload)).value := by
    rw [signingRun, Logged.value_bind]
    rfl
  rw [hcalls, hlist, hroot, Logged.throughFirst, transferRequest]
  exact List.mem_cons_self

/-- The request block import makes for the proposer of the sample header. -/
def proposalRequest (blockRoot : Root) : SignatureVerificationRequest :=
  (proposerCall Sha256.digest sampleHeader blockRoot ⟨1, [0xAA]⟩).request

theorem requested_proposalRequest (blockRoot : Root) :
    Requested Sha256.digest (.proposer blockRoot) (proposalRequest blockRoot) := by
  apply Requested.proposer sampleHeader blockRoot sampleServices
    (proposerCall Sha256.digest sampleHeader blockRoot ⟨1, [0xAA]⟩)
  have hruns : Logged.Runs (verifyHeaderSignature Sha256.digest sampleHeader blockRoot
      sampleServices.resolver sampleServices.dispatcher) _
      (signatureCalls Sha256.digest sampleHeader blockRoot ⟨1, [0xAA]⟩) :=
    runs_resolved rfl rfl
  rw [hruns.calls_eq]
  exact List.mem_cons_of_mem _ List.mem_cons_self

/-- A block whose root is the payload root of the transfer is still proposed under another signing
root. -/
theorem signing_roots_separate_purposes_transfer :
    let purpose := SigningPurpose.transaction bareEnvelope.payload
    let blockRoot := (Ssz.payloadRootRun Sha256.digest bareEnvelope.payload).value
    ((∃ p q, purpose = .transaction p ∧ purpose = .transaction q ∧ p = q) ∨
        ∃ b c, purpose = .proposer b ∧ purpose = .proposer c ∧ b = c) ∧
      (transferRequest [0xAA]).signingRoot ≠ (proposalRequest blockRoot).signingRoot := by
  intro purpose blockRoot
  have hlimit : purpose.WithinLimit := Ssz.bareEnvelope_withinLimits.payload
  have hfree : Set.InjOn Sha256.digest {s | s ∈ preimages (signingRun Sha256.digest purpose) ++
      preimages (signingRun Sha256.digest (.proposer blockRoot))} :=
    injOn_of_nodup (by decide +kernel)
  constructor
  · -- Two keys are asked about the one signing root of the transfer.
    refine signing_roots_separate_purposes Sha256.digest purpose purpose _ _
      (requested_transferRequest [0xAA]) (requested_transferRequest [0xCC]) hlimit hlimit
      (hfree.mono ?_) rfl
    rintro s (hs | hs)
    · exact List.mem_append_left _ hs
    · exact List.mem_append_left _ hs
  · intro hsame
    rcases signing_roots_separate_purposes Sha256.digest purpose (.proposer blockRoot) _ _
      (requested_transferRequest [0xAA]) (requested_proposalRequest blockRoot) hlimit trivial
      (hfree.mono fun s hs => List.mem_append.mpr hs) hsame with
      ⟨_, _, -, hpurpose, -⟩ | ⟨_, _, hpurpose, -⟩
    · cases hpurpose
    · exact SigningPurpose.noConfusion hpurpose

end ShellConsensus
