import ShellChain.Cli.AdapterAgreement

/-!
# Runtimes that ask for less

A runtime may be configured to ask for less than another one: lower fee
floors, a nonce window around the other's, a larger limit on witnesses, services
that accept more. Every check of a run is kept by such a change, so what is
accepted stays accepted, with the same outcome.
-/

namespace ShellCli

open ByteCodec ShellPrimitives ShellCrypto ShellMempool ShellConsensus ShellNetwork Except

/-- The price as a number. -/
def priceValue (price : GasPrice) : Nat := leNat price.value.bytes.toList

/-- The nonces a policy admits next to an observed one. -/
def nonceWindow (policy : NoncePolicy) (observed : UInt64) : Set UInt64 :=
  {nonce | observed.toNat ≤ nonce.toNat ∧
    nonce.toNat ≤ observed.toNat + policy.maxFutureNonceGap.toNat}

/-- The second runtime accepts whatever the first one does, check by check. Where it observes a
nonce the first one observes one as well, and the nonces admitted there are admitted here. -/
structure AsksNoMore (first second : LocalReferenceRuntime) : Prop where
  authorizations : ∀ id request,
    first.dispatcher.verifyTransactionAuthorization id request = .ok () →
      second.dispatcher.verifyTransactionAuthorization id request = .ok ()
  validatorMessages : ∀ id request,
    first.dispatcher.verifyValidatorMessage id request = .ok () →
      second.dispatcher.verifyValidatorMessage id request = .ok ()
  credentials : ∀ query credential, first.resolver query = .ok credential →
    second.resolver query = .ok credential
  domain : second.admissionPolicy.authorizationDomain = first.admissionPolicy.authorizationDomain
  payloadLane : priceValue second.admissionPolicy.feeSchedule.payloadLaneBaseFee ≤
    priceValue first.admissionPolicy.feeSchedule.payloadLaneBaseFee
  witnessLane : priceValue second.admissionPolicy.feeSchedule.witnessLaneBaseFee ≤
    priceValue first.admissionPolicy.feeSchedule.witnessLaneBaseFee
  nonces : ∀ envelope, ∀ n' ∈ second.admissionStateView.bind (· envelope),
    ∃ n ∈ first.admissionStateView.bind (· envelope),
      nonceWindow first.admissionPolicy.noncePolicy n ⊆
        nonceWindow second.admissionPolicy.noncePolicy n'
  witnessBytes : ∀ maxBytes ∈ second.importConfig.headerPrefilter.maxWitnessBytes,
    ∃ maxBytes' ∈ first.importConfig.headerPrefilter.maxWitnessBytes, maxBytes' ≤ maxBytes

section
variable {sha256 : List UInt8 → Root} {first second : LocalReferenceRuntime}

theorem policySigningRoot_of_asksNoMore (lax : AsksNoMore first second) (payloadRoot : Root) :
    AdmissionPipeline.policySigningRoot sha256 second.admissionPolicy payloadRoot =
      AdmissionPipeline.policySigningRoot sha256 first.admissionPolicy payloadRoot := by
  rw [AdmissionPipeline.policySigningRoot, AdmissionPipeline.policySigningRoot, lax.domain]

/-- An admitted transaction stays admitted. -/
theorem validateTransaction_of_asksNoMore (lax : AsksNoMore first second)
    {envelope : TransactionEnvelope} {materials : List OwnedAuthorizationMaterial}
    {v : AuthorizationValidated}
    (admitted : Logged.outcome (first.validateTransaction sha256 envelope materials) = .ok v) :
    Logged.outcome (second.validateTransaction sha256 envelope materials) = .ok v := by
  obtain ⟨⟨hscreened, hlength⟩, haccepted, rfl⟩ :=
    (AdmissionPipeline.admitAndVerify_eq_ok_iff v).mp admitted
  refine (AdmissionPipeline.admitAndVerify_eq_ok_iff _).mpr ⟨⟨?_, hlength⟩, ?_, ?_⟩
  · obtain ⟨hauthorized, hbound, hshort, ⟨hpayload, hwitness⟩, hnonce⟩ :=
      AdmissionPipeline.screened_iff.mp hscreened
    refine AdmissionPipeline.screened_iff.mpr ⟨hauthorized, hbound, hshort,
      ⟨lax.payloadLane.trans hpayload, lax.witnessLane.trans hwitness⟩, fun n' hn' => ?_⟩
    obtain ⟨n, hn, hwindow⟩ := lax.nonces envelope n' hn'
    exact hwindow (hnonce n hn)
  · intro i a m ha hm
    have hanswer := haccepted i a m ha hm
    dsimp only at hanswer ⊢
    rw [policySigningRoot_of_asksNoMore lax]
    exact lax.authorizations _ _ hanswer
  · exact congrArg (fun root => (⟨_, root, _⟩ : AuthorizationValidated))
      (policySigningRoot_of_asksNoMore lax _).symm

/-- An imported block stays imported. -/
theorem validateBlock_of_asksNoMore (lax : AsksNoMore first second)
    {scenario : LocalReferenceScenario} {header : ConsensusHeader} {body : ConsensusBody}
    {sidecar : ConsensusSidecar} {table : AdmissionTable} {o : BlockImportOutcome}
    (imported : first.validateBlockAgainstReference sha256 scenario header body sidecar table =
      .ok o) :
    second.validateBlockAgainstReference sha256 scenario header body sidecar table = .ok o := by
  obtain ⟨blockRoot, credential, executed, haccepted, rfl⟩ := (importBlock_eq_ok_iff o).mp imported
  refine (importBlock_eq_ok_iff _).mpr ⟨blockRoot, credential, executed, ?_, rfl⟩
  refine
    { headerRoot := haccepted.headerRoot
      witnessBytes := fun maxBytes hmax => ?_
      bodyRoot := haccepted.bodyRoot
      resolved := lax.credentials _ _ haccepted.resolved
      signed := lax.validatorMessages _ _ haccepted.signed
      revalidated := fun t ht => ?_
      sidecarRoot := haccepted.sidecarRoot
      commitment := haccepted.commitment
      prepared := haccepted.prepared
      execution := haccepted.execution
      postState := haccepted.postState
      receipts := haccepted.receipts }
  · obtain ⟨maxBytes', hmax', hle⟩ := lax.witnessBytes maxBytes hmax
    exact UInt64.le_trans (haccepted.witnessBytes maxBytes' hmax') hle
  · obtain ⟨entry, hfound, v, hv⟩ :=
      (revalidate_eq_ok_iff _ _ first.importConfig.multiAuthorizationPolicy).mp
        (haccepted.revalidated t ht)
    exact (revalidate_eq_ok_iff _ _ second.importConfig.multiAuthorizationPolicy).mpr
      ⟨entry, hfound, v, validateTransaction_of_asksNoMore lax hv⟩

end

/-- What a runtime accepts, one that asks for no more accepts as well: a run with the very same
outcome, a gossiped transaction, and a gossiped block. -/
theorem acceptance_is_monotone (sha256 : List UInt8 → Root) (first second : LocalReferenceRuntime)
    (lax : AsksNoMore first second) (scenario : LocalReferenceScenario) :
    (∀ o, first.run sha256 scenario = .ok o → second.run sha256 scenario = .ok o) ∧
    (∀ table origin envelope,
      Logged.outcome (LocalReferenceNetworkMempoolAdapter.validateGossipTransaction sha256
        ⟨first, table⟩ origin envelope) = .ok .accept →
      Logged.outcome (LocalReferenceNetworkMempoolAdapter.validateGossipTransaction sha256
        ⟨second, table⟩ origin envelope) = .ok .accept) ∧
    ∀ table origin header body sidecar,
      LocalReferenceNetworkConsensusAdapter.validateGossipBlock sha256 ⟨first, scenario, table⟩
        origin header body sidecar = .ok .accept →
      LocalReferenceNetworkConsensusAdapter.validateGossipBlock sha256 ⟨second, scenario, table⟩
        origin header body sidecar = .ok .accept := by
  refine ⟨fun o ho => ?_, fun table origin envelope haccept => ?_,
    fun table origin header body sidecar haccept => ?_⟩
  · obtain ⟨hshape, hadmitted, table, hbuilt, himported⟩ :=
      (LocalReferenceRuntime.run_eq_ok_iff o).mp ho
    refine (LocalReferenceRuntime.run_eq_ok_iff o).mpr ⟨hshape, ?_, table, hbuilt,
      validateBlock_of_asksNoMore lax himported⟩
    refine (mapM_eq_ok_iff _ _ _).mpr (((mapM_eq_ok_iff _ _ _).mp hadmitted).imp ?_)
    intro entry v hv
    rw [mapError_eq_ok_iff] at hv ⊢
    exact validateTransaction_of_asksNoMore lax hv
  · obtain ⟨materials, hfound, v, hv⟩ := (validateGossipTransaction_accept_iff origin).mp haccept
    exact (validateGossipTransaction_accept_iff origin).mpr
      ⟨materials, hfound, v, validateTransaction_of_asksNoMore lax hv⟩
  · obtain ⟨o, ho⟩ := (reportOutcome_eq_accept_iff consensus_not_accept _).mp haccept
    exact (reportOutcome_eq_accept_iff consensus_not_accept _).mpr
      ⟨o, validateBlock_of_asksNoMore lax ho⟩

/-- The echoing runtime one nonce behind, with a gap twice as wide. -/
def laggingRuntime : LocalReferenceRuntime where
  dispatcher := echoRuntime.dispatcher
  resolver := echoRuntime.resolver
  admissionPolicy := { echoRuntime.admissionPolicy with noncePolicy := ⟨8⟩ }
  importConfig := echoRuntime.importConfig
  admissionStateView := some fun _ => some 0

theorem asksNoMore_laggingRuntime : AsksNoMore echoRuntime laggingRuntime where
  authorizations _ _ h := h
  validatorMessages _ _ h := h
  credentials _ _ h := h
  domain := rfl
  payloadLane := Nat.le_refl _
  witnessLane := Nat.le_refl _
  nonces _ n' hn' := by
    obtain rfl := Option.some.inj hn'
    refine ⟨1, rfl, ?_⟩
    rintro nonce ⟨-, hhigh⟩
    -- The observed nonce is 1 and the gap 4 there, 0 and 8 here.
    exact ⟨Nat.zero_le _, hhigh.trans (by decide)⟩
  witnessBytes _ h := by cases h

theorem acceptance_is_monotone_sample :
    ∃ o, laggingRuntime.run Sha256.digest unsignedScenario = .ok o := by
  obtain ⟨o, ho⟩ := run_unsignedScenario
  exact ⟨o, (acceptance_is_monotone Sha256.digest echoRuntime laggingRuntime
    asksNoMore_laggingRuntime unsignedScenario).1 o ho⟩

end ShellCli
