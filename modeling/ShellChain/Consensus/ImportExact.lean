import ShellChain.Consensus.Import
import ShellChain.Library.Sha256

/-!
# What block import accepts

A block is imported when every stage passes. Otherwise there is a first stage
that fails: its error is returned, and the services called are those of the
stages before it and its own.
-/

namespace ShellConsensus

open ByteCodec ShellPrimitives ShellCrypto ShellMempool ShellState ShellExecution Logged

/-- The root a proposer signs for a block root. -/
def validatorSigningRoot (sha256 : List UInt8 → Root) (blockRoot : Root) : Root :=
  (Ssz.signingDataRootRun sha256 ⟨blockRoot, domainValidatorMessage⟩).value

section
variable (sha256 : List UInt8 → Root) (pipeline : BlockImportPipeline) (header : ConsensusHeader)
variable (body : ConsensusBody) (sidecar : ConsensusSidecar) (services : BlockImportServices)

/-! ## Stages -/

structure PassedHeader (blockRoot : Root) : Prop where
  headerRoot : header.canonicalRoot = .ok blockRoot
  witnessBytes : ∀ maxBytes ∈ pipeline.config.headerPrefilter.maxWitnessBytes,
    header.witnessBytes ≤ maxBytes

structure PassedBody (blockRoot : Root) : Prop extends PassedHeader pipeline header blockRoot where
  bodyRoot : body.transactionsRoot = .ok header.transactionsRoot

def credentialQuery (blockRoot : Root) : ProposerCredentialQuery :=
  ⟨blockRoot, header.proposerIndexHint⟩

def proposerCall (blockRoot : Root) (credential : ProposerCredential) : DispatcherCall :=
  ⟨credential.schemeId, credential.publicKeyMaterial, validatorSigningRoot sha256 blockRoot,
    header.proposerSignature⟩

structure PassedSignature (blockRoot : Root) (credential : ProposerCredential) : Prop
    extends PassedBody pipeline header body blockRoot where
  resolved : services.resolver (credentialQuery header blockRoot) = .ok credential
  signed : services.dispatcher.verifyValidatorMessage
    (proposerCall sha256 header blockRoot credential).schemeId
    (proposerCall sha256 header blockRoot credential).request = .ok ()

structure PassedRevalidation (blockRoot : Root) (credential : ProposerCredential) : Prop
    extends PassedSignature sha256 pipeline header body services blockRoot credential where
  revalidated : ∀ transaction ∈ body.transactions,
    services.revalidator transaction pipeline.config.multiAuthorizationPolicy = .ok ()

structure PassedSidecar (blockRoot : Root) (credential : ProposerCredential) : Prop
    extends PassedRevalidation sha256 pipeline header body services blockRoot credential where
  sidecarRoot : sidecar.blockRoot = blockRoot
  commitment : sidecar.committedRoot = header.executionWitnessesRoot
  prepared : services.preparer header sidecar = .ok ()

/-- Every stage passes. -/
structure Accepted (blockRoot : Root) (credential : ProposerCredential)
    (executed : BlockExecutionOutcome) : Prop
    extends PassedSidecar sha256 pipeline header body sidecar services blockRoot credential where
  execution : services.executionEngine header body sidecar = .ok executed
  postState : executed.postStateRoot = header.stateRoot
  receipts : executed.receiptsRoot = header.receiptsRoot

/-! ## Calls -/

def signatureCalls (blockRoot : Root) (credential : ProposerCredential) : List ServiceCall :=
  [.resolveProposerCredential (credentialQuery header blockRoot),
    .verifyValidatorMessage (proposerCall sha256 header blockRoot credential)]

def revalidation (transaction : TransactionEnvelope) : ServiceCall :=
  .revalidate transaction pipeline.config.multiAuthorizationPolicy

/-- The calls of the stages before the sidecar's. -/
def bodyCalls (blockRoot : Root) (credential : ProposerCredential) : List ServiceCall :=
  signatureCalls sha256 header blockRoot credential ++
    body.transactions.map (revalidation pipeline)

/-- The first failing stage: the error it returns, and the calls made up to and including it. -/
inductive FirstFailure : ConsensusError → List ServiceCall → Prop where
  | canonicalRoot {e : PrimitiveError} (failed : header.canonicalRoot = .error e) :
      FirstFailure (.primitive e) []
  | witnessBytes {blockRoot : Root} {maxBytes : UInt64}
      (headerRoot : header.canonicalRoot = .ok blockRoot)
      (limited : pipeline.config.headerPrefilter.maxWitnessBytes = some maxBytes)
      (failed : header.witnessBytes > maxBytes) :
      FirstFailure (.witnessByteLimitExceeded ⟨maxBytes, header.witnessBytes⟩) []
  | bodyRoot {blockRoot : Root} {e : PrimitiveError}
      (passed : PassedHeader pipeline header blockRoot)
      (failed : body.transactionsRoot = .error e) :
      FirstFailure (.primitive e) []
  | bodyMismatch {blockRoot actual : Root} (passed : PassedHeader pipeline header blockRoot)
      (bodyRoot : body.transactionsRoot = .ok actual)
      (failed : actual ≠ header.transactionsRoot) :
      FirstFailure (.headerBodyRootMismatch ⟨header.transactionsRoot, actual⟩) []
  | resolver {blockRoot : Root} {e : ProposerCredentialResolutionError}
      (passed : PassedBody pipeline header body blockRoot)
      (failed : services.resolver (credentialQuery header blockRoot) = .error e) :
      FirstFailure (.proposerCredentialResolution e)
        [.resolveProposerCredential (credentialQuery header blockRoot)]
  | dispatcher {blockRoot : Root} {credential : ProposerCredential} {e : CryptoError}
      (passed : PassedBody pipeline header body blockRoot)
      (resolved : services.resolver (credentialQuery header blockRoot) = .ok credential)
      (failed : services.dispatcher.verifyValidatorMessage
        (proposerCall sha256 header blockRoot credential).schemeId
        (proposerCall sha256 header blockRoot credential).request = .error e) :
      FirstFailure (.crypto e) (signatureCalls sha256 header blockRoot credential)
  | revalidator {blockRoot : Root} {credential : ProposerCredential}
      {done rest : List TransactionEnvelope} {transaction : TransactionEnvelope}
      {e : ValidationError}
      (passed : PassedSignature sha256 pipeline header body services blockRoot credential)
      (position : body.transactions = done ++ transaction :: rest)
      (before : ∀ t ∈ done,
        services.revalidator t pipeline.config.multiAuthorizationPolicy = .ok ())
      (failed : services.revalidator transaction pipeline.config.multiAuthorizationPolicy =
        .error e) :
      FirstFailure (.transactionValidation e) (signatureCalls sha256 header blockRoot credential ++
        (done ++ [transaction]).map (revalidation pipeline))
  | sidecarBlockRoot {blockRoot : Root} {credential : ProposerCredential}
      (passed : PassedRevalidation sha256 pipeline header body services blockRoot credential)
      (failed : sidecar.blockRoot ≠ blockRoot) :
      FirstFailure (.sidecarBlockRootMismatch ⟨blockRoot, sidecar.blockRoot⟩)
        (bodyCalls sha256 pipeline header body blockRoot credential)
  | sidecarCommitment {blockRoot : Root} {credential : ProposerCredential}
      (passed : PassedRevalidation sha256 pipeline header body services blockRoot credential)
      (sidecarRoot : sidecar.blockRoot = blockRoot)
      (failed : sidecar.committedRoot ≠ header.executionWitnessesRoot) :
      FirstFailure (.sidecarCommitmentMismatch
          ⟨header.executionWitnessesRoot, sidecar.committedRoot⟩)
        (bodyCalls sha256 pipeline header body blockRoot credential)
  | preparer {blockRoot : Root} {credential : ProposerCredential} {e : StateError}
      (passed : PassedRevalidation sha256 pipeline header body services blockRoot credential)
      (sidecarRoot : sidecar.blockRoot = blockRoot)
      (commitment : sidecar.committedRoot = header.executionWitnessesRoot)
      (failed : services.preparer header sidecar = .error e) :
      FirstFailure (.state e) (bodyCalls sha256 pipeline header body blockRoot credential ++
        [.prepareWitness header sidecar])
  | engine {blockRoot : Root} {credential : ProposerCredential} {e : ExecutionError}
      (passed : PassedSidecar sha256 pipeline header body sidecar services blockRoot credential)
      (failed : services.executionEngine header body sidecar = .error e) :
      FirstFailure (.execution e) (bodyCalls sha256 pipeline header body blockRoot credential ++
        [.prepareWitness header sidecar, .executeBlock header body sidecar])
  | postState {blockRoot : Root} {credential : ProposerCredential}
      {executed : BlockExecutionOutcome}
      (passed : PassedSidecar sha256 pipeline header body sidecar services blockRoot credential)
      (execution : services.executionEngine header body sidecar = .ok executed)
      (failed : executed.postStateRoot ≠ header.stateRoot) :
      FirstFailure (.execution (.postStateRootMismatch header.stateRoot executed.postStateRoot))
        (bodyCalls sha256 pipeline header body blockRoot credential ++
          [.prepareWitness header sidecar, .executeBlock header body sidecar])
  | receipts {blockRoot : Root} {credential : ProposerCredential}
      {executed : BlockExecutionOutcome}
      (passed : PassedSidecar sha256 pipeline header body sidecar services blockRoot credential)
      (execution : services.executionEngine header body sidecar = .ok executed)
      (postState : executed.postStateRoot = header.stateRoot)
      (failed : executed.receiptsRoot ≠ header.receiptsRoot) :
      FirstFailure (.execution (.receiptsRootMismatch header.receiptsRoot executed.receiptsRoot))
        (bodyCalls sha256 pipeline header body blockRoot credential ++
          [.prepareWitness header sidecar, .executeBlock header body sidecar])

/-! ## Runs of the stages -/

/-- The stages from the sidecar's on. -/
def importFromSidecar (blockRoot : Root) : Stage BlockImportOutcome := do
  verifySidecarBinding header blockRoot sidecar services.preparer
  let executed ← executeAndCompare header body sidecar services.executionEngine
  return ⟨blockRoot, executed.postStateRoot, executed.receiptsRoot⟩

/-- The stages from the header signature's on. -/
def importFromSignature (blockRoot : Root) : Stage BlockImportOutcome := do
  verifyHeaderSignature sha256 header blockRoot services.resolver services.dispatcher
  revalidateBodyTransactions body services.revalidator pipeline.config.multiAuthorizationPolicy
  importFromSidecar header body sidecar services blockRoot

end

section
variable {sha256 : List UInt8 → Root} {pipeline : BlockImportPipeline} {header : ConsensusHeader}
variable {body : ConsensusBody} {sidecar : ConsensusSidecar} {services : BlockImportServices}
variable {blockRoot : Root} {credential : ProposerCredential} {executed : BlockExecutionOutcome}

theorem prefilterHeader_of_passed (passed : PassedHeader pipeline header blockRoot) :
    prefilterHeader header pipeline.config.headerPrefilter = .ok ⟨blockRoot⟩ := by
  rw [prefilterHeader, passed.headerRoot]
  have hbytes := passed.witnessBytes
  cases hlimit : pipeline.config.headerPrefilter.maxWitnessBytes with
  | none => rfl
  | some maxBytes =>
    rw [hlimit] at hbytes
    exact if_neg (UInt64.not_lt.mpr (hbytes maxBytes rfl))

theorem verifyBodyBinding_of_passed (passed : PassedBody pipeline header body blockRoot) :
    verifyBodyBinding header body = .ok () := by
  rw [verifyBodyBinding, passed.bodyRoot]
  exact if_neg (not_not.mpr rfl)

/-- Past the header and the body the run is that of the later stages. -/
theorem importBlock_of_passedBody (passed : PassedBody pipeline header body blockRoot) :
    pipeline.importBlock sha256 header body sidecar services =
      importFromSignature sha256 pipeline header body sidecar services blockRoot := by
  rw [BlockImportPipeline.importBlock, prefilterHeader_of_passed passed.toPassedHeader,
    silent_ok_bind, verifyBodyBinding_of_passed passed, silent_ok_bind]
  rfl

theorem runs_resolved {result : Except ConsensusError Unit}
    (resolved : services.resolver (credentialQuery header blockRoot) = .ok credential)
    (answer : (services.dispatcher.verifyValidatorMessage
        (proposerCall sha256 header blockRoot credential).schemeId
        (proposerCall sha256 header blockRoot credential).request).mapError .crypto = result) :
    Runs (verifyHeaderSignature sha256 header blockRoot services.resolver services.dispatcher)
      result (signatureCalls sha256 header blockRoot credential) := by
  have hcredential : (services.resolver (credentialQuery header blockRoot)).mapError
      ConsensusError.proposerCredentialResolution = .ok credential := by
    rw [resolved]
    rfl
  have hcall : Runs (Logged.invoke (ServiceCall.resolveProposerCredential
      (credentialQuery header blockRoot)) ((services.resolver (credentialQuery header blockRoot)
        ).mapError ConsensusError.proposerCredentialResolution)) (.ok credential)
      [.resolveProposerCredential (credentialQuery header blockRoot)] := by
    rw [hcredential]
    exact Runs.invoke _ _
  refine Runs.ok_bind hcall ?_
  subst answer
  exact ⟨rfl, rfl⟩

theorem runs_verifyHeaderSignature
    (passed : PassedSignature sha256 pipeline header body services blockRoot credential) :
    Runs (verifyHeaderSignature sha256 header blockRoot services.resolver services.dispatcher)
      (.ok ()) (signatureCalls sha256 header blockRoot credential) :=
  runs_resolved passed.resolved (congrArg _ passed.signed)

theorem runs_revalidateBodyTransactions
    (passed : PassedRevalidation sha256 pipeline header body services blockRoot credential) :
    Runs (revalidateBodyTransactions body services.revalidator
        pipeline.config.multiAuthorizationPolicy) (.ok ())
      (body.transactions.map (revalidation pipeline)) := by
  refine Runs.forM_ok fun transaction hmem => ?_
  rw [passed.revalidated transaction hmem]
  exact Runs.invoke _ _

/-- Past the revalidation the run is that of the sidecar and the execution. -/
theorem runs_importBlock_of_passedRevalidation
    (passed : PassedRevalidation sha256 pipeline header body services blockRoot credential)
    {result : Except ConsensusError BlockImportOutcome} {log : List ServiceCall}
    (later : Runs (importFromSidecar header body sidecar services blockRoot) result log) :
    Runs (pipeline.importBlock sha256 header body sidecar services) result
      (bodyCalls sha256 pipeline header body blockRoot credential ++ log) := by
  rw [importBlock_of_passedBody passed.toPassedBody, bodyCalls, List.append_assoc]
  exact (runs_verifyHeaderSignature passed.toPassedSignature).ok_bind
    ((runs_revalidateBodyTransactions passed).ok_bind later)

theorem runs_verifySidecarBinding (services : BlockImportServices)
    (sidecarRoot : sidecar.blockRoot = blockRoot)
    (commitment : sidecar.committedRoot = header.executionWitnessesRoot) :
    Runs (verifySidecarBinding header blockRoot sidecar services.preparer)
      ((services.preparer header sidecar).mapError .state) [.prepareWitness header sidecar] := by
  rw [verifySidecarBinding, if_neg (not_not.mpr sidecarRoot), if_neg (not_not.mpr commitment)]
  exact Runs.invoke _ _

/-- Past the sidecar the run is that of the execution. -/
theorem runs_importBlock_of_passedSidecar
    (passed : PassedSidecar sha256 pipeline header body sidecar services blockRoot credential)
    {result : Except ConsensusError BlockExecutionOutcome}
    (later : Runs (executeAndCompare header body sidecar services.executionEngine) result
      [.executeBlock header body sidecar]) :
    Runs (pipeline.importBlock sha256 header body sidecar services)
      (result.map fun executed => ⟨blockRoot, executed.postStateRoot, executed.receiptsRoot⟩)
      (bodyCalls sha256 pipeline header body blockRoot credential ++
        [.prepareWitness header sidecar, .executeBlock header body sidecar]) := by
  refine runs_importBlock_of_passedRevalidation passed.toPassedRevalidation ?_
  have hsidecar := runs_verifySidecarBinding services passed.sidecarRoot passed.commitment
  rw [passed.prepared] at hsidecar
  refine Runs.ok_bind hsidecar ?_
  cases result with
  | error e => exact later.error_bind
  | ok executed => exact later.ok_bind ⟨rfl, rfl⟩

theorem runs_executeAndCompare
    (execution : services.executionEngine header body sidecar = .ok executed) :
    Runs (executeAndCompare header body sidecar services.executionEngine)
      (((executed.ensureMatches ⟨header.stateRoot, header.receiptsRoot⟩).mapError .execution).map
        fun _ => executed) [.executeBlock header body sidecar] := by
  rw [executeAndCompare, execution]
  refine Runs.ok_bind (Runs.invoke _ _) ?_
  cases executed.ensureMatches ⟨header.stateRoot, header.receiptsRoot⟩ with
  | error e => exact (Runs.silent _).error_bind
  | ok u => exact ⟨rfl, rfl⟩

/-! ## Verdicts -/

theorem runs_of_accepted
    (accepted : Accepted sha256 pipeline header body sidecar services blockRoot credential
      executed) :
    Runs (pipeline.importBlock sha256 header body sidecar services)
      (.ok ⟨blockRoot, header.stateRoot, header.receiptsRoot⟩)
      (bodyCalls sha256 pipeline header body blockRoot credential ++
        [.prepareWitness header sidecar, .executeBlock header body sidecar]) := by
  have hmatch : executed.ensureMatches ⟨header.stateRoot, header.receiptsRoot⟩ = .ok () := by
    rw [BlockExecutionOutcome.ensureMatches, if_neg (not_not.mpr accepted.postState),
      if_neg (not_not.mpr accepted.receipts)]
  have hexecuted := runs_executeAndCompare accepted.execution
  rw [hmatch] at hexecuted
  have hrun := runs_importBlock_of_passedSidecar accepted.toPassedSidecar hexecuted
  rw [← accepted.postState, ← accepted.receipts]
  exact hrun

/-- A run stops where the relation says, with the error and the calls it names. -/
theorem runs_of_firstFailure {e : ConsensusError} {log : List ServiceCall}
    (failure : FirstFailure sha256 pipeline header body sidecar services e log) :
    Runs (pipeline.importBlock sha256 header body sidecar services) (.error e) log := by
  cases failure with
  | canonicalRoot failed =>
    rw [BlockImportPipeline.importBlock, prefilterHeader, failed]
    exact (Runs.silent _).error_bind
  | @witnessBytes _ maxBytes headerRoot limited failed =>
    have hprefilter : prefilterHeader header pipeline.config.headerPrefilter = .error
        (.witnessByteLimitExceeded ⟨maxBytes, header.witnessBytes⟩) := by
      rw [prefilterHeader, headerRoot, limited]
      exact if_pos failed
    rw [BlockImportPipeline.importBlock, hprefilter]
    exact (Runs.silent _).error_bind
  | bodyRoot passed failed =>
    rw [BlockImportPipeline.importBlock, prefilterHeader_of_passed passed, silent_ok_bind,
      verifyBodyBinding, failed]
    exact (Runs.silent _).error_bind
  | @bodyMismatch _ actual passed bodyRoot failed =>
    have hbinding : verifyBodyBinding header body = .error
        (.headerBodyRootMismatch ⟨header.transactionsRoot, actual⟩) := by
      rw [verifyBodyBinding, bodyRoot]
      exact if_pos failed
    rw [BlockImportPipeline.importBlock, prefilterHeader_of_passed passed, silent_ok_bind,
      hbinding]
    exact (Runs.silent _).error_bind
  | @resolver blockRoot e passed failed =>
    have hcall : Runs (verifyHeaderSignature sha256 header blockRoot services.resolver
        services.dispatcher) (.error (.proposerCredentialResolution e))
        [.resolveProposerCredential (credentialQuery header blockRoot)] := by
      rw [credentialQuery] at failed
      rw [verifyHeaderSignature, failed]
      exact (Runs.invoke _ _).error_bind
    rw [importBlock_of_passedBody passed]
    exact hcall.error_bind
  | dispatcher passed resolved failed =>
    rw [importBlock_of_passedBody passed]
    exact (runs_resolved resolved (congrArg _ failed)).error_bind
  | revalidator passed position before failed =>
    rw [importBlock_of_passedBody passed.toPassedBody]
    refine (runs_verifyHeaderSignature passed).ok_bind (Runs.error_bind ?_)
    rw [revalidateBodyTransactions, position]
    refine Runs.forM_error (fun t ht => ?_) ?_
    · rw [before t ht]
      exact Runs.invoke _ _
    · rw [failed]
      exact Runs.invoke _ _
  | sidecarBlockRoot passed failed =>
    rw [← List.append_nil (bodyCalls _ _ _ _ _ _)]
    refine runs_importBlock_of_passedRevalidation passed (Runs.error_bind ?_)
    rw [verifySidecarBinding, if_pos failed]
    exact Runs.silent _
  | sidecarCommitment passed sidecarRoot failed =>
    rw [← List.append_nil (bodyCalls _ _ _ _ _ _)]
    refine runs_importBlock_of_passedRevalidation passed (Runs.error_bind ?_)
    rw [verifySidecarBinding, if_neg (not_not.mpr sidecarRoot), if_pos failed]
    exact Runs.silent _
  | preparer passed sidecarRoot commitment failed =>
    refine runs_importBlock_of_passedRevalidation passed (Runs.error_bind ?_)
    have hsidecar := runs_verifySidecarBinding services sidecarRoot commitment
    rw [failed] at hsidecar
    exact hsidecar
  | @engine _ _ e passed failed =>
    have hexecuted : Runs (executeAndCompare header body sidecar services.executionEngine)
        (.error (.execution e)) [.executeBlock header body sidecar] := by
      rw [executeAndCompare, failed]
      exact (Runs.invoke _ _).error_bind
    exact runs_importBlock_of_passedSidecar passed hexecuted
  | postState passed execution failed =>
    have hexecuted := runs_executeAndCompare execution
    rw [BlockExecutionOutcome.ensureMatches, if_pos failed] at hexecuted
    exact runs_importBlock_of_passedSidecar passed hexecuted
  | receipts passed execution postState failed =>
    have hexecuted := runs_executeAndCompare execution
    rw [BlockExecutionOutcome.ensureMatches, if_neg (not_not.mpr postState), if_pos failed]
      at hexecuted
    exact runs_importBlock_of_passedSidecar passed hexecuted

/-- Either every stage passes or one of them is the first to fail. -/
theorem accepted_or_firstFailure (sha256 : List UInt8 → Root) (pipeline : BlockImportPipeline)
    (header : ConsensusHeader) (body : ConsensusBody) (sidecar : ConsensusSidecar)
    (services : BlockImportServices) :
    (∃ blockRoot credential executed,
      Accepted sha256 pipeline header body sidecar services blockRoot credential executed) ∨
    ∃ e log, FirstFailure sha256 pipeline header body sidecar services e log := by
  cases hroot : header.canonicalRoot with
  | error e => exact Or.inr ⟨_, _, .canonicalRoot hroot⟩
  | ok blockRoot =>
  by_cases hbytes : ∀ maxBytes ∈ pipeline.config.headerPrefilter.maxWitnessBytes,
      header.witnessBytes ≤ maxBytes
  case neg =>
    push Not at hbytes
    obtain ⟨maxBytes, hlimit, hexceeded⟩ := hbytes
    exact Or.inr ⟨_, _, .witnessBytes hroot hlimit (UInt64.not_le.mp hexceeded)⟩
  have hheader : PassedHeader pipeline header blockRoot := ⟨hroot, hbytes⟩
  cases hbody : body.transactionsRoot with
  | error e => exact Or.inr ⟨_, _, .bodyRoot hheader hbody⟩
  | ok actual =>
  by_cases hsame : actual = header.transactionsRoot
  case neg => exact Or.inr ⟨_, _, .bodyMismatch hheader hbody hsame⟩
  subst hsame
  have hbound : PassedBody pipeline header body blockRoot := ⟨hheader, hbody⟩
  cases hresolved : services.resolver (credentialQuery header blockRoot) with
  | error e => exact Or.inr ⟨_, _, .resolver hbound hresolved⟩
  | ok credential =>
  cases hsigned : services.dispatcher.verifyValidatorMessage
      (proposerCall sha256 header blockRoot credential).schemeId
      (proposerCall sha256 header blockRoot credential).request with
  | error e => exact Or.inr ⟨_, _, .dispatcher hbound hresolved hsigned⟩
  | ok u =>
  have hsignature : PassedSignature sha256 pipeline header body services blockRoot credential :=
    ⟨hbound, hresolved, hsigned⟩
  rcases Except.forall_ok_or_first_error (fun t => services.revalidator t
      pipeline.config.multiAuthorizationPolicy) body.transactions with
    hall | ⟨done, t, rest, e, hposition, hdone, hfailed⟩
  case inr => exact Or.inr ⟨_, _, .revalidator hsignature hposition hdone hfailed⟩
  have hrevalidated : PassedRevalidation sha256 pipeline header body services blockRoot
      credential := ⟨hsignature, hall⟩
  by_cases hsidecar : sidecar.blockRoot = blockRoot
  case neg => exact Or.inr ⟨_, _, .sidecarBlockRoot hrevalidated hsidecar⟩
  by_cases hcommitment : sidecar.committedRoot = header.executionWitnessesRoot
  case neg => exact Or.inr ⟨_, _, .sidecarCommitment hrevalidated hsidecar hcommitment⟩
  cases hprepared : services.preparer header sidecar with
  | error e => exact Or.inr ⟨_, _, .preparer hrevalidated hsidecar hcommitment hprepared⟩
  | ok u =>
  have hpassed : PassedSidecar sha256 pipeline header body sidecar services blockRoot credential :=
    ⟨hrevalidated, hsidecar, hcommitment, hprepared⟩
  cases hexecuted : services.executionEngine header body sidecar with
  | error e => exact Or.inr ⟨_, _, .engine hpassed hexecuted⟩
  | ok executed =>
  by_cases hpost : executed.postStateRoot = header.stateRoot
  case neg => exact Or.inr ⟨_, _, .postState hpassed hexecuted hpost⟩
  by_cases hreceipts : executed.receiptsRoot = header.receiptsRoot
  case neg => exact Or.inr ⟨_, _, .receipts hpassed hexecuted hpost hreceipts⟩
  exact Or.inl ⟨blockRoot, credential, executed, hpassed, hexecuted, hpost, hreceipts⟩

theorem importBlock_eq_ok_iff (o : BlockImportOutcome) :
    outcome (pipeline.importBlock sha256 header body sidecar services) = .ok o ↔
      ∃ blockRoot credential executed,
        Accepted sha256 pipeline header body sidecar services blockRoot credential executed ∧
        o = ⟨blockRoot, header.stateRoot, header.receiptsRoot⟩ := by
  constructor
  · intro hok
    rcases accepted_or_firstFailure sha256 pipeline header body sidecar services with
      ⟨blockRoot, credential, executed, haccepted⟩ | ⟨e, log, hfailure⟩
    · have hrun := (runs_of_accepted haccepted).outcome_eq.symm.trans hok
      exact ⟨blockRoot, credential, executed, haccepted, (Except.ok.inj hrun).symm⟩
    · cases (runs_of_firstFailure hfailure).outcome_eq.symm.trans hok
  · rintro ⟨blockRoot, credential, executed, haccepted, rfl⟩
    exact (runs_of_accepted haccepted).outcome_eq

theorem importBlock_eq_error_iff (e : ConsensusError) :
    outcome (pipeline.importBlock sha256 header body sidecar services) = .error e ↔
      ∃ log, FirstFailure sha256 pipeline header body sidecar services e log := by
  constructor
  · intro herror
    rcases accepted_or_firstFailure sha256 pipeline header body sidecar services with
      ⟨blockRoot, credential, executed, haccepted⟩ | ⟨e', log, hfailure⟩
    · cases (runs_of_accepted haccepted).outcome_eq.symm.trans herror
    · have hrun := (runs_of_firstFailure hfailure).outcome_eq.symm.trans herror
      obtain rfl := Except.error.inj hrun
      exact ⟨log, hfailure⟩
  · rintro ⟨log, hfailure⟩
    exact (runs_of_firstFailure hfailure).outcome_eq

end

/-- Import succeeds exactly when every stage passes, and then returns the block root with the two
roots of the header. Otherwise it returns the error of the first failing stage, and the services
called are those of the stages up to it. -/
theorem block_import_exact (sha256 : List UInt8 → Root) (pipeline : BlockImportPipeline)
    (header : ConsensusHeader) (body : ConsensusBody) (sidecar : ConsensusSidecar)
    (services : BlockImportServices) :
    let run := pipeline.importBlock sha256 header body sidecar services
    (∀ o, outcome run = .ok o ↔ ∃ blockRoot credential executed,
      Accepted sha256 pipeline header body sidecar services blockRoot credential executed ∧
      o = ⟨blockRoot, header.stateRoot, header.receiptsRoot⟩) ∧
    (∀ e, outcome run = .error e ↔
      ∃ log, FirstFailure sha256 pipeline header body sidecar services e log) ∧
    (∀ e log, FirstFailure sha256 pipeline header body sidecar services e log →
      calls run = log) ∧
    (∀ blockRoot credential executed,
      Accepted sha256 pipeline header body sidecar services blockRoot credential executed →
      calls run = bodyCalls sha256 pipeline header body blockRoot credential ++
        [.prepareWitness header sidecar, .executeBlock header body sidecar]) := by
  intro run
  refine ⟨importBlock_eq_ok_iff, importBlock_eq_error_iff, ?_, ?_⟩
  · intro e log hfailure
    exact (runs_of_firstFailure hfailure).calls_eq
  · intro blockRoot credential executed haccepted
    exact (runs_of_accepted haccepted).calls_eq

/-! ## A sample -/

/-- A header whose five roots differ. -/
def sampleHeader : ConsensusHeader where
  canonicalRoot := .ok (padTo 32 [1])
  witnessBytes := 7
  transactionsRoot := padTo 32 [2]
  executionWitnessesRoot := padTo 32 [3]
  stateRoot := padTo 32 [4]
  receiptsRoot := padTo 32 [5]
  proposerSignature := [0xAA]
  proposerIndexHint := some 0

def sampleBody : ConsensusBody where
  transactionsRoot := .ok (padTo 32 [2])
  transactions := [bareEnvelope]

def sampleSidecar : ConsensusSidecar := ⟨padTo 32 [1], padTo 32 [3]⟩

def samplePipeline : BlockImportPipeline := ⟨⟨some 8⟩, .requireAll⟩

/-- Services that accept the sample and check what they are asked. -/
def sampleServices : BlockImportServices where
  resolver query :=
    if query.proposerIndexHint = some 0 then .ok ⟨1, [0xAA]⟩ else .error .notFound
  dispatcher :=
    { verifyTransactionAuthorization := fun schemeId _ => .error (.unsupportedScheme ⟨schemeId⟩)
      verifyValidatorMessage := fun schemeId request =>
        if request.signature = request.publicKeyMaterial then .ok ()
        else .error (.verificationFailed ⟨schemeId, "signature mismatch"⟩) }
  revalidator transaction _ :=
    if transaction.authorizations.isEmpty then .error (.primitive (.authorizationCount 1 0))
    else .ok ()
  preparer header sidecar :=
    if sidecar.committedRoot = header.executionWitnessesRoot then .ok ()
    else .error (.witnessVerificationFailed "committed root")
  executionEngine _ _ _ := .ok ⟨padTo 32 [4], padTo 32 [5], []⟩

theorem accepted_sample (sha256 : List UInt8 → Root) :
    Accepted sha256 samplePipeline sampleHeader sampleBody sampleSidecar sampleServices
      (padTo 32 [1]) ⟨1, [0xAA]⟩ ⟨padTo 32 [4], padTo 32 [5], []⟩ where
  headerRoot := rfl
  witnessBytes maxBytes hmax := by
    obtain rfl := Option.some.inj hmax
    decide
  bodyRoot := rfl
  resolved := rfl
  signed := rfl
  revalidated transaction hmem := by
    obtain rfl := List.mem_singleton.mp hmem
    rfl
  sidecarRoot := rfl
  commitment := rfl
  prepared := rfl
  execution := rfl
  postState := rfl
  receipts := rfl

theorem block_import_exact_sample :
    let run := samplePipeline.importBlock Sha256.digest sampleHeader sampleBody sampleSidecar
      sampleServices
    outcome run = .ok ⟨padTo 32 [1], padTo 32 [4], padTo 32 [5]⟩ ∧ (calls run).length = 5 := by
  obtain ⟨hok, -, -, hcalls⟩ := block_import_exact Sha256.digest samplePipeline sampleHeader
    sampleBody sampleSidecar sampleServices
  have haccepted := accepted_sample Sha256.digest
  refine ⟨(hok _).mpr ⟨_, _, _, haccepted, rfl⟩, ?_⟩
  exact congrArg List.length (hcalls _ _ _ haccepted)

end ShellConsensus
