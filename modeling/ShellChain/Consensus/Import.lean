import ShellChain.Execution.Engine
import ShellChain.Mempool.Admission

/-!
# Block import

`shell-consensus`: the stages a block goes through, cheapest first. Header,
body and sidecar are the values their trait methods return; the five services
are functions, and every call of one is logged.
-/

namespace ShellConsensus

open ShellPrimitives ShellCrypto ShellMempool ShellState ShellExecution

/-! ## Objects -/

structure ConsensusHeader where
  canonicalRoot : Except PrimitiveError Root
  witnessBytes : UInt64
  transactionsRoot : Root
  executionWitnessesRoot : Root
  stateRoot : Root
  receiptsRoot : Root
  proposerSignature : List UInt8
  proposerIndexHint : Option UInt64

structure ConsensusBody where
  transactionsRoot : Except PrimitiveError Root
  transactions : List TransactionEnvelope

structure ConsensusSidecar where
  blockRoot : Root
  committedRoot : Root

structure CanonicalBlockHeader where
  blockRoot : Root
  blockNumber : UInt64
  timestamp : UInt64
  parentRoot : Root
  witnessBytes : UInt64
  transactionsRoot : Root
  executionWitnessesRoot : Root
  stateRoot : Root
  receiptsRoot : Root
  proposerSignature : List UInt8
  proposerIndexHint : Option UInt64
  deriving DecidableEq

structure CanonicalBlockBody where
  transactions : List TransactionEnvelope
  transactionsRoot : Root
  deriving DecidableEq

structure CanonicalBlockSidecar where
  blockRoot : Root
  executionWitnessesRoot : Root
  witnesses : List StateWitness
  deriving DecidableEq

structure CanonicalBlock where
  header : CanonicalBlockHeader
  body : CanonicalBlockBody
  sidecar : CanonicalBlockSidecar
  deriving DecidableEq

def CanonicalBlockHeader.toConsensus (header : CanonicalBlockHeader) : ConsensusHeader where
  canonicalRoot := .ok header.blockRoot
  witnessBytes := header.witnessBytes
  transactionsRoot := header.transactionsRoot
  executionWitnessesRoot := header.executionWitnessesRoot
  stateRoot := header.stateRoot
  receiptsRoot := header.receiptsRoot
  proposerSignature := header.proposerSignature
  proposerIndexHint := header.proposerIndexHint

def CanonicalBlockBody.toConsensus (body : CanonicalBlockBody) : ConsensusBody where
  transactionsRoot := .ok body.transactionsRoot
  transactions := body.transactions

def CanonicalBlockSidecar.toConsensus (sidecar : CanonicalBlockSidecar) : ConsensusSidecar where
  blockRoot := sidecar.blockRoot
  committedRoot := sidecar.executionWitnessesRoot

/-! ## Errors and outcomes -/

structure WitnessByteLimitExceededError where
  maxBytes : UInt64
  actualBytes : UInt64
  deriving DecidableEq

structure HeaderBodyRootMismatchError where
  expected : Root
  actual : Root
  deriving DecidableEq

structure SidecarBlockRootMismatchError where
  expected : Root
  actual : Root
  deriving DecidableEq

structure SidecarCommitmentMismatchError where
  expected : Root
  actual : Root
  deriving DecidableEq

inductive ConsensusError where
  | primitive (error : PrimitiveError)
  | domain (error : DomainError)
  | crypto (error : CryptoError)
  | transactionValidation (error : ValidationError)
  | execution (error : ExecutionError)
  | state (error : StateError)
  | proposerCredentialResolution (error : ProposerCredentialResolutionError)
  | witnessByteLimitExceeded (error : WitnessByteLimitExceededError)
  | headerBodyRootMismatch (error : HeaderBodyRootMismatchError)
  | sidecarBlockRootMismatch (error : SidecarBlockRootMismatchError)
  | sidecarCommitmentMismatch (error : SidecarCommitmentMismatchError)
  deriving DecidableEq

def ConsensusError.networkValidationOutcome : ConsensusError → Option ValidationOutcome
  | .primitive error => error.networkValidationOutcome
  | .domain _ => none
  | .crypto error => error.networkValidationOutcome
  | .transactionValidation error => error.networkValidationOutcome
  | .execution _ => some .reject
  | .state _ => some .reject
  | .headerBodyRootMismatch _ => some .reject
  | .sidecarBlockRootMismatch _ => some .reject
  | .sidecarCommitmentMismatch _ => some .reject
  | .proposerCredentialResolution error =>
    if error.isConsensusInvalid then some .reject else none
  | .witnessByteLimitExceeded _ => some .policyReject

structure BlockImportOutcome where
  blockRoot : Root
  postStateRoot : Root
  receiptsRoot : Root
  deriving DecidableEq

/-! ## Services -/

structure BlockImportServices where
  resolver : ProposerCredentialResolver
  dispatcher : SignatureDispatcher
  revalidator : TransactionEnvelope → MultiAuthorizationPolicy → Except ValidationError Unit
  preparer : ConsensusHeader → ConsensusSidecar → Except StateError Unit
  executionEngine : ConsensusHeader → ConsensusBody → ConsensusSidecar →
    Except ExecutionError BlockExecutionOutcome

/-- One call of a service, with its arguments. -/
inductive ServiceCall where
  | resolveProposerCredential (query : ProposerCredentialQuery)
  | verifyValidatorMessage (call : DispatcherCall)
  | revalidate (transaction : TransactionEnvelope) (policy : MultiAuthorizationPolicy)
  | prepareWitness (header : ConsensusHeader) (sidecar : ConsensusSidecar)
  | executeBlock (header : ConsensusHeader) (body : ConsensusBody) (sidecar : ConsensusSidecar)

/-- A stage that may call services. -/
abbrev Stage := ExceptT ConsensusError (Logged ServiceCall)

/-! ## Header -/

structure HeaderPrefilterConfig where
  maxWitnessBytes : Option UInt64
  deriving DecidableEq

structure HeaderCheckOutcome where
  blockRoot : Root
  deriving DecidableEq

def prefilterHeader (header : ConsensusHeader) (config : HeaderPrefilterConfig) :
    Except ConsensusError HeaderCheckOutcome := do
  let blockRoot ← header.canonicalRoot.mapError .primitive
  match config.maxWitnessBytes with
  | none => .ok ⟨blockRoot⟩
  | some maxBytes =>
    if header.witnessBytes > maxBytes then
      .error (.witnessByteLimitExceeded ⟨maxBytes, header.witnessBytes⟩)
    else .ok ⟨blockRoot⟩

def verifyHeaderSignature (sha256 : List UInt8 → Root) (header : ConsensusHeader)
    (blockRoot : Root) (resolver : ProposerCredentialResolver)
    (dispatcher : SignatureDispatcher) : Stage Unit := do
  let query := ⟨blockRoot, header.proposerIndexHint⟩
  let credential ← Logged.invoke (.resolveProposerCredential query)
    ((resolver query).mapError .proposerCredentialResolution)
  let signingData ← Logged.silent
    ((buildSigningData blockRoot .validatorMessage).mapError .domain)
  let signingRoot ← Logged.silent ((Ssz.signingRoot sha256 signingData).mapError .primitive)
  let request := ⟨credential.publicKeyMaterial, signingRoot, header.proposerSignature⟩
  Logged.invoke (.verifyValidatorMessage ⟨credential.schemeId, request⟩)
    ((dispatcher.verifyValidatorMessage credential.schemeId request).mapError .crypto)

/-! ## Body -/

def verifyBodyBinding (header : ConsensusHeader) (body : ConsensusBody) :
    Except ConsensusError Unit := do
  let actual ← body.transactionsRoot.mapError .primitive
  let expected := header.transactionsRoot
  if actual ≠ expected then .error (.headerBodyRootMismatch ⟨expected, actual⟩)
  else .ok ()

def revalidateBodyTransactions (body : ConsensusBody)
    (revalidator : TransactionEnvelope → MultiAuthorizationPolicy → Except ValidationError Unit)
    (multiAuthorizationPolicy : MultiAuthorizationPolicy) : Stage Unit :=
  forM body.transactions fun transaction =>
    Logged.invoke (.revalidate transaction multiAuthorizationPolicy)
      ((revalidator transaction multiAuthorizationPolicy).mapError .transactionValidation)

/-! ## Sidecar -/

def verifySidecarBinding (header : ConsensusHeader) (blockRoot : Root) (sidecar : ConsensusSidecar)
    (preparer : ConsensusHeader → ConsensusSidecar → Except StateError Unit) : Stage Unit :=
  if sidecar.blockRoot ≠ blockRoot then
    Logged.silent (.error (.sidecarBlockRootMismatch ⟨blockRoot, sidecar.blockRoot⟩))
  else if sidecar.committedRoot ≠ header.executionWitnessesRoot then
    Logged.silent (.error (.sidecarCommitmentMismatch
      ⟨header.executionWitnessesRoot, sidecar.committedRoot⟩))
  else
    Logged.invoke (.prepareWitness header sidecar) ((preparer header sidecar).mapError .state)

/-! ## Execution -/

def executeAndCompare (header : ConsensusHeader) (body : ConsensusBody) (sidecar : ConsensusSidecar)
    (engine : ConsensusHeader → ConsensusBody → ConsensusSidecar →
      Except ExecutionError BlockExecutionOutcome) : Stage BlockExecutionOutcome := do
  let outcome ← Logged.invoke (.executeBlock header body sidecar)
    ((engine header body sidecar).mapError .execution)
  Logged.silent
    ((outcome.ensureMatches ⟨header.stateRoot, header.receiptsRoot⟩).mapError .execution)
  return outcome

/-! ## The pipeline -/

structure BlockImportConfig where
  headerPrefilter : HeaderPrefilterConfig
  multiAuthorizationPolicy : MultiAuthorizationPolicy
  deriving DecidableEq

structure BlockImportPipeline where
  config : BlockImportConfig
  deriving DecidableEq

def BlockImportPipeline.importBlock (sha256 : List UInt8 → Root) (pipeline : BlockImportPipeline)
    (header : ConsensusHeader) (body : ConsensusBody) (sidecar : ConsensusSidecar)
    (services : BlockImportServices) : Stage BlockImportOutcome := do
  let headerOutcome ← Logged.silent (prefilterHeader header pipeline.config.headerPrefilter)
  Logged.silent (verifyBodyBinding header body)
  verifyHeaderSignature sha256 header headerOutcome.blockRoot services.resolver services.dispatcher
  revalidateBodyTransactions body services.revalidator pipeline.config.multiAuthorizationPolicy
  verifySidecarBinding header headerOutcome.blockRoot sidecar services.preparer
  let executionOutcome ← executeAndCompare header body sidecar services.executionEngine
  return ⟨headerOutcome.blockRoot, executionOutcome.postStateRoot, executionOutcome.receiptsRoot⟩

end ShellConsensus
