import ShellChain.Cli.ReferenceEngine
import ShellChain.Consensus.Import
import ShellChain.Fixtures.Commitments

/-!
# The local reference runtime

`shell-cli`: a scenario holds a block next to the transactions submitted for
admission and the key material of their authorizations. A run admits the
transactions, files them by payload root, and imports the block with services
built from the scenario.
-/

namespace ShellCli

open ByteCodec ShellPrimitives ShellCrypto ShellMempool ShellState ShellExecution ShellConsensus

/-- Byte arrays are ordered lexicographically. -/
instance (n : Nat) : LinearOrder (FixedBytes n) :=
  LinearOrder.lift' List.Vector.toList Subtype.val_injective

/-! ## Scenarios -/

structure OwnedAuthorizationMaterial where
  publicKeyMaterial : List UInt8
  deriving DecidableEq

def OwnedAuthorizationMaterial.asBorrowed (material : OwnedAuthorizationMaterial) :
    AuthorizationMaterial :=
  ⟨material.publicKeyMaterial⟩

structure LocalReferenceScenario where
  block : CanonicalBlock
  admissionTransactions : List TransactionEnvelope
  preStateRoot : Root
  materializedState : List (StateKey × MockProgressiveByteList)
  plannedTransactions : List PlannedTransaction
  transactionAuthorizationMaterials : List (List OwnedAuthorizationMaterial)
  deriving DecidableEq

/-! ## Errors and outcomes -/

structure ScenarioShapeError where
  expected : Nat
  actual : Nat
  context : String
  deriving DecidableEq

inductive LocalReferenceError where
  | scenarioShape (error : ScenarioShapeError)
  | duplicateAdmissionPayloadRoot (root : Root)
  | primitive (error : PrimitiveError)
  | admission (error : ValidationError)
  | consensus (error : ConsensusError)
  deriving DecidableEq

structure LocalReferenceFlowOutcome where
  admissions : List AuthorizationValidated
  importOutcome : BlockImportOutcome
  deriving DecidableEq

/-! ## Shape -/

def validateScenarioShape (scenario : LocalReferenceScenario) : Except LocalReferenceError Unit :=
  let transactionCount := scenario.block.body.transactions.length
  let admissionCount := scenario.admissionTransactions.length
  let plannedCount := scenario.plannedTransactions.length
  let materialsCount := scenario.transactionAuthorizationMaterials.length
  if admissionCount ≠ transactionCount then
    .error (.scenarioShape ⟨transactionCount, admissionCount,
      "admission transactions must align one-to-one with block body transactions"⟩)
  else if plannedCount ≠ transactionCount then
    .error (.scenarioShape ⟨transactionCount, plannedCount,
      "planned transactions must align one-to-one with block body transactions"⟩)
  else if materialsCount ≠ transactionCount then
    .error (.scenarioShape ⟨transactionCount, materialsCount,
      "authorization material entries must align one-to-one with block body transactions"⟩)
  else .ok ()

/-! ## The admission table -/

/-- An admission transaction with its key material. -/
abbrev AdmissionEntry := TransactionEnvelope × List OwnedAuthorizationMaterial

abbrev AdmissionTable := SortedMap Root AdmissionEntry

/-- The loop that fills the table; a second entry under one root ends it. -/
def collectAdmissionTransactions (sha256 : List UInt8 → Root) :
    List AdmissionEntry → AdmissionTable → Except LocalReferenceError AdmissionTable
  | [], byRoot => .ok byRoot
  | entry :: rest, byRoot => do
    let payloadRoot ← (entry.1.payloadRoot sha256).mapError .primitive
    if (byRoot.get? payloadRoot).isSome then
      .error (.duplicateAdmissionPayloadRoot payloadRoot)
    else collectAdmissionTransactions sha256 rest (byRoot.insert payloadRoot entry)

def buildAdmissionTransactionsByPayloadRoot (sha256 : List UInt8 → Root)
    (transactions : List TransactionEnvelope)
    (authorizationMaterials : List (List OwnedAuthorizationMaterial)) :
    Except LocalReferenceError AdmissionTable :=
  collectAdmissionTransactions sha256 (transactions.zip authorizationMaterials) .empty

/-! ## Services of the scenario -/

structure ReferenceTransactionRevalidator where
  dispatcher : SignatureDispatcher
  policy : AdmissionPolicy
  stateView : Option AdmissionStateView
  admissionTransactions : AdmissionTable

/-- The transaction of the block is only looked up: what is verified is the
admission transaction filed under its payload root. -/
def ReferenceTransactionRevalidator.revalidate (sha256 : List UInt8 → Root)
    (revalidator : ReferenceTransactionRevalidator) (transaction : TransactionEnvelope)
    (_multiAuthorizationPolicy : MultiAuthorizationPolicy) : Except ValidationError Unit := do
  let payloadRoot ← (transaction.payloadRoot sha256).mapError .primitive
  let entry ← (match revalidator.admissionTransactions.get? payloadRoot with
    | some entry => .ok entry
    | none => .error (.authorizationMaterialCount ⟨1, 0⟩))
  let borrowed := entry.2.map OwnedAuthorizationMaterial.asBorrowed
  let _ ← Logged.outcome (AdmissionPipeline.admitAndVerify
    ⟨revalidator.dispatcher, revalidator.policy⟩ sha256 entry.1 revalidator.stateView borrowed)
  .ok ()

structure ReferenceWitnessScenarioPreparer where
  preStateRoot : Root
  materializedState : List (StateKey × MockProgressiveByteList)
  witnesses : List StateWitness

def ReferenceWitnessScenarioPreparer.prepareWitness (sha256 : List UInt8 → Root)
    (preparer : ReferenceWitnessScenarioPreparer) (header : ConsensusHeader)
    (_sidecar : ConsensusSidecar) : Except StateError Unit :=
  if ShellFixtures.computeExecutionWitnessesRoot sha256 preparer.witnesses ≠
      header.executionWitnessesRoot then
    .error (.witnessVerificationFailed
      "reference witness set does not match the committed execution_witnesses_root")
  else do
    let accumulator ← materializeAccumulator sha256 preparer.materializedState
    if accumulator.stateRoot ≠ preparer.preStateRoot then
      .error (.rootContinuityMismatch ⟨preparer.preStateRoot, accumulator.stateRoot⟩)
    else accumulator.verifyWitnesses preparer.witnesses preparer.preStateRoot

theorem prepareWitness_eq_ok_iff (sha256 : List UInt8 → Root)
    (preparer : ReferenceWitnessScenarioPreparer) (header : ConsensusHeader)
    (sidecar : ConsensusSidecar) :
    preparer.prepareWitness sha256 header sidecar = .ok () ↔
      ShellFixtures.computeExecutionWitnessesRoot sha256 preparer.witnesses =
          header.executionWitnessesRoot ∧
        ∃ acc, materializeAccumulator sha256 preparer.materializedState = .ok acc ∧
          acc.stateRoot = preparer.preStateRoot ∧
          acc.verifyWitnesses preparer.witnesses preparer.preStateRoot = .ok () := by
  simp only [ReferenceWitnessScenarioPreparer.prepareWitness, Except.ite_error_eq_ok_iff,
    Except.bind_eq_ok_iff, not_not]

/-! ## The runtime -/

structure LocalReferenceRuntime where
  dispatcher : SignatureDispatcher
  resolver : ProposerCredentialResolver
  admissionPolicy : AdmissionPolicy
  importConfig : BlockImportConfig
  admissionStateView : Option AdmissionStateView

namespace LocalReferenceRuntime
variable (sha256 : List UInt8 → Root) (runtime : LocalReferenceRuntime)

def validateTransaction (envelope : TransactionEnvelope)
    (authorizationMaterials : List OwnedAuthorizationMaterial) :
    ExceptT ValidationError (Logged DispatcherCall) AuthorizationValidated :=
  let borrowed := authorizationMaterials.map OwnedAuthorizationMaterial.asBorrowed
  AdmissionPipeline.admitAndVerify ⟨runtime.dispatcher, runtime.admissionPolicy⟩ sha256 envelope
    runtime.admissionStateView borrowed

def admitTransactions (scenario : LocalReferenceScenario) :
    Except LocalReferenceError (List AuthorizationValidated) :=
  (scenario.admissionTransactions.zip scenario.transactionAuthorizationMaterials).mapM fun entry =>
    (Logged.outcome (runtime.validateTransaction sha256 entry.1 entry.2)).mapError .admission

/-- The services a scenario stands behind. -/
def importServices (scenario : LocalReferenceScenario) (admissionTransactions : AdmissionTable) :
    BlockImportServices where
  resolver := runtime.resolver
  dispatcher := runtime.dispatcher
  revalidator := ReferenceTransactionRevalidator.revalidate sha256
    ⟨runtime.dispatcher, runtime.admissionPolicy, runtime.admissionStateView,
      admissionTransactions⟩
  preparer := ReferenceWitnessScenarioPreparer.prepareWitness sha256
    ⟨scenario.preStateRoot, scenario.materializedState, scenario.block.sidecar.witnesses⟩
  executionEngine := fun _ body _ => ReferenceExecutionEngine.executeBlock sha256
    ⟨scenario.preStateRoot, scenario.materializedState, scenario.plannedTransactions⟩
    body.transactions

def validateBlockAgainstReference (scenario : LocalReferenceScenario) (header : ConsensusHeader)
    (body : ConsensusBody) (sidecar : ConsensusSidecar) (admissionTransactions : AdmissionTable) :
    Except ConsensusError BlockImportOutcome :=
  Logged.outcome (BlockImportPipeline.importBlock sha256 ⟨runtime.importConfig⟩ header body sidecar
    (runtime.importServices sha256 scenario admissionTransactions))

def run (scenario : LocalReferenceScenario) :
    Except LocalReferenceError LocalReferenceFlowOutcome := do
  validateScenarioShape scenario
  let admissions ← runtime.admitTransactions sha256 scenario
  let admissionTransactions ← buildAdmissionTransactionsByPayloadRoot sha256
    scenario.admissionTransactions scenario.transactionAuthorizationMaterials
  let importOutcome ← (runtime.validateBlockAgainstReference sha256 scenario
    scenario.block.header.toConsensus scenario.block.body.toConsensus
    scenario.block.sidecar.toConsensus admissionTransactions).mapError .consensus
  .ok ⟨admissions, importOutcome⟩

end LocalReferenceRuntime

end ShellCli
