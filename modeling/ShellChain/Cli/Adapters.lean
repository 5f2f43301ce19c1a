import ShellChain.Cli.Runtime
import ShellChain.Network.Reputation

/-!
# Network adapters over the reference runtime

The two adapters a network layer calls: one for gossiped transactions, one for
gossiped blocks. Each is built from a scenario and answers with an outcome for
the network, or with an error that is no verdict on the message. The mempool
adapter files only the key material by payload root; the consensus adapter
files whole admission entries.
-/

namespace ShellCli

open ByteCodec ShellPrimitives ShellCrypto ShellMempool ShellState ShellExecution ShellConsensus
open ShellNetwork

/-! ## Outcomes -/

/-- What an adapter makes of a result: an error is an outcome if it is
classified as one, and is passed on otherwise. -/
def reportOutcome {err α : Type} (classify : err → Option ValidationOutcome) :
    Except err α → Except err ValidationOutcome
  | .ok _ => .ok .accept
  | .error error =>
    match classify error with
    | some outcome => .ok outcome
    | none => .error error

/-! ## Transactions -/

abbrev MaterialTable := SortedMap Root (List OwnedAuthorizationMaterial)

/-- The loop of `try_new`; inserting returns the entry it replaces. -/
def collectAuthorizationMaterials (sha256 : List UInt8 → Root) :
    List AdmissionEntry → MaterialTable → Except LocalReferenceError MaterialTable
  | [], materials => .ok materials
  | entry :: rest, materials => do
    let payloadRoot ← (entry.1.payloadRoot sha256).mapError .primitive
    let replaced := materials.get? payloadRoot
    let materials := materials.insert payloadRoot entry.2
    if replaced.isSome then .error (.duplicateAdmissionPayloadRoot payloadRoot)
    else collectAuthorizationMaterials sha256 rest materials

structure LocalReferenceNetworkMempoolAdapter where
  runtime : LocalReferenceRuntime
  authorizationMaterials : MaterialTable

namespace LocalReferenceNetworkMempoolAdapter

def tryNew (sha256 : List UInt8 → Root) (runtime : LocalReferenceRuntime)
    (scenario : LocalReferenceScenario) :
    Except LocalReferenceError LocalReferenceNetworkMempoolAdapter := do
  validateScenarioShape scenario
  let authorizationMaterials ← collectAuthorizationMaterials sha256
    (scenario.admissionTransactions.zip scenario.transactionAuthorizationMaterials) .empty
  .ok ⟨runtime, authorizationMaterials⟩

def validateGossipTransaction (sha256 : List UInt8 → Root)
    (adapter : LocalReferenceNetworkMempoolAdapter) (_origin : NetworkOrigin)
    (envelope : TransactionEnvelope) :
    ExceptT ValidationError (Logged DispatcherCall) ValidationOutcome := do
  let payloadRoot ← Logged.silent ((envelope.payloadRoot sha256).mapError .primitive)
  let materials ← Logged.silent (match adapter.authorizationMaterials.get? payloadRoot with
    | some materials => .ok materials
    | none => .error (.authorizationMaterialCount ⟨envelope.authorizations.length, 0⟩))
  ExceptT.mk (reportOutcome ValidationError.networkValidationOutcome <$>
    (adapter.runtime.validateTransaction sha256 envelope materials).run)

end LocalReferenceNetworkMempoolAdapter

/-! ## Blocks -/

structure LocalReferenceNetworkConsensusAdapter where
  runtime : LocalReferenceRuntime
  scenario : LocalReferenceScenario
  admissionTransactions : AdmissionTable

namespace LocalReferenceNetworkConsensusAdapter

def tryNew (sha256 : List UInt8 → Root) (runtime : LocalReferenceRuntime)
    (scenario : LocalReferenceScenario) :
    Except LocalReferenceError LocalReferenceNetworkConsensusAdapter := do
  validateScenarioShape scenario
  let admissionTransactions ← buildAdmissionTransactionsByPayloadRoot sha256
    scenario.admissionTransactions scenario.transactionAuthorizationMaterials
  .ok ⟨runtime, scenario, admissionTransactions⟩

def validateGossipBlock (sha256 : List UInt8 → Root)
    (adapter : LocalReferenceNetworkConsensusAdapter) (_origin : NetworkOrigin)
    (header : ConsensusHeader) (body : ConsensusBody) (sidecar : ConsensusSidecar) :
    Except ConsensusError ValidationOutcome :=
  reportOutcome ConsensusError.networkValidationOutcome
    (adapter.runtime.validateBlockAgainstReference sha256 adapter.scenario header body sidecar
      adapter.admissionTransactions)

end LocalReferenceNetworkConsensusAdapter

end ShellCli
