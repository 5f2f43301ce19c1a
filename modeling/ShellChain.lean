import ShellChain.Library.Logged
import ShellChain.Library.ByteCodec
import ShellChain.Primitives.Types
import ShellChain.Primitives.Codec
import ShellChain.Library.OffsetTable
import ShellChain.Primitives.WireBijection
import ShellChain.Library.Hashing
import ShellChain.Primitives.Ssz
import ShellChain.Library.Sha256
import ShellChain.Primitives.RootBinding
import ShellChain.Primitives.MerkleLimits
import ShellChain.Library.SortedMap
import ShellChain.Primitives.StateKey
import ShellChain.State.Accumulator
import ShellChain.State.LastWriter
import ShellChain.State.RootBinding
import ShellChain.State.Witness
import ShellChain.Execution.Engine
import ShellChain.Execution.PlannedLineage
import ShellChain.Cli.ReferenceEngine
import ShellChain.Crypto.Dispatch
import ShellChain.Mempool.Admission
import ShellChain.Mempool.AdmissionExact
import ShellChain.Consensus.Import
import ShellChain.Consensus.ImportExact
import ShellChain.Cli.Runtime
import ShellChain.Cli.Revalidation
import ShellChain.Primitives.WireTotality
import ShellChain.Execution.FailedBlock
import ShellChain.Library.History
import ShellChain.State.SharedApplier
import ShellChain.Consensus.SigningSeparation
import ShellChain.Cli.Adapters
import ShellChain.Cli.AdapterAgreement
import ShellChain.Cli.BlockBinding
import ShellChain.Cli.PolicyDependence
import ShellChain.Crypto.Registry
import ShellChain.Crypto.RegistryDispatch
import ShellChain.Fixtures.Materializer
import ShellChain.Execution.ReceiptBinding
import ShellChain.State.ProofPaths
import ShellChain.Library.ByteOrder
import ShellChain.Primitives.StateKeyOrder
import ShellChain.Mempool.U256Order
import ShellChain.Library.PerfectTree
import ShellChain.Primitives.MerkleTree
import ShellChain.State.OrderChecks
import ShellChain.State.PatchAlgebra
import ShellChain.Cli.ChainedBlocks
import ShellChain.Fixtures.Hex
import ShellChain.Fixtures.Vectors
import ShellChain.Fixtures.RootCheck
import ShellChain.Library.Pointwise
import ShellChain.Fixtures.ResolvedScenario
import ShellChain.Cli.ResolvedRun
import ShellChain.Cli.SignatureSchemes
import ShellChain.Execution.BlockComposition
import ShellChain.Cli.LaxerRuntime
import ShellChain.Network.FetchPolicy
import ShellChain.Primitives.WireFraming
import ShellChain.State.NeighbourChain
import ShellChain.State.WitnessExpiry
import ShellChain.Cli.GossipAgreement
