import ShellChain.Library.ByteCodec

/-!
# Shared protocol objects

The data model of `shell-primitives`: scalars, transaction payloads,
authorizations, envelopes, state keys and the error values the shared helpers
return. Byte lists and lists are the unbounded vectors of the source; the mock
limits are constants next to them, not part of the types.
-/

namespace ShellPrimitives

open ByteCodec

/-! ## Scalars -/

abbrev Root := FixedBytes 32
abbrev Bytes32 := FixedBytes 32
abbrev Bytes31 := FixedBytes 31
abbrev Bytes4 := FixedBytes 4
abbrev ExecutionAddress := FixedBytes 20

def mockProgressiveByteListLimit : Nat := 1048576
def mockProgressiveListLimit : Nat := 8192

abbrev MockProgressiveByteList := List UInt8
abbrev MockProgressiveList := List

/-- Thirty-two little-endian bytes. -/
structure U256 where
  bytes : Bytes32
  deriving DecidableEq

structure ChainId where
  value : U256
  deriving DecidableEq

structure TxValue where
  value : U256
  deriving DecidableEq

structure GasPrice where
  value : U256
  deriving DecidableEq

structure BasicFeesPerGas where
  regular : GasPrice
  maxPriorityFeePerGas : GasPrice
  maxWitnessPriorityFee : GasPrice
  deriving DecidableEq

/-! ## Transactions -/

structure BasicTransactionPayload where
  chainId : ChainId
  nonce : UInt64
  gasLimit : UInt64
  fees : BasicFeesPerGas
  toAddress : ExecutionAddress
  value : TxValue
  input : MockProgressiveByteList
  accessCommitment : Root
  deriving DecidableEq

structure CreateTransactionPayload where
  chainId : ChainId
  nonce : UInt64
  gasLimit : UInt64
  fees : BasicFeesPerGas
  value : TxValue
  initcode : MockProgressiveByteList
  accessCommitment : Root
  deriving DecidableEq

structure Authorization where
  schemeId : UInt8
  payloadRoot : Root
  signature : MockProgressiveByteList
  deriving DecidableEq

structure SigningData where
  objectRoot : Root
  domainType : Bytes4
  deriving DecidableEq

inductive TransactionPayload where
  | basic (payload : BasicTransactionPayload)
  | create (payload : CreateTransactionPayload)
  deriving DecidableEq

structure TransactionPayloadSsz where
  payload : TransactionPayload
  deriving DecidableEq

structure TransactionEnvelope where
  payload : TransactionPayloadSsz
  authorizations : MockProgressiveList Authorization
  deriving DecidableEq

/-! ## Errors -/

/-- What the network layer is told about a message. -/
inductive ValidationOutcome where
  | accept
  | reject
  | policyReject
  deriving DecidableEq

/-- Where a check runs: the stages of a transaction, then those of a block. -/
inductive ValidationStage where
  | t0
  | t1
  | t2
  | t3
  | t4
  | b0
  | b1
  | b2
  | b3
  | b4
  | b5
  deriving DecidableEq

inductive PrimitiveError where
  | malformedSsz (context : String)
  | unsupportedPayloadVariant (tag : UInt8)
  | payloadRootMismatch (expected actual : Root)
  | signingRootConstruction (context : String)
  | authorizationCount (expectedAtLeast actual : Nat)
  | signatureSizeExceeded (maxBytes actualBytes : Nat)
  | unimplemented (context : String)
  deriving DecidableEq

inductive ProposerCredentialResolutionError where
  | notFound
  | resolverUnavailable
  | invalidCredentialEncoding (schemeId : UInt8) (context : String)
  deriving DecidableEq

/-- A missing or malformed credential is the block's fault; an unavailable resolver is not. -/
def ProposerCredentialResolutionError.isConsensusInvalid :
    ProposerCredentialResolutionError → Bool
  | .notFound => true
  | .invalidCredentialEncoding _ _ => true
  | .resolverUnavailable => false

def PrimitiveError.networkValidationOutcome : PrimitiveError → Option ValidationOutcome
  | .malformedSsz _ => some .reject
  | .unsupportedPayloadVariant _ => some .reject
  | .payloadRootMismatch _ _ => some .reject
  | .authorizationCount _ _ => some .reject
  | .signatureSizeExceeded _ _ => some .reject
  | .signingRootConstruction _ => none
  | .unimplemented _ => none

/-! ## Proposer credentials -/

structure ProposerCredential where
  schemeId : UInt8
  publicKeyMaterial : MockProgressiveByteList
  deriving DecidableEq

structure ProposerCredentialQuery where
  blockRoot : Root
  proposerIndexHint : Option UInt64
  deriving DecidableEq

/-- `resolve_proposer_credential` of a resolver. -/
abbrev ProposerCredentialResolver :=
  ProposerCredentialQuery → Except ProposerCredentialResolutionError ProposerCredential

/-! ## Tags -/

namespace TransactionPayloadSsz

def tagBasic : UInt8 := 0
def tagCreate : UInt8 := 1

def protocolTag (p : TransactionPayloadSsz) : UInt8 :=
  match p.payload with
  | .basic _ => tagBasic
  | .create _ => tagCreate

@[simp] theorem protocolTag_basic (p : BasicTransactionPayload) :
    protocolTag ⟨.basic p⟩ = tagBasic := rfl

@[simp] theorem protocolTag_create (p : CreateTransactionPayload) :
    protocolTag ⟨.create p⟩ = tagCreate := rfl

def ensureSupportedTag (tag : UInt8) : Except PrimitiveError Unit :=
  if tag = tagBasic ∨ tag = tagCreate then .ok ()
  else .error (.unsupportedPayloadVariant tag)

/-- The tag of a payload value always passes the tag gate. -/
@[simp] theorem ensureSupportedTag_protocolTag (p : TransactionPayloadSsz) :
    ensureSupportedTag p.protocolTag = .ok () := by
  obtain ⟨p | p⟩ := p <;> rfl

end TransactionPayloadSsz

/-! ## A sample -/

/-- A transfer with empty byte lists. -/
def bareEnvelope : TransactionEnvelope where
  payload := ⟨.basic
    { chainId := ⟨⟨zeros 32⟩⟩, nonce := 1, gasLimit := 21000
      fees := ⟨⟨⟨zeros 32⟩⟩, ⟨⟨zeros 32⟩⟩, ⟨⟨zeros 32⟩⟩⟩
      toAddress := zeros 20, value := ⟨⟨zeros 32⟩⟩, input := []
      accessCommitment := zeros 32 }⟩
  authorizations := [{ schemeId := 1, payloadRoot := zeros 32, signature := [] }]

end ShellPrimitives
