import ShellChain.Library.Hashing
import ShellChain.Primitives.Types

/-!
# Hash tree roots

SHA-256 is a parameter. Every helper that hashes runs in `Hashing`, which logs
each string it hashes and each call of `merkleize`, the recursive ones
included. The debug assertions of `merkleize` are not part of its result; a
statement about them is a statement about the logged calls.
-/

namespace ShellPrimitives.Ssz

open ByteCodec

/-- The arguments of one call of `merkleize`. -/
structure MerkleCall where
  chunks : List Root
  limit : Nat
  deriving DecidableEq

section
variable (sha256 : List UInt8 → Root)

/-! ## Merkle helpers -/

def sha256Pair (left right : Root) : Hashing MerkleCall Root :=
  Hashing.hash sha256 (left.toList ++ right.toList)

def zeroHash : Nat → Hashing MerkleCall Root
  | 0 => pure (zeros 32)
  | depth + 1 => do
    let h ← zeroHash depth
    sha256Pair sha256 h h

/-- The position of the lowest set bit of a `usize`. -/
def trailingZeros (n : Nat) : Nat := ((List.range 64).find? fun i => n.testBit i).getD 64

/-- The recursion of `merkleize`; the limit halves, so its logarithm bounds the depth. -/
def merkleizeWithin : Nat → List Root → Nat → Hashing MerkleCall Root
  | 0, _, _ => pure (zeros 32)
  | depth + 1, chunks, limit => Hashing.enter ⟨chunks, limit⟩ <|
    match limit with
    | 0 => pure (zeros 32)
    | 1 => pure (chunks.head?.getD (zeros 32))
    | _ => do
      let half := limit / 2
      let left ← merkleizeWithin depth (chunks.take (min chunks.length half)) half
      let right ← (if chunks.length > half then merkleizeWithin depth (chunks.drop half) half
        else zeroHash sha256 (trailingZeros half))
      sha256Pair sha256 left right

def merkleize (chunks : List Root) (limit : Nat) : Hashing MerkleCall Root :=
  merkleizeWithin sha256 (limit.log2 + 1) chunks limit

theorem merkleize_one (chunks : List Root) :
    merkleize sha256 chunks 1 =
      Hashing.enter ⟨chunks, 1⟩ (pure (chunks.head?.getD (zeros 32))) := rfl

/-- The source's recursion: the depth given to the helper is never used up. -/
theorem merkleize_of_two_le (chunks : List Root) {limit : Nat} (h : 2 ≤ limit) :
    merkleize sha256 chunks limit = Hashing.enter ⟨chunks, limit⟩ (do
      let left ← merkleize sha256 (chunks.take (min chunks.length (limit / 2))) (limit / 2)
      let right ← (if chunks.length > limit / 2 then
          merkleize sha256 (chunks.drop (limit / 2)) (limit / 2)
        else zeroHash sha256 (trailingZeros (limit / 2)))
      sha256Pair sha256 left right) := by
  have hlog : limit.log2 = (limit / 2).log2 + 1 := by
    rw [Nat.log2_def limit, if_pos h]
  obtain ⟨k, rfl⟩ := Nat.exists_eq_add_of_le' h
  rw [merkleize, hlog]
  rfl

def packBytes (bytes : List UInt8) : List Root :=
  if bytes.isEmpty then []
  else
    let numChunks := (bytes.length + 31) / 32
    (List.range numChunks).map fun i =>
      let start := i * 32
      let stop := min (start + 32) bytes.length
      padTo 32 ((bytes.take stop).drop start)

def mixInLength (root : Root) (length : Nat) : Hashing MerkleCall Root :=
  sha256Pair sha256 root (padTo 32 (leBytes 8 length))

def mixInSelector (root : Root) (selector : UInt8) : Hashing MerkleCall Root :=
  sha256Pair sha256 root (padTo 32 [selector])

/-! ## Fields -/

def htrU64 (v : UInt64) : Root := padTo 32 (leBytes 8 v.toNat)

def htrU256 (bytes : Bytes32) : Root := bytes

def htrAddress (addr : ExecutionAddress) : Root := padTo 32 addr.toList

def htrFees (fees : BasicFeesPerGas) : Hashing MerkleCall Root :=
  let f1 := htrU256 fees.regular.value.bytes
  let f2 := htrU256 fees.maxPriorityFeePerGas.value.bytes
  let f3 := htrU256 fees.maxWitnessPriorityFee.value.bytes
  merkleize sha256 [f1, f2, f3, zeros 32] 4

def chunkLimit : Nat := mockProgressiveByteListLimit / 32

def htrByteList (bytes : List UInt8) : Hashing MerkleCall Root := do
  let chunks := packBytes bytes
  let treeRoot ← merkleize sha256 chunks chunkLimit
  mixInLength sha256 treeRoot bytes.length

def htrBasicPayload (p : BasicTransactionPayload) : Hashing MerkleCall Root := do
  let f1 := htrU256 p.chainId.value.bytes
  let f2 := htrU64 p.nonce
  let f3 := htrU64 p.gasLimit
  let f4 ← htrFees sha256 p.fees
  let f5 := htrAddress p.toAddress
  let f6 := htrU256 p.value.value.bytes
  let f7 ← htrByteList sha256 p.input
  let f8 := p.accessCommitment
  merkleize sha256 [f1, f2, f3, f4, f5, f6, f7, f8] 8

def htrCreatePayload (p : CreateTransactionPayload) : Hashing MerkleCall Root := do
  let f1 := htrU256 p.chainId.value.bytes
  let f2 := htrU64 p.nonce
  let f3 := htrU64 p.gasLimit
  let f4 ← htrFees sha256 p.fees
  let f5 := htrU256 p.value.value.bytes
  let f6 ← htrByteList sha256 p.initcode
  let f7 := p.accessCommitment
  merkleize sha256 [f1, f2, f3, f4, f5, f6, f7, zeros 32] 8

def htrAuthorization (authorization : Authorization) : Hashing MerkleCall Root := do
  let schemeChunk := padTo 32 [authorization.schemeId]
  let payloadRoot := authorization.payloadRoot
  let signatureRoot ← htrByteList sha256 authorization.signature
  merkleize sha256 [schemeChunk, payloadRoot, signatureRoot, zeros 32] 4

def htrAuthorizationList (authorizations : List Authorization) : Hashing MerkleCall Root := do
  let roots ← Logged.traverse (htrAuthorization sha256) authorizations
  let treeRoot ← merkleize sha256 roots mockProgressiveListLimit
  mixInLength sha256 treeRoot authorizations.length

/-! ## Objects -/

/-- The run behind `hash_tree_root` of a payload, which returns no error. -/
def payloadRootRun (payload : TransactionPayloadSsz) : Hashing MerkleCall Root :=
  match payload.payload with
  | .basic p => do
    let innerRoot ← htrBasicPayload sha256 p
    mixInSelector sha256 innerRoot TransactionPayloadSsz.tagBasic
  | .create p => do
    let innerRoot ← htrCreatePayload sha256 p
    mixInSelector sha256 innerRoot TransactionPayloadSsz.tagCreate

/-- The run behind `hash_tree_root` of an envelope, which returns no error. -/
def envelopeRootRun (envelope : TransactionEnvelope) : Hashing MerkleCall Root := do
  let payloadRoot ← payloadRootRun sha256 envelope.payload
  let authorizationsRoot ← htrAuthorizationList sha256 envelope.authorizations
  merkleize sha256 [payloadRoot, authorizationsRoot] 2

def signingDataRootRun (data : SigningData) : Hashing MerkleCall Root :=
  let f1 := data.objectRoot
  let f2 := padTo 32 data.domainType.toList
  merkleize sha256 [f1, f2] 2

def signingRoot (data : SigningData) : Except PrimitiveError Root :=
  .ok (signingDataRootRun sha256 data).value

end

end ShellPrimitives.Ssz

namespace ShellPrimitives
variable (sha256 : List UInt8 → Root)

def TransactionPayloadSsz.hashTreeRoot (payload : TransactionPayloadSsz) :
    Except PrimitiveError Root :=
  .ok (Ssz.payloadRootRun sha256 payload).value

def TransactionEnvelope.payloadRoot (envelope : TransactionEnvelope) : Except PrimitiveError Root :=
  envelope.payload.hashTreeRoot sha256

theorem TransactionEnvelope.payloadRoot_eq (envelope : TransactionEnvelope) :
    envelope.payloadRoot sha256 = .ok (Ssz.payloadRootRun sha256 envelope.payload).value := rfl

def TransactionEnvelope.canonicalRoot (envelope : TransactionEnvelope) :
    Except PrimitiveError Root :=
  .ok (Ssz.envelopeRootRun sha256 envelope).value

end ShellPrimitives
