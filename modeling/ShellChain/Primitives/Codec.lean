import ShellChain.Primitives.Types

/-!
# Transaction wire format

`[tag] ++ fixed fields ++ variable bytes` for payloads, an offset table for the
authorization list, and two offsets in front of the envelope. Encoding returns
an error when an offset does not fit; decoding returns an error on malformed
bytes. Slices and indices that the decoder takes without a check of their own
are `slice` and `index`, which fault out of bounds.

`usize` is 64 bits wide; its checked operations are explicit.
-/

namespace ShellPrimitives.Codec

open ByteCodec

def usizeMax : Nat := 2 ^ 64 - 1
def u32Max : Nat := 2 ^ 32 - 1

def basicFixedSize : Nat := 32 + 8 + 8 + 96 + 20 + 32 + 4 + 32
def createFixedSize : Nat := 32 + 8 + 8 + 96 + 32 + 4 + 32
def authorizationFixedSize : Nat := 1 + 32 + 4
def envelopeFixedSize : Nat := 4 + 4

def malformed (context : String) : PrimitiveError := .malformedSsz context

/-- `checked_add` and `checked_mul` give `none` past the largest `usize`. -/
def checkedUsize (n : Nat) (context : String) : Except PrimitiveError Nat :=
  if n ≤ usizeMax then .ok n else .error (malformed context)

/-- `u32::try_from`. -/
def tryU32 (n : Nat) (context : String) : Except PrimitiveError UInt32 :=
  if n ≤ u32Max then .ok (UInt32.ofNat n) else .error (malformed context)

/-! ## Encoding -/

def pushU256 (v : U256) : List UInt8 := v.bytes.toList
def pushU64 (v : UInt64) : List UInt8 := leBytes 8 v.toNat
def pushU32 (v : UInt32) : List UInt8 := leBytes 4 v.toNat

def pushFees (fees : BasicFeesPerGas) : List UInt8 :=
  pushU256 fees.regular.value ++ pushU256 fees.maxPriorityFeePerGas.value ++
    pushU256 fees.maxWitnessPriorityFee.value

def encodeBasic (p : BasicTransactionPayload) : List UInt8 :=
  pushU256 p.chainId.value ++ pushU64 p.nonce ++ pushU64 p.gasLimit ++ pushFees p.fees ++
    p.toAddress.toList ++ pushU256 p.value.value ++ pushU32 (UInt32.ofNat basicFixedSize) ++
    p.accessCommitment.toList ++ p.input

def encodeCreate (p : CreateTransactionPayload) : List UInt8 :=
  pushU256 p.chainId.value ++ pushU64 p.nonce ++ pushU64 p.gasLimit ++ pushFees p.fees ++
    pushU256 p.value.value ++ pushU32 (UInt32.ofNat createFixedSize) ++
    p.accessCommitment.toList ++ p.initcode

def encodePayload (payload : TransactionPayloadSsz) : Except PrimitiveError (List UInt8) :=
  match payload.payload with
  | .basic p => .ok (payload.protocolTag :: encodeBasic p)
  | .create p => .ok (payload.protocolTag :: encodeCreate p)

def encodeAuthorization (authorization : Authorization) : Except PrimitiveError (List UInt8) :=
  .ok (authorization.schemeId :: authorization.payloadRoot.toList ++
    pushU32 (UInt32.ofNat authorizationFixedSize) ++ authorization.signature)

/-- The loop of the list encoder: the offset table so far, the encoded elements
so far, and the offset of the next element. -/
def encodeEntries : List Authorization → List UInt8 → List (List UInt8) → Nat →
    Except PrimitiveError (List UInt8 × List (List UInt8))
  | [], out, variableParts, _ => .ok (out, variableParts)
  | authorization :: rest, out, variableParts, nextOffset => do
    let encoded ← encodeAuthorization authorization
    let offset ← tryU32 nextOffset "Authorization list offset exceeds u32::MAX"
    let next ← checkedUsize (nextOffset + encoded.length)
      "Authorization list byte length overflowed usize"
    encodeEntries rest (out ++ pushU32 offset) (variableParts ++ [encoded]) next

def encodeAuthorizationList (authorizations : List Authorization) :
    Except PrimitiveError (List UInt8) := do
  let fixedSize ← checkedUsize (authorizations.length * 4)
    "Authorization list offset table overflowed usize"
  let (out, variableParts) ← encodeEntries authorizations [] [] fixedSize
  .ok (out ++ variableParts.flatten)

def encodeEnvelope (envelope : TransactionEnvelope) : Except PrimitiveError (List UInt8) := do
  let payloadBytes ← encodePayload envelope.payload
  let authorizationsBytes ← encodeAuthorizationList envelope.authorizations
  let authorizationsOffset ← checkedUsize (envelopeFixedSize + payloadBytes.length)
    "TransactionEnvelope variable section overflowed usize"
  let offset ← tryU32 authorizationsOffset
    "TransactionEnvelope authorizations offset exceeds u32::MAX"
  .ok (pushU32 (UInt32.ofNat envelopeFixedSize) ++ pushU32 offset ++ payloadBytes ++
    authorizationsBytes)

/-! ## Reading fields -/

abbrev Decode (α : Type) := Checked PrimitiveError α

def fail {α : Type} (context : String) : Decode α := .error (.error (malformed context))

/-- A checked read of `n` bytes: `bytes.get(offset..offset + n)` or an error. -/
def readWindow (n : Nat) (context : String) (bytes : List UInt8) (offset : Nat) :
    Decode (FixedBytes n) :=
  match window bytes offset n with
  | some v => .ok v
  | none => fail context

def readU64 (bytes : List UInt8) (offset : Nat) : Decode UInt64 := do
  let v ← readWindow 8 "truncated u64 field" bytes offset
  .ok (UInt64.ofNat (leNat v.toList))

def readU32 (bytes : List UInt8) (offset : Nat) : Decode UInt32 := do
  let v ← readWindow 4 "truncated u32 offset field" bytes offset
  .ok (UInt32.ofNat (leNat v.toList))

def readBytes32 : List UInt8 → Nat → Decode Bytes32 :=
  readWindow 32 "truncated 32-byte field"

def readAddress : List UInt8 → Nat → Decode ExecutionAddress :=
  readWindow 20 "truncated ExecutionAddress field"

def readFees (bytes : List UInt8) (offset : Nat) : Decode BasicFeesPerGas := do
  let regular ← readBytes32 bytes offset
  let maxPriorityFeePerGas ← readBytes32 bytes (offset + 32)
  let maxWitnessPriorityFee ← readBytes32 bytes (offset + 64)
  .ok ⟨⟨⟨regular⟩⟩, ⟨⟨maxPriorityFeePerGas⟩⟩, ⟨⟨maxWitnessPriorityFee⟩⟩⟩

/-! ## Decoding -/

def decodeBasic (bytes : List UInt8) : Decode BasicTransactionPayload := do
  if bytes.length < basicFixedSize then
    fail "BasicTransactionPayload too short for fixed fields"
  else do
    let chainId ← readBytes32 bytes 0
    let nonce ← readU64 bytes 32
    let gasLimit ← readU64 bytes 40
    let fees ← readFees bytes 48
    let toAddress ← readAddress bytes 144
    let value ← readBytes32 bytes 164
    let inputOffset ← readU32 bytes 196
    let accessCommitment ← readBytes32 bytes 200
    if inputOffset.toNat ≠ basicFixedSize then
      fail "BasicTransactionPayload: input offset must equal the fixed-part size"
    else do
      let input ← slice bytes basicFixedSize bytes.length
      .ok ⟨⟨⟨chainId⟩⟩, nonce, gasLimit, fees, toAddress, ⟨⟨value⟩⟩, input, accessCommitment⟩

def decodeCreate (bytes : List UInt8) : Decode CreateTransactionPayload := do
  if bytes.length < createFixedSize then
    fail "CreateTransactionPayload too short for fixed fields"
  else do
    let chainId ← readBytes32 bytes 0
    let nonce ← readU64 bytes 32
    let gasLimit ← readU64 bytes 40
    let fees ← readFees bytes 48
    let value ← readBytes32 bytes 144
    let initcodeOffset ← readU32 bytes 176
    let accessCommitment ← readBytes32 bytes 180
    if initcodeOffset.toNat ≠ createFixedSize then
      fail "CreateTransactionPayload: initcode offset must equal the fixed-part size"
    else do
      let initcode ← slice bytes createFixedSize bytes.length
      .ok ⟨⟨⟨chainId⟩⟩, nonce, gasLimit, fees, ⟨⟨value⟩⟩, initcode, accessCommitment⟩

def decodePayload (bytes : List UInt8) : Decode TransactionPayloadSsz := do
  if bytes.isEmpty then
    fail "TransactionPayload wire bytes must not be empty"
  else do
    let tag ← index bytes 0
    (TransactionPayloadSsz.ensureSupportedTag tag).mapError .error
    let inner ← slice bytes 1 bytes.length
    if tag = TransactionPayloadSsz.tagBasic then do
      let p ← decodeBasic inner
      .ok ⟨.basic p⟩
    else if tag = TransactionPayloadSsz.tagCreate then do
      let p ← decodeCreate inner
      .ok ⟨.create p⟩
    else .error (.panic "internal error: entered unreachable code: tag already validated above")

def decodeAuthorization (bytes : List UInt8) : Decode Authorization := do
  if bytes.length < authorizationFixedSize then
    fail "Authorization too short for fixed fields"
  else do
    let schemeId ← index bytes 0
    let payloadRoot ← readBytes32 bytes 1
    let signatureOffset ← readU32 bytes 33
    if signatureOffset.toNat ≠ authorizationFixedSize then
      fail "Authorization: signature offset must equal the fixed-part size"
    else do
      let signature ← slice bytes authorizationFixedSize bytes.length
      .ok ⟨schemeId, payloadRoot, signature⟩

/-- One round of the offset loop. -/
def readElementOffset (bytes : List UInt8) (firstOffset i : Nat) : Decode Nat := do
  let offset ← readU32 bytes (i * 4)
  if offset.toNat < firstOffset ∨ offset.toNat > bytes.length then
    fail "Authorization list element offset points outside the variable section"
  else .ok offset.toNat

/-- One round of the element loop; the last element ends where the bytes end. -/
def decodeElement (bytes : List UInt8) (offsets : List Nat) (i : Nat) : Decode Authorization := do
  let start ← match offsets[i]? with
    | some start => .ok start
    | none => .error (.panic "index out of bounds")
  let stop := offsets[i + 1]?.getD bytes.length
  if stop < start then
    fail "Authorization list element offsets must be monotonic"
  else do
    let element ← slice bytes start stop
    decodeAuthorization element

def decodeAuthorizationList (bytes : List UInt8) : Decode (List Authorization) := do
  if bytes.isEmpty then .ok []
  else do
    let firstOffset ← readU32 bytes 0
    if firstOffset.toNat = 0 ∨ ¬ 4 ∣ firstOffset.toNat then
      fail "Authorization list first offset must equal the offset-table size"
    else if firstOffset.toNat > bytes.length then
      fail "Authorization list offset table extends past the available bytes"
    else do
      let count := firstOffset.toNat / 4
      let offsets ← (List.range count).mapM (readElementOffset bytes firstOffset.toNat)
      (List.range count).mapM (decodeElement bytes offsets)

def decodeEnvelope (bytes : List UInt8) : Decode TransactionEnvelope := do
  if bytes.length < envelopeFixedSize then
    fail "TransactionEnvelope too short for fixed fields"
  else do
    let payloadOffset ← readU32 bytes 0
    let authorizationsOffset ← readU32 bytes 4
    if payloadOffset.toNat ≠ envelopeFixedSize then
      fail "TransactionEnvelope: payload offset must equal the fixed-part size"
    else if authorizationsOffset.toNat < payloadOffset.toNat ∨
        authorizationsOffset.toNat > bytes.length then
      fail "TransactionEnvelope: authorizations offset must point into the variable section"
    else do
      let payloadBytes ← slice bytes payloadOffset.toNat authorizationsOffset.toNat
      let payload ← decodePayload payloadBytes
      let authorizationsBytes ← slice bytes authorizationsOffset.toNat bytes.length
      let authorizations ← decodeAuthorizationList authorizationsBytes
      .ok ⟨payload, authorizations⟩

end ShellPrimitives.Codec

namespace ShellPrimitives.TransactionEnvelope

def toWireBytes (envelope : TransactionEnvelope) : Except PrimitiveError (List UInt8) :=
  Codec.encodeEnvelope envelope

def fromWireBytes (bytes : List UInt8) : Codec.Decode TransactionEnvelope :=
  Codec.decodeEnvelope bytes

end ShellPrimitives.TransactionEnvelope
