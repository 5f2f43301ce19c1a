import ShellChain.Fixtures.Hex
import ShellChain.Primitives.StateKey

/-!
# Test vectors

`shell-fixtures`: the fields of the transaction and witness vectors the
root-check scenarios are built from, and the protocol objects they are read as.
Only the fields the readers use are kept.
-/

namespace ShellFixtures

open ByteCodec ShellPrimitives Except

/-! ## State keys -/

inductive StateKeyInput where
  | accountHeader (address : String) (canonicalKeyHex : Option String)
  | storageSlot (address slot : String) (canonicalKeyHex : Option String)
  | codeChunk (address : String) (chunkIndex : UInt32) (canonicalKeyHex : Option String)
  | rawTreeKey (rawKey : String) (canonicalKeyHex : Option String)
  | stem (stem : String) (canonicalKeyHex : Option String)
  deriving DecidableEq

inductive VectorPanic where
  | hex (panic : HexPanic)
  | canonicalKeyMismatch (input : StateKeyInput) (encoded declared : StateKeyBytes)
  | missingPayload (id : String)
  deriving DecidableEq

namespace StateKeyInput

def canonicalKeyHex : StateKeyInput → Option String
  | accountHeader _ hex => hex
  | storageSlot _ _ hex => hex
  | codeChunk _ _ hex => hex
  | rawTreeKey _ hex => hex
  | stem _ hex => hex

/-- The key the fields describe. -/
def readKey : StateKeyInput → Except HexPanic StateKey
  | accountHeader address _ => do
    .ok (.accountHeader (← parseAddress address))
  | storageSlot address slot _ => do
    .ok (.storageSlot (← parseAddress address) (← parseBytes32 slot))
  | codeChunk address chunkIndex _ => do
    .ok (.codeChunk (← parseAddress address) chunkIndex)
  | rawTreeKey rawKey _ => do
    .ok (.rawTreeKey (← parseBytes32 rawKey))
  | stem value _ => do
    .ok (.stem (← parseBytes31 value))

/-- The canonical bytes a vector declares are only compared with those of the key. -/
def toStateKey (input : StateKeyInput) : Except VectorPanic StateKey := do
  let key ← input.readKey.mapError .hex
  match input.canonicalKeyHex with
  | none => .ok key
  | some expectedHex =>
    let declared ← (parseHex expectedHex).mapError .hex
    if encodeStateKey key = declared then .ok key
    else .error (.canonicalKeyMismatch input (encodeStateKey key) declared)

end StateKeyInput

/-! ## Witness vectors -/

structure WitnessFixture where
  key : StateKeyInput
  leafValueHex : String
  proofHex : List String
  deriving DecidableEq

structure MaterializedLeafFixture where
  key : StateKeyInput
  leafValueHex : String
  deriving DecidableEq

def WitnessFixture.toStateWitness (fixture : WitnessFixture) : Except VectorPanic StateWitness := do
  let key ← fixture.key.toStateKey
  let leafValue ← (parseHex fixture.leafValueHex).mapError .hex
  let proof ← (fixture.proofHex.mapM parseBytes32).mapError .hex
  .ok ⟨key, leafValue, proof⟩

def MaterializedLeafFixture.toEntry (fixture : MaterializedLeafFixture) :
    Except VectorPanic (StateKey × MockProgressiveByteList) := do
  let key ← fixture.key.toStateKey
  let value ← (parseHex fixture.leafValueHex).mapError .hex
  .ok (key, value)

structure WitnessInput where
  expectedStateRoot : Option String
  witness : Option WitnessFixture
  materializedState : Option (List MaterializedLeafFixture)
  deriving DecidableEq

structure WitnessVector where
  id : String
  input : WitnessInput
  expectedOutcome : String
  deriving DecidableEq

namespace WitnessVector

/-- Reads an optional field that is there. -/
def readOption {α β : Type} (read : α → Except VectorPanic β) :
    Option α → Except VectorPanic (Option β)
  | none => .ok none
  | some a => (read a).map some

def witness (vector : WitnessVector) : Except VectorPanic (Option StateWitness) :=
  readOption WitnessFixture.toStateWitness vector.input.witness

def materializedState (vector : WitnessVector) :
    Except VectorPanic (List (StateKey × MockProgressiveByteList)) :=
  match vector.input.materializedState with
  | none => .ok []
  | some entries => entries.mapM MaterializedLeafFixture.toEntry

def expectedStateRoot (vector : WitnessVector) : Except VectorPanic (Option Root) :=
  readOption (fun value => (parseRoot value).mapError .hex) vector.input.expectedStateRoot

end WitnessVector

/-! ## Transaction vectors -/

structure FeeInput where
  regular : String
  maxPriorityFeePerGas : String
  maxWitnessPriorityFee : String
  deriving DecidableEq

inductive TransactionPayloadInput where
  | basic (chainId : String) (nonce gasLimit : UInt64) (fees : FeeInput) (toAddress value : String)
    (inputHex accessCommitment : String)
  | create (chainId : String) (nonce gasLimit : UInt64) (fees : FeeInput) (value : String)
    (initcodeHex accessCommitment : String)
  deriving DecidableEq

structure TransactionVectorInput where
  payload : Option TransactionPayloadInput
  deriving DecidableEq

structure TransactionVector where
  id : String
  input : TransactionVectorInput
  expectedOutcome : String
  deriving DecidableEq

def parseFees (fees : FeeInput) : Except HexPanic BasicFeesPerGas := do
  let regular ← parseBytes32 fees.regular
  let maxPriorityFeePerGas ← parseBytes32 fees.maxPriorityFeePerGas
  let maxWitnessPriorityFee ← parseBytes32 fees.maxWitnessPriorityFee
  .ok ⟨⟨⟨regular⟩⟩, ⟨⟨maxPriorityFeePerGas⟩⟩, ⟨⟨maxWitnessPriorityFee⟩⟩⟩

def buildPayload : TransactionPayloadInput → Except HexPanic TransactionPayloadSsz
  | .basic chainId nonce gasLimit fees toAddress value inputHex accessCommitment => do
    let chainId ← parseBytes32 chainId
    let fees ← parseFees fees
    let toAddress ← parseAddress toAddress
    let value ← parseBytes32 value
    let input ← parseHex inputHex
    let accessCommitment ← parseRoot accessCommitment
    .ok ⟨.basic ⟨⟨⟨chainId⟩⟩, nonce, gasLimit, fees, toAddress, ⟨⟨value⟩⟩, input,
      accessCommitment⟩⟩
  | .create chainId nonce gasLimit fees value initcodeHex accessCommitment => do
    let chainId ← parseBytes32 chainId
    let fees ← parseFees fees
    let value ← parseBytes32 value
    let initcode ← parseHex initcodeHex
    let accessCommitment ← parseRoot accessCommitment
    .ok ⟨.create ⟨⟨⟨chainId⟩⟩, nonce, gasLimit, fees, ⟨⟨value⟩⟩, initcode, accessCommitment⟩⟩

def TransactionVector.payload (vector : TransactionVector) :
    Except VectorPanic TransactionPayloadSsz :=
  match vector.input.payload with
  | none => .error (.missingPayload vector.id)
  | some payload => (buildPayload payload).mapError .hex

/-- A vector never carries an authorization. -/
def TransactionVector.envelope (vector : TransactionVector) :
    Except VectorPanic TransactionEnvelope := do
  .ok ⟨← vector.payload, []⟩

/-! ## Reading keys -/

theorem StateKeyInput.toStateKey_eq_ok_iff {input : StateKeyInput} {key : StateKey} :
    input.toStateKey = .ok key ↔ input.readKey = .ok key ∧
      ∀ hex, input.canonicalKeyHex = some hex → parseHex hex = .ok (encodeStateKey key) := by
  rw [toStateKey, bind_eq_ok_iff]
  simp only [mapError_eq_ok_iff]
  constructor
  · rintro ⟨key', hkey, h⟩
    cases hhex : input.canonicalKeyHex with
    | none =>
      rw [hhex] at h
      obtain rfl := Except.ok.inj h
      refine ⟨hkey, ?_⟩
      intro hex habsurd
      cases habsurd
    | some expectedHex =>
      simp only [hhex] at h
      obtain ⟨declared, hdeclared, h⟩ := (bind_eq_ok_iff _ _ _).mp h
      split at h
      · next hsame =>
        obtain rfl := Except.ok.inj h
        refine ⟨hkey, ?_⟩
        rintro hex ⟨⟩
        rw [(mapError_eq_ok_iff _ _ _).mp hdeclared, hsame]
      · cases h
  · rintro ⟨hkey, hdeclared⟩
    refine ⟨key, hkey, ?_⟩
    cases hhex : input.canonicalKeyHex with
    | none => rfl
    | some expectedHex =>
      simp only [hdeclared expectedHex hhex, Except.mapError, ok_bind, if_true]

/-! ## Writing vectors -/

def StateKeyInput.ofStateKey (key : StateKey) : StateKeyInput :=
  let canonical := some (toHex (encodeStateKey key))
  match key with
  | .accountHeader address => .accountHeader (toHex address.toList) canonical
  | .storageSlot address slot => .storageSlot (toHex address.toList) (toHex slot.toList) canonical
  | .codeChunk address chunkIndex => .codeChunk (toHex address.toList) chunkIndex canonical
  | .rawTreeKey raw => .rawTreeKey (toHex raw.toList) canonical
  | .stem value => .stem (toHex value.toList) canonical

def WitnessFixture.ofStateWitness (witness : StateWitness) : WitnessFixture where
  key := .ofStateKey witness.key
  leafValueHex := toHex witness.leafValue
  proofHex := witness.proof.map fun node => toHex node.toList

def MaterializedLeafFixture.ofEntry (entry : StateKey × MockProgressiveByteList) :
    MaterializedLeafFixture where
  key := .ofStateKey entry.1
  leafValueHex := toHex entry.2

def FeeInput.ofFees (fees : BasicFeesPerGas) : FeeInput where
  regular := toHex fees.regular.value.bytes.toList
  maxPriorityFeePerGas := toHex fees.maxPriorityFeePerGas.value.bytes.toList
  maxWitnessPriorityFee := toHex fees.maxWitnessPriorityFee.value.bytes.toList

def TransactionPayloadInput.ofPayload (payload : TransactionPayloadSsz) : TransactionPayloadInput :=
  match payload.payload with
  | .basic p => .basic (toHex p.chainId.value.bytes.toList) p.nonce p.gasLimit (.ofFees p.fees)
      (toHex p.toAddress.toList) (toHex p.value.value.bytes.toList) (toHex p.input)
      (toHex p.accessCommitment.toList)
  | .create p => .create (toHex p.chainId.value.bytes.toList) p.nonce p.gasLimit (.ofFees p.fees)
      (toHex p.value.value.bytes.toList) (toHex p.initcode) (toHex p.accessCommitment.toList)

@[simp] theorem StateKeyInput.canonicalKeyHex_ofStateKey (key : StateKey) :
    (ofStateKey key).canonicalKeyHex = some (toHex (encodeStateKey key)) := by
  cases key <;> rfl

@[simp] theorem StateKeyInput.readKey_ofStateKey (key : StateKey) :
    (ofStateKey key).readKey = .ok key := by
  cases key <;>
    simp [ofStateKey, readKey, parseAddress, parseBytes32, parseBytes31, ok_bind]

@[simp] theorem StateKeyInput.toStateKey_ofStateKey (key : StateKey) :
    (ofStateKey key).toStateKey = .ok key := by
  refine toStateKey_eq_ok_iff.mpr ⟨readKey_ofStateKey key, ?_⟩
  rintro hex hhex
  rw [canonicalKeyHex_ofStateKey] at hhex
  obtain rfl := Option.some.inj hhex
  exact parseHex_toHex _

@[simp] theorem MaterializedLeafFixture.toEntry_ofEntry
    (entry : StateKey × MockProgressiveByteList) : (ofEntry entry).toEntry = .ok entry := by
  simp [ofEntry, toEntry, ok_bind, Except.mapError]

@[simp] theorem WitnessFixture.toStateWitness_ofStateWitness (witness : StateWitness) :
    (ofStateWitness witness).toStateWitness = .ok witness := by
  have hproof : (witness.proof.map fun node => toHex node.toList).mapM parseBytes32 =
      .ok witness.proof := by
    rw [mapM_eq_ok_iff, List.forall₂_map_left_iff, List.forall₂_same]
    intro node _
    exact parseArray_toHex _ node
  simp [ofStateWitness, toStateWitness, ok_bind, hproof, Except.mapError]

@[simp] theorem parseFees_ofFees (fees : BasicFeesPerGas) :
    parseFees (.ofFees fees) = .ok fees := by
  simp [FeeInput.ofFees, parseFees, parseBytes32, ok_bind]

@[simp] theorem buildPayload_ofPayload (payload : TransactionPayloadSsz) :
    buildPayload (.ofPayload payload) = .ok payload := by
  obtain ⟨p | p⟩ := payload
  · simp [TransactionPayloadInput.ofPayload, buildPayload, parseBytes32, parseAddress, parseRoot,
      ok_bind]
  · simp [TransactionPayloadInput.ofPayload, buildPayload, parseBytes32, parseRoot, ok_bind]

end ShellFixtures
