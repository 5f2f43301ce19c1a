import ShellChain.Primitives.Types

/-!
# State keys and witnesses

Keys are ordered by their canonical encoding: a tag byte, then the fields at
fixed widths. The encoding is injective, so the canonical order is a strict
total order on keys, and its length always fits a `u32`.
-/

namespace ShellPrimitives

open ByteCodec

abbrev StateKeyBytes := List UInt8

inductive StateKey where
  | accountHeader (address : ExecutionAddress)
  | storageSlot (address : ExecutionAddress) (slot : Bytes32)
  | codeChunk (address : ExecutionAddress) (chunkIndex : UInt32)
  | rawTreeKey (raw : Bytes32)
  | stem (stem : Bytes31)
  deriving DecidableEq

structure StateWitness where
  key : StateKey
  leafValue : MockProgressiveByteList
  proof : MockProgressiveList Bytes32
  deriving DecidableEq

inductive WitnessProofShape where
  | referenceEmpty
  | placeholderCommittedNodes
  deriving DecidableEq

def StateWitness.proofShape (witness : StateWitness) : WitnessProofShape :=
  if witness.proof.isEmpty then .referenceEmpty else .placeholderCommittedNodes

def canonicalizeExecutionAddress (addr : ExecutionAddress) : Bytes32 :=
  ⟨List.replicate 12 0 ++ addr.toList, by simp⟩

def encodeStateKey : StateKey → StateKeyBytes
  | .accountHeader address => 0 :: (canonicalizeExecutionAddress address).toList
  | .storageSlot address slot => 1 :: (canonicalizeExecutionAddress address).toList ++ slot.toList
  | .codeChunk address chunkIndex =>
    2 :: (canonicalizeExecutionAddress address).toList ++ beBytes 4 chunkIndex.toNat
  | .rawTreeKey raw => 3 :: raw.toList
  | .stem stem => 4 :: stem.toList

def compareStateKeys (left right : StateKey) : Ordering :=
  compareOfLessAndEq (encodeStateKey left) (encodeStateKey right)

/-- The canonical order on keys. -/
def StateKey.Before (left right : StateKey) : Prop := encodeStateKey left < encodeStateKey right

instance (left right : StateKey) : Decidable (left.Before right) :=
  inferInstanceAs (Decidable (encodeStateKey left < encodeStateKey right))

theorem compareStateKeys_isLT_iff (left right : StateKey) :
    (compareStateKeys left right).isLT = true ↔ left.Before right := by
  rw [compareStateKeys, compareOfLessAndEq, StateKey.Before]
  by_cases hlt : encodeStateKey left < encodeStateKey right
  · simp [hlt]
  · by_cases heq : encodeStateKey left = encodeStateKey right
    · simp [heq]
    · simp [hlt, heq]

theorem canonicalizeExecutionAddress_injective {a b : ExecutionAddress}
    (h : (canonicalizeExecutionAddress a).toList = (canonicalizeExecutionAddress b).toList) :
    a = b :=
  List.Vector.eq a b (List.append_cancel_left h)

theorem encodeStateKey_injective {a b : StateKey} (h : encodeStateKey a = encodeStateKey b) :
    a = b := by
  cases a <;> cases b <;> simp only [encodeStateKey, List.cons.injEq, List.cons_append] at h <;>
    try exact absurd h.1 (by decide)
  case accountHeader.accountHeader =>
    rw [canonicalizeExecutionAddress_injective h.2]
  case storageSlot.storageSlot =>
    obtain ⟨haddress, hslot⟩ := List.append_inj h.2 (by simp)
    rw [canonicalizeExecutionAddress_injective haddress, List.Vector.eq _ _ hslot]
  case codeChunk.codeChunk a i b j =>
    obtain ⟨haddress, hindex⟩ := List.append_inj h.2 (by simp)
    have hij := @beBytes_injective 4 _ _ i.toNat_lt j.toNat_lt hindex
    rw [canonicalizeExecutionAddress_injective haddress, UInt32.toNat_inj.mp hij]
  case rawTreeKey.rawTreeKey =>
    rw [List.Vector.eq _ _ h.2]
  case stem.stem =>
    rw [List.Vector.eq _ _ h.2]

theorem length_encodeStateKey_le (key : StateKey) : (encodeStateKey key).length ≤ 65 := by
  cases key <;> simp [encodeStateKey]

end ShellPrimitives
