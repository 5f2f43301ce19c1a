import ShellChain.Library.Hashing
import ShellChain.Library.Sha256
import ShellChain.Primitives.Ssz
import ShellChain.Primitives.StateKey

/-!
# Commitments of the reference fixtures

`shell-fixtures`: the commitments to a block's transactions and to its execution
witnesses. Each is one hash over the whole list, with a length in front of
every part of variable size.
-/

namespace ShellFixtures

open ByteCodec ShellPrimitives

def computeTransactionsRoot (sha256 : List UInt8 → Root) (transactions : List TransactionEnvelope) :
    Except PrimitiveError Root := do
  let roots ← transactions.mapM fun transaction => transaction.canonicalRoot sha256
  .ok (sha256 (ascii "shell-fixtures/transactions-root/v1" ++ beBytes 8 transactions.length ++
    roots.flatMap List.Vector.toList))

/-- What the hasher is fed for one witness. -/
def witnessBytes (witness : StateWitness) : List UInt8 :=
  let encodedKey := encodeStateKey witness.key
  beBytes 8 encodedKey.length ++ encodedKey ++
    beBytes 8 witness.leafValue.length ++ witness.leafValue ++
    beBytes 8 witness.proof.length ++ witness.proof.flatMap List.Vector.toList

def executionWitnessesRootRun (sha256 : List UInt8 → Root) (witnesses : List StateWitness) :
    Hashing Empty Root :=
  Hashing.hash sha256 (ascii "shell-fixtures/execution-witnesses-root/v1" ++
    beBytes 8 witnesses.length ++ witnesses.flatMap witnessBytes)

def computeExecutionWitnessesRoot (sha256 : List UInt8 → Root) (witnesses : List StateWitness) :
    Root :=
  (executionWitnessesRootRun sha256 witnesses).value

/-! ## The witness commitment binds -/

/-- The lengths the hasher is fed fit their eight bytes, as the lengths of vectors do. -/
structure Measurable (witness : StateWitness) : Prop where
  value : witness.leafValue.length < 2 ^ 64
  proof : witness.proof.length < 2 ^ 64

/-- A length in front of a part of variable size tells where the part ends. -/
theorem lengthPrefixed_inj {a b x y : List UInt8} {m n : Nat} (hm : m < 2 ^ 64) (hn : n < 2 ^ 64)
    (size : m = n → a.length = b.length)
    (h : beBytes 8 m ++ (a ++ x) = beBytes 8 n ++ (b ++ y)) : a = b ∧ x = y := by
  obtain ⟨hlengths, hrest⟩ := List.append_inj h (by simp)
  exact List.append_inj hrest (size (beBytes_injective (by omega) (by omega) hlengths))

/-- Whatever follows, the bytes of a witness are read back in one way. -/
theorem witnessBytes_append_inj {a b : StateWitness} (ha : Measurable a) (hb : Measurable b)
    {x y : List UInt8} (h : witnessBytes a ++ x = witnessBytes b ++ y) : a = b ∧ x = y := by
  obtain ⟨key, value, proof⟩ := a
  obtain ⟨key', value', proof'⟩ := b
  have hsmall := length_encodeStateKey_le key
  have hsmall' := length_encodeStateKey_le key'
  simp only [witnessBytes, List.append_assoc] at h
  obtain ⟨hkey, hafterKey⟩ := lengthPrefixed_inj (by omega) (by omega) id h
  obtain ⟨hvalue, hafterValue⟩ := lengthPrefixed_inj ha.value hb.value id hafterKey
  have hsize : proof.length = proof'.length →
      (proof.flatMap List.Vector.toList).length = (proof'.flatMap List.Vector.toList).length := by
    intro hlength
    simp only [List.length_flatMap, List.Vector.toList_length, List.map_const', List.sum_replicate,
      hlength]
  obtain ⟨hproof, hrest⟩ := lengthPrefixed_inj ha.proof hb.proof hsize hafterValue
  obtain rfl : key = key' := encodeStateKey_injective hkey
  obtain rfl : value = value' := hvalue
  obtain rfl : proof = proof' := flatMap_toList_injective (by decide) hproof
  exact ⟨rfl, hrest⟩

/-- Witness lists of any lengths: no witness is written as nothing, so the count in front adds
nothing. -/
theorem flatMap_witnessBytes_injective {as bs : List StateWitness}
    (ha : ∀ w ∈ as, Measurable w) (hb : ∀ w ∈ bs, Measurable w)
    (h : as.flatMap witnessBytes = bs.flatMap witnessBytes) : as = bs := by
  apply flatMap_injective_of_cut (D := {w | Measurable w}) _ _ ha hb h
  · intro w hempty
    have hlength := congrArg List.length hempty
    simp only [witnessBytes, List.length_append, length_beBytes, List.length_nil] at hlength
    omega
  · intro a ha b hb x y hcut
    exact witnessBytes_append_inj ha hb hcut

theorem binds_executionWitnessesRootRun {sha256 : List UInt8 → Root} :
    Hashing.Binds sha256 {ws | ∀ w ∈ ws, Measurable w} (executionWitnessesRootRun sha256) := by
  apply Hashing.binds_hash.comp
  · intro as hmeasured bs hmeasured' h
    simp only [List.append_assoc] at h
    obtain ⟨-, hbytes⟩ := List.append_inj (List.append_cancel_left h) (by simp)
    exact flatMap_witnessBytes_injective hmeasured hmeasured' hbytes
  · exact Set.mapsTo_univ _ _

/-- Two witness lists with one commitment are equal, if the two strings hashed for it do not
collide. -/
theorem execution_witnesses_root_binds (sha256 : List UInt8 → Root) (as bs : List StateWitness)
    (ha : ∀ w ∈ as, Measurable w) (hb : ∀ w ∈ bs, Measurable w)
    (collisionFree : Set.InjOn sha256
      {s | s ∈ Hashing.preimages (executionWitnessesRootRun sha256 as) ∨
        s ∈ Hashing.preimages (executionWitnessesRootRun sha256 bs)})
    (h : computeExecutionWitnessesRoot sha256 as = computeExecutionWitnessesRoot sha256 bs) :
    as = bs :=
  binds_executionWitnessesRootRun.eq_of_value_eq ha hb collisionFree h

def headerWitness : StateWitness := ⟨.accountHeader (zeros 20), [1, 2], []⟩

def chunkWitness : StateWitness := ⟨.codeChunk (zeros 20) 7, [], [zeros 32]⟩

/-- Two witnesses, pushed in order and collected from the back. -/
theorem execution_witnesses_root_binds_pair :
    [headerWitness, chunkWitness] = [chunkWitness, headerWitness].reverse := by
  have hsize : ∀ w ∈ [headerWitness, chunkWitness], Measurable w := by
    intro w hw
    rcases List.mem_pair.mp hw with rfl | rfl
    · exact ⟨by decide, by decide⟩
    · exact ⟨by decide, by decide⟩
  apply execution_witnesses_root_binds Sha256.digest _ _ hsize
  · intro w hw
    rcases List.mem_pair.mp (List.mem_reverse.mp hw) with rfl | rfl
    · exact hsize _ (List.mem_cons_of_mem _ List.mem_cons_self)
    · exact hsize _ List.mem_cons_self
  · simp only [← List.mem_append]
    exact Hashing.injOn_of_nodup (by decide +kernel)
  · decide +kernel

end ShellFixtures
