import ShellChain.State.LastWriter

/-!
# The state root binds the state

The root hashes the leaf digests in key order, and each leaf digest hashes the
key with its length in front and then the value. A value's length is cut to 32
bits, but the value is the last part of its string, so nothing hangs on it.
-/

namespace ShellState

open ByteCodec ShellPrimitives Hashing

variable {sha256 : List UInt8 → Root}

/-- Every entry is filed under the encoding of the key it stores. -/
def Filed (leaves : Leaves) : Prop := ∀ e ∈ leaves.entries, e.1 = encodeStateKey e.2.key

theorem filed_insertAll {leaves : Leaves} (filed : Filed leaves)
    (writes : List (StateKey × MockProgressiveByteList)) :
    Filed (leaves.insertAll (writes.map filedWrite)) := by
  intro e he
  rcases SortedMap.mem_insertAll he with hwritten | hold
  · obtain ⟨w, _, rfl⟩ := List.mem_map.mp hwritten
    rfl
  · exact filed e hold

theorem filed_empty : Filed SortedMap.empty := by
  intro e he
  cases he

/-- The string hashed for a leaf has one reading, for values of any length. -/
theorem binds_referenceLeafDigest :
    Binds sha256 {e : StateKeyBytes × StoredLeaf | e.1 = encodeStateKey e.2.key}
      fun e => referenceLeafDigest sha256 e.1 e.2 := by
  apply binds_hash.comp
  · rintro ⟨k, ⟨key, value⟩⟩ hk ⟨k', ⟨key', value'⟩⟩ hk' h
    have hfiled : k = encodeStateKey key := hk
    have hfiled' : k' = encodeStateKey key' := hk'
    simp only [List.append_assoc] at h
    replace h := List.append_cancel_left h
    obtain ⟨hlengths, h⟩ := List.append_inj h (by simp)
    have hlength : k.length = k'.length := by
      have hsmall := length_encodeStateKey_le key
      have hsmall' := length_encodeStateKey_le key'
      rw [← hfiled] at hsmall
      rw [← hfiled'] at hsmall'
      exact beBytes_injective (by omega) (by omega) hlengths
    obtain ⟨hkey, h⟩ := List.append_inj h hlength
    obtain ⟨_, hvalue⟩ := List.append_inj h (by simp)
    have hsame : key = key' := by
      apply encodeStateKey_injective
      rw [← hfiled, ← hfiled', hkey]
    rw [hkey, hsame, hvalue]
  · exact Set.mapsTo_univ _ _

theorem binds_referenceRootRun :
    Binds sha256 {leaves | Filed leaves} (referenceRootRun sha256) := by
  have hdigests : Binds sha256 {leaves | Filed leaves} fun leaves : Leaves =>
      Logged.traverse (fun e => referenceLeafDigest sha256 e.1 e.2) leaves.entries := by
    apply binds_referenceLeafDigest.traverse.comp
    · intro a _ b _ h
      exact SortedMap.ext h
    · intro leaves filed
      exact filed
  have hroot : Binds sha256 Set.univ fun digests : List Root =>
      (Hashing.hash sha256 (ascii "shell-state/reference-root/v1" ++
        digests.flatMap List.Vector.toList) : Hashing Empty Root) := by
    apply binds_hash.comp
    · intro a _ b _ h
      exact flatMap_toList_injective (by decide) (List.append_cancel_left h)
    · exact Set.mapsTo_univ _ _
  exact hdigests.bind hroot fun _ _ => trivial

/-- Two reachable accumulators with one root hold the same leaves, if no two of
the strings hashed for the two roots collide. -/
theorem state_root_binds (sha256 : List UInt8 → Root) (ps qs : List StatePatch)
    (hps : ∃ p ∈ ps, p.Canonical) (hqs : ∃ q ∈ qs, q.Canonical)
    (collisionFree : Set.InjOn sha256
      {s | s ∈ preimages (referenceRootRun sha256 (runPatches sha256 .new ps).leaves) ∨
        s ∈ preimages (referenceRootRun sha256 (runPatches sha256 .new qs).leaves)})
    (h : (runPatches sha256 .new ps).stateRoot = (runPatches sha256 .new qs).stateRoot) :
    (runPatches sha256 .new ps).leaves = (runPatches sha256 .new qs).leaves := by
  have hp := run_tracks sha256 ps
  have hq := run_tracks sha256 qs
  apply binds_referenceRootRun.eq_of_value_eq (hp.filed sha256) (hq.filed sha256) collisionFree
  calc computeReferenceRoot sha256 (runPatches sha256 .new ps).leaves
    _ = (runPatches sha256 .new ps).root := (hp.root hps).symm
    _ = (runPatches sha256 .new qs).root := h
    _ = computeReferenceRoot sha256 (runPatches sha256 .new qs).leaves := hq.root hqs

theorem state_root_binds_sample :
    (runPatches Sha256.digest .new mergedPatches).leaves =
      (runPatches Sha256.digest .new splitPatches).leaves := by
  apply state_root_binds Sha256.digest mergedPatches splitPatches (by decide) (by decide)
  · simp only [← List.mem_append]
    exact injOn_of_nodup (by decide +kernel)
  · decide +kernel

end ShellState
