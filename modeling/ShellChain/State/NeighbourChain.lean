import ShellChain.State.ProofPaths

/-!
# The chain of neighbours

Each proof path names the closest materialised keys on both sides. Taken
together the paths are one chain through all materialised keys in canonical
order, linked both ways, and a key that is not materialised lies in exactly
one gap of the chain: the two paths at the gap show that it is absent.
-/

namespace ShellState

open ByteCodec ShellPrimitives SortedMap

/-- The stored keys, in the order of their encodings. -/
def InMemoryAccumulator.keys (acc : InMemoryAccumulator) : List StateKey :=
  acc.leaves.entries.map fun e => e.2.key

section
variable {sha256 : List UInt8 → Root} {patches : List StatePatch} {acc : InMemoryAccumulator}

theorem Tracks.pairwise_keys (tracks : Tracks sha256 patches acc) :
    acc.keys.Pairwise StateKey.Before := by
  rw [InMemoryAccumulator.keys, List.pairwise_map]
  refine acc.leaves.sorted.imp_of_mem ?_
  intro a b ha hb hlt
  rwa [tracks.filed sha256 a ha, tracks.filed sha256 b hb] at hlt

theorem Tracks.mem_keys_iff (tracks : Tracks sha256 patches acc) (key : StateKey) :
    key ∈ acc.keys ↔ lastWritten (acceptedWrites patches) key ≠ none := by
  constructor
  · intro hkey
    obtain ⟨e, he, rfl⟩ := List.mem_map.mp hkey
    rw [(tracks.written_of_mem he).2]
    exact Option.some_ne_none _
  · intro hwritten
    obtain ⟨value, hmem⟩ := tracks.mem_of_written hwritten
    exact List.mem_map.mpr ⟨_, hmem, rfl⟩

/-- The path of a key names the keys next to it in the list. -/
theorem Tracks.proofPath_at (tracks : Tracks sha256 patches acc) {i : Nat} {key : StateKey}
    (hkey : acc.keys[i]? = some key) :
    ∃ path, acc.proofPathForAccess key = .ok path ∧
      path.leftNeighbor.map (·.key) = (acc.keys.take i).getLast? ∧
      path.rightNeighbor.map (·.key) = acc.keys[i + 1]? := by
  rw [InMemoryAccumulator.keys, List.getElem?_map, Option.map_eq_some_iff] at hkey
  obtain ⟨e, he, rfl⟩ := hkey
  have hmem := List.mem_of_getElem? he
  have hfiled := tracks.filed sha256 e hmem
  have hget : acc.leaves.get? (encodeStateKey e.2.key) = some e.2 := by
    rw [get?_eq_some_iff, ← hfiled]
    exact hmem
  refine ⟨_, (proofPathForAccess_eq_ok_iff acc e.2.key _).mpr ⟨e.2, hget, rfl⟩, ?_, ?_⟩
  · have hleft := lastBelow_at he
    rw [hfiled] at hleft
    rw [hleft, InMemoryAccumulator.keys, ← List.map_take, List.getLast?_map, Option.map_map]
    rfl
  · have hright := firstAbove_at he
    rw [hfiled] at hright
    rw [hright, InMemoryAccumulator.keys, List.getElem?_map, Option.map_map]
    rfl

end

/-- A key is outside a sorted list exactly when the list can be cut at it. -/
theorem not_mem_iff_gap {keys : List StateKey} (sorted : keys.Pairwise StateKey.Before)
    (key : StateKey) :
    key ∉ keys ↔ ∃ front back, keys = front ++ back ∧ (∀ k ∈ front, k.Before key) ∧
      ∀ k ∈ back, key.Before k := by
  constructor
  · induction keys with
    | nil => exact fun _ => ⟨[], [], rfl, fun _ h => (List.not_mem_nil h).elim,
        fun _ h => (List.not_mem_nil h).elim⟩
    | cons k rest ih =>
      intro hnotin
      obtain ⟨hk, hrest⟩ := not_or.mp (fun h => hnotin (List.mem_cons.mpr h))
      obtain ⟨hhead, hsorted⟩ := List.pairwise_cons.mp sorted
      rcases lt_trichotomy (encodeStateKey k) (encodeStateKey key) with hlt | heq | hgt
      · obtain ⟨front, back, rfl, hfront, hback⟩ := ih hsorted hrest
        exact ⟨k :: front, back, rfl, List.forall_mem_cons.mpr ⟨hlt, hfront⟩, hback⟩
      · exact absurd (encodeStateKey_injective heq).symm hk
      · refine ⟨[], k :: rest, rfl, fun _ h => (List.not_mem_nil h).elim, ?_⟩
        exact List.forall_mem_cons.mpr ⟨hgt, fun k' hk' => lt_trans hgt (hhead k' hk')⟩
  · rintro ⟨front, back, rfl, hfront, hback⟩ hmem
    rcases List.mem_append.mp hmem with hmem | hmem
    · exact lt_irrefl _ (hfront key hmem)
    · exact lt_irrefl _ (hback key hmem)

/-- After any patches the derived proof paths link all materialised keys into one sorted chain,
and a key without a value is exactly one that a cut of the chain leaves out. -/
theorem neighbours_form_one_chain (sha256 : List UInt8 → Root) (patches : List StatePatch) :
    let acc := runPatches sha256 .new patches
    let current := lastWritten (acceptedWrites patches)
    ∃ keys : List StateKey, keys.Pairwise StateKey.Before ∧
      (∀ key, key ∈ keys ↔ current key ≠ none) ∧
      (∀ i key, keys[i]? = some key → ∃ path, acc.proofPathForAccess key = .ok path ∧
        path.leftNeighbor.map (·.key) = (keys.take i).getLast? ∧
        path.rightNeighbor.map (·.key) = keys[i + 1]?) ∧
      ∀ key, current key = none ↔ ∃ front back, keys = front ++ back ∧
        (∀ k ∈ front, k.Before key) ∧ ∀ k ∈ back, key.Before k := by
  intro acc current
  have tracks : Tracks sha256 patches acc := run_tracks sha256 patches
  refine ⟨acc.keys, tracks.pairwise_keys, tracks.mem_keys_iff, ?_, ?_⟩
  · intro i key hkey
    exact tracks.proofPath_at hkey
  · intro key
    rw [← not_mem_iff_gap tracks.pairwise_keys, tracks.mem_keys_iff, not_not]

end ShellState
