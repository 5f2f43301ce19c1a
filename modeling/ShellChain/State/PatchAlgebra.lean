import ShellChain.State.LastWriter

/-!
# How patches compose

Which patches an accumulator accepts does not depend on its state, and what the
accepted ones leave behind depends on their last writes alone. So patches over
disjoint keys may be applied in any order, and a patch is hidden by a later one
that writes all of its keys.
-/

namespace ShellState

open ByteCodec ShellPrimitives SortedMap

variable (sha256 : List UInt8 → Root)

/-- The leaves after a run, from any leaves to start with. -/
def writeAccepted (leaves : Leaves) (patches : List StatePatch) : Leaves :=
  leaves.insertAll ((acceptedWrites patches).map filedWrite)

theorem acceptedWrites_append (ps qs : List StatePatch) :
    acceptedWrites (ps ++ qs) = acceptedWrites ps ++ acceptedWrites qs := by
  rw [acceptedWrites, List.filter_append, List.flatMap_append]
  rfl

theorem acceptedWrites_cons (patch : StatePatch) (rest : List StatePatch) :
    acceptedWrites (patch :: rest) =
      (if patch.Canonical then patch.writes else []) ++ acceptedWrites rest := by
  by_cases hcanonical : patch.Canonical
  · simp [acceptedWrites, hcanonical]
  · simp [acceptedWrites, hcanonical]

/-- The accumulator after a run from any accumulator: once a patch is accepted, the root is that
of the leaves. -/
theorem runPatches_eq (acc : InMemoryAccumulator) (patches : List StatePatch) :
    runPatches sha256 acc patches =
      ⟨writeAccepted acc.leaves patches,
        if ∃ p ∈ patches, p.Canonical then
          computeReferenceRoot sha256 (writeAccepted acc.leaves patches)
        else acc.root⟩ := by
  induction patches generalizing acc with
  | nil =>
    rw [if_neg (by simp)]
    rfl
  | cons patch rest ih =>
    change runPatches sha256 (acc.applyTransition sha256 patch).2 rest = _
    by_cases hcanonical : patch.Canonical
    · have hleaves : writeAccepted (patch.writeTo acc.leaves) rest =
          writeAccepted acc.leaves (patch :: rest) := by
        rw [writeAccepted, writeAccepted, acceptedWrites_cons, if_pos hcanonical, List.map_append,
          insertAll_append]
        rfl
      rw [applyTransition_of_canonical sha256 acc hcanonical, ih, hleaves,
        if_pos (⟨patch, List.mem_cons_self, hcanonical⟩ : ∃ p ∈ patch :: rest, p.Canonical)]
      by_cases hrest : ∃ p ∈ rest, p.Canonical
      · rw [if_pos hrest]
      · have hnone : acceptedWrites rest = [] := by
          simpa [acceptedWrites, List.filter_eq_nil_iff] using
            fun p hp hp' => absurd ⟨p, hp, hp'⟩ hrest
        rw [if_neg hrest, ← hleaves, writeAccepted, hnone]
        rfl
    · obtain ⟨e, he, -⟩ := applyTransition_of_not_canonical sha256 acc hcanonical
      have hleaves : writeAccepted acc.leaves (patch :: rest) = writeAccepted acc.leaves rest := by
        rw [writeAccepted, acceptedWrites_cons, if_neg hcanonical, List.nil_append]
        rfl
      have hexists : (∃ p ∈ patch :: rest, p.Canonical) ↔ ∃ p ∈ rest, p.Canonical := by
        simp [hcanonical]
      rw [he, ih, hleaves]
      simp only [hexists]

/-- Two runs from one accumulator end alike when they end with the same leaves and both or neither
accept anything. -/
theorem runPatches_congr (acc : InMemoryAccumulator) {ps qs : List StatePatch}
    (accepts : (∃ p ∈ ps, p.Canonical) ↔ ∃ q ∈ qs, q.Canonical)
    (leaves : writeAccepted acc.leaves ps = writeAccepted acc.leaves qs) :
    runPatches sha256 acc ps = runPatches sha256 acc qs := by
  rw [runPatches_eq, runPatches_eq, leaves]
  simp only [accepts]

/-- The accepted writes, one group for each accepted patch. -/
theorem map_acceptedWrites (patches : List StatePatch) :
    (acceptedWrites patches).map filedWrite =
      ((patches.filter fun p => p.Canonical).map fun p => p.writes.map filedWrite).flatten := by
  rw [acceptedWrites, List.map_flatMap, List.flatMap_def]

/-- Patches over disjoint keys lead to one accumulator in whatever order they are applied. Patches
that are refused may share keys with anything. -/
theorem disjoint_patches_commute (sha256 : List UInt8 → Root) (acc : InMemoryAccumulator)
    (ps qs : List StatePatch) (perm : ps.Perm qs)
    (disjoint : ps.Pairwise fun p q =>
      p.Canonical → q.Canonical → ∀ key ∈ p.accesses, key ∉ q.accesses) :
    runPatches sha256 acc ps = runPatches sha256 acc qs := by
  apply runPatches_congr sha256 acc
  · constructor
    · rintro ⟨p, hp, hcanonical⟩
      exact ⟨p, perm.mem_iff.mp hp, hcanonical⟩
    · rintro ⟨q, hq, hcanonical⟩
      exact ⟨q, perm.mem_iff.mpr hq, hcanonical⟩
  · apply ext_get?
    intro k
    rw [writeAccepted, writeAccepted, get?_insertAll, get?_insertAll, map_acceptedWrites,
      map_acceptedWrites]
    congr 1
    apply lastWritten_flatten_perm ((perm.filter _).map _)
    rw [List.pairwise_map, List.pairwise_filter]
    refine disjoint.imp ?_
    intro p q hdisjoint hp hq w hw w' hw' hkey
    obtain ⟨v, hv, rfl⟩ := List.mem_map.mp hw
    obtain ⟨v', hv', rfl⟩ := List.mem_map.mp hw'
    have hsame : v.1 = v'.1 := encodeStateKey_injective hkey
    have hmem : v.1 ∈ p.accesses := (List.of_mem_zip hv).1
    have hmem' : v'.1 ∈ q.accesses := (List.of_mem_zip hv').1
    rw [hsame] at hmem
    exact hdisjoint (of_decide_eq_true hp) (of_decide_eq_true hq) _ hmem hmem'

/-- Two accounts' patches and a refused one, in both orders. -/
theorem disjoint_patches_commute_sample :
    runPatches Sha256.digest .new splitPatches =
      runPatches Sha256.digest .new splitPatches.reverse :=
  disjoint_patches_commute Sha256.digest .new _ _ (List.reverse_perm splitPatches).symm (by decide)

theorem lastWritten_ne_none_of_mem {_ : DecidableEq StateKeyBytes} {patches : List StatePatch}
    {patch : StatePatch} {key : StateKey} (hmem : patch ∈ patches) (canonical : patch.Canonical)
    (hkey : key ∈ patch.accesses) :
    lastWritten ((acceptedWrites patches).map filedWrite) (encodeStateKey key) ≠ none := by
  rw [lastWritten_filed]
  obtain ⟨i, hi, rfl⟩ := List.mem_iff_getElem.mp hkey
  have hvalue : i < patch.newValues.length := canonical.shape ▸ hi
  have hwrite : (patch.accesses[i], patch.newValues[i]) ∈ acceptedWrites patches := by
    refine List.mem_flatMap.mpr ⟨patch, List.mem_filter.mpr ⟨hmem, decide_eq_true canonical⟩, ?_⟩
    exact List.mem_iff_getElem.mpr ⟨i, by simp [StatePatch.writes, hi, hvalue],
      by simp [StatePatch.writes]⟩
  intro hnone
  exact lastWritten_ne_none hwrite (Option.map_eq_none_iff.mp hnone)

/-- A patch leaves no trace once every key it writes is written by the patches applied after it. -/
theorem overwritten_patch_hidden (sha256 : List UInt8 → Root) (acc : InMemoryAccumulator)
    (ps qs : List StatePatch) (patch : StatePatch) (later : ∃ q ∈ qs, q.Canonical)
    (covered : patch.Canonical → ∀ key ∈ patch.accesses,
      ∃ q ∈ qs, q.Canonical ∧ key ∈ q.accesses) :
    runPatches sha256 acc (ps ++ patch :: qs) = runPatches sha256 acc (ps ++ qs) := by
  obtain ⟨q, hq, hlater⟩ := later
  apply runPatches_congr sha256 acc
  · exact iff_of_true ⟨q, by simp [hq], hlater⟩ ⟨q, by simp [hq], hlater⟩
  · by_cases hcanonical : patch.Canonical
    · apply ext_get?
      intro k
      rw [writeAccepted, writeAccepted, acceptedWrites_append, acceptedWrites_append,
        acceptedWrites_cons, if_pos hcanonical]
      simp only [List.map_append, get?_insertAll]
      congr 1
      apply lastWritten_append_hidden
      intro w hw
      obtain ⟨v, hv, rfl⟩ := List.mem_map.mp hw
      obtain ⟨r, hr, hrcanonical, hkey⟩ := covered hcanonical v.1 (List.of_mem_zip hv).1
      exact lastWritten_ne_none_of_mem hr hrcanonical hkey
    · rw [writeAccepted, writeAccepted, acceptedWrites_append, acceptedWrites_append,
        acceptedWrites_cons, if_neg hcanonical, List.nil_append]

/-- The stem is written three times, and only the last value is seen. -/
theorem overwritten_patch_hidden_sample :
    runPatches Sha256.digest .new (splitPatches ++ ⟨[sampleStem], [[3]]⟩ :: splitPatches) =
      runPatches Sha256.digest .new (splitPatches ++ splitPatches) :=
  overwritten_patch_hidden Sha256.digest .new _ _ _ (by decide) (by decide)

end ShellState
