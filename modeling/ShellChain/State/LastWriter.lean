import ShellChain.Library.Sha256
import ShellChain.State.Accumulator

/-!
# The accumulator is a last-writer-wins map

The abstract model is the sequence of writes of the accepted patches, read
through `lastWritten`. `Tracks` ties an accumulator to the patches it has been
given; every call of `apply_transition` preserves it, whether it accepts or
rejects. The cached root is then a function of the map alone.
-/

namespace ShellState

open ByteCodec ShellPrimitives SortedMap

/-! ## One transition -/

/-- What `apply_transition` checks of a patch. -/
structure StatePatch.Canonical (patch : StatePatch) : Prop where
  shape : patch.accesses.length = patch.newValues.length
  increasing : patch.accesses.Pairwise StateKey.Before

instance (patch : StatePatch) : Decidable patch.Canonical :=
  decidable_of_iff (patch.accesses.length = patch.newValues.length ∧
    patch.accesses.Pairwise StateKey.Before) ⟨fun h => ⟨h.1, h.2⟩, fun h => ⟨h.1, h.2⟩⟩

def StatePatch.writes (patch : StatePatch) : List (StateKey × MockProgressiveByteList) :=
  patch.accesses.zip patch.newValues

/-- A write as the accumulator files it. -/
def filedWrite (w : StateKey × MockProgressiveByteList) : StateKeyBytes × StoredLeaf :=
  (encodeStateKey w.1, ⟨w.1, w.2⟩)

variable (sha256 : List UInt8 → Root)

theorem foldl_applyLeaf (writes : List (StateKey × MockProgressiveByteList))
    (acc : InMemoryAccumulator) :
    writes.foldl (fun acc w => acc.applyLeaf w.1 w.2) acc =
      { acc with leaves := acc.leaves.insertAll (writes.map filedWrite) } := by
  induction writes generalizing acc with
  | nil => rfl
  | cons w rest ih => exact ih (acc.applyLeaf w.1 w.2)

/-- What a patch does to the leaves of an accumulator that accepts it. -/
def StatePatch.writeTo (patch : StatePatch) (leaves : Leaves) : Leaves :=
  leaves.insertAll (patch.writes.map filedWrite)

theorem validateShape_eq_ok_iff (patch : StatePatch) :
    patch.validateShape = .ok () ↔ patch.accesses.length = patch.newValues.length := by
  rw [StatePatch.validateShape]
  split <;> simp_all

/-- A canonical patch is written whole and the root recomputed. -/
theorem applyTransition_of_canonical (acc : InMemoryAccumulator) {patch : StatePatch}
    (canonical : patch.Canonical) :
    acc.applyTransition sha256 patch =
      (.ok (computeReferenceRoot sha256 (patch.writeTo acc.leaves)),
        ⟨patch.writeTo acc.leaves, computeReferenceRoot sha256 (patch.writeTo acc.leaves)⟩) := by
  have hshape := (validateShape_eq_ok_iff patch).mpr canonical.shape
  have horder : ensureCanonicalAccessOrder patch.accesses = .ok () :=
    (ensureCanonicalAccessOrder_eq_ok_iff _).mpr canonical.increasing
  simp only [InMemoryAccumulator.applyTransition, hshape, horder, foldl_applyLeaf]
  rfl

theorem ensureCanonicalAccessOrder_error_kind {accesses : List StateKey} {e : StateError}
    (h : ensureCanonicalAccessOrder accesses = .error e) :
    ∃ ordering, e = .nonCanonicalWitnessOrdering ordering := by
  rw [ensureCanonicalAccessOrder] at h
  rcases ensureIncreasing_cases id _ 1 accesses with ⟨-, hok⟩ | ⟨i, -, herror⟩
  · rw [hok] at h
    cases h
  · rw [herror] at h
    exact ⟨_, (Except.error.inj h).symm⟩

/-- The two ways a patch is refused. -/
def PatchError (e : StateError) : Prop :=
  (∃ accesses newValues, e = .transitionShapeMismatch accesses newValues) ∨
    ∃ ordering, e = .nonCanonicalWitnessOrdering ordering

/-- Any other patch is rejected by a check that comes before the first write. -/
theorem applyTransition_of_not_canonical (acc : InMemoryAccumulator) {patch : StatePatch}
    (rejected : ¬ patch.Canonical) :
    ∃ e, acc.applyTransition sha256 patch = (.error e, acc) ∧ PatchError e := by
  rw [InMemoryAccumulator.applyTransition]
  cases hshape : patch.validateShape with
  | error e =>
    refine ⟨e, rfl, Or.inl ?_⟩
    rw [StatePatch.validateShape] at hshape
    split at hshape
    · exact ⟨_, _, (Except.error.inj hshape).symm⟩
    · cases hshape
  | ok u =>
    cases horder : ensureCanonicalAccessOrder patch.accesses with
    | error e => exact ⟨e, rfl, Or.inr (ensureCanonicalAccessOrder_error_kind horder)⟩
    | ok u =>
      have hlength := (validateShape_eq_ok_iff patch).mp hshape
      have hincreasing := (ensureCanonicalAccessOrder_eq_ok_iff _).mp horder
      exact absurd ⟨hlength, hincreasing⟩ rejected

theorem applyTransition_isOk_iff (acc : InMemoryAccumulator) (patch : StatePatch) :
    (∃ root, (acc.applyTransition sha256 patch).1 = .ok root) ↔ patch.Canonical := by
  by_cases hcanonical : patch.Canonical
  · rw [applyTransition_of_canonical sha256 acc hcanonical]
    exact ⟨fun _ => hcanonical, fun _ => ⟨_, rfl⟩⟩
  · obtain ⟨e, he, _⟩ := applyTransition_of_not_canonical sha256 acc hcanonical
    rw [he]
    constructor
    · rintro ⟨root, hroot⟩
      cases hroot
    · intro h
      exact absurd h hcanonical

/-! ## Runs -/

/-- The accumulator after a sequence of calls, rejected ones included. -/
def runPatches (acc : InMemoryAccumulator) (patches : List StatePatch) : InMemoryAccumulator :=
  patches.foldl (fun acc patch => (acc.applyTransition sha256 patch).2) acc

/-- The writes of the accepted patches, oldest first. -/
def acceptedWrites (patches : List StatePatch) : List (StateKey × MockProgressiveByteList) :=
  (patches.filter fun patch => patch.Canonical).flatMap StatePatch.writes

/-- An accumulator that has been given exactly these patches. -/
structure Tracks (patches : List StatePatch) (acc : InMemoryAccumulator) : Prop where
  leaves : acc.leaves = SortedMap.empty.insertAll ((acceptedWrites patches).map filedWrite)
  root : (∃ p ∈ patches, p.Canonical) → acc.root = computeReferenceRoot sha256 acc.leaves
  fresh : (∀ p ∈ patches, ¬ p.Canonical) → acc.root = zeros 32

theorem acceptedWrites_concat (patches : List StatePatch) (patch : StatePatch) :
    acceptedWrites (patches ++ [patch]) =
      acceptedWrites patches ++ if patch.Canonical then patch.writes else [] := by
  rw [acceptedWrites, List.filter_append, List.flatMap_append]
  by_cases h : patch.Canonical
  · simp [h, acceptedWrites]
  · simp [h, acceptedWrites]

theorem tracks_new : Tracks sha256 [] InMemoryAccumulator.new where
  leaves := rfl
  root := by simp
  fresh := fun _ => rfl

theorem Tracks.step {patches : List StatePatch} {acc : InMemoryAccumulator}
    (tracks : Tracks sha256 patches acc) (patch : StatePatch) :
    Tracks sha256 (patches ++ [patch]) (acc.applyTransition sha256 patch).2 := by
  by_cases hcanonical : patch.Canonical
  · rw [applyTransition_of_canonical sha256 acc hcanonical]
    refine ⟨?_, fun _ => rfl, ?_⟩
    · rw [acceptedWrites_concat, if_pos hcanonical, List.map_append, insertAll, List.foldl_append]
      change patch.writeTo acc.leaves = insertAll (insertAll _ _) _
      rw [tracks.leaves]
      rfl
    · intro hnone
      exact absurd hcanonical (hnone patch (by simp))
  · obtain ⟨e, he, _⟩ := applyTransition_of_not_canonical sha256 acc hcanonical
    rw [he]
    refine ⟨?_, ?_, ?_⟩
    · rw [acceptedWrites_concat, if_neg hcanonical, List.append_nil]
      exact tracks.leaves
    · rintro ⟨p, hp, haccepted⟩
      rcases List.mem_append.mp hp with hp | hp
      · exact tracks.root ⟨p, hp, haccepted⟩
      · rw [List.mem_singleton.mp hp] at haccepted
        exact absurd haccepted hcanonical
    · intro hnone
      exact tracks.fresh fun p hp => hnone p (List.mem_append_left _ hp)

theorem Tracks.run {done : List StatePatch} {acc : InMemoryAccumulator}
    (tracks : Tracks sha256 done acc) (patches : List StatePatch) :
    Tracks sha256 (done ++ patches) (runPatches sha256 acc patches) := by
  induction patches generalizing done acc with
  | nil =>
    rw [List.append_nil]
    exact tracks
  | cons patch rest ih =>
    have hrest := ih (tracks.step sha256 patch)
    rw [List.append_assoc] at hrest
    exact hrest

theorem run_tracks (patches : List StatePatch) :
    Tracks sha256 patches (runPatches sha256 .new patches) :=
  (tracks_new sha256).run sha256 patches

/-! ## Reading the map -/

/-- Filing writes under encoded keys loses nothing: the encoding is injective. -/
theorem lastWritten_filed {_ : DecidableEq StateKeyBytes}
    (writes : List (StateKey × MockProgressiveByteList)) (key : StateKey) :
    lastWritten (writes.map filedWrite) (encodeStateKey key) =
      (lastWritten writes key).map (StoredLeaf.mk key) := by
  induction writes with
  | nil => rfl
  | cons w rest ih =>
    rw [List.map_cons, ← List.singleton_append, lastWritten_append, ih, lastWritten_singleton,
      ← List.singleton_append, lastWritten_append, lastWritten_singleton, Option.map_or]
    by_cases hkey : w.1 = key
    · rw [if_pos hkey, filedWrite, if_pos (congrArg encodeStateKey hkey), hkey]
      rfl
    · rw [if_neg hkey, filedWrite, if_neg fun h => hkey (encodeStateKey_injective h)]
      rfl

theorem Tracks.get? {patches : List StatePatch} {acc : InMemoryAccumulator}
    (tracks : Tracks sha256 patches acc) (key : StateKey) :
    acc.leaves.get? (encodeStateKey key) =
      (lastWritten (acceptedWrites patches) key).map (StoredLeaf.mk key) := by
  rw [tracks.leaves, get?_insertAll, lastWritten_filed, get?_empty, Option.or_none]

theorem Tracks.filed {patches : List StatePatch} {acc : InMemoryAccumulator}
    (tracks : Tracks sha256 patches acc) :
    ∀ e ∈ acc.leaves.entries, e.1 = encodeStateKey e.2.key := by
  intro e he
  rw [tracks.leaves] at he
  rcases mem_insertAll he with he | he
  · obtain ⟨w, _, rfl⟩ := List.mem_map.mp he
    rfl
  · cases he

/-- Equal maps are equal leaves: every entry is filed under the encoding of its key. -/
theorem Tracks.leaves_eq {ps qs : List StatePatch} {a b : InMemoryAccumulator}
    (ha : Tracks sha256 ps a) (hb : Tracks sha256 qs b)
    (same : ∀ key, lastWritten (acceptedWrites ps) key = lastWritten (acceptedWrites qs) key) :
    a.leaves = b.leaves := by
  have hsub : ∀ {ps qs : List StatePatch} {a b : InMemoryAccumulator}, Tracks sha256 ps a →
      Tracks sha256 qs b →
      (∀ key, lastWritten (acceptedWrites ps) key = lastWritten (acceptedWrites qs) key) →
      ∀ e ∈ a.leaves.entries, e ∈ b.leaves.entries := by
    intro ps qs a b ha hb same e he
    obtain ⟨bytes, leaf⟩ := e
    have hfiled : bytes = encodeStateKey leaf.key := ha.filed sha256 _ he
    subst hfiled
    rw [← get?_eq_some_iff] at he ⊢
    rwa [hb.get? sha256, ← same, ← ha.get? sha256]
  apply SortedMap.ext
  apply entries_eq_of_mem_iff a.leaves.sorted b.leaves.sorted
  intro e
  exact ⟨hsub ha hb same e, hsub hb ha (fun key => (same key).symm) e⟩

/-- `InMemoryAccumulator` refines a last-writer-wins map over every run: which
calls are accepted, that rejected ones change nothing, what the leaves and the
root are afterwards, and that the root does not depend on the history. -/
theorem accumulator_refines_last_writer_map (sha256 : List UInt8 → Root) :
    (∀ (acc : InMemoryAccumulator) (patch : StatePatch),
      (∃ root, (acc.applyTransition sha256 patch).1 = .ok root) ↔
        patch.accesses.length = patch.newValues.length ∧
          patch.accesses.Pairwise StateKey.Before) ∧
    (∀ (acc : InMemoryAccumulator) (patch : StatePatch) (e : StateError),
      (acc.applyTransition sha256 patch).1 = .error e →
        (acc.applyTransition sha256 patch).2 = acc) ∧
    (∀ patches : List StatePatch,
      (∀ key, (runPatches sha256 .new patches).leaves.get? (encodeStateKey key) =
        (lastWritten (acceptedWrites patches) key).map (StoredLeaf.mk key)) ∧
      (∀ e ∈ (runPatches sha256 .new patches).leaves.entries, e.1 = encodeStateKey e.2.key) ∧
      ((∃ p ∈ patches, p.Canonical) → (runPatches sha256 .new patches).root =
        computeReferenceRoot sha256 (runPatches sha256 .new patches).leaves)) ∧
    ∀ ps qs : List StatePatch, (∃ p ∈ ps, p.Canonical) → (∃ q ∈ qs, q.Canonical) →
      (∀ key, lastWritten (acceptedWrites ps) key = lastWritten (acceptedWrites qs) key) →
      (runPatches sha256 .new ps).root = (runPatches sha256 .new qs).root := by
  refine ⟨?_, ?_, ?_, ?_⟩
  · intro acc patch
    rw [applyTransition_isOk_iff]
    exact ⟨fun h => ⟨h.shape, h.increasing⟩, fun h => ⟨h.1, h.2⟩⟩
  · intro acc patch e he
    have hrejected : ¬ patch.Canonical := by
      intro h
      obtain ⟨root, hroot⟩ := (applyTransition_isOk_iff sha256 acc patch).mpr h
      rw [he] at hroot
      cases hroot
    obtain ⟨e', he', _⟩ := applyTransition_of_not_canonical sha256 acc hrejected
    rw [he']
  · intro patches
    have tracks := run_tracks sha256 patches
    exact ⟨tracks.get? sha256, tracks.filed sha256, tracks.root⟩
  · intro ps qs hps hqs same
    have hp := run_tracks sha256 ps
    have hq := run_tracks sha256 qs
    rw [hp.root hps, hq.root hqs, hp.leaves_eq sha256 hq same]

/-! ## Two histories of one map -/

def sampleAccount : StateKey := .accountHeader (zeros 20)

def sampleStem : StateKey := .stem (zeros 31)

/-- Both keys at once. -/
def mergedPatches : List StatePatch := [⟨[sampleAccount, sampleStem], [[1], [2]]⟩]

/-- One key at a time, with a rejected patch in between. -/
def splitPatches : List StatePatch :=
  [⟨[sampleAccount], [[1]]⟩, ⟨[sampleStem, sampleAccount], [[8], [9]]⟩, ⟨[sampleStem], [[2]]⟩]

theorem accumulator_refines_last_writer_map_sample :
    (runPatches Sha256.digest .new mergedPatches).root =
      (runPatches Sha256.digest .new splitPatches).root ∧
    (runPatches Sha256.digest .new mergedPatches).root =
      computeReferenceRoot Sha256.digest (runPatches Sha256.digest .new mergedPatches).leaves ∧
    (InMemoryAccumulator.new.applyTransition Sha256.digest ⟨[sampleStem], []⟩).2 = .new := by
  obtain ⟨_, hrejected, hrun, hroot⟩ := accumulator_refines_last_writer_map Sha256.digest
  have hmerged : ∃ p ∈ mergedPatches, p.Canonical := by decide
  have hsplit : ∃ p ∈ splitPatches, p.Canonical := by decide
  have hwrites : acceptedWrites mergedPatches = acceptedWrites splitPatches := by decide
  refine ⟨hroot _ _ hmerged hsplit fun key => by rw [hwrites], (hrun _).2.2 hmerged, ?_⟩
  exact hrejected _ _ (.transitionShapeMismatch 1 0) rfl

end ShellState
