import ShellChain.State.PatchAlgebra
import ShellChain.State.ProofPaths

/-!
# Witnesses after further patches

A witness is produced from one state and may be checked against a later one.
Against the later root it passes as long as its own key keeps its value;
against the root it was produced for it passes only while no key at all has
changed. Which of the two went wrong can be read off the error.
-/

namespace ShellState

open ByteCodec ShellPrimitives SortedMap Except Hashing

/-- The accepted patches leave the value of the witness as it is. -/
def Outlives (later : List StatePatch) (witness : StateWitness) : Prop :=
  ∀ value, lastWritten (acceptedWrites later) witness.key = some value → value = witness.leafValue

/-- The accepted patches write nothing that was not there before. -/
def WritesNothingNew (earlier later : List StatePatch) : Prop :=
  ∀ key value, lastWritten (acceptedWrites later) key = some value →
    lastWritten (acceptedWrites earlier) key = some value

def valueMismatch : StateError :=
  .witnessVerificationFailed "reference proof leaf does not match witness value"

def rootMismatch : StateError :=
  .witnessVerificationFailed "reference proof path was built against a different state root"

/-! ## One witness -/

theorem Tracks.holds_iff {sha256 : List UInt8 → Root} {patches : List StatePatch}
    {acc : InMemoryAccumulator} (tracks : Tracks sha256 patches acc) (key : StateKey)
    (value : MockProgressiveByteList) :
    acc.leaves.get? (encodeStateKey key) = some ⟨key, value⟩ ↔
      lastWritten (acceptedWrites patches) key = some value := by
  rw [tracks.get? sha256, Option.map_eq_some_iff]
  simp

/-- The path is first checked against the accumulator's own root, so a witness with another value
is refused for its value whatever root is expected. -/
theorem verifyWitness_of_other_value {acc : InMemoryAccumulator} {witness : StateWitness}
    {value : MockProgressiveByteList} (hproof : witness.proof = [])
    (hleaf : acc.leaves.get? (encodeStateKey witness.key) = some ⟨witness.key, value⟩)
    (hvalue : value ≠ witness.leafValue) (root : Root) :
    acc.verifyWitness root witness = .error valueMismatch := by
  have hshape := (ensureReferenceBackendProofShape_eq_ok_iff witness).mpr hproof
  have hpath := (proofPathForAccess_eq_ok_iff acc witness.key _).mpr ⟨_, hleaf, rfl⟩
  rw [InMemoryAccumulator.verifyWitness, InMemoryAccumulator.deriveProofPath, hshape, ok_bind,
    hpath, ok_bind]
  simp [ReferenceProofPath.verifyWitness, ReferenceProofLeaf.fromStoredLeaf, hvalue,
    ReferenceProofPath.failed, valueMismatch, bind, Except.bind]

theorem verifyWitness_of_other_root {acc : InMemoryAccumulator} (filed : Filed acc.leaves)
    {witness : StateWitness} (hproof : witness.proof = [])
    (hleaf : acc.leaves.get? (encodeStateKey witness.key) =
      some ⟨witness.key, witness.leafValue⟩) {root : Root} (hroot : acc.root ≠ root) :
    acc.verifyWitness root witness = .error rootMismatch := by
  have hshape := (ensureReferenceBackendProofShape_eq_ok_iff witness).mpr hproof
  have hpath := (proofPathForAccess_eq_ok_iff acc witness.key _).mpr ⟨_, hleaf, rfl⟩
  have hown := (verify_path_eq_ok_iff filed hpath acc.root).mpr ⟨rfl, hleaf⟩
  rw [InMemoryAccumulator.verifyWitness, InMemoryAccumulator.deriveProofPath, hshape, ok_bind,
    hpath, ok_bind, hown, ok_bind, ok_bind]
  exact if_pos hroot

/-- The later value is the last one written after the witness was made, or its own. -/
theorem lastWritten_later {earlier later : List StatePatch} {witness : StateWitness}
    (current : lastWritten (acceptedWrites earlier) witness.key = some witness.leafValue) :
    ∃ value, lastWritten (acceptedWrites (earlier ++ later)) witness.key = some value ∧
      (value = witness.leafValue ↔ Outlives later witness) := by
  rw [acceptedWrites_append, lastWritten_append, Outlives]
  cases lastWritten (acceptedWrites later) witness.key with
  | none => exact ⟨witness.leafValue, by rw [Option.none_or, current], by simp⟩
  | some value => exact ⟨value, by rw [Option.some_or], by simp⟩

theorem lastWritten_unchanged_iff (earlier later : List StatePatch) :
    WritesNothingNew earlier later ↔ ∀ key,
      lastWritten (acceptedWrites (earlier ++ later)) key =
        lastWritten (acceptedWrites earlier) key := by
  constructor
  · intro hnothing key
    rw [acceptedWrites_append, lastWritten_append]
    cases hlater : lastWritten (acceptedWrites later) key with
    | none => rw [Option.none_or]
    | some value => rw [Option.some_or, hnothing key value hlater]
  · intro hsame key value hlater
    rw [← hsame, acceptedWrites_append, lastWritten_append, hlater, Option.some_or]

/-! ## Lists of witnesses -/

section
variable {sha256 : List UInt8 → Root} {patches : List StatePatch} {acc : InMemoryAccumulator}

theorem Tracks.verifyWitnesses_iff (tracks : Tracks sha256 patches acc)
    (witnesses : List StateWitness) (root : Root) :
    acc.verifyWitnesses witnesses root = .ok () ↔
      (witnesses.map StateWitness.key).Pairwise StateKey.Before ∧
        ∀ w ∈ witnesses, w.proof = [] ∧
          lastWritten (acceptedWrites patches) w.key = some w.leafValue ∧ acc.root = root := by
  rw [verifyWitnesses_eq_ok_iff (tracks.filed sha256)]
  simp only [tracks.holds_iff]

/-- Against the accumulator's own root a list in order, for keys with values and without committed
proofs, can only be refused for a value. -/
theorem Tracks.verifyWitnesses_own_root (tracks : Tracks sha256 patches acc)
    {witnesses : List StateWitness}
    (order : (witnesses.map StateWitness.key).Pairwise StateKey.Before)
    (written : ∀ w ∈ witnesses, w.proof = [] ∧
      ∃ value, lastWritten (acceptedWrites patches) w.key = some value)
    (refused : acc.verifyWitnesses witnesses acc.stateRoot ≠ .ok ()) :
    acc.verifyWitnesses witnesses acc.stateRoot = .error valueMismatch := by
  have horder := (ensureCanonicalWitnessOrder_eq_ok_iff witnesses).mpr order
  rw [InMemoryAccumulator.verifyWitnesses, horder, ok_bind] at refused ⊢
  rcases forall_ok_or_first_error (acc.verifyWitness acc.stateRoot) witnesses with
    hall | ⟨done, w, rest, e, rfl, hdone, hfails⟩
  · exact absurd ((forM_eq_ok_iff _ _).mpr hall) refused
  · obtain ⟨hproof, value, hvalue⟩ := written w (by simp)
    have hleaf := (tracks.holds_iff w.key value).mpr hvalue
    have hother : value ≠ w.leafValue := by
      rintro rfl
      rw [(verifyWitness_eq_ok_iff (tracks.filed sha256) acc.stateRoot w).mpr
        ⟨hproof, hleaf, rfl⟩] at hfails
      cases hfails
    exact forM_eq_error_of_first hdone (verifyWitness_of_other_value hproof hleaf hother _)

end

/-- Against its own root a later accumulator accepts exactly the witnesses that outlive the patches
in between. -/
theorem Tracks.verifyWitnesses_later_iff {sha256 : List UInt8 → Root}
    {earlier later : List StatePatch} {acc : InMemoryAccumulator}
    (tracks : Tracks sha256 (earlier ++ later) acc) {witnesses : List StateWitness}
    (order : (witnesses.map StateWitness.key).Pairwise StateKey.Before)
    (current : ∀ w ∈ witnesses, w.proof = [] ∧
      lastWritten (acceptedWrites earlier) w.key = some w.leafValue) :
    acc.verifyWitnesses witnesses acc.stateRoot = .ok () ↔ ∀ w ∈ witnesses, Outlives later w := by
  rw [tracks.verifyWitnesses_iff]
  constructor
  · rintro ⟨-, hall⟩ w hw
    obtain ⟨value, hvalue, houtlives⟩ := lastWritten_later (current w hw).2
    have hkept := (hall w hw).2.1
    rw [hvalue, Option.some.injEq] at hkept
    exact houtlives.mp hkept
  · intro hall
    refine ⟨order, ?_⟩
    intro w hw
    obtain ⟨value, hvalue, houtlives⟩ := lastWritten_later (current w hw).2
    rw [houtlives.mpr (hall w hw)] at hvalue
    exact ⟨(current w hw).1, hvalue, rfl⟩

/-- A key with a value has been written by a patch that was accepted. -/
theorem exists_canonical_of_written {patches : List StatePatch} {key : StateKey}
    {value : MockProgressiveByteList}
    (written : lastWritten (acceptedWrites patches) key = some value) :
    ∃ p ∈ patches, p.Canonical := by
  obtain ⟨p, hp, -⟩ := List.mem_flatMap.mp (mem_of_lastWritten written)
  obtain ⟨hmem, hcanonical⟩ := List.mem_filter.mp hp
  exact ⟨p, hmem, of_decide_eq_true hcanonical⟩

/-- Once a patch has been accepted, the root stays exactly while nothing changes. -/
theorem root_unchanged_iff {sha256 : List UInt8 → Root} {earlier later : List StatePatch}
    (accepted : ∃ p ∈ earlier, p.Canonical)
    (collisionFree : Set.InjOn sha256
      {s | s ∈ preimages
          (referenceRootRun sha256 (runPatches sha256 .new (earlier ++ later)).leaves) ∨
        s ∈ preimages (referenceRootRun sha256 (runPatches sha256 .new earlier).leaves)}) :
    (runPatches sha256 .new (earlier ++ later)).root = (runPatches sha256 .new earlier).root ↔
      WritesNothingNew earlier later := by
  have before := run_tracks sha256 earlier
  have after := run_tracks sha256 (earlier ++ later)
  have haccepted : ∃ p ∈ earlier ++ later, p.Canonical := by
    obtain ⟨p, hp, hcanonical⟩ := accepted
    exact ⟨p, List.mem_append_left _ hp, hcanonical⟩
  rw [lastWritten_unchanged_iff, before.root accepted, after.root haccepted]
  constructor
  · intro hroot key
    have hleaves := binds_referenceRootRun.eq_of_value_eq (after.filed sha256)
      (before.filed sha256) collisionFree hroot
    have hsame := after.get? sha256 key
    rw [hleaves, before.get? sha256] at hsame
    exact (Option.map_injective (fun _ _ h => (StoredLeaf.mk.inj h).2) hsame).symm
  · intro hsame
    rw [after.leaves_eq sha256 before hsame]

/-- What becomes of a list of witnesses that has passed, after any further patches. Against the new
root it passes exactly when the patches keep the values of its keys, and else is refused for a
value. Against the old root it passes exactly when the patches change nothing at all, and else its
first witness is refused, for its value if that has changed and for the root if not. -/
theorem witnesses_expire_exactly (sha256 : List UInt8 → Root) (earlier later : List StatePatch)
    (first : StateWitness) (rest : List StateWitness) (root : Root)
    (passed : (runPatches sha256 .new earlier).verifyWitnesses (first :: rest) root = .ok ())
    (collisionFree : Set.InjOn sha256
      {s | s ∈ preimages
          (referenceRootRun sha256 (runPatches sha256 .new (earlier ++ later)).leaves) ∨
        s ∈ preimages (referenceRootRun sha256 (runPatches sha256 .new earlier).leaves)}) :
    let acc := runPatches sha256 .new (earlier ++ later)
    ((∀ w ∈ first :: rest, Outlives later w) →
      acc.verifyWitnesses (first :: rest) acc.stateRoot = .ok ()) ∧
    ((∃ w ∈ first :: rest, ¬ Outlives later w) →
      acc.verifyWitnesses (first :: rest) acc.stateRoot = .error valueMismatch) ∧
    (WritesNothingNew earlier later → acc.verifyWitnesses (first :: rest) root = .ok ()) ∧
    (¬ WritesNothingNew earlier later → Outlives later first →
      acc.verifyWitnesses (first :: rest) root = .error rootMismatch) ∧
    (¬ Outlives later first →
      acc.verifyWitnesses (first :: rest) root = .error valueMismatch) := by
  intro acc
  have before := run_tracks sha256 earlier
  have tracks : Tracks sha256 (earlier ++ later) acc := run_tracks sha256 (earlier ++ later)
  obtain ⟨horder, hpassed⟩ := (before.verifyWitnesses_iff _ root).mp passed
  have hcurrent : ∀ w ∈ first :: rest, w.proof = [] ∧
      lastWritten (acceptedWrites earlier) w.key = some w.leafValue :=
    fun w hw => ⟨(hpassed w hw).1, (hpassed w hw).2.1⟩
  have hown := tracks.verifyWitnesses_later_iff horder hcurrent
  obtain ⟨hproof, hwritten, hroot⟩ := hpassed first List.mem_cons_self
  have hunchanged := root_unchanged_iff (exists_canonical_of_written hwritten) collisionFree
  obtain ⟨value, hvalue, houtlives⟩ := @lastWritten_later earlier later first hwritten
  have hleaf := (tracks.holds_iff first.key value).mpr hvalue
  -- The loop stops at the first witness if that one is refused.
  have hfirst : ∀ e, acc.verifyWitness root first = .error e →
      acc.verifyWitnesses (first :: rest) root = .error e := by
    intro e he
    rw [InMemoryAccumulator.verifyWitnesses,
      (ensureCanonicalWitnessOrder_eq_ok_iff _).mpr horder, ok_bind]
    exact forM_eq_error_of_first (List.forall_mem_nil _) he
  refine ⟨hown.mpr, ?_, ?_, ?_, ?_⟩
  · rintro ⟨w, hw, hstale⟩
    refine tracks.verifyWitnesses_own_root horder ?_ fun hok => hstale (hown.mp hok w hw)
    intro w hw
    obtain ⟨value, hvalue, -⟩ := @lastWritten_later earlier later w (hcurrent w hw).2
    exact ⟨(hcurrent w hw).1, value, hvalue⟩
  · intro hnothing
    refine (tracks.verifyWitnesses_iff _ _).mpr ⟨horder, ?_⟩
    intro w hw
    refine ⟨(hcurrent w hw).1, ?_, (hunchanged.mpr hnothing).trans hroot⟩
    rw [(lastWritten_unchanged_iff earlier later).mp hnothing]
    exact (hcurrent w hw).2
  · intro hchanged hfresh
    rw [houtlives.mpr hfresh] at hleaf
    apply hfirst
    apply verifyWitness_of_other_root (tracks.filed sha256) hproof hleaf
    rw [← hroot]
    exact fun hsame => hchanged (hunchanged.mp hsame)
  · intro hstale
    apply hfirst
    exact verifyWitness_of_other_value hproof hleaf (fun h => hstale (houtlives.mp h)) root

/-- After a write to the stem, the account's witness passes against the new root and is refused for
the root against the old one. -/
theorem witnesses_expire_exactly_sample :
    let acc := runPatches Sha256.digest .new (splitPatches ++ [⟨[sampleStem], [[3]]⟩])
    acc.verifyWitnesses [⟨sampleAccount, [1], []⟩] acc.stateRoot = .ok () ∧
      acc.verifyWitnesses [⟨sampleAccount, [1], []⟩]
        (runPatches Sha256.digest .new splitPatches).stateRoot = .error rootMismatch := by
  intro acc
  have hlater : lastWritten (acceptedWrites [⟨[sampleStem], [[3]]⟩]) sampleAccount = none := by
    decide
  have hfresh : Outlives [⟨[sampleStem], [[3]]⟩] ⟨sampleAccount, [1], []⟩ := by
    intro value hvalue
    rw [hlater] at hvalue
    cases hvalue
  have hchanged : ¬ WritesNothingNew splitPatches [⟨[sampleStem], [[3]]⟩] := by
    intro hnothing
    exact absurd (hnothing sampleStem [3] (by decide)) (by decide)
  obtain ⟨hnew, -, -, hold, -⟩ := witnesses_expire_exactly Sha256.digest splitPatches
    [⟨[sampleStem], [[3]]⟩] ⟨sampleAccount, [1], []⟩ []
    (runPatches Sha256.digest .new splitPatches).stateRoot
    (((run_tracks Sha256.digest splitPatches).verifyWitnesses_iff _ _).mpr
      ⟨List.pairwise_singleton _ _, List.forall_mem_singleton.mpr ⟨rfl, by decide, rfl⟩⟩)
    (by
      simp only [← List.mem_append]
      exact injOn_of_nodup (by decide +kernel))
  exact ⟨hnew (List.forall_mem_singleton.mpr hfresh), hold hchanged hfresh⟩

end ShellState
