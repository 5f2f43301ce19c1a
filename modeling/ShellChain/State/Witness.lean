import ShellChain.State.RootBinding

/-!
# Witness verification

A witness passes when its proof is empty, the accumulator holds its value under
its key, and the expected root is the accumulator's. The neighbours in a proof
path are looked up next to the key, so on filed leaves their checks never fail.
-/

namespace ShellState

open ByteCodec ShellPrimitives SortedMap Except

/-! ## Proof paths -/

theorem checkLeft_eq_ok {acc : InMemoryAccumulator} (filed : Filed acc.leaves) (key : StateKey) :
    ReferenceProofPath.checkLeft ((acc.leaves.lastBelow (encodeStateKey key)).map fun e =>
      .fromStoredLeaf e.1 e.2) key = .ok () := by
  cases hleft : acc.leaves.lastBelow (encodeStateKey key) with
  | none => rfl
  | some e =>
    obtain ⟨hmem, hlt⟩ := lastBelow_spec hleft
    have hbefore : e.2.key.Before key := by
      rw [StateKey.Before, ← filed e hmem]
      exact hlt
    exact if_pos ((compareStateKeys_isLT_iff _ _).mpr hbefore)

theorem checkRight_eq_ok {acc : InMemoryAccumulator} (filed : Filed acc.leaves) (key : StateKey) :
    ReferenceProofPath.checkRight ((acc.leaves.firstAbove (encodeStateKey key)).map fun e =>
      .fromStoredLeaf e.1 e.2) key = .ok () := by
  cases hright : acc.leaves.firstAbove (encodeStateKey key) with
  | none => rfl
  | some e =>
    obtain ⟨hmem, hlt⟩ := firstAbove_spec hright
    have hbefore : key.Before e.2.key := by
      rw [StateKey.Before, ← filed e hmem]
      exact hlt
    exact if_pos ((compareStateKeys_isLT_iff _ _).mpr hbefore)

/-- A proof path exists for the keys that are materialised, and starts at their leaf. -/
theorem proofPathForAccess_eq_ok_iff (acc : InMemoryAccumulator) (key : StateKey)
    (path : ReferenceProofPath) :
    acc.proofPathForAccess key = .ok path ↔
      ∃ leaf, acc.leaves.get? (encodeStateKey key) = some leaf ∧
        path = ⟨acc.root, .fromStoredLeaf (encodeStateKey key) leaf,
          (acc.leaves.lastBelow (encodeStateKey key)).map fun e => .fromStoredLeaf e.1 e.2,
          (acc.leaves.firstAbove (encodeStateKey key)).map fun e => .fromStoredLeaf e.1 e.2⟩ := by
  rw [InMemoryAccumulator.proofPathForAccess]
  cases acc.leaves.get? (encodeStateKey key) with
  | none => simp
  | some leaf => simp [eq_comm]

/-- On the path of its own key a witness is checked against the root, the key and the value. -/
theorem verify_path_eq_ok_iff {acc : InMemoryAccumulator} (filed : Filed acc.leaves)
    {witness : StateWitness} {path : ReferenceProofPath}
    (hpath : acc.proofPathForAccess witness.key = .ok path) (root : Root) :
    path.verifyWitness witness root = .ok () ↔
      acc.root = root ∧
        acc.leaves.get? (encodeStateKey witness.key) = some ⟨witness.key, witness.leafValue⟩ := by
  obtain ⟨leaf, hleaf, rfl⟩ := (proofPathForAccess_eq_ok_iff acc witness.key path).mp hpath
  have hleft := checkLeft_eq_ok filed witness.key
  have hright := checkRight_eq_ok filed witness.key
  rw [hleaf, Option.some.injEq]
  simp only [ReferenceProofPath.verifyWitness, ReferenceProofLeaf.fromStoredLeaf] at hleft hright ⊢
  obtain ⟨key, value⟩ := leaf
  simp only [StoredLeaf.mk.injEq]
  by_cases hroot : acc.root = root
  · by_cases hkey : key = witness.key
    · by_cases hvalue : value = witness.leafValue
      · simp [hroot, hkey, hvalue, hleft, hright, bind, Except.bind]
      · simp [hroot, hkey, hvalue, ReferenceProofPath.failed]
    · simp [hroot, hkey, ReferenceProofPath.failed]
  · simp [hroot, ReferenceProofPath.failed]

theorem ensureReferenceBackendProofShape_eq_ok_iff (witness : StateWitness) :
    ensureReferenceBackendProofShape witness = .ok () ↔ witness.proof = [] := by
  rw [ensureReferenceBackendProofShape, StateWitness.proofShape]
  cases witness.proof with
  | nil => simp
  | cons node rest => simp

/-! ## Verification -/

/-- One witness: the path check runs twice, against the accumulator's own root
and against the expected one. -/
theorem verifyWitness_eq_ok_iff {acc : InMemoryAccumulator} (filed : Filed acc.leaves)
    (root : Root) (witness : StateWitness) :
    acc.verifyWitness root witness = .ok () ↔
      witness.proof = [] ∧
        acc.leaves.get? (encodeStateKey witness.key) = some ⟨witness.key, witness.leafValue⟩ ∧
        acc.root = root := by
  simp only [InMemoryAccumulator.verifyWitness, InMemoryAccumulator.deriveProofPath,
    bind_eq_ok_iff]
  constructor
  · rintro ⟨path, ⟨_, hshape, _, hpath, _, hown, hsame⟩, hroot⟩
    obtain rfl := Except.ok.inj hsame
    obtain ⟨hroot, hleaf⟩ := (verify_path_eq_ok_iff filed hpath root).mp hroot
    exact ⟨(ensureReferenceBackendProofShape_eq_ok_iff witness).mp hshape, hleaf, hroot⟩
  · rintro ⟨hproof, hleaf, hroot⟩
    obtain ⟨path, hpath⟩ : ∃ path, acc.proofPathForAccess witness.key = .ok path :=
      ⟨_, (proofPathForAccess_eq_ok_iff _ _ _).mpr ⟨_, hleaf, rfl⟩⟩
    have hshape := (ensureReferenceBackendProofShape_eq_ok_iff witness).mpr hproof
    refine ⟨path, ⟨(), hshape, path, hpath, (), ?_, rfl⟩, ?_⟩
    · exact (verify_path_eq_ok_iff filed hpath acc.root).mpr ⟨rfl, hleaf⟩
    · exact (verify_path_eq_ok_iff filed hpath root).mpr ⟨hroot, hleaf⟩

theorem verifyWitnesses_eq_ok_iff {acc : InMemoryAccumulator} (filed : Filed acc.leaves)
    (witnesses : List StateWitness) (root : Root) :
    acc.verifyWitnesses witnesses root = .ok () ↔
      (witnesses.map StateWitness.key).Pairwise StateKey.Before ∧
        ∀ w ∈ witnesses, w.proof = [] ∧
          acc.leaves.get? (encodeStateKey w.key) = some ⟨w.key, w.leafValue⟩ ∧ acc.root = root := by
  simp only [InMemoryAccumulator.verifyWitnesses, check_bind_eq_ok_iff,
    ensureCanonicalWitnessOrder_eq_ok_iff]
  have hloop : witnesses.forM (acc.verifyWitness root) = .ok () ↔
      ∀ w ∈ witnesses, acc.verifyWitness root w = .ok () := Except.forM_eq_ok_iff _ _
  simp only [hloop, verifyWitness_eq_ok_iff filed]

/-! ## Production -/

theorem witnessForAccess_eq_ok_iff (acc : InMemoryAccumulator) (key : StateKey)
    (witness : StateWitness) :
    acc.witnessForAccess key = .ok witness ↔
      ∃ leaf, acc.leaves.get? (encodeStateKey key) = some leaf ∧
        witness = ⟨key, leaf.leafValue, []⟩ := by
  simp only [InMemoryAccumulator.witnessForAccess, bind_eq_ok_iff, proofPathForAccess_eq_ok_iff]
  constructor
  · rintro ⟨path, ⟨leaf, hleaf, rfl⟩, hwitness⟩
    exact ⟨leaf, hleaf, (Except.ok.inj hwitness).symm⟩
  · rintro ⟨leaf, hleaf, rfl⟩
    exact ⟨_, ⟨leaf, hleaf, rfl⟩, rfl⟩

theorem getWitnessForAccesses_eq_ok_iff (acc : InMemoryAccumulator) (keys : List StateKey)
    (witnesses : List StateWitness) :
    acc.getWitnessForAccesses keys = .ok witnesses ↔
      keys.Pairwise StateKey.Before ∧
        List.Forall₂ (fun key w => acc.witnessForAccess key = .ok w) keys witnesses := by
  simp only [InMemoryAccumulator.getWitnessForAccesses, check_bind_eq_ok_iff, mapM_eq_ok_iff,
    ensureCanonicalAccessOrder_eq_ok_iff]

/-- Every key has a witness exactly when every key is materialised. -/
theorem exists_forall₂_witness_iff (acc : InMemoryAccumulator) (keys : List StateKey) :
    (∃ ws, List.Forall₂ (fun key w => acc.witnessForAccess key = .ok w) keys ws) ↔
      ∀ key ∈ keys, (acc.leaves.get? (encodeStateKey key)).isSome := by
  induction keys with
  | nil => exact ⟨fun _ => by simp, fun _ => ⟨[], .nil⟩⟩
  | cons key rest ih =>
    rw [List.forall_mem_cons, ← ih]
    constructor
    · rintro ⟨ws, hall⟩
      cases hall with
      | cons hkey hrest =>
        obtain ⟨leaf, hleaf, _⟩ := (witnessForAccess_eq_ok_iff acc key _).mp hkey
        exact ⟨by rw [hleaf]; rfl, _, hrest⟩
    · rintro ⟨hkey, ws, hrest⟩
      obtain ⟨leaf, hleaf⟩ := Option.isSome_iff_exists.mp hkey
      exact ⟨_, .cons ((witnessForAccess_eq_ok_iff acc key _).mpr ⟨leaf, hleaf, rfl⟩) hrest⟩

theorem forall₂_witness_keys {acc : InMemoryAccumulator} {keys : List StateKey}
    {witnesses : List StateWitness}
    (h : List.Forall₂ (fun key w => acc.witnessForAccess key = .ok w) keys witnesses) :
    witnesses.map StateWitness.key = keys := by
  induction h with
  | nil => rfl
  | cons hkey _ ih =>
    obtain ⟨leaf, _, rfl⟩ := (witnessForAccess_eq_ok_iff acc _ _).mp hkey
    rw [List.map_cons, ih]

theorem forall₂_witness_leaf {patches : List StatePatch} {acc : InMemoryAccumulator}
    {sha256 : List UInt8 → Root} (tracks : Tracks sha256 patches acc) {keys : List StateKey}
    {witnesses : List StateWitness}
    (h : List.Forall₂ (fun key w => acc.witnessForAccess key = .ok w) keys witnesses) :
    ∀ w ∈ witnesses, w.proof = [] ∧
      acc.leaves.get? (encodeStateKey w.key) = some ⟨w.key, w.leafValue⟩ := by
  induction h with
  | nil => simp
  | cons hkey _ ih =>
    obtain ⟨leaf, hleaf, rfl⟩ := (witnessForAccess_eq_ok_iff acc _ _).mp hkey
    refine List.forall_mem_cons.mpr ⟨⟨rfl, ?_⟩, ih⟩
    -- A leaf read under a key's encoding stores that key.
    rw [tracks.get? sha256] at hleaf ⊢
    obtain ⟨value, hvalue, rfl⟩ := Option.map_eq_some_iff.mp hleaf
    rw [hvalue]
    rfl

/-! ## Reachable accumulators -/

/-- Verification accepts exactly the current values of the accumulator, and what
the accumulator produces passes it. The expected root is compared once for each
witness, so an empty list passes against any root. -/
theorem witness_verification_exact (sha256 : List UInt8 → Root) (patches : List StatePatch) :
    (∀ (witnesses : List StateWitness) (root : Root),
      (runPatches sha256 .new patches).verifyWitnesses witnesses root = .ok () ↔
        (witnesses.map StateWitness.key).Pairwise StateKey.Before ∧
          (∀ w ∈ witnesses, w.proof = [] ∧
            lastWritten (acceptedWrites patches) w.key = some w.leafValue) ∧
          (witnesses ≠ [] → root = (runPatches sha256 .new patches).stateRoot)) ∧
    (∀ keys : List StateKey,
      (∃ ws, (runPatches sha256 .new patches).getWitnessForAccesses keys = .ok ws) ↔
        keys.Pairwise StateKey.Before ∧
          ∀ key ∈ keys, (lastWritten (acceptedWrites patches) key).isSome) ∧
    ∀ (keys : List StateKey) (ws : List StateWitness),
      (runPatches sha256 .new patches).getWitnessForAccesses keys = .ok ws →
        ws.map StateWitness.key = keys ∧
          (runPatches sha256 .new patches).verifyWitnesses ws
            (runPatches sha256 .new patches).stateRoot = .ok () := by
  have tracks := run_tracks sha256 patches
  have filed : Filed (runPatches sha256 .new patches).leaves := tracks.filed sha256
  have hvalue : ∀ w : StateWitness,
      (runPatches sha256 .new patches).leaves.get? (encodeStateKey w.key) =
          some ⟨w.key, w.leafValue⟩ ↔
        lastWritten (acceptedWrites patches) w.key = some w.leafValue := by
    intro w
    rw [tracks.get? sha256, Option.map_eq_some_iff]
    simp
  refine ⟨?_, ?_, ?_⟩
  · intro witnesses root
    rw [verifyWitnesses_eq_ok_iff filed]
    simp only [hvalue]
    constructor
    · rintro ⟨horder, hall⟩
      refine ⟨horder, fun w hw => ⟨(hall w hw).1, (hall w hw).2.1⟩, ?_⟩
      intro hne
      obtain ⟨w, hw⟩ := List.exists_mem_of_ne_nil witnesses hne
      exact (hall w hw).2.2.symm
    · rintro ⟨horder, hall, hroot⟩
      refine ⟨horder, ?_⟩
      intro w hw
      exact ⟨(hall w hw).1, (hall w hw).2, (hroot (List.ne_nil_of_mem hw)).symm⟩
  · intro keys
    simp only [getWitnessForAccesses_eq_ok_iff, exists_and_left, exists_forall₂_witness_iff,
      tracks.get? sha256, Option.isSome_map]
  · intro keys ws hws
    obtain ⟨horder, hall⟩ := (getWitnessForAccesses_eq_ok_iff _ keys ws).mp hws
    have hkeys := forall₂_witness_keys hall
    refine ⟨hkeys, (verifyWitnesses_eq_ok_iff filed ws _).mpr ⟨by rwa [hkeys], ?_⟩⟩
    intro w hw
    obtain ⟨hproof, hleaf⟩ := forall₂_witness_leaf tracks hall w hw
    exact ⟨hproof, hleaf, rfl⟩

/-- A list of both sample keys is produced and passes. -/
theorem witness_verification_exact_sample :
    (runPatches Sha256.digest .new mergedPatches).getWitnessForAccesses
        [sampleAccount, sampleStem] =
      .ok [⟨sampleAccount, [1], []⟩, ⟨sampleStem, [2], []⟩] ∧
    (runPatches Sha256.digest .new mergedPatches).verifyWitnesses
        [⟨sampleAccount, [1], []⟩, ⟨sampleStem, [2], []⟩]
        (runPatches Sha256.digest .new mergedPatches).stateRoot = .ok () := by
  have hproduced : (runPatches Sha256.digest .new mergedPatches).getWitnessForAccesses
      [sampleAccount, sampleStem] = .ok [⟨sampleAccount, [1], []⟩, ⟨sampleStem, [2], []⟩] := by
    rfl
  obtain ⟨_, _, hpasses⟩ := witness_verification_exact Sha256.digest mergedPatches
  exact ⟨hproduced, (hpasses _ _ hproduced).2⟩

/-- No witness, and a root that is not the accumulator's. -/
theorem verifyWitnesses_empty_wrong_root :
    (runPatches Sha256.digest .new []).verifyWitnesses [] (List.Vector.replicate 32 1) = .ok () ∧
      List.Vector.replicate 32 1 ≠ (runPatches Sha256.digest .new []).stateRoot := by
  exact ⟨rfl, by decide⟩

end ShellState
