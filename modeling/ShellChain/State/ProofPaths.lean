import ShellChain.State.Witness

/-!
# Derived proof paths

The neighbours of a proof path are range queries over encoded keys. What they
are to name is a matter of keys alone: the closest materialised key on either
side in canonical order, with the value last written to it. The two agree
because every entry is filed under the encoding of the key it stores.
-/

namespace ShellState

open ByteCodec ShellPrimitives SortedMap Except

/-- A leaf names the closest key on one side of `key` that has a value, together with the value;
no leaf says that there is no such key. The side is given by an order, in which the keys on that
side come before `key`. -/
def NamesClosest (side : StateKey → StateKey → Prop)
    (current : StateKey → Option MockProgressiveByteList) (key : StateKey) :
    Option ReferenceProofLeaf → Prop
  | none => ∀ other, side other key → current other = none
  | some leaf => leaf.canonicalKey = encodeStateKey leaf.key ∧ side leaf.key key ∧
      current leaf.key = some leaf.leafValue ∧
      ∀ other, side other key → current other ≠ none → other = leaf.key ∨ side other leaf.key

/-- The errors of the two boundary checks. -/
def BoundaryError (e : StateError) : Prop :=
  e = .witnessVerificationFailed
      "reference proof left boundary is not ordered before the witness key" ∨
    e = .witnessVerificationFailed
      "reference proof right boundary is not ordered after the witness key"

instance (e : StateError) : Decidable (BoundaryError e) := inferInstanceAs (Decidable (_ ∨ _))

section
variable {sha256 : List UInt8 → Root} {patches : List StatePatch} {acc : InMemoryAccumulator}

/-! ## Entries and keys -/

/-- The entries are the keys that have been written, each with its last value. -/
theorem Tracks.mem_entries_iff (tracks : Tracks sha256 patches acc) (key : StateKey)
    (leaf : StoredLeaf) :
    (encodeStateKey key, leaf) ∈ acc.leaves.entries ↔
      leaf.key = key ∧ lastWritten (acceptedWrites patches) key = some leaf.leafValue := by
  obtain ⟨stored, value⟩ := leaf
  rw [← get?_eq_some_iff, tracks.get? sha256]
  cases lastWritten (acceptedWrites patches) key with
  | none => simp
  | some v => simp [eq_comm]

/-- An entry is a key that has been written, filed under its encoding. -/
theorem Tracks.written_of_mem (tracks : Tracks sha256 patches acc)
    {e : StateKeyBytes × StoredLeaf} (he : e ∈ acc.leaves.entries) :
    e.1 = encodeStateKey e.2.key ∧
      lastWritten (acceptedWrites patches) e.2.key = some e.2.leafValue := by
  have hfiled := tracks.filed sha256 e he
  obtain ⟨bytes, leaf⟩ := e
  obtain rfl : bytes = encodeStateKey leaf.key := hfiled
  exact ⟨rfl, ((tracks.mem_entries_iff leaf.key leaf).mp he).2⟩

theorem Tracks.mem_of_written (tracks : Tracks sha256 patches acc) {key : StateKey}
    (written : lastWritten (acceptedWrites patches) key ≠ none) :
    ∃ value, (encodeStateKey key, ⟨key, value⟩) ∈ acc.leaves.entries := by
  obtain ⟨value, hvalue⟩ := Option.ne_none_iff_exists'.mp written
  exact ⟨value, (tracks.mem_entries_iff key _).mpr ⟨rfl, hvalue⟩⟩

/-! ## Neighbours -/

/-- What is closest among the encoded keys names what is closest among the keys, on either side. -/
theorem Tracks.namesClosest (tracks : Tracks sha256 patches acc)
    {before : StateKeyBytes → StateKeyBytes → Prop} {key : StateKey}
    {found : Option (StateKeyBytes × StoredLeaf)}
    (closest : acc.leaves.Closest before (encodeStateKey key) found) :
    NamesClosest (fun a b => before (encodeStateKey a) (encodeStateKey b))
      (lastWritten (acceptedWrites patches)) key
      (found.map fun e => .fromStoredLeaf e.1 e.2) := by
  cases found with
  | none =>
    intro other hside
    by_contra hwritten
    obtain ⟨value, hmem⟩ := tracks.mem_of_written hwritten
    exact closest _ hmem hside
  | some e =>
    obtain ⟨hmem, hside, hlast⟩ := closest
    obtain ⟨hfiled, hvalue⟩ := tracks.written_of_mem hmem
    rw [hfiled] at hside hlast
    refine ⟨hfiled, hside, hvalue, ?_⟩
    intro other hother hwritten
    obtain ⟨value, hentry⟩ := tracks.mem_of_written hwritten
    rcases hlast _ hentry hother with rfl | hcloser
    · exact Or.inl rfl
    · exact Or.inr hcloser

/-- A key has a proof path exactly when it has a value, which the path's leaf carries. -/
theorem Tracks.proofPath_leaf (tracks : Tracks sha256 patches acc) {key : StateKey}
    {path : ReferenceProofPath} (hpath : acc.proofPathForAccess key = .ok path) :
    path.leaf.key = key ∧ path.leaf.canonicalKey = encodeStateKey key ∧
      lastWritten (acceptedWrites patches) key = some path.leaf.leafValue := by
  obtain ⟨leaf, hleaf, rfl⟩ := (proofPathForAccess_eq_ok_iff acc key path).mp hpath
  obtain ⟨hkey, hvalue⟩ := (tracks.mem_entries_iff key leaf).mp
    ((get?_eq_some_iff _ _ _).mp hleaf)
  exact ⟨hkey, rfl, hvalue⟩

theorem Tracks.proofPath_fails_iff (tracks : Tracks sha256 patches acc) (key : StateKey) :
    (∃ e, acc.proofPathForAccess key = .error e) ↔
      lastWritten (acceptedWrites patches) key = none := by
  rw [InMemoryAccumulator.proofPathForAccess, tracks.get? sha256]
  cases lastWritten (acceptedWrites patches) key with
  | none => simp
  | some value => simp

/-! ## Boundary checks -/

/-- A path that starts at the key it was derived for fails at one of the first three checks: past
them the witness is for that key, and both neighbours are on their sides of it. -/
theorem Tracks.failsOnly_path (tracks : Tracks sha256 patches acc) {key : StateKey}
    {path : ReferenceProofPath} (hpath : acc.proofPathForAccess key = .ok path)
    (witness : StateWitness) (root : Root) :
    FailsOnly (fun e => ¬ BoundaryError e) (path.verifyWitness witness root) := by
  obtain ⟨hkey, -, -⟩ := tracks.proofPath_leaf hpath
  have filed : Filed acc.leaves := tracks.filed sha256
  refine FailsOnly.ite (fun _ => FailsOnly.error (by decide)) fun _ => ?_
  refine FailsOnly.ite (fun _ => FailsOnly.error (by decide)) fun hsame => ?_
  refine FailsOnly.ite (fun _ => FailsOnly.error (by decide)) fun _ => ?_
  have hwitness : witness.key = key := (not_not.mp hsame).symm.trans hkey
  obtain ⟨leaf, -, rfl⟩ := (proofPathForAccess_eq_ok_iff acc key path).mp hpath
  rw [hwitness]
  apply FailsOnly.of_eq_ok
  rw [checkLeft_eq_ok filed key, ok_bind]
  exact checkRight_eq_ok filed key

theorem Tracks.failsOnly_verifyWitness (tracks : Tracks sha256 patches acc) (root : Root)
    (witness : StateWitness) :
    FailsOnly (fun e => ¬ BoundaryError e) (acc.verifyWitness root witness) := by
  have hshape : FailsOnly (fun e => ¬ BoundaryError e)
      (ensureReferenceBackendProofShape witness) := by
    rw [ensureReferenceBackendProofShape]
    cases witness.proofShape with
    | referenceEmpty => exact FailsOnly.ok ()
    | placeholderCommittedNodes => exact FailsOnly.error (by decide)
  have hderived : FailsOnly (fun e => ¬ BoundaryError e)
      (acc.proofPathForAccess witness.key) := by
    rw [InMemoryAccumulator.proofPathForAccess]
    cases acc.leaves.get? (encodeStateKey witness.key) with
    | none => exact FailsOnly.error (by decide)
    | some leaf => exact FailsOnly.ok _
  refine FailsOnly.bind (FailsOnly.bind hshape fun _ _ => FailsOnly.bind hderived ?_) ?_
  · intro path hpath
    exact FailsOnly.bind (tracks.failsOnly_path hpath witness acc.root) fun _ _ => FailsOnly.ok path
  · intro path hpath
    obtain ⟨_, -, hrest⟩ := (bind_eq_ok_iff _ _ _).mp hpath
    obtain ⟨path', hpath', hrest⟩ := (bind_eq_ok_iff _ _ _).mp hrest
    obtain ⟨_, -, hsame⟩ := (bind_eq_ok_iff _ _ _).mp hrest
    obtain rfl := Except.ok.inj hsame
    exact tracks.failsOnly_path hpath' witness root

end

/-- The path of a key names the key's value, the closest materialised key on either side and the
current root, and no witness ever fails one of the two boundary checks. -/
theorem proof_path_names_neighbours (sha256 : List UInt8 → Root) (patches : List StatePatch)
    (key : StateKey) :
    let acc := runPatches sha256 .new patches
    let current := lastWritten (acceptedWrites patches)
    ((∃ e, acc.proofPathForAccess key = .error e) ↔ current key = none) ∧
    (∀ path, acc.proofPathForAccess key = .ok path →
      path.expectedRoot = acc.stateRoot ∧ path.leaf.key = key ∧
      path.leaf.canonicalKey = encodeStateKey key ∧ current key = some path.leaf.leafValue ∧
      NamesClosest StateKey.Before current key path.leftNeighbor ∧
      NamesClosest (fun a b => b.Before a) current key path.rightNeighbor ∧
      ∀ witness root e, path.verifyWitness witness root = .error e → ¬ BoundaryError e) ∧
    ∀ witness root e, acc.verifyWitness root witness = .error e → ¬ BoundaryError e := by
  intro acc current
  have tracks : Tracks sha256 patches acc := run_tracks sha256 patches
  refine ⟨tracks.proofPath_fails_iff key, ?_, ?_⟩
  · intro path hpath
    obtain ⟨hkey, hcanonical, hvalue⟩ := tracks.proofPath_leaf hpath
    have hboundary := tracks.failsOnly_path hpath
    obtain ⟨leaf, -, rfl⟩ := (proofPathForAccess_eq_ok_iff acc key path).mp hpath
    refine ⟨rfl, hkey, hcanonical, hvalue, ?_, ?_, hboundary⟩
    · exact tracks.namesClosest (closest_lastBelow acc.leaves (encodeStateKey key))
    · exact tracks.namesClosest (closest_firstAbove acc.leaves (encodeStateKey key))
  · intro witness root e
    exact tracks.failsOnly_verifyWitness root witness e

/-- The account's path carries the account's value and has the stem on its right. -/
theorem proof_path_names_neighbours_sample :
    ∃ path, (runPatches Sha256.digest .new splitPatches).proofPathForAccess sampleAccount =
        .ok path ∧ path.leaf.leafValue = [1] ∧ path.rightNeighbor ≠ none := by
  obtain ⟨hfails, hnames, -⟩ := proof_path_names_neighbours Sha256.digest splitPatches sampleAccount
  have hvalue : lastWritten (acceptedWrites splitPatches) sampleAccount = some [1] := by decide
  have hstem : lastWritten (acceptedWrites splitPatches) sampleStem = some [2] := by decide
  cases hpath : (runPatches Sha256.digest .new splitPatches).proofPathForAccess sampleAccount with
  | error e =>
    rw [hfails.mp ⟨e, hpath⟩] at hvalue
    cases hvalue
  | ok path =>
    obtain ⟨-, -, -, hleaf, -, hright, -⟩ := hnames path hpath
    refine ⟨path, rfl, Option.some.inj (hleaf.symm.trans hvalue), ?_⟩
    intro hnone
    rw [hnone] at hright
    rw [hright sampleStem (by decide)] at hstem
    cases hstem

end ShellState
