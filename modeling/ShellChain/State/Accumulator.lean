import ShellChain.Library.AdjacentPairs
import ShellChain.Library.Hashing
import ShellChain.Library.SortedMap
import ShellChain.Primitives.StateKey

/-!
# The reference accumulator

`shell-state`: a map from encoded keys to leaves with a cached root, state
patches, proof paths and witness checks. Operations on a mutable accumulator
return their result together with the accumulator they leave behind, so that a
failed call has a state after it too.
-/

namespace ShellState

open ByteCodec ShellPrimitives AdjacentPairs

/-! ## Errors -/

structure WitnessOrderingError where
  index : Nat
  context : String
  deriving DecidableEq

structure RootContinuityError where
  expected : Root
  actual : Root
  deriving DecidableEq

inductive StateError where
  | invalidStateKeyEncoding (context : String)
  | nonCanonicalWitnessOrdering (error : WitnessOrderingError)
  | rootContinuityMismatch (error : RootContinuityError)
  | witnessVerificationFailed (context : String)
  | unsupportedProofShape (context : String)
  | transitionShapeMismatch (accesses newValues : Nat)
  | backend (context : String)
  deriving DecidableEq

/-! ## Order checks -/

/-- The loop over neighbouring items; the error names the later one of the pair. -/
def ensureIncreasing {α : Type} (key : α → StateKey) (context : String) :
    Nat → List α → Except StateError Unit
  | index, a :: b :: rest =>
    if (compareStateKeys (key a) (key b)).isLT then
      ensureIncreasing key context (index + 1) (b :: rest)
    else .error (.nonCanonicalWitnessOrdering ⟨index, context⟩)
  | _, _ => .ok ()

def ensureCanonicalAccessOrder (accesses : List StateKey) : Except StateError Unit :=
  ensureIncreasing id "access keys must be strictly increasing in canonical StateKey order" 1
    accesses

def ensureCanonicalWitnessOrder (witnesses : List StateWitness) : Except StateError Unit :=
  ensureIncreasing StateWitness.key
    "witness keys must be strictly increasing in canonical StateKey order" 1 witnesses

/-- Neighbours in order are all in order, for the order of keys is transitive. -/
theorem isChain_before_iff (keys : List StateKey) :
    keys.IsChain StateKey.Before ↔ keys.Pairwise StateKey.Before :=
  have : Trans StateKey.Before StateKey.Before StateKey.Before := ⟨List.lt_trans⟩
  List.isChain_iff_pairwise

/-- The loop passes on increasing keys and otherwise reports the first violation. -/
theorem ensureIncreasing_cases {α : Type} (key : α → StateKey) (context : String) (index : Nat)
    (items : List α) :
    ((items.map key).Pairwise StateKey.Before ∧
        ensureIncreasing key context index items = .ok ()) ∨
      ∃ i, FirstViolation StateKey.Before (items.map key) (i + 1) ∧
        ensureIncreasing key context index items =
          .error (.nonCanonicalWitnessOrdering ⟨index + i, context⟩) := by
  have hdone : ∀ index (l : List α), l.length < 2 →
      ensureIncreasing key context index l = .ok () := by
    intro index l hshort
    rcases l with _ | ⟨a, _ | ⟨b, rest⟩⟩
    · rfl
    · rfl
    · rw [List.length_cons, List.length_cons] at hshort
      omega
  have hstep : ∀ index (a b : α) rest, ensureIncreasing key context index (a :: b :: rest) =
      if (key a).Before (key b) then ensureIncreasing key context (index + 1) (b :: rest)
      else .error (.nonCanonicalWitnessOrdering ⟨index, context⟩) := by
    intro index a b rest
    exact if_congr (compareStateKeys_isLT_iff (key a) (key b)) rfl rfl
  rcases loop_cases hdone hstep index items with ⟨hchain, hok⟩ | ⟨i, hfirst, herror⟩
  · rw [← List.isChain_map key, isChain_before_iff] at hchain
    exact Or.inl ⟨hchain, hok⟩
  · exact Or.inr ⟨i, hfirst.map, herror⟩

theorem ensureIncreasing_eq_ok_iff {α : Type} (key : α → StateKey) (context : String) (index : Nat)
    (items : List α) :
    ensureIncreasing key context index items = .ok () ↔
      (items.map key).Pairwise StateKey.Before := by
  rcases ensureIncreasing_cases key context index items with
    ⟨hincreasing, hok⟩ | ⟨i, hfirst, herror⟩
  · exact iff_of_true hok hincreasing
  · have hunordered : ¬ (items.map key).Pairwise StateKey.Before := by
      rw [← isChain_before_iff]
      exact hfirst.not_isChain
    rw [herror]
    exact iff_of_false (fun h => by cases h) hunordered

theorem ensureCanonicalAccessOrder_eq_ok_iff (accesses : List StateKey) :
    ensureCanonicalAccessOrder accesses = .ok () ↔ accesses.Pairwise StateKey.Before := by
  rw [ensureCanonicalAccessOrder, ensureIncreasing_eq_ok_iff, List.map_id]

theorem ensureCanonicalWitnessOrder_eq_ok_iff (witnesses : List StateWitness) :
    ensureCanonicalWitnessOrder witnesses = .ok () ↔
      (witnesses.map StateWitness.key).Pairwise StateKey.Before :=
  ensureIncreasing_eq_ok_iff _ _ _ _

/-! ## Patches -/

structure StatePatch where
  accesses : List StateKey
  newValues : List MockProgressiveByteList
  deriving DecidableEq

def StatePatch.validateShape (patch : StatePatch) : Except StateError Unit :=
  if patch.accesses.length ≠ patch.newValues.length then
    .error (.transitionShapeMismatch patch.accesses.length patch.newValues.length)
  else .ok ()

/-! ## The accumulator -/

structure StoredLeaf where
  key : StateKey
  leafValue : MockProgressiveByteList
  deriving DecidableEq

abbrev Leaves := SortedMap StateKeyBytes StoredLeaf

structure InMemoryAccumulator where
  leaves : Leaves
  root : Root

structure ReferenceProofLeaf where
  key : StateKey
  canonicalKey : StateKeyBytes
  leafValue : MockProgressiveByteList

structure ReferenceProofPath where
  expectedRoot : Root
  leaf : ReferenceProofLeaf
  leftNeighbor : Option ReferenceProofLeaf
  rightNeighbor : Option ReferenceProofLeaf

def ReferenceProofLeaf.fromStoredLeaf (canonicalKey : StateKeyBytes) (stored : StoredLeaf) :
    ReferenceProofLeaf :=
  ⟨stored.key, canonicalKey, stored.leafValue⟩

section
variable (sha256 : List UInt8 → Root)

/-- Both lengths are cast to `u32`, which keeps the low four bytes. -/
def referenceLeafDigest (canonicalKey : StateKeyBytes) (leaf : StoredLeaf) : Hashing Empty Root :=
  Hashing.hash sha256 (ascii "shell-state/reference-leaf/v1" ++
    beBytes 4 canonicalKey.length ++ canonicalKey ++
    beBytes 4 leaf.leafValue.length ++ leaf.leafValue)

def referenceRootRun (leaves : Leaves) : Hashing Empty Root := do
  let digests ← Logged.traverse (fun e => referenceLeafDigest sha256 e.1 e.2) leaves.entries
  Hashing.hash sha256 (ascii "shell-state/reference-root/v1" ++
    digests.flatMap List.Vector.toList)

def computeReferenceRoot (leaves : Leaves) : Root := (referenceRootRun sha256 leaves).value

end

namespace InMemoryAccumulator

def new : InMemoryAccumulator := ⟨.empty, zeros 32⟩

def stateRoot (acc : InMemoryAccumulator) : Root := acc.root

def applyLeaf (acc : InMemoryAccumulator) (key : StateKey) (value : MockProgressiveByteList) :
    InMemoryAccumulator :=
  { acc with leaves := acc.leaves.insert (encodeStateKey key) ⟨key, value⟩ }

def recomputeRoot (sha256 : List UInt8 → Root) (acc : InMemoryAccumulator) : InMemoryAccumulator :=
  { acc with root := computeReferenceRoot sha256 acc.leaves }

def applyTransition (sha256 : List UInt8 → Root) (acc : InMemoryAccumulator) (patch : StatePatch) :
    Except StateError Root × InMemoryAccumulator :=
  match patch.validateShape with
  | .error e => (.error e, acc)
  | .ok () =>
    match ensureCanonicalAccessOrder patch.accesses with
    | .error e => (.error e, acc)
    | .ok () =>
      let written := (patch.accesses.zip patch.newValues).foldl
        (fun acc write => acc.applyLeaf write.1 write.2) acc
      let done := written.recomputeRoot sha256
      (.ok done.root, done)

/-! ## Proof paths -/

def proofPathForAccess (acc : InMemoryAccumulator) (access : StateKey) :
    Except StateError ReferenceProofPath :=
  let canonicalKey := encodeStateKey access
  match acc.leaves.get? canonicalKey with
  | none =>
    .error (.backend "reference backend only supports proof paths for materialized keys")
  | some storedLeaf =>
    .ok
      { expectedRoot := acc.root
        leaf := .fromStoredLeaf canonicalKey storedLeaf
        leftNeighbor := (acc.leaves.lastBelow canonicalKey).map fun e => .fromStoredLeaf e.1 e.2
        rightNeighbor := (acc.leaves.firstAbove canonicalKey).map fun e => .fromStoredLeaf e.1 e.2 }

end InMemoryAccumulator

namespace ReferenceProofPath

def failed (context : String) : Except StateError Unit :=
  .error (.witnessVerificationFailed context)

def checkLeft (neighbor : Option ReferenceProofLeaf) (key : StateKey) : Except StateError Unit :=
  match neighbor with
  | some left =>
    if (compareStateKeys left.key key).isLT then .ok ()
    else failed "reference proof left boundary is not ordered before the witness key"
  | none => .ok ()

def checkRight (neighbor : Option ReferenceProofLeaf) (key : StateKey) : Except StateError Unit :=
  match neighbor with
  | some right =>
    if (compareStateKeys key right.key).isLT then .ok ()
    else failed "reference proof right boundary is not ordered after the witness key"
  | none => .ok ()

def verifyWitness (path : ReferenceProofPath) (witness : StateWitness) (expectedStateRoot : Root) :
    Except StateError Unit := do
  if path.expectedRoot ≠ expectedStateRoot then
    failed "reference proof path was built against a different state root"
  else if path.leaf.key ≠ witness.key then
    failed "reference proof leaf does not match witness key"
  else if path.leaf.leafValue ≠ witness.leafValue then
    failed "reference proof leaf does not match witness value"
  else do
    checkLeft path.leftNeighbor witness.key
    checkRight path.rightNeighbor witness.key

end ReferenceProofPath

/-! ## Witnesses -/

def ensureReferenceBackendProofShape (witness : StateWitness) : Except StateError Unit :=
  match witness.proofShape with
  | .referenceEmpty => .ok ()
  | .placeholderCommittedNodes => .error (.unsupportedProofShape
      ("reference backend derives proof paths locally and does not interpret " ++
        "committed proof bytes"))

namespace InMemoryAccumulator

def deriveProofPath (acc : InMemoryAccumulator) (witness : StateWitness) :
    Except StateError ReferenceProofPath := do
  ensureReferenceBackendProofShape witness
  let proofPath ← acc.proofPathForAccess witness.key
  proofPath.verifyWitness witness acc.root
  .ok proofPath

def verifyWitness (acc : InMemoryAccumulator) (expectedStateRoot : Root) (witness : StateWitness) :
    Except StateError Unit := do
  let proofPath ← acc.deriveProofPath witness
  proofPath.verifyWitness witness expectedStateRoot

def verifyWitnesses (acc : InMemoryAccumulator) (witnesses : List StateWitness)
    (expectedStateRoot : Root) : Except StateError Unit := do
  ensureCanonicalWitnessOrder witnesses
  witnesses.forM (acc.verifyWitness expectedStateRoot)

def witnessForAccess (acc : InMemoryAccumulator) (access : StateKey) :
    Except StateError StateWitness := do
  let proofPath ← acc.proofPathForAccess access
  .ok ⟨access, proofPath.leaf.leafValue, []⟩

def getWitnessForAccesses (acc : InMemoryAccumulator) (accesses : List StateKey) :
    Except StateError (List StateWitness) := do
  ensureCanonicalAccessOrder accesses
  accesses.mapM acc.witnessForAccess

end InMemoryAccumulator

/-! ## The sequential applier -/

structure StateTransitionOutcome where
  postStateRoot : Root
  deriving DecidableEq

/-- The accumulator behind a cell that nothing else borrows. -/
structure ReferenceStateApplier where
  accumulator : InMemoryAccumulator

def ReferenceStateApplier.applyTransition (sha256 : List UInt8 → Root)
    (applier : ReferenceStateApplier) (preStateRoot : Root) (patch : StatePatch) :
    Except StateError StateTransitionOutcome × ReferenceStateApplier :=
  let actualRoot := applier.accumulator.stateRoot
  if actualRoot ≠ preStateRoot then
    (.error (.rootContinuityMismatch ⟨preStateRoot, actualRoot⟩), applier)
  else
    let applied := applier.accumulator.applyTransition sha256 patch
    (applied.1.map StateTransitionOutcome.mk, ⟨applied.2⟩)

end ShellState
