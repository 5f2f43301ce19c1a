import ShellChain.Cli.ReferenceEngine

/-!
# The two materialisers

`shell-fixtures` builds the accumulator whose root a scenario has to declare,
`shell-cli` the one whose root it compares with the declared one. Both write the
whole state as one patch, but the runtime returns early on the empty state, so
there it keeps the root of a new accumulator, which no patch has recomputed.
-/

namespace ShellFixtures

open ByteCodec ShellPrimitives ShellState ShellCli

/-- What the message of the panic is formatted from. -/
structure MaterializePanic where
  fixtureId : String
  err : StateError
  deriving DecidableEq

/-- The error side is the panic of `unwrap_or_else`. -/
def materializeRootCheckAccumulator (sha256 : List UInt8 → Root)
    (materializedState : List (StateKey × MockProgressiveByteList)) (fixtureId : String) :
    Except MaterializePanic InMemoryAccumulator :=
  let applied := InMemoryAccumulator.new.applyTransition sha256 (entriesPatch materializedState)
  match applied.1 with
  | .error err => .error ⟨fixtureId, err⟩
  | .ok _ => .ok applied.2

/-- Both fail, or both end with the same leaves and the same root. -/
structure MaterializersAgree (runtime : Except StateError InMemoryAccumulator)
    (fixtures : Except MaterializePanic InMemoryAccumulator) : Prop where
  failure : (∃ e, runtime = .error e) ↔ ∃ p, fixtures = .error p
  accumulator : ∀ a b, runtime = .ok a → fixtures = .ok b →
    a.leaves = b.leaves ∧ a.stateRoot = b.stateRoot

variable (sha256 : List UInt8 → Root)

/-- Past the early return the runtime applies the same patch to the same accumulator. -/
theorem materializeRootCheckAccumulator_of_ne_nil
    {entries : List (StateKey × MockProgressiveByteList)} (nonempty : entries ≠ [])
    (fixtureId : String) :
    materializeRootCheckAccumulator sha256 entries fixtureId =
      (materializeAccumulator sha256 entries).mapError (MaterializePanic.mk fixtureId) := by
  have hentered : ¬ entries.isEmpty = true := by simpa using nonempty
  simp only [materializeAccumulator, materializeRootCheckAccumulator, if_neg hentered]
  cases (InMemoryAccumulator.new.applyTransition sha256 (entriesPatch entries)).1 with
  | error e => rfl
  | ok root => rfl

theorem materializersAgree_mapError (runtime : Except StateError InMemoryAccumulator)
    (report : StateError → MaterializePanic) :
    MaterializersAgree runtime (runtime.mapError report) := by
  cases runtime with
  | error e =>
    refine ⟨⟨fun _ => ⟨report e, rfl⟩, fun _ => ⟨e, rfl⟩⟩, ?_⟩
    intro a b ha
    cases ha
  | ok acc =>
    refine ⟨⟨?_, ?_⟩, ?_⟩
    · rintro ⟨e, he⟩
      cases he
    · rintro ⟨p, hp⟩
      cases hp
    · intro a b ha hb
      obtain rfl := Except.ok.inj ha
      obtain rfl := Except.ok.inj hb
      exact ⟨rfl, rfl⟩

/-- The root of no leaves is the digest of the bare tag. -/
theorem computeReferenceRoot_empty :
    computeReferenceRoot sha256 SortedMap.empty =
      sha256 (ascii "shell-state/reference-root/v1") := by
  have hinput : ascii "shell-state/reference-root/v1" ++
      ([] : List Root).flatMap List.Vector.toList = ascii "shell-state/reference-root/v1" :=
    List.append_nil _
  exact congrArg sha256 hinput

theorem materializeRootCheckAccumulator_nil (fixtureId : String) :
    materializeRootCheckAccumulator sha256 [] fixtureId =
      .ok ⟨SortedMap.empty, sha256 (ascii "shell-state/reference-root/v1")⟩ := by
  have hcanonical : (entriesPatch []).Canonical := ⟨rfl, List.Pairwise.nil⟩
  have hleaves : (entriesPatch []).writeTo InMemoryAccumulator.new.leaves = SortedMap.empty := rfl
  rw [materializeRootCheckAccumulator, applyTransition_of_canonical sha256 .new hcanonical,
    hleaves, computeReferenceRoot_empty]

theorem not_materializersAgree_nil
    (tag : sha256 (ascii "shell-state/reference-root/v1") ≠ zeros 32) (fixtureId : String) :
    ¬ MaterializersAgree (materializeAccumulator sha256 [])
      (materializeRootCheckAccumulator sha256 [] fixtureId) := by
  intro hagree
  have hroots := hagree.accumulator .new _ rfl
    (materializeRootCheckAccumulator_nil sha256 fixtureId)
  exact tag hroots.2.symm

/-- The two materialisers agree on a state if and only if it is not empty. -/
theorem materializers_agree_iff
    (tag : sha256 (ascii "shell-state/reference-root/v1") ≠ zeros 32)
    (entries : List (StateKey × MockProgressiveByteList)) (fixtureId : String) :
    MaterializersAgree (materializeAccumulator sha256 entries)
        (materializeRootCheckAccumulator sha256 entries fixtureId) ↔ entries ≠ [] := by
  constructor
  · rintro hagree rfl
    exact not_materializersAgree_nil sha256 tag fixtureId hagree
  · intro hnonempty
    rw [materializeRootCheckAccumulator_of_ne_nil sha256 hnonempty]
    exact materializersAgree_mapError _ _

theorem digest_rootTag_ne_zeros :
    Sha256.digest (ascii "shell-state/reference-root/v1") ≠ zeros 32 := by
  decide +kernel

theorem materializers_agree_iff_account :
    Sha256.digest (ascii "shell-state/reference-root/v1") ≠ zeros 32 ∧
      MaterializersAgree (materializeAccumulator Sha256.digest [(sampleAccount, [1])])
        (materializeRootCheckAccumulator Sha256.digest [(sampleAccount, [1])] "one-account") :=
  ⟨digest_rootTag_ne_zeros,
    (materializers_agree_iff Sha256.digest digest_rootTag_ne_zeros _ _).mpr (List.cons_ne_nil _ _)⟩

/-- On the empty state the runtime keeps the zero root and the fixtures have the tag's digest. -/
theorem empty_state_roots_differ :
    (∃ a b, materializeAccumulator Sha256.digest [] = .ok a ∧
      materializeRootCheckAccumulator Sha256.digest [] "empty-state" = .ok b ∧
      a.stateRoot = zeros 32 ∧ b.stateRoot ≠ zeros 32) ∧
    ¬ MaterializersAgree (materializeAccumulator Sha256.digest [])
      (materializeRootCheckAccumulator Sha256.digest [] "empty-state") := by
  refine ⟨⟨.new, _, rfl, materializeRootCheckAccumulator_nil _ _, rfl, digest_rootTag_ne_zeros⟩, ?_⟩
  exact not_materializersAgree_nil Sha256.digest digest_rootTag_ne_zeros "empty-state"

end ShellFixtures
