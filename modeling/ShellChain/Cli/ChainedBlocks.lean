import ShellChain.Cli.Revalidation
import ShellChain.Execution.FailedBlock
import ShellChain.Execution.ReceiptBinding
import ShellChain.Library.CommittedChain
import ShellChain.State.PatchAlgebra
import ShellChain.State.RootBinding

/-!
# A chain of imported blocks

Block import keeps no state: each call is handed the state it starts from, as a
list of entries, and all it does is compare roots. Between two blocks there is
only the state root of a header. Nevertheless a sequence of accepted blocks,
each of which declares the root its predecessor committed to, is one run: every
block starts from the very state its predecessor ended with, and the state
after any of them is a last-writer-wins map over the first block's entries and
all planned writes since.
-/

namespace ShellCli

open ByteCodec ShellPrimitives ShellState ShellExecution ShellConsensus SortedMap Hashing
open CommittedChain

/-! ## Roots of settled accumulators -/

/-- What the cached root of a reachable accumulator is: that of its leaves, unless nothing has
been applied to it. -/
structure Settled (sha256 : List UInt8 → Root) (acc : InMemoryAccumulator) : Prop where
  filed : Filed acc.leaves
  root : acc = .new ∨ acc.root = computeReferenceRoot sha256 acc.leaves

/-- The strings hashed for the roots of some accumulators. -/
def rootStrings (sha256 : List UInt8 → Root) (accs : Set InMemoryAccumulator) :
    Set (List UInt8) :=
  {s | ∃ acc ∈ accs, s ∈ preimages (referenceRootRun sha256 acc.leaves)}

/-- No two of the strings collide and none of them hashes to the root of a new accumulator. -/
structure Unbroken (sha256 : List UInt8 → Root) (strings : Set (List UInt8)) : Prop where
  collisionFree : strings.InjOn sha256
  nonzero : ∀ s ∈ strings, sha256 s ≠ zeros 32

/-- A root is the digest of the last string hashed for it. -/
theorem exists_preimage_computeReferenceRoot (sha256 : List UInt8 → Root) (leaves : Leaves) :
    ∃ s ∈ preimages (referenceRootRun sha256 leaves),
      computeReferenceRoot sha256 leaves = sha256 s := by
  refine ⟨_, ?_, rfl⟩
  rw [referenceRootRun, preimages_bind]
  exact List.mem_append_right _ (List.mem_singleton.mpr rfl)

section
variable {sha256 : List UInt8 → Root}

theorem Unbroken.mono {strings strings' : Set (List UInt8)} (unbroken : Unbroken sha256 strings')
    (sub : strings ⊆ strings') : Unbroken sha256 strings :=
  ⟨unbroken.collisionFree.mono sub, fun s hs => unbroken.nonzero s (sub hs)⟩

theorem rootStrings_mono {accs accs' : Set InMemoryAccumulator} (sub : accs ⊆ accs') :
    rootStrings sha256 accs ⊆ rootStrings sha256 accs' := by
  rintro s ⟨acc, hacc, hs⟩
  exact ⟨acc, sub hacc, hs⟩

theorem Unbroken.root_ne_zeros {strings : Set (List UInt8)} (unbroken : Unbroken sha256 strings)
    {leaves : Leaves} (within : Within strings (referenceRootRun sha256 leaves)) :
    computeReferenceRoot sha256 leaves ≠ zeros 32 := by
  obtain ⟨s, hs, hroot⟩ := exists_preimage_computeReferenceRoot sha256 leaves
  rw [hroot]
  exact unbroken.nonzero s (within s hs)

/-- Among settled accumulators the root decides everything. -/
theorem injOn_root {accs : Set InMemoryAccumulator} (settled : ∀ acc ∈ accs, Settled sha256 acc)
    (unbroken : Unbroken sha256 (rootStrings sha256 accs)) :
    accs.InjOn InMemoryAccumulator.root := by
  have hwithin : ∀ acc ∈ accs, Within (rootStrings sha256 accs)
      (referenceRootRun sha256 acc.leaves) := fun acc hacc s hs => ⟨acc, hacc, hs⟩
  intro a ha b hb hroots
  rcases (settled a ha).root with rfl | hrootA
  · rcases (settled b hb).root with rfl | hrootB
    · rfl
    · exact absurd (hrootB.symm.trans hroots.symm) (unbroken.root_ne_zeros (hwithin b hb))
  · rcases (settled b hb).root with rfl | hrootB
    · exact absurd (hrootA.symm.trans hroots) (unbroken.root_ne_zeros (hwithin a ha))
    · have hleaves : a.leaves = b.leaves :=
        binds_referenceRootRun unbroken.collisionFree (settled a ha).filed (settled b hb).filed
          (hwithin a ha) (hwithin b hb) ((hrootA.symm.trans hroots).trans hrootB)
      obtain ⟨leaves, root⟩ := a
      obtain ⟨leaves', root'⟩ := b
      obtain rfl : leaves = leaves' := hleaves
      obtain rfl : root = root' := hroots
      rfl

theorem settled_materialized (entries : List (StateKey × MockProgressiveByteList)) :
    Settled sha256 (materialized sha256 entries) := by
  cases entries with
  | nil => exact ⟨filed_empty, Or.inl rfl⟩
  | cons e rest => exact ⟨filed_insertAll filed_empty (e :: rest), Or.inr rfl⟩

theorem Settled.step {acc : InMemoryAccumulator} (settled : Settled sha256 acc)
    (planned : PlannedTransaction) : Settled sha256 (stepAccumulator sha256 acc planned) :=
  ⟨filed_insertAll settled.filed _, Or.inr rfl⟩

theorem Settled.finalAccumulator {acc : InMemoryAccumulator} (settled : Settled sha256 acc)
    (steps : List PlannedTransaction) : Settled sha256 (finalAccumulator sha256 acc steps) := by
  induction steps generalizing acc with
  | nil => exact settled
  | cons planned rest ih => exact ih (settled.step planned)

end

/-- The leaves of a plan's end, key by key. -/
theorem get?_finalAccumulator (sha256 : List UInt8 → Root)
    (entries : List (StateKey × MockProgressiveByteList)) (steps : List PlannedTransaction)
    (key : StateKey) :
    (finalAccumulator sha256 (materialized sha256 entries) steps).leaves.get? (encodeStateKey key) =
      (lastWritten (entries ++ steps.flatMap fun p => p.plan.statePatch.writes) key).map
        (StoredLeaf.mk key) := by
  rw [finalAccumulator_leaves, materialized_leaves, overridden, materializedLeaves,
    ← insertAll_append, ← List.map_append, get?_insertAll, get?_empty, Option.or_none,
    lastWritten_filed]

/-! ## What a call of block import runs -/

/-- One call of `validate_block_against_reference`. -/
structure BlockCall where
  runtime : LocalReferenceRuntime
  scenario : LocalReferenceScenario
  header : ConsensusHeader
  body : ConsensusBody
  sidecar : ConsensusSidecar
  admissionTransactions : AdmissionTable

namespace BlockCall
variable (sha256 : List UInt8 → Root)

def Accepted (call : BlockCall) : Prop :=
  ∃ o, call.runtime.validateBlockAgainstReference sha256 call.scenario call.header call.body
    call.sidecar call.admissionTransactions = .ok o

def preState (call : BlockCall) : InMemoryAccumulator :=
  materialized sha256 call.scenario.materializedState

def postState (call : BlockCall) : InMemoryAccumulator :=
  finalAccumulator sha256 (call.preState sha256) call.scenario.plannedTransactions

/-- The call as a link: what it declares is the scenario's pre-state root, what it announces is
the header's state root. -/
def toLink (call : BlockCall) : Link InMemoryAccumulator (List PlannedTransaction) Root where
  pre := call.preState sha256
  action := call.scenario.plannedTransactions
  declared := call.scenario.preStateRoot
  announced := call.header.stateRoot

/-- The writes a block plans, oldest first. -/
def plannedWrites (call : BlockCall) : List (StateKey × MockProgressiveByteList) :=
  call.scenario.plannedTransactions.flatMap fun p => p.plan.statePatch.writes

/-- The states before and after some calls. -/
def states (calls : List BlockCall) : Set InMemoryAccumulator :=
  {acc | ∃ call ∈ calls, acc = call.preState sha256 ∨ acc = call.postState sha256}

variable {sha256}

/-- An accepted call has compared both roots with those of the states it ran between. -/
theorem Accepted.executed {call : BlockCall} (accepted : call.Accepted sha256) :
    (call.scenario.materializedState.map Prod.fst).Pairwise StateKey.Before ∧
      (call.preState sha256).root = call.scenario.preStateRoot ∧
      (call.postState sha256).root = call.header.stateRoot ∧
      computeReceiptsRoot sha256 (call.scenario.plannedTransactions.map fun p => p.plan.receipt) =
        call.header.receiptsRoot := by
  obtain ⟨o, ho⟩ := accepted
  obtain ⟨_, _, executed, haccepted, -⟩ := (importBlock_eq_ok_iff o).mp ho
  obtain ⟨hincreasing, hroot, -, rfl⟩ :=
    (ReferenceExecutionEngine.executeBlock_eq_ok_iff sha256 executed).mp haccepted.execution
  exact ⟨hincreasing, hroot, haccepted.postState, haccepted.receipts⟩

theorem Accepted.checked {call : BlockCall} (accepted : call.Accepted sha256) :
    (call.toLink sha256).Checked InMemoryAccumulator.root (finalAccumulator sha256) where
  opens := accepted.executed.2.1
  closes := accepted.executed.2.2.1

theorem settled_states (calls : List BlockCall) :
    ∀ acc ∈ states sha256 calls, Settled sha256 acc := by
  rintro acc ⟨call, -, rfl | rfl⟩
  · exact settled_materialized _
  · exact (settled_materialized _).finalAccumulator _

theorem states_mono {calls calls' : List BlockCall} (sub : calls ⊆ calls') :
    states sha256 calls ⊆ states sha256 calls' := by
  rintro acc ⟨call, hcall, hacc⟩
  exact ⟨call, sub hcall, hacc⟩

/-- The links of some calls show the states of the calls. -/
theorem shown_toLink (calls : List BlockCall) :
    shown (finalAccumulator sha256) (calls.map (toLink sha256)) = states sha256 calls := by
  ext acc
  constructor
  · rintro ⟨l, hl, hacc⟩
    obtain ⟨call, hcall, rfl⟩ := List.mem_map.mp hl
    exact ⟨call, hcall, hacc⟩
  · rintro ⟨call, hcall, hacc⟩
    exact ⟨call.toLink sha256, List.mem_map.mpr ⟨call, hcall, rfl⟩, hacc⟩

end BlockCall

/-! ## Chains -/

theorem foldl_finalAccumulator (sha256 : List UInt8 → Root) (plans : List (List PlannedTransaction))
    (acc : InMemoryAccumulator) :
    plans.foldl (finalAccumulator sha256) acc = finalAccumulator sha256 acc plans.flatten := by
  rw [finalAccumulator, List.foldl_flatten]
  rfl

section
variable {sha256 : List UInt8 → Root} {first : BlockCall} {rest : List BlockCall}

/-- The links of a chain of accepted blocks are linked states. -/
theorem isChain_toLink (accepted : ∀ call ∈ first :: rest, call.Accepted sha256)
    (linked : (first :: rest).IsChain fun a b => b.scenario.preStateRoot = a.header.stateRoot)
    (unbroken : Unbroken sha256 (rootStrings sha256 (BlockCall.states sha256 (first :: rest)))) :
    ((first :: rest).map (BlockCall.toLink sha256)).IsChain fun a b =>
      b.pre = a.post (finalAccumulator sha256) := by
  have hinj : (shown (finalAccumulator sha256)
      ((first :: rest).map (BlockCall.toLink sha256))).InjOn InMemoryAccumulator.root := by
    rw [BlockCall.shown_toLink]
    exact injOn_root (BlockCall.settled_states _) unbroken
  have hchecked : ∀ l ∈ (first :: rest).map (BlockCall.toLink sha256),
      l.Checked InMemoryAccumulator.root (finalAccumulator sha256) := by
    intro l hl
    obtain ⟨call, hcall, rfl⟩ := List.mem_map.mp hl
    exact (accepted call hcall).checked
  exact isChain_states hchecked ((List.isChain_map _).mpr linked) hinj

/-- The history of a chain up to a block: the entries it starts from, then all planned writes. -/
def history (first : BlockCall) (calls : List BlockCall) :
    List (StateKey × MockProgressiveByteList) :=
  first.scenario.materializedState ++ calls.flatMap BlockCall.plannedWrites

theorem get?_postState
    (states : ((first :: rest).map (BlockCall.toLink sha256)).IsChain fun a b =>
      b.pre = a.post (finalAccumulator sha256))
    {i : Nat} {call : BlockCall} (hcall : (first :: rest)[i]? = some call) (key : StateKey) :
    (call.postState sha256).leaves.get? (encodeStateKey key) =
      (lastWritten (history first ((first :: rest).take (i + 1))) key).map (StoredLeaf.mk key) := by
  have hlink : (first.toLink sha256 :: rest.map (BlockCall.toLink sha256))[i]? =
      some (call.toLink sha256) := by
    rw [← List.map_cons, List.getElem?_map, hcall, Option.map_some]
  have hpost : call.postState sha256 = _ := post_eq_foldl states hlink
  have hplans : (((first.toLink sha256 :: rest.map (BlockCall.toLink sha256)).take (i + 1)).map
      Link.action).flatten =
        ((first :: rest).take (i + 1)).flatMap fun call => call.scenario.plannedTransactions := by
    rw [← List.map_cons, ← List.map_take, List.map_map, List.flatMap_def]
    rfl
  rw [hpost, foldl_finalAccumulator, hplans]
  change (finalAccumulator sha256 (materialized sha256 _) _).leaves.get? _ = _
  rw [get?_finalAccumulator, List.flatMap_assoc]
  rfl

/-- The last state of a chain, key by key. -/
theorem get?_postState_last
    (states : ((first :: rest).map (BlockCall.toLink sha256)).IsChain fun a b =>
      b.pre = a.post (finalAccumulator sha256))
    {last : BlockCall} (hlast : (first :: rest).getLast? = some last) (key : StateKey) :
    (last.postState sha256).leaves.get? (encodeStateKey key) =
      (lastWritten (history first (first :: rest)) key).map (StoredLeaf.mk key) := by
  rw [List.getLast?_eq_getElem?] at hlast
  have hread := get?_postState states hlast key
  rw [List.take_of_length_le (by simp)] at hread
  exact hread

end

/-- Accepted blocks linked by nothing but roots run on one state: each starts from the state its
predecessor ended with, and the state after any of them is the last-writer-wins map over the first
block's entries and every write planned up to there. -/
theorem accepted_chain_is_one_run (sha256 : List UInt8 → Root) (first : BlockCall)
    (rest : List BlockCall) (accepted : ∀ call ∈ first :: rest, call.Accepted sha256)
    (linked : (first :: rest).IsChain fun a b => b.scenario.preStateRoot = a.header.stateRoot)
    (unbroken : Unbroken sha256 (rootStrings sha256 (BlockCall.states sha256 (first :: rest)))) :
    ((first :: rest).IsChain fun a b => b.preState sha256 = a.postState sha256) ∧
    ∀ (i : Nat) (call : BlockCall), (first :: rest)[i]? = some call →
      call.header.stateRoot = (call.postState sha256).root ∧
      ∀ key, (call.postState sha256).leaves.get? (encodeStateKey key) =
        (lastWritten (history first ((first :: rest).take (i + 1))) key).map
          (StoredLeaf.mk key) := by
  have hstates := isChain_toLink accepted linked unbroken
  refine ⟨(List.isChain_map _).mp hstates, ?_⟩
  intro i call hcall
  have haccepted := accepted call (List.mem_of_getElem? hcall)
  exact ⟨haccepted.executed.2.2.1.symm, get?_postState hstates hcall⟩

/-- Two chains of accepted blocks, whoever runs them and however long they are: if their last
headers commit to one state root, they have written the same values. -/
theorem chains_agree_on_state (sha256 : List UInt8 → Root) (first first' : BlockCall)
    (rest rest' : List BlockCall)
    (accepted : ∀ call ∈ first :: rest, call.Accepted sha256)
    (accepted' : ∀ call ∈ first' :: rest', call.Accepted sha256)
    (linked : (first :: rest).IsChain fun a b => b.scenario.preStateRoot = a.header.stateRoot)
    (linked' : (first' :: rest').IsChain fun a b => b.scenario.preStateRoot = a.header.stateRoot)
    (unbroken : Unbroken sha256 (rootStrings sha256
      (BlockCall.states sha256 ((first :: rest) ++ first' :: rest'))))
    (last last' : BlockCall) (hlast : (first :: rest).getLast? = some last)
    (hlast' : (first' :: rest').getLast? = some last')
    (same : last.header.stateRoot = last'.header.stateRoot) (key : StateKey) :
    lastWritten (history first (first :: rest)) key =
      lastWritten (history first' (first' :: rest')) key := by
  have hleft : first :: rest ⊆ (first :: rest) ++ first' :: rest' := List.subset_append_left _ _
  have hright : first' :: rest' ⊆ (first :: rest) ++ first' :: rest' :=
    List.subset_append_right _ _
  have hstates := isChain_toLink accepted linked
    (unbroken.mono (rootStrings_mono (BlockCall.states_mono hleft)))
  have hstates' := isChain_toLink accepted' linked'
    (unbroken.mono (rootStrings_mono (BlockCall.states_mono hright)))
  have hmem := List.mem_of_getLast? hlast
  have hmem' := List.mem_of_getLast? hlast'
  have hpost : last.postState sha256 = last'.postState sha256 := by
    apply injOn_root (BlockCall.settled_states _) unbroken ⟨last, hleft hmem, Or.inr rfl⟩
      ⟨last', hright hmem', Or.inr rfl⟩
    calc (last.postState sha256).root
      _ = last.header.stateRoot := (accepted last hmem).executed.2.2.1
      _ = last'.header.stateRoot := same
      _ = (last'.postState sha256).root := (accepted' last' hmem').executed.2.2.1.symm
  apply Option.map_injective (fun v v' h => (StoredLeaf.mk.inj h).2)
  rw [← get?_postState_last hstates hlast, ← get?_postState_last hstates' hlast', hpost]

/-! ## Handing a state on -/

/-- The leaves of an accumulator as a scenario would list them. -/
def dump (acc : InMemoryAccumulator) : List (StateKey × MockProgressiveByteList) :=
  acc.leaves.entries.map fun e => (e.2.key, e.2.leafValue)

theorem map_filedWrite_dump {acc : InMemoryAccumulator} (filed : Filed acc.leaves) :
    (dump acc).map filedWrite = acc.leaves.entries := by
  rw [dump, List.map_map]
  conv_rhs => rw [← List.map_id acc.leaves.entries]
  apply List.map_congr_left
  rintro ⟨bytes, leaf⟩ hentry
  obtain rfl : bytes = encodeStateKey leaf.key := filed _ hentry
  rfl

theorem pairwise_dump {acc : InMemoryAccumulator} (filed : Filed acc.leaves) :
    ((dump acc).map Prod.fst).Pairwise StateKey.Before := by
  rw [dump, List.map_map, List.pairwise_map]
  refine acc.leaves.sorted.imp_of_mem ?_
  intro a b ha hb hlt
  rw [filed a ha, filed b hb] at hlt
  exact hlt

theorem materialized_dump {sha256 : List UInt8 → Root} {acc : InMemoryAccumulator}
    (settled : Settled sha256 acc) (nonempty : acc.leaves ≠ SortedMap.empty) :
    materialized sha256 (dump acc) = acc := by
  have hleaves : materializedLeaves (dump acc) = acc.leaves := by
    rw [materializedLeaves, map_filedWrite_dump settled.filed, insertAll_entries]
  have hentries : ¬ (dump acc).isEmpty = true := by
    intro hempty
    apply nonempty
    rw [← hleaves, List.isEmpty_iff.mp hempty]
    rfl
  rw [materialized, if_neg hentries, hleaves]
  rcases settled.root with rfl | hroot
  · exact absurd rfl nonempty
  · rw [← hroot]

theorem settled_runPatches (sha256 : List UInt8 → Root) (patches : List StatePatch) :
    Settled sha256 (runPatches sha256 .new patches) := by
  have tracks := run_tracks sha256 patches
  refine ⟨tracks.filed sha256, ?_⟩
  by_cases haccepted : ∃ p ∈ patches, p.Canonical
  · exact Or.inr (tracks.root haccepted)
  · left
    have hnone : acceptedWrites patches = [] := by
      simpa [acceptedWrites, List.filter_eq_nil_iff] using
        fun p hp hp' => absurd ⟨p, hp, hp'⟩ haccepted
    rw [runPatches_eq, if_neg haccepted, writeAccepted, hnone]
    rfl

theorem materializedLeaves_ne_empty {entries : List (StateKey × MockProgressiveByteList)}
    (nonempty : entries ≠ []) : materializedLeaves entries ≠ SortedMap.empty := by
  obtain ⟨⟨key, value⟩, hentry⟩ := List.exists_mem_of_ne_nil entries nonempty
  intro hempty
  have hget := congrArg (fun m => m.get? (encodeStateKey key)) hempty
  simp only [materializedLeaves, get?_insertAll, get?_empty, Option.or_none, lastWritten_filed,
    Option.map_eq_none_iff] at hget
  exact lastWritten_ne_none hentry hget

/-- A reachable state can be handed to block import as a list of entries exactly when it holds
something or is still the new one: no list of entries is materialised to the state that patches
leave which write nothing. -/
theorem state_can_be_handed_on_iff (sha256 : List UInt8 → Root) (patches : List StatePatch) :
    (∃ entries, materializeAccumulator sha256 entries =
        .ok (runPatches sha256 .new patches)) ↔
      (runPatches sha256 .new patches).leaves ≠ SortedMap.empty ∨
        runPatches sha256 .new patches = .new := by
  constructor
  · rintro ⟨entries, hentries⟩
    obtain ⟨-, hstate⟩ := (materializeAccumulator_eq_ok_iff sha256 _ _).mp hentries
    rw [hstate]
    by_cases hempty : entries = []
    · rw [hempty]
      exact Or.inr rfl
    · rw [materialized_leaves]
      exact Or.inl (materializedLeaves_ne_empty hempty)
  · have hsettled := settled_runPatches sha256 patches
    rintro (hnonempty | hnew)
    · refine ⟨dump (runPatches sha256 .new patches), ?_⟩
      rw [materializeAccumulator_eq_ok_iff]
      exact ⟨pairwise_dump hsettled.filed, (materialized_dump hsettled hnonempty).symm⟩
    · rw [hnew]
      exact ⟨[], rfl⟩

/-! ## A chain of two blocks -/

/-- A block over any entries and any plan, imported with the services of `echoRuntime`. -/
def plainBlock (entries : List (StateKey × MockProgressiveByteList))
    (planned : List PlannedTransaction) (transactions : List TransactionEnvelope) : BlockCall where
  runtime := echoRuntime
  scenario := { unsignedScenario with
    preStateRoot := (materialized Sha256.digest entries).root
    materializedState := entries
    plannedTransactions := planned }
  header := { unsignedScenario.block.header.toConsensus with
    stateRoot :=
      (finalAccumulator Sha256.digest (materialized Sha256.digest entries) planned).root
    receiptsRoot := computeReceiptsRoot Sha256.digest (planned.map fun p => p.plan.receipt) }
  body := ⟨.ok (zeros 32), transactions⟩
  sidecar := unsignedScenario.block.sidecar.toConsensus
  admissionTransactions := unsignedTable

theorem accepted_plainBlock {entries : List (StateKey × MockProgressiveByteList)}
    {planned : List PlannedTransaction} {transactions : List TransactionEnvelope}
    (increasing : (entries.map Prod.fst).Pairwise StateKey.Before)
    (follows : List.Forall₂ (Follows Sha256.digest) transactions planned)
    (known : ∀ t ∈ transactions, ∃ entry,
      unsignedTable.get? (Ssz.payloadRootRun Sha256.digest t.payload).value = some entry ∧
      ∃ v, Logged.outcome (echoRuntime.validateTransaction Sha256.digest entry.1 entry.2) =
        .ok v) :
    (plainBlock entries planned transactions).Accepted Sha256.digest := by
  have hmaterialized : materializeAccumulator Sha256.digest entries =
      .ok (materialized Sha256.digest entries) :=
    (materializeAccumulator_eq_ok_iff _ _ _).mpr ⟨increasing, rfl⟩
  refine ⟨_, (importBlock_eq_ok_iff _).mpr ⟨padTo 32 [1], ⟨1, [0xBB]⟩,
    ReferenceExecutionEngine.plannedOutcome Sha256.digest
      ⟨(materialized Sha256.digest entries).root, entries, planned⟩, ?_, rfl⟩⟩
  refine
    { headerRoot := rfl
      witnessBytes := fun maxBytes hmax => by cases hmax
      bodyRoot := rfl
      resolved := rfl
      signed := rfl
      revalidated := fun t ht => (revalidate_eq_ok_iff _ _ .requireAll).mpr (known t ht)
      sidecarRoot := rfl
      commitment := rfl
      prepared := ?_
      execution := ?_
      postState := rfl
      receipts := rfl }
  · exact (prepareWitness_eq_ok_iff Sha256.digest
      ⟨(materialized Sha256.digest entries).root, entries, []⟩ _
      unsignedScenario.block.sidecar.toConsensus).mpr ⟨rfl, _, hmaterialized, rfl, rfl⟩
  · exact (ReferenceExecutionEngine.executeBlock_eq_ok_iff Sha256.digest _).mpr
      ⟨increasing, rfl, follows, rfl⟩

/-- Overwrites the account. -/
def overwriteBlock : BlockCall :=
  plainBlock [(sampleAccount, [7])]
    [⟨(Ssz.envelopeRootRun Sha256.digest unsignedTransfer).value,
      ⟨⟨[sampleAccount], [[1]]⟩, ⟨1, [9]⟩⟩⟩] [unsignedTransfer]

/-- Starts from the overwritten account and does nothing. -/
def idleBlock : BlockCall := plainBlock [(sampleAccount, [1])] [] []

theorem accepted_overwriteBlock : overwriteBlock.Accepted Sha256.digest := by
  have hcanonical : (⟨[sampleAccount], [[1]]⟩ : StatePatch).Canonical := by decide
  refine accepted_plainBlock (by decide) (.cons ⟨rfl, hcanonical⟩ .nil) ?_
  intro t ht
  obtain rfl := List.mem_singleton.mp ht
  have hfound : unsignedTable.get?
      (Ssz.payloadRootRun Sha256.digest unsignedTransfer.payload).value =
      some (ShellMempool.AdmissionPipeline.authorizedTransfer, [⟨[0xAA]⟩]) := by
    rw [unsignedTable, get?_insert, if_pos rfl]
  exact ⟨_, hfound, admitted_authorizedTransfer⟩

theorem accepted_idleBlock : idleBlock.Accepted Sha256.digest :=
  accepted_plainBlock (by decide) .nil fun t ht => by cases ht

/-- The strings hashed for the roots of the two blocks. -/
def twoBlockStrings : List (List UInt8) :=
  preimages (referenceRootRun Sha256.digest
    (materialized Sha256.digest [(sampleAccount, [7])]).leaves) ++
  preimages (referenceRootRun Sha256.digest
    (materialized Sha256.digest [(sampleAccount, [1])]).leaves)

theorem unbroken_twoBlockStrings : Unbroken Sha256.digest {s | s ∈ twoBlockStrings} := by
  refine ⟨injOn_of_nodup (by decide +kernel), ?_⟩
  have hnonzero : ∀ s ∈ twoBlockStrings, Sha256.digest s ≠ zeros 32 := by decide +kernel
  exact hnonzero

theorem leaves_postState_overwriteBlock :
    (overwriteBlock.postState Sha256.digest).leaves =
      (materialized Sha256.digest [(sampleAccount, [1])]).leaves := by
  rw [BlockCall.postState, finalAccumulator_leaves]
  apply SortedMap.ext
  decide +kernel

/-- Any blocks made of these two hash no other strings. -/
theorem unbroken_twoBlocks {calls : List BlockCall}
    (among : ∀ call ∈ calls, call = overwriteBlock ∨ call = idleBlock) :
    Unbroken Sha256.digest (rootStrings Sha256.digest (BlockCall.states Sha256.digest calls)) := by
  apply unbroken_twoBlockStrings.mono
  rintro s ⟨acc, ⟨call, hcall, hacc⟩, hs⟩
  rcases among call hcall with rfl | rfl
  · rcases hacc with rfl | rfl
    · exact List.mem_append_left _ hs
    · rw [leaves_postState_overwriteBlock] at hs
      exact List.mem_append_right _ hs
  · rcases hacc with rfl | rfl <;> exact List.mem_append_right _ hs

theorem root_finalAccumulator_singleton (sha256 : List UInt8 → Root) (acc : InMemoryAccumulator)
    (planned : PlannedTransaction) :
    (finalAccumulator sha256 acc [planned]).root =
      computeReferenceRoot sha256 (finalAccumulator sha256 acc [planned]).leaves :=
  rfl

theorem root_materialized_cons (sha256 : List UInt8 → Root)
    (e : StateKey × MockProgressiveByteList) (rest : List (StateKey × MockProgressiveByteList)) :
    (materialized sha256 (e :: rest)).root =
      computeReferenceRoot sha256 (materialized sha256 (e :: rest)).leaves :=
  rfl

theorem stateRoot_overwriteBlock :
    idleBlock.scenario.preStateRoot = overwriteBlock.header.stateRoot := by
  have hleaves := leaves_postState_overwriteBlock
  rw [overwriteBlock, BlockCall.postState, BlockCall.preState] at hleaves
  rw [idleBlock, overwriteBlock, plainBlock, plainBlock, root_materialized_cons,
    root_finalAccumulator_singleton, ← hleaves]
  rfl

theorem accepted_twoBlocks : ∀ call ∈ [overwriteBlock, idleBlock], call.Accepted Sha256.digest := by
  intro call hcall
  rcases List.mem_pair.mp hcall with rfl | rfl
  · exact accepted_overwriteBlock
  · exact accepted_idleBlock

theorem linked_twoBlocks :
    [overwriteBlock, idleBlock].IsChain fun a b => b.scenario.preStateRoot = a.header.stateRoot :=
  .cons_cons stateRoot_overwriteBlock (.singleton _)

theorem accepted_chain_is_one_run_sample :
    idleBlock.preState Sha256.digest = overwriteBlock.postState Sha256.digest := by
  have hrun := accepted_chain_is_one_run Sha256.digest overwriteBlock [idleBlock]
    accepted_twoBlocks linked_twoBlocks
    (unbroken_twoBlocks fun call hcall => List.mem_pair.mp hcall)
  exact (List.isChain_cons_cons.mp hrun.1).1

/-- The second block on its own ends in the state both end in. -/
theorem chains_agree_on_state_sample :
    lastWritten (history overwriteBlock [overwriteBlock, idleBlock]) sampleAccount =
      lastWritten (history idleBlock [idleBlock]) sampleAccount := by
  refine chains_agree_on_state Sha256.digest overwriteBlock idleBlock [idleBlock] []
    accepted_twoBlocks ?_ linked_twoBlocks (.singleton _) (unbroken_twoBlocks ?_)
    idleBlock idleBlock rfl rfl rfl sampleAccount
  · intro call hcall
    rw [List.mem_singleton.mp hcall]
    exact accepted_idleBlock
  · intro call hcall
    simpa using hcall

end ShellCli
