import ShellChain.Fixtures.RootCheck
import ShellChain.Library.Pointwise
import ShellChain.State.Witness

/-!
# What resolution guarantees

The assertions of the loader amount to one predicate on the scenario it hands
on, and every scenario with it is resolved from some vectors. What is left open
is what the runtime is there to check: the roots after execution and everything
that needs a service.
-/

namespace ShellFixtures

open ByteCodec Pointwise ShellPrimitives ShellState ShellCli Except

/-- A scenario as the runtime may expect it from the loader. -/
structure RootCheckScenario.WellFormed (sha256 : List UInt8 → Root)
    (scenario : RootCheckScenario) : Prop where
  unsigned : ∀ t ∈ scenario.transactions, t.authorizations = []
  transactionsRoot : computeTransactionsRoot sha256 scenario.transactions =
    .ok scenario.header.transactionsRoot
  executionWitnessesRoot : computeExecutionWitnessesRoot sha256 scenario.witnesses =
    scenario.header.executionWitnessesRoot
  witnessed : scenario.witnesses ≠ []
  preState : SoundPreState sha256 scenario.materializedState scenario.preStateRoot
    scenario.witnesses
  steps : List.Forall₂ (fun (t : TransactionEnvelope) (s : RootCheckScenarioStep) =>
    t.canonicalRoot sha256 = .ok s.transactionRoot ∧ ∃ w ∈ scenario.witnesses, w.key = s.key)
    scenario.transactions scenario.steps
  sidecar : scenario.sidecar.blockRoot = scenario.header.blockRoot

section
variable {sha256 : List UInt8 → Root} {store : FixtureStore} {fixture : RootCheckVector}
variable {vectors : List WitnessVector} {scenario : RootCheckScenario}

/-! ## From the vectors to the scenario -/

theorem authorizations_of_resolveTransaction {id : String} {transaction : TransactionEnvelope}
    (h : resolveTransaction store fixture id = .ok transaction) :
    transaction.authorizations = [] := by
  obtain ⟨vector, -, -, henvelope⟩ := resolveTransaction_eq_ok_iff.mp h
  rw [TransactionVector.envelope, bind_eq_ok_iff] at henvelope
  obtain ⟨payload, -, hread⟩ := henvelope
  rw [← Except.ok.inj hread]

/-- A witness that a step finds is one of the scenario's. -/
theorem mem_witnesses_of_stepWitness {witnesses : List StateWitness}
    (read : List.Forall₂ (fun v w => singleWitness v = .ok w) vectors witnesses) {id : String}
    {witness : StateWitness} (h : stepWitness fixture vectors id = .ok witness) :
    witness ∈ witnesses := by
  obtain ⟨vector, hfind, hwitness⟩ := stepWitness_eq_ok_iff.mp h
  obtain ⟨i, hi⟩ := List.mem_iff_getElem?.mp (List.mem_of_find?_eq_some hfind)
  have hlength := read.length_eq
  obtain ⟨hbound, hvector⟩ := List.getElem?_eq_some_iff.mp hi
  have hread := (List.forall₂_iff_get.mp read).2 i hbound (hlength ▸ hbound)
  simp only [List.get_eq_getElem, hvector] at hread
  rw [singleWitness_eq_ok_iff, hwitness] at hread
  rw [Option.some.inj (Except.ok.inj hread)]
  exact List.getElem_mem _

/-- Each transaction has its step once the lengths agree. -/
theorem steps_of_alignedSteps {transactions : List TransactionEnvelope}
    {steps : List RootCheckScenarioStep} {R : TransactionEnvelope → RootCheckScenarioStep → Prop}
    (read : List.Forall₂ (fun p s => R p.2 s) (alignedSteps fixture transactions) steps)
    (covered : steps.length = transactions.length) : List.Forall₂ R transactions steps := by
  have hlength := read.length_eq.trans covered
  have hall : (alignedSteps fixture transactions).map Prod.snd = transactions := by
    apply List.map_snd_zip
    rw [alignedSteps, List.length_zip] at hlength
    omega
  rw [← hall, List.forall₂_map_left_iff]
  exact read

theorem Resolves.wellFormed (resolves : Resolves sha256 store fixture vectors scenario) :
    scenario.WellFormed sha256 := by
  obtain ⟨hts, -, htsRoot, -⟩ := resolveTransactions_eq_ok_iff.mp resolves.transactions
  obtain ⟨-, hread, -, hwsRoot, -⟩ := resolveWitnesses_eq_ok_iff.mp resolves.witnesses
  obtain ⟨hvectors, -, hpre⟩ := resolvePreState_eq_ok_iff.mp resolves.preState
  obtain ⟨hsteps, hcovered⟩ := resolveSteps_eq_ok_iff.mp resolves.steps
  refine ⟨?_, htsRoot, hwsRoot, ?_, hpre, ?_, resolves.sidecar⟩
  · intro t ht
    obtain ⟨i, hi, rfl⟩ := List.getElem_of_mem ht
    exact authorizations_of_resolveTransaction
      ((List.forall₂_iff_get.mp hts).2 i (hts.length_eq ▸ hi) hi)
  · rintro hnil
    rw [hnil] at hread
    exact hvectors (List.forall₂_nil_right_iff.mp hread)
  · refine steps_of_alignedSteps (hsteps.imp ?_) hcovered
    rintro p s ⟨-, ⟨w, hw, hkey⟩, hroot, -, -, -⟩
    exact ⟨hroot, w, mem_witnesses_of_stepWitness hread hw, hkey⟩

end

/-! ## Sorting -/

theorem compareStateKeys_isLE_iff (left right : StateKey) :
    (compareStateKeys left right).isLE = true ↔ encodeStateKey left ≤ encodeStateKey right := by
  rw [compareStateKeys, compareOfLessAndEq]
  by_cases hlt : encodeStateKey left < encodeStateKey right
  · simp [hlt, hlt.le]
  · by_cases heq : encodeStateKey left = encodeStateKey right
    · simp [heq]
    · have hgt : encodeStateKey right < encodeStateKey left :=
        lt_of_le_of_ne (not_lt.mp hlt) (Ne.symm heq)
      simp [hlt, heq, hgt]

theorem pairwise_sortByKey (entries : List (StateKey × MockProgressiveByteList)) :
    (sortByKey entries).Pairwise fun a b => encodeStateKey a.1 ≤ encodeStateKey b.1 := by
  simp only [← compareStateKeys_isLE_iff]
  apply List.pairwise_mergeSort
  · intro a b c
    simp only [compareStateKeys_isLE_iff]
    exact le_trans
  · intro a b
    simp only [Bool.or_eq_true, compareStateKeys_isLE_iff]
    exact le_total _ _

theorem nodup_of_increasing {keys : List StateKey} (increasing : keys.Pairwise StateKey.Before) :
    keys.Nodup :=
  increasing.imp fun hbefore heq => absurd (heq ▸ hbefore) (lt_irrefl _)

/-- Sorting a list with distinct keys does not depend on the order it comes in. -/
theorem sortByKey_of_perm {entries base : List (StateKey × MockProgressiveByteList)}
    (perm : entries.Perm base) (increasing : (base.map Prod.fst).Pairwise StateKey.Before) :
    sortByKey entries = base := by
  have hperm : (sortByKey entries).Perm base := (List.mergeSort_perm _ _).trans perm
  apply hperm.eq_of_pairwise _ (pairwise_sortByKey entries)
  · exact (List.pairwise_map.mp increasing).imp fun hbefore => le_of_lt hbefore
  · intro a b ha hb hab hba
    exact List.inj_on_of_nodup_map (nodup_of_increasing increasing) (hperm.subset ha) hb
      (encodeStateKey_injective (le_antisymm hab hba))

theorem sortByKey_of_increasing {entries : List (StateKey × MockProgressiveByteList)}
    (increasing : (entries.map Prod.fst).Pairwise StateKey.Before) : sortByKey entries = entries :=
  sortByKey_of_perm (List.Perm.refl entries) increasing

/-! ## From the scenario to vectors -/

/-- As many marks as the position. -/
def positionId (i : Nat) : String := String.ofList (List.replicate i 'x')

def keyId (key : StateKey) : String := toHex (encodeStateKey key)

namespace RootCheckScenario
variable (scenario : RootCheckScenario)

def transactionVector (transaction : TransactionEnvelope) : TransactionVector where
  id := ""
  input := ⟨some (.ofPayload transaction.payload)⟩
  expectedOutcome := "accept"

def witnessVector (witness : StateWitness) : WitnessVector where
  id := keyId witness.key
  input :=
    { expectedStateRoot := some (toHex scenario.preStateRoot.toList)
      witness := some (.ofStateWitness witness)
      materializedState := some (scenario.materializedState.map .ofEntry) }
  expectedOutcome := "accept"

/-- The vectors a scenario is written as: transactions by position, witnesses by key. -/
def toStore : FixtureStore where
  transactions id := scenario.transactions[id.length]?.map transactionVector
  witnesses id := (scenario.witnesses.map scenario.witnessVector).find? fun v => v.id == id

def toStep (i : Nat) (step : RootCheckScenarioStep) : RootCheckExecutionStep where
  transactionVectorId := positionId i
  witnessVectorId := keyId step.key
  newLeafValueHex := toHex step.newLeafValue
  receiptStatusCode := step.receiptStatusCode
  receiptOutputHex := toHex step.receiptOutput

def toVector : RootCheckVector where
  id := ""
  input :=
    { header :=
        { blockRoot := toHex scenario.header.blockRoot.toList
          blockNumber := scenario.header.blockNumber
          timestamp := scenario.header.timestamp
          proposerIndex := scenario.header.proposerIndex
          parentRoot := toHex scenario.header.parentRoot.toList
          transactionsRoot := toHex scenario.header.transactionsRoot.toList
          executionWitnessesRoot := toHex scenario.header.executionWitnessesRoot.toList
          stateRoot := toHex scenario.header.stateRoot.toList
          receiptsRoot := toHex scenario.header.receiptsRoot.toList
          witnessBytes := scenario.header.witnessBytes
          proposerSignatureHex := toHex scenario.header.proposerSignature }
      body := ⟨(List.range scenario.transactions.length).map positionId⟩
      sidecar :=
        { blockRoot := toHex scenario.header.blockRoot.toList
          witnessVectorIds := scenario.witnesses.map fun w => keyId w.key }
      execution := ⟨(List.range scenario.steps.length).zipWith toStep scenario.steps⟩ }
  transactionsRoot := toHex scenario.header.transactionsRoot.toList
  executionWitnessesRoot := toHex scenario.header.executionWitnessesRoot.toList
  stateRoot := toHex scenario.header.stateRoot.toList
  receiptsRoot := toHex scenario.header.receiptsRoot.toList

end RootCheckScenario

@[simp] theorem length_positionId (i : Nat) : (positionId i).length = i := by
  simp [positionId]

theorem toHex_injective {a b : List UInt8} (h : toHex a = toHex b) : a = b := by
  have hread := parseHex_toHex a
  rw [h, parseHex_toHex] at hread
  exact (Except.ok.inj hread).symm

theorem keyId_injective {a b : StateKey} (h : keyId a = keyId b) : a = b :=
  encodeStateKey_injective (toHex_injective h)

theorem parseRoot_toHex (root : Root) : parseRoot (toHex root.toList) = .ok root :=
  parseArray_toHex _ root

/-! ## Writing and reading back -/

section
variable {sha256 : List UInt8 → Root} {scenario : RootCheckScenario}

theorem resolveTransaction_positionId
    (unsigned : ∀ t ∈ scenario.transactions, t.authorizations = []) {fixture : RootCheckVector}
    {i : Nat} {t : TransactionEnvelope} (ht : scenario.transactions[i]? = some t) :
    resolveTransaction scenario.toStore fixture (positionId i) = .ok t := by
  rw [resolveTransaction_eq_ok_iff]
  refine ⟨RootCheckScenario.transactionVector t, ?_, rfl, ?_⟩
  · simp [RootCheckScenario.toStore, ht]
  · have hunsigned := unsigned t (List.mem_of_getElem? ht)
    obtain ⟨payload, authorizations⟩ := t
    obtain rfl : authorizations = [] := hunsigned
    simp [TransactionVector.envelope, TransactionVector.payload,
      RootCheckScenario.transactionVector, Except.mapError, ok_bind]

theorem witness_witnessVector (w : StateWitness) :
    (scenario.witnessVector w).witness = .ok (some w) := by
  simp [RootCheckScenario.witnessVector, WitnessVector.witness, WitnessVector.readOption,
    Except.map]

theorem declaresPreState_witnessVector
    (increasing : (scenario.materializedState.map Prod.fst).Pairwise StateKey.Before)
    (w : StateWitness) : DeclaresPreState (scenario.witnessVector w) scenario.materializedState
      scenario.preStateRoot := by
  refine ⟨⟨scenario.materializedState, ?_, sortByKey_of_increasing increasing⟩, ?_⟩
  · change (scenario.materializedState.map MaterializedLeafFixture.ofEntry).mapM
      MaterializedLeafFixture.toEntry = _
    rw [mapM_eq_ok_iff, List.forall₂_map_left_iff, List.forall₂_same]
    intro e _
    exact MaterializedLeafFixture.toEntry_ofEntry e
  · simp [RootCheckScenario.witnessVector, WitnessVector.expectedStateRoot,
      WitnessVector.readOption, parseRoot_toHex, Except.mapError, Except.map]

/-- Witnesses with different keys are found by their keys. -/
theorem find?_witnessVector
    (distinct : (scenario.witnesses.map StateWitness.key).Nodup) {w : StateWitness}
    (hw : w ∈ scenario.witnesses) :
    ((scenario.witnesses.map scenario.witnessVector).find? fun v => v.id == keyId w.key) =
      some (scenario.witnessVector w) := by
  rw [List.find?_map, Option.map_eq_some_iff]
  refine ⟨w, ?_, rfl⟩
  cases hfind : scenario.witnesses.find? ((fun v => v.id == keyId w.key) ∘ scenario.witnessVector)
    with
  | none =>
    have habsent := List.find?_eq_none.mp hfind w hw
    exact absurd (beq_self_eq_true (keyId w.key)) habsent
  | some w' =>
    have hid : keyId w'.key = keyId w.key := by
      have hmatch := List.find?_some hfind
      rw [Function.comp_apply] at hmatch
      exact eq_of_beq hmatch
    have hsame := List.inj_on_of_nodup_map distinct (List.mem_of_find?_eq_some hfind) hw
      (keyId_injective hid)
    rw [hsame]

theorem resolveTransactions_toVector (wellFormed : scenario.WellFormed sha256) :
    resolveTransactions sha256 scenario.toStore scenario.toVector =
      .ok (scenario.transactions, scenario.header.transactionsRoot) := by
  refine resolveTransactions_eq_ok_iff.mpr
    ⟨?_, parseRoot_toHex _, wellFormed.transactionsRoot, parseRoot_toHex _⟩
  change List.Forall₂ _ ((List.range scenario.transactions.length).map positionId) _
  rw [List.forall₂_map_left_iff, List.forall₂_iff_get]
  refine ⟨by simp, ?_⟩
  intro i _ hi
  simp only [List.get_eq_getElem, List.getElem_range]
  exact resolveTransaction_positionId wellFormed.unsigned (List.getElem?_eq_getElem hi)

theorem distinct_witnesses (wellFormed : scenario.WellFormed sha256) :
    (scenario.witnesses.map StateWitness.key).Nodup := by
  have hfiled : Filed (materialized sha256 scenario.materializedState).leaves := by
    rw [materialized_leaves]
    exact filed_insertAll filed_empty _
  exact nodup_of_increasing
    ((verifyWitnesses_eq_ok_iff hfiled _ _).mp wellFormed.preState.verified).1

theorem resolveWitnesses_toVector (wellFormed : scenario.WellFormed sha256) :
    resolveWitnesses sha256 scenario.toStore scenario.toVector =
      .ok (scenario.witnesses.map scenario.witnessVector, scenario.witnesses,
        scenario.header.executionWitnessesRoot) := by
  refine resolveWitnesses_eq_ok_iff.mpr
    ⟨?_, ?_, parseRoot_toHex _, wellFormed.executionWitnessesRoot, parseRoot_toHex _⟩
  · change List.Forall₂ _ (scenario.witnesses.map fun w => keyId w.key) _
    rw [List.forall₂_map_left_iff, List.forall₂_map_right_iff, List.forall₂_same]
    intro w hw
    exact resolveWitnessVector_eq_ok_iff.mpr
      ⟨find?_witnessVector (distinct_witnesses wellFormed) hw, rfl⟩
  · rw [List.forall₂_map_left_iff, List.forall₂_same]
    intro w _
    exact singleWitness_eq_ok_iff.mpr (witness_witnessVector w)

theorem resolvePreState_toVector (wellFormed : scenario.WellFormed sha256) :
    resolvePreState sha256 scenario.toVector (scenario.witnesses.map scenario.witnessVector)
      scenario.witnesses = .ok (scenario.materializedState, scenario.preStateRoot) := by
  refine resolvePreState_eq_ok_iff.mpr ⟨?_, ?_, wellFormed.preState⟩
  · rw [ne_eq, List.map_eq_nil_iff]
    exact wellFormed.witnessed
  · intro v hv
    obtain ⟨w, -, rfl⟩ := List.mem_map.mp hv
    exact declaresPreState_witnessVector wellFormed.preState.increasing w

theorem resolveSteps_toVector (wellFormed : scenario.WellFormed sha256) :
    resolveSteps sha256 scenario.toVector (scenario.witnesses.map scenario.witnessVector)
      scenario.transactions = .ok scenario.steps := by
  have hlength := wellFormed.steps.length_eq
  refine resolveSteps_eq_ok_iff.mpr ⟨List.forall₂_iff_get.mpr ⟨?_, ?_⟩, hlength.symm⟩
  · simp [alignedSteps, RootCheckScenario.toVector, hlength]
  · intro i hi hi'
    have hsteps := (List.forall₂_iff_get.mp wellFormed.steps).2 i (hlength ▸ hi') hi'
    obtain ⟨hroot, w, hw, hkey⟩ := hsteps
    simp only [alignedSteps, RootCheckScenario.toVector, List.get_eq_getElem, List.getElem_zip,
      List.getElem_zipWith, List.getElem_range, List.getElem_map] at hroot hkey ⊢
    refine ⟨rfl, ⟨w, ?_, hkey⟩, hroot, parseHex_toHex _, rfl, parseHex_toHex _⟩
    refine stepWitness_eq_ok_iff.mpr ⟨scenario.witnessVector w, ?_, witness_witnessVector w⟩
    rw [RootCheckScenario.toStep, ← hkey]
    exact find?_witnessVector (distinct_witnesses wellFormed) hw

end

theorem resolve_toVector {sha256 : List UInt8 → Root} {scenario : RootCheckScenario}
    (wellFormed : scenario.WellFormed sha256) :
    resolveRootCheckScenario sha256 scenario.toStore scenario.toVector = .ok scenario := by
  refine resolveRootCheckScenario_eq_ok_iff.mpr
    ⟨scenario.witnesses.map scenario.witnessVector, ?_⟩
  exact
    { transactions := resolveTransactions_toVector wellFormed
      witnesses := resolveWitnesses_toVector wellFormed
      preState := resolvePreState_toVector wellFormed
      steps := resolveSteps_toVector wellFormed
      stateRoot := ⟨parseRoot_toHex _, parseRoot_toHex _⟩
      receiptsRoot := ⟨parseRoot_toHex _, parseRoot_toHex _⟩
      blockRoot := ⟨parseRoot_toHex _, parseRoot_toHex _⟩
      sidecar := wellFormed.sidecar
      parentRoot := parseRoot_toHex _
      proposerSignature := parseHex_toHex _
      copied := ⟨rfl, rfl, rfl, rfl⟩ }

/-- The scenarios resolution hands on are exactly the well-formed ones: every assertion is needed
for one of these facts, and whatever has them can be written as vectors. -/
theorem root_check_scenarios_exact (sha256 : List UInt8 → Root) (scenario : RootCheckScenario) :
    (∃ store fixture, resolveRootCheckScenario sha256 store fixture = .ok scenario) ↔
      scenario.WellFormed sha256 := by
  constructor
  · rintro ⟨store, fixture, h⟩
    obtain ⟨vectors, hresolves⟩ := resolveRootCheckScenario_eq_ok_iff.mp h
    exact hresolves.wellFormed
  · intro hwellFormed
    exact ⟨scenario.toStore, scenario.toVector, resolve_toVector hwellFormed⟩

/-! ## A scenario -/

/-- One transfer that overwrites one of two leaves, with any roots after execution. -/
def overwriteScenario (stateRoot receiptsRoot : Root) : RootCheckScenario where
  header :=
    { blockRoot := padTo 32 [1], blockNumber := 1, timestamp := 0, proposerIndex := 0
      parentRoot := zeros 32
      transactionsRoot := Sha256.digest (ascii "shell-fixtures/transactions-root/v1" ++
        beBytes 8 1 ++ [(Ssz.envelopeRootRun Sha256.digest
          ⟨bareEnvelope.payload, []⟩).value].flatMap List.Vector.toList)
      executionWitnessesRoot :=
        computeExecutionWitnessesRoot Sha256.digest [⟨sampleAccount, [7], []⟩]
      stateRoot := stateRoot, receiptsRoot := receiptsRoot
      witnessBytes := 0, proposerSignature := [0xBB] }
  sidecar := ⟨padTo 32 [1]⟩
  transactions := [⟨bareEnvelope.payload, []⟩]
  witnesses := [⟨sampleAccount, [7], []⟩]
  materializedState := [(sampleAccount, [7]), (sampleStem, [8])]
  preStateRoot := (materialized Sha256.digest [(sampleAccount, [7]), (sampleStem, [8])]).root
  steps := [⟨(Ssz.envelopeRootRun Sha256.digest ⟨bareEnvelope.payload, []⟩).value, sampleAccount,
    [1], 1, [9]⟩]

theorem wellFormed_overwriteScenario (stateRoot receiptsRoot : Root) :
    (overwriteScenario stateRoot receiptsRoot).WellFormed Sha256.digest := by
  have hincreasing : ([(sampleAccount, [7]), (sampleStem, [8])].map
      (Prod.fst : StateKey × MockProgressiveByteList → StateKey)).Pairwise StateKey.Before := by
    decide
  have hfiled : Filed (materialized Sha256.digest
      [(sampleAccount, [7]), (sampleStem, [8])]).leaves :=
    filed_insertAll filed_empty [(sampleAccount, [7]), (sampleStem, [8])]
  have hleaf : (materialized Sha256.digest [(sampleAccount, [7]), (sampleStem, [8])]).leaves.get?
      (encodeStateKey sampleAccount) = some ⟨sampleAccount, [7]⟩ := by
    rw [materialized_leaves]
    decide +kernel
  refine ⟨?_, rfl, rfl, List.cons_ne_nil _ _, ⟨List.cons_ne_nil _ _, hincreasing, rfl, ?_⟩,
    .cons ⟨rfl, _, List.mem_singleton.mpr rfl, rfl⟩ .nil, rfl⟩
  · intro t ht
    rw [List.mem_singleton.mp ht]
  · refine (verifyWitnesses_eq_ok_iff hfiled _ _).mpr ⟨List.pairwise_singleton _ _, ?_⟩
    intro w hw
    rw [List.mem_singleton.mp hw]
    exact ⟨rfl, hleaf, rfl⟩

/-! ## What resolution does not look at -/

/-- One witness vector lists the pre-state of the other in a different order. -/
structure WitnessVector.Shuffled (vector vector' : WitnessVector) : Prop where
  id : vector.id = vector'.id
  outcome : vector.expectedOutcome = vector'.expectedOutcome
  root : vector.input.expectedStateRoot = vector'.input.expectedStateRoot
  witness : vector.input.witness = vector'.input.witness
  entries : Option.Rel List.Perm vector.input.materializedState vector'.input.materializedState

/-- Two stores that differ in nothing but the order of such entries. -/
structure FixtureStore.Shuffled (store store' : FixtureStore) : Prop where
  transactions : store.transactions = store'.transactions
  witnesses : ∀ id, Option.Rel WitnessVector.Shuffled (store.witnesses id) (store'.witnesses id)

section
variable {sha256 : List UInt8 → Root} {fixture : RootCheckVector}

theorem WitnessVector.Shuffled.symm {vector vector' : WitnessVector}
    (shuffled : vector.Shuffled vector') : vector'.Shuffled vector :=
  ⟨shuffled.id.symm, shuffled.outcome.symm, shuffled.root.symm, shuffled.witness.symm,
    optionRel_symm List.Perm.symm shuffled.entries⟩

theorem FixtureStore.Shuffled.symm {store store' : FixtureStore}
    (shuffled : store.Shuffled store') : store'.Shuffled store :=
  ⟨shuffled.transactions.symm,
    fun id => optionRel_symm WitnessVector.Shuffled.symm (shuffled.witnesses id)⟩

theorem WitnessVector.Shuffled.witness_eq {vector vector' : WitnessVector}
    (shuffled : vector.Shuffled vector') : vector'.witness = vector.witness := by
  rw [WitnessVector.witness, WitnessVector.witness, shuffled.witness]

/-- Reading the entries in another order reads the same entries. -/
theorem WitnessVector.Shuffled.materializedState {vector vector' : WitnessVector}
    (shuffled : vector.Shuffled vector') {entries : List (StateKey × MockProgressiveByteList)}
    (read : vector.materializedState = .ok entries) :
    ∃ entries', vector'.materializedState = .ok entries' ∧ entries'.Perm entries := by
  have hrel := shuffled.entries
  rw [WitnessVector.materializedState] at read ⊢
  generalize vector.input.materializedState = listed at hrel read
  generalize vector'.input.materializedState = listed' at hrel
  cases hrel with
  | none => exact ⟨entries, read, .refl _⟩
  | some hperm =>
    obtain ⟨entries', hread, hentries⟩ :=
      List.perm_comp_forall₂ hperm.symm ((mapM_eq_ok_iff _ _ _).mp read)
    exact ⟨entries', (mapM_eq_ok_iff _ _ _).mpr hread, hentries⟩

theorem DeclaresPreState.shuffled {vector vector' : WitnessVector}
    (shuffled : vector.Shuffled vector') {base : List (StateKey × MockProgressiveByteList)}
    {root : Root} (increasing : (base.map Prod.fst).Pairwise StateKey.Before)
    (declares : DeclaresPreState vector base root) : DeclaresPreState vector' base root := by
  obtain ⟨⟨entries, hentries, hsorted⟩, hroot⟩ := declares
  obtain ⟨entries', hread, hperm⟩ := shuffled.materializedState hentries
  refine ⟨⟨entries', hread, sortByKey_of_perm (hperm.trans ?_) increasing⟩, ?_⟩
  · rw [← hsorted]
    exact (List.mergeSort_perm _ _).symm
  · rw [← hroot, WitnessVector.expectedStateRoot, WitnessVector.expectedStateRoot, shuffled.root]

variable {store store' : FixtureStore} {vectors vectors' : List WitnessVector}

theorem resolveWitnessVector_shuffled (shuffled : store.Shuffled store') {id : String}
    {vector : WitnessVector} (h : resolveWitnessVector store fixture id = .ok vector) :
    ∃ vector', resolveWitnessVector store' fixture id = .ok vector' ∧ vector.Shuffled vector' := by
  obtain ⟨hload, houtcome⟩ := resolveWitnessVector_eq_ok_iff.mp h
  have hrel := shuffled.witnesses id
  rw [hload] at hrel
  cases hload' : store'.witnesses id with
  | none =>
    rw [hload'] at hrel
    cases hrel
  | some vector' =>
    rw [hload'] at hrel
    cases hrel with
    | some hvectors =>
      exact ⟨vector', resolveWitnessVector_eq_ok_iff.mpr
        ⟨hload', hvectors.outcome.symm.trans houtcome⟩, hvectors⟩

theorem stepWitness_shuffled (shuffled : List.Forall₂ WitnessVector.Shuffled vectors vectors')
    {id : String} {witness : StateWitness} (h : stepWitness fixture vectors id = .ok witness) :
    stepWitness fixture vectors' id = .ok witness := by
  obtain ⟨vector, hfind, hwitness⟩ := stepWitness_eq_ok_iff.mp h
  obtain ⟨vector', hfind', hvectors⟩ := find?_of_forall₂
    (fun a b hab => by rw [hab.id]) shuffled hfind
  exact stepWitness_eq_ok_iff.mpr ⟨vector', hfind', hvectors.witness_eq.trans hwitness⟩

theorem resolveTransactions_shuffled (shuffled : store.Shuffled store') :
    resolveTransactions sha256 store fixture = resolveTransactions sha256 store' fixture := by
  have hload : resolveTransaction store fixture = resolveTransaction store' fixture := by
    funext id
    rw [resolveTransaction, resolveTransaction, loadTransactionFixtureById,
      loadTransactionFixtureById, shuffled.transactions]
  rw [resolveTransactions, resolveTransactions, hload]

theorem Resolves.shuffled (shuffled : store.Shuffled store') {scenario : RootCheckScenario}
    (resolves : Resolves sha256 store fixture vectors scenario) :
    ∃ vectors', Resolves sha256 store' fixture vectors' scenario := by
  obtain ⟨hvectors, hread, hroot, hcomputed, hheader⟩ :=
    resolveWitnesses_eq_ok_iff.mp resolves.witnesses
  obtain ⟨hnonempty, hdeclares, hsound⟩ := resolvePreState_eq_ok_iff.mp resolves.preState
  obtain ⟨hsteps, hcovered⟩ := resolveSteps_eq_ok_iff.mp resolves.steps
  obtain ⟨vectors', hvectors', hrel⟩ := forall₂_exists_lift
    (fun _ _ h => resolveWitnessVector_shuffled shuffled h) hvectors
  have hlift : ∀ v' ∈ vectors', ∃ v ∈ vectors, v.Shuffled v' := by
    intro v' hv'
    obtain ⟨i, hi, rfl⟩ := List.getElem_of_mem hv'
    have hi' : i < vectors.length := hrel.length_eq ▸ hi
    exact ⟨vectors[i], List.getElem_mem hi', (List.forall₂_iff_get.mp hrel).2 i hi' hi⟩
  refine ⟨vectors', { resolves with
    transactions := resolveTransactions_shuffled shuffled ▸ resolves.transactions
    witnesses := resolveWitnesses_eq_ok_iff.mpr ⟨hvectors', ?_, hroot, hcomputed, hheader⟩
    preState := resolvePreState_eq_ok_iff.mpr ⟨?_, ?_, hsound⟩
    steps := resolveSteps_eq_ok_iff.mpr ⟨hsteps.imp ?_, hcovered⟩ }⟩
  · refine List.forall₂_iff_get.mpr ⟨hrel.length_eq.symm.trans hread.length_eq, ?_⟩
    intro i hi hi'
    have hi'' : i < vectors.length := hrel.length_eq ▸ hi
    have hwitness := (List.forall₂_iff_get.mp hread).2 i hi'' hi'
    have hvv' := (List.forall₂_iff_get.mp hrel).2 i hi'' hi
    rw [singleWitness_eq_ok_iff] at hwitness ⊢
    exact hvv'.witness_eq.trans hwitness
  · rintro rfl
    exact hnonempty (List.forall₂_nil_right_iff.mp hrel)
  · intro v' hv'
    obtain ⟨v, hv, hvv'⟩ := hlift v' hv'
    exact (hdeclares v hv).shuffled hvv' hsound.increasing
  · intro p read hreads
    obtain ⟨w, hw, hkey⟩ := hreads.witness
    exact { hreads with witness := ⟨w, stepWitness_shuffled hrel hw, hkey⟩ }

end

/-- The order in which the witness vectors list the pre-state is free: listing it differently
resolves the same scenarios. -/
theorem listing_order_is_free (sha256 : List UInt8 → Root) (store store' : FixtureStore)
    (shuffled : store.Shuffled store') (fixture : RootCheckVector) (scenario : RootCheckScenario) :
    resolveRootCheckScenario sha256 store fixture = .ok scenario ↔
      resolveRootCheckScenario sha256 store' fixture = .ok scenario := by
  simp only [resolveRootCheckScenario_eq_ok_iff]
  constructor
  · rintro ⟨vectors, hresolves⟩
    exact hresolves.shuffled shuffled
  · rintro ⟨vectors, hresolves⟩
    exact hresolves.shuffled shuffled.symm

/-- Every witness vector with its pre-state the other way round. -/
def FixtureStore.reversed (store : FixtureStore) : FixtureStore where
  transactions := store.transactions
  witnesses id := (store.witnesses id).map fun v =>
    { v with input := { v.input with
        materializedState := v.input.materializedState.map List.reverse } }

theorem FixtureStore.shuffled_reversed (store : FixtureStore) : store.Shuffled store.reversed := by
  refine ⟨rfl, fun id => ?_⟩
  change Option.Rel _ (store.witnesses id) ((store.witnesses id).map _)
  cases store.witnesses id with
  | none => exact .none
  | some v =>
    refine .some ⟨rfl, rfl, rfl, rfl, ?_⟩
    change Option.Rel _ v.input.materializedState (v.input.materializedState.map List.reverse)
    cases v.input.materializedState with
    | none => exact .none
    | some entries => exact .some entries.reverse_perm.symm

theorem listing_order_is_free_sample :
    resolveRootCheckScenario Sha256.digest
      (overwriteScenario (zeros 32) (zeros 32)).toStore.reversed
      (overwriteScenario (zeros 32) (zeros 32)).toVector =
        .ok (overwriteScenario (zeros 32) (zeros 32)) :=
  (listing_order_is_free Sha256.digest _ _ (FixtureStore.shuffled_reversed _) _ _).mp
    (resolve_toVector (wellFormed_overwriteScenario _ _))

/-- The vector with other execution steps. -/
def RootCheckVector.withSteps (fixture : RootCheckVector) (steps : List RootCheckExecutionStep) :
    RootCheckVector :=
  { fixture with input := { fixture.input with execution := ⟨steps⟩ } }

theorem resolveSteps_take (sha256 : List UInt8 → Root) (fixture : RootCheckVector)
    (steps : List RootCheckExecutionStep) (vectors : List WitnessVector)
    (transactions : List TransactionEnvelope) :
    resolveSteps sha256 (fixture.withSteps (steps.take
        fixture.input.body.transactionVectorIds.length)) vectors transactions =
      resolveSteps sha256 (fixture.withSteps steps) vectors transactions := by
  rw [resolveSteps, resolveSteps]
  change ((((steps.take _).zip fixture.input.body.transactionVectorIds).zip
    transactions).mapM _ >>= _) = _
  rw [zip_take_length]
  rfl

/-- The step count is checked on one side only. The body decides how many steps are read, and what
follows them is not looked at: an execution that covers more than each transaction once resolves
as if it stopped there. Only an execution that is too short is refused. -/
theorem surplus_steps_not_read (sha256 : List UInt8 → Root) (store : FixtureStore)
    (fixture : RootCheckVector) (steps : List RootCheckExecutionStep) :
    resolveRootCheckScenario sha256 store (fixture.withSteps steps) =
        resolveRootCheckScenario sha256 store
          (fixture.withSteps (steps.take fixture.input.body.transactionVectorIds.length)) ∧
      ((∃ scenario, resolveRootCheckScenario sha256 store (fixture.withSteps steps) =
        .ok scenario) → fixture.input.body.transactionVectorIds.length ≤ steps.length) := by
  constructor
  · rw [resolveRootCheckScenario, resolveRootCheckScenario]
    simp only [resolveSteps_take]
    rfl
  · rintro ⟨scenario, h⟩
    obtain ⟨vectors, hresolves⟩ := resolveRootCheckScenario_eq_ok_iff.mp h
    obtain ⟨hts, -⟩ := resolveTransactions_eq_ok_iff.mp hresolves.transactions
    obtain ⟨hsteps, hcovered⟩ := resolveSteps_eq_ok_iff.mp hresolves.steps
    have hlength : fixture.input.body.transactionVectorIds.length =
        scenario.transactions.length := hts.length_eq
    have hread : ((steps.zip fixture.input.body.transactionVectorIds).zip
        scenario.transactions).length = scenario.steps.length := hsteps.length_eq
    rw [List.length_zip, List.length_zip] at hread
    omega

end ShellFixtures
