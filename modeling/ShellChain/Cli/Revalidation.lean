import ShellChain.Cli.Runtime
import ShellChain.Consensus.ImportExact
import ShellChain.Mempool.AdmissionExact

/-!
# What an accepted block has verified

The transactions of a block are revalidated through the admission table: the
signatures that are checked are those of the admission transaction with the
same payload root. The table holds one entry for each root, so that entry is
the only one.
-/

namespace ShellCli

open ByteCodec ShellPrimitives ShellCrypto ShellMempool ShellState ShellExecution ShellConsensus
open SortedMap Except

section
variable (sha256 : List UInt8 → Root)

/-! ## The admission table -/

/-- The root an entry is filed under. -/
def entryRoot (entry : AdmissionEntry) : Root := (Ssz.payloadRootRun sha256 entry.1.payload).value

/-- The entries of a scenario, in order. -/
def admissionEntries (scenario : LocalReferenceScenario) : List AdmissionEntry :=
  scenario.admissionTransactions.zip scenario.transactionAuthorizationMaterials

theorem collectAdmissionTransactions_eq_ok_iff (entries : List AdmissionEntry)
    (byRoot table : AdmissionTable) :
    collectAdmissionTransactions sha256 entries byRoot = .ok table ↔
      (entries.map (entryRoot sha256)).Nodup ∧
        (∀ entry ∈ entries, byRoot.get? (entryRoot sha256 entry) = none) ∧
        table = byRoot.insertAll (entries.map fun entry => (entryRoot sha256 entry, entry)) :=
  fresh_loop_eq_ok_iff (fun _ => rfl) (fun _ _ _ => rfl) entries byRoot table

variable {sha256}

/-- An entry found in the table is one of the scenario's, under its own root. -/
theorem mem_of_get?_table {scenario : LocalReferenceScenario} {table : AdmissionTable}
    (built : buildAdmissionTransactionsByPayloadRoot sha256 scenario.admissionTransactions
      scenario.transactionAuthorizationMaterials = .ok table)
    {root : Root} {entry : AdmissionEntry} (found : table.get? root = some entry) :
    entry ∈ admissionEntries scenario ∧ entryRoot sha256 entry = root := by
  obtain ⟨-, -, rfl⟩ := (collectAdmissionTransactions_eq_ok_iff sha256 _ _ _).mp built
  have hentry := (get?_eq_some_iff _ _ _).mp found
  rcases mem_insertAll hentry with hwritten | hold
  · obtain ⟨e, he, hpair⟩ := List.mem_map.mp hwritten
    obtain ⟨hroot, rfl⟩ := Prod.mk.inj hpair
    exact ⟨he, hroot⟩
  · cases hold

/-! ## Revalidation -/

theorem revalidate_eq_ok_iff (revalidator : ReferenceTransactionRevalidator)
    (transaction : TransactionEnvelope) (policy : MultiAuthorizationPolicy) :
    revalidator.revalidate sha256 transaction policy = .ok () ↔
      ∃ entry, revalidator.admissionTransactions.get?
          (Ssz.payloadRootRun sha256 transaction.payload).value = some entry ∧
        ∃ v, Logged.outcome (AdmissionPipeline.admitAndVerify
          ⟨revalidator.dispatcher, revalidator.policy⟩ sha256 entry.1 revalidator.stateView
          (entry.2.map OwnedAuthorizationMaterial.asBorrowed)) = .ok v := by
  simp only [ReferenceTransactionRevalidator.revalidate, bind_eq_ok_iff, mapError_eq_ok_iff]
  constructor
  · rintro ⟨root, hroot, entry, hentry, v, hv, -⟩
    obtain rfl := Except.ok.inj hroot
    refine ⟨entry, ?_, v, hv⟩
    cases hget : revalidator.admissionTransactions.get?
        (Ssz.payloadRootRun sha256 transaction.payload).value with
    | none =>
      rw [hget] at hentry
      cases hentry
    | some found =>
      rw [hget] at hentry
      rw [Except.ok.inj hentry]
  · rintro ⟨entry, hentry, v, hv⟩
    refine ⟨_, rfl, entry, ?_, v, hv, trivial⟩
    rw [hentry]

/-! ## Runs -/

namespace LocalReferenceRuntime
variable {runtime : LocalReferenceRuntime} {scenario : LocalReferenceScenario}

theorem validateScenarioShape_eq_ok_iff :
    validateScenarioShape scenario = .ok () ↔
      scenario.admissionTransactions.length = scenario.block.body.transactions.length ∧
        scenario.plannedTransactions.length = scenario.block.body.transactions.length ∧
        scenario.transactionAuthorizationMaterials.length =
          scenario.block.body.transactions.length := by
  simp only [validateScenarioShape, ite_error_eq_ok_iff, not_not, and_true]

theorem run_eq_ok_iff (o : LocalReferenceFlowOutcome) :
    runtime.run sha256 scenario = .ok o ↔
      validateScenarioShape scenario = .ok () ∧
        runtime.admitTransactions sha256 scenario = .ok o.admissions ∧
        ∃ table, buildAdmissionTransactionsByPayloadRoot sha256 scenario.admissionTransactions
            scenario.transactionAuthorizationMaterials = .ok table ∧
          runtime.validateBlockAgainstReference sha256 scenario
            scenario.block.header.toConsensus scenario.block.body.toConsensus
            scenario.block.sidecar.toConsensus table = .ok o.importOutcome := by
  rw [run, check_bind_eq_ok_iff]
  simp only [bind_eq_ok_iff, mapError_eq_ok_iff]
  constructor
  · rintro ⟨hshape, admissions, hadmitted, table, hbuilt, imported, himported, ho⟩
    obtain rfl := Except.ok.inj ho
    exact ⟨hshape, hadmitted, table, hbuilt, himported⟩
  · rintro ⟨hshape, hadmitted, table, hbuilt, himported⟩
    exact ⟨hshape, _, hadmitted, table, hbuilt, _, himported, rfl⟩

/-- A list of authorizations over one payload root, each accepted with the material at its
own position over the policy's signing root. -/
structure Verified (sha256 : List UInt8 → Root) (runtime : LocalReferenceRuntime)
    (payloadRoot : Root) (authorizations : List Authorization)
    (materials : List OwnedAuthorizationMaterial) : Prop where
  authorized : authorizations ≠ []
  bound : ∀ a ∈ authorizations, a.payloadRoot = payloadRoot
  accepted : ∀ (i : Nat) (a : Authorization), authorizations[i]? = some a →
    ∃ m, materials[i]? = some m ∧
      runtime.dispatcher.verifyTransactionAuthorization a.schemeId ⟨m.publicKeyMaterial,
        AdmissionPipeline.policySigningRoot sha256 runtime.admissionPolicy payloadRoot,
        a.signature⟩ = .ok ()

/-- Admission of an entry verifies its authorizations. -/
theorem verified_of_admitted {entry : AdmissionEntry} {v : AuthorizationValidated}
    (admitted : Logged.outcome (AdmissionPipeline.admitAndVerify
      ⟨runtime.dispatcher, runtime.admissionPolicy⟩ sha256 entry.1 runtime.admissionStateView
      (entry.2.map OwnedAuthorizationMaterial.asBorrowed)) = .ok v) :
    Verified sha256 runtime (entryRoot sha256 entry) entry.1.authorizations entry.2 := by
  obtain ⟨⟨hscreened, hlength⟩, haccepted, -⟩ :=
    (AdmissionPipeline.admitAndVerify_eq_ok_iff v).mp admitted
  rw [List.length_map] at hlength
  refine ⟨hscreened.authorized, fun a ha => ?_, fun i a ha => ?_⟩
  · exact (Except.ok.inj (hscreened.boundToPayload a ha)).symm
  · obtain ⟨hi, -⟩ := List.getElem?_eq_some_iff.mp ha
    have hm : entry.2[i]? = some entry.2[i] := List.getElem?_eq_getElem (hlength ▸ hi)
    refine ⟨entry.2[i], hm, ?_⟩
    exact haccepted i a _ ha (by rw [List.getElem?_map, hm, Option.map_some])

/-- Entries of the scenario with the same root stand at the same position. -/
theorem entry_position_unique {table : AdmissionTable}
    (built : buildAdmissionTransactionsByPayloadRoot sha256 scenario.admissionTransactions
      scenario.transactionAuthorizationMaterials = .ok table)
    {i j : Nat} {e e' : AdmissionEntry} (hi : (admissionEntries scenario)[i]? = some e)
    (hj : (admissionEntries scenario)[j]? = some e')
    (same : entryRoot sha256 e = entryRoot sha256 e') : i = j := by
  obtain ⟨hnodup, -, -⟩ := (collectAdmissionTransactions_eq_ok_iff sha256 _ _ _).mp built
  have hroots : ∀ {k : Nat} {entry : AdmissionEntry}, (admissionEntries scenario)[k]? = some entry →
      ((admissionEntries scenario).map (entryRoot sha256))[k]? = some (entryRoot sha256 entry) := by
    intro k entry hk
    rw [List.getElem?_map, hk, Option.map_some]
  obtain ⟨hbound, -⟩ := List.getElem?_eq_some_iff.mp (hroots hi)
  apply (List.getElem?_inj hbound hnodup).mp
  rw [hroots hi, hroots hj, same]

/-- In an accepted run every transaction of the block has exactly one admission transaction with
its payload root, and it is that transaction's authorizations that have been verified. -/
theorem body_verified_through_admission (sha256 : List UInt8 → Root)
    (runtime : LocalReferenceRuntime) (scenario : LocalReferenceScenario)
    (o : LocalReferenceFlowOutcome) (accepted : runtime.run sha256 scenario = .ok o)
    (t : TransactionEnvelope) (ht : t ∈ scenario.block.body.transactions) :
    ∃ (i : Nat) (a : TransactionEnvelope) (materials : List OwnedAuthorizationMaterial),
      scenario.admissionTransactions[i]? = some a ∧
      scenario.transactionAuthorizationMaterials[i]? = some materials ∧
      a.payloadRoot sha256 = t.payloadRoot sha256 ∧
      (∀ (j : Nat) (b : TransactionEnvelope), scenario.admissionTransactions[j]? = some b →
        b.payloadRoot sha256 = t.payloadRoot sha256 → j = i) ∧
      Verified sha256 runtime (Ssz.payloadRootRun sha256 t.payload).value a.authorizations
        materials := by
  obtain ⟨hshape, -, table, hbuilt, himported⟩ := (run_eq_ok_iff o).mp accepted
  obtain ⟨hadmission, -, hmaterials⟩ := validateScenarioShape_eq_ok_iff.mp hshape
  obtain ⟨_, _, _, hpassed, -⟩ := (importBlock_eq_ok_iff _).mp himported
  obtain ⟨entry, hfound, v, hadmitted⟩ := (revalidate_eq_ok_iff _ t
    runtime.importConfig.multiAuthorizationPolicy).mp (hpassed.revalidated t ht)
  obtain ⟨hmem, hroot⟩ := mem_of_get?_table hbuilt hfound
  obtain ⟨i, hi⟩ := List.mem_iff_getElem?.mp hmem
  obtain ⟨ha, hm⟩ := List.getElem?_zip_eq_some.mp hi
  refine ⟨i, entry.1, entry.2, ha, hm, congrArg Except.ok hroot, ?_, ?_⟩
  · intro j b hb hsame
    obtain ⟨hj, -⟩ := List.getElem?_eq_some_iff.mp hb
    have hlength : j < scenario.transactionAuthorizationMaterials.length := by omega
    have hentry : (admissionEntries scenario)[j]? =
        some (b, scenario.transactionAuthorizationMaterials[j]) :=
      List.getElem?_zip_eq_some.mpr ⟨hb, List.getElem?_eq_getElem hlength⟩
    exact entry_position_unique hbuilt hentry hi ((Except.ok.inj hsame).trans hroot.symm)
  · have hverified := verified_of_admitted hadmitted
    rw [hroot] at hverified
    exact hverified

end LocalReferenceRuntime

end

/-! ## A block without signatures -/

/-- The transaction as the block carries it: the payload of `authorizedTransfer`, authorized by
nobody. -/
def unsignedTransfer : TransactionEnvelope := ⟨AdmissionPipeline.authorizedTransfer.payload, []⟩

/-- One planned step that writes nothing over the empty state. -/
def idleEngine : ReferenceExecutionEngine where
  preStateRoot := zeros 32
  materializedState := []
  plannedTransactions :=
    [⟨(Ssz.envelopeRootRun Sha256.digest unsignedTransfer).value, ⟨⟨[], []⟩, ⟨1, []⟩⟩⟩]

/-- The block holds the unsigned transfer, the admission list the signed one. -/
def unsignedScenario : LocalReferenceScenario where
  block :=
    { header :=
        { blockRoot := padTo 32 [1], blockNumber := 1, timestamp := 0, parentRoot := zeros 32
          witnessBytes := 0, transactionsRoot := zeros 32
          executionWitnessesRoot :=
            ShellFixtures.computeExecutionWitnessesRoot Sha256.digest []
          stateRoot := (idleEngine.plannedOutcome Sha256.digest).postStateRoot
          receiptsRoot := (idleEngine.plannedOutcome Sha256.digest).receiptsRoot
          proposerSignature := [0xBB], proposerIndexHint := none }
      body := ⟨[unsignedTransfer], zeros 32⟩
      sidecar := ⟨padTo 32 [1],
        ShellFixtures.computeExecutionWitnessesRoot Sha256.digest [], []⟩ }
  admissionTransactions := [AdmissionPipeline.authorizedTransfer]
  preStateRoot := idleEngine.preStateRoot
  materializedState := idleEngine.materializedState
  plannedTransactions := idleEngine.plannedTransactions
  transactionAuthorizationMaterials := [[⟨[0xAA]⟩]]

def echoRuntime : LocalReferenceRuntime where
  dispatcher := AdmissionPipeline.echoDispatcher
  resolver _ := .ok ⟨1, [0xBB]⟩
  admissionPolicy := AdmissionPipeline.echoPipeline.policy
  importConfig := ⟨⟨none⟩, .requireAll⟩
  admissionStateView := some fun _ => some 1

/-- A plan that writes nothing for each of some transactions. -/
def idlePlan (transactions : List TransactionEnvelope) : List PlannedTransaction :=
  transactions.map fun t =>
    ⟨(Ssz.envelopeRootRun Sha256.digest t).value, ⟨⟨[], []⟩, ⟨1, []⟩⟩⟩

/-- The same block over the empty state for any transactions and any admission list. -/
def idleScenario (transactions : List TransactionEnvelope) (entries : List AdmissionEntry) :
    LocalReferenceScenario where
  block :=
    { header :=
        { unsignedScenario.block.header with
          stateRoot := (ReferenceExecutionEngine.plannedOutcome Sha256.digest
            ⟨zeros 32, [], idlePlan transactions⟩).postStateRoot
          receiptsRoot := (ReferenceExecutionEngine.plannedOutcome Sha256.digest
            ⟨zeros 32, [], idlePlan transactions⟩).receiptsRoot }
      body := ⟨transactions, zeros 32⟩
      sidecar := unsignedScenario.block.sidecar }
  admissionTransactions := entries.map Prod.fst
  preStateRoot := zeros 32
  materializedState := []
  plannedTransactions := idlePlan transactions
  transactionAuthorizationMaterials := entries.map Prod.snd

/-- The block is imported when the table has an admissible entry for each transaction. -/
theorem accepted_idleScenario {transactions : List TransactionEnvelope}
    {entries : List AdmissionEntry} {table : AdmissionTable}
    (known : ∀ t ∈ transactions, ∃ entry,
      table.get? (Ssz.payloadRootRun Sha256.digest t.payload).value = some entry ∧
      ∃ v, Logged.outcome (echoRuntime.validateTransaction Sha256.digest entry.1 entry.2) =
        .ok v) :
    Accepted Sha256.digest ⟨echoRuntime.importConfig⟩
      (idleScenario transactions entries).block.header.toConsensus
      (idleScenario transactions entries).block.body.toConsensus
      (idleScenario transactions entries).block.sidecar.toConsensus
      (echoRuntime.importServices Sha256.digest (idleScenario transactions entries) table)
      (padTo 32 [1]) ⟨1, [0xBB]⟩ (ReferenceExecutionEngine.plannedOutcome Sha256.digest
        ⟨zeros 32, [], idlePlan transactions⟩) where
  headerRoot := rfl
  witnessBytes maxBytes hmax := by cases hmax
  bodyRoot := rfl
  resolved := rfl
  signed := rfl
  revalidated t ht := (revalidate_eq_ok_iff _ _ .requireAll).mpr (known t ht)
  sidecarRoot := rfl
  commitment := rfl
  prepared := (prepareWitness_eq_ok_iff Sha256.digest
    ⟨(idleScenario transactions entries).preStateRoot,
      (idleScenario transactions entries).materializedState,
      (idleScenario transactions entries).block.sidecar.witnesses⟩
    (idleScenario transactions entries).block.header.toConsensus
    (idleScenario transactions entries).block.sidecar.toConsensus).mpr ⟨rfl, .new, rfl, rfl, rfl⟩
  execution := by
    refine (ReferenceExecutionEngine.executeBlock_eq_ok_iff Sha256.digest _).mpr
      ⟨List.Pairwise.nil, rfl, ?_, rfl⟩
    refine List.forall₂_map_right_iff.mpr (List.forall₂_same.mpr ?_)
    intro t _
    have hidle : (⟨[], []⟩ : StatePatch).Canonical := by decide
    exact ⟨rfl, hidle⟩
  postState := rfl
  receipts := rfl

/-- The table the scenario's admission list gives. -/
def unsignedTable : AdmissionTable :=
  SortedMap.empty.insert (Ssz.payloadRootRun Sha256.digest unsignedTransfer.payload).value
    (AdmissionPipeline.authorizedTransfer, [⟨[0xAA]⟩])

theorem admitted_authorizedTransfer :
    ∃ v, Logged.outcome (echoRuntime.validateTransaction Sha256.digest
      AdmissionPipeline.authorizedTransfer [⟨[0xAA]⟩]) = .ok v :=
  ⟨_, (AdmissionPipeline.admitAndVerify_eq_ok_iff _).mpr
    ⟨⟨AdmissionPipeline.screened_authorizedTransfer, rfl⟩,
      AdmissionPipeline.allAccepted_authorizedTransfer _, rfl⟩⟩

theorem accepted_unsignedScenario :
    Accepted Sha256.digest ⟨echoRuntime.importConfig⟩
      unsignedScenario.block.header.toConsensus unsignedScenario.block.body.toConsensus
      unsignedScenario.block.sidecar.toConsensus
      (echoRuntime.importServices Sha256.digest unsignedScenario unsignedTable)
      (padTo 32 [1]) ⟨1, [0xBB]⟩ (idleEngine.plannedOutcome Sha256.digest) := by
  refine @accepted_idleScenario [unsignedTransfer]
    [(AdmissionPipeline.authorizedTransfer, [⟨[0xAA]⟩])] unsignedTable ?_
  intro t ht
  obtain rfl := List.mem_singleton.mp ht
  have hfound : unsignedTable.get?
      (Ssz.payloadRootRun Sha256.digest unsignedTransfer.payload).value =
      some (AdmissionPipeline.authorizedTransfer, [⟨[0xAA]⟩]) := by
    rw [unsignedTable, get?_insert, if_pos rfl]
  exact ⟨_, hfound, admitted_authorizedTransfer⟩

theorem run_unsignedScenario :
    ∃ o, echoRuntime.run Sha256.digest unsignedScenario = .ok o := by
  obtain ⟨v, hv⟩ := admitted_authorizedTransfer
  refine ⟨⟨[v], _⟩, (LocalReferenceRuntime.run_eq_ok_iff _).mpr
    ⟨rfl, ?_, unsignedTable, ?_, (importBlock_eq_ok_iff _).mpr
      ⟨_, _, _, accepted_unsignedScenario, rfl⟩⟩⟩
  · refine (mapM_eq_ok_iff _ _ _).mpr (List.Forall₂.cons ?_ List.Forall₂.nil)
    exact (mapError_eq_ok_iff _ _ _).mpr hv
  · refine (collectAdmissionTransactions_eq_ok_iff Sha256.digest _ _ _).mpr ⟨?_, ?_, rfl⟩
    · exact List.nodup_singleton _
    · intro entry _
      rfl

/-- The run accepts a block whose only transaction carries no authorization at all. -/
theorem unsigned_block_accepted :
    (∃ o, echoRuntime.run Sha256.digest unsignedScenario = .ok o) ∧
      ¬ ∀ t ∈ unsignedScenario.block.body.transactions,
        ∃ materials ∈ unsignedScenario.transactionAuthorizationMaterials,
          LocalReferenceRuntime.Verified Sha256.digest echoRuntime
            (Ssz.payloadRootRun Sha256.digest t.payload).value t.authorizations materials := by
  refine ⟨run_unsignedScenario, fun hclaim => ?_⟩
  obtain ⟨materials, -, hverified⟩ := hclaim unsignedTransfer (List.mem_singleton.mpr rfl)
  exact hverified.authorized rfl

theorem body_verified_through_admission_sample :
    ∃ (i : Nat) (a : TransactionEnvelope),
      unsignedScenario.admissionTransactions[i]? = some a ∧
      a.payloadRoot Sha256.digest = unsignedTransfer.payloadRoot Sha256.digest ∧
      a.authorizations ≠ [] := by
  obtain ⟨o, ho⟩ := run_unsignedScenario
  obtain ⟨i, a, materials, ha, -, hroot, -, hverified⟩ :=
    LocalReferenceRuntime.body_verified_through_admission Sha256.digest echoRuntime
      unsignedScenario o ho unsignedTransfer (List.mem_singleton.mpr rfl)
  exact ⟨i, a, ha, hroot, hverified.authorized⟩

end ShellCli
