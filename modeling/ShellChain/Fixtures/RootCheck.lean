import ShellChain.Fixtures.Commitments
import ShellChain.Fixtures.Materializer
import ShellChain.Fixtures.Vectors

/-!
# Root-check scenarios

`shell-fixtures`: a root-check vector names the transaction and witness vectors
of one block and what each transaction writes. Resolving it loads these vectors
and asserts, one after the other, that they fit together; what comes out is the
scenario the reference runtime is run on. The files the vectors are loaded from
are a parameter.
-/

namespace ShellFixtures

open ByteCodec ShellPrimitives ShellState ShellCli Except

/-! ## The vector -/

structure RootCheckHeaderInput where
  blockRoot : String
  blockNumber : UInt64
  timestamp : UInt64
  proposerIndex : UInt64
  parentRoot : String
  transactionsRoot : String
  executionWitnessesRoot : String
  stateRoot : String
  receiptsRoot : String
  witnessBytes : UInt64
  proposerSignatureHex : String

structure RootCheckBodyInput where
  transactionVectorIds : List String

structure RootCheckSidecarInput where
  blockRoot : String
  witnessVectorIds : List String

structure RootCheckExecutionStep where
  transactionVectorId : String
  witnessVectorId : String
  newLeafValueHex : String
  receiptStatusCode : UInt8
  receiptOutputHex : String

structure RootCheckExecutionInput where
  steps : List RootCheckExecutionStep

structure RootCheckInput where
  header : RootCheckHeaderInput
  body : RootCheckBodyInput
  sidecar : RootCheckSidecarInput
  execution : RootCheckExecutionInput

structure RootCheckVector where
  id : String
  input : RootCheckInput
  transactionsRoot : String
  executionWitnessesRoot : String
  stateRoot : String
  receiptsRoot : String

/-! ## The scenario -/

structure RootCheckScenarioHeader where
  blockRoot : Root
  blockNumber : UInt64
  timestamp : UInt64
  proposerIndex : UInt64
  parentRoot : Root
  transactionsRoot : Root
  executionWitnessesRoot : Root
  stateRoot : Root
  receiptsRoot : Root
  witnessBytes : UInt64
  proposerSignature : List UInt8
  deriving DecidableEq

structure RootCheckScenarioSidecar where
  blockRoot : Root
  deriving DecidableEq

structure RootCheckScenarioStep where
  transactionRoot : Root
  key : StateKey
  newLeafValue : MockProgressiveByteList
  receiptStatusCode : UInt8
  receiptOutput : MockProgressiveByteList
  deriving DecidableEq

structure RootCheckScenario where
  header : RootCheckScenarioHeader
  sidecar : RootCheckScenarioSidecar
  transactions : List TransactionEnvelope
  witnesses : List StateWitness
  materializedState : List (StateKey × MockProgressiveByteList)
  preStateRoot : Root
  steps : List RootCheckScenarioStep
  deriving DecidableEq

/-! ## Resolution -/

/-- The two roots an assertion found different. -/
inductive DriftedRoot where
  | computedTransactions
  | headerTransactions
  | computedExecutionWitnesses
  | headerExecutionWitnesses
  | witnessPreState
  | headerState
  | headerReceipts
  | sidecarBlock
  deriving DecidableEq

inductive RootCheckPanic where
  | unreadableFixture (category id : String)
  | vector (panic : VectorPanic)
  | nonAcceptFixture (fixtureId category id outcome : String)
  | transactionsRoot (fixtureId : String) (err : PrimitiveError)
  | rootDrifted (fixtureId : String) (drifted : DriftedRoot) (left right : Root)
  | noSingleWitness (vectorId : String)
  | noWitnessFixture (fixtureId : String)
  | emptyPreState (fixtureId : String)
  | undeclaredStateRoot (fixtureId : String)
  | materialize (panic : MaterializePanic)
  | witnessVerification (fixtureId : String) (err : StateError)
  | stateRootDisagreement (fixtureId : String) (left : Option Root) (right : Root)
  | materializedStateDisagreement (fixtureId : String)
      (left right : List (StateKey × MockProgressiveByteList))
  | misalignedStep (fixtureId left right : String)
  | missingWitness (fixtureId witnessVectorId : String)
  | transactionRoot (fixtureId : String) (err : PrimitiveError)
  | stepCount (fixtureId : String) (left right : Nat)
  deriving DecidableEq

/-- `assert_eq!`. -/
def assertEq {α : Type} [DecidableEq α] (left right : α) (panic : α → α → RootCheckPanic) :
    Except RootCheckPanic Unit :=
  if left = right then .ok () else .error (panic left right)

/-- The vectors on disk by their ids; what cannot be read or parsed is `none`. -/
structure FixtureStore where
  transactions : String → Option TransactionVector
  witnesses : String → Option WitnessVector

def readRoot (value : String) : Except RootCheckPanic Root :=
  (parseRoot value).mapError (.vector ∘ .hex)

def readBytes (value : String) : Except RootCheckPanic (List UInt8) :=
  (parseHex value).mapError (.vector ∘ .hex)

/-- A stable sort by key. -/
def sortByKey (entries : List (StateKey × MockProgressiveByteList)) :
    List (StateKey × MockProgressiveByteList) :=
  entries.mergeSort fun left right => (compareStateKeys left.1 right.1).isLE

def canonicalRootCheckMaterializedState (fixtureId : String)
    (materializedState : List (StateKey × MockProgressiveByteList)) :
    Except RootCheckPanic (List (StateKey × MockProgressiveByteList)) :=
  let canonical := sortByKey materializedState
  if canonical.isEmpty then .error (.emptyPreState fixtureId) else .ok canonical

section
variable (store : FixtureStore)

def loadTransactionFixtureById (id : String) : Except RootCheckPanic TransactionVector :=
  match store.transactions id with
  | none => .error (.unreadableFixture "transactions" id)
  | some vector => .ok vector

def loadWitnessFixtureById (id : String) : Except RootCheckPanic WitnessVector :=
  match store.witnesses id with
  | none => .error (.unreadableFixture "witnesses" id)
  | some vector => .ok vector

/-- One transaction of the body. -/
def resolveTransaction (fixture : RootCheckVector) (id : String) :
    Except RootCheckPanic TransactionEnvelope := do
  let vector ← loadTransactionFixtureById store id
  assertEq vector.expectedOutcome "accept" fun outcome _ =>
    .nonAcceptFixture fixture.id "transaction" id outcome
  vector.envelope.mapError .vector

/-- One witness vector of the sidecar. -/
def resolveWitnessVector (fixture : RootCheckVector) (id : String) :
    Except RootCheckPanic WitnessVector := do
  let vector ← loadWitnessFixtureById store id
  assertEq vector.expectedOutcome "accept" fun outcome _ =>
    .nonAcceptFixture fixture.id "witness" id outcome
  .ok vector

end

def singleWitness (vector : WitnessVector) : Except RootCheckPanic StateWitness := do
  match ← vector.witness.mapError .vector with
  | none => .error (.noSingleWitness vector.id)
  | some witness => .ok witness

def declaredStateRoot (fixture : RootCheckVector) (vector : WitnessVector) :
    Except RootCheckPanic Root := do
  match ← vector.expectedStateRoot.mapError .vector with
  | none => .error (.undeclaredStateRoot fixture.id)
  | some root => .ok root

/-- The witness a step names, by the id inside the vector. -/
def stepWitness (fixture : RootCheckVector) (witnessVectors : List WitnessVector)
    (witnessVectorId : String) : Except RootCheckPanic StateWitness :=
  match witnessVectors.find? fun vector => vector.id == witnessVectorId with
  | none => .error (.missingWitness fixture.id witnessVectorId)
  | some vector => do
    match ← vector.witness.mapError .vector with
    | none => .error (.missingWitness fixture.id witnessVectorId)
    | some witness => .ok witness

/-- Every witness vector after the first has to repeat its pre-state. -/
def checkAgreement (fixture : RootCheckVector) (preStateRoot : Root)
    (baseMaterialized : List (StateKey × MockProgressiveByteList)) (vector : WitnessVector) :
    Except RootCheckPanic Unit := do
  let expected ← vector.expectedStateRoot.mapError .vector
  assertEq expected (some preStateRoot) fun left _ =>
    .stateRootDisagreement fixture.id left preStateRoot
  let materialized ← vector.materializedState.mapError .vector
  let canonical ← canonicalRootCheckMaterializedState fixture.id materialized
  assertEq canonical baseMaterialized (.materializedStateDisagreement fixture.id)

section
variable (sha256 : List UInt8 → Root)

def resolveStep (fixture : RootCheckVector) (witnessVectors : List WitnessVector)
    (step : RootCheckExecutionStep) (transactionId : String) (transaction : TransactionEnvelope) :
    Except RootCheckPanic RootCheckScenarioStep := do
  assertEq step.transactionVectorId transactionId (.misalignedStep fixture.id)
  let witness ← stepWitness fixture witnessVectors step.witnessVectorId
  let transactionRoot ← (transaction.canonicalRoot sha256).mapError (.transactionRoot fixture.id)
  let newLeafValue ← readBytes step.newLeafValueHex
  let receiptOutput ← readBytes step.receiptOutputHex
  .ok ⟨transactionRoot, witness.key, newLeafValue, step.receiptStatusCode, receiptOutput⟩

def resolveTransactions (store : FixtureStore) (fixture : RootCheckVector) :
    Except RootCheckPanic (List TransactionEnvelope × Root) := do
  let transactions ←
    fixture.input.body.transactionVectorIds.mapM (resolveTransaction store fixture)
  let expected ← readRoot fixture.transactionsRoot
  let computed ←
    (computeTransactionsRoot sha256 transactions).mapError (.transactionsRoot fixture.id)
  assertEq computed expected (.rootDrifted fixture.id .computedTransactions)
  let header ← readRoot fixture.input.header.transactionsRoot
  assertEq header expected (.rootDrifted fixture.id .headerTransactions)
  .ok (transactions, expected)

def resolveWitnesses (store : FixtureStore) (fixture : RootCheckVector) :
    Except RootCheckPanic (List WitnessVector × List StateWitness × Root) := do
  let witnessVectors ←
    fixture.input.sidecar.witnessVectorIds.mapM (resolveWitnessVector store fixture)
  let witnesses ← witnessVectors.mapM singleWitness
  let expected ← readRoot fixture.executionWitnessesRoot
  assertEq (computeExecutionWitnessesRoot sha256 witnesses) expected
    (.rootDrifted fixture.id .computedExecutionWitnesses)
  let header ← readRoot fixture.input.header.executionWitnessesRoot
  assertEq header expected (.rootDrifted fixture.id .headerExecutionWitnesses)
  .ok (witnessVectors, witnesses, expected)

/-- The pre-state is that of the first witness vector. -/
def resolvePreState (fixture : RootCheckVector) (witnessVectors : List WitnessVector)
    (witnesses : List StateWitness) :
    Except RootCheckPanic (List (StateKey × MockProgressiveByteList) × Root) := do
  match witnessVectors with
  | [] => .error (.noWitnessFixture fixture.id)
  | first :: rest =>
    let materialized ← first.materializedState.mapError .vector
    let baseMaterialized ← canonicalRootCheckMaterializedState fixture.id materialized
    let preStateRoot ← declaredStateRoot fixture first
    let accumulator ← (materializeRootCheckAccumulator sha256 baseMaterialized fixture.id).mapError
      .materialize
    assertEq accumulator.stateRoot preStateRoot (.rootDrifted fixture.id .witnessPreState)
    (accumulator.verifyWitnesses witnesses preStateRoot).mapError (.witnessVerification fixture.id)
    rest.forM (checkAgreement fixture preStateRoot baseMaterialized)
    .ok (baseMaterialized, preStateRoot)

def resolveSteps (fixture : RootCheckVector) (witnessVectors : List WitnessVector)
    (transactions : List TransactionEnvelope) :
    Except RootCheckPanic (List RootCheckScenarioStep) := do
  let steps ← ((fixture.input.execution.steps.zip fixture.input.body.transactionVectorIds).zip
    transactions).mapM fun ((step, transactionId), transaction) =>
      resolveStep sha256 fixture witnessVectors step transactionId transaction
  assertEq steps.length transactions.length (.stepCount fixture.id)
  .ok steps

def resolveRootCheckScenario (store : FixtureStore) (fixture : RootCheckVector) :
    Except RootCheckPanic RootCheckScenario := do
  let (transactions, transactionsRoot) ← resolveTransactions sha256 store fixture
  let (witnessVectors, witnesses, executionWitnessesRoot) ← resolveWitnesses sha256 store fixture
  let (materializedState, preStateRoot) ←
    resolvePreState sha256 fixture witnessVectors witnesses
  let steps ← resolveSteps sha256 fixture witnessVectors transactions
  let stateRoot ← readRoot fixture.stateRoot
  let receiptsRoot ← readRoot fixture.receiptsRoot
  assertEq (← readRoot fixture.input.header.stateRoot) stateRoot
    (.rootDrifted fixture.id .headerState)
  assertEq (← readRoot fixture.input.header.receiptsRoot) receiptsRoot
    (.rootDrifted fixture.id .headerReceipts)
  let blockRoot ← readRoot fixture.input.header.blockRoot
  assertEq (← readRoot fixture.input.sidecar.blockRoot) blockRoot
    (.rootDrifted fixture.id .sidecarBlock)
  let parentRoot ← readRoot fixture.input.header.parentRoot
  let proposerSignature ← readBytes fixture.input.header.proposerSignatureHex
  .ok
    { header :=
        { blockRoot
          blockNumber := fixture.input.header.blockNumber
          timestamp := fixture.input.header.timestamp
          proposerIndex := fixture.input.header.proposerIndex
          parentRoot, transactionsRoot, executionWitnessesRoot, stateRoot, receiptsRoot
          witnessBytes := fixture.input.header.witnessBytes
          proposerSignature }
      sidecar := ⟨blockRoot⟩
      transactions, witnesses, materializedState, preStateRoot, steps }

end

/-! ## The stages -/

section
variable {store : FixtureStore} {fixture : RootCheckVector}

theorem assertEq_eq_ok_iff {α : Type} [DecidableEq α] {left right : α}
    {panic : α → α → RootCheckPanic} {u : Unit} :
    assertEq left right panic = .ok u ↔ left = right := by
  by_cases h : left = right
  · simp [assertEq, h]
  · simp [assertEq, h]

theorem readRoot_eq_ok_iff {value : String} {root : Root} :
    readRoot value = .ok root ↔ parseRoot value = .ok root :=
  mapError_eq_ok_iff _ _ _

theorem readBytes_eq_ok_iff {value : String} {bytes : List UInt8} :
    readBytes value = .ok bytes ↔ parseHex value = .ok bytes :=
  mapError_eq_ok_iff _ _ _

theorem resolveTransaction_eq_ok_iff {id : String} {transaction : TransactionEnvelope} :
    resolveTransaction store fixture id = .ok transaction ↔
      ∃ vector, store.transactions id = some vector ∧ vector.expectedOutcome = "accept" ∧
        vector.envelope = .ok transaction := by
  rw [resolveTransaction, loadTransactionFixtureById]
  cases store.transactions id with
  | none => simp [error_bind]
  | some vector => simp [ok_bind, check_bind_eq_ok_iff, assertEq_eq_ok_iff, mapError_eq_ok_iff]

theorem resolveWitnessVector_eq_ok_iff {id : String} {vector : WitnessVector} :
    resolveWitnessVector store fixture id = .ok vector ↔
      store.witnesses id = some vector ∧ vector.expectedOutcome = "accept" := by
  rw [resolveWitnessVector, loadWitnessFixtureById]
  cases store.witnesses id with
  | none => simp [error_bind]
  | some vector' =>
    simp only [ok_bind, check_bind_eq_ok_iff, assertEq_eq_ok_iff, Except.ok.injEq,
      Option.some.injEq]
    constructor
    · rintro ⟨houtcome, rfl⟩
      exact ⟨rfl, houtcome⟩
    · rintro ⟨rfl, houtcome⟩
      exact ⟨houtcome, rfl⟩

theorem singleWitness_eq_ok_iff {vector : WitnessVector} {witness : StateWitness} :
    singleWitness vector = .ok witness ↔ vector.witness = .ok (some witness) := by
  rw [singleWitness]
  cases vector.witness with
  | error e => simp [Except.mapError, error_bind]
  | ok found =>
    cases found with
    | none => simp [Except.mapError, ok_bind]
    | some w => simp [Except.mapError, ok_bind]

end

section
variable {sha256 : List UInt8 → Root} {store : FixtureStore} {fixture : RootCheckVector}

theorem resolveTransactions_eq_ok_iff {transactions : List TransactionEnvelope} {root : Root} :
    resolveTransactions sha256 store fixture = .ok (transactions, root) ↔
      List.Forall₂ (fun id t => resolveTransaction store fixture id = .ok t)
        fixture.input.body.transactionVectorIds transactions ∧
      parseRoot fixture.transactionsRoot = .ok root ∧
      computeTransactionsRoot sha256 transactions = .ok root ∧
      parseRoot fixture.input.header.transactionsRoot = .ok root := by
  simp only [resolveTransactions, bind_eq_ok_iff, mapM_eq_ok_iff, readRoot_eq_ok_iff,
    mapError_eq_ok_iff, assertEq_eq_ok_iff, Except.ok.injEq, Prod.mk.injEq]
  constructor
  · rintro ⟨ts, hts, expected, hexpected, computed, hcomputed, _, rfl, header, hheader, _, rfl,
      rfl, rfl⟩
    exact ⟨hts, hexpected, hcomputed, hheader⟩
  · rintro ⟨hts, hexpected, hcomputed, hheader⟩
    exact ⟨_, hts, _, hexpected, _, hcomputed, ⟨⟩, rfl, _, hheader, ⟨⟩, rfl, rfl, rfl⟩

theorem resolveWitnesses_eq_ok_iff {vectors : List WitnessVector} {witnesses : List StateWitness}
    {root : Root} :
    resolveWitnesses sha256 store fixture = .ok (vectors, witnesses, root) ↔
      List.Forall₂ (fun id v => resolveWitnessVector store fixture id = .ok v)
        fixture.input.sidecar.witnessVectorIds vectors ∧
      List.Forall₂ (fun v w => singleWitness v = .ok w) vectors witnesses ∧
      parseRoot fixture.executionWitnessesRoot = .ok root ∧
      computeExecutionWitnessesRoot sha256 witnesses = root ∧
      parseRoot fixture.input.header.executionWitnessesRoot = .ok root := by
  simp only [resolveWitnesses, bind_eq_ok_iff, mapM_eq_ok_iff, readRoot_eq_ok_iff,
    assertEq_eq_ok_iff, Except.ok.injEq, Prod.mk.injEq]
  constructor
  · rintro ⟨vs, hvs, ws, hws, expected, hexpected, _, hcomputed, header, hheader, _, rfl, rfl, rfl,
      rfl⟩
    exact ⟨hvs, hws, hexpected, hcomputed, hheader⟩
  · rintro ⟨hvs, hws, hexpected, hcomputed, hheader⟩
    exact ⟨_, hvs, _, hws, _, hexpected, ⟨⟩, hcomputed, _, hheader, ⟨⟩, rfl, rfl, rfl, rfl⟩

/-- A witness vector lists the pre-state, in any order, and declares its root. -/
structure DeclaresPreState (vector : WitnessVector)
    (base : List (StateKey × MockProgressiveByteList)) (root : Root) : Prop where
  state : ∃ entries, vector.materializedState = .ok entries ∧ sortByKey entries = base
  root : vector.expectedStateRoot = .ok (some root)

theorem canonicalRootCheckMaterializedState_eq_ok_iff {id : String}
    {entries base : List (StateKey × MockProgressiveByteList)} :
    canonicalRootCheckMaterializedState id entries = .ok base ↔
      sortByKey entries = base ∧ base ≠ [] := by
  simp only [canonicalRootCheckMaterializedState, ite_error_eq_ok_iff, List.isEmpty_iff,
    Except.ok.injEq]
  constructor
  · rintro ⟨hnonempty, rfl⟩
    exact ⟨rfl, hnonempty⟩
  · rintro ⟨rfl, hnonempty⟩
    exact ⟨hnonempty, rfl⟩

theorem checkAgreement_eq_ok_iff {base : List (StateKey × MockProgressiveByteList)}
    (nonempty : base ≠ []) {root : Root} {vector : WitnessVector} :
    checkAgreement fixture root base vector = .ok () ↔ DeclaresPreState vector base root := by
  simp only [checkAgreement, bind_eq_ok_iff, mapError_eq_ok_iff, assertEq_eq_ok_iff,
    canonicalRootCheckMaterializedState_eq_ok_iff]
  constructor
  · rintro ⟨_, hroot, _, rfl, entries, hentries, canonical, ⟨hsorted, -⟩, rfl⟩
    exact ⟨⟨entries, hentries, hsorted⟩, hroot⟩
  · rintro ⟨⟨entries, hentries, hsorted⟩, hroot⟩
    exact ⟨_, hroot, ⟨⟩, rfl, entries, hentries, base, ⟨hsorted, nonempty⟩, rfl⟩

theorem materializeRootCheckAccumulator_eq_ok_iff
    {base : List (StateKey × MockProgressiveByteList)} (nonempty : base ≠ []) {id : String}
    {acc : InMemoryAccumulator} :
    materializeRootCheckAccumulator sha256 base id = .ok acc ↔
      (base.map Prod.fst).Pairwise StateKey.Before ∧ acc = materialized sha256 base := by
  rw [materializeRootCheckAccumulator_of_ne_nil sha256 nonempty, mapError_eq_ok_iff,
    materializeAccumulator_eq_ok_iff]

/-- The state the witnesses are checked against. -/
structure SoundPreState (sha256 : List UInt8 → Root)
    (base : List (StateKey × MockProgressiveByteList)) (root : Root)
    (witnesses : List StateWitness) : Prop where
  nonempty : base ≠ []
  increasing : (base.map Prod.fst).Pairwise StateKey.Before
  committed : (materialized sha256 base).root = root
  verified : (materialized sha256 base).verifyWitnesses witnesses root = .ok ()

theorem declaredStateRoot_eq_ok_iff {vector : WitnessVector} {root : Root} :
    declaredStateRoot fixture vector = .ok root ↔ vector.expectedStateRoot = .ok (some root) := by
  rw [declaredStateRoot]
  cases vector.expectedStateRoot with
  | error e => simp [Except.mapError, error_bind]
  | ok declared =>
    cases declared with
    | none => simp [Except.mapError, ok_bind]
    | some r => simp [Except.mapError, ok_bind]

theorem resolvePreState_eq_ok_iff {vectors : List WitnessVector} {witnesses : List StateWitness}
    {base : List (StateKey × MockProgressiveByteList)} {root : Root} :
    resolvePreState sha256 fixture vectors witnesses = .ok (base, root) ↔
      vectors ≠ [] ∧ (∀ v ∈ vectors, DeclaresPreState v base root) ∧
        SoundPreState sha256 base root witnesses := by
  cases vectors with
  | nil => simp [resolvePreState]
  | cons first rest =>
    have hloop : ∀ {base root}, base ≠ [] →
        (rest.forM (checkAgreement fixture root base) = .ok ⟨⟩ ↔
          ∀ v ∈ rest, DeclaresPreState v base root) := by
      intro base root hnonempty
      refine (forM_eq_ok_iff _ _).trans ?_
      simp only [checkAgreement_eq_ok_iff hnonempty]
    simp only [resolvePreState, bind_eq_ok_iff, mapError_eq_ok_iff, assertEq_eq_ok_iff,
      canonicalRootCheckMaterializedState_eq_ok_iff, declaredStateRoot_eq_ok_iff,
      List.forall_mem_cons, Except.ok.injEq, Prod.mk.injEq]
    constructor
    · rintro ⟨entries, hentries, base', ⟨hsorted, hnonempty⟩, root', hdeclared, acc, hacc, _,
        hstate, _, hverified, _, hrest, rfl, rfl⟩
      obtain ⟨hincreasing, rfl⟩ := (materializeRootCheckAccumulator_eq_ok_iff hnonempty).mp hacc
      exact ⟨List.cons_ne_nil _ _, ⟨⟨⟨entries, hentries, hsorted⟩, hdeclared⟩,
        (hloop hnonempty).mp hrest⟩, ⟨hnonempty, hincreasing, hstate, hverified⟩⟩
    · rintro ⟨-, ⟨⟨⟨entries, hentries, hsorted⟩, hdeclared⟩, hrest⟩, hsound⟩
      exact ⟨entries, hentries, base, ⟨hsorted, hsound.nonempty⟩, root, hdeclared, _,
        (materializeRootCheckAccumulator_eq_ok_iff hsound.nonempty).mpr ⟨hsound.increasing, rfl⟩,
        ⟨⟩, hsound.committed, ⟨⟩, hsound.verified, ⟨⟩, (hloop hsound.nonempty).mpr hrest, rfl, rfl⟩

theorem stepWitness_eq_ok_iff {vectors : List WitnessVector} {id : String}
    {witness : StateWitness} :
    stepWitness fixture vectors id = .ok witness ↔
      ∃ vector, (vectors.find? fun v => v.id == id) = some vector ∧
        vector.witness = .ok (some witness) := by
  rw [stepWitness]
  cases vectors.find? fun v => v.id == id with
  | none => simp
  | some vector =>
    simp only [Option.some.injEq, exists_eq_left']
    cases vector.witness with
    | error e => simp [Except.mapError, error_bind]
    | ok found =>
      cases found with
      | none => simp [Except.mapError, ok_bind]
      | some w => simp [Except.mapError, ok_bind]

/-- What a step of the vector says about a transaction. -/
structure ReadsStep (sha256 : List UInt8 → Root) (fixture : RootCheckVector)
    (vectors : List WitnessVector) (step : RootCheckExecutionStep) (id : String)
    (transaction : TransactionEnvelope) (read : RootCheckScenarioStep) : Prop where
  aligned : step.transactionVectorId = id
  witness : ∃ w, stepWitness fixture vectors step.witnessVectorId = .ok w ∧ w.key = read.key
  transactionRoot : transaction.canonicalRoot sha256 = .ok read.transactionRoot
  newLeafValue : parseHex step.newLeafValueHex = .ok read.newLeafValue
  receiptStatusCode : step.receiptStatusCode = read.receiptStatusCode
  receiptOutput : parseHex step.receiptOutputHex = .ok read.receiptOutput

theorem resolveStep_eq_ok_iff {vectors : List WitnessVector} {step : RootCheckExecutionStep}
    {id : String} {transaction : TransactionEnvelope} {read : RootCheckScenarioStep} :
    resolveStep sha256 fixture vectors step id transaction = .ok read ↔
      ReadsStep sha256 fixture vectors step id transaction read := by
  simp only [resolveStep, bind_eq_ok_iff, assertEq_eq_ok_iff, mapError_eq_ok_iff,
    readBytes_eq_ok_iff]
  constructor
  · rintro ⟨_, haligned, w, hw, root, hroot, value, hvalue, output, houtput, hread⟩
    obtain rfl := Except.ok.inj hread
    exact ⟨haligned, ⟨w, hw, rfl⟩, hroot, hvalue, rfl, houtput⟩
  · rintro ⟨haligned, ⟨w, hw, hkey⟩, hroot, hvalue, hstatus, houtput⟩
    refine ⟨⟨⟩, haligned, w, hw, _, hroot, _, hvalue, _, houtput, ?_⟩
    rw [hkey, hstatus]

/-- The steps of the vector in the order of the body, each with its transaction. -/
def alignedSteps (fixture : RootCheckVector) (transactions : List TransactionEnvelope) :
    List ((RootCheckExecutionStep × String) × TransactionEnvelope) :=
  (fixture.input.execution.steps.zip fixture.input.body.transactionVectorIds).zip transactions

theorem resolveSteps_eq_ok_iff {vectors : List WitnessVector}
    {transactions : List TransactionEnvelope} {steps : List RootCheckScenarioStep} :
    resolveSteps sha256 fixture vectors transactions = .ok steps ↔
      List.Forall₂ (fun p read => ReadsStep sha256 fixture vectors p.1.1 p.1.2 p.2 read)
        (alignedSteps fixture transactions) steps ∧ steps.length = transactions.length := by
  simp only [resolveSteps, bind_eq_ok_iff, mapM_eq_ok_iff, assertEq_eq_ok_iff,
    resolveStep_eq_ok_iff, Except.ok.injEq]
  constructor
  · rintro ⟨steps', hsteps, _, hlength, rfl⟩
    exact ⟨hsteps, hlength⟩
  · rintro ⟨hsteps, hlength⟩
    exact ⟨steps, hsteps, ⟨⟩, hlength, rfl⟩

/-- Everything resolution finds out. -/
structure Resolves (sha256 : List UInt8 → Root) (store : FixtureStore) (fixture : RootCheckVector)
    (vectors : List WitnessVector) (scenario : RootCheckScenario) : Prop where
  transactions : resolveTransactions sha256 store fixture =
    .ok (scenario.transactions, scenario.header.transactionsRoot)
  witnesses : resolveWitnesses sha256 store fixture =
    .ok (vectors, scenario.witnesses, scenario.header.executionWitnessesRoot)
  preState : resolvePreState sha256 fixture vectors scenario.witnesses =
    .ok (scenario.materializedState, scenario.preStateRoot)
  steps : resolveSteps sha256 fixture vectors scenario.transactions = .ok scenario.steps
  stateRoot : parseRoot fixture.stateRoot = .ok scenario.header.stateRoot ∧
    parseRoot fixture.input.header.stateRoot = .ok scenario.header.stateRoot
  receiptsRoot : parseRoot fixture.receiptsRoot = .ok scenario.header.receiptsRoot ∧
    parseRoot fixture.input.header.receiptsRoot = .ok scenario.header.receiptsRoot
  blockRoot : parseRoot fixture.input.header.blockRoot = .ok scenario.header.blockRoot ∧
    parseRoot fixture.input.sidecar.blockRoot = .ok scenario.header.blockRoot
  sidecar : scenario.sidecar.blockRoot = scenario.header.blockRoot
  parentRoot : parseRoot fixture.input.header.parentRoot = .ok scenario.header.parentRoot
  proposerSignature : parseHex fixture.input.header.proposerSignatureHex =
    .ok scenario.header.proposerSignature
  copied : scenario.header.blockNumber = fixture.input.header.blockNumber ∧
    scenario.header.timestamp = fixture.input.header.timestamp ∧
    scenario.header.proposerIndex = fixture.input.header.proposerIndex ∧
    scenario.header.witnessBytes = fixture.input.header.witnessBytes

theorem resolveRootCheckScenario_eq_ok_iff {scenario : RootCheckScenario} :
    resolveRootCheckScenario sha256 store fixture = .ok scenario ↔
      ∃ vectors, Resolves sha256 store fixture vectors scenario := by
  simp only [resolveRootCheckScenario, bind_eq_ok_iff, assertEq_eq_ok_iff, readRoot_eq_ok_iff,
    readBytes_eq_ok_iff, Prod.exists]
  constructor
  · rintro ⟨ts, tsRoot, hts, vectors, ws, wsRoot, hws, base, preRoot, hpre, steps, hsteps,
      stateRoot, hstate, receiptsRoot, hreceipts, _, hheaderState, _, rfl, _, hheaderReceipts, _,
      rfl, blockRoot, hblock, _, hsidecar, _, rfl, parentRoot, hparent, signature, hsignature, h⟩
    obtain rfl := Except.ok.inj h
    exact ⟨vectors, hts, hws, hpre, hsteps, ⟨hstate, hheaderState⟩, ⟨hreceipts, hheaderReceipts⟩,
      ⟨hblock, hsidecar⟩, rfl, hparent, hsignature, rfl, rfl, rfl, rfl⟩
  · rintro ⟨vectors, h⟩
    obtain ⟨⟨blockRoot, blockNumber, timestamp, proposerIndex, parentRoot, transactionsRoot,
      executionWitnessesRoot, stateRoot, receiptsRoot, witnessBytes, proposerSignature⟩, ⟨sidecar⟩,
      transactions, witnesses, materializedState, preStateRoot, steps⟩ := scenario
    obtain rfl : sidecar = blockRoot := h.sidecar
    obtain ⟨rfl, rfl, rfl, rfl⟩ := h.copied
    exact ⟨_, _, h.transactions, _, _, _, h.witnesses, _, _, h.preState, _, h.steps, _,
      h.stateRoot.1, _, h.receiptsRoot.1, _, h.stateRoot.2, ⟨⟩, rfl, _, h.receiptsRoot.2, ⟨⟩, rfl,
      _, h.blockRoot.1, _, h.blockRoot.2, ⟨⟩, rfl, _, h.parentRoot, _, h.proposerSignature, rfl⟩

end

end ShellFixtures
