import ShellChain.Primitives.Ssz
import ShellChain.State.LastWriter

/-!
# Block execution

`shell-execution`: receipts, the block loop and the executor that replays a
plan. The executor and the state applier of the loop are services with a state
of their own behind a shared reference, so the loop returns both states with
its result, also when it stops early.
-/

namespace ShellExecution

open ByteCodec ShellPrimitives ShellState

/-! ## Outputs -/

structure ExecutionReceipt where
  statusCode : UInt8
  output : MockProgressiveByteList
  deriving DecidableEq

structure TransactionExecutionOutcome where
  transactionRoot : Root
  postStateRoot : Root
  receipt : ExecutionReceipt
  deriving DecidableEq

structure BlockExecutionOutcome where
  postStateRoot : Root
  receiptsRoot : Root
  transactionOutcomes : List TransactionExecutionOutcome
  deriving DecidableEq

structure CommittedExecutionRoots where
  stateRoot : Root
  receiptsRoot : Root
  deriving DecidableEq

inductive ExecutionError where
  | transactionRoot (error : PrimitiveError)
  | stateTransition (error : StateError)
  | executor (context : String)
  | postStateRootMismatch (expected actual : Root)
  | receiptsRootMismatch (expected actual : Root)
  deriving DecidableEq

def BlockExecutionOutcome.ensureMatches (outcome : BlockExecutionOutcome)
    (committed : CommittedExecutionRoots) : Except ExecutionError Unit :=
  if outcome.postStateRoot ≠ committed.stateRoot then
    .error (.postStateRootMismatch committed.stateRoot outcome.postStateRoot)
  else if outcome.receiptsRoot ≠ committed.receiptsRoot then
    .error (.receiptsRootMismatch committed.receiptsRoot outcome.receiptsRoot)
  else .ok ()

section
variable (sha256 : List UInt8 → Root)

def receiptRootRun (receipt : ExecutionReceipt) : Hashing Empty Root :=
  Hashing.hash sha256 (ascii "shell-execution/receipt-v1" ++ [receipt.statusCode] ++
    beBytes 8 receipt.output.length ++ receipt.output)

def receiptsRootRun (receipts : List ExecutionReceipt) : Hashing Empty Root := do
  let roots ← Logged.traverse (receiptRootRun sha256) receipts
  Hashing.hash sha256 (ascii "shell-execution/receipts-root-v1" ++ beBytes 8 receipts.length ++
    roots.flatMap List.Vector.toList)

def computeReceiptsRoot (receipts : List ExecutionReceipt) : Root :=
  (receiptsRootRun sha256 receipts).value

end

/-! ## The block loop -/

structure TransactionExecutionPlan where
  statePatch : StatePatch
  receipt : ExecutionReceipt
  deriving DecidableEq

/-- `execute_transaction` of an executor with state `σ`. -/
abbrev TransactionExecutor (σ : Type) :=
  σ → Root → TransactionEnvelope → Except ExecutionError TransactionExecutionPlan × σ

/-- `apply_transition` of an applier with state `τ`. -/
abbrev StateTransitionApplier (τ : Type) :=
  τ → Root → StatePatch → Except StateError StateTransitionOutcome × τ

namespace StatelessBlockExecutor
variable (sha256 : List UInt8 → Root) {σ τ : Type}
variable (executor : TransactionExecutor σ) (applier : StateTransitionApplier τ)

/-- The loop over the transactions of a block, with its three accumulators. -/
def executeTransactions : List TransactionEnvelope → Root → List ExecutionReceipt →
    List TransactionExecutionOutcome → σ → τ → Except ExecutionError BlockExecutionOutcome × σ × τ
  | [], current, receipts, outcomes, s, t =>
    (.ok ⟨current, computeReceiptsRoot sha256 receipts, outcomes⟩, s, t)
  | transaction :: rest, current, receipts, outcomes, s, t =>
    match transaction.canonicalRoot sha256 with
    | .error e => (.error (.transactionRoot e), s, t)
    | .ok transactionRoot =>
      match executor s current transaction with
      | (.error e, s) => (.error e, s, t)
      | (.ok plan, s) =>
        match applier t current plan.statePatch with
        | (.error e, t) => (.error (.stateTransition e), s, t)
        | (.ok outcome, t) =>
          executeTransactions rest outcome.postStateRoot (receipts ++ [plan.receipt])
            (outcomes ++ [⟨transactionRoot, outcome.postStateRoot, plan.receipt⟩]) s t

def executeBlock (preStateRoot : Root) (transactions : List TransactionEnvelope) (s : σ) (t : τ) :
    Except ExecutionError BlockExecutionOutcome × σ × τ :=
  executeTransactions sha256 executor applier transactions preStateRoot [] [] s t

end StatelessBlockExecutor

/-! ## Planned execution -/

structure PlannedTransaction where
  transactionRoot : Root
  plan : TransactionExecutionPlan
  deriving DecidableEq

def PlannedTransaction.fromTransaction (sha256 : List UInt8 → Root)
    (transaction : TransactionEnvelope) (plan : TransactionExecutionPlan) :
    Except ExecutionError PlannedTransaction := do
  let transactionRoot ← (transaction.canonicalRoot sha256).mapError .transactionRoot
  .ok ⟨transactionRoot, plan⟩

structure PlannedTransactionExecutor where
  plannedTransactions : List PlannedTransaction
  nextIndex : Nat
  deriving DecidableEq

namespace PlannedTransactionExecutor

def new (planned : List PlannedTransaction) : PlannedTransactionExecutor := ⟨planned, 0⟩

def isExhausted (planner : PlannedTransactionExecutor) : Bool :=
  planner.nextIndex == planner.plannedTransactions.length

def ensureExhausted (planner : PlannedTransactionExecutor) : Except ExecutionError Unit :=
  if planner.isExhausted then .ok ()
  else .error (.executor "unconsumed planned transaction steps")

def executeTransaction (sha256 : List UInt8 → Root) :
    TransactionExecutor PlannedTransactionExecutor :=
  fun planner _ transaction =>
    match planner.plannedTransactions[planner.nextIndex]? with
    | none => (.error (.executor "missing planned transaction step"), planner)
    | some planned =>
      match transaction.canonicalRoot sha256 with
      | .error e => (.error (.transactionRoot e), planner)
      | .ok transactionRoot =>
        if transactionRoot ≠ planned.transactionRoot then
          (.error (.executor "planned transaction root mismatch"), planner)
        else (.ok planned.plan, { planner with nextIndex := planner.nextIndex + 1 })

end PlannedTransactionExecutor

end ShellExecution
