import DbosTransact.Lib.Transition
import DbosTransact.SysDb.Operations
import Mathlib.Data.Fintype.Basic
import Mathlib.Logic.Function.Basic

/-!
# Concurrent executions at one checkpoint

Any number of executions of one workflow reach the same operation at the same step ID:

* `RunAsStep` checks, runs the function and inserts the checkpoint outside a transaction;
* `runAsTxn` does all of it in one transaction, which also holds the writes of the function;
* `Enqueue` is a `runAsTxn` operation which starts over at the next step ID when a deduplication
  slot was freed before its holder could be looked up;
* `Patch` reads and inserts its marker;
* `RunWorkflow` inserts the child and its checkpoint in one transaction or, if the deduplication
  slot is taken and the policy is to return the existing workflow, attaches to the holder.

The statements interleave freely under READ COMMITTED; connections break, and acknowledgements are lost.
What the functions do is left open: their writes are kept as one effect named after the transaction.
-/

namespace Dbos.Checkpoint

open Relational ReadCommitted Lts

inductive Operation
  | runAsStep
  | runAsTxn
  | enqueue (returnExisting : Bool)
  | patch
  | runWorkflow (child : WorkflowRow) (returnExisting : Bool)
  deriving DecidableEq, Repr

/-- The operation is one of those built on `runAsTxn`. -/
def Operation.transactional : Operation → Bool
  | .runAsTxn | .enqueue _ => true
  | .runAsStep | .patch | .runWorkflow _ _ => false

/-- The call, the same for all executions, and the codec for errors. -/
structure Call where
  workflowID : String
  stepID : Int
  stepName : String
  operation : Operation
  serializeError : GoError → String
  deserializeError : String → GoError

/-- What the function of a step returned: the encoded output, the error, the codec, and the child
for an operation whose output is one. -/
structure Result where
  output : Option String := none
  error : Option GoError := none
  serialization : String := ""
  childWorkflowID : String := ""
  deriving DecidableEq, Repr

/-- What an execution obtains from the operation, outputs and errors in their encoded form. -/
inductive Outcome
  | returned (output errStr : Option String)
  | patched (b : Bool)
  | handle (childID : String)
  | failed (err : GoError)
  /-- `Enqueue` starts over at the next step ID -/
  | reissued (err : GoError)
  deriving DecidableEq, Repr

inductive Phase
  | idle
  | started (startedAt : Int)
  /-- no checkpoint was found; a `runAsTxn` operation is inside its transaction -/
  | checked (startedAt : Int)
  | ran (startedAt : Int) (r : Result)
  /-- the checkpoint is about to be inserted -/
  | recording (startedAt completedAt : Int) (r : Result)
  /-- the `INSERT` did nothing -/
  | conflicted (startedAt completedAt : Int) (r : Result)
  /-- `RecordOperationResult` returned nil inside the transaction -/
  | recorded (startedAt completedAt : Int) (r : Result)
  /-- the deduplication slot of the child was taken -/
  | deduplicated (startedAt : Int)
  | attaching (startedAt : Int) (existingID : String)
  | statusInserted (startedAt : Int)
  /-- the `INSERT` of `RecordChildWorkflow` did nothing, for the child itself or for the holder of
  its deduplication slot -/
  | childConflicted (startedAt : Int) (existingID : Option String)
  | childRecorded (startedAt : Int)
  | done (o : Outcome)
  deriving DecidableEq, Repr

namespace Call

variable (c : Call)

def lock : RowKey := .operation c.workflowID c.stepID

/-- The input of `RecordOperationResult`. -/
def recordInput (startedAt completedAt : Int) (r : Result) : RecordOperationResultInput where
  workflowID := c.workflowID
  stepID := c.stepID
  stepName := c.stepName
  output := r.output
  errStr := r.error.map c.serializeError
  startedAt := startedAt
  completedAt := completedAt
  serialization := r.serialization
  childWorkflowID := r.childWorkflowID

/-- The input of `RecordChildWorkflow`. -/
def childInput (startedAt : Int) (childID : String) : RecordChildWorkflowInput where
  parentWorkflowID := c.workflowID
  childWorkflowID := childID
  stepID := c.stepID
  stepName := c.stepName
  startedAt := startedAt

/-- The error of the operation: `Enqueue` with the policy to return the existing workflow takes
every error that matches `ErrQueueDeduplicated` for a slot freed meanwhile. -/
def fail (err : GoError) : Phase :=
  match c.operation with
  | .enqueue true =>
    if err.isCode .queueDeduplicated then .done (.reissued err) else .done (.failed err)
  | _ => .done (.failed err)

/-- The error of a `runAsTxn` closure, which starts over if the error is retryable. -/
def fault (startedAt : Int) (err : GoError) : Phase :=
  if c.operation.transactional && Dialect.retryable .postgres err then .started startedAt
  else c.fail err

/-- The check for an earlier checkpoint. A `runAsTxn` operation runs it inside the retried closure,
so a recorded error that looks retryable makes it check again. -/
def check (db : Db) (startedAt : Int) : Phase :=
  match c.operation with
  | .patch =>
    match db.operation? c.workflowID c.stepID with
    | none => .checked startedAt
    | some r => .done (.patched (r.functionName = c.stepName))
  | .runWorkflow _ _ =>
    match db.checkChildWorkflow c.workflowID c.stepID c.stepName with
    | .error err => .done (.failed err)
    | .ok none => .checked startedAt
    | .ok (some childID) => .done (.handle childID)
  | op =>
    match db.checkOperationExecution c.workflowID c.stepID c.stepName with
    | .error err =>
      c.fault startedAt (newStepExecutionError c.workflowID c.stepName
        (.wrapf "checking operation execution" err))
    | .ok none => .checked startedAt
    | .ok (some recorded) =>
      if op.transactional &&
          recorded.errStr.any fun t => Dialect.retryable .postgres (c.deserializeError t) then
        .started startedAt
      else .done (.returned recorded.output recorded.errStr)

/-- The error of a `runAsTxn` operation whose checkpoint was refused. -/
def refusal (recErr : GoError) (r : Result) : GoError :=
  newStepExecutionError c.workflowID c.stepName
    (match r.error with
    | none => recErr
    | some stepError => .join recErr stepError)

end Call

/-! ### The state -/

/-- The system database, and the transactions whose function's writes it holds. -/
structure Data (n : Nat) where
  sys : Db
  effects : List (Fin n × Nat)

/-- A write to the system tables, or the writes of the function in one transaction. -/
inductive DataWrite (n : Nat)
  | sys (w : Write)
  | effect (t : Fin n × Nat)
  deriving DecidableEq, Repr

/-- The database under READ COMMITTED; the locks of the functions' own writes are left out. -/
def dataSchema (n : Nat) : Schema (Data n) (DataWrite n) RowKey where
  apply
    | .sys w, d => { d with sys := w.apply d.sys }
    | .effect t, d => { d with effects := d.effects ++ [t] }
  rows
    | .sys w => w.rows
    | .effect _ => []

theorem operation?_apply {n : Nat} {c : Call} {d : Data n} {r : OperationRow} (w : DataWrite n)
    (h : d.sys.operation? c.workflowID c.stepID = some r) :
    ((dataSchema n).apply w d).sys.operation? c.workflowID c.stepID = some r := by
  cases w with
  | effect t => exact h
  | sys w =>
    cases w
    case insertOperation o =>
      show (d.sys.operations.insert o).find? (c.workflowID, c.stepID) = some r
      rw [Table.find?_insert, show d.sys.operations.find? (c.workflowID, c.stepID) = some r from h]
      rfl
    all_goals exact h

/-- The transactions: the given attempt of an execution, or none for a single statement. -/
abbrev Txn (n : Nat) := Option (Fin n × Nat)

/-- One execution; `lost` records that its current attempt found a checkpoint already there. -/
structure Exec where
  phase : Phase := .idle
  attempt : Nat := 0
  lost : Bool := false

structure State (n : Nat) where
  store : Store (Data n) (Txn n) (DataWrite n)
  execs : Fin n → Exec

namespace State

variable {n : Nat} (s : State n)

def db : Db := s.store.committed.sys

def row (c : Call) : Option OperationRow := s.db.operation? c.workflowID c.stepID

def txn (e : Fin n) : Txn n := some (e, (s.execs e).attempt)

def goto (e : Fin n) (p : Phase) : State n :=
  { s with execs := Function.update s.execs e { s.execs e with phase := p } }

def lose (e : Fin n) (p : Phase) : State n :=
  { s with execs := Function.update s.execs e { s.execs e with phase := p, lost := true } }

def leave (e : Fin n) (p : Phase) : State n where
  store := s.store.rollback (s.txn e)
  execs := Function.update s.execs e
    { s.execs e with phase := p, attempt := (s.execs e).attempt + 1 }

/-- An execution goes back to `p` for another attempt. -/
def retry (e : Fin n) (p : Phase) : State n where
  store := s.store.rollback (s.txn e)
  execs := Function.update s.execs e { phase := p, attempt := (s.execs e).attempt + 1, lost := false }

def write (e : Fin n) (w : DataWrite n) : State n :=
  { s with store := s.store.write (s.txn e) w }

def autocommit (w : Write) : State n :=
  { s with store := s.store.autocommit (dataSchema n) (.sys w) }

def commitTxn (e : Fin n) : State n := { s with store := s.store.commit (dataSchema n) (s.txn e) }

end State

/-! ### The steps -/

/-- The next statement or local step of an execution, or a step of another workflow. -/
inductive Action (n : Nat)
  | start (e : Fin n) (now : Int)
  | check (e : Fin n)
  | run (e : Fin n) (r : Result)
  /-- the output cannot be encoded, the hook after the step fails, or the context is cancelled -/
  | giveUp (e : Fin n) (err : GoError)
  | prepare (e : Fin n) (now : Int)
  | insert (e : Fin n)
  | insertUnacknowledged (e : Fin n)
  | readBack (e : Fin n)
  | insertStatus (e : Fin n)
  | lookup (e : Fin n)
  | commit (e : Fin n)
  | commitUnacknowledged (e : Fin n)
  | abort (e : Fin n)
  /-- a workflow completes and releases its deduplication slot -/
  | complete (workflowID : String) (now : Int)
  /-- a workflow is enqueued elsewhere -/
  | occupy (row : WorkflowRow)
  deriving DecidableEq, Repr

variable {n : Nat} (c : Call) (s : State n) (e : Fin n)

/-- The function of the step returns; on success its writes are in the transaction. -/
def runStep (r : Result) : Option (State n) :=
  match c.operation, (s.execs e).phase with
  | .runAsStep, .checked startedAt => some (s.goto e (.ran startedAt r))
  | .runAsTxn, .checked startedAt | .enqueue _, .checked startedAt =>
    -- an error rolls back to the savepoint
    if r.error.isSome then some (s.goto e (.ran startedAt r))
    else some ((s.write e (.effect (e, (s.execs e).attempt))).goto e (.ran startedAt r))
  | _, _ => none

/-- The `INSERT` outside a transaction, which waits for the lock on the key; `conflict` is where
the execution goes if the key is taken, `written` where it goes otherwise. -/
def insertSingle (row : OperationRow) (conflict written : Phase) : Option (State n) :=
  if ¬ s.store.Free (dataSchema n) none [c.lock] then none
  else if (s.row c).isSome then some (s.lose e conflict)
  else some ((s.autocommit (.insertOperation row)).goto e written)

/-- The `INSERT` inside the transaction of the execution. -/
def insertInTxn (row : OperationRow) (conflict written : Phase) : Option (State n) :=
  if ¬ s.store.Free (dataSchema n) (s.txn e) [c.lock] then none
  else if (s.row c).isSome then some (s.lose e conflict)
  else some ((s.write e (.sys (.insertOperation row))).goto e written)

/-- The `INSERT` into `operation_outputs`. -/
def insertStep : Option (State n) :=
  match c.operation, (s.execs e).phase with
  | .runAsStep, .recording startedAt completedAt r =>
    let i := c.recordInput startedAt completedAt r
    insertSingle c s e i.row (.conflicted startedAt completedAt r)
      (.done (.returned i.output i.errStr))
  | .runAsTxn, .recording startedAt completedAt r
  | .enqueue _, .recording startedAt completedAt r =>
    insertInTxn c s e (c.recordInput startedAt completedAt r).row
      (.conflicted startedAt completedAt r) (.recorded startedAt completedAt r)
  | .patch, .checked _ =>
    insertSingle c s e (patchRow c.workflowID c.stepID c.stepName)
      (.done (.failed patchInsertError)) (.done (.patched true))
  | .runWorkflow child _, .statusInserted startedAt =>
    insertInTxn c s e (c.childInput startedAt child.workflowID).row
      (.childConflicted startedAt none) (.childRecorded startedAt)
  | .runWorkflow _ _, .attaching startedAt existingID =>
    insertSingle c s e (c.childInput startedAt existingID).row
      (.childConflicted startedAt (some existingID)) (.done (.handle existingID))
  | _, _ => none

/-- An `INSERT` outside a transaction takes effect and is retried: `RunAsStep` repeats the
statement, `Patch` reads again. -/
def insertUnacknowledgedStep : Option (State n) :=
  if ¬ s.store.Free (dataSchema n) none [c.lock] ∨ (s.row c).isSome then none
  else
    match c.operation, (s.execs e).phase with
    | .runAsStep, .recording startedAt completedAt r =>
      some ((s.autocommit (.insertOperation (c.recordInput startedAt completedAt r).row)).goto e
        (.recording startedAt completedAt r))
    | .patch, .checked startedAt =>
      some ((s.autocommit (.insertOperation (patchRow c.workflowID c.stepID c.stepName))).goto e
        (.started startedAt))
    | _, _ => none

/-- The `SELECT` after an `INSERT` that did nothing. -/
def readBackStep : Option (State n) :=
  match c.operation, (s.execs e).phase with
  | .runAsStep, .conflicted startedAt completedAt r =>
    let i := c.recordInput startedAt completedAt r
    match i.onConflict (s.row c) with
    | .ok _ => some (s.goto e (.done (.returned i.output i.errStr)))
    | .error recErr =>
      some (s.goto e (.done (.failed (newStepExecutionError c.workflowID c.stepName recErr))))
  | .runAsTxn, .conflicted startedAt completedAt r
  | .enqueue _, .conflicted startedAt completedAt r =>
    match (c.recordInput startedAt completedAt r).onConflict (s.row c) with
    | .ok _ => some (s.goto e (.recorded startedAt completedAt r))
    | .error recErr => some (s.leave e (c.fault startedAt (c.refusal recErr r)))
  | .runWorkflow child _, .childConflicted startedAt existingID =>
    match (c.childInput startedAt (existingID.getD child.workflowID)).onConflict (s.row c) with
    | .ok _ =>
      match existingID with
      | none => some (s.goto e (.childRecorded startedAt))
      | some id => some (s.goto e (.done (.handle id)))
    | .error err =>
      some (s.leave e (.done (.failed
        (newWorkflowExecutionError c.workflowID (.wrapf "recording child workflow" err)))))
  | _, _ => none

/-- `InsertWorkflowStatus` of the child, which waits for the row and for the deduplication slot. -/
def insertStatusStep : Option (State n) :=
  match c.operation, (s.execs e).phase with
  | .runWorkflow child returnExisting, .checked startedAt =>
    if ¬ s.store.Free (dataSchema n) (s.txn e) (Write.insertStatus child).rows then none
    else
      match s.db.insertWorkflowStatus child with
      | .ok _ =>
        some ((s.write e (.sys (.insertStatus child))).goto e (.statusInserted startedAt))
      | .error err =>
        if returnExisting && err.isCode .queueDeduplicated then
          some (s.goto e (.deduplicated startedAt))
        else
          some (s.goto e (.done (.failed (newWorkflowExecutionError child.workflowID
            (.wrapf "failed to insert workflow status" err)))))
  | _, _ => none

/-- `GetDeduplicatedWorkflow`: a slot freed meanwhile is claimed again. -/
def lookupStep : Option (State n) :=
  match c.operation, (s.execs e).phase with
  | .runWorkflow child _, .deduplicated startedAt =>
    match s.db.getDeduplicatedWorkflow (child.queueName.getD "") (child.deduplicationID.getD "") with
    | none => some (s.goto e (.checked startedAt))
    | some existingID => some (s.goto e (.attaching startedAt existingID))
  | _, _ => none

/-- The commit. A `runAsTxn` closure that returns a retryable error of its function is run again,
and so finds its own checkpoint. -/
def commitStep : Option (State n) :=
  match c.operation, (s.execs e).phase with
  | .runWorkflow child _, .childRecorded _ =>
    some ((s.commitTxn e).goto e (.done (.handle child.workflowID)))
  | .runAsTxn, .recorded startedAt completedAt r
  | .enqueue _, .recorded startedAt completedAt r =>
    let i := c.recordInput startedAt completedAt r
    if r.error.any (Dialect.retryable .postgres) then
      some ((s.commitTxn e).retry e (.started startedAt))
    else some ((s.commitTxn e).goto e (.done (.returned i.output i.errStr)))
  | _, _ => none

/-- The commit takes effect, its acknowledgement is lost and the closure is run again. -/
def commitUnacknowledgedStep : Option (State n) :=
  match c.operation, (s.execs e).phase with
  | .runWorkflow _ _, .childRecorded startedAt =>
    some ((s.commitTxn e).retry e (.checked startedAt))
  | .runAsTxn, .recorded startedAt _ _ | .enqueue _, .recorded startedAt _ _ =>
    some ((s.commitTxn e).retry e (.started startedAt))
  | _, _ => none

/-- The connection breaks inside the transaction, and the closure is run again. -/
def abortStep : Option (State n) :=
  match c.operation, (s.execs e).phase with
  | .runWorkflow _ _, .statusInserted startedAt
  | .runWorkflow _ _, .childConflicted startedAt none
  | .runWorkflow _ _, .childRecorded startedAt => some (s.retry e (.checked startedAt))
  | .runAsTxn, .checked startedAt | .enqueue _, .checked startedAt
  | .runAsTxn, .ran startedAt _ | .enqueue _, .ran startedAt _
  | .runAsTxn, .recording startedAt _ _ | .enqueue _, .recording startedAt _ _
  | .runAsTxn, .conflicted startedAt _ _ | .enqueue _, .conflicted startedAt _ _
  | .runAsTxn, .recorded startedAt _ _ | .enqueue _, .recorded startedAt _ _ =>
    some (s.retry e (.started startedAt))
  | _, _ => none

def step (s : State n) : Action n → Option (State n)
  | .start e now =>
    match (s.execs e).phase with
    | .idle => some (s.goto e (.started now))
    | _ => none
  | .check e =>
    match (s.execs e).phase with
    | .started startedAt =>
      if (s.row c).isSome then some (s.lose e (c.check s.db startedAt))
      else some (s.goto e (c.check s.db startedAt))
    | _ => none
  | .run e r => runStep c s e r
  | .giveUp e err =>
    match (s.execs e).phase with
    | .ran startedAt _ => some (s.leave e (c.fault startedAt err))
    | _ => none
  | .prepare e now =>
    match (s.execs e).phase with
    | .ran startedAt r => some (s.goto e (.recording startedAt now r))
    | _ => none
  | .insert e => insertStep c s e
  | .insertUnacknowledged e => insertUnacknowledgedStep c s e
  | .readBack e => readBackStep c s e
  | .insertStatus e => insertStatusStep c s e
  | .lookup e => lookupStep c s e
  | .commit e => commitStep c s e
  | .commitUnacknowledged e => commitUnacknowledgedStep c s e
  | .abort e => abortStep c s e
  | .complete workflowID now =>
    if s.store.Free (dataSchema n) none [.status workflowID] then
      some (s.autocommit (.outcome workflowID .success none none now))
    else none
  | .occupy row =>
    if s.store.Free (dataSchema n) none (Write.insertStatus row).rows ∧
        s.db.insertWorkflowStatus row = .ok () then
      some (s.autocommit (.insertStatus row))
    else none

/-- At first the workflow exists and is not cancelled, its step has no checkpoint, and no
execution has begun. -/
def Init (s : State n) : Prop :=
  (∃ st, s.db.statusOf c.workflowID = some st ∧ st ≠ .cancelled) ∧ s.row c = none ∧
    s.store.committed.effects = [] ∧ s.store.pending = [] ∧ ∀ e, s.execs e = {}

def system (n : Nat) : System (State n) (Action n) where
  init := Init c
  step := step c

end Dbos.Checkpoint
