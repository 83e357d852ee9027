import DbosTransact.Lib.Transition
import DbosTransact.SysDb.StatusTable
import Mathlib.Data.Fintype.Basic
import Mathlib.Logic.Function.Basic

/-!
# Direct starts

Any number of calls of `RunWorkflow` with the same workflow ID, made outside a workflow and without a
queue, on any executors. Each runs its insert transaction until `Retry` gives up: the upsert of
`InsertWorkflowStatus`, which waits for the lock on the row (`insert`), the look at the map of active
workflows (`load`), and the `commit`. In between the connection breaks, acknowledgements are lost,
processes die, and the rows and the maps change.
-/

namespace Dbos.Start

open Relational ReadCommitted Lts

/-- What one call gives; `ownerXID` is drawn at random. Times in milliseconds. -/
structure Call where
  name : String
  ownerXID : String
  inputs : Option String := none
  serialization : String := ""
  createdAt : Int := 0
  timeout : Option Int := none
  deadline : Option Int := none
  executorID : String := ""
  applicationVersion : String := ""
  applicationName : String := ""
  deriving DecidableEq, Repr

structure Config (n : ℕ) where
  workflowID : String
  calls : Fin n → Call

/-- The input of `InsertWorkflowStatus`. -/
def Call.insertInput (workflowID : String) (now : Int) (c : Call) : InsertWorkflowStatusInput where
  workflowID := workflowID
  status := .pending
  name := c.name
  executorID := c.executorID
  applicationVersion := c.applicationVersion
  createdAt := c.createdAt
  updatedAt := now
  timeout := c.timeout
  deadline := c.deadline
  inputs := c.inputs
  ownerXID := some c.ownerXID
  serialization := c.serialization

def Call.row (workflowID : String) (now : Int) (c : Call) : WorkflowRow :=
  (c.insertInput workflowID now).row c.applicationName

structure InsertWorkflowResult where
  status : Status
  name : String
  queueName : Option String
  queuePartitionKey : Option String
  timeout : Option Int
  workflowDeadline : Option Int
  ownerXID : String
  deriving DecidableEq, Repr

/-- What the `RETURNING` clause makes of the row. -/
def InsertWorkflowResult.ofRow (r : WorkflowRow) : InsertWorkflowResult where
  status := r.status
  name := r.name
  queueName := r.queueName
  queuePartitionKey := r.queuePartitionKey
  timeout := r.workflowTimeout.filter (0 < ·)
  workflowDeadline := r.workflowDeadline
  ownerXID := r.ownerXID.getD ""

def shouldSkip (queueName : String) (result : InsertWorkflowResult) (ownerXID : String)
    (loaded : Bool) : Bool :=
  queueName ≠ "" || result.status = .success || result.status = .error ||
    result.ownerXID ≠ ownerXID || loaded

structure WorkflowExecution where
  workflowID : String
  queueName : String
  queuePartitionKey : String
  timeout : Option Int
  deadline : Option Int
  deriving DecidableEq, Repr

/-- The argument of `executeWorkflow`. -/
def InsertWorkflowResult.execution (workflowID : String) (r : InsertWorkflowResult) :
    WorkflowExecution where
  workflowID := workflowID
  queueName := r.queueName.getD ""
  queuePartitionKey := r.queuePartitionKey.getD ""
  timeout := r.timeout
  deadline := r.workflowDeadline

/-- `Retry` runs the transaction again after this error. -/
def retried (err : GoError) : Bool :=
  Dialect.isRetryable .postgres err || Dialect.isRetryable .sqlite err

/-- The error of the transaction when `InsertWorkflowStatus` fails. -/
def insertError (workflowID : String) (err : GoError) : GoError :=
  newWorkflowExecutionError workflowID (.wrapf "failed to insert workflow status" err)

inductive Phase
  /-- about to begin a transaction -/
  | attempting
  | inserted (result : InsertWorkflowResult)
  | decided (skip : Bool) (result : InsertWorkflowResult)
  /-- `executeWorkflow` has been reached -/
  | executing (exec : WorkflowExecution)
  /-- a polling handle to a workflow, or an error -/
  | returned (result : Except GoError String)
  | crashed
  deriving Repr

def Phase.isFinished : Phase → Bool
  | .executing _ | .returned _ => true
  | _ => false

/-- The call has to run its transaction, for the first time or again. -/
def Phase.isAttempting : Phase → Bool
  | .attempting => true
  | _ => false

def startSchema : Schema StatusTable WorkflowRow String where
  apply row t := t.upsert (·.reinsert row) (WorkflowRow.workflowID_reinsert row) row
  rows row := [row.workflowID]

/-- The transactions are those of the calls; `none` stands for the other operations. -/
structure State (n : ℕ) where
  store : Store StatusTable (Option (Fin n)) WorkflowRow
  /-- the executors in whose map of active workflows the workflow is -/
  active : String → Bool
  phases : Fin n → Phase

namespace State

variable {n : ℕ} (s : State n)

def goto (i : Fin n) (p : Phase) : State n := { s with phases := Function.update s.phases i p }

def write (i : Fin n) (row : WorkflowRow) (p : Phase) : State n :=
  { s.goto i p with store := s.store.write (some i) row }

def commit (i : Fin n) (p : Phase) : State n :=
  { s.goto i p with store := s.store.commit startSchema (some i) }

def rollback (i : Fin n) (p : Phase) : State n :=
  { s.goto i p with store := s.store.rollback (some i) }

end State

inductive Action (n : ℕ)
  | insert (i : Fin n) (now : Int)
  | load (i : Fin n)
  | commit (i : Fin n)
  | commitUnacknowledged (i : Fin n)
  | abort (i : Fin n)
  | crash (i : Fin n)
  | environment (op : Lifecycle.Operation)
  | setActive (executorID : String) (active : Bool)
  deriving DecidableEq, Repr

section Step

variable {n : ℕ} (cfg : Config n)

def State.row? (s : State n) : Option WorkflowRow := s.store.committed.find? cfg.workflowID

def offered (row : WorkflowRow) (stored : Option WorkflowRow) : WorkflowRow :=
  stored.elim row (·.reinsert row)

def step (s : State n) : Action n → Option (State n)
  | .insert i now =>
    match s.phases i with
    | .attempting =>
      if s.store.Free startSchema (some i) [cfg.workflowID] then
        let row := (cfg.calls i).row cfg.workflowID now
        match s.store.committed.toDb.insertWorkflowStatus row with
        | .error err =>
          -- the upsert is rolled back
          if retried (insertError cfg.workflowID err) then some s
          else some (s.goto i (.returned (.error (insertError cfg.workflowID err))))
        | .ok _ => some (s.write i row (.inserted (.ofRow (offered row (s.row? cfg)))))
      else none
    | _ => none
  | .load i =>
    match s.phases i with
    | .inserted result =>
      let c := cfg.calls i
      let skip := shouldSkip "" result c.ownerXID (s.active c.executorID)
      some (s.goto i (.decided skip result))
    | _ => none
  | .commit i =>
    match s.phases i with
    | .decided skip result =>
      if skip then some (s.commit i (.returned (.ok cfg.workflowID)))
      else some (s.commit i (.executing (result.execution cfg.workflowID)))
    | _ => none
  | .commitUnacknowledged i =>
    match s.phases i with
    | .decided _ _ => some (s.commit i .attempting)
    | _ => none
  | .abort i =>
    match s.phases i with
    | .attempting | .inserted _ | .decided _ _ => some (s.rollback i .attempting)
    | _ => none
  | .crash i =>
    match s.phases i with
    | .attempting | .inserted _ | .decided _ _ => some (s.rollback i .crashed)
    | _ => none
  | .environment op =>
    match Lifecycle.step s.store.committed op with
    | some t =>
      -- a statement that changes the row waits for the lock on it
      if s.store.Free startSchema none [cfg.workflowID] ∨ t.find? cfg.workflowID = s.row? cfg then
        some { s with store := { s.store with committed := t } }
      else none
    | none => none
  | .setActive executorID active =>
    some { s with active := Function.update s.active executorID active }

/-- At first no call has begun; a row that is there was not made by one of them. -/
def Init (s : State n) : Prop :=
  s.store.pending = [] ∧ (∀ i, s.phases i = .attempting) ∧
    ∀ r ∈ s.row? cfg, ∀ i, r.ownerXID ≠ some (cfg.calls i).ownerXID

def system : System (State n) (Action n) where
  init := Init cfg
  step := step cfg

end Step

/-- The `owner_xid` that an operation writes. -/
def writtenOwner : Lifecycle.Operation → Option String
  | .insertWorkflowStatus _ i => i.ownerXID
  | _ => none

/-- The row is not deleted, and no other operation draws the `owner_xid` of a call. -/
def Undeleted {n : ℕ} (cfg : Config n) (s : State n) : Action n → Prop
  | .environment op =>
    (∀ t ∈ Lifecycle.step s.store.committed op, (s.row? cfg).isSome = true →
      (t.find? cfg.workflowID).isSome = true) ∧
    ∀ i, writtenOwner op ≠ some (cfg.calls i).ownerXID
  | _ => True

instance {n : ℕ} (cfg : Config n) (s : State n) (a : Action n) : Decidable (Undeleted cfg s a) := by
  unfold Undeleted
  split <;> infer_instance

end Dbos.Start
