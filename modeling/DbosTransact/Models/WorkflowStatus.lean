import Mathlib.Tactic.Common

/-!
# The workflow status row

`WorkflowRow` has the columns that the modelled statements read or write. Times are epoch milliseconds; a
nullable column is an `Option`. Every `UPDATE` of the row is given by its `SET` clause as a function on rows.
-/

namespace Dbos

inductive Status
  | pending
  | enqueued
  | delayed
  | success
  | error
  | cancelled
  | maxRecoveryAttemptsExceeded
  deriving DecidableEq, Repr

/-- `isTerminalStatus`: terminal from the point of view of a workflow awaiting the result. -/
def Status.isTerminal : Status → Bool
  | .success | .error | .cancelled | .maxRecoveryAttemptsExceeded => true
  | .pending | .enqueued | .delayed => false

/-- The reserved queue on which suspended, resumed and recovered workflows run. -/
def internalQueueName : String := "_dbos_internal_queue"

/-- A row of `workflow_status`. -/
structure WorkflowRow where
  workflowID : String
  status : Status
  name : String := ""
  configName : Option String := none
  inputs : Option String := none
  serialization : Option String := none
  output : Option String := none
  error : Option String := none
  authenticatedUser : Option String := none
  executorID : Option String := none
  ownerXID : Option String := none
  applicationVersion : Option String := none
  applicationName : Option String := none
  queueName : Option String := none
  queuePartitionKey : Option String := none
  priority : Int := 0
  deduplicationID : Option String := none
  isDebounced : Bool := false
  debounceDeadline : Option Int := none
  rateLimited : Bool := false
  recoveryAttempts : Nat := 0
  parentWorkflowID : Option String := none
  createdAt : Int := 0
  updatedAt : Int := 0
  startedAt : Option Int := none
  completedAt : Option Int := none
  delayUntil : Option Int := none
  workflowTimeout : Option Int := none
  workflowDeadline : Option Int := none
  deriving DecidableEq, Repr

/-- `instanceQualifiedName`: the name under which the workflow of a configured instance is registered. -/
def instanceQualifiedName (name configName : String) : String := name ++ "/" ++ configName

namespace WorkflowRow

/-! ### The `SET` clauses -/

/-- `COALESCE(NULLIF(queue_name, ''), queue)`. -/
def queueOr (queue : String) (r : WorkflowRow) : String :=
  match r.queueName with
  | some q => if q = "" then queue else q
  | none => queue

/-- `suspendWorkflowToDelayed`. -/
def suspendToDelayed (delayUntil now : Int) (r : WorkflowRow) : WorkflowRow :=
  { r with
    status := .delayed, delayUntil := some delayUntil, updatedAt := now,
    queueName := some (r.queueOr internalQueueName), startedAt := none, recoveryAttempts := 0 }

/-- The wake-up statements: `delay_until_epoch_ms` and `updated_at` become `now`. -/
def wake (now : Int) (r : WorkflowRow) : WorkflowRow :=
  { r with delayUntil := some now, updatedAt := now }

/-- `SetWorkflowDelay`. -/
def setDelay (delayUntil now : Int) (r : WorkflowRow) : WorkflowRow :=
  { r with delayUntil := some delayUntil, updatedAt := now }

/-- `COALESCE(application_name, app)`, which an application without a name leaves out. -/
def adoptedBy (appName : String) (r : WorkflowRow) : Option String :=
  if appName = "" then r.applicationName else some (r.applicationName.getD appName)

/-- `DebounceDelayedWorkflow`: the delay is capped at the deadline of the debounce. -/
def debounce (appName : String) (delayUntil : Int) (inputs : Option String)
    (serialization : String) (now : Int) (r : WorkflowRow) : WorkflowRow :=
  { r with
    delayUntil :=
      match r.debounceDeadline with
      | some deadline => some (if deadline < delayUntil then deadline else delayUntil)
      | none => some delayUntil,
    inputs := inputs, serialization := some serialization, updatedAt := now,
    applicationName := r.adoptedBy appName }

/-- `TransitionDelayedWorkflows`. -/
def promote (now : Int) (r : WorkflowRow) : WorkflowRow :=
  { r with
    status := .enqueued, updatedAt := now,
    deduplicationID := if r.isDebounced then none else r.deduplicationID }

/-- `UpdateWorkflowOutcome`. -/
def recordOutcome (status : Status) (output error : Option String) (now : Int)
    (r : WorkflowRow) : WorkflowRow :=
  { r with
    status := status, output := output, error := error, updatedAt := now,
    completedAt := some now, deduplicationID := none }

/-- `CancelWorkflows`. -/
def cancel (now : Int) (r : WorkflowRow) : WorkflowRow :=
  { r with
    status := .cancelled, updatedAt := now, completedAt := some now, startedAt := none,
    queueName := none, deduplicationID := none }

/-- `DeadLetterWorkflows`. -/
def deadLetter (now : Int) (r : WorkflowRow) : WorkflowRow :=
  { r with
    status := .maxRecoveryAttemptsExceeded, deduplicationID := none, startedAt := none,
    queueName := none, updatedAt := now, completedAt := some now }

/-- `ResumeWorkflows`; an empty queue name stands for the internal queue. -/
def resume (queue : String) (now : Int) (r : WorkflowRow) : WorkflowRow :=
  { r with
    status := .enqueued, queueName := some (if queue = "" then internalQueueName else queue),
    recoveryAttempts := 0, workflowDeadline := none, deduplicationID := none, startedAt := none,
    updatedAt := now, completedAt := none }

/-- `ReenqueueForRecovery`. -/
def reenqueue (recoveryQueue : String) (now : Int) (r : WorkflowRow) : WorkflowRow :=
  { r with
    status := .enqueued, startedAt := none, updatedAt := now,
    queueName := some (r.queueOr recoveryQueue) }

/-- The `DO UPDATE` of `InsertWorkflowStatus`, for a row that is there already. -/
def reinsert (r excluded : WorkflowRow) : WorkflowRow :=
  { r with
    updatedAt := excluded.updatedAt,
    executorID :=
      if excluded.status = .enqueued ∨ excluded.status = .delayed then r.executorID
      else excluded.executorID }

/-- `RenameApplication`. -/
def rename (newName : String) (r : WorkflowRow) : WorkflowRow :=
  { r with applicationName := some newName }

/-- The executor, application and queue on whose behalf `DequeueWorkflows` claims a row. -/
structure Claim where
  executorID : String
  applicationVersion : String
  appName : String := ""
  rateLimited : Bool := false
  deriving DecidableEq, Repr

/-- The claim of `DequeueWorkflows`: the deadline starts to run unless one is set already. -/
def claim (c : Claim) (now : Int) (r : WorkflowRow) : WorkflowRow :=
  { r with
    status := .pending, applicationVersion := some c.applicationVersion,
    executorID := some c.executorID, startedAt := some now, updatedAt := now,
    rateLimited := c.rateLimited, recoveryAttempts := r.recoveryAttempts + 1,
    workflowDeadline :=
      match r.workflowTimeout, r.workflowDeadline with
      | some timeout, none => some (now + timeout)
      | _, deadline => deadline,
    applicationName := if c.appName = "" then r.applicationName else
      some (r.applicationName.getD c.appName) }

section Key

-- no statement changes the primary key

theorem workflowID_suspendToDelayed (delayUntil now : Int) :
    ∀ r : WorkflowRow, (r.suspendToDelayed delayUntil now).workflowID = r.workflowID :=
  fun _ => rfl

theorem workflowID_wake (now : Int) : ∀ r : WorkflowRow, (r.wake now).workflowID = r.workflowID :=
  fun _ => rfl

theorem workflowID_recordOutcome (status : Status) (output error : Option String) (now : Int) :
    ∀ r : WorkflowRow, (r.recordOutcome status output error now).workflowID = r.workflowID :=
  fun _ => rfl

theorem workflowID_cancel (now : Int) :
    ∀ r : WorkflowRow, (r.cancel now).workflowID = r.workflowID :=
  fun _ => rfl

theorem workflowID_deadLetter (now : Int) :
    ∀ r : WorkflowRow, (r.deadLetter now).workflowID = r.workflowID :=
  fun _ => rfl

theorem workflowID_reinsert (excluded : WorkflowRow) :
    ∀ r : WorkflowRow, (r.reinsert excluded).workflowID = r.workflowID :=
  fun _ => rfl

theorem workflowID_claim (c : Claim) (now : Int) :
    ∀ r : WorkflowRow, (r.claim c now).workflowID = r.workflowID :=
  fun _ => rfl

theorem workflowID_promote (now : Int) :
    ∀ r : WorkflowRow, (r.promote now).workflowID = r.workflowID :=
  fun _ => rfl

theorem workflowID_setDelay (delayUntil now : Int) :
    ∀ r : WorkflowRow, (r.setDelay delayUntil now).workflowID = r.workflowID :=
  fun _ => rfl

theorem workflowID_debounce (appName : String) (delayUntil : Int) (inputs : Option String)
    (serialization : String) (now : Int) : ∀ r : WorkflowRow,
      (r.debounce appName delayUntil inputs serialization now).workflowID = r.workflowID :=
  fun _ => rfl

theorem workflowID_reenqueue (recoveryQueue : String) (now : Int) :
    ∀ r : WorkflowRow, (r.reenqueue recoveryQueue now).workflowID = r.workflowID :=
  fun _ => rfl

theorem workflowID_resume (queue : String) (now : Int) :
    ∀ r : WorkflowRow, (r.resume queue now).workflowID = r.workflowID :=
  fun _ => rfl

theorem workflowID_rename (newName : String) :
    ∀ r : WorkflowRow, (r.rename newName).workflowID = r.workflowID :=
  fun _ => rfl

end Key

/-! ### The `WHERE` clauses -/

/-- `nameFilterSQL`, which an application without a name leaves out. -/
def ownedBy (appName : String) (r : WorkflowRow) : Bool :=
  appName = "" || r.applicationName = some appName || r.applicationName = none

/-- `renameSourceSQL`: the rows of an application, the unclaimed ones, or both. -/
def renameSource (oldName : String) (adoptUnclaimedRows : Bool) (r : WorkflowRow) : Bool :=
  (oldName ≠ "" && r.applicationName = some oldName) ||
    (adoptUnclaimedRows && r.applicationName = none)

/-- `CancelWorkflows` passes over `SUCCESS`, `ERROR` and `CANCELLED`. -/
def cancellable (r : WorkflowRow) : Bool :=
  r.status ≠ .success && r.status ≠ .error && r.status ≠ .cancelled

/-- `ResumeWorkflows` passes over `SUCCESS` and `ERROR`. -/
def resumable (r : WorkflowRow) : Bool := r.status ≠ .success && r.status ≠ .error

/-- `TransitionDelayedWorkflows` takes the delayed rows whose delay has expired. -/
def delayExpired (now : Int) (r : WorkflowRow) : Bool :=
  r.status = .delayed && r.delayUntil.any (· ≤ now)

end WorkflowRow

end Dbos
