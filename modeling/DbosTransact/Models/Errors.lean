import DbosTransact.Lib.ErrorTree

/-!
# Errors

A DBOS error matches a target by its code alone (`GoError.isCode`); its message is fixed when it is built
and quotes the text of its cause.
-/

namespace Dbos

inductive ErrorCode
  | conflictingID
  | initialization
  | nonExistentWorkflow
  | unexpectedWorkflow
  | workflowCancelled
  | unexpectedStep
  | awaitedWorkflowCancelled
  | conflictingRegistration
  | workflowUnexpectedType
  | workflowExecution
  | stepExecution
  | deadLetterQueue
  | maxStepRetriesExceeded
  | queueDeduplicated
  | patchingNotEnabled
  | timeout
  | noApplicationVersions
  | queueNotFound
  | scheduleNotFound
  | invalidOption
  deriving DecidableEq, Repr

def ErrorCode.string : ErrorCode → String
  | .conflictingID => "ConflictingID"
  | .initialization => "Initialization"
  | .nonExistentWorkflow => "NonExistentWorkflow"
  | .unexpectedWorkflow => "UnexpectedWorkflow"
  | .workflowCancelled => "WorkflowCancelled"
  | .unexpectedStep => "UnexpectedStep"
  | .awaitedWorkflowCancelled => "AwaitedWorkflowCancelled"
  | .conflictingRegistration => "ConflictingRegistration"
  | .workflowUnexpectedType => "WorkflowUnexpectedType"
  | .workflowExecution => "WorkflowExecution"
  | .stepExecution => "StepExecution"
  | .deadLetterQueue => "DeadLetterQueue"
  | .maxStepRetriesExceeded => "MaxStepRetriesExceeded"
  | .queueDeduplicated => "QueueDeduplicated"
  | .patchingNotEnabled => "PatchingNotEnabled"
  | .timeout => "Timeout"
  | .noApplicationVersions => "NoApplicationVersions"
  | .queueNotFound => "QueueNotFound"
  | .scheduleNotFound => "ScheduleNotFound"
  | .invalidOption => "InvalidOption"

/-- `CauseKind`: the causes of the standard library that survive serialization. -/
inductive CauseKind
  | canceled
  | deadline
  deriving DecidableEq, Repr

/-- `Error`, without its wrapped cause. -/
structure DbosError where
  message : String
  code : ErrorCode
  workflowID : String := ""
  destinationID : String := ""
  stepName : String := ""
  queueName : String := ""
  deduplicationID : String := ""
  stepID : Int := 0
  expectedName : String := ""
  recordedName : String := ""
  maxRetries : Int := 0
  causeKind : Option CauseKind := none
  deriving DecidableEq, Repr

inductive ErrorNode
  | dbos (e : DbosError)
  /-- `errors.New`, or the text before `%w` in `fmt.Errorf` -/
  | text (message : String)
  /-- `context.Canceled` -/
  | canceled
  /-- `context.DeadlineExceeded` -/
  | deadlineExceeded
  /-- `pgx.ErrTxClosed` -/
  | txClosed
  /-- `io.EOF` -/
  | eof
  /-- `pgconn.PgError` -/
  | postgres (code message : String)
  /-- `pgconn.ConnectError` -/
  | connect (message : String)
  /-- another `net.Error` -/
  | net (message : String)
  /-- an error of the registered SQLite driver -/
  | sqlite (code : Nat) (message : String)
  deriving DecidableEq, Repr

def ErrorNode.render : ErrorNode → Option String → String
  | .dbos e, _ => s!"DBOS Error {e.code.string}: {e.message}"
  | .text m, none => m
  | .text m, some cause => s!"{m}: {cause}"
  | .canceled, _ => "context canceled"
  | .deadlineExceeded, _ => "context deadline exceeded"
  | .txClosed, _ => "tx is closed"
  | .eof, _ => "EOF"
  | .postgres code m, _ => s!"ERROR: {m} (SQLSTATE {code})"
  | .connect m, _ | .net m, _ | .sqlite _ m, _ => m

abbrev GoError := ErrorTree ErrorNode

namespace GoError

/-- `err.Error()`. -/
def errorText (e : GoError) : String := e.text ErrorNode.render

def hasCode (c : ErrorCode) : ErrorNode → Bool
  | .dbos e => e.code = c
  | _ => false

/-- `errors.Is` against the sentinel of a code, such as `ErrConflictingWorkflowID`. -/
def isCode (c : ErrorCode) (e : GoError) : Bool := e.any (hasCode c)

/-- `errors.Is(err, context.Canceled)`. -/
def isCanceled (e : GoError) : Bool := e.any (· = .canceled)

/-- `errors.Is(err, context.DeadlineExceeded)`. -/
def isDeadlineExceeded (e : GoError) : Bool := e.any (· = .deadlineExceeded)

def new (message : String) : GoError := .leaf (.text message)

/-- `fmt.Errorf` of a text followed by `: %w`. -/
def wrapf (message : String) (cause : GoError) : GoError := .wrap (.text message) cause

/-- `errors.Join`, where the first error may be nil. -/
def joinOnto : Option GoError → GoError → GoError
  | none, e => e
  | some joined, e => .join joined e

section Lemmas

variable (c : ErrorCode) (e l r : GoError)

@[simp] theorem isCode_wrapf (m : String) : isCode c (wrapf m e) = isCode c e := by
  simp [isCode, wrapf, hasCode]

@[simp] theorem isCode_join : isCode c (.join l r) = (isCode c l || isCode c r) := rfl

end Lemmas

end GoError

def DbosError.withCause (e : DbosError) (cause : GoError) : GoError :=
  .wrap
    (.dbos
      { e with
        causeKind :=
          if cause.isCanceled then some .canceled
          else if cause.isDeadlineExceeded then some .deadline
          else none })
    cause

/-! ### The constructors -/

def newUnexpectedWorkflowError (workflowID message : String) : GoError :=
  let msg := s!"Workflow ID {workflowID} was previously used by a different workflow. " ++
    "Check that your workflow is deterministic."
  .leaf <| .dbos
    { message := if message = "" then msg else msg ++ " " ++ message
      code := .unexpectedWorkflow
      workflowID := workflowID }

def newNonExistentWorkflowError (workflowID : String) : GoError :=
  .leaf <| .dbos
    { message := s!"workflow {workflowID} does not exist"
      code := .nonExistentWorkflow
      workflowID := workflowID }

def newUnexpectedStepError (workflowID : String) (stepID : Int)
    (expectedName recordedName : String) : GoError :=
  .leaf <| .dbos
    { message := s!"During execution of workflow {workflowID} step {stepID}, function " ++
        s!"{recordedName} was recorded when {expectedName} was expected. " ++
        "Check that your workflow is deterministic."
      code := .unexpectedStep
      workflowID := workflowID
      stepID := stepID
      expectedName := expectedName
      recordedName := recordedName }

def newWorkflowCancelledError (workflowID : String) (cause : Option GoError) : GoError :=
  let e : DbosError :=
    { message := s!"Workflow {workflowID} was cancelled"
      code := .workflowCancelled
      workflowID := workflowID }
  match cause with
  | none => .leaf (.dbos e)
  | some cause => e.withCause cause

def newAwaitedWorkflowCancelledError (workflowID : String) : GoError :=
  .leaf <| .dbos
    { message := s!"Awaited workflow {workflowID} was cancelled"
      code := .awaitedWorkflowCancelled
      workflowID := workflowID }

def newDeadLetterQueueError (workflowID : String) (maxRetries : Int) : GoError :=
  .leaf <| .dbos
    { message := s!"Workflow {workflowID} has been moved to the dead-letter queue after exceeding " ++
        s!"the maximum of {maxRetries} retries"
      code := .deadLetterQueue
      workflowID := workflowID
      maxRetries := maxRetries }

def newWorkflowConflictIDError (workflowID : String) : GoError :=
  .leaf <| .dbos
    { message := s!"Conflicting workflow ID {workflowID}"
      code := .conflictingID
      workflowID := workflowID }

def newWorkflowExecutionError (workflowID : String) (err : GoError) : GoError :=
  DbosError.withCause
    { message := s!"Workflow {workflowID} execution error: {err.errorText}"
      code := .workflowExecution
      workflowID := workflowID }
    err

def newStepExecutionError (workflowID stepName : String) (err : GoError) : GoError :=
  DbosError.withCause
    { message := s!"Step {stepName} in workflow {workflowID} execution error: {err.errorText}"
      code := .stepExecution
      workflowID := workflowID
      stepName := stepName }
    err

def newMaxStepRetriesExceededError (workflowID stepName : String) (maxRetries : Int)
    (err : GoError) : GoError :=
  DbosError.withCause
    { message := s!"Step {stepName} has exceeded its maximum of {maxRetries} retries: " ++
        err.errorText
      code := .maxStepRetriesExceeded
      workflowID := workflowID
      stepName := stepName
      maxRetries := maxRetries }
    err

def newQueueDeduplicatedError (workflowID queueName deduplicationID : String) : GoError :=
  .leaf <| .dbos
    { message := s!"Workflow {workflowID} was deduplicated due to an existing workflow in queue " ++
        s!"{queueName} with deduplication ID {deduplicationID}"
      code := .queueDeduplicated
      workflowID := workflowID
      queueName := queueName
      deduplicationID := deduplicationID }

def newTimeoutError (workflowID stepName message : String) (cause : GoError) : GoError :=
  let msg := if stepName = "" then "Operation timed out" else s!"Step {stepName} timed out"
  let msg := if workflowID = "" then msg else msg ++ s!" in workflow {workflowID}"
  DbosError.withCause
    { message := if message = "" then msg else msg ++ ": " ++ message
      code := .timeout
      workflowID := workflowID
      stepName := stepName }
    cause

def newInvalidOptionError (message : String) : GoError :=
  .leaf (.dbos { message := message, code := .invalidOption })

def newNameOwnedByPeerError (kind name currentOwner owner : String) : GoError :=
  let takeANewName :=
    if kind = "Application version" then s!"set a distinct application_version for '{owner}'"
    else s!"give '{owner}' a different " ++ kind.toLower ++ " name"
  .leaf <| .dbos
    { message := s!"{kind} '{name}' is already registered by application '{currentOwner}' in this system database. " ++
        s!"{kind} names must be unique across applications sharing a system database. Either {takeANewName}, or, " ++
        s!"if '{currentOwner}' was renamed to '{owner}', re-own its rows first with dbos rename-application"
      code := .conflictingRegistration }

section Codes

open GoError

@[simp] theorem isCode_newWorkflowConflictIDError (workflowID : String) :
    isCode .conflictingID (newWorkflowConflictIDError workflowID) = true := rfl

@[simp] theorem isCode_newStepExecutionError (workflowID stepName : String) (e : GoError) :
    isCode .conflictingID (newStepExecutionError workflowID stepName e) =
      isCode .conflictingID e := rfl

@[simp] theorem isCode_newWorkflowExecutionError (workflowID : String) (e : GoError) :
    isCode .conflictingID (newWorkflowExecutionError workflowID e) =
      isCode .conflictingID e := rfl

end Codes

end Dbos
