import DbosTransact.Lib.Transition
import DbosTransact.Steps.Policy
import DbosTransact.SysDb.Operations
import Mathlib.Data.Fintype.Basic
import Mathlib.Logic.Function.Basic

/-!
# `RunAsTransaction` across two databases

Any number of executions of one workflow reach the same `RunAsTransaction`, on a data source which is not the
system database. An execution looks for a checkpoint and for a row of `transaction_completion` and replays
what it finds; otherwise it runs the function in a transaction of the user database which also inserts the
completion row, mirrors a failure by a single `INSERT` whose result is ignored, and inserts its checkpoint.

An execution crashes, a statement fails with any error, an acknowledgement is lost, a context is cancelled,
and the status of the workflow changes at any time. The writes of the function are kept as one effect.
Outputs and errors are kept in their encoded form; an output is encoded the same way each time.
-/

namespace Dbos.TwoDatabase

open Relational ReadCommitted Retry Lts

/-! ### The user database -/

/-- A row of `transaction_completion`. -/
structure CompletionRow where
  workflowID : String
  stepID : Int
  output : Option String
  errStr : Option String
  serialization : Option String
  deriving DecidableEq, Repr

/-- The completion table, and the executions whose function's writes are committed, one entry for
each transaction. -/
structure UserDb (n : Nat) where
  completions : Table fun r : CompletionRow => (r.workflowID, r.stepID)
  effects : List (Fin n)

inductive UserWrite (n : Nat)
  | insertCompletion (row : CompletionRow)
  | effect (e : Fin n)
  deriving DecidableEq, Repr

/-- The user database under READ COMMITTED; the locks of the functions' own writes are left out. -/
def userSchema (n : Nat) : Schema (UserDb n) (UserWrite n) (String × Int) where
  apply
    | .insertCompletion r, d => { d with completions := d.completions.insert r }
    | .effect e, d => { d with effects := d.effects ++ [e] }
  rows
    | .insertCompletion r => [(r.workflowID, r.stepID)]
    | .effect _ => []

/-! ### The call -/

/-- The call, the same for all executions: the step, its options, the data source's dialect and the
codec. -/
structure Call where
  workflowID : String
  stepID : Int
  options : StepOptions
  dialect : Dialect
  serializer : String
  encodedNil : Option String
  serializeError : GoError → String

/-- What the function returns: an output that can be encoded, one that cannot, or an error. -/
inductive Returned
  | output (o : Option String)
  | unencodable (serErr : GoError)
  | error (err : GoError)
  deriving DecidableEq, Repr

inductive Outcome
  | returned (output errStr : Option String)
  | failed (err : GoError)
  deriving DecidableEq, Repr

/-- What an execution waits for before its next attempt: nothing, the inner retry, which absorbs
infrastructure errors, or the outer one, which is the policy of the step. -/
inductive Wait
  | none
  | absorbed
  | backoff
  deriving DecidableEq, Repr

inductive Phase
  | idle
  | started (startedAt : Int)
  /-- no checkpoint was found -/
  | checked (startedAt : Int)
  /-- the next attempt of the function is due -/
  | ready (startedAt : Int) (p : Progress) (w : Wait)
  /-- a transaction has begun -/
  | inTxn (startedAt : Int) (p : Progress)
  /-- the function has returned this output, encoded -/
  | ran (startedAt : Int) (p : Progress) (output : Option String)
  /-- the completion row is inserted -/
  | completed (startedAt : Int) (p : Progress) (output : Option String)
  /-- the commit was acknowledged -/
  | succeeded (startedAt : Int) (output : Option String)
  | failed (startedAt : Int) (stepError : GoError)
  /-- the checkpoint is about to be inserted -/
  | recording (i : RecordOperationResultInput) (stepError : Option GoError)
  /-- the `INSERT` of the checkpoint did nothing -/
  | conflicted (i : RecordOperationResultInput) (stepError : Option GoError)
  | done (o : Outcome)
  | crashed
  deriving DecidableEq, Repr

def ctxError : CauseKind → GoError
  | .canceled => .leaf .canceled
  | .deadline => .leaf .deadlineExceeded

/-- `contextInterruptionError`, for a context with this cause. -/
def contextInterruptionError (ctxErr : CauseKind) (cause : GoError) (workflowID message : String) :
    GoError :=
  let isErr :=
    match ctxErr with
    | .canceled => cause.isCanceled
    | .deadline => cause.isDeadlineExceeded
  newTimeoutError workflowID "" (if isErr then message else s!"{message} ({cause.errorText})")
    (ctxError ctxErr)

namespace Call

variable (c : Call)

def key : String × Int := (c.workflowID, c.stepID)

def stepError (message : String) (err : GoError) : GoError :=
  newStepExecutionError c.workflowID c.options.stepName (.wrapf message err)

/-- The row that `recordCompletion` inserts. -/
def completionRow (output errStr : Option String) : CompletionRow where
  workflowID := c.workflowID
  stepID := c.stepID
  output := output
  errStr := errStr
  serialization := some c.serializer

/-- The error of `recordCompletion`. -/
def completionError (err : GoError) : GoError :=
  if c.dialect.isUniqueViolation err then newWorkflowConflictIDError c.workflowID else err

def recordInput (output errStr : Option String) (serialization : String)
    (startedAt completedAt : Int) : RecordOperationResultInput where
  workflowID := c.workflowID
  stepID := c.stepID
  stepName := c.options.stepName
  output := output
  errStr := errStr
  startedAt := startedAt
  completedAt := completedAt
  serialization := serialization

def check (db : Db) (startedAt : Int) : Phase :=
  match db.checkOperationExecution c.workflowID c.stepID c.options.stepName with
  | .error err => .done (.failed (c.stepError "checking operation execution" err))
  | .ok (some recorded) => .done (.returned recorded.output recorded.errStr)
  | .ok none => .checked startedAt

/-- Layer 2: a completion row is replayed, with the codec it was written with; otherwise the clock
of the step starts anew. -/
def checkCompletion (completion : Option CompletionRow) (startedAt now : Int) : Phase :=
  match completion with
  | none => .ready now {} .none
  | some r =>
    let serialization := r.serialization.getD ""
    let replaySer := if serialization = "" then c.serializer else serialization
    .recording (c.recordInput r.output r.errStr replaySer startedAt now) none

/-- `executeStepWithRetry` after a run that returned an error. -/
def policy (startedAt : Int) (p : Progress) (err : GoError) : Phase :=
  match c.options.decide c.workflowID p err with
  | .again p => .ready startedAt p .backoff
  | .stop err => .failed startedAt err

/-- `runTxnResilient` after an attempt that returned an error. -/
def afterFailure (startedAt : Int) (p : Progress) (err : GoError) : Phase :=
  if c.dialect.retryable err then .ready startedAt p .absorbed else c.policy startedAt p err

def recordFailure (startedAt now : Int) (err : GoError) : Phase :=
  .recording (c.recordInput c.encodedNil (some (c.serializeError err)) c.serializer startedAt now)
    (some err)

def refusal (cerr : GoError) (stepError : Option GoError) : GoError :=
  newStepExecutionError c.workflowID c.options.stepName
    (match stepError with
    | none => cerr
    | some stepError => .join cerr stepError)

end Call

/-! ### The state -/

structure State (n : Nat) where
  user : Store (UserDb n) (Option (Fin n)) (UserWrite n)
  sys : Db
  phase : Fin n → Phase

namespace State

variable {n : Nat} (s : State n)

def completion (c : Call) : Option CompletionRow := s.user.committed.completions.find? c.key

def row (c : Call) : Option OperationRow := s.sys.operation? c.workflowID c.stepID

def goto (e : Fin n) (p : Phase) : State n := { s with phase := Function.update s.phase e p }

def write (e : Fin n) (w : UserWrite n) : State n := { s with user := s.user.write (some e) w }

def rollback (e : Fin n) : State n := { s with user := s.user.rollback (some e) }

def commit (e : Fin n) : State n := { s with user := s.user.commit (userSchema n) (some e) }

/-- The completion row of the step is free for a transaction, or for a single statement. -/
def Unlocked (c : Call) (t : Option (Fin n)) : Prop := s.user.Free (userSchema n) t [c.key]

instance (c : Call) (t : Option (Fin n)) : Decidable (s.Unlocked c t) :=
  inferInstanceAs (Decidable (s.user.Free _ _ _))

/-- The single `INSERT` of a failure into the completion table. -/
def insertFailure (c : Call) (err : GoError) : State n :=
  { s with
    user := s.user.autocommit (userSchema n)
      (.insertCompletion (c.completionRow none (some (c.serializeError err)))) }

/-- The single `INSERT` of a checkpoint. -/
def insertOperation (r : OperationRow) : State n :=
  { s with sys := Write.apply (.insertOperation r) s.sys }

end State

/-! ### The steps -/

/-- The next statement or local step of an execution, or a change of the workflow's status. -/
inductive Action (n : Nat)
  | start (e : Fin n) (now : Int)
  | check (e : Fin n)
  | checkCompletion (e : Fin n) (now : Int)
  | beginTx (e : Fin n)
  | run (e : Fin n) (r : Returned)
  | recordCompletion (e : Fin n)
  | commit (e : Fin n)
  | commitUnacknowledged (e : Fin n) (err : GoError)
  /-- the context is done during the wait for the next attempt -/
  | cancelWait (e : Fin n) (ctxErr : CauseKind) (cause : GoError)
  /-- the context of the workflow is done when the step has its outcome -/
  | interrupt (e : Fin n) (ctxErr : CauseKind)
  | checkpoint (e : Fin n) (now : Int)
  | mirror (e : Fin n) (now : Int)
  | mirrorUnacknowledged (e : Fin n)
  /-- the mirror fails, which is only logged -/
  | abandonMirror (e : Fin n) (now : Int)
  | insert (e : Fin n)
  | insertUnacknowledged (e : Fin n)
  | readBack (e : Fin n)
  /-- the next statement fails for good, without effect -/
  | fail (e : Fin n) (err : GoError)
  | crash (e : Fin n)
  /-- the workflow is cancelled, resumed or claimed -/
  | setStatus (status : Status)
  deriving DecidableEq, Repr

variable {n : Nat} (c : Call) (s : State n) (e : Fin n)

def runStep (r : Returned) : Option (State n) :=
  match s.phase e with
  | .inTxn startedAt p =>
    match r with
    | .output o => some ((s.write e (.effect e)).goto e (.ran startedAt p o))
    | .unencodable serErr =>
      some ((s.rollback e).goto e
        (c.afterFailure startedAt p (c.stepError "failed to serialize transaction output" serErr)))
    | .error err => some ((s.rollback e).goto e (c.afterFailure startedAt p err))
  | _ => none

/-- `recordCompletion` in the transaction of the function, which waits for the lock on the key. -/
def recordCompletionStep : Option (State n) :=
  match s.phase e with
  | .ran startedAt p o =>
    if ¬ s.Unlocked c (some e) then none
    else if (s.completion c).isSome then
      some ((s.rollback e).goto e
        (c.afterFailure startedAt p (c.stepError "recording transaction completion"
          (newWorkflowConflictIDError c.workflowID))))
    else
      some ((s.write e (.insertCompletion (c.completionRow o none))).goto e
        (.completed startedAt p o))
  | _ => none

/-- The wait for the next attempt is cut short: the inner retry returns an error of its own to the
policy, the policy ends the step. -/
def cancelWaitStep (ctxErr : CauseKind) (cause : GoError) : Option (State n) :=
  match s.phase e with
  | .ready startedAt p .absorbed =>
    some (s.goto e (c.policy startedAt p
      (contextInterruptionError ctxErr cause "" "retried operation interrupted")))
  | .ready startedAt _ .backoff =>
    some (s.goto e (.failed startedAt
      (c.stepError "context cancelled during retry" (ctxError ctxErr))))
  | _ => none

def interruptStep (ctxErr : CauseKind) : Option (State n) :=
  match s.phase e with
  | .succeeded _ _ =>
    some (s.goto e (.done (.failed
      (newWorkflowCancelledError c.workflowID (some (ctxError ctxErr))))))
  | .failed _ stepError =>
    some (s.goto e (.done (.failed (newWorkflowCancelledError c.workflowID (some stepError)))))
  | _ => none

/-- The failure is mirrored, unless the key is taken; either way the checkpoint is next. -/
def mirrorStep (now : Int) : Option (State n) :=
  match s.phase e with
  | .failed startedAt err =>
    if ¬ s.Unlocked c none then none
    else if (s.completion c).isSome then some (s.goto e (c.recordFailure startedAt now err))
    else some ((s.insertFailure c err).goto e (c.recordFailure startedAt now err))
  | _ => none

def mirrorUnacknowledgedStep : Option (State n) :=
  match s.phase e with
  | .failed _ err =>
    if ¬ s.Unlocked c none ∨ (s.completion c).isSome then none else some (s.insertFailure c err)
  | _ => none

/-- The `INSERT` of the checkpoint. -/
def insertStep : Option (State n) :=
  match s.phase e with
  | .recording i stepError =>
    if (s.row c).isSome then some (s.goto e (.conflicted i stepError))
    else some ((s.insertOperation i.row).goto e (.done (.returned i.output i.errStr)))
  | _ => none

/-- The `INSERT` of the checkpoint takes effect and is retried. -/
def insertUnacknowledgedStep : Option (State n) :=
  match s.phase e with
  | .recording i _ => if (s.row c).isSome then none else some (s.insertOperation i.row)
  | _ => none

/-- The `SELECT` after an `INSERT` that did nothing. -/
def readBackStep : Option (State n) :=
  match s.phase e with
  | .conflicted i stepError =>
    match i.onConflict (s.row c) with
    | .ok _ => some (s.goto e (.done (.returned i.output i.errStr)))
    | .error cerr => some (s.goto e (.done (.failed (c.refusal cerr stepError))))
  | _ => none

/-- The next statement fails without effect, and is not retried by itself. -/
def failStep (err : GoError) : Option (State n) :=
  match s.phase e with
  | .started _ => some (s.goto e (.done (.failed (c.stepError "checking operation execution" err))))
  | .checked _ =>
    some (s.goto e (.done (.failed (c.stepError "checking transaction completion" err))))
  | .ready startedAt p _ =>
    some (s.goto e (c.afterFailure startedAt p (c.stepError "failed to begin transaction" err)))
  | .ran startedAt p _ =>
    some ((s.rollback e).goto e (c.afterFailure startedAt p
      (c.stepError "recording transaction completion" (c.completionError err))))
  | .completed startedAt p _ =>
    some ((s.rollback e).goto e
      (c.afterFailure startedAt p (c.stepError "failed to commit transaction" err)))
  | .recording _ stepError | .conflicted _ stepError =>
    some (s.goto e (.done (.failed (c.refusal err stepError))))
  | _ => none

def step (s : State n) : Action n → Option (State n)
  | .start e now =>
    match s.phase e with
    | .idle => some (s.goto e (.started now))
    | _ => none
  | .check e =>
    match s.phase e with
    | .started startedAt => some (s.goto e (c.check s.sys startedAt))
    | _ => none
  | .checkCompletion e now =>
    match s.phase e with
    | .checked startedAt => some (s.goto e (c.checkCompletion (s.completion c) startedAt now))
    | _ => none
  | .beginTx e =>
    match s.phase e with
    | .ready startedAt p _ => some (s.goto e (.inTxn startedAt p))
    | _ => none
  | .run e r => runStep c s e r
  | .recordCompletion e => recordCompletionStep c s e
  | .commit e =>
    match s.phase e with
    | .completed startedAt _ o => some ((s.commit e).goto e (.succeeded startedAt o))
    | _ => none
  | .commitUnacknowledged e err =>
    match s.phase e with
    | .completed startedAt p _ =>
      some ((s.commit e).goto e
        (c.afterFailure startedAt p (c.stepError "failed to commit transaction" err)))
    | _ => none
  | .cancelWait e ctxErr cause => cancelWaitStep c s e ctxErr cause
  | .interrupt e ctxErr => interruptStep c s e ctxErr
  | .checkpoint e now =>
    match s.phase e with
    | .succeeded startedAt o =>
      some (s.goto e (.recording (c.recordInput o none c.serializer startedAt now) none))
    | _ => none
  | .mirror e now => mirrorStep c s e now
  | .mirrorUnacknowledged e => mirrorUnacknowledgedStep c s e
  | .abandonMirror e now =>
    match s.phase e with
    | .failed startedAt err => some (s.goto e (c.recordFailure startedAt now err))
    | _ => none
  | .insert e => insertStep c s e
  | .insertUnacknowledged e => insertUnacknowledgedStep c s e
  | .readBack e => readBackStep c s e
  | .fail e err => failStep c s e err
  | .crash e =>
    match s.phase e with
    | .idle | .done _ | .crashed => none
    | _ => some ((s.rollback e).goto e .crashed)
  | .setStatus status =>
    some { s with
      sys.status := s.sys.status.update (·.workflowID = c.workflowID)
        (fun r => { r with status := status }) (fun _ => rfl) }

/-- At first the step is recorded in neither database and no execution has begun. -/
def Init (s : State n) : Prop :=
  s.row c = none ∧ s.completion c = none ∧ s.user.committed.effects = [] ∧ s.user.pending = [] ∧
    ∀ e, s.phase e = .idle

def system (n : Nat) : System (State n) (Action n) where
  init := Init c
  step := step c

end Dbos.TwoDatabase
