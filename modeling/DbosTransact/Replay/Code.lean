import DbosTransact.Execution.Start
import DbosTransact.Lib.Replay

/-!
# The code of a workflow

Sequential code over `RunAsStep`, the operations made of `runAsTxn`, `Sleep`, `Recv`, `GetEvent` and
`GetResult`, executed any number of times, one execution after the other. An execution may die between any
two statements. Only the executions write the checkpoints of the workflow; every other row changes
arbitrarily (`environment`), except that the workflow is neither cancelled nor deleted.

* `RunAsStep` checks, runs the function and records the outcome, under `Retry`.
* `runAsTxn` does all of it in one transaction, which is begun again when the connection breaks and also
  after an error that reads like a broken connection.
* `Recv` and `GetEvent` reserve two IDs. They check the first, checkpoint a deadline under the second
  if there is nothing to consume yet, wait, and consume under the first.
* `GetResult` takes the next ID only if it has something to record.
-/

namespace Dbos.Code

open Relational Lts Replay

inductive Op
  | step (name : String)
  /-- `Send`, `SetEvent` and `Enqueue` -/
  | txn (name : String)
  | sleep (duration : Int)
  | recv (topic : String) (timeout : Int)
  | getEvent (targetWorkflowID key : String) (timeout : Int)
  /-- with the timeout as `Duration.String` prints it -/
  | getResult (childID : String) (timeout : Option String)
  deriving DecidableEq, Repr

namespace Op

def name : Op → String
  | .step name | .txn name => name
  | .sleep _ => "DBOS.sleep"
  | .recv _ _ => "DBOS.recv"
  | .getEvent _ _ _ => "DBOS.getEvent"
  | .getResult _ _ => "DBOS.getResult"

def width : Op → ℕ
  | .recv _ _ | .getEvent _ _ _ => 2
  | .step _ | .txn _ | .sleep _ | .getResult _ _ => 1

/-- The operation is a call of `runAsTxn` from the beginning. -/
def isTxn : Op → Bool
  | .txn _ | .sleep _ => true
  | .step _ | .recv _ _ | .getEvent _ _ _ | .getResult _ _ => false

def isWait : Op → Bool
  | .recv _ _ | .getEvent _ _ _ => true
  | .step _ | .txn _ | .sleep _ | .getResult _ _ => false

/-- `GetResult`. -/
def isGetResult : Op → Bool
  | .getResult _ _ => true
  | .step _ | .txn _ | .sleep _ | .recv _ _ | .getEvent _ _ _ => false

/-- The text of the error when what was consumed cannot be decoded. -/
def decoding : Op → String
  | .getEvent _ _ _ => "decoding event value"
  | .step _ | .txn _ | .sleep _ | .recv _ _ | .getResult _ _ => "decoding received message"

def duration : Op → Int
  | .sleep d | .recv _ d | .getEvent _ _ d => d
  | .step _ | .txn _ | .getResult _ _ => 0

end Op

/-- A call of `runAsTxn` of an operation: its own, or the one for the deadline of a wait. -/
inductive Part
  | main
  | deadline
  deriving DecidableEq, Repr

/-- The name under which a call of `runAsTxn` is recorded. -/
def Part.name (o : Op) : Part → String
  | .main => o.name
  | .deadline => "DBOS.sleep"

/-- Its step ID, where `n` is the first of the operation. -/
def Part.id (n : ℕ) : Part → ℕ
  | .main => n
  | .deadline => n + 1

inductive Answer (V : Type)
  | returned (v : V) (err : Option GoError)
  /-- the duration that `Sleep` returns -/
  | slept (duration : Int)
  deriving DecidableEq, Repr

structure Codec (V : Type) where
  /-- the name of the serializer of the workflow -/
  name : String
  zero : V
  encode : V → String
  /-- by the serializer of the given name -/
  decode : String → Option String → Except GoError V
  encodeTime : Int → String
  decodeTime : String → Option String → Except GoError Int
  /-- `serializeWorkflowError` -/
  encodeError : GoError → String
  /-- `deserializeWorkflowError` of a text that is not empty -/
  decodeError : String → GoError
  decode_encode : ∀ v, decode name (some (encode v)) = .ok v
  decodeTime_encodeTime : ∀ t, decodeTime name (some (encodeTime t)) = .ok t

structure Config (V : Type) where
  workflowID : String
  dialect : Dialect
  codec : Codec V
  code : Program Op (Answer V)

inductive Outcome (V : Type)
  | value (v : V) (childID : String)
  /-- the message or event consumed, if any, and its serialization -/
  | message (message : Option String) (serialization : String)
  /-- a deadline counted from the given time -/
  | deadline (now : Int)
  /-- the body failed without an output -/
  | nothing
  deriving DecidableEq, Repr

def Outcome.fits {V : Type} (o : Op) (part : Part) (err : Option GoError) : Outcome V → Bool
  | .value _ _ =>
    match o, part with
    | .step _, .main | .txn _, .main => true
    | _, _ => false
  | .message _ _ => o.isWait && part = .main
  | .nothing => o.isWait && part = .main && err.isSome
  | .deadline _ =>
    match o, part with
    | .sleep _, .main => err.isNone
    | o, .deadline => o.isWait && err.isNone
    | _, _ => false

/-- What `runAsTxn` hands on: an answer to the code, or a deadline to wait for. -/
inductive Delivery (V : Type)
  | answer (a : Answer V)
  | deadline (t : Int)
  deriving DecidableEq, Repr

namespace Codec

variable {V : Type} (c : Codec V)

/-- `Recv[R]` and `GetEvent[R]`, on what was consumed or recorded. -/
def received (o : Op) (message : Option String) (serialization : String) (err : Option GoError) :
    Answer V :=
  match err, message with
  | some err, _ => .returned c.zero (some err)
  | none, none => .returned c.zero none
  | none, some message =>
    match c.decode serialization (some message) with
    | .ok v => .returned v none
    | .error err => .returned c.zero (some (.wrapf o.decoding err))

/-- The output and the serialization that are recorded for an outcome. -/
def recordedOutput (o : Op) : Outcome V → Option String × String
  | .value v _ => (some (c.encode v), c.name)
  | .message message serialization => (message, serialization)
  | .deadline now => (some (c.encodeTime (now + o.duration)), c.name)
  | .nothing => (some (c.encode c.zero), c.name)

def executed (o : Op) (err : Option GoError) : Outcome V → Delivery V
  | .value v _ => .answer (.returned v err)
  | .message message serialization => .answer (c.received o message serialization err)
  | .deadline now => .deadline (now + o.duration)
  | .nothing => .answer (.returned c.zero err)

def recordedError (r : RecordedResult) : Option GoError := r.errStr.map c.decodeError

end Codec

inductive Phase (V : Type)
  | start
  /-- the function of `RunAsStep` is to be run -/
  | checked (startedAt : Int)
  /-- `RecordOperationResult` is to be called, and the answer is known -/
  | recording (i : RecordOperationResultInput) (a : Answer V)
  /-- a transaction is to be begun -/
  | txn (part : Part) (startedAt : Int)
  | txnChecked (part : Part) (startedAt : Int)
  /-- the outcome is to be recorded and committed -/
  | committing (part : Part) (i : RecordOperationResultInput) (d : Delivery V) (err : Option GoError)
  | sleeping (remaining : Int)
  /-- the listener is to be registered -/
  | listening
  | waiting
  /-- `GetResult` waits for the child -/
  | awaiting (startedAt : Int)
  deriving Repr

structure State (V : Type) where
  db : Db
  path : Path Op (Answer V)
  phase : Phase V
  past : List (Path Op (Answer V))

inductive Action (V : Type)
  | begin (now : Int)
  | body (v : V) (err : Option GoError) (completedAt : Int)
  | record
  | recordLost
  | txnCheck (now : Int)
  | txnBody (out : Outcome V) (err : Option GoError) (completedAt : Int)
  | commit (now : Int)
  | commitLost
  | abort
  /-- the listener is registered, and something is pending or not -/
  | listen (pending : Bool) (now : Int)
  | wake
  | arrive (now : Int)
  /-- the in-process handle receives the outcome of the child -/
  | receive (v : V) (err : Option GoError) (completedAt : Int)
  /-- the channel of the in-process handle is closed -/
  | closed
  /-- the polling handle reads the row of the child -/
  | poll (completedAt : Int)
  | timeout (polling : Bool)
  | crash
  | environment (db : Db)

/-! ### `GetResult` -/

/-- `AwaitWorkflowResultOutput` and the error of `AwaitWorkflowResult`. -/
structure AwaitResult where
  output : Option String
  serialization : String
  errStr : Option String
  err : Option GoError
  deriving DecidableEq, Repr

/-- One round of the loop of `AwaitWorkflowResult`. -/
def awaitWorkflowResult (db : Db) (workflowID : String) : Option AwaitResult :=
  match db.status.find? workflowID with
  | none => none
  | some r =>
    let serialization := r.serialization.getD ""
    match r.status with
    | .success | .error => some ⟨r.output, serialization, r.error.filter (· ≠ ""), none⟩
    | .cancelled =>
      some ⟨r.output, serialization, none, some (newAwaitedWorkflowCancelledError workflowID)⟩
    | .maxRecoveryAttemptsExceeded =>
      some ⟨r.output, serialization, none,
        some (newDeadLetterQueueError workflowID (r.recoveryAttempts - 2))⟩
    | .pending | .enqueued | .delayed => none

inductive Got (V : Type)
  | recorded (output errStr : Option String) (serialization : String) (a : Answer V)
  | unrecorded (a : Answer V)
  deriving DecidableEq, Repr

/-- `err.(*Error)`, and the code of it. -/
def errorCode? : GoError → Option ErrorCode
  | .leaf (.dbos e) | .wrap (.dbos e) _ => some e.code
  | _ => none

/-- The outcome that an in-process handle receives is the cancellation of the child. -/
def childCancelled (err : Option GoError) : Bool :=
  err.bind errorCode? = some .workflowCancelled

def outcomeError (childID : String) (err : Option GoError) : Option GoError :=
  if childCancelled err then some (newAwaitedWorkflowCancelledError childID) else err

namespace Codec

variable {V : Type} (c : Codec V)

/-- `processOutcome` of the in-process handle. -/
def processOutcome (childID : String) (v : V) (err : Option GoError) : Got V :=
  let seen := outcomeError childID err
  if childCancelled err then
    .recorded none (seen.map c.encodeError) c.name (.returned c.zero seen)
  else .recorded (some (c.encode v)) (seen.map c.encodeError) c.name (.returned v seen)

/-- What the polling handle makes of the result of `AwaitWorkflowResult`. -/
def processAwait (r : AwaitResult) : Got V :=
  if r.err.any (·.isCode .awaitedWorkflowCancelled) then
    .recorded none (r.err.map c.encodeError) c.name (.returned c.zero r.err)
  else
    let err := r.err.or (r.errStr.map c.decodeError)
    match r.output with
    | none => .unrecorded (.returned c.zero err)
    | some output =>
      match c.decode r.serialization (some output) with
      | .error err =>
        .unrecorded (.returned c.zero (some (.wrapf "failed to deserialize workflow result" err)))
      | .ok v =>
        if r.err.isSome then .unrecorded (.returned v err)
        else .recorded (some output) r.errStr r.serialization (.returned v err)

end Codec

def channelClosedError : GoError :=
  .new ("workflow result channel is already closed. Did you call GetResult() twice on the same " ++
    "workflow handle?")

def handleTimeoutError (childID timeout : String) (polling : Bool) : GoError :=
  newTimeoutError childID ""
    (if polling then "timed out awaiting workflow result"
      else s!"workflow result timeout after {timeout}")
    (.leaf .deadlineExceeded)

/-! ### Steps -/

def isRunning (workflowID : String) (db : Db) : Bool :=
  (db.statusOf workflowID).any (· ≠ .cancelled)

def checkpoints (workflowID : String) (db : Db) : List OperationRow :=
  db.operations.rows.filter (·.workflowID = workflowID)

namespace State

variable {V : Type} (s : State V)

def goto (p : Phase V) : State V := { s with phase := p }

/-- The operation returns, having taken `w` step IDs. -/
def answered (w : ℕ) (a : Answer V) : State V := { s with path := s.path.answer w a, phase := .start }

def insert (row : OperationRow) : State V := { s with db := Write.apply (.insertOperation row) s.db }

/-- What `runAsTxn` or an early check hands on. -/
def deliver (o : Op) (now : Int) : Delivery V → State V
  | .answer a => s.answered o.width a
  | .deadline t => if o.isWait then s.goto .waiting else s.goto (.sleeping (max 0 (t - now)))

end State

namespace Config

variable {V : Type} (cfg : Config V)

def row? (db : Db) (id : ℕ) : Option OperationRow := db.operation? cfg.workflowID id

def recordInput (o : Op) (part : Part) (n : ℕ) (out : Outcome V) (err : Option GoError)
    (startedAt completedAt : Int) : RecordOperationResultInput where
  workflowID := cfg.workflowID
  stepID := part.id n
  stepName := part.name o
  output := (cfg.codec.recordedOutput o out).1
  errStr := err.map cfg.codec.encodeError
  startedAt := startedAt
  completedAt := completedAt
  serialization := (cfg.codec.recordedOutput o out).2
  childWorkflowID :=
    match out with
    | .value _ childID => childID
    | _ => ""

/-- What `GetResult` records. -/
def getResultInput (childID : String) (n : ℕ) (output errStr : Option String)
    (serialization : String) (startedAt completedAt : Int) : RecordOperationResultInput where
  workflowID := cfg.workflowID
  stepID := n
  stepName := "DBOS.getResult"
  output := output
  errStr := errStr
  startedAt := startedAt
  completedAt := completedAt
  serialization := serialization
  childWorkflowID := childID

def checkError (o : Op) (err : GoError) : GoError :=
  if o.isWait then err
  else newStepExecutionError cfg.workflowID o.name (.wrapf "checking operation execution" err)

def recordError (o : Op) (err : GoError) : GoError :=
  if o.isGetResult then
    newWorkflowExecutionError cfg.workflowID (.wrapf "recording child workflow result" err)
  else newStepExecutionError cfg.workflowID o.name err

/-- The error of `convertStepResult` for a recorded output that cannot be decoded. -/
def convertError (err : GoError) : GoError :=
  newWorkflowExecutionError cfg.workflowID (.wrapf "decoding step result" err)

def replayed (o : Op) (part : Part) (r : RecordedResult) : Delivery V :=
  let c := cfg.codec
  match o, part with
  | .step _, _ | .txn _, _ =>
    match c.decode r.serialization r.output with
    | .ok v => .answer (.returned v (c.recordedError r))
    | .error err => .answer (.returned c.zero (some (cfg.convertError err)))
  | .sleep _, _ | .recv _ _, .deadline | .getEvent _ _ _, .deadline =>
    match c.decodeTime r.serialization r.output, c.recordedError r with
    | .ok t, none => .deadline t
    | .ok _, some err => .answer (.returned c.zero (some err))
    | .error err, _ => .answer (.returned c.zero (some (cfg.convertError err)))
  | .recv _ _, .main | .getEvent _ _ _, .main =>
    .answer (c.received o r.output r.serialization (c.recordedError r))
  | .getResult _ _, _ =>
    match r.output with
    | none => .answer (.returned c.zero (c.recordedError r))
    | some output =>
      match c.decode r.serialization (some output) with
      | .ok v => .answer (.returned v (c.recordedError r))
      | .error err =>
        .answer (.returned c.zero (some (.wrapf "failed to decode operation result" err)))

/-- `runAsTxn` begins its transaction again after this error. -/
def retried (err : Option GoError) : Bool := err.any cfg.dialect.retryable

end Config

section Step

variable {V : Type} (cfg : Config V)

/-- The check of the operation, or the call of `runAsTxn`. -/
def beginStep (s : State V) (o : Op) (now : Int) : Option (State V) :=
  if o.isTxn then some (s.goto (.txn .main now))
  else
    match s.db.checkOperationExecution cfg.workflowID s.path.next o.name with
    | .error err =>
      if Start.retried err then some s
      -- `GetResult` has not taken the ID yet
      else some (s.answered (if o.isGetResult then 0 else o.width)
        (.returned cfg.codec.zero (some (cfg.checkError o err))))
    | .ok (some r) => some (s.deliver o now (cfg.replayed o .main r))
    | .ok none =>
      if o.isWait then some (s.goto .listening)
      else if o.isGetResult then some (s.goto (.awaiting now))
      else some (s.goto (.checked now))

/-- `RecordOperationResult` outside a transaction. -/
def recordStep (s : State V) (o : Op) (i : RecordOperationResultInput) (a : Answer V) :
    Option (State V) :=
  match cfg.row? s.db s.path.next with
  | none => some ((s.insert i.row).answered o.width a)
  | some stored =>
    match i.onConflict (some stored) with
    | .ok _ => some (s.answered o.width a)
    | .error err =>
      if Start.retried err then some s
      else some (s.answered o.width (.returned cfg.codec.zero (some (cfg.recordError o err))))

/-- The check of `runAsTxn`. -/
def txnCheckStep (s : State V) (o : Op) (part : Part) (startedAt now : Int) : Option (State V) :=
  match s.db.checkOperationExecution cfg.workflowID (part.id s.path.next) (part.name o) with
  | .error err =>
    let err := newStepExecutionError cfg.workflowID (part.name o)
      (.wrapf "checking operation execution" err)
    if cfg.retried (some err) then some s
    else some (s.answered o.width (.returned cfg.codec.zero (some err)))
  | .ok (some r) =>
    if cfg.retried (cfg.codec.recordedError r) then some s
    else some (s.deliver o now (cfg.replayed o part r))
  | .ok none => some (s.goto (.txnChecked part startedAt))

/-- The recording and the commit of `runAsTxn`. -/
def commitStep (s : State V) (o : Op) (part : Part) (i : RecordOperationResultInput)
    (d : Delivery V) (err : Option GoError) (now : Int) : Option (State V) :=
  match cfg.row? s.db (part.id s.path.next) with
  | none =>
    if cfg.retried err then some ((s.insert i.row).goto (.txn part i.startedAt))
    else some ((s.insert i.row).deliver o now d)
  | some stored =>
    match i.onConflict (some stored) with
    | .ok _ =>
      if cfg.retried err then some (s.goto (.txn part i.startedAt)) else some (s.deliver o now d)
    | .error recErr =>
      let recErr := match err with
        | none => recErr
        | some err => .join recErr err
      let recErr := newStepExecutionError cfg.workflowID (part.name o) recErr
      if cfg.retried (some recErr) then some (s.goto (.txn part i.startedAt))
      else some (s.answered o.width (.returned cfg.codec.zero (some recErr)))

def gotStep (s : State V) (childID : String) (startedAt completedAt : Int) : Got V → State V
  | .recorded output errStr serialization a =>
    s.goto (.recording (cfg.getResultInput childID s.path.next output errStr serialization startedAt
      completedAt) a)
  | .unrecorded a => s.answered 0 a

/-- The steps of an execution in the operation `o`. -/
def opStep (s : State V) (o : Op) : Action V → Option (State V)
  | .begin now =>
    match s.phase with
    | .start => beginStep cfg s o now
    | _ => none
  | .body v err completedAt =>
    match s.phase with
    | .checked startedAt =>
      some (s.goto (.recording
        (cfg.recordInput o .main s.path.next (.value v "") err startedAt completedAt)
        (.returned v err)))
    | _ => none
  | .record =>
    match s.phase with
    | .recording i a => recordStep cfg s o i a
    | _ => none
  | .recordLost =>
    match s.phase with
    | .recording i _ =>
      match cfg.row? s.db s.path.next with
      | none => some (s.insert i.row)
      | some _ => some s
    | _ => none
  | .txnCheck now =>
    match s.phase with
    | .txn part startedAt => txnCheckStep cfg s o part startedAt now
    | _ => none
  | .txnBody out err completedAt =>
    match s.phase with
    | .txnChecked part startedAt =>
      if out.fits o part err then
        some (s.goto (.committing part
          (cfg.recordInput o part s.path.next out err startedAt completedAt)
          (cfg.codec.executed o err out) err))
      else none
    | _ => none
  | .commit now =>
    match s.phase with
    | .committing part i d err => commitStep cfg s o part i d err now
    | _ => none
  | .commitLost =>
    match s.phase with
    | .committing part i _ _ =>
      match cfg.row? s.db (part.id s.path.next) with
      | none => some ((s.insert i.row).goto (.txn part i.startedAt))
      | some _ => some (s.goto (.txn part i.startedAt))
    | _ => none
  | .abort =>
    match s.phase with
    | .txnChecked part startedAt => some (s.goto (.txn part startedAt))
    | .committing part i _ _ => some (s.goto (.txn part i.startedAt))
    | _ => none
  | .listen pending now =>
    match s.phase with
    | .listening => some (s.goto (.txn (if pending then .main else .deadline) now))
    | _ => none
  | .wake =>
    match s.phase with
    | .sleeping remaining => some (s.answered o.width (.slept remaining))
    | _ => none
  | .arrive now =>
    match s.phase with
    | .waiting => some (s.goto (.txn .main now))
    | _ => none
  | .receive v err completedAt =>
    match s.phase, o with
    | .awaiting startedAt, .getResult childID _ =>
      some (gotStep cfg s childID startedAt completedAt (cfg.codec.processOutcome childID v err))
    | _, _ => none
  | .closed =>
    match s.phase, o with
    | .awaiting _, .getResult _ _ =>
      some (s.answered 0 (.returned cfg.codec.zero (some channelClosedError)))
    | _, _ => none
  | .poll completedAt =>
    match s.phase, o with
    | .awaiting startedAt, .getResult childID _ =>
      match awaitWorkflowResult s.db childID with
      | none => none
      | some r =>
        if r.err.any Start.retried then some s
        else some (gotStep cfg s childID startedAt completedAt (cfg.codec.processAwait r))
    | _, _ => none
  | .timeout polling =>
    match s.phase, o with
    | .awaiting _, .getResult childID (some timeout) =>
      some (s.answered 0
        (.returned cfg.codec.zero (some (handleTimeoutError childID timeout polling))))
    | _, _ => none
  | .crash | .environment _ => none

def step (s : State V) : Action V → Option (State V)
  | .crash =>
    some { db := s.db, path := .start cfg.code, phase := .start, past := s.past ++ [s.path] }
  | .environment db =>
    if checkpoints cfg.workflowID db = checkpoints cfg.workflowID s.db ∧
        isRunning cfg.workflowID db = true then
      some { s with db := db }
    else none
  | a =>
    match s.path.rest with
    | .ask o _ => opStep cfg s o a
    | .done => none

def Init (s : State V) : Prop :=
  checkpoints cfg.workflowID s.db = [] ∧ isRunning cfg.workflowID s.db = true ∧
    s.path = .start cfg.code ∧ s.phase = .start ∧ s.past = []

def system : System (State V) (Action V) where
  init := Init cfg
  step := step cfg

end Step

end Dbos.Code
