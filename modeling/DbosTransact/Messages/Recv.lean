import DbosTransact.Lib.Transition
import DbosTransact.SysDb.Notifications
import DbosTransact.SysDb.Operations
import Mathlib.Data.Fintype.Basic
import Mathlib.Logic.Function.Basic

/-!
# Receiving messages

Any number of executions of one workflow, each calling `Recv` at steps of its own choosing, while
messages are sent to the workflow. The statements interleave freely under READ COMMITTED:

* `enter` finds no checkpoint; `probe` looks for a pending message; if there is none the deadline is
  checkpointed (`sleepCheck`, `sleepInsert`) and the execution waits (`found`, `timeout`);
* the transaction that consumes: `check`, then the `UPDATE`, which selects a message when it starts
  (`select`) and changes it once it holds the lock on its row (`update`), then `insert` and `readBack`
  of the checkpoint, and `commit`;
* a connection breaks (`abort`), an acknowledgement is lost (`commitUnacknowledged`), and at any point the
  execution crashes, suspends itself or returns an error to the workflow (`leave`).

`receipts` is a ghost: which message the checkpoint of a step was made from.
-/

namespace Dbos.Recv

open Relational ReadCommitted Lts

/-- The receiving workflow, the codec of its executions and its encoding of errors. -/
structure Config where
  workflowID : String
  serialization : String
  serializeError : GoError → String

/-- A call of `Recv`, its topic as it is stored and its timeout as it is printed. -/
structure Call where
  stepID : Int
  topic : String
  timeout : String := ""
  deriving DecidableEq, Repr

def Call.sleepStepID (c : Call) : Int := c.stepID + 1

/-- The call of `runAsTxn` that consumes. -/
structure Attempt where
  call : Call
  timeoutOccurred : Bool
  startedAt : Int
  deriving DecidableEq, Repr

inductive Phase
  | idle
  | entered (c : Call)
  /-- no message was pending -/
  | probed (c : Call)
  | sleepChecked (c : Call)
  | waiting (c : Call)
  | ready (c : Call) (timeoutOccurred : Bool)
  /-- at the beginning of the transaction -/
  | begun (a : Attempt)
  | checked (a : Attempt)
  /-- the `UPDATE` has selected a message and waits for the lock on its row -/
  | locking (a : Attempt) (messageUUID : String)
  | consumed (a : Attempt) (message : Option NotificationRow)
  | conflicted (a : Attempt) (message : Option NotificationRow) (completedAt : Int)
  | recorded (a : Attempt) (message : Option NotificationRow) (completedAt : Int)
  deriving DecidableEq, Repr

/-- The `Recv` that an execution is in. -/
def Phase.call? : Phase → Option Call
  | .idle => none
  | .entered c | .probed c | .sleepChecked c | .waiting c | .ready c _ => some c
  | .begun a | .checked a | .locking a _ | .consumed a _ | .conflicted a _ _ | .recorded a _ _ =>
    some a.call

/-- The checkpoint of a `Recv` was made from a message. -/
structure Receipt where
  stepID : Int
  messageUUID : String
  deriving DecidableEq, Repr

structure Data where
  sys : Db
  receipts : List Receipt

/-- The writes: of other statements, of the `UPDATE` of `ConsumeMessageWithUUID`, and of the
checkpoint of a `Recv`. -/
inductive RecvWrite
  | sys (w : Write)
  | consume (messageUUID : String)
  | record (row : OperationRow) (messageUUID : Option String)
  deriving DecidableEq, Repr

def recvSchema : Schema Data RecvWrite RowKey where
  apply
    | .sys w, d => { d with sys := w.apply d.sys }
    | .consume messageUUID, d =>
      { d with sys := { d.sys with
        notifications := NotificationTable.consume d.sys.notifications messageUUID } }
    | .record row messageUUID, d =>
      { sys := Write.apply (.insertOperation row) d.sys
        receipts := d.receipts ++ messageUUID.toList.map (⟨row.functionID, ·⟩) }
  rows
    | .sys w => w.rows
    | .consume messageUUID => [.notification messageUUID]
    | .record row _ => [.operation row.workflowID row.functionID]

/-- The transactions: of an execution, of a sender, or a single statement. -/
inductive Txn (n : ℕ)
  | exec (e : Fin n)
  | sender (k : ℕ)
  | single
  deriving DecidableEq, Repr

structure State (n : ℕ) where
  store : Store Data (Txn n) RecvWrite
  phases : Fin n → Phase

inductive Action (n : ℕ)
  | enter (e : Fin n) (c : Call)
  | probe (e : Fin n)
  | sleepCheck (e : Fin n)
  | sleepInsert (e : Fin n) (deadline : String) (startedAt completedAt : Int)
  | found (e : Fin n)
  | timeout (e : Fin n)
  | begin (e : Fin n) (now : Int)
  | check (e : Fin n)
  | select (e : Fin n) (messageUUID : Option String)
  | update (e : Fin n)
  | insert (e : Fin n) (now : Int)
  | readBack (e : Fin n)
  | commit (e : Fin n)
  | commitUnacknowledged (e : Fin n)
  | abort (e : Fin n)
  | leave (e : Fin n)
  | send (k : ℕ) (row : NotificationRow)
  | commitSend (k : ℕ)
  | rollbackSend (k : ℕ)
  deriving DecidableEq, Repr

/-- The text recorded for a `Recv` that timed out. -/
def Config.timeoutError (cfg : Config) (timeout : String) : String :=
  cfg.serializeError (newTimeoutError cfg.workflowID "DBOS.recv"
    s!"no message received within {timeout}" (.leaf .deadlineExceeded))

/-- The input of `RecordOperationResult` for what the function of the transaction returned: the
sender's serialization if there is one, and an error only if there is no message after a timeout. -/
def Config.recordInput (cfg : Config) (a : Attempt) (message : Option NotificationRow)
    (completedAt : Int) : RecordOperationResultInput where
  workflowID := cfg.workflowID
  stepID := a.call.stepID
  stepName := "DBOS.recv"
  output := message.bind (·.message)
  errStr :=
    if message.bind (·.message) = none ∧ a.timeoutOccurred = true then
      some (cfg.timeoutError a.call.timeout)
    else none
  startedAt := a.startedAt
  completedAt := completedAt
  serialization :=
    match message with
    | some m => if m.serialization = "" then cfg.serialization else m.serialization
    | none => cfg.serialization

/-- The input of `RecordOperationResult` for the deadline. -/
def Config.sleepInput (cfg : Config) (c : Call) (deadline : String) (startedAt completedAt : Int) :
    RecordOperationResultInput where
  workflowID := cfg.workflowID
  stepID := c.sleepStepID
  stepName := "DBOS.sleep"
  output := some deadline
  errStr := none
  startedAt := startedAt
  completedAt := completedAt
  serialization := cfg.serialization

namespace State

variable {n : ℕ} (s : State n)

def db : Db := s.store.committed.sys

def goto (e : Fin n) (p : Phase) : State n := { s with phases := Function.update s.phases e p }

def write (e : Fin n) (w : RecvWrite) (p : Phase) : State n where
  store := s.store.write (.exec e) w
  phases := Function.update s.phases e p

def commit (e : Fin n) (p : Phase) : State n where
  store := s.store.commit recvSchema (.exec e)
  phases := Function.update s.phases e p

def rollback (e : Fin n) (p : Phase) : State n where
  store := s.store.rollback (.exec e)
  phases := Function.update s.phases e p

end State

/-- The message selected by the `UPDATE` is one of the oldest unconsumed ones, if there is any. -/
def selectable (cfg : Config) (t : NotificationTable) (topic : String) : Option String → Bool
  | none => t.unconsumed cfg.workflowID topic = []
  | some messageUUID => (t.find? messageUUID).any fun r => t.Oldest cfg.workflowID topic r

section Step

variable {n : ℕ} (cfg : Config)

def Data.row? (cfg : Config) (d : Data) (stepID : Int) : Option OperationRow :=
  d.sys.operation? cfg.workflowID stepID

def Data.pending (cfg : Config) (d : Data) (topic : String) : Bool :=
  NotificationTable.unconsumed d.sys.notifications cfg.workflowID topic ≠ []

def step (s : State n) : Action n → Option (State n)
  | .enter e c =>
    match s.phases e with
    | .idle =>
      -- a recorded result, or an error, is returned at once
      match s.db.checkOperationExecution cfg.workflowID c.stepID "DBOS.recv" with
      | .ok none => some (s.goto e (.entered c))
      | _ => none
    | _ => none
  | .probe e =>
    match s.phases e with
    | .entered c =>
      if s.store.committed.pending cfg c.topic then some (s.goto e (.ready c false))
      else some (s.goto e (.probed c))
    | _ => none
  | .sleepCheck e =>
    match s.phases e with
    | .probed c =>
      match s.db.checkOperationExecution cfg.workflowID c.sleepStepID "DBOS.sleep" with
      | .ok none => some (s.goto e (.sleepChecked c))
      | .ok (some _) => some (s.goto e (.waiting c))
      | .error _ => some (s.goto e .idle)
    | _ => none
  | .sleepInsert e deadline startedAt completedAt =>
    match s.phases e with
    | .sleepChecked c =>
      let i := cfg.sleepInput c deadline startedAt completedAt
      if s.store.Free recvSchema .single [.operation cfg.workflowID c.sleepStepID] then
        match s.store.committed.row? cfg c.sleepStepID with
        | none => some
          { store := s.store.autocommit recvSchema (.sys (.insertOperation i.row))
            phases := Function.update s.phases e (.waiting c) }
        | some stored =>
          match i.onConflict (some stored) with
          | .ok _ => some (s.goto e (.waiting c))
          | .error _ => some (s.goto e .idle)
      else none
    | _ => none
  | .found e =>
    match s.phases e with
    | .waiting c =>
      if s.store.committed.pending cfg c.topic then some (s.goto e (.ready c false)) else none
    | _ => none
  | .timeout e =>
    match s.phases e with
    | .waiting c => some (s.goto e (.ready c true))
    | _ => none
  | .begin e now =>
    match s.phases e with
    | .ready c timeoutOccurred => some (s.goto e (.begun ⟨c, timeoutOccurred, now⟩))
    | _ => none
  | .check e =>
    match s.phases e with
    | .begun a =>
      match s.db.checkOperationExecution cfg.workflowID a.call.stepID "DBOS.recv" with
      | .ok none => some (s.goto e (.checked a))
      | _ => some (s.goto e .idle)
    | _ => none
  | .select e messageUUID =>
    match s.phases e with
    | .checked a =>
      if selectable cfg s.db.notifications a.call.topic messageUUID then
        match messageUUID with
        | none => some (s.goto e (.consumed a none))
        | some messageUUID => some (s.goto e (.locking a messageUUID))
      else none
    | _ => none
  | .update e =>
    match s.phases e with
    | .locking a messageUUID =>
      if s.store.Free recvSchema (.exec e) [.notification messageUUID] then
        -- the row is changed whatever has become of it, for only its identifier is compared
        match s.db.notifications.find? messageUUID with
        | none => some (s.goto e (.consumed a none))
        | some r => some (s.write e (.consume messageUUID) (.consumed a (some r)))
      else none
    | _ => none
  | .insert e now =>
    match s.phases e with
    | .consumed a message =>
      if s.store.Free recvSchema (.exec e) [.operation cfg.workflowID a.call.stepID] then
        if (s.store.committed.row? cfg a.call.stepID).isSome then
          some (s.goto e (.conflicted a message now))
        else
          some (s.write e (.record (cfg.recordInput a message now).row (message.map (·.messageUUID)))
            (.recorded a message now))
      else none
    | _ => none
  | .readBack e =>
    match s.phases e with
    | .conflicted a message completedAt =>
      match (cfg.recordInput a message completedAt).onConflict
          (s.store.committed.row? cfg a.call.stepID) with
      | .ok _ => some (s.goto e (.recorded a message completedAt))
      | .error _ => some (s.rollback e .idle)
    | _ => none
  | .commit e =>
    match s.phases e with
    | .recorded _ _ _ => some (s.commit e .idle)
    | _ => none
  | .commitUnacknowledged e =>
    match s.phases e with
    | .recorded a _ _ => some (s.commit e (.begun a))
    | _ => none
  | .abort e =>
    match s.phases e with
    | .checked a | .locking a _ | .consumed a _ | .conflicted a _ _ | .recorded a _ _ =>
      some (s.rollback e (.begun a))
    | _ => none
  | .leave e => some (s.rollback e .idle)
  | .send k row =>
    -- the column `message` is not nullable
    if row.consumed = false ∧ row.message.isSome = true ∧
        s.store.Free recvSchema (.sender k) [.notification row.messageUUID] then
      some { s with store := s.store.write (.sender k) (.sys (.insertNotification row)) }
    else none
  | .commitSend k => some { s with store := s.store.commit recvSchema (.sender k) }
  | .rollbackSend k => some { s with store := s.store.rollback (.sender k) }

/-- At first the workflow has no checkpoint of a `Recv`, and none of its messages is consumed. -/
def Init (s : State n) : Prop :=
  (∀ r ∈ s.db.operations.rows, r.workflowID = cfg.workflowID → r.functionName ≠ "DBOS.recv") ∧
  (∀ m ∈ s.db.notifications.rows,
    m.message.isSome = true ∧ (m.destinationID = cfg.workflowID → m.consumed = false)) ∧
  s.store.committed.receipts = [] ∧ s.store.pending = [] ∧ ∀ e, s.phases e = .idle

def system (n : ℕ) : System (State n) (Action n) where
  init := Init cfg
  step := step cfg

end Step

end Dbos.Recv
