import DbosTransact.Lib.ReadCommitted
import DbosTransact.Lib.Table
import DbosTransact.Models.WorkflowStatus

/-!
# The tables of the system database

A `Write` names the rows which its statement has selected; `schema` says what it does and which rows it
locks, and so makes `Db` a database under READ COMMITTED.
-/

namespace Dbos

open Relational ReadCommitted

/-- A row of `workflow_waiters`. -/
structure WaiterRow where
  waiterID : String
  awaitedID : String
  deriving DecidableEq, Repr

/-- A row of `notifications`. -/
structure NotificationRow where
  messageUUID : String
  destinationID : String
  topic : String
  message : Option String := none
  serialization : String := ""
  createdAt : Int := 0
  consumed : Bool := false
  deriving DecidableEq, Repr

/-- A row of `workflow_events`. -/
structure EventRow where
  workflowID : String
  key : String
  value : Option String := none
  serialization : String := ""
  deriving DecidableEq, Repr

/-- A row of `workflow_events_history`. -/
structure EventHistoryRow where
  workflowID : String
  functionID : Nat
  key : String
  value : Option String := none
  serialization : String := ""
  deriving DecidableEq, Repr

/-- A row of `operation_outputs`: the checkpoint of a step. -/
structure OperationRow where
  workflowID : String
  functionID : Int
  functionName : String
  output : Option String := none
  error : Option String := none
  serialization : Option String := none
  childWorkflowID : Option String := none
  startedAt : Option Int := none
  completedAt : Option Int := none
  deriving DecidableEq, Repr

structure Db where
  status : Table WorkflowRow.workflowID
  waiters : Table (id : WaiterRow → WaiterRow)
  notifications : Table NotificationRow.messageUUID
  events : Table fun e : EventRow => (e.workflowID, e.key)
  eventsHistory : Table fun h : EventHistoryRow => (h.workflowID, h.functionID, h.key)
  operations : Table fun o : OperationRow => (o.workflowID, o.functionID)

inductive RowKey
  | status (workflowID : String)
  | waiter (row : WaiterRow)
  | notification (messageUUID : String)
  | event (workflowID key : String)
  | eventHistory (workflowID : String) (functionID : Nat) (key : String)
  | operation (workflowID : String) (functionID : Int)
  /-- an entry of the unique index on `(queue_name, deduplication_id)` -/
  | deduplication (queueName deduplicationID : String)
  deriving DecidableEq, Repr

inductive Write
  /-- the `UPDATE` of `suspendWorkflowToDelayed` -/
  | suspend (workflowID : String) (delayUntil now : Int)
  /-- the `INSERT` of `SuspendWorkflowForResult` -/
  | insertWaiter (row : WaiterRow)
  /-- the wake-up of the selected workflows -/
  | wake (workflowIDs : List String) (now : Int)
  /-- the `DELETE` of `WakeWorkflowWaiters`, on the selected rows -/
  | deleteWaiters (rows : List WaiterRow)
  /-- the `INSERT` of `Send` -/
  | insertNotification (row : NotificationRow)
  /-- the first upsert of `SetEvent` -/
  | upsertEvent (row : EventRow)
  /-- the second upsert of `SetEvent` -/
  | upsertEventHistory (row : EventHistoryRow)
  /-- the `UPDATE` of `UpdateWorkflowOutcome` -/
  | outcome (workflowID : String) (status : Status) (output error : Option String) (now : Int)
  /-- an `INSERT` into `operation_outputs` -/
  | insertOperation (row : OperationRow)
  /-- the upsert of `InsertWorkflowStatus` -/
  | insertStatus (row : WorkflowRow)
  deriving DecidableEq, Repr

namespace Write

def apply : Write → Db → Db
  | .suspend id delayUntil now, db =>
    { db with
      status := db.status.update (·.workflowID = id)
        (·.suspendToDelayed delayUntil now) (WorkflowRow.workflowID_suspendToDelayed delayUntil now) }
  | .insertWaiter w, db => { db with waiters := db.waiters.insert w }
  | .wake ids now, db =>
    { db with
      status := db.status.update (·.workflowID ∈ ids) (·.wake now)
        (WorkflowRow.workflowID_wake now) }
  | .deleteWaiters ws, db => { db with waiters := db.waiters.delete (· ∈ ws) }
  | .insertNotification n, db => { db with notifications := db.notifications.insert n }
  | .upsertEvent e, db =>
    { db with
      events := db.events.upsert
        (fun r => { r with value := e.value, serialization := e.serialization })
        (by intro r; rfl) e }
  | .upsertEventHistory h, db =>
    { db with
      eventsHistory := db.eventsHistory.upsert
        (fun r => { r with value := h.value, serialization := h.serialization })
        (by intro r; rfl) h }
  | .outcome id status output error now, db =>
    { db with
      status := db.status.update (·.workflowID = id)
        (·.recordOutcome status output error now)
        (WorkflowRow.workflowID_recordOutcome status output error now) }
  | .insertOperation o, db => { db with operations := db.operations.insert o }
  | .insertStatus r, db =>
    { db with
      status := db.status.upsert (·.reinsert r) (WorkflowRow.workflowID_reinsert r) r }

def rows : Write → List RowKey
  | .suspend id _ _ => [.status id]
  | .insertWaiter w => [.waiter w]
  | .wake ids _ => ids.map .status
  | .deleteWaiters ws => ws.map .waiter
  | .insertNotification n => [.notification n.messageUUID]
  | .upsertEvent e => [.event e.workflowID e.key]
  | .upsertEventHistory h => [.eventHistory h.workflowID h.functionID h.key]
  | .outcome id _ _ _ _ => [.status id]
  | .insertOperation o => [.operation o.workflowID o.functionID]
  | .insertStatus r =>
    .status r.workflowID ::
      match r.queueName, r.deduplicationID with
      | some queue, some id => [.deduplication queue id]
      | _, _ => []

end Write

def schema : Schema Db Write RowKey where
  apply := Write.apply
  rows := Write.rows

namespace Db

def statusOf (db : Db) (id : String) : Option Status := (db.status.find? id).map (·.status)

/-- The `delay_until_epoch_ms` of a workflow. -/
def delayOf (db : Db) (id : String) : Option Int := (db.status.find? id).bind (·.delayUntil)

def hasWaiter (db : Db) (w : WaiterRow) : Bool := (db.waiters.find? w).isSome

end Db

end Dbos
