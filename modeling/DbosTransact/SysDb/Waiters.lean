import DbosTransact.SysDb.Tables

/-!
# Suspension and wake-up statements

The rows that each statement selects from what it sees. A wake-up that waited for a row lock looks at the row
again (`stillDelayed`). `send` and `wakeWorkflowWaiters` are `Send` and `WakeWorkflowWaiters`, executed alone.
-/

namespace Dbos

open Relational ReadCommitted

/-- The topic under which messages sent without a topic are stored. -/
def nullTopic : String := "__null__topic__"

def normalizeTopic (topic : String) : String := if topic = "" then nullTopic else topic

/-- The input of `Send`. -/
structure SendInput where
  destinationID : String
  topic : String := ""
  message : Option String := none
  serialization : String := ""
  idempotencyKey : String := ""
  messageUUID : Option String := none
  deriving DecidableEq, Repr

/-- The notification that `Send` inserts; `fresh` is the random identifier it draws. -/
def SendInput.notification (input : SendInput) (fresh : String) (now : Int) : NotificationRow where
  messageUUID :=
    match input.messageUUID with
    | some uuid => uuid
    | none =>
      if input.idempotencyKey = "" then fresh
      else input.idempotencyKey ++ "::" ++ input.destinationID
  destinationID := input.destinationID
  topic := normalizeTopic input.topic
  message := input.message
  serialization := input.serialization
  createdAt := now

/-- The input of `SetEvent`. -/
structure SetEventInput where
  workflowID : String
  stepID : Nat
  key : String
  message : Option String := none
  serialization : String := ""
  deriving DecidableEq, Repr

/-- The row that `SetEvent` upserts into `workflow_events`. -/
def SetEventInput.event (input : SetEventInput) : EventRow where
  workflowID := input.workflowID
  key := input.key
  value := input.message
  serialization := input.serialization

/-- The row that `SetEvent` upserts into `workflow_events_history`. -/
def SetEventInput.history (input : SetEventInput) : EventHistoryRow where
  workflowID := input.workflowID
  functionID := input.stepID
  key := input.key
  value := input.message
  serialization := input.serialization

namespace Db

/-- The `WHERE` of `suspendWorkflowToDelayed`: the row exists and is `PENDING`. -/
def suspendable (db : Db) (id : String) : Bool := db.statusOf id = some .pending

/-- The wake-up of `Send`: the destination, if it is `DELAYED` and a waiter on itself. -/
def sendTargets (db : Db) (destinationID : String) : List String :=
  if db.statusOf destinationID = some .delayed ∧ db.hasWaiter ⟨destinationID, destinationID⟩ then
    [destinationID]
  else []

/-- The wake-up of `notifyWorkflowWaiters` and `WakeWorkflowWaiters`: the `DELAYED` waiters. -/
def delayedWaiters (db : Db) (awaitedID : String) : List String :=
  (db.status.rows.filter fun r => r.status = .delayed && db.hasWaiter ⟨r.workflowID, awaitedID⟩).map
    (·.workflowID)

/-- The wake-up of `WakeSuspendedWorkflow`. -/
def suspendedTarget (db : Db) (id : String) : List String :=
  if db.statusOf id = some .delayed then [id] else []

/-- The selected workflows which are `DELAYED` when the wake-up gets to change them. -/
def stillDelayed (db : Db) (ids : List String) : List String :=
  ids.filter fun id => db.statusOf id = some .delayed

/-- The rows that the `DELETE` of `WakeWorkflowWaiters` selects. -/
def waitersOf (db : Db) (awaitedID : String) : List WaiterRow :=
  db.waiters.rows.filter fun w => w.awaitedID = awaitedID

def hasUnconsumedNotification (db : Db) (destinationID topic : String) : Bool :=
  db.notifications.rows.any fun n =>
    n.destinationID = destinationID && n.topic = normalizeTopic topic && !n.consumed

def hasWorkflowEvent (db : Db) (targetID key : String) : Bool :=
  (db.events.find? (targetID, key)).isSome

/-- `Send`, executed alone; the wake-up reads the clock again. -/
def send (db : Db) (input : SendInput) (fresh : String) (now wakeNow : Int) : Db :=
  let db := Write.apply (.insertNotification (input.notification fresh now)) db
  Write.apply (.wake (db.sendTargets input.destinationID) wakeNow) db

/-- `WakeWorkflowWaiters`, executed alone. -/
def wakeWorkflowWaiters (db : Db) (awaitedID : String) (now : Int) : Db :=
  if db.waitersOf awaitedID = [] then db
  else
    let db := Write.apply (.wake (db.delayedWaiters awaitedID) now) db
    Write.apply (.deleteWaiters (db.waitersOf awaitedID)) db

/-! ### What the selections contain -/

theorem mem_delayedWaiters {db : Db} {id awaitedID : String} :
    id ∈ db.delayedWaiters awaitedID ↔
      db.statusOf id = some .delayed ∧ db.hasWaiter ⟨id, awaitedID⟩ := by
  simp only [delayedWaiters, List.mem_map, List.mem_filter, statusOf, Bool.and_eq_true,
    decide_eq_true_eq]
  constructor
  · rintro ⟨r, ⟨hr, hst, hw⟩, rfl⟩
    exact ⟨by rw [Table.find?_of_mem hr]; exact congrArg some hst, hw⟩
  · rintro ⟨hst, hw⟩
    obtain ⟨r, hr, hrst⟩ := Option.map_eq_some_iff.1 hst
    obtain rfl := Table.key_of_find? hr
    exact ⟨r, ⟨Table.mem_of_find? hr, hrst, hw⟩, rfl⟩

theorem mem_sendTargets {db : Db} {id destinationID : String} :
    id ∈ db.sendTargets destinationID ↔ id = destinationID ∧
      db.statusOf destinationID = some .delayed ∧ db.hasWaiter ⟨destinationID, destinationID⟩ := by
  unfold sendTargets
  split_ifs with h
  · simp [h]
  · simpa using fun _ hst => fun hw => h ⟨hst, hw⟩

theorem mem_suspendedTarget {db : Db} {id target : String} :
    id ∈ db.suspendedTarget target ↔ id = target ∧ db.statusOf target = some .delayed := by
  unfold suspendedTarget
  split_ifs with h
  · simp [h]
  · simp [h]

theorem mem_stillDelayed {db : Db} {id : String} {ids : List String} :
    id ∈ db.stillDelayed ids ↔ id ∈ ids ∧ db.statusOf id = some .delayed := by
  simp [stillDelayed]

theorem mem_waitersOf {db : Db} {w : WaiterRow} {awaitedID : String} :
    w ∈ db.waitersOf awaitedID ↔ db.hasWaiter w ∧ w.awaitedID = awaitedID := by
  simp only [waitersOf, List.mem_filter, decide_eq_true_eq, hasWaiter]
  refine and_congr_left fun _ => ?_
  constructor
  · intro hw
    simp [show db.waiters.find? w = some w from Table.find?_of_mem hw]
  · intro hw
    obtain ⟨x, hx⟩ := Option.isSome_iff_exists.1 hw
    obtain rfl : x = w := Table.key_of_find? hx
    exact Table.mem_of_find? hx

end Db

/-! ### What the writes change -/

namespace Write

variable (db : Db)

theorem statusOf_wake (ids : List String) (now : Int) (id : String) :
    (Write.apply (.wake ids now) db).statusOf id = db.statusOf id := by
  simp only [Write.apply, Db.statusOf, Table.find?_update, Option.map_map]
  congr 1
  funext r
  simp only [Function.comp_apply]
  split_ifs <;> rfl

theorem delayOf_wake (ids : List String) (now : Int) (id : String) :
    (Write.apply (.wake ids now) db).delayOf id =
      if id ∈ ids ∧ (db.statusOf id).isSome then some now else db.delayOf id := by
  cases h : db.status.find? id with
  | none => simp [Write.apply, Db.delayOf, Db.statusOf, h]
  | some r =>
    have hk := Table.key_of_find? h
    by_cases hid : id ∈ ids <;>
      simp [Write.apply, Db.delayOf, Db.statusOf, h, hk, hid, WorkflowRow.wake]

theorem hasWaiter_insertWaiter (w v : WaiterRow) :
    (Write.apply (.insertWaiter w) db).hasWaiter v = (db.hasWaiter v || w = v) := by
  simp only [Write.apply, Db.hasWaiter, Table.find?_insert, id]
  by_cases h : w = v <;> simp [h]

theorem hasWaiter_deleteWaiters (ws : List WaiterRow) (v : WaiterRow) :
    (Write.apply (.deleteWaiters ws) db).hasWaiter v = (db.hasWaiter v && v ∉ ws) := by
  simp only [Write.apply, Db.hasWaiter, Table.find?_delete]
  cases h : db.waiters.find? v with
  | none => simp
  | some x =>
    obtain rfl : x = v := Table.key_of_find? h
    by_cases hx : x ∈ ws <;> simp [hx, Option.filter]

theorem statusOf_suspend (id : String) (delayUntil now : Int) (other : String) :
    (Write.apply (.suspend id delayUntil now) db).statusOf other =
      if other = id then (db.statusOf id).map fun _ => .delayed else db.statusOf other := by
  simp only [Write.apply, Db.statusOf, Table.find?_update]
  by_cases hid : other = id
  · subst hid
    cases h : db.status.find? other with
    | none => simp
    | some r => simp [Table.key_of_find? h, WorkflowRow.suspendToDelayed]
  · cases h : db.status.find? other with
    | none => simp [hid]
    | some r => simp [Table.key_of_find? h, hid]

theorem delayOf_suspend (id : String) (delayUntil now : Int) (other : String) :
    (Write.apply (.suspend id delayUntil now) db).delayOf other =
      if other = id then (db.statusOf id).map fun _ => delayUntil else db.delayOf other := by
  simp only [Write.apply, Db.delayOf, Db.statusOf, Table.find?_update]
  by_cases hid : other = id
  · subst hid
    cases h : db.status.find? other with
    | none => simp
    | some r => simp [Table.key_of_find? h, WorkflowRow.suspendToDelayed]
  · cases h : db.status.find? other with
    | none => simp [hid]
    | some r => simp [Table.key_of_find? h, hid]

theorem statusOf_outcome (id : String) (status : Status) (output error : Option String) (now : Int)
    (other : String) :
    (Write.apply (.outcome id status output error now) db).statusOf other =
      if other = id then (db.statusOf id).map fun _ => status else db.statusOf other := by
  simp only [Write.apply, Db.statusOf, Table.find?_update]
  by_cases hid : other = id
  · subst hid
    cases h : db.status.find? other with
    | none => simp
    | some r => simp [Table.key_of_find? h, WorkflowRow.recordOutcome]
  · cases h : db.status.find? other with
    | none => simp [hid]
    | some r => simp [Table.key_of_find? h, hid]

theorem delayOf_outcome (id : String) (status : Status) (output error : Option String) (now : Int)
    (other : String) :
    (Write.apply (.outcome id status output error now) db).delayOf other = db.delayOf other := by
  simp only [Write.apply, Db.delayOf, Table.find?_update]
  cases h : db.status.find? other with
  | none => rfl
  | some r => by_cases hid : r.workflowID = id <;> simp [hid, WorkflowRow.recordOutcome]

end Write

end Dbos
