import DbosTransact.SysDb.Waiters

/-!
# Operations on the status table

The operations which move workflows to a terminal status, executed alone. `ListWorkflows` shows an
application its own rows and the unclaimed ones; the order in which it lists rows plays no part.
-/

namespace Dbos

open Relational

namespace Db

/-- `UpdateWorkflowOutcome`: the guarded `UPDATE` and, whether or not it changed a row, the wake-up
of the waiters at a later clock reading. The flag says whether the outcome was recorded. -/
def updateWorkflowOutcome (db : Db) (id : String) (status : Status) (output error : Option String)
    (now wakeNow : Int) : Db × Bool :=
  let recorded : Bool := db.statusOf id = some .pending
  let db := if recorded then Write.apply (.outcome id status output error now) db else db
  (db.wakeWorkflowWaiters id wakeNow, recorded)

def childrenOf (db : Db) (appName parentID : String) : List String :=
  (db.status.rows.filter fun r => r.parentWorkflowID = some parentID && r.ownedBy appName).map
    (·.workflowID)

/-- The loop of `GetWorkflowChildren`: a breadth-first queue; `none` if `fuel` rounds do not empty
it. -/
def descendantsLoop (db : Db) (appName : String) :
    Nat → List String → List String → Option (List String)
  | _, [], children => some children
  | 0, _ :: _, _ => none
  | fuel + 1, parentID :: queue, children =>
    let grandchildren := db.childrenOf appName parentID
    db.descendantsLoop appName fuel (queue ++ grandchildren) (children ++ grandchildren)

def getWorkflowChildren (db : Db) (appName : String) (fuel : Nat) (id : String) :
    Option (List String) :=
  let children := db.childrenOf appName id
  db.descendantsLoop appName fuel children children

/-- The workflows that `CancelWorkflows` addresses: those given and, if asked for, the descendants
of each of them. -/
def cancelTargets (db : Db) (appName : String) (fuel : Nat) (ids : List String)
    (cancelChildren : Bool) : Option (List String) :=
  if cancelChildren then do
    let children ← ids.mapM (db.getWorkflowChildren appName fuel)
    return ids ++ children.flatten
  else some ids

/-- The `UPDATE` of `CancelWorkflows`. -/
def cancelRows (db : Db) (ids : List String) (now : Int) : Db :=
  { db with
    status := db.status.update (fun r => r.workflowID ∈ ids && r.cancellable) (·.cancel now)
      (WorkflowRow.workflowID_cancel now) }

/-- `CancelWorkflows`, with the identifiers that exist. -/
def cancelWorkflows (db : Db) (appName : String) (fuel : Nat) (ids : List String)
    (cancelChildren : Bool) (now : Int) : Option (Db × List String) := do
  let targets ← db.cancelTargets appName fuel ids cancelChildren
  return (db.cancelRows targets now,
    (db.status.rows.filter fun r => r.workflowID ∈ targets).map (·.workflowID))

/-- The workflows that `CancelAllBefore` lists. -/
def createdBefore (db : Db) (appName : String) (cutoff : Int) : List String :=
  (db.status.rows.filter fun r => r.createdAt ≤ cutoff &&
    (r.status = .pending || r.status = .enqueued || r.status = .delayed) && r.ownedBy appName).map
    (·.workflowID)

def cancelAllBefore (db : Db) (appName : String) (cutoff now : Int) : Db :=
  db.cancelRows (db.createdBefore appName cutoff) now

/-- The `WHERE` of `DeadLetterWorkflows` on a row: still claimed, with the attempts counted. -/
def deadLetterable (minAttempts : Nat) (r : WorkflowRow) : Bool :=
  r.status = .pending && minAttempts ≤ r.recoveryAttempts

def deadLetterWorkflows (db : Db) (ids : List String) (minAttempts : Nat) (now : Int) : Db :=
  { db with
    status := db.status.update (fun r => r.workflowID ∈ ids && deadLetterable minAttempts r)
      (·.deadLetter now) (WorkflowRow.workflowID_deadLetter now) }

/-! ### What the operations do to a status -/

variable (db : Db)

theorem statusOf_cancelRows (ids : List String) (now : Int) (id : String) :
    (db.cancelRows ids now).statusOf id =
      if id ∈ ids ∧ (db.status.find? id).any WorkflowRow.cancellable then some .cancelled
      else db.statusOf id := by
  cases h : db.status.find? id with
  | none => simp [cancelRows, statusOf, h]
  | some r =>
    have hk := Table.key_of_find? h
    by_cases hid : id ∈ ids <;> by_cases hc : r.cancellable = true <;>
      simp [cancelRows, statusOf, h, hk, hid, hc, WorkflowRow.cancel]

theorem delayOf_cancelRows (ids : List String) (now : Int) (id : String) :
    (db.cancelRows ids now).delayOf id = db.delayOf id := by
  cases h : db.status.find? id with
  | none => simp [cancelRows, delayOf, h]
  | some r =>
    simp only [cancelRows, delayOf, Table.find?_update, h, Option.map_some, Option.bind_some]
    split_ifs <;> rfl

theorem statusOf_deadLetterWorkflows (ids : List String) (minAttempts : Nat) (now : Int)
    (id : String) :
    (db.deadLetterWorkflows ids minAttempts now).statusOf id =
      if id ∈ ids ∧ (db.status.find? id).any (deadLetterable minAttempts) then
        some .maxRecoveryAttemptsExceeded
      else db.statusOf id := by
  cases h : db.status.find? id with
  | none => simp [deadLetterWorkflows, statusOf, h]
  | some r =>
    have hk := Table.key_of_find? h
    by_cases hid : id ∈ ids <;> by_cases hc : deadLetterable minAttempts r = true <;>
      simp [deadLetterWorkflows, statusOf, h, hk, hid, hc, WorkflowRow.deadLetter]

theorem delayOf_deadLetterWorkflows (ids : List String) (minAttempts : Nat) (now : Int)
    (id : String) :
    (db.deadLetterWorkflows ids minAttempts now).delayOf id = db.delayOf id := by
  cases h : db.status.find? id with
  | none => simp [deadLetterWorkflows, delayOf, h]
  | some r =>
    simp only [deadLetterWorkflows, delayOf, Table.find?_update, h, Option.map_some,
      Option.bind_some]
    split_ifs <;> rfl

theorem statusOf_wakeWorkflowWaiters (awaitedID : String) (now : Int) (id : String) :
    (db.wakeWorkflowWaiters awaitedID now).statusOf id = db.statusOf id := by
  unfold wakeWorkflowWaiters
  split_ifs
  · rfl
  · exact Write.statusOf_wake _ _ _ _

/-- A wake-up moves the delay of every `DELAYED` waiter to the present. -/
theorem delayOf_wakeWorkflowWaiters {awaitedID id : String} (now : Int)
    (hst : db.statusOf id = some .delayed) (hw : db.hasWaiter ⟨id, awaitedID⟩ = true) :
    (db.wakeWorkflowWaiters awaitedID now).delayOf id = some now := by
  have hmem : (⟨id, awaitedID⟩ : WaiterRow) ∈ db.waitersOf awaitedID := mem_waitersOf.2 ⟨hw, rfl⟩
  unfold wakeWorkflowWaiters
  rw [if_neg (List.ne_nil_of_mem hmem)]
  refine (Write.delayOf_wake _ _ _ _).trans (if_pos ⟨mem_delayedWaiters.2 ⟨hst, hw⟩, ?_⟩)
  simp [hst]

end Db

end Dbos
