import DbosTransact.SysDb.Dialect
import DbosTransact.SysDb.Tables

/-!
# Checkpoints

The functions that read and write `operation_outputs`, statement by statement. Each writer inserts in its own
way and reads back what is there when its `INSERT` finds the key taken; `Patch` inserts without `ON CONFLICT`
and reports the unique violation.
-/

namespace Dbos

open Relational

/-- `nullableStrEq`: NULL and the empty string are equal. -/
def nullableStrEq (a b : Option String) : Bool := a.getD "" = b.getD ""

/-! ### `RecordOperationResult` -/

/-- `RecordOperationResultDBInput`; times in milliseconds. -/
structure RecordOperationResultInput where
  workflowID : String
  stepID : Int
  stepName : String
  output : Option String
  errStr : Option String
  startedAt : Int
  completedAt : Int
  serialization : String
  childWorkflowID : String := ""
  deriving DecidableEq, Repr

namespace RecordOperationResultInput

/-- The row that the `INSERT … ON CONFLICT DO NOTHING` offers. -/
def row (i : RecordOperationResultInput) : OperationRow where
  workflowID := i.workflowID
  functionID := i.stepID
  functionName := i.stepName
  output := i.output
  error := i.errStr
  serialization := some i.serialization
  childWorkflowID := if i.childWorkflowID = "" then none else some i.childWorkflowID
  startedAt := some i.startedAt
  completedAt := some i.completedAt

/-- `sameWrite`: the stored row is taken for an earlier write of this call. -/
def sameWrite (i : RecordOperationResultInput) (stored : OperationRow) : Bool :=
  i.stepName = stored.functionName &&
  nullableStrEq stored.output i.output &&
  nullableStrEq stored.error i.errStr &&
  nullableStrEq stored.serialization (some i.serialization) &&
  stored.childWorkflowID.getD "" = i.childWorkflowID &&
  stored.startedAt = some i.startedAt &&
  stored.completedAt = some i.completedAt

/-- What is returned when the `INSERT` did nothing; `none` stands for a row deleted meanwhile. -/
def onConflict (i : RecordOperationResultInput) : Option OperationRow → Except GoError Unit
  | none => .error (newWorkflowConflictIDError i.workflowID)
  | some stored =>
    if i.sameWrite stored then .ok ()
    else if i.stepName ≠ stored.functionName then
      .error (newUnexpectedStepError i.workflowID i.stepID i.stepName stored.functionName)
    else .error (newWorkflowConflictIDError i.workflowID)

theorem onConflict_eq_ok {i : RecordOperationResultInput} {stored : Option OperationRow} {u : Unit}
    (h : i.onConflict stored = .ok u) : ∃ r, stored = some r ∧ i.sameWrite r = true := by
  cases stored with
  | none => cases h
  | some r =>
    refine ⟨r, rfl, ?_⟩
    by_contra hr
    simp only [onConflict, hr, if_false] at h
    split_ifs at h

theorem eq_of_onConflict_eq_error {i : RecordOperationResultInput}
    {stored : Option OperationRow} {err : GoError} (hname : ∀ r ∈ stored, r.functionName = i.stepName)
    (h : i.onConflict stored = .error err) :
    err = newWorkflowConflictIDError i.workflowID ∧ stored.any i.sameWrite = false := by
  cases stored with
  | none => exact ⟨(Except.error.inj h).symm, rfl⟩
  | some r =>
    have hr : r.functionName = i.stepName := hname r rfl
    simp only [onConflict, hr, ne_eq, not_true_eq_false, if_false] at h
    split_ifs at h with hsame
    exact ⟨(Except.error.inj h).symm, by simpa using hsame⟩

end RecordOperationResultInput

/-! ### `RecordChildWorkflow` -/

/-- `RecordChildWorkflowDBInput`. -/
structure RecordChildWorkflowInput where
  parentWorkflowID : String
  childWorkflowID : String
  stepID : Int
  stepName : String
  startedAt : Int
  deriving DecidableEq, Repr

namespace RecordChildWorkflowInput

/-- The row that the `INSERT … ON CONFLICT DO NOTHING` offers. -/
def row (i : RecordChildWorkflowInput) : OperationRow where
  workflowID := i.parentWorkflowID
  functionID := i.stepID
  functionName := i.stepName
  childWorkflowID := some i.childWorkflowID
  startedAt := some i.startedAt

/-- What is returned when the `INSERT` did nothing: only the child is compared. -/
def onConflict (i : RecordChildWorkflowInput) : Option OperationRow → Except GoError Unit
  | none =>
    .error (.wrapf "failed to check existing child workflow record" (.new "no rows in result set"))
  | some stored =>
    match stored.childWorkflowID with
    | none =>
      .error (newUnexpectedStepError i.parentWorkflowID i.stepID i.childWorkflowID "<nil>")
    | some recorded =>
      if recorded = i.childWorkflowID then .ok ()
      else .error (newUnexpectedStepError i.parentWorkflowID i.stepID i.childWorkflowID recorded)

theorem onConflict_eq_ok {i : RecordChildWorkflowInput} {stored : Option OperationRow} {u : Unit}
    (h : i.onConflict stored = .ok u) :
    ∃ r, stored = some r ∧ r.childWorkflowID = some i.childWorkflowID := by
  unfold onConflict at h
  split at h
  · cases h
  · split at h
    · cases h
    · split_ifs at h with hid
      exact ⟨_, rfl, hid ▸ by assumption⟩

theorem isCode_of_onConflict_eq_error {i : RecordChildWorkflowInput}
    {stored : Option OperationRow} {err : GoError} (h : i.onConflict stored = .error err) :
    err.isCode .conflictingID = false ∧
      (stored.any fun r => r.childWorkflowID = some i.childWorkflowID) = false := by
  unfold onConflict at h
  split at h
  · cases h
    exact ⟨rfl, rfl⟩
  · split at h
    next hchild =>
      cases h
      exact ⟨rfl, by simp [hchild]⟩
    next hchild =>
      split_ifs at h with hid
      cases h
      exact ⟨rfl, by simpa [hchild] using hid⟩

end RecordChildWorkflowInput

/-! ### Patches -/

def patchRow (workflowID : String) (stepID : Int) (patchName : String) : OperationRow where
  workflowID := workflowID
  functionID := stepID
  functionName := patchName

/-- The error of `Patch` when its `INSERT` finds the key taken. -/
def patchInsertError : GoError :=
  .wrapf "failed to insert patch marker" (uniqueViolation "operation_outputs_pkey")

/-! ### Reads -/

structure RecordedResult where
  output : Option String
  errStr : Option String
  serialization : String
  deriving DecidableEq, Repr

/-- What `CheckOperationExecution` makes of a row; an empty error is none. -/
def OperationRow.recorded (r : OperationRow) : RecordedResult where
  output := r.output
  errStr := if r.error = some "" then none else r.error
  serialization := r.serialization.getD ""

namespace Db

def operation? (db : Db) (workflowID : String) (stepID : Int) : Option OperationRow :=
  db.operations.find? (workflowID, stepID)

def checkOperationExecution (db : Db) (workflowID : String) (stepID : Int) (stepName : String) :
    Except GoError (Option RecordedResult) :=
  match db.statusOf workflowID with
  | none => .error (newNonExistentWorkflowError workflowID)
  | some .cancelled => .error (newWorkflowCancelledError workflowID none)
  | some _ =>
    match db.operation? workflowID stepID with
    | none => .ok none
    | some r =>
      if stepName ≠ r.functionName then
        .error (newUnexpectedStepError workflowID stepID stepName r.functionName)
      else .ok (some r.recorded)

theorem operation?_of_checkOperationExecution {db : Db} {workflowID : String} {stepID : Int}
    {stepName : String} (h : db.checkOperationExecution workflowID stepID stepName = .ok none) :
    db.operation? workflowID stepID = none := by
  unfold checkOperationExecution at h
  split at h
  · cases h
  · cases h
  · split at h
    · assumption
    · split_ifs at h
      cases h

def checkChildWorkflow (db : Db) (workflowID : String) (functionID : Int) (functionName : String) :
    Except GoError (Option String) :=
  match db.operation? workflowID functionID with
  | none => .ok none
  | some r =>
    if functionName ≠ r.functionName then
      .error (newUnexpectedStepError workflowID functionID functionName r.functionName)
    else .ok r.childWorkflowID

def getDeduplicatedWorkflow (db : Db) (queueName deduplicationID : String) : Option String :=
  (db.status.rows.find? fun r =>
    r.queueName = some queueName && r.deduplicationID = some deduplicationID).map (·.workflowID)

/-- The deduplication slot that a new row asks for is held by another workflow. -/
def slotHeld (db : Db) (row : WorkflowRow) : Bool :=
  match row.queueName, row.deduplicationID with
  | some queue, some id => (db.getDeduplicatedWorkflow queue id).isSome
  | _, _ => false

/-- The result of the upsert of `InsertWorkflowStatus`. The unique index on the deduplication slot
is consulted only when the row is new. -/
def insertWorkflowStatus (db : Db) (row : WorkflowRow) : Except GoError Unit :=
  match db.status.find? row.workflowID with
  | none =>
    if db.slotHeld row then
      .error (newQueueDeduplicatedError row.workflowID (row.queueName.getD "")
        (row.deduplicationID.getD ""))
    else .ok ()
  | some existing =>
    if row.name ≠ "" ∧ existing.name ≠ row.name then
      .error (newUnexpectedWorkflowError row.workflowID <|
        s!"Workflow already exists with a different name: {existing.name}, " ++
        s!"but the provided name is: {row.name}")
    else
      match row.queueName, existing.queueName with
      | some queue, some recorded =>
        if queue ≠ recorded then
          .error (newUnexpectedWorkflowError row.workflowID <|
            s!"Workflow already exists in a different queue: {recorded}, " ++
            s!"but the provided queue is: {queue}")
        else .ok ()
      | _, _ => .ok ()

end Db

end Dbos
