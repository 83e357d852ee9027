import DbosTransact.SysDb.Operations
import DbosTransact.SysDb.Status
import Mathlib.Data.List.Sort

/-!
# The statements on `workflow_status`

Each operation of the system database is its `UPDATE`, `INSERT` or `DELETE`, with its guard, on the whole
table. The other tables are left out, and a wake-up is given the workflows that the waiter table names.
-/

namespace Dbos

open Relational

/-- The table `workflow_status`. -/
abbrev StatusTable := Table WorkflowRow.workflowID

/-- `owner`: an application without a name owns nothing. -/
def ownerOf (appName : String) : Option String := if appName = "" then none else some appName

def nullIfEmpty (s : String) : Option String := if s = "" then none else some s

/-- `InsertWorkflowStatusDBInput`; times in milliseconds. -/
structure InsertWorkflowStatusInput where
  workflowID : String
  status : Status
  name : String
  configName : String := ""
  queueName : String := ""
  authenticatedUser : String := ""
  executorID : String := ""
  applicationVersion : String := ""
  createdAt : Int := 0
  updatedAt : Int := 0
  timeout : Option Int := none
  deadline : Option Int := none
  inputs : Option String := none
  deduplicationID : String := ""
  priority : Int := 0
  queuePartitionKey : String := ""
  ownerXID : Option String := none
  parentWorkflowID : String := ""
  serialization : String := ""
  delayUntil : Option Int := none
  debounceDeadline : Option Int := none
  isDebounced : Bool := false
  applicationName : String := ""
  deriving DecidableEq, Repr

namespace InsertWorkflowStatusInput

/-- The row that `InsertWorkflowStatus` offers, on behalf of an application. -/
def row (appName : String) (i : InsertWorkflowStatusInput) : WorkflowRow where
  workflowID := i.workflowID
  status := i.status
  name := i.name
  configName := some i.configName
  inputs := i.inputs
  serialization := some i.serialization
  authenticatedUser := some i.authenticatedUser
  executorID := some i.executorID
  ownerXID := i.ownerXID
  applicationVersion := nullIfEmpty i.applicationVersion
  applicationName := if i.applicationName = "" then ownerOf appName else some i.applicationName
  queueName := nullIfEmpty i.queueName
  queuePartitionKey := nullIfEmpty i.queuePartitionKey
  priority := i.priority
  deduplicationID := nullIfEmpty i.deduplicationID
  isDebounced := i.isDebounced
  debounceDeadline := i.debounceDeadline
  recoveryAttempts := if i.status = .enqueued ∨ i.status = .delayed then 0 else 1
  parentWorkflowID := nullIfEmpty i.parentWorkflowID
  createdAt := i.createdAt
  updatedAt := i.updatedAt
  delayUntil := i.delayUntil
  workflowTimeout := i.timeout
  workflowDeadline := i.deadline

/-- What the callers of `InsertWorkflowStatus` give: a workflow that runs at once, or one on a queue,
which if it is delayed has a delay. -/
def WellFormed (i : InsertWorkflowStatusInput) : Prop :=
  i.status = .pending ∨
    i.queueName ≠ "" ∧ (i.status = .enqueued ∨ i.status = .delayed ∧ i.delayUntil.isSome = true)

instance (i : InsertWorkflowStatusInput) : Decidable i.WellFormed :=
  inferInstanceAs (Decidable (_ ∨ _))

end InsertWorkflowStatusInput

/-- One entry of `ForkWorkflowsDBInput`. -/
structure ForkEntry where
  originalID : String
  forkedID : String
  startStep : Int := 0
  deriving DecidableEq, Repr

/-- `ForkWorkflowsDBInput`, with the forked identifiers drawn where none were given. -/
structure ForkWorkflowsInput where
  entries : List ForkEntry
  applicationVersion : String := ""
  queueName : String := ""
  queuePartitionKey : String := ""
  timeout : Option Int := none
  deriving DecidableEq, Repr

/-- The row of a fork: the initial values of its original, on a queue. -/
def ForkWorkflowsInput.row (i : ForkWorkflowsInput) (appName : String) (now : Int)
    (original : WorkflowRow) (forkedID : String) : WorkflowRow where
  workflowID := forkedID
  status := .enqueued
  name := original.name
  configName := original.configName
  inputs := original.inputs
  serialization := some (original.serialization.getD "")
  authenticatedUser := some (original.authenticatedUser.getD "")
  applicationVersion :=
    some (if i.applicationVersion = "" then original.applicationVersion.getD "" else i.applicationVersion)
  applicationName := (original.applicationName.filter (· ≠ "")).or (ownerOf appName)
  queueName := some (if i.queueName = "" then internalQueueName else i.queueName)
  queuePartitionKey := nullIfEmpty i.queuePartitionKey
  createdAt := now
  updatedAt := now
  workflowTimeout := i.timeout

/-- `DebounceDelayedWorkflowDBInput`. -/
structure DebounceInput where
  workflowName : String
  queueName : String
  deduplicationID : String
  delayUntil : Int
  inputs : Option String := none
  serialization : String := ""
  deriving DecidableEq, Repr

/-- `GarbageCollectWorkflowsInput`. -/
structure GarbageCollectInput where
  cutoffEpochTimestampMs : Option Int := none
  rowsThreshold : Option Int := none
  batchSize : Option Int := none
  deriving DecidableEq, Repr

namespace StatusTable

def toDb (t : StatusTable) : Db := ⟨t, .empty, .empty, .empty, .empty, .empty⟩

/-- `InsertWorkflowStatus`: the upsert, undone by the caller if the row turns out to be that of
another workflow. -/
def insertWorkflowStatus (t : StatusTable) (row : WorkflowRow) : Except GoError StatusTable :=
  match t.toDb.insertWorkflowStatus row with
  | .ok _ => .ok (t.upsert (·.reinsert row) (WorkflowRow.workflowID_reinsert row) row)
  | .error err => .error err

/-- The rows of the forks; `none` if an original is missing. -/
def forkRows (t : StatusTable) (i : ForkWorkflowsInput) (appName : String) (now : Int) :
    Option (List WorkflowRow) :=
  i.entries.mapM fun e => (t.find? e.originalID).map fun original => i.row appName now original e.forkedID

/-- A plain `INSERT` of several rows, which fails as a whole if a key is taken. -/
def insertAll : StatusTable → List WorkflowRow → Option StatusTable
  | t, [] => some t
  | t, r :: rs => if (t.find? r.workflowID).isSome then none else insertAll (t.insert r) rs

theorem insertAll_eq (t : StatusTable) (rows : List WorkflowRow) : t.insertAll rows = Table.insertAll t rows := by
  induction rows generalizing t with
  | nil => rfl
  | cons r rows ih => simp only [insertAll, Table.insertAll, ih]

theorem exists_original {t : StatusTable} {i : ForkWorkflowsInput} {appName : String}
    {now : Int} {rows : List WorkflowRow} (h : t.forkRows i appName now = some rows) {r : WorkflowRow}
    (hr : r ∈ rows) :
    ∃ x original forkedID, t.find? x = some original ∧ r = i.row appName now original forkedID := by
  obtain ⟨e, -, he⟩ := (mem_of_mapM h).1 hr
  obtain ⟨original, horiginal, rfl⟩ := Option.map_eq_some_iff.1 he
  exact ⟨e.originalID, original, e.forkedID, horiginal, rfl⟩

theorem insertAll_cases {t t' : StatusTable} {rows : List WorkflowRow} (h : t.insertAll rows = some t') :
    (∀ r ∈ t.rows, r ∈ t'.rows) ∧ ∀ r ∈ t'.rows, r ∈ t.rows ∨ r ∈ rows := by
  induction rows generalizing t with
  | nil =>
    cases h
    exact ⟨fun r hr => hr, fun r hr => .inl hr⟩
  | cons x rows ih =>
    unfold insertAll at h
    split_ifs at h with hx
    have hrows : (t.insert x).rows = t.rows ++ [x] := by
      rw [Table.rows_insert, if_pos (Option.not_isSome_iff_eq_none.1 hx)]
    obtain ⟨hold, hnew⟩ := ih h
    refine ⟨fun r hr => hold r (by simp [hrows, hr]), fun r hr => ?_⟩
    rcases hnew r hr with hr | hr
    · rw [hrows, List.mem_append, List.mem_singleton] at hr
      exact hr.imp_right fun (hr : r = x) => hr ▸ List.mem_cons_self
    · exact .inr (List.mem_cons_of_mem _ hr)

def forkWorkflows (t : StatusTable) (appName : String) (i : ForkWorkflowsInput) (now : Int) :
    Option StatusTable :=
  if i.entries.any fun e => e.startStep < 0 then none
  else (t.forkRows i appName now).bind t.insertAll

/-- The `WHERE` of the claim. -/
def claimTakes (c : WorkflowRow.Claim) (ids : List String) (r : WorkflowRow) : Bool :=
  r.workflowID ∈ ids && r.status = .enqueued && r.ownedBy c.appName

/-- The `UPDATE` of `DequeueWorkflows`, on the rows that it has selected. -/
def claim (t : StatusTable) (c : WorkflowRow.Claim) (ids : List String) (now : Int) : StatusTable :=
  t.update (fun r => r.workflowID ∈ ids && r.status = .enqueued && r.ownedBy c.appName) (·.claim c now)
    (WorkflowRow.workflowID_claim c now)

def suspendWorkflowToDelayed (t : StatusTable) (id : String) (delayUntil now : Int) : StatusTable :=
  t.update (fun r => r.workflowID = id && r.status = .pending) (·.suspendToDelayed delayUntil now)
    (WorkflowRow.workflowID_suspendToDelayed delayUntil now)

def transitionDelayedWorkflows (t : StatusTable) (appName : String) (now : Int) : StatusTable :=
  t.update (fun r => r.delayExpired now && r.ownedBy appName) (·.promote now)
    (WorkflowRow.workflowID_promote now)

/-- The `WHERE` of `DebounceDelayedWorkflow`. -/
def debounceable (i : DebounceInput) (appName : String) (r : WorkflowRow) : Bool :=
  r.name = i.workflowName && r.queueName = some i.queueName &&
  r.deduplicationID = some i.deduplicationID && r.status = .delayed && r.isDebounced &&
  r.ownedBy appName

def debounceDelayedWorkflow (t : StatusTable) (appName : String) (i : DebounceInput) (now : Int) :
    StatusTable :=
  t.update (debounceable i appName) (·.debounce appName i.delayUntil i.inputs i.serialization now)
    (WorkflowRow.workflowID_debounce appName i.delayUntil i.inputs i.serialization now)

def setWorkflowDelay (t : StatusTable) (id : String) (delayUntil now : Int) : StatusTable :=
  t.update (fun r => r.workflowID = id && r.status = .delayed) (·.setDelay delayUntil now)
    (WorkflowRow.workflowID_setDelay delayUntil now)

/-- A wake-up: `Send`, `notifyWorkflowWaiters`, `WakeWorkflowWaiters` or `WakeSuspendedWorkflow`. -/
def wake (t : StatusTable) (ids : List String) (now : Int) : StatusTable :=
  t.update (fun r => r.workflowID ∈ ids && r.status = .delayed) (·.wake now)
    (WorkflowRow.workflowID_wake now)

/-- `UpdateWorkflowOutcome`; `executeWorkflow` records a success or an error. -/
def updateWorkflowOutcome (t : StatusTable) (id : String) (failed : Bool)
    (output error : Option String) (now : Int) : StatusTable :=
  t.update (fun r => r.workflowID = id && r.status = .pending)
    (·.recordOutcome (if failed then .error else .success) output error now)
    (WorkflowRow.workflowID_recordOutcome _ output error now)

/-- `CancelWorkflows`, on the workflows that it addresses. -/
def cancelWorkflows (t : StatusTable) (ids : List String) (now : Int) : StatusTable :=
  t.update (fun r => r.workflowID ∈ ids && r.cancellable) (·.cancel now)
    (WorkflowRow.workflowID_cancel now)

def deadLetterWorkflows (t : StatusTable) (ids : List String) (minAttempts : Nat) (now : Int) :
    StatusTable :=
  t.update (fun r => r.workflowID ∈ ids && Db.deadLetterable minAttempts r) (·.deadLetter now)
    (WorkflowRow.workflowID_deadLetter now)

/-- The `WHERE` of `ReenqueueForRecovery`. -/
def recoverable (appName : String) (executorIDs : List String) (appVersion : String)
    (r : WorkflowRow) : Bool :=
  r.status = .pending && r.executorID.any (· ∈ executorIDs) &&
  (appVersion = "" || r.applicationVersion = some appVersion) && r.ownedBy appName

/-- `ReenqueueForRecovery`, with the internal queue for the workflows that have none. -/
def reenqueueForRecovery (t : StatusTable) (appName : String) (executorIDs : List String)
    (appVersion : String) (now : Int) : StatusTable :=
  t.update (recoverable appName executorIDs appVersion) (·.reenqueue internalQueueName now)
    (WorkflowRow.workflowID_reenqueue internalQueueName now)

def resumeWorkflows (t : StatusTable) (ids : List String) (queueName : String) (now : Int) :
    StatusTable :=
  t.update (fun r => r.workflowID ∈ ids && r.resumable) (·.resume queueName now)
    (WorkflowRow.workflowID_resume queueName now)

/-- `RenameApplication`, after its last batch. -/
def renameApplication (t : StatusTable) (oldName newName : String) (adoptUnclaimedRows : Bool) :
    StatusTable :=
  t.update (·.renameSource oldName adoptUnclaimedRows) (·.rename newName)
    (WorkflowRow.workflowID_rename newName)

/-- `DeleteWorkflows`, with the descendants among the given workflows. -/
def deleteWorkflows (t : StatusTable) (ids : List String) : StatusTable :=
  t.delete (·.workflowID ∈ ids)

/-! ### Garbage collection -/

/-- The `completed_at` of the newest-but-`threshold`-th completed row, or 0 if there is none. -/
def rowsBasedCutoff (t : StatusTable) (appName : String) (threshold : Int) : Int :=
  let completed := (t.rows.filter (·.ownedBy appName)).filterMap (·.completedAt)
  ((completed.mergeSort fun a b => b ≤ a)[(threshold - 1).toNat]?).getD 0

/-- The cutoff of a collection: the one that deletes more, if a threshold is given as well. -/
def gcCutoff (t : StatusTable) (appName : String) (i : GarbageCollectInput) : Option Int :=
  match i.rowsThreshold with
  | none => i.cutoffEpochTimestampMs
  | some threshold =>
    let found := t.rowsBasedCutoff appName threshold
    match i.cutoffEpochTimestampMs with
    | none => if 0 < found then some found else none
    | some cutoff => some (if cutoff < found then found else cutoff)

def gcFilter (appName : String) (cutoff : Int) (r : WorkflowRow) : Bool :=
  r.completedAt.any (· < cutoff) && r.ownedBy appName

/-- `completed_at > watermark`. -/
def above (watermark : Int) (r : WorkflowRow) : Bool := r.completedAt.any (watermark < ·)

/-- The bound of the next batch: the `batchSize`-th oldest eligible `completed_at`. -/
def gcStep (t : StatusTable) (appName : String) (cutoff : Int) (batchSize watermark : Int) :
    Option Int :=
  let eligible := t.rows.filter fun r => gcFilter appName cutoff r && above watermark r
  ((eligible.filterMap (·.completedAt)).mergeSort (· ≤ ·))[(batchSize - 1).toNat]?

/-- The `DELETE` of one batch. -/
def gcBatch (t : StatusTable) (appName : String) (cutoff watermark step : Int) : StatusTable :=
  t.delete fun r => gcFilter appName cutoff r && above watermark r && r.completedAt.any (· ≤ step)

theorem length_gcBatch {t : StatusTable} {appName : String} {cutoff batchSize watermark step : Int}
    (h : t.gcStep appName cutoff batchSize watermark = some step) :
    (t.gcBatch appName cutoff watermark step).rows.length < t.rows.length := by
  have hmem := List.mem_of_getElem? h
  rw [List.mem_mergeSort, List.mem_filterMap] at hmem
  obtain ⟨r, hr, hstep⟩ := hmem
  obtain ⟨hr, hfilter⟩ := List.mem_filter.1 hr
  refine List.length_filter_lt_length_iff_exists.2 ⟨r, hr, ?_⟩
  simp [hfilter, hstep]

def garbageCollectInBatches (t : StatusTable) (appName : String) (cutoff batchSize watermark : Int) :
    StatusTable :=
  match _h : t.gcStep appName cutoff batchSize watermark with
  | none => t.delete fun r => gcFilter appName cutoff r && above watermark r
  | some step =>
    (t.gcBatch appName cutoff watermark step).garbageCollectInBatches appName cutoff batchSize step
termination_by t.rows.length
decreasing_by exact length_gcBatch _h

theorem lt_gcStep {t : StatusTable} {appName : String} {cutoff batchSize watermark step : Int}
    (h : t.gcStep appName cutoff batchSize watermark = some step) : watermark < step := by
  have hmem := List.mem_of_getElem? h
  rw [List.mem_mergeSort, List.mem_filterMap] at hmem
  obtain ⟨r, hr, hstep⟩ := hmem
  have habove := (Bool.and_eq_true_iff.1 (List.mem_filter.1 hr).2).2
  simpa [above, hstep] using habove

/-- What remains after a batch is what remained, above the bound of the batch. -/
theorem delete_gcBatch {t : StatusTable} {appName : String} {cutoff watermark step : Int} (h : watermark < step) :
    ((t.gcBatch appName cutoff watermark step).delete fun r => gcFilter appName cutoff r && above step r) =
      t.delete fun r => gcFilter appName cutoff r && above watermark r := by
  rw [gcBatch, Table.delete_delete]
  congr 1
  funext r
  cases hc : r.completedAt with
  | none => simp [above, hc]
  | some c =>
    by_cases hgc : gcFilter appName cutoff r = true
    · rw [hgc, Bool.eq_iff_iff]
      simp only [above, hc, Option.any_some, Bool.true_and, Bool.or_eq_true, Bool.and_eq_true, decide_eq_true_eq]
      omega
    · simp [hgc]

/-- All batches together are one `DELETE`. -/
theorem garbageCollectInBatches_eq_delete (t : StatusTable) (appName : String)
    (cutoff batchSize watermark : Int) :
    t.garbageCollectInBatches appName cutoff batchSize watermark =
      t.delete fun r => gcFilter appName cutoff r && above watermark r := by
  fun_induction garbageCollectInBatches t appName cutoff batchSize watermark with
  | case1 t watermark _ => rfl
  | case2 t watermark step hstep ih => rw [ih, delete_gcBatch (lt_gcStep hstep)]

def checkPositive (parameter : String) : Option Int → Except GoError Unit
  | none => .ok ()
  | some n =>
    if n ≤ 0 then .error (.new s!"{parameter} must be greater than 0, got {n}") else .ok ()

/-- The deletion, at once or in batches, once the cutoff is determined. -/
def collectBefore (t : StatusTable) (appName : String) (batchSize : Option Int) :
    Option Int → StatusTable
  | none => t
  | some cutoff =>
    match batchSize with
    | none => t.delete (gcFilter appName cutoff)
    | some batchSize => t.garbageCollectInBatches appName cutoff batchSize 0

def garbageCollectWorkflows (t : StatusTable) (appName : String) (i : GarbageCollectInput) :
    Except GoError StatusTable := do
  checkPositive "rowsThreshold" i.rowsThreshold
  checkPositive "batchSize" i.batchSize
  return t.collectBefore appName i.batchSize (t.gcCutoff appName i)

theorem eq_collectBefore {t t' : StatusTable} {appName : String} {i : GarbageCollectInput}
    (h : t.garbageCollectWorkflows appName i = .ok t') :
    t' = t.collectBefore appName i.batchSize (t.gcCutoff appName i) := by
  unfold garbageCollectWorkflows at h
  cases hthreshold : checkPositive "rowsThreshold" i.rowsThreshold with
  | error err => rw [hthreshold] at h; cases h
  | ok =>
    cases hbatch : checkPositive "batchSize" i.batchSize with
    | error err => rw [hthreshold, hbatch] at h; cases h
    | ok => rw [hthreshold, hbatch] at h; exact (Except.ok.inj h).symm

theorem collectBefore_eq_delete (t : StatusTable) (appName : String) (batchSize cutoff : Option Int) :
    ∃ p : WorkflowRow → Bool, t.collectBefore appName batchSize cutoff = t.delete p ∧
      ∀ r, p r = true → r.completedAt.isSome = true := by
  have hcompleted : ∀ cutoff r, gcFilter appName cutoff r = true → r.completedAt.isSome = true := by
    intro cutoff r hr
    cases hc : r.completedAt with
    | none => simp [gcFilter, hc] at hr
    | some _ => rfl
  cases cutoff with
  | none => exact ⟨fun _ => false, by simp [collectBefore, Table.delete], by simp⟩
  | some cutoff =>
    cases batchSize with
    | none => exact ⟨_, rfl, hcompleted cutoff⟩
    | some batchSize =>
      refine ⟨_, t.garbageCollectInBatches_eq_delete appName cutoff batchSize 0, fun r hr => ?_⟩
      exact hcompleted cutoff r (Bool.and_eq_true_iff.1 hr).1

end StatusTable

/-! ### All operations -/

namespace Lifecycle

/-- The operations on `workflow_status`, with the application on whose behalf they run. -/
inductive Operation
  | insertWorkflowStatus (appName : String) (i : InsertWorkflowStatusInput)
  | forkWorkflows (appName : String) (i : ForkWorkflowsInput) (now : Int)
  | dequeueWorkflows (c : WorkflowRow.Claim) (ids : List String) (now : Int)
  | suspendWorkflowToDelayed (id : String) (delayUntil now : Int)
  | transitionDelayedWorkflows (appName : String) (now : Int)
  | debounceDelayedWorkflow (appName : String) (i : DebounceInput) (now : Int)
  | setWorkflowDelay (id : String) (delayUntil now : Int)
  | wake (ids : List String) (now : Int)
  | updateWorkflowOutcome (id : String) (failed : Bool) (output error : Option String) (now : Int)
  | cancelWorkflows (ids : List String) (now : Int)
  | deadLetterWorkflows (ids : List String) (minAttempts : Nat) (now : Int)
  | reenqueueForRecovery (appName : String) (executorIDs : List String) (appVersion : String)
      (now : Int)
  | resumeWorkflows (ids : List String) (queueName : String) (now : Int)
  | renameApplication (oldName newName : String) (adoptUnclaimedRows : Bool)
  | deleteWorkflows (ids : List String)
  | garbageCollectWorkflows (appName : String) (i : GarbageCollectInput)
  deriving DecidableEq, Repr

def Operation.removes : Operation → Bool
  | .deleteWorkflows _ | .garbageCollectWorkflows _ _ => true
  | _ => false

def step (t : StatusTable) : Operation → Option StatusTable
  | .insertWorkflowStatus appName i =>
    if i.WellFormed then (t.insertWorkflowStatus (i.row appName)).toOption else none
  | .forkWorkflows appName i now => t.forkWorkflows appName i now
  | .dequeueWorkflows c ids now => some (t.claim c ids now)
  | .suspendWorkflowToDelayed id delayUntil now =>
    some (t.suspendWorkflowToDelayed id delayUntil now)
  | .transitionDelayedWorkflows appName now => some (t.transitionDelayedWorkflows appName now)
  | .debounceDelayedWorkflow appName i now => some (t.debounceDelayedWorkflow appName i now)
  | .setWorkflowDelay id delayUntil now => some (t.setWorkflowDelay id delayUntil now)
  | .wake ids now => some (t.wake ids now)
  | .updateWorkflowOutcome id failed output error now =>
    some (t.updateWorkflowOutcome id failed output error now)
  | .cancelWorkflows ids now => some (t.cancelWorkflows ids now)
  | .deadLetterWorkflows ids minAttempts now => some (t.deadLetterWorkflows ids minAttempts now)
  | .reenqueueForRecovery appName executorIDs appVersion now =>
    some (t.reenqueueForRecovery appName executorIDs appVersion now)
  | .resumeWorkflows ids queueName now => some (t.resumeWorkflows ids queueName now)
  | .renameApplication oldName newName adoptUnclaimedRows =>
    some (t.renameApplication oldName newName adoptUnclaimedRows)
  | .deleteWorkflows ids => some (t.deleteWorkflows ids)
  | .garbageCollectWorkflows appName i => (t.garbageCollectWorkflows appName i).toOption

section Cases

variable {t t' : StatusTable}

theorem insertWorkflowStatus_cases {appName : String} {i : InsertWorkflowStatusInput}
    (h : step t (.insertWorkflowStatus appName i) = some t') :
    i.WellFormed ∧ t' = t.upsert (·.reinsert (i.row appName))
      (WorkflowRow.workflowID_reinsert (i.row appName)) (i.row appName) := by
  simp only [step] at h
  split_ifs at h with hi
  unfold StatusTable.insertWorkflowStatus at h
  split at h
  · exact ⟨hi, (Option.some.inj h).symm⟩
  · cases h

theorem forkWorkflows_cases {appName : String} {i : ForkWorkflowsInput} {now : Int}
    (h : step t (.forkWorkflows appName i now) = some t') :
    (∀ r ∈ t.rows, r ∈ t'.rows) ∧ ∀ r ∈ t'.rows, r ∈ t.rows ∨
      ∃ original forkedID, r = i.row appName now original forkedID := by
  simp only [step, StatusTable.forkWorkflows] at h
  split_ifs at h
  obtain ⟨rows, hrows, h⟩ := Option.bind_eq_some_iff.1 h
  obtain ⟨hold, hnew⟩ := StatusTable.insertAll_cases h
  refine ⟨hold, fun r hr => (hnew r hr).imp_right fun hr => ?_⟩
  obtain ⟨-, original, forkedID, -, hrow⟩ := StatusTable.exists_original hrows hr
  exact ⟨original, forkedID, hrow⟩

theorem garbageCollectWorkflows_cases {appName : String} {i : GarbageCollectInput}
    (h : step t (.garbageCollectWorkflows appName i) = some t') :
    ∃ p : WorkflowRow → Bool, t' = t.delete p ∧ ∀ r, p r = true → r.completedAt.isSome = true := by
  cases hgc : t.garbageCollectWorkflows appName i with
  | error err => simp [step, hgc, Except.toOption] at h
  | ok collected =>
    obtain rfl : collected = t' := by simpa [step, hgc, Except.toOption] using h
    rw [StatusTable.eq_collectBefore hgc]
    exact t.collectBefore_eq_delete appName i.batchSize (t.gcCutoff appName i)

def Operation.onRow : Operation → WorkflowRow → WorkflowRow
  | .insertWorkflowStatus appName i, r =>
    if r.workflowID = i.workflowID then r.reinsert (i.row appName) else r
  | .dequeueWorkflows c ids now, r => if StatusTable.claimTakes c ids r then r.claim c now else r
  | .suspendWorkflowToDelayed id delayUntil now, r =>
    if r.workflowID = id && r.status = .pending then r.suspendToDelayed delayUntil now else r
  | .transitionDelayedWorkflows appName now, r =>
    if r.delayExpired now && r.ownedBy appName then r.promote now else r
  | .debounceDelayedWorkflow appName i now, r =>
    if StatusTable.debounceable i appName r then
      r.debounce appName i.delayUntil i.inputs i.serialization now
    else r
  | .setWorkflowDelay id delayUntil now, r =>
    if r.workflowID = id && r.status = .delayed then r.setDelay delayUntil now else r
  | .wake ids now, r => if r.workflowID ∈ ids && r.status = .delayed then r.wake now else r
  | .updateWorkflowOutcome id failed output error now, r =>
    if r.workflowID = id && r.status = .pending then
      r.recordOutcome (if failed then .error else .success) output error now
    else r
  | .cancelWorkflows ids now, r => if r.workflowID ∈ ids && r.cancellable then r.cancel now else r
  | .deadLetterWorkflows ids minAttempts now, r =>
    if r.workflowID ∈ ids && Db.deadLetterable minAttempts r then r.deadLetter now else r
  | .reenqueueForRecovery appName executorIDs appVersion now, r =>
    if StatusTable.recoverable appName executorIDs appVersion r then r.reenqueue internalQueueName now
    else r
  | .resumeWorkflows ids queueName now, r =>
    if r.workflowID ∈ ids && r.resumable then r.resume queueName now else r
  | .renameApplication oldName newName adoptUnclaimedRows, r =>
    if r.renameSource oldName adoptUnclaimedRows then r.rename newName else r
  | .forkWorkflows _ _ _, r | .deleteWorkflows _, r | .garbageCollectWorkflows _ _, r => r

def Operation.Makes : Operation → WorkflowRow → Prop
  | .insertWorkflowStatus appName i, r => i.WellFormed ∧ r = i.row appName
  | .forkWorkflows appName i now, r => ∃ original forkedID, r = i.row appName now original forkedID
  | _, _ => False

/-- **What an operation does to one row.** A row that is there afterwards is what the operation makes of
the row that was there before, or is new. -/
theorem find?_step {op : Operation} {id : String} {r' : WorkflowRow} (h : step t op = some t')
    (hr' : t'.find? id = some r') :
    (∃ r, t.find? id = some r ∧ r' = op.onRow r) ∨ t.find? id = none ∧ op.Makes r' := by
  have hupdate : ∀ {p : WorkflowRow → Bool} {f : WorkflowRow → WorkflowRow}
      {hf : ∀ r, (f r).workflowID = r.workflowID}, (t.update p f hf).find? id = some r' →
      ∃ r, t.find? id = some r ∧ r' = if p r then f r else r := by
    intro p f hf hr'
    rw [Table.find?_update, Option.map_eq_some_iff] at hr'
    obtain ⟨r, hr, rfl⟩ := hr'
    exact ⟨r, hr, rfl⟩
  have hdelete : ∀ {p : WorkflowRow → Bool}, (t.delete p).find? id = some r' →
      ∃ r, t.find? id = some r ∧ r' = r := by
    intro p hr'
    rw [Table.find?_delete, Option.filter_eq_some_iff] at hr'
    exact ⟨r', hr'.1, rfl⟩
  cases op with
  | insertWorkflowStatus appName i =>
    obtain ⟨hi, rfl⟩ := insertWorkflowStatus_cases h
    rw [Table.find?_upsert] at hr'
    cases hfind : t.find? id with
    | none =>
      split_ifs at hr' with hid
      · rw [hfind] at hr'
        exact .inr ⟨rfl, hi, (Option.some.inj hr').symm⟩
      · rw [hfind] at hr'
        cases hr'
    | some r =>
      refine .inl ⟨r, rfl, ?_⟩
      have hkey : r.workflowID = id := Table.key_of_find? hfind
      rw [hfind] at hr'
      simp only [Operation.onRow, hkey]
      split_ifs at hr' ⊢ with hid hid' hid'
      · exact (Option.some.inj hr').symm
      · exact (hid' hid.symm).elim
      · exact (hid hid'.symm).elim
      · exact (Option.some.inj hr').symm
  | forkWorkflows appName i now =>
    obtain ⟨hold, hnew⟩ := forkWorkflows_cases h
    cases hfind : t.find? id with
    | some r =>
      have hsame := Table.find?_of_mem (hold r (Table.mem_of_find? hfind))
      rw [Table.key_of_find? hfind, hr'] at hsame
      exact .inl ⟨r, rfl, Option.some.inj hsame⟩
    | none =>
      rcases hnew r' (Table.mem_of_find? hr') with hr | hmade
      · exact (Table.find?_eq_none.1 hfind r' hr (Table.key_of_find? hr')).elim
      · exact .inr ⟨rfl, hmade⟩
  | deleteWorkflows ids =>
    cases h
    exact .inl (hdelete hr')
  | garbageCollectWorkflows appName i =>
    obtain ⟨p, rfl, -⟩ := garbageCollectWorkflows_cases h
    exact .inl (hdelete hr')
  | _ =>
    cases h
    exact .inl (hupdate hr')

/-- A row that an operation does not remove is afterwards what the operation makes of it. -/
theorem find?_step_of_find? {op : Operation} {id : String} {r : WorkflowRow} (h : step t op = some t')
    (hop : op.removes = false) (hr : t.find? id = some r) : t'.find? id = some (op.onRow r) := by
  have hkey : r.workflowID = id := Table.key_of_find? hr
  cases op with
  | insertWorkflowStatus appName i =>
    obtain ⟨hi, rfl⟩ := insertWorkflowStatus_cases h
    rw [Table.find?_upsert, hr]
    simp only [Operation.onRow, hkey, eq_comm (a := id)]
    exact (apply_ite some _ _ _).symm
  | forkWorkflows appName i now =>
    obtain ⟨hold, -⟩ := forkWorkflows_cases h
    rw [← hkey]
    exact Table.find?_of_mem (hold r (Table.mem_of_find? hr))
  | deleteWorkflows ids => cases hop
  | garbageCollectWorkflows appName i => cases hop
  | _ =>
    cases h
    exact (Table.find?_update t _ _ _ id).trans (by rw [hr]; rfl)

end Cases

end Lifecycle

end Dbos
