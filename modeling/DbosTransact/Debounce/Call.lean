import DbosTransact.SysDb.StatusTable

/-!
# A call of `Debounce`

A call loops over two transactions. The bounce extends the debounced workflow that holds the
deduplication ID, or reports who holds it; `classifyBounce` says what follows. If nobody does, the second
transaction enqueues a workflow, and a conflict on the ID leads back to the bounce. `bounce` and `enqueue`
give the table and the phase after a transaction.
-/

namespace Dbos

open Relational

namespace Debounce

/-- `debouncerParams`, with the timeout in milliseconds. -/
structure Debouncer where
  workflowName : String
  configName : String := ""
  queueName : String := ""
  timeout : ℕ := 0
  deriving DecidableEq, Repr

namespace Debouncer

def dedupPrefix (d : Debouncer) : String :=
  if d.configName = "" then d.workflowName else instanceQualifiedName d.workflowName d.configName

def queue (d : Debouncer) : String := if d.queueName = "" then internalQueueName else d.queueName

def deduplicationID (d : Debouncer) (key : String) : String := d.dedupPrefix ++ "-" ++ key

end Debouncer

/-- A call, with its input encoded; a negative delay is refused before any transaction. -/
structure Call where
  debouncer : Debouncer
  key : String
  delay : ℕ
  inputs : Option String
  serialization : String := ""
  applicationVersion : String := ""
  authenticatedUser : String := ""
  workflowTimeout : Option Int := none
  deriving DecidableEq, Repr

namespace Call

variable (c : Call)

def deduplicationID : String := c.debouncer.deduplicationID c.key

def queueName : String := c.debouncer.queue

def bounceInput (calledAt : Int) : DebounceInput where
  workflowName := c.debouncer.workflowName
  queueName := c.queueName
  deduplicationID := c.deduplicationID
  delayUntil := calledAt + c.delay
  inputs := c.inputs
  serialization := c.serialization

/-- The delay of a new workflow, capped at the timeout of the debouncer. -/
def delayDuration : ℕ :=
  if 0 < c.debouncer.timeout ∧ c.debouncer.timeout < c.delay then c.debouncer.timeout else c.delay

end Call

structure Clock where
  deadlineFrom : Int
  delayFrom : Int
  createdAt : Int
  updatedAt : Int
  deriving DecidableEq, Repr

def Call.enqueueInput (c : Call) (workflowID : String) (clock : Clock) : InsertWorkflowStatusInput where
  workflowID := workflowID
  status := .delayed
  name := c.debouncer.workflowName
  configName := c.debouncer.configName
  queueName := c.queueName
  authenticatedUser := c.authenticatedUser
  applicationVersion := c.applicationVersion
  createdAt := clock.createdAt
  updatedAt := clock.updatedAt
  timeout := c.workflowTimeout
  inputs := c.inputs
  deduplicationID := c.deduplicationID
  serialization := c.serialization
  delayUntil := some (clock.delayFrom + c.delayDuration)
  debounceDeadline := if 0 < c.debouncer.timeout then some (clock.deadlineFrom + c.debouncer.timeout) else none
  isDebounced := true

/-! ### The bounce -/

structure Holder where
  workflowID : String
  isDebounced : Bool
  workflowName : String
  applicationName : Option String
  deriving DecidableEq, Repr

structure DebounceResult where
  bouncedWorkflowID : Option String := none
  holder : Option Holder := none
  deriving DecidableEq, Repr

inductive BounceAction
  | bounceReturn
  | bounceEnqueue
  | bounceRaise
  | bounceRetry
  deriving DecidableEq, Repr

def classifyBounce (result : DebounceResult) (workflowName appName : String) : BounceAction :=
  match result.bouncedWorkflowID, result.holder with
  | some _, _ => .bounceReturn
  | none, none => .bounceEnqueue
  | none, some h =>
    if !h.isDebounced then .bounceRaise
    else if h.workflowName ≠ workflowName then .bounceRaise
    else if h.applicationName.any (· ≠ appName) then .bounceRaise
    else .bounceRetry

def holds (queueName deduplicationID : String) (r : WorkflowRow) : Bool :=
  r.queueName = some queueName && r.deduplicationID = some deduplicationID

def holderOf (r : WorkflowRow) : Holder := ⟨r.workflowID, r.isDebounced, r.name, r.applicationName⟩

/-- What `debounceDelayedWorkflowInternal` returns. -/
def debounceResult (t : StatusTable) (appName : String) (i : DebounceInput) : DebounceResult :=
  match t.rows.find? (StatusTable.debounceable i appName) with
  | some r => { bouncedWorkflowID := some r.workflowID }
  | none => { holder := (t.rows.find? (holds i.queueName i.deduplicationID)).map holderOf }

/-! ### The two transactions -/

inductive Phase
  | bouncing
  | enqueueing
  | returned (result : Except GoError String)

def Phase.handle? : Phase → Option String
  | .returned (.ok id) => some id
  | _ => none

def Phase.error? : Phase → Option GoError
  | .returned (.error e) => some e
  | _ => none

def afterBounce (c : Call) (appName : String) (result : DebounceResult) : Phase :=
  match classifyBounce result c.debouncer.workflowName appName with
  | .bounceReturn => .returned (.ok (result.bouncedWorkflowID.getD ""))
  | .bounceEnqueue => .enqueueing
  | .bounceRaise => .returned (.error
      (newQueueDeduplicatedError ((result.holder.map (·.workflowID)).getD "") c.queueName c.deduplicationID))
  | .bounceRetry => .bouncing

def bounce (c : Call) (appName : String) (calledAt now : Int) (t : StatusTable) : StatusTable × Phase :=
  (t.debounceDelayedWorkflow appName (c.bounceInput calledAt) now,
    afterBounce c appName (debounceResult t appName (c.bounceInput calledAt)))

/-- What follows a failed insertion: a conflict on the deduplication ID leads back to the bounce. -/
def afterError (e : GoError) : Phase :=
  if e.isCode .queueDeduplicated then .bouncing else .returned (.error e)

/-- The transaction of `Enqueue`. -/
def enqueue (c : Call) (appName workflowID : String) (clock : Clock) (t : StatusTable) :
    StatusTable × Phase :=
  if c.debouncer.workflowName = "" then
    (t, .returned (.error (newInvalidOptionError "workflow name is required")))
  else
    match t.insertWorkflowStatus ((c.enqueueInput workflowID clock).row appName) with
    | .ok t' => (t', .returned (.ok workflowID))
    | .error e => (t, afterError e)

/-- The unique index on `(queue_name, deduplication_id)`. -/
def SlotUnique (t : StatusTable) : Prop :=
  ∀ r ∈ t.rows, ∀ r' ∈ t.rows, r.queueName.isSome = true → r.deduplicationID.isSome = true →
    r.queueName = r'.queueName → r.deduplicationID = r'.deduplicationID → r = r'

instance (t : StatusTable) : Decidable (SlotUnique t) :=
  inferInstanceAs (Decidable (∀ _ ∈ t.rows, _))

theorem SlotUnique.eq {t : StatusTable} (h : SlotUnique t) {r r' : WorkflowRow} (hr : r ∈ t.rows)
    (hr' : r' ∈ t.rows) {queueName deduplicationID : String}
    (hholds : holds queueName deduplicationID r = true)
    (hholds' : holds queueName deduplicationID r' = true) : r = r' := by
  simp only [holds, Bool.and_eq_true, decide_eq_true_eq] at hholds hholds'
  refine h r hr r' hr' ?_ ?_ (hholds.1.trans hholds'.1.symm) (hholds.2.trans hholds'.2.symm)
  · rw [hholds.1]
    rfl
  · rw [hholds.2]
    rfl

theorem SlotUnique.update {t : StatusTable} (h : SlotUnique t) {p : WorkflowRow → Bool}
    {f : WorkflowRow → WorkflowRow} {hf : ∀ r, (f r).workflowID = r.workflowID}
    (hqueue : ∀ r, (f r).queueName = r.queueName)
    (hid : ∀ r, (f r).deduplicationID = r.deduplicationID) : SlotUnique (t.update p f hf) := by
  intro r hr r' hr' hq hd hqq hdd
  obtain ⟨x, hx, rfl⟩ := Table.mem_update.1 hr
  obtain ⟨x', hx', rfl⟩ := Table.mem_update.1 hr'
  have hq' : ∀ y, (if p y then f y else y).queueName = y.queueName := by
    intro y
    split_ifs
    · exact hqueue y
    · rfl
  have hd' : ∀ y, (if p y then f y else y).deduplicationID = y.deduplicationID := by
    intro y
    split_ifs
    · exact hid y
    · rfl
  rw [hq', hq'] at hqq
  rw [hd', hd'] at hdd
  rw [hq'] at hq
  rw [hd'] at hd
  rw [h x hx x' hx' hq hd hqq hdd]

theorem SlotUnique.insert {t : StatusTable} (h : SlotUnique t) {r : WorkflowRow} {queueName : String}
    {deduplicationID : String} (hr : r.queueName = some queueName ∧ r.deduplicationID = some deduplicationID)
    (hfree : t.rows.find? (holds queueName deduplicationID) = none) : SlotUnique (t.insert r) := by
  have hnot : ∀ x ∈ t.rows, r.queueName = x.queueName → r.deduplicationID = x.deduplicationID → False := by
    intro x hx hq hd
    refine List.find?_eq_none.1 hfree x hx ?_
    simp [holds, ← hq, ← hd, hr.1, hr.2]
  intro x hx x' hx' hq hd hqq hdd
  rcases Table.mem_of_mem_insert hx with hold | hnew <;>
    rcases Table.mem_of_mem_insert hx' with hold' | hnew'
  · exact h x hold x' hold' hq hd hqq hdd
  · subst hnew'
    exact (hnot x hold hqq.symm hdd.symm).elim
  · subst hnew
    exact (hnot x' hold' hqq hdd).elim
  · exact hnew.trans hnew'.symm

theorem holds_of_debounceable {i : DebounceInput} {appName : String} {r : WorkflowRow}
    (h : StatusTable.debounceable i appName r = true) : holds i.queueName i.deduplicationID r = true := by
  simp only [StatusTable.debounceable, holds, Bool.and_eq_true] at h ⊢
  exact ⟨h.1.1.1.1.2, h.1.1.1.2⟩

/-! ### What the transactions do -/

theorem Call.queueName_ne (c : Call) : c.queueName ≠ "" := by
  unfold Call.queueName Debouncer.queue
  split_ifs with h
  · decide
  · exact h

theorem Call.deduplicationID_ne (c : Call) : c.deduplicationID ≠ "" := by
  intro h
  have hlen := congrArg String.length h
  simp [Call.deduplicationID, Debouncer.deduplicationID] at hlen

def Call.row (c : Call) (appName workflowID : String) (clock : Clock) : WorkflowRow :=
  (c.enqueueInput workflowID clock).row appName

theorem Call.slot_row (c : Call) (appName workflowID : String) (clock : Clock) :
    (c.row appName workflowID clock).queueName = some c.queueName ∧
      (c.row appName workflowID clock).deduplicationID = some c.deduplicationID :=
  ⟨if_neg c.queueName_ne, if_neg c.deduplicationID_ne⟩

theorem slotHeld_row (t : StatusTable) (c : Call) (appName workflowID : String) (clock : Clock) :
    t.toDb.slotHeld (c.row appName workflowID clock) =
      (t.rows.find? (holds c.queueName c.deduplicationID)).isSome := by
  obtain ⟨hqueue, hid⟩ := c.slot_row appName workflowID clock
  simp only [Db.slotHeld, hqueue, hid, Db.getDeduplicatedWorkflow, Option.isSome_map]
  rfl

theorem isCode_of_exists {db : Db} {row r : WorkflowRow} {e : GoError}
    (hr : db.status.find? row.workflowID = some r) (h : db.insertWorkflowStatus row = .error e) :
    e.isCode .queueDeduplicated = false := by
  simp only [Db.insertWorkflowStatus, hr] at h
  split_ifs at h
  · cases h
    rfl
  · split at h
    · split_ifs at h
      cases h
      rfl
    · cases h

section Enqueue

variable {c : Call} {appName workflowID : String} {clock : Clock} {t : StatusTable}

theorem enqueue_of_free (hname : c.debouncer.workflowName ≠ "") (hnew : t.find? workflowID = none)
    (hfree : t.rows.find? (holds c.queueName c.deduplicationID) = none) :
    enqueue c appName workflowID clock t =
      (t.insert (c.row appName workflowID clock), .returned (.ok workflowID)) := by
  have hslot := slotHeld_row t c appName workflowID clock
  rw [hfree] at hslot
  have hnew' : t.toDb.status.find? (c.row appName workflowID clock).workflowID = none := hnew
  unfold enqueue StatusTable.insertWorkflowStatus
  rw [if_neg hname]
  simp only [Db.insertWorkflowStatus]
  rw [← Call.row, hnew', hslot]
  simp only [Option.isSome_none, Bool.false_eq_true, if_false]
  refine Prod.ext ?_ rfl
  unfold Table.upsert
  exact if_neg (by rw [show t.find? (c.row appName workflowID clock).workflowID = none from hnew]; simp)

/-- An insertion under a new ID into a slot that is held leads back to the bounce. -/
theorem enqueue_of_held (hname : c.debouncer.workflowName ≠ "") (hnew : t.find? workflowID = none)
    (hheld : (t.rows.find? (holds c.queueName c.deduplicationID)).isSome = true) :
    enqueue c appName workflowID clock t = (t, .bouncing) := by
  have hslot := slotHeld_row t c appName workflowID clock
  rw [hheld] at hslot
  have hnew' : t.toDb.status.find? (c.row appName workflowID clock).workflowID = none := hnew
  unfold enqueue StatusTable.insertWorkflowStatus
  rw [if_neg hname]
  simp only [Db.insertWorkflowStatus]
  rw [← Call.row, hnew', hslot]
  rfl

theorem enqueue_of_exists (hname : c.debouncer.workflowName ≠ "") {r : WorkflowRow}
    (hr : t.find? workflowID = some r) :
    (enqueue c appName workflowID clock t).2 = .returned (.ok workflowID) ∨
      ∃ e, (enqueue c appName workflowID clock t).2 = .returned (.error e) := by
  have hr' : t.toDb.status.find? (c.row appName workflowID clock).workflowID = some r := hr
  unfold enqueue StatusTable.insertWorkflowStatus
  rw [if_neg hname, ← Call.row]
  cases hinsert : t.toDb.insertWorkflowStatus (c.row appName workflowID clock) with
  | ok u => exact .inl rfl
  | error e => exact .inr ⟨e, by simp [afterError, isCode_of_exists hr' hinsert]⟩

end Enqueue

theorem afterBounce_of_find? {c : Call} {appName : String} {t : StatusTable} {calledAt : Int}
    {r : WorkflowRow}
    (h : t.rows.find? (StatusTable.debounceable (c.bounceInput calledAt) appName) = some r) :
    afterBounce c appName (debounceResult t appName (c.bounceInput calledAt)) =
      .returned (.ok r.workflowID) := by
  simp only [debounceResult, h, afterBounce, classifyBounce, Option.getD_some]

theorem afterBounce_of_free {c : Call} {appName : String} {t : StatusTable} {calledAt : Int}
    (h : t.rows.find? (StatusTable.debounceable (c.bounceInput calledAt) appName) = none)
    (hfree : t.rows.find? (holds c.queueName c.deduplicationID) = none) :
    afterBounce c appName (debounceResult t appName (c.bounceInput calledAt)) = .enqueueing := by
  have hholder : t.rows.find? (holds (c.bounceInput calledAt).queueName
      (c.bounceInput calledAt).deduplicationID) = none := hfree
  simp only [debounceResult, h, hholder, Option.map_none, afterBounce, classifyBounce]

theorem afterBounce_of_held {c : Call} {appName : String} {t : StatusTable} {calledAt : Int}
    {r : WorkflowRow}
    (h : t.rows.find? (StatusTable.debounceable (c.bounceInput calledAt) appName) = none)
    (hheld : t.rows.find? (holds c.queueName c.deduplicationID) = some r) :
    afterBounce c appName (debounceResult t appName (c.bounceInput calledAt)) = .bouncing ∨
      ∃ e, afterBounce c appName (debounceResult t appName (c.bounceInput calledAt)) =
        .returned (.error e) := by
  have hholder : t.rows.find? (holds (c.bounceInput calledAt).queueName
      (c.bounceInput calledAt).deduplicationID) = some r := hheld
  simp only [debounceResult, h, hholder, Option.map_some, afterBounce, classifyBounce]
  split_ifs
  · exact .inr ⟨_, rfl⟩
  · exact .inr ⟨_, rfl⟩
  · exact .inr ⟨_, rfl⟩
  · exact .inl rfl

theorem of_afterBounce_returned {c : Call} {appName id : String} {t : StatusTable} {calledAt : Int}
    (h : afterBounce c appName (debounceResult t appName (c.bounceInput calledAt)) = .returned (.ok id)) :
    ∃ r ∈ t.rows, StatusTable.debounceable (c.bounceInput calledAt) appName r = true ∧
      r.workflowID = id := by
  cases hfind : t.rows.find? (StatusTable.debounceable (c.bounceInput calledAt) appName) with
  | some r =>
    rw [afterBounce_of_find? hfind] at h
    exact ⟨r, List.mem_of_find?_eq_some hfind, List.find?_some hfind, by simpa using h⟩
  | none =>
    cases hheld : t.rows.find? (holds c.queueName c.deduplicationID) with
    | none => simp [afterBounce_of_free hfind hheld] at h
    | some r => rcases afterBounce_of_held hfind hheld with hb | ⟨e, hb⟩ <;> simp [hb] at h

/-- A bounce passes over the rows that do not hold its deduplication ID. -/
theorem debounceResult_delete {t : StatusTable} {p : WorkflowRow → Bool} {i : DebounceInput}
    (h : ∀ r ∈ t.rows, p r = true → holds i.queueName i.deduplicationID r = false) (appName : String) :
    debounceResult (t.delete p) appName i = debounceResult t appName i := by
  have hdebounceable : ∀ r ∈ t.rows, p r = true → StatusTable.debounceable i appName r = false := by
    intro r hr hp
    by_contra hd
    have hholds := holds_of_debounceable (Bool.eq_true_of_not_eq_false hd)
    rw [h r hr hp] at hholds
    cases hholds
  unfold debounceResult
  rw [Table.find?_rows_delete hdebounceable, Table.find?_rows_delete h]

end Debounce

end Dbos
