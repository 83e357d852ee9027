import DbosTransact.Lib.Transition
import DbosTransact.SysDb.Status
import Mathlib.Logic.Function.Basic

/-!
# The executions of one workflow

One workflow row and all the runs that executors start for it. A run is a dispatch by the queue runner
(`startDequeuedWorkflows`) followed by the goroutine of `executeWorkflow`; each of its steps is one
statement, or one action on the executor's map of active workflows or on the run's context. The environment
cancels, resumes, recovers, wakes up, promotes and claims the row. The durable cancel of a run is registered
with `context.AfterFunc`: it fires at some moment after the context is done, unless `stop` comes first.

`claims` numbers the claims of the row, and `resumedAt` is the number of those before the last
`ResumeWorkflows` that took effect. There is no crash, shutdown or database error, and the workflow is
registered with its executors.
-/

namespace Dbos.Execution

open Relational Lts

/-- The classes of errors that `executeWorkflow` tells apart. -/
inductive ErrorKind
  /-- `errors.Is(err, ErrConflictingWorkflowID)` -/
  | conflict
  /-- `isCancellationError(err)` -/
  | cancellation
  | other
  deriving DecidableEq, Repr

/-- What the workflow function returned: an encoded output and, if it failed, an error. -/
inductive Result
  | success (output : Option String)
  | error (kind : ErrorKind) (output : Option String) (message : String)
  deriving DecidableEq, Repr

/-- The status, output and error that `executeWorkflow` records for a result. -/
def Result.status : Result → Status
  | .success _ => .success
  | .error _ _ _ => .error

@[inherit_doc Result.status]
def Result.output : Result → Option String
  | .success output | .error _ output _ => output

@[inherit_doc Result.status]
def Result.errorText : Result → String
  | .success _ => ""
  | .error _ _ message => message

inductive Phase
  /-- claimed; the queue runner has not read the status -/
  | dispatched
  /-- too many attempts, as read: about to be dead-lettered -/
  | deadLettering (attempts : Nat)
  /-- the goroutine is about to enter the workflow in the map of active workflows -/
  | started
  | running
  /-- the suspension is committed, the stack unwinds -/
  | suspended
  | unwinding
  | returned (result : Result)
  /-- the durable cancel had fired: waiting for it to complete -/
  | awaitingCancel (result : Result)
  /-- the durable cancel is stopped; the context has not been looked at -/
  | stopped (result : Result)
  | cancellingInline (result : Result)
  /-- the durable cancel has been made, the active entry is still there -/
  | cancelled
  | encoding (result : Result)
  | recording (result : Result)
  | parked
  | finished
  deriving DecidableEq, Repr

/-- The durable cancel which `executeWorkflow` registers with `context.AfterFunc`. -/
inductive CancelFunc
  | unregistered
  | armed
  | fired
  | completed
  | stopped
  deriving DecidableEq, Repr

/-- A run: `holds` says that the active entry on its executor is its own, `readCancelled` that one
of its operations has read the status `CANCELLED`. -/
structure Run where
  executorID : String
  claim : Nat
  phase : Phase := .dispatched
  holds : Bool := false
  contextDone : Bool := false
  cancelFunc : CancelFunc := .unregistered
  readCancelled : Bool := false
  deriving DecidableEq, Repr

/-! ### The statements on the row -/

/-- `CancelWorkflows`, on this row. -/
def cancelRow (now : Int) (row : WorkflowRow) : WorkflowRow :=
  if row.cancellable then row.cancel now else row

/-- `UpdateWorkflowOutcome`, on this row. -/
def recordRow (result : Result) (now : Int) (row : WorkflowRow) : WorkflowRow :=
  if row.status = .pending then
    row.recordOutcome result.status result.output (some result.errorText) now
  else row

/-- `DeadLetterWorkflows`, on this row. -/
def deadLetterRow (minAttempts : Nat) (now : Int) (row : WorkflowRow) : WorkflowRow :=
  if row.status = .pending ∧ minAttempts ≤ row.recoveryAttempts then row.deadLetter now else row

/-- `refreshExecutorID`, on this row: whoever records a step becomes the executor of the row. -/
def refreshRow (executorID : String) (row : WorkflowRow) : WorkflowRow :=
  if executorID = "" then row else { row with executorID := some executorID }

/-- `ResumeWorkflows`, on this row. -/
def resumeRow (queue : String) (now : Int) (row : WorkflowRow) : WorkflowRow :=
  if row.resumable then row.resume queue now else row

/-- `deadLetterRow` is what `DeadLetterWorkflows` does to the row of a workflow it addresses. -/
theorem find?_deadLetterWorkflows (db : Db) {ids : List String} {id : String} (hid : id ∈ ids)
    (minAttempts : Nat) (now : Int) :
    (db.deadLetterWorkflows ids minAttempts now).status.find? id =
      (db.status.find? id).map (deadLetterRow minAttempts now) := by
  cases h : db.status.find? id with
  | none => simp [Db.deadLetterWorkflows, h]
  | some r =>
    have hkey : r.workflowID = id := Table.key_of_find? h
    simp [Db.deadLetterWorkflows, Db.deadLetterable, h, hkey, hid, deadLetterRow]

/-- `recordRow` is what the guarded `UPDATE` of `UpdateWorkflowOutcome` does to the row. -/
theorem find?_outcome (db : Db) (id : String) (result : Result) (now : Int) :
    (if db.statusOf id = some .pending then
        Write.apply (.outcome id result.status result.output (some result.errorText) now) db
      else db).status.find? id = (db.status.find? id).map (recordRow result now) := by
  cases h : db.status.find? id with
  | none => simp [Db.statusOf, h]
  | some r =>
    have hkey : r.workflowID = id := Table.key_of_find? h
    by_cases hst : r.status = .pending
    · simp [Write.apply, Db.statusOf, h, hkey, hst, recordRow]
    · simp [Db.statusOf, h, hst, recordRow]

/-! ### The steps of a run -/

/-- The steps of a run, with what they find out: clock readings, the delay of a suspension, the
result of the function, whether the result can be encoded. -/
inductive RunAction
  | readStatus
  | deadLetter (now : Int)
  | loadOrStore
  | contextDone
  | fireCancel
  | durableCancel (now : Int)
  | readCancelled
  /-- a step of the function is recorded -/
  | checkpoint
  | suspend (delayUntil now : Int)
  | return (result : Result)
  | stopSuspended
  | unwind
  | parkConflict
  | stop
  | cancelCompleted
  | check
  | cancelInline (now : Int)
  | releaseCancelled
  | encode (ok : Bool)
  | record (now : Int)
  | outcomeVisible
  deriving DecidableEq, Repr

/-- `stop` of the registered function: nothing to stop once it has fired. -/
def CancelFunc.stop : CancelFunc → CancelFunc
  | .unregistered => .unregistered
  | .armed => .stopped
  | .fired => .fired
  | .completed => .completed
  | .stopped => .stopped

/-- One step of a run on the row; `active` says that the executor has an active entry for the
workflow. `maxRetries` is the registered retry limit. -/
def runStep (maxRetries : Nat) (row : WorkflowRow) (active : Bool) (r : Run) :
    RunAction → Option (WorkflowRow × Run)
  | .readStatus =>
    if r.phase = .dispatched then
      if 0 < maxRetries ∧ maxRetries + 1 < row.recoveryAttempts then
        some (row, { r with phase := .deadLettering row.recoveryAttempts })
      else if row.status ≠ .pending then some (row, { r with phase := .finished })
      else some (row, { r with phase := .started, cancelFunc := .armed })
    else none
  | .deadLetter now =>
    match r.phase with
    | .deadLettering attempts => some (deadLetterRow attempts now row, { r with phase := .finished })
    | _ => none
  | .loadOrStore =>
    if r.phase = .started then
      -- lost the start race: the holder of the entry is left to it
      if active then some (row, { r with phase := .parked, cancelFunc := r.cancelFunc.stop })
      else some (row, { r with phase := .running, holds := true })
    else none
  | .contextDone =>
    -- there is a context from `executeWorkflow` on
    if r.cancelFunc ≠ .unregistered ∧ r.contextDone = false then
      some (row, { r with contextDone := true })
    else none
  | .fireCancel =>
    if r.contextDone = true ∧ r.cancelFunc = .armed then some (row, { r with cancelFunc := .fired })
    else none
  | .durableCancel now =>
    if r.cancelFunc = .fired then some (cancelRow now row, { r with cancelFunc := .completed })
    else none
  | .readCancelled =>
    if r.phase = .running ∧ row.status = .cancelled then
      some (row, { r with readCancelled := true })
    else none
  | .checkpoint => if r.phase = .running then some (refreshRow r.executorID row, r) else none
  | .suspend delayUntil now =>
    if r.phase = .running ∧ row.status = .pending then
      some (row.suspendToDelayed delayUntil now, { r with phase := .suspended })
    else none
  | .return result =>
    if r.phase = .running then some (row, { r with phase := .returned result }) else none
  | .stopSuspended =>
    -- a durable cancel which has fired is waited for
    if r.phase = .suspended ∧ r.cancelFunc ≠ .fired then
      some (row, { r with phase := .unwinding, cancelFunc := r.cancelFunc.stop })
    else none
  | .unwind =>
    if r.phase = .unwinding then some (row, { r with phase := .finished, holds := false })
    else none
  | .parkConflict =>
    match r.phase with
    | .returned (.error .conflict _ _) =>
      -- the deferred removal of the active entry waits for the park to end
      some (row, { r with phase := .parked, cancelFunc := r.cancelFunc.stop })
    | _ => none
  | .stop =>
    match r.phase with
    | .returned (.error .conflict _ _) => none
    | .returned result =>
      if r.cancelFunc = .armed then
        some (row, { r with phase := .stopped result, cancelFunc := .stopped })
      else some (row, { r with phase := .awaitingCancel result })
    | _ => none
  | .cancelCompleted =>
    match r.phase with
    | .awaitingCancel _ =>
      if r.cancelFunc = .completed then some (row, { r with phase := .cancelled }) else none
    | _ => none
  | .check =>
    match r.phase with
    | .stopped result =>
      match r.contextDone, result with
      | true, .error .cancellation _ _ => some (row, { r with phase := .cancellingInline result })
      | _, _ => some (row, { r with phase := .encoding result })
    | _ => none
  | .cancelInline now =>
    match r.phase with
    | .cancellingInline _ =>
      some (cancelRow now row, { r with phase := .cancelled, cancelFunc := .completed })
    | _ => none
  | .releaseCancelled =>
    if r.phase = .cancelled then some (row, { r with phase := .parked, holds := false }) else none
  | .encode ok =>
    match r.phase with
    | .encoding result =>
      if ok then some (row, { r with phase := .recording result, holds := false })
      else some (row, { r with phase := .finished, holds := false })
    | _ => none
  | .record now =>
    match r.phase with
    | .recording result =>
      some (recordRow result now row,
        { r with phase := if row.status = .pending then .finished else .parked })
    | _ => none
  | .outcomeVisible =>
    if r.phase = .parked ∧ row.status.isTerminal then
      some (row, { r with phase := .finished, holds := false })
    else none

@[simp] theorem status_refreshRow (executorID : String) (row : WorkflowRow) :
    (refreshRow executorID row).status = row.status := by
  unfold refreshRow
  split_ifs <;> rfl

theorem runStep_row_cases {maxRetries : Nat} {row row' : WorkflowRow} {active : Bool} {r r' : Run}
    {a : RunAction} (h : runStep maxRetries row active r a = some (row', r')) :
    row' = row ∨
    (∃ now, (a = .durableCancel now ∨ a = .cancelInline now) ∧ row' = cancelRow now row) ∨
    (∃ result now, a = .record now ∧ r.phase = .recording result ∧
      row' = recordRow result now row) ∨
    (∃ delayUntil now, a = .suspend delayUntil now ∧ row.status = .pending ∧
      row' = row.suspendToDelayed delayUntil now) ∨
    (∃ attempts now, a = .deadLetter now ∧ r.phase = .deadLettering attempts ∧
      row' = deadLetterRow attempts now row) ∨
    a = .checkpoint ∧ r.phase = .running ∧ row' = refreshRow r.executorID row := by
  cases a with
  | durableCancel now =>
    simp only [runStep] at h
    split_ifs at h
    cases h
    exact Or.inr (Or.inl ⟨now, Or.inl rfl, rfl⟩)
  | cancelInline now =>
    simp only [runStep] at h
    split at h <;> cases h
    exact Or.inr (Or.inl ⟨now, Or.inr rfl, rfl⟩)
  | record now =>
    simp only [runStep] at h
    split at h <;> cases h
    rename_i result hphase
    exact Or.inr (Or.inr (Or.inl ⟨result, now, rfl, hphase, rfl⟩))
  | suspend delayUntil now =>
    simp only [runStep] at h
    split_ifs at h with hg
    cases h
    exact Or.inr (Or.inr (Or.inr (Or.inl ⟨delayUntil, now, rfl, hg.2, rfl⟩)))
  | deadLetter now =>
    simp only [runStep] at h
    split at h <;> cases h
    rename_i attempts hphase
    exact Or.inr (Or.inr (Or.inr (Or.inr (Or.inl ⟨attempts, now, rfl, hphase, rfl⟩))))
  | checkpoint =>
    simp only [runStep] at h
    split_ifs at h with hphase
    cases h
    exact Or.inr (Or.inr (Or.inr (Or.inr (Or.inr ⟨rfl, hphase, rfl⟩))))
  | _ =>
    -- the other steps do not touch the database
    simp only [runStep] at h
    repeat' split at h
    all_goals cases h <;> exact Or.inl rfl

theorem runStep_identity {maxRetries : Nat} {row row' : WorkflowRow} {active : Bool} {r r' : Run}
    {a : RunAction} (h : runStep maxRetries row active r a = some (row', r')) :
    r'.executorID = r.executorID ∧ r'.claim = r.claim := by
  cases a <;> simp only [runStep] at h <;> repeat' split at h
  all_goals cases h <;> exact ⟨rfl, rfl⟩

/-! ### The workflow with its runs -/

/-- The row and the runs `0, …, count - 1`, in the order in which they were started. -/
structure State where
  row : WorkflowRow
  runs : Nat → Run
  count : Nat
  claims : Nat
  resumedAt : Nat

inductive Action
  | run (i : Nat) (a : RunAction)
  | cancel (now : Int)
  | resume (queue : String) (now : Int)
  | recover (recoveryQueue : String) (now : Int)
  | wake (now : Int)
  | promote (now : Int)
  | dequeue (claim : WorkflowRow.Claim) (now : Int)
  deriving DecidableEq, Repr

def State.active (s : State) (executorID : String) : Bool :=
  (List.range s.count).any fun i => (s.runs i).executorID = executorID && (s.runs i).holds

/-- A step of the workflow: `maxRetries` is the retry limit it is registered with. -/
def step (maxRetries : Nat) (s : State) : Action → Option State
  | .run i a =>
    if i < s.count then
      (runStep maxRetries s.row (s.active (s.runs i).executorID) (s.runs i) a).map fun p =>
        { s with row := p.1, runs := Function.update s.runs i p.2 }
    else none
  | .cancel now => some { s with row := cancelRow now s.row }
  | .resume queue now =>
    some { s with
      row := resumeRow queue now s.row
      resumedAt := if s.row.resumable then s.claims else s.resumedAt }
  | .recover recoveryQueue now =>
    if s.row.status = .pending then some { s with row := s.row.reenqueue recoveryQueue now } else none
  | .wake now =>
    if s.row.status = .delayed then some { s with row := s.row.wake now } else none
  | .promote now =>
    if s.row.delayExpired now then some { s with row := s.row.promote now } else none
  | .dequeue c now =>
    if s.row.status = .enqueued ∧ s.row.ownedBy c.appName then
      some { s with
        row := s.row.claim c now
        runs := Function.update s.runs s.count { executorID := c.executorID, claim := s.claims + 1 }
        count := s.count + 1
        claims := s.claims + 1 }
    else none

/-- The workflow has just been enqueued, or `RunWorkflow` has just inserted it as `PENDING` for its
own executor, whose goroutine is about to start. -/
def Init (s : State) : Prop :=
  s.resumedAt = 0 ∧
    (s.row.status = .enqueued ∧ s.count = 0 ∧ s.claims = 0 ∨
      s.row.status = .pending ∧ s.count = 1 ∧ s.claims = 1 ∧
        ∃ executorID, s.row.executorID = some executorID ∧
          s.runs 0 = { executorID, claim := 1, phase := .started, cancelFunc := .armed })

def system (maxRetries : Nat) : System State Action where
  init := Init
  step := step maxRetries

end Dbos.Execution
