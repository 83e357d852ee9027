import DbosTransact.Execution.Run
import DbosTransact.Lib.Transition
import DbosTransact.SysDb.StatusTable

/-!
# The outcome of a run

The goroutine of `executeWorkflow` from its start to the value it sends on its outcome channel, with all
its exits. A run that does not record its outcome parks: it polls the row until somebody's outcome is there
and delivers that. Between two statements of the run any other operation on `workflow_status` may be made.
By `runStep_of_step` the steps are those of `Execution.Run`, which does not follow what is delivered.

The run is not suspended, there is no crash, shutdown or database error, and the context that the park
follows is not cancelled. The cause inside a cancellation error and the name of the serializer are left out.
-/

namespace Dbos.Delivery

open Relational Lts Lifecycle Execution

inductive Outcome
  /-- a result and, if the workflow failed, an error -/
  | value (output error : Option String)
  /-- `NewWorkflowCancelledError` -/
  | workflowCancelled
  | deadLetterQueue (maxRetries : Int)
  | nonExistentWorkflow
  /-- `failed to serialize output` -/
  | serializeOutput
  deriving DecidableEq, Repr

/-- The outcome that a run delivers when it has recorded its result. -/
def ofResult : Result → Outcome
  | .success output => .value output none
  | .error _ output message => .value output (some message)

/-- `ErrStr` of `AwaitWorkflowResult`: an empty text counts as no error. -/
def errStr (r : WorkflowRow) : Option String :=
  if r.error.getD "" = "" then none else r.error

/-- One poll of `AwaitWorkflowResult` with `failIfMissing`, on behalf of the workflow's own handle: `none` if
the row is in no terminal status. -/
def awaitWorkflowResult : Option WorkflowRow → Option Outcome
  | none => some .nonExistentWorkflow
  | some r =>
    match r.status with
    | .success | .error => some (.value r.output (errStr r))
    | .cancelled => some .workflowCancelled
    | .maxRecoveryAttemptsExceeded => some (.deadLetterQueue (r.recoveryAttempts - 2))
    | _ => none

inductive Phase
  /-- the goroutine is about to enter the workflow in the map of active workflows -/
  | started
  | running
  | returned (result : Result)
  /-- the durable cancel had fired: waiting for it to complete -/
  | awaitingCancel (result : Result)
  /-- the durable cancel is stopped; the context has not been looked at -/
  | stopped (result : Result)
  | cancellingInline (result : Result)
  /-- the durable cancel has been made, the active entry is still there -/
  | cancelled
  | encoding (result : Result)
  | recording (result : Result)
  /-- in `awaitExistingOutcome` -/
  | parked
  /-- about to send on the outcome channel -/
  | delivering (o : Outcome)
  | delivered (o : Outcome)
  deriving DecidableEq, Repr

/-- The table and the run. `deleted` says that the row has been missing since the run began. -/
structure State where
  table : StatusTable
  phase : Phase := .started
  contextDone : Bool := false
  cancelFunc : CancelFunc := .armed
  deleted : Bool := false

/-- The steps of the run, with what they find out, and those of everybody else. -/
inductive Action
  /-- `loaded`: the executor has an active entry for the workflow -/
  | loadOrStore (loaded : Bool)
  | return (result : Result)
  | contextDone
  | fireCancel
  | durableCancel (now : Int)
  | parkConflict
  | stop
  | cancelCompleted
  | check
  | cancelInline (now : Int)
  | releaseCancelled
  /-- `ok`: the encoder accepts the result -/
  | encode (ok : Bool)
  | record (now : Int)
  | await
  | deliver
  | others (op : Operation)
  deriving DecidableEq, Repr

def wellRecorded : Operation → Bool
  | .updateWorkflowOutcome _ false _ error _ => error = some ""
  | _ => true

section System

variable (id : String)

def State.row (s : State) : Option WorkflowRow := s.table.find? id

def State.write (s : State) (op : Operation) : Option State :=
  (Lifecycle.step s.table op).map fun table =>
    { s with table := table, deleted := s.deleted || (table.find? id).isNone }

/-- The `UPDATE` with which the run records its result. -/
def recording (result : Result) (now : Int) : Operation :=
  .updateWorkflowOutcome id (result.status = .error) result.output (some result.errorText) now

def step (s : State) : Action → Option State
  | .loadOrStore loaded =>
    if s.phase = .started then
      -- lost the start race: the holder of the entry is left to it
      if loaded then some { s with phase := .parked, cancelFunc := s.cancelFunc.stop }
      else some { s with phase := .running }
    else none
  | .return result => if s.phase = .running then some { s with phase := .returned result } else none
  | .contextDone =>
    if s.cancelFunc ≠ .unregistered ∧ s.contextDone = false then some { s with contextDone := true }
    else none
  | .fireCancel =>
    if s.contextDone = true ∧ s.cancelFunc = .armed then some { s with cancelFunc := .fired } else none
  | .durableCancel now =>
    if s.cancelFunc = .fired then
      ({ s with cancelFunc := .completed } : State).write id (.cancelWorkflows [id] now)
    else none
  | .parkConflict =>
    match s.phase with
    | .returned (.error .conflict _ _) =>
      some { s with phase := .parked, cancelFunc := s.cancelFunc.stop }
    | _ => none
  | .stop =>
    match s.phase with
    | .returned (.error .conflict _ _) => none
    | .returned result =>
      if s.cancelFunc = .armed then some { s with phase := .stopped result, cancelFunc := .stopped }
      else some { s with phase := .awaitingCancel result }
    | _ => none
  | .cancelCompleted =>
    match s.phase with
    | .awaitingCancel _ =>
      if s.cancelFunc = .completed then some { s with phase := .cancelled } else none
    | _ => none
  | .check =>
    match s.phase with
    | .stopped result =>
      match s.contextDone, result with
      | true, .error .cancellation _ _ => some { s with phase := .cancellingInline result }
      | _, _ => some { s with phase := .encoding result }
    | _ => none
  | .cancelInline now =>
    match s.phase with
    | .cancellingInline _ =>
      ({ s with phase := .cancelled, cancelFunc := .completed } : State).write id
        (.cancelWorkflows [id] now)
    | _ => none
  | .releaseCancelled => if s.phase = .cancelled then some { s with phase := .parked } else none
  | .encode ok =>
    match s.phase with
    | .encoding result =>
      -- the error is delivered, nothing is written
      some { s with phase := if ok then .recording result else .delivering .serializeOutput }
    | _ => none
  | .record now =>
    match s.phase with
    | .recording result =>
      let recorded := (s.row id).any (·.status = .pending)
      ({ s with phase := if recorded then .delivering (ofResult result) else .parked } : State).write id
        (recording id result now)
    | _ => none
  | .await =>
    if s.phase = .parked then
      (awaitWorkflowResult (s.row id)).map fun o => { s with phase := .delivering o }
    else none
  | .deliver =>
    match s.phase with
    | .delivering o => some { s with phase := .delivered o }
    | _ => none
  | .others op => if wellRecorded op then s.write id op else none

def system : System State Action where
  init s := (∃ r ∈ s.row id, r.status = .pending) ∧ s.phase = .started ∧ s.contextDone = false ∧
    s.cancelFunc = .armed ∧ s.deleted = false
  step := step id

end System

/-! ### Operations on the row -/

section Write

variable {id : String} {s s' : State} {op : Operation} {row : WorkflowRow}

theorem write_cases (h : s.write id op = some s') :
    ∃ table, Lifecycle.step s.table op = some table ∧ s'.table = table ∧ s'.phase = s.phase ∧
      s'.deleted = (s.deleted || (table.find? id).isNone) := by
  obtain ⟨table, htable, rfl⟩ := Option.map_eq_some_iff.1 h
  exact ⟨table, htable, rfl, rfl, rfl⟩

theorem row_write (h : s.write id op = some s') {r' : WorkflowRow} (hr' : s'.row id = some r') :
    (∃ r, s.row id = some r ∧ r' = op.onRow r) ∨ s.row id = none ∧ op.Makes r' := by
  obtain ⟨table, hstep, rfl, -, -⟩ := write_cases h
  exact find?_step hstep hr'

theorem row_of_write (h : s.write id op = some s') (hop : op.removes = false) (hr : s.row id = some row) :
    s'.row id = some (op.onRow row) := by
  obtain ⟨table, hstep, rfl⟩ := Option.map_eq_some_iff.1 h
  exact find?_step_of_find? hstep hop hr

theorem onRow_cancelWorkflows (hid : row.workflowID = id) (now : Int) :
    (Operation.cancelWorkflows [id] now).onRow row = cancelRow now row := by
  simp [Operation.onRow, cancelRow, hid]

theorem onRow_recording (hid : row.workflowID = id) (result : Result) (now : Int) :
    (recording id result now).onRow row = recordRow result now row := by
  cases result <;>
    simp [recording, Operation.onRow, recordRow, hid, Result.status, Result.output, Result.errorText]

end Write

/-! ### The run of `Execution.Run` -/

/-- The phase as `Execution.Run` has it: there a run is finished when it knows its outcome. -/
def Phase.toRun : Phase → Execution.Phase
  | .started => .started
  | .running => .running
  | .returned result => .returned result
  | .awaitingCancel result => .awaitingCancel result
  | .stopped result => .stopped result
  | .cancellingInline result => .cancellingInline result
  | .cancelled => .cancelled
  | .encoding result => .encoding result
  | .recording result => .recording result
  | .parked => .parked
  | .delivering _ | .delivered _ => .finished

/-- The action as `Execution.Run` has it. -/
def Action.toRun : Action → Option RunAction
  | .loadOrStore _ => some .loadOrStore
  | .return result => some (.return result)
  | .contextDone => some .contextDone
  | .fireCancel => some .fireCancel
  | .durableCancel now => some (.durableCancel now)
  | .parkConflict => some .parkConflict
  | .stop => some .stop
  | .cancelCompleted => some .cancelCompleted
  | .check => some .check
  | .cancelInline now => some (.cancelInline now)
  | .releaseCancelled => some .releaseCancelled
  | .encode ok => some (.encode ok)
  | .record now => some (.record now)
  | .await => some .outcomeVisible
  | .deliver | .others _ => none

structure Agrees (s : State) (r : Execution.Run) : Prop where
  phase : r.phase = s.phase.toRun
  contextDone : r.contextDone = s.contextDone
  cancelFunc : r.cancelFunc = s.cancelFunc

section Simulation

variable {maxRetries : ℕ} {id : String} {s s' : State} {row : WorkflowRow} {r : Execution.Run} {active : Bool}

/-- A run of `Execution.Run` can take the action, and is then where the step has led. -/
def Simulates (maxRetries : ℕ) (row : WorkflowRow) (active : Bool) (r : Execution.Run) (a : RunAction)
    (id : String) (s' : State) : Prop :=
  ∃ row' r', runStep maxRetries row active r a = some (row', r') ∧ s'.row id = some row' ∧ Agrees s' r'

theorem Simulates.quiet {a : RunAction} {s₁ : State} (r₁ : Execution.Run) (hr : s.row id = some row)
    (h : some s₁ = some s') (htable : s₁.table = s.table)
    (hrun : runStep maxRetries row active r a = some (row, r₁)) (hagrees : Agrees s₁ r₁) :
    Simulates maxRetries row active r a id s' := by
  cases h
  exact ⟨row, r₁, hrun, by rw [State.row, htable]; exact hr, hagrees⟩

theorem Simulates.write {a : RunAction} {s₁ : State} {op : Operation} (r₁ : Execution.Run) {row₁ : WorkflowRow}
    (h : s₁.write id op = some s') (hr : s₁.row id = some row) (hop : op.removes = false)
    (hrow : op.onRow row = row₁) (hrun : runStep maxRetries row active r a = some (row₁, r₁))
    (hagrees : Agrees s₁ r₁) : Simulates maxRetries row active r a id s' := by
  refine ⟨row₁, r₁, hrun, by rw [row_of_write h hop hr, hrow], ?_⟩
  obtain ⟨table, -, rfl⟩ := Option.map_eq_some_iff.1 h
  exact ⟨hagrees.phase, hagrees.contextDone, hagrees.cancelFunc⟩

theorem simulates_stop (hr : s.row id = some row) (hagrees : Agrees s r) (h : step id s .stop = some s') :
    Simulates maxRetries row active r .stop id s' := by
  obtain ⟨hphase, hdone, hcancel⟩ := hagrees
  simp only [step] at h
  split at h
  · cases h
  · rename_i result hconflict hreturned
    rw [hreturned, Phase.toRun] at hphase
    have hrun : runStep maxRetries row active r .stop =
        if r.cancelFunc = .armed then
          some (row, { r with phase := .stopped result, cancelFunc := .stopped })
        else some (row, { r with phase := .awaitingCancel result }) := by
      cases result with
      | success output => simp only [runStep, hphase]
      | error kind output message =>
        cases kind with
        | conflict => exact (hconflict output message rfl).elim
        | cancellation => simp only [runStep, hphase]
        | other => simp only [runStep, hphase]
    rw [← hcancel] at h
    split_ifs at h with harmed
    · refine .quiet { r with phase := .stopped result, cancelFunc := .stopped } hr h rfl ?_ ⟨rfl, hdone, rfl⟩
      rw [hrun, if_pos harmed]
    · refine .quiet { r with phase := .awaitingCancel result } hr h rfl ?_ ⟨rfl, hdone, rfl⟩
      rw [hrun, if_neg harmed]
  · cases h

theorem simulates_check (hr : s.row id = some row) (hagrees : Agrees s r) (h : step id s .check = some s') :
    Simulates maxRetries row active r .check id s' := by
  obtain ⟨hphase, hdone, hcancel⟩ := hagrees
  simp only [step] at h
  split at h
  · rename_i result hstopped
    rw [hstopped, Phase.toRun] at hphase
    split at h
    · rename_i hcontext
      rw [← hdone] at hcontext
      refine .quiet { r with phase := .cancellingInline _ } hr h rfl ?_ ⟨rfl, hdone, hcancel⟩
      simp only [runStep, hphase, hcontext]
    · rename_i result _ _ hother
      refine .quiet { r with phase := .encoding result } hr h rfl ?_ ⟨rfl, hdone, hcancel⟩
      simp only [runStep, hphase]
      split
      · rename_i hcontext
        exact (hother _ _ (hdone.symm.trans hcontext) rfl).elim
      · rfl
  · cases h

theorem simulates_record (hr : s.row id = some row) (hagrees : Agrees s r) {now : Int}
    (h : step id s (.record now) = some s') : Simulates maxRetries row active r (.record now) id s' := by
  obtain ⟨hphase, hdone, hcancel⟩ := hagrees
  simp only [step] at h
  split at h
  · rename_i result hrecording
    rw [hrecording, Phase.toRun] at hphase
    refine .write { r with phase := if row.status = .pending then .finished else .parked } h hr rfl
      (onRow_recording (Table.key_of_find? hr) result now) (by simp only [runStep, hphase]) ⟨?_, hdone, hcancel⟩
    by_cases hpending : row.status = .pending
    · simp [hr, hpending, Phase.toRun]
    · simp [hr, hpending, Phase.toRun]
  · cases h

theorem isTerminal_of_await {o : Outcome} (h : awaitWorkflowResult (some row) = some o) :
    row.status.isTerminal = true := by
  cases hst : row.status with
  | pending | enqueued | delayed =>
    simp only [awaitWorkflowResult, hst] at h
    cases h
  | success | error | cancelled | maxRecoveryAttemptsExceeded => rfl

/-- **The goroutine is that of `Execution.Run`.** While the row is there, every step of the run is one of
`runStep` on the row, in which the run ends where it knows what to deliver. -/
theorem runStep_of_step (maxRetries : ℕ) {a : Action} {a' : RunAction} (hr : s.row id = some row)
    (hagrees : Agrees s r) (ha : a.toRun = some a')
    (hactive : ∀ loaded, a = .loadOrStore loaded → active = loaded) (h : step id s a = some s') :
    Simulates maxRetries row active r a' id s' := by
  have hkey : row.workflowID = id := Table.key_of_find? hr
  obtain ⟨hphase, hdone, hcancel⟩ := hagrees
  cases a with
  | loadOrStore loaded =>
    cases ha
    obtain rfl := hactive loaded rfl
    simp only [step] at h
    split_ifs at h with hstarted hloaded
    · rw [hstarted, Phase.toRun] at hphase
      refine .quiet { r with phase := .parked, cancelFunc := r.cancelFunc.stop } hr h rfl ?_
        ⟨rfl, hdone, congrArg CancelFunc.stop hcancel⟩
      rw [runStep, if_pos hphase, if_pos hloaded]
    · rw [hstarted, Phase.toRun] at hphase
      refine .quiet { r with phase := .running, holds := true } hr h rfl ?_ ⟨rfl, hdone, hcancel⟩
      rw [runStep, if_pos hphase, if_neg hloaded]
  | «return» result =>
    cases ha
    simp only [step] at h
    split_ifs at h with hrunning
    rw [hrunning, Phase.toRun] at hphase
    refine .quiet { r with phase := .returned result } hr h rfl ?_ ⟨rfl, hdone, hcancel⟩
    rw [runStep, if_pos hphase]
  | contextDone =>
    cases ha
    simp only [step] at h
    split_ifs at h with hguard
    rw [← hcancel, ← hdone] at hguard
    refine .quiet { r with contextDone := true } hr h rfl ?_ ⟨hphase, rfl, hcancel⟩
    rw [runStep, if_pos hguard]
  | fireCancel =>
    cases ha
    simp only [step] at h
    split_ifs at h with hguard
    rw [← hcancel, ← hdone] at hguard
    refine .quiet { r with cancelFunc := .fired } hr h rfl ?_ ⟨hphase, hdone, rfl⟩
    rw [runStep, if_pos hguard]
  | durableCancel now =>
    cases ha
    simp only [step] at h
    split_ifs at h with hfired
    rw [← hcancel] at hfired
    refine .write { r with cancelFunc := .completed } h hr rfl (onRow_cancelWorkflows hkey now) ?_
      ⟨hphase, hdone, rfl⟩
    rw [runStep, if_pos hfired]
  | parkConflict =>
    cases ha
    simp only [step] at h
    split at h
    · rename_i hreturned
      rw [hreturned, Phase.toRun] at hphase
      refine .quiet { r with phase := .parked, cancelFunc := r.cancelFunc.stop } hr h rfl ?_
        ⟨rfl, hdone, congrArg CancelFunc.stop hcancel⟩
      simp only [runStep, hphase]
    · cases h
  | stop =>
    cases ha
    exact simulates_stop hr ⟨hphase, hdone, hcancel⟩ h
  | cancelCompleted =>
    cases ha
    simp only [step] at h
    split at h
    · rename_i hawaiting
      rw [hawaiting, Phase.toRun] at hphase
      split_ifs at h with hcompleted
      rw [← hcancel] at hcompleted
      refine .quiet { r with phase := .cancelled } hr h rfl ?_ ⟨rfl, hdone, hcancel⟩
      simp only [runStep, hphase, if_pos hcompleted]
    · cases h
  | check =>
    cases ha
    exact simulates_check hr ⟨hphase, hdone, hcancel⟩ h
  | cancelInline now =>
    cases ha
    simp only [step] at h
    split at h
    · rename_i hcancelling
      rw [hcancelling, Phase.toRun] at hphase
      refine .write { r with phase := .cancelled, cancelFunc := .completed } h hr rfl
        (onRow_cancelWorkflows hkey now) ?_ ⟨rfl, hdone, rfl⟩
      simp only [runStep, hphase]
    · cases h
  | releaseCancelled =>
    cases ha
    simp only [step] at h
    split_ifs at h with hcancelled
    rw [hcancelled, Phase.toRun] at hphase
    refine .quiet { r with phase := .parked, holds := false } hr h rfl ?_ ⟨rfl, hdone, hcancel⟩
    rw [runStep, if_pos hphase]
  | encode ok =>
    cases ha
    simp only [step] at h
    split at h
    · rename_i result hencoding
      rw [hencoding, Phase.toRun] at hphase
      cases ok with
      | true =>
        refine .quiet { r with phase := .recording result, holds := false } hr h rfl ?_ ⟨rfl, hdone, hcancel⟩
        simp only [runStep, hphase, if_true]
      | false =>
        refine .quiet { r with phase := .finished, holds := false } hr h rfl ?_ ⟨rfl, hdone, hcancel⟩
        simp only [runStep, hphase, Bool.false_eq_true, if_false]
    · cases h
  | record now =>
    cases ha
    exact simulates_record hr ⟨hphase, hdone, hcancel⟩ h
  | await =>
    cases ha
    simp only [step] at h
    split_ifs at h with hparked
    rw [hparked, Phase.toRun] at hphase
    obtain ⟨o, ho, hs⟩ := Option.map_eq_some_iff.1 h
    rw [hr] at ho
    refine .quiet { r with phase := .finished, holds := false } hr (congrArg some hs) rfl ?_
      ⟨rfl, hdone, hcancel⟩
    rw [runStep, if_pos ⟨hphase, isTerminal_of_await ho⟩]
  | deliver => cases ha
  | others op => cases ha

end Simulation

end Dbos.Delivery
