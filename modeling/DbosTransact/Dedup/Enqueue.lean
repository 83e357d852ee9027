import DbosTransact.Lib.Transition
import DbosTransact.SysDb.StatusTable
import Mathlib.Data.Fintype.Basic
import Mathlib.Logic.Function.Basic

/-!
# `Enqueue` under the return-existing policy

`Enqueue` inserts the row of a new workflow in a transaction. If the index on the queue and the
deduplication ID refuses it, it looks up the holder of the slot on another connection and returns that
workflow; if the slot was freed in between, it starts over.

* Inside a workflow every attempt is a `runAsTxn` step: the transaction first looks for the checkpoint,
  and the outcome, a refusal included, is committed with the row. An execution that crashes is followed by
  one that begins again at the call's first step.
* If the context is cancelled during the attempt, `runAsTxn` records nothing; if the recording fails, it
  returns no output. The error still matches `ErrQueueDeduplicated`.
* Under READ COMMITTED a row that an open transaction has inserted is not seen by the others; a statement
  that needs its slot or its ID waits.

The fields `started`, `held`, `inserted` and `returned` of `Progress` only say what has happened.
-/

namespace Dbos

def WorkflowRow.slot (r : WorkflowRow) : Option (String × String) :=
  r.queueName.bind fun queue => r.deduplicationID.map fun id => (queue, id)

namespace Dedup

open Lts

def Indexed (t : StatusTable) : Prop :=
  ∀ r ∈ t.rows, ∀ r' ∈ t.rows, r.slot.isSome = true → r.slot = r'.slot → r = r'

instance (t : StatusTable) : Decidable (Indexed t) :=
  inferInstanceAs (Decidable (∀ _ ∈ t.rows, _))

/-- The holder of a slot, as `GetDeduplicatedWorkflow` finds it. -/
def holder (t : StatusTable) (slot : String × String) : Option String :=
  t.toDb.getDeduplicatedWorkflow slot.1 slot.2

/-- A call of `Enqueue`: what it inserts, for each workflow ID it may draw, and the workflow that makes it,
if one does. -/
structure Call where
  appName : String
  input : InsertWorkflowStatusInput
  caller : Option String
  queueName_ne : input.queueName ≠ ""
  deduplicationID_ne : input.deduplicationID ≠ ""
  queuePartitionKey_eq : input.queuePartitionKey = ""
  waits : input.status = .enqueued ∨ input.status = .delayed ∧ input.delayUntil.isSome = true

namespace Call

variable (call : Call)

def row (workflowID : String) : WorkflowRow := { call.input with workflowID := workflowID }.row call.appName

def slot : String × String := (call.input.queueName, call.input.deduplicationID)

def publish (t : StatusTable) (workflowID : String) : StatusTable :=
  t.upsert (·.reinsert (call.row workflowID)) (WorkflowRow.workflowID_reinsert (call.row workflowID))
    (call.row workflowID)

end Call

/-- What a step of the call has recorded: the output, and whether the error is `ErrQueueDeduplicated`. -/
structure Checkpoint where
  output : String
  deduplicated : Bool
  deriving DecidableEq, Repr

inductive Phase
  /-- at the head of the loop -/
  | started
  /-- the transaction has found no checkpoint -/
  | running
  /-- the row is inserted; it may have been there -/
  | inserted (created : Bool)
  /-- the index has refused the row -/
  | refused
  /-- the holder of the slot, empty if there is none -/
  | lookedUp (existingID : String)
  deriving DecidableEq, Repr

/-- An execution of the call. The steps are counted from the first one of the call. -/
structure Execution where
  workflowID : String
  stepID : ℕ
  phase : Phase
  deriving DecidableEq, Repr

structure Progress where
  /-- the checkpoints of the call's steps -/
  journal : ℕ → Option Checkpoint := fun _ => none
  live : Option Execution := none
  started : Bool := false
  /-- the workflows that have held the slot since the call started -/
  held : List String := []
  /-- the workflows that the call has inserted -/
  inserted : List String := []
  /-- what its executions have returned -/
  returned : List String := []

namespace Progress

variable (p : Progress)

def goto (e : Execution) (phase : Phase) : Progress := { p with live := some { e with phase := phase } }

def leave : Progress := { p with live := none }

/-- `Enqueue` returns a handle. -/
def ret (id : String) : Progress := { p with live := none, returned := p.returned ++ [id] }

def again (e : Execution) : Progress :=
  { p with live := some { e with stepID := e.stepID + 1, phase := .started } }

/-- What `Enqueue` does on `ErrQueueDeduplicated`. -/
def resolve (e : Execution) (existingID : String) : Progress :=
  if existingID ≠ "" then p.ret existingID else p.again e

def record (e : Execution) (c : Checkpoint) : Progress :=
  { p with journal := Function.update p.journal e.stepID (some c) }

/-- Whoever holds the slot now has held it since the call started. -/
def observe (now : Option String) : Progress := if p.started then { p with held := p.held ++ now.toList } else p

def insert (e : Execution) (created : Bool) : Progress :=
  if created then { p with inserted := p.inserted ++ [e.workflowID] } else p

end Progress

variable {ι : Type*}

structure State (ι : Type*) where
  table : StatusTable
  calls : ι → Progress

inductive Move
  /-- an execution begins, with its workflow ID -/
  | start (workflowID : String)
  /-- `CheckOperationExecution` -/
  | check
  /-- `InsertWorkflowStatus` -/
  | insert
  /-- `GetDeduplicatedWorkflow` -/
  | lookup
  /-- the attempt ends; inside a workflow its checkpoint is committed -/
  | commit
  /-- the commit takes effect and is reported as failed -/
  | commitUnacknowledged
  /-- the connection breaks inside the transaction, and `runAsTxn` runs the attempt again -/
  | abort
  /-- the workflow's context is cancelled before a refusal is recorded -/
  | interrupt
  /-- a refusal could not be recorded -/
  | recordFailed
  /-- the execution crashes or returns an error -/
  | fail
  deriving DecidableEq, Repr

def Move.unrecorded : Move → Bool
  | .interrupt | .recordFailed => true
  | _ => false

inductive Action (ι : Type*)
  | call (j : ι) (m : Move)
  | operation (op : Lifecycle.Operation)
  deriving Repr

def Action.Recorded : Action ι → Prop
  | .call _ m => m.unrecorded = false
  | .operation _ => True

instance : DecidablePred (Action.Recorded (ι := ι))
  | .call _ m => inferInstanceAs (Decidable (m.unrecorded = false))
  | .operation _ => inferInstanceAs (Decidable True)

variable (calls : ι → Call)

namespace State

variable (s : State ι)

/-- The ID may be given to an execution of the call: the call has inserted it itself, or neither a row nor
another execution has it. -/
def Fresh (j : ι) (workflowID : String) : Prop :=
  workflowID ≠ "" ∧ (workflowID ∈ (s.calls j).inserted ∨ s.table.find? workflowID = none) ∧
    ∀ i, i ≠ j → ∀ e ∈ (s.calls i).live, e.workflowID ≠ workflowID

/-- No other open transaction has inserted a row into the slot of the call. -/
def SlotFree (j : ι) : Prop :=
  ∀ i, i ≠ j → (calls i).slot = (calls j).slot → ∀ e ∈ (s.calls i).live, e.phase ≠ .inserted true

/-- The operation can leave this table: it satisfies the index, does not touch what the open transactions
have written, does not draw an ID that an execution has drawn, and keeps the calling workflows. -/
def Permits (t : StatusTable) : Prop :=
  Indexed t ∧ ∀ j,
    (∀ e ∈ (s.calls j).live,
      (s.table.find? e.workflowID = none ∨ e.phase = .inserted false →
        t.find? e.workflowID = s.table.find? e.workflowID) ∧
      (e.phase = .inserted true → holder t (calls j).slot = none)) ∧
    ∀ caller ∈ (calls j).caller, (s.table.find? caller).isSome = true → (t.find? caller).isSome = true

instance [Fintype ι] [DecidableEq ι] (j : ι) (workflowID : String) : Decidable (s.Fresh j workflowID) :=
  inferInstanceAs (Decidable (_ ∧ _ ∧ _))

instance [Fintype ι] [DecidableEq ι] (j : ι) : Decidable (s.SlotFree calls j) :=
  inferInstanceAs (Decidable (∀ _, _))

instance [Fintype ι] (t : StatusTable) : Decidable (s.Permits calls t) :=
  inferInstanceAs (Decidable (_ ∧ _))

/-- Every call that has started takes note of the holder of its slot. -/
def observe : State ι := { s with calls := fun j => (s.calls j).observe (holder s.table (calls j).slot) }

def set [DecidableEq ι] (j : ι) (t : StatusTable) (p : Progress) : State ι := ⟨t, Function.update s.calls j p⟩

end State

section Statements

variable (s : State ι) (j : ι) (e : Execution)

/-- `CheckOperationExecution`: an execution outside a workflow has none. -/
def checkStep : Progress :=
  let p := s.calls j
  match (calls j).caller with
  | none => p.goto e .running
  | some caller =>
    match s.table.find? caller with
    | none => p.leave
    | some r =>
      if r.status = .cancelled then p.leave
      else
        match p.journal e.stepID with
        | none => p.goto e .running
        | some c => if c.deduplicated then p.resolve e c.output else p.ret c.output

/-- `InsertWorkflowStatus`, which waits for the slot. -/
def insertStep [Fintype ι] [DecidableEq ι] : Option Progress :=
  let p := s.calls j
  match s.table.toDb.insertWorkflowStatus ((calls j).row e.workflowID) with
  | .error err => some (if err.isCode .queueDeduplicated then p.goto e .refused else p.leave)
  | .ok _ =>
    let created := (s.table.find? e.workflowID).isNone
    if created = true → s.SlotFree calls j then some (p.goto e (.inserted created)) else none

def commitStep : Option (StatusTable × Progress) :=
  let p := s.calls j
  match e.phase, (calls j).caller with
  | .inserted created, none =>
    some ((calls j).publish s.table e.workflowID, (p.insert e created).ret e.workflowID)
  | .inserted created, some _ =>
    some ((calls j).publish s.table e.workflowID,
      ((p.insert e created).record e ⟨e.workflowID, false⟩).ret e.workflowID)
  | .lookedUp existingID, none => some (s.table, p.resolve e existingID)
  | .lookedUp existingID, some _ => some (s.table, (p.record e ⟨existingID, true⟩).resolve e existingID)
  | _, _ => none

/-- A commit that is reported as failed: `runAsTxn` runs the attempt again. -/
def commitUnacknowledgedStep : Option (StatusTable × Progress) :=
  let p := s.calls j
  match e.phase, (calls j).caller with
  | .inserted created, none => some ((calls j).publish s.table e.workflowID, (p.insert e created).leave)
  | .inserted created, some _ =>
    some ((calls j).publish s.table e.workflowID,
      ((p.insert e created).record e ⟨e.workflowID, false⟩).goto e .started)
  | .lookedUp existingID, some _ => some (s.table, (p.record e ⟨existingID, true⟩).goto e .started)
  | _, _ => none

def moveStep [Fintype ι] [DecidableEq ι] : Move → Option (StatusTable × Progress)
  | .start _ => none
  | .check => if e.phase = .started then some (s.table, checkStep calls s j e) else none
  | .insert => if e.phase = .running then (insertStep calls s j e).map (s.table, ·) else none
  | .lookup =>
    if e.phase = .refused then
      some (s.table, (s.calls j).goto e (.lookedUp ((holder s.table (calls j).slot).getD "")))
    else none
  | .commit => commitStep calls s j e
  | .commitUnacknowledged => commitUnacknowledgedStep calls s j e
  | .abort => if (calls j).caller.isSome then some (s.table, (s.calls j).goto e .started) else none
  | .interrupt =>
    match e.phase, (calls j).caller with
    | .lookedUp existingID, some _ => some (s.table, (s.calls j).resolve e existingID)
    | _, _ => none
  | .recordFailed =>
    match e.phase, (calls j).caller with
    | .lookedUp _, some _ => some (s.table, (s.calls j).again e)
    | _, _ => none
  | .fail => some (s.table, (s.calls j).leave)

end Statements

/-- The next execution of a call. A call outside a workflow has one. -/
def startStep [Fintype ι] [DecidableEq ι] (s : State ι) (j : ι) (workflowID : String) : Option Progress :=
  if s.Fresh j workflowID ∧ ((calls j).caller = none → (s.calls j).started = false) then
    some { s.calls j with live := some ⟨workflowID, 0, .started⟩, started := true }
  else none

def callStep [Fintype ι] [DecidableEq ι] (s : State ι) (j : ι) (m : Move) : Option (StatusTable × Progress) :=
  match (s.calls j).live, m with
  | none, .start workflowID => (startStep calls s j workflowID).map (s.table, ·)
  | none, _ => none
  | some e, m => moveStep calls s j e m

def step [Fintype ι] [DecidableEq ι] (s : State ι) : Action ι → Option (State ι)
  | .call j m => (callStep calls s j m).map fun (t, p) => (s.set j t p).observe calls
  | .operation op =>
    (Lifecycle.step s.table op).bind fun t =>
      if s.Permits calls t then some (State.observe calls ⟨t, s.calls⟩) else none

def Initial (s : State ι) : Prop := Indexed s.table ∧ ∀ j, s.calls j = {}

def system [Fintype ι] [DecidableEq ι] : System (State ι) (Action ι) where
  init := Initial
  step := step calls


/-! ### What one statement can do -/

/-- The statements of a call by what they do to its progress `p` and to the table `t`. An execution may draw
the IDs that are `fresh`; no other open transaction is in the slot if it is `free`. -/
inductive Turn (call : Call) (fresh : String → Prop) (free : Prop) (t : StatusTable) (p : Progress) :
    Move → StatusTable → Progress → Prop
  | start (workflowID : String) : p.live = none → (call.caller = none → p.started = false) → fresh workflowID →
      Turn call fresh free t p (.start workflowID) t
        { p with live := some ⟨workflowID, 0, .started⟩, started := true }
  | leave (m : Move) : m.unrecorded = false → Turn call fresh free t p m t p.leave
  | abort (e : Execution) : p.live = some e → Turn call fresh free t p .abort t (p.goto e .started)
  | enter (e : Execution) : p.live = some e → (call.caller.isSome = true → p.journal e.stepID = none) →
      Turn call fresh free t p .check t (p.goto e .running)
  | replay (e : Execution) (c : Checkpoint) : p.live = some e → p.journal e.stepID = some c →
      c.deduplicated = false → Turn call fresh free t p .check t (p.ret c.output)
  | replayRefusal (e : Execution) (c : Checkpoint) : p.live = some e → p.journal e.stepID = some c →
      c.deduplicated = true → Turn call fresh free t p .check t (p.resolve e c.output)
  | insert (e : Execution) (created : Bool) : p.live = some e → e.phase = .running →
      created = (t.find? e.workflowID).isNone → (created = true → holder t call.slot = none ∧ free) →
      Turn call fresh free t p .insert t (p.goto e (.inserted created))
  | refuse (e : Execution) : p.live = some e → e.phase = .running →
      Turn call fresh free t p .insert t (p.goto e .refused)
  | lookup (e : Execution) : p.live = some e → e.phase = .refused →
      Turn call fresh free t p .lookup t (p.goto e (.lookedUp ((holder t call.slot).getD "")))
  | publish (e : Execution) (created : Bool) : p.live = some e → e.phase = .inserted created →
      call.caller = none →
      Turn call fresh free t p .commit (call.publish t e.workflowID) ((p.insert e created).ret e.workflowID)
  | publishRecorded (e : Execution) (created : Bool) : p.live = some e → e.phase = .inserted created →
      Turn call fresh free t p .commit (call.publish t e.workflowID)
        (((p.insert e created).record e ⟨e.workflowID, false⟩).ret e.workflowID)
  | publishUnacknowledged (e : Execution) (created : Bool) : p.live = some e → e.phase = .inserted created →
      call.caller = none →
      Turn call fresh free t p .commitUnacknowledged (call.publish t e.workflowID) (p.insert e created).leave
  | publishRecordedUnacknowledged (e : Execution) (created : Bool) : p.live = some e →
      e.phase = .inserted created →
      Turn call fresh free t p .commitUnacknowledged (call.publish t e.workflowID)
        (((p.insert e created).record e ⟨e.workflowID, false⟩).goto e .started)
  | resolve (e : Execution) (existingID : String) : p.live = some e → e.phase = .lookedUp existingID →
      call.caller = none → Turn call fresh free t p .commit t (p.resolve e existingID)
  | recordRefusal (e : Execution) (existingID : String) : p.live = some e → e.phase = .lookedUp existingID →
      Turn call fresh free t p .commit t ((p.record e ⟨existingID, true⟩).resolve e existingID)
  | recordRefusalUnacknowledged (e : Execution) (existingID : String) : p.live = some e →
      e.phase = .lookedUp existingID →
      Turn call fresh free t p .commitUnacknowledged t ((p.record e ⟨existingID, true⟩).goto e .started)
  | interrupt (e : Execution) (existingID : String) : p.live = some e → e.phase = .lookedUp existingID →
      Turn call fresh free t p .interrupt t (p.resolve e existingID)
  | recordFailed (e : Execution) : p.live = some e → Turn call fresh free t p .recordFailed t (p.again e)

section Inversion

variable {calls} {s s' : State ι} {j : ι} {e : Execution} {m : Move} {t : StatusTable} {p : Progress}

theorem holder_of_insertWorkflowStatus {call : Call} {workflowID : String} (hfind : t.find? workflowID = none)
    (h : t.toDb.insertWorkflowStatus (call.row workflowID) = .ok ()) : holder t call.slot = none := by
  have hkey : (call.row workflowID).workflowID = workflowID := rfl
  have hqueue : (call.row workflowID).queueName = some call.slot.1 := if_neg call.queueName_ne
  have hdedup : (call.row workflowID).deduplicationID = some call.slot.2 := if_neg call.deduplicationID_ne
  unfold Db.insertWorkflowStatus at h
  rw [hkey, show t.toDb.status.find? workflowID = none from hfind] at h
  by_cases hheld : t.toDb.slotHeld (call.row workflowID) = true
  · simp [hheld] at h
  · simp only [Db.slotHeld, hqueue, hdedup, Bool.not_eq_true] at hheld
    exact Option.not_isSome_iff_eq_none.1 (by simpa [holder] using hheld)

variable {fresh : String → Prop} {free : Prop}

theorem turn_checkStep (he : (s.calls j).live = some e) :
    Turn (calls j) fresh free s.table (s.calls j) .check s.table (checkStep calls s j e) := by
  unfold checkStep
  dsimp only
  split
  · next hcaller => exact .enter e he (by simp [hcaller])
  · split
    · exact .leave _ rfl
    · split
      · exact .leave _ rfl
      · split
        · next hrow => exact .enter e he fun _ => hrow
        · next c hrow =>
          split
          · next hdup => exact .replayRefusal e c he hrow hdup
          · next hdup => exact .replay e c he hrow (Bool.eq_false_iff.2 hdup)

theorem turn_commitStep (he : (s.calls j).live = some e) (h : commitStep calls s j e = some (t, p)) :
    Turn (calls j) fresh free s.table (s.calls j) .commit t p := by
  unfold commitStep at h
  split at h
  · next created hphase hcaller => cases h; exact .publish e created he hphase hcaller
  · next created caller hphase hcaller => cases h; exact .publishRecorded e created he hphase
  · next existingID hphase hcaller => cases h; exact .resolve e existingID he hphase hcaller
  · next existingID caller hphase hcaller => cases h; exact .recordRefusal e existingID he hphase
  · cases h

theorem turn_commitUnacknowledgedStep (he : (s.calls j).live = some e)
    (h : commitUnacknowledgedStep calls s j e = some (t, p)) :
    Turn (calls j) fresh free s.table (s.calls j) .commitUnacknowledged t p := by
  unfold commitUnacknowledgedStep at h
  split at h
  · next created hphase hcaller => cases h; exact .publishUnacknowledged e created he hphase hcaller
  · next created caller hphase hcaller => cases h; exact .publishRecordedUnacknowledged e created he hphase
  · next existingID caller hphase hcaller => cases h; exact .recordRefusalUnacknowledged e existingID he hphase
  · cases h

variable [Fintype ι] [DecidableEq ι]

theorem turn_insertStep (he : (s.calls j).live = some e) (hphase : e.phase = .running)
    (h : insertStep calls s j e = some p) :
    Turn (calls j) fresh (s.SlotFree calls j) s.table (s.calls j) .insert s.table p := by
  unfold insertStep at h
  cases hinsert : s.table.toDb.insertWorkflowStatus ((calls j).row e.workflowID) with
  | error err =>
    simp only [hinsert, Option.some.injEq] at h
    subst h
    split_ifs
    · exact .refuse e he hphase
    · exact .leave _ rfl
  | ok =>
    simp only [hinsert] at h
    split_ifs at h with hfree
    cases h
    refine .insert e _ he hphase rfl fun hnew => ⟨?_, hfree hnew⟩
    exact holder_of_insertWorkflowStatus (Option.isNone_iff_eq_none.1 hnew) hinsert

theorem turn_moveStep (he : (s.calls j).live = some e) (h : moveStep calls s j e m = some (t, p)) :
    Turn (calls j) fresh (s.SlotFree calls j) s.table (s.calls j) m t p := by
  cases m with
  | start workflowID => cases h
  | check =>
    simp only [moveStep] at h
    split_ifs at h with hphase
    cases h
    exact turn_checkStep he
  | insert =>
    simp only [moveStep] at h
    split_ifs at h with hphase
    obtain ⟨q, hq, h⟩ := Option.map_eq_some_iff.1 h
    cases h
    exact turn_insertStep he hphase hq
  | lookup =>
    simp only [moveStep] at h
    split_ifs at h with hphase
    cases h
    exact .lookup e he hphase
  | commit => exact turn_commitStep he h
  | commitUnacknowledged => exact turn_commitUnacknowledgedStep he h
  | abort =>
    simp only [moveStep] at h
    split_ifs at h
    cases h
    exact .abort e he
  | interrupt =>
    simp only [moveStep] at h
    split at h
    · next existingID caller hphase hcaller => cases h; exact .interrupt e existingID he hphase
    · cases h
  | recordFailed =>
    simp only [moveStep] at h
    split at h
    · cases h; exact .recordFailed e he
    · cases h
  | fail =>
    cases h
    exact .leave _ rfl

/-- **What a statement of a call can do.** -/
theorem turn_of_callStep (h : callStep calls s j m = some (t, p)) :
    Turn (calls j) (s.Fresh j) (s.SlotFree calls j) s.table (s.calls j) m t p := by
  unfold callStep at h
  split at h
  · next workflowID hlive =>
    obtain ⟨q, hq, h⟩ := Option.map_eq_some_iff.1 h
    unfold startStep at hq
    split_ifs at hq with hstart
    cases hq
    cases h
    exact .start workflowID hlive hstart.2 hstart.1
  · cases h
  · next e hlive => exact turn_moveStep hlive h

/-- **What a step can do.** -/
theorem step_cases {a : Action ι} (h : step calls s a = some s') :
    (∃ j m t p, a = .call j m ∧ s' = (s.set j t p).observe calls ∧
      Turn (calls j) (s.Fresh j) (s.SlotFree calls j) s.table (s.calls j) m t p) ∨
    ∃ op t, a = .operation op ∧ s' = State.observe calls ⟨t, s.calls⟩ ∧
      Lifecycle.step s.table op = some t ∧ s.Permits calls t := by
  cases a with
  | call j m =>
    obtain ⟨⟨t, p⟩, htp, rfl⟩ := Option.map_eq_some_iff.1 h
    exact .inl ⟨j, m, t, p, rfl, rfl, turn_of_callStep htp⟩
  | operation op =>
    obtain ⟨t, ht, h⟩ := Option.bind_eq_some_iff.1 h
    split_ifs at h with hpermits
    exact .inr ⟨op, t, rfl, (Option.some.inj h).symm, ht, hpermits⟩

end Inversion

end Dedup

end Dbos
