import DbosTransact.Execution.Start

/-!
# Starting a child

A workflow calls `RunWorkflow` at one of its steps, and crashes and is executed again any number of times,
among arbitrary changes of the database, except for its own checkpoints. The call looks for a checkpoint
(`check`), inserts the child and the checkpoint in one transaction (`insert`, `record`, `commit`), and, if
the deduplication slot is held and the policy is to return the existing workflow, looks up the holder
(`lookup`) and checkpoints that (`attach`). A refusal leaves no checkpoint.
-/

namespace Dbos.Child

open Relational ReadCommitted Lts

/-- The call: the parent and its step, and what is given for the child. Times in milliseconds. -/
structure Config where
  parentID : String
  stepID : Int
  workflowName : String
  /-- empty if none is given -/
  givenID : String := ""
  queueName : String := ""
  deduplicationID : String := ""
  returnExisting : Bool := false
  queuePartitionKey : String := ""
  priority : Int := 0
  delayUntil : Option Int := none
  timeout : Option Int := none
  inputs : Option String := none
  serialization : String := ""
  executorID : String := ""
  applicationVersion : String := ""
  applicationName : String := ""
  deriving DecidableEq, Repr

structure Draw where
  ownerXID : String
  createdAt : Int
  startedAt : Int
  deadline : Option Int := none
  deriving DecidableEq, Repr

namespace Config

variable (cfg : Config)

def workflowID : String :=
  if cfg.givenID = "" then s!"{cfg.parentID}-{cfg.stepID}" else cfg.givenID

def status : Status :=
  if cfg.queueName = "" then .pending
  else if cfg.delayUntil.isSome then .delayed
  else .enqueued

def row (d : Draw) (now : Int) : WorkflowRow :=
  InsertWorkflowStatusInput.row cfg.applicationName
    { workflowID := cfg.workflowID
      status := cfg.status
      name := cfg.workflowName
      queueName := cfg.queueName
      executorID := cfg.executorID
      applicationVersion := cfg.applicationVersion
      createdAt := d.createdAt
      updatedAt := now
      timeout := cfg.timeout
      deadline := if cfg.status = .pending then d.deadline else none
      inputs := cfg.inputs
      deduplicationID := cfg.deduplicationID
      priority := cfg.priority
      queuePartitionKey := cfg.queuePartitionKey
      ownerXID := some d.ownerXID
      parentWorkflowID := cfg.parentID
      serialization := cfg.serialization
      delayUntil := cfg.delayUntil }

def checkpoint? (db : Db) : Option OperationRow := db.operation? cfg.parentID cfg.stepID

/-- The input of `RecordChildWorkflow`. -/
def recordInput (d : Draw) (childID : String) : RecordChildWorkflowInput where
  parentWorkflowID := cfg.parentID
  childWorkflowID := childID
  stepID := cfg.stepID
  stepName := cfg.workflowName
  startedAt := d.startedAt

/-- The error of the call when `RecordChildWorkflow` fails. -/
def recordError (err : GoError) : GoError :=
  newWorkflowExecutionError cfg.parentID (.wrapf "recording child workflow" err)

end Config

/-- What the call returns: a handle to a workflow that it executes itself or that it polls. -/
inductive Handle
  | running (workflowID : String)
  | polling (workflowID : String)
  deriving DecidableEq, Repr

/-- `GetWorkflowID`. -/
def Handle.workflowID : Handle → String
  | .running id | .polling id => id

abbrev Result := Except GoError Handle

inductive Phase
  | checking
  | inserting (d : Draw)
  | inserted (d : Draw) (isNew : Bool) (result : Start.InsertWorkflowResult)
  | recorded (d : Draw) (isNew : Bool) (result : Start.InsertWorkflowResult)
  | looking (d : Draw)
  | attaching (d : Draw) (existingID : String)
  | returned (result : Result)
  deriving Repr

/-- The database, the transaction of the call, and what the first execution of it returned. -/
structure State where
  store : Store Db Unit Write
  phase : Phase
  first : Option Result
  /-- a replay has started a child -/
  startedAgain : Bool

inductive Action
  | check (d : Draw)
  | insert (now : Int)
  | record
  | commit (loaded : Bool)
  | commitUnacknowledged
  | abort
  | lookup
  | attach
  /-- the connection breaks, before or after the `INSERT`, and the error is returned -/
  | attachFails (written : Bool) (err : GoError)
  | crash
  | environment (db : Db)

namespace State

variable (s : State)

def db : Db := s.store.committed

def goto (p : Phase) : State := { s with phase := p }

def finish (r : Result) : State := { s with phase := .returned r, first := s.first.or (some r) }

def write (w : Write) (p : Phase) : State := { s with store := s.store.write () w, phase := p }

def commit (isNew : Bool) : State :=
  { s with
    store := s.store.commit schema ()
    startedAgain := s.startedAgain || (isNew && s.first.isSome) }

def autocommit (w : Write) : State := { s with store := s.store.autocommit schema w }

def rollback : State := { s with store := s.store.rollback () }

end State

section Step

variable (cfg : Config)

def step (s : State) : Action → Option State
  | .check d =>
    match s.phase with
    | .checking =>
      match s.db.checkChildWorkflow cfg.parentID cfg.stepID cfg.workflowName with
      | .error err => some (s.finish (.error err))
      | .ok (some childID) => some (s.finish (.ok (.polling childID)))
      | .ok none => some (s.goto (.inserting d))
    | _ => none
  | .insert now =>
    match s.phase with
    | .inserting d =>
      match s.db.insertWorkflowStatus (cfg.row d now) with
      | .error err =>
        let err := Start.insertError cfg.workflowID err
        if Start.retried err then some s
        else if cfg.returnExisting ∧ err.isCode .queueDeduplicated then some (s.goto (.looking d))
        else some (s.finish (.error err))
      | .ok _ =>
        let stored := s.db.status.find? cfg.workflowID
        some (s.write (.insertStatus (cfg.row d now))
          (.inserted d stored.isNone (.ofRow (Start.offered (cfg.row d now) stored))))
    | _ => none
  | .record =>
    match s.phase with
    | .inserted d isNew result =>
      let i := cfg.recordInput d cfg.workflowID
      match cfg.checkpoint? s.db with
      | none => some (s.write (.insertOperation i.row) (.recorded d isNew result))
      | some stored =>
        match i.onConflict (some stored) with
        | .ok _ => some (s.goto (.recorded d isNew result))
        | .error err =>
          if Start.retried (cfg.recordError err) then some (s.rollback.goto (.inserting d))
          else some (s.rollback.finish (.error (cfg.recordError err)))
    | _ => none
  | .commit loaded =>
    match s.phase with
    | .recorded d isNew result =>
      if Start.shouldSkip cfg.queueName result d.ownerXID loaded then
        some ((s.commit isNew).finish (.ok (.polling cfg.workflowID)))
      else some ((s.commit isNew).finish (.ok (.running cfg.workflowID)))
    | _ => none
  | .commitUnacknowledged =>
    match s.phase with
    | .recorded d isNew _ => some ((s.commit isNew).goto (.inserting d))
    | _ => none
  | .abort =>
    match s.phase with
    | .inserted d _ _ | .recorded d _ _ => some (s.rollback.goto (.inserting d))
    | _ => none
  | .lookup =>
    match s.phase with
    | .looking d =>
      match s.db.getDeduplicatedWorkflow cfg.queueName cfg.deduplicationID with
      -- the slot was cleared in between
      | none => some (s.goto (.inserting d))
      | some existingID => some (s.goto (.attaching d existingID))
    | _ => none
  | .attach =>
    match s.phase with
    | .attaching d existingID =>
      let i := cfg.recordInput d existingID
      match cfg.checkpoint? s.db with
      | none => some ((s.autocommit (.insertOperation i.row)).finish (.ok (.polling existingID)))
      | some stored =>
        match i.onConflict (some stored) with
        | .ok _ => some (s.finish (.ok (.polling existingID)))
        | .error err => some (s.finish (.error (cfg.recordError err)))
    | _ => none
  | .attachFails written err =>
    match s.phase with
    | .attaching d existingID =>
      let i := cfg.recordInput d existingID
      if err.isCode .queueDeduplicated then none
      else if written then
        some ((s.autocommit (.insertOperation i.row)).finish (.error (cfg.recordError err)))
      else some (s.finish (.error (cfg.recordError err)))
    | _ => none
  | .crash => some (s.rollback.goto .checking)
  | .environment db =>
    if cfg.checkpoint? db = cfg.checkpoint? s.db then
      some { s with store := { s.store with committed := db } }
    else none

def Init (s : State) : Prop :=
  cfg.checkpoint? s.db = none ∧ s.store.pending = [] ∧ s.phase = .checking ∧ s.first = none ∧
    s.startedAgain = false

def system : System State Action where
  init := Init cfg
  step := step cfg

end Step

/-! ### What is claimed -/

def refused : Result → Bool
  | .error err => err.isCode .queueDeduplicated
  | .ok _ => false

/-- The result is a handle to a workflow, or the refusal because of the slot. -/
def Settled (r : Result) : Prop := (∃ h, r = .ok h) ∨ refused r = true

/-- The two results are handles to the same workflow, or refusals. -/
def Same (r r' : Result) : Prop :=
  (∃ h h', r = .ok h ∧ r' = .ok h' ∧ h.workflowID = h'.workflowID) ∨
    refused r = true ∧ refused r' = true

/-- The slot that the child asks for is held, and no row has its ID. -/
def stillRefused (cfg : Config) (db : Db) (d : Draw) (now : Int) : Bool :=
  (db.status.find? cfg.workflowID).isNone && db.slotHeld (cfg.row d now)

def Phase.inserting? : Phase → Option Draw
  | .inserting d => some d
  | _ => none

/-- **The condition** on an insertion. If it is refused because of the slot, no earlier attempt of the
call has committed its checkpoint; and if the first execution was refused, the slot is still held. -/
def Stable (cfg : Config) (s : State) : Action → Prop
  | .insert now => ∀ d ∈ s.phase.inserting?,
    (stillRefused cfg s.db d now = true → cfg.checkpoint? s.db = none) ∧
      (s.first.any refused = true → stillRefused cfg s.db d now = true)
  | _ => True

instance (cfg : Config) (s : State) (a : Action) : Decidable (Stable cfg s a) := by
  unfold Stable
  split <;> infer_instance

/-- The call obtains a result, after its check and if need be its insertion. -/
def Obtains (cfg : Config) (s : State) (r : Result) : Prop :=
  match s.phase with
  | .checking => ∀ d, ∃ t, step cfg s (.check d) = some t ∧
      ((∃ r', t.phase = .returned r' ∧ Same r r') ∨ t.phase = .inserting d)
  | .inserting _ => ∀ now, Stable cfg s (.insert now) →
      ∃ t r', step cfg s (.insert now) = some t ∧ t.phase = .returned r' ∧ Same r r'
  | .returned r' => Same r r'
  | _ => False

/-- A replay obtains what the first execution has returned, and starts no child. -/
def ReplaysSame (cfg : Config) (s : State) : Prop :=
  ∀ r ∈ s.first, Settled r → Obtains cfg s r ∧ s.startedAgain = false

end Dbos.Child
