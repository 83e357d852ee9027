import DbosTransact.Lib.Retried
import DbosTransact.SysDb.Gates
import DbosTransact.SysDb.Streams

/-!
# Calls under the internal `Retry`

`Send` outside a workflow, `DeliverToGate`, and `WriteStream` inside a step are run again by `Retry` after a
connection error. Each draws its identifiers, or computes its offset, inside the work that is run again.
`Send` and `WriteStream` commit every statement by itself, `DeliverToGate` is one transaction.
-/

namespace Dbos

open Lts Relational Retried

namespace RetriedCalls

/-- The conditions under which `Retry` runs its work again. -/
def retryConditionChain (e : GoError) : Bool :=
  Dialect.isRetryable .postgres e || Dialect.isRetryable .sqlite e

/-! ### `Send` -/

/-- The arguments of `Send` outside a workflow, without a transaction or an idempotency key. -/
structure Message where
  destinationID : String
  topic : String := ""
  message : Option String := none
  serialization : String := ""

/-- What is given to `SysDB.Send`. -/
def Message.input (m : Message) : SendInput where
  destinationID := m.destinationID
  topic := m.topic
  message := m.message
  serialization := m.serialization

/-- The statement that `SysDB.Send` executes next. -/
inductive SendPhase
  | insert
  | wake
  deriving DecidableEq, Repr

/-- The statements, with the identifier drawn and the readings of the clock. -/
inductive SendStmt
  | insert (fresh : String) (now : Int)
  | wake (now : Int)

/-- One statement of `SysDB.Send`; the identifier it draws is new. -/
def sendStmt (m : Message) (db : Db) :
    SendPhase → SendStmt → Option (Outcome Db SendPhase NotificationRow Unit GoError)
  | .insert, .insert fresh now =>
    if db.notifications.find? fresh = none then
      -- the foreign key to `workflow_status`
      if db.statusOf m.destinationID = none then
        some ⟨db, [], .error (newNonExistentWorkflowError m.destinationID)⟩
      else
        some ⟨Write.apply (.insertNotification (m.input.notification fresh now)) db,
          [m.input.notification fresh now], .goto .wake⟩
    else none
  | .wake, .wake now =>
    some ⟨Write.apply (.wake (db.sendTargets m.destinationID) now) db, [], .done ()⟩
  | _, _ => none

/-- `Send`. -/
def sendCall (m : Message) : Call Db SendPhase SendStmt NotificationRow Unit GoError where
  start := .insert
  stmt := sendStmt m
  retries := retryConditionChain

/-- How many notifications an attempt has inserted before a statement. -/
def SendPhase.inserted : SendPhase → ℕ
  | .insert => 0
  | .wake => 1

theorem counted_sendCall (m : Message) : Counted (sendCall m) SendPhase.inserted where
  start := rfl
  goto {d p a o q} h hq := by
    simp only [sendCall] at h
    unfold sendStmt at h
    split at h
    · split_ifs at h <;> cases h <;> cases hq
      rfl
    · cases h
      cases hq
    · cases h
  done {d p a o r} h hr := by
    simp only [sendCall] at h
    unfold sendStmt at h
    split at h
    · split_ifs at h <;> cases h <;> cases hr
    · cases h
      rfl
    · cases h

/-! ### `DeliverToGate` -/

/-- Where the transaction of `SysDB.DeliverToGate` stands. -/
inductive DeliverPhase
  | begin
  | status (now : Int)
  | gate (now : Int) (status : Status)
  | audience (now : Int)
  | commit (now : Int) (outcome : GateOutcome)

/-- Its statements; the commit carries the identifiers that are drawn. -/
inductive DeliverStmt
  | begin (now : Int)
  | select
  | commit (deliveryID messageUUID : String) (sentAt wokenAt : Int)

structure Inserted where
  audit : GateDeliveryRow
  notification : Option NotificationRow

/-- What a delivery inserts: the message only if it is delivered. -/
def inserted (i : DeliverInput) (outcome : GateOutcome) (d : GateDb.Drawn) : Inserted where
  audit := i.auditRow outcome d.deliveryID d.messageUUID d.now
  notification :=
    if outcome = .delivered then some ((i.sendInput d.messageUUID).notification d.messageUUID d.sentAt)
    else none

/-- One statement of `SysDB.DeliverToGate`; what the transaction writes appears with its commit. -/
def deliverStmt (i : DeliverInput) (db : GateDb) : DeliverPhase → DeliverStmt →
    Option (Outcome GateDb DeliverPhase Inserted (GateOutcome × String) GoError)
  | .begin, .begin now => some ⟨db, [], .goto (.status now)⟩
  | .status now, .select =>
    match db.sys.statusOf i.workflowID with
    | none => some ⟨db, [], .error (newNonExistentWorkflowError i.workflowID)⟩
    | some status => some ⟨db, [], .goto (.gate now status)⟩
  | .gate now status, .select =>
    match gateVerdict status (db.gate? i.workflowID i.gate) now with
    | .delivered => some ⟨db, [], .goto (.audience now)⟩
    | outcome => some ⟨db, [], .goto (.commit now outcome)⟩
  | .audience now, .select =>
    let outcome := if db.audienceMatches i then .delivered else .rejectedAudience
    some ⟨db, [], .goto (.commit now outcome)⟩
  | .commit now outcome, .commit deliveryID messageUUID sentAt wokenAt =>
    -- the identifiers are new
    if db.deliveries.find? deliveryID = none ∧ db.sys.notifications.find? messageUUID = none then
      some ⟨db.recordDelivery i outcome ⟨deliveryID, messageUUID, now, sentAt, wokenAt⟩,
        [inserted i outcome ⟨deliveryID, messageUUID, now, sentAt, wokenAt⟩],
        .done (outcome, deliveryID)⟩
    else none
  | _, _ => none

/-- `DeliverToGate`. -/
def deliverCall (i : DeliverInput) :
    Call GateDb DeliverPhase DeliverStmt Inserted (GateOutcome × String) GoError where
  start := .begin
  stmt := deliverStmt i
  retries := retryConditionChain

theorem counted_deliverCall (i : DeliverInput) : Counted (deliverCall i) fun _ => 0 where
  start := rfl
  goto {d p a o q} h hq := by
    simp only [deliverCall] at h
    unfold deliverStmt at h
    split at h
    · cases h
      rfl
    · split at h <;> cases h <;> rfl
    · split at h <;> cases h <;> rfl
    · cases h
      rfl
    · split_ifs at h
      cases h
      cases hq
    · cases h
  done {d p a o r} h hr := by
    simp only [deliverCall] at h
    unfold deliverStmt at h
    split at h
    · cases h
      cases hr
    · split at h <;> cases h <;> cases hr
    · split at h <;> cases h <;> cases hr
    · cases h
      cases hr
    · split_ifs at h
      cases h
      rfl
    · cases h

/-! ### `WriteStream` inside a step -/

/-- The statement that `SysDB.WriteStream` executes next. -/
inductive WritePhase
  | check
  | insert

/-- One statement of `SysDB.WriteStream` without a transaction. -/
def writeStmt (i : WriteStreamInput) (t : StreamTable) : WritePhase → Unit →
    Option (Outcome StreamTable WritePhase StreamRow Unit GoError)
  | .check, _ =>
    if t.isClosed i.workflowID i.key then some ⟨t, [], .error (streamClosedError i.key)⟩
    else some ⟨t, [], .goto .insert⟩
  | .insert, _ =>
    let row := i.row (t.nextOffset i.workflowID i.key)
    if t.find? (i.workflowID, i.key, row.offset) = none then some ⟨t.insert row, [row], .done ()⟩
    else some ⟨t, [], .error streamInsertError⟩

/-- `WriteStream` inside a step. -/
def writeCall (i : WriteStreamInput) :
    Call StreamTable WritePhase Unit StreamRow Unit GoError where
  start := .check
  stmt := writeStmt i
  retries := retryConditionChain

theorem counted_writeCall (i : WriteStreamInput) : Counted (writeCall i) fun _ => 0 where
  start := rfl
  goto {d p a o q} h hq := by
    simp only [writeCall] at h
    cases p with
    | check =>
      simp only [writeStmt] at h
      split_ifs at h <;> cases h <;> rfl
    | insert =>
      simp only [writeStmt] at h
      split_ifs at h <;> cases h <;> cases hq
  done {d p a o r} h hr := by
    simp only [writeCall] at h
    cases p with
    | check =>
      simp only [writeStmt] at h
      split_ifs at h <;> cases h <;> cases hr
    | insert =>
      simp only [writeStmt] at h
      split_ifs at h <;> cases h
      · rfl
      · cases hr

/-! ### Exactly once -/

def connectionLost : GoError := .leaf .eof

def called {δ π α η ρ : Type} (c : Call δ π α η ρ GoError) (store : δ) : State δ π η ρ GoError :=
  ⟨store, .running c.start, [], []⟩

def gateStore : GateDb where
  sys := StatusTable.toDb (.insert .empty { workflowID := "wf", status := .pending })
  gates := .insert .empty ⟨"wf", "approval", "org", true, none, 0, none, 1⟩
  audience := .insert .empty ⟨"wf", "approval", ⟨.all, ""⟩, none⟩
  readAudience := .empty
  deliveries := .empty

def sampleMessage : Message := { destinationID := "wf" }

def sampleDelivery : DeliverInput := { workflowID := "wf", gate := "approval", caller := ⟨"org", "alice", []⟩ }

def sampleWrite : WriteStreamInput := { key := "progress", value := "v", workflowID := "wf" }

def looking (now : Int) : List (Action GateDb DeliverStmt GoError) :=
  [.stmt (.begin now), .stmt .select, .stmt .select, .stmt .select]

theorem exists_run {δ π α η ρ : Type} (c : Call δ π α η ρ GoError) (store : δ)
    (actions : List (Action δ α GoError)) (p : State δ π η ρ GoError → Bool)
    (h : (exec (system c) (called c store) actions).any p = true) :
    ∃ t, Run (system c) (called c store) (trace (system c) (called c store) actions) t ∧ p t = true := by
  obtain ⟨t, ht, hp⟩ := (Option.any_eq_true _ _).1 h
  exact ⟨t, run_exec ht, hp⟩

end RetriedCalls

end Dbos
