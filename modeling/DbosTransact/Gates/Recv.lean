import DbosTransact.Messages.Recv
import DbosTransact.SysDb.Gates

/-!
# Receiving through a gate

Any number of executions of one workflow call `GateRecv` at steps of their own choosing, on one gate, while
any number of clients deliver to it, under READ COMMITTED:

* an execution finds no checkpoint (`enter`), opens the gate in a transaction of its own (`openGate`),
  waits (`wait`), and then, in the transaction of the checkpoint, looks again (`check`), consumes a
  message (`select`, `update`), closes the gate (`closeGate`), and records the result (`commit`);
* a client reads the status of the workflow, the gate and, only if the gate takes deliveries, the audience,
  and then records the delivery (`commit`). Its `SELECT`s take no locks and wait for none.

The wait itself is that of `Recv` and is left out; a suspension or a crash is `leave`. The workflow is not
deleted. `opens`, `accepted` and `receipts` are ghosts; `returns` is what calls have returned.
-/

namespace Dbos.GateRecv

open Relational Lts

/-- `GateRecvInput`, with the timeout as it is printed. -/
structure GateRecvInput where
  gate : String
  org : String := ""
  audience : List GatePrincipal
  timeout : String := ""
  expires : Option Int := none
  deriving DecidableEq, Repr

/-- The workflow, its gate, and the `GateRecv` at each step. -/
structure Config extends Recv.Config where
  gate : String
  input : Int → GateRecvInput
  gate_input : ∀ stepID, (input stepID).gate = gate

namespace Config

variable (cfg : Config)

def spec (stepID : Int) : GateSpec where
  name := (cfg.input stepID).gate
  org := (cfg.input stepID).org
  audience := (cfg.input stepID).audience
  expiresAt := (cfg.input stepID).expires

def topic : String := gateTopic cfg.gate

/-- The `Recv` behind the call at a step. -/
def call (stepID : Int) : Recv.Call where
  stepID := stepID
  topic := cfg.topic
  timeout := (cfg.input stepID).timeout

theorem name_spec (stepID : Int) : (cfg.spec stepID).name = cfg.gate := cfg.gate_input stepID

end Config

/-! ### The data -/

/-- A delivery that was delivered: its message and caller, and the step of the opening whose gate and
whose audience it read. -/
structure Acceptance where
  messageUUID : String
  caller : Caller
  gateStep : Option Int
  audienceStep : Option Int
  deriving DecidableEq, Repr

structure Data where
  db : GateDb
  opens : List Int
  accepted : List Acceptance
  receipts : List Recv.Receipt

/-- A call that returned without an error: the payload with its serialization, and the delivery. -/
structure Return where
  stepID : Int
  payload : Option String × String
  deliveryID : String
  deriving DecidableEq, Repr

namespace Data

variable (cfg : Config) (d : Data)

def gate? : Option GateRow := d.db.gate? cfg.workflowID cfg.gate

def row? (stepID : Int) : Option OperationRow := d.db.sys.operation? cfg.workflowID stepID

def openedBy? : Option Int := (d.gate? cfg).map (·.recvStepID)

def unconsumed : List NotificationRow :=
  NotificationTable.unconsumed d.db.sys.notifications cfg.workflowID cfg.topic

/-- `CheckOperationExecution`, for the checkpoint of a `GateRecv`. -/
def check (stepID : Int) : Except GoError (Option RecordedResult) :=
  d.db.sys.checkOperationExecution cfg.workflowID stepID "DBOS.recv"

def openGate (stepID now : Int) : Option Data :=
  (d.db.openGate cfg.workflowID stepID (cfg.spec stepID) now).map fun db =>
    { d with db := db, opens := d.opens ++ [stepID] }

def consume : Option NotificationRow → Db
  | none => d.db.sys
  | some r => { d.db.sys with
    notifications := NotificationTable.consume d.db.sys.notifications r.messageUUID }

/-- What the transaction of the checkpoint writes: the message is consumed, the gate closed, and the
checkpoint inserted if there is none. -/
def commit (a : Recv.Attempt) (message : Option NotificationRow) (closedAt completedAt : Int) : Data :=
  let closed := (d.db.closeGate cfg.workflowID cfg.gate (message.map (·.messageUUID)) closedAt).1
  { d with
    db := { closed with
      sys := Write.apply (.insertOperation (cfg.recordInput a message completedAt).row)
        (d.consume message) }
    receipts := d.receipts ++ message.toList.map fun r => ⟨a.call.stepID, r.messageUUID⟩ }

def deliver (i : DeliverInput) (outcome : GateOutcome) (seen : Option Int × Option Int)
    (drawn : GateDb.Drawn) : Data :=
  { d with
    db := d.db.recordDelivery i outcome drawn
    accepted :=
      if outcome = .delivered then d.accepted ++ [⟨drawn.messageUUID, i.caller, seen.1, seen.2⟩]
      else d.accepted }

end Data

/-! ### The executions -/

inductive Phase
  | idle
  /-- no checkpoint was found -/
  | entered (stepID : Int)
  | opened (stepID : Int)
  | ready (stepID : Int) (timeoutOccurred : Bool)
  /-- at the beginning of the transaction of the checkpoint -/
  | begun (a : Recv.Attempt)
  | checked (a : Recv.Attempt)
  /-- the `UPDATE` has selected a message and waits for the lock on its row -/
  | locking (a : Recv.Attempt) (messageUUID : String)
  | consumed (a : Recv.Attempt) (message : Option NotificationRow)
  | closed (a : Recv.Attempt) (message : Option NotificationRow) (closedAt : Int) (deliveryID : String)
  deriving DecidableEq, Repr

def Phase.entered? : Phase → Option Int
  | .entered stepID => some stepID
  | _ => none

inductive Lock
  | gate
  | message (messageUUID : String)
  deriving DecidableEq, Repr

def Phase.locks : Phase → List Lock
  | .consumed _ (some r) => [.message r.messageUUID]
  | .closed _ none _ _ => [.gate]
  | .closed _ (some r) _ _ => [.message r.messageUUID, .gate]
  | _ => []

/-- The next statement of an execution; the flag says whether a commit is acknowledged. -/
inductive ExecAction
  | enter (stepID : Int)
  | openGate (now : Int) (acknowledged : Bool)
  | wait (timeoutOccurred : Bool)
  | begin (now : Int)
  | check
  | select (messageUUID : Option String)
  | update
  | closeGate (now : Int)
  | commit (completedAt : Int) (acknowledged : Bool)
  | abort
  | leave
  deriving DecidableEq, Repr

structure Result where
  data : Data
  phase : Phase
  returned : Option Return := none

/-- What is returned from a checkpoint, unless it is an error; there is no delivery in it. -/
def replayed (stepID : Int) (r : RecordedResult) : Option Return :=
  if r.errStr = none then some ⟨stepID, (r.output, r.serialization), ""⟩ else none

/-- What is returned by the execution that has made the checkpoint, unless it is an error. -/
def executed (i : RecordOperationResultInput) (deliveryID : String) : Option Return :=
  if i.errStr = none then some ⟨i.stepID, (i.output, i.serialization), deliveryID⟩ else none

/-- `RecordOperationResult` succeeds: there is no checkpoint, or one that is taken for its own. -/
def Data.records (cfg : Config) (d : Data) (i : RecordOperationResultInput) : Bool :=
  match d.row? cfg i.stepID with
  | none => true
  | some stored => (i.onConflict (some stored)).isOk

/-- The statements of an execution that leave the committed data alone, where `free` tells the locks that
no other execution holds: the phase that follows, and what is returned. -/
def quietStep (cfg : Config) (free : Lock → Bool) (d : Data) :
    Phase → ExecAction → Option (Phase × Option Return)
  | .idle, .enter stepID =>
    match d.check cfg stepID with
    | .ok none => some (.entered stepID, none)
    | .ok (some r) => some (.idle, replayed stepID r)
    | .error _ => some (.idle, none)
  | .opened stepID, .wait timeoutOccurred => some (.ready stepID timeoutOccurred, none)
  | .ready stepID timeoutOccurred, .begin now =>
    some (.begun ⟨cfg.call stepID, timeoutOccurred, now⟩, none)
  | .begun a, .check =>
    match d.check cfg a.call.stepID with
    | .ok none => some (.checked a, none)
    | .ok (some r) => some (.idle, replayed a.call.stepID r)
    | .error _ => some (.idle, none)
  | .checked a, .select none =>
    if d.unconsumed cfg = [] then some (.consumed a none, none) else none
  | .checked a, .select (some messageUUID) =>
    if Recv.selectable cfg.toConfig d.db.sys.notifications cfg.topic (some messageUUID) then
      some (.locking a messageUUID, none)
    else none
  | .locking a messageUUID, .update =>
    -- the row is changed whatever has become of it, for only its identifier is compared
    if free (.message messageUUID) then
      some (.consumed a (d.db.sys.notifications.find? messageUUID), none)
    else none
  | .consumed a message, .closeGate now =>
    if free .gate then
      some (.closed a message now (d.db.deliveryOf (message.map (·.messageUUID))), none)
    else none
  | .checked a, .abort | .locking a _, .abort | .consumed a _, .abort | .closed a _ _ _, .abort =>
    some (.begun a, none)
  | _, .leave => some (.idle, none)
  | _, _ => none

def execStep (cfg : Config) (free : Lock → Bool) (d : Data) : Phase → ExecAction → Option Result
  | .entered stepID, .openGate now acknowledged =>
    if free .gate then
      -- without the acknowledgement the gate is opened again
      (d.openGate cfg stepID now).map (⟨·, if acknowledged then .opened stepID else .entered stepID, none⟩)
    else none
  | .closed a message closedAt deliveryID, .commit completedAt acknowledged =>
    let i := cfg.recordInput a message completedAt
    if d.records cfg i = false then some ⟨d, .idle, none⟩
    else if acknowledged then
      some ⟨d.commit cfg a message closedAt completedAt, .idle, executed i deliveryID⟩
    else
      -- the transaction is tried again
      some ⟨d.commit cfg a message closedAt completedAt, .begun a, none⟩
  | p, x => (quietStep cfg free d p x).map fun r => ⟨d, r.1, r.2⟩

/-! ### The clients -/

/-- Where a call of `DeliverToGate` stands. -/
inductive Delivery
  | idle
  | begun (i : DeliverInput) (now : Int)
  | found (i : DeliverInput) (now : Int) (status : Status)
  /-- the gate takes deliveries -/
  | admitted (i : DeliverInput) (now : Int) (gateStep : Option Int)
  | decided (i : DeliverInput) (now : Int) (outcome : GateOutcome) (seen : Option Int × Option Int)
  deriving DecidableEq, Repr

inductive ClientAction
  | begin (i : DeliverInput) (now : Int)
  | readStatus
  | readGate
  | readAudience
  | commit (deliveryID messageUUID : String) (sentAt wokenAt : Int)
  | drop
  deriving DecidableEq, Repr

def clientStep (cfg : Config) (d : Data) : Delivery → ClientAction → Option (Data × Delivery)
  | .idle, .begin i now =>
    if i.workflowID = cfg.workflowID ∧ i.gate = cfg.gate then some (d, .begun i now) else none
  | .begun i now, .readStatus =>
    match d.db.sys.statusOf i.workflowID with
    | none => some (d, .idle)
    | some status => some (d, .found i now status)
  | .found i now status, .readGate =>
    match gateVerdict status (d.gate? cfg) now with
    | .delivered => some (d, .admitted i now (d.openedBy? cfg))
    | outcome => some (d, .decided i now outcome (none, none))
  | .admitted i now gateStep, .readAudience =>
    let outcome := if d.db.audienceMatches i then .delivered else .rejectedAudience
    some (d, .decided i now outcome (gateStep, d.openedBy? cfg))
  | .decided i now outcome seen, .commit deliveryID messageUUID sentAt wokenAt =>
    -- the identifiers are fresh
    if d.db.deliveries.find? deliveryID = none ∧ d.db.sys.notifications.find? messageUUID = none then
      some (d.deliver i outcome seen ⟨deliveryID, messageUUID, now, sentAt, wokenAt⟩, .idle)
    else none
  | _, .drop => some (d, .idle)
  | _, _ => none

/-! ### The environment -/

inductive EnvAction
  /-- a plain `Send` -/
  | send (input : SendInput) (fresh : String) (now wakeNow : Int)
  | ignoreDelivery (deliveryID : String)
  | operate (op : Lifecycle.Operation)
  deriving DecidableEq, Repr

/-- One operation of the environment, which does not delete the workflow. -/
def envStep (cfg : Config) (d : Data) : EnvAction → Option Data
  | .send input fresh now wakeNow =>
    some { d with db := { d.db with sys := d.db.sys.send input fresh now wakeNow } }
  | .ignoreDelivery deliveryID => some { d with db := d.db.ignoreDelivery deliveryID }
  | .operate op =>
    match d.db.operate op with
    | none => none
    | some db =>
      if (db.sys.status.find? cfg.workflowID).isSome then some { d with db := db } else none

/-! ### All together -/

structure State (n m : ℕ) where
  data : Data
  execs : Fin n → Phase
  clients : Fin m → Delivery
  returns : List Return

inductive Action (n m : ℕ)
  | exec (e : Fin n) (x : ExecAction)
  | client (k : Fin m) (x : ClientAction)
  | env (x : EnvAction)
  deriving DecidableEq, Repr

section Step

variable {n m : ℕ} (cfg : Config)

def State.free (s : State n m) (e : Fin n) (l : Lock) : Bool :=
  decide (∀ j, j ≠ e → l ∉ (s.execs j).locks)

def step (s : State n m) : Action n m → Option (State n m)
  | .exec e x =>
    (execStep cfg (s.free e) s.data (s.execs e) x).map fun r =>
      { s with
        data := r.data
        execs := Function.update s.execs e r.phase
        returns := s.returns ++ r.returned.toList }
  | .client k x =>
    (clientStep cfg s.data (s.clients k) x).map fun r =>
      { s with data := r.1, clients := Function.update s.clients k r.2 }
  | .env x => (envStep cfg s.data x).map fun d => { s with data := d }

/-- At first the gate was never opened, nothing is on its topic, and nothing is under way. -/
structure Init (s : State n m) : Prop where
  gate : s.data.gate? cfg = none
  topic : s.data.unconsumed cfg = []
  opens : s.data.opens = []
  accepted : s.data.accepted = []
  receipts : s.data.receipts = []
  execs : ∀ e, s.execs e = .idle
  clients : ∀ k, s.clients k = .idle
  returns : s.returns = []

def system (n m : ℕ) : System (State n m) (Action n m) where
  init := Init cfg
  step := step cfg

end Step

/-! ### What the statements change -/

section Changes

variable {cfg : Config} {d d' : Data}

structure OpenedAt (cfg : Config) (d : Data) (stepID : Int) (d' : Data) : Prop where
  sys : d'.db.sys = d.db.sys
  gate : ∃ g, d'.gate? cfg = some g ∧ g.isOpen = true ∧ g.recvStepID = stepID
  audience : ∀ p, p ∈ d'.db.audienceOf cfg.workflowID cfg.gate ↔ p ∈ (cfg.input stepID).audience
  opens : d'.opens = d.opens ++ [stepID]
  accepted : d'.accepted = d.accepted
  receipts : d'.receipts = d.receipts

theorem openedAt_of_openGate {stepID now : Int} (h : d.openGate cfg stepID now = some d') :
    OpenedAt cfg d stepID d' := by
  obtain ⟨db, hdb, rfl⟩ := Option.map_eq_some_iff.1 h
  obtain ⟨workflow, -, hopened⟩ := GateDb.openGate_cases hdb
  have hname := cfg.name_spec stepID
  refine ⟨hopened.sys, ?_, fun p => ?_, rfl, rfl, rfl⟩
  · exact ⟨_, (hopened.gate _ _).trans (if_pos ⟨rfl, hname.symm⟩), rfl, rfl⟩
  · rw [← hname]
    exact hopened.mem_audienceOf

inductive Executes (cfg : Config) (free : Lock → Bool) (d : Data) : Phase → ExecAction → Result → Prop
  | opens {stepID now : Int} {acknowledged : Bool} {d' : Data} (h : OpenedAt cfg d stepID d') :
      Executes cfg free d (.entered stepID) (.openGate now acknowledged)
        ⟨d', if acknowledged then .opened stepID else .entered stepID, none⟩
  | commits {a : Recv.Attempt} {message : Option NotificationRow} {closedAt completedAt : Int}
      {deliveryID : String} {acknowledged : Bool}
      (h : d.records cfg (cfg.recordInput a message completedAt) = true) :
      Executes cfg free d (.closed a message closedAt deliveryID) (.commit completedAt acknowledged)
        ⟨d.commit cfg a message closedAt completedAt, if acknowledged then .idle else .begun a,
          if acknowledged then executed (cfg.recordInput a message completedAt) deliveryID else none⟩
  | refused {a : Recv.Attempt} {message : Option NotificationRow} {closedAt completedAt : Int}
      {deliveryID : String} {acknowledged : Bool} :
      Executes cfg free d (.closed a message closedAt deliveryID) (.commit completedAt acknowledged)
        ⟨d, .idle, none⟩
  | quiet {p p' : Phase} {x : ExecAction} {returned : Option Return}
      (h : quietStep cfg free d p x = some (p', returned)) : Executes cfg free d p x ⟨d, p', returned⟩

theorem executes_of_execStep {free : Lock → Bool} {p : Phase} {x : ExecAction} {r : Result}
    (h : execStep cfg free d p x = some r) : Executes cfg free d p x r := by
  unfold execStep at h
  split at h
  · rw [Option.ite_none_right_eq_some] at h
    obtain ⟨d', hd', rfl⟩ := Option.map_eq_some_iff.1 h.2
    exact .opens (openedAt_of_openGate hd')
  next a message closedAt deliveryID completedAt acknowledged =>
    cases hrecords : d.records cfg (cfg.recordInput a message completedAt) with
    | false =>
      obtain rfl : (⟨d, .idle, none⟩ : Result) = r := by simpa [hrecords] using h
      exact .refused
    | true =>
      cases acknowledged with
      | false =>
        obtain rfl : (⟨_, .begun a, none⟩ : Result) = r := by simpa [hrecords] using h
        exact .commits hrecords
      | true =>
        obtain rfl : (⟨_, .idle, executed _ deliveryID⟩ : Result) = r := by simpa [hrecords] using h
        exact .commits hrecords
  · obtain ⟨⟨p', returned⟩, hquiet, rfl⟩ := Option.map_eq_some_iff.1 h
    exact .quiet hquiet

inductive Serves (cfg : Config) (d : Data) : Delivery → ClientAction → Data × Delivery → Prop
  | begins {i : DeliverInput} {now : Int} (hid : i.workflowID = cfg.workflowID) (hgate : i.gate = cfg.gate) :
      Serves cfg d .idle (.begin i now) (d, .begun i now)
  | finds {i : DeliverInput} {now : Int} {status : Status} :
      Serves cfg d (.begun i now) .readStatus (d, .found i now status)
  | admits {i : DeliverInput} {now : Int} {status : Status} {g : GateRow} (hg : d.gate? cfg = some g)
      (hopen : g.isOpen = true) :
      Serves cfg d (.found i now status) .readGate (d, .admitted i now (some g.recvStepID))
  | rejects {i : DeliverInput} {now : Int} {status : Status} :
      Serves cfg d (.found i now status) .readGate (d, .decided i now .rejectedClosed (none, none))
  | judges {i : DeliverInput} {now : Int} {gateStep : Option Int} :
      Serves cfg d (.admitted i now gateStep) .readAudience
        (d, .decided i now (if d.db.audienceMatches i then .delivered else .rejectedAudience)
          (gateStep, d.openedBy? cfg))
  | commits {i : DeliverInput} {now : Int} {outcome : GateOutcome} {seen : Option Int × Option Int}
      {deliveryID messageUUID : String} {sentAt wokenAt : Int}
      (hdelivery : d.db.deliveries.find? deliveryID = none)
      (hmessage : d.db.sys.notifications.find? messageUUID = none) :
      Serves cfg d (.decided i now outcome seen) (.commit deliveryID messageUUID sentAt wokenAt)
        (d.deliver i outcome seen ⟨deliveryID, messageUUID, now, sentAt, wokenAt⟩, .idle)
  | ends {p : Delivery} {x : ClientAction} (h : x = .readStatus ∨ x = .drop) : Serves cfg d p x (d, .idle)

theorem serves_of_clientStep {p : Delivery} {x : ClientAction} {r : Data × Delivery}
    (h : clientStep cfg d p x = some r) : Serves cfg d p x r := by
  unfold clientStep at h
  split at h
  · split_ifs at h with hi
    cases h
    exact .begins hi.1 hi.2
  · split at h
    · cases h
      exact .ends (.inl rfl)
    · cases h
      exact .finds
  next i now status =>
    rcases gateVerdict_cases status (d.gate? cfg) now with hverdict | hverdict
    · obtain ⟨-, g, hg, hopen, -⟩ := gateVerdict_eq_delivered.1 hverdict
      rw [hverdict, Data.openedBy?, hg] at h
      cases h
      exact .admits hg hopen
    · rw [hverdict] at h
      cases h
      exact .rejects
  · cases h
    exact .judges
  · split_ifs at h with hfresh
    cases h
    exact .commits hfresh.1 hfresh.2
  · cases h
    exact .ends (.inr rfl)
  · cases h

structure Keeps (cfg : Config) (d d' : Data) : Prop where
  gate : d'.gate? cfg = d.gate? cfg
  row : ∀ stepID, d'.row? cfg stepID = d.row? cfg stepID
  audience : d'.db.audienceOf cfg.workflowID cfg.gate = d.db.audienceOf cfg.workflowID cfg.gate
  opens : d'.opens = d.opens
  receipts : d'.receipts = d.receipts

theorem keeps_deliver (i : DeliverInput) (outcome : GateOutcome) (seen : Option Int × Option Int)
    (drawn : GateDb.Drawn) : Keeps cfg d (d.deliver i outcome seen drawn) := by
  refine ⟨rfl, fun stepID => ?_, rfl, rfl, rfl⟩
  simp only [Data.row?, Data.deliver, GateDb.recordDelivery]
  split_ifs
  · rfl
  · rfl

theorem Keeps.refl (cfg : Config) (d : Data) : Keeps cfg d d := ⟨rfl, fun _ => rfl, rfl, rfl, rfl⟩

theorem Serves.keeps {p : Delivery} {x : ClientAction} {r : Data × Delivery} (h : Serves cfg d p x r) :
    Keeps cfg d r.1 := by
  cases h with
  | commits => exact keeps_deliver _ _ _ _
  | begins | finds | admits | rejects | judges | ends => exact .refl cfg d

theorem keeps_operate {op : Lifecycle.Operation} {db : GateDb} (h : d.db.operate op = some db)
    (hthere : (db.sys.status.find? cfg.workflowID).isSome = true) :
    Keeps cfg d { d with db := db } ∧ db.sys.notifications = d.db.sys.notifications := by
  obtain ⟨status, -, rfl⟩ := Option.map_eq_some_iff.1 h
  have hthere : (status.find? cfg.workflowID).isSome = true := hthere
  refine ⟨⟨?_, fun _ => rfl, ?_, rfl, rfl⟩, rfl⟩
  · show (d.db.gates.delete _).find? _ = d.db.gates.find? _
    rw [Table.find?_delete]
    cases hg : d.db.gates.find? (cfg.workflowID, cfg.gate) with
    | none => rfl
    | some g => simp [(GateDb.key_of_gate? hg).1, hthere]
  · simp only [GateDb.audienceOf, GateDb.cascade, Table.delete, List.filter_filter]
    congr 1
    refine List.filter_congr fun a _ => ?_
    cases hfor : a.isFor cfg.workflowID cfg.gate with
    | false => rfl
    | true => simp [(AudienceRow.isFor_iff.1 hfor).1, hthere]

theorem keeps_envStep {x : EnvAction} (h : envStep cfg d x = some d') :
    Keeps cfg d d' ∧ d'.accepted = d.accepted := by
  cases x with
  | send input fresh now wakeNow =>
    cases h
    exact ⟨⟨rfl, fun _ => rfl, rfl, rfl, rfl⟩, rfl⟩
  | ignoreDelivery deliveryID =>
    cases h
    exact ⟨⟨rfl, fun _ => rfl, rfl, rfl, rfl⟩, rfl⟩
  | operate op =>
    simp only [envStep] at h
    split at h
    · cases h
    next db hdb =>
      split_ifs at h with hthere
      cases h
      exact ⟨(keeps_operate hdb hthere).1, rfl⟩

theorem gate?_commit (a : Recv.Attempt) (message : Option NotificationRow) (closedAt completedAt : Int) :
    (d.commit cfg a message closedAt completedAt).gate? cfg = (d.gate? cfg).map (·.close closedAt) := by
  refine (GateDb.gate?_closeGate _ _ (message.map (·.messageUUID)) _ _ _).trans ?_
  refine Option.map_congr fun g hg => ?_
  obtain ⟨hid, hgate⟩ := GateDb.key_of_gate? hg
  rw [if_pos (by simp [GateRow.isFor, hid, hgate])]

theorem row?_commit (a : Recv.Attempt) (message : Option NotificationRow) (closedAt completedAt stepID : Int) :
    (d.commit cfg a message closedAt completedAt).row? cfg stepID =
      (d.row? cfg stepID).or (if a.call.stepID = stepID then
        some (cfg.recordInput a message completedAt).row else none) := by
  have hoperations : (d.consume message).operations = d.db.sys.operations := by
    cases message with
    | none => rfl
    | some r => rfl
  show ((d.consume message).operations.insert _).find? _ = _
  rw [hoperations, Table.find?_insert]
  simp only [Data.row?, Db.operation?, RecordOperationResultInput.row, Recv.Config.recordInput,
    Prod.mk.injEq, true_and]

end Changes

/-! ### A workflow to look at -/

section Scenario

variable {n m : ℕ}

/-- A workflow that waits for an approval, at every step with the audience given. -/
def approval (audience : Int → List GatePrincipal) : Config where
  workflowID := "w"
  serialization := "json"
  serializeError _ := "timeout"
  gate := "approve"
  input stepID := { gate := "approve", audience := audience stepID }
  gate_input _ := rfl

def openToAll : Config := approval fun _ => [⟨.all, "*"⟩]

def started (n m : ℕ) : State n m where
  data :=
    { db := ⟨⟨.insert .empty { workflowID := "w", status := .pending, authenticatedUser := some "acme" },
        .empty, .empty, .empty, .empty, .empty⟩, .empty, .empty, .empty, .empty⟩
      opens := []
      accepted := []
      receipts := [] }
  execs _ := .idle
  clients _ := .idle
  returns := []

theorem init_started (audience : Int → List GatePrincipal) (n m : ℕ) :
    Init (approval audience) (started n m) :=
  ⟨rfl, rfl, rfl, rfl, rfl, fun _ => rfl, fun _ => rfl, rfl⟩

def approve : DeliverInput where
  workflowID := "w"
  gate := "approve"
  caller := { org := "acme", subject := "ann" }
  encodedPayload := "yes"
  serialization := "json"

def opening (e : Fin n) (stepID : Int) : List (Action n m) :=
  [.exec e (.enter stepID), .exec e (.openGate 10 true)]

def looking (k : Fin m) : List (Action n m) :=
  [.client k (.begin approve 20), .client k .readStatus, .client k .readGate]

def delivering (k : Fin m) (deliveryID messageUUID : String) : List (Action n m) :=
  [.client k .readAudience, .client k (.commit deliveryID messageUUID 20 20)]

def receiving (e : Fin n) (messageUUID : String) : List (Action n m) :=
  [.exec e (.wait false), .exec e (.begin 30), .exec e .check, .exec e (.select (some messageUUID)),
    .exec e .update, .exec e (.closeGate 30), .exec e (.commit 30 true)]

end Scenario

end Dbos.GateRecv
