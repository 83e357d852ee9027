import DbosTransact.SysDb.Notifications
import DbosTransact.SysDb.StatusTable

/-!
# Gates

The tables of the gates beside the system tables, and the functions on them, each executed alone. The
audience is matched in two ways: `audienceMatches` looks at the gate alone, while `principalMatches` also
takes the rows of an initiator and is asked together with the organisation.
-/

namespace Dbos

open Relational

/-- The values of `principal_type`. -/
inductive PrincipalType
  | user
  | group
  | all
  /-- a categorical exclusion -/
  | except
  /-- who started the instance -/
  | initiator
  deriving DecidableEq, Repr

/-- `GatePrincipal`: one symbolic entry of an audience. -/
structure GatePrincipal where
  type : PrincipalType
  principal : String
  deriving DecidableEq, Repr

/-- `GateOutcome`: the durable result of a delivery. -/
inductive GateOutcome
  | delivered
  | rejectedClosed
  | rejectedAudience
  | ignored
  deriving DecidableEq, Repr

/-- `GateSpec`: the gate that a `Recv` opens. -/
structure GateSpec where
  name : String
  org : String := ""
  audience : List GatePrincipal
  expiresAt : Option Int := none
  deriving DecidableEq, Repr

def gateTopic (name : String) : String := "gate:" ++ name

/-- Who calls: the organisation, the subject, and the groups of the subject. -/
structure Caller where
  org : String
  subject : String
  groups : List String := []
  deriving DecidableEq, Repr

/-- `DeliverInput`, with the payload encoded and the name of its encoding. -/
structure DeliverInput where
  workflowID : String
  gate : String
  caller : Caller
  claimsJSON : String := ""
  encodedPayload : String := ""
  serialization : String := ""
  deriving DecidableEq, Repr

/-! ### The tables -/

/-- A row of `workflow_gates`; `OpenGate` never writes NULL as the organisation or the step. -/
structure GateRow where
  workflowID : String
  gate : String
  org : String
  isOpen : Bool
  expiresAt : Option Int
  openedAt : Int
  closedAt : Option Int
  recvStepID : Int
  deriving DecidableEq, Repr

/-- A row of `workflow_gate_audience`. -/
structure AudienceRow where
  workflowID : String
  gate : String
  principal : GatePrincipal
  org : Option String
  deriving DecidableEq, Repr

/-- A row of `workflow_read_audience`. -/
structure ReadAudienceRow where
  workflowID : String
  principal : GatePrincipal
  org : Option String
  deriving DecidableEq, Repr

/-- A row of `workflow_gate_deliveries`, without the digest of the payload. -/
structure GateDeliveryRow where
  deliveryUUID : String
  workflowID : String
  gate : String
  bySubject : String
  byOrg : String
  claims : String
  messageUUID : Option String
  outcome : GateOutcome
  createdAt : Int
  deriving DecidableEq, Repr

structure GateDb where
  sys : Db
  gates : Table fun g : GateRow => (g.workflowID, g.gate)
  audience : Table fun a : AudienceRow => (a.workflowID, a.gate, a.principal)
  readAudience : Table fun r : ReadAudienceRow => (r.workflowID, r.principal)
  deliveries : Table GateDeliveryRow.deliveryUUID

namespace GateRow

/-- The `DO UPDATE` of `OpenGate`: every column but the key. -/
def reopen (excluded r : GateRow) : GateRow :=
  { excluded with workflowID := r.workflowID, gate := r.gate }

/-- The `UPDATE` of `CloseGate`. -/
def close (now : Int) (g : GateRow) : GateRow := { g with isOpen := false, closedAt := some now }

def expired (now : Int) (g : GateRow) : Bool := g.expiresAt.any (· ≤ now)

def isFor (workflowID gate : String) (g : GateRow) : Bool :=
  g.workflowID = workflowID && g.gate = gate

theorem key_reopen (excluded : GateRow) :
    ∀ r : GateRow, ((reopen excluded r).workflowID, (reopen excluded r).gate) = (r.workflowID, r.gate) :=
  fun _ => rfl

theorem key_close (now : Int) :
    ∀ g : GateRow, ((g.close now).workflowID, (g.close now).gate) = (g.workflowID, g.gate) :=
  fun _ => rfl

end GateRow

def AudienceRow.isFor (workflowID gate : String) (a : AudienceRow) : Bool :=
  a.workflowID = workflowID && a.gate = gate

theorem AudienceRow.isFor_iff {workflowID gate : String} {a : AudienceRow} :
    a.isFor workflowID gate = true ↔ a.workflowID = workflowID ∧ a.gate = gate := by
  simp [isFor]

/-! ### Opening and closing -/

/-- The row that `OpenGate` offers. -/
def GateSpec.row (g : GateSpec) (workflowID org : String) (recvStepID now : Int) : GateRow where
  workflowID := workflowID
  gate := g.name
  org := org
  isOpen := true
  expiresAt := g.expiresAt
  openedAt := now
  closedAt := none
  recvStepID := recvStepID

/-- The audience that `OpenGate` inserts. -/
def GateSpec.audienceRows (g : GateSpec) (workflowID org : String) : List AudienceRow :=
  g.audience.map fun p => ⟨workflowID, g.name, p, some org⟩

/-- The organisation of a gate: by default the tenant of its workflow. -/
def GateSpec.orgOf (g : GateSpec) (workflow : WorkflowRow) : String :=
  if g.org = "" then workflow.authenticatedUser.getD "" else g.org

namespace GateDb

variable (db : GateDb)

def gate? (workflowID gate : String) : Option GateRow := db.gates.find? (workflowID, gate)

/-- `OpenGate`. It fails if there is no workflow, or if the audience names a principal twice. -/
def openGate (workflowID : String) (recvStepID : Int) (g : GateSpec) (now : Int) : Option GateDb :=
  match db.sys.status.find? workflowID with
  | none => none
  | some workflow =>
    let org := g.orgOf workflow
    let row := g.row workflowID org recvStepID now
    if g.audience.Nodup then
      some { db with
        gates := db.gates.upsert (GateRow.reopen row) (GateRow.key_reopen row) row
        audience :=
          (db.audience.delete (·.isFor workflowID g.name)).insertMany (g.audienceRows workflowID org) }
    else none

/-- The `SELECT` of `CloseGate`: the audit row of a consumed message, if it has one. -/
def deliveryOf : Option String → String
  | none => ""
  | some messageUUID =>
    ((db.deliveries.rows.find? fun d => d.messageUUID = some messageUUID).map (·.deliveryUUID)).getD ""

/-- `CloseGate`, and the delivery that it returns. -/
def closeGate (workflowID gate : String) (messageUUID : Option String) (now : Int) : GateDb × String :=
  ({ db with
      gates := db.gates.update (·.isFor workflowID gate) (·.close now) (GateRow.key_close now) },
    db.deliveryOf messageUUID)

end GateDb

/-! ### Deliveries -/

/-- The message that `DeliverToGate` sends. -/
def DeliverInput.sendInput (i : DeliverInput) (messageUUID : String) : SendInput where
  destinationID := i.workflowID
  topic := gateTopic i.gate
  message := some i.encodedPayload
  serialization := i.serialization
  messageUUID := some messageUUID

/-- The audit row of a delivery; only one that is delivered names its message. -/
def DeliverInput.auditRow (i : DeliverInput) (outcome : GateOutcome) (deliveryID messageUUID : String)
    (now : Int) : GateDeliveryRow where
  deliveryUUID := deliveryID
  workflowID := i.workflowID
  gate := i.gate
  bySubject := i.caller.subject
  byOrg := i.caller.org
  claims := i.claimsJSON
  messageUUID := if outcome = .delivered then some messageUUID else none
  outcome := outcome
  createdAt := now

def Status.takesDeliveries : Status → Bool
  | .pending | .enqueued | .delayed => true
  | _ => false

/-- The `switch` of `DeliverToGate`. -/
def gateVerdict (status : Status) (gate : Option GateRow) (now : Int) : GateOutcome :=
  match gate with
  | none => .rejectedClosed
  | some g =>
    if !g.isOpen || g.expired now then .rejectedClosed
    else if !status.takesDeliveries then .rejectedClosed
    else .delivered

def Caller.admittedBy (caller : Caller) (p : GatePrincipal) : Bool :=
  match p.type with
  | .all => true
  | .user => p.principal = caller.subject
  | .group => p.principal ∈ caller.groups
  | .except | .initiator => false

def Caller.excludedBy (caller : Caller) (p : GatePrincipal) : Bool :=
  p.type = .except && p.principal = caller.subject

/-- `principalMatchClause`: initiator rows match like user rows. -/
def Caller.principalMatches (caller : Caller) (p : GatePrincipal) : Bool :=
  match p.type with
  | .all => true
  | .user | .initiator => p.principal = caller.subject
  | .group => p.principal ∈ caller.groups
  | .except => false

/-- A list of principals admits the caller and does not exclude it. -/
def Caller.matchesAudience (caller : Caller) (audience : List GatePrincipal) : Bool :=
  audience.any caller.admittedBy && !audience.any caller.excludedBy

namespace GateDb

variable (db : GateDb)

def audienceOf (workflowID gate : String) : List GatePrincipal :=
  (db.audience.rows.filter (·.isFor workflowID gate)).map (·.principal)

def audienceMatches (i : DeliverInput) : Bool :=
  i.caller.matchesAudience (db.audienceOf i.workflowID i.gate)

/-- The outcome that `DeliverToGate` comes to. -/
def deliverOutcome (i : DeliverInput) (now : Int) : Except GoError GateOutcome :=
  match db.sys.statusOf i.workflowID with
  | none => .error (newNonExistentWorkflowError i.workflowID)
  | some status =>
    match gateVerdict status (db.gate? i.workflowID i.gate) now with
    | .delivered => .ok (if db.audienceMatches i then .delivered else .rejectedAudience)
    | outcome => .ok outcome

/-- The identifiers that `DeliverToGate` draws, and its readings of the clock. -/
structure Drawn where
  deliveryID : String
  messageUUID : String
  now : Int
  sentAt : Int
  wokenAt : Int
  deriving DecidableEq, Repr

/-- The writes of `DeliverToGate`: the message, only if it is delivered, and the audit row. -/
def recordDelivery (i : DeliverInput) (outcome : GateOutcome) (d : Drawn) : GateDb :=
  { db with
    sys :=
      if outcome = .delivered then
        db.sys.send (i.sendInput d.messageUUID) d.messageUUID d.sentAt d.wokenAt
      else db.sys
    deliveries := db.deliveries.insert (i.auditRow outcome d.deliveryID d.messageUUID d.now) }

def deliverToGate (i : DeliverInput) (d : Drawn) : Except GoError (GateDb × GateOutcome × String) := do
  let outcome ← db.deliverOutcome i d.now
  return (db.recordDelivery i outcome d, outcome, d.deliveryID)

def ignoreDelivery (deliveryID : String) : GateDb :=
  { db with
    deliveries := db.deliveries.update
      (fun d => d.deliveryUUID = deliveryID && d.outcome = .delivered)
      (fun d => { d with outcome := .ignored }) (fun _ => rfl) }

/-! ### Who may see an instance -/

/-- `AddReadAudience`; the foreign key asks for the workflow as soon as a row is inserted. -/
def addReadAudience (workflowID org : String) (principals : List GatePrincipal) : Option GateDb :=
  if principals = [] then some db
  else if (db.sys.status.find? workflowID).isSome then
    some { db with
      readAudience := db.readAudience.insertMany (principals.map fun p => ⟨workflowID, p, some org⟩) }
  else none

/-- `org = $2 OR org IS NULL OR org = ''`. -/
def orgAdmits (org : Option String) (caller : Caller) : Bool :=
  org = some caller.org || org = none || org = some ""

def readAllowed (workflowID : String) (caller : Caller) : Bool :=
  (db.readAudience.rows.any fun r =>
    r.workflowID = workflowID && orgAdmits r.org caller && caller.principalMatches r.principal) ||
  db.audience.rows.any fun a =>
    a.workflowID = workflowID && orgAdmits a.org caller && caller.principalMatches a.principal

/-- The `WHERE` of `ListOpenGatesFor`. -/
def inboxShows (caller : Caller) (now : Int) (g : GateRow) : Bool :=
  g.org = caller.org && g.isOpen && !g.expired now &&
  (db.audienceOf g.workflowID g.gate).any caller.principalMatches &&
  !(db.audienceOf g.workflowID g.gate).any caller.excludedBy

/-- `ListOpenGatesFor`: one of the results that the database may return, newest first. -/
def ListOpenGatesFor (caller : Caller) (limit now : Int) (out : List GateRow) : Prop :=
  ∃ ordered, Table.OrderBy (fun g h => h.openedAt ≤ g.openedAt)
      (db.gates.rows.filter (db.inboxShows caller now)) ordered ∧
    out = Table.limit (some (if limit ≤ 0 then 50 else limit.toNat)) ordered

/-! ### Operations on `workflow_status` -/

/-- The read audience that `ForkWorkflows` copies. -/
def forkedAudience (entries : List ForkEntry) : List ReadAudienceRow :=
  entries.flatMap fun e =>
    (db.readAudience.rows.filter fun r => r.workflowID = e.originalID).map fun r =>
      { r with workflowID := e.forkedID }

/-- `ON DELETE CASCADE`: the rows of the gates whose workflow is gone. -/
def cascade : GateDb :=
  let gone (id : String) : Bool := (db.sys.status.find? id).isNone
  { db with
    gates := db.gates.delete fun g => gone g.workflowID
    audience := db.audience.delete fun a => gone a.workflowID
    readAudience := db.readAudience.delete fun r => gone r.workflowID
    deliveries := db.deliveries.delete fun d => gone d.workflowID }

/-- An operation on `workflow_status`: a fork copies the read audience, and a deletion takes the gates
with it. -/
def operate (op : Lifecycle.Operation) : Option GateDb :=
  (Lifecycle.step db.sys.status op).map fun status =>
    let copied : List ReadAudienceRow :=
      match op with
      | .forkWorkflows _ i _ => db.forkedAudience i.entries
      | _ => []
    cascade { db with
      sys := { db.sys with status := status }
      readAudience := db.readAudience.insertMany copied }

end GateDb

/-! ### What the functions do -/

theorem gateVerdict_eq_delivered {status : Status} {gate : Option GateRow} {now : Int} :
    gateVerdict status gate now = .delivered ↔
      status.takesDeliveries = true ∧ ∃ g, gate = some g ∧ g.isOpen = true ∧ g.expired now = false := by
  cases gate with
  | none => simp [gateVerdict]
  | some g =>
    cases hopen : g.isOpen <;> cases hexpired : g.expired now <;> cases hstatus : status.takesDeliveries <;>
      simp [gateVerdict, hopen, hexpired, hstatus]

theorem gateVerdict_cases (status : Status) (gate : Option GateRow) (now : Int) :
    gateVerdict status gate now = .delivered ∨ gateVerdict status gate now = .rejectedClosed := by
  unfold gateVerdict
  split
  · exact .inr rfl
  · split_ifs
    · exact .inr rfl
    · exact .inr rfl
    · exact .inl rfl

/-- The two ways to match a principal differ in the initiator. -/
theorem Caller.principalMatches_iff {caller : Caller} {p : GatePrincipal} :
    caller.principalMatches p = true ↔
      caller.admittedBy p = true ∨ p.type = .initiator ∧ p.principal = caller.subject := by
  cases htype : p.type <;> simp [principalMatches, admittedBy, htype]

namespace GateDb

variable {db db' : GateDb}

theorem mem_audienceOf {workflowID gate : String} {p : GatePrincipal} :
    p ∈ db.audienceOf workflowID gate ↔
      ∃ a ∈ db.audience.rows, a.workflowID = workflowID ∧ a.gate = gate ∧ a.principal = p := by
  simp only [audienceOf, List.mem_map, List.mem_filter, AudienceRow.isFor_iff, and_assoc]

theorem key_of_gate? {workflowID gate : String} {g : GateRow} (h : db.gate? workflowID gate = some g) :
    g.workflowID = workflowID ∧ g.gate = gate := by
  have hkey : (g.workflowID, g.gate) = (workflowID, gate) := Table.key_of_find? (t := db.gates) h
  simpa only [Prod.mk.injEq] using hkey

theorem gate?_closeGate (workflowID gate : String) (messageUUID : Option String) (now : Int)
    (id name : String) :
    (db.closeGate workflowID gate messageUUID now).1.gate? id name =
      (db.gate? id name).map fun g => if g.isFor workflowID gate then g.close now else g :=
  Table.find?_update _ _ _ (GateRow.key_close now) _

/-- What `OpenGate` leaves: the row of the gate, its audience, and everything else as it was. -/
structure Opened (db : GateDb) (workflowID : String) (recvStepID : Int) (g : GateSpec) (now : Int)
    (org : String) (db' : GateDb) : Prop where
  sys : db'.sys = db.sys
  gate : ∀ id name, db'.gate? id name =
    if id = workflowID ∧ name = g.name then some (g.row workflowID org recvStepID now)
    else db.gate? id name
  audience : ∀ a, a ∈ db'.audience.rows ↔
    a ∈ g.audienceRows workflowID org ∨ a ∈ db.audience.rows ∧ a.isFor workflowID g.name = false
  readAudience : db'.readAudience = db.readAudience
  deliveries : db'.deliveries = db.deliveries

theorem mem_audienceRows {g : GateSpec} {workflowID org : String} {a : AudienceRow} :
    a ∈ g.audienceRows workflowID org ↔
      a.workflowID = workflowID ∧ a.gate = g.name ∧ a.org = some org ∧ a.principal ∈ g.audience := by
  obtain ⟨id, gate, principal, o⟩ := a
  simp only [GateSpec.audienceRows, List.mem_map, AudienceRow.mk.injEq]
  constructor
  · rintro ⟨p, hp, rfl, rfl, rfl, rfl⟩
    exact ⟨rfl, rfl, rfl, hp⟩
  · rintro ⟨rfl, rfl, rfl, hp⟩
    exact ⟨principal, hp, rfl, rfl, rfl, rfl⟩

theorem openGate_cases {workflowID : String} {recvStepID : Int} {g : GateSpec} {now : Int}
    (h : db.openGate workflowID recvStepID g now = some db') :
    ∃ workflow, db.sys.status.find? workflowID = some workflow ∧
      Opened db workflowID recvStepID g now (g.orgOf workflow) db' := by
  unfold openGate at h
  split at h
  · cases h
  next workflow hworkflow =>
    refine ⟨workflow, hworkflow, ?_⟩
    simp only [Option.ite_none_right_eq_some, Option.some.injEq] at h
    obtain ⟨-, rfl⟩ := h
    refine ⟨rfl, fun id name => ?_, fun a => ?_, rfl, rfl⟩
    · simp only [gate?, Table.find?_upsert, GateSpec.row, Prod.mk.injEq]
      by_cases hkey : id = workflowID ∧ name = g.name
      · obtain ⟨rfl, rfl⟩ := hkey
        cases hfind : db.gates.find? (id, g.name) with
        | none => simp
        | some r =>
          have hr := Table.key_of_find? hfind
          simp only [Prod.mk.injEq] at hr
          simp [GateRow.reopen, hr]
      · rw [if_neg hkey, if_neg fun h => hkey ⟨h.1.symm, h.2.symm⟩]
    · have hfor : ∀ r ∈ g.audienceRows workflowID (g.orgOf workflow), r.isFor workflowID g.name = true :=
        fun r hr => AudienceRow.isFor_iff.2 ⟨(mem_audienceRows.1 hr).1, (mem_audienceRows.1 hr).2.1⟩
      rw [Table.mem_insertMany]
      · simp [Table.delete, or_comm]
      · -- what is left of the old audience is of other gates
        intro r hr y hy hkey
        simp only [Prod.mk.injEq] at hkey
        have hy := (List.mem_filter.1 hy).2
        have := AudienceRow.isFor_iff.1 (hfor r hr)
        simp [AudienceRow.isFor, hkey, this] at hy
      · intro r hr r' hr' hkey
        obtain ⟨_, _, horg, _⟩ := mem_audienceRows.1 hr
        obtain ⟨_, _, horg', _⟩ := mem_audienceRows.1 hr'
        simp only [Prod.mk.injEq] at hkey
        obtain ⟨id, gate, principal, org⟩ := r
        obtain ⟨id', gate', principal', org'⟩ := r'
        simp_all

theorem Opened.mem_audienceOf {workflowID : String} {recvStepID : Int} {g : GateSpec} {now : Int}
    {org : String} (h : Opened db workflowID recvStepID g now org db') {p : GatePrincipal} :
    p ∈ db'.audienceOf workflowID g.name ↔ p ∈ g.audience := by
  rw [GateDb.mem_audienceOf]
  constructor
  · rintro ⟨a, ha, hid, hgate, rfl⟩
    rcases (h.audience a).1 ha with ha | ⟨-, ha⟩
    · exact (mem_audienceRows.1 ha).2.2.2
    · rw [AudienceRow.isFor_iff.2 ⟨hid, hgate⟩] at ha
      cases ha
  · intro hp
    exact ⟨⟨workflowID, g.name, p, some org⟩,
      (h.audience _).2 (.inl (mem_audienceRows.2 ⟨rfl, rfl, rfl, hp⟩)), rfl, rfl, rfl⟩

/-- A delivery is delivered by an open, unexpired gate of a workflow that is not over, to a caller
whom the audience admits. -/
theorem deliverOutcome_eq_delivered {i : DeliverInput} {now : Int} :
    db.deliverOutcome i now = .ok .delivered ↔
      (∃ g, db.gate? i.workflowID i.gate = some g ∧ g.isOpen = true ∧ g.expired now = false) ∧
      (db.sys.statusOf i.workflowID).any Status.takesDeliveries = true ∧
      db.audienceMatches i = true := by
  unfold deliverOutcome
  split
  next hstatus => simp [hstatus]
  next status hstatus =>
    rw [hstatus, Option.any_some]
    rcases gateVerdict_cases status (db.gate? i.workflowID i.gate) now with hverdict | hverdict
    · obtain ⟨htakes, hgate⟩ := gateVerdict_eq_delivered.1 hverdict
      cases hmatch : db.audienceMatches i <;> simp [hverdict, htakes, hgate]
    · simp only [hverdict, Except.ok.injEq, reduceCtorEq, false_iff]
      rintro ⟨hgate, htakes, -⟩
      rw [gateVerdict_eq_delivered.2 ⟨htakes, hgate⟩] at hverdict
      cases hverdict

theorem deliverToGate_of_deliverOutcome {i : DeliverInput} {d : Drawn} {outcome : GateOutcome}
    (h : db.deliverOutcome i d.now = .ok outcome) :
    db.deliverToGate i d = .ok (db.recordDelivery i outcome d, outcome, d.deliveryID) := by
  rw [deliverToGate, h]
  rfl

theorem deliverToGate_eq_ok {i : DeliverInput} {d : Drawn} {outcome : GateOutcome} {deliveryID : String}
    (h : db.deliverToGate i d = .ok (db', outcome, deliveryID)) :
    db.deliverOutcome i d.now = .ok outcome ∧ db' = db.recordDelivery i outcome d ∧
      deliveryID = d.deliveryID := by
  cases houtcome : db.deliverOutcome i d.now with
  | error err =>
    rw [deliverToGate, houtcome] at h
    cases h
  | ok o =>
    rw [deliverToGate_of_deliverOutcome houtcome] at h
    cases h
    exact ⟨rfl, rfl, rfl⟩

end GateDb

end Dbos
