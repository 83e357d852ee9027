import DbosTransact.Lib.Transition
import DbosTransact.SysDb.Gates

/-!
# Who may act on a gate, and who sees it

`DeliverToGate` matches the audience of a gate without regard to the organisation of the caller, while
`ReadAllowed` and `ListOpenGatesFor` are scoped to it. The inbox differs from the deliveries in two more
ways: it does not ask for the status of the workflow, and it takes the rows of an initiator.
-/

namespace Dbos.Access

open Relational Lts

inductive Action
  | openGate (workflowID : String) (recvStepID : Int) (g : GateSpec) (now : Int)
  | closeGate (workflowID gate : String) (messageUUID : Option String) (now : Int)
  | deliverToGate (i : DeliverInput) (d : GateDb.Drawn)
  | ignoreDelivery (deliveryID : String)
  | addReadAudience (workflowID org : String) (principals : List GatePrincipal)
  | operate (op : Lifecycle.Operation)
  deriving DecidableEq, Repr

def step (db : GateDb) : Action → Option GateDb
  | .openGate workflowID recvStepID g now => db.openGate workflowID recvStepID g now
  | .closeGate workflowID gate messageUUID now => some (db.closeGate workflowID gate messageUUID now).1
  | .deliverToGate i d => (db.deliverToGate i d).toOption.map (·.1)
  | .ignoreDelivery deliveryID => some (db.ignoreDelivery deliveryID)
  | .addReadAudience workflowID org principals => db.addReadAudience workflowID org principals
  | .operate op => db.operate op

def initial : GateDb :=
  ⟨⟨.empty, .empty, .empty, .empty, .empty, .empty⟩, .empty, .empty, .empty, .empty⟩

def system : System GateDb Action where
  init db := db = initial
  step := step

/-! ### The organisation of an audience -/

/-- Every row of an audience belongs to a gate, and carries its organisation. -/
def Scoped (db : GateDb) : Prop :=
  ∀ a ∈ db.audience.rows, ∃ g, db.gate? a.workflowID a.gate = some g ∧ a.org = some g.org

variable {db db' : GateDb}

theorem scoped_openGate {workflowID : String} {recvStepID : Int} {g : GateSpec} {now : Int}
    (h : Scoped db) (hopen : db.openGate workflowID recvStepID g now = some db') : Scoped db' := by
  obtain ⟨workflow, -, hopened⟩ := GateDb.openGate_cases hopen
  intro a ha
  rw [hopened.gate]
  rcases (hopened.audience a).1 ha with ha | ⟨ha, hother⟩
  · obtain ⟨hid, hgate, horg, -⟩ := GateDb.mem_audienceRows.1 ha
    exact ⟨_, if_pos ⟨hid, hgate⟩, horg⟩
  · rw [if_neg fun hkey => by simp [AudienceRow.isFor, hkey] at hother]
    exact h a ha

theorem scoped_closeGate (h : Scoped db) (workflowID gate : String) (messageUUID : Option String)
    (now : Int) : Scoped (db.closeGate workflowID gate messageUUID now).1 := by
  intro a ha
  obtain ⟨g, hg, horg⟩ := h a ha
  rw [GateDb.gate?_closeGate, hg]
  refine ⟨_, rfl, ?_⟩
  dsimp only
  split_ifs
  · exact horg
  · exact horg

theorem scoped_cascade (h : Scoped db) : Scoped db.cascade := by
  intro a ha
  obtain ⟨ha, hgone⟩ := List.mem_filter.1 ha
  obtain ⟨g, hg, horg⟩ := h a ha
  refine ⟨g, ?_, horg⟩
  show (db.gates.delete _).find? _ = _
  rw [Table.find?_delete, show db.gates.find? (a.workflowID, a.gate) = some g from hg]
  simpa [GateDb.key_of_gate? hg] using hgone

theorem scoped_step {a : Action} (h : Scoped db) (hstep : step db a = some db') : Scoped db' := by
  cases a with
  | openGate workflowID recvStepID g now => exact scoped_openGate h hstep
  | closeGate workflowID gate messageUUID now =>
    cases hstep
    exact scoped_closeGate h workflowID gate messageUUID now
  | deliverToGate i d =>
    cases hdeliver : db.deliverToGate i d with
    | error err => simp [step, hdeliver, Except.toOption] at hstep
    | ok r =>
      obtain ⟨db₁, outcome, deliveryID⟩ := r
      obtain rfl : db₁ = db' := by simpa [step, hdeliver, Except.toOption] using hstep
      obtain ⟨-, rfl, -⟩ := GateDb.deliverToGate_eq_ok hdeliver
      exact h
  | ignoreDelivery deliveryID =>
    cases hstep
    exact h
  | addReadAudience workflowID org principals =>
    simp only [step, GateDb.addReadAudience] at hstep
    split_ifs at hstep
    · cases hstep
      exact h
    · cases hstep
      exact h
  | operate op =>
    obtain ⟨status, -, rfl⟩ := Option.map_eq_some_iff.1 hstep
    exact scoped_cascade h

theorem scoped_of_reaches (h : Reaches system (fun _ _ => True) db) : Scoped db :=
  h.invariant (I := Scoped) (fun _ hinit => by subst hinit; exact fun a ha => by cases ha)
    fun _ _ _ hs _ hstep => scoped_step hs hstep

/-! ### Deliveries across organisations -/

/-- What is delivered to a gate of the organisation comes from it, and from a caller who may see the
instance, before and after. -/
def Isolated (db : GateDb) (i : DeliverInput) (d : GateDb.Drawn) (org : String) : Prop :=
  ∀ db' deliveryID, db.deliverToGate i d = .ok (db', .delivered, deliveryID) →
    i.caller.org = org ∧ db.readAllowed i.workflowID i.caller = true ∧
      db'.readAllowed i.workflowID i.caller = true

/-- Whom an audience admits to a gate of its organisation, the audience lets see the instance. -/
theorem readAllowed_of_audienceMatches (h : Scoped db) {i : DeliverInput} {g : GateRow}
    (hg : db.gate? i.workflowID i.gate = some g) (horg : i.caller.org = g.org)
    (hmatch : db.audienceMatches i = true) : db.readAllowed i.workflowID i.caller = true := by
  obtain ⟨p, hp, hadmit⟩ := List.any_eq_true.1 (Bool.and_eq_true_iff.1 hmatch).1
  obtain ⟨a, ha, hid, hgate, rfl⟩ := GateDb.mem_audienceOf.1 hp
  obtain ⟨g', hg', haorg⟩ := h a ha
  rw [hid, hgate, hg] at hg'
  cases hg'
  have hmatches : i.caller.principalMatches a.principal = true :=
    Caller.principalMatches_iff.2 (.inl hadmit)
  refine Bool.or_eq_true_iff.2 (.inr (List.any_eq_true.2 ⟨a, ha, ?_⟩))
  simp [hid, GateDb.orgAdmits, haorg, horg, hmatches]

section Tenants

/-- A workflow of the tenant `acme` opens a gate to everyone. -/
def openToAll : List Action :=
  [.operate (.insertWorkflowStatus ""
      { workflowID := "w", status := .pending, name := "f", authenticatedUser := "acme" }),
    .openGate "w" 0 { name := "approve", audience := [⟨.all, "*"⟩] } 10]

def deliveryFrom (org : String) : DeliverInput where
  workflowID := "w"
  gate := "approve"
  caller := { org := org, subject := "ann" }

theorem exists_openToAll (p : GateDb → Bool) (h : (exec system initial openToAll).any p = true) :
    ∃ db, Reaches system (fun _ _ => True) db ∧ p db = true :=
  exists_reaches (S := system) (fun _ _ => True) (s := initial) openToAll p rfl (fun _ _ => trivial) h

end Tenants

/-! ### The inbox -/

theorem mem_of_listOpenGatesFor {caller : Caller} {limit now : Int} {out : List GateRow}
    (h : db.ListOpenGatesFor caller limit now out) (hlimit : (db.gates.rows.length : Int) ≤ limit)
    {g : GateRow} : g ∈ out ↔ g ∈ db.gates.rows ∧ db.inboxShows caller now g = true := by
  obtain ⟨ordered, ⟨hperm, -⟩, rfl⟩ := h
  have hlength : ordered.length ≤ if limit ≤ 0 then 50 else limit.toNat := by
    have hle : ordered.length ≤ db.gates.rows.length :=
      hperm.length_eq ▸ List.length_filter_le _ _
    split_ifs <;> omega
  rw [Table.limit, List.take_of_length_le hlength, hperm.mem_iff, List.mem_filter]

def Listed (out : List GateRow) (workflowID gate : String) : Prop :=
  ∃ g ∈ out, g.workflowID = workflowID ∧ g.gate = gate

theorem listed_iff {caller : Caller} {limit now : Int} {out : List GateRow}
    (h : db.ListOpenGatesFor caller limit now out) (hlimit : (db.gates.rows.length : Int) ≤ limit)
    {workflowID gate : String} : Listed out workflowID gate ↔
      ∃ g, db.gate? workflowID gate = some g ∧ db.inboxShows caller now g = true := by
  constructor
  · rintro ⟨g, hg, rfl, rfl⟩
    obtain ⟨hrow, hshows⟩ := (mem_of_listOpenGatesFor h hlimit).1 hg
    exact ⟨g, Table.find?_of_mem hrow, hshows⟩
  · rintro ⟨g, hg, hshows⟩
    exact ⟨g, (mem_of_listOpenGatesFor h hlimit).2 ⟨Table.mem_of_find? hg, hshows⟩,
      GateDb.key_of_gate? hg⟩

/-- **The condition.** The gate is of the caller's organisation, its workflow is not over while it is
open, and the caller is not named as an initiator in its audience. -/
structure InScope (db : GateDb) (i : DeliverInput) : Prop where
  sameOrg : ∀ g, db.gate? i.workflowID i.gate = some g → g.org = i.caller.org
  live : ∀ g, db.gate? i.workflowID i.gate = some g → g.isOpen = true →
    (db.sys.statusOf i.workflowID).any Status.takesDeliveries = true
  noInitiator : ∀ p ∈ db.audienceOf i.workflowID i.gate, p.type = .initiator →
    p.principal ≠ i.caller.subject

/-- Without initiators the two ways to match an audience agree. -/
theorem InScope.any_principalMatches {i : DeliverInput} (h : InScope db i) :
    (db.audienceOf i.workflowID i.gate).any i.caller.principalMatches =
      (db.audienceOf i.workflowID i.gate).any i.caller.admittedBy := by
  rw [Bool.eq_iff_iff, List.any_eq_true, List.any_eq_true]
  refine exists_congr fun p => and_congr_right fun hp => ?_
  rw [Caller.principalMatches_iff]
  exact or_iff_left fun hinitiator => h.noInitiator p hp hinitiator.1 hinitiator.2

section Inboxes

def inbox (db : GateDb) (org : String) (out : List GateRow) : Prop :=
  db.ListOpenGatesFor (deliveryFrom org).caller 10 20 out ∧ (db.gates.rows.length : Int) ≤ 10

end Inboxes

end Dbos.Access
