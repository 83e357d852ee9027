import DbosTransact.Debounce.Call
import DbosTransact.Lib.Transition

/-!
# Debounce targets

A second call of `Debounce`, on the queue of a first one whose workflow is pending. Between its
transactions the table changes in any way that leaves that workflow pending. A transaction is
`Independent` of it if it leaves its row alone, returns no handle to it, and comes to the same without it.
The separators may occur in the names, so different targets can have the same deduplication ID.
-/

namespace Dbos

open Lts Relational

namespace Debounce

/-- Two calls on one queue, the workflow pending for the first, and the application of the second. -/
structure Targets where
  first : Call
  second : Call
  sameQueue : first.queueName = second.queueName
  pendingID : String
  appName : String

def Pending (cfg : Targets) (t : StatusTable) : Bool :=
  (t.find? cfg.pendingID).any fun r =>
    r.status = .delayed && r.isDebounced && r.name = cfg.first.debouncer.workflowName &&
    holds cfg.first.queueName cfg.first.deduplicationID r

structure State where
  table : StatusTable
  phase : Phase

inductive Action
  | bounce (calledAt now : Int)
  | enqueue (workflowID : String) (clock : Clock)
  | environment (table : StatusTable)

namespace Action

def ofCall : Action → Bool
  | .environment _ => false
  | _ => true

def isBounce : Action → Bool
  | .bounce _ _ => true
  | _ => false

def workflowID? : Action → Option String
  | .enqueue workflowID _ => some workflowID
  | _ => none

end Action

def step (cfg : Targets) (s : State) : Action → Option State
  | .bounce calledAt now =>
    match s.phase with
    | .bouncing =>
      let after := bounce cfg.second cfg.appName calledAt now s.table
      some ⟨after.1, after.2⟩
    | _ => none
  | .enqueue workflowID clock =>
    match s.phase with
    | .enqueueing =>
      let after := enqueue cfg.second cfg.appName workflowID clock s.table
      some ⟨after.1, after.2⟩
    | _ => none
  | .environment t => if SlotUnique t ∧ Pending cfg t then some ⟨t, s.phase⟩ else none

def system (cfg : Targets) : System State Action where
  init s := SlotUnique s.table ∧ Pending cfg s.table = true ∧ s.phase = .bouncing
  step := step cfg

def erase (id : String) (s : State) : State := ⟨s.table.delete (·.workflowID = id), s.phase⟩

/-- The transaction does not depend on the pending workflow, and does nothing to it. -/
def Independent (cfg : Targets) (x : Transition State Action) : Prop :=
  x.post.table.find? cfg.pendingID = x.pre.table.find? cfg.pendingID ∧
  x.post.phase ≠ .returned (.ok cfg.pendingID) ∧
  step cfg (erase cfg.pendingID x.pre) x.act = some (erase cfg.pendingID x.post)

/-- The handle names a workflow that is pending with the input of the call. -/
def OwnPending (cfg : Targets) (x : Transition State Action) : Prop :=
  ∀ id, x.post.phase = .returned (.ok id) → ∃ r, x.post.table.find? id = some r ∧
    r.status = .delayed ∧ r.inputs = cfg.second.inputs ∧
    r.serialization = some cfg.second.serialization

/-! ### The transactions -/

variable {cfg : Targets} {t : StatusTable}

theorem exists_pending (h : Pending cfg t = true) : ∃ r, t.find? cfg.pendingID = some r ∧ r ∈ t.rows ∧
    r.isDebounced = true ∧ holds cfg.second.queueName cfg.first.deduplicationID r = true := by
  obtain ⟨r, hr, hpending⟩ := (Option.any_eq_true _ _).1 h
  simp only [Bool.and_eq_true] at hpending
  exact ⟨r, hr, Table.mem_of_find? hr, hpending.1.1.2, cfg.sameQueue ▸ hpending.2⟩

theorem holds_pending {r x : WorkflowRow} (hr : t.find? cfg.pendingID = some r)
    (hholds : holds cfg.second.queueName cfg.first.deduplicationID r = true)
    (hne : cfg.first.deduplicationID ≠ cfg.second.deduplicationID) (hx : x ∈ t.rows)
    (hid : x.workflowID = cfg.pendingID) :
    holds cfg.second.queueName cfg.second.deduplicationID x = false := by
  have hxr : x = r := Table.eq_of_find? hr hx hid
  by_contra hsecond
  simp only [holds, Bool.and_eq_true, decide_eq_true_eq, Bool.not_eq_false] at hholds hsecond
  rw [hxr, hholds.2] at hsecond
  exact hne (Option.some.inj hsecond.2)

theorem bounce_erase (hpending : Pending cfg t = true)
    (hne : cfg.first.deduplicationID ≠ cfg.second.deduplicationID) (calledAt now : Int) :
    bounce cfg.second cfg.appName calledAt now (t.delete (·.workflowID = cfg.pendingID)) =
      ((bounce cfg.second cfg.appName calledAt now t).1.delete (·.workflowID = cfg.pendingID),
        (bounce cfg.second cfg.appName calledAt now t).2) := by
  obtain ⟨r, hr, -, -, hholds⟩ := exists_pending hpending
  have hresult := debounceResult_delete (p := (·.workflowID = cfg.pendingID))
    (i := cfg.second.bounceInput calledAt)
    (fun x hx hid => holds_pending hr hholds hne hx (of_decide_eq_true hid)) cfg.appName
  unfold bounce
  rw [hresult]
  refine Prod.ext ?_ rfl
  simp only [StatusTable.debounceDelayedWorkflow]
  rw [Table.delete_update]
  exact fun _ => rfl

theorem find?_bounce (hpending : Pending cfg t = true)
    (hne : cfg.first.deduplicationID ≠ cfg.second.deduplicationID) (calledAt now : Int) :
    (bounce cfg.second cfg.appName calledAt now t).1.find? cfg.pendingID = t.find? cfg.pendingID := by
  obtain ⟨r, hr, hmem, -, hholds⟩ := exists_pending hpending
  have hnot := holds_pending hr hholds hne hmem (Table.key_of_find? hr)
  have hd : StatusTable.debounceable (cfg.second.bounceInput calledAt) cfg.appName r = false := by
    by_contra hd
    exact absurd ((holds_of_debounceable (Bool.eq_true_of_not_eq_false hd)).symm.trans hnot) (by simp)
  simp only [bounce, StatusTable.debounceDelayedWorkflow, Table.find?_update, hr, Option.map_some, hd]
  rfl

/-- If the deduplication IDs are the same, the bounce depends on the pending workflow: it returns a
handle to it, or it does not go on to enqueue as it would without it. -/
theorem bounce_of_eq (hunique : SlotUnique t) (hpending : Pending cfg t = true)
    (heq : cfg.first.deduplicationID = cfg.second.deduplicationID) (calledAt now : Int) :
    (bounce cfg.second cfg.appName calledAt now t).2 = .returned (.ok cfg.pendingID) ∨
    (bounce cfg.second cfg.appName calledAt now t).2 ≠
      (bounce cfg.second cfg.appName calledAt now (t.delete (·.workflowID = cfg.pendingID))).2 := by
  obtain ⟨r, hr, hmem, -, hholds⟩ := exists_pending hpending
  rw [heq] at hholds
  have hid : r.workflowID = cfg.pendingID := Table.key_of_find? hr
  have hsame : ∀ x ∈ t.rows, holds cfg.second.queueName cfg.second.deduplicationID x = true → x = r :=
    fun x hx hx' => hunique.eq hx hmem hx' hholds
  -- without the pending workflow nobody holds the deduplication ID
  have hfree : (t.delete (·.workflowID = cfg.pendingID)).rows.find?
      (holds cfg.second.queueName cfg.second.deduplicationID) = none := by
    rw [List.find?_eq_none]
    intro x hx hx'
    obtain ⟨hx, hne⟩ := List.mem_filter.1 hx
    rw [hsame x hx hx'] at hne
    simp [hid] at hne
  have hnone : (t.delete (·.workflowID = cfg.pendingID)).rows.find?
      (StatusTable.debounceable (cfg.second.bounceInput calledAt) cfg.appName) = none := by
    rw [List.find?_eq_none] at hfree ⊢
    exact fun x hx hd => hfree x hx (holds_of_debounceable hd)
  cases hfind : t.rows.find?
      (StatusTable.debounceable (cfg.second.bounceInput calledAt) cfg.appName) with
  | some x =>
    have hx := hsame x (List.mem_of_find?_eq_some hfind)
      (holds_of_debounceable (List.find?_some hfind))
    exact .inl (by rw [← hid, ← hx]; exact afterBounce_of_find? hfind)
  | none =>
    right
    obtain ⟨x, hx⟩ : ∃ x, t.rows.find? (holds cfg.second.queueName cfg.second.deduplicationID) =
        some x := by
      rw [← Option.isSome_iff_exists, List.find?_isSome]
      exact ⟨r, hmem, hholds⟩
    have herased := afterBounce_of_free (c := cfg.second) hnone hfree
    unfold bounce
    rw [herased]
    rcases afterBounce_of_held hfind hx with hb | ⟨e, hb⟩ <;> simp [hb]

theorem enqueue_erase (hpending : Pending cfg t = true)
    (hne : cfg.first.deduplicationID ≠ cfg.second.deduplicationID) {workflowID : String}
    (hid : workflowID ≠ cfg.pendingID) (clock : Clock) :
    enqueue cfg.second cfg.appName workflowID clock (t.delete (·.workflowID = cfg.pendingID)) =
      ((enqueue cfg.second cfg.appName workflowID clock t).1.delete (·.workflowID = cfg.pendingID),
        (enqueue cfg.second cfg.appName workflowID clock t).2) := by
  obtain ⟨r, hr, -, -, hholds⟩ := exists_pending hpending
  have hkey : ∀ x : WorkflowRow, x.workflowID = (cfg.second.row cfg.appName workflowID clock).workflowID →
      decide (x.workflowID = cfg.pendingID) = false := by
    intro x hx
    exact decide_eq_false fun hp => hid (hx.symm.trans hp)
  have hslot : (StatusTable.toDb (t.delete (·.workflowID = cfg.pendingID))).slotHeld
      (cfg.second.row cfg.appName workflowID clock) =
      t.toDb.slotHeld (cfg.second.row cfg.appName workflowID clock) := by
    rw [slotHeld_row, slotHeld_row, Table.find?_rows_delete]
    exact fun x hx hpid => holds_pending hr hholds hne hx (of_decide_eq_true hpid)
  have hfind : (StatusTable.toDb (t.delete (·.workflowID = cfg.pendingID))).status.find?
      (cfg.second.row cfg.appName workflowID clock).workflowID =
      t.toDb.status.find? (cfg.second.row cfg.appName workflowID clock).workflowID :=
    Table.find?_delete_of_key hkey
  have hinsert : (StatusTable.toDb (t.delete (·.workflowID = cfg.pendingID))).insertWorkflowStatus
      (cfg.second.row cfg.appName workflowID clock) =
      t.toDb.insertWorkflowStatus (cfg.second.row cfg.appName workflowID clock) := by
    unfold Db.insertWorkflowStatus
    rw [hfind, hslot]
  unfold enqueue
  split_ifs
  · rfl
  · unfold StatusTable.insertWorkflowStatus
    rw [← Call.row, hinsert]
    cases t.toDb.insertWorkflowStatus (cfg.second.row cfg.appName workflowID clock) with
    | error e => rfl
    | ok u =>
      refine Prod.ext ?_ rfl
      dsimp only
      rw [Table.delete_upsert t ?_ hkey]
      exact fun _ => rfl

theorem find?_enqueue {workflowID : String} (hid : workflowID ≠ cfg.pendingID) (clock : Clock) :
    (enqueue cfg.second cfg.appName workflowID clock t).1.find? cfg.pendingID =
      t.find? cfg.pendingID := by
  unfold enqueue StatusTable.insertWorkflowStatus
  split_ifs
  · rfl
  · rw [← Call.row]
    cases t.toDb.insertWorkflowStatus (cfg.second.row cfg.appName workflowID clock) with
    | error e => rfl
    | ok u => exact (Table.find?_upsert _ _ _ _ _).trans (if_neg hid)

theorem eq_of_enqueue_returned {c : Call} {appName workflowID id : String} {clock : Clock}
    (h : (enqueue c appName workflowID clock t).2 = .returned (.ok id)) : workflowID = id := by
  unfold enqueue at h
  split_ifs at h
  · cases h
  · split at h
    · simpa using h
    · unfold afterError at h
      split_ifs at h
      cases h

theorem enqueue_of_pendingID (hpending : Pending cfg t = true)
    (hname : cfg.second.debouncer.workflowName ≠ "") (clock : Clock) :
    (enqueue cfg.second cfg.appName cfg.pendingID clock t).2 = .returned (.ok cfg.pendingID) ∨
    (enqueue cfg.second cfg.appName cfg.pendingID clock t).2 ≠
      (enqueue cfg.second cfg.appName cfg.pendingID clock
        (t.delete (·.workflowID = cfg.pendingID))).2 := by
  obtain ⟨r, hr, -, -, -⟩ := exists_pending hpending
  have hnew : (t.delete (·.workflowID = cfg.pendingID)).find? cfg.pendingID = none := by
    rw [Table.find?_delete, hr]
    simp [Option.filter, Table.key_of_find? hr]
  refine (enqueue_of_exists hname hr).imp_right ?_
  rintro ⟨e, he⟩
  rw [he]
  cases hheld : (t.delete (·.workflowID = cfg.pendingID)).rows.find?
      (holds cfg.second.queueName cfg.second.deduplicationID) with
  | none => simp [enqueue_of_free hname hnew hheld]
  | some x => simp [enqueue_of_held hname hnew (by rw [hheld]; rfl)]

/-! ### Whole runs -/

structure Inv (cfg : Targets) (s : State) : Prop where
  unique : SlotUnique s.table
  pending : Pending cfg s.table = true

theorem Inv.bounce {s : State} (h : Inv cfg s) (calledAt now : Int) (phase : Phase) :
    Inv cfg ⟨(bounce cfg.second cfg.appName calledAt now s.table).1, phase⟩ where
  unique := by
    apply h.unique.update <;> exact fun _ => rfl
  pending := by
    have hpending := h.pending
    simp only [Pending, Debounce.bounce, StatusTable.debounceDelayedWorkflow, Table.find?_update] at hpending ⊢
    cases hr : s.table.find? cfg.pendingID with
    | none => simp [hr] at hpending
    | some r =>
      rw [hr] at hpending
      simp only [Option.map_some, Option.any_some] at hpending ⊢
      split_ifs <;> exact hpending

theorem slot_of_insert {c : Call} {appName workflowID : String} {clock : Clock} {u : Unit}
    (h : t.toDb.insertWorkflowStatus (c.row appName workflowID clock) = .ok u)
    (hnew : t.find? workflowID = none) : t.rows.find? (holds c.queueName c.deduplicationID) = none := by
  have hnew' : t.toDb.status.find? (c.row appName workflowID clock).workflowID = none := hnew
  simp only [Db.insertWorkflowStatus, hnew', slotHeld_row] at h
  split_ifs at h with hheld
  simpa using hheld

theorem Inv.enqueue {s : State} (h : Inv cfg s) (workflowID : String) (clock : Clock) (phase : Phase) :
    Inv cfg ⟨(enqueue cfg.second cfg.appName workflowID clock s.table).1, phase⟩ := by
  unfold Debounce.enqueue StatusTable.insertWorkflowStatus
  split_ifs
  · exact ⟨h.unique, h.pending⟩
  · rw [← Call.row]
    cases hinsert : s.table.toDb.insertWorkflowStatus (cfg.second.row cfg.appName workflowID clock) with
    | error e => exact ⟨h.unique, h.pending⟩
    | ok u =>
      obtain ⟨r, hr, hpending⟩ := (Option.any_eq_true _ _).1 h.pending
      constructor
      · dsimp only
        unfold Table.upsert
        split_ifs with hfound
        · apply h.unique.update <;> exact fun _ => rfl
        · exact h.unique.insert (cfg.second.slot_row cfg.appName workflowID clock)
            (slot_of_insert hinsert (Option.not_isSome_iff_eq_none.1 hfound))
      · simp only [Pending, Table.find?_upsert, hr]
        split_ifs <;> exact hpending

theorem Inv.step {s u : State} {a : Action} (h : Inv cfg s) (hstep : step cfg s a = some u) :
    Inv cfg u := by
  cases a with
  | bounce calledAt now =>
    simp only [Debounce.step] at hstep
    split at hstep
    · cases hstep
      exact h.bounce calledAt now _
    · cases hstep
  | enqueue workflowID clock =>
    simp only [Debounce.step] at hstep
    split at hstep
    · cases hstep
      exact h.enqueue workflowID clock _
    · cases hstep
  | environment u =>
    simp only [Debounce.step] at hstep
    split_ifs at hstep with hu
    cases hstep
    exact ⟨hu.1, hu.2⟩

theorem inv_of_reaches {s : State} {C : State → Action → Prop} (h : Reaches (system cfg) C s) :
    Inv cfg s :=
  Reaches.invariant (S := system cfg) (I := Inv cfg) (fun _ hs => ⟨hs.1, hs.2.1⟩)
    (fun _ _ _ hI _ hstep => hI.step hstep) h

theorem step_bounce {s u : State} {calledAt now : Int} (h : step cfg s (.bounce calledAt now) = some u) :
    s.phase = .bouncing ∧ u = ⟨(bounce cfg.second cfg.appName calledAt now s.table).1,
      (bounce cfg.second cfg.appName calledAt now s.table).2⟩ := by
  simp only [step] at h
  split at h
  · exact ⟨‹_›, (Option.some.inj h).symm⟩
  · cases h

theorem step_enqueue {s u : State} {workflowID : String} {clock : Clock}
    (h : step cfg s (.enqueue workflowID clock) = some u) :
    s.phase = .enqueueing ∧ u = ⟨(enqueue cfg.second cfg.appName workflowID clock s.table).1,
      (enqueue cfg.second cfg.appName workflowID clock s.table).2⟩ := by
  simp only [step] at h
  split at h
  · exact ⟨‹_›, (Option.some.inj h).symm⟩
  · cases h

theorem independent_bounce {s u : State} {calledAt now : Int} (h : Inv cfg s)
    (hstep : step cfg s (.bounce calledAt now) = some u)
    (hne : cfg.first.deduplicationID ≠ cfg.second.deduplicationID) :
    Independent cfg ⟨s, .bounce calledAt now, u⟩ := by
  obtain ⟨hphase, rfl⟩ := step_bounce hstep
  refine ⟨find?_bounce h.pending hne calledAt now, fun hreturned => ?_, ?_⟩
  · obtain ⟨x, hx, hd, hid⟩ := of_afterBounce_returned hreturned
    obtain ⟨r, hr, -, -, hholds⟩ := exists_pending h.pending
    have hnot := holds_pending hr hholds hne hx hid
    exact absurd ((holds_of_debounceable hd).symm.trans hnot) (by simp)
  · simp only [step, erase, hphase, bounce_erase h.pending hne]

theorem independent_enqueue {s u : State} {workflowID : String} {clock : Clock} (h : Inv cfg s)
    (hstep : step cfg s (.enqueue workflowID clock) = some u)
    (hne : cfg.first.deduplicationID ≠ cfg.second.deduplicationID)
    (hid : cfg.second.debouncer.workflowName ≠ "" → workflowID ≠ cfg.pendingID) :
    Independent cfg ⟨s, .enqueue workflowID clock, u⟩ := by
  obtain ⟨hphase, rfl⟩ := step_enqueue hstep
  by_cases hname : cfg.second.debouncer.workflowName = ""
  · -- the name is refused before any statement
    simp [Independent, step, erase, hphase, enqueue, hname]
  · refine ⟨find?_enqueue (hid hname) clock, fun hreturned => ?_, ?_⟩
    · exact hid hname (eq_of_enqueue_returned hreturned)
    · simp only [step, erase, hphase, enqueue_erase h.pending hne (hid hname)]

theorem ne_of_independent_bounce {s u : State} {calledAt now : Int} (h : Inv cfg s)
    (hstep : step cfg s (.bounce calledAt now) = some u)
    (hindependent : Independent cfg ⟨s, .bounce calledAt now, u⟩) :
    cfg.first.deduplicationID ≠ cfg.second.deduplicationID := by
  obtain ⟨hphase, rfl⟩ := step_bounce hstep
  obtain ⟨-, hreturned, herase⟩ := hindependent
  intro heq
  rcases bounce_of_eq h.unique h.pending heq calledAt now with hb | hb
  · exact hreturned hb
  · simp only [step, erase, hphase, Option.some.injEq, State.mk.injEq] at herase
    exact hb herase.2.symm

theorem ne_of_independent_enqueue {s u : State} {workflowID : String} {clock : Clock} (h : Inv cfg s)
    (hstep : step cfg s (.enqueue workflowID clock) = some u)
    (hindependent : Independent cfg ⟨s, .enqueue workflowID clock, u⟩)
    (hname : cfg.second.debouncer.workflowName ≠ "") : workflowID ≠ cfg.pendingID := by
  obtain ⟨hphase, rfl⟩ := step_enqueue hstep
  obtain ⟨-, hreturned, herase⟩ := hindependent
  rintro rfl
  rcases enqueue_of_pendingID h.pending hname clock with hb | hb
  · exact hreturned hb
  · simp only [step, erase, hphase, Option.some.injEq, State.mk.injEq] at herase
    exact hb herase.2.symm

/-- A handle names a workflow that is pending with the input of the call, if a new workflow was enqueued
under a new ID. -/
theorem ownPending {s u : State} {a : Action} (hstep : step cfg s a = some u)
    (hcall : a.ofCall = true) (hnew : ∀ id, a.workflowID? = some id → s.table.find? id = none) :
    OwnPending cfg ⟨s, a, u⟩ := by
  intro id hreturned
  cases a with
  | bounce calledAt now =>
    obtain ⟨-, rfl⟩ := step_bounce hstep
    obtain ⟨r, hr, hd, rfl⟩ := of_afterBounce_returned hreturned
    refine ⟨r.debounce cfg.appName (calledAt + cfg.second.delay) cfg.second.inputs
      cfg.second.serialization now, ?_, ?_, rfl, rfl⟩
    · simp only [bounce, StatusTable.debounceDelayedWorkflow, Table.find?_update,
        Table.find?_of_mem hr, Option.map_some, hd]
      rfl
    · simp only [StatusTable.debounceable, Bool.and_eq_true, decide_eq_true_eq] at hd
      exact hd.1.1.2
  | enqueue workflowID clock =>
    obtain ⟨-, rfl⟩ := step_enqueue hstep
    obtain rfl := eq_of_enqueue_returned hreturned
    have hnew := hnew workflowID rfl
    have hname : cfg.second.debouncer.workflowName ≠ "" := by
      intro hname
      simp [enqueue, hname] at hreturned
    cases hheld : s.table.rows.find? (holds cfg.second.queueName cfg.second.deduplicationID) with
    | some x =>
      rw [enqueue_of_held hname hnew (by rw [hheld]; rfl)] at hreturned
      cases hreturned
    | none =>
      refine ⟨cfg.second.row cfg.appName workflowID clock, ?_, rfl, rfl, rfl⟩
      rw [enqueue_of_free hname hnew hheld]
      refine (Table.find?_insert _ _ _).trans ?_
      rw [hnew, Option.none_or, if_pos]
      rfl
  | environment t => cases hcall

/-- **Different debounce targets are independent precisely when their deduplication IDs differ.** In
every run in which the second call has bounced: all its transactions are independent of the pending
workflow if and only if the two IDs differ and nothing was enqueued under the pending workflow's ID.
What it then returns is a pending workflow with its own input. -/
theorem targets_independent_iff (cfg : Targets) {s u : State} {tr : List (Transition State Action)}
    (hs : (system cfg).init s) (hrun : Run (system cfg) s tr u)
    (hbounced : ∃ x ∈ tr, x.act.isBounce = true) :
    ((∀ x ∈ tr, x.act.ofCall = true → Independent cfg x) ↔
      cfg.first.deduplicationID ≠ cfg.second.deduplicationID ∧
        ∀ x ∈ tr, cfg.second.debouncer.workflowName ≠ "" → x.act.workflowID? ≠ some cfg.pendingID) ∧
    ∀ x ∈ tr, x.act.ofCall = true →
      (∀ id, x.act.workflowID? = some id → x.pre.table.find? id = none) → OwnPending cfg x := by
  have htransition : ∀ x ∈ tr, Inv cfg x.pre ∧ step cfg x.pre x.act = some x.post := by
    intro x hx
    obtain ⟨hreach, hstep⟩ := hrun.transition_of_mem hs hx
    exact ⟨inv_of_reaches hreach, hstep⟩
  refine ⟨⟨fun hall => ⟨?_, fun x hx hname hid => ?_⟩, fun ⟨hne, hids⟩ x hx hcall => ?_⟩,
    fun x hx hcall hnew => ownPending (htransition x hx).2 hcall hnew⟩
  · obtain ⟨⟨pre, act, post⟩, hx, hb⟩ := hbounced
    obtain ⟨hI, hstep⟩ := htransition _ hx
    cases act with
    | bounce calledAt now => exact ne_of_independent_bounce hI hstep (hall _ hx rfl)
    | _ => cases hb
  · obtain ⟨pre, act, post⟩ := x
    obtain ⟨hI, hstep⟩ := htransition _ hx
    cases act with
    | enqueue workflowID clock =>
      exact ne_of_independent_enqueue hI hstep (hall _ hx rfl) hname (Option.some.inj hid)
    | _ => cases hid
  · obtain ⟨pre, act, post⟩ := x
    obtain ⟨hI, hstep⟩ := htransition _ hx
    cases act with
    | bounce calledAt now => exact independent_bounce hI hstep hne
    | enqueue workflowID clock =>
      exact independent_enqueue hI hstep hne fun hname hid => hids _ hx hname (congrArg some hid)
    | environment t => cases hcall

/-! ### Two targets with one deduplication ID -/

def call (workflowName configName key inputs : String) : Call where
  debouncer := { workflowName := workflowName, configName := configName, queueName := "q" }
  key := key
  delay := 5
  inputs := some inputs

def clockAt (now : Int) : Clock := ⟨now, now, now, now⟩

def pendingStart (c : Call) : State :=
  ⟨.insert .empty (c.row "app" "first" (clockAt 0)), .bouncing⟩

/-- The workflow `a` with the key `b-c`, and the workflow `a-b` with the key `c`. -/
def otherName : Targets := ⟨call "a" "" "b-c" "1", call "a-b" "" "c" "2", rfl, "first", "app"⟩

/-- One workflow on the instance `x-y` with the key `k`, and on the instance `x` with the key `y-k`. -/
def otherInstance : Targets := ⟨call "a" "x-y" "k" "1", call "a" "x" "y-k" "2", rfl, "first", "app"⟩

/-- The call of another workflow fails because of the pending one; the call on another instance gets a
handle to the pending workflow, and overwrites its input. -/
theorem targets_collide :
    (∃ s, Reaches (system otherName) (fun _ _ => True) s ∧
      ∃ e, s.phase.error? = some e ∧ e.isCode .queueDeduplicated = true) ∧
    ∃ s, Reaches (system otherInstance) (fun _ _ => True) s ∧ s.phase.handle? = some "first" ∧
      ∃ r, s.table.find? "first" = some r ∧ r.inputs = otherInstance.second.inputs := by
  constructor
  · obtain ⟨s, hs, hp⟩ := exists_reaches (S := system otherName) (fun _ _ => True)
      (s := pendingStart otherName.first) [.bounce 1 1]
      (fun s => s.phase.error?.any fun e => e.isCode .queueDeduplicated)
      ⟨by decide +kernel, by decide +kernel, rfl⟩ (fun _ _ => trivial) (by decide +kernel)
    exact ⟨s, hs, (Option.any_eq_true _ _).1 hp⟩
  · obtain ⟨s, hs, hp⟩ := exists_reaches (S := system otherInstance) (fun _ _ => True)
      (s := pendingStart otherInstance.first) [.bounce 1 1]
      (fun s => s.phase.handle? = some "first" &&
        (s.table.find? "first").any fun r => r.inputs = otherInstance.second.inputs)
      ⟨by decide +kernel, by decide +kernel, rfl⟩ (fun _ _ => trivial) (by decide +kernel)
    simp only [Bool.and_eq_true, Option.any_eq_true, decide_eq_true_eq] at hp
    exact ⟨s, hs, hp⟩

def otherKey : Targets := ⟨call "a" "" "k" "1", call "a" "" "l" "2", rfl, "first", "app"⟩

/-- The second call finds no holder and enqueues its own workflow. -/
def ownRun : List Action := [.bounce 1 1, .enqueue "second" (clockAt 2)]

theorem targets_independent_ownRun :
    ∃ u, Run (system otherKey) (pendingStart otherKey.first)
        (trace (system otherKey) (pendingStart otherKey.first) ownRun) u ∧
      u.phase.handle? = some "second" ∧
      ∀ x ∈ trace (system otherKey) (pendingStart otherKey.first) ownRun,
        x.act.ofCall = true → Independent otherKey x := by
  have hs : (system otherKey).init (pendingStart otherKey.first) :=
    ⟨by decide +kernel, by decide +kernel, rfl⟩
  have hexec : (exec (system otherKey) (pendingStart otherKey.first) ownRun).any
      (fun u => u.phase.handle? = some "second") = true := by decide +kernel
  obtain ⟨u, hu, hhandle⟩ := (Option.any_eq_true _ _).1 hexec
  refine ⟨u, run_exec hu, of_decide_eq_true hhandle, ?_⟩
  exact (targets_independent_iff otherKey hs (run_exec hu) (by decide +kernel)).1.2
    ⟨by decide +kernel, by decide +kernel⟩

end Debounce

end Dbos
