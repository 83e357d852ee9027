import DbosTransact.SysDb.Status

/-!
# Terminal transitions and the suspended waiters

`UpdateWorkflowOutcome` wakes the waiters; `CancelWorkflows`, `CancelAllBefore` and `DeadLetterWorkflows` do
not look at the waiter table, so a sleeping waiter is left alone unless the operation cancels it as well.
-/

namespace Dbos.TerminalWake

open Relational

inductive Operation
  | updateWorkflowOutcome (id : String) (status : Status) (output error : Option String)
      (now wakeNow : Int)
  /-- the API call, on behalf of an application, with or without the descendants -/
  | cancelWorkflows (appName : String) (fuel : Nat) (ids : List String) (cancelChildren : Bool)
      (now : Int)
  | cancelAllBefore (appName : String) (cutoff now : Int)
  /-- the durable cancel of a run whose context deadline expired -/
  | cancelExpiredRun (id : String) (now : Int)
  | deadLetterWorkflows (ids : List String) (minAttempts : Nat) (now : Int)

namespace Operation

def run (db : Db) : Operation → Option Db
  | .updateWorkflowOutcome id status output error now wakeNow =>
    some (db.updateWorkflowOutcome id status output error now wakeNow).1
  | .cancelWorkflows appName fuel ids cancelChildren now =>
    (db.cancelWorkflows appName fuel ids cancelChildren now).map Prod.fst
  | .cancelAllBefore appName cutoff now => some (db.cancelAllBefore appName cutoff now)
  | .cancelExpiredRun id now => some (db.cancelRows [id] now)
  | .deadLetterWorkflows ids minAttempts now => some (db.deadLetterWorkflows ids minAttempts now)

def time : Operation → Int
  | .updateWorkflowOutcome _ _ _ _ _ wakeNow => wakeNow
  | .cancelWorkflows _ _ _ _ now | .cancelAllBefore _ _ now | .cancelExpiredRun _ now
  | .deadLetterWorkflows _ _ now => now

end Operation

/-- The workflow `id` is moved into a terminal status between `db` and `db'`. -/
def BecomesTerminal (db db' : Db) (id : String) : Prop :=
  db'.statusOf id ≠ db.statusOf id ∧ (db'.statusOf id).any Status.isTerminal = true

/-- `waiterID` is suspended on the result of `id`, with a delay that lies after `now`. -/
def SleepsOn (db : Db) (now : Int) (waiterID id : String) : Prop :=
  db.statusOf waiterID = some .delayed ∧ db.hasWaiter ⟨waiterID, id⟩ = true ∧
    ∃ delayUntil, db.delayOf waiterID = some delayUntil ∧ now < delayUntil

/-- `waiterID` is no longer `DELAYED`, or its delay is over at `now`. -/
def Awake (db : Db) (now : Int) (waiterID : String) : Prop :=
  db.statusOf waiterID ≠ some .delayed ∨
    ∃ delayUntil, db.delayOf waiterID = some delayUntil ∧ delayUntil ≤ now

/-- When the operation has returned, every workflow that slept on one which it moved into a terminal
status is awake. -/
def WakesWaiters (op : Operation) (db : Db) : Prop :=
  ∀ db', op.run db = some db' → ∀ id, BecomesTerminal db db' id →
    ∀ waiterID, SleepsOn db op.time waiterID id → Awake db' op.time waiterID

/-- The operation cancels `ids`: no sleeping waiter of a workflow among them is left out. -/
def CancelsWaiters (db : Db) (ids : List String) (now : Int) : Prop :=
  ∀ id ∈ ids, (db.status.find? id).any WorkflowRow.cancellable = true →
    ∀ waiterID, SleepsOn db now waiterID id → waiterID ∈ ids

/-- The operation dead-letters `ids`: no workflow that it moves has a sleeping waiter. -/
def WithoutWaiters (db : Db) (ids : List String) (minAttempts : Nat) (now : Int) : Prop :=
  ∀ id ∈ ids, (db.status.find? id).any (Db.deadLetterable minAttempts) = true →
    ∀ waiterID, ¬SleepsOn db now waiterID id

def NobodyLeftAsleep (db : Db) : Operation → Prop
  | .updateWorkflowOutcome _ _ _ _ _ _ => True
  | .cancelWorkflows appName fuel ids cancelChildren now =>
    ∀ targets, db.cancelTargets appName fuel ids cancelChildren = some targets →
      CancelsWaiters db targets now
  | .cancelAllBefore appName cutoff now => CancelsWaiters db (db.createdBefore appName cutoff) now
  | .cancelExpiredRun id now => CancelsWaiters db [id] now
  | .deadLetterWorkflows ids minAttempts now => WithoutWaiters db ids minAttempts now

theorem not_awake_of_sleepsOn {db : Db} {now : Int} {waiterID id : String}
    (h : SleepsOn db now waiterID id) : ¬Awake db now waiterID := by
  obtain ⟨hst, -, d, hd, hlt⟩ := h
  rintro (h | ⟨d', hd', hle⟩)
  · exact h hst
  · rw [hd] at hd'
    cases hd'
    omega

theorem cancellable_of_delayed {db : Db} {id : String} (h : db.statusOf id = some .delayed) :
    (db.status.find? id).any WorkflowRow.cancellable = true := by
  obtain ⟨r, hr, hst⟩ := Option.map_eq_some_iff.1 h
  simp [hr, WorkflowRow.cancellable, hst]

theorem cancelRows_wakes_iff (db : Db) (ids : List String) (now : Int) :
    (∀ id, BecomesTerminal db (db.cancelRows ids now) id →
      ∀ waiterID, SleepsOn db now waiterID id → Awake (db.cancelRows ids now) now waiterID) ↔
      CancelsWaiters db ids now := by
  constructor
  · intro h id hid hc waiterID hsl
    have hterm : BecomesTerminal db (db.cancelRows ids now) id := by
      unfold BecomesTerminal
      rw [db.statusOf_cancelRows, if_pos ⟨hid, hc⟩]
      refine ⟨fun heq => ?_, rfl⟩
      obtain ⟨r, hr, hst⟩ := Option.map_eq_some_iff.1 heq.symm
      simp [hr, WorkflowRow.cancellable, hst] at hc
    by_contra hnot
    -- a waiter which is not cancelled keeps its status and its delay
    have hkeep : ¬(waiterID ∈ ids ∧ (db.status.find? waiterID).any WorkflowRow.cancellable = true) :=
      fun h => hnot h.1
    refine not_awake_of_sleepsOn hsl ?_
    have := h id hterm waiterID hsl
    unfold Awake at this ⊢
    rwa [db.statusOf_cancelRows, if_neg hkeep, db.delayOf_cancelRows] at this
  · intro h id hterm waiterID hsl
    have hid : id ∈ ids ∧ (db.status.find? id).any WorkflowRow.cancellable = true := by
      by_contra hnot
      refine hterm.1 ?_
      rw [db.statusOf_cancelRows, if_neg hnot]
    left
    rw [db.statusOf_cancelRows,
      if_pos ⟨h id hid.1 hid.2 waiterID hsl, cancellable_of_delayed hsl.1⟩]
    simp

theorem deadLetterWorkflows_wakes_iff (db : Db) (ids : List String) (minAttempts : Nat) (now : Int) :
    (∀ id, BecomesTerminal db (db.deadLetterWorkflows ids minAttempts now) id →
      ∀ waiterID, SleepsOn db now waiterID id →
        Awake (db.deadLetterWorkflows ids minAttempts now) now waiterID) ↔
      WithoutWaiters db ids minAttempts now := by
  have hpend : ∀ {id}, (db.status.find? id).any (Db.deadLetterable minAttempts) = true →
      db.statusOf id = some .pending := by
    intro id h
    cases hr : db.status.find? id with
    | none => simp [hr] at h
    | some r =>
      simp only [hr, Option.any_some, Db.deadLetterable, Bool.and_eq_true, decide_eq_true_eq] at h
      simp [Db.statusOf, hr, h.1]
  constructor
  · intro h id hid hc waiterID hsl
    have hterm : BecomesTerminal db (db.deadLetterWorkflows ids minAttempts now) id := by
      unfold BecomesTerminal
      rw [db.statusOf_deadLetterWorkflows, if_pos ⟨hid, hc⟩, hpend hc]
      exact ⟨by simp, rfl⟩
    -- a sleeping waiter is DELAYED, so it is not dead-lettered itself
    have hkeep : ¬(waiterID ∈ ids ∧
        (db.status.find? waiterID).any (Db.deadLetterable minAttempts) = true) := by
      rintro ⟨-, hd⟩
      have := hsl.1
      rw [hpend hd] at this
      cases this
    refine not_awake_of_sleepsOn hsl ?_
    have := h id hterm waiterID hsl
    unfold Awake at this ⊢
    rwa [db.statusOf_deadLetterWorkflows, if_neg hkeep, db.delayOf_deadLetterWorkflows] at this
  · intro h id hterm waiterID hsl
    exfalso
    have hid : id ∈ ids ∧ (db.status.find? id).any (Db.deadLetterable minAttempts) = true := by
      by_contra hnot
      refine hterm.1 ?_
      rw [db.statusOf_deadLetterWorkflows, if_neg hnot]
    exact h id hid.1 hid.2 waiterID hsl

theorem updateWorkflowOutcome_wakes (db : Db) (id : String) (status : Status)
    (output error : Option String) (now wakeNow : Int) :
    WakesWaiters (.updateWorkflowOutcome id status output error now wakeNow) db := by
  rintro db' hrun other hterm waiterID ⟨hst, hw, -⟩
  cases hrun
  by_cases hpend : db.statusOf id = some .pending
  · have hout := Write.statusOf_outcome db id status output error now
    simp only [Db.updateWorkflowOutcome, hpend, decide_true, if_true] at hterm ⊢
    obtain rfl : other = id := by
      by_contra hne
      refine hterm.1 ((Db.statusOf_wakeWorkflowWaiters _ _ _ _).trans ?_)
      rw [hout, if_neg hne]
    have hne : waiterID ≠ other := by
      rintro rfl
      rw [hpend] at hst
      cases hst
    right
    refine ⟨wakeNow, Db.delayOf_wakeWorkflowWaiters _ _ ?_ hw, Int.le_refl _⟩
    rw [hout, if_neg hne]
    exact hst
  · -- nothing is recorded, so nothing becomes terminal
    simp only [Db.updateWorkflowOutcome, hpend, decide_false] at hterm
    exact absurd (db.statusOf_wakeWorkflowWaiters _ _ _) hterm.1

/-- **An operation wakes the waiters of the workflows it makes terminal exactly when** it is
`UpdateWorkflowOutcome`, or a cancellation which cancels every sleeping waiter as well, or a
dead-lettering of workflows without sleeping waiters. -/
theorem wakesWaiters_iff (op : Operation) (db : Db) :
    WakesWaiters op db ↔ NobodyLeftAsleep db op := by
  cases op with
  | updateWorkflowOutcome id status output error now wakeNow =>
    exact ⟨fun _ => trivial,
      fun _ => updateWorkflowOutcome_wakes db id status output error now wakeNow⟩
  | cancelWorkflows appName fuel ids cancelChildren now =>
    simp only [WakesWaiters, NobodyLeftAsleep, Operation.run, Operation.time, Db.cancelWorkflows]
    cases ht : db.cancelTargets appName fuel ids cancelChildren with
    | none => simp
    | some targets =>
      simpa using cancelRows_wakes_iff db targets now
  | cancelAllBefore appName cutoff now =>
    simpa [WakesWaiters, NobodyLeftAsleep, Operation.run, Operation.time, Db.cancelAllBefore] using
      cancelRows_wakes_iff db (db.createdBefore appName cutoff) now
  | cancelExpiredRun id now =>
    simpa [WakesWaiters, NobodyLeftAsleep, Operation.run, Operation.time] using
      cancelRows_wakes_iff db [id] now
  | deadLetterWorkflows ids minAttempts now =>
    simpa [WakesWaiters, NobodyLeftAsleep, Operation.run, Operation.time] using
      deadLetterWorkflows_wakes_iff db ids minAttempts now

/-! ### A parent asleep on its child -/

/-- A parent and a child that it started, both running; the child has been claimed three times. -/
def familyDb : Db where
  status := ⟨[{ workflowID := "parent", status := .pending, createdAt := 2 },
    { workflowID := "child", status := .pending, createdAt := 1, recoveryAttempts := 3,
      parentWorkflowID := some "parent" }], by decide⟩
  waiters := .empty
  notifications := .empty
  events := .empty
  eventsHistory := .empty
  operations := .empty

/-- The parent has suspended on the result of the child for an hour. -/
def parentAsleep : Db :=
  Write.apply (.insertWaiter ⟨"parent", "child"⟩)
    (Write.apply (.suspend "parent" 3600000 3) familyDb)

/-- An operation which makes the child terminal and leaves the parent asleep. -/
theorem not_wakesWaiters {op : Operation} {db' : Db} (hrun : op.run parentAsleep = some db')
    (hterm : BecomesTerminal parentAsleep db' "child")
    (hbefore : SleepsOn parentAsleep op.time "parent" "child")
    (hafter : SleepsOn db' op.time "parent" "child") : ¬WakesWaiters op parentAsleep :=
  fun h => not_awake_of_sleepsOn hafter (h db' hrun "child" hterm "parent" hbefore)

/-- **No cancellation and no dead-lettering wakes the parent**: the API call with and without
children, `CancelAllBefore`, the expired context of the child's run, and `DeadLetterWorkflows`. -/
theorem parent_left_asleep :
    (∀ cancelChildren,
      ¬WakesWaiters (.cancelWorkflows "" 1 ["child"] cancelChildren 4) parentAsleep) ∧
    ¬WakesWaiters (.cancelAllBefore "" 1 4) parentAsleep ∧
    ¬WakesWaiters (.cancelExpiredRun "child" 4) parentAsleep ∧
    ¬WakesWaiters (.deadLetterWorkflows ["child"] 3 4) parentAsleep := by
  have hbefore : SleepsOn parentAsleep 4 "parent" "child" :=
    ⟨by decide, by decide, 3600000, by decide, by decide⟩
  refine ⟨?_, ?_, ?_, ?_⟩
  · intro cancelChildren
    cases cancelChildren
    all_goals
      exact not_wakesWaiters rfl ⟨by decide, by decide⟩ hbefore
        ⟨by decide, by decide, 3600000, by decide, by decide⟩
  · exact not_wakesWaiters rfl ⟨by decide, by decide⟩ hbefore
      ⟨by decide, by decide, 3600000, by decide, by decide⟩
  · exact not_wakesWaiters rfl ⟨by decide, by decide⟩ hbefore
      ⟨by decide, by decide, 3600000, by decide, by decide⟩
  · exact not_wakesWaiters rfl ⟨by decide, by decide⟩ hbefore
      ⟨by decide, by decide, 3600000, by decide, by decide⟩

end Dbos.TerminalWake
