import DbosTransact.Lib.Transition
import DbosTransact.SysDb.StatusTable
import DbosTransact.SysDb.Waiters
import Mathlib.Logic.Function.Basic

/-!
# What a wake-up leaves alone

`Send`, `SetEvent` and the terminal transitions are to move the delay of workflows that wait in `Recv`,
`GetEvent` or `GetResult` only. They select workflows by the rows of `workflow_waiters`, and such a row is
removed only when the awaited workflow comes to its end: a workflow that is delayed later for another reason
is found by the row that an earlier wait has left. `waiting` records why a workflow was last delayed.
-/

namespace Dbos.Frame

open Relational Lts Lifecycle

/-- The database, and the workflows whose last transition into `DELAYED` was a wait. -/
structure State where
  db : Db
  waiting : String → Bool

inductive Action
  /-- a statement on `workflow_status` that is none of those below -/
  | operate (op : Operation)
  | suspendWorkflowForSleep (id : String) (delayUntil now : Int)
  /-- the suspension of `Recv`, `GetEvent` and `GetResult` -/
  | suspendWorkflowForResult (waiterID awaitedID : String) (delayUntil now : Int)
  /-- the wake-up of `Send` -/
  | send (destinationID : String) (now : Int)
  /-- the wake-up of `SetEvent` -/
  | notifyWorkflowWaiters (awaitedID : String) (now : Int)
  /-- the wake-up of `UpdateWorkflowOutcome` -/
  | wakeWorkflowWaiters (awaitedID : String) (now : Int)
  | wakeSuspendedWorkflow (id : String) (now : Int)
  deriving DecidableEq, Repr

/-- The workflow is moved into `DELAYED`. -/
def enters (db db' : Db) (id : String) : Bool :=
  db.statusOf id ≠ some .delayed && db'.statusOf id = some .delayed

def allowed : Operation → Bool
  | .suspendWorkflowToDelayed _ _ _ | .wake _ _ => false
  | _ => true

def step (s : State) : Action → Option State
  | .operate op =>
    if allowed op then
      (Lifecycle.step s.db.status op).map fun t =>
        let db := { s.db with status := t }
        ⟨db, fun id => s.waiting id && !enters s.db db id⟩
    else none
  | .suspendWorkflowForSleep id delayUntil now =>
    if s.db.suspendable id then
      some ⟨Write.apply (.suspend id delayUntil now) s.db, Function.update s.waiting id false⟩
    else some s
  | .suspendWorkflowForResult waiterID awaitedID delayUntil now =>
    if s.db.suspendable waiterID then
      some ⟨Write.apply (.insertWaiter ⟨waiterID, awaitedID⟩)
        (Write.apply (.suspend waiterID delayUntil now) s.db), Function.update s.waiting waiterID true⟩
    else some s
  | .send destinationID now =>
    some { s with db := Write.apply (.wake (s.db.sendTargets destinationID) now) s.db }
  | .notifyWorkflowWaiters awaitedID now =>
    some { s with db := Write.apply (.wake (s.db.delayedWaiters awaitedID) now) s.db }
  | .wakeWorkflowWaiters awaitedID now => some { s with db := s.db.wakeWorkflowWaiters awaitedID now }
  | .wakeSuspendedWorkflow id now =>
    some { s with db := Write.apply (.wake (s.db.suspendedTarget id) now) s.db }

def initial : State := ⟨⟨.empty, .empty, .empty, .empty, .empty, .empty⟩, fun _ => false⟩

def system : System State Action where
  init s := s = initial
  step := step

/-! ### The frame -/

/-- The workflow is `DELAYED`, and not because of a wait. -/
def DelayedOtherwise (s : State) (id : String) : Prop :=
  s.db.statusOf id = some .delayed ∧ s.waiting id = false

/-- The statements of `Send`, of `SetEvent` and of the terminal transitions. -/
def Action.wakes : Action → Bool
  | .send _ _ | .notifyWorkflowWaiters _ _ | .wakeWorkflowWaiters _ _ => true
  | .operate (.updateWorkflowOutcome _ _ _ _ _) | .operate (.cancelWorkflows _ _)
  | .operate (.deadLetterWorkflows _ _ _) => true
  | _ => false

/-- None of them moves the delay of a workflow that does not wait. -/
def Framed (s : State) : Prop :=
  ∀ a s', a.wakes = true → step s a = some s' → ∀ id, DelayedOtherwise s id →
    s'.db.delayOf id = s.db.delayOf id

def isWaiter (db : Db) (id : String) : Bool := db.waiters.rows.any fun w => w.waiterID = id

/-- No workflow that is delayed for another reason is named by a waiter row. -/
def NoStaleWaiter (s : State) : Prop := ∀ id, DelayedOtherwise s id → isWaiter s.db id = false

/-- **The condition.** A workflow begins to sleep, or is created with a delay, only if no waiter row
names it. -/
def Cleared (s : State) : Action → Prop
  | .suspendWorkflowForSleep id _ _ => s.db.suspendable id = true → isWaiter s.db id = false
  | .operate (.insertWorkflowStatus _ i) =>
    s.db.status.find? i.workflowID = none → i.status = .delayed → isWaiter s.db i.workflowID = false
  | _ => True

theorem isWaiter_iff {db : Db} {id : String} :
    isWaiter db id = true ↔ ∃ awaitedID, db.hasWaiter ⟨id, awaitedID⟩ = true := by
  simp only [isWaiter, List.any_eq_true, decide_eq_true_eq]
  constructor
  · rintro ⟨w, hw, rfl⟩
    exact ⟨w.awaitedID, Option.isSome_of_eq_some (Table.find?_of_mem hw)⟩
  · rintro ⟨awaitedID, hw⟩
    obtain ⟨w, hw⟩ := Option.isSome_iff_exists.1 hw
    obtain rfl : w = ⟨id, awaitedID⟩ := Table.key_of_find? hw
    exact ⟨_, Table.mem_of_find? hw, rfl⟩

theorem hasWaiter_eq_false {db : Db} {id : String} (h : isWaiter db id = false) (awaitedID : String) :
    db.hasWaiter ⟨id, awaitedID⟩ = false := by
  rw [← Bool.not_eq_true] at h ⊢
  exact fun hw => h (isWaiter_iff.2 ⟨awaitedID, hw⟩)

variable {s t : State} {a : Action}

theorem delayOf_wake_of_not_mem {db : Db} {ids : List String} {id : String} (now : Int) (h : id ∉ ids) :
    (Write.apply (.wake ids now) db).delayOf id = db.delayOf id := by
  rw [Write.delayOf_wake, if_neg fun hmem => h hmem.1]

theorem delayOf_wakeWorkflowWaiters {db : Db} {id awaitedID : String} (now : Int)
    (h : id ∉ db.delayedWaiters awaitedID) :
    (db.wakeWorkflowWaiters awaitedID now).delayOf id = db.delayOf id := by
  unfold Db.wakeWorkflowWaiters
  split_ifs
  · rfl
  · exact delayOf_wake_of_not_mem now h

theorem delayOf_update {db : Db} {p : WorkflowRow → Bool} {f : WorkflowRow → WorkflowRow}
    {hf : ∀ r, (f r).workflowID = r.workflowID} (hd : ∀ r, (f r).delayUntil = r.delayUntil) (id : String) :
    ({ db with status := db.status.update p f hf } : Db).delayOf id = db.delayOf id := by
  simp only [Db.delayOf, Table.find?_update]
  cases db.status.find? id with
  | none => rfl
  | some r =>
    simp only [Option.map_some, Option.bind_some]
    split_ifs
    · exact hd r
    · rfl

theorem framed_of_noStaleWaiter (h : NoStaleWaiter s) : Framed s := by
  intro a s' hwakes hstep id hid
  have hnot : ∀ awaitedID, id ∉ s.db.delayedWaiters awaitedID := by
    intro awaitedID hmem
    rw [Db.mem_delayedWaiters, hasWaiter_eq_false (h id hid)] at hmem
    exact Bool.false_ne_true hmem.2
  cases a with
  | send destinationID now =>
    cases hstep
    refine delayOf_wake_of_not_mem now fun hmem => ?_
    rw [Db.mem_sendTargets] at hmem
    obtain ⟨rfl, -, hwaiter⟩ := hmem
    rw [hasWaiter_eq_false (h id hid)] at hwaiter
    exact Bool.false_ne_true hwaiter
  | notifyWorkflowWaiters awaitedID now =>
    cases hstep
    exact delayOf_wake_of_not_mem now (hnot awaitedID)
  | wakeWorkflowWaiters awaitedID now =>
    cases hstep
    exact delayOf_wakeWorkflowWaiters now (hnot awaitedID)
  | operate op =>
    cases op <;> simp only [Action.wakes, Bool.false_eq_true] at hwakes
    all_goals
      cases hstep
      refine delayOf_update (fun r => ?_) id
      rfl
  | suspendWorkflowForSleep | suspendWorkflowForResult | wakeSuspendedWorkflow => cases hwakes

/-- The waiter rows are all that can break the frame. -/
theorem framed_iff : Framed s ↔ NoStaleWaiter s := by
  refine ⟨fun h id hid => ?_, framed_of_noStaleWaiter⟩
  rw [← Bool.not_eq_true]
  intro hwaiter
  obtain ⟨awaitedID, hwaiter⟩ := isWaiter_iff.1 hwaiter
  -- an event of the awaited workflow, at a time that is not the delay
  have hmove : ∀ now, s.db.delayOf id = some now := by
    intro now
    have hspared := h (.notifyWorkflowWaiters awaitedID now) _ rfl rfl id hid
    have hmem : id ∈ s.db.delayedWaiters awaitedID := Db.mem_delayedWaiters.2 ⟨hid.1, hwaiter⟩
    have hsome : (s.db.statusOf id).isSome = true := Option.isSome_of_eq_some hid.1
    rw [← hspared]
    exact (Write.delayOf_wake s.db _ now id).trans (if_pos ⟨hmem, hsome⟩)
  have : (0 : Int) = 1 := Option.some.inj ((hmove 0).symm.trans (hmove 1))
  exact absurd this (by decide)

/-! ### The statements -/

theorem delayed_of_onRow {op : Operation} {r : WorkflowRow} (hop : allowed op = true)
    (h : (op.onRow r).status = .delayed) : r.status = .delayed := by
  cases op with
  | suspendWorkflowToDelayed | wake => cases hop
  | forkWorkflows | deleteWorkflows | garbageCollectWorkflows => exact h
  | updateWorkflowOutcome id failed output error now =>
    simp only [Operation.onRow] at h
    split_ifs at h <;> first | exact h | cases h
  | _ =>
    simp only [Operation.onRow] at h
    split_ifs at h <;> first | exact h | cases h

theorem NoStaleWaiter.mono (h : NoStaleWaiter s) (hstatus : ∀ id, t.db.statusOf id = s.db.statusOf id)
    (hwaiting : t.waiting = s.waiting)
    (hwaiters : ∀ id, isWaiter s.db id = false → isWaiter t.db id = false) : NoStaleWaiter t := by
  intro id hid
  rw [DelayedOtherwise, hstatus, hwaiting] at hid
  exact hwaiters id (h id hid)

theorem isWaiter_wakeWorkflowWaiters {db : Db} {id awaitedID : String} {now : Int}
    (h : isWaiter db id = false) : isWaiter (db.wakeWorkflowWaiters awaitedID now) id = false := by
  unfold Db.wakeWorkflowWaiters
  split_ifs
  · exact h
  · simp only [isWaiter, List.any_eq_false, decide_eq_true_eq] at h ⊢
    exact fun w hw => h w (List.mem_filter.1 hw).1

theorem statusOf_wakeWorkflowWaiters (db : Db) (awaitedID : String) (now : Int) (id : String) :
    (db.wakeWorkflowWaiters awaitedID now).statusOf id = db.statusOf id := by
  unfold Db.wakeWorkflowWaiters
  split_ifs
  · rfl
  · exact Write.statusOf_wake db _ now id

theorem statusOf_of_insert {appName : String} {i : InsertWorkflowStatusInput} {u : StatusTable}
    {db : Db} (h : Lifecycle.step db.status (.insertWorkflowStatus appName i) = some u)
    (hnone : db.status.find? i.workflowID = none) :
    ({ db with status := u } : Db).statusOf i.workflowID = some i.status := by
  obtain ⟨-, rfl⟩ := insertWorkflowStatus_cases h
  have hkey : (i.row appName).workflowID = i.workflowID := rfl
  simp only [Db.statusOf]
  rw [Table.find?_upsert, if_pos hkey, hnone]
  rfl

theorem noStaleWaiter_operate_iff (h : NoStaleWaiter s) {op : Operation}
    (hstep : step s (.operate op) = some t) : NoStaleWaiter t ↔ Cleared s (.operate op) := by
  simp only [step] at hstep
  split_ifs at hstep with hop
  obtain ⟨u, hu, rfl⟩ := Option.map_eq_some_iff.1 hstep
  constructor
  · -- a row that is created with a delay is delayed for another reason than a wait
    intro ht
    cases op with
    | insertWorkflowStatus appName i =>
      intro hnone hdelayed
      have hstatus := statusOf_of_insert hu hnone
      rw [hdelayed] at hstatus
      have hold : s.db.statusOf i.workflowID = none := by simp [Db.statusOf, hnone]
      refine ht i.workflowID ⟨hstatus, ?_⟩
      simp [enters, hold, hstatus]
    | _ => trivial
  · intro hcleared id hid
    obtain ⟨hdelayed, hwaiting⟩ := hid
    by_cases hold : s.db.statusOf id = some .delayed
    · refine h id ⟨hold, ?_⟩
      simpa [enters, hold] using hwaiting
    · obtain ⟨r', hr', hst⟩ := Option.map_eq_some_iff.1 hdelayed
      rcases find?_step hu hr' with ⟨r, hr, rfl⟩ | ⟨hnone, hmakes⟩
      · exact (hold (by simp [Db.statusOf, hr, delayed_of_onRow hop hst])).elim
      · cases op with
        | insertWorkflowStatus appName i =>
          obtain ⟨-, rfl⟩ := hmakes
          have hid : (i.row appName).workflowID = id := Table.key_of_find? hr'
          obtain rfl : i.workflowID = id := hid
          exact hcleared hnone hst
        | forkWorkflows appName i now =>
          obtain ⟨original, forkedID, rfl⟩ := hmakes
          cases hst
        | _ => exact hmakes.elim

theorem isWaiter_insertWaiter (db : Db) (w : WaiterRow) {id : String} (h : id ≠ w.waiterID) :
    isWaiter (Write.apply (.insertWaiter w) db) id = isWaiter db id := by
  rw [Bool.eq_iff_iff, isWaiter_iff, isWaiter_iff]
  refine exists_congr fun awaitedID => ?_
  rw [Write.hasWaiter_insertWaiter]
  have hne : w ≠ ⟨id, awaitedID⟩ := fun hw => h (by rw [hw])
  simp [hne]

theorem noStaleWaiter_sleep_iff (h : NoStaleWaiter s) {id : String} {delayUntil now : Int}
    (hstep : step s (.suspendWorkflowForSleep id delayUntil now) = some t) :
    NoStaleWaiter t ↔ Cleared s (.suspendWorkflowForSleep id delayUntil now) := by
  simp only [step] at hstep
  split_ifs at hstep with hsuspendable
  · cases hstep
    have hpending : s.db.statusOf id = some .pending := of_decide_eq_true hsuspendable
    have hself : DelayedOtherwise
        ⟨Write.apply (.suspend id delayUntil now) s.db, Function.update s.waiting id false⟩ id :=
      ⟨by simp [Write.statusOf_suspend, hpending], Function.update_self _ _ _⟩
    refine ⟨fun ht _ => ht id hself, fun hcleared id' hid' => ?_⟩
    by_cases hid : id' = id
    · subst hid
      exact hcleared hsuspendable
    · obtain ⟨hdelayed, hwaiting⟩ := hid'
      rw [Write.statusOf_suspend, if_neg hid] at hdelayed
      dsimp only at hwaiting
      rw [Function.update_of_ne hid] at hwaiting
      exact h id' ⟨hdelayed, hwaiting⟩
  · cases hstep
    exact iff_of_true h fun hs => (hsuspendable hs).elim

theorem NoStaleWaiter.wait (h : NoStaleWaiter s) {waiterID awaitedID : String} {delayUntil now : Int}
    (hstep : step s (.suspendWorkflowForResult waiterID awaitedID delayUntil now) = some t) :
    NoStaleWaiter t := by
  simp only [step] at hstep
  split_ifs at hstep with hsuspendable
  · cases hstep
    rintro id ⟨hdelayed, hwaiting⟩
    dsimp only at hwaiting
    by_cases hid : id = waiterID
    · subst hid
      rw [Function.update_self] at hwaiting
      cases hwaiting
    · rw [Function.update_of_ne hid] at hwaiting
      have hdelayed : (Write.apply (.suspend waiterID delayUntil now) s.db).statusOf id =
          some .delayed := hdelayed
      rw [Write.statusOf_suspend, if_neg hid] at hdelayed
      show isWaiter (Write.apply (.insertWaiter ⟨waiterID, awaitedID⟩) _) id = false
      rw [isWaiter_insertWaiter _ _ hid]
      exact h id ⟨hdelayed, hwaiting⟩
  · cases hstep
    exact h

/-- A statement leaves no stale waiter row precisely if it meets the condition. -/
theorem noStaleWaiter_step_iff (h : NoStaleWaiter s) (hstep : step s a = some t) :
    NoStaleWaiter t ↔ Cleared s a := by
  cases a with
  | operate op => exact noStaleWaiter_operate_iff h hstep
  | suspendWorkflowForSleep id delayUntil now => exact noStaleWaiter_sleep_iff h hstep
  | suspendWorkflowForResult waiterID awaitedID delayUntil now => exact iff_of_true (h.wait hstep) trivial
  | send destinationID now | notifyWorkflowWaiters awaitedID now | wakeSuspendedWorkflow id now =>
    cases hstep
    exact iff_of_true (h.mono (Write.statusOf_wake s.db _ now) rfl fun _ hw => hw) trivial
  | wakeWorkflowWaiters awaitedID now =>
    cases hstep
    exact iff_of_true (h.mono (statusOf_wakeWorkflowWaiters s.db awaitedID now) rfl
      fun _ hw => isWaiter_wakeWorkflowWaiters hw) trivial

/-- **What a wake-up leaves alone.** In every history, `Send`, `SetEvent` and the terminal transitions
leave the delays of the workflows that do not wait alone in every state, precisely if every workflow that
began to sleep, or was created with a delay, was named by no waiter row then. -/
theorem framed_of_cleared {tr : List (Transition State Action)} (h : Run system initial tr t) :
    Framed initial ∧ ((∀ x ∈ tr, Framed x.post) ↔ ∀ x ∈ tr, Cleared x.pre x.act) := by
  have hinit : ∀ s, system.init s → True ∧ Framed s := by
    rintro s rfl
    refine ⟨trivial, framed_iff.2 fun id hid => ?_⟩
    rfl
  refine ⟨(hinit initial rfl).2, Run.forall_post_iff (I := fun _ => True) hinit (fun _ _ _ _ _ => trivial) ?_ rfl h⟩
  intro s a t _ hs hstep
  rw [framed_iff] at hs ⊢
  exact noStaleWaiter_step_iff hs hstep

/-! ### A message for a workflow that sleeps -/

def direct : InsertWorkflowStatusInput := { workflowID := "w", status := .pending, name := "f" }

def wakeUp (now : Int) : List Action :=
  [.operate (.transitionDelayedWorkflows "" now), .operate (.dequeueWorkflows ⟨"e", "v", "", false⟩ ["w"] now)]

/-- The workflow waits for a message, receives it and sleeps until 5000. -/
def receiveThenSleep : List Action :=
  [.operate (.insertWorkflowStatus "" direct), .suspendWorkflowForResult "w" "w" 60 0, .send "w" 10] ++
    wakeUp 20 ++ [.suspendWorkflowForSleep "w" 5000 30]

def delay (s : State) : Option Int := s.db.delayOf "w"

/-- A second message cuts the sleep short. -/
theorem sleep_cut_short : ∃ s s', Reaches system (fun _ _ => True) s ∧
    (s.db.statusOf "w" = some .delayed ∧ s.waiting "w" = false ∧ delay s = some 5000) ∧
    step s (.send "w" 40) = some s' ∧ delay s' = some 40 ∧ ¬ Framed s := by
  obtain ⟨s, hs, hp⟩ := exists_reaches (S := system) (fun _ _ => True) (s := initial) receiveThenSleep
    (fun s => decide (s.db.statusOf "w" = some .delayed ∧ s.waiting "w" = false ∧ delay s = some 5000) &&
      ((step s (.send "w" 40)).any fun s' => delay s' = some 40))
    rfl (fun _ _ => trivial) (by decide +kernel)
  simp only [Bool.and_eq_true, decide_eq_true_eq] at hp
  obtain ⟨hsleeps, hmoved⟩ := hp
  obtain ⟨s', hs', hmoved⟩ := (Option.any_eq_true _ _).1 hmoved
  have hmoved : delay s' = some 40 := of_decide_eq_true hmoved
  refine ⟨s, s', hs, hsleeps, hs', hmoved, fun hframed => ?_⟩
  have hkept : delay s' = delay s := hframed (.send "w" 40) s' rfl hs' "w" ⟨hsleeps.1, hsleeps.2.1⟩
  rw [hmoved, hsleeps.2.2] at hkept
  exact absurd hkept (by decide)

def sleepThenReceive : List Action :=
  [.operate (.insertWorkflowStatus "" direct), .suspendWorkflowForSleep "w" 50 0, .send "w" 10] ++
    wakeUp 60 ++ [.suspendWorkflowForResult "w" "w" 5000 70, .send "w" 80]

instance (s : State) (a : Action) : Decidable (Cleared s a) := by
  unfold Cleared
  split <;> infer_instance

theorem framed_sleepThenReceive : ∃ s, delay s = some 80 ∧
    Run system initial (trace system initial sleepThenReceive) s ∧ Framed initial ∧
    ∀ x ∈ trace system initial sleepThenReceive, Framed x.post := by
  have hany : (exec system initial sleepThenReceive).any (fun s => delay s = some 80) = true := by
    decide +kernel
  have hcleared : ∀ x ∈ trace system initial sleepThenReceive, Cleared x.pre x.act := by decide +kernel
  obtain ⟨s, hs, hdelay⟩ := (Option.any_eq_true _ _).1 hany
  obtain ⟨hfirst, hiff⟩ := framed_of_cleared (run_exec hs)
  exact ⟨s, of_decide_eq_true hdelay, run_exec hs, hfirst, hiff.2 hcleared⟩

end Dbos.Frame
