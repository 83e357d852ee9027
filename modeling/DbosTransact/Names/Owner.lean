import DbosTransact.Lib.Transition
import DbosTransact.Queue.Dequeue
import Mathlib.Logic.Function.Basic

/-!
# The owner of a name

A row whose `application_name` is `NULL` may be claimed; a row that has an owner may be changed by that
application only. `UpsertQueue` and `UpsertSchedule` look the owner up, write, and look it up again, in one
transaction under READ COMMITTED. The row is locked from the first write to the end of the transaction. A
call of `UpsertQueue` that is not to update writes nothing to a row it finds: it holds no lock, and another
application may take the name between its second look-up and its return.
-/

namespace Dbos.Names

open Lts

/-! ### The rows -/

/-- A row of `queues`. Periods and intervals are in nanoseconds. -/
structure QueueRow where
  queueID : String
  name : String
  concurrency : Option Int := none
  workerConcurrency : Option Int := none
  rateLimitMax : Option Int := none
  rateLimitPeriod : Option Int := none
  priorityEnabled : Bool := false
  partitionQueue : Bool := false
  pollingInterval : Int
  createdAt : Int
  updatedAt : Int
  applicationName : Option String := none
  deriving DecidableEq, Repr

inductive ScheduleStatus
  | active
  | paused
  deriving DecidableEq, Repr

/-- A row of `workflow_schedules`. -/
structure ScheduleRow where
  scheduleID : String
  scheduleName : String
  workflowName : String
  workflowClassName : Option String := none
  schedule : String
  context : String
  status : ScheduleStatus := .active
  automaticBackfill : Bool := false
  cronTimezone : String := ""
  queueName : Option String := none
  lastFiredAt : Option String := none
  applicationName : Option String := none
  deriving DecidableEq, Repr

/-- A row with a column `application_name`, which is claimed by `COALESCE(application_name, owner)`. -/
class OwnedRow (ρ : Type*) where
  owner : ρ → Option String
  claim : String → ρ → ρ
  owner_claim : ∀ app r, owner (claim app r) = some ((owner r).getD app)

instance : OwnedRow QueueRow where
  owner := QueueRow.applicationName
  claim app r := { r with applicationName := r.applicationName.or (some app) }
  owner_claim app r := by cases r.applicationName <;> rfl

instance : OwnedRow ScheduleRow where
  owner := ScheduleRow.applicationName
  claim app r := { r with applicationName := r.applicationName.or (some app) }
  owner_claim app r := by cases r.applicationName <;> rfl

def nameOwner {ρ : Type*} [OwnedRow ρ] (row : Option ρ) : Option String := row.bind OwnedRow.owner

/-- `resolveRowOwner`, for the row that the look-up returns. -/
def resolveRowOwner {ρ : Type*} [OwnedRow ρ] (kind name : String) (row : Option ρ) (owner : Option String) :
    Except GoError (Option String) :=
  match row with
  | none => .ok owner
  | some r =>
    match OwnedRow.owner r, owner with
    | none, _ => .ok owner
    | some current, none => .ok (some current)
    | some current, some requested =>
      if current = requested then .ok (some current)
      else .error (newNameOwnedByPeerError kind name current requested)

/-! ### The calls -/

inductive Statements
  | queue (updateExisting : Bool)
  | schedule
  deriving DecidableEq, Repr

/-- A call: what it inserts, and what it makes of a row that is there. -/
structure Registration (ρ : Type*) [OwnedRow ρ] where
  kind : String
  name : String
  applicationName : String
  statements : Statements
  row : ρ
  overwrite : ρ → ρ
  owner_row : OwnedRow.owner row = some applicationName
  owner_overwrite : ∀ r, OwnedRow.owner (overwrite r) = OwnedRow.owner r

/-- `UpsertQueueDBInput`, for a call with an application name, and what the call draws: the ID of a new
row and the readings of the clock. -/
structure UpsertQueueInput where
  queue : Queue.QueueConfig
  priorityEnabled : Bool := false
  basePollingInterval : Int := 0
  updateExisting : Bool
  applicationName : String
  queueID : String
  now : Int
  updateNow : Int
  deriving DecidableEq, Repr

def defaultBasePollingInterval : Int := 1000000000

namespace UpsertQueueInput

variable (i : UpsertQueueInput)

def pollingInterval : Int := if i.basePollingInterval ≤ 0 then defaultBasePollingInterval else i.basePollingInterval

def updateQueueRow (r : QueueRow) : QueueRow :=
  { r with
    concurrency := i.queue.globalConcurrency
    workerConcurrency := i.queue.workerConcurrency
    rateLimitMax := i.queue.rateLimit.map (·.limit)
    rateLimitPeriod := i.queue.rateLimit.map (·.period)
    priorityEnabled := i.priorityEnabled
    partitionQueue := i.queue.partitionQueue
    pollingInterval := i.pollingInterval
    updatedAt := i.updateNow }

def upsertQueue : Registration QueueRow where
  kind := "Queue"
  name := i.queue.name
  applicationName := i.applicationName
  statements := .queue i.updateExisting
  row :=
    { queueID := i.queueID
      name := i.queue.name
      concurrency := i.queue.globalConcurrency
      workerConcurrency := i.queue.workerConcurrency
      rateLimitMax := i.queue.rateLimit.map (·.limit)
      rateLimitPeriod := i.queue.rateLimit.map (·.period)
      priorityEnabled := i.priorityEnabled
      partitionQueue := i.queue.partitionQueue
      pollingInterval := i.pollingInterval
      createdAt := i.now
      updatedAt := i.now
      applicationName := some i.applicationName }
  overwrite := i.updateQueueRow
  owner_row := rfl
  owner_overwrite _ := rfl

end UpsertQueueInput

/-- `UpsertScheduleDBInput`, for a call with an application name. -/
structure UpsertScheduleInput where
  scheduleID : String
  scheduleName : String
  workflowName : String
  workflowClassName : String := ""
  schedule : String
  context : String
  status : ScheduleStatus := .active
  automaticBackfill : Bool := false
  cronTimezone : String := ""
  queueName : String := ""
  applicationName : String
  deriving DecidableEq, Repr

/-- `UpsertSchedule`; on a conflict the ID, the status and the last firing are kept. -/
def UpsertScheduleInput.upsertSchedule (i : UpsertScheduleInput) : Registration ScheduleRow where
  kind := "Schedule"
  name := i.scheduleName
  applicationName := i.applicationName
  statements := .schedule
  row :=
    { scheduleID := i.scheduleID
      scheduleName := i.scheduleName
      workflowName := i.workflowName
      workflowClassName := nullIfEmpty i.workflowClassName
      schedule := i.schedule
      context := i.context
      status := i.status
      automaticBackfill := i.automaticBackfill
      cronTimezone := i.cronTimezone
      queueName := nullIfEmpty i.queueName
      applicationName := some i.applicationName }
  overwrite r :=
    { r with
      workflowName := i.workflowName
      workflowClassName := nullIfEmpty i.workflowClassName
      schedule := i.schedule
      context := i.context
      cronTimezone := i.cronTimezone
      queueName := nullIfEmpty i.queueName
      automaticBackfill := i.automaticBackfill }
  owner_row := rfl
  owner_overwrite _ := rfl

/-! ### The interleavings -/

inductive Phase
  | start
  /-- the first look-up found no other owner -/
  | checked
  | inserted
  /-- the `INSERT` did nothing -/
  | skipped
  | updated
  | claimed
  /-- the second look-up found no other owner -/
  | rechecked
  /-- the call returned nil, and whether it inserted the row -/
  | returned (inserted : Bool)
  | failed (err : GoError)
  deriving DecidableEq, Repr

variable {ρ κ : Type*} [DecidableEq κ]

/-- The committed row under the name, the call that holds the lock with the row as it has written it,
and the calls. -/
structure State (ρ κ : Type*) where
  row : Option ρ
  lock : Option (κ × ρ)
  phase : κ → Phase

namespace State

def view (s : State ρ κ) (p : κ) : Option ρ :=
  match s.lock with
  | some (q, r) => if q = p then some r else s.row
  | none => s.row

def goto (s : State ρ κ) (p : κ) (phase : Phase) : State ρ κ := { s with phase := Function.update s.phase p phase }

def write (s : State ρ κ) (p : κ) (r : ρ) (phase : Phase) : State ρ κ :=
  { s.goto p phase with lock := some (p, r) }

def unlocked (s : State ρ κ) (p : κ) : Option (κ × ρ) := s.lock.filter fun l => l.1 ≠ p

def rollback (s : State ρ κ) (p : κ) (err : GoError) : State ρ κ :=
  { s.goto p (.failed err) with lock := s.unlocked p }

def commit (s : State ρ κ) (p : κ) (phase : Phase) : State ρ κ :=
  { s.goto p phase with row := s.view p, lock := s.unlocked p }

end State

section Frame

variable {s : State ρ κ} {p q : κ}

@[simp] theorem phase_goto_self (phase : Phase) : (s.goto p phase).phase p = phase := Function.update_self ..

theorem phase_goto_of_ne (h : q ≠ p) (phase : Phase) : (s.goto p phase).phase q = s.phase q :=
  Function.update_of_ne h ..

theorem view_of_lock {r : ρ} (h : s.lock = some (p, r)) : s.view p = some r := by
  simp [State.view, h]

theorem view_of_not_lock (h : ∀ r, s.lock ≠ some (p, r)) : s.view p = s.row := by
  unfold State.view
  cases hl : s.lock with
  | none => rfl
  | some l =>
    have hne : l.1 ≠ p := fun hp => h l.2 (by rw [hl, ← hp])
    exact if_neg hne

theorem unlocked_eq_some {l : κ × ρ} : s.unlocked p = some l ↔ s.lock = some l ∧ l.1 ≠ p := by
  simp [State.unlocked, Option.filter_eq_some_iff]

end Frame

inductive Action (κ : Type*)
  /-- the first look-up -/
  | check (p : κ)
  | insert (p : κ)
  | update (p : κ)
  | claim (p : κ)
  /-- the statement of `UpsertSchedule` -/
  | upsert (p : κ)
  /-- the second look-up -/
  | recheck (p : κ)
  /-- the commit, whose acknowledgement may be lost -/
  | commit (p : κ) (acknowledged : Bool)
  /-- a crash, a failed statement, or a caller that rolls back -/
  | fail (p : κ) (err : GoError)

def commitError : GoError := .new "failed to commit transaction"

variable [OwnedRow ρ] (calls : κ → Registration ρ)

def lookUp (s : State ρ κ) (p : κ) (phase : Phase) : State ρ κ :=
  match resolveRowOwner (calls p).kind (calls p).name (s.view p) (some (calls p).applicationName) with
  | .error err => s.rollback p err
  | .ok _ => s.goto p phase

def step (s : State ρ κ) : Action κ → Option (State ρ κ)
  | .check p => if s.phase p = .start then some (lookUp calls s p .checked) else none
  | .insert p =>
    if s.phase p = .checked ∧ (calls p).statements ≠ .schedule then
      match s.row, s.lock with
      | some _, _ => some (s.goto p .skipped)
      | none, none => some (s.write p (calls p).row .inserted)
      -- another call is inserting the row
      | none, some _ => none
    else none
  | .update p =>
    if s.phase p = .skipped ∧ (calls p).statements = .queue true then
      match s.row, s.lock with
      | none, _ => some (s.rollback p (.new ("queue " ++ (calls p).name ++ " does not exist")))
      | some r, none => some (s.write p ((calls p).overwrite r) .updated)
      | some _, some _ => none
    else none
  | .claim p =>
    if s.phase p = .updated then
      (s.view p).map fun r => s.write p (OwnedRow.claim (calls p).applicationName r) .claimed
    else none
  | .upsert p =>
    if s.phase p = .checked ∧ (calls p).statements = .schedule ∧ s.lock.isNone then
      match s.row with
      | none => some (s.write p (calls p).row .claimed)
      | some r => some (s.write p (OwnedRow.claim (calls p).applicationName ((calls p).overwrite r)) .claimed)
    else none
  | .recheck p =>
    if s.phase p = .claimed ∨ s.phase p = .skipped ∧ (calls p).statements = .queue false then
      some (lookUp calls s p .rechecked)
    else none
  | .commit p acknowledged =>
    if s.phase p = .inserted ∨ s.phase p = .rechecked then
      some (s.commit p (if acknowledged then .returned (s.phase p = .inserted) else .failed commitError))
    else none
  | .fail p err =>
    match s.phase p with
    | .returned _ | .failed _ => none
    | _ => some (s.rollback p err)

def system : System (State ρ κ) (Action κ) where
  init s := s.lock = none ∧ ∀ p, s.phase p = .start
  step := step calls

/-! ### What a step can be -/

inductive Moves (s : State ρ κ) : Action κ → State ρ κ → Prop
  /-- a statement that writes nothing, and the first look-up -/
  | goto {a p phase} (hact : ∀ q b, a ≠ .commit q b)
      (hphase : s.phase p = .start ∧ phase = .checked ∨ s.phase p = .checked ∧ phase = .skipped) :
      Moves s a (s.goto p phase)
  | recheck {p} (hphase : s.phase p = .claimed ∨ s.phase p = .skipped ∧ (calls p).statements = .queue false)
      (howner : ∀ app, nameOwner (s.view p) = some app → app = (calls p).applicationName) :
      Moves s (.recheck p) (s.goto p .rechecked)
  | insert {p} (hphase : s.phase p = .checked) (hlock : s.lock = none) (hrow : s.row = none) :
      Moves s (.insert p) (s.write p (calls p).row .inserted)
  | update {p r} (hphase : s.phase p = .skipped) (hlock : s.lock = none) (hrow : s.row = some r) :
      Moves s (.update p) (s.write p ((calls p).overwrite r) .updated)
  | claim {p r} (hphase : s.phase p = .updated) (hview : s.view p = some r) :
      Moves s (.claim p) (s.write p (OwnedRow.claim (calls p).applicationName r) .claimed)
  | upsert {p r} (hphase : s.phase p = .checked) (hlock : s.lock = none)
      (howner : OwnedRow.owner r = some ((nameOwner s.row).getD (calls p).applicationName)) :
      Moves s (.upsert p) (s.write p r .claimed)
  | rollback {a p err} (hact : ∀ q b, a ≠ .commit q b) : Moves s a (s.rollback p err)
  | commit {p acknowledged} (hphase : s.phase p = .inserted ∨ s.phase p = .rechecked) :
      Moves s (.commit p acknowledged)
        (s.commit p (if acknowledged then .returned (s.phase p = .inserted) else .failed commitError))

theorem eq_of_resolveRowOwner {kind name app : String} {row : Option ρ} {owner : Option String}
    (h : resolveRowOwner kind name row (some app) = .ok owner) : ∀ current, nameOwner row = some current → current = app := by
  intro current hcurrent
  unfold resolveRowOwner at h
  cases row with
  | none => cases hcurrent
  | some r =>
    have hr : OwnedRow.owner r = some current := hcurrent
    simp only [hr] at h
    split_ifs at h with heq
    exact heq

theorem lookUp_cases (s : State ρ κ) (p : κ) (phase : Phase) :
    lookUp calls s p phase = s.goto p phase ∧
        (∀ app, nameOwner (s.view p) = some app → app = (calls p).applicationName) ∨
      ∃ err, lookUp calls s p phase = s.rollback p err := by
  unfold lookUp
  split
  · exact .inr ⟨_, rfl⟩
  · exact .inl ⟨rfl, eq_of_resolveRowOwner ‹_›⟩

variable {calls} {s t : State ρ κ}

theorem moves_of_step {a : Action κ} (h : step calls s a = some t) : Moves calls s a t := by
  cases a with
  | check p =>
    simp only [step] at h
    split_ifs at h with hp
    cases h
    rcases lookUp_cases calls s p .checked with ⟨heq, -⟩ | ⟨err, heq⟩ <;> rw [heq]
    · exact .goto (by simp) (.inl ⟨hp, rfl⟩)
    · exact .rollback (by simp)
  | insert p =>
    simp only [step] at h
    split_ifs at h with hp
    split at h
    · cases h
      exact .goto (by simp) (.inr ⟨hp.1, rfl⟩)
    · cases h
      exact .insert hp.1 ‹_› ‹_›
    · cases h
  | update p =>
    simp only [step] at h
    split_ifs at h with hp
    split at h
    · cases h
      exact .rollback (by simp)
    · cases h
      exact .update hp.1 ‹_› ‹_›
    · cases h
  | claim p =>
    simp only [step] at h
    split_ifs at h with hp
    obtain ⟨r, hr, rfl⟩ := Option.map_eq_some_iff.1 h
    exact .claim hp hr
  | upsert p =>
    simp only [step] at h
    split_ifs at h with hp
    obtain ⟨hp, -, hlock⟩ := hp
    have hlock := Option.isNone_iff_eq_none.1 hlock
    split at h <;> cases h
    · refine .upsert hp hlock ?_
      rw [(calls p).owner_row]
      simp [nameOwner, *]
    · refine .upsert hp hlock ?_
      rw [OwnedRow.owner_claim, (calls p).owner_overwrite]
      simp [nameOwner, *]
  | recheck p =>
    simp only [step] at h
    split_ifs at h with hp
    cases h
    rcases lookUp_cases calls s p .rechecked with ⟨heq, howner⟩ | ⟨err, heq⟩ <;> rw [heq]
    · exact .recheck hp howner
    · exact .rollback (by simp)
  | commit p acknowledged =>
    obtain ⟨hp, h⟩ := Option.ite_none_right_eq_some.1 h
    cases h
    exact .commit hp
  | fail p err =>
    simp only [step] at h
    split at h <;> try cases h
    exact .rollback (by simp)

/-! ### The invariant -/

/-- What is known of the row that the holder of the lock has written. -/
def Holds (call : Registration ρ) (row : Option ρ) (r : ρ) : Phase → Prop
  | .inserted => row = none ∧ OwnedRow.owner r = some call.applicationName
  | .updated => OwnedRow.owner r = nameOwner row
  | .claimed => OwnedRow.owner r = some ((nameOwner row).getD call.applicationName)
  | .rechecked => OwnedRow.owner r = some call.applicationName ∧
      ∀ app, nameOwner row = some app → app = call.applicationName
  | .start | .checked | .skipped | .returned _ | .failed _ => False

def HasWritten (call : Registration ρ) : Phase → Prop
  | .inserted | .updated | .claimed => True
  | .rechecked => call.statements ≠ .queue false
  | .start | .checked | .skipped | .returned _ | .failed _ => False

structure Inv (calls : κ → Registration ρ) (s : State ρ κ) : Prop where
  lock : ∀ p r, s.lock = some (p, r) → Holds (calls p) s.row r (s.phase p)
  held : ∀ p, HasWritten (calls p) (s.phase p) → ∃ r, s.lock = some (p, r)

omit [DecidableEq κ] in
theorem Inv.lock_ne {p : κ} (h : Inv calls s) (hp : ∀ row r, ¬ Holds (calls p) row r (s.phase p)) :
    ∀ r, s.lock ≠ some (p, r) :=
  fun r hr => hp _ r (h.lock p r hr)

theorem Inv.goto (h : Inv calls s) {p : κ} {phase : Phase}
    (hlock : ∀ r, s.lock = some (p, r) → Holds (calls p) s.row r phase)
    (hheld : HasWritten (calls p) phase → ∃ r, s.lock = some (p, r)) : Inv calls (s.goto p phase) where
  lock q r hr := by
    by_cases hq : q = p
    · subst hq
      rw [phase_goto_self]
      exact hlock r hr
    · rw [phase_goto_of_ne hq]
      exact h.lock q r hr
  held q hw := by
    by_cases hq : q = p
    · subst hq
      rw [phase_goto_self] at hw
      exact hheld hw
    · rw [phase_goto_of_ne hq] at hw
      exact h.held q hw

theorem Inv.write (h : Inv calls s) {p : κ} {r : ρ} {phase : Phase} (hfree : ∀ q r, s.lock = some (q, r) → q = p)
    (hholds : Holds (calls p) s.row r phase) : Inv calls (s.write p r phase) where
  lock q r' hr := by
    cases hr
    show Holds (calls p) s.row r ((s.goto p phase).phase p)
    rw [phase_goto_self]
    exact hholds
  held q hw := by
    by_cases hq : q = p
    · exact ⟨r, by rw [hq]; rfl⟩
    · have hw : HasWritten (calls q) ((s.goto p phase).phase q) := hw
      rw [phase_goto_of_ne hq] at hw
      obtain ⟨r', hr'⟩ := h.held q hw
      exact absurd (hfree q r' hr') hq

/-- A call ends: its lock goes, and the row stays or, for the holder of the lock, becomes its own. -/
theorem Inv.finish (h : Inv calls s) {p : κ} {phase : Phase} {row : Option ρ}
    (hphase : ¬ HasWritten (calls p) phase)
    (hlock : ∀ q r, s.lock = some (q, r) → q ≠ p → row = s.row) :
    Inv calls { s.goto p phase with row := row, lock := s.unlocked p } where
  lock q r hr := by
    obtain ⟨hr, hq⟩ := unlocked_eq_some.1 hr
    show Holds (calls q) row r ((s.goto p phase).phase q)
    rw [phase_goto_of_ne hq, hlock q r hr hq]
    exact h.lock q r hr
  held q hw := by
    have hw : HasWritten (calls q) ((s.goto p phase).phase q) := hw
    by_cases hq : q = p
    · subst hq
      rw [phase_goto_self] at hw
      exact absurd hw hphase
    · rw [phase_goto_of_ne hq] at hw
      obtain ⟨r, hr⟩ := h.held q hw
      exact ⟨r, unlocked_eq_some.2 ⟨hr, hq⟩⟩

theorem Inv.rollback (h : Inv calls s) {p : κ} {err : GoError} : Inv calls (s.rollback p err) :=
  h.finish (by simp [HasWritten]) fun _ _ _ _ => rfl

/-- **The step lemma.** -/
theorem Inv.step {a : Action κ} (h : Inv calls s) (hmoves : Moves calls s a t) : Inv calls t := by
  cases hmoves with
  | @goto a p phase hact hphase =>
    rcases hphase with ⟨hp, rfl⟩ | ⟨hp, rfl⟩
    · exact h.goto (fun r hr => absurd hr (h.lock_ne (by simp [hp, Holds]) r)) (by simp [HasWritten])
    · exact h.goto (fun r hr => absurd hr (h.lock_ne (by simp [hp, Holds]) r)) (by simp [HasWritten])
  | @recheck p hphase howner =>
    refine h.goto (fun r hr => ?_) fun hw => ?_
    · have hholds := h.lock p r hr
      rcases hphase with hp | ⟨hp, -⟩
      · rw [hp] at hholds
        have hr' : OwnedRow.owner r = some ((nameOwner s.row).getD (calls p).applicationName) := hholds
        have heq := howner _ (show nameOwner (s.view p) = _ by rw [view_of_lock hr]; exact hr')
        refine ⟨heq ▸ hr', fun app happ => ?_⟩
        rw [happ] at heq
        exact heq
      · rw [hp] at hholds
        exact hholds.elim
    · rcases hphase with hp | ⟨-, hqueue⟩
      · exact h.held p (by simp [hp, HasWritten])
      · exact absurd hqueue hw
  | insert hphase hlock hrow => exact h.write (by simp [hlock]) ⟨hrow, (calls _).owner_row⟩
  | update hphase hlock hrow =>
    refine h.write (by simp [hlock]) ?_
    rw [hrow]
    exact (calls _).owner_overwrite _
  | @claim p r hphase hview =>
    obtain ⟨r', hr'⟩ := h.held p (by simp [hphase, HasWritten])
    have hholds := h.lock p r' hr'
    rw [hphase] at hholds
    obtain rfl : r' = r := Option.some.inj ((view_of_lock hr').symm.trans hview)
    refine h.write (fun q r hr => ?_) ?_
    · exact (congrArg Prod.fst (Option.some.inj (hr.symm.trans hr')))
    · have hr : OwnedRow.owner r' = nameOwner s.row := hholds
      exact (OwnedRow.owner_claim _ _).trans (by rw [hr])
  | upsert hphase hlock howner => exact h.write (by simp [hlock]) howner
  | rollback => exact h.rollback
  | @commit p acknowledged hphase =>
    refine h.finish (by cases acknowledged <;> simp [HasWritten]) fun q r hr hq => ?_
    refine view_of_not_lock fun r' hr' => hq ?_
    exact congrArg Prod.fst (Option.some.inj (hr.symm.trans hr'))

/-! ### Owners -/

/-- A step leaves the owner of a name, and only the owner's commit changes the row. -/
structure Kept (calls : κ → Registration ρ) (pre : State ρ κ) (a : Action κ) (post : State ρ κ) : Prop where
  owner : ∀ app, nameOwner pre.row = some app → nameOwner post.row = some app
  writer : ∀ app, nameOwner pre.row = some app → post.row ≠ pre.row →
    ∃ p acknowledged, a = .commit p acknowledged ∧ (calls p).applicationName = app

/-- A call that returns nil in this step is not one of another application than the owner. -/
def Refused (calls : κ → Registration ρ) (pre post : State ρ κ) : Prop :=
  ∀ p inserted, post.phase p = .returned inserted → pre.phase p ≠ .returned inserted →
    ∀ app, nameOwner post.row = some app → app = (calls p).applicationName

/-- A call of `UpsertQueue` that is not to update, and found a row, returns nil only as long as no other
application has taken the name. -/
def StillUnclaimed (calls : κ → Registration ρ) (s : State ρ κ) : Action κ → Prop
  | .commit p true => (calls p).statements = .queue false → s.phase p = .rechecked →
      ∀ app ∈ nameOwner s.row, app = (calls p).applicationName
  | _ => True

instance (calls : κ → Registration ρ) (s : State ρ κ) (a : Action κ) : Decidable (StillUnclaimed calls s a) := by
  unfold StillUnclaimed
  split <;> infer_instance

section Owners

variable {a : Action κ}

omit [DecidableEq κ] in
theorem Inv.commit_of_lock (h : Inv calls s) {p : κ} {r : ρ} (hr : s.lock = some (p, r))
    (hphase : s.phase p = .inserted ∨ s.phase p = .rechecked) :
    OwnedRow.owner r = some (calls p).applicationName ∧
      ∀ app, nameOwner s.row = some app → app = (calls p).applicationName := by
  have hholds := h.lock p r hr
  rcases hphase with hp | hp <;> rw [hp] at hholds
  · refine ⟨hholds.2, fun app happ => ?_⟩
    rw [hholds.1] at happ
    cases happ
  · exact hholds

theorem Inv.kept (h : Inv calls s) (hmoves : Moves calls s a t) : Kept calls s a t := by
  have hsame : t.row = s.row → Kept calls s a t :=
    fun hrow => ⟨fun app happ => by rw [hrow]; exact happ, fun _ _ hne => absurd hrow hne⟩
  cases hmoves with
  | goto | recheck | insert | update | claim | upsert | rollback => exact hsame rfl
  | @commit p acknowledged hphase =>
    by_cases hlock : ∃ r, s.lock = some (p, r)
    · obtain ⟨r, hr⟩ := hlock
      obtain ⟨howner, hold⟩ := h.commit_of_lock hr hphase
      refine ⟨fun app happ => ?_, fun app happ _ => ⟨p, acknowledged, rfl, (hold app happ).symm⟩⟩
      show nameOwner (s.view p) = some app
      rw [view_of_lock hr, hold app happ]
      exact howner
    · exact hsame (view_of_not_lock fun r hr => hlock ⟨r, hr⟩)

omit [DecidableEq κ] in
theorem stillUnclaimed_of_ne (h : ∀ p b, a ≠ .commit p b) : StillUnclaimed calls s a := by
  cases a with
  | commit p b => exact absurd rfl (h p b)
  | check | insert | update | claim | upsert | recheck | fail => trivial

theorem refused_of_goto {p : κ} {phase : Phase} (hphase : ∀ i, phase ≠ .returned i)
    (ht : t.phase = (s.goto p phase).phase) : Refused calls s t := by
  intro q i hpost hpre
  rw [ht] at hpost
  by_cases hq : q = p
  · subst hq
    rw [phase_goto_self] at hpost
    exact absurd hpost (hphase i)
  · rw [phase_goto_of_ne hq] at hpost
    exact absurd hpost hpre

theorem Inv.owner_of_returned (h : Inv calls s) {p : κ} (hphase : s.phase p = .inserted ∨ s.phase p = .rechecked)
    (hcond : StillUnclaimed calls s (.commit p true)) :
    ∀ app, nameOwner (s.view p) = some app → app = (calls p).applicationName := by
  intro app happ
  by_cases hlock : ∃ r, s.lock = some (p, r)
  · obtain ⟨r, hr⟩ := hlock
    rw [view_of_lock hr] at happ
    exact Option.some.inj (happ.symm.trans (h.commit_of_lock hr hphase).1)
  · have hwritten : ¬ HasWritten (calls p) (s.phase p) := fun hw => hlock (h.held p hw)
    rw [view_of_not_lock fun r hr => hlock ⟨r, hr⟩] at happ
    rcases hphase with hp | hp <;> rw [hp] at hwritten
    · exact absurd trivial hwritten
    · exact hcond (not_not.1 hwritten) hp app happ

theorem Inv.refused_iff (h : Inv calls s) (hmoves : Moves calls s a t) :
    Refused calls s t ↔ StillUnclaimed calls s a := by
  cases hmoves with
  | @goto a p phase hact hphase =>
    refine ⟨fun _ => stillUnclaimed_of_ne hact, fun _ => refused_of_goto (fun i => ?_) rfl⟩
    rcases hphase with ⟨-, rfl⟩ | ⟨-, rfl⟩ <;> simp
  | recheck | insert | update | claim | upsert =>
    exact ⟨fun _ => trivial, fun _ => refused_of_goto (by simp) rfl⟩
  | rollback hact => exact ⟨fun _ => stillUnclaimed_of_ne hact, fun _ => refused_of_goto (by simp) rfl⟩
  | @commit p acknowledged hphase =>
    cases acknowledged with
    | false => exact ⟨fun _ => trivial, fun _ => refused_of_goto (by simp) rfl⟩
    | true =>
      constructor
      · intro hrefused hqueue hp app happ
        by_cases hlock : ∃ r, s.lock = some (p, r)
        · obtain ⟨r, hr⟩ := hlock
          exact (h.commit_of_lock hr hphase).2 app happ
        · have hview : s.view p = s.row := view_of_not_lock fun r hr => hlock ⟨r, hr⟩
          refine hrefused p false ?_ (by simp [hp]) app ?_
          · show (s.goto p _).phase p = _
            simp [hp]
          · show nameOwner (s.view p) = some app
            rw [hview, happ]
      · intro hcond q i hpost hpre app happ
        have hpost : (s.goto p _).phase q = .returned i := hpost
        by_cases hq : q = p
        · subst hq
          exact h.owner_of_returned hphase hcond app happ
        · rw [phase_goto_of_ne hq] at hpost
          exact absurd hpost hpre

theorem inv_of_reaches (h : Reaches (system calls) (fun _ _ => True) s) : Inv calls s := by
  refine Reaches.invariant (I := Inv calls) ?_ (fun s a t hinv _ hstep => hinv.step (moves_of_step hstep)) h
  rintro s ⟨hlock, hstart⟩
  exact ⟨fun p r hr => by simp [hlock] at hr, fun p hw => by simp [hstart, HasWritten] at hw⟩

/-- The owner of a name in every run, and when another's call is refused. -/
theorem kept_and_refused_iff {tr : List (Transition (State ρ κ) (Action κ))} (hs : (system calls).init s)
    (h : Run (system calls) s tr t) :
    (∀ x ∈ tr, Kept calls x.pre x.act x.post) ∧
      ((∀ x ∈ tr, Refused calls x.pre x.post) ↔ ∀ x ∈ tr, StillUnclaimed calls x.pre x.act) := by
  have hinv : ∀ x ∈ tr, Inv calls x.pre ∧ Moves calls x.pre x.act x.post := by
    intro x hx
    obtain ⟨hreaches, hstep⟩ := h.transition_of_mem hs hx
    exact ⟨inv_of_reaches hreaches, moves_of_step hstep⟩
  refine ⟨fun x hx => (hinv x hx).1.kept (hinv x hx).2, ?_⟩
  exact forall₂_congr fun x hx => (hinv x hx).1.refused_iff (hinv x hx).2

end Owners

section Example

def unclaimed : State QueueRow Bool where
  row := some { queueID := "1", name := "q", pollingInterval := 1, createdAt := 0, updatedAt := 0 }
  lock := none
  phase _ := .start

/-- Application `a` updates the queue; application `b` only makes sure that it exists. -/
def twoApplications (p : Bool) : UpsertQueueInput where
  queue := { name := "q" }
  updateExisting := !p
  applicationName := if p then "b" else "a"
  queueID := "2"
  now := 1
  updateNow := 1

/-- `UpsertQueue` of application `a` on a row that is there. -/
def claims : List (Action Bool) :=
  [.check false, .insert false, .update false, .claim false, .recheck false, .commit false true]

/-- All of it falls between the second look-up of `b` and its return. -/
def takenMeanwhile : List (Action Bool) :=
  List.flatten [[.check true, .insert true, .recheck true], claims, [.commit true true]]

/-- `b` looks the owner up again once `a` has the name. -/
def takenBefore : List (Action Bool) :=
  List.flatten [[.check true, .insert true], claims, [.recheck true]]

def twoSchedules (p : Bool) : UpsertScheduleInput where
  scheduleID := "1"
  scheduleName := "s"
  workflowName := "f"
  schedule := "* * * * *"
  context := "null"
  applicationName := if p then "b" else "a"

def noSchedule : State ScheduleRow Bool := ⟨none, none, fun _ => .start⟩

/-- Both applications find no row; `b` waits for `a` and is refused. -/
def scheduledTwice : List (Action Bool) :=
  [.check true, .check false, .upsert false, .recheck false, .commit false true, .upsert true, .recheck true]

end Example

end Dbos.Names
