import DbosTransact.Debounce.Call
import DbosTransact.Lib.Transition
import Mathlib.Data.List.TakeWhile
import Mathlib.Logic.Function.Basic

/-!
# Concurrent calls of `Debounce`

Any number of calls with one key under READ COMMITTED. The `UPDATE` of the bounce picks its row in the
snapshot of the statement, waits while another call has it locked, and then checks it again as it is
committed; the `INSERT` of an enqueue waits while another call has an uncommitted row under the key.
Between the statements the delayed workflows are promoted, claimed, completed and cancelled.
-/

namespace Dbos

open Lts Relational Debounce

namespace Coalesce

structure Config (n : ℕ) where
  appName : String
  workflowName : String
  queueName : String
  deduplicationID : String
  call : Fin n → Call
  name_call : ∀ i, (call i).debouncer.workflowName = workflowName
  queueName_call : ∀ i, (call i).queueName = queueName
  deduplicationID_call : ∀ i, (call i).deduplicationID = deduplicationID

inductive Stage
  | between (phase : Phase)
  | scanned (calledAt : Int) (candidate : Option String)
  | updated (calledAt now : Int) (workflowID : String)
  | unmatched
  | inserted (workflowID : String) (clock : Clock)

namespace Stage

def handle? : Stage → Option String
  | .between phase => phase.handle?
  | _ => none

def locked? : Stage → Option String
  | .updated _ _ workflowID => some workflowID
  | _ => none

def inserted? : Stage → Option String
  | .inserted workflowID _ => some workflowID
  | _ => none

def isBetween : Stage → Bool
  | .between _ => true
  | _ => false

def isReturned : Stage → Bool
  | .between (.returned _) => true
  | _ => false

end Stage

inductive Event (n : ℕ)
  | wrote (call : Fin n) (workflowID : String)
  | promoted (workflowID : String)
  deriving DecidableEq

namespace Event

variable {n : ℕ}

def workflowID : Event n → String
  | .wrote _ workflowID => workflowID
  | .promoted workflowID => workflowID

def writer (workflowID : String) : Event n → Option (Fin n)
  | .wrote i id => if id = workflowID then some i else none
  | .promoted _ => none

end Event

def inputOf {n : ℕ} (workflowID : String) (events : List (Event n)) : Option (Fin n) :=
  ((events.takeWhile (· ≠ .promoted workflowID)).filterMap (Event.writer workflowID)).getLast?

/-- The committed table, the calls, the events so far, and for each call the row right after its last
committed write. -/
structure State (n : ℕ) where
  table : StatusTable
  stage : Fin n → Stage
  events : List (Event n)
  last : Fin n → Option WorkflowRow

/-- Whether the client learns of a commit; a failed bounce is tried again if its error is retryable. -/
inductive Reply
  | acknowledged
  | lost (retried : Bool) (e : GoError)

def afterBounceError (retried : Bool) (e : GoError) : Phase :=
  if retried then .bouncing else .returned (.error e)

/-- The statements of others. A promotion takes those of the expired rows that were in its snapshot. -/
inductive Statement
  | transitionDelayedWorkflows (ids : List String) (appName : String) (now : Int)
  | operation (op : Lifecycle.Operation)

/-- The operations that move the rows which are there: claims, completions, cancels, suspensions,
wake-ups, resumes and recoveries. -/
def moves : Lifecycle.Operation → Bool
  | .dequeueWorkflows _ _ _ | .suspendWorkflowToDelayed _ _ _ | .setWorkflowDelay _ _ _ | .wake _ _
  | .updateWorkflowOutcome _ _ _ _ _ | .cancelWorkflows _ _ | .deadLetterWorkflows _ _ _
  | .reenqueueForRecovery _ _ _ _ | .resumeWorkflows _ _ _ => true
  | _ => false

namespace Statement

/-- The `WHERE` of a promotion. -/
def takes (ids : List String) (appName : String) (now : Int) (r : WorkflowRow) : Bool :=
  r.workflowID ∈ ids && r.delayExpired now && r.ownedBy appName

def onRow : Statement → WorkflowRow → WorkflowRow
  | .transitionDelayedWorkflows ids appName now, r => if takes ids appName now r then r.promote now else r
  | .operation op, r => op.onRow r

def apply (t : StatusTable) : Statement → Option StatusTable
  | .transitionDelayedWorkflows ids appName now =>
    some (t.update (takes ids appName now) (·.promote now) (WorkflowRow.workflowID_promote now))
  | .operation op => if moves op then Lifecycle.step t op else none

def promotions (t : StatusTable) : Statement → List String
  | .transitionDelayedWorkflows ids appName now =>
    (t.rows.filter (takes ids appName now)).map (·.workflowID)
  | .operation _ => []

end Statement

/-- A statement of a call, the end of its transaction, or a statement of others. -/
inductive Action (n : ℕ)
  | scan (i : Fin n) (calledAt : Int)
  | update (i : Fin n) (now : Int)
  | select (i : Fin n)
  | insert (i : Fin n) (workflowID : String) (clock : Clock)
  | commit (i : Fin n) (reply : Reply)
  | abort (i : Fin n) (retried : Bool) (e : GoError)
  | others (statement : Statement)

variable {n : ℕ}

namespace State

def goTo (s : State n) (i : Fin n) (stage : Stage) : State n :=
  { s with stage := Function.update s.stage i stage }

def write (s : State n) (i : Fin n) (workflowID : String) (table : StatusTable) (phase : Phase) : State n where
  table := table
  stage := Function.update s.stage i (.between phase)
  events := s.events ++ [.wrote i workflowID]
  last := Function.update s.last i (table.find? workflowID)

section Fields

variable (s : State n) (i : Fin n) (stage : Stage) (id : String) (t : StatusTable) (phase : Phase)

@[simp] theorem stage_goTo_self : (s.goTo i stage).stage i = stage := Function.update_self ..

@[simp] theorem stage_write_self : (s.write i id t phase).stage i = .between phase := Function.update_self ..

@[simp] theorem last_write_self : (s.write i id t phase).last i = t.find? id := Function.update_self ..

variable {i} {j : Fin n}

@[simp] theorem stage_goTo_of_ne (h : j ≠ i) : (s.goTo i stage).stage j = s.stage j := Function.update_of_ne h ..

@[simp] theorem stage_write_of_ne (h : j ≠ i) : (s.write i id t phase).stage j = s.stage j := Function.update_of_ne h ..

@[simp] theorem last_write_of_ne (h : j ≠ i) : (s.write i id t phase).last j = s.last j := Function.update_of_ne h ..

end Fields

def Unlocked (s : State n) (i : Fin n) (workflowID : String) : Prop :=
  ∀ j, j ≠ i → (s.stage j).locked? ≠ some workflowID

instance (s : State n) (i : Fin n) (workflowID : String) : Decidable (s.Unlocked i workflowID) :=
  inferInstanceAs (Decidable (∀ _, _))

def Uncontended (s : State n) (i : Fin n) : Prop := ∀ j, j ≠ i → (s.stage j).inserted? = none

instance (s : State n) (i : Fin n) : Decidable (s.Uncontended i) :=
  inferInstanceAs (Decidable (∀ _, _))

/-- The row that a call has locked is not one that the statement changes. -/
def leaves (s : State n) (statement : Statement) : Option String → Bool
  | none => true
  | some workflowID => (s.table.find? workflowID).all fun r => statement.onRow r = r

def Passes (s : State n) (statement : Statement) : Prop :=
  ∀ j, s.leaves statement (s.stage j).locked? = true

instance (s : State n) (statement : Statement) : Decidable (s.Passes statement) :=
  inferInstanceAs (Decidable (∀ _, _))

end State

section Step

variable (cfg : Config n)

def candidate (t : StatusTable) (i : Fin n) (calledAt : Int) : Option String :=
  (t.rows.find? (StatusTable.debounceable ((cfg.call i).bounceInput calledAt) cfg.appName)).map (·.workflowID)

def noBounce (t : StatusTable) : DebounceResult :=
  { holder := (t.rows.find? (holds cfg.queueName cfg.deduplicationID)).map holderOf }

def bounced (t : StatusTable) (i : Fin n) (calledAt now : Int) (workflowID : String) : StatusTable :=
  let input := (cfg.call i).bounceInput calledAt
  t.update (fun r => r.workflowID = workflowID)
    (·.debounce cfg.appName input.delayUntil input.inputs input.serialization now)
    (WorkflowRow.workflowID_debounce cfg.appName input.delayUntil input.inputs input.serialization now)

/-- The stage after the `INSERT`. -/
def afterInsert (workflowID : String) (clock : Clock) : Phase → Stage
  | .returned (.ok _) => .inserted workflowID clock
  | phase => .between phase

def afterAbort (retried : Bool) (e : GoError) : Stage → Option Stage
  | .scanned _ _ | .updated _ _ _ | .unmatched => some (.between (afterBounceError retried e))
  | .inserted _ _ => some (.between (afterError e))
  | .between _ => none

def Reply.bounce (workflowID : String) : Reply → Phase
  | .acknowledged => .returned (.ok workflowID)
  | .lost retried e => afterBounceError retried e

def Reply.enqueue (workflowID : String) : Reply → Phase
  | .acknowledged => .returned (.ok workflowID)
  | .lost _ e => afterError e

def step (s : State n) : Action n → Option (State n)
  | .scan i calledAt =>
    match s.stage i with
    | .between .bouncing => some (s.goTo i (.scanned calledAt (candidate cfg s.table i calledAt)))
    | _ => none
  | .update i now =>
    match s.stage i with
    | .scanned _ none => some (s.goTo i .unmatched)
    | .scanned calledAt (some id) =>
      if s.Unlocked i id then
        -- the row is checked again, as it is committed now
        some (s.goTo i
          (if (s.table.find? id).any
              (StatusTable.debounceable ((cfg.call i).bounceInput calledAt) cfg.appName) then
            .updated calledAt now id
          else .unmatched))
      else none
    | _ => none
  | .select i =>
    match s.stage i with
    | .unmatched =>
      some (s.goTo i (.between (afterBounce (cfg.call i) cfg.appName (noBounce cfg s.table))))
    | _ => none
  | .insert i id clock =>
    match s.stage i with
    | .between .enqueueing =>
      -- the ID is a new UUID
      if s.table.find? id = none ∧ s.Uncontended i then
        some (s.goTo i (afterInsert id clock (enqueue (cfg.call i) cfg.appName id clock s.table).2))
      else none
    | _ => none
  | .commit i reply =>
    match s.stage i with
    | .updated calledAt now id =>
      some (s.write i id (bounced cfg s.table i calledAt now id) (reply.bounce id))
    | .inserted id clock =>
      some (s.write i id (s.table.insert ((cfg.call i).row cfg.appName id clock)) (reply.enqueue id))
    | _ => none
  | .abort i retried e => (afterAbort retried e (s.stage i)).map (s.goTo i)
  | .others statement =>
    if s.Passes statement then
      (statement.apply s.table).map fun t =>
        { s with table := t, events := s.events ++ (statement.promotions s.table).map .promoted }
    else none

/-- Nobody uses the key, and the debounced workflows that hold a key are delayed. -/
def system : System (State n) (Action n) where
  init s :=
    (∀ r ∈ s.table.rows, r.deduplicationID ≠ some cfg.deduplicationID) ∧
    (∀ r ∈ s.table.rows, r.isDebounced = true → r.deduplicationID.isSome = true → r.status = .delayed) ∧
    (∀ i, s.stage i = .between .bouncing) ∧ s.events = [] ∧ s.last = fun _ => none
  step := step cfg

end Step

/-! ### The last call before the promotion -/

section InputOf

variable {workflowID : String} {events : List (Event n)}

theorem inputOf_append {new : List (Event n)} (h : ∀ e ∈ new, e.writer workflowID = none) :
    inputOf workflowID (events ++ new) = inputOf workflowID events := by
  have hnone : ∀ l : List (Event n), (∀ e ∈ l, e ∈ new) → l.filterMap (Event.writer workflowID) = [] :=
    fun l hl => List.filterMap_eq_nil_iff.2 fun e he => h e (hl e he)
  unfold inputOf
  rw [List.takeWhile_append]
  split_ifs with hlen
  · have hall : events.takeWhile (· ≠ .promoted workflowID) = events :=
      (List.takeWhile_prefix _).eq_of_length hlen
    rw [List.filterMap_append, hall, hnone _ fun e he => (List.takeWhile_sublist _).subset he,
      List.append_nil]
  · rfl

theorem inputOf_wrote (i : Fin n) (h : Event.promoted workflowID ∉ events) :
    inputOf workflowID (events ++ [.wrote i workflowID]) = some i := by
  have hall : (events ++ [Event.wrote i workflowID]).takeWhile (· ≠ .promoted workflowID) =
      events ++ [.wrote i workflowID] := by
    refine List.takeWhile_eq_self_iff.2 fun e he => ?_
    rw [decide_eq_true_eq]
    rintro rfl
    rcases List.mem_append.1 he with he | he
    · exact h he
    · simp at he
  unfold inputOf
  rw [hall, List.filterMap_append]
  simp [Event.writer]

end InputOf

/-! ### What the statements of others keep of a row -/

/-- The input of a row stays; no row gets a key; a delayed workflow that is debounced stays delayed, or
loses its key. -/
structure Kept (r r' : WorkflowRow) : Prop where
  workflowID : r'.workflowID = r.workflowID
  inputs : r'.inputs = r.inputs
  serialization : r'.serialization = r.serialization
  isDebounced : r'.isDebounced = r.isDebounced
  key : ∀ id, r'.deduplicationID = some id → r.deduplicationID = some id
  delayed : r.isDebounced = true → r.status = .delayed → r'.deduplicationID.isSome = true →
    r'.status = .delayed ∧ r'.queueName = r.queueName ∧ r'.name = r.name ∧
      r'.applicationName = r.applicationName

theorem Kept.rfl {r : WorkflowRow} : Kept r r :=
  ⟨.refl _, .refl _, .refl _, .refl _, fun _ h => h, fun _ h _ => ⟨h, .refl _, .refl _, .refl _⟩⟩

theorem Kept.of_not_delayed {r r' : WorkflowRow} {p : Bool} (hid : r'.workflowID = r.workflowID)
    (hinputs : r'.inputs = r.inputs) (hser : r'.serialization = r.serialization)
    (hdebounced : r'.isDebounced = r.isDebounced)
    (hkey : ∀ id, r'.deduplicationID = some id → r.deduplicationID = some id)
    (hp : p = true → r.status ≠ .delayed) : Kept r (if p then r' else r) := by
  split_ifs with h
  · exact ⟨hid, hinputs, hser, hdebounced, hkey, fun _ hdelayed => (hp h hdelayed).elim⟩
  · exact .rfl

theorem Kept.of_released {r r' : WorkflowRow} {p : Bool} (hid : r'.workflowID = r.workflowID)
    (hinputs : r'.inputs = r.inputs) (hser : r'.serialization = r.serialization)
    (hdebounced : r'.isDebounced = r.isDebounced) (hkey : r'.deduplicationID = none) :
    Kept r (if p then r' else r) := by
  split_ifs
  · refine ⟨hid, hinputs, hser, hdebounced, fun id h => ?_, fun _ _ h => ?_⟩
    · rw [hkey] at h
      cases h
    · rw [hkey] at h
      cases h
  · exact .rfl

theorem Kept.of_delay {r : WorkflowRow} {p : Bool} (delayUntil : Option Int) (updatedAt : Int) :
    Kept r (if p then { r with delayUntil := delayUntil, updatedAt := updatedAt } else r) := by
  split_ifs
  · exact ⟨.refl _, .refl _, .refl _, .refl _, fun _ h => h, fun _ h _ => ⟨h, .refl _, .refl _, .refl _⟩⟩
  · exact .rfl

theorem kept_onRow {op : Lifecycle.Operation} (h : moves op = true) (r : WorkflowRow) :
    Kept r (op.onRow r) := by
  have hpending : r.status = .pending → r.status ≠ .delayed := fun h h' => by simp [h] at h'
  cases op with
  | dequeueWorkflows c ids now =>
    refine Kept.of_not_delayed rfl rfl rfl rfl (fun _ h => h) fun hp => ?_
    simp only [StatusTable.claimTakes, Bool.and_eq_true, decide_eq_true_eq] at hp
    simp [hp.1.2]
  | suspendWorkflowToDelayed id delayUntil now =>
    refine Kept.of_not_delayed rfl rfl rfl rfl (fun _ h => h) fun hp => ?_
    simp only [Bool.and_eq_true, decide_eq_true_eq] at hp
    exact hpending hp.2
  | setWorkflowDelay id delayUntil now => exact Kept.of_delay _ _
  | wake ids now => exact Kept.of_delay _ _
  | updateWorkflowOutcome id failed output error now => exact Kept.of_released rfl rfl rfl rfl rfl
  | cancelWorkflows ids now => exact Kept.of_released rfl rfl rfl rfl rfl
  | deadLetterWorkflows ids minAttempts now => exact Kept.of_released rfl rfl rfl rfl rfl
  | reenqueueForRecovery appName executorIDs appVersion now =>
    refine Kept.of_not_delayed rfl rfl rfl rfl (fun _ h => h) fun hp => ?_
    simp only [StatusTable.recoverable, Bool.and_eq_true, decide_eq_true_eq] at hp
    exact hpending hp.1.1.1
  | resumeWorkflows ids queueName now => exact Kept.of_released rfl rfl rfl rfl rfl
  | _ => cases h

/-- A promotion releases the key of a debounced workflow. -/
theorem kept_promote (now : Int) (r : WorkflowRow) : Kept r (r.promote now) where
  workflowID := rfl
  inputs := rfl
  serialization := rfl
  isDebounced := rfl
  key id h := by
    simp only [WorkflowRow.promote] at h
    split_ifs at h
    exact h
  delayed hdebounced _ h := by simp [WorkflowRow.promote, hdebounced] at h

/-- **What a statement of others does to a row.** -/
theorem find?_apply {statement : Statement} {t t' : StatusTable} (h : statement.apply t = some t')
    (id : String) : t'.find? id = (t.find? id).map statement.onRow ∧ ∀ r, Kept r (statement.onRow r) := by
  cases statement with
  | transitionDelayedWorkflows ids appName now =>
    cases h
    refine ⟨Table.find?_update _ _ _ _ _, fun r => ?_⟩
    simp only [Statement.onRow]
    split_ifs
    · exact kept_promote now r
    · exact .rfl
  | operation op =>
    simp only [Statement.apply] at h
    split_ifs at h with hop
    refine ⟨?_, kept_onRow hop⟩
    have hremoves : op.removes = false := by
      cases op <;> first | rfl | cases hop
    have hmakes : ∀ r, ¬ op.Makes r := by
      cases op <;> first | exact fun _ h => h | cases hop
    cases hr : t.find? id with
    | some r => exact Lifecycle.find?_step_of_find? h hremoves hr
    | none =>
      cases hr' : t'.find? id with
      | none => rfl
      | some r' =>
        rcases Lifecycle.find?_step h hr' with ⟨r, hfound, -⟩ | ⟨-, hmade⟩
        · rw [hr] at hfound
          cases hfound
        · exact (hmakes r' hmade).elim

end Coalesce

end Dbos
