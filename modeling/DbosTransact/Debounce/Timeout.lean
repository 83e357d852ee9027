import DbosTransact.Debounce.Call
import DbosTransact.Lib.Transition
import DbosTransact.Models.Time

/-!
# The timeout of a debouncer

A debouncer with a timeout gives the workflow that a call enqueues a deadline, and no later call delays the
workflow past it. The deadline and the first delay are computed in different functions, from different
readings of the clock: `debounce` reads it for the deadline, and `Enqueue` reads it again for the delay.
What passes in between is added to the delay and not to the deadline.

Any number of calls are under way, with any keys, timeouts and delays; they share a clock that never goes
back. A commit may be lost on the way back, and the transaction is then made again or the call fails.
Everything else may happen to the table, as long as it delays no debounced workflow. Here the durations of
a call are in nanoseconds, as the readings are, and the columns in milliseconds.

* `Bounded`: no delayed debounced workflow waits past its deadline;
* `FromReading`: every deadline is at most the timeout after the reading of the call that enqueued the workflow;
* `InTime`: a call that enqueues a workflow computes a delay that is not past its deadline;
* `timeout_bound_iff`: deadlines are always as they should be, and the delays are in all states of a run
  exactly if its calls are in time.
-/

namespace Dbos.DebounceTimeout

open Relational Lts Debounce Time

def bounceInput (c : Call) (calledAt : Int) : DebounceInput :=
  { c.bounceInput calledAt with delayUntil := unixMilli (calledAt + c.delay) }

/-- `delayUntil`, as `Enqueue` computes it. -/
def delayUntil (c : Call) (delayFrom : Int) : Int := unixMilli (delayFrom + c.delayDuration)

/-- The deadline, as `debounce` computes it. -/
def deadline (c : Call) (deadlineFrom : Int) : Int := unixMilli (deadlineFrom + c.debouncer.timeout)

/-- The row that a call offers to `InsertWorkflowStatus`. -/
def enqueueRow (c : Call) (appName workflowID : String) (clock : Clock) : WorkflowRow :=
  InsertWorkflowStatusInput.row appName
    { c.enqueueInput workflowID clock with
      createdAt := unixMilli clock.createdAt
      updatedAt := unixMilli clock.updatedAt
      delayUntil := some (delayUntil c clock.delayFrom)
      debounceDeadline := if 0 < c.debouncer.timeout then some (deadline c clock.deadlineFrom) else none }

/-! ### Calls -/

inductive Stage
  | bouncing
  | called (calledAt : Int)
  | enqueueing
  | capped (deadlineFrom : Int)
  | delayed (deadlineFrom delayFrom : Int)
  | returned (result : Except GoError String)

def Stage.ofPhase : Phase → Stage
  | .bouncing => .bouncing
  | .enqueueing => .enqueueing
  | .returned result => .returned result

def Stage.read (now : Int) : Stage → Option Stage
  | .bouncing => some (.called now)
  | .enqueueing => some (.capped now)
  | .capped deadlineFrom => some (.delayed deadlineFrom now)
  | _ => none

/-- Who enqueued a workflow, and the reading of the clock for its deadline. -/
structure Origin where
  workflowID : String
  deadlineFrom : Int
  timeout : ℕ

structure Data where
  table : StatusTable
  origins : List Origin := []

structure State where
  data : Data
  calls : List (Call × Stage) := []
  clock : Int := 0

inductive Action
  | call (c : Call)
  | read (i : Nat) (now : Int)
  /-- the transaction of the bounce; a lost commit is made again -/
  | bounce (i : Nat) (now : Int) (lost : Bool)
  /-- the transaction of `Enqueue` -/
  | enqueue (i : Nat) (workflowID : String) (createdAt updatedAt : Int) (lost : Bool)
  | fail (i : Nat) (e : GoError)
  /-- whatever else happens to the table -/
  | others (t : StatusTable)

def Waiting (r : WorkflowRow) : Prop := r.status = .delayed ∧ r.isDebounced = true

instance (r : WorkflowRow) : Decidable (Waiting r) := inferInstanceAs (Decidable (_ ∧ _))

def times (r : WorkflowRow) : String × Option Int × Option Int := (r.workflowID, r.delayUntil, r.debounceDeadline)

/-- No debounced workflow is delayed anew: those that are delayed were so before, with the same times. -/
def Leaves (t t' : StatusTable) : Prop :=
  ∀ r' ∈ t'.rows, Waiting r' → ∃ r ∈ t.rows, Waiting r ∧ times r = times r'

instance (t t' : StatusTable) : Decidable (Leaves t t') :=
  inferInstanceAs (Decidable (∀ _ ∈ t'.rows, _))

namespace Data

variable (d : Data) (appName : String)

def origin? (workflowID : String) : Option Origin := d.origins.find? (·.workflowID = workflowID)

def bounce (input : DebounceInput) (now : Int) : Data :=
  { d with table := d.table.debounceDelayedWorkflow appName input (unixMilli now) }

/-- The transaction of `Enqueue`. -/
def insert (c : Call) (workflowID : String) (clock : Clock) : Except GoError Data :=
  if c.debouncer.workflowName = "" then .error (newInvalidOptionError "workflow name is required")
  else
    match d.table.insertWorkflowStatus (enqueueRow c appName workflowID clock) with
    | .ok t =>
      .ok
        { table := t
          origins :=
            if (d.table.find? workflowID).isSome then d.origins
            else ⟨workflowID, clock.deadlineFrom, c.debouncer.timeout⟩ :: d.origins }
    | .error e => .error e

end Data

def State.setStage (s : State) (i : Nat) (c : Call) (stage : Stage) : State :=
  { s with calls := s.calls.set i (c, stage) }

def step (appName : String) (s : State) : Action → Option State
  | .call c => some { s with calls := s.calls ++ [(c, .bouncing)] }
  | .read i now =>
    match s.calls[i]? with
    | some (c, stage) =>
      if s.clock ≤ now then (stage.read now).map fun stage => { s with clock := now }.setStage i c stage
      else none
    | none => none
  | .bounce i now lost =>
    match s.calls[i]? with
    | some (c, .called calledAt) =>
      let input := bounceInput c calledAt
      let result := debounceResult s.data.table appName input
      let next := if lost then .called calledAt else Stage.ofPhase (afterBounce c appName result)
      if s.clock ≤ now then
        some ({ s with data := s.data.bounce appName input now, clock := now }.setStage i c next)
      else none
    | _ => none
  | .enqueue i workflowID createdAt updatedAt lost =>
    match s.calls[i]? with
    | some (c, .delayed deadlineFrom delayFrom) =>
      let next := if lost then .delayed deadlineFrom delayFrom else .returned (.ok workflowID)
      if s.clock ≤ createdAt ∧ createdAt ≤ updatedAt then
        match s.data.insert appName c workflowID ⟨deadlineFrom, delayFrom, createdAt, updatedAt⟩ with
        | .ok d => some ({ s with data := d, clock := updatedAt }.setStage i c next)
        | .error e => some ({ s with clock := updatedAt }.setStage i c (Stage.ofPhase (afterError e)))
      else none
    | _ => none
  | .fail i e =>
    match s.calls[i]? with
    | some (c, .called _) | some (c, .delayed _ _) => some (s.setStage i c (.returned (.error e)))
    | _ => none
  | .others t => if Leaves s.data.table t then some { s with data := { s.data with table := t } } else none

def system (appName : String) : System State Action where
  init s := s.calls = [] ∧ s.data.origins = [] ∧ ∀ r ∈ s.data.table.rows, ¬ Waiting r
  step := step appName

/-! ### The bound -/

def WithinDeadline (r : WorkflowRow) : Prop :=
  Waiting r → ∀ deadline, r.debounceDeadline = some deadline →
    ∃ delayUntil, r.delayUntil = some delayUntil ∧ delayUntil ≤ deadline

def Bounded (d : Data) : Prop := ∀ r ∈ d.table.rows, WithinDeadline r

/-- Every deadline is at most the timeout after the reading of the call that enqueued the workflow. -/
def FromReading (d : Data) : Prop :=
  ∀ r ∈ d.table.rows, Waiting r → ∀ deadline, r.debounceDeadline = some deadline →
    ∃ o, d.origin? r.workflowID = some o ∧ ofUnixMilli deadline ≤ o.deadlineFrom + o.timeout

/-- **The condition.** A call that enqueues a workflow read the clock for its delay early enough. -/
def InTime (appName : String) (s : State) : Action → Prop
  | .enqueue i workflowID createdAt updatedAt _ => ∀ c deadlineFrom delayFrom,
      s.calls[i]? = some (c, .delayed deadlineFrom delayFrom) → s.data.table.find? workflowID = none →
      (s.data.insert appName c workflowID ⟨deadlineFrom, delayFrom, createdAt, updatedAt⟩).isOk →
      0 < c.debouncer.timeout → delayUntil c delayFrom ≤ deadline c deadlineFrom
  | _ => True

/-! ### What the transactions do -/

section Transactions

variable {appName workflowID : String} {d d' : Data} {c : Call} {clock : Clock}

theorem withinDeadline_debounce {r : WorkflowRow} (delayUntil : Int) (inputs : Option String)
    (serialization : String) (now : Int) :
    WithinDeadline (r.debounce appName delayUntil inputs serialization now) := by
  intro _ deadline hdeadline
  have hcap : r.debounceDeadline = some deadline := hdeadline
  simp only [WorkflowRow.debounce, hcap]
  refine ⟨_, rfl, ?_⟩
  split_ifs with hlt
  · exact le_rfl
  · omega

theorem mem_bounce {input : DebounceInput} {now : Int} {r : WorkflowRow} :
    r ∈ (d.bounce appName input now).table.rows ↔ ∃ x ∈ d.table.rows,
      (if StatusTable.debounceable input appName x then
        x.debounce appName input.delayUntil input.inputs input.serialization (unixMilli now) else x) = r := by
  simp only [Data.bounce, StatusTable.debounceDelayedWorkflow, Table.mem_update]

theorem bounded_bounce (h : Bounded d) (input : DebounceInput) (now : Int) :
    Bounded (d.bounce appName input now) := by
  intro r hr
  obtain ⟨x, hx, rfl⟩ := mem_bounce.1 hr
  split_ifs
  · exact withinDeadline_debounce _ _ _ _
  · exact h x hx

theorem fromReading_bounce (h : FromReading d) (input : DebounceInput) (now : Int) :
    FromReading (d.bounce appName input now) := by
  intro r hr
  obtain ⟨x, hx, rfl⟩ := mem_bounce.1 hr
  split_ifs <;> exact h x hx

theorem withinDeadline_enqueueRow :
    WithinDeadline (enqueueRow c appName workflowID clock) ↔
      (0 < c.debouncer.timeout → delayUntil c clock.delayFrom ≤ deadline c clock.deadlineFrom) := by
  have hwaiting : Waiting (enqueueRow c appName workflowID clock) := ⟨rfl, rfl⟩
  by_cases htimeout : 0 < c.debouncer.timeout
  · have hdeadline : (enqueueRow c appName workflowID clock).debounceDeadline =
        some (deadline c clock.deadlineFrom) := if_pos htimeout
    have hdelay : (enqueueRow c appName workflowID clock).delayUntil =
        some (delayUntil c clock.delayFrom) := rfl
    simp [WithinDeadline, hwaiting, hdeadline, hdelay, htimeout]
  · have hdeadline : (enqueueRow c appName workflowID clock).debounceDeadline = none := if_neg htimeout
    simp [WithinDeadline, hdeadline, htimeout]

theorem insert_cases (h : d.insert appName c workflowID clock = .ok d') :
    (d.table.find? workflowID = none ∧
      d'.table.rows = d.table.rows ++ [enqueueRow c appName workflowID clock] ∧
      d'.origins = ⟨workflowID, clock.deadlineFrom, c.debouncer.timeout⟩ :: d.origins) ∨
    ((d.table.find? workflowID).isSome ∧ Leaves d.table d'.table ∧ d'.origins = d.origins) := by
  unfold Data.insert at h
  split at h
  · cases h
  split at h
  · rename_i u hu
    cases h
    simp only [StatusTable.insertWorkflowStatus] at hu
    split at hu
    · cases hu
      have hkey : (enqueueRow c appName workflowID clock).workflowID = workflowID := rfl
      cases hfind : d.table.find? workflowID with
      | none =>
        refine .inl ⟨rfl, ?_, by simp⟩
        simp only [Table.upsert, hkey, hfind, Option.isSome_none, Bool.false_eq_true, ↓reduceIte,
          Table.rows_insert]
      | some r =>
        refine .inr ⟨rfl, ?_, by simp⟩
        simp only [Table.upsert, hkey, hfind, Option.isSome_some, ↓reduceIte]
        intro r' hr' hw'
        obtain ⟨x, hx, rfl⟩ := Table.mem_update.1 hr'
        refine ⟨x, hx, ?_⟩
        split_ifs at hw' ⊢ <;> exact ⟨hw', rfl⟩
    · cases hu
  · cases h

theorem times_eq {r r' : WorkflowRow} (h : times r = times r') :
    r.workflowID = r'.workflowID ∧ r.delayUntil = r'.delayUntil ∧
      r.debounceDeadline = r'.debounceDeadline := by
  simpa [times] using h

theorem bounded_of_leaves (h : Bounded d) (hl : Leaves d.table d'.table) : Bounded d' := by
  intro r' hr' hw'
  obtain ⟨r, hr, hw, htimes⟩ := hl r' hr' hw'
  obtain ⟨-, hdelay, hdeadline⟩ := times_eq htimes
  rw [← hdelay, ← hdeadline]
  exact h r hr hw

theorem fromReading_of_leaves (h : FromReading d) (hl : Leaves d.table d'.table)
    (horigins : d'.origins = d.origins) : FromReading d' := by
  intro r' hr' hw'
  obtain ⟨r, hr, hw, htimes⟩ := hl r' hr' hw'
  obtain ⟨hid, -, hdeadline⟩ := times_eq htimes
  rw [Data.origin?, horigins, ← hid, ← hdeadline]
  exact h r hr hw

theorem bounded_insert_iff (hd : Bounded d) (h : d.insert appName c workflowID clock = .ok d') :
    Bounded d' ↔ (d.table.find? workflowID = none → 0 < c.debouncer.timeout →
      delayUntil c clock.delayFrom ≤ deadline c clock.deadlineFrom) := by
  rcases insert_cases h with ⟨hnew, hrows, -⟩ | ⟨hsome, hl, -⟩
  · unfold Bounded
    rw [hrows, List.forall_mem_append, List.forall_mem_singleton, withinDeadline_enqueueRow]
    exact ⟨fun hb _ => hb.2, fun hc => ⟨hd, hc hnew⟩⟩
  · refine iff_of_true (bounded_of_leaves hd hl) ?_
    intro hnone
    rw [hnone] at hsome
    cases hsome

theorem fromReading_insert (hd : FromReading d) (h : d.insert appName c workflowID clock = .ok d') :
    FromReading d' := by
  rcases insert_cases h with ⟨hnew, hrows, horigins⟩ | ⟨-, hl, horigins⟩
  · intro r hr hw t ht
    rw [hrows] at hr
    rw [Data.origin?, horigins]
    rcases List.mem_append.1 hr with hr | hr
    · have hne : workflowID ≠ r.workflowID := fun heq => Table.find?_eq_none.1 hnew r hr heq.symm
      rw [List.find?_cons_of_neg (by simpa using hne)]
      exact hd r hr hw t ht
    · obtain rfl := List.mem_singleton.1 hr
      refine ⟨_, List.find?_cons_of_pos (decide_eq_true rfl), ?_⟩
      have hdeadline : (if 0 < c.debouncer.timeout then some (deadline c clock.deadlineFrom) else none) =
        some t := ht
      split_ifs at hdeadline
      cases hdeadline
      exact ofUnixMilli_unixMilli_le _
  · exact fromReading_of_leaves hd hl horigins

end Transactions

/-! ### Runs -/

section Runs

variable {appName : String} {s t : State} {a : Action}

/-- What a step does to the data: nothing, a bounce, an insertion or a change by others. -/
theorem step_cases (h : step appName s a = some t) :
    (t.data = s.data ∧ InTime appName s a) ∨
    (∃ input now, t.data = s.data.bounce appName input now ∧ InTime appName s a) ∨
    (∃ i c workflowID deadlineFrom delayFrom createdAt updatedAt lost,
      a = .enqueue i workflowID createdAt updatedAt lost ∧
      s.calls[i]? = some (c, .delayed deadlineFrom delayFrom) ∧
      s.data.insert appName c workflowID ⟨deadlineFrom, delayFrom, createdAt, updatedAt⟩ = .ok t.data) ∨
    (Leaves s.data.table t.data.table ∧ t.data.origins = s.data.origins ∧ InTime appName s a) := by
  cases a with
  | call c =>
    cases h
    exact .inl ⟨rfl, trivial⟩
  | read i now =>
    simp only [step] at h
    split at h
    · split_ifs at h
      obtain ⟨stage, -, rfl⟩ := Option.map_eq_some_iff.1 h
      exact .inl ⟨rfl, trivial⟩
    · cases h
  | bounce i now lost =>
    simp only [step] at h
    split at h
    · split at h
      · cases h
        exact .inr (.inl ⟨_, _, rfl, trivial⟩)
      · cases h
    · cases h
  | enqueue i workflowID createdAt updatedAt lost =>
    simp only [step] at h
    split at h
    · rename_i c deadlineFrom delayFrom hc
      split at h
      · split at h
        · rename_i d hd
          cases h
          exact .inr (.inr (.inl ⟨i, c, workflowID, deadlineFrom, delayFrom, createdAt, updatedAt, lost, rfl, hc, hd⟩))
        · rename_i e he
          cases h
          refine .inl ⟨rfl, ?_⟩
          intro c' _ _ hc' _ hok
          obtain ⟨⟩ := hc.symm.trans hc'
          rw [he] at hok
          cases hok
      · cases h
    · cases h
  | fail i e =>
    simp only [step] at h
    split at h
    · cases h
      exact .inl ⟨rfl, trivial⟩
    · cases h
      exact .inl ⟨rfl, trivial⟩
    · cases h
  | others u =>
    simp only [step] at h
    split_ifs at h with hleaves
    cases h
    exact .inr (.inr (.inr ⟨hleaves, rfl, trivial⟩))

theorem fromReading_step (hs : FromReading s.data) (h : step appName s a = some t) : FromReading t.data := by
  rcases step_cases h with ⟨hd, -⟩ | ⟨input, now, hd, -⟩ | ⟨i, c, id, _, _, _, _, _, -, -, hd⟩ | ⟨hl, ho, -⟩
  · rwa [hd]
  · rw [hd]
    exact fromReading_bounce hs input now
  · exact fromReading_insert hs hd
  · exact fromReading_of_leaves hs hl ho

/-- A step breaks the bound exactly if it is not in time. -/
theorem bounded_step_iff (hs : Bounded s.data) (h : step appName s a = some t) :
    Bounded t.data ↔ InTime appName s a := by
  rcases step_cases h with
    ⟨hd, hin⟩ | ⟨input, now, hd, hin⟩ | ⟨i, c, id, d₁, d₂, _, _, _, rfl, hc, hd⟩ | ⟨hl, -, hin⟩
  · rw [hd]
    exact iff_of_true hs hin
  · rw [hd]
    exact iff_of_true (bounded_bounce hs input now) hin
  · refine (bounded_insert_iff hs hd).trans ⟨?_, ?_⟩
    · intro hb c' _ _ hc' hnone _
      obtain ⟨⟩ := hc.symm.trans hc'
      exact hb hnone
    · intro hb hnone
      exact hb c d₁ d₂ hc hnone (by rw [hd]; rfl)
  · exact iff_of_true (bounded_of_leaves hs hl) hin

end Runs

section Example

private def report : Debouncer := { workflowName := "report", timeout := 1000000000 }

private def empty : State := { data := { table := .empty } }

private theorem init_empty : (system "app").init empty :=
  ⟨rfl, rfl, fun _ hr => absurd hr List.not_mem_nil⟩

/-- A call that enqueues a workflow; five milliseconds pass between the deadline and the delay. -/
private def first (delay : ℕ) : List Action :=
  [.call { debouncer := report, key := "k", delay := delay, inputs := none }, .read 0 0, .bounce 0 0 false,
    .read 0 0, .read 0 5000000, .enqueue 0 "wf" 5000000 5000000 false]

private def waitsPast (s : State) : Bool :=
  s.data.table.rows.any fun r => decide (Waiting r) &&
    decide (r.debounceDeadline = some 1000) && decide (r.delayUntil = some 1005)

private def prompt (s : State) : Bool :=
  s.calls.all fun x =>
    match x with
    | (c, .delayed deadlineFrom delayFrom) => decide (delayUntil c delayFrom ≤ deadline c deadlineFrom)
    | _ => true

end Example

end Dbos.DebounceTimeout
