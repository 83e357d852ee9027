import DbosTransact.Queue.Dequeue
import Mathlib.Data.List.Dedup

/-!
# Worker concurrency

One executor's worker loop on a queue that is not partitioned. Each round counts the entries of the queue in
the map of active workflows, dequeues accordingly, and starts a goroutine for each claim, which registers
itself as its first step. The count misses a goroutine that has not registered yet, and an entry under a
partition key, which a resumed workflow carries along from the queue it was on before.
-/

namespace Dbos.Queue.Worker

open Relational Lts

/-- `activeWorkflowEntry`, under the workflow's identifier. -/
structure ActiveEntry where
  workflowID : String
  queueName : String := ""
  queuePartitionKey : String := ""
  deriving DecidableEq, Repr

/-- `activeWorkflowIDs`. -/
abbrev ActiveMap := Table ActiveEntry.workflowID

def countActiveWorkflowsForQueue (active : ActiveMap) (queueName queuePartitionKey : String) : ℕ :=
  active.count fun a => a.queueName = queueName && a.queuePartitionKey = queuePartitionKey

/-- Where a goroutine of `executeWorkflow` is: not yet registered, in the workflow function, returned
from it, or waiting for the execution that had registered before. -/
inductive Stage
  | started
  | running
  | returned
  | parked
  deriving DecidableEq, Repr

/-- A goroutine that the loop has started, with the entry under which it registers. -/
structure Goroutine where
  entry : ActiveEntry
  stage : Stage
  deriving DecidableEq, Repr

def Goroutine.runs (g : Goroutine) : Bool := g.stage = .started || g.stage = .running

inductive Loop
  | idle
  | counted (localRunningCount : ℕ)
  | claimed (ids : List String)
  | starting (statuses : List WorkflowRow)

def Loop.aboutToRun : Loop → List String
  | .idle | .counted _ => []
  | .claimed ids => ids
  | .starting statuses => statuses.map (·.workflowID)

structure State where
  table : StatusTable
  active : ActiveMap
  loop : Loop
  goroutines : List Goroutine

/-- The workflows claimed from the queue whose function runs or is about to run. -/
def State.occupied (s : State) : List String :=
  (s.loop.aboutToRun ++ (s.goroutines.filter (·.runs)).map (·.entry.workflowID)).dedup

/-- The goroutine `g` becomes `g'`. -/
def State.replace (s : State) (g g' : Goroutine) : State :=
  { s with goroutines := g' :: s.goroutines.erase g }

inductive Action
  | count
  | dequeue (isLatestVersion : Bool) (locked : List String) (ordered : List WorkflowRow) (now : Int)
      (acknowledged : Bool)
  | giveUp
  | listWorkflows
  | start
  | skip
  | sleep
  | register (g : Goroutine)
  | returns (g : Goroutine)
  | finish (g : Goroutine)
  | registerOther (a : ActiveEntry)
  | finishOther (id : String)
  | environment (op : Lifecycle.Operation)

/-- The entry under which `executeWorkflow` registers the workflow of a row. -/
def entryOf (r : WorkflowRow) : ActiveEntry :=
  ⟨r.workflowID, r.queueName.getD "", r.queuePartitionKey.getD ""⟩

section System

variable (q : QueueConfig) (e : Executor)

def claims (t : StatusTable) (localRunningCount : ℕ) (isLatestVersion : Bool) (locked : List String)
    (ordered : List WorkflowRow) (now : Int) : Option (List String) :=
  (budget q e ⟨"", localRunningCount⟩ now t).bind fun maxTasks =>
    if Table.OrderBy dispatchOrder (t.rows.filter (eligible q e "" isLatestVersion)) ordered ∧
        (q.snapshot = true → ∀ r ∈ ordered, r.workflowID ∉ locked) then
      some ((Table.limit (maxTasks.map Int.toNat)
        (ordered.filter fun r => r.workflowID ∉ locked)).map (·.workflowID))
    else none

def step (s : State) : Action → Option State
  | .count =>
    match s.loop with
    | .idle =>
      some { s with loop := .counted (countActiveWorkflowsForQueue s.active q.name "") }
    | _ => none
  | .dequeue isLatestVersion locked ordered now acknowledged =>
    match s.loop with
    | .counted localRunningCount =>
      (claims q e s.table localRunningCount isLatestVersion locked ordered now).map fun ids =>
        -- a commit whose acknowledgement is lost makes the loop count and dequeue again
        { s with
          table := s.table.claim (claimOf q e) ids (unixMilli now)
          loop := if acknowledged then .claimed ids else .idle }
    | _ => none
  | .giveUp =>
    match s.loop with
    | .counted _ | .claimed _ => some { s with loop := .idle }
    | _ => none
  | .listWorkflows =>
    match s.loop with
    | .claimed ids => some { s with loop := .starting (ids.filterMap s.table.find?) }
    | _ => none
  | .start =>
    match s.loop with
    | .starting (r :: statuses) =>
      if r.status = .pending then
        some { s with
          loop := .starting statuses
          goroutines := ⟨entryOf r, .started⟩ :: s.goroutines }
      else some { s with loop := .starting statuses }
    | _ => none
  -- not in the registry, or out of attempts
  | .skip =>
    match s.loop with
    | .starting (_ :: statuses) => some { s with loop := .starting statuses }
    | _ => none
  | .sleep =>
    match s.loop with
    | .starting [] => some { s with loop := .idle }
    | _ => none
  -- `LoadOrStore`
  | .register g =>
    if g ∈ s.goroutines ∧ g.stage = .started then
      if (s.active.find? g.entry.workflowID).isSome then some (s.replace g ⟨g.entry, .parked⟩)
      else some { s.replace g ⟨g.entry, .running⟩ with active := s.active.insert g.entry }
    else none
  | .returns g =>
    if g ∈ s.goroutines ∧ g.stage = .running then some (s.replace g ⟨g.entry, .returned⟩) else none
  | .finish g =>
    if g ∈ s.goroutines then
      if g.stage = .returned then
        some { s with
          goroutines := s.goroutines.erase g
          active := s.active.delete (·.workflowID = g.entry.workflowID) }
      else if g.stage = .parked then some { s with goroutines := s.goroutines.erase g }
      else none
    else none
  | .registerOther a =>
    if (s.active.find? a.workflowID).isSome then none
    else some { s with active := s.active.insert a }
  | .finishOther id =>
    if ∀ g ∈ s.goroutines, g.entry.workflowID = id → g.stage ≠ .running ∧ g.stage ≠ .returned then
      some { s with active := s.active.delete (·.workflowID = id) }
    else none
  | .environment op => (Lifecycle.step s.table op).map fun t => { s with table := t }

def system : System State Action where
  init s := s.loop = .idle ∧ s.goroutines = []
  step := step q e

end System

/-! ### The bound -/

section Bound

variable {q : QueueConfig} {e : Executor} {s s' : State} {w : Int}

theorem mem_occupied {id : String} : id ∈ s.occupied ↔
    id ∈ s.loop.aboutToRun ∨ ∃ g ∈ s.goroutines, g.runs = true ∧ g.entry.workflowID = id := by
  simp [State.occupied, and_assoc]

theorem occupied_subset (hloop : s'.loop.aboutToRun ⊆ s.occupied)
    (hgoroutines : ∀ g ∈ s'.goroutines, g.runs = true → g.entry.workflowID ∈ s.occupied) :
    s'.occupied ⊆ s.occupied := by
  intro id hid
  rcases mem_occupied.1 hid with hid | ⟨g, hg, hruns, rfl⟩
  · exact hloop hid
  · exact hgoroutines g hg hruns

theorem aboutToRun_subset (s : State) : s.loop.aboutToRun ⊆ s.occupied :=
  fun _ hid => mem_occupied.2 (.inl hid)

theorem mem_occupied_of_runs {g : Goroutine} (hg : g ∈ s.goroutines) (hruns : g.runs = true) :
    g.entry.workflowID ∈ s.occupied :=
  mem_occupied.2 (.inr ⟨g, hg, hruns, rfl⟩)

theorem occupied_subset_of_loop (hloop : s'.loop.aboutToRun ⊆ s.occupied)
    (hgoroutines : s'.goroutines = s.goroutines) : s'.occupied ⊆ s.occupied :=
  occupied_subset hloop fun _ hg => mem_occupied_of_runs (hgoroutines ▸ hg)

theorem occupied_replace_subset {g : Goroutine} (stage : Stage) (hg : g ∈ s.goroutines)
    (hruns : g.runs = true) : (s.replace g ⟨g.entry, stage⟩).occupied ⊆ s.occupied := by
  refine occupied_subset (aboutToRun_subset s) fun g' hg' hruns' => ?_
  rcases List.mem_cons.1 hg' with heq | hg'
  · subst heq
    exact mem_occupied.2 (.inr ⟨g, hg, hruns, rfl⟩)
  · exact mem_occupied_of_runs (List.mem_of_mem_erase hg') hruns'

theorem length_claims_le {t : StatusTable} {k : ℕ} {isLatestVersion : Bool} {locked : List String}
    {ordered : List WorkflowRow} {now : Int} {ids : List String} (hw : q.workerConcurrency = some w)
    (h : claims q e t k isLatestVersion locked ordered now = some ids) :
    (ids.length : Int) ≤ max (w - k) 0 := by
  obtain ⟨maxTasks, hbudget, h⟩ := Option.bind_eq_some_iff.1 h
  obtain ⟨m, rfl, hm⟩ := budget_le_worker hbudget hw
  split_ifs at h
  cases h
  have hlen : ((Table.limit (some m.toNat) (ordered.filter fun r => r.workflowID ∉ locked)).map
      (·.workflowID)).length ≤ m.toNat := by
    simp [Table.limit]
  simp only [Option.map_some] at hm ⊢
  omega

/-- What a step does: it dequeues on the count of the loop, or nothing more runs after it. -/
inductive Moves (q : QueueConfig) (s : State) : Action → State → Prop
  | count {s' : State} (hs' : s'.occupied ⊆ s.occupied)
      (hloop : s'.loop = .counted (countActiveWorkflowsForQueue s.active q.name "")) :
      Moves q s .count s'
  | dequeue {a : Action} {s' : State} {k : ℕ} {ids : List String} (hloop : s.loop = .counted k)
      (hlen : ∀ w, q.workerConcurrency = some w → (ids.length : Int) ≤ max (w - k) 0)
      (hs' : s'.occupied ⊆ s.occupied ++ ids) (hloop' : ∀ k', s'.loop ≠ .counted k') : Moves q s a s'
  | less {a : Action} {s' : State} (hs' : s'.occupied ⊆ s.occupied)
      (hloop : ∀ k, s'.loop = .counted k → s.loop = .counted k) : Moves q s a s'

theorem moves_step {a : Action} (h : step q e s a = some s') : Moves q s a s' := by
  cases a with
  | count =>
    simp only [step] at h
    split at h
    case h_2 => cases h
    cases h
    exact .count (occupied_subset_of_loop (by simp [Loop.aboutToRun]) rfl) rfl
  | dequeue isLatestVersion locked ordered now acknowledged =>
    simp only [step] at h
    split at h
    case h_2 => cases h
    rename_i k hloop
    obtain ⟨ids, hids, rfl⟩ := Option.map_eq_some_iff.1 h
    refine .dequeue hloop (fun w hw => length_claims_le hw hids) (fun id hid => ?_) fun k' hk' => ?_
    · rcases mem_occupied.1 hid with hid | ⟨g, hg, hruns, rfl⟩
      · cases acknowledged with
        | true => exact List.mem_append_right _ hid
        | false => cases hid
      · exact List.mem_append_left _ (mem_occupied_of_runs hg hruns)
    · cases acknowledged <;> cases hk'
  | giveUp =>
    simp only [step] at h
    split at h
    case h_3 => cases h
    all_goals
      cases h
      exact .less (occupied_subset_of_loop (by simp [Loop.aboutToRun]) rfl) fun _ hk => by cases hk
  | listWorkflows =>
    simp only [step] at h
    split at h
    case h_2 => cases h
    rename_i ids hloop
    cases h
    refine .less (occupied_subset_of_loop (fun id hid => ?_) rfl) fun _ hk => by cases hk
    obtain ⟨r, hr, rfl⟩ := List.mem_map.1 hid
    obtain ⟨id, hid, hr⟩ := List.mem_filterMap.1 hr
    refine aboutToRun_subset s ?_
    rw [hloop, Table.key_of_find? hr]
    exact hid
  | start =>
    simp only [step] at h
    split at h
    case h_2 => cases h
    rename_i r statuses hloop
    have hr : r.workflowID ∈ s.occupied := aboutToRun_subset s (by simp [hloop, Loop.aboutToRun])
    have hrest : statuses.map (·.workflowID) ⊆ s.occupied := fun id hid =>
      aboutToRun_subset s (by rw [hloop]; exact List.mem_cons_of_mem _ hid)
    split_ifs at h
    · cases h
      refine .less (occupied_subset hrest fun g hg hruns => ?_) fun _ hk => by cases hk
      rcases List.mem_cons.1 hg with rfl | hg
      · exact hr
      · exact mem_occupied_of_runs hg hruns
    · cases h
      exact .less (occupied_subset_of_loop hrest rfl) fun _ hk => by cases hk
  | skip =>
    simp only [step] at h
    split at h
    case h_2 => cases h
    rename_i r statuses hloop
    cases h
    refine .less (occupied_subset_of_loop (fun id hid => aboutToRun_subset s ?_) rfl) fun _ hk => by cases hk
    rw [hloop]
    exact List.mem_cons_of_mem _ hid
  | sleep =>
    simp only [step] at h
    split at h
    case h_2 => cases h
    cases h
    exact .less (occupied_subset_of_loop (by simp [Loop.aboutToRun]) rfl) fun _ hk => by cases hk
  | register g =>
    simp only [step] at h
    split_ifs at h with hg hloaded
    · cases h
      exact .less (occupied_replace_subset _ hg.1 (by simp [Goroutine.runs, hg.2])) fun _ hk => hk
    · cases h
      exact .less (occupied_replace_subset .running hg.1 (by simp [Goroutine.runs, hg.2]))
        fun _ hk => hk
  | returns g =>
    simp only [step] at h
    split_ifs at h with hg
    cases h
    exact .less (occupied_replace_subset _ hg.1 (by simp [Goroutine.runs, hg.2])) fun _ hk => hk
  | finish g =>
    simp only [step] at h
    split_ifs at h
    all_goals
      cases h
      exact .less (occupied_subset (aboutToRun_subset s) fun g hg =>
        mem_occupied_of_runs (List.mem_of_mem_erase hg)) fun _ hk => hk
  | registerOther a =>
    simp only [step] at h
    split_ifs at h
    cases h
    exact .less (occupied_subset_of_loop (aboutToRun_subset s) rfl) fun _ hk => hk
  | finishOther id =>
    simp only [step] at h
    split_ifs at h
    cases h
    exact .less (occupied_subset_of_loop (aboutToRun_subset s) rfl) fun _ hk => hk
  | environment op =>
    obtain ⟨t, -, rfl⟩ := Option.map_eq_some_iff.1 h
    exact .less (occupied_subset_of_loop (aboutToRun_subset s) rfl) fun _ hk => hk

/-- **The condition.** Whenever the loop counts, each workflow that it has claimed and that runs or is
about to run is registered, and under no partition key. -/
def CountsAll (q : QueueConfig) (s : State) : Action → Prop
  | .count => ∀ id ∈ s.occupied, ∃ a ∈ s.active.rows,
      a.workflowID = id ∧ a.queueName = q.name ∧ a.queuePartitionKey = ""
  | _ => True

instance (q : QueueConfig) (s : State) (a : Action) : Decidable (CountsAll q s a) := by
  unfold CountsAll
  split <;> infer_instance

theorem nodup_occupied (s : State) : s.occupied.Nodup := List.nodup_dedup _

/-- What is registered for the queue is counted. -/
theorem length_occupied_le_count (h : CountsAll q s .count) :
    s.occupied.length ≤ countActiveWorkflowsForQueue s.active q.name "" := by
  have hsub : s.occupied ⊆ (s.active.rows.filter fun a =>
      a.queueName = q.name && a.queuePartitionKey = "").map (·.workflowID) := by
    intro id hid
    obtain ⟨a, ha, rfl, hqueue, hkey⟩ := h id hid
    exact List.mem_map.2 ⟨a, List.mem_filter.2 ⟨ha, by simp [hqueue, hkey]⟩, rfl⟩
  have hlen := ((nodup_occupied s).subperm hsub).length_le
  rwa [List.length_map, ← List.countP_eq_length_filter] at hlen

/-- **Worker concurrency.** In every run whose counts find all that runs, at most `w` workflows that
the executor has claimed from the queue run or are about to run. -/
theorem occupied_le_workerConcurrency (hw : q.workerConcurrency = some w)
    (h : Reaches (system q e) (CountsAll q) s) : s.occupied.length ≤ w.toNat := by
  refine (h.invariant (I := fun s => s.occupied.length ≤ w.toNat ∧
    ∀ k, s.loop = .counted k → s.occupied.length ≤ k) ?_ ?_).1
  · rintro s ⟨hloop, hgoroutines⟩
    have hnone : s.occupied = [] := by simp [State.occupied, hloop, hgoroutines, Loop.aboutToRun]
    simp [hnone]
  · rintro s a s' ⟨hbound, hcount⟩ hall hstep
    cases moves_step hstep with
    | count hs' hloop =>
      have hlen := ((nodup_occupied s').subperm hs').length_le
      refine ⟨hlen.trans hbound, fun k hk => ?_⟩
      obtain rfl : countActiveWorkflowsForQueue s.active q.name "" = k := by
        rw [hloop] at hk
        exact Loop.counted.inj hk
      exact hlen.trans (length_occupied_le_count hall)
    | @dequeue _ _ k ids hloop hids hs' hloop' =>
      refine ⟨?_, fun k' hk' => (hloop' k' hk').elim⟩
      have hlen := ((nodup_occupied s').subperm hs').length_le
      rw [List.length_append] at hlen
      have hk := hcount k hloop
      have hids := hids w hw
      omega
    | less hs' hloop =>
      have hlen := ((nodup_occupied s').subperm hs').length_le
      exact ⟨hlen.trans hbound, fun k hk => hlen.trans (hcount k (hloop k hk))⟩

end Bound

/-! ### A resumed workflow -/

section Resumed

def oneEach : QueueConfig := { name := "q", workerConcurrency := some 1 }

def worker : Executor := ⟨"e", "v", "app"⟩

def queued (id queueName queuePartitionKey : String) : InsertWorkflowStatusInput where
  workflowID := id
  status := .enqueued
  name := "f"
  queueName := queueName
  queuePartitionKey := queuePartitionKey
  applicationVersion := "v"

def queuedRow (id queueName queuePartitionKey : String) : WorkflowRow :=
  (queued id queueName queuePartitionKey).row "app"

/-- One round of the loop, which starts the first of the workflows in dispatch order. -/
def round (ordered : List WorkflowRow) : List Action :=
  [.count, .dequeue false [] ordered 0 true, .listWorkflows, .start, .sleep]

def goroutineOf (id queuePartitionKey : String) (stage : Stage) : Goroutine :=
  ⟨⟨id, "q", queuePartitionKey⟩, stage⟩

/-- A workflow in a partition of another queue, cancelled and resumed on this one. -/
def resumed : WorkflowRow := ((queuedRow "w" "p" "k").cancel 0).resume "q" 0

/-- The resumed workflow runs, registered under its partition key, and the next round starts another. -/
def resumedRun : List Action :=
  [.environment (.insertWorkflowStatus "app" (queued "w" "p" "k")),
   .environment (.cancelWorkflows ["w"] 0), .environment (.resumeWorkflows ["w"] "q" 0)] ++
  round [resumed] ++
  [.register (goroutineOf "w" "k" .started),
   .environment (.insertWorkflowStatus "app" (queued "v" "q" ""))] ++
  round [queuedRow "v" "q" ""]

def oneByOne : List Action :=
  [.environment (.insertWorkflowStatus "app" (queued "w" "q" ""))] ++ round [queuedRow "w" "q" ""] ++
  [.register (goroutineOf "w" "" .started), .count, .giveUp,
   .returns (goroutineOf "w" "" .running), .finish (goroutineOf "w" "" .returned),
   .environment (.insertWorkflowStatus "app" (queued "v" "q" ""))] ++
  round [queuedRow "v" "q" ""]

def resting : State := ⟨.empty, .empty, .idle, []⟩

/-- Two workflows of the queue run, or are about to run, on the executor. -/
theorem workerConcurrency_exceeded :
    oneEach.workerConcurrency = some 1 ∧ oneEach.partitionQueue = false ∧
    ∃ s, Reaches (system oneEach worker) (fun _ _ => True) s ∧ s.occupied = ["v", "w"] := by
  obtain ⟨s, hs, hoccupied⟩ := exists_reaches (S := system oneEach worker) (fun _ _ => True)
    (s := resting) resumedRun (fun s => s.occupied = ["v", "w"]) ⟨rfl, rfl⟩ (fun _ _ => trivial)
    (by decide +kernel)
  exact ⟨rfl, rfl, s, hs, by simpa using hoccupied⟩

theorem occupied_le_workerConcurrency_oneByOne :
    ∃ s : State, s.occupied.length ≤ Int.toNat 1 ∧ s.occupied = ["v"] := by
  obtain ⟨s, hs, hoccupied⟩ := exists_reaches (S := system oneEach worker) (CountsAll oneEach)
    (s := resting) oneByOne (fun s => s.occupied = ["v"]) ⟨rfl, rfl⟩ (by decide +kernel)
    (by decide +kernel)
  exact ⟨s, occupied_le_workerConcurrency rfl hs, by simpa using hoccupied⟩

end Resumed

end Dbos.Queue.Worker
