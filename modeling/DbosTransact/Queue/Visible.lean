import DbosTransact.Queue.Dequeue
import DbosTransact.SysDb.RowInvariant
import Mathlib.Data.List.Dedup

/-!
# What a pass over a queue sees

One pass of `runQueue` on a queue without limits, while nobody else works on the table: the keys of the
partitions, and one dequeue for each of them. The table is any that the operations lead to.
-/

namespace Dbos.Queue.Visible

open Relational Lts

def getQueuePartitions (t : StatusTable) (appName queueName : String) : List String :=
  ((t.rows.filter fun r => r.queueName = some queueName && r.status = .enqueued && r.ownedBy appName).filterMap
    (·.queuePartitionKey)).dedup

/-- What the database and the clock contribute to a pass: whether the executor has the latest version,
the order of the candidates, and for each partition the time of its dequeue and the number of workflows
that already run. -/
structure Pass where
  isLatestVersion : Bool
  order : List WorkflowRow → List WorkflowRow
  now : String → Int
  localRunningCount : String → Int

def Pass.Ordered (p : Pass) : Prop := ∀ rows, Table.OrderBy dispatchOrder rows (p.order rows)

structure Unlimited (q : QueueConfig) : Prop where
  worker : q.workerConcurrency = none
  globalLimit : q.globalConcurrency = none
  rate : q.rateLimit = none

section Model

variable (q : QueueConfig) (e : Executor) (p : Pass)

/-- `DequeueWorkflows` for one partition: the workflows that it claims, and the table after it. -/
def dequeueWorkflows (key : String) (t : StatusTable) : List String × StatusTable :=
  let input : DequeueInput := ⟨key, p.localRunningCount key⟩
  match budget q e input (p.now key) t with
  | none => ([], t)
  | some maxTasks =>
    let candidates := p.order (t.rows.filter (eligible q e key p.isLatestVersion))
    let ids := chosen q ⟨input, ⟨t, fun _ => 0⟩, p.now key, maxTasks⟩ (fun _ => false) candidates
    (claimedIDs e t ids, t.claim (claimOf q e) ids (unixMilli (p.now key)))

def dequeuePartitions : List String → StatusTable → List String × StatusTable
  | [], t => ([], t)
  | key :: keys, t =>
    let first := dequeueWorkflows q e p key t
    let rest := dequeuePartitions keys first.2
    (first.1 ++ rest.1, rest.2)

def partitionKeys (t : StatusTable) : List String :=
  if q.partitionQueue then getQueuePartitions t e.appName q.name else [""]

/-- One pass of `runQueue`: what it claims. -/
def runQueue (t : StatusTable) : List String := (dequeuePartitions q e p (partitionKeys q e t) t).1

end Model

/-! ### One dequeue -/

section Dequeue

variable {q : QueueConfig} {e : Executor} {p : Pass} {t : StatusTable} {r : WorkflowRow}

theorem budget_eq_none (hq : Unlimited q) (i : DequeueInput) (now : Int) :
    budget q e i now t = some none := by
  simp [budget, limiterBudget, globalBudget, workerBudget, concurrencyBudget, hq.worker, hq.globalLimit,
    hq.rate]

/-- The workflow is enqueued on the queue, for the application and the version of the executor. -/
structure Waits (q : QueueConfig) (e : Executor) (isLatestVersion : Bool) (r : WorkflowRow) : Prop where
  queueName : r.queueName = some q.name
  enqueued : r.status = .enqueued
  version : versionMatches e isLatestVersion r = true
  owned : r.ownedBy e.appName = true

theorem Waits.eligible_iff (h : Waits q e p.isLatestVersion r) (key : String) :
    eligible q e key p.isLatestVersion r = true ↔ inPartition key r = true := by
  simp [eligible, h.queueName, h.enqueued, h.version, h.owned]

theorem mem_chosen (hq : Unlimited q) (hp : p.Ordered) {key id : String} {x : Txn}
    (hx : x.maxTasks = none) :
    id ∈ chosen q x (fun _ => false)
        (p.order (t.rows.filter (eligible q e key p.isLatestVersion))) ↔
      ∃ r ∈ t.rows, eligible q e key p.isLatestVersion r = true ∧ r.workflowID = id := by
  have hsnapshot : q.snapshot = false := by simp [QueueConfig.snapshot, hq.globalLimit, hq.rate]
  have hperm := (hp (t.rows.filter (eligible q e key p.isLatestVersion))).1
  simp only [chosen, hsnapshot, Bool.false_eq_true, if_false, Bool.not_false, List.filter_true, hx,
    Option.map_none, Table.limit, List.mem_map, hperm.mem_iff, List.mem_filter, and_assoc]

/-- **A dequeue** claims a workflow that waits if it is in the partition, and otherwise leaves it alone. -/
theorem dequeueWorkflows_spec (hq : Unlimited q) (hp : p.Ordered) (key : String)
    (hr : t.find? r.workflowID = some r) (h : Waits q e p.isLatestVersion r) :
    (r.workflowID ∈ (dequeueWorkflows q e p key t).1 ↔ inPartition key r = true) ∧
      (inPartition key r = false → (dequeueWorkflows q e p key t).2.find? r.workflowID = some r) := by
  have hchosen : r.workflowID ∈ chosen q ⟨⟨key, p.localRunningCount key⟩, ⟨t, fun _ => 0⟩, p.now key, none⟩
      (fun _ => false) (p.order (t.rows.filter (eligible q e key p.isLatestVersion))) ↔
      inPartition key r = true := by
    rw [mem_chosen hq hp rfl, ← h.eligible_iff key]
    constructor
    · rintro ⟨x, hx, helig, hid⟩
      have hsame : x = r := Table.eq_of_find? hr hx hid
      exact hsame ▸ helig
    · exact fun helig => ⟨r, Table.mem_of_find? hr, helig, rfl⟩
  simp only [dequeueWorkflows, budget_eq_none hq]
  constructor
  · rw [← hchosen, claimedIDs, List.mem_filter, hr]
    simp [h.enqueued, h.owned]
  · intro hnot
    rw [find?_claim_of_notMem, hr]
    rw [hchosen, hnot]
    simp

theorem mem_dequeuePartitions (hq : Unlimited q) (hp : p.Ordered) (h : Waits q e p.isLatestVersion r)
    {keys : List String} (hr : t.find? r.workflowID = some r) :
    r.workflowID ∈ (dequeuePartitions q e p keys t).1 ↔ ∃ key ∈ keys, inPartition key r = true := by
  induction keys generalizing t with
  | nil => simp [dequeuePartitions]
  | cons key keys ih =>
    obtain ⟨hclaimed, hleft⟩ := dequeueWorkflows_spec hq hp key hr h
    rw [dequeuePartitions, List.mem_append, hclaimed, List.exists_mem_cons_iff]
    cases hin : inPartition key r with
    | true => simp
    | false => rw [ih (hleft hin)]

end Dequeue

/-! ### Partition keys -/

section Keys

theorem queuePartitionKey_onRow (op : Lifecycle.Operation) (r : WorkflowRow) :
    (op.onRow r).queuePartitionKey = r.queuePartitionKey := by
  cases op <;> simp only [Lifecycle.Operation.onRow] <;> first | rfl | (split_ifs <;> rfl)

theorem nullIfEmpty_ne (s : String) : nullIfEmpty s ≠ some "" := by
  unfold nullIfEmpty
  split_ifs with h
  · simp
  · simpa using h

/-- No operation makes a row with an empty partition key. -/
theorem queuePartitionKey_of_makes {op : Lifecycle.Operation} {r : WorkflowRow} (h : op.Makes r) :
    r.queuePartitionKey ≠ some "" := by
  cases op with
  | insertWorkflowStatus appName i =>
    rw [h.2]
    exact nullIfEmpty_ne i.queuePartitionKey
  | forkWorkflows appName i now =>
    obtain ⟨original, forkedID, rfl⟩ := h
    exact nullIfEmpty_ne i.queuePartitionKey
  | _ => exact h.elim

theorem queuePartitionKey_ne {t : StatusTable} (h : Reaches Lifecycle.system (fun _ _ => True) t) :
    ∀ r ∈ t.rows, r.queuePartitionKey ≠ some "" := by
  refine h.invariant (I := fun t => ∀ r ∈ t.rows, r.queuePartitionKey ≠ some "") ?_ ?_
  · rintro t rfl r hr
    cases hr
  · intro t op t' hI _ hstep r' hr'
    rcases Lifecycle.find?_step hstep (Table.find?_of_mem hr') with ⟨r, hr, rfl⟩ | ⟨-, hmade⟩
    · rw [queuePartitionKey_onRow]
      exact hI r (Table.mem_of_find? hr)
    · exact queuePartitionKey_of_makes hmade

end Keys

/-- **What a pass claims.** -/
theorem claimed_iff {q : QueueConfig} (hq : Unlimited q) (e : Executor) {p : Pass} (hp : p.Ordered)
    {t : StatusTable} (ht : Reaches Lifecycle.system (fun _ _ => True) t) {r : WorkflowRow} (hr : r ∈ t.rows)
    (h : Waits q e p.isLatestVersion r) :
    r.workflowID ∈ runQueue q e p t ↔ q.partitionQueue = false ∨ r.queuePartitionKey.isSome = true := by
  rw [runQueue, mem_dequeuePartitions hq hp h (Table.find?_of_mem hr), partitionKeys]
  cases hpart : q.partitionQueue with
  | false => simp [inPartition]
  | true =>
    simp only [if_true, Bool.true_eq_false, false_or, getQueuePartitions, List.mem_dedup,
      List.mem_filterMap, List.mem_filter]
    constructor
    · rintro ⟨key, ⟨x, ⟨hx, -⟩, hkey⟩, hin⟩
      -- an empty key would stand for all partitions, but no row has one
      have hne : key ≠ "" := fun hempty => queuePartitionKey_ne ht x hx (hempty ▸ hkey)
      simp only [inPartition, hne, decide_false, Bool.false_or, decide_eq_true_eq] at hin
      rw [hin]
      rfl
    · intro hsome
      obtain ⟨key, hkey⟩ := Option.isSome_iff_exists.1 hsome
      refine ⟨key, ⟨r, ⟨hr, ?_⟩, hkey⟩, ?_⟩
      · simp [h.queueName, h.enqueued, h.owned]
      · simp [inPartition, hkey]

/-! ### Workflows that no pass sees -/

def stablePass : Pass := ⟨false, (·.mergeSort dispatchOrder), fun _ => 0, fun _ => 0⟩

theorem ordered_stablePass : stablePass.Ordered := orderBy_mergeSort

def partitioned : QueueConfig := { name := "p", partitionQueue := true }

theorem unlimited_partitioned : Unlimited partitioned := ⟨rfl, rfl, rfl⟩

def worker : Executor := ⟨"worker", "v", "app"⟩

/-- A workflow of the version `v`, enqueued on a queue with a partition key or without. -/
def submission (id queueName queuePartitionKey : String) : Lifecycle.Operation :=
  .insertWorkflowStatus "app"
    { workflowID := id, status := .enqueued, name := "f", queueName := queueName,
      applicationVersion := "v", queuePartitionKey := queuePartitionKey }

/-- One workflow is enqueued on the partitioned queue without a key, one is forked onto it, and one that
was cancelled is resumed onto it. -/
def withoutKey : List Lifecycle.Operation :=
  [submission "enqueued" "p" "", submission "original" "q" "",
    .forkWorkflows "app" { entries := [⟨"original", "forked", 0⟩], queueName := "p" } 1,
    submission "resumed" "q" "", .cancelWorkflows ["resumed"] 2, .resumeWorkflows ["resumed"] "p" 3]

theorem never_claimed :
    ∃ t, Reaches Lifecycle.system (fun _ _ => True) t ∧
      (∀ id ∈ ["enqueued", "forked", "resumed"],
        ∃ r ∈ t.rows, r.workflowID = id ∧ Waits partitioned worker stablePass.isLatestVersion r) ∧
      runQueue partitioned worker stablePass t = [] := by
  obtain ⟨t, ht, hp⟩ := exists_reaches (S := Lifecycle.system) (fun _ _ => True) (s := .empty) withoutKey
    (fun t => (["enqueued", "forked", "resumed"].all fun id => t.rows.any fun r =>
        r.workflowID = id && r.queueName = some "p" && r.status = .enqueued && versionMatches worker false r &&
        r.ownedBy "app") &&
      getQueuePartitions t "app" "p" = [])
    rfl (fun _ _ => trivial) (by decide +kernel)
  simp only [Bool.and_eq_true, List.all_eq_true, List.any_eq_true, decide_eq_true_eq] at hp
  refine ⟨t, ht, fun id hid => ?_, ?_⟩
  · obtain ⟨r, hr, ⟨⟨⟨hrid, hqueue⟩, hstatus⟩, hversion⟩, hvowned⟩ := hp.1 id hid
    exact ⟨r, hr, hrid, hqueue, hstatus, hversion, hvowned⟩
  · have hkeys : partitionKeys partitioned worker t = [] := hp.2
    rw [runQueue, hkeys, dequeuePartitions]

/-- A workflow enqueued with a partition key is claimed. -/
theorem claimed_withKey :
    ∃ t, Reaches Lifecycle.system (fun _ _ => True) t ∧ "a" ∈ runQueue partitioned worker stablePass t := by
  obtain ⟨t, ht, hp⟩ := exists_reaches (S := Lifecycle.system) (fun _ _ => True) (s := .empty)
    [submission "a" "p" "k"]
    (fun t => t.rows.any fun r => r.workflowID = "a" && r.queueName = some "p" && r.status = .enqueued &&
      versionMatches worker false r && r.ownedBy "app" && r.queuePartitionKey.isSome)
    rfl (fun _ _ => trivial) (by decide +kernel)
  simp only [List.any_eq_true, Bool.and_eq_true, decide_eq_true_eq] at hp
  obtain ⟨r, hr, ⟨⟨⟨⟨hid, hqueue⟩, hstatus⟩, hversion⟩, howned⟩, hkey⟩ := hp
  refine ⟨t, ht, hid ▸ ?_⟩
  exact (claimed_iff unlimited_partitioned worker ordered_stablePass ht hr
    ⟨hqueue, hstatus, hversion, howned⟩).2 (.inr hkey)

end Dbos.Queue.Visible
