import DbosTransact.Lib.RepeatableRead
import DbosTransact.Lib.Transition
import DbosTransact.SysDb.StatusTable

/-!
# Dequeueing workflows

`DequeueWorkflows` for one queue with a fixed configuration, run by any number of executors in transactions
that interleave with each other and with the other operations on `workflow_status`: the queries that
determine how many workflows may be claimed (`count`, which takes the snapshot), the candidates in dispatch
order (`select`), the `UPDATE` (`claim`) and the `commit`. A queue with a global budget locks its candidates
with `NOWAIT` and aborts if another holds a lock or a candidate has changed since the snapshot; any other
queue skips the rows that are locked. Other operations wait for the locks. `claims` is a ghost.
-/

namespace Dbos.Queue

open Relational RepeatableRead Lts

/-- `RateLimiter`: at most `limit` starts in `period` nanoseconds. -/
structure RateLimiter where
  limit : Int
  period : Int
  deriving DecidableEq, Repr

structure QueueConfig where
  name : String
  workerConcurrency : Option Int := none
  globalConcurrency : Option Int := none
  rateLimit : Option RateLimiter := none
  partitionQueue : Bool := false
  deriving DecidableEq, Repr

/-- What `DequeueWorkflowsInput` says of the executor, with the application it belongs to. -/
structure Executor where
  executorID : String
  applicationVersion : String
  appName : String := ""
  deriving DecidableEq, Repr

/-- What `DequeueWorkflowsInput` says of the call. -/
structure DequeueInput where
  queuePartitionKey : String := ""
  localRunningCount : Int := 0
  deriving DecidableEq, Repr

/-- `Time.UnixMilli`, for a reading in nanoseconds. -/
def unixMilli (ns : Int) : Int := ns / 1000000

/-! ### The queries -/

/-- `AND queue_partition_key = …`, left out for the empty key. -/
def inPartition (key : String) (r : WorkflowRow) : Bool :=
  key = "" || r.queuePartitionKey = some key

/-- The `WHERE` of `limiterQuery`. -/
def recent (q : QueueConfig) (e : Executor) (key : String) (cutoff : Int) (r : WorkflowRow) : Bool :=
  r.queueName = some q.name && r.rateLimited && r.status ≠ .enqueued && r.status ≠ .delayed &&
  r.startedAt.any (cutoff < ·) && r.ownedBy e.appName && inPartition key r

/-- The `WHERE` of `pendingQuery`. -/
def pending (q : QueueConfig) (e : Executor) (key : String) (r : WorkflowRow) : Bool :=
  r.queueName = some q.name && r.status = .pending && r.ownedBy e.appName && inPartition key r

/-- `cutoffTimeMs`. -/
def cutoffTime (l : RateLimiter) (now : Int) : Int := unixMilli (now - l.period)

/-- `versionClause`. -/
def versionMatches (e : Executor) (isLatestVersion : Bool) (r : WorkflowRow) : Bool :=
  r.applicationVersion = some e.applicationVersion ||
    (isLatestVersion && r.applicationVersion = none)

/-- The `WHERE` of the query for candidates. -/
def eligible (q : QueueConfig) (e : Executor) (key : String) (isLatestVersion : Bool)
    (r : WorkflowRow) : Bool :=
  r.queueName = some q.name && r.status = .enqueued && versionMatches e isLatestVersion r &&
  r.ownedBy e.appName && inPartition key r

/-- `ORDER BY priority ASC, created_at ASC`. -/
def dispatchOrder (a b : WorkflowRow) : Bool :=
  a.priority < b.priority || (a.priority = b.priority && a.createdAt ≤ b.createdAt)

theorem orderBy_mergeSort (rows : List WorkflowRow) :
    Table.OrderBy dispatchOrder rows (rows.mergeSort dispatchOrder) := by
  refine ⟨List.mergeSort_perm rows dispatchOrder, List.pairwise_mergeSort ?_ ?_ rows⟩
  · intro a b c hab hbc
    simp only [dispatchOrder, Bool.or_eq_true, Bool.and_eq_true, decide_eq_true_eq] at hab hbc ⊢
    omega
  · intro a b
    simp only [dispatchOrder, Bool.or_eq_true, Bool.and_eq_true, decide_eq_true_eq]
    omega

/-! ### `maxTasks` -/

/-- `if maxTasks < 0 || available < maxTasks`, where a negative `maxTasks`, here `none`, means that
the dequeue is unbounded. -/
def tighten (maxTasks : Option Int) (available : Int) : Option Int :=
  match maxTasks with
  | none => some available
  | some m => some (if available < m then available else m)

/-- What the rate limiter leaves; `none` if it stops the dequeue. -/
def limiterBudget (q : QueueConfig) (numRecentQueries : Int) : Option (Option Int) :=
  match q.rateLimit with
  | none => some none
  | some l =>
    if l.limit ≤ numRecentQueries then none else some (tighten none (l.limit - numRecentQueries))

def concurrencyBudget (concurrency : Option Int) (running : Int) (maxTasks : Option Int) :
    Option Int :=
  match concurrency with
  | none => maxTasks
  | some c => tighten maxTasks (max (c - running) 0)

def workerBudget (q : QueueConfig) (localRunningCount : Int) (maxTasks : Option Int) : Option Int :=
  concurrencyBudget q.workerConcurrency localRunningCount maxTasks

def globalBudget (q : QueueConfig) (globalCount : Int) (maxTasks : Option Int) : Option Int :=
  concurrencyBudget q.globalConcurrency globalCount maxTasks

def numRecentQueries (q : QueueConfig) (e : Executor) (key : String) (now : Int) (t : StatusTable) :
    Int :=
  match q.rateLimit with
  | none => 0
  | some l => t.count (recent q e key (cutoffTime l now))

/-- `maxTasks`; `none` if there is nothing to dequeue. -/
def budget (q : QueueConfig) (e : Executor) (i : DequeueInput) (now : Int) (t : StatusTable) :
    Option (Option Int) :=
  (limiterBudget q (numRecentQueries q e i.queuePartitionKey now t)).bind fun maxTasks =>
    let maxTasks := globalBudget q (t.count (pending q e i.queuePartitionKey))
      (workerBudget q i.localRunningCount maxTasks)
    if maxTasks = some 0 then none else some maxTasks

theorem exists_tighten (m : Option Int) (available : Int) :
    ∃ k, tighten m available = some k ∧ k ≤ available ∧ ∀ m₀ ∈ m, k ≤ m₀ := by
  cases m with
  | none => exact ⟨available, rfl, Int.le_refl _, by simp⟩
  | some m =>
    refine ⟨_, rfl, ?_, fun m₀ hm => ?_⟩
    · split_ifs <;> omega
    · cases hm
      split_ifs <;> omega

theorem exists_concurrencyBudget (concurrency : Option Int) (running m : Int) :
    ∃ k, concurrencyBudget concurrency running (some m) = some k ∧ k ≤ m := by
  cases concurrency with
  | none => exact ⟨m, rfl, Int.le_refl _⟩
  | some c =>
    obtain ⟨k, hk, -, hm⟩ := exists_tighten (some m) (max (c - running) 0)
    exact ⟨k, hk, hm m rfl⟩

section Budget

variable {q : QueueConfig} {e : Executor} {i : DequeueInput} {now : Int} {t : StatusTable}
  {maxTasks : Option Int}

theorem eq_globalBudget (h : budget q e i now t = some maxTasks) :
    ∃ m, limiterBudget q (numRecentQueries q e i.queuePartitionKey now t) = some m ∧
      maxTasks = globalBudget q (t.count (pending q e i.queuePartitionKey))
        (workerBudget q i.localRunningCount m) := by
  obtain ⟨m, hm, h⟩ := Option.bind_eq_some_iff.1 h
  dsimp only at h
  split_ifs at h
  exact ⟨m, hm, (Option.some.inj h).symm⟩

theorem budget_le_global {n : Int} (h : budget q e i now t = some maxTasks)
    (hn : q.globalConcurrency = some n) :
    ∃ k, maxTasks = some k ∧ k ≤ max (n - t.count (pending q e i.queuePartitionKey)) 0 := by
  obtain ⟨m, -, rfl⟩ := eq_globalBudget h
  obtain ⟨k, hk, hle, -⟩ := exists_tighten (workerBudget q i.localRunningCount m)
    (max (n - t.count (pending q e i.queuePartitionKey)) 0)
  exact ⟨k, by simp [globalBudget, concurrencyBudget, hn, hk], hle⟩

theorem budget_le_limit {l : RateLimiter} (h : budget q e i now t = some maxTasks)
    (hl : q.rateLimit = some l) :
    ∃ k, maxTasks = some k ∧
      k ≤ l.limit - t.count (recent q e i.queuePartitionKey (cutoffTime l now)) := by
  obtain ⟨m, hm, rfl⟩ := eq_globalBudget h
  simp only [limiterBudget, numRecentQueries, hl] at hm
  split_ifs at hm
  cases hm
  obtain ⟨k, hk, hle⟩ := exists_concurrencyBudget q.workerConcurrency i.localRunningCount
    (l.limit - t.count (recent q e i.queuePartitionKey (cutoffTime l now)))
  obtain ⟨k', hk', hle'⟩ := exists_concurrencyBudget q.globalConcurrency
    (t.count (pending q e i.queuePartitionKey)) k
  exact ⟨k', by simp [globalBudget, workerBudget, tighten, hk, hk'], by omega⟩

theorem budget_le_worker {w : Int} (h : budget q e i now t = some maxTasks)
    (hw : q.workerConcurrency = some w) :
    ∃ k, maxTasks = some k ∧ k ≤ max (w - i.localRunningCount) 0 := by
  obtain ⟨m, -, rfl⟩ := eq_globalBudget h
  obtain ⟨k, hk, hle, -⟩ := exists_tighten m (max (w - i.localRunningCount) 0)
  obtain ⟨k', hk', hle'⟩ := exists_concurrencyBudget q.globalConcurrency
    (t.count (pending q e i.queuePartitionKey)) k
  exact ⟨k', by simp [globalBudget, workerBudget, concurrencyBudget, hw, hk] at hk' ⊢; exact hk',
    by omega⟩

end Budget

/-! ### The transactions -/

/-- A transaction of `DequeueWorkflows` after its counts: what it saw, and what they came to. -/
structure Txn where
  input : DequeueInput
  snapshot : Versioned WorkflowRow.workflowID
  /-- the clock at the rate limiter -/
  reading : Int
  maxTasks : Option Int

inductive Phase
  | idle
  | counted (x : Txn)
  | selected (x : Txn) (ids : List String)
  | claimed (x : Txn) (ids : List String) (now : Int)

def Phase.txn? : Phase → Option (Txn × List String)
  | .idle => none
  | .counted x => some (x, [])
  | .selected x ids => some (x, ids)
  | .claimed x ids _ => some (x, ids)

def Phase.claimedAt? : Phase → Option (Txn × Int)
  | .claimed x _ now => some (x, now)
  | _ => none

def Phase.locked (p : Phase) : List String := (p.txn?.map Prod.snd).getD []

structure ClaimRecord where
  workflowID : String
  queuePartitionKey : String
  time : Int
  deriving DecidableEq, Repr

structure State (n : ℕ) where
  store : Versioned WorkflowRow.workflowID
  phases : Fin n → Phase
  claims : List ClaimRecord

inductive Action (n : ℕ)
  | count (e : Fin n) (i : DequeueInput) (now : Int)
  | select (e : Fin n) (isLatestVersion : Bool) (ordered : List WorkflowRow)
  | claim (e : Fin n) (now : Int)
  | commit (e : Fin n)
  | abort (e : Fin n)
  | environment (op : Lifecycle.Operation)

namespace State

variable {n : ℕ} (s : State n)

def setPhase (e : Fin n) (p : Phase) : State n := { s with phases := Function.update s.phases e p }

/-- Some executor other than `e` has locked the row. -/
def lockedByOther (e : Fin n) (id : String) : Bool :=
  decide (∃ j, j ≠ e ∧ id ∈ (s.phases j).locked)

end State

/-- `snapshot`: the queue has a global budget. -/
def QueueConfig.snapshot (q : QueueConfig) : Bool := q.globalConcurrency.isSome || q.rateLimit.isSome

/-- The candidates that a transaction locks, if the database orders them so. -/
def chosen (q : QueueConfig) (x : Txn) (locked : String → Bool) (ordered : List WorkflowRow) :
    List String :=
  let rows := if q.snapshot then ordered else ordered.filter fun r => !locked r.workflowID
  (Table.limit (x.maxTasks.map Int.toNat) rows).map (·.workflowID)

def claimOf (q : QueueConfig) (e : Executor) : WorkflowRow.Claim :=
  ⟨e.executorID, e.applicationVersion, e.appName, q.rateLimit.isSome⟩

/-- `claimedIDs`: the locked rows that the `UPDATE` takes. -/
def claimedIDs (e : Executor) (t : StatusTable) (ids : List String) : List String :=
  ids.filter fun id => (t.find? id).any fun r => r.status = .enqueued && r.ownedBy e.appName

/-- The operations that run beside the dequeues: rows become `PENDING` on the queue only through
`DequeueWorkflows`, and applications keep their names. -/
def beside (q : QueueConfig) : Lifecycle.Operation → Bool
  | .dequeueWorkflows _ _ _ | .renameApplication _ _ _ => false
  | .insertWorkflowStatus _ i => i.status ≠ .pending || i.queueName ≠ q.name
  | _ => true

section System

variable {n : ℕ} (q : QueueConfig) (execs : Fin n → Executor)

/-- The steps. A queue is dequeued by partition key exactly if it is partitioned. -/
def step (s : State n) : Action n → Option (State n)
  | .count e i now =>
    match s.phases e with
    | .idle =>
      if decide (i.queuePartitionKey ≠ "") = q.partitionQueue then
        (budget q (execs e) i now s.store.table).map fun maxTasks =>
          s.setPhase e (.counted ⟨i, s.store, now, maxTasks⟩)
      else none
    | _ => none
  | .select e isLatestVersion ordered =>
    match s.phases e with
    | .counted x =>
      -- under READ COMMITTED the query sees what is committed when it starts
      let source := if q.snapshot then x.snapshot.table else s.store.table
      let ids := chosen q x (s.lockedByOther e) ordered
      if Table.OrderBy dispatchOrder
            (source.rows.filter (eligible q (execs e) x.input.queuePartitionKey isLatestVersion))
            ordered ∧
          (q.snapshot = true → ids.all (!s.lockedByOther e ·) ∧ x.snapshot.unchanged s.store ids) then
        some (s.setPhase e (.selected x ids))
      else none
    | _ => none
  | .claim e now =>
    match s.phases e with
    | .selected x ids => some (s.setPhase e (.claimed x ids now))
    | _ => none
  | .commit e =>
    match s.phases e with
    | .claimed x ids now =>
      let claimed := claimedIDs (execs e) s.store.table ids
      if claimed = [] then none
      else some
        { store := s.store.commit
            (StatusTable.claim s.store.table (claimOf q (execs e)) ids (unixMilli now))
          phases := Function.update s.phases e .idle
          claims := s.claims ++ claimed.map (⟨·, x.input.queuePartitionKey, now⟩) }
    | _ => none
  | .abort e => some (s.setPhase e .idle)
  | .environment op =>
    if beside q op then
      (Lifecycle.step s.store.table op).bind fun t =>
        if ∀ e, ∀ id ∈ (s.phases e).locked, t.find? id = s.store.table.find? id then
          some { s with store := s.store.commit t }
        else none
    else none

def system (start : StatusTable → Prop) : System (State n) (Action n) where
  init s := start s.store.table ∧ (∀ e, s.phases e = .idle) ∧ s.claims = []
  step := step q execs

end System

/-! ### What a transaction rests on -/

/-- What holds of the open transaction `x` with locks on `ids`, on a queue with a global budget: its
counts are those of its snapshot, and the rows that it has locked are eligible in the snapshot and
have not changed since. -/
structure TxnOk (q : QueueConfig) (e : Executor) (store : Versioned WorkflowRow.workflowID) (x : Txn)
    (ids : List String) : Prop where
  follows : x.snapshot.Follows store
  partition : decide (x.input.queuePartitionKey ≠ "") = q.partitionQueue
  counted : budget q e x.input x.reading x.snapshot.table = some x.maxTasks
  within : ∀ m ∈ x.maxTasks, ids.length ≤ m.toNat
  fixed : ∀ id ∈ ids, store.version id = x.snapshot.version id
  eligible : ∀ id ∈ ids, ∃ r isLatestVersion, x.snapshot.table.find? id = some r ∧
    eligible q e x.input.queuePartitionKey isLatestVersion r = true

/-- Every open transaction is as it should be, and no two of them lock the same row. -/
structure Sound {n : ℕ} (q : QueueConfig) (execs : Fin n → Executor)
    (store : Versioned WorkflowRow.workflowID) (phases : Fin n → Phase) : Prop where
  txn : ∀ e x ids, (phases e).txn? = some (x, ids) → TxnOk q (execs e) store x ids
  disjoint : ∀ e j, j ≠ e → ∀ id ∈ (phases e).locked, id ∉ (phases j).locked

section Sound

variable {n : ℕ} {q : QueueConfig} {execs : Fin n → Executor} {ex : Executor}
  {store : Versioned WorkflowRow.workflowID} {phases : Fin n → Phase} {x : Txn} {ids : List String}

theorem TxnOk.row (h : TxnOk q ex store x ids) {id : String} (hid : id ∈ ids) :
    ∃ r isLatestVersion, store.table.find? id = some r ∧
      Queue.eligible q ex x.input.queuePartitionKey isLatestVersion r = true := by
  obtain ⟨r, isLatestVersion, hr, he⟩ := h.eligible id hid
  exact ⟨r, isLatestVersion, (h.follows.find? id (h.fixed id hid)).trans hr, he⟩

theorem TxnOk.commit (h : TxnOk q ex store x ids) {t : StatusTable}
    (ht : ∀ id ∈ ids, t.find? id = store.table.find? id) : TxnOk q ex (store.commit t) x ids where
  follows := h.follows.commit t
  partition := h.partition
  counted := h.counted
  within := h.within
  fixed id hid := (Versioned.version_commit_of_eq (ht id hid)).trans (h.fixed id hid)
  eligible := h.eligible

theorem Sound.setPhase (h : Sound q execs store phases) {e : Fin n} {p : Phase}
    (htxn : ∀ x ids, p.txn? = some (x, ids) → TxnOk q (execs e) store x ids)
    (hlocked : ∀ j, j ≠ e → ∀ id ∈ p.locked, id ∉ (phases j).locked) :
    Sound q execs store (Function.update phases e p) where
  txn j x ids hj := by
    by_cases hje : j = e
    · subst hje
      rw [Function.update_self] at hj
      exact htxn x ids hj
    · rw [Function.update_of_ne hje] at hj
      exact h.txn j x ids hj
  disjoint j k hkj id hid := by
    by_cases hje : j = e
    · subst hje
      rw [Function.update_self] at hid
      rw [Function.update_of_ne hkj]
      exact hlocked k hkj id hid
    · rw [Function.update_of_ne hje] at hid
      by_cases hke : k = e
      · subst hke
        rw [Function.update_self]
        exact fun hid' => hlocked j hje id hid' hid
      · rw [Function.update_of_ne hke]
        exact h.disjoint j k hkj id hid

theorem Sound.idle (h : Sound q execs store phases) (e : Fin n) :
    Sound q execs store (Function.update phases e .idle) :=
  h.setPhase (by simp [Phase.txn?]) (by simp [Phase.locked, Phase.txn?])

theorem Sound.commit (h : Sound q execs store phases) {t : StatusTable}
    (ht : ∀ e, ∀ id ∈ (phases e).locked, t.find? id = store.table.find? id) :
    Sound q execs (store.commit t) phases where
  txn e x ids he := (h.txn e x ids he).commit fun id hid => ht e id (by simp [Phase.locked, he, hid])
  disjoint := h.disjoint

theorem find?_claim_of_notMem {t : StatusTable} {c : WorkflowRow.Claim} {now : Int} {id : String}
    (h : id ∉ ids) : (StatusTable.claim t c ids now).find? id = t.find? id := by
  rw [StatusTable.claim, Table.find?_update]
  cases hr : t.find? id with
  | none => rfl
  | some r =>
    have : r.workflowID ∉ ids := by rwa [Table.key_of_find? hr]
    simp [this]

/-- The rows that a transaction locks are within its budget, and eligible. -/
theorem chosen_spec (hq : q.snapshot = true) (locked : String → Bool) {rows ordered : List WorkflowRow}
    (h : Table.OrderBy dispatchOrder rows ordered) :
    (∀ m ∈ x.maxTasks, (chosen q x locked ordered).length ≤ m.toNat) ∧
      ∀ id ∈ chosen q x locked ordered, ∃ r ∈ rows, r.workflowID = id := by
  simp only [chosen, hq, if_true]
  constructor
  · intro m hm
    obtain hm : x.maxTasks = some m := hm
    simp [hm, Table.limit]
  · intro id hid
    obtain ⟨r, hr, rfl⟩ := List.mem_map.1 hid
    exact ⟨r, h.1.mem_iff.1 ((Table.limit_sublist _ _).subset hr), rfl⟩

/-- The step of an executor between its statements, or its commit, or an operation beside. -/
inductive Moves (q : QueueConfig) (execs : Fin n → Executor) (s : State n) :
    Action n → State n → Prop
  | phase {a : Action n} {s' : State n} (hstore : s'.store = s.store) (hclaims : s'.claims = s.claims) :
      Moves q execs s a s'
  | commit {e : Fin n} {x : Txn} {ids : List String} {now : Int} {s' : State n}
      (hphase : s.phases e = .claimed x ids now) (hids : ids ≠ [])
      (htable : s'.store.table =
        StatusTable.claim s.store.table (claimOf q (execs e)) ids (unixMilli now))
      (hclaims : s'.claims =
        s.claims ++ (claimedIDs (execs e) s.store.table ids).map (⟨·, x.input.queuePartitionKey, now⟩)) :
      Moves q execs s (.commit e) s'
  | environment {op : Lifecycle.Operation} {s' : State n} (hop : beside q op = true)
      (hstep : Lifecycle.step s.store.table op = some s'.store.table) (hclaims : s'.claims = s.claims) :
      Moves q execs s (.environment op) s'

/-- What a step does, and that it keeps the transactions sound. -/
theorem moves_step (hq : q.snapshot = true) {s s' : State n} {a : Action n}
    (h : Sound q execs s.store s.phases) (hstep : step q execs s a = some s') :
    Moves q execs s a s' ∧ Sound q execs s'.store s'.phases := by
  cases a with
  | count e i now =>
    simp only [step] at hstep
    split at hstep
    case h_2 => cases hstep
    split_ifs at hstep with hpart
    obtain ⟨maxTasks, hbudget, rfl⟩ := Option.map_eq_some_iff.1 hstep
    refine ⟨.phase rfl rfl, h.setPhase ?_ (by simp [Phase.locked, Phase.txn?])⟩
    intro x ids hx
    obtain ⟨rfl, rfl⟩ : _ = x ∧ [] = ids := by simpa [Phase.txn?] using hx
    exact ⟨.refl _, hpart, hbudget, by simp, by simp, by simp⟩
  | select e isLatestVersion ordered =>
    simp only [step] at hstep
    split at hstep
    case h_2 => cases hstep
    rename_i x hphase
    split_ifs at hstep with hguard
    cases hstep
    obtain ⟨horder, hfree⟩ := hguard
    obtain ⟨hfree, hfixed⟩ := hfree hq
    have hok := h.txn e x [] (by simp [hphase, Phase.txn?])
    obtain ⟨hwithin, hmem⟩ := chosen_spec (x := x) hq (s.lockedByOther e) horder
    refine ⟨.phase rfl rfl, h.setPhase ?_ ?_⟩
    · intro y ids hy
      obtain ⟨rfl, rfl⟩ : x = y ∧ chosen q x (s.lockedByOther e) ordered = ids := by
        simpa [Phase.txn?] using hy
      refine ⟨hok.follows, hok.partition, hok.counted, hwithin, fun id hid => ?_, fun id hid => ?_⟩
      · simpa using List.all_eq_true.1 hfixed id hid
      · obtain ⟨r, hr, rfl⟩ := hmem id hid
        obtain ⟨hr, helig⟩ := List.mem_filter.1 hr
        exact ⟨r, isLatestVersion, Table.find?_of_mem hr, helig⟩
    · intro j hj id hid hlocked
      have hid : s.lockedByOther e id = false := by simpa using List.all_eq_true.1 hfree id hid
      simp only [State.lockedByOther, decide_eq_false_iff_not] at hid
      exact hid ⟨j, hj, hlocked⟩
  | claim e now =>
    simp only [step] at hstep
    split at hstep
    case h_2 => cases hstep
    rename_i x ids hphase
    cases hstep
    -- the transaction and its locks stay as they are
    refine ⟨.phase rfl rfl, h.setPhase (fun y ids' hy => h.txn e y ids' ?_) fun j hj => ?_⟩
    · rw [hphase]
      exact hy
    · have := h.disjoint e j hj
      rwa [hphase] at this
  | commit e =>
    simp only [step] at hstep
    split at hstep
    case h_2 => cases hstep
    rename_i x ids now hphase
    split_ifs at hstep with hclaimed
    cases hstep
    refine ⟨.commit hphase (fun hids => hclaimed (by simp [hids, claimedIDs])) rfl rfl, ?_⟩
    refine (h.idle e).commit fun j id hid => find?_claim_of_notMem fun hid' => ?_
    by_cases hj : j = e
    · subst hj
      simp [Phase.locked, Phase.txn?] at hid
    · rw [Function.update_of_ne hj] at hid
      refine h.disjoint e j hj id ?_ hid
      simpa [hphase, Phase.locked, Phase.txn?] using hid'
  | abort e =>
    cases hstep
    exact ⟨.phase rfl rfl, h.idle e⟩
  | environment op =>
    simp only [step] at hstep
    split_ifs at hstep with hop
    obtain ⟨t, ht, hstep⟩ := Option.bind_eq_some_iff.1 hstep
    split_ifs at hstep with hlocked
    cases hstep
    exact ⟨.environment hop ht rfl, h.commit hlocked⟩

theorem sound_of_init {start : StatusTable → Prop} {s : State n} (h : (system q execs start).init s) :
    Sound q execs s.store s.phases where
  txn e x ids he := by simp [h.2.1 e, Phase.txn?] at he
  disjoint e j _ id hid := by simp [h.2.1 e, Phase.locked, Phase.txn?] at hid

end Sound

/-! ### Pieces of runs -/

section Pieces

variable {n : ℕ}

/-- An enqueue on the queue `q`, for a version of the application. -/
def submit (id version : String) (createdAt : Int) : Action n :=
  .environment (.insertWorkflowStatus "app"
    { workflowID := id, status := .enqueued, name := "f", queueName := "q",
      applicationVersion := version, createdAt := createdAt })

/-- The row that `submit` makes. -/
def submitted (id version : String) (createdAt : Int) : WorkflowRow where
  workflowID := id
  status := .enqueued
  name := "f"
  configName := some ""
  serialization := some ""
  authenticatedUser := some ""
  executorID := some ""
  applicationVersion := some version
  applicationName := some "app"
  queueName := some "q"
  createdAt := createdAt

def dequeue (e : Fin n) (now : Int) (ordered : List WorkflowRow) : List (Action n) :=
  [.count e {} now, .select e false ordered, .claim e now, .commit e]

def blank (n : ℕ) : State n := ⟨⟨.empty, fun _ => 0⟩, fun _ => .idle, []⟩

theorem init_blank (n : ℕ) (q : QueueConfig) (execs : Fin n → Executor) {start : StatusTable → Prop}
    (h : start .empty) : (system q execs start).init (blank n) :=
  ⟨h, fun _ => rfl, rfl⟩

end Pieces

end Dbos.Queue
