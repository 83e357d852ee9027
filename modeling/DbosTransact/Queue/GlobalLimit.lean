import DbosTransact.Queue.Dequeue

/-!
# Global concurrency

A dequeue counts the `PENDING` rows in its snapshot, and its locks protect the rows that it selects but not
the count: two dequeues whose candidates differ, as those of two application versions do, both commit on
the same count.
-/

namespace Dbos.Queue

open Relational RepeatableRead Lts

/-- A `PENDING` row of the queue that belongs to the application, in the partition if one is given. -/
def pendingOf (q : QueueConfig) (app : Option String) (key : String) (r : WorkflowRow) : Bool :=
  r.queueName = some q.name && r.status = .pending && r.applicationName = app && inPartition key r

/-- Nothing of the queue is `PENDING`. -/
def NonePending (q : QueueConfig) (t : StatusTable) : Prop :=
  ∀ r ∈ t.rows, r.queueName = some q.name → r.status ≠ .pending

/-! ### What the other operations do to the pending rows -/

/-- The two rows are in the same status, on the same queue and of the same application. -/
structure SamePlace (r r' : WorkflowRow) : Prop where
  status : r'.status = r.status
  queueName : r'.queueName = r.queueName
  applicationName : r'.applicationName = r.applicationName
  queuePartitionKey : r'.queuePartitionKey = r.queuePartitionKey

/-- Every `PENDING` row of the queue after a step was one before it. -/
def NoneAdded (q : QueueConfig) (t t' : StatusTable) : Prop :=
  ∀ r' ∈ t'.rows, r'.queueName = some q.name → r'.status = .pending →
    ∃ r ∈ t.rows, r.workflowID = r'.workflowID ∧ SamePlace r r'

section Beside

variable {q : QueueConfig} {t t' : StatusTable}

theorem SamePlace.refl (r : WorkflowRow) : SamePlace r r := ⟨rfl, rfl, rfl, rfl⟩

theorem SamePlace.pendingOf_eq {r r' : WorkflowRow} (h : SamePlace r r') (app : Option String)
    (key : String) : pendingOf q app key r' = pendingOf q app key r := by
  simp only [pendingOf, inPartition, h.status, h.queueName, h.applicationName, h.queuePartitionKey]

theorem NoneAdded.update {p : WorkflowRow → Bool} {f : WorkflowRow → WorkflowRow}
    {hf : ∀ r, (f r).workflowID = r.workflowID}
    (h : ∀ r, p r = true → (f r).status ≠ .pending ∨ SamePlace r (f r)) :
    NoneAdded q t (t.update p f hf) := by
  intro r' hr' _ hst
  obtain ⟨r, hr, rfl⟩ := Table.mem_update.1 hr'
  refine ⟨r, hr, ?_⟩
  split_ifs at hst ⊢ with hp
  · exact ⟨(hf r).symm, (h r hp).resolve_left fun hne => hne hst⟩
  · exact ⟨rfl, .refl r⟩

theorem NoneAdded.rows (h : ∀ r' ∈ t'.rows,
    r' ∈ t.rows ∨ r'.queueName ≠ some q.name ∨ r'.status ≠ .pending) : NoneAdded q t t' := by
  intro r' hr' hq hst
  rcases h r' hr' with hr | hne | hne
  · exact ⟨r', hr, rfl, .refl r'⟩
  · exact (hne hq).elim
  · exact (hne hst).elim

theorem noneAdded_insertWorkflowStatus {appName : String} {i : InsertWorkflowStatusInput}
    (h : Lifecycle.step t (.insertWorkflowStatus appName i) = some t')
    (hi : i.status ≠ .pending ∨ i.queueName ≠ q.name) : NoneAdded q t t' := by
  obtain ⟨-, rfl⟩ := Lifecycle.insertWorkflowStatus_cases h
  unfold Table.upsert
  split_ifs
  · exact .update fun r _ => .inr ⟨rfl, rfl, rfl, rfl⟩
  · refine .rows fun r hr => ?_
    obtain hr | rfl := Table.mem_of_mem_insert hr
    · exact .inl hr
    · refine .inr (hi.symm.imp (fun hne hq => ?_) id)
      simp only [InsertWorkflowStatusInput.row, nullIfEmpty] at hq
      split_ifs at hq
      exact hne (Option.some.inj hq)

theorem noneAdded_of_beside {op : Lifecycle.Operation} (hop : beside q op = true)
    (h : Lifecycle.step t op = some t') : NoneAdded q t t' := by
  cases op with
  | insertWorkflowStatus appName i =>
    exact noneAdded_insertWorkflowStatus h (by simpa [beside] using hop)
  | forkWorkflows appName i now =>
    refine .rows fun r hr => ((Lifecycle.forkWorkflows_cases h).2 r hr).imp_right ?_
    rintro ⟨original, forkedID, rfl⟩
    exact .inr (by simp [ForkWorkflowsInput.row])
  | dequeueWorkflows c ids now => cases hop
  | renameApplication oldName newName adoptUnclaimedRows => cases hop
  | deleteWorkflows ids =>
    cases h
    exact .rows fun r hr => .inl (List.mem_filter.1 hr).1
  | garbageCollectWorkflows appName i =>
    obtain ⟨p, rfl, -⟩ := Lifecycle.garbageCollectWorkflows_cases h
    exact .rows fun r hr => .inl (List.mem_filter.1 hr).1
  | debounceDelayedWorkflow appName i now =>
    cases h
    refine .update fun r hr => .inl ?_
    have : r.status = .delayed := by simp_all [StatusTable.debounceable]
    simp [WorkflowRow.debounce, this]
  | setWorkflowDelay id delayUntil now =>
    cases h
    exact .update fun r hr => .inl (by simp_all [WorkflowRow.setDelay])
  | wake ids now =>
    cases h
    exact .update fun r hr => .inl (by simp_all [WorkflowRow.wake])
  | updateWorkflowOutcome id failed output error now =>
    cases h
    exact .update fun r _ => .inl (by cases failed <;> simp [WorkflowRow.recordOutcome])
  | _ =>
    cases h
    exact .update fun r _ => .inl fun hs => by cases hs

theorem NoneAdded.count_le (h : NoneAdded q t t') (app : Option String) (key : String) :
    t'.count (pendingOf q app key) ≤ t.count (pendingOf q app key) := by
  refine Table.count_le_add [] fun r' hr' hp => .inr ?_
  have hqueue : r'.queueName = some q.name ∧ r'.status = .pending := by
    simp only [pendingOf, Bool.and_eq_true, decide_eq_true_eq] at hp
    exact hp.1.1
  obtain ⟨r, hr, hid, hsame⟩ := h r' hr' hqueue.1 hqueue.2
  exact ⟨r, hr, hid, by rwa [← hsame.pendingOf_eq]⟩

end Beside

/-! ### The bound -/

/-- The rows that the count of the transaction would find now are rows that it found. -/
def FreshCount (q : QueueConfig) (e : Executor) (t : StatusTable) (x : Txn) : Prop :=
  ∀ r ∈ t.rows, pending q e x.input.queuePartitionKey r = true →
    ∃ r₀ ∈ x.snapshot.table.rows, r₀.workflowID = r.workflowID ∧
      pending q e x.input.queuePartitionKey r₀ = true

instance (q : QueueConfig) (e : Executor) (t : StatusTable) (x : Txn) :
    Decidable (FreshCount q e t x) :=
  inferInstanceAs (Decidable (∀ _ ∈ t.rows, _))

/-- **The condition.** A dequeue commits on a fresh count. -/
def CommitsFresh {n : ℕ} (q : QueueConfig) (execs : Fin n → Executor) (s : State n) :
    Action n → Prop
  | .commit e => ∀ p ∈ (s.phases e).txn?, FreshCount q (execs e) s.store.table p.1
  | _ => True

instance {n : ℕ} (q : QueueConfig) (execs : Fin n → Executor) (s : State n) (a : Action n) :
    Decidable (CommitsFresh q execs s a) := by
  unfold CommitsFresh
  split <;> infer_instance

/-- At most `limit` rows of the queue are `PENDING`, for every application, and in every partition
if the queue is partitioned. -/
def Bounded (q : QueueConfig) (limit : Int) (t : StatusTable) : Prop :=
  ∀ app key, decide (key ≠ "") = q.partitionQueue → t.count (pendingOf q app key) ≤ limit.toNat

section Bound

variable {n : ℕ} {q : QueueConfig} {execs : Fin n → Executor} {ex : Executor} {limit : Int}
  {store : Versioned WorkflowRow.workflowID} {x : Txn} {ids : List String}

/-- What a dequeue claims fits into what it has counted. -/
theorem TxnOk.pending_add_le (h : TxnOk q ex store x ids) (hn : q.globalConcurrency = some limit)
    (hids : ids ≠ []) :
    x.snapshot.table.count (pending q ex x.input.queuePartitionKey) + ids.length ≤ limit.toNat := by
  obtain ⟨k, hk, hle⟩ := budget_le_global h.counted hn
  have hlen := h.within k hk
  have hpos := List.length_pos_of_ne_nil hids
  omega

theorem applicationName_claim {r : WorkflowRow} (h : r.ownedBy ex.appName = true) (now : Int) :
    ex.appName = "" ∨ (r.claim (claimOf q ex) now).applicationName = some ex.appName := by
  by_cases happ : ex.appName = ""
  · exact .inl happ
  · refine .inr ?_
    simp only [WorkflowRow.ownedBy, happ, decide_false, Bool.false_or, Bool.or_eq_true,
      decide_eq_true_eq] at h
    rcases h with h | h <;> simp [WorkflowRow.claim, claimOf, happ, h]

/-- Where a claim adds to a count of `PENDING` rows, the executor has counted them. -/
theorem pending_of_pendingOf {r r' : WorkflowRow} {isLatestVersion : Bool} {now : Int}
    {key key' : String} {app : Option String} (helig : eligible q ex key isLatestVersion r = true)
    (hkey : decide (key' ≠ "") = decide (key ≠ ""))
    (hp : pendingOf q app key' (r.claim (claimOf q ex) now) = true)
    (hp' : pendingOf q app key' r' = true) : pending q ex key r' = true := by
  simp only [eligible, Bool.and_eq_true, decide_eq_true_eq] at helig
  simp only [pendingOf, Bool.and_eq_true, decide_eq_true_eq] at hp hp'
  obtain ⟨⟨_, howned⟩, hpart⟩ := helig
  obtain ⟨⟨_, happ⟩, hpart₀⟩ := hp
  obtain ⟨⟨⟨hqueue, hst⟩, happ'⟩, hpart'⟩ := hp'
  have howned' : r'.ownedBy ex.appName = true := by
    rcases applicationName_claim (q := q) howned now with hnone | hname
    · simp [WorkflowRow.ownedBy, hnone]
    · simp [WorkflowRow.ownedBy, happ', ← happ, hname]
  have hkeys : key' = key := by
    by_cases hempty : key = ""
    · simpa [hempty] using hkey
    · have hempty' : key' ≠ "" := by simpa [hempty] using hkey
      simp only [inPartition, hempty, hempty', decide_false, Bool.false_or, decide_eq_true_eq] at hpart hpart₀
      exact Option.some.inj (hpart₀.symm.trans hpart)
  simp [pending, hqueue, hst, howned', ← hkeys, hpart']

/-- The commit of a dequeue keeps the bound if its count is fresh. -/
theorem bounded_claim (h : TxnOk q ex store x ids) (hn : q.globalConcurrency = some limit)
    (hids : ids ≠ []) (now : Int)
    (hfresh : FreshCount q ex store.table x) (hbounded : Bounded q limit store.table) :
    Bounded q limit (StatusTable.claim store.table (claimOf q ex) ids now) := by
  intro app key hkey
  -- either some row of the count is one that the claim has made `PENDING`, or none is
  by_cases hadded : ∃ r ∈ store.table.rows, r.workflowID ∈ ids ∧
      pendingOf q app key (r.claim (claimOf q ex) now) = true
  · obtain ⟨r, hr, hid, hp⟩ := hadded
    refine le_trans (Table.count_le_add _ fun r' hr' hp' => ?_) (h.pending_add_le hn hids)
    obtain ⟨r₁, hr₁, rfl⟩ := Table.mem_update.1 hr'
    split_ifs at hp' ⊢ with hguard
    · have hmem : r₁.workflowID ∈ ids := by simp_all
      exact .inl hmem
    · obtain ⟨r₂, isLatestVersion, hr₂, helig⟩ := h.row hid
      obtain rfl : r = r₂ := by
        rw [Table.find?_of_mem hr] at hr₂
        exact Option.some.inj hr₂
      exact .inr (hfresh r₁ hr₁ (pending_of_pendingOf helig (hkey.trans h.partition.symm) hp hp'))
  · refine le_trans (Table.count_le_add [] fun r' hr' hp' => .inr ?_) (hbounded app key hkey)
    obtain ⟨r₁, hr₁, rfl⟩ := Table.mem_update.1 hr'
    split_ifs at hp' ⊢ with hguard
    · exact (hadded ⟨r₁, hr₁, by simp_all, hp'⟩).elim
    · exact ⟨r₁, hr₁, rfl, hp'⟩

/-- **Global concurrency.** In every run whose dequeues commit on fresh counts, at most `limit` rows
of the queue are `PENDING` for each application, in each partition if the queue is partitioned. -/
theorem pending_le_globalConcurrency (hn : q.globalConcurrency = some limit) {s : State n}
    (h : Reaches (system q execs (NonePending q)) (CommitsFresh q execs) s) :
    Bounded q limit s.store.table := by
  have hq : q.snapshot = true := by simp [QueueConfig.snapshot, hn]
  refine (h.invariant (I := fun s => Bounded q limit s.store.table ∧ Sound q execs s.store s.phases)
    ?_ ?_).1
  · intro s hs
    refine ⟨fun app key _ => ?_, sound_of_init hs⟩
    have hzero : s.store.table.count (pendingOf q app key) = 0 := by
      refine List.countP_eq_zero.2 fun r hr hp => ?_
      simp only [pendingOf, Bool.and_eq_true, decide_eq_true_eq] at hp
      exact hs.1 r hr hp.1.1.1 hp.1.1.2
    omega
  · rintro s a s' ⟨hbounded, hsound⟩ hfresh hstep
    obtain ⟨hmoves, hsound'⟩ := moves_step hq hsound hstep
    refine ⟨?_, hsound'⟩
    cases hmoves with
    | phase hstore _ => rwa [hstore]
    | @commit e x ids now _ hphase hids htable _ =>
      have htxn : (s.phases e).txn? = some (x, ids) := by rw [hphase]; rfl
      rw [htable]
      exact bounded_claim (hsound.txn e x ids htxn) hn hids _ (hfresh _ htxn) hbounded
    | environment hop hstep _ =>
      exact fun app key hkey =>
        ((noneAdded_of_beside hop hstep).count_le app key).trans (hbounded app key hkey)

end Bound

/-! ### Two versions -/

section Versions

def oneAtATime : QueueConfig := { name := "q", globalConcurrency := some 1 }

def versioned {n : ℕ} (e : Fin n) : Executor := ⟨toString e.val, toString e.val, "app"⟩

def bothCount {n : ℕ} (a b : Fin n) : List (Action n) :=
  [submit "w" "0" 0, submit "v" "1" 0, .count a {} 0, .count b {} 0,
   .select a false [submitted "w" "0" 0], .select b false [submitted "v" "1" 0],
   .claim a 0, .claim b 0, .commit a, .commit b]

def inTurn {n : ℕ} (a b : Fin n) : List (Action n) :=
  [submit "w" "0" 0, submit "v" "1" 0] ++ dequeue a 0 [submitted "w" "0" 0] ++
    [.environment (.updateWorkflowOutcome "w" false none none 1)] ++
    dequeue b 0 [submitted "v" "1" 0]

theorem nonePending_empty (q : QueueConfig) : NonePending q .empty := by
  simp [NonePending, Table.empty]

/-- The snapshots agree, the candidates differ, and both dequeues commit. -/
theorem globalConcurrency_exceeded :
    oneAtATime.globalConcurrency = some 1 ∧
    ∃ s : State 2, Reaches (system oneAtATime versioned (NonePending oneAtATime)) (fun _ _ => True) s ∧
      ¬ Bounded oneAtATime 1 s.store.table := by
  obtain ⟨s, hs, hcount⟩ := exists_reaches (S := system oneAtATime versioned (NonePending oneAtATime))
    (fun _ _ => True) (s := blank 2) (bothCount 0 1)
    (fun s => s.store.table.count (pendingOf oneAtATime (some "app") "") = 2)
    (init_blank 2 _ _ (nonePending_empty _)) (fun _ _ => trivial) (by decide +kernel)
  refine ⟨rfl, s, hs, fun hbounded => ?_⟩
  have := hbounded (some "app") "" rfl
  simp_all

theorem pending_le_globalConcurrency_inTurn :
    ∃ s : State 2, Bounded oneAtATime 1 s.store.table ∧
      s.store.table.count (pendingOf oneAtATime (some "app") "") = 1 := by
  obtain ⟨s, hs, hcount⟩ := exists_reaches (S := system oneAtATime versioned (NonePending oneAtATime))
    (CommitsFresh oneAtATime versioned) (s := blank 2) (inTurn 0 1)
    (fun s => s.store.table.count (pendingOf oneAtATime (some "app") "") = 1)
    (init_blank 2 _ _ (nonePending_empty _)) (by decide +kernel) (by decide +kernel)
  exact ⟨s, pending_le_globalConcurrency rfl hs, by simpa using hcount⟩

end Versions

end Dbos.Queue
