import DbosTransact.Queue.Dequeue
import Mathlib.Data.List.Dedup

/-!
# The rate limit

The limiter recounts the past claims from the columns `queue_name`, `rate_limited`, `status` and
`started_at_epoch_ms`, which cancellation, suspension, recovery and resumption change: a claim whose row has
moved on is forgotten, and another workflow is claimed in its place.
-/

namespace Dbos.Queue

open Relational RepeatableRead Lts

/-- The partition `key'` is the partition `key`; the empty key stands for the whole queue. -/
def ofPartition (key key' : String) : Bool := key = "" || key' = key

/-- The time lies in the window `(t - period, t]`. -/
def inWindow (period t time : Int) : Bool := t - period < time && time ≤ t

/-- The workflows claimed from the partition in the window `(t - period, t]`. -/
def claimedWithin (claims : List ClaimRecord) (key : String) (period t : Int) : List String :=
  ((claims.filter fun c => ofPartition key c.queuePartitionKey && inWindow period t c.time).map
    (·.workflowID)).dedup

/-- At most `limit` workflows are claimed in any window, from each partition if the queue is
partitioned. -/
def WithinRate (q : QueueConfig) (l : RateLimiter) (claims : List ClaimRecord) : Prop :=
  ∀ key t, decide (key ≠ "") = q.partitionQueue →
    (claimedWithin claims key l.period t).length ≤ l.limit.toNat

/-- The limiter query of the transaction counts every workflow claimed less than a period before
`now`. -/
def Remembers (q : QueueConfig) (e : Executor) (l : RateLimiter) (claims : List ClaimRecord) (x : Txn)
    (now : Int) : Prop :=
  ∀ c ∈ claims, ofPartition x.input.queuePartitionKey c.queuePartitionKey = true →
    now - l.period < c.time →
      ∃ r ∈ x.snapshot.table.rows, r.workflowID = c.workflowID ∧
        recent q e x.input.queuePartitionKey (cutoffTime l x.reading) r = true

instance (q : QueueConfig) (e : Executor) (l : RateLimiter) (claims : List ClaimRecord) (x : Txn)
    (now : Int) : Decidable (Remembers q e l claims x now) :=
  inferInstanceAs (Decidable (∀ _ ∈ claims, _))

/-- **The condition.** A dequeue commits only if its limiter query has counted the recent claims. -/
def CommitsRemembering {n : ℕ} (q : QueueConfig) (execs : Fin n → Executor) (l : RateLimiter)
    (s : State n) : Action n → Prop
  | .commit e => ∀ p ∈ (s.phases e).claimedAt?, Remembers q (execs e) l s.claims p.1 p.2
  | _ => True

instance {n : ℕ} (q : QueueConfig) (execs : Fin n → Executor) (l : RateLimiter) (s : State n)
    (a : Action n) : Decidable (CommitsRemembering q execs l s a) :=
  match a with
  | .commit e => inferInstanceAs (Decidable (∀ _ ∈ (s.phases e).claimedAt?, _))
  | .count _ _ _ | .select _ _ _ | .claim _ _ | .abort _ | .environment _ => isTrue trivial

section Rate

variable {n : ℕ} {q : QueueConfig} {execs : Fin n → Executor} {ex : Executor} {l : RateLimiter}
  {store : Versioned WorkflowRow.workflowID} {x : Txn} {ids : List String}

/-- What a dequeue claims fits into what the limiter has left. -/
theorem TxnOk.recent_add_le (h : TxnOk q ex store x ids) (hl : q.rateLimit = some l)
    (hids : ids ≠ []) :
    x.snapshot.table.count (recent q ex x.input.queuePartitionKey (cutoffTime l x.reading)) +
      ids.length ≤ l.limit.toNat := by
  obtain ⟨k, hk, hle⟩ := budget_le_limit h.counted hl
  have hlen := h.within k hk
  have hpos := List.length_pos_of_ne_nil hids
  omega

theorem mem_claimedWithin {claims : List ClaimRecord} {key id : String} {period t : Int} :
    id ∈ claimedWithin claims key period t ↔ ∃ c ∈ claims,
      (ofPartition key c.queuePartitionKey = true ∧ inWindow period t c.time = true) ∧
        c.workflowID = id := by
  simp [claimedWithin, and_assoc]

theorem claimedWithin_append_of_not {claims : List ClaimRecord} {claimed : List String}
    {key key' : String} {period t now : Int}
    (h : ¬(ofPartition key key' = true ∧ inWindow period t now = true)) :
    claimedWithin (claims ++ claimed.map (⟨·, key', now⟩)) key period t =
      claimedWithin claims key period t := by
  have hnone : ((claimed.map (⟨·, key', now⟩ : String → ClaimRecord)).filter fun c =>
      ofPartition key c.queuePartitionKey && inWindow period t c.time) = [] := by
    refine List.filter_eq_nil_iff.2 fun c hc hp => h ?_
    obtain ⟨id, _, rfl⟩ := List.mem_map.1 hc
    simpa using hp
  rw [claimedWithin, List.filter_append, hnone, List.append_nil, claimedWithin]

/-- The claims of a dequeue whose limiter remembers the recent ones keep the limit. -/
theorem withinRate_append (h : TxnOk q ex store x ids) (hl : q.rateLimit = some l) (hids : ids ≠ [])
    {claims : List ClaimRecord} {now : Int} {claimed : List String} (hclaimed : claimed ⊆ ids)
    (hremembers : Remembers q ex l claims x now) (hrate : WithinRate q l claims) :
    WithinRate q l (claims ++ claimed.map (⟨·, x.input.queuePartitionKey, now⟩)) := by
  intro key t hkey
  by_cases hnew : ofPartition key x.input.queuePartitionKey = true ∧ inWindow l.period t now = true
  case neg =>
    rw [claimedWithin_append_of_not hnew]
    exact hrate key t hkey
  obtain ⟨hpart, hwindow⟩ := hnew
  have hpartition : key = x.input.queuePartitionKey := by
    have hkeys := hkey.trans h.partition.symm
    by_cases hempty : key = ""
    · rw [hempty] at hkeys ⊢
      exact (by simpa using hkeys : x.input.queuePartitionKey = "").symm
    · simpa [ofPartition, hempty, eq_comm] using hpart
  simp only [inWindow, Bool.and_eq_true, decide_eq_true_eq] at hwindow
  -- what was claimed before in this window is what the limiter has counted
  have hsub : claimedWithin (claims ++ claimed.map (⟨·, x.input.queuePartitionKey, now⟩)) key
      l.period t ⊆ (x.snapshot.table.rows.filter
        (recent q ex x.input.queuePartitionKey (cutoffTime l x.reading))).map (·.workflowID) ++ ids := by
    intro id hid
    obtain ⟨c, hc, ⟨hcpart, hcwindow⟩, rfl⟩ := mem_claimedWithin.1 hid
    rcases List.mem_append.1 hc with hc | hc
    · simp only [inWindow, Bool.and_eq_true, decide_eq_true_eq] at hcwindow
      obtain ⟨r, hr, hid, hrecent⟩ :=
        hremembers c hc (hpartition ▸ hcpart) (by omega)
      exact List.mem_append_left _ (List.mem_map.2 ⟨r, List.mem_filter.2 ⟨hr, hrecent⟩, hid⟩)
    · obtain ⟨id, hid', rfl⟩ := List.mem_map.1 hc
      exact List.mem_append_right _ (hclaimed hid')
  have hlen := ((List.nodup_dedup _).subperm hsub).length_le
  have hbudget := h.recent_add_le hl hids
  rw [Table.count, List.countP_eq_length_filter] at hbudget
  simp only [List.length_append, List.length_map] at hlen
  exact hlen.trans hbudget

/-- **The rate limit.** In every run whose dequeues commit only on a limiter query that has counted
the recent claims, at most `limit` workflows are claimed in any window of the length of the period,
from each partition if the queue is partitioned. -/
theorem claimed_le_rateLimit (hl : q.rateLimit = some l) {s : State n}
    (h : Reaches (system q execs (fun _ => True)) (CommitsRemembering q execs l) s) :
    WithinRate q l s.claims := by
  have hq : q.snapshot = true := by simp [QueueConfig.snapshot, hl]
  refine (h.invariant (I := fun s => WithinRate q l s.claims ∧ Sound q execs s.store s.phases)
    ?_ ?_).1
  · intro s hs
    refine ⟨fun key t _ => ?_, sound_of_init hs⟩
    simp [hs.2.2, claimedWithin]
  · rintro s a s' ⟨hrate, hsound⟩ hremembers hstep
    obtain ⟨hmoves, hsound'⟩ := moves_step hq hsound hstep
    refine ⟨?_, hsound'⟩
    cases hmoves with
    | phase _ hclaims => rwa [hclaims]
    | @commit e x ids now _ hphase hids _ hclaims =>
      have htxn : (s.phases e).txn? = some (x, ids) := by rw [hphase]; rfl
      have hat : (s.phases e).claimedAt? = some (x, now) := by rw [hphase]; rfl
      rw [hclaims]
      exact withinRate_append (hsound.txn e x ids htxn) hl hids List.filter_sublist.subset
        (hremembers _ hat) hrate
    | environment _ _ hclaims => rwa [hclaims]

end Rate

/-! ### A suspended workflow is forgotten -/

section Forgotten

def onePerSecond : QueueConfig := { name := "q", rateLimit := some ⟨1, 1000000000⟩ }

def worker {n : ℕ} (_ : Fin n) : Executor := ⟨"e", "v", "app"⟩

/-- The first workflow is claimed and goes to sleep; the second is claimed a millisecond later. -/
def sleeper {n : ℕ} (e : Fin n) : List (Action n) :=
  [submit "w" "v" 0, submit "v" "v" 1] ++ dequeue e 0 [submitted "w" "v" 0, submitted "v" "v" 1] ++
    [.environment (.suspendWorkflowToDelayed "w" 60000 0)] ++ dequeue e 1000000 [submitted "v" "v" 1]

def patient {n : ℕ} (e : Fin n) : List (Action n) :=
  [submit "w" "v" 0, submit "v" "v" 1] ++ dequeue e 0 [submitted "w" "v" 0, submitted "v" "v" 1] ++
    dequeue e 1000000000 [submitted "v" "v" 1]

/-- One executor starts two workflows within a millisecond. -/
theorem rateLimit_exceeded :
    onePerSecond.rateLimit = some ⟨1, 1000000000⟩ ∧
    ∃ s : State 1, Reaches (system onePerSecond worker (fun _ => True)) (fun _ _ => True) s ∧
      ¬ WithinRate onePerSecond ⟨1, 1000000000⟩ s.claims := by
  obtain ⟨s, hs, hcount⟩ := exists_reaches (S := system onePerSecond worker (fun _ => True))
    (fun _ _ => True) (s := blank 1) (sleeper 0)
    (fun s => (claimedWithin s.claims "" 1000000000 1000000).length = 2)
    (init_blank 1 _ _ trivial) (fun _ _ => trivial) (by decide +kernel)
  refine ⟨rfl, s, hs, fun hrate => ?_⟩
  have := hrate "" 1000000 rfl
  simp_all

theorem claimed_le_rateLimit_patient :
    ∃ s : State 1, WithinRate onePerSecond ⟨1, 1000000000⟩ s.claims ∧ s.claims.length = 2 := by
  obtain ⟨s, hs, hcount⟩ := exists_reaches (S := system onePerSecond worker (fun _ => True))
    (CommitsRemembering onePerSecond worker ⟨1, 1000000000⟩) (s := blank 1) (patient 0)
    (fun s => s.claims.length = 2) (init_blank 1 _ _ trivial) (by decide +kernel) (by decide +kernel)
  exact ⟨s, claimed_le_rateLimit rfl hs, by simpa using hcount⟩

end Forgotten

end Dbos.Queue
