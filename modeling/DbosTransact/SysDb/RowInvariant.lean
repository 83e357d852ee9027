import DbosTransact.Lib.Transition
import DbosTransact.SysDb.StatusTable

/-!
# The invariant of a status row

Any sequence of operations on `workflow_status` from the empty table. `RowInv` says which columns go with
which status. Garbage collection goes by `completed_at` alone, and so, by the invariant, removes only rows
that have reached a terminal status.
-/

namespace Dbos.Lifecycle

open Relational Lts StatusTable

/-- What holds of every row of `workflow_status`. -/
structure RowInv (r : WorkflowRow) : Prop where
  completed : r.completedAt.isSome = r.status.isTerminal
  deduplication : r.status.isTerminal = true → r.deduplicationID = none
  withdrawn : r.status = .cancelled ∨ r.status = .maxRecoveryAttemptsExceeded →
    r.queueName = none ∧ r.startedAt = none
  queued : r.status = .enqueued ∨ r.status = .delayed →
    (∃ q, r.queueName = some q ∧ q ≠ "") ∧ r.startedAt = none
  delayed : r.status = .delayed → r.delayUntil.isSome = true

/-- The workflow has returned: its row is `SUCCESS` or `ERROR`. -/
def Settled (r : WorkflowRow) : Prop := r.status = .success ∨ r.status = .error

def SameOutcome (r r' : WorkflowRow) : Prop :=
  r'.status = r.status ∧ r'.output = r.output ∧ r'.error = r.error ∧ r'.completedAt = r.completedAt

def system : System StatusTable Operation where
  init t := t = .empty
  step := step

/-! ### The invariant, statement by statement -/

section Clauses

variable {r : WorkflowRow}

theorem RowInv.completedAt_eq_none (h : RowInv r) (hst : r.status.isTerminal = false) :
    r.completedAt = none := by
  have := h.completed
  rw [hst] at this
  simpa using this

theorem RowInv.of_pending (hst : r.status = .pending) (hc : r.completedAt = none) : RowInv r where
  completed := by simp [hst, hc, Status.isTerminal]
  deduplication := by simp [hst, Status.isTerminal]
  withdrawn := by simp [hst]
  queued := by simp [hst]
  delayed := by simp [hst]

theorem RowInv.of_enqueued (hst : r.status = .enqueued) (hc : r.completedAt = none)
    (hq : ∃ q, r.queueName = some q ∧ q ≠ "") (hs : r.startedAt = none) : RowInv r where
  completed := by simp [hst, hc, Status.isTerminal]
  deduplication := by simp [hst, Status.isTerminal]
  withdrawn := by simp [hst]
  queued := fun _ => ⟨hq, hs⟩
  delayed := by simp [hst]

theorem RowInv.of_delayed (hst : r.status = .delayed) (hc : r.completedAt = none)
    (hq : ∃ q, r.queueName = some q ∧ q ≠ "") (hs : r.startedAt = none)
    (hd : r.delayUntil.isSome = true) : RowInv r where
  completed := by simp [hst, hc, Status.isTerminal]
  deduplication := by simp [hst, Status.isTerminal]
  withdrawn := by simp [hst]
  queued := fun _ => ⟨hq, hs⟩
  delayed := fun _ => hd

theorem RowInv.of_withdrawn (hst : r.status = .cancelled ∨ r.status = .maxRecoveryAttemptsExceeded)
    (hc : r.completedAt.isSome = true) (hdedup : r.deduplicationID = none)
    (hq : r.queueName = none) (hs : r.startedAt = none) : RowInv r where
  completed := by rcases hst with hst | hst <;> simp [hst, hc, Status.isTerminal]
  deduplication := fun _ => hdedup
  withdrawn := fun _ => ⟨hq, hs⟩
  queued := by rcases hst with hst | hst <;> simp [hst]
  delayed := by rcases hst with hst | hst <;> simp [hst]

theorem RowInv.of_settled (hst : Settled r) (hc : r.completedAt.isSome = true)
    (hdedup : r.deduplicationID = none) : RowInv r where
  completed := by rcases hst with hst | hst <;> simp [hst, hc, Status.isTerminal]
  deduplication := fun _ => hdedup
  withdrawn := by rcases hst with hst | hst <;> simp [hst]
  queued := by rcases hst with hst | hst <;> simp [hst]
  delayed := by rcases hst with hst | hst <;> simp [hst]

theorem internalQueueName_ne : internalQueueName ≠ "" := by decide

theorem queueOr_ne {queue : String} (hq : queue ≠ "") : r.queueOr queue ≠ "" := by
  unfold WorkflowRow.queueOr
  split
  · split_ifs with h
    · exact hq
    · exact h
  · exact hq

theorem RowInv.row {i : InsertWorkflowStatusInput} (appName : String) (h : i.WellFormed) :
    RowInv (i.row appName) := by
  rcases h with hst | ⟨hq, hst | ⟨hst, hd⟩⟩
  · exact .of_pending hst rfl
  · exact .of_enqueued hst rfl ⟨i.queueName, if_neg hq, hq⟩ rfl
  · exact .of_delayed hst rfl ⟨i.queueName, if_neg hq, hq⟩ rfl hd

theorem RowInv.forkRow (i : ForkWorkflowsInput) (appName : String) (now : Int)
    (original : WorkflowRow) (forkedID : String) :
    RowInv (i.row appName now original forkedID) := by
  refine .of_enqueued rfl rfl ⟨_, rfl, ?_⟩ rfl
  split_ifs with h
  · exact internalQueueName_ne
  · exact h

theorem RowInv.claim (h : RowInv r) (hst : r.status = .enqueued) (c : WorkflowRow.Claim)
    (now : Int) : RowInv (r.claim c now) :=
  .of_pending rfl (h.completedAt_eq_none (by simp [hst, Status.isTerminal]))

theorem RowInv.suspendToDelayed (h : RowInv r) (hst : r.status = .pending) (delayUntil now : Int) :
    RowInv (r.suspendToDelayed delayUntil now) :=
  .of_delayed rfl (h.completedAt_eq_none (by simp [hst, Status.isTerminal]))
    ⟨_, rfl, queueOr_ne internalQueueName_ne⟩ rfl rfl

theorem RowInv.promote (h : RowInv r) (hst : r.status = .delayed) (now : Int) :
    RowInv (r.promote now) :=
  .of_enqueued rfl (h.completedAt_eq_none (by simp [hst, Status.isTerminal]))
    (h.queued (.inr hst)).1 (h.queued (.inr hst)).2

theorem RowInv.redelay {r' : WorkflowRow} (h : RowInv r) (hst : r.status = .delayed)
    (hst' : r'.status = r.status) (hc : r'.completedAt = r.completedAt)
    (hq : r'.queueName = r.queueName) (hs : r'.startedAt = r.startedAt)
    (hd : r'.delayUntil.isSome = true) : RowInv r' := by
  refine .of_delayed (hst'.trans hst) (hc.trans (h.completedAt_eq_none ?_)) ?_
    (hs.trans (h.queued (.inr hst)).2) hd
  · simp [hst, Status.isTerminal]
  · rw [hq]
    exact (h.queued (.inr hst)).1

theorem RowInv.reenqueue (h : RowInv r) (hst : r.status = .pending) (now : Int) :
    RowInv (r.reenqueue internalQueueName now) :=
  .of_enqueued rfl (h.completedAt_eq_none (by simp [hst, Status.isTerminal]))
    ⟨_, rfl, queueOr_ne internalQueueName_ne⟩ rfl

theorem RowInv.resume (queue : String) (now : Int) (r : WorkflowRow) :
    RowInv (r.resume queue now) := by
  refine .of_enqueued rfl rfl ⟨_, rfl, ?_⟩ rfl
  split_ifs with h
  · exact internalQueueName_ne
  · exact h

theorem RowInv.congr {r' : WorkflowRow} (h : RowInv r) (hst : r'.status = r.status)
    (hc : r'.completedAt = r.completedAt) (hdedup : r'.deduplicationID = r.deduplicationID)
    (hq : r'.queueName = r.queueName) (hs : r'.startedAt = r.startedAt)
    (hd : r'.delayUntil = r.delayUntil) : RowInv r' where
  completed := by rw [hc, hst]; exact h.completed
  deduplication := by rw [hst, hdedup]; exact h.deduplication
  withdrawn := by rw [hst, hq, hs]; exact h.withdrawn
  queued := by rw [hst, hq, hs]; exact h.queued
  delayed := by rw [hst, hd]; exact h.delayed

end Clauses

/-! ### What an operation can do -/

/-- The row `r` is in the table, with its outcome. -/
def Kept (r : WorkflowRow) (t : StatusTable) : Prop :=
  ∃ r' ∈ t.rows, r'.workflowID = r.workflowID ∧ SameOutcome r r'

/-- What a step leaves of the rows: the invariant, the outcome of every settled row that it does not
remove, and all rows but completed ones if it collects garbage. -/
structure Keeps (t t' : StatusTable) (op : Operation) : Prop where
  inv : (∀ r ∈ t.rows, RowInv r) → ∀ r ∈ t'.rows, RowInv r
  settled : ∀ r ∈ t.rows, Settled r →
    Kept r t' ∨ op.removes = true ∧ ∀ r' ∈ t'.rows, r'.workflowID ≠ r.workflowID
  collected : ∀ appName i, op = .garbageCollectWorkflows appName i →
    ∀ r ∈ t.rows, r ∉ t'.rows → r.completedAt.isSome = true

variable {t t' : StatusTable} {op : Operation}

theorem SameOutcome.refl (r : WorkflowRow) : SameOutcome r r := ⟨rfl, rfl, rfl, rfl⟩

theorem Keeps.update {p : WorkflowRow → Bool} {f : WorkflowRow → WorkflowRow}
    {hf : ∀ r, (f r).workflowID = r.workflowID} (hop : op.removes = false)
    (hinv : ∀ r, p r = true → RowInv r → RowInv (f r))
    (hsettled : ∀ r, p r = true → Settled r → SameOutcome r (f r)) :
    Keeps t (t.update p f hf) op where
  inv h := Table.forall_update h hinv
  settled r hr hst := by
    refine .inl ⟨_, Table.mem_update.2 ⟨r, hr, rfl⟩, ?_⟩
    split_ifs with hp
    · exact ⟨hf r, hsettled r hp hst⟩
    · exact ⟨rfl, .refl r⟩
  collected appName i h := by simp [h, Operation.removes] at hop

theorem Keeps.insert (hop : op.removes = false) (hold : ∀ r ∈ t.rows, r ∈ t'.rows)
    (hnew : ∀ r ∈ t'.rows, r ∈ t.rows ∨ RowInv r) : Keeps t t' op where
  inv h r hr := (hnew r hr).elim (h r) id
  settled r hr _ := .inl ⟨r, hold r hr, rfl, .refl r⟩
  collected appName i h := by simp [h, Operation.removes] at hop

theorem Keeps.delete {p : WorkflowRow → Bool} (hop : op.removes = true)
    (hcollected : ∀ appName i, op = .garbageCollectWorkflows appName i →
      ∀ r, p r = true → r.completedAt.isSome = true) : Keeps t (t.delete p) op where
  inv h r hr := h r (List.mem_filter.1 hr).1
  settled r hr _ := by
    by_cases hp : p r = true
    · refine .inr ⟨hop, fun r' hr' hid => ?_⟩
      obtain ⟨hr', hp'⟩ := List.mem_filter.1 hr'
      -- the key is unique, so no other row stands in for the one removed
      have heq : r' = r := Table.eq_of_key_eq hr hr' hid
      simp [heq, hp] at hp'
    · exact .inl ⟨r, List.mem_filter.2 ⟨hr, by simpa using hp⟩, rfl, .refl r⟩
  collected appName i h r hr hr' := by
    refine hcollected appName i h r ?_
    by_contra hp
    exact hr' (List.mem_filter.2 ⟨hr, by simpa using hp⟩)

theorem Keeps.move {p : WorkflowRow → Bool} {f : WorkflowRow → WorkflowRow}
    {hf : ∀ r, (f r).workflowID = r.workflowID} (hop : op.removes = false)
    (hp : ∀ r, p r = true → r.status ≠ .success ∧ r.status ≠ .error)
    (hinv : ∀ r, p r = true → RowInv r → RowInv (f r)) : Keeps t (t.update p f hf) op :=
  .update hop hinv fun r hr hst => (hst.elim (hp r hr).1 (hp r hr).2).elim

theorem keeps_insertWorkflowStatus {appName : String} {i : InsertWorkflowStatusInput}
    (h : step t (.insertWorkflowStatus appName i) = some t') :
    Keeps t t' (.insertWorkflowStatus appName i) := by
  obtain ⟨hi, rfl⟩ := insertWorkflowStatus_cases h
  unfold Table.upsert
  split_ifs
  · exact .update rfl (fun r _ hr => hr.congr rfl rfl rfl rfl rfl rfl) fun r _ _ => .refl r
  · refine .insert rfl (fun r hr => ?_) fun r hr => ?_
    · rw [Table.rows_insert]
      split_ifs
      · exact List.mem_append_left _ hr
      · exact hr
    · obtain hr | rfl := Table.mem_of_mem_insert hr
      · exact .inl hr
      · exact .inr (.row appName hi)

theorem keeps_forkWorkflows {appName : String} {i : ForkWorkflowsInput} {now : Int}
    (h : step t (.forkWorkflows appName i now) = some t') :
    Keeps t t' (.forkWorkflows appName i now) := by
  obtain ⟨hold, hnew⟩ := forkWorkflows_cases h
  refine .insert rfl hold fun r hr => (hnew r hr).imp_right ?_
  rintro ⟨original, forkedID, rfl⟩
  exact .forkRow i appName now original forkedID

theorem keeps_garbageCollectWorkflows {appName : String} {i : GarbageCollectInput}
    (h : step t (.garbageCollectWorkflows appName i) = some t') :
    Keeps t t' (.garbageCollectWorkflows appName i) := by
  obtain ⟨p, rfl, hcompleted⟩ := garbageCollectWorkflows_cases h
  exact .delete rfl fun _ _ _ => hcompleted

/-- Every operation keeps the invariant and the outcomes. -/
theorem keeps_step (h : step t op = some t') : Keeps t t' op := by
  cases op with
  | insertWorkflowStatus appName i => exact keeps_insertWorkflowStatus h
  | forkWorkflows appName i now => exact keeps_forkWorkflows h
  | dequeueWorkflows c ids now =>
    cases h
    refine .move rfl (fun r hr => ?_) fun r hr hinv => hinv.claim ?_ c now
    all_goals simp_all
  | suspendWorkflowToDelayed id delayUntil now =>
    cases h
    refine .move rfl (fun r hr => ?_) fun r hr hinv => hinv.suspendToDelayed ?_ delayUntil now
    all_goals simp_all
  | transitionDelayedWorkflows appName now =>
    cases h
    refine .move rfl (fun r hr => ?_) fun r hr hinv => hinv.promote ?_ now
    all_goals simp_all [WorkflowRow.delayExpired]
  | debounceDelayedWorkflow appName i now =>
    cases h
    refine .move rfl (fun r hr => ?_) fun r hr hinv => hinv.redelay ?_ rfl rfl rfl rfl ?_
    · simp_all [debounceable]
    · simp_all [debounceable]
    · unfold WorkflowRow.debounce
      split <;> rfl
  | setWorkflowDelay id delayUntil now =>
    cases h
    refine .move rfl (fun r hr => ?_) fun r hr hinv => hinv.redelay ?_ rfl rfl rfl rfl rfl
    all_goals simp_all
  | wake ids now =>
    cases h
    refine .move rfl (fun r hr => ?_) fun r hr hinv => hinv.redelay ?_ rfl rfl rfl rfl rfl
    all_goals simp_all
  | updateWorkflowOutcome id failed output error now =>
    cases h
    refine .move rfl (fun r hr => ?_) fun r hr hinv => .of_settled ?_ rfl rfl
    · simp_all
    · cases failed
      · exact .inl rfl
      · exact .inr rfl
  | cancelWorkflows ids now =>
    cases h
    refine .move rfl (fun r hr => ?_) fun r hr hinv => .of_withdrawn (.inl rfl) rfl rfl rfl rfl
    simp_all [WorkflowRow.cancellable]
  | deadLetterWorkflows ids minAttempts now =>
    cases h
    refine .move rfl (fun r hr => ?_) fun r hr hinv => .of_withdrawn (.inr rfl) rfl rfl rfl rfl
    simp_all [Db.deadLetterable]
  | reenqueueForRecovery appName executorIDs appVersion now =>
    cases h
    refine .move rfl (fun r hr => ?_) fun r hr hinv => hinv.reenqueue ?_ now
    all_goals simp_all [recoverable]
  | resumeWorkflows ids queueName now =>
    cases h
    refine .move rfl (fun r hr => ?_) fun r hr hinv => .resume queueName now r
    simp_all [WorkflowRow.resumable]
  | renameApplication oldName newName adoptUnclaimedRows =>
    cases h
    exact .update rfl (fun r _ hr => hr.congr rfl rfl rfl rfl rfl rfl) fun r _ _ => .refl r
  | deleteWorkflows ids =>
    cases h
    exact .delete rfl fun _ _ hop => by cases hop
  | garbageCollectWorkflows appName i => exact keeps_garbageCollectWorkflows h

/-! ### Runs -/

theorem inv_of_reaches (h : Reaches system (fun _ _ => True) t) :
    ∀ r ∈ t.rows, RowInv r :=
  h.invariant (I := fun t => ∀ r ∈ t.rows, RowInv r)
    (fun t ht => by
      obtain rfl : t = .empty := ht
      simp [Table.empty])
    fun _ _ _ ht _ hstep => (keeps_step hstep).inv ht

/-- The row `r` has its outcome before the step, which removes it. -/
def Removed (r : WorkflowRow) (x : Transition StatusTable Operation) : Prop :=
  Kept r x.pre ∧ x.act.removes = true ∧ ∀ r' ∈ x.post.rows, r'.workflowID ≠ r.workflowID

theorem SameOutcome.trans {r r' r'' : WorkflowRow} (h : SameOutcome r r')
    (h' : SameOutcome r' r'') : SameOutcome r r'' :=
  ⟨h'.1.trans h.1, h'.2.1.trans h.2.1, h'.2.2.1.trans h.2.2.1, h'.2.2.2.trans h.2.2.2⟩

theorem SameOutcome.settled {r r' : WorkflowRow} (h : SameOutcome r r') (hr : Settled r) :
    Settled r' :=
  hr.imp h.1.trans h.1.trans

/-- A settled row keeps its outcome, until a step removes it. -/
theorem kept_of_run {r : WorkflowRow} {tr : List (Transition StatusTable Operation)}
    (h : Run system t tr t') (hr : r ∈ t.rows) (hst : Settled r) :
    Kept r t' ∨ ∃ x ∈ tr, Removed r x := by
  induction h with
  | nil => exact .inl ⟨r, hr, rfl, .refl r⟩
  | @snoc tr u v op _ hstep ih =>
    rcases ih with hkept | ⟨x, hx, hremoved⟩
    · obtain ⟨r', hr', hid, hsame⟩ := hkept
      rcases (keeps_step hstep).settled r' hr' (hsame.settled hst) with
        ⟨r'', hr'', hid', hsame'⟩ | ⟨hop, hgone⟩
      · exact .inl ⟨r'', hr'', hid'.trans hid, hsame.trans hsame'⟩
      · refine .inr ⟨⟨u, op, v⟩, by simp, ⟨r', hr', hid, hsame⟩, hop, ?_⟩
        rwa [← hid]
    · exact .inr ⟨x, List.mem_append_left _ hx, hremoved⟩

/-- **The invariant of a status row.** Whatever operations are applied to the empty table, in any
order: every row meets `RowInv`; a row with an outcome keeps it until a deletion or a collection
removes the row; and a collection removes only rows in a terminal status. -/
theorem row_invariant {t : StatusTable} {tr : List (Transition StatusTable Operation)}
    (h : Run system .empty tr t) :
    (∀ r ∈ t.rows, RowInv r) ∧
    (∀ r ∈ t.rows, Settled r → ∀ tr' t', Run system t tr' t' → Kept r t' ∨ ∃ x ∈ tr', Removed r x) ∧
    (∀ x ∈ tr, ∀ appName i, x.act = .garbageCollectWorkflows appName i →
      ∀ r ∈ x.pre.rows, r ∉ x.post.rows → r.status.isTerminal = true) := by
  refine ⟨inv_of_reaches ⟨_, tr, rfl, h, fun _ _ => trivial⟩, ?_, ?_⟩
  · exact fun r hr hst tr' t' h' => kept_of_run h' hr hst
  · intro x hx appName i hgc r hr hgone
    obtain ⟨hpre, hstep⟩ := h.transition_of_mem rfl hx
    have hcompleted := (keeps_step hstep).collected appName i hgc r hr hgone
    rwa [(inv_of_reaches hpre r hr).completed] at hcompleted

/-- A workflow that runs on a queue, suspends itself, is woken, succeeds and is collected. -/
def sampleRun : List Operation :=
  [.insertWorkflowStatus "app" { workflowID := "w", status := .enqueued, name := "f", queueName := "q" },
   .dequeueWorkflows ⟨"e", "v", "app", false⟩ ["w"] 1, .suspendWorkflowToDelayed "w" 9 2, .wake ["w"] 3,
   .transitionDelayedWorkflows "app" 4, .dequeueWorkflows ⟨"e", "v", "app", false⟩ ["w"] 5,
   .updateWorkflowOutcome "w" false (some "42") none 6,
   .garbageCollectWorkflows "app" ⟨some 9, none, none⟩]

theorem row_invariant_sampleRun :
    ∃ t tr, Run system .empty tr t ∧ tr.length = 8 ∧ ∀ r ∈ t.rows, RowInv r := by
  obtain ⟨t, ht⟩ := Option.isSome_iff_exists.1
    (show (exec system .empty sampleRun).isSome = true by decide +kernel)
  have hrun := run_exec ht
  exact ⟨t, _, hrun, by decide +kernel, (row_invariant hrun).1⟩

end Dbos.Lifecycle
