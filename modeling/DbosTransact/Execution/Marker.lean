import DbosTransact.Execution.Start

/-!
# The executor of a row

A workflow is `PENDING` and runs on one executor. Others call `RunWorkflow` with its ID and are given
polling handles, while the run records its steps, after which `refreshExecutorID` makes its executor that
of the row. The `ON CONFLICT` clause of a direct call writes the caller into `executor_id`, so that until
the next checkpoint recovery goes by the wrong executor.
-/

namespace Dbos.Marker

open Relational ReadCommitted Lts Start

/-- A call of `RunWorkflow`, directly or for a queue. -/
structure Call extends Start.Call where
  queueName : String := ""
  delayUntil : Option Int := none
  deriving DecidableEq, Repr

/-- The status that `RunWorkflow` stores. -/
def Call.status (c : Call) : Status :=
  if c.queueName = "" then .pending else if c.delayUntil.isSome then .delayed else .enqueued

def Call.row (workflowID : String) (now : Int) (c : Call) : WorkflowRow :=
  InsertWorkflowStatusInput.row c.applicationName
    { c.toCall.insertInput workflowID now with
      status := c.status, queueName := c.queueName, delayUntil := c.delayUntil }

/-- The workflow, the executor that it runs on, and the calls of the others. -/
structure Config (n : ℕ) where
  workflowID : String
  executorID : String
  calls : Fin n → Call

/-- The parties: the calls, the transactions in which steps are recorded, and the statements outside
transactions. -/
inductive Party (n : ℕ)
  | call (i : Fin n)
  | checkpoint (k : ℕ)
  | statement
  deriving DecidableEq, Repr

inductive MarkerWrite (n : ℕ)
  /-- the upsert of `InsertWorkflowStatus` -/
  | upsert (i : Fin n) (now : Int)
  | refreshExecutorID
  deriving DecidableEq, Repr

def refreshExecutorID (t : StatusTable) (workflowID executorID : String) : StatusTable :=
  if executorID = "" then t
  else t.update (fun r => r.workflowID = workflowID && r.executorID ≠ some executorID)
    (fun r => { r with executorID := some executorID }) fun _ => rfl

section Model

variable {n : ℕ} (cfg : Config n)

def markerSchema : Schema StatusTable (MarkerWrite n) String where
  apply
    | .upsert i now, t =>
      let row := (cfg.calls i).row cfg.workflowID now
      t.upsert (·.reinsert row) (WorkflowRow.workflowID_reinsert row) row
    | .refreshExecutorID, t => Marker.refreshExecutorID t cfg.workflowID cfg.executorID
  rows _ := [cfg.workflowID]

/-- The `WHERE` of `refreshExecutorID` selects the row. -/
def stale (t : StatusTable) : Bool :=
  (t.find? cfg.workflowID).any fun r => r.executorID ≠ some cfg.executorID

structure State (n : ℕ) where
  store : Store StatusTable (Party n) (MarkerWrite n)
  phases : Fin n → Phase

namespace State

variable (s : State n)

def goto (i : Fin n) (p : Phase) : State n := { s with phases := Function.update s.phases i p }

def write (i : Fin n) (w : MarkerWrite n) (p : Phase) : State n :=
  { s.goto i p with store := s.store.write (.call i) w }

def commit (i : Fin n) (p : Phase) : State n :=
  { s.goto i p with store := s.store.commit (markerSchema cfg) (.call i) }

def rollback (i : Fin n) (p : Phase) : State n :=
  { s.goto i p with store := s.store.rollback (.call i) }

def row? : Option WorkflowRow := s.store.committed.find? cfg.workflowID

end State

/-- The next statement or local step; `loaded` is what the map of active workflows says. -/
inductive Action (n : ℕ)
  | insert (i : Fin n) (now : Int)
  | load (i : Fin n) (loaded : Bool)
  | commit (i : Fin n)
  | commitUnacknowledged (i : Fin n)
  | abort (i : Fin n)
  | crash (i : Fin n)
  /-- the statement after a checkpoint outside a transaction -/
  | refresh
  /-- the statement after a checkpoint in a transaction -/
  | refreshIn (k : ℕ)
  | commitCheckpoint (k : ℕ)
  | rollbackCheckpoint (k : ℕ)
  deriving DecidableEq, Repr

def step (s : State n) : Action n → Option (State n)
  | .insert i now =>
    match s.phases i with
    | .attempting =>
      if s.store.Free (markerSchema cfg) (.call i) [cfg.workflowID] then
        let row := (cfg.calls i).row cfg.workflowID now
        match s.store.committed.toDb.insertWorkflowStatus row with
        | .error err =>
          -- the upsert is rolled back
          if retried (insertError cfg.workflowID err) then some s
          else some (s.goto i (.returned (.error (insertError cfg.workflowID err))))
        | .ok _ => some (s.write i (.upsert i now) (.inserted (.ofRow (offered row (s.row? cfg)))))
      else none
    | _ => none
  | .load i loaded =>
    match s.phases i with
    | .inserted result =>
      let c := cfg.calls i
      some (s.goto i (.decided (shouldSkip c.queueName result c.ownerXID loaded) result))
    | _ => none
  | .commit i =>
    match s.phases i with
    -- a call that obtains the ownership is none of those considered
    | .decided true _ => some (s.commit cfg i (.returned (.ok cfg.workflowID)))
    | _ => none
  | .commitUnacknowledged i =>
    match s.phases i with
    | .decided true _ => some (s.commit cfg i .attempting)
    | _ => none
  | .abort i =>
    match s.phases i with
    | .attempting | .inserted _ | .decided _ _ => some (s.rollback i .attempting)
    | _ => none
  | .crash i =>
    match s.phases i with
    | .attempting | .inserted _ | .decided _ _ => some (s.rollback i .crashed)
    | _ => none
  | .refresh =>
    -- a statement that selects nothing waits for nothing
    if stale cfg s.store.committed then
      if s.store.Free (markerSchema cfg) .statement [cfg.workflowID] then
        some { s with store := s.store.autocommit (markerSchema cfg) .refreshExecutorID }
      else none
    else some s
  | .refreshIn k =>
    if stale cfg (s.store.view (markerSchema cfg) (.checkpoint k)) then
      if s.store.Free (markerSchema cfg) (.checkpoint k) [cfg.workflowID] then
        some { s with store := s.store.write (.checkpoint k) .refreshExecutorID }
      else none
    else some s
  | .commitCheckpoint k => some { s with store := s.store.commit (markerSchema cfg) (.checkpoint k) }
  | .rollbackCheckpoint k => some { s with store := s.store.rollback (.checkpoint k) }

/-- At first nobody has written, and the workflow is `PENDING` on its executor. -/
def Init (s : State n) : Prop :=
  s.store.pending = [] ∧ (∀ i, s.phases i = .attempting) ∧
    ∃ r, s.row? cfg = some r ∧ r.status = .pending ∧ r.executorID = some cfg.executorID

def system : System (State n) (Action n) where
  init := Init cfg
  step := step cfg

end Model

variable {n : ℕ} {cfg : Config n} {s t : State n}

/-! ### What recovery makes of the row -/

/-- The row names the executor of the run, and recovery finds it there and only there. -/
structure NamesExecutor (cfg : Config n) (s : State n) : Prop where
  marker : ∃ r, s.row? cfg = some r ∧ r.executorID = some cfg.executorID
  others : ∀ appName executorIDs appVersion now, cfg.executorID ∉ executorIDs →
    (s.store.committed.reenqueueForRecovery appName executorIDs appVersion now).find? cfg.workflowID =
      s.row? cfg
  recovered : ∀ r, s.row? cfg = some r → ∀ appName executorIDs appVersion now,
    cfg.executorID ∈ executorIDs → appVersion = "" ∨ r.applicationVersion = some appVersion →
    r.ownedBy appName = true →
    (s.store.committed.reenqueueForRecovery appName executorIDs appVersion now).find? cfg.workflowID =
      some (r.reenqueue internalQueueName now)

/-- The workflow is `PENDING`. -/
def IsPending (cfg : Config n) (u : StatusTable) : Prop :=
  ∃ r, u.find? cfg.workflowID = some r ∧ r.status = .pending

def Marked (cfg : Config n) (u : StatusTable) : Prop :=
  ∃ r, u.find? cfg.workflowID = some r ∧ r.executorID = some cfg.executorID

theorem namesExecutor_iff (hpending : IsPending cfg s.store.committed) :
    NamesExecutor cfg s ↔ Marked cfg s.store.committed := by
  refine ⟨fun h => h.marker, fun h => ⟨h, ?_, ?_⟩⟩
  · intro appName executorIDs appVersion now hother
    obtain ⟨r, hr, hmarker⟩ := h
    have hnot : StatusTable.recoverable appName executorIDs appVersion r = false := by
      simp [StatusTable.recoverable, hmarker, hother]
    rw [StatusTable.reenqueueForRecovery, Table.find?_update, hr, State.row?, hr, Option.map_some, hnot]
    rfl
  · intro r hr appName executorIDs appVersion now hmem hversion howned
    obtain ⟨r₁, hr₁, hmarker⟩ := h
    obtain ⟨r₂, hr₂, hstatus⟩ := hpending
    obtain rfl : r = r₁ := Option.some.inj (hr.symm.trans hr₁)
    obtain rfl : r = r₂ := Option.some.inj (hr.symm.trans hr₂)
    have hrecoverable : StatusTable.recoverable appName executorIDs appVersion r = true := by
      simp [StatusTable.recoverable, hmarker, hmem, hstatus, hversion, howned]
    rw [StatusTable.reenqueueForRecovery, Table.find?_update, hr₁, Option.map_some, if_pos hrecoverable]

/-! ### What the writes do to the row -/

def MarkerWrite.onRow (cfg : Config n) (r : WorkflowRow) : MarkerWrite n → WorkflowRow
  | .upsert i now => r.reinsert ((cfg.calls i).row cfg.workflowID now)
  | .refreshExecutorID => { r with
      executorID := if cfg.executorID = "" then r.executorID else some cfg.executorID }

theorem find?_apply {u : StatusTable} {r : WorkflowRow} (hr : u.find? cfg.workflowID = some r)
    (w : MarkerWrite n) :
    ((markerSchema cfg).apply w u).find? cfg.workflowID = some (w.onRow cfg r) := by
  have hid : r.workflowID = cfg.workflowID := Table.key_of_find? hr
  cases w with
  | upsert i now =>
    show (Table.upsert u _ _ _).find? cfg.workflowID = _
    have hkey : ((cfg.calls i).row cfg.workflowID now).workflowID = cfg.workflowID := rfl
    rw [Table.find?_upsert, if_pos hkey, hr]
    rfl
  | refreshExecutorID =>
    show (refreshExecutorID u cfg.workflowID cfg.executorID).find? cfg.workflowID = _
    by_cases hempty : cfg.executorID = ""
    · rw [Marker.refreshExecutorID, if_pos hempty, hr, MarkerWrite.onRow, if_pos hempty]
    · rw [Marker.refreshExecutorID, if_neg hempty, Table.find?_update, hr, MarkerWrite.onRow,
        if_neg hempty, Option.map_some]
      by_cases hsame : r.executorID = some cfg.executorID
      · rw [if_neg (by simp [hsame]), ← hsame]
      · rw [if_pos (by simp [hid, hsame])]

theorem IsPending.apply {u : StatusTable} (h : IsPending cfg u) (w : MarkerWrite n) :
    IsPending cfg ((markerSchema cfg).apply w u) := by
  obtain ⟨r, hr, hstatus⟩ := h
  refine ⟨_, find?_apply hr w, ?_⟩
  cases w <;> exact hstatus

theorem IsPending.view (h : IsPending cfg s.store.committed) (p : Party n) :
    IsPending cfg (s.store.view (markerSchema cfg) p) :=
  Store.view_induction (fun w _ _ hd => hd.apply w) h

theorem Marked.refresh {u : StatusTable} (h : Marked cfg u) :
    Marked cfg ((markerSchema cfg).apply .refreshExecutorID u) := by
  obtain ⟨r, hr, hmarker⟩ := h
  refine ⟨_, find?_apply hr _, ?_⟩
  show (if cfg.executorID = "" then r.executorID else some cfg.executorID) = _
  split_ifs
  · exact hmarker
  · rfl

theorem marked_upsert_iff {u : StatusTable} {i : Fin n} {now : Int} (h : Marked cfg u)
    (hother : (cfg.calls i).executorID ≠ cfg.executorID) :
    Marked cfg ((markerSchema cfg).apply (.upsert i now) u) ↔ (cfg.calls i).queueName ≠ "" := by
  obtain ⟨r, hr, hmarker⟩ := h
  have hrow := find?_apply hr (.upsert i now)
  have hqueued : ((cfg.calls i).status = .enqueued ∨ (cfg.calls i).status = .delayed) ↔
      (cfg.calls i).queueName ≠ "" := by
    unfold Call.status
    split_ifs <;> simp_all
  have hexecutor : ((MarkerWrite.upsert i now).onRow cfg r).executorID =
      if (cfg.calls i).status = .enqueued ∨ (cfg.calls i).status = .delayed then r.executorID
      else some (cfg.calls i).executorID := rfl
  rw [← hqueued]
  constructor
  · rintro ⟨r', hr', hmarker'⟩
    obtain rfl := Option.some.inj (hrow.symm.trans hr')
    rw [hexecutor] at hmarker'
    by_contra hdirect
    rw [if_neg hdirect] at hmarker'
    exact hother (Option.some.inj hmarker')
  · intro hq
    exact ⟨_, hrow, by rw [hexecutor, if_pos hq, hmarker]⟩

/-! ### The invariant -/

def Wrote (s : State n) (i : Fin n) : Phase → Prop
  | .inserted _ | .decided _ _ => ∃ now, s.store.own (.call i) = [.upsert i now]
  | _ => s.store.own (.call i) = []

structure Inv (cfg : Config n) (s : State n) : Prop where
  pending : IsPending cfg s.store.committed
  calls : ∀ i, Wrote s i (s.phases i)
  checkpoints : ∀ k, ∀ w ∈ s.store.own (.checkpoint k), w = .refreshExecutorID

theorem inv_of_init (h : Init cfg s) : Inv cfg s := by
  obtain ⟨hpending, hphases, r, hr, hstatus, -⟩ := h
  have hown : ∀ p, s.store.own p = [] := by simp [Store.own, hpending]
  refine ⟨⟨r, hr, hstatus⟩, fun i => ?_, fun k w hw => ?_⟩
  · rw [hphases i]
    exact hown _
  · rw [hown] at hw
    cases hw

theorem Wrote.congr {i : Fin n} {p : Phase} (h : Wrote s i p)
    (hown : t.store.own (.call i) = s.store.own (.call i)) : Wrote t i p := by
  cases p with
  | inserted | decided => simpa only [Wrote, hown] using h
  | attempting | executing | returned | crashed => exact hown.trans h

theorem Inv.ofCall (h : Inv cfg s) {i : Fin n} {p : Phase}
    (hpending : IsPending cfg t.store.committed) (hphases : t.phases = Function.update s.phases i p)
    (hwrote : Wrote t i p) (hothers : ∀ q, q ≠ .call i → t.store.own q = s.store.own q) :
    Inv cfg t := by
  refine ⟨hpending, ?_, fun k w hw => ?_⟩
  · rw [hphases]
    exact (Function.forall_update_iff s.phases (Wrote t)).2
      ⟨hwrote, fun j hj => (h.calls j).congr (hothers _ (by simpa using hj))⟩
  · rw [hothers _ (by simp)] at hw
    exact h.checkpoints k w hw

theorem Inv.ofCheckpoint (h : Inv cfg s) (hpending : IsPending cfg t.store.committed)
    (hphases : t.phases = s.phases) (hcalls : ∀ i, t.store.own (.call i) = s.store.own (.call i))
    (hcheckpoints : ∀ k, ∀ w ∈ t.store.own (.checkpoint k),
      w ∈ s.store.own (.checkpoint k) ∨ w = .refreshExecutorID) : Inv cfg t :=
  ⟨hpending, fun i => hphases ▸ (h.calls i).congr (hcalls i),
    fun k w hw => (hcheckpoints k w hw).elim (h.checkpoints k w) id⟩

inductive Moves (cfg : Config n) (s : State n) : Option (Fin n) → State n → Prop
  | stays : Moves cfg s none s
  | goes {i : Fin n} {p : Phase} (h : Wrote s i (s.phases i) → Wrote s i p) : Moves cfg s none (s.goto i p)
  | inserts {i : Fin n} {now : Int} {result : InsertWorkflowResult} (h : s.phases i = .attempting) :
      Moves cfg s none (s.write i (.upsert i now) (.inserted result))
  | commits {i : Fin n} {result : InsertWorkflowResult} {p : Phase} (h : s.phases i = .decided true result)
      (hp : ∀ u : State n, u.store.own (.call i) = [] → Wrote u i p) :
      Moves cfg s (some i) (s.commit cfg i p)
  | rollsBack {i : Fin n} {p : Phase} (hp : ∀ u : State n, u.store.own (.call i) = [] → Wrote u i p) :
      Moves cfg s none (s.rollback i p)
  | refreshes :
      Moves cfg s none { s with store := s.store.autocommit (markerSchema cfg) .refreshExecutorID }
  | refreshesIn (k : ℕ) :
      Moves cfg s none { s with store := s.store.write (.checkpoint k) .refreshExecutorID }
  | commitsCheckpoint (k : ℕ) :
      Moves cfg s none { s with store := s.store.commit (markerSchema cfg) (.checkpoint k) }
  | rollsBackCheckpoint (k : ℕ) :
      Moves cfg s none { s with store := s.store.rollback (.checkpoint k) }

def Action.commits? : Action n → Option (Fin n)
  | .commit i | .commitUnacknowledged i => some i
  | _ => none

theorem moves_step {a : Action n} (hstep : step cfg s a = some t) : Moves cfg s a.commits? t := by
  cases a with
  | insert i now =>
    simp only [step] at hstep
    split at hstep
    next hphase =>
      split_ifs at hstep
      split at hstep
      next =>
        split_ifs at hstep
        · cases hstep
          exact .stays
        · cases hstep
          exact .goes fun h => by rwa [hphase] at h
      next =>
        cases hstep
        exact .inserts hphase
    next => cases hstep
  | load i loaded =>
    simp only [step] at hstep
    split at hstep
    next result hphase =>
      cases hstep
      exact .goes fun h => by rwa [hphase] at h
    next => cases hstep
  | commit i | commitUnacknowledged i =>
    simp only [step] at hstep
    split at hstep
    next result hphase =>
      cases hstep
      exact .commits hphase fun _ h => h
    next => cases hstep
  | abort i | crash i =>
    simp only [step] at hstep
    split at hstep
    case h_4 => cases hstep
    all_goals
      cases hstep
      exact .rollsBack fun _ h => h
  | refresh =>
    simp only [step] at hstep
    split_ifs at hstep
    · cases hstep
      exact .refreshes
    · cases hstep
      exact .stays
  | refreshIn k =>
    simp only [step] at hstep
    split_ifs at hstep
    · cases hstep
      exact .refreshesIn k
    · cases hstep
      exact .stays
  | commitCheckpoint k =>
    cases hstep
    exact .commitsCheckpoint k
  | rollbackCheckpoint k =>
    cases hstep
    exact .rollsBackCheckpoint k

theorem Moves.inv {c : Option (Fin n)} (h : Inv cfg s) (hmoves : Moves cfg s c t) : Inv cfg t := by
  cases hmoves with
  | stays => exact h
  | @goes i p hp => exact h.ofCall h.pending rfl (hp (h.calls i)) fun _ _ => rfl
  | @inserts i now result hphase =>
    have hnone : s.store.own (.call i) = [] := by simpa only [hphase, Wrote] using h.calls i
    refine h.ofCall h.pending rfl ⟨now, ?_⟩ fun q hq => Store.own_write_of_ne _ _ (Ne.symm hq)
    exact (Store.own_write_self _ _ _).trans (by rw [hnone]; rfl)
  | commits _ hp =>
    exact h.ofCall (h.pending.view _) rfl (hp _ (Store.own_commit_self _ _ _))
      fun q hq => Store.own_commit_of_ne _ _ (Ne.symm hq)
  | rollsBack hp =>
    exact h.ofCall h.pending rfl (hp _ (Store.own_rollback_self _ _))
      fun q hq => Store.own_rollback_of_ne _ (Ne.symm hq)
  | refreshes =>
    exact h.ofCheckpoint (h.pending.apply .refreshExecutorID) rfl (fun _ => rfl) fun _ _ hw => .inl hw
  | refreshesIn k =>
    refine h.ofCheckpoint h.pending rfl (fun i => Store.own_write_of_ne _ _ (by simp)) ?_
    intro k' w hw
    by_cases hk : k = k'
    · subst hk
      rw [Store.own_write_self, List.mem_append, List.mem_singleton] at hw
      exact hw
    · exact .inl (by rwa [Store.own_write_of_ne _ _ (by simpa using hk)] at hw)
  | commitsCheckpoint k =>
    refine h.ofCheckpoint (h.pending.view _) rfl (fun i => Store.own_commit_of_ne _ _ (by simp)) ?_
    intro k' w hw
    by_cases hk : k = k'
    · subst hk
      simp at hw
    · exact .inl (by rwa [Store.own_commit_of_ne _ _ (by simpa using hk)] at hw)
  | rollsBackCheckpoint k =>
    refine h.ofCheckpoint h.pending rfl (fun i => Store.own_rollback_of_ne _ (by simp)) ?_
    intro k' w hw
    by_cases hk : k = k'
    · subst hk
      simp at hw
    · exact .inl (by rwa [Store.own_rollback_of_ne _ (by simpa using hk)] at hw)

/-! ### The marker -/

/-- **The condition.** Only calls for a queue are committed. -/
def Queued (cfg : Config n) : Action n → Prop
  | .commit i | .commitUnacknowledged i => (cfg.calls i).queueName ≠ ""
  | _ => True

def ByOthers (cfg : Config n) : Prop := ∀ i, (cfg.calls i).executorID ≠ cfg.executorID

theorem marked_commit_iff (hothers : ByOthers cfg) (h : Inv cfg s) (hmarked : Marked cfg s.store.committed)
    {i : Fin n} {skip : Bool} {result : InsertWorkflowResult} (hphase : s.phases i = .decided skip result) :
    Marked cfg (s.store.view (markerSchema cfg) (.call i)) ↔ (cfg.calls i).queueName ≠ "" := by
  have hwrote := h.calls i
  rw [hphase] at hwrote
  obtain ⟨now, hown⟩ := hwrote
  rw [Store.view, hown]
  exact marked_upsert_iff hmarked (hothers i)

theorem queued_iff {a : Action n} :
    Queued cfg a ↔ ∀ i, a.commits? = some i → (cfg.calls i).queueName ≠ "" := by
  cases a with
  | commit i | commitUnacknowledged i => simp [Queued, Action.commits?]
  | insert | load | abort | crash | refresh | refreshIn | commitCheckpoint | rollbackCheckpoint =>
    simp [Queued, Action.commits?]

/-- A step keeps the marker precisely if the call that commits in it was for a queue. -/
theorem Moves.marked_iff (hothers : ByOthers cfg) (h : Inv cfg s) (hmarked : Marked cfg s.store.committed)
    {c : Option (Fin n)} (hmoves : Moves cfg s c t) :
    Marked cfg t.store.committed ↔ ∀ i, c = some i → (cfg.calls i).queueName ≠ "" := by
  cases hmoves with
  | stays | goes | inserts | rollsBack | refreshesIn | rollsBackCheckpoint =>
    exact iff_of_true hmarked (by simp)
  | commits hphase _ => exact (marked_commit_iff hothers h hmarked hphase).trans (by simp)
  | refreshes => exact iff_of_true hmarked.refresh (by simp)
  | commitsCheckpoint k =>
    refine iff_of_true (Store.view_induction (fun w hw d hd => ?_) hmarked) (by simp)
    rw [h.checkpoints k w hw]
    exact hd.refresh

/-- **The executor of the row.** In every run of the calls of other executors and the checkpoints of the
run, the row names the executor of the run in every state, and recovery goes by it, precisely if every
call that was committed was for a queue. -/
theorem namesExecutor_of_queued (hothers : ByOthers cfg) {tr : List (Transition (State n) (Action n))}
    (hs : Init cfg s) (h : Run (system cfg) s tr t) :
    NamesExecutor cfg s ∧
      ((∀ x ∈ tr, NamesExecutor cfg x.post) ↔ ∀ x ∈ tr, Queued cfg x.act) := by
  have hfirst : ∀ s, Init cfg s → Inv cfg s ∧ NamesExecutor cfg s := by
    intro s hs
    have hinv := inv_of_init hs
    obtain ⟨-, -, r, hr, -, hmarker⟩ := hs
    exact ⟨hinv, (namesExecutor_iff hinv.pending).2 ⟨r, hr, hmarker⟩⟩
  refine ⟨(hfirst s hs).2, Run.forall_post_iff (C := fun _ a => Queued cfg a) hfirst
    (fun _ _ _ hinv hstep => (moves_step hstep).inv hinv) ?_ hs h⟩
  intro s a t hinv hnames hstep
  have hmoves := moves_step hstep
  have hmarked : Marked cfg s.store.committed := (namesExecutor_iff hinv.pending).1 hnames
  rw [namesExecutor_iff (hmoves.inv hinv).pending, queued_iff]
  exact hmoves.marked_iff hothers hinv hmarked

/-! ### A direct call -/

/-- The workflow runs on `first`; `second` calls it, for a queue or directly. -/
def secondCalls (queueName : String) : Config 1 where
  workflowID := "w"
  executorID := "first"
  calls _ := { name := "f", ownerXID := "y", executorID := "second", queueName := queueName }

def runningRow : WorkflowRow where
  workflowID := "w"
  status := .pending
  name := "f"
  executorID := some "first"
  ownerXID := some "x"
  recoveryAttempts := 1

def running : State 1 where
  store := ⟨.insert .empty runningRow, []⟩
  phases _ := .attempting

theorem init_running (queueName : String) : Init (secondCalls queueName) running :=
  ⟨rfl, fun _ => rfl, runningRow, rfl, rfl, rfl⟩

def wholeCall (i : Fin 1) : List (Action 1) := [.insert i 0, .load i false, .commit i]

/-- The status of the workflow after the recovery of an executor. -/
def recoveredStatus (executorID : String) (s : State 1) : Option Status :=
  ((s.store.committed.reenqueueForRecovery "" [executorID] "" 0).find? "w").map (·.status)

def polling (i : Fin 1) (s : State 1) : Bool :=
  match s.phases i with
  | .returned (.ok id) => id = "w"
  | _ => false

theorem NamesExecutor.recoveredStatus {queueName : String} {s : State 1}
    (h : NamesExecutor (secondCalls queueName) s) : recoveredStatus "first" s = some .enqueued := by
  obtain ⟨r, hr, -⟩ := h.marker
  have hfind := h.recovered r hr "" ["first"] "" 0 List.mem_cons_self (.inl rfl) (by simp [WorkflowRow.ownedBy])
  show (Table.find? _ (secondCalls queueName).workflowID).map _ = _
  rw [hfind]
  rfl

/-- After a direct call, which returns a polling handle, the recovery of the caller re-enqueues the
running workflow, and the recovery of the executor that runs it does not. -/
theorem marker_taken : ∃ s, Reaches (system (secondCalls "")) (fun _ _ => True) s ∧
    polling ⟨0, Nat.one_pos⟩ s = true ∧ recoveredStatus "second" s = some .enqueued ∧
    recoveredStatus "first" s = some .pending ∧ ¬ NamesExecutor (secondCalls "") s := by
  obtain ⟨s, hs, hp⟩ := exists_reaches (S := system (secondCalls "")) (fun _ _ => True) (s := running)
    (wholeCall ⟨0, Nat.one_pos⟩)
    (fun s => polling ⟨0, Nat.one_pos⟩ s && decide (recoveredStatus "second" s = some .enqueued) &&
      decide (recoveredStatus "first" s = some .pending))
    (init_running "") (fun _ _ => trivial) (by decide +kernel)
  simp only [Bool.and_eq_true, decide_eq_true_eq] at hp
  obtain ⟨⟨hpolling, hsecond⟩, hfirst⟩ := hp
  refine ⟨s, hs, hpolling, hsecond, hfirst, fun hnames => ?_⟩
  have hrecovered := hnames.recoveredStatus
  rw [hfirst] at hrecovered
  cases hrecovered

/-- A call for a queue, after which a step is recorded in a transaction. -/
def queuedCall (i : Fin 1) : List (Action 1) := wholeCall i ++ [.refreshIn 0, .commitCheckpoint 0]

theorem namesExecutor_queuedCall : ∃ s, polling ⟨0, Nat.one_pos⟩ s = true ∧
    Run (system (secondCalls "q")) running
      (trace (system (secondCalls "q")) running (queuedCall ⟨0, Nat.one_pos⟩)) s ∧
    NamesExecutor (secondCalls "q") running ∧
    ∀ x ∈ trace (system (secondCalls "q")) running (queuedCall ⟨0, Nat.one_pos⟩),
      NamesExecutor (secondCalls "q") x.post := by
  have hany : (exec (system (secondCalls "q")) running (queuedCall ⟨0, Nat.one_pos⟩)).any
      (polling ⟨0, Nat.one_pos⟩) = true := by decide +kernel
  have hothers : ByOthers (secondCalls "q") := fun _ => show "second" ≠ "first" by decide
  have hqueued : ∀ a, Queued (secondCalls "q") a := by
    intro a
    cases a with
    | commit | commitUnacknowledged => exact (show "q" ≠ "" by decide)
    | insert | load | abort | crash | refresh | refreshIn | commitCheckpoint | rollbackCheckpoint => trivial
  obtain ⟨s, hs, hpolling⟩ := (Option.any_eq_true _ _).1 hany
  obtain ⟨hfirst, hiff⟩ := namesExecutor_of_queued hothers (init_running "q") (run_exec hs)
  exact ⟨s, hpolling, run_exec hs, hfirst, hiff.2 fun x _ => hqueued x.act⟩

end Dbos.Marker
