import DbosTransact.Queue.Dequeue

/-!
# Calls of `DequeueWorkflows`, statement by statement

Any number of calls. A call counts (`count`, which takes the snapshot), reads the latest version
(`version`) and queries for candidates (`select`), in the snapshot or, under READ COMMITTED, in what is
committed. It then comes to one candidate after the other (`lock`): under `SKIP LOCKED` a locked row is
passed over, and one that has changed is tested again; under `NOWAIT` both are errors. The `UPDATE`
(`claim`) and the `commit` follow. In between other operations on `workflow_status` run, versions are
registered, and others take and release locks.
-/

namespace Dbos.Dispatch

open Relational RepeatableRead Lts Queue

/-- A row of `application_versions`. -/
structure VersionRow where
  versionName : String
  versionTimestamp : Int
  applicationName : Option String := none
  deriving DecidableEq, Repr

/-- A call: `DequeueWorkflowsInput`, and the application of the system database. -/
structure Call where
  queue : QueueConfig
  executor : Executor
  input : DequeueInput
  deriving DecidableEq, Repr

namespace Call

variable (c : Call)

def registered (versions : List VersionRow) : List VersionRow :=
  versions.filter fun v => c.executor.appName = "" || v.applicationName = some c.executor.appName ||
    v.applicationName = none

/-- What `GetLatestApplicationVersion` may return; `none` stands for `ErrorCodeNoApplicationVersions`. -/
def ReadsLatest (versions : List VersionRow) : Option VersionRow → Prop
  | none => c.registered versions = []
  | some v => v ∈ c.registered versions ∧ ∀ u ∈ c.registered versions, u.versionTimestamp ≤ v.versionTimestamp

instance (versions : List VersionRow) : DecidablePred (c.ReadsLatest versions)
  | none => inferInstanceAs (Decidable (c.registered versions = []))
  | some _ => inferInstanceAs (Decidable (_ ∧ _))

def isLatestVersion (latest : Option VersionRow) : Bool :=
  latest.all (·.versionName = c.executor.applicationVersion)

/-- `maxTasks`, for the reads of a transaction. -/
def maxTasks (now : Int) (t : StatusTable) : Option (Option Int) := budget c.queue c.executor c.input now t

/-- The `WHERE` of the query for candidates. -/
def Eligible (isLatest : Bool) (r : WorkflowRow) : Bool :=
  eligible c.queue c.executor c.input.queuePartitionKey isLatest r

end Call

/-- A transaction after its counts: what it saw, and what they came to. -/
structure Txn where
  /-- the clock at the rate limiter -/
  reading : Int
  snapshot : Versioned WorkflowRow.workflowID
  versions : List VersionRow
  maxTasks : Option Int

/-- The `LIMIT`. -/
def Txn.limit (x : Txn) : Option ℕ := x.maxTasks.map Int.toNat

/-- The `LIMIT` is reached. -/
def Txn.full (x : Txn) (taken : List WorkflowRow) : Bool := x.limit.any (· ≤ taken.length)

inductive Phase
  | idle
  | counted (x : Txn)
  | versioned (x : Txn) (isLatest : Bool)
  /-- the candidates that are left, and the rows that are locked -/
  | scanning (x : Txn) (isLatest : Bool) (rest taken : List WorkflowRow)
  | claimed (x : Txn) (isLatest : Bool) (taken : List WorkflowRow) (now : Int)
  | returned (ids : List String)
  | failed

def Phase.txn? : Phase → Option Txn
  | .counted x | .versioned x _ | .scanning x _ _ _ | .claimed x _ _ _ => some x
  | .idle | .returned _ | .failed => none

/-- `isLatestVersion`, once it is known. -/
def Phase.isLatest? : Phase → Option Bool
  | .versioned _ isLatest | .scanning _ isLatest _ _ | .claimed _ isLatest _ _ => some isLatest
  | .idle | .counted _ | .returned _ | .failed => none

def Phase.taken : Phase → List WorkflowRow
  | .scanning _ _ _ taken | .claimed _ _ taken _ => taken
  | .idle | .counted _ | .versioned _ _ | .returned _ | .failed => []

def Phase.rest : Phase → List WorkflowRow
  | .scanning _ _ rest _ => rest
  | .idle | .counted _ | .versioned _ _ | .claimed _ _ _ _ | .returned _ | .failed => []

def Phase.over : Phase → Bool
  | .returned _ | .failed => true
  | .idle | .counted _ | .versioned _ _ | .scanning _ _ _ _ | .claimed _ _ _ _ => false

variable {κ : Type*} [DecidableEq κ]

/-- The committed tables, the locked rows and the calls. A row is locked by a call, or by another
transaction, which is `some none`. -/
structure State (κ : Type*) where
  store : Versioned WorkflowRow.workflowID
  versions : List VersionRow
  locks : String → Option (Option κ)
  phase : κ → Phase

namespace State

variable (s : State κ) (k : κ)

def goto (phase : Phase) : State κ := { s with phase := Function.update s.phase k phase }

def unlocked (id : String) : Option (Option κ) := (s.locks id).filter (· ≠ some k)

def finish (phase : Phase) : State κ := { s.goto k phase with locks := s.unlocked k }

def take (id : String) (phase : Phase) : State κ :=
  { s.goto k phase with locks := Function.update s.locks id (some (some k)) }

def LockedByOther (id : String) : Prop := s.locks id ≠ none ∧ s.locks id ≠ some (some k)

instance (id : String) : Decidable (s.LockedByOther k id) := inferInstanceAs (Decidable (_ ∧ _))

end State

inductive Action (κ : Type*)
  | count (k : κ) (now : Int)
  | version (k : κ) (latest : Option VersionRow)
  | select (k : κ) (ordered : List WorkflowRow)
  | lock (k : κ)
  | claim (k : κ) (now : Int)
  | commit (k : κ)
  /-- the commit takes effect and is reported as failed -/
  | commitUnacknowledged (k : κ)
  /-- an error or a crash -/
  | fail (k : κ)
  | environment (op : Lifecycle.Operation)
  /-- versions are registered, or removed -/
  | register (versions : List VersionRow)
  | foreignLock (id : String)
  | foreignUnlock (id : String)

def Action.call? : Action κ → Option κ
  | .count k _ | .version k _ | .select k _ | .lock k | .claim k _ | .commit k | .commitUnacknowledged k
  | .fail k => some k
  | .environment _ | .register _ | .foreignLock _ | .foreignUnlock _ => none

def Action.committer? : Action κ → Option κ
  | .commit k | .commitUnacknowledged k => some k
  | _ => none

/-- The operations beside the calls: rows are enqueued, cancelled, resumed and so on, but not removed. -/
def beside : Lifecycle.Operation → Bool
  | .dequeueWorkflows _ _ _ => false
  | op => !op.removes

section Statements

variable (calls : κ → Call) (s : State κ) (k : κ)

def source (x : Txn) : StatusTable := if (calls k).queue.snapshot then x.snapshot.table else s.store.table

/-- What `GetLatestApplicationVersion` sees. -/
def sourceVersions (x : Txn) : List VersionRow := if (calls k).queue.snapshot then x.versions else s.versions

def lockStep (x : Txn) (isLatest : Bool) (r : WorkflowRow) (rest taken : List WorkflowRow) : State κ :=
  if (calls k).queue.snapshot then
    -- NOWAIT, under REPEATABLE READ
    if s.LockedByOther k r.workflowID ∨ s.store.version r.workflowID ≠ x.snapshot.version r.workflowID then
      s.finish k .failed
    else s.take k r.workflowID (.scanning x isLatest rest (taken ++ [r]))
  else if s.LockedByOther k r.workflowID then s.goto k (.scanning x isLatest rest taken)
  else
    -- SKIP LOCKED, under READ COMMITTED: the row as it is now
    match s.store.table.find? r.workflowID with
    | none => s.goto k (.scanning x isLatest rest taken)
    | some r' =>
      if (calls k).Eligible isLatest r' then
        s.take k r.workflowID (.scanning x isLatest rest (taken ++ [r']))
      else s.goto k (.scanning x isLatest rest taken)

/-- `claimedIDs`. -/
def resultOf (taken : List WorkflowRow) : List String :=
  claimedIDs (calls k).executor s.store.table (taken.map (·.workflowID))

def published (taken : List WorkflowRow) (now : Int) : Versioned WorkflowRow.workflowID :=
  s.store.commit (StatusTable.claim s.store.table (claimOf (calls k).queue (calls k).executor)
    (taken.map (·.workflowID)) (unixMilli now))

end Statements

variable (calls : κ → Call)

def step (s : State κ) : Action κ → Option (State κ)
  | .count k now =>
    match s.phase k with
    | .idle =>
      match (calls k).maxTasks now s.store.table with
      | none => some (s.goto k (.returned []))
      | some maxTasks => some (s.goto k (.counted ⟨now, s.store, s.versions, maxTasks⟩))
    | _ => none
  | .version k latest =>
    match s.phase k with
    | .counted x =>
      if (calls k).ReadsLatest (sourceVersions calls s k x) latest then
        some (s.goto k (.versioned x ((calls k).isLatestVersion latest)))
      else none
    | _ => none
  | .select k ordered =>
    match s.phase k with
    | .versioned x isLatest =>
      if Table.OrderBy dispatchOrder ((source calls s k x).rows.filter ((calls k).Eligible isLatest)) ordered then
        some (s.goto k (.scanning x isLatest ordered []))
      else none
    | _ => none
  | .lock k =>
    match s.phase k with
    | .scanning x isLatest (r :: rest) taken =>
      if x.full taken then none else some (lockStep calls s k x isLatest r rest taken)
    | _ => none
  | .claim k now =>
    match s.phase k with
    | .scanning x isLatest rest taken =>
      if rest = [] ∨ x.full taken then some (s.goto k (.claimed x isLatest taken now)) else none
    | _ => none
  | .commit k =>
    match s.phase k with
    | .claimed _ _ taken now =>
      if resultOf calls s k taken = [] then some (s.finish k (.returned []))
      else some { s.finish k (.returned (resultOf calls s k taken)) with store := published calls s k taken now }
    | _ => none
  | .commitUnacknowledged k =>
    match s.phase k with
    | .claimed _ _ taken now =>
      if resultOf calls s k taken = [] then none
      else some { s.finish k .failed with store := published calls s k taken now }
    | _ => none
  | .fail k =>
    match s.phase k with
    | .idle | .returned _ | .failed => none
    | _ => some (s.finish k .failed)
  | .environment op =>
    if beside op then
      (Lifecycle.step s.store.table op).bind fun t =>
        if ∀ r ∈ s.store.table.rows, (s.locks r.workflowID).join.isSome = true → t.find? r.workflowID = some r then
          some { s with store := s.store.commit t }
        else none
    else none
  | .register versions => some { s with versions := versions }
  | .foreignLock id =>
    if s.locks id = none then some { s with locks := Function.update s.locks id (some none) } else none
  | .foreignUnlock id =>
    if s.locks id = some none then some { s with locks := Function.update s.locks id none } else none

def Initial (s : State κ) : Prop := (∀ k, s.phase k = .idle) ∧ ∀ id k, s.locks id ≠ some (some k)

def system : System (State κ) (Action κ) where
  init := Initial
  step := step calls

/-! ### What one step can do -/

inductive Moves (calls : κ → Call) (s : State κ) : Action κ → State κ → Prop
  | stop (k : κ) (now : Int) : s.phase k = .idle → (calls k).maxTasks now s.store.table = none →
      Moves calls s (.count k now) (s.goto k (.returned []))
  | count (k : κ) (now : Int) (maxTasks : Option Int) : s.phase k = .idle →
      (calls k).maxTasks now s.store.table = some maxTasks →
      Moves calls s (.count k now) (s.goto k (.counted ⟨now, s.store, s.versions, maxTasks⟩))
  | version (k : κ) (latest : Option VersionRow) (x : Txn) : s.phase k = .counted x →
      (calls k).ReadsLatest (sourceVersions calls s k x) latest →
      Moves calls s (.version k latest) (s.goto k (.versioned x ((calls k).isLatestVersion latest)))
  | select (k : κ) (ordered : List WorkflowRow) (x : Txn) (isLatest : Bool) : s.phase k = .versioned x isLatest →
      Table.OrderBy dispatchOrder ((source calls s k x).rows.filter ((calls k).Eligible isLatest)) ordered →
      Moves calls s (.select k ordered) (s.goto k (.scanning x isLatest ordered []))
  | skip (k : κ) (x : Txn) (isLatest : Bool) (r : WorkflowRow) (rest taken : List WorkflowRow) :
      s.phase k = .scanning x isLatest (r :: rest) taken →
      (s.LockedByOther k r.workflowID ∨
        ∀ r' ∈ s.store.table.find? r.workflowID, (calls k).Eligible isLatest r' = false) →
      Moves calls s (.lock k) (s.goto k (.scanning x isLatest rest taken))
  | lockSnapshot (k : κ) (x : Txn) (isLatest : Bool) (r : WorkflowRow) (rest taken : List WorkflowRow) :
      s.phase k = .scanning x isLatest (r :: rest) taken → x.full taken = false →
      ¬ s.LockedByOther k r.workflowID → (calls k).queue.snapshot = true →
      s.store.version r.workflowID = x.snapshot.version r.workflowID →
      Moves calls s (.lock k) (s.take k r.workflowID (.scanning x isLatest rest (taken ++ [r])))
  | lockCommitted (k : κ) (x : Txn) (isLatest : Bool) (r r' : WorkflowRow) (rest taken : List WorkflowRow) :
      s.phase k = .scanning x isLatest (r :: rest) taken → x.full taken = false →
      ¬ s.LockedByOther k r.workflowID → s.store.table.find? r.workflowID = some r' →
      (calls k).Eligible isLatest r' = true →
      Moves calls s (.lock k) (s.take k r.workflowID (.scanning x isLatest rest (taken ++ [r'])))
  | claim (k : κ) (now : Int) (x : Txn) (isLatest : Bool) (rest taken : List WorkflowRow) :
      s.phase k = .scanning x isLatest rest taken → (rest = [] ∨ x.full taken = true) →
      Moves calls s (.claim k now) (s.goto k (.claimed x isLatest taken now))
  | nothing (k : κ) (x : Txn) (isLatest : Bool) (taken : List WorkflowRow) (now : Int) :
      s.phase k = .claimed x isLatest taken now → resultOf calls s k taken = [] →
      Moves calls s (.commit k) (s.finish k (.returned []))
  | commit (a : Action κ) (k : κ) (phase : Phase) (x : Txn) (isLatest : Bool) (taken : List WorkflowRow) (now : Int) :
      s.phase k = .claimed x isLatest taken now → resultOf calls s k taken ≠ [] →
      (a = .commit k ∧ phase = .returned (resultOf calls s k taken) ∨
        a = .commitUnacknowledged k ∧ phase = .failed) →
      Moves calls s a { s.finish k phase with store := published calls s k taken now }
  | fail (a : Action κ) (k : κ) : a.call? = some k → a.committer? = none →
      Moves calls s a (s.finish k .failed)
  | environment (op : Lifecycle.Operation) (t : StatusTable) : beside op = true →
      Lifecycle.step s.store.table op = some t →
      (∀ r ∈ s.store.table.rows, (s.locks r.workflowID).join.isSome = true → t.find? r.workflowID = some r) →
      Moves calls s (.environment op) { s with store := s.store.commit t }
  | register (versions : List VersionRow) : Moves calls s (.register versions) { s with versions := versions }
  | foreignLock (id : String) : s.locks id = none →
      Moves calls s (.foreignLock id) { s with locks := Function.update s.locks id (some none) }
  | foreignUnlock (id : String) : s.locks id = some none →
      Moves calls s (.foreignUnlock id) { s with locks := Function.update s.locks id none }

section Inversion

variable {calls} {s s' : State κ} {a : Action κ}

theorem moves_lockStep {k : κ} {x : Txn} {isLatest : Bool} {r : WorkflowRow} {rest taken : List WorkflowRow}
    (hphase : s.phase k = .scanning x isLatest (r :: rest) taken) (hfull : x.full taken = false) :
    Moves calls s (.lock k) (lockStep calls s k x isLatest r rest taken) := by
  unfold lockStep
  split_ifs with hsnapshot hchanged hlocked
  · exact .fail _ k rfl rfl
  · obtain ⟨hlocked, hversion⟩ := not_or.1 hchanged
    exact .lockSnapshot k x isLatest r rest taken hphase hfull hlocked hsnapshot (not_not.1 hversion)
  · exact .skip k x isLatest r rest taken hphase (.inl hlocked)
  · split
    · next hnone => exact .skip k x isLatest r rest taken hphase (.inr (by simp [hnone]))
    · next r' hr' =>
      split_ifs with heligible
      · exact .lockCommitted k x isLatest r r' rest taken hphase hfull hlocked hr' heligible
      · exact .skip k x isLatest r rest taken hphase (.inr (by simp [hr', heligible]))

/-- **What a step can do.** -/
theorem moves_of_step (h : step calls s a = some s') : Moves calls s a s' := by
  cases a with
  | count k now =>
    simp only [step] at h
    split at h
    · next hphase =>
      split at h
      · next hstop =>
        cases h
        exact .stop k now hphase hstop
      · next maxTasks hmax =>
        cases h
        exact .count k now maxTasks hphase hmax
    · cases h
  | version k latest =>
    simp only [step] at h
    split at h
    · next x hphase =>
      split_ifs at h with hlatest
      cases h
      exact .version k latest x hphase hlatest
    · cases h
  | select k ordered =>
    simp only [step] at h
    split at h
    · next x isLatest hphase =>
      split_ifs at h with horder
      cases h
      exact .select k ordered x isLatest hphase horder
    · cases h
  | lock k =>
    simp only [step] at h
    split at h
    · next x isLatest r rest taken hphase =>
      split_ifs at h with hfull
      cases h
      exact moves_lockStep hphase (Bool.eq_false_iff.2 hfull)
    · cases h
  | claim k now =>
    simp only [step] at h
    split at h
    · next x isLatest rest taken hphase =>
      split_ifs at h with hend
      cases h
      exact .claim k now x isLatest rest taken hphase hend
    · cases h
  | commit k =>
    simp only [step] at h
    split at h
    · next x isLatest taken now hphase =>
      split_ifs at h with hresult
      · cases h
        exact .nothing k x isLatest taken now hphase hresult
      · cases h
        exact .commit _ k _ x isLatest taken now hphase hresult (.inl ⟨rfl, rfl⟩)
    · cases h
  | commitUnacknowledged k =>
    simp only [step] at h
    split at h
    · next x isLatest taken now hphase =>
      split_ifs at h with hresult
      cases h
      exact .commit _ k _ x isLatest taken now hphase hresult (.inr ⟨rfl, rfl⟩)
    · cases h
  | fail k =>
    simp only [step] at h
    split at h
    · cases h
    · cases h
    · cases h
    · cases h
      exact .fail _ k rfl rfl
  | environment op =>
    simp only [step] at h
    split_ifs at h with hop
    obtain ⟨t, ht, h⟩ := Option.bind_eq_some_iff.1 h
    split_ifs at h with hlocked
    cases h
    exact .environment op t hop ht hlocked
  | register versions =>
    cases h
    exact .register versions
  | foreignLock id =>
    simp only [step] at h
    split_ifs at h with hfree
    cases h
    exact .foreignLock id hfree
  | foreignUnlock id =>
    simp only [step] at h
    split_ifs at h with hheld
    cases h
    exact .foreignUnlock id hheld

end Inversion

end Dbos.Dispatch
