import DbosTransact.SysDb.RetriedCalls

/-!
# Suspensions that are committed

`Sleep`, `Recv`, `GetEvent` and `GetResult` suspend a workflow by an update of its row, guarded by
`status = PENDING`, in a call under `RetryWithResult`. The run unwinds by a panic if the update has matched
the row, and goes on in process if it has not, or if the call has failed. An attempt takes effect when it
commits. If the acknowledgement is lost, the attempt is made again and finds the workflow `DELAYED`: the run
goes on, with its workflow suspended.
-/

namespace Dbos.Suspension

open Lts Retried RetriedCalls

/-! ### The calls -/

inductive Kind
  | sleep (remaining : Int)
  | result (awaitedWorkflowID : String)
  | recv (deadline : Int)
  | event (targetWorkflowID : String) (deadline : Int)
  deriving DecidableEq, Repr

/-- A suspension: the workflow, what for, and the clock when the call begins, in milliseconds. -/
structure Request where
  workflowID : String
  kind : Kind
  now : Int
  deriving DecidableEq, Repr

/-- `_waiterWakeFallbackInterval`. -/
def waiterWakeFallbackInterval : Int := 3600000

namespace Request

variable (q : Request)

def delayUntil : Int :=
  match q.kind with
  | .sleep remaining => q.now + remaining
  | .result _ => q.now + waiterWakeFallbackInterval
  | .recv deadline | .event _ deadline =>
    if q.now + waiterWakeFallbackInterval < deadline then q.now + waiterWakeFallbackInterval else deadline

/-- The workflow that is waited for; for a message it is the workflow itself. -/
def awaited : Option String :=
  match q.kind with
  | .sleep _ => none
  | .result awaitedWorkflowID => some awaitedWorkflowID
  | .recv _ => some q.workflowID
  | .event targetWorkflowID _ => some targetWorkflowID

/-- What `SuspendWorkflowForSleep` or `SuspendWorkflowForResult` writes when it commits. -/
def suspend (now : Int) (db : Db) : Db :=
  let db := Write.apply (.suspend q.workflowID q.delayUntil now) db
  match q.awaited with
  | some awaitedID => Write.apply (.insertWaiter ⟨q.workflowID, awaitedID⟩) db
  | none => db

/-- An attempt, with its reading of the clock: whether it has suspended the workflow. -/
def attempt (db : Db) (now : Int) : Outcome Db Unit Int Bool GoError :=
  if db.suspendable q.workflowID then ⟨q.suspend now db, [q.delayUntil], .done true⟩ else ⟨db, [], .done false⟩

/-- The call under `RetryWithResult`. -/
def call : Call Db Unit Int Int Bool GoError where
  start := ()
  stmt db _ now := some (q.attempt db now)
  retries := retryConditionChain

end Request

inductive Ending
  /-- the panic, which is recovered above the workflow code -/
  | unwinds
  /-- `Sleep` returns an error to the workflow code -/
  | returnsError
  /-- the workflow code waits in process, and then goes on -/
  | waitsInProcess
  deriving DecidableEq, Repr

/-- What `Sleep`, `suspendForResult`, `suspendForRecv` and `suspendForEvent` do with the result. -/
def Request.ending (q : Request) : Except GoError Bool → Ending
  | .ok true => .unwinds
  | .ok false => .waitsInProcess
  | .error _ =>
    match q.kind with
    | .sleep _ => .returnsError
    | _ => .waitsInProcess

theorem ending_eq_unwinds {q : Request} {result : Except GoError Bool} :
    q.ending result = .unwinds ↔ result = .ok true := by
  unfold Request.ending
  match result with
  | .ok true => simp
  | .ok false => simp
  | .error e => cases q.kind <;> simp

/-! ### Steps -/

section Steps

abbrev CallState := State Db Unit Int Bool GoError

abbrev CallAction := Retried.Action Db Int GoError

variable (q : Request)

/-- An attempt that has suspended the workflow and is acknowledged. -/
def Suspends (s : CallState) (a : CallAction) : Prop := (∃ now, a = .stmt now) ∧ s.store.suspendable q.workflowID = true

/-- An attempt that has suspended the workflow, without its acknowledgement. -/
def Loses (s : CallState) (a : CallAction) : Prop := (∃ now e, a = .lost now e) ∧ s.store.suspendable q.workflowID = true

variable {q} {s t : CallState} {a : CallAction}

theorem made_fail (e : GoError) : (s.fail q.call e).made = s.made := by
  unfold State.fail
  split_ifs
  · simp [State.made]
  · rfl

theorem phase_fail (e : GoError) : (s.fail q.call e).phase ≠ .returned (.ok true) := by
  unfold State.fail
  split_ifs
  · exact nofun
  · intro h
    cases h

theorem stmt_call (db : Db) (p : Unit) (now : Int) : q.call.stmt db p now = some (q.attempt db now) := rfl

theorem made_perform (now : Int) :
    (s.perform (q.attempt s.store now)).made ≠ [] ↔ s.made ≠ [] ∨ s.store.suspendable q.workflowID = true := by
  by_cases hpending : s.store.suspendable q.workflowID = true
  · simp [State.perform, State.made, Request.attempt, hpending]
  · simp [State.perform, State.made, Request.attempt, hpending]

/-- **The step lemma**: when the call has returned that the workflow is suspended, and when it has
committed. -/
theorem step_iff (hstep : Retried.step q.call s a = some t) :
    (t.phase = .returned (.ok true) ↔ s.phase = .returned (.ok true) ∨ Suspends q s a) ∧
      (t.made ≠ [] ↔ s.made ≠ [] ∨ Suspends q s a ∨ Loses q s a) := by
  cases a with
  | stmt now =>
    simp only [Retried.step] at hstep
    cases hphase : s.phase with
    | returned r => simp [hphase] at hstep
    | running p =>
      simp only [hphase, stmt_call, Option.map_some, Option.some.injEq] at hstep
      subst hstep
      by_cases hpending : s.store.suspendable q.workflowID = true
      · simp [State.receive, State.perform, Request.attempt, hpending, Suspends, State.made]
      · simp [State.receive, State.perform, Request.attempt, hpending, Suspends, Loses, State.made]
  | lost now e =>
    simp only [Retried.step] at hstep
    cases hphase : s.phase with
    | returned r => simp [hphase] at hstep
    | running p =>
      simp only [hphase, stmt_call, Option.map_some, Option.some.injEq] at hstep
      subst hstep
      rw [made_fail, made_perform]
      simp [Suspends, Loses, phase_fail]
  | broken e =>
    simp only [Retried.step] at hstep
    cases hphase : s.phase with
    | returned r => simp [hphase] at hstep
    | running p =>
      simp only [hphase, Option.some.injEq] at hstep
      subst hstep
      rw [made_fail]
      simp [Suspends, Loses, phase_fail]
  | others store =>
    cases hstep
    simp [Suspends, Loses, State.made]

theorem run_iff {tr : List (Transition CallState CallAction)} (hs : (system q.call).init s)
    (hrun : Run (system q.call) s tr t) :
    (t.phase = .returned (.ok true) ↔ ∃ x ∈ tr, Suspends q x.pre x.act) ∧
      (t.made ≠ [] ↔ ∃ x ∈ tr, Suspends q x.pre x.act ∨ Loses q x.pre x.act) := by
  induction hrun with
  | nil =>
    obtain ⟨hphase, hattempt, hwasted⟩ := hs
    simp [hphase, State.made, hattempt, hwasted]
  | @snoc tr t u a _ hstep ih =>
    obtain ⟨hphase, hmade⟩ := step_iff hstep
    constructor
    · rw [hphase, ih.1]
      simp [or_and_right, exists_or]
    · rw [hmade, ih.2]
      simp [or_and_right, exists_or]

end Steps

/-- **A committed suspension ends the run, unless its acknowledgement is lost for good.** For every
suspension and every pattern of errors: when the call has returned, the run unwinds if any attempt of it
has committed, exactly if the call has also committed an attempt that was acknowledged whenever it has
committed one that was not. -/
theorem committed_suspension_unwinds_iff (q : Request) {s t : CallState} {tr : List (Transition CallState CallAction)}
    (hs : (system q.call).init s) (hrun : Run (system q.call) s tr t) {result : Except GoError Bool}
    (hreturned : t.phase = .returned result) :
    (t.made ≠ [] → q.ending result = .unwinds) ↔
      ((∃ x ∈ tr, Loses q x.pre x.act) → ∃ x ∈ tr, Suspends q x.pre x.act) := by
  obtain ⟨hphase, hmade⟩ := run_iff hs hrun
  have hunwinds : q.ending result = .unwinds ↔ ∃ x ∈ tr, Suspends q x.pre x.act := by
    rw [ending_eq_unwinds, ← hphase, hreturned, Phase.returned.injEq]
  rw [hunwinds, hmade]
  constructor
  · rintro h ⟨x, hx, hloses⟩
    exact h ⟨x, hx, .inr hloses⟩
  · rintro h ⟨x, hx, hsuspends | hloses⟩
    · exact ⟨x, hx, hsuspends⟩
    · exact h ⟨x, hx, hloses⟩

section Example

private def running : Db := StatusTable.toDb (.insert .empty { workflowID := "wf", status := .pending })

private def nap : Request := ⟨"wf", .sleep 60000, 0⟩

private def reception : Request := ⟨"wf", .recv 60000, 0⟩

private def goesOn (q : Request) (t : CallState) : Bool :=
  !t.made.isEmpty && t.store.statusOf "wf" = some .delayed && t.phase.result? = some false &&
    q.ending (.ok false) = .waitsInProcess

/-- The commit is not acknowledged, and the next attempt finds the workflow suspended. -/
theorem suspended_run_goes_on :
    (∃ t, Reaches (system nap.call) (fun _ _ => True) t ∧ goesOn nap t = true) ∧
      ∃ t, Reaches (system reception.call) (fun _ _ => True) t ∧ goesOn reception t = true := by
  constructor
  · exact exists_reaches (S := system nap.call) (fun _ _ => True) (s := called nap.call running)
      [.lost 1 connectionLost, .stmt 2] (goesOn nap) ⟨rfl, rfl, rfl⟩ (fun _ _ => trivial) (by decide +kernel)
  · exact exists_reaches (S := system reception.call) (fun _ _ => True) (s := called reception.call running)
      [.lost 1 connectionLost, .stmt 2] (goesOn reception) ⟨rfl, rfl, rfl⟩ (fun _ _ => trivial) (by decide +kernel)

/-- An error before the commit does no harm. -/
theorem committed_suspension_unwinds_after_error :
    ∃ t, exec (system nap.call) (called nap.call running) [.broken connectionLost, .stmt 2] = some t ∧
      t.made ≠ [] ∧ nap.ending (.ok true) = .unwinds := by
  obtain ⟨t, hexec, ht⟩ := (Option.any_eq_true _ _).1
    (show (exec (system nap.call) (called nap.call running) [.broken connectionLost, .stmt 2]).any
      (fun t => !t.made.isEmpty && decide (t.phase.result? = some true)) = true by decide +kernel)
  obtain ⟨hmade, hresult⟩ := Bool.and_eq_true_iff.1 ht
  have hmade : t.made ≠ [] := by simpa using hmade
  have hreturned : t.phase = .returned (.ok true) := by
    cases hphase : t.phase with
    | running p => simp [hphase, Phase.result?] at hresult
    | returned r =>
      cases r with
      | error e => simp [hphase, Phase.result?] at hresult
      | ok b => simpa [hphase, Phase.result?] using hresult
  refine ⟨t, hexec, hmade, (committed_suspension_unwinds_iff nap ⟨rfl, rfl, rfl⟩ (run_exec hexec) hreturned).2 ?_ hmade⟩
  rintro ⟨x, hx, ⟨now, e, hact⟩, -⟩
  have hmem := act_mem_of_mem_trace hx
  rw [hact] at hmem
  simp at hmem

end Example

end Dbos.Suspension
