import DbosTransact.Dispatch.Alone
import DbosTransact.Dispatch.Results

/-!
# Dequeues of any number of executors

Who has made a claim, what the rows of a result were, and what a call returns with nobody beside it.
-/

namespace Dbos.Dispatch

open Relational RepeatableRead Lts Queue

variable {κ : Type*} {calls : κ → Call} [DecidableEq κ] {s s' t : State κ} {a : Action κ} {k : κ}
  {tr : List (Transition (State κ) (Action κ))}

/-! ### A call commits once -/

theorem over_of_step (hstep : step calls s a = some s') (hover : (s.phase k).over = true) :
    (s'.phase k).over = true := by
  have hmove : ∀ {j : κ} {p : Phase}, (j = k → p.over = true) → (Function.update s.phase j p k).over = true := by
    intro j p hp
    by_cases hj : k = j
    · subst hj
      rw [Function.update_self]
      exact hp rfl
    · rw [Function.update_of_ne hj]
      exact hover
  have hopen : ∀ {j : κ} {p q : Phase}, s.phase j = q → q.over = false → j = k → p.over = true := by
    rintro j p q hq hfalse rfl
    rw [hq, hfalse] at hover
    cases hover
  cases moves_of_step hstep with
  | stop k now hphase => exact hmove (hopen hphase rfl)
  | count k now maxTasks hphase => exact hmove (hopen hphase rfl)
  | version k latest x hphase => exact hmove (hopen hphase rfl)
  | select k ordered x isLatest hphase => exact hmove (hopen hphase rfl)
  | skip k x isLatest r rest taken hphase => exact hmove (hopen hphase rfl)
  | lockSnapshot k x isLatest r rest taken hphase => exact hmove (hopen hphase rfl)
  | lockCommitted k x isLatest r r' rest taken hphase => exact hmove (hopen hphase rfl)
  | claim k now x isLatest rest taken hphase => exact hmove (hopen hphase rfl)
  | nothing k x isLatest taken now hphase => exact hmove fun _ => rfl
  | commit a k p x isLatest taken now hphase => exact hmove (hopen hphase rfl)
  | fail a k => exact hmove fun _ => rfl
  | environment | register | foreignLock | foreignUnlock => exact hover

theorem over_of_commit (hstep : step calls s a = some s') (ha : a.committer? = some k) :
    (s.phase k).over = false ∧ (s'.phase k).over = true := by
  cases moves_of_step hstep with
  | nothing j x isLatest taken now hphase =>
    obtain rfl : j = k := Option.some.inj ha
    rw [hphase]
    exact ⟨rfl, by simp [State.finish, State.goto, Phase.over]⟩
  | commit a j p x isLatest taken now hphase hresult hact =>
    obtain rfl : j = k := by
      rcases hact with ⟨rfl, -⟩ | ⟨rfl, -⟩ <;> exact Option.some.inj ha
    rw [hphase]
    refine ⟨rfl, ?_⟩
    rcases hact with ⟨-, rfl⟩ | ⟨-, rfl⟩ <;> simp [State.finish, State.goto, Phase.over]
  | fail a j hcall hnone =>
    rw [hnone] at ha
    cases ha
  | _ => cases ha

/-- **One run.** No call commits twice. -/
theorem commits_once (h : Run (system calls) s tr t) :
    tr.Pairwise (fun z z' => ∀ k, z.act.committer? = some k → z'.act.committer? ≠ some k) ∧
      ∀ k, ∀ z ∈ tr, z.act.committer? = some k → (t.phase k).over = true := by
  induction h with
  | nil => exact ⟨.nil, by simp⟩
  | @snoc tr t u a _ hau ih =>
    obtain ⟨hpairwise, hover⟩ := ih
    refine ⟨List.pairwise_append.2 ⟨hpairwise, List.pairwise_singleton _ _, ?_⟩, fun k z hz hk => ?_⟩
    · intro z hz z' hz' k hk hk'
      obtain rfl := List.mem_singleton.1 hz'
      have hopen := (over_of_commit hau hk').1
      rw [hover k z hz hk] at hopen
      cases hopen
    · rcases List.mem_append.1 hz with hz | hz
      · exact over_of_step hau (hover k z hz hk)
      · obtain rfl := List.mem_singleton.1 hz
        exact (over_of_commit hau hk).2

/-- **One run**, for the results. -/
theorem told_of_run (hs : Initial s) (h : Run (system calls) s tr t) :
    Inv calls t ∧ ∀ k, PhaseTold calls tr k (t.phase k) := by
  induction h with
  | nil =>
    refine ⟨fun k => ?_, fun k => ?_⟩ <;> rw [hs.1 k]
    · exact .closed rfl
    · exact ⟨by simp [Phase.txn?], by simp [Phase.isLatest?], by simp⟩
  | snoc _ hau ih => exact ⟨ih.1.step hau, told_of_step ih.1 hau ih.2⟩

/-- **Claims are exclusive, eligible and ordered.** In every run:

* a row goes from `ENQUEUED` to `PENDING` only by the commit of a call, which has it in its result; if another
  call has the row in its result, it has claimed it at another step;
* no call commits twice;
* a result is within the budgets of the call as it counted, and its rows are in dispatch order and may all be
  claimed by the call where it committed;
* a call with nobody beside it returns the first rows that it may claim, up to its budget. -/
theorem claims_exclusive_eligible_ordered (hs : Initial s) (h : Run (system calls) s tr t) :
    (∀ z ∈ tr, ∀ id, Claims z id → ∃ k, z.act.committer? = some k ∧
      (∀ ids, z.post.phase k = .returned ids → id ∈ ids) ∧
      ∀ j ids, j ≠ k → t.phase j = .returned ids → id ∈ ids →
        ∃ z' ∈ tr, z' ≠ z ∧ z'.act = .commit j ∧ Claims z' id) ∧
    tr.Pairwise (fun z z' => ∀ k, z.act.committer? = some k → z'.act.committer? ≠ some k) ∧
    (∀ k ids, t.phase k = .returned ids →
      Counted calls tr k ids.length ∧ (ids ≠ [] → Committed calls tr k ids)) ∧
    ∀ k, t.phase k = .idle → (∀ id, t.locks id = none) →
      (∃ ids, t.FirstRows calls k ids) ∧ ∀ ids, t.FirstRows calls k ids ↔
        ∃ as t', (∀ a ∈ as, a.call? = some k) ∧ exec (system calls) t as = some t' ∧ t'.phase k = .returned ids := by
  obtain ⟨-, htold⟩ := told_of_run hs h
  refine ⟨fun z hz id hclaims => ?_, (commits_once h).1, fun k ids => (htold k).returned ids, fun k hidle hlocks => ?_⟩
  · obtain ⟨⟨s₀, tr₀, hs₀, hrun₀, -⟩, hstep⟩ := h.transition_of_mem hs hz
    obtain ⟨k, hk, hresult⟩ := claims_of_step (told_of_run hs₀ hrun₀).1 hstep hclaims
    refine ⟨k, hk, hresult, fun j ids hj hids hid => ?_⟩
    obtain ⟨z', hz', hact, hclaims', -⟩ := ((htold j).returned ids hids).2 (List.ne_nil_of_mem hid)
    refine ⟨z', hz', ?_, hact, hclaims' id hid⟩
    rintro rfl
    rw [hact] at hk
    exact hj (Option.some.inj hk)
  · refine ⟨exists_firstRows calls t k, fun ids => ⟨exists_exec_of_firstRows hidle hlocks, ?_⟩⟩
    rintro ⟨as, t', has, hexec, hreturned⟩
    exact firstRows_of_exec hidle hlocks has hexec hreturned

section Example

def Phase.result? : Phase → Option (List String)
  | .returned ids => some ids
  | .idle | .counted _ | .versioned _ _ | .scanning _ _ _ _ | .claimed _ _ _ _ | .failed => none

theorem Phase.eq_returned {p : Phase} {ids : List String} (h : p.result? = some ids) : p = .returned ids := by
  cases p with
  | returned ids' => rw [Option.some.inj h]
  | _ => cases h

/-- Two executors, each of which runs one workflow of the queue at a time. -/
def twoWorkers (k : Bool) : Call where
  queue := { name := "q", workerConcurrency := some 1 }
  executor := { executorID := if k then "e2" else "e1", applicationVersion := "v", appName := "app" }
  input := {}

def twoEnqueued : State Bool where
  store := ⟨⟨[submitted "a" "v" 1, submitted "b" "v" 2], by decide⟩, fun _ => 0⟩
  versions := []
  locks _ := none
  phase _ := .idle

theorem initial_twoEnqueued : Initial twoEnqueued := ⟨fun _ => rfl, by simp [twoEnqueued]⟩

/-- The second executor comes to the first workflow while it is locked. -/
def overlapping : List (Action Bool) :=
  let ordered := [submitted "a" "v" 1, submitted "b" "v" 2]
  [.count false 0, .version false none, .select false ordered, .lock false,
    .count true 0, .version true none, .select true ordered, .lock true, .lock true, .claim true 5, .commit true,
    .claim false 6, .commit false]

/-- Each executor has one of the workflows, which it may claim. -/
theorem overlapping_claims_disjoint : ∃ t, exec (system twoWorkers) twoEnqueued overlapping = some t ∧
    t.phase false = .returned ["a"] ∧ t.phase true = .returned ["b"] ∧
    Committed twoWorkers (trace (system twoWorkers) twoEnqueued overlapping) false ["a"] ∧
    Committed twoWorkers (trace (system twoWorkers) twoEnqueued overlapping) true ["b"] := by
  obtain ⟨t, ht, hp⟩ := (Option.any_eq_true _ _).1
    (show (exec (system twoWorkers) twoEnqueued overlapping).any (fun t =>
      decide ((t.phase false).result? = some ["a"] ∧ (t.phase true).result? = some ["b"])) = true by decide +kernel)
  obtain ⟨hfirst, hsecond⟩ := of_decide_eq_true hp
  obtain ⟨-, -, hresults, -⟩ := claims_exclusive_eligible_ordered initial_twoEnqueued (run_exec ht)
  exact ⟨t, ht, Phase.eq_returned hfirst, Phase.eq_returned hsecond,
    (hresults false _ (Phase.eq_returned hfirst)).2 (by decide),
    (hresults true _ (Phase.eq_returned hsecond)).2 (by decide)⟩

end Example

end Dbos.Dispatch
