import DbosTransact.Dedup.ReturnExisting

/-!
# Replays of a return-existing `Enqueue`

The replays of a call inside a workflow return one ID and insert nothing more, unless an execution has gone
past a refusal without recording it, because the context was cancelled: the slot may be free when the
workflow is resumed, and the next execution then inserts another workflow.
-/

namespace Dbos.Dedup

open Lts Relational

variable {ι : Type*} {calls : ι → Call}

/-! ### Runs -/

section Observe

variable (p : Progress) (now : Option String)

@[simp] theorem Progress.journal_observe : (p.observe now).journal = p.journal := by
  unfold Progress.observe
  split_ifs <;> rfl

@[simp] theorem Progress.returned_observe : (p.observe now).returned = p.returned := by
  unfold Progress.observe
  split_ifs <;> rfl

@[simp] theorem Progress.started_observe : (p.observe now).started = p.started := by
  unfold Progress.observe
  split_ifs <;> rfl

theorem Progress.mem_held_observe {p : Progress} {now : Option String} {id : String}
    (h : id ∈ (p.observe now).held) : id ∈ p.held ∨ p.started = true ∧ now = some id := by
  unfold Progress.observe at h
  split_ifs at h with hstarted
  · rcases List.mem_append.1 h with h | h
    · exact .inl h
    · exact .inr ⟨hstarted, Option.mem_toList.1 h⟩
  · exact .inl h

theorem Journaled.observe {p : Progress} (h : Journaled p) (now : Option String) : Journaled (p.observe now) := by
  obtain ⟨n, h⟩ := h
  refine ⟨n, ?_, ?_, ?_, ?_⟩ <;>
    simp only [Progress.Open, Progress.Settled, Progress.journal_observe, Progress.returned_observe,
      Progress.inserted_observe, Progress.live_observe]
  exacts [h.below, h.above, h.last, h.live]

end Observe

section Runs

variable {call : Call} {fresh : String → Prop} {free : Prop} {t t' : StatusTable} {p p' : Progress} {m : Move}
  {s s' : State ι} {tr : List (Transition (State ι) (Action ι))} {j : ι} {id : String}

theorem Turn.held (h : Turn call fresh free t p m t' p') : p'.held = p.held := by
  have hinsert : ∀ e created, (p.insert e created).held = p.held := by
    intro e created
    cases created <;> rfl
  have hresolve : ∀ (q : Progress) e existingID, (q.resolve e existingID).held = q.held := by
    intro q e existingID
    rcases q.resolve_cases e existingID with ⟨-, h⟩ | ⟨-, h⟩ <;> rw [h] <;> rfl
  cases h with
  | replayRefusal | resolve | interrupt => exact hresolve ..
  | recordRefusal => exact hresolve ..
  | publish e created | publishRecorded e created | publishUnacknowledged e created
  | publishRecordedUnacknowledged e created => exact hinsert e created
  | _ => rfl

theorem Locked.mem_inserted (h : Locked calls s) : ∀ e ∈ (s.calls j).live, e.phase = .inserted false →
    e.workflowID ∈ (s.calls j).inserted := by
  intro e he hphase
  refine (h.drawn j e he).resolve_right fun hnone => ?_
  have hsome := h.found j e he hphase
  rw [hnone] at hsome
  cases hsome

variable [DecidableEq ι]

@[simp] theorem State.calls_observe_set (s : State ι) (j : ι) (t : StatusTable) (p : Progress) :
    ((s.set j t p).observe calls).calls j = p.observe (holder t (calls j).slot) := by
  simp [State.observe, State.set]

variable [Fintype ι]

theorem step_call {a : Action ι} (h : step calls s a = some s') (j : ι) :
    (∃ m t p, a = .call j m ∧ s'.table = t ∧ s'.calls j = p.observe (holder t (calls j).slot) ∧
      Turn (calls j) (s.Fresh j) (s.SlotFree calls j) s.table (s.calls j) m t p) ∨
    s'.calls j = (s.calls j).observe (holder s'.table (calls j).slot) := by
  obtain ⟨i, m, t, p, rfl, rfl, hturn⟩ | ⟨op, t, -, rfl, -⟩ := step_cases h
  · by_cases hij : j = i
    · subst hij
      exact .inl ⟨m, t, p, rfl, rfl, by simp [State.observe, State.set], hturn⟩
    · exact .inr (by simp [State.observe, State.set, hij])
  · exact .inr rfl

structure Inv (calls : ι → Call) (s : State ι) : Prop where
  locked : Locked calls s
  answered : ∀ j, Answered (s.calls j)

omit [DecidableEq ι] [Fintype ι] in
theorem Inv.init (h : Initial s) : Inv calls s := by
  obtain ⟨hindexed, hcalls⟩ := h
  refine ⟨⟨hindexed, ?_, ?_, ?_, ?_, ?_⟩, fun j => ⟨?_, ?_, ?_, ?_⟩⟩ <;> simp [hcalls]

theorem Inv.step {a : Action ι} (h : Inv calls s) (hstep : step calls s a = some s') : Inv calls s' := by
  refine ⟨h.locked.step hstep, fun j => ?_⟩
  obtain ⟨m, t, p, -, rfl, hcalls, hturn⟩ | hcalls := step_call hstep j
  · rw [hcalls]
    exact (h.answered j).turn hturn h.locked.mem_inserted
  · rw [hcalls]
    exact (h.answered j).observe _

/-- **One step**, in a call inside a workflow. -/
theorem Journaled.step {a : Action ι} (h : Inv calls s) (hj : Journaled (s.calls j))
    (hcaller : (calls j).caller.isSome = true) (ha : a.Recorded) (hstep : step calls s a = some s') :
    Journaled (s'.calls j) := by
  obtain ⟨m, t, p, rfl, -, hcalls, hturn⟩ | hcalls := step_call hstep j
  · rw [hcalls]
    exact (hj.turn hturn hcaller ha h.locked.mem_inserted).observe _
  · rw [hcalls]
    exact hj.observe _

/-- **One run.** A workflow that is noted as a holder has held the slot after a step of the run, with the
call under way. -/
theorem held_of_run {s' : State ι} (hs : Initial s) (h : Run (system calls) s tr s')
    (hid : id ∈ (s'.calls j).held) :
    ∃ x ∈ tr, (x.post.calls j).started = true ∧ holder x.post.table (calls j).slot = some id := by
  induction h with
  | nil => simp [hs.2 j] at hid
  | @snoc tr t u a _ hau ih =>
    have hstep : id ∈ (t.calls j).held ∨ (u.calls j).started = true ∧ holder u.table (calls j).slot = some id := by
      obtain ⟨m, t', p, -, rfl, hcalls, hturn⟩ | hcalls := step_call hau j
      · rw [hcalls] at hid ⊢
        rw [← hturn.held, Progress.started_observe]
        exact Progress.mem_held_observe hid
      · rw [hcalls] at hid ⊢
        rw [Progress.started_observe]
        exact Progress.mem_held_observe hid
    rcases hstep with hid | hid
    · obtain ⟨x, hx, hheld⟩ := ih hid
      exact ⟨x, List.mem_append_left _ hx, hheld⟩
    · exact ⟨⟨t, a, u⟩, List.mem_append_right _ List.mem_cons_self, hid⟩

end Runs

/-! ### Replays -/

/-- All executions of the call have returned one workflow, and the call has inserted no other. -/
def Progress.Consistent (p : Progress) : Prop :=
  (∀ id ∈ p.returned, ∀ id' ∈ p.returned, id' = id) ∧ p.inserted.length ≤ 1 ∧
    ∀ id ∈ p.returned, ∀ id' ∈ p.inserted, id' = id

instance (p : Progress) : Decidable p.Consistent := inferInstanceAs (Decidable (_ ∧ _ ∧ _))

/-- If the call has returned, its next execution returns the same workflow and leaves the table as it is,
unless the calling workflow has been cancelled. -/
def State.Replays [Fintype ι] [DecidableEq ι] (calls : ι → Call) (s : State ι) (j : ι) : Prop :=
  ∀ id ∈ (s.calls j).returned, (s.calls j).live = none → ∀ caller ∈ (calls j).caller,
    ∀ r ∈ s.table.find? caller, r.status ≠ .cancelled → ∀ workflowID, s.Fresh j workflowID →
      ∃ n s', exec (system calls) s (.call j (.start workflowID) :: List.replicate n (.call j .check)) = some s' ∧
        (s'.calls j).returned = (s.calls j).returned ++ [id] ∧
        (s'.calls j).inserted = (s.calls j).inserted ∧ s'.table = s.table

section Replay

variable {p : Progress} {n : ℕ} {c : Checkpoint}

theorem Journaled.consistent (h : Journaled p) : p.Consistent := by
  obtain ⟨n, h⟩ := h
  rcases h.last with ⟨-, hreturned, hinserted⟩ | ⟨c, -, -, hreturned, hinserted⟩
  · simp [Progress.Consistent, hreturned, hinserted]
  · refine ⟨fun id hid id' hid' => by rw [hreturned id hid, hreturned id' hid'], ?_, fun id hid id' hid' => ?_⟩
    · rw [hinserted]
      split_ifs <;> simp
    · rw [hinserted] at hid'
      split_ifs at hid' with hdup
      · cases hid'
      · rw [List.mem_singleton.1 hid', hreturned id hid]

theorem Journaled.settled (h : Journaled p) {id : String} (hid : id ∈ p.returned) :
    ∃ n c, (∀ k < n, p.journal k = some ⟨"", true⟩) ∧ p.journal n = some c ∧ c.Final ∧ c.output = id := by
  obtain ⟨n, h⟩ := h
  rcases h.last with ⟨-, hreturned, -⟩ | ⟨c, hc, hfinal, hreturned, -⟩
  · rw [hreturned] at hid
    cases hid
  · exact ⟨n, c, h.below, hc, hfinal, (hreturned id hid).symm⟩

variable [Fintype ι] [DecidableEq ι] {s : State ι} {j : ι} {caller workflowID : String} {r : WorkflowRow}

theorem step_start (hcaller : (calls j).caller = some caller) (hlive : (s.calls j).live = none)
    (hfresh : s.Fresh j workflowID) :
    step calls s (.call j (.start workflowID)) = some ((s.set j s.table
      { s.calls j with live := some ⟨workflowID, 0, .started⟩, started := true }).observe calls) := by
  simp [step, callStep, hlive, startStep, hfresh, hcaller]

theorem step_check {e : Execution} (hcaller : (calls j).caller = some caller)
    (hr : s.table.find? caller = some r) (hstatus : r.status ≠ .cancelled) (he : (s.calls j).live = some e)
    (hphase : e.phase = .started) (hc : (s.calls j).journal e.stepID = some c) :
    step calls s (.call j .check) = some ((s.set j s.table
      (if c.deduplicated then (s.calls j).resolve e c.output else (s.calls j).ret c.output)).observe calls) := by
  simp [step, callStep, he, moveStep, hphase, checkStep, hcaller, hr, hstatus, hc]

/-- The checks of a replay, from a step of the call to the last one. -/
theorem exec_checks (hcaller : (calls j).caller = some caller) (hstatus : r.status ≠ .cancelled)
    (hfinal : c.Final) (d : ℕ) : ∀ (s : State ι) (k : ℕ), k + d = n →
    s.table.find? caller = some r → (s.calls j).live = some ⟨workflowID, k, .started⟩ →
    (∀ k < n, (s.calls j).journal k = some ⟨"", true⟩) → (s.calls j).journal n = some c →
    ∃ s', exec (system calls) s (List.replicate (d + 1) (.call j .check)) = some s' ∧
      (s'.calls j).returned = (s.calls j).returned ++ [c.output] ∧
      (s'.calls j).inserted = (s.calls j).inserted ∧ s'.table = s.table := by
  induction d with
  | zero =>
    intro s k hk hr he hbelow hlast
    obtain rfl : k = n := hk
    have hret : (if c.deduplicated then (s.calls j).resolve ⟨workflowID, k, .started⟩ c.output
        else (s.calls j).ret c.output) = (s.calls j).ret c.output := by
      split_ifs with hdup
      · exact if_pos (hfinal hdup)
      · rfl
    have hstep := step_check hcaller hr hstatus he rfl hlast
    rw [hret] at hstep
    refine ⟨_, exec_singleton hstep, ?_, ?_, rfl⟩ <;> rw [State.calls_observe_set]
    · rw [Progress.returned_observe]
      rfl
    · rw [Progress.inserted_observe]
      rfl
  | succ d ih =>
    intro s k hk hr he hbelow hlast
    have hstep := step_check hcaller hr hstatus he rfl (hbelow k (by omega))
    obtain ⟨s', hs', hreturned, hinserted, htable⟩ :=
      ih ((s.set j s.table ((s.calls j).again ⟨workflowID, k, .started⟩)).observe calls) (k + 1) (by omega) hr
        (by rw [State.calls_observe_set, Progress.live_observe]; rfl)
        (by rw [State.calls_observe_set, Progress.journal_observe]; exact hbelow)
        (by rw [State.calls_observe_set, Progress.journal_observe]; exact hlast)
    rw [State.calls_observe_set, Progress.returned_observe] at hreturned
    rw [State.calls_observe_set, Progress.inserted_observe] at hinserted
    exact ⟨s', (exec_cons hstep).trans hs', hreturned, hinserted, htable⟩

/-- **A replay returns what is recorded.** -/
theorem Journaled.replays (h : Journaled (s.calls j)) : s.Replays calls j := by
  intro id hid hlive caller hcaller r hr hstatus workflowID hfresh
  obtain ⟨n, c, hbelow, hlast, hfinal, rfl⟩ := h.settled hid
  obtain ⟨s', hs', hreturned, hinserted, htable⟩ :=
    exec_checks hcaller hstatus hfinal n ((s.set j s.table
      { s.calls j with live := some ⟨workflowID, 0, .started⟩, started := true }).observe calls) 0
      (Nat.zero_add n) hr
      (by rw [State.calls_observe_set, Progress.live_observe])
      (by rw [State.calls_observe_set, Progress.journal_observe]; exact hbelow)
      (by rw [State.calls_observe_set, Progress.journal_observe]; exact hlast)
  rw [State.calls_observe_set, Progress.returned_observe] at hreturned
  rw [State.calls_observe_set, Progress.inserted_observe] at hinserted
  exact ⟨n + 1, s', (exec_cons (step_start hcaller hlive hfresh)).trans hs', hreturned, hinserted, htable⟩

end Replay

/-- **Return-existing deduplication.** In every run no two rows hold one slot, and every workflow that a call
returns is one it inserted or one that held the slot after the call had started. If moreover no execution
goes past a refusal without recording it, all executions of a call inside a workflow return one workflow,
the call inserts no other, and the next replay returns it too. -/
theorem enqueue_returns_existing [Fintype ι] [DecidableEq ι] {s t : State ι}
    {tr : List (Transition (State ι) (Action ι))} (hs : Initial s) (h : Run (system calls) s tr t) :
    (∀ r ∈ t.table.rows, ∀ r' ∈ t.table.rows, r.slot.isSome = true → r.slot = r'.slot → r = r') ∧
    (∀ j, ∀ id ∈ (t.calls j).returned, id ∈ (t.calls j).inserted ∨
      ∃ x ∈ tr, (x.post.calls j).started = true ∧ holder x.post.table (calls j).slot = some id) ∧
    ((∀ x ∈ tr, x.act.Recorded) → ∀ j, (calls j).caller.isSome = true →
      (t.calls j).Consistent ∧ t.Replays calls j) := by
  have hinv : Inv calls t :=
    Reaches.invariant (S := system calls) (C := fun _ _ => True) (fun _ => Inv.init)
      (fun _ _ _ hu _ hstep => hu.step hstep) ⟨s, tr, hs, h, fun _ _ => trivial⟩
  refine ⟨hinv.locked.indexed, fun j id hid => ?_, fun hrecorded j hcaller => ?_⟩
  · exact ((hinv.answered j).returned id hid).imp_right (held_of_run hs h)
  · have hjournaled : Inv calls t ∧ Journaled (t.calls j) := by
      refine Reaches.invariant (S := system calls) (C := fun _ a => a.Recorded)
        (I := fun u => Inv calls u ∧ Journaled (u.calls j)) (fun u hu => ?_)
        (fun u a v hu ha hstep => ?_) ⟨s, tr, hs, h, hrecorded⟩
      · refine ⟨Inv.init hu, 0, ?_⟩
        rw [hu.2 j]
        exact ⟨by simp, by simp, .inl ⟨rfl, rfl, rfl⟩, by simp⟩
      · exact ⟨hu.1.step hstep, Journaled.step hu.1 hu.2 hcaller ha hstep⟩
    exact ⟨hjournaled.2.consistent, hjournaled.2.replays⟩

section Example

/-- The workflow "close" refreshes a customer's report; one refresh at a time is queued or running. -/
def refresh (_ : Unit) : Call where
  appName := "billing"
  input :=
    { workflowID := ""
      status := .enqueued
      name := "refresh"
      queueName := "reports"
      deduplicationID := "customer"
      parentWorkflowID := "close" }
  caller := some "close"
  queueName_ne := by decide
  deduplicationID_ne := by decide
  queuePartitionKey_eq := rfl
  waits := .inl rfl

def refreshing : State Unit where
  table :=
    { rows :=
        [{ workflowID := "close", status := .pending, name := "close", createdAt := 1, updatedAt := 1 },
          { workflowID := "r1"
            status := .pending
            name := "refresh"
            queueName := some "reports"
            deduplicationID := some "customer"
            createdAt := 1
            updatedAt := 1 }]
      nodup := by decide }
  calls _ := {}

theorem initial_refreshing : Initial refreshing := ⟨by decide +kernel, fun _ => rfl⟩

/-- "close" finds "r1" and is cancelled before that is recorded. It is resumed after "r1" has completed. -/
def cancelledInBetween : List (Action Unit) :=
  [.call () (.start "r2"), .call () .check, .call () .insert, .call () .lookup,
    .operation (.cancelWorkflows ["close"] 2), .call () .interrupt,
    .operation (.updateWorkflowOutcome "r1" false none none 3), .operation (.resumeWorkflows ["close"] "" 4),
    .call () (.start "r3"), .call () .check, .call () .insert, .call () .commit]

/-- The cancelled execution returns "r1", the resumed one inserts "r3" and returns it. -/
theorem resumed_call_inserts_again : ∃ tr t, Initial refreshing ∧ Run (system refresh) refreshing tr t ∧
    (t.calls ()).returned = ["r1", "r3"] ∧ (t.calls ()).inserted = ["r3"] ∧ ¬ (t.calls ()).Consistent := by
  obtain ⟨t, ht, hp⟩ := (Option.any_eq_true _ _).1
    (show (exec (system refresh) refreshing cancelledInBetween).any (fun t =>
      decide ((t.calls ()).returned = ["r1", "r3"] ∧ (t.calls ()).inserted = ["r3"] ∧
        ¬ (t.calls ()).Consistent)) = true by decide +kernel)
  exact ⟨_, t, initial_refreshing, run_exec ht, of_decide_eq_true hp⟩

/-- "close" records "r1", crashes later, and is executed again after "r1" has completed. -/
def crashedInBetween : List (Action Unit) :=
  [.call () (.start "r2"), .call () .check, .call () .insert, .call () .lookup, .call () .commit,
    .operation (.updateWorkflowOutcome "r1" false none none 3), .call () (.start "r3"), .call () .check]

/-- Both executions return "r1", and so will the next. -/
theorem crashed_call_returns_recorded : ∃ t, exec (system refresh) refreshing crashedInBetween = some t ∧
    (t.calls ()).returned = ["r1", "r1"] ∧ (t.calls ()).Consistent ∧ t.Replays refresh () := by
  obtain ⟨t, ht, hp⟩ := (Option.any_eq_true _ _).1
    (show (exec (system refresh) refreshing crashedInBetween).any (fun t =>
      decide ((t.calls ()).returned = ["r1", "r1"])) = true by decide +kernel)
  obtain ⟨-, -, hreplays⟩ := enqueue_returns_existing initial_refreshing (run_exec ht)
  obtain ⟨hconsistent, hnext⟩ := hreplays (by decide +kernel) () rfl
  exact ⟨t, ht, of_decide_eq_true hp, hconsistent, hnext⟩

end Example

end Dbos.Dedup
