import DbosTransact.Execution.Dispatch

/-!
# Runs from before a resume

`ResumeWorkflows` hands a workflow back to the queue while the goroutine of an earlier run may still
be there. Two statements of such a superseded run are not fenced: the outcome write is guarded by
`status = PENDING` only, which the next claim restores, and the durable cancel of its context by the row
not being `SUCCESS`, `ERROR` or `CANCELLED`.
-/

namespace Dbos.Execution

open Lts

/-- The run was started from a claim made before the last resume. -/
def Superseded (s : State) (i : Nat) : Prop := (s.runs i).claim ≤ s.resumedAt

/-- The function has returned an error for which `isCancellationError` holds. -/
def Phase.returnedCancellation : Phase → Bool
  | .returned (.error .cancellation _ _) | .awaitingCancel (.error .cancellation _ _)
  | .stopped (.error .cancellation _ _) | .cancellingInline (.error .cancellation _ _)
  | .encoding (.error .cancellation _ _) | .recording (.error .cancellation _ _) => true
  | _ => false

/-- The function of the run returned a cancellation error, because an operation of the run read the
status `CANCELLED` and not because of its context. -/
def ReturnedByDbCancel (r : Run) : Prop :=
  r.phase.returnedCancellation = true ∧ r.readCancelled = true ∧ r.contextDone = false

def outcomeOf (row : WorkflowRow) : Status × Option String × Option String × Option Int :=
  (row.status, row.output, row.error, row.completedAt)

def Action.actor? : Action → Option Nat
  | .run i _ => some i
  | _ => none

def Action.recorder? : Action → Option Nat
  | .run i (.record _) => some i
  | _ => none

def Action.canceller? : Action → Option Nat
  | .run i (.durableCancel _) | .run i (.cancelInline _) => some i
  | _ => none

/-- The step is an explicit `CancelWorkflows`. -/
def Action.isCancel : Action → Bool
  | .cancel _ => true
  | _ => false

abbrev History := List (Transition State Action)

/-- No run that returned because of the status `CANCELLED` changes the outcome of the workflow. -/
def CancelledRunsFenced (tr : History) : Prop :=
  ∀ x ∈ tr, ∀ i ∈ x.act.actor?, ReturnedByDbCancel (x.pre.runs i) →
    outcomeOf x.post.row = outcomeOf x.pre.row

/-- Every outcome recorded is written by a run started from a claim made after the last resume. -/
def OutcomesByLaterClaims (tr : History) : Prop :=
  ∀ x ∈ tr, ∀ i ∈ x.act.recorder?, outcomeOf x.post.row ≠ outcomeOf x.pre.row →
    ¬Superseded x.pre i

/-- No superseded run writes its outcome while the row is `PENDING`. -/
def NoOutcomeOverNewClaim (tr : History) : Prop :=
  ∀ x ∈ tr, ∀ i ∈ x.act.recorder?, Superseded x.pre i → x.pre.row.status ≠ .pending

def SupersededContextsFenced (tr : History) : Prop :=
  ∀ x ∈ tr, ∀ i ∈ x.act.canceller?, Superseded x.pre i → x.post.row = x.pre.row

/-- The row moves to `CANCELLED` only by an explicit cancel, or by the context of a run started from
a claim made after the last resume. -/
def CancelledByLaterClaims (tr : History) : Prop :=
  ∀ x ∈ tr, x.pre.row.status ≠ .cancelled → x.post.row.status = .cancelled →
    x.act.isCancel = true ∨ ∃ i ∈ x.act.canceller?, ¬Superseded x.pre i

/-- No superseded run makes its durable cancel while the row can be cancelled. -/
def NoCancelOverNewClaim (tr : History) : Prop :=
  ∀ x ∈ tr, ∀ i ∈ x.act.canceller?, Superseded x.pre i → x.pre.row.cancellable = false

/-! ### The invariant -/

def ContextOk (r : Run) : Prop :=
  (r.cancelFunc = .fired → r.contextDone = true) ∧
    ∀ result, r.phase = .cancellingInline result → r.contextDone = true

/-- A run that has read `CANCELLED` is superseded as soon as the row has another status. -/
structure FenceInv (s : State) : Prop where
  resumedAt_le : s.resumedAt ≤ s.claims
  claim_le : ∀ i < s.count, (s.runs i).claim ≤ s.claims
  contextOk : ∀ i < s.count, ContextOk (s.runs i)
  readCancelled : ∀ i < s.count, (s.runs i).readCancelled = true →
    s.row.status = .cancelled ∨ Superseded s i

theorem fenceInv_init {s : State} (h : Init s) : FenceInv s := by
  obtain ⟨hres, ⟨-, hcount, hclaims⟩ | ⟨-, hcount, hclaims, e, -, hrun⟩⟩ := h
  · refine ⟨by omega, ?_, ?_, ?_⟩ <;> intro i hi <;> omega
  · have h0 : ∀ i < s.count, s.runs i = s.runs 0 := by
      intro i hi
      obtain rfl : i = 0 := by omega
      rfl
    refine ⟨by omega, ?_, ?_, ?_⟩
    · intro i hi
      have hclaim : (s.runs i).claim = 1 := by rw [h0 i hi, hrun]
      omega
    · intro i hi
      rw [h0 i hi, hrun]
      exact ⟨by simp, by simp⟩
    · intro i hi h
      rw [h0 i hi, hrun] at h
      cases h

section RunStep

variable {maxRetries : Nat} {row row' : WorkflowRow} {active : Bool} {r r' : Run} {a : RunAction}

theorem runStep_contextOk (h : runStep maxRetries row active r a = some (row', r'))
    (hr : ContextOk r) : ContextOk r' := by
  obtain ⟨hfired, hinline⟩ := hr
  cases a with
  | loadOrStore =>
    simp only [runStep] at h
    split_ifs at h <;> cases h
    · refine ⟨fun hf => hfired ?_, by simp⟩
      revert hf
      cases r.cancelFunc <;> simp [CancelFunc.stop]
    · exact ⟨hfired, by simp⟩
  | contextDone =>
    simp only [runStep] at h
    split_ifs at h
    cases h
    exact ⟨fun _ => rfl, fun _ _ => rfl⟩
  | fireCancel =>
    simp only [runStep] at h
    split_ifs at h with hg
    cases h
    exact ⟨fun _ => hg.1, hinline⟩
  | stopSuspended =>
    simp only [runStep] at h
    split_ifs at h
    cases h
    refine ⟨fun hf => hfired ?_, by simp⟩
    revert hf
    cases r.cancelFunc <;> simp [CancelFunc.stop]
  | parkConflict =>
    simp only [runStep] at h
    split at h <;> cases h
    refine ⟨fun hf => hfired ?_, by simp⟩
    revert hf
    cases r.cancelFunc <;> simp [CancelFunc.stop]
  | check =>
    simp only [runStep] at h
    split at h
    · split at h <;> cases h
      · exact ⟨hfired, fun _ _ => ‹r.contextDone = true›⟩
      · exact ⟨hfired, by simp⟩
    · cases h
  | record now =>
    simp only [runStep] at h
    split at h <;> cases h
    refine ⟨hfired, ?_⟩
    intro result hphase
    simp only at hphase
    split_ifs at hphase
  | _ =>
    simp only [runStep] at h
    repeat' split at h
    all_goals cases h
    all_goals exact ⟨by simp_all, by simp_all⟩

theorem runStep_readCancelled (h : runStep maxRetries row active r a = some (row', r'))
    (hr : r'.readCancelled = true) : r.readCancelled = true ∨ row' = row ∧ row.status = .cancelled := by
  cases a with
  | readCancelled =>
    simp only [runStep] at h
    split_ifs at h with hg
    cases h
    exact Or.inr ⟨rfl, hg.2⟩
  | _ =>
    simp only [runStep] at h
    repeat' split at h
    all_goals cases h
    all_goals exact Or.inl hr

theorem runStep_cancelled (h : runStep maxRetries row active r a = some (row', r'))
    (hc : row.status = .cancelled) : row'.status = .cancelled := by
  rcases runStep_row_cases h with rfl | ⟨now, -, rfl⟩ | ⟨result, now, -, -, rfl⟩ |
    ⟨delayUntil, now, -, hp, rfl⟩ | ⟨attempts, now, -, -, rfl⟩ | ⟨-, -, rfl⟩
  · exact hc
  · unfold cancelRow
    split_ifs
    · rfl
    · exact hc
  · rw [recordRow, if_neg (by rw [hc]; simp)]
    exact hc
  · rw [hc] at hp; cases hp
  · rw [deadLetterRow, if_neg (by rw [hc]; simp)]
    exact hc
  · rw [status_refreshRow, hc]

end RunStep

/-! ### Runs of the system -/

theorem fenceInv_run {maxRetries : Nat} {s : State} {i : Nat} {a : RunAction} {row' : WorkflowRow}
    {r' : Run} (hi : FenceInv s) (hlt : i < s.count)
    (h : runStep maxRetries s.row (s.active (s.runs i).executorID) (s.runs i) a = some (row', r')) :
    FenceInv { s with row := row', runs := Function.update s.runs i r' } := by
  have hclaim := (runStep_identity h).2
  have hclaims : ∀ j, (Function.update s.runs i r' j).claim = (s.runs j).claim := by
    intro j
    by_cases hj : j = i
    · subst hj; simpa using hclaim
    · rw [Function.update_of_ne hj]
  refine ⟨hi.resumedAt_le, ?_, ?_, ?_⟩
  · intro j hj
    simp only [hclaims]
    exact hi.claim_le j hj
  · intro j hj
    by_cases hji : j = i
    · subst hji
      simpa using runStep_contextOk h (hi.contextOk j hj)
    · simpa [Function.update_of_ne hji] using hi.contextOk j hj
  · intro j hj hread
    simp only [Superseded, hclaims]
    by_cases hji : j = i
    · subst hji
      simp only [Function.update_self] at hread
      rcases runStep_readCancelled h hread with hread | ⟨hrow, hc⟩
      · rcases hi.readCancelled j hj hread with hc | hsup
        · exact Or.inl (runStep_cancelled h hc)
        · exact Or.inr hsup
      · exact Or.inl (by rw [hrow]; exact hc)
    · simp only [Function.update_of_ne hji] at hread
      rcases hi.readCancelled j hj hread with hc | hsup
      · exact Or.inl (runStep_cancelled h hc)
      · exact Or.inr hsup

theorem fenceInv_step {maxRetries : Nat} {s t : State} {a : Action} (hi : FenceInv s)
    (h : step maxRetries s a = some t) : FenceInv t := by
  -- the environment leaves the runs alone, and all but a resume leave a cancelled row cancelled
  have hrow : ∀ row' : WorkflowRow, (s.row.status = .cancelled → row'.status = .cancelled) →
      FenceInv { s with row := row' } := by
    intro row' hc
    refine ⟨hi.resumedAt_le, hi.claim_le, hi.contextOk, fun i hlt hread => ?_⟩
    rcases hi.readCancelled i hlt hread with h | h
    · exact Or.inl (hc h)
    · exact Or.inr h
  cases a with
  | run i a =>
    simp only [step] at h
    split_ifs at h with hlt
    obtain ⟨⟨row', r'⟩, hrun, rfl⟩ := Option.map_eq_some_iff.1 h
    exact fenceInv_run hi hlt hrun
  | cancel now =>
    cases h
    refine hrow _ fun hc => ?_
    unfold cancelRow
    split_ifs
    · rfl
    · exact hc
  | resume queue now =>
    cases h
    by_cases hr : s.row.resumable = true
    · -- every run so far is superseded
      refine ⟨by simp [hr], hi.claim_le, hi.contextOk, fun i hlt _ => Or.inr ?_⟩
      simpa [Superseded, hr] using hi.claim_le i hlt
    · have hres : (if s.row.resumable then s.claims else s.resumedAt) = s.resumedAt := if_neg hr
      simp only [resumeRow, if_neg hr]
      exact hi
  | recover recoveryQueue now =>
    simp only [step] at h
    split_ifs at h with hg
    cases h
    exact hrow _ fun hc => by rw [hg] at hc; cases hc
  | wake now =>
    simp only [step] at h
    split_ifs at h
    cases h
    exact hrow _ fun hc => hc
  | promote now =>
    simp only [step] at h
    split_ifs at h with hg
    cases h
    refine hrow _ fun hc => ?_
    simp [WorkflowRow.delayExpired, hc] at hg
  | dequeue c now =>
    simp only [step] at h
    split_ifs at h with hg
    cases h
    have hold : ∀ i < s.count, Function.update s.runs s.count
        { executorID := c.executorID, claim := s.claims + 1 } i = s.runs i :=
      fun i hlt => Function.update_of_ne (by omega) _ _
    refine ⟨Nat.le_succ_of_le hi.resumedAt_le, ?_, ?_, ?_⟩
    · intro i hlt
      rcases Nat.lt_succ_iff_lt_or_eq.1 hlt with hlt | rfl
      · simp only [hold i hlt]
        exact Nat.le_succ_of_le (hi.claim_le i hlt)
      · simp
    · intro i hlt
      rcases Nat.lt_succ_iff_lt_or_eq.1 hlt with hlt | rfl
      · simp only [hold i hlt]
        exact hi.contextOk i hlt
      · simp [ContextOk]
    · intro i hlt hread
      rcases Nat.lt_succ_iff_lt_or_eq.1 hlt with hlt | rfl
      · simp only [hold i hlt] at hread
        rcases hi.readCancelled i hlt hread with h | h
        · rw [hg.1] at h; cases h
        · exact Or.inr (by simpa only [Superseded, hold i hlt] using h)
      · simp at hread

theorem fenceInv_of_reaches {maxRetries : Nat} {s : State}
    (h : Reaches (system maxRetries) (fun _ _ => True) s) : FenceInv s :=
  h.invariant (I := FenceInv) (fun _ => fenceInv_init) fun _ _ _ hi _ hst => fenceInv_step hi hst

theorem step_run {maxRetries : Nat} {s t : State} {i : Nat} {a : RunAction}
    (h : step maxRetries s (.run i a) = some t) :
    i < s.count ∧ ∃ r', runStep maxRetries s.row (s.active (s.runs i).executorID) (s.runs i) a =
      some (t.row, r') := by
  simp only [step] at h
  split_ifs at h with hlt
  obtain ⟨⟨row', r'⟩, hrun, rfl⟩ := Option.map_eq_some_iff.1 h
  exact ⟨hlt, r', hrun⟩

theorem outcomeOf_recordRow {result : Result} {now : Int} {row : WorkflowRow} :
    outcomeOf (recordRow result now row) = outcomeOf row ↔ row.status ≠ .pending := by
  unfold recordRow
  split_ifs with h
  · constructor
    · intro heq
      have hst : result.status = row.status := congrArg Prod.fst heq
      rw [h] at hst
      cases result <;> cases hst
    · exact fun hne => absurd h hne
  · exact ⟨fun _ => h, fun _ => rfl⟩

theorem step_record {maxRetries : Nat} {s t : State} {i : Nat} {now : Int}
    (h : step maxRetries s (.run i (.record now)) = some t) :
    ∃ result, (s.runs i).phase = .recording result ∧ t.row = recordRow result now s.row := by
  obtain ⟨-, r', hrun⟩ := step_run h
  simp only [runStep] at hrun
  split at hrun
  · rename_i result hphase
    exact ⟨result, hphase, (congrArg Prod.fst (Option.some.inj hrun)).symm⟩
  · cases hrun

/-- A run that returned because of the status `CANCELLED` can write the row only with its outcome,
and only as a superseded run. -/
theorem step_of_returnedByDbCancel {maxRetries : Nat} {s t : State} {i : Nat} {a : RunAction}
    (hi : FenceInv s) (hr : ReturnedByDbCancel (s.runs i))
    (h : step maxRetries s (.run i a) = some t) :
    t.row = s.row ∨ ∃ now, a = .record now ∧ Superseded s i := by
  obtain ⟨hres, hread, hctx⟩ := hr
  obtain ⟨hlt, r', hrun⟩ := step_run h
  obtain ⟨hfired, hinline⟩ := hi.contextOk i hlt
  rcases runStep_row_cases hrun with hrow | ⟨now, hcancel, hrow⟩ | ⟨result, now, rfl, -, hrow⟩ |
    ⟨delayUntil, now, rfl, -, hrow⟩ | ⟨attempts, now, rfl, hphase, hrow⟩ | ⟨rfl, hphase, hrow⟩
  · exact Or.inl hrow
  · -- no durable cancel without a context that is done
    exfalso
    rcases hcancel with rfl | rfl
    · simp only [runStep] at hrun
      split_ifs at hrun with hf
      rw [hfired hf] at hctx
      cases hctx
    · simp only [runStep] at hrun
      split at hrun
      · rename_i result hphase
        rw [hinline result hphase] at hctx
        cases hctx
      · cases hrun
  · rcases hi.readCancelled i hlt hread with hc | hsup
    · left
      rw [hrow, recordRow, if_neg (by rw [hc]; simp)]
    · exact Or.inr ⟨now, rfl, hsup⟩
  · -- the function has returned
    simp only [runStep] at hrun
    split_ifs at hrun with hg
    rw [hg.1] at hres
    cases hres
  · rw [hphase] at hres
    cases hres
  · rw [hphase] at hres
    cases hres

theorem mem_actor? {i : Nat} {a : Action} (h : i ∈ a.actor?) : ∃ ra, a = .run i ra := by
  cases a with
  | run j ra =>
    obtain rfl : j = i := by simpa [Action.actor?] using h
    exact ⟨ra, rfl⟩
  | _ => simp [Action.actor?] at h

theorem mem_recorder? {i : Nat} {a : Action} (h : i ∈ a.recorder?) :
    ∃ now, a = .run i (.record now) := by
  unfold Action.recorder? at h
  split at h
  · rename_i j now
    obtain rfl : j = i := by simpa using h
    exact ⟨now, rfl⟩
  · cases h

theorem cancelRow_eq_self {now : Int} {row : WorkflowRow} :
    cancelRow now row = row ↔ row.cancellable = false := by
  unfold cancelRow
  split_ifs with h
  · constructor
    · intro heq
      have hst : Status.cancelled = row.status := congrArg WorkflowRow.status heq
      simp [WorkflowRow.cancellable, ← hst] at h
    · intro hf
      rw [hf] at h
      cases h
  · simpa using h

theorem step_contextCancel {maxRetries : Nat} {s t : State} {i : Nat} {a : Action}
    (ha : i ∈ a.canceller?) (h : step maxRetries s a = some t) :
    ∃ now, t.row = cancelRow now s.row := by
  unfold Action.canceller? at ha
  split at ha
  · rename_i j now
    obtain ⟨-, r', hrun⟩ := step_run h
    simp only [runStep] at hrun
    split_ifs at hrun
    exact ⟨now, (congrArg Prod.fst (Option.some.inj hrun)).symm⟩
  · rename_i j now
    obtain ⟨-, r', hrun⟩ := step_run h
    simp only [runStep] at hrun
    split at hrun
    · exact ⟨now, (congrArg Prod.fst (Option.some.inj hrun)).symm⟩
    · cases hrun
  · cases ha

/-- The row moves to `CANCELLED` by an explicit cancel or by the context of a run. -/
theorem step_to_cancelled {maxRetries : Nat} {s t : State} {a : Action}
    (h : step maxRetries s a = some t) (hpre : s.row.status ≠ .cancelled)
    (hpost : t.row.status = .cancelled) : a.isCancel = true ∨ ∃ i, i ∈ a.canceller? := by
  cases a with
  | run i a =>
    right
    obtain ⟨-, r', hrun⟩ := step_run h
    rcases runStep_row_cases hrun with hrow | ⟨now, rfl | rfl, -⟩ | ⟨result, now, -, -, hrow⟩ |
      ⟨delayUntil, now, -, -, hrow⟩ | ⟨attempts, now, -, -, hrow⟩ | ⟨-, -, hrow⟩
    · rw [hrow] at hpost
      exact absurd hpost hpre
    · exact ⟨i, rfl⟩
    · exact ⟨i, rfl⟩
    · rw [hrow, recordRow] at hpost
      split_ifs at hpost
      · cases result <;> cases hpost
      · exact absurd hpost hpre
    · rw [hrow] at hpost
      cases hpost
    · rw [hrow, deadLetterRow] at hpost
      split_ifs at hpost
      · cases hpost
      · exact absurd hpost hpre
    · rw [hrow, status_refreshRow] at hpost
      exact absurd hpost hpre
  | cancel now => exact Or.inl rfl
  | resume queue now =>
    cases h
    simp only [resumeRow] at hpost
    split_ifs at hpost
    · cases hpost
    · exact absurd hpost hpre
  | wake now =>
    simp only [step] at h
    split_ifs at h
    cases h
    exact absurd hpost hpre
  | _ =>
    -- the row becomes ENQUEUED or PENDING
    simp only [step] at h
    split_ifs at h
    cases h
    cases hpost

instance (s : State) (i : Nat) : Decidable (Superseded s i) :=
  inferInstanceAs (Decidable (_ ≤ _))

instance (r : Run) : Decidable (ReturnedByDbCancel r) := inferInstanceAs (Decidable (_ ∧ _ ∧ _))

def firstRun : List Action :=
  [.dequeue (claimBy "first") 1, .run 0 .readStatus, .run 0 .loadOrStore]

/-- The first run reads that the workflow is cancelled, and its function returns that error. -/
def returnsCancelled : List Action :=
  [.cancel 2, .run 0 .readCancelled, .run 0 (.return (.error .cancellation none "cancelled")),
    .run 0 .stop, .run 0 .check, .run 0 (.encode true)]

def resumeAndClaim : List Action := [.resume "" 3, .dequeue (claimBy "second") 4]

end Dbos.Execution
