import DbosTransact.Execution.Run

/-!
# Swallowed dispatches

An executor that claims a workflow again while an earlier run of it still has its active entry gives the
new dispatch up: its goroutine parks and leaves the workflow to the holder of the entry. The dispatch is
swallowed if the holder will not finish the workflow either. A run `Carries` the workflow if it has neither
committed a suspension, nor parked, nor made its durable cancel.
-/

namespace Dbos.Execution

open Lts

/-- The row is `PENDING` for the executor. -/
def OwnedBy (row : WorkflowRow) (executorID : String) : Prop :=
  row.status = .pending ∧ row.executorID = some executorID

/-- A dispatch which is in flight: no goroutine has entered the map of active workflows. -/
def Phase.inFlight : Phase → Bool
  | .dispatched | .deadLettering _ | .started => true
  | _ => false

/-- The row is `PENDING` for the executor, and nobody there will move it on. -/
def Stuck (s : State) (executorID : String) : Prop :=
  OwnedBy s.row executorID ∧
    ∀ i < s.count, (s.runs i).executorID = executorID →
      (s.runs i).phase.inFlight = false ∧
        ((s.runs i).phase = .parked ∨ (s.runs i).phase = .finished)

/-- The run is on its way to move the row on. A dead-lettering does so if the attempts it has read
are those of the row. -/
def Carries (row : WorkflowRow) (r : Run) : Bool :=
  r.cancelFunc ≠ .completed &&
    match r.phase with
    | .dispatched | .started | .running | .returned _ | .awaitingCancel _ | .stopped _
    | .cancellingInline _ | .encoding _ | .recording _ => true
    | .deadLettering attempts => attempts ≤ row.recoveryAttempts
    | .suspended | .unwinding | .cancelled | .parked | .finished => false

/-- The steps by which a run gives up without moving the row on. A run that records a step makes its
executor that of the row, also if it has made its durable cancel and will not move the row on. -/
def GivesUp (active : Bool) (r : Run) : RunAction → Bool
  | .loadOrStore => active
  | .parkConflict => true
  | .encode ok => !ok
  | .checkpoint => r.cancelFunc = .completed
  | _ => false

/-- Another run than `i` carries the workflow on the executor. -/
def CarriedByAnother (s : State) (executorID : String) (i : Nat) : Prop :=
  ∃ j < s.count, j ≠ i ∧ (s.runs j).executorID = executorID ∧ Carries s.row (s.runs j) = true

/-- The condition on a run of the executor that gives up: the row is not `PENDING` for the executor,
nor made so by the step, or another run carries the workflow. -/
def LeftToAnother (executorID : String) (s : State) (a : Action) : Prop :=
  match a with
  | .run i ra =>
    (s.runs i).executorID = executorID → GivesUp (s.active executorID) (s.runs i) ra = true →
      s.row.status = .pending → (ra = .checkpoint ∨ s.row.executorID = some executorID) →
        CarriedByAnother s executorID i
  | _ => True

instance (row : WorkflowRow) (executorID : String) : Decidable (OwnedBy row executorID) :=
  inferInstanceAs (Decidable (_ ∧ _))

instance (s : State) (executorID : String) : Decidable (Stuck s executorID) :=
  inferInstanceAs (Decidable (_ ∧ ∀ _ < s.count, _))

instance (s : State) (executorID : String) (i : Nat) :
    Decidable (CarriedByAnother s executorID i) :=
  inferInstanceAs (Decidable (∃ _ < s.count, _))

instance (executorID : String) (s : State) (a : Action) :
    Decidable (LeftToAnother executorID s a) := by
  unfold LeftToAnother
  split <;> infer_instance

/-! ### One step of a run -/

section RunStep

variable {maxRetries : Nat} {row row' : WorkflowRow} {active : Bool} {r r' : Run} {a : RunAction}

theorem cancelRow_cases (now : Int) (row : WorkflowRow) :
    cancelRow now row = row.cancel now ∨ cancelRow now row = row ∧ row.status ≠ .pending := by
  unfold cancelRow
  split_ifs with h
  · exact Or.inl rfl
  · refine Or.inr ⟨rfl, fun hp => ?_⟩
    simp [WorkflowRow.cancellable, hp] at h

theorem status_cancelRow (now : Int) (row : WorkflowRow) : (cancelRow now row).status ≠ .pending := by
  rcases cancelRow_cases now row with h | ⟨h, hne⟩
  · rw [h]; simp [WorkflowRow.cancel]
  · rwa [h]

theorem status_recordRow (result : Result) (now : Int) (row : WorkflowRow) :
    (recordRow result now row).status ≠ .pending := by
  unfold recordRow
  split_ifs with h
  · cases result <;> simp [WorkflowRow.recordOutcome, Result.status]
  · exact h

theorem runStep_row (h : runStep maxRetries row active r a = some (row', r'))
    (hp : row'.status = .pending) :
    row' = row ∨ a = .checkpoint ∧ r.phase = .running ∧ row' = refreshRow r.executorID row := by
  rcases runStep_row_cases h with h | ⟨now, -, rfl⟩ | ⟨result, now, -, -, rfl⟩ |
    ⟨delayUntil, now, -, -, rfl⟩ | ⟨attempts, now, -, -, rfl⟩ | h
  · exact Or.inl h
  · exact absurd hp (status_cancelRow now row)
  · exact absurd hp (status_recordRow result now row)
  · cases hp
  · unfold deadLetterRow at hp ⊢
    split_ifs at hp ⊢
    · cases hp
    · exact Or.inl rfl
  · exact Or.inr h

def RunAction.movesRow : RunAction → Bool
  | .deadLetter _ | .durableCancel _ | .suspend _ _ | .cancelInline _ | .record _ => true
  | _ => false

theorem status_of_movesRow (h : runStep maxRetries row active r a = some (row', r'))
    (hw : a.movesRow = true) (hc : Carries row r = true) : row'.status ≠ .pending := by
  cases a with
  | deadLetter now =>
    simp only [runStep] at h
    split at h
    · rename_i attempts hdl
      cases h
      intro hp
      -- the attempts are those of the row, which is moved
      simp only [Carries, hdl, Bool.and_eq_true, decide_eq_true_eq] at hc
      unfold deadLetterRow at hp
      split_ifs at hp with hg
      · cases hp
      · exact hg ⟨hp, hc.2⟩
    · cases h
  | durableCancel now =>
    simp only [runStep] at h
    split_ifs at h
    cases h
    exact status_cancelRow now row
  | suspend delayUntil now =>
    simp only [runStep] at h
    split_ifs at h
    cases h
    simp [WorkflowRow.suspendToDelayed]
  | cancelInline now =>
    simp only [runStep] at h
    split at h
    · cases h
      exact status_cancelRow now row
    · cases h
  | record now =>
    simp only [runStep] at h
    split at h
    · cases h
      exact status_recordRow _ now row
    · cases h
  | _ => cases hw

/-- A run that carries the workflow goes on carrying it, gives up, or moves the row on. -/
theorem runStep_carries (h : runStep maxRetries row active r a = some (row', r'))
    (hp : row'.status = .pending) (hc : Carries row r = true) :
    Carries row' r' = true ∨ GivesUp active r a = true := by
  cases hw : a.movesRow with
  | true => exact absurd hp (status_of_movesRow h hw hc)
  | false => ?_
  simp only [Carries, Bool.and_eq_true, decide_eq_true_eq] at hc ⊢
  obtain ⟨hne, hphase⟩ := hc
  cases a with
  | readStatus =>
    simp only [runStep] at h
    split_ifs at h with h1 h2 h3
    · cases h
      exact Or.inl ⟨hne, by simp⟩
    · cases h
      exact absurd hp h3
    · cases h
      exact Or.inl ⟨by simp, rfl⟩
  | loadOrStore =>
    simp only [runStep] at h
    split_ifs at h with h1 h2
    · exact Or.inr h2
    · cases h
      exact Or.inl ⟨hne, rfl⟩
  | parkConflict => exact Or.inr rfl
  | encode ok =>
    cases ok with
    | false => exact Or.inr rfl
    | true =>
      simp only [runStep] at h
      split at h
      · cases h
        exact Or.inl ⟨hne, rfl⟩
      · cases h
  | contextDone =>
    simp only [runStep] at h
    split_ifs at h
    cases h
    exact Or.inl ⟨hne, hphase⟩
  | fireCancel =>
    simp only [runStep] at h
    split_ifs at h
    cases h
    exact Or.inl ⟨by simp, hphase⟩
  | readCancelled =>
    simp only [runStep] at h
    split_ifs at h
    cases h
    exact Or.inl ⟨hne, hphase⟩
  | checkpoint =>
    simp only [runStep] at h
    split_ifs at h with hrunning
    cases h
    exact Or.inl ⟨hne, by rw [hrunning]⟩
  | «return» result =>
    simp only [runStep] at h
    split_ifs at h
    cases h
    exact Or.inl ⟨hne, rfl⟩
  | stopSuspended =>
    simp only [runStep] at h
    split_ifs at h with hg
    rw [hg.1] at hphase
    cases hphase
  | unwind =>
    simp only [runStep] at h
    split_ifs at h with hg
    rw [hg] at hphase
    cases hphase
  | stop =>
    simp only [runStep] at h
    split at h
    · cases h
    · split_ifs at h
      · cases h
        exact Or.inl ⟨by simp, rfl⟩
      · cases h
        exact Or.inl ⟨hne, rfl⟩
    · cases h
  | cancelCompleted =>
    simp only [runStep] at h
    split at h
    · split_ifs at h with hg
      exact absurd hg hne
    · cases h
  | check =>
    simp only [runStep] at h
    split at h
    · split at h
      · cases h
        exact Or.inl ⟨hne, rfl⟩
      · cases h
        exact Or.inl ⟨hne, rfl⟩
    · cases h
  | releaseCancelled =>
    simp only [runStep] at h
    split_ifs at h with hg
    rw [hg] at hphase
    cases hphase
  | outcomeVisible =>
    simp only [runStep] at h
    split_ifs at h with hg
    rw [hg.1] at hphase
    cases hphase
  | deadLetter _ | durableCancel _ | suspend _ _ | cancelInline _ | record _ => cases hw

end RunStep

/-! ### Runs of the system -/

/-- While the row is `PENDING` for the executor, some run carries the workflow there. -/
def Carried (executorID : String) (s : State) : Prop :=
  OwnedBy s.row executorID →
    ∃ j < s.count, (s.runs j).executorID = executorID ∧ Carries s.row (s.runs j) = true

theorem carried_init {executorID : String} {s : State} (h : Init s) : Carried executorID s := by
  rintro ⟨hp, he⟩
  obtain ⟨-, ⟨henq, -⟩ | ⟨-, hcount, -, e, he', hrun⟩⟩ := h
  · rw [henq] at hp; cases hp
  · rw [he] at he'
    cases he'
    exact ⟨0, by omega, by rw [hrun], by rw [hrun]; rfl⟩

theorem carries_refreshRow (executorID : String) (row : WorkflowRow) (r : Run) :
    Carries (refreshRow executorID row) r = Carries row r := by
  unfold refreshRow
  split_ifs <;> rfl

theorem carried_run {maxRetries : Nat} {executorID : String} {s : State} {i : Nat} {a : RunAction}
    {row' : WorkflowRow} {r' : Run} (hi : Carried executorID s) (hlt : i < s.count)
    (hC : LeftToAnother executorID s (.run i a))
    (h : runStep maxRetries s.row (s.active (s.runs i).executorID) (s.runs i) a = some (row', r')) :
    Carried executorID { s with row := row', runs := Function.update s.runs i r' } := by
  rintro ⟨hp, he⟩
  have hother : ∀ j, j ≠ i → Function.update s.runs i r' j = s.runs j :=
    fun j hj => Function.update_of_ne hj _ _
  -- what a run carries does not depend on the executor of the row
  have hcarries : ∀ r, Carries row' r = Carries s.row r := by
    rcases runStep_row h hp with rfl | ⟨-, -, rfl⟩
    · exact fun _ => rfl
    · exact fun r => carries_refreshRow _ s.row r
  have hfrom : CarriedByAnother s executorID i →
      ∃ j < s.count, (Function.update s.runs i r' j).executorID = executorID ∧
        Carries row' (Function.update s.runs i r' j) = true := by
    rintro ⟨j, hj, hji, hje, hc⟩
    exact ⟨j, hj, by rw [hother j hji]; exact hje, by rw [hother j hji, hcarries]; exact hc⟩
  have hmoves : (s.runs i).executorID = executorID → Carries s.row (s.runs i) = true →
      s.row.status = .pending → (a = .checkpoint ∨ s.row.executorID = some executorID) →
      ∃ j < s.count, (Function.update s.runs i r' j).executorID = executorID ∧
        Carries row' (Function.update s.runs i r' j) = true := by
    intro hje hc hpre hown
    rcases runStep_carries h hp hc with hc' | hup
    · refine ⟨i, hlt, ?_, by simpa using hc'⟩
      rw [Function.update_self, (runStep_identity h).1, hje]
    · rw [hje] at hup
      exact hfrom (hC hje hup hpre hown)
  rcases runStep_row h hp with rfl | ⟨rfl, hrunning, rfl⟩
  · obtain ⟨j, hj, hje, hc⟩ := hi ⟨hp, he⟩
    by_cases hji : j = i
    · -- the run that carried the workflow is the one that moves
      subst hji
      exact hmoves hje hc hp (Or.inr he)
    · exact hfrom ⟨j, hj, hji, hje, hc⟩
  · rw [status_refreshRow] at hp
    by_cases hje : (s.runs i).executorID = executorID
    · by_cases hdone : (s.runs i).cancelFunc = .completed
      · exact hfrom (hC hje (by simp [GivesUp, hdone]) hp (Or.inl rfl))
      · exact hmoves hje (by simp [Carries, hrunning, hdone]) hp (Or.inl rfl)
    · -- the row is made another executor's, unless that has no name
      unfold refreshRow at he
      split_ifs at he with hempty
      · obtain ⟨j, hj, hje', hc⟩ := hi ⟨hp, he⟩
        exact hfrom ⟨j, hj, fun hji => hje (hji ▸ hje'), hje', hc⟩
      · exact absurd (Option.some.inj he) hje

theorem carried_step {maxRetries : Nat} {executorID : String} {s t : State} {a : Action}
    (hi : Carried executorID s) (hC : LeftToAnother executorID s a)
    (h : step maxRetries s a = some t) : Carried executorID t := by
  cases a with
  | run i a =>
    simp only [step] at h
    split_ifs at h with hlt
    obtain ⟨⟨row', r'⟩, hrun, rfl⟩ := Option.map_eq_some_iff.1 h
    exact carried_run hi hlt hC hrun
  | cancel now =>
    cases h
    exact fun ho => absurd ho.1 (status_cancelRow now s.row)
  | resume queue now =>
    cases h
    rintro ⟨hp, he⟩
    unfold resumeRow at hp he
    split_ifs at hp he with hr
    · cases hp
    · obtain ⟨j, hj, hje, hc⟩ := hi ⟨hp, he⟩
      refine ⟨j, hj, hje, ?_⟩
      simpa [resumeRow, hr] using hc
  | recover recoveryQueue now =>
    simp only [step] at h
    split_ifs at h
    cases h
    rintro ⟨hp, -⟩
    cases hp
  | wake now =>
    simp only [step] at h
    split_ifs at h with hd
    cases h
    rintro ⟨hp, -⟩
    rw [show (s.row.wake now).status = s.row.status from rfl, hd] at hp
    cases hp
  | promote now =>
    simp only [step] at h
    split_ifs at h
    cases h
    rintro ⟨hp, -⟩
    cases hp
  | dequeue c now =>
    -- the claim starts a dispatch on the executor that it names
    simp only [step] at h
    split_ifs at h
    cases h
    rintro ⟨-, he⟩
    have he : c.executorID = executorID := Option.some.inj he
    exact ⟨s.count, by simp, by simpa using he, by simp [Carries]⟩

/-- **No dispatch is swallowed**: no state reached is stuck for an executor, if its runs give up only
while another run carries the workflow there or the row is not `PENDING` for it. -/
theorem no_swallowed_dispatch (maxRetries : Nat) (executorID : String) (s : State)
    (h : Reaches (system maxRetries) (LeftToAnother executorID) s) : ¬Stuck s executorID := by
  have hi : Carried executorID s :=
    h.invariant (fun _ => carried_init) fun _ _ _ hi hC hst => carried_step hi hC hst
  rintro ⟨howned, hstuck⟩
  obtain ⟨j, hj, hje, hc⟩ := hi howned
  obtain ⟨hflight, hparked | hfinished⟩ := hstuck j hj hje
  · simp [Carries, hparked] at hc
  · simp [Carries, hfinished] at hc

/-! ### A dispatch swallowed by a suspended run -/

def enqueued : State where
  row := { workflowID := "workflow", status := .enqueued }
  runs := fun _ => { executorID := "", claim := 0 }
  count := 0
  claims := 0
  resumedAt := 0

def claimBy (executorID : String) : WorkflowRow.Claim :=
  { executorID, applicationVersion := "v1" }

/-- The first run suspends; the workflow is woken, promoted and claimed again before the goroutine
of the first run has unwound. -/
def suspendAndRedispatch : List Action :=
  [.dequeue (claimBy "executor") 1, .run 0 .readStatus, .run 0 .loadOrStore,
    .run 0 (.suspend 3600000 2), .wake 3, .promote 4, .dequeue (claimBy "executor") 5,
    .run 1 .readStatus]

/-- **A dispatch is swallowed**: the second run meets the active entry of the suspended one and parks,
the first one unwinds, and nobody executes the workflow although its row is `PENDING`. -/
theorem swallowed_dispatch :
    ∃ s, Reaches (system 0) (fun _ _ => True) s ∧ Stuck s "executor" := by
  have hinit : (system 0).init enqueued := ⟨rfl, Or.inl ⟨rfl, rfl, rfl⟩⟩
  obtain ⟨s, hs, hstuck⟩ := exists_reaches (S := system 0) (fun _ _ => True)
    (List.flatten [suspendAndRedispatch, [.run 1 .loadOrStore, .run 0 .stopSuspended, .run 0 .unwind]])
    (fun s => decide (Stuck s "executor")) hinit (fun _ _ => trivial) (by decide +kernel)
  exact ⟨s, hs, of_decide_eq_true hstuck⟩

/-- If the first goroutine has unwound before the second one looks for the entry, the second run
executes the workflow. -/
theorem no_swallowed_dispatch_after_unwind :
    ∃ s, (Reaches (system 0) (LeftToAnother "executor") s ∧ OwnedBy s.row "executor" ∧
      (s.runs 1).phase = .running) ∧ ¬Stuck s "executor" := by
  have hinit : (system 0).init enqueued := ⟨rfl, Or.inl ⟨rfl, rfl, rfl⟩⟩
  obtain ⟨s, hs, hp⟩ := exists_reaches (S := system 0) (LeftToAnother "executor")
    (List.flatten [suspendAndRedispatch, [.run 0 .stopSuspended, .run 0 .unwind, .run 1 .loadOrStore]])
    (fun s => decide (OwnedBy s.row "executor" ∧ (s.runs 1).phase = .running)) hinit
    (by decide +kernel) (by decide +kernel)
  exact ⟨s, ⟨hs, of_decide_eq_true hp⟩, no_swallowed_dispatch 0 "executor" s hs⟩

end Dbos.Execution
