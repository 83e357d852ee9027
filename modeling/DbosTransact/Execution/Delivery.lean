import DbosTransact.Execution.Outcome
import DbosTransact.SysDb.RowInvariant

/-!
# What a run delivers

A run is in accord with its row if its result can be encoded, no parked run reads a failure without a text,
and nobody moves the row between the end of the run's work and the delivery.
-/

namespace Dbos.Delivery

open Relational Lts Lifecycle Execution

def Stores (r : WorkflowRow) : Outcome → Prop
  | .value output none => r.status = .success ∧ r.output = output
  | .value output (some text) => r.status = .error ∧ r.output = output ∧ r.error = some text
  | .workflowCancelled => r.status = .cancelled
  | .deadLetterQueue _ => r.status = .maxRecoveryAttemptsExceeded
  | .nonExistentWorkflow | .serializeOutput => False

instance (r : WorkflowRow) (o : Outcome) : Decidable (Stores r o) := by
  unfold Stores
  split <;> infer_instance

section Accord

variable (id : String)

/-- If the run is about to deliver an outcome, the row is in a terminal status and has the outcome, or it was
deleted. -/
def Accords (s : State) : Prop :=
  match s.phase with
  | .delivering o =>
    s.deleted = true ∨ ∃ r ∈ s.row id, r.status.isTerminal = true ∧ Stores r o
  | _ => True

instance (s : State) : Decidable (Accords id s) := by
  unfold Accords
  split <;> infer_instance

def Phase.isDelivering : Phase → Bool
  | .delivering _ => true
  | _ => false

/-- The operation does not move the row to another status between the end of the run's work and the delivery. -/
def Undisturbed (s : State) (op : Operation) : Prop :=
  s.phase.isDelivering = true → s.deleted = false →
    ∀ r ∈ s.row id, (op.onRow r).status = r.status

/-- While the row is there: the result can be encoded, a failed workflow has an error text when a parked run
reads it, and nobody resumes or cancels the workflow between the end of the run's work and the delivery. -/
def Proper (s : State) : Action → Prop
  | .encode ok => s.deleted = false → ok = true
  | .await => s.deleted = false → ∀ r ∈ s.row id, r.status = .error → r.error.getD "" ≠ ""
  | .durableCancel now => Undisturbed id s (.cancelWorkflows [id] now)
  | .others op => Undisturbed id s op
  | _ => True

instance (s : State) (op : Operation) : Decidable (Undisturbed id s op) :=
  inferInstanceAs (Decidable (_ → _ → _))

instance (s : State) (a : Action) : Decidable (Proper id s a) := by
  unfold Proper
  split <;> infer_instance

end Accord

/-! ### Outcomes and rows -/

section Rows

variable {r r' : WorkflowRow} {o : Outcome}

theorem isTerminal_of_stores (h : Stores r o) : r.status.isTerminal = true := by
  cases o with
  | value output error =>
    cases error with
    | none => simp [h.1, Status.isTerminal]
    | some text => simp [h.1, Status.isTerminal]
  | workflowCancelled => simp [show r.status = _ from h, Status.isTerminal]
  | deadLetterQueue n => simp [show r.status = _ from h, Status.isTerminal]
  | nonExistentWorkflow => cases h
  | serializeOutput => cases h

theorem status_eq_of_stores (h : Stores r o) (h' : Stores r' o) : r'.status = r.status := by
  cases o with
  | value output error =>
    cases error with
    | none => exact h'.1.trans h.1.symm
    | some text => exact h'.1.trans h.1.symm
  | workflowCancelled => exact Eq.trans h' (Eq.symm h)
  | deadLetterQueue n => exact Eq.trans h' (Eq.symm h)
  | nonExistentWorkflow => cases h
  | serializeOutput => cases h

theorem Stores.congr (h : Stores r o) (hst : r'.status = r.status)
    (hsettled : Settled r → SameOutcome r r') : Stores r' o := by
  cases o with
  | value output error =>
    cases error with
    | none =>
      obtain ⟨-, houtput, -, -⟩ := hsettled (.inl h.1)
      exact ⟨hst.trans h.1, houtput.trans h.2⟩
    | some text =>
      obtain ⟨-, houtput, herror, -⟩ := hsettled (.inr h.1)
      exact ⟨hst.trans h.1, houtput.trans h.2.1, herror.trans h.2.2⟩
  | workflowCancelled => exact hst.trans h
  | deadLetterQueue n => exact hst.trans h
  | nonExistentWorkflow => exact h
  | serializeOutput => exact h

def Clean (r : WorkflowRow) : Prop := r.status = .success → r.error.getD "" = ""

/-- What a parked run reads is what the row has, unless the workflow failed with an empty error text. -/
theorem stores_await_iff (hclean : Clean r) (h : awaitWorkflowResult (some r) = some o) :
    Stores r o ↔ (r.status = .error → r.error.getD "" ≠ "") := by
  simp only [awaitWorkflowResult] at h
  split at h
  · rename_i hst
    cases h
    rw [errStr, if_pos (hclean hst)]
    simp [Stores, hst]
  · rename_i hst
    cases h
    by_cases htext : r.error.getD "" = ""
    · rw [errStr, if_pos htext]
      simp [Stores, hst, htext]
    · rw [errStr, if_neg htext]
      obtain ⟨text, herror⟩ : ∃ text, r.error = some text := by
        cases herror : r.error with
        | none => simp [herror] at htext
        | some text => exact ⟨text, rfl⟩
      simp [Stores, hst, herror, show text ≠ "" by simpa [herror] using htext]
  · rename_i hst
    cases h
    simp [Stores, hst]
  · rename_i hst
    cases h
    simp [Stores, hst]
  · cases h

theorem stores_recording (id : String) (result : Result) (now : Int) (hid : r.workflowID = id)
    (hst : r.status = .pending) : Stores ((recording id result now).onRow r) (ofResult result) := by
  cases result with
  | success output => simp [recording, Operation.onRow, hid, hst, Result.status, Result.output, ofResult,
      Stores, WorkflowRow.recordOutcome]
  | error kind output message => simp [recording, Operation.onRow, hid, hst, Result.status, Result.output,
      Result.errorText, ofResult, Stores, WorkflowRow.recordOutcome]

theorem Clean.ite {p : Bool} (h : Clean r) (h' : Clean r') : Clean (if p then r' else r) := by
  cases p with
  | true => exact h'
  | false => exact h

theorem Clean.onRow (h : Clean r) {op : Operation} (hop : wellRecorded op = true) :
    Clean (op.onRow r) := by
  cases op with
  | insertWorkflowStatus appName i =>
    simp only [Operation.onRow]
    split_ifs
    · exact h
    · exact h
  | updateWorkflowOutcome id failed output error now =>
    cases failed with
    | true => exact h.ite fun hst => by cases hst
    | false =>
      obtain rfl : error = some "" := by simpa [wellRecorded] using hop
      exact h.ite fun _ => rfl
  | dequeueWorkflows | suspendWorkflowToDelayed | transitionDelayedWorkflows | cancelWorkflows
  | deadLetterWorkflows | reenqueueForRecovery | resumeWorkflows =>
    exact h.ite fun hst => by cases hst
  | debounceDelayedWorkflow | setWorkflowDelay | wake | renameApplication => exact h.ite h
  | forkWorkflows | deleteWorkflows | garbageCollectWorkflows => exact h

theorem clean_of_makes {op : Operation} (h : op.Makes r) : Clean r := by
  intro hst
  cases op with
  | insertWorkflowStatus appName i =>
    obtain ⟨hi, rfl⟩ := h
    have hsuccess : i.status = .success := hst
    rcases hi with hpending | ⟨-, henqueued | ⟨hdelayed, -⟩⟩
    · rw [hpending] at hsuccess; cases hsuccess
    · rw [henqueued] at hsuccess; cases hsuccess
    · rw [hdelayed] at hsuccess; cases hsuccess
  | forkWorkflows appName i now =>
    obtain ⟨original, forkedID, rfl⟩ := h
    cases hst
  | _ => cases h

end Rows

/-! ### Runs -/

section Runs

variable {id : String} {s s' : State} {op : Operation}

/-- The row is there unless it was deleted, and a success is without an error text. -/
structure Inv (id : String) (s : State) : Prop where
  found : s.deleted = false → ∃ r, s.row id = some r
  clean : ∀ r, s.row id = some r → Clean r

theorem Inv.of_write (h : s.write id op = some s') (hI : Inv id s) (hop : wellRecorded op = true) :
    Inv id s' where
  found hdeleted := by
    obtain ⟨table, -, rfl, -, hdel⟩ := write_cases h
    rw [hdeleted] at hdel
    obtain ⟨-, hfind⟩ := Bool.or_eq_false_iff.1 hdel.symm
    exact Option.isSome_iff_exists.1 (by simpa [State.row] using hfind)
  clean r' hr' := by
    rcases row_write h hr' with ⟨r, hr, rfl⟩ | ⟨-, hmade⟩
    · exact (hI.clean r hr).onRow hop
    · exact clean_of_makes hmade

theorem Inv.congr (hI : Inv id s) (htable : s'.table = s.table) (hdeleted : s'.deleted = s.deleted) :
    Inv id s' := by
  have hrow : s'.row id = s.row id := by rw [State.row, htable, State.row]
  exact ⟨fun h => hrow ▸ hI.found (hdeleted ▸ h), fun r hr => hI.clean r (hrow ▸ hr)⟩

theorem accords_of_not_delivering (h : s.phase.isDelivering = false) : Accords id s := by
  unfold Accords
  split
  · rename_i o hphase
    rw [hphase] at h
    cases h
  · trivial

theorem accords_delivering_iff {o : Outcome} (hphase : s.phase = .delivering o) :
    Accords id s ↔ s.deleted = true ∨ ∃ r, s.row id = some r ∧ Stores r o := by
  simp only [Accords, hphase]
  refine or_congr_right ⟨?_, ?_⟩
  · rintro ⟨r, hr, -, hstores⟩
    exact ⟨r, hr, hstores⟩
  · rintro ⟨r, hr, hstores⟩
    exact ⟨r, hr, isTerminal_of_stores hstores, hstores⟩

theorem accords_found_iff {o : Outcome} {r : WorkflowRow} (hphase : s.phase = .delivering o)
    (hdeleted : s.deleted = false) (hr : s.row id = some r) : Accords id s ↔ Stores r o := by
  rw [accords_delivering_iff hphase]
  simp [hdeleted, hr]

theorem row_write_of_some (h : s.write id op = some s') {r r' : WorkflowRow} (hr : s.row id = some r)
    (hr' : s'.row id = some r') : r' = op.onRow r := by
  rcases row_write h hr' with ⟨r₀, hr₀, rfl⟩ | ⟨hnone, -⟩
  · rw [hr] at hr₀
    rw [Option.some.inj hr₀]
  · rw [hr] at hnone
    cases hnone

theorem onRow_of_removed (h : s.write id op = some s') {r : WorkflowRow} (hr : s.row id = some r)
    (hr' : s'.row id = none) : op.onRow r = r := by
  cases hop : op.removes with
  | false =>
    rw [row_of_write h hop hr] at hr'
    cases hr'
  | true =>
    cases op with
    | deleteWorkflows ids => rfl
    | garbageCollectWorkflows appName i => rfl
    | _ => cases hop

theorem sameOutcome_write (h : s.write id op = some s') {r r' : WorkflowRow} (hr : s.row id = some r)
    (hr' : s'.row id = some r') (hst : Settled r) : SameOutcome r r' := by
  obtain ⟨table, hstep, rfl, -, -⟩ := write_cases h
  have hkey : r.workflowID = id := Table.key_of_find? hr
  rcases (keeps_step hstep).settled r (Table.mem_of_find? hr) hst with ⟨r₀, hr₀, hid, hsame⟩ | ⟨-, hgone⟩
  · rwa [← Table.eq_of_find? hr' hr₀ (hid.trans hkey)]
  · exact (hgone r' (Table.mem_of_find? hr') ((Table.key_of_find? hr').trans hkey.symm)).elim

/-- **Before the delivery.** An operation leaves the run in accord with the row precisely when it leaves
the status of the row alone. -/
theorem accords_write_iff (h : s.write id op = some s') (hacc : Accords id s) :
    Accords id s' ↔ Undisturbed id s op := by
  obtain ⟨table, -, htable, hphase', hdel⟩ := write_cases h
  cases hdelivering : s.phase.isDelivering with
  | false =>
    have hacc' : Accords id s' := accords_of_not_delivering (hphase' ▸ hdelivering)
    exact iff_of_true hacc' fun hd => by rw [hdelivering] at hd; cases hd
  | true =>
    obtain ⟨o, hphase⟩ : ∃ o, s.phase = .delivering o := by
      cases hp : s.phase <;> simp_all [Phase.isDelivering]
    rw [hphase] at hphase'
    cases hdeleted : s.deleted with
    | true =>
      have hacc' : Accords id s' := (accords_delivering_iff hphase').2 (.inl (by simp [hdel, hdeleted]))
      exact iff_of_true hacc' fun _ hd => by rw [hdeleted] at hd; cases hd
    | false =>
      obtain hd | ⟨r, hr, hstores⟩ := (accords_delivering_iff hphase).1 hacc
      · rw [hdeleted] at hd
        cases hd
      have hiff : Undisturbed id s op ↔ (op.onRow r).status = r.status := by
        simp [Undisturbed, hdelivering, hdeleted, hr]
      rw [hiff]
      cases hr' : s'.row id with
      | none =>
        have hgone : table.find? id = none := by rwa [← htable]
        have hacc' : Accords id s' := (accords_delivering_iff hphase').2 (.inl (by simp [hdel, hgone]))
        exact iff_of_true hacc' (by rw [onRow_of_removed h hr hr'])
      | some r' =>
        have hfound : table.find? id = some r' := by rwa [← htable]
        have hdeleted' : s'.deleted = false := by simp [hdel, hdeleted, hfound]
        rw [accords_found_iff hphase' hdeleted' hr', ← row_write_of_some h hr hr']
        exact ⟨fun hstores' => status_eq_of_stores hstores hstores',
          fun hst => hstores.congr hst (sameOutcome_write h hr hr')⟩

/-- What a step is to keep, and when it keeps the run in accord with the row. -/
def Follows (id : String) (s : State) (a : Action) (s' : State) : Prop :=
  Inv id s' ∧ (Accords id s → (Accords id s' ↔ Proper id s a))

theorem Follows.quiet (hI : Inv id s) {a : Action} {s₁ : State} (h : some s₁ = some s')
    (htable : s₁.table = s.table) (hdeleted : s₁.deleted = s.deleted)
    (hphase : s₁.phase.isDelivering = false) (ha : Proper id s a) : Follows id s a s' := by
  cases h
  exact ⟨hI.congr htable hdeleted, fun _ => iff_of_true (accords_of_not_delivering hphase) ha⟩

theorem follows_encode (hI : Inv id s) (ok : Bool) (result : Result) :
    Follows id s (.encode ok)
      { s with phase := if ok then .recording result else .delivering .serializeOutput } := by
  cases ok with
  | true => exact .quiet hI rfl rfl rfl rfl fun _ => rfl
  | false =>
    refine ⟨hI.congr rfl rfl, fun _ => ?_⟩
    -- no row has this outcome
    rw [accords_delivering_iff rfl]
    simp [Stores, Proper]

theorem wellRecorded_recording (result : Result) (now : Int) :
    wellRecorded (recording id result now) = true := by
  cases result <;> simp [recording, wellRecorded, Result.status, Result.errorText]

theorem follows_record (hI : Inv id s) {result : Result} {now : Int}
    (h : ({ s with phase := if (s.row id).any (·.status = .pending) then .delivering (ofResult result)
      else .parked } : State).write id (recording id result now) = some s') :
    Follows id s (.record now) s' := by
  refine ⟨Inv.of_write h (hI.congr rfl rfl) (wellRecorded_recording result now),
    fun _ => iff_of_true ?_ trivial⟩
  obtain ⟨table, hstep, rfl, hphase, -⟩ := write_cases h
  by_cases hrecorded : (s.row id).any (·.status = .pending) = true
  · rw [if_pos hrecorded] at hphase
    obtain ⟨r, hr, hst⟩ := (Option.any_eq_true _ _).1 hrecorded
    refine (accords_delivering_iff hphase).2 (.inr ⟨_, find?_step_of_find? hstep rfl hr, ?_⟩)
    exact stores_recording id result now (Table.key_of_find? hr) (by simpa using hst)
  · rw [if_neg hrecorded] at hphase
    exact accords_of_not_delivering (by rw [hphase]; rfl)

theorem follows_await (hI : Inv id s) {o : Outcome} (h : awaitWorkflowResult (s.row id) = some o) :
    Follows id s .await { s with phase := .delivering o } := by
  refine ⟨hI.congr rfl rfl, fun _ => ?_⟩
  by_cases hdeleted : s.deleted = true
  · refine iff_of_true ((accords_delivering_iff rfl).2 (.inl hdeleted)) fun hd => ?_
    rw [hdeleted] at hd
    cases hd
  · rw [Bool.not_eq_true] at hdeleted
    obtain ⟨r, hr⟩ := hI.found hdeleted
    have hproper : Proper id s .await ↔ (r.status = .error → r.error.getD "" ≠ "") := by
      simp [Proper, hdeleted, hr]
    have hfound := accords_found_iff (s := { s with phase := .delivering o }) rfl hdeleted hr
    rw [hr] at h
    rw [hproper, hfound]
    exact stores_await_iff (hI.clean r hr) h

/-- **One step.** -/
theorem follows_step (hI : Inv id s) {a : Action} (h : step id s a = some s') : Follows id s a s' := by
  cases a with
  | loadOrStore loaded =>
    simp only [step] at h
    split_ifs at h
    · exact .quiet hI h rfl rfl rfl trivial
    · exact .quiet hI h rfl rfl rfl trivial
  | «return» result =>
    simp only [step] at h
    split_ifs at h
    exact .quiet hI h rfl rfl rfl trivial
  | contextDone =>
    simp only [step] at h
    split_ifs at h
    cases h
    exact ⟨hI.congr rfl rfl, fun hacc => iff_of_true hacc trivial⟩
  | fireCancel =>
    simp only [step] at h
    split_ifs at h
    cases h
    exact ⟨hI.congr rfl rfl, fun hacc => iff_of_true hacc trivial⟩
  | durableCancel now =>
    simp only [step] at h
    split_ifs at h
    have hiff := accords_write_iff h
    exact ⟨Inv.of_write h (hI.congr rfl rfl) rfl, hiff⟩
  | parkConflict =>
    simp only [step] at h
    split at h
    · exact .quiet hI h rfl rfl rfl trivial
    · cases h
  | stop =>
    simp only [step] at h
    split at h
    · cases h
    · split_ifs at h
      · exact .quiet hI h rfl rfl rfl trivial
      · exact .quiet hI h rfl rfl rfl trivial
    · cases h
  | cancelCompleted =>
    simp only [step] at h
    split at h
    · split_ifs at h
      exact .quiet hI h rfl rfl rfl trivial
    · cases h
  | check =>
    simp only [step] at h
    split at h
    · split at h
      · exact .quiet hI h rfl rfl rfl trivial
      · exact .quiet hI h rfl rfl rfl trivial
    · cases h
  | cancelInline now =>
    simp only [step] at h
    split at h
    · obtain ⟨-, -, -, hphase, -⟩ := write_cases h
      refine ⟨Inv.of_write h (hI.congr rfl rfl) rfl, fun _ => iff_of_true ?_ trivial⟩
      exact accords_of_not_delivering (by rw [hphase]; rfl)
    · cases h
  | releaseCancelled =>
    simp only [step] at h
    split_ifs at h
    exact .quiet hI h rfl rfl rfl trivial
  | encode ok =>
    simp only [step] at h
    split at h
    · rename_i result _
      cases h
      exact follows_encode hI ok result
    · cases h
  | record now =>
    simp only [step] at h
    split at h
    · exact follows_record hI h
    · cases h
  | await =>
    simp only [step] at h
    split_ifs at h
    obtain ⟨o, ho, rfl⟩ := Option.map_eq_some_iff.1 h
    exact follows_await hI ho
  | deliver =>
    simp only [step] at h
    split at h
    · exact .quiet hI h rfl rfl rfl trivial
    · cases h
  | others op =>
    simp only [step] at h
    split_ifs at h with hop
    exact ⟨.of_write h hI hop, accords_write_iff h⟩

theorem inv_init (h : (system id).init s) : Inv id s ∧ Accords id s := by
  obtain ⟨⟨r, hr, hst⟩, hphase, -, -, -⟩ := h
  refine ⟨⟨fun _ => ⟨r, hr⟩, fun r' hr' hsuccess => ?_⟩, accords_of_not_delivering (by rw [hphase]; rfl)⟩
  obtain rfl := Option.some.inj (Eq.trans (Eq.symm hr) hr')
  rw [hst] at hsuccess
  cases hsuccess

end Runs

/-- **A finished run leaves a finished row.** Whatever the function returns and whatever else happens to the
row: from the moment the run knows what to deliver until it delivers, the row is in a terminal status and has
the outcome, or it was deleted, precisely if every result that is to be recorded can be encoded, no parked run
reads a failure with an empty error text, and nobody moves the row to another status in between. -/
theorem delivered_stored_iff (id : String) {s t : State} {tr : List (Transition State Action)}
    (hs : (system id).init s) (h : Run (system id) s tr t) :
    (∀ x ∈ tr, Accords id x.post) ↔ ∀ x ∈ tr, Proper id x.pre x.act :=
  Run.forall_post_iff (I := Inv id) (P := Accords id) (fun _ hs => inv_init hs)
    (fun _ _ _ hI hstep => (follows_step hI hstep).1)
    (fun _ _ _ hI hacc hstep => (follows_step hI hstep).2 hacc) hs h

def start : State where
  table := .insert .empty (({ workflowID := "w", status := .pending, name := "f" } :
    InsertWorkflowStatusInput).row "app")

theorem init_start : (system "w").init start := by
  obtain ⟨r, hr, hst⟩ := (Option.any_eq_true _ _).1
    (show (start.row "w").any (·.status = .pending) = true by decide +kernel)
  exact ⟨⟨r, hr, by simpa using hst⟩, rfl, rfl, rfl, rfl⟩

def encodeFails : List Action :=
  [.loadOrStore false, .return (.success none), .stop, .check, .encode false, .deliver]

/-- Another execution fails with an empty message; this one is refused and parks. -/
def silentError : List Action :=
  [.loadOrStore false, .return (.success (some "1")), .stop, .check, .encode true,
   .others (.updateWorkflowOutcome "w" true (some "2") (some "") 1), .record 2, .await, .deliver]

/-- A cancelled workflow is resumed after the parked run has read its row. -/
def resumedLate : List Action :=
  [.loadOrStore false, .return (.success (some "1")), .stop, .check, .encode true,
   .others (.cancelWorkflows ["w"] 1), .record 2, .await, .others (.resumeWorkflows ["w"] "" 3), .deliver]

/-- What the run has delivered, whether the row was deleted, and its status. -/
def State.delivery (s : State) : Phase × Bool × Option Status :=
  (s.phase, s.deleted, (s.row "w").map (·.status))

/-- A run whose result cannot be encoded ends with its row `PENDING`; a parked run may deliver a success for a
workflow that failed, and a cancellation for one that is back on its queue. -/
theorem delivered_not_stored :
    (system "w").init start ∧
    ((exec (system "w") start encodeFails).map State.delivery =
        some (.delivered .serializeOutput, false, some .pending) ∧
      ¬ ∀ x ∈ trace (system "w") start encodeFails, Accords "w" x.post) ∧
    ((exec (system "w") start silentError).map State.delivery =
        some (.delivered (.value (some "2") none), false, some .error) ∧
      ¬ ∀ x ∈ trace (system "w") start silentError, Accords "w" x.post) ∧
    ((exec (system "w") start resumedLate).map State.delivery =
        some (.delivered .workflowCancelled, false, some .enqueued) ∧
      ¬ ∀ x ∈ trace (system "w") start resumedLate, Accords "w" x.post) :=
  ⟨init_start, by decide +kernel, by decide +kernel, by decide +kernel⟩

/-- The context is cancelled while the function runs; the workflow is resumed, claimed and finished by another
execution before the parked run reads the row. -/
def takenBack : List Action :=
  [.loadOrStore false, .contextDone, .fireCancel, .return (.error .cancellation none "context canceled"),
   .stop, .durableCancel 1, .cancelCompleted, .releaseCancelled, .others (.resumeWorkflows ["w"] "" 2),
   .others (.dequeueWorkflows ⟨"e", "v", "app", false⟩ ["w"] 3),
   .others (.updateWorkflowOutcome "w" false (some "42") (some "") 4), .await, .deliver]

theorem delivered_stored_takenBack :
    ∃ t, Run (system "w") start (trace (system "w") start takenBack) t ∧
      t.delivery = (.delivered (.value (some "42") none), false, some .success) ∧
      ∀ x ∈ trace (system "w") start takenBack, Accords "w" x.post := by
  obtain ⟨t, ht, hdelivery⟩ := Option.map_eq_some_iff.1
    (show (exec (system "w") start takenBack).map State.delivery =
      some (.delivered (.value (some "42") none), false, some .success) by decide +kernel)
  have hrun := run_exec ht
  exact ⟨t, hrun, hdelivery, (delivered_stored_iff "w" init_start hrun).2 (by decide +kernel)⟩

end Dbos.Delivery
