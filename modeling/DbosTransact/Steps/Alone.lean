import DbosTransact.Steps.Agreement
import DbosTransact.Steps.Transaction

/-!
# `RunAsTransaction` executed alone

An execution of `TwoDatabase.system` which nobody interferes with, and in which nothing but the function
fails, obtains and records what `Transaction.twoDatabases` says.
-/

namespace Dbos.TwoDatabase

open Relational ReadCommitted Retry Lts Transaction

variable {α : Type*} (S : Setting α) (stepID : Int) (serializer : String) {n : Nat} {e : Fin n}

/-- The call with the options and the codec of `S`. -/
def Call.ofSetting : Call where
  workflowID := S.workflowID
  stepID := stepID
  options := S.options
  dialect := S.dialect
  serializer := serializer
  encodedNil := S.encodedNil
  serializeError := S.serializeError

def returned : Attempt S → Returned
  | .success v =>
    match S.encode v with
    | .ok o => .output o
    | .error serErr => .unencodable serErr
  | .application _ err _ | .conflict _ err _ => .error err

/-- The execution `e` is at `p`; neither database tells anything of the step, and no transaction is
open. -/
structure Alone (c : Call) (e : Fin n) (p : Phase) (s : State n) : Prop where
  phase : s.phase e = p
  completion : s.completion c = none
  row : s.row c = none
  pending : s.user.pending = []

/-- The execution `e` has obtained and recorded `d`. -/
def Records (c : Call) (e : Fin n) (d : Durable) (s : State n) : Prop :=
  s.phase e = .done (.returned d.output d.errStr) ∧
    ∃ r, s.row c = some r ∧ r.output = d.output ∧ r.error = d.errStr

/-- Some statements lead from `s` to a state with `P`. -/
def Leads (c : Call) (s : State n) (P : State n → Prop) : Prop :=
  ∃ as t, exec (system c n) s as = some t ∧ P t

variable {c : Call} {s t : State n} {P Q : State n → Prop}

theorem Leads.trans (h : Leads c s Q) (hQ : ∀ t, Q t → Leads c t P) : Leads c s P := by
  obtain ⟨as, t, ht, hqt⟩ := h
  obtain ⟨bs, u, hu, hpu⟩ := hQ t hqt
  exact ⟨as ++ bs, u, (exec_append ht).trans hu, hpu⟩

theorem Leads.of_step {a : Action n} (h : step c s a = some t) (ht : P t) : Leads c s P :=
  ⟨[a], t, by simp [exec, system, h], ht⟩

theorem Alone.goto {p q : Phase} (hs : Alone c e p s) : Alone c e q (s.goto e q) :=
  ⟨Function.update_self .., hs.completion, hs.row, hs.pending⟩

theorem Alone.rollback {p q : Phase} (hs : Alone c e p s) : Alone c e q ((s.rollback e).goto e q) :=
  ⟨Function.update_self .., hs.completion, hs.row, by
    simp [State.goto, State.rollback, Store.rollback, hs.pending]⟩

theorem leads_record {i : RecordOperationResultInput} {stepError : Option GoError}
    (hp : s.phase e = .recording i stepError) (hrow : s.row c = none)
    (hkey : (i.workflowID, i.stepID) = c.key) :
    Leads c s (Records c e ⟨i.output, i.errStr⟩) := by
  have hstep : step c s (.insert e) =
      some ((s.insertOperation i.row).goto e (.done (.returned i.output i.errStr))) := by
    simp [step, insertStep, hp, hrow]
  refine .of_step hstep ⟨Function.update_self .., i.row, ?_, rfl, rfl⟩
  show (s.sys.operations.insert i.row).find? c.key = some i.row
  rw [Table.find?_insert, show s.sys.operations.find? c.key = none from hrow]
  simp [RecordOperationResultInput.row, hkey]

theorem leads_failed {startedAt : Int} {err : GoError} (hs : Alone c e (.failed startedAt err) s) :
    Leads c s (Records c e ⟨c.encodedNil, some (c.serializeError err)⟩) := by
  have hfree : s.Unlocked c none := by simp [State.Unlocked, Store.Free, hs.pending]
  have hmirror : step c s (.mirror e startedAt) =
      some ((s.insertFailure c err).goto e (c.recordFailure startedAt startedAt err)) := by
    simp [step, mirrorStep, hs.phase, hfree, hs.completion]
  have hnext : ((s.insertFailure c err).goto e (c.recordFailure startedAt startedAt err)).phase e =
      c.recordFailure startedAt startedAt err := Function.update_self ..
  obtain ⟨as, t, ht, hrec⟩ := leads_record hnext hs.row rfl
  exact ⟨.mirror e startedAt :: as, t, by simpa [exec, system, hmirror] using ht, hrec⟩

theorem leads_succeeded {startedAt : Int} {p : Progress} {o : Option String}
    (hs : Alone c e (.inTxn startedAt p) s) : Leads c s (Records c e ⟨o, none⟩) := by
  let s₁ := (s.write e (.effect e)).goto e (.ran startedAt p o)
  let s₂ := (s₁.write e (.insertCompletion (c.completionRow o none))).goto e (.completed startedAt p o)
  let s₃ := (s₂.commit e).goto e (.succeeded startedAt o)
  let i := c.recordInput o none c.serializer startedAt startedAt
  have hrun : step c s (.run e (.output o)) = some s₁ := by simp [step, runStep, hs.phase, s₁]
  have hcomplete : step c s₁ (.recordCompletion e) = some s₂ := by
    have hphase : s₁.phase e = .ran startedAt p o := Function.update_self ..
    have hfree : s₁.Unlocked c (some e) := by
      simp [s₁, State.Unlocked, State.goto, State.write, Store.Free, Store.write, hs.pending]
    have hnone : s₁.completion c = none := hs.completion
    simp [step, recordCompletionStep, hphase, hfree, hnone, s₂]
  have hcommit : step c s₂ (.commit e) = some s₃ := by
    have hphase : s₂.phase e = .completed startedAt p o := Function.update_self ..
    simp [step, hphase, s₃]
  have hcheckpoint : step c s₃ (.checkpoint e startedAt) = some (s₃.goto e (.recording i none)) := by
    have hphase : s₃.phase e = .succeeded startedAt o := Function.update_self ..
    simp [step, hphase, i]
  have hnext : (s₃.goto e (.recording i none)).phase e = .recording i none := Function.update_self ..
  obtain ⟨as, t, ht, hrec⟩ := leads_record hnext hs.row rfl
  refine ⟨[.run e (.output o), .recordCompletion e, .commit e, .checkpoint e startedAt] ++ as, t, ?_, hrec⟩
  simpa [exec, system, hrun, hcomplete, hcommit, hcheckpoint] using ht

variable {S stepID serializer}

theorem leads_failure {startedAt : Int} {p : Progress} {w : Wait} {r : Attempt S} {v : α}
    {err : GoError} (hs : Alone (.ofSetting S stepID serializer) e (.ready startedAt p w) s)
    (hr : runTxnOnce S r = (v, some err)) :
    Leads (.ofSetting S stepID serializer) s (Alone (.ofSetting S stepID serializer) e
      (Call.afterFailure (.ofSetting S stepID serializer) startedAt p err)) := by
  have hbegin : step (.ofSetting S stepID serializer) s (.beginTx e) =
      some (s.goto e (.inTxn startedAt p)) := by
    simp [step, hs.phase]
  refine (Leads.of_step hbegin (hs.goto (q := .inTxn startedAt p))).trans fun t ht => ?_
  suffices step (.ofSetting S stepID serializer) t (.run e (returned S r)) =
      some ((t.rollback e).goto e
        (Call.afterFailure (.ofSetting S stepID serializer) startedAt p err)) from
    .of_step this ht.rollback
  cases r with
  | success w =>
    simp only [runTxnOnce] at hr
    split at hr
    next => cases hr
    next serErr hserErr =>
      cases hr
      simp only [step, runStep, ht.phase, returned, hserErr]
      rfl
  | application w err' _ | conflict w err' _ =>
    cases hr
    simp only [step, runStep, ht.phase, returned]

theorem leads_success {startedAt : Int} {p : Progress} {w : Wait} {o : Option String}
    (hs : Alone c e (.ready startedAt p w) s) : Leads c s (Records c e ⟨o, none⟩) := by
  have hbegin : step c s (.beginTx e) = some (s.goto e (.inTxn startedAt p)) := by
    simp [step, hs.phase]
  exact (Leads.of_step hbegin (hs.goto (q := .inTxn startedAt p))).trans fun t ht =>
    leads_succeeded ht

/-! ### The retries -/

section Retries

variable {startedAt : Int} {p p' : Progress} {err err' : GoError}

theorem afterFailure_absorbed (h : c.dialect.retryable err = true) :
    c.afterFailure startedAt p err = .ready startedAt p .absorbed := if_pos h

theorem afterFailure_again (h : c.dialect.retryable err = false)
    (hd : c.options.decide c.workflowID p err = .again p') :
    c.afterFailure startedAt p err = .ready startedAt p' .backoff := by
  simp [Call.afterFailure, h, Call.policy, hd]

theorem afterFailure_stop (h : c.dialect.retryable err = false)
    (hd : c.options.decide c.workflowID p err = .stop err') :
    c.afterFailure startedAt p err = .failed startedAt err' := by
  simp [Call.afterFailure, h, Call.policy, hd]

end Retries

theorem runTxnOnce_cases (r : Attempt S) :
    (∃ v o, runTxnOnce S r = (v, none) ∧ S.encode v = .ok o) ∨
      ∃ err, runTxnOnce S r = (S.nil, some err) := by
  cases r with
  | success v =>
    simp only [runTxnOnce]
    split
    next o ho => exact .inl ⟨v, o, rfl, ho⟩
    next => exact .inr ⟨_, rfl⟩
  | application v err _ | conflict v err _ => exact .inr ⟨err, rfl⟩

/-- The attempts, from any point of the two nested retries on. -/
theorem leads_attempts {startedAt : Int} {p : Progress} {w : Wait} {f : Final α GoError}
    (rs : List (Attempt S))
    (hs : Alone (.ofSetting S stepID serializer) e (.ready startedAt p w) s)
    (hf : (loop (S.options.decide S.workflowID) p (runTxnResilient S rs)).final = some f) :
    ∃ d, recordSeparately S f = .returned d (some d) ∧
      Leads (.ofSetting S stepID serializer) s (Records (.ofSetting S stepID serializer) e d) := by
  rw [runTxnResilient, results_absorb] at hf
  induction rs generalizing s p w with
  | nil => cases hf
  | cons r rs ih =>
    rw [List.map_cons] at hf
    obtain ⟨v, o, hr, ho⟩ | ⟨err, hr⟩ := runTxnOnce_cases r
    · rw [hr, List.filter_cons_of_pos (by simp), loop_success] at hf
      cases hf
      exact ⟨⟨o, none⟩, by simp [recordSeparately, ho], leads_success hs⟩
    · obtain ⟨as, t, ht, hnext⟩ := leads_failure hs hr
      rw [hr] at hf
      suffices ∃ d, recordSeparately S f = .returned d (some d) ∧
          Leads (.ofSetting S stepID serializer) t
            (Records (.ofSetting S stepID serializer) e d) by
        obtain ⟨d, hd, bs, u, hu, hrec⟩ := this
        exact ⟨d, hd, as ++ bs, u, (exec_append ht).trans hu, hrec⟩
      cases hretry : S.dialect.retryable err with
      | true =>
        -- the inner retry absorbs the error
        rw [List.filter_cons_of_neg (by simp [hretry])] at hf
        rw [afterFailure_absorbed (c := .ofSetting S stepID serializer) hretry] at hnext
        exact ih hnext hf
      | false =>
        rw [List.filter_cons_of_pos (by simp [hretry])] at hf
        cases hd : S.options.decide S.workflowID p err with
        | again p' =>
          rw [loop_again _ hd] at hf
          rw [afterFailure_again (c := .ofSetting S stepID serializer) hretry hd] at hnext
          exact ih hnext hf
        | stop err' =>
          rw [loop_stop _ hd] at hf
          rw [afterFailure_stop (c := .ofSetting S stepID serializer) hretry hd] at hnext
          cases hf
          exact ⟨⟨S.encodedNil, some (S.serializeError err')⟩,
            by simp [recordSeparately, S.encode_nil], leads_failed hnext⟩

theorem leads_enter {status : Status} (hs : Alone c e .idle s)
    (hstatus : s.sys.statusOf c.workflowID = some status) (hne : status ≠ .cancelled) :
    Leads c s (Alone c e (.ready 0 {} .none)) := by
  have hstart : step c s (.start e 0) = some (s.goto e (.started 0)) := by simp [step, hs.phase]
  have hnone : s.sys.checkOperationExecution c.workflowID c.stepID c.options.stepName = .ok none := by
    have hrow : s.sys.operation? c.workflowID c.stepID = none := hs.row
    cases status <;> first | exact absurd rfl hne | simp [Db.checkOperationExecution, hstatus, hrow]
  refine (Leads.of_step (P := fun t => Alone c e (.started 0) t ∧ t.sys = s.sys) hstart
    ⟨hs.goto, rfl⟩).trans ?_
  rintro t ⟨ht, hsys⟩
  have hcheck : step c t (.check e) = some (t.goto e (.checked 0)) := by
    simp [step, ht.phase, Call.check, hsys, hnone]
  refine (Leads.of_step hcheck (ht.goto (q := .checked 0))).trans fun u hu => ?_
  have hcompletion : step c u (.checkCompletion e 0) = some (u.goto e (.ready 0 {} .none)) := by
    simp [step, hu.phase, Call.checkCompletion, hu.completion]
  exact .of_step hcompletion hu.goto

/-- **Alone, the statements do what `twoDatabases` says.** For every sequence of results of the
function on which `twoDatabases` has an outcome, an execution of a workflow that is not cancelled
obtains and records it. -/
theorem exec_twoDatabases {rs : List (Attempt S)} {outcome : Transaction.Outcome}
    (hs : Init (.ofSetting S stepID serializer) s) {status : Status}
    (hstatus : s.sys.statusOf S.workflowID = some status) (hne : status ≠ .cancelled) (e : Fin n)
    (h : (twoDatabases S rs).outcome = some outcome) :
    ∃ d, outcome = .returned d (some d) ∧ Leads (.ofSetting S stepID serializer) s
      (Records (.ofSetting S stepID serializer) e d) := by
  obtain ⟨f, hf, rfl⟩ := Option.map_eq_some_iff.1 h
  obtain ⟨hrow, hcompletion, -, hpending, hidle⟩ := hs
  obtain ⟨as, t, ht, hready⟩ := leads_enter (c := .ofSetting S stepID serializer)
    ⟨hidle e, hcompletion, hrow, hpending⟩ hstatus hne
  obtain ⟨d, hd, bs, u, hu, hrec⟩ := leads_attempts rs hready hf
  exact ⟨d, hd, as ++ bs, u, (exec_append ht).trans hu, hrec⟩

theorem exec_twoDatabases_deadlock : Leads (.ofSetting plainSetting 0 "DBOS_JSON") (claimed 1)
    (Records (.ofSetting plainSetting 0 "DBOS_JSON") 0 ⟨some "7", none⟩) := by
  have hs : Init (.ofSetting plainSetting 0 "DBOS_JSON") (claimed 1) := ⟨rfl, rfl, rfl, rfl, fun _ => rfl⟩
  obtain ⟨d, hd, h⟩ := exec_twoDatabases hs (show _ = some Status.pending from rfl) (by decide) 0
    (show (twoDatabases plainSetting [.conflict none deadlock rfl, .success (some 7)]).outcome = _ from rfl)
  cases hd
  exact h

end Dbos.TwoDatabase
