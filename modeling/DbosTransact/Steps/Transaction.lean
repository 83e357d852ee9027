import DbosTransact.Steps.Policy

/-!
# `RunAsTransaction` on the system database and on another one

A data source that shares the system database is served by `runAsTxn`: one transaction around the retry
policy, each attempt inside a savepoint, and the retry of transaction conflicts around the whole. Any other
is served the other way round: the conflict retry, with a transaction for each attempt, stands inside the
retry policy. Both are run on the same sequence of results of the function, with nothing else failing.
Results are compared in the form in which they are recorded.
-/

namespace Dbos.Transaction

open Retry

/-- A call of `RunAsTransaction`: the options, the dialect of the data source and the codec. The
serializer accepts nil, and its failures are not taken for transient driver errors. -/
structure Setting (α : Type*) where
  workflowID : String
  options : StepOptions
  dialect : Dialect
  nil : α
  encodedNil : Option String
  encode : α → Except GoError (Option String)
  serializeError : GoError → String
  deserializeError : String → GoError
  encode_nil : encode nil = .ok encodedNil
  encode_error : ∀ v e, encode v = .error e →
    dialect.retryable (newStepExecutionError workflowID options.stepName
      (.wrapf "failed to serialize step output" e)) = false

/-- What one call of the function produces: a success, an application error, which is none that the
retries of `sysdb` would take, or a transaction conflict raised by one of its statements. -/
inductive Attempt {α : Type*} (S : Setting α)
  | success (v : α)
  | application (v : α) (err : GoError) (h : S.dialect.retryable err = false)
  | conflict (v : α) (err : GoError) (h : S.dialect.isRetryableTransaction err = true)

structure Durable where
  output : Option String
  errStr : Option String
  deriving DecidableEq, Repr

inductive Outcome
  | returned (result : Durable) (checkpoint : Option Durable)
  /-- the closure of `runAsTxn` reads its checkpoint again and again -/
  | spinning (checkpoint : Durable)
  deriving DecidableEq, Repr

/-- The course of a call: its outcome, unless more attempts are needed; the errors of the function
after which it ran again in the same transaction; and the error of its last run, if that was
checkpointed as the error of the step. -/
structure Report where
  outcome : Option Outcome
  retriedInPlace : List GoError
  checkpointed : Option GoError

variable {α : Type*} (S : Setting α)

def Attempt.result {S : Setting α} : Attempt S → α × Option GoError
  | .success v => (v, none)
  | .application v err _ | .conflict v err _ => (v, some err)

def encodeFailure (message : String) (e : GoError) : GoError :=
  newStepExecutionError S.workflowID S.options.stepName (.wrapf message e)

/-- The outcome of an output that cannot be encoded: nothing is checkpointed. -/
def unencodable (message : String) (e : GoError) : Outcome :=
  .returned ⟨S.encodedNil, some (S.serializeError (encodeFailure S message e))⟩ none

/-! ### In the system database -/

/-- `runAsTxn` once a checkpoint is committed: an error that is retryable makes the closure run
again, and it returns what it then reads back, unless that is retryable too. -/
def afterCommit (err : GoError) (d : Durable) : Outcome :=
  if S.dialect.retryable err then
    let replayed := if d.errStr = some "" then none else d.errStr
    if replayed.any fun t => S.dialect.retryable (S.deserializeError t) then .spinning d
    else .returned { d with errStr := replayed } (some d)
  else .returned d (some d)

/-- `runAsTxn` after `executeStepWithRetry`: the output of the last attempt is recorded, also with an
error. -/
def recordInTxn : Final α GoError → Outcome
  | .success v =>
    match S.encode v with
    | .ok o => .returned ⟨o, none⟩ (some ⟨o, none⟩)
    | .error e => unencodable S "failed to serialize step output" e
  | .failure v _ err =>
    match S.encode v with
    | .ok o => afterCommit S err ⟨o, some (S.serializeError err)⟩
    | .error e => unencodable S "failed to serialize step output" e

def recordedError : Final α GoError → Option GoError
  | .success _ => none
  | .failure v last _ =>
    match S.encode v with
    | .ok _ => some last
    | .error _ => none

/-- The policy's view of the attempts of `runAsTxn`. -/
def policyRun (rs : List (Attempt S)) : Run α GoError :=
  S.options.execute S.workflowID (rs.map Attempt.result)

/-- `runAsTxn`: every run of the policy is a savepoint of the one transaction. -/
def runAsTxn (rs : List (Attempt S)) : Report where
  outcome := (policyRun S rs).final.map (recordInTxn S)
  retriedInPlace := (policyRun S rs).retried
  checkpointed := (policyRun S rs).final.bind (recordedError S)

/-! ### In another database -/

/-- `runTxnOnce`: a transaction for one run of the function. -/
def runTxnOnce : Attempt S → α × Option GoError
  | .success v =>
    match S.encode v with
    | .ok _ => (v, none)
    | .error e => (S.nil, some (encodeFailure S "failed to serialize transaction output" e))
  | .application _ err _ | .conflict _ err _ => (S.nil, some err)

/-- `runTxnResilient`, as often as it is called: errors that are retryable are absorbed. -/
def runTxnResilient (rs : List (Attempt S)) : List (α × Option GoError) :=
  results (absorb S.dialect.retryable) () () (rs.map (runTxnOnce S))

/-- `RunAsTransaction` after `executeStepWithRetry`. -/
def recordSeparately : Final α GoError → Outcome
  | .success v =>
    match S.encode v with
    | .ok o => .returned ⟨o, none⟩ (some ⟨o, none⟩)
    | .error e => unencodable S "failed to serialize transaction output" e
  | .failure v _ err =>
    match S.encode v with
    | .ok o => .returned ⟨o, some (S.serializeError err)⟩ (some ⟨o, some (S.serializeError err)⟩)
    | .error e => unencodable S "failed to serialize transaction output" e

/-- `RunAsTransaction` on a data source of its own; every run of the function begins a
transaction. -/
def twoDatabases (rs : List (Attempt S)) : Report :=
  let run := S.options.execute S.workflowID (runTxnResilient S rs)
  { outcome := run.final.map (recordSeparately S)
    retriedInPlace := []
    checkpointed := run.final.bind (recordedError S) }

/-! ### One semantics -/

/-- Conflicts are retried with a fresh transaction and are not what is checkpointed. -/
def Report.ConflictsAfresh (r : Report) : Prop :=
  (∀ e ∈ r.retriedInPlace, S.dialect.isRetryableTransaction e = false) ∧
    ∀ e ∈ r.checkpointed, S.dialect.isRetryableTransaction e = false

/-- The two ways agree on what is returned and checkpointed, and treat conflicts as promised. -/
def SameSemantics (rs : List (Attempt S)) : Prop :=
  (runAsTxn S rs).outcome = (twoDatabases S rs).outcome ∧
    (runAsTxn S rs).ConflictsAfresh S ∧ (twoDatabases S rs).ConflictsAfresh S

/-- The condition on the results: up to where the policy, counting every attempt, stops, there is no
conflict; a success can be encoded; and a final error comes with an output that encodes like nil and,
should it be retryable as a whole, reads back as one that is not. -/
def Agreeable (rs : List (Attempt S)) : Prop :=
  (∀ e ∈ (policyRun S rs).retried, S.dialect.isRetryableTransaction e = false) ∧
    match (policyRun S rs).final with
    | none => True
    | some (.success v) => ∃ o, S.encode v = .ok o
    | some (.failure v last err) =>
      S.dialect.isRetryableTransaction last = false ∧ S.encode v = .ok S.encodedNil ∧
        (S.dialect.retryable err = true → S.serializeError err ≠ "" ∧
          S.dialect.retryable (S.deserializeError (S.serializeError err)) = false)

variable {S}

theorem mem_runTxnResilient {rs : List (Attempt S)} {v : α} {err : Option GoError}
    (h : (v, err) ∈ runTxnResilient S rs) :
    (err = none ∧ ∃ o, S.encode v = .ok o) ∨
      ∃ e, err = some e ∧ v = S.nil ∧ S.dialect.retryable e = false := by
  rw [runTxnResilient, results_absorb, List.mem_filter] at h
  obtain ⟨hmem, hnot⟩ := h
  obtain ⟨r, -, hr⟩ := List.mem_map.1 hmem
  have herror : ∀ e, (S.nil, some e) = (v, err) → ∃ e, err = some e ∧ v = S.nil ∧
      S.dialect.retryable e = false := by
    rintro e he
    cases he
    exact ⟨e, rfl, rfl, by simpa using hnot⟩
  cases r with
  | success w =>
    simp only [runTxnOnce] at hr
    split at hr
    next o ho =>
      cases hr
      exact .inl ⟨rfl, o, ho⟩
    next => exact .inr (herror _ hr)
  | application w e he => exact .inr (herror e hr)
  | conflict w e he => exact .inr (herror e hr)

theorem twoDatabases_ne_unencodable (rs : List (Attempt S)) (message : String) (e : GoError) :
    (twoDatabases S rs).outcome ≠ some (unencodable S message e) := by
  simp only [twoDatabases]
  intro h
  obtain ⟨final, hfinal, hrec⟩ := Option.map_eq_some_iff.1 h
  cases final with
  | success v =>
    obtain ⟨-, o, ho⟩ | ⟨_, he, -⟩ := mem_runTxnResilient (mem_of_final_success _ hfinal)
    · simp [recordSeparately, ho, unencodable] at hrec
    · cases he
  | failure v last err =>
    obtain ⟨he, -⟩ | ⟨e', -, rfl, -⟩ := mem_runTxnResilient (mem_of_final_failure _ hfinal)
    · cases he
    · simp [recordSeparately, S.encode_nil, unencodable] at hrec

theorem twoDatabases_conflictsAfresh (rs : List (Attempt S)) :
    (twoDatabases S rs).ConflictsAfresh S := by
  refine ⟨by simp [twoDatabases], fun e he => ?_⟩
  obtain ⟨final, hfinal, hrec⟩ := Option.bind_eq_some_iff.1 (Option.mem_def.1 he)
  cases final with
  | success v => cases hrec
  | failure v last err =>
    obtain ⟨he, -⟩ | ⟨e', he', rfl, hnot⟩ := mem_runTxnResilient (mem_of_final_failure _ hfinal)
    · cases he
    · obtain rfl : last = e' := by simpa using he'
      simp only [recordedError, S.encode_nil] at hrec
      obtain rfl : last = e := by simpa using hrec
      simp only [Dialect.retryable, Bool.or_eq_false_iff] at hnot
      exact hnot.2

/-- The result that the policy sees on another database, when it has met no conflict here. -/
def Final.withoutOutput (S : Setting α) : Final α GoError → Final α GoError
  | .success v => .success v
  | .failure _ last err => .failure S.nil last err

/-- As long as the policy meets no conflict and no output that cannot be encoded, it sees the same
results both ways. -/
theorem final_runTxnResilient (s : Progress) (rs : List (Attempt S))
    (hretried : ∀ e ∈ (loop (S.options.decide S.workflowID) s (rs.map Attempt.result)).retried,
      S.dialect.isRetryableTransaction e = false)
    (hfinal : ∀ f ∈ (loop (S.options.decide S.workflowID) s (rs.map Attempt.result)).final,
      match f with
      | .success v => ∃ o, S.encode v = .ok o
      | .failure _ last _ => S.dialect.isRetryableTransaction last = false) :
    (loop (S.options.decide S.workflowID) s (runTxnResilient S rs)).final =
      (loop (S.options.decide S.workflowID) s (rs.map Attempt.result)).final.map
        (Final.withoutOutput S) := by
  rw [runTxnResilient, results_absorb]
  induction rs generalizing s with
  | nil => rfl
  | cons r rs ih =>
    cases r with
    | success v =>
      obtain ⟨o, ho⟩ := hfinal (.success v) rfl
      simp [runTxnOnce, ho, Attempt.result, Final.withoutOutput]
    | application v e he =>
      have hkept : ((Attempt.application v e he :: rs).map (runTxnOnce S)).filter
          (fun r => !r.2.any S.dialect.retryable) = (S.nil, some e) ::
            (rs.map (runTxnOnce S)).filter (fun r => !r.2.any S.dialect.retryable) := by
        simp [runTxnOnce, he]
      rw [hkept]
      simp only [List.map_cons, Attempt.result] at hretried hfinal ⊢
      cases hd : S.options.decide S.workflowID s e with
      | again s' =>
        rw [loop_again _ hd] at hretried hfinal ⊢
        rw [loop_again _ hd]
        exact ih s' (fun e' he' => hretried e' (List.mem_cons_of_mem _ he')) hfinal
      | stop err =>
        rw [loop_stop _ hd, loop_stop _ hd]
        rfl
    | conflict v e he =>
      simp only [List.map_cons, Attempt.result] at hretried hfinal
      exfalso
      cases hd : S.options.decide S.workflowID s e with
      | again s' =>
        rw [loop_again _ hd] at hretried
        exact absurd he (by simp [hretried e List.mem_cons_self])
      | stop err =>
        rw [loop_stop _ hd] at hfinal
        exact absurd he (by simp [hfinal _ rfl])

theorem outcome_twoDatabases {rs : List (Attempt S)} {final : Option (Final α GoError)}
    (hrun : (policyRun S rs).final = final)
    (hretried : ∀ e ∈ (policyRun S rs).retried, S.dialect.isRetryableTransaction e = false)
    (hfinal : ∀ f ∈ final, match f with
      | .success v => ∃ o, S.encode v = .ok o
      | .failure _ last _ => S.dialect.isRetryableTransaction last = false) :
    (twoDatabases S rs).outcome =
      final.map fun f => recordSeparately S (Final.withoutOutput S f) := by
  subst hrun
  have hkey := final_runTxnResilient {} rs hretried hfinal
  simp only [twoDatabases, StepOptions.execute, hkey, Option.map_map]
  rfl

/-- `runAsTxn` returns an error as the other way does precisely when the output encodes like nil and
the error is not retried from its checkpoint. -/
theorem afterCommit_eq_iff {o : Option String} {last err : GoError} :
    afterCommit S err ⟨o, some (S.serializeError err)⟩ =
        recordSeparately S (.failure S.nil last err) ↔
      o = S.encodedNil ∧ (S.dialect.retryable err = true → S.serializeError err ≠ "" ∧
        S.dialect.retryable (S.deserializeError (S.serializeError err)) = false) := by
  simp only [recordSeparately, S.encode_nil, afterCommit]
  by_cases hre : S.dialect.retryable err = true
  · by_cases hempty : S.serializeError err = ""
    · simp [hre, hempty]
    · by_cases hspin : S.dialect.retryable (S.deserializeError (S.serializeError err)) = true
      · simp [hre, hempty, hspin]
      · simp [hre, hempty, hspin]
  · simp [hre]

theorem agreeable_of_sameSemantics {rs : List (Attempt S)} (h : SameSemantics S rs) :
    Agreeable S rs := by
  obtain ⟨heq, ⟨hretried, hchecked⟩, -⟩ := h
  refine ⟨hretried, ?_⟩
  have hne := twoDatabases_ne_unencodable rs "failed to serialize step output"
  rw [← heq] at hne
  cases hfinal : (policyRun S rs).final with
  | none => trivial
  | some final =>
    cases final with
    | success v =>
      cases hv : S.encode v with
      | ok o => exact ⟨o, hv⟩
      | error e => exact (hne e (by simp [runAsTxn, hfinal, recordInTxn, hv])).elim
    | failure v last err =>
      cases hv : S.encode v with
      | error e => exact (hne e (by simp [runAsTxn, hfinal, recordInTxn, hv])).elim
      | ok o =>
        have hlast : S.dialect.isRetryableTransaction last = false :=
          hchecked last (by simp [runAsTxn, hfinal, recordedError, hv])
        rw [outcome_twoDatabases hfinal hretried (by simpa using hlast)] at heq
        have heq : afterCommit S err ⟨o, some (S.serializeError err)⟩ =
            recordSeparately S (.failure S.nil last err) := by
          simpa [runAsTxn, hfinal, recordInTxn, hv, Final.withoutOutput] using heq
        obtain ⟨rfl, hback⟩ := afterCommit_eq_iff.1 heq
        exact ⟨hlast, hv, hback⟩

theorem sameSemantics_of_agreeable {rs : List (Attempt S)} (h : Agreeable S rs) :
    SameSemantics S rs := by
  obtain ⟨hretried, hcond⟩ := h
  suffices (runAsTxn S rs).outcome = (twoDatabases S rs).outcome ∧
      ∀ e ∈ (runAsTxn S rs).checkpointed, S.dialect.isRetryableTransaction e = false from
    ⟨this.1, ⟨hretried, this.2⟩, twoDatabases_conflictsAfresh rs⟩
  cases hfinal : (policyRun S rs).final with
  | none =>
    rw [outcome_twoDatabases hfinal hretried (by simp)]
    simp [runAsTxn, hfinal]
  | some final =>
    rw [hfinal] at hcond
    cases final with
    | success v =>
      obtain ⟨o, ho⟩ := hcond
      rw [outcome_twoDatabases hfinal hretried (by simp [ho])]
      simp [runAsTxn, hfinal, recordInTxn, recordSeparately, recordedError, Final.withoutOutput, ho]
    | failure v last err =>
      obtain ⟨hlast, hv, hback⟩ := hcond
      rw [outcome_twoDatabases hfinal hretried (by simpa using hlast)]
      have heq : afterCommit S err ⟨S.encodedNil, some (S.serializeError err)⟩ =
          recordSeparately S (.failure S.nil last err) := afterCommit_eq_iff.2 ⟨rfl, hback⟩
      simp [runAsTxn, hfinal, recordInTxn, recordedError, Final.withoutOutput, hv, hlast, heq]

/-- **`RunAsTransaction` has one semantics** for a sequence of results precisely when the retry policy
of the step, counting every attempt, meets no transaction conflict before it stops, and what it stops
at is a success that can be encoded or an error without output. -/
theorem same_semantics_iff (S : Setting α) (rs : List (Attempt S)) :
    SameSemantics S rs ↔ Agreeable S rs :=
  ⟨agreeable_of_sameSemantics, sameSemantics_of_agreeable⟩

/-! ### A deadlock inside the function -/

/-- A step without retries on PostgreSQL, whose function returns a number. -/
def plainSetting : Setting (Option Nat) where
  workflowID := "W"
  options := { stepName := "transfer" }
  dialect := .postgres
  nil := none
  encodedNil := none
  encode := fun v => .ok (v.map toString)
  serializeError := GoError.errorText
  deserializeError := .new
  encode_nil := rfl
  encode_error := by simp

/-- A statement of the function is chosen as the victim of a deadlock. -/
def deadlock : GoError := .leaf (.postgres "40P01" "deadlock detected")

/-- **A conflict that becomes the error of the step**: the first attempt meets a deadlock, the second
would succeed. In the system database the deadlock is checkpointed as the error of the step, in
another database the function is run again. -/
theorem conflict_checkpointed :
    ∃ rs : List (Attempt plainSetting), ¬ SameSemantics plainSetting rs ∧
      (runAsTxn plainSetting rs).checkpointed = some deadlock ∧
      (twoDatabases plainSetting rs).outcome = some (.returned ⟨some "7", none⟩
        (some ⟨some "7", none⟩)) := by
  refine ⟨[.conflict none deadlock rfl, .success (some 7)], fun h => ?_, rfl, rfl⟩
  exact absurd (h.2.1.2 deadlock rfl) (by decide)

end Dbos.Transaction
