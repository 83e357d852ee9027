import DbosTransact.Steps.TwoDatabase

/-!
# Agreement of the two databases

The primary key of the completion table admits one committed transaction of the function. That the
checkpoint tells the same as the completion row depends on the mirror of a failure, whose result is ignored.
`Moves` says once what a step can do; the two invariants are derived from it.
-/

namespace Dbos.TwoDatabase

open Relational ReadCommitted Lts

variable {n : Nat} {c : Call} {s t : State n} {e : Fin n}

def CommittedOnce (s : State n) : Prop := s.user.committed.effects.length ≤ 1

/-- A checkpoint is a success with output `o` exactly when the function's transaction is committed
together with a completion row whose output is `o`. -/
def Agree (c : Call) (s : State n) : Prop :=
  ∀ r, s.row c = some r → ∀ o,
    (r.error = none ∧ r.output = o) ↔
      (s.user.committed.effects ≠ [] ∧ ∃ done, s.completion c = some done ∧ done.output = o)

/-- The condition on a step: when a failure is mirrored, the completion table holds no success of
the step, and the mirror is not given up unless a failure is there already. -/
def Mirrored (c : Call) (s : State n) : Action n → Prop
  | .mirror _ _ => (s.completion c).all (·.errStr.isSome) = true
  | .abandonMirror _ _ => (s.completion c).any (·.errStr.isSome) = true
  | _ => True

/-! ### What a step does -/

def Phase.writes (c : Call) (e : Fin n) : Phase → List (UserWrite n)
  | .ran _ _ _ => [.effect e]
  | .completed _ _ o => [.effect e, .insertCompletion (c.completionRow o none)]
  | _ => []

/-- The execution has inserted the completion row and not yet ended its transaction. -/
def Phase.locks : Phase → Bool
  | .completed _ _ _ => true
  | _ => false

theorem Phase.locks_of_writes {p : Phase} (h : p.writes c e = []) : p.locks = false := by
  cases p <;> first | rfl | cases h

/-- The output and error of a checkpoint are those of a completion row, but for the text of an
error. -/
def SameResult (output errStr : Option String) (r : CompletionRow) : Prop :=
  errStr.isNone = r.errStr.isNone ∧ (errStr = none → output = r.output)

/-- An execution that is going to record an outcome has it from the completion row. -/
def Phase.Settled (c : Call) (completion : Option CompletionRow) : Phase → Prop
  | .succeeded _ o => ∃ r, completion = some r ∧ r.errStr = none ∧ r.output = o
  | .recording i _ | .conflicted i _ =>
    (i.workflowID, i.stepID) = c.key ∧ ∃ r, completion = some r ∧ SameResult i.output i.errStr r
  | _ => True

theorem Phase.Settled.mono {p : Phase} {before after : Option CompletionRow}
    (h : p.Settled c before) (hle : ∀ r, before = some r → after = some r) : p.Settled c after := by
  cases p
  case succeeded startedAt o =>
    obtain ⟨r, hr, h⟩ := h
    exact ⟨r, hle r hr, h⟩
  case recording i stepError =>
    obtain ⟨hkey, r, hr, h⟩ := h
    exact ⟨hkey, r, hle r hr, h⟩
  case conflicted i stepError =>
    obtain ⟨hkey, r, hr, h⟩ := h
    exact ⟨hkey, r, hle r hr, h⟩
  all_goals trivial

inductive Moves (c : Call) (s : State n) (M : Prop) (t : State n) : Prop
  /-- a step outside the transaction, or the begin of one -/
  | goto (e : Fin n) (p : Phase) (huser : t.user = s.user) (hsys : t.sys = s.sys)
      (hphase : t.phase = Function.update s.phase e p) (hbefore : (s.phase e).writes c e = [])
      (hp : p.writes c e = [])
      (hset : M → (s.phase e).Settled c (s.completion c) → p.Settled c (s.completion c))
  | rollback (e : Fin n) (p : Phase) (huser : t.user = s.user.rollback (some e))
      (hsys : t.sys = s.sys) (hphase : t.phase = Function.update s.phase e p)
      (hp : p.writes c e = []) (hset : p.Settled c (s.completion c))
  | run (e : Fin n) (startedAt : Int) (p : Progress) (o : Option String)
      (huser : t.user = s.user.write (some e) (.effect e)) (hsys : t.sys = s.sys)
      (hphase : t.phase = Function.update s.phase e (.ran startedAt p o))
      (hbefore : s.phase e = .inTxn startedAt p)
  | complete (e : Fin n) (startedAt : Int) (p : Progress) (o : Option String)
      (huser : t.user = s.user.write (some e) (.insertCompletion (c.completionRow o none)))
      (hsys : t.sys = s.sys)
      (hphase : t.phase = Function.update s.phase e (.completed startedAt p o))
      (hbefore : s.phase e = .ran startedAt p o) (hfree : s.Unlocked c (some e))
      (hnone : s.completion c = none)
  | commit (e : Fin n) (startedAt : Int) (p : Progress) (o : Option String) (q : Phase)
      (huser : t.user = s.user.commit (userSchema n) (some e)) (hsys : t.sys = s.sys)
      (hphase : t.phase = Function.update s.phase e q)
      (hbefore : s.phase e = .completed startedAt p o) (hq : q.writes c e = [])
      (hset : q.Settled c (some (c.completionRow o none)))
  | mirror (e : Fin n) (startedAt : Int) (err : GoError) (q : Phase)
      (huser : t.user = (s.insertFailure c err).user) (hsys : t.sys = s.sys)
      (hphase : t.phase = Function.update s.phase e q) (hbefore : s.phase e = .failed startedAt err)
      (hq : q.writes c e = [])
      (hset : q.Settled c (some (c.completionRow none (some (c.serializeError err)))))
      (hfree : s.Unlocked c none) (hnone : s.completion c = none)
  | record (e : Fin n) (i : RecordOperationResultInput) (stepError : Option GoError) (q : Phase)
      (huser : t.user = s.user) (hsys : t.sys = (s.insertOperation i.row).sys)
      (hphase : t.phase = Function.update s.phase e q)
      (hbefore : s.phase e = .recording i stepError) (hq : q.writes c e = [])
      (hset : (s.phase e).Settled c (s.completion c) → q.Settled c (s.completion c))
      (hnone : s.row c = none)
  /-- a change of the status table -/
  | environment (huser : t.user = s.user) (hrow : t.row c = s.row c) (hphase : t.phase = s.phase)

/-! ### The phases between the attempts -/

/-- A phase without an open transaction and without an outcome to be recorded. -/
def Phase.Quiet (c : Call) (e : Fin n) (p : Phase) : Prop :=
  p.writes c e = [] ∧ ∀ completion, p.Settled c completion

theorem quiet_policy (startedAt : Int) (p : Progress) (err : GoError) :
    (c.policy startedAt p err).Quiet c e := by
  unfold Call.policy
  split <;> exact ⟨rfl, fun _ => trivial⟩

theorem quiet_afterFailure (startedAt : Int) (p : Progress) (err : GoError) :
    (c.afterFailure startedAt p err).Quiet c e := by
  unfold Call.afterFailure
  split
  · exact ⟨rfl, fun _ => trivial⟩
  · exact quiet_policy startedAt p err

theorem quiet_check (db : Db) (startedAt : Int) : (c.check db startedAt).Quiet c e := by
  unfold Call.check
  split <;> exact ⟨rfl, fun _ => trivial⟩

theorem writes_checkCompletion (completion : Option CompletionRow) (startedAt now : Int) :
    (c.checkCompletion completion startedAt now).writes c e = [] := by
  cases completion <;> rfl

theorem settled_checkCompletion (completion : Option CompletionRow) (startedAt now : Int) :
    (c.checkCompletion completion startedAt now).Settled c completion := by
  cases completion with
  | none => trivial
  | some r => exact ⟨rfl, r, rfl, rfl, fun _ => rfl⟩

theorem settled_recordFailure {r : CompletionRow} (startedAt now : Int) (err : GoError)
    (hr : r.errStr.isSome = true) : (c.recordFailure startedAt now err).Settled c (some r) := by
  obtain ⟨text, htext⟩ := Option.isSome_iff_exists.1 hr
  refine ⟨rfl, r, rfl, ?_, fun h => by cases h⟩
  rw [htext]
  rfl

theorem Moves.quiet {M : Prop} {p : Phase} (huser : t.user = s.user) (hsys : t.sys = s.sys)
    (hphase : t.phase = Function.update s.phase e p) (hbefore : (s.phase e).writes c e = [])
    (hp : p.Quiet c e) : Moves c s M t :=
  .goto e p huser hsys hphase hbefore hp.1 fun _ _ => hp.2 _

theorem Moves.abort {M : Prop} {p : Phase} (huser : t.user = s.user.rollback (some e))
    (hsys : t.sys = s.sys) (hphase : t.phase = Function.update s.phase e p) (hp : p.Quiet c e) :
    Moves c s M t :=
  .rollback e p huser hsys hphase hp.1 (hp.2 _)

theorem quiet_done (o : Outcome) : (Phase.done o).Quiet c e := ⟨rfl, fun _ => trivial⟩

/-! ### The steps, one by one -/

section Steps

variable {M : Prop}

theorem moves_runStep {r : Returned} (h : runStep c s e r = some t) : Moves c s M t := by
  unfold runStep at h
  split at h
  next startedAt p hp =>
    split at h
    next o => cases h; exact .run e startedAt p o rfl rfl rfl hp
    next => cases h; exact .abort rfl rfl rfl (quiet_afterFailure ..)
    next => cases h; exact .abort rfl rfl rfl (quiet_afterFailure ..)
  next => cases h

theorem moves_recordCompletionStep (h : recordCompletionStep c s e = some t) : Moves c s M t := by
  unfold recordCompletionStep at h
  split at h
  next startedAt p o hp =>
    split_ifs at h with hfree hsome
    · cases h
      exact .abort rfl rfl rfl (quiet_afterFailure ..)
    · cases h
      exact .complete e startedAt p o rfl rfl rfl hp hfree (Option.not_isSome_iff_eq_none.1 hsome)
  next => cases h

theorem moves_cancelWaitStep {ctxErr : CauseKind} {cause : GoError}
    (h : cancelWaitStep c s e ctxErr cause = some t) : Moves c s M t := by
  unfold cancelWaitStep at h
  split at h
  next hp => cases h; exact .quiet rfl rfl rfl (by rw [hp]; rfl) (quiet_policy ..)
  next hp => cases h; exact .quiet rfl rfl rfl (by rw [hp]; rfl) ⟨rfl, fun _ => trivial⟩
  next => cases h

theorem moves_interruptStep {ctxErr : CauseKind} (h : interruptStep c s e ctxErr = some t) :
    Moves c s M t := by
  unfold interruptStep at h
  split at h
  next hp => cases h; exact .quiet rfl rfl rfl (by rw [hp]; rfl) (quiet_done _)
  next hp => cases h; exact .quiet rfl rfl rfl (by rw [hp]; rfl) (quiet_done _)
  next => cases h

theorem moves_mirrorStep {now : Int} (h : mirrorStep c s e now = some t) :
    Moves c s (Mirrored c s (.mirror e now)) t := by
  unfold mirrorStep at h
  split at h
  next startedAt err hp =>
    split_ifs at h with hfree hsome
    · cases h
      obtain ⟨r, hr⟩ := Option.isSome_iff_exists.1 hsome
      refine .goto e _ rfl rfl rfl (by rw [hp]; rfl) rfl fun hM _ => ?_
      rw [hr]
      exact settled_recordFailure startedAt now err (by simpa [Mirrored, hr] using hM)
    · cases h
      exact .mirror e startedAt err _ rfl rfl rfl hp rfl (settled_recordFailure _ _ _ rfl) hfree
        (Option.not_isSome_iff_eq_none.1 hsome)
  next => cases h

theorem moves_mirrorUnacknowledgedStep (h : mirrorUnacknowledgedStep c s e = some t) :
    Moves c s M t := by
  unfold mirrorUnacknowledgedStep at h
  split at h
  next startedAt err hp =>
    split_ifs at h with hor
    cases h
    have hfree : s.Unlocked c none := by
      by_contra hlocked
      exact hor (.inl hlocked)
    have hnone : s.completion c = none := by
      rw [← Option.not_isSome_iff_eq_none]
      exact fun hsome => hor (.inr hsome)
    exact .mirror e startedAt err (s.phase e) rfl rfl (Function.update_eq_self e s.phase).symm hp
      (by rw [hp]; rfl) (by rw [hp]; trivial) hfree hnone
  next => cases h

theorem moves_abandonMirror {now : Int} (h : step c s (.abandonMirror e now) = some t) :
    Moves c s (Mirrored c s (.abandonMirror e now)) t := by
  simp only [step] at h
  split at h
  next startedAt err hp =>
    cases h
    refine .goto e _ rfl rfl rfl (by rw [hp]; rfl) rfl fun hM _ => ?_
    obtain ⟨r, hr, herr⟩ := (Option.any_eq_true _ _).1 (show (s.completion c).any _ = true from hM)
    rw [hr]
    exact settled_recordFailure startedAt now err herr
  next => cases h

theorem moves_insertStep (h : insertStep c s e = some t) : Moves c s M t := by
  unfold insertStep at h
  split at h
  next i stepError hp =>
    split_ifs at h with hsome
    · cases h
      refine .goto e _ rfl rfl rfl (by rw [hp]; rfl) rfl fun _ hset => ?_
      rw [hp] at hset
      exact hset
    · cases h
      exact .record e i stepError _ rfl rfl rfl hp rfl (fun _ => trivial)
        (Option.not_isSome_iff_eq_none.1 hsome)
  next => cases h

theorem moves_insertUnacknowledgedStep (h : insertUnacknowledgedStep c s e = some t) :
    Moves c s M t := by
  unfold insertUnacknowledgedStep at h
  split at h
  next i stepError hp =>
    split_ifs at h with hsome
    cases h
    exact .record e i stepError (s.phase e) rfl rfl (Function.update_eq_self e s.phase).symm hp
      (by rw [hp]; rfl) id (Option.not_isSome_iff_eq_none.1 hsome)
  next => cases h

theorem moves_readBackStep (h : readBackStep c s e = some t) : Moves c s M t := by
  unfold readBackStep at h
  split at h
  next hp =>
    split at h <;> cases h <;> exact .quiet rfl rfl rfl (by rw [hp]; rfl) (quiet_done _)
  next => cases h

theorem moves_failStep {err : GoError} (h : failStep c s e err = some t) : Moves c s M t := by
  unfold failStep at h
  split at h
  next hp => cases h; exact .quiet rfl rfl rfl (by rw [hp]; rfl) (quiet_done _)
  next hp => cases h; exact .quiet rfl rfl rfl (by rw [hp]; rfl) (quiet_done _)
  next hp => cases h; exact .quiet rfl rfl rfl (by rw [hp]; rfl) (quiet_afterFailure ..)
  next => cases h; exact .abort rfl rfl rfl (quiet_afterFailure ..)
  next => cases h; exact .abort rfl rfl rfl (quiet_afterFailure ..)
  next hp => cases h; exact .quiet rfl rfl rfl (by rw [hp]; rfl) (quiet_done _)
  next hp => cases h; exact .quiet rfl rfl rfl (by rw [hp]; rfl) (quiet_done _)
  next => cases h

/-- Every step moves the state in one of the ways of `Moves`. -/
theorem moves_step {a : Action n} (h : step c s a = some t) : Moves c s (Mirrored c s a) t := by
  cases a with
  | run e r => exact moves_runStep h
  | recordCompletion e => exact moves_recordCompletionStep h
  | cancelWait e ctxErr cause => exact moves_cancelWaitStep h
  | interrupt e ctxErr => exact moves_interruptStep h
  | mirror e now => exact moves_mirrorStep h
  | mirrorUnacknowledged e => exact moves_mirrorUnacknowledgedStep h
  | abandonMirror e now => exact moves_abandonMirror h
  | insert e => exact moves_insertStep h
  | insertUnacknowledged e => exact moves_insertUnacknowledgedStep h
  | readBack e => exact moves_readBackStep h
  | fail e err => exact moves_failStep h
  | setStatus status =>
    cases h
    exact .environment rfl rfl rfl
  | start e now =>
    simp only [step] at h
    split at h <;> cases h
    next hp => exact .quiet rfl rfl rfl (by rw [hp]; rfl) ⟨rfl, fun _ => trivial⟩
  | check e =>
    simp only [step] at h
    split at h <;> cases h
    next hp => exact .quiet rfl rfl rfl (by rw [hp]; rfl) (quiet_check ..)
  | checkCompletion e now =>
    simp only [step] at h
    split at h <;> cases h
    next hp =>
      exact .goto e _ rfl rfl rfl (by rw [hp]; rfl) (writes_checkCompletion ..)
        fun _ _ => settled_checkCompletion ..
  | beginTx e =>
    simp only [step] at h
    split at h <;> cases h
    next hp => exact .quiet rfl rfl rfl (by rw [hp]; rfl) ⟨rfl, fun _ => trivial⟩
  | commit e =>
    simp only [step] at h
    split at h <;> cases h
    next startedAt p o hp => exact .commit e startedAt p o _ rfl rfl rfl hp rfl ⟨_, rfl, rfl, rfl⟩
  | commitUnacknowledged e err =>
    simp only [step] at h
    split at h <;> cases h
    next startedAt p o hp =>
      obtain ⟨hq, hset⟩ := quiet_afterFailure (c := c) (e := e) startedAt p
        (c.stepError "failed to commit transaction" err)
      exact .commit e startedAt p o _ rfl rfl rfl hp hq (hset _)
  | checkpoint e now =>
    simp only [step] at h
    split at h <;> cases h
    next startedAt o hp =>
      refine .goto e _ rfl rfl rfl (by rw [hp]; rfl) rfl fun _ hset => ?_
      rw [hp] at hset
      obtain ⟨r, hr, herr, hout⟩ := hset
      exact ⟨rfl, r, hr, by rw [herr]; rfl, fun _ => hout.symm⟩
  | crash e =>
    simp only [step] at h
    split at h <;> cases h
    exact .abort rfl rfl rfl ⟨rfl, fun _ => trivial⟩

end Steps

/-! ### One transaction -/

/-- The open transactions hold the writes of their executions' phases, the key of the completion row
is locked by at most one of them and then free, and the committed effects are counted by the
completion row. -/
structure TxnInv (c : Call) (s : State n) : Prop where
  own : ∀ e, s.user.own (some e) = (s.phase e).writes c e
  locked : ∀ e, (s.phase e).locks = true → s.completion c = none
  unique : ∀ e e', (s.phase e).locks = true → (s.phase e').locks = true → e = e'
  linked : s.user.committed.effects.length =
    if (s.completion c).any (·.errStr.isNone) then 1 else 0

theorem txnInv_init (h : Init c s) : TxnInv c s := by
  obtain ⟨-, hnone, heffects, hpending, hidle⟩ := h
  refine ⟨fun e => ?_, fun e he => ?_, fun e _ he => ?_, ?_⟩
  · simp [Store.own, hpending, hidle e, Phase.writes]
  · exact hnone
  · simp [hidle e, Phase.locks] at he
  · simp [heffects, hnone]

theorem phase_cases {p : Phase} (hphase : t.phase = Function.update s.phase e p) (i : Fin n) :
    (i = e ∧ t.phase i = p) ∨ (i ≠ e ∧ t.phase i = s.phase i) := by
  rw [hphase]
  by_cases hi : i = e
  · exact .inl ⟨hi, by rw [hi, Function.update_self]⟩
  · exact .inr ⟨hi, Function.update_of_ne hi _ _⟩

theorem locks_cases {p : Phase} (hphase : t.phase = Function.update s.phase e p)
    (hp : p.locks = false) {i : Fin n} (hi : (t.phase i).locks = true) :
    i ≠ e ∧ (s.phase i).locks = true := by
  rcases phase_cases hphase i with ⟨-, h⟩ | ⟨hne, h⟩
  · rw [h, hp] at hi
    cases hi
  · exact ⟨hne, h ▸ hi⟩

theorem TxnInv.of_unlocked {p : Phase} (hs : TxnInv c s)
    (hphase : t.phase = Function.update s.phase e p) (hp : p.locks = false)
    (hself : t.user.own (some e) = p.writes c e)
    (hothers : ∀ i, i ≠ e → t.user.own (some i) = s.user.own (some i))
    (hlocked : ∀ i, i ≠ e → (s.phase i).locks = true → t.completion c = none)
    (hlinked : t.user.committed.effects.length =
      if (t.completion c).any (·.errStr.isNone) then 1 else 0) : TxnInv c t := by
  refine ⟨fun i => ?_, fun i hi => ?_, fun i j hi hj => ?_, hlinked⟩
  · rcases phase_cases hphase i with ⟨rfl, h⟩ | ⟨hne, h⟩
    · rw [h, hself]
    · rw [h, hothers i hne, hs.own i]
  · obtain ⟨hne, hi⟩ := locks_cases hphase hp hi
    exact hlocked i hne hi
  · exact hs.unique i j (locks_cases hphase hp hi).2 (locks_cases hphase hp hj).2

theorem TxnInv.not_locks {u : Option (Fin n)} {i : Fin n} (hs : TxnInv c s) (hfree : s.Unlocked c u)
    (hi : some i ≠ u) : (s.phase i).locks = false := by
  cases hp : s.phase i
  case completed startedAt p o =>
    have hw : .insertCompletion (c.completionRow o none) ∈ s.user.own (some i) := by
      rw [hs.own i, hp]
      simp [Phase.writes]
    exact (hfree.not_mem_rows hi hw (List.mem_singleton.2 rfl) (List.mem_singleton.2 rfl)).elim
  all_goals rfl

theorem completion_eq (hcommitted : t.user.committed = s.user.committed) :
    t.completion c = s.completion c := by
  unfold State.completion
  rw [hcommitted]

theorem TxnInv.of_committed_eq {p : Phase} (hs : TxnInv c s)
    (hcommitted : t.user.committed = s.user.committed)
    (hphase : t.phase = Function.update s.phase e p) (hp : p.locks = false)
    (hself : t.user.own (some e) = p.writes c e)
    (hothers : ∀ i, i ≠ e → t.user.own (some i) = s.user.own (some i)) : TxnInv c t := by
  refine hs.of_unlocked hphase hp hself hothers (fun i _ hi => ?_) ?_
  · rw [completion_eq hcommitted]
    exact hs.locked i hi
  · rw [completion_eq hcommitted, hcommitted]
    exact hs.linked

theorem find?_completionRow {d : UserDb n} (hnone : d.completions.find? c.key = none)
    (output errStr : Option String) :
    (d.completions.insert (c.completionRow output errStr)).find? c.key =
      some (c.completionRow output errStr) := by
  rw [Table.find?_insert, hnone]
  simp [Call.completionRow, Call.key]

theorem TxnInv.commit_eq {startedAt : Int} {p : Progress} {o : Option String} (hs : TxnInv c s)
    (hp : s.phase e = .completed startedAt p o)
    (huser : t.user = s.user.commit (userSchema n) (some e)) :
    t.user.committed.effects = s.user.committed.effects ++ [e] ∧
      t.completion c = some (c.completionRow o none) := by
  have hview : t.user.committed =
      { completions := s.user.committed.completions.insert (c.completionRow o none)
        effects := s.user.committed.effects ++ [e] } := by
    rw [huser, Store.committed_commit, Store.view, hs.own e, hp]
    rfl
  have hnone : s.completion c = none := hs.locked e (by rw [hp]; rfl)
  refine ⟨by rw [hview], ?_⟩
  unfold State.completion
  rw [hview]
  exact find?_completionRow hnone o none

theorem completion_mirror {err : GoError} (huser : t.user = (s.insertFailure c err).user)
    (hnone : s.completion c = none) :
    t.completion c = some (c.completionRow none (some (c.serializeError err))) := by
  unfold State.completion
  rw [huser]
  exact find?_completionRow hnone _ _

theorem some_ne {i : Fin n} (h : i ≠ e) : some e ≠ some i := fun he => h (Option.some.inj he).symm

/-- Every step keeps the invariant of the transactions. -/
theorem TxnInv.moves {M : Prop} (hs : TxnInv c s) (h : Moves c s M t) : TxnInv c t := by
  cases h with
  | goto e p huser _ hphase hbefore hp _ =>
    refine hs.of_committed_eq (by rw [huser]) hphase (Phase.locks_of_writes hp) ?_ (by simp [huser])
    rw [huser, hs.own e, hbefore, hp]
  | rollback e p huser _ hphase hp _ =>
    refine hs.of_committed_eq (by rw [huser]; rfl) hphase (Phase.locks_of_writes hp) ?_ fun i hi => ?_
    · rw [huser, Store.own_rollback_self, hp]
    · rw [huser, Store.own_rollback_of_ne _ (some_ne hi)]
  | run e startedAt p o huser _ hphase hbefore =>
    refine hs.of_committed_eq (by rw [huser]; rfl) hphase rfl ?_ fun i hi => ?_
    · rw [huser, Store.own_write_self, hs.own e, hbefore]
      rfl
    · rw [huser, Store.own_write_of_ne _ _ (some_ne hi)]
  | complete e startedAt p o huser _ hphase hbefore hfree hnone =>
    have hcommitted : t.user.committed = s.user.committed := by rw [huser]; rfl
    have hcompletion := completion_eq (c := c) hcommitted
    -- the key was free, so the lock is now held by `e` alone
    have hlocks : ∀ i, (t.phase i).locks = true → i = e := by
      intro i hi
      rcases phase_cases hphase i with ⟨hie, -⟩ | ⟨hne, h⟩
      · exact hie
      · rw [h, hs.not_locks hfree (some_ne hne).symm] at hi
        cases hi
    refine ⟨fun i => ?_, fun _ _ => hcompletion.trans hnone,
      fun i j hi hj => (hlocks i hi).trans (hlocks j hj).symm, ?_⟩
    · rcases phase_cases hphase i with ⟨rfl, h⟩ | ⟨hne, h⟩
      · rw [h, huser, Store.own_write_self, hs.own i, hbefore]
        rfl
      · rw [h, huser, Store.own_write_of_ne _ _ (some_ne hne), hs.own i]
    · rw [hcompletion, hcommitted]
      exact hs.linked
  | commit e startedAt p o q huser _ hphase hbefore hq _ =>
    obtain ⟨heffects, hcompletion⟩ := hs.commit_eq hbefore huser
    have hlocks : (s.phase e).locks = true := by rw [hbefore]; rfl
    refine hs.of_unlocked hphase (Phase.locks_of_writes hq) ?_ (fun i hi => ?_) (fun i hi hlock => ?_) ?_
    · rw [huser, Store.own_commit_self, hq]
    · rw [huser, Store.own_commit_of_ne _ _ (some_ne hi)]
    · exact (hi (hs.unique i e hlock hlocks)).elim
    · have hempty := hs.linked
      rw [hs.locked e hlocks] at hempty
      rw [heffects, hcompletion, List.length_append, hempty]
      rfl
  | mirror e startedAt err q huser _ hphase hbefore hq _ hfree hnone =>
    have hcompletion := completion_mirror huser hnone
    refine hs.of_unlocked hphase (Phase.locks_of_writes hq) ?_ (fun i _ => ?_) (fun i _ hlock => ?_) ?_
    · rw [hq]
      have hown : t.user.own (some e) = s.user.own (some e) := by rw [huser]; rfl
      rw [hown, hs.own e, hbefore]
      rfl
    · rw [huser]
      rfl
    · rw [hs.not_locks hfree (by simp)] at hlock
      cases hlock
    · have heffects : t.user.committed.effects = s.user.committed.effects := by rw [huser]; rfl
      rw [heffects, hs.linked, hnone, hcompletion]
      rfl
  | record e i stepError q huser _ hphase hbefore hq _ _ =>
    refine hs.of_committed_eq (by rw [huser]) hphase (Phase.locks_of_writes hq) ?_ (by simp [huser])
    rw [huser, hs.own e, hbefore, hq]
    rfl
  | environment huser _ hphase =>
    have hcompletion := completion_eq (c := c) (congrArg Store.committed huser)
    refine ⟨fun i => ?_, fun i hi => ?_, fun i j hi hj => ?_, ?_⟩
    · rw [huser, hphase, hs.own i]
    · rw [hcompletion]
      exact hs.locked i (by rw [← hphase]; exact hi)
    · rw [hphase] at hi hj
      exact hs.unique i j hi hj
    · rw [hcompletion, huser]
      exact hs.linked

/-! ### Agreement -/

/-- Every outcome that is recorded, or going to be, is the outcome of the completion row. -/
structure AgreeInv (c : Call) (s : State n) : Prop where
  txns : TxnInv c s
  phases : ∀ e, (s.phase e).Settled c (s.completion c)
  row : ∀ r, s.row c = some r → ∃ done, s.completion c = some done ∧ SameResult r.output r.error done

theorem agreeInv_init (h : Init c s) : AgreeInv c s := by
  refine ⟨txnInv_init h, fun e => ?_, fun r hr => ?_⟩
  · rw [h.2.2.2.2 e]
    trivial
  · rw [h.1] at hr
    cases hr

theorem AgreeInv.of_row_eq {p : Phase} (hs : AgreeInv c s) (ht : TxnInv c t) (hsys : t.sys = s.sys)
    (hphase : t.phase = Function.update s.phase e p)
    (hle : ∀ r, s.completion c = some r → t.completion c = some r)
    (hset : p.Settled c (t.completion c)) : AgreeInv c t := by
  refine ⟨ht, fun i => ?_, fun r hr => ?_⟩
  · rcases phase_cases hphase i with ⟨-, h⟩ | ⟨-, h⟩
    · rw [h]
      exact hset
    · rw [h]
      exact (hs.phases i).mono hle
  · have hr : s.row c = some r := by
      unfold State.row at hr ⊢
      rw [← hsys, hr]
    obtain ⟨done, hdone, hsame⟩ := hs.row r hr
    exact ⟨done, hle done hdone, hsame⟩

theorem row_record {i : RecordOperationResultInput} (hsys : t.sys = (s.insertOperation i.row).sys)
    (hkey : (i.workflowID, i.stepID) = c.key) (hnone : s.row c = none) : t.row c = some i.row := by
  show t.sys.operations.find? c.key = some i.row
  rw [hsys]
  show (s.sys.operations.insert i.row).find? c.key = some i.row
  rw [Table.find?_insert, show s.sys.operations.find? c.key = none from hnone]
  simp [RecordOperationResultInput.row, hkey]

/-- Every step which meets the condition keeps the two databases in agreement. -/
theorem AgreeInv.moves {M : Prop} (hs : AgreeInv c s) (hM : M) (h : Moves c s M t) :
    AgreeInv c t := by
  have ht := hs.txns.moves h
  cases h with
  | goto e p huser hsys hphase _ _ hset =>
    have hcompletion := completion_eq (c := c) (congrArg Store.committed huser)
    refine hs.of_row_eq ht hsys hphase (fun r hr => hcompletion.trans hr) ?_
    rw [hcompletion]
    exact hset hM (hs.phases e)
  | rollback e p huser hsys hphase _ hset =>
    have hcompletion : t.completion c = s.completion c := completion_eq (by rw [huser]; rfl)
    exact hs.of_row_eq ht hsys hphase (fun r hr => hcompletion.trans hr) (hcompletion ▸ hset)
  | run e startedAt p o huser hsys hphase _ =>
    have hcompletion : t.completion c = s.completion c := completion_eq (by rw [huser]; rfl)
    exact hs.of_row_eq ht hsys hphase (fun r hr => hcompletion.trans hr) trivial
  | complete e startedAt p o huser hsys hphase _ _ _ =>
    have hcompletion : t.completion c = s.completion c := completion_eq (by rw [huser]; rfl)
    exact hs.of_row_eq ht hsys hphase (fun r hr => hcompletion.trans hr) trivial
  | commit e startedAt p o q huser hsys hphase hbefore _ hset =>
    have hnone : s.completion c = none := hs.txns.locked e (by rw [hbefore]; rfl)
    refine hs.of_row_eq ht hsys hphase (by simp [hnone]) ?_
    rw [(hs.txns.commit_eq hbefore huser).2]
    exact hset
  | mirror e startedAt err q huser hsys hphase _ _ hset _ hnone =>
    refine hs.of_row_eq ht hsys hphase (by simp [hnone]) ?_
    rw [completion_mirror huser hnone]
    exact hset
  | record e i stepError q huser hsys hphase hbefore _ hset hnone =>
    have hcompletion := completion_eq (c := c) (congrArg Store.committed huser)
    have hsettled := hs.phases e
    have hq := hset hsettled
    rw [hbefore] at hsettled
    obtain ⟨hkey, done, hdone, hsame⟩ := hsettled
    refine ⟨ht, fun j => ?_, fun r hr => ⟨done, hcompletion.trans hdone, ?_⟩⟩
    · rw [hcompletion]
      rcases phase_cases hphase j with ⟨-, h⟩ | ⟨-, h⟩
      · rw [h]
        exact hq
      · rw [h]
        exact hs.phases j
    · rw [row_record hsys hkey hnone] at hr
      cases hr
      exact hsame
  | environment huser hrow hphase =>
    have hcompletion := completion_eq (c := c) (congrArg Store.committed huser)
    refine ⟨ht, fun i => ?_, fun r hr => ?_⟩
    · rw [hphase, hcompletion]
      exact hs.phases i
    · rw [hcompletion]
      exact hs.row r (hrow ▸ hr)

theorem TxnInv.committedOnce (hs : TxnInv c s) : CommittedOnce s := by
  unfold CommittedOnce
  rw [hs.linked]
  split_ifs
  · exact Nat.le_refl 1
  · exact Nat.zero_le 1

theorem AgreeInv.agree (hs : AgreeInv c s) : Agree c s := by
  intro r hr o
  obtain ⟨done, hdone, herr, hout⟩ := hs.row r hr
  have hlinked := hs.txns.linked
  simp only [hdone, Option.any_some, ← herr] at hlinked
  cases hcase : r.error with
  | none =>
    have heffects : s.user.committed.effects ≠ [] := by
      intro h
      simp [h, hcase] at hlinked
    simp [heffects, hdone, hout hcase]
  | some text =>
    have heffects : s.user.committed.effects = [] := by
      rw [← List.length_eq_zero_iff, hlinked, hcase]
      rfl
    simp [heffects]

/-- **The two databases.** The function's transaction is committed at most once in every run; and in
every run in which the mirror of a failure always meets its condition, a checkpoint is the outcome
that the user database tells. -/
theorem two_databases_agree (c : Call) (n : Nat) :
    (∀ t : State n, Reaches (system c n) (fun _ _ => True) t → CommittedOnce t) ∧
      ∀ t : State n, Reaches (system c n) (Mirrored c) t → Agree c t := by
  refine ⟨fun t ht => ?_, fun t ht => ?_⟩
  · have hinv : TxnInv c t := ht.invariant (I := TxnInv c) (fun _ => txnInv_init)
      fun _ _ _ hs _ hstep => hs.moves (moves_step hstep)
    exact hinv.committedOnce
  · have hinv : AgreeInv c t := ht.invariant (I := AgreeInv c) (fun _ => agreeInv_init)
      fun _ _ _ hs hM hstep => hs.moves hM (moves_step hstep)
    exact hinv.agree

/-! ### A lost acknowledgement -/

instance (c : Call) (s : State n) (a : Action n) : Decidable (Mirrored c s a) := by
  unfold Mirrored
  split <;> infer_instance

/-- A debit in the bank's own database, at the first step of `W`. -/
def debit : Call where
  workflowID := "W"
  stepID := 0
  options := { stepName := "debit" }
  dialect := .postgres
  serializer := "DBOS_JSON"
  encodedNil := none
  serializeError := GoError.errorText

def claimed (n : Nat) : State n where
  user := { committed := { completions := .empty, effects := [] }, pending := [] }
  sys :=
    { status := .insert .empty { workflowID := "W", status := .pending }
      waiters := .empty
      notifications := .empty
      events := .empty
      eventsHistory := .empty
      operations := .empty }
  phase := fun _ => .idle

theorem init_claimed (n : Nat) : Init debit (claimed n) := ⟨rfl, rfl, rfl, rfl, fun _ => rfl⟩

def enter {n : Nat} (e : Fin n) : List (Action n) := [.start e 0, .check e, .checkCompletion e 0]

def attempt {n : Nat} (e : Fin n) : List (Action n) :=
  [.beginTx e, .run e (.output (some "100")), .recordCompletion e]

/-- An error is checkpointed although the transaction is committed. -/
def wrongError (s : State n) : Bool :=
  (s.row debit).any (·.error.isSome) && (s.completion debit).isSome &&
    !s.user.committed.effects.isEmpty

theorem not_agree_of_wrongError (h : wrongError s = true) : ¬ Agree debit s := by
  intro hagree
  simp only [wrongError, Bool.and_eq_true, Bool.not_eq_true', List.isEmpty_eq_false_iff] at h
  obtain ⟨⟨hrow, hdone⟩, heffects⟩ := h
  obtain ⟨r, hr, herr⟩ := (Option.any_eq_true _ _).1 hrow
  obtain ⟨done, hdone⟩ := Option.isSome_iff_exists.1 hdone
  obtain ⟨hnone, -⟩ := (hagree r hr done.output).2 ⟨heffects, done, hdone, rfl⟩
  simp [hnone] at herr

/-- **An error for a committed transaction.** After a commit whose acknowledgement is lost the
function runs again and is refused by its own completion row; of two executions at once, the one
that is refused may be the first to insert its checkpoint. -/
theorem agreement_broken :
    (∃ t, Reaches (system debit 1) (fun _ _ => True) t ∧ ¬ Agree debit t) ∧
      ∃ t, Reaches (system debit 2) (fun _ _ => True) t ∧ ¬ Agree debit t := by
  constructor
  · obtain ⟨t, ht, hp⟩ := exists_reaches (S := system debit 1) (fun _ _ => True)
      (List.flatten [enter 0, attempt 0, [.commitUnacknowledged 0 (.leaf .eof)], attempt 0,
        [.mirror 0 1, .insert 0]])
      wrongError (init_claimed 1) (fun _ _ => trivial) (by decide +kernel)
    exact ⟨t, ht, not_agree_of_wrongError hp⟩
  · obtain ⟨t, ht, hp⟩ := exists_reaches (S := system debit 2) (fun _ _ => True)
      (List.flatten [enter 0, enter 1, attempt 0, [.commit 0], attempt 1, [.mirror 1 1, .insert 1]])
      wrongError (init_claimed 2) (fun _ _ => trivial) (by decide +kernel)
    exact ⟨t, ht, not_agree_of_wrongError hp⟩

/-- A crash after the lost acknowledgement, instead of another attempt: the recovered execution
replays the completion row. -/
theorem agree_after_crash : ∃ t, (Reaches (system debit 2) (Mirrored debit) t ∧
    (t.row debit).any (fun r => r.error = none ∧ r.output = some "100") = true) ∧ Agree debit t := by
  obtain ⟨t, ht, hp⟩ := exists_reaches (S := system debit 2) (Mirrored debit)
    (List.flatten [enter 0, attempt 0, [.commitUnacknowledged 0 (.leaf .eof), .crash 0], enter 1,
      [.insert 1]])
    (fun t => (t.row debit).any fun r => r.error = none ∧ r.output = some "100") (init_claimed 2)
    (by decide +kernel) (by decide +kernel)
  exact ⟨t, ⟨ht, hp⟩, (two_databases_agree debit 2).2 t ht⟩

end Dbos.TwoDatabase
