import DbosTransact.Steps.Checkpoint
import DbosTransact.SysDb.Waiters

/-!
# The loser of a checkpoint race

An execution that finds a checkpoint already there is meant to obtain what it records, or an error that
matches `ErrConflictingWorkflowID` and so parks it (`LosersPark`).
-/

namespace Dbos.Checkpoint

open Relational ReadCommitted Lts

def Outcome.agrees (c : Call) : Outcome → OperationRow → Bool
  | .returned output errStr, r => nullableStrEq r.output output && nullableStrEq r.error errStr
  | .patched b, r => b = decide (r.functionName = c.stepName)
  | .handle childID, r => r.childWorkflowID = some childID
  | .failed _, _ | .reissued _, _ => false

/-- The recorded result, or an error on which `executeWorkflow` parks the execution. -/
def Outcome.parks (c : Call) (row : Option OperationRow) : Outcome → Bool
  | .failed err => err.isCode .conflictingID
  | o => row.any (o.agrees c)

/-- The execution has not lost, or has not finished, or obtained one of the two. -/
def Exec.Parks (c : Call) (row : Option OperationRow) (x : Exec) : Prop :=
  x.lost = true →
    match x.phase with
    | .done o => o.parks c row = true
    | _ => True

variable {n : Nat} {c : Call} {s t : State n} {e : Fin n}

/-- Every execution that lost the race obtained the recorded result or an error that parks it. -/
def LosersPark (c : Call) (s : State n) : Prop := ∀ e, (s.execs e).Parks c (s.row c)

/-- The condition on a step: a `Patch` inserts its marker where no checkpoint is; a `RunWorkflow`
that finds a checkpoint has resolved to the child recorded there; an `Enqueue` whose own insert was
deduplicated finds a checkpoint with the contents of its own. -/
def Aligned (c : Call) (s : State n) : Action n → Prop
  | .insert e =>
    match c.operation, (s.execs e).phase with
    | .patch, .checked _ => s.row c = none
    | _, _ => True
  | .readBack e =>
    match c.operation, (s.execs e).phase with
    | .runWorkflow child _, .childConflicted _ existingID =>
      (s.row c).any fun r => r.childWorkflowID = some (existingID.getD child.workflowID)
    | .enqueue true, .conflicted startedAt completedAt r =>
      r.error.any (·.isCode .queueDeduplicated) = true →
        -- a retryable error in the join makes the closure check again
        Dialect.retryable .postgres (c.refusal (newWorkflowConflictIDError c.workflowID) r) = true ∨
        (s.row c).any (c.recordInput startedAt completedAt r).sameWrite = true
    | _, _ => True
  | _ => True

/-! ### The checkpoint stays -/

structure Belongs (c : Call) (r : OperationRow) : Prop where
  workflowID : r.workflowID = c.workflowID
  functionID : r.functionID = c.stepID
  functionName : r.functionName = c.stepName
  child : ∀ child b, c.operation = .runWorkflow child b → r.childWorkflowID.isSome = true

def WriteOk (c : Call) : DataWrite n → Prop
  | .sys (.insertOperation r) => Belongs c r
  | .sys (.insertStatus _) => True
  | .sys _ => False
  | .effect _ => True

/-- The workflow is alive, and the checkpoint of its step, if any, was written for this call. -/
structure Good (c : Call) (d : Data n) : Prop where
  alive : ∃ st, d.sys.statusOf c.workflowID = some st ∧ st ≠ .cancelled
  row : ∀ r, d.sys.operation? c.workflowID c.stepID = some r → Belongs c r

theorem Good.apply {d : Data n} {w : DataWrite n} (h : Good c d) (hw : WriteOk c w) :
    Good c ((dataSchema n).apply w d) := by
  match w, hw with
  | .effect _, _ => exact ⟨h.alive, h.row⟩
  | .sys (.insertOperation o), hw =>
    refine ⟨h.alive, fun r hr => ?_⟩
    have hr : (d.sys.operations.insert o).find? (c.workflowID, c.stepID) = some r := hr
    rw [Table.find?_insert, Option.or_eq_some_iff] at hr
    rcases hr with hr | ⟨-, hr⟩
    · exact h.row r hr
    · split_ifs at hr
      obtain rfl : o = r := Option.some.inj hr
      exact hw
  | .sys (.insertStatus row), _ =>
    refine ⟨?_, h.row⟩
    obtain ⟨st, hst, hne⟩ := h.alive
    obtain ⟨r, hr, rfl⟩ := Option.map_eq_some_iff.1 hst
    refine ⟨r.status, ?_, hne⟩
    show ((d.sys.status.upsert (·.reinsert row) _ row).find? c.workflowID).map _ = _
    rw [Table.find?_upsert]
    split_ifs <;> simp [hr, WorkflowRow.reinsert]

theorem Good.complete {d : Data n} (h : Good c d) (id : String) (now : Int) :
    Good c ((dataSchema n).apply (.sys (.outcome id .success none none now)) d) := by
  refine ⟨?_, h.row⟩
  obtain ⟨st, hst, hne⟩ := h.alive
  have hout := Write.statusOf_outcome d.sys id .success none none now c.workflowID
  split_ifs at hout with hid
  · subst hid
    rw [hst] at hout
    exact ⟨.success, hout, by simp⟩
  · exact ⟨st, hout.trans hst, hne⟩

/-- A store that an execution may leave behind: its checkpoint is one that was there before, if
there was one. -/
structure StoreOk (c : Call) (s : State n) (st : Store (Data n) (Txn n) (DataWrite n)) : Prop where
  good : Good c st.committed
  pending : ∀ p ∈ st.pending, WriteOk c p.2
  stays : ∀ r, s.row c = some r → st.committed.sys.operation? c.workflowID c.stepID = some r

namespace StoreOk

variable {st : Store (Data n) (Txn n) (DataWrite n)}

theorem write (h : StoreOk c s st) (u : Txn n) {w : DataWrite n} (hw : WriteOk c w) :
    StoreOk c s (st.write u w) := by
  refine ⟨h.good, fun p hp => ?_, h.stays⟩
  rcases List.mem_append.1 hp with hp | hp
  · exact h.pending p hp
  · obtain rfl := List.mem_singleton.1 hp
    exact hw

theorem autocommit (h : StoreOk c s st) {w : Write} (hw : WriteOk (n := n) c (.sys w)) :
    StoreOk c s (st.autocommit (dataSchema n) (.sys w)) :=
  ⟨h.good.apply hw, h.pending, fun r hr => operation?_apply (.sys w) (h.stays r hr)⟩

theorem commit (h : StoreOk c s st) (u : Txn n) : StoreOk c s (st.commit (dataSchema n) u) := by
  refine ⟨?_, fun p hp => h.pending p (List.mem_filter.1 hp).1, fun r hr => ?_⟩
  · refine Store.view_induction (fun w hw d hd => hd.apply ?_) h.good
    obtain ⟨p, hp, rfl⟩ := List.mem_map.1 hw
    exact h.pending p (List.mem_filter.1 hp).1
  · exact Store.view_induction (P := fun d : Data n => d.sys.operation? c.workflowID c.stepID = some r)
      (fun w _ d hd => operation?_apply w hd) (h.stays r hr)

theorem rollback (h : StoreOk c s st) (u : Txn n) : StoreOk c s (st.rollback u) :=
  ⟨h.good, fun p hp => h.pending p (List.mem_filter.1 hp).1, h.stays⟩

end StoreOk

/-! ### The invariant -/

/-- The phases of an execution that has lost, with the reason why it went on to commit. -/
def Justified (c : Call) (r : OperationRow) : Phase → Prop
  | .started _ | .conflicted _ _ _ | .childConflicted _ _ | .done _ => True
  | .recorded startedAt completedAt res => (c.recordInput startedAt completedAt res).sameWrite r = true
  | .childRecorded _ =>
    ∀ child b, c.operation = .runWorkflow child b → r.childWorkflowID = some child.workflowID
  | _ => False

/-- The execution is about to read back a checkpoint it has found. -/
def Phase.contested : Phase → Bool
  | .conflicted _ _ _ | .childConflicted _ _ => true
  | _ => false

structure Exec.Ok (c : Call) (row : Option OperationRow) (x : Exec) : Prop where
  found : x.lost = true → ∃ r, row = some r ∧ Justified c r x.phase
  lost : x.phase.contested = true → x.lost = true

structure RaceInv (c : Call) (s : State n) : Prop where
  store : StoreOk c s s.store
  execs : ∀ e, (s.execs e).Ok c (s.row c)

theorem Exec.Ok.of_row {row row' : Option OperationRow} {x : Exec} (h : x.Ok c row)
    (hrow : ∀ r, row = some r → row' = some r) : x.Ok c row' := by
  refine ⟨fun hx => ?_, h.lost⟩
  obtain ⟨r, hr, hj⟩ := h.found hx
  exact ⟨r, hrow r hr, hj⟩

theorem Exec.Ok.parks_iff {row row' : Option OperationRow} {x : Exec} (h : x.Ok c row)
    (hrow : ∀ r, row = some r → row' = some r) : x.Parks c row' ↔ x.Parks c row := by
  unfold Exec.Parks
  refine imp_congr_right fun hx => ?_
  obtain ⟨r, hr, -⟩ := h.found hx
  rw [hrow r hr, hr]

structure Moves (c : Call) (s : State n) (e : Fin n) (x : Exec) (t : State n) : Prop where
  execs : t.execs = Function.update s.execs e x
  store : StoreOk c s t.store
  running : ∀ o, (s.execs e).phase ≠ .done o
  ok : x.Ok c (t.row c)

theorem Moves.inv {x : Exec} (hs : RaceInv c s) (h : Moves c s e x t) : RaceInv c t := by
  refine ⟨⟨h.store.good, h.store.pending, fun r hr => hr⟩, fun i => ?_⟩
  rw [h.execs]
  by_cases hi : i = e
  · subst hi
    simpa using h.ok
  · rw [Function.update_of_ne hi]
    exact (hs.execs i).of_row h.store.stays

theorem Moves.losersPark_iff {x : Exec} (hs : RaceInv c s) (h : Moves c s e x t) :
    LosersPark c t ↔ LosersPark c s ∧ x.Parks c (t.row c) := by
  have hother : ∀ i, i ≠ e → ((t.execs i).Parks c (t.row c) ↔ (s.execs i).Parks c (s.row c)) := by
    intro i hi
    rw [h.execs, Function.update_of_ne hi]
    exact (hs.execs i).parks_iff h.store.stays
  have hself : t.execs e = x := by rw [h.execs, Function.update_self]
  constructor
  · intro ht
    refine ⟨fun i => ?_, hself ▸ ht e⟩
    by_cases hi : i = e
    · subst hi
      intro _
      cases hp : (s.execs i).phase
      case done o => exact (h.running o hp).elim
      all_goals trivial
    · exact (hother i hi).1 (ht i)
  · rintro ⟨hs', hx⟩ i
    by_cases hi : i = e
    · subst hi
      exact hself ▸ hx
    · exact (hother i hi).2 (hs' i)

/-! ### The steps -/

/-- The step was one of an execution, and led it to park precisely under the condition. -/
def Explained (c : Call) (s : State n) (a : Action n) (t : State n) : Prop :=
  ∃ e x, Moves c s e x t ∧ (x.Parks c (t.row c) ↔ Aligned c s a)

variable {a : Action n}

theorem RaceInv.not_lost (hs : RaceInv c s) (h : ∀ r, ¬ Justified c r (s.execs e).phase) :
    (s.execs e).lost = false := by
  by_contra hl
  obtain ⟨r, -, hr⟩ := (hs.execs e).found (by simpa using hl)
  exact h r hr

theorem RaceInv.not_lost_of_row (hs : RaceInv c s) (h : (s.row c).isSome = false) :
    (s.execs e).lost = false := by
  by_contra hl
  obtain ⟨r, hr, -⟩ := (hs.execs e).found (by simpa using hl)
  simp [hr] at h

theorem explained_of_not_lost {x : Exec} (hexecs : t.execs = Function.update s.execs e x)
    (hst : StoreOk c s t.store) (hrun : ∀ o, (s.execs e).phase ≠ .done o) (hx : x.lost = false)
    (hp : x.phase.contested = false) (ha : Aligned c s a) : Explained c s a t := by
  refine ⟨e, x, ⟨hexecs, hst, hrun, ⟨by simp [hx], by simp [hp]⟩⟩, ?_⟩
  simp [Exec.Parks, hx, ha]

theorem explained_of_row {x : Exec} {r : OperationRow}
    (hexecs : t.execs = Function.update s.execs e x) (hst : StoreOk c s t.store)
    (hrun : ∀ o, (s.execs e).phase ≠ .done o) (hr : s.row c = some r) (hx : x.lost = true)
    (hj : Justified c r x.phase)
    (ha : (∀ o, x.phase = .done o → o.parks c (some r) = true) ↔ Aligned c s a) :
    Explained c s a t := by
  have hrow : t.row c = some r := hst.stays r hr
  refine ⟨e, x, ⟨hexecs, hst, hrun, ⟨fun _ => ⟨r, hrow, hj⟩, fun _ => hx⟩⟩, ?_⟩
  rw [← ha, hrow]
  unfold Exec.Parks
  cases hp : x.phase <;> simp [hx]

theorem explained_start {now : Int} (hs : RaceInv c s) (h : step c s (.start e now) = some t) :
    Explained c s (.start e now) t := by
  simp only [step] at h
  split at h
  next hp =>
    cases h
    have hl := hs.not_lost (e := e) (by simp [hp, Justified])
    exact explained_of_not_lost rfl hs.store (by simp [hp]) hl rfl trivial
  next => cases h

theorem agrees_recorded (c : Call) (r : OperationRow) :
    (Outcome.returned r.recorded.output r.recorded.errStr).agrees c r = true := by
  unfold Outcome.agrees OperationRow.recorded nullableStrEq
  by_cases h : r.error = some "" <;> simp [h]

theorem check_of_row {r : OperationRow} (hs : RaceInv c s) (hr : s.row c = some r)
    (startedAt : Int) :
    (∃ o, c.check s.db startedAt = .done o ∧ o.parks c (some r) = true) ∨
      c.check s.db startedAt = .started startedAt := by
  have hbel : Belongs c r := hs.store.good.row r hr
  obtain ⟨st, hst, hne⟩ := hs.store.good.alive
  have hst : s.db.statusOf c.workflowID = some st := hst
  have hr : s.db.operation? c.workflowID c.stepID = some r := hr
  have hcheck : s.db.checkOperationExecution c.workflowID c.stepID c.stepName =
      .ok (some r.recorded) := by
    unfold Db.checkOperationExecution
    rw [hst, hr]
    cases st <;> simp_all [hbel.functionName]
  cases hop : c.operation with
  | patch =>
    refine .inl ⟨.patched (r.functionName = c.stepName), ?_, by simp [Outcome.parks, Outcome.agrees]⟩
    simp [Call.check, hop, hr]
  | runWorkflow child b =>
    obtain ⟨id, hid⟩ := Option.isSome_iff_exists.1 (hbel.child child b hop)
    refine .inl ⟨.handle id, ?_, by simp [Outcome.parks, Outcome.agrees, hid]⟩
    simp [Call.check, hop, Db.checkChildWorkflow, hr, hbel.functionName, hid]
  | runAsStep | runAsTxn | enqueue =>
    simp only [Call.check, hop, hcheck]
    split_ifs
    · exact .inr rfl
    · exact .inl ⟨_, rfl, agrees_recorded c r⟩

theorem contested_check (db : Db) (startedAt : Int) :
    (c.check db startedAt).contested = false := by
  unfold Call.check Call.fault Call.fail
  repeat' split
  all_goals rfl

theorem explained_check (hs : RaceInv c s) (h : step c s (.check e) = some t) :
    Explained c s (.check e) t := by
  simp only [step] at h
  split at h
  next startedAt hp =>
    split_ifs at h with hrow <;> cases h
    · obtain ⟨r, hr⟩ := Option.isSome_iff_exists.1 hrow
      refine explained_of_row rfl hs.store (by simp [hp]) hr rfl ?_ ?_
      · rcases check_of_row hs hr startedAt with ⟨o, ho, -⟩ | ho <;> simp [ho, Justified]
      · rcases check_of_row hs hr startedAt with ⟨o, ho, hpark⟩ | ho
        · simp [ho, hpark, Aligned]
        · simp [ho, Aligned]
    · have hl := hs.not_lost_of_row (e := e) (by simpa using hrow)
      exact explained_of_not_lost rfl hs.store (by simp [hp]) hl (contested_check _ _) trivial
  next => cases h

theorem explained_run {r : Result} (hs : RaceInv c s) (h : step c s (.run e r) = some t) :
    Explained c s (.run e r) t := by
  simp only [step, runStep] at h
  split at h
  next hp =>
    cases h
    have hl := hs.not_lost (e := e) (by simp [hp, Justified])
    exact explained_of_not_lost rfl hs.store (by simp [hp]) hl rfl trivial
  all_goals first
    | (next hp =>
        have hl := hs.not_lost (e := e) (by simp [hp, Justified])
        split_ifs at h <;> cases h
        · exact explained_of_not_lost rfl hs.store (by simp [hp]) hl rfl trivial
        · exact explained_of_not_lost rfl (hs.store.write _ trivial) (by simp [hp]) hl rfl trivial)
    | cases h

theorem contested_fault (startedAt : Int) (err : GoError) :
    (c.fault startedAt err).contested = false := by
  unfold Call.fault Call.fail
  repeat' split
  all_goals rfl

theorem explained_giveUp {err : GoError} (hs : RaceInv c s)
    (h : step c s (.giveUp e err) = some t) : Explained c s (.giveUp e err) t := by
  simp only [step] at h
  split at h
  next hp =>
    cases h
    have hl := hs.not_lost (e := e) (by simp [hp, Justified])
    exact explained_of_not_lost rfl (hs.store.rollback _) (by simp [hp]) hl (contested_fault _ _)
      trivial
  next => cases h

theorem explained_prepare {now : Int} (hs : RaceInv c s)
    (h : step c s (.prepare e now) = some t) : Explained c s (.prepare e now) t := by
  simp only [step] at h
  split at h
  next hp =>
    cases h
    have hl := hs.not_lost (e := e) (by simp [hp, Justified])
    exact explained_of_not_lost rfl hs.store (by simp [hp]) hl rfl trivial
  next => cases h

/-! #### Inserting the checkpoint -/

theorem belongs_recordInput (hop : ∀ child b, c.operation ≠ .runWorkflow child b)
    (startedAt completedAt : Int) (r : Result) :
    Belongs c (c.recordInput startedAt completedAt r).row :=
  ⟨rfl, rfl, rfl, fun child b h => (hop child b h).elim⟩

theorem belongs_patchRow (hop : c.operation = .patch) :
    Belongs c (patchRow c.workflowID c.stepID c.stepName) :=
  ⟨rfl, rfl, rfl, by simp [hop]⟩

theorem belongs_childInput (startedAt : Int) (childID : String) :
    Belongs c (c.childInput startedAt childID).row :=
  ⟨rfl, rfl, rfl, fun _ _ _ => rfl⟩

theorem explained_insertRow {row : OperationRow} {conflict written : Phase}
    (h : insertSingle c s e row conflict written = some t ∨
      insertInTxn c s e row conflict written = some t) (hs : RaceInv c s)
    (hrun : ∀ o, (s.execs e).phase ≠ .done o) (hrow : Belongs c row)
    (hj : ∀ r, Justified c r conflict) (hwritten : written.contested = false)
    (ha : ∀ r, s.row c = some r →
      ((∀ o, conflict = .done o → o.parks c (some r) = true) ↔ Aligned c s a))
    (ha' : s.row c = none → Aligned c s a) : Explained c s a t := by
  have hlose : ∀ r, s.row c = some r → Explained c s a (s.lose e conflict) := fun r hr =>
    explained_of_row rfl hs.store hrun hr rfl (hj r) (ha r hr)
  rcases h with h | h
  · unfold insertSingle at h
    split_ifs at h with _ hsome <;> cases h
    · obtain ⟨r, hr⟩ := Option.isSome_iff_exists.1 hsome
      exact hlose r hr
    · have hnone : s.row c = none := by simpa using hsome
      have hl := hs.not_lost_of_row (e := e) (by simpa using hsome)
      exact explained_of_not_lost rfl (hs.store.autocommit hrow) hrun hl hwritten (ha' hnone)
  · unfold insertInTxn at h
    split_ifs at h with _ hsome <;> cases h
    · obtain ⟨r, hr⟩ := Option.isSome_iff_exists.1 hsome
      exact hlose r hr
    · have hnone : s.row c = none := by simpa using hsome
      have hl := hs.not_lost_of_row (e := e) (by simpa using hsome)
      exact explained_of_not_lost rfl (hs.store.write _ hrow) hrun hl hwritten (ha' hnone)

theorem explained_insert (hs : RaceInv c s) (h : step c s (.insert e) = some t) :
    Explained c s (.insert e) t := by
  simp only [step, insertStep] at h
  split at h
  next hop hp =>
    exact explained_insertRow (.inl h) hs (by simp [hp])
      (belongs_recordInput (by simp [hop]) _ _ _) (fun _ => trivial) rfl
      (by simp [Aligned, hop, hp]) (by simp [Aligned, hop, hp])
  next hop hp =>
    exact explained_insertRow (.inr h) hs (by simp [hp])
      (belongs_recordInput (by simp [hop]) _ _ _) (fun _ => trivial) rfl
      (by simp [Aligned, hop, hp]) (by simp [Aligned, hop, hp])
  next hop hp =>
    exact explained_insertRow (.inr h) hs (by simp [hp])
      (belongs_recordInput (by simp [hop]) _ _ _) (fun _ => trivial) rfl
      (by simp [Aligned, hop, hp]) (by simp [Aligned, hop, hp])
  next hop hp =>
    -- the unique violation of a patch marker is no conflict
    have hpatch : GoError.isCode .conflictingID patchInsertError = false := rfl
    exact explained_insertRow (.inl h) hs (by simp [hp]) (belongs_patchRow hop) (fun _ => trivial)
      rfl (fun r hr => by simp [Aligned, hop, hp, hr, Outcome.parks, hpatch])
      (by simp [Aligned, hop, hp])
  next hop hp =>
    exact explained_insertRow (.inr h) hs (by simp [hp]) (belongs_childInput _ _)
      (fun _ => trivial) rfl (by simp [Aligned, hop, hp]) (by simp [Aligned, hop, hp])
  next hop hp =>
    exact explained_insertRow (.inl h) hs (by simp [hp]) (belongs_childInput _ _)
      (fun _ => trivial) rfl (by simp [Aligned, hop, hp]) (by simp [Aligned, hop, hp])
  next => cases h

theorem explained_insertUnacknowledged (hs : RaceInv c s)
    (h : step c s (.insertUnacknowledged e) = some t) :
    Explained c s (.insertUnacknowledged e) t := by
  simp only [step, insertUnacknowledgedStep] at h
  split_ifs at h with hfree
  have hl := hs.not_lost_of_row (e := e) (by simpa using (not_or.1 hfree).2)
  split at h
  next hop hp =>
    cases h
    exact explained_of_not_lost rfl
      (hs.store.autocommit (belongs_recordInput (by simp [hop]) _ _ _)) (by simp [hp]) hl rfl trivial
  next hop hp =>
    cases h
    exact explained_of_not_lost rfl (hs.store.autocommit (belongs_patchRow hop)) (by simp [hp]) hl
      rfl trivial
  next => cases h

/-! #### Reading back -/

/-- A checkpoint taken for the execution's own write has the contents that it returns. -/
theorem agrees_of_sameWrite (c : Call) {i : RecordOperationResultInput} {r : OperationRow}
    (h : i.sameWrite r = true) : (Outcome.returned i.output i.errStr).agrees c r = true := by
  simp only [RecordOperationResultInput.sameWrite, Bool.and_eq_true] at h
  simp [Outcome.agrees, h.1.1.1.1.1.2, h.1.1.1.1.2]

theorem RaceInv.row_of_contested (hs : RaceInv c s) (h : (s.execs e).phase.contested = true) :
    (s.execs e).lost = true ∧ ∃ r, s.row c = some r := by
  have hl := (hs.execs e).lost h
  obtain ⟨r, hr, -⟩ := (hs.execs e).found hl
  exact ⟨hl, r, hr⟩

theorem RaceInv.name (hs : RaceInv c s) : ∀ r ∈ s.row c, r.functionName = c.stepName :=
  fun r hr => (hs.store.good.row r hr).functionName

theorem isCode_refusal (recErr : GoError) (r : Result) :
    GoError.isCode .conflictingID (c.refusal recErr r) =
      (GoError.isCode .conflictingID recErr ||
        r.error.any (GoError.isCode .conflictingID)) := by
  unfold Call.refusal
  cases r.error <;> simp

theorem isCode_deduplicated_refusal (r : Result) :
    GoError.isCode .queueDeduplicated (c.refusal (newWorkflowConflictIDError c.workflowID) r) =
      r.error.any (GoError.isCode .queueDeduplicated) := by
  unfold Call.refusal
  cases r.error <;> rfl

/-- Where the refusal of a checkpoint leads: the execution checks again, parks, or, for an
`Enqueue` that was deduplicated, starts over at the next step. -/
theorem parks_fault_refusal (startedAt : Int) (row : Option OperationRow) (r : Result) :
    (∀ o, c.fault startedAt (c.refusal (newWorkflowConflictIDError c.workflowID) r) = .done o →
        o.parks c row = true) ↔
      (c.operation = .enqueue true → r.error.any (GoError.isCode .queueDeduplicated) = true →
        Dialect.retryable .postgres
          (c.refusal (newWorkflowConflictIDError c.workflowID) r) = true) := by
  have hconflict : GoError.isCode .conflictingID
      (c.refusal (newWorkflowConflictIDError c.workflowID) r) = true := by
    simp [isCode_refusal]
  unfold Call.fault Call.fail
  by_cases hop : c.operation = .enqueue true
  · simp only [hop, Operation.transactional, Bool.true_and, isCode_deduplicated_refusal]
    by_cases hre : Dialect.retryable .postgres
        (c.refusal (newWorkflowConflictIDError c.workflowID) r) = true
    · simp [hre]
    · by_cases hd : r.error.any (GoError.isCode .queueDeduplicated) = true
      · cases row <;> simp [hre, hd, Outcome.parks, Outcome.agrees]
      · simp [hre, hd, Outcome.parks, hconflict]
  · simp only [hop, false_imp_iff, iff_true]
    intro o ho
    split_ifs at ho
    cases ho
    exact hconflict

theorem justified_fault (r : OperationRow) (startedAt : Int) (err : GoError) :
    Justified c r (c.fault startedAt err) := by
  unfold Call.fault Call.fail
  repeat' split
  all_goals trivial

theorem explained_readBackInTxn {startedAt completedAt : Int} {r : Result} (hs : RaceInv c s)
    (hp : (s.execs e).phase = .conflicted startedAt completedAt r)
    (ha : Aligned c s (.readBack e) ↔
      (c.operation = .enqueue true → r.error.any (GoError.isCode .queueDeduplicated) = true →
        Dialect.retryable .postgres
            (c.refusal (newWorkflowConflictIDError c.workflowID) r) = true ∨
          (s.row c).any (c.recordInput startedAt completedAt r).sameWrite = true))
    (h : (match (c.recordInput startedAt completedAt r).onConflict (s.row c) with
      | .ok _ => some (s.goto e (.recorded startedAt completedAt r))
      | .error recErr => some (s.leave e (c.fault startedAt (c.refusal recErr r)))) = some t) :
    Explained c s (.readBack e) t := by
  obtain ⟨hl, stored, hstored⟩ := hs.row_of_contested (e := e) (by simp [hp, Phase.contested])
  split at h
  next hok =>
    cases h
    obtain ⟨r', hr', hsame⟩ := RecordOperationResultInput.onConflict_eq_ok hok
    refine explained_of_row rfl hs.store (by simp [hp]) hr' hl hsame ?_
    simp [ha, hr', hsame]
  next recErr herr =>
    cases h
    obtain ⟨rfl, hne⟩ := RecordOperationResultInput.eq_of_onConflict_eq_error hs.name herr
    refine explained_of_row rfl (hs.store.rollback _) (by simp [hp]) hstored hl
      (justified_fault _ _ _) ?_
    rw [ha, hne]
    simp only [Bool.false_eq_true, or_false]
    exact parks_fault_refusal startedAt (some stored) r

theorem explained_readBack (hs : RaceInv c s) (h : step c s (.readBack e) = some t) :
    Explained c s (.readBack e) t := by
  simp only [step, readBackStep] at h
  split at h
  next startedAt completedAt r hop hp =>
    obtain ⟨hl, stored, hstored⟩ := hs.row_of_contested (e := e) (by simp [hp, Phase.contested])
    have ha : Aligned c s (.readBack e) := by simp [Aligned, hop]
    split at h <;> cases h
    next hok =>
      obtain ⟨r', hr', hsame⟩ := RecordOperationResultInput.onConflict_eq_ok hok
      refine explained_of_row rfl hs.store (by simp [hp]) hr' hl trivial ?_
      have := agrees_of_sameWrite c hsame
      simpa [ha, Outcome.parks] using this
    next recErr herr =>
      obtain ⟨rfl, -⟩ := RecordOperationResultInput.eq_of_onConflict_eq_error hs.name herr
      refine explained_of_row rfl hs.store (by simp [hp]) hstored hl trivial ?_
      simp [ha, Outcome.parks]
  next hop hp => exact explained_readBackInTxn hs hp (by simp [Aligned, hop]) h
  next b _ _ _ hop hp =>
    refine explained_readBackInTxn hs hp ?_ h
    cases b <;> simp [Aligned, hop, hp]
  next child _ startedAt existingID hop hp =>
    obtain ⟨hl, stored, hstored⟩ := hs.row_of_contested (e := e) (by simp [hp, Phase.contested])
    split at h
    next hok =>
      obtain ⟨r, hr, hchild⟩ := RecordChildWorkflowInput.onConflict_eq_ok hok
      have hchild : r.childWorkflowID = some (existingID.getD child.workflowID) := hchild
      cases existingID with
      | none =>
        cases h
        refine explained_of_row rfl hs.store (by simp [hp]) hr hl ?_ ?_
        · intro child' b hop'
          obtain ⟨rfl, -⟩ : child = child' ∧ _ = b := by simpa [hop] using hop'
          exact hchild
        · simpa [Aligned, hop, hp, hr] using hchild
      | some id =>
        cases h
        refine explained_of_row rfl hs.store (by simp [hp]) hr hl trivial ?_
        have hid : r.childWorkflowID = some id := hchild
        simp [Aligned, hop, hp, hr, hid, Outcome.parks, Outcome.agrees]
    next err herr =>
      cases h
      obtain ⟨hcode, hne⟩ := RecordChildWorkflowInput.isCode_of_onConflict_eq_error herr
      have hne : (s.row c).any (fun r =>
          r.childWorkflowID = some (existingID.getD child.workflowID)) = false := hne
      refine explained_of_row rfl (hs.store.rollback _) (by simp [hp]) hstored hl trivial ?_
      simp [Aligned, hop, hp, hne, hcode, Outcome.parks]
  next => cases h

/-! #### The other statements -/

theorem explained_insertStatus (hs : RaceInv c s) (h : step c s (.insertStatus e) = some t) :
    Explained c s (.insertStatus e) t := by
  simp only [step, insertStatusStep] at h
  split at h
  next hop hp =>
    have hl := hs.not_lost (e := e) (by simp [hp, Justified])
    split_ifs at h
    split at h
    · cases h
      exact explained_of_not_lost rfl (hs.store.write _ trivial) (by simp [hp]) hl rfl trivial
    · split_ifs at h <;> cases h <;>
        exact explained_of_not_lost rfl hs.store (by simp [hp]) hl rfl trivial
  next => cases h

theorem explained_lookup (hs : RaceInv c s) (h : step c s (.lookup e) = some t) :
    Explained c s (.lookup e) t := by
  simp only [step, lookupStep] at h
  split at h
  next hop hp =>
    have hl := hs.not_lost (e := e) (by simp [hp, Justified])
    split at h <;> cases h <;>
      exact explained_of_not_lost rfl hs.store (by simp [hp]) hl rfl trivial
  next => cases h

/-- A commit after which the execution is done: if it had found a checkpoint, that is what it
returns. -/
theorem explained_committed {o : Outcome} (hs : RaceInv c s)
    (hrun : ∀ o, (s.execs e).phase ≠ .done o)
    (ho : ∀ r, Justified c r (s.execs e).phase → o.parks c (some r) = true)
    (ha : Aligned c s a) : Explained c s a ((s.commitTxn e).goto e (.done o)) := by
  cases hl : (s.execs e).lost with
  | false => exact explained_of_not_lost rfl (hs.store.commit _) hrun hl rfl ha
  | true =>
    obtain ⟨r, hr, hj⟩ := (hs.execs e).found hl
    refine explained_of_row rfl (hs.store.commit _) hrun hr hl trivial ?_
    simp [ha, ho r hj]

theorem explained_commitInTxn {startedAt completedAt : Int} {r : Result} (hs : RaceInv c s)
    (hp : (s.execs e).phase = .recorded startedAt completedAt r)
    (h : (let i := c.recordInput startedAt completedAt r
      if r.error.any (Dialect.retryable .postgres) then
        some ((s.commitTxn e).retry e (.started startedAt))
      else some ((s.commitTxn e).goto e (.done (.returned i.output i.errStr)))) = some t) :
    Explained c s (.commit e) t := by
  split_ifs at h <;> cases h
  · exact explained_of_not_lost rfl ((hs.store.commit _).rollback _) (by simp [hp]) rfl rfl trivial
  · refine explained_committed hs (by simp [hp]) (fun r' hj => ?_) trivial
    rw [hp] at hj
    exact agrees_of_sameWrite c (i := c.recordInput startedAt completedAt r) hj

theorem explained_commit (hs : RaceInv c s) (h : step c s (.commit e) = some t) :
    Explained c s (.commit e) t := by
  simp only [step, commitStep] at h
  split at h
  next child b _ hop hp =>
    cases h
    refine explained_committed hs (by simp [hp]) (fun r hj => ?_) trivial
    rw [hp] at hj
    simp [Outcome.parks, Outcome.agrees, hj child b hop]
  next hp => exact explained_commitInTxn hs hp h
  next hp => exact explained_commitInTxn hs hp h
  next => cases h

theorem explained_commitUnacknowledged (hs : RaceInv c s)
    (h : step c s (.commitUnacknowledged e) = some t) :
    Explained c s (.commitUnacknowledged e) t := by
  simp only [step, commitUnacknowledgedStep] at h
  split at h <;> cases h
  all_goals
    next hp =>
      exact explained_of_not_lost rfl ((hs.store.commit _).rollback _) (by simp [hp]) rfl rfl trivial

theorem explained_abort (hs : RaceInv c s) (h : step c s (.abort e) = some t) :
    Explained c s (.abort e) t := by
  simp only [step, abortStep] at h
  split at h <;> cases h
  all_goals
    next hp =>
      exact explained_of_not_lost rfl (hs.store.rollback _) (by simp [hp]) rfl rfl trivial

theorem elsewhere {w : Write} (hs : RaceInv c s)
    (hgood : Good c ((dataSchema n).apply (.sys w) s.store.committed)) :
    RaceInv c (s.autocommit w) ∧ (LosersPark c (s.autocommit w) ↔ LosersPark c s) := by
  have hrow : ∀ r, s.row c = some r → (s.autocommit w).row c = some r :=
    fun r hr => operation?_apply (.sys w) hr
  refine ⟨⟨⟨hgood, hs.store.pending, fun r hr => hr⟩, fun i => (hs.execs i).of_row hrow⟩, ?_⟩
  exact forall_congr' fun i => (hs.execs i).parks_iff hrow

/-- **The step lemma.** A step keeps the invariant, and it keeps the losers parked precisely when it
meets the condition. -/
theorem race_step (hs : RaceInv c s) (h : step c s a = some t) :
    RaceInv c t ∧ (LosersPark c t ↔ LosersPark c s ∧ Aligned c s a) := by
  have hexplained : Explained c s a t →
      RaceInv c t ∧ (LosersPark c t ↔ LosersPark c s ∧ Aligned c s a) := by
    rintro ⟨e, x, hmoves, ha⟩
    exact ⟨hmoves.inv hs, by rw [hmoves.losersPark_iff hs, ha]⟩
  cases a with
  | start e now => exact hexplained (explained_start hs h)
  | check e => exact hexplained (explained_check hs h)
  | run e r => exact hexplained (explained_run hs h)
  | giveUp e err => exact hexplained (explained_giveUp hs h)
  | prepare e now => exact hexplained (explained_prepare hs h)
  | insert e => exact hexplained (explained_insert hs h)
  | insertUnacknowledged e => exact hexplained (explained_insertUnacknowledged hs h)
  | readBack e => exact hexplained (explained_readBack hs h)
  | insertStatus e => exact hexplained (explained_insertStatus hs h)
  | lookup e => exact hexplained (explained_lookup hs h)
  | commit e => exact hexplained (explained_commit hs h)
  | commitUnacknowledged e => exact hexplained (explained_commitUnacknowledged hs h)
  | abort e => exact hexplained (explained_abort hs h)
  | complete id now =>
    simp only [step] at h
    split_ifs at h
    cases h
    simpa [Aligned] using elsewhere hs (hs.store.good.complete id now)
  | occupy row =>
    simp only [step] at h
    split_ifs at h
    cases h
    simpa [Aligned] using elsewhere hs (hs.store.good.apply (w := .sys (.insertStatus row)) trivial)

theorem race_init (hs : Init c s) : RaceInv c s ∧ LosersPark c s := by
  obtain ⟨halive, hrow, -, hpending, hexecs⟩ := hs
  refine ⟨⟨⟨⟨halive, fun r hr => ?_⟩, by simp [hpending], fun r hr => hr⟩, fun e => ?_⟩, fun e => ?_⟩
  · cases hrow.symm.trans hr
  · rw [hexecs]
    exact ⟨by simp, by simp [Phase.contested]⟩
  · rw [hexecs]
    simp [Exec.Parks]

/-- **Losers park** in a run precisely when every step meets the condition: any number of executions
reach the same operation of their workflow at the same step, and in the last state every one that
found a checkpoint and is done obtained the recorded result or `ErrConflictingWorkflowID`. -/
theorem losers_park_iff {tr : List (Transition (State n) (Action n))} (hs : Init c s)
    (h : Run (system c n) s tr t) : LosersPark c t ↔ ∀ x ∈ tr, Aligned c x.pre x.act :=
  h.forall_iff (I := RaceInv c) (fun _ h => race_init h) (fun _ _ _ hi h => (race_step hi h).1)
    (fun _ _ _ hi h => (race_step hi h).2) hs

/-! ### Two executions -/

instance (c : Call) (row : Option OperationRow) (x : Exec) : Decidable (x.Parks c row) := by
  unfold Exec.Parks
  split <;> infer_instance

instance (c : Call) (s : State n) : Decidable (LosersPark c s) :=
  inferInstanceAs (Decidable (∀ _, _))

/-- A loser in `RunAsStep` always parks: the condition does not concern it. -/
theorem aligned_of_runAsStep (hop : c.operation = .runAsStep) (a : Action n) : Aligned c s a := by
  cases a <;> simp [Aligned, hop]

/-- An operation at the first step of `W`. -/
def firstStep (operation : Operation) : Call where
  workflowID := "W"
  stepID := 1
  stepName := "op"
  operation := operation
  serializeError := GoError.errorText
  deserializeError := .new

def holder : WorkflowRow :=
  { workflowID := "X", status := .enqueued, queueName := some "q", deduplicationID := some "d" }

def childRow : WorkflowRow :=
  { workflowID := "W-1", status := .enqueued, name := "op", queueName := some "q",
    deduplicationID := some "d" }

/-- Two executions of `W`, about to reach its first step. -/
def twoExecutions : State 2 where
  store :=
    { committed :=
        { sys :=
            { status := ⟨[{ workflowID := "W", status := .pending }, holder], by decide⟩
              waiters := .empty
              notifications := .empty
              events := .empty
              eventsHistory := .empty
              operations := .empty }
          effects := [] }
      pending := [] }
  execs := fun _ => {}

theorem init_twoExecutions (operation : Operation) : Init (firstStep operation) twoExecutions :=
  ⟨⟨.pending, rfl, by simp⟩, rfl, rfl, rfl, fun _ => rfl⟩

def bothCheck (e e' : Fin n) : List (Action n) := [.start e 0, .start e' 1, .check e, .check e']

/-- **Losers that do not park**: the second `Patch` gets the unique violation; a `RunWorkflow` that
resolved to the holder of the slot, released meanwhile, gets a determinism error against the child
of the other; and an `Enqueue` that was deduplicated swallows the conflict and moves on to the next
step. -/
theorem losers_not_parked :
    (∃ t, Reaches (system (firstStep .patch) 2) (fun _ _ => True) t ∧
      ¬ LosersPark (firstStep .patch) t) ∧
    (∃ t, Reaches (system (firstStep (.runWorkflow childRow true)) 2) (fun _ _ => True) t ∧
      ¬ LosersPark (firstStep (.runWorkflow childRow true)) t) ∧
    ∃ t, Reaches (system (firstStep (.enqueue true)) 2) (fun _ _ => True) t ∧
      ¬ LosersPark (firstStep (.enqueue true)) t := by
  have hrun : ∀ (operation : Operation) (as : List (Action 2)),
      (exec (system (firstStep operation) 2) twoExecutions as).any
        (fun t => ¬ LosersPark (firstStep operation) t) = true →
      ∃ t, Reaches (system (firstStep operation) 2) (fun _ _ => True) t ∧
        ¬ LosersPark (firstStep operation) t := by
    intro operation as h
    obtain ⟨t, ht, hp⟩ := exists_reaches (fun _ _ => True) as _ (init_twoExecutions operation)
      (fun _ _ => trivial) h
    exact ⟨t, ht, by simpa using hp⟩
  refine ⟨hrun .patch (List.flatten [bothCheck 0 1, [.insert 0, .insert 1]]) (by decide +kernel), ?_, ?_⟩
  · exact hrun _ (List.flatten [bothCheck 0 1, [.insertStatus 0, .lookup 0, .complete "X" 2, .insertStatus 1,
      .insert 1, .commit 1, .insert 0, .readBack 0]]) (by decide +kernel)
  · exact hrun _ (List.flatten [bothCheck 0 1, [.run 0 { output := some "id" }, .prepare 0 2, .insert 0, .commit 0,
      .run 1 { error := some (newQueueDeduplicatedError "id" "q" "d") }, .prepare 1 3, .insert 1,
      .readBack 1]]) (by decide +kernel)

/-- In a race of two steps the loser parks. -/
theorem losers_park_in_steps : ∃ s t tr, (Init (firstStep .runAsStep) s ∧
    Run (system (firstStep .runAsStep) 2) s tr t ∧ (t.execs 1).lost = true ∧
    ∀ x ∈ tr, Aligned (firstStep .runAsStep) x.pre x.act) ∧ LosersPark (firstStep .runAsStep) t := by
  let as : List (Action 2) := List.flatten [bothCheck 0 1, [.run 0 { output := some "a" }, .prepare 0 2,
    .run 1 { output := some "b" }, .prepare 1 2, .insert 0, .insert 1, .readBack 1]]
  have hend : (exec (system (firstStep .runAsStep) 2) twoExecutions as).any
      (fun t => (t.execs 1).lost) = true := by decide +kernel
  have hal : ∀ x ∈ trace (system (firstStep .runAsStep) 2) twoExecutions as,
      Aligned (firstStep .runAsStep) x.pre x.act := fun x _ => aligned_of_runAsStep rfl x.act
  cases ht : exec (system (firstStep .runAsStep) 2) twoExecutions as with
  | none => simp [ht] at hend
  | some t =>
    have hinit := init_twoExecutions .runAsStep
    exact ⟨_, t, _, ⟨hinit, run_exec ht, by simpa [ht] using hend, hal⟩,
      (losers_park_iff hinit (run_exec ht)).2 hal⟩

end Dbos.Checkpoint
