import DbosTransact.Replay.Code

/-!
# The checkpoints of a workflow as its journal

An answer is accounted for by a checkpoint if a replay reads the same answer from it, up to what the code is
assumed to be blind to (`Recall`). Every execution follows the code with answers that the checkpoints
account for, and every checkpoint belongs to an operation of such a path.
-/

namespace Dbos.Code

open Relational Lts Replay

variable {V : Type} {cfg : Config V} {s t : State V}

/-! ### What the code is blind to -/

def Config.recorded (cfg : Config V) (o : Op) (out : Outcome V) (err : Option GoError) :
    RecordedResult where
  output := (cfg.codec.recordedOutput o out).1
  errStr := if err.map cfg.codec.encodeError = some "" then none else err.map cfg.codec.encodeError
  serialization := (cfg.codec.recordedOutput o out).2

/-- Two durations that `Sleep` returns; or the answer when the operation is executed, and the answer
read back from the record of the same outcome. -/
inductive Recall (cfg : Config V) : Op → Answer V → Answer V → Prop
  | slept {d : Int} (x y : Int) : Recall cfg (.sleep d) (.slept x) (.slept y)
  | read {o : Op} {out : Outcome V} {err : Option GoError} {a a' : Answer V}
      (hfits : out.fits o .main err = true) (hexecuted : cfg.codec.executed o err out = .answer a)
      (hreplayed : cfg.replayed o .main (cfg.recorded o out err) = .answer a') : Recall cfg o a a'

def Sim (cfg : Config V) (o : Op) : Answer V → Answer V → Prop := Relation.EqvGen (Recall cfg o)

theorem Sim.symm {o : Op} {a a' : Answer V} (h : Sim cfg o a a') : Sim cfg o a' a :=
  Relation.EqvGen.symm _ _ h

theorem Sim.trans {o : Op} {a a' a'' : Answer V} (h : Sim cfg o a a') (h' : Sim cfg o a' a'') :
    Sim cfg o a a'' :=
  Relation.EqvGen.trans _ _ _ h h'

theorem Sim.eq {childID : String} {timeout : Option String} {a a' : Answer V}
    (h : Sim cfg (.getResult childID timeout) a a') : a = a' := by
  induction h with
  | rel a a' h =>
    cases h with
    | @read o out err a a' hfits _ _ => cases out <;> cases hfits
  | refl => rfl
  | symm _ _ _ ih => exact ih.symm
  | trans _ _ _ _ _ ih ih' => exact ih.trans ih'

/-! ### What a checkpoint gives to a replay -/

/-- A call of `runAsTxn` that the operation makes. -/
def Part.Of (o : Op) (part : Part) : Prop := part = .deadline → o.isWait = true

inductive Yields (cfg : Config V) (o : Op) : Part → OperationRow → Delivery V → Prop
  | answer {row : OperationRow} {a a' : Answer V} (hop : ∀ x, o ≠ .sleep x)
      (hname : row.functionName = o.name)
      (hreplayed : cfg.replayed o .main row.recorded = .answer a') (hsim : Sim cfg o a' a) :
      Yields cfg o .main row (.answer a)
  | deadline {part : Part} {row : OperationRow} {t : Int} (hname : row.functionName = part.name o)
      (hreplayed : cfg.replayed o part row.recorded = .deadline t) :
      Yields cfg o part row (.deadline t)

theorem Yields.name {o : Op} {part : Part} {row : OperationRow} {d : Delivery V}
    (h : Yields cfg o part row d) : row.functionName = part.name o := by
  cases h with
  | answer _ hname _ _ => exact hname
  | deadline hname _ => exact hname

theorem Yields.replayed_answer {o : Op} {row : OperationRow} {a : Answer V}
    (h : Yields cfg o .main row (.answer a)) :
    ∃ a', cfg.replayed o .main row.recorded = .answer a' ∧ Sim cfg o a' a := by
  cases h with
  | answer _ _ hreplayed hsim => exact ⟨_, hreplayed, hsim⟩

theorem Yields.replayed_deadline {o : Op} {part : Part} {row : OperationRow} {t : Int}
    (h : Yields cfg o part row (.deadline t)) : cfg.replayed o part row.recorded = .deadline t := by
  cases h with
  | deadline _ hreplayed => exact hreplayed

theorem replayed_eq_deadline {o : Op} {part : Part} {r : RecordedResult} {t : Int}
    (h : cfg.replayed o part r = .deadline t) :
    (∃ x, o = .sleep x) ∨ part = .deadline ∧ o.isWait = true := by
  cases o with
  | sleep x => exact .inl ⟨x, rfl⟩
  | step name | txn name =>
    simp only [Config.replayed] at h
    split at h <;> cases h
  | recv topic timeout | getEvent target key timeout =>
    cases part with
    | main => cases h
    | deadline => exact .inr ⟨rfl, rfl⟩
  | getResult childID timeout =>
    simp only [Config.replayed] at h
    split at h
    · cases h
    · split at h <;> cases h

theorem exists_replayed_eq_answer (cfg : Config V) {o : Op} (h : ∀ x, o ≠ .sleep x)
    (r : RecordedResult) :
    ∃ a, cfg.replayed o .main r = .answer a := by
  cases hd : cfg.replayed o .main r with
  | answer a => exact ⟨a, rfl⟩
  | deadline t =>
    obtain ⟨x, hx⟩ | ⟨hpart, -⟩ := replayed_eq_deadline hd
    · exact (h x hx).elim
    · cases hpart

theorem yields_replayed {o : Op} {part : Part} {row : OperationRow} {d : Delivery V}
    (h : Yields cfg o part row d) : Yields cfg o part row (cfg.replayed o part row.recorded) := by
  cases h with
  | answer hop hname hreplayed _ =>
    rw [hreplayed]
    exact .answer hop hname hreplayed (Relation.EqvGen.refl _)
  | deadline hname hreplayed =>
    rw [hreplayed]
    exact .deadline hname hreplayed

theorem ne_sleep_of_executed {o : Op} {out : Outcome V} {err : Option GoError} {a : Answer V}
    (hfits : out.fits o .main err = true) (h : cfg.codec.executed o err out = .answer a) (x : Int) :
    o ≠ .sleep x := by
  rintro rfl
  cases out with
  | deadline now => cases h
  | value | message | nothing => cases hfits

theorem yields_answer {o : Op} {out : Outcome V} {err : Option GoError} {a : Answer V}
    (hfits : out.fits o .main err = true) (h : cfg.codec.executed o err out = .answer a) (n : ℕ)
    (startedAt completedAt : Int) :
    Yields cfg o .main (cfg.recordInput o .main n out err startedAt completedAt).row (.answer a) := by
  have hop := ne_sleep_of_executed hfits h
  obtain ⟨a', ha'⟩ := exists_replayed_eq_answer cfg hop (cfg.recorded o out err)
  exact .answer hop rfl ha' (Sim.symm (Relation.EqvGen.rel _ _ (.read hfits h ha')))

theorem yields_deadline {o : Op} {part : Part} {now : Int}
    (hfits : (Outcome.deadline now : Outcome V).fits o part none = true) (n : ℕ)
    (startedAt completedAt : Int) :
    Yields cfg o part (cfg.recordInput o part n (.deadline now) none startedAt completedAt).row
      (.deadline (now + o.duration)) := by
  refine .deadline rfl ?_
  have htime := cfg.codec.decodeTime_encodeTime (now + o.duration)
  cases o with
  | sleep x =>
    cases part with
    | main => simp [Config.replayed, Config.recordInput, RecordOperationResultInput.row,
        OperationRow.recorded, Codec.recordedOutput, Codec.recordedError, htime]
    | deadline => cases hfits
  | recv | getEvent =>
    cases part with
    | main => cases hfits
    | deadline => simp [Config.replayed, Config.recordInput, RecordOperationResultInput.row,
        OperationRow.recorded, Codec.recordedOutput, Codec.recordedError, htime]
  | step | txn | getResult => cases part <;> cases hfits

/-- **The record of an outcome yields the outcome.** -/
theorem yields_executed {o : Op} {part : Part} {out : Outcome V} {err : Option GoError}
    (hfits : out.fits o part err = true) (n : ℕ) (startedAt completedAt : Int) :
    Yields cfg o part (cfg.recordInput o part n out err startedAt completedAt).row
      (cfg.codec.executed o err out) := by
  cases out with
  | value v childID =>
    obtain rfl : part = .main := by
      cases part with
      | main => rfl
      | deadline => cases o <;> cases hfits
    exact yields_answer hfits rfl n startedAt completedAt
  | message m serialization =>
    obtain rfl : part = .main := by simpa using (Bool.and_eq_true_iff.1 hfits).2
    exact yields_answer hfits rfl n startedAt completedAt
  | nothing =>
    obtain rfl : part = .main := by
      simpa using (Bool.and_eq_true_iff.1 (Bool.and_eq_true_iff.1 hfits).1).2
    exact yields_answer hfits rfl n startedAt completedAt
  | deadline now =>
    obtain rfl : err = none := by
      cases err with
      | none => rfl
      | some e => cases o <;> cases part <;> cases hfits
    exact yields_deadline hfits n startedAt completedAt

/-! ### The journal -/

def Accounts (cfg : Config V) (o : Op) (row : OperationRow) (a : Answer V) : Prop :=
  Yields cfg o .main row (.answer a) ∨ ∃ t d, Yields cfg o .main row (.deadline t) ∧ a = .slept d

theorem Accounts.sim {o : Op} {row : OperationRow} {a a' : Answer V} (h : Accounts cfg o row a)
    (h' : Accounts cfg o row a') : Sim cfg o a a' := by
  obtain h | ⟨t, d, h, rfl⟩ := h <;> obtain h' | ⟨t', d', h', rfl⟩ := h'
  · obtain ⟨a₁, hr, hsim⟩ := h.replayed_answer
    obtain ⟨a₂, hr', hsim'⟩ := h'.replayed_answer
    obtain rfl := Delivery.answer.inj (hr.symm.trans hr')
    exact hsim.symm.trans hsim'
  · obtain ⟨a₁, hr, -⟩ := h.replayed_answer
    cases hr.symm.trans h'.replayed_deadline
  · obtain ⟨a₂, hr', -⟩ := h'.replayed_answer
    cases hr'.symm.trans h.replayed_deadline
  · obtain ⟨x, rfl⟩ | ⟨hpart, -⟩ := replayed_eq_deadline h.replayed_deadline
    · exact Relation.EqvGen.rel _ _ (.slept d d')
    · cases hpart

def Backed (cfg : Config V) (db : Db) (e : Entry Op (Answer V)) : Prop :=
  ∃ row, cfg.row? db e.id = some row ∧ Accounts cfg e.op row e.answer

theorem Backed.sim {db : Db} (o : Op) (n : ℕ) (a a' : Answer V) (h : Backed cfg db ⟨o, n, a⟩)
    (h' : Backed cfg db ⟨o, n, a'⟩) : Sim cfg o a a' := by
  obtain ⟨row, hrow, hacc⟩ := h
  obtain ⟨row', hrow', hacc'⟩ := h'
  obtain rfl : row = row' := Option.some.inj (hrow.symm.trans hrow')
  exact hacc.sim hacc'

abbrev Walks (cfg : Config V) (db : Db) (π : Path Op (Answer V)) : Prop :=
  Follows Op.width (Backed cfg db) cfg.code π

/-- The row with a step ID was written by the operation at that place of the code. -/
def Covered (cfg : Config V) (db : Db) (id : ℕ) (row : OperationRow) : Prop :=
  ∃ π o k part d, Walks cfg db π ∧ π.rest = .ask o k ∧ part.Of o ∧ id = part.id π.next ∧
    Yields cfg o part row d

def Grows (cfg : Config V) (db db' : Db) : Prop :=
  ∀ id row, cfg.row? db id = some row → cfg.row? db' id = some row

theorem Grows.walks {db db' : Db} (h : Grows cfg db db') {π : Path Op (Answer V)}
    (hπ : Walks cfg db π) : Walks cfg db' π :=
  hπ.mono fun _ ⟨row, hrow, hacc⟩ => ⟨row, h _ _ hrow, hacc⟩

theorem Grows.covered {db db' : Db} (h : Grows cfg db db') {id : ℕ} {row : OperationRow}
    (hrow : Covered cfg db id row) : Covered cfg db' id row := by
  obtain ⟨π, o, k, part, d, hπ, hrest⟩ := hrow
  exact ⟨π, o, k, part, d, h.walks hπ, hrest⟩

theorem Part.id_lt {o : Op} {part : Part} (h : part.Of o) (n : ℕ) :
    n ≤ part.id n ∧ part.id n < n + o.width := by
  cases part with
  | main => cases o <;> simp [Part.id, Op.width]
  | deadline =>
    have hwait := h rfl
    cases o <;> simp [Part.id, Op.width, Op.isWait] at hwait ⊢

theorem Part.id_injective {part part' : Part} {n : ℕ} (h : part.id n = part'.id n) : part = part' := by
  cases part <;> cases part' <;> simp [Part.id] at h ⊢

/-- **A checkpoint under an ID of the operation is that of the operation.** -/
theorem Covered.yields (hcode : cfg.code.Respects (Recall cfg)) {db : Db}
    {π : Path Op (Answer V)} (hπ : Walks cfg db π) {o : Op} {k : Answer V → Program Op (Answer V)}
    (hrest : π.rest = .ask o k) {part : Part} (hof : part.Of o) {row : OperationRow}
    (h : Covered cfg db (part.id π.next) row) : ∃ d, Yields cfg o part row d := by
  obtain ⟨π', o', k', part', d, hπ', hrest', hof', hid, hyields⟩ := h
  obtain ⟨hle, hlt⟩ := Part.id_lt hof π.next
  obtain ⟨hle', hlt'⟩ := Part.id_lt hof' π'.next
  rw [← hid] at hle' hlt'
  obtain ⟨rfl, hnext⟩ := Follows.owner_unique hcode.eqvGen Backed.sim hπ hπ' hrest hrest' hle hlt
    hle' hlt'
  rw [← hnext] at hid
  obtain rfl := Part.id_injective hid
  exact ⟨d, hyields⟩

/-! ### Which outcomes of `GetResult` are recorded -/

def Survives (c : Codec V) (err : GoError) : Prop :=
  c.encodeError err ≠ "" ∧ c.decodeError (c.encodeError err) = err

/-- The polling handle records what it has read: the child was cancelled, or it has an output that can
be decoded and is not in the dead letter queue. -/
def AwaitResult.Recorded (c : Codec V) (r : AwaitResult) : Prop :=
  (r.err = none → r.output.isSome = true ∧ (c.decode r.serialization r.output).isOk = true) ∧
    ∀ err ∈ r.err, err.isCode .awaitedWorkflowCancelled = true ∧ Survives c err

def State.child? (s : State V) : Option String :=
  match s.path.rest with
  | .ask (.getResult childID _) _ => some childID
  | _ => none

/-- **The condition** on what `GetResult` returns. -/
def Recorded (cfg : Config V) (s : State V) : Action V → Prop
  | .receive _ err _ => ∀ childID ∈ s.child?, ∀ e ∈ outcomeError childID err, Survives cfg.codec e
  | .poll _ => ∀ childID ∈ s.child?, ∀ r ∈ awaitWorkflowResult s.db childID, r.Recorded cfg.codec
  | .closed | .timeout _ => False
  | _ => True

instance (c : Codec V) (err : GoError) : Decidable (Survives c err) :=
  inferInstanceAs (Decidable (_ ∧ _))

instance (c : Codec V) (r : AwaitResult) : Decidable (r.Recorded c) :=
  inferInstanceAs (Decidable
    ((r.err = none → r.output.isSome = true ∧ (c.decode r.serialization r.output).isOk = true) ∧
      ∀ err ∈ r.err, err.isCode .awaitedWorkflowCancelled = true ∧ Survives c err))

instance (cfg : Config V) (s : State V) (a : Action V) : Decidable (Recorded cfg s a) := by
  unfold Recorded
  split <;> infer_instance

/-! ### The invariant -/

/-- What the phase of an execution in the operation `o` says about the checkpoints. -/
def PhaseOk (cfg : Config V) (s : State V) (o : Op) : Phase V → Prop
  | .start => True
  | .checked _ => (∃ name, o = .step name) ∧ cfg.row? s.db s.path.next = none
  | .recording i a =>
    (cfg.row? s.db s.path.next = none ∨ cfg.row? s.db s.path.next = some i.row) ∧
      i.workflowID = cfg.workflowID ∧ i.stepID = s.path.next ∧ Yields cfg o .main i.row (.answer a)
  | .txn part _ => part.Of o
  | .txnChecked part _ => part.Of o ∧ cfg.row? s.db (part.id s.path.next) = none
  | .committing part i d _ =>
    part.Of o ∧ cfg.row? s.db (part.id s.path.next) = none ∧ i.workflowID = cfg.workflowID ∧
      i.stepID = part.id s.path.next ∧ Yields cfg o part i.row d
  | .sleeping _ => ∃ row t, cfg.row? s.db s.path.next = some row ∧
      Yields cfg o .main row (.deadline t)
  | .listening | .waiting => o.isWait = true
  | .awaiting _ => cfg.row? s.db s.path.next = none

/-- The executions follow the code, and the checkpoints are theirs. -/
structure Base (cfg : Config V) (s : State V) : Prop where
  running : isRunning cfg.workflowID s.db = true
  path : Walks cfg s.db s.path
  past : ∀ π ∈ s.past, Walks cfg s.db π
  rows : ∀ id row, cfg.row? s.db id = some row → Covered cfg s.db id row

structure Inv (cfg : Config V) (s : State V) : Prop extends Base cfg s where
  phase : ∀ o k, s.path.rest = .ask o k → PhaseOk cfg s o s.phase

theorem row?_insert (db : Db) (i : RecordOperationResultInput) (id : ℕ) :
    cfg.row? (Write.apply (.insertOperation i.row) db) id = (cfg.row? db id).or
      (if (i.workflowID, i.stepID) = (cfg.workflowID, (id : Int)) then some i.row else none) :=
  Table.find?_insert _ _ _

theorem grows_insert (cfg : Config V) (db : Db) (i : RecordOperationResultInput) :
    Grows cfg db (Write.apply (.insertOperation i.row) db) := by
  intro id row hrow
  rw [row?_insert, hrow]
  rfl

theorem row?_insert_self {db : Db} {i : RecordOperationResultInput} {id : ℕ}
    (hworkflow : i.workflowID = cfg.workflowID) (hid : i.stepID = id)
    (hnone : cfg.row? db id = none) :
    cfg.row? (Write.apply (.insertOperation i.row) db) id = some i.row := by
  rw [row?_insert, hnone, hworkflow, hid]
  exact if_pos rfl

theorem Base.insert (h : Base cfg s) {o : Op} {k : Answer V → Program Op (Answer V)}
    (hrest : s.path.rest = .ask o k) {part : Part} (hof : part.Of o)
    {i : RecordOperationResultInput} (hid : i.stepID = part.id s.path.next) {d : Delivery V}
    (hyields : Yields cfg o part i.row d) : Base cfg (s.insert i.row) := by
  have hgrows := grows_insert cfg s.db i
  refine ⟨h.running, hgrows.walks h.path, fun π hπ => hgrows.walks (h.past π hπ), ?_⟩
  intro id row hrow
  change cfg.row? (Write.apply (.insertOperation i.row) s.db) id = some row at hrow
  rw [row?_insert] at hrow
  cases hold : cfg.row? s.db id with
  | some row' =>
    rw [hold] at hrow
    obtain rfl : row' = row := Option.some.inj hrow
    exact hgrows.covered (h.rows id row' hold)
  | none =>
    rw [hold, Option.none_or] at hrow
    split_ifs at hrow with hkey
    cases hrow
    have hid' : id = part.id s.path.next := by
      have := (Prod.mk.inj hkey).2
      rw [hid] at this
      exact_mod_cast this.symm
    exact ⟨s.path, o, k, part, d, hgrows.walks h.path, hrest, hof, hid', hyields⟩

/-! ### The checks -/

theorem checkOperationExecution_of_isRunning {db : Db} (h : isRunning cfg.workflowID db = true)
    (id : ℕ) (name : String) :
    db.checkOperationExecution cfg.workflowID id name =
      match cfg.row? db id with
      | none => .ok none
      | some r =>
        if name ≠ r.functionName then
          .error (newUnexpectedStepError cfg.workflowID id name r.functionName)
        else .ok (some r.recorded) := by
  unfold isRunning at h
  unfold Db.checkOperationExecution
  cases hstatus : db.statusOf cfg.workflowID with
  | none => simp [hstatus] at h
  | some status =>
    cases status with
    | cancelled => simp [hstatus] at h
    | pending | enqueued | delayed | success | error | maxRecoveryAttemptsExceeded => rfl

theorem Base.check_none (h : Base cfg s) {id : ℕ} (hrow : cfg.row? s.db id = none) (name : String) :
    s.db.checkOperationExecution cfg.workflowID id name = .ok none := by
  rw [checkOperationExecution_of_isRunning h.running, hrow]

/-- **No check finds the checkpoint of another operation.** -/
theorem Base.check_some (hcode : cfg.code.Respects (Recall cfg)) (h : Base cfg s) {o : Op}
    {k : Answer V → Program Op (Answer V)} (hrest : s.path.rest = .ask o k) {part : Part}
    (hof : part.Of o) {row : OperationRow} (hrow : cfg.row? s.db (part.id s.path.next) = some row) :
    s.db.checkOperationExecution cfg.workflowID (part.id s.path.next) (part.name o) =
      .ok (some row.recorded) ∧ Yields cfg o part row (cfg.replayed o part row.recorded) := by
  obtain ⟨d, hyields⟩ := (h.rows _ row hrow).yields hcode h.path hrest hof
  refine ⟨?_, yields_replayed hyields⟩
  rw [checkOperationExecution_of_isRunning h.running, hrow]
  simp [hyields.name]

/-! ### Steps -/

theorem Base.answered (h : Base cfg s) {o : Op} {k : Answer V → Program Op (Answer V)}
    (hrest : s.path.rest = .ask o k) {row : OperationRow}
    (hrow : cfg.row? s.db s.path.next = some row) {a : Answer V} (hacc : Accounts cfg o row a) :
    Inv cfg (s.answered o.width a) :=
  ⟨⟨h.running, h.path.snoc hrest ⟨row, hrow, hacc⟩, h.past, h.rows⟩, fun _ _ _ => trivial⟩

theorem Base.deliver (h : Base cfg s) {o : Op} {k : Answer V → Program Op (Answer V)}
    (hrest : s.path.rest = .ask o k) {part : Part} (hof : part.Of o) {row : OperationRow}
    (hrow : cfg.row? s.db (part.id s.path.next) = some row) {d : Delivery V}
    (hyields : Yields cfg o part row d) (now : Int) : Inv cfg (s.deliver o now d) := by
  cases hyields with
  | answer hop hname hreplayed hsim =>
    exact h.answered hrest hrow (.inl (.answer hop hname hreplayed hsim))
  | @deadline part row t hname hreplayed =>
    unfold State.deliver
    split_ifs with hwait
    · refine ⟨⟨h.running, h.path, h.past, h.rows⟩, fun o' k' hrest' => ?_⟩
      obtain ⟨rfl, -⟩ := Program.ask.inj (hrest.symm.trans hrest')
      exact hwait
    · refine ⟨⟨h.running, h.path, h.past, h.rows⟩, fun o' k' hrest' => ?_⟩
      obtain ⟨rfl, -⟩ := Program.ask.inj (hrest.symm.trans hrest')
      obtain rfl : part = .main := by
        cases part with
        | main => rfl
        | deadline => exact (hwait (hof rfl)).elim
      exact ⟨row, t, hrow, .deadline hname hreplayed⟩

theorem Base.goto (h : Base cfg s) {o : Op} {k : Answer V → Program Op (Answer V)}
    (hrest : s.path.rest = .ask o k) {p : Phase V} (hp : PhaseOk cfg (s.goto p) o p) :
    Inv cfg (s.goto p) := by
  refine ⟨⟨h.running, h.path, h.past, h.rows⟩, fun o' k' hrest' => ?_⟩
  obtain ⟨rfl, -⟩ := Program.ask.inj (hrest.symm.trans hrest')
  exact hp

theorem Part.main_of (o : Op) : Part.main.Of o := nofun

theorem Inv.begin (hcode : cfg.code.Respects (Recall cfg)) (h : Inv cfg s) {o : Op}
    {k : Answer V → Program Op (Answer V)} (hrest : s.path.rest = .ask o k) {now : Int}
    (hstep : beginStep cfg s o now = some t) : Inv cfg t := by
  unfold beginStep at hstep
  by_cases htxn : o.isTxn = true
  · rw [if_pos htxn] at hstep
    cases hstep
    exact h.goto hrest (Part.main_of o)
  · rw [if_neg htxn] at hstep
    cases hrow : cfg.row? s.db s.path.next with
    | none =>
      rw [h.check_none hrow] at hstep
      simp only at hstep
      split_ifs at hstep with hwait hresult
      · cases hstep
        exact h.goto hrest hwait
      · cases hstep
        exact h.goto hrest hrow
      · cases hstep
        refine h.goto hrest ⟨?_, hrow⟩
        cases o with
        | step name => exact ⟨name, rfl⟩
        | txn | sleep => exact (htxn rfl).elim
        | recv | getEvent => exact (hwait rfl).elim
        | getResult => exact (hresult rfl).elim
    | some row =>
      obtain ⟨hcheck, hyields⟩ := h.check_some hcode hrest (Part.main_of o) hrow
      rw [show s.db.checkOperationExecution cfg.workflowID s.path.next o.name = _ from hcheck] at hstep
      cases hstep
      exact h.deliver hrest (Part.main_of o) hrow hyields now

theorem Inv.body (h : Inv cfg s) {o : Op} {k : Answer V → Program Op (Answer V)}
    (hrest : s.path.rest = .ask o k) {startedAt : Int} (hphase : s.phase = .checked startedAt) (v : V)
    (err : Option GoError) (completedAt : Int) :
    Inv cfg (s.goto (.recording
      (cfg.recordInput o .main s.path.next (.value v "") err startedAt completedAt)
      (.returned v err))) := by
  have hok := h.phase o k hrest
  rw [hphase] at hok
  obtain ⟨⟨name, rfl⟩, hnone⟩ := hok
  exact h.goto hrest ⟨.inl hnone, rfl, rfl, yields_answer rfl rfl _ _ _⟩

theorem sameWrite_row (i : RecordOperationResultInput) : i.sameWrite i.row = true := by
  simp only [RecordOperationResultInput.sameWrite, RecordOperationResultInput.row, nullableStrEq]
  split_ifs with hchild <;> simp [hchild]

theorem onConflict_row (i : RecordOperationResultInput) : i.onConflict (some i.row) = .ok () :=
  if_pos (sameWrite_row i)

theorem Inv.record (h : Inv cfg s) {o : Op} {k : Answer V → Program Op (Answer V)}
    (hrest : s.path.rest = .ask o k) {i : RecordOperationResultInput} {a : Answer V}
    (hphase : s.phase = .recording i a) (hstep : recordStep cfg s o i a = some t) : Inv cfg t := by
  have hok := h.phase o k hrest
  rw [hphase] at hok
  obtain ⟨hrow, hworkflow, hid, hyields⟩ := hok
  unfold recordStep at hstep
  obtain hnone | hsome := hrow
  · rw [hnone] at hstep
    cases hstep
    have hbase := h.toBase.insert hrest (Part.main_of o) hid hyields
    exact hbase.answered hrest (row?_insert_self hworkflow hid hnone) (.inl hyields)
  · rw [hsome] at hstep
    simp only [onConflict_row] at hstep
    cases hstep
    exact h.answered hrest hsome (.inl hyields)

theorem Inv.recordLost (h : Inv cfg s) {o : Op} {k : Answer V → Program Op (Answer V)}
    (hrest : s.path.rest = .ask o k) {i : RecordOperationResultInput} {a : Answer V}
    (hphase : s.phase = .recording i a) (hnone : cfg.row? s.db s.path.next = none) :
    Inv cfg (s.insert i.row) := by
  have hok := h.phase o k hrest
  rw [hphase] at hok
  obtain ⟨-, hworkflow, hid, hyields⟩ := hok
  refine ⟨h.toBase.insert hrest (Part.main_of o) hid hyields, fun o' k' hrest' => ?_⟩
  obtain ⟨rfl, -⟩ := Program.ask.inj (hrest.symm.trans hrest')
  change PhaseOk cfg (s.insert i.row) o s.phase
  rw [hphase]
  exact ⟨.inr (row?_insert_self hworkflow hid hnone), hworkflow, hid, hyields⟩

theorem Inv.txnCheck (hcode : cfg.code.Respects (Recall cfg)) (h : Inv cfg s) {o : Op}
    {k : Answer V → Program Op (Answer V)} (hrest : s.path.rest = .ask o k) {part : Part}
    {startedAt now : Int} (hphase : s.phase = .txn part startedAt)
    (hstep : txnCheckStep cfg s o part startedAt now = some t) : Inv cfg t := by
  have hof : part.Of o := by
    have := h.phase o k hrest
    rwa [hphase] at this
  unfold txnCheckStep at hstep
  cases hrow : cfg.row? s.db (part.id s.path.next) with
  | none =>
    rw [h.check_none hrow] at hstep
    cases hstep
    exact h.goto hrest ⟨hof, hrow⟩
  | some row =>
    obtain ⟨hcheck, hyields⟩ := h.check_some hcode hrest hof hrow
    rw [hcheck] at hstep
    simp only at hstep
    split_ifs at hstep
    · cases hstep
      exact h
    · cases hstep
      exact h.deliver hrest hof hrow hyields now

theorem Inv.txnBody (h : Inv cfg s) {o : Op} {k : Answer V → Program Op (Answer V)}
    (hrest : s.path.rest = .ask o k) {part : Part} {startedAt : Int}
    (hphase : s.phase = .txnChecked part startedAt) {out : Outcome V} {err : Option GoError}
    (hfits : out.fits o part err = true) (completedAt : Int) :
    Inv cfg (s.goto (.committing part
      (cfg.recordInput o part s.path.next out err startedAt completedAt)
      (cfg.codec.executed o err out) err)) := by
  have hok := h.phase o k hrest
  rw [hphase] at hok
  exact h.goto hrest ⟨hok.1, hok.2, rfl, rfl, yields_executed hfits _ _ _⟩

theorem Base.retry (h : Base cfg s) {o : Op} {k : Answer V → Program Op (Answer V)}
    (hrest : s.path.rest = .ask o k) {part : Part} (hof : part.Of o) (startedAt : Int) :
    Inv cfg (s.goto (.txn part startedAt)) :=
  h.goto hrest hof

theorem Inv.commit (h : Inv cfg s) {o : Op} {k : Answer V → Program Op (Answer V)}
    (hrest : s.path.rest = .ask o k) {part : Part} {i : RecordOperationResultInput}
    {d : Delivery V} {err : Option GoError} {now : Int} (hphase : s.phase = .committing part i d err)
    (hstep : commitStep cfg s o part i d err now = some t) : Inv cfg t := by
  have hok := h.phase o k hrest
  rw [hphase] at hok
  obtain ⟨hof, hnone, hworkflow, hid, hyields⟩ := hok
  have hbase : Base cfg (s.insert i.row) := h.toBase.insert hrest hof hid hyields
  unfold commitStep at hstep
  rw [hnone] at hstep
  simp only at hstep
  split_ifs at hstep
  · cases hstep
    exact hbase.retry hrest hof i.startedAt
  · cases hstep
    exact hbase.deliver hrest hof (row?_insert_self hworkflow hid hnone) hyields now

theorem Inv.commitLost (h : Inv cfg s) {o : Op} {k : Answer V → Program Op (Answer V)}
    (hrest : s.path.rest = .ask o k) {part : Part} {i : RecordOperationResultInput}
    {d : Delivery V} {err : Option GoError} (hphase : s.phase = .committing part i d err) :
    Inv cfg ((s.insert i.row).goto (.txn part i.startedAt)) := by
  have hok := h.phase o k hrest
  rw [hphase] at hok
  obtain ⟨hof, -, -, hid, hyields⟩ := hok
  exact (h.toBase.insert hrest hof hid hyields).retry hrest hof i.startedAt

theorem Inv.wake (h : Inv cfg s) {o : Op} {k : Answer V → Program Op (Answer V)}
    (hrest : s.path.rest = .ask o k) {remaining : Int} (hphase : s.phase = .sleeping remaining) :
    Inv cfg (s.answered o.width (.slept remaining)) := by
  have hok := h.phase o k hrest
  rw [hphase] at hok
  obtain ⟨row, t, hrow, hyields⟩ := hok
  exact h.answered hrest hrow (.inr ⟨t, remaining, hyields, rfl⟩)

/-! ### `GetResult` -/

def Got.Kept (cfg : Config V) (childID : String) (timeout : Option String) : Got V → Prop
  | .unrecorded _ => False
  | .recorded output errStr serialization a => ∀ n startedAt completedAt,
    cfg.replayed (.getResult childID timeout) .main
      (cfg.getResultInput childID n output errStr serialization startedAt completedAt).row.recorded =
        .answer a

theorem recordedError_encoded {c : Codec V} {err : Option GoError} (h : ∀ e ∈ err, Survives c e)
    {output : Option String} {serialization : String} :
    c.recordedError ⟨output, if err.map c.encodeError = some "" then none else err.map c.encodeError,
      serialization⟩ = err := by
  cases err with
  | none => rfl
  | some e =>
    obtain ⟨hne, heq⟩ := h e rfl
    simp [Codec.recordedError, hne, heq]

theorem replayed_getResult_none {childID : String} {timeout : Option String} {r : RecordedResult}
    (h : r.output = none) : cfg.replayed (.getResult childID timeout) .main r =
      .answer (.returned cfg.codec.zero (cfg.codec.recordedError r)) := by
  simp [Config.replayed, h]

theorem replayed_getResult_some {childID : String} {timeout : Option String} {r : RecordedResult}
    {output : String} {v : V} (h : r.output = some output)
    (hdecode : cfg.codec.decode r.serialization (some output) = .ok v) :
    cfg.replayed (.getResult childID timeout) .main r =
      .answer (.returned v (cfg.codec.recordedError r)) := by
  simp [Config.replayed, h, hdecode]

theorem kept_processOutcome (childID : String) (timeout : Option String) (v : V)
    {err : Option GoError} (h : ∀ e ∈ outcomeError childID err, Survives cfg.codec e) :
    (cfg.codec.processOutcome childID v err).Kept cfg childID timeout := by
  unfold Codec.processOutcome
  simp only
  split_ifs
  · intro n startedAt completedAt
    rw [replayed_getResult_none rfl]
    exact congrArg (fun e => Delivery.answer (.returned _ e)) (recordedError_encoded h)
  · intro n startedAt completedAt
    rw [replayed_getResult_some rfl (cfg.codec.decode_encode v)]
    exact congrArg (fun e => Delivery.answer (.returned _ e)) (recordedError_encoded h)

theorem errStr_ne_empty {db : Db} {childID : String} {r : AwaitResult}
    (h : awaitWorkflowResult db childID = some r) : r.errStr ≠ some "" := by
  unfold awaitWorkflowResult at h
  split at h
  · cases h
  next row _ =>
    simp only at h
    split at h
    case h_5 | h_6 | h_7 => cases h
    case h_3 | h_4 =>
      cases h
      nofun
    all_goals
      cases h
      intro herr
      exact absurd (Option.filter_eq_some_iff.1 herr).2 (by simp)

theorem kept_processAwait (childID : String) (timeout : Option String) {r : AwaitResult}
    (h : r.Recorded cfg.codec) (herr : r.errStr ≠ some "") :
    (cfg.codec.processAwait r).Kept cfg childID timeout := by
  obtain ⟨hnone, hsome⟩ := h
  unfold Codec.processAwait
  cases he : r.err with
  | none =>
    obtain ⟨houtput, hok⟩ := hnone he
    obtain ⟨output, houtput⟩ := Option.isSome_iff_exists.1 houtput
    rw [houtput] at hok
    cases hdecode : cfg.codec.decode r.serialization (some output) with
    | error err =>
      rw [hdecode] at hok
      cases hok
    | ok v =>
      simp only [houtput, hdecode, Option.any_none, Option.isSome_none, Option.none_or]
      intro n startedAt completedAt
      rw [replayed_getResult_some rfl hdecode]
      simp [Codec.recordedError, OperationRow.recorded, RecordOperationResultInput.row,
        Config.getResultInput, herr]
  | some e =>
    simp only [Option.any_some, (hsome e he).1, if_true]
    intro n startedAt completedAt
    rw [replayed_getResult_none rfl]
    have hseen : ∀ e' ∈ some e, Survives cfg.codec e' := fun e' he' => (hsome e' (he.trans he')).2
    exact congrArg (fun e => Delivery.answer (.returned _ e)) (recordedError_encoded hseen)

theorem Inv.got (h : Inv cfg s) {childID : String} {timeout : Option String}
    {k : Answer V → Program Op (Answer V)} (hrest : s.path.rest = .ask (.getResult childID timeout) k)
    {startedAt : Int} (hphase : s.phase = .awaiting startedAt) {got : Got V}
    (hkept : got.Kept cfg childID timeout) (completedAt : Int) :
    Inv cfg (gotStep cfg s childID startedAt completedAt got) := by
  have hnone : cfg.row? s.db s.path.next = none := by
    have := h.phase _ k hrest
    rwa [hphase] at this
  cases got with
  | unrecorded a => exact hkept.elim
  | recorded output errStr serialization a =>
    refine h.goto hrest ⟨.inl hnone, rfl, rfl, ?_⟩
    exact .answer nofun rfl (hkept _ _ _) (Relation.EqvGen.refl _)

/-! ### Runs -/

theorem inv_opStep (hcode : cfg.code.Respects (Recall cfg)) (h : Inv cfg s) {o : Op}
    {k : Answer V → Program Op (Answer V)} (hrest : s.path.rest = .ask o k) {a : Action V}
    (hrecorded : Recorded cfg s a) (hstep : opStep cfg s o a = some t) : Inv cfg t := by
  have hok := h.phase o k hrest
  cases a with
  | begin now =>
    cases hphase : s.phase with
    | start =>
      simp only [opStep, hphase] at hstep
      exact h.begin hcode hrest hstep
    | _ => simp [opStep, hphase] at hstep
  | body v err completedAt =>
    cases hphase : s.phase with
    | checked startedAt =>
      simp only [opStep, hphase] at hstep
      cases hstep
      exact h.body hrest hphase v err completedAt
    | _ => simp [opStep, hphase] at hstep
  | record =>
    cases hphase : s.phase with
    | recording i a =>
      simp only [opStep, hphase] at hstep
      exact h.record hrest hphase hstep
    | _ => simp [opStep, hphase] at hstep
  | recordLost =>
    cases hphase : s.phase with
    | recording i a =>
      simp only [opStep, hphase] at hstep
      split at hstep
      next hnone =>
        cases hstep
        exact h.recordLost hrest hphase hnone
      next =>
        cases hstep
        exact h
    | _ => simp [opStep, hphase] at hstep
  | txnCheck now =>
    cases hphase : s.phase with
    | txn part startedAt =>
      simp only [opStep, hphase] at hstep
      exact h.txnCheck hcode hrest hphase hstep
    | _ => simp [opStep, hphase] at hstep
  | txnBody out err completedAt =>
    cases hphase : s.phase with
    | txnChecked part startedAt =>
      simp only [opStep, hphase] at hstep
      split_ifs at hstep with hfits
      cases hstep
      exact h.txnBody hrest hphase hfits completedAt
    | _ => simp [opStep, hphase] at hstep
  | commit now =>
    cases hphase : s.phase with
    | committing part i d err =>
      simp only [opStep, hphase] at hstep
      exact h.commit hrest hphase hstep
    | _ => simp [opStep, hphase] at hstep
  | commitLost =>
    cases hphase : s.phase with
    | committing part i d err =>
      rw [hphase] at hok
      simp only [opStep, hphase, hok.2.1] at hstep
      cases hstep
      exact h.commitLost hrest hphase
    | _ => simp [opStep, hphase] at hstep
  | abort =>
    cases hphase : s.phase with
    | txnChecked part startedAt | committing part i d err =>
      rw [hphase] at hok
      simp only [opStep, hphase] at hstep
      cases hstep
      exact h.retry hrest hok.1 _
    | _ => simp [opStep, hphase] at hstep
  | listen pending now =>
    cases hphase : s.phase with
    | listening =>
      rw [hphase] at hok
      simp only [opStep, hphase] at hstep
      cases hstep
      exact h.retry hrest (fun _ => hok) now
    | _ => simp [opStep, hphase] at hstep
  | wake =>
    cases hphase : s.phase with
    | sleeping remaining =>
      simp only [opStep, hphase] at hstep
      cases hstep
      exact h.wake hrest hphase
    | _ => simp [opStep, hphase] at hstep
  | arrive now =>
    cases hphase : s.phase with
    | waiting =>
      simp only [opStep, hphase] at hstep
      cases hstep
      exact h.retry hrest (Part.main_of o) now
    | _ => simp [opStep, hphase] at hstep
  | receive v err completedAt =>
    simp only [opStep] at hstep
    split at hstep
    next startedAt childID timeout hphase =>
      cases hstep
      have hchild : childID ∈ s.child? := by rw [State.child?, hrest]; rfl
      exact h.got hrest hphase (kept_processOutcome childID timeout v (hrecorded childID hchild))
        completedAt
    next => cases hstep
  | poll completedAt =>
    simp only [opStep] at hstep
    split at hstep
    next startedAt childID timeout hphase =>
      have hchild : childID ∈ s.child? := by rw [State.child?, hrest]; rfl
      split at hstep
      next => cases hstep
      next r hr =>
        split_ifs at hstep
        · cases hstep
          exact h
        · cases hstep
          exact h.got hrest hphase (kept_processAwait childID timeout
            (hrecorded childID hchild r hr) (errStr_ne_empty hr)) completedAt
    next => cases hstep
  | closed | timeout polling => exact hrecorded.elim
  | crash | environment db => cases hstep

theorem row?_eq_of_checkpoints {db db' : Db}
    (h : checkpoints cfg.workflowID db' = checkpoints cfg.workflowID db) (id : ℕ) :
    cfg.row? db' id = cfg.row? db id := by
  have hfind (db : Db) : cfg.row? db id =
      (checkpoints cfg.workflowID db).find? fun r =>
        (r.workflowID, r.functionID) = (cfg.workflowID, (id : Int)) := by
    rw [checkpoints, List.find?_filter]
    refine congrArg (db.operations.rows.find? ·) (funext fun r => ?_)
    by_cases hr : r.workflowID = cfg.workflowID <;> simp [hr]
  rw [hfind, hfind, h]

theorem Inv.environment (h : Inv cfg s) {db : Db}
    (hdb : checkpoints cfg.workflowID db = checkpoints cfg.workflowID s.db)
    (hrunning : isRunning cfg.workflowID db = true) : Inv cfg { s with db := db } := by
  have hrow := row?_eq_of_checkpoints hdb
  have hgrows : Grows cfg s.db db := fun id row hid => (hrow id).trans hid
  refine ⟨⟨hrunning, hgrows.walks h.path, fun π hπ => hgrows.walks (h.past π hπ), ?_⟩, ?_⟩
  · exact fun id row hid => hgrows.covered (h.rows id row ((hrow id).symm.trans hid))
  · intro o k hrest
    have hok := h.phase o k hrest
    unfold PhaseOk at hok ⊢
    simp only [hrow]
    exact hok

theorem Inv.crash (h : Inv cfg s) :
    Inv cfg { db := s.db, path := .start cfg.code, phase := .start, past := s.past ++ [s.path] } := by
  refine ⟨⟨h.running, .start, fun π hπ => ?_, h.rows⟩, fun _ _ _ => trivial⟩
  rcases List.mem_append.1 hπ with hπ | hπ
  · exact h.past π hπ
  · obtain rfl := List.mem_singleton.1 hπ
    exact h.path

theorem inv_step (hcode : cfg.code.Respects (Recall cfg)) (h : Inv cfg s) {a : Action V}
    (hrecorded : Recorded cfg s a) (hstep : step cfg s a = some t) : Inv cfg t := by
  cases a with
  | crash =>
    cases hstep
    exact h.crash
  | environment db =>
    simp only [step] at hstep
    split_ifs at hstep with hdb
    cases hstep
    exact h.environment hdb.1 hdb.2
  | _ =>
    simp only [step] at hstep
    cases hrest : s.path.rest with
    | ask o k =>
      rw [hrest] at hstep
      exact inv_opStep hcode h hrest hrecorded hstep
    | done =>
      rw [hrest] at hstep
      cases hstep

theorem inv_of_init (h : Init cfg s) : Inv cfg s := by
  obtain ⟨hnone, hrunning, hpath, hphase, hpast⟩ := h
  refine ⟨⟨hrunning, hpath ▸ .start, fun π hπ => ?_, fun id row hrow => ?_⟩, fun o k _ => ?_⟩
  · rw [hpast] at hπ
    cases hπ
  · have hfind : s.db.operations.find? (cfg.workflowID, (id : Int)) = some row := hrow
    have hkey := Table.key_of_find? hfind
    have hmem : row ∈ checkpoints cfg.workflowID s.db :=
      List.mem_filter.2 ⟨Table.mem_of_find? hfind, by simpa using (Prod.mk.inj hkey).1⟩
    rw [hnone] at hmem
    cases hmem
  · rw [hphase]
    trivial

/-- Every execution follows the code, and the checkpoints are those of its operations. -/
theorem inv_of_reaches (hcode : cfg.code.Respects (Recall cfg))
    (h : Reaches (system cfg) (Recorded cfg) s) : Inv cfg s :=
  Reaches.invariant (I := Inv cfg) (fun _ h => inv_of_init h)
    (fun _ _ _ h hc hstep => inv_step hcode h hc hstep) h

end Dbos.Code
