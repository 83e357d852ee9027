import DbosTransact.Replay.Journal

/-!
# The replay law

For code without `GetResult`, whatever crashes. The code must not depend on the duration that `Sleep`
returns, nor on what the record of an outcome does not keep of it, like the type of an error.
-/

namespace Dbos.Code

open Relational Lts Replay

variable {V : Type} {cfg : Config V} {s t : State V}

/-! ### What is claimed -/

/-- The operations and their step IDs are those of every earlier execution, as far as both have come. -/
def SameIDs (s : State V) : Prop :=
  ∀ π ∈ s.past, π.assigned <+: s.path.assigned ∨ s.path.assigned <+: π.assigned

instance (s : State V) : Decidable (SameIDs s) :=
  inferInstanceAs (Decidable (∀ _ ∈ s.past, _))

/-- The answer read from a checkpoint at the given time; `Sleep` returns what remains until the
recorded deadline. -/
def Config.recalled (cfg : Config V) (o : Op) (row : OperationRow) (now : Int) : Answer V :=
  match cfg.replayed o .main row.recorded with
  | .answer a => a
  | .deadline t => .slept (max 0 (t - now))

def replaying (o : Op) (now : Int) : List (Action V) :=
  match o with
  | .txn _ => [.begin now, .txnCheck now]
  | .sleep _ => [.begin now, .txnCheck now, .wake]
  | .step _ | .recv _ _ | .getEvent _ _ _ | .getResult _ _ => [.begin now]

/-- The error recorded for a transaction is one after which `runAsTxn` begins it again. -/
def Config.loops (cfg : Config V) (o : Op) (row : OperationRow) : Bool :=
  match o with
  | .txn _ => cfg.retried (cfg.codec.recordedError row.recorded)
  | .step _ | .sleep _ | .recv _ _ | .getEvent _ _ _ | .getResult _ _ => false

/-- An operation whose checkpoint is committed returns what is recorded. -/
def ReturnsRecorded (cfg : Config V) (s : State V) : Prop :=
  ∀ o k row, s.path.rest = .ask o k → s.phase = .start → cfg.row? s.db s.path.next = some row →
    cfg.loops o row = false → ∀ now, ∃ t, exec (system cfg) s (replaying o now) = some t ∧
      t.path = s.path.answer o.width (cfg.recalled o row now)

def State.bodyID? (s : State V) : Action V → Option ℕ
  | .body _ _ _ => some s.path.next
  | .txnBody _ _ _ =>
    match s.phase with
    | .txnChecked part _ => some (part.id s.path.next)
    | _ => none
  | _ => none

/-- No step function or transaction body is run where a checkpoint is committed. -/
def BodiesFresh (cfg : Config V) (s : State V) : Prop :=
  ∀ a t, step cfg s a = some t → ∀ id ∈ s.bodyID? a, cfg.row? s.db id = none

/-! ### Replays -/

theorem Inv.sameIDs (hcode : cfg.code.Respects (Recall cfg)) (h : Inv cfg s) : SameIDs s :=
  fun π hπ => Follows.assigned_comparable hcode.eqvGen Backed.sim (h.past π hπ) h.path

theorem recordedError_of_replayed {x : Int} {r : RecordedResult} {t : Int}
    (h : cfg.replayed (.sleep x) .main r = .deadline t) : cfg.codec.recordedError r = none := by
  simp only [Config.replayed] at h
  split at h
  next herr => exact herr
  next => cases h
  next => cases h

theorem Inv.begin_eq (hcode : cfg.code.Respects (Recall cfg)) (h : Inv cfg s) {o : Op}
    {k : Answer V → Program Op (Answer V)} (hrest : s.path.rest = .ask o k)
    (hphase : s.phase = .start) {row : OperationRow} (hrow : cfg.row? s.db s.path.next = some row)
    (htxn : o.isTxn = false) (now : Int) :
    step cfg s (.begin now) = some (s.deliver o now (cfg.replayed o .main row.recorded)) := by
  have hcheck : s.db.checkOperationExecution cfg.workflowID s.path.next o.name = _ :=
    (h.check_some hcode hrest (Part.main_of o) hrow).1
  simp only [step, hrest, opStep, hphase, beginStep, htxn, hcheck, Bool.false_eq_true, if_false]

theorem Base.txnCheck_eq (hcode : cfg.code.Respects (Recall cfg)) (h : Base cfg s) {o : Op}
    {k : Answer V → Program Op (Answer V)} (hrest : s.path.rest = .ask o k) {startedAt : Int}
    (hphase : s.phase = .txn .main startedAt) {row : OperationRow}
    (hrow : cfg.row? s.db s.path.next = some row)
    (hretried : cfg.retried (cfg.codec.recordedError row.recorded) = false) (now : Int) :
    step cfg s (.txnCheck now) = some (s.deliver o now (cfg.replayed o .main row.recorded)) := by
  have hcheck := (h.check_some hcode hrest (Part.main_of o) hrow).1
  simp only [step, hrest, opStep, hphase, txnCheckStep, hcheck, hretried, Bool.false_eq_true,
    if_false]

theorem begin_txn {o : Op} {k : Answer V → Program Op (Answer V)} (hrest : s.path.rest = .ask o k)
    (hphase : s.phase = .start) (htxn : o.isTxn = true) (now : Int) :
    step cfg s (.begin now) = some (s.goto (.txn .main now)) := by
  simp only [step, hrest, opStep, hphase, beginStep, htxn, if_true]

theorem wake_eq (cfg : Config V) {o : Op} {k : Answer V → Program Op (Answer V)}
    (hrest : s.path.rest = .ask o k) {remaining : Int} (hphase : s.phase = .sleeping remaining) :
    step cfg s .wake = some (s.answered o.width (.slept remaining)) := by
  simp only [step, hrest, opStep, hphase]

theorem exec_singleton {a : Action V} (h : step cfg s a = some t) :
    exec (system cfg) s [a] = some t := by
  simp only [exec, system, h, Option.bind_some]

/-- `runAsTxn` finds the checkpoint of its operation. -/
theorem Inv.exec_txn (hcode : cfg.code.Respects (Recall cfg)) (h : Inv cfg s) {o : Op}
    {k : Answer V → Program Op (Answer V)} (hrest : s.path.rest = .ask o k)
    (hphase : s.phase = .start) {row : OperationRow} (hrow : cfg.row? s.db s.path.next = some row)
    (htxn : o.isTxn = true) (hretried : cfg.retried (cfg.codec.recordedError row.recorded) = false)
    (now : Int) : exec (system cfg) s [.begin now, .txnCheck now] =
      some ((s.goto (.txn .main now)).deliver o now (cfg.replayed o .main row.recorded)) := by
  have hbegun : Base cfg (s.goto (.txn .main now)) :=
    (h.toBase.retry hrest (Part.main_of o) now).toBase
  have hcheck := hbegun.txnCheck_eq hcode hrest rfl hrow hretried now
  simp only [exec, system, begin_txn hrest hphase htxn now, hcheck, Option.bind_some]

theorem Inv.returnsRecorded (hcode : cfg.code.Respects (Recall cfg)) (h : Inv cfg s) :
    ReturnsRecorded cfg s := by
  intro o k row hrest hphase hrow hloops now
  have hyields := (h.check_some hcode hrest (Part.main_of o) hrow).2
  unfold Config.recalled
  cases hd : cfg.replayed o .main row.recorded with
  | answer a =>
    rw [hd] at hyields
    cases hyields with
    | answer hop _ _ _ =>
      cases o with
      | sleep x => exact (hop x rfl).elim
      | txn name =>
        have hexec := h.exec_txn hcode hrest hphase hrow rfl hloops now
        rw [hd] at hexec
        exact ⟨_, hexec, rfl⟩
      | step name | recv topic timeout | getEvent target key timeout | getResult childID timeout =>
        have hbegin := h.begin_eq hcode hrest hphase hrow rfl now
        rw [hd] at hbegin
        exact ⟨_, exec_singleton hbegin, rfl⟩
  | deadline t =>
    obtain ⟨x, rfl⟩ | ⟨hpart, -⟩ := replayed_eq_deadline hd
    · have hretried : cfg.retried (cfg.codec.recordedError row.recorded) = false := by
        rw [recordedError_of_replayed hd]
        rfl
      have hexec := h.exec_txn hcode hrest hphase hrow rfl hretried now
      rw [hd] at hexec
      have hrest' : (s.goto (.sleeping (max 0 (t - now)))).path.rest = .ask (.sleep x) k := hrest
      have hwake := wake_eq cfg hrest' rfl
      exact ⟨_, (exec_append hexec).trans (exec_singleton hwake), rfl⟩
    · cases hpart

theorem Inv.bodiesFresh (h : Inv cfg s) : BodiesFresh cfg s := by
  intro a t hstep id hid
  cases hrest : s.path.rest with
  | done => cases a <;> simp [State.bodyID?, step, hrest] at hid hstep
  | ask o k =>
    have hok := h.phase o k hrest
    cases a with
    | body v err completedAt =>
      cases hid
      simp only [step, hrest, opStep] at hstep
      split at hstep
      next startedAt hphase =>
        rw [hphase] at hok
        exact hok.2
      next => cases hstep
    | txnBody out err completedAt =>
      simp only [State.bodyID?] at hid
      split at hid
      next part startedAt hphase =>
        cases hid
        rw [hphase] at hok
        exact hok.2
      next => cases hid
    | _ => cases hid

/-- Code without `GetResult` meets the condition on `GetResult`. -/
theorem recorded_of_all (hall : s.path.rest.All fun o => o.isGetResult = false) {a : Action V}
    (hstep : step cfg s a = some t) : Recorded cfg s a := by
  have hchild : s.child? = none := by
    unfold State.child?
    split
    next hrest =>
      rw [hrest] at hall
      cases hall.1
    next => rfl
  cases a with
  | receive v err completedAt | poll completedAt =>
    intro childID hmem
    rw [hchild] at hmem
    cases hmem
  | closed | timeout polling =>
    simp only [step] at hstep
    split at hstep
    next o k hrest =>
      rw [hrest] at hall
      simp only [opStep] at hstep
      split at hstep
      next => cases hall.1
      next => cases hstep
    next => cases hstep
  | _ => trivial

/-- **The replay law.** -/
theorem replay_law (hcode : cfg.code.Respects (Recall cfg))
    (hall : cfg.code.All fun o => o.isGetResult = false)
    (h : Reaches (system cfg) (fun _ _ => True) s) :
    SameIDs s ∧ ReturnsRecorded cfg s ∧ BodiesFresh cfg s := by
  have hinv : Inv cfg s := Reaches.invariant (I := Inv cfg) (fun _ h => inv_of_init h)
    (fun _ _ _ h _ hstep => inv_step hcode h (recorded_of_all (h.path.all hall) hstep) hstep) h
  exact ⟨hinv.sameIDs hcode, hinv.returnsRecorded hcode, hinv.bodiesFresh⟩

/-! ### Code that depends on the duration slept -/

section Slept

def unary (t : Int) : String :=
  String.ofList (List.replicate t.natAbs (if t < 0 then '-' else '+'))

def unaryTime (text : String) : Int :=
  if '-' ∈ text.toList then -(text.toList.length : Int) else text.toList.length

theorem unaryTime_unary (t : Int) : unaryTime (unary t) = t := by
  unfold unaryTime unary
  rw [String.toList_ofList, List.length_replicate]
  split_ifs with ht hmem hmem <;> simp at hmem <;> omega

/-- A serializer for a type with one value; of an error only the text is kept. -/
def plain : Codec Unit where
  name := "plain"
  zero := ()
  encode _ := ""
  decode _ _ := .ok ()
  encodeTime := unary
  decodeTime _ text := .ok (unaryTime (text.getD ""))
  encodeError err := err.errorText
  decodeError text := .new text
  decode_encode _ := rfl
  decodeTime_encodeTime t := congrArg Except.ok (unaryTime_unary t)

def running (code : Program Op (Answer Unit)) : Config Unit where
  workflowID := "w"
  dialect := .postgres
  codec := plain
  code := code

def before (code : Program Op (Answer Unit)) (other : WorkflowRow) : State Unit where
  db :=
    { status := .insert (.insert .empty { workflowID := "w", status := .pending }) other
      waiters := .empty
      notifications := .empty
      events := .empty
      eventsHistory := .empty
      operations := .empty }
  path := .start code
  phase := .start
  past := []

def bystander : WorkflowRow := { workflowID := "c", status := .pending }

theorem init_before (code : Program Op (Answer Unit)) :
    Init (running code) (before code bystander) :=
  ⟨rfl, rfl, rfl, rfl, rfl⟩

def thenStep (name : String) : Program Op (Answer Unit) := .ask (.step name) fun _ => .done

def clockBound : Program Op (Answer Unit) :=
  .ask (.sleep 10) fun a => if a = .slept 10 then thenStep "a" else thenStep "b"

def clockFree : Program Op (Answer Unit) := .ask (.sleep 10) fun _ => thenStep "a"

/-- The first execution sleeps and dies; the second finds half of the time gone. -/
def sleepTwice : List (Action Unit) :=
  [.begin 0, .txnCheck 0, .txnBody (.deadline 0) none 10, .commit 0, .wake, .crash,
    .begin 5, .txnCheck 5, .wake]

/-- The ID 1 belongs to different operations in the two executions. -/
theorem sleep_not_replayed :
    ∃ s, Reaches (system (running clockBound)) (fun _ _ => True) s ∧ ¬ SameIDs s := by
  obtain ⟨s, hs, hp⟩ := exists_reaches (S := system (running clockBound)) (fun _ _ => True)
    (s := before clockBound bystander) sleepTwice (fun s => decide (¬ SameIDs s)) (init_before _)
    (fun _ _ => trivial) (by decide +kernel)
  exact ⟨s, hs, of_decide_eq_true hp⟩

theorem respects_clockFree : clockFree.Respects (Recall (running clockFree)) :=
  ⟨fun _ _ _ => rfl, fun _ => ⟨fun _ _ _ => rfl, fun _ => trivial⟩⟩

theorem replay_law_clockFree :
    ∃ s, Reaches (system (running clockFree)) (fun _ _ => True) s ∧ s.past ≠ [] ∧
      SameIDs s ∧ ReturnsRecorded (running clockFree) s ∧ BodiesFresh (running clockFree) s := by
  obtain ⟨s, hs, hp⟩ := exists_reaches (S := system (running clockFree)) (fun _ _ => True)
    (s := before clockFree bystander) sleepTwice (fun s => !s.past.isEmpty) (init_before _)
    (fun _ _ => trivial) (by decide +kernel)
  refine ⟨s, hs, by simpa using hp, replay_law respects_clockFree ?_ hs⟩
  exact ⟨rfl, fun _ => ⟨rfl, fun _ => trivial⟩⟩

end Slept

end Dbos.Code
