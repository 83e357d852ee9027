import DbosTransact.Gates.Recv

/-!
# Replaying a gate

What a `GateRecv` returns is a payload and a delivery. The payload is in the checkpoint; the delivery is
returned by the execution that has committed the checkpoint, but it is not recorded, so a replay returns the
same pair exactly if there was none. An execution that takes an equal checkpoint of another for its own is
excluded (`OwnCheckpoints`).
-/

namespace Dbos.GateRecv

open Relational Lts

variable {n m : ℕ} {cfg : Config} {s t : State n m} {d d' : Data}

def SamePair (x y : Return) : Prop := y.payload = x.payload ∧ y.deliveryID = x.deliveryID

def Phase.offers? (cfg : Config) : Phase → ExecAction → Option RecordOperationResultInput
  | .closed a message _ _, .commit completedAt _ => some (cfg.recordInput a message completedAt)
  | _, _ => none

def OwnCheckpoints (cfg : Config) (s : State n m) : Action n m → Prop
  | .exec e x => ∀ i ∈ (s.execs e).offers? cfg x, (s.data.row? cfg i.stepID).any i.sameWrite = false
  | .client _ _ | .env _ => True

instance (cfg : Config) (s : State n m) : DecidablePred (OwnCheckpoints cfg s) := fun a =>
  match a with
  | .exec e x => inferInstanceAs (Decidable (∀ _ ∈ (s.execs e).offers? cfg x, _))
  | .client _ _ | .env _ => inferInstanceAs (Decidable True)

/-! ### What was returned is what is recorded -/

def Recorded (cfg : Config) (d : Data) (y : Return) : Prop :=
  ∃ row, d.row? cfg y.stepID = some row ∧ y.payload = (row.output, row.serialization.getD "")

theorem Recorded.payload_eq {x y : Return} (hx : Recorded cfg d x) (hy : Recorded cfg d y)
    (h : x.stepID = y.stepID) : x.payload = y.payload := by
  obtain ⟨row, hrow, hpayload⟩ := hx
  obtain ⟨row', hrow', hpayload'⟩ := hy
  rw [h] at hrow
  obtain rfl := Option.some.inj (hrow.symm.trans hrow')
  rw [hpayload, hpayload']

theorem Recorded.mono {y : Return} (h : Recorded cfg d y)
    (hrows : ∀ stepID row, d.row? cfg stepID = some row → d'.row? cfg stepID = some row) :
    Recorded cfg d' y :=
  h.imp fun row hrow => ⟨hrows _ row hrow.1, hrow.2⟩

theorem recorded_of_check {stepID : Int} {r : RecordedResult} {y : Return}
    (hcheck : d.check cfg stepID = .ok (some r)) (hy : replayed stepID r = some y) :
    Recorded cfg d y ∧ y.deliveryID = "" := by
  simp only [replayed, Option.ite_none_right_eq_some, Option.some.injEq] at hy
  obtain ⟨-, rfl⟩ := hy
  refine ⟨?_, rfl⟩
  unfold Data.check Db.checkOperationExecution at hcheck
  split at hcheck
  · cases hcheck
  · cases hcheck
  · split at hcheck
    · cases hcheck
    next row hrow =>
      split_ifs at hcheck
      obtain rfl := Option.some.inj (Except.ok.inj hcheck)
      exact ⟨row, hrow, rfl⟩

/-- What is returned without a commit comes from a checkpoint. -/
theorem check_of_quietStep {free : Lock → Bool} {p p' : Phase} {x : ExecAction} {y : Return}
    (h : quietStep cfg free d p x = some (p', some y)) :
    ∃ stepID r, d.check cfg stepID = .ok (some r) ∧ replayed stepID r = some y := by
  unfold quietStep at h
  split at h
  case h_1 stepID =>
    split at h
    · cases h
    next r hr =>
      simp only [Option.some.injEq, Prod.mk.injEq] at h
      exact ⟨stepID, r, hr, h.2⟩
    · cases h
  case h_4 a =>
    split at h
    · cases h
    next r hr =>
      simp only [Option.some.injEq, Prod.mk.injEq] at h
      exact ⟨a.call.stepID, r, hr, h.2⟩
    · cases h
  all_goals
    first
    | cases h
    | split_ifs at h; cases h

/-! ### All runs -/

/-- The invariant: what was returned is recorded, and only the first call at a step has a delivery. -/
structure ReplayInv (cfg : Config) (s : State n m) : Prop where
  recorded : ∀ y ∈ s.returns, Recorded cfg s.data y
  first : s.returns.Pairwise fun x y => x.stepID = y.stepID → y.deliveryID = ""

theorem ReplayInv.add (h : ReplayInv cfg s) {p : Fin n → Phase} {y : Return} (hnew : Recorded cfg d y)
    (hrows : ∀ stepID row, s.data.row? cfg stepID = some row → d.row? cfg stepID = some row)
    (hfirst : ∀ x ∈ s.returns, x.stepID = y.stepID → y.deliveryID = "") :
    ReplayInv cfg { s with data := d, execs := p, returns := s.returns ++ [y] } := by
  refine ⟨fun x hx => ?_, List.pairwise_append.2 ⟨h.first, List.pairwise_singleton _ y, ?_⟩⟩
  · rcases List.mem_append.1 hx with hx | hx
    · exact (h.recorded x hx).mono hrows
    · exact List.mem_singleton.1 hx ▸ hnew
  · intro x hx z hz
    obtain rfl := List.mem_singleton.1 hz
    exact hfirst x hx

theorem ReplayInv.mono (h : ReplayInv cfg s) {p : Fin n → Phase} {q : Fin m → Delivery}
    (hrows : ∀ stepID row, s.data.row? cfg stepID = some row → d.row? cfg stepID = some row) :
    ReplayInv cfg { s with data := d, execs := p, clients := q } :=
  ⟨fun y hy => (h.recorded y hy).mono hrows, h.first⟩

theorem row?_commit_of_some {a : Recv.Attempt} {message : Option NotificationRow}
    {closedAt completedAt stepID : Int} {row : OperationRow} (h : d.row? cfg stepID = some row) :
    (d.commit cfg a message closedAt completedAt).row? cfg stepID = some row := by
  rw [row?_commit, h, Option.some_or]

theorem row?_eq_none_of_records {i : RecordOperationResultInput} (h : d.records cfg i = true)
    (hother : (d.row? cfg i.stepID).any i.sameWrite = false) : d.row? cfg i.stepID = none := by
  cases hrow : d.row? cfg i.stepID with
  | none => rfl
  | some stored =>
    simp only [Data.records, hrow] at h
    cases hconflict : i.onConflict (some stored) with
    | error err => simp [hconflict, Except.isOk, Except.toBool] at h
    | ok u =>
      obtain ⟨r, hr, hsame⟩ := RecordOperationResultInput.onConflict_eq_ok hconflict
      cases hr
      simp [hrow, hsame] at hother

theorem replayInv_commits {a : Recv.Attempt} {message : Option NotificationRow}
    {closedAt completedAt : Int} {deliveryID : String} {y : Return} {p : Fin n → Phase}
    (h : ReplayInv cfg s) (hnone : s.data.row? cfg a.call.stepID = none)
    (hy : executed (cfg.recordInput a message completedAt) deliveryID = some y) :
    ReplayInv cfg { s with
      data := s.data.commit cfg a message closedAt completedAt, execs := p,
      returns := s.returns ++ [y] } := by
  simp only [executed, Option.ite_none_right_eq_some, Option.some.injEq] at hy
  obtain ⟨-, rfl⟩ := hy
  refine h.add ?_ (fun k row hrow => row?_commit_of_some hrow) fun x hx hstep => ?_
  · refine ⟨(cfg.recordInput a message completedAt).row, ?_, rfl⟩
    refine (row?_commit ..).trans ?_
    rw [show s.data.row? cfg (cfg.recordInput a message completedAt).stepID = none from hnone]
    exact if_pos rfl
  · -- nothing can have been returned at a step without a checkpoint
    obtain ⟨row, hrow, -⟩ := h.recorded x hx
    rw [hstep] at hrow
    cases hnone.symm.trans hrow

theorem replayInv_exec {e : Fin n} {x : ExecAction} (h : ReplayInv cfg s)
    (hC : OwnCheckpoints cfg s (.exec e x)) (hstep : step cfg s (.exec e x) = some t) : ReplayInv cfg t := by
  obtain ⟨r, hr, rfl⟩ := Option.map_eq_some_iff.1 hstep
  have hoffers : ∀ i ∈ (s.execs e).offers? cfg x, (s.data.row? cfg i.stepID).any i.sameWrite = false := hC
  generalize s.execs e = p at hr hoffers
  cases executes_of_execStep hr with
  | opens hopened =>
    simp only [Option.toList_none, List.append_nil]
    exact h.mono fun k row hrow => by rw [Data.row?, hopened.sys]; exact hrow
  | @commits a message closedAt completedAt deliveryID acknowledged hrecords =>
    cases hy : (if acknowledged then executed (cfg.recordInput a message completedAt) deliveryID
      else none) with
    | none =>
      simp only [Option.toList_none, List.append_nil]
      exact h.mono fun k row hrow => row?_commit_of_some hrow
    | some y =>
      rw [Option.ite_none_right_eq_some] at hy
      exact replayInv_commits h (row?_eq_none_of_records hrecords (hoffers _ rfl)) hy.2
  | refused =>
    simp only [Option.toList_none, List.append_nil]
    exact h.mono fun _ _ hrow => hrow
  | @quiet _ p' _ returned hq =>
    cases returned with
    | none =>
      simp only [Option.toList_none, List.append_nil]
      exact h.mono fun _ _ hrow => hrow
    | some y =>
      obtain ⟨k, r, hcheck, hy⟩ := check_of_quietStep hq
      obtain ⟨hrecorded, hempty⟩ := recorded_of_check hcheck hy
      exact h.add hrecorded (fun _ _ hrow => hrow) fun _ _ _ => hempty

theorem replayInv_of_reaches (h : Reaches (system cfg n m) (OwnCheckpoints cfg) s) : ReplayInv cfg s := by
  refine h.invariant (I := ReplayInv cfg) (fun s hs => ?_) fun s a t hs hC hstep => ?_
  · refine ⟨fun y hy => ?_, by simp [hs.returns]⟩
    rw [hs.returns] at hy
    cases hy
  · cases a with
    | exec e x => exact replayInv_exec hs hC hstep
    | client k x =>
      obtain ⟨r, hr, rfl⟩ := Option.map_eq_some_iff.1 hstep
      exact hs.mono fun k row hrow => ((serves_of_clientStep hr).keeps.row k).trans hrow
    | env x =>
      obtain ⟨d, hd, rfl⟩ := Option.map_eq_some_iff.1 hstep
      exact hs.mono fun k row hrow => ((keeps_envStep hd).1.row k).trans hrow

section Scenario

/-- An execution receives an approval, and the workflow is executed again. -/
def receivedTwice (e : Fin n) (k : Fin m) : List (Action n m) :=
  opening e 0 ++ looking k ++ delivering k "d" "m" ++ receiving e "m" ++ [.exec e (.enter 0)]

def plainApproval : SendInput where
  destinationID := "w"
  topic := "gate:approve"
  message := some "yes"
  serialization := "json"

def sentPlainly (e : Fin n) : List (Action n m) :=
  opening e 0 ++ .env (.send plainApproval "m" 20 20) :: receiving e "m" ++ [.exec e (.enter 0)]

end Scenario

end Dbos.GateRecv
