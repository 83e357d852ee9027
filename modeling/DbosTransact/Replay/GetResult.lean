import DbosTransact.Replay.Law

/-!
# `GetResult` in a replay

The timeout of a handle, the error of a closed channel, a child without an output and a child in the dead
letter queue are returned and not recorded: the next operation is given the ID that `GetResult` had looked
at, and a replay finds the checkpoint of that operation there.
-/

namespace Dbos.Code

open Relational Lts Replay

variable {V : Type} {cfg : Config V} {s : State V}

/-- The outcomes of `GetResult` are those of every earlier execution, every operation has the ID that it
had then, and the check of the next operation does not fail. -/
structure ReplaysSame (cfg : Config V) (s : State V) : Prop where
  ids : SameIDs s
  outcomes : ∀ π ∈ s.past, ∀ m (h : m < π.trace.length) (h' : m < s.path.trace.length),
    π.trace[m].op.isGetResult = true → s.path.trace[m].answer = π.trace[m].answer
  checks : ∀ o k, s.path.rest = .ask o k →
    ∃ r, s.db.checkOperationExecution cfg.workflowID s.path.next o.name = .ok r

theorem Inv.outcomes (hcode : cfg.code.Respects (Recall cfg)) (h : Inv cfg s)
    {π : Path Op (Answer V)} (hπ : π ∈ s.past) {m : ℕ} (hm : m < π.trace.length)
    (hm' : m < s.path.trace.length) (hop : π.trace[m].op.isGetResult = true) :
    s.path.trace[m].answer = π.trace[m].answer := by
  have hagree := Follows.agree hcode.eqvGen Backed.sim (h.past π hπ) h.path hm hm'
  have hsim := hagree.answer
  cases ho : π.trace[m].op with
  | getResult childID timeout =>
    rw [ho] at hsim
    exact (Sim.eq hsim).symm
  | _ =>
    rw [ho] at hop
    cases hop

theorem Inv.checks (hcode : cfg.code.Respects (Recall cfg)) (h : Inv cfg s) {o : Op}
    {k : Answer V → Program Op (Answer V)} (hrest : s.path.rest = .ask o k) :
    ∃ r, s.db.checkOperationExecution cfg.workflowID s.path.next o.name = .ok r := by
  cases hrow : cfg.row? s.db s.path.next with
  | none => exact ⟨none, h.check_none hrow o.name⟩
  | some row => exact ⟨_, (h.check_some hcode hrest (Part.main_of o) hrow).1⟩

/-- **`GetResult` is replayed**, in every run in which it records whatever it returns. -/
theorem getResult_replays (hcode : cfg.code.Respects (Recall cfg))
    (h : Reaches (system cfg) (Recorded cfg) s) : ReplaysSame cfg s := by
  have hinv := inv_of_reaches hcode h
  exact ⟨hinv.sameIDs hcode, fun π hπ m hm hm' hop => hinv.outcomes hcode hπ hm hm' hop,
    fun o k hrest => hinv.checks hcode hrest⟩

/-! ### A timeout that is not recorded -/

section Timeout

def awaiting (timeout : Option String) : Program Op (Answer Unit) :=
  .ask (.getResult "c" timeout) fun _ => thenStep "a"

theorem respects_awaiting (timeout : Option String) :
    (awaiting timeout).Respects (Recall (running (awaiting timeout))) :=
  ⟨fun _ _ _ => rfl, fun _ => ⟨fun _ _ _ => rfl, fun _ => trivial⟩⟩

/-- The code asks for the result of a workflow, and the check reports the step of another name. -/
def checkFails (s : State Unit) : Bool :=
  match s.path.rest with
  | .ask o _ =>
    match s.db.checkOperationExecution "w" s.path.next o.name with
    | .error err => err.isCode .unexpectedStep
    | .ok _ => false
  | .done => false

/-- The handle times out, the step is recorded with the ID 0, and the replay asks for the result. -/
theorem timeout_not_replayed :
    ∃ s, Reaches (system (running (awaiting (some "1s")))) (fun _ _ => True) s ∧
      ¬ ReplaysSame (running (awaiting (some "1s"))) s := by
  obtain ⟨s, hs, hp⟩ := exists_reaches (S := system (running (awaiting (some "1s"))))
    (fun _ _ => True) (s := before (awaiting (some "1s")) bystander)
    [.begin 0, .timeout false, .begin 1, .body () none 2, .record, .crash]
    checkFails (init_before _) (fun _ _ => trivial) (by decide +kernel)
  refine ⟨s, hs, fun hsame => ?_⟩
  unfold checkFails at hp
  split at hp
  next o k hrest =>
    obtain ⟨r, hr⟩ := hsame.checks o k hrest
    change s.db.checkOperationExecution "w" s.path.next o.name = .ok r at hr
    rw [hr] at hp
    cases hp
  next => cases hp

def finished : WorkflowRow :=
  { workflowID := "c", status := .success, output := some "", serialization := some "plain" }

theorem getResult_replays_polled :
    ∃ s, Reaches (system (running (awaiting none))) (Recorded (running (awaiting none))) s ∧
      s.past ≠ [] ∧ s.path.trace ≠ [] ∧ ReplaysSame (running (awaiting none)) s := by
  obtain ⟨s, hs, hp⟩ := exists_reaches (S := system (running (awaiting none)))
    (Recorded (running (awaiting none))) (s := before (awaiting none) finished)
    [.begin 0, .poll 1, .record, .crash, .begin 2]
    (fun s => !s.past.isEmpty && !s.path.trace.isEmpty) ⟨rfl, rfl, rfl, rfl, rfl⟩
    (by decide +kernel) (by decide +kernel)
  simp only [Bool.and_eq_true, Bool.not_eq_true', List.isEmpty_eq_false_iff] at hp
  exact ⟨s, hs, hp.1, hp.2, getResult_replays (respects_awaiting none) hs⟩

end Timeout

end Dbos.Code
