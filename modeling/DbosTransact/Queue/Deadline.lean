import DbosTransact.Lib.Transition
import DbosTransact.Queue.Dequeue

/-!
# The durable deadline

A deadline that is stored stays until a resume clears it; a row without one is given its deadline by the
first claim, which adds the timeout to its own time, and later claims find it set. `History` is what has
happened to a row, as far as the deadline depends on it.
-/

namespace Dbos.Deadline

open Relational Lts Lifecycle Queue

/-! ### The times that a row is made with -/

/-- `Duration.Round(time.Millisecond).Milliseconds`, for a positive duration in nanoseconds. -/
def roundMilli (duration : Int) : Int := (duration + 500000) / 1000000

/-- `timeoutMs`: only a positive timeout is stored. -/
def timeoutMs (timeout : Int) : Option Int := if 0 < timeout then some (roundMilli timeout) else none

/-- The timeout of `RunWorkflow`: what is left until the deadline of its context, or a millisecond if
that has passed. -/
def timeUntil (now : Int) : Option Int → Int
  | none => 0
  | some deadline => if deadline - now < 0 then 1000000 else deadline - now

/-- The calls that insert a row, with what they say of its timeout and deadline, in nanoseconds. A
debounced workflow is enqueued. -/
inductive Creation
  | runWorkflow (deadline : Option Int) (now : Int)
  | enqueue (timeout : Int)
  deriving DecidableEq, Repr

def queued (i : InsertWorkflowStatusInput) : Bool := i.status = .enqueued || i.status = .delayed

/-- The input of `InsertWorkflowStatus`; its other columns are given. -/
def Creation.input (i : InsertWorkflowStatusInput) : Creation → InsertWorkflowStatusInput
  | .runWorkflow deadline now =>
    { i with
      timeout := timeoutMs (timeUntil now deadline)
      deadline := if queued i then none else deadline.map unixMilli }
  | .enqueue timeout => { i with timeout := timeoutMs timeout, deadline := none }

/-- `Enqueue` stores `ENQUEUED` or `DELAYED`. -/
def Creation.allows (i : InsertWorkflowStatusInput) : Creation → Bool
  | .runWorkflow _ _ => true
  | .enqueue _ => queued i

/-- The operations on `workflow_status`, with the timeouts of those that make rows. -/
inductive Action
  | create (appName : String) (i : InsertWorkflowStatusInput) (c : Creation)
  | fork (appName : String) (i : ForkWorkflowsInput) (timeout now : Int)
  | operate (op : Operation)
  deriving DecidableEq, Repr

def Action.operation : Action → Option Operation
  | .create appName i c => if c.allows i then some (.insertWorkflowStatus appName (c.input i)) else none
  | .fork appName i timeout now => some (.forkWorkflows appName { i with timeout := timeoutMs timeout } now)
  | .operate (.insertWorkflowStatus _ _) => none
  | .operate (.forkWorkflows _ _ _) => none
  | .operate op => some op

/-! ### The history of a row -/

/-- What has happened to a row: how it was made, whether it was resumed, and its first claim since. -/
structure History where
  queued : Bool
  timeout : Option Int
  deadline : Option Int
  resumed : Bool := false
  claimedAt : Option Int := none
  deriving DecidableEq, Repr

def History.made : Operation → Option History
  | .insertWorkflowStatus _ i => some ⟨Deadline.queued i, i.timeout, i.deadline, false, none⟩
  | .forkWorkflows _ i _ => some ⟨true, i.timeout, none, false, none⟩
  | _ => none

def resumeTakes (ids : List String) (r : WorkflowRow) : Bool := r.workflowID ∈ ids && r.resumable

def History.after (h : History) (r : WorkflowRow) : Operation → History
  | .dequeueWorkflows c ids now =>
    if StatusTable.claimTakes c ids r then { h with claimedAt := h.claimedAt.or (some now) } else h
  | .resumeWorkflows ids _ _ => if resumeTakes ids r then { h with resumed := true, claimedAt := none } else h
  | _ => h

/-- The deadline that a row has by its history: the stored one until a resume, and otherwise that of
the first claim. -/
def History.law (h : History) : Option Int :=
  (if h.resumed then none else h.deadline).or
    (h.claimedAt.bind fun claimedAt => h.timeout.map (claimedAt + ·))

structure State where
  table : StatusTable
  history : String → Option History

/-- The histories after an operation that has led from one table to another. -/
def record (t t' : StatusTable) (op : Operation) (history : String → Option History) (id : String) :
    Option History :=
  match t.find? id with
  | none => if (t'.find? id).isSome then History.made op else none
  | some r => (history id).map fun h => h.after r op

def step (s : State) (a : Action) : Option State :=
  a.operation.bind fun op =>
    (Lifecycle.step s.table op).map fun t => ⟨t, record s.table t op s.history⟩

def system : System State Action where
  init s := s = ⟨.empty, fun _ => none⟩
  step := step

/-! ### What an operation does to the two columns -/

section Columns

variable {t t' : StatusTable} {r r' : WorkflowRow} {id : String}

def deadlineAfter (r : WorkflowRow) : Operation → Option Int
  | .dequeueWorkflows c ids now =>
    if StatusTable.claimTakes c ids r then (r.claim c now).workflowDeadline else r.workflowDeadline
  | .resumeWorkflows ids _ _ => if resumeTakes ids r then none else r.workflowDeadline
  | _ => r.workflowDeadline

structure Kept (op : Operation) (r r' : WorkflowRow) : Prop where
  timeout : r'.workflowTimeout = r.workflowTimeout
  deadline : r'.workflowDeadline = deadlineAfter r op

def Made (op : Operation) (r' : WorkflowRow) : Prop :=
  ∃ h, History.made op = some h ∧ r'.workflowTimeout = h.timeout ∧ r'.workflowDeadline = h.deadline

/-- What has become of the row with an identifier, or where it comes from. -/
def RowStep (t : StatusTable) (op : Operation) (id : String) (r' : WorkflowRow) : Prop :=
  (∃ r, t.find? id = some r ∧ Kept op r r') ∨ t.find? id = none ∧ Made op r'

theorem kept_onRow (op : Operation) (r : WorkflowRow) : Kept op r (op.onRow r) := by
  cases op with
  | forkWorkflows | deleteWorkflows | garbageCollectWorkflows => exact ⟨rfl, rfl⟩
  | dequeueWorkflows c ids now =>
    simp only [Operation.onRow]
    by_cases htakes : StatusTable.claimTakes c ids r = true
    · rw [if_pos htakes]
      exact ⟨rfl, (if_pos htakes).symm⟩
    · rw [if_neg htakes]
      exact ⟨rfl, (if_neg htakes).symm⟩
  | resumeWorkflows ids queueName now =>
    show Kept _ r (if resumeTakes ids r then r.resume queueName now else r)
    by_cases htakes : resumeTakes ids r = true
    · rw [if_pos htakes]
      exact ⟨rfl, (if_pos htakes).symm⟩
    · rw [if_neg htakes]
      exact ⟨rfl, (if_neg htakes).symm⟩
  | _ =>
    simp only [Operation.onRow]
    split_ifs <;> exact ⟨rfl, rfl⟩

theorem made_of_makes {op : Operation} (h : op.Makes r') : Made op r' := by
  cases op with
  | insertWorkflowStatus appName i =>
    obtain ⟨-, rfl⟩ := h
    exact ⟨_, rfl, rfl, rfl⟩
  | forkWorkflows appName i now =>
    obtain ⟨original, forkedID, rfl⟩ := h
    exact ⟨_, rfl, rfl, rfl⟩
  | _ => exact h.elim

/-- **The two columns.** What has become of a row in an operation. -/
theorem rowStep_of_step {op : Operation} (h : Lifecycle.step t op = some t')
    (hr' : t'.find? id = some r') : RowStep t op id r' := by
  rcases find?_step h hr' with ⟨r, hr, rfl⟩ | ⟨hnone, hmakes⟩
  · exact .inl ⟨r, hr, kept_onRow op r⟩
  · exact .inr ⟨hnone, made_of_makes hmakes⟩

end Columns

/-! ### The law -/

structure Follows (r : WorkflowRow) (h : History) : Prop where
  timeout : r.workflowTimeout = h.timeout
  deadline : r.workflowDeadline = h.law
  queued : h.queued = true → h.deadline = none

def Lawful (s : State) : Prop :=
  ∀ id r, s.table.find? id = some r → ∃ h, s.history id = some h ∧ Follows r h

theorem Follows.claim {r : WorkflowRow} {h : History} (hr : Follows r h) (c : WorkflowRow.Claim)
    (now : Int) :
    (r.claim c now).workflowDeadline = ({ h with claimedAt := h.claimedAt.or (some now) } : History).law := by
  obtain ⟨htimeout, hdeadline, -⟩ := hr
  have hclaim : (r.claim c now).workflowDeadline =
      h.law.or (h.timeout.map (now + ·)) := by
    rw [← hdeadline, ← htimeout]
    cases ht : r.workflowTimeout <;> cases hd : r.workflowDeadline <;>
      simp [WorkflowRow.claim, ht, hd]
  rw [hclaim]
  unfold History.law
  cases hstored : (if h.resumed then none else h.deadline) <;> cases h.claimedAt <;>
    cases h.timeout <;> simp

theorem Follows.after {r r' : WorkflowRow} {h : History} {op : Operation} (hr : Follows r h)
    (hkept : Kept op r r') : Follows r' (h.after r op) := by
  obtain ⟨htimeout, hdeadline⟩ := hkept
  cases op with
  | dequeueWorkflows c ids now =>
    simp only [deadlineAfter] at hdeadline
    simp only [History.after]
    by_cases hc : StatusTable.claimTakes c ids r = true
    · rw [if_pos hc] at hdeadline ⊢
      exact ⟨htimeout.trans hr.timeout, hdeadline.trans (hr.claim c now), hr.queued⟩
    · rw [if_neg hc] at hdeadline ⊢
      exact ⟨htimeout.trans hr.timeout, hdeadline.trans hr.deadline, hr.queued⟩
  | resumeWorkflows ids queueName now =>
    simp only [deadlineAfter] at hdeadline
    simp only [History.after]
    by_cases hc : resumeTakes ids r = true
    · rw [if_pos hc] at hdeadline ⊢
      exact ⟨htimeout.trans hr.timeout, hdeadline, hr.queued⟩
    · rw [if_neg hc] at hdeadline ⊢
      exact ⟨htimeout.trans hr.timeout, hdeadline.trans hr.deadline, hr.queued⟩
  | _ => exact ⟨htimeout.trans hr.timeout, hdeadline.trans hr.deadline, hr.queued⟩

theorem deadline_eq_none_of_queued {a : Action} {op : Operation} {h : History}
    (ha : a.operation = some op) (hmade : History.made op = some h) (hq : h.queued = true) :
    h.deadline = none := by
  cases a with
  | create appName i c =>
    simp only [Action.operation] at ha
    split_ifs at ha
    cases ha
    cases hmade
    cases c with
    | runWorkflow deadline now => exact if_pos hq
    | enqueue timeout => rfl
  | fork appName i timeout now =>
    cases ha
    cases hmade
    rfl
  | operate op' =>
    cases op' <;> simp only [Action.operation, Option.some.injEq, reduceCtorEq] at ha <;> subst ha <;>
      cases hmade

theorem Follows.made {r : WorkflowRow} {a : Action} {op : Operation} (ha : a.operation = some op)
    (hr : Made op r) : ∃ h, History.made op = some h ∧ Follows r h := by
  obtain ⟨h, hmade, htimeout, hdeadline⟩ := hr
  refine ⟨h, hmade, htimeout, ?_, deadline_eq_none_of_queued ha hmade⟩
  have hfresh : h.resumed = false ∧ h.claimedAt = none := by
    cases op <;> simp only [History.made, Option.some.injEq, reduceCtorEq] at hmade <;> subst hmade <;>
      exact ⟨rfl, rfl⟩
  rw [hdeadline, History.law, hfresh.1, hfresh.2]
  cases h.deadline <;> rfl

theorem step_cases {s s' : State} {a : Action} (h : step s a = some s') :
    ∃ op t, a.operation = some op ∧ Lifecycle.step s.table op = some t ∧
      s' = ⟨t, record s.table t op s.history⟩ := by
  obtain ⟨op, hop, h⟩ := Option.bind_eq_some_iff.1 h
  obtain ⟨t, ht, rfl⟩ := Option.map_eq_some_iff.1 h
  exact ⟨op, t, hop, ht, rfl⟩

theorem Lawful.step {s s' : State} {a : Action} (hs : Lawful s) (h : step s a = some s') :
    Lawful s' := by
  obtain ⟨op, t, hop, ht, rfl⟩ := step_cases h
  intro id r' hr'
  rcases rowStep_of_step ht hr' with ⟨r, hr, hkept⟩ | ⟨hnone, hmade⟩
  · obtain ⟨h, hh, hfollows⟩ := hs id r hr
    exact ⟨h.after r op, by simp [record, hr, hh], hfollows.after hkept⟩
  · obtain ⟨h, hh, hfollows⟩ := Follows.made hop hmade
    refine ⟨h, ?_, hfollows⟩
    have hsome : (t.find? id).isSome = true := Option.isSome_of_eq_some hr'
    simp only [record, hnone, if_pos hsome, hh]

theorem lawful_of_reaches {C : State → Action → Prop} {s : State} (h : Reaches system C s) :
    Lawful s := by
  refine h.invariant (I := Lawful) ?_ fun s a t hs _ hstep => hs.step hstep
  rintro s rfl id r hr
  cases hr

/-- **The law**, read from a row and its history. -/
structure Law (r : WorkflowRow) (h : History) : Prop where
  timeout : r.workflowTimeout = h.timeout
  unclaimed : h.queued = true ∨ h.resumed = true → h.claimedAt = none → r.workflowDeadline = none
  claimed : h.queued = true ∨ h.resumed = true → ∀ claimedAt timeout, h.claimedAt = some claimedAt →
    h.timeout = some timeout → r.workflowDeadline = some (claimedAt + timeout)
  stored : ∀ deadline, h.deadline = some deadline → h.resumed = false →
    r.workflowDeadline = some deadline
  never : h.timeout = none → h.deadline = none → r.workflowDeadline = none

theorem Follows.law {r : WorkflowRow} {h : History} (hr : Follows r h) : Law r h := by
  have hunset : h.queued = true ∨ h.resumed = true → (if h.resumed then none else h.deadline) = none := by
    rintro (hq | hresumed)
    · rw [hr.queued hq, ite_self]
    · rw [if_pos hresumed]
  constructor
  case timeout => exact hr.timeout
  case unclaimed =>
    intro hq hclaimed
    rw [hr.deadline, History.law, hunset hq, hclaimed]
    rfl
  case claimed =>
    intro hq claimedAt timeout hclaimed htimeout
    rw [hr.deadline, History.law, hunset hq, hclaimed, htimeout]
    rfl
  case stored =>
    intro deadline hdeadline hresumed
    rw [hr.deadline, History.law, hresumed, hdeadline]
    rfl
  case never =>
    intro htimeout hdeadline
    rw [hr.deadline, History.law, htimeout, hdeadline, ite_self]
    cases h.claimedAt <;> rfl

/-- The action is the first claim of the row since it was made or resumed, or a resume of it. -/
def SetsDeadline (s : State) (r : WorkflowRow) (a : Action) : Prop :=
  (∃ c ids now, a = .operate (.dequeueWorkflows c ids now) ∧ StatusTable.claimTakes c ids r = true ∧
    ∀ h, s.history r.workflowID = some h → h.claimedAt = none) ∨
  ∃ ids queueName now, a = .operate (.resumeWorkflows ids queueName now) ∧ resumeTakes ids r = true

theorem Follows.claim_eq {r : WorkflowRow} {h : History} (hr : Follows r h) (c : WorkflowRow.Claim)
    (now : Int) (hclaimed : h.claimedAt ≠ none) :
    (r.claim c now).workflowDeadline = r.workflowDeadline := by
  obtain ⟨claimedAt, hat⟩ := Option.ne_none_iff_exists'.1 hclaimed
  rw [hr.claim, hr.deadline, hat, Option.some_or, ← hat]

/-- An action that changes the deadline of a row is a first claim or a resume. -/
theorem setsDeadline_of_ne {s s' : State} {a : Action} {r r' : WorkflowRow} (hs : Lawful s)
    (hstep : step s a = some s') (hr : r ∈ s.table.rows) (hr' : r' ∈ s'.table.rows)
    (hid : r'.workflowID = r.workflowID) (hne : r'.workflowDeadline ≠ r.workflowDeadline) :
    SetsDeadline s r a := by
  obtain ⟨op, t, hop, ht, rfl⟩ := step_cases hstep
  have hfind : s.table.find? r.workflowID = some r := Table.find?_of_mem hr
  have hfind' : t.find? r.workflowID = some r' := hid ▸ Table.find?_of_mem hr'
  obtain ⟨h, hh, hfollows⟩ := hs r.workflowID r hfind
  have hkept : Kept op r r' := by
    rcases rowStep_of_step ht hfind' with ⟨r₁, hr₁, hkept⟩ | ⟨hnone, -⟩
    · rwa [Option.some.inj (hfind.symm.trans hr₁)]
    · rw [hfind] at hnone
      cases hnone
  have hdeadline := hkept.deadline
  have ha : a = .operate op ∨ ∃ h, History.made op = some h := by
    cases a with
    | create appName i c =>
      simp only [Action.operation] at hop
      split_ifs at hop
      cases hop
      exact .inr ⟨_, rfl⟩
    | fork appName i timeout now =>
      cases hop
      exact .inr ⟨_, rfl⟩
    | operate op' =>
      cases op' <;> simp only [Action.operation, Option.some.injEq, reduceCtorEq] at hop <;> subst hop <;>
        exact .inl rfl
  cases op with
  | dequeueWorkflows c ids now =>
    simp only [deadlineAfter] at hdeadline
    by_cases hc : StatusTable.claimTakes c ids r = true
    · rw [if_pos hc] at hdeadline
      obtain rfl : a = _ := ha.resolve_right fun ⟨_, hmade⟩ => by cases hmade
      refine .inl ⟨c, ids, now, rfl, hc, fun h' hh' => ?_⟩
      obtain rfl : h = h' := Option.some.inj (hh.symm.trans hh')
      by_contra hclaimed
      exact hne (hdeadline.trans (hfollows.claim_eq c now hclaimed))
    · rw [if_neg hc] at hdeadline
      exact (hne hdeadline).elim
  | resumeWorkflows ids queueName now =>
    simp only [deadlineAfter] at hdeadline
    by_cases hc : resumeTakes ids r = true
    · obtain rfl : a = _ := ha.resolve_right fun ⟨_, hmade⟩ => by cases hmade
      exact .inr ⟨ids, queueName, now, rfl, hc⟩
    · rw [if_neg hc] at hdeadline
      exact (hne hdeadline).elim
  | _ => exact (hne hdeadline).elim

/-- **The durable deadline law.** In every state that is reached, every row has the deadline that its
history gives it, and only a first claim or a resume changes the deadline of a row. -/
theorem durable_deadline {s : State} (h : Reaches system (fun _ _ => True) s) :
    (∀ r ∈ s.table.rows, ∃ h, s.history r.workflowID = some h ∧ Law r h) ∧
      ∀ a s', step s a = some s' → ∀ r ∈ s.table.rows, ∀ r' ∈ s'.table.rows,
        r'.workflowID = r.workflowID → r'.workflowDeadline ≠ r.workflowDeadline → SetsDeadline s r a := by
  have hlawful := lawful_of_reaches h
  refine ⟨fun r hr => ?_, fun a s' hstep r hr r' hr' hid hne =>
    setsDeadline_of_ne hlawful hstep hr hr' hid hne⟩
  obtain ⟨h, hh, hfollows⟩ := hlawful r.workflowID r (Table.find?_of_mem hr)
  exact ⟨h, hh, hfollows.law⟩

def timed : InsertWorkflowStatusInput := { workflowID := "w", status := .enqueued, name := "f", queueName := "q" }

/-- It is claimed at 1000, recovered and claimed again, resumed and claimed once more. -/
def timedRun : List Action :=
  [.create "app" timed (.enqueue 2000000000),
   .operate (.dequeueWorkflows ⟨"e", "v", "app", false⟩ ["w"] 1000),
   .operate (.reenqueueForRecovery "app" ["e"] "v" 1500),
   .operate (.dequeueWorkflows ⟨"e", "v", "app", false⟩ ["w"] 1600),
   .operate (.resumeWorkflows ["w"] "q" 5000),
   .operate (.dequeueWorkflows ⟨"e", "v", "app", false⟩ ["w"] 5100)]

def deadlineOf (s : State) : Option Int := (s.table.find? "w").bind (·.workflowDeadline)

theorem durable_deadline_timedRun :
    (exec system ⟨.empty, fun _ => none⟩ (timedRun.take 1)).map deadlineOf = some none ∧
    (exec system ⟨.empty, fun _ => none⟩ (timedRun.take 4)).map deadlineOf = some (some 3000) ∧
    (exec system ⟨.empty, fun _ => none⟩ (timedRun.take 5)).map deadlineOf = some none ∧
    ∃ s, Reaches system (fun _ _ => True) s ∧ deadlineOf s = some 7100 ∧
      (∀ r ∈ s.table.rows, ∃ h, s.history r.workflowID = some h ∧ Law r h) ∧
        ∀ a s', step s a = some s' → ∀ r ∈ s.table.rows, ∀ r' ∈ s'.table.rows,
          r'.workflowID = r.workflowID → r'.workflowDeadline ≠ r.workflowDeadline → SetsDeadline s r a := by
  refine ⟨by decide +kernel, by decide +kernel, by decide +kernel, ?_⟩
  obtain ⟨s, hs, hp⟩ := exists_reaches (S := system) (fun _ _ => True)
    (s := ⟨.empty, fun _ => none⟩) timedRun (fun s => decide (deadlineOf s = some 7100)) rfl
    (fun _ _ => trivial) (by decide +kernel)
  exact ⟨s, hs, of_decide_eq_true hp, durable_deadline hs⟩

end Dbos.Deadline
