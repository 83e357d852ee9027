import DbosTransact.Execution.Run
import DbosTransact.Lib.Transition
import DbosTransact.SysDb.StatusTable

/-!
# Starting what was claimed

`startDequeuedWorkflows` reads the claimed rows and goes through them: a row whose workflow is in the
registry is dead-lettered if its attempts are exhausted, skipped if it is no longer `PENDING`, and otherwise
started. A claimed row is held by the pass while it is `PENDING` on the executor and no other part of the
executor has taken it over: another worker, a call of `RunWorkflow`, or a run that has recorded a step.
-/

namespace Dbos.Queue.Orphan

open Relational Lts Lifecycle

/-- `WorkflowRegistryEntry`. -/
structure Entry where
  maxRetries : Int
  deriving DecidableEq, Repr

/-- `workflowCustomNametoFQN` and `workflowRegistry`; a value of the latter that is no entry is `none`. -/
structure Registry where
  customNametoFQN : String → Option String
  workflows : String → Option (Option Entry)

def lookupName (r : WorkflowRow) : String :=
  match r.configName with
  | some configName => if configName = "" then r.name else instanceQualifiedName r.name configName
  | none => r.name

def Registry.find (reg : Registry) (r : WorkflowRow) : Option Entry :=
  ((reg.customNametoFQN (lookupName r)).bind reg.workflows).join

/-- Where the loop stands: before the rows are read, at the rows that are left, or about to dead-letter. -/
inductive Loop
  | claimed
  | starting (todo : List (String × Option WorkflowRow))
  | deadLettering (id : String) (attempts : ℕ) (todo : List (String × Option WorkflowRow))

def Loop.isDone : Loop → Bool
  | .starting [] => true
  | _ => false

/-- The table, what the pass has claimed, the loop, the workflows that it has started, and those that
another part of the executor has taken over. -/
structure State where
  table : StatusTable
  claimed : List String
  loop : Loop
  started : List String
  taken : List String

def takes (executorID : String) : Operation → List String
  | .dequeueWorkflows c ids _ => if c.executorID = executorID then ids else []
  | .insertWorkflowStatus _ i =>
    if i.status ≠ .enqueued ∧ i.status ≠ .delayed ∧ i.executorID = executorID then [i.workflowID] else []
  | _ => []

/-- A statement of the loop, an operation of others, or a step recorded by a run of the workflow. -/
inductive Action
  | listWorkflows
  | dispatch
  | deadLetter (now : Int)
  | others (op : Operation)
  | refreshExecutorID (id executorID : String)

theorem workflowID_refreshRow (executorID : String) (r : WorkflowRow) :
    (Execution.refreshRow executorID r).workflowID = r.workflowID := by
  unfold Execution.refreshRow
  split_ifs <;> rfl

section System

variable (reg : Registry) (executorID : String)

def exhausted (entry : Entry) (attempts : ℕ) : Bool :=
  0 < entry.maxRetries && entry.maxRetries + 1 < attempts

def dispatch (s : State) (id : String) (status : Option WorkflowRow) (todo : List (String × Option WorkflowRow)) :
    State :=
  match status with
  | none => { s with loop := .starting todo }
  | some r =>
    match reg.find r with
    | none => { s with loop := .starting todo }
    | some entry =>
      if exhausted entry r.recoveryAttempts then { s with loop := .deadLettering id r.recoveryAttempts todo }
      else if r.status ≠ .pending then { s with loop := .starting todo }
      else { s with loop := .starting todo, started := s.started ++ [id] }

def step (s : State) : Action → Option State
  | .listWorkflows =>
    match s.loop with
    | .claimed => some { s with loop := .starting (s.claimed.map fun id => (id, s.table.find? id)) }
    | _ => none
  | .dispatch =>
    match s.loop with
    | .starting ((id, status) :: todo) => some (dispatch reg s id status todo)
    | _ => none
  | .deadLetter now =>
    match s.loop with
    | .deadLettering id attempts todo =>
      some { s with table := s.table.deadLetterWorkflows [id] attempts now, loop := .starting todo }
    | _ => none
  | .others op =>
    (Lifecycle.step s.table op).map fun table =>
      { s with table := table, taken := s.taken ++ takes executorID op }
  | .refreshExecutorID id other =>
    some { s with
      table := s.table.update (·.workflowID = id) (Execution.refreshRow other) (workflowID_refreshRow other)
      taken := if other = executorID then s.taken ++ [id] else s.taken }

def system : System State Action where
  init s := s.loop = .claimed ∧ s.started = [] ∧ s.taken = []
  step := step reg executorID

end System

section Invariant

variable {reg : Registry} {executorID : String} {s s' : State}

structure Held (executorID : String) (table : StatusTable) (taken : List String) (id : String)
    (r : WorkflowRow) : Prop where
  found : table.find? id = some r
  pending : r.status = .pending
  executor : r.executorID = some executorID
  own : id ∉ taken

def Same (r₀ r : WorkflowRow) : Prop :=
  r₀.name = r.name ∧ r₀.configName = r.configName ∧ r₀.recoveryAttempts = r.recoveryAttempts

theorem Same.find_eq {r₀ r : WorkflowRow} (h : Same r₀ r) : reg.find r₀ = reg.find r := by
  unfold Registry.find lookupName
  rw [h.1, h.2.1]

/-- If the second row is `PENDING` on the executor, the first one is it too. -/
def HeldBefore (executorID : String) (r r' : WorkflowRow) : Prop :=
  r'.status = .pending → r'.executorID = some executorID →
    r.status = .pending ∧ r.executorID = some executorID ∧ Same r r'

theorem HeldBefore.refl (r : WorkflowRow) : HeldBefore executorID r r :=
  fun hpending hexec => ⟨hpending, hexec, rfl, rfl, rfl⟩

theorem HeldBefore.ite {p : Bool} {r r' : WorkflowRow} (h : p = true → HeldBefore executorID r r') :
    HeldBefore executorID r (if p then r' else r) := by
  split_ifs with hp
  · exact h hp
  · exact .refl r

theorem heldBefore_onRow {op : Operation} {r : WorkflowRow} (htakes : r.workflowID ∉ takes executorID op) :
    HeldBefore executorID r (op.onRow r) := by
  cases op with
  | insertWorkflowStatus appName i =>
    simp only [Operation.onRow]
    split_ifs with hid
    · intro hpending hexec
      refine ⟨hpending, ?_, rfl, rfl, rfl⟩
      simp only [WorkflowRow.reinsert] at hexec
      split_ifs at hexec with hqueued
      · exact hexec
      · have hstatus := not_or.1 hqueued
        have hown : i.executorID = executorID := Option.some.inj hexec
        exact (htakes (by rw [takes, if_pos ⟨hstatus.1, hstatus.2, hown⟩]; simp [hid])).elim
    · exact .refl r
  | dequeueWorkflows c ids now =>
    refine .ite fun hclaim _ hexec => ?_
    have hown : c.executorID = executorID := Option.some.inj hexec
    simp only [takes, hown, if_true] at htakes
    simp only [StatusTable.claimTakes, Bool.and_eq_true, decide_eq_true_eq] at hclaim
    exact (htakes hclaim.1.1).elim
  | updateWorkflowOutcome id failed output error now =>
    refine .ite fun _ hpending => ?_
    cases failed <;> cases hpending
  | suspendWorkflowToDelayed | transitionDelayedWorkflows | cancelWorkflows | deadLetterWorkflows
  | reenqueueForRecovery | resumeWorkflows =>
    exact .ite fun _ hpending => by cases hpending
  | debounceDelayedWorkflow | setWorkflowDelay | wake | renameApplication =>
    exact .ite fun _ hpending hexec => ⟨hpending, hexec, rfl, rfl, rfl⟩
  | forkWorkflows | deleteWorkflows | garbageCollectWorkflows => exact .refl r

theorem makes_held {op : Operation} {r : WorkflowRow} (htakes : r.workflowID ∉ takes executorID op)
    (hmakes : op.Makes r) (hpending : r.status = .pending) (hexec : r.executorID = some executorID) :
    False := by
  cases op with
  | insertWorkflowStatus appName i =>
    obtain ⟨-, rfl⟩ := hmakes
    have hown : i.executorID = executorID := Option.some.inj hexec
    have hstatus : i.status = .pending := hpending
    exact htakes (by simp [takes, hown, hstatus, InsertWorkflowStatusInput.row])
  | forkWorkflows appName i now =>
    obtain ⟨original, forkedID, rfl⟩ := hmakes
    cases hexec
  | _ => exact hmakes

/-- **What others leave.** A row that the pass holds after a statement of others it held before. -/
theorem held_of_others {op : Operation} {table : StatusTable} (h : Lifecycle.step s.table op = some table)
    {id : String} {r : WorkflowRow}
    (hheld : Held executorID table (s.taken ++ takes executorID op) id r) :
    ∃ r₀, Held executorID s.table s.taken id r₀ ∧ Same r₀ r := by
  obtain ⟨hfound, hpending, hexec, hown⟩ := hheld
  have hkey : r.workflowID = id := Table.key_of_find? hfound
  obtain ⟨hown, htakes⟩ := not_or.1 (List.mem_append.not.1 hown)
  rcases find?_step h hfound with ⟨r₀, hr₀, rfl⟩ | ⟨-, hmade⟩
  · have hkey₀ : r₀.workflowID = id := Table.key_of_find? hr₀
    obtain ⟨hpending₀, hexec₀, hsame⟩ := heldBefore_onRow (hkey₀ ▸ htakes) hpending hexec
    exact ⟨r₀, ⟨hr₀, hpending₀, hexec₀, hown⟩, hsame⟩
  · exact (makes_held (hkey ▸ htakes) hmade hpending hexec).elim

/-- A step recorded for another executor takes the row away from the pass. -/
theorem held_of_refresh {id other id' : String} {r : WorkflowRow}
    (hheld : Held executorID
      (s.table.update (·.workflowID = id) (Execution.refreshRow other) (workflowID_refreshRow other))
      (if other = executorID then s.taken ++ [id] else s.taken) id' r) :
    ∃ r₀, Held executorID s.table s.taken id' r₀ ∧ Same r₀ r := by
  obtain ⟨hfound, hpending, hexec, hown⟩ := hheld
  have hold : id' ∉ s.taken := by
    intro hin
    refine hown ?_
    split_ifs
    · exact List.mem_append_left _ hin
    · exact hin
  rw [Table.find?_update, Option.map_eq_some_iff] at hfound
  obtain ⟨r₀, hr₀, hrow⟩ := hfound
  have hkey₀ : r₀.workflowID = id' := Table.key_of_find? hr₀
  simp only [decide_eq_true_eq, Execution.refreshRow] at hrow
  split_ifs at hrow with hid hempty
  · subst hrow
    exact ⟨r₀, ⟨hr₀, hpending, hexec, hold⟩, rfl, rfl, rfl⟩
  · subst hrow
    have hother : other = executorID := Option.some.inj hexec
    refine (hown ?_).elim
    rw [if_pos hother]
    exact List.mem_append_right _ (by simp [← hid, hkey₀])
  · subst hrow
    exact ⟨r₀, ⟨hr₀, hpending, hexec, hold⟩, rfl, rfl, rfl⟩

/-- What is left to do, with the workflow that is being dead-lettered. -/
def Loop.left : Loop → List (String × Option WorkflowRow)
  | .claimed => []
  | .starting todo => todo
  | .deadLettering _ _ todo => todo

def Loop.deadLettering? : Loop → Option (String × ℕ)
  | .deadLettering id attempts _ => some (id, attempts)
  | _ => none

/-- While the pass holds a row, what it has read of it is still true; a row that was dealt with was started
if its workflow is in the registry. -/
structure Inv (reg : Registry) (executorID : String) (s : State) : Prop where
  listed : ∀ id status, (id, status) ∈ s.loop.left → ∀ r, Held executorID s.table s.taken id r →
    ∃ r₀, status = some r₀ ∧ r₀.status = .pending ∧ Same r₀ r
  attempts : ∀ id attempts, s.loop.deadLettering? = some (id, attempts) →
    ∀ r, Held executorID s.table s.taken id r → attempts = r.recoveryAttempts
  dealt : s.loop ≠ .claimed → ∀ id ∈ s.claimed, ∀ r, Held executorID s.table s.taken id r →
    (reg.find r).isSome = true → (∃ status, (id, status) ∈ s.loop.left) ∨
      (∃ attempts, s.loop.deadLettering? = some (id, attempts)) ∨ id ∈ s.started
  started : ∀ id ∈ s.started, ∀ r, Held executorID s.table s.taken id r → (reg.find r).isSome = true

theorem Inv.of_held (h : Inv reg executorID s) {table : StatusTable} {taken : List String}
    (hheld : ∀ id r, Held executorID table taken id r →
      ∃ r₀, Held executorID s.table s.taken id r₀ ∧ Same r₀ r) :
    Inv reg executorID { s with table := table, taken := taken } where
  listed id status hmem r hr := by
    obtain ⟨r₀, hr₀, hsame⟩ := hheld id r hr
    obtain ⟨r₁, hstatus, hpending, hsame₁⟩ := h.listed id status hmem r₀ hr₀
    exact ⟨r₁, hstatus, hpending, hsame₁.1.trans hsame.1, hsame₁.2.1.trans hsame.2.1,
      hsame₁.2.2.trans hsame.2.2⟩
  attempts id attempts hdead r hr := by
    obtain ⟨r₀, hr₀, hsame⟩ := hheld id r hr
    exact (h.attempts id attempts hdead r₀ hr₀).trans hsame.2.2
  dealt hne id hid r hr hreg := by
    obtain ⟨r₀, hr₀, hsame⟩ := hheld id r hr
    exact h.dealt hne id hid r₀ hr₀ (hsame.find_eq ▸ hreg)
  started id hid r hr := by
    obtain ⟨r₀, hr₀, hsame⟩ := hheld id r hr
    rw [← hsame.find_eq]
    exact h.started id hid r₀ hr₀

theorem Inv.list (hstarted : s.started = []) :
    Inv reg executorID { s with loop := .starting (s.claimed.map fun id => (id, s.table.find? id)) } where
  listed id status hmem r hr := by
    obtain ⟨id', -, hpair⟩ := List.mem_map.1 hmem
    cases hpair
    exact ⟨r, hr.found, hr.pending, rfl, rfl, rfl⟩
  attempts id attempts hdead := by cases hdead
  dealt _ id hid _ _ _ := .inl ⟨s.table.find? id, List.mem_map_of_mem hid⟩
  started id hid := by
    rw [hstarted] at hid
    cases hid

/-- The loop goes on to the next row: the last one is started, or about to be dead-lettered, or its
workflow is not in the registry. -/
theorem Inv.next (h : Inv reg executorID s) {id : String} {status : Option WorkflowRow} (loop : Loop)
    {started : List String} (hloop : s.loop = .starting ((id, status) :: loop.left))
    (hattempts : ∀ id' attempts, loop.deadLettering? = some (id', attempts) →
      ∀ r, Held executorID s.table s.taken id' r → attempts = r.recoveryAttempts)
    (hdealt : ∀ r, Held executorID s.table s.taken id r → (reg.find r).isSome = true →
      (∃ attempts, loop.deadLettering? = some (id, attempts)) ∨ id ∈ started)
    (hkept : ∀ x ∈ s.started, x ∈ started)
    (hstarted : ∀ x ∈ started, x ∈ s.started ∨
      x = id ∧ ∀ r, Held executorID s.table s.taken id r → (reg.find r).isSome = true) :
    Inv reg executorID { s with loop := loop, started := started } where
  listed id' status' hmem r hr :=
    h.listed id' status' (by rw [hloop]; exact List.mem_cons_of_mem _ hmem) r hr
  attempts := hattempts
  dealt _ id' hid' r hr hreg := by
    have hne : s.loop ≠ .claimed := by rw [hloop]; simp
    rcases h.dealt hne id' hid' r hr hreg with ⟨status', hmem⟩ | ⟨attempts, hdead⟩ | hold
    · rw [hloop] at hmem
      rcases List.mem_cons.1 hmem with hhead | htail
      · obtain ⟨rfl, -⟩ := Prod.mk.inj hhead
        exact .inr (hdealt r hr hreg)
      · exact .inl ⟨status', htail⟩
    · rw [hloop] at hdead
      cases hdead
    · exact .inr (.inr (hkept id' hold))
  started id' hid' r hr := by
    rcases hstarted id' hid' with hold | ⟨rfl, hreg⟩
    · exact h.started id' hold r hr
    · exact hreg r hr

theorem Inv.skip (h : Inv reg executorID s) {id : String} {status : Option WorkflowRow}
    {todo : List (String × Option WorkflowRow)} (hloop : s.loop = .starting ((id, status) :: todo))
    (hskip : ∀ r, Held executorID s.table s.taken id r → (reg.find r).isSome = false) :
    Inv reg executorID { s with loop := .starting todo } := by
  refine h.next (.starting todo) hloop (fun _ _ hdead => by cases hdead) (fun r hr hreg => ?_)
    (fun _ hx => hx) fun _ hx => .inl hx
  rw [hskip r hr] at hreg
  cases hreg

theorem Inv.dispatch (h : Inv reg executorID s) {id : String} {status : Option WorkflowRow}
    {todo : List (String × Option WorkflowRow)} (hloop : s.loop = .starting ((id, status) :: todo)) :
    Inv reg executorID (dispatch reg s id status todo) := by
  have hlisted := h.listed id status (by rw [hloop]; exact List.mem_cons_self)
  cases status with
  | none =>
    refine h.skip hloop fun r hr => ?_
    obtain ⟨r₀, hnone, -⟩ := hlisted r hr
    cases hnone
  | some r₀ =>
    -- a row that the pass still holds has the workflow and the attempts that were read
    have hheld : ∀ r, Held executorID s.table s.taken id r → r₀.status = .pending ∧ Same r₀ r := by
      intro r hr
      obtain ⟨r₁, hr₁, hpending, hsame⟩ := hlisted r hr
      cases hr₁
      exact ⟨hpending, hsame⟩
    cases hentry : reg.find r₀ with
    | none =>
      simp only [Orphan.dispatch, hentry]
      refine h.skip hloop fun r hr => ?_
      rw [← (hheld r hr).2.find_eq, hentry]
      rfl
    | some entry =>
      simp only [Orphan.dispatch, hentry]
      split_ifs with hexhausted hpending
      · refine h.next (.deadLettering id r₀.recoveryAttempts todo) hloop (fun id' attempts hdead r hr => ?_)
          (fun _ _ _ => .inl ⟨r₀.recoveryAttempts, rfl⟩) (fun _ hx => hx) fun _ hx => .inl hx
        cases hdead
        exact (hheld r hr).2.2.2
      · refine h.next (.starting todo) hloop (fun _ _ hdead => by cases hdead)
          (fun r hr _ => (hpending (hheld r hr).1).elim) (fun _ hx => hx) fun _ hx => .inl hx
      · refine h.next (.starting todo) hloop (fun _ _ hdead => by cases hdead)
          (fun _ _ _ => .inr (by simp)) (fun _ hx => List.mem_append_left _ hx) fun x hx => ?_
        rcases List.mem_append.1 hx with hold | hnew
        · exact .inl hold
        · refine .inr ⟨List.mem_singleton.1 hnew, fun r hr => ?_⟩
          rw [← (hheld r hr).2.find_eq, hentry]
          rfl

theorem Inv.deadLetter (h : Inv reg executorID s) {id : String} {attempts : ℕ}
    {todo : List (String × Option WorkflowRow)} (hloop : s.loop = .deadLettering id attempts todo) (now : Int) :
    Inv reg executorID
      { s with table := s.table.deadLetterWorkflows [id] attempts now, loop := .starting todo } := by
  have hdead : s.loop.deadLettering? = some (id, attempts) := by rw [hloop]; rfl
  have hheld : ∀ id' r, Held executorID (s.table.deadLetterWorkflows [id] attempts now) s.taken id' r →
      Held executorID s.table s.taken id' r ∧ id' ≠ id := by
    rintro id' r ⟨hfound, hpending, hexec, hown⟩
    rw [StatusTable.deadLetterWorkflows, Table.find?_update, Option.map_eq_some_iff] at hfound
    obtain ⟨r₀, hr₀, hrow⟩ := hfound
    have hkey : r₀.workflowID = id' := Table.key_of_find? hr₀
    split_ifs at hrow with htakes
    · subst hrow
      cases hpending
    · subst hrow
      have hheld₀ : Held executorID s.table s.taken id' r₀ := ⟨hr₀, hpending, hexec, hown⟩
      refine ⟨hheld₀, fun heq => htakes ?_⟩
      subst heq
      have hattempts := h.attempts id' attempts hdead r₀ hheld₀
      simp [hkey, Db.deadLetterable, hpending, hattempts]
  constructor
  · exact fun id' status hmem r hr => h.listed id' status (by rw [hloop]; exact hmem) r (hheld id' r hr).1
  · exact fun id' attempts' hdead' => by cases hdead'
  · intro _ id' hid' r hr hreg
    obtain ⟨hr', hne⟩ := hheld id' r hr
    rcases h.dealt (by rw [hloop]; simp) id' hid' r hr' hreg with ⟨status, hmem⟩ | ⟨attempts', hd⟩ | hs
    · rw [hloop] at hmem
      exact .inl ⟨status, hmem⟩
    · rw [hdead] at hd
      exact (hne (Prod.mk.inj (Option.some.inj hd)).1.symm).elim
    · exact .inr (.inr hs)
  · exact fun id' hid' r hr => h.started id' hid' r (hheld id' r hr).1

def Unread (s : State) : Prop := s.loop = .claimed → s.started = []

theorem inv_of_reaches {C : State → Action → Prop} (h : Reaches (system reg executorID) C s) :
    Inv reg executorID s ∧ Unread s := by
  refine h.invariant (I := fun s => Inv reg executorID s ∧ Unread s) ?_ ?_
  · rintro s ⟨hloop, hstarted, -⟩
    refine ⟨⟨fun id status hmem => ?_, fun id attempts hdead => ?_, fun hne => (hne hloop).elim,
      fun id hid => ?_⟩, fun _ => hstarted⟩
    · rw [hloop] at hmem
      cases hmem
    · rw [hloop] at hdead
      cases hdead
    · rw [hstarted] at hid
      cases hid
  · rintro s a s' ⟨hI, hunread⟩ _ hstep
    cases a with
    | listWorkflows =>
      simp only [system, step] at hstep
      split at hstep
      · rename_i hloop
        cases hstep
        exact ⟨.list (hunread hloop), fun hc => by cases hc⟩
      · cases hstep
    | dispatch =>
      simp only [system, step] at hstep
      split at hstep
      · rename_i id status todo hloop
        cases hstep
        refine ⟨hI.dispatch hloop, fun hc => ?_⟩
        unfold Orphan.dispatch at hc
        split at hc
        · cases hc
        · split at hc
          · cases hc
          · split_ifs at hc
      · cases hstep
    | deadLetter now =>
      simp only [system, step] at hstep
      split at hstep
      · rename_i hloop
        cases hstep
        exact ⟨hI.deadLetter hloop now, fun hc => by cases hc⟩
      · cases hstep
    | others op =>
      obtain ⟨table, htable, rfl⟩ := Option.map_eq_some_iff.1 hstep
      exact ⟨hI.of_held fun _ _ => held_of_others htable, hunread⟩
    | refreshExecutorID id other =>
      cases hstep
      exact ⟨hI.of_held fun _ _ => held_of_refresh, hunread⟩

end Invariant

/-- **What is started.** -/
theorem claimed_started_iff (reg : Registry) (executorID : String) {s : State}
    (h : Reaches (system reg executorID) (fun _ _ => True) s) (hdone : s.loop.isDone = true) {id : String}
    (hid : id ∈ s.claimed) {r : WorkflowRow} (hr : Held executorID s.table s.taken id r) :
    id ∈ s.started ↔ (reg.find r).isSome = true := by
  obtain ⟨hI, -⟩ := inv_of_reaches h
  refine ⟨fun hstarted => hI.started id hstarted r hr, fun hreg => ?_⟩
  have hloop : s.loop = .starting [] := by
    unfold Loop.isDone at hdone
    split at hdone
    · assumption
    · cases hdone
  rcases hI.dealt (by rw [hloop]; simp) id hid r hr hreg with ⟨status, hmem⟩ | ⟨attempts, hdead⟩ | hstarted
  · rw [hloop] at hmem
    cases hmem
  · rw [hloop] at hdead
    cases hdead
  · exact hstarted

/-! ### A workflow that is not in the registry -/

def claimedTable : StatusTable :=
  StatusTable.claim
    (.insert .empty { workflowID := "w", status := .enqueued, name := "f", queueName := some "q" })
    ⟨"worker", "v", "app", false⟩ ["w"] 0

def afterClaim : State := ⟨claimedTable, ["w"], .claimed, [], []⟩

/-- The registry of a worker that knows no workflow, and of one that knows `f`. -/
def noWorkflows : Registry := ⟨fun _ => none, fun _ => none⟩

def oneWorkflow : Registry :=
  ⟨fun name => if name = "f" then some "main.f" else none,
    fun fqn => if fqn = "main.f" then some (some ⟨100⟩) else none⟩

/-- The loop is done, the row is `PENDING` on the executor, and nothing was started. -/
theorem claimed_orphaned :
    ∃ s, Reaches (system noWorkflows "worker") (fun _ _ => True) s ∧ s.loop.isDone = true ∧
      "w" ∈ s.claimed ∧ s.started = [] ∧ ∃ r, Held "worker" s.table s.taken "w" r := by
  obtain ⟨s, hs, hp⟩ := exists_reaches (S := system noWorkflows "worker") (fun _ _ => True) (s := afterClaim)
    [.listWorkflows, .dispatch]
    (fun s => s.loop.isDone && "w" ∈ s.claimed && s.started = [] && "w" ∉ s.taken &&
      (s.table.find? "w").any fun r => r.status = .pending && r.executorID = some "worker")
    ⟨rfl, rfl, rfl⟩ (fun _ _ => trivial) (by decide +kernel)
  simp only [Bool.and_eq_true, decide_eq_true_eq, Option.any_eq_true] at hp
  obtain ⟨⟨⟨⟨hdone, hclaimed⟩, hstarted⟩, htaken⟩, r, hr, hpending, hexec⟩ := hp
  exact ⟨s, hs, hdone, hclaimed, hstarted, r, hr, hpending, hexec, htaken⟩

theorem claimed_started_oneWorkflow :
    ∃ s, Reaches (system oneWorkflow "worker") (fun _ _ => True) s ∧ s.loop.isDone = true ∧
      "w" ∈ s.started := by
  obtain ⟨s, hs, hp⟩ := exists_reaches (S := system oneWorkflow "worker") (fun _ _ => True) (s := afterClaim)
    [.listWorkflows, .dispatch]
    (fun s => s.loop.isDone && "w" ∈ s.claimed && "w" ∉ s.taken &&
      (s.table.find? "w").any fun r =>
        r.status = .pending && r.executorID = some "worker" && (oneWorkflow.find r).isSome)
    ⟨rfl, rfl, rfl⟩ (fun _ _ => trivial) (by decide +kernel)
  simp only [Bool.and_eq_true, decide_eq_true_eq, Option.any_eq_true] at hp
  obtain ⟨⟨⟨hdone, hclaimed⟩, htaken⟩, r, hr, ⟨hpending, hexec⟩, hreg⟩ := hp
  refine ⟨s, hs, hdone, ?_⟩
  exact (claimed_started_iff oneWorkflow "worker" hs hdone hclaimed ⟨hr, hpending, hexec, htaken⟩).2 hreg

end Dbos.Queue.Orphan
