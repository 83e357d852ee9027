import DbosTransact.Execution.Owner
import Mathlib.Data.Finset.Card
import Mathlib.Order.Interval.Finset.Nat

/-!
# The number of attempts

The direct starts are those of `Execution/Start`; besides, queue runners dispatch the workflow: `claim`
counts in `recovery_attempts` and dispatches nothing if its acknowledgement is lost, `read` reads the row,
and `start` follows, or `deadLetter` if the attempts exceed the limit. A row that a direct start has made
begins with one attempt, another with none, so that the claims are numbered by the attempts they leave.
-/

namespace Dbos.Attempts

open Relational ReadCommitted Lts Lifecycle Start

/-- Where a dispatch stands, with what the queue runner has read. -/
inductive DispatchPhase
  | claimed
  | read (status : Status) (attempts : ℕ)
  | started
  | dropped
  deriving DecidableEq, Repr

/-- A dispatch; `number` is the number of attempts that its claim has left in the row. -/
structure Dispatch where
  number : ℕ
  phase : DispatchPhase := .claimed
  deriving DecidableEq, Repr

def Dispatch.isStarted (d : Dispatch) : Bool := d.phase = .started

structure State (n : ℕ) where
  start : Start.State n
  dispatches : List Dispatch
  claims : ℕ

def State.goto {n : ℕ} (s : State n) (k : ℕ) (d : Dispatch) (p : DispatchPhase) : State n :=
  { s with dispatches := s.dispatches.set k { d with phase := p } }

/-- The next step; `acknowledged` says whether the acknowledgement of a commit arrives. -/
inductive Action (n : ℕ)
  | call (a : Start.Action n)
  | claim (c : WorkflowRow.Claim) (ids : List String) (now : Int) (acknowledged : Bool)
  | read (k : ℕ)
  | start (k : ℕ)
  | deadLetter (k : ℕ) (now : Int) (acknowledged : Bool)
  | crash (k : ℕ)
  deriving DecidableEq, Repr

def exhausted (maxRetries attempts : ℕ) : Bool := 0 < maxRetries && maxRetries + 1 < attempts

section Step

variable {n : ℕ} (cfg : Config n) (maxRetries : ℕ)

def State.row? (s : State n) : Option WorkflowRow := s.start.row? cfg

def State.claimable? (s : State n) (c : WorkflowRow.Claim) (ids : List String) : Option WorkflowRow :=
  (s.row? cfg).filter (StatusTable.claimTakes c ids)

def State.operate (s : State n) (op : Operation) : Option (Start.State n) :=
  Start.step cfg s.start (.environment op)

def step (s : State n) : Action n → Option (State n)
  | .call a => (Start.step cfg s.start a).map fun start => { s with start }
  | .claim c ids now acknowledged =>
    (s.operate cfg (.dequeueWorkflows c ids now)).map fun start =>
      match s.claimable? cfg c ids with
      | none => { s with start }
      | some r =>
        { start
          claims := s.claims + 1
          dispatches :=
            if acknowledged then s.dispatches ++ [⟨(r.claim c now).recoveryAttempts, .claimed⟩]
            else s.dispatches }
  | .read k =>
    match s.dispatches[k]? with
    | some d =>
      match d.phase with
      | .claimed =>
        match s.row? cfg with
        | some r => some (s.goto k d (.read r.status r.recoveryAttempts))
        | none => some (s.goto k d .dropped)
      | _ => none
    | none => none
  | .start k =>
    match s.dispatches[k]? with
    | some d =>
      match d.phase with
      | .read status attempts =>
        if exhausted maxRetries attempts then none
        else some (s.goto k d (if status = .pending then .started else .dropped))
      | _ => none
    | none => none
  | .deadLetter k now acknowledged =>
    match s.dispatches[k]? with
    | some d =>
      match d.phase with
      | .read _ attempts =>
        if exhausted maxRetries attempts then
          (s.operate cfg (.deadLetterWorkflows [cfg.workflowID] attempts now)).map fun start =>
            if acknowledged then { s.goto k d .dropped with start } else { s with start }
        else none
      | _ => none
    | none => none
  | .crash k =>
    match s.dispatches[k]? with
    | some d =>
      match d.phase with
      | .started => none
      | _ => some (s.goto k d .dropped)
    | none => none

def Init (s : State n) : Prop :=
  Start.Init cfg s.start ∧ s.row? cfg = none ∧ s.dispatches = [] ∧ s.claims = 0

def system : System (State n) (Action n) where
  init := Init cfg
  step := step cfg maxRetries

end Step

/-- The operation leaves the attempts of the workflow alone. Its direct starts, claims and dead
letters are actions of their own; a resume or a suspension would give it back its attempts. -/
def leavesAttempts (workflowID : String) : Operation → Bool
  | .insertWorkflowStatus _ i => i.workflowID ≠ workflowID || i.status ≠ .pending
  | .dequeueWorkflows _ ids _ | .deadLetterWorkflows ids _ _ | .resumeWorkflows ids _ _ =>
    workflowID ∉ ids
  | .suspendWorkflowToDelayed id _ _ => id ≠ workflowID
  | _ => true

/-- The runs considered: without resumes and suspensions of the workflow, and not deleting it. -/
def Considered {n : ℕ} (cfg : Config n) (s : State n) : Action n → Prop
  | .call (.environment op) =>
    Undeleted cfg s.start (.environment op) ∧ leavesAttempts cfg.workflowID op = true
  | _ => True

instance {n : ℕ} (cfg : Config n) (s : State n) (a : Action n) : Decidable (Considered cfg s a) := by
  unfold Considered
  split <;> infer_instance

/-! ### The counts -/

section Counts

variable {n : ℕ} (cfg : Config n)

/-- The call has reached `executeWorkflow`. -/
def isExecuting : Phase → Bool
  | .executing _ => true
  | _ => false

def directs (r : WorkflowRow) : ℕ := if ∃ i, r.ownerXID = some (cfg.calls i).ownerXID then 1 else 0

def State.starts (s : State n) : ℕ :=
  (Finset.univ.filter fun i => isExecuting (s.start.phases i) = true).card +
    s.dispatches.countP (·.isStarted)

/-- The bounds: on the starts, and on the claims of a workflow that was dead-lettered. -/
structure Bounded (maxRetries : ℕ) (s : State n) : Prop where
  starts : s.starts ≤ maxRetries + 1
  deadLettered : ∀ r, s.row? cfg = some r → r.status = .maxRecoveryAttemptsExceeded →
    maxRetries + 2 ≤ s.claims + directs cfg r

end Counts

variable {n : ℕ} {cfg : Config n} {maxRetries : ℕ} {s t : State n}

/-! ### What becomes of the row -/

/-- The attempts and the maker of a row are kept, and it is not dead-lettered. -/
structure SameAttempts (cfg : Config n) (r r' : WorkflowRow) : Prop where
  attempts : r'.recoveryAttempts = r.recoveryAttempts
  directs : directs cfg r' = directs cfg r
  status : r'.status = .maxRecoveryAttemptsExceeded → r.status = .maxRecoveryAttemptsExceeded

/-- A new row begins with one attempt if it is a direct start, and else with none. -/
structure Fresh (cfg : Config n) (r : WorkflowRow) : Prop where
  attempts : r.recoveryAttempts = directs cfg r
  status : r.status ≠ .maxRecoveryAttemptsExceeded

/-- What becomes of the row in a step that neither claims nor dead-letters it. -/
def RowKept (cfg : Config n) (row row' : Option WorkflowRow) : Prop :=
  match row, row' with
  | none, none => True
  | none, some r' => Fresh cfg r'
  | some r, some r' => SameAttempts cfg r r'
  | some _, none => False

theorem SameAttempts.refl (r : WorkflowRow) : SameAttempts cfg r r := ⟨rfl, rfl, id⟩

theorem RowKept.refl (row : Option WorkflowRow) : RowKept cfg row row := by
  cases row with
  | none => trivial
  | some r => exact SameAttempts.refl r

theorem RowKept.offered {row : Option WorkflowRow} (i : Fin n) (now : Int) :
    RowKept cfg row (some (offered ((cfg.calls i).row cfg.workflowID now) row)) := by
  cases row with
  | none =>
    refine ⟨?_, fun h => by cases h⟩
    show 1 = directs cfg ((cfg.calls i).row cfg.workflowID now)
    rw [directs, if_pos ⟨i, rfl⟩]
  | some r => exact ⟨rfl, rfl, id⟩

theorem directs_eq_zero {r : WorkflowRow} (h : ∀ i, r.ownerXID ≠ some (cfg.calls i).ownerXID) :
    directs cfg r = 0 :=
  if_neg fun ⟨i, hi⟩ => h i hi

theorem SameAttempts.ite {r r' : WorkflowRow} {c : Bool} (h : c = true → SameAttempts cfg r r') :
    SameAttempts cfg r (if c then r' else r) := by
  split_ifs with hc
  · exact h hc
  · exact .refl r

theorem sameAttempts_onRow {op : Operation} {r : WorkflowRow} (hid : r.workflowID = cfg.workflowID)
    (hleaves : leavesAttempts cfg.workflowID op = true) : SameAttempts cfg r (op.onRow r) := by
  cases op with
  | insertWorkflowStatus appName i =>
    simp only [Operation.onRow]
    split_ifs
    · exact ⟨rfl, rfl, id⟩
    · exact .refl r
  | dequeueWorkflows c ids now =>
    refine .ite fun htakes => ?_
    simp_all [leavesAttempts, StatusTable.claimTakes]
  | deadLetterWorkflows ids minAttempts now =>
    refine .ite fun htakes => ?_
    simp_all [leavesAttempts]
  | resumeWorkflows ids queueName now =>
    refine .ite fun htakes => ?_
    simp_all [leavesAttempts]
  | suspendWorkflowToDelayed id delayUntil now =>
    refine .ite fun htakes => ?_
    simp_all [leavesAttempts]
  | updateWorkflowOutcome id failed output error now =>
    refine .ite fun _ => ⟨rfl, rfl, fun hst => ?_⟩
    cases failed <;> cases hst
  | transitionDelayedWorkflows | cancelWorkflows | reenqueueForRecovery =>
    exact .ite fun _ => ⟨rfl, rfl, fun hst => by cases hst⟩
  | debounceDelayedWorkflow | setWorkflowDelay | wake | renameApplication =>
    exact .ite fun _ => ⟨rfl, rfl, id⟩
  | forkWorkflows | deleteWorkflows | garbageCollectWorkflows => exact .refl r

theorem fresh_of_makes {op : Operation} {r : WorkflowRow} (hid : r.workflowID = cfg.workflowID)
    (howner : ∀ i, writtenOwner op ≠ some (cfg.calls i).ownerXID)
    (hleaves : leavesAttempts cfg.workflowID op = true) (h : op.Makes r) : Fresh cfg r := by
  cases op with
  | insertWorkflowStatus appName i =>
    obtain ⟨hwell, rfl⟩ := h
    have hid : i.workflowID = cfg.workflowID := hid
    have hqueued : i.status = .enqueued ∨ i.status = .delayed := by
      simp only [leavesAttempts, hid, ne_eq, not_true_eq_false, decide_false, Bool.false_or,
        decide_not, Bool.not_eq_true', decide_eq_false_iff_not] at hleaves
      rcases hwell with hpending | ⟨-, hqueued | ⟨hqueued, -⟩⟩
      · exact (hleaves hpending).elim
      · exact .inl hqueued
      · exact .inr hqueued
    refine ⟨?_, fun hst => ?_⟩
    · rw [directs_eq_zero howner]
      exact if_pos hqueued
    · have hst : i.status = .maxRecoveryAttemptsExceeded := hst
      rw [hst] at hqueued
      rcases hqueued with hq | hq <;> cases hq
  | forkWorkflows appName i now =>
    obtain ⟨original, forkedID, rfl⟩ := h
    exact ⟨(directs_eq_zero fun i hi => by cases hi).symm, fun hst => by cases hst⟩
  | _ => exact h.elim

theorem rowKept_of_step {u u' : StatusTable} {op : Operation} (h : Lifecycle.step u op = some u')
    (hkept : (u.find? cfg.workflowID).isSome = true → (u'.find? cfg.workflowID).isSome = true)
    (howner : ∀ i, writtenOwner op ≠ some (cfg.calls i).ownerXID)
    (hleaves : leavesAttempts cfg.workflowID op = true) :
    RowKept cfg (u.find? cfg.workflowID) (u'.find? cfg.workflowID) := by
  cases hr' : u'.find? cfg.workflowID with
  | none =>
    rw [hr'] at hkept
    rw [show u.find? cfg.workflowID = none by simpa using hkept]
    trivial
  | some r' =>
    rcases find?_step h hr' with ⟨r, hr, rfl⟩ | ⟨hnone, hmakes⟩
    · rw [hr]
      exact sameAttempts_onRow (Table.key_of_find? hr) hleaves
    · rw [hnone]
      exact fresh_of_makes (Table.key_of_find? hr') howner hleaves hmakes

theorem committed_operate {op : Operation} {u : Start.State n} (h : s.operate cfg op = some u) :
    Lifecycle.step s.start.store.committed op = some u.store.committed := by
  simp only [State.operate, Start.step] at h
  split at h
  next u' hu' =>
    split_ifs at h
    cases h
    exact hu'
  next => cases h

/-- A step of the calls keeps the attempts. -/
theorem rowKept_of_call {a : Start.Action n} {u : Start.State n} (hinv : Start.Inv cfg s.start)
    (hconsidered : Considered cfg s (.call a)) (h : Start.step cfg s.start a = some u) :
    RowKept cfg (s.row? cfg) (u.row? cfg) := by
  have hcommit : ∀ i skip result p, s.start.phases i = .decided skip result →
      RowKept cfg (s.row? cfg) ((s.start.commit i p).row? cfg) := by
    intro i skip result p hphase
    have hopened := hinv.opened i
    rw [hphase] at hopened
    obtain ⟨⟨now, hown, -⟩, -⟩ := hopened
    rw [row?_commit hown]
    exact .offered i now
  cases a with
  | insert i now =>
    simp only [Start.step] at h
    split at h
    next =>
      split_ifs at h
      split at h
      next => split_ifs at h <;> cases h <;> exact .refl _
      next =>
        cases h
        exact .refl _
    next => cases h
  | load i =>
    simp only [Start.step] at h
    split at h
    next =>
      cases h
      exact .refl _
    next => cases h
  | commit i =>
    simp only [Start.step] at h
    split at h
    next skip result hphase =>
      split_ifs at h <;> cases h <;> exact hcommit i skip result _ hphase
    next => cases h
  | commitUnacknowledged i =>
    simp only [Start.step] at h
    split at h
    next skip result hphase =>
      cases h
      exact hcommit i skip result _ hphase
    next => cases h
  | abort i | crash i =>
    simp only [Start.step] at h
    split at h
    case h_4 => cases h
    all_goals
      cases h
      exact .refl _
  | environment op =>
    obtain ⟨⟨hkept, howner⟩, hleaves⟩ := hconsidered
    have hstep : Lifecycle.step s.start.store.committed op = some u.store.committed :=
      committed_operate h
    exact rowKept_of_step hstep (hkept _ hstep) howner hleaves
  | setActive executorID active =>
    cases h
    exact .refl _

/-! ### The invariant -/

structure DispatchOk (cfg : Config n) (maxRetries : ℕ) (r : WorkflowRow) (d : Dispatch) : Prop where
  counted : directs cfg r < d.number ∧ d.number ≤ r.recoveryAttempts
  read : ∀ status attempts, d.phase = .read status attempts →
    d.number ≤ attempts ∧ attempts ≤ r.recoveryAttempts
  started : d.phase = .started → d.number ≤ maxRetries + 1

structure Inv (cfg : Config n) (maxRetries : ℕ) (s : State n) : Prop where
  start : Start.Inv cfg s.start
  absent : s.row? cfg = none → s.claims = 0 ∧ s.dispatches = []
  attempts : ∀ r, s.row? cfg = some r → r.recoveryAttempts = s.claims + directs cfg r
  dispatches : ∀ r, s.row? cfg = some r → ∀ d ∈ s.dispatches, DispatchOk cfg maxRetries r d
  numbers : (s.dispatches.map (·.number)).Nodup
  deadLettered : ∀ r, s.row? cfg = some r → r.status = .maxRecoveryAttemptsExceeded →
    maxRetries + 2 ≤ r.recoveryAttempts

theorem inv_of_init (h : Init cfg s) : Inv cfg maxRetries s := by
  obtain ⟨hstart, hnone, hdispatches, hclaims⟩ := h
  have habsurd : ∀ r, s.row? cfg ≠ some r := by simp [hnone]
  exact ⟨Start.inv_of_init hstart, fun _ => ⟨hclaims, hdispatches⟩, fun r hr => (habsurd r hr).elim,
    fun r hr => (habsurd r hr).elim, by simp [hdispatches], fun r hr => (habsurd r hr).elim⟩

theorem DispatchOk.mono {r r' : WorkflowRow} {d : Dispatch} (h : DispatchOk cfg maxRetries r d)
    (hattempts : r.recoveryAttempts ≤ r'.recoveryAttempts) (hdirects : directs cfg r' = directs cfg r) :
    DispatchOk cfg maxRetries r' d := by
  obtain ⟨⟨hlow, hhigh⟩, hread, hstarted⟩ := h
  refine ⟨⟨hdirects ▸ hlow, hhigh.trans hattempts⟩, fun status attempts hphase => ?_, hstarted⟩
  obtain ⟨hnumber, hle⟩ := hread status attempts hphase
  exact ⟨hnumber, hle.trans hattempts⟩

theorem Inv.ofSome {r : WorkflowRow} (hstart : Start.Inv cfg s.start) (hr : s.row? cfg = some r)
    (hattempts : r.recoveryAttempts = s.claims + directs cfg r)
    (hdispatches : ∀ d ∈ s.dispatches, DispatchOk cfg maxRetries r d)
    (hnumbers : (s.dispatches.map (·.number)).Nodup)
    (hdead : r.status = .maxRecoveryAttemptsExceeded → maxRetries + 2 ≤ r.recoveryAttempts) :
    Inv cfg maxRetries s := by
  have hsome : ∀ r', s.row? cfg = some r' → r' = r := fun r' hr' => Option.some.inj (hr'.symm.trans hr)
  refine ⟨hstart, fun hnone => ?_, fun r' hr' => ?_, fun r' hr' => ?_, hnumbers, fun r' hr' => ?_⟩
  · cases hnone.symm.trans hr
  · rwa [hsome r' hr']
  · rwa [hsome r' hr']
  · rwa [hsome r' hr']

theorem Inv.ofRow (h : Inv cfg maxRetries s) (hstart : Start.Inv cfg t.start)
    (hclaims : t.claims = s.claims) (hdispatches : t.dispatches = s.dispatches)
    (hrow : RowKept cfg (s.row? cfg) (t.row? cfg)) : Inv cfg maxRetries t := by
  unfold RowKept at hrow
  have hnumbers : (t.dispatches.map (·.number)).Nodup := hdispatches ▸ h.numbers
  split at hrow
  next hs ht =>
    have habsurd : ∀ r, t.row? cfg ≠ some r := by simp [ht]
    obtain ⟨hclaims', hdispatches'⟩ := h.absent hs
    exact ⟨hstart, fun _ => ⟨hclaims.trans hclaims', hdispatches.trans hdispatches'⟩,
      fun r hr => (habsurd r hr).elim, fun r hr => (habsurd r hr).elim, hnumbers,
      fun r hr => (habsurd r hr).elim⟩
  next r' hs ht =>
    obtain ⟨hclaims', hdispatches'⟩ := h.absent hs
    refine .ofSome hstart ht ?_ (fun d hd => ?_) hnumbers fun hst => (hrow.status hst).elim
    · rw [hclaims, hclaims', hrow.attempts, zero_add]
    · rw [hdispatches, hdispatches'] at hd
      cases hd
  next r r' hs ht =>
    refine .ofSome hstart ht ?_ (fun d hd => ?_) hnumbers fun hst => ?_
    · rw [hrow.attempts, hclaims, hrow.directs]
      exact h.attempts r hs
    · exact (h.dispatches r hs d (hdispatches ▸ hd)).mono hrow.attempts.ge hrow.directs
    · rw [hrow.attempts]
      exact h.deadLettered r hs (hrow.status hst)
  next => exact hrow.elim

theorem Inv.goto (h : Inv cfg maxRetries s) {k : ℕ} {d : Dispatch} (hk : s.dispatches[k]? = some d)
    {p : DispatchPhase}
    (hok : ∀ r, s.row? cfg = some r → DispatchOk cfg maxRetries r d →
      DispatchOk cfg maxRetries r { d with phase := p }) :
    Inv cfg maxRetries (s.goto k d p) := by
  have hd : d ∈ s.dispatches := List.mem_of_getElem? hk
  have hmap : (s.dispatches.set k { d with phase := p }).map (·.number) = s.dispatches.map (·.number) := by
    obtain ⟨hlt, rfl⟩ := List.getElem?_eq_some_iff.1 hk
    have hlt' : k < (s.dispatches.map (·.number)).length := by simpa using hlt
    simpa only [List.map_set, List.getElem_map] using List.set_getElem_self hlt'
  refine ⟨h.start, fun hnone => ?_, h.attempts, fun r hr d' hd' => ?_, ?_, h.deadLettered⟩
  · rw [(h.absent hnone).2] at hd
    cases hd
  · rcases List.mem_or_eq_of_mem_set hd' with hd' | rfl
    · exact h.dispatches r hr d' hd'
    · exact hok r hr (h.dispatches r hr d hd)
  · show ((s.dispatches.set k { d with phase := p }).map (·.number)).Nodup
    rw [hmap]
    exact h.numbers

theorem DispatchOk.quiet {r : WorkflowRow} {d : Dispatch} (h : DispatchOk cfg maxRetries r d)
    {p : DispatchPhase} (hp : p = .claimed ∨ p = .dropped) :
    DispatchOk cfg maxRetries r { d with phase := p } := by
  refine ⟨h.counted, fun status attempts hphase => ?_, fun hphase => ?_⟩
  · have hphase : p = .read status attempts := hphase
    rcases hp with rfl | rfl <;> cases hphase
  · have hphase : p = .started := hphase
    rcases hp with rfl | rfl <;> cases hphase

/-! ### The steps -/

theorem undeleted_of_considered {a : Start.Action n} (h : Considered cfg s (.call a)) :
    Undeleted cfg s.start a := by
  cases a with
  | environment op => exact h.1
  | insert | load | commit | commitUnacknowledged | abort | crash | setActive => trivial

theorem undeleted_of_update {op : Operation} (howner : writtenOwner op = none)
    {p : WorkflowRow → Bool} {f : WorkflowRow → WorkflowRow} {hf : ∀ r, (f r).workflowID = r.workflowID}
    (hop : Lifecycle.step s.start.store.committed op = some (s.start.store.committed.update p f hf)) :
    Undeleted cfg s.start (.environment op) := by
  refine ⟨fun u hu hsome => ?_, fun i hi => by rw [howner] at hi; cases hi⟩
  obtain rfl := Option.some.inj (hop.symm.trans hu)
  rw [Table.find?_update, Option.isSome_map]
  exact hsome

theorem Inv.call (hdraws : DrawsOwners cfg) (h : Inv cfg maxRetries s) {a : Start.Action n}
    {u : Start.State n} (hconsidered : Considered cfg s (.call a)) (hstep : Start.step cfg s.start a = some u) :
    Inv cfg maxRetries { s with start := u } :=
  h.ofRow (Start.inv_step hdraws h.start (undeleted_of_considered hconsidered) hstep) rfl rfl
    (rowKept_of_call h.start hconsidered hstep)

theorem row?_claim {c : WorkflowRow.Claim} {ids : List String} {now : Int} {u : Start.State n}
    (hu : s.operate cfg (.dequeueWorkflows c ids now) = some u) :
    u.row? cfg = match s.claimable? cfg c ids with
      | some r => some (r.claim c now)
      | none => s.row? cfg := by
  have hcommitted : s.start.store.committed.claim c ids now = u.store.committed :=
    Option.some.inj (committed_operate hu)
  unfold State.claimable? State.row? Start.State.row?
  rw [← hcommitted, StatusTable.claim, Table.find?_update]
  cases s.start.store.committed.find? cfg.workflowID with
  | none => rfl
  | some r =>
    show some (if StatusTable.claimTakes c ids r then r.claim c now else r) = _
    cases hclaim : StatusTable.claimTakes c ids r with
    | true => simp [Option.filter, hclaim]
    | false => simp [Option.filter, hclaim]

theorem Inv.claim (hdraws : DrawsOwners cfg) (h : Inv cfg maxRetries s) {c : WorkflowRow.Claim}
    {ids : List String} {now : Int} {acknowledged : Bool}
    (hstep : step cfg maxRetries s (.claim c ids now acknowledged) = some t) : Inv cfg maxRetries t := by
  simp only [step, Option.map_eq_some_iff] at hstep
  obtain ⟨u, hu, rfl⟩ := hstep
  have hstart : Start.Inv cfg u := Start.inv_step hdraws h.start (undeleted_of_update rfl rfl) hu
  have hrow := row?_claim hu
  cases hclaimable : s.claimable? cfg c ids with
  | none =>
    rw [hclaimable] at hrow
    refine h.ofRow hstart rfl rfl ?_
    show RowKept cfg (s.row? cfg) (u.row? cfg)
    rw [hrow]
    exact .refl _
  | some r =>
    rw [hclaimable] at hrow
    dsimp only at hrow ⊢
    have hr : s.row? cfg = some r := (Option.filter_eq_some_iff.1 hclaimable).1
    have hattempts := h.attempts r hr
    have hold : ∀ d ∈ s.dispatches, DispatchOk cfg maxRetries (r.claim c now) d := fun d hd =>
      (h.dispatches r hr d hd).mono (Nat.le_succ _) rfl
    have hnew : DispatchOk cfg maxRetries (r.claim c now) ⟨(r.claim c now).recoveryAttempts, .claimed⟩ := by
      refine ⟨⟨?_, le_rfl⟩, fun _ _ hphase => (by cases hphase), fun hphase => (by cases hphase)⟩
      show directs cfg r < r.recoveryAttempts + 1
      omega
    refine .ofSome hstart hrow ?_ (fun d hd => ?_) ?_ fun hst => by cases hst
    · show r.recoveryAttempts + 1 = s.claims + 1 + directs cfg r
      omega
    · split_ifs at hd
      · rcases List.mem_append.1 hd with hd | hd
        · exact hold d hd
        · exact List.mem_singleton.1 hd ▸ hnew
      · exact hold d hd
    · split_ifs
      · rw [List.map_append, List.map_singleton, List.nodup_append]
        refine ⟨h.numbers, List.nodup_singleton _, ?_⟩
        rintro _ hd b hb rfl
        obtain ⟨d, hd, hnumber⟩ := List.mem_map.1 hd
        -- the numbers given so far are at most the attempts before the claim
        have hle := (h.dispatches r hr d hd).counted.2
        have hb : d.number = r.recoveryAttempts + 1 := hnumber.trans (List.mem_singleton.1 hb)
        omega
      · exact h.numbers

theorem row?_deadLetter {attempts : ℕ} {now : Int} {u : Start.State n}
    (hu : s.operate cfg (.deadLetterWorkflows [cfg.workflowID] attempts now) = some u) :
    u.row? cfg = (s.row? cfg).map fun r =>
      if Db.deadLetterable attempts r then r.deadLetter now else r := by
  have hcommitted : s.start.store.committed.deadLetterWorkflows [cfg.workflowID] attempts now =
      u.store.committed := Option.some.inj (committed_operate hu)
  unfold State.row? Start.State.row?
  rw [← hcommitted, StatusTable.deadLetterWorkflows, Table.find?_update]
  cases hr : s.start.store.committed.find? cfg.workflowID with
  | none => rfl
  | some r =>
    have hid : r.workflowID = cfg.workflowID := Table.key_of_find? hr
    simp [hid]

theorem Inv.operateDeadLetter (hdraws : DrawsOwners cfg) (h : Inv cfg maxRetries s) {attempts : ℕ}
    {now : Int} {u : Start.State n} (hexhausted : exhausted maxRetries attempts = true)
    (hu : s.operate cfg (.deadLetterWorkflows [cfg.workflowID] attempts now) = some u) :
    Inv cfg maxRetries { s with start := u } := by
  have hstart : Start.Inv cfg u := Start.inv_step hdraws h.start (undeleted_of_update rfl rfl) hu
  have hrow := row?_deadLetter hu
  cases hr : s.row? cfg with
  | none =>
    refine h.ofRow hstart rfl rfl ?_
    show RowKept cfg (s.row? cfg) (u.row? cfg)
    rw [hrow, hr]
    trivial
  | some r =>
    rw [hr, Option.map_some] at hrow
    by_cases hdead : Db.deadLetterable attempts r = true
    · rw [if_pos hdead] at hrow
      refine .ofSome hstart hrow (h.attempts r hr)
        (fun d hd => (h.dispatches r hr d hd).mono le_rfl rfl) h.numbers fun _ => ?_
      simp only [exhausted, Bool.and_eq_true, decide_eq_true_eq] at hexhausted
      simp only [Db.deadLetterable, Bool.and_eq_true, decide_eq_true_eq] at hdead
      show maxRetries + 2 ≤ r.recoveryAttempts
      omega
    · rw [if_neg hdead] at hrow
      refine h.ofRow hstart rfl rfl ?_
      show RowKept cfg (s.row? cfg) (u.row? cfg)
      rw [hrow, hr]
      exact SameAttempts.refl r

theorem Inv.deadLetter (hdraws : DrawsOwners cfg) (h : Inv cfg maxRetries s) {k : ℕ} {now : Int}
    {acknowledged : Bool} (hstep : step cfg maxRetries s (.deadLetter k now acknowledged) = some t) :
    Inv cfg maxRetries t := by
  simp only [step] at hstep
  split at hstep
  next d hk =>
    split at hstep
    next status attempts hphase =>
      by_cases hexhausted : exhausted maxRetries attempts = true
      · rw [if_pos hexhausted] at hstep
        obtain ⟨u, hu, rfl⟩ := Option.map_eq_some_iff.1 hstep
        have hinv := h.operateDeadLetter hdraws hexhausted hu
        split_ifs
        · exact hinv.goto hk fun _ _ hok => hok.quiet (.inr rfl)
        · exact hinv
      · rw [if_neg hexhausted] at hstep
        cases hstep
    next => cases hstep
  next => cases hstep

theorem Inv.read (h : Inv cfg maxRetries s) {k : ℕ} (hstep : step cfg maxRetries s (.read k) = some t) :
    Inv cfg maxRetries t := by
  simp only [step] at hstep
  split at hstep
  next d hk =>
    split at hstep
    next hphase =>
      split at hstep
      next r hr =>
        cases hstep
        refine h.goto hk fun r' hr' hok => ⟨hok.counted, fun status attempts hread => ?_,
          fun hread => by cases hread⟩
        obtain rfl := Option.some.inj (hr.symm.trans hr')
        cases hread
        exact ⟨hok.counted.2, le_rfl⟩
      next =>
        cases hstep
        exact h.goto hk fun _ _ hok => hok.quiet (.inr rfl)
    next => cases hstep
  next => cases hstep

theorem Inv.begin (hm : 0 < maxRetries) (h : Inv cfg maxRetries s) {k : ℕ}
    (hstep : step cfg maxRetries s (.start k) = some t) : Inv cfg maxRetries t := by
  simp only [step] at hstep
  split at hstep
  next d hk =>
    split at hstep
    next status attempts hphase =>
      split_ifs at hstep with hexhausted hpending
      · cases hstep
        refine h.goto hk fun r _ hok => ⟨hok.counted, fun _ _ hstarted => (by cases hstarted), fun _ => ?_⟩
        have hnumber := (hok.read status attempts hphase).1
        simp only [exhausted, Bool.and_eq_true, decide_eq_true_eq, not_and] at hexhausted
        have := hexhausted hm
        show d.number ≤ maxRetries + 1
        omega
      · cases hstep
        exact h.goto hk fun _ _ hok => hok.quiet (.inr rfl)
    next => cases hstep
  next => cases hstep

theorem Inv.crash (h : Inv cfg maxRetries s) {k : ℕ} (hstep : step cfg maxRetries s (.crash k) = some t) :
    Inv cfg maxRetries t := by
  simp only [step] at hstep
  split at hstep
  next d hk =>
    split at hstep
    next => cases hstep
    next =>
      cases hstep
      exact h.goto hk fun _ _ hok => hok.quiet (.inr rfl)
  next => cases hstep

/-- Every step keeps the invariant. -/
theorem inv_step (hm : 0 < maxRetries) (hdraws : DrawsOwners cfg) {a : Action n}
    (h : Inv cfg maxRetries s) (hconsidered : Considered cfg s a)
    (hstep : step cfg maxRetries s a = some t) : Inv cfg maxRetries t := by
  cases a with
  | call a =>
    obtain ⟨u, hu, rfl⟩ := Option.map_eq_some_iff.1 hstep
    exact h.call hdraws hconsidered hu
  | claim c ids now acknowledged => exact h.claim hdraws hstep
  | read k => exact h.read hstep
  | start k => exact h.begin hm hstep
  | deadLetter k now acknowledged => exact h.deadLetter hdraws hstep
  | crash k => exact h.crash hstep

/-! ### The bounds -/

theorem exists_row_of_executing (h : Inv cfg maxRetries s) {i : Fin n}
    (hi : isExecuting (s.start.phases i) = true) : ∃ r, s.row? cfg = some r ∧ directs cfg r = 1 := by
  have hended := h.start.ended i
  cases hphase : s.start.phases i <;> rw [hphase] at hi hended <;>
    simp only [isExecuting, Bool.false_eq_true] at hi
  obtain ⟨r, hr, howner⟩ := hended
  exact ⟨r, hr, if_pos ⟨i, howner⟩⟩

/-- At most one call executes the workflow. -/
theorem card_executing_le_one (hdraws : DrawsOwners cfg) (h : Inv cfg maxRetries s) :
    (Finset.univ.filter fun i => isExecuting (s.start.phases i) = true).card ≤ 1 := by
  refine Finset.card_le_one.2 fun i hi j hj => ?_
  have hexec : ∀ k, k ∈ Finset.univ.filter (fun i => isExecuting (s.start.phases i) = true) →
      ∃ x, s.start.phases k = .executing x := by
    intro k hk
    have hk := (Finset.mem_filter.1 hk).2
    cases hphase : s.start.phases k <;> rw [hphase] at hk <;>
      simp only [isExecuting, Bool.false_eq_true] at hk
    exact ⟨_, rfl⟩
  obtain ⟨x, hx⟩ := hexec i hi
  obtain ⟨y, hy⟩ := hexec j hj
  exact (h.start.oneOwner hdraws).unique i j x y hx hy

/-- The dispatches that have started the function are numbered within the limit. -/
theorem countP_isStarted_le (h : Inv cfg maxRetries s) {r : WorkflowRow} (hr : s.row? cfg = some r) :
    s.dispatches.countP (·.isStarted) ≤ maxRetries + 1 - directs cfg r := by
  set numbers := (s.dispatches.filter (·.isStarted)).map (·.number) with hnumbers
  have hnodup : numbers.Nodup := h.numbers.sublist (List.filter_sublist.map _)
  have hsub : numbers.toFinset ⊆ Finset.Ioc (directs cfg r) (maxRetries + 1) := by
    intro x hx
    obtain ⟨d, hd, rfl⟩ := List.mem_map.1 (List.mem_toFinset.1 hx)
    obtain ⟨hd, hstarted⟩ := List.mem_filter.1 hd
    have hok := h.dispatches r hr d hd
    exact Finset.mem_Ioc.2 ⟨hok.counted.1, hok.started (of_decide_eq_true hstarted)⟩
  calc s.dispatches.countP (·.isStarted) = numbers.length := by
        rw [hnumbers, List.length_map, List.countP_eq_length_filter]
    _ = numbers.toFinset.card := (List.toFinset_card_of_nodup hnodup).symm
    _ ≤ (Finset.Ioc (directs cfg r) (maxRetries + 1)).card := Finset.card_le_card hsub
    _ = maxRetries + 1 - directs cfg r := Nat.card_Ioc _ _

theorem Inv.bounded (hdraws : DrawsOwners cfg) (h : Inv cfg maxRetries s) : Bounded cfg maxRetries s := by
  constructor
  case starts =>
    unfold State.starts
    have hone := card_executing_le_one hdraws h
    by_cases hexec : ∃ i, isExecuting (s.start.phases i) = true
    · obtain ⟨i, hi⟩ := hexec
      obtain ⟨r, hr, hdirects⟩ := exists_row_of_executing h hi
      have hle := countP_isStarted_le h hr
      omega
    · have hempty : (Finset.univ.filter fun i => isExecuting (s.start.phases i) = true) = ∅ := by
        ext i
        simpa using fun hi => hexec ⟨i, hi⟩
      rw [hempty, Finset.card_empty, zero_add]
      cases hr : s.row? cfg with
      | none => simp [(h.absent hr).2]
      | some r => exact (countP_isStarted_le h hr).trans (Nat.sub_le _ _)
  case deadLettered =>
    intro r hr hst
    rw [← h.attempts r hr]
    exact h.deadLettered r hr hst

/-- **Crash loops are bounded.** In every run of direct starts, enqueues, claims, crashes, recoveries and
lost acknowledgements, the function of a workflow with a limit on its retries is started at most once more
than the limit, and a workflow that is dead-lettered was claimed once more than that, its direct start
counted as a claim. -/
theorem crash_loops_bounded (hm : 0 < maxRetries) (hdraws : DrawsOwners cfg)
    (h : Reaches (system cfg maxRetries) (Considered cfg) s) : Bounded cfg maxRetries s :=
  (Reaches.invariant (I := Inv cfg maxRetries) (fun _ h => inv_of_init h)
    (fun _ _ _ h hconsidered hstep => inv_step hm hdraws h hconsidered hstep) h).bounded hdraws

def oneCall : Config 1 where
  workflowID := "w"
  calls _ := { name := "f", ownerXID := "x", executorID := "e" }

def unstarted : State 1 where
  start := { store := ⟨.empty, []⟩, active := fun _ => false, phases := fun _ => .attempting }
  dispatches := []
  claims := 0

def reclaim : List (Action 1) :=
  [.call (.environment (.reenqueueForRecovery "" ["e"] "" 0)), .claim ⟨"e", "v", "", false⟩ ["w"] 0 true]

/-- The workflow is started, and again after a crash; after the next crash it is dead-lettered. -/
def crashLoop (i : Fin 1) : List (Action 1) :=
  [.call (.insert i 0), .call (.load i), .call (.commit i)] ++ reclaim ++ [.read 0, .start 0] ++ reclaim ++
    [.read 1, .deadLetter 1 0 true]

theorem drawsOwners_oneCall : DrawsOwners oneCall where
  ne_empty _ := show "x" ≠ "" by decide
  injective i j _ := Subsingleton.elim i j

theorem init_unstarted : Init oneCall unstarted :=
  ⟨⟨rfl, fun _ => rfl, fun _ h => by cases h⟩, rfl, rfl, rfl⟩

theorem crash_loops_bounded_crashLoop : ∃ s, Reaches (system oneCall 1) (Considered oneCall) s ∧
    s.starts = 2 ∧ (s.row? oneCall).map (·.status) = some .maxRecoveryAttemptsExceeded ∧
    Bounded oneCall 1 s := by
  obtain ⟨s, hs, hp⟩ := exists_reaches (S := system oneCall 1) (Considered oneCall) (s := unstarted)
    (crashLoop ⟨0, Nat.one_pos⟩)
    (fun s => decide (s.starts = 2) &&
      decide ((s.row? oneCall).map (·.status) = some .maxRecoveryAttemptsExceeded))
    init_unstarted (by decide +kernel) (by decide +kernel)
  simp only [Bool.and_eq_true, decide_eq_true_eq] at hp
  exact ⟨s, hs, hp.1, hp.2, crash_loops_bounded Nat.one_pos drawsOwners_oneCall hs⟩

end Dbos.Attempts
