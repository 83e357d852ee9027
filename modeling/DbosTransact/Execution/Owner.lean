import DbosTransact.Execution.Start

/-!
# One owner

The `owner_xid` of a row is written when the row is made, and no statement changes it. A call reaches
`executeWorkflow` only if it has read its own `owner_xid` from the row, so at most one does. The other calls
return a polling handle, or an error if the row has another name. That error is lost if its text contains
`conn closed`, as when the workflow ID does: `Retry` then runs the transaction for ever.
-/

namespace Dbos.Start

open Relational ReadCommitted Lts

variable {n : ℕ} {cfg : Config n} {s t : State n}

structure MadeBy (c : Call) (r : WorkflowRow) : Prop where
  ownerXID : r.ownerXID = some c.ownerXID
  name : r.name = c.name
  inputs : r.inputs = c.inputs
  serialization : r.serialization = some c.serialization
  createdAt : r.createdAt = c.createdAt

/-- At most one call executes the workflow, and the row is its own; every other call that has returned
has a polling handle, or an error because the row has another name. -/
structure OneOwner (cfg : Config n) (s : State n) : Prop where
  unique : ∀ i j x y, s.phases i = .executing x → s.phases j = .executing y → i = j
  owner : ∀ i x, s.phases i = .executing x → ∃ r, s.row? cfg = some r ∧ MadeBy (cfg.calls i) r
  others : ∀ i result, s.phases i = .returned result → result = .ok cfg.workflowID ∨
    ∃ r err, s.row? cfg = some r ∧ r.name ≠ (cfg.calls i).name ∧ result = .error err

/-- `uuid.New`: the owners drawn by the calls are UUIDs, and different. -/
structure DrawsOwners (cfg : Config n) : Prop where
  ne_empty : ∀ i, (cfg.calls i).ownerXID ≠ ""
  injective : Function.Injective fun i => (cfg.calls i).ownerXID

def Action.ofCall (i : Fin n) : Action n → Bool
  | .insert j _ | .load j | .commit j => j = i
  | _ => false

def Returns (cfg : Config n) (s : State n) (i : Fin n) : Prop :=
  ∃ as, (∀ a ∈ as, a.ofCall i = true) ∧
    ∃ t, exec (system cfg) s as = some t ∧ (t.phases i).isFinished = true

/-- The error of `InsertWorkflowStatus` about a row of another name. -/
def nameError (workflowID : String) (c : Call) (r : WorkflowRow) : GoError :=
  newUnexpectedWorkflowError workflowID <|
    s!"Workflow already exists with a different name: {r.name}, " ++
    s!"but the provided name is: {c.name}"

def OtherName (c : Call) (r : WorkflowRow) : Prop := c.name ≠ "" ∧ r.name ≠ c.name

instance (c : Call) (r : WorkflowRow) : Decidable (OtherName c r) :=
  inferInstanceAs (Decidable (_ ∧ _))

/-- **The condition.** The error about a row of another name is not one after which `Retry` runs the
transaction again. -/
def ErrorReturned (cfg : Config n) (s : State n) (i : Fin n) : Prop :=
  ∀ r ∈ s.row? cfg, OtherName (cfg.calls i) r →
    retried (insertError cfg.workflowID (nameError cfg.workflowID (cfg.calls i) r)) = false

/-! ### The other operations -/

structure SameStart (r r' : WorkflowRow) : Prop where
  ownerXID : r'.ownerXID = r.ownerXID
  name : r'.name = r.name
  createdAt : r'.createdAt = r.createdAt
  isDebounced : r'.isDebounced = r.isDebounced
  inputs : r.isDebounced = false → r'.inputs = r.inputs ∧ r'.serialization = r.serialization

theorem SameStart.refl (r : WorkflowRow) : SameStart r r := ⟨rfl, rfl, rfl, rfl, fun _ => ⟨rfl, rfl⟩⟩

/-- A row stands for one that was there, or is new and has the given owner. -/
def StartsKept (u u' : StatusTable) (owner : Option String) : Prop :=
  ∀ r' ∈ u'.rows, (∃ r ∈ u.rows, r.workflowID = r'.workflowID ∧ SameStart r r') ∨
    u.find? r'.workflowID = none ∧ r'.ownerXID = owner

theorem StartsKept.upsert (u : StatusTable) (row : WorkflowRow) :
    StartsKept u (u.upsert (·.reinsert row) (WorkflowRow.workflowID_reinsert row) row)
      row.ownerXID := by
  intro r' hr'
  have hfind' := Table.find?_of_mem hr'
  rw [Table.find?_upsert] at hfind'
  cases hfind : u.find? r'.workflowID with
  | none =>
    rw [hfind] at hfind'
    split_ifs at hfind'
    exact .inr ⟨rfl, congrArg _ (Option.some.inj hfind').symm⟩
  | some r =>
    rw [hfind] at hfind'
    refine .inl ⟨r, Table.mem_of_find? hfind, Table.key_of_find? hfind, ?_⟩
    split_ifs at hfind'
    · rw [← Option.some.inj hfind']
      exact ⟨rfl, rfl, rfl, rfl, fun _ => ⟨rfl, rfl⟩⟩
    · rw [Option.some.inj hfind']
      exact .refl r'

theorem sameStart_onRow (op : Lifecycle.Operation) (r : WorkflowRow) : SameStart r (op.onRow r) := by
  cases op with
  | forkWorkflows | deleteWorkflows | garbageCollectWorkflows => exact .refl r
  | debounceDelayedWorkflow appName i now =>
    simp only [Lifecycle.Operation.onRow]
    split_ifs with hr
    · -- only a debounced row is given other inputs
      refine ⟨rfl, rfl, rfl, rfl, fun hd => ?_⟩
      simp [StatusTable.debounceable, hd] at hr
    · exact .refl r
  | _ =>
    simp only [Lifecycle.Operation.onRow]
    split_ifs <;> exact ⟨rfl, rfl, rfl, rfl, fun _ => ⟨rfl, rfl⟩⟩

theorem ownerXID_of_makes {op : Lifecycle.Operation} {r : WorkflowRow} (h : op.Makes r) :
    r.ownerXID = writtenOwner op := by
  cases op with
  | insertWorkflowStatus appName i =>
    obtain ⟨-, rfl⟩ := h
    rfl
  | forkWorkflows appName i now =>
    obtain ⟨original, forkedID, rfl⟩ := h
    rfl
  | _ => exact h.elim

theorem startsKept_step {u u' : StatusTable} {op : Lifecycle.Operation}
    (h : Lifecycle.step u op = some u') : StartsKept u u' (writtenOwner op) := by
  intro r' hr'
  rcases Lifecycle.find?_step h (Table.find?_of_mem hr') with ⟨r, hr, hr''⟩ | ⟨hnone, hmakes⟩
  · refine .inl ⟨r, Table.mem_of_find? hr, Table.key_of_find? hr, ?_⟩
    rw [hr'']
    exact sameStart_onRow op r
  · exact .inr ⟨hnone, ownerXID_of_makes hmakes⟩

/-! ### The invariant -/

/-- The row of the workflow is not taken for that of a call that did not make it, and is not debounced
if a call has made it. -/
def RowOk (cfg : Config n) (row : Option WorkflowRow) : Prop :=
  ∀ r ∈ row, ∀ i, r.ownerXID = some (cfg.calls i).ownerXID →
    MadeBy (cfg.calls i) r ∧ r.isDebounced = false

def Phase.Wrote (cfg : Config n) (s : State n) (i : Fin n) (result : InsertWorkflowResult) : Prop :=
  ∃ now, s.store.own (some i) = [(cfg.calls i).row cfg.workflowID now] ∧
    result = .ofRow (offered ((cfg.calls i).row cfg.workflowID now) (s.row? cfg))

def Opened (cfg : Config n) (s : State n) (i : Fin n) : Phase → Prop
  | .inserted result => Phase.Wrote cfg s i result
  | .decided skip result => Phase.Wrote cfg s i result ∧
      (skip = false → result.ownerXID = (cfg.calls i).ownerXID)
  | _ => s.store.own (some i) = []

def Ended (cfg : Config n) (row : Option WorkflowRow) (i : Fin n) : Phase → Prop
  | .executing _ => ∃ r ∈ row, r.ownerXID = some (cfg.calls i).ownerXID
  | .returned (.ok id) => id = cfg.workflowID
  | .returned (.error _) => ∃ r ∈ row, r.name ≠ (cfg.calls i).name
  | _ => True

structure Inv (cfg : Config n) (s : State n) : Prop where
  row : RowOk cfg (s.row? cfg)
  opened : ∀ i, Opened cfg s i (s.phases i)
  ended : ∀ i, Ended cfg (s.row? cfg) i (s.phases i)
  alone : ∀ i j, s.store.own (some i) ≠ [] → s.store.own (some j) ≠ [] → i = j

structure RowStep (cfg : Config n) (row row' : Option WorkflowRow) : Prop where
  kept : ∀ r ∈ row, ∃ r' ∈ row', SameStart r r'
  new : row = none → RowOk cfg row'

theorem RowStep.refl (row : Option WorkflowRow) (h : RowOk cfg row) : RowStep cfg row row :=
  ⟨fun r hr => ⟨r, hr, .refl r⟩, fun _ => h⟩

theorem RowStep.rowOk {row row' : Option WorkflowRow} (h : RowStep cfg row row')
    (hok : RowOk cfg row) : RowOk cfg row' := by
  cases row with
  | none => exact h.new rfl
  | some r =>
    intro r' hr' i howner
    obtain ⟨r₁, hr₁, hsame⟩ := h.kept r rfl
    obtain rfl : r₁ = r' := Option.some.inj (hr₁.symm.trans hr')
    obtain ⟨hmade, hdebounced⟩ := hok r rfl i (hsame.ownerXID ▸ howner)
    obtain ⟨hinputs, hserialization⟩ := hsame.inputs hdebounced
    exact ⟨⟨howner, hsame.name.trans hmade.name, hinputs.trans hmade.inputs,
      hserialization.trans hmade.serialization, hsame.createdAt.trans hmade.createdAt⟩,
      hsame.isDebounced.trans hdebounced⟩

theorem RowStep.ended {row row' : Option WorkflowRow} (h : RowStep cfg row row') {i : Fin n}
    {p : Phase} (hp : Ended cfg row i p) : Ended cfg row' i p := by
  cases p with
  | executing x =>
    obtain ⟨r, hr, howner⟩ := hp
    obtain ⟨r', hr', hsame⟩ := h.kept r hr
    exact ⟨r', hr', hsame.ownerXID.trans howner⟩
  | returned result =>
    cases result with
    | ok id => exact hp
    | error err =>
      obtain ⟨r, hr, hname⟩ := hp
      obtain ⟨r', hr', hsame⟩ := h.kept r hr
      exact ⟨r', hr', hsame.name ▸ hname⟩
  | attempting | inserted | decided | crashed => trivial

theorem StartsKept.rowStep {u u' : StatusTable} {owner : Option String} (h : StartsKept u u' owner)
    (hkept : (u.find? cfg.workflowID).isSome = true → (u'.find? cfg.workflowID).isSome = true)
    (hnew : u.find? cfg.workflowID = none → ∀ i, owner = some (cfg.calls i).ownerXID →
      ∀ r ∈ u'.find? cfg.workflowID, MadeBy (cfg.calls i) r ∧ r.isDebounced = false) :
    RowStep cfg (u.find? cfg.workflowID) (u'.find? cfg.workflowID) where
  kept r hr := by
    obtain ⟨r', hr'⟩ := Option.isSome_iff_exists.1 (hkept (Option.isSome_of_eq_some hr))
    refine ⟨r', hr', ?_⟩
    have hid : r'.workflowID = cfg.workflowID := Table.key_of_find? hr'
    rcases h r' (Table.mem_of_find? hr') with ⟨r₁, hr₁, hkey, hsame⟩ | ⟨hnone, -⟩
    · have := Table.find?_of_mem hr₁
      rw [hkey, hid, hr] at this
      rwa [Option.some.inj this]
    · rw [hid, hr] at hnone
      cases hnone
  new hnone r' hr' i howner := by
    have hid : r'.workflowID = cfg.workflowID := Table.key_of_find? hr'
    rcases h r' (Table.mem_of_find? hr') with ⟨r₁, hr₁, hkey, -⟩ | ⟨-, howner'⟩
    · exact (Table.find?_eq_none.1 hnone r₁ hr₁ (hkey.trans hid)).elim
    · exact hnew hnone i (howner'.symm.trans howner) r' hr'

/-! ### The steps of a call -/

theorem Inv.own_eq_nil (h : Inv cfg s) {u : Option (Fin n)} {i : Fin n} (hi : some i ≠ u)
    (hfree : s.store.Free startSchema u [cfg.workflowID]) : s.store.own (some i) = [] := by
  have hwrote : ∀ result, Phase.Wrote cfg s i result → False := by
    rintro result ⟨now, hown, -⟩
    refine hfree.not_mem_rows hi (w := (cfg.calls i).row cfg.workflowID now) ?_ List.mem_cons_self
      List.mem_cons_self
    rw [hown]
    exact List.mem_cons_self
  have hopened := h.opened i
  cases hphase : s.phases i <;> rw [hphase] at hopened
  case inserted result => exact (hwrote result hopened).elim
  case decided skip result => exact (hwrote result hopened.1).elim
  all_goals exact hopened

theorem Opened.of_own_eq_nil {i : Fin n} {p : Phase} (h : Opened cfg s i p)
    (hown : s.store.own (some i) = []) (ht : t.store.own (some i) = []) : Opened cfg t i p := by
  have hwrote : ∀ result, ¬ Phase.Wrote cfg s i result := by
    rintro result ⟨now, hwrote, -⟩
    rw [hown] at hwrote
    cases hwrote
  cases p with
  | inserted result => exact (hwrote result h).elim
  | decided skip result => exact (hwrote result h.1).elim
  | attempting | executing | returned | crashed => exact ht

theorem Opened.congr {i : Fin n} {p : Phase} (h : Opened cfg s i p)
    (hown : t.store.own (some i) = s.store.own (some i)) (hrow : t.row? cfg = s.row? cfg) :
    Opened cfg t i p := by
  cases p with
  | inserted result => simpa only [Opened, Phase.Wrote, hown, hrow] using h
  | decided skip result => simpa only [Opened, Phase.Wrote, hown, hrow] using h
  | attempting | executing | returned | crashed => exact hown.trans h

theorem Inv.local (h : Inv cfg s) {i : Fin n} {p : Phase}
    (hphases : t.phases = Function.update s.phases i p) (hrow : t.row? cfg = s.row? cfg)
    (hothers : ∀ j, i ≠ j → t.store.own (some j) = s.store.own (some j))
    (hopened : Opened cfg t i p) (hended : Ended cfg (s.row? cfg) i p)
    (halone : t.store.own (some i) ≠ [] → ∀ j, i ≠ j → s.store.own (some j) = []) :
    Inv cfg t := by
  constructor
  case row => rw [hrow]; exact h.row
  case opened =>
    rw [hphases]
    exact (Function.forall_update_iff s.phases (Opened cfg t)).2
      ⟨hopened, fun j hj => (h.opened j).congr (hothers j hj.symm) hrow⟩
  case ended =>
    rw [hphases, hrow]
    exact (Function.forall_update_iff s.phases (Ended cfg (s.row? cfg))).2
      ⟨hended, fun j _ => h.ended j⟩
  case alone =>
    intro j k hj hk
    by_contra hjk
    by_cases hij : i = j
    · subst hij
      rw [hothers k hjk] at hk
      exact hk (halone hj k hjk)
    · by_cases hik : i = k
      · subst hik
        rw [hothers j hij] at hj
        exact hj (halone hk j hij)
      · rw [hothers j hij] at hj
        rw [hothers k hik] at hk
        exact hjk (h.alone j k hj hk)

theorem committed_commit {i : Fin n} {row : WorkflowRow} (hown : s.store.own (some i) = [row]) (p : Phase) :
    (s.commit i p).store.committed =
      s.store.committed.upsert (·.reinsert row) (WorkflowRow.workflowID_reinsert row) row := by
  show Store.view startSchema s.store (some i) = _
  rw [Store.view, hown]
  rfl

theorem row?_commit {i : Fin n} {now : Int}
    (hown : s.store.own (some i) = [(cfg.calls i).row cfg.workflowID now]) (p : Phase) :
    (s.commit i p).row? cfg = some (offered ((cfg.calls i).row cfg.workflowID now) (s.row? cfg)) := by
  have hkey : ((cfg.calls i).row cfg.workflowID now).workflowID = cfg.workflowID := rfl
  unfold State.row?
  rw [committed_commit hown, Table.find?_upsert, if_pos hkey]
  rfl

theorem Inv.commit (h : Inv cfg s) {i : Fin n} {result : InsertWorkflowResult} {p : Phase}
    (hinj : Function.Injective fun i => (cfg.calls i).ownerXID)
    (hwrote : Phase.Wrote cfg s i result) (hopened : ∀ s', s'.store.own (some i) = [] → Opened cfg s' i p)
    (hended : ∀ row r, row = some r → result = .ofRow r → Ended cfg row i p) :
    Inv cfg (s.commit i p) := by
  obtain ⟨now, hown, hresult⟩ := hwrote
  set row := (cfg.calls i).row cfg.workflowID now with hrowdef
  have hview := committed_commit hown p
  have hrow : (s.commit i p).row? cfg = some (offered row (s.row? cfg)) := row?_commit hown p
  have hstep : RowStep cfg (s.row? cfg) ((s.commit i p).row? cfg) := by
    have hkept : StartsKept s.store.committed (s.commit i p).store.committed row.ownerXID := by
      rw [hview]
      exact .upsert _ row
    refine hkept.rowStep (fun _ => Option.isSome_of_eq_some hrow) fun hnone j hj r hr => ?_
    obtain rfl : i = j := hinj (Option.some.inj hj)
    obtain rfl : row = r := by
      have := hrow.symm.trans hr
      rw [State.row?, hnone] at this
      exact Option.some.inj this
    exact ⟨⟨rfl, rfl, rfl, rfl, rfl⟩, rfl⟩
  have hother : ∀ j, i ≠ j → (s.commit i p).store.own (some j) = s.store.own (some j) := fun j hj =>
    Store.own_commit_of_ne _ _ (by simpa using hj)
  have hself : (s.commit i p).store.own (some i) = [] := Store.own_commit_self _ _ _
  have hempty : ∀ j, i ≠ j → s.store.own (some j) = [] := by
    intro j hj
    by_contra hne
    exact hj (h.alone i j (by simp [hown]) hne)
  constructor
  case row => exact hstep.rowOk h.row
  case opened =>
    refine (Function.forall_update_iff s.phases (Opened cfg (s.commit i p))).2
      ⟨hopened _ hself, fun j hj => ?_⟩
    have hnil := hempty j hj.symm
    exact (h.opened j).of_own_eq_nil hnil ((hother j hj.symm).trans hnil)
  case ended =>
    exact (Function.forall_update_iff s.phases (Ended cfg ((s.commit i p).row? cfg))).2
      ⟨hended _ _ hrow hresult, fun j _ => hstep.ended (h.ended j)⟩
  case alone =>
    intro j k hj
    by_cases hij : i = j
    · exact (hj (hij ▸ hself)).elim
    · exact (hj ((hother j hij).trans (hempty j hij))).elim

theorem insertWorkflowStatus_row (u : StatusTable) (workflowID : String) (now : Int) (c : Call) :
    u.toDb.insertWorkflowStatus (c.row workflowID now) =
      match u.find? workflowID with
      | none => .ok ()
      | some r => if OtherName c r then .error (nameError workflowID c r) else .ok () := by
  unfold Db.insertWorkflowStatus
  show (match u.find? workflowID with | none => _ | some existing => _) = _
  cases u.find? workflowID with
  | none => rfl
  | some r => rfl

theorem Inv.insert (h : Inv cfg s) {i : Fin n} {now : Int}
    (hstep : step cfg s (.insert i now) = some t) : Inv cfg t := by
  simp only [step] at hstep
  split at hstep
  next hphase =>
    have hopened := h.opened i
    rw [hphase] at hopened
    split_ifs at hstep with hfree
    rw [insertWorkflowStatus_row] at hstep
    split at hstep
    next err herr =>
      split_ifs at hstep
      · cases hstep
        exact h
      · cases hstep
        refine h.local rfl rfl (fun _ _ => rfl) hopened ?_ (fun hne => (hne hopened).elim)
        split at herr
        · cases herr
        · next r hr =>
          split_ifs at herr with hname
          exact ⟨r, hr, hname.2⟩
    next =>
      cases hstep
      refine h.local rfl rfl (fun j hj => Store.own_write_of_ne _ _ (by simpa using hj))
        ⟨now, ?_, rfl⟩ trivial fun _ j hj => h.own_eq_nil (by simpa using Ne.symm hj) hfree
      exact (Store.own_write_self _ _ _).trans (by rw [show s.store.own (some i) = [] from hopened]; rfl)
  next => cases hstep

theorem ownerXID_of_not_shouldSkip {result : InsertWorkflowResult} {ownerXID : String} {loaded : Bool}
    (h : shouldSkip "" result ownerXID loaded = false) : result.ownerXID = ownerXID := by
  simp only [shouldSkip, Bool.or_eq_false_iff, decide_eq_false_iff_not, ne_eq, not_not] at h
  exact h.1.2

theorem Inv.load (h : Inv cfg s) {i : Fin n} (hstep : step cfg s (.load i) = some t) :
    Inv cfg t := by
  simp only [step] at hstep
  split at hstep
  next result hphase =>
    cases hstep
    have hopened := h.opened i
    rw [hphase] at hopened
    refine h.local rfl rfl (fun _ _ => rfl) ⟨hopened, ownerXID_of_not_shouldSkip⟩ trivial ?_
    intro hne j hj
    by_contra hj'
    exact hj (h.alone i j hne hj')
  next => cases hstep

theorem Inv.rollback (h : Inv cfg s) {i : Fin n} {p : Phase} (hp : p = .attempting ∨ p = .crashed) :
    Inv cfg (s.rollback i p) := by
  have hself : (s.rollback i p).store.own (some i) = [] := Store.own_rollback_self _ _
  refine h.local rfl rfl (fun j hj => Store.own_rollback_of_ne _ (by simpa using hj)) ?_ ?_
    fun hne => (hne hself).elim
  · rcases hp with rfl | rfl <;> exact hself
  · rcases hp with rfl | rfl <;> trivial

theorem ownerXID_of_ofRow {r : WorkflowRow} {ownerXID : String}
    (h : (InsertWorkflowResult.ofRow r).ownerXID = ownerXID) (hne : ownerXID ≠ "") :
    r.ownerXID = some ownerXID := by
  cases hr : r.ownerXID with
  | none =>
    simp only [InsertWorkflowResult.ofRow, hr, Option.getD_none] at h
    exact (hne h.symm).elim
  | some x =>
    simp only [InsertWorkflowResult.ofRow, hr, Option.getD_some] at h
    rw [h]

theorem Inv.environment (h : Inv cfg s) {op : Lifecycle.Operation}
    (hundeleted : Undeleted cfg s (.environment op))
    (hstep : step cfg s (.environment op) = some t) : Inv cfg t := by
  simp only [step] at hstep
  split at hstep
  next u hu =>
    split_ifs at hstep with hfree
    cases hstep
    obtain ⟨hkept, hfresh⟩ := hundeleted
    have hrow : RowStep cfg (s.row? cfg) (u.find? cfg.workflowID) :=
      (startsKept_step hu).rowStep (hkept u hu) fun _ i howner => (hfresh i howner).elim
    refine ⟨hrow.rowOk h.row, fun i => ?_, fun i => hrow.ended (h.ended i), h.alone⟩
    rcases hfree with hfree | hsame
    · -- nobody has written
      have hown : s.store.own (some i) = [] := h.own_eq_nil (by simp) hfree
      exact (h.opened i).of_own_eq_nil hown hown
    · exact (h.opened i).congr rfl hsame
  next => cases hstep

theorem inv_step (hdraws : DrawsOwners cfg) {a : Action n} (h : Inv cfg s)
    (hundeleted : Undeleted cfg s a) (hstep : step cfg s a = some t) : Inv cfg t := by
  cases a with
  | insert i now => exact h.insert hstep
  | load i => exact h.load hstep
  | commit i =>
    simp only [step] at hstep
    split at hstep
    next skip result hphase =>
      have hopened := h.opened i
      rw [hphase] at hopened
      obtain ⟨hwrote, howner⟩ := hopened
      split_ifs at hstep with hskip
      · cases hstep
        exact h.commit hdraws.injective hwrote (fun _ hown => hown) fun _ _ _ _ => rfl
      · cases hstep
        refine h.commit hdraws.injective hwrote (fun _ hown => hown) ?_
        rintro row r rfl rfl
        exact ⟨r, rfl, ownerXID_of_ofRow (howner (by simpa using hskip)) (hdraws.ne_empty i)⟩
    next => cases hstep
  | commitUnacknowledged i =>
    simp only [step] at hstep
    split at hstep
    next skip result hphase =>
      cases hstep
      have hopened := h.opened i
      rw [hphase] at hopened
      exact h.commit hdraws.injective hopened.1 (fun _ hown => hown) fun _ _ _ _ => trivial
    next => cases hstep
  | abort i =>
    simp only [step] at hstep
    split at hstep
    case h_4 => cases hstep
    all_goals
      cases hstep
      exact h.rollback (.inl rfl)
  | crash i =>
    simp only [step] at hstep
    split at hstep
    case h_4 => cases hstep
    all_goals
      cases hstep
      exact h.rollback (.inr rfl)
  | environment op => exact h.environment hundeleted hstep
  | setActive executorID active =>
    cases hstep
    exact ⟨h.row, fun i => (h.opened i).congr rfl rfl, h.ended, h.alone⟩

theorem inv_of_init (h : Init cfg s) : Inv cfg s := by
  obtain ⟨hpending, hphases, hrow⟩ := h
  have hown : ∀ i, s.store.own (some i) = [] := by simp [Store.own, hpending]
  refine ⟨fun r hr i howner => (hrow r hr i howner).elim, fun i => ?_, fun i => ?_, fun i j hi => ?_⟩
  · rw [hphases i]
    exact hown i
  · rw [hphases i]
    trivial
  · exact (hi (hown i)).elim

theorem Inv.oneOwner (hdraws : DrawsOwners cfg) (h : Inv cfg s) : OneOwner cfg s := by
  have howner : ∀ i x, s.phases i = .executing x →
      ∃ r, s.row? cfg = some r ∧ r.ownerXID = some (cfg.calls i).ownerXID := by
    intro i x hphase
    have hended := h.ended i
    rwa [hphase] at hended
  refine ⟨fun i j x y hi hj => ?_, fun i x hi => ?_, fun i result hi => ?_⟩
  · obtain ⟨r, hr, hri⟩ := howner i x hi
    obtain ⟨r', hr', hrj⟩ := howner j y hj
    obtain rfl : r = r' := Option.some.inj (hr.symm.trans hr')
    exact hdraws.injective (Option.some.inj (hri.symm.trans hrj))
  · obtain ⟨r, hr, hri⟩ := howner i x hi
    exact ⟨r, hr, (h.row r hr i hri).1⟩
  · have hended := h.ended i
    rw [hi] at hended
    cases result with
    | ok id => exact .inl (congrArg _ hended)
    | error err =>
      obtain ⟨r, hr, hname⟩ := hended
      exact .inr ⟨r, err, hr, hname, rfl⟩

/-! ### A call that is left alone -/

/-- An error after which `Retry` goes on leaves everything as it was. -/
theorem exec_of_retried {i : Fin n} (hphase : s.phases i = .attempting) {r : WorkflowRow}
    (hr : s.row? cfg = some r) (hname : OtherName (cfg.calls i) r)
    (hretried : retried (insertError cfg.workflowID (nameError cfg.workflowID (cfg.calls i) r)) = true)
    {as : List (Action n)} (has : ∀ a ∈ as, a.ofCall i = true)
    (hexec : exec (system cfg) s as = some t) : t = s := by
  induction as with
  | nil => exact (Option.some.inj hexec).symm
  | cons a as ih =>
    obtain ⟨u, hstep, hrest⟩ := Option.bind_eq_some_iff.1 hexec
    have ha := has a List.mem_cons_self
    have hu : u = s := by
      cases a <;> simp only [Action.ofCall, decide_eq_true_eq, Bool.false_eq_true] at ha
      case insert j now =>
        subst ha
        simp only [system, step, hphase, insertWorkflowStatus_row,
          show s.store.committed.find? cfg.workflowID = some r from hr, if_pos hname,
          if_pos hretried] at hstep
        split_ifs at hstep
        exact (Option.some.inj hstep).symm
      case load j =>
        subst ha
        simp [system, step, hphase] at hstep
      case commit j =>
        subst ha
        simp [system, step, hphase] at hstep
    subst hu
    exact ih (fun a ha => has a (List.mem_cons_of_mem _ ha)) hrest

theorem not_returns_of_retried {i : Fin n} (hphase : s.phases i = .attempting) {r : WorkflowRow}
    (hr : s.row? cfg = some r) (hname : OtherName (cfg.calls i) r)
    (hretried : retried (insertError cfg.workflowID (nameError cfg.workflowID (cfg.calls i) r)) = true) :
    ¬ Returns cfg s i := by
  rintro ⟨as, has, t, hexec, hfinished⟩
  rw [exec_of_retried hphase hr hname hretried has hexec, hphase] at hfinished
  cases hfinished

theorem Returns.of_finished {i : Fin n} (h : (s.phases i).isFinished = true) : Returns cfg s i :=
  ⟨[], by simp, s, rfl, h⟩

theorem Returns.step {i : Fin n} {a : Action n} (ha : a.ofCall i = true)
    (hstep : (system cfg).step s a = some t) (h : Returns cfg t i) : Returns cfg s i := by
  obtain ⟨as, has, u, hexec, hfinished⟩ := h
  refine ⟨a :: as, ?_, u, by simp [exec, hstep, hexec], hfinished⟩
  intro b hb
  rcases List.mem_cons.1 hb with rfl | hb
  · exact ha
  · exact has b hb

theorem returns_of_decided {i : Fin n} {skip : Bool} {result : InsertWorkflowResult}
    (hphase : s.phases i = .decided skip result) : Returns cfg s i := by
  have hcommit : ∃ t, (system cfg).step s (.commit i) = some t ∧ (t.phases i).isFinished = true := by
    cases skip <;> simp [system, Start.step, hphase, State.goto, State.commit, Phase.isFinished]
  obtain ⟨t, hstep, hfinished⟩ := hcommit
  exact .step (by simp [Action.ofCall]) hstep (.of_finished hfinished)

theorem returns_of_inserted {i : Fin n} {result : InsertWorkflowResult}
    (hphase : s.phases i = .inserted result) : Returns cfg s i := by
  have hload : ∃ skip, (system cfg).step s (.load i) = some (s.goto i (.decided skip result)) := by
    simp only [system, Start.step, hphase]
    exact ⟨_, rfl⟩
  obtain ⟨skip, hstep⟩ := hload
  exact .step (by simp [Action.ofCall]) hstep (returns_of_decided (Function.update_self _ _ _))

theorem returns_of_ok {i : Fin n} (hphase : s.phases i = .attempting)
    (hfree : s.store.Free startSchema (some i) [cfg.workflowID])
    (hok : s.store.committed.toDb.insertWorkflowStatus ((cfg.calls i).row cfg.workflowID 0) = .ok ()) :
    Returns cfg s i := by
  have hinsert : ∃ row result,
      (system cfg).step s (.insert i 0) = some (s.write i row (.inserted result)) := by
    simp only [system, Start.step, hphase, if_pos hfree, hok]
    exact ⟨_, _, rfl⟩
  obtain ⟨row, result, hstep⟩ := hinsert
  exact .step (by simp [Action.ofCall]) hstep (returns_of_inserted (Function.update_self _ _ _))

theorem returns_of_ne {i : Fin n} (hattempting : s.phases i ≠ .attempting)
    (hcrashed : s.phases i ≠ .crashed) : Returns cfg s i := by
  cases hphase : s.phases i with
  | attempting => exact (hattempting hphase).elim
  | inserted result => exact returns_of_inserted hphase
  | decided skip result => exact returns_of_decided hphase
  | executing x => exact .of_finished (by rw [hphase]; rfl)
  | returned result => exact .of_finished (by rw [hphase]; rfl)
  | crashed => exact (hcrashed hphase).elim

/-- A call that can lock the row comes to its end precisely if the condition holds. -/
theorem returns_iff {i : Fin n} (hphase : s.phases i = .attempting)
    (hfree : s.store.Free startSchema (some i) [cfg.workflowID]) :
    Returns cfg s i ↔ ErrorReturned cfg s i := by
  have hrow := insertWorkflowStatus_row s.store.committed cfg.workflowID 0 (cfg.calls i)
  cases hr : s.row? cfg with
  | none =>
    rw [show s.store.committed.find? cfg.workflowID = none from hr] at hrow
    refine ⟨fun _ r hmem => (Option.some_ne_none r (hmem.symm.trans hr)).elim, fun _ => ?_⟩
    exact returns_of_ok hphase hfree hrow
  | some r =>
    rw [show s.store.committed.find? cfg.workflowID = some r from hr] at hrow
    dsimp only at hrow
    split_ifs at hrow with hname
    · constructor
      · intro hreturns r' hr' _
        obtain rfl : r = r' := Option.some.inj (hr.symm.trans hr')
        by_contra hretried
        exact not_returns_of_retried hphase hr hname (by simpa using hretried) hreturns
      · intro hcondition
        have hretried := hcondition r hr hname
        refine ⟨[.insert i 0], by simp [Action.ofCall], s.goto i (.returned (.error
          (insertError cfg.workflowID (nameError cfg.workflowID (cfg.calls i) r)))), ?_, ?_⟩
        · simp [exec, system, step, hphase, hfree, hrow, hretried]
        · simp [State.goto, Phase.isFinished]
    · refine ⟨fun _ r' hr' hother => ?_, fun _ => returns_of_ok hphase hfree hrow⟩
      obtain rfl : r = r' := Option.some.inj (hr.symm.trans hr')
      exact (hname hother).elim

/-- **One owner.** In every state that the calls reach, among any other operations that do not delete
the row, at most one of them executes the workflow, the row is the one it has made, and the others that
have returned have a polling handle, or an error because of another name. A call that is left alone
comes to its end; one that can lock the row but has yet to insert does so precisely if the condition
holds. -/
theorem one_owner (hdraws : DrawsOwners cfg) (h : Reaches (system cfg) (Undeleted cfg) s) :
    OneOwner cfg s ∧
    (∀ i, s.phases i ≠ .attempting → s.phases i ≠ .crashed → Returns cfg s i) ∧
    ∀ i, s.phases i = .attempting → s.store.Free startSchema (some i) [cfg.workflowID] →
      (Returns cfg s i ↔ ErrorReturned cfg s i) := by
  have hinv : Inv cfg s := Reaches.invariant (I := Inv cfg) (fun _ h => inv_of_init h)
    (fun _ _ _ h hc hstep => inv_step hdraws h hc hstep) h
  exact ⟨hinv.oneOwner hdraws, fun _ => returns_of_ne, fun _ => returns_iff⟩

/-! ### A workflow ID that reads like a broken connection -/

section ConnClosed

theorem toList_errorText_insertError (workflowID : String) (err : GoError) :
    (insertError workflowID err).errorText.toList =
      "DBOS Error WorkflowExecution: Workflow ".toList ++ (workflowID.toList ++
        (" execution error: failed to insert workflow status: ".toList ++ err.errorText.toList)) := by
  simp [insertError, newWorkflowExecutionError, GoError.errorText, DbosError.withCause, GoError.wrapf,
    ErrorTree.text, ErrorNode.render, ErrorCode.string, toString]

theorem toList_errorText_nameError (workflowID : String) (c : Call) (r : WorkflowRow) :
    (nameError workflowID c r).errorText.toList =
      "DBOS Error UnexpectedWorkflow: Workflow ID ".toList ++ (workflowID.toList ++
        (" was previously used by a different workflow. ".toList ++
          ("Check that your workflow is deterministic. ".toList ++
            ("Workflow already exists with a different name: ".toList ++ (r.name.toList ++
              (", but the provided name is: ".toList ++ c.name.toList)))))) := by
  simp [nameError, newUnexpectedWorkflowError, GoError.errorText, ErrorTree.text, ErrorNode.render,
    ErrorCode.string, toString]

/-- No driver raised the error, so that its text alone decides whether the transaction runs again. -/
theorem retried_nameError (workflowID : String) (c : Call) (r : WorkflowRow) :
    retried (insertError workflowID (nameError workflowID c r)) =
      Dialect.saysConnClosed (insertError workflowID (nameError workflowID c r)) := by
  have hpg : Dialect.isRetryable .postgres (insertError workflowID (nameError workflowID c r)) =
      (Dialect.saysConnClosed (insertError workflowID (nameError workflowID c r)) || false) := rfl
  have hsqlite : Dialect.isRetryable .sqlite (insertError workflowID (nameError workflowID c r)) = false :=
    rfl
  rw [retried, hpg, hsqlite, Bool.or_false, Bool.or_false]

/-- The error contains the workflow ID, and with it whatever the ID contains. -/
theorem retried_of_connClosed {workflowID : String} (c : Call) (r : WorkflowRow)
    (hid : "conn closed".toList <:+: workflowID.toList) :
    retried (insertError workflowID (nameError workflowID c r)) = true := by
  rw [retried_nameError]
  refine decide_eq_true (hid.trans ?_)
  rw [toList_errorText_insertError]
  exact ⟨_, _, List.append_assoc _ _ _⟩

/-- Two calls with the same workflow ID, of workflows with different names. -/
def twoNames (workflowID : String) : Config 2 where
  workflowID := workflowID
  calls i :=
    if i.val = 0 then { name := "first", ownerXID := "x" } else { name := "second", ownerXID := "y" }

def unstarted : State 2 where
  store := ⟨.empty, []⟩
  active _ := false
  phases _ := .attempting

theorem init_unstarted (workflowID : String) : Init (twoNames workflowID) unstarted :=
  ⟨rfl, fun _ => rfl, fun _ h => by cases h⟩

theorem drawsOwners_twoNames (workflowID : String) : DrawsOwners (twoNames workflowID) where
  ne_empty i := by
    simp only [twoNames]
    split_ifs <;> decide
  injective i j h := by
    simp only [twoNames] at h
    split_ifs at h with hi hj hj
    · exact Fin.ext (hi.trans hj.symm)
    · simp at h
    · simp at h
    · omega

def attempt {n : ℕ} (i : Fin n) : List (Action n) := [.insert i 0, .load i, .commit i]

/-- Nobody is in a transaction, and a call finds the row of the first workflow. -/
def firstStored (workflowID : String) (i : Fin 2) (s : State 2) : Bool :=
  s.store.pending.isEmpty && (s.phases i).isAttempting &&
    (s.row? (twoNames workflowID)).any fun r => r.name = "first"

theorem firstStored_spec {workflowID : String} {i : Fin 2} {s : State 2}
    (h : firstStored workflowID i s = true) : s.phases i = .attempting ∧
      s.store.Free startSchema (some i) [workflowID] ∧
        ∃ r, s.row? (twoNames workflowID) = some r ∧ r.name = "first" := by
  simp only [firstStored, Bool.and_eq_true, List.isEmpty_iff, Option.any_eq_true,
    decide_eq_true_eq] at h
  obtain ⟨⟨hpending, hphase⟩, r, hr, hname⟩ := h
  refine ⟨?_, fun p hp => ?_, r, hr, hname⟩
  · cases hi : s.phases i <;> simp [hi, Phase.isAttempting] at hphase ⊢
  · rw [hpending] at hp
    cases hp

/-- The second call runs its transaction for ever. -/
theorem second_call_never_returns :
    ∃ s : State 2, Reaches (system (twoNames "conn closed")) (Undeleted (twoNames "conn closed")) s ∧
      s.phases 1 = .attempting ∧ s.store.Free startSchema (some 1) ["conn closed"] ∧
      ¬ Returns (twoNames "conn closed") s 1 := by
  obtain ⟨s, hs, hp⟩ := exists_reaches (S := system (twoNames "conn closed"))
    (Undeleted (twoNames "conn closed")) (s := unstarted) (attempt 0)
    (firstStored "conn closed" 1) (init_unstarted _) (by decide +kernel) (by decide +kernel)
  obtain ⟨hphase, hfree, r, hr, hname⟩ := firstStored_spec hp
  refine ⟨s, hs, hphase, hfree, not_returns_of_retried hphase hr ?_ ?_⟩
  · rw [OtherName, hname]
    decide
  · exact retried_of_connClosed _ r List.infix_rfl

theorem one_owner_twoNames :
    ∃ s : State 2, OneOwner (twoNames "w") s ∧ s.phases 1 = .attempting ∧ Returns (twoNames "w") s 1 := by
  obtain ⟨s, hs, hp⟩ := exists_reaches (S := system (twoNames "w")) (Undeleted (twoNames "w"))
    (s := unstarted) (attempt 0) (firstStored "w" 1) (init_unstarted _) (by decide +kernel)
    (by decide +kernel)
  obtain ⟨hphase, hfree, r, hr, hname⟩ := firstStored_spec hp
  obtain ⟨howner, -, hreturns⟩ := one_owner (drawsOwners_twoNames "w") hs
  refine ⟨s, howner, hphase, (hreturns 1 hphase hfree).2 fun r' hr' _ => ?_⟩
  obtain rfl : r = r' := Option.some.inj (hr.symm.trans hr')
  rw [retried_nameError]
  refine decide_eq_false ?_
  rw [toList_errorText_insertError, toList_errorText_nameError, hname]
  decide +kernel

end ConnClosed

end Dbos.Start
