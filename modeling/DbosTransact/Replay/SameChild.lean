import DbosTransact.Replay.Child

/-!
# A child start that is replayed

A handle is returned only with the checkpoint committed, so that a replay finds it; a refusal leaves none,
so that a replay inserts again. The result is the same as long as the insertion meets the slot as the first
execution did.
-/

namespace Dbos.Child

open Relational ReadCommitted Lts

variable {cfg : Config} {s t : State}

/-! ### The checkpoint -/

def Names (cfg : Config) (db : Db) (childID : String) : Prop :=
  ∃ row, cfg.checkpoint? db = some row ∧ row.functionName = cfg.workflowName ∧
    row.childWorkflowID = some childID

theorem Names.unique {db : Db} {childID childID' : String} (h : Names cfg db childID)
    (h' : Names cfg db childID') : childID = childID' := by
  obtain ⟨row, hrow, -, hchild⟩ := h
  obtain ⟨row', hrow', -, hchild'⟩ := h'
  obtain rfl : row = row' := Option.some.inj (hrow.symm.trans hrow')
  exact Option.some.inj (hchild.symm.trans hchild')

theorem checkpoint?_insertOperation (db : Db) (row : OperationRow) :
    cfg.checkpoint? (Write.apply (.insertOperation row) db) = (cfg.checkpoint? db).or
      (if (row.workflowID, row.functionID) = (cfg.parentID, cfg.stepID) then some row else none) :=
  Table.find?_insert _ _ _

theorem names_insertOperation {db : Db} (h : cfg.checkpoint? db = none) (d : Draw) (childID : String) :
    Names cfg (Write.apply (.insertOperation (cfg.recordInput d childID).row) db) childID := by
  refine ⟨(cfg.recordInput d childID).row, ?_, rfl, rfl⟩
  rw [checkpoint?_insertOperation, h]
  exact if_pos rfl

/-- The checkpoint is that of the call: it names a workflow if it is there. -/
def Whole (cfg : Config) (db : Db) : Prop :=
  cfg.checkpoint? db = none ∨ ∃ childID, Names cfg db childID

theorem Names.whole {db : Db} {childID : String} (h : Names cfg db childID) : Whole cfg db :=
  .inr ⟨childID, h⟩

theorem names_congr {db db' : Db} {childID : String} (h : cfg.checkpoint? db' = cfg.checkpoint? db) :
    Names cfg db' childID ↔ Names cfg db childID := by
  unfold Names
  rw [h]

theorem Whole.congr {db db' : Db} (h : cfg.checkpoint? db' = cfg.checkpoint? db) (hdb : Whole cfg db) :
    Whole cfg db' := by
  obtain hnone | ⟨childID, hnames⟩ := hdb
  · exact .inl (h.trans hnone)
  · exact ((names_congr h).2 hnames).whole

theorem Whole.insertOperation {db : Db} (h : Whole cfg db) (d : Draw) (childID : String) :
    Whole cfg (Write.apply (.insertOperation (cfg.recordInput d childID).row) db) := by
  obtain hnone | ⟨childID', row, hrow, hname, hchild⟩ := h
  · exact (names_insertOperation hnone d childID).whole
  · refine Names.whole ⟨row, ?_, hname, hchild⟩
    rw [checkpoint?_insertOperation, hrow]
    rfl

theorem Whole.checkChildWorkflow {db : Db} (h : Whole cfg db) :
    (cfg.checkpoint? db = none ∧
      db.checkChildWorkflow cfg.parentID cfg.stepID cfg.workflowName = .ok none) ∨
    ∃ childID, Names cfg db childID ∧
      db.checkChildWorkflow cfg.parentID cfg.stepID cfg.workflowName = .ok (some childID) := by
  unfold Db.checkChildWorkflow
  obtain hnone | ⟨childID, row, hrow, hname, hchild⟩ := h
  · refine .inl ⟨hnone, ?_⟩
    rw [show db.operation? cfg.parentID cfg.stepID = none from hnone]
  · refine .inr ⟨childID, ⟨row, hrow, hname, hchild⟩, ?_⟩
    rw [show db.operation? cfg.parentID cfg.stepID = some row from hrow]
    simp [hname, hchild]

theorem Whole.names_of_onConflict {db : Db} {stored : OperationRow} {d : Draw} {childID : String}
    (hdb : Whole cfg db) (hstored : cfg.checkpoint? db = some stored) {u : Unit}
    (h : (cfg.recordInput d childID).onConflict (some stored) = .ok u) : Names cfg db childID := by
  obtain ⟨row, hrow, hchild⟩ := RecordChildWorkflowInput.onConflict_eq_ok h
  obtain rfl : stored = row := Option.some.inj hrow
  obtain hnone | ⟨-, row', hrow', hname, -⟩ := hdb
  · cases hnone.symm.trans hstored
  · obtain rfl : row' = stored := Option.some.inj (hrow'.symm.trans hstored)
    exact ⟨row', hstored, hname, hchild⟩

/-! ### The errors -/

def Config.refusal (cfg : Config) : GoError :=
  newQueueDeduplicatedError cfg.workflowID ((nullIfEmpty cfg.queueName).getD "")
    ((nullIfEmpty cfg.deduplicationID).getD "")

theorem insertWorkflowStatus_of_stillRefused {db : Db} {d : Draw} {now : Int}
    (h : stillRefused cfg db d now = true) :
    db.insertWorkflowStatus (cfg.row d now) = .error cfg.refusal := by
  simp only [stillRefused, Bool.and_eq_true, Option.isNone_iff_eq_none] at h
  unfold Db.insertWorkflowStatus
  rw [show db.status.find? (cfg.row d now).workflowID = none from h.1]
  exact if_pos h.2

theorem isCode_insertError {db : Db} {d : Draw} {now : Int} {err : GoError}
    (h : db.insertWorkflowStatus (cfg.row d now) = .error err) :
    (Start.insertError cfg.workflowID err).isCode .queueDeduplicated = stillRefused cfg db d now := by
  unfold Db.insertWorkflowStatus at h
  unfold stillRefused
  split at h
  next hnone =>
    rw [show db.status.find? cfg.workflowID = none from hnone]
    split_ifs at h with hslot
    cases h
    rw [hslot]
    rfl
  next existing hsome =>
    rw [show db.status.find? cfg.workflowID = some existing from hsome]
    split_ifs at h
    · cases h
      rfl
    · split at h
      · split_ifs at h
        cases h
        rfl
      · cases h

theorem stillRefused_eq_false {db : Db} {d : Draw} {now : Int} {u : Unit}
    (h : db.insertWorkflowStatus (cfg.row d now) = .ok u) : stillRefused cfg db d now = false := by
  unfold Db.insertWorkflowStatus at h
  unfold stillRefused
  split at h
  next hnone =>
    split_ifs at h with hslot
    simp [hslot]
  next existing hsome =>
    rw [show db.status.find? cfg.workflowID = some existing from hsome]
    rfl

theorem refused_recordError {i : RecordChildWorkflowInput} {stored : Option OperationRow} {err : GoError}
    (h : i.onConflict stored = .error err) : refused (.error (cfg.recordError err)) = false := by
  unfold RecordChildWorkflowInput.onConflict at h
  split at h
  · cases h
    rfl
  · split at h
    · cases h
      rfl
    · split_ifs at h
      cases h
      rfl

/-! ### The invariant -/

def Opened (cfg : Config) (s : State) : Phase → Prop
  | .inserted _ _ _ => ∃ r, s.store.own () = [.insertStatus r]
  | .recorded d _ _ =>
    (∃ r, s.store.own () = [.insertStatus r] ∧ Names cfg s.db cfg.workflowID) ∨
      ∃ r, s.store.own () = [.insertStatus r,
        .insertOperation (cfg.recordInput d cfg.workflowID).row] ∧ cfg.checkpoint? s.db = none
  | _ => s.store.own () = []

/-- Where the call stands after a first refusal: it never goes beyond its insertion. -/
def Phase.isRefusing : Phase → Bool
  | .checking | .inserting _ => true
  | .returned r => refused r
  | _ => false

def Phase.Holds (h : Handle) : Phase → Prop
  | .checking => True
  | .returned r => ∃ h', r = .ok h' ∧ h.workflowID = h'.workflowID
  | _ => False

def Config.Rejects (cfg : Config) : Prop :=
  cfg.returnExisting = false ∧ Start.retried (Start.insertError cfg.workflowID cfg.refusal) = false

structure FirstKept (cfg : Config) (s : State) : Prop where
  fresh : s.first = none → s.startedAgain = false ∧ ∀ r, s.phase ≠ .returned r
  handle : ∀ h, s.first = some (.ok h) →
    s.startedAgain = false ∧ Names cfg s.db h.workflowID ∧ s.phase.Holds h
  refusal : s.first.any refused = true →
    s.startedAgain = false ∧ cfg.Rejects ∧ cfg.checkpoint? s.db = none ∧ s.phase.isRefusing = true

structure Inv (cfg : Config) (s : State) : Prop where
  whole : Whole cfg s.db
  opened : Opened cfg s s.phase
  first : FirstKept cfg s

def Unsettled (s : State) : Prop := ∀ r ∈ s.first, ¬ Settled r

theorem Unsettled.not_handle (h : Unsettled s) {h' : Handle} : s.first ≠ some (.ok h') :=
  fun hfirst => h _ hfirst (.inl ⟨h', rfl⟩)

theorem Unsettled.not_refused (h : Unsettled s) : s.first.any refused = false := by
  cases hfirst : s.first with
  | none => rfl
  | some r => exact Bool.eq_false_iff.2 fun hr => h r hfirst (.inr hr)

/-- Where a call stands that got beyond its insertion and has not returned. -/
def Phase.isBeyond : Phase → Bool
  | .inserted _ _ _ | .recorded _ _ _ | .looking _ | .attaching _ _ => true
  | _ => false

theorem FirstKept.unsettled (h : FirstKept cfg s) (hphase : s.phase.isBeyond = true) : Unsettled s := by
  rintro r hr (⟨h', rfl⟩ | hrefused)
  · have hholds := (h.handle h' hr).2.2
    cases hp : s.phase <;> simp [hp, Phase.isBeyond, Phase.Holds] at hphase hholds
  · have hrefusing := (h.refusal (by rw [hr]; exact hrefused)).2.2.2
    cases hp : s.phase <;> simp [hp, Phase.isBeyond, Phase.isRefusing] at hphase hrefusing

theorem FirstKept.move (h : FirstKept cfg s) (hopen : Unsettled s) (hfirst : t.first = s.first)
    (hagain : s.first = none → t.startedAgain = s.startedAgain)
    (hphase : ∀ r, t.phase ≠ .returned r) : FirstKept cfg t where
  fresh hnone := by
    rw [hfirst] at hnone
    exact ⟨(hagain hnone).trans (h.fresh hnone).1, hphase⟩
  handle h' hh' := absurd (hfirst ▸ hh') hopen.not_handle
  refusal hr := by
    rw [hfirst, hopen.not_refused] at hr
    cases hr

/-- The call returns: for the first time, or what it has returned before. -/
theorem FirstKept.settle (h : FirstKept cfg s) {r : Result} (hfirst : t.first = s.first.or (some r))
    (hagain : s.first = none → t.startedAgain = s.startedAgain) (hphase : t.phase = .returned r)
    (hok : ∀ h, r = .ok h → Names cfg t.db h.workflowID)
    (hrefused : refused r = true → cfg.Rejects ∧ cfg.checkpoint? t.db = none)
    (hsame : ∀ r' ∈ s.first, Settled r' → Same r' r ∧ t.startedAgain = s.startedAgain ∧
      cfg.checkpoint? t.db = cfg.checkpoint? s.db) : FirstKept cfg t := by
  cases hs : s.first with
  | none =>
    have ht : t.first = some r := by rw [hfirst, hs]; rfl
    have hfalse : t.startedAgain = false := (hagain hs).trans (h.fresh hs).1
    refine ⟨fun hnone => ?_, fun h' hh' => ?_, fun hr => ?_⟩
    · rw [ht] at hnone
      cases hnone
    · obtain rfl : r = .ok h' := Option.some.inj (ht.symm.trans hh')
      refine ⟨hfalse, hok h' rfl, ?_⟩
      rw [hphase]
      exact ⟨h', rfl, rfl⟩
    · rw [ht] at hr
      refine ⟨hfalse, (hrefused hr).1, (hrefused hr).2, ?_⟩
      rw [hphase]
      exact hr
  | some r' =>
    have ht : t.first = s.first := by rw [hfirst, hs]; rfl
    refine ⟨fun hnone => ?_, fun h' hh' => ?_, fun hr => ?_⟩
    · rw [ht, hs] at hnone
      cases hnone
    · obtain ⟨hsame, hagain, hcheckpoint⟩ := hsame (.ok h') (ht ▸ hh') (.inl ⟨h', rfl⟩)
      obtain ⟨hfalse, hnames, -⟩ := h.handle h' (ht ▸ hh')
      refine ⟨hagain.trans hfalse, (names_congr hcheckpoint).2 hnames, ?_⟩
      obtain ⟨h₁, h₂, heq, rfl, hid⟩ | ⟨hr, -⟩ := hsame
      · obtain rfl := Except.ok.inj heq
        rw [hphase]
        exact ⟨h₂, rfl, hid⟩
      · cases hr
    · have hr' : refused r' = true := by rwa [ht, hs] at hr
      obtain ⟨hsame, hagain, hcheckpoint⟩ := hsame r' hs (.inr hr')
      obtain ⟨hfalse, hpolicy, hnone, -⟩ := h.refusal (ht ▸ hr)
      refine ⟨hagain.trans hfalse, hpolicy, hcheckpoint.trans hnone, ?_⟩
      obtain ⟨h₁, h₂, rfl, -⟩ | ⟨-, hr⟩ := hsame
      · cases hr'
      · rw [hphase]
        exact hr

theorem FirstKept.finish (h : FirstKept cfg s) (hopen : Unsettled s) {r : Result}
    (hfirst : t.first = s.first.or (some r))
    (hagain : s.first = none → t.startedAgain = s.startedAgain) (hphase : t.phase = .returned r)
    (hok : ∀ h, r = .ok h → Names cfg t.db h.workflowID)
    (hrefused : refused r = true → cfg.Rejects ∧ cfg.checkpoint? t.db = none) : FirstKept cfg t :=
  h.settle hfirst hagain hphase hok hrefused fun r' hr' hsettled => (hopen r' hr' hsettled).elim

/-! ### Steps -/

theorem Inv.check (h : Inv cfg s) (d : Draw) (hphase : s.phase = .checking)
    (hstep : step cfg s (.check d) = some t) : Inv cfg t := by
  have hown : s.store.own () = [] := by
    have := h.opened
    rwa [hphase] at this
  simp only [step, hphase] at hstep
  obtain ⟨hnone, hcheck⟩ | ⟨childID, hnames, hcheck⟩ := h.whole.checkChildWorkflow
  · rw [hcheck] at hstep
    cases hstep
    refine ⟨h.whole, hown, ⟨fun hfirst => ⟨(h.first.fresh hfirst).1, fun _ => nofun⟩,
      fun h' hfirst => ?_, fun hr => ?_⟩⟩
    · obtain ⟨row, hrow, -⟩ := (h.first.handle h' hfirst).2.1
      cases hnone.symm.trans hrow
    · obtain ⟨hagain, hpolicy, -, -⟩ := h.first.refusal hr
      exact ⟨hagain, hpolicy, hnone, rfl⟩
  · rw [hcheck] at hstep
    cases hstep
    refine ⟨h.whole, hown, h.first.settle rfl (fun _ => rfl) rfl (fun h' hh' => ?_) nofun ?_⟩
    · obtain rfl := Except.ok.inj hh'
      exact hnames
    · rintro r hr (⟨h', rfl⟩ | hrefused)
      · -- the checkpoint names what was returned at first
        obtain ⟨-, hnames', -⟩ := h.first.handle h' hr
        exact ⟨.inl ⟨h', _, rfl, rfl, hnames'.unique hnames⟩, rfl, rfl⟩
      · obtain ⟨-, -, hnone, -⟩ := h.first.refusal (by rw [hr]; exact hrefused)
        obtain ⟨row, hrow, -⟩ := hnames
        cases hnone.symm.trans hrow

theorem Inv.insert (h : Inv cfg s) {d : Draw} {now : Int} (hphase : s.phase = .inserting d)
    (hstable : Stable cfg s (.insert now)) (hstep : step cfg s (.insert now) = some t) : Inv cfg t := by
  have hown : s.store.own () = [] := by
    have := h.opened
    rwa [hphase] at this
  obtain ⟨hfree, hheld⟩ := hstable d (by rw [hphase]; rfl)
  have hnothandle : ∀ h', s.first ≠ some (.ok h') := fun h' hfirst => by
    have := (h.first.handle h' hfirst).2.2
    rwa [hphase] at this
  simp only [step, hphase] at hstep
  split at hstep
  next err herr =>
    have hcode := isCode_insertError herr
    split_ifs at hstep with hretried hreturn
    · cases hstep
      exact h
    · cases hstep
      refine ⟨h.whole, hown, h.first.move ?_ rfl (fun _ => rfl) fun _ hp => by cases hp⟩
      rintro r hr (⟨h', rfl⟩ | hrefused)
      · exact hnothandle h' hr
      · obtain ⟨-, hrejects, -⟩ := h.first.refusal (by rw [hr]; exact hrefused)
        cases hrejects.1.symm.trans hreturn.1
    · cases hstep
      refine ⟨h.whole, hown, h.first.settle rfl (fun _ => rfl) rfl (fun _ hh => by cases hh)
        (fun hrefused => ?_) ?_⟩
      · have hslot : stillRefused cfg s.db d now = true := hcode ▸ hrefused
        rw [insertWorkflowStatus_of_stillRefused hslot] at herr
        obtain rfl := Except.error.inj herr
        refine ⟨⟨?_, Bool.eq_false_iff.2 hretried⟩, hfree hslot⟩
        exact Bool.eq_false_iff.2 fun hpolicy => hreturn ⟨hpolicy, hrefused⟩
      · rintro r hr (⟨h', rfl⟩ | hrefused)
        · exact (hnothandle h' hr).elim
        · refine ⟨.inr ⟨hrefused, ?_⟩, rfl, rfl⟩
          exact hcode.trans (hheld (by rw [hr]; exact hrefused))
  next hok =>
    cases hstep
    refine ⟨h.whole, ⟨cfg.row d now, ?_⟩, h.first.move ?_ rfl (fun _ => rfl) fun _ hp => by cases hp⟩
    · exact (Store.own_write_self _ _ _).trans (by rw [hown]; rfl)
    · rintro r hr (⟨h', rfl⟩ | hrefused)
      · exact hnothandle h' hr
      · have := hheld (by rw [hr]; exact hrefused)
        rw [stillRefused_eq_false hok] at this
        cases this

theorem Inv.retry (h : Inv cfg s) (hopen : Unsettled s) (d : Draw) :
    Inv cfg (s.rollback.goto (.inserting d)) :=
  ⟨h.whole, Store.own_rollback_self _ _, h.first.move hopen rfl (fun _ => rfl) fun _ => nofun⟩

theorem Inv.record (h : Inv cfg s) {d : Draw} {isNew : Bool} {result : Start.InsertWorkflowResult}
    (hphase : s.phase = .inserted d isNew result) (hstep : step cfg s .record = some t) :
    Inv cfg t := by
  have hopen : Unsettled s := h.first.unsettled (by rw [hphase]; rfl)
  obtain ⟨r, hown⟩ : ∃ r, s.store.own () = [.insertStatus r] := by
    have := h.opened
    rwa [hphase] at this
  simp only [step, hphase] at hstep
  split at hstep
  next hnone =>
    cases hstep
    refine ⟨h.whole, .inr ⟨r, ?_, hnone⟩, h.first.move hopen rfl (fun _ => rfl) fun _ => nofun⟩
    exact (Store.own_write_self _ _ _).trans (by rw [hown]; rfl)
  next stored hstored =>
    split at hstep
    next hok =>
      cases hstep
      refine ⟨h.whole, .inl ⟨r, hown, h.whole.names_of_onConflict hstored hok⟩, ?_⟩
      exact h.first.move hopen rfl (fun _ => rfl) fun _ => nofun
    next err herr =>
      split_ifs at hstep
      · cases hstep
        exact h.retry hopen d
      · cases hstep
        refine ⟨h.whole, Store.own_rollback_self _ _, ?_⟩
        refine h.first.finish hopen rfl (fun _ => rfl) rfl nofun fun hrefused => ?_
        rw [refused_recordError herr] at hrefused
        cases hrefused

/-- The commit of a child leaves the checkpoint that names it. -/
theorem Inv.names_commit (h : Inv cfg s) {d : Draw} {isNew : Bool}
    {result : Start.InsertWorkflowResult} (hphase : s.phase = .recorded d isNew result) :
    Names cfg (s.commit isNew).db cfg.workflowID := by
  have hopened := h.opened
  rw [hphase] at hopened
  show Names cfg (s.store.view schema ()) cfg.workflowID
  unfold Store.view
  obtain ⟨r, hown, hnames⟩ | ⟨r, hown, hnone⟩ := hopened
  · rw [hown]
    exact hnames
  · rw [hown]
    exact names_insertOperation hnone d cfg.workflowID

theorem startedAgain_commit (isNew : Bool) (h : s.first = none) :
    (s.commit isNew).startedAgain = s.startedAgain := by
  simp [State.commit, h]

theorem Inv.commit (h : Inv cfg s) {d : Draw} {isNew : Bool} {result : Start.InsertWorkflowResult}
    (hphase : s.phase = .recorded d isNew result) {handle : Handle}
    (hhandle : handle.workflowID = cfg.workflowID) :
    Inv cfg ((s.commit isNew).finish (.ok handle)) := by
  have hopen : Unsettled s := h.first.unsettled (by rw [hphase]; rfl)
  have hnames := h.names_commit hphase
  refine ⟨hnames.whole, Store.own_commit_self _ _ _, ?_⟩
  refine h.first.finish hopen rfl (startedAgain_commit isNew) rfl (fun h' hh' => ?_) nofun
  obtain rfl := Except.ok.inj hh'
  rw [hhandle]
  exact hnames

theorem Inv.commitUnacknowledged (h : Inv cfg s) {d : Draw} {isNew : Bool}
    {result : Start.InsertWorkflowResult} (hphase : s.phase = .recorded d isNew result) :
    Inv cfg ((s.commit isNew).goto (.inserting d)) := by
  have hopen : Unsettled s := h.first.unsettled (by rw [hphase]; rfl)
  refine ⟨(h.names_commit hphase).whole, Store.own_commit_self _ _ _, ?_⟩
  exact h.first.move hopen rfl (startedAgain_commit isNew) fun _ => nofun

theorem Inv.attach (h : Inv cfg s) {d : Draw} {existingID : String}
    (hphase : s.phase = .attaching d existingID) (hstep : step cfg s .attach = some t) :
    Inv cfg t := by
  have hopen : Unsettled s := h.first.unsettled (by rw [hphase]; rfl)
  have hown : s.store.own () = [] := by
    have := h.opened
    rwa [hphase] at this
  simp only [step, hphase] at hstep
  split at hstep
  next hnone =>
    cases hstep
    have hnames := names_insertOperation hnone d existingID
    refine ⟨hnames.whole, hown, ?_⟩
    refine h.first.finish hopen rfl (fun _ => rfl) rfl (fun h' hh' => ?_) nofun
    obtain rfl := Except.ok.inj hh'
    exact hnames
  next stored hstored =>
    split at hstep
    next hok =>
      cases hstep
      refine ⟨h.whole, hown, ?_⟩
      refine h.first.finish hopen rfl (fun _ => rfl) rfl (fun h' hh' => ?_) nofun
      obtain rfl := Except.ok.inj hh'
      exact h.whole.names_of_onConflict hstored hok
    next err herr =>
      cases hstep
      refine ⟨h.whole, hown, ?_⟩
      refine h.first.finish hopen rfl (fun _ => rfl) rfl nofun fun hrefused => ?_
      rw [refused_recordError herr] at hrefused
      cases hrefused

theorem Inv.attachFails (h : Inv cfg s) {d : Draw} {existingID : String} {written : Bool}
    {err : GoError} (hphase : s.phase = .attaching d existingID)
    (hstep : step cfg s (.attachFails written err) = some t) : Inv cfg t := by
  have hopen : Unsettled s := h.first.unsettled (by rw [hphase]; rfl)
  have hown : s.store.own () = [] := by
    have := h.opened
    rwa [hphase] at this
  simp only [step, hphase] at hstep
  split_ifs at hstep with hcode hwritten
  · cases hstep
    refine ⟨h.whole.insertOperation d existingID, hown, ?_⟩
    exact h.first.finish hopen rfl (fun _ => rfl) rfl nofun fun hr => (hcode hr).elim
  · cases hstep
    refine ⟨h.whole, hown, ?_⟩
    exact h.first.finish hopen rfl (fun _ => rfl) rfl nofun fun hr => (hcode hr).elim

theorem Inv.crash (h : Inv cfg s) : Inv cfg (s.rollback.goto .checking) := by
  refine ⟨h.whole, Store.own_rollback_self _ _, ⟨fun hfirst => ?_, fun h' hfirst => ?_, fun hr => ?_⟩⟩
  · exact ⟨(h.first.fresh hfirst).1, fun _ => nofun⟩
  · obtain ⟨hagain, hnames, -⟩ := h.first.handle h' hfirst
    exact ⟨hagain, hnames, trivial⟩
  · obtain ⟨hagain, hpolicy, hnone, -⟩ := h.first.refusal hr
    exact ⟨hagain, hpolicy, hnone, rfl⟩

/-- Whatever else happens to the rows, the checkpoint stays. -/
theorem Inv.environment (h : Inv cfg s) {db : Db} (hdb : cfg.checkpoint? db = cfg.checkpoint? s.db) :
    Inv cfg { s with store := { s.store with committed := db } } := by
  refine ⟨h.whole.congr hdb, ?_, ⟨h.first.fresh, fun h' hfirst => ?_, fun hr => ?_⟩⟩
  · have hopened := h.opened
    cases hphase : s.phase with
    | recorded d isNew result =>
      rw [hphase] at hopened
      obtain ⟨r, hown, hnames⟩ | ⟨r, hown, hnone⟩ := hopened
      · exact .inl ⟨r, hown, (names_congr hdb).2 hnames⟩
      · exact .inr ⟨r, hown, hdb.trans hnone⟩
    | _ =>
      rw [hphase] at hopened
      exact hopened
  · obtain ⟨hagain, hnames, hholds⟩ := h.first.handle h' hfirst
    exact ⟨hagain, (names_congr hdb).2 hnames, hholds⟩
  · obtain ⟨hagain, hpolicy, hnone, hrefusing⟩ := h.first.refusal hr
    exact ⟨hagain, hpolicy, hdb.trans hnone, hrefusing⟩

theorem inv_step {a : Action} (h : Inv cfg s) (hstable : Stable cfg s a)
    (hstep : step cfg s a = some t) : Inv cfg t := by
  cases a with
  | check d =>
    cases hphase : s.phase with
    | checking => exact h.check d hphase hstep
    | _ => simp [step, hphase] at hstep
  | insert now =>
    cases hphase : s.phase with
    | inserting d => exact h.insert hphase hstable hstep
    | _ => simp [step, hphase] at hstep
  | record =>
    cases hphase : s.phase with
    | inserted d isNew result => exact h.record hphase hstep
    | _ => simp [step, hphase] at hstep
  | commit loaded =>
    cases hphase : s.phase with
    | recorded d isNew result =>
      simp only [step, hphase] at hstep
      split_ifs at hstep
      · cases hstep
        exact h.commit hphase rfl
      · cases hstep
        exact h.commit hphase rfl
    | _ => simp [step, hphase] at hstep
  | commitUnacknowledged =>
    cases hphase : s.phase with
    | recorded d isNew result =>
      simp only [step, hphase] at hstep
      cases hstep
      exact h.commitUnacknowledged hphase
    | _ => simp [step, hphase] at hstep
  | abort =>
    cases hphase : s.phase with
    | inserted d isNew result | recorded d isNew result =>
      simp only [step, hphase] at hstep
      cases hstep
      exact h.retry (h.first.unsettled (by rw [hphase]; rfl)) d
    | _ => simp [step, hphase] at hstep
  | lookup =>
    cases hphase : s.phase with
    | looking d =>
      have hopen : Unsettled s := h.first.unsettled (by rw [hphase]; rfl)
      have hown : s.store.own () = [] := by
        have := h.opened
        rwa [hphase] at this
      simp only [step, hphase] at hstep
      split at hstep
      all_goals
        cases hstep
        exact ⟨h.whole, hown, h.first.move hopen rfl (fun _ => rfl) fun _ => nofun⟩
    | _ => simp [step, hphase] at hstep
  | attach =>
    cases hphase : s.phase with
    | attaching d existingID => exact h.attach hphase hstep
    | _ => simp [step, hphase] at hstep
  | attachFails written err =>
    cases hphase : s.phase with
    | attaching d existingID => exact h.attachFails hphase hstep
    | _ => simp [step, hphase] at hstep
  | crash =>
    cases hstep
    exact h.crash
  | environment db =>
    simp only [step] at hstep
    split_ifs at hstep with hdb
    cases hstep
    exact h.environment hdb

theorem inv_of_init (h : Init cfg s) : Inv cfg s := by
  obtain ⟨hnone, hpending, hphase, hfirst, hagain⟩ := h
  refine ⟨.inl hnone, ?_, ⟨fun _ => ⟨hagain, fun r hr => ?_⟩, fun h' hh' => ?_, fun hr => ?_⟩⟩
  · rw [hphase]
    simp [Opened, Store.own, hpending]
  · cases hphase.symm.trans hr
  · cases hfirst.symm.trans hh'
  · rw [hfirst] at hr
    cases hr

/-! ### Replays -/

theorem Inv.obtains_handle (h : Inv cfg s) {h' : Handle} (hfirst : s.first = some (.ok h')) :
    Obtains cfg s (.ok h') := by
  obtain ⟨-, hnames, hholds⟩ := h.first.handle h' hfirst
  unfold Obtains
  cases hphase : s.phase with
  | checking =>
    intro d
    obtain ⟨hnone, -⟩ | ⟨childID, hnames', hcheck⟩ := h.whole.checkChildWorkflow
    · obtain ⟨row, hrow, -⟩ := hnames
      cases hnone.symm.trans hrow
    · refine ⟨s.finish (.ok (.polling childID)), ?_, .inl ⟨_, rfl, ?_⟩⟩
      · simp only [step, hphase, hcheck]
      · exact .inl ⟨h', _, rfl, rfl, hnames.unique hnames'⟩
  | returned r =>
    rw [hphase] at hholds
    obtain ⟨h'', rfl, hid⟩ := hholds
    exact .inl ⟨h', h'', rfl, rfl, hid⟩
  | _ =>
    rw [hphase] at hholds
    exact False.elim hholds

theorem Inv.obtains_refusal (h : Inv cfg s) {r : Result} (hfirst : s.first = some r)
    (hr : refused r = true) : Obtains cfg s r := by
  have hany : s.first.any refused = true := by
    rw [hfirst]
    exact hr
  obtain ⟨-, ⟨hpolicy, hretried⟩, hnone, hrefusing⟩ := h.first.refusal hany
  unfold Obtains
  cases hphase : s.phase with
  | checking =>
    intro d
    obtain ⟨-, hcheck⟩ | ⟨-, ⟨row, hrow, -⟩, -⟩ := h.whole.checkChildWorkflow
    · exact ⟨s.goto (.inserting d), by simp only [step, hphase, hcheck], .inr rfl⟩
    · cases hnone.symm.trans hrow
  | inserting d =>
    intro now hstable
    have hslot := (hstable d (by rw [hphase]; rfl)).2 hany
    have herr := insertWorkflowStatus_of_stillRefused hslot
    refine ⟨s.finish (.error (Start.insertError cfg.workflowID cfg.refusal)), _, ?_, rfl, .inr ⟨hr, rfl⟩⟩
    simp only [step, hphase, herr, hretried, hpolicy]
    rfl
  | returned r' =>
    rw [hphase] at hrefusing
    exact .inr ⟨hr, hrefusing⟩
  | _ =>
    rw [hphase] at hrefusing
    cases hrefusing

/-- **A child start that is replayed has the same result and starts no second child**, in every run in
which no insertion meets the slot in another state than the first result says. -/
theorem child_start_replays (h : Reaches (system cfg) (Stable cfg) s) : ReplaysSame cfg s := by
  have hinv : Inv cfg s := Reaches.invariant (I := Inv cfg) (fun _ h => inv_of_init h)
    (fun _ _ _ h hc hstep => inv_step h hc hstep) h
  rintro r hr (⟨h', rfl⟩ | hrefused)
  · exact ⟨hinv.obtains_handle hr, (hinv.first.handle h' hr).1⟩
  · refine ⟨hinv.obtains_refusal hr hrefused, (hinv.first.refusal ?_).1⟩
    rw [hr]
    exact hrefused

/-! ### A slot that is freed between the executions -/

section Freed

/-- A child on a queue, with a deduplication ID and the policy to reject. -/
def rejecting : Config where
  parentID := "p"
  stepID := 0
  workflowName := "child"
  queueName := "q"
  deduplicationID := "d"

def holding (status : StatusTable) : Db where
  status := status
  waiters := .empty
  notifications := .empty
  events := .empty
  eventsHistory := .empty
  operations := .empty

def holder : WorkflowRow where
  workflowID := "h"
  status := .enqueued
  name := "child"
  queueName := some "q"
  deduplicationID := some "d"

def calling (db : Db) : State where
  store := ⟨db, []⟩
  phase := .checking
  first := none
  startedAgain := false

theorem init_calling (status : StatusTable) : Init rejecting (calling (holding status)) :=
  ⟨rfl, rfl, rfl, rfl, rfl⟩

def draw : Draw where
  ownerXID := "x"
  createdAt := 1
  startedAt := 1

def starting : List Action := [.check draw, .insert 1, .record, .commit false]

/-- The first result was a refusal, and a replay has started the child. -/
def startedAfterRefusal (s : State) : Bool := s.first.any refused && s.startedAgain

/-- The first execution is refused and goes on; the slot is freed; the replay starts the child. -/
theorem refusal_not_replayed : ∃ s, Reaches (system rejecting) (fun _ _ => True) s ∧
    ¬ ReplaysSame rejecting s := by
  obtain ⟨s, hs, hp⟩ := exists_reaches (S := system rejecting) (fun _ _ => True)
    (s := calling (holding (.insert .empty holder)))
    (List.flatten [[.check draw, .insert 1, .crash, .environment (holding .empty)], starting])
    startedAfterRefusal (init_calling _) (fun _ _ => trivial) (by decide +kernel)
  refine ⟨s, hs, fun hsame => ?_⟩
  simp only [startedAfterRefusal, Bool.and_eq_true, Option.any_eq_true] at hp
  obtain ⟨⟨r, hr, hrefused⟩, hagain⟩ := hp
  cases hagain.symm.trans (hsame r hr (.inr hrefused)).2

/-- The first execution was given a handle, and the replay has returned. -/
def returnedAfterHandle (s : State) : Bool :=
  (s.first.any fun r => r = .ok (.polling "p-0")) &&
    match s.phase with
    | .returned _ => true
    | _ => false

theorem child_start_replays_after_crash : ∃ s r', Reaches (system rejecting) (Stable rejecting) s ∧
    s.first = some (.ok (.polling "p-0")) ∧ s.phase = .returned r' ∧ Same (.ok (.polling "p-0")) r' := by
  obtain ⟨s, hs, hp⟩ := exists_reaches (S := system rejecting) (Stable rejecting)
    (s := calling (holding .empty)) (List.flatten [starting, [.crash, .check draw]])
    returnedAfterHandle (init_calling _) (by decide +kernel) (by decide +kernel)
  simp only [returnedAfterHandle, Bool.and_eq_true, Option.any_eq_true, decide_eq_true_eq] at hp
  obtain ⟨⟨r, hr, rfl⟩, hphase⟩ := hp
  have hobtains := (child_start_replays hs _ hr (.inl ⟨_, rfl⟩)).1
  split at hphase
  next r' hreturned =>
    rw [Obtains, hreturned] at hobtains
    exact ⟨s, r', hs, hr, hreturned, hobtains⟩
  next => cases hphase

end Freed

end Dbos.Child
