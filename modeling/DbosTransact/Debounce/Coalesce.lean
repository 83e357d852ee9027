import DbosTransact.Debounce.Concurrent

/-!
# Debounced calls coalesce

`Inv` ties the key to a delayed, debounced row that was not promoted, a locked row to the key, and an
uncommitted row to a free key.
-/

namespace Dbos

open Lts Relational Debounce

namespace Coalesce

variable {n : ℕ}

section Invariant

variable {cfg : Config n} {s s' : State n}

def Stores (c : Call) (r : WorkflowRow) : Prop :=
  r.inputs = c.inputs ∧ r.serialization = some c.serialization

structure Keyed (cfg : Config n) (events : List (Event n)) (r : WorkflowRow) : Prop where
  name : r.name = cfg.workflowName
  queueName : r.queueName = some cfg.queueName
  delayed : r.status = .delayed
  isDebounced : r.isDebounced = true
  owned : r.ownedBy cfg.appName = true
  written : ∃ i, Event.wrote i r.workflowID ∈ events
  waiting : Event.promoted r.workflowID ∉ events

structure Staged (cfg : Config n) (s : State n) (i : Fin n) : Prop where
  locked : ∀ id, (s.stage i).locked? = some id →
    ∃ r, s.table.find? id = some r ∧ r.deduplicationID = some cfg.deduplicationID
  inserted : ∀ id, (s.stage i).inserted? = some id → s.table.find? id = none ∧ s.Uncontended i ∧
    ∀ r ∈ s.table.rows, r.deduplicationID ≠ some cfg.deduplicationID
  handle : ∀ id, (s.stage i).handle? = some id →
    ∃ r, s.last i = some r ∧ r.workflowID = id ∧ r.status = .delayed ∧ Stores (cfg.call i) r

structure Inv (cfg : Config n) (s : State n) : Prop where
  keyed : ∀ r ∈ s.table.rows, r.deduplicationID = some cfg.deduplicationID → Keyed cfg s.events r
  unique : ∀ r ∈ s.table.rows, ∀ r' ∈ s.table.rows, r.deduplicationID = some cfg.deduplicationID →
    r'.deduplicationID = some cfg.deduplicationID → r = r'
  delayed : ∀ r ∈ s.table.rows, r.isDebounced = true → r.deduplicationID.isSome = true → r.status = .delayed
  events : ∀ e ∈ s.events, s.table.find? e.workflowID ≠ none
  inputs : ∀ r ∈ s.table.rows, (∃ i, Event.wrote i r.workflowID ∈ s.events) →
    ∃ i, inputOf r.workflowID s.events = some i ∧ Stores (cfg.call i) r
  staged : ∀ i, Staged cfg s i

/-- **What a step can do.** A call goes on without a commit, commits its bounce or its enqueue, or
others run a statement. -/
inductive Moves (cfg : Config n) (s : State n) : State n → Prop
  | goTo (i : Fin n) (stage : Stage) (hhandle : stage.handle? = none)
      (hlocked : ∀ id, stage.locked? = some id →
        ∃ r, s.table.find? id = some r ∧ r.deduplicationID = some cfg.deduplicationID)
      (hinserted : ∀ id, stage.inserted? = some id → s.table.find? id = none ∧ s.Uncontended i ∧
        s.table.rows.find? (holds cfg.queueName cfg.deduplicationID) = none) :
      Moves cfg s (s.goTo i stage)
  | bounce (i : Fin n) (calledAt now : Int) (id : String) (phase : Phase)
      (hlocked : (s.stage i).locked? = some id) (hphase : ∀ id', phase.handle? = some id' → id' = id) :
      Moves cfg s (s.write i id (bounced cfg s.table i calledAt now id) phase)
  | enqueue (i : Fin n) (id : String) (clock : Clock) (phase : Phase)
      (hinserted : (s.stage i).inserted? = some id) (hphase : ∀ id', phase.handle? = some id' → id' = id) :
      Moves cfg s (s.write i id (s.table.insert ((cfg.call i).row cfg.appName id clock)) phase)
  | others (statement : Statement) (t : StatusTable) (hpasses : s.Passes statement)
      (h : statement.apply s.table = some t) :
      Moves cfg s { s with
        table := t, events := s.events ++ (statement.promotions s.table).map .promoted }

theorem Moves.between (i : Fin n) {phase : Phase} (h : phase.handle? = none) :
    Moves cfg s (s.goTo i (.between phase)) :=
  .goTo i _ h (fun _ h => by cases h) fun _ h => by cases h

theorem handle?_afterBounceError (retried : Bool) (e : GoError) :
    (afterBounceError retried e).handle? = none := by
  cases retried <;> rfl

theorem handle?_afterError (e : GoError) : (afterError e).handle? = none := by
  unfold afterError
  split_ifs <;> rfl

theorem handle?_bounce {id id' : String} {reply : Reply} (h : (reply.bounce id).handle? = some id') :
    id' = id := by
  cases reply with
  | acknowledged => exact (Option.some.inj h).symm
  | lost retried e =>
    rw [Reply.bounce, handle?_afterBounceError] at h
    cases h

theorem handle?_enqueue {id id' : String} {reply : Reply} (h : (reply.enqueue id).handle? = some id') :
    id' = id := by
  cases reply with
  | acknowledged => exact (Option.some.inj h).symm
  | lost retried e =>
    rw [Reply.enqueue, handle?_afterError] at h
    cases h

theorem handle?_afterBounce_noBounce (c : Call) (appName : String) (t : StatusTable) :
    (afterBounce c appName (noBounce cfg t)).handle? = none := by
  cases hholder : t.rows.find? (holds cfg.queueName cfg.deduplicationID) with
  | none => simp only [afterBounce, noBounce, hholder, Option.map_none, classifyBounce, Phase.handle?]
  | some r =>
    simp only [afterBounce, noBounce, hholder, Option.map_some, classifyBounce]
    split_ifs <;> rfl

theorem free_of_enqueue {c : Call} {appName id id' : String} {clock : Clock} {t : StatusTable}
    (hnew : t.find? id = none) (h : (Debounce.enqueue c appName id clock t).2 = .returned (.ok id')) :
    t.rows.find? (holds c.queueName c.deduplicationID) = none := by
  by_cases hname : c.debouncer.workflowName = ""
  · simp [Debounce.enqueue, hname] at h
  · cases hheld : t.rows.find? (holds c.queueName c.deduplicationID) with
    | none => rfl
    | some r => simp [enqueue_of_held hname hnew (by rw [hheld]; rfl)] at h

theorem moves_of_step {a : Action n} (h : (system cfg).step s a = some s') : Moves cfg s s' := by
  cases a with
  | scan i calledAt =>
    simp only [system, step] at h
    split at h
    · cases h
      exact .goTo i _ rfl (fun _ h => by cases h) fun _ h => by cases h
    · cases h
  | update i now =>
    simp only [system, step] at h
    split at h
    · cases h
      exact .goTo i _ rfl (fun _ h => by cases h) fun _ h => by cases h
    · split_ifs at h with hunlocked hmatch
      · cases h
        obtain ⟨r, hr, hd⟩ := (Option.any_eq_true _ _).1 hmatch
        have hholds := holds_of_debounceable hd
        simp only [holds, Call.bounceInput, cfg.deduplicationID_call, Bool.and_eq_true,
          decide_eq_true_eq] at hholds
        refine .goTo i _ rfl (fun id hid => ?_) fun _ h => by cases h
        cases hid
        exact ⟨r, hr, hholds.2⟩
      · cases h
        exact .goTo i _ rfl (fun _ h => by cases h) fun _ h => by cases h
    · cases h
  | select i =>
    simp only [system, step] at h
    split at h
    · cases h
      exact .between i (handle?_afterBounce_noBounce _ _ _)
    · cases h
  | insert i id clock =>
    simp only [system, step] at h
    split at h
    · split_ifs at h with hguard
      cases h
      cases hphase : (Debounce.enqueue (cfg.call i) cfg.appName id clock s.table).2 with
      | bouncing => exact .between i rfl
      | enqueueing => exact .between i rfl
      | returned result =>
        cases result with
        | error e => exact .between i rfl
        | ok id' =>
          have hfree := free_of_enqueue hguard.1 hphase
          rw [cfg.queueName_call, cfg.deduplicationID_call] at hfree
          refine .goTo i _ rfl (fun _ h => by cases h) fun id'' hid => ?_
          cases hid
          exact ⟨hguard.1, hguard.2, hfree⟩
    · cases h
  | commit i reply =>
    simp only [system, step] at h
    split at h
    · rename_i hstage
      cases h
      exact .bounce i _ _ _ _ (by rw [hstage]; rfl) fun _ => handle?_bounce
    · rename_i hstage
      cases h
      exact .enqueue i _ _ _ (by rw [hstage]; rfl) fun _ => handle?_enqueue
    · cases h
  | abort i retried e =>
    obtain ⟨stage, hstage, rfl⟩ := Option.map_eq_some_iff.1 h
    unfold afterAbort at hstage
    split at hstage
    all_goals cases hstage
    · exact .between i (handle?_afterBounceError _ _)
    · exact .between i (handle?_afterBounceError _ _)
    · exact .between i (handle?_afterBounceError _ _)
    · exact .between i (handle?_afterError _)
  | others statement =>
    simp only [system, step] at h
    split_ifs at h with hpasses
    obtain ⟨t, ht, rfl⟩ := Option.map_eq_some_iff.1 h
    exact .others statement t hpasses ht

theorem inv_init (h : (system cfg).init s) : Inv cfg s := by
  obtain ⟨hfree, hdelayed, hstage, hevents, -⟩ := h
  refine ⟨fun r hr hkey => (hfree r hr hkey).elim, fun r hr _ _ hkey _ => (hfree r hr hkey).elim,
    hdelayed, ?_, ?_, fun i => ?_⟩
  · rw [hevents]
    exact fun e he => by cases he
  · rintro r - ⟨i, hi⟩
    rw [hevents] at hi
    cases hi
  · constructor
    all_goals
      intro id hid
      rw [hstage] at hid
      cases hid

theorem Inv.goTo (h : Inv cfg s) {i : Fin n} {stage : Stage} (hhandle : stage.handle? = none)
    (hlocked : ∀ id, stage.locked? = some id →
      ∃ r, s.table.find? id = some r ∧ r.deduplicationID = some cfg.deduplicationID)
    (hinserted : ∀ id, stage.inserted? = some id → s.table.find? id = none ∧ s.Uncontended i ∧
      s.table.rows.find? (holds cfg.queueName cfg.deduplicationID) = none) :
    Inv cfg (s.goTo i stage) := by
  refine ⟨h.keyed, h.unique, h.delayed, h.events, h.inputs, fun j => ?_⟩
  by_cases hj : j = i
  · subst hj
    refine ⟨fun id hid => ?_, fun id hid => ?_, fun id hid => ?_⟩
    · rw [State.stage_goTo_self] at hid
      exact hlocked id hid
    · rw [State.stage_goTo_self] at hid
      obtain ⟨hnew, hothers, hfree⟩ := hinserted id hid
      refine ⟨hnew, fun k hk => ?_, fun r hr hkey => ?_⟩
      · rw [State.stage_goTo_of_ne s stage hk]
        exact hothers k hk
      · refine List.find?_eq_none.1 hfree r hr ?_
        simp [holds, hkey, (h.keyed r hr hkey).queueName]
    · rw [State.stage_goTo_self, hhandle] at hid
      cases hid
  · have hother := s.stage_goTo_of_ne stage hj
    refine ⟨fun id hid => (h.staged j).locked id (hother ▸ hid), fun id hid => ?_,
      fun id hid => (h.staged j).handle id (hother ▸ hid)⟩
    rw [hother] at hid
    obtain ⟨hnew, hothers, hfree⟩ := (h.staged j).inserted id hid
    refine ⟨hnew, fun k hk => ?_, hfree⟩
    by_cases hki : k = i
    · subst hki
      -- the two cannot both have an uncommitted row: the second would have had to wait
      rw [State.stage_goTo_self]
      cases hstage : stage.inserted? with
      | none => rfl
      | some id' =>
        have hnone := (hinserted id' hstage).2.1 j hj
        rw [hid] at hnone
        cases hnone
    · rw [State.stage_goTo_of_ne s stage hki]
      exact hothers k hk

/-! ### The commit of a bounce -/

def bouncedRow (cfg : Config n) (i : Fin n) (calledAt now : Int) (id : String) (r : WorkflowRow) : WorkflowRow :=
  if r.workflowID = id then
    r.debounce cfg.appName (calledAt + (cfg.call i).delay) (cfg.call i).inputs (cfg.call i).serialization now
  else r

section Bounced

variable (cfg) (i : Fin n) (calledAt now : Int) (id : String)

theorem find?_bounced (t : StatusTable) (id' : String) :
    (bounced cfg t i calledAt now id).find? id' = (t.find? id').map (bouncedRow cfg i calledAt now id) := by
  rw [bounced, Table.find?_update]
  congr 1
  funext r
  simp [bouncedRow, Call.bounceInput]

theorem mem_bounced {t : StatusTable} {r' : WorkflowRow}
    (h : r' ∈ (bounced cfg t i calledAt now id).rows) :
    ∃ r ∈ t.rows, bouncedRow cfg i calledAt now id r = r' := by
  have hfind := Table.find?_of_mem h
  rw [find?_bounced, Option.map_eq_some_iff] at hfind
  obtain ⟨r, hr, rfl⟩ := hfind
  exact ⟨r, Table.mem_of_find? hr, rfl⟩

theorem bouncedRow_fields (r : WorkflowRow) :
    (bouncedRow cfg i calledAt now id r).workflowID = r.workflowID ∧
    (bouncedRow cfg i calledAt now id r).deduplicationID = r.deduplicationID ∧
    (bouncedRow cfg i calledAt now id r).isDebounced = r.isDebounced ∧
    (bouncedRow cfg i calledAt now id r).status = r.status ∧
    (bouncedRow cfg i calledAt now id r).name = r.name ∧
    (bouncedRow cfg i calledAt now id r).queueName = r.queueName := by
  unfold bouncedRow
  split_ifs
  · exact ⟨rfl, rfl, rfl, rfl, rfl, rfl⟩
  · exact ⟨rfl, rfl, rfl, rfl, rfl, rfl⟩

theorem ownedBy_bouncedRow {r : WorkflowRow} (h : r.ownedBy cfg.appName = true) :
    (bouncedRow cfg i calledAt now id r).ownedBy cfg.appName = true := by
  unfold bouncedRow
  split_ifs
  · by_cases happ : cfg.appName = ""
    · simp [WorkflowRow.ownedBy, happ]
    · have hadopted : r.adoptedBy cfg.appName = some cfg.appName := by
        rw [WorkflowRow.adoptedBy, if_neg happ]
        simp only [WorkflowRow.ownedBy, happ, decide_false, Bool.false_or, Bool.or_eq_true,
          decide_eq_true_eq] at h
        rcases h with h | h
        · rw [h]
          rfl
        · rw [h]
          rfl
      simp [WorkflowRow.ownedBy, WorkflowRow.debounce, hadopted]
  · exact h

end Bounced

theorem writer_of_ne {i : Fin n} {id id' : String} (h : id' ≠ id) :
    ∀ e ∈ [Event.wrote i id], Event.writer id' e = none := by
  intro e he
  rw [List.mem_singleton.1 he, Event.writer, if_neg (Ne.symm h)]

theorem wrote_of_append {i j : Fin n} {id id' : String} {events : List (Event n)} (hne : id' ≠ id)
    (h : Event.wrote j id' ∈ events ++ [Event.wrote i id]) : Event.wrote j id' ∈ events := by
  rcases List.mem_append.1 h with h | h
  · exact h
  · simp [hne] at h

theorem promoted_of_append {i : Fin n} {id id' : String} {events : List (Event n)}
    (h : Event.promoted id' ∈ events ++ [Event.wrote i id]) : Event.promoted id' ∈ events := by
  simpa using h

/-- The calls after a commit: the one that has committed finds its row under its ID, and nobody else has an
uncommitted row. -/
theorem Inv.staged_write (h : Inv cfg s) {i : Fin n} {id : String} {table : StatusTable} {phase : Phase}
    {row : WorkflowRow} (hphase : ∀ id', phase.handle? = some id' → id' = id)
    (hrow : table.find? id = some row) (hdelayed : row.status = .delayed) (hstores : Stores (cfg.call i) row)
    (hlocked : ∀ id' r, s.table.find? id' = some r → r.deduplicationID = some cfg.deduplicationID →
      ∃ r', table.find? id' = some r' ∧ r'.deduplicationID = some cfg.deduplicationID)
    (hinserted : ∀ j, j ≠ i → (s.stage j).inserted? = none) (j : Fin n) :
    Staged cfg (s.write i id table phase) j := by
  by_cases hj : j = i
  · subst hj
    refine ⟨fun id' hid' => ?_, fun id' hid' => ?_, fun id' hid' => ?_⟩
    · rw [State.stage_write_self] at hid'
      cases hid'
    · rw [State.stage_write_self] at hid'
      cases hid'
    · rw [State.stage_write_self] at hid'
      obtain rfl := hphase id' hid'
      exact ⟨row, (s.last_write_self _ _ _ _).trans hrow, Table.key_of_find? hrow, hdelayed, hstores⟩
  · have hother := s.stage_write_of_ne id table phase hj
    refine ⟨fun id' hid' => ?_, fun id' hid' => ?_, fun id' hid' => ?_⟩
    · obtain ⟨r, hr, hkey⟩ := (h.staged j).locked id' (hother ▸ hid')
      exact hlocked id' r hr hkey
    · rw [hother, hinserted j hj] at hid'
      cases hid'
    · obtain ⟨r, hr, hrest⟩ := (h.staged j).handle id' (hother ▸ hid')
      exact ⟨r, (s.last_write_of_ne _ _ _ hj).trans hr, hrest⟩

theorem Inv.bounce (h : Inv cfg s) {i : Fin n} {calledAt now : Int} {id : String} {phase : Phase}
    (hlocked : (s.stage i).locked? = some id) (hphase : ∀ id', phase.handle? = some id' → id' = id) :
    Inv cfg (s.write i id (bounced cfg s.table i calledAt now id) phase) := by
  obtain ⟨r₀, hr₀, hkey₀⟩ := (h.staged i).locked id hlocked
  have hid₀ : r₀.workflowID = id := Table.key_of_find? hr₀
  have hkeyed₀ := h.keyed r₀ (Table.mem_of_find? hr₀) hkey₀
  have hfields := bouncedRow_fields cfg i calledAt now id
  have hstores : Stores (cfg.call i) (bouncedRow cfg i calledAt now id r₀) := by
    rw [bouncedRow, if_pos hid₀]
    exact ⟨rfl, rfl⟩
  constructor
  case keyed =>
    intro r' hr' hkey
    obtain ⟨r, hr, rfl⟩ := mem_bounced cfg i calledAt now id hr'
    obtain ⟨hid, hdedup, hdebounced, hstatus, hname, hqueue⟩ := hfields r
    have hk := h.keyed r hr (hdedup ▸ hkey)
    refine ⟨hname.trans hk.name, hqueue.trans hk.queueName, hstatus.trans hk.delayed,
      hdebounced.trans hk.isDebounced, ownedBy_bouncedRow cfg i calledAt now id hk.owned, ?_, ?_⟩
    · obtain ⟨j, hj⟩ := hk.written
      exact ⟨j, hid ▸ List.mem_append_left _ hj⟩
    · exact fun hp => hk.waiting (promoted_of_append (hid ▸ hp))
  case unique =>
    intro r hr r' hr' hkey hkey'
    obtain ⟨x, hx, rfl⟩ := mem_bounced cfg i calledAt now id hr
    obtain ⟨x', hx', rfl⟩ := mem_bounced cfg i calledAt now id hr'
    rw [h.unique x hx x' hx' ((hfields x).2.1 ▸ hkey) ((hfields x').2.1 ▸ hkey')]
  case delayed =>
    intro r' hr' hdebounced hkey
    obtain ⟨r, hr, rfl⟩ := mem_bounced cfg i calledAt now id hr'
    exact (hfields r).2.2.2.1.trans
      (h.delayed r hr ((hfields r).2.2.1 ▸ hdebounced) ((hfields r).2.1 ▸ hkey))
  case events =>
    intro e he
    have hfound : s.table.find? e.workflowID ≠ none := by
      rcases List.mem_append.1 he with he | he
      · exact h.events e he
      · obtain rfl := List.mem_singleton.1 he
        simp [Event.workflowID, hr₀]
    rw [State.write, find?_bounced]
    simpa using hfound
  case inputs =>
    rintro r' hr' ⟨j, hj⟩
    obtain ⟨r, hr, rfl⟩ := mem_bounced cfg i calledAt now id hr'
    rw [(hfields r).1] at hj ⊢
    by_cases hid : r.workflowID = id
    · have hsame : r = r₀ := Table.eq_of_find? hr₀ hr hid
      subst hsame
      refine ⟨i, ?_, hstores⟩
      have hwaiting := hkeyed₀.waiting
      rw [hid] at hwaiting ⊢
      exact inputOf_wrote i hwaiting
    · obtain ⟨k, hk, hstored⟩ := h.inputs r hr ⟨j, wrote_of_append hid hj⟩
      refine ⟨k, (inputOf_append (writer_of_ne hid)).trans hk, ?_⟩
      rwa [bouncedRow, if_neg hid]
  case staged =>
    have hfind : ∀ {id' r}, s.table.find? id' = some r →
        (bounced cfg s.table i calledAt now id).find? id' = some (bouncedRow cfg i calledAt now id r) := by
      intro id' r hr
      rw [find?_bounced, hr, Option.map_some]
    refine h.staged_write hphase (hfind hr₀) ((hfields r₀).2.2.2.1.trans hkeyed₀.delayed) hstores
      (fun id' r hr hkey => ⟨_, hfind hr, (hfields r).2.1.trans hkey⟩) fun j _ => ?_
    -- a call has an uncommitted row only while nobody holds the key
    cases hid' : (s.stage j).inserted? with
    | none => rfl
    | some id' => exact (((h.staged j).inserted id' hid').2.2 r₀ (Table.mem_of_find? hr₀) hkey₀).elim

/-! ### The commit of an enqueue -/

theorem Inv.enqueue (h : Inv cfg s) {i : Fin n} {id : String} {clock : Clock} {phase : Phase}
    (hinserted : (s.stage i).inserted? = some id) (hphase : ∀ id', phase.handle? = some id' → id' = id) :
    Inv cfg (s.write i id (s.table.insert ((cfg.call i).row cfg.appName id clock)) phase) := by
  obtain ⟨hnew, hothers, hfree⟩ := (h.staged i).inserted id hinserted
  obtain ⟨hqueue, hdedup⟩ := (cfg.call i).slot_row cfg.appName id clock
  rw [cfg.queueName_call] at hqueue
  rw [cfg.deduplicationID_call] at hdedup
  set row := (cfg.call i).row cfg.appName id clock with hrow
  have hid : row.workflowID = id := rfl
  have hunknown : ∀ e ∈ s.events, e.workflowID ≠ id := by
    intro e he heq
    exact h.events e he (heq ▸ hnew)
  have howned : row.ownedBy cfg.appName = true := by
    simp only [hrow, Call.row, InsertWorkflowStatusInput.row, Call.enqueueInput, WorkflowRow.ownedBy,
      ownerOf, if_true]
    split_ifs with happ <;> simp
  have hmem : ∀ r ∈ (s.table.insert row).rows, r ∈ s.table.rows ∧ r.workflowID ≠ id ∨ r = row := by
    intro r hr
    refine (Table.mem_of_mem_insert hr).imp_left fun hold => ⟨hold, ?_⟩
    exact Table.find?_eq_none.1 hnew r hold
  have hfind : (s.table.insert row).find? id = some row := by
    rw [Table.find?_insert]
    simp [hid, hnew]
  constructor
  case keyed =>
    intro r hr hkey
    rcases hmem r hr with ⟨hold, -⟩ | rfl
    · exact (hfree r hold hkey).elim
    · refine ⟨cfg.name_call i, hqueue, rfl, rfl, howned, ⟨i, by simp [State.write, hid]⟩, fun hp => ?_⟩
      exact hunknown _ (promoted_of_append hp) rfl
  case unique =>
    intro r hr r' hr' hkey hkey'
    rcases hmem r hr with ⟨hold, -⟩ | rfl
    · exact (hfree r hold hkey).elim
    · rcases hmem r' hr' with ⟨hold, -⟩ | rfl
      · exact (hfree r' hold hkey').elim
      · rfl
  case delayed =>
    intro r hr hdebounced hkey
    rcases hmem r hr with ⟨hold, -⟩ | rfl
    · exact h.delayed r hold hdebounced hkey
    · rfl
  case events =>
    intro e he
    rcases List.mem_append.1 he with he | he
    · have hne : row.workflowID ≠ e.workflowID := fun heq => hunknown e he (heq.symm.trans hid)
      rw [State.write, Table.find?_insert, if_neg hne, Option.or_none]
      exact h.events e he
    · obtain rfl := List.mem_singleton.1 he
      rw [State.write, Event.workflowID, hfind]
      simp
  case inputs =>
    rintro r hr ⟨j, hj⟩
    rcases hmem r hr with ⟨hold, hne⟩ | rfl
    · obtain ⟨k, hk, hstored⟩ := h.inputs r hold ⟨j, wrote_of_append hne hj⟩
      exact ⟨k, (inputOf_append (writer_of_ne hne)).trans hk, hstored⟩
    · exact ⟨i, inputOf_wrote i fun hp => hunknown _ hp rfl, rfl, rfl⟩
  case staged =>
    exact h.staged_write hphase hfind rfl ⟨rfl, rfl⟩
      (fun id' r hr hkey => (hfree r (Table.mem_of_find? hr) hkey).elim) hothers

/-! ### The statements of others -/

section Others

variable {statement : Statement} {t : StatusTable}

theorem mem_apply (ht : statement.apply s.table = some t) {r' : WorkflowRow} (hr' : r' ∈ t.rows) :
    ∃ r ∈ s.table.rows, statement.onRow r = r' := by
  have hfound := Table.find?_of_mem hr'
  rw [(find?_apply ht _).1, Option.map_eq_some_iff] at hfound
  obtain ⟨r, hr, rfl⟩ := hfound
  exact ⟨r, Table.mem_of_find? hr, rfl⟩

theorem released_of_mem_promotions {id : String} (hid : id ∈ statement.promotions s.table) :
    ∃ r ∈ s.table.rows, r.workflowID = id ∧
      (r.isDebounced = true → (statement.onRow r).deduplicationID = none) := by
  cases statement with
  | operation op => cases hid
  | transitionDelayedWorkflows ids appName now =>
    obtain ⟨r, hr, rfl⟩ := List.mem_map.1 hid
    obtain ⟨hr, htakes⟩ := List.mem_filter.1 hr
    refine ⟨r, hr, rfl, fun hdebounced => ?_⟩
    simp [Statement.onRow, htakes, WorkflowRow.promote, hdebounced]

theorem writer_promoted {ids : List String} {id : String} :
    ∀ e ∈ ids.map (Event.promoted (n := n)), e.writer id = none := by
  intro e he
  obtain ⟨_, -, rfl⟩ := List.mem_map.1 he
  rfl

theorem wrote_of_promoted {i : Fin n} {id : String} {events : List (Event n)} {ids : List String}
    (h : Event.wrote i id ∈ events ++ ids.map .promoted) : Event.wrote i id ∈ events := by
  simpa using h

/-- The row that holds the key after a statement of others held it before, and is as well known. -/
theorem Keyed.kept {events : List (Event n)} {r r' : WorkflowRow} (hk : Keyed cfg events r) (hkept : Kept r r')
    (hkey : r'.deduplicationID = some cfg.deduplicationID) {ids : List String} (hids : r.workflowID ∉ ids) :
    Keyed cfg (events ++ ids.map .promoted) r' := by
  obtain ⟨hdelayed, hqueue, hname, happ⟩ := hkept.delayed hk.isDebounced hk.delayed (by rw [hkey]; rfl)
  refine ⟨hname.trans hk.name, hqueue.trans hk.queueName, hdelayed,
    hkept.isDebounced.trans hk.isDebounced, ?_, ?_, fun hp => ?_⟩
  · rw [WorkflowRow.ownedBy, happ]
    exact hk.owned
  · obtain ⟨i, hi⟩ := hk.written
    exact ⟨i, hkept.workflowID ▸ List.mem_append_left _ hi⟩
  · rw [hkept.workflowID] at hp
    rcases List.mem_append.1 hp with hp | hp
    · exact hk.waiting hp
    · obtain ⟨id, hid, heq⟩ := List.mem_map.1 hp
      exact hids (Event.promoted.inj heq ▸ hid)

theorem Inv.others (h : Inv cfg s)
    (hpasses : s.Passes statement) (ht : statement.apply s.table = some t) :
    Inv cfg { s with
      table := t, events := s.events ++ (statement.promotions s.table).map .promoted } := by
  have hfind : ∀ id, t.find? id = (s.table.find? id).map statement.onRow := fun id => (find?_apply ht id).1
  have hkept : ∀ r, Kept r (statement.onRow r) := (find?_apply ht "").2
  constructor
  case keyed =>
    intro r' hr' hkey
    obtain ⟨r, hr, rfl⟩ := mem_apply ht hr'
    have hk := h.keyed r hr ((hkept r).key _ hkey)
    refine hk.kept (hkept r) hkey fun hid => ?_
    obtain ⟨x, hx, hxid, hreleased⟩ := released_of_mem_promotions hid
    have hsame : x = r := Table.eq_of_key_eq hr hx hxid
    rw [← hsame, hreleased (hsame ▸ hk.isDebounced)] at hkey
    cases hkey
  case unique =>
    intro r hr r' hr' hkey hkey'
    obtain ⟨x, hx, rfl⟩ := mem_apply ht hr
    obtain ⟨x', hx', rfl⟩ := mem_apply ht hr'
    rw [h.unique x hx x' hx' ((hkept x).key _ hkey) ((hkept x').key _ hkey')]
  case delayed =>
    intro r' hr' hdebounced hkey
    obtain ⟨r, hr, rfl⟩ := mem_apply ht hr'
    obtain ⟨id, hid⟩ := Option.isSome_iff_exists.1 hkey
    have hdebounced' : r.isDebounced = true := (hkept r).isDebounced ▸ hdebounced
    have hdelayed := h.delayed r hr hdebounced' (by rw [(hkept r).key id hid]; rfl)
    exact ((hkept r).delayed hdebounced' hdelayed hkey).1
  case events =>
    intro e he
    have hfound : s.table.find? e.workflowID ≠ none := by
      rcases List.mem_append.1 he with he | he
      · exact h.events e he
      · obtain ⟨id, hid, rfl⟩ := List.mem_map.1 he
        obtain ⟨r, hr, hrid, -⟩ := released_of_mem_promotions hid
        rw [Event.workflowID, ← hrid, Table.find?_of_mem hr]
        simp
    simpa [hfind] using hfound
  case inputs =>
    rintro r' hr' ⟨i, hi⟩
    obtain ⟨r, hr, rfl⟩ := mem_apply ht hr'
    rw [(hkept r).workflowID] at hi ⊢
    obtain ⟨k, hk, hstored⟩ := h.inputs r hr ⟨i, wrote_of_promoted hi⟩
    refine ⟨k, (inputOf_append writer_promoted).trans hk, ?_, ?_⟩
    · exact (hkept r).inputs.trans hstored.1
    · exact (hkept r).serialization.trans hstored.2
  case staged =>
    intro i
    refine ⟨fun id hid => ?_, fun id hid => ?_, (h.staged i).handle⟩
    · -- the statement has passed, so the locked row is as it was
      obtain ⟨r, hr, hkey⟩ := (h.staged i).locked id hid
      have hsame := hpasses i
      rw [show (s.stage i).locked? = some id from hid] at hsame
      simp only [State.leaves, hr, Option.all_some, decide_eq_true_eq] at hsame
      exact ⟨r, by rw [hfind, hr, Option.map_some, hsame], hkey⟩
    · obtain ⟨hnew, hothers, hfree⟩ := (h.staged i).inserted id hid
      refine ⟨by rw [hfind, hnew]; rfl, hothers, fun r' hr' hkey => ?_⟩
      obtain ⟨r, hr, rfl⟩ := mem_apply ht hr'
      exact hfree r hr ((hkept r).key _ hkey)

end Others

theorem inv_of_reaches {C : State n → Action n → Prop} (h : Reaches (system cfg) C s) : Inv cfg s := by
  refine h.invariant (I := Inv cfg) (fun _ => inv_init) fun s a t hI _ hstep => ?_
  cases moves_of_step hstep with
  | goTo i stage hhandle hlocked hinserted => exact hI.goTo hhandle hlocked hinserted
  | bounce i calledAt now id phase hlocked hphase => exact hI.bounce hlocked hphase
  | enqueue i id clock phase hinserted hphase => exact hI.enqueue hinserted hphase
  | others statement t hpasses happly => exact hI.others hpasses happly

/-! ### A call that nobody disturbs -/

def bounceOnce (i : Fin n) (calledAt now : Int) : List (Action n) :=
  [.scan i calledAt, .update i now, .commit i .acknowledged]

def bounceAndEnqueue (i : Fin n) (calledAt now : Int) (id : String) (clock : Clock) : List (Action n) :=
  [.scan i calledAt, .update i now, .select i, .insert i id clock, .commit i .acknowledged]

section Quiet

variable {i : Fin n} {calledAt now : Int}

theorem Keyed.debounceable {events : List (Event n)} {r : WorkflowRow} (h : Keyed cfg events r)
    (hkey : r.deduplicationID = some cfg.deduplicationID) (i : Fin n) (calledAt : Int) :
    StatusTable.debounceable ((cfg.call i).bounceInput calledAt) cfg.appName r = true := by
  simp [StatusTable.debounceable, Call.bounceInput, cfg.name_call, cfg.queueName_call,
    cfg.deduplicationID_call, h.name, h.queueName, hkey, h.delayed, h.isDebounced, h.owned]

theorem key_of_debounceable {r : WorkflowRow}
    (h : StatusTable.debounceable ((cfg.call i).bounceInput calledAt) cfg.appName r = true) :
    r.deduplicationID = some cfg.deduplicationID := by
  have hholds := holds_of_debounceable h
  simp only [holds, Call.bounceInput, cfg.deduplicationID_call, Bool.and_eq_true,
    decide_eq_true_eq] at hholds
  exact hholds.2

theorem locked?_of_isBetween {stage : Stage} (h : stage.isBetween = true) : stage.locked? = none := by
  cases stage <;> first | rfl | cases h

theorem inserted?_of_isBetween {stage : Stage} (h : stage.isBetween = true) : stage.inserted? = none := by
  cases stage <;> first | rfl | cases h

/-- While a row holds the key, one bounce is enough. -/
theorem Inv.exec_bounceOnce (h : Inv cfg s) (hi : s.stage i = .between .bouncing)
    (hquiet : ∀ j, (s.stage j).isBetween = true) {r : WorkflowRow} (hr : r ∈ s.table.rows)
    (hkey : r.deduplicationID = some cfg.deduplicationID) :
    ∃ u, exec (system cfg) s (bounceOnce i calledAt now) = some u ∧ (u.stage i).isReturned = true := by
  have hd := (h.keyed r hr hkey).debounceable hkey i calledAt
  have hcandidate : candidate cfg s.table i calledAt = some r.workflowID := by
    obtain ⟨x, hx⟩ := Option.isSome_iff_exists.1 (List.find?_isSome.2 ⟨r, hr, hd⟩)
    have hsame : x = r :=
      h.unique x (List.mem_of_find?_eq_some hx) r hr (key_of_debounceable (List.find?_some hx)) hkey
    rw [candidate, hx, hsame]
    rfl
  have hscan : (system cfg).step s (.scan i calledAt) = some (s.goTo i (.scanned calledAt (some r.workflowID))) := by
    simp only [system, step, hi, hcandidate]
  generalize hu : s.goTo i (.scanned calledAt (some r.workflowID)) = u at hscan
  have hscanned : u.stage i = .scanned calledAt (some r.workflowID) := by rw [← hu, State.stage_goTo_self]
  have hunlocked : u.Unlocked i r.workflowID := by
    intro j hj
    rw [← hu, State.stage_goTo_of_ne s _ hj, locked?_of_isBetween (hquiet j)]
    simp
  have hmatch : (u.table.find? r.workflowID).any
      (StatusTable.debounceable ((cfg.call i).bounceInput calledAt) cfg.appName) = true := by
    rw [← hu, State.goTo, Table.find?_of_mem hr]
    exact hd
  have hupdate : (system cfg).step u (.update i now) = some (u.goTo i (.updated calledAt now r.workflowID)) := by
    simp only [system, step, hscanned]
    rw [if_pos hunlocked, if_pos hmatch]
  have hcommit : (system cfg).step (u.goTo i (.updated calledAt now r.workflowID)) (.commit i .acknowledged) =
      some ((u.goTo i (.updated calledAt now r.workflowID)).write i r.workflowID
        (bounced cfg u.table i calledAt now r.workflowID) (.returned (.ok r.workflowID))) := by
    simp only [system, step, State.stage_goTo_self]
    rfl
  have hexec := (exec_cons hscan).trans ((exec_cons hupdate).trans (exec_singleton hcommit))
  exact ⟨_, hexec, by rw [State.stage_write_self]; rfl⟩

/-- While nobody holds the key, one bounce finds so, and one enqueue follows. -/
theorem Inv.exec_bounceAndEnqueue (hi : s.stage i = .between .bouncing)
    (hquiet : ∀ j, (s.stage j).isBetween = true)
    (hfree : ∀ r ∈ s.table.rows, r.deduplicationID ≠ some cfg.deduplicationID) {id : String} (clock : Clock)
    (hnew : s.table.find? id = none) :
    ∃ as u, as <+: bounceAndEnqueue i calledAt now id clock ∧ exec (system cfg) s as = some u ∧
      (u.stage i).isReturned = true := by
  have hholds : s.table.rows.find? (holds cfg.queueName cfg.deduplicationID) = none := by
    refine List.find?_eq_none.2 fun r hr h => ?_
    simp only [holds, Bool.and_eq_true, decide_eq_true_eq] at h
    exact hfree r hr h.2
  have hcandidate : candidate cfg s.table i calledAt = none := by
    rw [candidate, Option.map_eq_none_iff]
    exact List.find?_eq_none.2 fun r hr hd => hfree r hr (key_of_debounceable hd)
  have hafter : afterBounce (cfg.call i) cfg.appName (noBounce cfg s.table) = .enqueueing := by
    simp only [afterBounce, noBounce, hholds, Option.map_none, classifyBounce]
  -- up to the `INSERT` nothing depends on the name of the workflow
  obtain ⟨u, hexec, hstage, htable, hothers⟩ : ∃ u : State n,
      exec (system cfg) s [.scan i calledAt, .update i now, .select i] = some u ∧
      u.stage i = .between .enqueueing ∧ u.table = s.table ∧ u.Uncontended i := by
    simp only [exec, system, step, hi, hcandidate, Option.bind_some, State.stage_goTo_self]
    refine ⟨_, rfl, ?_, rfl, fun j hj => ?_⟩
    · rw [State.stage_goTo_self]
      exact congrArg Stage.between hafter
    · simp only [State.stage_goTo_of_ne _ _ hj]
      exact inserted?_of_isBetween (hquiet j)
  have hinsert : (system cfg).step u (.insert i id clock) = some (u.goTo i
      (afterInsert id clock (Debounce.enqueue (cfg.call i) cfg.appName id clock s.table).2)) := by
    simp only [system, step, hstage]
    rw [if_pos ⟨htable ▸ hnew, hothers⟩, htable]
  by_cases hname : (cfg.call i).debouncer.workflowName = ""
  · -- a call without a workflow name is refused
    rw [Debounce.enqueue, if_pos hname] at hinsert
    have hlast := (exec_append hexec).trans (exec_singleton hinsert)
    exact ⟨_, _, ⟨[.commit i .acknowledged], rfl⟩, hlast, by rw [State.stage_goTo_self]; rfl⟩
  · have hfree' : s.table.rows.find? (holds (cfg.call i).queueName (cfg.call i).deduplicationID) = none := by
      rw [cfg.queueName_call, cfg.deduplicationID_call]
      exact hholds
    rw [enqueue_of_free hname hnew hfree', afterInsert] at hinsert
    have hcommit : (system cfg).step (u.goTo i (.inserted id clock)) (.commit i .acknowledged) =
        some ((u.goTo i (.inserted id clock)).write i id
          (u.table.insert ((cfg.call i).row cfg.appName id clock)) (.returned (.ok id))) := by
      simp only [system, step, State.stage_goTo_self]
      rfl
    have hlast := (exec_append hexec).trans ((exec_cons hinsert).trans (exec_singleton hcommit))
    exact ⟨_, _, ⟨[], rfl⟩, hlast, by rw [State.stage_write_self]; rfl⟩

end Quiet

/-! ### All calls coalesce -/

structure Coalesced (cfg : Config n) (s : State n) : Prop where
  one : ∀ r ∈ s.table.rows, ∀ r' ∈ s.table.rows, holds cfg.queueName cfg.deduplicationID r = true →
    holds cfg.queueName cfg.deduplicationID r' = true → r = r'
  delayed : ∀ r ∈ s.table.rows, r.isDebounced = true → r.deduplicationID.isSome = true → r.status = .delayed
  handle : ∀ i id, (s.stage i).handle? = some id →
    ∃ r, s.last i = some r ∧ r.workflowID = id ∧ r.status = .delayed ∧ Stores (cfg.call i) r
  input : ∀ i id, Event.wrote i id ∈ s.events →
    ∃ r j, s.table.find? id = some r ∧ inputOf id s.events = some j ∧ Stores (cfg.call j) r
  quiet : ∀ i, s.stage i = .between .bouncing → (∀ j, (s.stage j).isBetween = true) →
    ∀ calledAt now id clock, s.table.find? id = none → ∃ as u,
      (as <+: bounceOnce i calledAt now ∨ as <+: bounceAndEnqueue i calledAt now id clock) ∧
        exec (system cfg) s as = some u ∧ (u.stage i).isReturned = true

/-- **Debounced calls coalesce**, in any number and in any interleaving. -/
theorem debounce_coalesces (cfg : Config n) {s : State n} (h : Reaches (system cfg) (fun _ _ => True) s) :
    Coalesced cfg s := by
  have hI := inv_of_reaches h
  have hkey : ∀ {r : WorkflowRow}, holds cfg.queueName cfg.deduplicationID r = true →
      r.deduplicationID = some cfg.deduplicationID := by
    intro r hr
    simp only [holds, Bool.and_eq_true, decide_eq_true_eq] at hr
    exact hr.2
  refine ⟨fun r hr r' hr' hh hh' => hI.unique r hr r' hr' (hkey hh) (hkey hh'), hI.delayed,
    fun i => (hI.staged i).handle, fun i id hwrote => ?_, fun i hi hquiet calledAt now id clock hnew => ?_⟩
  · obtain ⟨r, hr⟩ := Option.ne_none_iff_exists'.1 (hI.events _ hwrote)
    have hid : r.workflowID = id := Table.key_of_find? hr
    obtain ⟨j, hj, hstored⟩ := hI.inputs r (Table.mem_of_find? hr) ⟨i, hid ▸ hwrote⟩
    exact ⟨r, j, hr, hid ▸ hj, hstored⟩
  · by_cases hheld : ∃ r ∈ s.table.rows, r.deduplicationID = some cfg.deduplicationID
    · obtain ⟨r, hr, hkeyed⟩ := hheld
      obtain ⟨u, hexec, hreturned⟩ := hI.exec_bounceOnce hi hquiet hr hkeyed
      exact ⟨_, u, .inl (List.prefix_refl _), hexec, hreturned⟩
    · have hfree : ∀ r ∈ s.table.rows, r.deduplicationID ≠ some cfg.deduplicationID :=
        fun r hr hkeyed => hheld ⟨r, hr, hkeyed⟩
      obtain ⟨as, u, hprefix, hexec, hreturned⟩ := Inv.exec_bounceAndEnqueue hi hquiet hfree clock hnew
      exact ⟨as, u, .inr hprefix, hexec, hreturned⟩

/-! ### Two calls that race for a free key -/

/-- Two calls with the inputs `1` and `2`. -/
def twoCalls : Config 2 where
  appName := "app"
  workflowName := "a"
  queueName := "q"
  deduplicationID := "a-k"
  call i := {
    debouncer := { workflowName := "a", queueName := "q" }, key := "k", delay := 5,
    inputs := some (if i.val = 0 then "1" else "2") }
  name_call _ := rfl
  queueName_call _ := rfl
  deduplicationID_call _ := rfl

def twoCallsStart : State 2 := ⟨.empty, fun _ => .between .bouncing, [], fun _ => none⟩

/-- Both calls find the key free; the second one to insert bounces the workflow of the first, which is
then promoted. -/
def twoCallsRun (first second : Fin 2) : List (Action 2) :=
  [.scan first 0, .scan second 0, .update first 0, .update second 0, .select first, .select second,
    .insert first "w" ⟨1, 1, 1, 1⟩, .commit first .acknowledged, .insert second "x" ⟨2, 2, 2, 2⟩,
    .scan second 3, .update second 3, .commit second .acknowledged,
    .others (.transitionDelayedWorkflows ["w"] "app" 10)]

theorem debounce_coalesces_twoCalls :
    ∃ s, Reaches (system twoCalls) (fun _ _ => True) s ∧
      (∀ i, (s.stage i).handle? = some "w") ∧
      (s.table.find? "w").any (fun r => r.status = .enqueued && r.inputs = some "2") = true ∧
      Coalesced twoCalls s := by
  obtain ⟨s, hs, hp⟩ := exists_reaches (S := system twoCalls) (fun _ _ => True) (s := twoCallsStart)
    (twoCallsRun 0 1)
    (fun s => (∀ i, (s.stage i).handle? = some "w") &&
      (s.table.find? "w").any (fun r => r.status = .enqueued && r.inputs = some "2"))
    ⟨by decide, by decide, fun _ => rfl, rfl, rfl⟩ (fun _ _ => trivial) (by decide +kernel)
  rw [Bool.and_eq_true, decide_eq_true_eq] at hp
  exact ⟨s, hs, hp.1, hp.2, debounce_coalesces twoCalls hs⟩

end Invariant

end Coalesce

end Dbos
