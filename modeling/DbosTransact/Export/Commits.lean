import DbosTransact.Lib.Transition
import DbosTransact.SysDb.Operations
import DbosTransact.SysDb.Streams
import DbosTransact.SysDb.Waiters

/-!
# The tables of an export, and what is committed to them

A transactional step commits its stream entries and events together with its checkpoint, and only if there
is no checkpoint yet; a step whose function fails commits the checkpoint alone. Beside the steps of all
workflows there are the writes to `workflow_status`, of any kind.
-/

namespace Dbos.Export

open Relational Lts

/-- The system database with the table `streams`. -/
structure ExportDb extends Db where
  streams : StreamTable

inductive StepWrite
  | writeStream (input : WriteStreamInput)
  | setEvent (input : SetEventInput) (now : Int)
  deriving DecidableEq, Repr

namespace StepWrite

def workflowID : StepWrite → String
  | .writeStream input => input.workflowID
  | .setEvent input _ => input.workflowID

def stepID : StepWrite → Int
  | .writeStream input => input.stepID
  | .setEvent input _ => input.stepID

/-- The write is one to `streams`. -/
def isStream : StepWrite → Bool
  | .writeStream _ => true
  | .setEvent .. => false

/-- `WriteStream`, which fails on a closed stream, and `SetEvent` with its wake-up. -/
def apply : StepWrite → ExportDb → Option ExportDb
  | .writeStream i, d =>
    if d.streams.isClosed i.workflowID i.key then none
    else some { d with streams := d.streams.insert (i.row (d.streams.nextOffset i.workflowID i.key)) }
  | .setEvent i now, d =>
    let db := Write.apply (.upsertEventHistory i.history) (Write.apply (.upsertEvent i.event) d.toDb)
    some { d with toDb := Write.apply (.wake (db.delayedWaiters i.workflowID) now) db }

end StepWrite

/-- What a transactional step commits: its checkpoint and the writes of its function, made for the
step itself. -/
structure Step where
  checkpoint : OperationRow
  writes : List StepWrite
  own : ∀ w ∈ writes, w.workflowID = checkpoint.workflowID ∧ w.stepID = checkpoint.functionID

/-- A commit: of a step, or of a statement that inserts or updates a row of `workflow_status`. -/
inductive Commit
  | step (s : Step)
  | status (row : WorkflowRow)

def executeWrites : List StepWrite → ExportDb → Option ExportDb
  | [], d => some d
  | w :: ws, d => (w.apply d).bind (executeWrites ws)

def Commit.apply : Commit → ExportDb → Option ExportDb
  | .step s, d =>
    if (d.operation? s.checkpoint.workflowID s.checkpoint.functionID).isSome then none
    else (executeWrites s.writes d).map fun d => { d with operations := d.operations.insert s.checkpoint }
  | .status row, d =>
    some { d with status := d.status.upsert (fun r => { row with workflowID := r.workflowID }) (fun _ => rfl) row }

def system : System ExportDb Commit where
  init d := d.streams.rows = [] ∧ d.eventsHistory.rows = []
  step d c := c.apply d

namespace ExportDb

variable (d : ExportDb) (workflowID : String)

/-- `operationOutputs` of the export. -/
def operationsOf : List OperationRow := d.operations.rows.filter (·.workflowID = workflowID)

/-- `workflowEvents` of the export. -/
def eventsOf : List EventRow := d.events.rows.filter (·.workflowID = workflowID)

/-- `workflowEventsHistory` of the export. -/
def historyOf : List EventHistoryRow := d.eventsHistory.rows.filter (·.workflowID = workflowID)

/-- `streams` of the export. -/
def streamsOf : List StreamRow := d.streams.rows.filter (·.workflowID = workflowID)

def HasStream (f : Int) : Prop := ∃ r ∈ d.streamsOf workflowID, r.functionID = f

def HasEvent (f : Int) : Prop := ∃ h ∈ d.historyOf workflowID, (h.functionID : Int) = f

def HasCheckpoint (f : Int) : Prop := ∃ o ∈ d.operationsOf workflowID, o.functionID = f

end ExportDb

variable {d d' : ExportDb} {workflowID : String}

theorem mem_operationsOf {o : OperationRow} :
    o ∈ d.operationsOf workflowID ↔ o ∈ d.operations.rows ∧ o.workflowID = workflowID := by
  simp [ExportDb.operationsOf]

theorem mem_historyOf {h : EventHistoryRow} :
    h ∈ d.historyOf workflowID ↔ h ∈ d.eventsHistory.rows ∧ h.workflowID = workflowID := by
  simp [ExportDb.historyOf]

theorem mem_streamsOf {r : StreamRow} :
    r ∈ d.streamsOf workflowID ↔ r ∈ d.streams.rows ∧ r.workflowID = workflowID := by
  simp [ExportDb.streamsOf]

theorem operation?_eq_none {f : Int} : d.operation? workflowID f = none ↔ ¬ d.HasCheckpoint workflowID f := by
  simp only [Db.operation?, Table.find?_eq_none, ExportDb.HasCheckpoint, mem_operationsOf, not_exists, not_and,
    and_imp, ne_eq, Prod.mk.injEq]

theorem hasEvent_iff_find? {f : Int} :
    d.HasEvent workflowID f ↔
      ∃ (n : Nat) (key : String), (n : Int) = f ∧ (d.eventsHistory.find? (workflowID, n, key)).isSome = true := by
  simp only [ExportDb.HasEvent, mem_historyOf]
  constructor
  · rintro ⟨h, ⟨hmem, rfl⟩, rfl⟩
    exact ⟨h.functionID, h.key, rfl, by rw [Table.find?_of_mem hmem]; rfl⟩
  · rintro ⟨n, key, rfl, hsome⟩
    obtain ⟨h, hh⟩ := Option.isSome_iff_exists.1 hsome
    have hkey := Table.key_of_find? hh
    simp only [Prod.mk.injEq] at hkey
    exact ⟨h, ⟨Table.mem_of_find? hh, hkey.1⟩, by rw [hkey.2.1]⟩

theorem find?_nextOffset (t : StreamTable) (i : WriteStreamInput) :
    t.find? (i.workflowID, i.key, t.nextOffset i.workflowID i.key) = none := by
  refine Table.find?_eq_none.2 fun r hr hkey => ?_
  obtain ⟨hw, hk, ho⟩ : r.workflowID = i.workflowID ∧ r.key = i.key ∧
      r.offset = t.nextOffset i.workflowID i.key := by simpa using hkey
  have hmem : r.offset ∈ (t.stream i.workflowID i.key).map (·.offset) :=
    List.mem_map.2 ⟨r, by simp [StreamTable.stream, hr, hw, hk], rfl⟩
  obtain ⟨m, hm⟩ := Option.isSome_iff_exists.1 (List.isSome_max?_of_mem hmem)
  have hle : r.offset ≤ m := (List.max?_eq_some_iff.1 hm).2 _ hmem
  simp only [StreamTable.nextOffset, hm, Option.getD_some] at ho
  omega

theorem rows_writeStream (t : StreamTable) (i : WriteStreamInput) :
    (t.insert (i.row (t.nextOffset i.workflowID i.key))).rows =
      t.rows ++ [i.row (t.nextOffset i.workflowID i.key)] :=
  (Table.rows_insert _ _).trans (if_pos (find?_nextOffset t i))

section Write

variable {w : StepWrite}

theorem eq_of_writeStream {i : WriteStreamInput} (h : (StepWrite.writeStream i).apply d = some d') :
    d' = { d with streams := d.streams.insert (i.row (d.streams.nextOffset i.workflowID i.key)) } := by
  simp only [StepWrite.apply] at h
  split_ifs at h
  exact (Option.some.inj h).symm

theorem operations_of_write (h : w.apply d = some d') : d'.operations = d.operations := by
  cases w with
  | writeStream i =>
    obtain rfl := eq_of_writeStream h
    rfl
  | setEvent i now =>
    cases h
    rfl

theorem filter_streams_of_write {p : StreamRow → Bool} (h : w.apply d = some d')
    (hp : w.isStream = true → ∀ r, r.workflowID = w.workflowID → r.functionID = w.stepID → p r = false) :
    d'.streams.rows.filter p = d.streams.rows.filter p := by
  cases w with
  | writeStream i =>
    obtain rfl := eq_of_writeStream h
    show (d.streams.insert _).rows.filter p = _
    rw [rows_writeStream, List.filter_append, List.filter_singleton, hp rfl _ rfl rfl]
    simp
  | setEvent i now =>
    cases h
    rfl

theorem filter_history_of_write {p : EventHistoryRow → Bool} (h : w.apply d = some d')
    (hp : w.isStream = false →
      ∀ r : EventHistoryRow, r.workflowID = w.workflowID → (r.functionID : Int) = w.stepID → p r = false) :
    d'.eventsHistory.rows.filter p = d.eventsHistory.rows.filter p := by
  cases w with
  | writeStream i =>
    obtain rfl := eq_of_writeStream h
    rfl
  | setEvent i now =>
    cases h
    refine Table.filter_upsert_of_key _ fun r hr => ?_
    obtain ⟨hw, hf, -⟩ : r.workflowID = i.workflowID ∧ r.functionID = i.stepID ∧ r.key = i.key := by
      simpa [SetEventInput.history] using hr
    exact hp rfl r hw (congrArg Int.ofNat hf)

theorem eventsOf_of_write (h : w.apply d = some d')
    (hw : w.isStream = false → w.workflowID ≠ workflowID) : d'.eventsOf workflowID = d.eventsOf workflowID := by
  cases w with
  | writeStream i =>
    obtain rfl := eq_of_writeStream h
    rfl
  | setEvent i now =>
    cases h
    refine Table.filter_upsert_of_key _ fun r hr => ?_
    have hr : r.workflowID = i.workflowID := congrArg Prod.fst hr
    exact decide_eq_false fun heq => hw rfl (hr.symm.trans heq)

theorem hasStream_of_write {f : Int} (h : w.apply d = some d') :
    d'.HasStream workflowID f ↔
      d.HasStream workflowID f ∨ w.isStream = true ∧ w.workflowID = workflowID ∧ w.stepID = f := by
  cases w with
  | writeStream i =>
    obtain rfl := eq_of_writeStream h
    simp only [ExportDb.HasStream, mem_streamsOf, StepWrite.isStream, StepWrite.workflowID, StepWrite.stepID,
      true_and, rows_writeStream, List.mem_append, List.mem_singleton, or_and_right, exists_or, and_assoc,
      exists_eq_left]
    rfl
  | setEvent i now =>
    cases h
    simp [ExportDb.HasStream, ExportDb.streamsOf, StepWrite.isStream]

theorem hasEvent_of_write {f : Int} (h : w.apply d = some d') :
    d'.HasEvent workflowID f ↔
      d.HasEvent workflowID f ∨ w.isStream = false ∧ w.workflowID = workflowID ∧ w.stepID = f := by
  cases w with
  | writeStream i =>
    obtain rfl := eq_of_writeStream h
    simp [ExportDb.HasEvent, ExportDb.historyOf, StepWrite.isStream]
  | setEvent i now =>
    cases h
    simp only [hasEvent_iff_find?, StepWrite.isStream, StepWrite.workflowID, StepWrite.stepID, true_and]
    show (∃ (n : Nat) (key : String), (n : Int) = f ∧
      ((d.eventsHistory.upsert _ _ i.history).find? (workflowID, n, key)).isSome = true) ↔ _
    simp only [Table.find?_upsert]
    constructor
    · rintro ⟨n, key, hn, hsome⟩
      split_ifs at hsome with hkey
      · simp only [SetEventInput.history, Prod.mk.injEq] at hkey
        exact .inr ⟨hkey.1, by rw [hkey.2.1, hn]⟩
      · exact .inl ⟨n, key, hn, hsome⟩
    · rintro (⟨n, key, hn, hsome⟩ | ⟨hw, hf⟩)
      · refine ⟨n, key, hn, ?_⟩
        split_ifs
        · rfl
        · exact hsome
      · exact ⟨i.stepID, i.key, hf, by simp [SetEventInput.history, hw]⟩

end Write

section Writes

variable {ws : List StepWrite}

theorem executeWrites_invariant {P : ExportDb → Prop} (hw : ∀ w ∈ ws, ∀ d d', w.apply d = some d' → P d → P d')
    (h : executeWrites ws d = some d') (hd : P d) : P d' := by
  induction ws generalizing d with
  | nil =>
    cases h
    exact hd
  | cons w ws ih =>
    obtain ⟨e, he, h⟩ := Option.bind_eq_some_iff.1 h
    exact ih (fun w' hw' => hw w' (.tail _ hw')) h (hw w List.mem_cons_self d e he hd)

theorem operations_of_writes (h : executeWrites ws d = some d') : d'.operations = d.operations :=
  executeWrites_invariant (P := fun e => e.operations = d.operations)
    (fun _ _ _ _ he hd => (operations_of_write he).trans hd) h rfl

theorem hasStream_of_writes {f : Int} (h : executeWrites ws d = some d') :
    d'.HasStream workflowID f ↔ d.HasStream workflowID f ∨
      ∃ w ∈ ws, w.isStream = true ∧ w.workflowID = workflowID ∧ w.stepID = f := by
  induction ws generalizing d with
  | nil =>
    cases h
    simp
  | cons w ws ih =>
    obtain ⟨e, he, h⟩ := Option.bind_eq_some_iff.1 h
    rw [ih h, hasStream_of_write he, or_assoc, List.exists_mem_cons_iff]

theorem hasEvent_of_writes {f : Int} (h : executeWrites ws d = some d') :
    d'.HasEvent workflowID f ↔ d.HasEvent workflowID f ∨
      ∃ w ∈ ws, w.isStream = false ∧ w.workflowID = workflowID ∧ w.stepID = f := by
  induction ws generalizing d with
  | nil =>
    cases h
    simp
  | cons w ws ih =>
    obtain ⟨e, he, h⟩ := Option.bind_eq_some_iff.1 h
    rw [ih h, hasEvent_of_write he, or_assoc, List.exists_mem_cons_iff]

end Writes

def Commit.IsStep (workflowID : String) (f : Int) : Commit → Prop
  | .step s => s.checkpoint.workflowID = workflowID ∧ s.checkpoint.functionID = f
  | .status _ => False

/-- The commit is one of the given step, with a stream entry or with an event. -/
def Commit.Writes (stream : Bool) (workflowID : String) (f : Int) : Commit → Prop
  | .step s => s.checkpoint.workflowID = workflowID ∧ s.checkpoint.functionID = f ∧
      ∃ w ∈ s.writes, w.isStream = stream
  | .status _ => False

def Commit.checkpointsOf (workflowID : String) : Commit → List OperationRow
  | .step s => if s.checkpoint.workflowID = workflowID then [s.checkpoint] else []
  | .status _ => []

section Commit

variable {c : Commit}

theorem Commit.Writes.isStep {stream : Bool} {f : Int} (h : c.Writes stream workflowID f) :
    c.IsStep workflowID f := by
  cases c with
  | step s => exact ⟨h.1, h.2.1⟩
  | status row => exact h.elim

theorem checkpointsOf_eq_nil : c.checkpointsOf workflowID = [] ↔ ∀ f, ¬ c.IsStep workflowID f := by
  cases c with
  | step s =>
    by_cases hw : s.checkpoint.workflowID = workflowID
    · simp [Commit.checkpointsOf, Commit.IsStep, hw]
    · simp [Commit.checkpointsOf, Commit.IsStep, hw]
  | status row => simp [Commit.checkpointsOf, Commit.IsStep]

/-- What the commit of a step does: the writes, on a database without its checkpoint, and then that. -/
theorem exists_of_step {s : Step} (h : (Commit.step s).apply d = some d') :
    ¬ d.HasCheckpoint s.checkpoint.workflowID s.checkpoint.functionID ∧
      ∃ e, executeWrites s.writes d = some e ∧ e.operations = d.operations ∧
        d' = { e with operations := e.operations.insert s.checkpoint } := by
  simp only [Commit.apply] at h
  split_ifs at h with hfree
  obtain ⟨e, he, rfl⟩ := Option.map_eq_some_iff.1 h
  exact ⟨operation?_eq_none.1 (Option.not_isSome_iff_eq_none.1 hfree), e, he, operations_of_writes he, rfl⟩

theorem not_hasCheckpoint_of_isStep {f : Int} (h : c.apply d = some d') (hc : c.IsStep workflowID f) :
    ¬ d.HasCheckpoint workflowID f := by
  cases c with
  | step s =>
    obtain ⟨rfl, rfl⟩ := hc
    exact (exists_of_step h).1
  | status row => exact hc.elim

theorem operationsOf_of_commit (h : c.apply d = some d') :
    d'.operationsOf workflowID = d.operationsOf workflowID ++ c.checkpointsOf workflowID := by
  cases c with
  | step s =>
    obtain ⟨hfree, e, -, hop, rfl⟩ := exists_of_step h
    show (e.operations.insert s.checkpoint).rows.filter _ = _
    have hnone : d.operations.find? (s.checkpoint.workflowID, s.checkpoint.functionID) = none :=
      operation?_eq_none.2 hfree
    rw [hop, Table.rows_insert, if_pos hnone, List.filter_append, List.filter_singleton]
    by_cases hw : s.checkpoint.workflowID = workflowID <;> simp [Commit.checkpointsOf, ExportDb.operationsOf, hw]
  | status row =>
    cases h
    simp [Commit.checkpointsOf, ExportDb.operationsOf]

theorem filter_streams_of_commit {p : StreamRow → Bool} (h : c.apply d = some d')
    (hp : ∀ r, c.Writes true r.workflowID r.functionID → p r = false) :
    d'.streams.rows.filter p = d.streams.rows.filter p := by
  cases c with
  | step s =>
    obtain ⟨-, e, he, -, rfl⟩ := exists_of_step h
    show e.streams.rows.filter p = d.streams.rows.filter p
    refine executeWrites_invariant (P := fun e => e.streams.rows.filter p = d.streams.rows.filter p) ?_ he rfl
    intro w hw x x' hx hd
    refine (filter_streams_of_write hx fun hstream r hrw hrf => hp r ?_).trans hd
    obtain ⟨hown, hown'⟩ := s.own w hw
    exact ⟨(hrw.trans hown).symm, (hrf.trans hown').symm, w, hw, hstream⟩
  | status row =>
    cases h
    rfl

theorem filter_history_of_commit {p : EventHistoryRow → Bool} (h : c.apply d = some d')
    (hp : ∀ r : EventHistoryRow, c.Writes false r.workflowID r.functionID → p r = false) :
    d'.eventsHistory.rows.filter p = d.eventsHistory.rows.filter p := by
  cases c with
  | step s =>
    obtain ⟨-, e, he, -, rfl⟩ := exists_of_step h
    show e.eventsHistory.rows.filter p = d.eventsHistory.rows.filter p
    refine executeWrites_invariant
      (P := fun e => e.eventsHistory.rows.filter p = d.eventsHistory.rows.filter p) ?_ he rfl
    intro w hw x x' hx hd
    refine (filter_history_of_write hx fun hstream r hrw hrf => hp r ?_).trans hd
    obtain ⟨hown, hown'⟩ := s.own w hw
    exact ⟨(hrw.trans hown).symm, (hrf.trans hown').symm, w, hw, hstream⟩
  | status row =>
    cases h
    rfl

theorem eventsOf_of_commit (h : c.apply d = some d') (hc : ∀ f, ¬ c.Writes false workflowID f) :
    d'.eventsOf workflowID = d.eventsOf workflowID := by
  cases c with
  | step s =>
    obtain ⟨-, e, he, -, rfl⟩ := exists_of_step h
    show e.eventsOf workflowID = d.eventsOf workflowID
    refine executeWrites_invariant (P := fun e => e.eventsOf workflowID = d.eventsOf workflowID) ?_ he rfl
    intro w hw x x' hx hd
    refine (eventsOf_of_write hx fun hstream heq => hc _ ⟨?_, rfl, w, hw, hstream⟩).trans hd
    exact (s.own w hw).1.symm.trans heq
  | status row =>
    cases h
    rfl

theorem hasStream_of_commit {f : Int} (h : c.apply d = some d') :
    d'.HasStream workflowID f ↔ d.HasStream workflowID f ∨ c.Writes true workflowID f := by
  cases c with
  | step s =>
    obtain ⟨-, e, he, -, rfl⟩ := exists_of_step h
    refine (hasStream_of_writes he).trans (or_congr_right ?_)
    constructor
    · rintro ⟨w, hw, hstream, rfl, rfl⟩
      exact ⟨(s.own w hw).1.symm, (s.own w hw).2.symm, w, hw, hstream⟩
    · rintro ⟨rfl, rfl, w, hw, hstream⟩
      exact ⟨w, hw, hstream, s.own w hw⟩
  | status row =>
    cases h
    simp [Commit.Writes, ExportDb.HasStream, ExportDb.streamsOf]

theorem hasEvent_of_commit {f : Int} (h : c.apply d = some d') :
    d'.HasEvent workflowID f ↔ d.HasEvent workflowID f ∨ c.Writes false workflowID f := by
  cases c with
  | step s =>
    obtain ⟨-, e, he, -, rfl⟩ := exists_of_step h
    refine (hasEvent_of_writes he).trans (or_congr_right ?_)
    constructor
    · rintro ⟨w, hw, hstream, rfl, rfl⟩
      exact ⟨(s.own w hw).1.symm, (s.own w hw).2.symm, w, hw, hstream⟩
    · rintro ⟨rfl, rfl, w, hw, hstream⟩
      exact ⟨w, hw, hstream, s.own w hw⟩
  | status row =>
    cases h
    simp [Commit.Writes, ExportDb.HasEvent, ExportDb.historyOf]

theorem hasCheckpoint_of_commit {f : Int} (h : c.apply d = some d') :
    d'.HasCheckpoint workflowID f ↔ d.HasCheckpoint workflowID f ∨ c.IsStep workflowID f := by
  unfold ExportDb.HasCheckpoint
  rw [operationsOf_of_commit h]
  cases c with
  | step s =>
    by_cases hw : s.checkpoint.workflowID = workflowID
    · simp [Commit.checkpointsOf, Commit.IsStep, hw, or_and_right, exists_or]
    · simp [Commit.checkpointsOf, Commit.IsStep, hw]
  | status row => simp [Commit.checkpointsOf, Commit.IsStep]

end Commit

section Run

variable {cs : List Commit}

theorem operationsOf_of_exec (h : exec system d cs = some d') :
    d'.operationsOf workflowID = d.operationsOf workflowID ++ cs.flatMap (Commit.checkpointsOf workflowID) := by
  induction cs generalizing d with
  | nil =>
    cases h
    simp
  | cons c cs ih =>
    obtain ⟨e, he, h⟩ := Option.bind_eq_some_iff.1 h
    rw [ih h, operationsOf_of_commit he, List.append_assoc, List.flatMap_cons]

theorem not_isStep_of_operationsOf_eq (h : exec system d cs = some d')
    (heq : d'.operationsOf workflowID = d.operationsOf workflowID) : ∀ c ∈ cs, ∀ f, ¬ c.IsStep workflowID f := by
  rw [operationsOf_of_exec h, List.append_right_eq_self, List.flatMap_eq_nil_iff] at heq
  exact fun c hc => checkpointsOf_eq_nil.1 (heq c hc)

theorem hasCheckpoint_of_exec {f : Int} (h : exec system d cs = some d')
    (hd : d.HasCheckpoint workflowID f) : d'.HasCheckpoint workflowID f :=
  exec_invariant (P := fun e => e.HasCheckpoint workflowID f)
    (fun _ _ _ _ hc he => (hasCheckpoint_of_commit hc).2 (.inl he)) h hd

theorem not_isStep_of_hasCheckpoint {f : Int} (h : exec system d cs = some d')
    (hd : d.HasCheckpoint workflowID f) : ∀ c ∈ cs, ¬ c.IsStep workflowID f := by
  intro c hc hstep
  obtain ⟨before, after, rfl⟩ := List.append_of_mem hc
  obtain ⟨e, he, h⟩ := exec_append_iff.1 h
  obtain ⟨e', he', -⟩ := Option.bind_eq_some_iff.1 h
  exact not_hasCheckpoint_of_isStep he' hstep (hasCheckpoint_of_exec he hd)

theorem filter_streams_of_exec {p : StreamRow → Bool} (h : exec system d cs = some d')
    (hp : ∀ c ∈ cs, ∀ r, c.Writes true r.workflowID r.functionID → p r = false) :
    d'.streams.rows.filter p = d.streams.rows.filter p :=
  exec_invariant (P := fun e => e.streams.rows.filter p = d.streams.rows.filter p)
    (fun c hc _ _ he hd => (filter_streams_of_commit he (hp c hc)).trans hd) h rfl

theorem filter_history_of_exec {p : EventHistoryRow → Bool} (h : exec system d cs = some d')
    (hp : ∀ c ∈ cs, ∀ r : EventHistoryRow, c.Writes false r.workflowID r.functionID → p r = false) :
    d'.eventsHistory.rows.filter p = d.eventsHistory.rows.filter p :=
  exec_invariant (P := fun e => e.eventsHistory.rows.filter p = d.eventsHistory.rows.filter p)
    (fun c hc _ _ he hd => (filter_history_of_commit he (hp c hc)).trans hd) h rfl

theorem streamsOf_of_exec (h : exec system d cs = some d') (hc : ∀ c ∈ cs, ∀ f, ¬ c.Writes true workflowID f) :
    d'.streamsOf workflowID = d.streamsOf workflowID :=
  filter_streams_of_exec h fun c hmem _ hw => decide_eq_false fun heq => hc c hmem _ (heq ▸ hw)

theorem historyOf_of_exec (h : exec system d cs = some d') (hc : ∀ c ∈ cs, ∀ f, ¬ c.Writes false workflowID f) :
    d'.historyOf workflowID = d.historyOf workflowID :=
  filter_history_of_exec h fun c hmem _ hw => decide_eq_false fun heq => hc c hmem _ (heq ▸ hw)

theorem eventsOf_of_exec (h : exec system d cs = some d') (hc : ∀ c ∈ cs, ∀ f, ¬ c.Writes false workflowID f) :
    d'.eventsOf workflowID = d.eventsOf workflowID :=
  exec_invariant (P := fun e => e.eventsOf workflowID = d.eventsOf workflowID)
    (fun c hmem _ _ he hd => (eventsOf_of_commit he (hc c hmem)).trans hd) h rfl

end Run

structure Covered (d : ExportDb) : Prop where
  stream : ∀ workflowID f, d.HasStream workflowID f → d.HasCheckpoint workflowID f
  event : ∀ workflowID f, d.HasEvent workflowID f → d.HasCheckpoint workflowID f

theorem Covered.commit {c : Commit} (hd : Covered d) (h : c.apply d = some d') : Covered d' where
  stream workflowID f hf := by
    rw [hasCheckpoint_of_commit h]
    rcases (hasStream_of_commit h).1 hf with hf | hf
    · exact .inl (hd.stream workflowID f hf)
    · exact .inr hf.isStep
  event workflowID f hf := by
    rw [hasCheckpoint_of_commit h]
    rcases (hasEvent_of_commit h).1 hf with hf | hf
    · exact .inl (hd.event workflowID f hf)
    · exact .inr hf.isStep

theorem Covered.exec {cs : List Commit} (hd : Covered d) (h : exec system d cs = some d') : Covered d' :=
  exec_invariant (fun _ _ _ _ hc he => Covered.commit he hc) h hd

/-- Transactional steps leave no entry without its checkpoint. -/
theorem covered_of_reaches (h : Reaches system (fun _ _ => True) d) : Covered d := by
  refine Reaches.invariant (I := Covered) ?_ (fun _ _ _ hd _ hc => hd.commit hc) h
  rintro e ⟨hstreams, hhistory⟩
  constructor
  · simp [ExportDb.HasStream, ExportDb.streamsOf, hstreams]
  · simp [ExportDb.HasEvent, ExportDb.historyOf, hhistory]

end Dbos.Export
