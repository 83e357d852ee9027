import DbosTransact.Export.Commits

/-!
# Exports

`ExportWorkflow` runs under READ COMMITTED: each of its five `SELECT`s sees what is committed when it
starts. An export is therefore the list of the commits that fall before, between and after them
(`Interleaving`). `operation_outputs` is read before the entries: a step that commits in between is exported
with its entry and without its checkpoint, and the importing side takes the step again.
-/

namespace Dbos.Export

open Relational Lts

structure ExportedWorkflow where
  workflowStatus : WorkflowRow
  operationOutputs : List OperationRow
  workflowEvents : List EventRow
  workflowEventsHistory : List EventHistoryRow
  streams : List StreamRow
  deriving DecidableEq, Repr

def ExportDb.rowsOf (d : ExportDb) (workflowID : String) : Option ExportedWorkflow :=
  (d.status.find? workflowID).map fun row =>
    { workflowStatus := row
      operationOutputs := d.operationsOf workflowID
      workflowEvents := d.eventsOf workflowID
      workflowEventsHistory := d.historyOf workflowID
      streams := d.streamsOf workflowID }

/-- The commits around the five `SELECT`s of an export, and the database that each of them sees. -/
structure Interleaving (start : ExportDb) where
  beforeStatus : List Commit
  beforeOutputs : List Commit
  beforeEvents : List Commit
  beforeHistory : List Commit
  beforeStreams : List Commit
  atStatus : ExportDb
  atOutputs : ExportDb
  atEvents : ExportDb
  atHistory : ExportDb
  atStreams : ExportDb
  hstatus : exec system start beforeStatus = some atStatus
  houtputs : exec system atStatus beforeOutputs = some atOutputs
  hevents : exec system atOutputs beforeEvents = some atEvents
  hhistory : exec system atEvents beforeHistory = some atHistory
  hstreams : exec system atHistory beforeStreams = some atStreams

namespace Interleaving

variable {start : ExportDb} (x : Interleaving start) (workflowID : String)

/-- The iteration of `ExportWorkflow` for one workflow. -/
def exportWorkflow : Except GoError ExportedWorkflow :=
  match x.atStatus.status.find? workflowID with
  | none => .error (newNonExistentWorkflowError workflowID)
  | some row =>
    .ok
      { workflowStatus := row
        operationOutputs := x.atOutputs.operationsOf workflowID
        workflowEvents := x.atEvents.eventsOf workflowID
        workflowEventsHistory := x.atHistory.historyOf workflowID
        streams := x.atStreams.streamsOf workflowID }

/-- All commits from the start of the export to its last `SELECT`. -/
def commits : List Commit :=
  x.beforeStatus ++ x.beforeOutputs ++ (x.beforeEvents ++ x.beforeHistory ++ x.beforeStreams)

/-- The database is the committed one at some moment of the export. -/
def Moment (d : ExportDb) : Prop := ∃ before after, x.commits = before ++ after ∧ exec system start before = some d

def Snapshot (bundle : ExportedWorkflow) : Prop := ∃ d, x.Moment d ∧ d.rowsOf workflowID = some bundle

/-- The row and the checkpoints that the first two `SELECT`s return belong to one moment. -/
def FirstTwoAgree : Prop :=
  ∃ d, x.Moment d ∧ d.status.find? workflowID = x.atStatus.status.find? workflowID ∧
    d.operationsOf workflowID = x.atOutputs.operationsOf workflowID

/-- Once the checkpoints have been read, no step of the workflow commits an event before the history is
read, nor a stream entry before the streams are. -/
structure Quiet : Prop where
  events : ∀ c ∈ x.beforeEvents ++ x.beforeHistory, ∀ f, ¬ c.Writes false workflowID f
  streams : ∀ c ∈ x.beforeEvents ++ x.beforeHistory ++ x.beforeStreams, ∀ f, ¬ c.Writes true workflowID f

variable {x workflowID}

theorem exec_atOutputs : exec system start (x.beforeStatus ++ x.beforeOutputs) = some x.atOutputs :=
  exec_append_iff.2 ⟨_, x.hstatus, x.houtputs⟩

theorem exec_atHistory : exec system x.atOutputs (x.beforeEvents ++ x.beforeHistory) = some x.atHistory :=
  exec_append_iff.2 ⟨_, x.hevents, x.hhistory⟩

theorem exec_atStreams :
    exec system x.atOutputs (x.beforeEvents ++ x.beforeHistory ++ x.beforeStreams) = some x.atStreams :=
  exec_append_iff.2 ⟨_, exec_atHistory, x.hstreams⟩

theorem Moment.covered {d : ExportDb} (h : x.Moment d) (hstart : Covered start) : Covered d := by
  obtain ⟨before, after, -, hd⟩ := h
  exact hstart.exec hd

theorem Moment.before_or_after {d : ExportDb} (h : x.Moment d) :
    (∃ cs, exec system d cs = some x.atOutputs) ∨ ∃ cs, exec system x.atOutputs cs = some d := by
  obtain ⟨before, after, heq, hd⟩ := h
  rcases List.append_eq_append_iff.1 heq with ⟨cs, rfl, -⟩ | ⟨cs, hcs, -⟩
  · obtain ⟨e, he, h⟩ := exec_append_iff.1 hd
    obtain rfl := Option.some.inj (exec_atOutputs.symm.trans he)
    exact .inr ⟨cs, h⟩
  · have hout := exec_atOutputs (x := x)
    rw [hcs] at hout
    obtain ⟨e, he, h⟩ := exec_append_iff.1 hout
    obtain rfl := Option.some.inj (hd.symm.trans he)
    exact .inl ⟨cs, h⟩

/-- A moment with the exported checkpoints has the entries that stood beside them. -/
theorem Moment.entries_eq {d : ExportDb} (h : x.Moment d)
    (hop : d.operationsOf workflowID = x.atOutputs.operationsOf workflowID) :
    d.eventsOf workflowID = x.atOutputs.eventsOf workflowID ∧
      d.historyOf workflowID = x.atOutputs.historyOf workflowID ∧
      d.streamsOf workflowID = x.atOutputs.streamsOf workflowID := by
  have hquiet : ∀ {d d' : ExportDb} {cs : List Commit}, exec system d cs = some d' →
      d'.operationsOf workflowID = d.operationsOf workflowID → ∀ b, ∀ c ∈ cs, ∀ f, ¬ c.Writes b workflowID f :=
    fun hrun heq _ c hc f hw => not_isStep_of_operationsOf_eq hrun heq c hc f hw.isStep
  rcases h.before_or_after with ⟨cs, hcs⟩ | ⟨cs, hcs⟩
  · have hnone := hquiet hcs hop.symm
    exact ⟨(eventsOf_of_exec hcs (hnone false)).symm, (historyOf_of_exec hcs (hnone false)).symm,
      (streamsOf_of_exec hcs (hnone true)).symm⟩
  · have hnone := hquiet hcs hop
    exact ⟨eventsOf_of_exec hcs (hnone false), historyOf_of_exec hcs (hnone false),
      streamsOf_of_exec hcs (hnone true)⟩

end Interleaving

section Exact

variable {start : ExportDb} {x : Interleaving start} {workflowID : String} {bundle : ExportedWorkflow}

theorem eq_of_exportWorkflow (h : x.exportWorkflow workflowID = .ok bundle) :
    x.atStatus.status.find? workflowID = some bundle.workflowStatus ∧
      bundle.operationOutputs = x.atOutputs.operationsOf workflowID ∧
      bundle.workflowEvents = x.atEvents.eventsOf workflowID ∧
      bundle.workflowEventsHistory = x.atHistory.historyOf workflowID ∧
      bundle.streams = x.atStreams.streamsOf workflowID := by
  unfold Interleaving.exportWorkflow at h
  split at h
  · cases h
  · cases h
    exact ⟨‹_›, rfl, rfl, rfl, rfl⟩

/-- What is committed after the `SELECT` of the checkpoints, by a step of the workflow, is not at any
moment that has the exported checkpoints. -/
theorem not_of_committed_after {d d' : ExportDb} {cs : List Commit} {b : Bool} {c : Commit} {f : Int}
    (hd : d.operationsOf workflowID = x.atOutputs.operationsOf workflowID)
    (h : exec system x.atOutputs cs = some d') (hc : c ∈ cs) (hw : c.Writes b workflowID f) :
    ¬ d.HasCheckpoint workflowID f := by
  intro hcheckpoint
  refine not_isStep_of_hasCheckpoint h ?_ c hc hw.isStep
  unfold ExportDb.HasCheckpoint at hcheckpoint ⊢
  rwa [← hd]

theorem hasStream_of_mem {d d' : ExportDb} {cs : List Commit} {c : Commit} {f : Int}
    (h : exec system d cs = some d') (hc : c ∈ cs) (hw : c.Writes true workflowID f) : d'.HasStream workflowID f := by
  obtain ⟨before, after, rfl⟩ := List.append_of_mem hc
  obtain ⟨e, -, h⟩ := exec_append_iff.1 h
  obtain ⟨e', he', h⟩ := Option.bind_eq_some_iff.1 h
  exact exec_invariant (P := fun e => e.HasStream workflowID f)
    (fun _ _ _ _ hc he => (hasStream_of_commit hc).2 (.inl he)) h ((hasStream_of_commit he').2 (.inr hw))

theorem hasEvent_of_mem {d d' : ExportDb} {cs : List Commit} {c : Commit} {f : Int}
    (h : exec system d cs = some d') (hc : c ∈ cs) (hw : c.Writes false workflowID f) : d'.HasEvent workflowID f := by
  obtain ⟨before, after, rfl⟩ := List.append_of_mem hc
  obtain ⟨e, -, h⟩ := exec_append_iff.1 h
  obtain ⟨e', he', h⟩ := Option.bind_eq_some_iff.1 h
  exact exec_invariant (P := fun e => e.HasEvent workflowID f)
    (fun _ _ _ _ hc he => (hasEvent_of_commit hc).2 (.inl he)) h ((hasEvent_of_commit he').2 (.inr hw))

theorem snapshot_iff (hstart : Covered start) (h : x.exportWorkflow workflowID = .ok bundle) :
    x.Snapshot workflowID bundle ↔ x.FirstTwoAgree workflowID ∧ x.Quiet workflowID := by
  obtain ⟨hstatus, hoperations, hevents, hhistory, hstreams⟩ := eq_of_exportWorkflow h
  constructor
  · rintro ⟨d, hmoment, hrows⟩
    obtain ⟨row, hrow, rfl⟩ := Option.map_eq_some_iff.1 hrows
    have hcovered : Covered d := hmoment.covered hstart
    refine ⟨⟨d, hmoment, hrow.trans hstatus.symm, hoperations⟩, ?_, ?_⟩
    · intro c hc f hw
      refine not_of_committed_after hoperations Interleaving.exec_atHistory hc hw (hcovered.event _ _ ?_)
      unfold ExportDb.HasEvent
      rw [show d.historyOf workflowID = _ from hhistory]
      exact hasEvent_of_mem Interleaving.exec_atHistory hc hw
    · intro c hc f hw
      refine not_of_committed_after hoperations Interleaving.exec_atStreams hc hw (hcovered.stream _ _ ?_)
      unfold ExportDb.HasStream
      rw [show d.streamsOf workflowID = _ from hstreams]
      exact hasStream_of_mem Interleaving.exec_atStreams hc hw
  · rintro ⟨⟨d, hmoment, hrow, hop⟩, hquiet⟩
    obtain ⟨hevents', hhistory', hstreams'⟩ := hmoment.entries_eq hop
    refine ⟨d, hmoment, ?_⟩
    unfold ExportDb.rowsOf
    rw [hrow, hstatus, Option.map_some, hop, ← hoperations, hevents', hhistory', hstreams',
      ← eventsOf_of_exec x.hevents fun c hc => hquiet.events c (List.mem_append_left _ hc),
      ← historyOf_of_exec Interleaving.exec_atHistory hquiet.events,
      ← streamsOf_of_exec Interleaving.exec_atStreams hquiet.streams, ← hevents, ← hhistory, ← hstreams]

end Exact

/-! ### Importing an export -/

/-- `ImportWorkflow`, for one workflow: every row is inserted as it is, unless its key is taken. -/
def ExportDb.importWorkflow (d : ExportDb) (bundle : ExportedWorkflow) : Option ExportDb := do
  let status ← d.status.insertAll [bundle.workflowStatus]
  let operations ← d.operations.insertAll bundle.operationOutputs
  let events ← d.events.insertAll bundle.workflowEvents
  let eventsHistory ← d.eventsHistory.insertAll bundle.workflowEventsHistory
  let streams ← d.streams.insertAll bundle.streams
  return { d with status, operations, events, eventsHistory, streams }

/-- The database has no row of the workflow in the tables that refer to it. -/
structure ExportDb.Without (d : ExportDb) (workflowID : String) : Prop where
  history : d.historyOf workflowID = []
  streams : d.streamsOf workflowID = []

/-- Every entry of the bundle comes with the checkpoint of its step; and wherever the bundle is imported,
whatever is committed from then on, a step with an entry in the bundle never has more than that. -/
structure Recoverable (workflowID : String) (bundle : ExportedWorkflow) : Prop where
  stream : ∀ r ∈ bundle.streams, ∃ o ∈ bundle.operationOutputs, o.functionID = r.functionID
  event : ∀ h ∈ bundle.workflowEventsHistory, ∃ o ∈ bundle.operationOutputs, o.functionID = h.functionID
  once : ∀ target imported d cs, ExportDb.Without target workflowID → target.importWorkflow bundle = some imported →
    exec system imported cs = some d →
      (∀ r ∈ bundle.streams, (d.streamsOf workflowID).filter (·.functionID = r.functionID) =
        bundle.streams.filter (·.functionID = r.functionID)) ∧
      ∀ h ∈ bundle.workflowEventsHistory, (d.historyOf workflowID).filter (·.functionID = h.functionID) =
        bundle.workflowEventsHistory.filter (·.functionID = h.functionID)

section Import

variable {target imported : ExportDb} {workflowID : String} {bundle : ExportedWorkflow}

theorem rows_of_importWorkflow (h : target.importWorkflow bundle = some imported) :
    imported.operations.rows = target.operations.rows ++ bundle.operationOutputs ∧
      imported.eventsHistory.rows = target.eventsHistory.rows ++ bundle.workflowEventsHistory ∧
      imported.streams.rows = target.streams.rows ++ bundle.streams := by
  unfold ExportDb.importWorkflow at h
  simp only [Option.bind_eq_bind, Option.bind_eq_some_iff] at h
  obtain ⟨status, -, operations, hoperations, events, -, eventsHistory, hhistory, streams, hstreams, h⟩ := h
  cases h
  exact ⟨Table.rows_insertAll hoperations, Table.rows_insertAll hhistory, Table.rows_insertAll hstreams⟩

structure ExportedWorkflow.Of (bundle : ExportedWorkflow) (workflowID : String) : Prop where
  operations : ∀ o ∈ bundle.operationOutputs, o.workflowID = workflowID
  history : ∀ h ∈ bundle.workflowEventsHistory, h.workflowID = workflowID
  streams : ∀ r ∈ bundle.streams, r.workflowID = workflowID

theorem of_rowsOf {d : ExportDb} (h : d.rowsOf workflowID = some bundle) : bundle.Of workflowID := by
  obtain ⟨row, -, rfl⟩ := Option.map_eq_some_iff.1 h
  exact ⟨fun o ho => (mem_operationsOf.1 ho).2, fun h hh => (mem_historyOf.1 hh).2,
    fun r hr => (mem_streamsOf.1 hr).2⟩

theorem not_isStep_of_import {d : ExportDb} {cs : List Commit} {o : OperationRow} (hof : bundle.Of workflowID)
    (himport : target.importWorkflow bundle = some imported) (h : exec system imported cs = some d)
    (ho : o ∈ bundle.operationOutputs) : ∀ c ∈ cs, ¬ c.IsStep workflowID o.functionID := by
  refine not_isStep_of_hasCheckpoint h ⟨o, mem_operationsOf.2 ⟨?_, hof.operations o ho⟩, rfl⟩
  rw [(rows_of_importWorkflow himport).1]
  exact List.mem_append_right _ ho

theorem recoverable_of_checkpoints (hof : bundle.Of workflowID)
    (hstream : ∀ r ∈ bundle.streams, ∃ o ∈ bundle.operationOutputs, o.functionID = r.functionID)
    (hevent : ∀ h ∈ bundle.workflowEventsHistory, ∃ o ∈ bundle.operationOutputs, o.functionID = h.functionID) :
    Recoverable workflowID bundle := by
  refine ⟨hstream, hevent, ?_⟩
  intro target imported d cs hwithout himport h
  obtain ⟨-, hhistory, hstreams⟩ := rows_of_importWorkflow himport
  constructor
  · intro r hr
    obtain ⟨o, ho, heq⟩ := hstream r hr
    have hnot := not_isStep_of_import hof himport h ho
    have himported : imported.streamsOf workflowID = bundle.streams := by
      have hall : ∀ r ∈ bundle.streams, decide (r.workflowID = workflowID) = true :=
        fun r hr => decide_eq_true (hof.streams r hr)
      rw [ExportDb.streamsOf, hstreams, List.filter_append, List.filter_eq_self.2 hall]
      exact congrArg (· ++ bundle.streams) hwithout.streams
    rw [← himported]
    simp only [ExportDb.streamsOf, List.filter_filter]
    refine filter_streams_of_exec h fun c hc r' hw => ?_
    simp only [Bool.and_eq_false_imp, decide_eq_true_eq, decide_eq_false_iff_not]
    intro hf hworkflow
    exact hnot c hc (heq ▸ hf ▸ hworkflow ▸ hw.isStep)
  · intro e he
    obtain ⟨o, ho, heq⟩ := hevent e he
    have hnot := not_isStep_of_import hof himport h ho
    have himported : imported.historyOf workflowID = bundle.workflowEventsHistory := by
      have hall : ∀ e ∈ bundle.workflowEventsHistory, decide (e.workflowID = workflowID) = true :=
        fun e he => decide_eq_true (hof.history e he)
      rw [ExportDb.historyOf, hhistory, List.filter_append, List.filter_eq_self.2 hall]
      exact congrArg (· ++ bundle.workflowEventsHistory) hwithout.history
    rw [← himported]
    simp only [ExportDb.historyOf, List.filter_filter]
    refine filter_history_of_exec h fun c hc e' hw => ?_
    simp only [Bool.and_eq_false_imp, decide_eq_true_eq, decide_eq_false_iff_not]
    intro hf hworkflow
    exact hnot c hc (heq ▸ hf ▸ hworkflow ▸ hw.isStep)

theorem recoverable_of_rowsOf {d : ExportDb} (hd : Covered d) (h : d.rowsOf workflowID = some bundle) :
    Recoverable workflowID bundle := by
  have hof := of_rowsOf h
  obtain ⟨row, -, rfl⟩ := Option.map_eq_some_iff.1 h
  exact recoverable_of_checkpoints hof (fun r hr => hd.stream workflowID _ ⟨r, hr, rfl⟩)
    fun e he => hd.event workflowID _ ⟨e, he, rfl⟩

end Import

/-- **When an export is a consistent snapshot.** Any commits of transactional steps and of statements on
`workflow_status` fall between the five `SELECT`s of an export that succeeds. The bundle is the rows of
the workflow at one moment if and only if its row and its checkpoints are those of one moment, and once
the checkpoints have been read no step of the workflow commits an event before the history is read, nor
a stream entry before the streams are. Then every exported entry comes with the checkpoint of its step,
and recovering the imported workflow appends none of them again. -/
theorem export_snapshot_iff {start : ExportDb} (hstart : Reaches system (fun _ _ => True) start)
    (x : Interleaving start) {workflowID : String} {bundle : ExportedWorkflow}
    (h : x.exportWorkflow workflowID = .ok bundle) :
    (x.Snapshot workflowID bundle ↔ x.FirstTwoAgree workflowID ∧ x.Quiet workflowID) ∧
      (x.Snapshot workflowID bundle → Recoverable workflowID bundle) := by
  have hcovered := covered_of_reaches hstart
  refine ⟨snapshot_iff hcovered h, ?_⟩
  rintro ⟨d, hmoment, hrows⟩
  exact recoverable_of_rowsOf (hmoment.covered hcovered) hrows

section Example

def emptyDb : ExportDb :=
  { status := .empty, waiters := .empty, notifications := .empty, events := .empty, eventsHistory := .empty,
    operations := .empty, streams := .empty }

def running : ExportDb :=
  { emptyDb with status := Table.insert .empty { workflowID := "w", status := .pending, name := "f" } }

def writeStep : Step where
  checkpoint := { workflowID := "w", functionID := 0, functionName := "DBOS.writeStream" }
  writes := [.writeStream { key := "k", value := "v", workflowID := "w", stepID := 0 }]
  own := by simp [StepWrite.workflowID, StepWrite.stepID]

def written : ExportDb :=
  { running with
    operations := Table.insert .empty writeStep.checkpoint
    streams := Table.insert .empty { workflowID := "w", key := "k", value := "v", offset := 0, functionID := 0 } }

theorem apply_writeStep : exec system running [.step writeStep] = some written := rfl

theorem reaches_running : Reaches system (fun _ _ => True) running :=
  ⟨running, [], ⟨rfl, rfl⟩, .nil, by simp⟩

/-- The step commits between the `SELECT` of the checkpoints and that of the streams. -/
def torn : Interleaving running where
  beforeStatus := []
  beforeOutputs := []
  beforeEvents := [.step writeStep]
  beforeHistory := []
  beforeStreams := []
  atStatus := running
  atOutputs := running
  atEvents := written
  atHistory := written
  atStreams := written
  hstatus := rfl
  houtputs := rfl
  hevents := apply_writeStep
  hhistory := rfl
  hstreams := rfl

/-- The entry is exported without its checkpoint; imported and recovered, the workflow appends it again. -/
theorem exported_entry_appended_twice :
    ∃ bundle, torn.exportWorkflow "w" = .ok bundle ∧ ¬ torn.Snapshot "w" bundle ∧
      ∃ imported d, emptyDb.importWorkflow bundle = some imported ∧
        exec system imported [.step writeStep] = some d ∧
        (d.streamsOf "w").map (fun r => (r.value, r.offset, r.functionID)) = [("v", 0, 0), ("v", 1, 0)] := by
  obtain ⟨bundle, hbundle⟩ : ∃ bundle, torn.exportWorkflow "w" = .ok bundle := ⟨_, rfl⟩
  refine ⟨bundle, hbundle, ?_, ?_⟩
  · intro hsnapshot
    have hquiet := ((snapshot_iff (covered_of_reaches reaches_running) hbundle).1 hsnapshot).2
    exact hquiet.streams (.step writeStep) (by simp [torn]) 0 ⟨rfl, rfl, _, List.mem_cons_self, rfl⟩
  · obtain rfl := Except.ok.inj hbundle
    exact ⟨_, _, rfl, rfl, rfl⟩

def whole : Interleaving running where
  beforeStatus := []
  beforeOutputs := [.step writeStep]
  beforeEvents := []
  beforeHistory := []
  beforeStreams := []
  atStatus := running
  atOutputs := written
  atEvents := written
  atHistory := written
  atStreams := written
  hstatus := rfl
  houtputs := apply_writeStep
  hevents := rfl
  hhistory := rfl
  hstreams := rfl

theorem whole_export_recoverable :
    ∃ bundle, whole.exportWorkflow "w" = .ok bundle ∧ whole.Snapshot "w" bundle ∧ Recoverable "w" bundle := by
  obtain ⟨bundle, hbundle⟩ : ∃ bundle, whole.exportWorkflow "w" = .ok bundle := ⟨_, rfl⟩
  obtain ⟨hiff, hrecoverable⟩ := export_snapshot_iff reaches_running whole hbundle
  have hsnapshot : whole.Snapshot "w" bundle :=
    hiff.2 ⟨⟨written, ⟨[.step writeStep], [], rfl, apply_writeStep⟩, rfl, rfl⟩, ⟨by simp [whole], by simp [whole]⟩⟩
  exact ⟨bundle, hbundle, hsnapshot, hrecoverable hsnapshot⟩

end Example

end Dbos.Export
