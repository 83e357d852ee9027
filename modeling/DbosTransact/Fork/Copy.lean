import DbosTransact.Lib.Json
import DbosTransact.SysDb.Gates
import DbosTransact.SysDb.Streams

/-!
# What `ForkWorkflows` writes

For a batch of entries, each an original, an ID for the fork and a start step, one transaction reads the
originals and inserts a row of `workflow_status` for each entry; copies the checkpoints, the history of
events and the stream entries below the start step, and the latest version of each event; marks the
originals, and copies their read audiences. The attributes go through an untyped map (`Json.roundTripMap`).
-/

namespace Dbos.Fork

open Relational

/-- A row of `workflow_status`, with the columns that only a fork reads or writes. The roles are those
that the column lists. -/
structure StatusRow extends WorkflowRow where
  className : Option String := none
  assumedRole : Option String := none
  authenticatedRoles : List String := []
  applicationID : Option String := none
  attributes : Option Json := none
  forkedFrom : Option String := none
  wasForkedFrom : Bool := false

/-- A row of `operation_outputs`, with its application. Steps are counted from 0. -/
structure CheckpointRow extends OperationRow where
  applicationName : Option String := none
  nonneg : 0 ≤ functionID := by decide
  deriving DecidableEq, Repr

/-- A row of `streams`, written by a step. -/
structure EntryRow extends StreamRow where
  nonneg : 0 ≤ functionID := by decide
  deriving DecidableEq, Repr

structure ForkDb where
  status : Table fun r : StatusRow => r.workflowID
  operations : Table fun o : CheckpointRow => (o.workflowID, o.functionID)
  events : Table fun e : EventRow => (e.workflowID, e.key)
  eventsHistory : Table fun h : EventHistoryRow => (h.workflowID, h.functionID, h.key)
  streams : Table fun r : EntryRow => (r.workflowID, r.key, r.offset)
  readAudience : Table fun r : ReadAudienceRow => (r.workflowID, r.principal)

/-- `ForkWorkflowsDBInput`, with its map of replacement children. -/
structure ForkInput extends ForkWorkflowsInput where
  replacementChildren : String → Option String := fun _ => none

namespace ForkInput

variable (i : ForkInput)

/-- The row of a fork, with the attributes as they are written again. -/
def statusRow (appName : String) (now : Int) (original : StatusRow) (attributes : Option Json)
    (forkedID : String) : StatusRow where
  toWorkflowRow := i.toForkWorkflowsInput.row appName now original.toWorkflowRow forkedID
  className := original.className.filter (· ≠ "")
  assumedRole := some (original.assumedRole.getD "")
  authenticatedRoles := original.authenticatedRoles
  applicationID := some (original.applicationID.getD "")
  attributes := attributes
  forkedFrom := some original.workflowID

def mapping : List ForkEntry := i.entries.filter (0 < ·.startStep)

/-- `childWorkflowIDExpr`. -/
def childWorkflowID (child : String) : String := (i.replacementChildren child).getD child

def copyOperation (owner : Option String) (forkedID : String) (o : CheckpointRow) : CheckpointRow :=
  { o with
    workflowID := forkedID
    childWorkflowID := o.childWorkflowID.map i.childWorkflowID
    applicationName := owner }

end ForkInput

/-- The `ON` of the copies: a row of the original, below the start step. -/
def copied (e : ForkEntry) (workflowID : String) (functionID : Int) : Bool :=
  workflowID = e.originalID && functionID < e.startStep

theorem copied_iff {e : ForkEntry} {w : String} {f : Int} :
    copied e w f = true ↔ w = e.originalID ∧ f < e.startStep := by
  simp [copied]

def currentEvent (h : EventHistoryRow) : EventRow where
  workflowID := h.workflowID
  key := h.key
  value := h.value
  serialization := h.serialization

/-- The rows with `ROW_NUMBER() = 1` for their workflow and key, the latest step first. -/
def latest (rows : List EventHistoryRow) : List EventHistoryRow :=
  rows.filter fun h => rows.all fun h' =>
    !(h'.workflowID = h.workflowID && h'.key = h.key) || h'.functionID ≤ h.functionID

/-- The `UPDATE` that marks the originals. -/
def markOriginal (entries : List ForkEntry) (r : StatusRow) : StatusRow :=
  if r.workflowID ∈ entries.map (·.originalID) then { r with wasForkedFrom := true } else r

theorem toWorkflowRow_markOriginal (entries : List ForkEntry) (r : StatusRow) :
    (markOriginal entries r).toWorkflowRow = r.toWorkflowRow := by
  unfold markOriginal
  split_ifs <;> rfl

namespace ForkDb

variable (d : ForkDb) (appName : String) (i : ForkInput) (now : Int)

/-- `forkOwner`: forks inherit the owner of their original, and an unclaimed one is claimed. -/
def forkOwner (e : ForkEntry) : Option String :=
  (((d.status.find? e.originalID).bind (·.applicationName)).filter (· ≠ "")).or (ownerOf appName)

/-- The row of one fork; `none` if the original is missing or its attributes are not a map. -/
def forkRow (e : ForkEntry) : Option StatusRow :=
  (d.status.find? e.originalID).bind fun original =>
    (Json.roundTripMap original.attributes).map fun attributes =>
      i.statusRow appName now original attributes e.forkedID

def copiedOperations : List CheckpointRow :=
  join i.mapping d.operations.rows (fun e o => copied e o.workflowID o.functionID)
    fun e => i.copyOperation (d.forkOwner appName e) e.forkedID

def copiedHistory : List EventHistoryRow :=
  join i.mapping d.eventsHistory.rows (fun e h => copied e h.workflowID h.functionID)
    fun e h => { h with workflowID := e.forkedID }

def copiedStreams : List EntryRow :=
  join i.mapping d.streams.rows (fun e r => copied e r.workflowID r.functionID)
    fun e r => { r with workflowID := e.forkedID }

def copiedAudience : List ReadAudienceRow :=
  join i.entries d.readAudience.rows (fun e r => r.workflowID = e.originalID)
    fun e r => { r with workflowID := e.forkedID }

/-- `ForkWorkflows`, executed alone: `none` is an error, and nothing is committed. -/
def forkWorkflows : Option ForkDb :=
  if i.entries.any fun e => e.startStep < 0 then none
  else do
    let rows ← i.entries.mapM (d.forkRow appName i now)
    let status ← d.status.insertAll rows
    let operations ← d.operations.insertAll (d.copiedOperations appName i)
    let eventsHistory ← d.eventsHistory.insertAll (d.copiedHistory i)
    -- the history is read again, with the copies in it
    let copies := { d with eventsHistory := eventsHistory }.copiedHistory i
    let events ← d.events.insertAll ((latest copies).map currentEvent)
    let streams ← d.streams.insertAll (d.copiedStreams i)
    let readAudience ← d.readAudience.insertAll (d.copiedAudience i)
    some {
      status := status.update (·.workflowID ∈ i.entries.map (·.originalID))
        (fun r => { r with wasForkedFrom := true }) (fun _ => rfl)
      operations := operations
      events := events
      eventsHistory := eventsHistory
      streams := streams
      readAudience := readAudience }

/-! ### What a batch leaves behind

For each table, the rows that one entry adds are given by a predicate over the rows of its original, so
that they do not depend on the rest of the batch. -/

def IsFork (e : ForkEntry) (r : StatusRow) : Prop := d.forkRow appName i now e = some r

def CopiesOperation (e : ForkEntry) (o : CheckpointRow) : Prop :=
  0 < e.startStep ∧ ∃ o₀ ∈ d.operations.rows, copied e o₀.workflowID o₀.functionID = true ∧
    o = i.copyOperation (d.forkOwner appName e) e.forkedID o₀

def CopiesHistory (e : ForkEntry) (h : EventHistoryRow) : Prop :=
  0 < e.startStep ∧ ∃ h₀ ∈ d.eventsHistory.rows, copied e h₀.workflowID h₀.functionID = true ∧
    h = { h₀ with workflowID := e.forkedID }

def CopiesEvent (e : ForkEntry) (v : EventRow) : Prop :=
  ∃ h, d.CopiesHistory e h ∧ v = currentEvent h ∧
    ∀ h', d.CopiesHistory e h' → h'.key = h.key → h'.functionID ≤ h.functionID

def CopiesStream (e : ForkEntry) (r : EntryRow) : Prop :=
  0 < e.startStep ∧ ∃ r₀ ∈ d.streams.rows, copied e r₀.workflowID r₀.functionID = true ∧
    r = { r₀ with workflowID := e.forkedID }

def CopiesAudience (e : ForkEntry) (r : ReadAudienceRow) : Prop :=
  ∃ r₀ ∈ d.readAudience.rows, r₀.workflowID = e.originalID ∧ r = { r₀ with workflowID := e.forkedID }

/-- The database holds what it held, with the originals marked, and what the entries add. -/
structure Forked (es : List ForkEntry) (d' : ForkDb) : Prop where
  status : ∀ r, r ∈ d'.status.rows ↔
    (∃ r₀ ∈ d.status.rows, r = markOriginal es r₀) ∨ ∃ e ∈ es, d.IsFork appName i now e r
  operations : ∀ o, o ∈ d'.operations.rows ↔ o ∈ d.operations.rows ∨ ∃ e ∈ es, d.CopiesOperation appName i e o
  events : ∀ v, v ∈ d'.events.rows ↔ v ∈ d.events.rows ∨ ∃ e ∈ es, d.CopiesEvent e v
  eventsHistory : ∀ h, h ∈ d'.eventsHistory.rows ↔ h ∈ d.eventsHistory.rows ∨ ∃ e ∈ es, d.CopiesHistory e h
  streams : ∀ r, r ∈ d'.streams.rows ↔ r ∈ d.streams.rows ∨ ∃ e ∈ es, d.CopiesStream e r
  readAudience : ∀ r, r ∈ d'.readAudience.rows ↔ r ∈ d.readAudience.rows ∨ ∃ e ∈ es, d.CopiesAudience e r

section Batch

variable {d : ForkDb} {appName : String} {i : ForkInput} {now : Int} {d' : ForkDb}

theorem forkRow_eq_some {e : ForkEntry} {r : StatusRow} :
    d.forkRow appName i now e = some r ↔
      ∃ original attributes, d.status.find? e.originalID = some original ∧
        Json.roundTripMap original.attributes = some attributes ∧
        i.statusRow appName now original attributes e.forkedID = r := by
  simp [forkRow, Option.bind_eq_some_iff]

theorem workflowID_of_isFork {e : ForkEntry} {r : StatusRow} (h : d.IsFork appName i now e r) :
    r.workflowID = e.forkedID := by
  obtain ⟨original, attributes, -, -, rfl⟩ := forkRow_eq_some.1 h
  rfl

theorem forkWorkflows_eq_some (h : d.forkWorkflows appName i now = some d') :
    (∀ e ∈ i.entries, 0 ≤ e.startStep) ∧
    (∃ rows status, i.entries.mapM (d.forkRow appName i now) = some rows ∧ d.status.insertAll rows = some status ∧
      d'.status.rows = status.rows.map (markOriginal i.entries)) ∧
    d.operations.insertAll (d.copiedOperations appName i) = some d'.operations ∧
    d.eventsHistory.insertAll (d.copiedHistory i) = some d'.eventsHistory ∧
    d.events.insertAll ((latest ({ d with eventsHistory := d'.eventsHistory }.copiedHistory i)).map currentEvent) =
      some d'.events ∧
    d.streams.insertAll (d.copiedStreams i) = some d'.streams ∧
    d.readAudience.insertAll (d.copiedAudience i) = some d'.readAudience := by
  unfold forkWorkflows at h
  split_ifs at h with hneg
  simp only [Option.bind_eq_bind, Option.bind_eq_some_iff, Option.some.injEq] at h
  obtain ⟨rows, hrows, status, hstatus, operations, hoperations, history, hhistory, events, hevents, streams,
    hstreams, audience, haudience, rfl⟩ := h
  refine ⟨fun e he => ?_, ⟨rows, status, hrows, hstatus, ?_⟩, hoperations, hhistory, hevents, hstreams, haudience⟩
  · have := List.any_eq_false.1 (Bool.not_eq_true _ ▸ hneg) e he
    simpa using this
  · simp [Table.update, markOriginal]

theorem mem_mapping {e : ForkEntry} : e ∈ i.mapping ↔ e ∈ i.entries ∧ 0 < e.startStep := by
  simp [ForkInput.mapping]

theorem mem_copiedOperations {o : CheckpointRow} :
    o ∈ d.copiedOperations appName i ↔ ∃ e ∈ i.entries, d.CopiesOperation appName i e o := by
  simp only [copiedOperations, mem_join, mem_mapping, CopiesOperation, and_assoc]

theorem mem_copiedHistory {h : EventHistoryRow} :
    h ∈ d.copiedHistory i ↔ ∃ e ∈ i.entries, d.CopiesHistory e h := by
  simp only [copiedHistory, mem_join, mem_mapping, CopiesHistory, and_assoc]

theorem mem_copiedStreams {r : EntryRow} :
    r ∈ d.copiedStreams i ↔ ∃ e ∈ i.entries, d.CopiesStream e r := by
  simp only [copiedStreams, mem_join, mem_mapping, CopiesStream, and_assoc]

theorem mem_copiedAudience {r : ReadAudienceRow} :
    r ∈ d.copiedAudience i ↔ ∃ e ∈ i.entries, d.CopiesAudience e r := by
  simp only [copiedAudience, mem_join, CopiesAudience, decide_eq_true_eq]

theorem mem_latest {rows : List EventHistoryRow} {h : EventHistoryRow} :
    h ∈ latest rows ↔ h ∈ rows ∧
      ∀ h' ∈ rows, h'.workflowID = h.workflowID → h'.key = h.key → h'.functionID ≤ h.functionID := by
  simp only [latest, List.mem_filter, List.all_eq_true, Bool.or_eq_true, Bool.not_eq_true', Bool.and_eq_false_iff,
    decide_eq_false_iff_not, decide_eq_true_eq]
  grind

/-- The forks of a batch that succeeds have IDs of their own, which no original has. -/
theorem forkedIDs (h : d.forkWorkflows appName i now = some d') :
    (i.entries.map (·.forkedID)).Nodup ∧ (∀ e ∈ i.entries, d.status.find? e.forkedID = none) ∧
      ∀ e ∈ i.entries, ∃ r, d.IsFork appName i now e r := by
  obtain ⟨-, ⟨rows, status, hrows, hstatus, -⟩, -⟩ := forkWorkflows_eq_some h
  rw [mapM_eq_some] at hrows
  obtain ⟨hfree, hnodup⟩ := Table.insertAll_keys hstatus
  have hfork : ∀ e ∈ i.entries, ∃ r ∈ rows, d.IsFork appName i now e r := by
    intro e he
    have hmem : d.forkRow appName i now e ∈ rows.map some := hrows ▸ List.mem_map_of_mem he
    obtain ⟨r, hr, heq⟩ := List.mem_map.1 hmem
    exact ⟨r, hr, heq.symm⟩
  have hids : i.entries.map (·.forkedID) = rows.map (·.workflowID) := by
    have hkeys : i.entries.map (fun e => (d.forkRow appName i now e).map (·.workflowID)) =
        i.entries.map fun e => some e.forkedID := by
      refine List.map_congr_left fun e he => ?_
      obtain ⟨r, -, hr⟩ := hfork e he
      rw [show d.forkRow appName i now e = some r from hr, Option.map_some, workflowID_of_isFork hr]
    have := congrArg (List.map (Option.map fun r : StatusRow => r.workflowID)) hrows
    simp only [List.map_map] at this
    refine List.map_injective_iff.2 (Option.some_injective _) ?_
    rw [List.map_map, List.map_map]
    exact hkeys.symm.trans this
  refine ⟨hids ▸ hnodup, fun e he => ?_, fun e he => ?_⟩
  · obtain ⟨r, hr, hfork⟩ := hfork e he
    rw [← workflowID_of_isFork hfork]
    exact hfree r hr
  · obtain ⟨r, -, hr⟩ := hfork e he
    exact ⟨r, hr⟩

theorem find?_originalID {e : ForkEntry} {r : StatusRow} (h : d.IsFork appName i now e r) :
    ∃ original, d.status.find? e.originalID = some original := by
  obtain ⟨original, -, horiginal, -⟩ := forkRow_eq_some.1 h
  exact ⟨original, horiginal⟩

theorem originalID_ne_forkedID (h : d.forkWorkflows appName i now = some d') {e e' : ForkEntry}
    (he : e ∈ i.entries) (he' : e' ∈ i.entries) : e.originalID ≠ e'.forkedID := by
  obtain ⟨-, hfree, hfork⟩ := forkedIDs h
  obtain ⟨r, hr⟩ := hfork e he
  obtain ⟨original, horiginal⟩ := find?_originalID hr
  intro heq
  rw [heq, hfree e' he'] at horiginal
  cases horiginal

theorem markOriginal_of_isFork (hne : ∀ {e e'}, e ∈ i.entries → e' ∈ i.entries → e.originalID ≠ e'.forkedID)
    {e : ForkEntry} (he : e ∈ i.entries) {r : StatusRow} (h : d.IsFork appName i now e r) :
    markOriginal i.entries r = r := by
  refine if_neg fun hmem => ?_
  obtain ⟨e', he', heq⟩ := List.mem_map.1 hmem
  exact hne he' he (heq.trans (workflowID_of_isFork h))

theorem workflowID_of_copiesHistory {e : ForkEntry} {h : EventHistoryRow} (hcopy : d.CopiesHistory e h) :
    h.workflowID = e.forkedID := by
  obtain ⟨-, h₀, -, -, rfl⟩ := hcopy
  rfl

/-- **The specification of `ForkWorkflows`.** -/
theorem forked_of_forkWorkflows (h : d.forkWorkflows appName i now = some d') :
    d.Forked appName i now i.entries d' := by
  obtain ⟨hnodup, -, -⟩ := forkedIDs h
  have hne : ∀ {e e'}, e ∈ i.entries → e' ∈ i.entries → e.originalID ≠ e'.forkedID := originalID_ne_forkedID h
  obtain ⟨-, ⟨rows, status, hrows, hstatus, hmarked⟩, hoperations, hhistory, hevents, hstreams, haudience⟩ :=
    forkWorkflows_eq_some h
  have hcopies : ∀ {e}, e ∈ i.entries → ∀ h,
      ForkDb.CopiesHistory { d with eventsHistory := d'.eventsHistory } e h ↔ d.CopiesHistory e h := by
    intro e he h
    simp only [CopiesHistory, Table.rows_insertAll hhistory, List.mem_append, mem_copiedHistory]
    refine and_congr_right fun _ => exists_congr fun h₀ => and_congr_left fun ⟨hcopied, _⟩ => ?_
    refine or_iff_left ?_
    rintro ⟨e', he', -, h₁, -, -, rfl⟩
    exact hne he he' (copied_iff.1 hcopied).1.symm
  constructor
  · intro r
    rw [hmarked, Table.rows_insertAll hstatus, List.map_append, List.mem_append, List.mem_map, List.mem_map]
    refine or_congr (exists_congr fun r₀ => and_congr_right fun _ => eq_comm) ⟨?_, ?_⟩
    · rintro ⟨x, hx, rfl⟩
      obtain ⟨e, he, hfork⟩ := (mem_of_mapM hrows).1 hx
      rw [markOriginal_of_isFork hne he hfork]
      exact ⟨e, he, hfork⟩
    · rintro ⟨e, he, hfork⟩
      exact ⟨r, (mem_of_mapM hrows).2 ⟨e, he, hfork⟩, markOriginal_of_isFork hne he hfork⟩
  · intro o
    rw [Table.rows_insertAll hoperations, List.mem_append, mem_copiedOperations]
  · intro v
    rw [Table.rows_insertAll hevents, List.mem_append, List.mem_map]
    refine or_congr_right ?_
    simp only [mem_latest, mem_copiedHistory]
    constructor
    · rintro ⟨h, ⟨⟨e, he, hcopy⟩, hlatest⟩, rfl⟩
      rw [hcopies he] at hcopy
      refine ⟨e, he, h, hcopy, rfl, fun h' hcopy' hkey => ?_⟩
      refine hlatest h' ⟨e, he, (hcopies he h').2 hcopy'⟩ ?_ hkey
      rw [workflowID_of_copiesHistory hcopy', workflowID_of_copiesHistory hcopy]
    · rintro ⟨e, he, h, hcopy, rfl, hlatest⟩
      refine ⟨h, ⟨⟨e, he, (hcopies he h).2 hcopy⟩, ?_⟩, rfl⟩
      rintro h' ⟨e', he', hcopy'⟩ hid hkey
      rw [hcopies he'] at hcopy'
      -- the partition is by the fork, and two entries do not share one
      rw [workflowID_of_copiesHistory hcopy', workflowID_of_copiesHistory hcopy] at hid
      obtain rfl := List.inj_on_of_nodup_map hnodup he' he hid
      exact hlatest h' hcopy' hkey
  · intro h
    rw [Table.rows_insertAll hhistory, List.mem_append, mem_copiedHistory]
  · intro r
    rw [Table.rows_insertAll hstreams, List.mem_append, mem_copiedStreams]
  · intro r
    rw [Table.rows_insertAll haudience, List.mem_append, mem_copiedAudience]

/-! ### The statements on `workflow_status` alone -/

/-- The table of the other operations, without the columns of the forks. -/
def statusTable (d : ForkDb) : StatusTable where
  rows := d.status.rows.map (·.toWorkflowRow)
  nodup := by
    rw [List.map_map]
    exact d.status.nodup

theorem find?_statusTable (d : ForkDb) (w : String) :
    d.statusTable.find? w = (d.status.find? w).map (·.toWorkflowRow) :=
  List.find?_map

end Batch

end ForkDb

end Dbos.Fork
