import DbosTransact.Streams.Append
import DbosTransact.SysDb.StatusTable

/-!
# A reader of a stream

`readStream` beside the writers of the stream and the operations on the workflow's status row. The reader
emits what it reads from its offset on and reports the end when it has found the close marker, or when it has
found the workflow neither `PENDING` nor `ENQUEUED` and has read once more.
-/

namespace Dbos

open Lts Relational Lifecycle

namespace StreamReader

/-- The stream with its writers, and the arguments of `readStream`. -/
structure Config (n : ℕ) where
  stream : Streams.Config n
  fromOffset : Int
  snapshot : Bool := false

inductive Phase
  | reading
  | checking
  | waiting
  /-- `Closed` was emitted -/
  | closed
  /-- the goroutine ended without `Closed` -/
  | stopped
  deriving DecidableEq, Repr

/-- The variables of the goroutine, and the entries that it has emitted. -/
structure Reader where
  phase : Phase
  currentOffset : Int
  finalRead : Bool
  emitted : List StreamEntry

namespace Reader

def afterRead (snapshot : Bool) (r : Reader) (entries : List StreamEntry) (closed : Bool) : Reader :=
  let r : Reader :=
    { r with
      currentOffset := entries.foldl (fun _ e => e.offset + 1) r.currentOffset,
      emitted := r.emitted ++ entries }
  if closed then { r with phase := .closed }
  else if snapshot then { r with phase := .stopped }
  else if r.finalRead then { r with phase := .closed }
  else if entries ≠ [] then r
  else { r with phase := .checking }

def afterStatus (r : Reader) : Option Status → Reader
  | none => { r with phase := .stopped }
  | some status =>
    if status ≠ .pending ∧ status ≠ .enqueued then { r with phase := .reading, finalRead := true }
    else { r with phase := .waiting }

end Reader

structure State (n : ℕ) where
  writers : Streams.State n
  status : StatusTable
  reader : Reader

/-- A statement of a writer, an operation on the status rows, or a statement of the reader. -/
inductive Action (n : ℕ)
  | stream (a : Streams.Action n)
  | operate (op : Operation)
  | read
  | checkStatus
  | wait

/-- The operation neither cancels, resumes nor dead-letters the workflow, nor does it remove rows. -/
def spares (id : String) : Operation → Bool
  | .cancelWorkflows ids _ | .resumeWorkflows ids _ _ | .deadLetterWorkflows ids _ _ => id ∉ ids
  | op => !op.removes

variable {n : ℕ}

def State.statusOf (cfg : Config n) (s : State n) : Option Status :=
  (s.status.find? cfg.stream.workflowID).map (·.status)

def step (cfg : Config n) (s : State n) : Action n → Option (State n)
  | .stream a => (Streams.step cfg.stream s.writers a).map fun w => { s with writers := w }
  | .operate op =>
    if spares cfg.stream.workflowID op then
      (Lifecycle.step s.status op).map fun t => { s with status := t }
    else none
  | .read =>
    if s.reader.phase = .reading then
      let (entries, closed) := s.writers.streams.readStream cfg.stream.workflowID cfg.stream.key
        s.reader.currentOffset
      some { s with reader := s.reader.afterRead cfg.snapshot entries closed }
    else none
  | .checkStatus =>
    if s.reader.phase = .checking then
      some { s with reader := s.reader.afterStatus (s.statusOf cfg) }
    else none
  | .wait =>
    if s.reader.phase = .waiting then some { s with reader := { s.reader with phase := .reading } }
    else none

def Reader.start (fromOffset : Int) : Reader := ⟨.reading, fromOffset, false, []⟩

def system (cfg : Config n) : System (State n) (Action n) where
  init s := (Streams.system cfg.stream).init s.writers ∧ s.reader = .start cfg.fromOffset
  step := step cfg

/-! ### What is in the stream -/

namespace Config

variable (cfg : Config n)

def window (t : StreamTable) : List StreamRow := (cfg.stream.rows t).drop cfg.fromOffset.toNat

/-- The contents of the stream from the reader's offset up to the close marker, or to its end. -/
def contents (t : StreamTable) : List StreamEntry :=
  (((cfg.stream.rows t).takeWhile fun r => !r.isMarker).filter fun r =>
    cfg.fromOffset ≤ r.offset).map StreamRow.entry

def closedBefore (t : StreamTable) : Bool :=
  (cfg.stream.rows t).any fun r => r.isMarker && r.offset < cfg.fromOffset

end Config

variable {cfg : Config n} {s t : State n} {a : Action n}

/-- Without a marker in front of the reader's offset, or without rows behind it, the contents are the
rows from the offset on, up to the first marker among them. -/
theorem contents_eq {streams : StreamTable}
    (h : streams.Contiguous cfg.stream.workflowID cfg.stream.key)
    (hbefore : cfg.closedBefore streams = true → cfg.window streams = []) :
    cfg.contents streams = ((cfg.window streams).takeWhile fun r => !r.isMarker).map StreamRow.entry := by
  have hrange := h.map_offset_drop 0
  rw [List.drop_zero] at hrange
  have hdrop := StreamTable.filter_offset_eq_drop cfg.fromOffset
    (StreamTable.map_offset_takeWhile (fun r : StreamRow => !r.isMarker) hrange)
  unfold Config.contents Streams.Config.rows
  rw [hdrop, Nat.sub_zero]
  congr 1
  by_cases hc : cfg.closedBefore streams = true
  · have hnil := hbefore hc
    rw [hnil, List.takeWhile_nil, List.drop_eq_nil_iff]
    exact le_trans (List.takeWhile_sublist _).length_le (List.drop_eq_nil_iff.1 hnil)
  · refine StreamTable.drop_takeWhile fun r hr => ?_
    have hlt := h.offset_of_mem_take hr
    simp only [Config.closedBefore, Bool.not_eq_true, List.any_eq_false, Bool.and_eq_true,
      decide_eq_true_eq, not_and] at hc
    by_contra hmarker
    exact hc r (List.mem_of_mem_take hr) (by simpa using hmarker) (by omega)

theorem toNat_foldl_offset {entries : List StreamEntry} {offset : Int}
    (h : entries.map (·.offset) = (List.range' offset.toNat entries.length).map fun i : ℕ => (i : Int)) :
    (entries.foldl (fun _ e => e.offset + 1) offset).toNat = offset.toNat + entries.length := by
  induction entries generalizing offset with
  | nil => rfl
  | cons e entries ih =>
    simp only [List.map_cons, List.length_cons, List.range'_succ, List.cons.injEq] at h
    have hnext : (e.offset + 1).toNat = offset.toNat + 1 := by omega
    rw [List.foldl_cons, ih (by rw [hnext]; exact h.2), hnext, List.length_cons]
    omega

/-! ### The invariant -/

def State.finished (cfg : Config n) (s : State n) : Bool := (s.statusOf cfg).any (·.isTerminal)

/-- The condition on one step: the reader does not find the workflow `DELAYED`, and a row is committed
only while the workflow has not finished and no marker stands in front of the reader's offset. -/
def Attended (cfg : Config n) (s : State n) : Action n → Prop
  | .stream a => Streams.commits cfg.stream s.writers a = true →
      s.finished cfg = false ∧ cfg.closedBefore s.writers.streams = false
  | .checkStatus => s.statusOf cfg ≠ some .delayed
  | .operate _ | .read | .wait => True

instance (cfg : Config n) (s : State n) (a : Action n) : Decidable (Attended cfg s a) := by
  unfold Attended
  split <;> infer_instance

/-- The reader has emitted the first `seen` rows of its window, none of them a marker. -/
structure Reader.Follows (r : Reader) (start seen : ℕ) (window : List StreamRow) : Prop where
  offset : r.currentOffset.toNat = start + seen
  seen_le : seen ≤ window.length
  emitted : r.emitted = (window.take seen).map StreamRow.entry
  isOpen : ∀ x ∈ window.take seen, (!x.isMarker) = true

/-- The reader has emitted its window up to the first marker, and nothing can be added in front of
that marker. -/
structure Reader.Ended (r : Reader) (window : List StreamRow) (finished : Bool) : Prop where
  emitted : r.emitted = (window.takeWhile fun x => !x.isMarker).map StreamRow.entry
  fixed : window.any (·.isMarker) = true ∨ finished = true

structure Inv (cfg : Config n) (s : State n) : Prop where
  writers : Streams.Inv cfg.stream s.writers
  before : cfg.closedBefore s.writers.streams = true → cfg.window s.writers.streams = []
  final : s.reader.finalRead = true → s.finished cfg = true
  follows : s.reader.phase ≠ .closed →
    ∃ seen, s.reader.Follows cfg.fromOffset.toNat seen (cfg.window s.writers.streams)
  ended : s.reader.phase = .closed → s.reader.Ended (cfg.window s.writers.streams) (s.finished cfg)

/-- A row added behind the window, or in front of it, leaves what the reader has emitted. -/
theorem Reader.Follows.append {r : Reader} {start seen : ℕ} {window : List StreamRow}
    (h : r.Follows start seen window) (added : List StreamRow) :
    r.Follows start seen (window ++ added) := by
  have htake : (window ++ added).take seen = window.take seen := List.take_append_of_le_length h.seen_le
  refine ⟨h.offset, ?_, ?_, ?_⟩
  · rw [List.length_append]
    exact le_trans h.seen_le (Nat.le_add_right _ _)
  · rw [htake]
    exact h.emitted
  · rw [htake]
    exact h.isOpen

theorem Reader.Ended.append {r : Reader} {window added : List StreamRow} {finished : Bool}
    (h : r.Ended window finished) (hfinished : finished = false) :
    r.Ended (window ++ added) finished := by
  have hmarker : window.any (·.isMarker) = true := h.fixed.resolve_right (by simp [hfinished])
  obtain ⟨m, hm, hmark⟩ := List.any_eq_true.1 hmarker
  refine ⟨?_, .inl (by simp [hmarker])⟩
  rw [h.emitted, List.takeWhile_append, if_neg]
  intro hall
  -- a window that its open prefix exhausts has no marker
  rw [← (List.takeWhile_sublist fun x : StreamRow => !x.isMarker).eq_of_length hall] at hm
  simpa [hmark] using List.mem_takeWhile_imp hm

theorem Inv.stream {w : Streams.State n} {b : Streams.Action n} (h : Inv cfg s)
    (hC : Attended cfg s (.stream b)) (hstep : Streams.step cfg.stream s.writers b = some w) :
    Inv cfg { s with writers := w } := by
  have hmoves := Streams.moves_of_step hstep
  have hw := h.writers.step hmoves
  rcases h.writers.rows_of_moves hmoves with hrows | ⟨hcommits, r, hoffset, hrows⟩
  · have hwindow : cfg.window w.streams = cfg.window s.writers.streams := by
      simp only [Config.window, hrows]
    refine ⟨hw, ?_, h.final, ?_, ?_⟩
    · simp only [Config.closedBefore, hrows, hwindow]
      exact h.before
    · simp only [hwindow]
      exact h.follows
    · simp only [hwindow]
      exact h.ended
  · obtain ⟨hfinished, hbefore⟩ := hC hcommits
    have hwindow : cfg.window w.streams = cfg.window s.writers.streams ++
        [r].drop (cfg.fromOffset.toNat - (cfg.stream.rows s.writers.streams).length) := by
      simp only [Config.window, hrows, List.drop_append]
    refine ⟨hw, fun hc => ?_, h.final, fun hp => ?_, fun hp => ?_⟩
    · -- only the new row can be a marker in front of the offset, and then nothing is behind it
      simp only [Config.closedBefore, hrows, List.any_append, List.any_cons, List.any_nil, Bool.or_false,
        Bool.or_eq_true, Bool.and_eq_true, decide_eq_true_eq] at hc hbefore
      rcases hc with hc | hc
      · rw [hbefore] at hc
        cases hc
      · unfold Config.window
        rw [List.drop_eq_nil_iff, hrows, List.length_append, List.length_singleton]
        omega
    · obtain ⟨seen, hseen⟩ := h.follows hp
      exact ⟨seen, hwindow ▸ hseen.append _⟩
    · simp only [hwindow]
      exact (h.ended hp).append hfinished

theorem isTerminal_onRow {op : Operation} {r : WorkflowRow} (hop : spares r.workflowID op = true)
    (hr : r.status.isTerminal = true) : (op.onRow r).status.isTerminal = true := by
  have hpending : r.status ≠ .pending := by
    rintro hst
    simp [hst, Status.isTerminal] at hr
  have henqueued : r.status ≠ .enqueued := by
    rintro hst
    simp [hst, Status.isTerminal] at hr
  have hdelayed : r.status ≠ .delayed := by
    rintro hst
    simp [hst, Status.isTerminal] at hr
  cases op with
  | insertWorkflowStatus appName i =>
    simp only [Operation.onRow]
    split_ifs <;> exact hr
  | renameApplication oldName newName adoptUnclaimedRows =>
    simp only [Operation.onRow]
    split_ifs <;> exact hr
  | cancelWorkflows ids now => simpa [Operation.onRow, of_decide_eq_true hop] using hr
  | resumeWorkflows ids queueName now => simpa [Operation.onRow, of_decide_eq_true hop] using hr
  | deadLetterWorkflows ids minAttempts now => simpa [Operation.onRow, of_decide_eq_true hop] using hr
  | _ =>
    simpa [Operation.onRow, StatusTable.claimTakes, StatusTable.debounceable, StatusTable.recoverable,
      WorkflowRow.delayExpired, hpending, henqueued, hdelayed] using hr

theorem removes_of_spares {id : String} {op : Operation} (h : spares id op = true) :
    op.removes = false := by
  cases op with
  | deleteWorkflows ids => cases h
  | garbageCollectWorkflows appName i => cases h
  | _ => rfl

theorem finished_operate {op : Operation} {u : StatusTable} (h : s.finished cfg = true)
    (hop : spares cfg.stream.workflowID op = true) (hstep : Lifecycle.step s.status op = some u) :
    State.finished cfg { s with status := u } = true := by
  simp only [State.finished, State.statusOf, Option.any_map, Option.any_eq_true] at h ⊢
  obtain ⟨r, hr, hterminal⟩ := h
  refine ⟨op.onRow r, find?_step_of_find? hstep (removes_of_spares hop) hr, ?_⟩
  exact isTerminal_onRow (by rw [Table.key_of_find? hr]; exact hop) hterminal

theorem Inv.read (h : Inv cfg s) {seen : ℕ}
    (hseen : s.reader.Follows cfg.fromOffset.toNat seen (cfg.window s.writers.streams))
    {entries : List StreamEntry} {closed : Bool}
    (hread : s.writers.streams.readStream cfg.stream.workflowID cfg.stream.key s.reader.currentOffset =
      (entries, closed)) :
    ∃ rows, entries = rows.map StreamRow.entry ∧
      (cfg.window s.writers.streams).take seen ++ rows =
        ((cfg.window s.writers.streams).takeWhile fun x => !x.isMarker) ∧
      (closed = true → (cfg.window s.writers.streams).any (·.isMarker) = true) ∧
      (entries.foldl (fun _ e => e.offset + 1) s.reader.currentOffset).toNat =
        s.reader.currentOffset.toNat + rows.length := by
  have hcontiguous := h.writers.contiguous
  have hwindow : (cfg.stream.rows s.writers.streams).drop s.reader.currentOffset.toNat =
      (cfg.window s.writers.streams).drop seen := by
    rw [Config.window, List.drop_drop, hseen.offset]
  rw [hcontiguous.readStream_eq, Prod.mk.injEq] at hread
  obtain ⟨rfl, rfl⟩ := hread
  have hoffsets := StreamTable.map_offset_takeWhile (fun x : StreamRow => !x.isMarker)
    (hcontiguous.map_offset_drop s.reader.currentOffset.toNat)
  unfold Streams.Config.rows at hwindow
  refine ⟨_, rfl, ?_, ?_, ?_⟩
  · rw [hwindow, ← List.takeWhile_append_of_pos hseen.isOpen, List.take_append_drop]
  · rw [hwindow]
    intro hclosed
    obtain ⟨m, hm, hmark⟩ := List.any_eq_true.1 hclosed
    exact List.any_eq_true.2 ⟨m, List.mem_of_mem_drop hm, hmark⟩
  · rw [toNat_foldl_offset, List.length_map]
    rw [List.map_map, List.length_map]
    exact hoffsets

/-- After a read the reader has emitted its window up to the first marker. -/
theorem Inv.afterRead (h : Inv cfg s) (hphase : s.reader.phase = .reading) {entries : List StreamEntry}
    {closed : Bool} (hread : s.writers.streams.readStream cfg.stream.workflowID cfg.stream.key
      s.reader.currentOffset = (entries, closed)) :
    Inv cfg { s with reader := s.reader.afterRead cfg.snapshot entries closed } := by
  obtain ⟨seen, hseen⟩ := h.follows (by simp [hphase])
  obtain ⟨rows, rfl, htake, hclosed, hoffset⟩ := h.read hseen hread
  have hemitted : s.reader.emitted ++ rows.map StreamRow.entry =
      ((cfg.window s.writers.streams).takeWhile fun x => !x.isMarker).map StreamRow.entry := by
    rw [hseen.emitted, ← List.map_append, htake]
  have hpre : (cfg.window s.writers.streams).takeWhile (fun x => !x.isMarker) =
      (cfg.window s.writers.streams).take (seen + rows.length) := by
    rw [List.prefix_iff_eq_take.1 (List.takeWhile_prefix (l := cfg.window s.writers.streams)
      fun x => !x.isMarker), ← htake, List.length_append, List.length_take, min_eq_left hseen.seen_le]
  -- the loop variables after the read, in whichever phase the branch leaves the goroutine
  have hfollows : ∀ (p : Phase) (final : Bool), Reader.Follows
      ⟨p, (rows.map StreamRow.entry).foldl (fun _ e => e.offset + 1) s.reader.currentOffset, final,
        s.reader.emitted ++ rows.map StreamRow.entry⟩
      cfg.fromOffset.toNat (seen + rows.length) (cfg.window s.writers.streams) := by
    intro p final
    refine ⟨?_, ?_, ?_, ?_⟩
    · rw [hoffset, hseen.offset]
      omega
    · have hlen := congrArg List.length htake
      have hle := (List.takeWhile_sublist (l := cfg.window s.writers.streams)
        fun x => !x.isMarker).length_le
      rw [List.length_append, List.length_take, min_eq_left hseen.seen_le] at hlen
      omega
    · rw [← hpre]
      exact hemitted
    · rw [← hpre]
      exact fun x hx => List.mem_takeWhile_imp (p := fun x : StreamRow => !x.isMarker) hx
  unfold Reader.afterRead
  dsimp only
  split_ifs with hc hsnapshot hfinal hentries
  · exact ⟨h.writers, h.before, h.final, by simp, fun _ => ⟨hemitted, .inl (hclosed hc)⟩⟩
  · exact ⟨h.writers, h.before, h.final, fun _ => ⟨_, hfollows _ _⟩, by simp⟩
  · exact ⟨h.writers, h.before, h.final, by simp, fun _ => ⟨hemitted, .inr (h.final hfinal)⟩⟩
  · exact ⟨h.writers, h.before, h.final, fun _ => ⟨_, hfollows _ _⟩, by simp [hphase]⟩
  · exact ⟨h.writers, h.before, h.final, fun _ => ⟨_, hfollows _ _⟩, by simp⟩

theorem Inv.afterStatus (h : Inv cfg s) (hphase : s.reader.phase = .checking)
    (hC : s.statusOf cfg ≠ some .delayed) :
    Inv cfg { s with reader := s.reader.afterStatus (s.statusOf cfg) } := by
  obtain ⟨seen, hseen⟩ := h.follows (by simp [hphase])
  have hsame : ∀ (p : Phase) (final : Bool), Reader.Follows { s.reader with phase := p, finalRead := final }
      cfg.fromOffset.toNat seen (cfg.window s.writers.streams) :=
    fun _ _ => ⟨hseen.offset, hseen.seen_le, hseen.emitted, hseen.isOpen⟩
  cases hstatus : s.statusOf cfg with
  | none => exact ⟨h.writers, h.before, h.final, fun _ => ⟨seen, hsame _ _⟩, by simp [Reader.afterStatus]⟩
  | some status =>
    simp only [Reader.afterStatus]
    split_ifs with hinactive
    · refine ⟨h.writers, h.before, fun _ => ?_, fun _ => ⟨seen, hsame _ _⟩, by simp⟩
      -- neither active nor delayed: the workflow has finished
      simp only [State.finished, State.statusOf] at hstatus ⊢
      rw [hstatus]
      cases status <;> simp_all [Status.isTerminal, State.statusOf]
    · exact ⟨h.writers, h.before, h.final, fun _ => ⟨seen, hsame _ _⟩, by simp⟩

theorem Inv.step (h : Inv cfg s) (hC : Attended cfg s a) (hstep : step cfg s a = some t) : Inv cfg t := by
  cases a with
  | stream b =>
    obtain ⟨w, hw, rfl⟩ := Option.map_eq_some_iff.1 hstep
    exact h.stream hC hw
  | operate op =>
    simp only [StreamReader.step] at hstep
    split_ifs at hstep with hop
    obtain ⟨u, hu, rfl⟩ := Option.map_eq_some_iff.1 hstep
    refine ⟨h.writers, h.before, fun hf => finished_operate (h.final hf) hop hu, h.follows, fun hp => ?_⟩
    exact ⟨(h.ended hp).emitted, (h.ended hp).fixed.imp_right fun hf => finished_operate hf hop hu⟩
  | read =>
    simp only [StreamReader.step] at hstep
    split_ifs at hstep with hphase
    cases hstep
    exact h.afterRead hphase rfl
  | checkStatus =>
    simp only [StreamReader.step] at hstep
    split_ifs at hstep with hphase
    cases hstep
    exact h.afterStatus hphase hC
  | wait =>
    simp only [StreamReader.step] at hstep
    split_ifs at hstep with hphase
    cases hstep
    obtain ⟨seen, hseen⟩ := h.follows (by simp [hphase])
    exact ⟨h.writers, h.before, h.final,
      fun _ => ⟨seen, hseen.offset, hseen.seen_le, hseen.emitted, hseen.isOpen⟩, by simp⟩

theorem inv_of_reaches (h : Reaches (system cfg) (Attended cfg) s) : Inv cfg s := by
  refine Reaches.invariant (I := Inv cfg) ?_ (fun s a t hI hC hstep => hI.step hC hstep) h
  rintro s ⟨hw, hr⟩
  have hopen : ∀ r ∈ cfg.stream.rows s.writers.streams, ¬ r.isMarker = true := by
    simpa [StreamTable.isClosed, Streams.Config.rows] using hw.2.1
  refine ⟨Streams.inv_of_init hw, fun hc => ?_, by simp [hr, Reader.start], fun _ => ⟨0, ?_⟩,
    by simp [hr, Reader.start]⟩
  · obtain ⟨r, hrows, hmark⟩ := List.any_eq_true.1 hc
    simp [hopen r hrows] at hmark
  · exact ⟨by simp [hr, Reader.start], by simp, by simp [hr, Reader.start], by simp⟩

/-- **A reader that reports the end has seen everything.** The entries that it has emitted are the
contents of the stream from its offset on, when it reports the end and in every later state. -/
theorem reader_complete (h : Reaches (system cfg) (Attended cfg) s) (hclosed : s.reader.phase = .closed) :
    s.reader.emitted = cfg.contents s.writers.streams := by
  have hI := inv_of_reaches h
  rw [(hI.ended hclosed).emitted, contents_eq hI.writers.contiguous hI.before]

/-- A workflow that writes from two steps, and a reader from the start of the stream. -/
def sampleConfig : Config 2 where
  stream := ⟨"wf", "progress", fun i => .write "v" "DBOS_JSON" i.val true⟩
  fromOffset := 0

/-- The workflow runs; nothing is written and the reader is at its start. -/
def sampleStart : State 2 where
  writers := Streams.initial
  status := .insert .empty { workflowID := "wf", status := .pending }
  reader := .start 0

theorem init_sampleStart : (system sampleConfig).init sampleStart :=
  ⟨Streams.init_initial _, rfl⟩

def writing {n : ℕ} (i : Fin n) : List (Action n) :=
  [.stream (.issue i), .stream (.check i), .stream (.compute i), .stream (.place i)]

/-- The workflow writes and is suspended while the reader drains the stream; then it goes on. -/
def suspendedRun {n : ℕ} (i j : Fin n) : List (Action n) :=
  List.flatten
    [writing i,
      [.read, .operate (.suspendWorkflowToDelayed "wf" 100 10), .read, .checkStatus, .read,
        .operate (.wake ["wf"] 20), .operate (.transitionDelayedWorkflows "" 30),
        .operate (.dequeueWorkflows ⟨"ex", "v1", "", false⟩ ["wf"] 40)],
      writing j]

/-- The reader has reported the end, and the workflow has written more. -/
theorem delayed_reader_stops :
    ∃ s, Reaches (system sampleConfig) (fun _ _ => True) s ∧ s.reader.phase = .closed ∧
      s.statusOf sampleConfig = some .pending ∧ s.reader.emitted.length = 1 ∧
      (sampleConfig.contents s.writers.streams).length = 2 := by
  obtain ⟨s, hs, hp⟩ := exists_reaches (S := system sampleConfig) (fun _ _ => True) (s := sampleStart)
    (suspendedRun 0 1)
    (fun s => s.reader.phase = .closed && s.statusOf sampleConfig = some .pending &&
      s.reader.emitted.length = 1 && (sampleConfig.contents s.writers.streams).length = 2)
    init_sampleStart (fun _ _ => trivial) (by decide +kernel)
  simp only [Bool.and_eq_true, decide_eq_true_eq, and_assoc] at hp
  exact ⟨s, hs, hp⟩

/-- The workflow is suspended between two checks of the reader, and finishes. -/
def attendedRun {n : ℕ} (i j : Fin n) : List (Action n) :=
  List.flatten
    [writing i,
      [.read, .read, .checkStatus, .operate (.suspendWorkflowToDelayed "wf" 100 10),
        .operate (.wake ["wf"] 20), .operate (.transitionDelayedWorkflows "" 30),
        .operate (.dequeueWorkflows ⟨"ex", "v1", "", false⟩ ["wf"] 40), .wait, .read, .checkStatus],
      writing j,
      [.operate (.updateWorkflowOutcome "wf" false none none 50), .wait, .read, .read, .checkStatus, .read]]

theorem reader_complete_attendedRun :
    ∃ s : State 2, s.reader.emitted = sampleConfig.contents s.writers.streams ∧
      s.reader.emitted.length = 2 := by
  obtain ⟨s, hs, hp⟩ := exists_reaches (S := system sampleConfig) (Attended sampleConfig)
    (s := sampleStart) (attendedRun 0 1)
    (fun s => s.reader.phase = .closed && s.reader.emitted.length = 2)
    init_sampleStart (by decide +kernel) (by decide +kernel)
  simp only [Bool.and_eq_true, decide_eq_true_eq] at hp
  exact ⟨s, reader_complete hs hp.1, hp.2⟩

end StreamReader

end Dbos
