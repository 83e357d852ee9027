import DbosTransact.Lib.Table
import DbosTransact.SysDb.Dialect
import Mathlib.Data.List.Sort
import Mathlib.Data.List.TakeWhile

/-!
# The table `streams`

A stream is the rows of one `(workflow_uuid, key)`, numbered by `offset`; the row whose value is the
sentinel closes it. `WriteStream` is two statements: the closed check (`isClosed`) and an insertion at
`nextOffset`. `ReadStream` returns the rows from an offset on, in order, up to the sentinel.
-/

namespace Dbos

open Relational

def streamClosedSentinel : String := "__DBOS_STREAM_CLOSED__"

/-- A row of `streams`. -/
structure StreamRow where
  workflowID : String
  key : String
  value : String
  offset : Int
  functionID : Int := 0
  serialization : String := ""
  deriving DecidableEq, Repr

def StreamRow.isMarker (r : StreamRow) : Bool := r.value = streamClosedSentinel

/-- The table `streams`, with its primary key. -/
abbrev StreamTable := Table fun r : StreamRow => (r.workflowID, r.key, r.offset)

/-- `WriteStreamDBInput`, without its transaction. -/
structure WriteStreamInput where
  key : String
  value : String
  serialization : String := ""
  workflowID : String
  stepID : Int := 0
  deriving DecidableEq, Repr

def WriteStreamInput.row (i : WriteStreamInput) (offset : Int) : StreamRow where
  workflowID := i.workflowID
  key := i.key
  value := i.value
  offset := offset
  functionID := i.stepID
  serialization := i.serialization

/-- `StreamEntry`, as `ReadStream` fills it. -/
structure StreamEntry where
  value : String
  offset : Int
  serialization : String := ""
  deriving DecidableEq, Repr

def StreamRow.entry (r : StreamRow) : StreamEntry := ⟨r.value, r.offset, r.serialization⟩

def streamClosedError (key : String) : GoError := .new s!"stream '{key}' is already closed"

def streamInsertError : GoError :=
  .wrapf "failed to insert stream entry" (uniqueViolation "streams_pkey")

namespace StreamTable

def stream (t : StreamTable) (workflowID key : String) : List StreamRow :=
  t.rows.filter fun r => r.workflowID = workflowID && r.key = key

/-- `checkClosedQuery`. -/
def isClosed (t : StreamTable) (workflowID key : String) : Bool :=
  (t.stream workflowID key).any (·.isMarker)

/-- `COALESCE(MAX("offset"), -1) + 1`. -/
def nextOffset (t : StreamTable) (workflowID key : String) : Int :=
  ((t.stream workflowID key).map (·.offset)).max?.getD (-1) + 1

/-- The rows that the query of `ReadStream` returns. -/
def rowsFrom (t : StreamTable) (workflowID key : String) (fromOffset : Int) : List StreamRow :=
  ((t.stream workflowID key).filter fun r => fromOffset ≤ r.offset).insertionSort
    fun r r' => r.offset ≤ r'.offset

/-- `ReadStream`: the entries up to the sentinel, and whether the sentinel was found. -/
def readStream (t : StreamTable) (workflowID key : String) (fromOffset : Int) :
    List StreamEntry × Bool :=
  let rows := t.rowsFrom workflowID key fromOffset
  ((rows.takeWhile fun r => !r.isMarker).map StreamRow.entry, rows.any (·.isMarker))

theorem drop_takeWhile {rows : List StreamRow} {p : StreamRow → Bool} {k : ℕ}
    (h : ∀ r ∈ rows.take k, p r = true) : (rows.takeWhile p).drop k = (rows.drop k).takeWhile p := by
  induction rows generalizing k with
  | nil => simp
  | cons r rows ih =>
    cases k with
    | zero => rfl
    | succ k =>
      rw [List.take_succ_cons, List.forall_mem_cons] at h
      rw [List.takeWhile_cons_of_pos h.1, List.drop_succ_cons, List.drop_succ_cons, ih h.2]

/-- The rows of the stream are numbered `0, 1, 2, …`. -/
def Contiguous (t : StreamTable) (workflowID key : String) : Prop :=
  (t.stream workflowID key).map (·.offset) =
    (List.range (t.stream workflowID key).length).map fun i : ℕ => (i : Int)

section Contiguous

variable {t : StreamTable} {workflowID key : String}

theorem contiguous_empty : Contiguous .empty workflowID key := rfl

theorem Contiguous.offset_mem_iff (h : t.Contiguous workflowID key) {o : Int} :
    (∃ r ∈ t.stream workflowID key, r.offset = o) ↔ 0 ≤ o ∧ o < (t.stream workflowID key).length := by
  rw [← List.mem_map, h]
  constructor
  · intro ho
    obtain ⟨i, hi, rfl⟩ := List.mem_map.1 ho
    have := List.mem_range.1 hi
    omega
  · rintro ⟨ho, hlt⟩
    refine List.mem_map.2 ⟨o.toNat, List.mem_range.2 ?_, ?_⟩ <;> omega

theorem Contiguous.nextOffset_eq (h : t.Contiguous workflowID key) :
    t.nextOffset workflowID key = (t.stream workflowID key).length := by
  unfold nextOffset
  rw [h]
  cases hn : (t.stream workflowID key).length with
  | zero => rfl
  | succ n =>
    have hmax : ((List.range (n + 1)).map fun i : ℕ => (i : Int)).max? = some (n : Int) := by
      rw [List.max?_eq_some_iff]
      constructor
      · exact List.mem_map.2 ⟨n, by simp, rfl⟩
      · intro b hb
        obtain ⟨i, hi, rfl⟩ := List.mem_map.1 hb
        have := List.mem_range.1 hi
        omega
    rw [hmax]
    simp

theorem Contiguous.find?_eq_none_iff (h : t.Contiguous workflowID key) {o : Int} :
    t.find? (workflowID, key, o) = none ↔ ¬ (0 ≤ o ∧ o < (t.stream workflowID key).length) := by
  rw [← h.offset_mem_iff, Table.find?_eq_none]
  constructor
  · rintro hnone ⟨r, hr, rfl⟩
    obtain ⟨hr, hkey⟩ := List.mem_filter.1 hr
    simp only [Bool.and_eq_true, decide_eq_true_eq] at hkey
    exact hnone r hr (by rw [hkey.1, hkey.2])
  · intro hnone r hr hkey
    simp only [Prod.mk.injEq] at hkey
    exact hnone ⟨r, List.mem_filter.2 ⟨hr, by simp [hkey.1, hkey.2.1]⟩, hkey.2.2⟩

/-- An insertion at a free offset puts the row at the end of its stream. -/
theorem stream_insert {r : StreamRow} (hw : r.workflowID = workflowID) (hk : r.key = key)
    (hfree : t.find? (workflowID, key, r.offset) = none) :
    stream (t.insert r) workflowID key = t.stream workflowID key ++ [r] := by
  subst hw hk
  simp only [stream]
  rw [Table.rows_insert, if_pos hfree, List.filter_append]
  simp

theorem Contiguous.insert (h : t.Contiguous workflowID key) {r : StreamRow}
    (hw : r.workflowID = workflowID) (hk : r.key = key)
    (ho : r.offset = (t.stream workflowID key).length) :
    Contiguous (t.insert r) workflowID key := by
  have hfree : t.find? (workflowID, key, r.offset) = none := by
    rw [h.find?_eq_none_iff]
    omega
  unfold Contiguous at h ⊢
  rw [stream_insert hw hk hfree]
  simp [h, List.range_succ, ho]

theorem Contiguous.pairwise (h : t.Contiguous workflowID key) :
    (t.stream workflowID key).Pairwise fun r r' => r.offset < r'.offset := by
  have hsorted : ((t.stream workflowID key).map (·.offset)).Pairwise (· < ·) := by
    rw [h, List.pairwise_map]
    exact List.pairwise_lt_range.imp fun hlt => by omega
  exact List.pairwise_map.1 hsorted

theorem filter_offset_eq_drop {rows : List StreamRow} {start : ℕ} (fromOffset : Int)
    (h : rows.map (·.offset) = (List.range' start rows.length).map fun i : ℕ => (i : Int)) :
    (rows.filter fun r => fromOffset ≤ r.offset) = rows.drop (fromOffset.toNat - start) := by
  induction rows generalizing start with
  | nil => simp
  | cons r rows ih =>
    simp only [List.map_cons, List.length_cons, List.range'_succ, List.cons.injEq] at h
    obtain ⟨hr, hrows⟩ := h
    by_cases hlt : fromOffset ≤ r.offset
    · have hzero : fromOffset.toNat - start = 0 := by omega
      have hzero' : fromOffset.toNat - (start + 1) = 0 := by omega
      rw [List.filter_cons_of_pos (by simpa using hlt), ih hrows, hzero, hzero']
      simp
    · have hsucc : fromOffset.toNat - start = fromOffset.toNat - (start + 1) + 1 := by omega
      rw [List.filter_cons_of_neg (by simpa using hlt), ih hrows, hsucc, List.drop_succ_cons]

theorem map_offset_takeWhile {rows : List StreamRow} {start : ℕ} (p : StreamRow → Bool)
    (h : rows.map (·.offset) = (List.range' start rows.length).map fun i : ℕ => (i : Int)) :
    (rows.takeWhile p).map (·.offset) =
      (List.range' start (rows.takeWhile p).length).map fun i : ℕ => (i : Int) := by
  induction rows generalizing start with
  | nil => rfl
  | cons r rows ih =>
    simp only [List.map_cons, List.length_cons, List.range'_succ, List.cons.injEq] at h
    by_cases hp : p r = true
    · rw [List.takeWhile_cons_of_pos hp]
      simp only [List.map_cons, List.length_cons, List.range'_succ, List.cons.injEq]
      exact ⟨h.1, ih h.2⟩
    · rw [List.takeWhile_cons_of_neg hp]
      rfl

theorem Contiguous.map_offset_drop (h : t.Contiguous workflowID key) (start : ℕ) :
    ((t.stream workflowID key).drop start).map (·.offset) =
      (List.range' start ((t.stream workflowID key).drop start).length).map fun i : ℕ => (i : Int) := by
  rw [List.map_drop, h, ← List.map_drop, List.range_eq_range', List.drop_range']
  simp

theorem Contiguous.offset_of_mem_take (h : t.Contiguous workflowID key) {r : StreamRow} {k : ℕ}
    (hr : r ∈ (t.stream workflowID key).take k) : 0 ≤ r.offset ∧ r.offset < k := by
  have hmem : r.offset ∈ ((t.stream workflowID key).take k).map (·.offset) := List.mem_map_of_mem hr
  rw [List.map_take, h, ← List.map_take, List.take_range] at hmem
  obtain ⟨i, hi, hoffset⟩ := List.mem_map.1 hmem
  have := List.mem_range.1 hi
  omega

theorem Contiguous.rowsFrom_eq (h : t.Contiguous workflowID key) (fromOffset : Int) :
    t.rowsFrom workflowID key fromOffset = (t.stream workflowID key).drop fromOffset.toNat := by
  have hle : (t.stream workflowID key).Pairwise fun r r' => r.offset ≤ r'.offset :=
    h.pairwise.imp fun hlt => by omega
  unfold rowsFrom
  rw [(hle.sublist List.filter_sublist).insertionSort_eq,
    filter_offset_eq_drop fromOffset (by rw [← List.range_eq_range']; exact h),
    Nat.sub_zero]

/-- **What `ReadStream` returns** of a contiguous stream: the rows from the offset on, up to the first
marker among them. -/
theorem Contiguous.readStream_eq (h : t.Contiguous workflowID key) (fromOffset : Int) :
    t.readStream workflowID key fromOffset =
      ((((t.stream workflowID key).drop fromOffset.toNat).takeWhile fun r => !r.isMarker).map
        StreamRow.entry, ((t.stream workflowID key).drop fromOffset.toNat).any (·.isMarker)) := by
  simp only [readStream, h.rowsFrom_eq]

theorem Contiguous.entry_mem_readStream (h : t.Contiguous workflowID key) {r : StreamRow}
    (hr : r ∈ t.stream workflowID key)
    (hbefore : ∀ m ∈ t.stream workflowID key, m.isMarker = true → r.offset < m.offset) :
    r.entry ∈ (t.readStream workflowID key 0).1 := by
  rw [h.readStream_eq, Int.toNat_zero, List.drop_zero]
  refine List.mem_map_of_mem ?_
  -- no marker stands before the row, so the prefix without markers reaches it
  have hsorted := h.pairwise
  revert hr hbefore hsorted
  generalize t.stream workflowID key = rows
  intro hr hbefore hsorted
  induction rows with
  | nil => cases hr
  | cons x rows ih =>
    rw [List.pairwise_cons] at hsorted
    have hx : x.isMarker = false := by
      by_contra hx
      have hlt := hbefore x List.mem_cons_self (by simpa using hx)
      rcases List.mem_cons.1 hr with rfl | hr
      · omega
      · have := hsorted.1 r hr
        omega
    rw [List.takeWhile_cons_of_pos (by simp [hx])]
    rcases List.mem_cons.1 hr with rfl | hr
    · exact List.mem_cons_self
    · exact List.mem_cons_of_mem x
        (ih hr (fun m hm => hbefore m (List.mem_cons_of_mem x hm)) hsorted.2)

end Contiguous

end StreamTable

end Dbos
