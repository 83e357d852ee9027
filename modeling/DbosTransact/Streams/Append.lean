import DbosTransact.Lib.Transition
import DbosTransact.SysDb.Streams
import Mathlib.Data.Fintype.Basic

/-!
# Concurrent writes to one stream

Several calls of `WriteStream` and `CloseStream` on one stream under READ COMMITTED. A call checks that the
stream is open, computes its offset in the snapshot of its insertion, and places its row there: it waits
while another transaction has an uncommitted row at that offset, and fails if a committed row has it. A call
inside a step commits its row at once; any other call runs in a transaction that commits later. An attempt
that breaks before its commit is made again by `Retry`.
-/

namespace Dbos

open Lts Relational

namespace Streams

inductive Call
  | write (value serialization : String) (stepID : Int) (inStep : Bool)
  | close (stepID : Int)
  deriving DecidableEq, Repr

namespace Call

def isClose : Call → Bool
  | .write _ _ _ _ => false
  | .close _ => true

def inStep : Call → Bool
  | .write _ _ _ inStep => inStep
  | .close _ => false

/-- What the call gives to `SysDB.WriteStream`. -/
def input (workflowID key : String) : Call → WriteStreamInput
  | .write value serialization stepID _ => ⟨key, value, serialization, workflowID, stepID⟩
  | .close stepID => ⟨key, streamClosedSentinel, "", workflowID, stepID⟩

end Call

structure Config (n : ℕ) where
  workflowID : String
  key : String
  call : Fin n → Call

inductive Phase
  | idle
  | issued
  | checked
  /-- the snapshot of the insertion has given its offset -/
  | computed (offset : Int)
  /-- the row is inserted and not committed -/
  | inserted (offset : Int)
  | returned (result : Except GoError Int)

def Phase.target? : Phase → Option Int
  | .computed o => some o
  | _ => none

def Phase.stored? : Phase → Option Int
  | .returned (.ok o) => some o
  | _ => none

def Phase.error? : Phase → Option GoError
  | .returned (.error e) => some e
  | _ => none

def Phase.pending? : Phase → Option Int
  | .inserted o => some o
  | _ => none

def Phase.isIdle : Phase → Bool
  | .idle => true
  | _ => false

theorem Phase.eq_of_stored? {p : Phase} {o : Int} (h : p.stored? = some o) : p = .returned (.ok o) := by
  unfold stored? at h
  split at h
  · rw [Option.some.inj h]
  · cases h

theorem Phase.eq_of_error? {p : Phase} {e : GoError} (h : p.error? = some e) :
    p = .returned (.error e) := by
  unfold error? at h
  split at h
  · rw [Option.some.inj h]
  · cases h

/-- The committed rows, the calls, and which of them were issued before every close. -/
structure State (n : ℕ) where
  streams : StreamTable
  phase : Fin n → Phase
  early : Fin n → Bool

inductive Action (n : ℕ)
  | issue (i : Fin n)
  | check (i : Fin n)
  | compute (i : Fin n)
  | place (i : Fin n)
  | commit (i : Fin n)
  /-- the attempt breaks before its commit, and is made again -/
  | abort (i : Fin n)
  deriving DecidableEq

variable {n : ℕ}

namespace Config

variable (cfg : Config n)

def row (i : Fin n) (offset : Int) : StreamRow :=
  ((cfg.call i).input cfg.workflowID cfg.key).row offset

def rows (t : StreamTable) : List StreamRow := t.stream cfg.workflowID cfg.key

@[simp] theorem workflowID_row (i : Fin n) (o : Int) : (cfg.row i o).workflowID = cfg.workflowID := by
  unfold row
  cases cfg.call i <;> rfl

@[simp] theorem key_row (i : Fin n) (o : Int) : (cfg.row i o).key = cfg.key := by
  unfold row
  cases cfg.call i <;> rfl

@[simp] theorem offset_row (i : Fin n) (o : Int) : (cfg.row i o).offset = o := rfl

def isFree (t : StreamTable) (o : Int) : Bool := (t.find? (cfg.workflowID, cfg.key, o)).isNone

end Config

namespace State

def goto (s : State n) (i : Fin n) (p : Phase) : State n :=
  { s with phase := Function.update s.phase i p }

def append (cfg : Config n) (s : State n) (i : Fin n) (o : Int) : State n :=
  { s with
    streams := s.streams.insert (cfg.row i o),
    phase := Function.update s.phase i (.returned (.ok o)) }

/-- Another transaction has a row at the offset which is not committed. -/
def isLocked (s : State n) (i : Fin n) (o : Int) : Bool :=
  decide (∃ j, j ≠ i ∧ (s.phase j).pending? = some o)

/-- No `CloseStream` has been issued. -/
def noClose (cfg : Config n) (s : State n) : Bool :=
  decide (∀ j, (cfg.call j).isClose = true → (s.phase j).isIdle = true)

end State

def step (cfg : Config n) (s : State n) : Action n → Option (State n)
  | .issue i =>
    match s.phase i with
    | .idle => some { s.goto i .issued with early := Function.update s.early i (s.noClose cfg) }
    | _ => none
  | .check i =>
    match s.phase i with
    | .issued =>
      if s.streams.isClosed cfg.workflowID cfg.key then
        some (s.goto i (.returned (.error (streamClosedError cfg.key))))
      else some (s.goto i .checked)
    | _ => none
  | .compute i =>
    match s.phase i with
    | .checked => some (s.goto i (.computed (s.streams.nextOffset cfg.workflowID cfg.key)))
    | _ => none
  | .place i =>
    match s.phase i with
    | .computed o =>
      if s.isLocked i o then none
      else if !cfg.isFree s.streams o then some (s.goto i (.returned (.error streamInsertError)))
      else if (cfg.call i).inStep then some (s.append cfg i o)
      else some (s.goto i (.inserted o))
    | _ => none
  | .commit i =>
    match s.phase i with
    | .inserted o => some (s.append cfg i o)
    | _ => none
  | .abort i =>
    match s.phase i with
    | .idle | .returned _ => none
    | _ => some (s.goto i .issued)

/-- The calls on the stream. Before the first of them the stream is open and contiguous: it is empty, or
a fork has copied its first entries. -/
def system (cfg : Config n) : System (State n) (Action n) where
  init s := s.streams.Contiguous cfg.workflowID cfg.key ∧
    s.streams.isClosed cfg.workflowID cfg.key = false ∧ ∀ i, s.phase i = .idle
  step := step cfg

def initial : State n := ⟨.empty, fun _ => .idle, fun _ => false⟩

theorem init_initial (cfg : Config n) : (system cfg).init initial :=
  ⟨StreamTable.contiguous_empty, rfl, fun _ => rfl⟩

/-! ### What one statement can do -/

/-- What a statement does: a call moves on and the rows stay, or a row is committed. -/
inductive Moves (cfg : Config n) (s : State n) : Action n → State n → Prop
  | issue {i : Fin n} (h : s.phase i = .idle) : Moves cfg s (.issue i)
      { s.goto i .issued with early := Function.update s.early i (s.noClose cfg) }
  | closed {i : Fin n} (h : s.phase i = .issued)
      (hc : s.streams.isClosed cfg.workflowID cfg.key = true) :
      Moves cfg s (.check i) (s.goto i (.returned (.error (streamClosedError cfg.key))))
  | checked {i : Fin n} (h : s.phase i = .issued) : Moves cfg s (.check i) (s.goto i .checked)
  | computed {i : Fin n} (h : s.phase i = .checked) : Moves cfg s (.compute i)
      (s.goto i (.computed (s.streams.nextOffset cfg.workflowID cfg.key)))
  | refused {i : Fin n} {o : Int} (h : s.phase i = .computed o) (hf : cfg.isFree s.streams o = false) :
      Moves cfg s (.place i) (s.goto i (.returned (.error streamInsertError)))
  | inserted {i : Fin n} {o : Int} (h : s.phase i = .computed o) (hl : s.isLocked i o = false)
      (hf : cfg.isFree s.streams o = true) : Moves cfg s (.place i) (s.goto i (.inserted o))
  | placed {i : Fin n} {o : Int} (h : s.phase i = .computed o) (hl : s.isLocked i o = false)
      (hf : cfg.isFree s.streams o = true) (hs : (cfg.call i).inStep = true) :
      Moves cfg s (.place i) (s.append cfg i o)
  | committed {i : Fin n} {o : Int} (h : s.phase i = .inserted o) :
      Moves cfg s (.commit i) (s.append cfg i o)
  | abort {i : Fin n} (h : (s.phase i).isIdle = false) : Moves cfg s (.abort i) (s.goto i .issued)

variable {cfg : Config n} {s t : State n} {a : Action n}

theorem moves_of_step (h : step cfg s a = some t) : Moves cfg s a t := by
  cases a with
  | issue i =>
    simp only [step] at h
    split at h
    · cases h
      exact .issue ‹_›
    · cases h
  | check i =>
    simp only [step] at h
    split at h
    · split_ifs at h with hc <;> cases h
      · exact .closed ‹_› hc
      · exact .checked ‹_›
    · cases h
  | compute i =>
    simp only [step] at h
    split at h
    · cases h
      exact .computed ‹_›
    · cases h
  | place i =>
    simp only [step] at h
    split at h
    · split_ifs at h with hl hf hstep <;> cases h
      · exact .refused ‹_› (by simpa using hf)
      · exact .placed ‹_› (by simpa using hl) (by simpa using hf) hstep
      · exact .inserted ‹_› (by simpa using hl) (by simpa using hf)
    · cases h
  | commit i =>
    simp only [step] at h
    split at h
    · cases h
      exact .committed ‹_›
    · cases h
  | abort i =>
    simp only [step] at h
    split at h
    · cases h
    · cases h
    · cases h
      refine .abort ?_
      cases hp : s.phase i with
      | idle => simp_all
      | _ => rfl

/-! ### The offsets are contiguous -/

/-- How an offset that a call holds lies to a stream of this length. -/
def Phase.Fits (length : ℕ) : Phase → Prop
  | .computed o => 0 ≤ o ∧ o ≤ length
  | .inserted o => o = length
  | _ => True

/-- The committed rows are contiguous, and at most one row waits to be committed: the next one. -/
structure Inv (cfg : Config n) (s : State n) : Prop where
  contiguous : s.streams.Contiguous cfg.workflowID cfg.key
  fits : ∀ i, (s.phase i).Fits (cfg.rows s.streams).length
  once : ∀ i j, (s.phase i).pending?.isSome → (s.phase j).pending?.isSome → i = j

theorem Inv.isFree_iff (h : Inv cfg s) {o : Int} :
    cfg.isFree s.streams o = true ↔ ¬ (0 ≤ o ∧ o < (cfg.rows s.streams).length) := by
  unfold Config.isFree Config.rows
  rw [Option.isNone_iff_eq_none, h.contiguous.find?_eq_none_iff]

theorem Inv.goto (h : Inv cfg s) {i : Fin n} {p : Phase} (hfits : p.Fits (cfg.rows s.streams).length)
    (hpending : p.pending? = none) : Inv cfg (s.goto i p) where
  contiguous := h.contiguous
  fits := (Function.forall_update_iff s.phase fun _ q => q.Fits _).2 ⟨hfits, fun j _ => h.fits j⟩
  once j k hj hk := by
    by_cases hji : j = i
    · simp [State.goto, hji, hpending] at hj
    · by_cases hki : k = i
      · simp [State.goto, hki, hpending] at hk
      · simp only [State.goto, Function.update_of_ne hji, Function.update_of_ne hki] at hj hk
        exact h.once j k hj hk

/-- The call whose offset is free and not locked has the next offset, and is the only one. -/
theorem Inv.next_of_place (h : Inv cfg s) {i : Fin n} {o : Int} (hi : s.phase i = .computed o)
    (hl : s.isLocked i o = false) (hf : cfg.isFree s.streams o = true) :
    o = (cfg.rows s.streams).length ∧ ∀ j, (s.phase j).pending? = none := by
  have hle := h.fits i
  rw [hi] at hle
  have hnext : o = (cfg.rows s.streams).length := by
    have := h.isFree_iff.1 hf
    simp only [Phase.Fits] at hle
    omega
  refine ⟨hnext, fun j => ?_⟩
  by_contra hj
  obtain ⟨o', ho'⟩ := Option.ne_none_iff_exists'.1 hj
  have hfit := h.fits j
  cases hp : s.phase j with
  | inserted o'' =>
    rw [hp] at hfit
    simp only [Phase.Fits] at hfit
    simp only [State.isLocked, decide_eq_false_iff_not, not_exists, not_and] at hl
    refine hl j ?_ ?_
    · rintro rfl
      simp [hi] at hp
    · simp [hp, Phase.pending?, hfit, hnext]
  | _ => simp [hp, Phase.pending?] at ho'

theorem Inv.rows_append (h : Inv cfg s) {i : Fin n} {o : Int}
    (ho : o = (cfg.rows s.streams).length) :
    cfg.rows (s.append cfg i o).streams = cfg.rows s.streams ++ [cfg.row i o] := by
  refine StreamTable.stream_insert (cfg.workflowID_row i o) (cfg.key_row i o) ?_
  rw [h.contiguous.find?_eq_none_iff, Config.offset_row]
  unfold Config.rows at ho
  omega

theorem Inv.append (h : Inv cfg s) {i : Fin n} {o : Int} (ho : o = (cfg.rows s.streams).length)
    (honly : ∀ j, j ≠ i → (s.phase j).pending? = none) : Inv cfg (s.append cfg i o) where
  contiguous := h.contiguous.insert (cfg.workflowID_row i o) (cfg.key_row i o) ho
  fits := by
    rw [h.rows_append ho]
    refine (Function.forall_update_iff s.phase fun _ q => q.Fits _).2 ⟨trivial, fun j hj => ?_⟩
    have hfit := h.fits j
    cases hp : s.phase j with
    | computed o' =>
      rw [hp] at hfit
      simp only [Phase.Fits, List.length_append, List.length_singleton] at hfit ⊢
      omega
    | inserted o' => simpa [hp, Phase.pending?] using honly j hj
    | _ => trivial
  once j k hj hk := by
    have hnone : ∀ l, ((s.append cfg i o).phase l).pending? = none := by
      intro l
      simp only [State.append, Function.update_apply]
      split_ifs with hl
      · rfl
      · exact honly l hl
    simp [hnone] at hj

theorem Inv.step (h : Inv cfg s) (hm : Moves cfg s a t) : Inv cfg t := by
  cases hm with
  | @issue i hi =>
    obtain ⟨hcontiguous, hfits, honce⟩ := h.goto (i := i) (p := .issued) trivial rfl
    exact ⟨hcontiguous, hfits, honce⟩
  | closed hi hc => exact h.goto trivial rfl
  | checked hi => exact h.goto trivial rfl
  | computed hi =>
    refine h.goto ?_ rfl
    rw [Phase.Fits, h.contiguous.nextOffset_eq]
    exact ⟨by omega, le_refl _⟩
  | refused hi hf => exact h.goto trivial rfl
  | @inserted i o hi hl hf =>
    obtain ⟨hnext, hnone⟩ := h.next_of_place hi hl hf
    refine ⟨h.contiguous, ?_, fun j k hj hk => ?_⟩
    · exact (Function.forall_update_iff s.phase fun _ q => q.Fits _).2 ⟨hnext, fun j _ => h.fits j⟩
    · simp only [State.goto, Function.update_apply] at hj hk
      split_ifs at hj hk <;> simp_all
  | @placed i o hi hl hf _ =>
    obtain ⟨hnext, hnone⟩ := h.next_of_place hi hl hf
    exact h.append hnext fun j _ => hnone j
  | @committed i o hi =>
    have hfit := h.fits i
    rw [hi] at hfit
    refine h.append hfit fun j hj => ?_
    by_contra hpj
    exact hj (h.once j i (Option.isSome_iff_ne_none.2 hpj) (by simp [hi, Phase.pending?]))
  | abort hi => exact h.goto trivial rfl

theorem inv_of_init (h : (system cfg).init s) : Inv cfg s where
  contiguous := h.1
  fits i := by simp [h.2.2 i, Phase.Fits]
  once := by simp [h.2.2, Phase.pending?]

/-- **The committed entries always have contiguous offsets from 0.** -/
theorem inv_of_reaches {C : State n → Action n → Prop} (h : Reaches (system cfg) C s) : Inv cfg s :=
  Reaches.invariant (I := Inv cfg) (fun _ => inv_of_init)
    (fun _ _ _ hI _ hstep => hI.step (moves_of_step hstep)) h

def commits (cfg : Config n) (s : State n) : Action n → Bool
  | .place i => (cfg.call i).inStep && (s.phase i).target?.any (cfg.isFree s.streams)
  | .commit i => (s.phase i).pending?.isSome
  | _ => false

/-- **What a statement does to the stream**: nothing, or it adds a row at its end. -/
theorem Inv.rows_of_moves (h : Inv cfg s) (hm : Moves cfg s a t) :
    cfg.rows t.streams = cfg.rows s.streams ∨ commits cfg s a = true ∧
      ∃ r : StreamRow, r.offset = (cfg.rows s.streams).length ∧
        cfg.rows t.streams = cfg.rows s.streams ++ [r] := by
  cases hm with
  | @placed i o hi hl hf hs =>
    have hnext := (h.next_of_place hi hl hf).1
    exact .inr ⟨by simp [commits, hi, Phase.target?, hf, hs], cfg.row i o, hnext, h.rows_append hnext⟩
  | @committed i o hi =>
    have hfit := h.fits i
    rw [hi] at hfit
    exact .inr ⟨by simp [commits, hi, Phase.pending?], cfg.row i o, hfit, h.rows_append hfit⟩
  | _ => exact .inl rfl

/-! ### Writes and the close marker -/

/-- The call is a `WriteStream`. -/
def Config.isWrite (cfg : Config n) (i : Fin n) : Bool := !(cfg.call i).isClose

/-- The condition on one statement. No value is the sentinel; no write computes its offset behind a
marker; and a write issued before every close meets no marker at its check and no row at its offset. -/
def Separated (cfg : Config n) (s : State n) : Action n → Prop
  | .issue i => cfg.isWrite i = true → (cfg.row i 0).isMarker = false
  | .check i => cfg.isWrite i = true → s.early i = true →
      s.streams.isClosed cfg.workflowID cfg.key = false
  | .compute i => cfg.isWrite i = true → s.streams.isClosed cfg.workflowID cfg.key = false
  | .place i => cfg.isWrite i = true → s.early i = true →
      (s.phase i).target?.all (cfg.isFree s.streams) = true
  | .commit _ | .abort _ => True

instance (cfg : Config n) (s : State n) (a : Action n) : Decidable (Separated cfg s a) := by
  unfold Separated
  split <;> infer_instance

/-- What the statement says of one write: where it stands it is in front of every marker, and it has
not failed if it was issued before every close. -/
def Phase.Sound (rows : List StreamRow) (row : Int → StreamRow) (early : Bool) : Phase → Prop
  | .computed o | .inserted o => ∀ m ∈ rows, m.isMarker = true → o ≤ m.offset
  | .returned (.ok o) => row o ∈ rows ∧ ∀ m ∈ rows, m.isMarker = true → o < m.offset
  | .returned (.error _) => early = false
  | _ => True

/-- Every write is sound, and none that was issued writes the sentinel. -/
structure Sound (cfg : Config n) (s : State n) : Prop where
  sound : ∀ i, cfg.isWrite i = true → (s.phase i).Sound (cfg.rows s.streams) (cfg.row i) (s.early i)
  value : ∀ i, cfg.isWrite i = true → (s.phase i).isIdle = false → ∀ o, (cfg.row i o).isMarker = false

theorem Sound.goto (h : Sound cfg s) {i : Fin n} {p : Phase}
    (hp : cfg.isWrite i = true → p.Sound (cfg.rows s.streams) (cfg.row i) (s.early i))
    (hi : (s.phase i).isIdle = false) : Sound cfg (s.goto i p) where
  sound := (Function.forall_update_iff s.phase fun j q =>
    cfg.isWrite j = true → q.Sound (cfg.rows s.streams) (cfg.row j) (s.early j)).2
      ⟨hp, fun j _ => h.sound j⟩
  value j hw hj := by
    by_cases hji : j = i
    · exact h.value j hw (by rw [hji]; exact hi)
    · simp only [State.goto, Function.update_of_ne hji] at hj
      exact h.value j hw hj

theorem Phase.Sound.append {rows : List StreamRow} {row : Int → StreamRow} {early : Bool} {p : Phase}
    {r : StreamRow} (h : p.Sound rows row early) (hr : r.offset = rows.length)
    (hfits : p.Fits rows.length) (hrows : ∀ x ∈ rows, x.offset < rows.length)
    (hrow : ∀ o, (row o).offset = o) : p.Sound (rows ++ [r]) row early := by
  cases p with
  | idle => trivial
  | issued => trivial
  | checked => trivial
  | computed o =>
    intro m hm hmark
    rcases List.mem_append.1 hm with hm | hm
    · exact h m hm hmark
    · rw [List.mem_singleton.1 hm, hr]
      exact hfits.2
  | inserted o =>
    intro m hm hmark
    rcases List.mem_append.1 hm with hm | hm
    · exact h m hm hmark
    · rw [List.mem_singleton.1 hm, hr]
      exact le_of_eq hfits
  | returned result =>
    cases result with
    | error e => exact h
    | ok o =>
      refine ⟨List.mem_append_left _ h.1, fun m hm hmark => ?_⟩
      rcases List.mem_append.1 hm with hm | hm
      · exact h.2 m hm hmark
      · have hlt := hrows (row o) h.1
        rw [hrow] at hlt
        rw [List.mem_singleton.1 hm, hr]
        exact hlt

theorem Inv.offset_lt (h : Inv cfg s) {r : StreamRow} (hr : r ∈ cfg.rows s.streams) :
    r.offset < (cfg.rows s.streams).length :=
  (h.contiguous.offset_mem_iff.1 ⟨r, hr, rfl⟩).2

theorem Sound.append (h : Sound cfg s) (hI : Inv cfg s) {i : Fin n} {o : Int}
    (ho : o = (cfg.rows s.streams).length) (hi : (s.phase i).isIdle = false)
    (hmark : cfg.isWrite i = true → ∀ m ∈ cfg.rows s.streams, m.isMarker = true → o ≤ m.offset) :
    Sound cfg (s.append cfg i o) where
  sound := by
    rw [hI.rows_append ho]
    refine (Function.forall_update_iff s.phase fun j q =>
      cfg.isWrite j = true → q.Sound _ (cfg.row j) (s.early j)).2 ⟨fun hw => ?_, fun j _ hw => ?_⟩
    · refine ⟨by simp, fun m hm hmarker => ?_⟩
      rcases List.mem_append.1 hm with hm | hm
      · have hle := hmark hw m hm hmarker
        have hlt := hI.offset_lt hm
        omega
      · rw [List.mem_singleton.1 hm, h.value i hw hi o] at hmarker
        cases hmarker
    · exact (h.sound j hw).append ho (hI.fits j) (fun x hx => hI.offset_lt hx) fun _ => rfl
  value j hw hj := by
    by_cases hji : j = i
    · exact h.value j hw (by rw [hji]; exact hi)
    · simp only [State.append, Function.update_of_ne hji] at hj
      exact h.value j hw hj

theorem Sound.step (h : Sound cfg s) (hI : Inv cfg s) (hC : Separated cfg s a) (hm : Moves cfg s a t) :
    Sound cfg t := by
  cases hm with
  | @issue i hi =>
    refine ⟨fun j hw => ?_, fun j hw hj => ?_⟩
    · by_cases hji : j = i
      · simp [State.goto, hji, Phase.Sound]
      · simpa [State.goto, Function.update_of_ne hji] using h.sound j hw
    · by_cases hji : j = i
      · rw [hji] at hw ⊢
        exact fun _ => hC hw
      · simp only [State.goto, Function.update_of_ne hji] at hj
        exact h.value j hw hj
  | @closed i hi hc =>
    refine h.goto (fun hw => ?_) (by rw [hi]; rfl)
    -- a write issued before every close never meets a marker at its check
    by_contra hearly
    have hopen := hC hw (by simpa [Phase.Sound] using hearly)
    rw [hc] at hopen
    cases hopen
  | checked hi => exact h.goto (fun _ => trivial) (by rw [hi]; rfl)
  | computed hi =>
    refine h.goto (fun hw m hm hmark => ?_) (by rw [hi]; rfl)
    have hopen := hC hw
    simp only [StreamTable.isClosed, List.any_eq_false] at hopen
    exact (hopen m hm hmark).elim
  | @refused i o hi hf =>
    refine h.goto (fun hw => ?_) (by rw [hi]; rfl)
    by_contra hearly
    have hfree := hC hw (by simpa [Phase.Sound] using hearly)
    simp [hi, Phase.target?, hf] at hfree
  | @inserted i o hi hl hf =>
    have hsound := h.sound i
    rw [hi] at hsound
    exact h.goto hsound (by rw [hi]; rfl)
  | @placed i o hi hl hf _ =>
    have hsound := h.sound i
    rw [hi] at hsound
    exact h.append hI (hI.next_of_place hi hl hf).1 (by rw [hi]; rfl) hsound
  | @committed i o hi =>
    have hsound := h.sound i
    have hfit := hI.fits i
    rw [hi] at hsound hfit
    exact h.append hI hfit (by rw [hi]; rfl) hsound
  | abort hi => exact h.goto (fun _ => trivial) hi

theorem sound_of_reaches (h : Reaches (system cfg) (Separated cfg) s) : Sound cfg s := by
  suffices Inv cfg s ∧ Sound cfg s from this.2
  refine Reaches.invariant (I := fun s => Inv cfg s ∧ Sound cfg s) ?_ ?_ h
  · intro s hs
    exact ⟨inv_of_init hs, ⟨fun i _ => by simp [hs.2.2 i, Phase.Sound], by simp [hs.2.2, Phase.isIdle]⟩⟩
  · rintro s a t ⟨hI, hS⟩ hC hstep
    exact ⟨hI.step (moves_of_step hstep), hS.step hI hC (moves_of_step hstep)⟩

/-- A call that has not returned can take its next statement, or waits for a row that can be committed
now. -/
theorem exists_step (i : Fin n) (hidle : s.phase i ≠ .idle) (hret : ∀ r, s.phase i ≠ .returned r) :
    (∃ a ∈ [Action.check i, .compute i, .place i, .commit i], (step cfg s a).isSome = true) ∨
      ∃ j, (step cfg s (.commit j)).isSome = true := by
  cases hp : s.phase i with
  | idle => exact (hidle hp).elim
  | issued =>
    refine .inl ⟨.check i, by simp, ?_⟩
    simp only [step, hp]
    split_ifs <;> rfl
  | checked => exact .inl ⟨.compute i, by simp, by simp [step, hp]⟩
  | computed o =>
    by_cases hl : s.isLocked i o = true
    · obtain ⟨j, -, hj⟩ := of_decide_eq_true hl
      refine .inr ⟨j, ?_⟩
      cases hpj : s.phase j <;> simp [hpj, Phase.pending?] at hj
      simp [step, hpj]
    · refine .inl ⟨.place i, by simp, ?_⟩
      simp only [step, hp, if_neg hl]
      split_ifs <;> rfl
  | inserted o => exact .inl ⟨.commit i, by simp, by simp [step, hp]⟩
  | returned r => exact (hret r hp).elim

/-- Every write that returned nil has its value in front of every close marker, where `ReadStream`
returns it; a write issued before every close has not failed; and no call is stuck. -/
structure Linearized (cfg : Config n) (s : State n) : Prop where
  stored : ∀ i o, cfg.isWrite i = true → (s.phase i).stored? = some o →
    cfg.row i o ∈ cfg.rows s.streams ∧
    (∀ m ∈ cfg.rows s.streams, m.isMarker = true → o < m.offset) ∧
    (cfg.row i o).entry ∈ (s.streams.readStream cfg.workflowID cfg.key 0).1
  succeeds : ∀ i, cfg.isWrite i = true → s.early i = true → (s.phase i).error? = none
  enabled : ∀ i, s.phase i ≠ .idle → (∀ r, s.phase i ≠ .returned r) →
    (∃ a ∈ [Action.check i, .compute i, .place i, .commit i], (step cfg s a).isSome = true) ∨
      ∃ j, (step cfg s (.commit j)).isSome = true

/-- **Stream appends linearize** in every run whose statements are separated; the offsets are contiguous
in every run. -/
theorem appends_linearize (cfg : Config n) :
    (∀ s, Reaches (system cfg) (fun _ _ => True) s →
      s.streams.Contiguous cfg.workflowID cfg.key) ∧
    ∀ s, Reaches (system cfg) (Separated cfg) s → Linearized cfg s := by
  refine ⟨fun s h => (inv_of_reaches h).contiguous, fun s h => ?_⟩
  have hI := inv_of_reaches h
  have hS := sound_of_reaches h
  refine ⟨fun i o hw hi => ?_, fun i hw hearly => ?_, fun i => exists_step i⟩
  · have hsound := hS.sound i hw
    rw [Phase.eq_of_stored? hi] at hsound
    exact ⟨hsound.1, hsound.2, hI.contiguous.entry_mem_readStream hsound.1 hsound.2⟩
  · have hsound := hS.sound i hw
    cases he : (s.phase i).error? with
    | none => rfl
    | some e =>
      rw [Phase.eq_of_error? he] at hsound
      exact absurd (hsound.symm.trans hearly) (by simp)

/-! ### Two runs that are not separated -/

def sampleConfig : Config 3 where
  workflowID := "wf"
  key := "progress"
  call i := if i.val = 2 then .close 2 else .write "v" "DBOS_JSON" i.val true

def preparing (i : Fin n) : List (Action n) := [.issue i, .check i, .compute i]

def overtaken (i j : Fin n) : List (Action n) :=
  List.flatten [[.issue i, .check i], preparing j, [.place j, .commit j, .compute i, .place i]]

def parallel (i j : Fin n) : List (Action n) :=
  List.flatten [preparing i, preparing j, [.place i, .place j]]

/-- A write returns nil and stands behind the marker, where `ReadStream` does not return it; and a write
fails although no close was ever issued. -/
theorem appends_race :
    (∃ s, Reaches (system sampleConfig) (fun _ _ => True) s ∧
      ∃ i o, sampleConfig.isWrite i = true ∧ (s.phase i).stored? = some o ∧
        (∃ m ∈ sampleConfig.rows s.streams, m.isMarker = true ∧ m.offset < o) ∧
        (sampleConfig.row i o).entry ∉
          (s.streams.readStream sampleConfig.workflowID sampleConfig.key 0).1) ∧
    ∃ s, Reaches (system sampleConfig) (fun _ _ => True) s ∧ s.noClose sampleConfig = true ∧
      ∃ i, sampleConfig.isWrite i = true ∧ s.early i = true ∧
        (s.phase i).error? = some streamInsertError := by
  constructor
  · obtain ⟨s, hs, hp⟩ := exists_reaches (S := system sampleConfig) (fun _ _ => True) (s := initial)
      (overtaken 0 2)
      (fun s => (s.phase 0).stored?.any fun o =>
        (sampleConfig.rows s.streams).any (fun m => m.isMarker && m.offset < o) &&
        (sampleConfig.row 0 o).entry ∉
          (s.streams.readStream sampleConfig.workflowID sampleConfig.key 0).1)
      (init_initial _) (fun _ _ => trivial) (by decide +kernel)
    simp only [Option.any_eq_true, Bool.and_eq_true, List.any_eq_true, decide_eq_true_eq] at hp
    obtain ⟨o, ho, hmarker, hread⟩ := hp
    exact ⟨s, hs, 0, o, rfl, ho, hmarker, hread⟩
  · obtain ⟨s, hs, hp⟩ := exists_reaches (S := system sampleConfig) (fun _ _ => True) (s := initial)
      (parallel 0 1)
      (fun s => s.noClose sampleConfig && s.early 1 && (s.phase 1).error? = some streamInsertError)
      (init_initial _) (fun _ _ => trivial) (by decide +kernel)
    simp only [Bool.and_eq_true, decide_eq_true_eq] at hp
    exact ⟨s, hs, hp.1.1, 1, rfl, hp.1.2, hp.2⟩

def oneByOne (i j k : Fin n) : List (Action n) :=
  List.flatten [preparing i, [.place i], preparing j, [.place j], preparing k, [.place k, .commit k]]

theorem appends_linearize_oneByOne :
    ∃ s, Linearized sampleConfig s ∧ s.streams.isClosed sampleConfig.workflowID sampleConfig.key = true ∧
      (s.streams.readStream sampleConfig.workflowID sampleConfig.key 0).1.length = 2 := by
  obtain ⟨s, hs, hp⟩ := exists_reaches (S := system sampleConfig) (Separated sampleConfig)
    (s := initial) (oneByOne 0 1 2)
    (fun s => s.streams.isClosed sampleConfig.workflowID sampleConfig.key &&
      (s.streams.readStream sampleConfig.workflowID sampleConfig.key 0).1.length = 2)
    (init_initial _) (by decide +kernel) (by decide +kernel)
  simp only [Bool.and_eq_true, decide_eq_true_eq] at hp
  exact ⟨s, (appends_linearize sampleConfig).2 s hs, hp⟩

/-! ### Reads -/

theorem rows_of_run {tr : List (Transition (State n) (Action n))} (hs : Inv cfg s)
    (h : Run (system cfg) s tr t) : Inv cfg t ∧ ∃ rest, cfg.rows t.streams = cfg.rows s.streams ++ rest := by
  induction h with
  | nil => exact ⟨hs, [], (List.append_nil _).symm⟩
  | snoc _ hstep ih =>
    have hm := moves_of_step hstep
    obtain ⟨hI, rest, hrest⟩ := ih
    refine ⟨hI.step hm, ?_⟩
    obtain heq | ⟨-, r, -, heq⟩ := hI.rows_of_moves hm
    · exact ⟨rest, heq.trans hrest⟩
    · exact ⟨rest ++ [r], by rw [heq, hrest, List.append_assoc]⟩

theorem takeWhile_append_rows (rows rest : List StreamRow) :
    (rows ++ rest).takeWhile (fun r => !r.isMarker) = rows.takeWhile (fun r => !r.isMarker) ++
      if rows.any (·.isMarker) then [] else rest.takeWhile fun r => !r.isMarker := by
  induction rows with
  | nil => simp
  | cons r rows ih => cases hr : r.isMarker <;> simp [hr, ih]

/-- The second result of `ReadStream` begins with the first, and is the first if that has reported the end. -/
def Continues (first second : List StreamEntry × Bool) : Prop :=
  ∃ entries, second.1 = first.1 ++ entries ∧ (first.2 = true → entries = [] ∧ second.2 = true)

/-- **A read is final**: whatever calls go on in a run, a later read from the same offset continues it. -/
theorem reads_continue {tr : List (Transition (State n) (Action n))}
    (hs : Reaches (system cfg) (fun _ _ => True) s) (h : Run (system cfg) s tr t) (fromOffset : Int) :
    Continues (s.streams.readStream cfg.workflowID cfg.key fromOffset)
      (t.streams.readStream cfg.workflowID cfg.key fromOffset) := by
  have hI := inv_of_reaches hs
  obtain ⟨hI', rest, hrest⟩ := rows_of_run hI h
  rw [hI.contiguous.readStream_eq, hI'.contiguous.readStream_eq,
    show t.streams.stream cfg.workflowID cfg.key = _ from hrest, List.drop_append, takeWhile_append_rows,
    List.map_append, List.any_append]
  refine ⟨_, rfl, fun hclosed => ?_⟩
  have hclosed : ((cfg.rows s.streams).drop fromOffset.toNat).any (·.isMarker) = true := hclosed
  simp [hclosed]

/-- A read after the close, and one after a write has been stored behind the marker. -/
theorem reads_continue_overtaken : ∃ s t : State 3, (s.streams.isClosed "wf" "progress" = true ∧
      sampleConfig.rows t.streams ≠ sampleConfig.rows s.streams) ∧
    Continues (s.streams.readStream "wf" "progress" 0) (t.streams.readStream "wf" "progress" 0) := by
  obtain ⟨s, hs, hp⟩ := exists_reaches (S := system sampleConfig) (fun _ _ => True) (s := initial)
    (List.flatten [[.issue 0, .check 0], preparing 2, [.place 2, .commit 2]])
    (fun s => s.streams.isClosed "wf" "progress" && (exec (system sampleConfig) s [.compute 0, .place 0]).any
      fun t => sampleConfig.rows t.streams ≠ sampleConfig.rows s.streams)
    (init_initial _) (fun _ _ => trivial) (by decide +kernel)
  obtain ⟨hclosed, hp⟩ := Bool.and_eq_true_iff.1 hp
  obtain ⟨t, ht, hne⟩ := (Option.any_eq_true _ _).1 hp
  exact ⟨s, t, ⟨hclosed, of_decide_eq_true hne⟩, reads_continue hs (run_exec ht) 0⟩

end Streams

end Dbos
