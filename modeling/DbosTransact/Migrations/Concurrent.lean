import DbosTransact.Lib.Transition
import DbosTransact.Migrations.Catalog
import Mathlib.Data.Fintype.Basic
import Mathlib.Logic.Function.Basic

/-!
# Concurrent migrations

Any number of processes run `RunMigrations` on one database. Each reads the recorded version once and works
from its own `currentVersion`; its `UPDATE` of the version has no `WHERE` clause, so a process that is
overtaken writes over a later version. An online migration is executed and recorded by two statements; the
others have both in one transaction (`write`, then `commit`). Under READ COMMITTED a version that an open
transaction has written is locked. A process fails at any point (`fail`).
-/

namespace Dbos.Migrations

open Lts

structure Catalog where
  migrations : List MigrationFile
  increasing : Increasing migrations
  positive : ∀ m ∈ migrations, 0 < m.version
  nonempty : migrations ≠ []

def Catalog.last (catalog : Catalog) : Int := (catalog.migrations.getLast catalog.nonempty).version

/-- The statement of `writeMigrationVersion`; an `UPDATE` has selected the rows `seen`. -/
inductive VersionWrite
  | insert (version : Int)
  | update (seen : List Int) (version : Int)
  deriving DecidableEq, Repr

def VersionWrite.locks : VersionWrite → List Int
  | .insert version => [version]
  | .update seen version => version :: seen

def VersionWrite.apply : VersionWrite → List Int → List Int
  | .insert version, rows => rows ++ [version]
  | .update seen version, rows => rows.map fun v => if v ∈ seen then version else v

/-- The statement that `writeMigrationVersion` issues, unless it fails. -/
def versionWrite (rows : List Int) (version lastApplied : Int) : Option VersionWrite :=
  (writeMigrationVersion rows version lastApplied).map fun _ =>
    if lastApplied = 0 then .insert version else .update rows version

theorem VersionWrite.apply_of_versionWrite {rows : List Int} {version lastApplied : Int} {w : VersionWrite}
    (h : versionWrite rows version lastApplied = some w) :
    writeMigrationVersion rows version lastApplied = some (w.apply rows) := by
  obtain ⟨rows', hrows', rfl⟩ := Option.map_eq_some_iff.1 h
  rw [hrows']
  unfold writeMigrationVersion at hrows'
  split_ifs at hrows' ⊢ with h0
  · exact hrows'.symm
  · rw [← hrows']
    exact congrArg some (List.map_congr_left fun v hv => (if_pos hv).symm)

inductive Phase
  | start
  /-- at the head of the loop -/
  | loop (currentVersion : Int) (rest : List MigrationFile)
  /-- the migration has been executed; one that is not online is in an open transaction -/
  | executed (currentVersion : Int) (migration : MigrationFile) (rest : List MigrationFile)
  /-- the transaction has written the version -/
  | wrote (currentVersion : Int) (migration : MigrationFile) (rest : List MigrationFile) (w : VersionWrite)
  /-- `RunMigrations` returned nil -/
  | returned
  | failed
  deriving DecidableEq, Repr

def Phase.pending : Phase → Option VersionWrite
  | .wrote _ _ _ w => some w
  | .start | .loop .. | .executed .. | .returned | .failed => none

variable {ι : Type*} [DecidableEq ι]

structure State (ι : Type*) where
  db : Database
  phase : ι → Phase

/-- What `SELECT version … LIMIT 1` may return, 0 standing for no row. -/
def Database.Reads (db : Database) (version : Int) : Prop :=
  version ∈ db.versions ∨ db.versions = [] ∧ version = 0

instance (db : Database) (version : Int) : Decidable (db.Reads version) :=
  inferInstanceAs (Decidable (_ ∨ _))

def Database.execute (db : Database) (version : Int) : Database :=
  if version ∈ db.applied then db else { db with applied := db.applied ++ [version] }

def Database.record (db : Database) (w : VersionWrite) : Database :=
  { db with versions := w.apply db.versions }

def State.Free (s : State ι) (p : ι) (w : VersionWrite) : Prop :=
  ∀ q, q ≠ p → ∀ w' ∈ (s.phase q).pending, ∀ v ∈ w.locks, v ∉ w'.locks

instance [Fintype ι] (s : State ι) (p : ι) (w : VersionWrite) : Decidable (s.Free p w) :=
  inferInstanceAs (Decidable (∀ _, _))

def State.set (s : State ι) (p : ι) (phase : Phase) (db : Database) : State ι :=
  ⟨db, Function.update s.phase p phase⟩

inductive Action (ι : Type*)
  /-- the setup transaction, which has read the version -/
  | begin (p : ι) (version : Int)
  /-- the migration at the head is not above the current version -/
  | skip (p : ι)
  | exec (p : ι)
  | write (p : ι)
  | commit (p : ι)
  | finish (p : ι)
  | fail (p : ι)
  deriving DecidableEq, Repr

def step [Fintype ι] (catalog : Catalog) (s : State ι) : Action ι → Option (State ι)
  | .begin p version =>
    match s.phase p with
    | .start => if s.db.Reads version then some (s.set p (.loop version catalog.migrations) s.db) else none
    | _ => none
  | .skip p =>
    match s.phase p with
    | .loop currentVersion (m :: rest) =>
      if m.version ≤ currentVersion then some (s.set p (.loop currentVersion rest) s.db) else none
    | _ => none
  | .exec p =>
    match s.phase p with
    | .loop currentVersion (m :: rest) =>
      if m.version ≤ currentVersion then none
      else
        -- what a transaction executes is seen when it commits
        some (s.set p (.executed currentVersion m rest)
          (if m.online then s.db.execute m.version else s.db))
    | _ => none
  | .write p =>
    match s.phase p with
    | .executed currentVersion m rest =>
      (versionWrite s.db.versions m.version currentVersion).bind fun w =>
        if s.Free p w then
          some (if m.online then s.set p (.loop m.version rest) (s.db.record w)
            else s.set p (.wrote currentVersion m rest w) s.db)
        else none
    | _ => none
  | .commit p =>
    match s.phase p with
    | .wrote _ m rest w => some (s.set p (.loop m.version rest) ((s.db.execute m.version).record w))
    | _ => none
  | .finish p =>
    match s.phase p with
    | .loop _ [] => some (s.set p .returned s.db)
    | _ => none
  | .fail p =>
    match s.phase p with
    | .returned => none
    | _ => some (s.set p .failed s.db)

/-- The processes on a database at the version `version`, up to which everything has been applied. -/
def system (ι : Type*) [Fintype ι] [DecidableEq ι] (catalog : Catalog) (version : Int) :
    System (State ι) (Action ι) where
  init s := Records s.db.versions version ∧
    (∀ m ∈ catalog.migrations, m.version ≤ version → m.version ∈ s.db.applied) ∧
    ∀ p, s.phase p = .start
  step := step catalog

section Moves

variable (catalog : Catalog) (s : State ι)

inductive Moves : Action ι → State ι → Prop
  | begin {p version} (hp : s.phase p = .start) (hreads : s.db.Reads version) :
      Moves (.begin p version) (s.set p (.loop version catalog.migrations) s.db)
  | skip {p current m rest} (hp : s.phase p = .loop current (m :: rest)) (hle : m.version ≤ current) :
      Moves (.skip p) (s.set p (.loop current rest) s.db)
  | exec {p current m rest} (hp : s.phase p = .loop current (m :: rest)) (hlt : current < m.version) :
      Moves (.exec p) (s.set p (.executed current m rest)
        (if m.online then s.db.execute m.version else s.db))
  | write {p current m rest w} (hp : s.phase p = .executed current m rest) (honline : m.online = false)
      (hw : versionWrite s.db.versions m.version current = some w) (hfree : s.Free p w) :
      Moves (.write p) (s.set p (.wrote current m rest w) s.db)
  | writeOnline {p current m rest w} (hp : s.phase p = .executed current m rest) (honline : m.online = true)
      (hw : versionWrite s.db.versions m.version current = some w) (hfree : s.Free p w) :
      Moves (.write p) (s.set p (.loop m.version rest) (s.db.record w))
  | commit {p current m rest w} (hp : s.phase p = .wrote current m rest w) :
      Moves (.commit p) (s.set p (.loop m.version rest) ((s.db.execute m.version).record w))
  | finish {p current} (hp : s.phase p = .loop current []) : Moves (.finish p) (s.set p .returned s.db)
  | fail {p} (hp : s.phase p ≠ .returned) : Moves (.fail p) (s.set p .failed s.db)

variable {catalog s}

theorem moves_of_step [Fintype ι] {a : Action ι} {t : State ι} (h : step catalog s a = some t) : Moves catalog s a t := by
  cases a with
  | begin p version =>
    simp only [step] at h
    split at h <;> try cases h
    split_ifs at h with hreads
    cases h
    exact .begin ‹_› hreads
  | skip p =>
    simp only [step] at h
    split at h <;> try cases h
    split_ifs at h with hle
    cases h
    exact .skip ‹_› hle
  | exec p =>
    simp only [step] at h
    split at h <;> try cases h
    split at h
    · cases h
    · cases h
      exact .exec ‹_› (Int.not_le.1 ‹_›)
  | write p =>
    simp only [step] at h
    split at h <;> try cases h
    obtain ⟨w, hw, h⟩ := Option.bind_eq_some_iff.1 h
    split_ifs at h with hfree honline
    · cases h
      exact .writeOnline ‹_› honline hw hfree
    · cases h
      exact .write ‹_› (Bool.eq_false_iff.2 honline) hw hfree
  | commit p =>
    simp only [step] at h
    split at h <;> cases h
    exact .commit ‹_›
  | finish p =>
    simp only [step] at h
    split at h <;> cases h
    exact .finish ‹_›
  | fail p =>
    simp only [step] at h
    split at h
    · cases h
    · cases h
      exact .fail ‹_›

end Moves

/-- The version that is the recorded one after the step: the one it commits or, for a process that
returns, the catalog's last. -/
def State.vouched (catalog : Catalog) (s : State ι) : Action ι → Option Int
  | .write p =>
    match s.phase p with
    | .executed _ m _ => if m.online then some m.version else none
    | _ => none
  | .commit p =>
    match s.phase p with
    | .wrote _ m _ _ => some m.version
    | _ => none
  | .finish _ => some catalog.last
  | .begin .. | .skip _ | .exec _ | .fail _ => none

/-- The step records no version below a stored one, and a process returns only from a database that is
not beyond its catalog. -/
def Current (catalog : Catalog) (s : State ι) (a : Action ι) : Prop :=
  ∀ version ∈ s.vouched catalog a, ∀ v ∈ s.db.versions, v ≤ version

instance (catalog : Catalog) (s : State ι) (a : Action ι) : Decidable (Current catalog s a) :=
  inferInstanceAs (Decidable (∀ _ ∈ s.vouched catalog a, _))

/-- The record is right: from one state to the next the version does not decrease, all migrations up to
it have been applied, and it is the last once a process has returned. -/
structure Safe (catalog : Catalog) (pre post : State ι) : Prop where
  neverBack : ∀ u v, pre.db.Reads u → post.db.Reads v → u ≤ v
  complete : ∀ v, post.db.Reads v → ∀ m ∈ catalog.migrations, m.version ≤ v → m.version ∈ post.db.applied
  settled : (∃ p, post.phase p = .returned) → ∀ v, post.db.Reads v → v = catalog.last

/-- The process has come to `rest`, with everything before it applied. -/
structure At (catalog : Catalog) (db : Database) (current : Int) (rest : List MigrationFile) : Prop where
  nonneg : 0 ≤ current
  le : current ≤ db.currentVersion
  suffix : rest <:+ catalog.migrations
  behind : ∀ m ∈ catalog.migrations, m ∉ rest → m.version ≤ current
  /-- a process that found no row knows that all versions since are of the catalog -/
  fresh : current = 0 → db.currentVersion = 0 ∨ ∃ m ∈ catalog.migrations, m.version = db.currentVersion

/-- The open transaction has written what `writeMigrationVersion` writes, and its lock has kept others
from the rows it needs. -/
def Issued (db : Database) (current : Int) (m : MigrationFile) : VersionWrite → Prop
  | .insert version => version = m.version ∧ current = 0 ∧ m.version ∉ db.versions
  | .update seen version => version = m.version ∧ 0 < current ∧ seen = db.versions

def PhaseOk (catalog : Catalog) (db : Database) : Phase → Prop
  | .start | .failed => True
  | .loop current rest => At catalog db current rest
  | .executed current m rest =>
    At catalog db current (m :: rest) ∧ current < m.version ∧ (m.online = true → m.version ∈ db.applied)
  | .wrote current m rest w =>
    At catalog db current (m :: rest) ∧ current < m.version ∧ Issued db current m w
  | .returned => db.currentVersion = catalog.last

structure Inv (catalog : Catalog) (s : State ι) : Prop where
  records : Records s.db.versions s.db.currentVersion
  complete : ∀ m ∈ catalog.migrations, m.version ≤ s.db.currentVersion → m.version ∈ s.db.applied
  phases : ∀ p, PhaseOk catalog s.db (s.phase p)
  exclusive : ∀ p, ∀ w ∈ (s.phase p).pending, s.Free p w

section Database

variable {catalog : Catalog} {db db' : Database}

theorem Records.reads_iff {v : Int} (h : Records db.versions db.currentVersion) :
    db.Reads v ↔ v = db.currentVersion := by
  rcases h with ⟨hrows, hv⟩ | ⟨hrows, hv⟩
  · simp [Database.Reads, hrows, hv]
  · simp [Database.Reads, hrows]

theorem Records.forall_le_iff {v : Int} (h : Records db.versions db.currentVersion) (hv : 0 ≤ v) :
    (∀ u ∈ db.versions, u ≤ v) ↔ db.currentVersion ≤ v := by
  rcases h with ⟨hrows, hcur⟩ | ⟨hrows, hcur⟩
  · simp [hrows, hcur, hv]
  · simp [hrows]

theorem Records.ne_nil (h : Records db.versions db.currentVersion) (hpos : 0 < db.currentVersion) :
    db.versions = [db.currentVersion] := by
  rcases h with ⟨-, h0⟩ | ⟨hrows, -⟩
  · omega
  · exact hrows

@[simp] theorem versions_execute (version : Int) : (db.execute version).versions = db.versions := by
  unfold Database.execute
  split_ifs <;> rfl

theorem mem_applied_execute {version v : Int} :
    v ∈ (db.execute version).applied ↔ v ∈ db.applied ∨ v = version := by
  unfold Database.execute
  split_ifs with h
  · exact ⟨.inl, fun hv => hv.elim id fun hv => hv ▸ h⟩
  · simp

theorem currentVersion_congr (h : db'.versions = db.versions) : db'.currentVersion = db.currentVersion := by
  unfold Database.currentVersion
  rw [h]

theorem Catalog.le_last {m : MigrationFile} (hm : m ∈ catalog.migrations) : m.version ≤ catalog.last := by
  have hincreasing := catalog.increasing
  rw [Increasing, ← List.dropLast_append_getLast catalog.nonempty, List.pairwise_append] at hincreasing
  rw [← List.dropLast_append_getLast catalog.nonempty, List.mem_append, List.mem_singleton] at hm
  rcases hm with hm | rfl
  · exact Int.le_of_lt (hincreasing.2.2 m hm _ (List.mem_singleton.2 rfl))
  · exact Int.le_refl _

theorem Catalog.last_pos : 0 < catalog.last := catalog.positive _ (List.getLast_mem _)

end Database

section Position

variable {catalog : Catalog} {db db' : Database} {current : Int} {m : MigrationFile} {rest : List MigrationFile}

theorem At.mem (h : At catalog db current (m :: rest)) : m ∈ catalog.migrations :=
  h.suffix.subset List.mem_cons_self

theorem At.lt_of_mem (h : At catalog db current (m :: rest)) {m' : MigrationFile} (hm' : m' ∈ rest) :
    m.version < m'.version :=
  (List.pairwise_cons.1 (catalog.increasing.sublist h.suffix.sublist)).1 m' hm'

theorem At.le_of_lt (h : At catalog db current (m :: rest)) {m' : MigrationFile}
    (hm' : m' ∈ catalog.migrations) (hlt : m'.version < m.version) : m'.version ≤ current := by
  refine h.behind m' hm' fun hmem => ?_
  rcases List.mem_cons.1 hmem with rfl | hmem
  · exact Int.lt_irrefl _ hlt
  · exact Int.lt_irrefl _ (Int.lt_trans hlt (h.lt_of_mem hmem))

theorem At.tail (h : At catalog db current (m :: rest)) {reached : Int} (hle : m.version ≤ reached)
    (hcurrent : current ≤ reached) (hreached : reached ≤ db'.currentVersion)
    (hfresh : reached = 0 → db'.currentVersion = 0 ∨ ∃ m ∈ catalog.migrations, m.version = db'.currentVersion) :
    At catalog db' reached rest where
  nonneg := Int.le_trans h.nonneg hcurrent
  le := hreached
  suffix := (List.suffix_cons m rest).trans h.suffix
  behind m' hm' hnot := by
    by_cases heq : m' = m
    · exact heq ▸ hle
    · exact Int.le_trans (h.behind m' hm' (by simp [heq, hnot])) hcurrent
  fresh := hfresh

/-- A recorded version of the catalog leaves every process where it is, if it is not a step back. -/
theorem At.raise (h : At catalog db current rest) (hle : db.currentVersion ≤ db'.currentVersion)
    (hmem : ∃ m ∈ catalog.migrations, m.version = db'.currentVersion) : At catalog db' current rest where
  nonneg := h.nonneg
  le := Int.le_trans h.le hle
  suffix := h.suffix
  behind := h.behind
  fresh _ := .inr hmem

theorem At.congr (h : At catalog db current rest) (hrows : db'.versions = db.versions) :
    At catalog db' current rest where
  nonneg := h.nonneg
  le := currentVersion_congr hrows ▸ h.le
  suffix := h.suffix
  behind := h.behind
  fresh := currentVersion_congr hrows ▸ h.fresh

theorem issued_of_versionWrite {w : VersionWrite} (h : At catalog db current (m :: rest))
    (hw : versionWrite db.versions m.version current = some w) : Issued db current m w := by
  obtain ⟨rows, hrows, rfl⟩ := Option.map_eq_some_iff.1 hw
  by_cases h0 : current = 0
  · have hnot : m.version ∉ db.versions := by
      intro hmem
      simp [writeMigrationVersion, h0, hmem] at hrows
    simpa [Issued, h0] using hnot
  · have := h.nonneg
    simp only [h0, if_false, Issued, and_true, true_and]
    omega

theorem Issued.mem_locks {w : VersionWrite} (h : Issued db current m w) : m.version ∈ w.locks := by
  cases w with
  | insert version => simp [VersionWrite.locks, h.1]
  | update seen version => simp [VersionWrite.locks, h.1]

/-- **The only write that is not a step back** takes the place of the recorded version. -/
theorem Issued.apply_eq {w : VersionWrite} (h : Issued db current m w) (hat : At catalog db current (m :: rest))
    (hrecords : Records db.versions db.currentVersion) (hle : db.currentVersion ≤ m.version) :
    w.apply db.versions = [m.version] := by
  cases w with
  | insert version =>
    obtain ⟨rfl, hzero, hnot⟩ := h
    rcases hat.fresh hzero with hnone | ⟨m', hm', heq⟩
    · rcases hrecords with ⟨hrows, -⟩ | ⟨-, hpos⟩
      · simp [VersionWrite.apply, hrows]
      · omega
    · -- a row stands there, so it is the version itself or a later one
      have hpos := catalog.positive m' hm'
      have hrows := hrecords.ne_nil (heq ▸ hpos)
      have hne : m'.version ≠ m.version := fun h => hnot (by rw [hrows, ← heq, h]; exact List.mem_singleton.2 rfl)
      have := hat.le_of_lt hm' (by omega)
      omega
  | update seen version =>
    obtain ⟨rfl, hpos, rfl⟩ := h
    have := hat.le
    rw [hrecords.ne_nil (by omega)]
    simp [VersionWrite.apply]

end Position

section Step

variable {catalog : Catalog} {s : State ι} {p : ι}

@[simp] theorem phase_set_self (phase : Phase) (db : Database) : (s.set p phase db).phase p = phase :=
  Function.update_self ..

theorem phase_set_of_ne {q : ι} (h : q ≠ p) (phase : Phase) (db : Database) :
    (s.set p phase db).phase q = s.phase q :=
  Function.update_of_ne h ..

theorem PhaseOk.congr {db db' : Database} {phase : Phase} (h : PhaseOk catalog db phase)
    (hrows : db'.versions = db.versions) (happlied : ∀ v ∈ db.applied, v ∈ db'.applied) :
    PhaseOk catalog db' phase := by
  cases phase with
  | start | failed => trivial
  | loop => exact At.congr h hrows
  | executed => exact ⟨h.1.congr hrows, h.2.1, fun honline => happlied _ (h.2.2 honline)⟩
  | wrote current m rest w =>
    refine ⟨h.1.congr hrows, h.2.1, ?_⟩
    cases w with
    | insert => exact ⟨h.2.2.1, h.2.2.2.1, hrows ▸ h.2.2.2.2⟩
    | update => exact ⟨h.2.2.1, h.2.2.2.1, hrows ▸ h.2.2.2.2⟩
  | returned => exact (currentVersion_congr hrows).trans h

theorem Inv.exclusive_set (h : Inv catalog s) {phase : Phase} {db : Database}
    (hfree : ∀ w ∈ phase.pending, s.Free p w) :
    ∀ q, ∀ w ∈ ((s.set p phase db).phase q).pending, (s.set p phase db).Free q w := by
  intro q w hw r hr w' hw' v hv hv'
  by_cases hq : q = p
  · subst hq
    rw [phase_set_self] at hw
    rw [phase_set_of_ne hr] at hw'
    exact hfree w hw r hr w' hw' v hv hv'
  · rw [phase_set_of_ne hq] at hw
    by_cases hrp : r = p
    · subst hrp
      rw [phase_set_self] at hw'
      exact hfree w' hw' q hq w hw v hv' hv
    · rw [phase_set_of_ne hrp] at hw'
      exact h.exclusive q w hw r hr w' hw' v hv hv'

theorem Inv.set (h : Inv catalog s) {phase : Phase} {db : Database} (hrows : db.versions = s.db.versions)
    (happlied : ∀ v ∈ s.db.applied, v ∈ db.applied) (hphase : PhaseOk catalog db phase)
    (hfree : ∀ w ∈ phase.pending, s.Free p w) : Inv catalog (s.set p phase db) where
  records := by
    show Records db.versions db.currentVersion
    rw [currentVersion_congr hrows, hrows]
    exact h.records
  complete m hm hle := happlied _ (h.complete m hm (currentVersion_congr hrows ▸ hle))
  phases q := by
    by_cases hq : q = p
    · subst hq
      rw [phase_set_self]
      exact hphase
    · rw [phase_set_of_ne hq]
      exact (h.phases q).congr hrows happlied
  exclusive := h.exclusive_set hfree

omit [DecidableEq ι] in
/-- What another process relies on while a version is recorded: an `UPDATE` in its transaction would
hold the row, and the key of an `INSERT` is not the new version. -/
theorem Inv.phaseOk_record (h : Inv catalog s) {current : Int} {m : MigrationFile} {rest : List MigrationFile}
    {w : VersionWrite} (db : Database) (hat : At catalog s.db current (m :: rest))
    (hw : Issued s.db current m w) (hfree : s.Free p w) (hle : s.db.currentVersion ≤ m.version)
    (happlied : ∀ v ∈ s.db.applied, v ∈ db.applied) (hrows : db.versions = [m.version]) {q : ι} (hq : q ≠ p) :
    PhaseOk catalog db (s.phase q) := by
  have hcurrent : db.currentVersion = m.version := by simp [Database.currentVersion, hrows]
  have hmem : ∃ m' ∈ catalog.migrations, m'.version = db.currentVersion := ⟨m, hat.mem, hcurrent.symm⟩
  have hraise : s.db.currentVersion ≤ db.currentVersion := hcurrent ▸ hle
  have hok := h.phases q
  have hapart := hfree q hq
  generalize s.phase q = phase at hok hapart
  cases phase with
  | start | failed => trivial
  | loop => exact At.raise hok hraise hmem
  | executed => exact ⟨hok.1.raise hraise hmem, hok.2.1, fun honline => happlied _ (hok.2.2 honline)⟩
  | returned =>
    have hlast : s.db.currentVersion = catalog.last := hok
    have := catalog.le_last hat.mem
    show db.currentVersion = catalog.last
    omega
  | wrote current' m' rest' w' =>
    obtain ⟨hat', hlt', hw'⟩ := hok
    refine ⟨hat'.raise hraise hmem, hlt', ?_⟩
    have hdisjoint : ∀ v ∈ w.locks, v ∉ w'.locks := hapart w' rfl
    cases w' with
    | insert version =>
      obtain ⟨rfl, hzero, -⟩ := hw'
      refine ⟨rfl, hzero, ?_⟩
      rw [hrows, List.mem_singleton]
      intro heq
      exact hdisjoint m.version hw.mem_locks (by simp [VersionWrite.locks, heq])
    | update seen version =>
      obtain ⟨rfl, hpos, rfl⟩ := hw'
      exfalso
      have := hat'.le
      have hrow := h.records.ne_nil (by omega)
      cases w with
      | insert version =>
        have hone := hw.apply_eq hat h.records hle
        simp [VersionWrite.apply, hrow] at hone
      | update seen version =>
        obtain ⟨-, -, rfl⟩ := hw
        refine hdisjoint s.db.currentVersion ?_ ?_ <;> simp [VersionWrite.locks, hrow]

/-- **A step that records a version**, where no higher one is stored. -/
theorem Inv.record (h : Inv catalog s) {current : Int} {m : MigrationFile} {rest : List MigrationFile}
    {w : VersionWrite} {db : Database} (hat : At catalog s.db current (m :: rest)) (hlt : current < m.version)
    (hw : Issued s.db current m w) (hfree : s.Free p w) (hle : s.db.currentVersion ≤ m.version)
    (hrows : db.versions = s.db.versions) (happlied : ∀ v ∈ s.db.applied, v ∈ db.applied)
    (hm : m.version ∈ db.applied) :
    Inv catalog (s.set p (.loop m.version rest) (db.record w)) ∧ (db.record w).currentVersion = m.version := by
  have hversions : (db.record w).versions = [m.version] := by
    show w.apply db.versions = [m.version]
    rw [hrows, hw.apply_eq hat h.records hle]
  have hcurrent : (db.record w).currentVersion = m.version := by simp [Database.currentVersion, hversions]
  refine ⟨⟨?_, ?_, ?_, h.exclusive_set (by simp [Phase.pending])⟩, hcurrent⟩
  · exact .inr ⟨hversions.trans (by rw [← hcurrent]; rfl), hcurrent ▸ catalog.positive m hat.mem⟩
  · intro m' hm' hle'
    have hle' : m'.version ≤ m.version := hcurrent ▸ hle'
    rcases Int.lt_or_eq_of_le hle' with hlt' | heq
    · -- what lies below the version has been passed by the process
      exact happlied _ (h.complete m' hm' (Int.le_trans (hat.le_of_lt hm' hlt') hat.le))
    · exact heq ▸ hm
  · intro q
    by_cases hq : q = p
    · subst hq
      rw [phase_set_self]
      exact hat.tail (Int.le_refl _) (Int.le_of_lt hlt) (Int.le_of_eq hcurrent.symm)
        fun _ => .inr ⟨m, hat.mem, hcurrent.symm⟩
    · rw [phase_set_of_ne hq]
      exact h.phaseOk_record (db.record w) hat hw hfree hle happlied hversions hq

/-- **The step lemma**: a current step keeps the invariant and takes the version nowhere back. -/
theorem Inv.step (h : Inv catalog s) {a : Action ι} {t : State ι} (hcurrent : Current catalog s a)
    (hmoves : Moves catalog s a t) : Inv catalog t ∧ s.db.currentVersion ≤ t.db.currentVersion := by
  cases hmoves with
  | begin hp hreads =>
    obtain rfl := h.records.reads_iff.1 hreads
    refine ⟨h.set rfl (fun _ => id) ?_ (by simp [Phase.pending]), Int.le_refl _⟩
    exact ⟨h.records.nonneg, Int.le_refl _, List.suffix_rfl, fun m hm hnot => absurd hm hnot, .inl⟩
  | @skip p current m rest hp hle =>
    have hat : At catalog s.db current (m :: rest) := by simpa [hp, PhaseOk] using h.phases p
    refine ⟨h.set rfl (fun _ => id) ?_ (by simp [Phase.pending]), Int.le_refl _⟩
    exact hat.tail hle (Int.le_refl _) hat.le hat.fresh
  | @exec p current m rest hp hlt =>
    have hat : At catalog s.db current (m :: rest) := by simpa [hp, PhaseOk] using h.phases p
    cases honline : m.online with
    | false =>
      simp only [Bool.false_eq_true, if_false]
      refine ⟨h.set rfl (fun _ => id) ⟨hat, hlt, by simp [honline]⟩ (by simp [Phase.pending]), Int.le_refl _⟩
    | true =>
      simp only [if_true]
      have hrows : (s.db.execute m.version).versions = s.db.versions := versions_execute _
      refine ⟨h.set hrows (fun v hv => mem_applied_execute.2 (.inl hv)) ⟨hat.congr hrows, hlt, fun _ => ?_⟩
        (by simp [Phase.pending]), Int.le_of_eq (currentVersion_congr hrows).symm⟩
      exact mem_applied_execute.2 (.inr rfl)
  | @write p current m rest w hp honline hw hfree =>
    obtain ⟨hat, hlt, -⟩ : PhaseOk catalog s.db (.executed current m rest) := hp ▸ h.phases p
    refine ⟨h.set rfl (fun _ => id) ⟨hat, hlt, issued_of_versionWrite hat hw⟩ ?_, Int.le_refl _⟩
    simpa [Phase.pending] using hfree
  | @writeOnline p current m rest w hp honline hw hfree =>
    obtain ⟨hat, hlt, happlied⟩ : PhaseOk catalog s.db (.executed current m rest) := hp ▸ h.phases p
    have hle : s.db.currentVersion ≤ m.version := by
      rw [← h.records.forall_le_iff (Int.le_of_lt (catalog.positive m hat.mem))]
      simpa [Current, State.vouched, hp, honline] using hcurrent
    obtain ⟨hinv, hversion⟩ := h.record hat hlt (issued_of_versionWrite hat hw) hfree hle rfl (fun _ => id)
      (happlied honline)
    exact ⟨hinv, Int.le_trans hle (Int.le_of_eq hversion.symm)⟩
  | @commit p current m rest w hp =>
    obtain ⟨hat, hlt, hw⟩ : PhaseOk catalog s.db (.wrote current m rest w) := hp ▸ h.phases p
    have hfree : s.Free p w := h.exclusive p w (by simp [hp, Phase.pending])
    have hle : s.db.currentVersion ≤ m.version := by
      rw [← h.records.forall_le_iff (Int.le_of_lt (catalog.positive m hat.mem))]
      simpa [Current, State.vouched, hp] using hcurrent
    obtain ⟨hinv, hversion⟩ := h.record hat hlt hw hfree hle (versions_execute m.version)
      (fun v hv => mem_applied_execute.2 (.inl hv)) (mem_applied_execute.2 (.inr rfl))
    exact ⟨hinv, Int.le_trans hle (Int.le_of_eq hversion.symm)⟩
  | @finish p current hp =>
    have hat : At catalog s.db current [] := by simpa [hp, PhaseOk] using h.phases p
    refine ⟨h.set rfl (fun _ => id) ?_ (by simp [Phase.pending]), Int.le_refl _⟩
    have hle : s.db.currentVersion ≤ catalog.last :=
      (h.records.forall_le_iff (Int.le_of_lt catalog.last_pos)).1 (hcurrent _ rfl)
    have hge : catalog.last ≤ current := hat.behind _ (List.getLast_mem catalog.nonempty) (by simp)
    exact Int.le_antisymm hle (Int.le_trans hge hat.le)
  | fail hp => exact ⟨h.set rfl (fun _ => id) trivial (by simp [Phase.pending]), Int.le_refl _⟩

end Step

section Exact

variable {catalog : Catalog} {s t : State ι}

omit [DecidableEq ι] in
theorem Inv.safe (hs : Inv catalog s) (ht : Inv catalog t) (hle : s.db.currentVersion ≤ t.db.currentVersion) :
    Safe catalog s t where
  neverBack u v hu hv := by
    rw [hs.records.reads_iff.1 hu, ht.records.reads_iff.1 hv]
    exact hle
  complete v hv m hm hmv := ht.complete m hm (ht.records.reads_iff.1 hv ▸ hmv)
  settled := by
    rintro ⟨p, hp⟩ v hv
    rw [ht.records.reads_iff.1 hv]
    simpa [hp, PhaseOk] using ht.phases p

theorem Issued.reads {db db' : Database} {current : Int} {m : MigrationFile} {w : VersionWrite}
    (hw : Issued db current m w) (hrows : db'.versions = db.versions) {u : Int} (hu : u ∈ db.versions) :
    (db'.record w).Reads m.version := by
  refine .inl ?_
  show m.version ∈ w.apply db'.versions
  rw [hrows]
  cases w with
  | insert version =>
    obtain ⟨rfl, -, -⟩ := hw
    simp [VersionWrite.apply]
  | update seen version =>
    obtain ⟨rfl, -, rfl⟩ := hw
    exact List.mem_map.2 ⟨u, hu, if_pos hu⟩

theorem Inv.current_of_safe (h : Inv catalog s) {a : Action ι} (hmoves : Moves catalog s a t)
    (hsafe : Safe catalog s t) : Current catalog s a := by
  cases hmoves with
  | begin | skip | exec | fail => exact nofun
  | write hp honline => simp [Current, State.vouched, hp, honline]
  | @writeOnline p current m rest w hp honline hw hfree =>
    obtain ⟨hat, -, -⟩ : PhaseOk catalog s.db (.executed current m rest) := hp ▸ h.phases p
    simp only [Current, State.vouched, hp, honline, if_true, Option.mem_some_iff, forall_eq']
    intro u hu
    exact hsafe.neverBack u m.version (.inl hu) ((issued_of_versionWrite hat hw).reads rfl hu)
  | @commit p current m rest w hp =>
    obtain ⟨-, -, hw⟩ : PhaseOk catalog s.db (.wrote current m rest w) := hp ▸ h.phases p
    simp only [Current, State.vouched, hp, Option.mem_some_iff, forall_eq']
    intro u hu
    exact hsafe.neverBack u m.version (.inl hu) (hw.reads (versions_execute m.version) hu)
  | @finish p current hp =>
    rintro _ ⟨⟩ u hu
    exact Int.le_of_eq (hsafe.settled ⟨p, phase_set_self ..⟩ u (.inl hu))

end Exact

def releasedCatalog : Catalog where
  migrations := released
  increasing := by decide +kernel
  positive := by decide +kernel
  nonempty := by decide +kernel

/-- Two processes find a database at version 1001, before the fork's last two migrations. -/
def atFirstForkVersion : State Bool where
  db := ⟨versions.filter (· ≤ 1001), [1001]⟩
  phase _ := .start

theorem init_atFirstForkVersion : (system Bool releasedCatalog 1001).init atFirstForkVersion :=
  ⟨.inr ⟨rfl, by decide⟩, by decide +kernel, fun _ => rfl⟩

def applies (p : Bool) : List (Action Bool) := [.exec p, .write p, .commit p]

/-- Both processes have read the version. One migrates to the last version and returns; the other then
applies the migration that it takes for the next one. -/
def overtaken : List (Action Bool) :=
  List.flatten
    [ [.begin true 1001, .begin false 1001],
      List.replicate 56 (.skip false), applies false, applies false, [.finish false],
      List.replicate 56 (.skip true), [.exec true, .write true] ]

/-- The second process starts when the first has recorded the last version. -/
def inTurn : List (Action Bool) :=
  List.flatten
    [ [.begin false 1001], List.replicate 56 (.skip false), applies false, applies false,
      [.begin true 1003, .finish false], List.replicate 58 (.skip true), [.finish true] ]

end Dbos.Migrations
