import Mathlib.Data.Int.Init
import Mathlib.Data.List.Nodup
import Mathlib.Tactic.Common

/-!
# Migrations

`RunMigrations` applies every migration above the recorded version, in order. The record is a single number:
a migration that a later catalog brings in below it is taken for applied. The fork numbers its own
migrations from 1001 on, so every migration merged from upstream is such a one.
-/

namespace Dbos.Migrations

structure MigrationFile where
  version : Int
  sql : String
  online : Bool := false
  deriving DecidableEq, Repr

/-- The versions of the catalog: those of the SDK, those shared by all SDKs, and those of the fork. -/
def versions : List Int :=
  (List.range' 1 47).map Int.ofNat ++ (List.range' 100 8).map Int.ofNat ++ [1001, 1002, 1003]

/-- The migrations that build or drop an index `CONCURRENTLY`. -/
def onlineVersions : List Int :=
  [22, 23, 24, 25, 26, 27, 29, 30, 31, 32, 34, 35, 37, 45, 46, 47, 107]

/-- `BuildMigrations`, with the texts rendered for the schema. -/
def buildMigrations (sql : Bool → Int → String) (isCockroach : Bool) : List MigrationFile :=
  versions.map fun version =>
    { version := version
      sql := sql isCockroach version
      online := !isCockroach && version ∈ onlineVersions }

/-- What the migrations have made of a database: those executed, in order, and the rows of
`dbos_migrations`. -/
structure Database where
  applied : List Int
  versions : List Int
  deriving DecidableEq, Repr

def Database.fresh : Database := ⟨[], []⟩

/-- `SELECT version … LIMIT 1`, or 0. -/
def Database.currentVersion (db : Database) : Int := db.versions.head?.getD 0

/-- `writeMigrationVersion`: an `INSERT` if nothing has been applied, otherwise an `UPDATE` of all rows.
The version is the primary key: the `INSERT` fails if it is taken, the `UPDATE` if there are two rows. -/
def writeMigrationVersion (rows : List Int) (version lastApplied : Int) : Option (List Int) :=
  if lastApplied = 0 then if version ∈ rows then none else some (rows ++ [version])
  else if 1 < rows.length then none else some (rows.map fun _ => version)

/-- The loop of `RunMigrations`, where every migration succeeds. -/
def runFrom : List MigrationFile → Int → Database → Option Database
  | [], _, db => some db
  | m :: catalog, currentVersion, db =>
    if m.version ≤ currentVersion then runFrom catalog currentVersion db
    else
      (writeMigrationVersion db.versions m.version currentVersion).bind fun rows =>
        runFrom catalog m.version ⟨db.applied ++ [m.version], rows⟩

/-- `RunMigrations`, by one process. -/
def runMigrations (catalog : List MigrationFile) (db : Database) : Option Database :=
  runFrom catalog db.currentVersion db

def Increasing (catalog : List MigrationFile) : Prop :=
  catalog.Pairwise fun m m' => m.version < m'.version

instance (catalog : List MigrationFile) : Decidable (Increasing catalog) :=
  inferInstanceAs (Decidable (catalog.Pairwise fun m m' => m.version < m'.version))

def pendingVersions (currentVersion : Int) (catalog : List MigrationFile) : List Int :=
  (catalog.filter (currentVersion < ·.version)).map (·.version)

def Records (rows : List Int) (version : Int) : Prop :=
  rows = [] ∧ version = 0 ∨ rows = [version] ∧ 0 < version

theorem Records.nonneg {rows : List Int} {version : Int} (h : Records rows version) : 0 ≤ version := by
  rcases h with ⟨-, rfl⟩ | ⟨-, h⟩
  · exact Int.le_refl 0
  · exact Int.le_of_lt h

theorem Records.currentVersion_eq {db : Database} {version : Int} (h : Records db.versions version) :
    db.currentVersion = version := by
  rcases h with ⟨hrows, rfl⟩ | ⟨hrows, -⟩ <;> simp [Database.currentVersion, hrows]

theorem Records.write {rows : List Int} {current version : Int} (h : Records rows current)
    (hlt : current < version) : writeMigrationVersion rows version current = some [version] := by
  rcases h with ⟨rfl, rfl⟩ | ⟨rfl, hpos⟩
  · simp [writeMigrationVersion]
  · simp [writeMigrationVersion, Int.ne_of_gt hpos]

section Run

variable {catalog : List MigrationFile}

theorem pendingVersions_of_le {m : MigrationFile} {current : Int} (h : m.version ≤ current) :
    pendingVersions current (m :: catalog) = pendingVersions current catalog := by
  simp [pendingVersions, Int.not_lt.2 h]

theorem pendingVersions_of_lt {m : MigrationFile} {current : Int} (h : current < m.version)
    (hcatalog : Increasing (m :: catalog)) :
    pendingVersions current (m :: catalog) = m.version :: pendingVersions m.version catalog := by
  have hbehind : catalog.filter (current < ·.version) = catalog.filter (m.version < ·.version) := by
    refine List.filter_congr fun m' hm' => ?_
    have := (List.pairwise_cons.1 hcatalog).1 m' hm'
    simp [this, Int.lt_trans h this]
  simp [pendingVersions, h, hbehind]

/-- **What a run does**: it applies the pending migrations in their order, and records the last. -/
theorem exists_runFrom (hcatalog : Increasing catalog) {current : Int} (db : Database)
    (hdb : Records db.versions current) :
    ∃ rows reached, runFrom catalog current db = some ⟨db.applied ++ pendingVersions current catalog, rows⟩ ∧
      Records rows reached ∧ current ≤ reached ∧ (∀ m ∈ catalog, m.version ≤ reached) ∧
      (reached = current ∨ ∃ m ∈ catalog, m.version = reached) := by
  induction catalog generalizing current db with
  | nil => exact ⟨db.versions, current, by simp [runFrom, pendingVersions], hdb, Int.le_refl _, by simp, .inl rfl⟩
  | cons m catalog ih =>
    have htail : Increasing catalog := (List.pairwise_cons.1 hcatalog).2
    unfold runFrom
    split_ifs with hle
    · -- the migration is taken for applied
      obtain ⟨rows, reached, hrun, hrows, hreached, hall, hfrom⟩ := ih htail db hdb
      rw [pendingVersions_of_le hle]
      refine ⟨rows, reached, hrun, hrows, hreached, ?_, hfrom.imp_right ?_⟩
      · rintro m' (_ | ⟨_, hm'⟩)
        · exact Int.le_trans hle hreached
        · exact hall m' hm'
      · rintro ⟨m', hm', heq⟩
        exact ⟨m', .tail _ hm', heq⟩
    · have hlt : current < m.version := Int.not_le.1 hle
      have hwritten : Records [m.version] m.version := .inr ⟨rfl, Int.lt_of_le_of_lt hdb.nonneg hlt⟩
      obtain ⟨rows, reached, hrun, hrows, hreached, hall, hfrom⟩ :=
        ih htail ⟨db.applied ++ [m.version], [m.version]⟩ hwritten
      rw [hdb.write hlt, Option.bind_some, hrun, pendingVersions_of_lt hlt hcatalog]
      refine ⟨rows, reached, by simp, hrows, Int.le_trans (Int.le_of_lt hlt) hreached, ?_, .inr ?_⟩
      · rintro m' (_ | ⟨_, hm'⟩)
        · exact hreached
        · exact hall m' hm'
      · rcases hfrom with rfl | ⟨m', hm', heq⟩
        · exact ⟨m, List.mem_cons_self, rfl⟩
        · exact ⟨m', .tail _ hm', heq⟩

theorem pairwise_pendingVersions (hcatalog : Increasing catalog) (current : Int) :
    (pendingVersions current catalog).Pairwise (· < ·) :=
  List.pairwise_map.2 (hcatalog.sublist List.filter_sublist)

theorem mem_pendingVersions {current v : Int} :
    v ∈ pendingVersions current catalog ↔ current < v ∧ ∃ m ∈ catalog, m.version = v := by
  simp only [pendingVersions, List.mem_map, List.mem_filter, decide_eq_true_eq]
  constructor
  · rintro ⟨m, ⟨hm, hlt⟩, rfl⟩
    exact ⟨hlt, m, hm, rfl⟩
  · rintro ⟨hlt, m, hm, rfl⟩
    exact ⟨m, ⟨hm, hlt⟩, rfl⟩

theorem count_pendingVersions (hcatalog : Increasing catalog) {m : MigrationFile} (hm : m ∈ catalog)
    (current : Int) :
    (pendingVersions current catalog).count m.version = if current < m.version then 1 else 0 := by
  have hnodup : (pendingVersions current catalog).Nodup :=
    (pairwise_pendingVersions hcatalog current).imp Int.ne_of_lt
  split_ifs with h
  · exact List.count_eq_one_of_mem hnodup (mem_pendingVersions.2 ⟨h, m, hm, rfl⟩)
  · exact List.count_eq_zero_of_not_mem fun hmem => h (mem_pendingVersions.1 hmem).1

theorem eq_of_version_eq (hcatalog : Increasing catalog) {m m' : MigrationFile} (hm : m ∈ catalog)
    (hm' : m' ∈ catalog) (h : m.version = m'.version) : m = m' := by
  have hnodup : (catalog.map (·.version)).Nodup :=
    List.pairwise_map.2 (hcatalog.imp Int.ne_of_lt)
  exact List.inj_on_of_nodup_map hnodup hm hm' h

end Run

/-- The upgrade from the database `db` to `db'` has left every migration of the catalog applied exactly
once, and each of the two runs applied its migrations in increasing order. -/
structure UpgradedOnce (catalog : List MigrationFile) (db db' : Database) : Prop where
  once : ∀ m ∈ catalog, db'.applied.count m.version = 1
  first : db.applied.Pairwise (· < ·)
  second : ∃ versions, db'.applied = db.applied ++ versions ∧ versions.Pairwise (· < ·)

/-- **When an upgrade applies every migration.** Two runs, of a catalog and then of a larger one, both
complete. They apply every migration of the larger one exactly once, in increasing order within each
run, if and only if the versions are positive and every new one lies above all the old ones. -/
theorem upgrade_applies_once_iff {catalog catalog' : List MigrationFile} (hcatalog : Increasing catalog)
    (hcatalog' : Increasing catalog') (hsub : ∀ m ∈ catalog, m ∈ catalog') :
    ∃ db db', runMigrations catalog .fresh = some db ∧ runMigrations catalog' db = some db' ∧
      (UpgradedOnce catalog' db db' ↔
        ∀ m ∈ catalog', 0 < m.version ∧ (m ∉ catalog → ∀ old ∈ catalog, old.version < m.version)) := by
  obtain ⟨rows, reached, hrun, hrows, hnonneg, hall, hfrom⟩ :=
    exists_runFrom hcatalog .fresh (.inl ⟨rfl, rfl⟩)
  obtain ⟨rows', -, hrun', -, -, -, -⟩ := exists_runFrom hcatalog'
    ⟨pendingVersions 0 catalog, rows⟩ hrows
  refine ⟨⟨pendingVersions 0 catalog, rows⟩, ⟨pendingVersions 0 catalog ++ pendingVersions reached catalog', rows'⟩, hrun, ?_, ?_⟩
  · rw [runMigrations, Records.currentVersion_eq hrows]
    exact hrun'
  have hcount : ∀ m ∈ catalog', (pendingVersions 0 catalog ++ pendingVersions reached catalog').count m.version =
      (if m ∈ catalog ∧ 0 < m.version then 1 else 0) + if reached < m.version then 1 else 0 := by
    intro m hm
    rw [List.count_append, count_pendingVersions hcatalog' hm]
    congr 1
    by_cases hold : m ∈ catalog
    · simp [count_pendingVersions hcatalog hold, hold]
    · rw [if_neg fun h => hold h.1, List.count_eq_zero]
      intro hmem
      obtain ⟨-, old, hold', heq⟩ := mem_pendingVersions.1 hmem
      exact hold (eq_of_version_eq hcatalog' (hsub old hold') hm heq ▸ hold')
  have hiff : ∀ m ∈ catalog', (pendingVersions 0 catalog ++ pendingVersions reached catalog').count m.version = 1 ↔
      0 < m.version ∧ (m ∉ catalog → ∀ old ∈ catalog, old.version < m.version) := by
    intro m hm
    rw [hcount m hm]
    by_cases hold : m ∈ catalog
    · have := hall m hold
      simp only [hold, true_and, not_true_eq_false, IsEmpty.forall_iff, and_true]
      split_ifs <;> omega
    · simp only [hold, false_and, if_false, not_false_eq_true, forall_const, Nat.zero_add]
      constructor
      · intro hpending
        have hlt : reached < m.version := by
          by_contra hle
          rw [if_neg hle] at hpending
          cases hpending
        exact ⟨Int.lt_of_le_of_lt hnonneg hlt, fun old hold => Int.lt_of_le_of_lt (hall old hold) hlt⟩
      · rintro ⟨hpos, habove⟩
        refine if_pos ?_
        rcases hfrom with rfl | ⟨old, hold, rfl⟩
        · exact hpos
        · exact habove old hold
  constructor
  · intro h m hm
    exact (hiff m hm).1 (h.once m hm)
  · intro h
    refine ⟨fun m hm => (hiff m hm).2 (h m hm), pairwise_pendingVersions hcatalog 0, ?_⟩
    exact ⟨_, rfl, pairwise_pendingVersions hcatalog' reached⟩

/-- The catalog as it stands on Postgres, with the texts left out. -/
def released : List MigrationFile := buildMigrations (fun _ _ => "") false

/-- The catalog once upstream's migration 108 has been merged, below the fork's own. -/
def merged : List MigrationFile :=
  released.filter (·.version < 108) ++ [{ version := 108, sql := "" }] ++ released.filter (108 < ·.version)

/-- A database of the released catalog is at 1003: the run of the merged one completes without having
applied migration 108, and without doing anything else. -/
theorem merged_migration_skipped :
    Increasing released ∧ Increasing merged ∧ (∀ m ∈ released, m ∈ merged) ∧
      ∃ db, runMigrations released .fresh = some db ∧ runMigrations merged db = some db ∧
        (∃ m ∈ merged, m.version = 108) ∧ 108 ∉ db.applied ∧ ¬ UpgradedOnce merged db db := by
  obtain ⟨db, hrun, hdb⟩ := (Option.any_eq_true _ _).1
    (show (runMigrations released .fresh).any
      (fun db => decide (runMigrations merged db = some db ∧ 108 ∉ db.applied)) = true by decide +kernel)
  obtain ⟨hagain, hskipped⟩ := of_decide_eq_true hdb
  have hmem : ∃ m ∈ merged, m.version = 108 := by decide +kernel
  refine ⟨by decide +kernel, by decide +kernel, by decide +kernel, db, hrun, hagain, hmem, hskipped, ?_⟩
  intro h
  obtain ⟨m, hm, hversion⟩ := hmem
  have hone := h.once m hm
  rw [hversion, List.count_eq_zero_of_not_mem hskipped] at hone
  cases hone

/-- The fork's next migration, above all others, is applied by the upgrade. -/
theorem fork_migration_applied :
    ∃ db db', runMigrations released .fresh = some db ∧
      runMigrations (released ++ [{ version := 1004, sql := "" }]) db = some db' ∧
      UpgradedOnce (released ++ [{ version := 1004, sql := "" }]) db db' := by
  have hold : Increasing released := by decide +kernel
  have hnew : Increasing (released ++ [{ version := 1004, sql := "" }]) := by decide +kernel
  obtain ⟨db, db', hrun, hrun', hiff⟩ := upgrade_applies_once_iff hold hnew
    fun m hm => List.mem_append_left [{ version := 1004, sql := "" }] hm
  exact ⟨db, db', hrun, hrun', hiff.2 (by decide +kernel)⟩

end Dbos.Migrations
