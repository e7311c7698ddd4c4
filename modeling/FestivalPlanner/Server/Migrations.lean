import FestivalPlanner.Server.MigrationFiles

/-!
# The migration runner

`runPostgresMigrations` of `lib/planner-db-pg.ts`: which files a run executes, and what the
ledger knows of them.

* `Db` — the versions in `schema_migrations`, and the queries of migrations that took effect;
* `applyOneMigration`, `runPostgresMigrations` — one file, and a whole run;
* `runPostgresMigrations_once_iff` — when exactly every file is executed once and in order.

One run at a time holds the advisory lock.
-/

namespace FestivalPlanner.Migrations

open List

open Sql (Text)

/-! ## The database -/

structure Db where
  /-- `SELECT version FROM schema_migrations` -/
  schemaMigrations : List ℕ
  /-- The queries that took effect, with the file they came from. -/
  executed : List (Text × Text)

/-- What comes from outside: the directory, the database server, and the text function that
drops an outer transaction. -/
structure Env where
  files : List File
  readFails : Text → Bool
  stripOuterTxBoundaries : Text → Text
  /-- The versions of the rows that a query itself inserts in `schema_migrations`. -/
  rows : Text → List ℕ
  /-- Does the query fail on this database? -/
  fails : Db → Text → Bool

def Env.onDisk (env : Env) : List Migration := discoverMigrationsOnDisk env.files

/-- The queries a file is sent as. -/
def Env.queries (env : Env) (m : Migration) : List Text :=
  let cleaned := env.stripOuterTxBoundaries m.file.content
  if usesConcurrently cleaned then splitSqlStatements cleaned else [cleaned]

/-- The queries of a file, under its name. -/
def Env.entries (env : Env) (m : Migration) : List (Text × Text) :=
  (env.queries m).map (fun q => (m.file.name, q))

/-- The versions whose rows the queries of a file insert. -/
def Env.recorded (env : Env) (m : Migration) : List ℕ := (env.queries m).flatMap env.rows

/-! ## Applying a file -/

inductive MigrationError where
  | readFailed (file : Text) (version : ℕ)
  | failed (file : Text) (version : ℕ)
  deriving DecidableEq

/-- `client.query(sql)` -/
def query (env : Env) (file : Text) (db : Db) (sql : Text) : Option Db :=
  if env.fails db sql then none
  else some
    { schemaMigrations := env.rows sql ∪ db.schemaMigrations
      executed := db.executed ++ [(file, sql)] }

/-- `INSERT INTO schema_migrations ... ON CONFLICT (version) DO NOTHING` -/
def Db.record (db : Db) (version : ℕ) : Db :=
  { db with schemaMigrations := [version] ∪ db.schemaMigrations }

/-- The queries one after the other, each on its own; they stop at the first that fails. -/
def queryEach (env : Env) (file : Text) : Db → List Text → Bool × Db
  | db, [] => (true, db)
  | db, sql :: sqls =>
      match query env file db sql with
      | none => (false, db)
      | some db' => queryEach env file db' sqls

def applyOneMigration (env : Env) (db : Db) (m : Migration) : Except MigrationError Bool × Db :=
  if env.readFails m.file.name then (.error (.readFailed m.file.name m.version), db)
  else
    let cleaned := env.stripOuterTxBoundaries m.file.content
    if usesConcurrently cleaned then
      if m.version ∈ db.schemaMigrations then (.ok false, db)
      else
        match queryEach env m.file.name db (splitSqlStatements cleaned) with
        | (false, db') => (.error (.failed m.file.name m.version), db')
        | (true, db') => (.ok true, db'.record m.version)
    else
      if m.version ∈ db.schemaMigrations then (.ok false, db)
      else
        -- one transaction: nothing remains of a query that fails
        match query env m.file.name db cleaned with
        | none => (.error (.failed m.file.name m.version), db)
        | some db' => (.ok true, db'.record m.version)

/-- `for (const migration of pending)`, with the versions that were applied. -/
def applyPending (env : Env) : Db → List Migration → Except MigrationError (List ℕ) × Db
  | db, [] => (.ok [], db)
  | db, m :: ms =>
      match applyOneMigration env db m with
      | (.error e, db') => (.error e, db')
      | (.ok didApply, db') =>
          match applyPending env db' ms with
          | (.error e, db'') => (.error e, db'')
          | (.ok versions, db'') => (.ok (if didApply then m.version :: versions else versions), db'')

/-! ## A run -/

structure RunResult where
  applied : List ℕ
  current : ℕ
  gap : List ℕ
  deriving DecidableEq

/-- `Math.max(...versions)`, or 0 -/
def maxVersion (versions : List ℕ) : ℕ := versions.foldl max 0

/-- The versions on disk without a row. -/
def gapOf (env : Env) (db : Db) : List ℕ :=
  let diskVersions := (env.onDisk.map Migration.version).dedup
  (diskVersions.filter (fun v => v ∉ db.schemaMigrations)).insertionSort (· ≤ ·)

/-- A run; the flag says that a run of this process has succeeded before. -/
def runPostgresMigrations (env : Env) (migrationsRan : Bool) (db : Db) :
    Except MigrationError RunResult × Db × Bool :=
  if migrationsRan then (.ok { applied := [], current := 0, gap := [] }, db, true)
  else if env.onDisk = [] then
    (.ok { applied := [], current := maxVersion db.schemaMigrations, gap := [] }, db, false)
  else
    match applyPending env db (env.onDisk.filter (fun m => m.version ∉ db.schemaMigrations)) with
    | (.error e, db') => (.error e, db', false)
    | (.ok versions, db') =>
        (.ok
          { applied := versions
            current := maxVersion db'.schemaMigrations
            gap := gapOf env db' }, db', true)

/-! ## What a file leaves -/

variable {env : Env} {db db' : Db} {m : Migration} {ms as : List Migration}
  {migrationsRan ran : Bool} {r : RunResult}

theorem queryEach_ok {file : Text} {sqls : List Text}
    (h : queryEach env file db sqls = (true, db')) :
    db'.executed = db.executed ++ sqls.map (fun q => (file, q)) ∧
      ∀ v, v ∈ db'.schemaMigrations ↔ v ∈ db.schemaMigrations ∨ v ∈ sqls.flatMap env.rows := by
  induction sqls generalizing db with
  | nil =>
    obtain rfl : db = db' := (Prod.mk.inj h).2
    simp
  | cons sql sqls ih =>
    rw [queryEach] at h
    by_cases hf : env.fails db sql = true
    · simp [query, hf] at h
    · simp only [query, if_neg hf] at h
      obtain ⟨hexec, hrows⟩ := ih h
      refine ⟨by simp [hexec], fun v => ?_⟩
      rw [hrows, flatMap_cons, mem_append, mem_union_iff]
      tauto

/-- A file is left out exactly when its version has a row; otherwise all of its queries take
effect, and its version is recorded. -/
theorem applyOneMigration_ok {didApply : Bool}
    (h : applyOneMigration env db m = (.ok didApply, db')) :
    (m.version ∈ db.schemaMigrations ∧ didApply = false ∧ db' = db) ∨
    (m.version ∉ db.schemaMigrations ∧ didApply = true ∧
      db'.executed = db.executed ++ env.entries m ∧
      ∀ v, v ∈ db'.schemaMigrations ↔
        v ∈ db.schemaMigrations ∨ v = m.version ∨ v ∈ env.recorded m) := by
  unfold applyOneMigration at h
  by_cases hread : env.readFails m.file.name = true
  · simp [hread] at h
  · simp only [if_neg hread] at h
    by_cases hver : m.version ∈ db.schemaMigrations
    · simp only [if_pos hver, ite_self] at h
      obtain ⟨hb, rfl⟩ := Prod.mk.inj h
      exact .inl ⟨hver, (Except.ok.inj hb).symm, rfl⟩
    · refine .inr ⟨hver, ?_⟩
      simp only [if_neg hver] at h
      by_cases hconc : usesConcurrently (env.stripOuterTxBoundaries m.file.content) = true
      · simp only [if_pos hconc] at h
        split at h
        · cases h
        · rename_i db1 hq
          obtain ⟨hexec, hrows⟩ := queryEach_ok hq
          obtain ⟨hb, rfl⟩ := Prod.mk.inj h
          refine ⟨(Except.ok.inj hb).symm, ?_, fun v => ?_⟩
          · simp [Db.record, hexec, Env.entries, Env.queries, hconc]
          · simp only [Db.record, mem_union_iff, mem_singleton, hrows, Env.recorded,
              Env.queries, if_pos hconc]
            tauto
      · simp only [if_neg hconc] at h
        by_cases hf : env.fails db (env.stripOuterTxBoundaries m.file.content) = true
        · simp [query, hf] at h
        · simp only [query, if_neg hf] at h
          obtain ⟨hb, rfl⟩ := Prod.mk.inj h
          refine ⟨(Except.ok.inj hb).symm, ?_, fun v => ?_⟩
          · simp [Db.record, Env.entries, Env.queries, hconc]
          · simp only [Db.record, mem_union_iff, mem_singleton, Env.recorded,
              Env.queries, if_neg hconc, flatMap_cons, flatMap_nil, append_nil]
            tauto

/-- No file has the version of an earlier one, or one that an earlier one records. -/
def NoCollision (env : Env) (ms : List Migration) : Prop :=
  ms.Pairwise (fun a b => b.version ≠ a.version ∧ b.version ∉ env.recorded a)

instance (env : Env) (ms : List Migration) : Decidable (NoCollision env ms) :=
  inferInstanceAs (Decidable (ms.Pairwise _))

/-- What the files of a run leave: those that are applied, in order; all of them exactly when
none has a row before its turn. -/
theorem applyPending_ok {versions : List ℕ} (h : applyPending env db ms = (.ok versions, db')) :
    ∃ as, as.Sublist ms ∧ versions = as.map Migration.version ∧
      db'.executed = db.executed ++ as.flatMap env.entries ∧
      (∀ v ∈ db.schemaMigrations, v ∈ db'.schemaMigrations) ∧
      (∀ m ∈ ms, m.version ∈ db'.schemaMigrations) ∧
      (as = ms ↔ (∀ m ∈ ms, m.version ∉ db.schemaMigrations) ∧ NoCollision env ms) := by
  induction ms generalizing db versions with
  | nil =>
    obtain ⟨hv, rfl⟩ := Prod.mk.inj h
    obtain rfl := Except.ok.inj hv
    exact ⟨[], List.Sublist.refl _, rfl, by simp, by simp, by simp, by simp [NoCollision]⟩
  | cons m ms ih =>
    rw [applyPending] at h
    split at h
    · cases h
    · rename_i didApply db1 hone
      split at h
      · cases h
      · rename_i rest db2 hrest
        obtain ⟨hv, rfl⟩ := Prod.mk.inj h
        obtain rfl := Except.ok.inj hv
        obtain ⟨as, hsub, hrest', hexec, hkeep, hrec, hall⟩ := ih hrest
        subst hrest'
        rcases applyOneMigration_ok hone with ⟨hver, rfl, rfl⟩ | ⟨hver, rfl, hexec1, hrows⟩
        · refine ⟨as, hsub.cons m, rfl, hexec, hkeep, ?_, ?_⟩
          · exact forall_mem_cons.mpr ⟨hkeep _ hver, hrec⟩
          · constructor
            · intro has
              have := hsub.length_le
              simp [has] at this
            · intro hno
              exact absurd hver (hno.1 m (mem_cons_self ..))
        · refine ⟨m :: as, hsub.cons_cons m, by simp, ?_, ?_, ?_, ?_⟩
          · rw [hexec, hexec1, flatMap_cons, append_assoc]
          · exact fun v hv => hkeep v ((hrows v).mpr (.inl hv))
          · exact forall_mem_cons.mpr ⟨hkeep _ ((hrows _).mpr (.inr (.inl rfl))), hrec⟩
          · simp only [List.cons.injEq, true_and, hall, NoCollision, pairwise_cons,
              forall_mem_cons, hrows, not_or]
            constructor
            · rintro ⟨hms, hpw⟩
              exact ⟨⟨hver, fun a ha => (hms a ha).1⟩, fun a ha => (hms a ha).2, hpw⟩
            · rintro ⟨⟨-, hms⟩, hm, hpw⟩
              exact ⟨fun a ha => ⟨hms a ha, hm a ha⟩, hpw⟩

/-! ## Every file once -/

theorem entries_ne_nil (env : Env) (m : Migration) : env.entries m ≠ [] := by
  rw [Env.entries, ne_eq, map_eq_nil_iff, Env.queries]
  by_cases h : usesConcurrently (env.stripOuterTxBoundaries m.file.content) = true
  · obtain ⟨c, hc, hspace, hsemi⟩ := exists_of_usesConcurrently h
    simpa [h] using splitSqlStatements_ne_nil hc hspace hsemi
  · simp [h]

theorem eq_of_length_flatMap_le (env : Env) (h : as.Sublist ms)
    (hlen : (ms.flatMap env.entries).length ≤ (as.flatMap env.entries).length) : as = ms := by
  induction h with
  | slnil => rfl
  | @cons as ms m hsub ih =>
    have hpos := length_pos_of_ne_nil (entries_ne_nil env m)
    have hle := (hsub.flatMap env.entries).length_le
    rw [flatMap_cons, length_append] at hlen
    omega
  | @cons_cons as ms m hsub ih =>
    rw [ih]
    simpa [flatMap_cons] using hlen

theorem file_mem_of_mem_onDisk (h : m ∈ env.onDisk) : m.file ∈ env.files := by
  have hmem : m ∈ env.files.filterMap migrationOf :=
    (perm_insertionSort _ _).mem_iff.mp h
  obtain ⟨file, hfile, hm⟩ := mem_filterMap.mp hmem
  obtain ⟨g, -, rfl⟩ := Option.map_eq_some_iff.mp hm
  exact hfile

/-- What the database has executed of the files on disk. -/
def Env.history (env : Env) (db : Db) : List (Text × Text) :=
  db.executed.filter (fun e => e.1 ∈ env.files.map File.name)

theorem filter_entries (h : ∀ m ∈ as, m ∈ env.onDisk) :
    (as.flatMap env.entries).filter (fun e => e.1 ∈ env.files.map File.name) =
      as.flatMap env.entries := by
  rw [filter_eq_self]
  intro e he
  obtain ⟨m, hm, he⟩ := mem_flatMap.mp he
  obtain ⟨q, -, rfl⟩ := mem_map.mp he
  simpa using ⟨m.file, file_mem_of_mem_onDisk (h m hm), rfl⟩

/-- Every file on disk has been executed once, in ascending order. -/
def ExecutedOnce (env : Env) (db : Db) : Prop :=
  ∃ order : List Migration, order.Perm env.onDisk ∧ order.Pairwise Ascending ∧
    env.history db = order.flatMap env.entries

/-- A run that succeeds after the first files `P` executes some of the others, in order. -/
theorem runPostgresMigrations_ok {P Q : List Migration} (hdisk : env.onDisk = P ++ Q)
    (hledger : ∀ m ∈ P ++ Q, m.version ∈ db.schemaMigrations ↔ ∃ a ∈ P, a.version = m.version)
    (h : runPostgresMigrations env migrationsRan db = (.ok r, db', ran)) :
    ∃ as, as.Sublist Q ∧ env.history db' = env.history db ++ as.flatMap env.entries ∧
      (as = Q ↔ Q = [] ∨ migrationsRan = false ∧
        (∀ a ∈ P, ∀ b ∈ Q, a.version ≠ b.version) ∧ NoCollision env Q) := by
  unfold runPostgresMigrations at h
  by_cases hran : migrationsRan = true
  · simp only [if_pos hran] at h
    obtain ⟨-, h⟩ := Prod.mk.inj h
    obtain ⟨rfl, -⟩ := Prod.mk.inj h
    exact ⟨[], nil_sublist _, by simp, by simp [hran, eq_comm]⟩
  rw [if_neg hran] at h
  by_cases hnil : env.onDisk = []
  · simp only [if_pos hnil] at h
    obtain ⟨-, h⟩ := Prod.mk.inj h
    obtain ⟨rfl, -⟩ := Prod.mk.inj h
    obtain ⟨-, rfl⟩ := append_eq_nil_iff.mp (hdisk.symm.trans hnil)
    exact ⟨[], nil_sublist _, by simp, by simp⟩
  rw [if_neg hnil] at h
  split at h
  · cases h
  rename_i versions db1 hp
  obtain ⟨-, h⟩ := Prod.mk.inj h
  obtain ⟨rfl, -⟩ := Prod.mk.inj h
  have hP : P.filter (fun m => m.version ∉ db.schemaMigrations) = [] := by
    rw [filter_eq_nil_iff]
    intro m hm
    simpa using (hledger m (mem_append_left _ hm)).mpr ⟨m, hm, rfl⟩
  rw [hdisk, filter_append, hP, nil_append] at hp
  obtain ⟨as, hsub, -, hexec, -, -, hall⟩ := applyPending_ok hp
  have hsubQ : as.Sublist Q := hsub.trans filter_sublist
  have hfresh : Q.filter (fun m => m.version ∉ db.schemaMigrations) = Q ↔
      ∀ a ∈ P, ∀ b ∈ Q, a.version ≠ b.version := by
    rw [filter_eq_self]
    constructor
    · intro hQ a ha b hb hab
      have := hQ b hb
      simp only [decide_not, Bool.not_eq_eq_eq_not, Bool.not_true, decide_eq_false_iff_not] at this
      exact this ((hledger b (mem_append_right _ hb)).mpr ⟨a, ha, hab⟩)
    · intro hPQ b hb
      simp only [decide_not, Bool.not_eq_eq_eq_not, Bool.not_true, decide_eq_false_iff_not]
      intro hmem
      obtain ⟨a, ha, hab⟩ := (hledger b (mem_append_right _ hb)).mp hmem
      exact hPQ a ha b hb hab
  refine ⟨as, hsubQ, ?_, ?_⟩
  · rw [Env.history, hexec, filter_append, filter_entries, Env.history]
    intro m hm
    rw [hdisk]
    exact mem_append_right _ (hsubQ.mem hm)
  · constructor
    · intro has
      have hfilter : Q.filter (fun m => m.version ∉ db.schemaMigrations) = Q :=
        filter_sublist.antisymm (has ▸ hsub)
      refine .inr ⟨by simpa using hran, hfresh.mp hfilter, ?_⟩
      rw [hfilter] at hall
      exact (hall.mp has).2
    · rintro (rfl | ⟨-, hPQ, hno⟩)
      · exact sublist_nil.mp hsubQ
      · rw [hfresh.mpr hPQ] at hall
        refine hall.mpr ⟨fun m hm hmem => ?_, hno⟩
        obtain ⟨a, ha, ham⟩ := (hledger m (mem_append_right _ hm)).mp hmem
        exact hPQ a ha m hm ham

/-- After a run that succeeds, every file on disk has been executed once and in order, and an
empty gap report means that no file was left out, exactly when the first files `P` were all, or
this is the first run of the process and no other file has the version of an earlier one or a
version that an earlier one recorded. -/
theorem runPostgresMigrations_once_iff {env : Env} {migrationsRan ran : Bool} {db db' : Db}
    {r : RunResult} {P Q : List Migration} (hdisk : env.onDisk = P ++ Q)
    (hledger : ∀ m ∈ P ++ Q, m.version ∈ db.schemaMigrations ↔ ∃ a ∈ P, a.version = m.version)
    (hexec : env.history db = P.flatMap env.entries)
    (h : runPostgresMigrations env migrationsRan db = (.ok r, db', ran)) :
    (ExecutedOnce env db' ∧
      (r.gap = [] → ∀ m ∈ env.onDisk, ∀ e ∈ env.entries m, e ∈ db'.executed)) ↔
    Q = [] ∨ migrationsRan = false ∧
      (∀ a ∈ P, ∀ b ∈ Q, a.version ≠ b.version) ∧ NoCollision env Q := by
  obtain ⟨as, hsub, hhist, hall⟩ := runPostgresMigrations_ok hdisk hledger h
  rw [← hall]
  constructor
  · rintro ⟨⟨order, hperm, -, horder⟩, -⟩
    refine eq_of_length_flatMap_le env hsub ?_
    have hlen := congrArg List.length (hhist.symm.trans horder)
    rw [(hperm.flatMap_right env.entries).length_eq, hexec, hdisk, List.flatMap_append,
      List.length_append, List.length_append] at hlen
    omega
  · rintro rfl
    have hdone : env.history db' = env.onDisk.flatMap env.entries := by
      rw [hhist, hexec, hdisk, List.flatMap_append]
    refine ⟨⟨env.onDisk, .refl _, ascending_discoverMigrationsOnDisk _, hdone⟩,
      fun _ m hm e he => ?_⟩
    have hmem : e ∈ env.history db' := by
      rw [hdone]
      exact List.mem_flatMap.mpr ⟨m, hm, he⟩
    exact List.mem_of_mem_filter hmem

/-- A server on which no query fails, and files without an outer transaction. -/
def plainEnv (files : List (String × String)) : Env :=
  { files := files.map (fun f => { name := f.1.toList, content := f.2.toList })
    readFails := fun _ => false
    stripOuterTxBoundaries := id
    rows := fun _ => []
    fails := fun _ _ => false }

/-- A baseline that has run, and two new files. -/
def threeFiles : Env :=
  plainEnv [("005_links.sql", "ALTER TABLE t"), ("004_baseline.sql", "CREATE TABLE t"),
    ("006_index.sql", "DROP INDEX CONCURRENTLY i; CREATE INDEX CONCURRENTLY i")]

def afterBaseline : Db :=
  { schemaMigrations := [4]
    executed := [("004_baseline.sql".toList, "CREATE TABLE t".toList)] }

theorem threeFiles_once : ∃ r db',
    runPostgresMigrations threeFiles false afterBaseline = (.ok r, db', true) ∧
      r.applied = [5, 6] ∧ ExecutedOnce threeFiles db' := by
  refine ⟨_, _, rfl, by decide, ?_⟩
  have h := @runPostgresMigrations_once_iff threeFiles false true afterBaseline _ _
    (threeFiles.onDisk.take 1) (threeFiles.onDisk.drop 1) (List.take_append_drop ..).symm
    (by decide) (by decide) rfl
  exact (h.mpr (Or.inr (by decide))).1

/-- Two files of one version. -/
def sameVersion : Env :=
  plainEnv [("019_expense_categories.sql", "ALTER TABLE e"),
    ("019b_reminder_index.sql", "CREATE INDEX i")]

/-- The second one is left out, and the run that leaves it out succeeds without a gap. -/
theorem reminderIndex_leftOut : ∃ r db',
    runPostgresMigrations sameVersion false { schemaMigrations := [], executed := [] } =
        (.ok r, db', true) ∧ r.gap = [] ∧
      (∃ m ∈ sameVersion.onDisk, ∃ e ∈ sameVersion.entries m, e ∉ db'.executed) :=
  ⟨_, _, rfl, by decide, by decide⟩

end FestivalPlanner.Migrations
