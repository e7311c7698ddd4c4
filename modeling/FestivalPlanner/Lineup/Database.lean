import FestivalPlanner.Lib.Table
import Mathlib.Data.Rat.Defs

/-!
# Festivals, line-ups and what users attach to sets

The tables of `migrations/` that the stores `festivals.ts` and `profiles.ts` write, and the
statements of these stores with the constraints that PostgreSQL checks.

* `SetRow` refers to its stage with `ON DELETE CASCADE`, and `RatingRow` to its set;
* `Attached`, a pick or a note of a profile, refers to its set without an action, so that a
  set it refers to cannot be deleted;
* `Db` — the tables;
* `removeSets`, `deleteStages`, `insertSetsBatch`, … — the statements.
-/

namespace FestivalPlanner.Lineup

open Keyed

/-! ## Rows -/

/-- The own enumerable fields of a JavaScript object whose values are of one kind. -/
structure Entries (β : Type) where
  entries : List (String × β)
  unique : UniqueKeys Prod.fst entries
  deriving DecidableEq

/-- `{}` -/
def Entries.empty {β : Type} : Entries β := ⟨[], List.nodup_nil⟩

/-- An artist of a set, with the links by platform; the photo and the genres are found by
Spotify. -/
structure Artist where
  name : String
  links : List (String × String)
  photo : Option String := none
  genres : List String := []
  deriving DecidableEq

/-- A row of `festivals`; a map is the text of its JSON value. -/
structure FestivalRow where
  id : String
  name : String
  location : String
  b2bSeparator : Option String
  timeZone : Option String
  mapConfig : Option String
  latitude : Option ℚ
  longitude : Option ℚ
  createdAt : ℕ
  updatedAt : ℕ
  /-- `deleted_at` is set. -/
  deleted : Bool
  deriving DecidableEq

/-- A row of `festival_stages`. -/
structure StageRow where
  festivalId : String
  id : String
  name : String
  color : Option String
  sortOrder : ℕ
  latitude : Option ℚ
  longitude : Option ℚ
  deriving DecidableEq

/-- A row of `festival_days`. -/
structure DayRow where
  festivalId : String
  dayIndex : ℕ
  label : String
  date : String
  deriving DecidableEq

/-- A row of `festival_sets`. -/
structure SetRow where
  id : String
  festivalId : String
  dayIndex : ℕ
  artist : String
  stageId : String
  startTime : Option String
  endTime : Option String
  sortOrder : ℕ
  linkUrl : Option String
  artists : List Artist
  deriving DecidableEq

/-- A row of `festival_profiles`. -/
structure ProfileRow where
  id : String
  festivalId : String
  userId : Option String
  name : String
  picksJson : Entries String
  notesJson : Entries String
  remindersJson : Entries ℤ
  createdAt : ℕ
  updatedAt : Option ℕ
  deletedAt : Option ℕ
  deletedBy : Option String
  deletionReason : Option String
  deriving DecidableEq

/-- A row of `festival_profile_picks`, whose value is the priority, or of
`festival_profile_notes`, whose value is the text. -/
structure Attached where
  profileId : String
  setId : String
  value : String
  deriving DecidableEq

/-- A row of `set_ratings`. -/
structure RatingRow where
  userId : String
  setId : String
  rating : ℤ
  note : String
  createdAt : ℕ
  updatedAt : ℕ
  deriving DecidableEq

/-! ## Tables -/

structure Db where
  users : List String
  festivals : List FestivalRow
  stages : List StageRow
  days : List DayRow
  sets : List SetRow
  profiles : List ProfileRow
  picks : List Attached
  notes : List Attached
  ratings : List RatingRow
  deriving DecidableEq

/-- A constraint that a statement violates. -/
inductive DbError where
  | uniqueViolation
  | foreignKeyViolation
  /-- `ON CONFLICT DO UPDATE` would change a row twice -/
  | cardinalityViolation
  deriving DecidableEq

def StageRow.key (r : StageRow) : String × String := (r.festivalId, r.id)
def DayRow.key (r : DayRow) : String × ℕ := (r.festivalId, r.dayIndex)
def Attached.key (r : Attached) : String × String := (r.profileId, r.setId)
def RatingRow.key (r : RatingRow) : String × String := (r.userId, r.setId)

variable {db' : Db} {rows : List Attached}

namespace Db

variable (db : Db)

/-! ## References -/

def hasUser (userId : String) : Bool := decide (userId ∈ db.users)
def hasFestival (festivalId : String) : Bool := db.festivals.any (fun f => f.id = festivalId)
def hasStage (festivalId stageId : String) : Bool :=
  db.stages.any (fun st => st.festivalId = festivalId ∧ st.id = stageId)
def hasSet (setId : String) : Bool := db.sets.any (fun x => x.id = setId)
def hasProfile (profileId : String) : Bool := db.profiles.any (fun p => p.id = profileId)

/-- Is the set one of this festival's? -/
def isSetOf (festivalId setId : String) : Bool :=
  db.sets.any (fun x => x.festivalId = festivalId ∧ x.id = setId)

/-! ## Deleting -/

/-- `DELETE FROM festival_sets`: refused while a pick or a note refers to one of the sets,
whose ratings go with them. -/
def removeSets (gone : SetRow → Bool) : Except DbError Db :=
  let ids := (db.sets.filter gone).map SetRow.id
  if db.picks.any (fun p => p.setId ∈ ids) ∨ db.notes.any (fun n => n.setId ∈ ids) then
    .error .foreignKeyViolation
  else
    .ok { db with
      sets := db.sets.filter (fun x => !gone x)
      ratings := db.ratings.filter (fun r => r.setId ∉ ids) }

/-- `DELETE FROM festival_stages WHERE festival_id = $1`: the sets on these stages go with
them. -/
def deleteStages (festivalId : String) : Except DbError Db :=
  (db.removeSets (fun x => decide (x.festivalId = festivalId) && db.hasStage festivalId x.stageId)).map
    (fun db => { db with stages := db.stages.filter (fun st => st.festivalId ≠ festivalId) })

/-- `DELETE FROM festival_sets WHERE festival_id = $1` -/
def deleteSets (festivalId : String) : Except DbError Db :=
  db.removeSets (fun x => x.festivalId = festivalId)

/-- `DELETE FROM festival_days WHERE festival_id = $1` -/
def deleteDays (festivalId : String) : Db :=
  { db with days := db.days.filter (fun d => d.festivalId ≠ festivalId) }

/-- `DELETE FROM set_ratings WHERE set_id IN (…)`, the sets of a festival -/
def deleteRatingsOf (festivalId : String) : Db :=
  { db with ratings := db.ratings.filter (fun r => !db.isSetOf festivalId r.setId) }

/-- `DELETE FROM festival_profile_picks WHERE set_id IN (…)`, the sets of a festival -/
def deletePicksOf (festivalId : String) : Db :=
  { db with picks := db.picks.filter (fun p => !db.isSetOf festivalId p.setId) }

/-! ## Inserting -/

/-- A table after an `INSERT`, when the keys are new and the references hold. -/
def inserted {α : Type} (table : Option α) (references : Bool) : Except DbError α :=
  match table with
  | none => .error .uniqueViolation
  | some rows => if references then .ok rows else .error .foreignKeyViolation

def insertStagesBatch (rows : List StageRow) : Except DbError Db :=
  (inserted (Table.insert StageRow.key db.stages rows)
    (rows.all (fun st => db.hasFestival st.festivalId))).map (fun stages => { db with stages })

def insertDaysBatch (rows : List DayRow) : Except DbError Db :=
  (inserted (Table.insert DayRow.key db.days rows)
    (rows.all (fun d => db.hasFestival d.festivalId))).map (fun days => { db with days })

def insertSetsBatch (rows : List SetRow) : Except DbError Db :=
  (inserted (Table.insert SetRow.id db.sets rows)
    (rows.all (fun x => db.hasStage x.festivalId x.stageId))).map (fun sets => { db with sets })

/-- The references of a pick or a note. -/
def refers (r : Attached) : Bool := db.hasProfile r.profileId && db.hasSet r.setId

def insertPicks (rows : List Attached) : Except DbError Db :=
  (inserted (Table.insert Attached.key db.picks rows) (rows.all db.refers)).map
    (fun picks => { db with picks })

def insertNotes (rows : List Attached) : Except DbError Db :=
  (inserted (Table.insert Attached.key db.notes rows) (rows.all db.refers)).map
    (fun notes => { db with notes })

variable {db}

theorem inserted_map_eq_ok {α : Type} {table : Option α} {references : Bool} {f : α → Db}
    (h : (inserted table references).map f = .ok db') :
    ∃ rows, table = some rows ∧ db' = f rows := by
  cases table with
  | none => cases h
  | some rows =>
    cases references with
    | false => cases h
    | true => exact ⟨rows, rfl, (Except.ok.inj h).symm⟩

/-- What an `INSERT` needs, and what it does. -/
theorem inserted_insert_eq_ok {α κ : Type} [DecidableEq κ] {key : α → κ} {table rows : List α}
    {refers : α → Bool} {f : List α → Db} :
    (inserted (Table.insert key table rows) (rows.all refers)).map f = .ok db' ↔
      (UniqueKeys key rows ∧ ∀ r ∈ rows, ∀ x ∈ table, key x ≠ key r) ∧
      (∀ r ∈ rows, refers r = true) ∧ db' = f (table ++ rows) := by
  rw [← List.all_eq_true (l := rows)]
  unfold inserted
  cases hinsert : Table.insert key table rows with
  | none =>
    have hnot : ¬(UniqueKeys key rows ∧ ∀ r ∈ rows, ∀ x ∈ table, key x ≠ key r) := by
      intro hnew
      rw [Table.insert_eq_some.mpr ⟨hnew, rfl⟩] at hinsert
      cases hinsert
    simp only [Except.map, reduceCtorEq, false_iff]
    exact fun h => hnot h.1
  | some t =>
    obtain ⟨hnew, rfl⟩ := Table.insert_eq_some.mp hinsert
    cases rows.all refers with
    | false => simp [Except.map]
    | true =>
      simp only [if_true, Except.map, Except.ok.injEq, true_and]
      exact ⟨fun h => ⟨hnew, h.symm⟩, fun h => h.2.symm⟩

theorem insertStagesBatch_eq_ok {rows : List StageRow} :
    db.insertStagesBatch rows = .ok db' ↔
      (UniqueKeys StageRow.key rows ∧ ∀ r ∈ rows, ∀ x ∈ db.stages, x.key ≠ r.key) ∧
      (∀ r ∈ rows, db.hasFestival r.festivalId = true) ∧
      db' = { db with stages := db.stages ++ rows } :=
  inserted_insert_eq_ok

theorem insertDaysBatch_eq_ok {rows : List DayRow} :
    db.insertDaysBatch rows = .ok db' ↔
      (UniqueKeys DayRow.key rows ∧ ∀ r ∈ rows, ∀ x ∈ db.days, x.key ≠ r.key) ∧
      (∀ r ∈ rows, db.hasFestival r.festivalId = true) ∧
      db' = { db with days := db.days ++ rows } :=
  inserted_insert_eq_ok

theorem insertSetsBatch_eq_ok {rows : List SetRow} :
    db.insertSetsBatch rows = .ok db' ↔
      (UniqueKeys SetRow.id rows ∧ ∀ r ∈ rows, ∀ x ∈ db.sets, x.id ≠ r.id) ∧
      (∀ r ∈ rows, db.hasStage r.festivalId r.stageId = true) ∧
      db' = { db with sets := db.sets ++ rows } :=
  inserted_insert_eq_ok

theorem insertPicks_eq_ok : db.insertPicks rows = .ok db' ↔
      (UniqueKeys Attached.key rows ∧ ∀ r ∈ rows, ∀ x ∈ db.picks, x.key ≠ r.key) ∧
      (∀ r ∈ rows, db.refers r = true) ∧ db' = { db with picks := db.picks ++ rows } :=
  inserted_insert_eq_ok

theorem insertNotes_eq_ok : db.insertNotes rows = .ok db' ↔
      (UniqueKeys Attached.key rows ∧ ∀ r ∈ rows, ∀ x ∈ db.notes, x.key ≠ r.key) ∧
      (∀ r ∈ rows, db.refers r = true) ∧ db' = { db with notes := db.notes ++ rows } :=
  inserted_insert_eq_ok

end Db

end FestivalPlanner.Lineup
