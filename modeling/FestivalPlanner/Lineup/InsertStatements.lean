import FestivalPlanner.Lib.Placeholders
import FestivalPlanner.Lineup.DualWrite
import FestivalPlanner.Lineup.FestivalRoute
import Mathlib.Data.List.Dedup

/-!
# The multi-row INSERT statements of the stores

How `festivals.ts` and `profiles.ts` write many rows in one statement, with a placeholder for
each value.  The protocol of the database counts the parameters of a statement in 16 bits.

* `buildMultiInsert`, `batchInsert`, `upsertProfiles` — the three ways to number placeholders;
* `updateInserts`, `lineupInserts` — the statements of an update of a festival, and those of one
  festival of `replaceAll`;
* `replaceAllInserts` — the statements of `replaceAll` of the profiles;
* `inserts_fit` — the first two always stay within the limit; the third exactly up to certain
  numbers of profiles, picks and notes.
-/

namespace FestivalPlanner.Lineup.InsertStatements

open Placeholders List

/-! ## Values and statements -/

/-- A value that is bound to a placeholder. -/
inductive Value where
  | null
  | text (s : String)
  | int (n : ℤ)
  | real (q : ℚ)
  /-- a timestamp -/
  | time (t : ℕ)
  /-- the JSON texts of artists, and of an object of texts or numbers -/
  | artists (as : List Artist)
  | texts (entries : Entries String)
  | numbers (entries : Entries ℤ)

def Value.ofText : Option String → Value
  | none => .null
  | some s => .text s

def Value.ofReal : Option ℚ → Value
  | none => .null
  | some q => .real q

/-- `$1`, `$2`, … -/
def placeholder (n : ℕ) : String := "$" ++ toString n

/-- An `INSERT`: its placeholders by row, and its parameters. -/
structure Insert where
  table : String
  columns : List String
  placeholders : List (List String)
  params : List Value

/-- The placeholders are `$1` to `$n`, in the order of the n parameters. -/
def Insert.Corresponds (q : Insert) : Prop :=
  q.placeholders.flatten = (List.range' 1 q.params.length).map placeholder

/-- The most parameters that a statement can bind. -/
@[grind =] def maxParams : ℕ := 65535

/-! ## The builders -/

/-- The variables of `buildMultiInsert`. -/
structure Build (α : Type) where
  params : List α
  idx : ℕ
  tuples : List (List String)

/-- One value of a row. -/
def addValue {α : Type} (b : Build α × List String) (val : α) : Build α × List String :=
  ({ b.1 with params := b.1.params ++ [val], idx := b.1.idx + 1 }, b.2 ++ [placeholder b.1.idx])

/-- One row. -/
def addRow {α : Type} (b : Build α) (row : List α) : Build α :=
  let (b, placeholders) := row.foldl addValue (b, [])
  { b with tuples := b.tuples ++ [placeholders] }

/-- `buildMultiInsert` -/
def buildMultiInsert {α : Type} (rows : List (List α)) (startIdx : ℕ := 1) : Build α :=
  rows.foldl addRow ⟨[], startIdx, []⟩

/-- A statement of `festivals.ts`; none for no rows. -/
def multiInsert (table : String) (columns : List String) (rows : List (List Value)) : List Insert :=
  if rows = [] then []
  else
    let b := buildMultiInsert rows
    [⟨table, columns, b.tuples, b.params⟩]

/-- `batchInsert` of `profiles.ts`; a value that a row does not have is `undefined`, which is
bound as null. -/
def batchInsert (table : String) (columns : List String) (rows : List (List Value)) :
    List Insert :=
  if rows = [] then []
  else
    [{ table := table
       columns := columns
       placeholders := rows.mapIdx fun ri _ => columns.mapIdx fun ci _ =>
         placeholder (ri * columns.length + ci + 1)
       params := rows.flatMap fun row => columns.mapIdx fun ci _ => row[ci]?.getD .null }]

/-! ## The rows -/

def stageValues (r : StageRow) : List Value :=
  [.text r.festivalId, .text r.id, .text r.name, .ofText r.color, .int r.sortOrder,
    .ofReal r.latitude, .ofReal r.longitude]

def dayValues (r : DayRow) : List Value :=
  [.text r.festivalId, .int r.dayIndex, .text r.label, .text r.date]

def setValues (r : SetRow) : List Value :=
  [.text r.id, .text r.festivalId, .int r.dayIndex, .text r.artist, .text r.stageId,
    .ofText r.startTime, .ofText r.endTime, .int r.sortOrder, .ofText r.linkUrl, .artists r.artists]

def attachedValues (r : Attached) : List Value := [.text r.profileId, .text r.setId, .text r.value]

def ratingValues (r : RatingRow) : List Value :=
  [.text r.userId, .text r.setId, .int r.rating, .text r.note, .time r.createdAt, .time r.updatedAt]

def insertStagesBatch (rows : List StageRow) : List Insert :=
  multiInsert "festival_stages"
    ["festival_id", "id", "name", "color", "sort_order", "latitude", "longitude"]
    (rows.map stageValues)

def insertDaysBatch (rows : List DayRow) : List Insert :=
  multiInsert "festival_days" ["festival_id", "day_index", "label", "date"] (rows.map dayValues)

def insertSetsBatch (rows : List SetRow) : List Insert :=
  multiInsert "festival_sets"
    ["id", "festival_id", "day_index", "artist", "stage_id", "start_time", "end_time",
      "sort_order", "link_url", "artists"]
    (rows.map setValues)

def restorePicksBatch (pickRows : List Attached) (newSetIds : List String) : List Insert :=
  multiInsert "festival_profile_picks" ["profile_id", "set_id", "priority"]
    ((pickRows.filter (fun p => p.setId ∈ newSetIds)).map attachedValues)

def restoreRatingsBatch (ratingRows : List (RatingRow × String))
    (setIdentityMap : List (String × String)) : List Insert :=
  let mapped := ratingRows.filterMap fun r =>
    match Keyed.lookup Prod.fst r.2 setIdentityMap with
    | some (_, newSetId) => if newSetId = "" then none else some { r.1 with setId := newSetId }
    | none => none
  multiInsert "set_ratings" ["user_id", "set_id", "rating", "note", "created_at", "updated_at"]
    (mapped.map ratingValues)

/-! ## The statements of a festival -/

/-- What follows a statement that may fail. -/
def andThen (result : Except DbError Db) (next : Db → List Insert) : List Insert :=
  match result with
  | .error _ => []
  | .ok db => next db

/-- The statements that `replaceChildRows` issues. -/
def replaceChildInserts (db : Db) (festivalId : String) (children : Children) : List Insert :=
  let existingPicks := db.selectPicks festivalId
  let existingRatings := db.selectRatings festivalId
  let db := (db.deleteRatingsOf festivalId).deletePicksOf festivalId
  andThen (db.deleteSets festivalId) fun db =>
  let db := db.deleteDays festivalId
  insertDaysBatch children.dayRows ++ andThen (db.insertDaysBatch children.dayRows) fun db =>
  insertSetsBatch children.setRows ++ andThen (db.insertSetsBatch children.setRows) fun db =>
  restorePicksBatch existingPicks children.newSetIds ++
  andThen (db.restorePicksBatch existingPicks children.newSetIds) fun _ =>
  restoreRatingsBatch existingRatings children.setIdentityMap

/-- The stages of a festival, and what follows them. -/
def stagesInserts (db : Db) (festivalId : String) (stages : List Stage) (next : Db → List Insert) :
    List Insert :=
  andThen (db.deleteStages festivalId) fun db =>
  insertStagesBatch (stageRows festivalId stages) ++
  andThen (db.insertStagesBatch (stageRows festivalId stages)) next

/-- The statements of one festival of `replaceAll`, after that of the festival itself. -/
def lineupInserts (db : Db) (festivalId : String) (stages : List Stage) (days : List Day) :
    List Insert :=
  stagesInserts db festivalId stages fun db =>
  replaceChildInserts db festivalId (collectFestivalChildren festivalId days)

/-- The statements of `festivals.update`. -/
def updateInserts (now : ℕ) (db : Db) (festivalId : String) (fields : FestivalFields) :
    List Insert :=
  let db := db.updateFestival now festivalId fields
  let next := fun db : Db =>
    match fields.days with
    | none => []
    | some days => replaceChildInserts db festivalId (collectFestivalChildren festivalId days)
  match fields.stages with
  | none => next db
  | some stages => stagesInserts db festivalId stages next

/-- The statements of `PUT /festivals/:id`. -/
def putInserts (cfg : Config) (env : Env) (now : ℕ) (db : Db) (festivalId : String)
    (body : FestivalInput) : List Insert :=
  match validateFestival cfg env body with
  | _ :: _ => []
  | [] =>
      match db.getFestivalById festivalId with
      | none => []
      | some existing =>
          updateInserts now db festivalId (sanitizeFestivalPayload cfg env body existing).fields

/-! ## The statements of the profiles -/

/-- The values of a profile, an empty owner being none. -/
def profileValues (now : ℕ) (p : ProfileInput) : List Value :=
  [.text p.id, .text p.festivalId, .ofText (p.userId.filter (· ≠ "")), .text p.name,
    .texts (orEmpty p.picks), .texts (orEmpty p.notes), .numbers (orEmpty p.reminders),
    .time (p.createdAt.getD now), .time (p.updatedAt.getD (p.createdAt.getD now))]

/-- The upsert of all profiles. -/
def upsertProfiles (now : ℕ) (profiles : List ProfileInput) : Insert :=
  { table := "festival_profiles"
    columns := ["id", "festival_id", "user_id", "name", "picks_json", "notes_json",
      "reminders_json", "created_at", "updated_at"]
    placeholders := profiles.mapIdx fun ri _ =>
      let base := ri * 9
      [placeholder (base + 1), placeholder (base + 2), placeholder (base + 3),
        placeholder (base + 4), placeholder (base + 5), placeholder (base + 6),
        placeholder (base + 7), placeholder (base + 8), placeholder (base + 9)]
    params := profiles.flatMap (profileValues now) }

/-- The pick rows of all profiles. -/
def allPickRows (profiles : List ProfileInput) : List Attached :=
  profiles.flatMap fun p => attachedRows p.id (orEmpty p.picks)

/-- The note rows of all profiles. -/
def allNoteRows (profiles : List ProfileInput) : List Attached :=
  profiles.flatMap fun p => attachedRows p.id (orEmpty p.notes)

/-- The statements of `profiles.replaceAll`, each of them issued when those before succeed. -/
def replaceAllInserts (now : ℕ) (profiles : List ProfileInput) : List Insert :=
  if profiles = [] then []
  else
    upsertProfiles now profiles ::
      (batchInsert "festival_profile_picks" ["profile_id", "set_id", "priority"]
          ((allPickRows profiles).map attachedValues) ++
        batchInsert "festival_profile_notes" ["profile_id", "set_id", "text"]
          ((allNoteRows profiles).map attachedValues))

/-! ## The placeholders -/

section Builders

variable {α : Type}

theorem foldl_addValue (row : List α) (b : Build α) (placeholders : List String) :
    row.foldl addValue (b, placeholders) =
      ({ b with params := b.params ++ row, idx := b.idx + row.length },
        placeholders ++ (List.range' b.idx row.length).map placeholder) := by
  induction row generalizing b placeholders with
  | nil => simp
  | cons val row ih =>
    rw [foldl_cons, addValue, ih]
    simp only [append_assoc, singleton_append, length_cons, range'_succ,
      map_cons, Nat.add_assoc, Nat.add_comm 1]

theorem foldl_addRow (rows : List (List α)) (b : Build α) :
    rows.foldl addRow b =
      { params := b.params ++ rows.flatten
        idx := b.idx + rows.flatten.length
        tuples := b.tuples ++ (numbersFrom b.idx rows).map (List.map placeholder) } := by
  induction rows generalizing b with
  | nil => simp [numbersFrom]
  | cons row rows ih =>
    rw [foldl_cons, ih, addRow, foldl_addValue]
    simp [numbersFrom, Nat.add_assoc]

/-- What `buildMultiInsert` builds: the values row by row, numbered one after the other. -/
theorem buildMultiInsert_eq (rows : List (List α)) (startIdx : ℕ) :
    (buildMultiInsert rows startIdx).params = rows.flatten ∧
      (buildMultiInsert rows startIdx).tuples =
        (numbersFrom startIdx rows).map (List.map placeholder) := by
  rw [buildMultiInsert, foldl_addRow]
  exact ⟨nil_append _, nil_append _⟩

end Builders

section Statements

variable {table : String} {columns : List String} {rows : List (List Value)} {q : Insert}

/-- Placeholders that are numbered through the rows of the parameters correspond to them. -/
theorem corresponds_of_numbers
    (hplaceholders : q.placeholders = (numbersFrom 1 rows).map (List.map placeholder))
    (hparams : q.params = rows.flatten) : q.Corresponds := by
  rw [Insert.Corresponds, hplaceholders, hparams, ← map_flatten, flatten_numbersFrom]

theorem mem_multiInsert (h : q ∈ multiInsert table columns rows) :
    q.Corresponds ∧ q.params = rows.flatten := by
  unfold multiInsert at h
  split at h
  · cases h
  · obtain rfl := mem_singleton.mp h
    obtain ⟨hparams, htuples⟩ := buildMultiInsert_eq rows 1
    exact ⟨corresponds_of_numbers htuples hparams, hparams⟩

/-- The columns of a row that has them all. -/
theorem mapIdx_columns {row : List Value} (h : row.length = columns.length) :
    (columns.mapIdx fun ci _ => row[ci]?.getD .null) = row := by
  refine ext_getElem (by simpa using h.symm) fun i hi hi' => ?_
  rw [getElem_mapIdx, getElem?_eq_getElem hi', Option.getD_some]

/-- Rows of one width are numbered by row and column as they are one after the other. -/
theorem mapIdx_numbers {n : ℕ} {columns : List String} (hn : columns.length = n)
    {rows : List (List Value)} (h : ∀ row ∈ rows, row.length = n) :
    (rows.mapIdx fun ri _ => columns.mapIdx fun ci _ => placeholder (ri * columns.length + ci + 1)) =
      (numbersFrom 1 rows).map (List.map placeholder) := by
  rw [numbersFrom_of_width h]
  refine ext_getElem (by simp) fun ri _ _ => ?_
  rw [getElem_mapIdx, getElem_map, getElem_mapIdx]
  refine ext_getElem (by simpa using hn) fun ci _ _ => ?_
  simp only [getElem_mapIdx, getElem_map, getElem_range', hn, Nat.one_mul]
  congr 1
  omega

theorem mem_batchInsert (hrows : ∀ row ∈ rows, row.length = columns.length) :
    q ∈ batchInsert table columns rows →
      q.Corresponds ∧ q.params.length = rows.length * columns.length := by
  intro h
  unfold batchInsert at h
  split at h
  · cases h
  · obtain rfl := mem_singleton.mp h
    have hparams : (rows.flatMap fun row => columns.mapIdx fun ci _ => row[ci]?.getD Value.null) =
        rows.flatten := by
      rw [flatMap_def, map_congr_left (fun row hrow => mapIdx_columns (hrows row hrow)),
        map_id']
    refine ⟨corresponds_of_numbers (mapIdx_numbers rfl hrows) hparams, ?_⟩
    rw [hparams, length_flatten_of_width hrows]

end Statements

/-! ## Festivals -/

section Festivals

variable {db : Db} {festivalId : String} {stages : List Stage} {days : List Day} {q : Insert}

theorem mem_andThen {result : Except DbError Db} {next : Db → List Insert}
    (h : q ∈ andThen result next) : ∃ db, result = .ok db ∧ q ∈ next db := by
  cases result with
  | error e => cases h
  | ok db => exact ⟨db, rfl, h⟩

theorem length_setRows (festivalId : String) (days : List Day) :
    (setRows festivalId days).length = (lineupSets days).length := by
  have hids := congrArg List.length
    (map_setRows (f := SetRow.id) (g := LineupSet.id) festivalId (fun _ _ _ => rfl) days)
  simpa using hids

/-- The statements that insert stages, days or sets bind as many values as there are rows of
that width. -/
theorem mem_insertStagesBatch (h : q ∈ insertStagesBatch (stageRows festivalId stages)) :
    q.Corresponds ∧ q.params.length = stages.length * 7 := by
  obtain ⟨hcorresponds, hparams⟩ := mem_multiInsert h
  refine ⟨hcorresponds, ?_⟩
  rw [hparams, length_flatten_of_width (w := 7)]
  · simp [stageRows]
  · simp [stageValues]

theorem mem_insertDaysBatch (h : q ∈ insertDaysBatch (dayRows festivalId days)) :
    q.Corresponds ∧ q.params.length = days.length * 4 := by
  obtain ⟨hcorresponds, hparams⟩ := mem_multiInsert h
  refine ⟨hcorresponds, ?_⟩
  rw [hparams, length_flatten_of_width (w := 4)]
  · simp [dayRows]
  · simp [dayValues]

theorem mem_insertSetsBatch (h : q ∈ insertSetsBatch (setRows festivalId days)) :
    q.Corresponds ∧ q.params.length = (lineupSets days).length * 10 := by
  obtain ⟨hcorresponds, hparams⟩ := mem_multiInsert h
  refine ⟨hcorresponds, ?_⟩
  rw [hparams, length_flatten_of_width (w := 10)]
  · rw [length_map, length_setRows]
  · simp [setValues]

/-- Where the festival has no sets, nothing is restored. -/
theorem mem_replaceChildInserts (hnone : ∀ x ∈ db.sets, x.festivalId ≠ festivalId)
    (h : q ∈ replaceChildInserts db festivalId (collectFestivalChildren festivalId days)) :
    q ∈ insertDaysBatch (dayRows festivalId days) ∨
      q ∈ insertSetsBatch (setRows festivalId days) := by
  have hset := Db.isSetOf_eq_false hnone
  have hpicks : db.selectPicks festivalId = [] := by
    simp [Db.selectPicks, hset]
  have hratings : db.selectRatings festivalId = [] := by
    rw [Db.selectRatings, filterMap_eq_nil_iff]
    intro r _
    rw [find?_eq_none.mpr (by simpa using fun x hx hf => absurd hf (hnone x hx))]
    rfl
  rw [replaceChildInserts, hpicks, hratings] at h
  obtain ⟨_, -, h⟩ := mem_andThen h
  rcases mem_append.mp h with h | h
  · exact .inl h
  · obtain ⟨_, -, h⟩ := mem_andThen h
    rcases mem_append.mp h with h | h
    · exact .inr h
    · obtain ⟨_, -, h⟩ := mem_andThen h
      rcases mem_append.mp h with h | h
      · cases h
      · obtain ⟨_, -, h⟩ := mem_andThen h
        cases h

/-- The deletion of the stages takes the sets along, so that only stages, days and sets are
inserted. -/
theorem mem_lineupInserts (hexist : db.StagesExist)
    (h : q ∈ lineupInserts db festivalId stages days) :
    q.Corresponds ∧ (q.params.length = stages.length * 7 ∨ q.params.length = days.length * 4 ∨
      q.params.length = (lineupSets days).length * 10) := by
  obtain ⟨db₁, hdelete, h⟩ := mem_andThen h
  rcases mem_append.mp h with h | h
  · obtain ⟨hcorresponds, hlength⟩ := mem_insertStagesBatch h
    exact ⟨hcorresponds, .inl hlength⟩
  · obtain ⟨db₂, hinsert, h⟩ := mem_andThen h
    have hnone : ∀ x ∈ db₂.sets, x.festivalId ≠ festivalId := by
      rw [Db.deleteStages_eq hexist] at hdelete
      split at hdelete
      · cases hdelete
      · obtain rfl := Except.ok.inj hdelete
        obtain ⟨-, -, rfl⟩ := Db.insertStagesBatch_eq_ok.mp hinsert
        simp [Db.withoutSets]
    rcases mem_replaceChildInserts hnone h with h | h
    · obtain ⟨hcorresponds, hlength⟩ := mem_insertDaysBatch h
      exact ⟨hcorresponds, .inr (.inl hlength)⟩
    · obtain ⟨hcorresponds, hlength⟩ := mem_insertSetsBatch h
      exact ⟨hcorresponds, .inr (.inr hlength)⟩

end Festivals

theorem length_lineupSets_le {days : List Day} {n : ℕ} (h : ∀ d ∈ days, d.sets.length ≤ n) :
    (lineupSets days).length ≤ days.length * n := by
  induction days with
  | nil => simp [lineupSets]
  | cons d days ih =>
    obtain ⟨hd, hdays⟩ := forall_mem_cons.mp h
    have hrest := ih hdays
    rw [lineupSets, flatMap_cons, length_append, length_cons, Nat.add_one_mul]
    exact (Nat.add_le_add hd hrest).trans (Nat.le_of_eq (Nat.add_comm _ _))

/-- A festival within the configured limits is within that of the protocol. -/
theorem lineupInserts_fit {db : Db} {festivalId : String} {stages : List Stage} {days : List Day}
    (hexist : db.StagesExist) (hstages : stages.length ≤ 20) (hdays : days.length ≤ 10)
    (hsets : ∀ d ∈ days, d.sets.length ≤ 200) :
    ∀ q ∈ lineupInserts db festivalId stages days, q.Corresponds ∧ q.params.length ≤ maxParams := by
  intro q hq
  obtain ⟨hcorresponds, hlength⟩ := mem_lineupInserts hexist hq
  have hlineup := length_lineupSets_le hsets
  refine ⟨hcorresponds, ?_⟩
  unfold maxParams
  rcases hlength with h | h | h <;> omega

/-- The statements of an update of a festival that has stages and days. -/
theorem updateInserts_eq {now : ℕ} {db : Db} {festivalId : String} {fields : FestivalFields}
    {stages : List Stage} {days : List Day} (hstages : fields.stages = some stages)
    (hdays : fields.days = some days) :
    updateInserts now db festivalId fields =
      lineupInserts (db.updateFestival now festivalId fields) festivalId stages days := by
  simp only [updateInserts, lineupInserts, hstages, hdays]

/-- The statements of the route, whatever is submitted. -/
theorem putInserts_fit {env : Env} {now : ℕ} {db : Db} {festivalId : String}
    {body : FestivalInput} (hexist : db.StagesExist) :
    ∀ q ∈ putInserts {} env now db festivalId body, q.Corresponds ∧ q.params.length ≤ maxParams := by
  intro q hq
  unfold putInserts at hq
  split at hq
  · cases hq
  · split at hq
    · cases hq
    · next existing hfound =>
      rw [updateInserts_eq rfl rfl] at hq
      have hupdated : (db.updateFestival now festivalId
          (sanitizeFestivalPayload {} env body existing).fields).StagesExist := hexist
      refine lineupInserts_fit hupdated ?_ ?_ ?_ q hq
      · simp [sanitizeFestivalPayload]
      · simp [sanitizeFestivalPayload]
      · intro d hd
        obtain ⟨i, hi, rfl⟩ := mem_mapIdx.mp hd
        simp [sanitizeDay]

/-! ## Profiles -/

section Profiles

variable {now : ℕ} {profiles : List ProfileInput} {q : Insert}

theorem upsertProfiles_spec (now : ℕ) (profiles : List ProfileInput) :
    (upsertProfiles now profiles).Corresponds ∧
      (upsertProfiles now profiles).params.length = profiles.length * 9 := by
  have hwidth : ∀ row ∈ profiles.map (profileValues now), row.length = 9 := by
    simp [profileValues]
  have hparams : (upsertProfiles now profiles).params =
      (profiles.map (profileValues now)).flatten := flatMap_def ..
  refine ⟨corresponds_of_numbers ?_ hparams, ?_⟩
  · rw [numbersFrom_of_width hwidth]
    refine ext_getElem (by simp [upsertProfiles]) fun ri _ _ => ?_
    simp [upsertProfiles, range'_succ, Nat.add_comm 1, Nat.add_assoc]
  · rw [hparams, length_flatten_of_width hwidth, length_map]

theorem mem_batchInsert_attached {table column : String} {rows : List Attached}
    (h : q ∈ batchInsert table ["profile_id", "set_id", column] (rows.map attachedValues)) :
    q.Corresponds ∧ q.params.length = rows.length * 3 := by
  have hspec := mem_batchInsert (by simp [attachedValues]) h
  simpa using hspec

/-- The rows of one table are inserted in one statement. -/
theorem forall_batchInsert_attached {table column : String} {rows : List Attached} :
    (∀ q ∈ batchInsert table ["profile_id", "set_id", column] (rows.map attachedValues),
      q.params.length ≤ maxParams) ↔ rows.length ≤ 21845 := by
  have hbound : rows.length * 3 ≤ maxParams ↔ rows.length ≤ 21845 := by
    unfold maxParams
    omega
  rw [← hbound]
  by_cases hnil : rows = []
  · simp [hnil, batchInsert]
  · constructor
    · intro h
      obtain ⟨q, hq⟩ : ∃ q, q ∈ batchInsert table ["profile_id", "set_id", column]
          (rows.map attachedValues) := by
        simp [batchInsert, hnil]
      rw [← (mem_batchInsert_attached hq).2]
      exact h q hq
    · intro h q hq
      rw [(mem_batchInsert_attached hq).2]
      exact h

theorem mem_replaceAllInserts (h : q ∈ replaceAllInserts now profiles) : q.Corresponds := by
  unfold replaceAllInserts at h
  split at h
  · cases h
  · rcases mem_cons.mp h with rfl | h
    · exact (upsertProfiles_spec now profiles).1
    · rcases mem_append.mp h with h | h
      · exact (mem_batchInsert_attached h).1
      · exact (mem_batchInsert_attached h).1

/-- All of `replaceAll` fits exactly up to certain numbers of rows. -/
theorem replaceAllInserts_fit_iff :
    (∀ q ∈ replaceAllInserts now profiles, q.params.length ≤ maxParams) ↔
      profiles.length ≤ 7281 ∧ (allPickRows profiles).length ≤ 21845 ∧
        (allNoteRows profiles).length ≤ 21845 := by
  have hbound : profiles.length * 9 ≤ maxParams ↔ profiles.length ≤ 7281 := by
    unfold maxParams
    omega
  unfold replaceAllInserts
  by_cases hnil : profiles = []
  · simp [hnil, allPickRows, allNoteRows]
  · rw [if_neg hnil, forall_mem_cons, forall_mem_append, forall_batchInsert_attached,
      forall_batchInsert_attached, (upsertProfiles_spec now profiles).2, hbound]

end Profiles

/-! ## The limit of the protocol -/

/-- **No statement of an accepted update of a festival, or of a festival of `replaceAll` within
the configured limits, binds too many parameters; `replaceAll` of the profiles does from certain
numbers of rows on.**  The placeholders correspond to the parameters in all of them. -/
theorem inserts_fit :
    (∀ env now db festivalId body, db.StagesExist → ∀ q ∈ putInserts {} env now db festivalId body,
      q.Corresponds ∧ q.params.length ≤ maxParams) ∧
    (∀ db festivalId stages days, db.StagesExist → stages.length ≤ 20 → days.length ≤ 10 →
      (∀ d ∈ days, d.sets.length ≤ 200) → ∀ q ∈ lineupInserts db festivalId stages days,
        q.Corresponds ∧ q.params.length ≤ maxParams) ∧
    ∀ now profiles, (∀ q ∈ replaceAllInserts now profiles, q.Corresponds) ∧
      ((∀ q ∈ replaceAllInserts now profiles, q.params.length ≤ maxParams) ↔
        profiles.length ≤ 7281 ∧ (allPickRows profiles).length ≤ 21845 ∧
          (allNoteRows profiles).length ≤ 21845) :=
  ⟨fun _ _ _ _ _ => putInserts_fit, fun _ _ _ _ => lineupInserts_fit,
    fun _ _ => ⟨fun _ => mem_replaceAllInserts, replaceAllInserts_fit_iff⟩⟩

/-- On the stored festival, an update and `replaceAll` issue one statement for each table. -/
theorem inserts_fit_onePick :
    ((putInserts {} { normalizeNFC := id, toLowerCase := id, randomUUID := fun _ => "u" } 1
        { onePick with picks := [] } "f1" { name := some "Open Air" }).map
      (fun q => (q.table, q.params.length)) =
        [("festival_stages", 7), ("festival_days", 4), ("festival_sets", 20)]) ∧
    (∀ q ∈ putInserts {} { normalizeNFC := id, toLowerCase := id, randomUUID := fun _ => "u" } 1
        { onePick with picks := [] } "f1" { name := some "Open Air" },
      q.Corresponds ∧ q.params.length ≤ maxParams) ∧
    ∀ q ∈ lineupInserts onePick "f1" [] [], q.Corresponds ∧ q.params.length ≤ maxParams := by
  refine ⟨by decide, inserts_fit.1 _ _ _ _ _ (by decide), ?_⟩
  exact inserts_fit.2.1 _ _ _ _ (by decide) (by decide) (by decide) (by decide)

/-- The configured limits on profiles: `MAX_PROFILES_PER_FESTIVAL`, `MAX_PICKS`, `MAX_NOTES` and
`MAX_USERS`. -/
structure WithinLimits (profiles : List ProfileInput) : Prop where
  ids : Keyed.UniqueKeys ProfileInput.id profiles
  perFestival : ∀ festivalId, (profiles.filter (fun p => p.festivalId = festivalId)).length ≤ 100
  picks : ∀ p ∈ profiles, (orEmpty p.picks).entries.length ≤ 500
  notes : ∀ p ∈ profiles, (orEmpty p.notes).entries.length ≤ 500
  users : (profiles.filterMap ProfileInput.userId).dedup.length ≤ 2000

theorem append_toString_injective (text : String) :
    Function.Injective (fun n : ℕ => text ++ toString n) := by
  intro m n h
  have hlist := congrArg String.toList h
  simp only [String.toList_append, Nat.toString_eq_repr, Nat.toList_repr,
    append_cancel_left_eq] at hlist
  have hdigits := congrArg (fun cs => Nat.ofDigitChars 10 cs 0) hlist
  simpa [Nat.ofDigitChars_ten_toDigits] using hdigits

/-- Five hundred picks. -/
def fullPicks : Entries String where
  entries := (List.range 500).map (fun n => ("s" ++ toString n, "must"))
  unique := by
    rw [Keyed.UniqueKeys, map_map]
    exact nodup_range.map (append_toString_injective "s")

/-- A profile with them. -/
def fullProfile (n : ℕ) : ProfileInput :=
  { id := "p" ++ toString n, festivalId := "f1", userId := some ("u" ++ toString n), name := "Ana"
    picks := some fullPicks }

/-- **A hundred profiles with five hundred picks each**: their picks are one statement with
150000 parameters. -/
theorem full_festival_over_limit : ¬∀ (now : ℕ) (profiles : List ProfileInput),
    WithinLimits profiles → ∀ q ∈ replaceAllInserts now profiles, q.params.length ≤ maxParams := by
  intro h
  have hlimits : WithinLimits ((List.range 100).map fullProfile) := by
    constructor
    · rw [Keyed.UniqueKeys, List.map_map]
      exact List.nodup_range.map (append_toString_injective "p")
    · intro festivalId
      exact (List.length_filter_le _ _).trans (by simp)
    · intro p hp
      obtain ⟨n, -, rfl⟩ := List.mem_map.mp hp
      simp [fullProfile, orEmpty, fullPicks]
    · intro p hp
      obtain ⟨n, -, rfl⟩ := List.mem_map.mp hp
      simp [fullProfile, orEmpty, Entries.empty]
    · refine (List.dedup_sublist _).length_le.trans ((List.length_filterMap_le _ _).trans ?_)
      simp
  have hrows : (allPickRows ((List.range 100).map fullProfile)).length = 50000 := by
    simp [allPickRows, List.length_flatMap, attachedRows, fullProfile, orEmpty, fullPicks,
      Function.comp_def]
  have hfits := (replaceAllInserts_fit_iff.mp (h 0 _ hlimits)).2.1
  rw [hrows] at hfits
  exact absurd hfits (by decide)

end FestivalPlanner.Lineup.InsertStatements
