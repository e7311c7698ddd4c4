import FestivalPlanner.Lineup.Database
import Mathlib.Data.Prod.Basic

/-!
# Updating a festival

`festivals.update` of `lib/db/stores/festivals.ts`: the columns that are given, the stages
when they are given, and the days with their sets when they are given, in one transaction.

* `collectFestivalChildren` — the rows of a line-up, with the ids of its sets and their
  identities by artist and start time;
* `replaceChildRows` — the days and sets are deleted and inserted again, picks are restored
  by set id and ratings by identity;
* `update` — the transaction;
* `deleteStages_eq`, `replaceChildRows_of_noSets` — what the deletion of the stages leaves
  for the rest.
-/

namespace FestivalPlanner.Lineup

open List Keyed

/-! ## What is submitted -/

/-- A stage as `update` takes it. -/
structure Stage where
  id : String
  name : String
  color : Option String
  latitude : Option ℚ
  longitude : Option ℚ
  deriving DecidableEq

/-- A set as `update` takes it. -/
structure LineupSet where
  id : String
  artists : List Artist
  artist : String
  stageId : String
  startTime : Option String
  endTime : Option String
  linkUrl : Option String
  deriving DecidableEq

/-- A day as `update` takes it. -/
structure Day where
  label : String
  date : String
  sets : List LineupSet
  deriving DecidableEq

/-- The fields of `update`; `none` where a field is not given. -/
structure FestivalFields where
  name : Option String := none
  location : Option String := none
  b2bSeparator : Option String := none
  latitude : Option (Option ℚ) := none
  longitude : Option (Option ℚ) := none
  timeZone : Option (Option String) := none
  mapConfig : Option (Option String) := none
  stages : Option (List Stage) := none
  days : Option (List Day) := none

/-- The sets of the days, in order. -/
@[grind =] def lineupSets (days : List Day) : List LineupSet := days.flatMap Day.sets

/-! ## Rows of a line-up -/

def stageRows (festivalId : String) (stages : List Stage) : List StageRow :=
  stages.mapIdx (fun sortOrder stage =>
    { festivalId := festivalId, id := stage.id, name := stage.name, color := stage.color,
      sortOrder := sortOrder, latitude := stage.latitude, longitude := stage.longitude })

def dayRows (festivalId : String) (days : List Day) : List DayRow :=
  days.mapIdx (fun dayIndex day =>
    { festivalId := festivalId, dayIndex := dayIndex, label := day.label, date := day.date })

/-- The row of a set; an empty link is none. -/
def setRow (festivalId : String) (dayIndex sortOrder : ℕ) (x : LineupSet) : SetRow :=
  { id := x.id, festivalId := festivalId, dayIndex := dayIndex, artist := x.artist,
    stageId := x.stageId, startTime := x.startTime, endTime := x.endTime,
    sortOrder := sortOrder, linkUrl := x.linkUrl.filter (fun url => url ≠ ""),
    artists := x.artists }

def setRows (festivalId : String) (days : List Day) : List SetRow :=
  (days.mapIdx (fun dayIndex day => day.sets.mapIdx (setRow festivalId dayIndex))).flatten

/-- The text that stands for a set: artist and start time. -/
def identity (artist : String) (startTime : Option String) : String :=
  artist ++ "|" ++ startTime.getD "null"

/-- The sets by identity; of two with the same identity the last one counts. -/
def setIdentityMap (days : List Day) : List (String × String) :=
  (lineupSets days).foldl
    (fun identities x => upsert Prod.fst (identity x.artist x.startTime, x.id) identities) []

/-- `collectFestivalChildren` -/
structure Children where
  dayRows : List DayRow
  setRows : List SetRow
  newSetIds : List String
  setIdentityMap : List (String × String)

def collectFestivalChildren (festivalId : String) (days : List Day) : Children :=
  { dayRows := dayRows festivalId days
    setRows := setRows festivalId days
    newSetIds := (lineupSets days).map LineupSet.id
    setIdentityMap := setIdentityMap days }

/-! ## The transaction -/

variable {festivalId : String} {stages : List Stage} {days : List Day} {db' : Db} {now : ℕ}
  {fields : FestivalFields}

namespace Db

variable (db : Db)

/-- The picks on the sets of a festival. -/
def selectPicks (festivalId : String) : List Attached :=
  db.picks.filter (fun p => db.isSetOf festivalId p.setId)

/-- The ratings of the sets of a festival, with the identities of the sets. -/
def selectRatings (festivalId : String) : List (RatingRow × String) :=
  db.ratings.filterMap (fun r =>
    (db.sets.find? (fun x => x.festivalId = festivalId ∧ x.id = r.setId)).map
      (fun x => (r, identity x.artist x.startTime)))

/-- The picks whose set is in the new line-up are inserted again. -/
def restorePicksBatch (pickRows : List Attached) (newSetIds : List String) : Except DbError Db :=
  let surviving := pickRows.filter (fun p => p.setId ∈ newSetIds)
  (inserted (some (Table.insertOrIgnore Attached.key db.picks surviving))
    (surviving.all db.refers)).map (fun picks => { db with picks })

/-- The ratings are inserted again for the sets with the same identity. -/
def restoreRatingsBatch (ratingRows : List (RatingRow × String))
    (setIdentityMap : List (String × String)) : Except DbError Db :=
  let mapped := ratingRows.filterMap (fun r =>
    match lookup Prod.fst r.2 setIdentityMap with
    | some (_, newSetId) => if newSetId = "" then none else some { r.1 with setId := newSetId }
    | none => none)
  (inserted (some (Table.insertOrIgnore RatingRow.key db.ratings mapped))
    (mapped.all (fun r => db.hasUser r.userId && db.hasSet r.setId))).map
    (fun ratings => { db with ratings })

/-- `replaceChildRows` -/
def replaceChildRows (festivalId : String) (children : Children) : Except DbError Db := do
  let existingPicks := db.selectPicks festivalId
  let existingRatings := db.selectRatings festivalId
  let db := db.deleteRatingsOf festivalId
  let db := db.deletePicksOf festivalId
  let db ← db.deleteSets festivalId
  let db := db.deleteDays festivalId
  let db ← db.insertDaysBatch children.dayRows
  let db ← db.insertSetsBatch children.setRows
  let db ← db.restorePicksBatch existingPicks children.newSetIds
  db.restoreRatingsBatch existingRatings children.setIdentityMap

/-- `UPDATE festivals SET … WHERE id = $1 AND deleted_at IS NULL` -/
def updateFestival (now : ℕ) (festivalId : String) (fields : FestivalFields) : Db :=
  { db with festivals := db.festivals.map (fun f =>
      if f.id = festivalId ∧ f.deleted = false then
        { f with
          name := fields.name.getD f.name
          location := fields.location.getD f.location
          b2bSeparator := fields.b2bSeparator.or f.b2bSeparator
          latitude := fields.latitude.getD f.latitude
          longitude := fields.longitude.getD f.longitude
          timeZone := fields.timeZone.getD f.timeZone
          mapConfig := fields.mapConfig.getD f.mapConfig
          updatedAt := now }
      else f) }

/-- The stages are deleted and inserted again. -/
def replaceStages (festivalId : String) (stages : List Stage) : Except DbError Db := do
  let db ← db.deleteStages festivalId
  db.insertStagesBatch (stageRows festivalId stages)

/-- `festivals.update`; on an error the transaction is rolled back. -/
def update (now : ℕ) (festivalId : String) (fields : FestivalFields) : Except DbError Db := do
  let db := db.updateFestival now festivalId fields
  let db ←
    match fields.stages with
    | none => pure db
    | some stages => db.replaceStages festivalId stages
  match fields.days with
  | none => pure db
  | some days => db.replaceChildRows festivalId (collectFestivalChildren festivalId days)

/-! ## What a deletion leaves -/

/-- Every set is on a stage of its festival, as the foreign key demands. -/
def StagesExist : Prop := ∀ x ∈ db.sets, db.hasStage x.festivalId x.stageId = true

instance : Decidable db.StagesExist := List.decidableBAll _ db.sets

/-- Does a pick or a note refer to a set of the festival? -/
def pickedOrNoted (festivalId : String) : Bool :=
  db.picks.any (fun p => db.isSetOf festivalId p.setId) ||
    db.notes.any (fun n => db.isSetOf festivalId n.setId)

/-- The tables without the sets of the festival and their ratings. -/
def withoutSets (festivalId : String) : Db :=
  { db with
    sets := db.sets.filter (fun x => x.festivalId ≠ festivalId)
    ratings := db.ratings.filter (fun r => !db.isSetOf festivalId r.setId) }

variable {db}

theorem isSetOf_iff {setId : String} : db.isSetOf festivalId setId = true ↔
    ∃ x ∈ db.sets, x.festivalId = festivalId ∧ x.id = setId := by
  simp [isSetOf]

theorem isSetOf_eq_false (h : ∀ x ∈ db.sets, x.festivalId ≠ festivalId) (setId : String) :
    db.isSetOf festivalId setId = false := by
  rw [Bool.eq_false_iff]
  intro hset
  obtain ⟨x, hx, hfestival, -⟩ := isSetOf_iff.mp hset
  exact h x hx hfestival

theorem removeSets_eq {gone : SetRow → Bool}
    (h : ∀ x ∈ db.sets, gone x = decide (x.festivalId = festivalId)) :
    db.removeSets gone =
      if db.pickedOrNoted festivalId then .error .foreignKeyViolation
      else .ok (db.withoutSets festivalId) := by
  have hfilter : db.sets.filter gone = db.sets.filter (fun x => x.festivalId = festivalId) :=
    filter_congr h
  have hids : ∀ setId, setId ∈ (db.sets.filter gone).map SetRow.id ↔
      db.isSetOf festivalId setId = true := by
    intro setId
    rw [hfilter, isSetOf_iff]
    simp [and_assoc]
  have hsets : db.sets.filter (fun x => !gone x) =
      db.sets.filter (fun x => x.festivalId ≠ festivalId) := by
    refine filter_congr fun x hx => ?_
    simp [h x hx]
  unfold removeSets pickedOrNoted withoutSets
  simp only [hids, hsets, Bool.decide_eq_true, Bool.or_eq_true, Bool.not_eq_true]
  simp only [← Bool.not_eq_true, decide_not, Bool.decide_eq_true]

theorem deleteSets_eq (festivalId : String) : db.deleteSets festivalId =
    if db.pickedOrNoted festivalId then .error .foreignKeyViolation
    else .ok (db.withoutSets festivalId) :=
  removeSets_eq (fun _ _ => rfl)

/-- The deletion of the stages deletes the sets. -/
theorem deleteStages_eq (h : db.StagesExist) (festivalId : String) : db.deleteStages festivalId =
    if db.pickedOrNoted festivalId then .error .foreignKeyViolation
    else .ok { db.withoutSets festivalId with
      stages := db.stages.filter (fun st => st.festivalId ≠ festivalId) } := by
  have hgone : ∀ x ∈ db.sets, (decide (x.festivalId = festivalId) &&
      db.hasStage festivalId x.stageId) = decide (x.festivalId = festivalId) := by
    intro x hx
    by_cases hfestival : x.festivalId = festivalId
    · have := h x hx
      rw [hfestival] at this
      simp [hfestival, this]
    · simp [hfestival]
  unfold deleteStages
  rw [removeSets_eq hgone]
  split <;> rfl

theorem withoutSets_of_noSets (h : ∀ x ∈ db.sets, x.festivalId ≠ festivalId) :
    db.withoutSets festivalId = db := by
  have hsets : db.sets.filter (fun x => x.festivalId ≠ festivalId) = db.sets := by
    simpa [filter_eq_self] using h
  have hratings : db.ratings.filter (fun r => !db.isSetOf festivalId r.setId) = db.ratings := by
    simp [isSetOf_eq_false h]
  rw [withoutSets, hsets, hratings]

/-- When the festival has no sets any more, nothing is saved and nothing is restored. -/
theorem replaceChildRows_of_noSets (h : ∀ x ∈ db.sets, x.festivalId ≠ festivalId)
    (children : Children) :
    db.replaceChildRows festivalId children =
      ((db.deleteDays festivalId).insertDaysBatch children.dayRows).bind
        (fun db => db.insertSetsBatch children.setRows) := by
  have hset := isSetOf_eq_false h
  have hpicks : db.selectPicks festivalId = [] := by
    simp [selectPicks, hset]
  have hratings : db.selectRatings festivalId = [] := by
    rw [selectRatings, filterMap_eq_nil_iff]
    intro r _
    rw [find?_eq_none.mpr (by simpa using fun x hx hf => absurd hf (h x hx))]
    rfl
  have hdelete : ((db.deleteRatingsOf festivalId).deletePicksOf festivalId) = db := by
    have hrows : db.ratings.filter (fun r => !db.isSetOf festivalId r.setId) = db.ratings := by
      simp [hset]
    have hkept : db.picks.filter (fun p => !db.isSetOf festivalId p.setId) = db.picks := by
      simp [hset]
    rw [deleteRatingsOf, hrows]
    show { db with picks := db.picks.filter (fun p => !db.isSetOf festivalId p.setId) } = db
    rw [hkept]
  have hnone : db.pickedOrNoted festivalId = false := by
    simp [pickedOrNoted, hset]
  have hrestore : ∀ db' : Db, (db'.restorePicksBatch [] children.newSetIds).bind
      (fun db' => db'.restoreRatingsBatch [] children.setIdentityMap) = .ok db' := by
    intro db'
    rfl
  unfold replaceChildRows
  simp only [hpicks, hratings, hdelete, deleteSets_eq, hnone, withoutSets_of_noSets h]
  cases hdays : (db.deleteDays festivalId).insertDaysBatch children.dayRows with
  | error e => simp [hdays, Bind.bind, Except.bind]
  | ok db₁ =>
    cases hsets : db₁.insertSetsBatch children.setRows with
    | error e => simp [hdays, hsets, Bind.bind, Except.bind]
    | ok db₂ =>
      have := hrestore db₂
      simpa [hdays, hsets, Bind.bind, Except.bind] using this

end Db

/-! ## Which line-ups fit the tables -/

theorem map_mapIdx {α β γ : Type} {f : ℕ → α → β} {g : β → γ} {h : α → γ}
    (hfg : ∀ i a, g (f i a) = h a) (l : List α) : (l.mapIdx f).map g = l.map h := by
  apply ext_getElem
  · simp
  · intro i _ _
    simp [hfg]

/-- What the rows of the sets say about the sets, place apart. -/
theorem map_setRows {γ : Type} {f : SetRow → γ} {g : LineupSet → γ} (festivalId : String)
    (hfg : ∀ i j x, f (setRow festivalId i j x) = g x) (days : List Day) :
    (setRows festivalId days).map f = (lineupSets days).map g := by
  rw [setRows, lineupSets, map_flatten, map_flatMap, flatMap_def]
  congr 1
  exact map_mapIdx (fun i day => map_mapIdx (fun j x => hfg i j x) day.sets) days

theorem uniqueKeys_stageRows :
    UniqueKeys StageRow.key (stageRows festivalId stages) ↔
      UniqueKeys Stage.id stages := by
  have hmap : (stageRows festivalId stages).map StageRow.key =
      (stages.map Stage.id).map (Prod.mk festivalId) := by
    rw [stageRows, map_map]
    apply map_mapIdx
    intro i stage
    rfl
  rw [UniqueKeys, hmap, nodup_map_iff (Prod.mk_right_injective festivalId)]
  exact Iff.rfl

theorem uniqueKeys_dayRows (festivalId : String) (days : List Day) :
    UniqueKeys DayRow.key (dayRows festivalId days) := by
  have hmap : ((dayRows festivalId days).map DayRow.key).map Prod.snd = List.range days.length := by
    apply ext_getElem
    · simp [dayRows]
    · intro i _ _
      simp [dayRows, DayRow.key]
  exact List.Nodup.of_map Prod.snd (hmap ▸ nodup_range)

theorem uniqueKeys_setRows :
    UniqueKeys SetRow.id (setRows festivalId days) ↔
      UniqueKeys LineupSet.id (lineupSets days) := by
  rw [UniqueKeys, map_setRows festivalId (fun _ _ _ => rfl) days]
  exact Iff.rfl

theorem mem_stageRows {st : StageRow} (h : st ∈ stageRows festivalId stages) :
    st.festivalId = festivalId ∧ ∃ stage ∈ stages, stage.id = st.id := by
  obtain ⟨i, hi, rfl⟩ := mem_mapIdx.mp h
  exact ⟨rfl, _, getElem_mem hi, rfl⟩

theorem exists_stageRow (festivalId : String) {stage : Stage} (h : stage ∈ stages) :
    ∃ st ∈ stageRows festivalId stages, st.festivalId = festivalId ∧ st.id = stage.id := by
  obtain ⟨i, hi, rfl⟩ := mem_iff_getElem.mp h
  exact ⟨_, mem_mapIdx.mpr ⟨i, hi, rfl⟩, rfl, rfl⟩

/-- The festival, id and stage of the rows of the sets are those of the sets. -/
theorem mem_setRows {r : SetRow} (h : r ∈ setRows festivalId days) :
    r.festivalId = festivalId ∧ ∃ x ∈ lineupSets days, x.id = r.id ∧ x.stageId = r.stageId := by
  have hmap := map_setRows (f := fun r : SetRow => (r.festivalId, r.id, r.stageId))
    (g := fun x : LineupSet => (festivalId, x.id, x.stageId)) festivalId (fun _ _ _ => rfl) days
  have hmem := mem_map_of_mem (f := fun r : SetRow => (r.festivalId, r.id, r.stageId)) h
  rw [hmap] at hmem
  obtain ⟨x, hx, heq⟩ := mem_map.mp hmem
  simp only [Prod.mk.injEq] at heq
  exact ⟨heq.1.symm, x, hx, heq.2.1, heq.2.2⟩

theorem exists_setRow (festivalId : String) {x : LineupSet} (h : x ∈ lineupSets days) :
    ∃ r ∈ setRows festivalId days,
      r.festivalId = festivalId ∧ r.id = x.id ∧ r.stageId = x.stageId := by
  have hmap := map_setRows (f := fun r : SetRow => (r.festivalId, r.id, r.stageId))
    (g := fun x : LineupSet => (festivalId, x.id, x.stageId)) festivalId (fun _ _ _ => rfl) days
  have hmem := mem_map_of_mem (f := fun x : LineupSet => (festivalId, x.id, x.stageId)) h
  rw [← hmap] at hmem
  obtain ⟨r, hr, heq⟩ := mem_map.mp hmem
  simp only [Prod.mk.injEq] at heq
  exact ⟨r, hr, heq.1, heq.2.1, heq.2.2⟩

/-- The line-up can be stored for the festival, as far as the line-up itself and the other
festivals go. -/
structure Fits (db : Db) (festivalId : String) (stages : List Stage) (days : List Day) :
    Prop where
  stageIds : UniqueKeys Stage.id stages
  setIds : UniqueKeys LineupSet.id (lineupSets days)
  setIds_free : ∀ x ∈ lineupSets days, ∀ y ∈ db.sets, y.id = x.id → y.festivalId = festivalId
  setStages : ∀ x ∈ lineupSets days, ∃ stage ∈ stages, stage.id = x.stageId

namespace Db

variable {db : Db}

theorem replaceStages_eq_ok (h : db.StagesExist) : db.replaceStages festivalId stages = .ok db' ↔
      db.pickedOrNoted festivalId = false ∧ UniqueKeys Stage.id stages ∧
      (stages ≠ [] → db.hasFestival festivalId = true) ∧
      db' = { db.withoutSets festivalId with
        stages := db.stages.filter (fun st => st.festivalId ≠ festivalId) ++
          stageRows festivalId stages } := by
  unfold replaceStages
  rw [deleteStages_eq h]
  cases hpicked : db.pickedOrNoted festivalId with
  | true => simp [Bind.bind, Except.bind]
  | false =>
    simp only [Bool.false_eq_true, if_false, Bind.bind, Except.bind, insertStagesBatch_eq_ok,
      uniqueKeys_stageRows, true_and]
    constructor
    · rintro ⟨⟨hunique, -⟩, hfestival, rfl⟩
      refine ⟨hunique, fun hne => ?_, rfl⟩
      obtain ⟨stage, hstage⟩ := exists_mem_of_ne_nil _ hne
      obtain ⟨st, hst, hfid, -⟩ := exists_stageRow festivalId hstage
      have := hfestival st hst
      rwa [hfid] at this
    · rintro ⟨hunique, hfestival, rfl⟩
      refine ⟨⟨hunique, fun st hst x hx heq => ?_⟩, fun st hst => ?_, rfl⟩
      · have hne := (mem_filter.mp hx).2
        simp only [StageRow.key, Prod.mk.injEq, (mem_stageRows hst).1] at heq
        simp [heq.1] at hne
      · obtain ⟨hfid, stage, hstage, -⟩ := mem_stageRows hst
        rw [hfid]
        exact hfestival (ne_nil_of_mem hstage)

/-- When the days and sets of a line-up can be inserted. -/
theorem insertLineup_eq_ok (hfestival : db.hasFestival festivalId = true) :
    ((db.deleteDays festivalId).insertDaysBatch (dayRows festivalId days)).bind
        (fun db => db.insertSetsBatch (setRows festivalId days)) = .ok db' ↔
      UniqueKeys LineupSet.id (lineupSets days) ∧
      (∀ x ∈ lineupSets days, ∀ y ∈ db.sets, y.id ≠ x.id) ∧
      (∀ x ∈ lineupSets days, db.hasStage festivalId x.stageId = true) ∧
      db' = { db with
        days := db.days.filter (fun d => d.festivalId ≠ festivalId) ++ dayRows festivalId days
        sets := db.sets ++ setRows festivalId days } := by
  have hdays : (db.deleteDays festivalId).insertDaysBatch (dayRows festivalId days) =
      .ok { db with
        days := db.days.filter (fun d => d.festivalId ≠ festivalId) ++ dayRows festivalId days } := by
    refine insertDaysBatch_eq_ok.mpr ⟨⟨uniqueKeys_dayRows festivalId days, ?_⟩, ?_, rfl⟩
    · intro r hr x hx heq
      obtain ⟨i, hi, rfl⟩ := mem_mapIdx.mp hr
      have hne := (mem_filter.mp hx).2
      simp only [DayRow.key, Prod.mk.injEq] at heq
      simp [heq.1] at hne
    · intro r hr
      obtain ⟨i, hi, rfl⟩ := mem_mapIdx.mp hr
      exact hfestival
  rw [hdays]
  simp only [Except.bind, insertSetsBatch_eq_ok, uniqueKeys_setRows]
  constructor
  · rintro ⟨⟨hunique, hnew⟩, hstage, rfl⟩
    refine ⟨hunique, fun x hx y hy heq => ?_, fun x hx => ?_, rfl⟩
    · obtain ⟨r, hr, -, hid, -⟩ := exists_setRow festivalId hx
      exact hnew r hr y hy (heq.trans hid.symm)
    · obtain ⟨r, hr, hfid, -, hst⟩ := exists_setRow festivalId hx
      have := hstage r hr
      rwa [hfid, hst] at this
  · rintro ⟨hunique, hnew, hstage, rfl⟩
    refine ⟨⟨hunique, fun r hr y hy heq => ?_⟩, fun r hr => ?_, rfl⟩
    · obtain ⟨-, x, hx, hid, -⟩ := mem_setRows hr
      exact hnew x hx y hy (heq.trans hid.symm)
    · obtain ⟨hfid, x, hx, -, hst⟩ := mem_setRows hr
      have := hstage x hx
      rwa [hst, ← hfid] at this

theorem hasFestival_updateFestival (other : String) :
    (db.updateFestival now festivalId fields).hasFestival other = db.hasFestival other := by
  unfold hasFestival updateFestival
  rw [any_map]
  congr 1
  funext f
  simp only [Function.comp]
  split <;> rfl

/-- **When an update with stages and days succeeds**, and what it leaves. -/
theorem update_eq_ok (h : db.StagesExist) (hfestival : db.hasFestival festivalId = true)
    (hstages : fields.stages = some stages) (hdays : fields.days = some days) :
    db.update now festivalId fields = .ok db' ↔
      db.pickedOrNoted festivalId = false ∧ Fits db festivalId stages days ∧
      db' = { db.updateFestival now festivalId fields with
        stages := db.stages.filter (fun st => st.festivalId ≠ festivalId) ++
          stageRows festivalId stages
        days := db.days.filter (fun d => d.festivalId ≠ festivalId) ++ dayRows festivalId days
        sets := db.sets.filter (fun x => x.festivalId ≠ festivalId) ++ setRows festivalId days
        ratings := db.ratings.filter (fun r => !db.isSetOf festivalId r.setId) } := by
  set updated := db.updateFestival now festivalId fields with hupdated
  have hexist : updated.StagesExist := h
  have hhas : updated.hasFestival festivalId = true := by
    rw [hupdated, hasFestival_updateFestival]
    exact hfestival
  have hupdate : db.update now festivalId fields =
      (updated.replaceStages festivalId stages).bind (fun db =>
        db.replaceChildRows festivalId (collectFestivalChildren festivalId days)) := by
    unfold update
    rw [hstages, hdays]
    rfl
  rw [hupdate]
  cases hreplaced : updated.replaceStages festivalId stages with
  | error e =>
    -- the stages could not be replaced, so that the sets are picked or the ids repeat
    simp only [Except.bind, reduceCtorEq, false_iff]
    rintro ⟨hpicked, hfits, -⟩
    have := (@replaceStages_eq_ok festivalId stages _ updated hexist).mpr
      ⟨hpicked, hfits.stageIds, fun _ => hhas, rfl⟩
    rw [hreplaced] at this
    cases this
  | ok db₁ =>
    obtain ⟨hpicked, hunique, -, rfl⟩ := (replaceStages_eq_ok hexist).mp hreplaced
    simp only [Except.bind]
    rw [replaceChildRows_of_noSets (by simp [withoutSets])]
    set replaced : Db := { updated.withoutSets festivalId with
      stages := updated.stages.filter (fun st => st.festivalId ≠ festivalId) ++
        stageRows festivalId stages } with hreplacedEq
    refine (@insertLineup_eq_ok festivalId days db' replaced hhas).trans ?_
    have hstage : ∀ x : LineupSet, replaced.hasStage festivalId x.stageId = true ↔
        ∃ stage ∈ stages, stage.id = x.stageId := by
      intro x
      simp only [hasStage, hreplacedEq, any_eq_true, decide_eq_true_eq, mem_append, mem_filter]
      constructor
      · rintro ⟨st, ⟨-, hne⟩ | hst, hfid, hid⟩
        · exact absurd hfid hne
        · obtain ⟨-, stage, hstage, hsame⟩ := mem_stageRows hst
          exact ⟨stage, hstage, hsame.trans hid⟩
      · rintro ⟨stage, hstage, hid⟩
        obtain ⟨st, hst, hfid, hsame⟩ := exists_stageRow festivalId hstage
        exact ⟨st, .inr hst, hfid, hsame.trans hid⟩
    have hfree : (∀ x ∈ lineupSets days, ∀ y ∈ (updated.withoutSets festivalId).sets,
          y.id ≠ x.id) ↔
        ∀ x ∈ lineupSets days, ∀ y ∈ db.sets, y.id = x.id → y.festivalId = festivalId := by
      refine forall₂_congr fun x _ => ⟨fun hnew y hy hid => ?_, fun hnew y hy hid => ?_⟩
      · by_contra hne
        exact hnew y (mem_filter.mpr ⟨hy, by simpa using hne⟩) hid
      · obtain ⟨hy, hne⟩ := mem_filter.mp hy
        simp [hnew y hy hid] at hne
    simp only [hstage]
    constructor
    · rintro ⟨hids, hnew, hon, rfl⟩
      exact ⟨hpicked, ⟨hunique, hids, hfree.mp hnew, hon⟩, rfl⟩
    · rintro ⟨-, hfits, rfl⟩
      exact ⟨hfits.setIds, hfree.mpr hfits.setIds_free, hfits.setStages, rfl⟩

end Db

end FestivalPlanner.Lineup
