import FestivalPlanner.Lineup.FestivalChecks
import FestivalPlanner.Lineup.FestivalSchema

/-!
# The rows of a festival and its payload

What a payload becomes when it is cleaned and stored, and the rows of a festival as they are read.

* `StageRow.input`, `SetRow.input` — a row in a festival that is read;
* `cleanStages`, `cleanDays` — a payload that is cleaned: its ids, and the sets that it keeps;
* `Replaces` — the rows of a festival are replaced by those of a payload, and no others.
-/

namespace FestivalPlanner.Lineup

open List

variable {cfg : Config} {env : Env} {fmt : Formats} {db : Db}

/-! ## Rows -/

/-- A row of a stage in a festival. -/
def StageRow.input (st : StageRow) : StageInput :=
  { id := some st.id, name := st.name, color := st.color, latitude := st.latitude
    longitude := st.longitude }

/-- A row of a set in a festival. -/
def SetRow.input (x : SetRow) : SetInput :=
  { id := some x.id, artists := some x.artists, artist := some x.artist, stageId := some x.stageId
    startTime := x.startTime, endTime := x.endTime, linkUrl := x.linkUrl }

def Stage.input (stage : Stage) : StageInput :=
  { id := some stage.id, name := stage.name, color := stage.color, latitude := stage.latitude
    longitude := stage.longitude }

/-- A set of a payload in a festival; an empty link is none. -/
def LineupSet.input (x : LineupSet) : SetInput :=
  { id := some x.id, artists := some x.artists, artist := some x.artist, stageId := some x.stageId
    startTime := x.startTime, endTime := x.endTime, linkUrl := x.linkUrl.filter (· ≠ "") }

/-! ## Tables -/

namespace Db

variable (db : Db)

def stagesOf (festivalId : String) : List StageRow :=
  db.stages.filter (fun st => st.festivalId = festivalId)

def daysOf (festivalId : String) : List DayRow := db.days.filter (fun d => d.festivalId = festivalId)

def setsOf (festivalId : String) (dayIndex : ℕ) : List SetRow :=
  db.sets.filter (fun x => x.festivalId = festivalId ∧ x.dayIndex = dayIndex)

end Db

/-! ## What cleaning leaves -/

/-- The stages of a clean payload, -/
def cleanStages (cfg : Config) (env : Env) (stages : List StageInput) : List Stage :=
  (stages.take cfg.maxStages).mapIdx (sanitizeStage env)

/-- and its days. -/
@[grind =] def cleanDays (cfg : Config) (env : Env) (b2bSep : String) (days : List DayInput) : List Day :=
  (days.take cfg.maxDays).mapIdx (sanitizeDay cfg env b2bSep)

theorem map_mapIdx_eq_filterMap {α β γ : Type} {f : ℕ → α → β} {g : β → γ} {h : α → Option γ}
    {l : List α} (hfg : ∀ i, ∀ a ∈ l, h a = some (g (f i a))) :
    (l.mapIdx f).map g = l.filterMap h := by
  induction l generalizing f with
  | nil => rfl
  | cons a l ih =>
    rw [mapIdx_cons, map_cons, filterMap_cons, hfg 0 a mem_cons_self]
    have htail := ih (f := fun i => f (i + 1)) fun i b hb => hfg (i + 1) b (mem_cons_of_mem _ hb)
    rw [htail]

theorem flatMap_mapIdx_eq {α β γ : Type} {f : ℕ → α → β} {g : β → List γ} {h : α → List γ}
    {l : List α} (hfg : ∀ i, ∀ a ∈ l, g (f i a) = h a) : (l.mapIdx f).flatMap g = l.flatMap h := by
  induction l generalizing f with
  | nil => rfl
  | cons a l ih =>
    rw [mapIdx_cons, flatMap_cons, flatMap_cons, hfg 0 a mem_cons_self]
    have htail := ih (f := fun i => f (i + 1)) fun i b hb => hfg (i + 1) b (mem_cons_of_mem _ hb)
    rw [htail]

theorem sanitizeStage_id {stage : StageInput} (h : (sanitizeIdentifier stage.id).isSome = true)
    (i : ℕ) : sanitizeIdentifier stage.id = some (sanitizeStage env i stage).id := by
  obtain ⟨id, hid⟩ := Option.isSome_iff_exists.mp h
  simp [sanitizeStage, hid]

theorem sanitizeSet_id {x : SetInput} (h : (sanitizeIdentifier x.id).isSome = true)
    (b2bSep : String) (i j : ℕ) :
    sanitizeIdentifier x.id = some (sanitizeSet env b2bSep i j x).id := by
  obtain ⟨id, hid⟩ := Option.isSome_iff_exists.mp h
  simp [sanitizeSet, hid]

theorem map_id_cleanStages {stages : List StageInput} (hlength : stages.length ≤ cfg.maxStages)
    (h : ∀ stage ∈ stages, StageValid env stage) :
    (cleanStages cfg env stages).map Stage.id = stageIdsOf stages := by
  rw [cleanStages, take_of_length_le hlength]
  exact map_mapIdx_eq_filterMap fun i stage hstage => sanitizeStage_id (h stage hstage).id i

theorem map_id_cleanDays {b2bSep : String} {days : List DayInput}
    (hlength : days.length ≤ cfg.maxDays)
    (hsize : ∀ day ∈ days, day.sets.length ≤ cfg.maxSetsPerDay)
    (hids : ∀ day ∈ days, ∀ x ∈ day.sets, (sanitizeIdentifier x.id).isSome = true) :
    (lineupSets (cleanDays cfg env b2bSep days)).map LineupSet.id =
      days.flatMap (fun day => setIdsOf day.sets) := by
  rw [lineupSets, map_flatMap, cleanDays, take_of_length_le hlength]
  refine flatMap_mapIdx_eq fun i day hday => ?_
  rw [sanitizeDay, take_of_length_le (hsize day hday)]
  exact map_mapIdx_eq_filterMap fun j x hx => sanitizeSet_id (hids day hday x hx) b2bSep i j

theorem mem_lineupSets_cleanDays {b2bSep : String} {days : List DayInput} {x : LineupSet}
    (h : x ∈ lineupSets (cleanDays cfg env b2bSep days)) :
    ∃ day ∈ days, ∃ y ∈ day.sets, ∃ i j, x = sanitizeSet env b2bSep i j y := by
  obtain ⟨day, hday, hx⟩ := mem_flatMap.mp h
  obtain ⟨i, hi, rfl⟩ := mem_mapIdx.mp hday
  obtain ⟨j, hj, rfl⟩ := mem_mapIdx.mp hx
  exact ⟨_, mem_of_mem_take (getElem_mem hi), _,
    mem_of_mem_take (getElem_mem hj), i, j, rfl⟩

/-! ## A festival whose rows are replaced -/

theorem filter_replaced {α : Type} {festival : α → String} {festivalId other : String}
    {old new : List α} (hnew : ∀ r ∈ new, festival r = festivalId) :
    (old.filter (fun r => festival r ≠ festivalId) ++ new).filter (fun r => festival r = other) =
      if other = festivalId then new else old.filter (fun r => festival r = other) := by
  rw [filter_append, filter_filter]
  by_cases h : other = festivalId
  · subst h
    have hall : new.filter (fun r => festival r = other) = new := by
      simpa [filter_eq_self] using hnew
    have hnone : old.filter (fun r => decide (festival r = other) && decide (festival r ≠ other)) =
        [] := by
      simp
    rw [hall, hnone, if_pos rfl, nil_append]
  · have hnone : new.filter (fun r => festival r = other) = [] := by
      rw [filter_eq_nil_iff]
      intro r hr
      simpa [hnew r hr] using Ne.symm h
    have hsame : old.filter (fun r => decide (festival r = other) && decide (festival r ≠ festivalId))
        = old.filter (fun r => festival r = other) := by
      refine filter_congr fun r _ => ?_
      by_cases hr : festival r = other <;> simp [hr, h]
    rw [hnone, hsame, if_neg h, append_nil]

theorem flatten_mapIdx_ite {α β : Type} (g : α → List β) (l : List α) (i : ℕ) :
    (l.mapIdx (fun k a => if k = i then g a else [])).flatten = (l[i]?).elim [] g := by
  induction l generalizing i with
  | nil => rfl
  | cons a l ih =>
    rw [mapIdx_cons, flatten_cons]
    cases i with
    | zero =>
      have hnil : (l.mapIdx (fun k a => if k + 1 = 0 then g a else [])).flatten = [] := by
        simp [flatten_eq_nil_iff]
      rw [hnil]
      simp
    | succ i =>
      have htail := ih i
      simp only [Nat.add_right_cancel_iff, htail]
      simp

/-- The rows of one day. -/
theorem filter_setRows (festivalId : String) (days : List Day) (i : ℕ) :
    (setRows festivalId days).filter (fun x => x.festivalId = festivalId ∧ x.dayIndex = i) =
      (days[i]?).elim [] (fun day => day.sets.mapIdx (setRow festivalId i)) := by
  rw [setRows, filter_flatten, ← flatten_mapIdx_ite]
  congr 1
  refine ext_getElem (by simp) fun k hk hk' => ?_
  simp only [getElem_map, getElem_mapIdx]
  by_cases hki : k = i
  · subst hki
    rw [if_pos rfl, filter_eq_self]
    intro x hx
    obtain ⟨j, hj, rfl⟩ := mem_mapIdx.mp hx
    simp [setRow]
  · rw [if_neg hki, filter_eq_nil_iff]
    intro x hx
    obtain ⟨j, hj, rfl⟩ := mem_mapIdx.mp hx
    simp [setRow, hki]

theorem map_input_stageRows (festivalId : String) (stages : List Stage) :
    (stageRows festivalId stages).map StageRow.input = stages.map Stage.input :=
  map_mapIdx (g := StageRow.input) (h := Stage.input) (fun _ _ => rfl) stages

theorem map_input_setRow (festivalId : String) (i : ℕ) (sets : List LineupSet) :
    (sets.mapIdx (setRow festivalId i)).map SetRow.input = sets.map LineupSet.input :=
  map_mapIdx (g := SetRow.input) (h := LineupSet.input) (fun _ _ => rfl) sets

/-- The rows of a festival are replaced by those of a payload. -/
structure Replaces (db : Db) (festivalId : String) (stages : List Stage) (days : List Day)
    (db' : Db) : Prop where
  stages_eq : db'.stages =
    db.stages.filter (fun st => st.festivalId ≠ festivalId) ++ stageRows festivalId stages
  days_eq : db'.days = db.days.filter (fun d => d.festivalId ≠ festivalId) ++ dayRows festivalId days
  sets_eq : db'.sets = db.sets.filter (fun x => x.festivalId ≠ festivalId) ++ setRows festivalId days
  picks_eq : db'.picks = db.picks
  notes_eq : db'.notes = db.notes

namespace Replaces

variable {db' : Db} {festivalId : String} {stages : List Stage} {days : List Day}

theorem stagesOf_eq (h : Replaces db festivalId stages days db') (other : String) :
    db'.stagesOf other =
      if other = festivalId then stageRows festivalId stages else db.stagesOf other := by
  rw [Db.stagesOf, h.stages_eq]
  exact filter_replaced fun r hr => (mem_stageRows hr).1

theorem daysOf_eq (h : Replaces db festivalId stages days db') (other : String) :
    db'.daysOf other = if other = festivalId then dayRows festivalId days else db.daysOf other := by
  rw [Db.daysOf, h.days_eq]
  refine filter_replaced fun r hr => ?_
  obtain ⟨i, hi, rfl⟩ := mem_mapIdx.mp hr
  rfl

theorem setsOf_self (h : Replaces db festivalId stages days db') (i : ℕ) :
    db'.setsOf festivalId i =
      (days[i]?).elim [] (fun day => day.sets.mapIdx (setRow festivalId i)) := by
  have hnone : (db.sets.filter (fun x => x.festivalId ≠ festivalId)).filter
      (fun x => x.festivalId = festivalId ∧ x.dayIndex = i) = [] := by
    rw [filter_eq_nil_iff]
    intro x hx
    have hne := (mem_filter.mp hx).2
    simp only [decide_eq_true_eq] at hne
    simp [hne]
  rw [Db.setsOf, h.sets_eq, filter_append, filter_setRows, hnone, nil_append]

end Replaces

end FestivalPlanner.Lineup
