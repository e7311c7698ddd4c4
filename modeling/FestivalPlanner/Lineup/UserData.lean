import FestivalPlanner.Lineup.FestivalRoute
import Mathlib.Data.List.Perm.Basic

/-!
# User data across an edit of the festival

What the users attached to the sets of a festival, before and after `PUT /festivals/:id`.

* `Accepted` — the body passes the checks and the festival is there;
* `KeepsUserData` — the request does not fail because of ratings, picks and notes, and those
  of a submitted set are there afterwards, each once;
* `festivalUpdate_keeps_iff` — exactly when it is so: the route always submits stages, whose
  deletion takes the sets along before anything is saved.
-/

namespace FestivalPlanner.Lineup

open List

variable (cfg : Config) (env : Env) (now : ℕ) (db : Db) (festivalId : String)
  (body : FestivalInput)

/-! ## The property -/

/-- The body passes the checks of the route, and the festival is there. -/
structure Accepted : Prop where
  valid : validateFestival cfg env body = []
  found : (db.getFestivalById festivalId).isSome = true

/-- The stages and days that the route stores; those that are not given are the stored ones. -/
def submitted : Option NextFestival :=
  (db.getFestivalById festivalId).map (sanitizeFestivalPayload cfg env body)

/-- The ids of the sets in the submitted line-up. -/
def submittedSetIds : List String :=
  (submitted cfg env db festivalId body).elim []
    (fun next => (lineupSets next.days).map LineupSet.id)

/-- The tables without anything that users attached to sets. -/
def Db.withoutUserRows : Db := { db with picks := [], notes := [], ratings := [] }

/-- If the request fails, it also fails without ratings, picks and notes; and the ratings,
picks and notes of the submitted sets are the same before and after. -/
structure KeepsUserData : Prop where
  fails : (putFestival cfg env now db festivalId body).1.failed = true →
    (putFestival cfg env now db.withoutUserRows festivalId body).1.failed = true
  ratings : ((putFestival cfg env now db festivalId body).2.ratings.filter
      (fun r => r.setId ∈ submittedSetIds cfg env db festivalId body)).Perm
    (db.ratings.filter (fun r => r.setId ∈ submittedSetIds cfg env db festivalId body))
  picks : ((putFestival cfg env now db festivalId body).2.picks.filter
      (fun p => p.setId ∈ submittedSetIds cfg env db festivalId body)).Perm
    (db.picks.filter (fun p => p.setId ∈ submittedSetIds cfg env db festivalId body))
  notes : ((putFestival cfg env now db festivalId body).2.notes.filter
      (fun n => n.setId ∈ submittedSetIds cfg env db festivalId body)).Perm
    (db.notes.filter (fun n => n.setId ∈ submittedSetIds cfg env db festivalId body))

/-- No pick and no note refers to a set of the festival, and no rating to one that is
submitted again. -/
structure NothingAttached : Prop where
  picks : ∀ p ∈ db.picks, db.isSetOf festivalId p.setId = false
  notes : ∀ n ∈ db.notes, db.isSetOf festivalId n.setId = false
  ratings : ∀ r ∈ db.ratings, r.setId ∈ submittedSetIds cfg env db festivalId body →
    db.isSetOf festivalId r.setId = false

/-! ## The response -/

variable {cfg env now db festivalId body}

theorem hasFestival_of_selectFestival {f : FestivalRow}
    (h : db.selectFestival festivalId = some f) : db.hasFestival festivalId = true := by
  have hmem := mem_of_find?_eq_some h
  have hid : f.id = festivalId ∧ f.deleted = false := by simpa using find?_some h
  exact any_eq_true.mpr ⟨f, hmem, by simpa using hid.1⟩

/-- The updated festival is found afterwards. -/
theorem selectFestival_updateFestival {fields : FestivalFields} {f : FestivalRow}
    (h : db.selectFestival festivalId = some f) :
    ((db.updateFestival now festivalId fields).selectFestival festivalId).isSome = true := by
  have hmem := mem_of_find?_eq_some h
  have hf : f.id = festivalId ∧ f.deleted = false := by simpa using find?_some h
  unfold Db.selectFestival Db.updateFestival
  rw [find?_isSome]
  exact ⟨_, mem_map_of_mem hmem, by simp [hf]⟩

/-- The request succeeds when nothing refers to the sets of the festival and the line-up fits;
the ratings of these sets are gone then. -/
theorem putFestival_success (now : ℕ) (db : Db) {existing : Festival} (hexist : db.StagesExist)
    (hvalid : validateFestival cfg env body = [])
    (hfound : db.getFestivalById festivalId = some existing)
    (hpicked : db.pickedOrNoted festivalId = false)
    (hfits : Fits db festivalId (sanitizeFestivalPayload cfg env body existing).stages
      (sanitizeFestivalPayload cfg env body existing).days) :
    (putFestival cfg env now db festivalId body).1.failed = false ∧
      (putFestival cfg env now db festivalId body).2.picks = db.picks ∧
      (putFestival cfg env now db festivalId body).2.notes = db.notes ∧
      (putFestival cfg env now db festivalId body).2.ratings =
        db.ratings.filter (fun r => !db.isSetOf festivalId r.setId) := by
  obtain ⟨f, hf, -⟩ := Option.map_eq_some_iff.mp hfound
  set next := sanitizeFestivalPayload cfg env body existing with hnext
  obtain ⟨db', hupdate, hfestivals, hpicks, hnotes, hratings⟩ : ∃ db',
      db.update now festivalId next.fields = .ok db' ∧
      db'.festivals = (db.updateFestival now festivalId next.fields).festivals ∧
      db'.picks = db.picks ∧ db'.notes = db.notes ∧
      db'.ratings = db.ratings.filter (fun r => !db.isSetOf festivalId r.setId) :=
    ⟨_, (Db.update_eq_ok hexist (hasFestival_of_selectFestival hf) rfl rfl).mpr
      ⟨hpicked, hfits, rfl⟩, rfl, rfl, rfl, rfl⟩
  obtain ⟨g, hg⟩ := Option.isSome_iff_exists.mp
    (@selectFestival_updateFestival now db festivalId next.fields f hf)
  have hselect : db'.selectFestival festivalId = some g := by
    rw [Db.selectFestival, hfestivals]
    exact hg
  unfold putFestival
  simp only [hvalid, hfound, ← hnext, hupdate, hselect]
  exact ⟨rfl, hpicks, hnotes, hratings⟩

/-- Otherwise it fails, and leaves the tables alone. -/
theorem putFestival_failure (now : ℕ) (db : Db) {existing : Festival} (hexist : db.StagesExist)
    (hvalid : validateFestival cfg env body = [])
    (hfound : db.getFestivalById festivalId = some existing)
    (h : ¬(db.pickedOrNoted festivalId = false ∧
      Fits db festivalId (sanitizeFestivalPayload cfg env body existing).stages
        (sanitizeFestivalPayload cfg env body existing).days)) :
    (putFestival cfg env now db festivalId body).1.failed = true ∧
      (putFestival cfg env now db festivalId body).2 = db := by
  obtain ⟨f, hf, -⟩ := Option.map_eq_some_iff.mp hfound
  unfold putFestival
  simp only [hvalid, hfound]
  cases hupdate : db.update now festivalId (sanitizeFestivalPayload cfg env body existing).fields with
  | error e => exact ⟨rfl, rfl⟩
  | ok db' =>
    obtain ⟨hpicked, hfits, -⟩ :=
      (Db.update_eq_ok hexist (hasFestival_of_selectFestival hf) rfl rfl).mp hupdate
    exact absurd ⟨hpicked, hfits⟩ h

theorem pickedOrNoted_eq_false_iff : db.pickedOrNoted festivalId = false ↔
    (∀ p ∈ db.picks, db.isSetOf festivalId p.setId = false) ∧
      ∀ n ∈ db.notes, db.isSetOf festivalId n.setId = false := by
  simp [Db.pickedOrNoted]

theorem fits_withoutUserRows {stages : List Stage} {days : List Day} :
    Fits db.withoutUserRows festivalId stages days ↔ Fits db festivalId stages days :=
  ⟨fun h => ⟨h.stageIds, h.setIds, h.setIds_free, h.setStages⟩,
    fun h => ⟨h.stageIds, h.setIds, h.setIds_free, h.setStages⟩⟩

/-! ## Exactly when user data is kept -/

/-- **An edit of a festival keeps the user data exactly when** the line-up cannot be stored
anyway, or no pick and no note refers to a set of the festival and no rating to one that is
submitted again. -/
theorem festivalUpdate_keeps_iff (hexist : db.StagesExist)
    (haccepted : Accepted cfg env db festivalId body) :
    KeepsUserData cfg env now db festivalId body ↔
      ((submitted cfg env db festivalId body).elim False
          (fun next => Fits db festivalId next.stages next.days) →
        NothingAttached cfg env db festivalId body) := by
  obtain ⟨existing, hfound⟩ := Option.isSome_iff_exists.mp haccepted.found
  have hsubmitted : submitted cfg env db festivalId body =
      some (sanitizeFestivalPayload cfg env body existing) := by
    simp [submitted, hfound]
  rw [hsubmitted, Option.elim_some]
  set next := sanitizeFestivalPayload cfg env body existing with hnext
  -- without user rows nothing else changes
  have hfound' : db.withoutUserRows.getFestivalById festivalId = some existing := hfound
  constructor
  · intro hkeeps hfits
    have hwithout := putFestival_success now db.withoutUserRows hexist
      haccepted.valid hfound' rfl (fits_withoutUserRows.mpr hfits)
    have hpicked : db.pickedOrNoted festivalId = false := by
      by_contra hpicked
      have hfailed := hkeeps.fails (putFestival_failure now db hexist haccepted.valid hfound
        (fun h => hpicked h.1)).1
      rw [hwithout.1] at hfailed
      cases hfailed
    obtain ⟨hpicks, hnotes⟩ := pickedOrNoted_eq_false_iff.mp hpicked
    refine ⟨hpicks, hnotes, fun r hr hsubmit => ?_⟩
    obtain ⟨-, -, -, hratings⟩ :=
      putFestival_success now db hexist haccepted.valid hfound hpicked hfits
    have hmem : r ∈ db.ratings.filter
        (fun r => r.setId ∈ submittedSetIds cfg env db festivalId body) :=
      List.mem_filter.mpr ⟨hr, by simpa using hsubmit⟩
    rw [← hkeeps.ratings.mem_iff, hratings] at hmem
    simpa using (List.mem_filter.mp (List.mem_filter.mp hmem).1).2
  · intro h
    by_cases hstored : db.pickedOrNoted festivalId = false ∧
        Fits db festivalId next.stages next.days
    · obtain ⟨hsuccess, hpicks, hnotes, hratings⟩ :=
        putFestival_success now db hexist haccepted.valid hfound hstored.1 hstored.2
      refine ⟨fun hfailed => ?_, ?_, by rw [hpicks], by rw [hnotes]⟩
      · rw [hsuccess] at hfailed
        cases hfailed
      · rw [hratings, List.filter_filter]
        refine List.Perm.of_eq (List.filter_congr fun r hr => ?_)
        by_cases hsubmit : r.setId ∈ submittedSetIds cfg env db festivalId body
        · simp [hsubmit, (h hstored.2).ratings r hr hsubmit]
        · simp [hsubmit]
    · obtain ⟨-, hsame⟩ := putFestival_failure now db hexist haccepted.valid hfound hstored
      refine ⟨fun _ => ?_, by rw [hsame], by rw [hsame], by rw [hsame]⟩
      refine (putFestival_failure now db.withoutUserRows hexist haccepted.valid hfound'
        (fun hboth => ?_)).1
      have hfits := fits_withoutUserRows.mp hboth.2
      exact hstored ⟨pickedOrNoted_eq_false_iff.mpr ⟨(h hfits).picks, (h hfits).notes⟩, hfits⟩

/-! ## A festival with one set -/

/-- Texts of one normal form, and ids that repeat the place they are made at. -/
def plainTexts : Env :=
  { normalizeNFC := id
    toLowerCase := fun s => String.ofList (s.toList.map Char.toLower)
    randomUUID := fun place => String.ofList (place.map (fun n => Char.ofNat (48 + n))) }

/-- Two festivals with one set each, and nothing attached. -/
def twoFestivals : Db :=
  { users := ["ana"]
    festivals := [⟨"f1", "Open Air", "Lake", some "b2b", none, none, none, none, 0, 0, false⟩,
      ⟨"f2", "Indoor", "Hall", some "b2b", none, none, none, none, 0, 0, false⟩]
    stages := [⟨"f1", "main", "Main", some "#ff0000", 0, none, none⟩,
      ⟨"f2", "hall", "Hall", some "#00ff00", 0, none, none⟩]
    days := [⟨"f1", 0, "Friday", "2026-09-04"⟩, ⟨"f2", 0, "Saturday", "2026-09-12"⟩]
    sets := [
      ⟨"s1", "f1", 0, "Nova", "main", some "20:00", some "21:00", 0, none,
        [{ name := "Nova", links := [] }]⟩,
      ⟨"s2", "f2", 0, "Echo", "hall", some "20:00", some "21:00", 0, none,
        [{ name := "Echo", links := [] }]⟩]
    profiles := [⟨"p1", "f1", some "ana", "Ana", .empty, .empty, .empty, 0, none, none, none, none⟩]
    picks := [], notes := [], ratings := [] }

/-- Ana has rated the set of one of the festivals. -/
def rated (setId : String) : Db :=
  { twoFestivals with ratings := [⟨"ana", setId, 5, "", 0, 0⟩] }

/-- Ana has picked the set. -/
def picked : Db := { twoFestivals with picks := [⟨"p1", "s1", "must"⟩] }

/-- Only the name is given. -/
def rename : FestivalInput := { name := some "Open Air 2026" }

theorem festivalUpdate_keeps_rename :
    Fits (rated "s2") "f1" [⟨"main", "Main", some "#ff0000", none, none⟩]
      [⟨"Friday", "2026-09-04",
        [⟨"s1", [{ name := "Nova", links := [] }], "Nova", "main", some "20:00", some "21:00",
          none⟩]⟩] ∧
    KeepsUserData {} plainTexts 1 (rated "s2") "f1" rename := by
  refine ⟨⟨by decide, by decide, by decide, by decide⟩, ?_⟩
  refine (festivalUpdate_keeps_iff ?_ ⟨by decide, by decide⟩).mpr fun _ => ?_
  · decide
  · exact ⟨by decide, by decide, by decide⟩

/-- **A new name makes the request fail when a set is picked, and loses the rating when one
is rated.** -/
theorem rename_loses_userData :
    (putFestival {} plainTexts 1 picked "f1" rename).1 =
        .error 500 "Failed to update festival" ∧
      (putFestival {} plainTexts 1 (rated "s1") "f1" rename).1.failed = false ∧
      (putFestival {} plainTexts 1 (rated "s1") "f1" rename).2.ratings = [] ∧
      Accepted {} plainTexts picked "f1" rename ∧
      ¬ KeepsUserData {} plainTexts 1 picked "f1" rename ∧
      Accepted {} plainTexts (rated "s1") "f1" rename ∧
      ¬ KeepsUserData {} plainTexts 1 (rated "s1") "f1" rename := by
  have hratings : (putFestival {} plainTexts 1 (rated "s1") "f1" rename).2.ratings = [] := by
    decide
  refine ⟨by decide, by decide, hratings, ⟨by decide, by decide⟩,
    fun hkeeps => ?_, ⟨by decide, by decide⟩, fun hkeeps => ?_⟩
  · exact absurd (hkeeps.fails (by decide)) (by decide)
  · have hsame := hkeeps.ratings
    rw [hratings] at hsame
    exact absurd hsame.length_eq (by decide)

end FestivalPlanner.Lineup
