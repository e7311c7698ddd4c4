import FestivalPlanner.Lib.Machine
import FestivalPlanner.Lineup.FestivalUpdate

/-!
# Profiles and their picks and notes

The writes of `lib/db/stores/profiles.ts`.  Picks and notes are stored twice, in JSON columns
of the profile and as rows of their own; reading a profile takes the rows, the overlap of a
crew takes the column.

* `createProfile`, `updateProfile`, `deleteProfile`, `deleteByUserId`, `replaceAll` — the
  writes of profiles, each in one transaction;
* `step` — the machine of these writes and the updates of festivals; a write that fails
  changes nothing;
* `getById`, `overlapPicks` — the two ways to read.
-/

namespace FestivalPlanner.Lineup

/-! ## What the writes are given -/

/-- A profile to create, or to replace all with; what is not given is empty. -/
structure ProfileInput where
  id : String
  festivalId : String
  userId : Option String
  name : String
  picks : Option (Entries String) := none
  notes : Option (Entries String) := none
  reminders : Option (Entries ℤ) := none
  createdAt : Option ℕ := none
  updatedAt : Option ℕ := none

/-- The fields of `update`; `none` where a field is not given. -/
structure ProfileFields where
  picks : Option (Entries String) := none
  notes : Option (Entries String) := none
  reminders : Option (Entries ℤ) := none
  userId : Option (Option String) := none
  name : Option String := none

/-- The rows of a profile for an object of picks or notes. -/
def attachedRows (profileId : String) (entries : Entries String) : List Attached :=
  entries.entries.map (fun e => ⟨profileId, e.1, e.2⟩)

/-- `profile.picks || {}` -/
def orEmpty {β : Type} (entries : Option (Entries β)) : Entries β := entries.getD .empty

namespace Db

variable (db : Db)

/-! ## Statements on the profiles -/

/-- Two profiles that `idx_festival_profiles_user_festival` does not allow side by side. -/
def sameOwner (p q : ProfileRow) : Bool :=
  decide (p.deletedAt = none ∧ q.deletedAt = none ∧ p.userId.isSome = true ∧
    p.userId = q.userId ∧ p.festivalId = q.festivalId ∧ p.id ≠ q.id)

/-- The profiles after an `INSERT` or an `UPDATE`, when the index and the references of the
changed rows allow it. -/
def writeProfiles (profiles : List ProfileRow) : Except DbError Db :=
  if profiles.any (fun p => profiles.any (sameOwner p)) then .error .uniqueViolation
  else if profiles.all (fun p => p ∈ db.profiles ∨
      (db.hasFestival p.festivalId && p.userId.all db.hasUser) = true) then
    .ok { db with profiles := profiles }
  else .error .foreignKeyViolation

/-- `INSERT INTO festival_profiles` -/
def insertProfile (p : ProfileRow) : Except DbError Db :=
  if db.hasProfile p.id then .error .uniqueViolation
  else db.writeProfiles (db.profiles ++ [p])

/-- `DELETE FROM festival_profile_picks WHERE profile_id = ANY($1)` -/
def deletePicksOfProfiles (profileIds : List String) : Db :=
  { db with picks := db.picks.filter (fun r => r.profileId ∉ profileIds) }

/-- `DELETE FROM festival_profile_notes WHERE profile_id = ANY($1)` -/
def deleteNotesOfProfiles (profileIds : List String) : Db :=
  { db with notes := db.notes.filter (fun r => r.profileId ∉ profileIds) }

/-- `UPDATE festival_profiles SET deleted_at = NOW(), …` for the live profiles that are
meant. -/
def softDelete (now : ℕ) (deletedBy reason : Option String) (meant : ProfileRow → Bool) : Db :=
  { db with profiles := db.profiles.map (fun p =>
      if meant p ∧ p.deletedAt = none then
        { p with
          deletedAt := some now, updatedAt := some now, deletedBy := deletedBy
          deletionReason := reason }
      else p) }

/-! ## The writes -/

/-- The row that `create` inserts. -/
def newProfile (now : ℕ) (p : ProfileInput) : ProfileRow :=
  { id := p.id, festivalId := p.festivalId, userId := p.userId.filter (· ≠ ""), name := p.name
    picksJson := orEmpty p.picks, notesJson := orEmpty p.notes
    remindersJson := orEmpty p.reminders, createdAt := p.createdAt.getD now, updatedAt := none
    deletedAt := none, deletedBy := none, deletionReason := none }

/-- `create` -/
def createProfile (now : ℕ) (p : ProfileInput) : Except DbError Db := do
  let db ← db.insertProfile (newProfile now p)
  let db ← db.insertPicks (attachedRows p.id (orEmpty p.picks))
  db.insertNotes (attachedRows p.id (orEmpty p.notes))

/-- The row after `update`. -/
def updatedProfile (now : ℕ) (fields : ProfileFields) (p : ProfileRow) : ProfileRow :=
  { p with
    picksJson := fields.picks.getD p.picksJson
    notesJson := fields.notes.getD p.notesJson
    remindersJson := fields.reminders.getD p.remindersJson
    userId := fields.userId.getD p.userId
    name := fields.name.getD p.name
    updatedAt := some now }

/-- The rows of the picks, when picks are given. -/
def updatePicks (profileId : String) : Option (Entries String) → Except DbError Db
  | none => .ok db
  | some picks => (db.deletePicksOfProfiles [profileId]).insertPicks (attachedRows profileId picks)

/-- The rows of the notes, when notes are given. -/
def updateNotes (profileId : String) : Option (Entries String) → Except DbError Db
  | none => .ok db
  | some notes => (db.deleteNotesOfProfiles [profileId]).insertNotes (attachedRows profileId notes)

/-- `update`: the row only when it is live, the picks and notes in any case. -/
def updateProfile (now : ℕ) (profileId : String) (fields : ProfileFields) :
    Except DbError Db := do
  let db ← db.writeProfiles (db.profiles.map (fun p =>
    if p.id = profileId ∧ p.deletedAt = none then updatedProfile now fields p else p))
  let db ← db.updatePicks profileId fields.picks
  db.updateNotes profileId fields.notes

/-- The live profile with this id. -/
def liveProfile (profileId : String) : Option ProfileRow :=
  db.profiles.find? (fun p => p.id = profileId ∧ p.deletedAt = none)

/-- `delete` -/
def deleteProfile (now : ℕ) (profileId : String) (deletedBy reason : Option String) : Db :=
  match db.liveProfile profileId with
  | none => db
  | some _ =>
      let db := db.softDelete now deletedBy reason (fun p => p.id = profileId)
      let db := db.deletePicksOfProfiles [profileId]
      db.deleteNotesOfProfiles [profileId]

/-- `deleteByUserId` -/
def deleteByUserId (now : ℕ) (userId : String) (deletedBy reason : Option String) : Db :=
  let profileIds := (db.profiles.filter (fun p =>
    p.userId = some userId ∧ p.deletedAt = none)).map ProfileRow.id
  if profileIds = [] then db
  else
    let db := db.softDelete now deletedBy reason (fun p => p.userId = some userId)
    let db := db.deletePicksOfProfiles profileIds
    db.deleteNotesOfProfiles profileIds

/-- The row that `replaceAll` leaves for a profile; what is not set stays. -/
def replacedProfile (now : ℕ) (p : ProfileInput) (old : Option ProfileRow) : ProfileRow :=
  { id := p.id, festivalId := p.festivalId, userId := p.userId.filter (· ≠ ""), name := p.name
    picksJson := orEmpty p.picks, notesJson := orEmpty p.notes
    remindersJson := orEmpty p.reminders, createdAt := p.createdAt.getD now
    updatedAt := some (p.updatedAt.getD (p.createdAt.getD now)), deletedAt := none
    deletedBy := old.bind ProfileRow.deletedBy
    deletionReason := old.bind ProfileRow.deletionReason }

/-- One row of `INSERT … ON CONFLICT(id) DO UPDATE`. -/
def upsertProfile (now : ℕ) (p : ProfileInput) : Except DbError Db :=
  db.writeProfiles (Keyed.upsert ProfileRow.id
    (replacedProfile now p (Keyed.lookup ProfileRow.id p.id db.profiles)) db.profiles)

/-- The rows one after the other. -/
def upsertProfiles (now : ℕ) : List ProfileInput → Db → Except DbError Db
  | [], db => .ok db
  | p :: ps, db => do
      let db ← db.upsertProfile now p
      upsertProfiles now ps db

/-- `replaceAll`: the other profiles are deleted, and these are written whether they were
deleted or not. -/
def replaceAll (now : ℕ) (nextProfiles : List ProfileInput) : Except DbError Db := do
  let profileIds := nextProfiles.map ProfileInput.id
  let db := { db with profiles := db.profiles.map (fun p =>
    if p.id ∉ profileIds ∧ p.deletedAt = none then
      { p with deletedAt := some now, updatedAt := some now }
    else p) }
  if nextProfiles = [] then pure db
  else if profileIds.Nodup then
    let db ← upsertProfiles now nextProfiles db
    let db := db.deletePicksOfProfiles profileIds
    let db := db.deleteNotesOfProfiles profileIds
    let db ← db.insertPicks (nextProfiles.flatMap (fun p => attachedRows p.id (orEmpty p.picks)))
    db.insertNotes (nextProfiles.flatMap (fun p => attachedRows p.id (orEmpty p.notes)))
  else .error .cardinalityViolation

/-! ## The two ways to read -/

/-- The picks of a profile as `PROFILE_SELECT` reads them. -/
def readPicks (profileId : String) : List (String × String) :=
  (db.picks.filter (fun r => r.profileId = profileId)).map (fun r => (r.setId, r.value))

/-- The picks of the live profiles of crew members, as `getCrewPickOverlap` reads them. -/
def overlapPicks (festivalId : String) (members : List String) : List (String × Entries String) :=
  db.profiles.filterMap (fun p =>
    match p.userId with
    | some userId =>
        if userId ∈ members ∧ p.festivalId = festivalId ∧ p.deletedAt = none then
          some (p.id, p.picksJson)
        else none
    | none => none)

end Db

/-! ## The machine -/

/-- A write of a profile, or an update of a festival. -/
inductive Action where
  | create (profile : ProfileInput)
  | update (profileId : String) (fields : ProfileFields)
  | delete (profileId : String) (deletedBy reason : Option String)
  | deleteByUserId (userId : String) (deletedBy reason : Option String)
  | replaceAll (profiles : List ProfileInput)
  | updateFestival (festivalId : String) (fields : FestivalFields)

/-- The transaction of an action. -/
def Db.write (db : Db) (now : ℕ) : Action → Except DbError Db
  | .create profile => db.createProfile now profile
  | .update profileId fields => db.updateProfile now profileId fields
  | .delete profileId deletedBy reason => .ok (db.deleteProfile now profileId deletedBy reason)
  | .deleteByUserId userId deletedBy reason => .ok (db.deleteByUserId now userId deletedBy reason)
  | .replaceAll profiles => db.replaceAll now profiles
  | .updateFestival festivalId fields => db.update now festivalId fields

/-- One action at a time; a transaction that fails is rolled back. -/
def step (db : Db) (a : ℕ × Action) : Option Db :=
  match db.write a.1 a.2 with
  | .ok db' => some db'
  | .error _ => some db

end FestivalPlanner.Lineup
