import FestivalPlanner.Lineup.Profiles

/-!
# The two representations of picks and notes agree

Every write of a profile changes the JSON columns and the rows together; the update of a
festival, in another store, changes rows only.

* `Agrees` — for every live profile, columns and rows say the same;
* `DualWrite` — the invariant: agreement and the constraints it rests on;
* `KeepsPicked` — an update of a festival with days and no stages submits every set that a
  live profile has picked;
* `dualWrite_agrees` — in every run whose updates of festivals are such, the two agree.
-/

namespace FestivalPlanner.Lineup

open List Keyed

/-! ## Agreement -/

/-- The entries are the rows of the profile. -/
def Describes (entries : Entries String) (profileId : String) (table : List Attached) : Prop :=
  ∀ e, e ∈ entries.entries ↔ ⟨profileId, e.1, e.2⟩ ∈ table

/-- For every live profile the JSON columns and the tables describe the same picks and
notes. -/
def Db.Agrees (db : Db) : Prop :=
  ∀ p ∈ db.profiles, p.deletedAt = none →
    Describes p.picksJson p.id db.picks ∧ Describes p.notesJson p.id db.notes

/-- The days can be stored with the stages that are there. -/
def Storable (db : Db) (festivalId : String) (days : List Day) : Prop :=
  UniqueKeys LineupSet.id (lineupSets days) ∧
    ∀ x ∈ lineupSets days, db.hasStage festivalId x.stageId = true ∧
      ∀ y ∈ db.sets, y.id = x.id → y.festivalId = festivalId

instance (db : Db) (festivalId : String) (days : List Day) :
    Decidable (Storable db festivalId days) :=
  inferInstanceAs (Decidable (_ ∧ _))

/-- An update of a festival that gives days but no stages: it fails because of a note or
because the days cannot be stored, or submits every set of the festival that a live profile
has picked. -/
def KeepsPicked (db : Db) (a : ℕ × Action) : Prop :=
  match a.2 with
  | .updateFestival festivalId fields =>
      match fields.stages, fields.days with
      | none, some days =>
          (∃ n ∈ db.notes, db.isSetOf festivalId n.setId = true) ∨
            ¬ Storable db festivalId days ∨
            ∀ p ∈ db.profiles, p.deletedAt = none → ∀ r ∈ db.picks, r.profileId = p.id →
              db.isSetOf festivalId r.setId = true → r.setId ∈ (lineupSets days).map LineupSet.id
      | _, _ => True
  | _ => True

instance (db : Db) (a : ℕ × Action) : Decidable (KeepsPicked db a) := by
  unfold KeepsPicked
  split
  · split <;> infer_instance
  · infer_instance

/-- Agreement, with the keys and references that the tables have. -/
structure DualWrite (db : Db) : Prop where
  agrees : db.Agrees
  profileIds : UniqueKeys ProfileRow.id db.profiles
  pickKeys : UniqueKeys Attached.key db.picks
  picks_refer : ∀ r ∈ db.picks, db.hasProfile r.profileId = true
  notes_refer : ∀ r ∈ db.notes, db.hasProfile r.profileId = true
  stagesExist : db.StagesExist

/-! ## Entries and rows -/

variable {profileId festivalId : String} {entries : Entries String} {table rows : List Attached}
  {profileIds : List String} {profiles : List ProfileRow} {nextProfiles : List ProfileInput}

variable {r : Attached} {column : ProfileRow → Entries String} {p : ProfileRow}
  {ids : List String} {days : List Day}

theorem mem_attachedRows :
    r ∈ attachedRows profileId entries ↔
      r.profileId = profileId ∧ (r.setId, r.value) ∈ entries.entries := by
  unfold attachedRows
  rw [mem_map]
  constructor
  · rintro ⟨e, he, rfl⟩
    exact ⟨rfl, he⟩
  · rintro ⟨rfl, he⟩
    exact ⟨_, he, rfl⟩

/-- Only the rows of the profile count. -/
theorem Describes.congr {table' : List Attached} (h : Describes entries profileId table)
    (hsame : ∀ r : Attached, r.profileId = profileId → (r ∈ table' ↔ r ∈ table)) :
    Describes entries profileId table' := by
  intro e
  rw [h e, hsame ⟨profileId, e.1, e.2⟩ rfl]

/-- The rows of some profiles are replaced. -/
@[grind =] def replacedRows (profileIds : List String) (table rows : List Attached) : List Attached :=
  table.filter (fun r => r.profileId ∉ profileIds) ++ rows

theorem describes_replacedRows (hid : profileId ∈ profileIds)
    (hrows : ∀ r : Attached, r.profileId = profileId →
      (r ∈ rows ↔ r ∈ attachedRows profileId entries)) :
    Describes entries profileId (replacedRows profileIds table rows) := by
  intro e
  rw [replacedRows, mem_append, hrows _ rfl, mem_attachedRows]
  simp [hid]

theorem Describes.replacedRows (h : Describes entries profileId table)
    (hid : profileId ∉ profileIds) (hrows : ∀ r ∈ rows, r.profileId ∈ profileIds) :
    Describes entries profileId (replacedRows profileIds table rows) := by
  refine h.congr fun r hr => ?_
  have hnew : r ∉ rows := fun hmem => hid (hr ▸ hrows r hmem)
  simp [Lineup.replacedRows, hnew, hr, hid]

theorem uniqueKeys_replacedRows (htable : UniqueKeys Attached.key table)
    (hrows : UniqueKeys Attached.key rows) (hids : ∀ r ∈ rows, r.profileId ∈ profileIds) :
    UniqueKeys Attached.key (replacedRows profileIds table rows) := by
  refine Table.uniqueKeys_insert (htable.filter _) (Table.insert_eq_some.mpr ⟨⟨hrows, ?_⟩, rfl⟩)
  intro r hr x hx heq
  have hx := (mem_filter.mp hx).2
  simp only [Attached.key, Prod.mk.injEq] at heq
  simp [heq.1, hids r hr] at hx

/-! ## Statements -/

namespace Db

variable {db db' : Db}

theorem writeProfiles_eq_ok (h : db.writeProfiles profiles = .ok db') :
    db' = { db with profiles := profiles } := by
  unfold writeProfiles at h
  split at h
  · cases h
  · split at h
    · exact (Except.ok.inj h).symm
    · cases h

theorem hasProfile_iff : db.hasProfile profileId = true ↔ ∃ p ∈ db.profiles, p.id = profileId := by
  simp [hasProfile]

/-- The picks of some profiles are replaced. -/
theorem replacePicks_eq_ok (h : (db.deletePicksOfProfiles profileIds).insertPicks rows = .ok db') :
    UniqueKeys Attached.key rows ∧ (∀ r ∈ rows, db.hasProfile r.profileId = true) ∧
      db' = { db with picks := replacedRows profileIds db.picks rows } := by
  obtain ⟨⟨hunique, -⟩, hrefers, rfl⟩ := insertPicks_eq_ok.mp h
  refine ⟨hunique, fun r hr => ?_, rfl⟩
  have := hrefers r hr
  simp only [refers, Bool.and_eq_true] at this
  exact this.1

/-- The notes of some profiles are replaced. -/
theorem replaceNotes_eq_ok (h : (db.deleteNotesOfProfiles profileIds).insertNotes rows = .ok db') :
    (∀ r ∈ rows, db.hasProfile r.profileId = true) ∧
      db' = { db with notes := replacedRows profileIds db.notes rows } := by
  obtain ⟨-, hrefers, rfl⟩ := insertNotes_eq_ok.mp h
  refine ⟨fun r hr => ?_, rfl⟩
  have := hrefers r hr
  simp only [refers, Bool.and_eq_true] at this
  exact this.1

end Db

theorem uniqueKeys_map {f : ProfileRow → ProfileRow} (hf : ∀ p, (f p).id = p.id)
    (h : UniqueKeys ProfileRow.id profiles) :
    UniqueKeys ProfileRow.id (profiles.map f) := by
  refine UniqueKeys.of_map_eq ?_ h
  simp [Function.comp_def, hf]

/-! ## A write of profiles and rows -/

/-- The column of a live profile follows its rows: they were replaced by the entries of the
column, or neither has changed. -/
def Follows (db : Db) (column : ProfileRow → Entries String) (profileIds : List String)
    (rows : List Attached) (p : ProfileRow) : Prop :=
  (p.id ∈ profileIds ∧
      ∀ r : Attached, r.profileId = p.id → (r ∈ rows ↔ r ∈ attachedRows p.id (column p))) ∨
    p.id ∉ profileIds ∧ ∃ q ∈ db.profiles, q.deletedAt = none ∧ q.id = p.id ∧ column q = column p

/-- What a write may do to the rows of one of the two tables. -/
structure Rewrites (profiles : List ProfileRow) (profileIds : List String)
    (rows : List Attached) : Prop where
  unique : UniqueKeys Attached.key rows
  ids : ∀ r ∈ rows, r.profileId ∈ profileIds
  refer : ∀ r ∈ rows, ∃ p ∈ profiles, p.id = r.profileId

theorem Rewrites.nil (profiles : List ProfileRow) (profileIds : List String) :
    Rewrites profiles profileIds [] :=
  ⟨nodup_nil, by simp, by simp⟩

@[simp] theorem replacedRows_nil (table : List Attached) : replacedRows [] table [] = table := by
  simp [replacedRows]

variable {db db' : Db} {now : ℕ}

theorem Follows.describes (hf : Follows db column profileIds rows p)
    (hrows : ∀ r ∈ rows, r.profileId ∈ profileIds)
    (hold : ∀ q ∈ db.profiles, q.deletedAt = none → Describes (column q) q.id table) :
    Describes (column p) p.id (replacedRows profileIds table rows) := by
  rcases hf with ⟨hid, hmatch⟩ | ⟨hid, q, hq, hlive, hsame, hcolumn⟩
  · exact describes_replacedRows hid hmatch
  · have := hold q hq hlive
    rw [hsame, hcolumn] at this
    exact this.replacedRows hid hrows

/-- A write after which every live profile follows its rows keeps the two in step. -/
theorem DualWrite.rewrite (h : DualWrite db) (profiles : List ProfileRow)
    (pickIds noteIds : List String) (pickRows noteRows : List Attached)
    (hids : UniqueKeys ProfileRow.id profiles)
    (hkept : ∀ p ∈ db.profiles, ∃ p' ∈ profiles, p'.id = p.id)
    (hpicks : Rewrites profiles pickIds pickRows) (hnotes : Rewrites profiles noteIds noteRows)
    (hlive : ∀ p ∈ profiles, p.deletedAt = none →
      Follows db ProfileRow.picksJson pickIds pickRows p ∧
        Follows db ProfileRow.notesJson noteIds noteRows p) :
    DualWrite { db with
      profiles := profiles
      picks := replacedRows pickIds db.picks pickRows
      notes := replacedRows noteIds db.notes noteRows } := by
  have hrefer : ∀ {table rows : List Attached} {ids : List String},
      (∀ r ∈ table, db.hasProfile r.profileId = true) → Rewrites profiles ids rows →
      ∀ r ∈ replacedRows ids table rows, ∃ p ∈ profiles, p.id = r.profileId := by
    intro table rows ids htable hrows r hr
    rcases mem_append.mp hr with hr | hr
    · obtain ⟨q, hq, hid⟩ := Db.hasProfile_iff.mp (htable r (mem_filter.mp hr).1)
      obtain ⟨p, hp, hpid⟩ := hkept q hq
      exact ⟨p, hp, hpid.trans hid⟩
    · exact hrows.refer r hr
  exact
    { agrees := fun p hp hdeleted =>
        ⟨(hlive p hp hdeleted).1.describes hpicks.ids fun q hq hq' => (h.agrees q hq hq').1,
          (hlive p hp hdeleted).2.describes hnotes.ids fun q hq hq' => (h.agrees q hq hq').2⟩
      profileIds := hids
      pickKeys := uniqueKeys_replacedRows h.pickKeys hpicks.unique hpicks.ids
      picks_refer := fun r hr => Db.hasProfile_iff.mpr (hrefer h.picks_refer hpicks r hr)
      notes_refer := fun r hr => Db.hasProfile_iff.mpr (hrefer h.notes_refer hnotes r hr)
      stagesExist := h.stagesExist }

/-- The rows of one profile, as a write inserts them. -/
theorem rewrites_attachedRows (hp : entries.entries ≠ [] → ∃ p ∈ profiles, p.id = profileId) :
    Rewrites profiles [profileId] (attachedRows profileId entries) where
  unique := by
    have hmap : (attachedRows profileId entries).map Attached.key =
        (entries.entries.map Prod.fst).map (Prod.mk profileId) := by
      simp [attachedRows, Attached.key, Function.comp_def]
    rw [UniqueKeys, hmap]
    exact entries.unique.map (Prod.mk_right_injective profileId)
  ids := fun r hr => by simp [(mem_attachedRows.mp hr).1]
  refer := by
    intro r hr
    obtain ⟨hid, he⟩ := mem_attachedRows.mp hr
    rw [hid]
    exact hp (ne_nil_of_mem he)

/-! ## Every write of profiles -/

/-- `create` keeps the two in step. -/
theorem dualWrite_create (h : DualWrite db) {p : ProfileInput}
    (hw : db.createProfile now p = .ok db') : DualWrite db' := by
  obtain ⟨db₁, hinsert, hw⟩ := Table.bind_eq_ok.mp hw
  obtain ⟨db₂, hpicks, hnotes⟩ := Table.bind_eq_ok.mp hw
  obtain ⟨-, -, rfl⟩ := Db.insertPicks_eq_ok.mp hpicks
  obtain ⟨-, -, rfl⟩ := Db.insertNotes_eq_ok.mp hnotes
  unfold Db.insertProfile at hinsert
  split at hinsert
  · cases hinsert
  · rename_i hnew
    obtain rfl := Db.writeProfiles_eq_ok hinsert
    have hnew : ∀ q ∈ db.profiles, q.id ≠ p.id := fun q hq hid =>
      hnew (Db.hasProfile_iff.mpr ⟨q, hq, hid⟩)
    -- a new profile has no rows yet
    have happend : ∀ {table : List Attached} {entries : Entries String},
        (∀ r ∈ table, db.hasProfile r.profileId = true) →
        table ++ attachedRows p.id entries =
          replacedRows [p.id] table (attachedRows p.id entries) := by
      intro table entries hrefer
      rw [replacedRows, filter_eq_self.mpr]
      intro r hr
      obtain ⟨q, hq, hid⟩ := Db.hasProfile_iff.mp (hrefer r hr)
      simpa [hid] using hnew q hq
    have hself : ∃ q ∈ db.profiles ++ [Db.newProfile now p], q.id = p.id :=
      ⟨Db.newProfile now p, by simp, rfl⟩
    have hrewritten := h.rewrite (db.profiles ++ [Db.newProfile now p]) [p.id] [p.id]
      (attachedRows p.id (orEmpty p.picks)) (attachedRows p.id (orEmpty p.notes)) ?_
      (fun q hq => ⟨q, mem_append_left _ hq, rfl⟩)
      (rewrites_attachedRows fun _ => hself) (rewrites_attachedRows fun _ => hself) ?_
    · rw [← happend h.picks_refer, ← happend h.notes_refer] at hrewritten
      exact hrewritten
    · refine Table.uniqueKeys_insert h.profileIds (Table.insert_eq_some.mpr ⟨⟨?_, ?_⟩, rfl⟩)
      · simp [UniqueKeys]
      · intro r hr x hx
        rw [mem_singleton.mp hr]
        exact hnew x hx
    · intro q hq hlive
      rcases mem_append.mp hq with hq | hq
      · have hother : q.id ∉ [p.id] := by simpa using hnew q hq
        exact ⟨.inr ⟨hother, q, hq, hlive, rfl, rfl⟩, .inr ⟨hother, q, hq, hlive, rfl, rfl⟩⟩
      · rw [mem_singleton.mp hq]
        exact ⟨.inl ⟨by simp [Db.newProfile], fun _ _ => Iff.rfl⟩,
          Or.inl ⟨by simp [Db.newProfile], fun _ _ => Iff.rfl⟩⟩

/-- What `update` does to the picks. -/
theorem updatePicks_eq_ok {picks : Option (Entries String)}
    (hw : db.updatePicks profileId picks = .ok db') :
    ∃ ids rows, db' = { db with picks := replacedRows ids db.picks rows } ∧
      Rewrites db.profiles ids rows ∧
      (picks = none ∧ ids = [] ∨
        ∃ entries, picks = some entries ∧ ids = [profileId] ∧
          rows = attachedRows profileId entries) := by
  cases picks with
  | none =>
    cases hw
    exact ⟨[], [], by simp, .nil _ _, .inl ⟨rfl, rfl⟩⟩
  | some entries =>
    obtain ⟨-, hrefer, rfl⟩ := Db.replacePicks_eq_ok hw
    refine ⟨[profileId], _, rfl, rewrites_attachedRows fun hne => ?_, .inr ⟨entries, rfl, rfl, rfl⟩⟩
    obtain ⟨e, he⟩ := exists_mem_of_ne_nil _ hne
    exact Db.hasProfile_iff.mp (hrefer ⟨profileId, e.1, e.2⟩ (mem_attachedRows.mpr ⟨rfl, he⟩))

/-- What `update` does to the notes. -/
theorem updateNotes_eq_ok {notes : Option (Entries String)}
    (hw : db.updateNotes profileId notes = .ok db') :
    ∃ ids rows, db' = { db with notes := replacedRows ids db.notes rows } ∧
      Rewrites db.profiles ids rows ∧
      (notes = none ∧ ids = [] ∨
        ∃ entries, notes = some entries ∧ ids = [profileId] ∧
          rows = attachedRows profileId entries) := by
  cases notes with
  | none =>
    cases hw
    exact ⟨[], [], by simp, .nil _ _, .inl ⟨rfl, rfl⟩⟩
  | some entries =>
    obtain ⟨hrefer, rfl⟩ := Db.replaceNotes_eq_ok hw
    refine ⟨[profileId], _, rfl, rewrites_attachedRows fun hne => ?_, .inr ⟨entries, rfl, rfl, rfl⟩⟩
    obtain ⟨e, he⟩ := exists_mem_of_ne_nil _ hne
    exact Db.hasProfile_iff.mp (hrefer ⟨profileId, e.1, e.2⟩ (mem_attachedRows.mpr ⟨rfl, he⟩))

/-- The updated profile follows the rows that are written for it, and the others are as they
were. -/
theorem follows_updated {given : Option (Entries String)} (hgiven : given = none ∧ ids = [] ∨
      ∃ entries, given = some entries ∧ ids = [profileId] ∧ rows = attachedRows profileId entries)
    {q : ProfileRow} (hp : p ∈ db.profiles) (hlive : p.deletedAt = none) (hid : q.id = p.id)
    (hcolumn : column q = if p.id = profileId then given.getD (column p) else column p) :
    Follows db column ids rows q := by
  rcases hgiven with ⟨rfl, rfl⟩ | ⟨entries, rfl, rfl, rfl⟩
  · exact .inr ⟨by simp, p, hp, hlive, hid.symm, by simp [hcolumn]⟩
  · by_cases hself : p.id = profileId
    · subst hself
      rw [if_pos rfl] at hcolumn
      exact .inl ⟨by simp [hid], fun r _ => by rw [hid, hcolumn, Option.getD_some]⟩
    · rw [if_neg hself] at hcolumn
      exact .inr ⟨by simpa [hid] using hself, p, hp, hlive, hid.symm, hcolumn.symm⟩

/-- `update` keeps the two in step. -/
theorem dualWrite_update (h : DualWrite db) {fields : ProfileFields}
    (hw : db.updateProfile now profileId fields = .ok db') : DualWrite db' := by
  obtain ⟨db₁, hprofiles, hw⟩ := Table.bind_eq_ok.mp hw
  obtain ⟨db₂, hpicks, hnotes⟩ := Table.bind_eq_ok.mp hw
  obtain rfl := Db.writeProfiles_eq_ok hprofiles
  obtain ⟨pickIds, pickRows, rfl, hpickRows, hpickGiven⟩ := updatePicks_eq_ok hpicks
  obtain ⟨noteIds, noteRows, rfl, hnoteRows, hnoteGiven⟩ := updateNotes_eq_ok hnotes
  set changed := fun p : ProfileRow =>
    if p.id = profileId ∧ p.deletedAt = none then Db.updatedProfile now fields p else p with hchanged
  have hid : ∀ p, (changed p).id = p.id := by
    intro p
    rw [hchanged]
    dsimp only
    split <;> rfl
  refine h.rewrite (db.profiles.map changed) pickIds noteIds pickRows noteRows
    (uniqueKeys_map hid h.profileIds) (fun p hp => ⟨_, mem_map_of_mem hp, hid p⟩)
    hpickRows hnoteRows ?_
  intro q hq hlive
  obtain ⟨p, hp, rfl⟩ := mem_map.mp hq
  have hplive : p.deletedAt = none := by
    rw [hchanged] at hlive
    dsimp only at hlive
    split at hlive
    · exact hlive
    · exact hlive
  constructor
  · refine follows_updated hpickGiven hp hplive (hid p) ?_
    rw [hchanged]
    dsimp only
    by_cases hself : p.id = profileId
    · simp [hself, hplive, Db.updatedProfile]
    · simp [hself]
  · refine follows_updated hnoteGiven hp hplive (hid p) ?_
    rw [hchanged]
    dsimp only
    by_cases hself : p.id = profileId
    · simp [hself, hplive, Db.updatedProfile]
    · simp [hself]

/-- A soft deletion, with the rows of the profiles that it deletes, keeps the two in step. -/
theorem dualWrite_softDelete (h : DualWrite db) {deletedBy reason : Option String}
    {meant : ProfileRow → Bool}
    (hids : ∀ p ∈ db.profiles, p.deletedAt = none → (p.id ∈ ids ↔ meant p = true)) :
    DualWrite (((db.softDelete now deletedBy reason meant).deletePicksOfProfiles
      ids).deleteNotesOfProfiles ids) := by
  set changed := fun p : ProfileRow =>
    if meant p ∧ p.deletedAt = none then
      { p with
        deletedAt := some now, updatedAt := some now, deletedBy := deletedBy
        deletionReason := reason }
    else p with hchanged
  have hid : ∀ p, (changed p).id = p.id := by
    intro p
    rw [hchanged]
    dsimp only
    split <;> rfl
  have hrewritten := h.rewrite (db.profiles.map changed) ids ids [] []
    (uniqueKeys_map hid h.profileIds) (fun p hp => ⟨_, mem_map_of_mem hp, hid p⟩)
    (.nil _ _) (.nil _ _) ?_
  · simp only [replacedRows, append_nil] at hrewritten
    exact hrewritten
  · intro q hq hlive
    obtain ⟨p, hp, rfl⟩ := mem_map.mp hq
    rw [hchanged] at hlive ⊢
    dsimp only at hlive ⊢
    split at hlive
    · cases hlive
    · rename_i hkept
      rw [if_neg hkept]
      have hother : p.id ∉ ids := fun hmem => hkept ⟨(hids p hp hlive).mp hmem, hlive⟩
      exact ⟨.inr ⟨hother, p, hp, hlive, rfl, rfl⟩, .inr ⟨hother, p, hp, hlive, rfl, rfl⟩⟩

/-- `delete` keeps the two in step. -/
theorem dualWrite_delete (h : DualWrite db) (profileId : String)
    (deletedBy reason : Option String) :
    DualWrite (db.deleteProfile now profileId deletedBy reason) := by
  unfold Db.deleteProfile
  split
  · exact h
  · exact dualWrite_softDelete h fun p _ _ => by simp

/-- `deleteByUserId` keeps the two in step. -/
theorem dualWrite_deleteByUserId (h : DualWrite db) (userId : String)
    (deletedBy reason : Option String) :
    DualWrite (db.deleteByUserId now userId deletedBy reason) := by
  unfold Db.deleteByUserId
  simp only
  split
  · exact h
  · refine dualWrite_softDelete h fun p hp hlive => ?_
    rw [mem_map]
    constructor
    · rintro ⟨q, hq, hid⟩
      obtain ⟨hq, hmeant⟩ := mem_filter.mp hq
      rw [h.profileIds.eq_of_mem hp hq hid.symm]
      simpa using (of_decide_eq_true hmeant).1
    · intro hmeant
      exact ⟨p, mem_filter.mpr ⟨hp, by simpa [hlive] using hmeant⟩, rfl⟩

/-- The profiles after the rows of `replaceAll`: the given ones and those of other ids. -/
theorem upsertProfiles_eq_ok (hnodup : (nextProfiles.map ProfileInput.id).Nodup)
    (hids : UniqueKeys ProfileRow.id db.profiles)
    (hw : Db.upsertProfiles now nextProfiles db = .ok db') :
    ∃ profiles, db' = { db with profiles := profiles } ∧
      UniqueKeys ProfileRow.id profiles ∧
      (∀ p ∈ db.profiles, ∃ q ∈ profiles, q.id = p.id) ∧
      (∀ p ∈ nextProfiles, ∃ q ∈ profiles, q.id = p.id) ∧
      ∀ q ∈ profiles, (∃ p ∈ nextProfiles, q.id = p.id ∧ q.picksJson = orEmpty p.picks ∧
          q.notesJson = orEmpty p.notes) ∨
        q ∈ db.profiles ∧ q.id ∉ nextProfiles.map ProfileInput.id := by
  induction nextProfiles generalizing db with
  | nil =>
    obtain rfl : db = db' := Except.ok.inj hw
    exact ⟨db.profiles, rfl, hids, fun p hp => ⟨p, hp, rfl⟩, by simp,
      fun q hq => .inr ⟨hq, by simp⟩⟩
  | cons p ps ih =>
    obtain ⟨db₁, hupsert, hw⟩ := Table.bind_eq_ok.mp hw
    obtain rfl := Db.writeProfiles_eq_ok hupsert
    rw [map_cons, nodup_cons] at hnodup
    set row := Db.replacedProfile now p (lookup ProfileRow.id p.id db.profiles)
    have hrow : row.id = p.id ∧ row.picksJson = orEmpty p.picks ∧ row.notesJson = orEmpty p.notes :=
      ⟨rfl, rfl, rfl⟩
    have hmem : ∀ z, z ∈ upsert ProfileRow.id row db.profiles ↔
        z = row ∨ z ∈ db.profiles ∧ z.id ≠ row.id := fun z => hids.mem_upsert_iff
    obtain ⟨profiles, hdb', hunique, hkept, hgiven, hcases⟩ := ih hnodup.2 (hids.upsert row) hw
    refine ⟨profiles, hdb', hunique, fun q hq => ?_, fun q hq => ?_, fun q hq => ?_⟩
    · by_cases hsame : q.id = row.id
      · obtain ⟨z, hz, hzid⟩ := hkept row ((hmem row).mpr (.inl rfl))
        exact ⟨z, hz, hzid.trans hsame.symm⟩
      · exact hkept q ((hmem q).mpr (.inr ⟨hq, hsame⟩))
    · rcases mem_cons.mp hq with rfl | hq
      · exact hkept row ((hmem row).mpr (.inl rfl))
      · exact hgiven q hq
    · rcases hcases q hq with ⟨p', hp', hfollows⟩ | ⟨hold, hother⟩
      · exact .inl ⟨p', mem_cons_of_mem _ hp', hfollows⟩
      · rcases (hmem q).mp hold with rfl | ⟨hold, hne⟩
        · exact .inl ⟨p, mem_cons_self, hrow⟩
        · refine .inr ⟨hold, ?_⟩
          rw [map_cons, mem_cons, not_or]
          exact ⟨hne, hother⟩

/-- Among the rows of all given profiles, those of one profile are its own. -/
theorem mem_givenRows (hnodup : (nextProfiles.map ProfileInput.id).Nodup)
    (column : ProfileInput → Entries String) {p : ProfileInput} (hp : p ∈ nextProfiles)
    (hr : r.profileId = p.id) :
    r ∈ nextProfiles.flatMap (fun p => attachedRows p.id (column p)) ↔
      r ∈ attachedRows p.id (column p) := by
  rw [mem_flatMap]
  constructor
  · rintro ⟨q, hq, hmem⟩
    have hid : q.id = p.id := (mem_attachedRows.mp hmem).1.symm.trans hr
    rwa [inj_on_of_nodup_map hnodup hq hp hid] at hmem
  · exact fun hmem => ⟨p, hp, hmem⟩

/-- `replaceAll` keeps the two in step. -/
theorem dualWrite_replaceAll (h : DualWrite db) (hw : db.replaceAll now nextProfiles = .ok db') :
    DualWrite db' := by
  unfold Db.replaceAll at hw
  simp only at hw
  set ids := nextProfiles.map ProfileInput.id with hidsEq
  set changed := fun p : ProfileRow =>
    if p.id ∉ ids ∧ p.deletedAt = none then
      { p with deletedAt := some now, updatedAt := some now }
    else p with hchanged
  have hid : ∀ p, (changed p).id = p.id := by
    intro p
    rw [hchanged]
    dsimp only
    split <;> rfl
  -- the profiles that are not given are deleted
  have hdeleted : ∀ p, p.id ∉ ids → (changed p).deletedAt ≠ none := by
    intro p hother
    rw [hchanged]
    dsimp only
    split
    · simp
    · rename_i hnot
      exact fun hlive => hnot ⟨hother, hlive⟩
  split at hw
  · rename_i hnil
    cases hw
    have hrewritten := h.rewrite (db.profiles.map changed) [] [] [] []
      (uniqueKeys_map hid h.profileIds) (fun p hp => ⟨_, mem_map_of_mem hp, hid p⟩)
      (.nil _ _) (.nil _ _) ?_
    · simpa only [replacedRows_nil] using hrewritten
    · intro q hq hlive
      obtain ⟨p, hp, rfl⟩ := mem_map.mp hq
      exact absurd hlive (hdeleted p (by simp [hidsEq, hnil]))
  · split at hw
    · rename_i hnodup
      obtain ⟨db₁, hupsert, hw⟩ := Table.bind_eq_ok.mp hw
      obtain ⟨db₂, hpicks, hnotes⟩ := Table.bind_eq_ok.mp hw
      obtain ⟨profiles, rfl, hunique, hkept, hgiven, hcases⟩ :=
        upsertProfiles_eq_ok hnodup (uniqueKeys_map hid h.profileIds) hupsert
      obtain ⟨⟨hpickKeys, -⟩, -, rfl⟩ := Db.insertPicks_eq_ok.mp hpicks
      obtain ⟨⟨hnoteKeys, -⟩, -, rfl⟩ := Db.insertNotes_eq_ok.mp hnotes
      have hrewrites : ∀ column : ProfileInput → Entries String,
          UniqueKeys Attached.key
            (nextProfiles.flatMap (fun p => attachedRows p.id (column p))) →
          Rewrites profiles ids (nextProfiles.flatMap (fun p => attachedRows p.id (column p))) := by
        intro column hkeys
        refine ⟨hkeys, fun r hr => ?_, fun r hr => ?_⟩
        · obtain ⟨p, hp, hmem⟩ := mem_flatMap.mp hr
          rw [(mem_attachedRows.mp hmem).1]
          exact mem_map_of_mem hp
        · obtain ⟨p, hp, hmem⟩ := mem_flatMap.mp hr
          rw [(mem_attachedRows.mp hmem).1]
          exact hgiven p hp
      refine h.rewrite profiles ids ids
        (nextProfiles.flatMap (fun p => attachedRows p.id (orEmpty p.picks)))
        (nextProfiles.flatMap (fun p => attachedRows p.id (orEmpty p.notes))) hunique
        (fun p hp => ?_) (hrewrites _ hpickKeys) (hrewrites _ hnoteKeys) (fun q hq hlive => ?_)
      · obtain ⟨q, hq, hqid⟩ := hkept (changed p) (mem_map_of_mem hp)
        exact ⟨q, hq, hqid.trans (hid p)⟩
      · rcases hcases q hq with ⟨p, hp, hpid, hpicksJson, hnotesJson⟩ | ⟨hold, hother⟩
        · have hmem : q.id ∈ ids := hpid ▸ mem_map_of_mem hp
          refine ⟨.inl ⟨hmem, fun r hr => ?_⟩, .inl ⟨hmem, fun r hr => ?_⟩⟩
          · rw [hpid, hpicksJson]
            exact mem_givenRows hnodup (fun p => orEmpty p.picks) hp (hr.trans hpid)
          · rw [hpid, hnotesJson]
            exact mem_givenRows hnodup (fun p => orEmpty p.notes) hp (hr.trans hpid)
        · obtain ⟨p, -, rfl⟩ := mem_map.mp hold
          exact absurd hlive (hdeleted p (hid p ▸ hother))
    · cases hw

/-! ## Updates of festivals -/

/-- What the replacement of the days does to profiles, picks and notes. -/
theorem replaceChildRows_ok {children : Children}
    (hw : db.replaceChildRows festivalId children = .ok db') :
    (∀ n ∈ db.notes, db.isSetOf festivalId n.setId = false) ∧ db'.profiles = db.profiles ∧
      db'.notes = db.notes ∧ db'.stages = db.stages ∧
      db'.sets = db.sets.filter (fun x => x.festivalId ≠ festivalId) ++ children.setRows ∧
      (∀ r ∈ children.setRows, db.hasStage r.festivalId r.stageId = true) ∧
      (UniqueKeys SetRow.id children.setRows ∧
        ∀ r ∈ children.setRows, ∀ x ∈ db.sets.filter (fun x => x.festivalId ≠ festivalId),
          x.id ≠ r.id) ∧
      db'.picks = Table.insertOrIgnore Attached.key
        (db.picks.filter (fun p => !db.isSetOf festivalId p.setId))
        ((db.selectPicks festivalId).filter (fun p => p.setId ∈ children.newSetIds)) := by
  obtain ⟨db₁, hsets, hw⟩ := Table.bind_eq_ok.mp hw
  obtain ⟨db₂, hdays, hw⟩ := Table.bind_eq_ok.mp hw
  obtain ⟨db₃, hinserted, hw⟩ := Table.bind_eq_ok.mp hw
  obtain ⟨db₄, hpicks, hratings⟩ := Table.bind_eq_ok.mp hw
  rw [Db.deleteSets_eq] at hsets
  split at hsets
  · cases hsets
  · rename_i hpicked
    obtain rfl := Except.ok.inj hsets
    obtain ⟨-, -, rfl⟩ := Db.insertDaysBatch_eq_ok.mp hdays
    obtain ⟨hnew, hstages, rfl⟩ := Db.insertSetsBatch_eq_ok.mp hinserted
    obtain ⟨picks, hpickRows, rfl⟩ := Db.inserted_map_eq_ok hpicks
    obtain ⟨ratings, -, rfl⟩ := Db.inserted_map_eq_ok hratings
    refine ⟨fun n hn => ?_, rfl, rfl, rfl, rfl, hstages, hnew, (Option.some.inj hpickRows).symm⟩
    rw [Bool.eq_false_iff]
    intro hset
    refine hpicked (Bool.or_eq_true_iff.mpr (.inr ?_))
    exact any_eq_true.mpr ⟨n, hn, hset⟩

/-- A write that leaves profiles, picks and notes alone keeps the two in step. -/
theorem DualWrite.of_same (h : DualWrite db) (hprofiles : db'.profiles = db.profiles)
    (hpicks : db'.picks = db.picks) (hnotes : db'.notes = db.notes) (hstages : db'.StagesExist) :
    DualWrite db' where
  agrees := by
    unfold Db.Agrees
    rw [hprofiles, hpicks, hnotes]
    exact h.agrees
  profileIds := hprofiles ▸ h.profileIds
  pickKeys := hpicks ▸ h.pickKeys
  picks_refer := by
    unfold Db.hasProfile
    rw [hprofiles, hpicks]
    exact h.picks_refer
  notes_refer := by
    unfold Db.hasProfile
    rw [hprofiles, hnotes]
    exact h.notes_refer
  stagesExist := hstages

/-- Days that were stored could be stored. -/
theorem storable_of_ok
    (hw : db.replaceChildRows festivalId (collectFestivalChildren festivalId days) = .ok db') :
    Storable db festivalId days := by
  obtain ⟨-, -, -, -, -, hstages, ⟨hunique, hnew⟩, -⟩ := replaceChildRows_ok hw
  refine ⟨uniqueKeys_setRows.mp hunique, fun x hx => ?_⟩
  obtain ⟨r, hr, hfestival, hid, hstage⟩ := exists_setRow festivalId hx
  constructor
  · have := hstages r hr
    rwa [hfestival, hstage] at this
  · intro y hy hsame
    by_contra hother
    exact hnew r hr y (mem_filter.mpr ⟨hy, by simpa using hother⟩) (hsame.trans hid.symm)

/-- New days without new stages keep the two in step when no picked set is left out. -/
theorem dualWrite_replaceChildRows (h : DualWrite db)
    (hkeeps : (∃ n ∈ db.notes, db.isSetOf festivalId n.setId = true) ∨
      ¬ Storable db festivalId days ∨
      ∀ p ∈ db.profiles, p.deletedAt = none → ∀ r ∈ db.picks, r.profileId = p.id →
        db.isSetOf festivalId r.setId = true → r.setId ∈ (lineupSets days).map LineupSet.id)
    (hw : db.replaceChildRows festivalId (collectFestivalChildren festivalId days) = .ok db') :
    DualWrite db' := by
  obtain ⟨hnoNotes, hprofiles, hnotes, hstages, hsets, hnewStages, -, hpicks⟩ :=
    replaceChildRows_ok hw
  have hkeeps : ∀ p ∈ db.profiles, p.deletedAt = none → ∀ r ∈ db.picks, r.profileId = p.id →
      db.isSetOf festivalId r.setId = true → r.setId ∈ (lineupSets days).map LineupSet.id := by
    rcases hkeeps with ⟨n, hn, hset⟩ | hnot | hkeeps
    · rw [hnoNotes n hn] at hset
      cases hset
    · exact absurd (storable_of_ok hw) hnot
    · exact hkeeps
  -- no pick is new, and those of the live profiles are still there
  have hsub : ∀ r ∈ db'.picks, r ∈ db.picks := by
    intro r hr
    rw [hpicks] at hr
    rcases Table.mem_or_mem_of_mem_insertOrIgnore hr with hr | hr
    · exact mem_of_mem_filter hr
    · exact mem_of_mem_filter (mem_of_mem_filter hr)
  have hkept : ∀ p ∈ db.profiles, p.deletedAt = none → ∀ r ∈ db.picks, r.profileId = p.id →
      r ∈ db'.picks := by
    intro p hp hlive r hr hid
    rw [hpicks]
    by_cases hset : db.isSetOf festivalId r.setId = true
    · refine Table.mem_insertOrIgnore_of_new ((h.pickKeys.filter _).filter _) (fun t ht heq => ?_) ?_
      · have hother := (mem_filter.mp ht).2
        simp only [Attached.key, Prod.mk.injEq] at heq
        rw [heq.2, hset] at hother
        cases hother
      · exact mem_filter.mpr ⟨mem_filter.mpr ⟨hr, hset⟩,
          by simpa [collectFestivalChildren] using hkeeps p hp hlive r hr hid hset⟩
    · exact Table.mem_insertOrIgnore_of_mem (mem_filter.mpr ⟨hr, by simpa using hset⟩)
  exact
    { agrees := by
        intro p hp hlive
        rw [hprofiles] at hp
        obtain ⟨hpickRows, hnoteRows⟩ := h.agrees p hp hlive
        rw [hnotes]
        exact ⟨hpickRows.congr fun r hid => ⟨hsub r, fun hr => hkept p hp hlive r hr hid⟩, hnoteRows⟩
      profileIds := hprofiles ▸ h.profileIds
      pickKeys := by
        rw [hpicks]
        exact Table.uniqueKeys_insertOrIgnore (h.pickKeys.filter _)
      picks_refer := by
        unfold Db.hasProfile
        rw [hprofiles]
        exact fun r hr => h.picks_refer r (hsub r hr)
      notes_refer := by
        unfold Db.hasProfile
        rw [hprofiles, hnotes]
        exact h.notes_refer
      stagesExist := by
        unfold Db.StagesExist Db.hasStage
        rw [hsets, hstages]
        intro x hx
        rcases mem_append.mp hx with hx | hx
        · exact h.stagesExist x (mem_of_mem_filter hx)
        · exact hnewStages x hx }

/-- New stages keep the two in step: nothing refers to the sets that go. -/
theorem dualWrite_replaceStages (h : DualWrite db) {stages : List Stage}
    (hw : db.replaceStages festivalId stages = .ok db') :
    DualWrite db' ∧ ∀ x ∈ db'.sets, x.festivalId ≠ festivalId := by
  obtain ⟨-, -, -, rfl⟩ := (Db.replaceStages_eq_ok h.stagesExist).mp hw
  refine ⟨h.of_same rfl rfl rfl fun x hx => ?_, fun x hx => by simpa using (mem_filter.mp hx).2⟩
  obtain ⟨hx, hother⟩ := mem_filter.mp hx
  obtain ⟨st, hst, hon⟩ := any_eq_true.mp (h.stagesExist x hx)
  have hon' : st.festivalId = x.festivalId ∧ st.id = x.stageId := by simpa using hon
  refine any_eq_true.mpr ⟨st, mem_append_left _ (mem_filter.mpr ⟨hst, ?_⟩), hon⟩
  simpa [hon'.1] using hother

/-- An update of a festival keeps the two in step under the condition. -/
theorem dualWrite_updateFestival (h : DualWrite db) {fields : FestivalFields}
    (hkeeps : KeepsPicked db (now, .updateFestival festivalId fields))
    (hw : db.update now festivalId fields = .ok db') : DualWrite db' := by
  set updated := db.updateFestival now festivalId fields
  have hupdated : DualWrite updated := h.of_same rfl rfl rfl h.stagesExist
  unfold Db.update at hw
  unfold KeepsPicked at hkeeps
  cases hstages : fields.stages with
  | none =>
    cases hdays : fields.days with
    | none =>
      rw [hstages, hdays] at hw
      cases hw
      exact hupdated
    | some days =>
      rw [hstages, hdays] at hw
      simp only [hstages, hdays] at hkeeps
      exact dualWrite_replaceChildRows hupdated hkeeps hw
  | some stages =>
    rw [hstages] at hw
    obtain ⟨db₁, hreplaced, hw⟩ := Table.bind_eq_ok.mp hw
    obtain ⟨hdb₁, hnone⟩ := dualWrite_replaceStages hupdated hreplaced
    cases hdays : fields.days with
    | none =>
      rw [hdays] at hw
      cases hw
      exact hdb₁
    | some days =>
      rw [hdays] at hw
      refine dualWrite_replaceChildRows hdb₁ (.inr (.inr fun _ _ _ r _ _ hset => ?_)) hw
      rw [Db.isSetOf_eq_false hnone] at hset
      cases hset

/-! ## Every run -/

/-- Every action keeps the two in step under the condition. -/
theorem dualWrite_step {a : ℕ × Action} (h : DualWrite db) (hkeeps : KeepsPicked db a)
    (hstep : step db a = some db') : DualWrite db' := by
  obtain ⟨now, action⟩ := a
  unfold step at hstep
  split at hstep
  · rename_i db₁ hw
    cases hstep
    cases action with
    | create profile => exact dualWrite_create h hw
    | update profileId fields => exact dualWrite_update h hw
    | delete profileId deletedBy reason =>
      cases hw
      exact dualWrite_delete h profileId deletedBy reason
    | deleteByUserId userId deletedBy reason =>
      cases hw
      exact dualWrite_deleteByUserId h userId deletedBy reason
    | replaceAll profiles => exact dualWrite_replaceAll h hw
    | updateFestival festivalId fields => exact dualWrite_updateFestival h hkeeps hw
  · cases hstep
    exact h

/-- **Columns and rows agree**, in every run of writes of profiles and updates of festivals
in which no update of a festival with days and without stages leaves out a set that a live
profile has picked. -/
theorem dualWrite_agrees (h : DualWrite db) {as : List (ℕ × Action)}
    (hrun : Machine.run step db as = some db') (hkeeps : Machine.Meets step KeepsPicked db as) :
    db'.Agrees :=
  (Machine.inv_run_of_meets (fun _ _ _ hI hC hs => dualWrite_step hI hC hs) h hkeeps hrun).agrees

/-- A festival with two sets, one of which Ana has picked. -/
def onePick : Db :=
  { users := ["ana"]
    festivals := [⟨"f1", "Open Air", "Lake", some "b2b", none, none, none, none, 0, 0, false⟩]
    stages := [⟨"f1", "main", "Main", some "#ff0000", 0, none, none⟩]
    days := [⟨"f1", 0, "Friday", "2026-09-04"⟩]
    sets := [
      ⟨"s1", "f1", 0, "Nova", "main", some "20:00", some "21:00", 0, none,
        [{ name := "Nova", links := [] }]⟩,
      ⟨"s2", "f1", 0, "Echo", "main", some "21:00", some "22:00", 1, none,
        [{ name := "Echo", links := [] }]⟩]
    profiles := [⟨"p1", "f1", some "ana", "Ana", ⟨[("s1", "must")], nodup_singleton _⟩, .empty, .empty, 0,
      none, none, none, none⟩]
    picks := [⟨"p1", "s1", "must"⟩], notes := [], ratings := [] }

theorem onePick_dualWrite : DualWrite onePick where
  agrees := by
    intro p hp _
    obtain rfl := mem_singleton.mp hp
    constructor
    · rintro ⟨setId, priority⟩
      simp [onePick]
    · rintro ⟨setId, text⟩
      simp [onePick, Entries.empty]
  profileIds := by decide
  pickKeys := by decide
  picks_refer := by decide
  notes_refer := by decide
  stagesExist := by decide

/-- The set at a new time. -/
def novaLater : LineupSet :=
  { id := "s1", artists := [{ name := "Nova", links := [] }], artist := "Nova", stageId := "main"
    startTime := some "22:00", endTime := some "23:00", linkUrl := none }

def echo : LineupSet :=
  { id := "s2", artists := [{ name := "Echo", links := [] }], artist := "Echo", stageId := "main"
    startTime := some "21:00", endTime := some "22:00", linkUrl := none }

/-- The picked set is moved, a second one picked, and the profile deleted and replaced. -/
def movedRun : List (ℕ × Action) :=
  [(1, .updateFestival "f1" { days := some [⟨"Friday", "2026-09-04", [echo, novaLater]⟩] }),
    (2, .update "p1" { picks := some ⟨[("s1", "must"), ("s2", "maybe")], by decide⟩ }),
    (3, .delete "p1" none none),
    (4, .replaceAll [{ id := "p1", festivalId := "f1", userId := some "ana", name := "Ana"
                       picks := some ⟨[("s2", "must")], by decide⟩ }])]

theorem dualWrite_agrees_movedRun : ∃ db, Machine.run step onePick movedRun = some db ∧
    db.picks = [⟨"p1", "s2", "must"⟩] ∧ db.Agrees := by
  obtain ⟨db, hdb, hpicks⟩ : ∃ db ∈ Machine.run step onePick movedRun,
      db.picks = [⟨"p1", "s2", "must"⟩] := by decide
  exact ⟨db, hdb, hpicks, dualWrite_agrees onePick_dualWrite hdb (by decide)⟩

/-- **The picked set is left out of the days**: its row goes, and the column keeps it. -/
theorem dropped_set_stays_in_column :
    ∃ db, Machine.run step onePick [(1, .updateFestival "f1"
        { days := some [⟨"Friday", "2026-09-04", [echo]⟩] })] = some db ∧
      db.readPicks "p1" = [] ∧
      (db.overlapPicks "f1" ["ana"]).map (fun o => o.2.entries) = [[("s1", "must")]] ∧
      ¬ db.Agrees := by
  obtain ⟨db, hdb, hread, hoverlap, hpicks, p, hp, hlive, hcolumn⟩ :
      ∃ db ∈ Machine.run step onePick [(1, .updateFestival "f1"
          { days := some [⟨"Friday", "2026-09-04", [echo]⟩] })],
        db.readPicks "p1" = [] ∧
        (db.overlapPicks "f1" ["ana"]).map (fun o => o.2.entries) = [[("s1", "must")]] ∧
        db.picks = [] ∧
        ∃ p ∈ db.profiles, p.deletedAt = none ∧ ("s1", "must") ∈ p.picksJson.entries := by
    decide
  refine ⟨db, hdb, hread, hoverlap, fun hagrees => ?_⟩
  have := ((hagrees p hp hlive).1 ("s1", "must")).mp hcolumn
  rw [hpicks] at this
  cases this

end FestivalPlanner.Lineup
