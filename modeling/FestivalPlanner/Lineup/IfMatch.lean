import FestivalPlanner.Lib.InFlight
import FestivalPlanner.Lib.JsDate
import FestivalPlanner.Lineup.DualWrite
import Mathlib.Data.List.Chain

/-!
# Updates of a profile that carry If-Match

`updateProfile` of `routes/profiles.ts`.  The version of a profile is its `updatedAt`, and the
handler compares it with the header before it awaits the festival and the store, whose `UPDATE`
does not look at the version again.

* `checkVersion`, `checkSets`, `storeUpdate` — what the handler does between two awaits;
* `step` — any number of such requests, each at its own place in the handler;
* `NoLostUpdates` — each stored update overwrote the version that its header names, and no
  version is that of two states of the profile;
* `ifMatch_prevents_lostUpdates` — this holds in exactly the runs in which nothing is stored
  between a comparison and its write, and the clock gives each write a version of its own.
-/

namespace FestivalPlanner.Lineup.IfMatch

open List Option

/-! ## The handler -/

/-- The version of a profile as an ETag. -/
def etag (updatedAt : ℕ) : String :=
  match Js.toISOString (some (updatedAt : ℤ)) with
  | .ok text => "\"" ++ String.ofList text ++ "\""
  | .error _ => ""

/-- An update whose picks, notes and reminders passed the checks of the payload. -/
structure Request where
  userId : String
  profileId : String
  ifMatch : String
  picks : Option (Entries String) := none
  notes : Option (Entries String) := none
  reminders : Option (Entries ℤ) := none

/-- `updateFields` -/
def Request.updateFields (r : Request) : ProfileFields :=
  { picks := r.picks, notes := r.notes, reminders := r.reminders }

/-- What a request is answered. -/
inductive Reply where
  | profileNotFound
  | notYourProfile
  | versionMismatch (current : ProfileRow)
  | unknownSet (error : String)
  | updated (profile : ProfileRow)
  | failedToUpdate

/-- `ifMatch && currentProfile.updatedAt && ifMatch !== …` -/
def mismatch (ifMatch : String) : Option ℕ → Bool
  | none => false
  | some updatedAt => decide (ifMatch ≠ "" ∧ ifMatch ≠ etag updatedAt)

/-- What the handler does with the profile it has read. -/
def checkVersion (r : Request) : Option ProfileRow → Except Reply ProfileRow
  | none => .error .profileNotFound
  | some p =>
      if p.userId ≠ some r.userId then .error .notYourProfile
      else if mismatch r.ifMatch p.updatedAt then .error (.versionMismatch p)
      else .ok p

/-- The sets of a festival, as `getFestivalById` gives them by day. -/
def validSetIds (db : Db) (festivalId : String) : List String :=
  if db.festivals.any (fun f => decide (f.id = festivalId) && !f.deleted) then
    (db.sets.filter (fun x => decide (x.festivalId = festivalId) &&
      db.days.any (fun d => d.festivalId = festivalId ∧ d.dayIndex = x.dayIndex))).map SetRow.id
  else []

/-- Does an object that is given have a key that is no set of the festival? -/
def refersOutside {β : Type} (valid : List String) : Option (Entries β) → Bool
  | none => false
  | some entries => entries.entries.any (fun e => e.1 ∉ valid)

/-- What the handler does with the festival it has read. -/
def checkSets (r : Request) (valid : List String) : Except Reply Unit :=
  if refersOutside valid r.picks then .error (.unknownSet "Pick references an unknown set")
  else if refersOutside valid r.notes then .error (.unknownSet "Note references an unknown set")
  else if refersOutside valid r.reminders then
    .error (.unknownSet "Reminder references an unknown set")
  else .ok ()

/-- The transaction of the store, rolled back when it fails, and the reply. -/
def storeUpdate (db : Db) (now : ℕ) (r : Request) : Db × Reply :=
  match db.updateProfile now r.profileId r.updateFields with
  | .error _ => (db, .failedToUpdate)
  | .ok db' =>
      match db'.liveProfile r.profileId with
      | none => (db', .failedToUpdate)
      | some p => (db', .updated p)

/-! ## Requests in flight -/

/-- Where a request is in the handler: the profile it has read, and how many updates of the
profile had been stored then. -/
inductive Pc where
  | started
  | compared (current : ProfileRow) (updates : ℕ)
  | checked (current : ProfileRow) (updates : ℕ)

structure Running where
  request : Request
  pc : Pc

/-- The profile that a request has read, and the number of updates before. -/
def Running.read (q : Running) : Option (ProfileRow × ℕ) :=
  match q.pc with
  | .started => none
  | .compared p n => some (p, n)
  | .checked p n => some (p, n)

/-- A stored update: its header, the version it found in the row and the one it left there. -/
structure Stored where
  profileId : String
  ifMatch : String
  overwrote : Option ℕ
  version : ℕ

/-- The database, the requests under way and the updates stored so far, the last one first. -/
structure State where
  db : Db
  requests : List Running
  stored : List Stored

inductive Action where
  | arrive (r : Request)
  /-- the profile is read and compared -/
  | compare (i : ℕ)
  /-- the festival is read -/
  | validate (i : ℕ)
  /-- the store writes, at this time -/
  | write (i now : ℕ)

namespace State

variable (s : State)

/-- The stored updates of a profile. -/
@[grind =] def storedOf (profileId : String) : List Stored :=
  s.stored.filter (fun e => e.profileId = profileId)

/-- The version of a profile in the database. -/
def version (profileId : String) : Option ℕ :=
  (s.db.liveProfile profileId).bind ProfileRow.updatedAt

/-- The versions that a profile has had, the present one first. -/
@[grind =] def versions (profileId : String) : List (Option ℕ) :=
  s.version profileId :: (s.storedOf profileId).map Stored.overwrote

/-- The request at a place moves on, or has got its reply. -/
def moveOn (i : ℕ) (r : Request) : Except Reply Pc → State
  | .ok pc => { s with requests := s.requests.set i ⟨r, pc⟩ }
  | .error _ => { s with requests := s.requests.eraseIdx i }

/-- The write of a request, noted when it is answered with the profile. -/
def write (i now : ℕ) (r : Request) : State :=
  match storeUpdate s.db now r with
  | (db, .updated _) =>
      { db := db, requests := s.requests.eraseIdx i
        stored := ⟨r.profileId, r.ifMatch, s.version r.profileId, now⟩ :: s.stored }
  | (db, _) => { s with db := db, requests := s.requests.eraseIdx i }

end State

/-- One turn of the server. -/
def step (s : State) : Action → Option State
  | .arrive r => some { s with requests := s.requests ++ [⟨r, .started⟩] }
  | .compare i =>
      match s.requests[i]? with
      | some ⟨r, .started⟩ =>
          some (s.moveOn i r ((checkVersion r (s.db.liveProfile r.profileId)).map
            (fun p => .compared p (s.storedOf r.profileId).length)))
      | _ => none
  | .validate i =>
      match s.requests[i]? with
      | some ⟨r, .compared p n⟩ =>
          some (s.moveOn i r ((checkSets r (validSetIds s.db p.festivalId)).map
            (fun _ => .checked p n)))
      | _ => none
  | .write i now =>
      match s.requests[i]? with
      | some ⟨r, .checked _ _⟩ => some (s.write i now r)
      | _ => none

/-- No request has arrived. -/
def start (db : Db) : State := ⟨db, [], []⟩

/-! ## Lost updates -/

/-- No stored update was overwritten by a request that had not seen it. -/
structure NoLostUpdates (s : State) : Prop where
  /-- each update overwrote the version that its header names -/
  named : ∀ e ∈ s.stored, ∃ v, e.overwrote = some v ∧ e.ifMatch = etag v
  /-- of the updates that name one version at most one was stored -/
  once : ∀ id, ((s.storedOf id).map Stored.ifMatch).Nodup
  /-- an update that follows another names what that one stored -/
  seen : ∀ id, (s.storedOf id).IsChain (fun e earlier => e.ifMatch = etag earlier.version)
  /-- no version is that of two states of the profile -/
  distinct : ∀ id, ((s.versions id).map (Option.map etag)).Nodup

/-- Would the update be stored now? -/
def Writes (s : State) (r : Request) (now : ℕ) : Prop :=
  ∃ db, s.db.updateProfile now r.profileId r.updateFields = .ok db ∧
    (s.db.liveProfile r.profileId).isSome = true

/-- When a request writes, its header was compared with a version, no update of the profile
has been stored since, and the time is that of no version of the profile. -/
def Unmoved (s : State) : Action → Prop
  | .write i now => ∀ r p n, s.requests[i]? = some ⟨r, .checked p n⟩ → Writes s r now →
      (r.ifMatch ≠ "" ∧ p.updatedAt.isSome = true) ∧ n = (s.storedOf r.profileId).length ∧
        some (etag now) ∉ (s.versions r.profileId).map (Option.map etag)
  | _ => True

/-! ## What a write does -/

theorem etag_ne_empty {v : ℕ} : etag v ≠ "" := by
  obtain ⟨text, htext⟩ : ∃ text, Js.toISOString (some (v : ℤ)) = .ok text := ⟨_, rfl⟩
  rw [etag, htext]
  intro h
  simpa using congrArg String.toList h

variable {p : ProfileRow} {r : Request} {a : Action}

section

variable {db db' : Db} {now : ℕ} {id : String} {fields : ProfileFields}

theorem updateProfile_profiles (h : db.updateProfile now id fields = .ok db') :
    db'.profiles = db.profiles.map (fun p =>
      if p.id = id ∧ p.deletedAt = none then Db.updatedProfile now fields p else p) := by
  obtain ⟨db₁, hprofiles, h⟩ := Table.bind_eq_ok.mp h
  obtain ⟨db₂, hpicks, hnotes⟩ := Table.bind_eq_ok.mp h
  obtain rfl := Db.writeProfiles_eq_ok hprofiles
  obtain ⟨_, _, rfl, -⟩ := updatePicks_eq_ok hpicks
  obtain ⟨_, _, rfl, -⟩ := updateNotes_eq_ok hnotes
  rfl

theorem of_liveProfile (h : db.liveProfile id = some p) : p.id = id ∧ p.deletedAt = none := by
  have hmeant := find?_some h
  simpa using hmeant

/-- The live profile is updated, and the others stay. -/
theorem liveProfile_updateProfile (h : db.updateProfile now id fields = .ok db') (other : String) :
    db'.liveProfile other = if other = id then (db.liveProfile id).map (Db.updatedProfile now fields)
      else db.liveProfile other := by
  rw [Db.liveProfile, updateProfile_profiles h, find?_map]
  have hsame : (fun p : ProfileRow => decide (p.id = other ∧ p.deletedAt = none)) ∘ (fun p =>
      if p.id = id ∧ p.deletedAt = none then Db.updatedProfile now fields p else p) =
      fun p => decide (p.id = other ∧ p.deletedAt = none) := by
    funext p
    simp only [Function.comp_apply]
    split <;> rfl
  rw [hsame]
  change (db.liveProfile other).map _ = _
  cases hlive : db.liveProfile other with
  | none =>
    split
    · next heq =>
      rw [← heq, hlive]
      rfl
    · rfl
  | some p =>
    obtain ⟨hid, hdeleted⟩ := of_liveProfile hlive
    split
    · next heq =>
      subst heq
      rw [hlive, map_some, map_some, if_pos ⟨hid, hdeleted⟩]
    · next hne =>
      rw [map_some, if_neg fun hp => hne (hid.symm.trans hp.1)]

end

/-- What becomes of the state in a write: only an update that the store accepts is noted. -/
theorem write_cases (s : State) (i now : ℕ) (r : Request) :
    (¬Writes s r now ∧ (s.write i now r).requests = s.requests.eraseIdx i ∧
      (s.write i now r).stored = s.stored ∧
      ∀ id, (s.write i now r).version id = s.version id) ∨
    (Writes s r now ∧ (s.write i now r).requests = s.requests.eraseIdx i ∧
      (s.write i now r).stored = ⟨r.profileId, r.ifMatch, s.version r.profileId, now⟩ :: s.stored ∧
      ∀ id, (s.write i now r).version id = if id = r.profileId then some now else s.version id) := by
  unfold Writes State.write storeUpdate
  cases hupdate : s.db.updateProfile now r.profileId r.updateFields with
  | error e => exact .inl ⟨by simp, rfl, rfl, fun _ => rfl⟩
  | ok db' =>
    have hlive := liveProfile_updateProfile hupdate
    have hself := hlive r.profileId
    rw [if_pos rfl] at hself
    dsimp only
    cases hfound : s.db.liveProfile r.profileId with
    | none =>
      rw [hfound, map_none] at hself
      rw [hself]
      refine .inl ⟨by simp, rfl, rfl, fun id => ?_⟩
      change (db'.liveProfile id).bind _ = (s.db.liveProfile id).bind _
      rw [hlive id]
      split
      · next heq => rw [heq, hfound, map_none]
      · rfl
    | some p =>
      rw [hfound, map_some] at hself
      rw [hself]
      refine .inr ⟨by simp, rfl, rfl, fun id => ?_⟩
      change (db'.liveProfile id).bind _ = _
      rw [hlive id]
      split
      · rw [hfound]
        rfl
      · rfl

/-! ## What a request has read -/

/-- A request that was compared has read the version the profile had then, and its header
passed the comparison with it. -/
def Read (s : State) (q : Running) : Prop :=
  ∀ p n, q.read = some (p, n) →
    (s.versions q.request.profileId).reverse[n]? = some p.updatedAt ∧
      mismatch q.request.ifMatch p.updatedAt = false

/-- Each stored update follows the one before it, and each request in flight has read. -/
structure Inv (s : State) : Prop where
  chain : ∀ id, ∃ v, s.versions id = (s.storedOf id).map (fun e => some e.version) ++ [v]
  reads : ∀ q ∈ s.requests, Read s q

variable {s t : State}

theorem Read.mono {q : Running} (h : Read s q) (hversions : ∀ id, s.versions id <:+ t.versions id) :
    Read t q := by
  intro p n hread
  obtain ⟨hat, hpassed⟩ := h p n hread
  obtain ⟨hlt, -⟩ := List.getElem?_eq_some_iff.mp hat
  obtain ⟨newer, hnewer⟩ := hversions q.request.profileId
  refine ⟨?_, hpassed⟩
  rw [← hnewer, reverse_append, getElem?_append_left hlt, hat]

theorem storedOf_cons (s : State) (e : Stored) (id : String) :
    ({ s with stored := e :: s.stored } : State).storedOf id =
      if e.profileId = id then e :: s.storedOf id else s.storedOf id := by
  unfold State.storedOf
  by_cases h : e.profileId = id
  · rw [if_pos h, filter_cons_of_pos (by simpa using h)]
  · rw [if_neg h, filter_cons_of_neg (by simpa using h)]

/-- A stored update is the newest of its profile, over the version that was there. -/
theorem versions_of_stored {e : Stored} (hstored : t.stored = e :: s.stored)
    (hoverwrote : e.overwrote = s.version e.profileId)
    (hversion : ∀ id, t.version id = if id = e.profileId then some e.version else s.version id)
    (id : String) :
    t.storedOf id = (if e.profileId = id then e :: s.storedOf id else s.storedOf id) ∧
      t.versions id =
        if e.profileId = id then some e.version :: s.versions id else s.versions id := by
  have hof : t.storedOf id = if e.profileId = id then e :: s.storedOf id else s.storedOf id := by
    rw [← storedOf_cons, State.storedOf, hstored, State.storedOf]
  refine ⟨hof, ?_⟩
  rw [State.versions, hof, hversion id]
  by_cases h : e.profileId = id
  · subst h
    rw [if_pos rfl, if_pos rfl, if_pos rfl, map_cons, hoverwrote]
    rfl
  · rw [if_neg (Ne.symm h), if_neg h, if_neg h]
    rfl

/-- With nothing stored and no version changed, the versions stay. -/
theorem versions_of_same (hstored : t.stored = s.stored) (hversion : ∀ id, t.version id = s.version id)
    (id : String) : t.storedOf id = s.storedOf id ∧ t.versions id = s.versions id := by
  have hof : t.storedOf id = s.storedOf id := by rw [State.storedOf, hstored, State.storedOf]
  exact ⟨hof, by rw [State.versions, hof, hversion, State.versions]⟩

/-! ## What a step does -/

theorem read_moveOn (hreads : ∀ q ∈ s.requests, Read s q) {i : ℕ} {next : Except Reply Pc}
    (hnext : ∀ pc, next = .ok pc → Read s ⟨r, pc⟩) :
    ∀ q ∈ (s.moveOn i r next).requests, Read s q := by
  cases next with
  | error reply => exact fun q hq => hreads q (mem_of_mem_eraseIdx hq)
  | ok pc => exact InFlight.forall_mem_set hreads (hnext pc rfl)

theorem stored_moveOn (s : State) (i : ℕ) (r : Request) (next : Except Reply Pc) :
    (s.moveOn i r next).stored = s.stored ∧ ∀ id, (s.moveOn i r next).version id = s.version id := by
  cases next <;> exact ⟨rfl, fun _ => rfl⟩

theorem checkVersion_eq_ok {found : Option ProfileRow} (h : checkVersion r found = .ok p) :
    found = some p ∧ mismatch r.ifMatch p.updatedAt = false := by
  cases found with
  | none => cases h
  | some q =>
    simp only [checkVersion] at h
    split at h
    · cases h
    · split at h
      · cases h
      · next hpassed =>
        obtain rfl := Except.ok.inj h
        exact ⟨rfl, by simpa using hpassed⟩

/-- The comparison reads the present version. -/
theorem read_compared (h : checkVersion r (s.db.liveProfile r.profileId) = .ok p) :
    Read s ⟨r, .compared p (s.storedOf r.profileId).length⟩ := by
  obtain ⟨hfound, hpassed⟩ := checkVersion_eq_ok h
  intro q n hread
  cases hread
  refine ⟨?_, hpassed⟩
  rw [State.versions, reverse_cons, getElem?_append_right (by simp)]
  simp [State.version, hfound]

/-- A step stores an update that has got through the handler, or it stores nothing. -/
theorem step_cases (hreads : ∀ q ∈ s.requests, Read s q) (h : step s a = some t) :
    (t.stored = s.stored ∧ (∀ id, t.version id = s.version id) ∧ (∀ q ∈ t.requests, Read s q) ∧
      Unmoved s a) ∨
    ∃ i now r p n, a = .write i now ∧ s.requests[i]? = some ⟨r, .checked p n⟩ ∧ Writes s r now ∧
      t.requests = s.requests.eraseIdx i ∧
      t.stored = ⟨r.profileId, r.ifMatch, s.version r.profileId, now⟩ :: s.stored ∧
      ∀ id, t.version id = if id = r.profileId then some now else s.version id := by
  cases a with
  | arrive r =>
    obtain rfl := some.inj h
    refine .inl ⟨rfl, fun _ => rfl, InFlight.forall_mem_append_singleton hreads ?_, trivial⟩
    intro p n hread
    cases hread
  | compare i =>
    simp only [step] at h
    split at h
    · next r hr =>
      obtain rfl := some.inj h
      obtain ⟨hstored, hversion⟩ := stored_moveOn s i r
        ((checkVersion r (s.db.liveProfile r.profileId)).map
          (fun p => .compared p (s.storedOf r.profileId).length))
      refine .inl ⟨hstored, hversion, read_moveOn hreads ?_, trivial⟩
      intro pc hpc
      cases hcheck : checkVersion r (s.db.liveProfile r.profileId) with
      | error reply =>
        rw [hcheck] at hpc
        cases hpc
      | ok p =>
        rw [hcheck] at hpc
        cases hpc
        exact read_compared hcheck
    · cases h
  | validate i =>
    simp only [step] at h
    split at h
    · next r p n hr =>
      obtain rfl := some.inj h
      obtain ⟨hstored, hversion⟩ := stored_moveOn s i r
        ((checkSets r (validSetIds s.db p.festivalId)).map (fun _ => .checked p n))
      refine .inl ⟨hstored, hversion, read_moveOn hreads ?_, trivial⟩
      intro pc hpc
      have hread := hreads _ (mem_of_getElem? hr)
      cases hcheck : checkSets r (validSetIds s.db p.festivalId) with
      | error reply =>
        rw [hcheck] at hpc
        cases hpc
      | ok _ =>
        rw [hcheck] at hpc
        cases hpc
        exact hread
    · cases h
  | write i now =>
    simp only [step] at h
    split at h
    · next r p n hr =>
      obtain rfl := some.inj h
      rcases write_cases s i now r with
        ⟨hnot, hrequests, hstored, hversion⟩ | ⟨hwrites, hrequests, hstored, hversion⟩
      · refine .inl ⟨hstored, hversion, ?_, ?_⟩
        · rw [hrequests]
          exact fun q hq => hreads q (mem_of_mem_eraseIdx hq)
        · intro r' p' n' hr' hwrites
          rw [hr] at hr'
          cases hr'
          exact absurd hwrites hnot
      · exact .inr ⟨i, now, r, p, n, rfl, hr, hwrites, hrequests, hstored, hversion⟩
    · cases h

theorem inv_step (hinv : Inv s) (h : step s a = some t) : Inv t := by
  rcases step_cases hinv.reads h with ⟨hstored, hversion, hreads, -⟩ |
    ⟨i, now, r, p, n, rfl, hr, hwrites, hrequests, hstored, hversion⟩
  · have hsame := versions_of_same hstored hversion
    refine ⟨fun id => ?_, fun q hq => (hreads q hq).mono fun id => ?_⟩
    · rw [(hsame id).1, (hsame id).2]
      exact hinv.chain id
    · rw [(hsame id).2]
  · have hnew := versions_of_stored hstored rfl hversion
    refine ⟨fun id => ?_, fun q hq => ?_⟩
    · obtain ⟨v, hv⟩ := hinv.chain id
      obtain ⟨hof, hversions⟩ := hnew id
      refine ⟨v, ?_⟩
      rw [hof, hversions]
      split
      · rw [hv, map_cons, cons_append]
      · exact hv
    · rw [hrequests] at hq
      refine (hinv.reads q (mem_of_mem_eraseIdx hq)).mono fun id => ?_
      rw [(hnew id).2]
      split
      · exact suffix_cons _ _
      · exact suffix_refl _

theorem inv_start (db : Db) : Inv (start db) :=
  ⟨fun id => ⟨(start db).version id, rfl⟩, fun _ hq => (nomatch hq)⟩

/-! ## No lost update -/

/-- A list that is shifted by one between two readings is a chain. -/
theorem isChain_of_shift {α β : Type} {f g : α → β} {l : List α} {x v : β}
    (h : x :: l.map f = l.map g ++ [v]) : l.IsChain (fun a b => f a = g b) := by
  induction l generalizing x with
  | nil => exact .nil
  | cons a l ih =>
    rw [map_cons, map_cons, cons_append, List.cons.injEq] at h
    have hrest := ih h.2
    cases l with
    | nil => exact .singleton a
    | cons b l =>
      have hhead := h.2
      rw [map_cons, map_cons, cons_append, List.cons.injEq] at hhead
      exact hrest.cons_cons hhead.1

/-- Updates that name what they overwrote, of versions that are all distinct, lose nothing. -/
theorem noLostUpdates_of (hinv : Inv s)
    (hnamed : ∀ e ∈ s.stored, ∃ v, e.overwrote = some v ∧ e.ifMatch = etag v)
    (hdistinct : ∀ id, ((s.versions id).map (Option.map etag)).Nodup) : NoLostUpdates s := by
  have hheader : ∀ e ∈ s.stored, some e.ifMatch = e.overwrote.map etag := by
    intro e he
    obtain ⟨v, hv, hmatch⟩ := hnamed e he
    rw [hv, hmatch, map_some]
  refine ⟨hnamed, fun id => ?_, fun id => ?_, hdistinct⟩
  · have hnodup := (nodup_cons.mp (hdistinct id)).2
    rw [List.map_map] at hnodup
    have hsame : ((s.storedOf id).map Stored.ifMatch).map some =
        (s.storedOf id).map (Option.map etag ∘ Stored.overwrote) := by
      rw [List.map_map]
      exact map_congr_left fun e he => hheader e (mem_of_mem_filter he)
    rw [← hsame] at hnodup
    exact hnodup.of_map some
  · obtain ⟨v, hv⟩ := hinv.chain id
    refine List.IsChain.imp_of_mem_imp (fun e earlier he _ heq => ?_) (isChain_of_shift hv)
    have hmatch := hheader e (mem_of_mem_filter he)
    rw [heq, map_some] at hmatch
    exact some.inj hmatch

/-- In a state without lost updates, a stored update names what it overwrites under a new
version exactly when its header was compared with the version that is still there. -/
theorem named_iff {n : ℕ} {pc : Pc} (hs : NoLostUpdates s) (hread : Read s ⟨r, pc⟩)
    (hpc : (⟨r, pc⟩ : Running).read = some (p, n)) :
    (∃ v, s.version r.profileId = some v ∧ r.ifMatch = etag v) ↔
      (r.ifMatch ≠ "" ∧ p.updatedAt.isSome = true) ∧ n = (s.storedOf r.profileId).length := by
  obtain ⟨hat, hpassed⟩ := hread p n hpc
  have hlength : (s.versions r.profileId).reverse.length =
      (s.storedOf r.profileId).length + 1 := by
    simp [State.versions]
  have hlast : (s.versions r.profileId).reverse[(s.storedOf r.profileId).length]? =
      some (s.version r.profileId) := by
    rw [State.versions, reverse_cons, getElem?_append_right (by simp)]
    simp
  constructor
  · rintro ⟨v, hv, hmatch⟩
    have hne : r.ifMatch ≠ "" := hmatch ▸ etag_ne_empty
    cases hu : p.updatedAt with
    | none =>
      -- every version that was overwritten is one
      have hmem := mem_reverse.mp (mem_of_getElem? hat)
      rw [State.versions, hv, hu, mem_cons] at hmem
      obtain ⟨e, he, hoverwrote⟩ := List.mem_map.mp (hmem.resolve_left (by simp))
      obtain ⟨w, hw, -⟩ := hs.named e (mem_of_mem_filter he)
      rw [hw] at hoverwrote
      cases hoverwrote
    | some u =>
      rw [hu] at hat hpassed
      have hu : r.ifMatch = etag u := by
        by_contra hother
        exact of_decide_eq_false hpassed ⟨hne, hother⟩
      have hnodup : (((s.versions r.profileId).reverse).map (Option.map etag)).Nodup := by
        rw [map_reverse]
        exact nodup_reverse.mpr (hs.distinct r.profileId)
      obtain ⟨hlt, -⟩ := List.getElem?_eq_some_iff.mp hat
      refine ⟨⟨hne, rfl⟩, (getElem?_inj (by simpa using hlt) hnodup).mp ?_⟩
      rw [getElem?_map, getElem?_map, hat, hlast, hv, map_some, map_some,
        map_some, map_some, ← hu, hmatch]
  · rintro ⟨⟨hne, hsome⟩, rfl⟩
    obtain ⟨u, hu⟩ := isSome_iff_exists.mp hsome
    rw [hlast, hu, some.injEq] at hat
    refine ⟨u, hat, ?_⟩
    rw [hu] at hpassed
    have hor := of_decide_eq_false hpassed
    by_contra hother
    exact hor ⟨hne, hother⟩

/-- A step from a state without lost updates leads to one exactly when it is `Unmoved`. -/
theorem noLostUpdates_step (hinv : Inv s) (hs : NoLostUpdates s) (h : step s a = some t) :
    NoLostUpdates t ↔ Unmoved s a := by
  have hinvt := inv_step hinv h
  rcases step_cases hinv.reads h with ⟨hstored, hversion, -, hunmoved⟩ |
    ⟨i, now, r, p, n, rfl, hr, hwrites, hrequests, hstored, hversion⟩
  · refine iff_of_true (noLostUpdates_of hinvt ?_ fun id => ?_) hunmoved
    · rw [hstored]
      exact hs.named
    · rw [(versions_of_same hstored hversion id).2]
      exact hs.distinct id
  · have hread := hinv.reads _ (mem_of_getElem? hr)
    have hnamed := named_iff hs hread rfl
    have hnew := versions_of_stored hstored rfl hversion
    constructor
    · intro ht r' p' n' hr' _
      rw [hr] at hr'
      cases hr'
      have hdistinct := ht.distinct r.profileId
      rw [(hnew r.profileId).2, if_pos rfl] at hdistinct
      obtain ⟨v, hv⟩ := ht.named _ (by rw [hstored]; exact mem_cons_self)
      obtain ⟨hcompared, hsince⟩ := hnamed.mp ⟨v, hv⟩
      exact ⟨hcompared, hsince, (nodup_cons.mp hdistinct).1⟩
    · intro hunmoved
      obtain ⟨hcompared, hsince, hfresh⟩ := hunmoved r p n hr hwrites
      refine noLostUpdates_of hinvt ?_ fun id => ?_
      · rw [hstored, forall_mem_cons]
        exact ⟨hnamed.mpr ⟨hcompared, hsince⟩, hs.named⟩
      · rw [(hnew id).2]
        split
        · next heq =>
          subst heq
          exact nodup_cons.mpr ⟨hfresh, hs.distinct r.profileId⟩
        · exact hs.distinct id

theorem noLostUpdates_start (db : Db) : NoLostUpdates (start db) := by
  refine noLostUpdates_of (inv_start db) (fun _ he => (nomatch he)) fun id => ?_
  exact nodup_singleton _

/-- Updates that carry If-Match lose nothing in exactly the runs in which each write comes with
a header that was compared with a version, with nothing stored since, and at a time that is the
version of no earlier state. -/
theorem ifMatch_prevents_lostUpdates {db : Db} {as : List Action} {t : State}
    (hrun : Machine.run step (start db) as = some t) :
    Machine.Always step NoLostUpdates (start db) as ↔ Machine.Meets step Unmoved (start db) as :=
  Machine.always_iff_meets_of_inv (fun _ _ _ hI _ => inv_step hI) (fun _ _ _ => noLostUpdates_step)
    (inv_start db) (noLostUpdates_start db) hrun

/-- Ana's profile, last stored at a time. -/
def anaAt (updatedAt : ℕ) : Db :=
  { onePick with
    profiles := onePick.profiles.map (fun p => { p with updatedAt := some updatedAt }) }

/-- Ana picks the second set, over the version of a time. -/
def pickEcho (seen : ℕ) : Request :=
  { userId := "ana", profileId := "p1", ifMatch := etag seen
    picks := some ⟨[("s2", "must")], nodup_singleton _⟩ }

/-- Two devices name the first version one after the other; the second is refused, and names
the new version then. -/
def inTurn : List Action :=
  [.arrive (pickEcho 0), .arrive (pickEcho 0), .compare 0, .validate 0, .write 0 1, .compare 0,
    .arrive (pickEcho 1), .compare 0, .validate 0, .write 0 2]

theorem inTurn_prevents : ∃ t, Machine.run step (start (anaAt 0)) inTurn = some t ∧
    t.stored.length = 2 ∧ Machine.Always step NoLostUpdates (start (anaAt 0)) inTurn := by
  refine ⟨_, rfl, rfl, (ifMatch_prevents_lostUpdates rfl).mpr
    ⟨trivial, trivial, trivial, trivial, ?_, trivial, trivial, trivial, trivial, ?_, trivial⟩⟩
  · intro r p n hr _
    cases hr
    exact ⟨by decide, by decide, by decide⟩
  · intro r p n hr _
    cases hr
    exact ⟨by decide, by decide, by decide⟩

/-- **Two devices name the same version**: both are compared before either writes, and both are
stored. -/
theorem same_version_stored_twice : ¬∀ (db : Db) (as : List Action) (t : State),
    Machine.run step (start db) as = some t → NoLostUpdates t := by
  intro h
  have hlost := h (anaAt 0) [.arrive (pickEcho 0), .arrive (pickEcho 0), .compare 0, .compare 1,
    .validate 0, .validate 1, .write 0 1, .write 0 2] _ rfl
  have honce := hlost.once "p1"
  revert honce
  decide

end FestivalPlanner.Lineup.IfMatch
