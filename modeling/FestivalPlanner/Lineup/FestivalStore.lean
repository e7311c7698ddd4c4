import FestivalPlanner.Lib.InFlight
import FestivalPlanner.Lib.Machine

/-!
# The selected festival in the store of the client

`selectFestival` and `loadProfiles` with their requests and answers in any order, and the
rehydration of what an earlier session persisted.

* `Store`, `partialize`, `merge` — what is in the store, what is persisted, and rehydrated;
* `selected`, `profilesLoaded` — what the two actions make of their answers;
* `State`, `step` — the actions under way, and from which requests the data is;
* `Matches` — all data belongs to the festival that is selected;
* `Fresh` — no answer is replaced by a persisted snapshot or by that of an older request;
* `Careful` — answers that are still wanted, and a snapshot that nothing is newer than;
* `never_mixed` — data of two festivals is never mixed in a run of careful steps.
-/

namespace FestivalPlanner.FestivalStore

open List Option InFlight

/-! ## What is stored -/

structure Festival where
  id : String
  name : String

structure Stage where
  id : String
  name : String
  festivalId : String

structure FestivalDay where
  id : String
  festivalId : String
  date : String
  label : Option String
  dayIndex : Option ℕ

structure FestivalSet where
  id : String
  festivalId : String
  stageId : String
  date : Option String
  dayIndex : Option ℕ

structure Profile where
  id : String
  userId : String
  festivalId : String
  name : Option String
  picks : List (String × String)
  notes : List (String × String)
  reminders : Option (List (String × ℕ))
  updatedAt : String

/-- The answer to `GET /festivals/:id`; a day may come without sets. -/
structure FestivalDetailResponse where
  festival : Festival
  stages : List Stage
  days : List (FestivalDay × Option (List FestivalSet))

structure Store where
  currentFestivalId : Option String
  currentFestival : Option Festival
  currentProfile : Option Profile
  allProfiles : List Profile
  sets : List FestivalSet
  stages : List Stage
  days : List FestivalDay
  festivalCachedAt : Option ℕ
  profilesCachedAt : Option ℕ
  cachedFestivalId : Option String

/-- The store of a first start. -/
def Store.initial : Store := ⟨none, none, none, [], [], [], [], none, none, none⟩

/-- `MAX_CACHED_PROFILES` -/
def maxCachedProfiles : ℕ := 60

/-- `slimProfileForCache`, and the other fields as they are backfilled. -/
def slimProfileForCache (cachedFestivalId : Option String) (p : Profile) : Profile where
  id := p.id
  userId := p.userId
  festivalId := cachedFestivalId.getD ""
  name := p.name
  picks := p.picks
  notes := []
  reminders := none
  updatedAt := ""

/-- What is persisted of the store. -/
def partialize (s : Store) : Store :=
  { s with
    allProfiles := (s.allProfiles.take maxCachedProfiles).map
      (slimProfileForCache s.cachedFestivalId) }

/-- Another festival is selected than in the snapshot: the live state stays. -/
def keepsLive (persisted current : Store) : Bool :=
  current.currentFestivalId.isSome && persisted.currentFestivalId != current.currentFestivalId

/-- `merge`; nothing is persisted before the first change. -/
def merge (persisted : Option Store) (current : Store) : Store :=
  match persisted with
  | none => current
  | some p => if keepsLive p current then current else p

/-! ## What the actions make of their answers -/

/-- The sets of all days, with the index and the date of their day. -/
def flattenSets (days : List (FestivalDay × Option (List FestivalSet))) : List FestivalSet :=
  (days.zipIdx.map fun (day, i) => (day.2.getD []).map fun s =>
    { s with dayIndex := some i, date := some day.1.date }).flatten

def indexDays (days : List (FestivalDay × Option (List FestivalSet))) : List FestivalDay :=
  days.zipIdx.map fun (day, i) => { day.1 with dayIndex := some i }

/-- The profile of the user who is logged in. -/
def ownProfile (userId : Option String) (profiles : List Profile) : Option Profile :=
  userId.bind fun id => profiles.find? fun p => p.userId == id

/-- The profile that `selectFestival` keeps when the profiles cannot be fetched. -/
def keptProfile (s : Store) (festivalId : String) : Option Profile :=
  s.currentProfile.filter fun p => p.festivalId == festivalId

/-- What `selectFestival` sets; there are no profiles when their request has failed. -/
def selected (s : Store) (festivalId : String) (detail : FestivalDetailResponse)
    (profiles : Option (List Profile)) (userId : Option String) (now : ℕ) : Store where
  currentFestivalId := some festivalId
  currentFestival := some detail.festival
  sets := flattenSets detail.days
  stages := detail.stages
  days := indexDays detail.days
  allProfiles := match profiles with
    | some profiles => profiles
    | none => if s.cachedFestivalId = some festivalId then s.allProfiles else []
  currentProfile := match profiles with
    | some profiles => ownProfile userId profiles
    | none => keptProfile s festivalId
  festivalCachedAt := some now
  cachedFestivalId := some festivalId
  profilesCachedAt := if profiles.isSome then some now else s.profilesCachedAt

/-- What `loadProfiles` sets; pending writes keep what the user has entered. -/
def profilesLoaded (s : Store) (festivalId : String) (profiles : List Profile)
    (userId : Option String) (hasPendingWrites : Bool) (now : ℕ) : Store :=
  let serverProfile := ownProfile userId profiles
  { s with
    allProfiles := profiles
    currentProfile := serverProfile.map fun own =>
      match s.currentProfile with
      | some p =>
          if hasPendingWrites && p.id == own.id then
            { own with picks := p.picks, notes := p.notes, reminders := p.reminders }
          else own
      | none => own
    profilesCachedAt := some now
    cachedFestivalId := some festivalId }

/-! ## Runs -/

/-- An action under way, with the number of the request that it waits for. -/
inductive Job where
  /-- `selectFestival` waits for the festival -/
  | detail (festivalId : String) (request : ℕ)
  /-- `selectFestival` has the festival and waits for the profiles -/
  | profiles (festivalId : String) (request : ℕ) (detail : FestivalDetailResponse)
      (profilesRequest : ℕ)
  /-- `loadProfiles` waits for the profiles -/
  | load (festivalId : String) (request : ℕ)

/-- The festival and the number of the request that some data is from, if it is from this
session. -/
abbrev Origin := Option (String × ℕ)

structure State where
  store : Store
  /-- `_lastSelectFestivalId` -/
  lastSelect : Option String
  jobs : List Job
  /-- what was persisted when the session began, until it is merged -/
  persisted : Option (Option Store)
  /-- how many requests there were -/
  requests : ℕ
  /-- where the festival with its sets, stages and days is from, all profiles, and the own one -/
  detailFrom : Origin
  profilesFrom : Origin
  ownFrom : Origin

inductive Action where
  | selectFestival (festivalId : String)
  /-- the answer to the request of a festival; the user who is logged in then, and the clock -/
  | detail (i : ℕ) (answer : FestivalDetailResponse) (userId : Option String) (now : ℕ)
  /-- the request of the festival fails and is made again, or the action fails -/
  | detailFails (i : ℕ) (retry : Bool)
  /-- the answer to the request of the profiles, if it is not a failure -/
  | profiles (i : ℕ) (answer : Option (List Profile)) (userId : Option String) (now : ℕ)
  | loadProfiles (festivalId : String)
  | loaded (i : ℕ) (answer : Option (List Profile)) (userId : Option String)
      (hasPendingWrites : Bool) (now : ℕ)
  | rehydrate

/-- The answer is about the festival that is asked for. -/
def FestivalDetailResponse.isOf (d : FestivalDetailResponse) (festivalId : String) : Bool :=
  d.festival.id == festivalId && d.stages.all (·.festivalId == festivalId) &&
    d.days.all fun day => day.1.festivalId == festivalId &&
      (day.2.getD []).all (·.festivalId == festivalId)

def areOf (profiles : List Profile) (festivalId : String) : Bool :=
  profiles.all (·.festivalId == festivalId)

/-- The end of `selectFestival`, which another one may have superseded; a guest has made no request
for profiles. -/
def State.finishSelect (s : State) (festivalId : String) (request : ℕ)
    (detail : FestivalDetailResponse) (profiles : Option (List Profile))
    (profilesRequest : Option ℕ) (userId : Option String) (now : ℕ) : State :=
  if s.lastSelect = some festivalId then
    { s with
      store := selected s.store festivalId detail profiles userId now
      detailFrom := some (festivalId, request)
      profilesFrom := match profiles with
        | some _ => profilesRequest.map (festivalId, ·)
        | none => s.profilesFrom.filter fun _ => s.store.cachedFestivalId == some festivalId
      ownFrom := match profiles with
        | some _ => profilesRequest.map (festivalId, ·)
        | none => s.ownFrom.filter fun _ => (keptProfile s.store festivalId).isSome }
  else s

def step (s : State) : Action → Option State
  | .selectFestival festivalId => some { s with
      store := { s.store with currentFestivalId := some festivalId }
      lastSelect := some festivalId
      jobs := s.jobs ++ [.detail festivalId s.requests]
      requests := s.requests + 1 }
  | .detail i answer userId now => s.jobs[i]?.bind fun job =>
      match job with
      | .detail festivalId request =>
          if answer.isOf festivalId then
            if userId.isSome then some { s with
              jobs := s.jobs.set i (.profiles festivalId request answer s.requests)
              requests := s.requests + 1 }
            else some ({ s with jobs := s.jobs.eraseIdx i }.finishSelect festivalId request answer
              (some []) none none now)
          else none
      | _ => none
  | .detailFails i retry => s.jobs[i]?.bind fun job =>
      match job with
      | .detail festivalId _ =>
          if retry then some { s with
            jobs := s.jobs.set i (.detail festivalId s.requests)
            requests := s.requests + 1 }
          else some { s with jobs := s.jobs.eraseIdx i }
      | _ => none
  | .profiles i answer userId now => s.jobs[i]?.bind fun job =>
      match job with
      | .profiles festivalId request detail profilesRequest =>
          if answer.all (areOf · festivalId) then
            some ({ s with jobs := s.jobs.eraseIdx i }.finishSelect festivalId request detail answer
              (some profilesRequest) userId now)
          else none
      | _ => none
  | .loadProfiles festivalId => some { s with
      jobs := s.jobs ++ [.load festivalId s.requests]
      requests := s.requests + 1 }
  | .loaded i answer userId hasPendingWrites now => s.jobs[i]?.bind fun job =>
      match job, answer with
      | .load festivalId request, some profiles =>
          if areOf profiles festivalId then some { s with
            store := profilesLoaded s.store festivalId profiles userId hasPendingWrites now
            jobs := s.jobs.eraseIdx i
            profilesFrom := some (festivalId, request)
            ownFrom := some (festivalId, request) }
          else none
      | .load _ _, none => some { s with jobs := s.jobs.eraseIdx i }
      | _, _ => none
  | .rehydrate => s.persisted.map fun persisted =>
      let adopted := persisted.any fun p => !keepsLive p s.store
      { s with
        store := merge persisted s.store
        persisted := none
        detailFrom := if adopted then none else s.detailFrom
        profilesFrom := if adopted then none else s.profilesFrom
        ownFrom := if adopted then none else s.ownFrom }

/-- A session begins; an earlier one has persisted its store, or nothing is persisted. -/
def start (before : Option Store) : State where
  store := .initial
  lastSelect := none
  jobs := []
  persisted := some (before.map partialize)
  requests := 0
  detailFrom := none
  profilesFrom := none
  ownFrom := none

/-! ## What should hold -/

/-- All data belongs to the festival that is selected, and the profiles are marked so. -/
structure Matches (s : Store) : Prop where
  festival : ∀ f ∈ s.currentFestival, s.currentFestivalId = some f.id
  sets : ∀ x ∈ s.sets, s.currentFestivalId = some x.festivalId
  stages : ∀ x ∈ s.stages, s.currentFestivalId = some x.festivalId
  days : ∀ x ∈ s.days, s.currentFestivalId = some x.festivalId
  currentProfile : ∀ p ∈ s.currentProfile, s.currentFestivalId = some p.festivalId
  allProfiles : ∀ p ∈ s.allProfiles, s.currentFestivalId = some p.festivalId
  marked : ∀ p ∈ s.allProfiles, s.cachedFestivalId = some p.festivalId
  cached : ∀ c ∈ s.cachedFestivalId, s.currentFestivalId = some c

/-- When nothing is in flight, nothing is mixed. -/
def Settled (s : State) : Prop := s.jobs = [] → Matches s.store

/-- Data of a festival is not replaced by that of an older request. -/
def Origin.NotOlder (before after : Origin) : Prop :=
  ∀ x ∈ before, ∀ y ∈ after, x.1 = y.1 → x.2 ≤ y.2

/-- A step replaces no data by that of an older request, and a snapshot none of this session. -/
def Origin.Fresh (a : Action) (before after : Origin) : Prop :=
  match a with
  | .rehydrate => before.isSome → after = before
  | _ => before.NotOlder after

structure Fresh (s : State) (a : Action) (t : State) : Prop where
  detail : Origin.Fresh a s.detailFrom t.detailFrom
  profiles : Origin.Fresh a s.profilesFrom t.profilesFrom
  own : Origin.Fresh a s.ownFrom t.ownFrom

instance Matches.decidable (s : Store) : Decidable (Matches s) :=
  decidable_of_iff ((∀ f ∈ s.currentFestival, s.currentFestivalId = some f.id) ∧
      (∀ x ∈ s.sets, s.currentFestivalId = some x.festivalId) ∧
      (∀ x ∈ s.stages, s.currentFestivalId = some x.festivalId) ∧
      (∀ x ∈ s.days, s.currentFestivalId = some x.festivalId) ∧
      (∀ p ∈ s.currentProfile, s.currentFestivalId = some p.festivalId) ∧
      (∀ p ∈ s.allProfiles, s.currentFestivalId = some p.festivalId) ∧
      (∀ p ∈ s.allProfiles, s.cachedFestivalId = some p.festivalId) ∧
      ∀ c ∈ s.cachedFestivalId, s.currentFestivalId = some c)
    ⟨fun ⟨h1, h2, h3, h4, h5, h6, h7, h8⟩ => ⟨h1, h2, h3, h4, h5, h6, h7, h8⟩,
      fun ⟨h1, h2, h3, h4, h5, h6, h7, h8⟩ => ⟨h1, h2, h3, h4, h5, h6, h7, h8⟩⟩

/-- `selectFestival` for the given festival. -/
def Job.selects (festivalId : Option String) : Job → Bool
  | .detail f _ | .profiles f _ _ _ => festivalId == some f
  | .load _ _ => false

/-- The last `selectFestival` is under way. -/
def State.Selecting (s : State) : Prop := ∃ job ∈ s.jobs, job.selects s.lastSelect = true

/-- The data that is there is not from a younger request for the same festival. -/
def Origin.notAfter (o : Origin) (festivalId : String) (request : ℕ) : Prop :=
  ∀ x ∈ o, x.1 = festivalId → x.2 ≤ request

instance : DecidablePred State.Selecting := fun s =>
  inferInstanceAs (Decidable (∃ job ∈ s.jobs, job.selects s.lastSelect = true))

instance (o : Origin) (festivalId : String) (request : ℕ) :
    Decidable (o.notAfter festivalId request) :=
  inferInstanceAs (Decidable (∀ x ∈ o, x.1 = festivalId → x.2 ≤ request))

/-- The data matches without the job at a place, or another one will see to it. -/
def State.CanDo (s : State) (i : ℕ) : Prop :=
  Matches s.store ∨ { s with jobs := s.jobs.eraseIdx i }.Selecting

/-- An action that fails leaves matching data; profiles are those of the festival that is selected,
or this is still being loaded; answers are not older than what they replace; the snapshot matches
and replaces no answer. -/
def Careful (s : State) : Action → Prop
  | .detail i _ userId _ => ∀ job ∈ s.jobs[i]?,
      match job with
      | .detail festivalId request =>
          userId.isSome ∨ s.lastSelect ≠ some festivalId ∨ s.detailFrom.notAfter festivalId request
      | _ => True
  | .detailFails i retry => retry ∨ s.CanDo i
  | .profiles i answer _ _ => ∀ job ∈ s.jobs[i]?,
      match job with
      | .profiles festivalId request _ profilesRequest =>
          s.lastSelect ≠ some festivalId ∨ s.detailFrom.notAfter festivalId request ∧
            (answer.isNone ∨ s.profilesFrom.notAfter festivalId profilesRequest ∧
              s.ownFrom.notAfter festivalId profilesRequest)
      | _ => True
  | .loaded i answer _ _ _ => ∀ job ∈ s.jobs[i]?,
      match job with
      | .load festivalId request =>
          answer.isNone ∨ (s.store.currentFestivalId = some festivalId ∨ s.Selecting) ∧
            s.profilesFrom.notAfter festivalId request ∧ s.ownFrom.notAfter festivalId request
      | _ => True
  | .rehydrate => ∀ persisted ∈ s.persisted, ∀ p ∈ persisted, keepsLive p s.store ∨
      (Matches p ∨ s.Selecting) ∧ s.detailFrom.isNone ∧ s.profilesFrom.isNone ∧ s.ownFrom.isNone
  | _ => True

/-! ## The festival of the data -/

/-- The profiles that are marked with a festival belong to it. -/
def Labelled (s : Store) : Prop :=
  ∀ c ∈ s.cachedFestivalId, ∀ p ∈ s.allProfiles, p.festivalId = c

theorem labelled_partialize (s : Store) : Labelled (partialize s) := by
  intro c hc p hp
  obtain ⟨q, -, rfl⟩ := List.mem_map.mp hp
  have hcached : s.cachedFestivalId = some c := hc
  rw [slimProfileForCache, hcached]
  rfl

theorem areOf_iff {profiles : List Profile} {f : String} :
    areOf profiles f = true ↔ ∀ p ∈ profiles, p.festivalId = f := by
  simp [areOf]

variable {days : List (FestivalDay × Option (List FestivalSet))} {job : Job} {t : State}
  {a : Action}

theorem mem_flattenSets {x : FestivalSet} (hx : x ∈ flattenSets days) :
    ∃ day ∈ days, ∃ y ∈ day.2.getD [], y.festivalId = x.festivalId := by
  obtain ⟨sets, hsets, hx⟩ := mem_flatten.mp hx
  obtain ⟨⟨day, i⟩, hday, rfl⟩ := List.mem_map.mp hsets
  obtain ⟨y, hy, rfl⟩ := List.mem_map.mp hx
  exact ⟨day, (mem_zipIdx' hday).2 ▸ getElem_mem _, y, hy, rfl⟩

theorem mem_indexDays {x : FestivalDay} (hx : x ∈ indexDays days) :
    ∃ day ∈ days, day.1.festivalId = x.festivalId := by
  obtain ⟨⟨day, i⟩, hday, rfl⟩ := List.mem_map.mp hx
  exact ⟨day, (mem_zipIdx' hday).2 ▸ getElem_mem _, rfl⟩

theorem mem_ownProfile {userId : Option String} {profiles : List Profile} {p : Profile}
    (hp : ownProfile userId profiles = some p) : p ∈ profiles := by
  obtain ⟨id, -, hfind⟩ := bind_eq_some_iff.mp hp
  exact mem_of_find?_eq_some hfind

section
variable {s : Store} {f : String} {detail : FestivalDetailResponse}
  {profiles : Option (List Profile)} {userId : Option String} {now : ℕ}

theorem selected_allProfiles (hs : Labelled s)
    (hprofiles : profiles.all (areOf · f) = true) :
    ∀ p ∈ (selected s f detail profiles userId now).allProfiles, p.festivalId = f := by
  intro p hp
  cases profiles with
  | some profiles => exact areOf_iff.mp hprofiles p hp
  | none =>
    simp only [selected] at hp
    split at hp
    · rename_i hcached
      exact hs f hcached p hp
    · exact absurd hp not_mem_nil

theorem selected_currentProfile (hprofiles : profiles.all (areOf · f) = true) :
    ∀ p ∈ (selected s f detail profiles userId now).currentProfile, p.festivalId = f := by
  intro p hp
  cases profiles with
  | some profiles => exact areOf_iff.mp hprofiles p (mem_ownProfile hp)
  | none =>
    have hkept : keptProfile s f = some p := hp
    exact beq_iff_eq.mp (filter_eq_some_iff.mp hkept).2

/-- What `selectFestival` sets matches, whatever was there. -/
theorem matches_selected (hs : Labelled s) (hdetail : detail.isOf f = true)
    (hprofiles : profiles.all (areOf · f) = true) :
    Matches (selected s f detail profiles userId now) := by
  simp only [FestivalDetailResponse.isOf, Bool.and_eq_true, beq_iff_eq, List.all_eq_true] at hdetail
  obtain ⟨⟨hfestival, hstages⟩, hdays⟩ := hdetail
  have hall : ∀ p ∈ (selected s f detail profiles userId now).allProfiles, p.festivalId = f :=
    selected_allProfiles hs hprofiles
  constructor
  · intro x hx
    cases hx
    exact congrArg some hfestival.symm
  · intro x hx
    obtain ⟨day, hday, y, hy, heq⟩ := mem_flattenSets hx
    exact congrArg some (((hdays day hday).2 y hy).symm.trans heq)
  · exact fun x hx => congrArg some (hstages x hx).symm
  · intro x hx
    obtain ⟨day, hday, heq⟩ := mem_indexDays hx
    exact congrArg some ((hdays day hday).1.symm.trans heq)
  · exact fun p hp => congrArg some (selected_currentProfile hprofiles p hp).symm
  · exact fun p hp => congrArg some (hall p hp).symm
  · exact fun p hp => congrArg some (hall p hp).symm
  · exact fun c hc => hc

theorem labelled_selected (hs : Labelled s) (hprofiles : profiles.all (areOf · f) = true) :
    Labelled (selected s f detail profiles userId now) := by
  intro c hc p hp
  cases hc
  exact selected_allProfiles hs hprofiles p hp

variable {ps : List Profile} {pending : Bool}

theorem labelled_profilesLoaded (hps : areOf ps f = true) :
    Labelled (profilesLoaded s f ps userId pending now) := by
  intro c hc p hp
  cases hc
  exact areOf_iff.mp hps p hp

theorem profilesLoaded_currentProfile (hps : areOf ps f = true) :
    ∀ p ∈ (profilesLoaded s f ps userId pending now).currentProfile, p.festivalId = f := by
  intro p hp
  obtain ⟨own, hown, rfl⟩ := map_eq_some_iff.mp hp
  have hfestival := areOf_iff.mp hps own (mem_ownProfile hown)
  split
  · split <;> exact hfestival
  · exact hfestival

/-- Profiles of the festival that is selected match with the rest. -/
theorem matches_profilesLoaded (h : Matches s) (hf : s.currentFestivalId = some f)
    (hps : areOf ps f = true) : Matches (profilesLoaded s f ps userId pending now) where
  festival := h.festival
  sets := h.sets
  stages := h.stages
  days := h.days
  currentProfile := fun p hp =>
    hf.trans (congrArg some (profilesLoaded_currentProfile hps p hp).symm)
  allProfiles := fun p hp => hf.trans (congrArg some (areOf_iff.mp hps p hp).symm)
  marked := fun p hp => congrArg some (areOf_iff.mp hps p hp).symm
  cached := by
    intro c hc
    cases hc
    exact hf

end

/-! ## A step -/

/-- An answer that an action holds is about its festival. -/
def Job.Sound : Job → Prop
  | .profiles f _ answer _ => answer.isOf f = true
  | _ => True

/-- The data matches, or the last `selectFestival` will see to it. -/
structure Inv (s : State) : Prop where
  sound : ∀ job ∈ s.jobs, job.Sound
  labelled : Labelled s.store
  persisted : ∀ persisted ∈ s.persisted, ∀ p ∈ persisted, Labelled p
  settles : Matches s.store ∨ s.Selecting

theorem Inv.settled {s : State} (hi : Inv s) : Settled s := by
  intro hjobs
  refine hi.settles.resolve_right ?_
  rintro ⟨job, hjob, -⟩
  rw [hjobs] at hjob
  exact not_mem_nil hjob

section
variable {s : State} {i : ℕ} {f : String} {n m : ℕ} {detail : FestivalDetailResponse}

/-- Another action is under way. -/
theorem Inv.push (hi : Inv s) (job : Job) (hjob : job.Sound) (requests : ℕ) :
    Inv { s with jobs := s.jobs ++ [job], requests := requests } where
  sound := forall_mem_append_singleton hi.sound hjob
  labelled := hi.labelled
  persisted := hi.persisted
  settles := hi.settles.imp_right fun ⟨other, hother, hselects⟩ =>
    ⟨other, mem_append_left _ hother, hselects⟩

/-- An action goes on for the same festival. -/
theorem Inv.goOn (hi : Inv s) (hjob : s.jobs[i]? = some job) (next : Job) (hsound : next.Sound)
    (hnext : next.selects s.lastSelect = job.selects s.lastSelect) (requests : ℕ) :
    Inv { s with jobs := s.jobs.set i next, requests := requests } where
  sound := forall_mem_set hi.sound hsound
  labelled := hi.labelled
  persisted := hi.persisted
  settles := by
    refine hi.settles.imp_right ?_
    rintro ⟨other, hother, hselects⟩
    rcases mem_set_or hjob hother next with rfl | hmem
    · exact ⟨next, mem_set_self hjob next, hnext.trans hselects⟩
    · exact ⟨other, hmem, hselects⟩

/-- An action ends that is not the last `selectFestival`. -/
theorem selecting_erase (hjob : s.jobs[i]? = some job) (hother : job.selects s.lastSelect = false)
    (h : s.Selecting) : { s with jobs := s.jobs.eraseIdx i }.Selecting := by
  obtain ⟨other, hmem, hselects⟩ := h
  rcases mem_eraseIdx_or hjob hmem with rfl | hmem
  · rw [hother] at hselects
    cases hselects
  · exact ⟨other, hmem, hselects⟩

theorem Inv.sound_erase (hi : Inv s) (i : ℕ) : ∀ job ∈ s.jobs.eraseIdx i, job.Sound :=
  fun job hjob => hi.sound job (mem_of_mem_eraseIdx hjob)

theorem Inv.finish (hi : Inv s) (hjob : s.jobs[i]? = some job)
    (hselects : job.selects s.lastSelect = (s.lastSelect == some f))
    {profiles : Option (List Profile)} {profilesRequest : Option ℕ} {userId : Option String}
    {now : ℕ} (hdetail : detail.isOf f = true) (hprofiles : profiles.all (areOf · f) = true) :
    Inv ({ s with jobs := s.jobs.eraseIdx i }.finishSelect f n detail profiles profilesRequest
      userId now) := by
  have hsound := hi.sound_erase i
  unfold State.finishSelect
  split
  · exact ⟨hsound, labelled_selected hi.labelled hprofiles, hi.persisted,
      .inl (matches_selected hi.labelled hdetail hprofiles)⟩
  · rename_i hlast
    refine ⟨hsound, hi.labelled, hi.persisted, hi.settles.imp_right (selecting_erase hjob ?_)⟩
    rw [hselects]
    exact beq_eq_false_iff_ne.mpr hlast

end

theorem inv_step {s : State} (hi : Inv s) (hcareful : Careful s a) (hstep : step s a = some t) :
    Inv t := by
  cases a with
  | selectFestival f =>
    cases hstep
    refine ⟨forall_mem_append_singleton hi.sound trivial, hi.labelled, hi.persisted,
      .inr ⟨_, mem_append_right _ mem_cons_self, ?_⟩⟩
    exact beq_self_eq_true _
  | detail i answer userId now =>
    obtain ⟨job, hjob, hstep⟩ := bind_eq_some_iff.mp hstep
    cases job with
    | detail f n =>
      obtain ⟨hdetail, hstep⟩ := ite_none_right_eq_some.mp hstep
      split at hstep
      · obtain rfl := some.inj hstep
        exact hi.goOn hjob (.profiles f n answer s.requests) hdetail rfl _
      · obtain rfl := some.inj hstep
        exact hi.finish hjob rfl hdetail rfl
    | profiles f n detail m => cases hstep
    | load f n => cases hstep
  | detailFails i retry =>
    obtain ⟨job, hjob, hstep⟩ := bind_eq_some_iff.mp hstep
    cases job with
    | detail f n =>
      simp only at hstep
      split at hstep
      · obtain rfl := some.inj hstep
        exact hi.goOn hjob (.detail f s.requests) trivial rfl _
      · rename_i hretry
        obtain rfl := some.inj hstep
        exact ⟨hi.sound_erase i, hi.labelled, hi.persisted, hcareful.resolve_left hretry⟩
    | profiles f n detail m => cases hstep
    | load f n => cases hstep
  | profiles i answer userId now =>
    obtain ⟨job, hjob, hstep⟩ := bind_eq_some_iff.mp hstep
    cases job with
    | profiles f n detail m =>
      obtain ⟨hanswer, hstep⟩ := ite_none_right_eq_some.mp hstep
      obtain rfl := some.inj hstep
      exact hi.finish hjob rfl (hi.sound _ (mem_of_getElem? hjob)) hanswer
    | detail f n => cases hstep
    | load f n => cases hstep
  | loadProfiles f =>
    cases hstep
    exact hi.push (.load f s.requests) trivial _
  | loaded i answer userId pending now =>
    obtain ⟨job, hjob, hstep⟩ := bind_eq_some_iff.mp hstep
    cases job with
    | load f n =>
      have hselects : (Job.load f n).selects s.lastSelect = false := rfl
      cases answer with
      | none =>
        cases hstep
        exact ⟨hi.sound_erase i, hi.labelled, hi.persisted,
          hi.settles.imp_right (selecting_erase hjob hselects)⟩
      | some profiles =>
        obtain ⟨hprofiles, hstep⟩ := ite_none_right_eq_some.mp hstep
        obtain rfl := some.inj hstep
        obtain ⟨hfor, -⟩ := (hcareful _ hjob).resolve_left (by simp)
        refine ⟨hi.sound_erase i, labelled_profilesLoaded hprofiles, hi.persisted, ?_⟩
        rcases hi.settles with hmatches | hselecting
        · rcases hfor with hcurrent | hselecting
          · exact .inl (matches_profilesLoaded hmatches hcurrent hprofiles)
          · exact .inr (selecting_erase hjob hselects hselecting)
        · exact .inr (selecting_erase hjob hselects hselecting)
    | detail f n => cases hstep
    | profiles f n detail m => cases hstep
  | rehydrate =>
    obtain ⟨persisted, hpersisted, rfl⟩ := map_eq_some_iff.mp hstep
    cases persisted with
    | none => exact ⟨hi.sound, hi.labelled, fun _ h => absurd h (by simp), hi.settles⟩
    | some p =>
      have hlabelled := hi.persisted _ hpersisted p rfl
      cases hkeeps : keepsLive p s.store with
      | true =>
        refine ⟨hi.sound, ?_, fun _ h => absurd h (by simp), ?_⟩
        · simpa [merge, hkeeps] using hi.labelled
        · simpa [merge, hkeeps, State.Selecting] using hi.settles
      | false =>
        obtain ⟨hcan, -⟩ := (hcareful _ hpersisted p rfl).resolve_left (by simp [hkeeps])
        refine ⟨hi.sound, ?_, fun _ h => absurd h (by simp), ?_⟩
        · simpa [merge, hkeeps] using hlabelled
        · simpa [merge, hkeeps, State.Selecting] using hcan

/-! ## What is replaced -/

section
variable {o : Origin} {f : String} {n : ℕ}

theorem Origin.NotOlder.refl (o : Origin) : o.NotOlder o := by
  intro x hx y hy _
  obtain rfl := some.inj (hx.symm.trans hy)
  exact le_refl _

theorem Origin.NotOlder.filter (o : Origin) (p : String × ℕ → Bool) : o.NotOlder (o.filter p) :=
  fun x hx y hy => Origin.NotOlder.refl o x hx y (filter_eq_some_iff.mp hy).1

theorem Origin.notAfter.notOlder (h : o.notAfter f n) : o.NotOlder (some (f, n)) := by
  intro x hx y hy heq
  cases hy
  exact h x hx heq

theorem Origin.NotOlder.none (o : Origin) : o.NotOlder none :=
  fun _ _ _ hy => absurd hy (by simp)

end

/-- Nothing is replaced. -/
theorem Fresh.of_eq {s : State} (a : Action) (hdetail : t.detailFrom = s.detailFrom)
    (hprofiles : t.profilesFrom = s.profilesFrom) (hown : t.ownFrom = s.ownFrom) : Fresh s a t := by
  have hkeep : ∀ o : Origin, Origin.Fresh a o o := by
    intro o
    cases a with
    | rehydrate => exact fun _ => rfl
    | selectFestival | detail | detailFails | profiles | loadProfiles | loaded =>
      exact Origin.NotOlder.refl o
  exact ⟨hdetail ▸ hkeep _, hprofiles ▸ hkeep _, hown ▸ hkeep _⟩

theorem fresh_step {s : State} (hcareful : Careful s a) (hstep : step s a = some t) :
    Fresh s a t := by
  cases a with
  | selectFestival f =>
    cases hstep
    exact .of_eq _ rfl rfl rfl
  | detail i answer userId now =>
    obtain ⟨job, hjob, hstep⟩ := bind_eq_some_iff.mp hstep
    cases job with
    | detail f n =>
      obtain ⟨-, hstep⟩ := ite_none_right_eq_some.mp hstep
      split at hstep
      · obtain rfl := some.inj hstep
        exact .of_eq _ rfl rfl rfl
      · rename_i hguest
        obtain rfl := some.inj hstep
        unfold State.finishSelect
        split
        · rename_i hlast
          have hnot := ((hcareful _ hjob).resolve_left hguest).resolve_left (not_not_intro hlast)
          exact ⟨hnot.notOlder, .none _, .none _⟩
        · exact .of_eq _ rfl rfl rfl
    | profiles f n detail m => cases hstep
    | load f n => cases hstep
  | detailFails i retry =>
    obtain ⟨job, hjob, hstep⟩ := bind_eq_some_iff.mp hstep
    cases job with
    | detail f n =>
      simp only at hstep
      split at hstep <;> obtain rfl := some.inj hstep <;> exact .of_eq _ rfl rfl rfl
    | profiles f n detail m => cases hstep
    | load f n => cases hstep
  | profiles i answer userId now =>
    obtain ⟨job, hjob, hstep⟩ := bind_eq_some_iff.mp hstep
    cases job with
    | profiles f n detail m =>
      obtain ⟨-, hstep⟩ := ite_none_right_eq_some.mp hstep
      obtain rfl := some.inj hstep
      unfold State.finishSelect
      split
      · rename_i hlast
        obtain ⟨hdetail, hanswer⟩ := (hcareful _ hjob).resolve_left (not_not_intro hlast)
        cases answer with
        | none => exact ⟨hdetail.notOlder, .filter _ _, .filter _ _⟩
        | some profiles =>
          obtain ⟨hprofiles, hown⟩ := hanswer.resolve_left (by simp)
          exact ⟨hdetail.notOlder, hprofiles.notOlder, hown.notOlder⟩
      · exact .of_eq _ rfl rfl rfl
    | detail f n => cases hstep
    | load f n => cases hstep
  | loadProfiles f =>
    cases hstep
    exact .of_eq _ rfl rfl rfl
  | loaded i answer userId pending now =>
    obtain ⟨job, hjob, hstep⟩ := bind_eq_some_iff.mp hstep
    cases job with
    | load f n =>
      cases answer with
      | none =>
        cases hstep
        exact .of_eq _ rfl rfl rfl
      | some profiles =>
        obtain ⟨-, hstep⟩ := ite_none_right_eq_some.mp hstep
        obtain rfl := some.inj hstep
        obtain ⟨-, hprofiles, hown⟩ := (hcareful _ hjob).resolve_left (by simp)
        exact ⟨.refl _, hprofiles.notOlder, hown.notOlder⟩
    | detail f n => cases hstep
    | profiles f n detail m => cases hstep
  | rehydrate =>
    obtain ⟨persisted, hpersisted, rfl⟩ := map_eq_some_iff.mp hstep
    cases persisted with
    | none => exact .of_eq _ rfl rfl rfl
    | some p =>
      cases hkeeps : keepsLive p s.store with
      | true => exact .of_eq _ (by simp [hkeeps]) (by simp [hkeeps]) (by simp [hkeeps])
      | false =>
        obtain ⟨-, hdetail, hprofiles, hown⟩ :=
          (hcareful _ hpersisted p rfl).resolve_left (by simp [hkeeps])
        have hnone : ∀ {o : Origin} (after : Origin), o.isNone →
            Origin.Fresh .rehydrate o after := by
          intro o after ho hsome
          rw [isNone_iff_eq_none.mp ho] at hsome
          cases hsome
        exact ⟨hnone _ hdetail, hnone _ hprofiles, hnone _ hown⟩

/-! ## A run -/

theorem inv_start (before : Option Store) : Inv (start before) where
  sound := fun _ hjob => absurd hjob not_mem_nil
  labelled := fun _ _ _ hp => absurd hp not_mem_nil
  persisted := by
    intro persisted hpersisted p hp
    cases hpersisted
    obtain ⟨s, -, rfl⟩ := map_eq_some_iff.mp hp
    exact labelled_partialize s
  settles := .inl (by decide : Matches Store.initial)

/-- **Festivals are never mixed**, and nothing newer is replaced, in a run of careful steps,
whatever was persisted. -/
theorem never_mixed (before : Option Store) {as : List Action}
    (h : Machine.Meets step Careful (start before) as) :
    Machine.Always step Settled (start before) as ∧ Machine.Each step Fresh (start before) as := by
  have hinv : ∀ s a t, Inv s → Careful s a → step s a = some t → Inv t :=
    fun _ _ _ hi hcareful hstep => inv_step hi hcareful hstep
  exact ⟨Machine.always_of_meets hinv (fun _ hi => hi.settled) (inv_start before) h,
    Machine.each_of_meets hinv (fun _ _ _ _ hcareful hstep => fresh_step hcareful hstep)
      (inv_start before) h⟩

/-! ## Two runs -/

def detailOf (festivalId : String) : FestivalDetailResponse := ⟨⟨festivalId, "Open Air"⟩, [], []⟩

def aliceAt (festivalId : String) : Profile := ⟨"p1", "alice", festivalId, none, [], [], none, ""⟩

/-- Alice selects a festival and its data arrives. -/
def select (i : ℕ) (festivalId : String) : List Action :=
  [.selectFestival festivalId, .detail i (detailOf festivalId) (some "alice") 1,
    .profiles i (some [aliceAt festivalId]) (some "alice") 2]

/-- What an earlier session has left of a festival. -/
def before : Store := selected .initial "f" (detailOf "f") (some [aliceAt "f"]) (some "alice") 0

/-- A snapshot is merged, the profiles are reloaded, and the profiles of another festival cannot be
loaded. -/
def inOrder : List Action :=
  .rehydrate :: (select 0 "f" ++
    [.loadProfiles "f", .loaded 0 (some [aliceAt "f"]) (some "alice") false 3,
      .selectFestival "g", .detail 0 (detailOf "g") (some "alice") 4,
      .profiles 0 none (some "alice") 5])

theorem in_order_never_mixed :
    Machine.Always step Settled (start (some before)) inOrder ∧
      Machine.Each step Fresh (start (some before)) inOrder := by
  refine never_mixed (some before) ⟨?_, trivial, ?_, ?_, trivial, ?_, trivial, ?_, ?_, trivial⟩
  · intro persisted hpersisted p hp
    cases hpersisted
    cases hp
    exact .inr (by decide)
  · intro job hjob
    cases hjob
    exact .inl rfl
  · intro job hjob
    cases hjob
    exact .inr (by decide)
  · intro job hjob
    cases hjob
    exact .inr (by decide)
  · intro job hjob
    cases hjob
    exact .inl rfl
  · intro job hjob
    cases hjob
    exact .inr (by decide)

/-- The profiles of a festival are reloaded while another one is selected. -/
def lateReload : List Action :=
  select 0 "f" ++ .loadProfiles "f" :: (select 1 "g" ++
    [.loaded 0 (some [aliceAt "f"]) (some "alice") false 3])

theorem late_reload_mixes :
    ¬ ∀ (before : Option Store) (as : List Action),
      Machine.Always step Settled (start before) as ∧
        Machine.Each step Fresh (start before) as := by
  intro h
  have hrun : ∃ t, Machine.run step (start none) lateReload = some t ∧ t.jobs = [] ∧
      t.store.currentFestivalId = some "g" ∧ t.store.allProfiles = [aliceAt "f"] :=
    ⟨_, rfl, rfl, rfl, rfl⟩
  obtain ⟨t, ht, hjobs, hcurrent, hprofiles⟩ := hrun
  have hmatches := (h none lateReload).1.last ht hjobs
  have hmixed := hmatches.allProfiles (aliceAt "f") (by rw [hprofiles]; exact List.mem_cons_self)
  rw [hcurrent] at hmixed
  exact absurd hmixed (by decide)

end FestivalPlanner.FestivalStore
