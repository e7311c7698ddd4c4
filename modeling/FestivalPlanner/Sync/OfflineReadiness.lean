import FestivalPlanner.Lib.InFlight
import FestivalPlanner.Lib.Machine

/-!
# Offline readiness

The store behind "Download this festival for offline": `downloadForOffline` seeds the sections of a
festival, loads its schedule and then everything else at once, and the calls for several festivals,
or for one, may overlap.  The loaders only succeed or fail here.

* `patchSection`, `runSection`, `downloadForOffline` — what the code writes at which await;
* `step` — calls that start, go on and end, loads that settle in any order, and `clearReadiness`;
* `Truthful` — what the readiness has to say of every step;
* `Careful` — no section that has been synced is loaded again, and downloads do not overlap but for
  the one festival, and then end together;
* `truthful_iff` — **the steps of a run are truthful exactly when they are careful**.
-/

namespace FestivalPlanner.OfflineReadiness

open List Option Function

/-! ## The store -/

inductive ReadinessStatus where
  | idle
  | syncing
  | ready
  | error
  deriving DecidableEq

structure SectionReadiness where
  status : ReadinessStatus
  syncedAt : Option ℤ
  deriving DecidableEq

/-- The downloadable sections of a festival. -/
inductive ReadinessSection where
  | schedule
  | picks
  | crew
  | weather
  | art
  deriving DecidableEq

/-- A field for each of the sections. -/
abbrev FestivalReadiness := ReadinessSection → SectionReadiness

def emptySection : SectionReadiness := ⟨.idle, none⟩

def emptyReadiness : FestivalReadiness := fun _ => emptySection

/-- How far a call of `downloadForOffline` has come: the loader of its schedule is under way, or is
done; or the other ones are, as far as they are listed. -/
inductive Stage where
  | schedule
  | scheduled
  | rest (loading : List ReadinessSection)
  deriving DecidableEq

/-- A call of `downloadForOffline`. -/
structure Download where
  festivalId : String
  crewId : Option String
  stage : Stage
  deriving DecidableEq

/-- The store, the calls that are running, and how the last load of each section has ended. -/
structure State where
  byFestival : String → Option FestivalReadiness := fun _ => none
  downloadingFestivalId : Option String := none
  downloads : List Download := []
  lastLoad : String → ReadinessSection → Option Bool := fun _ _ => none

def State.initial : State := {}

/-- Is there a crew to download? -/
def hasCrew (crewId : Option String) : Bool := crewId.any (· ≠ "")

namespace State

def getReadiness (festivalId : String) (s : State) : FestivalReadiness :=
  (s.byFestival festivalId).getD emptyReadiness

def patchSection (festivalId : String) (sec : ReadinessSection) (next : SectionReadiness)
    (s : State) : State :=
  { s with
    byFestival := update s.byFestival festivalId
      (some (update (s.getReadiness festivalId) sec next)) }

/-- `runSection` up to its await. -/
def runSection (festivalId : String) (s : State) (sec : ReadinessSection) : State :=
  s.patchSection festivalId sec ⟨.syncing, none⟩

/-- And after it. -/
def settleSection (festivalId : String) (sec : ReadinessSection) (ok : Bool) (now : ℤ)
    (s : State) : State :=
  if ok then s.patchSection festivalId sec ⟨.ready, some now⟩
  else s.patchSection festivalId sec ⟨.error, (s.getReadiness festivalId sec).syncedAt⟩

/-- The snapshot that a download starts from. -/
def seed (festivalId : String) (crewId : Option String) (s : State) : State :=
  let base := s.getReadiness festivalId
  let seeded : FestivalReadiness := fun sec =>
    if sec = .crew ∧ ¬hasCrew crewId then base sec else ⟨.syncing, (base sec).syncedAt⟩
  { s with
    byFestival := update s.byFestival festivalId (some seeded)
    downloadingFestivalId := some festivalId }

def clearReadiness (festivalId : String) (s : State) : State :=
  { s with byFestival := update s.byFestival festivalId none }

end State

/-- The sections that are loaded once the schedule is. -/
def Download.others (d : Download) : List ReadinessSection :=
  [.picks, .weather, .art] ++ if hasCrew d.crewId then [.crew] else []

/-- The sections whose loaders are under way. -/
def Download.loading (d : Download) : List ReadinessSection :=
  match d.stage with
  | .schedule => [.schedule]
  | .scheduled => []
  | .rest loading => loading

/-- When a load has settled. -/
def Download.settled (d : Download) (sec : ReadinessSection) : Download :=
  match d.stage with
  | .rest loading => { d with stage := .rest (loading.erase sec) }
  | _ => { d with stage := .scheduled }

inductive Action where
  | downloadForOffline (festivalId : String) (crewId : Option String)
  | settle (i : ℕ) (sec : ReadinessSection) (ok : Bool) (now : ℤ)
  | loadOthers (i : ℕ)
  | finish (i : ℕ)
  | clearReadiness (festivalId : String)
  deriving DecidableEq

@[grind =] def step (s : State) : Action → Option State
  | .downloadForOffline festivalId crewId =>
    let s := (s.seed festivalId crewId).runSection festivalId .schedule
    some { s with downloads := s.downloads ++ [⟨festivalId, crewId, .schedule⟩] }
  | .settle i sec ok now =>
    match s.downloads[i]? with
    | none => none
    | some d =>
      if sec ∈ d.loading then
        let s := s.settleSection d.festivalId sec ok now
        some { s with
          downloads := s.downloads.set i (d.settled sec)
          lastLoad := update s.lastLoad d.festivalId
            (update (s.lastLoad d.festivalId) sec (some ok)) }
      else none
  | .loadOthers i =>
    match s.downloads[i]? with
    | none => none
    | some d =>
      if d.stage = .scheduled then
        let s := d.others.foldl (State.runSection d.festivalId) s
        some { s with downloads := s.downloads.set i { d with stage := .rest d.others } }
      else none
  | .finish i =>
    match s.downloads[i]? with
    | none => none
    | some d =>
      if d.stage = .rest [] then
        some { s with downloadingFestivalId := none, downloads := s.downloads.eraseIdx i }
      else none
  | .clearReadiness festivalId => some (s.clearReadiness festivalId)

/-! ## What the writes change -/

section Writes

variable {s : State} {festivalId f : String} {sec x : ReadinessSection}

theorem getReadiness_update (b : String → Option FestivalReadiness) (r : FestivalReadiness) :
    (update b festivalId (some r) f).getD emptyReadiness =
      if f = festivalId then r else (b f).getD emptyReadiness := by
  by_cases hf : f = festivalId
  · rw [hf, update_self, if_pos rfl]
    rfl
  · rw [update_of_ne hf, if_neg hf]

@[simp] theorem getReadiness_patchSection (next : SectionReadiness) :
    (s.patchSection festivalId sec next).getReadiness f x =
      if f = festivalId ∧ x = sec then next else s.getReadiness f x := by
  have hread : (s.patchSection festivalId sec next).getReadiness f =
      if f = festivalId then update (s.getReadiness festivalId) sec next
      else s.getReadiness f := getReadiness_update _ _
  rw [hread]
  by_cases hf : f = festivalId
  · subst hf
    rw [if_pos rfl]
    by_cases hx : x = sec
    · rw [hx, update_self, if_pos ⟨rfl, rfl⟩]
    · rw [update_of_ne hx, if_neg (fun h => hx h.2)]
  · rw [if_neg hf, if_neg (fun h => hf h.1)]

theorem getReadiness_runSections (secs : List ReadinessSection) :
    (secs.foldl (State.runSection festivalId) s).getReadiness f x =
      if f = festivalId ∧ x ∈ secs then ⟨.syncing, none⟩ else s.getReadiness f x := by
  induction secs generalizing s with
  | nil => simp
  | cons sec secs ih =>
    rw [foldl_cons, ih, State.runSection, getReadiness_patchSection]
    by_cases hf : f = festivalId
    · by_cases hx : x = sec
      · simp [hf, hx]
      · simp [hf, hx]
    · simp [hf]

theorem getReadiness_seed (crewId : Option String) :
    (s.seed festivalId crewId).getReadiness f x =
      if f = festivalId ∧ ¬(x = .crew ∧ ¬hasCrew crewId) then
        ⟨.syncing, (s.getReadiness f x).syncedAt⟩
      else s.getReadiness f x := by
  have hread : (s.seed festivalId crewId).getReadiness f =
      if f = festivalId then fun sec =>
        if sec = .crew ∧ ¬hasCrew crewId then s.getReadiness festivalId sec
        else ⟨.syncing, (s.getReadiness festivalId sec).syncedAt⟩
      else s.getReadiness f := getReadiness_update _ _
  rw [hread]
  by_cases hf : f = festivalId
  · subst hf
    rw [if_pos rfl]
    by_cases hx : x = .crew ∧ ¬hasCrew crewId
    · rw [if_pos hx, if_neg (fun h => h.2 hx)]
    · rw [if_neg hx, if_pos ⟨rfl, hx⟩]
  · rw [if_neg hf, if_neg (fun h => hf h.1)]

theorem getReadiness_clearReadiness :
    (s.clearReadiness festivalId).getReadiness f x =
      if f = festivalId then emptySection else s.getReadiness f x := by
  by_cases hf : f = festivalId
  · simp [State.clearReadiness, State.getReadiness, hf, emptyReadiness]
  · simp [State.clearReadiness, State.getReadiness, hf]

theorem runSections_eq (secs : List ReadinessSection) :
    ∃ b, secs.foldl (State.runSection festivalId) s = { s with byFestival := b } := by
  induction secs generalizing s with
  | nil => exact ⟨_, rfl⟩
  | cons sec secs ih => exact ih

theorem settleSection_eq (ok : Bool) (now : ℤ) :
    ∃ b, s.settleSection festivalId sec ok now = { s with byFestival := b } := by
  cases ok
  · exact ⟨_, rfl⟩
  · exact ⟨_, rfl⟩

theorem getReadiness_settleSection (ok : Bool) (now : ℤ) :
    (s.settleSection festivalId sec ok now).getReadiness f x =
      if f = festivalId ∧ x = sec then
        if ok then ⟨.ready, some now⟩ else ⟨.error, (s.getReadiness festivalId sec).syncedAt⟩
      else s.getReadiness f x := by
  cases ok
  · exact getReadiness_patchSection _
  · exact getReadiness_patchSection _

end Writes

theorem Download.festivalId_settled (d : Download) (sec : ReadinessSection) :
    (d.settled sec).festivalId = d.festivalId := by
  unfold Download.settled
  split
  · rfl
  · rfl

/-! ## Truthful and careful steps -/

/-- What the store says agrees with the loads and the calls. -/
structure Consistent (s : State) : Prop where
  ready : ∀ f sec, (s.getReadiness f sec).status = .ready → s.lastLoad f sec = some true
  names : ∀ f, s.downloadingFestivalId = some f ↔ f ∈ s.downloads.map Download.festivalId

/-- A step keeps what has been synced but for a clear, a load that succeeds is synced, one that
fails changes no other section, and the store agrees with the loads and the calls. -/
structure Truthful (s : State) (a : Action) (t : State) : Prop where
  keeps : ∀ f sec, (s.getReadiness f sec).syncedAt ≠ none → a ≠ .clearReadiness f →
    (t.getReadiness f sec).syncedAt ≠ none
  synced : ∀ i sec now d, a = .settle i sec true now → s.downloads[i]? = some d →
    (t.getReadiness d.festivalId sec).syncedAt ≠ none
  others : ∀ i sec now d f x, a = .settle i sec false now → s.downloads[i]? = some d →
    ¬(f = d.festivalId ∧ x = sec) → t.getReadiness f x = s.getReadiness f x
  consistent : Consistent t

/-- The sections that an action starts to load have never been synced, a download starts when none
of another festival is running, and the one that ends is the last. -/
def Careful (s : State) : Action → Prop
  | .downloadForOffline festivalId _ =>
    (s.getReadiness festivalId .schedule).syncedAt = none ∧
      ∀ d ∈ s.downloads, d.festivalId = festivalId
  | .loadOthers i =>
    ∀ d ∈ s.downloads[i]?, ∀ sec ∈ d.others, (s.getReadiness d.festivalId sec).syncedAt = none
  | .finish i => s.downloads.eraseIdx i = []
  | _ => True

instance (s : State) (a : Action) : Decidable (Careful s a) := by
  unfold Careful
  split <;> infer_instance

theorem truthful_downloadForOffline {s t : State} {festivalId : String} {crewId : Option String}
    (hs : Consistent s) (hstep : step s (.downloadForOffline festivalId crewId) = some t) :
    Truthful s (.downloadForOffline festivalId crewId) t ↔
      Careful s (.downloadForOffline festivalId crewId) := by
  obtain rfl := some.inj hstep
  have hread : ∀ f x,
      ((s.seed festivalId crewId).runSection festivalId .schedule).getReadiness f x =
      if f = festivalId ∧ x = .schedule then ⟨.syncing, none⟩
      else (s.seed festivalId crewId).getReadiness f x :=
    fun f x => getReadiness_patchSection _
  constructor
  · rintro ⟨hkeeps, -, -, -, hnames⟩
    constructor
    · by_contra hsynced
      exact hkeeps festivalId .schedule hsynced nofun
        (congrArg SectionReadiness.syncedAt
          ((hread festivalId .schedule).trans (if_pos ⟨rfl, rfl⟩)))
    · intro d hd
      refine (some.inj ((hnames d.festivalId).mpr ?_)).symm
      exact List.mem_map_of_mem (mem_append_left _ hd)
  · rintro ⟨hnone, hsame⟩
    refine ⟨?_, nofun, nofun, ?_, ?_⟩
    · intro f sec hsynced _
      change (((s.seed festivalId crewId).runSection festivalId .schedule).getReadiness f
        sec).syncedAt ≠ none
      rw [hread, getReadiness_seed]
      split
      · rename_i hat
        rw [hat.1, hat.2] at hsynced
        exact absurd hnone hsynced
      · split
        · exact hsynced
        · exact hsynced
    · intro f sec hready
      change (((s.seed festivalId crewId).runSection festivalId .schedule).getReadiness f
        sec).status = .ready at hready
      rw [hread, getReadiness_seed] at hready
      split at hready
      · cases hready
      · split at hready
        · cases hready
        · exact hs.ready f sec hready
    · intro f
      change some festivalId = some f ↔ f ∈ (s.downloads ++ [_]).map Download.festivalId
      rw [map_append, mem_append]
      constructor
      · intro heq
        exact .inr (mem_singleton.mpr (some.inj heq).symm)
      · rintro (hf | hf)
        · obtain ⟨d, hd, rfl⟩ := List.mem_map.mp hf
          rw [hsame d hd]
        · rw [mem_singleton.mp hf]

theorem truthful_settle {s t : State} {i : ℕ} {sec : ReadinessSection} {ok : Bool} {now : ℤ}
    (hs : Consistent s) (hstep : step s (.settle i sec ok now) = some t) :
    Truthful s (.settle i sec ok now) t := by
  simp only [step] at hstep
  split at hstep
  · cases hstep
  · rename_i d hd
    split at hstep
    · obtain rfl := some.inj hstep
      obtain ⟨b, hb⟩ := @settleSection_eq s d.festivalId sec ok now
      have hread := @getReadiness_settleSection s d.festivalId
      refine ⟨?_, ?_, ?_, ?_, ?_⟩
      · intro f x hsynced _
        change ((s.settleSection d.festivalId sec ok now).getReadiness f x).syncedAt ≠ none
        rw [hread]
        split
        · rename_i hat
          rw [hat.1, hat.2] at hsynced
          cases ok
          · exact hsynced
          · exact nofun
        · exact hsynced
      · intro j x now' d' heq hd'
        cases heq
        obtain rfl := some.inj (hd.symm.trans hd')
        change ((s.settleSection d.festivalId sec true now).getReadiness d.festivalId
          sec).syncedAt ≠ none
        rw [hread, if_pos ⟨rfl, rfl⟩]
        exact nofun
      · intro j x now' d' f y heq hd' hne
        cases heq
        obtain rfl := some.inj (hd.symm.trans hd')
        exact (hread false now).trans (if_neg hne)
      · intro f x hready
        change ((s.settleSection d.festivalId sec ok now).getReadiness f x).status = .ready
          at hready
        change update (s.settleSection d.festivalId sec ok now).lastLoad d.festivalId _ f x
          = some true
        rw [hb]
        rw [hread] at hready
        by_cases hf : f = d.festivalId
        · subst hf
          rw [update_self]
          by_cases hx : x = sec
          · subst hx
            rw [if_pos ⟨rfl, rfl⟩] at hready
            rw [update_self]
            cases ok
            · cases hready
            · rfl
          · rw [if_neg (fun h => hx h.2)] at hready
            rw [update_of_ne hx]
            exact hs.ready _ x hready
        · rw [if_neg (fun h => hf h.1)] at hready
          rw [update_of_ne hf]
          exact hs.ready f x hready
      · intro f
        change (s.settleSection d.festivalId sec ok now).downloadingFestivalId = some f ↔
          f ∈ ((s.settleSection d.festivalId sec ok now).downloads.set i _).map Download.festivalId
        rw [hb, InFlight.map_set_eq hd (d.festivalId_settled sec)]
        exact hs.names f
    · cases hstep

theorem truthful_loadOthers {s t : State} {i : ℕ} (hs : Consistent s)
    (hstep : step s (.loadOthers i) = some t) :
    Truthful s (.loadOthers i) t ↔ Careful s (.loadOthers i) := by
  simp only [step] at hstep
  split at hstep
  · cases hstep
  · rename_i d hd
    split at hstep
    · obtain rfl := some.inj hstep
      obtain ⟨b, hb⟩ := @runSections_eq s d.festivalId d.others
      have hread := @getReadiness_runSections s d.festivalId
      constructor
      · rintro ⟨hkeeps, -, -, -⟩ d' hd' x hx
        obtain rfl := some.inj (hd.symm.trans hd')
        by_contra hsynced
        refine hkeeps d.festivalId x hsynced nofun ?_
        exact congrArg SectionReadiness.syncedAt ((hread d.others).trans (if_pos ⟨rfl, hx⟩))
      · intro hnone
        refine ⟨?_, nofun, nofun, ?_, ?_⟩
        · intro f x hsynced _
          change ((d.others.foldl (State.runSection d.festivalId) s).getReadiness f x).syncedAt ≠
            none
          rw [hread]
          split
          · rename_i hat
            rw [hat.1] at hsynced
            exact absurd (hnone d hd x hat.2) hsynced
          · exact hsynced
        · intro f x hready
          change ((d.others.foldl (State.runSection d.festivalId) s).getReadiness f x).status =
            .ready at hready
          change (d.others.foldl (State.runSection d.festivalId) s).lastLoad f x = some true
          rw [hb]
          rw [hread] at hready
          split at hready
          · cases hready
          · exact hs.ready f x hready
        · intro f
          change (d.others.foldl (State.runSection d.festivalId) s).downloadingFestivalId = some f ↔
            f ∈ ((d.others.foldl (State.runSection d.festivalId) s).downloads.set i _).map
              Download.festivalId
          have hmap : (s.downloads.set i { d with stage := .rest d.others }).map
              Download.festivalId = s.downloads.map Download.festivalId :=
            InFlight.map_set_eq hd rfl
          rw [hb, hmap]
          exact hs.names f
    · cases hstep

theorem truthful_finish {s t : State} {i : ℕ} (hs : Consistent s)
    (hstep : step s (.finish i) = some t) : Truthful s (.finish i) t ↔ Careful s (.finish i) := by
  simp only [step] at hstep
  split at hstep
  · cases hstep
  · split at hstep
    · obtain rfl := some.inj hstep
      constructor
      · rintro ⟨-, -, -, -, hnames⟩
        refine eq_nil_iff_forall_not_mem.mpr fun d hd => ?_
        cases (hnames d.festivalId).mpr (List.mem_map_of_mem hd)
      · intro hlast
        refine ⟨fun f x hsynced _ => hsynced, nofun, nofun, hs.ready, ?_⟩
        intro f
        change none = some f ↔ f ∈ (s.downloads.eraseIdx i).map Download.festivalId
        rw [show s.downloads.eraseIdx i = [] from hlast]
        exact ⟨nofun, nofun⟩
    · cases hstep

theorem truthful_clearReadiness {s t : State} {festivalId : String} (hs : Consistent s)
    (hstep : step s (.clearReadiness festivalId) = some t) :
    Truthful s (.clearReadiness festivalId) t := by
  obtain rfl := some.inj hstep
  refine ⟨?_, nofun, nofun, ?_, hs.names⟩
  · intro f x hsynced hne
    rw [getReadiness_clearReadiness, if_neg (fun h => hne (congrArg Action.clearReadiness h.symm))]
    exact hsynced
  · intro f x hready
    rw [getReadiness_clearReadiness] at hready
    split at hready
    · cases hready
    · exact hs.ready f x hready

/-- **The step lemma.** -/
theorem truthful_step {s t : State} {a : Action} (hs : Consistent s) (hstep : step s a = some t) :
    Truthful s a t ↔ Careful s a := by
  cases a with
  | downloadForOffline festivalId crewId => exact truthful_downloadForOffline hs hstep
  | settle i sec ok now => exact ⟨fun _ => trivial, fun _ => truthful_settle hs hstep⟩
  | loadOthers i => exact truthful_loadOthers hs hstep
  | finish i => exact truthful_finish hs hstep
  | clearReadiness festivalId => exact ⟨fun _ => trivial, fun _ => truthful_clearReadiness hs hstep⟩

theorem consistent_initial : Consistent .initial :=
  ⟨fun _ _ h => (by cases h), fun _ => ⟨nofun, nofun⟩⟩

/-- **The readiness is truthful throughout a run exactly when its steps are careful.** -/
theorem truthful_iff (as : List Action) {t : State}
    (hrun : Machine.run step .initial as = some t) :
    Machine.Each step Truthful .initial as ↔ Machine.Meets step Careful .initial as :=
  Machine.each_iff_meets (I := Consistent) (Q := Truthful) (C := Careful)
    (fun _ _ _ hs hcareful hstep => ((truthful_step hs hstep).mpr hcareful).consistent)
    (fun _ _ _ hs hstep => truthful_step hs hstep) consistent_initial hrun

/-- A download of all sections, one of which fails. -/
def onceDownloaded : List Action :=
  [.downloadForOffline "fest-1" (some "crew-1"), .settle 0 .schedule true 1000, .loadOthers 0,
    .settle 0 .weather false 1100, .settle 0 .picks true 1200, .settle 0 .crew true 1300,
    .settle 0 .art true 1400, .finish 0]

theorem truthful_onceDownloaded : Machine.Each step Truthful .initial onceDownloaded :=
  (truthful_iff onceDownloaded rfl).mpr (by decide)

/-- The schedule has been synced, and loses its time when the festival is downloaded again. -/
theorem synced_time_lost : ¬∀ as : List Action, Machine.Each step Truthful .initial as := by
  intro h
  have hagain := Machine.Each.last (h (onceDownloaded ++ [.downloadForOffline "fest-1" none]))
    rfl rfl
  exact hagain.keeps "fest-1" .schedule (by decide) nofun (by decide)

end FestivalPlanner.OfflineReadiness
