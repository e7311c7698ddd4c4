import FestivalPlanner.Lineup.FestivalPayload
import FestivalPlanner.Lineup.UserData

/-!
# A partial update of a festival

`PUT /festivals/:id` for a payload that leaves fields out: what its schema, its checks, the cleaning
and the store together make of them.

* `getFestivalById_putFestival` — the festival as it is read after the update;
* `CleanStage`, `CleanSet`, `CleanDay` — what cleaning leaves as it is;
* `Complete` — the payload passes the checks on its own;
* `Careful` — nothing that is stored is lost for want of being stated again;
* `partial_update_iff` — the update is accepted and keeps what is left out exactly then.
-/

namespace FestivalPlanner.Lineup

open List Option Keyed

variable {cfg : Config} {env : Env} {now : ℕ} {db db' : Db} {festivalId : String}
  {existing : Festival} {body : FestivalInput}

/-! ## The festival after the update -/

/-- A day of a payload in a festival. -/
@[grind =] def Day.input (day : Day) : DayInput :=
  { label := some day.label, date := some day.date, sets := day.sets.map LineupSet.input }

/-- A festival as it is read after it has been stored. -/
@[grind =] def NextFestival.shown (festivalId : String) (next : NextFestival) : Festival :=
  { id := festivalId, name := next.name, location := next.location
    b2bSeparator := next.b2bSeparator, timeZone := next.timeZone, mapConfig := next.mapConfig
    stages := next.stages.map Stage.input, days := next.days.map Day.input }

/-- The row of a festival after the update. -/
def NextFestival.row (now : ℕ) (next : NextFestival) (f : FestivalRow) : FestivalRow :=
  { f with
    name := next.name, location := next.location, b2bSeparator := some next.b2bSeparator
    timeZone := next.timeZone, mapConfig := next.mapConfig, updatedAt := now }

/-- Rows that are numbered in their order are sorted. -/
theorem insertionSort_mapIdx {α β : Type} {f : ℕ → α → β} {number : β → ℕ}
    (h : ∀ i a, number (f i a) = i) (l : List α) :
    (l.mapIdx f).insertionSort (fun x y => number x ≤ number y) = l.mapIdx f := by
  apply List.Pairwise.insertionSort_eq
  rw [pairwise_iff_getElem]
  intro i j hi hj hij
  simp only [getElem_mapIdx, h]
  exact hij.le

theorem Replaces.daySets_eq {stages : List Stage} {days : List Day}
    (h : Replaces db festivalId stages days db') (i : ℕ) :
    db'.daySets festivalId i = (days[i]?).elim [] (fun day => day.sets.map LineupSet.input) := by
  show ((db'.setsOf festivalId i).insertionSort
    (fun x y => x.sortOrder ≤ y.sortOrder)).map SetRow.input = _
  rw [h.setsOf_self]
  cases days[i]? with
  | none => rfl
  | some day =>
    rw [elim_some, elim_some, insertionSort_mapIdx (fun _ _ => rfl), map_input_setRow]

variable {next : NextFestival} {stage : StageInput} {a : Artist} {x : SetInput}
  {stageIds : List String} {day : DayInput} {f : Festival} {b2bSep : String}
  {stages : List StageInput} {days : List DayInput}

/-- The festival is read as its rows were written. -/
theorem Replaces.buildFestivalRecord_eq {f : FestivalRow}
    (h : Replaces db f.id next.stages next.days db') :
    db'.buildFestivalRecord (next.row now f) = next.shown f.id := by
  have hstages : (db'.buildFestivalRecord (next.row now f)).stages = next.stages.map Stage.input := by
    show ((db'.stagesOf f.id).insertionSort
      (fun x y => x.sortOrder ≤ y.sortOrder)).map StageRow.input = _
    rw [h.stagesOf_eq, if_pos rfl, stageRows, insertionSort_mapIdx (fun _ _ => rfl)]
    exact map_input_stageRows f.id next.stages
  have hdays : (db'.buildFestivalRecord (next.row now f)).days = next.days.map Day.input := by
    show ((db'.daysOf f.id).insertionSort (fun x y => x.dayIndex ≤ y.dayIndex)).map (fun d =>
      ({ label := some d.label, date := some d.date
         sets := db'.daySets f.id d.dayIndex } : DayInput)) = _
    rw [h.daysOf_eq, if_pos rfl, dayRows, insertionSort_mapIdx (fun _ _ => rfl)]
    refine ext_getElem (by simp) fun i hi hi' => ?_
    have hday : i < next.days.length := by simpa using hi'
    simp [h.daySets_eq, Day.input, getElem?_eq_getElem hday]
  rw [NextFestival.shown, ← hstages, ← hdays]
  rfl

theorem selectFestival_updateFestival_eq {f : FestivalRow}
    (h : db.selectFestival festivalId = some f) :
    (db.updateFestival now festivalId next.fields).selectFestival festivalId =
      some (next.row now f) := by
  have hf : f.id = festivalId ∧ f.deleted = false := by simpa using find?_some h
  rw [Db.selectFestival, Db.updateFestival, find?_map]
  have hsame : (fun g : FestivalRow => decide (g.id = festivalId ∧ g.deleted = false)) ∘ (fun g =>
      if g.id = festivalId ∧ g.deleted = false then
        { g with
          name := next.fields.name.getD g.name
          location := next.fields.location.getD g.location
          b2bSeparator := next.fields.b2bSeparator.or g.b2bSeparator
          latitude := next.fields.latitude.getD g.latitude
          longitude := next.fields.longitude.getD g.longitude
          timeZone := next.fields.timeZone.getD g.timeZone
          mapConfig := next.fields.mapConfig.getD g.mapConfig
          updatedAt := now }
      else g) = fun g => decide (g.id = festivalId ∧ g.deleted = false) := by
    funext g
    simp only [Function.comp]
    split <;> rfl
  rw [hsame]
  show (db.selectFestival festivalId).map _ = _
  rw [h, map_some, if_pos hf]
  rfl

/-- **What an update that is accepted leaves.** -/
theorem putFestival_accepted (hexist : db.StagesExist)
    (hfound : db.getFestivalById festivalId = some existing) :
    (putFestival cfg env now db festivalId body).1.failed = false ↔
      Valid cfg env body ∧ db.pickedOrNoted festivalId = false ∧
        Fits db festivalId (sanitizeFestivalPayload cfg env body existing).stages
          (sanitizeFestivalPayload cfg env body existing).days := by
  constructor
  · intro haccepted
    have hvalid : validateFestival cfg env body = [] := by
      by_contra hne
      obtain ⟨message, messages, herrors⟩ := exists_cons_of_ne_nil hne
      rw [putFestival, herrors] at haccepted
      cases haccepted
    refine ⟨validateFestival_eq_nil.mp hvalid, ?_⟩
    by_contra hnot
    rw [(putFestival_failure now db hexist hvalid hfound hnot).1] at haccepted
    cases haccepted
  · rintro ⟨hvalid, hpicked, hfits⟩
    exact (putFestival_success now db hexist (validateFestival_eq_nil.mpr hvalid) hfound hpicked
      hfits).1

theorem getFestivalById_putFestival (hexist : db.StagesExist) {f : FestivalRow}
    (hselect : db.selectFestival festivalId = some f)
    (hfound : db.getFestivalById festivalId = some existing)
    (haccepted : (putFestival cfg env now db festivalId body).1.failed = false) :
    (putFestival cfg env now db festivalId body).2.selectFestival festivalId =
        some ((sanitizeFestivalPayload cfg env body existing).row now f) ∧
      (putFestival cfg env now db festivalId body).2.getFestivalById festivalId =
        some ((sanitizeFestivalPayload cfg env body existing).shown festivalId) := by
  obtain ⟨hvalid, hpicked, hfits⟩ := (putFestival_accepted hexist hfound).mp haccepted
  have hid : f.id = festivalId := by
    have hf : f.id = festivalId ∧ f.deleted = false := by simpa using find?_some hselect
    exact hf.1
  subst hid
  set next := sanitizeFestivalPayload cfg env body existing with hnext
  obtain ⟨db', hupdate, hfestivals, hreplaces⟩ : ∃ db',
      db.update now f.id next.fields = .ok db' ∧
      db'.festivals = (db.updateFestival now f.id next.fields).festivals ∧
      Replaces db f.id next.stages next.days db' :=
    ⟨_, (Db.update_eq_ok hexist (hasFestival_of_selectFestival hselect) rfl rfl).mpr
      ⟨hpicked, hfits, rfl⟩, rfl, ⟨rfl, rfl, rfl, rfl, rfl⟩⟩
  have hrow : db'.selectFestival f.id = some (next.row now f) := by
    rw [Db.selectFestival, hfestivals, ← Db.selectFestival]
    exact selectFestival_updateFestival_eq hselect
  have hput : (putFestival cfg env now db f.id body).2 = db' := by
    rw [putFestival, validateFestival_eq_nil.mpr hvalid, hfound]
    simp only [← hnext, hupdate, hrow]
  rw [hput]
  refine ⟨hrow, ?_⟩
  rw [Db.getFestivalById, hrow, map_some, hreplaces.buildFestivalRecord_eq]

/-! ## What cleaning leaves as it is -/

structure CleanStage (env : Env) (stage : StageInput) : Prop where
  id : sanitizeIdentifier stage.id = stage.id
  name : sanitizeString env stage.name 100 = stage.name
  color : ∃ color, stage.color = some color ∧ validateColor color = true
  latitude : ∀ q ∈ stage.latitude, -90 ≤ q ∧ q ≤ 90
  longitude : ∀ q ∈ stage.longitude, -180 ≤ q ∧ q ≤ 180

/-- An artist with a photo or a genre is not clean. -/
structure CleanArtist (env : Env) (a : Artist) : Prop where
  name : sanitizeString env a.name 300 = a.name
  named : a.name ≠ ""
  links : sanitizeLinkRecord a.links = a.links
  photo : a.photo = none
  genres : a.genres = []

/-- The texts beside the artists are those that the artists make. -/
structure CleanArtists (env : Env) (b2bSep : String) (x : SetInput) (artists : List Artist) :
    Prop where
  given : x.artists = some artists
  nonempty : artists ≠ []
  count : artists.length ≤ 4
  each : ∀ a ∈ artists, CleanArtist env a
  artist : x.artist = some (artistDisplayName artists b2bSep)
  linkUrl : x.linkUrl = spotifyLink artists

structure CleanSet (env : Env) (b2bSep : String) (x : SetInput) : Prop where
  id : sanitizeIdentifier x.id = x.id
  stageId : sanitizeIdentifier x.stageId = x.stageId
  artists : ∃ artists, CleanArtists env b2bSep x artists
  startTime : ∀ time ∈ x.startTime, validateTime (some time) = true
  endTime : ∀ time ∈ x.endTime, validateTime (some time) = true

structure CleanDay (env : Env) (b2bSep : String) (day : DayInput) : Prop where
  label : ∃ label, day.label = some label ∧ sanitizeString env label 100 = label
  date : ∃ date, day.date = some date ∧ sanitizeString env date 20 = date
  sets : ∀ x ∈ day.sets, CleanSet env b2bSep x

theorem map_mapIdx_eq_self {α β : Type} {f : ℕ → α → β} {g : β → α} {P : α → Prop} {l : List α}
    (h : ∀ i, ∀ a ∈ l, (g (f i a) = a ↔ P a)) : (l.mapIdx f).map g = l ↔ ∀ a ∈ l, P a := by
  induction l generalizing f with
  | nil => simp
  | cons a l ih =>
    have htail := ih (f := fun i => f (i + 1)) fun i b hb => h (i + 1) b (mem_cons_of_mem _ hb)
    rw [mapIdx_cons, map_cons, cons_eq_cons, htail, h 0 a mem_cons_self,
      forall_mem_cons]

theorem coord_eq_self {value : Option ℚ} {max : ℚ} :
    coord value max = value ↔ ∀ q ∈ value, -max ≤ q ∧ q ≤ max := by
  cases value with
  | none => simp [coord]
  | some q => by_cases hq : -max ≤ q ∧ q ≤ max <;> simp [coord, hq]

theorem color_eq_self {color : Option String} :
    some ((color.filter validateColor).getD "#666666") = color ↔
      ∃ c, color = some c ∧ validateColor c = true := by
  constructor
  · intro h
    cases hfilter : color.filter validateColor with
    | none =>
      rw [hfilter, getD_none] at h
      exact ⟨_, h.symm, by decide⟩
    | some c =>
      rw [filter_eq_some_iff] at hfilter
      exact ⟨c, hfilter⟩
  · rintro ⟨c, rfl, hc⟩
    simp [Option.filter, hc]

theorem input_sanitizeStage (hid : (sanitizeIdentifier stage.id).isSome = true) (i : ℕ) :
    (sanitizeStage env i stage).input = stage ↔ CleanStage env stage := by
  have hid' : some ((sanitizeIdentifier stage.id).getD
      ("stage-" ++ toString i ++ "-" ++ env.randomUUID [i])) = sanitizeIdentifier stage.id := by
    obtain ⟨id, hid⟩ := isSome_iff_exists.mp hid
    rw [hid, getD_some]
  constructor
  · intro h
    exact ⟨hid'.symm.trans (congrArg StageInput.id h), congrArg StageInput.name h,
      color_eq_self.mp (congrArg StageInput.color h),
      coord_eq_self.mp (congrArg StageInput.latitude h),
      coord_eq_self.mp (congrArg StageInput.longitude h)⟩
  · intro h
    simp only [Stage.input, sanitizeStage, hid', h.name, color_eq_self.mpr h.color,
      coord_eq_self.mpr h.latitude, coord_eq_self.mpr h.longitude]
    rw [h.id]

theorem filter_map_eq_self {α : Type} {f : α → α} {p : α → Bool} {l : List α} :
    (l.map f).filter p = l ↔ ∀ a ∈ l, f a = a ∧ p a = true := by
  constructor
  · intro h
    have hlength : ((l.map f).filter p).length = (l.map f).length := by rw [h, length_map]
    rw [length_filter_eq_length_iff] at hlength
    rw [filter_eq_self.mpr hlength] at h
    have hf : ∀ a ∈ l, f a = a := map_inj_left.mp (h.trans (List.map_id l).symm)
    exact fun a ha => ⟨hf a ha, hf a ha ▸ hlength _ (List.mem_map_of_mem ha)⟩
  · intro h
    have hf : l.map f = l := (map_congr_left fun a ha => (h a ha).1).trans (List.map_id' l)
    rw [hf, filter_eq_self]
    exact fun a ha => (h a ha).2

theorem cleanArtist_iff : CleanArtist env a ↔
    { name := sanitizeString env a.name 300, links := sanitizeLinkRecord a.links } = a ∧
      a.name ≠ "" := by
  constructor
  · rintro ⟨hname, hnamed, hlinks, hphoto, hgenres⟩
    exact ⟨by rw [hname, hlinks, ← hphoto, ← hgenres], hnamed⟩
  · rintro ⟨h, hnamed⟩
    exact ⟨congrArg Artist.name h, hnamed, congrArg Artist.links h, (congrArg Artist.photo h).symm,
      (congrArg Artist.genres h).symm⟩

/-- The artists that are given stay as they are exactly when each of them is clean. -/
theorem normalizeSetArtists_eq_self {artists : List Artist} (h : x.someArtists = some artists) :
    normalizeSetArtists env x = artists ↔
      artists.length ≤ 4 ∧ ∀ a ∈ artists, CleanArtist env a := by
  simp only [normalizeSetArtists, h]
  constructor
  · intro heq
    have hcount : artists.length ≤ 4 := by
      rw [← heq]
      refine (length_filter_le _ _).trans ?_
      rw [length_map]
      exact length_take_le 4 _
    rw [take_of_length_le hcount, filter_map_eq_self] at heq
    exact ⟨hcount, fun a ha => cleanArtist_iff.mpr (by simpa using heq a ha)⟩
  · rintro ⟨hcount, hclean⟩
    rw [take_of_length_le hcount, filter_map_eq_self]
    exact fun a ha => by simpa using cleanArtist_iff.mp (hclean a ha)

/-- A set whose artists are not given is one of the older format. -/
theorem normalizeSetArtists_ne_nil (h : x.someArtists = none) (hartist : artistName env x ≠ "") :
    normalizeSetArtists env x ≠ [] := by
  simp only [artistName, h] at hartist
  simp [normalizeSetArtists, h, hartist]

theorem linkUrl_input (artists : List Artist) :
    (spotifyLink artists).filter (· ≠ "") = spotifyLink artists := by
  rw [spotifyLink, Option.filter_filter]
  simp

theorem time_eq_self {time : Option String} :
    (if validateTime time then time else none) = time ↔
      ∀ t ∈ time, validateTime (some t) = true := by
  cases time with
  | none => simp
  | some t => by_cases ht : validateTime (some t) = true <;> simp [ht]

theorem input_sanitizeSet (h : SetValid env stageIds x) (b2bSep : String) (i j : ℕ) :
    (sanitizeSet env b2bSep i j x).input = x ↔ CleanSet env b2bSep x := by
  have hid := @sanitizeSet_id env _ h.id b2bSep i j
  have hstageId : some ((sanitizeIdentifier x.stageId).getD "") = sanitizeIdentifier x.stageId := by
    obtain ⟨id, -, hid⟩ := h.stage
    rw [hid, getD_some]
  constructor
  · intro heq
    have hgiven : x.artists = some (normalizeSetArtists env x) :=
      (congrArg SetInput.artists heq).symm
    have hnonempty : normalizeSetArtists env x ≠ [] := by
      intro hnil
      have hnone : x.someArtists = none := by simp [SetInput.someArtists, hgiven, hnil]
      exact normalizeSetArtists_ne_nil hnone (h.artist.resolve_right (absurd hnone)) hnil
    have hsome : x.someArtists = some (normalizeSetArtists env x) := by
      simp [SetInput.someArtists, hgiven, hnonempty]
    obtain ⟨hcount, heach⟩ := (normalizeSetArtists_eq_self hsome).mp rfl
    refine ⟨hid.trans (congrArg SetInput.id heq),
      hstageId.symm.trans (congrArg SetInput.stageId heq),
      ⟨_, hgiven, hnonempty, hcount, heach, (congrArg SetInput.artist heq).symm, ?_⟩,
      time_eq_self.mp (congrArg SetInput.startTime heq),
      time_eq_self.mp (congrArg SetInput.endTime heq)⟩
    rw [← linkUrl_input]
    exact (congrArg SetInput.linkUrl heq).symm
  · rintro ⟨hcleanId, hcleanStage, ⟨artists, hartists⟩, hstart, hend⟩
    have hsome : x.someArtists = some artists := by
      simp [SetInput.someArtists, hartists.given, hartists.nonempty]
    have hnormal : normalizeSetArtists env x = artists :=
      (normalizeSetArtists_eq_self hsome).mpr ⟨hartists.count, hartists.each⟩
    have hinput : (sanitizeSet env b2bSep i j x).input =
        { id := some (sanitizeSet env b2bSep i j x).id, artists := some (normalizeSetArtists env x)
          artist := some (artistDisplayName (normalizeSetArtists env x) b2bSep)
          stageId := some ((sanitizeIdentifier x.stageId).getD "")
          startTime := if validateTime x.startTime then x.startTime else none
          endTime := if validateTime x.endTime then x.endTime else none
          linkUrl := (spotifyLink (normalizeSetArtists env x)).filter (· ≠ "") } := rfl
    rw [hinput, ← hid, hstageId, hcleanId, hcleanStage, hnormal, linkUrl_input,
      time_eq_self.mpr hstart, time_eq_self.mpr hend, ← hartists.given, ← hartists.artist,
      ← hartists.linkUrl]

theorem text_eq_self {text : Option String} {n : ℕ} :
    some (sanitizeString env (text.getD "") n) = text ↔
      ∃ t, text = some t ∧ sanitizeString env t n = t := by
  constructor
  · intro h
    have htext : text.getD "" = sanitizeString env (text.getD "") n := by
      conv_lhs => rw [← h]
      rfl
    exact ⟨_, h.symm, by rw [← htext, ← htext]⟩
  · rintro ⟨t, rfl, ht⟩
    rw [getD_some, ht]

theorem input_sanitizeDay (h : DayValid cfg env stageIds day) (b2bSep : String) (i : ℕ) :
    (sanitizeDay cfg env b2bSep i day).input = day ↔ CleanDay env b2bSep day := by
  have hsets : ((day.sets.take cfg.maxSetsPerDay).mapIdx (sanitizeSet env b2bSep i)).map
      LineupSet.input = day.sets ↔ ∀ x ∈ day.sets, CleanSet env b2bSep x := by
    rw [take_of_length_le h.size]
    exact map_mapIdx_eq_self fun j x hx => input_sanitizeSet (h.sets x hx) b2bSep i j
  constructor
  · intro heq
    exact ⟨text_eq_self.mp (congrArg DayInput.label heq), text_eq_self.mp (congrArg DayInput.date heq),
      hsets.mp (congrArg DayInput.sets heq)⟩
  · intro hclean
    simp only [Day.input, sanitizeDay, text_eq_self.mpr hclean.label, text_eq_self.mpr hclean.date,
      hsets.mpr hclean.sets]

/-! ## A payload that passes the checks -/

/-- The festival is named, and what a set is stated with includes its stage and the stages. -/
structure Complete (p : FestivalPayload) : Prop where
  name : p.name.isSome = true
  stages : ∀ x ∈ p.sets, p.stages.isSome = true
  stageIds : ∀ x ∈ p.sets, x.stageId.isSome = true

section
variable {p : FestivalPayload}

theorem stages_parsed : p.parsed.stages.getD [] = (p.stages.getD []).map StagePayload.parsed := by
  cases h : p.stages <;> simp [FestivalPayload.parsed, h]

theorem days_parsed : p.parsed.days.getD [] = (p.days.getD []).map DayPayload.parsed := by
  cases h : p.days <;> simp [FestivalPayload.parsed, h]

theorem mem_sets {x : SetPayload} :
    x ∈ p.sets ↔ ∃ day ∈ p.days.getD [], x ∈ day.stated := by
  simp [FestivalPayload.sets]

theorem stageIdsOf_over (f : Festival) (stages : List StagePayload) :
    stageIdsOf (stages.map (StagePayload.over f)) = stageIdsOf (stages.map StagePayload.parsed) := by
  rw [stageIdsOf, filterMap_map, stageIdsOf, filterMap_map]
  rfl

theorem stageNamesOf_over (f : Festival) (stages : List StagePayload) :
    stageNamesOf env (stages.map (StagePayload.over f)) =
      stageNamesOf env (stages.map StagePayload.parsed) := by
  rw [stageNamesOf, List.map_map, stageNamesOf, List.map_map]
  rfl

theorem setIdsOf_over (f : Festival) (sets : List SetPayload) :
    setIdsOf (sets.map (SetPayload.over f)) = setIdsOf (sets.map SetPayload.parsed) := by
  rw [setIdsOf, filterMap_map, setIdsOf, filterMap_map]
  rfl

theorem someArtists_parsed (f : Festival) (x : SetPayload) :
    x.parsed.someArtists = (x.over f).someArtists.map (List.map Artist.parsed) := by
  show (x.artists.map (List.map Artist.parsed)).filter (· ≠ []) =
    (x.artists.filter (· ≠ [])).map (List.map Artist.parsed)
  cases x.artists with
  | none => rfl
  | some artists => cases artists <;> rfl

theorem artistName_parsed (f : Festival) (x : SetPayload) :
    artistName env x.parsed = artistName env (x.over f) := by
  rw [artistName, artistName, someArtists_parsed f]
  cases (x.over f).someArtists with
  | none => rfl
  | some artists =>
    rw [map_some]
    simp only [List.map_map]
    rfl

/-- A set that is stated with its stage and its times occupies the stage as it should. -/
theorem occupies_over (f : Festival) {x : SetPayload} (hstage : x.stageId.isSome = true)
    {slot : String × ℕ × ℕ} (h : x.parsed.occupies = some slot) :
    (x.over f).occupies = some slot := by
  have hstageId : (x.over f).stageId = x.parsed.stageId := by
    obtain ⟨stageId, hstageId⟩ := isSome_iff_exists.mp hstage
    simp [SetPayload.over, SetPayload.parsed, hstageId]
  cases hstart : x.startTime with
  | none => simp [SetInput.occupies, SetPayload.parsed, hstart] at h
  | some start =>
    cases hend : x.endTime with
    | none => simp [SetInput.occupies, SetPayload.parsed, hend] at h
    | some stop =>
      have hstartTime : (x.over f).startTime = x.parsed.startTime := by
        simp [SetPayload.over, SetPayload.parsed, hstart]
      have hendTime : (x.over f).endTime = x.parsed.endTime := by
        simp [SetPayload.over, SetPayload.parsed, hend]
      rw [SetInput.occupies, hstageId, hstartTime, hendTime]
      exact h

theorem badTime_join {time : Option (Option String)} {stored : Option String}
    (h : badTime (time.getD stored) = false) : badTime time.join = false := by
  cases time with
  | none => rfl
  | some time => exact h

/-- A day that should result is valid; so is what is stated of it, when it is complete. -/
theorem dayValid_parsed {i : ℕ} {day : DayPayload} (h : DayValid cfg env stageIds (day.over f i))
    (hstages : ∀ x ∈ day.stated, x.stageId.isSome = true) :
    DayValid cfg env stageIds day.parsed := by
  cases hsets : day.sets with
  | none => exact ⟨by simp [DayPayload.parsed, DayPayload.stated, hsets],
      by simp [DayPayload.parsed, DayPayload.stated, hsets],
      by simp [DayPayload.parsed, DayPayload.stated, hsets]⟩
  | some sets =>
    have hparsed : day.parsed.sets = sets.map SetPayload.parsed := by
      simp [DayPayload.parsed, DayPayload.stated, hsets]
    have hover : (day.over f i).sets = sets.map (SetPayload.over f) := by
      simp [DayPayload.over, hsets]
    have hstated : day.stated = sets := by simp [DayPayload.stated, hsets]
    refine ⟨?_, ?_, ?_⟩
    · have hsize := h.size
      rw [hover, length_map] at hsize
      rwa [hparsed, length_map]
    · rw [hparsed, List.forall_mem_map]
      intro x hx
      have hvalid := h.sets (x.over f) (hover ▸ List.mem_map_of_mem hx)
      obtain ⟨stageId, hstageId⟩ := isSome_iff_exists.mp (hstages x (hstated ▸ hx))
      refine ⟨hvalid.id, ?_, ?_, badTime_join hvalid.times.1, badTime_join hvalid.times.2⟩
      · rw [artistName_parsed f]
        refine hvalid.artist.imp_right fun hsome => ?_
        rw [someArtists_parsed f, Ne, map_eq_none_iff]
        exact hsome
      · have hstage := hvalid.stage
        simpa [SetPayload.over, SetPayload.parsed, hstageId] using hstage
    · have hapart := h.apart
      rw [hover, pairwise_map] at hapart
      rw [hparsed, pairwise_map]
      refine hapart.imp_of_mem fun {x y} hx hy hxy stageId q r hq hr => ?_
      exact hxy stageId q r (occupies_over f (hstages x (hstated ▸ hx)) hq)
        (occupies_over f (hstages y (hstated ▸ hy)) hr)

theorem flatMap_sublist_mapIdx {α β γ : Type} {f : ℕ → α → β} {g : β → List γ} {h : α → List γ}
    (hfg : ∀ i a, (h a).Sublist (g (f i a))) (l : List α) :
    (l.flatMap h).Sublist ((l.mapIdx f).flatMap g) := by
  induction l generalizing f with
  | nil => exact List.Sublist.refl _
  | cons a l ih =>
    rw [flatMap_cons, mapIdx_cons, flatMap_cons]
    exact (hfg 0 a).append (ih fun i b => hfg (i + 1) b)

/-- The stages and days that the route stores, before they are cleaned. -/
@[grind =] def FestivalPayload.stagesIn (p : FestivalPayload) (f : Festival) : List StageInput :=
  p.parsed.stages.getD f.stages

@[grind =] def FestivalPayload.daysIn (p : FestivalPayload) (f : Festival) : List DayInput :=
  p.parsed.days.getD f.days

/-- A festival with these stages and days. -/
def FestivalPayload.stored (p : FestivalPayload) (f : Festival) : FestivalInput :=
  { name := some (p.name.getD f.name), stages := some (p.stagesIn f), days := some (p.daysIn f) }

theorem stageIdsOf_stagesIn (f : Festival) :
    stageIdsOf (p.stagesIn f) = stageIdsOf ((p.over f).stages.getD []) := by
  cases hp : p.stages with
  | none => simp [FestivalPayload.stagesIn, FestivalPayload.parsed, FestivalPayload.over, hp]
  | some stages =>
    simp [FestivalPayload.stagesIn, FestivalPayload.parsed, FestivalPayload.over, hp,
      stageIdsOf_over]

/-- What the route stores is valid when the festival that should result is. -/
theorem valid_stored (h : Valid cfg env (p.over f))
    (hgiven : ∀ x ∈ p.sets, x.stageId.isSome = true) : Valid cfg env (p.stored f) := by
  have hstages : (p.over f).stages.getD [] = p.stages.elim f.stages
      (List.map (StagePayload.over f)) := rfl
  have hdays : (p.over f).days.getD [] = p.days.elim f.days (List.mapIdx (DayPayload.over f)) := rfl
  have hstagesIn : (p.stored f).stages.getD [] = p.stages.elim f.stages
      (List.map StagePayload.parsed) := by
    cases hp : p.stages <;>
      simp [FestivalPayload.stored, FestivalPayload.stagesIn, FestivalPayload.parsed, hp]
  have hdaysIn : (p.stored f).days.getD [] = p.days.elim f.days (List.map DayPayload.parsed) := by
    cases hp : p.days <;>
      simp [FestivalPayload.stored, FestivalPayload.daysIn, FestivalPayload.parsed, hp]
  have hids : stageIdsOf ((p.stored f).stages.getD []) = stageIdsOf ((p.over f).stages.getD []) :=
    stageIdsOf_stagesIn f
  have hcount := h.stageCount
  have hvalid := h.stages
  have hnames := h.stageNames
  have hdayCount := h.dayCount
  have hdayValid := h.days
  have hsetIds := h.setIds
  rw [hstages] at hcount hvalid hnames
  rw [hdays] at hdayCount hdayValid hsetIds
  refine ⟨h.name, ?_, ?_, ?_, hids ▸ h.stageIds, ?_, ?_, ?_⟩
  · rw [hstagesIn]
    cases hp : p.stages with
    | none => simpa [hp] using hcount
    | some stages => simpa [hp] using hcount
  · rw [hdaysIn]
    cases hp : p.days with
    | none => simpa [hp] using hdayCount
    | some days => simpa [hp] using hdayCount
  · rw [hstagesIn]
    cases hp : p.stages with
    | none => simpa [hp] using hvalid
    | some stages =>
      rw [hp, elim_some, List.forall_mem_map] at hvalid
      rw [elim_some, List.forall_mem_map]
      exact fun stage hstage => ⟨(hvalid stage hstage).name, (hvalid stage hstage).id⟩
  · rw [hstagesIn]
    cases hp : p.stages with
    | none => simpa [hp] using hnames
    | some stages =>
      rw [hp, elim_some, stageNamesOf_over] at hnames
      exact hnames
  · rw [hdaysIn, hids]
    cases hp : p.days with
    | none => simpa [hp] using hdayValid
    | some days =>
      rw [hp, elim_some] at hdayValid
      rw [elim_some, List.forall_mem_map]
      intro day hday
      obtain ⟨i, hi, rfl⟩ := mem_iff_getElem.mp hday
      refine dayValid_parsed (hdayValid _ (mem_mapIdx.mpr ⟨i, hi, rfl⟩)) fun x hx => ?_
      exact hgiven x (mem_sets.mpr ⟨days[i], by simp [hp], hx⟩)
  · rw [hdaysIn]
    cases hp : p.days with
    | none => simpa [hp] using hsetIds
    | some days =>
      rw [hp, elim_some] at hsetIds
      rw [elim_some, flatMap_map]
      refine hsetIds.sublist (flatMap_sublist_mapIdx (fun i day => ?_) days)
      cases hsets : day.sets with
      | none => simp [DayPayload.parsed, DayPayload.stated, hsets, setIdsOf]
      | some sets =>
        rw [DayPayload.parsed, DayPayload.stated, DayPayload.over, hsets, getD_some,
          elim_some, setIdsOf_over]

theorem Complete.of_valid (h : Valid cfg env p.parsed.toFestivalInput) : Complete p := by
  have hstage : ∀ x ∈ p.sets, ∃ id ∈ stageIdsOf (p.parsed.stages.getD []),
      sanitizeIdentifier x.parsed.stageId = some id := by
    intro x hx
    obtain ⟨day, hday, hx⟩ := mem_sets.mp hx
    have hdayValid := h.days day.parsed (days_parsed ▸ List.mem_map_of_mem hday)
    exact (hdayValid.sets x.parsed (List.mem_map_of_mem hx)).stage
  refine ⟨?_, fun x hx => ?_, fun x hx => ?_⟩
  · have hname := h.name.1
    cases hp : p.name with
    | none => simp [FestivalPayload.parsed, hp] at hname
    | some name => rfl
  · obtain ⟨id, hid, -⟩ := hstage x hx
    cases hp : p.stages with
    | none => simp [stages_parsed, hp, stageIdsOf] at hid
    | some stages => rfl
  · obtain ⟨id, -, hid⟩ := hstage x hx
    cases hx : x.stageId with
    | none => simp [SetPayload.parsed, hx, sanitizeIdentifier] at hid
    | some stageId => rfl

/-- **When the festival that should result is valid, the payload passes the checks exactly if it is
complete.** -/
theorem valid_parsed_iff (h : Valid cfg env (p.over f)) :
    Valid cfg env p.parsed.toFestivalInput ↔ Complete p := by
  refine ⟨Complete.of_valid, fun hcomplete => ?_⟩
  have hstored := valid_stored h hcomplete.stageIds
  have hdaysEq : ∀ days, p.days = some days →
      (p.stored f).days.getD [] = p.parsed.days.getD [] := by
    intro days hp
    simp [FestivalPayload.stored, FestivalPayload.daysIn, FestivalPayload.parsed, hp]
  have hcount : (p.parsed.days.getD []).length ≤ cfg.maxDays := by
    cases hp : p.days with
    | none => simp [days_parsed, hp]
    | some days => exact hdaysEq days hp ▸ hstored.dayCount
  have hsetIds : ((p.parsed.days.getD []).flatMap (fun day => setIdsOf day.sets)).Nodup := by
    cases hp : p.days with
    | none => simp [days_parsed, hp]
    | some days => exact hdaysEq days hp ▸ hstored.setIds
  have hname : p.parsed.name.getD "" ≠ "" ∧ sanitizeString env (p.parsed.name.getD "") ≠ "" := by
    obtain ⟨name, hname⟩ := isSome_iff_exists.mp hcomplete.name
    have hover := h.name
    simpa [FestivalPayload.over, FestivalPayload.parsed, hname] using hover
  cases hp : p.stages with
  | some stages =>
    have hstagesEq : (p.stored f).stages.getD [] = p.parsed.stages.getD [] := by
      simp [FestivalPayload.stored, FestivalPayload.stagesIn, FestivalPayload.parsed, hp]
    refine ⟨hname, hstagesEq ▸ hstored.stageCount, hcount, hstagesEq ▸ hstored.stages,
      hstagesEq ▸ hstored.stageIds, hstagesEq ▸ hstored.stageNames, ?_, hsetIds⟩
    cases hpd : p.days with
    | none => simp [days_parsed, hpd]
    | some days => exact hstagesEq ▸ hdaysEq days hpd ▸ hstored.days
  | none =>
    have hnil : p.parsed.stages.getD [] = [] := by simp [stages_parsed, hp]
    refine ⟨hname, by simp [hnil], hcount, by simp [hnil], by simp [hnil, stageIdsOf],
      by simp [hnil, stageNamesOf], ?_, hsetIds⟩
    -- without stages no set is stated
    rw [days_parsed, List.forall_mem_map]
    intro day hday
    have hstated : day.stated = [] := by
      rw [eq_nil_iff_forall_not_mem]
      intro x hx
      have hstages := hcomplete.stages x (mem_sets.mpr ⟨day, hday, hx⟩)
      rw [hp] at hstages
      cases hstages
    exact ⟨by simp [DayPayload.parsed, hstated], by simp [DayPayload.parsed, hstated],
      by simp [DayPayload.parsed, hstated]⟩

end

/-! ## An update that is accepted -/

/-- The clean rows of a valid festival fit the tables when its sets are not those of another. -/
theorem fits_clean_iff (h : Valid cfg env body) :
    Fits db festivalId (cleanStages cfg env (body.stages.getD []))
        (cleanDays cfg env b2bSep (body.days.getD [])) ↔
      ∀ id ∈ (body.days.getD []).flatMap (fun day => setIdsOf day.sets), ∀ y ∈ db.sets, y.id = id →
        y.festivalId = festivalId := by
  have hstageIds := map_id_cleanStages h.stageCount h.stages
  have hsetIds : (lineupSets (cleanDays cfg env b2bSep (body.days.getD []))).map LineupSet.id =
      (body.days.getD []).flatMap (fun day => setIdsOf day.sets) :=
    map_id_cleanDays h.dayCount (fun day hday => (h.days day hday).size)
      (fun day hday x hx => ((h.days day hday).sets x hx).id)
  rw [← hsetIds, List.forall_mem_map]
  refine ⟨fun hfits => hfits.setIds_free, fun hfree => ⟨?_, ?_, hfree, ?_⟩⟩
  · rw [UniqueKeys, hstageIds]
    exact h.stageIds
  · rw [UniqueKeys, hsetIds]
    exact h.setIds
  · intro x hx
    obtain ⟨day, hday, y, hy, i, j, rfl⟩ := mem_lineupSets_cleanDays hx
    obtain ⟨id, hid, hstageId⟩ := ((h.days day hday).sets y hy).stage
    rw [← hstageIds] at hid
    obtain ⟨stage, hstage, rfl⟩ := List.mem_map.mp hid
    exact ⟨stage, hstage, by rw [sanitizeSet, hstageId, getD_some]⟩

/-- No set of the line-up has the id of a set of another festival. -/
def SetIdsFree (db : Db) (festivalId : String) (days : List DayInput) : Prop :=
  ∀ id ∈ days.flatMap (fun day => setIdsOf day.sets), ∀ y ∈ db.sets, y.id = id →
    y.festivalId = festivalId

/-- **When an update is accepted whose festival is valid.** -/
theorem accepted_iff {p : FestivalPayload} (hexist : db.StagesExist)
    (hfound : db.getFestivalById festivalId = some existing)
    (hover : Valid cfg env (p.over existing)) :
    (putFestival cfg env now db festivalId p.parsed.toFestivalInput).1.failed = false ↔
      Complete p ∧ db.pickedOrNoted festivalId = false ∧
        SetIdsFree db festivalId (p.daysIn existing) := by
  rw [putFestival_accepted hexist hfound, valid_parsed_iff hover]
  refine and_congr_right fun hcomplete => and_congr_right fun _ => ?_
  exact fits_clean_iff (valid_stored hover hcomplete.stageIds)

/-! ## What is kept -/

/-- The separator of names, as it is stored. -/
def cleanSeparator (env : Env) (b2bSeparator : String) : String :=
  orElse (sanitizeString env b2bSeparator 10) "b2b"

/-- The time zone, as it is stored. -/
def cleanTimeZone (env : Env) (timeZone : Option String) : Option String :=
  ((timeZone.filter (· ≠ "")).map (fun tz => sanitizeString env tz 64)).filter (· ≠ "")

/-- What a stage is completed with is what is stored of it. -/
structure StageDefaults (p : StagePayload) (stored : StageInput) : Prop where
  color : p.color = none → stored.color = some "#666666"
  latitude : p.latitude = none → stored.latitude = none
  longitude : p.longitude = none → stored.longitude = none

structure DayDefaults (env : Env) (p : DayPayload) (stored : DayInput) : Prop where
  label : p.label = none → stored.label = some (sanitizeString env "" 100)
  date : p.date = none → stored.date = some (sanitizeString env "" 20)
  sets : p.sets = none → stored.sets = []

/-- The artists that the set is stated with have neither a photo nor a genre stored. -/
structure SetDefaults (env : Env) (p : SetPayload) (stored : SetInput) : Prop where
  startTime : p.startTime = none → stored.startTime = none
  endTime : p.endTime = none → stored.endTime = none
  linkUrl : p.linkUrl = none → stored.linkUrl = spotifyLink (normalizeSetArtists env p.parsed)
  artists : ∀ a ∈ stored.artists.getD [],
    a.name ∈ (normalizeSetArtists env p.parsed).map Artist.name → a.photo = none ∧ a.genres = []

/-- Nothing that is stored is lost for want of being stated again: what is left out altogether is
clean, and what is left out of a stage, day or set that is stated is as the defaults have it. -/
structure Careful (env : Env) (p : FestivalPayload) (stored : Festival) : Prop where
  location : p.location = none → sanitizeString env stored.location 500 = stored.location
  b2bSeparator : p.b2bSeparator = none →
    cleanSeparator env stored.b2bSeparator = stored.b2bSeparator
  timeZone : p.timeZone = none → cleanTimeZone env stored.timeZone = stored.timeZone
  stages : p.stages = none → ∀ stage ∈ stored.stages, CleanStage env stage
  days : p.days = none → ∀ day ∈ stored.days,
    CleanDay env (cleanSeparator env (p.b2bSeparator.getD stored.b2bSeparator)) day
  eachStage : ∀ q ∈ p.stages.getD [], ∀ st ∈ stored.stages, st.id.isSome = true →
    st.id = sanitizeIdentifier q.id → StageDefaults q st
  eachDay : ∀ (i : ℕ) (q : DayPayload) (d : DayInput), (p.days.getD [])[i]? = some q →
    stored.days[i]? = some d → DayDefaults env q d
  eachSet : ∀ q ∈ p.sets, ∀ x ∈ stored.sets, x.id.isSome = true →
    x.id = sanitizeIdentifier q.id → SetDefaults env q x

theorem cleanStages_eq_self (hcount : stages.length ≤ cfg.maxStages)
    (hvalid : ∀ stage ∈ stages, StageValid env stage) :
    (cleanStages cfg env stages).map Stage.input = stages ↔
      ∀ stage ∈ stages, CleanStage env stage := by
  rw [cleanStages, take_of_length_le hcount]
  exact map_mapIdx_eq_self fun i stage hstage => input_sanitizeStage (hvalid stage hstage).id i

theorem cleanDays_eq_self (hcount : days.length ≤ cfg.maxDays)
    (hvalid : ∀ day ∈ days, DayValid cfg env stageIds day) :
    (cleanDays cfg env b2bSep days).map Day.input = days ↔
      ∀ day ∈ days, CleanDay env b2bSep day := by
  rw [cleanDays, take_of_length_le hcount]
  exact map_mapIdx_eq_self fun i day hday => input_sanitizeDay (hvalid day hday) b2bSep i

theorem stageKept_iff {q : StagePayload} {st : StageInput} (i : ℕ) :
    StageKept q st (sanitizeStage env i q.parsed).input ↔ StageDefaults q st := by
  have hcolor : q.color = none →
      (sanitizeStage env i q.parsed).input.color = some "#666666" := by
    intro h
    simp [sanitizeStage, Stage.input, StagePayload.parsed, h]
  have hlatitude : q.latitude = none → (sanitizeStage env i q.parsed).input.latitude = none := by
    intro h
    simp [sanitizeStage, Stage.input, StagePayload.parsed, h, coord]
  have hlongitude : q.longitude = none →
      (sanitizeStage env i q.parsed).input.longitude = none := by
    intro h
    simp [sanitizeStage, Stage.input, StagePayload.parsed, h, coord]
  constructor
  · intro h
    exact ⟨fun hq => (h.color hq).symm.trans (hcolor hq),
      fun hq => (h.latitude hq).symm.trans (hlatitude hq),
      fun hq => (h.longitude hq).symm.trans (hlongitude hq)⟩
  · intro h
    exact ⟨fun hq => (hcolor hq).trans (h.color hq).symm,
      fun hq => (hlatitude hq).trans (h.latitude hq).symm,
      fun hq => (hlongitude hq).trans (h.longitude hq).symm⟩

theorem dayKept_iff {q : DayPayload} {d : DayInput} (i : ℕ) :
    DayKept q d (sanitizeDay cfg env b2bSep i q.parsed).input ↔ DayDefaults env q d := by
  have hlabel : q.label = none → (sanitizeDay cfg env b2bSep i q.parsed).input.label =
      some (sanitizeString env "" 100) := by
    intro h
    simp [sanitizeDay, Day.input, DayPayload.parsed, h]
  have hdate : q.date = none → (sanitizeDay cfg env b2bSep i q.parsed).input.date =
      some (sanitizeString env "" 20) := by
    intro h
    simp [sanitizeDay, Day.input, DayPayload.parsed, h]
  have hsets : q.sets = none → (sanitizeDay cfg env b2bSep i q.parsed).input.sets = [] := by
    intro h
    simp [sanitizeDay, Day.input, DayPayload.parsed, DayPayload.stated, h]
  constructor
  · intro h
    exact ⟨fun hq => (h.label hq).symm.trans (hlabel hq),
      fun hq => (h.date hq).symm.trans (hdate hq), fun hq => (h.sets hq).symm.trans (hsets hq)⟩
  · intro h
    exact ⟨fun hq => (hlabel hq).trans (h.label hq).symm,
      fun hq => (hdate hq).trans (h.date hq).symm, fun hq => (hsets hq).trans (h.sets hq).symm⟩

/-- Clean artists have no photos and genres. -/
theorem mem_normalizeSetArtists_plain (h : a ∈ normalizeSetArtists env x) :
    a.photo = none ∧ a.genres = [] := by
  unfold normalizeSetArtists at h
  split at h
  · obtain ⟨h, -⟩ := mem_filter.mp h
    obtain ⟨b, -, rfl⟩ := List.mem_map.mp h
    exact ⟨rfl, rfl⟩
  · simp only [mem_ite_nil_left, mem_singleton] at h
    obtain ⟨-, rfl⟩ := h
    exact ⟨rfl, rfl⟩

theorem setKept_iff {q : SetPayload} (i j : ℕ) (hstage : q.stageId.isSome = true) :
    SetKept q x (sanitizeSet env b2bSep i j q.parsed).input ↔ SetDefaults env q x := by
  have hstart : q.startTime = none →
      (sanitizeSet env b2bSep i j q.parsed).input.startTime = none := by
    intro h
    simp [sanitizeSet, LineupSet.input, SetPayload.parsed, h]
  have hend : q.endTime = none →
      (sanitizeSet env b2bSep i j q.parsed).input.endTime = none := by
    intro h
    simp [sanitizeSet, LineupSet.input, SetPayload.parsed, h]
  have hlink : (sanitizeSet env b2bSep i j q.parsed).input.linkUrl =
      spotifyLink (normalizeSetArtists env q.parsed) := linkUrl_input _
  have hartists : (sanitizeSet env b2bSep i j q.parsed).input.artists.getD [] =
      normalizeSetArtists env q.parsed := rfl
  constructor
  · intro h
    refine ⟨fun hq => (h.startTime hq).symm.trans (hstart hq),
      fun hq => (h.endTime hq).symm.trans (hend hq), fun hq => (h.linkUrl hq).symm.trans hlink, ?_⟩
    intro a ha hname
    obtain ⟨b, hb, hba⟩ := List.mem_map.mp hname
    obtain ⟨hphoto, hgenres⟩ := h.artists a ha b (hartists ▸ hb) hba
    obtain ⟨hplainPhoto, hplainGenres⟩ := mem_normalizeSetArtists_plain hb
    exact ⟨hphoto.symm.trans hplainPhoto, hgenres.symm.trans hplainGenres⟩
  · intro h
    refine ⟨fun hq => ?_, fun hq => (hstart hq).trans (h.startTime hq).symm,
      fun hq => (hend hq).trans (h.endTime hq).symm, fun hq => hlink.trans (h.linkUrl hq).symm, ?_⟩
    · rw [hq] at hstage
      cases hstage
    · intro a ha b hb hba
      rw [hartists] at hb
      obtain ⟨hphoto, hgenres⟩ := h.artists a ha (hba ▸ List.mem_map_of_mem hb)
      obtain ⟨hplainPhoto, hplainGenres⟩ := mem_normalizeSetArtists_plain hb
      exact ⟨hplainPhoto.trans hphoto.symm, hplainGenres.trans hgenres.symm⟩

/-- The stored stage with the id of a stage is the one that was made from it. -/
theorem forall_mem_cleanStages (hcount : stages.length ≤ cfg.maxStages)
    (hvalid : ∀ stage ∈ stages, StageValid env stage) (hids : (stageIdsOf stages).Nodup)
    (hstage : stage ∈ stages) : ∃ i, ∀ P : StageInput → Prop,
      (∀ st ∈ (cleanStages cfg env stages).map Stage.input, st.id = sanitizeIdentifier stage.id →
        P st) ↔ P (sanitizeStage env i stage).input := by
  obtain ⟨i, hi, rfl⟩ := mem_iff_getElem.mp hstage
  have hmem : sanitizeStage env i stages[i] ∈ cleanStages cfg env stages := by
    rw [cleanStages, take_of_length_le hcount]
    exact mem_mapIdx.mpr ⟨i, hi, rfl⟩
  have hunique : UniqueKeys Stage.id (cleanStages cfg env stages) := by
    rw [UniqueKeys, map_id_cleanStages hcount hvalid]
    exact hids
  have hid := @sanitizeStage_id env _ (hvalid _ hstage).id i
  refine ⟨i, fun P => ⟨fun h => h _ (List.mem_map_of_mem hmem) hid.symm, fun h st hst heq => ?_⟩⟩
  obtain ⟨made, hmade, rfl⟩ := List.mem_map.mp hst
  rw [hunique.eq_of_mem hmade hmem (some.inj (heq.trans hid))]
  exact h

theorem forall_mem_cleanDays (hcount : days.length ≤ cfg.maxDays)
    (hvalid : ∀ day ∈ days, DayValid cfg env stageIds day)
    (hids : (days.flatMap (fun day => setIdsOf day.sets)).Nodup) (hday : day ∈ days)
    (hx : x ∈ day.sets) : ∃ i j, ∀ P : SetInput → Prop,
      (∀ y ∈ (lineupSets (cleanDays cfg env b2bSep days)).map LineupSet.input,
        y.id = sanitizeIdentifier x.id → P y) ↔ P (sanitizeSet env b2bSep i j x).input := by
  have hxValid := (hvalid day hday).sets x hx
  obtain ⟨i, hi, rfl⟩ := mem_iff_getElem.mp hday
  obtain ⟨j, hj, rfl⟩ := mem_iff_getElem.mp hx
  have hmem : sanitizeSet env b2bSep i j days[i].sets[j] ∈
      lineupSets (cleanDays cfg env b2bSep days) := by
    rw [cleanDays, take_of_length_le hcount]
    refine mem_flatMap.mpr ⟨_, mem_mapIdx.mpr ⟨i, hi, rfl⟩, ?_⟩
    rw [sanitizeDay, take_of_length_le (hvalid _ hday).size]
    exact mem_mapIdx.mpr ⟨j, hj, rfl⟩
  have hunique : UniqueKeys LineupSet.id (lineupSets (cleanDays cfg env b2bSep days)) := by
    rw [UniqueKeys, map_id_cleanDays hcount (fun d hd => (hvalid d hd).size)
      (fun d hd y hy => ((hvalid d hd).sets y hy).id)]
    exact hids
  have hid := @sanitizeSet_id env _ hxValid.id b2bSep i j
  refine ⟨i, j, fun P => ⟨fun h => h _ (List.mem_map_of_mem hmem) hid.symm, fun h y hy heq => ?_⟩⟩
  obtain ⟨made, hmade, rfl⟩ := List.mem_map.mp hy
  rw [hunique.eq_of_mem hmade hmem (some.inj (heq.trans hid))]
  exact h

theorem sets_shown (festivalId : String) (next : NextFestival) :
    (next.shown festivalId).sets = (lineupSets next.days).map LineupSet.input := by
  rw [Festival.sets, NextFestival.shown, flatMap_map, lineupSets, map_flatMap]
  rfl

/-- **When an update keeps what is left out.** -/
theorem kept_shown_iff {p : FestivalPayload} (h : Valid cfg env (p.over f))
    (hcomplete : Complete p) :
    Kept p f ((sanitizeFestivalPayload cfg env p.parsed.toFestivalInput f).shown f.id) ↔
      Careful env p f := by
  have hstored := valid_stored h hcomplete.stageIds
  set after := (sanitizeFestivalPayload cfg env p.parsed.toFestivalInput f).shown f.id with hafter
  set b2bSep := cleanSeparator env (p.b2bSeparator.getD f.b2bSeparator) with hsep
  have hstages : after.stages = (cleanStages cfg env (p.stagesIn f)).map Stage.input := rfl
  have hdays : after.days = (cleanDays cfg env b2bSep (p.daysIn f)).map Day.input := rfl
  have hsets : after.sets =
      (lineupSets (cleanDays cfg env b2bSep (p.daysIn f))).map LineupSet.input := sets_shown _ _
  have hkeptStages : p.stages = none →
      (after.stages = f.stages ↔ ∀ stage ∈ f.stages, CleanStage env stage) := by
    intro hp
    have hin : p.stagesIn f = f.stages := by simp [FestivalPayload.stagesIn, FestivalPayload.parsed, hp]
    have hcount : (p.stagesIn f).length ≤ cfg.maxStages := hstored.stageCount
    have hvalid : ∀ stage ∈ p.stagesIn f, StageValid env stage := hstored.stages
    rw [hin] at hcount hvalid
    rw [hstages, hin]
    exact cleanStages_eq_self hcount hvalid
  have hkeptDays : p.days = none →
      (after.days = f.days ↔ ∀ day ∈ f.days, CleanDay env b2bSep day) := by
    intro hp
    have hin : p.daysIn f = f.days := by simp [FestivalPayload.daysIn, FestivalPayload.parsed, hp]
    have hcount : (p.daysIn f).length ≤ cfg.maxDays := hstored.dayCount
    have hvalid : ∀ day ∈ p.daysIn f, DayValid cfg env (stageIdsOf (p.stagesIn f)) day :=
      hstored.days
    rw [hin] at hcount hvalid
    rw [hdays, hin]
    exact cleanDays_eq_self hcount hvalid
  have heachStage : ∀ q ∈ p.stages.getD [], ∀ st : StageInput, st.id = sanitizeIdentifier q.id →
      ((∀ st' ∈ after.stages, st'.id = st.id → StageKept q st st') ↔ StageDefaults q st) := by
    intro q hq st hst
    have hin : q.parsed ∈ p.stagesIn f := by
      cases hp : p.stages with
      | none => simp [hp] at hq
      | some stages =>
        rw [hp, getD_some] at hq
        simpa [FestivalPayload.stagesIn, FestivalPayload.parsed, hp] using
          List.mem_map_of_mem (f := StagePayload.parsed) hq
    obtain ⟨i, hi⟩ :=
      forall_mem_cleanStages hstored.stageCount hstored.stages hstored.stageIds hin
    rw [hstages, hst]
    exact (hi (StageKept q st)).trans (stageKept_iff i)
  have heachDay : ∀ (i : ℕ) (q : DayPayload) (d : DayInput), (p.days.getD [])[i]? = some q →
      ((∀ d', after.days[i]? = some d' → DayKept q d d') ↔ DayDefaults env q d) := by
    intro i q d hq
    have hday : after.days[i]? = some (sanitizeDay cfg env b2bSep i q.parsed).input := by
      cases hp : p.days with
      | none => simp [hp] at hq
      | some days =>
        rw [hp, getD_some] at hq
        have hin : p.daysIn f = days.map DayPayload.parsed := by
          simp [FestivalPayload.daysIn, FestivalPayload.parsed, hp]
        have hcount : (days.map DayPayload.parsed).length ≤ cfg.maxDays := hin ▸ hstored.dayCount
        rw [hdays, hin, cleanDays, take_of_length_le hcount]
        simp [hq]
    rw [hday]
    simp only [some.injEq, forall_eq']
    exact dayKept_iff i
  have heachSet : ∀ q ∈ p.sets, ∀ x : SetInput, x.id = sanitizeIdentifier q.id →
      ((∀ x' ∈ after.sets, x'.id = x.id → SetKept q x x') ↔ SetDefaults env q x) := by
    intro q hq x hx
    obtain ⟨day, hday, hqday⟩ := mem_sets.mp hq
    have hin : day.parsed ∈ p.daysIn f := by
      cases hp : p.days with
      | none => simp [hp] at hday
      | some days =>
        rw [hp, getD_some] at hday
        simpa [FestivalPayload.daysIn, FestivalPayload.parsed, hp] using
          List.mem_map_of_mem (f := DayPayload.parsed) hday
    obtain ⟨i, j, hij⟩ := @forall_mem_cleanDays cfg env q.parsed _ _ b2bSep _ hstored.dayCount
      hstored.days hstored.setIds hin (List.mem_map_of_mem hqday)
    rw [hsets, hx]
    exact (hij (SetKept q x)).trans (setKept_iff i j (hcomplete.stageIds q hq))
  have hlocation : p.location = none →
      after.location = sanitizeString env f.location 500 := by
    intro hp
    simp [hafter, NextFestival.shown, sanitizeFestivalPayload, FestivalPayload.parsed, hp]
  have hseparator : p.b2bSeparator = none →
      after.b2bSeparator = cleanSeparator env f.b2bSeparator := by
    intro hp
    simp [hafter, NextFestival.shown, sanitizeFestivalPayload, FestivalPayload.parsed, hp,
      cleanSeparator]
  have htimeZone : p.timeZone = none → after.timeZone = cleanTimeZone env f.timeZone := by
    intro hp
    simp only [hafter, NextFestival.shown, sanitizeFestivalPayload, FestivalPayload.parsed, hp,
      getD_none]
    rfl
  constructor
  · intro hkept
    exact {
      location := fun hp => (hlocation hp).symm.trans (hkept.location hp)
      b2bSeparator := fun hp => (hseparator hp).symm.trans (hkept.b2bSeparator hp)
      timeZone := fun hp => (htimeZone hp).symm.trans (hkept.timeZone hp)
      stages := fun hp => (hkeptStages hp).mp (hkept.stages hp)
      days := fun hp => (hkeptDays hp).mp (hkept.days hp)
      eachStage := fun q hq st hst hsome heq =>
        (heachStage q hq st heq).mp (hkept.eachStage q hq st hst hsome heq)
      eachDay := fun i q d hq hd =>
        (heachDay i q d hq).mp fun d' hd' => hkept.eachDay i q d d' hq hd hd'
      eachSet := fun q hq x hx hsome heq =>
        (heachSet q hq x heq).mp (hkept.eachSet q hq x hx hsome heq) }
  · intro hcareful
    obtain ⟨name, hname⟩ := isSome_iff_exists.mp hcomplete.name
    exact {
      id := rfl
      name := fun hp => by rw [hname] at hp; cases hp
      location := fun hp => (hlocation hp).trans (hcareful.location hp)
      b2bSeparator := fun hp => (hseparator hp).trans (hcareful.b2bSeparator hp)
      timeZone := fun hp => (htimeZone hp).trans (hcareful.timeZone hp)
      mapConfig := fun hp => by
        simp [hafter, NextFestival.shown, sanitizeFestivalPayload, FestivalPayload.parsed, hp]
      stages := fun hp => (hkeptStages hp).mpr (hcareful.stages hp)
      days := fun hp => (hkeptDays hp).mpr (hcareful.days hp)
      eachStage := fun q hq st hst hsome heq =>
        (heachStage q hq st heq).mpr (hcareful.eachStage q hq st hst hsome heq)
      eachDay := fun i q d d' hq hd =>
        (heachDay i q d hq).mpr (hcareful.eachDay i q d hq hd) d'
      eachSet := fun q hq x hx hsome heq =>
        (heachSet q hq x heq).mpr (hcareful.eachSet q hq x hx hsome heq) }

/-! ## A festival that is sent again -/

/-- A set without the photos and genres of its artists. -/
def SetInput.plain (x : SetInput) : SetInput :=
  { x with artists := x.artists.map (List.map Artist.parsed) }

def DayInput.plain (d : DayInput) : DayInput := { d with sets := d.sets.map SetInput.plain }

/-- Everything of the festival is clean. -/
structure CleanFestival (env : Env) (f : Festival) : Prop where
  name : sanitizeString env f.name = f.name
  location : sanitizeString env f.location 500 = f.location
  b2bSeparator : cleanSeparator env f.b2bSeparator = f.b2bSeparator
  timeZone : cleanTimeZone env f.timeZone = f.timeZone
  stages : ∀ stage ∈ f.stages, CleanStage env stage
  days : ∀ day ∈ f.days, CleanDay env f.b2bSeparator day

theorem stagesIn_payloadOf (f : Festival) : (payloadOf f).stagesIn f = f.stages := by
  simp only [FestivalPayload.stagesIn, FestivalPayload.parsed, payloadOf, map_some,
    getD_some, List.map_map]
  exact List.map_id' f.stages

theorem daysIn_payloadOf (f : Festival) : (payloadOf f).daysIn f = f.days.map DayInput.plain := by
  simp only [FestivalPayload.daysIn, FestivalPayload.parsed, payloadOf, map_some,
    getD_some, List.map_map]
  refine map_congr_left fun d _ => ?_
  simp only [Function.comp, DayPayload.parsed, DayPayload.stated, getD_some, List.map_map,
    DayInput.plain]
  rfl

/-- The festival that should result is the stored one. -/
theorem days_over_payloadOf (f : Festival) : ((payloadOf f).over f).days = some f.days := by
  simp only [FestivalPayload.over, payloadOf, elim_some, some.injEq]
  refine ext_getElem (by simp) fun i hi hi' => ?_
  simp only [getElem_mapIdx, getElem_map, DayPayload.over,
    getElem?_eq_getElem hi', bind_some, elim_some, List.map_map, Option.or_self]
  have hsets : f.days[i].sets.map (SetPayload.over f ∘ fun x =>
      { id := x.id, artists := x.artists, artist := x.artist, stageId := some x.stageId
        startTime := some x.startTime, endTime := some x.endTime, linkUrl := some x.linkUrl }) =
      f.days[i].sets := List.map_id' f.days[i].sets
  rw [hsets]

theorem normalizeSetArtists_plain (x : SetInput) :
    normalizeSetArtists env x.plain = normalizeSetArtists env x := by
  have hsome : x.plain.someArtists = x.someArtists.map (List.map Artist.parsed) := by
    show (x.artists.map (List.map Artist.parsed)).filter (· ≠ []) =
      (x.artists.filter (· ≠ [])).map (List.map Artist.parsed)
    cases x.artists with
    | none => rfl
    | some artists => cases artists <;> rfl
  rw [normalizeSetArtists, normalizeSetArtists, hsome]
  cases x.someArtists with
  | none => rfl
  | some artists =>
    rw [map_some]
    simp only [← map_take, List.map_map]
    rfl

theorem sanitizeSet_plain (b2bSep : String) (i j : ℕ) (x : SetInput) :
    sanitizeSet env b2bSep i j x.plain = sanitizeSet env b2bSep i j x := by
  rw [sanitizeSet, sanitizeSet, normalizeSetArtists_plain]
  rfl

theorem cleanDays_plain (b2bSep : String) (days : List DayInput) :
    cleanDays cfg env b2bSep (days.map DayInput.plain) = cleanDays cfg env b2bSep days := by
  refine ext_getElem (by simp [cleanDays]) fun i hi hi' => ?_
  simp only [cleanDays, getElem_mapIdx, getElem_take, getElem_map, sanitizeDay,
    DayInput.plain]
  congr 1
  refine ext_getElem (by simp) fun j hj hj' => ?_
  simp only [getElem_mapIdx, getElem_take, getElem_map, sanitizeSet_plain]

theorem complete_payloadOf (f : Festival) : Complete (payloadOf f) := by
  refine ⟨rfl, fun _ _ => rfl, fun x hx => ?_⟩
  obtain ⟨day, hday, hx⟩ := mem_sets.mp hx
  obtain ⟨d, -, rfl⟩ := List.mem_map.mp hday
  obtain ⟨y, -, rfl⟩ := List.mem_map.mp hx
  rfl

/-- **When a festival that is sent again is read as before.** -/
theorem shown_payloadOf_iff (h : Valid cfg env ((payloadOf f).over f)) :
    (sanitizeFestivalPayload cfg env (payloadOf f).parsed.toFestivalInput f).shown f.id = f ↔
      CleanFestival env f := by
  have hstored := valid_stored h (complete_payloadOf f).stageIds
  have hstageCount : ((payloadOf f).stagesIn f).length ≤ cfg.maxStages := hstored.stageCount
  have hstageValid : ∀ stage ∈ (payloadOf f).stagesIn f, StageValid env stage := hstored.stages
  have hdayCount := h.dayCount
  have hdayValid := h.days
  rw [days_over_payloadOf, getD_some] at hdayCount hdayValid
  set next := sanitizeFestivalPayload cfg env (payloadOf f).parsed.toFestivalInput f with hnext
  have hname : next.name = sanitizeString env f.name := by
    have horElse : orElse f.name f.name = f.name := ite_self _
    simp only [hnext, sanitizeFestivalPayload, FestivalPayload.parsed, payloadOf, getD_some,
      horElse]
  have hstages : next.stages.map Stage.input = f.stages ↔
      ∀ stage ∈ f.stages, CleanStage env stage := by
    have hnextStages : next.stages = cleanStages cfg env ((payloadOf f).stagesIn f) := rfl
    rw [stagesIn_payloadOf] at hnextStages hstageCount hstageValid
    rw [hnextStages]
    exact cleanStages_eq_self hstageCount hstageValid
  have hdays : next.days.map Day.input = f.days ↔
      ∀ day ∈ f.days, CleanDay env (cleanSeparator env f.b2bSeparator) day := by
    have hnextDays : next.days =
        cleanDays cfg env (cleanSeparator env f.b2bSeparator) ((payloadOf f).daysIn f) := rfl
    rw [hnextDays, daysIn_payloadOf, cleanDays_plain]
    exact cleanDays_eq_self hdayCount hdayValid
  constructor
  · intro heq
    have hseparator : cleanSeparator env f.b2bSeparator = f.b2bSeparator :=
      congrArg Festival.b2bSeparator heq
    exact ⟨hname.symm.trans (congrArg Festival.name heq), congrArg Festival.location heq, hseparator,
      congrArg Festival.timeZone heq, hstages.mp (congrArg Festival.stages heq),
      hseparator ▸ hdays.mp (congrArg Festival.days heq)⟩
  · intro hclean
    have hlocation : next.location = f.location := hclean.location
    have hseparator : next.b2bSeparator = f.b2bSeparator := hclean.b2bSeparator
    have htimeZone : next.timeZone = f.timeZone := hclean.timeZone
    have hmap : next.mapConfig = f.mapConfig := rfl
    have hcleanDays : next.days.map Day.input = f.days :=
      hdays.mpr (hclean.b2bSeparator.symm ▸ hclean.days)
    rw [NextFestival.shown, hname, hclean.name, hlocation, hseparator, htimeZone, hmap,
      hstages.mpr hclean.stages, hcleanDays]

/-! ## The frame -/

/-- What an update never touches. -/
structure RowKept (before after : FestivalRow) : Prop where
  createdAt : after.createdAt = before.createdAt
  latitude : after.latitude = before.latitude
  longitude : after.longitude = before.longitude
  deleted : after.deleted = before.deleted

/-- The update is accepted, and every field that the payload leaves out is as it was. -/
def IsFrame (cfg : Config) (env : Env) (now : ℕ) (db : Db) (festivalId : String)
    (existing : Festival) (p : FestivalPayload) : Prop :=
  (putFestival cfg env now db festivalId p.parsed.toFestivalInput).1.failed = false ∧
    (∃ after, (putFestival cfg env now db festivalId p.parsed.toFestivalInput).2.getFestivalById
      festivalId = some after ∧ Kept p existing after) ∧
    ∀ f ∈ db.selectFestival festivalId,
      ∃ f', (putFestival cfg env now db festivalId p.parsed.toFestivalInput).2.selectFestival
        festivalId = some f' ∧ RowKept f f'

/-- The update is accepted, and the festival is read as before. -/
def IsUnchanged (cfg : Config) (env : Env) (now : ℕ) (db : Db) (festivalId : String)
    (existing : Festival) (p : FestivalPayload) : Prop :=
  (putFestival cfg env now db festivalId p.parsed.toFestivalInput).1.failed = false ∧
    (putFestival cfg env now db festivalId p.parsed.toFestivalInput).2.getFestivalById festivalId =
      some existing ∧
    ∀ f ∈ db.selectFestival festivalId,
      ∃ f', (putFestival cfg env now db festivalId p.parsed.toFestivalInput).2.selectFestival
        festivalId = some f' ∧ RowKept f f'

/-- What has to hold for an update to be accepted, when the festival that should result is valid. -/
structure Acceptable (db : Db) (festivalId : String) (existing : Festival) (p : FestivalPayload) :
    Prop where
  complete : Complete p
  unpicked : db.pickedOrNoted festivalId = false
  free : SetIdsFree db festivalId (p.daysIn existing)

theorem acceptable_iff {p : FestivalPayload} (hexist : db.StagesExist)
    (hfound : db.getFestivalById festivalId = some existing)
    (hover : Valid cfg env (p.over existing)) :
    (putFestival cfg env now db festivalId p.parsed.toFestivalInput).1.failed = false ↔
      Acceptable db festivalId existing p := by
  rw [accepted_iff hexist hfound hover]
  exact ⟨fun h => ⟨h.1, h.2.1, h.2.2⟩, fun h => ⟨h.complete, h.unpicked, h.free⟩⟩

theorem id_of_getFestivalById (h : db.getFestivalById festivalId = some existing) :
    existing.id = festivalId := by
  obtain ⟨f, hselect, rfl⟩ := map_eq_some_iff.mp h
  have hf : f.id = festivalId ∧ f.deleted = false := by simpa using find?_some hselect
  exact hf.1

/-- **A partial update is a frame exactly when** the payload names the festival, states its sets
with their stages, meets no pick and no set of another festival, and leaves out nothing that would
not be stored the same again; a festival that is sent again is unchanged exactly when it is clean. -/
theorem partial_update_iff (now : ℕ) (hexist : db.StagesExist)
    (hfound : db.getFestivalById festivalId = some existing) :
    (∀ p : FestivalPayload, validateFestival cfg env (p.over existing) = [] →
      (IsFrame cfg env now db festivalId existing p ↔
        Acceptable db festivalId existing p ∧ Careful env p existing)) ∧
    (validateFestival cfg env ((payloadOf existing).over existing) = [] →
      (IsUnchanged cfg env now db festivalId existing (payloadOf existing) ↔
        Acceptable db festivalId existing (payloadOf existing) ∧ CleanFestival env existing)) := by
  obtain ⟨f, hselect, -⟩ := Option.map_eq_some_iff.mp hfound
  have hid := id_of_getFestivalById hfound
  -- the columns that no update writes
  have hrow : ∀ (p : FestivalPayload) (g : FestivalRow), g ∈ db.selectFestival festivalId →
      (putFestival cfg env now db festivalId p.parsed.toFestivalInput).1.failed = false →
      ∃ g', (putFestival cfg env now db festivalId p.parsed.toFestivalInput).2.selectFestival
        festivalId = some g' ∧ RowKept g g' := by
    intro p g hg haccepted
    exact ⟨_, (getFestivalById_putFestival hexist hg hfound haccepted).1, rfl, rfl, rfl, rfl⟩
  constructor
  · intro p hover
    rw [validateFestival_eq_nil] at hover
    rw [IsFrame, acceptable_iff hexist hfound hover]
    refine and_congr_right fun hacceptable => ?_
    have haccepted := (@acceptable_iff cfg env now _ _ _ _ hexist hfound hover).mpr hacceptable
    rw [← kept_shown_iff hover hacceptable.complete,
      (getFestivalById_putFestival hexist hselect hfound haccepted).2, hid]
    constructor
    · rintro ⟨⟨after, heq, hkept⟩, -⟩
      rwa [Option.some.inj heq]
    · intro hkept
      exact ⟨⟨_, rfl, hkept⟩, fun g hg => hrow p g hg haccepted⟩
  · intro hover
    rw [validateFestival_eq_nil] at hover
    rw [IsUnchanged, acceptable_iff hexist hfound hover]
    refine and_congr_right fun hacceptable => ?_
    have haccepted := (@acceptable_iff cfg env now _ _ _ _ hexist hfound hover).mpr hacceptable
    rw [← shown_payloadOf_iff hover,
      (getFestivalById_putFestival hexist hselect hfound haccepted).2, hid, Option.some.injEq]
    exact ⟨fun h => h.1, fun h => ⟨h, fun g hg => hrow _ g hg haccepted⟩⟩

/-! ## Updates of one festival -/

/-- A festival as it is returned, with one set. -/
def openAir (photo : Option String) : Festival :=
  { id := "f1", name := "Open Air", location := "Lake", b2bSeparator := "b2b", timeZone := none
    mapConfig := none
    stages := [⟨some "main", "Main", some "#ff0000", none, none⟩]
    days := [⟨some "Friday", some "2026-09-04", [⟨some "s1",
      some [{ name := "Nova", links := [], photo := photo }], some "Nova", some "main",
      some "20:00", some "21:00", none⟩]⟩] }

/-- The same festival in the tables. -/
def oneFestival (photo : Option String) : Db :=
  { users := []
    festivals := [⟨"f1", "Open Air", "Lake", some "b2b", none, none, none, none, 0, 0, false⟩]
    stages := [⟨"f1", "main", "Main", some "#ff0000", 0, none, none⟩]
    days := [⟨"f1", 0, "Friday", "2026-09-04"⟩]
    sets := [⟨"s1", "f1", 0, "Nova", "main", some "20:00", some "21:00", 0, none,
      [{ name := "Nova", links := [], photo := photo }]⟩]
    profiles := [], picks := [], notes := [], ratings := [] }

def novaPhoto : String := "https://i.scdn.co/image/nova"

/-- A new name, with the colour of the stage again but without its place. -/
def renamed : FestivalPayload :=
  { name := some "Open Air 2026"
    stages := some [{ id := some "main", name := "Main", color := some "#ff0000" }] }

/-- Only a new place. -/
def moved : FestivalPayload := { location := some "Hill" }

/-- Texts of any form are let through. -/
def anyFormat : Formats :=
  { isUrl := fun _ => true, isTimeZone := fun _ => true, isMapConfig := fun _ => true }

theorem openAir_clean : CleanFestival plainTexts (openAir none) where
  name := by decide
  location := by decide
  b2bSeparator := by decide
  timeZone := rfl
  stages := by
    rw [openAir, forall_mem_singleton]
    exact ⟨by decide, by decide, ⟨"#ff0000", rfl, by decide⟩, by simp, by simp⟩
  days := by
    rw [openAir, forall_mem_singleton]
    refine ⟨⟨"Friday", rfl, by decide⟩, ⟨"2026-09-04", rfl, by decide⟩, ?_⟩
    rw [forall_mem_singleton]
    refine ⟨by decide, by decide, ⟨_, rfl, by simp, by simp, ?_, rfl, rfl⟩, ?_, ?_⟩
    · rw [forall_mem_singleton]
      exact ⟨by decide, by simp, rfl, rfl, rfl⟩
    · decide
    · decide

theorem partial_update_new_name :
    IsFrame {} plainTexts 1 (oneFestival none) "f1" (openAir none) renamed ∧
      IsUnchanged {} plainTexts 1 (oneFestival none) "f1" (openAir none)
        (payloadOf (openAir none)) := by
  have hiff := @partial_update_iff {} plainTexts (oneFestival none) "f1" (openAir none) 1
    (by decide) (by decide)
  constructor
  · refine (hiff.1 renamed (by decide)).mpr ⟨⟨⟨rfl, ?_, ?_⟩, by decide, ?_⟩, ?_⟩
    · exact fun x hx => absurd hx List.not_mem_nil
    · exact fun x hx => absurd hx List.not_mem_nil
    · unfold SetIdsFree
      decide
    · exact {
        location := fun _ => openAir_clean.location
        b2bSeparator := fun _ => openAir_clean.b2bSeparator
        timeZone := fun _ => openAir_clean.timeZone
        stages := fun hp => by cases hp
        days := fun _ => openAir_clean.days
        eachStage := by
          rw [renamed, Option.getD_some, List.forall_mem_singleton, openAir,
            List.forall_mem_singleton]
          exact fun _ _ => ⟨(fun h => by cases h), fun _ => rfl, fun _ => rfl⟩
        eachDay := fun i q d hq => by cases hq
        eachSet := fun q hq => absurd hq List.not_mem_nil }
  · refine (hiff.2 (by decide)).mpr ⟨⟨complete_payloadOf _, by decide, ?_⟩, openAir_clean⟩
    unfold SetIdsFree
    decide

/-- **A new place alone is refused, a new name takes the photos of the artists away, and so does the
festival as it is returned.** -/
theorem new_place_refused_photo_lost :
    festivalUpdateSchema anyFormat moved.parsed = true ∧
      validateFestival {} plainTexts (moved.over (openAir (some novaPhoto))) = [] ∧
      ¬ IsFrame {} plainTexts 1 (oneFestival (some novaPhoto)) "f1" (openAir (some novaPhoto))
        moved ∧
      festivalUpdateSchema anyFormat renamed.parsed = true ∧
      validateFestival {} plainTexts (renamed.over (openAir (some novaPhoto))) = [] ∧
      ¬ IsFrame {} plainTexts 1 (oneFestival (some novaPhoto)) "f1" (openAir (some novaPhoto))
        renamed ∧
      festivalUpdateSchema anyFormat (payloadOf (openAir (some novaPhoto))).parsed = true ∧
      ¬ IsUnchanged {} plainTexts 1 (oneFestival (some novaPhoto)) "f1" (openAir (some novaPhoto))
        (payloadOf (openAir (some novaPhoto))) := by
  have hrenamed : (putFestival {} plainTexts 1 (oneFestival (some novaPhoto)) "f1"
      renamed.parsed.toFestivalInput).2.getFestivalById "f1" =
        some { openAir none with name := "Open Air 2026" } := by decide
  have hsent : (putFestival {} plainTexts 1 (oneFestival (some novaPhoto)) "f1"
      (payloadOf (openAir (some novaPhoto))).parsed.toFestivalInput).2.getFestivalById "f1" =
        some (openAir none) := by decide
  refine ⟨by decide, by decide, fun hframe => ?_, by decide,
    by decide, fun hframe => ?_, by decide, fun hunchanged => ?_⟩
  · exact absurd hframe.1 (by decide)
  · obtain ⟨-, ⟨after, hafter, hkept⟩, -⟩ := hframe
    rw [hrenamed] at hafter
    obtain rfl := Option.some.inj hafter
    exact absurd (hkept.days rfl) (by decide)
  · have hsame := hunchanged.2.1
    rw [hsent] at hsame
    exact absurd (Option.some.inj hsame) (by decide)

end FestivalPlanner.Lineup
