import FestivalPlanner.Lineup.StoredFestivals

/-!
# What an update leaves out

The body of `PUT /festivals/:id` as it is sent, where every field but the names may be left out, and
what should become of the fields that are.

* `FestivalPayload` — the body; `FestivalPayload.parsed` is what its schema leaves of it;
* `FestivalPayload.over` — the festival that should result;
* `Kept` — every field that is left out is as it was, at every level that is stated again;
* `payloadOf` — a festival as it is returned, sent again.
-/

namespace FestivalPlanner.Lineup

/-! ## The body -/

/-- A stage as it is sent; its place may be `null`. -/
structure StagePayload where
  id : Option String := none
  name : String
  color : Option String := none
  latitude : Option (Option ℚ) := none
  longitude : Option (Option ℚ) := none

/-- A set as it is sent; its artists come in one of two formats. -/
structure SetPayload where
  id : Option String := none
  artists : Option (List Artist) := none
  artist : Option String := none
  stageId : Option (Option String) := none
  startTime : Option (Option String) := none
  endTime : Option (Option String) := none
  linkUrl : Option (Option String) := none

structure DayPayload where
  label : Option String := none
  date : Option String := none
  sets : Option (List SetPayload) := none

structure FestivalPayload where
  id : Option String := none
  name : Option String := none
  location : Option String := none
  b2bSeparator : Option String := none
  timeZone : Option (Option String) := none
  stages : Option (List StagePayload) := none
  days : Option (List DayPayload) := none
  mapConfig : Option (Option String) := none

/-! ## What the schema leaves of it -/

def StagePayload.parsed (p : StagePayload) : StageInput :=
  { id := p.id, name := p.name, color := p.color, latitude := p.latitude.join
    longitude := p.longitude.join }

/-- The schema of an artist knows the name and the links only. -/
def Artist.parsed (a : Artist) : Artist := { name := a.name, links := a.links }

@[grind =] def SetPayload.parsed (p : SetPayload) : SetInput :=
  { id := p.id, artists := p.artists.map (List.map Artist.parsed), artist := p.artist
    stageId := p.stageId.join, startTime := p.startTime.join, endTime := p.endTime.join
    linkUrl := p.linkUrl.join }

/-- The sets that a day states. -/
@[grind =] def DayPayload.stated (p : DayPayload) : List SetPayload := p.sets.getD []

@[grind =] def DayPayload.parsed (p : DayPayload) : DayInput :=
  { label := p.label, date := p.date, sets := p.stated.map SetPayload.parsed }

@[grind =] def FestivalPayload.parsed (p : FestivalPayload) : FestivalBody :=
  { id := p.id, name := p.name, location := p.location, b2bSeparator := p.b2bSeparator
    timeZone := p.timeZone, stages := p.stages.map (List.map StagePayload.parsed)
    days := p.days.map (List.map DayPayload.parsed), mapConfig := p.mapConfig }

/-! ## The festival that should result -/

/-- The sets of all days. -/
def Festival.sets (f : Festival) : List SetInput := f.days.flatMap DayInput.sets

/-- A stage, completed from the stored one with its id. -/
def StagePayload.over (f : Festival) (p : StagePayload) : StageInput :=
  let stored := f.stages.find? (fun st => st.id.isSome && st.id = sanitizeIdentifier p.id)
  { id := p.id, name := p.name, color := p.color.or (stored.bind StageInput.color)
    latitude := p.latitude.getD (stored.bind StageInput.latitude)
    longitude := p.longitude.getD (stored.bind StageInput.longitude) }

/-- A set, completed from the stored one with its id. -/
def SetPayload.over (f : Festival) (p : SetPayload) : SetInput :=
  let stored := f.sets.find? (fun x => x.id.isSome && x.id = sanitizeIdentifier p.id)
  { id := p.id, artists := p.artists, artist := p.artist
    stageId := p.stageId.getD (stored.bind SetInput.stageId)
    startTime := p.startTime.getD (stored.bind SetInput.startTime)
    endTime := p.endTime.getD (stored.bind SetInput.endTime)
    linkUrl := p.linkUrl.getD (stored.bind SetInput.linkUrl) }

/-- A day, completed from the stored one in its place. -/
def DayPayload.over (f : Festival) (i : ℕ) (p : DayPayload) : DayInput :=
  { label := p.label.or (f.days[i]?.bind DayInput.label)
    date := p.date.or (f.days[i]?.bind DayInput.date)
    sets := p.sets.elim (f.days[i]?.elim [] DayInput.sets) (List.map (SetPayload.over f)) }

/-- What is given, completed from what is stored. -/
def FestivalPayload.over (f : Festival) (p : FestivalPayload) : FestivalInput :=
  { name := some (p.name.getD f.name), location := some (p.location.getD f.location)
    b2bSeparator := some (p.b2bSeparator.getD f.b2bSeparator)
    timeZone := some (p.timeZone.getD f.timeZone)
    stages := some (p.stages.elim f.stages (List.map (StagePayload.over f)))
    days := some (p.days.elim f.days (List.mapIdx (DayPayload.over f)))
    mapConfig := some (p.mapConfig.getD f.mapConfig) }

/-! ## What is left out stays -/

structure StageKept (p : StagePayload) (before after : StageInput) : Prop where
  color : p.color = none → after.color = before.color
  latitude : p.latitude = none → after.latitude = before.latitude
  longitude : p.longitude = none → after.longitude = before.longitude

structure DayKept (p : DayPayload) (before after : DayInput) : Prop where
  label : p.label = none → after.label = before.label
  date : p.date = none → after.date = before.date
  sets : p.sets = none → after.sets = before.sets

/-- The artists of a set are always given, in one of the formats; their photos and genres never
are. -/
structure SetKept (p : SetPayload) (before after : SetInput) : Prop where
  stageId : p.stageId = none → after.stageId = before.stageId
  startTime : p.startTime = none → after.startTime = before.startTime
  endTime : p.endTime = none → after.endTime = before.endTime
  linkUrl : p.linkUrl = none → after.linkUrl = before.linkUrl
  artists : ∀ a ∈ before.artists.getD [], ∀ b ∈ after.artists.getD [], b.name = a.name →
    b.photo = a.photo ∧ b.genres = a.genres

/-- The sets that a payload states, on any day. -/
def FestivalPayload.sets (p : FestivalPayload) : List SetPayload :=
  (p.days.getD []).flatMap DayPayload.stated

/-- **Every field that the payload leaves out is as it was**, in the stages, days and sets that it
states as well. -/
structure Kept (p : FestivalPayload) (before after : Festival) : Prop where
  id : after.id = before.id
  name : p.name = none → after.name = before.name
  location : p.location = none → after.location = before.location
  b2bSeparator : p.b2bSeparator = none → after.b2bSeparator = before.b2bSeparator
  timeZone : p.timeZone = none → after.timeZone = before.timeZone
  mapConfig : p.mapConfig = none → after.mapConfig = before.mapConfig
  stages : p.stages = none → after.stages = before.stages
  days : p.days = none → after.days = before.days
  eachStage : ∀ q ∈ p.stages.getD [], ∀ st ∈ before.stages, st.id.isSome = true →
    st.id = sanitizeIdentifier q.id → ∀ st' ∈ after.stages, st'.id = st.id → StageKept q st st'
  eachDay : ∀ (i : ℕ) (q : DayPayload) (d d' : DayInput), (p.days.getD [])[i]? = some q →
    before.days[i]? = some d → after.days[i]? = some d' → DayKept q d d'
  eachSet : ∀ q ∈ p.sets, ∀ x ∈ before.sets, x.id.isSome = true → x.id = sanitizeIdentifier q.id →
    ∀ x' ∈ after.sets, x'.id = x.id → SetKept q x x'

/-! ## A festival that is sent again -/

/-- Every field of a festival as it is returned. -/
@[grind =] def payloadOf (f : Festival) : FestivalPayload :=
  { id := some f.id, name := some f.name, location := some f.location
    b2bSeparator := some f.b2bSeparator, timeZone := some f.timeZone
    stages := some (f.stages.map (fun st =>
      { id := st.id, name := st.name, color := st.color, latitude := some st.latitude
        longitude := some st.longitude }))
    days := some (f.days.map (fun d =>
      { label := d.label, date := d.date
        sets := some (d.sets.map (fun x =>
          { id := x.id, artists := x.artists, artist := x.artist, stageId := some x.stageId
            startTime := some x.startTime, endTime := some x.endTime
            linkUrl := some x.linkUrl })) }))
    mapConfig := some f.mapConfig }

end FestivalPlanner.Lineup
