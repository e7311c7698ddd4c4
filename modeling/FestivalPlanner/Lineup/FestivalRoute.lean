import FestivalPlanner.Lib.Js
import FestivalPlanner.Lineup.FestivalUpdate
import Mathlib.Data.List.Sort

/-!
# The route that edits a festival

`PUT /festivals/:id` of `routes/festivals.ts`, with the functions it calls: the checks of
`validateFestival`, the clean payload of `sanitizeFestivalPayload`, and `festivals.update`.

* `FestivalInput` — the body, as its schema leaves it; a field that is not given is taken
  from the stored festival;
* `Env` — what comes from outside: the Unicode tables of the language and random ids;
* `putFestival` — the response and the tables after the request.

The cache of festivals is taken to hold what a read of the tables gives.
-/

namespace FestivalPlanner.Lineup

/-! ## Cleaning texts -/

/-- Normal form and lower case of a text, and random ids by the place they are made at. -/
structure Env where
  normalizeNFC : List Char → List Char
  toLowerCase : String → String
  randomUUID : List ℕ → String

structure Config where
  maxStages : ℕ := 20
  maxDays : ℕ := 10
  maxSetsPerDay : ℕ := 200

/-- `s.trim()` -/
def trim (cs : List Char) : List Char :=
  ((cs.dropWhile Js.isSpace).reverse.dropWhile Js.isSpace).reverse

/-- Marks of direction, joiners, separators of lines and annotations. -/
def isInvisible (c : Char) : Bool :=
  c.toNat ∈ [0x061C, 0x200B, 0x200E, 0x200F, 0x2060] || (0x2028 ≤ c.toNat && c.toNat ≤ 0x202E) ||
    (0x2066 ≤ c.toNat && c.toNat ≤ 0x2069) || (0xFFF9 ≤ c.toNat && c.toNat ≤ 0xFFFB)

/-- Control characters, tab and line feed apart. -/
def isControl (c : Char) : Bool :=
  c.toNat ≤ 0x08 || c.toNat ∈ [0x0B, 0x0C, 0x7F] || (0x0E ≤ c.toNat && c.toNat ≤ 0x1F)

/-- `.replace(/\r\n?/g, '\n')` -/
def lineEnds : List Char → List Char
  | '\r' :: '\n' :: cs => '\n' :: lineEnds cs
  | '\r' :: cs => '\n' :: lineEnds cs
  | c :: cs => c :: lineEnds cs
  | [] => []

/-- `sanitizeString` -/
def sanitizeString (env : Env) (value : String) (maxLen : ℕ := 200) : String :=
  let visible := (env.normalizeNFC value.toList).filter (fun c => !isInvisible c)
  let spaced := (lineEnds visible).map (fun c => if c = '\t' then ' ' else c)
  String.ofList (Js.slice maxLen (trim (spaced.filter (fun c => !isControl c))))

/-- `/^[a-zA-Z0-9_-]+$/` on one character -/
def isIdentifierChar (c : Char) : Bool := c.isAlphanum || c = '_' || c = '-'

/-- `sanitizeIdentifier`; a value that is not a text is `none`. -/
def sanitizeIdentifier (value : Option String) (maxLen : ℕ := 100) : Option String :=
  value.bind (fun value =>
    let normalized := Js.slice maxLen (trim value.toList)
    if normalized ≠ [] ∧ normalized.all isIdentifierChar then some (String.ofList normalized)
    else none)

/-- Hours and minutes of a text `HH:MM`. -/
def hoursMinutes (value : String) : Option (ℕ × ℕ) :=
  match value.toList with
  | [a, b, ':', c, d] =>
      if a.isDigit && b.isDigit && c.isDigit && d.isDigit then
        some ((Js.ofDigits [a, b]).toNat, (Js.ofDigits [c, d]).toNat)
      else none
  | _ => none

/-- `validateTime` -/
def validateTime (value : Option String) : Bool :=
  match value.bind hoursMinutes with
  | some (hh, mm) => decide (hh ≤ 23 ∧ mm ≤ 59)
  | none => false

/-- `/^#(?:[0-9a-fA-F]{3}|[0-9a-fA-F]{4}|[0-9a-fA-F]{6}|[0-9a-fA-F]{8})$/` -/
def validateColor (value : String) : Bool :=
  match value.toList with
  | '#' :: digits =>
      decide (digits.length ∈ [3, 4, 6, 8]) && digits.all (fun c =>
        c.isDigit || ('a' ≤ c && c ≤ 'f') || ('A' ≤ c && c ≤ 'F'))
  | _ => false

/-- Does the text begin with `http://` or `https://`? -/
def isWebUrl (url : List Char) : Bool :=
  "http://".toList.isPrefixOf url || "https://".toList.isPrefixOf url

/-! ## The body -/

/-- A stage of the body, or of the stored festival. -/
structure StageInput where
  id : Option String
  name : String
  color : Option String
  latitude : Option ℚ
  longitude : Option ℚ
  deriving DecidableEq

/-- A set of the body, or of the stored festival; older clients send one artist and a link. -/
structure SetInput where
  id : Option String
  artists : Option (List Artist)
  artist : Option String
  stageId : Option String
  startTime : Option String
  endTime : Option String
  linkUrl : Option String
  deriving DecidableEq

structure DayInput where
  label : Option String
  date : Option String
  sets : List SetInput
  deriving DecidableEq

/-- The body of the request; a time zone or a map may be given as `null`. -/
structure FestivalInput where
  name : Option String := none
  location : Option String := none
  b2bSeparator : Option String := none
  timeZone : Option (Option String) := none
  stages : Option (List StageInput) := none
  days : Option (List DayInput) := none
  mapConfig : Option (Option String) := none

/-- The artists that are given, if there are any. -/
def SetInput.someArtists (x : SetInput) : Option (List Artist) := x.artists.filter (· ≠ [])

/-! ## `validateFestival` -/

/-- The loop over the stages: its errors, and the ids and names met. -/
structure StageScan where
  errors : List String := []
  ids : List String := []
  names : List String := []

def checkStage (env : Env) (scan : StageScan) (stage : StageInput) : StageScan :=
  let cleanName := sanitizeString env stage.name 100
  let cleanId := sanitizeIdentifier stage.id
  let shown := if cleanName = "" then "Unnamed" else cleanName
  let normalizedName := env.toLowerCase cleanName
  let nameErrors :=
    (if cleanName = "" then ["Every stage requires a name"] else []) ++
    match cleanId with
    | none => ["Stage \"" ++ shown ++ "\" requires a valid id"]
    | some id => if id ∈ scan.ids then ["Duplicate stage id: " ++ id] else []
  let repeatErrors :=
    if normalizedName ≠ "" ∧ normalizedName ∈ scan.names then
      ["Duplicate stage name: " ++ cleanName]
    else []
  { errors := scan.errors ++ nameErrors ++ repeatErrors
    ids := scan.ids ++ cleanId.toList
    names := if normalizedName = "" then scan.names else scan.names ++ [normalizedName] }

/-- A timed set on a stage, in minutes; an end that is not after the start is of the next
day. -/
structure Slot where
  artist : String
  startMinutes : ℕ
  endMinutes : ℕ

def slot (artist : String) (startTime endTime : ℕ × ℕ) : Slot :=
  let startMinutes := startTime.1 * 60 + startTime.2
  let endMinutes := endTime.1 * 60 + endTime.2
  { artist := artist, startMinutes := startMinutes
    endMinutes := if endMinutes ≤ startMinutes then endMinutes + 24 * 60 else endMinutes }

/-- The loop over the sets of a day: its errors, the ids met, and the slots by stage. -/
structure SetScan where
  errors : List String := []
  ids : List String := []
  schedules : List (String × List Slot) := []

/-- The name a set is shown with in the errors. -/
def artistName (env : Env) (x : SetInput) : String :=
  match x.someArtists with
  | some artists => String.intercalate " b2b "
      ((artists.map (fun a => sanitizeString env a.name 300)).filter (· ≠ ""))
  | none => sanitizeString env (x.artist.getD "") 300

/-- `set?.startTime && !validateTime(set?.startTime)` -/
def badTime (value : Option String) : Bool :=
  decide (value.getD "" ≠ "") && !validateTime value

@[grind =] def checkSet (env : Env) (stageIds : List String) (scan : SetScan) (x : SetInput) : SetScan :=
  let setId := sanitizeIdentifier x.id
  let artist := artistName env x
  let shown := if artist = "" then "Unnamed" else artist
  let stageId := sanitizeIdentifier x.stageId
  let idErrors :=
    match setId with
    | none => ["Set \"" ++ shown ++ "\" requires a valid id"]
    | some id => if id ∈ scan.ids then ["Duplicate set id: " ++ id] else []
  let artistErrors :=
    if artist = "" ∧ x.someArtists = none then ["Every set requires an artist name"] else []
  let stageErrors :=
    if stageId.any (fun id => decide (id ∈ stageIds)) then []
    else ["Set \"" ++ shown ++ "\" must reference a valid stage"]
  let timeErrors :=
    if (!validateTime x.startTime || !validateTime x.endTime) &&
        (badTime x.startTime || badTime x.endTime) then
      ["Set \"" ++ shown ++ "\" has invalid time format"]
    else []
  { errors := scan.errors ++ idErrors ++ artistErrors ++ stageErrors ++ timeErrors
    ids := scan.ids ++ setId.toList
    schedules :=
      match stageId, x.startTime.bind hoursMinutes, x.endTime.bind hoursMinutes with
      | some stageId, some start, some stop =>
          if validateTime x.startTime && validateTime x.endTime then
            let entries := (Keyed.lookup Prod.fst stageId scan.schedules).elim [] Prod.snd
            Keyed.upsert Prod.fst (stageId, entries ++ [slot shown start stop]) scan.schedules
          else scan.schedules
      | _, _, _ => scan.schedules }

/-- The overlaps of neighbours on one stage, by start. -/
def overlapErrors (entries : List Slot) : List String :=
  let sorted := entries.insertionSort (fun x y => x.startMinutes ≤ y.startMinutes)
  (sorted.zip (sorted.drop 1)).filterMap (fun (previous, current) =>
    if current.startMinutes < previous.endMinutes then
      some ("Stage overlap on \"" ++ current.artist ++ "\" and \"" ++ previous.artist ++ "\"")
    else none)

/-- The loop over the days: its errors, and the set ids met. -/
def checkDay (cfg : Config) (env : Env) (stageIds : List String)
    (scan : List String × List String) (day : DayInput) : List String × List String :=
  let tooMany :=
    if cfg.maxSetsPerDay < day.sets.length then
      ["Maximum " ++ toString cfg.maxSetsPerDay ++ " sets per day"]
    else []
  let sets := day.sets.foldl (checkSet env stageIds) { ids := scan.2 }
  (scan.1 ++ tooMany ++ sets.errors ++ sets.schedules.flatMap (fun s => overlapErrors s.2),
    sets.ids)

def validateFestival (cfg : Config) (env : Env) (body : FestivalInput) : List String :=
  let name := body.name.getD ""
  let nameErrors :=
    if name = "" ∨ sanitizeString env name = "" then ["Festival name is required"] else []
  let stages := body.stages.getD []
  let days := body.days.getD []
  let sizeErrors :=
    (if cfg.maxStages < stages.length then ["Maximum " ++ toString cfg.maxStages ++ " stages"]
      else []) ++
    (if cfg.maxDays < days.length then ["Maximum " ++ toString cfg.maxDays ++ " days"] else [])
  let stageScan := stages.foldl (checkStage env) {}
  let dayScan := days.foldl (checkDay cfg env stageScan.ids) ([], [])
  nameErrors ++ sizeErrors ++ stageScan.errors ++ dayScan.1

/-! ## `sanitizeFestivalPayload` -/

/-- `sanitizeLinkRecord` -/
def sanitizeLinkRecord (links : List (String × String)) : List (String × String) :=
  links.filterMap (fun (platform, url) =>
    let trimmed := Js.slice 500 (trim url.toList)
    if trimmed ≠ [] ∧ isWebUrl trimmed then some (platform, String.ofList trimmed) else none)

/-- `normalizeSetArtists` -/
def normalizeSetArtists (env : Env) (x : SetInput) : List Artist :=
  match x.someArtists with
  | some artists =>
      ((artists.take 4).map (fun a =>
        { name := sanitizeString env a.name 300, links := sanitizeLinkRecord a.links })).filter
        (fun a => a.name ≠ "")
  | none =>
      let name := sanitizeString env (x.artist.getD "") 300
      let rawUrl := trim (x.linkUrl.getD "").toList
      if name = "" then []
      else [{ name := name
              links := if isWebUrl rawUrl then
                  [("spotify", String.ofList (Js.slice 500 rawUrl))] else [] }]

/-- `artistDisplayName` -/
def artistDisplayName (artists : List Artist) (separator : String) : String :=
  if artists = [] then "Unknown"
  else String.intercalate (" " ++ separator ++ " ") (artists.map Artist.name)

/-- `artists[0]?.links?.spotify || null` -/
def spotifyLink (artists : List Artist) : Option String :=
  (artists.head?.bind (fun a => (Keyed.lookup Prod.fst "spotify" a.links).map Prod.snd)).filter
    (· ≠ "")

/-- `a || b` on texts. -/
def orElse (a b : String) : String := if a = "" then b else a

/-- A coordinate is kept when it is in range. -/
def coord (value : Option ℚ) (max : ℚ) : Option ℚ := value.filter (fun q => -max ≤ q ∧ q ≤ max)

def sanitizeStage (env : Env) (index : ℕ) (stage : StageInput) : Stage :=
  { id := (sanitizeIdentifier stage.id).getD
      ("stage-" ++ toString index ++ "-" ++ env.randomUUID [index])
    name := sanitizeString env stage.name 100
    color := some ((stage.color.filter validateColor).getD "#666666")
    latitude := coord stage.latitude 90
    longitude := coord stage.longitude 180 }

@[grind =] def sanitizeSet (env : Env) (b2bSep : String) (dayIndex index : ℕ) (x : SetInput) : LineupSet :=
  let artists := normalizeSetArtists env x
  { id := (sanitizeIdentifier x.id).getD
      ("set-" ++ toString index ++ "-" ++ env.randomUUID [dayIndex, index])
    artists := artists
    artist := artistDisplayName artists b2bSep
    stageId := (sanitizeIdentifier x.stageId).getD ""
    startTime := if validateTime x.startTime then x.startTime else none
    endTime := if validateTime x.endTime then x.endTime else none
    linkUrl := spotifyLink artists }

@[grind =] def sanitizeDay (cfg : Config) (env : Env) (b2bSep : String) (dayIndex : ℕ) (day : DayInput) :
    Day :=
  { label := sanitizeString env (day.label.getD "") 100
    date := sanitizeString env (day.date.getD "") 20
    sets := (day.sets.take cfg.maxSetsPerDay).mapIdx (sanitizeSet env b2bSep dayIndex) }

/-- A festival as `buildFestivalRecords` reads it. -/
structure Festival where
  id : String
  name : String
  location : String
  b2bSeparator : String
  timeZone : Option String
  mapConfig : Option String
  stages : List StageInput
  days : List DayInput
  deriving DecidableEq

/-- What the clean payload says of the fields that the route updates. -/
structure NextFestival where
  name : String
  location : String
  b2bSeparator : String
  timeZone : Option String
  stages : List Stage
  days : List Day
  mapConfig : Option String

def sanitizeFestivalPayload (cfg : Config) (env : Env) (input : FestivalInput)
    (existing : Festival) : NextFestival :=
  let b2bSep := orElse (sanitizeString env (input.b2bSeparator.getD existing.b2bSeparator) 10) "b2b"
  let rawTz := input.timeZone.getD existing.timeZone
  { name := sanitizeString env (orElse (input.name.getD "") existing.name)
    location := sanitizeString env (input.location.getD existing.location) 500
    b2bSeparator := b2bSep
    timeZone := ((rawTz.filter (· ≠ "")).map (fun tz => sanitizeString env tz 64)).filter (· ≠ "")
    stages := ((input.stages.getD existing.stages).take cfg.maxStages).mapIdx (sanitizeStage env)
    days := ((input.days.getD existing.days).take cfg.maxDays).mapIdx
      (sanitizeDay cfg env b2bSep)
    mapConfig := input.mapConfig.getD existing.mapConfig }

/-! ## The route -/

namespace Db

variable (db : Db)

/-- The sets of a day in their order, as a festival shows them. -/
def daySets (festivalId : String) (dayIndex : ℕ) : List SetInput :=
  ((db.sets.filter (fun x => x.festivalId = festivalId ∧ x.dayIndex = dayIndex)).insertionSort
    (fun x y => x.sortOrder ≤ y.sortOrder)).map (fun x =>
      { id := some x.id, artists := some x.artists, artist := some x.artist
        stageId := some x.stageId, startTime := x.startTime, endTime := x.endTime
        linkUrl := x.linkUrl })

/-- `buildFestivalRecords`, for one festival. -/
def buildFestivalRecord (f : FestivalRow) : Festival :=
  { id := f.id, name := f.name, location := f.location
    b2bSeparator := f.b2bSeparator.getD "b2b", timeZone := f.timeZone, mapConfig := f.mapConfig
    stages := ((db.stages.filter (fun st => st.festivalId = f.id)).insertionSort
      (fun x y => x.sortOrder ≤ y.sortOrder)).map (fun st =>
        { id := some st.id, name := st.name, color := st.color, latitude := st.latitude
          longitude := st.longitude })
    days := ((db.days.filter (fun d => d.festivalId = f.id)).insertionSort
      (fun x y => x.dayIndex ≤ y.dayIndex)).map (fun d =>
        { label := some d.label, date := some d.date, sets := db.daySets f.id d.dayIndex }) }

/-- The row of a festival that is not deleted. -/
def selectFestival (festivalId : String) : Option FestivalRow :=
  db.festivals.find? (fun f => f.id = festivalId ∧ f.deleted = false)

/-- `getFestivalById` -/
def getFestivalById (festivalId : String) : Option Festival :=
  (db.selectFestival festivalId).map db.buildFestivalRecord

end Db

/-- What the route answers. -/
inductive Response where
  | success (festival : FestivalRow)
  | error (status : ℕ) (message : String)
  deriving DecidableEq

/-- Did the update fail? -/
def Response.failed : Response → Bool
  | .success _ => false
  | .error _ _ => true

/-- The fields that the route passes to the store. -/
def NextFestival.fields (next : NextFestival) : FestivalFields :=
  { name := some next.name, location := some next.location
    b2bSeparator := some next.b2bSeparator, timeZone := some next.timeZone
    stages := some next.stages, days := some next.days, mapConfig := some next.mapConfig }

/-- `PUT /festivals/:id` -/
def putFestival (cfg : Config) (env : Env) (now : ℕ) (db : Db) (festivalId : String)
    (body : FestivalInput) : Response × Db :=
  match validateFestival cfg env body with
  | message :: messages => (.error 400 (String.intercalate "; " (message :: messages)), db)
  | [] =>
      match db.getFestivalById festivalId with
      | none => (.error 404 "Festival not found", db)
      | some existing =>
          let next := sanitizeFestivalPayload cfg env body existing
          match db.update now festivalId next.fields with
          | .error _ => (.error 500 "Failed to update festival", db)
          | .ok db' =>
              match db'.selectFestival festivalId with
              | some festival => (.success festival, db')
              | none => (.error 500 "Failed to update festival", db')

end FestivalPlanner.Lineup
