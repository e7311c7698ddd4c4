import FestivalPlanner.Schedule.Conflicts
import FestivalPlanner.Schedule.FestivalTime

/-!
# Calendar exports of the picks

The events that the two exporters of a user's picks make, up to the text of the calendar
file: `buildPicksIcs` of `packages/shared/src/utils/ics.ts` on the device, and
`buildIcsEventsFromPicks` of `lib/helpers/ics-builder.ts` on the server.  Both write floating
local times.  The device pushes an end before the start to the next day, through the noon of
the day and the date of that instant in UTC; the server does not.

* `clientEvents`, `buildIcsEventsFromPicks` — the events of the picked sets;
* `floatingTime`, `eventBounds` — what the times of an event mean on a device;
* `exports_agree_iff` — the exports agree with each other and the schedule exactly when every
  exported set starts before it ends on its own day.
-/

namespace FestivalPlanner.Schedule

open Js Calendar List

/-! ## The festival and its events -/

/-- A stage. -/
structure Stage where
  id : String
  name : String

/-- A day of the festival document, with its sets. -/
structure LineupDay where
  date : String
  label : String := ""
  sets : List FestivalSet

/-- The festival document. -/
structure FestivalDocument where
  id : String
  location : String := ""
  stages : List Stage
  days : List LineupDay

/-- An event of the calendar. -/
structure IcsEvent where
  uid : String
  summary : String
  dtstart : String
  dtend : String
  /-- `none` is no location -/
  location : Option String
  /-- `none` is no description -/
  description : Option String
  deriving DecidableEq

/-- The sets as the store of the device keeps them, with the position and date of their day. -/
def flattenSets (days : List LineupDay) : List FestivalSet :=
  days.zipIdx.flatMap (fun p =>
    p.1.sets.map (fun s => { s with dayIndex := some (p.2 : ℤ), date := p.1.date }))

/-- The days as the store of the device keeps them. -/
def storeDays (days : List LineupDay) : List FestivalDay :=
  days.map (fun day => { date := day.date, label := day.label })

/-! ## The exporters -/

/-- The time, if it is a time of the day. -/
def validateIcsTime (t : String) : Option String := if validateTime t then some t else none

/-- Is the set exported: picked, with a day key and two times of the day? -/
def isExported (picks : String → Option Priority) (s : FestivalSet) : Bool :=
  (picks s.id).isSome && isDayKey s.date.toList &&
    (validateIcsTime s.startTime).isSome && (validateIcsTime s.endTime).isSome

/-- A date and a time of the day as a floating `YYYYMMDDTHHMMSS`. -/
def dateTimeText (date : List Char) (time : String) : String :=
  String.ofList (date.filter (fun c => c ≠ '-') ++ 'T' :: time.toList.erase ':' ++ "00".toList)

/-- The text of a priority. -/
def Priority.text : Priority → String
  | .must => "must"
  | .wantToSee => "want-to-see"
  | .maybe => "maybe"

/-- The name of the stage and the location of the festival; the last stage of an id counts. -/
def eventLocation (festival : FestivalDocument) (s : FestivalSet) : Option String :=
  (festival.stages.reverse.find? (fun stage => stage.id = s.stageId)).map (fun stage =>
    stage.name ++ if festival.location = "" then "" else " - " ++ festival.location)

/-- The priority and the note, those that are there, with a separator between. -/
def eventDescription (picks : String → Option Priority) (notes : String → String)
    (separator : String) (s : FestivalSet) : Option String :=
  let priority := match picks s.id with
    | some p => "Priority: " ++ p.text
    | none => ""
  let parts := [priority, notes s.id].filter (fun part => part ≠ "")
  if parts = [] then none else some (separator.intercalate parts)

/-- The name a set is shown with. -/
def setArtistLabel (s : FestivalSet) : String :=
  if s.artist ≠ "" then s.artist
  else if s.artists ≠ [] then " b2b ".intercalate (s.artists.filter (fun name => name ≠ ""))
  else "Set"

/-- The date of the end on the device: the date of the next noon in UTC when the end comes
before the start. -/
def clientEndDate (host : Host) (s : FestivalSet) : Except String (List Char) :=
  if s.endTime < s.startTime then do
    let iso ← toISOString (host.addDay (host.parse (s.date.toList ++ "T12:00:00".toList)))
    return slice 10 iso
  else .ok s.date.toList

/-- The event of a set on the device. -/
def clientEvent (host : Host) (festival : FestivalDocument) (picks : String → Option Priority)
    (notes : String → String) (origin : String) (s : FestivalSet) : Except String IcsEvent := do
  let endDate ← clientEndDate host s
  return {
    uid := s.id ++ "-" ++ festival.id ++ "@" ++ origin
    summary := setArtistLabel s
    dtstart := dateTimeText s.date.toList s.startTime
    dtend := dateTimeText endDate s.endTime
    location := eventLocation festival s
    description := eventDescription picks notes "\\n" s }

/-- The events of `buildPicksIcs`; an error stops the export. -/
def clientEvents (host : Host) (festival : FestivalDocument) (picks : String → Option Priority)
    (notes : String → String) (origin : String) : Except String (List IcsEvent) :=
  ((flattenSets festival.days).filter (isExported picks)).mapM
    (clientEvent host festival picks notes origin)

/-- The event of a set on the server. -/
def serverEvent (festival : FestivalDocument) (picks : String → Option Priority)
    (notes : String → String) (origin : String) (s : FestivalSet) : IcsEvent :=
  { uid := s.id ++ "-" ++ festival.id ++ "@" ++ origin
    summary := s.artist
    dtstart := dateTimeText s.date.toList s.startTime
    dtend := dateTimeText s.date.toList s.endTime
    location := eventLocation festival s
    description := eventDescription picks notes "\n" s }

/-- The events of the server. -/
def buildIcsEventsFromPicks (festival : FestivalDocument) (picks : String → Option Priority)
    (notes : String → String) (origin : String) : List IcsEvent :=
  let sets := festival.days.flatMap (fun day =>
    (day.sets.filter (fun s => (picks s.id).isSome)).map (fun s => { s with date := day.date }))
  (sets.filter (isExported picks)).map (serverEvent festival picks notes origin)

/-! ## What the times mean -/

/-- The local time that a floating `YYYYMMDDTHHMMSS` names. -/
def floatingTime (text : String) : Option ℤ :=
  match text.toList with
  | [y1, y2, y3, y4, m1, m2, d1, d2, t, h1, h2, n1, n2, s1, s2] =>
      if [y1, y2, y3, y4, m1, m2, d1, d2, h1, h2, n1, n2, s1, s2].all Char.isDigit && t == 'T' then
        some (wallTime (makeDay (ofDigits [y1, y2, y3, y4]) (ofDigits [m1, m2]) (ofDigits [d1, d2]))
          (ofDigits [h1, h2] * 60 + ofDigits [n1, n2]) + ofDigits [s1, s2] * 1000)
      else none
  | _ => none

/-- The instants of an event on a device. -/
def eventBounds (host : Host) (e : IcsEvent) : Option SetBounds := do
  let start ← floatingTime e.dtstart
  let finish ← floatingTime e.dtend
  return { startMs := host.utc start, endMs := some (host.utc finish) }

/-- The end of the event is later than its start. -/
def endsLater (e : IcsEvent) : Prop :=
  ∃ start finish, floatingTime e.dtstart = some start ∧ floatingTime e.dtend = some finish ∧
    start < finish

/-- The two exports have the same times, those of the schedule, and every event ends after
its start. -/
def ExportsAgree (host : Host) (festival : FestivalDocument) (picks : String → Option Priority)
    (notes : String → String) (origin : String) : Prop :=
  let server := buildIcsEventsFromPicks festival picks notes origin
  ∃ client, clientEvents host festival picks notes origin = .ok client ∧
    client.map (fun e => (e.uid, e.dtstart, e.dtend)) =
      server.map (fun e => (e.uid, e.dtstart, e.dtend)) ∧
    server.map (fun e => Except.ok (eventBounds host e)) =
      ((flattenSets festival.days).filter (isExported picks)).map (fun s =>
        getSetTimeBounds host s (storeDays festival.days) "") ∧
    (∀ e ∈ client, endsLater e) ∧ ∀ e ∈ server, endsLater e

/-- The set starts before it ends on its own day, on the wall clock and on the device. -/
def endsOnItsDay (host : Host) (s : FestivalSet) : Bool :=
  match dayOf s.date, timeToMinutes s.startTime, timeToMinutes s.endTime with
  | some n, some ks, some ke =>
      decide (ks < ke) && decide (host.utc (wallTime n ks) < host.utc (wallTime n ke))
  | _, _, _ => false

/-! ## The times of one event -/

/-- A day key is read to its end. -/
theorem slice_of_isDayKey {key : List Char} (h : isDayKey key = true) : slice 10 key = key := by
  obtain ⟨ys, ms, ds, rfl, hy, hm, hd, hys, hms, hds⟩ := parts_of_isDayKey h
  have hdigits : ∀ l : List Char, Digits l → ∀ c ∈ l, c.toNat < 65536 := by
    intro l hl c hc
    have := toNat_of_isDigit (hl c hc)
    omega
  rw [slice_eq_take]
  · apply take_of_length_le
    simp [hy, hm, hd]
  · intro c hc
    simp only [mem_append, mem_cons] at hc
    rcases hc with hc | rfl | hc | rfl | hc
    · exact hdigits ys hys c hc
    · decide
    · exact hdigits ms hms c hc
    · decide
    · exact hdigits ds hds c hc

theorem filter_digits {ds : List Char} (h : Digits ds) : ds.filter (fun c => c ≠ '-') = ds := by
  rw [filter_eq_self]
  intro c hc
  rw [decide_eq_true_eq]
  rintro rfl
  exact h.notMem (by decide) hc

/-- The digits of a key without the dashes. -/
theorem filter_key {ys ms ds : List Char} (hys : Digits ys) (hms : Digits ms) (hds : Digits ds) :
    (ys ++ '-' :: (ms ++ '-' :: ds)).filter (fun c => c ≠ '-') = ys ++ (ms ++ ds) := by
  rw [filter_append, filter_cons_of_neg (by decide), filter_append,
    filter_cons_of_neg (by decide), filter_digits hys, filter_digits hms, filter_digits hds]

/-- An exported date and time name their local time. -/
theorem floatingTime_dateTimeText {date t : String} (hkey : isDayKey date.toList = true)
    (ht : validateTime t = true) :
    ∃ n k, dayOf date = some n ∧ timeToMinutes t = some k ∧
      floatingTime (dateTimeText date.toList t) = some (wallTime n k) := by
  obtain ⟨ys, ms, ds, heq, hy, hm, hd, hys, hms, hds⟩ := parts_of_isDayKey hkey
  obtain ⟨hs, mins, hteq, hhlen, hmlen, hhs, hmins, -, -, -, hminutes⟩ := parts_of_valid ht
  have hday : dayOf date = some (makeDay (ofDigits ys) (ofDigits ms) (ofDigits ds)) := by
    unfold dayOf
    simp only [slice_of_isDayKey hkey, hkey, if_true]
    rw [heq, keyParts_digits hys hms hds] <;> first | rfl | (rintro rfl; simp_all)
  refine ⟨_, _, hday, hminutes, ?_⟩
  have htext : (dateTimeText date.toList t).toList =
      ys ++ (ms ++ ds) ++ 'T' :: (hs ++ mins) ++ ['0', '0'] := by
    unfold dateTimeText
    rw [String.toList_ofList, heq, hteq, filter_key hys hms hds,
      erase_append_right _ (hhs.notMem (by decide)), erase_cons_head]
    rfl
  unfold floatingTime
  rw [htext]
  obtain ⟨y1, y2, y3, y4, rfl⟩ := length_eq_four.mp hy
  obtain ⟨m1, m2, rfl⟩ := length_eq_two.mp hm
  obtain ⟨d1, d2, rfl⟩ := length_eq_two.mp hd
  obtain ⟨h1, h2, rfl⟩ := length_eq_two.mp hhlen
  obtain ⟨n1, n2, rfl⟩ := length_eq_two.mp hmlen
  simp only [Digits, forall_mem_cons] at hys hms hds hhs hmins
  simp [hys, hms, hds, hhs, hmins]
  decide

/-! ## The sets that are exported -/

variable {s : FestivalSet} {picks : String → Option Priority} {festival : FestivalDocument}
  {host : Host}

/-- The date of a flattened set is that of its day. -/
theorem setDate_of_mem {days : List LineupDay} (h : s ∈ flattenSets days) :
    setDate s (storeDays days) = s.date := by
  unfold flattenSets at h
  obtain ⟨⟨day, i⟩, hmem, hs⟩ := mem_flatMap.mp h
  obtain ⟨raw, -, rfl⟩ := mem_map.mp hs
  have hget : days[i]? = some day := mk_mem_zipIdx_iff_getElem?.mp hmem
  unfold setDate dayAt storeDays
  simp [hget]

/-- What an exported set has. -/
theorem times_of_isExported (h : isExported picks s = true) :
    isDayKey s.date.toList = true ∧ validateTime s.startTime = true ∧
      validateTime s.endTime = true := by
  unfold isExported validateIcsTime at h
  simp only [Bool.and_eq_true] at h
  obtain ⟨⟨⟨-, hkey⟩, hstart⟩, hend⟩ := h
  refine ⟨hkey, ?_, ?_⟩
  · by_contra hne
    rw [if_neg hne] at hstart
    cases hstart
  · by_contra hne
    rw [if_neg hne] at hend
    cases hend

/-- The sets of one day that the server exports are those that the device does. -/
theorem serverEvents_of_day {notes : String → String} {origin : String} (date : String)
    (dayIndex : Option ℤ) (sets : List FestivalSet) :
    (((sets.filter (fun s => (picks s.id).isSome)).map (fun s => { s with date := date })).filter
        (isExported picks)).map (serverEvent festival picks notes origin) =
      ((sets.map (fun s => { s with dayIndex := dayIndex, date := date })).filter
        (isExported picks)).map (serverEvent festival picks notes origin) := by
  rw [filter_map, filter_map, filter_filter, map_map, map_map]
  congr 1
  apply filter_congr
  intro s _
  simp only [Function.comp_apply, isExported]
  cases (picks s.id).isSome <;> simp

/-- The server exports the sets that the device keeps. -/
theorem serverEvents_eq (festival : FestivalDocument) (picks : String → Option Priority)
    (notes : String → String) (origin : String) :
    buildIcsEventsFromPicks festival picks notes origin =
      ((flattenSets festival.days).filter (isExported picks)).map
        (serverEvent festival picks notes origin) := by
  unfold buildIcsEventsFromPicks flattenSets
  simp only
  suffices ∀ (days : List LineupDay) (k : ℕ),
      ((days.flatMap (fun day => (day.sets.filter (fun s => (picks s.id).isSome)).map
          (fun s => { s with date := day.date }))).filter (isExported picks)).map
        (serverEvent festival picks notes origin) =
      (((days.zipIdx k).flatMap (fun p => p.1.sets.map (fun s =>
          { s with dayIndex := some (p.2 : ℤ), date := p.1.date }))).filter (isExported picks)).map
        (serverEvent festival picks notes origin) from this festival.days 0
  intro days
  induction days with
  | nil => exact fun _ => rfl
  | cons day days ih =>
    intro k
    rw [zipIdx_cons, flatMap_cons, flatMap_cons, filter_append,
      filter_append, map_append, map_append, ih (k + 1),
      serverEvents_of_day day.date (some (k : ℤ)) day.sets]

/-! ## Agreement -/

/-- The events of the device, when no end comes before its start, are those of the server but
for the name and the description. -/
theorem clientEvents_eq {notes : String → String} {origin : String} {sets : List FestivalSet}
    (h : ∀ s ∈ sets, ¬ s.endTime < s.startTime) :
    sets.mapM (clientEvent host festival picks notes origin) =
      .ok (sets.map (fun s => { serverEvent festival picks notes origin s with
        summary := setArtistLabel s
        description := eventDescription picks notes "\\n" s })) := by
  induction sets with
  | nil => rfl
  | cons s sets ih =>
    rw [forall_mem_cons] at h
    rw [mapM_cons, ih h.2]
    unfold clientEvent clientEndDate
    rw [if_neg h.1]
    rfl

/-- The times of the event of an exported set. -/
theorem serverEvent_times (festival : FestivalDocument) (notes : String → String)
    (origin : String) (h : isExported picks s = true) :
    ∃ n ks ke, dayOf s.date = some n ∧ timeToMinutes s.startTime = some ks ∧
      timeToMinutes s.endTime = some ke ∧
      floatingTime (serverEvent festival picks notes origin s).dtstart = some (wallTime n ks) ∧
      floatingTime (serverEvent festival picks notes origin s).dtend = some (wallTime n ke) := by
  obtain ⟨hkey, hstart, hend⟩ := times_of_isExported h
  obtain ⟨n, ks, hn, hks, hfloat⟩ := floatingTime_dateTimeText hkey hstart
  obtain ⟨n', ke, hn', hke, hfloat'⟩ := floatingTime_dateTimeText hkey hend
  obtain rfl := Option.some.inj (hn.symm.trans hn')
  exact ⟨n, ks, ke, hn, hks, hke, hfloat, hfloat'⟩

/-- An event has the bounds of its set and ends after its start exactly when the set starts
before it ends on its own day. -/
theorem serverEvent_agrees_iff (hregular : host.Regular) (notes : String → String)
    (origin : String) (hmem : s ∈ flattenSets festival.days) (h : isExported picks s = true) :
    (Except.ok (eventBounds host (serverEvent festival picks notes origin s)) =
        getSetTimeBounds host s (storeDays festival.days) "" ∧
      endsLater (serverEvent festival picks notes origin s)) ↔ endsOnItsDay host s = true := by
  obtain ⟨hkey, hstart, hend⟩ := times_of_isExported h
  obtain ⟨n, ks, ke, hn, hks, hke, hfloat, hfloat'⟩ :=
    serverEvent_times festival notes origin h
  have hdate := setDate_of_mem hmem
  obtain ⟨ks', ke', hks', hke', hbounds⟩ := getSetTimeBounds_regular (hdate ▸ hn) hregular hstart hend
  obtain rfl := Option.some.inj (hks.symm.trans hks')
  obtain rfl := Option.some.inj (hke.symm.trans hke')
  have hevent : eventBounds host (serverEvent festival picks notes origin s) =
      some ⟨host.utc (wallTime n ks), some (host.utc (wallTime n ke))⟩ := by
    unfold eventBounds
    rw [hfloat, hfloat']
    rfl
  have hlater : endsLater (serverEvent festival picks notes origin s) ↔ ks < ke := by
    unfold endsLater
    rw [hfloat, hfloat']
    constructor
    · rintro ⟨start, finish, h1, h2, hlt⟩
      cases h1
      cases h2
      unfold wallTime msPerMinute at hlt
      omega
    · intro hlt
      refine ⟨_, _, rfl, rfl, ?_⟩
      unfold wallTime msPerMinute
      omega
  have hsame : Except.ok (eventBounds host (serverEvent festival picks notes origin s)) =
      getSetTimeBounds host s (storeDays festival.days) "" ↔
        host.utc (wallTime n ks) < host.utc (wallTime n ke) := by
    rw [hevent, hbounds]
    have hnext := hregular.addDay_gt (wallTime n ke)
    split
    · rename_i hle
      constructor
      · intro heq
        simp only [Except.ok.injEq, Option.some.injEq, SetBounds.mk.injEq, true_and] at heq
        omega
      · intro hlt
        omega
    · rename_i hle
      exact ⟨fun _ => not_le.mp hle, fun _ => rfl⟩
  rw [hlater, hsame]
  unfold endsOnItsDay
  simp only [hn, hks, hke, Bool.and_eq_true, decide_eq_true_eq]
  exact and_comm

/-- The end of a set that ends on its own day comes after its start as a text. -/
theorem not_endTime_le (h : isExported picks s = true) (hends : endsOnItsDay host s = true) :
    ¬ s.endTime ≤ s.startTime := by
  intro hle
  obtain ⟨hkey, hstart, hend⟩ := times_of_isExported h
  obtain ⟨n, ks, hn, hks, -⟩ := floatingTime_dateTimeText hkey hstart
  obtain ⟨-, ke, -, hke, -⟩ := floatingTime_dateTimeText hkey hend
  have := timeToMinutes_le hend hstart hke hks hle
  unfold endsOnItsDay at hends
  simp only [hn, hks, hke, Bool.and_eq_true, decide_eq_true_eq] at hends
  omega

/-- **The exports agree with the schedule exactly when no exported set passes midnight.**  On
a device that keeps its days, the two exports have the same times, those of the bounds, and
every event ends after its start, exactly when every exported set starts before it ends on
its own day. -/
theorem exports_agree_iff {host : Host} (hregular : host.Regular) (festival : FestivalDocument)
    (picks : String → Option Priority) (notes : String → String) (origin : String) :
    ExportsAgree host festival picks notes origin ↔
      ∀ s ∈ flattenSets festival.days, isExported picks s = true → endsOnItsDay host s = true := by
  unfold ExportsAgree clientEvents
  simp only [serverEvents_eq, List.map_map, List.map_inj_left, List.mem_filter, List.mem_map,
    Function.comp_apply]
  constructor
  · rintro ⟨client, -, -, hbounds, -, hlater⟩ s hmem hexported
    exact (serverEvent_agrees_iff hregular notes origin hmem hexported).mp
      ⟨hbounds s ⟨hmem, hexported⟩, hlater _ ⟨s, ⟨hmem, hexported⟩, rfl⟩⟩
  · intro h
    have hagrees := fun s (hs : s ∈ flattenSets festival.days ∧ isExported picks s = true) =>
      (serverEvent_agrees_iff hregular notes origin hs.1 hs.2).mpr
        (h s hs.1 hs.2)
    refine ⟨_, clientEvents_eq ?_, ?_, fun s hs => (hagrees s hs).1, ?_, ?_⟩
    · intro s hs hlt
      obtain ⟨hmem, hexported⟩ := List.mem_filter.mp hs
      exact absurd hlt.le (not_endTime_le hexported (h s hmem hexported))
    · rw [List.map_map]
      exact List.map_congr_left (fun s _ => rfl)
    · intro e he
      obtain ⟨s, hs, rfl⟩ := List.mem_map.mp he
      exact (hagrees s (List.mem_filter.mp hs)).2
    · rintro e ⟨s, hs, rfl⟩
      exact (hagrees s hs).2

/-- A festival of one day with two sets. -/
def oneDay (second : FestivalSet) : FestivalDocument :=
  { id := "f1", stages := [{ id := "m", name := "Main" }],
    days := [{ date := "2026-09-04",
               sets := [{ id := "s1", stageId := "m", startTime := "20:00", endTime := "21:30" },
                 second] }] }

theorem oneDay_exports_agree :
    ExportsAgree (utcHost 0)
      (oneDay { id := "s2", stageId := "m", startTime := "21:45", endTime := "23:30" }) allMust
      (fun _ => "") "festie.us" :=
  (exports_agree_iff (utcHost_regular 0) _ _ _ _).mpr (by decide)

/-- A device that is thirteen hours ahead of UTC and reads the noon of a day. -/
def islandHost : Host :=
  { utcHost 0 with
    localTime := fun t => t + 46800000
    utc := fun x => x - 46800000
    parse := fun text => (dayOf (String.ofList text)).map (fun n => wallTime n 720 - 46800000) }

/-- A set from 23:00 to 01:00 ends before it starts on the server, on a device far ahead of UTC
too, and a day after its start on a device in UTC; a set that ends at its start has no length
in both exports and is a day long in the schedule. -/
theorem overnight_exports_disagree :
    (buildIcsEventsFromPicks
        (oneDay { id := "s2", startTime := "23:00", endTime := "01:00" }) allMust (fun _ => "")
        "festie.us").map (fun e => (e.dtstart, e.dtend)) =
      [("20260904T200000", "20260904T213000"), ("20260904T230000", "20260904T010000")] ∧
    (clientEvents islandHost
        (oneDay { id := "s2", startTime := "23:00", endTime := "01:00" }) allMust (fun _ => "")
        "festie.us").map (fun events => events.map (fun e => (e.dtstart, e.dtend))) =
      .ok [("20260904T200000", "20260904T213000"), ("20260904T230000", "20260904T010000")] ∧
    (clientEvents { islandHost with
          localTime := fun t => t
          utc := fun x => x
          parse := fun text => (dayOf (String.ofList text)).map (fun n => wallTime n 720) }
        (oneDay { id := "s2", startTime := "23:00", endTime := "01:00" }) allMust (fun _ => "")
        "festie.us").map (fun events => events.map (fun e => (e.dtstart, e.dtend))) =
      .ok [("20260904T200000", "20260904T213000"), ("20260904T230000", "20260905T010000")] ∧
    (buildIcsEventsFromPicks
        (oneDay { id := "s2", startTime := "23:00", endTime := "23:00" }) allMust (fun _ => "")
        "festie.us").map (fun e => (e.dtstart, e.dtend)) =
      [("20260904T200000", "20260904T213000"), ("20260904T230000", "20260904T230000")] ∧
    getSetTimeBounds (utcHost 0)
        { id := "s2", date := "2026-09-04", startTime := "23:00", endTime := "23:00" } [] "" =
      .ok (some ⟨1788562800000, some 1788649200000⟩) := by
  decide

end FestivalPlanner.Schedule
