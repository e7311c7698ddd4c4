import FestivalPlanner.Lib.JsDate

/-!
# When a set of the lineup happens

The model of `packages/shared/src/utils/setStatus.ts` up to `getSetTimeBounds`: the day of
a set and its wall-clock times become two instants, in the local frame of the device or in
the time zone of the festival.

* `FestivalSet`, `FestivalDay` — what the time functions read of a lineup; a text or a
  date that is missing is `""`, since the program only asks whether it is there;
* `createDateInLocalFrame`, `zonedWallTimeToMs` — the instant of a wall-clock time;
* `getSetTimeBounds` — the start and the end of a set, past midnight where the end is not
  after the start; an error of the date formatter is passed on.
-/

namespace FestivalPlanner.Schedule

open Js Calendar

/-! ## The lineup -/

/-- An act of the lineup. -/
structure FestivalSet where
  id : String
  stageId : String := ""
  /-- the `YYYY-MM-DD` key of its day -/
  date : String := ""
  /-- the position of its day; `none` is unknown -/
  dayIndex : Option ℤ := none
  startTime : String
  endTime : String
  artist : String := ""
  /-- the names of the structured artists -/
  artists : List String := []
  deriving DecidableEq

/-- A day of the festival. -/
structure FestivalDay where
  date : String
  label : String := ""
  deriving DecidableEq

/-- `'must' | 'want-to-see' | 'maybe'` -/
inductive Priority where
  | must
  | wantToSee
  | maybe
  deriving DecidableEq

/-- `days[i]`. -/
def dayAt (days : List FestivalDay) (i : ℤ) : Option FestivalDay :=
  if 0 ≤ i then days[i.toNat]? else none

/-- The date of a set: that of its day first, then its own. -/
def setDate (set : FestivalSet) (days : List FestivalDay) : String :=
  match set.dayIndex.bind (dayAt days) with
  | some day => if day.date = "" then set.date else day.date
  | none => set.date

/-! ## Reading dates and times -/

/-- The numbers of `key.split('-')`; those that are missing are `NaN`. -/
def keyParts (key : List Char) : Number × Number × Number :=
  let parts := (split '-' key).map parseInt
  (parts[0]?.join, parts[1]?.join, parts[2]?.join)

/-- The hours and minutes of `time.split(':')`; those that are missing are 0. -/
def clockParts (time : String) : Number × Number :=
  let parts := (split ':' time.toList).map parseInt
  (parts[0]?.getD (some 0), parts[1]?.getD (some 0))

/-- `/^\d{4}-\d{2}-\d{2}$/` -/
def isDayKey : List Char → Bool
  | [y1, y2, y3, y4, s1, m1, m2, s2, d1, d2] =>
      [y1, y2, y3, y4, m1, m2, d1, d2].all Char.isDigit && s1 == '-' && s2 == '-'
  | _ => false

/-! ## Instants of wall-clock times -/

/-- A day and a wall-clock time in the local frame of the device. -/
def createDateInLocalFrame (host : Host) (dateStr : List Char) (hours minutes : Number) : Number :=
  let (y, m, d) := keyParts (slice 10 dateStr)
  host.setHours (host.setFullYear host.now y m d) hours minutes

/-- The day `n` days after a day key. -/
def addDaysToDateKey (dayKey : List Char) (n : ℤ) : List Char :=
  let (y, m, d) := keyParts dayKey
  match do dateUTC (← y) (← m) (← d) 0 0 0 with
  | none => "NaN-NaN-NaN".toList
  | some t =>
      let (yy, mm, dd) := civilFromDay (t / msPerDay + n)
      (toString yy).toList ++ '-' :: padStart 2 (toString mm).toList ++
        '-' :: padStart 2 (toString dd).toList

/-- The offset of a zone from UTC at an instant. -/
@[grind =] def zoneOffsetMsAt (host : Host) (utcMs : Number) (timeZone : String) : Except String Number := do
  let p ← host.formatToParts timeZone utcMs
  return do return (← dateUTC p.year p.month p.day p.hour p.minute p.second) - (← utcMs)

/-- A day and a wall-clock time in a zone, with the offset corrected once. -/
def zonedWallTimeToMs (host : Host) (dateStr : List Char) (hours minutes : Number)
    (timeZone : String) : Except String Number :=
  match keyParts (slice 10 dateStr) with
  | (some y, some m, some d) => do
      let naiveUtc : Number := do dateUTC y m d (← hours) (← minutes) 0
      let offset1 ← zoneOffsetMsAt host naiveUtc timeZone
      let ms : Number := do return (← naiveUtc) - (← offset1)
      let offset2 ← zoneOffsetMsAt host ms timeZone
      return if offset2 = offset1 then ms else do return (← naiveUtc) - (← offset2)
  | _ => .ok none

/-! ## The bounds of a set -/

/-- The start and the end of a set; an end may be `NaN`. -/
structure SetBounds where
  startMs : ℤ
  endMs : Number
  deriving DecidableEq

/-- The end of a set that has none: an hour after its start. -/
def assumedEnd (startMs : ℤ) : ℤ := startMs + 60 * 60000

/-- The end in the local frame; one that is not after the start is pushed to the next day. -/
def localEnd (host : Host) (dayKey : List Char) (endTime : String) (startMs : ℤ) : Number :=
  let (hh, mm) := clockParts endTime
  match createDateInLocalFrame host dayKey hh mm with
  | none => none
  | some endMs => if endMs ≤ startMs then host.addDay (some endMs) else some endMs

/-- The end in a zone. -/
def zonedEnd (host : Host) (dayKey : List Char) (endTime timeZone : String) (startMs : ℤ) :
    Except String Number := do
  let (hh, mm) := clockParts endTime
  match ← zonedWallTimeToMs host dayKey hh mm timeZone with
  | none => return none
  | some endMs =>
      if endMs ≤ startMs then
        zonedWallTimeToMs host (addDaysToDateKey dayKey 1) hh mm timeZone
      else return some endMs

/-- The bounds of a set in the local frame. -/
@[grind =] def localBounds (host : Host) (dayKey : List Char) (set : FestivalSet) : Option SetBounds :=
  let (hh, mm) := clockParts set.startTime
  match createDateInLocalFrame host dayKey hh mm with
  | none => none
  | some startMs => some {
      startMs := startMs
      endMs := if set.endTime = "" then some (assumedEnd startMs)
        else localEnd host dayKey set.endTime startMs }

/-- The bounds of a set in a zone. -/
def zonedBounds (host : Host) (dayKey : List Char) (set : FestivalSet) (timeZone : String) :
    Except String (Option SetBounds) := do
  let (hh, mm) := clockParts set.startTime
  match ← zonedWallTimeToMs host dayKey hh mm timeZone with
  | none => return none
  | some startMs =>
      let endMs ← if set.endTime = "" then .ok (some (assumedEnd startMs))
        else zonedEnd host dayKey set.endTime timeZone startMs
      return some { startMs := startMs, endMs := endMs }

/-- The start and the end of a set, `none` when it has no usable date or time. -/
def getSetTimeBounds (host : Host) (set : FestivalSet) (days : List FestivalDay)
    (timeZone : String) : Except String (Option SetBounds) :=
  let dateStr := setDate set days
  let dayKey := slice 10 dateStr.toList
  if dateStr = "" ∨ set.startTime = "" then .ok none
  else if isDayKey dayKey = false then .ok none
  else if timeZone = "" then .ok (localBounds host dayKey set)
  else zonedBounds host dayKey set timeZone

/-- Bounds are only found for a set with a start time. -/
theorem startTime_of_bounds {host : Host} {set : FestivalSet} {days : List FestivalDay}
    {timeZone : String} {b : SetBounds}
    (h : getSetTimeBounds host set days timeZone = .ok (some b)) : set.startTime ≠ "" := by
  unfold getSetTimeBounds at h
  intro hs
  simp [hs] at h

end FestivalPlanner.Schedule
