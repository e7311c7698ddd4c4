import FestivalPlanner.Lib.Calendar
import FestivalPlanner.Lib.Js
import Mathlib.Tactic.Ring

/-!
# Dates of JavaScript

A `Date` is a time value: milliseconds since 1 January 1970 UTC, or `NaN`.  Reading and
setting its fields goes through the time zone of the device, which is a parameter here.

* `timeClip`, `dateUTC` — time values and `Date.UTC`;
* `Host` — what a program asks of the device: the clock, the local time of an instant and
  the instant of a local time, and the wall clock of a named zone;
* `setFullYear`, `setHours`, `addDay` — the setters of a local date;
* `Host.SteadyOn`, `Host.Regular` — devices whose clock is not changed around a day, and
  devices whose clock changes keep the day;
* `setHours_setFullYear` — on such a device the setters give the instant of the local time.
-/

namespace Js

open Calendar

/-- The milliseconds of a minute, an hour and a day. -/
def msPerMinute : ℤ := 60000

/-- The milliseconds of an hour. -/
def msPerHour : ℤ := 3600000

/-- The milliseconds of a day. -/
@[grind =] def msPerDay : ℤ := 86400000

/-- A time value is at most a hundred million days away from the epoch. -/
def timeClip (t : ℤ) : Number :=
  if -8640000000000000 ≤ t ∧ t ≤ 8640000000000000 then some t else none

theorem timeClip_eq {t : ℤ} (hlow : -8640000000000000 ≤ t) (hhigh : t ≤ 8640000000000000) :
    timeClip t = some t := by
  unfold timeClip
  rw [if_pos ⟨hlow, hhigh⟩]

theorem eq_of_timeClip {t n : ℤ} (h : timeClip t = some n) : n = t := by
  unfold timeClip at h
  split at h
  · exact (Option.some.inj h).symm
  · cases h

/-- `Date.UTC(y, m - 1, d, h, min, s)`; the years 0 to 99 are those of the last century. -/
@[grind =] def dateUTC (y m d h min s : ℤ) : Number :=
  let year := if 0 ≤ y ∧ y ≤ 99 then 1900 + y else y
  timeClip (makeDay year m d * msPerDay + h * msPerHour + min * msPerMinute + s * 1000)

/-- `date.toISOString()` -/
def toISOString (t : Number) : Except String (List Char) :=
  match t with
  | none => .error "RangeError: Invalid time value"
  | some t =>
      let (y, m, d) := civilFromDay (t / msPerDay)
      let number (width : ℕ) (n : ℤ) := padStart width (toString n).toList
      let year := if 0 ≤ y ∧ y ≤ 9999 then number 4 y
        else (if y < 0 then '-' else '+') :: number 6 |y|
      .ok (year ++ '-' :: number 2 m ++ '-' :: number 2 d ++
        'T' :: number 2 (t / msPerHour % 24) ++ ':' :: number 2 (t / msPerMinute % 60) ++
        ':' :: number 2 (t / 1000 % 60) ++ '.' :: number 3 (t % 1000) ++ ['Z'])

/-- What `formatToParts` of a date formatter shows of an instant. -/
structure DateParts where
  year : ℤ
  month : ℤ
  day : ℤ
  hour : ℤ
  minute : ℤ
  second : ℤ
  deriving DecidableEq

/-- The device a program runs on. -/
structure Host where
  /-- what `new Date()` reads -/
  now : ℤ
  /-- the local time of an instant -/
  localTime : ℤ → ℤ
  /-- the instant of a local time -/
  utc : ℤ → ℤ
  /-- the wall clock of a zone at a time value; an error for an unknown zone or for `NaN` -/
  formatToParts : String → Number → Except String DateParts
  /-- what `new Date(text)` reads of a text -/
  parse : List Char → Number

namespace Host

variable (host : Host)

/-- `date.setFullYear(y, m - 1, d)` on a valid date. -/
def setFullYear (t : ℤ) (y m d : Number) : Number := do
  timeClip (host.utc (makeDay (← y) (← m) (← d) * msPerDay + host.localTime t % msPerDay))

/-- `date.setHours(h, min, 0, 0)`. -/
def setHours (t h min : Number) : Number := do
  timeClip (host.utc (host.localTime (← t) / msPerDay * msPerDay +
    (← h) * msPerHour + (← min) * msPerMinute))

/-- `date.setDate(date.getDate() + 1)`: the same time of the next day. -/
def addDay (t : Number) : Number := do
  timeClip (host.utc (host.localTime (← t) + msPerDay))

/-! ## Time zones -/

/-- The clock is not changed on a day and the next: both are one offset ahead of UTC. -/
structure SteadyOn (day offset : ℤ) : Prop where
  low : -msPerDay < offset
  high : offset < msPerDay
  utc_eq : ∀ x, day * msPerDay ≤ x → x < (day + 2) * msPerDay → host.utc x = x - offset
  localTime_eq : ∀ x, day * msPerDay ≤ x → x < (day + 2) * msPerDay →
    host.localTime (x - offset) = x

/-- Offsets are less than a day, a local time that a change skips is moved within its day,
and midnight is the first instant of a day. -/
structure Regular : Prop where
  near : ∀ x, x - msPerDay < host.utc x ∧ host.utc x < x + msPerDay
  same_day : ∀ x, host.localTime (host.utc x) / msPerDay = x / msPerDay
  midnight : ∀ day x, day * msPerDay ≤ x → host.utc (day * msPerDay) ≤ host.utc x
  before_midnight : ∀ day x, x < day * msPerDay → host.utc x < host.utc (day * msPerDay)

/-- The local times of a day are near their instants, and stay on the day. -/
def KeepsDay (day : ℤ) : Prop :=
  ∀ x, x / msPerDay = day → x - msPerDay < host.utc x ∧ host.utc x < x + msPerDay ∧
    host.localTime (host.utc x) / msPerDay = day

variable {host}

theorem Regular.keepsDay (h : host.Regular) (day : ℤ) : host.KeepsDay day := by
  intro x hx
  exact ⟨(h.near x).1, (h.near x).2, (h.same_day x).trans hx⟩

/-- The same time of the next day is later. -/
theorem Regular.addDay_gt (h : host.Regular) (x : ℤ) :
    host.utc x < host.utc (host.localTime (host.utc x) + msPerDay) := by
  have hday := h.same_day x
  have hbefore := h.before_midnight (x / msPerDay + 1) x (by unfold msPerDay; omega)
  have hafter := h.midnight (x / msPerDay + 1) (host.localTime (host.utc x) + msPerDay) (by
    unfold msPerDay at *
    omega)
  exact lt_of_lt_of_le hbefore hafter

theorem SteadyOn.keepsDay {day offset : ℤ} (h : host.SteadyOn day offset) :
    host.KeepsDay day := by
  intro x hx
  have hlow := h.low
  have hhigh := h.high
  have hstart : day * msPerDay ≤ x := by
    unfold msPerDay at *
    omega
  have hend : x < (day + 2) * msPerDay := by
    unfold msPerDay at *
    omega
  rw [h.utc_eq x hstart hend, h.localTime_eq x hstart hend]
  exact ⟨by omega, by omega, hx⟩

/-! ## Setting a time of a day -/

/-- Setting the date and then the time of day gives the instant of that local time. -/
theorem setHours_setFullYear {y m d h min : ℤ} (hkeeps : host.KeepsDay (makeDay y m d))
    (hlow : -90000000 ≤ makeDay y m d) (hhigh : makeDay y m d ≤ 90000000) (hh : 0 ≤ h)
    (hh' : h ≤ 23) (hm : 0 ≤ min) (hm' : min ≤ 59) (t : ℤ) :
    host.setHours (host.setFullYear t (some y) (some m) (some d)) (some h) (some min) =
      some (host.utc (makeDay y m d * msPerDay + (h * 60 + min) * msPerMinute)) := by
  have hday : (makeDay y m d * msPerDay + host.localTime t % msPerDay) / msPerDay =
      makeDay y m d := by
    unfold msPerDay
    omega
  have htime : (makeDay y m d * msPerDay + (h * 60 + min) * msPerMinute) / msPerDay =
      makeDay y m d := by
    unfold msPerDay msPerMinute
    omega
  obtain ⟨hnear, hnear', hsame⟩ := hkeeps _ hday
  obtain ⟨hclose, hclose', -⟩ := hkeeps _ htime
  have hfull : host.setFullYear t (some y) (some m) (some d) =
      some (host.utc (makeDay y m d * msPerDay + host.localTime t % msPerDay)) := by
    apply timeClip_eq <;> unfold msPerDay at * <;> omega
  rw [hfull]
  show timeClip (host.utc (host.localTime (host.utc _) / msPerDay * msPerDay +
    h * msPerHour + min * msPerMinute)) = _
  rw [hsame, show makeDay y m d * msPerDay + h * msPerHour + min * msPerMinute =
    makeDay y m d * msPerDay + (h * 60 + min) * msPerMinute by
      unfold msPerHour msPerMinute; ring]
  apply timeClip_eq <;> unfold msPerDay msPerMinute at * <;> omega

end Host

end Js
