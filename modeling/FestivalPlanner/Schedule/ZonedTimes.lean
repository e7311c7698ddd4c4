import FestivalPlanner.Lib.Table
import FestivalPlanner.Lib.Zones
import FestivalPlanner.Schedule.WallClock

/-!
# Wall-clock times of a named zone

`zonedWallTimeToMs` of `packages/shared/src/utils/setStatus.ts` on a zone whose clock is changed now
and then, as the date formatter of the device reports it.

* `partsOf`, `Reports` — the formatter shows the wall clock of a zone, with the year of its era;
* `zoneOffsetMsAt_late`, `zoneOffsetMsAt_early` — read back with `Date.UTC`, which takes the years 0
  to 99 for those of the last century, the offset is right from the year 100 on and wrong before;
* `offsetInForce` — what the two passes find; `zonedWallTimeToMs_eq` — they give `Zone.instant`;
* `zonedWallTimeToMs_inverts_iff` — they invert the zone exactly where no year before 100 is read.
-/

namespace FestivalPlanner.Schedule

open Js Calendar Option
open Zones (Zone)

/-! ## What the formatter shows -/

/-- A time value. -/
def InRange (t : ℤ) : Prop := -8640000000000000 ≤ t ∧ t ≤ 8640000000000000

/-- The year as it is counted in its era, which is not shown. -/
def eraYear (y : ℤ) : ℤ := if 1 ≤ y then y else 1 - y

instance (t : ℤ) : Decidable (InRange t) :=
  inferInstanceAs (Decidable (-8640000000000000 ≤ t ∧ t ≤ 8640000000000000))

/-- What the formatter shows of a local time. -/
def partsOf (wall : ℤ) : DateParts :=
  let (y, m, d) := civilFromDay (wall / msPerDay)
  { year := eraYear y
    month := m
    day := d
    hour := wall / msPerHour % 24
    minute := wall / msPerMinute % 60
    second := wall / 1000 % 60 }

/-- The formatter shows the wall clock of the zone, to the second; of what is no time value it
shows nothing. -/
structure Reports (host : Host) (timeZone : String) (z : Zone) : Prop where
  seconds : ∀ t, 1000 ∣ z.offset t
  shown : ∀ t, InRange t → host.formatToParts timeZone (some t) = .ok (partsOf (z.localTime t))
  refused : ∀ t : Number, (∀ n ∈ t, ¬InRange n) → ∃ e, host.formatToParts timeZone t = .error e

/-- A device whose formatter shows the wall clock of a zone. -/
def deviceIn (z : Zone) : Host where
  now := 0
  localTime := z.localTime
  utc := z.instant
  formatToParts _ t :=
    match t with
    | some t => if InRange t then .ok (partsOf (z.localTime t))
        else .error "RangeError: Invalid time value"
    | none => .error "RangeError: Invalid time value"
  parse _ := none

theorem reports_deviceIn {z : Zone} (hseconds : ∀ t, 1000 ∣ z.offset t) (timeZone : String) :
    Reports (deviceIn z) timeZone z where
  seconds := hseconds
  shown _ ht := if_pos ht
  refused t ht := by
    cases t with
    | none => exact ⟨_, rfl⟩
    | some t => exact ⟨_, if_neg (ht t rfl)⟩

/-! ## Reading the parts back -/

/-- The year that `Date.UTC` takes a year for. -/
@[grind =] def utcYear (y : ℤ) : ℤ := if 0 ≤ y ∧ y ≤ 99 then 1900 + y else y

/-- The day of `Date.UTC(y, m - 1, d)`. -/
def utcDay (y m d : ℤ) : ℤ := makeDay (utcYear y) m d

theorem utcYear_late {y : ℤ} (h : 100 ≤ y) : utcYear y = y := if_neg (by omega)

theorem eraYear_late {y : ℤ} (h : 100 ≤ y) : eraYear y = y := if_pos (by omega)

/-- Before the year 100 a year is taken for a later one. -/
theorem lt_utcYear {y : ℤ} (h : y < 100) : y < utcYear (eraYear y) := by
  unfold utcYear eraYear
  split_ifs <;> omega

/-- The local time that begins the year 100. -/
def year100 : ℤ := dayFromYear 100 * msPerDay

/-- What `Date.UTC` makes of the parts of a local time. -/
def readBack (wall : ℤ) : Number :=
  dateUTC (partsOf wall).year (partsOf wall).month (partsOf wall).day (partsOf wall).hour
    (partsOf wall).minute (partsOf wall).second

variable {wall : ℤ} {offset hours minutes naive : Number}

theorem readBack_eq (h : 1000 ∣ wall) :
    readBack wall = timeClip (wall + (utcDay (partsOf wall).year (partsOf wall).month
      (partsOf wall).day - wall / msPerDay) * msPerDay) := by
  unfold readBack dateUTC
  refine congrArg timeClip ?_
  rw [← utcYear, ← utcDay, show (partsOf wall).hour = wall / msPerHour % 24 from rfl,
    show (partsOf wall).minute = wall / msPerMinute % 60 from rfl,
    show (partsOf wall).second = wall / 1000 % 60 from rfl]
  unfold msPerDay msPerHour msPerMinute
  omega

theorem year100_le_iff : year100 ≤ wall ↔ 100 ≤ yearFromDay (wall / msPerDay) := by
  rw [← dayFromYear_le_iff]
  unfold year100 msPerDay
  omega

/-- From the year 100 on the parts name the local time. -/
theorem readBack_late (h : 1000 ∣ wall) (hlate : year100 ≤ wall) :
    readBack wall = timeClip wall := by
  have hyear := year100_le_iff.mp hlate
  have hutc : utcDay (partsOf wall).year (partsOf wall).month (partsOf wall).day =
      wall / msPerDay := by
    show makeDay (utcYear (eraYear (civilFromDay (wall / msPerDay)).1)) _ _ = _
    rw [(civilFromDay_spec _).1, eraYear_late hyear, utcYear_late hyear, ← (civilFromDay_spec _).1]
    exact makeDay_civilFromDay _
  rw [readBack_eq h, hutc, sub_self, zero_mul, add_zero]

/-- Before it they name a time that is later, by most of a year at least. -/
theorem readBack_early {t : ℤ} (h : 1000 ∣ wall) (hearly : wall < year100)
    (ht : t ∈ readBack wall) : wall + 364 * msPerDay ≤ t := by
  obtain ⟨hy, h1, h12, -⟩ := civilFromDay_spec (wall / msPerDay)
  have hyear : (civilFromDay (wall / msPerDay)).1 < 100 := by
    rw [hy, ← not_le, ← year100_le_iff]
    exact not_le.mpr hearly
  have hday := makeDay_civilFromDay (wall / msPerDay)
  have hlater := makeDay_add_le (d := (civilFromDay (wall / msPerDay)).2.2) (lt_utcYear hyear)
    h1 h12
  have hutc : wall / msPerDay + 364 ≤
      utcDay (partsOf wall).year (partsOf wall).month (partsOf wall).day := by
    have := lt_utcYear hyear
    show _ ≤ makeDay (utcYear (eraYear (civilFromDay (wall / msPerDay)).1))
      (civilFromDay (wall / msPerDay)).2.1 (civilFromDay (wall / msPerDay)).2.2
    omega
  rw [readBack_eq h] at ht
  simp only [timeClip, mem_def, ite_none_right_eq_some, some.injEq] at ht
  unfold msPerDay at *
  omega

/-! ## The offset at an instant -/

theorem dateUTC_eq (y m d h min : ℤ) :
    dateUTC y m d h min 0 = timeClip (wallTime (utcDay y m d) (h * 60 + min)) := by
  unfold dateUTC wallTime utcDay utcYear
  refine congrArg timeClip ?_
  unfold msPerHour msPerMinute
  ring

theorem dvd_wallTime (day minutes : ℤ) : 1000 ∣ wallTime day minutes := by
  unfold wallTime msPerDay msPerMinute
  omega

section
variable {host : Host} {timeZone : String} {z : Zone} {t : ℤ}

theorem zoneOffsetMsAt_eq (h : Reports host timeZone z) (hrange : InRange t) :
    zoneOffsetMsAt host (some t) timeZone =
      .ok ((readBack (z.localTime t)).map (fun shown => shown - t)) := by
  unfold zoneOffsetMsAt
  simp only [h.shown t hrange, bind, Except.bind, pure, Except.pure]
  rw [← readBack]
  cases readBack (z.localTime t) <;> rfl

/-- Only for a time value is there an offset. -/
theorem inRange_of_reported (h : Reports host timeZone z) {t : Number}
    (hoffset : zoneOffsetMsAt host t timeZone = .ok offset) : ∃ n ∈ t, InRange n := by
  by_contra hrange
  obtain ⟨e, he⟩ := h.refused t fun n hn hn' => hrange ⟨n, hn, hn'⟩
  unfold zoneOffsetMsAt at hoffset
  rw [he] at hoffset
  cases hoffset

/-- Offsets are read in whole seconds. -/
theorem dvd_offset (ht : 1000 ∣ t) {offset : ℤ}
    (hoffset : zoneOffsetMsAt host (some t) timeZone = .ok (some offset)) : 1000 ∣ offset := by
  unfold zoneOffsetMsAt at hoffset
  obtain ⟨p, -, hp⟩ := Table.bind_eq_ok.mp hoffset
  obtain ⟨shown, hshown, hsub⟩ := bind_eq_some_iff.mp (Except.ok.inj hp)
  obtain rfl := some.inj hsub
  simp only [dateUTC, timeClip, ite_none_right_eq_some, some.injEq] at hshown
  obtain ⟨-, rfl⟩ := hshown
  refine dvd_sub ?_ ht
  unfold msPerDay msPerHour msPerMinute
  omega

theorem dvd_localTime (h : Reports host timeZone z) (ht : 1000 ∣ t) : 1000 ∣ z.localTime t :=
  dvd_add ht (h.seconds t)

/-- From the year 100 on, away from the end of the time values, the offset is that of the zone. -/
theorem zoneOffsetMsAt_late (h : Reports host timeZone z) (ht : 1000 ∣ t)
    (hlate : year100 ≤ z.localTime t) (hhigh : t ≤ 8500000000000000) :
    zoneOffsetMsAt host (some t) timeZone = .ok (some (z.offset t)) := by
  have hoffset := z.offset_mem t
  have hbegin : year100 = -59011459200000 := by decide
  have hrange : InRange t := ⟨by unfold Zone.localTime msPerHour at *; omega, by omega⟩
  rw [zoneOffsetMsAt_eq h hrange, readBack_late (dvd_localTime h ht) hlate, timeClip_eq,
    map_some, Zone.localTime, add_sub_cancel_left]
  all_goals
    unfold Zone.localTime msPerHour at *
    omega

/-- Before the year 100 it is not, if there is one. -/
theorem zoneOffsetMsAt_early (h : Reports host timeZone z) (ht : 1000 ∣ t)
    (hearly : z.localTime t < year100)
    (hoffset : zoneOffsetMsAt host (some t) timeZone = .ok offset) :
    ∀ v ∈ offset, z.offset t + 364 * msPerDay ≤ v := by
  obtain ⟨n, hn, hrange⟩ := inRange_of_reported h hoffset
  obtain rfl := some.inj hn
  rw [zoneOffsetMsAt_eq h hrange] at hoffset
  obtain rfl := Except.ok.inj hoffset
  intro v hv
  obtain ⟨shown, hshown, rfl⟩ := map_eq_some_iff.mp hv
  have := readBack_early (dvd_localTime h ht) hearly hshown
  unfold Zone.localTime at this
  omega

end

/-! ## The two passes -/

section
variable {host : Host} {timeZone : String} {z : Zone} {dateStr : List Char} {y m d h min : ℤ}

/-- No year before 100 is read at the instants that the two passes look at. -/
def ReadLate (z : Zone) (wall : ℤ) : Prop :=
  year100 ≤ z.localTime wall ∧ year100 ≤ z.localTime (wall - z.offset wall)

/-- The offset in force at a local time, as it is read from the formatter twice. -/
def offsetInForce (host : Host) (timeZone : String) (naiveUtc : Number) :
    Except String Number := do
  let offset1 ← zoneOffsetMsAt host naiveUtc timeZone
  zoneOffsetMsAt host (do return (← naiveUtc) - (← offset1)) timeZone

/-- The two passes take the offset in force from the wall clock. -/
theorem zonedWallTimeToMs_eq_map {host : Host} {timeZone : String}
    (hparts : keyParts (slice 10 dateStr) = (some y, some m, some d))
    (hnaive : (do dateUTC y m d (← hours) (← minutes) 0) = naive) :
    zonedWallTimeToMs host dateStr hours minutes timeZone =
      (offsetInForce host timeZone naive).map fun offset => do return (← naive) - (← offset) := by
  unfold zonedWallTimeToMs offsetInForce
  simp only [hparts, hnaive]
  cases zoneOffsetMsAt host naive timeZone with
  | error e => rfl
  | ok offset1 =>
    show (zoneOffsetMsAt host _ timeZone).bind _ = (zoneOffsetMsAt host _ timeZone).map _
    cases zoneOffsetMsAt host (do return (← naive) - (← offset1)) timeZone with
    | error e => rfl
    | ok offset2 =>
      refine congrArg Except.ok ?_
      split
      · next hsame => rw [hsame]
      · rfl

theorem zonedWallTimeToMs_eq_ok {host : Host} {timeZone : String} {r : Number}
    (hparts : keyParts (slice 10 dateStr) = (some y, some m, some d))
    (hnaive : (do dateUTC y m d (← hours) (← minutes) 0) = naive) :
    zonedWallTimeToMs host dateStr hours minutes timeZone = .ok r ↔
      ∃ offset, offsetInForce host timeZone naive = .ok offset ∧
        (do return (← naive) - (← offset)) = r := by
  rw [zonedWallTimeToMs_eq_map hparts hnaive]
  cases offsetInForce host timeZone naive <;> simp [Except.map]

/-- **The two passes find the offset at the instant of the zone.** -/
theorem offsetInForce_late (hreports : Reports host timeZone z) (hseconds : 1000 ∣ wall)
    (hhigh : wall ≤ 8000000000000000) (hlate : ReadLate z wall) :
    offsetInForce host timeZone (some wall) = .ok (some (z.offsetAt wall)) := by
  obtain ⟨hfirst, hsecond⟩ := hlate
  have hoffset := z.offset_mem wall
  have hguess := zoneOffsetMsAt_late hreports hseconds hfirst (by omega)
  have hcorrected := zoneOffsetMsAt_late hreports (dvd_sub hseconds (hreports.seconds wall)) hsecond
    (by unfold msPerHour at hoffset; omega)
  unfold offsetInForce
  rw [hguess]
  exact hcorrected

/-- Where a year before 100 is read, what they find is much too large. -/
theorem offsetInForce_early (hreports : Reports host timeZone z) (hseconds : 1000 ∣ wall)
    (hhigh : wall ≤ 8000000000000000) (hearly : ¬ReadLate z wall)
    (hinforce : offsetInForce host timeZone (some wall) = .ok offset) :
    ∀ v ∈ offset, 300 * msPerDay ≤ v := by
  have hoffset := z.offset_mem wall
  obtain ⟨offset1, hfirst, hsecond⟩ := Table.bind_eq_ok.mp hinforce
  obtain ⟨first, rfl⟩ : ∃ first, offset1 = some first := by
    obtain ⟨n, hn, -⟩ := inRange_of_reported hreports hsecond
    cases offset1 with
    | none => cases hn
    | some first => exact ⟨first, rfl⟩
  have hless : z.localTime (wall - first) < year100 := by
    by_cases hlate : year100 ≤ z.localTime wall
    · -- the first pass is right, and leads before the year 100
      rw [zoneOffsetMsAt_late hreports hseconds hlate (by omega)] at hfirst
      obtain rfl := some.inj (Except.ok.inj hfirst)
      by_contra hboth
      exact hearly ⟨hlate, not_lt.mp hboth⟩
    · -- the first pass is too large already, and the second reads a year before 100 too
      have hlarge := zoneOffsetMsAt_early hreports hseconds (not_le.mp hlate) hfirst first rfl
      have hnext := z.offset_mem (wall - first)
      unfold Zone.localTime at *
      unfold msPerDay msPerHour at *
      omega
  have hnext := z.offset_mem (wall - first)
  intro v hv
  have hfar := zoneOffsetMsAt_early hreports (dvd_sub hseconds (dvd_offset hseconds hfirst)) hless
    hsecond v hv
  unfold msPerDay msPerHour at *
  omega

/-- **The two passes find the instant of the zone.** -/
theorem zonedWallTimeToMs_eq (hreports : Reports host timeZone z)
    (hparts : keyParts (slice 10 dateStr) = (some y, some m, some d))
    (hlow : -8640000000000000 ≤ wallTime (utcDay y m d) (h * 60 + min))
    (hhigh : wallTime (utcDay y m d) (h * 60 + min) ≤ 8000000000000000)
    (hlate : ReadLate z (wallTime (utcDay y m d) (h * 60 + min))) :
    zonedWallTimeToMs host dateStr (some h) (some min) timeZone =
      .ok (some (z.instant (wallTime (utcDay y m d) (h * 60 + min)))) := by
  rw [zonedWallTimeToMs_eq_map hparts (dateUTC_eq y m d h min), timeClip_eq hlow (by omega),
    offsetInForce_late hreports (dvd_wallTime _ _) hhigh hlate]
  rfl

/-- Where a year before 100 is read, what they give lies long before the wall clock. -/
theorem zonedWallTimeToMs_early (hreports : Reports host timeZone z)
    (hparts : keyParts (slice 10 dateStr) = (some y, some m, some d))
    (hlow : -8640000000000000 ≤ wallTime (utcDay y m d) (h * 60 + min))
    (hhigh : wallTime (utcDay y m d) (h * 60 + min) ≤ 8000000000000000)
    (hearly : ¬ReadLate z (wallTime (utcDay y m d) (h * 60 + min))) {r : ℤ}
    (hr : zonedWallTimeToMs host dateStr (some h) (some min) timeZone = .ok (some r)) :
    r ≤ wallTime (utcDay y m d) (h * 60 + min) - 300 * msPerDay := by
  obtain ⟨offset, hinforce, hr⟩ := (zonedWallTimeToMs_eq_ok hparts (dateUTC_eq y m d h min)).mp hr
  rw [timeClip_eq hlow (by omega)] at hinforce hr
  cases offset with
  | none => cases hr
  | some v =>
    have := offsetInForce_early hreports (dvd_wallTime _ _) hhigh hearly hinforce v rfl
    obtain rfl := some.inj hr
    omega

end

/-! ## The zone is inverted -/

/-- The local time that a date and a time of the day name. -/
def namedTime (y m d h min : ℤ) : ℤ := wallTime (makeDay y m d) (h * 60 + min)

/-- The last century is near the epoch, and far from the first. -/
theorem utcDay_lastCentury {y m d : ℤ} (hy : 0 ≤ y) (hlate : ¬100 ≤ y) (h1 : 1 ≤ m) (h12 : m ≤ 12)
    (hd : 0 ≤ d) (hd' : d < 10 ^ 2) :
    (-30000 ≤ utcDay y m d ∧ utcDay y m d ≤ 20000) ∧ makeDay y m d + 690000 ≤ utcDay y m d := by
  have hcentury : utcYear y = 1900 + y := if_pos (by omega)
  have hlater := makeDay_add_le (d := d) (show y < 1900 + y by omega) h1 h12
  have hmonth := daysBeforeMonth_mem (isLeap (1900 + y)) h1 h12
  rw [utcDay, hcentury]
  refine ⟨?_, by omega⟩
  rw [makeDay_of_month h1 h12]
  unfold dayFromYear
  omega

/-- **The wall-clock time that a zone shows comes back exactly when its year is 100 or later and no
year before 100 is read on the way.** -/
theorem zonedWallTimeToMs_inverts_iff {host : Host} {timeZone : String} {z : Zone}
    {dateStr : String} {y m d h min : ℤ} (hreports : Reports host timeZone z)
    (hdate : isCalendarDate dateStr = true)
    (hparts : keyParts (slice 10 dateStr.toList) = (some y, some m, some d))
    (hh : 0 ≤ h ∧ h ≤ 23) (hmin : 0 ≤ min ∧ min ≤ 59) (hshows : z.Shows (namedTime y m d h min)) :
    (∃ r, zonedWallTimeToMs host dateStr.toList (some h) (some min) timeZone = .ok (some r) ∧
      r + z.offset r = namedTime y m d h min) ↔ 100 ≤ y ∧ ReadLate z (namedTime y m d h min) := by
  obtain ⟨n, hday⟩ := dayOf_isSome hdate
  obtain ⟨h1, h12, h1', -⟩ := isDate_of_isCalendarDate hdate hparts
  obtain ⟨hlow, hhigh⟩ := dayOf_bounds hday
  obtain ⟨-, ys, ms, ds, -, hylen, hmlen, hdlen, hys, hms, hds, hkey, rfl⟩ := parts_of_dayOf hday
  obtain ⟨hy, hm, hd⟩ : ofDigits ys = y ∧ ofDigits ms = m ∧ ofDigits ds = d := by
    simpa [hkey] using hparts
  rw [hy, hm, hd] at hlow hhigh
  have hyear := (ofDigits_bounds hys).1
  rw [hy] at hyear
  by_cases hlate : 100 ≤ y
  · have hsame : wallTime (utcDay y m d) (h * 60 + min) = namedTime y m d h min := by
      rw [utcDay, utcYear_late hlate, namedTime]
    have hlow' : -8640000000000000 ≤ wallTime (utcDay y m d) (h * 60 + min) := by
      rw [hsame]
      unfold namedTime wallTime msPerDay msPerMinute
      omega
    have hhigh' : wallTime (utcDay y m d) (h * 60 + min) ≤ 8000000000000000 := by
      rw [hsame]
      unfold namedTime wallTime msPerDay msPerMinute
      omega
    constructor
    · rintro ⟨r, hr, hshown⟩
      refine ⟨hlate, ?_⟩
      by_contra hearly
      rw [← hsame] at hearly hshown
      have hfar := zonedWallTimeToMs_early hreports hparts hlow' hhigh' hearly hr
      have hoffset := z.offset_mem r
      unfold msPerDay msPerHour at *
      omega
    · rintro ⟨-, hread⟩
      rw [← hsame] at hread ⊢
      refine ⟨_, zonedWallTimeToMs_eq hreports hparts hlow' hhigh' hread, ?_⟩
      rw [← hsame] at hshows
      exact z.localTime_instant hshows
  · have hdays := ofDigits_bounds hds
    rw [hd, hdlen] at hdays
    obtain ⟨hnear, hfar⟩ := utcDay_lastCentury hyear hlate h1 h12 hdays.1 hdays.2
    have hwall : -30000 * msPerDay ≤ wallTime (utcDay y m d) (h * 60 + min) ∧
        namedTime y m d h min + 300 * msPerDay ≤ wallTime (utcDay y m d) (h * 60 + min) := by
      unfold namedTime wallTime msPerDay msPerMinute
      omega
    have hread : ReadLate z (wallTime (utcDay y m d) (h * 60 + min)) := by
      have hbegin : year100 = -59011459200000 := by decide
      have hfirst := z.offset_mem (wallTime (utcDay y m d) (h * 60 + min))
      have hsecond := z.offset_mem (wallTime (utcDay y m d) (h * 60 + min) -
        z.offset (wallTime (utcDay y m d) (h * 60 + min)))
      unfold ReadLate Zone.localTime
      unfold msPerDay msPerHour at *
      omega
    have hlow' : -8640000000000000 ≤ wallTime (utcDay y m d) (h * 60 + min) := by
      unfold wallTime msPerDay msPerMinute
      omega
    have hhigh' : wallTime (utcDay y m d) (h * 60 + min) ≤ 8000000000000000 := by
      unfold wallTime msPerDay msPerMinute
      omega
    constructor
    · rintro ⟨r, hr, hshown⟩
      rw [zonedWallTimeToMs_eq hreports hparts hlow' hhigh' hread] at hr
      obtain rfl := Option.some.inj (Except.ok.inj hr)
      have hclose := z.instant_mem (wallTime (utcDay y m d) (h * 60 + min))
      have hoffset := z.offset_mem (z.instant (wallTime (utcDay y m d) (h * 60 + min)))
      unfold msPerDay msPerHour at *
      omega
    · rintro ⟨hlate', -⟩
      exact absurd hlate' hlate

/-- New York in the spring of 2026: the clock goes from two to three on 8 March. -/
def newYork : Zone :=
  Zone.changed 1772953200000 (-5 * msPerHour) (-4 * msPerHour) (by decide) (by decide) (by decide)

theorem newYork_seconds (t : ℤ) : 1000 ∣ newYork.offset t := by
  show 1000 ∣ Zone.changedOffset _ _ _ t
  unfold Zone.changedOffset msPerHour
  split_ifs <;> omega

/-- Half an hour after the gap. -/
theorem afterGap_inverts : ∃ r, zonedWallTimeToMs (deviceIn newYork) "2026-03-08".toList (some 3)
    (some 30) "America/New_York" = .ok (some r) ∧ r + newYork.offset r = namedTime 2026 3 8 3 30 :=
  (zonedWallTimeToMs_inverts_iff (reports_deviceIn newYork_seconds _) (by decide)
    (by decide) (by decide) (by decide) ⟨1772955000000, by decide⟩).mpr
    ⟨by decide, by decide, by decide⟩

/-- A noon of the year 50 comes back as one of 1950. -/
theorem firstCentury_not_inverted : Reports (deviceIn newYork) "America/New_York" newYork ∧
    isCalendarDate "0050-01-01" = true ∧ newYork.Shows (namedTime 50 1 1 12 0) ∧
    zonedWallTimeToMs (deviceIn newYork) "0050-01-01".toList (some 12) (some 0)
      "America/New_York" = .ok (some (-631090800000)) ∧
    -631090800000 + newYork.offset (-631090800000) ≠ namedTime 50 1 1 12 0 := by
  refine ⟨reports_deviceIn newYork_seconds _, by decide, ?_, by decide, by decide⟩
  exact ⟨namedTime 50 1 1 12 0 + 5 * msPerHour, by decide⟩

end FestivalPlanner.Schedule
