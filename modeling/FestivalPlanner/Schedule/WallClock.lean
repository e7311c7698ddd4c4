import FestivalPlanner.Schedule.SetTimes
import FestivalPlanner.Lib.Digits

/-!
# Day keys and wall-clock times

What the time functions compute on `YYYY-MM-DD` keys and times from 00:00 to 23:59, the only
times that `validateTime` of `lib/helpers/validation.ts` lets into a festival.

* `dayOf`, `isCalendarDate` — the number of the day a date text begins with;
* `dayOf_le` — dates of the calendar in the order of their texts are in that of their days;
* `validateTime`, `timeToMinutes` — times of the day and their minutes;
* `createDate_of_valid` — such a time of such a day is the instant of its local time;
* `getSetTimeBounds_steady` — the bounds of a set where the clock is not changed.
-/

namespace FestivalPlanner.Schedule

open Js Calendar List

/-! ## Dates -/

/-- The number of the day key that a date text begins with; `none` when it begins with no
day key.  Months and days out of range count on, as in a `Date`. -/
def dayOf (dateStr : String) : Option ℤ :=
  let key := slice 10 dateStr.toList
  if isDayKey key then do
    let (y, m, d) := keyParts key
    return makeDay (← y) (← m) (← d)
  else none

/-- The day key is a day of the calendar. -/
def isCalendarDate (dateStr : String) : Bool :=
  let key := slice 10 dateStr.toList
  isDayKey key &&
    match keyParts key with
    | (some y, some m, some d) => decide (IsDate y m d)
    | _ => false

example : dayOf "2026-09-04T20:00" = some 20700 ∧ isCalendarDate "2026-02-30" = false := by
  decide

/-- A day key is three numbers of four, two and two digits. -/
theorem parts_of_isDayKey {key : List Char} (h : isDayKey key = true) :
    ∃ ys ms ds, key = ys ++ '-' :: (ms ++ '-' :: ds) ∧ ys.length = 4 ∧ ms.length = 2 ∧
      ds.length = 2 ∧ Digits ys ∧ Digits ms ∧ Digits ds := by
  unfold isDayKey at h
  split at h
  · rename_i y1 y2 y3 y4 s1 m1 m2 s2 d1 d2
    simp only [all_cons, all_nil, Bool.and_eq_true, beq_iff_eq, and_true] at h
    obtain ⟨⟨⟨hy1, hy2, hy3, hy4, hm1, hm2, hd1, hd2⟩, rfl⟩, rfl⟩ := h
    refine ⟨[y1, y2, y3, y4], [m1, m2], [d1, d2], rfl, rfl, rfl, rfl, ?_, ?_, ?_⟩ <;>
      simp [Digits, *]
  · cases h

theorem keyParts_digits {ys ms ds : List Char} (hys : Digits ys) (hms : Digits ms)
    (hds : Digits ds) (hy : ys ≠ []) (hm : ms ≠ []) (hd : ds ≠ []) :
    keyParts (ys ++ '-' :: (ms ++ '-' :: ds)) =
      (some (ofDigits ys), some (ofDigits ms), some (ofDigits ds)) := by
  unfold keyParts
  rw [split_append (hys.notMem (by decide)), split_append (hms.notMem (by decide)),
    split_of_notMem (hds.notMem (by decide))]
  simp [parseInt_digits, *]

variable {dateStr t : String} {n : ℤ} {host : Host} {set : FestivalSet} {days : List FestivalDay}

/-- What a date text with a day begins with. -/
theorem parts_of_dayOf (h : dayOf dateStr = some n) :
    isDayKey (slice 10 dateStr.toList) = true ∧
    ∃ ys ms ds, slice 10 dateStr.toList = ys ++ '-' :: (ms ++ '-' :: ds) ∧ ys.length = 4 ∧
      ms.length = 2 ∧ ds.length = 2 ∧ Digits ys ∧ Digits ms ∧ Digits ds ∧
      keyParts (slice 10 dateStr.toList) =
        (some (ofDigits ys), some (ofDigits ms), some (ofDigits ds)) ∧
      n = makeDay (ofDigits ys) (ofDigits ms) (ofDigits ds) := by
  unfold dayOf at h
  simp only at h
  split at h
  · rename_i hkey
    obtain ⟨ys, ms, ds, heq, hy, hm, hd, hys, hms, hds⟩ := parts_of_isDayKey hkey
    have hparts : keyParts (slice 10 dateStr.toList) =
        (some (ofDigits ys), some (ofDigits ms), some (ofDigits ds)) := by
      rw [heq]
      apply keyParts_digits hys hms hds <;> rintro rfl <;> simp_all
    rw [hparts] at h
    exact ⟨hkey, ys, ms, ds, heq, hy, hm, hd, hys, hms, hds, hparts, (Option.some.inj h).symm⟩
  · cases h

/-- The days of four-digit years are within a time value of the epoch. -/
theorem dayOf_bounds (h : dayOf dateStr = some n) : -1000000 ≤ n ∧ n ≤ 3000000 := by
  obtain ⟨-, ys, ms, ds, -, hy, hm, hd, hys, hms, hds, -, rfl⟩ := parts_of_dayOf h
  have hyear := ofDigits_bounds hys
  have hmonth := ofDigits_bounds hms
  have hday := ofDigits_bounds hds
  rw [hy] at hyear
  rw [hm] at hmonth
  rw [hd] at hday
  apply makeDay_bounds <;> omega

/-- A date of the calendar has a day. -/
theorem dayOf_isSome (h : isCalendarDate dateStr = true) : ∃ n, dayOf dateStr = some n := by
  unfold isCalendarDate at h
  simp only [Bool.and_eq_true] at h
  obtain ⟨hkey, h⟩ := h
  split at h
  · rename_i y m d hparts
    refine ⟨makeDay y m d, ?_⟩
    unfold dayOf
    simp only [hkey, if_true, hparts]
    rfl
  · cases h

theorem isDate_of_isCalendarDate {y m d : ℤ} (h : isCalendarDate dateStr = true)
    (hparts : keyParts (slice 10 dateStr.toList) = (some y, some m, some d)) : IsDate y m d := by
  unfold isCalendarDate at h
  simp only [hparts, Bool.and_eq_true, decide_eq_true_eq] at h
  exact h.2

/-- Dates of the calendar in the order of their texts are in the order of their days. -/
theorem dayOf_le {a b : String} {m : ℤ} (hcala : isCalendarDate a = true)
    (hcalb : isCalendarDate b = true) (ha : dayOf a = some n) (hb : dayOf b = some m)
    (hle : a ≤ b) : n ≤ m := by
  obtain ⟨-, ys, ms, ds, heq, hy, hm, hd, hys, hms, hds, hparts, rfl⟩ := parts_of_dayOf ha
  obtain ⟨-, ys', ms', ds', heq', hy', hm', hd', hys', hms', hds', hparts', rfl⟩ :=
    parts_of_dayOf hb
  have hdate := isDate_of_isCalendarDate hcala hparts
  have hdate' := isDate_of_isCalendarDate hcalb hparts'
  obtain ⟨r, hr⟩ := slice_prefix 10 a.toList
  obtain ⟨r', hr'⟩ := slice_prefix 10 b.toList
  have hnot : ¬ b.toList < a.toList := hle
  rw [← hr, ← hr', heq, heq'] at hnot
  simp only [append_assoc, cons_append] at hnot
  apply makeDay_le hdate hdate'
  rcases append_not_lt (hy.trans hy'.symm) hnot with hlt | ⟨rfl, hmonths⟩
  · exact .inl (ofDigits_lt (hy.trans hy'.symm) hys hys' hlt)
  · refine .inr ⟨rfl, ?_⟩
    rw [cons_lt_cons_self] at hmonths
    rcases append_not_lt (hm.trans hm'.symm) hmonths with hlt | ⟨rfl, hdays⟩
    · exact .inl (ofDigits_lt (hm.trans hm'.symm) hms hms' hlt)
    · refine .inr ⟨rfl, ?_⟩
      rw [cons_lt_cons_self] at hdays
      rcases append_not_lt (hd.trans hd'.symm) hdays with hlt | ⟨rfl, -⟩
      · exact le_of_lt (ofDigits_lt (hd.trans hd'.symm) hds hds' hlt)
      · exact le_rfl

/-! ## Times of the day -/

/-- A time of the day, `HH:MM` from 00:00 to 23:59. -/
def validateTime (value : String) : Bool :=
  match value.toList with
  | [h1, h2, sep, m1, m2] =>
      [h1, h2, m1, m2].all Char.isDigit && sep == ':' &&
        decide (0 ≤ ofDigits [h1, h2] ∧ ofDigits [h1, h2] ≤ 23 ∧
          0 ≤ ofDigits [m1, m2] ∧ ofDigits [m1, m2] ≤ 59)
  | _ => false

/-- The minutes since midnight. -/
def timeToMinutes (t : String) : Number :=
  if t = "" then some 0
  else do return (← (clockParts t).1) * 60 + (← (clockParts t).2)

/-- A time of the day is two numbers of two digits. -/
theorem parts_of_valid (h : validateTime t = true) :
    ∃ hs ms, t.toList = hs ++ ':' :: ms ∧ hs.length = 2 ∧ ms.length = 2 ∧ Digits hs ∧ Digits ms ∧
      ofDigits hs ≤ 23 ∧ ofDigits ms ≤ 59 ∧
      clockParts t = (some (ofDigits hs), some (ofDigits ms)) ∧
      timeToMinutes t = some (ofDigits hs * 60 + ofDigits ms) := by
  unfold validateTime at h
  split at h
  · rename_i h1 h2 sep m1 m2 hlist
    simp only [all_cons, all_nil, Bool.and_eq_true, beq_iff_eq, and_true,
      decide_eq_true_eq] at h
    obtain ⟨⟨⟨hh1, hh2, hm1, hm2⟩, rfl⟩, -, hhigh, -, hmhigh⟩ := h
    have hhours : Digits [h1, h2] := by simp [Digits, *]
    have hminutes : Digits [m1, m2] := by simp [Digits, *]
    have hparts : clockParts t = (some (ofDigits [h1, h2]), some (ofDigits [m1, m2])) := by
      unfold clockParts
      rw [hlist, show [h1, h2, ':', m1, m2] = [h1, h2] ++ ':' :: [m1, m2] from rfl,
        split_append (hhours.notMem (by decide)), split_of_notMem (hminutes.notMem (by decide))]
      simp [parseInt_digits, *]
    have hne : t ≠ "" := by
      rintro rfl
      cases hlist
    refine ⟨[h1, h2], [m1, m2], hlist, rfl, rfl, hhours, hminutes, hhigh, hmhigh, hparts, ?_⟩
    unfold timeToMinutes
    rw [if_neg hne, hparts]
    rfl
  · cases h

/-- The hours and the minutes of a time of the day. -/
theorem clockParts_of_valid (h : validateTime t = true) :
    ∃ hh mm, clockParts t = (some hh, some mm) ∧ 0 ≤ hh ∧ hh ≤ 23 ∧ 0 ≤ mm ∧ mm ≤ 59 ∧
      timeToMinutes t = some (hh * 60 + mm) := by
  obtain ⟨hs, ms, -, -, -, hhs, hms, h23, h59, hparts, hminutes⟩ := parts_of_valid h
  exact ⟨_, _, hparts, (ofDigits_bounds hhs).1, h23, (ofDigits_bounds hms).1, h59, hminutes⟩

/-- Times in the order of their texts are in the order of their minutes. -/
theorem timeToMinutes_le {s : String} {k l : ℤ} (hs : validateTime s = true)
    (ht : validateTime t = true) (hk : timeToMinutes s = some k) (hl : timeToMinutes t = some l)
    (hle : s ≤ t) : k ≤ l := by
  obtain ⟨hs1, ms1, heq1, hlen1, hmlen1, hd1, hmd1, -, h59, -, hk'⟩ := parts_of_valid hs
  obtain ⟨hs2, ms2, heq2, hlen2, hmlen2, hd2, hmd2, -, -, -, hl'⟩ := parts_of_valid ht
  obtain rfl := Option.some.inj (hk.symm.trans hk')
  obtain rfl := Option.some.inj (hl.symm.trans hl')
  have hnot : ¬ t.toList < s.toList := hle
  rw [heq1, heq2] at hnot
  have hm2 := (ofDigits_bounds hmd2).1
  rcases append_not_lt (hlen1.trans hlen2.symm) hnot with hlt | ⟨rfl, hminutes⟩
  · have := ofDigits_lt (hlen1.trans hlen2.symm) hd1 hd2 hlt
    omega
  · rw [cons_lt_cons_self] at hminutes
    rcases lt_trichotomy ms1 ms2 with hlt | rfl | hlt
    · have := ofDigits_lt (hmlen1.trans hmlen2.symm) hmd1 hmd2 hlt
      omega
    · exact le_rfl
    · exact absurd hlt hminutes

theorem ne_of_valid (h : validateTime t = true) : t ≠ "" := by
  rintro rfl
  cases h

/-! ## Times of a day in the local frame -/

/-- The local time of a day and minutes since its midnight. -/
@[grind =] def wallTime (day minutes : ℤ) : ℤ := day * msPerDay + minutes * msPerMinute

/-- Only the first ten characters of a date text are read. -/
theorem createDate_slice (host : Host) (dateStr : List Char) (hours minutes : Number) :
    createDateInLocalFrame host (slice 10 dateStr) hours minutes =
      createDateInLocalFrame host dateStr hours minutes := by
  unfold createDateInLocalFrame
  rw [slice_slice]

/-- A time of a day, on a device that keeps the day, is the instant of its local time. -/
theorem createDate_eq {hh mm : ℤ} (hday : dayOf dateStr = some n) (hkeeps : host.KeepsDay n)
    (h0 : 0 ≤ hh) (h23 : hh ≤ 23) (m0 : 0 ≤ mm) (m59 : mm ≤ 59) :
    createDateInLocalFrame host dateStr.toList (some hh) (some mm) =
      some (host.utc (wallTime n (hh * 60 + mm))) := by
  obtain ⟨hlow, hhigh⟩ := dayOf_bounds hday
  obtain ⟨-, ys, ms, ds, -, -, -, -, -, -, -, hkey, rfl⟩ := parts_of_dayOf hday
  unfold createDateInLocalFrame
  rw [hkey]
  exact Host.setHours_setFullYear hkeeps (by omega) (by omega) h0 h23 m0 m59 host.now

theorem createDate_of_valid (hday : dayOf dateStr = some n) (hkeeps : host.KeepsDay n)
    (ht : validateTime t = true) :
    ∃ k, timeToMinutes t = some k ∧ 0 ≤ k ∧ k < 1440 ∧
      createDateInLocalFrame host (slice 10 dateStr.toList) (clockParts t).1 (clockParts t).2 =
        some (host.utc (wallTime n k)) := by
  obtain ⟨hh, mm, hparts, h0, h23, m0, m59, hminutes⟩ := clockParts_of_valid ht
  refine ⟨_, hminutes, by omega, by omega, ?_⟩
  rw [createDate_slice, hparts]
  exact createDate_eq hday hkeeps h0 h23 m0 m59

/-! ## Bounds in the local frame -/

theorem ne_of_dayOf (h : dayOf dateStr = some n) : dateStr ≠ "" := by
  rintro rfl
  rw [show dayOf "" = none from by decide] at h
  cases h

/-- The bounds of a set of a day are those of the local frame. -/
theorem getSetTimeBounds_local (hday : dayOf (setDate set days) = some n)
    (hstart : set.startTime ≠ "") :
    getSetTimeBounds host set days "" =
      .ok (localBounds host (slice 10 (setDate set days).toList) set) := by
  have hkey := (parts_of_dayOf hday).1
  unfold getSetTimeBounds
  simp [ne_of_dayOf hday, hstart, hkey]

/-- A set of a day starts at the instant of its local time. -/
theorem startMs_eq {b : SetBounds} (hday : dayOf (setDate set days) = some n)
    (hkeeps : host.KeepsDay n) (ht : validateTime set.startTime = true)
    (hb : getSetTimeBounds host set days "" = .ok (some b)) :
    ∃ k, timeToMinutes set.startTime = some k ∧ 0 ≤ k ∧ k < 1440 ∧
      b.startMs = host.utc (wallTime n k) := by
  obtain ⟨k, hk, h0, h1440, hdate⟩ := createDate_of_valid hday hkeeps ht
  rw [getSetTimeBounds_local hday (ne_of_valid ht)] at hb
  unfold localBounds at hb
  simp only [hdate, Except.ok.injEq, Option.some.injEq] at hb
  exact ⟨k, hk, h0, h1440, by rw [← hb]⟩

/-- The bounds of a set on a device that keeps its days. -/
theorem getSetTimeBounds_regular (hday : dayOf (setDate set days) = some n)
    (hregular : host.Regular) (hs : validateTime set.startTime = true)
    (he : validateTime set.endTime = true) :
    ∃ ks ke, timeToMinutes set.startTime = some ks ∧ timeToMinutes set.endTime = some ke ∧
      getSetTimeBounds host set days "" = .ok (some ⟨host.utc (wallTime n ks), some (
        if host.utc (wallTime n ke) ≤ host.utc (wallTime n ks)
        then host.utc (host.localTime (host.utc (wallTime n ke)) + msPerDay)
        else host.utc (wallTime n ke))⟩) := by
  obtain ⟨ks, hks, -, -, hstart⟩ := createDate_of_valid hday (hregular.keepsDay n) hs
  obtain ⟨ke, hke, he0, he1440, hend⟩ := createDate_of_valid hday (hregular.keepsDay n) he
  refine ⟨ks, ke, hks, hke, ?_⟩
  rw [getSetTimeBounds_local hday (ne_of_valid hs)]
  unfold localBounds localEnd
  simp only [hstart, hend, if_neg (ne_of_valid he)]
  split
  · -- the next day is within a time value too
    obtain ⟨hlow, hhigh⟩ := dayOf_bounds hday
    have hsame := hregular.same_day (wallTime n ke)
    have hnear := hregular.near (host.localTime (host.utc (wallTime n ke)) + msPerDay)
    have hwall : wallTime n ke / msPerDay = n := by
      unfold wallTime msPerDay msPerMinute
      omega
    have hadd : host.addDay (some (host.utc (wallTime n ke))) =
        some (host.utc (host.localTime (host.utc (wallTime n ke)) + msPerDay)) := by
      rw [hwall] at hsame
      show timeClip _ = _
      apply timeClip_eq <;> unfold msPerDay at * <;> omega
    rw [hadd]
  · rfl

/-- The end of a set in minutes, past midnight where it is not after the start. -/
def rollover (start finish : ℤ) : ℤ := if finish ≤ start then finish + 1440 else finish

/-- Where the clock is not changed the end is pushed past midnight as on the wall clock. -/
theorem localEnd_steady {offset : ℤ} (ks : ℤ) (hday : dayOf dateStr = some n)
    (hsteady : host.SteadyOn n offset) (ht : validateTime t = true) :
    ∃ ke, timeToMinutes t = some ke ∧
      localEnd host (slice 10 dateStr.toList) t (wallTime n ks - offset) =
        some (wallTime n (rollover ks ke) - offset) := by
  obtain ⟨hlow, hhigh⟩ := dayOf_bounds hday
  have hofflow := hsteady.low
  have hoffhigh := hsteady.high
  obtain ⟨ke, hke, he0, he1440, hdate⟩ := createDate_of_valid hday hsteady.keepsDay ht
  have hstart : n * msPerDay ≤ wallTime n ke := by
    unfold wallTime msPerDay msPerMinute
    omega
  have hend : wallTime n ke < (n + 2) * msPerDay := by
    unfold wallTime msPerDay msPerMinute
    omega
  refine ⟨ke, hke, ?_⟩
  unfold localEnd
  simp only [hdate]
  rw [hsteady.utc_eq _ hstart hend]
  unfold rollover
  by_cases hle : ke ≤ ks
  · rw [if_pos hle, if_pos (by unfold wallTime msPerMinute; omega)]
    show timeClip (host.utc (host.localTime (wallTime n ke - offset) + msPerDay)) = _
    rw [hsteady.localTime_eq _ hstart hend, show wallTime n ke + msPerDay = wallTime n (ke + 1440) by
      unfold wallTime msPerDay msPerMinute; ring, hsteady.utc_eq]
    · apply timeClip_eq <;> unfold wallTime msPerDay msPerMinute at * <;> omega
    · unfold wallTime msPerDay msPerMinute
      omega
    · unfold wallTime msPerDay msPerMinute
      omega
  · rw [if_neg hle, if_neg (by unfold wallTime msPerMinute; omega)]

/-- **The bounds of a set where the clock is not changed.** -/
theorem getSetTimeBounds_steady {offset : ℤ} (hday : dayOf (setDate set days) = some n)
    (hsteady : host.SteadyOn n offset) (hs : validateTime set.startTime = true)
    (he : validateTime set.endTime = true) :
    ∃ ks ke, timeToMinutes set.startTime = some ks ∧ timeToMinutes set.endTime = some ke ∧
      getSetTimeBounds host set days "" = .ok (some ⟨wallTime n ks - offset,
        some (wallTime n (rollover ks ke) - offset)⟩) := by
  obtain ⟨ks, hks, h0, h1440, hdate⟩ := createDate_of_valid hday hsteady.keepsDay hs
  obtain ⟨ke, hke, hend⟩ := localEnd_steady ks hday hsteady he
  refine ⟨ks, ke, hks, hke, ?_⟩
  rw [getSetTimeBounds_local hday (ne_of_valid hs)]
  unfold localBounds
  simp only [hdate]
  rw [hsteady.utc_eq, if_neg (ne_of_valid he), hend]
  · unfold wallTime msPerDay msPerMinute
    omega
  · unfold wallTime msPerDay msPerMinute
    omega

end FestivalPlanner.Schedule
