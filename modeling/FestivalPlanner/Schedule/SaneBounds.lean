import FestivalPlanner.Schedule.ZonedTimes

/-!
# When the bounds of a set are sane

`getSetTimeBounds` of `packages/shared/src/utils/setStatus.ts` compares instants, and not the
wall-clock times, to find out whether a set runs past midnight.

* `Frame` — a day, the offset that is in force at a local time, and the same time a day later;
* `frameOf` — the frame of the device, or that of the zone of the festival;
* `getSetTimeBounds_eq` — the bounds are those of the frame;
* `Sane` — an end after the start, by a day at most, and on the next day for a time alone that is
  not after the start;
* `FitsClock` — the length of the set on the wall clock against the change of the clock;
* `getSetTimeBounds_sane_iff` — the bounds are sane exactly when the set fits the clock.
-/

namespace FestivalPlanner.Schedule

open Js Calendar Option
open Zones (Zone)

/-! ## Frames -/

/-- The minutes of a wall-clock time. -/
def wallMinutes (time : String) : Number := do
  return (← (clockParts time).1) * 60 + (← (clockParts time).2)

/-- What the wall-clock times of a day are read in. -/
structure Frame where
  day : ℤ
  /-- the offset in force at a local time; `none` beyond the time values -/
  offset : ℤ → Number
  /-- the local time that a time of the day has on the next day -/
  next : ℤ → Option ℤ

namespace Frame

variable (frame : Frame)

/-- The instant of a local time. -/
@[grind =] def instant (wall : ℤ) : Number := do return wall - (← frame.offset wall)

/-- The instant of a wall-clock time on the day of the frame. -/
@[grind =] def instantOf (time : String) : Number := do
  frame.instant (wallTime frame.day (← wallMinutes time))

/-- The end at a local time of a set that starts at an instant: on the day of the set, or on the
next day where that is not after the start. -/
def finish (startMs wall : ℤ) : Number :=
  match frame.instant wall with
  | none => none
  | some endMs => if endMs ≤ startMs then (frame.next wall).bind frame.instant else some endMs

end Frame

/-- The local frame of the device. -/
def localFrame (host : Host) (dayKey : List Char) : Option Frame := do
  let (y, m, d) := keyParts (slice 10 dayKey)
  let date ← host.setFullYear host.now y m d
  return {
    day := host.localTime date / msPerDay
    offset := fun wall => do return wall - (← timeClip (host.utc wall))
    next := fun wall => some (host.localTime (host.utc wall) + msPerDay) }

/-- The day that `Date.UTC` makes of a day key. -/
def dayNumber (dayKey : List Char) : Option ℤ :=
  match keyParts (slice 10 dayKey) with
  | (some y, some m, some d) => some (utcDay y m d)
  | _ => none

/-- The frame of a zone. -/
def zoneFrame (host : Host) (dayKey : List Char) (timeZone : String) : Option Frame := do
  let day ← dayNumber dayKey
  return {
    day := day
    offset := fun wall => (offsetInForce host timeZone (timeClip wall)).toOption.join
    next := fun wall => do
      return wall + ((← dayNumber (addDaysToDateKey dayKey 1)) - day) * msPerDay }

/-- The frame that the times of a set are read in. -/
def frameOf (host : Host) (dayKey : List Char) (timeZone : String) : Option Frame :=
  if timeZone = "" then localFrame host dayKey else zoneFrame host dayKey timeZone

/-- The instant of a wall-clock time of a day, in the local frame or in a zone. -/
def wallInstant (host : Host) (dayKey : List Char) (timeZone time : String) :
    Except String Number :=
  if timeZone = "" then
    .ok (createDateInLocalFrame host dayKey (clockParts time).1 (clockParts time).2)
  else zonedWallTimeToMs host dayKey (clockParts time).1 (clockParts time).2 timeZone

/-! ## The bounds are those of the frame -/

variable {host : Host} {dayKey : List Char} {timeZone : String}

theorem localFrame_spec {frame : Frame} (h : localFrame host dayKey = some frame) (wall : ℤ) :
    frame.instant wall = timeClip (host.utc wall) ∧
      frame.next wall = some (host.localTime (host.utc wall) + msPerDay) := by
  obtain ⟨date, -, hframe⟩ := bind_eq_some_iff.mp h
  obtain rfl := some.inj hframe
  refine ⟨?_, rfl⟩
  unfold Frame.instant
  simp only [bind, Option.bind, pure]
  cases timeClip (host.utc wall) <;> simp

theorem createDateInLocalFrame_eq (host : Host) (dayKey : List Char) (time : String) :
    createDateInLocalFrame host dayKey (clockParts time).1 (clockParts time).2 =
      (localFrame host dayKey).bind (Frame.instantOf · time) := by
  unfold createDateInLocalFrame localFrame
  generalize keyParts (slice 10 dayKey) = parts
  obtain ⟨y, m, d⟩ := parts
  cases hdate : host.setFullYear host.now y m d with
  | none => simp [hdate, Host.setHours]
  | some date =>
    unfold Frame.instantOf Frame.instant wallMinutes Host.setHours wallTime
    cases (clockParts time).1 with
    | none => simp [hdate]
    | some hh =>
      cases (clockParts time).2 with
      | none => simp [hdate]
      | some mm =>
        have hwall : host.localTime date / msPerDay * msPerDay + hh * msPerHour + mm * msPerMinute =
            host.localTime date / msPerDay * msPerDay + (hh * 60 + mm) * msPerMinute := by
          unfold msPerHour msPerMinute
          ring
        simp only [hdate, hwall, bind, Option.bind, pure]
        cases timeClip (host.utc _) <;> simp

variable {offset r : Number} {endTime : String} {startMs : ℤ}

theorem zoneOffsetMsAt_none (h : zoneOffsetMsAt host none timeZone = .ok offset) :
    offset = none := by
  obtain ⟨p, -, hp⟩ := Table.bind_eq_ok.mp h
  rw [← Except.ok.inj hp]
  cases dateUTC p.year p.month p.day p.hour p.minute p.second <;> rfl

/-- No offset is in force at what is no time value. -/
theorem offsetInForce_none (h : offsetInForce host timeZone none = .ok offset) : offset = none := by
  obtain ⟨offset1, -, h⟩ := Table.bind_eq_ok.mp h
  exact zoneOffsetMsAt_none h

theorem zonedWallTimeToMs_eq_instant {time : String}
    (h : zonedWallTimeToMs host dayKey (clockParts time).1 (clockParts time).2
      timeZone = .ok r) : r = (zoneFrame host dayKey timeZone).bind (Frame.instantOf · time) := by
  unfold zoneFrame dayNumber Frame.instantOf Frame.instant wallMinutes
  split
  · next y m d hparts =>
    cases hhours : (clockParts time).1 with
    | none =>
      obtain ⟨offset, -, rfl⟩ := (zonedWallTimeToMs_eq_ok hparts rfl).mp h
      simp [hhours]
    | some hh =>
      cases hminutes : (clockParts time).2 with
      | none =>
        obtain ⟨offset, -, rfl⟩ := (zonedWallTimeToMs_eq_ok hparts rfl).mp h
        simp [hhours, hminutes]
      | some mm =>
        rw [hhours, hminutes] at h
        obtain ⟨offset, hoffset, rfl⟩ := (zonedWallTimeToMs_eq_ok hparts
          (dateUTC_eq y m d hh mm)).mp h
        simp only [bind, Option.bind, pure, hoffset, Except.toOption]
        cases hclip : timeClip (wallTime (utcDay y m d) (hh * 60 + mm)) with
        | none =>
          rw [hclip] at hoffset
          rw [offsetInForce_none hoffset]
          rfl
        | some naive =>
          obtain rfl := eq_of_timeClip hclip
          cases offset <;> rfl
  · next hparts =>
    unfold zonedWallTimeToMs at h
    split at h
    · next y m d heq => exact absurd heq (hparts y m d)
    · exact (Except.ok.inj h).symm

/-- The end is that of the frame, once its own day is. -/
theorem localEnd_eq {frame : Frame} (hframe : localFrame host dayKey = some frame) (startMs : ℤ) :
    localEnd host dayKey endTime startMs =
      (wallMinutes endTime).bind fun minutes =>
        frame.finish startMs (wallTime frame.day minutes) := by
  have hown := createDateInLocalFrame_eq host dayKey endTime
  rw [hframe, bind_some] at hown
  unfold localEnd Frame.finish
  simp only [hown]
  unfold Frame.instantOf
  cases wallMinutes endTime with
  | none => rfl
  | some minutes =>
    simp only [bind, bind_some]
    cases hend : frame.instant (wallTime frame.day minutes) with
    | none => rfl
    | some endMs =>
      rw [(localFrame_spec hframe _).1] at hend
      simp only [(localFrame_spec hframe _).2, bind_some, (localFrame_spec hframe _).1]
      rw [← eq_of_timeClip hend]
      rfl

/-- A time on the next day is a time of the frame of the next day. -/
theorem instantOf_next {frame : Frame} (hframe : zoneFrame host dayKey timeZone = some frame)
    (time : String) :
    (zoneFrame host (addDaysToDateKey dayKey 1) timeZone).bind (Frame.instantOf · time) =
      (wallMinutes time).bind fun minutes =>
        (frame.next (wallTime frame.day minutes)).bind frame.instant := by
  obtain ⟨day, -, hday⟩ := bind_eq_some_iff.mp hframe
  obtain rfl := some.inj hday
  unfold zoneFrame
  cases hnext : dayNumber (addDaysToDateKey dayKey 1) with
  | none => cases wallMinutes time <;> rfl
  | some n =>
    cases hminutes : wallMinutes time with
    | none => simp [Frame.instantOf, hminutes]
    | some minutes =>
      have hwall : wallTime n minutes = wallTime day minutes + (n - day) * msPerDay := by
        unfold wallTime
        ring
      simp [Frame.instantOf, Frame.instant, hminutes, hwall]

theorem zonedEnd_eq {frame : Frame} (hframe : zoneFrame host dayKey timeZone = some frame)
    (h : zonedEnd host dayKey endTime timeZone startMs = .ok r) :
    r = ((wallMinutes endTime).bind fun minutes =>
        frame.finish startMs (wallTime frame.day minutes)) ∧
      zonedWallTimeToMs host dayKey (clockParts endTime).1 (clockParts endTime).2 timeZone =
        .ok (frame.instantOf endTime) := by
  obtain ⟨own, hown, h⟩ := Table.bind_eq_ok.mp h
  change zonedWallTimeToMs host dayKey (clockParts endTime).1 (clockParts endTime).2 timeZone = _
    at hown
  have hinstant := zonedWallTimeToMs_eq_instant hown
  rw [hframe, bind_some] at hinstant
  rw [hown, hinstant]
  refine ⟨?_, rfl⟩
  rw [hinstant] at h
  unfold Frame.finish
  cases hminutes : wallMinutes endTime with
  | none =>
    simp only [Frame.instantOf, hminutes, bind, bind_none] at h
    exact (Except.ok.inj h).symm
  | some minutes =>
    simp only [Frame.instantOf, hminutes, bind, bind_some] at h ⊢
    cases hend : frame.instant (wallTime frame.day minutes) with
    | none =>
      rw [hend] at h
      exact (Except.ok.inj h).symm
    | some endMs =>
      simp only [hend] at h ⊢
      split at h
      · next hle =>
        have hlater := instantOf_next hframe endTime
        rw [hminutes, bind_some] at hlater
        rw [if_pos hle, ← hlater]
        exact zonedWallTimeToMs_eq_instant h
      · next hle =>
        rw [if_neg hle]
        exact (Except.ok.inj h).symm

/-- What the bounds of a set are, by the frame they are read in. -/
theorem getSetTimeBounds_eq {set : FestivalSet} {days : List FestivalDay} {b : SetBounds}
    (h : getSetTimeBounds host set days timeZone = .ok (some b)) :
    ∃ frame ∈ frameOf host (slice 10 (setDate set days).toList) timeZone,
      frame.instantOf set.startTime = some b.startMs ∧
      (set.endTime = "" → b.endMs = some (assumedEnd b.startMs)) ∧
      (set.endTime ≠ "" → b.endMs = (wallMinutes set.endTime).bind fun minutes =>
        frame.finish b.startMs (wallTime frame.day minutes)) ∧
      (set.endTime ≠ "" → wallInstant host (slice 10 (setDate set days).toList) timeZone
        set.endTime = .ok (frame.instantOf set.endTime)) := by
  unfold getSetTimeBounds at h
  simp only at h
  generalize slice 10 (setDate set days).toList = dayKey at h ⊢
  split at h
  · cases h
  split at h
  · cases h
  split at h
  · next hlocal =>
    unfold frameOf wallInstant
    rw [if_pos hlocal]
    have hstart := createDateInLocalFrame_eq host dayKey set.startTime
    have hend := createDateInLocalFrame_eq host dayKey set.endTime
    unfold localBounds at h
    simp only [hstart, Except.ok.injEq] at h
    cases hframe : localFrame host dayKey with
    | none =>
      rw [hframe] at h
      cases h
    | some frame =>
      rw [hframe, bind_some] at h hend
      cases hinstant : frame.instantOf set.startTime with
      | none =>
        rw [hinstant] at h
        cases h
      | some startMs =>
        rw [hinstant] at h
        obtain rfl := some.inj h
        refine ⟨frame, rfl, hinstant, fun hempty => if_pos hempty, fun hne => ?_, fun _ => ?_⟩
        · exact (if_neg hne).trans (localEnd_eq hframe startMs)
        · rw [if_pos hlocal, hend]
  · next hzone =>
    unfold frameOf wallInstant
    rw [if_neg hzone]
    obtain ⟨start, hstart, h⟩ := Table.bind_eq_ok.mp h
    have hinstant := zonedWallTimeToMs_eq_instant hstart
    cases start with
    | none => cases h
    | some startMs =>
      obtain ⟨frame, hframe, hinstant⟩ := bind_eq_some_iff.mp hinstant.symm
      simp only at h
      split at h
      · next hempty =>
        obtain rfl := some.inj (Except.ok.inj h)
        exact ⟨frame, hframe, hinstant, fun _ => rfl, absurd hempty, absurd hempty⟩
      · next hne =>
        obtain ⟨endMs, hend, h⟩ := Table.bind_eq_ok.mp h
        obtain rfl := some.inj (Except.ok.inj h)
        obtain ⟨hfinish, hown⟩ := zonedEnd_eq hframe hend
        rw [if_neg hzone]
        exact ⟨frame, hframe, hinstant, fun hempty => absurd hempty hne, fun _ => hfinish,
          fun _ => hown⟩

/-! ## Sane bounds -/

/-- The end comes after the start, by a day at most; it is an end on the day of the set where the
wall-clock end is after the wall-clock start. -/
def Sane (host : Host) (dayKey : List Char) (timeZone : String) (set : FestivalSet)
    (b : SetBounds) : Prop :=
  ∃ endMs, b.endMs = some endMs ∧ b.startMs < endMs ∧ endMs ≤ b.startMs + 24 * msPerHour ∧
    ∀ start ∈ wallMinutes set.startTime, ∀ finish ∈ wallMinutes set.endTime, start < finish →
      wallInstant host dayKey timeZone set.endTime = .ok (some endMs)

/-- The length of a set on the wall clock against the change of the clock: an end that the clock is
not put forward to is at most a day after the start, and one that it is put forward to is no end on
the same day, and is at most a day after the start on the next. -/
def Frame.Fits (frame : Frame) (start finish : ℤ) : Prop :=
  ∃ s ∈ frame.offset start, ∃ f ∈ frame.offset finish,
    if finish - start ≤ f - s then
      finish ≤ start ∧ ∃ later ∈ frame.next finish, ∃ l ∈ frame.offset later,
        l - s < later - start ∧ later - start ≤ 24 * msPerHour + (l - s)
    else finish - start ≤ 24 * msPerHour + (f - s)

theorem Frame.instant_eq_some {frame : Frame} {wall t : ℤ} :
    frame.instant wall = some t ↔
      ∃ offset, frame.offset wall = some offset ∧ t = wall - offset := by
  unfold Frame.instant
  cases frame.offset wall with
  | none => simp
  | some offset => simp [eq_comm]

/-- A set fits the clock when the end that the frame gives it is sane. -/
theorem Frame.fits_iff {frame : Frame} {start finish : ℤ}
    (hstart : frame.instant start = some startMs) :
    frame.Fits start finish ↔ ∃ endMs, frame.finish startMs finish = some endMs ∧
      startMs < endMs ∧ endMs ≤ startMs + 24 * msPerHour ∧
      (start < finish → frame.instant finish = some endMs) := by
  obtain ⟨s, hs, rfl⟩ := Frame.instant_eq_some.mp hstart
  unfold Frame.Fits Frame.finish
  cases hf : frame.offset finish with
  | none => simp [Frame.instant, hf]
  | some f =>
    have hown : frame.instant finish = some (finish - f) := Frame.instant_eq_some.mpr ⟨f, hf, rfl⟩
    simp only [hs, hown, mem_def, some.injEq, exists_eq_left']
    by_cases hbefore : finish - start ≤ f - s
    · rw [if_pos hbefore, if_pos (show finish - f ≤ start - s by omega)]
      constructor
      · rintro ⟨hle, later, hlater, l, hl, hlow, hhigh⟩
        refine ⟨later - l, ?_, by omega, by omega, fun hlt => absurd hlt (by omega)⟩
        rw [hlater, bind_some]
        exact Frame.instant_eq_some.mpr ⟨l, hl, rfl⟩
      · rintro ⟨endMs, hend, hlow, hhigh, hsame⟩
        obtain ⟨later, hlater, hinstant⟩ := bind_eq_some_iff.mp hend
        obtain ⟨l, hl, rfl⟩ := Frame.instant_eq_some.mp hinstant
        refine ⟨?_, later, hlater, l, hl, by omega, by omega⟩
        by_contra hlt
        have := hsame (by omega)
        omega
    · rw [if_neg hbefore, if_neg (show ¬finish - f ≤ start - s by omega)]
      constructor
      · intro hle
        exact ⟨finish - f, rfl, by omega, by omega, fun _ => rfl⟩
      · rintro ⟨endMs, hend, -, hhigh, -⟩
        have := some.inj hend
        omega

/-- The set has no end, or one that fits the clock. -/
def FitsClock (host : Host) (dayKey : List Char) (timeZone : String) (set : FestivalSet) : Prop :=
  set.endTime = "" ∨ ∃ frame ∈ frameOf host dayKey timeZone,
    ∃ start ∈ wallMinutes set.startTime, ∃ finish ∈ wallMinutes set.endTime,
      frame.Fits (wallTime frame.day start) (wallTime frame.day finish)

theorem wallTime_lt_iff (day start finish : ℤ) :
    wallTime day start < wallTime day finish ↔ start < finish := by
  unfold wallTime msPerMinute
  omega

/-- **The bounds of a set are sane exactly when its length fits the clock.** -/
theorem getSetTimeBounds_sane_iff {host : Host} {set : FestivalSet} {days : List FestivalDay}
    {timeZone : String} {b : SetBounds}
    (h : getSetTimeBounds host set days timeZone = .ok (some b)) :
    Sane host (slice 10 (setDate set days).toList) timeZone set b ↔
      FitsClock host (slice 10 (setDate set days).toList) timeZone set := by
  obtain ⟨frame, hframe, hstart, hnone, hsome, hown⟩ := getSetTimeBounds_eq h
  unfold Sane FitsClock
  by_cases hempty : set.endTime = ""
  · refine iff_of_true ⟨_, hnone hempty, ?_, ?_, ?_⟩ (Or.inl hempty)
    · unfold assumedEnd
      omega
    · unfold assumedEnd msPerHour
      omega
    · rw [hempty, show wallMinutes "" = none by decide]
      rintro _ _ _ ⟨⟩
  · rw [hown hempty, hsome hempty]
    obtain ⟨start, hminutes, hinstant⟩ := Option.bind_eq_some_iff.mp hstart
    rw [Option.mem_def] at hframe
    simp only [hempty, false_or, hframe, hminutes, Option.mem_def, Option.some.injEq,
      exists_eq_left', forall_eq', Except.ok.injEq, Frame.instantOf]
    cases wallMinutes set.endTime with
    | none => simp
    | some finish =>
      simp only [Option.bind_some, Option.some.injEq, exists_eq_left', forall_eq',
        Frame.fits_iff hinstant, wallTime_lt_iff, bind]

/-- A set over midnight and over the hour that is left out. -/
def nightSet : FestivalSet :=
  { id := "night", date := "2026-03-07", startTime := "23:30", endTime := "03:30" }

theorem nightSet_sane : Sane (deviceIn newYork) (slice 10 (setDate nightSet []).toList)
    "America/New_York" nightSet ⟨1772944200000, some 1772955000000⟩ :=
  (getSetTimeBounds_sane_iff (by decide)).mpr (Or.inr
    ⟨_, rfl, 1410, by decide, 210, by decide, -18000000, by decide, -18000000,
      by decide, by decide⟩)

/-- A set that ends in the hour that is left out. -/
def gapSet : FestivalSet :=
  { id := "gap", date := "2026-03-08", startTime := "01:30", endTime := "02:15" }

/-- It is taken to end on the next day, although its end comes after its start. -/
theorem gapSet_not_sane : getSetTimeBounds (deviceIn newYork) gapSet [] "America/New_York" =
      .ok (some ⟨1772951400000, some 1773036900000⟩) ∧
    ¬Sane (deviceIn newYork) (slice 10 (setDate gapSet []).toList) "America/New_York" gapSet
      ⟨1772951400000, some 1773036900000⟩ := by
  refine ⟨by decide, ?_⟩
  rintro ⟨endMs, hend, -, -, hsame⟩
  have hown := hsame 90 (by decide) 135 (by decide) (by decide)
  rw [← Option.some.inj hend] at hown
  revert hown
  decide

end FestivalPlanner.Schedule
