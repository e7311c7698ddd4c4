import FestivalPlanner.Schedule.SetTimes
import Mathlib.Data.Rat.Floor

/-!
# The status of a set

The model of `getSetStatus` of `packages/shared/src/utils/setStatus.ts`: a set is later,
upcoming, soon, live or past, by its bounds and the minutes that are left to its start.
The minutes are rounded, so in the last half minute none is left.

* `getSetStatus` — the status, with its label, the minutes and the progress;
* `statusAt_live_iff`, `statusAt_rank` — the status by the milliseconds;
* `getSetStatus_forward_iff` — a later status is never an earlier one, but for the last half
  minute before the start.
-/

namespace FestivalPlanner.Schedule

open Js

/-! ## The function -/

/-- `'past' | 'live' | 'upcoming' | 'soon' | 'later' | 'tba'` -/
inductive SetStatus where
  | past
  | live
  | upcoming
  | soon
  | later
  | tba
  deriving DecidableEq

/-- A status with what is shown of it. -/
structure SetStatusResult where
  status : SetStatus
  label : String
  /-- `none` is infinity -/
  minutesUntil : Option ℤ
  /-- how far through the set, from 0 to 1 -/
  progress : ℚ
  deriving DecidableEq

/-- A wall-clock time for display, on the twelve-hour clock. -/
def formatTime (t : String) : String :=
  if t = "" then ""
  else
    let parts := split ':' t.toList
    let hr := parseInt (parts[0]?.getD "0".toList)
    let mm := parts[1]?.getD "00".toList
    let ap := match hr with
      | some h => if 12 ≤ h then "PM" else "AM"
      | none => "AM"
    let shown := match hr with
      | some h => if h.tmod 12 = 0 then 12 else h.tmod 12
      | none => 12
    toString shown ++ ":" ++ String.ofList mm ++ " " ++ ap

/-- `Math.round(ms / 60000)` -/
def roundMinutes (ms : ℤ) : ℤ := (ms + 30000) / 60000

/-- The label of a number of hours and minutes. -/
def hoursLabel (minutesUntil : ℤ) : String :=
  let hours := minutesUntil / 60
  let mins := minutesUntil % 60
  if 0 < mins then "In " ++ toString hours ++ "h " ++ toString mins ++ "m"
  else "In " ++ toString hours ++ "h"

/-- A set without usable times. -/
def tbaResult : SetStatusResult :=
  { status := .tba, label := "TBA", minutesUntil := none, progress := 0 }

/-- The status of a set with known bounds. -/
def statusAt (startTime : String) (b : SetBounds) (nowMs : ℤ) : SetStatusResult :=
  let msUntilStart := b.startMs - nowMs
  let minutesUntil := roundMinutes msUntilStart
  let ended := b.endMs.any (fun e => decide (e - nowMs ≤ 0))
  let running := b.endMs.any (fun e => decide (0 < e - nowMs))
  if msUntilStart ≤ 0 ∧ running then
    let duration := b.endMs.getD 0 - b.startMs
    let elapsed := nowMs - b.startMs
    { status := .live, label := "LIVE", minutesUntil := some minutesUntil,
      progress := max 0 (min 1 ((elapsed : ℚ) / duration)) }
  else if ended then
    { status := .past, label := "Ended", minutesUntil := some minutesUntil, progress := 0 }
  else if 0 < minutesUntil ∧ minutesUntil ≤ 30 then
    { status := .soon, label := "In " ++ toString minutesUntil ++ "m",
      minutesUntil := some minutesUntil, progress := 0 }
  else if 30 < minutesUntil ∧ minutesUntil ≤ 120 then
    { status := .upcoming, label := hoursLabel minutesUntil,
      minutesUntil := some minutesUntil, progress := 0 }
  else
    { status := .later, label := formatTime startTime,
      minutesUntil := some minutesUntil, progress := 0 }

/-- The status of a set at an instant. -/
def getSetStatus (host : Host) (set : FestivalSet) (nowMs : ℤ) (days : List FestivalDay)
    (timeZone : String) : Except String SetStatusResult :=
  if set.startTime = "" ∨ set.endTime = "" then .ok tbaResult
  else do
    match ← getSetTimeBounds host set days timeZone with
    | none => return tbaResult
    | some b => return statusAt set.startTime b nowMs

/-- The place of a status in the order later, upcoming, soon, live, past. -/
def SetStatus.rank : SetStatus → ℕ
  | .later => 0
  | .upcoming => 1
  | .soon => 2
  | .live => 3
  | .past => 4
  | .tba => 5

/-! ## The status by the milliseconds -/

variable {host : Host} {set : FestivalSet} {days : List FestivalDay} {timeZone : String}
  {b : SetBounds} {t : ℤ}

/-- A set with an end time and bounds has the status of its bounds. -/
theorem getSetStatus_of_bounds (hend : set.endTime ≠ "")
    (hb : getSetTimeBounds host set days timeZone = .ok (some b)) (t : ℤ) :
    getSetStatus host set t days timeZone = .ok (statusAt set.startTime b t) := by
  have hstart := startTime_of_bounds hb
  unfold getSetStatus
  rw [if_neg (by simp [hstart, hend]), hb]
  rfl

/-- A status that is not `tba` is that of the bounds. -/
theorem bounds_of_getSetStatus {r : SetStatusResult}
    (h : getSetStatus host set t days timeZone = .ok r) (hr : r.status ≠ .tba) :
    set.endTime ≠ "" ∧ ∃ b, getSetTimeBounds host set days timeZone = .ok (some b) ∧
      r = statusAt set.startTime b t := by
  unfold getSetStatus at h
  split at h
  · cases h
    exact absurd rfl hr
  · rename_i htimes
    refine ⟨fun he => htimes (.inr he), ?_⟩
    cases hb : getSetTimeBounds host set days timeZone with
    | error e =>
      rw [hb] at h
      cases h
    | ok found =>
      rw [hb] at h
      cases found with
      | none =>
        cases h
        exact absurd rfl hr
      | some b =>
        cases h
        exact ⟨b, rfl, rfl⟩

/-- A set is live from its start to its end. -/
theorem statusAt_live_iff {startTime : String} :
    (statusAt startTime b t).status = .live ↔ b.startMs ≤ t ∧ ∃ e, b.endMs = some e ∧ t < e := by
  unfold statusAt
  cases hb : b.endMs with
  | none =>
    simp only [Option.any_none]
    split_ifs <;> simp_all
  | some e =>
    simp only [Option.any_some, decide_eq_true_eq]
    split_ifs <;> simp <;> omega

/-- The rank of a status by the milliseconds to the start. -/
theorem statusAt_rank (startTime : String) (s e t : ℤ) :
    (statusAt startTime ⟨s, some e⟩ t).status.rank =
      if e ≤ t then 4
      else if s ≤ t then 3
      else if 30000 ≤ s - t ∧ s - t < 1830000 then 2
      else if 1830000 ≤ s - t ∧ s - t < 7230000 then 1
      else 0 := by
  unfold statusAt roundMinutes
  simp only [Option.any_some, decide_eq_true_eq]
  split_ifs <;> simp only [SetStatus.rank] <;> omega

/-! ## Forward only -/

/-- **The status only moves forward, but for the last half minute.**  Between two instants
the status steps back exactly when the second is in the last half minute before the start,
where no rounded minute is left, and the first was in the two hours before it. -/
theorem getSetStatus_forward_iff {host host' : Host} {set : FestivalSet}
    {days : List FestivalDay} {timeZone : String} {s e t1 t2 : ℤ} (hend : set.endTime ≠ "")
    (hb : getSetTimeBounds host set days timeZone = .ok (some ⟨s, some e⟩))
    (hb' : getSetTimeBounds host' set days timeZone = .ok (some ⟨s, some e⟩)) (hle : t1 ≤ t2) :
    (∃ r1 r2, getSetStatus host set t1 days timeZone = .ok r1 ∧
        getSetStatus host' set t2 days timeZone = .ok r2 ∧
        r1.status.rank ≤ r2.status.rank) ↔
      ¬ (t2 < e ∧ (0 < s - t2 ∧ s - t2 < 30000) ∧ 30000 ≤ s - t1 ∧ s - t1 < 7230000) := by
  have h1 := getSetStatus_of_bounds hend hb t1
  have h2 := getSetStatus_of_bounds hend hb' t2
  have hranks : (∃ r1 r2, getSetStatus host set t1 days timeZone = .ok r1 ∧
        getSetStatus host' set t2 days timeZone = .ok r2 ∧
        r1.status.rank ≤ r2.status.rank) ↔
      (statusAt set.startTime ⟨s, some e⟩ t1).status.rank ≤
        (statusAt set.startTime ⟨s, some e⟩ t2).status.rank := by
    constructor
    · rintro ⟨r1, r2, hr1, hr2, hrank⟩
      rw [h1] at hr1
      rw [h2] at hr2
      cases hr1
      cases hr2
      exact hrank
    · intro hrank
      exact ⟨_, _, h1, h2, hrank⟩
  rw [hranks, statusAt_rank, statusAt_rank]
  split_ifs <;> omega

/-- A device in UTC. -/
def utcHost (now : ℤ) : Host :=
  { now := now
    localTime := fun t => t
    utc := fun t => t
    formatToParts := fun _ _ => .error "RangeError: Invalid time zone specified"
    parse := fun _ => none }

/-- A set from 20:00 to 21:00 on 4 September 2026. -/
def eveningSet : FestivalSet :=
  { id := "s1", date := "2026-09-04", startTime := "20:00", endTime := "21:00" }

theorem eveningSet_forward :
    ∃ r1 r2, getSetStatus (utcHost 0) eveningSet 1788551940000 [] "" = .ok r1 ∧
      getSetStatus (utcHost 0) eveningSet 1788552000000 [] "" = .ok r2 ∧
      r1.status.rank ≤ r2.status.rank :=
  (getSetStatus_forward_iff (s := 1788552000000) (e := 1788555600000) (by decide)
    (by decide) (by decide) (by decide)).mpr (by decide)

/-- A minute before its start the set is soon, and twenty seconds before it is later. -/
theorem eveningSet_steps_back :
    (getSetStatus (utcHost 0) eveningSet 1788551940000 [] "").map (·.status) = .ok .soon ∧
    (getSetStatus (utcHost 0) eveningSet 1788551980000 [] "").map (·.status) = .ok .later ∧
    SetStatus.later.rank < SetStatus.soon.rank := by
  decide

end FestivalPlanner.Schedule
