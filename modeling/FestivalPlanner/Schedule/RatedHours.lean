import FestivalPlanner.Schedule.SaneBounds
import FestivalPlanner.Schedule.SetStatus
import FestivalPlanner.Lib.Groups

/-!
# The hours of the rated sets

`getWrapStats` and `getLifetimeStats` of `lib/db/stores/ratings.ts` against the bounds that the rest
of the program gives a set.

* `Rated`, `getWrapStats`, `getLifetimeStats` — the rows of a user, and the sums over them;
* `durationHours` — the length of a set by `getSetTimeBounds`;
* `Frame.onClock_iff` — when the end of a set is what the wall clock says;
* `agrees_iff` — **when the hours of one set are its length**;
* `lifetime_eq_sum` — the hours of a lifetime are the sum of those of the festivals;
* `hours_addUp_iff` — **the hours of all collections of sets of a kind add up exactly when every
  set of the kind agrees**.

Hours are rational numbers; the last digits that `numeric` and `float` leave out are kept.
-/

namespace FestivalPlanner.Schedule

open List Option

/-! ## Ends on the wall clock -/

/-- The end is as much later than the start as the wall clock says: the clock is not changed
between them, or it is put forward by all that the end is pushed on. -/
def Frame.OnClock (frame : Frame) (start finish : ℤ) : Prop :=
  ∃ s ∈ frame.offset start, ∃ f ∈ frame.offset finish,
    start < finish ∧ f = s ∨
      start ≤ finish ∧ finish - start ≤ f - s ∧
        ∃ later ∈ frame.next finish, ∃ l ∈ frame.offset later, l - s = later - finish

theorem Frame.onClock_iff {frame : Frame} {start finish startMs : ℤ}
    (hstart : frame.instant start = some startMs) :
    frame.OnClock start finish ↔
      start ≤ finish ∧ frame.finish startMs finish = some (startMs + (finish - start)) := by
  obtain ⟨s, hs, rfl⟩ := Frame.instant_eq_some.mp hstart
  unfold Frame.OnClock Frame.finish
  cases hf : frame.offset finish with
  | none => simp [Frame.instant, hf]
  | some f =>
    have hown : frame.instant finish = some (finish - f) := Frame.instant_eq_some.mpr ⟨f, hf, rfl⟩
    simp only [hs, hown, mem_def, some.injEq, exists_eq_left']
    by_cases hbefore : finish - f ≤ start - s
    · rw [if_pos hbefore]
      constructor
      · rintro (⟨hlt, heq⟩ | ⟨hle, -, later, hlater, l, hl, hforward⟩)
        · omega
        · refine ⟨hle, ?_⟩
          rw [hlater, bind_some]
          exact Frame.instant_eq_some.mpr ⟨l, hl, by omega⟩
      · rintro ⟨hle, hend⟩
        obtain ⟨later, hlater, hinstant⟩ := bind_eq_some_iff.mp hend
        obtain ⟨l, hl, heq⟩ := Frame.instant_eq_some.mp hinstant
        exact .inr ⟨hle, by omega, later, hlater, l, hl, by omega⟩
    · rw [if_neg hbefore, some.injEq]
      constructor
      · rintro (⟨hlt, heq⟩ | ⟨-, hle, -⟩) <;> omega
      · rintro ⟨hle, hend⟩
        exact .inl (by omega)

end FestivalPlanner.Schedule

namespace FestivalPlanner.RatedHours

open Js Schedule

/-! ## The rows -/

/-- A time of the day, as the columns have it: the route stores `null` for any other text. -/
structure TimeOfDay where
  text : String
  valid : validateTime text = true

/-- A row of `festival_sets`. -/
structure SetRow where
  id : String
  dayIndex : Option ℤ
  startTime : Option TimeOfDay
  endTime : Option TimeOfDay

/-- A row of `festivals`, with its `festival_days`. -/
structure Festival where
  id : String
  deleted : Bool
  days : List FestivalDay

/-- A row of `set_ratings r JOIN festival_sets s ... JOIN festivals f` of one user. -/
structure Rated where
  set : SetRow
  festival : Festival

/-! ## The sums -/

/-- The minutes since midnight. -/
def TimeOfDay.minutes (t : TimeOfDay) : ℤ := (timeToMinutes t.text).getD 0

/-- `EXTRACT(EPOCH FROM t::time)` -/
def TimeOfDay.seconds (t : TimeOfDay) : ℤ := t.minutes * 60

/-- The `CASE` of the sums: the difference of two times of the day may be negative. -/
@[grind =] def hoursOf (r : Rated) : ℚ :=
  match r.set.startTime, r.set.endTime with
  | some startTime, some endTime => ((endTime.seconds - startTime.seconds : ℤ) : ℚ) / 3600
  | _, _ => 0

/-- `SUM(...)`, which is `null` over no rows. -/
def sumHours : List Rated → Option ℚ
  | [] => none
  | r :: rows => some ((r :: rows).map hoursOf).sum

structure WrapStats where
  totalRated : ℕ
  totalHours : Option ℚ

def getWrapStats (rated : List Rated) (festivalId : String) : WrapStats :=
  let rows := rated.filter fun r => r.festival.id = festivalId
  { totalRated := rows.length, totalHours := sumHours rows }

structure FestivalStats extends WrapStats where
  festivalId : String

structure Totals where
  totalRated : ℕ
  totalHours : ℚ

structure LifetimeStats where
  totals : Totals
  byFestival : List FestivalStats

/-- `f.deleted_at IS NULL` -/
def live (rated : List Rated) : List Rated := rated.filter fun r => !r.festival.deleted

/-- The slices of the answer that count and add up; the festivals come in the order of the rows. -/
def getLifetimeStats (rated : List Rated) : LifetimeStats :=
  { totals :=
      { totalRated := (live rated).length
        totalHours := (sumHours (live rated)).getD 0 }
    byFestival := (Groups.collect (fun r : Rated => r.festival.id) id (live rated)).map fun g =>
      { festivalId := g.1, totalRated := g.2.length, totalHours := sumHours g.2 } }

theorem sumHours_getD (rows : List Rated) : (sumHours rows).getD 0 = (rows.map hoursOf).sum := by
  cases rows <;> rfl

/-- **The hours of a lifetime are the sum of the hours of its festivals.** -/
theorem lifetime_eq_sum (rated : List Rated) :
    (getLifetimeStats rated).totals.totalHours =
      ((getLifetimeStats rated).byFestival.map fun g => g.totalHours.getD 0).sum := by
  simp only [getLifetimeStats, List.map_map, sumHours_getD]
  rw [show ((fun g : FestivalStats => g.totalHours.getD 0) ∘ fun g : String × List Rated =>
      ({ festivalId := g.1, totalRated := g.2.length, totalHours := sumHours g.2 } :
        FestivalStats)) = fun g => (g.2.map hoursOf).sum from funext fun g => sumHours_getD g.2]
  exact Groups.sum_collect hoursOf (live rated)

/-! ## The length of a set -/

/-- The set as the clients have it. -/
def SetRow.toFestivalSet (s : SetRow) : FestivalSet :=
  { id := s.id
    dayIndex := s.dayIndex
    startTime := s.startTime.elim "" TimeOfDay.text
    endTime := s.endTime.elim "" TimeOfDay.text }

variable {r : Rated} {m : ℤ} {rows : List Rated} {total : ℚ}

section
variable (host : Host) (timeZone : String)

def boundsOf (r : Rated) : Except String (Option SetBounds) :=
  getSetTimeBounds host r.set.toFestivalSet r.festival.days timeZone

/-- The length of a set in hours, 0 for one without bounds. -/
def durationHours (r : Rated) : Option ℚ :=
  match boundsOf host timeZone r with
  | .error _ => none
  | .ok none => some 0
  | .ok (some b) => b.endMs.map fun endMs => ((endMs - b.startMs : ℤ) : ℚ) / 3600000

/-- The hours of the set are its length, at least none and at most a day. -/
def Agrees (r : Rated) : Prop :=
  durationHours host timeZone r = some (hoursOf r) ∧ 0 ≤ hoursOf r ∧ hoursOf r ≤ 24

/-- The first ten characters of the date of the set. -/
def dayKey (r : Rated) : List Char :=
  slice 10 (setDate r.set.toFestivalSet r.festival.days).toList

/-- The set has no hours by either rule, or a start and an end that are on the clock. -/
def Fits (r : Rated) : Prop :=
  match boundsOf host timeZone r with
  | .error _ => False
  | .ok none => ∀ startTime ∈ r.set.startTime, ∀ endTime ∈ r.set.endTime,
      startTime.minutes = endTime.minutes
  | .ok (some _) => ∃ startTime ∈ r.set.startTime, ∃ endTime ∈ r.set.endTime,
      ∃ frame ∈ frameOf host (dayKey r) timeZone,
        frame.OnClock (wallTime frame.day startTime.minutes) (wallTime frame.day endTime.minutes)

variable {host timeZone}

theorem TimeOfDay.minutes_spec (t : TimeOfDay) :
    wallMinutes t.text = some t.minutes ∧ 0 ≤ t.minutes ∧ t.minutes < 1440 := by
  obtain ⟨hh, mm, hparts, h0, h23, m0, m59, hminutes⟩ := clockParts_of_valid t.valid
  have heq : t.minutes = hh * 60 + mm := by rw [TimeOfDay.minutes, hminutes, Option.getD_some]
  refine ⟨?_, by omega, by omega⟩
  rw [wallMinutes, hparts, heq]
  rfl

theorem hoursOf_eq {s e : TimeOfDay} (hs : r.set.startTime = some s) (he : r.set.endTime = some e) :
    hoursOf r = ((e.minutes - s.minutes : ℤ) : ℚ) / 60 := by
  simp only [hoursOf, hs, he, TimeOfDay.seconds]
  push_cast
  ring

theorem hoursOf_le (r : Rated) : hoursOf r ≤ 24 := by
  unfold hoursOf
  split
  · rename_i s e _ _
    have hs := s.minutes_spec.2
    have he := e.minutes_spec.2
    have hle : e.seconds - s.seconds ≤ 24 * 3600 := by
      unfold TimeOfDay.seconds
      omega
    rw [div_le_iff₀ (by norm_num)]
    exact_mod_cast hle
  · norm_num

theorem minutes_div_nonneg : (0 : ℚ) ≤ (m : ℚ) / 60 ↔ 0 ≤ m := by
  rw [le_div_iff₀ (by norm_num), zero_mul]
  exact Int.cast_nonneg_iff

/-- Milliseconds and minutes are the same hours. -/
theorem hours_eq_iff {ms : ℤ} : (ms : ℚ) / 3600000 = (m : ℚ) / 60 ↔ ms = m * 60000 := by
  rw [div_eq_div_iff (by norm_num) (by norm_num)]
  constructor
  · intro h
    have h' : ms * 60 = m * 3600000 := by exact_mod_cast h
    omega
  · rintro rfl
    push_cast
    ring

/-- **The hours of a set are its length exactly when it fits.** -/
theorem agrees_iff (r : Rated) : Agrees host timeZone r ↔ Fits host timeZone r := by
  unfold Agrees Fits durationHours
  cases hb : boundsOf host timeZone r with
  | error e => simp
  | ok found =>
    cases found with
    | none =>
      simp only [Option.some.injEq, Option.mem_def]
      constructor
      · rintro ⟨hzero, -, -⟩ s hs e he
        rw [hoursOf_eq hs he, eq_comm, div_eq_zero_iff] at hzero
        have hdiff : ((e.minutes - s.minutes : ℤ) : ℚ) = 0 := by simpa using hzero
        have : e.minutes - s.minutes = 0 := by exact_mod_cast hdiff
        omega
      · intro h
        have hzero : hoursOf r = 0 := by
          cases hs : r.set.startTime with
          | none => simp [hoursOf, hs]
          | some s =>
            cases he : r.set.endTime with
            | none => simp [hoursOf, hs, he]
            | some e =>
              rw [hoursOf_eq hs he, h s hs e he]
              simp
        rw [hzero]
        norm_num
    | some b =>
      obtain ⟨frame, hframe, hstart, hassumed, hfinish, -⟩ := getSetTimeBounds_eq hb
      cases hs : r.set.startTime with
      | none =>
        -- a set with bounds has a start
        refine absurd (startTime_of_bounds hb) ?_
        simp [SetRow.toFestivalSet, hs]
      | some s =>
        have hstart' : frame.instant (wallTime frame.day s.minutes) = some b.startMs := by
          have htext : r.set.toFestivalSet.startTime = s.text := by
            simp [SetRow.toFestivalSet, hs]
          rw [Frame.instantOf, htext, s.minutes_spec.1] at hstart
          exact hstart
        cases he : r.set.endTime with
        | none =>
          have hend := hassumed (by simp [SetRow.toFestivalSet, he])
          have hzero : hoursOf r = 0 := by simp [hoursOf, hs, he]
          simp only [hend, hzero, assumedEnd, Option.map_some, Option.some.injEq]
          refine iff_of_false (fun h => ?_) (by simp)
          norm_num at h
        | some e =>
          have htext : r.set.toFestivalSet.endTime = e.text := by
            simp [SetRow.toFestivalSet, he]
          have hend := hfinish (by rw [htext]; exact ne_of_valid e.valid)
          rw [htext, e.minutes_spec.1, Option.bind_some] at hend
          have hframe' : frameOf host (dayKey r) timeZone = some frame := hframe
          have hwall : wallTime frame.day e.minutes - wallTime frame.day s.minutes =
              (e.minutes - s.minutes) * 60000 := by
            unfold wallTime msPerMinute
            ring
          simp only [Option.mem_def, Option.some.injEq, exists_eq_left', hframe',
            Frame.onClock_iff hstart', hoursOf_eq hs he, hwall, ← hend]
          have hle : (e.minutes - s.minutes : ℤ) ≤ 24 * 60 := by
            have := s.minutes_spec.2
            have := e.minutes_spec.2
            omega
          constructor
          · rintro ⟨hsame, hpos, -⟩
            obtain ⟨endMs, hendMs, hhours⟩ := Option.map_eq_some_iff.mp hsame
            have hms := hours_eq_iff.mp hhours
            have hnonneg := minutes_div_nonneg.mp hpos
            rw [hendMs]
            exact ⟨by omega, by rw [Option.some.injEq]; omega⟩
          · rintro ⟨hlater, hendMs⟩
            rw [hendMs, Option.map_some, Option.some.injEq]
            refine ⟨?_, minutes_div_nonneg.mpr (by omega), ?_⟩
            · rw [hours_eq_iff]
              ring
            · rw [← hoursOf_eq hs he]
              exact hoursOf_le r

/-! ## Collections of sets -/

/-- The total is the sum of the lengths of the sets, each of them at least none and at most a day. -/
def SumsTo (host : Host) (timeZone : String) (rows : List Rated) (total : ℚ) : Prop :=
  ∃ hours, rows.mapM (durationHours host timeZone) = some hours ∧ total = hours.sum ∧
    ∀ h ∈ hours, 0 ≤ h ∧ h ≤ 24

/-- The hours that are reported for each festival and for the lifetime add up. -/
structure AddUp (host : Host) (timeZone : String) (rated : List Rated) : Prop where
  wrap : ∀ festivalId, ∀ total ∈ (getWrapStats rated festivalId).totalHours,
    SumsTo host timeZone (rated.filter fun r => r.festival.id = festivalId) total
  byFestival : ∀ stats ∈ (getLifetimeStats rated).byFestival, ∀ total ∈ stats.totalHours,
    SumsTo host timeZone ((live rated).filter fun r => r.festival.id = stats.festivalId) total
  lifetime : (getLifetimeStats rated).totals.totalHours =
    ((getLifetimeStats rated).byFestival.map fun stats => stats.totalHours.getD 0).sum

theorem total_of_sumHours (h : total ∈ sumHours rows) : total = (rows.map hoursOf).sum := by
  have := sumHours_getD rows
  rw [h, Option.getD_some] at this
  exact this

theorem mapM_of_agrees (h : ∀ r ∈ rows, Agrees host timeZone r) :
    rows.mapM (durationHours host timeZone) = some (rows.map hoursOf) := by
  induction rows with
  | nil => rfl
  | cons r rows ih =>
    have hr := (h r (List.mem_cons_self ..)).1
    have hrest := ih fun r' hr' => h r' (List.mem_cons_of_mem _ hr')
    rw [List.mapM_cons, hr, hrest]
    rfl

/-- The sum over sets that agree is that of their lengths. -/
theorem sumsTo_of_agrees (h : ∀ r ∈ rows, Agrees host timeZone r) (htotal : total ∈ sumHours rows) :
    SumsTo host timeZone rows total := by
  refine ⟨rows.map hoursOf, mapM_of_agrees h, total_of_sumHours htotal, fun hours hmem => ?_⟩
  obtain ⟨r, hr, rfl⟩ := List.mem_map.mp hmem
  exact (h r hr).2

theorem addUp_of_agrees {rated : List Rated} (h : ∀ r ∈ rated, Agrees host timeZone r) :
    AddUp host timeZone rated := by
  refine ⟨fun festivalId total htotal => ?_, fun stats hstats total htotal => ?_,
    lifetime_eq_sum rated⟩
  · exact sumsTo_of_agrees (fun r hr => h r (List.mem_filter.mp hr).1) htotal
  · obtain ⟨g, hg, rfl⟩ := List.mem_map.mp hstats
    have hrows := (Groups.mem_collect_iff.mp hg).2
    rw [List.map_id] at hrows
    have htotal' : total ∈ sumHours g.2 := htotal
    rw [hrows] at htotal'
    refine sumsTo_of_agrees (fun r hr => h r ?_) htotal'
    exact (List.mem_filter.mp (List.mem_filter.mp hr).1).1

/-- When the hours of a single set add up, they are its length. -/
theorem agrees_of_addUp (h : AddUp host timeZone [r]) : Agrees host timeZone r := by
  have hrows : [r].filter (fun r' => r'.festival.id = r.festival.id) = [r] := by simp
  have htotal : hoursOf r ∈ (getWrapStats [r] r.festival.id).totalHours := by
    simp [getWrapStats, sumHours]
  obtain ⟨hours, hmap, hsum, hbounds⟩ := h.wrap r.festival.id (hoursOf r) htotal
  rw [hrows, List.mapM_cons] at hmap
  obtain ⟨d, hd, hmap⟩ := Option.bind_eq_some_iff.mp hmap
  obtain rfl : [d] = hours := by simpa using hmap
  rw [List.sum_singleton] at hsum
  refine ⟨by rw [hd, hsum], ?_⟩
  rw [hsum]
  exact hbounds d (List.mem_singleton.mpr rfl)

/-- **The hours of all collections of sets of a kind add up exactly when every set of the kind
fits.** -/
theorem hours_addUp_iff (host : Host) (timeZone : String) (Kind : Rated → Prop) :
    (∀ rated : List Rated, (∀ r ∈ rated, Kind r) → AddUp host timeZone rated) ↔
      ∀ r, Kind r → Fits host timeZone r := by
  constructor
  · intro h r hr
    refine (agrees_iff r).mp (agrees_of_addUp (h [r] fun r' hr' => ?_))
    rw [List.mem_singleton.mp hr']
    exact hr
  · intro h rated hkind
    exact addUp_of_agrees fun r hr => (agrees_iff r).mpr (h r (hkind r hr))

end

/-! ## A set over midnight -/

/-- A rated set of 4 September 2026 with its times. -/
def ratedSet (startTime endTime : TimeOfDay) : Rated :=
  { set := { id := "s1", dayIndex := some 0, startTime := some startTime, endTime := some endTime }
    festival := { id := "fest", deleted := false, days := [{ date := "2026-09-04" }] } }

/-- From 23:00 to 01:00. -/
def lateNight : Rated := ratedSet ⟨"23:00", by decide⟩ ⟨"01:00", by decide⟩

/-- It counts for 22 hours less than none. -/
theorem lateNight_negative :
    hoursOf lateNight = -22 ∧ durationHours (utcHost 0) "" lateNight = some 2 ∧
      ¬ ∀ rated : List Rated, AddUp (utcHost 0) "" rated := by
  have hhours : hoursOf lateNight = -22 := by
    rw [hoursOf_eq (s := ⟨"23:00", by decide⟩) (e := ⟨"01:00", by decide⟩) rfl rfl]
    norm_num [show (⟨"23:00", by decide⟩ : TimeOfDay).minutes = 1380 by decide,
      show (⟨"01:00", by decide⟩ : TimeOfDay).minutes = 60 by decide]
  refine ⟨hhours, ?_, fun h => ?_⟩
  · have hb : boundsOf (utcHost 0) "" lateNight =
        .ok (some ⟨1788562800000, some 1788570000000⟩) := by decide
    rw [durationHours, hb]
    norm_num
  · have hnonneg := (agrees_of_addUp (h [lateNight])).2.1
    rw [hhours] at hnonneg
    norm_num at hnonneg

end FestivalPlanner.RatedHours
