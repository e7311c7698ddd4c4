import FestivalPlanner.Schedule.SetStatus
import FestivalPlanner.Schedule.WallClock
import Mathlib.Data.List.Sort
import Mathlib.Data.String.Basic

/-!
# Before, during and after a festival

The model of `packages/shared/src/utils/festivalTime.ts`: whether a festival is over, and
whether it is upcoming, ongoing or past, from the dates of its days and the clock of the
device.  A festival ends at 23:59 of its last day, also when a set runs past midnight.

* `isFestivalOver`, `festivalStatus` — by the last day listed, and by the first and the
  last date;
* `festivalStatus_of_live` — while a set is live the festival is ongoing up to 23:59 of its
  last day and past after it.
-/

namespace FestivalPlanner.Schedule

open Js List

/-! ## The functions -/

/-- What the time functions read of a festival. -/
structure Festival where
  startDate : String := ""
  endDate : String := ""
  /-- the days that the list endpoint gives with it -/
  days : List FestivalDay := []

/-- `'upcoming' | 'ongoing' | 'past'` -/
inductive FestivalStatus where
  | upcoming
  | ongoing
  | past
  deriving DecidableEq

/-- The days that are given, or else those of the festival. -/
def daysArr (festival : Festival) (days : List FestivalDay) : List FestivalDay :=
  if 0 < days.length then days else festival.days

/-- Has 23:59 of the day listed last passed? -/
def isFestivalOver (host : Host) (festival : Option Festival) (days : List FestivalDay) : Bool :=
  match festival with
  | none => false
  | some f =>
      match (daysArr f days).getLast? with
      | none => false
      | some last =>
          if last.date = "" then false
          else match createDateInLocalFrame host last.date.toList (some 23) (some 59) with
            | none => false
            | some endDt => decide (endDt < host.now)

/-- The first and the last date of a festival; `""` when it has none. -/
def dateRange (festival : Festival) (days : List FestivalDay) : String × String :=
  let dayDates := ((daysArr festival days).map (·.date)).filter (· ≠ "")
  match dayDates with
  | [] => (festival.startDate, if festival.endDate = "" then festival.startDate else festival.endDate)
  | _ :: _ =>
      let sorted := dayDates.insertionSort (· ≤ ·)
      (sorted.head?.getD "", sorted.getLast?.getD "")

/-- The status of a festival at an instant. -/
def festivalStatus (host : Host) (festival : Option Festival) (days : List FestivalDay) (now : ℤ) :
    Option FestivalStatus :=
  match festival with
  | none => none
  | some f =>
      let (first, last) := dateRange f days
      if first = "" ∨ last = "" then none
      else
        match createDateInLocalFrame host first.toList (some 0) (some 0),
            createDateInLocalFrame host last.toList (some 23) (some 59) with
        | some startDt, some endDt =>
            if endDt < now then some .past
            else if startDt ≤ now then some .ongoing
            else some .upcoming
        | _, _ => none

/-! ## The range of the dates -/

/-- The ends of a sorted list are its least and its greatest element. -/
theorem ends_of_sorted {l : List String} (hne : l ≠ []) :
    ∃ first last, (l.insertionSort (· ≤ ·)).head? = some first ∧
      (l.insertionSort (· ≤ ·)).getLast? = some last ∧ first ∈ l ∧ last ∈ l ∧
      ∀ x ∈ l, first ≤ x ∧ x ≤ last := by
  have hsorted : (l.insertionSort (· ≤ ·)).Pairwise (· ≤ ·) := pairwise_insertionSort _ l
  have hmem : ∀ x, x ∈ l.insertionSort (· ≤ ·) ↔ x ∈ l := fun x => mem_insertionSort _
  have hne' : l.insertionSort (· ≤ ·) ≠ [] := by
    intro h
    have := length_insertionSort (· ≤ · : String → String → Prop) l
    rw [h] at this
    exact hne (length_eq_zero_iff.mp this.symm)
  generalize l.insertionSort (· ≤ ·) = s at hsorted hmem hne'
  have hfirst : ∀ x ∈ s, s.head hne' ≤ x := by
    intro x hx
    cases s with
    | nil => exact absurd rfl hne'
    | cons y ys =>
      rcases mem_cons.mp hx with rfl | hx
      · exact le_rfl
      · exact (pairwise_cons.mp hsorted).1 x hx
  have hlast : ∀ x ∈ s, x ≤ s.getLast hne' := by
    intro x hx
    rw [← dropLast_append_getLast hne', pairwise_append] at hsorted
    rw [← dropLast_append_getLast hne', mem_append] at hx
    rcases hx with hx | hx
    · exact hsorted.2.2 x hx _ (mem_singleton.mpr rfl)
    · rw [mem_singleton.mp hx]
  exact ⟨s.head hne', s.getLast hne', head?_eq_some_head hne',
    getLast?_eq_some_getLast hne', (hmem _).mp (head_mem hne'),
    (hmem _).mp (getLast_mem hne'),
    fun x hx => ⟨hfirst x ((hmem x).mpr hx), hlast x ((hmem x).mpr hx)⟩⟩

/-- A festival with a dated day ranges from its first date to its last. -/
theorem dateRange_of_mem {festival : Festival} {days : List FestivalDay} {day : FestivalDay}
    (hmem : day ∈ daysArr festival days) (hdate : day.date ≠ "") :
    ∃ first last, dateRange festival days = (first, last) ∧
      (∃ d ∈ daysArr festival days, d.date = first ∧ d.date ≠ "") ∧
      (∃ d ∈ daysArr festival days, d.date = last ∧ d.date ≠ "") ∧
      ∀ d ∈ daysArr festival days, d.date ≠ "" → first ≤ d.date ∧ d.date ≤ last := by
  set dates := ((daysArr festival days).map (·.date)).filter (· ≠ "") with hdates
  have hiff : ∀ x, x ∈ dates ↔ ∃ d ∈ daysArr festival days, d.date = x ∧ d.date ≠ "" := by
    intro x
    rw [hdates, mem_filter, mem_map, decide_eq_true_eq]
    constructor
    · rintro ⟨⟨d, hd, rfl⟩, hx⟩
      exact ⟨d, hd, rfl, hx⟩
    · rintro ⟨d, hd, rfl, hx⟩
      exact ⟨⟨d, hd, rfl⟩, hx⟩
  have hne : dates ≠ [] := ne_nil_of_mem ((hiff day.date).mpr ⟨day, hmem, rfl, hdate⟩)
  obtain ⟨first, last, hhead, hlast, hfirstmem, hlastmem, hrange⟩ := ends_of_sorted hne
  refine ⟨first, last, ?_, (hiff _).mp hfirstmem, (hiff _).mp hlastmem,
    fun d hd hx => hrange _ ((hiff _).mpr ⟨d, hd, rfl, hx⟩)⟩
  unfold dateRange
  simp only [← hdates]
  cases hcase : dates with
  | nil => exact absurd hcase hne
  | cons x xs =>
    rw [hcase] at hhead hlast
    simp only [hhead, hlast, Option.getD_some]

/-! ## The festival while a set is live -/

/-- A set that is live has started. -/
theorem started_of_live {host : Host} {set : FestivalSet} {days : List FestivalDay} {now : ℤ}
    {r : SetStatusResult} (hstatus : getSetStatus host set now days "" = .ok r)
    (hlive : r.status = .live) :
    setDate set days ≠ "" ∧
      ∃ b, getSetTimeBounds host set days "" = .ok (some b) ∧ b.startMs ≤ now := by
  obtain ⟨-, b, hb, rfl⟩ := bounds_of_getSetStatus hstatus (by rw [hlive]; decide)
  refine ⟨?_, b, hb, (statusAt_live_iff.mp hlive).1⟩
  intro hdate
  unfold getSetTimeBounds at hb
  simp [hdate] at hb

/-- **The festival while a set is live.**  On a device that keeps its days, while a set of
one of the festival's days is live in the local frame, the festival is ongoing up to 23:59
of its latest day and past after it; and it is over after it when that day is listed last. -/
theorem festivalStatus_of_live {host : Host} (hregular : host.Regular) {festival : Festival}
    {days : List FestivalDay} {set : FestivalSet} {r : SetStatusResult}
    (hdates : ∀ day ∈ daysArr festival days, day.date = "" ∨ isCalendarDate day.date = true)
    (hset : ∃ day ∈ daysArr festival days, day.date = setDate set (daysArr festival days))
    (htime : validateTime set.startTime = true)
    (hstatus : getSetStatus host set host.now (daysArr festival days) "" = .ok r)
    (hlive : r.status = .live) :
    ∃ last closing, (∃ day ∈ daysArr festival days, day.date = last) ∧
      (∀ day ∈ daysArr festival days, day.date ≠ "" → day.date ≤ last) ∧
      createDateInLocalFrame host last.toList (some 23) (some 59) = some closing ∧
      festivalStatus host (some festival) days host.now =
        some (if host.now ≤ closing then .ongoing else .past) ∧
      ((∀ day, (daysArr festival days).getLast? = some day → day.date = last) →
        isFestivalOver host (some festival) days = decide (closing < host.now)) := by
  obtain ⟨hne, b, hb, hstarted⟩ := started_of_live hstatus hlive
  obtain ⟨day, hday, hdate⟩ := hset
  rw [← hdate] at hne
  obtain ⟨first, last, hrange, ⟨d1, hd1, rfl, hne1⟩, ⟨d2, hd2, rfl, hne2⟩, hends⟩ :=
    dateRange_of_mem hday hne
  have hcal := (hdates day hday).resolve_left hne
  obtain ⟨n, hn⟩ := dayOf_isSome hcal
  have hcal1 := (hdates d1 hd1).resolve_left hne1
  obtain ⟨n1, hn1⟩ := dayOf_isSome hcal1
  have hcal2 := (hdates d2 hd2).resolve_left hne2
  obtain ⟨n2, hn2⟩ := dayOf_isSome hcal2
  have hopening := createDate_eq hn1 (hregular.keepsDay n1) le_rfl (by decide) le_rfl (by decide)
  have hclosing : createDateInLocalFrame host d2.date.toList (some 23) (some 59) =
      some (host.utc (wallTime n2 (23 * 60 + 59))) :=
    createDate_eq hn2 (hregular.keepsDay n2) (by decide) (by decide) (by decide) (by decide)
  -- the first midnight is not after the start of the set
  have hopened : host.utc (wallTime n1 (0 * 60 + 0)) ≤ host.now := by
    rw [hdate] at hn
    obtain ⟨k, -, hk, -, hstart⟩ := startMs_eq hn (hregular.keepsDay n) htime hb
    refine le_trans ?_ (hstart ▸ hstarted)
    have hle : n1 ≤ n := dayOf_le hcal1 (hdate ▸ hcal) hn1 hn (hdate ▸ (hends day hday hne).1)
    have hmidnight : wallTime n1 (0 * 60 + 0) = n1 * msPerDay := by
      unfold wallTime
      ring
    rw [hmidnight]
    apply hregular.midnight
    unfold wallTime msPerDay msPerMinute
    omega
  refine ⟨d2.date, _, ⟨d2, hd2, rfl⟩, fun d hd hx => (hends d hd hx).2, hclosing, ?_, ?_⟩
  · unfold festivalStatus
    simp only [hrange, hne1, hne2, or_self, if_false, hopening, hclosing]
    by_cases hle : host.now ≤ host.utc (wallTime n2 (23 * 60 + 59))
    · rw [if_neg (not_lt.mpr hle), if_pos hopened, if_pos hle]
    · rw [if_pos (not_le.mp hle), if_neg hle]
  · intro hlisted
    cases hget : (daysArr festival days).getLast? with
    | none =>
      rw [List.getLast?_eq_none_iff] at hget
      rw [hget] at hday
      cases hday
    | some final =>
      have hfinal := hlisted final hget
      unfold isFestivalOver
      simp only [hget, hfinal, hne2, if_false, hclosing]

/-- A device in UTC that knows zones of one offset only. -/
def zoneHost (offset now : ℤ) : Host :=
  { utcHost now with
    formatToParts := fun _ t =>
      match t with
      | none => .error "RangeError: Invalid time value"
      | some t =>
          let shown := t + offset
          let (y, m, d) := Calendar.civilFromDay (shown / msPerDay)
          .ok { year := y, month := m, day := d, hour := shown / msPerHour % 24,
                minute := shown / msPerMinute % 60, second := shown / 1000 % 60 } }

theorem utcHost_regular (now : ℤ) : (utcHost now).Regular :=
  { near := fun x => by
      show x - msPerDay < x ∧ x < x + msPerDay
      unfold msPerDay
      omega
    same_day := fun _ => rfl
    midnight := fun _ _ h => h
    before_midnight := fun _ _ h => h }

/-- The last set of a festival of two days, from 23:00 to 01:00. -/
def closingSet : FestivalSet :=
  { id := "s9", dayIndex := some 1, startTime := "23:00", endTime := "01:00" }

/-- Friday and Saturday. -/
def weekend : List FestivalDay := [{ date := "2026-09-04" }, { date := "2026-09-05" }]

theorem closingSet_festivalStatus :
    ∃ last closing, (∃ day ∈ daysArr { days := weekend } [], day.date = last) ∧
      (∀ day ∈ daysArr { days := weekend } [], day.date ≠ "" → day.date ≤ last) ∧
      createDateInLocalFrame (utcHost 1788650000000) last.toList (some 23) (some 59) =
        some closing ∧
      festivalStatus (utcHost 1788650000000) (some { days := weekend }) [] 1788650000000 =
        some (if (1788650000000 : ℤ) ≤ closing then .ongoing else .past) ∧
      ((∀ day, (daysArr { days := weekend } []).getLast? = some day → day.date = last) →
        isFestivalOver (utcHost 1788650000000) (some { days := weekend }) [] =
          decide (closing < (1788650000000 : ℤ))) := by
  obtain ⟨r, hr, hlive⟩ : ∃ r, getSetStatus (utcHost 1788650000000) closingSet 1788650000000
      (daysArr { days := weekend } []) "" = .ok r ∧ r.status = .live :=
    ⟨_, rfl, by decide⟩
  exact festivalStatus_of_live (utcHost_regular _) (by decide) (by decide)
    (by decide) hr hlive

/-- At half past midnight after the last day the closing set is live, and the festival is past
and over.  The same happens before the first day to a device in another zone, and where a day
is not in the calendar. -/
theorem closingSet_after_festival :
    ((getSetStatus (utcHost 1788654600000) closingSet 1788654600000 weekend "").map (·.status) =
        .ok .live ∧
      festivalStatus (utcHost 1788654600000) (some {}) weekend 1788654600000 = some .past ∧
      isFestivalOver (utcHost 1788654600000) (some {}) weekend = true) ∧
    ((getSetStatus (zoneHost 36000000 1788449400000)
        { id := "s1", dayIndex := some 0, startTime := "01:00", endTime := "02:00" } 1788449400000
        weekend "Australia/Brisbane").map (·.status) = .ok .live ∧
      festivalStatus (zoneHost 36000000 1788449400000) (some {}) weekend 1788449400000 =
        some .upcoming) ∧
    ((getSetStatus (utcHost 1772368200000)
        { id := "s1", dayIndex := some 1, startTime := "12:00", endTime := "13:00" } 1772368200000
        [{ date := "2026-02-31" }, { date := "2026-03-01" }] "").map (·.status) = .ok .live ∧
      festivalStatus (utcHost 1772368200000) (some {})
        [{ date := "2026-02-31" }, { date := "2026-03-01" }] 1772368200000 = some .upcoming) := by
  decide

end FestivalPlanner.Schedule
