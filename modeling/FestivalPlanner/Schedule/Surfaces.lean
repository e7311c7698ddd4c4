import FestivalPlanner.Schedule.CrewPlan
import FestivalPlanner.Schedule.FestivalTime
import FestivalPlanner.Schedule.OngoingNotification

/-!
# One set on four surfaces

The status of a set and its reminder are computed in the time zone of the festival; the
ongoing notification and the crew plan leave the zone out and read the local frame of the
device.

* `Placed` — the four surfaces use these bounds of a set;
* `Calls` — a surface calls a set upcoming, live or past at an instant;
* `SameClock` — the clock of the device shows the times of the set when that of the zone does;
* `same_instants_iff` — the surfaces use the bounds of the festival's zone, and none calls a
  set live that another calls upcoming or past, exactly when the clocks agree.
-/

namespace FestivalPlanner.Schedule

open Js

/-! ## What the surfaces say -/

/-- The four surfaces use the bounds `b` of a set. -/
structure Placed (host : Host) (days : List FestivalDay) (timeZone : String) (set : FestivalSet)
    (b : Option SetBounds) : Prop where
  status : ∀ now, getSetStatus host set now days timeZone =
    .ok (if set.startTime = "" ∨ set.endTime = "" then tbaResult
      else b.elim tbaResult (fun b => statusAt set.startTime b now))
  reminder : ∀ args plan, args.days = days → args.timeZone = timeZone →
    buildReminderPlan host args = .ok plan → ∀ e ∈ plan, e.set = set →
      ∃ x, b = some x ∧ e.startMs = x.startMs ∧ e.fireAtMs = x.startMs - e.leadMinutes * 60000
  ongoing : ∀ name stageName, toTimedSets host [⟨set, name, stageName⟩] days =
    .ok (b.map fun x => ⟨set.id, name, stageName, x.startMs, x.endMs⟩).toList
  crewPlan : timedSets host [set] days = .ok (b.map fun x => (set, x)).toList

/-- The surfaces use the bounds in the zone of the festival. -/
def SameInstants (host : Host) (days : List FestivalDay) (timeZone : String)
    (set : FestivalSet) : Prop :=
  ∃ b, getSetTimeBounds host set days timeZone = .ok b ∧ Placed host days timeZone set b

/-- What a set is called. -/
inductive Call where
  | upcoming
  | live
  | past
  deriving DecidableEq

/-- A surface calls a set so at an instant.  The lineup, the picks and the crew are any. -/
inductive Calls (host : Host) (days : List FestivalDay) (timeZone : String) (now : ℤ)
    (set : FestivalSet) : Call → Prop
  | status_upcoming (r : SetStatusResult)
      (h : getSetStatus host set now days timeZone = .ok r) (hr : r.status.rank < 3) :
      Calls host days timeZone now set .upcoming
  | status_live (r : SetStatusResult)
      (h : getSetStatus host set now days timeZone = .ok r) (hr : r.status = .live) :
      Calls host days timeZone now set .live
  | status_past (r : SetStatusResult)
      (h : getSetStatus host set now days timeZone = .ok r) (hr : r.status = .past) :
      Calls host days timeZone now set .past
  | reminder (args : BuildReminderPlanArgs) (plan : List ReminderPlanEntry)
      (e : ReminderPlanEntry) (hdays : args.days = days) (hzone : args.timeZone = timeZone)
      (hnow : args.nowMs = now) (h : buildReminderPlan host args = .ok plan) (he : e ∈ plan)
      (hset : e.set = set) : Calls host days timeZone now set .upcoming
  | ongoing_focus (localeCompare : String → String → ℤ) (input : OngoingNotificationModelInput)
      (m : OngoingNotificationModel) (f : FocusSet) (hdays : input.days = days)
      (hnow : input.now = now) (hset : ∃ entry ∈ input.sets, entry.set = set)
      (hids : ∀ x ∈ input.sets, ∀ y ∈ input.sets, x.set.id = y.set.id → x.set = y.set)
      (h : buildOngoingNotificationModel host localeCompare input = .ok m)
      (hf : m.focusSet = some f) (hid : f.id = set.id) :
      Calls host days timeZone now set (if f.kind = .now then .live else .upcoming)
  | ongoing_over (localeCompare : String → String → ℤ) (input : OngoingNotificationModelInput)
      (m : OngoingNotificationModel) (hdays : input.days = days)
      (hnow : input.now = now) (hset : ∃ entry ∈ input.sets, entry.set = set)
      (h : buildOngoingNotificationModel host localeCompare input = .ok m)
      (hactive : m.active = true) (hf : m.focusSet = none) :
      Calls host days timeZone now set .past
  | crewPlan (sets : List FestivalSet) (profiles : List Profile) (limit : ℕ)
      (slots : List Slot) (slot : Slot) (pick : SlotPick)
      (h : buildSlots host sets days profiles now limit = .ok slots) (hslot : slot ∈ slots)
      (hpick : pick ∈ slot.picks) (hset : pick.set = set) :
      Calls host days timeZone now set (if slot.startMs ≤ now then .live else .upcoming)

/-- At no instant is a set live on one surface and upcoming or past on another. -/
def NeverContradicted (host : Host) (days : List FestivalDay) (timeZone : String)
    (set : FestivalSet) : Prop :=
  ∀ now, Calls host days timeZone now set .live →
    ¬ Calls host days timeZone now set .upcoming ∧ ¬ Calls host days timeZone now set .past

/-! ## The clocks -/

/-- The clock of the device shows the start of a set, and its end, at the instants at which
the clock of the zone does; or the set has no usable date or time. -/
def SameClock (host : Host) (days : List FestivalDay) (timeZone : String)
    (set : FestivalSet) : Prop :=
  let dayKey := slice 10 (setDate set days).toList
  let start := clockParts set.startTime
  setDate set days = "" ∨ set.startTime = "" ∨ isDayKey dayKey = false ∨
    (zonedWallTimeToMs host dayKey start.1 start.2 timeZone =
        .ok (createDateInLocalFrame host dayKey start.1 start.2) ∧
      (set.endTime = "" ∨
        ∀ startMs ∈ createDateInLocalFrame host dayKey start.1 start.2,
          zonedEnd host dayKey set.endTime timeZone startMs =
            .ok (localEnd host dayKey set.endTime startMs)))

instance (host : Host) (days : List FestivalDay) (timeZone : String) (set : FestivalSet) :
    Decidable (SameClock host days timeZone set) :=
  inferInstanceAs (Decidable (_ ∨ _ ∨ _ ∨ (_ ∧ (_ ∨ _))))

/-- In the local frame the bounds never throw. -/
theorem getSetTimeBounds_ok (host : Host) (set : FestivalSet) (days : List FestivalDay) :
    ∃ b, getSetTimeBounds host set days "" = .ok b := by
  unfold getSetTimeBounds
  simp only
  split_ifs
  · exact ⟨_, rfl⟩
  · exact ⟨_, rfl⟩
  · exact ⟨_, rfl⟩

variable {host : Host} {set : FestivalSet} {timeZone : String} {days : List FestivalDay}
  {b : Option SetBounds}

theorem zonedBounds_eq_iff {dayKey : List Char} :
    zonedBounds host dayKey set timeZone = .ok (localBounds host dayKey set) ↔
      zonedWallTimeToMs host dayKey (clockParts set.startTime).1 (clockParts set.startTime).2
          timeZone =
        .ok (createDateInLocalFrame host dayKey (clockParts set.startTime).1
          (clockParts set.startTime).2) ∧
      (set.endTime = "" ∨
        ∀ startMs ∈ createDateInLocalFrame host dayKey (clockParts set.startTime).1
            (clockParts set.startTime).2,
          zonedEnd host dayKey set.endTime timeZone startMs =
            .ok (localEnd host dayKey set.endTime startMs)) := by
  unfold zonedBounds localBounds
  simp only
  generalize zonedWallTimeToMs host dayKey (clockParts set.startTime).1
    (clockParts set.startTime).2 timeZone = zoned
  generalize createDateInLocalFrame host dayKey (clockParts set.startTime).1
    (clockParts set.startTime).2 = device
  rcases zoned with e | (_ | s)
  · simp [bind, Except.bind]
  · cases device with
    | none => simp [bind, Except.bind, pure, Except.pure]
    | some d => simp [bind, Except.bind, pure, Except.pure]
  · cases device with
    | none =>
      by_cases hend : set.endTime = ""
      · simp [bind, Except.bind, pure, Except.pure, hend]
      · cases hfound : zonedEnd host dayKey set.endTime timeZone s <;>
          simp [bind, Except.bind, pure, Except.pure, hend, hfound]
    | some d =>
      by_cases hend : set.endTime = ""
      · have hassumed : s = d ∧ assumedEnd s = assumedEnd d ↔ s = d :=
          ⟨fun h => h.1, fun h => ⟨h, h ▸ rfl⟩⟩
        simpa [bind, Except.bind, pure, Except.pure, hend] using hassumed
      · by_cases hsd : s = d
        · subst hsd
          cases hfound : zonedEnd host dayKey set.endTime timeZone s <;>
            simp [bind, Except.bind, pure, Except.pure, hend, hfound]
        · cases hfound : zonedEnd host dayKey set.endTime timeZone s <;>
            simp [bind, Except.bind, pure, Except.pure, hend, hsd, hfound]

/-- The bounds in the zone are those in the local frame exactly when the clocks agree. -/
theorem bounds_eq_iff (hzone : timeZone ≠ "") (set : FestivalSet) :
    getSetTimeBounds host set days timeZone = getSetTimeBounds host set days "" ↔
      SameClock host days timeZone set := by
  unfold getSetTimeBounds SameClock
  simp only [hzone, if_false, if_true]
  by_cases hdate : setDate set days = ""
  · simp [hdate]
  by_cases htime : set.startTime = ""
  · simp [htime]
  cases hkey : isDayKey (slice 10 (setDate set days).toList) with
  | false => simp [hdate, htime]
  | true =>
    simp only [hdate, htime, false_or, or_self, Bool.true_eq_false, ↓reduceIte]
    exact zonedBounds_eq_iff

/-! ## The instants of the surfaces -/

theorem toTimedSets_singleton {entry : OngoingSetInput}
    (h : getSetTimeBounds host entry.set days "" = .ok b) :
    toTimedSets host [entry] days = .ok (b.map fun x =>
      (⟨entry.set.id, entry.name, entry.stageName, x.startMs, x.endMs⟩ : TimedSet)).toList := by
  unfold toTimedSets
  rw [List.filterMapM_cons, toTimedSet, h]
  cases b <;> rfl

theorem timedSets_singleton (h : getSetTimeBounds host set days "" = .ok b) :
    timedSets host [set] days = .ok (b.map fun x => (set, x)).toList := by
  unfold timedSets
  rw [List.filterMapM_cons, timedSet, h]
  cases b <;> rfl

theorem getSetStatus_eq (h : getSetTimeBounds host set days timeZone = .ok b) (now : ℤ) :
    getSetStatus host set now days timeZone =
      .ok (if set.startTime = "" ∨ set.endTime = "" then tbaResult
        else b.elim tbaResult (fun b => statusAt set.startTime b now)) := by
  unfold getSetStatus
  split
  · rfl
  · rw [h]
    cases b <;> rfl

/-- The four surfaces use the bounds of the zone exactly when the local frame has them too. -/
theorem sameInstants_iff : SameInstants host days timeZone set ↔
      getSetTimeBounds host set days timeZone = getSetTimeBounds host set days "" := by
  obtain ⟨device, hdevice⟩ := getSetTimeBounds_ok host set days
  constructor
  · rintro ⟨b, hb, hplaced⟩
    have hslots := hplaced.crewPlan
    rw [timedSets_singleton hdevice, Except.ok.injEq] at hslots
    have hsame : device = b := by
      cases device <;> cases b <;> simp_all
    rw [hb, hdevice, hsame]
  · intro h
    rw [hdevice] at h
    refine ⟨device, h, getSetStatus_eq h, ?_, ?_, timedSets_singleton hdevice⟩
    · rintro args plan rfl rfl hplan e he rfl
      obtain ⟨x, -, -, hx, -, hstart, hfire, -⟩ := mem_plan hplan he
      rw [h, Except.ok.injEq] at hx
      exact ⟨x, hx, hstart, hfire⟩
    · intro name stageName
      have hentry : getSetTimeBounds host (OngoingSetInput.mk set name stageName).set days "" =
          .ok device := hdevice
      exact toTimedSets_singleton hentry

/-! ## Live, upcoming and past -/

/-- A set with these bounds has started and has not ended. -/
def Running (b : Option SetBounds) (now : ℤ) : Prop :=
  ∃ x e, b = some x ∧ x.endMs = some e ∧ x.startMs ≤ now ∧ now < e

/-- What the status of a set is called is so by its bounds. -/
theorem running_of_status {now : ℤ} {r : SetStatusResult}
    (hb : getSetTimeBounds host set days timeZone = .ok b)
    (h : getSetStatus host set now days timeZone = .ok r) (hr : r.status ≠ .tba) :
    r.status = .live ↔ Running b now := by
  obtain ⟨-, x, hx, rfl⟩ := bounds_of_getSetStatus h hr
  rw [hb, Except.ok.injEq] at hx
  subst hx
  rw [statusAt_live_iff]
  constructor
  · rintro ⟨hstart, e, he, hlt⟩
    exact ⟨x, e, rfl, he, hstart, hlt⟩
  · rintro ⟨y, e, hy, he, hstart, hlt⟩
    cases hy
    exact ⟨hstart, e, he, hlt⟩

/-- Where the surfaces use one pair of bounds, a set that is called live is running, and one
that is called upcoming or past is not. -/
theorem running_of_calls {now : ℤ} {call : Call}
    (hzoned : getSetTimeBounds host set days timeZone = .ok b)
    (hlocal : getSetTimeBounds host set days "" = .ok b)
    (h : Calls host days timeZone now set call) : call = .live ↔ Running b now := by
  cases h with
  | status_upcoming r h hr =>
    have hlive : r.status ≠ .live := by
      intro heq
      rw [heq] at hr
      exact absurd hr (by decide)
    have htba : r.status ≠ .tba := by
      intro heq
      rw [heq] at hr
      exact absurd hr (by decide)
    simpa [hlive] using running_of_status hzoned h htba
  | status_live r h hr =>
    have := running_of_status hzoned h (by rw [hr]; decide)
    simpa [hr] using this
  | status_past r h hr =>
    have := running_of_status hzoned h (by rw [hr]; decide)
    simpa [hr] using this
  | reminder args plan e hdays hzone hnow h he hset =>
    subst hdays hzone hnow hset
    obtain ⟨x, hlead, -, hx, -, -, hfire, hlt⟩ := mem_plan h he
    rw [hzoned, Except.ok.injEq] at hx
    have hnot : ¬ Running b args.nowMs := by
      rintro ⟨y, end_, hy, -, hstart, -⟩
      rw [hx] at hy
      cases hy
      omega
    simpa using hnot
  | ongoing_focus localeCompare input m f hdays hnow hset hids h hf hid =>
    subst hdays hnow
    obtain ⟨entry, hentry, rfl⟩ := hset
    obtain ⟨timed, htimed, hcases⟩ := focus_cases h (active_of_focus h hf)
    -- the timed set of the focus is this set
    have hbounds : ∀ t ∈ timed, t.id = entry.set.id →
        ∃ x, b = some x ∧ t.startMs = x.startMs ∧ t.endMs = x.endMs := by
      intro t ht htid
      obtain ⟨entry', hentry', x, hx, rfl⟩ := (mem_toTimedSets htimed).mp ht
      rw [hids entry' hentry' entry hentry htid, hlocal, Except.ok.injEq] at hx
      exact ⟨x, hx, rfl, rfl⟩
    rcases hcases with ⟨t, ht, hfocus⟩ | ⟨-, t, ht, hfocus⟩ | ⟨-, hfocus⟩
    · rw [hf, Option.some.injEq] at hfocus
      subst hfocus
      obtain ⟨hmem, hstart, e, he, hlt⟩ := mem_currentSet ht
      obtain ⟨x, hx, hxs, hxe⟩ := hbounds t hmem hid
      exact iff_of_true rfl ⟨x, e, hx, hxe ▸ he, hxs ▸ hstart, hlt⟩
    · rw [hf, Option.some.injEq] at hfocus
      subst hfocus
      obtain ⟨hmem, hstart⟩ := mem_nextSet ht
      obtain ⟨x, hx, hxs, -⟩ := hbounds t hmem hid
      refine iff_of_false (by simp) ?_
      rintro ⟨y, _, hy, -, hle, -⟩
      rw [hx] at hy
      cases hy
      omega
    · rw [hf] at hfocus
      cases hfocus
  | ongoing_over localeCompare input m hdays hnow hset h hactive hf =>
    subst hdays hnow
    obtain ⟨entry, hentry, rfl⟩ := hset
    obtain ⟨timed, htimed, hcases⟩ := focus_cases h hactive
    have hnone : currentSet timed input.now = none := by
      rcases hcases with ⟨t, -, hfocus⟩ | ⟨hnone, -⟩ | ⟨hnone, -⟩
      · rw [hf] at hfocus
        cases hfocus
      · exact hnone
      · exact hnone
    refine iff_of_false (by decide) ?_
    rintro ⟨x, e, rfl, he, hstart, hlt⟩
    have hmem := (mem_toTimedSets htimed).mpr ⟨entry, hentry, x, hlocal, rfl⟩
    exact currentSet_eq_none hnone hmem ⟨hstart, e, he, hlt⟩
  | crewPlan sets profiles limit slots slot pick h hslot hpick hset =>
    subst hset
    obtain ⟨x, hx, hstart, e, he, hlt⟩ := mem_buildSlots h hslot hpick
    rw [hlocal, Except.ok.injEq] at hx
    subst hx
    by_cases hstarted : slot.startMs ≤ now
    · rw [if_pos hstarted]
      exact iff_of_true rfl ⟨x, e, rfl, he, hstart ▸ hstarted, hlt⟩
    · rw [if_neg hstarted]
      refine iff_of_false (by decide) ?_
      rintro ⟨y, _, hy, -, hle, -⟩
      cases hy
      exact hstarted (hstart ▸ hle)

/-- **One instant on all surfaces.**  For a festival with a time zone, the four surfaces use the
bounds of a set in that zone, and none calls it live at an instant at which another calls it
upcoming or past, exactly when the clock of the device shows the times of the set at the
instants at which the clock of the zone does. -/
theorem same_instants_iff {host : Host} {days : List FestivalDay} {timeZone : String}
    (hzone : timeZone ≠ "") (set : FestivalSet) :
    (SameInstants host days timeZone set ∧ NeverContradicted host days timeZone set) ↔
      SameClock host days timeZone set := by
  rw [← bounds_eq_iff hzone]
  constructor
  · rintro ⟨h, -⟩
    exact sameInstants_iff.mp h
  · intro h
    refine ⟨sameInstants_iff.mpr h, ?_⟩
    obtain ⟨b, hlocal⟩ := getSetTimeBounds_ok host set days
    have hzoned := h.trans hlocal
    intro now hlive
    have hrunning := (running_of_calls hzoned hlocal hlive).mp rfl
    constructor
    · intro hupcoming
      exact absurd ((running_of_calls hzoned hlocal hupcoming).mpr hrunning) (by decide)
    · intro hpast
      exact absurd ((running_of_calls hzoned hlocal hpast).mpr hrunning) (by decide)

/-- A device in UTC, at a festival whose zone is UTC too, and a set past midnight. -/
theorem closingSet_same_instants :
    SameInstants (zoneHost 0 0) weekend "Africa/Accra" closingSet ∧
      NeverContradicted (zoneHost 0 0) weekend "Africa/Accra" closingSet :=
  (same_instants_iff (by decide) closingSet).mpr (by decide +kernel)

/-- A device in UTC at a festival in British summer time: half an hour into its hour the set
is live by its status and is still to come by the ongoing notification. -/
theorem eveningSet_live_and_next :
    (getSetStatus (zoneHost 3600000 0) eveningSet 1788550200000 [] "Europe/London").map
        (·.status) = .ok .live ∧
    (buildOngoingNotificationModel (zoneHost 3600000 0) (fun _ _ => 0)
        { sets := [⟨eveningSet, "Anyma", none⟩], now := 1788550200000 }).map
          (·.focusSet) = .ok (some ⟨"s1", "Anyma", .next⟩) ∧
    ¬ (SameInstants (zoneHost 3600000 0) [] "Europe/London" eveningSet ∧
      NeverContradicted (zoneHost 3600000 0) [] "Europe/London" eveningSet) := by
  refine ⟨by decide +kernel, by decide +kernel, ?_⟩
  rintro ⟨hsame, -⟩
  rw [sameInstants_iff] at hsame
  exact absurd hsame (by decide +kernel)

end FestivalPlanner.Schedule
