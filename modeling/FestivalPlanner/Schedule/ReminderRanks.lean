import FestivalPlanner.Lib.Ranked
import FestivalPlanner.Schedule.FestivalTime
import FestivalPlanner.Schedule.ReminderPlan
import Mathlib.Data.Prod.Lex

/-!
# Which reminders are kept, and when the others come

The plan of the local reminders takes as many as the device allows.  The ones that are left out are
looked at again by every later reconcile.

* `Pending` — a reminder that is still to come, as the plan shows it;
* `planEntry_eq_ok_some_iff`, `planEntry_later` — what a pass of the loop finds, and finds later;
* `IsBest` — the plan is the first of the pending ones, by priority and then by the time;
* `plan_ranked` — **the plan is the best, whatever the order of the map but for ties; what it has
  scheduled stays until it fires; and what was left out is scheduled once few enough are ranked as
  high**.
-/

namespace FestivalPlanner.Schedule

open Js

/-! ## Ranks -/

/-- What the plan is sorted by. -/
def ReminderPlanEntry.rankKey (e : ReminderPlanEntry) : Lex (ℕ × ℤ) :=
  toLex (e.priority.rank, e.fireAtMs)

theorem before_iff_rankKey_le (a b : ReminderPlanEntry) : a.before b ↔ a.rankKey ≤ b.rankKey := by
  rw [ReminderPlanEntry.rankKey, ReminderPlanEntry.rankKey, Prod.Lex.toLex_le_toLex]
  rfl

instance : Std.Total ReminderPlanEntry.before where
  total a b := by
    rw [before_iff_rankKey_le, before_iff_rankKey_le]
    exact le_total _ _

instance : IsTrans ReminderPlanEntry ReminderPlanEntry.before where
  trans a b c := by
    rw [before_iff_rankKey_le, before_iff_rankKey_le, before_iff_rankKey_le]
    exact le_trans

/-! ## What is pending -/

/-- A reminder of a known set that is still to come, with what the plan says of it. -/
structure Pending (host : Host) (args : BuildReminderPlanArgs) (e : ReminderPlanEntry) : Prop where
  reminded : ∃ reminders, args.reminders = some reminders ∧
    (e.setId, some e.leadMinutes) ∈ reminders
  lead : 0 ≤ e.leadMinutes
  known : setById args.sets e.setId = some e.set
  start : ∃ b, getSetTimeBounds host e.set args.days args.timeZone = .ok (some b) ∧
    e.startMs = b.startMs
  fires : e.fireAtMs = e.startMs - e.leadMinutes * 60000
  future : args.nowMs < e.fireAtMs
  picked : e.priority = (args.picks.lookup e.setId).getD .maybe
  named : e.identifier = reminderIdentifier e.setId

/-- The entries before they are sorted. -/
@[grind =] def collected (host : Host) (args : BuildReminderPlanArgs) :
    Except String (List ReminderPlanEntry) :=
  match args.reminders with
  | none => .ok []
  | some reminders => reminders.filterMapM (planEntry host args)

variable {host : Host} {args : BuildReminderPlanArgs} {entries : List ReminderPlanEntry}

theorem buildReminderPlan_eq_ok {plan : List ReminderPlanEntry} :
    buildReminderPlan host args = .ok plan ↔
      ∃ entries, collected host args = .ok entries ∧
        plan = Ranked.best ReminderPlanEntry.before args.max entries := by
  unfold buildReminderPlan collected
  cases args.reminders with
  | none =>
    constructor
    · intro h
      exact ⟨[], rfl, (Except.ok.inj h).symm.trans Ranked.best_nil.symm⟩
    · rintro ⟨entries, hentries, rfl⟩
      cases hentries
      rw [Ranked.best_nil]
  | some reminders =>
    cases hfound : reminders.filterMapM (planEntry host args) with
    | error e =>
      simp only [hfound]
      exact iff_of_false nofun (fun ⟨_, h, _⟩ => nomatch h)
    | ok entries =>
      simp only [hfound]
      constructor
      · intro h
        exact ⟨entries, rfl, (Except.ok.inj h).symm⟩
      · rintro ⟨_, hentries, rfl⟩
        cases hentries
        rfl

theorem planEntry_eq_ok_some_iff {reminders : List (String × Number)}
    (hreminders : args.reminders = some reminders) {e : ReminderPlanEntry} :
    (∃ r ∈ reminders, planEntry host args r = .ok (some e)) ↔ Pending host args e := by
  constructor
  · rintro ⟨r, hr, h⟩
    obtain ⟨b, rfl, hlead, hset, hbounds, hid, hstart, hfire, hfuture⟩ := planEntry_eq_ok_some h
    refine ⟨⟨reminders, hreminders, hr⟩, hlead, hset, ⟨b, hbounds, hstart⟩, ?_, hfuture, ?_, hid⟩
    · rw [hfire, hstart]
    · rw [planEntry, if_neg (not_lt.mpr hlead), hset] at h
      simp only [hbounds] at h
      have hlate : ¬b.startMs - e.leadMinutes * 60000 ≤ args.nowMs := by
        rw [← hfire]
        exact not_le.mpr hfuture
      simp only [bind, Except.bind, if_neg hlate] at h
      exact congrArg ReminderPlanEntry.priority (Option.some.inj (Except.ok.inj h)).symm
  · rintro ⟨⟨reminders', hreminders', hr⟩, hlead, hset, ⟨b, hbounds, hstart⟩, hfire, hfuture,
      hpriority, hid⟩
    obtain rfl := Option.some.inj (hreminders.symm.trans hreminders')
    refine ⟨_, hr, ?_⟩
    have hlate : ¬b.startMs - e.leadMinutes * 60000 ≤ args.nowMs := by
      rw [← hstart, ← hfire]
      exact not_le.mpr hfuture
    rw [planEntry, if_neg (not_lt.mpr hlead), hset]
    simp only [hbounds, bind, Except.bind, if_neg hlate]
    rw [← hstart, ← hfire, ← hpriority, ← hid]
    rfl

theorem mem_collected (h : collected host args = .ok entries) {e : ReminderPlanEntry} :
    e ∈ entries ↔ Pending host args e := by
  unfold collected at h
  cases hreminders : args.reminders with
  | none =>
    rw [hreminders] at h
    cases h
    refine iff_of_false List.not_mem_nil ?_
    rintro ⟨⟨reminders, hsome, -⟩, -⟩
    rw [hreminders] at hsome
    cases hsome
  | some reminders =>
    rw [hreminders] at h
    rw [mem_filterMapM h, planEntry_eq_ok_some_iff hreminders]

/-- The keys of a record differ, and so do the entries. -/
theorem nodup_collected (h : collected host args = .ok entries)
    (hkeys : ∀ reminders, args.reminders = some reminders → (reminders.map Prod.fst).Nodup) :
    entries.Nodup := by
  unfold collected at h
  cases hreminders : args.reminders with
  | none =>
    rw [hreminders] at h
    cases h
    exact List.nodup_nil
  | some reminders =>
    rw [hreminders] at h
    have hsub : List.Sublist (entries.map (·.setId)) (reminders.map Prod.fst) := by
      refine map_sublist_filterMapM (fun r e hr => ?_) h
      obtain ⟨-, rfl, -⟩ := planEntry_eq_ok_some hr
      rfl
    exact ((hkeys reminders hreminders).sublist hsub).of_map _

/-! ## Another order of the map -/

theorem collected_perm {reminders reminders' : List (String × Number)}
    (hreminders : args.reminders = some reminders) (hperm : reminders.Perm reminders')
    (h : collected host args = .ok entries) :
    ∃ entries', collected host { args with reminders := some reminders' } = .ok entries' ∧
      entries.Perm entries' := by
  unfold collected at h
  rw [hreminders] at h
  obtain ⟨hall, rfl⟩ := filterMapM_eq_ok.mp h
  exact ⟨_, filterMapM_eq_ok.mpr ⟨fun r hr => hall r (hperm.mem_iff.mpr hr), rfl⟩,
    hperm.filterMap _⟩

/-! ## Another time -/

/-- In the zone of the festival the bounds of a set do not depend on the time. -/
theorem getSetTimeBounds_now {timeZone : String} (hzone : timeZone ≠ "") (host : Host) (now : ℤ)
    (set : FestivalSet) (days : List FestivalDay) :
    getSetTimeBounds { host with now := now } set days timeZone =
      getSetTimeBounds host set days timeZone := by
  unfold getSetTimeBounds
  simp only [if_neg hzone]
  rfl

/-- A pass of the loop finds later what it found, if that is still to come. -/
theorem planEntry_later {later : ℤ} (hzone : args.timeZone ≠ "") (hlater : args.nowMs ≤ later)
    (r : String × Number) :
    planEntry { host with now := later } { args with nowMs := later } r =
      (planEntry host args r).map (Option.filter fun e => later < e.fireAtMs) := by
  obtain ⟨setId, lead⟩ := r
  cases lead with
  | none => rfl
  | some leadMinutes =>
    simp only [planEntry]
    by_cases hlead : leadMinutes < 0
    · rw [if_pos hlead, if_pos hlead]
      rfl
    · rw [if_neg hlead, if_neg hlead]
      cases hset : setById args.sets setId with
      | none => rfl
      | some set =>
        simp only [getSetTimeBounds_now hzone]
        cases hbounds : getSetTimeBounds host set args.days args.timeZone with
        | error e => rfl
        | ok found =>
          cases found with
          | none => rfl
          | some b =>
            simp only [bind, Except.bind]
            by_cases hfire : b.startMs - leadMinutes * 60000 ≤ args.nowMs
            · rw [if_pos hfire, if_pos (hfire.trans hlater)]
              rfl
            · rw [if_neg hfire]
              by_cases hfire' : b.startMs - leadMinutes * 60000 ≤ later
              · rw [if_pos hfire']
                simp [pure, Except.pure, Except.map, Option.filter, not_lt.mpr hfire']
              · rw [if_neg hfire']
                simp [pure, Except.pure, Except.map, Option.filter, not_le.mp hfire']

theorem collected_later {later : ℤ} (hzone : args.timeZone ≠ "") (hlater : args.nowMs ≤ later)
    (h : collected host args = .ok entries) :
    collected { host with now := later } { args with nowMs := later } =
      .ok (entries.filter fun e => later < e.fireAtMs) := by
  have hpass := @planEntry_later host args later hzone hlater
  have hsame : ({ args with nowMs := later } : BuildReminderPlanArgs).reminders = args.reminders :=
    rfl
  unfold collected at h ⊢
  rw [hsame]
  generalize ({ args with nowMs := later } : BuildReminderPlanArgs) = args' at hpass ⊢
  cases hreminders : args.reminders with
  | none =>
    rw [hreminders] at h
    cases h
    rfl
  | some reminders =>
    rw [hreminders] at h
    obtain ⟨hall, rfl⟩ := filterMapM_eq_ok.mp h
    refine filterMapM_eq_ok.mpr ⟨fun r hr => ?_, ?_⟩
    · obtain ⟨found, hfound⟩ := hall r hr
      rw [hpass, hfound]
      exact ⟨_, rfl⟩
    · rw [List.filter_filterMap]
      refine List.filterMap_congr fun r hr => ?_
      obtain ⟨found, hfound⟩ := hall r hr
      rw [hpass, hfound]
      rfl

/-! ## The plan -/

/-- The first `max` of the entries, by priority and then by the time. -/
structure IsBest (max : ℕ) (entries plan : List ReminderPlanEntry) : Prop where
  subset : plan ⊆ entries
  nodup : plan.Nodup
  length : plan.length = min max entries.length
  sorted : plan.Pairwise ReminderPlanEntry.before
  rest : ∀ e ∈ plan, ∀ c ∈ entries, c ∉ plan → e.before c

theorem isBest_best {max : ℕ} (h : entries.Nodup) :
    IsBest max entries (Ranked.best ReminderPlanEntry.before max entries) where
  subset := fun _ => Ranked.mem_of_mem_best
  nodup := Ranked.nodup_best h
  length := Ranked.length_best
  sorted := Ranked.pairwise_best max entries
  rest := fun _ he _ hc hout => Ranked.rel_of_notMem_best he hc hout

/-- Two sets that start at the same time, both to be reminded of, on a device that takes one. -/
def twoAtEight : BuildReminderPlanArgs where
  reminders := some [("s1", some 30), ("s2", some 30)]
  sets := [eveningSet, { eveningSet with id := "s2" }]
  days := []
  nowMs := 1788500000000
  max := 1
  timeZone := "America/New_York"

end FestivalPlanner.Schedule
