import FestivalPlanner.Schedule.SetTimes
import Mathlib.Data.List.Sort

/-!
# The plan of the local reminders

The model of `packages/shared/src/utils/reminderSchedule.ts`: the reminders of a profile
become notifications that the device is to schedule.

* `buildReminderPlan` — a notification for each set whose reminder is still to come, the
  preferred sets first, as many as the device takes;
* `diffReminderPlan` — what is to be cancelled and scheduled, given what is scheduled;
* `mem_plan` — each entry of a plan is the reminder of a set with known bounds, in the future;
* `nodup_identifiers` — no two entries of a plan have one identifier.
-/

namespace FestivalPlanner.Schedule

open Js

/-! ## The functions -/

/-- `PRIORITY_RANK` -/
def Priority.rank : Priority → ℕ
  | .must => 0
  | .wantToSee => 1
  | .maybe => 2

/-- A notification that the device should have scheduled. -/
structure ReminderPlanEntry where
  identifier : String
  setId : String
  fireAtMs : ℤ
  leadMinutes : ℤ
  startMs : ℤ
  priority : Priority
  set : FestivalSet
  deriving DecidableEq

def MAX_LOCAL_REMINDERS : ℕ := 64

def reminderIdentifier (setId : String) : String := "festie-reminder-" ++ setId

structure BuildReminderPlanArgs where
  /-- the entries of `setId -> lead minutes`; `none` when the profile has no such record -/
  reminders : Option (List (String × Number))
  /-- the entries of `setId -> priority` -/
  picks : List (String × Priority) := []
  sets : List FestivalSet
  days : List FestivalDay
  nowMs : ℤ
  max : ℕ := MAX_LOCAL_REMINDERS
  timeZone : String := ""

/-- `new Map(sets.map((s) => [s.id, s])).get(id)`: the last set with the id. -/
def setById (sets : List FestivalSet) (id : String) : Option FestivalSet :=
  (sets.filter (fun s => s.id = id)).getLast?

/-- The notification of one reminder; `none` when it is skipped. -/
def planEntry (host : Host) (args : BuildReminderPlanArgs) :
    String × Number → Except String (Option ReminderPlanEntry)
  | (_, none) => .ok none
  | (setId, some leadMinutes) =>
      if leadMinutes < 0 then .ok none
      else match setById args.sets setId with
        | none => .ok none
        | some set => do
            match ← getSetTimeBounds host set args.days args.timeZone with
            | none => return none
            | some bounds =>
                let fireAtMs := bounds.startMs - leadMinutes * 60000
                if fireAtMs ≤ args.nowMs then return none
                else return some {
                  identifier := reminderIdentifier setId
                  setId := setId
                  fireAtMs := fireAtMs
                  leadMinutes := leadMinutes
                  startMs := bounds.startMs
                  priority := (args.picks.lookup setId).getD .maybe
                  set := set }

/-- The order of the plan: by priority, then by the time. -/
def ReminderPlanEntry.before (a b : ReminderPlanEntry) : Prop :=
  a.priority.rank < b.priority.rank ∨ (a.priority.rank = b.priority.rank ∧ a.fireAtMs ≤ b.fireAtMs)

instance (a b : ReminderPlanEntry) : Decidable (a.before b) :=
  inferInstanceAs (Decidable (_ ∨ _))

/-- The notifications to schedule. -/
def buildReminderPlan (host : Host) (args : BuildReminderPlanArgs) :
    Except String (List ReminderPlanEntry) :=
  match args.reminders with
  | none => .ok []
  | some reminders => do
      let entries ← reminders.filterMapM (planEntry host args)
      return (entries.insertionSort ReminderPlanEntry.before).take args.max

structure ReminderDiff where
  toSchedule : List ReminderPlanEntry
  toCancel : List String
  deriving DecidableEq

/-- A plan against the identifiers that are scheduled. -/
def diffReminderPlan (plan : List ReminderPlanEntry) (scheduledIds : List String) :
    ReminderDiff :=
  { toSchedule := plan
    toCancel := scheduledIds.filter fun id =>
      "festie-reminder-".toList.isPrefixOf id.toList && !(plan.map (·.identifier)).contains id }

/-! ## Loops that may throw -/

/-- A loop goes through when none of its passes throws, and then has what they have found. -/
theorem filterMapM_eq_ok {ε α β : Type} {f : α → Except ε (Option β)} {l : List α}
    {out : List β} :
    l.filterMapM f = .ok out ↔
      (∀ a ∈ l, ∃ found, f a = .ok found) ∧ l.filterMap (fun a => (f a).toOption.join) = out := by
  induction l generalizing out with
  | nil =>
    simp only [List.filterMapM_nil, List.filterMap_nil, List.not_mem_nil, false_imp_iff,
      implies_true, true_and]
    exact ⟨Except.ok.inj, congrArg Except.ok⟩
  | cons a l ih =>
    rw [List.filterMapM_cons, List.forall_mem_cons, List.filterMap_cons]
    cases hf : f a with
    | error e =>
      refine iff_of_false nofun ?_
      rintro ⟨⟨⟨found, hfound⟩, -⟩, -⟩
      cases hfound
    | ok found =>
      cases found with
      | none =>
        refine ih.trans ?_
        simp [Except.toOption]
      | some b =>
        cases hrest : l.filterMapM f with
        | error e =>
          refine iff_of_false nofun ?_
          rintro ⟨⟨-, hall⟩, -⟩
          have := ih.mpr ⟨hall, rfl⟩
          rw [hrest] at this
          cases this
        | ok rest =>
          obtain ⟨hall, rfl⟩ := ih.mp hrest
          constructor
          · intro h
            exact ⟨⟨⟨_, rfl⟩, hall⟩, Except.ok.inj h⟩
          · rintro ⟨-, rfl⟩
            rfl

/-- What a loop that went through has collected. -/
theorem mem_filterMapM {ε α β : Type} {f : α → Except ε (Option β)} {l : List α}
    {out : List β} (h : l.filterMapM f = .ok out) {b : β} :
    b ∈ out ↔ ∃ a ∈ l, f a = .ok (some b) := by
  obtain ⟨-, rfl⟩ := filterMapM_eq_ok.mp h
  rw [List.mem_filterMap]
  refine exists_congr fun a => and_congr_right fun _ => ?_
  cases f a <;> simp [Except.toOption]

/-- The collected results come in the order of the loop. -/
theorem map_sublist_filterMapM {ε α β κ : Type} {f : α → Except ε (Option β)} {key : α → κ}
    {key' : β → κ} (hkey : ∀ a b, f a = .ok (some b) → key' b = key a) {l : List α}
    {out : List β} (h : l.filterMapM f = .ok out) :
    List.Sublist (out.map key') (l.map key) := by
  induction l generalizing out with
  | nil =>
    cases h
    exact List.Sublist.slnil
  | cons a l ih =>
    rw [List.filterMapM_cons] at h
    cases hf : f a with
    | error e =>
      rw [hf] at h
      cases h
    | ok found =>
      rw [hf] at h
      cases found with
      | none => exact (ih h).cons _
      | some b =>
        cases hrest : l.filterMapM f with
        | error e =>
          simp only [hrest] at h
          cases h
        | ok rest =>
          simp only [hrest] at h
          cases h
          rw [List.map_cons, List.map_cons, hkey a b hf]
          exact (ih hrest).cons_cons _

/-! ## The entries of a plan -/

theorem mem_setById {sets : List FestivalSet} {id : String} {set : FestivalSet}
    (h : setById sets id = some set) : set ∈ sets ∧ set.id = id := by
  have hmem := List.mem_of_getLast? h
  rw [List.mem_filter, decide_eq_true_eq] at hmem
  exact hmem

variable {host : Host} {args : BuildReminderPlanArgs} {e : ReminderPlanEntry}
  {plan : List ReminderPlanEntry}

/-- What a reminder that is not skipped becomes. -/
theorem planEntry_eq_ok_some {r : String × Number} (h : planEntry host args r = .ok (some e)) :
    ∃ b, r = (e.setId, some e.leadMinutes) ∧ 0 ≤ e.leadMinutes ∧
      setById args.sets e.setId = some e.set ∧
      getSetTimeBounds host e.set args.days args.timeZone = .ok (some b) ∧
      e.identifier = reminderIdentifier e.setId ∧ e.startMs = b.startMs ∧
      e.fireAtMs = b.startMs - e.leadMinutes * 60000 ∧ args.nowMs < e.fireAtMs := by
  obtain ⟨setId, lead⟩ := r
  cases lead with
  | none => cases h
  | some leadMinutes =>
    rw [planEntry] at h
    split at h
    · cases h
    · rename_i hlead
      cases hset : setById args.sets setId with
      | none =>
        rw [hset] at h
        cases h
      | some set =>
        rw [hset] at h
        cases hb : getSetTimeBounds host set args.days args.timeZone with
        | error e =>
          simp only [hb] at h
          cases h
        | ok found =>
          cases found with
          | none =>
            simp only [hb] at h
            cases h
          | some b =>
            simp only [hb] at h
            by_cases hfire : b.startMs - leadMinutes * 60000 ≤ args.nowMs
            · simp only [bind, Except.bind, if_pos hfire] at h
              cases h
            · simp only [bind, Except.bind, if_neg hfire] at h
              cases h
              exact ⟨b, rfl, not_lt.mp hlead, hset, hb, rfl, rfl, rfl, not_le.mp hfire⟩

/-- An entry of a plan is the reminder of a set whose bounds are known, and is to come. -/
theorem mem_plan (h : buildReminderPlan host args = .ok plan) (he : e ∈ plan) :
    ∃ b, 0 ≤ e.leadMinutes ∧ setById args.sets e.setId = some e.set ∧
      getSetTimeBounds host e.set args.days args.timeZone = .ok (some b) ∧
      e.identifier = reminderIdentifier e.setId ∧ e.startMs = b.startMs ∧
      e.fireAtMs = b.startMs - e.leadMinutes * 60000 ∧ args.nowMs < e.fireAtMs := by
  unfold buildReminderPlan at h
  cases hreminders : args.reminders with
  | none =>
    rw [hreminders] at h
    cases h
    cases he
  | some reminders =>
    rw [hreminders] at h
    cases hentries : reminders.filterMapM (planEntry host args) with
    | error _ =>
      simp only [hentries] at h
      cases h
    | ok entries =>
      simp only [hentries] at h
      cases h
      have hmem := List.mem_of_mem_take he
      rw [List.mem_insertionSort, mem_filterMapM hentries] at hmem
      obtain ⟨r, -, hr⟩ := hmem
      obtain ⟨b, -, hrest⟩ := planEntry_eq_ok_some hr
      exact ⟨b, hrest⟩

theorem reminderIdentifier_injective : Function.Injective reminderIdentifier := by
  intro a b h
  have hlists := congrArg String.toList h
  rw [reminderIdentifier, reminderIdentifier, String.toList_append, String.toList_append] at hlists
  exact String.toList_injective (List.append_cancel_left hlists)

/-- No two entries of a plan have one identifier, as the sets of a record differ. -/
theorem nodup_identifiers (h : buildReminderPlan host args = .ok plan)
    (hkeys : ∀ reminders, args.reminders = some reminders → (reminders.map Prod.fst).Nodup) :
    (plan.map (·.identifier)).Nodup := by
  unfold buildReminderPlan at h
  cases hreminders : args.reminders with
  | none =>
    rw [hreminders] at h
    cases h
    exact List.nodup_nil
  | some reminders =>
    rw [hreminders] at h
    cases hentries : reminders.filterMapM (planEntry host args) with
    | error _ =>
      simp only [hentries] at h
      cases h
    | ok entries =>
      simp only [hentries] at h
      cases h
      have hsub : List.Sublist (entries.map (·.identifier))
          (reminders.map fun r => reminderIdentifier r.1) := by
        apply map_sublist_filterMapM _ hentries
        intro r e hr
        obtain ⟨b, rfl, -, -, -, hid, -⟩ := planEntry_eq_ok_some hr
        exact hid
      have hentriesNodup : (entries.map (·.identifier)).Nodup := by
        apply List.Nodup.sublist hsub
        rw [← Function.comp_def, ← List.map_map]
        exact (hkeys reminders hreminders).map reminderIdentifier_injective
      have hperm := (List.perm_insertionSort ReminderPlanEntry.before entries).map (·.identifier)
      have hsorted := hperm.nodup_iff.mpr hentriesNodup
      apply List.Nodup.sublist _ hsorted
      exact (List.take_sublist _ _).map _

end FestivalPlanner.Schedule
