import FestivalPlanner.Schedule.ReminderPlan

/-!
# The crew plan

The model of `buildSlots` of `packages/shared/src/utils/crewPlan.ts`: the next start times of
the lineup, each with the sets that the members of the crew prefer of those that start then.

* `timedSets` — the sets with their bounds, in the local frame of the device;
* `bestPick` — what a member prefers of the sets of a slot;
* `buildSlots` — the slots;
* `mem_buildSlots` — a pick of a slot is a set that starts then and has not ended.
-/

namespace FestivalPlanner.Schedule

open Js List

/-! ## The functions -/

/-- `PRIORITY_WEIGHT` -/
def Priority.weight : Priority → ℕ
  | .must => 3
  | .wantToSee => 2
  | .maybe => 1

/-- What the plan reads of a member's profile. -/
structure Profile where
  id : String
  name : String := ""
  /-- the entries of `setId -> priority` -/
  picks : List (String × Priority)

structure SlotPick where
  memberId : String
  memberName : String
  set : FestivalSet
  priority : Priority
  deriving DecidableEq

structure Slot where
  startMs : ℤ
  startTime : String
  picks : List SlotPick
  deriving DecidableEq

/-- The bounds of a set, without the time zone of the festival. -/
def timedSet (host : Host) (days : List FestivalDay) (set : FestivalSet) :
    Except String (Option (FestivalSet × SetBounds)) := do
  return (← getSetTimeBounds host set days "").map fun bounds => (set, bounds)

/-- The sets that have bounds. -/
def timedSets (host : Host) (sets : List FestivalSet) (days : List FestivalDay) :
    Except String (List (FestivalSet × SetBounds)) :=
  sets.filterMapM (timedSet host days)

/-- `bounds.endMs > nowMs` -/
def SetBounds.endsAfter (b : SetBounds) (nowMs : ℤ) : Bool :=
  b.endMs.any fun e => decide (nowMs < e)

/-- The pick of highest priority among the sets of a slot, the first of several. -/
def bestPick (slotSets : List FestivalSet) (picks : List (String × Priority)) :
    Option (String × Priority) :=
  picks.foldl (fun best pick =>
    if (slotSets.map (·.id)).contains pick.1 = false then best
    else match best with
      | none => some pick
      | some b => if b.2.weight < pick.2.weight then some pick else best) none

/-- The pick of one member in a slot. -/
def slotPick (slotSets : List FestivalSet) (profile : Profile) : Option SlotPick := do
  let best ← bestPick slotSets profile.picks
  let set ← setById slotSets best.1
  return {
    memberId := profile.id
    memberName := if profile.name = "" then "Crew member" else profile.name
    set := set
    priority := best.2 }

/-- The slot of a start time. -/
def slotAt (timed : List (FestivalSet × SetBounds)) (profiles : List Profile) (startMs : ℤ) :
    Slot :=
  let slotSets := (timed.filter fun x => x.2.startMs = startMs).map (·.1)
  { startMs := startMs
    startTime := (slotSets.head?.map (·.startTime)).getD ""
    picks := (profiles.filterMap (slotPick slotSets)).insertionSort
      (fun a b => b.priority.weight ≤ a.priority.weight) }

/-- The next slots. -/
def buildSlots (host : Host) (sets : List FestivalSet) (days : List FestivalDay)
    (profiles : List Profile) (nowMs : ℤ) (limit : ℕ) : Except String (List Slot) := do
  let timed := (← timedSets host sets days).filter fun x => x.2.endsAfter nowMs
  let startTimes := ((timed.map (·.2.startMs)).dedup.insertionSort (· ≤ ·)).take limit
  return startTimes.map (slotAt timed profiles)

/-! ## The picks of a slot -/

variable {host : Host} {sets : List FestivalSet} {days : List FestivalDay}

theorem mem_timedSets {timed : List (FestivalSet × SetBounds)}
    (h : timedSets host sets days = .ok timed) {x : FestivalSet × SetBounds} :
    x ∈ timed ↔ x.1 ∈ sets ∧ getSetTimeBounds host x.1 days "" = .ok (some x.2) := by
  obtain ⟨set, b⟩ := x
  have hone : ∀ s, timedSet host days s = .ok (some (set, b)) ↔
      s = set ∧ getSetTimeBounds host set days "" = .ok (some b) := by
    intro s
    unfold timedSet
    constructor
    · intro hs
      rcases hb : getSetTimeBounds host s days "" with e | (_ | b')
      · rw [hb] at hs
        cases hs
      · rw [hb] at hs
        cases hs
      · rw [hb] at hs
        cases hs
        exact ⟨rfl, hb⟩
    · rintro ⟨rfl, hb⟩
      rw [hb]
      rfl
  rw [mem_filterMapM h]
  simp only [hone]
  constructor
  · rintro ⟨s, hs, rfl, hb⟩
    exact ⟨hs, hb⟩
  · rintro ⟨hs, hb⟩
    exact ⟨set, hs, rfl, hb⟩

/-- A pick of a slot is a set that starts then and has not ended. -/
theorem mem_buildSlots {profiles : List Profile} {nowMs : ℤ} {limit : ℕ} {slots : List Slot}
    (h : buildSlots host sets days profiles nowMs limit = .ok slots) {slot : Slot}
    (hslot : slot ∈ slots) {pick : SlotPick} (hpick : pick ∈ slot.picks) :
    ∃ b, getSetTimeBounds host pick.set days "" = .ok (some b) ∧ b.startMs = slot.startMs ∧
      ∃ e, b.endMs = some e ∧ nowMs < e := by
  unfold buildSlots at h
  cases htimed : timedSets host sets days with
  | error e =>
    rw [htimed] at h
    cases h
  | ok timed =>
    rw [htimed] at h
    cases h
    obtain ⟨startMs, -, rfl⟩ := mem_map.mp hslot
    rw [slotAt, mem_insertionSort, mem_filterMap] at hpick
    obtain ⟨profile, -, hprofile⟩ := hpick
    unfold slotPick at hprofile
    simp only [Option.bind_eq_bind, Option.bind_eq_some_iff] at hprofile
    obtain ⟨best, -, set, hset, hmade⟩ := hprofile
    cases hmade
    obtain ⟨x, hx, rfl⟩ := mem_map.mp (mem_setById hset).1
    rw [mem_filter, mem_filter, decide_eq_true_eq] at hx
    obtain ⟨⟨hmem, hend⟩, hstart⟩ := hx
    obtain ⟨e, he, hlt⟩ := (Option.any_eq_true _ _).mp hend
    exact ⟨x.2, ((mem_timedSets htimed).mp hmem).2, hstart, e, he, of_decide_eq_true hlt⟩

end FestivalPlanner.Schedule
