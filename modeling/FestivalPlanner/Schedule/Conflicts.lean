import FestivalPlanner.Schedule.SetStatus
import FestivalPlanner.Schedule.WallClock
import FestivalPlanner.Lib.Pairs
import Mathlib.Data.String.Basic

/-!
# Clashes between picked sets

The model of `packages/shared/src/utils/conflicts.ts`: two picked sets clash when their
wall-clock intervals overlap, unless they are known to be on different days.

* `detectConflicts` — the clashes of a lineup, each pair of ids once;
* `countP_detectConflicts` — where no two pairs of picks share a key, a pair is reported
  once if it clashes and not at all otherwise;
* `detectConflicts_exact` — on one day that is as much as the overlap of the bounds.
-/

namespace FestivalPlanner.Schedule

open Js Pairs

/-! ## The functions -/

/-- Two picked sets that clash. -/
structure ConflictDetected where
  setA : FestivalSet
  setB : FestivalSet
  overlapMinutes : ℤ
  priorityA : Priority
  priorityB : Priority
  /-- both sides are `must` -/
  hard : Bool
  deriving DecidableEq

/-- The sets that the user picked and that have times. -/
def pickedSets (sets : List FestivalSet) (getMyPick : String → Option Priority) :
    List FestivalSet :=
  sets.filter (fun s => (getMyPick s.id).isSome && s.startTime ≠ "" && s.endTime ≠ "")

/-- Both days are known and differ. -/
def onOtherDays (a b : FestivalSet) : Bool :=
  a.dayIndex.isSome && b.dayIndex.isSome && a.dayIndex ≠ b.dayIndex

/-- The wall-clock minutes of a set, the end past midnight where it is not after the start;
`none` when one is `NaN`. -/
def wallInterval (s : FestivalSet) : Option (ℤ × ℤ) :=
  match timeToMinutes s.startTime, timeToMinutes s.endTime with
  | some start, some finish => some (start, rollover start finish)
  | _, _ => none

/-- The minutes that two sets share, when their intervals overlap; `NaN` is in no order. -/
def overlapOf (a b : FestivalSet) : Option ℤ :=
  match wallInterval a, wallInterval b with
  | some (aS, aE), some (bS, bE) => if aS < bE ∧ bS < aE then some (min aE bE - max aS bS) else none
  | _, _ => none

/-- The test of the inner loop. -/
@[grind =] def clash (p : FestivalSet × FestivalSet) : Bool :=
  !onOtherDays p.1 p.2 && (overlapOf p.1 p.2).isSome

/-- `[a.id, b.id].sort().join('-')` -/
def pairKey (p : FestivalSet × FestivalSet) : String :=
  if p.1.id ≤ p.2.id then p.1.id ++ "-" ++ p.2.id else p.2.id ++ "-" ++ p.1.id

/-- What is reported of a pair. -/
def conflictOf (getMyPick : String → Option Priority) (p : FestivalSet × FestivalSet) :
    ConflictDetected :=
  let priorityA := (getMyPick p.1.id).getD .maybe
  let priorityB := (getMyPick p.2.id).getD .maybe
  { setA := p.1, setB := p.2, overlapMinutes := (overlapOf p.1 p.2).getD 0,
    priorityA := priorityA, priorityB := priorityB,
    hard := priorityA == .must && priorityB == .must }

/-- The clashes among the picked sets. -/
def detectConflicts (sets : List FestivalSet) (getMyPick : String → Option Priority) :
    List ConflictDetected :=
  (firstOfKey clash pairKey [] (pairs (pickedSets sets getMyPick))).map (conflictOf getMyPick)

/-! ## Reported once -/

/-- The conflict is between the two sets. -/
def isBetween (a b : FestivalSet) (c : ConflictDetected) : Bool :=
  (c.setA = a && c.setB = b) || (c.setA = b && c.setB = a)

/-- No two pairs of picked sets share a key. -/
def KeysDiffer (sets : List FestivalSet) (getMyPick : String → Option Priority) : Prop :=
  ((pairs (pickedSets sets getMyPick)).map pairKey).Nodup

instance (sets : List FestivalSet) (getMyPick : String → Option Priority) :
    Decidable (KeysDiffer sets getMyPick) :=
  inferInstanceAs (Decidable (List.Nodup _))

theorem pairKey_comm (a b : FestivalSet) : pairKey (a, b) = pairKey (b, a) := by
  unfold pairKey
  rcases lt_trichotomy a.id b.id with hlt | heq | hlt
  · simp [hlt.le, not_le.mpr hlt]
  · simp [heq]
  · simp [hlt.le, not_le.mpr hlt]

theorem overlapOf_comm (a b : FestivalSet) : overlapOf a b = overlapOf b a := by
  unfold overlapOf
  rcases wallInterval a with _ | ⟨aS, aE⟩ <;> rcases wallInterval b with _ | ⟨bS, bE⟩ <;>
    simp only [and_comm, min_comm, max_comm]

theorem clash_comm (a b : FestivalSet) : clash (a, b) = clash (b, a) := by
  unfold clash onOtherDays
  rw [overlapOf_comm, Bool.and_comm a.dayIndex.isSome]
  simp only [ne_comm]

variable {getMyPick : String → Option Priority} {a b : FestivalSet} {sets : List FestivalSet}

theorem isBetween_conflictOf {p : FestivalSet × FestivalSet} :
    isBetween a b (conflictOf getMyPick p) = true ↔ p = (a, b) ∨ p = (b, a) := by
  obtain ⟨x, y⟩ := p
  unfold isBetween
  simp only [Bool.or_eq_true, Bool.and_eq_true, decide_eq_true_eq]
  simp [conflictOf]

/-- **A pair is reported once if both are picked and clash, and not at all otherwise.** -/
theorem countP_detectConflicts (hkeys : KeysDiffer sets getMyPick) (hne : a ≠ b) :
    (detectConflicts sets getMyPick).countP (isBetween a b) =
      if a ∈ pickedSets sets getMyPick ∧ b ∈ pickedSets sets getMyPick ∧ clash (a, b) = true
      then 1 else 0 := by
  unfold detectConflicts
  rw [List.countP_map]
  by_cases hpicked : a ∈ pickedSets sets getMyPick ∧ b ∈ pickedSets sets getMyPick
  · obtain ⟨ha, hb⟩ := hpicked
    -- whichever of the two comes first, the only pair between them is theirs
    obtain ⟨p, hp, hbetween, hclash, hkey⟩ : ∃ p ∈ pairs (pickedSets sets getMyPick),
        isBetween a b (conflictOf getMyPick p) = true ∧ clash p = clash (a, b) ∧
        pairKey p = pairKey (a, b) := by
      rcases mem_pairs ha hb hne with h | h
      · exact ⟨(a, b), h, isBetween_conflictOf.mpr (.inl rfl), rfl, rfl⟩
      · exact ⟨(b, a), h, isBetween_conflictOf.mpr (.inr rfl), clash_comm b a, pairKey_comm b a⟩
    rw [countP_firstOfKey hkeys hp hbetween, hclash]
    · simp [ha, hb]
    · intro q hq hbetween
      rw [hkey]
      rcases isBetween_conflictOf.mp hbetween with rfl | rfl
      · rfl
      · exact pairKey_comm b a
  · rw [if_neg (fun h => hpicked ⟨h.1, h.2.1⟩), List.countP_eq_zero]
    intro p hp hbetween
    have hmem := mem_of_mem_pairs (mem_of_mem_firstOfKey hp)
    apply hpicked
    rcases isBetween_conflictOf.mp hbetween with rfl | rfl
    · exact hmem
    · exact hmem.symm

/-! ## Reported as far as the bounds overlap -/

/-- How often the pair is reported. -/
def reportsOf (sets : List FestivalSet) (getMyPick : String → Option Priority)
    (a b : FestivalSet) : ℕ :=
  (detectConflicts sets getMyPick).countP (isBetween a b)

theorem wallTime_lt {n offset x y : ℤ} :
    wallTime n x - offset < wallTime n y - offset ↔ x < y := by
  unfold wallTime msPerMinute
  omega

/-- Picked sets that are not known to be on different days clash when their intervals
overlap. -/
theorem reportsOf_picked {aS aE bS bE : ℤ} (hkeys : KeysDiffer sets getMyPick) (hne : a ≠ b)
    (ha : a ∈ pickedSets sets getMyPick) (hb : b ∈ pickedSets sets getMyPick)
    (hday : onOtherDays a b = false) (hwa : wallInterval a = some (aS, aE))
    (hwb : wallInterval b = some (bS, bE)) :
    reportsOf sets getMyPick a b = if aS < bE ∧ bS < aE then 1 else 0 := by
  unfold reportsOf
  rw [countP_detectConflicts hkeys hne]
  unfold clash overlapOf
  simp only [ha, hb, hday, hwa, hwb, true_and, Bool.not_false, Bool.true_and]
  by_cases h : aS < bE ∧ bS < aE
  · simp [h]
  · simp [h]

/-- **Clash detection is exact.**  Of the picks of a lineup, no two pairs of which share a
key, sets on different days are not reported, and other pairs are reported once or not at
all, by their intervals on the wall clock.  For two sets of one day, where the clock is not
changed, that is by the overlap of their bounds. -/
theorem detectConflicts_exact {sets : List FestivalSet} {getMyPick : String → Option Priority}
    (hkeys : KeysDiffer sets getMyPick)
    (htimes : ∀ s ∈ pickedSets sets getMyPick,
      validateTime s.startTime = true ∧ validateTime s.endTime = true)
    (host : Host) (days : List FestivalDay) {a b : FestivalSet} (hne : a ≠ b) :
    (¬ (a ∈ pickedSets sets getMyPick ∧ b ∈ pickedSets sets getMyPick) ∨
        onOtherDays a b = true → reportsOf sets getMyPick a b = 0) ∧
    (a ∈ pickedSets sets getMyPick → b ∈ pickedSets sets getMyPick → onOtherDays a b = false →
      (∃ aS aE bS bE, wallInterval a = some (aS, aE) ∧ wallInterval b = some (bS, bE) ∧
        reportsOf sets getMyPick a b = if aS < bE ∧ bS < aE then 1 else 0) ∧
      ∀ n offset, dayOf (setDate a days) = some n → dayOf (setDate b days) = some n →
        host.SteadyOn n offset →
        ∃ startA endA startB endB,
          getSetTimeBounds host a days "" = .ok (some ⟨startA, some endA⟩) ∧
          getSetTimeBounds host b days "" = .ok (some ⟨startB, some endB⟩) ∧
          reportsOf sets getMyPick a b = if startA < endB ∧ startB < endA then 1 else 0) := by
  constructor
  · intro h
    unfold reportsOf
    rw [countP_detectConflicts hkeys hne, if_neg]
    rintro ⟨ha, hb, hclash⟩
    rcases h with hnot | hdays
    · exact hnot ⟨ha, hb⟩
    · simp [clash, hdays] at hclash
  · intro ha hb hday
    obtain ⟨hsa, hea⟩ := htimes a ha
    obtain ⟨hsb, heb⟩ := htimes b hb
    obtain ⟨h1, m1, -, -, -, -, -, hks⟩ := clockParts_of_valid hsa
    obtain ⟨h2, m2, -, -, -, -, -, hke⟩ := clockParts_of_valid hea
    obtain ⟨h3, m3, -, -, -, -, -, hls⟩ := clockParts_of_valid hsb
    obtain ⟨h4, m4, -, -, -, -, -, hle⟩ := clockParts_of_valid heb
    have hwa : wallInterval a = some (h1 * 60 + m1, rollover (h1 * 60 + m1) (h2 * 60 + m2)) := by
      simp [wallInterval, hks, hke]
    have hwb : wallInterval b = some (h3 * 60 + m3, rollover (h3 * 60 + m3) (h4 * 60 + m4)) := by
      simp [wallInterval, hls, hle]
    have hreports := reportsOf_picked hkeys hne ha hb hday hwa hwb
    refine ⟨⟨_, _, _, _, hwa, hwb, hreports⟩, ?_⟩
    intro n offset hna hnb hsteady
    obtain ⟨ks, ke, hks', hke', hba⟩ := getSetTimeBounds_steady hna hsteady hsa hea
    obtain ⟨ls, le, hls', hle', hbb⟩ := getSetTimeBounds_steady hnb hsteady hsb heb
    obtain rfl := Option.some.inj (hks.symm.trans hks')
    obtain rfl := Option.some.inj (hke.symm.trans hke')
    obtain rfl := Option.some.inj (hls.symm.trans hls')
    obtain rfl := Option.some.inj (hle.symm.trans hle')
    refine ⟨_, _, _, _, hba, hbb, ?_⟩
    rw [hreports]
    simp only [wallTime_lt]

theorem utcHost_steadyOn (now day : ℤ) : (utcHost now).SteadyOn day 0 :=
  { low := by decide
    high := by decide
    utc_eq := fun x _ _ => (sub_zero x).symm
    localTime_eq := fun x _ _ => sub_zero x }

/-- A device whose clock goes from 02:00 to 03:00 on 29 March 2026. -/
def springHost : Host :=
  { utcHost 0 with
    localTime := fun t => if t < 1774749600000 then t else t + 3600000
    utc := fun x => if x < 1774753200000 then x else x - 3600000 }

/-- A set by its id, its day and its times. -/
def setAt (id date : String) (dayIndex : Option ℤ) (startTime endTime : String) : FestivalSet :=
  { id := id, date := date, dayIndex := dayIndex, startTime := startTime, endTime := endTime }

/-- Two sets on Friday night, one of them past midnight. -/
def fridayNight : List FestivalSet :=
  [setAt "s1" "2026-09-04" (some 0) "22:00" "23:30", setAt "s2" "2026-09-04" (some 0) "23:00" "01:00"]

/-- Everything is picked. -/
def allMust : String → Option Priority := fun _ => some .must

theorem fridayNight_reported :
    ∃ startA endA startB endB,
      getSetTimeBounds (utcHost 0) (setAt "s1" "2026-09-04" (some 0) "22:00" "23:30") [] "" =
        .ok (some ⟨startA, some endA⟩) ∧
      getSetTimeBounds (utcHost 0) (setAt "s2" "2026-09-04" (some 0) "23:00" "01:00") [] "" =
        .ok (some ⟨startB, some endB⟩) ∧
      reportsOf fridayNight allMust (setAt "s1" "2026-09-04" (some 0) "22:00" "23:30")
        (setAt "s2" "2026-09-04" (some 0) "23:00" "01:00") =
          if startA < endB ∧ startB < endA then 1 else 0 :=
  ((detectConflicts_exact (by decide) (by decide) (utcHost 0) [] (by decide)).2
    (by decide) (by decide) (by decide)).2 20700 0 (by decide)
    (by decide) (utcHost_steadyOn 0 20700)

/-- The bounds of two sets overlap. -/
def boundsOverlap (host : Host) (a b : FestivalSet) : Bool :=
  match getSetTimeBounds host a [] "", getSetTimeBounds host b [] "" with
  | .ok (some ⟨startA, some endA⟩), .ok (some ⟨startB, some endB⟩) => startA < endB && startB < endA
  | _, _ => false

/-- A set past midnight and one of the next day overlap and are not reported; sets whose days
are unknown are reported though they are on different dates, and so are sets that a clock
change keeps apart; and of two clashes that share a key one is not reported. -/
theorem detectConflicts_not_bounds :
    (boundsOverlap (utcHost 0) (setAt "s1" "2026-09-04" (some 0) "23:00" "02:00")
        (setAt "s2" "2026-09-05" (some 1) "00:30" "01:30") = true ∧
      detectConflicts [setAt "s1" "2026-09-04" (some 0) "23:00" "02:00",
        setAt "s2" "2026-09-05" (some 1) "00:30" "01:30"] allMust = []) ∧
    (boundsOverlap (utcHost 0) (setAt "s1" "2026-09-04" none "20:00" "21:00")
        (setAt "s2" "2026-09-05" none "20:00" "21:00") = false ∧
      (detectConflicts [setAt "s1" "2026-09-04" none "20:00" "21:00",
        setAt "s2" "2026-09-05" none "20:00" "21:00"] allMust).length = 1) ∧
    (boundsOverlap springHost (setAt "s1" "2026-03-29" (some 0) "01:30" "03:00")
        (setAt "s2" "2026-03-29" (some 0) "02:15" "02:45") = false ∧
      (detectConflicts [setAt "s1" "2026-03-29" (some 0) "01:30" "03:00",
        setAt "s2" "2026-03-29" (some 0) "02:15" "02:45"] allMust).length = 1) ∧
    (boundsOverlap (utcHost 0) (setAt "a" "2026-09-04" (some 0) "20:00" "21:00")
        (setAt "b-c" "2026-09-04" (some 0) "20:30" "21:30") = true ∧
      boundsOverlap (utcHost 0) (setAt "a-b" "2026-09-04" (some 0) "22:00" "23:00")
        (setAt "c" "2026-09-04" (some 0) "22:30" "23:30") = true ∧
      (detectConflicts [setAt "a" "2026-09-04" (some 0) "20:00" "21:00",
        setAt "b-c" "2026-09-04" (some 0) "20:30" "21:30",
        setAt "a-b" "2026-09-04" (some 0) "22:00" "23:00",
        setAt "c" "2026-09-04" (some 0) "22:30" "23:30"] allMust).length = 1) := by
  decide

end FestivalPlanner.Schedule
