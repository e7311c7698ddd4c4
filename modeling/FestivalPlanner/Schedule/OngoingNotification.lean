import FestivalPlanner.Schedule.ReminderPlan
import FestivalPlanner.Schedule.SetStatus

/-!
# The ongoing notification

The model of `packages/shared/src/utils/ongoingNotification.ts`: one notification that says
which of the picked sets is playing, or which is next, and where the crew meets.

* `toTimedSets` — the picked sets with their bounds, in the local frame of the device;
* `pickOngoingMeetingPoint` — the meeting point that is shown;
* `buildOngoingNotificationModel` — the notification;
* `focus_cases` — what its focus says of the picked sets.
-/

namespace FestivalPlanner.Schedule

open Js List

/-! ## The functions -/

/-- A picked set with what is shown of it. -/
structure OngoingSetInput where
  set : FestivalSet
  name : String
  stageName : Option String

/-- A picked set with its bounds. -/
structure TimedSet where
  id : String
  name : String
  stageName : Option String
  startMs : ℤ
  endMs : Number
  deriving DecidableEq

structure CrewMeetingPoint where
  label : String
  location : String
  active : Bool
  created_at : String

structure OngoingNotificationModelInput where
  sets : List OngoingSetInput
  days : List FestivalDay := []
  meetingPoints : List CrewMeetingPoint := []
  now : ℤ

/-- `'now' | 'next'` -/
inductive FocusKind where
  | now
  | next
  deriving DecidableEq

structure FocusSet where
  id : String
  name : String
  kind : FocusKind
  deriving DecidableEq

structure OngoingNotificationModel where
  active : Bool
  title : Option String
  body : Option String
  focusSet : Option FocusSet
  meetingPointLabel : Option String
  deriving DecidableEq

def LEAD_IN_MS : ℤ := 60 * 60000

def LINGER_MS : ℤ := 30 * 60000

/-- One entry of `toTimedSets`; the time zone of the festival is not among its arguments. -/
def toTimedSet (host : Host) (days : List FestivalDay) (entry : OngoingSetInput) :
    Except String (Option TimedSet) := do
  match ← getSetTimeBounds host entry.set days "" with
  | none => return none
  | some bounds => return some {
      id := entry.set.id
      name := entry.name
      stageName := entry.stageName
      startMs := bounds.startMs
      endMs := bounds.endMs }

def toTimedSets (host : Host) (sets : List OngoingSetInput) (days : List FestivalDay) :
    Except String (List TimedSet) :=
  sets.filterMapM (toTimedSet host days)

/-- The order of the meeting points: the newest first, by the texts where one is no date. -/
def newerPoint (host : Host) (localeCompare : String → String → ℤ) (a b : CrewMeetingPoint) :
    Bool :=
  match host.parse a.created_at.toList, host.parse b.created_at.toList with
  | some at_, some bt => bt - at_ ≤ 0
  | _, _ => localeCompare b.created_at a.created_at ≤ 0

def pickOngoingMeetingPoint (host : Host) (localeCompare : String → String → ℤ)
    (meetingPoints : List CrewMeetingPoint) : Option CrewMeetingPoint :=
  let flagged := meetingPoints.filter (·.active)
  let pool := if flagged.isEmpty then meetingPoints else flagged
  (pool.insertionSort (fun a b => newerPoint host localeCompare a b = true)).head?

def fmtCountdown (ms : ℤ) : String :=
  let mins := max 0 (roundMinutes ms)
  if mins < 1 then "now"
  else if mins < 60 then toString mins ++ "m"
  else
    let h := mins / 60
    let m := mins % 60
    if m = 0 then toString h ++ "h" else toString h ++ "h " ++ toString m ++ "m"

/-- The local time of an instant; `none` is an invalid date. -/
def fmtClock (host : Host) (ms : Number) : String :=
  match ms with
  | none => "NaN:NaN"
  | some ms =>
      let t := host.localTime ms
      let shown (n : ℤ) := String.ofList (padStart 2 (toString n).toList)
      shown (t / msPerHour % 24) ++ ":" ++ shown (t / msPerMinute % 60)

def inactiveModel : OngoingNotificationModel :=
  { active := false, title := none, body := none, focusSet := none, meetingPointLabel := none }

/-- `Math.min(...starts)` of one start and others. -/
def firstStart (t : TimedSet) (timed : List TimedSet) : ℤ :=
  timed.foldl (fun least x => min least x.startMs) t.startMs

/-- `Math.max(...ends)`, which is `NaN` when one of them is. -/
def lastEnd (t : TimedSet) (timed : List TimedSet) : Number :=
  timed.foldl (fun greatest x => do return max (← greatest) (← x.endMs)) t.endMs

/-- The picked set that is playing; of several the one that ends first. -/
def currentSet (timed : List TimedSet) (now : ℤ) : Option TimedSet :=
  ((timed.filter fun s => decide (s.startMs ≤ now) && s.endMs.any (fun e => decide (now < e)))
    |>.insertionSort (fun a b => a.endMs.getD 0 ≤ b.endMs.getD 0)).head?

/-- The picked set that starts next. -/
def nextSet (timed : List TimedSet) (now : ℤ) : Option TimedSet :=
  ((timed.filter fun s => now < s.startMs).insertionSort
    (fun a b => a.startMs ≤ b.startMs)).head?

/-- The notification while the picked sets are on, with its focus. -/
def activeModel (host : Host) (mp : Option CrewMeetingPoint) (now : ℤ)
    (current next : Option TimedSet) : OngoingNotificationModel :=
  let meetingPointLabel := mp.map (·.label)
  let mpLine := mp.map fun p =>
    let place := if p.location = "" then "" else " (" ++ p.location ++ ")"
    "Meet: " ++ p.label ++ place ++ " · last-synced"
  match current.or next with
  | none =>
      { active := true
        title := some "Festival mode"
        body := some (mpLine.getD "No more picks coming up.")
        focusSet := none
        meetingPointLabel := meetingPointLabel }
  | some focus =>
      let isNow := current.isSome
      let setLine := match focus.stageName with
        | some stage => if stage = "" then focus.name else focus.name ++ " · " ++ stage
        | none => focus.name
      let inLabel := fmtCountdown (focus.startMs - now)
      let title :=
        if isNow then "Now: " ++ focus.name else "Next: " ++ focus.name ++ " in " ++ inLabel
      let setContext :=
        if isNow then setLine ++ " · until " ++ fmtClock host focus.endMs
        else setLine ++ " · " ++ fmtClock host focus.startMs ++ " (in " ++ inLabel ++ ")"
      { active := true
        title := some title
        body := some (match mpLine with
          | some line => setContext ++ "\n" ++ line
          | none => setContext)
        focusSet := some {
          id := focus.id, name := focus.name, kind := if isNow then .now else .next }
        meetingPointLabel := meetingPointLabel }

/-- The notification at an instant. -/
def buildOngoingNotificationModel (host : Host) (localeCompare : String → String → ℤ)
    (input : OngoingNotificationModelInput) : Except String OngoingNotificationModel := do
  match ← toTimedSets host input.sets input.days with
  | [] => return inactiveModel
  | t :: rest =>
      let timed := t :: rest
      let windowStart := firstStart t rest - LEAD_IN_MS
      let windowEnd := (lastEnd t rest).map (· + LINGER_MS)
      if input.now < windowStart ∨ windowEnd.any (fun e => decide (e < input.now)) = true then
        return inactiveModel
      else
        let mp := pickOngoingMeetingPoint host localeCompare input.meetingPoints
        return activeModel host mp input.now (currentSet timed input.now)
          (nextSet timed input.now)

/-! ## The focus -/

variable {host : Host} {t : TimedSet} {timed : List TimedSet} {now : ℤ}

variable {days : List FestivalDay} {localeCompare : String → String → ℤ}
  {input : OngoingNotificationModelInput} {m : OngoingNotificationModel}

theorem toTimedSet_eq_ok_some {entry : OngoingSetInput} :
    toTimedSet host days entry = .ok (some t) ↔
      ∃ b, getSetTimeBounds host entry.set days "" = .ok (some b) ∧
        t = ⟨entry.set.id, entry.name, entry.stageName, b.startMs, b.endMs⟩ := by
  unfold toTimedSet
  rcases getSetTimeBounds host entry.set days "" with e | (_ | b)
  · simp [bind, Except.bind]
  · simp [bind, Except.bind, pure, Except.pure]
  · simp [bind, Except.bind, pure, Except.pure, eq_comm]

theorem mem_toTimedSets {sets : List OngoingSetInput} (h : toTimedSets host sets days = .ok timed) :
    t ∈ timed ↔ ∃ entry ∈ sets, ∃ b, getSetTimeBounds host entry.set days "" = .ok (some b) ∧
      t = ⟨entry.set.id, entry.name, entry.stageName, b.startMs, b.endMs⟩ := by
  rw [mem_filterMapM h]
  simp only [toTimedSet_eq_ok_some]

theorem mem_currentSet (h : currentSet timed now = some t) :
    t ∈ timed ∧ t.startMs ≤ now ∧ ∃ e, t.endMs = some e ∧ now < e := by
  have hmem := mem_of_mem_head? h
  rw [mem_insertionSort, mem_filter, Bool.and_eq_true, decide_eq_true_eq,
    Option.any_eq_true] at hmem
  obtain ⟨ht, hstart, e, he, hlt⟩ := hmem
  exact ⟨ht, hstart, e, he, of_decide_eq_true hlt⟩

theorem currentSet_eq_none (h : currentSet timed now = none) (ht : t ∈ timed) :
    ¬ (t.startMs ≤ now ∧ ∃ e, t.endMs = some e ∧ now < e) := by
  rintro ⟨hstart, e, he, hlt⟩
  have hmem : t ∈ (timed.filter fun s => decide (s.startMs ≤ now) &&
      s.endMs.any (fun e => decide (now < e))).insertionSort
        (fun a b => a.endMs.getD 0 ≤ b.endMs.getD 0) := by
    rw [mem_insertionSort, mem_filter]
    exact ⟨ht, by simp [hstart, he, hlt]⟩
  rw [currentSet, head?_eq_none_iff] at h
  rw [h] at hmem
  cases hmem

theorem mem_nextSet (h : nextSet timed now = some t) : t ∈ timed ∧ now < t.startMs := by
  have hmem := mem_of_mem_head? h
  rwa [mem_insertionSort, mem_filter, decide_eq_true_eq] at hmem

/-- The focus is the set that is playing, or else the next one; an active notification without
a focus has neither. -/
theorem focus_cases (h : buildOngoingNotificationModel host localeCompare input = .ok m)
    (hactive : m.active = true) : ∃ timed,
      toTimedSets host input.sets input.days = .ok timed ∧
      ((∃ t, currentSet timed input.now = some t ∧ m.focusSet = some ⟨t.id, t.name, .now⟩) ∨
        (currentSet timed input.now = none ∧ ∃ t, nextSet timed input.now = some t ∧
          m.focusSet = some ⟨t.id, t.name, .next⟩) ∨
        (currentSet timed input.now = none ∧ m.focusSet = none)) := by
  unfold buildOngoingNotificationModel at h
  cases htimed : toTimedSets host input.sets input.days with
  | error e =>
    rw [htimed] at h
    cases h
  | ok timed =>
    rw [htimed] at h
    refine ⟨timed, rfl, ?_⟩
    cases timed with
    | nil =>
      cases h
      cases hactive
    | cons t rest =>
      simp only [bind, Except.bind] at h
      split at h
      · cases h
        cases hactive
      · cases h
        unfold activeModel
        cases hcurrent : currentSet (t :: rest) input.now with
        | some c => exact .inl ⟨c, rfl, rfl⟩
        | none =>
          cases hnext : nextSet (t :: rest) input.now with
          | some n => exact .inr (.inl ⟨rfl, n, rfl, rfl⟩)
          | none => exact .inr (.inr ⟨rfl, rfl⟩)

theorem active_of_focus {f : FocusSet}
    (h : buildOngoingNotificationModel host localeCompare input = .ok m)
    (hf : m.focusSet = some f) : m.active = true := by
  unfold buildOngoingNotificationModel at h
  cases htimed : toTimedSets host input.sets input.days with
  | error e =>
    rw [htimed] at h
    cases h
  | ok timed =>
    rw [htimed] at h
    cases timed with
    | nil =>
      cases h
      cases hf
    | cons t rest =>
      simp only [bind, Except.bind] at h
      split at h
      · cases h
        cases hf
      · cases h
        unfold activeModel
        split <;> rfl

end FestivalPlanner.Schedule
