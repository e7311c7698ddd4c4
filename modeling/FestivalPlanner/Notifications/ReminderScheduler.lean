import FestivalPlanner.Lib.InFlight
import FestivalPlanner.Lib.Keyed
import FestivalPlanner.Lib.Machine

/-!
# Reminders of sets

Every minute a tick of the scheduler goes through the reminders of all profiles, and sends those
whose time comes within the next 65 seconds and that it has not sent in the last two hours.

* `Plan`, `remindersOf` — festivals, profiles and their reminders;
* `Tick`, `State`, `step` — ticks one reminder after the other, which may fail, take long and
  overlap;
* `Attempted`, `Once`, `OptedIn` — no reminder is missed, none is delivered twice, and none to a
  user who has opted out;
* `reminders_of_run` — ticks that are not too far apart miss no reminder, except where one fails or
  finds the user in a do-not-disturb window; ticks that do not overlap deliver none twice.
-/

namespace FestivalPlanner.ReminderScheduler

open InFlight Keyed List Option Machine

/-! ## Reminders -/

/-- `REMINDER_TICK_INTERVAL_MS`, `REMINDER_FIRE_WINDOW_MS` and `REMINDER_DEDUP_TTL_MS`, none of
which can be configured to be less than a second. -/
structure Config where
  tickInterval : ℤ
  fireWindow : ℤ
  dedupTtl : ℤ
  tickInterval_min : 1000 ≤ tickInterval
  fireWindow_min : 1000 ≤ fireWindow
  dedupTtl_min : 1000 ≤ dedupTtl

def DEFAULTS : Config :=
  { tickInterval := 60000
    fireWindow := 65000
    dedupTtl := 7200000
    tickInterval_min := by decide
    fireWindow_min := by decide
    dedupTtl_min := by decide }

structure SetRow where
  id : String
  /-- What `computeSetStartMs` makes of the date of the day, the start time and the time zone. -/
  startMs : Option ℤ

structure Profile where
  userId : String
  /-- The sets and the minutes before them, as in `remindersJson`. -/
  reminders : List (String × ℤ)

structure Festival where
  sets : List SetRow
  profiles : List Profile

/-- The start of a set in `setLookup`, which has no sets without one. -/
def Festival.setLookup (festival : Festival) (setId : String) : Option ℤ :=
  festival.sets.findSome? fun set => if set.id = setId then set.startMs.filter (· ≠ 0) else none

structure Reminder where
  userId : String
  setId : String
  startMs : ℤ
  minutesBefore : ℤ

def Reminder.dedupKey (r : Reminder) : String := r.userId ++ ":" ++ r.setId

def Reminder.fireAt (r : Reminder) : ℤ := r.startMs - r.minutesBefore * 60000

/-- The reminders in the order in which a tick comes to them. -/
def remindersOf (festivals : List Festival) : List Reminder :=
  festivals.flatMap fun festival => festival.profiles.flatMap fun profile =>
    profile.reminders.filterMap fun (setId, minutesBefore) =>
      (festival.setLookup setId).map fun startMs =>
        { userId := profile.userId
          setId := setId
          startMs := startMs
          minutesBefore := minutesBefore }

/-- A set is in one festival, and a user has one profile for it. -/
structure Plan where
  festivals : List Festival
  unique : UniqueKeys Reminder.dedupKey (remindersOf festivals)

def Plan.reminders (plan : Plan) : List Reminder := remindersOf plan.festivals

/-- The reminder is in the window of a tick. -/
def Due (c : Config) (now : ℤ) (r : Reminder) : Prop :=
  ¬ (r.fireAt < now ∨ r.fireAt > now + c.fireWindow)

instance (c : Config) (now : ℤ) (r : Reminder) : Decidable (Due c now r) :=
  inferInstanceAs (Decidable (¬ _))

variable {now : ℤ} {r : Reminder} {ok delivered sent : Bool}

theorem due_iff {c : Config} : Due c now r ↔ r.fireAt - c.fireWindow ≤ now ∧ now ≤ r.fireAt := by
  unfold Due
  omega

/-! ## Preferences -/

/-- A value of a preference; the column is a number. -/
inductive Flag where
  | number (n : ℤ)
  | boolean (b : Bool)

/-- `value === false` -/
def Flag.isFalse : Flag → Bool
  | .boolean b => !b
  | .number _ => false

def Flag.truthy : Flag → Bool
  | .boolean b => b
  | .number n => n ≠ 0

/-- What is stored of a switch. -/
def stored (on : Bool) : Flag := .number (if on then 1 else 0)

/-! ## Ticks -/

inductive Phase where
  /-- The preferences are looked up. -/
  | checking
  | sending
  /-- The send has come back; whether it reports a delivery. -/
  | answered (sent : Bool)

structure Tick where
  now : ℤ
  rest : List Reminder
  current : Option (Reminder × Phase)

structure State where
  /-- The times of the first tick and of the last one. -/
  span : Option (ℤ × ℤ)
  firedCache : String → Option ℤ
  ticks : List Tick
  setReminders : String → Flag
  /-- Whether the user is in the do-not-disturb window. -/
  quiet : String → Bool
  /-- The reminders that a tick at the time has called `notify` for. -/
  attempts : List (Reminder × ℤ)
  /-- Those that a tick at the time did not, as it failed or found the user in the window. -/
  skipped : List (Reminder × ℤ)
  /-- The reminders that reached a device, and the preference of the user then. -/
  deliveries : List (Reminder × Flag)

inductive Action where
  | tick (now : ℤ)
  /-- The festivals cannot be read. -/
  | tickFails (now : ℤ)
  | next (i : ℕ)
  | checked (i : ℕ) (ok : Bool)
  /-- `send` checks the preferences itself; it may fail after it has delivered. -/
  | send (i : ℕ) (delivered sent : Bool)
  | record (i : ℕ)
  /-- The rows of a festival cannot be read. -/
  | fail (i : ℕ)
  | done (i : ℕ)
  | savePrefs (userId : String) (on : Bool)
  | dnd (userId : String) (quiet : Bool)

/-- The value of one key changes. -/
def put {α : Type} (key : String) (value : α) (f : String → α) : String → α :=
  fun k => if k = key then value else f k

theorem put_apply {α : Type} (key : String) (value : α) (f : String → α) (k : String) :
    put key value f k = if k = key then value else f k := rfl

def cleanDedupCache (c : Config) (now : ℤ) (cache : String → Option ℤ) : String → Option ℤ :=
  fun k => (cache k).filter fun ts => ¬ ts < now - c.dedupTtl

theorem cleanDedupCache_eq_some {c : Config} {ts : ℤ} {cache : String → Option ℤ} {k : String} :
    cleanDedupCache c now cache k = some ts ↔ cache k = some ts ∧ now - c.dedupTtl ≤ ts := by
  simp [cleanDedupCache, filter_eq_some_iff]

/-- The time has not passed. -/
def timely (span : Option (ℤ × ℤ)) (now : ℤ) : Bool := span.all fun p => p.2 ≤ now

def extend (span : Option (ℤ × ℤ)) (now : ℤ) : Option (ℤ × ℤ) :=
  match span with
  | none => some (now, now)
  | some (first, _) => some (first, now)

@[grind =] def step (c : Config) (plan : Plan) (s : State) : Action → Option State
  | .tick now =>
      if timely s.span now then
        some { s with
          span := extend s.span now
          firedCache := cleanDedupCache c now s.firedCache
          ticks := s.ticks ++ [⟨now, plan.reminders, none⟩] }
      else none
  | .tickFails now =>
      if timely s.span now then
        some { s with
          span := extend s.span now
          skipped := s.skipped ++ plan.reminders.map (fun r => (r, now)) }
      else none
  | .next i =>
      match s.ticks[i]? with
      | some ⟨now, r :: rest, none⟩ =>
          if Due c now r ∧ s.firedCache r.dedupKey = none then
            some { s with ticks := s.ticks.set i ⟨now, rest, some (r, .checking)⟩ }
          else some { s with ticks := s.ticks.set i ⟨now, rest, none⟩ }
      | _ => none
  | .checked i ok =>
      match s.ticks[i]? with
      | some ⟨now, rest, some (r, .checking)⟩ =>
          if ok = true ∧ (s.setReminders r.userId).isFalse = true then
            some { s with ticks := s.ticks.set i ⟨now, rest, none⟩ }
          else if ok = true ∧ s.quiet r.userId = true then
            some { s with
              ticks := s.ticks.set i ⟨now, rest, none⟩
              skipped := s.skipped ++ [(r, now)] }
          else
            some { s with
              ticks := s.ticks.set i ⟨now, rest, some (r, .sending)⟩
              attempts := s.attempts ++ [(r, now)] }
      | _ => none
  | .send i delivered sent =>
      match s.ticks[i]? with
      | some ⟨now, rest, some (r, .sending)⟩ =>
          if (sent = true → delivered = true) ∧ (delivered = true →
              (s.setReminders r.userId).truthy = true ∧ s.quiet r.userId = false) then
            some { s with
              ticks := s.ticks.set i ⟨now, rest, some (r, .answered sent)⟩
              deliveries :=
                if delivered then s.deliveries ++ [(r, s.setReminders r.userId)]
                else s.deliveries }
          else none
      | _ => none
  | .record i =>
      match s.ticks[i]? with
      | some ⟨now, rest, some (r, .answered sent)⟩ =>
          some { s with
            ticks := s.ticks.set i ⟨now, rest, none⟩
            firedCache :=
              if sent then put r.dedupKey (some now) s.firedCache else s.firedCache }
      | _ => none
  | .fail i =>
      match s.ticks[i]? with
      | some ⟨now, rest, none⟩ =>
          some { s with
            ticks := s.ticks.eraseIdx i
            skipped := s.skipped ++ rest.map (fun r => (r, now)) }
      | _ => none
  | .done i =>
      match s.ticks[i]? with
      | some ⟨_, [], none⟩ => some { s with ticks := s.ticks.eraseIdx i }
      | _ => none
  | .savePrefs userId on => some { s with setReminders := put userId (stored on) s.setReminders }
  | .dnd userId quiet => some { s with quiet := put userId quiet s.quiet }

/-! ## What is promised -/

/-- A tick has the reminder before it. -/
def Tick.Pending (tick : Tick) (r : Reminder) : Prop :=
  r ∈ tick.rest ∨ tick.current = some (r, .checking)

/-- A tick in the window of the reminder has called `notify`, or could not. -/
def Settled (c : Config) (s : State) (r : Reminder) : Prop :=
  ∃ now, Due c now r ∧ ((r, now) ∈ s.attempts ∨ (r, now) ∈ s.skipped)

/-- Every reminder that was due since the first tick has been attempted in its window, or was
skipped in it by a tick that failed or found the user in a do-not-disturb window. -/
def Attempted (c : Config) (plan : Plan) (s : State) : Prop :=
  ∀ r ∈ plan.reminders, ∀ first last, s.span = some (first, last) → first ≤ r.fireAt →
    r.fireAt < last → (∀ tick ∈ s.ticks, ¬ tick.Pending r) → Settled c s r

/-- No reminder is delivered twice for the same user and set. -/
@[grind =] def Once (s : State) : Prop := UniqueKeys (fun d => d.1.dedupKey) s.deliveries

def OptedIn (s : State) : Prop := ∀ d ∈ s.deliveries, d.2.truthy = true

/-- No tick comes later than the tick interval after the one before. -/
def Gaps (c : Config) (s : State) : Action → Prop
  | .tick now | .tickFails now =>
      ∀ first last, s.span = some (first, last) → now ≤ last + c.tickInterval
  | _ => True

/-- A tick begins when none is under way, and no send fails after it has delivered. -/
def Apart (s : State) : Action → Prop
  | .tick _ | .tickFails _ => s.ticks = []
  | .send _ delivered sent => delivered = true → sent = true
  | _ => True

/-! ## The shape of a step -/

variable {c : Config} {plan : Plan} {s t : State} {i : ℕ} {a : Action} {tick : Tick}

theorem step_tick (h : step c plan s (.tick now) = some t) :
    timely s.span now = true ∧
      t = { s with
        span := extend s.span now
        firedCache := cleanDedupCache c now s.firedCache
        ticks := s.ticks ++ [⟨now, plan.reminders, none⟩] } := by
  obtain ⟨htimely, h⟩ := ite_none_right_eq_some.mp h
  exact ⟨htimely, (some.inj h).symm⟩

theorem step_tickFails (h : step c plan s (.tickFails now) = some t) :
    timely s.span now = true ∧
      t = { s with
        span := extend s.span now
        skipped := s.skipped ++ plan.reminders.map (fun r => (r, now)) } := by
  obtain ⟨htimely, h⟩ := ite_none_right_eq_some.mp h
  exact ⟨htimely, (some.inj h).symm⟩

theorem step_next (h : step c plan s (.next i) = some t) :
    ∃ now r rest, s.ticks[i]? = some ⟨now, r :: rest, none⟩ ∧
      ((Due c now r ∧ s.firedCache r.dedupKey = none ∧
          t = { s with ticks := s.ticks.set i ⟨now, rest, some (r, .checking)⟩ }) ∨
        (¬ (Due c now r ∧ s.firedCache r.dedupKey = none) ∧
          t = { s with ticks := s.ticks.set i ⟨now, rest, none⟩ })) := by
  simp only [step] at h
  split at h
  · rename_i now r rest hi
    refine ⟨now, r, rest, hi, ?_⟩
    split_ifs at h with hdue
    · exact .inl ⟨hdue.1, hdue.2, (some.inj h).symm⟩
    · exact .inr ⟨hdue, (some.inj h).symm⟩
  · cases h

theorem step_checked (h : step c plan s (.checked i ok) = some t) :
    ∃ now rest r, s.ticks[i]? = some ⟨now, rest, some (r, .checking)⟩ ∧
      (((s.setReminders r.userId).isFalse = true ∧
          t = { s with ticks := s.ticks.set i ⟨now, rest, none⟩ }) ∨
        t = { s with
          ticks := s.ticks.set i ⟨now, rest, none⟩
          skipped := s.skipped ++ [(r, now)] } ∨
        t = { s with
          ticks := s.ticks.set i ⟨now, rest, some (r, .sending)⟩
          attempts := s.attempts ++ [(r, now)] }) := by
  simp only [step] at h
  split at h
  · rename_i now rest r hi
    refine ⟨now, rest, r, hi, ?_⟩
    split_ifs at h with hfalse
    · exact .inl ⟨hfalse.2, (some.inj h).symm⟩
    · exact .inr (.inl (some.inj h).symm)
    · exact .inr (.inr (some.inj h).symm)
  · cases h

theorem step_send (h : step c plan s (.send i delivered sent) = some t) :
    ∃ now rest r, s.ticks[i]? = some ⟨now, rest, some (r, .sending)⟩ ∧
      (sent = true → delivered = true) ∧
      (delivered = true → (s.setReminders r.userId).truthy = true ∧ s.quiet r.userId = false) ∧
      t = { s with
        ticks := s.ticks.set i ⟨now, rest, some (r, .answered sent)⟩
        deliveries :=
          if delivered then s.deliveries ++ [(r, s.setReminders r.userId)] else s.deliveries } := by
  simp only [step] at h
  split at h
  · rename_i now rest r hi
    obtain ⟨⟨hsent, hdelivered⟩, h⟩ := ite_none_right_eq_some.mp h
    exact ⟨now, rest, r, hi, hsent, hdelivered, (some.inj h).symm⟩
  · cases h

theorem step_record (h : step c plan s (.record i) = some t) :
    ∃ now rest r sent, s.ticks[i]? = some ⟨now, rest, some (r, .answered sent)⟩ ∧
      t = { s with
        ticks := s.ticks.set i ⟨now, rest, none⟩
        firedCache := if sent then put r.dedupKey (some now) s.firedCache else s.firedCache } := by
  simp only [step] at h
  split at h
  · rename_i now rest r sent hi
    exact ⟨now, rest, r, sent, hi, (some.inj h).symm⟩
  · cases h

theorem step_fail (h : step c plan s (.fail i) = some t) :
    ∃ now rest, s.ticks[i]? = some ⟨now, rest, none⟩ ∧
      t = { s with
        ticks := s.ticks.eraseIdx i
        skipped := s.skipped ++ rest.map (fun r => (r, now)) } := by
  simp only [step] at h
  split at h
  · rename_i now rest hi
    exact ⟨now, rest, hi, (some.inj h).symm⟩
  · cases h

theorem step_done (h : step c plan s (.done i) = some t) :
    ∃ now, s.ticks[i]? = some ⟨now, [], none⟩ ∧ t = { s with ticks := s.ticks.eraseIdx i } := by
  simp only [step] at h
  split at h
  · rename_i now hi
    exact ⟨now, hi, (some.inj h).symm⟩
  · cases h

/-! ## Opted out -/

theorem optedIn_step (h : OptedIn s) (ht : step c plan s a = some t) : OptedIn t := by
  cases a with
  | tick now =>
    obtain ⟨-, rfl⟩ := step_tick ht
    exact h
  | tickFails now =>
    obtain ⟨-, rfl⟩ := step_tickFails ht
    exact h
  | next i => obtain ⟨now, r, rest, -, ⟨-, -, rfl⟩ | ⟨-, rfl⟩⟩ := step_next ht <;> exact h
  | checked i ok => obtain ⟨now, rest, r, -, ⟨-, rfl⟩ | rfl | rfl⟩ := step_checked ht <;> exact h
  | send i delivered sent =>
    obtain ⟨now, rest, r, -, -, hdelivered, rfl⟩ := step_send ht
    cases delivered with
    | false => exact h
    | true => exact forall_mem_append_singleton h (hdelivered rfl).1
  | record i =>
    obtain ⟨now, rest, r, sent, -, rfl⟩ := step_record ht
    exact h
  | fail i =>
    obtain ⟨now, rest, -, rfl⟩ := step_fail ht
    exact h
  | done i =>
    obtain ⟨now, -, rfl⟩ := step_done ht
    exact h
  | savePrefs userId on =>
    cases ht
    exact h
  | dnd userId quiet =>
    cases ht
    exact h

/-! ## Not missed -/

theorem extend_eq_some {span : Option (ℤ × ℤ)} {first last : ℤ}
    (h : extend span now = some (first, last)) :
    last = now ∧ ((span = none ∧ first = now) ∨ ∃ before, span = some (first, before)) := by
  cases span with
  | none =>
    cases h
    exact ⟨rfl, .inl ⟨rfl, rfl⟩⟩
  | some p =>
    cases h
    exact ⟨rfl, .inr ⟨p.2, rfl⟩⟩

/-- What a tick has before it is in the plan, and what it is at is in its window. -/
structure Tick.Sound (c : Config) (plan : Plan) (attempts : List (Reminder × ℤ)) (tick : Tick) :
    Prop where
  rest : ∀ r ∈ tick.rest, r ∈ plan.reminders
  current : ∀ r phase, tick.current = some (r, phase) → r ∈ plan.reminders ∧ Due c tick.now r ∧
    (phase ≠ .checking → (r, tick.now) ∈ attempts)

theorem Tick.Sound.mono {attempts attempts' : List (Reminder × ℤ)}
    (h : tick.Sound c plan attempts) (hsub : ∀ x ∈ attempts, x ∈ attempts') :
    tick.Sound c plan attempts' := by
  refine ⟨h.rest, fun r phase hcurrent => ?_⟩
  obtain ⟨hmem, hdue, hattempted⟩ := h.current r phase hcurrent
  exact ⟨hmem, hdue, fun hne => hsub _ (hattempted hne)⟩

def TicksSound (c : Config) (plan : Plan) (s : State) : Prop :=
  ∀ tick ∈ s.ticks, tick.Sound c plan s.attempts

theorem ticksSound_step (h : TicksSound c plan s) (ht : step c plan s a = some t) :
    TicksSound c plan t := by
  cases a with
  | tick now =>
    obtain ⟨-, rfl⟩ := step_tick ht
    exact forall_mem_append_singleton h ⟨fun r hr => hr, fun _ _ => (nomatch ·)⟩
  | tickFails now =>
    obtain ⟨-, rfl⟩ := step_tickFails ht
    exact h
  | next i =>
    obtain ⟨now, r, rest, hi, hcases⟩ := step_next ht
    have hsound := h _ (mem_of_getElem? hi)
    have hrest : ∀ x ∈ rest, x ∈ plan.reminders :=
      fun x hx => hsound.rest x (mem_cons_of_mem r hx)
    rcases hcases with ⟨hdue, -, rfl⟩ | ⟨-, rfl⟩
    · refine forall_mem_set h ⟨hrest, ?_⟩
      rintro _ _ ⟨rfl, rfl⟩
      exact ⟨hsound.rest r mem_cons_self, hdue, fun hne => absurd rfl hne⟩
    · exact forall_mem_set h ⟨hrest, fun _ _ => (nomatch ·)⟩
  | checked i ok =>
    obtain ⟨now, rest, r, hi, hcases⟩ := step_checked ht
    have hsound := h _ (mem_of_getElem? hi)
    obtain ⟨hmem, hdue, -⟩ := hsound.current r _ rfl
    rcases hcases with ⟨-, rfl⟩ | rfl | rfl
    · exact forall_mem_set h ⟨hsound.rest, fun _ _ => (nomatch ·)⟩
    · exact forall_mem_set h ⟨hsound.rest, fun _ _ => (nomatch ·)⟩
    · refine forall_mem_set (fun x hx => (h x hx).mono fun _ hx => mem_append_left _ hx)
        ⟨hsound.rest, ?_⟩
      rintro _ _ ⟨rfl, rfl⟩
      exact ⟨hmem, hdue, fun _ => by simp⟩
  | send i delivered sent =>
    obtain ⟨now, rest, r, hi, -, -, rfl⟩ := step_send ht
    have hsound := h _ (mem_of_getElem? hi)
    obtain ⟨hmem, hdue, hattempted⟩ := hsound.current r _ rfl
    refine forall_mem_set h ⟨hsound.rest, ?_⟩
    rintro _ _ ⟨rfl, rfl⟩
    exact ⟨hmem, hdue, fun _ => hattempted (by simp)⟩
  | record i =>
    obtain ⟨now, rest, r, sent, hi, rfl⟩ := step_record ht
    have hsound := h _ (mem_of_getElem? hi)
    exact forall_mem_set h ⟨hsound.rest, fun _ _ => (nomatch ·)⟩
  | fail i =>
    obtain ⟨now, rest, -, rfl⟩ := step_fail ht
    exact fun x hx => h x (mem_of_mem_eraseIdx hx)
  | done i =>
    obtain ⟨now, -, rfl⟩ := step_done ht
    exact fun x hx => h x (mem_of_mem_eraseIdx hx)
  | savePrefs userId on =>
    cases ht
    exact h
  | dnd userId quiet =>
    cases ht
    exact h

/-- A tick in the window has the reminder before it. -/
def Ahead (c : Config) (s : State) (r : Reminder) : Prop :=
  ∃ tick ∈ s.ticks, Due c tick.now r ∧ tick.Pending r

structure Seen (c : Config) (plan : Plan) (s : State) : Prop where
  prefs : ∀ userId, (s.setReminders userId).isFalse = false
  cached : ∀ k ts, s.firedCache k = some ts → ∃ r ∈ plan.reminders, r.dedupKey = k ∧ Settled c s r
  left : ∀ r ∈ plan.reminders, ∀ first last, s.span = some (first, last) → first ≤ r.fireAt →
    r.fireAt - c.fireWindow ≤ last → Settled c s r ∨ Ahead c s r

/-- What is recorded is only added to. -/
structure Adds (s t : State) : Prop where
  attempts : ∀ x ∈ s.attempts, x ∈ t.attempts
  skipped : ∀ x ∈ s.skipped, x ∈ t.skipped

theorem Settled.adds (h : Settled c s r) (hadds : Adds s t) : Settled c t r := by
  obtain ⟨now, hdue, hrecorded⟩ := h
  exact ⟨now, hdue, hrecorded.imp (hadds.attempts _) (hadds.skipped _)⟩

/-- A step of one tick keeps what is seen when the tick's own reminders are settled or still before
it. -/
theorem Seen.of_tick (h : Seen c plan s) (tick : Tick) (hspan : t.span = s.span)
    (hprefs : t.setReminders = s.setReminders) (hadds : Adds s t)
    (hcached : ∀ k ts, t.firedCache k = some ts → s.firedCache k = some ts ∨
      ∃ r ∈ plan.reminders, r.dedupKey = k ∧ Settled c t r)
    (hothers : ∀ x ∈ s.ticks, x = tick ∨ x ∈ t.ticks)
    (hown : ∀ r ∈ plan.reminders, Due c tick.now r → tick.Pending r →
      Settled c t r ∨ Ahead c t r) : Seen c plan t := by
  refine ⟨?_, fun k ts hk => ?_, fun r hr first last hlast hfirst hopen => ?_⟩
  · rw [hprefs]
    exact h.prefs
  · rcases hcached k ts hk with hk | hnew
    · obtain ⟨r, hr, hkey, hsettled⟩ := h.cached k ts hk
      exact ⟨r, hr, hkey, hsettled.adds hadds⟩
    · exact hnew
  · rw [hspan] at hlast
    rcases h.left r hr first last hlast hfirst hopen with hsettled | ⟨x, hx, hdue, hpending⟩
    · exact .inl (hsettled.adds hadds)
    · rcases hothers x hx with rfl | hx
      · exact hown r hr hdue hpending
      · exact .inr ⟨x, hx, hdue, hpending⟩

/-- A tick that comes in time leaves no window between it and the one before. -/
theorem Seen.left_extend (h : Seen c plan s) (hwindow : c.tickInterval ≤ c.fireWindow)
    (hgap : ∀ first last, s.span = some (first, last) → now ≤ last + c.tickInterval)
    (hr : r ∈ plan.reminders) {first last : ℤ} (hspan : extend s.span now = some (first, last))
    (hfirst : first ≤ r.fireAt) (hopen : r.fireAt - c.fireWindow ≤ last) :
    Due c now r ∨ Settled c s r ∨ Ahead c s r := by
  obtain ⟨rfl, ⟨-, rfl⟩ | ⟨before, hbefore⟩⟩ := extend_eq_some hspan
  · exact .inl (due_iff.mpr ⟨hopen, hfirst⟩)
  · by_cases hseen : r.fireAt - c.fireWindow ≤ before
    · exact .inr (h.left r hr first before hbefore hfirst hseen)
    · have hle := hgap first before hbefore
      exact .inl (due_iff.mpr ⟨hopen, by omega⟩)

theorem seen_tick (h : Seen c plan s) (hwindow : c.tickInterval ≤ c.fireWindow)
    (hgap : ∀ first last, s.span = some (first, last) → now ≤ last + c.tickInterval)
    (ht : step c plan s (.tick now) = some t) : Seen c plan t := by
  obtain ⟨-, rfl⟩ := step_tick ht
  refine ⟨h.prefs, fun k ts hk => ?_, fun r hr first last hspan hfirst hopen => ?_⟩
  · exact h.cached k ts (cleanDedupCache_eq_some.mp hk).1
  · rcases h.left_extend hwindow hgap hr hspan hfirst hopen with hdue | hsettled | hahead
    · exact .inr ⟨⟨now, plan.reminders, none⟩, by simp, hdue, .inl hr⟩
    · exact .inl hsettled
    · obtain ⟨x, hx, hdue, hpending⟩ := hahead
      exact .inr ⟨x, mem_append_left _ hx, hdue, hpending⟩

theorem seen_tickFails (h : Seen c plan s) (hwindow : c.tickInterval ≤ c.fireWindow)
    (hgap : ∀ first last, s.span = some (first, last) → now ≤ last + c.tickInterval)
    (ht : step c plan s (.tickFails now) = some t) : Seen c plan t := by
  obtain ⟨-, rfl⟩ := step_tickFails ht
  have hadds : Adds s { s with
      span := extend s.span now
      skipped := s.skipped ++ plan.reminders.map (fun r => (r, now)) } :=
    ⟨fun _ hx => hx, fun _ hx => mem_append_left _ hx⟩
  refine ⟨h.prefs, fun k ts hk => ?_, fun r hr first last hspan hfirst hopen => ?_⟩
  · obtain ⟨r, hr, hkey, hsettled⟩ := h.cached k ts hk
    exact ⟨r, hr, hkey, hsettled.adds hadds⟩
  · rcases h.left_extend hwindow hgap hr hspan hfirst hopen with hdue | hsettled | hahead
    · exact .inl ⟨now, hdue, .inr (mem_append_right _ (List.mem_map_of_mem hr))⟩
    · exact .inl (hsettled.adds hadds)
    · exact .inr hahead

theorem seen_next (h : Seen c plan s) (ht : step c plan s (.next i) = some t) :
    Seen c plan t := by
  obtain ⟨now, r, rest, hi, hcases⟩ := step_next ht
  rcases hcases with ⟨-, -, rfl⟩ | ⟨hnot, rfl⟩
  · refine h.of_tick ⟨now, r :: rest, none⟩ rfl rfl ⟨fun _ hx => hx, fun _ hx => hx⟩
      (fun _ _ hk => .inl hk) (fun x hx => mem_set_or hi hx _)
      fun x _ hdue hpending => .inr ⟨_, mem_set_self hi _, hdue, ?_⟩
    rcases hpending with hmem | hnone
    · rcases mem_cons.mp hmem with rfl | hmem
      · exact .inr rfl
      · exact .inl hmem
    · cases hnone
  · refine h.of_tick ⟨now, r :: rest, none⟩ rfl rfl ⟨fun _ hx => hx, fun _ hx => hx⟩
      (fun _ _ hk => .inl hk) (fun x hx => mem_set_or hi hx _) fun x hx hdue hpending => ?_
    rcases hpending with hmem | hnone
    · rcases mem_cons.mp hmem with rfl | hmem
      · obtain ⟨ts, hts⟩ := ne_none_iff_exists'.mp fun hcache => hnot ⟨hdue, hcache⟩
        obtain ⟨x', hx', hkey, hsettled⟩ := h.cached _ ts hts
        obtain rfl := UniqueKeys.eq_of_mem plan.unique hx' hx hkey
        exact .inl hsettled
      · exact .inr ⟨_, mem_set_self hi _, hdue, .inl hmem⟩
    · cases hnone

theorem seen_checked (h : Seen c plan s) (ht : step c plan s (.checked i ok) = some t) :
    Seen c plan t := by
  obtain ⟨now, rest, r, hi, hcases⟩ := step_checked ht
  rcases hcases with ⟨hfalse, -⟩ | rfl | rfl
  · rw [h.prefs] at hfalse
    cases hfalse
  · refine h.of_tick ⟨now, rest, some (r, .checking)⟩ rfl rfl
      ⟨fun _ hx => hx, fun _ hx => mem_append_left _ hx⟩ (fun _ _ hk => .inl hk)
      (fun x hx => mem_set_or hi hx _) fun x _ hdue hpending => ?_
    rcases hpending with hin | hcurrent
    · exact .inr ⟨_, mem_set_self hi _, hdue, .inl hin⟩
    · cases hcurrent
      exact .inl ⟨now, hdue, .inr (by simp)⟩
  · refine h.of_tick ⟨now, rest, some (r, .checking)⟩ rfl rfl
      ⟨fun _ hx => mem_append_left _ hx, fun _ hx => hx⟩ (fun _ _ hk => .inl hk)
      (fun x hx => mem_set_or hi hx _) fun x _ hdue hpending => ?_
    rcases hpending with hin | hcurrent
    · exact .inr ⟨_, mem_set_self hi _, hdue, .inl hin⟩
    · cases hcurrent
      exact .inl ⟨now, hdue, .inl (by simp)⟩

theorem seen_send (h : Seen c plan s) (ht : step c plan s (.send i delivered sent) = some t) :
    Seen c plan t := by
  obtain ⟨now, rest, r, hi, -, -, rfl⟩ := step_send ht
  refine h.of_tick ⟨now, rest, some (r, .sending)⟩ rfl rfl
    ⟨fun _ hx => hx, fun _ hx => hx⟩ (fun _ _ hk => .inl hk) (fun x hx => mem_set_or hi hx _)
    fun x _ hdue hpending => ?_
  rcases hpending with hin | hcurrent
  · exact .inr ⟨_, mem_set_self hi _, hdue, .inl hin⟩
  · cases hcurrent

theorem seen_record (hsound : TicksSound c plan s) (h : Seen c plan s)
    (ht : step c plan s (.record i) = some t) : Seen c plan t := by
  obtain ⟨now, rest, r, sent, hi, rfl⟩ := step_record ht
  obtain ⟨hmem, hdue, hattempted⟩ := (hsound _ (mem_of_getElem? hi)).current r _ rfl
  refine h.of_tick ⟨now, rest, some (r, .answered sent)⟩ rfl rfl
    ⟨fun _ hx => hx, fun _ hx => hx⟩ (fun k ts hk => ?_) (fun x hx => mem_set_or hi hx _)
    fun x _ hdue' hpending => ?_
  · cases sent with
    | false => exact .inl hk
    | true =>
      simp only [if_true, put_apply] at hk
      split_ifs at hk with hkey
      · exact .inr ⟨r, hmem, hkey.symm, now, hdue, .inl (hattempted (by simp))⟩
      · exact .inl hk
  · rcases hpending with hin | hcurrent
    · exact .inr ⟨_, mem_set_self hi _, hdue', .inl hin⟩
    · cases hcurrent

theorem seen_fail (h : Seen c plan s) (ht : step c plan s (.fail i) = some t) : Seen c plan t := by
  obtain ⟨now, rest, hi, rfl⟩ := step_fail ht
  refine h.of_tick ⟨now, rest, none⟩ rfl rfl
    ⟨fun _ hx => hx, fun _ hx => mem_append_left _ hx⟩ (fun _ _ hk => .inl hk)
    (fun x hx => mem_eraseIdx_or hi hx) fun x _ hdue hpending => ?_
  rcases hpending with hin | hcurrent
  · exact .inl ⟨now, hdue, .inr (mem_append_right _ (List.mem_map_of_mem hin))⟩
  · cases hcurrent

theorem seen_done (h : Seen c plan s) (ht : step c plan s (.done i) = some t) : Seen c plan t := by
  obtain ⟨now, hi, rfl⟩ := step_done ht
  refine h.of_tick ⟨now, [], none⟩ rfl rfl
    ⟨fun _ hx => hx, fun _ hx => hx⟩ (fun _ _ hk => .inl hk)
    (fun x hx => mem_eraseIdx_or hi hx) fun x _ _ hpending => ?_
  rcases hpending with hin | hcurrent
  · cases hin
  · cases hcurrent

theorem seen_step (hwindow : c.tickInterval ≤ c.fireWindow) (hsound : TicksSound c plan s)
    (h : Seen c plan s) (hgap : Gaps c s a) (ht : step c plan s a = some t) : Seen c plan t := by
  cases a with
  | tick now => exact seen_tick h hwindow hgap ht
  | tickFails now => exact seen_tickFails h hwindow hgap ht
  | next i => exact seen_next h ht
  | checked i ok => exact seen_checked h ht
  | send i delivered sent => exact seen_send h ht
  | record i => exact seen_record hsound h ht
  | fail i => exact seen_fail h ht
  | done i => exact seen_done h ht
  | savePrefs userId on =>
    cases ht
    refine ⟨fun u => ?_, h.cached, h.left⟩
    simp only [put_apply]
    split_ifs
    · rfl
    · exact h.prefs u
  | dnd userId quiet =>
    cases ht
    exact ⟨h.prefs, h.cached, h.left⟩

theorem Seen.attempted (h : Seen c plan s) : Attempted c plan s := by
  intro r hr first last hspan hfirst hpassed hnone
  have hopen : r.fireAt - c.fireWindow ≤ last := by
    have := c.fireWindow_min
    omega
  refine (h.left r hr first last hspan hfirst hopen).resolve_right ?_
  rintro ⟨tick, htick, -, hpending⟩
  exact hnone tick htick hpending

/-! ## Not twice -/

/-- The reminder was delivered, and the tick is about to record it, or it is recorded for as long
as its window is open. -/
def Recorded (c : Config) (s : State) (r : Reminder) : Prop :=
  (∃ tick ∈ s.ticks, tick.current = some (r, .answered true)) ∨
    (∃ ts, s.firedCache r.dedupKey = some ts ∧ r.fireAt - c.fireWindow ≤ ts) ∨
    ∃ first last, s.span = some (first, last) ∧ r.fireAt < last

structure Fired (c : Config) (plan : Plan) (s : State) : Prop where
  single : ∀ tick ∈ s.ticks, s.ticks = [tick]
  now : ∀ tick ∈ s.ticks, ∃ first, s.span = some (first, tick.now)
  /-- What a tick is at has not been delivered. -/
  fresh : ∀ tick ∈ s.ticks, ∀ r phase, tick.current = some (r, phase) → phase ≠ .answered true →
    ∀ d ∈ s.deliveries, d.1.dedupKey ≠ r.dedupKey
  delivered : ∀ d ∈ s.deliveries, d.1 ∈ plan.reminders ∧ Recorded c s d.1
  once : Once s

theorem Fired.ticks_eq (h : Fired c plan s) (hi : s.ticks[i]? = some tick) :
    s.ticks = [tick] ∧ i = 0 := by
  have heq := h.single tick (mem_of_getElem? hi)
  rw [heq] at hi
  cases i with
  | zero => exact ⟨heq, rfl⟩
  | succ i => simp at hi

/-- A delivered reminder in the window of a tick is recorded, or the tick is about to record it. -/
theorem Fired.cached_of_due (h : Fired c plan s) (htick : tick ∈ s.ticks)
    (hrecorded : Recorded c s r) (hdue : Due c tick.now r) :
    tick.current = some (r, .answered true) ∨ s.firedCache r.dedupKey ≠ none := by
  rcases hrecorded with ⟨x, hx, hcurrent⟩ | ⟨ts, hts, -⟩ | ⟨first, last, hspan, hpassed⟩
  · have heq := h.single tick htick
    rw [heq, mem_singleton] at hx
    exact .inl (hx ▸ hcurrent)
  · exact .inr (by simp [hts])
  · obtain ⟨first', hnow⟩ := h.now tick htick
    obtain ⟨-, rfl⟩ := Prod.mk.inj (some.inj (hspan.symm.trans hnow))
    have := (due_iff.mp hdue).2
    omega

/-- A time that has not passed comes after the windows that have. -/
theorem passed_extend {span : Option (ℤ × ℤ)} (htimely : timely span now = true)
    (h : ∃ first last, span = some (first, last) ∧ r.fireAt < last) :
    ∃ first last, extend span now = some (first, last) ∧ r.fireAt < last := by
  obtain ⟨first, last, rfl, hpassed⟩ := h
  have hle : last ≤ now := by simpa [timely] using htimely
  exact ⟨first, now, rfl, by omega⟩

theorem extend_now (span : Option (ℤ × ℤ)) (now : ℤ) :
    ∃ first, extend span now = some (first, now) := by
  cases span with
  | none => exact ⟨now, rfl⟩
  | some p => exact ⟨p.1, rfl⟩

theorem fired_tick (httl : c.fireWindow ≤ c.dedupTtl) (h : Fired c plan s) (hnone : s.ticks = [])
    (ht : step c plan s (.tick now) = some t) : Fired c plan t := by
  obtain ⟨htimely, rfl⟩ := step_tick ht
  obtain ⟨first, hextend⟩ := extend_now s.span now
  refine ⟨?_, ?_, ?_, fun d hd => ?_, h.once⟩
  · simp [hnone]
  · simp only [hnone, nil_append, mem_singleton]
    rintro _ rfl
    exact ⟨first, hextend⟩
  · simp [hnone]
  · obtain ⟨hmem, hrecorded⟩ := h.delivered d hd
    refine ⟨hmem, .inr ?_⟩
    rcases hrecorded with ⟨x, hx, -⟩ | ⟨ts, hts, hle⟩ | hpassed
    · rw [hnone] at hx
      cases hx
    · by_cases hkept : now - c.dedupTtl ≤ ts
      · exact .inl ⟨ts, cleanDedupCache_eq_some.mpr ⟨hts, hkept⟩, hle⟩
      · exact .inr ⟨first, now, hextend, by omega⟩
    · exact .inr (passed_extend htimely hpassed)

theorem fired_tickFails (h : Fired c plan s) (hnone : s.ticks = [])
    (ht : step c plan s (.tickFails now) = some t) : Fired c plan t := by
  obtain ⟨htimely, rfl⟩ := step_tickFails ht
  refine ⟨h.single, ?_, h.fresh, fun d hd => ?_, h.once⟩
  · simp [hnone]
  · obtain ⟨hmem, hrecorded⟩ := h.delivered d hd
    refine ⟨hmem, hrecorded.imp_right fun hrest => ?_⟩
    exact hrest.imp_right fun hpassed => passed_extend htimely hpassed

/-- The tick moves on, and delivers nothing. -/
theorem Fired.of_tick (h : Fired c plan s) {tick' : Tick} (hi : s.ticks[i]? = some tick)
    (hticks : t.ticks = s.ticks.set i tick') (hspan : t.span = s.span)
    (hdeliveries : t.deliveries = s.deliveries) (hnow : tick'.now = tick.now)
    (hfresh : ∀ r phase, tick'.current = some (r, phase) → phase ≠ .answered true →
      ∀ d ∈ s.deliveries, d.1.dedupKey ≠ r.dedupKey)
    (hdelivered : ∀ d ∈ s.deliveries, d.1 ∈ plan.reminders → Recorded c s d.1 →
      Recorded c t d.1) : Fired c plan t := by
  obtain ⟨heq, rfl⟩ := h.ticks_eq hi
  have hone : t.ticks = [tick'] := by rw [hticks, heq, set_cons_zero]
  refine ⟨?_, ?_, ?_, fun d hd => ?_, ?_⟩
  · rw [hone]
    simp
  · rw [hone, hspan]
    simpa [hnow] using h.now tick (by simp [heq])
  · rw [hone, hdeliveries]
    simpa using hfresh
  · rw [hdeliveries] at hd
    obtain ⟨hmem, hrecorded⟩ := h.delivered d hd
    exact ⟨hmem, hdelivered d hd hmem hrecorded⟩
  · rw [Once, hdeliveries]
    exact h.once

/-- The tick is over. -/
theorem Fired.of_erase (h : Fired c plan s) (hi : s.ticks[i]? = some tick)
    (hcurrent : tick.current = none) (hticks : t.ticks = s.ticks.eraseIdx i)
    (hspan : t.span = s.span) (hcache : t.firedCache = s.firedCache)
    (hdeliveries : t.deliveries = s.deliveries) : Fired c plan t := by
  obtain ⟨heq, rfl⟩ := h.ticks_eq hi
  have hnone : t.ticks = [] := by rw [hticks, heq, eraseIdx_zero, tail_cons]
  refine ⟨?_, ?_, ?_, fun d hd => ?_, ?_⟩
  · simp [hnone]
  · simp [hnone]
  · simp [hnone]
  · rw [hdeliveries] at hd
    obtain ⟨hmem, hrecorded⟩ := h.delivered d hd
    refine ⟨hmem, .inr ?_⟩
    rw [hcache, hspan]
    refine hrecorded.resolve_left ?_
    rintro ⟨x, hx, hanswered⟩
    rw [heq, mem_singleton] at hx
    rw [hx, hcurrent] at hanswered
    cases hanswered
  · rw [Once, hdeliveries]
    exact h.once

/-- What a tick that is not about to record a delivery leaves recorded. -/
theorem Recorded.of_tick (h : Recorded c s r) (hcurrent : ∀ x ∈ s.ticks, x = tick ∨ x ∈ t.ticks)
    (hnot : tick.current ≠ some (r, .answered true)) (hspan : t.span = s.span)
    (hcache : t.firedCache = s.firedCache) : Recorded c t r := by
  rcases h with ⟨x, hx, hanswered⟩ | hrest
  · rcases hcurrent x hx with rfl | hx
    · exact absurd hanswered hnot
    · exact .inl ⟨x, hx, hanswered⟩
  · rw [← hcache, ← hspan] at hrest
    exact .inr hrest

theorem fired_next (hsound : TicksSound c plan s) (h : Fired c plan s)
    (ht : step c plan s (.next i) = some t) : Fired c plan t := by
  obtain ⟨now, r, rest, hi, hcases⟩ := step_next ht
  have htick := mem_of_getElem? hi
  have hmem := (hsound _ htick).rest r mem_cons_self
  rcases hcases with ⟨hdue, hcache, rfl⟩ | ⟨-, rfl⟩
  · refine h.of_tick hi rfl rfl rfl rfl ?_ fun d _ _ hrecorded => hrecorded.of_tick
      (fun x hx => mem_set_or hi hx _) (by simp) rfl rfl
    rintro _ _ ⟨rfl, rfl⟩ - d hd hkey
    obtain ⟨hd, hrecorded⟩ := h.delivered d hd
    obtain rfl := UniqueKeys.eq_of_mem plan.unique hd hmem hkey
    rcases h.cached_of_due htick hrecorded hdue with hcurrent | hcached
    · cases hcurrent
    · exact hcached hcache
  · exact h.of_tick hi rfl rfl rfl rfl (fun _ _ => (nomatch ·)) fun d _ _ hrecorded =>
      hrecorded.of_tick (fun x hx => mem_set_or hi hx _) (by simp) rfl rfl

theorem fired_checked (h : Fired c plan s) (ht : step c plan s (.checked i ok) = some t) :
    Fired c plan t := by
  obtain ⟨now, rest, r, hi, hcases⟩ := step_checked ht
  have hfresh := h.fresh _ (mem_of_getElem? hi) r .checking rfl (by simp)
  rcases hcases with ⟨-, rfl⟩ | rfl | rfl
  · exact h.of_tick hi rfl rfl rfl rfl (fun _ _ => (nomatch ·)) fun d _ _ hrecorded =>
      hrecorded.of_tick (fun x hx => mem_set_or hi hx _) (by simp) rfl rfl
  · exact h.of_tick hi rfl rfl rfl rfl (fun _ _ => (nomatch ·)) fun d _ _ hrecorded =>
      hrecorded.of_tick (fun x hx => mem_set_or hi hx _) (by simp) rfl rfl
  · refine h.of_tick hi rfl rfl rfl rfl ?_ fun d _ _ hrecorded =>
      hrecorded.of_tick (fun x hx => mem_set_or hi hx _) (by simp) rfl rfl
    rintro _ _ ⟨rfl, rfl⟩ -
    exact hfresh

theorem fired_send (hsound : TicksSound c plan s) (h : Fired c plan s)
    (hreported : delivered = true → sent = true)
    (ht : step c plan s (.send i delivered sent) = some t) : Fired c plan t := by
  obtain ⟨now, rest, r, hi, hsent, -, rfl⟩ := step_send ht
  have htick := mem_of_getElem? hi
  have hfresh := h.fresh _ htick r .sending rfl (by simp)
  obtain ⟨hmem, -, -⟩ := (hsound _ htick).current r _ rfl
  cases delivered with
  | false =>
    refine h.of_tick hi rfl rfl rfl rfl ?_ fun d _ _ hrecorded =>
      hrecorded.of_tick (fun x hx => mem_set_or hi hx _) (by simp) rfl rfl
    rintro _ _ ⟨rfl, rfl⟩ -
    exact hfresh
  | true =>
    obtain rfl := hreported rfl
    obtain ⟨heq, rfl⟩ := h.ticks_eq hi
    refine ⟨?_, ?_, ?_, forall_mem_append_singleton ?_ ?_, ?_⟩
    · simp [heq]
    · simpa [heq] using h.now _ htick
    · simp [heq]
    · intro d hd
      obtain ⟨hdmem, hrecorded⟩ := h.delivered d hd
      exact ⟨hdmem, hrecorded.of_tick (fun x hx => mem_set_or hi hx _) (by simp) rfl rfl⟩
    · exact ⟨hmem, .inl ⟨_, mem_set_self hi _, rfl⟩⟩
    · rw [Once, UniqueKeys, if_pos rfl, map_append, nodup_append]
      refine ⟨h.once, by simp, fun a ha b hb => ?_⟩
      obtain ⟨d, hd, rfl⟩ := List.mem_map.mp ha
      obtain rfl := mem_singleton.mp hb
      exact hfresh d hd

theorem fired_record (hsound : TicksSound c plan s) (h : Fired c plan s)
    (ht : step c plan s (.record i) = some t) : Fired c plan t := by
  obtain ⟨now, rest, r, sent, hi, rfl⟩ := step_record ht
  obtain ⟨hmem, hdue, -⟩ := (hsound _ (mem_of_getElem? hi)).current r _ rfl
  refine h.of_tick hi rfl rfl rfl rfl (fun _ _ => (nomatch ·)) fun d _ hd hrecorded => ?_
  cases sent with
  | false => exact hrecorded.of_tick (fun x hx => mem_set_or hi hx _) (by simp) rfl rfl
  | true =>
    by_cases hkey : d.1.dedupKey = r.dedupKey
    · obtain heq := UniqueKeys.eq_of_mem plan.unique hd hmem hkey
      refine .inr (.inl ⟨now, ?_, ?_⟩)
      · simp [put_apply, hkey]
      · rw [heq]
        exact (due_iff.mp hdue).1
    · rcases hrecorded with ⟨x, hx, hanswered⟩ | ⟨ts, hts, hle⟩ | hpassed
      · rcases mem_set_or hi hx ⟨now, rest, none⟩ with rfl | hx
        · cases hanswered
          exact absurd rfl hkey
        · exact .inl ⟨x, hx, hanswered⟩
      · exact .inr (.inl ⟨ts, by simp [put_apply, hkey, hts], hle⟩)
      · exact .inr (.inr hpassed)

theorem fired_step (httl : c.fireWindow ≤ c.dedupTtl) (hsound : TicksSound c plan s)
    (h : Fired c plan s) (hapart : Apart s a) (ht : step c plan s a = some t) : Fired c plan t := by
  cases a with
  | tick now => exact fired_tick httl h hapart ht
  | tickFails now => exact fired_tickFails h hapart ht
  | next i => exact fired_next hsound h ht
  | checked i ok => exact fired_checked h ht
  | send i delivered sent => exact fired_send hsound h hapart ht
  | record i => exact fired_record hsound h ht
  | fail i =>
    obtain ⟨now, rest, hi, rfl⟩ := step_fail ht
    exact h.of_erase hi rfl rfl rfl rfl rfl
  | done i =>
    obtain ⟨now, hi, rfl⟩ := step_done ht
    exact h.of_erase hi rfl rfl rfl rfl rfl
  | savePrefs userId on =>
    cases ht
    exact ⟨h.single, h.now, h.fresh, h.delivered, h.once⟩
  | dnd userId quiet =>
    cases ht
    exact ⟨h.single, h.now, h.fresh, h.delivered, h.once⟩

/-! ## Whole runs -/

/-- The scheduler is started; some users have switched reminders off. -/
def start (on quiet : String → Bool) : State :=
  { span := none
    firedCache := fun _ => none
    ticks := []
    setReminders := fun userId => stored (on userId)
    quiet := quiet
    attempts := []
    skipped := []
    deliveries := [] }

section Runs

variable {on quiet : String → Bool}

theorem ticksSound_start : TicksSound c plan (start on quiet) := fun _ => (nomatch ·)

theorem seen_start : Seen c plan (start on quiet) :=
  ⟨fun _ => rfl, fun _ _ => (nomatch ·), fun _ _ _ _ => (nomatch ·)⟩

theorem fired_start : Fired c plan (start on quiet) :=
  ⟨fun _ => (nomatch ·), fun _ => (nomatch ·), fun _ => (nomatch ·), fun _ => (nomatch ·),
    nodup_nil⟩

/-- A property that the steps which meet a condition keep, together with the soundness of ticks,
holds throughout a run whose steps meet it. -/
theorem always_of_meets {I P : State → Prop} {C : State → Action → Prop}
    (hstep : ∀ s a t, TicksSound c plan s → I s → C s a → step c plan s a = some t → I t)
    (hP : ∀ s, I s → P s) (hI : I (start on quiet)) {as : List Action}
    (hC : Meets (step c plan) C (start on quiet) as) :
    Always (step c plan) P (start on quiet) as := by
  rw [always_iff_each]
  refine ⟨hP _ hI, ?_⟩
  have hsound : TicksSound c plan (start on quiet) := ticksSound_start
  refine each_of_meets (I := fun s => TicksSound c plan s ∧ I s) ?_ ?_ ⟨hsound, hI⟩ hC
  · rintro s a t ⟨hs, h⟩ ha ht
    exact ⟨ticksSound_step hs ht, hstep s a t hs h ha ht⟩
  · rintro s a t ⟨hs, h⟩ ha ht
    exact hP t (hstep s a t hs h ha ht)

/-- Ticks whose gaps do not exceed the interval attempt every reminder in its window, except where a
tick in it fails or finds the user in a do-not-disturb window; ticks that do not overlap deliver none
twice; and none is delivered to a user who has opted out. -/
theorem reminders_of_run (hwindow : c.tickInterval ≤ c.fireWindow) (httl : c.fireWindow ≤ c.dedupTtl)
    (as : List Action) :
    (Machine.Meets (step c plan) (Gaps c) (start on quiet) as →
      Machine.Always (step c plan) (Attempted c plan) (start on quiet) as) ∧
    (Machine.Meets (step c plan) Apart (start on quiet) as →
      Machine.Always (step c plan) Once (start on quiet) as) ∧
    Machine.Always (step c plan) OptedIn (start on quiet) as := by
  refine ⟨fun hgaps => ?_, fun hapart => ?_, ?_⟩
  · exact always_of_meets (fun s a t hs h hgap ht => seen_step hwindow hs h hgap ht)
      (fun s h => h.attempted) seen_start hgaps
  · exact always_of_meets (fun s a t hs h ha ht => fired_step httl hs h ha ht)
      (fun s h => h.once) fired_start hapart
  · exact Machine.always_of_step (fun s a t h ht => optedIn_step h ht) (fun s h => h)
      fun _ => (nomatch ·)

end Runs

/-! ## A reminder that is due a quarter of an hour before the set -/

def oneReminder : Plan :=
  { festivals :=
      [{ sets := [⟨"s", some 1000000⟩]
         profiles := [⟨"u", [("s", 15)]⟩] }]
    unique := by decide }

def everyone : String → Bool := fun _ => true

def nobody : String → Bool := fun _ => false

/-- Two ticks in the window, and one after it. -/
def punctual : List Action :=
  [.tick 40000, .next 0, .checked 0 true, .send 0 true true, .record 0, .done 0,
    .tick 100000, .next 0, .done 0,
    .tick 160000, .next 0, .done 0]

theorem punctual_reminds :
    (∃ t, Machine.run (step DEFAULTS oneReminder) (start everyone nobody) punctual = some t ∧
      t.attempts.length = 1) ∧
    Machine.Always (step DEFAULTS oneReminder) (Attempted DEFAULTS oneReminder)
      (start everyone nobody) punctual ∧
    Machine.Always (step DEFAULTS oneReminder) Once (start everyone nobody) punctual ∧
    Machine.Always (step DEFAULTS oneReminder) OptedIn (start everyone nobody) punctual := by
  refine ⟨⟨_, rfl, rfl⟩, ?_, ?_, ?_⟩
  · apply (reminders_of_run (by decide) (by decide) punctual).1
    refine ⟨fun _ _ => (nomatch ·), trivial, trivial, trivial, trivial, trivial, ?_, trivial,
      trivial, ?_, trivial, trivial, trivial⟩
    all_goals
      rintro _ _ ⟨rfl⟩
      decide
  · apply (reminders_of_run (by decide) (by decide) punctual).2.1
    exact ⟨rfl, trivial, trivial, fun _ => rfl, trivial, trivial, rfl, trivial, trivial, rfl,
      trivial, trivial, trivial⟩
  · exact (reminders_of_run (by decide) (by decide) punctual).2.2

/-- The only tick in the window fails. -/
def failingTick : List Action :=
  [.tick 0, .next 0, .done 0, .tickFails 60000, .tick 120000, .next 0, .done 0]

theorem failed_tick_misses :
    (∃ t, Machine.run (step DEFAULTS oneReminder) (start everyone nobody) failingTick = some t ∧
      t.span = some (0, 120000) ∧ oneReminder.reminders.map Reminder.fireAt = [100000] ∧
      t.ticks.length = 0 ∧ t.attempts.length = 0) ∧
    Machine.Meets (step DEFAULTS oneReminder) (Gaps DEFAULTS) (start everyone nobody) failingTick ∧
    Machine.Meets (step DEFAULTS oneReminder) Apart (start everyone nobody) failingTick := by
  refine ⟨⟨_, rfl, rfl, rfl, rfl, rfl⟩, ?_, ?_⟩
  · refine ⟨fun _ _ => (nomatch ·), trivial, trivial, ?_, ?_, trivial, trivial, trivial⟩
    all_goals
      rintro _ _ ⟨rfl⟩
      decide
  · exact ⟨rfl, trivial, trivial, rfl, rfl, trivial, trivial, trivial⟩

end FestivalPlanner.ReminderScheduler
