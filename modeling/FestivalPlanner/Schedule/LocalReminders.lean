import FestivalPlanner.Lib.InFlight
import FestivalPlanner.Lib.Keyed
import FestivalPlanner.Lib.Machine
import FestivalPlanner.Schedule.ReminderPlan
import FestivalPlanner.Schedule.SetStatus

/-!
# The local reminders of the device

`useLocalReminders` runs `reconcile` on each change of what the plan depends on, and whenever the
app comes to the foreground.  A run reads what the device has scheduled, cancels what the plan no
longer has, and schedules the plan; it awaits each of these calls, and asks after some of them
whether its effect is over.

* `scheduleReminder` — the notification of an entry of the plan;
* `requests` — what a run wants to be scheduled;
* `step` — changes, the foreground, time, and the calls of any number of runs in any order;
* `Converged` — once all runs have settled, the device has what the last one wanted;
* `Undisturbed` — a call that takes effect is of the last run, or changes nothing that this run has
  settled; the last run's own calls succeed;
* `reminders_converge` — then the reminders converge throughout a run.
-/

namespace FestivalPlanner.LocalReminders

open Js Schedule List Option Keyed

/-! ## Notifications -/

/-- A notification that is scheduled on the device. -/
structure Notification where
  identifier : String
  title : String
  body : String
  setId : String
  date : ℤ
  channelId : String
  deriving DecidableEq

/-- The device, and the label that `toLocaleTimeString` gives an instant in a time zone. -/
structure Env where
  host : Host
  toLocaleTimeString : String → ℤ → String

/-- `id.startsWith('festie-reminder-')` -/
def isFestie (id : String) : Bool := "festie-reminder-".toList.isPrefixOf id.toList

def artistDisplayName (set : FestivalSet) (separator : Option String) : String :=
  let sep := if separator.getD "" = "" then "b2b" else separator.getD ""
  let joined := if set.artists = [] then ""
    else String.intercalate (" " ++ sep ++ " ") set.artists
  if set.artist ≠ "" ∧ (joined = "" ∨ set.artist ≠ joined) then set.artist
  else if joined ≠ "" then joined
  else if set.artist = "" then "Unknown"
  else set.artist

/-- What `reconcile` closes over.  A profile has one lead for a set; without a login it has no
reminders. -/
structure Deps where
  reminders : Option (List (String × Number))
  picks : List (String × Priority)
  sets : List FestivalSet
  days : List FestivalDay
  b2bSeparator : Option String
  setReminders : Bool
  timeZone : String
  one_lead : ∀ l, reminders = some l → (l.map Prod.fst).Nodup

/-- `leadText` -/
def leadText (lead : ℤ) : String :=
  if 60 ≤ lead then toString ((lead + 30) / 60) ++ "h" else toString lead ++ "m"

/-- The notification that is scheduled for an entry. -/
def scheduleReminder (env : Env) (deps : Deps) (entry : ReminderPlanEntry) : Notification where
  identifier := entry.identifier
  title :=
    let name := artistDisplayName entry.set deps.b2bSeparator
    (if name = "" then "Your set" else name) ++ " in " ++ leadText entry.leadMinutes
  body := "Starts at " ++ env.toLocaleTimeString deps.timeZone entry.startMs ++
    ". Heads up from your Festie picks."
  setId := entry.setId
  date := entry.fireAtMs
  channelId := "set-reminders"

/-- The arguments of `buildReminderPlan`, at a time. -/
def Deps.args (deps : Deps) (now : ℤ) : BuildReminderPlanArgs where
  reminders := deps.reminders
  picks := deps.picks
  sets := deps.sets
  days := deps.days
  nowMs := now
  timeZone := deps.timeZone

/-- The plan of a run; there is none when set reminders are off. -/
@[grind =] def planOf (env : Env) (deps : Deps) (now : ℤ) : Except String (List ReminderPlanEntry) :=
  if deps.setReminders then buildReminderPlan env.host (deps.args now) else .ok []

/-- What a run wants to be scheduled. -/
@[grind =] def requests (env : Env) (deps : Deps) (now : ℤ) : Except String (List Notification) :=
  (planOf env deps now).map fun plan => plan.map (scheduleReminder env deps)

/-! ## The runs -/

/-- What a run awaits. -/
inductive Pc where
  /-- `getPermissionsAsync` -/
  | asking
  /-- `requestPermissionsAsync` -/
  | requesting
  /-- `getAllScheduledNotificationsAsync` -/
  | listing
  /-- it goes on with these identifiers -/
  | listed (ids : List String)
  /-- the cancellations that have not settled -/
  | cancelling (pending : List String)
  /-- the notifications that are not scheduled yet -/
  | scheduling (pending : List Notification)

/-- A run of `reconcile`; `teardown` when set reminders are off. -/
structure Run where
  number : ℕ
  epoch : ℕ
  deps : Deps
  teardown : Bool
  plan : List ReminderPlanEntry
  pc : Pc

def Run.identifiers (r : Run) : List String := r.plan.map ReminderPlanEntry.identifier

@[grind =] def Run.requests (env : Env) (r : Run) : List Notification :=
  r.plan.map (scheduleReminder env r.deps)

/-- The identifiers that the run cancels. -/
def Run.toCancel (r : Run) (ids : List String) : List String :=
  if r.teardown then ids.filter isFestie else (diffReminderPlan r.plan ids).toCancel

/-- What is scheduled, what the hook keeps, and the runs under way. -/
structure State where
  now : ℤ
  device : List Notification
  deps : Deps
  /-- counts the effects; a run of another one is cancelled -/
  epoch : ℕ
  requested : Bool
  granted : Bool
  runs : List Run
  /-- the number of the last run, and when it began -/
  latest : ℕ
  plannedAt : ℤ

namespace State

variable (s : State)

def run (k : ℕ) : Option Run := lookup Run.number k s.runs

def put (r : Run) : State := { s with runs := upsert Run.number r s.runs }

/-- The run is over. -/
def drop (k : ℕ) : State := { s with runs := erase Run.number k s.runs }

def isCancelled (r : Run) : Bool := decide (r.epoch ≠ s.epoch)

/-- A run begins; it ends at once when the plan throws. -/
def reconcile (env : Env) : State :=
  let s := { s with latest := s.latest + 1, plannedAt := s.now }
  match planOf env s.deps s.now with
  | .error _ => s
  | .ok plan => s.put
      { number := s.latest
        epoch := s.epoch
        deps := s.deps
        teardown := !s.deps.setReminders
        plan := plan
        pc := if plan ≠ [] ∧ s.granted = false then .asking else .listing }

/-- `ensurePermission` has returned. -/
def permitted (r : Run) (granted : Bool) : State :=
  if s.isCancelled r || !granted then s.drop r.number else s.put { r with pc := .listing }

/-- The device schedules a notification in place of one with its identifier; one whose time has
come fires. -/
@[grind =] def schedule (n : Notification) : State :=
  { s with
    device := if s.now < n.date then putLast Notification.identifier n s.device
      else erase Notification.identifier n.identifier s.device }

def cancelScheduled (id : String) : State :=
  { s with device := erase Notification.identifier id s.device }

end State

/-! ## The machine -/

/-- How a call that a run awaits ends, or how the run goes on; `j` is the place of a call among
those that have not settled. -/
inductive Call where
  | permission (granted : Bool)
  | permissionFails
  /-- the device reads its list -/
  | list
  | listFails
  /-- the run goes on with the list -/
  | diff
  | cancel (j : ℕ)
  | cancelFails (j : ℕ)
  | schedule (j : ℕ)
  | scheduleFails (j : ℕ)
  /-- the calls have settled -/
  | settle

inductive Action where
  /-- the profile, the preference or the festival changes -/
  | change (deps : Deps)
  | foreground
  /-- time passes, and reminders fire -/
  | wait (later : ℕ)
  /-- a call of the run with this number -/
  | call (k : ℕ) (c : Call)

/-- What becomes of a run. -/
def turn (env : Env) (s : State) (r : Run) : Call → Option State
  | .permission granted =>
      match r.pc with
      | .asking =>
          if granted = false ∧ s.requested = false then
            some ({ s with requested := true }.put { r with pc := .requesting })
          else some ({ s with granted := granted }.permitted r granted)
      | .requesting => some ({ s with granted := granted }.permitted r granted)
      | _ => none
  | .permissionFails =>
      match r.pc with
      | .asking | .requesting => some (s.drop r.number)
      | _ => none
  | .list =>
      match r.pc with
      | .listing => some (s.put { r with pc := .listed (s.device.map Notification.identifier) })
      | _ => none
  | .listFails =>
      match r.pc with
      | .listing => some (s.drop r.number)
      | _ => none
  | .diff =>
      match r.pc with
      | .listed ids =>
          if !r.teardown && s.isCancelled r then some (s.drop r.number)
          else some (s.put { r with pc := .cancelling (r.toCancel ids) })
      | _ => none
  | .cancel j =>
      match r.pc with
      | .cancelling pending => pending[j]?.map fun id =>
          (s.cancelScheduled id).put { r with pc := .cancelling (pending.eraseIdx j) }
      | _ => none
  | .cancelFails j =>
      match r.pc with
      | .cancelling pending => pending[j]?.map fun _ =>
          s.put { r with pc := .cancelling (pending.eraseIdx j) }
      | _ => none
  | .schedule j =>
      match r.pc with
      | .scheduling pending => pending[j]?.map fun n =>
          (s.schedule n).put { r with pc := .scheduling (pending.eraseIdx j) }
      | _ => none
  | .scheduleFails j =>
      match r.pc with
      | .scheduling pending => pending[j]?.map fun _ =>
          s.put { r with pc := .scheduling (pending.eraseIdx j) }
      | _ => none
  | .settle =>
      match r.pc with
      | .cancelling [] =>
          if r.teardown || s.isCancelled r then some (s.drop r.number)
          else some (s.put { r with pc := .scheduling (r.requests env) })
      | .scheduling [] => some (s.drop r.number)
      | _ => none

/-- One step. -/
def step (env : Env) (s : State) : Action → Option State
  | .change deps => some ({ s with deps := deps, epoch := s.epoch + 1 }.reconcile env)
  | .foreground => some (s.reconcile env)
  | .wait later =>
      let now := s.now + later
      some { s with now := now, device := s.device.filter fun n => decide (now < n.date) }
  | .call k c => (s.run k).bind fun r => turn env s r c

/-- What the device has when the app starts. -/
structure Launch where
  device : List Notification
  now : ℤ
  unique : UniqueKeys Notification.identifier device
  pending : ∀ n ∈ device, now < n.date

/-- The hook is mounted. -/
def start (env : Env) (launch : Launch) (deps : Deps) : State :=
  let s : State :=
    { now := launch.now
      device := launch.device
      deps := deps
      epoch := 0
      requested := false
      granted := false
      runs := []
      latest := 0
      plannedAt := launch.now }
  s.reconcile env

/-! ## Convergence -/

/-- Once all runs have settled, the festie reminders of the device are those that the last run
wanted and that have not fired, and none when set reminders are off or nobody is logged in; no
identifier is there twice. -/
structure Converged (env : Env) (s : State) : Prop where
  reminders : s.runs = [] → ∃ wanted, requests env s.deps s.plannedAt = .ok wanted ∧
    ∀ n, n ∈ s.device ∧ isFestie n.identifier = true ↔ n ∈ wanted ∧ s.now < n.date
  off : s.runs = [] → s.deps.setReminders = false ∨ s.deps.reminders = none →
    ∀ n ∈ s.device, isFestie n.identifier = false
  once : UniqueKeys Notification.identifier s.device

/-- Has the run still to act on the identifier? -/
@[grind =] def Run.awaits (r : Run) (id : String) : Bool :=
  match r.pc with
  | .asking | .requesting | .listing => true
  | .listed ids => decide (id ∈ r.toCancel ids) || decide (id ∈ r.identifiers)
  | .cancelling pending => decide (id ∈ pending) || decide (id ∈ r.identifiers)
  | .scheduling pending => decide (id ∈ pending.map Notification.identifier)

/-- Has the last run? -/
def State.awaited (s : State) (id : String) : Bool := (s.run s.latest).any fun r => r.awaits id

/-- What the last run wants. -/
def State.wanted (env : Env) (s : State) : List Notification :=
  (requests env s.deps s.plannedAt).toOption.getD []

/-- Nothing that is wanted under the identifier is still to fire. -/
def State.Unwanted (env : Env) (s : State) (id : String) : Prop :=
  ∀ n ∈ s.wanted env, n.identifier = id → n.date ≤ s.now

/-- A cancellation takes effect: of the last run, before it acts on the identifier, or of what is
not wanted. -/
def MayCancel (env : Env) (s : State) (r : Run) (id : String) : Prop :=
  r.number = s.latest ∨ s.awaited id = true ∨ s.Unwanted env id

/-- A notification is scheduled: by the last run, before it acts on the identifier, one that is
wanted, or one that fires at once and is not wanted. -/
def MaySchedule (env : Env) (s : State) (r : Run) (n : Notification) : Prop :=
  r.number = s.latest ∨ s.awaited n.identifier = true ∨ n ∈ s.wanted env ∨
    (n.date ≤ s.now ∧ s.Unwanted env n.identifier)

/-- Without the permission, the user can still be asked for it. -/
def MayAsk (s : State) : Pc → Prop
  | .asking => s.requested = false
  | _ => False

/-- The identifier that the call at this place cancels. -/
def Run.cancellation (r : Run) (j : ℕ) : Option String :=
  match r.pc with
  | .cancelling pending => pending[j]?
  | _ => none

/-- The notification that the call at this place schedules. -/
def Run.request (r : Run) (j : ℕ) : Option Notification :=
  match r.pc with
  | .scheduling pending => pending[j]?
  | _ => none

/-- What a call of a run must be like; one of the last run does not fail, and the permission is not
refused to it. -/
def Fits (env : Env) (s : State) (r : Run) : Call → Prop
  | .permission granted => r.number = s.latest → granted = false → MayAsk s r.pc
  | .permissionFails | .listFails | .cancelFails _ | .scheduleFails _ => r.number ≠ s.latest
  | .cancel j => ∀ id ∈ r.cancellation j, MayCancel env s r id
  | .schedule j => ∀ n ∈ r.request j, MaySchedule env s r n
  | .list | .diff | .settle => True

/-- A run begins with a plan, and its calls are like that. -/
def Undisturbed (env : Env) (s : State) : Action → Prop
  | .change deps => (requests env deps s.now).isOk = true
  | .foreground => (requests env s.deps s.now).isOk = true
  | .wait _ => True
  | .call k c => ∀ r ∈ s.run k, Fits env s r c

instance (env : Env) (s : State) (id : String) : Decidable (s.Unwanted env id) :=
  inferInstanceAs (Decidable (∀ n ∈ s.wanted env, _ → _))

instance (env : Env) (s : State) (r : Run) (id : String) : Decidable (MayCancel env s r id) :=
  inferInstanceAs (Decidable (_ ∨ _ ∨ _))

instance (env : Env) (s : State) (r : Run) (n : Notification) :
    Decidable (MaySchedule env s r n) :=
  inferInstanceAs (Decidable (_ ∨ _ ∨ _ ∨ _ ∧ _))

instance (s : State) : ∀ pc, Decidable (MayAsk s pc)
  | .asking => inferInstanceAs (Decidable (s.requested = false))
  | .requesting | .listing | .listed _ | .cancelling _ | .scheduling _ => .isFalse id

instance (env : Env) (s : State) (r : Run) : ∀ c, Decidable (Fits env s r c) := fun c => by
  unfold Fits
  split <;> infer_instance

instance (env : Env) (s : State) : ∀ a, Decidable (Undisturbed env s a) := fun a => by
  unfold Undisturbed
  split <;> infer_instance

/-! ## What a run wants -/

variable {l : List Notification} {awaits awaits' : String → Bool} {ids : List String} {j : ℕ}

section Wanted

variable {env : Env} {deps : Deps} {now : ℤ} {plan : List ReminderPlanEntry}

theorem requests_eq_ok :
    requests env deps now = .ok l ↔
      ∃ plan, planOf env deps now = .ok plan ∧ l = plan.map (scheduleReminder env deps) := by
  unfold requests
  cases planOf env deps now with
  | error e => simp [Except.map]
  | ok plan => simp [Except.map, eq_comm]

theorem isFestie_reminderIdentifier (setId : String) :
    isFestie (reminderIdentifier setId) = true := by
  rw [isFestie, reminderIdentifier, String.toList_append]
  exact List.isPrefixOf_iff_prefix.mpr (prefix_append _ _)

theorem nodup_planOf (h : planOf env deps now = .ok plan) :
    (plan.map ReminderPlanEntry.identifier).Nodup := by
  unfold planOf at h
  split at h
  · exact nodup_identifiers h deps.one_lead
  · cases h
    exact nodup_nil

theorem isFestie_of_mem_planOf (h : planOf env deps now = .ok plan) {e : ReminderPlanEntry}
    (he : e ∈ plan) : isFestie e.identifier = true := by
  unfold planOf at h
  split at h
  · obtain ⟨b, -, -, -, hid, -⟩ := mem_plan h he
    rw [hid]
    exact isFestie_reminderIdentifier _
  · cases h
    cases he

/-- The notifications of a plan have its identifiers. -/
theorem map_identifier_requests (plan : List ReminderPlanEntry) :
    (plan.map (scheduleReminder env deps)).map Notification.identifier =
      plan.map ReminderPlanEntry.identifier := by
  rw [List.map_map]
  rfl

theorem uniqueKeys_requests (h : requests env deps now = .ok l) :
    UniqueKeys Notification.identifier l := by
  obtain ⟨plan, hplan, rfl⟩ := requests_eq_ok.mp h
  rw [UniqueKeys, map_identifier_requests]
  exact nodup_planOf hplan

theorem isFestie_of_mem_requests (h : requests env deps now = .ok l) {n : Notification}
    (hn : n ∈ l) : isFestie n.identifier = true := by
  obtain ⟨plan, hplan, rfl⟩ := requests_eq_ok.mp h
  obtain ⟨e, he, rfl⟩ := List.mem_map.mp hn
  exact isFestie_of_mem_planOf hplan he

/-- Nothing is wanted when set reminders are off or there are none. -/
theorem requests_of_off (h : deps.setReminders = false ∨ deps.reminders = none) :
    requests env deps now = .ok [] := by
  refine requests_eq_ok.mpr ⟨[], ?_, rfl⟩
  unfold planOf
  split
  · next hon =>
    rcases h with hoff | hnone
    · rw [hoff] at hon
      cases hon
    · simp [buildReminderPlan, Deps.args, hnone]
  · rfl

end Wanted

/-! ## The device -/

section Device

variable {env : Env} {s : State} {r : Run} {k : ℕ} {n m : Notification} {id : String}

theorem put_run (s : State) (r : Run) (k : ℕ) :
    (s.put r).run k = if r.number = k then some r else s.run k :=
  lookup_upsert k r s.runs

theorem drop_run (s : State) (k c : ℕ) :
    (s.drop c).run k = if c = k then none else s.run k :=
  lookup_erase k c s.runs

theorem number_of_run (h : s.run k = some r) : r.number = k := (mem_of_lookup h).2

theorem mem_schedule : n ∈ (s.schedule m).device ↔
    n ∈ s.device ∧ n.identifier ≠ m.identifier ∨ n = m ∧ s.now < m.date := by
  unfold State.schedule
  dsimp only
  split
  · next hlater => simp [mem_putLast, hlater, or_comm]
  · next hpast => simp [mem_erase, hpast]

/-- The device agrees with what the last run wants, where the run has no more to do. -/
def Agrees (env : Env) (s : State) (awaits : String → Bool) (device : List Notification) : Prop :=
  ∀ n, isFestie n.identifier = true → awaits n.identifier = false →
    (n ∈ device ↔ n ∈ s.wanted env ∧ s.now < n.date)

theorem Agrees.cancel (h : Agrees env s awaits s.device)
    (hid : awaits' id = true ∨ s.Unwanted env id)
    (hothers : ∀ x, x ≠ id → awaits' x = false → awaits x = false) :
    Agrees env s awaits' (s.cancelScheduled id).device := by
  intro n hfestie hsettled
  rw [State.cancelScheduled, mem_erase]
  by_cases hn : n.identifier = id
  · subst hn
    refine iff_of_false (fun hmem => hmem.2 rfl) fun ⟨hwanted, hlater⟩ => ?_
    rcases hid with hawaits | hunwanted
    · rw [hawaits] at hsettled
      cases hsettled
    · exact absurd hlater (not_lt.mpr (hunwanted n hwanted rfl))
  · rw [← h n hfestie (hothers _ hn hsettled)]
    exact and_iff_left hn

theorem Agrees.schedule (h : Agrees env s awaits s.device)
    (hunique : UniqueKeys Notification.identifier (s.wanted env))
    (hm : awaits' m.identifier = true ∨ m ∈ s.wanted env ∨
      (m.date ≤ s.now ∧ s.Unwanted env m.identifier))
    (hothers : ∀ x, x ≠ m.identifier → awaits' x = false → awaits x = false) :
    Agrees env s awaits' (s.schedule m).device := by
  intro n hfestie hsettled
  rw [mem_schedule]
  by_cases hn : n.identifier = m.identifier
  · rw [or_iff_right fun hmem => hmem.2 hn]
    rcases hm with hawaits | hwanted | ⟨hpast, hunwanted⟩
    · rw [← hn, hsettled] at hawaits
      cases hawaits
    · constructor
      · rintro ⟨rfl, hlater⟩
        exact ⟨hwanted, hlater⟩
      · rintro ⟨hmem, hlater⟩
        obtain rfl := hunique.eq_of_mem hmem hwanted hn
        exact ⟨rfl, hlater⟩
    · refine iff_of_false ?_ fun ⟨hmem, hlater⟩ => ?_
      · rintro ⟨rfl, hlater⟩
        exact absurd hlater (not_lt.mpr hpast)
      · exact absurd hlater (not_lt.mpr (hunwanted n hmem hn))
  · rw [← h n hfestie (hothers _ hn hsettled), or_iff_left]
    · exact and_iff_left hn
    · rintro ⟨rfl, -⟩
      exact hn rfl

end Device

/-! ## The invariant -/

/-- What is true of the last run while it is under way. -/
structure IsLatest (env : Env) (s : State) (r : Run) : Prop where
  epoch : r.epoch = s.epoch
  requests : requests env s.deps s.plannedAt = .ok (r.requests env)
  teardown : r.teardown = true → r.plan = []
  cancelling : ∀ pending, r.pc = .cancelling pending → ∀ id ∈ pending, id ∉ r.identifiers
  scheduling : ∀ pending, r.pc = .scheduling pending → ∀ n ∈ pending, n ∈ r.requests env

structure Inv (env : Env) (s : State) : Prop where
  planned : ∃ wanted, requests env s.deps s.plannedAt = .ok wanted
  latest : ∀ r, s.run s.latest = some r → IsLatest env s r
  unique : UniqueKeys Notification.identifier s.device
  pending : ∀ n ∈ s.device, s.now < n.date
  agrees : Agrees env s s.awaited s.device

section Invariant

variable {env : Env} {s t : State} {r : Run} {k : ℕ}

theorem wanted_eq {wanted : List Notification}
    (h : requests env s.deps s.plannedAt = .ok wanted) : s.wanted env = wanted := by
  rw [State.wanted, h]
  rfl

theorem Inv.uniqueKeys_wanted (h : Inv env s) :
    UniqueKeys Notification.identifier (s.wanted env) := by
  obtain ⟨wanted, hwanted⟩ := h.planned
  rw [wanted_eq hwanted]
  exact uniqueKeys_requests hwanted

theorem awaited_of_latest (hr : s.run s.latest = some r) : s.awaited = r.awaits := by
  funext id
  rw [State.awaited, hr]
  rfl

/-- What the last run wants is on its plan. -/
theorem IsLatest.mem_identifiers (h : IsLatest env s r) {n : Notification}
    (hn : n ∈ s.wanted env) : n.identifier ∈ r.identifiers := by
  rw [wanted_eq h.requests] at hn
  obtain ⟨e, he, rfl⟩ := List.mem_map.mp hn
  exact List.mem_map_of_mem he

/-- A run goes on, and the device may have changed. -/
theorem Inv.put (h : Inv env s) {device : List Notification}
    (hunique : UniqueKeys Notification.identifier device)
    (hpending : ∀ n ∈ device, s.now < n.date)
    (hlatest : r.number = s.latest → IsLatest env s r ∧ Agrees env s r.awaits device)
    (hother : r.number ≠ s.latest → Agrees env s s.awaited device) :
    Inv env ({ s with device := device }.put r) := by
  have hrun : ({ s with device := device }.put r).run s.latest =
      if r.number = s.latest then some r else s.run s.latest := put_run _ r s.latest
  refine ⟨h.planned, fun r' hr' => ?_, hunique, hpending, ?_⟩
  · replace hr' := hrun.symm.trans hr'
    split at hr'
    · next hnumber =>
      obtain rfl := some.inj hr'
      obtain ⟨hepoch, hrequests, hteardown, hcancelling, hscheduling⟩ := (hlatest hnumber).1
      exact ⟨hepoch, hrequests, hteardown, hcancelling, hscheduling⟩
    · obtain ⟨hepoch, hrequests, hteardown, hcancelling, hscheduling⟩ := h.latest r' hr'
      exact ⟨hepoch, hrequests, hteardown, hcancelling, hscheduling⟩
  · have hawaited : ({ s with device := device }.put r).awaited =
        if r.number = s.latest then r.awaits else s.awaited := by
      funext id
      refine (congrArg (Option.any fun r' => r'.awaits id) hrun).trans ?_
      split <;> rfl
    rw [hawaited]
    split
    · next hnumber => exact (hlatest hnumber).2
    · next hnumber => exact hother hnumber

/-- A run goes on, and the device is as before. -/
theorem Inv.keep (h : Inv env s)
    (hlatest : r.number = s.latest → IsLatest env s r ∧ Agrees env s r.awaits s.device) :
    Inv env (s.put r) :=
  h.put h.unique h.pending hlatest fun _ => h.agrees

/-- A run is over. -/
theorem Inv.drop (h : Inv env s)
    (hlatest : k = s.latest → Agrees env s (fun _ => false) s.device) : Inv env (s.drop k) := by
  have hrun : (s.drop k).run s.latest = if k = s.latest then none else s.run s.latest :=
    drop_run s s.latest k
  refine ⟨h.planned, fun r hr => ?_, h.unique, h.pending, ?_⟩
  · replace hr := hrun.symm.trans hr
    split at hr
    · cases hr
    · obtain ⟨hepoch, hrequests, hteardown, hcancelling, hscheduling⟩ := h.latest r hr
      exact ⟨hepoch, hrequests, hteardown, hcancelling, hscheduling⟩
  · have hawaited : (s.drop k).awaited = if k = s.latest then fun _ => false else s.awaited := by
      funext id
      refine (congrArg (Option.any fun r => r.awaits id) hrun).trans ?_
      split <;> rfl
    rw [hawaited]
    split
    · next hk => exact hlatest hk
    · exact h.agrees

/-- A run begins and becomes the last one. -/
theorem inv_reconcile (hunique : UniqueKeys Notification.identifier s.device)
    (hpending : ∀ n ∈ s.device, s.now < n.date)
    (hplan : (requests env s.deps s.now).isOk = true) : Inv env (s.reconcile env) := by
  unfold State.reconcile
  dsimp only
  cases hplanOf : planOf env s.deps s.now with
  | error e =>
    rw [requests, hplanOf] at hplan
    cases hplan
  | ok plan =>
    have hrequests : requests env s.deps s.now = .ok (plan.map (scheduleReminder env s.deps)) :=
      requests_eq_ok.mpr ⟨plan, hplanOf, rfl⟩
    set r : Run :=
      { number := s.latest + 1
        epoch := s.epoch
        deps := s.deps
        teardown := !s.deps.setReminders
        plan := plan
        pc := if plan ≠ [] ∧ s.granted = false then .asking else .listing } with hr
    have hpc : r.pc = .asking ∨ r.pc = .listing := by
      rw [hr]
      dsimp only
      split
      · exact .inl rfl
      · exact .inr rfl
    have hrun : (({ s with latest := s.latest + 1, plannedAt := s.now }).put r).run (s.latest + 1) =
        some r := (put_run _ r _).trans (if_pos rfl)
    refine ⟨⟨_, hrequests⟩, fun r' hr' => ?_, hunique, hpending, fun n _ hsettled => ?_⟩
    · obtain rfl := some.inj (hrun.symm.trans hr')
      refine ⟨rfl, hrequests, fun hoff => ?_, fun pending h => ?_, fun pending h => ?_⟩
      · have hoff : s.deps.setReminders = false := by
          rw [← Bool.not_eq_true']
          exact hoff
        rw [planOf, hoff] at hplanOf
        exact (Except.ok.inj hplanOf).symm
      · rcases hpc with hpc | hpc <;> cases hpc.symm.trans h
      · rcases hpc with hpc | hpc <;> cases hpc.symm.trans h
    · rw [awaited_of_latest hrun] at hsettled
      unfold Run.awaits at hsettled
      rcases hpc with hpc | hpc <;> rw [hpc] at hsettled <;> cases hsettled

/-! ## The calls of a run -/

variable {pc : Pc}

/-- The last run has moved on; it acts on no more than before. -/
theorem IsLatest.moved (h : IsLatest env s r)
    (hcancelling : ∀ pending, pc = .cancelling pending → ∀ id ∈ pending, id ∉ r.identifiers)
    (hscheduling : ∀ pending, pc = .scheduling pending → ∀ n ∈ pending, n ∈ r.requests env) :
    IsLatest env s { r with pc := pc } :=
  ⟨h.epoch, h.requests, h.teardown, hcancelling, hscheduling⟩

/-- A run that has not read the list yet. -/
theorem Inv.unread (h : Inv env s) (hr : s.run k = some r)
    (hpc : pc = .requesting ∨ pc = .listing) : Inv env (s.put { r with pc := pc }) := by
  refine h.keep fun hnumber => ⟨?_, fun n _ hsettled => ?_⟩
  · rw [← number_of_run hr, show r.number = s.latest from hnumber] at hr
    refine (h.latest r hr).moved (fun pending hp => ?_) fun pending hp => ?_
    · rcases hpc with rfl | rfl <;> cases hp
    · rcases hpc with rfl | rfl <;> cases hp
  · unfold Run.awaits at hsettled
    rcases hpc with rfl | rfl <;> cases hsettled

theorem latest_of_number (hr : s.run k = some r) (hnumber : r.number = s.latest) :
    s.run s.latest = some r := by
  rw [← hnumber, number_of_run hr]
  exact hr

/-- The device has read its list. -/
theorem inv_list (h : Inv env s) (hr : s.run k = some r) :
    Inv env (s.put { r with pc := .listed (s.device.map Notification.identifier) }) := by
  refine h.keep fun hnumber => ?_
  have hlatest := h.latest r (latest_of_number hr hnumber)
  refine ⟨hlatest.moved (fun _ hp => by cases hp) (fun _ hp => by cases hp), ?_⟩
  intro n hfestie hsettled
  simp only [Run.awaits, Bool.or_eq_false_iff, decide_eq_false_iff_not] at hsettled
  refine iff_of_false (fun hmem => hsettled.1 ?_) fun ⟨hwanted, _⟩ =>
    hsettled.2 (hlatest.mem_identifiers hwanted)
  have hid : n.identifier ∈ s.device.map Notification.identifier := List.mem_map_of_mem hmem
  have hplan : n.identifier ∉ r.plan.map ReminderPlanEntry.identifier := hsettled.2
  simp only [Run.toCancel]
  split
  · exact mem_filter.mpr ⟨hid, hfestie⟩
  · refine mem_filter.mpr ⟨hid, Bool.and_eq_true_iff.mpr ⟨hfestie, ?_⟩⟩
    simpa using hplan

theorem toCancel_not_identifier (h : IsLatest env s r) {id : String} (hid : id ∈ r.toCancel ids) :
    id ∉ r.identifiers := by
  unfold Run.toCancel at hid
  split at hid
  · next hteardown =>
    rw [Run.identifiers, h.teardown hteardown]
    exact not_mem_nil
  · have hnot := (Bool.and_eq_true_iff.mp (mem_filter.mp hid).2).2
    simpa [Run.identifiers] using hnot

/-- The calls of a run have come to the next ones; the last run goes on with the same
identifiers. -/
theorem Inv.moveOn (h : Inv env s) (hr : s.run k = some r)
    (hlatest : IsLatest env s r → IsLatest env s { r with pc := pc })
    (hawaits : ∀ id, IsLatest env s r → Run.awaits { r with pc := pc } id = false →
      r.awaits id = false) :
    Inv env (s.put { r with pc := pc }) := by
  refine h.keep fun hnumber => ?_
  have hrun := latest_of_number hr hnumber
  have hr' := h.latest r hrun
  refine ⟨hlatest hr', fun n hfestie hsettled => ?_⟩
  refine h.agrees n hfestie ?_
  rw [awaited_of_latest hrun]
  exact hawaits _ hr' hsettled

/-- What `ensurePermission` keeps does not matter. -/
theorem Inv.withPermission (h : Inv env s) (requested granted : Bool) :
    Inv env { s with requested := requested, granted := granted } := by
  refine ⟨h.planned, fun r hr => ?_, h.unique, h.pending, h.agrees⟩
  obtain ⟨hepoch, hrequests, hteardown, hcancelling, hscheduling⟩ := h.latest r hr
  exact ⟨hepoch, hrequests, hteardown, hcancelling, hscheduling⟩

theorem IsLatest.not_cancelled (h : IsLatest env s r) : s.isCancelled r = false := by
  rw [State.isCancelled, h.epoch]
  exact decide_eq_false fun hne => hne rfl

/-- The permission is there, unless the run is not the last one. -/
theorem inv_permitted (h : Inv env s) (hr : s.run k = some r) {granted : Bool}
    (hgranted : r.number = s.latest → granted = true) :
    Inv env ({ s with granted := granted }.permitted r granted) := by
  have h' := h.withPermission s.requested granted
  unfold State.permitted
  split
  · next hover =>
    refine h'.drop fun hnumber => ?_
    have hlatest := h'.latest r (latest_of_number (s := { s with granted := granted }) hr hnumber)
    rw [hlatest.not_cancelled, hgranted hnumber] at hover
    cases hover
  · exact h'.unread (s := { s with granted := granted }) hr (.inr rfl)

/-- A run that is not the last one is over. -/
theorem Inv.dropOther (h : Inv env s) (hnumber : r.number ≠ s.latest) :
    Inv env (s.drop r.number) :=
  h.drop fun heq => absurd heq hnumber

/-- A call of a run that is not the last one has settled, without effect. -/
theorem Inv.keepOther (h : Inv env s) (hnumber : r.number ≠ s.latest) : Inv env (s.put r) :=
  h.keep fun heq => absurd heq hnumber

theorem mem_eraseIdx_of_ne {α : Type*} {l : List α} {x y : α} (hx : l[j]? = some x) (hy : y ∈ l)
    (hne : y ≠ x) : y ∈ l.eraseIdx j :=
  (InFlight.mem_eraseIdx_or hx hy).resolve_left hne

theorem inv_cancel (h : Inv env s) (hr : s.run k = some r) {pending : List String} {id : String}
    (hpc : r.pc = .cancelling pending) (hj : pending[j]? = some id) (hC : MayCancel env s r id) :
    Inv env ((s.cancelScheduled id).put { r with pc := .cancelling (pending.eraseIdx j) }) := by
  refine h.put (h.unique.erase id) (fun n hn => h.pending n (mem_erase.mp hn).1)
    (fun hnumber => ?_) fun hnumber => ?_
  · have hrun := latest_of_number hr hnumber
    have hlatest := h.latest r hrun
    have hnot : id ∉ r.identifiers := hlatest.cancelling pending hpc id (mem_of_getElem? hj)
    constructor
    · refine hlatest.moved (fun rest hp x hx => ?_) (fun _ hp => by cases hp)
      obtain rfl := Pc.cancelling.inj hp
      exact hlatest.cancelling pending hpc x (mem_of_mem_eraseIdx hx)
    · refine h.agrees.cancel (.inr fun n hn hid => ?_) fun x hx hsettled => ?_
      · exact absurd (hid ▸ hlatest.mem_identifiers hn) hnot
      · rw [awaited_of_latest hrun]
        simp only [Run.awaits, hpc, Bool.or_eq_false_iff, decide_eq_false_iff_not] at hsettled ⊢
        exact ⟨fun hmem => hsettled.1 (mem_eraseIdx_of_ne hj hmem hx), hsettled.2⟩
  · exact h.agrees.cancel (hC.resolve_left hnumber) fun _ _ hsettled => hsettled

theorem pending_schedule (h : Inv env s) {m : Notification} :
    ∀ n ∈ (s.schedule m).device, s.now < n.date := by
  intro n hn
  rcases mem_schedule.mp hn with ⟨hn, -⟩ | ⟨rfl, hlater⟩
  · exact h.pending n hn
  · exact hlater

theorem uniqueKeys_schedule (h : Inv env s) (m : Notification) :
    UniqueKeys Notification.identifier (s.schedule m).device := by
  unfold State.schedule
  dsimp only
  split
  · exact h.unique.putLast m
  · exact h.unique.erase m.identifier

theorem inv_schedule (h : Inv env s) (hr : s.run k = some r) {pending : List Notification}
    {m : Notification} (hpc : r.pc = .scheduling pending) (hj : pending[j]? = some m)
    (hC : MaySchedule env s r m) :
    Inv env ((s.schedule m).put { r with pc := .scheduling (pending.eraseIdx j) }) := by
  refine h.put (uniqueKeys_schedule h m) (pending_schedule h) (fun hnumber => ?_) fun hnumber => ?_
  · have hrun := latest_of_number hr hnumber
    have hlatest := h.latest r hrun
    constructor
    · refine hlatest.moved (fun _ hp => by cases hp) fun rest hp x hx => ?_
      obtain rfl := Pc.scheduling.inj hp
      exact hlatest.scheduling pending hpc x (mem_of_mem_eraseIdx hx)
    · refine h.agrees.schedule h.uniqueKeys_wanted (.inr (.inl ?_)) fun x hx hsettled => ?_
      · rw [wanted_eq hlatest.requests]
        exact hlatest.scheduling pending hpc m (mem_of_getElem? hj)
      · rw [awaited_of_latest hrun]
        simp only [Run.awaits, hpc, decide_eq_false_iff_not, List.mem_map, not_exists,
          not_and] at hsettled ⊢
        intro n hn hid
        refine hsettled n (mem_eraseIdx_of_ne hj hn ?_) hid
        rintro rfl
        exact hx hid.symm
  · exact h.agrees.schedule h.uniqueKeys_wanted (hC.resolve_left hnumber) fun _ _ hsettled => hsettled

/-- The list is compared with the plan. -/
theorem inv_diff (h : Inv env s) (hr : s.run k = some r) (hpc : r.pc = .listed ids) :
    Inv env (if !r.teardown && s.isCancelled r then s.drop r.number
      else s.put { r with pc := .cancelling (r.toCancel ids) }) := by
  split
  · next hover =>
    refine h.drop fun hnumber => ?_
    have hlatest := h.latest r (latest_of_number hr hnumber)
    rw [hlatest.not_cancelled, Bool.and_false] at hover
    cases hover
  · refine h.moveOn hr (fun hlatest => ?_) fun id _ hsettled => ?_
    · refine hlatest.moved (fun pending hp id hid => ?_) (fun _ hp => by cases hp)
      obtain rfl := Pc.cancelling.inj hp
      exact toCancel_not_identifier hlatest hid
    · simp only [Run.awaits, hpc] at hsettled ⊢
      exact hsettled

/-- The cancellations have settled. -/
theorem inv_cancelled (h : Inv env s) (hr : s.run k = some r) (hpc : r.pc = .cancelling []) :
    Inv env (if r.teardown || s.isCancelled r then s.drop r.number
      else s.put { r with pc := .scheduling (r.requests env) }) := by
  split
  · next hover =>
    refine h.drop fun hnumber n hfestie _ => h.agrees n hfestie ?_
    have hrun := latest_of_number hr hnumber
    have hlatest := h.latest r hrun
    rw [hlatest.not_cancelled, Bool.or_false] at hover
    rw [awaited_of_latest hrun]
    simp [Run.awaits, hpc, Run.identifiers, hlatest.teardown hover]
  · refine h.moveOn hr (fun hlatest => ?_) fun id _ hsettled => ?_
    · refine hlatest.moved (fun _ hp => by cases hp) fun pending hp n hn => ?_
      obtain rfl := Pc.scheduling.inj hp
      exact hn
    · simp only [Run.awaits, hpc, Run.requests, map_identifier_requests] at hsettled ⊢
      simpa [Run.identifiers] using hsettled

/-- The notifications are scheduled. -/
theorem inv_scheduled (h : Inv env s) (hr : s.run k = some r) (hpc : r.pc = .scheduling []) :
    Inv env (s.drop r.number) := by
  refine h.drop fun hnumber n hfestie _ => h.agrees n hfestie ?_
  rw [awaited_of_latest (latest_of_number hr hnumber)]
  simp [Run.awaits, hpc]

theorem inv_turn {c : Call} (h : Inv env s) (hr : s.run k = some r) (hC : Fits env s r c)
    (ht : turn env s r c = some t) : Inv env t := by
  cases c with
  | permission granted =>
    simp only [turn] at ht
    split at ht
    · next hpc =>
      split at ht
      · next hask =>
        obtain rfl := some.inj ht
        exact (h.withPermission true s.granted).unread (s := { s with requested := true }) hr
          (.inl rfl)
      · next hask =>
        obtain rfl := some.inj ht
        refine inv_permitted h hr fun hnumber => ?_
        by_contra hrefused
        have hrefused : granted = false := Bool.eq_false_of_not_eq_true hrefused
        have hmay : MayAsk s r.pc := hC hnumber hrefused
        rw [hpc] at hmay
        exact hask ⟨hrefused, hmay⟩
    · next hpc =>
      obtain rfl := some.inj ht
      refine inv_permitted h hr fun hnumber => ?_
      by_contra hrefused
      have hmay : MayAsk s r.pc := hC hnumber (Bool.eq_false_of_not_eq_true hrefused)
      rw [hpc] at hmay
      exact hmay
    · cases ht
  | permissionFails =>
    simp only [turn] at ht
    split at ht
    · obtain rfl := some.inj ht
      exact h.dropOther hC
    · obtain rfl := some.inj ht
      exact h.dropOther hC
    · cases ht
  | list =>
    simp only [turn] at ht
    split at ht
    · obtain rfl := some.inj ht
      exact inv_list h hr
    · cases ht
  | listFails =>
    simp only [turn] at ht
    split at ht
    · obtain rfl := some.inj ht
      exact h.dropOther hC
    · cases ht
  | diff =>
    simp only [turn] at ht
    split at ht
    · next ids hpc =>
      rw [← apply_ite] at ht
      obtain rfl := some.inj ht
      exact inv_diff h hr hpc
    · cases ht
  | cancel j =>
    simp only [turn] at ht
    split at ht
    · next pending hpc =>
      obtain ⟨id, hj, rfl⟩ := map_eq_some_iff.mp ht
      have hid : r.cancellation j = some id := by
        rw [Run.cancellation, hpc]
        exact hj
      exact inv_cancel h hr hpc hj (hC id hid)
    · cases ht
  | cancelFails j =>
    simp only [turn] at ht
    split at ht
    · next pending hpc =>
      obtain ⟨id, hj, rfl⟩ := map_eq_some_iff.mp ht
      exact h.keepOther hC
    · cases ht
  | schedule j =>
    simp only [turn] at ht
    split at ht
    · next pending hpc =>
      obtain ⟨m, hj, rfl⟩ := map_eq_some_iff.mp ht
      have hm : r.request j = some m := by
        rw [Run.request, hpc]
        exact hj
      exact inv_schedule h hr hpc hj (hC m hm)
    · cases ht
  | scheduleFails j =>
    simp only [turn] at ht
    split at ht
    · next pending hpc =>
      obtain ⟨m, hj, rfl⟩ := map_eq_some_iff.mp ht
      exact h.keepOther hC
    · cases ht
  | settle =>
    simp only [turn] at ht
    split at ht
    · next hpc =>
      rw [← apply_ite] at ht
      obtain rfl := some.inj ht
      exact inv_cancelled h hr hpc
    · next hpc =>
      obtain rfl := some.inj ht
      exact inv_scheduled h hr hpc
    · cases ht

/-! ## Every run of the machine -/

/-- Reminders fire, on the device and of what is wanted. -/
theorem Inv.wait (h : Inv env s) (later : ℕ) :
    Inv env { s with
      now := s.now + later
      device := s.device.filter fun n => decide (s.now + later < n.date) } := by
  refine ⟨h.planned, fun r hr => ?_, h.unique.filter _, fun n hn => ?_, fun n hfestie hsettled => ?_⟩
  · obtain ⟨hepoch, hrequests, hteardown, hcancelling, hscheduling⟩ := h.latest r hr
    exact ⟨hepoch, hrequests, hteardown, hcancelling, hscheduling⟩
  · exact of_decide_eq_true (mem_filter.mp hn).2
  · have hbefore := h.agrees n hfestie hsettled
    rw [mem_filter, decide_eq_true_eq, hbefore]
    refine ⟨fun hn => ⟨hn.1.1, hn.2⟩, fun hn => ⟨⟨hn.1, ?_⟩, hn.2⟩⟩
    have hlater : s.now + later < n.date := hn.2
    omega

theorem inv_step {a : Action} (h : Inv env s) (hC : Undisturbed env s a)
    (ht : step env s a = some t) : Inv env t := by
  cases a with
  | change deps =>
    obtain rfl := some.inj ht
    exact inv_reconcile (s := { s with deps := deps, epoch := s.epoch + 1 }) h.unique h.pending hC
  | foreground =>
    obtain rfl := some.inj ht
    exact inv_reconcile h.unique h.pending hC
  | wait later =>
    obtain rfl := some.inj ht
    exact h.wait later
  | call k c =>
    obtain ⟨r, hr, ht⟩ := bind_eq_some_iff.mp ht
    exact inv_turn h hr (hC r hr) ht

theorem Inv.converged (h : Inv env s) : Converged env s := by
  obtain ⟨wanted, hwanted⟩ := h.planned
  have hiff : s.runs = [] → ∀ n, isFestie n.identifier = true →
      (n ∈ s.device ↔ n ∈ wanted ∧ s.now < n.date) := by
    intro hnone n hfestie
    rw [← wanted_eq hwanted]
    refine h.agrees n hfestie ?_
    rw [State.awaited, State.run, hnone]
    rfl
  refine ⟨fun hnone => ⟨wanted, hwanted, fun n => ?_⟩, fun hnone hoff n hn => ?_, h.unique⟩
  · constructor
    · intro hn
      exact (hiff hnone n hn.2).mp hn.1
    · intro hn
      have hfestie := isFestie_of_mem_requests hwanted hn.1
      exact ⟨(hiff hnone n hfestie).mpr hn, hfestie⟩
  · by_contra hfestie
    rw [requests_of_off hoff] at hwanted
    cases hwanted
    exact not_mem_nil ((hiff hnone n (by simpa using hfestie)).mp hn).1

/-- **The reminders converge throughout every run in which no call of an older run undoes what the
last one has settled, and the calls of the last one succeed.** -/
theorem reminders_converge {launch : Launch} {deps : Deps}
    (hplan : (requests env deps launch.now).isOk = true) {as : List Action}
    (hC : Machine.Meets (step env) (Undisturbed env) (start env launch deps) as) :
    Machine.Always (step env) (Converged env) (start env launch deps) as :=
  Machine.always_of_meets (fun _ _ _ h hC ht => inv_step h hC ht) (fun _ h => h.converged)
    (inv_reconcile launch.unique launch.pending hplan) hC

end Invariant

/-- A device in UTC, on which every set starts at eight in the evening. -/
def utcEnv : Env := ⟨utcHost 0, fun _ _ => "20:00"⟩

/-- Ten o'clock before noon, with nothing scheduled. -/
def morning : Launch := ⟨[], 1788516000000, nodup_nil, fun _ h => absurd h not_mem_nil⟩

theorem evening_one_lead (lead : Option Number) (l : List (String × Number))
    (h : some (lead.toList.map fun minutes => (eveningSet.id, minutes)) = some l) :
    (l.map Prod.fst).Nodup := by
  cases h
  cases lead with
  | none => exact nodup_nil
  | some minutes => exact nodup_singleton _

/-- The set of the evening, with this lead or without a reminder. -/
def evening (lead : Option Number) : Deps where
  reminders := some (lead.toList.map fun minutes => (eveningSet.id, minutes))
  picks := []
  sets := [eveningSet]
  days := []
  b2bSeparator := none
  setReminders := true
  timeZone := ""
  one_lead := evening_one_lead lead

/-- A reminder of half an hour is changed to one of an hour while the first run still schedules. -/
def editedLead : List Action :=
  [.call 1 (.permission false), .call 1 (.permission true), .call 1 .list, .call 1 .diff,
    .call 1 .settle, .change (evening (some (some 60))), .call 1 (.schedule 0), .call 2 .list,
    .call 1 .settle, .call 2 .diff, .call 2 .settle, .call 2 (.schedule 0), .call 2 .settle,
    .foreground, .call 3 .list, .call 3 .diff, .call 3 .settle, .call 3 (.schedule 0),
    .call 3 .settle]

theorem editedLead_converges :
    (∃ t ∈ Machine.run (step utcEnv) (start utcEnv morning (evening (some (some 30)))) editedLead,
      t.runs.length = 0 ∧ t.device.map (fun n => (n.title, n.date)) =
        [("Unknown in 1h", 1788548400000)]) ∧
    Machine.Always (step utcEnv) (Converged utcEnv)
      (start utcEnv morning (evening (some (some 30)))) editedLead :=
  ⟨by decide, reminders_converge (by decide) (by decide)⟩

/-- **A run that schedules is not stopped**: the reminder is taken back while the first run
schedules it; the second run finds nothing to cancel, and the notification stays. -/
theorem withdrawn_reminder_stays : ¬∀ (env : Env) (launch : Launch) (deps : Deps)
    (as : List Action) (t : State), (requests env deps launch.now).isOk = true →
    Machine.run (step env) (start env launch deps) as = some t → Converged env t := by
  intro h
  obtain ⟨t, ht, hruns, hwanted, hdevice⟩ : ∃ t ∈ Machine.run (step utcEnv)
      (start utcEnv morning (evening (some (some 30))))
      [.call 1 (.permission true), .call 1 .list, .call 1 .diff, .call 1 .settle,
        .change (evening none), .call 2 .list, .call 2 .diff, .call 2 .settle, .call 2 .settle,
        .call 1 (.schedule 0), .call 1 .settle],
      t.runs.length = 0 ∧ (requests utcEnv t.deps t.plannedAt).toOption = some [] ∧
        ∃ n ∈ t.device, isFestie n.identifier = true := by
    decide
  obtain ⟨n, hn, hfestie⟩ := hdevice
  obtain ⟨wanted, hok, hiff⟩ :=
    (h _ _ _ _ t (by decide) ht).reminders (List.length_eq_zero_iff.mp hruns)
  rw [hok] at hwanted
  cases hwanted
  exact List.not_mem_nil ((hiff n).mp ⟨hn, hfestie⟩).1

end FestivalPlanner.LocalReminders
