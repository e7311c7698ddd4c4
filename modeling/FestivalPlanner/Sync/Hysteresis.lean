import FestivalPlanner.Sync.OfflineBanner

/-!
# The hysteresis of the connectivity

The listener of `NetInfo` in `OfflineBanner` and its flip timer, under a clock.  A timer of the
runtime fires when it is due or later; nothing else writes `offlineMode`.

* `State`, `step` — a report, a timer that fires, time that passes;
* `Kept` — the refs of the banner name the one timer that is armed, if one is;
* `ChangesAsReported`, `Since` — what a change of `offlineMode` must find; and what is known while
  all reports say the same;
* `hysteresis_ok` — **`offlineMode` changes only to what the last report asks for, at most one timer
  is armed, and reports that stay as they are for their time are believed**.
-/

namespace FestivalPlanner.Hysteresis

open List Option

open OfflineBanner (FlapAction decideFlap ONLINE_CONFIRM_MS OFFLINE_CONFIRM_MS)

/-! ## The listener and the timer -/

/-- A timer that is armed, with the target that its callback has closed over. -/
structure Timer where
  handle : ℕ
  online : Bool
  due : ℤ
  deriving DecidableEq

/-- The store, the refs of the banner and the timers of the runtime. -/
structure State where
  clock : ℤ
  offlineMode : Bool
  timers : List Timer := []
  nextHandle : ℕ := 0
  flipTimer : Option ℕ := none
  pendingOnline : Option Bool := none
  lastReportedOnline : Option Bool := none
  firstNetEvent : Bool := true
  deriving DecidableEq

/-- Before the first report. -/
def State.initial (clock : ℤ) (offlineMode : Bool) : State :=
  { clock := clock, offlineMode := offlineMode }

namespace State

def cancelFlip (s : State) : State :=
  { s with
    timers := s.timers.filter fun t => s.flipTimer ≠ some t.handle
    flipTimer := none
    pendingOnline := none }

/-- `commit`; the drain that it starts is no matter of the connectivity. -/
def commit (online : Bool) (s : State) : State := { s with offlineMode := !online }

/-- `flipTimerRef.current = setTimeout(..., delayMs)` -/
def arm (online : Bool) (delayMs : ℕ) (s : State) : State :=
  { s with
    timers := s.timers ++ [⟨s.nextHandle, online, s.clock + delayMs⟩]
    nextHandle := s.nextHandle + 1
    flipTimer := some s.nextHandle
    pendingOnline := some online }

/-- The listener. -/
def report (online : Bool) (s : State) : State :=
  let action := decideFlap online s.offlineMode s.pendingOnline s.firstNetEvent
  let s := { s with lastReportedOnline := some online, firstNetEvent := false }
  match action with
  | .ignore => s
  | .cancel => s.cancelFlip
  | .commit => s.cancelFlip.commit online
  | .schedule delayMs => s.cancelFlip.arm online delayMs

/-- The callback of a timer. -/
def flip (online : Bool) (s : State) : State :=
  let s := { s with flipTimer := none, pendingOnline := none }
  if s.lastReportedOnline ≠ none ∧ s.lastReportedOnline ≠ some online then s
  else s.commit online

end State

/-- `state.isConnected === true && state.isInternetReachable !== false` -/
def isOnline (isConnected isInternetReachable : Option Bool) : Bool :=
  isConnected = some true && isInternetReachable ≠ some false

inductive Action where
  | netInfo (isConnected isInternetReachable : Option Bool) (now : ℤ)
  | fire (timer : Timer) (now : ℤ)
  | pass (now : ℤ)
  deriving DecidableEq

def Action.now : Action → ℤ
  | .netInfo _ _ now => now
  | .fire _ now => now
  | .pass now => now

/-- What an action reports. -/
def Action.reported : Action → Option Bool
  | .netInfo isConnected isInternetReachable _ => some (isOnline isConnected isInternetReachable)
  | _ => none

/-- An action at its time. -/
def State.perform (s : State) : Action → Option State
  | .netInfo isConnected isInternetReachable _ =>
    some (s.report (isOnline isConnected isInternetReachable))
  | .fire timer now =>
    if timer ∈ s.timers ∧ timer.due ≤ now then
      some ({ s with timers := s.timers.erase timer }.flip timer.online)
    else none
  | .pass _ => some s

/-- Time does not go back. -/
def step (s : State) (a : Action) : Option State :=
  if s.clock ≤ a.now then { s with clock := a.now }.perform a else none

/-! ## What the refs say of the timers -/

/-- How long a report has to hold. -/
def confirmMs (online : Bool) : ℕ := if online then ONLINE_CONFIRM_MS else OFFLINE_CONFIRM_MS

/-- The refs name the timer that is armed, which is towards the other state and comes in time. -/
def Kept (s : State) : Prop :=
  (s.timers = [] ∧ s.flipTimer = none ∧ s.pendingOnline = none) ∨
    ∃ t : Timer, s.timers = [t] ∧ s.flipTimer = some t.handle ∧ s.pendingOnline = some t.online ∧
      s.firstNetEvent = false ∧ s.offlineMode = t.online ∧ t.due ≤ s.clock + confirmMs t.online

theorem kept_initial (clock : ℤ) (offlineMode : Bool) : Kept (.initial clock offlineMode) :=
  .inl ⟨rfl, rfl, rfl⟩

variable {s t : State} {online : Bool} {a : Action} {since : ℤ}

theorem Kept.advance (h : Kept s) {now : ℤ} (hle : s.clock ≤ now) :
    Kept { s with clock := now } := by
  rcases h with hnone | ⟨t, htimers, hflip, hpending, hfirst, hmode, hdue⟩
  · exact .inl hnone
  · exact .inr ⟨t, htimers, hflip, hpending, hfirst, hmode, hdue.trans (by simpa using hle)⟩

theorem Kept.pendingOnline_of_mem (h : Kept s) {t : Timer} (ht : t ∈ s.timers) :
    s.pendingOnline = some t.online := by
  rcases h with ⟨hnil, -, -⟩ | ⟨t', htimers, -, hpending, -⟩
  · rw [hnil] at ht
    cases ht
  · rw [htimers, mem_singleton] at ht
    rw [ht, hpending]

/-- With no timer armed. -/
@[grind =] def State.idle (s : State) : State :=
  { s with timers := [], flipTimer := none, pendingOnline := none }

/-- With what was reported. -/
def State.heard (online : Bool) (s : State) : State :=
  { s with lastReportedOnline := some online, firstNetEvent := false }

theorem Kept.heard (h : Kept s) (online : Bool) : Kept (s.heard online) := by
  rcases h with hnone | ⟨t, htimers, hflip, hpending, -, hmode, hdue⟩
  · exact .inl hnone
  · exact .inr ⟨t, htimers, hflip, hpending, rfl, hmode, hdue⟩

theorem cancelFlip_eq (h : Kept s) : s.cancelFlip = s.idle := by
  rcases h with ⟨htimers, -, -⟩ | ⟨t, htimers, hflip, -⟩
  · simp [State.cancelFlip, State.idle, htimers]
  · simp [State.cancelFlip, State.idle, htimers, hflip]

theorem idle_eq_commit (h : s.offlineMode = !online) : s.idle = s.idle.commit online := by
  simp [State.idle, State.commit, h]

/-- **What a report does**: it is believed, with no timer left; or the timer that is armed stays,
towards it or, through an online report, towards offline; or a timer towards it is armed. -/
theorem report_cases (h : Kept s) (online : Bool) :
    s.report online = (s.heard online).idle.commit online ∨
      (s.report online = s.heard online ∧
        (s.pendingOnline = some online ∨ online = true ∧ s.offlineMode = false)) ∨
      (s.report online = (s.heard online).idle.arm online (confirmMs online) ∧
        s.offlineMode = online ∧ s.pendingOnline ≠ some online) := by
  have hcancel := cancelFlip_eq (h.heard online)
  have hreport : s.report online =
      match decideFlap online s.offlineMode s.pendingOnline s.firstNetEvent with
      | .ignore => s.heard online
      | .cancel => (s.heard online).cancelFlip
      | .commit => (s.heard online).cancelFlip.commit online
      | .schedule delayMs => (s.heard online).cancelFlip.arm online delayMs := rfl
  rw [hreport, hcancel]
  unfold decideFlap
  by_cases hfirst : s.firstNetEvent = true
  · exact .inl (by rw [if_pos hfirst])
  rw [if_neg hfirst]
  by_cases hmode : s.offlineMode = !online
  · rw [if_pos hmode]
    by_cases hpending : s.pendingOnline = some false
    · -- an armed flip towards offline stays through an online report
      rw [if_pos hpending]
      refine .inr (.inl ⟨rfl, .inr ?_⟩)
      rcases h with ⟨-, -, hnone⟩ | ⟨t, -, -, ht, -, hshown, -⟩
      · rw [hnone] at hpending
        cases hpending
      · rw [ht, some.injEq] at hpending
        rw [hpending] at hshown
        refine ⟨?_, hshown⟩
        rw [hshown] at hmode
        simpa using hmode.symm
    · rw [if_neg hpending]
      exact .inl (idle_eq_commit hmode)
  · rw [if_neg hmode]
    by_cases hpending : s.pendingOnline = some online
    · rw [if_pos hpending]
      exact .inr (.inl ⟨rfl, .inl hpending⟩)
    · rw [if_neg hpending]
      refine .inr (.inr ⟨rfl, ?_, hpending⟩)
      cases hshown : s.offlineMode <;> cases online <;> simp_all

theorem kept_arm (hmode : s.offlineMode = online) :
    Kept ((s.heard online).idle.arm online (confirmMs online)) :=
  .inr ⟨_, rfl, rfl, rfl, rfl, hmode, le_rfl⟩

/-- What the callback of the armed timer does: its target is believed if the last report agrees. -/
theorem flip_eq (online : Bool) {last : Bool} (hlast : s.lastReportedOnline = some last) :
    s.flip online =
      let t := { s with flipTimer := none, pendingOnline := none }
      if last = online then t.commit online else t := by
  unfold State.flip
  by_cases heq : last = online
  · simp [hlast, heq]
  · simp [hlast, heq]

/-! ## Steps -/

/-- The refs name the timer that is armed, and the first report is the one after which there is a
last one. -/
structure Inv (s : State) : Prop where
  kept : Kept s
  heard : s.firstNetEvent = false → s.lastReportedOnline ≠ none

/-- **The step lemma**: what an action at its time makes of the state. -/
theorem step_cases (h : Inv s) (hstep : step s a = some t) :
    s.clock ≤ a.now ∧
      ((∃ online, a.reported = some online ∧
          t = ({ s with clock := a.now } : State).report online) ∨
        (∃ timer last, a.reported = none ∧ s.timers = [timer] ∧ timer.due ≤ a.now ∧
          s.offlineMode = timer.online ∧ s.lastReportedOnline = some last ∧
          t = if last = timer.online then
              ({ s with clock := a.now } : State).idle.commit timer.online
            else ({ s with clock := a.now } : State).idle) ∨
        a.reported = none ∧ t = { s with clock := a.now }) := by
  unfold step at hstep
  split at hstep
  · rename_i hle
    refine ⟨hle, ?_⟩
    cases a with
    | netInfo isConnected isInternetReachable now =>
      exact .inl ⟨_, rfl, (some.inj hstep).symm⟩
    | pass now => exact .inr (.inr ⟨rfl, (some.inj hstep).symm⟩)
    | fire timer now =>
      simp only [State.perform] at hstep
      split at hstep
      · rename_i hfire
        rcases h.kept with ⟨htimers, -⟩ | ⟨t', htimers, -, -, hfirst, hmode, -⟩
        · rw [htimers] at hfire
          cases hfire.1
        · rw [htimers, mem_singleton] at hfire
          obtain ⟨rfl, hdue⟩ := hfire
          obtain ⟨last, hlast⟩ := ne_none_iff_exists'.mp (h.heard hfirst)
          refine .inr (.inl ⟨timer, last, rfl, htimers, hdue, hmode, hlast, ?_⟩)
          rw [← some.inj hstep]
          simp only [htimers, erase_cons_head]
          refine (@flip_eq { s with clock := now, timers := [] } timer.online last hlast).trans ?_
          split
          · rfl
          · rfl
      · cases hstep
  · cases hstep

theorem inv_step (h : Inv s) (hstep : step s a = some t) : Inv t := by
  obtain ⟨hle, ⟨online, -, rfl⟩ | ⟨timer, last, -, -, -, -, hlast, rfl⟩ | ⟨-, rfl⟩⟩ :=
    step_cases h hstep
  · have hkept := h.kept.advance hle
    rcases report_cases hkept online with heq | ⟨heq, -⟩ | ⟨heq, hmode, -⟩
    · rw [heq]
      exact ⟨.inl ⟨rfl, rfl, rfl⟩, fun _ => nofun⟩
    · rw [heq]
      exact ⟨hkept.heard online, fun _ => nofun⟩
    · rw [heq]
      exact ⟨kept_arm hmode, fun _ => nofun⟩
  · have hheard : s.firstNetEvent = false → s.lastReportedOnline ≠ none := fun _ => by
      rw [hlast]
      exact nofun
    split
    · exact ⟨.inl ⟨rfl, rfl, rfl⟩, hheard⟩
    · exact ⟨.inl ⟨rfl, rfl, rfl⟩, hheard⟩
  · exact ⟨h.kept.advance hle, h.heard⟩

/-- The state is changed only to what the last report asks for. -/
def ChangesAsReported (s : State) (_ : Action) (t : State) : Prop :=
  t.offlineMode ≠ s.offlineMode → t.lastReportedOnline = some (!t.offlineMode)

theorem changesAsReported_step (h : Inv s) (hstep : step s a = some t) :
    ChangesAsReported s a t := by
  intro hchange
  obtain ⟨hle, ⟨online, -, rfl⟩ | ⟨timer, last, -, -, -, -, hlast, rfl⟩ | ⟨-, rfl⟩⟩ :=
    step_cases h hstep
  · rcases report_cases (h.kept.advance hle) online with heq | ⟨heq, -⟩ | ⟨heq, -⟩
    · rw [heq]
      simp [State.commit, State.idle, State.heard]
    · rw [heq] at hchange
      exact absurd rfl hchange
    · rw [heq] at hchange
      exact absurd rfl hchange
  · split at hchange
    · rename_i heq
      rw [if_pos heq]
      simp [State.commit, State.idle, hlast, heq]
    · exact absurd rfl hchange
  · exact absurd rfl hchange

/-! ## Reports that stay -/

/-- Since a time all reports say the same: it is shown, or a timer towards it is armed that is due
when the report has held for its time. -/
structure Since (online : Bool) (since : ℤ) (s : State) : Prop where
  last : s.lastReportedOnline = some online
  coming : s.offlineMode = (!online) ∧ (online = false → s.timers = []) ∨
    ∃ t ∈ s.timers, t.online = online ∧ t.due ≤ since + confirmMs online

theorem since_report (h : Inv s) (online : Bool) : Since online s.clock (s.report online) := by
  rcases report_cases h.kept online with heq | ⟨heq, hwhy⟩ | ⟨heq, -⟩
  · rw [heq]
    exact ⟨rfl, .inl ⟨rfl, fun _ => rfl⟩⟩
  · rw [heq]
    refine ⟨rfl, ?_⟩
    rcases hwhy with hpending | ⟨rfl, hmode⟩
    · rcases h.kept with ⟨-, -, hnone⟩ | ⟨t, htimers, -, ht, -, -, hdue⟩
      · rw [hnone] at hpending
        cases hpending
      · obtain rfl := some.inj (ht.symm.trans hpending)
        refine .inr ⟨t, ?_, rfl, hdue⟩
        change t ∈ s.timers
        rw [htimers]
        exact mem_singleton.mpr rfl
    · exact .inl ⟨hmode, nofun⟩
  · rw [heq]
    exact ⟨rfl, .inr ⟨_, mem_singleton.mpr rfl, rfl, le_rfl⟩⟩

/-- What is known stays known while nothing else is reported. -/
theorem since_step (h : Inv s) (hsince : Since online since s)
    (hsame : ∀ r ∈ a.reported, r = online) (hstep : step s a = some t) : Since online since t := by
  obtain ⟨hlast, hcoming⟩ := hsince
  obtain ⟨hle, ⟨r, hr, rfl⟩ | ⟨timer, last, -, -, -, hmode, hlast', rfl⟩ | ⟨-, rfl⟩⟩ :=
    step_cases h hstep
  · obtain rfl := hsame r hr
    have hkept := h.kept.advance hle
    rcases report_cases hkept r with heq | ⟨heq, -⟩ | ⟨-, hmode, hpending⟩
    · rw [heq]
      exact ⟨rfl, .inl ⟨rfl, fun _ => rfl⟩⟩
    · rw [heq]
      exact ⟨rfl, hcoming⟩
    · -- a timer is armed only when there was none towards the report
      exfalso
      rcases hcoming with ⟨hagrees, -⟩ | ⟨timer, hmem, honline, -⟩
      · exact Bool.not_ne_self r (hagrees.symm.trans hmode)
      · exact hpending (h.kept.pendingOnline_of_mem hmem |>.trans (congrArg some honline))
  · obtain rfl : online = last := some.inj (hlast.symm.trans hlast')
    by_cases heq : online = timer.online
    · rw [if_pos heq]
      exact ⟨hlast, .inl ⟨by simp [State.commit, State.idle, heq], fun _ => rfl⟩⟩
    · rw [if_neg heq]
      refine ⟨hlast, .inl ⟨?_, fun _ => rfl⟩⟩
      change s.offlineMode = !online
      rw [hmode]
      cases online <;> cases hto : timer.online <;> simp_all
  · exact ⟨hlast, hcoming⟩

/-- No timer is due. -/
def State.Settled (s : State) : Prop := ∀ timer ∈ s.timers, s.clock < timer.due

instance (s : State) : Decidable s.Settled := inferInstanceAs (Decidable (∀ t ∈ s.timers, _))

/-- When the reports have stayed for their time and no timer is due, they are believed. -/
theorem Since.agrees (hsince : Since online since s) (hsettled : s.Settled)
    (hlong : since + confirmMs online ≤ s.clock) : s.offlineMode = !online := by
  rcases hsince.coming with ⟨hagrees, -⟩ | ⟨timer, hmem, -, hdue⟩
  · exact hagrees
  · exact absurd (hsettled timer hmem) (not_lt.mpr (hdue.trans hlong))

theorem Kept.length_le (h : Kept s) : s.timers.length ≤ 1 := by
  rcases h with ⟨htimers, -⟩ | ⟨t, htimers, -⟩
  · rw [htimers]
    exact Nat.zero_le 1
  · rw [htimers]
    exact le_rfl

theorem inv_initial (clock : ℤ) (offlineMode : Bool) : Inv (.initial clock offlineMode) :=
  ⟨kept_initial clock offlineMode, nofun⟩

/-- Reports that stay the same are known to stay. -/
theorem since_run {as : List Action} (h : Inv s) (hsince : Since online since s)
    (hsame : ∀ a ∈ as, ∀ r ∈ a.reported, r = online) (hrun : Machine.run step s as = some t) :
    Since online since t := by
  induction as generalizing s with
  | nil =>
    cases hrun
    exact hsince
  | cons a as ih =>
    obtain ⟨m, hm, hrest⟩ := Machine.run_cons_eq_some.mp hrun
    exact ih (inv_step h hm) (since_step h hsince (hsame a mem_cons_self) hm)
      (fun b hb => hsame b (mem_cons_of_mem a hb)) hrest

/-- **The hysteresis is safe and live**: in every run at most one timer is armed, and `offlineMode`
changes only to what the last report asks for; and when all reports since one have said the same for
their time, a second for online and five for offline, and no timer is due, it is what they say. -/
theorem hysteresis_ok (clock : ℤ) (offlineMode : Bool) (as : List Action) :
    Machine.Always step (fun s => s.timers.length ≤ 1) (.initial clock offlineMode) as ∧
      Machine.Each step ChangesAsReported (.initial clock offlineMode) as ∧
        ∀ s a online bs t, Machine.run step (.initial clock offlineMode) as = some s →
          a.reported = some online → (∀ b ∈ bs, ∀ r ∈ b.reported, r = online) →
          Machine.run step s (a :: bs) = some t → t.Settled →
          a.now + confirmMs online ≤ t.clock → t.offlineMode = !online := by
  have hinit := inv_initial clock offlineMode
  refine ⟨?_, ?_, ?_⟩
  · exact Machine.always_of_step (fun _ _ _ => inv_step) (fun _ h => h.kept.length_le) hinit
  · exact Machine.each_of_meets (fun _ _ _ h _ => inv_step h)
      (fun _ _ _ h _ => changesAsReported_step h) hinit
      (Machine.Meets.of_forall (fun _ _ => trivial) as _)
  · intro s a online bs t hbefore hreport hsame hrun hsettled hlong
    have hs := Machine.inv_run (fun _ _ _ => inv_step) hinit hbefore
    obtain ⟨m, hm, hrest⟩ := Machine.run_cons_eq_some.mp hrun
    have hsince : Since online a.now m := by
      obtain ⟨hle, ⟨r, hr, rfl⟩ | ⟨_, _, hnone, -⟩ | ⟨hnone, -⟩⟩ := step_cases hs hm
      · obtain rfl := Option.some.inj (hr.symm.trans hreport)
        exact since_report ⟨hs.kept.advance hle, hs.heard⟩ r
      · cases hnone.symm.trans hreport
      · cases hnone.symm.trans hreport
    exact (since_run (inv_step hs hm) hsince hsame hrest).agrees hsettled hlong

/-- The first report is offline; the device is online again, and says so twice within a second. -/
theorem hysteresis_ok_online :
    ∃ t, Machine.run step (.initial 0 false)
        [.netInfo (some false) none 0, .netInfo (some true) none 10, .netInfo (some true) none 500,
          .fire ⟨0, true, 1010⟩ 1010] = some t ∧ t.offlineMode = !true :=
  ⟨_, rfl, (hysteresis_ok 0 false [.netInfo (some false) none 0]).2.2 _
    (.netInfo (some true) none 10) true [.netInfo (some true) none 500, .fire ⟨0, true, 1010⟩ 1010]
    _ rfl rfl (by decide) rfl (by decide) (by decide)⟩

end FestivalPlanner.Hysteresis
