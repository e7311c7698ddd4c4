import FestivalPlanner.Sync.ApiClient
import FestivalPlanner.Sync.RetryFailed

/-!
# The retry timer of the offline banner

`OfflineBanner` of the mobile app starts a drain of the queue when the device is online again, when
the app comes to the foreground and when its retry timer fires.  The handler of such a drain arms
the timer when entries are left, and disarms it otherwise.  The api client and `retryFailed` start
drains too, without a handler.

* `decideFlap` — what becomes of a report of the connectivity;
* `runDrain`, `scheduleRetry`, `clearRetryTimer`, `commit` — the functions of the banner;
* `step` — reports, requests, writes that are queued, retries, drains and timers;
* `DrainComing` — while the app is online and the queue is not empty, a drain is under way or the
  timer is armed;
* `Followed` — what a write that is stored, or a drain that ends, must find;
* `drainComing_iff` — a drain is coming throughout a run exactly when its steps are like that.
-/

namespace FestivalPlanner.OfflineBanner

open InFlight Option Keyed
open OfflineQueue (Mutation QueuedMethod FailedSyncItem StoredQueue readQueue sortQueue
  enqueueMutation failedKey)
open RetryFailed (methodOf retriedMutation)

/-! ## Connectivity -/

/-- `OFFLINE_CONFIRM_MS` -/
def OFFLINE_CONFIRM_MS : ℕ := 5000

/-- `ONLINE_CONFIRM_MS` -/
def ONLINE_CONFIRM_MS : ℕ := 1000

inductive FlapAction where
  | commit
  | schedule (delayMs : ℕ)
  | cancel
  | ignore

def decideFlap (online currentOffline : Bool) (pendingOnline : Option Bool) (firstEvent : Bool) :
    FlapAction :=
  if firstEvent then .commit
  else if currentOffline = !online then
    if pendingOnline = some false then .ignore else .cancel
  else if pendingOnline = some online then .ignore
  else .schedule (if online then ONLINE_CONFIRM_MS else OFFLINE_CONFIRM_MS)

/-! ## The banner -/

/-- A change of the connectivity that waits to be believed. -/
structure Flip where
  pendingOnline : Bool
  delayMs : ℕ

/-- The queue, what the banner and the store keep, and the calls that are under way. -/
structure State where
  queue : OfflineQueue.State
  offlineMode : Bool
  /-- Does the running drain belong to a `runDrain`? -/
  drainOfBanner : Bool
  /-- calls of `runDrain` whose drain is over and whose handler has still to run -/
  handlers : ℕ
  /-- imports of the queue by `markOnlineAndDrain`, which then call `drainQueue` -/
  imports : ℕ
  /-- writes on their way into the queue -/
  enqueues : List Mutation
  /-- calls of `retryFailed` before the item is in the queue -/
  retries : List Mutation
  /-- and those after it, which go on with a drain -/
  putBack : List String
  retryTimer : Option ℕ
  backoff : ℕ
  flip : Option Flip
  lastReportedOnline : Option Bool
  firstNetEvent : Bool

def State.clearRetryTimer (s : State) : State := { s with retryTimer := none, backoff := 15000 }

def State.scheduleRetry (s : State) : State :=
  if s.retryTimer.isSome then s
  else { s with retryTimer := some s.backoff, backoff := min (s.backoff * 2) 60000 }

/-- `drainQueue`, called by the banner or not: it returns at once when one runs or offline. -/
@[grind =] def State.drainQueue (s : State) (banner : Bool) (now : ℤ) : State :=
  if s.offlineMode || !s.queue.pc.isIdle then
    { s with handlers := s.handlers + if banner then 1 else 0 }
  else
    let q := readQueue now s.queue
    { s with
      queue := { q with pc := .looping (sortQueue q.queue) }
      drainOfBanner := banner }

def State.runDrain (s : State) (now : ℤ) : State := s.drainQueue true now

/-- The handler of `runDrain`. -/
def State.finally (s : State) : State :=
  if !s.offlineMode && decide (0 < s.queue.pendingSync) then s.scheduleRetry else s.clearRetryTimer

def State.commit (s : State) (online : Bool) (now : ℤ) : State :=
  let s := { s with offlineMode := !online }
  if online then s.runDrain now else s

/-- What the listener of `NetInfo` does. -/
def State.report (s : State) (online : Bool) (now : ℤ) : State :=
  let action := decideFlap online s.offlineMode (s.flip.map Flip.pendingOnline) s.firstNetEvent
  let s := { s with lastReportedOnline := some online, firstNetEvent := false }
  match action with
  | .ignore => if online then s.runDrain now else s
  | .cancel =>
      let s := { s with flip := none }
      if online then s.runDrain now else s
  | .commit => { s with flip := none }.commit online now
  | .schedule delayMs => { s with flip := some ⟨online, delayMs⟩ }

/-- The timer of a flip. -/
def State.flipped (s : State) (f : Flip) (now : ℤ) : State :=
  let s := { s with flip := none }
  if s.lastReportedOnline.isSome && s.lastReportedOnline ≠ some f.pendingOnline then s
  else s.commit f.pendingOnline now

/-! ## The api client -/

/-- `markOffline` -/
def State.markOffline (s : State) : State := { s with offlineMode := true }

/-- `markOnlineAndDrain`; there is no `navigator.onLine` in the app. -/
def State.markOnlineAndDrain (s : State) (path : String) : State :=
  if !s.offlineMode || WebQueue.mentionsFestivals path then s
  else { s with offlineMode := false, imports := s.imports + 1 }

/-! ## The machine -/

inductive Action where
  /-- `NetInfo` reports -/
  | netInfo (isConnected isInternetReachable : Option Bool) (now : ℤ)
  | flipTimer (now : ℤ)
  /-- the app comes to the foreground; what the effect has closed over -/
  | foreground (offlineMode : Bool) (pendingSync : ℕ) (now : ℤ)
  | retryTimer (now : ℤ)
  /-- the handler of a `runDrain` -/
  | handler
  /-- `refreshPendingCount` -/
  | refresh (now : ℤ)
  /-- a write is queued, since the app is offline -/
  | write (m : Mutation)
  /-- a write does not reach the network and is queued -/
  | networkFailure (m : Mutation)
  /-- a request succeeds -/
  | success (path : String)
  /-- the import of `markOnlineAndDrain` -/
  | imported (now : ℤ)
  /-- the write at this place is stored -/
  | enqueue (i : ℕ) (now : ℤ)
  /-- the user retries a failed item -/
  | retry (clientId : String)
  /-- the retried item at this place is stored -/
  | putBack (i : ℕ) (now : ℤ)
  /-- `retryFailed` goes on -/
  | goOn (i : ℕ) (now : ℤ)
  /-- a step of the running drain -/
  | drain (a : OfflineQueue.Action)

/-- The steps of a drain that runs; a failed replay asks whether the app is offline. -/
def isDrain (offlineMode : Bool) : OfflineQueue.Action → Bool
  | .enqueue _ _ _ | .start _ _ => false
  | .reply _ offline => offline == offlineMode
  | .send | .settle _ | .record _ | .rewrite _ | .finish => true

/-- The drain has made a step; when it is over, the handler of its `runDrain` is next. -/
@[grind =] def State.drained (s : State) (q : OfflineQueue.State) : State :=
  if q.pc.isIdle && s.drainOfBanner then
    { s with queue := q, drainOfBanner := false, handlers := s.handlers + 1 }
  else { s with queue := q }

/-- One step. -/
def step (s : State) : Action → Option State
  | .netInfo isConnected isInternetReachable now =>
      some (s.report (decide (isConnected = some true ∧ isInternetReachable ≠ some false)) now)
  | .flipTimer now => s.flip.map fun f => s.flipped f now
  | .foreground offlineMode pendingSync now =>
      some (if !offlineMode && decide (0 < pendingSync) then s.runDrain now else s)
  | .retryTimer now =>
      if s.retryTimer.isSome then some ({ s with retryTimer := none }.runDrain now) else none
  | .handler => if 0 < s.handlers then some { s with handlers := s.handlers - 1 }.finally else none
  | .refresh now =>
      let q := readQueue now s.queue
      some { s with queue := { q with pendingSync := q.queue.length } }
  | .write m => if s.offlineMode then some { s with enqueues := s.enqueues ++ [m] } else none
  | .networkFailure m => some { s.markOffline with enqueues := s.enqueues ++ [m] }
  | .success path => some (s.markOnlineAndDrain path)
  | .imported now =>
      if 0 < s.imports then some ({ s with imports := s.imports - 1 }.drainQueue false now)
      else none
  | .enqueue i now => (s.enqueues[i]?).map fun m =>
      { s with
        queue := enqueueMutation m none now s.queue
        enqueues := s.enqueues.eraseIdx i }
  | .retry clientId =>
      (lookup failedKey clientId s.queue.failedSync).bind fun item =>
        (methodOf item.method).map fun method =>
          { s with retries := s.retries ++ [retriedMutation item method] }
  | .putBack i now => (s.retries[i]?).map fun m =>
      { s with
        queue := enqueueMutation m none now s.queue
        retries := s.retries.eraseIdx i
        putBack := s.putBack ++ [m.clientId] }
  | .goOn i now => (s.putBack[i]?).map fun clientId =>
      let s := { s with
        queue := { s.queue with
          failedSync := erase failedKey clientId s.queue.failedSync }
        putBack := s.putBack.eraseIdx i }
      s.drainQueue false now
  | .drain a =>
      if isDrain s.offlineMode a then (OfflineQueue.step s.queue a).map s.drained else none

/-- The app starts with a stored queue, whose length it does not know yet. -/
def start (q : StoredQueue) (failedSync : List FailedSyncItem) (reconciler : Bool) : State where
  queue := { OfflineQueue.initial q failedSync reconciler with pendingSync := 0 }
  offlineMode := false
  drainOfBanner := false
  handlers := 0
  imports := 0
  enqueues := []
  retries := []
  putBack := []
  retryTimer := none
  backoff := 15000
  flip := none
  lastReportedOnline := none
  firstNetEvent := true

/-! ## A drain is coming -/

/-- The timer is armed, or a call is under way that starts a drain or handles the end of one. -/
def Promised (s : State) : Prop :=
  s.retryTimer.isSome = true ∨ 0 < s.handlers ∨ 0 < s.imports ∨ 0 < s.putBack.length

/-- A drain runs, or there is such a promise of one. -/
def Coming (s : State) : Prop := s.queue.pc.isIdle = false ∨ Promised s

/-- While the app is online and the queue is not empty, a drain is coming. -/
def DrainComing (s : State) : Prop :=
  s.offlineMode = false → s.queue.queue ≠ [] → Coming s

/-- A write is stored while the app is offline or a drain is coming; a drain that is not the
banner's ends with the queue empty, or likewise. -/
def Followed (s : State) : Action → Prop
  | .enqueue _ _ => s.offlineMode = true ∨ Coming s
  | .drain .finish =>
      s.drainOfBanner = true ∨ s.offlineMode = true ∨ s.queue.queue = [] ∨ Promised s
  | _ => True

instance (s : State) : Decidable (Promised s) := inferInstanceAs (Decidable (_ ∨ _ ∨ _ ∨ _))

instance (s : State) : Decidable (Coming s) := inferInstanceAs (Decidable (_ ∨ _))

instance (s : State) : ∀ a, Decidable (Followed s a) := fun a => by
  unfold Followed
  split <;> infer_instance

/-! ## The count in the store -/

section Synced

variable {q q' : OfflineQueue.State} {now : ℤ}

/-- `pendingSync` is the length of the queue. -/
def Synced (q : OfflineQueue.State) : Prop := q.pendingSync = q.queue.length

theorem synced_readQueue (h : Synced q) : Synced (readQueue now q) := by
  simp only [readQueue]
  split
  · exact h
  · exact rfl

theorem synced_enqueue (m : Mutation) (createdAt : Option ℤ) :
    Synced (enqueueMutation m createdAt now q) := rfl

theorem synced_bumpRetries (h : Synced q) (clientId : String) (retries : ℕ) :
    Synced (OfflineQueue.bumpRetries clientId retries now q) := by
  simp only [OfflineQueue.bumpRetries]
  split
  · exact synced_readQueue h
  · exact rfl

theorem synced_rewriteUrls (h : Synced q) (tempId realId : String) :
    Synced (OfflineQueue.rewriteUrls tempId realId now q) := by
  simp only [OfflineQueue.rewriteUrls]
  split
  · exact rfl
  · exact synced_readQueue h

theorem synced_step (h : Synced q) {a : OfflineQueue.Action} (ht : OfflineQueue.step q a = some q') :
    Synced q' := by
  cases OfflineQueue.Step.of_step ht with
  | enqueue m createdAt now => exact synced_enqueue m createdAt
  | start now hpc => exact synced_readQueue h
  | settle m r rest now t hpc hset =>
    cases hset with
    | keeps => exact synced_bumpRetries h _ _
    | learns | removes | fails => exact rfl
  | rewrite m realId rest now hpc => exact synced_rewriteUrls h _ _
  | skip | send | succeed | stop | fail | record | finish => exact h

end Synced

/-! ## What a step does -/

section Steps

variable {s t : State} {now : ℤ}

/-- A drain that is called while the app is online runs. -/
theorem drainQueue_cases (s : State) (banner : Bool) (now : ℤ) :
    (s.drainQueue banner now).queue.pc.isIdle = false ∨
      s.offlineMode = true ∧ (s.drainQueue banner now).queue = s.queue := by
  unfold State.drainQueue
  split
  · next h =>
    rcases Bool.or_eq_true_iff.mp h with hoffline | hbusy
    · exact .inr ⟨hoffline, rfl⟩
    · exact .inl (by simpa using hbusy)
  · exact .inl rfl

@[simp] theorem drainQueue_offlineMode (s : State) (banner : Bool) (now : ℤ) :
    (s.drainQueue banner now).offlineMode = s.offlineMode := by
  unfold State.drainQueue
  split <;> rfl

theorem synced_drainQueue (h : Synced s.queue) (banner : Bool) :
    Synced (s.drainQueue banner now).queue := by
  unfold State.drainQueue
  split
  · exact h
  · exact synced_readQueue (q := s.queue) h

/-- Whoever calls it. -/
theorem drainComing_drainQueue (s : State) (banner : Bool) (now : ℤ) :
    DrainComing (s.drainQueue banner now) := by
  intro honline _
  rcases drainQueue_cases s banner now with hbusy | ⟨hoffline, -⟩
  · exact .inl hbusy
  · rw [drainQueue_offlineMode, hoffline] at honline
    cases honline

/-- A drain is still coming when nothing of it is taken back and no entry is added. -/
theorem DrainComing.of_same (h : DrainComing s)
    (hoffline : t.offlineMode = false → s.offlineMode = false)
    (hqueue : s.queue.queue = [] → t.queue.queue = []) (hcoming : Coming s → Coming t) :
    DrainComing t := by
  intro honline hne
  exact hcoming (h (hoffline honline) fun hnil => hne (hqueue hnil))

theorem drainComing_finally (h : Synced s.queue) : DrainComing s.finally := by
  unfold State.finally
  split
  · next hpending =>
    intro _ _
    refine .inr (.inl ?_)
    unfold State.scheduleRetry
    split
    · assumption
    · rfl
  · next hpending =>
    intro honline hne
    have hlength : 0 < s.queue.queue.length := List.length_pos_iff.mpr hne
    rw [← h] at hlength
    have honline : s.offlineMode = false := honline
    exact absurd (by simp [honline, hlength]) hpending

theorem synced_finally (h : Synced s.queue) : Synced s.finally.queue := by
  unfold State.finally State.scheduleRetry State.clearRetryTimer
  split
  · split <;> exact h
  · exact h

theorem drainComing_commit (s : State) (online : Bool) (now : ℤ) :
    DrainComing (s.commit online now) := by
  cases online with
  | true => exact drainComing_drainQueue _ true now
  | false =>
    intro honline
    cases honline

theorem synced_commit (h : Synced s.queue) (online : Bool) : Synced (s.commit online now).queue := by
  cases online with
  | true => exact synced_drainQueue (s := { s with offlineMode := false }) h true
  | false => exact h

theorem drainComing_report (h : DrainComing s) (online : Bool) : DrainComing (s.report online now) := by
  unfold State.report
  dsimp only
  split
  · cases online with
    | true => exact drainComing_drainQueue _ true now
    | false => exact h
  · cases online with
    | true => exact drainComing_drainQueue _ true now
    | false => exact h
  · exact drainComing_commit _ online now
  · exact h

theorem synced_report (h : Synced s.queue) (online : Bool) : Synced (s.report online now).queue := by
  unfold State.report
  dsimp only
  split
  · cases online with
    | true => exact synced_drainQueue (s := { s with
        lastReportedOnline := some true, firstNetEvent := false }) h true
    | false => exact h
  · cases online with
    | true => exact synced_drainQueue (s := { s with
        lastReportedOnline := some true, firstNetEvent := false, flip := none }) h true
    | false => exact h
  · exact synced_commit (s := { s with
      lastReportedOnline := some online, firstNetEvent := false, flip := none }) h online
  · exact h

/-! ## The running drain -/

@[simp] theorem drained_queue (s : State) (q : OfflineQueue.State) : (s.drained q).queue = q := by
  unfold State.drained
  split <;> rfl

@[simp] theorem drained_offlineMode (s : State) (q : OfflineQueue.State) :
    (s.drained q).offlineMode = s.offlineMode := by
  unfold State.drained
  split <;> rfl

/-- The handler of a `runDrain` follows its drain; every other promise stays. -/
theorem promised_drained (s : State) {q : OfflineQueue.State} (hq : q.pc.isIdle = true) :
    Promised (s.drained q) ↔ s.drainOfBanner = true ∨ Promised s := by
  unfold State.drained
  rw [hq, Bool.true_and]
  split
  · next hbanner => exact iff_of_true (.inr (.inl (Nat.succ_pos _))) (.inl hbanner)
  · next hbanner => exact (or_iff_right hbanner).symm

/-- A drain that ends before its loop does has found the app offline. -/
theorem offline_of_stop {a : OfflineQueue.Action} {q q' : OfflineQueue.State}
    (ha : isDrain s.offlineMode a = true) (hfinish : a ≠ .finish)
    (h : OfflineQueue.step q a = some q') (hq' : q'.pc.isIdle = true) : s.offlineMode = true := by
  cases OfflineQueue.Step.of_step h with
  | stop m rest status message hpc => exact (eq_of_beq ha).symm
  | settle m r rest now t hpc hset => cases hset <;> cases hq'
  | enqueue | skip | start => cases ha
  | send | succeed | fail | record | rewrite => cases hq'
  | finish => exact absurd rfl hfinish

/-- A step of the drain, other than the end of its loop. -/
theorem drainComing_drained {a : OfflineQueue.Action} {q : OfflineQueue.State}
    (ha : isDrain s.offlineMode a = true) (hfinish : a ≠ .finish)
    (h : OfflineQueue.step s.queue a = some q) : DrainComing (s.drained q) := by
  intro honline _
  rw [drained_offlineMode] at honline
  refine .inl ?_
  rw [drained_queue]
  by_contra hidle
  rw [Bool.not_eq_false] at hidle
  rw [offline_of_stop ha hfinish h hidle] at honline
  cases honline

/-- The end of the loop. -/
theorem drainComing_finished {q : OfflineQueue.State}
    (h : OfflineQueue.step s.queue .finish = some q) :
    DrainComing (s.drained q) ↔ Followed s (.drain .finish) := by
  obtain ⟨hq, hidle⟩ : q.queue = s.queue.queue ∧ q.pc.isIdle = true := by
    cases OfflineQueue.Step.of_step h
    exact ⟨rfl, rfl⟩
  unfold DrainComing Coming Followed
  rw [drained_offlineMode, drained_queue, hq, hidle, promised_drained s hidle]
  cases s.offlineMode <;> cases s.drainOfBanner <;> simp [or_iff_not_imp_left]

end Steps

/-! ## Every run -/

section Runs

variable {s t : State} {a : Action}

theorem synced_of_step (h : Synced s.queue) (ht : step s a = some t) : Synced t.queue := by
  cases a with
  | netInfo isConnected isInternetReachable now =>
    obtain rfl := some.inj ht
    exact synced_report h _
  | flipTimer now =>
    obtain ⟨f, -, rfl⟩ := map_eq_some_iff.mp ht
    unfold State.flipped
    dsimp only
    split
    · exact h
    · exact synced_commit (s := { s with flip := none }) h _
  | foreground offlineMode pendingSync now =>
    obtain rfl := some.inj ht
    split
    · exact synced_drainQueue h true
    · exact h
  | retryTimer now =>
    obtain ⟨-, ht⟩ := ite_none_right_eq_some.mp ht
    obtain rfl := some.inj ht
    exact synced_drainQueue (s := { s with retryTimer := none }) h true
  | handler =>
    obtain ⟨-, ht⟩ := ite_none_right_eq_some.mp ht
    obtain rfl := some.inj ht
    exact synced_finally (s := { s with handlers := s.handlers - 1 }) h
  | refresh now =>
    obtain rfl := some.inj ht
    exact rfl
  | write m =>
    obtain ⟨-, ht⟩ := ite_none_right_eq_some.mp ht
    obtain rfl := some.inj ht
    exact h
  | networkFailure m =>
    obtain rfl := some.inj ht
    exact h
  | success path =>
    obtain rfl := some.inj ht
    unfold State.markOnlineAndDrain
    split <;> exact h
  | imported now =>
    obtain ⟨-, ht⟩ := ite_none_right_eq_some.mp ht
    obtain rfl := some.inj ht
    exact synced_drainQueue (s := { s with imports := s.imports - 1 }) h false
  | enqueue i now =>
    obtain ⟨m, -, rfl⟩ := map_eq_some_iff.mp ht
    exact synced_enqueue m none
  | retry clientId =>
    obtain ⟨item, -, ht⟩ := bind_eq_some_iff.mp ht
    obtain ⟨method, -, rfl⟩ := map_eq_some_iff.mp ht
    exact h
  | putBack i now =>
    obtain ⟨m, -, rfl⟩ := map_eq_some_iff.mp ht
    exact synced_enqueue m none
  | goOn i now =>
    obtain ⟨clientId, -, rfl⟩ := map_eq_some_iff.mp ht
    exact synced_drainQueue (s := { s with
      queue := { s.queue with failedSync := erase failedKey clientId s.queue.failedSync }
      putBack := s.putBack.eraseIdx i }) h false
  | drain b =>
    obtain ⟨-, ht⟩ := ite_none_right_eq_some.mp ht
    obtain ⟨q, hq, rfl⟩ := map_eq_some_iff.mp ht
    rw [drained_queue]
    exact synced_step h hq

/-- A stored write needs a drain. -/
theorem drainComing_enqueued (m : Mutation) (i : ℕ) (now : ℤ) :
    DrainComing { s with
      queue := enqueueMutation m none now s.queue
      enqueues := s.enqueues.eraseIdx i } ↔ Followed s (.enqueue i now) := by
  have hne : (enqueueMutation m none now s.queue).queue ≠ [] := by
    rw [OfflineQueue.enqueueMutation_queue]
    exact List.ne_nil_of_mem (mem_upsert_self _ _)
  have hpc : (enqueueMutation m none now s.queue).pc = s.queue.pc :=
    OfflineQueue.enqueueMutation_pc now s.queue m none
  unfold DrainComing Coming Followed
  dsimp only
  rw [hpc]
  constructor
  · intro h
    by_cases hoffline : s.offlineMode = true
    · exact .inl hoffline
    · exact .inr (h (Bool.eq_false_of_not_eq_true hoffline) hne)
  · rintro (hoffline | hcoming) honline -
    · rw [hoffline] at honline
      cases honline
    · exact hcoming

theorem drainComing_step (hsynced : Synced s.queue) (h : DrainComing s) (ht : step s a = some t) :
    DrainComing t ↔ Followed s a := by
  cases a with
  | netInfo isConnected isInternetReachable now =>
    obtain rfl := some.inj ht
    exact iff_of_true (drainComing_report h _) trivial
  | flipTimer now =>
    obtain ⟨f, -, rfl⟩ := map_eq_some_iff.mp ht
    refine iff_of_true ?_ trivial
    unfold State.flipped
    dsimp only
    split
    · exact h
    · exact drainComing_commit _ _ now
  | foreground offlineMode pendingSync now =>
    obtain rfl := some.inj ht
    refine iff_of_true ?_ trivial
    split
    · exact drainComing_drainQueue s true now
    · exact h
  | retryTimer now =>
    obtain ⟨-, ht⟩ := ite_none_right_eq_some.mp ht
    obtain rfl := some.inj ht
    exact iff_of_true (drainComing_drainQueue _ true now) trivial
  | handler =>
    obtain ⟨-, ht⟩ := ite_none_right_eq_some.mp ht
    obtain rfl := some.inj ht
    exact iff_of_true (drainComing_finally (s := { s with handlers := s.handlers - 1 }) hsynced)
      trivial
  | refresh now =>
    obtain rfl := some.inj ht
    refine iff_of_true (h.of_same id (fun hnil => ?_) fun hcoming => ?_) trivial
    · simp [hnil]
    · rcases hcoming with hbusy | hpromised
      · exact .inl (by simpa using hbusy)
      · exact .inr hpromised
  | write m =>
    obtain ⟨-, ht⟩ := ite_none_right_eq_some.mp ht
    obtain rfl := some.inj ht
    exact iff_of_true h trivial
  | networkFailure m =>
    obtain rfl := some.inj ht
    exact iff_of_true (fun honline => by cases honline) trivial
  | success path =>
    obtain rfl := some.inj ht
    refine iff_of_true ?_ trivial
    unfold State.markOnlineAndDrain
    split
    · exact h
    · exact fun _ _ => .inr (.inr (.inr (.inl (Nat.succ_pos _))))
  | imported now =>
    obtain ⟨-, ht⟩ := ite_none_right_eq_some.mp ht
    obtain rfl := some.inj ht
    exact iff_of_true (drainComing_drainQueue _ false now) trivial
  | enqueue i now =>
    obtain ⟨m, -, rfl⟩ := map_eq_some_iff.mp ht
    exact drainComing_enqueued m i now
  | retry clientId =>
    obtain ⟨item, -, ht⟩ := bind_eq_some_iff.mp ht
    obtain ⟨method, -, rfl⟩ := map_eq_some_iff.mp ht
    exact iff_of_true h trivial
  | putBack i now =>
    obtain ⟨m, -, rfl⟩ := map_eq_some_iff.mp ht
    refine iff_of_true (fun _ _ => .inr (.inr (.inr (.inr ?_)))) trivial
    simp
  | goOn i now =>
    obtain ⟨clientId, -, rfl⟩ := map_eq_some_iff.mp ht
    exact iff_of_true (drainComing_drainQueue _ false now) trivial
  | drain b =>
    obtain ⟨hb, ht⟩ := ite_none_right_eq_some.mp ht
    obtain ⟨q, hq, rfl⟩ := map_eq_some_iff.mp ht
    cases b with
    | finish => exact drainComing_finished hq
    | enqueue | start => cases hb
    | send | reply | settle | record | rewrite =>
      refine iff_of_true (drainComing_drained hb ?_ hq) trivial
      simp

/-- Nothing is under way when the app starts. -/
theorem not_coming_start {q : StoredQueue} {failedSync : List FailedSyncItem} {reconciler : Bool} :
    ¬Coming (start q failedSync reconciler) := by
  rintro (hbusy | htimer | hhandlers | himports | hput)
  · cases hbusy
  · cases htimer
  · exact Nat.not_lt_zero _ hhandlers
  · exact Nat.not_lt_zero _ himports
  · exact Nat.not_lt_zero _ hput

/-- **A drain is coming throughout a run exactly when the app starts with an empty queue, no write
is stored and no drain without a handler leaves entries while the app is online and no other drain
is coming.** -/
theorem drainComing_iff {q : StoredQueue} {failedSync : List FailedSyncItem} {reconciler : Bool}
    {as : List Action} (hrun : Machine.run step (start q failedSync reconciler) as = some t) :
    Machine.Always step DrainComing (start q failedSync reconciler) as ↔
      q.entries = [] ∧ Machine.Meets step Followed (start q failedSync reconciler) as := by
  have hiff (hnil : q.entries = []) :
      Machine.Always step DrainComing (start q failedSync reconciler) as ↔
        Machine.Meets step Followed (start q failedSync reconciler) as := by
    have hqueue : (start q failedSync reconciler).queue.queue = [] := by
      simp [start, OfflineQueue.initial, hnil, OfflineQueue.number]
    refine Machine.always_iff_meets_of_inv (fun _ _ _ hI _ => synced_of_step hI)
      (fun _ _ _ hI hP => drainComing_step hI hP) ?_ (fun _ hne => absurd hqueue hne) hrun
    unfold Synced
    rw [hqueue]
    rfl
  constructor
  · intro h
    have hnil : q.entries = [] := by
      by_contra hne
      have hqueue : (start q failedSync reconciler).queue.queue ≠ [] := by
        obtain ⟨e, rest, heq⟩ := List.exists_cons_of_ne_nil hne
        simp [start, OfflineQueue.initial, heq, OfflineQueue.number]
      exact not_coming_start (h.head rfl hqueue)
    exact ⟨hnil, (hiff hnil).mp h⟩
  · rintro ⟨hnil, hmeets⟩
    exact (hiff hnil).mpr hmeets

end Runs

/-- A new pick of Ana's profile. -/
def pick : Mutation where
  clientId := "PUT:/profiles/ana"
  url := "/profiles/ana"
  method := .put
  body := some (.str "late set")

def emptyQueue : StoredQueue := ⟨[], List.nodup_nil⟩

/-- The app starts online, with nothing to drain. -/
def launched : List Action :=
  [.refresh 0, .netInfo (some true) none 0, .drain .finish, .handler]

/-- The network is lost and a pick is queued; when `NetInfo` reports that it is back, the server does
not answer, and the retry timer drains what is left. -/
def retried : List Action :=
  launched ++ [.netInfo (some false) none 10, .flipTimer 15, .write pick, .enqueue 0 20,
    .netInfo (some true) (some true) 30, .flipTimer 31, .drain .send,
    .drain (.reply (.error (some 503) "Service Unavailable") false), .drain (.settle 32),
    .drain .finish, .handler, .retryTimer 47, .drain .send, .drain (.reply (.ok .null) false),
    .drain (.settle 48), .drain .finish, .handler]

theorem retried_drainComing : ∃ s ∈ Machine.run step (start emptyQueue [] true) retried,
    s.queue.queue.length = 0 ∧ s.retryTimer = none ∧
    Machine.Always step DrainComing (start emptyQueue [] true) retried := by
  obtain ⟨s, hs, hempty, htimer⟩ : ∃ s ∈ Machine.run step (start emptyQueue [] true) retried,
      s.queue.queue.length = 0 ∧ s.retryTimer = none := by
    decide
  exact ⟨s, hs, hempty, htimer, (drainComing_iff hs).mpr ⟨rfl, by decide⟩⟩

/-- **A drain of the api client has no handler**: a pick is queued when the network fails, the next
request succeeds, and the drain that the client starts meets a `503`.  The app is online, the pick
is in the queue, no drain runs and no timer is armed. -/
theorem api_drain_leaves_pick : ¬∀ (q : StoredQueue) (failedSync : List FailedSyncItem)
    (reconciler : Bool) (as : List Action) (s : State),
    Machine.run step (start q failedSync reconciler) as = some s → DrainComing s := by
  intro h
  obtain ⟨s, hs, honline, hleft, hnone⟩ : ∃ s ∈ Machine.run step (start emptyQueue [] true)
      (launched ++ [.networkFailure pick, .enqueue 0 10, .success "/me", .imported 20, .drain .send,
        .drain (.reply (.error (some 503) "Service Unavailable") false), .drain (.settle 21),
        .drain .finish]),
      s.offlineMode = false ∧ s.queue.queue.length ≠ 0 ∧ ¬Coming s := by
    decide
  refine hnone (h _ _ _ _ s hs honline fun hnil => hleft ?_)
  rw [hnil]
  rfl

end FestivalPlanner.OfflineBanner
