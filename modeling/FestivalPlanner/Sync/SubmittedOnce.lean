import FestivalPlanner.Lib.InFlight
import FestivalPlanner.Sync.ApiClient
import FestivalPlanner.Sync.Replay

/-!
# A write submitted once

`apiRequest` of `packages/shared/src/services/api.ts`, called once for each write, in front of the
offline queue, its drain and the idempotency middleware.

* `Submission` — a call of `apiRequest`: the request it sent last, and what the caller was told;
* `step` — the machine: requests are lost, executed and answered, answers are lost, late or
  unreadable, a session is refreshed, and the queue is drained, in any order;
* `Accounted`, `executions` — where the write is, and how often the server executed it;
* `Careful` — the condition on a step; `submitted_once` — a run that meets it.

A request of `apiRequest` carries no `Idempotency-Key`, so it is followed
outside of the cache; a replay carries the client id of its entry.
-/

namespace FestivalPlanner.SubmittedOnce

open List Option InFlight

open OfflineQueue (QueuedMutation FailedSyncItem StoredQueue)
open Replay (ApiCall)

/-! ## Requests -/

/-- Where the last request of a call is. -/
inductive Attempt where
  | unsent
  | travelling
  | lost
  /-- Its handler runs; has it written? -/
  | handling (written : Bool)
  | answered (status : ℕ) (written : Bool)

/-- What happens to a request. -/
inductive AttemptEvent where
  | reach | lose | write
  | answer (status : ℕ)

/-- A handler answers with success only after it has written, and `userAuth` refuses a request
before the handler runs. -/
def mayAnswer (status : ℕ) (written : Bool) : Bool :=
  (!WebQueue.isOk status || written) && !(status = 401 && written)

@[grind =] def Attempt.step : Attempt → AttemptEvent → Option Attempt
  | travelling, .reach => some (handling false)
  | travelling, .lose => some lost
  | handling false, .lose => some lost
  | handling false, .write => some (handling true)
  | handling written, .answer status =>
      if mayAnswer status written = true then some (answered status written) else none
  | _, _ => none

def Attempt.written : Attempt → Bool
  | handling written | answered _ written => written
  | unsent | travelling | lost => false

/-- Its handler has not written, and will not. -/
def Attempt.isIdle : Attempt → Bool
  | unsent | lost | answered _ false => true
  | travelling | handling _ | answered _ true => false

/-! ## Calls of `apiRequest` -/

/-- How a call ends. -/
inductive Outcome where
  /-- With the result of the server. -/
  | acknowledged
  /-- With the error of the server. -/
  | rejected (status : ℕ)
  /-- With an optimistic result; the entry of the queue has this number. -/
  | queued (serial : ℕ)
  /-- With a network error. -/
  | unreachable

inductive Phase where
  | fetching (isRetry : Bool)
  /-- `await _refreshPromise` -/
  | refreshing
  | settled (outcome : Outcome)

/-- A call of `apiRequest`. -/
structure Submission where
  call : ApiCall
  randomId : String
  attempt : Attempt
  phase : Phase

/-- What is the same throughout a run. -/
structure Setting where
  cache : Idempotency.Config
  user : String
  /-- Is `_onUnauthorized` set? -/
  onUnauthorized : Bool

/-- The calls of `apiRequest`, and the queue with its drain, the wire and the server. -/
structure System where
  sync : Replay.World
  submissions : List Submission

/-- No call yet; the queue and the failed list as they were stored. -/
def start (stored : StoredQueue) (failedSync : List FailedSyncItem) (reconciler : Bool) :
    System where
  sync :=
    { Replay.initial failedSync reconciler with
      client := OfflineQueue.initial stored failedSync reconciler }
  submissions := []

/-! ## The machine -/

/-- What can happen next; a call is addressed by its number. -/
inductive Action where
  /-- `apiRequest` is called. -/
  | submit (call : ApiCall) (randomId : String) (offlineMode : Bool) (now : ℤ)
  /-- Something happens to the last request of a call. -/
  | attempt (k : ℕ) (event : AttemptEvent)
  /-- The client reads the answer. -/
  | receive (k : ℕ)
  /-- `_onUnauthorized` is done. -/
  | refresh (k : ℕ) (refresh : WebQueue.Refresh) (now : ℤ)
  /-- The `fetch` rejects or times out, or the body is unreadable. -/
  | fail (k : ℕ) (now : ℤ)
  /-- The queue, the drain, the wire or the server takes a step. -/
  | sync (a : Replay.Action)

/-- The steps of `Replay` that are not about direct writes, which are followed here. -/
def isQueueSide : Replay.Action → Bool
  | .enqueue _ _ _ | .drain _ | .send | .refresh | .arrive _ _ _ | .lose _ | .receive _ | .fail _ _
  | .commit _ | .server _ => true
  | .write _ _ | .land _ | .loseDirect _ | .succeed _ | .refuse _ | .queueDirect _ _ => false

def isOfflineEligible (call : ApiCall) : Bool := WebQueue.isOfflineEligible call.path

def System.put (s : System) (k : ℕ) (x : Submission) : System :=
  { s with submissions := s.submissions.set k x }

/-- The call ends with an optimistic result. -/
def Submission.queue (x : Submission) (w : Replay.World) : Submission :=
  { x with phase := .settled (.queued w.client.nextSerial) }

/-- `enqueueOfflineMutation` -/
def Submission.enqueue (x : Submission) (now : ℤ) (w : Replay.World) : Replay.World :=
  Replay.queueWrite (Replay.enqueueOfflineMutation x.call x.randomId) none now w

/-- `maybeQueueOffline`, and the first request. -/
def System.submit (s : System) (call : ApiCall) (randomId : String) (offlineMode : Bool) (now : ℤ) :
    System :=
  let x : Submission := ⟨call, randomId, .unsent, .fetching false⟩
  if isOfflineEligible call && offlineMode then
    { sync := x.enqueue now s.sync, submissions := s.submissions ++ [x.queue s.sync] }
  else { s with submissions := s.submissions ++ [{ x with attempt := .travelling }] }

/-- What a response makes of a call: a 401 is followed by a refresh of the session. -/
def Submission.received (cfg : Setting) (x : Submission) (isRetry : Bool) (status : ℕ) : Phase :=
  if WebQueue.isOk status then .settled .acknowledged
  else if status = 401 && cfg.onUnauthorized && !isRetry && !Js.includes "/auth/" x.call.path then
    .refreshing
  else .settled (.rejected status)

/-- The `catch` of `apiRequest`. -/
def System.networkFailure (s : System) (k : ℕ) (x : Submission) (isRetry : Bool) (now : ℤ) :
    System :=
  if !isRetry && isOfflineEligible x.call then
    { sync := x.enqueue now s.sync, submissions := s.submissions.set k (x.queue s.sync) }
  else s.put k { x with phase := .settled .unreachable }

/-- A step of the call number `k`. -/
def System.advance (cfg : Setting) (s : System) (k : ℕ) (x : Submission) : Action → Option System
  | .attempt _ event => (x.attempt.step event).map (fun attempt => s.put k { x with attempt })
  | .receive _ =>
      match x.phase, x.attempt with
      | .fetching isRetry, .answered status _ =>
          some (s.put k { x with phase := x.received cfg isRetry status })
      | _, _ => none
  | .refresh _ refresh now =>
      match x.phase, refresh with
      | .refreshing, .refreshed =>
          some (s.put k { x with attempt := .travelling, phase := .fetching true })
      | .refreshing, .refused => some (s.put k { x with phase := .settled (.rejected 401) })
      | .refreshing, .threw _ => some (s.networkFailure k x false now)
      | _, _ => none
  | .fail _ now =>
      match x.phase with
      | .fetching isRetry => some (s.networkFailure k x isRetry now)
      | _ => none
  | .submit _ _ _ _ | .sync _ => none

/-- One step. -/
@[grind =] def step (cfg : Setting) (s : System) : Action → Option System
  | .submit call randomId offlineMode now => some (s.submit call randomId offlineMode now)
  | .sync a =>
      if isQueueSide a = true then
        (Replay.step cfg.cache cfg.user s.sync a).map (fun w => { s with sync := w })
      else none
  | .attempt k event => s.submissions[k]?.bind (fun x => s.advance cfg k x (.attempt k event))
  | .receive k => s.submissions[k]?.bind (fun x => s.advance cfg k x (.receive k))
  | .refresh k refresh now =>
      s.submissions[k]?.bind (fun x => s.advance cfg k x (.refresh k refresh now))
  | .fail k now => s.submissions[k]?.bind (fun x => s.advance cfg k x (.fail k now))

/-! ## The promise -/

/-- Is this request at the server a replay of the entry? -/
def isReplayOf (w : Replay.World) (serial i : ℕ) : Bool :=
  match w.server.calls[i]? with
  | some ⟨r, _⟩ =>
      match r.payload with
      | some m => decide (m.serial = serial)
      | none => false
  | none => false

/-- How many replays of the entry were executed. -/
def executedReplays (w : Replay.World) (serial : ℕ) : ℕ :=
  ((List.range w.server.calls.length).filter
    (fun i => isReplayOf w serial i && decide (i ∈ w.committed))).length

/-- How often the server executed the write. -/
def executions (s : System) (x : Submission) : ℕ :=
  (if x.attempt.written then 1 else 0) +
    match x.phase with
    | .settled (.queued serial) => executedReplays s.sync serial
    | _ => 0

/-- The queue has the write of this call as the entry of this number: it is held, unless a later
write of its client id has replaced it, or it was acknowledged, or is shown as failed. -/
def InQueue (w : Replay.World) (x : Submission) (serial : ℕ) : Prop :=
  ∃ e ∈ w.client.accepted, e.serial = serial ∧
    e.toMutation = Replay.enqueueOfflineMutation x.call x.randomId ∧
    (OfflineQueue.Superseded w.client e ∨ OfflineQueue.Delivered w.client e ∨
      OfflineQueue.Kept w.client e ∨ OfflineQueue.BeingRecorded w.client.pc e)

/-- The write is under way, reported as rejected, held in the queue, or acknowledged. -/
def Accounted (s : System) (x : Submission) : Prop :=
  match x.phase with
  | .fetching _ | .refreshing | .settled .acknowledged | .settled (.rejected _) => True
  | .settled (.queued serial) => InQueue s.sync x serial
  | .settled .unreachable => isOfflineEligible x.call = false

/-- Every write is accounted for, and executed once at most. -/
def Sound (s : System) : Prop := ∀ x ∈ s.submissions, Accounted s x ∧ executions s x ≤ 1

/-! ## The condition -/

/-- Does a request start its handler when it arrives? -/
def startsHandler {π : Type*} (s : Idempotency.State π) (r : Idempotency.Request π) : Bool :=
  match r.cacheKey with
  | none => true
  | some key => (Keyed.lookup Idempotency.Slot.key key s.cache).isNone

/-- Is this request a replay of the entry whose handler runs, or has written? -/
def executes (w : Replay.World) (serial i : ℕ) : Bool :=
  isReplayOf w serial i &&
    (((w.server.calls[i]?).map (fun c => c.phase.isRunning)).getD false ||
      decide (i ∈ w.committed))

/-- No replay of the entry is being executed, or was. -/
def Unexecuted (w : Replay.World) (serial : ℕ) : Prop :=
  ∀ i < w.server.calls.length, executes w serial i = false

/-- The first request of the call is under way, and has not written and will not. -/
def FirstIsIdle (attempt : Attempt) : Phase → Prop
  | .fetching isRetry => isRetry = false ∧ attempt.isIdle = true
  | .refreshing | .settled _ => True

/-- A write that may be queued fails in the network with its first request only, and while that
one is idle. -/
def FailsIdle (x : Submission) : Prop :=
  isOfflineEligible x.call = true → FirstIsIdle x.attempt x.phase

/-- A replay starts its handler for an entry that was not executed before, and the drain does not
remove a newer write with the one it replayed. -/
def CarefulSync (user : String) (w : Replay.World) : Replay.Action → Prop
  | .drain a => OfflineQueue.KeepsNewer w.client a
  | .arrive k ip _ =>
      ∀ p ∈ w.wire[k]?,
        startsHandler w.server (Replay.replayRequest user ip p.1) = true → Unexecuted w p.1.serial
  | .server (.resume _) =>
      ∀ i ∈ w.server.microtasks.head?, ∀ c ∈ w.server.calls[i]?, ∀ m ∈ c.request.payload,
        Unexecuted w m.serial
  | _ => True

/-- The condition on a step. -/
def Careful (cfg : Setting) (s : System) : Action → Prop
  | .fail k _ => ∀ x ∈ s.submissions[k]?, FailsIdle x
  | .sync a => CarefulSync cfg.user s.sync a
  | .submit _ _ _ _ | .attempt _ _ | .receive _ | .refresh _ _ _ => True

instance (w : Replay.World) (serial : ℕ) : Decidable (Unexecuted w serial) :=
  inferInstanceAs (Decidable (∀ i < _, _))

instance FirstIsIdle.decidable (attempt : Attempt) : ∀ phase, Decidable (FirstIsIdle attempt phase)
  | .fetching _ => inferInstanceAs (Decidable (_ ∧ _))
  | .refreshing | .settled _ => .isTrue trivial

instance (x : Submission) : Decidable (FailsIdle x) := inferInstanceAs (Decidable (_ → _))

instance CarefulSync.decidable (user : String) (w : Replay.World) :
    ∀ a, Decidable (CarefulSync user w a) := fun a => by
  unfold CarefulSync
  split <;> infer_instance

instance Careful.decidable (cfg : Setting) (s : System) : ∀ a, Decidable (Careful cfg s a) := fun a => by
  unfold Careful
  split <;> infer_instance

/-! ## The queue -/

section Queue

variable {s t : OfflineQueue.State} {a : OfflineQueue.Action}

/-- What was accepted stays accepted. -/
theorem accepted_step (h : OfflineQueue.step s a = some t) : ∀ e ∈ s.accepted, e ∈ t.accepted := by
  intro e he
  cases OfflineQueue.Step.of_step h with
  | enqueue m createdAt now =>
    rw [OfflineQueue.enqueueMutation_accepted]
    exact mem_append_left _ he
  | skip => exact he
  | start now hpc => exact (OfflineQueue.readQueue_accepted now s).symm ▸ he
  | send | succeed => simpa [OfflineQueue.State.accepted, OfflineQueue.Event.accepted?] using he
  | stop | fail | finish => exact he
  | settle m r rest now t hpc hset =>
    cases hset with
    | learns | removes | fails =>
      exact (OfflineQueue.removeEntry_accepted m.clientId now s).symm ▸ he
    | keeps => exact (OfflineQueue.bumpRetries_accepted m.clientId _ now s).symm ▸ he
  | record m error rest now hpc =>
    simpa [OfflineQueue.State.accepted, OfflineQueue.recordFailed] using he
  | rewrite m realId rest now hpc =>
    have hkeeps := (OfflineQueue.rewriteUrls_accepted m.clientId realId now s).symm ▸ he
    simpa [OfflineQueue.State.accepted, OfflineQueue.Event.accepted?] using hkeeps

end Queue

section Sync

variable {cfg : Idempotency.Config} {user : String} {w t : Replay.World} {a : Replay.Action}

/-- What a step is for the queue. -/
theorem client_of_step (h : Replay.step cfg user w a = some t) (hside : isQueueSide a = true)
    (hc : CarefulSync user w a) :
    t.client = w.client ∨
      ∃ b, OfflineQueue.step w.client b = some t.client ∧ OfflineQueue.KeepsNewer w.client b := by
  cases a with
  | enqueue m createdAt now =>
    cases h
    exact .inr ⟨.enqueue m createdAt now, rfl, trivial⟩
  | drain a =>
    simp only [Replay.step] at h
    split at h
    · obtain ⟨c, hstep, rfl⟩ := map_eq_some_iff.mp h
      exact .inr ⟨a, hstep, hc⟩
    · cases h
  | send =>
    simp only [Replay.step] at h
    split at h
    · obtain ⟨c, hstep, rfl⟩ := map_eq_some_iff.mp h
      exact .inr ⟨.send, hstep, trivial⟩
    · cases h
  | receive offline =>
    simp only [Replay.step] at h
    split at h
    · obtain ⟨c, hstep, rfl⟩ := map_eq_some_iff.mp h
      exact .inr ⟨_, hstep, trivial⟩
    · cases h
  | fail message offline =>
    obtain ⟨c, hstep, rfl⟩ := map_eq_some_iff.mp h
    exact .inr ⟨_, hstep, trivial⟩
  | refresh =>
    cases Replay.Step.of_step h with
    | refresh => exact .inl rfl
  | arrive k ip now =>
    cases Replay.Step.of_step h with
    | arrive => exact .inl rfl
  | lose k =>
    cases h
    exact .inl rfl
  | commit i =>
    cases Replay.Step.of_step h with
    | commit => exact .inl rfl
  | server a =>
    cases Replay.Step.of_step h with
    | server => exact .inl rfl
  | write | land | loseDirect | succeed | refuse | queueDirect => cases hside

/-- A step keeps the invariant of the queue, and what it accepted. -/
theorem queue_step (hi : OfflineQueue.Inv w.client) (h : Replay.step cfg user w a = some t)
    (hside : isQueueSide a = true) (hc : CarefulSync user w a) :
    OfflineQueue.Inv t.client ∧ ∀ e ∈ w.client.accepted, e ∈ t.client.accepted := by
  rcases client_of_step h hside hc with heq | ⟨b, hstep, hkeeps⟩
  · rw [heq]
    exact ⟨hi, fun e he => he⟩
  · exact ⟨OfflineQueue.inv_step hi hkeeps hstep, accepted_step hstep⟩

end Sync

/-! ## The server -/

/-- Request number `i` starts its handler in this step. -/
def StartsAt {π : Type*} (s : Idempotency.State π) (a : Idempotency.Action π) (i : ℕ)
    (r : Idempotency.Request π) : Prop :=
  (∃ now, a = .arrive r now ∧ i = s.calls.length ∧ startsHandler s r = true) ∨
    ∃ now rest, a = .resume now ∧ s.microtasks = i :: rest ∧
      (s.calls[i]?).map (fun c => c.request) = some r

/-- A handler that runs after a step ran before it, or starts in it. -/
theorem running_of_step {π : Type*} {cfg : Idempotency.Config} {s t : Idempotency.State π}
    {a : Idempotency.Action π} (h : Idempotency.Step cfg s a t) {i : ℕ} {c : Idempotency.Call π}
    (hc : t.calls[i]? = some c) (hrun : c.phase.isRunning = true) :
    (∃ c₀, s.calls[i]? = some c₀ ∧ c₀.request = c.request ∧ c₀.phase.isRunning = true) ∨
      StartsAt s a i c.request := by
  have hset : ∀ {j : ℕ} {p : Idempotency.Phase} {calls : List (Idempotency.Call π)},
      p.isRunning = false → (Idempotency.setPhase j p calls)[i]? = some c → calls[i]? = some c := by
    intro j p calls hp hi
    obtain ⟨c₀, hc₀, rfl⟩ := Idempotency.getElem?_setPhase_iff.mp hi
    split at hrun
    · rw [hp] at hrun
      cases hrun
    · rename_i hne
      rw [if_neg hne]
      exact hc₀
  have hsettle : ∀ {j : ℕ} {p : Idempotency.Phase} {calls : List (Idempotency.Call π)},
      p.isRunning = false → (Idempotency.settleWaiters j p calls)[i]? = some c →
        calls[i]? = some c := by
    intro j p calls hp hi
    obtain ⟨c₀, hc₀, rfl⟩ := Idempotency.getElem?_settleWaiters_iff.mp hi
    split at hrun
    · rw [hp] at hrun
      cases hrun
    · rename_i hne
      rw [if_neg hne]
      exact hc₀
  have hpush : ∀ {r : Idempotency.Request π} {p : Idempotency.Phase},
      p.isRunning = false → (s.push r p).calls[i]? = some c → s.calls[i]? = some c := by
    intro r p hp hi
    rcases Idempotency.getElem?_push_iff.mp hi with hi | ⟨-, rfl⟩
    · exact hi
    · rw [hp] at hrun
      cases hrun
  have hsame : s.calls[i]? = some c → ∃ c₀, s.calls[i]? = some c₀ ∧ c₀.request = c.request ∧
      c₀.phase.isRunning = true := fun hi => ⟨c, hi, rfl, hrun⟩
  cases h with
  | pass r now hidle hk =>
    rcases Idempotency.getElem?_push_iff.mp hc with hi | ⟨rfl, rfl⟩
    · exact .inl (hsame hi)
    · exact .inr (.inl ⟨now, rfl, rfl, by simp [startsHandler, hk]⟩)
  | start r now key hidle hk hfree =>
    rcases Idempotency.getElem?_push_iff.mp hc with hi | ⟨rfl, rfl⟩
    · exact .inl (hsame hi)
    · exact .inr (.inl ⟨now, rfl, rfl, by simp [startsHandler, hk, hfree]⟩)
  | replay | wait => exact .inl (hsame (hpush rfl hc))
  | resume j rest d key now hq hd hp hk =>
    obtain ⟨c₀, hc₀, rfl⟩ := Idempotency.getElem?_setPhase_iff.mp hc
    by_cases hij : i = j
    · subst hij
      rw [if_pos rfl]
      exact .inr (.inr ⟨now, rest, rfl, hq, by simp [hc₀]⟩)
    · rw [if_neg hij] at hrun ⊢
      exact .inl ⟨c₀, hc₀, rfl, hrun⟩
  | json j d attached response now hd hp =>
    refine .inl (hsame ?_)
    cases attached with
    | true =>
      cases hk : d.request.cacheKey with
      | none =>
        simp only [Idempotency.sendJson, hk, if_true] at hc
        exact hset rfl hc
      | some key =>
        simp only [Idempotency.sendJson, hk, if_true] at hc
        exact hset rfl (hsettle rfl hc)
    | false =>
      cases hk : d.request.cacheKey with
      | none =>
        simp only [Idempotency.sendJson, hk] at hc
        exact hset rfl hc
      | some key =>
        simp only [Idempotency.sendJson, hk] at hc
        exact hset rfl hc
  | close j d hidle hd hp =>
    have hrunning : (Idempotency.setPhase j (.running false) s.calls)[i]? = some c := by
      unfold Idempotency.onEnd at hc
      split at hc
      · exact hc
      · exact hsettle rfl hc
    obtain ⟨c₀, hc₀, rfl⟩ := Idempotency.getElem?_setPhase_iff.mp hrunning
    refine .inl ⟨c₀, hc₀, ?_, ?_⟩
    · split <;> rfl
    · by_cases hij : i = j
      · subst hij
        rw [hd] at hc₀
        cases hc₀
        rw [hp]
        rfl
      · rwa [if_neg hij] at hrun
  | finish j d hd hp =>
    refine .inl (hsame ?_)
    unfold Idempotency.onEnd at hc
    split at hc
    · exact hset rfl hc
    · exact hset rfl (hsettle rfl hc)
  | abandon j d hd hp => exact .inl (hsame (hset rfl hc))
  | sweep now hidle => exact .inl (hsame hc)

/-! ## One replay of an entry -/

theorem isReplayOf_eq_true {w : Replay.World} {serial i : ℕ} :
    isReplayOf w serial i = true ↔ ∃ c m, w.server.calls[i]? = some c ∧
      c.request.payload = some m ∧ m.serial = serial := by
  unfold isReplayOf
  cases hc : w.server.calls[i]? with
  | none => simp
  | some c =>
    cases hm : c.request.payload with
    | none => simp [hm]
    | some m => simp [hm]

theorem executes_eq_true {w : Replay.World} {serial i : ℕ} :
    executes w serial i = true ↔ ∃ c m, w.server.calls[i]? = some c ∧
      c.request.payload = some m ∧ m.serial = serial ∧
        (c.phase.isRunning = true ∨ i ∈ w.committed) := by
  unfold executes
  rw [Bool.and_eq_true, isReplayOf_eq_true, Bool.or_eq_true, decide_eq_true_eq]
  constructor
  · rintro ⟨⟨c, m, hc, hm, hserial⟩, h⟩
    refine ⟨c, m, hc, hm, hserial, h.imp_left fun hrun => ?_⟩
    simpa [hc] using hrun
  · rintro ⟨c, m, hc, hm, hserial, h⟩
    exact ⟨⟨c, m, hc, hm, hserial⟩, h.imp_left fun hrun => by simpa [hc] using hrun⟩

theorem Unexecuted.not_executes {w : Replay.World} {serial i : ℕ} (h : Unexecuted w serial) :
    executes w serial i ≠ true := by
  intro hi
  obtain ⟨c, -, hc, -⟩ := executes_eq_true.mp hi
  rw [h i (List.getElem?_eq_some_iff.mp hc).1] at hi
  cases hi

/-- The handler of one replay of each entry, at most, runs or has written. -/
structure Once (w : Replay.World) : Prop where
  known : ∀ i ∈ w.committed, ∃ c, w.server.calls[i]? = some c
  one : ∀ serial i j, executes w serial i = true → executes w serial j = true → i = j

section Once

variable {cfg : Idempotency.Config} {user : String} {w t : Replay.World} {a : Replay.Action}

/-- One handler starts, for an entry that was not executed. -/
theorem Once.starts (hi : Once w) (n : ℕ)
    (hknown : ∀ i ∈ t.committed, ∃ c, t.server.calls[i]? = some c)
    (h : ∀ serial i, executes t serial i = true →
      executes w serial i = true ∨ i = n ∧ Unexecuted w serial) : Once t where
  known := hknown
  one serial i j hex hex' := by
    rcases h serial i hex with hw | ⟨rfl, hnone⟩ <;>
      rcases h serial j hex' with hw' | ⟨rfl, hnone'⟩
    · exact hi.one serial i j hw hw'
    · exact absurd hw hnone'.not_executes
    · exact absurd hw' hnone.not_executes
    · rfl

/-- A step of the server in which the handlers that start are those of entries that were not
executed. -/
theorem Once.server {b : Idempotency.Action (Option QueuedMutation)} (hi : Once w)
    (hcommitted : t.committed = w.committed) (hstep : Idempotency.Step cfg w.server b t.server)
    (hstarts : ∀ i r m, StartsAt w.server b i r → r.payload = some m →
      Unexecuted w m.serial) : Once t := by
  have hback : ∀ {i : ℕ} {c c₀ : Idempotency.Call (Option QueuedMutation)},
      t.server.calls[i]? = some c → w.server.calls[i]? = some c₀ → c.request = c₀.request := by
    intro i c c₀ hc hc₀
    obtain ⟨c', hc', hr⟩ := hstep.request hc₀
    rw [hc] at hc'
    cases hc'
    exact hr
  -- Request `n` is the one that starts, if there is one.
  obtain ⟨n, hn⟩ : ∃ n, ∀ i r, StartsAt w.server b i r → i = n := by
    cases b with
    | arrive r now =>
      refine ⟨w.server.calls.length, fun i r' h => ?_⟩
      rcases h with ⟨_, -, h, -⟩ | ⟨_, _, h, -⟩
      · exact h
      · cases h
    | resume now =>
      refine ⟨w.server.microtasks.headD 0, fun i r' h => ?_⟩
      rcases h with ⟨_, h, -⟩ | ⟨_, rest, -, h, -⟩
      · cases h
      · rw [h]
        rfl
    | json | close | finish | sweep =>
      refine ⟨0, fun i r' h => ?_⟩
      rcases h with ⟨_, h, -⟩ | ⟨_, _, h, -⟩
      · cases h
      · cases h
  refine hi.starts n ?_ ?_
  · intro i hmem
    rw [hcommitted] at hmem
    obtain ⟨c, hc⟩ := hi.known i hmem
    obtain ⟨c', hc', -⟩ := hstep.request hc
    exact ⟨c', hc'⟩
  · intro serial i hex
    obtain ⟨c, m, hc, hm, rfl, hrun | hmem⟩ := executes_eq_true.mp hex
    · rcases running_of_step hstep hc hrun with ⟨c₀, hc₀, hr, hrun₀⟩ | hstart
      · exact .inl (executes_eq_true.mpr ⟨c₀, m, hc₀, hr ▸ hm, rfl, .inl hrun₀⟩)
      · exact .inr ⟨hn i _ hstart, hstarts i _ m hstart hm⟩
    · rw [hcommitted] at hmem
      obtain ⟨c₀, hc₀⟩ := hi.known i hmem
      exact .inl (executes_eq_true.mpr ⟨c₀, m, hc₀, hback hc hc₀ ▸ hm, rfl, .inr hmem⟩)

theorem commit_eq_some {i : ℕ} (h : Replay.step cfg user w (.commit i) = some t) :
    ∃ c, w.server.calls[i]? = some c ∧ c.phase.isRunning = true ∧ t.server = w.server ∧
      t.committed = w.committed ++ [i] := by
  simp only [Replay.step] at h
  split at h
  · rename_i r attached hc
    split at h
    · cases h
      exact ⟨_, hc, rfl, rfl, rfl⟩
    · cases h
  · cases h

/-- Every careful step keeps the replays of an entry one. -/
theorem once_step (hi : Once w) (h : Replay.step cfg user w a = some t)
    (hside : isQueueSide a = true) (hc : CarefulSync user w a) : Once t := by
  cases Replay.Step.of_step h with
  | enqueue | drain | send | refresh | lose | receive | fail => exact ⟨hi.known, hi.one⟩
  | arrive k m current ip now s hk hstep =>
    refine hi.server rfl hstep fun i r m' hstart hm => ?_
    rcases hstart with ⟨_, heq, -, hfree⟩ | ⟨_, _, heq, -⟩
    · cases heq
      cases hm
      exact hc (m, current) hk hfree
    · cases heq
  | commit i c m hcall hp hm =>
    obtain ⟨d, hd, hrun, -, -⟩ := commit_eq_some h
    refine hi.starts 0 ?_ fun serial j hex => .inl ?_
    · intro j hj
      rcases mem_append.mp hj with hj | hj
      · exact hi.known j hj
      · cases mem_singleton.mp hj
        exact ⟨d, hd⟩
    · obtain ⟨e, m', he, hm', hserial, h'⟩ := executes_eq_true.mp hex
      refine executes_eq_true.mpr ⟨e, m', he, hm', hserial, ?_⟩
      rcases h' with h' | h'
      · exact .inl h'
      · rcases mem_append.mp h' with h' | h'
        · exact .inr h'
        · cases mem_singleton.mp h'
          rw [show w.server.calls[i]? = some e from he] at hd
          cases hd
          exact .inl hrun
  | server b s hmay hstep =>
    refine hi.server rfl hstep fun i r m hstart hm => ?_
    rcases hstart with ⟨now, rfl, -⟩ | ⟨now, rest, rfl, hq, hr⟩
    · simp [Replay.serverMay, hm] at hmay
    · obtain ⟨c, hcall, rfl⟩ := map_eq_some_iff.mp hr
      exact hc i (by rw [hq]; rfl) c hcall m hm
  | write | land | loseDirect | succeed | refuse | queueDirect => cases hside

/-- One replay of each entry was executed, at most. -/
theorem Once.executedReplays_le (hi : Once w) (serial : ℕ) : executedReplays w serial ≤ 1 := by
  unfold executedReplays
  have hnodup := (nodup_range (n := w.server.calls.length)).filter
    (fun i => isReplayOf w serial i && decide (i ∈ w.committed))
  have heq : ∀ i ∈ (List.range w.server.calls.length).filter
      (fun i => isReplayOf w serial i && decide (i ∈ w.committed)), executes w serial i = true := by
    intro i hmem
    obtain ⟨hreplay, hcommitted⟩ := Bool.and_eq_true_iff.mp (mem_filter.mp hmem).2
    simp [executes, hreplay, of_decide_eq_true hcommitted]
  rcases hl : (List.range w.server.calls.length).filter
      (fun i => isReplayOf w serial i && decide (i ∈ w.committed)) with _ | ⟨i, _ | ⟨j, rest⟩⟩
  · exact Nat.zero_le 1
  · exact le_refl 1
  · rw [hl] at hnodup heq
    have hij : i = j := hi.one serial i j (heq i (by simp)) (heq j (by simp))
    simp [hij] at hnodup

end Once

/-! ## The calls -/

/-- A request that is idle stays so. -/
theorem Attempt.step_of_isIdle {x : Attempt} (h : x.isIdle = true) (event : AttemptEvent) :
    x.step event = none := by
  cases x with
  | unsent | lost => cases event <;> rfl
  | answered status written => cases event <;> rfl
  | travelling | handling => cases h

theorem Attempt.written_of_isIdle {x : Attempt} (h : x.isIdle = true) : x.written = false := by
  cases x with
  | unsent | lost | travelling => rfl
  | answered status written =>
    cases written with
    | true => cases h
    | false => rfl
  | handling => cases h

/-- The answers that are given are those that may be. -/
def Attempt.Fair (x : Attempt) : Prop :=
  ∀ status written, x = .answered status written → mayAnswer status written = true

theorem fair_unsent : Attempt.unsent.Fair := fun _ _ h => by cases h

theorem fair_travelling : Attempt.travelling.Fair := fun _ _ h => by cases h

theorem Attempt.fair_step {x y : Attempt} {event : AttemptEvent} (h : x.step event = some y) :
    y.Fair := by
  rintro status written rfl
  unfold Attempt.step at h
  split at h
  · cases h
  · cases h
  · cases h
  · cases h
  · split at h
    · rename_i hmay
      cases h
      exact hmay
    · cases h
  · cases h

/-- What holds of a call in every state. -/
structure Submission.Ok (w : Replay.World) (x : Submission) : Prop where
  fair : x.attempt.Fair
  refreshing : x.phase = .refreshing → x.attempt.isIdle = true
  queued : ∀ serial, x.phase = .settled (.queued serial) → x.attempt.isIdle = true ∧
    ∃ e ∈ w.client.accepted, e.serial = serial ∧
      e.toMutation = Replay.enqueueOfflineMutation x.call x.randomId
  unreachable : x.phase = .settled .unreachable → isOfflineEligible x.call = false

theorem Submission.Ok.mono {w t : Replay.World} {x : Submission} (h : x.Ok w)
    (haccepted : ∀ e ∈ w.client.accepted, e ∈ t.client.accepted) : x.Ok t where
  fair := h.fair
  refreshing := h.refreshing
  queued serial hphase := by
    obtain ⟨hidle, e, he, hsame⟩ := h.queued serial hphase
    exact ⟨hidle, e, haccepted e he, hsame⟩
  unreachable := h.unreachable

/-- What holds in every state of a careful run. -/
structure Inv (s : System) : Prop where
  queue : OfflineQueue.Inv s.sync.client
  once : Once s.sync
  calls : ∀ x ∈ s.submissions, x.Ok s.sync

section Calls

variable {cfg : Setting} {s t : System} {k : ℕ} {x : Submission}

theorem Inv.put (hi : Inv s) (hx : x.Ok s.sync) : Inv (s.put k x) :=
  ⟨hi.queue, hi.once, forall_mem_set hi.calls hx⟩

/-- The write goes to the queue. -/
theorem Inv.enqueue (hi : Inv s) (x : Submission) (now : ℤ) :
    Inv { s with sync := x.enqueue now s.sync } := by
  refine ⟨OfflineQueue.inv_enqueue hi.queue _ none now, ⟨hi.once.known, hi.once.one⟩, ?_⟩
  intro y hy
  refine (hi.calls y hy).mono fun e he => ?_
  change e ∈ (OfflineQueue.enqueueMutation _ none now s.sync.client).accepted
  rw [OfflineQueue.enqueueMutation_accepted]
  exact mem_append_left _ he

theorem ok_queue (hfair : x.attempt.Fair) (hidle : x.attempt.isIdle = true) (now : ℤ)
    (w : Replay.World) : (x.queue w).Ok (x.enqueue now w) where
  fair := hfair
  refreshing h := by cases h
  queued serial h := by
    cases h
    refine ⟨hidle, OfflineQueue.newEntry (Replay.enqueueOfflineMutation x.call x.randomId) none now
      w.client, ?_, rfl, rfl⟩
    change _ ∈ (OfflineQueue.enqueueMutation _ none now w.client).accepted
    rw [OfflineQueue.enqueueMutation_accepted]
    exact mem_append_right _ (mem_singleton_self _)
  unreachable h := by cases h

/-- A network failure of a request that is idle. -/
theorem Inv.networkFailure (hi : Inv s) (hfair : x.attempt.Fair) {isRetry : Bool}
    (h : isOfflineEligible x.call = true → isRetry = false ∧ x.attempt.isIdle = true) (now : ℤ) :
    Inv (s.networkFailure k x isRetry now) := by
  unfold System.networkFailure
  split
  · rename_i hqueue
    have helig := (Bool.and_eq_true_iff.mp hqueue).2
    have hi' := hi.enqueue x now
    exact ⟨hi'.queue, hi'.once, forall_mem_set hi'.calls
      (ok_queue hfair (h helig).2 now s.sync)⟩
  · rename_i hqueue
    refine hi.put ⟨hfair, (fun h => by cases h), (fun serial h => by cases h), fun _ => ?_⟩
    by_contra helig
    rw [Bool.not_eq_false] at helig
    simp [helig, (h helig).1] at hqueue

theorem Inv.submit (hi : Inv s) (call : ApiCall) (randomId : String) (offlineMode : Bool) (now : ℤ) :
    Inv (s.submit call randomId offlineMode now) := by
  unfold System.submit
  split
  · have hi' := hi.enqueue ⟨call, randomId, .unsent, .fetching false⟩ now
    exact ⟨hi'.queue, hi'.once, forall_mem_append_singleton hi'.calls
      (ok_queue fair_unsent rfl now s.sync)⟩
  · refine ⟨hi.queue, hi.once, forall_mem_append_singleton hi.calls ?_⟩
    exact ⟨fair_travelling, (fun h => by cases h), (fun serial h => by cases h),
      (fun h => by cases h)⟩

/-- What a response makes of a call. -/
theorem Inv.receive (hi : Inv s) (hx : x.Ok s.sync) {status : ℕ} {written isRetry : Bool}
    (hattempt : x.attempt = .answered status written) :
    Inv (s.put k { x with phase := x.received cfg isRetry status }) := by
  refine hi.put ⟨hx.fair, fun h => ?_, fun serial h => ?_, fun h => ?_⟩
  · -- A request that is refused with 401 was not executed.
    have h401 : status = 401 := by
      simp only [Submission.received] at h
      split_ifs at h with hok hcond
      simp only [Bool.and_eq_true, decide_eq_true_eq] at hcond
      exact hcond.1.1.1
    have hmay := hx.fair status written hattempt
    subst h401
    change x.attempt.isIdle = true
    rw [hattempt]
    cases written with
    | true => simp [mayAnswer] at hmay
    | false => rfl
  · simp only [Submission.received] at h
    split_ifs at h <;> cases h
  · simp only [Submission.received] at h
    split_ifs at h <;> cases h

/-- Every careful step keeps the invariant. -/
theorem inv_step {a : Action} (hi : Inv s) (hc : Careful cfg s a) (h : step cfg s a = some t) :
    Inv t := by
  cases a with
  | submit call randomId offlineMode now =>
    cases h
    exact hi.submit call randomId offlineMode now
  | sync a =>
    simp only [step] at h
    split at h
    · rename_i hside
      obtain ⟨w, hw, rfl⟩ := map_eq_some_iff.mp h
      obtain ⟨hqueue, haccepted⟩ := queue_step hi.queue hw hside hc
      exact ⟨hqueue, once_step hi.once hw hside hc, fun x hx => (hi.calls x hx).mono haccepted⟩
    · cases h
  | attempt k event =>
    obtain ⟨x, hx, h⟩ := bind_eq_some_iff.mp h
    have hok := hi.calls x (mem_of_getElem? hx)
    obtain ⟨attempt, hstep, rfl⟩ := map_eq_some_iff.mp h
    have hbusy : x.attempt.isIdle ≠ true := fun hidle => by
      rw [Attempt.step_of_isIdle hidle] at hstep
      cases hstep
    refine hi.put ⟨Attempt.fair_step hstep, fun hphase => ?_, fun serial hphase => ?_,
      hok.unreachable⟩
    · exact absurd (hok.refreshing hphase) hbusy
    · exact absurd (hok.queued serial hphase).1 hbusy
  | receive k =>
    obtain ⟨x, hx, h⟩ := bind_eq_some_iff.mp h
    simp only [System.advance] at h
    split at h
    · rename_i isRetry status written hphase hattempt
      cases h
      exact hi.receive (hi.calls x (mem_of_getElem? hx)) hattempt
    · cases h
  | refresh k refresh now =>
    obtain ⟨x, hx, h⟩ := bind_eq_some_iff.mp h
    have hok := hi.calls x (mem_of_getElem? hx)
    simp only [System.advance] at h
    split at h
    · cases h
      exact hi.put ⟨fair_travelling, (fun h => by cases h), (fun serial h => by cases h),
        (fun h => by cases h)⟩
    · cases h
      exact hi.put ⟨hok.fair, (fun h => by cases h), (fun serial h => by cases h),
        (fun h => by cases h)⟩
    · rename_i hphase _
      cases h
      exact hi.networkFailure hok.fair (fun _ => ⟨rfl, hok.refreshing hphase⟩) now
    · cases h
  | fail k now =>
    obtain ⟨x, hx, h⟩ := bind_eq_some_iff.mp h
    have hok := hi.calls x (mem_of_getElem? hx)
    simp only [System.advance] at h
    split at h
    · rename_i isRetry hphase
      cases h
      have hidle := hc x hx
      simp only [FailsIdle, hphase] at hidle
      exact hi.networkFailure hok.fair hidle now
    · cases h

/-- The invariant is enough. -/
theorem Inv.sound (hi : Inv s) : Sound s := by
  intro x hx
  have hok := hi.calls x hx
  unfold Accounted executions
  cases hphase : x.phase with
  | fetching isRetry | refreshing =>
    refine ⟨trivial, ?_⟩
    dsimp only
    split <;> omega
  | settled outcome =>
    cases outcome with
    | acknowledged | rejected =>
      refine ⟨trivial, ?_⟩
      dsimp only
      split <;> omega
    | unreachable =>
      refine ⟨hok.unreachable hphase, ?_⟩
      dsimp only
      split <;> omega
    | queued serial =>
      obtain ⟨hidle, e, he, hserial, hsame⟩ := hok.queued serial hphase
      refine ⟨⟨e, he, hserial, hsame, hi.queue.accounted e he⟩, ?_⟩
      have hreplays := hi.once.executedReplays_le serial
      simpa [Attempt.written_of_isIdle hidle] using hreplays

theorem inv_start (stored : StoredQueue) (failedSync : List FailedSyncItem) (reconciler : Bool) :
    Inv (start stored failedSync reconciler) where
  queue := OfflineQueue.inv_initial stored failedSync reconciler
  once :=
    { known := fun i hi => absurd hi not_mem_nil
      one := fun serial i j hi => by
        obtain ⟨c, -, hc, -⟩ := executes_eq_true.mp hi
        cases hc }
  calls x hx := absurd hx not_mem_nil

end Calls

/-- **A write submitted once is executed once at most, and is not lost**, in a careful run: whatever
requests and answers are lost, late or unreadable, whatever sessions are refreshed, and however the
queue is drained. -/
theorem submitted_once (cfg : Setting) (stored : StoredQueue) (failedSync : List FailedSyncItem)
    (reconciler : Bool) {as : List Action}
    (hcareful : Machine.Meets (step cfg) (Careful cfg) (start stored failedSync reconciler) as) :
    Machine.Always (step cfg) Sound (start stored failedSync reconciler) as :=
  Machine.always_of_meets (I := Inv) (fun _ _ _ hi hc h => inv_step hi hc h)
    (fun _ hi => hi.sound) (inv_start stored failedSync reconciler) hcareful

/-! ## Three expenses -/

/-- The expense of a crew. -/
def newExpense : ApiCall where
  method := .post
  path := "/crews/c1/expenses"
  body := some (.obj [("title", .str "ice")])

def anaSetting : Setting := ⟨Idempotency.defaultConfig, "ana", true⟩

def emptyQueue : StoredQueue := ⟨[], nodup_nil⟩

/-- The drain replays the one entry of the queue, and it is executed as request number `i`. -/
def replayOnce (i : ℕ) (now : ℤ) : List Action :=
  [.sync (.drain (.start false now)), .sync .send, .sync (.arrive 0 "10.0.0.1" now),
    .sync (.commit i)]

/-- The request is lost, the write is queued; the response to its replay is lost as well, and the
second replay gets it from the cache. -/
def lostRequest : List Action :=
  [.submit newExpense "r1" false 0, .attempt 0 .reach, .attempt 0 .lose, .fail 0 1] ++
  replayOnce 0 2 ++
  [.sync (.server (.json 0 ⟨201, .null⟩ 3)), .sync (.fail "timeout" true),
    .sync (.drain (.start false 4)), .sync .send, .sync (.arrive 0 "10.0.0.1" 5),
    .sync (.receive false), .sync (.drain (.settle 6)), .sync (.drain .finish)]

/-- The promise on a run that meets the condition. -/
theorem lost_request_executed_once :
    Machine.Always (step anaSetting) Sound (start emptyQueue [] true) lostRequest :=
  submitted_once anaSetting emptyQueue [] true (by decide)

/-- The response is lost, the write is queued and replayed. -/
def lostResponse : List Action :=
  [.submit newExpense "r1" false 0, .attempt 0 .reach, .attempt 0 .write, .attempt 0 (.answer 201),
    .fail 0 1] ++ replayOnce 0 2

/-- The session is refreshed, and the second request is lost. -/
def lostRetry : List Action :=
  [.submit newExpense "r1" false 0, .attempt 0 .reach, .attempt 0 (.answer 401), .receive 0,
    .refresh 0 .refreshed 1, .attempt 0 .lose, .fail 0 2]

/-- **A write is executed twice, and another is lost**: the expense whose response is lost is added
a second time by its replay, since its first request had no key; and the one whose second request
is lost is not queued. -/
theorem expense_doubled_or_lost :
    ¬ Machine.Always (step anaSetting) Sound (start emptyQueue [] true) lostResponse ∧
      ¬ Machine.Always (step anaSetting) Sound (start emptyQueue [] true) lostRetry := by
  constructor
  · intro h
    obtain ⟨s, hrun, x, hx, htwice⟩ : ∃ s, Machine.run (step anaSetting)
        (start emptyQueue [] true) lostResponse = some s ∧
          ∃ x ∈ s.submissions, executions s x = 2 := by
      refine ⟨_, rfl, _, List.mem_cons_self .., ?_⟩
      decide
    have hle := ((h.last hrun) x hx).2
    omega
  · intro h
    obtain ⟨s, hrun, x, hx, hlost, helig⟩ : ∃ s, Machine.run (step anaSetting)
        (start emptyQueue [] true) lostRetry = some s ∧
          ∃ x ∈ s.submissions, x.phase = .settled .unreachable ∧ isOfflineEligible x.call = true :=
      ⟨_, rfl, _, List.mem_cons_self .., rfl, by decide⟩
    have haccounted := ((h.last hrun) x hx).1
    rw [Accounted, hlost, helig] at haccounted
    cases haccounted

end FestivalPlanner.SubmittedOnce
