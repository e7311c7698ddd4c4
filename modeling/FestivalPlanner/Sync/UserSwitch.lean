import FestivalPlanner.Sync.RetryFailed

/-!
# Two users on one device

What a user leaves behind on a phone when the session ends, by `logout` or otherwise, and another
user logs in: queued mutations, a drain that goes through its snapshot, requests of the api client
that may still be queued, failed items, and recordings of them on their way to storage.

* `World` — the session, the queue with its drain, the two lists of failed items and the requests
  under way; every mutation has an owner, the account in whose session it was made;
* `step` — logins, ends of sessions, the api client, the queue, and the clearing that `logout`
  starts and does not wait for;
* `Isolated`, `SendsOwn` — a user sees and sends no mutation of another user;
* `AllOwn` — nothing of another user is left or under way;
* `isolated_of_careful` — users are isolated when all is own at every login.
-/

namespace FestivalPlanner.UserSwitch

open OfflineQueue RetryFailed List Option Keyed InFlight Function

/-! ## The device -/

/-- Where a call of the api client is that may be queued. -/
inductive Stage where
  /-- its request is not built yet -/
  | called
  | sent
  /-- its `enqueueMutation` waits for the lock -/
  | queueing
  deriving DecidableEq

structure Request where
  owner : Option String
  mutation : Mutation
  stage : Stage

/-- The session is given by the account of the bearer token.  `ownerOf` gives the owners of the
entries by their serial, `shownOwner` those of the items that are shown by `clientId`, and
`failedOwners` those of all items that were recorded. -/
structure World where
  session : Option String
  client : OfflineQueue.State
  durable : FailedState
  requests : List Request
  /-- calls of `clearQueue` that wait for the lock -/
  clearQueues : ℕ
  /-- calls of `clearPersistedFailed` that have not taken effect -/
  clearFailed : ℕ
  ownerOf : ℕ → Option String
  shownOwner : String → Option String
  failedOwners : List (FailedSyncItem × Option String)

/-- The item that a surfaced entry is shown as, and its owner. -/
def surfacedOwner (ownerOf : ℕ → Option String) (t : OfflineQueue.State) (m : QueuedMutation) :
    Option (FailedSyncItem × Option String) :=
  (lookup failedKey m.clientId t.failedSync).map fun item => (item, ownerOf m.serial)

/-- The queue has made a step: each `recordFailed` shows an item and starts to persist it. -/
def World.surface (w : World) (t : OfflineQueue.State) : World :=
  { w with
    client := t
    durable := { w.durable with
      tasks := w.durable.tasks ++ (surfaced w.client t).filterMap (recording t) }
    shownOwner := (surfaced w.client t).foldl
      (fun shown m => update shown m.clientId (w.ownerOf m.serial)) w.shownOwner
    failedOwners := w.failedOwners ++
      (surfaced w.client t).filterMap (surfacedOwner w.ownerOf t) }

/-! ## The steps -/

inductive Action where
  /-- the token of an account is installed -/
  | login (account : String)
  /-- `logout` clears the token and calls `resetAllStores` -/
  | logout
  /-- the session ends in `checkSession` or `refreshToken` -/
  | sessionEnds
  /-- the api client is called with a mutation that may be queued -/
  | call (m : Mutation)
  /-- `maybeQueueOffline` finds the device offline -/
  | offline (i : ℕ)
  /-- the request of a call is sent -/
  | send (i : ℕ)
  /-- it fails in the network -/
  | networkFailure (i : ℕ)
  /-- it is answered -/
  | answered (i : ℕ)
  /-- the section of an `enqueueMutation` gets the lock -/
  | enqueue (i : ℕ) (now : ℤ)
  /-- the drain makes a step -/
  | drain (a : OfflineQueue.Action)
  /-- the replay in flight is answered 401, a session is refreshed, and it is sent again -/
  | resend
  /-- `retryFailed` is called on the item that is shown for a `clientId` -/
  | retry (clientId : String)
  | dismiss (clientId : String)
  /-- a recording reads or writes the durable list -/
  | persist (a : FailedAction)
  /-- storage fails for a recording -/
  | storageFails (i : ℕ)
  /-- a `clearQueue` gets the lock -/
  | clearQueue
  /-- a `clearPersistedFailed` takes effect -/
  | clearPersistedFailed

/-- The part of `resetAllStores` that concerns the queue; it does not wait for the two calls that
clear the storage. -/
def resetAllStores (w : World) : World :=
  { w with
    client := { w.client with failedSync := [], pendingSync := 0 }
    clearFailed := w.clearFailed + 1
    clearQueues := w.clearQueues + 1 }

/-- `enqueueMutation`, for an owner. -/
def World.store (w : World) (m : Mutation) (now : ℤ) (owner : Option String) : World :=
  { w.surface (enqueueMutation m none now w.client) with
    ownerOf := update w.ownerOf w.client.nextSerial owner }

/-- A step of the drain. -/
def isDrain : OfflineQueue.Action → Bool
  | .enqueue _ _ _ => false
  | _ => true

def step (w : World) : Action → Option World
  | .login account => some { w with session := some account }
  | .logout => some { resetAllStores w with session := none }
  | .sessionEnds => some { w with session := none }
  | .call m => some { w with requests := w.requests ++ [⟨w.session, m, .called⟩] }
  | .offline i => w.requests[i]?.bind fun r =>
      if r.stage = .called then
        some { w with requests := w.requests.set i { r with stage := .queueing } }
      else none
  | .send i => w.requests[i]?.bind fun r =>
      if r.stage = .called then
        some { w with requests := w.requests.set i { r with stage := .sent } }
      else none
  | .networkFailure i => w.requests[i]?.bind fun r =>
      if r.stage = .sent then
        some { w with requests := w.requests.set i { r with stage := .queueing } }
      else none
  | .answered i => w.requests[i]?.bind fun r =>
      if r.stage = .sent then some { w with requests := w.requests.eraseIdx i } else none
  | .enqueue i now => w.requests[i]?.bind fun r =>
      if r.stage = .queueing then
        some { w.store r.mutation now r.owner with requests := w.requests.eraseIdx i }
      else none
  | .drain a => if isDrain a then (OfflineQueue.step w.client a).map w.surface else none
  | .resend =>
      match w.client.pc with
      | .inFlight m _ => some { w with client := w.client.note (.sent m) }
      | _ => none
  | .retry clientId =>
      (lookup failedKey clientId w.client.failedSync).bind fun item =>
        (methodOf item.method).map fun method =>
          { w with requests := w.requests ++
              [⟨w.shownOwner clientId, retriedMutation item method, .queueing⟩] }
  | .dismiss clientId => some { w with
      client := { w.client with
        failedSync := erase failedKey clientId w.client.failedSync } }
  | .persist a =>
      if isAccess a then (failedStep w.durable a).map fun d => { w with durable := d } else none
  | .storageFails i =>
      (w.durable.tasks[i]?).map fun t => { w with durable := w.durable.setPhase i t.op .done }
  | .clearQueue =>
      if 0 < w.clearQueues then some { w with
        client := writeQueue [] w.client
        clearQueues := w.clearQueues - 1 }
      else none
  | .clearPersistedFailed =>
      if 0 < w.clearFailed then some { w with
        durable := { w.durable with content := none }
        clearFailed := w.clearFailed - 1 }
      else none

/-- What a run starts from: a start of the app with any stored queue and failed items of any owners,
before a token is installed. -/
structure Start where
  queue : StoredQueue
  reconciler : Bool
  durable : FailedCell
  ownerOf : ℕ → Option String
  shownOwner : String → Option String
  failedOwners : List (FailedSyncItem × Option String)

def Start.world (x : Start) : World where
  session := none
  client := initial x.queue (hydrateFailedSync x.durable []) x.reconciler
  durable := ⟨x.durable, []⟩
  requests := []
  clearQueues := 0
  clearFailed := 0
  ownerOf := x.ownerOf
  shownOwner := x.shownOwner
  failedOwners := x.failedOwners

/-! ## What should hold -/

/-- The owner, if there is one, is the user. -/
def Mine (user : String) (owner : Option String) : Prop := ∀ a ∈ owner, a = user

/-- A failed item that was recorded from a mutation of the user. -/
def World.Recorded (w : World) (user : String) (f : FailedSyncItem) : Prop :=
  ∃ p ∈ w.failedOwners, p.1 = f ∧ Mine user p.2

/-- A user sees no mutation of another user, queued or failed, now or after a restart. -/
structure Isolated (w : World) : Prop where
  queued : ∀ user ∈ w.session, ∀ e ∈ w.client.queue, Mine user (w.ownerOf e.serial)
  shown : ∀ user ∈ w.session, ∀ f ∈ w.client.failedSync, Mine user (w.shownOwner f.clientId)
  stored : ∀ user ∈ w.session, ∀ f ∈ w.durable.content.items, w.Recorded user f

/-- The entry whose request a step of the drain sends. -/
def sends (w : World) : Action → Option QueuedMutation
  | .drain .send =>
      match w.client.pc with
      | .looping (m :: _) => some m
      | _ => none
  | .resend => replaying w.client.pc
  | _ => none

/-- A replay is sent in the session of its owner. -/
def SendsOwn (w : World) (a : Action) (_ : World) : Prop :=
  ∀ user ∈ w.session, ∀ m ∈ sends w a, Mine user (w.ownerOf m.serial)

/-- Every item that the durable list holds, or may come to hold, has a property. -/
structure Only (P : FailedSyncItem → Prop) (s : FailedState) : Prop where
  stored : ∀ f ∈ s.content.items, P f
  read : ∀ t ∈ s.tasks, ∀ f ∈ readItems t.phase, P f
  written : ∀ t ∈ s.tasks, t.isDone = false → ∀ f ∈ t.op.item?, P f

/-- Nothing of another user is queued, in the hands of the drain, failed, or under way. -/
structure AllOwn (w : World) (user : String) : Prop where
  entries : ∀ e ∈ w.client.queue ++ w.client.pc.entries, Mine user (w.ownerOf e.serial)
  shown : ∀ f ∈ w.client.failedSync, Mine user (w.shownOwner f.clientId)
  durable : Only (w.Recorded user) w.durable
  requests : ∀ r ∈ w.requests, Mine user r.owner

/-- A user logs in when nothing of another user is left or under way. -/
def Careful (w : World) : Action → Prop
  | .login account => AllOwn w account
  | _ => True

/-! ## What a step of the queue surfaces -/

/-- What is surfaced was there, and what is shown is from it or was shown. -/
structure Surfaces (s t : OfflineQueue.State) : Prop where
  entries : ∀ m ∈ surfaced s t, m ∈ s.queue ++ s.pc.entries
  shown : ∀ f ∈ t.failedSync, f ∈ s.failedSync ∨ ∃ m ∈ surfaced s t, f.clientId = m.clientId

variable {ms : List QueuedMutation} {now : ℤ} {op : FailedOp} {i : ℕ} {r : Request} {a : Action}

theorem mem_foldl_putLast {error : String} {l : List FailedSyncItem} {f : FailedSyncItem}
    (hf : f ∈ ms.foldl (fun l m => putLast failedKey (failedItem m error now) l) l) :
    f ∈ l ∨ ∃ m ∈ ms, f.clientId = m.clientId := by
  induction ms generalizing l with
  | nil => exact .inl hf
  | cons m ms ih =>
    rcases ih hf with hf | ⟨m', hm', heq⟩
    · rcases mem_putLast.mp hf with rfl | ⟨hf, -⟩
      · exact .inr ⟨m, mem_cons_self, rfl⟩
      · exact .inl hf
    · exact .inr ⟨m', mem_cons_of_mem m hm', heq⟩

section
variable {s t : OfflineQueue.State}

theorem surfaced_eq (h : t.recorded = s.recorded ++ ms) : surfaced s t = ms := by
  rw [surfaced, h, drop_left]

/-- Entries that were there are recorded one after the other. -/
theorem Surfaces.of_fold (error : String) (now : ℤ) (hrecorded : t.recorded = s.recorded ++ ms)
    (hfailed : t.failedSync =
      ms.foldl (fun l m => putLast failedKey (failedItem m error now) l) s.failedSync)
    (hms : ∀ m ∈ ms, m ∈ s.queue ++ s.pc.entries) : Surfaces s t where
  entries := by
    rw [surfaced_eq hrecorded]
    exact hms
  shown := by
    rw [surfaced_eq hrecorded, hfailed]
    exact fun f hf => mem_foldl_putLast hf

theorem Surfaces.of_eq (hrecorded : t.recorded = s.recorded)
    (hfailed : t.failedSync = s.failedSync) : Surfaces s t :=
  have hnil : t.recorded = s.recorded ++ [] := by rw [hrecorded, append_nil]
  .of_fold "" 0 hnil hfailed fun _ hm => absurd hm not_mem_nil

/-- A section that reads the queue surfaces the stale entries. -/
theorem Surfaces.of_readQueue (now : ℤ) (hrecorded : t.recorded = (readQueue now s).recorded)
    (hfailed : t.failedSync = (readQueue now s).failedSync) : Surfaces s t :=
  .of_fold expiredError now (hrecorded.trans (readQueue_recorded now s))
    (hfailed.trans (readQueue_failedSync now s))
    fun _ hm => mem_append_left _ (mem_of_mem_filter hm)

theorem surfaces_step {a : OfflineQueue.Action} (h : OfflineQueue.step s a = some t) :
    Surfaces s t := by
  cases Step.of_step h with
  | enqueue m createdAt now =>
    refine .of_readQueue now ?_ (enqueueMutation_failedSync m createdAt now s)
    simp [State.recorded, enqueueMutation, writeQueue, Event.recorded?]
  | skip | succeed | stop | fail | finish =>
    exact .of_eq (by simp [State.recorded, Event.recorded?]) rfl
  | start now hpc => exact .of_readQueue now rfl rfl
  | send m rest hpc => exact .of_eq (by simp [State.recorded, Event.recorded?]) rfl
  | settle m r rest now _ hpc hset =>
    cases hset with
    | learns | removes | fails => exact .of_readQueue now rfl rfl
    | keeps =>
      refine .of_readQueue now ?_ (bumpRetries_failedSync m.clientId _ now s)
      exact congrArg (List.filterMap Event.recorded?) (bumpRetries_log m.clientId _ now s)
  | record m error rest now hpc =>
    have hone : (recordFailed m error now s).recorded = s.recorded ++ [m] := by
      simp [State.recorded, recordFailed]
    refine .of_fold error now hone rfl fun e he => ?_
    · rw [mem_singleton.mp he, hpc]
      exact mem_append_right _ mem_cons_self
  | rewrite m realId rest now hpc =>
    refine .of_readQueue now ?_ (rewriteUrls_failedSync m.clientId realId now s)
    simp [State.recorded, Event.recorded?]

end

/-! ## The durable list -/

section
variable {P : FailedSyncItem → Prop} {s t : FailedState}

theorem Only.mono {Q : FailedSyncItem → Prop} (hPQ : ∀ f, P f → Q f) (h : Only P s) : Only Q s where
  stored := fun f hf => hPQ f (h.stored f hf)
  read := fun task ht f hf => hPQ f (h.read task ht f hf)
  written := fun task ht hdone f hf => hPQ f (h.written task ht hdone f hf)

theorem forall_mem_apply {raw raw' : FailedCell} (h : op.apply raw = some raw')
    (hop : ∀ f ∈ op.item?, P f) (hraw : ∀ f ∈ raw.items, P f) : ∀ f ∈ raw'.items, P f := by
  cases op with
  | persist item =>
    cases h
    intro f hf
    rcases mem_or_eq_of_mem_upsert hf with rfl | hf
    · exact hop f rfl
    · exact hraw f hf
  | remove d =>
    obtain ⟨list, rfl, rfl⟩ := map_eq_some_iff.mp h
    exact fun f hf => hraw f (mem_erase.mp hf).1

theorem Only.setPhase (h : Only P s) {phase : ReadModifyWrite.Phase FailedCell}
    (hread : ∀ f ∈ readItems phase, P f) (hop : (∀ f ∈ op.item?, P f) ∨ phase = .done) :
    Only P (s.setPhase i op phase) where
  stored := h.stored
  read := forall_mem_set h.read hread
  written := by
    refine forall_mem_set h.written fun hdone => ?_
    rcases hop with hop | rfl
    · exact hop
    · cases hdone

/-- The recordings store nothing but what they hold. -/
theorem Only.access (h : Only P s) {a : FailedAction} (ha : isAccess a = true)
    (hstep : failedStep s a = some t) : Only P t := by
  have hnone : ∀ f ∈ readItems (.done : ReadModifyWrite.Phase FailedCell), P f :=
    fun _ hf => absurd hf not_mem_nil
  cases a with
  | begin op => cases ha
  | read i =>
    simp only [failedStep, ReadModifyWrite.step] at hstep
    split at hstep
    · rename_i op hi
      have hop := h.written _ (mem_of_getElem? hi) rfl
      split at hstep
      · obtain rfl := some.inj hstep
        exact h.setPhase h.stored (.inl hop)
      · obtain rfl := some.inj hstep
        exact h.setPhase hnone (.inr rfl)
    · cases hstep
  | write i =>
    simp only [failedStep, ReadModifyWrite.step] at hstep
    split at hstep
    · rename_i op seen hi
      have hop := h.written _ (mem_of_getElem? hi) rfl
      have hseen := h.read _ (mem_of_getElem? hi)
      split at hstep
      · rename_i raw happly
        obtain rfl := some.inj hstep
        have hstored : Only P { s with content := raw } :=
          ⟨forall_mem_apply happly hop hseen, h.read, h.written⟩
        exact hstored.setPhase hnone (.inr rfl)
      · cases hstep
    · cases hstep

/-- More recordings begin. -/
theorem Only.begin (h : Only P s) {tasks : List (ReadModifyWrite.Task FailedCell FailedOp)}
    (hread : ∀ t ∈ tasks, readItems t.phase = []) (hwritten : ∀ t ∈ tasks, ∀ f ∈ t.op.item?, P f) :
    Only P { s with tasks := s.tasks ++ tasks } where
  stored := h.stored
  read := by
    intro task ht f hf
    rcases mem_append.mp ht with ht | ht
    · exact h.read task ht f hf
    · rw [hread task ht] at hf
      exact absurd hf not_mem_nil
  written := by
    intro task ht hdone f hf
    rcases mem_append.mp ht with ht | ht
    · exact h.written task ht hdone f hf
    · exact hwritten task ht f hf

end

/-! ## All is own -/

/-- The serials of what is queued and drained are below the next one, and while a user is logged in
all is the user's. -/
structure Inv (w : World) : Prop where
  numbered : ∀ e ∈ w.client.queue ++ w.client.pc.entries, e.serial < w.client.nextSerial
  own : ∀ user ∈ w.session, AllOwn w user

theorem Inv.isolated {w : World} (hi : Inv w) : Isolated w where
  queued := fun user huser e he => (hi.own user huser).entries e (mem_append_left _ he)
  shown := fun user huser => (hi.own user huser).shown
  stored := fun user huser => (hi.own user huser).durable.stored

/-- Only the owners of the surfaced entries are noted. -/
theorem foldl_update_cases (ownerOf : ℕ → Option String) (ms : List QueuedMutation)
    (shown : String → Option String) (c : String) :
    let owners :=
      ms.foldl (fun shown m => update shown m.clientId (ownerOf m.serial)) shown
    (∃ m ∈ ms, owners c = ownerOf m.serial) ∨ (∀ m ∈ ms, m.clientId ≠ c) ∧ owners c = shown c := by
  induction ms generalizing shown with
  | nil => exact .inr ⟨fun _ hm => absurd hm not_mem_nil, rfl⟩
  | cons m ms ih =>
    rcases ih (update shown m.clientId (ownerOf m.serial)) with ⟨m', hm', heq⟩ | ⟨hne, heq⟩
    · exact .inl ⟨m', mem_cons_of_mem m hm', heq⟩
    · by_cases hc : m.clientId = c
      · refine .inl ⟨m, mem_cons_self, heq.trans ?_⟩
        rw [← hc, update_self]
      · refine .inr ⟨forall_mem_cons.mpr ⟨hc, hne⟩, heq.trans ?_⟩
        exact update_of_ne (Ne.symm hc) _ _

section
variable {w : World} {user : String} {t : OfflineQueue.State}

/-- What a step of the queue surfaces is the user's when all is. -/
theorem AllOwn.surfaced (h : AllOwn w user) (hsurfaces : Surfaces w.client t) :
    ∀ m ∈ surfaced w.client t, Mine user (w.ownerOf m.serial) :=
  fun m hm => h.entries m (hsurfaces.entries m hm)

theorem surface_shownOwner (w : World) (t : OfflineQueue.State) : (w.surface t).shownOwner =
    (RetryFailed.surfaced w.client t).foldl
      (fun shown m => update shown m.clientId (w.ownerOf m.serial)) w.shownOwner := rfl

theorem AllOwn.shown_surface (h : AllOwn w user) (hsurfaces : Surfaces w.client t) :
    ∀ f ∈ t.failedSync, Mine user ((w.surface t).shownOwner f.clientId) := by
  intro f hf
  rcases foldl_update_cases w.ownerOf (RetryFailed.surfaced w.client t) w.shownOwner f.clientId with
    ⟨m, hm, heq⟩ | ⟨hne, heq⟩
  · rw [surface_shownOwner, heq]
    exact h.surfaced hsurfaces m hm
  · rw [surface_shownOwner, heq]
    rcases hsurfaces.shown f hf with hf | ⟨m, hm, hid⟩
    · exact h.shown f hf
    · exact absurd hid.symm (hne m hm)

/-- A recording holds an item that is noted for the owner of its entry. -/
theorem AllOwn.durable_surface (h : AllOwn w user) (hsurfaces : Surfaces w.client t) :
    Only ((w.surface t).Recorded user) (w.surface t).durable := by
  have hmore : ∀ f, w.Recorded user f → (w.surface t).Recorded user f :=
    fun f ⟨p, hp, hf⟩ => ⟨p, mem_append_left _ hp, hf⟩
  refine (h.durable.mono hmore).begin (fun task ht => ?_) fun task ht f hf => ?_
  · obtain ⟨m, -, htask⟩ := mem_filterMap.mp ht
    obtain ⟨item, -, rfl⟩ := map_eq_some_iff.mp htask
    rfl
  · obtain ⟨m, hm, htask⟩ := mem_filterMap.mp ht
    obtain ⟨item, hitem, rfl⟩ := map_eq_some_iff.mp htask
    cases hf
    refine ⟨(f, w.ownerOf m.serial), mem_append_right _ ?_, rfl, h.surfaced hsurfaces m hm⟩
    refine mem_filterMap.mpr ⟨m, hm, ?_⟩
    rw [surfacedOwner, hitem]
    rfl

/-- The drain goes on. -/
theorem AllOwn.drain (h : AllOwn w user) (hsurfaces : Surfaces w.client t)
    (hfollows : Follows w.client t) : AllOwn (w.surface t) user where
  entries := by
    intro e he
    obtain ⟨e', he', hsame⟩ := hfollows.entry he
    have hserial : e.serial = e'.serial := hsame.1
    exact hserial ▸ h.entries e' he'
  shown := h.shown_surface hsurfaces
  durable := h.durable_surface hsurfaces
  requests := h.requests

theorem Inv.drain (hi : Inv w) (hsurfaces : Surfaces w.client t) (hfollows : Follows w.client t) :
    Inv (w.surface t) where
  numbered := by
    intro e he
    obtain ⟨e', he', hsame⟩ := hfollows.entry he
    have hserial : e.serial = e'.serial := hsame.1
    have hnext : (w.surface t).client.nextSerial = w.client.nextSerial := hfollows.nextSerial
    rw [hserial, hnext]
    exact hi.numbered e' he'
  own := fun user huser => (hi.own user huser).drain hsurfaces hfollows

/-- The entries after an `enqueueMutation`: the new one, or one that was there. -/
theorem mem_enqueueMutation {s : OfflineQueue.State} {m : Mutation} {e : QueuedMutation}
    (he : e ∈ (enqueueMutation m none now s).queue ++ (enqueueMutation m none now s).pc.entries) :
    e.serial = s.nextSerial ∨ e ∈ s.queue ++ s.pc.entries := by
  rcases mem_append.mp he with he | he
  · rw [enqueueMutation_queue] at he
    rcases mem_or_eq_of_mem_upsert he with rfl | he
    · exact .inl rfl
    · exact .inr (mem_append_left _ (mem_of_mem_filter he))
  · rw [enqueueMutation_pc] at he
    exact .inr (mem_append_right _ he)

theorem nextSerial_enqueueMutation (m : Mutation) (now : ℤ) (s : OfflineQueue.State) :
    (enqueueMutation m none now s).nextSerial = s.nextSerial + 1 := by
  simp [enqueueMutation, writeQueue]

/-- A mutation is stored for its owner. -/
theorem Inv.store (hi : Inv w) (m : Mutation) (now : ℤ) {owner : Option String}
    (howner : ∀ user ∈ w.session, Mine user owner) : Inv (w.store m now owner) where
  numbered := by
    intro e he
    have hnext : (w.store m now owner).client.nextSerial = w.client.nextSerial + 1 :=
      nextSerial_enqueueMutation m now w.client
    rw [hnext]
    rcases mem_enqueueMutation he with heq | he
    · exact heq ▸ Nat.lt_succ_self _
    · exact (hi.numbered e he).trans (Nat.lt_succ_self _)
  own := by
    intro user huser
    have h := hi.own user huser
    have hsurfaces : Surfaces w.client (enqueueMutation m none now w.client) :=
      surfaces_step (a := .enqueue m none now) rfl
    refine ⟨fun e he => ?_, h.shown_surface hsurfaces, h.durable_surface hsurfaces, h.requests⟩
    change Mine user (update w.ownerOf w.client.nextSerial owner e.serial)
    rcases mem_enqueueMutation he with heq | he
    · rw [heq, update_self]
      exact howner user huser
    · rw [update_of_ne (hi.numbered e he).ne]
      exact h.entries e he

end

/-! ## A step -/

section
variable {w : World}

/-- The requests change, and nothing else. -/
theorem Inv.setRequests (hi : Inv w) {requests : List Request}
    (h : (∀ user ∈ w.session, ∀ r ∈ w.requests, Mine user r.owner) →
      ∀ user ∈ w.session, ∀ r ∈ requests, Mine user r.owner) :
    Inv { w with requests := requests } where
  numbered := hi.numbered
  own := fun user huser =>
    { hi.own user huser with
      requests := h (fun user huser => (hi.own user huser).requests) user huser }

theorem Inv.setStage (hi : Inv w) (hr : w.requests[i]? = some r) (stage : Stage) :
    Inv { w with requests := w.requests.set i { r with stage := stage } } :=
  hi.setRequests fun h user huser =>
    forall_mem_set (h user huser) (h user huser r (mem_of_getElem? hr))

theorem Inv.push (hi : Inv w) (hr : ∀ user ∈ w.session, Mine user r.owner) :
    Inv { w with requests := w.requests ++ [r] } :=
  hi.setRequests fun h user huser =>
    forall_mem_append_singleton (h user huser) (hr user huser)

theorem Inv.erase (hi : Inv w) (i : ℕ) : Inv { w with requests := w.requests.eraseIdx i } :=
  hi.setRequests fun h user huser r hr => h user huser r (mem_of_mem_eraseIdx hr)

/-- Nobody is logged in. -/
theorem Inv.signOut (hi : Inv w) : Inv { w with session := none } where
  numbered := hi.numbered
  own := fun _ huser => absurd huser (by simp)

theorem inv_step {t : World} (hi : Inv w) (hcareful : Careful w a) (hstep : step w a = some t) :
    Inv t := by
  cases a with
  | login account =>
    cases hstep
    refine ⟨hi.numbered, fun user huser => ?_⟩
    cases huser
    exact { hcareful with }
  | logout =>
    cases hstep
    exact ⟨hi.numbered, fun _ huser => absurd huser (by simp)⟩
  | sessionEnds =>
    cases hstep
    exact hi.signOut
  | call m =>
    cases hstep
    exact hi.push fun user huser a ha => some.inj (ha.symm.trans huser)
  | offline i | send i | networkFailure i =>
    obtain ⟨r, hr, hstep⟩ := bind_eq_some_iff.mp hstep
    obtain ⟨-, hstep⟩ := ite_none_right_eq_some.mp hstep
    obtain rfl := some.inj hstep
    exact hi.setStage hr _
  | answered i =>
    obtain ⟨r, hr, hstep⟩ := bind_eq_some_iff.mp hstep
    obtain ⟨-, hstep⟩ := ite_none_right_eq_some.mp hstep
    obtain rfl := some.inj hstep
    exact hi.erase i
  | enqueue i now =>
    obtain ⟨r, hr, hstep⟩ := bind_eq_some_iff.mp hstep
    obtain ⟨-, hstep⟩ := ite_none_right_eq_some.mp hstep
    obtain rfl := some.inj hstep
    have hstored := hi.store r.mutation now fun user huser =>
      (hi.own user huser).requests r (mem_of_getElem? hr)
    exact hstored.erase i
  | drain a =>
    obtain ⟨hdrain, hstep⟩ := ite_none_right_eq_some.mp hstep
    obtain ⟨t, ht, rfl⟩ := map_eq_some_iff.mp hstep
    refine hi.drain (surfaces_step ht) (follows_step ht fun m createdAt now ha => ?_)
    rw [ha] at hdrain
    cases hdrain
  | resend =>
    simp only [step] at hstep
    split at hstep
    · obtain rfl := some.inj hstep
      exact ⟨hi.numbered, fun user huser => { hi.own user huser with }⟩
    · cases hstep
  | retry clientId =>
    obtain ⟨item, hitem, hstep⟩ := bind_eq_some_iff.mp hstep
    obtain ⟨method, -, rfl⟩ := map_eq_some_iff.mp hstep
    obtain ⟨hmem, hid⟩ := mem_of_lookup hitem
    refine hi.push fun user huser => ?_
    have hmine := (hi.own user huser).shown item hmem
    rwa [show item.clientId = clientId from hid] at hmine
  | dismiss clientId =>
    cases hstep
    exact ⟨hi.numbered, fun user huser =>
      { hi.own user huser with
        shown := fun f hf => (hi.own user huser).shown f (mem_erase.mp hf).1 }⟩
  | persist a =>
    obtain ⟨haccess, hstep⟩ := ite_none_right_eq_some.mp hstep
    obtain ⟨d, hd, rfl⟩ := map_eq_some_iff.mp hstep
    exact ⟨hi.numbered, fun user huser =>
      { hi.own user huser with durable := (hi.own user huser).durable.access haccess hd }⟩
  | storageFails i =>
    obtain ⟨task, -, rfl⟩ := map_eq_some_iff.mp hstep
    exact ⟨hi.numbered, fun user huser =>
      { hi.own user huser with
        durable := (hi.own user huser).durable.setPhase
          (fun _ hf => absurd hf not_mem_nil) (.inr rfl) }⟩
  | clearQueue =>
    obtain ⟨-, hstep⟩ := ite_none_right_eq_some.mp hstep
    obtain rfl := some.inj hstep
    refine ⟨fun e he => hi.numbered e (mem_append_right _ he), fun user huser => ?_⟩
    exact { hi.own user huser with
      entries := fun e he => (hi.own user huser).entries e (mem_append_right _ he) }
  | clearPersistedFailed =>
    obtain ⟨-, hstep⟩ := ite_none_right_eq_some.mp hstep
    obtain rfl := some.inj hstep
    refine ⟨hi.numbered, fun user huser => { hi.own user huser with durable := ?_ }⟩
    have hdurable := (hi.own user huser).durable
    exact { hdurable with stored := fun _ hf => absurd hf not_mem_nil }

/-- An entry that is sent is in the hands of the drain. -/
theorem mem_entries_of_sends {m : QueuedMutation} (hm : sends w a = some m) :
    m ∈ w.client.pc.entries := by
  have hreplaying : ∀ pc : Pc, replaying pc = some m → m ∈ pc.entries := by
    intro pc hpc
    cases pc with
    | inFlight m' rest =>
      obtain rfl := some.inj hpc
      exact mem_cons_self
    | idle | looping | settling | recording | rewriting => cases hpc
  cases a with
  | resend => exact hreplaying _ hm
  | drain a =>
    cases a with
    | send =>
      simp only [sends] at hm
      split at hm
      · rename_i m' rest hpc
        obtain rfl := some.inj hm
        rw [hpc]
        exact mem_cons_self
      · cases hm
    | enqueue | start | reply | settle | record | rewrite | finish => cases hm
  | login | logout | sessionEnds | call | offline | send | networkFailure | answered | enqueue
  | retry | dismiss | persist | storageFails | clearQueue | clearPersistedFailed => cases hm

theorem Inv.sendsOwn (hi : Inv w) (t : World) : SendsOwn w a t :=
  fun user huser m hm =>
    (hi.own user huser).entries m (mem_append_right _ (mem_entries_of_sends hm))

end

/-! ## A run -/

theorem inv_start (x : Start) : Inv x.world where
  numbered := by
    intro e he
    have hentries : e ∈ number 0 x.queue.entries := by
      rcases mem_append.mp he with he | he
      · exact he
      · exact absurd he not_mem_nil
    have hserial := serial_lt_of_mem_number hentries
    simpa [Start.world, initial] using hserial
  own := fun _ huser => absurd huser (by simp [Start.world])

/-- **Users are isolated** in a run of careful steps, whatever was stored when the app started. -/
theorem isolated_of_careful (x : Start) {as : List Action}
    (h : Machine.Meets step Careful x.world as) :
    Machine.Always step Isolated x.world as ∧ Machine.Each step SendsOwn x.world as := by
  have hinv : ∀ s a t, Inv s → Careful s a → step s a = some t → Inv t :=
    fun _ _ _ hi hcareful hstep => inv_step hi hcareful hstep
  exact ⟨Machine.always_of_meets hinv (fun _ hi => hi.isolated) (inv_start x) h,
    Machine.each_of_meets hinv (fun _ _ t hi _ _ => hi.sendsOwn t) (inv_start x) h⟩

/-! ## Two runs -/

/-- Nothing is left by anyone, and nothing under way. -/
def World.isClear (w : World) : Bool :=
  w.client.queue.isEmpty && w.client.pc.isIdle && w.client.failedSync.isEmpty &&
    w.durable.content.items.isEmpty && w.durable.tasks.isEmpty && w.requests.isEmpty

theorem allOwn_of_isClear {w : World} (h : w.isClear = true) (user : String) : AllOwn w user := by
  simp only [World.isClear, Bool.and_eq_true, List.isEmpty_iff, Pc.isIdle_iff] at h
  obtain ⟨⟨⟨⟨⟨hqueue, hpc⟩, hfailed⟩, hitems⟩, htasks⟩, hrequests⟩ := h
  refine ⟨?_, ?_, ⟨?_, ?_, ?_⟩, ?_⟩
  · simp [hqueue, hpc, Pc.entries]
  · simp [hfailed]
  · simp [hitems]
  · simp [htasks]
  · simp [htasks]
  · simp [hrequests]

/-- A user logs in on a device that is clear. -/
def clearAtLogin (w : World) : Action → Bool
  | .login _ => w.isClear
  | _ => true

theorem careful_of_clear (w : World) (a : Action) (h : clearAtLogin w a = true) : Careful w a := by
  cases a with
  | login account => exact allOwn_of_isClear h account
  | logout | sessionEnds | call | offline | send | networkFailure | answered | enqueue | drain
  | resend | retry | dismiss | persist | storageFails | clearQueue | clearPersistedFailed => trivial

/-- Nothing is stored. -/
def freshDevice : Start where
  queue := ⟨[], nodup_nil⟩
  reconciler := false
  durable := none
  ownerOf := fun _ => none
  shownOwner := fun _ => none
  failedOwners := []

def pick (setId : String) : Mutation where
  clientId := setId
  url := "/profiles/p1"
  method := .put

/-- A user picks a set without a connection. -/
def pickOffline (setId : String) (now : ℤ) : List Action :=
  [.call (pick setId), .offline 0, .enqueue 0 now]

/-- Alice's pick is delivered, she logs out and the device is cleared before Bob logs in. -/
def cleared : List Action :=
  .login "alice" :: (pickOffline "s1" 0 ++
    [.drain (.start false 1), .drain .send, .drain (.reply (.ok .null) false), .drain (.settle 2),
      .drain .finish, .logout, .clearQueue, .clearPersistedFailed, .login "bob"] ++
    pickOffline "s1" 3 ++ [.drain (.start false 4), .drain .send])

theorem cleared_isolated :
    Machine.Always step Isolated freshDevice.world cleared ∧
      Machine.Each step SendsOwn freshDevice.world cleared := by
  have hclear : Machine.Meets step (fun w a => clearAtLogin w a = true) freshDevice.world
      cleared := by
    decide
  exact isolated_of_careful freshDevice (hclear.mono careful_of_clear)

/-- Alice logs out while the drain replays the first of her two picks; everything is cleared, and
Bob logs in. -/
def drainGoesOn : List Action :=
  .login "alice" :: (pickOffline "s1" 0 ++ pickOffline "s2" 1 ++
    [.drain (.start false 2), .drain .send, .logout, .clearQueue, .clearPersistedFailed,
      .login "bob", .drain (.reply (.ok .null) false), .drain (.settle 3)])

/-- Her second pick is sent with his token. -/
theorem alice_sent_by_bob : ¬ ∀ (x : Start) (as : List Action),
    Machine.Always step Isolated x.world as ∧ Machine.Each step SendsOwn x.world as := by
  intro h
  have hrun : ∃ w t, Machine.run step freshDevice.world drainGoesOn = some w ∧
      step w (.drain .send) = some t ∧ w.session = some "bob" ∧
      ∃ m, sends w (.drain .send) = some m ∧ w.ownerOf m.serial = some "alice" :=
    ⟨_, _, rfl, rfl, rfl, _, rfl, rfl⟩
  obtain ⟨w, t, hw, ht, hsession, m, hm, howner⟩ := hrun
  have hown := (h freshDevice (drainGoesOn ++ [.drain .send])).2.last hw ht "bob" hsession m hm
  exact absurd (hown "alice" howner) (by decide)

end FestivalPlanner.UserSwitch
