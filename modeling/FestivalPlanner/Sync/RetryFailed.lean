import FestivalPlanner.Lib.InFlight
import FestivalPlanner.Sync.FailedList
import FestivalPlanner.Sync.NoLostUpdate

/-!
# Retrying a failed mutation

`retryFailed` stores the body of a failed item again under its `clientId`, dismisses the item and
drains.  The entry that it stores replaces whatever is queued for the `clientId`, and the durable
list keeps the item.

* `World` — the queue with its drain, the durable list and the calls under way; every mutation has a
  version, and a retried entry has the version of the item;
* `step` — a step of the queue, of a retry or of the durable list;
* `NeverUndone` — a step that replaces no newer mutation, delivers nothing older than what was
  delivered, and leaves nothing behind that a restart would show as failed;
* `Careful` — nothing newer is queued, drained or delivered when a mutation is put back, and storage
  holds no trace of the `clientId` when it is delivered;
* `retries_never_undo` — no step of a run of careful steps undoes a newer mutation.
-/

namespace FestivalPlanner.RetryFailed

open OfflineQueue List Option Keyed InFlight Function

/-! ## The calls -/

/-- `hydrateFailedSync`: every stored item is shown. -/
def hydrateFailedSync (raw : FailedCell) (failedSync : List FailedSyncItem) : List FailedSyncItem :=
  raw.items.foldl (fun list item => putLast failedKey item list) failedSync

/-- `String(item.method).toUpperCase() as QueuedMethod` -/
def methodOf (method : String) : Option QueuedMethod :=
  [QueuedMethod.post, .put, .patch, .delete].find? fun m =>
    m.name = String.ofList (method.toList.map Char.toUpper)

/-- What `retryFailed` hands to `enqueueMutation`. -/
def retriedMutation (item : FailedSyncItem) (method : QueuedMethod) : Mutation where
  clientId := item.clientId
  url := item.url
  method := method
  body := item.body
  label := some item.label

/-- A call of `retryFailed`: its item, the version of the mutation that failed, and whether the
mutation is back in the queue. -/
structure Retry where
  item : FailedSyncItem
  method : QueuedMethod
  version : ℕ
  queued : Bool

/-- The queue, the durable list of failed items and the retries under way.  `versionOf` numbers the
mutations of the entries by their serial and `shown` those of the failed items by `clientId`. -/
structure World where
  client : OfflineQueue.State
  durable : FailedState
  retries : List Retry
  versionOf : ℕ → ℕ
  shown : String → ℕ
  nextVersion : ℕ
  /-- the serials of the entries that `retryFailed` stored -/
  putBack : List ℕ
  /-- the `clientId`s whose retried mutation was delivered, with no failure since -/
  settled : List String

/-- The entries that a step of the queue has surfaced as failed. -/
def surfaced (s t : OfflineQueue.State) : List QueuedMutation := t.recorded.drop s.recorded.length

/-- The recording that a surfaced entry starts. -/
def recording (t : OfflineQueue.State) (m : QueuedMutation) :
    Option (ReadModifyWrite.Task FailedCell FailedOp) :=
  (lookup failedKey m.clientId t.failedSync).map fun item => ⟨.persist item, .begun⟩

/-- The queue has made a step: each `recordFailed` shows an item and starts to persist it. -/
def World.surface (w : World) (t : OfflineQueue.State) : World :=
  { w with
    client := t
    durable := { w.durable with
      tasks := w.durable.tasks ++ (surfaced w.client t).filterMap (recording t) }
    shown := (surfaced w.client t).foldl
      (fun shown m => update shown m.clientId (w.versionOf m.serial)) w.shown
    settled := w.settled.filter fun c => (surfaced w.client t).all fun m => m.clientId ≠ c }

/-- A mutation is stored with a version. -/
def World.store (w : World) (m : Mutation) (createdAt : Option ℤ) (now : ℤ) (version : ℕ) : World :=
  { w.surface (enqueueMutation m createdAt now w.client) with
    versionOf := update w.versionOf w.client.nextSerial version }

/-! ## The steps -/

/-- What can happen next. -/
inductive Action where
  /-- the application stores a mutation -/
  | enqueue (m : Mutation) (createdAt : Option ℤ) (now : ℤ)
  /-- the replay in flight succeeds -/
  | deliver (serverResponse : Js.Json)
  /-- the drain makes another step -/
  | drain (a : OfflineQueue.Action)
  /-- `retryFailed` is called on the item that is shown for a `clientId` -/
  | retry (clientId : String)
  /-- the section of its `enqueueMutation` gets the lock -/
  | putBack (i : ℕ) (now : ℤ)
  /-- it dismisses its item -/
  | dismiss (i : ℕ)
  /-- the user dismisses an item -/
  | dismissItem (clientId : String)
  /-- a recording reads or writes the durable list -/
  | persist (a : FailedAction)
  /-- storage fails for a recording -/
  | storageFails (i : ℕ)

/-- A step of the drain other than a delivery. -/
def isDrain : OfflineQueue.Action → Bool
  | .enqueue _ _ _ | .reply (.ok _) _ => false
  | _ => true

/-- A read or a write. -/
def isAccess : FailedAction → Bool
  | .begin _ => false
  | _ => true

/-- `dismissFailedSync` -/
def World.dismissFailedSync (w : World) (clientId : String) : World :=
  { w with client := { w.client with
      failedSync := erase failedKey clientId w.client.failedSync } }

/-- The delivery of a retried entry settles its `clientId`. -/
def World.settle (w : World) (m : QueuedMutation) : World :=
  if m.serial ∈ w.putBack then { w with settled := m.clientId :: w.settled } else w

@[grind =] def step (w : World) : Action → Option World
  | .enqueue m createdAt now =>
      some { w.store m createdAt now w.nextVersion with nextVersion := w.nextVersion + 1 }
  | .deliver serverResponse =>
      match w.client.pc with
      | .inFlight m _ =>
          (OfflineQueue.step w.client (.reply (.ok serverResponse) false)).map fun t =>
            (w.surface t).settle m
      | _ => none
  | .drain a => if isDrain a then (OfflineQueue.step w.client a).map w.surface else none
  | .retry clientId =>
      (lookup failedKey clientId w.client.failedSync).bind fun item =>
        (methodOf item.method).map fun method =>
          { w with retries := w.retries ++ [⟨item, method, w.shown clientId, false⟩] }
  | .putBack i now =>
      match w.retries[i]? with
      | some ⟨item, method, version, false⟩ =>
          some { w.store (retriedMutation item method) none now version with
            retries := w.retries.set i ⟨item, method, version, true⟩
            putBack := w.client.nextSerial :: w.putBack }
      | _ => none
  | .dismiss i =>
      match w.retries[i]? with
      | some ⟨item, _, _, true⟩ =>
          some { w.dismissFailedSync item.clientId with retries := w.retries.eraseIdx i }
      | _ => none
  | .dismissItem clientId => some (w.dismissFailedSync clientId)
  | .persist a =>
      if isAccess a then (failedStep w.durable a).map fun d => { w with durable := d } else none
  | .storageFails i =>
      (w.durable.tasks[i]?).map fun t => { w with durable := w.durable.setPhase i t.op .done }

/-- What a run starts from: any stored queue, any failed items, shown and stored, and any versions
of their mutations. -/
structure Start where
  queue : StoredQueue
  failedSync : List FailedSyncItem
  reconciler : Bool
  durable : FailedCell
  versionOf : ℕ → ℕ
  shown : String → ℕ
  nextVersion : ℕ
  versionOf_lt : ∀ serial, versionOf serial < nextVersion
  shown_lt : ∀ clientId, shown clientId < nextVersion

def Start.world (x : Start) : World where
  client := initial x.queue x.failedSync x.reconciler
  durable := ⟨x.durable, []⟩
  retries := []
  versionOf := x.versionOf
  shown := x.shown
  nextVersion := x.nextVersion
  putBack := []
  settled := []

/-! ## What a retry must not do -/

/-- A step that undoes no newer mutation. -/
structure NeverUndone (w : World) (a : Action) (t : World) : Prop where
  /-- A newer mutation of the `clientId` that is queued stays queued, -/
  kept : ∀ i now r, a = .putBack i now → w.retries[i]? = some r → ∀ e ∈ w.client.queue,
    isFresh now e = true → e.clientId = r.item.clientId → r.version < w.versionOf e.serial →
      e ∈ t.client.queue
  /-- nothing is delivered after a newer mutation of its `clientId`, -/
  ordered : ∀ v m rest, a = .deliver v → w.client.pc = .inFlight m rest →
    ∀ d ∈ w.client.delivered, d.clientId = m.clientId → w.versionOf d.serial ≤ w.versionOf m.serial
  /-- and a restart shows no failure of a `clientId` whose retried mutation was delivered. -/
  gone : ∀ c ∈ t.settled, ∀ f ∈ hydrateFailedSync t.durable.content [], f.clientId ≠ c

/-- What a recording has read. -/
def readItems : ReadModifyWrite.Phase FailedCell → List FailedSyncItem
  | .hasRead seen => seen.items
  | _ => []

/-- The durable list holds no item of the `clientId`, no recording has read one, and none is to
be written. -/
structure Gone (s : FailedState) (c : String) : Prop where
  stored : ∀ f ∈ s.content.items, f.clientId ≠ c
  read : ∀ t ∈ s.tasks, ∀ f ∈ readItems t.phase, f.clientId ≠ c
  written : ∀ t ∈ s.tasks, t.isDone = false → t.op.clientId ≠ c

instance (s : FailedState) (c : String) : Decidable (Gone s c) :=
  decidable_of_iff ((∀ f ∈ s.content.items, f.clientId ≠ c) ∧
      (∀ t ∈ s.tasks, ∀ f ∈ readItems t.phase, f.clientId ≠ c) ∧
      ∀ t ∈ s.tasks, t.isDone = false → t.op.clientId ≠ c)
    ⟨fun h => ⟨h.1, h.2.1, h.2.2⟩, fun h => ⟨h.1, h.2, h.3⟩⟩

/-- The entry whose replay is in flight. -/
def replaying : Pc → Option QueuedMutation
  | .inFlight m _ => some m
  | _ => none

/-- Nothing newer of the `clientId` is queued, in the hands of the drain, or delivered when a
mutation is put back, and nothing is left of it in storage when a retried mutation is delivered. -/
def Careful (w : World) : Action → Prop
  | .putBack i now =>
      ∀ r ∈ w.retries[i]?,
        ∀ e ∈ w.client.queue.filter (isFresh now) ++ w.client.pc.entries ++ w.client.delivered,
          e.clientId = r.item.clientId → w.versionOf e.serial ≤ r.version
  | .deliver _ => ∀ m ∈ replaying w.client.pc, m.serial ∈ w.putBack → Gone w.durable m.clientId
  | _ => True

instance (w : World) : ∀ a, Decidable (Careful w a) := fun a => by
  unfold Careful
  split <;> infer_instance

/-! ## What a step of the queue carries on -/

/-- The queue and the drain go on with what they had. -/
structure Follows (s t : OfflineQueue.State) : Prop where
  nextSerial : t.nextSerial = s.nextSerial
  queue : ∀ q ∈ t.queue, ∃ q' ∈ s.queue, SameWrite q q'
  unique : UniqueKeys clientKey s.queue → UniqueKeys clientKey t.queue
  entries : t.pc.entries.Sublist s.pc.entries ∨ t.pc.entries = sortQueue t.queue

variable {m : QueuedMutation} {now : ℤ} {a : OfflineQueue.Action} {createdAt : Option ℤ}
  {version : ℕ} {raw : FailedCell} {op : FailedOp}

section
variable {s t : OfflineQueue.State}

theorem Follows.of_eq (hnext : t.nextSerial = s.nextSerial) (hqueue : t.queue = s.queue)
    (hentries : t.pc.entries.Sublist s.pc.entries) : Follows s t where
  nextSerial := hnext
  queue q hq := ⟨q, hqueue ▸ hq, SameWrite.refl q⟩
  unique h := hqueue ▸ h
  entries := .inl hentries

theorem Follows.of_filter (now : ℤ) (hnext : t.nextSerial = s.nextSerial)
    (hqueue : ∀ q ∈ t.queue, ∃ q' ∈ s.queue.filter (isFresh now), SameWrite q q')
    (hunique : UniqueKeys clientKey (s.queue.filter (isFresh now)) →
      UniqueKeys clientKey t.queue)
    (hentries : t.pc.entries.Sublist s.pc.entries ∨ t.pc.entries = sortQueue t.queue) :
    Follows s t where
  nextSerial := hnext
  queue q hq := by
    obtain ⟨q', hq', hsame⟩ := hqueue q hq
    exact ⟨q', mem_of_mem_filter hq', hsame⟩
  unique h := hunique (h.filter _)
  entries := hentries

theorem follows_removeEntry (clientId : String) (now : ℤ) (s : OfflineQueue.State) {pc : Pc}
    (hentries : pc.entries.Sublist s.pc.entries) :
    Follows s { removeEntry clientId now s with pc := pc } := by
  refine Follows.of_filter now (removeEntry_nextSerial clientId now s) (fun q hq => ?_) (fun h => ?_)
    (.inl hentries)
  · change q ∈ (removeEntry clientId now s).queue at hq
    rw [removeEntry_queue] at hq
    exact ⟨q, (mem_erase.mp hq).1, SameWrite.refl q⟩
  · change UniqueKeys clientKey (removeEntry clientId now s).queue
    rw [removeEntry_queue]
    exact h.erase _

theorem follows_settles {rest : List QueuedMutation} {r : Reply} (hpc : s.pc = .settling m r rest)
    (h : Settles m rest now s r t) : Follows s t := by
  have hall : (m :: rest).Sublist s.pc.entries := by rw [hpc]; exact List.Sublist.refl _
  have hrest : rest.Sublist s.pc.entries := by rw [hpc]; exact sublist_cons_self m rest
  cases h with
  | learns v realId hid => exact follows_removeEntry m.clientId now s hall
  | removes v hid => exact follows_removeEntry m.clientId now s hrest
  | fails status message h => exact follows_removeEntry m.clientId now s hall
  | keeps status message h =>
    refine Follows.of_filter now (bumpRetries_nextSerial _ _ now s) (fun q hq => ?_) (fun h => ?_)
      (.inl hrest)
    · change q ∈ (bumpRetries m.clientId (m.retries.getD 0 + 1) now s).queue at hq
      rw [bumpRetries_queue] at hq
      rcases mem_of_mem_modify hq with hq | ⟨q', hq', -, rfl⟩
      · exact ⟨q, hq, SameWrite.refl q⟩
      · exact ⟨q', hq', (SameWrite.refl q').retries _⟩
    · change UniqueKeys clientKey (bumpRetries m.clientId (m.retries.getD 0 + 1) now s).queue
      rw [bumpRetries_queue]
      refine h.of_map_eq (map_key_modify ?_ _)
      intro x
      rfl

/-- A step of the drain goes on with what was there. -/
theorem follows_step (h : OfflineQueue.step s a = some t)
    (ha : ∀ m createdAt now, a ≠ .enqueue m createdAt now) : Follows s t := by
  cases Step.of_step h with
  | enqueue m createdAt now => exact absurd rfl (ha m createdAt now)
  | skip => exact Follows.of_eq rfl rfl (List.Sublist.refl _)
  | start now hpc =>
    refine Follows.of_filter now (readQueue_nextSerial now s) (fun q hq => ?_) (fun h => ?_) (.inr rfl)
    · exact ⟨q, (readQueue_queue now s) ▸ hq, SameWrite.refl q⟩
    · change UniqueKeys clientKey (readQueue now s).queue
      rwa [readQueue_queue]
  | send m rest hpc => exact Follows.of_eq rfl rfl (by rw [hpc]; exact List.Sublist.refl _)
  | succeed m rest v offline hpc =>
    exact Follows.of_eq rfl rfl (by rw [hpc]; exact List.Sublist.refl _)
  | stop m rest status message hpc => exact Follows.of_eq rfl rfl (nil_sublist _)
  | fail m rest status message hpc =>
    exact Follows.of_eq rfl rfl (by rw [hpc]; exact List.Sublist.refl _)
  | settle m r rest now _ hpc hset => exact follows_settles hpc hset
  | record m error rest now hpc =>
    exact Follows.of_eq rfl rfl (by rw [hpc]; exact sublist_cons_self m rest)
  | rewrite m realId rest now hpc =>
    refine Follows.of_filter now (rewriteUrls_nextSerial _ _ now s) (fun q hq => ?_) (fun h => ?_)
      (.inl (by rw [hpc]; exact sublist_cons_self m rest))
    · change q ∈ (rewriteUrls m.clientId realId now s).queue at hq
      rw [rewriteUrls_queue] at hq
      obtain ⟨q', hq', rfl⟩ := List.mem_map.mp hq
      exact ⟨q', hq', (SameWrite.refl q').url _⟩
    · change UniqueKeys clientKey (rewriteUrls m.clientId realId now s).queue
      rw [rewriteUrls_queue]
      refine h.of_map_eq ?_
      rw [List.map_map]
      rfl
  | finish hpc => exact Follows.of_eq rfl rfl (nil_sublist _)

/-- Only a successful reply delivers. -/
theorem delivered_step (h : OfflineQueue.step s a = some t) (ha : isDrain a = true) :
    t.delivered = s.delivered := by
  cases Step.of_step h with
  | enqueue | succeed => cases ha
  | skip | stop | fail | finish => rfl
  | start now hpc => exact readQueue_delivered now s
  | send m rest hpc => simp [State.delivered, Event.delivered?]
  | settle m r rest now _ hpc hset =>
    cases hset with
    | learns | removes | fails => exact removeEntry_delivered m.clientId now s
    | keeps => exact bumpRetries_delivered m.clientId _ now s
  | record m error rest now hpc => simp [State.delivered, recordFailed]
  | rewrite m realId rest now hpc => simp [State.delivered, Event.delivered?]

end

/-! ## The order of the versions -/

/-- Nothing that is queued or drained is older than what was delivered, and nothing that is queued
older than what is drained. -/
structure Ordered (s : OfflineQueue.State) (versionOf : ℕ → ℕ) : Prop where
  unique : UniqueKeys clientKey s.queue
  drains : UniqueKeys clientKey s.pc.entries
  numbered : ∀ e ∈ s.queue ++ s.pc.entries ++ s.delivered, e.serial < s.nextSerial
  delivered : ∀ d ∈ s.delivered, ∀ e ∈ s.queue ++ s.pc.entries, e.clientId = d.clientId →
    versionOf d.serial ≤ versionOf e.serial
  queued : ∀ m ∈ s.pc.entries, ∀ e ∈ s.queue, e.clientId = m.clientId →
    versionOf m.serial ≤ versionOf e.serial

section
variable {s t : OfflineQueue.State} {versionOf : ℕ → ℕ}

theorem Follows.entry (h : Follows s t) {e : QueuedMutation} (he : e ∈ t.queue ++ t.pc.entries) :
    ∃ e' ∈ s.queue ++ s.pc.entries, SameWrite e e' := by
  have hqueue : ∀ e ∈ t.queue, ∃ e' ∈ s.queue ++ s.pc.entries, SameWrite e e' := by
    intro e he
    obtain ⟨e', he', hsame⟩ := h.queue e he
    exact ⟨e', mem_append_left _ he', hsame⟩
  rcases mem_append.mp he with he | he
  · exact hqueue e he
  · rcases h.entries with hsub | heq
    · exact ⟨e, mem_append_right _ (hsub.subset he), SameWrite.refl e⟩
    · rw [heq, mem_sortQueue] at he
      exact hqueue e he

theorem Ordered.follows (hs : Ordered s versionOf) (h : Follows s t)
    (hdelivered : t.delivered = s.delivered) : Ordered t versionOf where
  unique := h.unique hs.unique
  drains := by
    rcases h.entries with hsub | heq
    · exact List.Nodup.sublist (hsub.map clientKey) hs.drains
    · rw [heq]
      exact (h.unique hs.unique).of_perm (perm_insertionSort _ _).symm
  numbered := by
    intro e he
    rw [h.nextSerial]
    rcases mem_append.mp he with he | he
    · obtain ⟨e', he', hsame⟩ := h.entry he
      rw [hsame.1]
      exact hs.numbered e' (mem_append_left _ he')
    · exact hs.numbered e (mem_append_right _ (hdelivered ▸ he))
  delivered := by
    intro d hd e he hid
    obtain ⟨e', he', hsame⟩ := h.entry he
    rw [hsame.1]
    exact hs.delivered d (hdelivered ▸ hd) e' he' (hsame.2.1.symm.trans hid)
  queued := by
    intro m hm e he hid
    obtain ⟨e', he', hsame⟩ := h.queue e he
    rcases h.entries with hsub | heq
    · rw [hsame.1]
      exact hs.queued m (hsub.subset hm) e' he' (hsame.2.1.symm.trans hid)
    · rw [heq, mem_sortQueue] at hm
      rw [(h.unique hs.unique).eq_of_mem he hm hid]

/-- What is delivered is as old as what is drained. -/
theorem Ordered.deliver (hs : Ordered s versionOf) (h : Follows s t) (hm : m ∈ s.pc.entries)
    (hentries : t.pc.entries.Sublist s.pc.entries) (hdelivered : t.delivered = s.delivered ++ [m]) :
    Ordered t versionOf where
  unique := h.unique hs.unique
  drains := List.Nodup.sublist (hentries.map clientKey) hs.drains
  numbered := by
    intro e he
    rw [h.nextSerial]
    rw [hdelivered, ← append_assoc, mem_append] at he
    rcases he with he | he
    · rcases mem_append.mp he with he | he
      · obtain ⟨e', he', hsame⟩ := h.entry he
        rw [hsame.1]
        exact hs.numbered e' (mem_append_left _ he')
      · exact hs.numbered e (mem_append_right _ he)
    · rw [mem_singleton.mp he]
      exact hs.numbered m (mem_append_left _ (mem_append_right _ hm))
  delivered := by
    intro d hd e he hid
    obtain ⟨e', he', hsame⟩ := h.entry he
    rw [hsame.1]
    have hid' : e'.clientId = d.clientId := hsame.2.1.symm.trans hid
    rw [hdelivered, mem_append, mem_singleton] at hd
    rcases hd with hd | rfl
    · exact hs.delivered d hd e' he' hid'
    · rcases mem_append.mp he' with he' | he'
      · exact hs.queued d hm e' he' hid'
      · rw [hs.drains.eq_of_mem he' hm hid']
  queued := by
    intro x hx e he hid
    obtain ⟨e', he', hsame⟩ := h.queue e he
    rw [hsame.1]
    exact hs.queued x (hentries.subset hx) e' he' (hsame.2.1.symm.trans hid)

/-- A mutation is stored whose version nothing drained or delivered exceeds. -/
theorem Ordered.enqueue (hs : Ordered s versionOf) {m : Mutation}
    (hversion : ∀ e ∈ s.pc.entries ++ s.delivered, e.clientId = m.clientId →
      versionOf e.serial ≤ version) :
    Ordered (enqueueMutation m createdAt now s)
      (update versionOf s.nextSerial version) := by
  have hqueue := enqueueMutation_queue m createdAt now s
  have hdelivered := enqueueMutation_delivered m createdAt now s
  have hpc := enqueueMutation_pc now s m createdAt
  have hold : ∀ e ∈ s.queue ++ s.pc.entries ++ s.delivered,
      update versionOf s.nextSerial version e.serial = versionOf e.serial :=
    fun e he => update_of_ne (hs.numbered e he).ne _ _
  have hnew : update versionOf s.nextSerial version s.nextSerial = version :=
    update_self ..
  have hmem : ∀ e ∈ (enqueueMutation m createdAt now s).queue,
      e = newEntry m createdAt now s ∨ e ∈ s.queue := by
    intro e he
    rw [hqueue] at he
    exact (mem_or_eq_of_mem_upsert he).imp_right mem_of_mem_filter
  have hdrained : ∀ {e}, e ∈ s.pc.entries → e ∈ s.queue ++ s.pc.entries ++ s.delivered :=
    fun he => mem_append_left _ (mem_append_right _ he)
  have hqueued : ∀ {e}, e ∈ s.queue → e ∈ s.queue ++ s.pc.entries ++ s.delivered :=
    fun he => mem_append_left _ (mem_append_left _ he)
  refine ⟨?_, hpc ▸ hs.drains, ?_, ?_, ?_⟩
  · rw [hqueue]
    exact (hs.unique.filter _).upsert _
  · intro e he
    rw [enqueueMutation_nextSerial]
    rw [hpc, hdelivered, append_assoc, mem_append] at he
    rcases he with he | he
    · rcases hmem e he with rfl | he
      · exact Nat.lt_succ_self _
      · exact Nat.lt_succ_of_lt (hs.numbered e (hqueued he))
    · refine Nat.lt_succ_of_lt (hs.numbered e ?_)
      rw [append_assoc]
      exact mem_append_right _ he
  · intro d hd e he hid
    rw [hdelivered] at hd
    rw [hold d (mem_append_right _ hd)]
    rw [hpc, mem_append] at he
    rcases he with he | he
    · rcases hmem e he with rfl | he
      · exact hnew.symm ▸ hversion d (mem_append_right _ hd) hid.symm
      · rw [hold e (hqueued he)]
        exact hs.delivered d hd e (mem_append_left _ he) hid
    · rw [hold e (hdrained he)]
      exact hs.delivered d hd e (mem_append_right _ he) hid
  · intro x hx e he hid
    rw [hpc] at hx
    rw [hold x (hdrained hx)]
    rcases hmem e he with rfl | he
    · exact hnew.symm ▸ hversion x (mem_append_left _ hx) hid.symm
    · rw [hold e (hqueued he)]
      exact hs.queued x hx e he hid

end

/-! ## The durable list -/

theorem mem_hydrateFailedSync {f : FailedSyncItem} (h : f ∈ hydrateFailedSync raw []) :
    f ∈ raw.items := by
  have hfold : ∀ (items list : List FailedSyncItem),
      f ∈ items.foldl (fun list item => putLast failedKey item list) list →
        f ∈ list ∨ f ∈ items := by
    intro items
    induction items with
    | nil => exact fun list hf => .inl hf
    | cons item items ih =>
      intro list hf
      rcases ih _ hf with hf | hf
      · rcases mem_putLast.mp hf with rfl | hf
        · exact .inr mem_cons_self
        · exact .inl hf.1
      · exact .inr (mem_cons_of_mem _ hf)
  rcases hfold _ _ h with h | h
  · cases h
  · exact h

section
variable {s t : FailedState} {c : String}

/-- What an operation on another `clientId` writes has no item of this one. -/
theorem forall_apply {raw' : FailedCell} (h : op.apply raw = some raw') (hop : op.clientId ≠ c)
    (hraw : ∀ f ∈ raw.items, f.clientId ≠ c) : ∀ f ∈ raw'.items, f.clientId ≠ c := by
  cases op with
  | persist item =>
    cases h
    intro f hf
    rcases mem_or_eq_of_mem_upsert hf with rfl | hf
    · exact hop
    · exact hraw f hf
  | remove d =>
    obtain ⟨list, rfl, rfl⟩ := map_eq_some_iff.mp h
    exact fun f hf => hraw f (mem_erase.mp hf).1

theorem Gone.setPhase (h : Gone s c) {i : ℕ} {phase : ReadModifyWrite.Phase FailedCell}
    (hread : ∀ f ∈ readItems phase, f.clientId ≠ c) (hop : op.clientId ≠ c ∨ phase = .done) :
    Gone (s.setPhase i op phase) c where
  stored := h.stored
  read := forall_mem_set h.read hread
  written := by
    refine forall_mem_set h.written fun hdone => ?_
    rcases hop with hop | rfl
    · exact hop
    · cases hdone

/-- The recordings bring no item back. -/
theorem Gone.access (h : Gone s c) {a : FailedAction} (ha : isAccess a = true)
    (hstep : failedStep s a = some t) : Gone t c := by
  cases a with
  | begin op => cases ha
  | read i =>
    simp only [failedStep, ReadModifyWrite.step] at hstep
    split at hstep
    · rename_i op hi
      have hop := h.written _ (mem_of_getElem? hi) rfl
      split at hstep
      · obtain rfl := some.inj hstep
        exact h.setPhase h.stored (.inl hop)
      · obtain rfl := some.inj hstep
        exact h.setPhase (fun _ hf => absurd hf not_mem_nil) (.inr rfl)
    · cases hstep
  | write i =>
    simp only [failedStep, ReadModifyWrite.step] at hstep
    split at hstep
    · rename_i op seen hi
      have hop := h.written _ (mem_of_getElem? hi) rfl
      have hseen := h.read _ (mem_of_getElem? hi)
      split at hstep
      · rename_i raw happly
        obtain rfl := some.inj hstep
        have hstored : Gone { s with content := raw } c :=
          ⟨forall_apply happly hop hseen, h.read, h.written⟩
        exact hstored.setPhase (fun _ hf => absurd hf not_mem_nil) (.inr rfl)
      · cases hstep
    · cases hstep

end

/-! ## The invariant -/

/-- What holds in every state of a run of careful steps. -/
structure Inv (w : World) : Prop where
  ordered : Ordered w.client w.versionOf
  versionOf_lt : ∀ serial, w.versionOf serial < w.nextVersion
  shown_lt : ∀ clientId, w.shown clientId < w.nextVersion
  retry_lt : ∀ r ∈ w.retries, r.version < w.nextVersion
  gone : ∀ c ∈ w.settled, Gone w.durable c

section
variable {w : World} {t : OfflineQueue.State}

/-- When nothing is surfaced, no recording starts. -/
theorem surface_durable (h : surfaced w.client t = []) : (w.surface t).durable = w.durable := by
  simp only [World.surface, h, filterMap_nil, append_nil]

/-- What is shown is of a known version. -/
theorem Inv.shown_surface (hi : Inv w) (t : OfflineQueue.State) :
    ∀ clientId, (w.surface t).shown clientId < w.nextVersion := by
  have hfold : ∀ (ms : List QueuedMutation) (shown : String → ℕ),
      (∀ c, shown c < w.nextVersion) → ∀ c, ms.foldl
        (fun shown m => update shown m.clientId (w.versionOf m.serial)) shown c <
          w.nextVersion := by
    intro ms
    induction ms with
    | nil => exact fun shown hshown => hshown
    | cons m ms ih =>
      intro shown hshown
      refine ih _ fun c => ?_
      change update shown m.clientId (w.versionOf m.serial) c < w.nextVersion
      rw [update_apply]
      split
      · exact hi.versionOf_lt _
      · exact hshown c
  exact hfold _ _ hi.shown_lt

/-- A recording of a `clientId` that is still settled is of another one. -/
theorem Inv.gone_surface (hi : Inv w) (t : OfflineQueue.State) :
    ∀ c ∈ (w.surface t).settled, Gone (w.surface t).durable c := by
  intro c hc
  obtain ⟨hc, hall⟩ := mem_filter.mp hc
  have hgone := hi.gone c hc
  have hnew : ∀ task ∈ (surfaced w.client t).filterMap (recording t),
      task.phase = .begun ∧ task.op.clientId ≠ c := by
    intro task htask
    obtain ⟨m, hm, hrecording⟩ := mem_filterMap.mp htask
    obtain ⟨item, hitem, rfl⟩ := map_eq_some_iff.mp hrecording
    refine ⟨rfl, ?_⟩
    change item.clientId ≠ c
    have hkey : item.clientId = m.clientId := (mem_of_lookup hitem).2
    rw [hkey]
    exact of_decide_eq_true (List.all_eq_true.mp hall m hm)
  refine ⟨hgone.stored, ?_, ?_⟩
  · intro task htask f hf
    rcases mem_append.mp htask with htask | htask
    · exact hgone.read task htask f hf
    · rw [(hnew task htask).1] at hf
      cases hf
  · intro task htask hdone
    rcases mem_append.mp htask with htask | htask
    · exact hgone.written task htask hdone
    · exact (hnew task htask).2

/-- A step of the queue in which the versions stay. -/
theorem Inv.surface (hi : Inv w) (hordered : Ordered t w.versionOf) : Inv (w.surface t) where
  ordered := hordered
  versionOf_lt := hi.versionOf_lt
  shown_lt := hi.shown_surface t
  retry_lt := hi.retry_lt
  gone := hi.gone_surface t

/-- A mutation is stored. -/
theorem Inv.store (hi : Inv w) {m : Mutation} {next : ℕ}
    (hversion : ∀ e ∈ w.client.pc.entries ++ w.client.delivered, e.clientId = m.clientId →
      w.versionOf e.serial ≤ version) (hlt : version < next) (hnext : w.nextVersion ≤ next) :
    Inv { w.store m createdAt now version with nextVersion := next } where
  ordered := hi.ordered.enqueue hversion
  versionOf_lt := by
    intro serial
    change update w.versionOf w.client.nextSerial version serial < next
    rw [update_apply]
    split
    · exact hlt
    · exact (hi.versionOf_lt serial).trans_le hnext
  shown_lt := fun c => (hi.shown_surface _ c).trans_le hnext
  retry_lt := fun r hr => (hi.retry_lt r hr).trans_le hnext
  gone := hi.gone_surface _

theorem Inv.dismissFailedSync (hi : Inv w) (clientId : String) :
    Inv (w.dismissFailedSync clientId) where
  ordered := ⟨hi.ordered.unique, hi.ordered.drains, hi.ordered.numbered, hi.ordered.delivered,
    hi.ordered.queued⟩
  versionOf_lt := hi.versionOf_lt
  shown_lt := hi.shown_lt
  retry_lt := hi.retry_lt
  gone := hi.gone

theorem Inv.withDurable (hi : Inv w) {durable : FailedState}
    (hgone : ∀ c, Gone w.durable c → Gone durable c) : Inv { w with durable := durable } where
  ordered := hi.ordered
  versionOf_lt := hi.versionOf_lt
  shown_lt := hi.shown_lt
  retry_lt := hi.retry_lt
  gone := fun c hc => hgone c (hi.gone c hc)

end

theorem Inv.deliver {w t : World} {v : Js.Json} (hi : Inv w) (hc : Careful w (.deliver v))
    (hstep : step w (.deliver v) = some t) : Inv t := by
  simp only [step] at hstep
  split at hstep
  · rename_i m rest hpc
    obtain ⟨client, hclient, rfl⟩ := map_eq_some_iff.mp hstep
    have hfollows := follows_step hclient (fun _ _ _ h => nomatch h)
    simp only [OfflineQueue.step, hpc, some.injEq] at hclient
    subst hclient
    have hm : m ∈ w.client.pc.entries := by rw [hpc]; exact mem_cons_self
    have hordered := hi.ordered.deliver hfollows hm
      (by rw [hpc]; exact List.Sublist.refl _)
      (by simp [State.delivered, Event.delivered?])
    have hsurface := hi.surface hordered
    rw [World.settle]
    split
    · rename_i hback
      refine ⟨hsurface.ordered, hsurface.versionOf_lt, hsurface.shown_lt, hsurface.retry_lt, ?_⟩
      intro c hc'
      rcases mem_cons.mp hc' with rfl | hc'
      · have hnone : surfaced w.client { w.client.note (.delivered m) with
            pc := .settling m (.ok v) rest } = [] := by
          simp [surfaced, State.recorded, Event.recorded?]
        rw [surface_durable hnone]
        exact hc m (by rw [hpc]; rfl) hback
      · exact hsurface.gone c hc'
    · exact hsurface
  · cases hstep

/-- Every careful step keeps the invariant. -/
theorem inv_step {w t : World} {a : Action} (hi : Inv w) (hc : Careful w a)
    (hstep : step w a = some t) : Inv t := by
  cases a with
  | enqueue m createdAt now =>
    obtain rfl := some.inj hstep
    exact hi.store (fun e _ _ => (hi.versionOf_lt e.serial).le) (Nat.lt_succ_self _)
      (Nat.le_succ _)
  | deliver v => exact hi.deliver hc hstep
  | drain a =>
    simp only [step] at hstep
    split at hstep
    · rename_i hdrain
      obtain ⟨client, hclient, rfl⟩ := map_eq_some_iff.mp hstep
      have hfollows := follows_step hclient fun m createdAt now h => by
        rw [h] at hdrain
        cases hdrain
      exact hi.surface (hi.ordered.follows hfollows (delivered_step hclient hdrain))
    · cases hstep
  | retry clientId =>
    obtain ⟨item, hitem, hmethod⟩ := bind_eq_some_iff.mp hstep
    obtain ⟨method, -, rfl⟩ := map_eq_some_iff.mp hmethod
    refine ⟨hi.ordered, hi.versionOf_lt, hi.shown_lt, ?_, hi.gone⟩
    exact forall_mem_append_singleton hi.retry_lt (hi.shown_lt clientId)
  | putBack i now =>
    simp only [step] at hstep
    split at hstep
    · rename_i item method version hr
      obtain rfl := some.inj hstep
      have hlt := hi.retry_lt _ (mem_of_getElem? hr)
      have hversion : ∀ e ∈ w.client.pc.entries ++ w.client.delivered,
          e.clientId = (retriedMutation item method).clientId → w.versionOf e.serial ≤ version := by
        intro e he hid
        refine hc _ hr e ?_ hid
        rw [append_assoc]
        exact mem_append_right _ he
      have hstore : Inv { w.store (retriedMutation item method) none now version with
          nextVersion := w.nextVersion } := hi.store hversion hlt le_rfl
      refine ⟨hstore.ordered, hstore.versionOf_lt, hstore.shown_lt, ?_, hstore.gone⟩
      exact forall_mem_set hi.retry_lt hlt
    · cases hstep
  | dismiss i =>
    simp only [step] at hstep
    split at hstep
    · obtain rfl := some.inj hstep
      have hdismissed := hi.dismissFailedSync ‹FailedSyncItem›.clientId
      refine ⟨hdismissed.ordered, hdismissed.versionOf_lt, hdismissed.shown_lt, ?_, hdismissed.gone⟩
      exact fun r hr => hi.retry_lt r (mem_of_mem_eraseIdx hr)
    · cases hstep
  | dismissItem clientId =>
    obtain rfl := some.inj hstep
    exact hi.dismissFailedSync clientId
  | persist a =>
    simp only [step] at hstep
    split at hstep
    · rename_i haccess
      obtain ⟨durable, hdurable, rfl⟩ := map_eq_some_iff.mp hstep
      exact hi.withDurable fun c hgone => hgone.access haccess hdurable
    · cases hstep
  | storageFails i =>
    obtain ⟨task, -, rfl⟩ := map_eq_some_iff.mp hstep
    exact hi.withDurable fun c hgone => hgone.setPhase (fun _ hf => nomatch hf) (.inr rfl)

/-! ## Runs -/

/-- A careful step undoes no newer mutation. -/
theorem neverUndone_step {w t : World} {a : Action} (hi : Inv w) (hc : Careful w a)
    (hstep : step w a = some t) : NeverUndone w a t where
  kept := by
    rintro i now r rfl hr e he hfresh hid hnewer
    have hmem : e ∈ w.client.queue.filter (isFresh now) ++ w.client.pc.entries ++
        w.client.delivered :=
      mem_append_left _ (mem_append_left _ (mem_filter.mpr ⟨he, hfresh⟩))
    exact absurd (hc r hr e hmem hid) (not_le.mpr hnewer)
  ordered := by
    rintro v m rest rfl hpc d hd hid
    refine hi.ordered.delivered d hd m (mem_append_right _ ?_) hid.symm
    rw [hpc]
    exact mem_cons_self
  gone := fun c hc' f hf =>
    ((inv_step hi hc hstep).gone c hc').stored f (mem_hydrateFailedSync hf)

theorem inv_start (x : Start) : Inv x.world where
  ordered := by
    have hdelivered : x.world.client.delivered = [] := by
      simp [Start.world, State.delivered, initial, filterMap_map, comp_def,
        Event.delivered?]
    refine ⟨uniqueKeys_number 0 x.queue, nodup_nil, ?_, ?_,
      fun _ hm => absurd hm not_mem_nil⟩
    · intro e he
      rw [hdelivered, append_nil] at he
      have hserial := serial_lt_of_mem_number (append_nil (number 0 x.queue.entries) ▸ he)
      simpa [Start.world, initial] using hserial
    · intro d hd
      rw [hdelivered] at hd
      cases hd
  versionOf_lt := x.versionOf_lt
  shown_lt := x.shown_lt
  retry_lt := fun _ hr => absurd hr not_mem_nil
  gone := fun _ hc => absurd hc not_mem_nil

/-- **A retry never undoes a newer mutation** in a run of careful steps, from any stored queue and
any failed items. -/
theorem retries_never_undo (x : Start) {as : List Action}
    (h : Machine.Meets step Careful x.world as) : Machine.Each step NeverUndone x.world as :=
  Machine.each_of_meets (fun _ _ _ hi hc hstep => inv_step hi hc hstep)
    (fun _ _ _ hi hc hstep => neverUndone_step hi hc hstep) (inv_start x) h

/-! ## Two runs -/

/-- Nothing is stored, queued or failed. -/
def fresh : Start where
  queue := ⟨[], nodup_nil⟩
  failedSync := []
  reconciler := false
  durable := none
  versionOf := fun _ => 0
  shown := fun _ => 0
  nextVersion := 1
  versionOf_lt := fun _ => Nat.zero_lt_one
  shown_lt := fun _ => Nat.zero_lt_one

/-- A note on a set, written with a text. -/
def noteEdit (text : String) : Mutation where
  clientId := "note"
  url := "/notes/n1"
  method := .put
  body := some (.str text)

/-- The note is refused. -/
def refusedNote : List Action :=
  [.enqueue (noteEdit "old") none 0, .drain (.start false 1), .drain .send,
    .drain (.reply (.error (some 409) "Conflict") false), .drain (.settle 2), .drain (.record 3),
    .drain .finish]

/-- It is retried, with nothing newer, and storage has not taken the failure. -/
def retriedNote : List Action :=
  refusedNote ++ [.storageFails 0, .retry "note", .putBack 0 4, .dismiss 0,
    .drain (.start false 5), .drain .send, .deliver .null, .drain (.settle 6), .drain .finish]

theorem retried_note_undoes_nothing : Machine.Each step NeverUndone fresh.world retriedNote :=
  retries_never_undo fresh (by decide)

/-- The note is written again before the retry, and waits in the queue. -/
def overtakenNote : List Action :=
  refusedNote ++ [.enqueue (noteEdit "new") none 4, .retry "note", .putBack 0 5]

/-- The retry puts the old note in the place of the new one. -/
theorem retry_replaces_newer : ¬ Machine.Each step NeverUndone fresh.world overtakenNote := by
  intro h
  have hlast : Machine.Each step NeverUndone fresh.world
      ((refusedNote ++ [.enqueue (noteEdit "new") none 4, .retry "note"]) ++ [.putBack 0 5]) := h
  have hkept := (hlast.last rfl rfl).kept 0 5 _ rfl rfl
    { noteEdit "new" with createdAt := 4, serial := 1 } List.mem_cons_self rfl rfl (by decide)
  have hserial := congrArg QueuedMutation.serial (List.mem_singleton.mp hkept)
  cases hserial

end FestivalPlanner.RetryFailed
