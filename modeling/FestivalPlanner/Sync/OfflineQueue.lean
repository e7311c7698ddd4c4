import Mathlib.Data.List.Sort
import FestivalPlanner.Lib.Js
import FestivalPlanner.Lib.Keyed
import FestivalPlanner.Lib.Machine

/-!
# The offline mutation queue

The queue of `packages/shared/src/services/offlineQueue.ts`: mutations made
without a connection are persisted, coalesced by `clientId`, and replayed
oldest first by `drainQueue`.

The storage cell `festie-offline-queue`, the two fields of the UI store the
queue writes (`failedSync`, `pendingSync`) and the program counter of the one
running drain make up a `State`.  Every section the source runs under
`withQueueLock` is one step, since the mutex serialises them; everything between
two sections (a reply in flight, the gap before `recordFailed`) is a state in
which other sections may run.

* `readQueue`, `writeQueue`, `enqueueMutation`, `recordFailed` — the operations;
* `drainQueue` as a machine: `start`, `send`, `reply`, `settle`, `record`,
  `rewrite`, `finish`;
* `Event` — the history, kept for the statements only.

Storage is taken to be reliable: `getItem` returns what the last `setItem`
stored.
-/

namespace FestivalPlanner.OfflineQueue

open Js List Keyed Function

/-! ## Mutations -/

/-- `QueuedMethod`. -/
inductive QueuedMethod where
  | post | put | patch | delete
  deriving DecidableEq, Repr

/-- The verb as the source spells it. -/
def QueuedMethod.name : QueuedMethod → String
  | post => "POST"
  | put => "PUT"
  | patch => "PATCH"
  | delete => "DELETE"

/-- `Omit<QueuedMutation, 'createdAt'>`: what a caller hands to `enqueueMutation`. -/
structure Mutation where
  clientId : String
  url : String
  method : QueuedMethod
  body : Option Json := none
  label : Option String := none
  retries : Option ℕ := none

/-- `QueuedMutation`.  `serial` is not in the source: it numbers the accepted
mutations, so that a statement can follow one of them. -/
structure QueuedMutation extends Mutation where
  createdAt : ℤ
  serial : ℕ

/-- `FailedSyncItem` of the UI store. -/
structure FailedSyncItem where
  clientId : String
  label : String
  method : String
  url : String
  body : Option Json
  error : String
  «at» : ℤ

/-- `MAX_QUEUE_AGE_MS`: 24 hours. -/
def maxQueueAgeMs : ℤ := 24 * 60 * 60 * 1000

/-- `MAX_RETRIES`. -/
def maxRetries : ℕ := 5

/-- The error of an entry pruned by `readQueue`. -/
def expiredError : String := "Expired before it could sync (offline more than 24h)"

/-- The age test of `readQueue`. -/
def isFresh (now : ℤ) (m : QueuedMutation) : Bool := decide (now - m.createdAt < maxQueueAgeMs)

/-- The queue is addressed by `clientId`. -/
abbrev clientKey (m : QueuedMutation) : String := m.clientId

/-- So is `uiStore.failedSync`. -/
abbrev failedKey (f : FailedSyncItem) : String := f.clientId

/-! ## The state -/

/-- What a replay ends with: the server's response, or an error that carries the
status it may have. -/
inductive Reply where
  | ok (serverResponse : Json)
  | error (status : Option ℕ) (message : String)

/-- Where the one running `drainQueue` is. -/
inductive Pc where
  /-- No drain runs: `_draining` is false. -/
  | idle
  /-- At the head of the loop, with the rest of the snapshot to go. -/
  | looping (rest : List QueuedMutation)
  /-- `await replay(m)`. -/
  | inFlight (m : QueuedMutation) (rest : List QueuedMutation)
  /-- The reply is there; the section that settles it waits for the lock. -/
  | settling (m : QueuedMutation) (r : Reply) (rest : List QueuedMutation)
  /-- The entry is removed; `recordFailed(m, …)` has not run yet. -/
  | recording (m : QueuedMutation) (error : String) (rest : List QueuedMutation)
  /-- The real id is known; the section that rewrites the queue waits for the lock. -/
  | rewriting (m : QueuedMutation) (realId : String) (rest : List QueuedMutation)

/-- The entries a running drain still holds. -/
def Pc.entries : Pc → List QueuedMutation
  | idle => []
  | looping rest => rest
  | inFlight m rest => m :: rest
  | settling m _ rest => m :: rest
  | recording m _ rest => m :: rest
  | rewriting m _ rest => m :: rest

/-- The entries of the snapshot that are still to be replayed. -/
def Pc.rest : Pc → List QueuedMutation
  | idle => []
  | looping rest | inFlight _ rest | settling _ _ rest | recording _ _ rest
  | rewriting _ _ rest => rest

/-- Does no drain run? -/
def Pc.isIdle : Pc → Bool
  | idle => true
  | looping _ | inFlight _ _ | settling _ _ _ | recording _ _ _ | rewriting _ _ _ => false

/-- The history of a run. -/
inductive Event where
  /-- `enqueueMutation` stored this entry. -/
  | accepted (e : QueuedMutation)
  /-- `replay(m)` sent this entry. -/
  | sent (m : QueuedMutation)
  /-- The replay of this entry succeeded. -/
  | delivered (m : QueuedMutation)
  /-- `recordFailed` ran on this entry. -/
  | recorded (m : QueuedMutation)
  /-- The queue was rewritten from the temporary id to the real one. -/
  | learned (tempId realId : String)

/-- The entry of an `accepted` event. -/
@[grind =] def Event.accepted? : Event → Option QueuedMutation
  | accepted e => some e
  | _ => none

/-- The entry of a `sent` event. -/
def Event.sent? : Event → Option QueuedMutation
  | sent m => some m
  | _ => none

/-- The entry of a `delivered` event. -/
@[grind =] def Event.delivered? : Event → Option QueuedMutation
  | delivered m => some m
  | _ => none

/-- The entry of a `recorded` event. -/
@[grind =] def Event.recorded? : Event → Option QueuedMutation
  | recorded m => some m
  | _ => none

/-- The storage cell, the UI store's two fields, the drain and the history. -/
structure State where
  queue : List QueuedMutation
  failedSync : List FailedSyncItem
  pendingSync : ℕ
  /-- Is a `_createReconciler` registered? -/
  reconciler : Bool
  pc : Pc
  log : List Event
  nextSerial : ℕ

namespace State

/-- Append to the history. -/
def note (s : State) (ev : Event) : State := { s with log := s.log ++ [ev] }

/-- The mutations accepted so far, in order. -/
@[grind =] def accepted (s : State) : List QueuedMutation := s.log.filterMap Event.accepted?

/-- The replays started so far, in order. -/
@[grind =] def sent (s : State) : List QueuedMutation := s.log.filterMap Event.sent?

/-- The replays that succeeded so far, in order. -/
@[grind =] def delivered (s : State) : List QueuedMutation := s.log.filterMap Event.delivered?

/-- The entries surfaced as failed so far, in order. -/
@[grind =] def recorded (s : State) : List QueuedMutation := s.log.filterMap Event.recorded?

end State

/-! ## The operations -/

/-- `writeQueue`: store the queue and mirror its length into the UI store. -/
@[grind =] def writeQueue (queue : List QueuedMutation) (s : State) : State :=
  { s with queue := queue, pendingSync := queue.length }

/-- The item `recordFailed` builds. -/
def failedItem (m : QueuedMutation) (error : String) (now : ℤ) : FailedSyncItem where
  clientId := m.clientId
  label := m.label.getD (m.method.name ++ " " ++ m.url)
  method := m.method.name
  url := m.url
  body := m.body
  error := error
  «at» := now

/-- `recordFailed`, up to the asynchronous persistence it starts: `addFailedSync`
moves the item of the `clientId` to the end of the list. -/
@[grind =] def recordFailed (m : QueuedMutation) (error : String) (now : ℤ) (s : State) : State :=
  { s with
    failedSync := putLast failedKey (failedItem m error now) s.failedSync
    log := s.log ++ [.recorded m] }

/-- The loop of `readQueue` over the stale entries. -/
def recordStale (now : ℤ) (stale : List QueuedMutation) (s : State) : State :=
  stale.foldl (fun s m => recordFailed m expiredError now s) s

/-- `readQueue`: drop the stale entries, each surfaced as failed, and write the
rest back when any was dropped.  The list it returns is the queue it leaves. -/
@[grind =] def readQueue (now : ℤ) (s : State) : State :=
  let fresh := s.queue.filter (isFresh now)
  let stale := s.queue.filter (fun m => !isFresh now m)
  if stale = [] then s else writeQueue fresh (recordStale now stale s)

/-- `enqueueMutation`: upsert by `clientId`, stamped with the clock unless the
caller gave a time. -/
@[grind =] def enqueueMutation (m : Mutation) (createdAt : Option ℤ) (now : ℤ) (s : State) : State :=
  let s := readQueue now s
  let entry : QueuedMutation :=
    { m with createdAt := createdAt.getD now, serial := s.nextSerial }
  let s := writeQueue (upsert clientKey entry s.queue) s
  { s with log := s.log ++ [.accepted entry], nextSerial := s.nextSerial + 1 }

/-- The section that drops an entry by `clientId`. -/
@[grind =] def removeEntry (clientId : String) (now : ℤ) (s : State) : State :=
  let s := readQueue now s
  writeQueue (erase clientKey clientId s.queue) s

/-- The section that stores a new retry count. -/
@[grind =] def bumpRetries (clientId : String) (retries : ℕ) (now : ℤ) (s : State) : State :=
  let s := readQueue now s
  if lookup clientKey clientId s.queue = none then s
  else
    writeQueue (modify clientKey clientId (fun q => { q with retries := some retries })
      s.queue) s

/-- The rewriting of one url: the first occurrence of the temporary id. -/
def substitute (tempId realId url : String) : String :=
  if includes tempId url then replaceFirst url tempId realId else url

/-- The section that rewrites the urls of the dependents. -/
@[grind =] def rewriteUrls (tempId realId : String) (now : ℤ) (s : State) : State :=
  let s := readQueue now s
  if s.queue.any (fun q => includes tempId q.url) then
    writeQueue (s.queue.map (fun q => { q with url := substitute tempId realId q.url })) s
  else s

/-- `isPermanentFailure`: a status from 400 to 499. -/
def isPermanentFailure (status : Option ℕ) : Bool :=
  match status with
  | some n => decide (400 ≤ n) && decide (n < 500)
  | none => false

/-- `shortError`: the message, else the status, else a fixed text. -/
def shortError (status : Option ℕ) (message : String) : String :=
  if message ≠ "" then message
  else
    match status with
    | some 0 => "Request failed"
    | some n => "Request failed (" ++ toString n ++ ")"
    | none => "Request failed"

/-- `extractRealId`: the `id` of the response, or of the first of its values that
has one. -/
def extractRealId (serverResponse : Json) : Option String :=
  match serverResponse.stringField "id" with
  | some id => some id
  | none => serverResponse.values.findSome? (Json.stringField "id")

/-- The real id a replayed create teaches the drain: non-empty and different from
the temporary one, learnt only with a reconciler registered. -/
def realIdOf (reconciler : Bool) (m : QueuedMutation) (serverResponse : Json) : Option String :=
  if m.method = .post ∧ reconciler = true then
    match extractRealId serverResponse with
    | some id => if id ≠ "" ∧ id ≠ m.clientId then some id else none
    | none => none
  else none

/-- Does this failure end the life of the entry in the queue: a permanent failure,
or the last retry? -/
def givesUp (m : QueuedMutation) (status : Option ℕ) : Bool :=
  isPermanentFailure status || decide (maxRetries ≤ m.retries.getD 0 + 1)

/-- The snapshot a drain iterates: the queue sorted by `createdAt`, stably. -/
def sortQueue (queue : List QueuedMutation) : List QueuedMutation :=
  queue.insertionSort (fun a b => a.createdAt ≤ b.createdAt)

/-! ## The machine -/

/-- What can happen next: a call into the queue, or the drain going on. -/
inductive Action where
  /-- `enqueueMutation`. -/
  | enqueue (m : Mutation) (createdAt : Option ℤ) (now : ℤ)
  /-- `drainQueue` is called. -/
  | start (offline : Bool) (now : ℤ)
  /-- The drain replays the next entry of its snapshot. -/
  | send
  /-- The replay in flight ends; `offline` is what `isOffline()` says then. -/
  | reply (r : Reply) (offline : Bool)
  /-- The section that settles the reply gets the lock. -/
  | settle (now : ℤ)
  /-- `recordFailed` runs on the entry just removed. -/
  | record (now : ℤ)
  /-- The section that rewrites the queue gets the lock. -/
  | rewrite (now : ℤ)
  /-- The loop is over. -/
  | finish

/-- The section after a reply: remove the entry, or keep it with one more retry. -/
def settleReply (m : QueuedMutation) (r : Reply) (rest : List QueuedMutation) (now : ℤ)
    (s : State) : State :=
  match r with
  | .ok serverResponse =>
      let s := removeEntry m.clientId now s
      match realIdOf s.reconciler m serverResponse with
      | some realId => { s with pc := .rewriting m realId rest }
      | none => { s with pc := .looping rest }
  | .error status message =>
      if givesUp m status then
        { removeEntry m.clientId now s with pc := .recording m (shortError status message) rest }
      else
        { bumpRetries m.clientId (m.retries.getD 0 + 1) now s with pc := .looping rest }

/-- One step of the queue: `none` when the drain is not where the action expects it. -/
@[grind =] def step (s : State) : Action → Option State
  | .enqueue m createdAt now => some (enqueueMutation m createdAt now s)
  | .start offline now =>
      match s.pc with
      | .idle =>
          if offline then some s
          else
            let s := readQueue now s
            some { s with pc := .looping (sortQueue s.queue) }
      | _ => some s
  | .send =>
      match s.pc with
      | .looping (m :: rest) => some { s.note (.sent m) with pc := .inFlight m rest }
      | _ => none
  | .reply r offline =>
      match s.pc with
      | .inFlight m rest =>
          match r with
          | .ok _ => some { s.note (.delivered m) with pc := .settling m r rest }
          | .error _ _ =>
              if offline then some { s with pc := .idle }
              else some { s with pc := .settling m r rest }
      | _ => none
  | .settle now =>
      match s.pc with
      | .settling m r rest => some (settleReply m r rest now s)
      | _ => none
  | .record now =>
      match s.pc with
      | .recording m error rest => some { recordFailed m error now s with pc := .looping rest }
      | _ => none
  | .rewrite now =>
      match s.pc with
      | .rewriting m realId rest =>
          let s := (rewriteUrls m.clientId realId now s).note (.learned m.clientId realId)
          some { s with pc := .looping rest }
      | _ => none
  | .finish =>
      match s.pc with
      | .looping [] => some { s with pc := .idle }
      | _ => none

/-! ## Stored queues -/

/-- A queue as `enqueueMutation` leaves it in storage: one entry a `clientId`. -/
structure StoredQueue where
  entries : List (Mutation × ℤ)
  uniqueIds : (entries.map (fun e => e.1.clientId)).Nodup

/-- Number the stored entries. -/
@[grind =] def number (n : ℕ) : List (Mutation × ℤ) → List QueuedMutation
  | [] => []
  | (m, createdAt) :: rest => { m with createdAt := createdAt, serial := n } :: number (n + 1) rest

/-- The state a run starts from: no drain running, the stored entries accepted in
the past, and whatever the failed list held. -/
@[grind =] def initial (q : StoredQueue) (failedSync : List FailedSyncItem) (reconciler : Bool) : State where
  queue := number 0 q.entries
  failedSync := failedSync
  pendingSync := q.entries.length
  reconciler := reconciler
  pc := .idle
  log := (number 0 q.entries).map .accepted
  nextSerial := q.entries.length

/-! ## No drain runs -/

theorem Pc.isIdle_iff {pc : Pc} : pc.isIdle = true ↔ pc = .idle := by
  cases pc <;> simp [Pc.isIdle]

/-! ## The history by kind -/

@[simp] theorem accepted?_recorded (m : QueuedMutation) :
    Event.accepted? (.recorded m) = none := rfl

@[simp] theorem sent?_recorded (m : QueuedMutation) : Event.sent? (.recorded m) = none := rfl

@[simp] theorem delivered?_recorded (m : QueuedMutation) :
    Event.delivered? (.recorded m) = none := rfl

@[simp] theorem recorded?_recorded (m : QueuedMutation) :
    Event.recorded? (.recorded m) = some m := rfl

/-! ## What the operations do

One lemma for each field an operation touches; the other fields are unchanged by
`rfl`. -/

section Spec

variable (m : QueuedMutation) (error clientId tempId realId : String) (retries : ℕ) (now : ℤ)
  (s : State)

@[simp] theorem note_log (ev : Event) : (s.note ev).log = s.log ++ [ev] := rfl

@[simp] theorem note_queue (ev : Event) : (s.note ev).queue = s.queue := rfl

@[simp] theorem note_failedSync (ev : Event) : (s.note ev).failedSync = s.failedSync := rfl

@[simp] theorem note_nextSerial (ev : Event) : (s.note ev).nextSerial = s.nextSerial := rfl

/-- The stale entries, one `recordFailed` each, leave everything but the failed
list and the history alone. -/
theorem recordStale_eq (stale : List QueuedMutation) :
    recordStale now stale s =
      { s with
        failedSync := stale.foldl
          (fun l m => putLast failedKey (failedItem m expiredError now) l) s.failedSync
        log := s.log ++ stale.map .recorded } := by
  induction stale generalizing s with
  | nil => simp [recordStale]
  | cons m stale ih =>
    rw [recordStale, foldl_cons, ← recordStale, ih]
    simp [recordFailed]

@[simp] theorem readQueue_queue : (readQueue now s).queue = s.queue.filter (isFresh now) := by
  simp only [readQueue]
  split
  · rename_i h
    rw [eq_comm, filter_eq_self]
    intro q hq
    by_contra hf
    have : q ∈ s.queue.filter (fun m => !isFresh now m) := by simpa [hq] using hf
    rw [h] at this
    cases this
  · rfl

@[simp] theorem readQueue_log : (readQueue now s).log =
    s.log ++ (s.queue.filter (fun m => !isFresh now m)).map .recorded := by
  simp only [readQueue]
  split
  · rename_i h
    simp [h]
  · simp [writeQueue, recordStale_eq]

theorem readQueue_failedSync : (readQueue now s).failedSync =
    (s.queue.filter (fun m => !isFresh now m)).foldl
      (fun l m => putLast failedKey (failedItem m expiredError now) l) s.failedSync := by
  simp only [readQueue]
  split
  · rename_i h
    simp [h]
  · simp [writeQueue, recordStale_eq]

@[simp] theorem readQueue_pc : (readQueue now s).pc = s.pc := by
  simp only [readQueue]
  split
  · rfl
  · simp [writeQueue, recordStale_eq]

@[simp] theorem readQueue_nextSerial : (readQueue now s).nextSerial = s.nextSerial := by
  simp only [readQueue]
  split
  · rfl
  · simp [writeQueue, recordStale_eq]

theorem readQueue_reconciler : (readQueue now s).reconciler = s.reconciler := by
  simp only [readQueue]
  split
  · rfl
  · simp [writeQueue, recordStale_eq]

@[simp] theorem removeEntry_queue : (removeEntry clientId now s).queue =
    erase clientKey clientId (s.queue.filter (isFresh now)) := by
  simp [removeEntry, writeQueue]

@[simp] theorem removeEntry_log :
    (removeEntry clientId now s).log = (readQueue now s).log := rfl

@[simp] theorem removeEntry_failedSync :
    (removeEntry clientId now s).failedSync = (readQueue now s).failedSync := rfl

@[simp] theorem removeEntry_nextSerial :
    (removeEntry clientId now s).nextSerial = s.nextSerial := by
  simp [removeEntry, writeQueue]

theorem removeEntry_reconciler : (removeEntry clientId now s).reconciler = s.reconciler := by
  simp [removeEntry, writeQueue, readQueue_reconciler]

/-- The entry of the `clientId`, when there is one, gets the new retry count. -/
@[simp] theorem bumpRetries_queue : (bumpRetries clientId retries now s).queue =
    modify clientKey clientId (fun q => { q with retries := some retries })
      (s.queue.filter (isFresh now)) := by
  simp only [bumpRetries]
  split
  · rename_i h
    rw [readQueue_queue] at h ⊢
    exact (modify_of_lookup_eq_none h).symm
  · simp [writeQueue]

/-- Every fresh entry survives, counted or not. -/
theorem mem_bumpRetries_of_mem {q : QueuedMutation} (h : q ∈ s.queue.filter (isFresh now)) :
    q ∈ (bumpRetries clientId retries now s).queue ∨
      { q with retries := some retries } ∈ (bumpRetries clientId retries now s).queue := by
  rw [bumpRetries_queue]
  exact mem_modify_of_mem h

@[simp] theorem bumpRetries_log :
    (bumpRetries clientId retries now s).log = (readQueue now s).log := by
  simp only [bumpRetries]
  split <;> rfl

@[simp] theorem bumpRetries_failedSync :
    (bumpRetries clientId retries now s).failedSync = (readQueue now s).failedSync := by
  simp only [bumpRetries]
  split <;> rfl

@[simp] theorem bumpRetries_nextSerial :
    (bumpRetries clientId retries now s).nextSerial = s.nextSerial := by
  simp only [bumpRetries]
  split <;> simp [writeQueue]

/-- Every live url is rewritten; when none mentions the temporary id the rewriting
changes nothing. -/
@[simp] theorem rewriteUrls_queue : (rewriteUrls tempId realId now s).queue =
    (s.queue.filter (isFresh now)).map
      (fun q => { q with url := substitute tempId realId q.url }) := by
  simp only [rewriteUrls]
  split
  · simp [writeQueue]
  · rename_i h
    rw [readQueue_queue] at h ⊢
    have hnone : ∀ q ∈ s.queue.filter (isFresh now), includes tempId q.url = false := by
      simpa using h
    refine (map_id _).symm.trans (map_congr_left fun q hq => ?_)
    simp [substitute, hnone q hq]

@[simp] theorem rewriteUrls_log :
    (rewriteUrls tempId realId now s).log = (readQueue now s).log := by
  simp only [rewriteUrls]
  split <;> rfl

@[simp] theorem rewriteUrls_failedSync :
    (rewriteUrls tempId realId now s).failedSync = (readQueue now s).failedSync := by
  simp only [rewriteUrls]
  split <;> rfl

@[simp] theorem rewriteUrls_nextSerial :
    (rewriteUrls tempId realId now s).nextSerial = s.nextSerial := by
  simp only [rewriteUrls]
  split <;> simp [writeQueue]

/-- `readQueue` accepts nothing. -/
@[simp] theorem readQueue_accepted : (readQueue now s).accepted = s.accepted := by
  simp [State.accepted, filterMap_map, comp_def]

/-- `readQueue` sends nothing. -/
@[simp] theorem readQueue_sent : (readQueue now s).sent = s.sent := by
  simp [State.sent, filterMap_map, comp_def]

/-- `readQueue` delivers nothing. -/
@[simp] theorem readQueue_delivered : (readQueue now s).delivered = s.delivered := by
  simp [State.delivered, filterMap_map, comp_def]

/-- `readQueue` surfaces the stale entries. -/
@[simp] theorem readQueue_recorded : (readQueue now s).recorded =
    s.recorded ++ s.queue.filter (fun m => !isFresh now m) := by
  simp [State.recorded, filterMap_map, comp_def]

@[simp] theorem removeEntry_accepted :
    (removeEntry clientId now s).accepted = s.accepted := readQueue_accepted now s

@[simp] theorem removeEntry_delivered :
    (removeEntry clientId now s).delivered = s.delivered := readQueue_delivered now s

@[simp] theorem bumpRetries_accepted :
    (bumpRetries clientId retries now s).accepted = s.accepted := by
  rw [State.accepted, bumpRetries_log]
  exact readQueue_accepted now s

@[simp] theorem bumpRetries_delivered :
    (bumpRetries clientId retries now s).delivered = s.delivered := by
  rw [State.delivered, bumpRetries_log]
  exact readQueue_delivered now s

@[simp] theorem rewriteUrls_accepted :
    (rewriteUrls tempId realId now s).accepted = s.accepted := by
  rw [State.accepted, rewriteUrls_log]
  exact readQueue_accepted now s

@[simp] theorem rewriteUrls_delivered :
    (rewriteUrls tempId realId now s).delivered = s.delivered := by
  rw [State.delivered, rewriteUrls_log]
  exact readQueue_delivered now s

@[simp] theorem enqueueMutation_pc (m : Mutation) (createdAt : Option ℤ) :
    (enqueueMutation m createdAt now s).pc = s.pc := by
  simp [enqueueMutation, writeQueue]

end Spec

/-- The entry `enqueueMutation` stores. -/
def newEntry (m : Mutation) (createdAt : Option ℤ) (now : ℤ) (s : State) : QueuedMutation :=
  { m with createdAt := createdAt.getD now, serial := s.nextSerial }

theorem enqueueMutation_queue (m : Mutation) (createdAt : Option ℤ) (now : ℤ) (s : State) :
    (enqueueMutation m createdAt now s).queue =
      upsert clientKey (newEntry m createdAt now s) (s.queue.filter (isFresh now)) := by
  simp [enqueueMutation, newEntry, writeQueue]

theorem enqueueMutation_accepted (m : Mutation) (createdAt : Option ℤ) (now : ℤ) (s : State) :
    (enqueueMutation m createdAt now s).accepted = s.accepted ++ [newEntry m createdAt now s] := by
  have h : (enqueueMutation m createdAt now s).accepted =
      (readQueue now s).accepted ++ [newEntry m createdAt now s] := by
    simp [State.accepted, enqueueMutation, newEntry, writeQueue, Event.accepted?]
  rw [h, readQueue_accepted]

theorem enqueueMutation_delivered (m : Mutation) (createdAt : Option ℤ) (now : ℤ) (s : State) :
    (enqueueMutation m createdAt now s).delivered = s.delivered := by
  have h : (enqueueMutation m createdAt now s).delivered = (readQueue now s).delivered := by
    simp [State.delivered, enqueueMutation, writeQueue, Event.delivered?]
  rw [h, readQueue_delivered]

theorem enqueueMutation_failedSync (m : Mutation) (createdAt : Option ℤ) (now : ℤ) (s : State) :
    (enqueueMutation m createdAt now s).failedSync = (readQueue now s).failedSync := rfl

theorem enqueueMutation_nextSerial (m : Mutation) (createdAt : Option ℤ) (now : ℤ) (s : State) :
    (enqueueMutation m createdAt now s).nextSerial = s.nextSerial + 1 := by
  simp [enqueueMutation, writeQueue]

theorem mem_sortQueue {m : QueuedMutation} {l : List QueuedMutation} :
    m ∈ sortQueue l ↔ m ∈ l :=
  (perm_insertionSort _ l).mem_iff

/-! ## What a step can do -/

/-- The ways a reply is settled. -/
inductive Settles (m : QueuedMutation) (rest : List QueuedMutation) (now : ℤ) (s : State) :
    Reply → State → Prop where
  /-- Delivered, and a real id to rewrite to. -/
  | learns (v : Json) (realId : String) (hid : realIdOf s.reconciler m v = some realId) :
      Settles m rest now s (.ok v)
        { removeEntry m.clientId now s with pc := .rewriting m realId rest }
  /-- Delivered. -/
  | removes (v : Json) (hid : realIdOf s.reconciler m v = none) :
      Settles m rest now s (.ok v) { removeEntry m.clientId now s with pc := .looping rest }
  /-- Given up. -/
  | fails (status : Option ℕ) (message : String) (h : givesUp m status = true) :
      Settles m rest now s (.error status message)
        { removeEntry m.clientId now s with pc := .recording m (shortError status message) rest }
  /-- Left in the queue for a later drain. -/
  | keeps (status : Option ℕ) (message : String) (h : givesUp m status = false) :
      Settles m rest now s (.error status message)
        { bumpRetries m.clientId (m.retries.getD 0 + 1) now s with pc := .looping rest }

theorem settleReply_settles (m : QueuedMutation) (r : Reply) (rest : List QueuedMutation)
    (now : ℤ) (s : State) : Settles m rest now s r (settleReply m r rest now s) := by
  cases r with
  | ok v =>
    simp only [settleReply]
    split
    · rename_i realId hid
      rw [removeEntry_reconciler] at hid
      exact .learns v realId hid
    · rename_i hid
      rw [removeEntry_reconciler] at hid
      exact .removes v hid
  | error status message =>
    simp only [settleReply]
    split
    · rename_i h
      exact .fails status message h
    · rename_i h
      exact .keeps status message (by simpa using h)

/-- The steps of the queue, as a relation. -/
inductive Step (s : State) : Action → State → Prop where
  | enqueue (m : Mutation) (createdAt : Option ℤ) (now : ℤ) :
      Step s (.enqueue m createdAt now) (enqueueMutation m createdAt now s)
  /-- `drainQueue` returns at once: it runs already, or the device is offline. -/
  | skip (offline : Bool) (now : ℤ) : Step s (.start offline now) s
  | start (now : ℤ) (hpc : s.pc = .idle) :
      Step s (.start false now)
        { readQueue now s with pc := .looping (sortQueue (readQueue now s).queue) }
  | send (m : QueuedMutation) (rest : List QueuedMutation) (hpc : s.pc = .looping (m :: rest)) :
      Step s .send { s.note (.sent m) with pc := .inFlight m rest }
  | succeed (m : QueuedMutation) (rest : List QueuedMutation) (v : Json) (offline : Bool)
      (hpc : s.pc = .inFlight m rest) :
      Step s (.reply (.ok v) offline)
        { s.note (.delivered m) with pc := .settling m (.ok v) rest }
  /-- Offline again: the drain stops. -/
  | stop (m : QueuedMutation) (rest : List QueuedMutation) (status : Option ℕ)
      (message : String) (hpc : s.pc = .inFlight m rest) :
      Step s (.reply (.error status message) true) { s with pc := .idle }
  | fail (m : QueuedMutation) (rest : List QueuedMutation) (status : Option ℕ)
      (message : String) (hpc : s.pc = .inFlight m rest) :
      Step s (.reply (.error status message) false)
        { s with pc := .settling m (.error status message) rest }
  | settle (m : QueuedMutation) (r : Reply) (rest : List QueuedMutation) (now : ℤ) (t : State)
      (hpc : s.pc = .settling m r rest) (hset : Settles m rest now s r t) : Step s (.settle now) t
  | record (m : QueuedMutation) (error : String) (rest : List QueuedMutation) (now : ℤ)
      (hpc : s.pc = .recording m error rest) :
      Step s (.record now) { recordFailed m error now s with pc := .looping rest }
  | rewrite (m : QueuedMutation) (realId : String) (rest : List QueuedMutation) (now : ℤ)
      (hpc : s.pc = .rewriting m realId rest) :
      Step s (.rewrite now)
        { (rewriteUrls m.clientId realId now s).note (.learned m.clientId realId) with
          pc := .looping rest }
  | finish (hpc : s.pc = .looping []) : Step s .finish { s with pc := .idle }

/-- Every step of the machine is one of these. -/
theorem Step.of_step {s t : State} {a : Action} (h : step s a = some t) : Step s a t := by
  cases a with
  | enqueue m createdAt now =>
    cases h
    exact .enqueue m createdAt now
  | start offline now =>
    simp only [step] at h
    split at h
    · rename_i hpc
      split at h
      · cases h
        exact .skip offline now
      · rename_i hoff
        cases h
        rw [Bool.not_eq_true] at hoff
        exact hoff ▸ .start now hpc
    · cases h
      exact .skip offline now
  | send =>
    simp only [step] at h
    split at h
    · rename_i m rest hpc
      cases h
      exact .send m rest hpc
    · cases h
  | reply r offline =>
    simp only [step] at h
    split at h
    · rename_i m rest hpc
      split at h
      · rename_i v
        cases h
        exact .succeed m rest v offline hpc
      · rename_i status message
        cases offline with
        | true =>
          cases h
          exact .stop m rest status message hpc
        | false =>
          cases h
          exact .fail m rest status message hpc
    · cases h
  | settle now =>
    simp only [step] at h
    split at h
    · rename_i m r rest hpc
      cases h
      exact .settle m r rest now _ hpc (settleReply_settles m r rest now s)
    · cases h
  | record now =>
    simp only [step] at h
    split at h
    · rename_i m error rest hpc
      cases h
      exact .record m error rest now hpc
    · cases h
  | rewrite now =>
    simp only [step] at h
    split at h
    · rename_i m realId rest hpc
      cases h
      exact .rewrite m realId rest now hpc
    · cases h
  | finish =>
    simp only [step] at h
    split at h
    · rename_i hpc
      cases h
      exact .finish hpc
    · cases h

/-! ## Numbered entries -/

variable {n : ℕ} {l : List (Mutation × ℤ)} {e : QueuedMutation}

theorem le_serial_of_mem_number (h : e ∈ number n l) : n ≤ e.serial := by
  induction l generalizing n with
  | nil => cases h
  | cons p l ih =>
    rcases mem_cons.mp h with rfl | h
    · exact le_refl n
    · exact (Nat.le_succ n).trans (ih h)

theorem serial_lt_of_mem_number (h : e ∈ number n l) : e.serial < n + l.length := by
  induction l generalizing n with
  | nil => cases h
  | cons p l ih =>
    rw [length_cons]
    rcases mem_cons.mp h with rfl | h
    · change n < n + (l.length + 1)
      omega
    · have := ih h
      omega

theorem eq_of_serial_eq_number {e' : QueuedMutation} (h : e ∈ number n l) (h' : e' ∈ number n l)
    (heq : e.serial = e'.serial) : e = e' := by
  induction l generalizing n with
  | nil => cases h
  | cons p l ih =>
    rcases mem_cons.mp h with rfl | h <;> rcases mem_cons.mp h' with rfl | h'
    · rfl
    · have : n + 1 ≤ e'.serial := le_serial_of_mem_number h'
      change n = e'.serial at heq
      omega
    · have : n + 1 ≤ e.serial := le_serial_of_mem_number h
      change e.serial = n at heq
      omega
    · exact ih h h'

theorem map_clientKey_number (n : ℕ) (l : List (Mutation × ℤ)) :
    (number n l).map clientKey = l.map (fun e => e.1.clientId) := by
  induction l generalizing n with
  | nil => rfl
  | cons p l ih => simp [number, ih]

theorem uniqueKeys_number (n : ℕ) (q : StoredQueue) :
    UniqueKeys clientKey (number n q.entries) := by
  rw [UniqueKeys, map_clientKey_number]
  exact q.uniqueIds

end FestivalPlanner.OfflineQueue
