import Mathlib.Data.List.Sort
import FestivalPlanner.Lib.Js

/-!
# The offline queue of the web app

The queue of `packages/web/src/hooks/useOfflineQueue.ts`.  It lives in IndexedDB, and in
`localStorage` whenever an access to IndexedDB fails.

* `Device` — which accesses to storage succeed: any pattern;
* `Queue` — the two stores, and `failedSync` of the UI store;
* `queueMutation`, `getPendingCount`, `getAll`, `settle` — the operations.

An IndexedDB transaction is one access: an aborted one leaves nothing.
-/

namespace FestivalPlanner.WebQueue

open Js (Json)

/-! ## Mutations -/

inductive Kind where
  | api | socket
  deriving DecidableEq

inductive Status where
  | pending | failed | completed
  deriving DecidableEq

/-- What a caller hands to `queueMutation`. -/
structure Mutation where
  clientId : String
  type : Kind
  url : Option String := none
  method : Option String := none
  body : Option Json := none
  event : Option String := none
  data : Option Json := none

/-- `QueuedMutation`.  `serial` is not in the source: it numbers the calls of `queueMutation`,
so that a statement can follow one of them. -/
structure Entry extends Mutation where
  /-- The key in IndexedDB; entries of `localStorage` have none. -/
  id : Option ℕ
  status : Status
  retries : ℕ
  createdAt : ℤ
  serial : ℕ

/-- `FailedSyncItem` of the UI store. -/
structure FailedSyncItem where
  clientId : String
  label : String
  method : String
  url : String
  body : Option Json
  error : String
  «at» : ℤ
  serial : ℕ

def maxRetries : ℕ := 5

/-- 24 hours -/
def maxQueueAgeMs : ℤ := 24 * 60 * 60 * 1000

def Entry.isPending (m : Entry) : Bool := m.status = .pending

def Entry.isFresh (now : ℤ) (m : Entry) : Bool := now - m.createdAt < maxQueueAgeMs

/-- The nouns of `deriveFailedLabel`. -/
def nouns : List (String × String) :=
  [("polls", "poll"), ("meeting-points", "meeting point"), ("expenses", "expense"),
    ("members", "member"), ("picks", "pick"), ("notes", "note"), ("crews", "crew"),
    ("vote", "vote"), ("settle", "settlement"), ("home-base", "home base")]

def deriveFailedLabel (method url : Option String) : String :=
  let m := ((method.filter (· ≠ "")).getD "POST").toUpper
  let path := ((Js.split '?' (url.getD "").toList).head?).getD []
  let verb := if m = "POST" then "Add" else if m = "PUT" ∨ m = "PATCH" then "Update"
    else if m = "DELETE" then "Remove" else m
  let segments := (Js.split '/' path).reverse.map String.ofList
  match segments.findSome? (fun s => (nouns.find? (fun n => n.1 = s)).map Prod.snd) with
  | some noun => verb ++ " " ++ noun
  | none => m ++ " " ++ (if path = [] then "(unknown)" else String.ofList path)

/-! ## Storage -/

/-- Is the database open, and which of the next accesses to storage succeed?  The rest do. -/
structure Device where
  opened : Bool
  io : List Bool

def Device.access (d : Device) : Bool × Device :=
  match d.io with
  | [] => (true, d)
  | ok :: io => (ok, { d with io := io })

/-- `await openDB()` -/
def Device.openDB (d : Device) : Bool × Device :=
  if d.opened then (true, d)
  else (d.access.1, { d.access.2 with opened := d.access.1 })

/-- `openTx` and the requests of the transaction. -/
def Device.tx (d : Device) : Bool × Device := if d.opened then d.access else (false, d)

/-- `await openDB()`, then a transaction. -/
def Device.openTx (d : Device) : Bool × Device :=
  if d.openDB.1 then d.openDB.2.tx else (false, d.openDB.2)

structure Queue where
  /-- The object store, in the order of its keys. -/
  idb : List Entry
  /-- The key generator. -/
  nextId : ℕ
  /-- `festie-offline-queue` -/
  localQueue : List Entry
  failedSync : List FailedSyncItem
  device : Device
  /-- The number of calls of `queueMutation`. -/
  serial : ℕ
  /-- The calls whose entry or report gave way to that of a later call. -/
  replaced : List ℕ

def initial : Queue :=
  { idb := [], nextId := 1, localQueue := [], failedSync := [],
    device := { opened := false, io := [] }, serial := 0, replaced := [] }

/-- The queue, with the accesses to storage that will succeed. -/
def Queue.withIo (q : Queue) (io : List Bool) : Queue :=
  { q with device := { q.device with io := io } }

/-! ## Reports -/

/-- `addFailedSync` -/
@[grind =] def Queue.addFailedSync (q : Queue) (item : FailedSyncItem) : Queue :=
  { q with
    failedSync := q.failedSync.filter (fun f => f.clientId ≠ item.clientId) ++ [item]
    replaced := q.replaced ++ ((q.failedSync.filter (fun f =>
      f.clientId = item.clientId ∧ f.serial < item.serial)).map FailedSyncItem.serial) }

/-- A report about an entry. -/
def report (now : ℤ) (error : String) (m : Entry) : FailedSyncItem :=
  { clientId := m.clientId
    label := deriveFailedLabel m.method m.url
    method := m.method.getD "POST"
    url := m.url.getD ""
    body := m.body
    error := error
    «at» := now
    serial := m.serial }

/-- `surfaceStaleDrop` -/
def Queue.surfaceStaleDrop (now : ℤ) (q : Queue) (m : Entry) : Queue :=
  if m.isPending then
    q.addFailedSync
      { report now "Could not sync (older than 24h)" m with
        method := (m.method.orElse (fun _ => m.event)).getD "POST"
        body := m.body.orElse (fun _ => m.data) }
  else q

/-! ## Reading -/

/-- The entries of the store that answers, and the device afterwards. -/
def Queue.read (q : Queue) : Option (List Entry) × Device :=
  if q.device.openTx.1 then (some q.idb, q.device.openTx.2)
  else if q.device.openTx.2.access.1 then (some q.localQueue, q.device.openTx.2.access.2)
  else (none, q.device.openTx.2.access.2)

/-- `getPendingCount`; it fails when neither store answers. -/
def Queue.getPendingCount (q : Queue) : Option ℕ × Queue :=
  (q.read.1.map (fun all => (all.filter Entry.isPending).length), { q with device := q.read.2 })

/-- `getAll`: the fresh entries; the other ones are reported. -/
def Queue.getAll (now : ℤ) (q : Queue) : Option (List Entry) × Queue :=
  match q.read.1 with
  | none => (none, { q with device := q.read.2 })
  | some all =>
      (some (all.filter (Entry.isFresh now)),
        (all.filter (fun m => !m.isFresh now)).foldl (Queue.surfaceStaleDrop now)
          { q with device := q.read.2 })

/-! ## Writing -/

/-- The entry of a call of `queueMutation`. -/
def entryOf (now : ℤ) (serial : ℕ) (m : Mutation) : Entry :=
  { m with id := none, status := .pending, retries := 0, createdAt := now, serial := serial }

/-- The pending entry of a client id. -/
def matches? (clientId : String) (all : List Entry) : Option Entry :=
  all.find? (fun m => m.clientId = clientId ∧ m.status = .pending)

/-- The serial of an entry that gives way to a later one. -/
def givesWay (serial : ℕ) (m : Option Entry) : List ℕ :=
  (m.filter (fun x => x.serial < serial)).toList.map Entry.serial

/-- The transaction of `queueMutation`. -/
def Queue.upsertIdb (q : Queue) (e : Entry) : Queue :=
  let existing := matches? e.clientId q.idb
  { q with
    idb := q.idb.filter (fun x => ∀ m ∈ existing, x.id ≠ m.id) ++ [{ e with id := some q.nextId }]
    nextId := q.nextId + 1
    replaced := q.replaced ++ givesWay e.serial existing }

/-- The fallback of `queueMutation`. -/
def Queue.upsertLocal (q : Queue) (e : Entry) : Queue :=
  { q with
    localQueue :=
      q.localQueue.eraseP (fun m => m.clientId = e.clientId ∧ m.status = .pending) ++ [e]
    replaced := q.replaced ++ givesWay e.serial (matches? e.clientId q.localQueue) }

/-- How far a call of `queueMutation` has come: is its entry stored, and is it done? -/
structure Progress where
  stored : Bool
  done : Bool
  deriving DecidableEq

/-- `queueMutation` up to its fallback: the entry goes to IndexedDB, and the count is read. -/
def Queue.queueInIdb (q : Queue) (e : Entry) : Progress × Queue :=
  if q.device.openTx.1 then
    let q' := Queue.upsertIdb { q with device := q.device.openTx.2 } e
    (⟨true, q'.getPendingCount.1.isSome⟩, q'.getPendingCount.2)
  else (⟨false, false⟩, { q with device := q.device.openTx.2 })

/-- The report of a mutation that no store takes. -/
def unsaved (now : ℤ) (e : Entry) : FailedSyncItem :=
  report now "Could not save offline (device storage unavailable)" e

/-- The fallback: the entry goes to `localStorage`, and the count is read. -/
def Queue.queueInLocal (now : ℤ) (q : Queue) (e : Entry) : Bool × Queue :=
  let (read, d) := q.device.access
  let (written, d') := d.access
  if !read then (false, Queue.addFailedSync { q with device := d } (unsaved now e))
  else if !written then (false, Queue.addFailedSync { q with device := d' } (unsaved now e))
  else
    let q' := Queue.upsertLocal { q with device := d' } e
    if q'.getPendingCount.1.isSome then (true, q'.getPendingCount.2)
    else (true, q'.getPendingCount.2.addFailedSync (unsaved now e))

/-- `queueMutation`; `fresh` is the client id that is generated when none is given. -/
def Queue.queueMutation (now : ℤ) (fresh : String) (q : Queue) (m : Mutation) : Queue :=
  let m := if m.clientId = "" then { m with clientId := fresh } else m
  let e := entryOf now q.serial m
  let r := Queue.queueInIdb { q with serial := q.serial + 1 } e
  if r.1.done then r.2 else (r.2.queueInLocal now e).2

/-- `removeMutation` -/
def Queue.removeMutation (q : Queue) (id : ℕ) : Queue :=
  if q.device.tx.1 then
    { q with idb := q.idb.filter (fun x => x.id ≠ some id), device := q.device.tx.2 }
  else { q with device := q.device.tx.2 }

/-- `removeMutationByClientId` -/
def Queue.removeMutationByClientId (q : Queue) (clientId : String) : Queue :=
  let (read, d) := q.device.access
  if read then
    let (written, d') := d.access
    if written then
      { q with localQueue := q.localQueue.filter (fun m => m.clientId ≠ clientId), device := d' }
    else { q with device := d' }
  else { q with device := d }

/-- `updateMutation(id, { retries, status: 'pending' })` -/
def Queue.updateMutation (q : Queue) (id retries : ℕ) : Queue :=
  if q.device.tx.1 then
    { q with
      idb := q.idb.map (fun x =>
        if x.id = some id then { x with retries := retries, status := .pending } else x)
      device := q.device.tx.2 }
  else { q with device := q.device.tx.2 }

/-- The first entry of a client id, changed. -/
@[grind =] def updateFirst (clientId : String) (retries : ℕ) : List Entry → List Entry
  | [] => []
  | m :: ms =>
      if m.clientId = clientId then { m with retries := retries, status := .pending } :: ms
      else m :: updateFirst clientId retries ms

/-- `updateMutationByClientId(clientId, { retries, status: 'pending' })` -/
def Queue.updateMutationByClientId (q : Queue) (clientId : String) (retries : ℕ) : Queue :=
  let (read, d) := q.device.access
  if read ∧ ∃ m ∈ q.localQueue, m.clientId = clientId then
    let (written, d') := d.access
    if written then
      { q with localQueue := updateFirst clientId retries q.localQueue, device := d' }
    else { q with device := d' }
  else { q with device := d }

/-! ## Replaying -/

/-- How `apiFn`, or the acknowledgement of a socket message, ends. -/
inductive Reply where
  | ok
  | error (status : Option ℕ) (message : String)

/-- Can the entry be sent? -/
def Entry.isSendable (m : Entry) : Bool :=
  (m.type = .api ∧ m.url.getD "" ≠ "") ∨ (m.type = .socket ∧ m.event.getD "" ≠ "")

/-- The removal of an entry, by its key or by its client id. -/
def Queue.remove (q : Queue) (m : Entry) : Queue :=
  match m.id with
  | some id => q.removeMutation id
  | none => q.removeMutationByClientId m.clientId

/-- The retry bump of an entry, by its key or by its client id. -/
def Queue.bump (q : Queue) (m : Entry) : Queue :=
  match m.id with
  | some id => q.updateMutation id (m.retries + 1)
  | none => q.updateMutationByClientId m.clientId (m.retries + 1)

/-- A conflict, another client error, or the last retry. -/
def isPermanent (m : Entry) (status : Option ℕ) : Bool :=
  status = some 409 || maxRetries ≤ m.retries + 1 ||
    (match status with
    | some s => 400 ≤ s && s < 500
    | none => false)

/-- The reason of a permanent failure. -/
def reason (status : Option ℕ) (message : String) : String :=
  if status = some 409 then "Conflict" else if message ≠ "" then message else "Sync failed"

/-- One entry of a pass, after its reply. -/
def Queue.settle (now : ℤ) (q : Queue) (m : Entry) : Reply → Queue
  | .ok => q.remove m
  | .error status message =>
      if isPermanent m status then
        (q.addFailedSync (report now (reason status message) m)).remove m
      else q.bump m

/-- The pending entries, oldest first. -/
def pendingInOrder (all : List Entry) : List Entry :=
  (all.filter Entry.isPending).insertionSort (fun a b => a.createdAt ≤ b.createdAt)

/-! ## What the operations do to the stores -/

theorem read_eq {q : Queue} {all : List Entry} (h : q.read.1 = some all) :
    all = q.idb ∨ all = q.localQueue := by
  unfold Queue.read at h
  split_ifs at h
  · exact .inl (Option.some.inj h).symm
  · exact .inr (Option.some.inj h).symm

/-- Stale entries are reported, which changes neither store. -/
theorem foldl_surfaceStaleDrop_eq (now : ℤ) (stale : List Entry) (q : Queue) :
    ∃ f r, stale.foldl (Queue.surfaceStaleDrop now) q
      = { q with failedSync := f, replaced := r } := by
  induction stale generalizing q with
  | nil => exact ⟨_, _, rfl⟩
  | cons m ms ih =>
    obtain ⟨f, r, heq⟩ := ih (q.surfaceStaleDrop now m)
    rw [List.foldl_cons, heq]
    unfold Queue.surfaceStaleDrop
    split
    · exact ⟨f, r, rfl⟩
    · exact ⟨f, r, rfl⟩

theorem getAll_eq (now : ℤ) (q : Queue) :
    ∃ d f r, (q.getAll now).2 = { q with device := d, failedSync := f, replaced := r } := by
  unfold Queue.getAll
  split
  · exact ⟨_, _, _, rfl⟩
  · obtain ⟨f, r, heq⟩ := foldl_surfaceStaleDrop_eq now _ { q with device := q.read.2 }
    exact ⟨_, f, r, heq⟩

/-- A removal removes nothing, or the entry of a key, or the entries of a client id. -/
theorem remove_cases (q : Queue) (m : Entry) : ∃ d,
    q.remove m = { q with device := d } ∨
    (∃ k, m.id = some k ∧
      q.remove m = { q with idb := q.idb.filter (fun x => x.id ≠ some k), device := d }) ∨
    (m.id = none ∧ q.remove m = { q with
      localQueue := q.localQueue.filter (fun x => x.clientId ≠ m.clientId), device := d }) := by
  unfold Queue.remove
  cases hid : m.id with
  | some k =>
    simp only [Queue.removeMutation]
    split_ifs
    · exact ⟨_, .inr (.inl ⟨k, rfl, rfl⟩)⟩
    · exact ⟨_, .inl rfl⟩
  | none =>
    simp only [Queue.removeMutationByClientId]
    split_ifs
    · exact ⟨_, .inr (.inr ⟨trivial, rfl⟩)⟩
    · exact ⟨_, .inl rfl⟩
    · exact ⟨_, .inl rfl⟩

/-- The entry of a key, with other retries. -/
@[grind =] def bumpAt (k retries : ℕ) (x : Entry) : Entry :=
  if x.id = some k then { x with retries := retries, status := .pending } else x

/-- A bump changes nothing, or the entry of a key, or the first entry of a client id. -/
theorem bump_cases (q : Queue) (m : Entry) : ∃ d,
    q.bump m = { q with device := d } ∨
    (∃ k, m.id = some k ∧
      q.bump m = { q with idb := q.idb.map (bumpAt k (m.retries + 1)), device := d }) ∨
    (m.id = none ∧ q.bump m = { q with
      localQueue := updateFirst m.clientId (m.retries + 1) q.localQueue, device := d }) := by
  unfold Queue.bump
  cases hid : m.id with
  | some k =>
    simp only [Queue.updateMutation]
    split_ifs
    · exact ⟨_, .inr (.inl ⟨k, rfl, rfl⟩)⟩
    · exact ⟨_, .inl rfl⟩
  | none =>
    simp only [Queue.updateMutationByClientId]
    split_ifs
    · exact ⟨_, .inr (.inr ⟨trivial, rfl⟩)⟩
    · exact ⟨_, .inl rfl⟩
    · exact ⟨_, .inl rfl⟩

@[simp] theorem serial_bumpAt (k retries : ℕ) (x : Entry) :
    (bumpAt k retries x).serial = x.serial := by
  unfold bumpAt
  split <;> rfl

@[simp] theorem toMutation_bumpAt (k retries : ℕ) (x : Entry) :
    (bumpAt k retries x).toMutation = x.toMutation := by
  unfold bumpAt
  split <;> rfl

@[simp] theorem id_bumpAt (k retries : ℕ) (x : Entry) : (bumpAt k retries x).id = x.id := by
  unfold bumpAt
  split <;> rfl

/-- Nothing but the retries and the status of one entry changes. -/
theorem map_updateFirst {β : Type*} (f : Entry → β)
    (hf : ∀ (x : Entry) (r : ℕ), f { x with retries := r, status := .pending } = f x)
    (clientId : String) (retries : ℕ) (all : List Entry) :
    (updateFirst clientId retries all).map f = all.map f := by
  induction all with
  | nil => rfl
  | cons m ms ih =>
    rw [updateFirst]
    split
    · simp [hf]
    · simp [ih]

end FestivalPlanner.WebQueue
