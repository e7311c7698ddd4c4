import FestivalPlanner.Sync.LastWrite
import FestivalPlanner.Sync.OptimisticWrites

/-!
# Picks that are made offline and online

`savePick`, `bulkSavePicks` and `removePick` of `festivalDataStore.ts` show their change at once and
send the whole map, under a key of the set or of the profile.  The map is sent directly or queued,
and nobody else writes the picks of the profile.

* `Picks`, `picksBody`, `normalizePickPayload` — a map, as a body, and what the server reads of it;
* `System`, `step` — the map that is shown, the numbered calls, and `Replay.World` beneath;
* `Converged` — once all is quiet and nothing has failed for good, the server has the map shown;
* `Careful` — the condition on a step;
* `Carried`, `Inv` — the last map has taken effect, or is still carried to the server;
* `converged_of_careful` — the maps converge in every run of careful steps.
-/

namespace FestivalPlanner.PickSync

open OfflineQueue Replay List Keyed InFlight Function
open OptimisticWrites (Priority)
open Js (Json)

/-! ## The maps -/

/-- `Record<string, Priority>`, in the order of its keys. -/
abbrev Picks := List (String × Priority)

def priorityName : Priority → String
  | .maybe => "maybe"
  | .wantToSee => "want-to-see"
  | .must => "must"

/-- `ALLOWED_PICK_PRIORITIES` -/
def priorityOf (name : String) : Option Priority :=
  if name = "maybe" then some .maybe
  else if name = "want-to-see" then some .wantToSee
  else if name = "must" then some .must
  else none

/-- `picks[setId]` -/
def pickOf (picks : Picks) (setId : String) : Option Priority :=
  (lookup Prod.fst setId picks).map Prod.snd

/-- `picks[setId] = priority`, or `delete picks[setId]`. -/
def setPick (picks : Picks) (setId : String) : Option Priority → Picks
  | some priority => upsert Prod.fst (setId, priority) picks
  | none => erase Prod.fst setId picks

/-- `{ picks }`, the body of the request. -/
def picksBody (picks : Picks) : Json :=
  .obj [("picks", .obj (picks.map (fun p => (p.1, .str (priorityName p.2)))))]

/-- An entry of the map as the server reads it. -/
def pickEntry : String × Json → Option (String × Priority)
  | (setId, .str name) => (priorityOf name).map (fun priority => (setId, priority))
  | _ => none

/-- `normalizePickPayload`, on the ids of sets, which `normalizeRecordKey` leaves as they are. -/
def normalizePickPayload : Json → Option Picks
  | .obj entries => entries.mapM pickEntry
  | _ => none

/-- The map that `updateProfile` stores for a write. -/
def picksOf (e : QueuedMutation) : Option Picks :=
  (e.body.bind (Json.field "picks")).bind normalizePickPayload

/-! ## The calls -/

/-- The profile and what a call remembers of its keys. -/
abbrev Remembered := List (String × Option Priority)

/-- The client, and the server behind `Replay.World`. -/
structure System where
  profileId : String
  /-- `currentProfile.picks` -/
  shown : Picks
  /-- The picks the server had at first. -/
  stored : Picks
  world : Replay.World
  /-- What the calls remember, in the order in which they were made. -/
  calls : List Remembered
  /-- The call of a write, by its serial; calls are numbered from 1. -/
  callOf : ℕ → ℕ
  /-- Has a direct write been refused? -/
  refused : Bool

/-- The client and the server agree, and nothing is queued. -/
def start (profileId : String) (picks : Picks) (failedSync : List FailedSyncItem)
    (reconciler : Bool) : System where
  profileId := profileId
  shown := picks
  stored := picks
  world := Replay.initial failedSync reconciler
  calls := []
  callOf := fun _ => 0
  refused := false

/-- The mutation of `offlinePut`. -/
def offlinePut (profileId clientId : String) (picks : Picks) : Mutation :=
  enqueueOfflineMutation
    { method := .put
      path := "/profiles/" ++ profileId
      body := some (picksBody picks)
      clientId := some clientId
      offlineLabel := some "Update picks" } ""

/-- The map is shown, and queued or sent. -/
def System.save (s : System) (prev : Remembered) (picks : Picks) (clientId : String)
    (offlineMode : Bool) (now : ℤ) : System :=
  let m := offlinePut s.profileId clientId picks
  { s with
    shown := picks
    world := if offlineMode then queueWrite m none now s.world else writeDirect m now s.world
    calls := s.calls ++ [prev]
    callOf := update s.callOf s.world.client.nextSerial (s.calls.length + 1) }

/-- The key of `savePick` and `removePick`. -/
def pickKey (profileId setId : String) : String := "pick-" ++ profileId ++ "-" ++ setId

/-- `savePick`; no priority removes the pick. -/
def savePick (s : System) (setId : String) (priority : Option Priority) (offlineMode : Bool)
    (now : ℤ) : System :=
  s.save [(setId, pickOf s.shown setId)] (setPick s.shown setId priority)
    (pickKey s.profileId setId) offlineMode now

/-- `removePick` -/
def removePick (s : System) (setId : String) (offlineMode : Bool) (now : ℤ) : System :=
  s.save [(setId, pickOf s.shown setId)] (s.shown.filter (fun p => p.1 ≠ setId))
    (pickKey s.profileId setId) offlineMode now

/-- The loop of `bulkSavePicks`: what it remembers and the merged picks. -/
def bulkLoop (priority : Priority) : List String → Picks → Remembered × Picks
  | [], mergedPicks => ([], mergedPicks)
  | setId :: setIds, mergedPicks =>
      if (pickOf mergedPicks setId).any (fun existing => priority.rank ≤ existing.rank) then
        bulkLoop priority setIds mergedPicks
      else
        let rest := bulkLoop priority setIds (setPick mergedPicks setId (some priority))
        ((setId, pickOf mergedPicks setId) :: rest.1, rest.2)

/-- `bulkSavePicks`; nothing is written when nothing changes. -/
def bulkSavePicks (s : System) (setIds : List String) (priority : Priority) (offlineMode : Bool)
    (now : ℤ) : System :=
  let merged := bulkLoop priority setIds s.shown
  if merged.1 = [] then s
  else s.save merged.1 merged.2 ("bulk-" ++ s.profileId) offlineMode now

/-- `rollbackKeys` -/
def rollbackKeys (prev : Remembered) (picks : Picks) : Picks :=
  prev.foldl (fun picks p => setPick picks p.1 p.2) picks

/-! ## The machine -/

/-- What can happen next. -/
inductive Action where
  | savePick (setId : String) (priority : Option Priority) (offlineMode : Bool) (now : ℤ)
  | removePick (setId : String) (offlineMode : Bool) (now : ℤ)
  | bulkSavePicks (setIds : List String) (priority : Priority) (offlineMode : Bool) (now : ℤ)
  /-- The drain, a request, the server or the outcome of a direct write. -/
  | sync (a : Replay.Action)

/-- Does the client make a write in this step? -/
def isWrite : Replay.Action → Bool
  | .enqueue _ _ _ | .write _ _ => true
  | _ => false

/-- What a step of the world means for the calls: a direct write that is queued is still the write
of its call, and one that is refused is rolled back. -/
def System.advance (s : System) (a : Replay.Action) (w : Replay.World) : System :=
  match a with
  | .queueDirect d _ =>
      match s.world.directs[d]? with
      | some x =>
          { s with
            world := w
            callOf := update s.callOf s.world.client.nextSerial
              (s.callOf x.entry.serial) }
      | none => { s with world := w }
  | .refuse d =>
      match s.world.directs[d]? with
      | some x =>
          { s with
            world := w
            shown := rollbackKeys (s.calls.getD (s.callOf x.entry.serial - 1) []) s.shown
            refused := true }
      | none => { s with world := w }
  | _ => { s with world := w }

/-- One step; `user` is the client's. -/
def step (cfg : Idempotency.Config) (user : String) (s : System) : Action → Option System
  | .savePick setId priority offlineMode now => some (savePick s setId priority offlineMode now)
  | .removePick setId offlineMode now => some (removePick s setId offlineMode now)
  | .bulkSavePicks setIds priority offlineMode now =>
      some (bulkSavePicks s setIds priority offlineMode now)
  | .sync a => if isWrite a = true then none else (Replay.step cfg user s.world a).map (s.advance a)

/-! ## The promise -/

/-- The picks of the profile at the server. -/
def System.server (s : System) : Picks := (s.world.value.bind picksOf).getD s.stored

/-- Nothing was refused, and nothing was given up by the queue. -/
def NothingFailed (s : System) : Prop := s.refused = false ∧ s.world.client.recorded = []

/-- Once all is quiet and nothing has failed for good, the server has the map that is shown. -/
def Converged (s : System) : Prop :=
  Quiescent s.world → NothingFailed s → s.server = s.shown

/-! ## The condition on a step -/

/-- Is this a write of the last call? -/
@[grind =] def System.IsNewest (s : System) (e : QueuedMutation) : Prop := s.callOf e.serial = s.calls.length

instance (s : System) (e : QueuedMutation) : Decidable (s.IsNewest e) :=
  inferInstanceAs (Decidable (_ = _))

/-- The map of the last call was written. -/
def TookEffect (s : System) : Prop :=
  (∃ j ∈ s.world.committed, ∃ c ∈ s.world.server.calls[j]?, ∃ e ∈ c.request.payload,
    s.IsNewest e) ∨ ∃ d ∈ s.world.directs, d.landed = true ∧ s.IsNewest d.entry

/-- Once the last map has taken effect, only requests with that map do. -/
def Timely (s : System) (e : QueuedMutation) : Prop := TookEffect s → picksOf e = some s.shown

/-- With the entry that was replayed, the drain removes no write of the last call. -/
def RemovesReplayed (s : System) : Pc → Prop
  | .settling m (.ok _) _ =>
      ∀ q ∈ s.world.client.queue, s.IsNewest q → q.clientId = m.clientId → q.serial = m.serial
  | _ => True

/-- A direct write of an older call that is queued replaces no write of the last one. -/
def ReplacesOlder (s : System) (e : QueuedMutation) : Prop :=
  s.IsNewest e ∨ ∀ q ∈ s.world.client.queue, s.IsNewest q → q.clientId ≠ e.clientId

/-- The condition on a step of the world. -/
def CarefulSync (user : String) (s : System) : Replay.Action → Prop
  | .arrive k ip _ => ∀ p ∈ s.world.wire[k]?, SlotOfWrite user ip s.world p.1
  | .commit i => ∀ c ∈ s.world.server.calls[i]?, ∀ e ∈ c.request.payload, Timely s e
  | .land d => ∀ x ∈ s.world.directs[d]?, Timely s x.entry
  | .drain (.settle _) => RemovesReplayed s s.world.client.pc
  | .queueDirect d _ => ∀ x ∈ s.world.directs[d]?, ReplacesOlder s x.entry
  | _ => True

/-- The condition on a step. -/
def Careful (user : String) (s : System) : Action → Prop
  | .sync a => CarefulSync user s a
  | .savePick _ _ _ _ | .removePick _ _ _ | .bulkSavePicks _ _ _ _ => True

instance (s : System) : Decidable (TookEffect s) := inferInstanceAs (Decidable (_ ∨ _))

instance (s : System) (e : QueuedMutation) : Decidable (Timely s e) :=
  inferInstanceAs (Decidable (_ → _))

instance RemovesReplayed.decidable (s : System) : ∀ pc, Decidable (RemovesReplayed s pc)
  | .settling _ (.ok _) _ => inferInstanceAs (Decidable (∀ q ∈ _, _))
  | .settling _ (.error _ _) _ | .idle | .looping _ | .inFlight _ _ | .recording _ _ _
  | .rewriting _ _ _ => .isTrue trivial

instance (s : System) (e : QueuedMutation) : Decidable (ReplacesOlder s e) :=
  inferInstanceAs (Decidable (_ ∨ _))

instance CarefulSync.decidable (user : String) (s : System) :
    ∀ a, Decidable (CarefulSync user s a)
  | .arrive k ip _ =>
      inferInstanceAs (Decidable (∀ p ∈ s.world.wire[k]?, SlotOfWrite user ip s.world p.1))
  | .commit i => inferInstanceAs (Decidable (∀ c ∈ s.world.server.calls[i]?,
      ∀ e ∈ c.request.payload, Timely s e))
  | .land d => inferInstanceAs (Decidable (∀ x ∈ s.world.directs[d]?, Timely s x.entry))
  | .drain (.settle _) => inferInstanceAs (Decidable (RemovesReplayed s s.world.client.pc))
  | .queueDirect d _ =>
      inferInstanceAs (Decidable (∀ x ∈ s.world.directs[d]?, ReplacesOlder s x.entry))
  | .drain (.enqueue _ _ _) | .drain (.start _ _) | .drain .send | .drain (.reply _ _)
  | .drain (.record _) | .drain (.rewrite _) | .drain .finish | .enqueue _ _ _ | .send | .refresh
  | .lose _ | .receive _ | .fail _ _ | .server _ | .write _ _ | .loseDirect _ | .succeed _
  | .refuse _ => .isTrue trivial

instance Careful.decidable (user : String) (s : System) : ∀ a, Decidable (Careful user s a) := fun a => by
  unfold Careful
  split <;> infer_instance

/-! ## A map and its body -/

theorem priorityOf_priorityName (priority : Priority) :
    priorityOf (priorityName priority) = some priority := by
  cases priority <;> rfl

/-- The server reads the map that was sent. -/
theorem normalizePickPayload_picks (picks : Picks) :
    normalizePickPayload (.obj (picks.map (fun p => (p.1, .str (priorityName p.2))))) =
      some picks := by
  simp only [normalizePickPayload]
  induction picks with
  | nil => rfl
  | cons p picks ih =>
    rw [map_cons, mapM_cons, ih]
    simp [pickEntry, priorityOf_priorityName]

theorem picksOf_offlinePut (profileId clientId : String) (picks : Picks) (createdAt : Option ℤ)
    (now : ℤ) (s : OfflineQueue.State) :
    picksOf (newEntry (offlinePut profileId clientId picks) createdAt now s) = some picks :=
  normalizePickPayload_picks picks

variable {e q : QueuedMutation} {now : ℤ} {d : ℕ} {x : Direct}

theorem picksOf_of_sameWrite {e' : QueuedMutation} (h : SameWrite e e') :
    picksOf e = picksOf e' := by
  rw [picksOf, picksOf, h.2.2.2.1]

/-! ## The queue -/

/-- Something was recorded as failed, or is about to be. -/
def Surfacing (s : OfflineQueue.State) : Prop :=
  s.recorded ≠ [] ∨ ∃ m error rest, s.pc = .recording m error rest

section Queue

variable {s t : OfflineQueue.State}

theorem enqueueMutation_recorded (m : Mutation) (createdAt : Option ℤ) (now : ℤ)
    (s : OfflineQueue.State) : (enqueueMutation m createdAt now s).recorded =
      s.recorded ++ s.queue.filter (fun m => !isFresh now m) := by
  have h : (enqueueMutation m createdAt now s).recorded = (readQueue now s).recorded := by
    simp [State.recorded, enqueueMutation, writeQueue, Event.recorded?]
  rw [h, readQueue_recorded]

/-- A section of the queue begins with `readQueue`: what is stale is recorded. -/
theorem isFresh_or_recorded (hq : q ∈ s.queue)
    (hrec : t.recorded = s.recorded ++ s.queue.filter (fun m => !isFresh now m)) :
    isFresh now q = true ∨ t.recorded ≠ [] := by
  by_cases hfresh : isFresh now q = true
  · exact .inl hfresh
  · refine .inr fun hnil => ?_
    have hmem : q ∈ t.recorded := by
      rw [hrec]
      exact mem_append_right _ (mem_filter.mpr ⟨hq, by simpa using hfresh⟩)
    rw [hnil] at hmem
    cases hmem

theorem recorded_ne_nil {l : List QueuedMutation} (hrec : t.recorded = s.recorded ++ l)
    (h : s.recorded ≠ []) : t.recorded ≠ [] := by
  rw [hrec]
  simp [h]

/-- What a step records is recorded after the rest. -/
theorem recorded_step {a : OfflineQueue.Action} (h : OfflineQueue.Step s a t) :
    ∃ l, t.recorded = s.recorded ++ l := by
  cases h with
  | enqueue m createdAt now => exact ⟨_, enqueueMutation_recorded m createdAt now s⟩
  | skip | send | succeed | stop | fail | finish =>
    exact ⟨[], by simp [State.recorded, Event.recorded?]⟩
  | start now hpc => exact ⟨_, readQueue_recorded now s⟩
  | settle m r rest now _ hpc hset =>
    cases hset with
    | learns | removes | fails => exact ⟨_, readQueue_recorded now s⟩
    | keeps =>
      refine ⟨_, Eq.trans ?_ (readQueue_recorded now s)⟩
      exact congrArg (List.filterMap Event.recorded?) (bumpRetries_log m.clientId _ now s)
  | record m error rest now hpc => exact ⟨[m], by simp [State.recorded, recordFailed]⟩
  | rewrite m realId rest now hpc =>
    refine ⟨_, Eq.trans ?_ (readQueue_recorded now s)⟩
    simp [State.recorded, Event.recorded?]

/-- What failed for good stays so. -/
theorem surfacing_step {a : OfflineQueue.Action} (h : OfflineQueue.Step s a t)
    (hs : Surfacing s) : Surfacing t := by
  rcases hs with hs | ⟨m, error, rest, hpc⟩
  · obtain ⟨l, hl⟩ := recorded_step h
    exact .inl (recorded_ne_nil hl hs)
  · cases h with
    | enqueue m' createdAt now =>
      exact .inr ⟨m, error, rest, (enqueueMutation_pc now s m' createdAt).trans hpc⟩
    | skip => exact .inr ⟨m, error, rest, hpc⟩
    | record m' error' rest' now hpc' =>
      refine .inl ?_
      simp [State.recorded, recordFailed]
    | start now hpc' => rw [hpc] at hpc'; cases hpc'
    | send m' rest' hpc' => rw [hpc] at hpc'; cases hpc'
    | succeed m' rest' v offline hpc' => rw [hpc] at hpc'; cases hpc'
    | stop m' rest' status message hpc' => rw [hpc] at hpc'; cases hpc'
    | fail m' rest' status message hpc' => rw [hpc] at hpc'; cases hpc'
    | settle m' r rest' now t hpc' hset => rw [hpc] at hpc'; cases hpc'
    | rewrite m' realId rest' now hpc' => rw [hpc] at hpc'; cases hpc'
    | finish hpc' => rw [hpc] at hpc'; cases hpc'

/-- `enqueueMutation` keeps an entry, unless it is stale or has the client id of the new one. -/
theorem kept_enqueue {m : Mutation} {createdAt : Option ℤ} (hq : q ∈ s.queue)
    (hne : q.clientId ≠ m.clientId) :
    q ∈ (enqueueMutation m createdAt now s).queue ∨
      Surfacing (enqueueMutation m createdAt now s) := by
  rcases isFresh_or_recorded hq (enqueueMutation_recorded m createdAt now s) with hfresh | hrec
  · left
    rw [enqueueMutation_queue]
    exact mem_upsert_of_ne (mem_filter.mpr ⟨hq, hfresh⟩) hne
  · exact .inr (.inl hrec)

/-- A step of the drain keeps an entry, unless something fails or the entry has the client id of
one that was delivered. -/
theorem kept_step {a : OfflineQueue.Action} (hlocal : isLocal a = true)
    (h : OfflineQueue.Step s a t) (hq : q ∈ s.queue) :
    (∃ q' ∈ t.queue, q'.serial = q.serial) ∨ Surfacing t ∨
      ∃ now m v rest, a = .settle now ∧ s.pc = .settling m (.ok v) rest ∧
        q.clientId = m.clientId := by
  cases h with
  | enqueue | send | succeed | stop | fail => cases hlocal
  | skip | record | finish => exact .inl ⟨q, hq, rfl⟩
  | start now hpc =>
    rcases isFresh_or_recorded hq (readQueue_recorded now s) with hfresh | hrec
    · refine .inl ⟨q, ?_, rfl⟩
      show q ∈ (readQueue now s).queue
      rw [readQueue_queue]
      exact mem_filter.mpr ⟨hq, hfresh⟩
    · exact .inr (.inl (.inl hrec))
  | settle m r rest now _ hpc hset =>
    rcases isFresh_or_recorded hq (readQueue_recorded now s) with hfresh | hrec
    · have hmem : q ∈ s.queue.filter (isFresh now) := mem_filter.mpr ⟨hq, hfresh⟩
      have herase : q.clientId ≠ m.clientId → q ∈ (removeEntry m.clientId now s).queue := by
        intro hne
        rw [removeEntry_queue]
        exact mem_erase.mpr ⟨hmem, hne⟩
      cases hset with
      | learns v realId hid =>
        by_cases hc : q.clientId = m.clientId
        · exact .inr (.inr ⟨now, m, v, rest, rfl, hpc, hc⟩)
        · exact .inl ⟨q, herase hc, rfl⟩
      | removes v hid =>
        by_cases hc : q.clientId = m.clientId
        · exact .inr (.inr ⟨now, m, v, rest, rfl, hpc, hc⟩)
        · exact .inl ⟨q, herase hc, rfl⟩
      | fails status message hgives => exact .inr (.inl (.inr ⟨_, _, _, rfl⟩))
      | keeps status message hgives =>
        rcases mem_bumpRetries_of_mem m.clientId (m.retries.getD 0 + 1) now s hmem with h | h
        · exact .inl ⟨q, h, rfl⟩
        · exact .inl ⟨_, h, rfl⟩
    · refine .inr (.inl (.inl ?_))
      cases hset with
      | learns | removes | fails => exact hrec
      | keeps =>
        have heq := congrArg (List.filterMap Event.recorded?)
          (bumpRetries_log m.clientId (m.retries.getD 0 + 1) now s)
        change State.recorded _ = State.recorded _ at heq
        exact fun hnil => hrec (heq.symm.trans hnil)
  | rewrite m realId rest now hpc =>
    rcases isFresh_or_recorded hq (readQueue_recorded now s) with hfresh | hrec
    · refine .inl ⟨{ q with url := substitute m.clientId realId q.url }, ?_, rfl⟩
      show _ ∈ (rewriteUrls m.clientId realId now s).queue
      rw [rewriteUrls_queue]
      exact mem_map.mpr ⟨q, mem_filter.mpr ⟨hq, hfresh⟩, rfl⟩
    · refine .inr (.inl (.inl ?_))
      simpa [State.recorded, Event.recorded?] using hrec

end Queue

/-! ## The writes of the world -/

section World

variable {cfg : Idempotency.Config} {user : String} {w t : Replay.World}

theorem held_queueWrite (m : Mutation) (createdAt : Option ℤ) (now : ℤ)
    (h : Held (queueWrite m createdAt now w) e) :
    e = newEntry m createdAt now w.client ∨ Held w e := by
  rcases h with (he | he) | he | he | he | he | he
  · rw [show (queueWrite m createdAt now w).client.queue = _ from
      enqueueMutation_queue m createdAt now w.client] at he
    rcases mem_or_eq_of_mem_upsert he with rfl | he
    · exact .inl rfl
    · exact .inr (.inl (.inl (mem_filter.mp he).1))
  · rw [show (queueWrite m createdAt now w).client.pc = _ from
      enqueueMutation_pc now w.client m createdAt] at he
    exact .inr (.inl (.inr he))
  · exact .inr (.inr (.inl he))
  · exact .inr (.inr (.inr (.inl he)))
  · exact .inr (.inr (.inr (.inr (.inl he))))
  · exact .inr (.inr (.inr (.inr (.inr (.inl he)))))
  · cases he
    exact .inl rfl

theorem held_writeDirect (m : Mutation) (now : ℤ) (h : Held (writeDirect m now w) e) :
    e = newEntry m none now w.client ∨ Held w e := by
  rcases h with he | he | he | ⟨d, hd, he⟩ | he | he
  · exact .inr (.inl he)
  · exact .inr (.inr (.inl he))
  · exact .inr (.inr (.inr (.inl he)))
  · rcases mem_append.mp hd with hd | hd
    · exact .inr (.inr (.inr (.inr (.inl ⟨d, hd, he⟩))))
    · rw [mem_singleton.mp hd] at he
      exact .inl he.symm
  · exact .inr (.inr (.inr (.inr (.inr (.inl he)))))
  · cases he
    exact .inl rfl

theorem done_writeDirect (m : Mutation) (now : ℤ) (h : Done (writeDirect m now w) e) :
    Done w e := by
  rcases h with he | ⟨d, hd, hland, he⟩
  · exact .inl he
  · rcases mem_append.mp hd with hd | hd
    · exact .inr ⟨d, hd, hland, he⟩
    · rw [mem_singleton.mp hd] at hland
      cases hland

/-- A step that makes no write and executes none. -/
structure Keeps (w t : Replay.World) : Prop where
  value : t.value = w.value
  nextSerial : t.client.nextSerial = w.client.nextSerial
  held : ∀ e, Held t e → ∃ e', Held w e' ∧ SameWrite e e'
  done : ∀ e, Done t e ↔ Done w e

theorem Keeps.of_parts (h : Parts w t) (hdone : ∀ e, Done w e → Done t e) : Keeps w t where
  value := h.value
  nextSerial := h.nextSerial
  held := h.moves.held
  done e := ⟨h.moves.done e, hdone e⟩

theorem done_setDirect (y : Direct) (hd : w.directs[d]? = some x) (hentry : y.entry = x.entry)
    (hland : x.landed = true → y.landed = true) (h : Done w e) :
    Done { w with directs := w.directs.set d y } e := by
  rcases h with he | ⟨z, hz, hzl, he⟩
  · exact .inl he
  · rcases mem_set_or hd hz y with rfl | hz
    · exact .inr ⟨y, mem_set_self hd y, hland hzl, hentry.trans he⟩
    · exact .inr ⟨z, hz, hzl, he⟩

theorem keeps_setDirect (y : Direct) (hd : w.directs[d]? = some x) (hentry : y.entry = x.entry)
    (hnet : y.onNetwork = true → x.onNetwork = true) (hland : y.landed = x.landed) :
    Keeps w { w with directs := w.directs.set d y } :=
  .of_parts (Parts.setDirect y hd hentry.symm hnet (fun h => hland ▸ h))
    (fun _ h => done_setDirect y hd hentry (fun h => hland.trans h) h)

/-- The drain sends an entry that it holds. -/
theorem keeps_send {m : QueuedMutation} {rest : List QueuedMutation}
    (hpc : w.client.pc = .looping (m :: rest)) :
    Keeps w { w with
      client := { w.client.note (.sent m) with pc := .inFlight m rest }
      wire := w.wire ++ [(m, true)]
      awaited := none } where
  value := rfl
  nextSerial := rfl
  done _ := Iff.rfl
  held e he := by
    have hm : Held w m := .inl (.inr (by rw [hpc]; exact mem_cons_self ..))
    refine ⟨e, ?_, SameWrite.refl e⟩
    rcases he with (he | he) | ⟨marked, he⟩ | he | he | he | he
    · exact .inl (.inl he)
    · exact .inl (.inr (by rw [hpc]; exact he))
    · rcases mem_append.mp he with he | he
      · exact .inr (.inl ⟨marked, he⟩)
      · cases mem_singleton.mp he
        exact hm
    · exact .inr (.inr (.inl he))
    · exact .inr (.inr (.inr (.inl he)))
    · exact .inr (.inr (.inr (.inr (.inl he))))
    · exact .inr (.inr (.inr (.inr (.inr he))))

/-- Does a step neither make a write nor execute one? -/
def isPlain : Replay.Action → Bool
  | .enqueue _ _ _ | .write _ _ | .queueDirect _ _ | .commit _ | .land _ => false
  | _ => true

theorem keeps_step {a : Replay.Action} (hplain : isPlain a = true)
    (hs : ServerInv w.server w.committed) (h : Replay.Step cfg user w a t) : Keeps w t := by
  cases h with
  | enqueue | write | queueDirect | commit | land => cases hplain
  | drain a c hlocal hstep => exact .of_parts (Parts.drain hlocal hstep) (fun _ h => h)
  | send m rest hpc => exact keeps_send hpc
  | refresh m rest hpc =>
    refine .of_parts { Parts.refl w with wire := fun p hp => ?_ } (fun _ h => h)
    rcases mem_append.mp hp with hp | hp
    · exact live_of_mem_wire hp
    · cases mem_singleton.mp hp
      exact .inl ⟨rest, hpc⟩
  | arrive k m current ip now s hk hstep =>
    refine .of_parts (Parts.arrive hs.known hk hstep) fun e h => ?_
    exact Or.imp_left (fun he => he.mono (fun j c hc => hstep.request hc) (fun j hj => hj)) h
  | lose k =>
    exact .of_parts { Parts.refl w with
      wire := fun p hp => live_of_mem_wire (mem_of_mem_eraseIdx hp) } (fun _ h => h)
  | receive m rest response offline c hpc hr hstep =>
    exact .of_parts (Parts.reply hstep) (fun _ h => h)
  | fail message offline c hstep => exact .of_parts (Parts.reply hstep) (fun _ h => h)
  | server b s hmay hstep =>
    refine .of_parts (Parts.server hmay hstep) fun e h => ?_
    exact Or.imp_left (fun he => he.mono (fun j c hc => hstep.request hc) (fun j hj => hj)) h
  | loseDirect d x hd =>
    exact keeps_setDirect { x with onNetwork := false } hd rfl (fun h => by cases h) rfl
  | succeed d x hd hland => exact keeps_setDirect { x with waiting := false } hd rfl id rfl
  | refuse d x hd =>
    exact keeps_setDirect { x with onNetwork := false, waiting := false } hd rfl
      (fun h => by cases h) rfl

end World

/-! ## The invariant -/

/-- Something has failed, or is about to be recorded as failed, for good. -/
def Failing (s : System) : Prop := s.refused = true ∨ Surfacing s.world.client

/-- A write of the last call is queued, or its outcome is awaited. -/
def Carried (s : System) : Prop :=
  (∃ q ∈ s.world.client.queue, s.IsNewest q) ∨
    ∃ d ∈ s.world.directs, d.waiting = true ∧ s.IsNewest d.entry

theorem tookEffect_iff {s : System} : TookEffect s ↔ ∃ e, Done s.world e ∧ s.IsNewest e := by
  constructor
  · rintro (⟨j, hj, c, hc, e, he, hnew⟩ | ⟨d, hd, hland, hnew⟩)
    · exact ⟨e, .inl ⟨j, hj, c, hc, he⟩, hnew⟩
    · exact ⟨d.entry, .inr ⟨d, hd, hland, rfl⟩, hnew⟩
  · rintro ⟨e, ⟨j, hj, c, hc, he⟩ | ⟨d, hd, hland, rfl⟩, hnew⟩
    · exact .inl ⟨j, hj, c, hc, e, he, hnew⟩
    · exact .inr ⟨d, hd, hland, hnew⟩

/-- What holds in every state of a careful run. -/
structure Inv (s : System) : Prop where
  server : ServerInv s.world.server s.world.committed
  drain : DrainInv s.world
  known : ∀ e, Held s.world e →
    e.serial < s.world.client.nextSerial ∧ s.callOf e.serial ≤ s.calls.length
  first : s.calls = [] → s.shown = s.stored ∧ ∀ e, ¬ Held s.world e
  body : ¬ Failing s → ∀ e, Held s.world e → s.IsNewest e → picksOf e = some s.shown
  effect : ¬ Failing s → TookEffect s → s.server = s.shown
  carried : Failing s ∨ s.calls = [] ∨ TookEffect s ∨ Carried s

/-- The invariant is enough. -/
theorem Inv.converged {s : System} (hi : Inv s) : Converged s := by
  intro hquiet ⟨hrefused, hrecorded⟩
  have hnot : ¬ Failing s := by
    rintro (h | h | ⟨m, error, rest, h⟩)
    · rw [hrefused] at h
      cases h
    · exact h hrecorded
    · rw [hquiet.idle] at h
      cases h
  rcases hi.carried with h | h | h | ⟨q, hq, -⟩ | ⟨d, hd, hwait, -⟩
  · exact absurd h hnot
  · obtain ⟨hshown, hheld⟩ := hi.first h
    have hvalue : s.world.value = none := by
      cases hv : s.world.value with
      | none => rfl
      | some e => exact absurd (.inr (.inr (.inr (.inr (.inl hv))))) (hheld e)
    simp [System.server, hvalue, hshown]
  · exact hi.effect hnot h
  · rw [hquiet.drained] at hq
    cases hq
  · rw [hquiet.noDirect d hd] at hwait
    cases hwait

theorem inv_start (profileId : String) (picks : Picks) (failedSync : List FailedSyncItem)
    (reconciler : Bool) : Inv (start profileId picks failedSync reconciler) where
  server := (Replay.inv_initial failedSync reconciler).server
  drain := (Replay.inv_initial failedSync reconciler).drain
  known e he := by
    obtain ⟨l, hl, -⟩ := (Replay.inv_initial failedSync reconciler).order.known e he
    cases hl
  first _ := ⟨rfl, fun e he => by
    obtain ⟨l, hl, -⟩ := (Replay.inv_initial failedSync reconciler).order.known e he
    cases hl⟩
  body _ e he := by
    obtain ⟨l, hl, -⟩ := (Replay.inv_initial failedSync reconciler).order.known e he
    cases hl
  effect _ _ := rfl
  carried := .inr (.inl rfl)

/-! ## The calls -/

section Step

variable {cfg : Idempotency.Config} {user : String} {s : System} {t : Replay.World}
  {a : Replay.Action}

/-- A call is made: nothing of it has taken effect, and its write is carried. -/
theorem Inv.save (hi : Inv s) (prev : Remembered) (picks : Picks) (clientId : String)
    (offlineMode : Bool) (now : ℤ) : Inv (s.save prev picks clientId offlineMode now) := by
  set m := offlinePut s.profileId clientId picks with hm
  set e₀ := newEntry m none now s.world.client with he₀
  set t := s.save prev picks clientId offlineMode now with ht
  have hlength : t.calls.length = s.calls.length + 1 := by simp [ht, System.save]
  have hheld : ∀ e, Held t.world e → e = e₀ ∨ Held s.world e := by
    intro e he
    cases offlineMode with
    | true => exact held_queueWrite m none now he
    | false => exact held_writeDirect m now he
  have hdone : ∀ e, Done t.world e → Done s.world e := by
    intro e he
    cases offlineMode with
    | true => exact he
    | false => exact done_writeDirect m now he
  have hnext : t.world.client.nextSerial = s.world.client.nextSerial + 1 := by
    cases offlineMode with
    | true => exact enqueueMutation_nextSerial m none now s.world.client
    | false => rfl
  have hnew : t.callOf e₀.serial = s.calls.length + 1 := update_self ..
  have hold : ∀ e, Held s.world e → t.callOf e.serial = s.callOf e.serial := by
    intro e he
    have := (hi.known e he).1
    exact update_of_ne (by omega) ..
  have holder : ∀ e, Held s.world e → ¬ t.IsNewest e := by
    intro e he hnewest
    have := (hi.known e he).2
    rw [System.IsNewest, hold e he, hlength] at hnewest
    omega
  refine ⟨?_, ?_, ?_, ?_, ?_, ?_, ?_⟩
  · cases offlineMode <;> exact hi.server
  · cases offlineMode with
    | true =>
      have hstep : Replay.Step Idempotency.defaultConfig "" s.world _ t.world :=
        .enqueue m none now
      exact drainInv_step hi.drain hi.server hstep
    | false =>
      have hstep : Replay.Step Idempotency.defaultConfig "" s.world _ t.world := .write m now
      exact drainInv_step hi.drain hi.server hstep
  · intro e he
    rw [hnext, hlength]
    rcases hheld e he with rfl | he
    · exact ⟨Nat.lt_succ_self _, hnew.le⟩
    · have hknown := hi.known e he
      rw [hold e he]
      omega
  · intro hnil
    rw [← length_eq_zero_iff, hlength] at hnil
    omega
  · intro _ e he hnewest
    rcases hheld e he with rfl | he
    · exact picksOf_offlinePut s.profileId clientId picks none now s.world.client
    · exact absurd hnewest (holder e he)
  · intro _ htook
    obtain ⟨e, he, hnewest⟩ := tookEffect_iff.mp htook
    exact absurd hnewest (holder e (hdone e he).held)
  · refine .inr (.inr (.inr ?_))
    have hnewest : t.IsNewest e₀ := hnew.trans hlength.symm
    cases offlineMode with
    | true =>
      refine .inl ⟨e₀, ?_, hnewest⟩
      show e₀ ∈ (enqueueMutation m none now s.world.client).queue
      rw [enqueueMutation_queue]
      exact mem_upsert_self _ _
    | false =>
      exact .inr ⟨⟨e₀, true, false, true⟩, mem_append_right _ (mem_singleton_self _),
        rfl, hnewest⟩

/-- A step of the server keeps its invariant. -/
theorem serverInv_careful (hi : Inv s) (hc : CarefulSync user s a)
    (h : Replay.Step cfg user s.world a t) : ServerInv t.server t.committed := by
  have hstep := h
  cases h with
  | arrive k m current ip now =>
    have hord : Orderly user s.world (.arrive k ip now) := hc
    exact serverInv_step hi.server hord hstep
  | commit i =>
    have hord : Orderly user s.world (.commit i) := trivial
    exact serverInv_step hi.server hord hstep
  | server b =>
    have hord : Orderly user s.world (.server b) := trivial
    exact serverInv_step hi.server hord hstep
  | queueDirect d x now hd t ht =>
    subst ht
    exact hi.server
  | enqueue | drain | send | refresh | lose | receive | fail | write | land | loseDirect | succeed
  | refuse => exact hi.server

theorem surfacing_world (h : Replay.Step cfg user s.world a t) (hs : Surfacing s.world.client) :
    Surfacing t.client := by
  cases h with
  | enqueue m createdAt now => exact surfacing_step (.enqueue m createdAt now) hs
  | drain a c hlocal hstep => exact surfacing_step hstep hs
  | send m rest hpc => exact surfacing_step (.send m rest hpc) hs
  | receive m rest response offline c hpc hr hstep => exact surfacing_step hstep hs
  | fail message offline c hstep => exact surfacing_step hstep hs
  | queueDirect d x now hd t ht =>
    subst ht
    exact surfacing_step (.enqueue x.entry.toMutation none now) hs
  | refresh | arrive | lose | commit | server | write | land | loseDirect | succeed | refuse =>
    exact hs

/-- A step that makes no write and executes none. -/
theorem Inv.keeps (hi : Inv s) (hk : Keeps s.world t) (hserver : ServerInv t.server t.committed)
    (hdrain : DrainInv t) (hfail : Surfacing s.world.client → Surfacing t.client)
    (hcarry : Carried s → Surfacing t.client ∨ TookEffect s ∨ Carried { s with world := t }) :
    Inv { s with world := t } := by
  have htook : TookEffect { s with world := t } ↔ TookEffect s := by
    rw [tookEffect_iff, tookEffect_iff]
    exact exists_congr fun e => and_congr_left' (hk.done e)
  have hnot : ¬ Failing { s with world := t } → ¬ Failing s := fun h h' => h (h'.imp_right hfail)
  refine ⟨hserver, hdrain, ?_, ?_, ?_, ?_, ?_⟩
  · intro e he
    obtain ⟨e', he', hsame⟩ := hk.held e he
    obtain ⟨hlt, hle⟩ := hi.known e' he'
    refine ⟨?_, ?_⟩
    · change e.serial < t.client.nextSerial
      rw [hk.nextSerial, hsame.1]
      exact hlt
    · change s.callOf e.serial ≤ s.calls.length
      rw [hsame.1]
      exact hle
  · intro hnil
    obtain ⟨hshown, hheld⟩ := hi.first hnil
    refine ⟨hshown, fun e he => ?_⟩
    obtain ⟨e', he', -⟩ := hk.held e he
    exact hheld e' he'
  · intro hfailing e he hnewest
    obtain ⟨e', he', hsame⟩ := hk.held e he
    rw [picksOf_of_sameWrite hsame]
    refine hi.body (hnot hfailing) e' he' ?_
    rw [System.IsNewest, ← hsame.1]
    exact hnewest
  · intro hfailing hnewest
    have hsame := hi.effect (hnot hfailing) (htook.mp hnewest)
    rw [System.server] at hsame ⊢
    rw [hk.value]
    exact hsame
  · rcases hi.carried with h | h | h | h
    · exact .inl (h.imp_right hfail)
    · exact .inr (.inl h)
    · exact .inr (.inr (.inl (htook.mpr h)))
    · rcases hcarry h with h | h | h
      · exact .inl (.inr h)
      · exact .inr (.inr (.inl (htook.mpr h)))
      · exact .inr (.inr (.inr h))

/-- Changing the outcome of a direct write, which is still awaited, or has landed. -/
theorem carried_setDirect (y : Direct) (hd : s.world.directs[d]? = some x)
    (hentry : y.entry = x.entry) (hwait : x.waiting = true → y.waiting = true ∨ x.landed = true)
    (h : Carried s) :
    TookEffect s ∨ Carried { s with world := { s.world with directs := s.world.directs.set d y } } := by
  rcases h with h | ⟨z, hz, hzw, hnewest⟩
  · exact .inr (.inl h)
  · rcases mem_set_or hd hz y with rfl | hz
    · rcases hwait hzw with hw | hland
      · refine .inr (.inr ⟨y, mem_set_self hd y, hw, ?_⟩)
        change s.IsNewest y.entry
        rw [hentry]
        exact hnewest
      · exact .inl (.inr ⟨z, mem_of_getElem? hd, hland, hnewest⟩)
    · exact .inr (.inr ⟨z, hz, hzw, hnewest⟩)

/-- A careful step of the drain drops a write of the last call only when it was executed. -/
theorem Inv.carried_drain (hi : Inv s) {b : OfflineQueue.Action} {c : OfflineQueue.State}
    (hc : CarefulSync user s (.drain b)) (hlocal : isLocal b = true)
    (hstep : OfflineQueue.Step s.world.client b c) (h : Carried s) :
    Surfacing c ∨ TookEffect s ∨ Carried { s with world := { s.world with client := c } } := by
  rcases h with ⟨q, hq, hnewest⟩ | h
  · rcases kept_step hlocal hstep hq with ⟨q', hq', heq⟩ | h | ⟨now, m, v, rest, rfl, hpc, hid⟩
    · refine .inr (.inr (.inl ⟨q', hq', ?_⟩))
      change s.callOf q'.serial = s.calls.length
      rw [heq]
      exact hnewest
    · exact .inl h
    · -- The entry itself was delivered, and what is delivered was executed.
      have hremoves : RemovesReplayed s s.world.client.pc := hc
      rw [hpc] at hremoves
      have hserial := hremoves q hq hnewest hid
      obtain ⟨e, he, heq⟩ := hi.drain.settles m v rest hpc
      refine .inr (.inl (tookEffect_iff.mpr ⟨e, .inl he, ?_⟩))
      rw [System.IsNewest, heq, ← hserial]
      exact hnewest
  · exact .inr (.inr (.inr h))

/-- A careful step that makes no write and executes none keeps the write of the last call carried. -/
theorem Inv.carried_step (hi : Inv s) (hc : CarefulSync user s a) (hplain : isPlain a = true)
    (hrefuse : ∀ d, a ≠ .refuse d) (h : Replay.Step cfg user s.world a t) (hcarried : Carried s) :
    Surfacing t.client ∨ TookEffect s ∨ Carried { s with world := t } := by
  cases h with
  | enqueue | write | queueDirect | commit | land => cases hplain
  | drain b c hlocal hstep => exact hi.carried_drain hc hlocal hstep hcarried
  | send | refresh | arrive | lose | server => exact .inr (.inr hcarried)
  | receive m rest response offline c hpc hr hstep =>
    obtain ⟨-, -, -, -, hq, -⟩ := pc_of_reply hstep
    refine .inr (.inr (hcarried.imp_left ?_))
    rintro ⟨q, hmem, hnewest⟩
    exact ⟨q, hq ▸ hmem, hnewest⟩
  | fail message offline c hstep =>
    obtain ⟨-, -, -, -, hq, -⟩ := pc_of_reply hstep
    refine .inr (.inr (hcarried.imp_left ?_))
    rintro ⟨q, hmem, hnewest⟩
    exact ⟨q, hq ▸ hmem, hnewest⟩
  | loseDirect d x hd =>
    exact .inr (carried_setDirect { x with onNetwork := false } hd rfl .inl hcarried)
  | succeed d x hd hland =>
    exact .inr (carried_setDirect { x with waiting := false } hd rfl (fun _ => .inr hland) hcarried)
  | refuse d => exact absurd rfl (hrefuse d)

/-- A write is executed: one of the last call, or one with the map of the last call, when that call
has taken effect. -/
theorem Inv.put (hi : Inv s) {m : QueuedMutation} (hm : Held s.world m) (htimely : Timely s m)
    (hclient : t.client = s.world.client) (hvalue : t.value = some m)
    (hheld : ∀ e, Held t e → Held s.world e) (hdone : ∀ e, Done t e → e = m ∨ Done s.world e)
    (hmore : ∀ e, Done s.world e → Done t e) (hserver : ServerInv t.server t.committed)
    (hdrain : DrainInv t)
    (hdirects : ∀ d ∈ s.world.directs, ∃ d' ∈ t.directs, d'.waiting = d.waiting ∧
      d'.entry = d.entry) : Inv { s with world := t } := by
  have hfailing : Failing { s with world := t } ↔ Failing s := by
    unfold Failing
    rw [show ({ s with world := t } : System).world.client = s.world.client from hclient]
  refine ⟨hserver, hdrain, ?_, ?_, ?_, ?_, ?_⟩
  · intro e he
    change e.serial < t.client.nextSerial ∧ _
    rw [hclient]
    exact hi.known e (hheld e he)
  · exact fun hnil => absurd hm ((hi.first hnil).2 m)
  · exact fun hnot e he hnewest => hi.body (fun h => hnot (hfailing.mpr h)) e (hheld e he) hnewest
  · intro hnot htook
    have hnot : ¬ Failing s := fun h => hnot (hfailing.mpr h)
    obtain ⟨e, he, hnewest⟩ := tookEffect_iff.mp htook
    have hmap : picksOf m = some s.shown := by
      rcases hdone e he with rfl | he
      · exact hi.body hnot e hm hnewest
      · exact htimely (tookEffect_iff.mpr ⟨e, he, hnewest⟩)
    change (t.value.bind picksOf).getD s.stored = s.shown
    rw [hvalue, Option.bind_some, hmap, Option.getD_some]
  · rcases hi.carried with h | h | h | ⟨q, hq, hnewest⟩ | ⟨d, hd, hwait, hnewest⟩
    · exact .inl (hfailing.mpr h)
    · exact absurd hm ((hi.first h).2 m)
    · obtain ⟨e, he, hnewest⟩ := tookEffect_iff.mp h
      exact .inr (.inr (.inl (tookEffect_iff.mpr ⟨e, hmore e he, hnewest⟩)))
    · refine .inr (.inr (.inr (.inl ⟨q, ?_, hnewest⟩)))
      change q ∈ t.client.queue
      rw [hclient]
      exact hq
    · obtain ⟨d', hd', hw, he⟩ := hdirects d hd
      refine .inr (.inr (.inr (.inr ⟨d', hd', hw.trans hwait, ?_⟩)))
      change s.IsNewest d'.entry
      rw [he]
      exact hnewest

/-- A direct write is refused: the call failed for good. -/
theorem Inv.refuse (hi : Inv s) (h : Replay.Step cfg user s.world (.refuse d) t) :
    Inv (s.advance (.refuse d) t) := by
  have hstep := h
  cases h with
  | refuse _ x hd =>
    have hk := keeps_step rfl hi.server hstep
    simp only [System.advance, hd]
    have hfailing : ∀ {p : Prop}, ¬ Failing { s with
        world := { s.world with
          directs := s.world.directs.set d { x with onNetwork := false, waiting := false } }
        shown := rollbackKeys (s.calls.getD (s.callOf x.entry.serial - 1) []) s.shown
        refused := true } → p := fun h => absurd (.inl rfl) h
    refine ⟨hi.server, drainInv_step hi.drain hi.server hstep, ?_, ?_, hfailing, hfailing,
      .inl (.inl rfl)⟩
    · intro e he
      obtain ⟨e', he', hsame⟩ := hk.held e he
      have hknown := hi.known e' he'
      rw [← hsame.1] at hknown
      exact hknown
    · intro hnil
      refine absurd ?_ ((hi.first hnil).2 x.entry)
      exact .inr (.inr (.inr (.inl ⟨x, mem_of_getElem? hd, rfl⟩)))

/-- A direct write is queued: the entry is a write of the same call. -/
theorem Inv.queueDirect (hi : Inv s) (hc : CarefulSync user s (.queueDirect d now))
    (h : Replay.Step cfg user s.world (.queueDirect d now) t) :
    Inv (s.advance (.queueDirect d now) t) := by
  have hstep := h
  cases h with
  | queueDirect _ x _ hd w hw =>
    simp only [System.advance, hd]
    set y : Direct := { x with waiting := false } with hy
    have hk : Keeps s.world { s.world with directs := s.world.directs.set d y } :=
      keeps_setDirect y hd rfl id rfl
    have hx : Held s.world x.entry :=
      .inr (.inr (.inr (.inl ⟨x, mem_of_getElem? hd, rfl⟩)))
    set e₀ := newEntry x.entry.toMutation none now s.world.client with he₀
    set t : System := { s with
      world := { w with latest := if s.world.isLatest x.entry then w.latest else s.world.latest }
      callOf := update s.callOf s.world.client.nextSerial (s.callOf x.entry.serial) }
      with ht
    have hdirects : t.world.directs = s.world.directs.set d y := by rw [ht, hw]; rfl
    have hqueue : t.world.client = enqueueMutation x.entry.toMutation none now s.world.client := by
      rw [ht, hw]
      rfl
    have hvalue : t.world.value = s.world.value := by rw [ht, hw]; rfl
    have hheld : ∀ e, Held t.world e → e = e₀ ∨ ∃ e', Held s.world e' ∧ SameWrite e e' := by
      intro e he
      have hcases : Held w e ∨ s.world.latest = some e := by
        rcases he with he | he | he | he | he | he
        · exact .inl (.inl he)
        · exact .inl (.inr (.inl he))
        · exact .inl (.inr (.inr (.inl he)))
        · exact .inl (.inr (.inr (.inr (.inl he))))
        · exact .inl (.inr (.inr (.inr (.inr (.inl he)))))
        · change (if s.world.isLatest x.entry then w.latest else s.world.latest) = some e at he
          split at he
          · exact .inl (.inr (.inr (.inr (.inr (.inr he)))))
          · exact .inr he
      rcases hcases with he | he
      · rw [hw] at he
        exact (held_queueWrite x.entry.toMutation none now he).imp_right (hk.held e)
      · exact .inr ⟨e, .inr (.inr (.inr (.inr (.inr he)))), SameWrite.refl e⟩
    have hdone : ∀ e, Done t.world e ↔ Done s.world e := by
      intro e
      rw [← hk.done e, ht, hw]
      exact Iff.rfl
    have hnext : t.world.client.nextSerial = s.world.client.nextSerial + 1 := by
      rw [hqueue]
      exact enqueueMutation_nextSerial x.entry.toMutation none now s.world.client
    have hnew : t.callOf e₀.serial = s.callOf x.entry.serial := update_self ..
    have hold : ∀ e, Held s.world e → t.callOf e.serial = s.callOf e.serial := by
      intro e he
      have := (hi.known e he).1
      exact update_of_ne (by omega) ..
    have hnot : ¬ Failing t → ¬ Failing s := by
      rintro h (h' | h')
      · exact h (.inl h')
      · exact h (.inr (surfacing_world hstep h'))
    have hreplayed : s.IsNewest x.entry → ∃ q ∈ t.world.client.queue, t.IsNewest q := by
      intro hnewest
      refine ⟨e₀, ?_, hnew.trans hnewest⟩
      rw [hqueue, enqueueMutation_queue]
      exact mem_upsert_self _ _
    refine ⟨?_, drainInv_step hi.drain hi.server hstep, ?_, ?_, ?_, ?_, ?_⟩
    · exact serverInv_careful hi hc hstep
    · intro e he
      rw [hnext]
      rcases hheld e he with rfl | ⟨e', he', hsame⟩
      · exact ⟨Nat.lt_succ_self _, hnew.trans_le (hi.known _ hx).2⟩
      · obtain ⟨hlt, hle⟩ := hi.known e' he'
        rw [hsame.1, hold e' he']
        exact ⟨hlt.trans (Nat.lt_succ_self _), hle⟩
    · exact fun hnil => absurd hx ((hi.first hnil).2 x.entry)
    · intro hfailing e he hnewest
      rcases hheld e he with rfl | ⟨e', he', hsame⟩
      · exact hi.body (hnot hfailing) x.entry hx (hnew.symm.trans hnewest)
      · rw [picksOf_of_sameWrite hsame]
        refine hi.body (hnot hfailing) e' he' ?_
        rw [System.IsNewest, ← hold e' he', ← hsame.1]
        exact hnewest
    · intro hfailing htook
      obtain ⟨e, he, hnewest⟩ := tookEffect_iff.mp htook
      have hdoneBefore := (hdone e).mp he
      have htookBefore : TookEffect s :=
        tookEffect_iff.mpr ⟨e, hdoneBefore, (hold e hdoneBefore.held).symm.trans hnewest⟩
      have hsame := hi.effect (hnot hfailing) htookBefore
      rw [System.server] at hsame ⊢
      rw [hvalue]
      exact hsame
    · rcases hi.carried with h | h | h | ⟨q, hq, hnewest⟩ | ⟨z, hz, hwait, hnewest⟩
      · exact .inl (h.imp_right (surfacing_world hstep))
      · exact .inr (.inl h)
      · obtain ⟨e, he, hnewest⟩ := tookEffect_iff.mp h
        exact .inr (.inr (.inl (tookEffect_iff.mpr
          ⟨e, (hdone e).mpr he, (hold e he.held).trans hnewest⟩)))
      · rcases hc x hd with hx' | hother
        · exact .inr (.inr (.inr (.inl (hreplayed hx'))))
        · rcases kept_enqueue hq (hother q hq hnewest) with h | h
          · refine .inr (.inr (.inr (.inl ⟨q, ?_, (hold q (.inl (.inl hq))).trans hnewest⟩)))
            rw [hqueue]
            exact h
          · refine .inl (.inr ?_)
            rw [hqueue]
            exact h
      · refine .inr (.inr (.inr ?_))
        rcases mem_set_or hd hz y with rfl | hz'
        · exact .inl (hreplayed hnewest)
        · refine .inr ⟨z, hdirects ▸ hz', hwait, ?_⟩
          have hheldz : Held s.world z.entry := .inr (.inr (.inr (.inl ⟨z, hz, rfl⟩)))
          exact (hold z.entry hheldz).trans hnewest

/-- A step that makes no write and executes none. -/
theorem Inv.plain (hi : Inv s) (hc : Careful user s (.sync a)) (hplain : isPlain a = true)
    (hrefuse : ∀ d, a ≠ .refuse d) (h : Replay.Step cfg user s.world a t) :
    Inv { s with world := t } :=
  have hc : CarefulSync user s a := hc
  hi.keeps (keeps_step hplain hi.server h) (serverInv_careful hi hc h)
    (drainInv_step hi.drain hi.server h) (surfacing_world h)
    (hi.carried_step hc hplain hrefuse h)

/-- The handler of a replay writes the map. -/
theorem Inv.commit (hi : Inv s) {i : ℕ} (hc : CarefulSync user s (.commit i))
    (h : Replay.Step cfg user s.world (.commit i) t) : Inv { s with world := t } := by
  have hstep := h
  cases h with
  | commit _ c m hcall hlive hm =>
    have hmem := mem_of_getElem? hcall
    refine hi.put (m := m) (.inr (.inr (.inl ⟨c, hmem, hm⟩))) (hc c hcall m hm) rfl rfl ?_ ?_ ?_
      (serverInv_careful hi hc hstep) (drainInv_step hi.drain hi.server hstep)
      (fun d hd => ⟨d, hd, rfl, rfl⟩)
    · rintro e (he | he | he | he | he | he)
      · exact .inl he
      · exact .inr (.inl he)
      · exact .inr (.inr (.inl he))
      · exact .inr (.inr (.inr (.inl he)))
      · cases he
        exact .inr (.inr (.inl ⟨c, hmem, hm⟩))
      · exact .inr (.inr (.inr (.inr (.inr he))))
    · rintro e (⟨j, hj, c', hc', he⟩ | he)
      · rcases mem_append.mp hj with hj | hj
        · exact .inr (.inl ⟨j, hj, c', hc', he⟩)
        · cases mem_singleton.mp hj
          rw [show s.world.server.calls[i]? = some c' from hc'] at hcall
          cases hcall
          rw [hm] at he
          cases he
          exact .inl rfl
      · exact .inr (.inr he)
    · rintro e (⟨j, hj, hcalls⟩ | he)
      · exact .inl ⟨j, mem_append_left _ hj, hcalls⟩
      · exact .inr he

/-- A direct write is executed. -/
theorem Inv.land (hi : Inv s) (hc : CarefulSync user s (.land d))
    (h : Replay.Step cfg user s.world (.land d) t) : Inv { s with world := t } := by
  have hstep := h
  cases h with
  | land _ x hd hnet =>
    have hx : Held s.world x.entry :=
      .inr (.inr (.inr (.inl ⟨x, mem_of_getElem? hd, rfl⟩)))
    set y : Direct := { x with onNetwork := false, landed := true } with hy
    have hself : y ∈ s.world.directs.set d y := mem_set_self hd y
    refine hi.put (m := x.entry) hx (hc x hd) rfl rfl ?_ ?_ ?_
      (serverInv_careful hi hc hstep) (drainInv_step hi.drain hi.server hstep) ?_
    · rintro e (he | he | he | ⟨z, hz, rfl⟩ | he | he)
      · exact .inl he
      · exact .inr (.inl he)
      · exact .inr (.inr (.inl he))
      · rcases mem_or_eq_of_mem_set hz with hz | rfl
        · exact .inr (.inr (.inr (.inl ⟨z, hz, rfl⟩)))
        · exact hx
      · cases he
        exact hx
      · exact .inr (.inr (.inr (.inr (.inr he))))
    · rintro e (he | ⟨z, hz, hland, rfl⟩)
      · exact .inr (.inl he)
      · rcases mem_or_eq_of_mem_set hz with hz | rfl
        · exact .inr (.inr ⟨z, hz, hland, rfl⟩)
        · exact .inl rfl
    · rintro e (he | ⟨z, hz, hland, rfl⟩)
      · exact .inl he
      · rcases mem_set_or hd hz y with rfl | hz
        · exact .inr ⟨y, hself, rfl, rfl⟩
        · exact .inr ⟨z, hz, hland, rfl⟩
    · intro z hz
      rcases mem_set_or hd hz y with rfl | hz
      · exact ⟨y, hself, rfl, rfl⟩
      · exact ⟨z, hz, rfl, rfl⟩

end Step

/-- Every careful step keeps the invariant. -/
theorem inv_step {cfg : Idempotency.Config} {user : String} {s t : System} {a : Action}
    (hi : Inv s) (hc : Careful user s a) (h : step cfg user s a = some t) : Inv t := by
  cases a with
  | savePick setId priority offlineMode now =>
    cases h
    exact hi.save _ _ _ offlineMode now
  | removePick setId offlineMode now =>
    cases h
    exact hi.save _ _ _ offlineMode now
  | bulkSavePicks setIds priority offlineMode now =>
    cases h
    unfold bulkSavePicks
    dsimp only
    split
    · exact hi
    · exact hi.save _ _ _ offlineMode now
  | sync a =>
    simp only [step] at h
    split at h
    · cases h
    rename_i hwrite
    obtain ⟨w, hw, rfl⟩ := Option.map_eq_some_iff.mp h
    have hstep := Replay.Step.of_step hw
    cases a with
    | enqueue | write => exact absurd rfl hwrite
    | refuse d => exact hi.refuse hstep
    | queueDirect d now => exact hi.queueDirect hc hstep
    | commit i => exact hi.commit hc hstep
    | land d => exact hi.land hc hstep
    | drain | send | refresh | arrive | lose | receive | fail | server | loseDirect | succeed =>
      exact hi.plain hc rfl (fun d h => by cases h) hstep

/-- **Picks converge** in a careful run: whatever calls are made offline and online, whatever the
network loses, delays or delivers, and however often the queue is drained. -/
theorem converged_of_careful (cfg : Idempotency.Config) (user profileId : String) (picks : Picks)
    (failedSync : List FailedSyncItem) (reconciler : Bool) {as : List Action}
    (hcareful : Machine.Meets (step cfg user) (Careful user)
      (start profileId picks failedSync reconciler) as) :
    Machine.Always (step cfg user) Converged (start profileId picks failedSync reconciler) as :=
  Machine.always_of_meets (I := Inv) (fun _ _ _ hi hc h => inv_step hi hc h)
    (fun _ hi => hi.converged) (inv_start profileId picks failedSync reconciler) hcareful

/-! ## Two picks -/

/-- Two sets are picked offline. -/
def twoPicks : List Action :=
  [.savePick "s1" (some .must) true 0, .savePick "s2" (some .maybe) true 1]

/-- The drain replays its next entry, as request number `i` of the server. -/
def replayNext (i : ℕ) (now : ℤ) : List Action :=
  [.sync .send, .sync (.arrive 0 "10.0.0.1" now), .sync (.commit i),
    .sync (.server (.json i ⟨200, .null⟩ now)), .sync (.receive false),
    .sync (.drain (.settle now))]

/-- The two are replayed in order. -/
def replayedInOrder : List Action :=
  twoPicks ++ [.sync (.drain (.start false 2))] ++ replayNext 0 3 ++ replayNext 1 4 ++
    [.sync (.drain .finish)]

/-- The promise on a run that meets the condition. -/
theorem two_picks_converge :
    Machine.Always (step Idempotency.defaultConfig "ana") Converged (start "p1" [] [] false)
      replayedInOrder :=
  converged_of_careful Idempotency.defaultConfig "ana" "p1" [] [] false (by decide)

/-- The first replay is lost, the second succeeds, and the next drain replays the first. -/
def replayedLater : List Action :=
  twoPicks ++
    [.sync (.drain (.start false 2)), .sync .send, .sync (.lose 0), .sync (.fail "timeout" false),
      .sync (.drain (.settle 3))] ++ replayNext 0 4 ++
    [.sync (.drain .finish), .sync (.drain (.start false 5))] ++ replayNext 1 6 ++
    [.sync (.drain .finish)]

/-- **The second pick is gone**: the map of the first one is replayed after that of the second, and
with the queue empty and nothing failed the server has the older map. -/
theorem deferred_pick_overwrites :
    ¬ Machine.Always (step Idempotency.defaultConfig "ana") Converged (start "p1" [] [] false)
      replayedLater := by
  intro h
  obtain ⟨s, hrun, hidle, hqueue, hdirects, hrefused, hrecorded, hpicks⟩ :
      ∃ s, Machine.run (step Idempotency.defaultConfig "ana") (start "p1" [] [] false)
        replayedLater = some s ∧ s.world.client.pc.isIdle = true ∧ s.world.client.queue = [] ∧
          s.world.directs = [] ∧ s.refused = false ∧ s.world.client.recorded = [] ∧
            s.server ≠ s.shown := by
    refine ⟨_, rfl, rfl, ?_, ?_, rfl, ?_, ?_⟩ <;> decide
  refine hpicks ((h.last hrun) ⟨Pc.isIdle_iff.mp hidle, hqueue, fun d hd => ?_⟩
    ⟨hrefused, hrecorded⟩)
  rw [hdirects] at hd
  cases hd

end FestivalPlanner.PickSync
