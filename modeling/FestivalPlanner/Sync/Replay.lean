import FestivalPlanner.Server.Idempotency
import FestivalPlanner.Sync.NoLostUpdate

/-!
# The queue, the network and the middleware together

One client writes one resource.  While offline its writes go through the offline
queue and reach the server as replays that carry an `Idempotency-Key`; while online
`apiRequest` sends them directly, without a key, and queues them when the network
fails.  The server runs the idempotency middleware in front of the handlers.

* `World` — the client's queue, the direct writes, the requests on the wire, the
  server, and the value of the resource;
* `enqueueOfflineMutation` — the `clientId` a queued write gets;
* `replyOf` — what `replay` makes of a response;
* `step` — the machine: requests are sent, lost or delivered in any order, handlers
  commit and answer, replays are answered, refused, aborted, sent again.

The traffic of everyone else runs through the same cache; it does not touch the
resource.
-/

namespace FestivalPlanner.Replay

open Js OfflineQueue Option

/-! ## Requests and responses -/

/-- A mutating call of the API client, as `enqueueOfflineMutation` gets it. -/
structure ApiCall where
  method : QueuedMethod
  path : String
  body : Option Json := none
  clientId : Option String := none
  offlineLabel : Option String := none

/-- `enqueueOfflineMutation`: creates stay distinct by a random id, the other writes
of one path coalesce. -/
def enqueueOfflineMutation (call : ApiCall) (randomId : String) : Mutation where
  clientId := call.clientId.getD
    (if call.method = .post then "POST:" ++ call.path ++ ":" ++ randomId
      else call.method.name ++ ":" ++ call.path)
  url := call.path
  method := call.method
  body := call.body
  label := some (call.offlineLabel.getD (call.method.name ++ " " ++ call.path))

/-- The HTTP method of a queued mutation. -/
def httpMethod : QueuedMethod → Idempotency.Method
  | .post => .post
  | .put => .put
  | .patch => .patch
  | .delete => .delete

/-- The request `replay(m)` makes: the `clientId` is the idempotency key. -/
def replayRequest (user ip : String) (m : QueuedMutation) :
    Idempotency.Request (Option QueuedMutation) where
  method := httpMethod m.method
  idempotencyKey := some m.clientId
  ip := ip
  user := user
  payload := some m

/-- `response.ok`. -/
def isOk (response : Idempotency.Response) : Bool :=
  decide (200 ≤ response.status) && decide (response.status < 300)

/-- The message of an error response. -/
def errorMessage (body : Json) : String :=
  let inner := ((body.field "error").bind (Json.stringField "message")).getD ""
  let outer := (body.stringField "message").getD ""
  if inner ≠ "" then inner else if outer ≠ "" then outer else "Request failed"

/-- The `data` of an enveloped response, else the response. -/
def unwrap (body : Json) : Json :=
  match body.field "data", body.field "error" with
  | some data, some _ => data
  | _, _ => body

/-- What `replay(m)` ends with: only a `POST` hands on the response. -/
def replyOf (m : QueuedMutation) (response : Idempotency.Response) : Reply :=
  if isOk response = true then .ok (if m.method = .post then unwrap response.body else .null)
  else .error (some response.status) (errorMessage response.body)

/-! ## The world -/

/-- A write sent directly. -/
structure Direct where
  entry : QueuedMutation
  /-- Can its request still reach the handler? -/
  onNetwork : Bool
  /-- Was it executed? -/
  landed : Bool
  /-- Does the client still await the outcome? -/
  waiting : Bool

/-- The client, the network, the server and the resource. -/
structure World where
  client : OfflineQueue.State
  directs : List Direct
  /-- The replays on the wire; marked is the one the drain awaits. -/
  wire : List (QueuedMutation × Bool)
  /-- The request at the server the drain awaits. -/
  awaited : Option ℕ
  server : Idempotency.State (Option QueuedMutation)
  /-- The requests whose handler has written the resource. -/
  committed : List ℕ
  /-- The write the resource holds. -/
  value : Option QueuedMutation
  /-- The last write the client made. -/
  latest : Option QueuedMutation

/-- Nothing written yet. -/
def initial (failedSync : List FailedSyncItem) (reconciler : Bool) : World where
  client := OfflineQueue.initial ⟨[], List.nodup_nil⟩ failedSync reconciler
  directs := []
  wire := []
  awaited := none
  server := Idempotency.initial
  committed := []
  value := none
  latest := none

/-- What can happen next. -/
inductive Action where
  /-- The client queues a write. -/
  | enqueue (m : Mutation) (createdAt : Option ℤ) (now : ℤ)
  /-- `drainQueue` starts, settles a reply, or goes on. -/
  | drain (a : OfflineQueue.Action)
  /-- The drain sends the next entry of its snapshot. -/
  | send
  /-- The drain's request was refused with 401 and goes out again with a new token. -/
  | refresh
  /-- A replay on the wire reaches the server. -/
  | arrive (k : ℕ) (ip : String) (now : ℤ)
  /-- A replay on the wire is lost. -/
  | lose (k : ℕ)
  /-- The drain receives the response it awaits. -/
  | receive (offline : Bool)
  /-- The drain gives up waiting: the connection failed or the request timed out. -/
  | fail (message : String) (offline : Bool)
  /-- The handler of a replay writes the resource. -/
  | commit (i : ℕ)
  /-- Anything else that happens at the server. -/
  | server (a : Idempotency.Action (Option QueuedMutation))
  /-- The client makes a write directly. -/
  | write (m : Mutation) (now : ℤ)
  /-- A direct write is executed. -/
  | land (d : ℕ)
  /-- A direct write is lost. -/
  | loseDirect (d : ℕ)
  /-- The client learns that a direct write succeeded. -/
  | succeed (d : ℕ)
  /-- The client learns that a direct write was refused. -/
  | refuse (d : ℕ)
  /-- The client gives up waiting for a direct write and queues it. -/
  | queueDirect (d : ℕ) (now : ℤ)

/-- The request the drain awaits, when it has a response. -/
def World.response (w : World) : Option Idempotency.Response :=
  match w.awaited.bind (fun n => w.server.calls[n]?) with
  | some ⟨_, .answered response _⟩ => some response
  | _ => none

/-- Is this the last write the client made? -/
def World.isLatest (w : World) (entry : QueuedMutation) : Bool :=
  match w.latest with
  | some last => decide (entry.serial = last.serial)
  | none => false

/-- `enqueueMutation`, with the write as the last one made. -/
def queueWrite (m : Mutation) (createdAt : Option ℤ) (now : ℤ) (w : World) : World :=
  { w with
    client := enqueueMutation m createdAt now w.client
    latest := some (newEntry m createdAt now w.client) }

/-- `apiRequest`, online: the write is sent directly. -/
def writeDirect (m : Mutation) (now : ℤ) (w : World) : World :=
  let entry := newEntry m none now w.client
  { w with
    client := { w.client with nextSerial := w.client.nextSerial + 1 }
    directs := w.directs ++ [⟨entry, true, false, true⟩]
    latest := some entry }

/-- Nobody waits for the requests on the wire any more. -/
def forget (wire : List (QueuedMutation × Bool)) : List (QueuedMutation × Bool) :=
  wire.map (fun p => (p.1, false))

/-- Is this a step the drain takes without the network? -/
def isLocal : OfflineQueue.Action → Bool
  | .start _ _ | .settle _ | .record _ | .rewrite _ | .finish => true
  | .enqueue _ _ _ | .send | .reply _ _ => false

/-- May this happen at the server by itself?  A replay arrives from the wire only, and
its handler answers with success only after it has written the resource. -/
def serverMay (w : World) : Idempotency.Action (Option QueuedMutation) → Bool
  | .arrive r _ => r.payload.isNone
  | .json i response _ =>
      match w.server.calls[i]?.bind (fun c => c.request.payload) with
      | some _ => !isOk response || decide (i ∈ w.committed)
      | none => true
  | .resume _ | .close _ | .finish _ | .sweep _ => true

/-- One step of the world; `user` is the client's. -/
def step (cfg : Idempotency.Config) (user : String) (w : World) : Action → Option World
  | .enqueue m createdAt now => some (queueWrite m createdAt now w)
  | .drain a =>
      if isLocal a = true then
        (OfflineQueue.step w.client a).map (fun c => { w with client := c })
      else none
  | .send =>
      match w.client.pc with
      | .looping (m :: _) =>
          (OfflineQueue.step w.client .send).map
            (fun c => { w with client := c, wire := w.wire ++ [(m, true)], awaited := none })
      | _ => none
  | .refresh =>
      match w.client.pc, w.response with
      | .inFlight m _, some response =>
          if response.status = 401 then
            some { w with wire := w.wire ++ [(m, true)], awaited := none }
          else none
      | _, _ => none
  | .arrive k ip now =>
      match w.wire[k]? with
      | some (m, current) =>
          (Idempotency.step cfg w.server (.arrive (replayRequest user ip m) now)).map
            (fun s => { w with
              server := s
              wire := w.wire.eraseIdx k
              awaited := if current then some w.server.calls.length else w.awaited })
      | none => none
  | .lose k => some { w with wire := w.wire.eraseIdx k }
  | .receive offline =>
      match w.client.pc, w.response with
      | .inFlight m _, some response =>
          (OfflineQueue.step w.client (.reply (replyOf m response) offline)).map
            (fun c => { w with client := c, wire := forget w.wire, awaited := none })
      | _, _ => none
  | .fail message offline =>
      (OfflineQueue.step w.client (.reply (.error (some 0) message) offline)).map
        (fun c => { w with client := c, wire := forget w.wire, awaited := none })
  | .commit i =>
      match w.server.calls[i]? with
      | some ⟨r, .running _⟩ =>
          match r.payload with
          | some m => some { w with value := some m, committed := w.committed ++ [i] }
          | none => none
      | _ => none
  | .server a =>
      if serverMay w a = true then
        (Idempotency.step cfg w.server a).map (fun s => { w with server := s })
      else none
  | .write m now => some (writeDirect m now w)
  | .land d =>
      match w.directs[d]? with
      | some ⟨entry, true, _, waiting⟩ =>
          some { w with directs := w.directs.set d ⟨entry, false, true, waiting⟩, value := some entry }
      | _ => none
  | .loseDirect d =>
      match w.directs[d]? with
      | some ⟨entry, true, landed, waiting⟩ =>
          some { w with directs := w.directs.set d ⟨entry, false, landed, waiting⟩ }
      | _ => none
  | .succeed d =>
      match w.directs[d]? with
      | some ⟨entry, onNetwork, true, true⟩ =>
          some { w with directs := w.directs.set d ⟨entry, onNetwork, true, false⟩ }
      | _ => none
  | .refuse d =>
      match w.directs[d]? with
      | some ⟨entry, _, landed, true⟩ =>
          some { w with directs := w.directs.set d ⟨entry, false, landed, false⟩ }
      | _ => none
  | .queueDirect d now =>
      match w.directs[d]? with
      | some ⟨entry, onNetwork, landed, true⟩ =>
          let t := queueWrite entry.toMutation none now
            { w with directs := w.directs.set d ⟨entry, onNetwork, landed, false⟩ }
          -- An older write that is queued now is not the last one made.
          some { t with latest := if w.isLatest entry then t.latest else w.latest }
      | _ => none

/-! ## Spec lemmas -/

theorem response_eq_some {w : World} {response : Idempotency.Response} :
    w.response = some response ↔ ∃ (n : ℕ) (c : Idempotency.Call (Option QueuedMutation)) (j : ℕ),
      w.awaited = some n ∧ w.server.calls[n]? = some c ∧ c.phase = .answered response j := by
  unfold World.response
  constructor
  · intro h
    split at h
    · rename_i r response' j hc
      cases h
      obtain ⟨n, hn, hcall⟩ := bind_eq_some_iff.mp hc
      exact ⟨n, _, j, hn, hcall, rfl⟩
    · cases h
  · rintro ⟨n, ⟨r, phase⟩, j, hn, hc, rfl⟩
    simp [hn, hc]

theorem isLatest_iff {w : World} {l e : QueuedMutation} (hl : w.latest = some l) :
    w.isLatest e = true ↔ e.serial = l.serial := by
  simp [World.isLatest, hl]

theorem mem_forget {wire : List (QueuedMutation × Bool)} {e : QueuedMutation} {marked : Bool} :
    (e, marked) ∈ forget wire ↔ marked = false ∧ ∃ m, (e, m) ∈ wire := by
  constructor
  · intro h
    obtain ⟨⟨e', m⟩, hm, heq⟩ := List.mem_map.mp h
    cases heq
    exact ⟨rfl, m, hm⟩
  · rintro ⟨rfl, m, hm⟩
    exact List.mem_map.mpr ⟨_, hm, rfl⟩

/-! ## What a step can do -/

/-- The steps of the world, as a relation. -/
inductive Step (cfg : Idempotency.Config) (user : String) (w : World) : Action → World → Prop where
  | enqueue (m : Mutation) (createdAt : Option ℤ) (now : ℤ) :
      Step cfg user w (.enqueue m createdAt now) (queueWrite m createdAt now w)
  | drain (a : OfflineQueue.Action) (c : OfflineQueue.State) (hlocal : isLocal a = true)
      (hstep : OfflineQueue.Step w.client a c) :
      Step cfg user w (.drain a) { w with client := c }
  | send (m : QueuedMutation) (rest : List QueuedMutation)
      (hpc : w.client.pc = .looping (m :: rest)) :
      Step cfg user w .send { w with
        client := { w.client.note (.sent m) with pc := .inFlight m rest }
        wire := w.wire ++ [(m, true)]
        awaited := none }
  | refresh (m : QueuedMutation) (rest : List QueuedMutation)
      (hpc : w.client.pc = .inFlight m rest) :
      Step cfg user w .refresh { w with wire := w.wire ++ [(m, true)], awaited := none }
  | arrive (k : ℕ) (m : QueuedMutation) (current : Bool) (ip : String) (now : ℤ)
      (s : Idempotency.State (Option QueuedMutation)) (hk : w.wire[k]? = some (m, current))
      (hstep : Idempotency.Step cfg w.server (.arrive (replayRequest user ip m) now) s) :
      Step cfg user w (.arrive k ip now) { w with
        server := s
        wire := w.wire.eraseIdx k
        awaited := if current then some w.server.calls.length else w.awaited }
  | lose (k : ℕ) : Step cfg user w (.lose k) { w with wire := w.wire.eraseIdx k }
  | receive (m : QueuedMutation) (rest : List QueuedMutation) (response : Idempotency.Response)
      (offline : Bool) (c : OfflineQueue.State) (hpc : w.client.pc = .inFlight m rest)
      (hr : w.response = some response)
      (hstep : OfflineQueue.Step w.client (.reply (replyOf m response) offline) c) :
      Step cfg user w (.receive offline)
        { w with client := c, wire := forget w.wire, awaited := none }
  | fail (message : String) (offline : Bool) (c : OfflineQueue.State)
      (hstep : OfflineQueue.Step w.client (.reply (.error (some 0) message) offline) c) :
      Step cfg user w (.fail message offline)
        { w with client := c, wire := forget w.wire, awaited := none }
  | commit (i : ℕ) (c : Idempotency.Call (Option QueuedMutation)) (m : QueuedMutation)
      (hc : w.server.calls[i]? = some c) (hp : c.phase.isLive = true)
      (hm : c.request.payload = some m) :
      Step cfg user w (.commit i) { w with value := some m, committed := w.committed ++ [i] }
  | server (a : Idempotency.Action (Option QueuedMutation))
      (s : Idempotency.State (Option QueuedMutation)) (hmay : serverMay w a = true)
      (hstep : Idempotency.Step cfg w.server a s) :
      Step cfg user w (.server a) { w with server := s }
  | write (m : Mutation) (now : ℤ) : Step cfg user w (.write m now) (writeDirect m now w)
  | land (d : ℕ) (x : Direct) (hd : w.directs[d]? = some x) (hnet : x.onNetwork = true) :
      Step cfg user w (.land d) { w with
        directs := w.directs.set d { x with onNetwork := false, landed := true }
        value := some x.entry }
  | loseDirect (d : ℕ) (x : Direct) (hd : w.directs[d]? = some x) :
      Step cfg user w (.loseDirect d)
        { w with directs := w.directs.set d { x with onNetwork := false } }
  | succeed (d : ℕ) (x : Direct) (hd : w.directs[d]? = some x) (hland : x.landed = true) :
      Step cfg user w (.succeed d)
        { w with directs := w.directs.set d { x with waiting := false } }
  | refuse (d : ℕ) (x : Direct) (hd : w.directs[d]? = some x) :
      Step cfg user w (.refuse d)
        { w with directs := w.directs.set d { x with onNetwork := false, waiting := false } }
  | queueDirect (d : ℕ) (x : Direct) (now : ℤ) (hd : w.directs[d]? = some x) (t : World)
      (ht : t = queueWrite x.entry.toMutation none now
        { w with directs := w.directs.set d { x with waiting := false } }) :
      Step cfg user w (.queueDirect d now)
        { t with latest := if w.isLatest x.entry then t.latest else w.latest }

/-- Every step of the world is one of these. -/
theorem Step.of_step {cfg : Idempotency.Config} {user : String} {w t : World} {a : Action}
    (h : step cfg user w a = some t) : Step cfg user w a t := by
  cases a with
  | enqueue m createdAt now =>
    cases h
    exact .enqueue m createdAt now
  | drain a =>
    simp only [step] at h
    split at h
    · rename_i hlocal
      obtain ⟨c, hc, rfl⟩ := map_eq_some_iff.mp h
      exact .drain a c hlocal (.of_step hc)
    · cases h
  | send =>
    simp only [step] at h
    split at h
    · rename_i m rest hpc
      simp only [OfflineQueue.step, hpc] at h
      cases h
      exact .send m rest hpc
    · cases h
  | refresh =>
    simp only [step] at h
    split at h
    · rename_i m rest response hpc hr
      split at h
      · cases h
        exact .refresh m rest hpc
      · cases h
    · cases h
  | arrive k ip now =>
    simp only [step] at h
    split at h
    · rename_i m current hk
      obtain ⟨s, hs, rfl⟩ := map_eq_some_iff.mp h
      exact .arrive k m current ip now s hk (.of_step hs)
    · cases h
  | lose k =>
    cases h
    exact .lose k
  | receive offline =>
    simp only [step] at h
    split at h
    · rename_i m rest response hpc hr
      obtain ⟨c, hc, rfl⟩ := map_eq_some_iff.mp h
      exact .receive m rest response offline c hpc hr (.of_step hc)
    · cases h
  | fail message offline =>
    obtain ⟨c, hc, rfl⟩ := map_eq_some_iff.mp h
    exact .fail message offline c (.of_step hc)
  | commit i =>
    simp only [step] at h
    split at h
    · rename_i r attached hc
      split at h
      · rename_i m hm
        cases h
        exact .commit i _ m hc rfl hm
      · cases h
    · cases h
  | server a =>
    simp only [step] at h
    split at h
    · rename_i hmay
      obtain ⟨s, hs, rfl⟩ := map_eq_some_iff.mp h
      exact .server a s hmay (.of_step hs)
    · cases h
  | write m now =>
    cases h
    exact .write m now
  | land d =>
    simp only [step] at h
    split at h
    · rename_i entry landed waiting hd
      cases h
      exact .land d _ hd rfl
    · cases h
  | loseDirect d =>
    simp only [step] at h
    split at h
    · rename_i entry landed waiting hd
      cases h
      exact .loseDirect d _ hd
    · cases h
  | succeed d =>
    simp only [step] at h
    split at h
    · rename_i entry onNetwork hd
      cases h
      exact .succeed d _ hd rfl
    · cases h
  | refuse d =>
    simp only [step] at h
    split at h
    · rename_i entry onNetwork landed hd
      cases h
      exact .refuse d _ hd
    · cases h
  | queueDirect d now =>
    simp only [step] at h
    split at h
    · rename_i entry onNetwork landed hd
      cases h
      exact .queueDirect d _ now hd _ rfl
    · cases h

end FestivalPlanner.Replay
