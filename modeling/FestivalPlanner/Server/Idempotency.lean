import FestivalPlanner.Lib.History
import FestivalPlanner.Lib.Js
import FestivalPlanner.Lib.Keyed
import FestivalPlanner.Lib.Machine

/-!
# The idempotency middleware

`createIdempotencyMiddleware` of `lib/middleware.ts`: a mutation that carries an
`Idempotency-Key` reserves a slot of an in-memory cache before its handler runs; a
duplicate waits for the first or gets its response again.

* `Request`, `cacheKey` — what the middleware reads, and the key it builds;
* `Slot`, `evict`, `sweep` — the cache: a `Map` in insertion order;
* `Phase` — where a request is: waiting, executing, answered;
* `step` — the machine: requests arrive, handlers answer or end without a JSON body,
  clients disconnect, the timer sweeps;
* `Event` — the history, kept for the statements only.

Node runs one callback at a time.  The callbacks of a settled promise are
microtasks: they run before the next request, disconnection or sweep is seen.
-/

namespace FestivalPlanner.Idempotency

open Js List Keyed

/-! ## Requests -/

/-- The HTTP method. -/
inductive Method where
  | get | head | options | post | put | patch | delete
  deriving DecidableEq, Repr

/-- What the middleware reads of a request.  `user` is the user the session belongs
to; `payload` stands for the path and the body, which the middleware never reads. -/
structure Request (π : Type*) where
  method : Method
  idempotencyKey : Option String
  ip : String
  user : String
  payload : π

/-- The layers a mutation under `/api/v1` goes through. -/
inductive Layer where
  | idempotency | userAuth | handler
  deriving DecidableEq

/-- The order they are mounted in: the middleware by `configureMiddleware`, `userAuth`
by each route. -/
def mountOrder : List Layer := [.idempotency, .userAuth, .handler]

/-- `req.user?.userId` as a layer sees it: set once `userAuth` has run. -/
def reqUserAt (layer : Layer) (user : String) : Option String :=
  if Layer.userAuth ∈ mountOrder.takeWhile (fun l => l ≠ layer) then some user else none

/-- `req.user?.userId || req.ip`. -/
def userIdOf (reqUser : Option String) (ip : String) : String :=
  match reqUser with
  | some userId => if userId ≠ "" then userId else ip
  | none => ip

/-- The key of the cache slot; `none` when the middleware lets the request pass. -/
def Request.cacheKey {π : Type*} (r : Request π) : Option String :=
  match r.method with
  | .get | .head | .options => none
  | _ =>
      match r.idempotencyKey with
      | none => none
      | some key =>
          if key = "" ∨ 128 < key.length then none
          else some (userIdOf (reqUserAt .idempotency r.user) r.ip ++ ":" ++ key)

/-- A JSON response. -/
structure Response where
  status : ℕ
  body : Json

/-! ## The cache -/

/-- What a slot holds.  The request that made it is named by its number. -/
inductive Entry where
  /-- A reservation: the handler of this request is to answer. -/
  | pending (reservedBy : ℕ)
  /-- The response of this request. -/
  | record (response : Response) (computedBy : ℕ)

/-- A slot of the cache. -/
structure Slot where
  key : String
  entry : Entry
  ts : ℤ

/-- Is it a reservation? -/
def Slot.isPending (slot : Slot) : Bool :=
  match slot.entry with
  | .pending _ => true
  | .record _ _ => false

/-- The request that made the slot. -/
def Slot.owner (slot : Slot) : ℕ :=
  match slot.entry with
  | .pending i => i
  | .record _ i => i

/-- The parameters of `createIdempotencyMiddleware`. -/
structure Config where
  ttl : ℤ
  maxEntries : ℕ

/-- The values `configureMiddleware` passes: five minutes, 5000 entries. -/
def defaultConfig : Config := ⟨5 * 60 * 1000, 5000⟩

/-- Make room for a response: drop the oldest slot of a full cache. -/
@[grind =] def evict (cfg : Config) (cache : List Slot) : List Slot :=
  if cfg.maxEntries ≤ cache.length then cache.tail else cache

/-- Drop the slot of a key when it still holds this request's reservation. -/
@[grind =] def dropOwn (i : ℕ) (key : String) (cache : List Slot) : List Slot :=
  match lookup Slot.key key cache with
  | some ⟨_, .pending j, _⟩ => if j = i then erase Slot.key key cache else cache
  | _ => cache

/-! ## The state -/

/-- Where a request is. -/
inductive Phase where
  /-- It waits for the outcome of another request. -/
  | waiting (on : ℕ)
  /-- That one ended without a response: it executes next. -/
  | released
  /-- Its handler executes; `attached` until its client disconnects. -/
  | running (attached : Bool)
  /-- It got a response, computed by this request. -/
  | answered (response : Response) (computedBy : ℕ)
  /-- It ended without a JSON response, or without anyone to receive one. -/
  | ended

/-- Does it wait for this request? -/
@[grind =] def Phase.waitsOn (i : ℕ) : Phase → Bool
  | waiting j => decide (j = i)
  | _ => false

/-- Does its handler execute although its client has disconnected? -/
def Phase.isAborted : Phase → Bool
  | running attached => !attached
  | _ => false

/-- Does its handler execute? -/
def Phase.isRunning : Phase → Bool
  | running _ => true
  | _ => false

/-- May its handler still execute? -/
def Phase.isLive : Phase → Bool
  | waiting _ | released | running _ => true
  | answered _ _ | ended => false

/-- The request its response comes from, or will come from. -/
def Phase.source? : Phase → Option ℕ
  | waiting j => some j
  | answered _ j => some j
  | released | running _ | ended => none

/-- The phase of a request that finds the slot in use. -/
def Slot.joined (slot : Slot) : Phase :=
  match slot.entry with
  | .pending j => .waiting j
  | .record response j => .answered response j

/-- A request and where it is. -/
structure Call (π : Type*) where
  request : Request π
  phase : Phase

/-- The key whose handler this call executes. -/
def Call.executingKey {π : Type*} (c : Call π) : Option String :=
  if c.phase.isRunning = true then c.request.cacheKey else none

/-- The history of a run. -/
inductive Event where
  /-- The handler of this request started. -/
  | started (i : ℕ) (key : String) (now : ℤ)
  /-- It completed with a JSON response. -/
  | completed (i : ℕ) (key : String) (response : Response) (now : ℤ)

/-- The cache, the requests in the order they arrived, the microtasks to run, and the
history. -/
structure State (π : Type*) where
  cache : List Slot
  calls : List (Call π)
  microtasks : List ℕ
  log : List Event

/-- Nothing has arrived yet. -/
def initial {π : Type*} : State π := ⟨[], [], [], []⟩

/-! ## The operations -/

variable {π : Type*}

/-- A new request in its first phase. -/
def State.push (s : State π) (r : Request π) (phase : Phase) : State π :=
  { s with calls := s.calls ++ [⟨r, phase⟩] }

/-- Put a request into a phase. -/
def setPhase (i : ℕ) (phase : Phase) (calls : List (Call π)) : List (Call π) :=
  calls.modify i (fun c => { c with phase := phase })

/-- The requests that wait for this one, in the order they arrived. -/
def waiters (i : ℕ) (calls : List (Call π)) : List ℕ :=
  (List.range calls.length).filter
    (fun j => (calls[j]?.map (fun c => c.phase.waitsOn i)).getD false)

/-- `resolveSettled`: every waiter of the request goes on to this phase. -/
def settleWaiters (i : ℕ) (phase : Phase) (calls : List (Call π)) : List (Call π) :=
  calls.map (fun c => if c.phase.waitsOn i = true then { c with phase := phase } else c)

/-- The start of `run`: reserve the slot and call the handler. -/
def reserve (i : ℕ) (key : String) (now : ℤ) (s : State π) : State π :=
  { s with
    cache := upsert Slot.key ⟨key, .pending i, now⟩ s.cache
    log := s.log ++ [.started i key now] }

/-- `res.json`: store the response and, when the promise is not settled yet, hand it
to the waiters. -/
@[grind =] def sendJson (cfg : Config) (i : ℕ) (r : Request π) (attached : Bool) (response : Response)
    (now : ℤ) (s : State π) : State π :=
  let own := setPhase i (if attached then .answered response i else .ended) s.calls
  match r.cacheKey with
  | none => { s with calls := own }
  | some key =>
      { s with
        cache := upsert Slot.key ⟨key, .record response i, now⟩ (evict cfg s.cache)
        calls := if attached then settleWaiters i (.answered response i) own else own
        log := s.log ++ [.completed i key response now] }

/-- `onEnd`: drop the reservation and let the waiters execute. -/
@[grind =] def onEnd (i : ℕ) (r : Request π) (s : State π) : State π :=
  match r.cacheKey with
  | none => s
  | some key =>
      { s with
        cache := dropOwn i key s.cache
        calls := settleWaiters i .released s.calls
        microtasks := s.microtasks ++ waiters i s.calls }

/-! ## The machine -/

/-- What can happen next; a request is addressed by its number. -/
inductive Action (π : Type*) where
  /-- A request reaches the middleware. -/
  | arrive (r : Request π) (now : ℤ)
  /-- The callback of a released waiter runs. -/
  | resume (now : ℤ)
  /-- The handler answers with `res.json`. -/
  | json (i : ℕ) (response : Response) (now : ℤ)
  /-- The client disconnects while the handler executes. -/
  | close (i : ℕ)
  /-- The handler ends without a JSON body. -/
  | finish (i : ℕ)
  /-- The timer of the cache fires. -/
  | sweep (now : ℤ)

/-- The time an action reads from the clock. -/
def Action.now? : Action π → Option ℤ
  | arrive _ now | resume now | json _ _ now | sweep now => some now
  | close _ | finish _ => none

/-- The middleware, called with a request. -/
def middleware (r : Request π) (now : ℤ) (s : State π) : State π :=
  match r.cacheKey with
  | none => s.push r (.running true)
  | some key =>
      match lookup Slot.key key s.cache with
      | none => reserve s.calls.length key now (s.push r (.running true))
      | some ⟨_, .record response computedBy, _⟩ => s.push r (.answered response computedBy)
      | some ⟨_, .pending j, _⟩ => s.push r (.waiting j)

/-- One step of the server: `none` when the action is not enabled. -/
def step (cfg : Config) (s : State π) : Action π → Option (State π)
  | .arrive r now => if s.microtasks = [] then some (middleware r now s) else none
  | .resume now =>
      match s.microtasks with
      | [] => none
      | i :: rest =>
          match s.calls[i]? with
          | some ⟨r, .released⟩ =>
              match r.cacheKey with
              | some key =>
                  some (reserve i key now
                    { s with calls := setPhase i (.running true) s.calls, microtasks := rest })
              | none => none
          | _ => none
  | .json i response now =>
      match s.calls[i]? with
      | some ⟨r, .running attached⟩ => some (sendJson cfg i r attached response now s)
      | _ => none
  | .close i =>
      if s.microtasks = [] then
        match s.calls[i]? with
        | some ⟨r, .running true⟩ =>
            some (onEnd i r { s with calls := setPhase i (.running false) s.calls })
        | _ => none
      else none
  | .finish i =>
      match s.calls[i]? with
      | some ⟨r, .running true⟩ => some (onEnd i r { s with calls := setPhase i .ended s.calls })
      | some ⟨_, .running false⟩ => some { s with calls := setPhase i .ended s.calls }
      | _ => none
  | .sweep now =>
      if s.microtasks = [] then
        some { s with cache := s.cache.filter (fun slot => !decide (cfg.ttl < now - slot.ts)) }
      else none

/-- The server with a clock that only advances. -/
abbrev timedStep (cfg : Config) : State π × ℤ → Action π → Option (State π × ℤ) :=
  Machine.clocked Action.now? (step cfg)

/-! ## Spec lemmas -/

variable {phase : Phase} {slot : Slot} {cache : List Slot} {key : String}

section Spec

variable {calls : List (Call π)} {i j : ℕ} {c : Call π}

/-- A list with one more element. -/
theorem getElem?_push_iff {c' : Call π} :
    (calls ++ [c'])[j]? = some c ↔ calls[j]? = some c ∨ (j = calls.length ∧ c = c') := by
  rw [getElem?_append]
  split
  · rename_i hj
    exact ⟨.inl, fun h => h.resolve_right fun h => absurd h.1 (by omega)⟩
  · rename_i hj
    rw [getElem?_eq_none (by omega : calls.length ≤ j)]
    by_cases h : j = calls.length
    · subst h
      simp [eq_comm]
    · have : ¬j - calls.length = 0 := by omega
      simp [h, this]

/-- What `setPhase` leaves. -/
theorem getElem?_setPhase_iff :
    (setPhase i phase calls)[j]? = some c ↔
      ∃ c₀, calls[j]? = some c₀ ∧ c = if j = i then { c₀ with phase := phase } else c₀ := by
  rw [setPhase, getElem?_modify]
  cases h : calls[j]? with
  | none => simp
  | some c₀ =>
    by_cases hij : j = i
    · simp [hij, eq_comm]
    · simp [hij, Ne.symm hij, eq_comm]

/-- What `settleWaiters` leaves. -/
theorem getElem?_settleWaiters_iff :
    (settleWaiters i phase calls)[j]? = some c ↔
      ∃ c₀, calls[j]? = some c₀ ∧
        c = if c₀.phase.waitsOn i = true then { c₀ with phase := phase } else c₀ := by
  rw [settleWaiters, getElem?_map, Option.map_eq_some_iff]
  exact exists_congr fun c₀ => and_congr_right fun _ => eq_comm

theorem mem_waiters_iff : j ∈ waiters i calls ↔ ∃ c, calls[j]? = some c ∧ c.phase = .waiting i := by
  rw [waiters, mem_filter, mem_range]
  constructor
  · rintro ⟨hj, h⟩
    rw [getElem?_eq_getElem hj] at h
    refine ⟨_, getElem?_eq_getElem hj, ?_⟩
    simp only [Option.map_some, Option.getD_some] at h
    cases hp : calls[j].phase with
    | waiting k =>
      rw [hp] at h
      rw [of_decide_eq_true h]
    | released | running | answered | ended =>
      rw [hp] at h
      cases h
  · rintro ⟨c, hc, hp⟩
    refine ⟨(List.getElem?_eq_some_iff.mp hc).1, ?_⟩
    simp [hc, hp, Phase.waitsOn]

theorem waitsOn_eq_true (h : phase.waitsOn i = true) : phase = .waiting i := by
  cases phase with
  | waiting j => rw [of_decide_eq_true h]
  | released | running | answered | ended => cases h

end Spec

/-- A request that finds a slot in use gets its response from the one that made it. -/
theorem joined_source (slot : Slot) : slot.joined.source? = some slot.owner := by
  obtain ⟨key, entry, ts⟩ := slot
  cases entry <;> rfl

theorem joined_answered {response : Response} {j : ℕ} (h : slot.joined = .answered response j) :
    slot.entry = .record response j := by
  obtain ⟨key, entry, ts⟩ := slot
  cases entry with
  | pending i => cases h
  | record response' i =>
    cases h
    rfl

/-- The slots an eviction leaves. -/
theorem mem_of_mem_evict {cfg : Config} (h : slot ∈ evict cfg cache) : slot ∈ cache := by
  rw [evict] at h
  split at h
  · exact mem_of_mem_tail h
  · exact h

/-- A slot survives an eviction, or was the oldest of a full cache. -/
theorem mem_evict_or_head {cfg : Config} (h : slot ∈ cache) :
    slot ∈ evict cfg cache ∨ (cfg.maxEntries ≤ cache.length ∧ cache.head? = some slot) := by
  rw [evict]
  split
  · rename_i hfull
    cases cache with
    | nil => cases h
    | cons x cache =>
      rcases mem_cons.mp h with rfl | h
      · exact .inr ⟨hfull, rfl⟩
      · exact .inl h
  · exact .inl h

theorem uniqueKeys_evict (cfg : Config) (h : UniqueKeys Slot.key cache) :
    UniqueKeys Slot.key (evict cfg cache) := by
  rw [evict]
  split
  · exact h.sublist ((tail_sublist cache).map Slot.key)
  · exact h

/-- With unique keys, the request's own reservation is dropped and nothing else. -/
theorem mem_dropOwn_iff {i : ℕ} (h : UniqueKeys Slot.key cache) :
    slot ∈ dropOwn i key cache ↔ slot ∈ cache ∧ ¬(slot.key = key ∧ slot.entry = .pending i) := by
  rw [dropOwn]
  split
  · rename_i k j ts hl
    obtain ⟨hmem, hk⟩ := mem_of_lookup hl
    split
    · rename_i hj
      subst hj
      rw [mem_erase]
      refine and_congr_right fun hs => ?_
      refine ⟨fun hne h => hne h.1, fun hnot hkey => hnot ⟨hkey, ?_⟩⟩
      rw [h.eq_of_mem hs hmem (hkey.trans hk.symm)]
    · rename_i hj
      refine ⟨fun hs => ⟨hs, fun ⟨hkey, he⟩ => ?_⟩, And.left⟩
      rw [h.eq_of_mem hs hmem (hkey.trans hk.symm)] at he
      cases he
      exact hj rfl
  · rename_i hnot
    refine ⟨fun hs => ⟨hs, fun ⟨hkey, he⟩ => ?_⟩, And.left⟩
    cases hl : lookup Slot.key key cache with
    | none => exact lookup_eq_none.mp hl slot hs hkey
    | some slot' =>
      obtain ⟨hmem, hk⟩ := mem_of_lookup hl
      rw [h.eq_of_mem hmem hs (hk.trans hkey.symm)] at hl
      obtain ⟨k, e, ts⟩ := slot
      cases he
      exact hnot _ _ _ hl

theorem mem_of_mem_dropOwn {i : ℕ} (h : slot ∈ dropOwn i key cache) : slot ∈ cache := by
  rw [dropOwn] at h
  split at h
  · split at h
    · exact (mem_erase.mp h).1
    · exact h
  · exact h

theorem uniqueKeys_dropOwn {i : ℕ} (h : UniqueKeys Slot.key cache) :
    UniqueKeys Slot.key (dropOwn i key cache) := by
  rw [dropOwn]
  split
  · split
    · exact h.erase key
    · exact h
  · exact h

/-! ## What a step can do -/

/-- The steps of the server, as a relation. -/
inductive Step (cfg : Config) (s : State π) : Action π → State π → Prop where
  /-- The middleware does not apply. -/
  | pass (r : Request π) (now : ℤ) (hidle : s.microtasks = []) (hk : r.cacheKey = none) :
      Step cfg s (.arrive r now) (s.push r (.running true))
  /-- The slot is free: the handler starts. -/
  | start (r : Request π) (now : ℤ) (key : String) (hidle : s.microtasks = [])
      (hk : r.cacheKey = some key) (hfree : lookup Slot.key key s.cache = none) :
      Step cfg s (.arrive r now) (reserve s.calls.length key now (s.push r (.running true)))
  /-- The slot holds a response: it is replayed. -/
  | replay (r : Request π) (now : ℤ) (key : String) (response : Response) (j : ℕ) (ts : ℤ)
      (hidle : s.microtasks = []) (hk : r.cacheKey = some key)
      (hslot : lookup Slot.key key s.cache = some ⟨key, .record response j, ts⟩) :
      Step cfg s (.arrive r now) (s.push r (.answered response j))
  /-- The slot is reserved: the request waits. -/
  | wait (r : Request π) (now : ℤ) (key : String) (j : ℕ) (ts : ℤ) (hidle : s.microtasks = [])
      (hk : r.cacheKey = some key)
      (hslot : lookup Slot.key key s.cache = some ⟨key, .pending j, ts⟩) :
      Step cfg s (.arrive r now) (s.push r (.waiting j))
  | resume (i : ℕ) (rest : List ℕ) (c : Call π) (key : String) (now : ℤ)
      (hq : s.microtasks = i :: rest) (hc : s.calls[i]? = some c) (hp : c.phase = .released)
      (hk : c.request.cacheKey = some key) :
      Step cfg s (.resume now) (reserve i key now
        { s with calls := setPhase i (.running true) s.calls, microtasks := rest })
  | json (i : ℕ) (c : Call π) (attached : Bool) (response : Response) (now : ℤ)
      (hc : s.calls[i]? = some c) (hp : c.phase = .running attached) :
      Step cfg s (.json i response now) (sendJson cfg i c.request attached response now s)
  | close (i : ℕ) (c : Call π) (hidle : s.microtasks = []) (hc : s.calls[i]? = some c)
      (hp : c.phase = .running true) :
      Step cfg s (.close i)
        (onEnd i c.request { s with calls := setPhase i (.running false) s.calls })
  | finish (i : ℕ) (c : Call π) (hc : s.calls[i]? = some c) (hp : c.phase = .running true) :
      Step cfg s (.finish i) (onEnd i c.request { s with calls := setPhase i .ended s.calls })
  /-- The handler of a disconnected client ends. -/
  | abandon (i : ℕ) (c : Call π) (hc : s.calls[i]? = some c) (hp : c.phase = .running false) :
      Step cfg s (.finish i) { s with calls := setPhase i .ended s.calls }
  | sweep (now : ℤ) (hidle : s.microtasks = []) :
      Step cfg s (.sweep now)
        { s with cache := s.cache.filter (fun slot => !decide (cfg.ttl < now - slot.ts)) }

/-- Every step of the server is one of these. -/
theorem Step.of_step {cfg : Config} {s t : State π} {a : Action π} (h : step cfg s a = some t) :
    Step cfg s a t := by
  cases a with
  | arrive r now =>
    simp only [step] at h
    split at h
    · rename_i hidle
      cases h
      rw [middleware]
      split
      · rename_i hk
        exact .pass r now hidle hk
      · rename_i key hk
        split
        · rename_i hfree
          exact .start r now key hidle hk hfree
        · rename_i k response j ts hl
          obtain ⟨-, rfl⟩ := mem_of_lookup hl
          exact .replay r now k response j ts hidle hk hl
        · rename_i k j ts hl
          obtain ⟨-, rfl⟩ := mem_of_lookup hl
          exact .wait r now k j ts hidle hk hl
    · cases h
  | resume now =>
    simp only [step] at h
    split at h
    · cases h
    · rename_i i rest hq
      split at h
      · rename_i r hc
        split at h
        · rename_i key hk
          cases h
          exact .resume i rest _ key now hq hc rfl hk
        · cases h
      · cases h
  | json i response now =>
    simp only [step] at h
    split at h
    · rename_i r attached hc
      cases h
      exact .json i _ attached response now hc rfl
    · cases h
  | close i =>
    simp only [step] at h
    split at h
    · rename_i hidle
      split at h
      · rename_i r hc
        cases h
        exact .close i _ hidle hc rfl
      · cases h
    · cases h
  | finish i =>
    simp only [step] at h
    split at h
    · rename_i r hc
      cases h
      exact .finish i _ hc rfl
    · rename_i r hc
      cases h
      exact .abandon i _ hc rfl
    · cases h
  | sweep now =>
    simp only [step] at h
    split at h
    · rename_i hidle
      cases h
      exact .sweep now hidle
    · cases h

/-! ## What a step does to a request, and to a slot -/

/-- What request number `j` is after a step. -/
inductive CallStep (s : State π) (a : Action π) (j : ℕ) : Call π → Prop where
  /-- What it was. -/
  | same {c : Call π} (h : s.calls[j]? = some c) : CallStep s a j c
  /-- It goes on to a phase without a response. -/
  | moved {c : Call π} {phase : Phase} (h : s.calls[j]? = some c)
      (hlive : c.phase.isLive = true) (hphase : phase.source? = none) :
      CallStep s a j { c with phase := phase }
  /-- It is answered, by its own handler or by the one it waits for. -/
  | answered {c d : Call π} {i : ℕ} {response : Response} {now : ℤ}
      (ha : a = .json i response now) (hd : s.calls[i]? = some d)
      (h : s.calls[j]? = some c) (hlive : c.phase.isLive = true)
      (hj : j = i ∨ c.phase = .waiting i ∧ ∃ key, d.request.cacheKey = some key) :
      CallStep s a j { c with phase := .answered response i }
  /-- It arrives and executes. -/
  | starts {r : Request π} {now : ℤ} (ha : a = .arrive r now) (hj : j = s.calls.length) :
      CallStep s a j ⟨r, .running true⟩
  /-- It arrives and finds its slot in use. -/
  | joins {r : Request π} {now : ℤ} {key : String} {slot : Slot} (ha : a = .arrive r now)
      (hj : j = s.calls.length) (hk : r.cacheKey = some key)
      (hslot : lookup Slot.key key s.cache = some slot) :
      CallStep s a j ⟨r, slot.joined⟩

/-- Where a slot comes from after a step. -/
inductive SlotStep (s : State π) (a : Action π) : Slot → Prop where
  | same {slot : Slot} (h : slot ∈ s.cache) : SlotStep s a slot
  /-- A handler starts. -/
  | reserved {key : String} {i : ℕ} {ts : ℤ}
      (hi : (∃ c, s.calls[i]? = some c) ∨ i = s.calls.length ∧ ∃ r now, a = .arrive r now) :
      SlotStep s a ⟨key, .pending i, ts⟩
  /-- A handler answers. -/
  | recorded {key : String} {i : ℕ} {c : Call π} {response : Response} {now : ℤ}
      (ha : a = .json i response now) (hc : s.calls[i]? = some c)
      (hk : c.request.cacheKey = some key) :
      SlotStep s a ⟨key, .record response i, now⟩

section Effect

variable {cfg : Config} {s t : State π} {a : Action π}

theorem callStep_setPhase {i j : ℕ} {c c' : Call π} (hc : s.calls[i]? = some c)
    (hlive : c.phase.isLive = true) (hphase : phase.source? = none)
    (h : (setPhase i phase s.calls)[j]? = some c') : CallStep s a j c' := by
  obtain ⟨c₀, hc₀, rfl⟩ := getElem?_setPhase_iff.mp h
  split
  · rename_i hj
    subst hj
    rw [hc] at hc₀
    cases hc₀
    exact .moved hc hlive hphase
  · exact .same hc₀

theorem callStep_push {j : ℕ} {c : Call π} {r : Request π}
    (hnew : CallStep s a s.calls.length ⟨r, phase⟩) (h : (s.push r phase).calls[j]? = some c) :
    CallStep s a j c := by
  rcases getElem?_push_iff.mp h with h | ⟨rfl, rfl⟩
  · exact .same h
  · exact hnew

theorem callStep_onEnd {i j : ℕ} {c c' : Call π} (hc : s.calls[i]? = some c)
    (hlive : c.phase.isLive = true) (hphase : phase.source? = none)
    (h : (onEnd i c.request { s with calls := setPhase i phase s.calls }).calls[j]? = some c') :
    CallStep s a j c' := by
  rw [onEnd] at h
  split at h
  · exact callStep_setPhase hc hlive hphase h
  · obtain ⟨c₁, hc₁, rfl⟩ := getElem?_settleWaiters_iff.mp h
    split
    · rename_i hw
      obtain ⟨c₀, hc₀, rfl⟩ := getElem?_setPhase_iff.mp hc₁
      split at hw
      · rw [show phase = .waiting i from waitsOn_eq_true hw] at hphase
        cases hphase
      · rename_i hj
        rw [if_neg hj]
        exact .moved hc₀ (by rw [waitsOn_eq_true hw]; rfl) rfl
    · exact callStep_setPhase hc hlive hphase hc₁

theorem callStep_sendJson {i j : ℕ} {c c' : Call π} {attached : Bool} {response : Response}
    {now : ℤ} (hc : s.calls[i]? = some c) (hp : c.phase = .running attached)
    (h : (sendJson cfg i c.request attached response now s).calls[j]? = some c') :
    CallStep s (.json i response now) j c' := by
  have hlive : c.phase.isLive = true := by rw [hp]; rfl
  -- The answering request itself.
  have hown : ∀ {c' : Call π},
      (setPhase i (if attached then .answered response i else .ended) s.calls)[j]? = some c' →
      CallStep s (.json i response now) j c' := by
    intro c' h
    cases attached with
    | false => exact callStep_setPhase hc hlive rfl h
    | true =>
      obtain ⟨c₀, hc₀, rfl⟩ := getElem?_setPhase_iff.mp h
      split
      · rename_i hj
        subst hj
        rw [hc] at hc₀
        cases hc₀
        exact .answered rfl hc hc hlive (.inl rfl)
      · exact .same hc₀
  rw [sendJson] at h
  split at h
  · exact hown h
  · rename_i key hk
    cases attached with
    | false => exact hown h
    | true =>
      have h : (settleWaiters i (.answered response i)
        (setPhase i (.answered response i) s.calls))[j]? = some c' := h
      obtain ⟨c₁, hc₁, rfl⟩ := getElem?_settleWaiters_iff.mp h
      split
      · rename_i hw
        obtain ⟨c₀, hc₀, rfl⟩ := getElem?_setPhase_iff.mp hc₁
        split at hw
        · cases hw
        · rename_i hj
          rw [if_neg hj]
          have hw := waitsOn_eq_true hw
          exact .answered rfl hc hc₀ (by rw [hw]; rfl) (.inr ⟨hw, key, hk⟩)
      · exact hown hc₁

/-- Every request after a step is one of these. -/
theorem Step.callStep (h : Step cfg s a t) {j : ℕ} {c : Call π} (hc : t.calls[j]? = some c) :
    CallStep s a j c := by
  cases h with
  | pass r now hidle hk => exact callStep_push (.starts rfl rfl) hc
  | start r now key hidle hk hfree => exact callStep_push (.starts rfl rfl) hc
  | replay r now key response i ts hidle hk hslot =>
    exact callStep_push (.joins rfl rfl hk hslot) hc
  | wait r now key i ts hidle hk hslot => exact callStep_push (.joins rfl rfl hk hslot) hc
  | resume i rest c₀ key now hq hc₀ hp hk => exact callStep_setPhase hc₀ (by rw [hp]; rfl) rfl hc
  | json i c₀ attached response now hc₀ hp => exact callStep_sendJson hc₀ hp hc
  | close i c₀ hidle hc₀ hp => exact callStep_onEnd hc₀ (by rw [hp]; rfl) rfl hc
  | finish i c₀ hc₀ hp => exact callStep_onEnd hc₀ (by rw [hp]; rfl) rfl hc
  | abandon i c₀ hc₀ hp => exact callStep_setPhase hc₀ (by rw [hp]; rfl) rfl hc
  | sweep now hidle => exact .same hc

/-- Every slot after a step is one of these. -/
theorem Step.slotStep (h : Step cfg s a t) (hslot : slot ∈ t.cache) : SlotStep s a slot := by
  cases h with
  | pass | replay | wait | abandon => exact .same hslot
  | start r now key hidle hk hfree =>
    rcases mem_or_eq_of_mem_upsert hslot with rfl | hslot
    · exact .reserved (.inr ⟨rfl, r, now, rfl⟩)
    · exact .same hslot
  | resume i rest c key now hq hc hp hk =>
    rcases mem_or_eq_of_mem_upsert hslot with rfl | hslot
    · exact .reserved (.inl ⟨c, hc⟩)
    · exact .same hslot
  | json i c attached response now hc hp =>
    rw [sendJson] at hslot
    split at hslot
    · exact .same hslot
    · rename_i key hk
      rcases mem_or_eq_of_mem_upsert hslot with rfl | hslot
      · exact .recorded rfl hc hk
      · exact .same (mem_of_mem_evict hslot)
  | close i c hidle hc hp | finish i c hc hp =>
    rw [onEnd] at hslot
    split at hslot
    · exact .same hslot
    · exact .same (mem_of_mem_dropOwn hslot)
  | sweep now hidle => exact .same (mem_filter.mp hslot).1

/-- A request stays what it was. -/
theorem Step.request (h : Step cfg s a t) {j : ℕ} {c : Call π} (hc : s.calls[j]? = some c) :
    ∃ c', t.calls[j]? = some c' ∧ c'.request = c.request := by
  have hset : ∀ {calls : List (Call π)} {c : Call π} (i : ℕ) (p : Phase), calls[j]? = some c →
      ∃ c', (setPhase i p calls)[j]? = some c' ∧ c'.request = c.request :=
    fun i p hc => ⟨_, getElem?_setPhase_iff.mpr ⟨_, hc, rfl⟩, by split <;> rfl⟩
  have hsettle : ∀ {calls : List (Call π)} {c : Call π} (i : ℕ) (p : Phase), calls[j]? = some c →
      ∃ c', (settleWaiters i p calls)[j]? = some c' ∧ c'.request = c.request :=
    fun i p hc => ⟨_, getElem?_settleWaiters_iff.mpr ⟨_, hc, rfl⟩, by split <;> rfl⟩
  have hend : ∀ (i : ℕ) (r : Request π) (p : Phase), ∃ c',
      (onEnd i r { s with calls := setPhase i p s.calls }).calls[j]? = some c' ∧
        c'.request = c.request := by
    intro i r p
    obtain ⟨c₁, hc₁, hr₁⟩ := hset i p hc
    rw [onEnd]
    split
    · exact ⟨c₁, hc₁, hr₁⟩
    · obtain ⟨c₂, hc₂, hr₂⟩ := hsettle i .released hc₁
      exact ⟨c₂, hc₂, hr₂.trans hr₁⟩
  cases h with
  | pass | start | replay | wait => exact ⟨c, getElem?_push_iff.mpr (.inl hc), rfl⟩
  | resume i => exact hset i _ hc
  | json i c₀ attached response now hc₀ hp =>
    obtain ⟨c₁, hc₁, hr₁⟩ := hset i (if attached then .answered response i else .ended) hc
    rw [sendJson]
    split
    · exact ⟨c₁, hc₁, hr₁⟩
    · cases attached with
      | false => exact ⟨c₁, hc₁, hr₁⟩
      | true =>
        obtain ⟨c₂, hc₂, hr₂⟩ := hsettle i (.answered response i) hc₁
        exact ⟨c₂, hc₂, hr₂.trans hr₁⟩
  | close i c₀ => exact hend i c₀.request _
  | finish i c₀ => exact hend i c₀.request _
  | abandon i => exact hset i _ hc
  | sweep => exact ⟨c, hc, rfl⟩

/-- The history grows, by the response of a handler that answers with a key. -/
theorem Step.log (h : Step cfg s a t) :
    (∀ ev ∈ s.log, ev ∈ t.log) ∧ ∀ i response now, a = .json i response now →
      ∀ c key, s.calls[i]? = some c → c.request.cacheKey = some key →
        .completed i key response now ∈ t.log := by
  cases h with
  | pass | replay | wait | abandon | sweep => exact ⟨fun _ h => h, fun _ _ _ h => by cases h⟩
  | start | resume => exact ⟨fun _ h => mem_append_left _ h, fun _ _ _ h => by cases h⟩
  | close | finish =>
    rw [onEnd]
    split <;> exact ⟨fun _ h => h, fun _ _ _ h => by cases h⟩
  | json i c attached response now hc hp =>
    rw [sendJson]
    split
    · rename_i hk
      refine ⟨fun _ h => h, fun i' _ _ ha c' key hc' hk' => ?_⟩
      cases ha
      rw [hc] at hc'
      cases hc'
      rw [hk] at hk'
      cases hk'
    · rename_i key hk
      refine ⟨fun _ h => mem_append_left _ h, fun i' _ _ ha c' key' hc' hk' => ?_⟩
      cases ha
      rw [hc] at hc'
      cases hc'
      rw [hk] at hk'
      cases hk'
      exact mem_append_right _ (mem_singleton.mpr rfl)

end Effect

end FestivalPlanner.Idempotency
