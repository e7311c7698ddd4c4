import FestivalPlanner.Sync.WebQueue

/-!
# The api client of the web app, as the queue uses it

`apiRequest` of `packages/shared/src/services/api.ts`, which queues a write when the network
fails, and the adapter of `useOfflineQueueBridge` that replays an entry of the queue through it.

* `isOfflineEligible` — the paths whose writes are queued;
* `Network` — how the requests of one call end, and what the refresh of a session does;
* `apiRequest`, `adapter`, `replay` — a call, and the replay of an entry.

The storage works: IndexedDB does, or `localStorage` in its place.
-/

namespace FestivalPlanner.WebQueue

open Js (Json)

/-! ## Paths and methods -/

/-- `s.toUpperCase()`, as far as the names of methods go. -/
def toUpperCase (s : String) : String := String.ofList (s.toList.map Char.toUpper)

def isMutatingMethod (method : String) : Bool :=
  toUpperCase method ∈ ["POST", "PUT", "PATCH", "DELETE"]

/-- The crew sub-resources of `OFFLINE_ELIGIBLE_PATTERNS`. -/
def crewResources : List String :=
  ["meeting-points", "polls", "packing", "rides", "expenses", "home-base", "reminders", "status"]

/-- `OFFLINE_ELIGIBLE_PATTERNS`, on the segments of a path. -/
def matchesEligiblePattern (segments : List String) : Bool :=
  match segments with
  | "" :: "profiles" :: _ :: _ => true
  | "" :: "crews" :: "join" :: _ => true
  | "" :: "crews" :: id :: resource :: _ => id ≠ "" && resource ∈ crewResources
  | _ => false

def isOfflineEligible (path : String) : Bool :=
  matchesEligiblePattern
    ((Js.split '/' (((Js.split '?' path.toList).head?).getD [])).map String.ofList)

/-- `/\/festivals(\/|$|\?)/` -/
def mentionsFestivals (path : String) : Bool :=
  path.toList.tails.any (fun rest =>
    "/festivals".toList.isPrefixOf rest &&
      (match rest.drop "/festivals".toList.length with
      | [] => true
      | c :: _ => c = '/' || c = '?'))

example : isOfflineEligible "/crews/c1/polls/p1/vote" = true := by decide

/-! ## The network -/

/-- The body of a response. -/
inductive Body where
  | unreadable (message : String)
  | null
  /-- `error.message` and `message` of the body, or the empty text. -/
  | json (error message : String)

/-- How one `fetch` ends. -/
inductive Answer where
  /-- The request or the response is lost. -/
  | lost (message : String)
  | timedOut
  | response (status : ℕ) (statusText : String) (body : Body)

/-- What `_onUnauthorized` does, if there is one. -/
inductive Refresh where
  | noHandler
  | refreshed
  | refused
  | threw (message : String)
  deriving DecidableEq

/-- How the requests of one call end. -/
structure Network where
  first : Answer
  refresh : Refresh
  /-- The request after a refresh. -/
  second : Answer
  /-- `navigator.onLine` -/
  onLine : Bool

structure Request where
  method : String
  path : String
  headers : List (String × String)
  body : Option Json

/-- Which storage works. -/
inductive Storage where
  | indexedDb
  | localStorage
  deriving DecidableEq

/-- The client: the queue, `offlineMode`, and the requests of the current call with their
answers. -/
structure Client where
  queue : Queue
  offlineMode : Bool
  sent : List (Request × Answer)

/-! ## Queueing a write -/

/-- The accesses of `queueMutation`: IndexedDB, or a failed one followed by `localStorage`. -/
def Storage.device : Storage → Device
  | .indexedDb => { opened := true, io := [] }
  | .localStorage => { opened := false, io := [false, true, true, false, true] }

/-- The accesses of a removal or a bump. -/
def Storage.settling : Storage → Device
  | .indexedDb => { opened := true, io := [] }
  | .localStorage => { opened := false, io := [] }

/-- What is the same for all requests of a call: the storage, the time, and a random id. -/
structure Setting where
  storage : Storage
  now : ℤ
  randomId : String

/-- `enqueueOfflineMutation` without a client id, through the bridge. -/
def Client.enqueueOfflineMutation (env : Setting) (c : Client) (r : Request) : Reply × Client :=
  let clientId :=
    if r.method = "POST" then "POST:" ++ r.path ++ ":" ++ env.randomId
    else r.method ++ ":" ++ r.path
  (.ok, { c with
    queue := Queue.queueMutation env.now env.randomId { c.queue with device := env.storage.device }
      { clientId := clientId
        type := .api
        url := some r.path
        method := some r.method
        body := r.body } })

/-- `markOnlineAndDrain`; the pass that it starts returns, since one is running. -/
def Client.markOnlineAndDrain (onLine : Bool) (c : Client) (path : String) : Client :=
  if c.offlineMode && onLine && !mentionsFestivals path then { c with offlineMode := false } else c

/-! ## Requests -/

def trustedMutationHeader : String := "X-Festie-Request"

/-- The headers that `apiRequest` adds to those of the caller. -/
def withHeaders (r : Request) : Request :=
  { r with headers := r.headers ++
      (if isMutatingMethod r.method then [(trustedMutationHeader, "1")] else []) ++
      (if r.body.isSome then [("Content-Type", "application/json")] else []) }

/-- Does a failing request of the call go to the queue? -/
def isQueueable (r : Request) : Bool := isMutatingMethod r.method && isOfflineEligible r.path

/-- The `catch` of `apiRequest`: the write is queued, unless this is the second request. -/
def Client.networkFailure (env : Setting) (isRetry : Bool) (c : Client) (r : Request)
    (message : String) : Reply × Client :=
  if !isRetry && isQueueable r then { c with offlineMode := true }.enqueueOfflineMutation env r
  else (.error (some 0) message, c)

/-- The error of a response that is not ok. -/
def Client.serverError (env : Setting) (isRetry : Bool) (c : Client) (r : Request) (status : ℕ)
    (statusText : String) : Body → Reply × Client
  | .null => c.networkFailure env isRetry r "Cannot read properties of null (reading 'error')"
  | .unreadable _ =>
      (.error (some status) (if statusText ≠ "" then statusText else "Request failed"), c)
  | .json error message =>
      (.error (some status)
        (if error ≠ "" then error else if message ≠ "" then message else "Request failed"), c)

/-- `response.ok` -/
def isOk (status : ℕ) : Bool := 200 ≤ status && status ≤ 299

/-- One `fetch` of `apiRequest` and what follows; `refresh` is what follows a 401. -/
def Client.request (env : Setting) (onLine isRetry : Bool)
    (refresh : Option (Client → Reply × Client)) (c : Client) (r : Request) (answer : Answer) :
    Reply × Client :=
  let c := { c with sent := c.sent ++ [(withHeaders r, answer)] }
  match answer with
  | .lost message => c.networkFailure env isRetry r message
  | .timedOut => c.networkFailure env isRetry r "Request timed out"
  | .response status statusText body =>
      if isOk status then
        let c := c.markOnlineAndDrain onLine r.path
        match body with
        | .unreadable message => c.networkFailure env isRetry r message
        | _ => (.ok, c)
      else
        match refresh with
        | some again =>
            if status = 401 && !Js.includes "/auth/" r.path then again c
            else c.serverError env isRetry r status statusText body
        | none => c.serverError env isRetry r status statusText body

/-- `apiRequest(path, options)` -/
def Client.apiRequest (env : Setting) (net : Network) (c : Client) (r : Request) :
    Reply × Client :=
  if isQueueable r && c.offlineMode then c.enqueueOfflineMutation env r
  else
    let refresh : Option (Client → Reply × Client) :=
      match net.refresh, net.first with
      | .refreshed, _ => some (fun c => c.request env net.onLine true none r net.second)
      | .threw message, _ => some (fun c => c.networkFailure env false r message)
      | .refused, .response status statusText body =>
          some (fun c => c.serverError env false r status statusText body)
      | _, _ => none
    c.request env net.onLine false refresh r net.first

/-! ## Replaying an entry -/

/-- The method that the adapter calls: the other ones are posted. -/
def adapterMethod (m : Entry) : String :=
  let method := toUpperCase (if m.method.getD "" = "" then "POST" else m.method.getD "")
  if method ∈ ["GET", "PUT", "PATCH", "DELETE"] then method else "POST"

/-- The request of an entry: the adapter passes its client id as a header, and no body to `get`
and `delete`. -/
def adapterRequest (m : Entry) : Request :=
  { method := adapterMethod m
    path := m.url.getD ""
    headers := if m.clientId ≠ "" then [("Idempotency-Key", m.clientId)] else []
    body := if adapterMethod m ∈ ["GET", "DELETE"] then none else m.body }

/-- One turn of `processQueue(adapter)`: there is no `socketEmitFn`. -/
def Client.replay (env : Setting) (net : Network) (c : Client) (m : Entry) : Client :=
  let r :=
    match m.type with
    | .api => { c with sent := [] }.apiRequest env net (adapterRequest m)
    | .socket => (.error none "socketEmitFn not provided", { c with sent := [] })
  { r.2 with
    queue := Queue.settle env.now { r.2.queue with device := env.storage.settling } m r.1 }

/-! ## What a call does -/

def Answer.status : Answer → Option ℕ
  | .response status _ _ => some status
  | _ => none

/-- The status of the last request, if it got a response. -/
def Client.lastStatus (c : Client) : Option ℕ := c.sent.getLast?.bind (fun x => x.2.status)

def Body.isNull : Body → Bool
  | .null => true
  | _ => false

def Body.isUnreadable : Body → Bool
  | .unreadable _ => true
  | _ => false

/-- No response, or one whose body the client cannot use. -/
def Answer.isBroken : Answer → Bool
  | .response status _ body => if isOk status then body.isUnreadable else body.isNull
  | _ => true

/-- A 401 that makes the client refresh the session. -/
def Answer.isUnauthorized (path : String) : Answer → Bool
  | .response status _ _ => status = 401 && !Js.includes "/auth/" path
  | _ => false

/-- Does the first request of a call end in the `catch` of `apiRequest`? -/
def Network.breaks (net : Network) (path : String) : Bool :=
  if net.first.isUnauthorized path then
    match net.refresh with
    | .refreshed => false
    | .threw _ => true
    | _ => net.first.isBroken
  else net.first.isBroken

/-- A success was answered by an ok response; an error has the status of the last response, or
that of a network failure. -/
def Reply.Fits (status : Option ℕ) : Reply → Prop
  | .ok => ∃ n, status = some n ∧ isOk n
  | .error e _ => e = some 0 ∨ e = status

/-- The call sent requests, each with the headers of the caller, and did nothing else to the
queue. -/
structure Sends (c : Client) (r : Request) (p : Reply × Client) : Prop where
  queue : p.2.queue = c.queue
  sent : ∃ new, p.2.sent = c.sent ++ new ∧ ∀ x ∈ new, x.1 = withHeaders r
  fits : p.1.Fits p.2.lastStatus

variable {isRetry : Bool} {r : Request} {c : Client} {answer : Answer}

theorem networkFailure_eq (env : Setting) (c : Client) (message : String)
    (h : isRetry = true ∨ isQueueable r = false) :
    c.networkFailure env isRetry r message = (.error (some 0) message, c) := by
  unfold Client.networkFailure
  rcases h with h | h <;> simp [h]

@[simp] theorem markOnlineAndDrain_queue (onLine : Bool) (c : Client) (path : String) :
    (c.markOnlineAndDrain onLine path).queue = c.queue := by
  unfold Client.markOnlineAndDrain
  split <;> rfl

@[simp] theorem markOnlineAndDrain_sent (onLine : Bool) (c : Client) (path : String) :
    (c.markOnlineAndDrain onLine path).sent = c.sent := by
  unfold Client.markOnlineAndDrain
  split <;> rfl

/-- The error of a response. -/
theorem sends_serverError (env : Setting) {status : ℕ} {statusText : String} {body : Body}
    (hlast : c.lastStatus = some status)
    (h : isRetry = true ∨ isQueueable r = false ∨ body.isNull = false) :
    Sends c r (c.serverError env isRetry r status statusText body) := by
  have hself : ∃ new, c.sent = c.sent ++ new ∧ ∀ x ∈ new, x.1 = withHeaders r :=
    ⟨[], by simp, by simp⟩
  cases body with
  | null =>
    simp only [Client.serverError]
    rw [networkFailure_eq env c _ (by simpa [Body.isNull] using h)]
    exact ⟨rfl, hself, .inl rfl⟩
  | unreadable message => exact ⟨rfl, hself, .inr hlast.symm⟩
  | json error message => exact ⟨rfl, hself, .inr hlast.symm⟩

/-- What was sent before does not matter. -/
theorem Sends.of_sent (answer : Answer) {p : Reply × Client}
    (h : Sends { c with sent := c.sent ++ [(withHeaders r, answer)] } r p) : Sends c r p := by
  obtain ⟨new, heq, hnew⟩ := h.sent
  refine ⟨h.queue, ⟨(withHeaders r, answer) :: new, by simp [heq], ?_⟩, h.fits⟩
  intro x hx
  rcases List.mem_cons.mp hx with rfl | hx
  · rfl
  · exact hnew x hx

theorem sends_request (env : Setting) (onLine : Bool)
    (h : isRetry = true ∨ isQueueable r = false ∨ answer.isBroken = false) :
    Sends c r (c.request env onLine isRetry none r answer) := by
  refine Sends.of_sent answer ?_
  have hself (c : Client) : ∃ new, c.sent = c.sent ++ new ∧ ∀ x ∈ new, x.1 = withHeaders r :=
    ⟨[], by simp, by simp⟩
  cases answer with
  | lost message =>
    simp only [Client.request]
    rw [networkFailure_eq env _ _ (by simpa [Answer.isBroken] using h)]
    exact ⟨rfl, hself _, .inl rfl⟩
  | timedOut =>
    simp only [Client.request]
    rw [networkFailure_eq env _ _ (by simpa [Answer.isBroken] using h)]
    exact ⟨rfl, hself _, .inl rfl⟩
  | response status statusText body =>
    simp only [Client.request, Answer.isBroken] at h ⊢
    split_ifs with hok
    · simp only [hok, if_true] at h
      cases body with
      | unreadable message =>
        dsimp only
        rw [networkFailure_eq env _ _ (by simpa [Body.isUnreadable] using h)]
        exact ⟨by simp, by simp, .inl rfl⟩
      | null => exact ⟨by simp, by simp, status, by simp [Client.lastStatus, Answer.status], hok⟩
      | json error message => exact ⟨by simp, by simp, status, by simp [
          Client.lastStatus, Answer.status], hok⟩
    · simp only [hok] at h
      exact sends_serverError env (by simp [Client.lastStatus, Answer.status]) h

/-- A refresh follows a 401 only. -/
theorem request_some (env : Setting) (onLine isRetry : Bool) (again : Client → Reply × Client)
    (c : Client) (r : Request) (answer : Answer) :
    c.request env onLine isRetry (some again) r answer =
      if answer.isUnauthorized r.path then
        again { c with sent := c.sent ++ [(withHeaders r, answer)] }
      else c.request env onLine isRetry none r answer := by
  cases answer with
  | lost message => rfl
  | timedOut => rfl
  | response status statusText body =>
    simp only [Client.request, Answer.isUnauthorized]
    by_cases h401 : status = 401
    · subst h401
      simp [isOk]
    · simp [h401]

/-- A refused refresh is like none: the 401 is the answer. -/
theorem apiRequest_eq (env : Setting) (net : Network) (c : Client) (r : Request)
    (h : (isQueueable r && c.offlineMode) = false) :
    c.apiRequest env net r =
      match net.first.isUnauthorized r.path, net.refresh with
      | true, .refreshed =>
          { c with sent := c.sent ++ [(withHeaders r, net.first)] }.request env net.onLine true none
            r net.second
      | true, .threw message =>
          { c with sent := c.sent ++ [(withHeaders r, net.first)] }.networkFailure env false r
            message
      | _, _ => c.request env net.onLine false none r net.first := by
  simp only [Client.apiRequest, h]
  cases hr : net.refresh with
  | noHandler => cases net.first.isUnauthorized r.path <;> rfl
  | refreshed =>
    simp only [request_some]
    cases net.first.isUnauthorized r.path <;> rfl
  | threw message =>
    simp only [request_some]
    cases net.first.isUnauthorized r.path <;> rfl
  | refused =>
    cases hf : net.first with
    | lost message => rfl
    | timedOut => rfl
    | response status statusText body =>
      simp only [request_some]
      cases hun : (Answer.response status statusText body).isUnauthorized r.path with
      | false => rfl
      | true =>
        obtain ⟨rfl, -⟩ : status = 401 ∧ Js.includes "/auth/" r.path = false := by
          simpa [Answer.isUnauthorized] using hun
        rfl

/-- A call that does not queue. -/
theorem apiRequest_sends (env : Setting) (net : Network)
    (h : isQueueable r = true → c.offlineMode = false ∧ net.breaks r.path = false) :
    Sends c r (c.apiRequest env net r) := by
  have hnot : (isQueueable r && c.offlineMode) = false := by
    cases hq : isQueueable r with
    | false => rfl
    | true => exact (h hq).1
  have hbreaks : isQueueable r = false ∨ net.breaks r.path = false := by
    cases hq : isQueueable r with
    | false => exact .inl rfl
    | true => exact .inr (h hq).2
  rw [apiRequest_eq env net c r hnot]
  unfold Network.breaks at hbreaks
  split
  · exact Sends.of_sent _ (sends_request env net.onLine (.inl rfl))
  · rename_i message hun hr
    have hq : isQueueable r = false := by simpa [hun, hr] using hbreaks
    rw [networkFailure_eq env _ message (.inr hq)]
    exact Sends.of_sent _ ⟨rfl, ⟨[], by simp, by simp⟩, .inl rfl⟩
  · refine sends_request env net.onLine (.inr (hbreaks.imp_right (fun hb => ?_)))
    split_ifs at hb with hun
    · split at hb
      · simp_all
      · simp_all
      · exact hb
    · exact hb

@[simp] theorem serial_getPendingCount (q : Queue) : q.getPendingCount.2.serial = q.serial := rfl

@[simp] theorem serial_queueInLocal (now : ℤ) (q : Queue) (e : Entry) :
    (q.queueInLocal now e).2.serial = q.serial := by
  simp only [Queue.queueInLocal]
  split_ifs <;> rfl

/-- A call of `queueMutation` is counted. -/
theorem serial_queueMutation (now : ℤ) (fresh : String) (q : Queue) (m : Mutation) :
    (q.queueMutation now fresh m).serial = q.serial + 1 := by
  simp only [Queue.queueMutation, Queue.queueInIdb]
  split_ifs <;> simp [Queue.upsertIdb]

@[simp] theorem serial_enqueueOfflineMutation (env : Setting) (c : Client) (r : Request) :
    (c.enqueueOfflineMutation env r).2.queue.serial = c.queue.serial + 1 :=
  serial_queueMutation _ _ _ _

theorem serial_networkFailure (env : Setting) (c : Client) (message : String)
    (hq : isQueueable r = true) :
    (c.networkFailure env false r message).2.queue.serial = c.queue.serial + 1 := by
  simp [Client.networkFailure, hq]

/-- A broken first request of a write that can be queued. -/
theorem serial_request (env : Setting) (onLine : Bool) (c : Client) (hq : isQueueable r = true)
    (hb : answer.isBroken = true) :
    (c.request env onLine false none r answer).2.queue.serial = c.queue.serial + 1 := by
  cases answer with
  | lost message => exact serial_networkFailure env _ message hq
  | timedOut => exact serial_networkFailure env _ _ hq
  | response status statusText body =>
    simp only [Client.request, Answer.isBroken] at hb ⊢
    split_ifs with hok
    · simp only [hok, if_true] at hb
      cases body with
      | unreadable message => exact (serial_networkFailure env _ message hq).trans (by simp)
      | null => simp [Body.isUnreadable] at hb
      | json error message => simp [Body.isUnreadable] at hb
    · simp only [hok] at hb
      cases body with
      | null => exact serial_networkFailure env _ _ hq
      | unreadable message => simp [Body.isNull] at hb
      | json error message => simp [Body.isNull] at hb

/-- A call that queues its write. -/
theorem serial_apiRequest (env : Setting) (net : Network) (hq : isQueueable r = true)
    (h : c.offlineMode = true ∨ net.breaks r.path = true) :
    (c.apiRequest env net r).2.queue.serial = c.queue.serial + 1 := by
  by_cases hoff : c.offlineMode = true
  · simp [Client.apiRequest, hq, hoff]
  · have hb : net.breaks r.path = true := h.resolve_left hoff
    rw [apiRequest_eq env net c r (by simp [hoff])]
    unfold Network.breaks at hb
    split
    · rename_i hun hr
      simp [hun, hr] at hb
    · exact serial_networkFailure env _ _ hq
    · refine serial_request env net.onLine c hq ?_
      split_ifs at hb with hun
      · split at hb
        · simp_all
        · simp_all
        · exact hb
      · exact hb

end FestivalPlanner.WebQueue
