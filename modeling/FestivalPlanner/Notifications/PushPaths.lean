import FestivalPlanner.Lib.Stopping
import FestivalPlanner.Notifications.PushMessages

/-!
# The two send paths

A notification is sent to one user by `send`, device after device, or to the users of a festival by
`sendToOfflineUsers`, which hands the messages to `sendEach` in batches.

* `Thrown`, `FcmOutcome`, `ApnsAnswer` — what the providers may do with a device;
* `sendToDevice`, `sendToIosDevice` — one device, with the errors that end the call;
* `send` — the first path: one request for each device, repeated once after some errors;
* `sendBatch`, `sendToOfflineUsers` — the second: the messages of all users in batches.

What the retry queue sends later is no part of a call.
-/

namespace FestivalPlanner.PushPaths

open Utf16 JsonText PushMessages Stopping

/-! ## What the providers do -/

/-- The property `code` of a thrown value: a falsy one, one that has `includes`, or another. -/
inductive Code where
  | falsy
  | text (includes : Text → Bool)
  | other

/-- `(code || '').includes(part)`; `none` when that throws. -/
def Code.includes (part : String) : Code → Option Bool
  | .falsy => some false
  | .text includes => some (includes (ofString part))
  | .other => none

/-- A thrown value: `null` or `undefined`, or one whose properties can be read. -/
inductive Thrown where
  | nullish
  | value (message : Option Text) (code : Code)

/-- What becomes of a request to the messaging client. -/
inductive Reply where
  | accepted
  | rejected (error : Thrown)

/-- What the messaging client does with a device: the reply to its message, the reply to the
repeated message, whether eight seconds pass before `send` has its reply, and whether five do. -/
structure FcmOutcome where
  first : Reply
  second : Reply
  timedOut : Bool
  slow : Bool

/-- What the APNs client does with a device: a response with its reason, no response, or a thrown
value. -/
inductive ApnsAnswer where
  | response (status : ℕ) (reason : Text)
  | failed
  | thrown (error : Thrown)

/-- The two providers. A call of `sendEach`, by its number, may throw as a whole. -/
structure Provider where
  fcm : Text → FcmOutcome
  sendEach : ℕ → Option Thrown
  apns : Text → ApnsAnswer

/-! ## One device -/

/-- `{ sent, stale }` -/
structure DeviceResult where
  sent : Bool
  stale : Bool

/-- `isStaleTokenError(code)`; `none` when that throws. -/
def isStaleTokenError (code : Code) : Option Bool := do
  if ← code.includes "not-registered" then return true
  if ← code.includes "invalid-registration" then return true
  code.includes "invalid-argument"

def fcmTimeout : Text := ofString "FCM_TIMEOUT"

/-- The `isRetryable` of `sendToDevice`; `none` when that throws. -/
def isRetryable : Thrown → Option Bool
  | .nullish => none
  | .value message code =>
    if message = some fcmTimeout then some true
    else do
      if ← code.includes "unavailable" then return true
      code.includes "internal"

/-- A `TypeError`. -/
def typeError : Thrown := .value (some (ofString "TypeError")) .falsy

/-- `withRetry` with two attempts: the value that it throws, if any. -/
def withRetry (o : FcmOutcome) : Option Thrown :=
  match o.first with
  | .accepted => none
  | .rejected error =>
    match isRetryable error with
    | none => some typeError
    | some false => some error
    | some true =>
      match o.second with
      | .accepted => none
      | .rejected error => some error

/-- The race of `sendToDevice` against its timeout. -/
def race (o : FcmOutcome) : Option Thrown :=
  if o.timedOut then some (.value (some fcmTimeout) .falsy) else withRetry o

/-- `sendToDevice`: its result, and whether the message is put in the retry queue; `none` when it
throws. -/
def sendToDevice (o : FcmOutcome) : Option (DeviceResult × Bool) :=
  match race o with
  | none => some ({ sent := true, stale := false }, false)
  | some .nullish => none
  | some (.value message code) => do
    let isTimeout := message = some fcmTimeout || o.slow
    let stale ← isStaleTokenError code
    let unavailable ← code.includes "unavailable"
    let internal ← code.includes "internal"
    let notRegistered ← code.includes "not-registered"
    let invalidRegistration ← code.includes "invalid-registration"
    return ({ sent := false, stale := stale },
      (isTimeout || unavailable || internal) && !notRegistered && !invalidRegistration)

/-- `classifyApnsResponse` -/
def classifyApnsResponse (status : ℕ) (reason : Text) : DeviceResult :=
  if status = 200 then { sent := true, stale := false }
  else
    { sent := false
      stale := status = 410 || (status = 400 &&
        (reason = ofString "BadDeviceToken" || reason = ofString "DeviceTokenNotForTopic")) }

/-- `sendToIosDevice`; `none` when it throws. -/
def sendToIosDevice : ApnsAnswer → Option DeviceResult
  | .response status reason => some (classifyApnsResponse status reason)
  | .failed => some { sent := false, stale := false }
  | .thrown .nullish => none
  | .thrown (.value _ _) => some { sent := false, stale := false }

/-! ## The stores -/

/-- The columns of a row of the table `device_tokens` that the paths read. -/
structure Device where
  token : Text
  platform : String

/-- The id of a user, which is never empty. -/
abbrev UserId := { id : String // id ≠ "" }

structure Stores where
  notificationPrefs : UserId → Option Prefs
  /-- `listByUser` -/
  deviceTokens : UserId → List Device
  /-- The counts of the user by festival; `none` when they cannot be read. -/
  notificationCounts : UserId → Option (List ℕ)
  userIdsByFestival : String → List UserId
  /-- `getUnsubscribedUsers(festivalId, topic)` -/
  unsubscribedUsers : String → String → List UserId

/-- What is configured. -/
structure Config where
  messaging : Bool
  apns : Bool
  publicOrigin : Text

/-- `isValidDeviceToken` -/
def isValidDeviceToken (d : Device) : Bool :=
  decide (20 ≤ d.token.length ∧ d.token.length ≤ 4096)

def isIos (d : Device) : Bool := d.platform = "ios"

/-- `getUnreadCount` -/
def getUnreadCount (counts : Option (List ℕ)) : ℕ :=
  match counts with
  | none => 1
  | some counts => if counts.sum = 0 then 1 else counts.sum

/-! ## What a call leaves -/

/-- A message that is handed to a provider. -/
inductive Attempt where
  | fcm (message : FcmMessage)
  | apns (token : Text) (payload : List (Text × Value ℕ)) (collapseId : Option Text)

def Attempt.token : Attempt → Text
  | .fcm message => message.token
  | .apns token _ _ => token

inductive Reason where
  | firebaseNotConfigured
  | invalidType
  | userDisabled
  | dndActive
  | noTokens

/-- What a call returns. -/
structure Answer where
  sent : ℕ
  reason : Option Reason := none
  staleRemoved : Option ℕ := none

/-- An entry of the retry queue. -/
structure RetryEntry where
  userId : UserId
  token : Text
  title : Text
  body : Text
  data : List (Text × Value ℕ)

/-- What a call leaves: the messages that it handed to the providers, the devices that accepted
theirs, the entries that it put in the retry queue, the calls of `unregister` and of `increment`,
and what it returns, if it does. -/
structure Outcome where
  attempts : List Attempt := []
  accepted : List Text := []
  retryQueue : List RetryEntry := []
  unregistered : List (Text × UserId) := []
  incremented : List (UserId × Text) := []
  answer : Option Answer

/-- A call that returns at once. -/
def refused (reason : Option Reason) : Outcome := { answer := some { sent := 0, reason := reason } }

/-! ## `send` -/

/-- What is the same for the devices of a call. -/
structure Delivery where
  userId : UserId
  payload : Payload
  envelope : Envelope
  channelId : Text

/-- The variables of the loops over devices. -/
structure Sending where
  attempts : List Attempt := []
  accepted : List Text := []
  retryQueue : List RetryEntry := []
  staleTokens : List Text := []
  sent : ℕ := 0

/-- `if (result.sent) sent += 1; if (result.stale) staleTokens.push(device.token);` -/
@[grind =] def Sending.record (s : Sending) (token : Text) (r : DeviceResult) : Sending :=
  { s with
    sent := if r.sent then s.sent + 1 else s.sent
    accepted := if r.sent then s.accepted ++ [token] else s.accepted
    staleTokens := if r.stale then s.staleTokens ++ [token] else s.staleTokens }

variable (c : Config) (st : Stores) (pr : Provider) (now : Clock)

/-- The message of a device that is no iOS device. -/
def fcmMessage (v : Delivery) (token : Text) : FcmMessage :=
  buildFcmMessage c.publicOrigin token v.payload v.envelope v.channelId

/-- The message of an iOS device. -/
def apnsAttempt (v : Delivery) (token : Text) : Attempt :=
  .apns token (buildApnsAlertPayload v.payload v.envelope) v.envelope.threadId

/-- The entry of the retry queue for a device. -/
def retryEntry (v : Delivery) (token : Text) : RetryEntry :=
  { userId := v.userId
    token := token
    title := v.payload.safeTitle
    body := v.payload.safeBody
    data := spread [(ofString "type", .str v.envelope.type.name)] v.payload.safeData }

/-- The body of the loop of `send`. -/
def sendDevice (v : Delivery) (s : Sending) (d : Device) : Sending × Bool :=
  if !isValidDeviceToken d then ({ s with staleTokens := s.staleTokens ++ [d.token] }, true)
  else if isIos d then
    if !c.apns then (s, true)
    else
      let s := { s with attempts := s.attempts ++ [apnsAttempt v d.token] }
      match sendToIosDevice (pr.apns d.token) with
      | none => (s, false)
      | some result => (s.record d.token result, true)
  else if !c.messaging then (s, true)
  else
    let message := enforcePayloadSize (fcmMessage c v d.token)
    let s := { s with attempts := s.attempts ++ [.fcm message] }
    match sendToDevice (pr.fcm d.token) with
    | none => (s, false)
    | some (result, queued) =>
      let s := s.record d.token result
      (if queued then { s with retryQueue := s.retryQueue ++ [retryEntry v d.token] } else s, true)

/-- `incrementUnread(userId, safeData.festivalId)` for some users, when there is a festival. -/
def unreadOf (safeData : List (Text × Text)) (userIds : List UserId) : List (UserId × Text) :=
  if dataField "festivalId" safeData = [] then []
  else userIds.map (fun userId => (userId, dataField "festivalId" safeData))

/-- The part of `send` from the loop over the devices on. -/
@[grind =] def sendToDevices (v : Delivery) (tokens : List Device) : Outcome :=
  match loop (sendDevice c pr v) tokens {} with
  | (s, true) =>
    { attempts := s.attempts
      accepted := s.accepted
      retryQueue := s.retryQueue
      unregistered := (s.staleTokens.filter (· ≠ [])).map (fun t => (t, v.userId))
      incremented := if 0 < s.sent then unreadOf v.payload.safeData [v.userId] else []
      answer := some { sent := s.sent, staleRemoved := some s.staleTokens.length } }
  -- a device that throws ends the call
  | (s, false) =>
    { attempts := s.attempts
      accepted := s.accepted
      retryQueue := s.retryQueue
      answer := none }

/-- `send` -/
def send (userId : UserId) (r : Request) : Outcome :=
  if !c.messaging && !c.apns then refused (some .firebaseNotConfigured)
  else
    match allowedType r.type with
    | none => refused (some .invalidType)
    | some type =>
      let payload := enforcePayloadLimits r.title r.body r.data
      let isCritical := isCriticalType type
      let critical := criticalChannel type
      let channelId :=
        ((critical.map Prod.fst).or (typeChannelMap type)).getD updatesChannel
      let category := (critical.map Prod.snd).getD crewUpdateCategory
      let prefs := st.notificationPrefs userId
      if !isCritical && disabled prefs type then refused (some .userDisabled)
      else if !isCritical && isInDndWindow now prefs then refused (some .dndActive)
      else
        let tokens := st.deviceTokens userId
        if tokens.isEmpty then refused (some .noTokens)
        else
          sendToDevices c pr
            { userId := userId
              payload := payload
              envelope :=
                { type := type
                  badgeCount := getUnreadCount (st.notificationCounts userId)
                  threadId := r.threadId
                  category := category }
              channelId := channelId } tokens

/-! ## `sendToOfflineUsers` -/

/-- A send that is left to the APNs client. -/
structure IosSend where
  userId : UserId
  token : Text
  attempt : Attempt

/-- The messages that are collected. -/
structure Collected where
  fcmMessages : List FcmMessage := []
  iosSends : List IosSend := []
  /-- `tokenUserMap` -/
  tokenUserMap : List (Text × UserId) := []

/-- The body of the loop over the devices of a user. -/
def collectDevice (v : Delivery) (col : Collected) (d : Device) : Collected :=
  if !isValidDeviceToken d then col
  else if isIos d then
    if !c.apns then col
    else
      { col with
        tokenUserMap := setField col.tokenUserMap (d.token, v.userId)
        iosSends := col.iosSends ++
          [{ userId := v.userId, token := d.token, attempt := apnsAttempt v d.token }] }
  else if !c.messaging then col
  else
    { col with
      tokenUserMap := setField col.tokenUserMap (d.token, v.userId)
      fcmMessages := col.fcmMessages ++ [enforcePayloadSize (fcmMessage c v d.token)] }

/-- The body of the loop over the users. -/
def collectUser (r : Request) (type : NotificationType) (payload : Payload) (col : Collected)
    (userId : UserId) : Collected :=
  let prefs := st.notificationPrefs userId
  if disabled prefs type then col
  else if isInDndWindow now prefs then col
  else
    let v : Delivery :=
      { userId := userId
        payload := payload
        envelope :=
          { type := type
            badgeCount := getUnreadCount (st.notificationCounts userId)
            threadId := r.threadId
            category := crewUpdateCategory }
        channelId := updatesChannel }
    (st.deviceTokens userId).foldl (collectDevice c v) col

/-- `response.responses.forEach`; an error whose code cannot be read ends it. -/
def readResponses : List (Text × Reply) → Sending → Sending
  | [], s => s
  | (_, .accepted) :: responses, s => readResponses responses { s with sent := s.sent + 1 }
  | (_, .rejected .nullish) :: responses, s => readResponses responses s
  | (token, .rejected (.value _ code)) :: responses, s =>
    match isStaleTokenError code with
    | none => s
    | some stale =>
      readResponses responses
        (if stale then { s with staleTokens := s.staleTokens ++ [token] } else s)

/-- The device of a response that reports a success. -/
def acceptedOf : Text × Reply → Option Text
  | (token, .accepted) => some token
  | (_, .rejected _) => none

/-- The replies to the messages of a batch. -/
def responsesOf (batch : List FcmMessage) : List (Text × Reply) :=
  batch.map (fun m => (m.token, (pr.fcm m.token).first))

/-- The body of the loop of `sendBatch`, for a batch with its number. -/
@[grind =] def sendSlice (s : Sending) (slice : List FcmMessage × ℕ) : Sending × Bool :=
  let batch := slice.1.map enforcePayloadSize
  let s := { s with attempts := s.attempts ++ batch.map .fcm }
  match pr.sendEach slice.2 with
  | some .nullish => (s, false)
  | some (.value _ _) => (s, true)
  | none =>
    let responses := responsesOf pr batch
    (readResponses responses
      { s with accepted := s.accepted ++ responses.filterMap acceptedOf }, true)

def FCM_BATCH_SIZE : ℕ := 500

/-- `sendBatch(messages)` -/
def sendBatch (messages : List FcmMessage) : Sending × Bool :=
  loop (sendSlice pr) (slices FCM_BATCH_SIZE messages).zipIdx {}

/-- The body of the loop over `iosSends`. -/
def sendIos (s : Sending) (i : IosSend) : Sending × Bool :=
  let s := { s with attempts := s.attempts ++ [i.attempt] }
  match sendToIosDevice (pr.apns i.token) with
  | none => (s, false)
  | some result => (s.record i.token result, true)

def MAX_PUSH_BATCH : ℕ := 200

/-- The users that `sendToOfflineUsers` goes through: those of the festival that are neither
excluded nor unsubscribed from the topic. -/
def filteredIds (festivalId : String) (excludeUserIds : List UserId) (topic : Option String) :
    List UserId :=
  let targets := (st.userIdsByFestival festivalId).filter (fun u => u ∉ excludeUserIds)
  match topic with
  | some topic =>
    if topic = "crew" ∨ topic = "schedule" then
      targets.filter (fun u => u ∉ st.unsubscribedUsers festivalId topic)
    else targets
  | none => targets

/-- The users that are notified: those of the messages, then those of `iosSends`. -/
def Collected.notifiedUsers (col : Collected) : List UserId :=
  (col.fcmMessages.filterMap (fun m =>
      (Keyed.lookup Prod.fst m.token col.tokenUserMap).map Prod.snd) ++
    col.iosSends.map IosSend.userId).dedup

/-- The part of `sendToOfflineUsers` from `sendBatch` on. -/
@[grind =] def sendCollected (payload : Payload) (col : Collected) : Outcome :=
  match sendBatch pr col.fcmMessages with
  | (result, false) => { attempts := result.attempts, accepted := result.accepted, answer := none }
  | (result, true) =>
    match loop (sendIos pr) col.iosSends {} with
    | (ios, false) =>
      { attempts := result.attempts ++ ios.attempts
        accepted := result.accepted ++ ios.accepted
        answer := none }
    | (ios, true) =>
      { attempts := result.attempts ++ ios.attempts
        accepted := result.accepted ++ ios.accepted
        unregistered := (result.staleTokens ++ ios.staleTokens).filterMap (fun t =>
          if t = [] then none else Keyed.lookup Prod.fst t col.tokenUserMap)
        incremented := unreadOf payload.safeData col.notifiedUsers
        answer := some { sent := result.sent + ios.sent } }

/-- `sendToOfflineUsers` -/
def sendToOfflineUsers (festivalId : String) (excludeUserIds : List UserId)
    (topic : Option String) (r : Request) : Outcome :=
  if !c.messaging && !c.apns then refused none
  else
    match allowedType r.type with
    | none => refused (some .invalidType)
    | some type =>
      let userIds := (filteredIds st festivalId excludeUserIds topic).take MAX_PUSH_BATCH
      let payload := enforcePayloadLimits r.title r.body r.data
      let col := userIds.foldl (collectUser c st now r type payload) {}
      if col.fcmMessages.isEmpty && col.iosSends.isEmpty then refused none
      else sendCollected pr payload col

end FestivalPlanner.PushPaths
