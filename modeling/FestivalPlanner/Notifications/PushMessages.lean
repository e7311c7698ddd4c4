import FestivalPlanner.Lib.Keyed
import FestivalPlanner.Lib.NumberText

/-!
# Push messages

What the two send paths of the notification service share: the types of notifications, the limits
of a payload, the window in which a user is not disturbed, and the messages of the two providers.

* `NotificationType`, `prefMap`, `typeChannelMap` — the tables by type;
* `enforcePayloadLimits` — titles, texts and data of limited length;
* `isInDndWindow` — the hours in which nothing is sent;
* `buildFcmMessage`, `buildApnsAlertPayload` — the messages;
* `enforcePayloadSize` — cuts the text of a message of more than 4096 characters;
* `enforcePayloadSize_twice` — **cutting a second time changes the message unless it is small, or
  its text is empty or exactly as long as allowed**.
-/

namespace FestivalPlanner.PushMessages

open Utf16 JsonText List

/-! ## The types -/

/-- `ALLOWED_NOTIFICATION_TYPES` -/
inductive NotificationType where
  | crewUpdate
  | scheduleChange
  | setReminder
  | lineupDrop
  | crewReformed
  | wrapReady
  | crewSos
  deriving DecidableEq

def NotificationType.name : NotificationType → Text
  | .crewUpdate => ofString "crew_update"
  | .scheduleChange => ofString "schedule_change"
  | .setReminder => ofString "set_reminder"
  | .lineupDrop => ofString "lineup_drop"
  | .crewReformed => ofString "crew_reformed"
  | .wrapReady => ofString "wrap_ready"
  | .crewSos => ofString "crew_sos"

/-- `ALLOWED_NOTIFICATION_TYPES.has(type)`, with the type of that name. -/
def allowedType (type : Text) : Option NotificationType :=
  [.crewUpdate, .scheduleChange, .setReminder, .lineupDrop, .crewReformed, .wrapReady,
    .crewSos].find? (fun t : NotificationType => t.name = type)

/-- A row of the table `notification_preferences`. -/
structure Prefs where
  crewUpdates : Bool
  setReminders : Bool
  scheduleChanges : Bool
  lineupDrops : Bool
  crewReformed : Bool
  wrapReady : Bool
  dndStart : Option Text
  dndEnd : Option Text

/-- `PREF_MAP` -/
def prefMap : NotificationType → Option (Prefs → Bool)
  | .crewUpdate => some Prefs.crewUpdates
  | .scheduleChange => some Prefs.scheduleChanges
  | .setReminder => some Prefs.setReminders
  | .lineupDrop => some Prefs.lineupDrops
  | .crewReformed => some Prefs.crewReformed
  | .wrapReady => some Prefs.wrapReady
  | .crewSos => none

/-- `prefs && prefKey && !prefs[prefKey]` -/
def disabled (prefs : Option Prefs) (type : NotificationType) : Bool :=
  match prefs, prefMap type with
  | some prefs, some pref => !pref prefs
  | _, _ => false

/-- `CRITICAL_TYPES` -/
def isCriticalType : NotificationType → Bool
  | .crewSos => true
  | _ => false

/-- `CRITICAL_CHANNEL`: the channel and the category. -/
def criticalChannel : NotificationType → Option (Text × Text)
  | .crewSos => some (ofString "sos", ofString "CREW_SOS")
  | _ => none

/-- `TYPE_CHANNEL_MAP` -/
def typeChannelMap : NotificationType → Option Text
  | .crewUpdate => some (ofString "crew")
  | .crewReformed => some (ofString "crew")
  | _ => none

/-- The channel that `buildFcmMessage` takes when none is given. -/
def updatesChannel : Text := ofString "updates"

/-- The category that the messages have when none is given. -/
def crewUpdateCategory : Text := ofString "CREW_UPDATE"

/-! ## The window without disturbance -/

/-- `getHours()` and `getMinutes()` of the current time. -/
structure Clock where
  hours : ℕ
  minutes : ℕ

/-- `String(n).padStart(2, '0')` -/
def twoDigits (n : ℕ) : Text :=
  List.replicate (2 - (Double.naturalText n).length) (unit '0') ++ Double.naturalText n

def Clock.hhmm (now : Clock) : Text := twoDigits now.hours ++ unit ':' :: twoDigits now.minutes

/-- `isInDndWindow(prefs)` -/
def isInDndWindow (now : Clock) (prefs : Option Prefs) : Bool :=
  match prefs with
  | none => false
  | some prefs =>
    match prefs.dndStart, prefs.dndEnd with
    | some dndStart, some dndEnd =>
      if dndStart = [] ∨ dndEnd = [] then false
      else if dndStart ≤ dndEnd then
        if dndStart = dndEnd then false
        else decide (dndStart ≤ now.hhmm ∧ now.hhmm ≤ dndEnd)
      else decide (dndStart ≤ now.hhmm ∨ now.hhmm < dndEnd)
    | _, _ => false

/-! ## The payload -/

/-- The argument of the two send paths. -/
structure Request where
  type : Text
  title : Text
  body : Text
  /-- `Object.entries(data)`, with the values as strings. -/
  data : List (Text × Text)
  threadId : Option Text

def MAX_TITLE_LENGTH : ℕ := 100

def MAX_BODY_LENGTH : ℕ := 200

def MAX_DATA_KEYS : ℕ := 10

/-- `fields[key] = value` -/
def setField {α : Type} (fields : List (Text × α)) (f : Text × α) : List (Text × α) :=
  Keyed.upsert Prod.fst f fields

/-- `data[key]`, as the text that `|| ''` leaves. -/
def dataField (name : String) (data : List (Text × Text)) : Text :=
  ((Keyed.lookup Prod.fst (ofString name) data).map Prod.snd).getD []

/-- The result of `enforcePayloadLimits`. -/
structure Payload where
  safeTitle : Text
  safeBody : Text
  safeData : List (Text × Text)

/-- `enforcePayloadLimits(title, body, data)` -/
def enforcePayloadLimits (title body : Text) (data : List (Text × Text)) : Payload where
  safeTitle := title.take MAX_TITLE_LENGTH
  safeBody := body.take MAX_BODY_LENGTH
  safeData := (data.take MAX_DATA_KEYS).foldl
    (fun safeData f =>
      -- a text that is assigned to `__proto__` is dropped
      if f.1.take 50 = ofString "__proto__" then safeData
      else setField safeData (f.1.take 50, f.2.take 200)) []

/-- `text || other` -/
def orElse (text : Option Text) (other : Text) : Text :=
  match text with
  | some (c :: t) => c :: t
  | _ => other

/-- `{ type, ...data }` after some fields. -/
def spread (fields : List (Text × Value ℕ)) (data : List (Text × Text)) : List (Text × Value ℕ) :=
  data.foldl (fun fields f => setField fields (f.1, .str f.2)) fields

/-! ## The messages -/

/-- The message that `buildFcmMessage` builds; what is the same in all messages is in `toJson`. -/
structure FcmMessage where
  token : Text
  title : Text
  body : Text
  data : List (Text × Value ℕ)
  channelId : Text
  tag : Text
  badge : ℕ
  threadId : Text
  category : Text
  link : Text

/-- What `buildFcmMessage` and `buildApnsAlertPayload` read beside the payload. -/
structure Envelope where
  type : NotificationType
  badgeCount : ℕ
  threadId : Option Text
  category : Text

/-- `buildFcmMessage` -/
def buildFcmMessage (publicOrigin token : Text) (p : Payload) (e : Envelope) (channelId : Text) :
    FcmMessage :=
  let festivalId := dataField "festivalId" p.safeData
  { token := token
    title := p.safeTitle
    body := p.safeBody
    data := spread [(ofString "type", .str e.type.name)] p.safeData
    channelId := channelId
    tag := orElse e.threadId (ofString "update-" ++ festivalId)
    badge := e.badgeCount
    threadId := orElse e.threadId (ofString "updates")
    category := e.category
    link := orElse (some (dataField "deepLink" p.safeData))
      (publicOrigin ++ ofString "/festival/" ++ festivalId) }

/-- The fields of the payload that `buildApnsAlertPayload` builds. -/
def buildApnsAlertPayload (p : Payload) (e : Envelope) : List (Text × Value ℕ) :=
  spread
    [(ofString "aps", .obj
      [(ofString "alert", .obj
        [(ofString "title", .str p.safeTitle), (ofString "body", .str p.safeBody)]),
       (ofString "sound", .str (ofString "default")),
       (ofString "badge", .num e.badgeCount),
       (ofString "mutable-content", .num 1),
       (ofString "thread-id", .str (orElse e.threadId (ofString "updates"))),
       (ofString "category", .str e.category)]),
     (ofString "type", .str e.type.name)] p.safeData

/-- The object of a message. -/
def FcmMessage.toJson (m : FcmMessage) : Value ℕ :=
  .obj
    [(ofString "token", .str m.token),
     (ofString "notification", .obj
      [(ofString "title", .str m.title), (ofString "body", .str m.body)]),
     (ofString "data", .obj m.data),
     (ofString "android", .obj
      [(ofString "priority", .str (ofString "high")),
       (ofString "notification", .obj
        [(ofString "channelId", .str m.channelId), (ofString "tag", .str m.tag)])]),
     (ofString "apns", .obj
      [(ofString "payload", .obj
        [(ofString "aps", .obj
          [(ofString "sound", .str (ofString "default")),
           (ofString "badge", .num m.badge),
           (ofString "mutable-content", .num 1),
           (ofString "thread-id", .str m.threadId),
           (ofString "category", .str m.category)])]),
       (ofString "headers", .obj
        [(ofString "apns-priority", .str (ofString "10")),
         (ofString "apns-push-type", .str (ofString "alert"))])]),
     (ofString "webpush", .obj
      [(ofString "headers", .obj [(ofString "Urgency", .str (ofString "normal"))]),
       (ofString "fcmOptions", .obj [(ofString "link", .str m.link)])])]

/-- `JSON.stringify(msg).length` -/
def FcmMessage.size (m : FcmMessage) : ℕ := (stringify Double.naturals m.toJson).length

def ellipsis : Text := ofString "..."

/-- `enforcePayloadSize(msg)` -/
@[grind =] def enforcePayloadSize (m : FcmMessage) : FcmMessage :=
  if 4096 < m.size ∧ m.body ≠ [] then { m with body := m.body.take 200 ++ ellipsis } else m

/-! ## Cutting a message -/

section
variable {m : FcmMessage}

@[simp] theorem enforcePayloadSize_token (m : FcmMessage) :
    (enforcePayloadSize m).token = m.token := by
  unfold enforcePayloadSize
  split_ifs <;> rfl

@[simp] theorem enforcePayloadSize_channelId (m : FcmMessage) :
    (enforcePayloadSize m).channelId = m.channelId := by
  unfold enforcePayloadSize
  split_ifs <;> rfl

/-- The three points are written as they are. -/
theorem length_quote_ellipsis (s : Text) :
    (quote (s ++ ellipsis)).length = (quote s).length + 3 := by
  have hescape : escape (s ++ ellipsis) = escape s ++ escape ellipsis :=
    escape_append (t := ellipsis) (fun c hc => by
      cases hc
      decide)
  have hlength : (escape ellipsis).length = 3 := by decide
  simp only [quote, hescape, length_cons, length_append, hlength]
  omega

theorem size_ellipsis (m : FcmMessage) :
    { m with body := m.body ++ ellipsis }.size = m.size + 3 := by
  simp only [FcmMessage.size, FcmMessage.toJson, stringify, stringifyFields, length_cons,
    length_append, length_quote_ellipsis]
  omega

theorem enforcePayloadSize_of_small (h : m.size ≤ 4096 ∨ m.body = []) :
    enforcePayloadSize m = m := by
  unfold enforcePayloadSize
  rw [if_neg]
  rintro ⟨hsize, hbody⟩
  rcases h with h | h
  · omega
  · exact hbody h

theorem enforcePayloadSize_of_big (hsize : 4096 < m.size) (hbody : m.body ≠ []) :
    enforcePayloadSize m = { m with body := m.body.take 200 ++ ellipsis } := by
  rw [enforcePayloadSize, if_pos ⟨hsize, hbody⟩]

/-- A message whose text is of the allowed length is the same after a second cut exactly when it
was not cut, or its text had the full length. -/
theorem enforcePayloadSize_twice (hlength : m.body.length ≤ 200) :
    enforcePayloadSize (enforcePayloadSize m) = enforcePayloadSize m ↔
      m.size ≤ 4096 ∨ m.body = [] ∨ m.body.length = 200 := by
  by_cases hsmall : m.size ≤ 4096 ∨ m.body = []
  · rw [enforcePayloadSize_of_small hsmall, enforcePayloadSize_of_small hsmall]
    tauto
  rw [not_or, not_le] at hsmall
  obtain ⟨hsize, hbody⟩ := hsmall
  have hfirst : enforcePayloadSize m = { m with body := m.body ++ ellipsis } := by
    rw [enforcePayloadSize_of_big hsize hbody, take_of_length_le hlength]
  have hsecond := enforcePayloadSize_of_big (m := { m with body := m.body ++ ellipsis })
    (by rw [size_ellipsis]; omega) (by simp [hbody])
  have hthree : ellipsis.length = 3 := by decide
  rw [hfirst, hsecond]
  constructor
  · intro h
    -- a shorter text grows by the second cut
    have hlen := congrArg (fun m : FcmMessage => m.body.length) h
    simp only [length_append, length_take, hthree] at hlen
    exact .inr (.inr (by omega))
  · rintro (h | h | h)
    · omega
    · exact absurd h hbody
    · simp only [← h, take_left']

end

theorem length_safeBody (title body : Text) (data : List (Text × Text)) :
    (enforcePayloadLimits title body data).safeBody.length ≤ 200 := by
  simp [enforcePayloadLimits, MAX_BODY_LENGTH]

end FestivalPlanner.PushMessages
