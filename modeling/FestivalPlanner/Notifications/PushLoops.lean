import FestivalPlanner.Notifications.PushPaths

/-!
# The loops of the two send paths

What the loops over devices and batches leave, said without the loops.

* `reached` — the devices of a user that a message is meant for;
* `sendToDevices_attempts`, `mem_sendToDevices_unregistered`, `mem_sendToDevices_incremented` —
  **the loop of `send`**, which goes through the devices up to the first that throws;
* `collect_fcmMessages`, `collect_iosSends`, `collect_tokenUserMap` — what `sendToOfflineUsers`
  collects for a user;
* `sendCollected_attempts`, `mem_sendCollected_unregistered`, `mem_sendCollected_incremented` —
  **what it does with it**: the batches up to the first that throws, then the iOS devices.
-/

namespace FestivalPlanner.PushPaths

open Utf16 JsonText PushMessages List Keyed Function Stopping

variable (c : Config) (st : Stores) (pr : Provider) (now : Clock)

/-! ## One device -/

/-- The token is well formed, and its provider is there. -/
@[grind =] def deliverable (d : Device) : Bool :=
  isValidDeviceToken d && (if isIos d then c.apns else c.messaging)

/-- What `send` learns of a device; `none` when the device ends the call. -/
def sendResult (d : Device) : Option DeviceResult :=
  if isIos d then sendToIosDevice (pr.apns d.token)
  else (sendToDevice (pr.fcm d.token)).map Prod.fst

/-- The device ends the call of `send`. -/
def throws (d : Device) : Bool := (sendResult pr d).isNone

/-- The device accepts the message of `send`. -/
def accepts (d : Device) : Bool := (sendResult pr d).any DeviceResult.sent

/-- The device is stale for `send`. -/
def isStale (d : Device) : Bool := (sendResult pr d).any DeviceResult.stale

/-- The message that `send` hands over for a device. -/
def sendAttempt (v : Delivery) (d : Device) : Attempt :=
  if isIos d then apnsAttempt v d.token else .fcm (enforcePayloadSize (fcmMessage c v d.token))

variable {d : Device} {t : Text} {x : Text × UserId}

section
variable {c pr} {v : Delivery}

theorem isValid_of_deliverable (h : deliverable c d = true) : isValidDeviceToken d = true :=
  (Bool.and_eq_true_iff.mp h).1

/-- What `send` may do with a device. -/
theorem sendDevice_cases (c : Config) (pr : Provider) (v : Delivery) (s : Sending) (d : Device) :
    (isValidDeviceToken d = false ∧
      sendDevice c pr v s d = ({ s with staleTokens := s.staleTokens ++ [d.token] }, true)) ∨
    (isValidDeviceToken d = true ∧ deliverable c d = false ∧ sendDevice c pr v s d = (s, true)) ∨
    (deliverable c d = true ∧ sendResult pr d = none ∧
      sendDevice c pr v s d = ({ s with attempts := s.attempts ++ [sendAttempt c v d] }, false)) ∨
    (deliverable c d = true ∧ ∃ r queue, sendResult pr d = some r ∧
      sendDevice c pr v s d =
        ({ ({ s with attempts := s.attempts ++ [sendAttempt c v d] } : Sending).record d.token r
            with retryQueue := queue }, true)) := by
  unfold sendDevice deliverable sendResult sendAttempt
  cases isValidDeviceToken d with
  | false => simp
  | true =>
    cases isIos d with
    | true =>
      cases c.apns with
      | false => simp
      | true => cases sendToIosDevice (pr.apns d.token) <;> simp [Sending.record]
    | false =>
      cases c.messaging with
      | false => simp
      | true =>
        cases sendToDevice (pr.fcm d.token) with
        | none => simp
        | some result =>
          obtain ⟨r, queued⟩ := result
          cases queued <;> simp [Sending.record]

theorem sendDevice_snd (s : Sending) (d : Device) :
    (sendDevice c pr v s d).2 = !(deliverable c d && throws pr d) := by
  rcases sendDevice_cases c pr v s d with ⟨hvalid, h⟩ | ⟨-, hout, h⟩ |
      ⟨hin, hr, h⟩ | ⟨hin, r, queue, hr, h⟩
  · have hout : deliverable c d = false := by simp [deliverable, hvalid]
    simp [h, hout]
  · simp [h, hout]
  · simp [h, hin, throws, hr]
  · simp [h, throws, hr]

theorem sendDevice_attempts (s : Sending) (d : Device) :
    (sendDevice c pr v s d).1.attempts =
      s.attempts ++ if deliverable c d then [sendAttempt c v d] else [] := by
  rcases sendDevice_cases c pr v s d with ⟨hvalid, h⟩ | ⟨-, hout, h⟩ |
      ⟨hin, -, h⟩ | ⟨hin, r, queue, -, h⟩
  · have hout : deliverable c d = false := by simp [deliverable, hvalid]
    simp [h, hout]
  · simp [h, hout]
  · simp [h, hin]
  · simp [h, hin, Sending.record]

theorem sendDevice_accepted (s : Sending) (d : Device) :
    (sendDevice c pr v s d).1.accepted =
      s.accepted ++ if accepts pr d && deliverable c d then [d.token] else [] := by
  rcases sendDevice_cases c pr v s d with ⟨hvalid, h⟩ | ⟨-, hout, h⟩ |
      ⟨hin, hr, h⟩ | ⟨hin, r, queue, hr, h⟩
  · have hout : deliverable c d = false := by simp [deliverable, hvalid]
    simp [h, hout]
  · simp [h, hout]
  · simp [h, accepts, hr]
  · cases hsent : r.sent <;> simp [h, hin, accepts, hr, Sending.record, hsent]

theorem sendDevice_staleTokens (s : Sending) (d : Device) :
    (sendDevice c pr v s d).1.staleTokens =
      s.staleTokens ++
        if !isValidDeviceToken d || deliverable c d && isStale pr d then [d.token] else [] := by
  rcases sendDevice_cases c pr v s d with ⟨hvalid, h⟩ | ⟨hvalid, hout, h⟩ |
      ⟨hin, hr, h⟩ | ⟨hin, r, queue, hr, h⟩
  · simp [h, hvalid]
  · simp [h, hvalid, hout]
  · simp [h, isValid_of_deliverable hin, isStale, hr]
  · cases hstale : r.stale <;>
      simp [h, isValid_of_deliverable hin, hin, isStale, hr, Sending.record, hstale]

theorem sendDevice_sent {s : Sending} (h : s.sent = s.accepted.length) (d : Device) :
    (sendDevice c pr v s d).1.sent = (sendDevice c pr v s d).1.accepted.length := by
  rcases sendDevice_cases c pr v s d with ⟨-, hd⟩ | ⟨-, -, hd⟩ | ⟨-, -, hd⟩ |
      ⟨-, r, queue, -, hd⟩
  · simp [hd, h]
  · simp [hd, h]
  · simp [hd, h]
  · cases hsent : r.sent <;> simp [hd, Sending.record, hsent, h]

end

/-! ## The loop of `send` -/

/-- The devices that a message is meant for. -/
@[grind =] def reached (tokens : List Device) : List Device := tokens.filter (deliverable c)

section
variable {c pr} {v : Delivery} {tokens : List Device}

theorem sendLoop_eq (c : Config) (pr : Provider) (v : Delivery) (tokens : List Device) :
    loop (sendDevice c pr v) tokens {} =
      ((through (fun d => deliverable c d && throws pr d) tokens).foldl
        (fun s d => (sendDevice c pr v s d).1) {}, !(reached c tokens).any (throws pr)) := by
  have h := loop_eq (sendDevice c pr v) (fun s d => (sendDevice c pr v s d).1)
    (fun d => deliverable c d && throws pr d)
    (fun s d => by rw [← sendDevice_snd (v := v) s d]) tokens {}
  rw [h, reached, any_filter]

theorem sendLoop_attempts :
    (loop (sendDevice c pr v) tokens {}).1.attempts =
      (through (throws pr) (reached c tokens)).map (sendAttempt c v) := by
  rw [sendLoop_eq, foldl_append_if Sending.attempts sendDevice_attempts,
    filter_through]
  rfl

theorem sendLoop_accepted :
    (loop (sendDevice c pr v) tokens {}).1.accepted =
      ((through (throws pr) (reached c tokens)).filter (accepts pr)).map
        Device.token := by
  rw [sendLoop_eq, foldl_append_if Sending.accepted sendDevice_accepted,
    ← filter_filter, filter_through]
  rfl

theorem sendLoop_sent (c : Config) (pr : Provider) (v : Delivery) (tokens : List Device) :
    (loop (sendDevice c pr v) tokens {}).1.sent =
      (loop (sendDevice c pr v) tokens {}).1.accepted.length := by
  rw [sendLoop_eq]
  refine List.foldlRecOn (motive := fun s : Sending => s.sent = s.accepted.length) _ _ rfl ?_
  intro s hs d hd
  exact sendDevice_sent hs d

theorem sendLoop_staleTokens (h : (reached c tokens).any (throws pr) = false) :
    t ∈ (loop (sendDevice c pr v) tokens {}).1.staleTokens ↔
      (∃ d ∈ tokens, isValidDeviceToken d = false ∧ d.token = t) ∨
        ∃ d ∈ reached c tokens, isStale pr d = true ∧ d.token = t := by
  have hall : ∀ d ∈ tokens, (deliverable c d && throws pr d) = false := by
    rw [reached, any_filter, any_eq_false] at h
    exact fun d hd => by simpa using h d hd
  rw [sendLoop_eq, foldl_append_if Sending.staleTokens sendDevice_staleTokens,
    through_of_forall hall]
  simp only [nil_append, mem_map, mem_filter, Bool.or_eq_true, Bool.not_eq_true',
    Bool.and_eq_true, reached]
  constructor
  · rintro ⟨d, ⟨hd, hvalid | ⟨hin, hstale⟩⟩, rfl⟩
    · exact .inl ⟨d, hd, hvalid, rfl⟩
    · exact .inr ⟨d, ⟨hd, hin⟩, hstale, rfl⟩
  · rintro (⟨d, hd, hvalid, rfl⟩ | ⟨d, ⟨hd, hin⟩, hstale, rfl⟩)
    · exact ⟨d, ⟨hd, .inl hvalid⟩, rfl⟩
    · exact ⟨d, ⟨hd, .inr ⟨hin, hstale⟩⟩, rfl⟩

end

/-! ## `send` to a user that is to be notified -/

/-- Nothing keeps a notification that is not critical from the user. -/
@[grind =] def passes (userId : UserId) (type : NotificationType) : Bool :=
  (c.messaging || c.apns) && !disabled (st.notificationPrefs userId) type &&
    !isInDndWindow now (st.notificationPrefs userId)

/-- The channel of a type that is not critical. -/
def channelOf (type : NotificationType) : Text := (typeChannelMap type).getD updatesChannel

/-- What is the same for the devices of a user. -/
def delivery (userId : UserId) (r : Request) (type : NotificationType) (channelId : Text) :
    Delivery :=
  { userId := userId
    payload := enforcePayloadLimits r.title r.body r.data
    envelope :=
      { type := type
        badgeCount := getUnreadCount (st.notificationCounts userId)
        threadId := r.threadId
        category := crewUpdateCategory }
    channelId := channelId }

/-- `safeData.festivalId` -/
def festivalOf (r : Request) : Text :=
  dataField "festivalId" (enforcePayloadLimits r.title r.body r.data).safeData

section
variable {c st pr now} {userId : UserId} {r : Request} {type : NotificationType}

theorem messaging_or_apns (h : passes c st now userId type = true) :
    (!c.messaging && !c.apns) = false := by
  simp only [passes, Bool.and_eq_true] at h
  rcases Bool.or_eq_true_iff.mp h.1.1 with h | h <;> simp [h]

theorem send_of_passes (htype : allowedType r.type = some type)
    (hcritical : isCriticalType type = false) (h : passes c st now userId type = true)
    (htokens : st.deviceTokens userId ≠ []) :
    send c st pr now userId r =
      sendToDevices c pr (delivery st userId r type (channelOf type)) (st.deviceTokens userId) := by
  have hnone : criticalChannel type = none := by
    cases type <;> first | rfl | cases hcritical
  have hempty : (st.deviceTokens userId).isEmpty = false := by simpa using htokens
  have hout := messaging_or_apns h
  simp only [passes, Bool.and_eq_true, Bool.not_eq_true'] at h
  unfold send
  simp only [hout, Bool.false_eq_true, if_false, htype, hcritical, Bool.not_false, Bool.true_and,
    h.1.2, h.2, hnone, Option.map_none, Option.none_or, Option.getD_none, hempty]
  rfl

theorem sendToDevices_attempts (v : Delivery) (tokens : List Device) :
    (sendToDevices c pr v tokens).attempts =
      (through (throws pr) (reached c tokens)).map (sendAttempt c v) := by
  rw [← sendLoop_attempts, sendToDevices]
  split <;> simp [*]

theorem sendToDevices_accepted (v : Delivery) (tokens : List Device) :
    (sendToDevices c pr v tokens).accepted =
      ((through (throws pr) (reached c tokens)).filter (accepts pr)).map
        Device.token := by
  rw [← sendLoop_accepted (v := v), sendToDevices]
  split <;> simp [*]

theorem mem_sendToDevices_unregistered {v : Delivery} {tokens : List Device} :
    x ∈ (sendToDevices c pr v tokens).unregistered ↔
      x.2 = v.userId ∧ (reached c tokens).any (throws pr) = false ∧ x.1 ≠ [] ∧
        ((∃ d ∈ tokens, isValidDeviceToken d = false ∧ d.token = x.1) ∨
          ∃ d ∈ reached c tokens, isStale pr d = true ∧ d.token = x.1) := by
  have hloop := sendLoop_eq c pr v tokens
  rw [sendToDevices]
  split
  · rename_i s heq
    have hnone : (reached c tokens).any (throws pr) = false := by
      rw [heq] at hloop
      simpa using (congrArg Prod.snd hloop).symm
    have hstale := sendLoop_staleTokens (v := v) hnone (t := x.1)
    rw [heq] at hstale
    obtain ⟨t, u⟩ := x
    simp only [mem_map, mem_filter, decide_eq_true_eq, Prod.mk.injEq, hnone, true_and]
    constructor
    · rintro ⟨t, ⟨ht, hne⟩, rfl, rfl⟩
      exact ⟨rfl, hne, hstale.mp ht⟩
    · rintro ⟨rfl, hne, h⟩
      exact ⟨t, ⟨hstale.mpr h, hne⟩, rfl, rfl⟩
  · rename_i s heq
    have hsome : (reached c tokens).any (throws pr) = true := by
      rw [heq] at hloop
      simpa using (congrArg Prod.snd hloop).symm
    simp [hsome]

theorem mem_unreadOf {safeData : List (Text × Text)} {userIds : List UserId} :
    userId ∈ (unreadOf safeData userIds).map Prod.fst ↔
      dataField "festivalId" safeData ≠ [] ∧ userId ∈ userIds := by
  unfold unreadOf
  split_ifs with h
  · simp [h]
  · simp [h, comp_def]

theorem mem_sendToDevices_incremented {v : Delivery} {tokens : List Device} :
    v.userId ∈ (sendToDevices c pr v tokens).incremented.map Prod.fst ↔
      (reached c tokens).any (throws pr) = false ∧
        dataField "festivalId" v.payload.safeData ≠ [] ∧
          (sendToDevices c pr v tokens).accepted ≠ [] := by
  have hloop := sendLoop_eq c pr v tokens
  have hsent := sendLoop_sent c pr v tokens
  rw [sendToDevices]
  split
  · rename_i s heq
    rw [heq] at hloop hsent
    have hnone : (reached c tokens).any (throws pr) = false := by
      simpa using (congrArg Prod.snd hloop).symm
    have hpos : 0 < s.sent ↔ s.accepted ≠ [] := by
      rw [hsent, length_pos_iff]
    split_ifs with h
    · simp [mem_unreadOf, hnone, hpos.mp h]
    · simp [hnone, mt hpos.mpr h]
  · rename_i s heq
    rw [heq] at hloop
    have hsome : (reached c tokens).any (throws pr) = true := by
      simpa using (congrArg Prod.snd hloop).symm
    simp [hsome]

end

/-! ## The loop over the devices of a user in `sendToOfflineUsers` -/

/-- The devices of the messaging client. -/
def fcmDevices (tokens : List Device) : List Device :=
  (reached c tokens).filter (fun d => !isIos d)

/-- The devices of the APNs client. -/
def iosDevices (tokens : List Device) : List Device := (reached c tokens).filter isIos

/-- The message that `sendToOfflineUsers` collects for a device. -/
@[grind =] def batchMessage (v : Delivery) (d : Device) : FcmMessage :=
  enforcePayloadSize (fcmMessage c v d.token)

def iosSend (v : Delivery) (d : Device) : IosSend :=
  { userId := v.userId, token := d.token, attempt := apnsAttempt v d.token }

section
variable {c} {v : Delivery}

/-- What `sendToOfflineUsers` may do with a device while it collects. -/
theorem collectDevice_cases (v : Delivery) (col : Collected) (d : Device) :
    (deliverable c d = false ∧ collectDevice c v col d = col) ∨
    (deliverable c d = true ∧ isIos d = true ∧
      collectDevice c v col d =
        { col with
          tokenUserMap := setField col.tokenUserMap (d.token, v.userId)
          iosSends := col.iosSends ++ [iosSend v d] }) ∨
    (deliverable c d = true ∧ isIos d = false ∧
      collectDevice c v col d =
        { col with
          tokenUserMap := setField col.tokenUserMap (d.token, v.userId)
          fcmMessages := col.fcmMessages ++ [batchMessage c v d] }) := by
  unfold collectDevice deliverable
  cases isValidDeviceToken d with
  | false => simp
  | true =>
    cases isIos d with
    | true => cases c.apns <;> simp [iosSend]
    | false => cases c.messaging <;> simp [batchMessage]

theorem collect_fcmMessages (tokens : List Device) :
    (tokens.foldl (collectDevice c v) {}).fcmMessages =
      (fcmDevices c tokens).map (batchMessage c v) := by
  rw [foldl_append_if Collected.fcmMessages
    (q := fun d => !isIos d && deliverable c d) (f := batchMessage c v), ← filter_filter]
  · rfl
  · intro col d
    rcases collectDevice_cases (c := c) v col d with ⟨hout, h⟩ | ⟨hin, hios, h⟩ | ⟨hin, hios, h⟩
    · simp [h, hout]
    · simp [h, hios]
    · simp [h, hin, hios]

theorem collect_iosSends (tokens : List Device) :
    (tokens.foldl (collectDevice c v) {}).iosSends = (iosDevices c tokens).map (iosSend v) := by
  rw [foldl_append_if Collected.iosSends
    (q := fun d => isIos d && deliverable c d) (f := iosSend v), ← filter_filter]
  · rfl
  · intro col d
    rcases collectDevice_cases (c := c) v col d with ⟨hout, h⟩ | ⟨hin, hios, h⟩ | ⟨hin, hios, h⟩
    · simp [h, hout]
    · simp [h, hin, hios]
    · simp [h, hios]

theorem lookup_collectDevice (col : Collected) (d : Device) (t : Text) :
    lookup Prod.fst t (collectDevice c v col d).tokenUserMap =
      if deliverable c d = true ∧ d.token = t then some (t, v.userId)
      else lookup Prod.fst t col.tokenUserMap := by
  rcases collectDevice_cases (c := c) v col d with ⟨hout, h⟩ | ⟨hin, -, h⟩ | ⟨hin, -, h⟩
  · simp [h, hout]
  all_goals
    rw [h]
    change lookup Prod.fst t (upsert Prod.fst (d.token, v.userId) _) = _
    rw [lookup_upsert]
    by_cases ht : d.token = t
    · simp [hin, ht]
    · simp [ht]

theorem lookup_collect (tokens : List Device) (col : Collected) (t : Text) :
    lookup Prod.fst t (tokens.foldl (collectDevice c v) col).tokenUserMap =
      if t ∈ (reached c tokens).map Device.token then some (t, v.userId)
      else lookup Prod.fst t col.tokenUserMap := by
  induction tokens generalizing col with
  | nil => rfl
  | cons d tokens ih =>
    rw [foldl_cons, ih, lookup_collectDevice]
    by_cases hin : deliverable c d = true
    · have hcons : reached c (d :: tokens) = d :: reached c tokens := by simp [reached, hin]
      rw [hcons, map_cons]
      by_cases ht : d.token = t
      · simp [hin, ht]
      · simp [ht, Ne.symm ht]
    · have hcons : reached c (d :: tokens) = reached c tokens := by simp [reached, hin]
      rw [hcons]
      simp [hin]

/-- The map knows the devices that are sent to, and all of them belong to the user. -/
theorem collect_tokenUserMap (tokens : List Device) (t : Text) :
    lookup Prod.fst t (tokens.foldl (collectDevice c v) {}).tokenUserMap =
      if t ∈ (reached c tokens).map Device.token then some (t, v.userId) else none :=
  lookup_collect tokens {} t

end

/-! ## `sendBatch` -/

/-- The batch, by its number, ends the call of `sendToOfflineUsers`. -/
def batchThrows (k : ℕ) : Bool :=
  match pr.sendEach k with
  | some .nullish => true
  | _ => false

/-- `sendEach` answers for the devices of the batch of this number. -/
def answers (k : ℕ) : Bool := (pr.sendEach k).isNone

/-- `sendEach` reports that the message was accepted. -/
def Reply.isAccepted : Reply → Bool
  | .accepted => true
  | .rejected _ => false

/-- The code of the error can be read. -/
def Reply.readable : Reply → Bool
  | .rejected (.value _ code) => (isStaleTokenError code).isSome
  | _ => true

/-- The code of the error is one of a stale token. -/
def Reply.stale : Reply → Bool
  | .rejected (.value _ code) => isStaleTokenError code = some true
  | _ => false

section
variable {pr}

theorem readResponses_accepted (responses : List (Text × Reply)) (s : Sending) :
    (readResponses responses s).accepted = s.accepted ∧
      (readResponses responses s).attempts = s.attempts := by
  fun_induction readResponses responses s with
  | case1 => exact ⟨rfl, rfl⟩
  | case2 _ _ _ ih => exact ih
  | case3 _ _ _ ih => exact ih
  | case4 => exact ⟨rfl, rfl⟩
  | case5 s token _ code responses stale _ ih => cases stale <;> simpa using ih

/-- The stale tokens are those of the responses before the first that cannot be read. -/
theorem readResponses_staleTokens (responses : List (Text × Reply)) (s : Sending) :
    (readResponses responses s).staleTokens =
      s.staleTokens ++
        ((responses.takeWhile (fun e => e.2.readable)).filter (fun e => e.2.stale)).map
          Prod.fst := by
  fun_induction readResponses responses s with
  | case1 => simp
  | case2 s token responses ih => simpa [Reply.readable, Reply.stale] using ih
  | case3 s token responses ih => simpa [Reply.readable, Reply.stale] using ih
  | case4 s token _ code responses h => simp [Reply.readable, h]
  | case5 s token _ code responses stale h ih =>
    cases stale <;> simpa [Reply.readable, Reply.stale, h] using ih

theorem sendSlice_snd (s : Sending) (slice : List FcmMessage × ℕ) :
    (sendSlice pr s slice).2 = !batchThrows pr slice.2 := by
  unfold sendSlice batchThrows
  split <;> simp_all

theorem sendSlice_attempts (s : Sending) (slice : List FcmMessage × ℕ) :
    (sendSlice pr s slice).1.attempts =
      s.attempts ++ slice.1.map (fun m => .fcm (enforcePayloadSize m)) := by
  unfold sendSlice
  split
  · simp
  · simp
  · simp [readResponses_accepted]

/-- The responses depend on the tokens only. -/
theorem responsesOf_enforcePayloadSize (messages : List FcmMessage) :
    responsesOf pr (messages.map enforcePayloadSize) =
      (messages.map FcmMessage.token).map (fun t => (t, (pr.fcm t).first)) := by
  simp [responsesOf, comp_def]

/-- The devices of a batch that accept their messages. -/
def batchAccepted (pr : Provider) (tokens : List Text) (k : ℕ) : List Text :=
  if answers pr k then tokens.filter (fun t => (pr.fcm t).first.isAccepted) else []

/-- The devices of a batch that are found stale. -/
def batchStale (pr : Provider) (tokens : List Text) (k : ℕ) : List Text :=
  if answers pr k then
    (tokens.takeWhile (fun t => (pr.fcm t).first.readable)).filter
      (fun t => (pr.fcm t).first.stale)
  else []

theorem filterMap_acceptedOf (tokens : List Text) :
    (tokens.map (fun t => (t, (pr.fcm t).first))).filterMap acceptedOf =
      tokens.filter (fun t => (pr.fcm t).first.isAccepted) := by
  rw [filterMap_map, ← filterMap_eq_filter]
  congr 1
  funext t
  cases h : (pr.fcm t).first <;> simp [acceptedOf, Option.guard, Reply.isAccepted, h]

theorem sendSlice_accepted (s : Sending) (slice : List FcmMessage × ℕ) :
    (sendSlice pr s slice).1.accepted =
      s.accepted ++ batchAccepted pr (slice.1.map FcmMessage.token) slice.2 := by
  unfold sendSlice batchAccepted answers
  split
  · rename_i h
    simp [h]
  · rename_i h
    simp [h]
  · rename_i h
    simp only [h, Option.isNone_none, if_true, readResponses_accepted,
      responsesOf_enforcePayloadSize]
    rw [filterMap_acceptedOf]

theorem sendSlice_staleTokens (s : Sending) (slice : List FcmMessage × ℕ) :
    (sendSlice pr s slice).1.staleTokens =
      s.staleTokens ++ batchStale pr (slice.1.map FcmMessage.token) slice.2 := by
  unfold sendSlice batchStale answers
  split
  · rename_i h
    simp [h]
  · rename_i h
    simp [h]
  · rename_i h
    simp only [h, Option.isNone_none, if_true, readResponses_staleTokens,
      responsesOf_enforcePayloadSize]
    rw [takeWhile_map, filter_map, map_map]
    simp [comp_def]

end

/-- The batches of the devices of a user, with their numbers. -/
def batches (tokens : List Device) : List (List Device × ℕ) :=
  (slices FCM_BATCH_SIZE (fcmDevices c tokens)).zipIdx

/-- The message that `sendBatch` hands over for a device. -/
def batchAttempt (v : Delivery) (d : Device) : Attempt :=
  .fcm (enforcePayloadSize (batchMessage c v d))

section
variable {c pr} {v : Delivery} {tokens : List Device}

@[simp] theorem batchMessage_token (d : Device) : (batchMessage c v d).token = d.token := by
  simp [batchMessage, fcmMessage, buildFcmMessage]

theorem slices_batchMessage (v : Delivery) (tokens : List Device) :
    (slices FCM_BATCH_SIZE ((fcmDevices c tokens).map (batchMessage c v))).zipIdx =
      (batches c tokens).map (fun b => (b.1.map (batchMessage c v), b.2)) := by
  rw [slices_map, zipIdx_map]
  rfl

theorem sendBatch_eq (v : Delivery) (tokens : List Device) :
    sendBatch pr ((fcmDevices c tokens).map (batchMessage c v)) =
      (((through (fun b => batchThrows pr b.2) (batches c tokens)).map
          (fun b => (b.1.map (batchMessage c v), b.2))).foldl (fun s b => (sendSlice pr s b).1) {},
        !(batches c tokens).any (fun b => batchThrows pr b.2)) := by
  have h := loop_eq (sendSlice pr) (fun s b => (sendSlice pr s b).1)
    (fun b => batchThrows pr b.2)
    (fun s b => by rw [← sendSlice_snd s b])
    ((batches c tokens).map (fun b => (b.1.map (batchMessage c v), b.2))) {}
  rw [sendBatch, slices_batchMessage, h, through_map, any_map]
  rfl

theorem sendBatch_attempts :
    (sendBatch pr ((fcmDevices c tokens).map (batchMessage c v))).1.attempts =
      (through (fun b => batchThrows pr b.2) (batches c tokens)).flatMap
        (fun b => b.1.map (batchAttempt c v)) := by
  rw [sendBatch_eq, foldl_append Sending.attempts sendSlice_attempts, flatMap_map]
  simp only [nil_append, map_map]
  rfl

theorem sendBatch_accepted :
    (sendBatch pr ((fcmDevices c tokens).map (batchMessage c v))).1.accepted =
      (through (fun b => batchThrows pr b.2) (batches c tokens)).flatMap
        (fun b => batchAccepted pr (b.1.map Device.token) b.2) := by
  rw [sendBatch_eq, foldl_append Sending.accepted sendSlice_accepted, flatMap_map]
  simp [comp_def]

theorem sendBatch_staleTokens
    (h : (batches c tokens).any (fun b => batchThrows pr b.2) = false) :
    (sendBatch pr ((fcmDevices c tokens).map (batchMessage c v))).1.staleTokens =
      (batches c tokens).flatMap (fun b => batchStale pr (b.1.map Device.token) b.2) := by
  have hall : ∀ b ∈ batches c tokens, batchThrows pr b.2 = false :=
    fun b hb => by simpa using any_eq_false.mp h b hb
  rw [sendBatch_eq, foldl_append Sending.staleTokens sendSlice_staleTokens,
    through_of_forall hall, flatMap_map]
  simp [comp_def]

/-! ## The iOS devices of `sendToOfflineUsers` -/

theorem isIos_of_mem_iosDevices (h : d ∈ iosDevices c tokens) : isIos d = true :=
  (mem_filter.mp h).2

/-- What the loop over `iosSends` may do with a send. -/
theorem sendIos_cases (pr : Provider) (s : Sending) (i : IosSend) :
    (sendToIosDevice (pr.apns i.token) = none ∧
      sendIos pr s i = ({ s with attempts := s.attempts ++ [i.attempt] }, false)) ∨
    ∃ r, sendToIosDevice (pr.apns i.token) = some r ∧
      sendIos pr s i =
        (({ s with attempts := s.attempts ++ [i.attempt] } : Sending).record i.token r, true) := by
  unfold sendIos
  cases sendToIosDevice (pr.apns i.token) <;> simp

theorem sendIos_snd (s : Sending) (i : IosSend) :
    (sendIos pr s i).2 = !(sendToIosDevice (pr.apns i.token)).isNone := by
  rcases sendIos_cases pr s i with ⟨hr, h⟩ | ⟨r, hr, h⟩ <;> simp [h, hr]

theorem sendIos_attempts (s : Sending) (i : IosSend) :
    (sendIos pr s i).1.attempts = s.attempts ++ [i.attempt] := by
  rcases sendIos_cases pr s i with ⟨-, h⟩ | ⟨r, -, h⟩ <;> simp [h, Sending.record]

theorem sendIos_accepted (s : Sending) (i : IosSend) :
    (sendIos pr s i).1.accepted =
      s.accepted ++
        if (sendToIosDevice (pr.apns i.token)).any DeviceResult.sent then [i.token] else [] := by
  rcases sendIos_cases pr s i with ⟨hr, h⟩ | ⟨r, hr, h⟩
  · simp [h, hr]
  · cases hsent : r.sent <;> simp [h, hr, Sending.record, hsent]

theorem sendIos_staleTokens (s : Sending) (i : IosSend) :
    (sendIos pr s i).1.staleTokens =
      s.staleTokens ++
        if (sendToIosDevice (pr.apns i.token)).any DeviceResult.stale then [i.token] else [] := by
  rcases sendIos_cases pr s i with ⟨hr, h⟩ | ⟨r, hr, h⟩
  · simp [h, hr]
  · cases hstale : r.stale <;> simp [h, hr, Sending.record, hstale]

theorem sendResult_of_isIos (h : isIos d = true) :
    sendResult pr d = sendToIosDevice (pr.apns d.token) := by
  rw [sendResult, if_pos h]

theorem iosLoop_eq (v : Delivery) (tokens : List Device) :
    loop (sendIos pr) ((iosDevices c tokens).map (iosSend v)) {} =
      (((through (throws pr) (iosDevices c tokens)).map (iosSend v)).foldl
          (fun s i => (sendIos pr s i).1) {},
        !(iosDevices c tokens).any (throws pr)) := by
  have hthrows : ∀ d ∈ iosDevices c tokens,
      (sendToIosDevice (pr.apns (iosSend v d).token)).isNone = throws pr d := by
    intro d hd
    rw [throws, sendResult_of_isIos (isIos_of_mem_iosDevices hd)]
    rfl
  have h := loop_eq (sendIos pr) (fun s i => (sendIos pr s i).1)
    (fun i => (sendToIosDevice (pr.apns i.token)).isNone)
    (fun s i => by rw [← sendIos_snd s i]) ((iosDevices c tokens).map (iosSend v)) {}
  have hany : (iosDevices c tokens).any
      (fun d => (sendToIosDevice (pr.apns (iosSend v d).token)).isNone) =
        (iosDevices c tokens).any (throws pr) := by
    rw [Bool.eq_iff_iff, any_eq_true, any_eq_true]
    exact exists_congr fun d => and_congr_right fun hd => by rw [hthrows d hd]
  rw [h, through_map, through_congr hthrows, any_map, ← hany]
  rfl

theorem iosLoop_attempts :
    (loop (sendIos pr) ((iosDevices c tokens).map (iosSend v)) {}).1.attempts =
      (through (throws pr) (iosDevices c tokens)).map
        (fun d => apnsAttempt v d.token) := by
  rw [iosLoop_eq, foldl_append Sending.attempts sendIos_attempts,
    flatMap_map, map_eq_flatMap]
  rfl

theorem iosLoop_accepted :
    (loop (sendIos pr) ((iosDevices c tokens).map (iosSend v)) {}).1.accepted =
      ((through (throws pr) (iosDevices c tokens)).filter (accepts pr)).map
        Device.token := by
  rw [iosLoop_eq, foldl_append_if Sending.accepted sendIos_accepted,
    filter_map, map_map]
  have haccepts : ∀ d ∈ through (throws pr) (iosDevices c tokens),
      ((fun i : IosSend => (sendToIosDevice (pr.apns i.token)).any DeviceResult.sent) ∘
        iosSend v) d = accepts pr d := by
    intro d hd
    rw [accepts, sendResult_of_isIos (isIos_of_mem_iosDevices (mem_of_mem_through hd))]
    rfl
  rw [filter_congr haccepts]
  rfl

theorem iosLoop_staleTokens (h : (iosDevices c tokens).any (throws pr) = false) :
    (loop (sendIos pr) ((iosDevices c tokens).map (iosSend v)) {}).1.staleTokens =
      ((iosDevices c tokens).filter (isStale pr)).map Device.token := by
  have hall : ∀ d ∈ iosDevices c tokens, throws pr d = false :=
    fun d hd => by simpa using any_eq_false.mp h d hd
  rw [iosLoop_eq, foldl_append_if Sending.staleTokens sendIos_staleTokens,
    through_of_forall hall, filter_map, map_map]
  have hstale : ∀ d ∈ iosDevices c tokens,
      ((fun i : IosSend => (sendToIosDevice (pr.apns i.token)).any DeviceResult.stale) ∘
        iosSend v) d = isStale pr d := by
    intro d hd
    rw [isStale, sendResult_of_isIos (isIos_of_mem_iosDevices hd)]
    rfl
  rw [filter_congr hstale]
  rfl

end

/-! ## What `sendToOfflineUsers` does for a user -/

section
variable {pr} {payload : Payload} {col : Collected}

theorem sendCollected_sends (payload : Payload) (col : Collected) :
    (sendCollected pr payload col).attempts =
        (sendBatch pr col.fcmMessages).1.attempts ++
          (if (sendBatch pr col.fcmMessages).2 then
            (loop (sendIos pr) col.iosSends {}).1.attempts else []) ∧
      (sendCollected pr payload col).accepted =
        (sendBatch pr col.fcmMessages).1.accepted ++
          if (sendBatch pr col.fcmMessages).2 then
            (loop (sendIos pr) col.iosSends {}).1.accepted else [] := by
  unfold sendCollected
  cases sendBatch pr col.fcmMessages with
  | mk result completed =>
    cases completed with
    | false => simp
    | true =>
      cases loop (sendIos pr) col.iosSends {} with
      | mk ios completed => cases completed <;> simp

theorem sendCollected_of_completed (payload : Payload) (col : Collected)
    (hbatch : (sendBatch pr col.fcmMessages).2 = true)
    (hios : (loop (sendIos pr) col.iosSends {}).2 = true) :
    (sendCollected pr payload col).unregistered =
        ((sendBatch pr col.fcmMessages).1.staleTokens ++
          (loop (sendIos pr) col.iosSends {}).1.staleTokens).filterMap (fun t =>
            if t = [] then none else lookup Prod.fst t col.tokenUserMap) ∧
      (sendCollected pr payload col).incremented = unreadOf payload.safeData col.notifiedUsers := by
  unfold sendCollected
  cases h : sendBatch pr col.fcmMessages with
  | mk result completed =>
    obtain rfl : completed = true := by rw [h] at hbatch; exact hbatch
    cases h' : loop (sendIos pr) col.iosSends {} with
    | mk ios completed =>
      obtain rfl : completed = true := by rw [h'] at hios; exact hios
      exact ⟨rfl, rfl⟩

theorem sendCollected_of_not_completed (payload : Payload)
    (h : (sendBatch pr col.fcmMessages).2 = false ∨
      (loop (sendIos pr) col.iosSends {}).2 = false) :
    (sendCollected pr payload col).unregistered = [] ∧
      (sendCollected pr payload col).incremented = [] := by
  unfold sendCollected
  cases hbatch : sendBatch pr col.fcmMessages with
  | mk result completed =>
    cases completed with
    | false => exact ⟨rfl, rfl⟩
    | true =>
      cases hios : loop (sendIos pr) col.iosSends {} with
      | mk ios completed =>
        cases completed with
        | false => exact ⟨rfl, rfl⟩
        | true => simp [hbatch, hios] at h

end

/-- What is collected for a user. -/
@[grind =] def collected (v : Delivery) (tokens : List Device) : Collected :=
  tokens.foldl (collectDevice c v) {}

/-- Neither a batch nor an iOS device ends the call of `sendToOfflineUsers`. -/
def batchEnds (tokens : List Device) : Bool :=
  !(batches c tokens).any (fun b => batchThrows pr b.2) && !(iosDevices c tokens).any (throws pr)

section
variable {c pr} {v : Delivery} {tokens : List Device}

theorem sendBatch_collected :
    sendBatch pr (collected c v tokens).fcmMessages =
      sendBatch pr ((fcmDevices c tokens).map (batchMessage c v)) := by
  rw [collected, collect_fcmMessages]

theorem iosLoop_collected :
    loop (sendIos pr) (collected c v tokens).iosSends {} =
      loop (sendIos pr) ((iosDevices c tokens).map (iosSend v)) {} := by
  rw [collected, collect_iosSends]

theorem sendCollected_attempts (v : Delivery) (tokens : List Device) :
    (sendCollected pr v.payload (collected c v tokens)).attempts =
      (through (fun b => batchThrows pr b.2) (batches c tokens)).flatMap
          (fun b => b.1.map (batchAttempt c v)) ++
        if (batches c tokens).any (fun b => batchThrows pr b.2) then []
        else (through (throws pr) (iosDevices c tokens)).map
          (fun d => apnsAttempt v d.token) := by
  rw [(sendCollected_sends _ _).1, sendBatch_collected, iosLoop_collected, sendBatch_attempts,
    iosLoop_attempts, sendBatch_eq]
  cases (batches c tokens).any (fun b => batchThrows pr b.2) <;> simp

theorem sendCollected_accepted (v : Delivery) (tokens : List Device) :
    (sendCollected pr v.payload (collected c v tokens)).accepted =
      (through (fun b => batchThrows pr b.2) (batches c tokens)).flatMap
          (fun b => batchAccepted pr (b.1.map Device.token) b.2) ++
        if (batches c tokens).any (fun b => batchThrows pr b.2) then []
        else ((through (throws pr) (iosDevices c tokens)).filter (accepts pr)).map
          Device.token := by
  rw [(sendCollected_sends _ _).2, sendBatch_collected, iosLoop_collected, sendBatch_accepted,
    iosLoop_accepted, sendBatch_eq]
  cases (batches c tokens).any (fun b => batchThrows pr b.2) <;> simp

/-- The batches are made of the devices of the messaging client. -/
theorem mem_of_mem_batches {b : List Device × ℕ} (hb : b ∈ batches c tokens) (hd : d ∈ b.1) :
    d ∈ fcmDevices c tokens := by
  have hslice := fst_mem_of_mem_zipIdx hb
  rw [← flatten_slices (n := FCM_BATCH_SIZE) (by decide) (fcmDevices c tokens)]
  exact mem_flatten.mpr ⟨b.1, hslice, hd⟩

theorem mem_batchStale {l : List Text} {k : ℕ} (h : t ∈ batchStale pr l k) : t ∈ l := by
  unfold batchStale at h
  split at h
  · exact (List.takeWhile_prefix _).subset (mem_of_mem_filter h)
  · cases h

/-- The tokens of the devices that are found stale when the call comes to its end. -/
def batchRemoved (c : Config) (pr : Provider) (tokens : List Device) : List Text :=
  (batches c tokens).flatMap (fun b => batchStale pr (b.1.map Device.token) b.2) ++
    ((iosDevices c tokens).filter (isStale pr)).map Device.token

theorem mem_reached_of_mem_batchRemoved (h : t ∈ batchRemoved c pr tokens) :
    t ∈ (reached c tokens).map Device.token := by
  rcases mem_append.mp h with h | h
  · obtain ⟨b, hb, ht⟩ := mem_flatMap.mp h
    obtain ⟨d, hd, rfl⟩ := mem_map.mp (mem_batchStale ht)
    exact mem_map_of_mem (mem_of_mem_filter (mem_of_mem_batches hb hd))
  · obtain ⟨d, hd, rfl⟩ := mem_map.mp h
    exact mem_map_of_mem (mem_of_mem_filter (mem_of_mem_filter hd))

theorem token_ne_nil_of_mem_reached (h : t ∈ (reached c tokens).map Device.token) : t ≠ [] := by
  obtain ⟨d, hd, rfl⟩ := mem_map.mp h
  have hvalid := isValid_of_deliverable (of_mem_filter hd)
  simp only [isValidDeviceToken, decide_eq_true_eq] at hvalid
  exact ne_nil_of_length_pos (by omega)

theorem batchEnds_iff :
    batchEnds c pr tokens = true ↔
      (batches c tokens).any (fun b => batchThrows pr b.2) = false ∧
        (iosDevices c tokens).any (throws pr) = false := by
  rw [batchEnds, Bool.and_eq_true, Bool.not_eq_true', Bool.not_eq_true']

/-- What is left at the end of a call that comes to it. -/
theorem sendCollected_ends (h : batchEnds c pr tokens = true) :
    (sendCollected pr v.payload (collected c v tokens)).unregistered =
        (batchRemoved c pr tokens).filterMap (fun t =>
          if t = [] then none
          else lookup Prod.fst t (collected c v tokens).tokenUserMap) ∧
      (sendCollected pr v.payload (collected c v tokens)).incremented =
        unreadOf v.payload.safeData (collected c v tokens).notifiedUsers := by
  obtain ⟨hbatch, hios⟩ := batchEnds_iff.mp h
  have hbatch' : (sendBatch pr (collected c v tokens).fcmMessages).2 = true := by
    rw [sendBatch_collected, sendBatch_eq]
    simp [hbatch]
  have hios' : (loop (sendIos pr) (collected c v tokens).iosSends {}).2 = true := by
    rw [iosLoop_collected, iosLoop_eq]
    simp [hios]
  have h := sendCollected_of_completed v.payload (collected c v tokens) hbatch' hios'
  rw [h.1, h.2, sendBatch_collected, iosLoop_collected, sendBatch_staleTokens hbatch,
    iosLoop_staleTokens hios]
  exact ⟨rfl, rfl⟩

theorem sendCollected_not_ends (h : batchEnds c pr tokens = false) :
    (sendCollected pr v.payload (collected c v tokens)).unregistered = [] ∧
      (sendCollected pr v.payload (collected c v tokens)).incremented = [] := by
  refine sendCollected_of_not_completed v.payload ?_
  rw [sendBatch_collected, iosLoop_collected, sendBatch_eq, iosLoop_eq]
  simpa [batchEnds, Classical.or_iff_not_imp_left] using h

theorem mem_sendCollected_unregistered :
    x ∈ (sendCollected pr v.payload (collected c v tokens)).unregistered ↔
      x.2 = v.userId ∧ batchEnds c pr tokens = true ∧ x.1 ∈ batchRemoved c pr tokens := by
  cases h : batchEnds c pr tokens with
  | false => simp [sendCollected_not_ends h]
  | true =>
    rw [(sendCollected_ends h).1, mem_filterMap]
    obtain ⟨t, u⟩ := x
    constructor
    · rintro ⟨s, hs, heq⟩
      have hmem := mem_reached_of_mem_batchRemoved hs
      rw [if_neg (token_ne_nil_of_mem_reached hmem), collected, collect_tokenUserMap, if_pos hmem]
        at heq
      obtain ⟨rfl, rfl⟩ := Prod.mk.inj (Option.some.inj heq)
      exact ⟨rfl, rfl, hs⟩
    · rintro ⟨rfl, -, ht⟩
      have hmem := mem_reached_of_mem_batchRemoved ht
      exact ⟨t, ht, by
        rw [if_neg (token_ne_nil_of_mem_reached hmem), collected, collect_tokenUserMap,
          if_pos hmem]⟩

/-- The user is notified as soon as a message is meant for a device. -/
theorem mem_notifiedUsers :
    v.userId ∈ (collected c v tokens).notifiedUsers ↔ reached c tokens ≠ [] := by
  have hfcm : (collected c v tokens).fcmMessages = _ := collect_fcmMessages tokens
  have hios : (collected c v tokens).iosSends = _ := collect_iosSends tokens
  rw [Collected.notifiedUsers, hfcm, hios, mem_dedup, mem_append, map_map]
  constructor
  · rintro (h | h) hnil
    · obtain ⟨m, hm, -⟩ := mem_filterMap.mp h
      simp [fcmDevices, hnil] at hm
    · simp [iosDevices, hnil] at h
  · intro h
    obtain ⟨d, hd⟩ := exists_mem_of_ne_nil _ h
    by_cases hisIos : isIos d = true
    · exact .inr (mem_map.mpr ⟨d, mem_filter.mpr ⟨hd, hisIos⟩, rfl⟩)
    · refine .inl (mem_filterMap.mpr ⟨batchMessage c v d, ?_, ?_⟩)
      · exact mem_map_of_mem (mem_filter.mpr ⟨hd, by simpa using hisIos⟩)
      · rw [batchMessage_token, collected, collect_tokenUserMap,
          if_pos (mem_map_of_mem hd)]
        rfl

theorem mem_sendCollected_incremented :
    v.userId ∈ (sendCollected pr v.payload (collected c v tokens)).incremented.map Prod.fst ↔
      batchEnds c pr tokens = true ∧ dataField "festivalId" v.payload.safeData ≠ [] ∧
        reached c tokens ≠ [] := by
  cases h : batchEnds c pr tokens with
  | false => simp [sendCollected_not_ends h]
  | true => rw [(sendCollected_ends h).2, mem_unreadOf, mem_notifiedUsers, eq_self, true_and]

end

end FestivalPlanner.PushPaths
