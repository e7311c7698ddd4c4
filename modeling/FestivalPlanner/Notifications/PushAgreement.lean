import FestivalPlanner.Notifications.PushLoops

/-!
# The agreement of the two send paths

`send` to a user, and `sendToOfflineUsers` for a festival whose only target is that user.

* `Agree` — the same devices are attempted, each of them once, with the same messages; the same
  tokens are unregistered; and the unread count grows exactly when a device accepted;
* `Alike` — what the providers, the tokens and the request must be like for that;
* `paths_agree_iff` — **the paths agree exactly then**.
-/

namespace FestivalPlanner.PushPaths

open Utf16 JsonText PushMessages List Stopping

variable (c : Config) (st : Stores) (pr : Provider) (now : Clock)

/-! ## What the paths owe to a user -/

/-- The devices that a call is to attempt. -/
def notified (userId : UserId) (r : Request) : List Device :=
  match allowedType r.type with
  | none => []
  | some type => if passes c st now userId type then reached c (st.deviceTokens userId) else []

/-- The paths agree about a user, and what they write follows what was delivered. -/
structure Agree (userId : UserId) (r : Request) (a b : Outcome) : Prop where
  sameAttempts : a.attempts.Perm b.attempts
  eachOnce : (a.attempts.map Attempt.token).Perm ((notified c st now userId r).map Device.token)
  sameUnregistered : ∀ x, x ∈ a.unregistered ↔ x ∈ b.unregistered
  unreadSend : userId ∈ a.incremented.map Prod.fst ↔ a.accepted ≠ []
  unreadBatch : userId ∈ b.incremented.map Prod.fst ↔ b.accepted ≠ []

/-- A text that a second cut leaves as it is. -/
def CutOnce (m : FcmMessage) : Prop := m.size ≤ 4096 ∨ m.body = [] ∨ m.body.length = 200

/-- A device of the user accepts the message of `sendToOfflineUsers`. -/
def BatchAccepts (tokens : List Device) : Prop :=
  (∃ b ∈ batches c tokens, batchAccepted pr (b.1.map Device.token) b.2 ≠ []) ∨
    ∃ d ∈ iosDevices c tokens, accepts pr d = true

/-- What makes the paths agree about a user that is to be notified: no thrown value ends a call
before its last device, the message goes to the channel that is the default and is not cut twice,
no malformed token is stored, both paths find the same tokens stale, and there is a festival to
count for exactly when a device accepts. -/
structure Alike (userId : UserId) (r : Request) (type : NotificationType) : Prop where
  sendGoesOn : ∀ d ∈ (reached c (st.deviceTokens userId)).dropLast, throws pr d = false
  batchGoesOn : ∀ b ∈ (batches c (st.deviceTokens userId)).dropLast, batchThrows pr b.2 = false
  iosReached : (batches c (st.deviceTokens userId)).any (fun b => batchThrows pr b.2) = true →
    iosDevices c (st.deviceTokens userId) = []
  iosGoesOn : ∀ d ∈ (iosDevices c (st.deviceTokens userId)).dropLast, throws pr d = false
  sameMessage : ∀ d ∈ fcmDevices c (st.deviceTokens userId),
    channelOf type = updatesChannel ∧
      CutOnce (fcmMessage c (delivery st userId r type updatesChannel) d.token)
  noMalformed : (reached c (st.deviceTokens userId)).any (throws pr) = false →
    ∀ d ∈ st.deviceTokens userId, isValidDeviceToken d = false → d.token = []
  sameStale : ∀ t,
    ((reached c (st.deviceTokens userId)).any (throws pr) = false ∧
      ∃ d ∈ reached c (st.deviceTokens userId), isStale pr d = true ∧ d.token = t) ↔
    (batchEnds c pr (st.deviceTokens userId) = true ∧
      t ∈ batchRemoved c pr (st.deviceTokens userId))
  unreadSend : (∃ d ∈ reached c (st.deviceTokens userId), accepts pr d = true) →
    (reached c (st.deviceTokens userId)).any (throws pr) = false ∧ festivalOf r ≠ []
  unreadBatch : (batchEnds c pr (st.deviceTokens userId) = true ∧ festivalOf r ≠ [] ∧
      reached c (st.deviceTokens userId) ≠ []) ↔
    BatchAccepts c pr (st.deviceTokens userId)

/-! ## The batches are the devices -/

section
variable {c st pr now} {tokens : List Device} {v : Delivery}

theorem flatMap_batches {β : Type} (f : Device → β) (tokens : List Device) :
    (batches c tokens).flatMap (fun b => b.1.map f) = (fcmDevices c tokens).map f := by
  have hfst : (batches c tokens).map Prod.fst =
      slices FCM_BATCH_SIZE (fcmDevices c tokens) := zipIdx_map_fst 0 _
  calc (batches c tokens).flatMap (fun b => b.1.map f)
      = (((batches c tokens).map Prod.fst).flatten).map f := by
        rw [map_flatten, map_map, flatMap_def]
        rfl
    _ = (fcmDevices c tokens).map f := by
        rw [hfst, flatten_slices (by decide)]

theorem ne_nil_of_mem_batches {b : List Device × ℕ} (hb : b ∈ batches c tokens) : b.1 ≠ [] :=
  ne_nil_of_mem_slices (by decide) (fst_mem_of_mem_zipIdx hb)

theorem perm_devices (tokens : List Device) :
    (fcmDevices c tokens ++ iosDevices c tokens).Perm (reached c tokens) := by
  have h := filter_append_perm (fun d => !isIos d) (reached c tokens)
  simpa [fcmDevices, iosDevices] using h

theorem mem_reached_of_mem_fcmDevices {d : Device} (h : d ∈ fcmDevices c tokens) :
    d ∈ reached c tokens ∧ isIos d = false := by
  simpa [fcmDevices] using h

/-- Every batch is handed over when all devices of the messaging client are attempted. -/
theorem through_batches_of_length {p : List Device × ℕ → Bool}
    (h : ((through p (batches c tokens)).flatMap
      (fun b => b.1.map (batchAttempt c v))).length = (fcmDevices c tokens).length) :
    through p (batches c tokens) = batches c tokens := by
  obtain ⟨rest, hrest⟩ := prefix_through p (batches c tokens)
  have htotal := congrArg List.length (flatMap_batches (c := c) (batchAttempt c v) tokens)
  rw [← hrest, flatMap_append, length_append, length_map, h] at htotal
  have hnil : rest = [] := by
    by_contra hne
    obtain ⟨b, hb⟩ := exists_mem_of_ne_nil _ hne
    have hmem : b ∈ batches c tokens := by
      rw [← hrest]
      exact mem_append_right _ hb
    have hb1 := ne_nil_of_mem_batches hmem
    have hle : 0 < (rest.flatMap (fun b => b.1.map (batchAttempt c v))).length := by
      obtain ⟨d, hd⟩ := exists_mem_of_ne_nil _ hb1
      exact length_pos_of_mem
        (mem_flatMap.mpr ⟨b, hb, mem_map_of_mem (f := batchAttempt c v) hd⟩)
    omega
  rw [hnil, append_nil] at hrest
  exact hrest

end

/-! ## The paths for a user that is to be notified -/

/-- The calls leave the same, whatever they return. -/
structure SameEffects (a b : Outcome) : Prop where
  attempts : a.attempts = b.attempts
  accepted : a.accepted = b.accepted
  unregistered : a.unregistered = b.unregistered
  incremented : a.incremented = b.incremented

section
variable {c st pr now} {userId : UserId} {r : Request} {type : NotificationType}
  {festivalId : String} {excludeUserIds : List UserId} {topic : Option String}

theorem Agree.of_sameEffects {a a' b b' : Outcome} (ha : SameEffects a a') (hb : SameEffects b b') :
    Agree c st now userId r a b ↔ Agree c st now userId r a' b' := by
  constructor
  · rintro ⟨h1, h2, h3, h4, h5⟩
    rw [ha.attempts] at h1 h2
    rw [hb.attempts] at h1
    rw [ha.unregistered, hb.unregistered] at h3
    rw [ha.incremented, ha.accepted] at h4
    rw [hb.incremented, hb.accepted] at h5
    exact ⟨h1, h2, h3, h4, h5⟩
  · rintro ⟨h1, h2, h3, h4, h5⟩
    rw [← ha.attempts] at h1 h2
    rw [← hb.attempts] at h1
    rw [← ha.unregistered, ← hb.unregistered] at h3
    rw [← ha.incremented, ← ha.accepted] at h4
    rw [← hb.incremented, ← hb.accepted] at h5
    exact ⟨h1, h2, h3, h4, h5⟩

theorem send_sameEffects (htype : allowedType r.type = some type)
    (hcritical : isCriticalType type = false) (h : passes c st now userId type = true) :
    SameEffects (send c st pr now userId r)
      (sendToDevices c pr (delivery st userId r type (channelOf type))
        (st.deviceTokens userId)) := by
  by_cases htokens : st.deviceTokens userId = []
  · have hnone : criticalChannel type = none := by
      cases type <;> first | rfl | cases hcritical
    have hout := messaging_or_apns h
    simp only [passes, Bool.and_eq_true, Bool.not_eq_true'] at h
    have hsend : send c st pr now userId r = refused (some .noTokens) := by
      simp [send, hout, htype, hcritical, h.1.2, h.2, htokens]
    rw [hsend, htokens]
    exact ⟨rfl, rfl, rfl, rfl⟩
  · rw [send_of_passes htype hcritical h htokens]
    exact ⟨rfl, rfl, rfl, rfl⟩

theorem sendCollected_of_empty {payload : Payload} {col : Collected}
    (hfcm : col.fcmMessages = []) (hios : col.iosSends = []) :
    SameEffects (refused none) (sendCollected pr payload col) := by
  have hbatch : sendBatch pr [] = ({}, true) := rfl
  have hnone : col.notifiedUsers = [] := by simp [Collected.notifiedUsers, hfcm, hios]
  unfold sendCollected
  rw [hfcm, hios, hbatch, hnone]
  exact ⟨rfl, rfl, rfl, by simp [unreadOf, refused, loop]⟩

theorem sendToOfflineUsers_sameEffects (htype : allowedType r.type = some type)
    (h : passes c st now userId type = true)
    (htarget : filteredIds st festivalId excludeUserIds topic = [userId]) :
    SameEffects (sendToOfflineUsers c st pr now festivalId excludeUserIds topic r)
      (sendCollected pr (delivery st userId r type updatesChannel).payload
        (collected c (delivery st userId r type updatesChannel) (st.deviceTokens userId))) := by
  have hout := messaging_or_apns h
  simp only [passes, Bool.and_eq_true, Bool.not_eq_true'] at h
  have hcollect : [userId].foldl (collectUser c st now r type
      (enforcePayloadLimits r.title r.body r.data)) {} =
        collected c (delivery st userId r type updatesChannel) (st.deviceTokens userId) := by
    simp only [foldl_cons, foldl_nil, collectUser, h.1.2, h.2, Bool.false_eq_true,
      if_false]
    rfl
  unfold sendToOfflineUsers
  simp only [hout, Bool.false_eq_true, if_false, htype, htarget]
  rw [show List.take MAX_PUSH_BATCH [userId] = [userId] from rfl, hcollect]
  split
  · rename_i hempty
    simp only [Bool.and_eq_true, List.isEmpty_iff] at hempty
    exact sendCollected_of_empty hempty.1 hempty.2
  · exact ⟨rfl, rfl, rfl, rfl⟩

end

/-! ## Every device is attempted -/

section
variable {c pr} {tokens : List Device} {v : Delivery}

theorem sendAttempt_token (d : Device) : (sendAttempt c v d).token = d.token := by
  unfold sendAttempt
  split
  · rfl
  · simp [Attempt.token, fcmMessage, buildFcmMessage]

/-- `send` attempts each device once when only the last of them may throw. -/
theorem sendToDevices_eachOnce :
    ((sendToDevices c pr v tokens).attempts.map Attempt.token).Perm
        ((reached c tokens).map Device.token) ↔
      ∀ d ∈ (reached c tokens).dropLast, throws pr d = false := by
  rw [← through_eq_self_iff, sendToDevices_attempts, map_map]
  constructor
  · intro h
    have hlength := h.length_eq
    rw [length_map, length_map] at hlength
    exact through_eq_self_of_length hlength
  · intro h
    rw [h]
    have htoken : Attempt.token ∘ sendAttempt c v = Device.token := funext sendAttempt_token
    rw [htoken]

/-- What the call of `sendToOfflineUsers` attempts when it goes through all devices. -/
theorem sendCollected_attempts_all
    (hbatch : ∀ b ∈ (batches c tokens).dropLast, batchThrows pr b.2 = false)
    (hnone : (batches c tokens).any (fun b => batchThrows pr b.2) = true → iosDevices c tokens = [])
    (hios : ∀ d ∈ (iosDevices c tokens).dropLast, throws pr d = false) :
    (sendCollected pr v.payload (collected c v tokens)).attempts =
      (fcmDevices c tokens).map (batchAttempt c v) ++
        (iosDevices c tokens).map (fun d => apnsAttempt v d.token) := by
  rw [sendCollected_attempts, through_eq_self_iff.mpr hbatch,
    through_eq_self_iff.mpr hios, flatMap_batches]
  split
  · rename_i h
    simp [hnone h]
  · rfl

/-- `sendToOfflineUsers` attempts as many devices as there are when only its last step may
throw. -/
theorem sendCollected_length :
    (sendCollected pr v.payload (collected c v tokens)).attempts.length =
        (reached c tokens).length ↔
      (∀ b ∈ (batches c tokens).dropLast, batchThrows pr b.2 = false) ∧
        ((batches c tokens).any (fun b => batchThrows pr b.2) = true → iosDevices c tokens = []) ∧
        ∀ d ∈ (iosDevices c tokens).dropLast, throws pr d = false := by
  have htotal := (perm_devices (c := c) tokens).length_eq
  rw [length_append] at htotal
  constructor
  · intro h
    have hprefix := (prefix_through (fun b : List Device × ℕ => batchThrows pr b.2)
      (batches c tokens)).flatMap (fun b => b.1.map (batchAttempt c v))
    have hle := hprefix.length_le
    have hios := (prefix_through (throws pr) (iosDevices c tokens)).length_le
    rw [flatMap_batches, length_map] at hle
    rw [sendCollected_attempts, length_append] at h
    cases hany : (batches c tokens).any (fun b => batchThrows pr b.2) with
    | true =>
      rw [hany, if_pos rfl, length_nil] at h
      have hthrough : through (fun b => batchThrows pr b.2) (batches c tokens) =
          batches c tokens := through_batches_of_length (v := v) (by omega)
      have hnil : iosDevices c tokens = [] := length_eq_zero_iff.mp (by omega)
      exact ⟨through_eq_self_iff.mp hthrough, fun _ => hnil, by simp [hnil]⟩
    | false =>
      rw [hany, if_neg (by simp), length_map] at h
      have hall : ∀ b ∈ batches c tokens, batchThrows pr b.2 = false :=
        fun b hb => by simpa using any_eq_false.mp hany b hb
      exact ⟨fun b hb => hall b (mem_of_mem_dropLast hb), by simp,
        through_eq_self_iff.mp (through_eq_self_of_length (by omega))⟩
  · rintro ⟨hbatch, hnone, hios⟩
    rw [sendCollected_attempts_all hbatch hnone hios, length_append, length_map,
      length_map, htotal]

end

/-! ## The messages -/

section
variable {c st pr} {tokens : List Device} {userId : UserId} {r : Request} {type : NotificationType}

/-- The message of `send` is the one of `sendToOfflineUsers` on the default channel, when a second
cut leaves it as it is. -/
theorem sendMessage_eq_iff {d d' : Device} :
    enforcePayloadSize (fcmMessage c (delivery st userId r type (channelOf type)) d.token) =
        enforcePayloadSize (batchMessage c (delivery st userId r type updatesChannel) d') ↔
      d.token = d'.token ∧ channelOf type = updatesChannel ∧
        CutOnce (fcmMessage c (delivery st userId r type updatesChannel) d.token) := by
  have hlength : (fcmMessage c (delivery st userId r type updatesChannel) d.token).body.length
      ≤ 200 := length_safeBody r.title r.body r.data
  have htwice := enforcePayloadSize_twice hlength
  constructor
  · intro h
    have htoken : d.token = d'.token := by
      have := congrArg FcmMessage.token h
      simpa [batchMessage, fcmMessage, buildFcmMessage] using this
    have hchannel : channelOf type = updatesChannel := by
      have := congrArg FcmMessage.channelId h
      simpa [batchMessage, fcmMessage, buildFcmMessage, delivery] using this
    refine ⟨htoken, hchannel, htwice.mp ?_⟩
    rw [hchannel, htoken, batchMessage] at h
    rw [htoken]
    exact h.symm
  · rintro ⟨htoken, hchannel, hcut⟩
    rw [hchannel, batchMessage, ← htoken]
    exact (htwice.mpr hcut).symm

theorem sendAttempt_of_mem_fcmDevices {v : Delivery} {d : Device} (h : d ∈ fcmDevices c tokens) :
    sendAttempt c v d = .fcm (enforcePayloadSize (fcmMessage c v d.token)) := by
  rw [sendAttempt, if_neg (by simp [(mem_reached_of_mem_fcmDevices h).2])]

/-- The messages of the two paths are the same exactly when each message of the messaging client
is. -/
theorem perm_attempts_iff :
    ((reached c tokens).map (sendAttempt c (delivery st userId r type (channelOf type)))).Perm
        ((fcmDevices c tokens).map
            (batchAttempt c (delivery st userId r type updatesChannel)) ++
          (iosDevices c tokens).map
            (fun d => apnsAttempt (delivery st userId r type updatesChannel) d.token)) ↔
      ∀ d ∈ fcmDevices c tokens, channelOf type = updatesChannel ∧
        CutOnce (fcmMessage c (delivery st userId r type updatesChannel) d.token) := by
  constructor
  · intro h d hd
    have hmem := h.subset (mem_map_of_mem (mem_reached_of_mem_fcmDevices hd).1)
    rw [sendAttempt_of_mem_fcmDevices hd] at hmem
    rcases mem_append.mp hmem with hmem | hmem
    · obtain ⟨d', -, heq⟩ := mem_map.mp hmem
      exact (sendMessage_eq_iff.mp (Attempt.fcm.inj heq).symm).2
    · obtain ⟨d', -, heq⟩ := mem_map.mp hmem
      cases heq
  · intro h
    have hfcm : (fcmDevices c tokens).map
          (sendAttempt c (delivery st userId r type (channelOf type))) =
        (fcmDevices c tokens).map
          (batchAttempt c (delivery st userId r type updatesChannel)) := by
      refine map_congr_left fun d hd => ?_
      rw [sendAttempt_of_mem_fcmDevices hd, batchAttempt, sendMessage_eq_iff.mpr ⟨rfl, h d hd⟩]
    have hios : (iosDevices c tokens).map
          (sendAttempt c (delivery st userId r type (channelOf type))) =
        (iosDevices c tokens).map
          (fun d => apnsAttempt (delivery st userId r type updatesChannel) d.token) := by
      refine map_congr_left fun d hd => ?_
      rw [sendAttempt, if_pos (isIos_of_mem_iosDevices hd)]
      rfl
    rw [← hfcm, ← hios, ← map_append]
    exact ((perm_devices tokens).map _).symm

end

/-! ## The tokens that are unregistered, and the unread count -/

section
variable {c pr} {tokens : List Device} {v w : Delivery}

/-- Whether a token is well formed does not depend on the rest of the device. -/
theorem isValid_of_token {d : Device} (h : d.token ∈ (reached c tokens).map Device.token) :
    isValidDeviceToken d = true := by
  obtain ⟨d', hd', heq⟩ := mem_map.mp h
  have hvalid := isValid_of_deliverable (of_mem_filter hd')
  rwa [isValidDeviceToken, heq] at hvalid

/-- The same tokens are unregistered when no malformed token is stored, and both paths find the
same tokens stale. -/
theorem sameUnregistered_iff (huser : v.userId = w.userId) :
    (∀ x, x ∈ (sendToDevices c pr v tokens).unregistered ↔
        x ∈ (sendCollected pr w.payload (collected c w tokens)).unregistered) ↔
      ((reached c tokens).any (throws pr) = false →
        ∀ d ∈ tokens, isValidDeviceToken d = false → d.token = []) ∧
      ∀ t, ((reached c tokens).any (throws pr) = false ∧
          ∃ d ∈ reached c tokens, isStale pr d = true ∧ d.token = t) ↔
        (batchEnds c pr tokens = true ∧ t ∈ batchRemoved c pr tokens) := by
  constructor
  · intro h
    refine ⟨?_, ?_⟩
    · intro hends d hd hvalid
      by_contra hne
      have hmem := (h (d.token, v.userId)).mp (mem_sendToDevices_unregistered.mpr
        ⟨rfl, hends, hne, .inl ⟨d, hd, hvalid, rfl⟩⟩)
      have hremoved := (mem_sendCollected_unregistered.mp hmem).2.2
      rw [isValid_of_token (mem_reached_of_mem_batchRemoved hremoved)] at hvalid
      cases hvalid
    · intro t
      constructor
      · rintro ⟨hends, d, hd, hstale, rfl⟩
        have hne := token_ne_nil_of_mem_reached (mem_map_of_mem (f := Device.token) hd)
        have hmem := (h (d.token, v.userId)).mp (mem_sendToDevices_unregistered.mpr
          ⟨rfl, hends, hne, .inr ⟨d, hd, hstale, rfl⟩⟩)
        exact (mem_sendCollected_unregistered.mp hmem).2
      · rintro ⟨hends, hremoved⟩
        have hmem := (h (t, v.userId)).mpr
          (mem_sendCollected_unregistered.mpr ⟨huser, hends, hremoved⟩)
        obtain ⟨-, hsend, -, ⟨d, hd, hvalid, rfl⟩ | hstale⟩ :=
          mem_sendToDevices_unregistered.mp hmem
        · rw [isValid_of_token (mem_reached_of_mem_batchRemoved hremoved)] at hvalid
          cases hvalid
        · exact ⟨hsend, hstale⟩
  · rintro ⟨hmalformed, hstale⟩ ⟨t, u⟩
    rw [mem_sendToDevices_unregistered, mem_sendCollected_unregistered, huser]
    refine and_congr_right fun _ => ?_
    constructor
    · rintro ⟨hends, hne, ⟨d, hd, hvalid, rfl⟩ | hd⟩
      · exact absurd (hmalformed hends d hd hvalid) hne
      · exact (hstale t).mp ⟨hends, hd⟩
    · intro h
      obtain ⟨hends, hd⟩ := (hstale t).mpr h
      exact ⟨hends, token_ne_nil_of_mem_reached (mem_reached_of_mem_batchRemoved h.2), .inr hd⟩

theorem sendToDevices_unread
    (hgoes : ∀ d ∈ (reached c tokens).dropLast, throws pr d = false) :
    (v.userId ∈ (sendToDevices c pr v tokens).incremented.map Prod.fst ↔
        (sendToDevices c pr v tokens).accepted ≠ []) ↔
      ((∃ d ∈ reached c tokens, accepts pr d = true) →
        (reached c tokens).any (throws pr) = false ∧
          dataField "festivalId" v.payload.safeData ≠ []) := by
  have haccepted : (sendToDevices c pr v tokens).accepted ≠ [] ↔
      ∃ d ∈ reached c tokens, accepts pr d = true := by
    rw [sendToDevices_accepted, through_eq_self_iff.mpr hgoes]
    simp
  rw [mem_sendToDevices_incremented, haccepted]
  constructor
  · intro h hsome
    have h' := h.mpr hsome
    exact ⟨h'.1, h'.2.1⟩
  · intro h
    exact ⟨fun h' => h'.2.2, fun hsome => ⟨(h hsome).1, (h hsome).2, hsome⟩⟩

theorem sendCollected_unread
    (hbatch : ∀ b ∈ (batches c tokens).dropLast, batchThrows pr b.2 = false)
    (hnone : (batches c tokens).any (fun b => batchThrows pr b.2) = true → iosDevices c tokens = [])
    (hios : ∀ d ∈ (iosDevices c tokens).dropLast, throws pr d = false) :
    (sendCollected pr v.payload (collected c v tokens)).accepted ≠ [] ↔
      BatchAccepts c pr tokens := by
  rw [sendCollected_accepted, through_eq_self_iff.mpr hbatch,
    through_eq_self_iff.mpr hios, BatchAccepts, ne_eq, append_eq_nil_iff, not_and_or]
  refine or_congr ?_ ?_
  · rw [flatMap_eq_nil_iff]
    simp only [not_forall, exists_prop, ne_eq]
  · split
    · rename_i h
      simp [hnone h]
    · simp

end

/-! ## The two paths -/

section
variable {c st pr now} {userId : UserId} {r : Request} {type : NotificationType}
  {festivalId : String} {excludeUserIds : List UserId} {topic : Option String}

theorem notified_of_passes (htype : allowedType r.type = some type)
    (h : passes c st now userId type = true) :
    notified c st now userId r = reached c (st.deviceTokens userId) := by
  rw [notified, htype]
  exact if_pos h

/-- The calls for a user that is to be notified agree exactly when all is alike. -/
theorem agree_calls_iff (htype : allowedType r.type = some type)
    (h : passes c st now userId type = true) :
    Agree c st now userId r
        (sendToDevices c pr (delivery st userId r type (channelOf type)) (st.deviceTokens userId))
        (sendCollected pr (delivery st userId r type updatesChannel).payload
          (collected c (delivery st userId r type updatesChannel) (st.deviceTokens userId))) ↔
      Alike c st pr userId r type := by
  have huser : (delivery st userId r type (channelOf type)).userId =
      (delivery st userId r type updatesChannel).userId := rfl
  constructor
  · rintro ⟨hsame, honce, hunregistered, hsend, hbatch⟩
    rw [notified_of_passes htype h] at honce
    have hgoes := sendToDevices_eachOnce.mp honce
    have hlength := honce.length_eq
    rw [length_map, length_map, hsame.length_eq] at hlength
    obtain ⟨hbatches, hnone, hios⟩ := sendCollected_length.mp hlength
    rw [sendToDevices_attempts, through_eq_self_iff.mpr hgoes,
      sendCollected_attempts_all hbatches hnone hios] at hsame
    have hclean := (sameUnregistered_iff huser).mp hunregistered
    rw [sendCollected_unread hbatches hnone hios] at hbatch
    exact
      { sendGoesOn := hgoes
        batchGoesOn := hbatches
        iosReached := hnone
        iosGoesOn := hios
        sameMessage := perm_attempts_iff.mp hsame
        noMalformed := hclean.1
        sameStale := hclean.2
        unreadSend := (sendToDevices_unread hgoes).mp hsend
        unreadBatch := mem_sendCollected_incremented.symm.trans hbatch }
  · intro ha
    refine ⟨?_, ?_, ?_, ?_, ?_⟩
    · rw [sendToDevices_attempts, through_eq_self_iff.mpr ha.sendGoesOn,
        sendCollected_attempts_all ha.batchGoesOn ha.iosReached ha.iosGoesOn]
      exact perm_attempts_iff.mpr ha.sameMessage
    · rw [notified_of_passes htype h]
      exact sendToDevices_eachOnce.mpr ha.sendGoesOn
    · exact (sameUnregistered_iff huser).mpr ⟨ha.noMalformed, ha.sameStale⟩
    · exact (sendToDevices_unread ha.sendGoesOn).mpr ha.unreadSend
    · rw [sendCollected_unread ha.batchGoesOn ha.iosReached ha.iosGoesOn]
      exact mem_sendCollected_incremented.trans ha.unreadBatch

/-- A type that is not that of an emergency. -/
theorem isCriticalType_of_ne (hcritical : r.type ≠ NotificationType.crewSos.name)
    (htype : allowedType r.type = some type) : isCriticalType type = false := by
  have hname : type.name = r.type := by
    have := find?_some htype
    simpa using this
  cases type with
  | crewSos => exact absurd hname.symm hcritical
  | _ => rfl

theorem refused_of_none (c : Config) (st : Stores) (pr : Provider) (now : Clock) (userId : UserId)
    (festivalId : String) (excludeUserIds : List UserId) (topic : Option String)
    (hallowed : allowedType r.type = none) :
    (∃ reason, send c st pr now userId r = refused reason) ∧
      ∃ reason, sendToOfflineUsers c st pr now festivalId excludeUserIds topic r =
        refused reason := by
  unfold send sendToOfflineUsers
  rw [hallowed]
  split
  · exact ⟨⟨_, rfl⟩, ⟨_, rfl⟩⟩
  · exact ⟨⟨_, rfl⟩, ⟨_, rfl⟩⟩

theorem refused_of_not_passes (pr : Provider) (htype : allowedType r.type = some type)
    (hcritical : isCriticalType type = false) (h : passes c st now userId type = false)
    (htarget : filteredIds st festivalId excludeUserIds topic = [userId]) :
    (∃ reason, send c st pr now userId r = refused reason) ∧
      ∃ reason, sendToOfflineUsers c st pr now festivalId excludeUserIds topic r =
        refused reason := by
  unfold send sendToOfflineUsers
  cases hout : !c.messaging && !c.apns with
  | true => exact ⟨⟨_, rfl⟩, ⟨_, rfl⟩⟩
  | false =>
    have hblocked : disabled (st.notificationPrefs userId) type = true ∨
        isInDndWindow now (st.notificationPrefs userId) = true := by
      simp only [passes, Bool.and_eq_false_iff, Bool.not_eq_false'] at h
      rcases h with (h | h) | h
      · simp_all
      · exact .inl h
      · exact .inr h
    have hcollect : [userId].foldl (collectUser c st now r type
        (enforcePayloadLimits r.title r.body r.data)) {} = {} := by
      rcases hblocked with hblocked | hblocked <;> simp [collectUser, hblocked]
    simp only [htype, htarget, hcritical, Bool.not_false, Bool.true_and, Bool.false_eq_true,
      if_false]
    rw [show List.take MAX_PUSH_BATCH [userId] = [userId] from rfl, hcollect]
    refine ⟨?_, ⟨none, rfl⟩⟩
    rcases hblocked with hblocked | hblocked
    · exact ⟨_, if_pos hblocked⟩
    · by_cases hdisabled : disabled (st.notificationPrefs userId) type = true
      · exact ⟨_, if_pos hdisabled⟩
      · exact ⟨_, by rw [if_neg hdisabled, if_pos hblocked]⟩

theorem agree_refused {reason reason' : Option Reason} (h : notified c st now userId r = []) :
    Agree c st now userId r (refused reason) (refused reason') := by
  refine ⟨List.Perm.nil, ?_, fun _ => Iff.rfl, ?_, ?_⟩
  · rw [h]
    exact List.Perm.nil
  · simp [refused]
  · simp [refused]

/-- **The two send paths agree about a user exactly when the notification is kept from the user or
all is alike.** -/
theorem paths_agree_iff (hcritical : r.type ≠ NotificationType.crewSos.name)
    (htarget : filteredIds st festivalId excludeUserIds topic = [userId]) :
    Agree c st now userId r (send c st pr now userId r)
        (sendToOfflineUsers c st pr now festivalId excludeUserIds topic r) ↔
      ∀ type, allowedType r.type = some type → passes c st now userId type = true →
        Alike c st pr userId r type := by
  cases htype : allowedType r.type with
  | none =>
    obtain ⟨⟨reason, hsend⟩, ⟨reason', hbatch⟩⟩ :=
      refused_of_none c st pr now userId festivalId excludeUserIds topic htype
    rw [hsend, hbatch]
    exact iff_of_true (agree_refused (by rw [notified, htype])) (by simp)
  | some type =>
    have hcritical := isCriticalType_of_ne hcritical htype
    cases hpass : passes c st now userId type with
    | false =>
      obtain ⟨⟨reason, hsend⟩, ⟨reason', hbatch⟩⟩ :=
        refused_of_not_passes pr htype hcritical hpass htarget
      rw [hsend, hbatch]
      refine iff_of_true (agree_refused (by simp [notified, htype, hpass])) ?_
      intro type' h' hpass'
      obtain rfl := Option.some.inj h'
      rw [hpass] at hpass'
      cases hpass'
    | true =>
      rw [Agree.of_sameEffects (send_sameEffects htype hcritical hpass)
        (sendToOfflineUsers_sameEffects htype hpass htarget), agree_calls_iff htype hpass]
      constructor
      · intro ha type' h' _
        obtain rfl := Option.some.inj h'
        exact ha
      · exact fun ha => ha type rfl hpass

end

/-! ## A visitor with two devices -/

/-- A user of the festival. -/
def visitor : UserId := ⟨"u1", by decide⟩

def androidDevice : Device := { token := List.replicate 20 (unit 'a'), platform := "android" }

def iosDevice : Device := { token := List.replicate 20 (unit 'b'), platform := "ios" }

def visitorStores : Stores where
  notificationPrefs _ := none
  deviceTokens _ := [androidDevice, iosDevice]
  notificationCounts _ := some []
  userIdsByFestival _ := [visitor]
  unsubscribedUsers _ _ := []

def bothClients : Config :=
  { messaging := true, apns := true, publicOrigin := ofString "https://example.org" }

def noon : Clock := { hours := 12, minutes := 0 }

/-- The android device accepts its message, and the iOS device is no longer registered. -/
def oneAccepts : Provider where
  fcm _ := { first := .accepted, second := .accepted, timedOut := false, slow := false }
  sendEach _ := none
  apns _ := .response 410 (ofString "Unregistered")

def notice (type : NotificationType) : Request :=
  { type := type.name
    title := ofString "Schedule change"
    body := ofString "The main stage starts later"
    data := [(ofString "festivalId", ofString "f1")]
    threadId := none }

instance (m : FcmMessage) : Decidable (CutOnce m) :=
  inferInstanceAs (Decidable (m.size ≤ 4096 ∨ m.body = [] ∨ m.body.length = 200))

theorem notice_alike :
    Alike bothClients visitorStores oneAccepts visitor (notice .scheduleChange)
      .scheduleChange where
  sendGoesOn := by decide
  batchGoesOn := by decide
  iosReached := by decide
  iosGoesOn := by decide
  sameMessage := by decide +kernel
  noMalformed := by decide
  sameStale t := by
    have hends : (reached bothClients (visitorStores.deviceTokens visitor)).any
        (throws oneAccepts) = false := by decide
    have hbatch : batchEnds bothClients oneAccepts (visitorStores.deviceTokens visitor) = true := by
      decide
    have hstale : ((reached bothClients (visitorStores.deviceTokens visitor)).filter
        (isStale oneAccepts)).map Device.token =
          batchRemoved bothClients oneAccepts (visitorStores.deviceTokens visitor) := by
      decide
    rw [hends, hbatch, ← hstale]
    simp [and_assoc]
  unreadSend := by decide
  unreadBatch := by
    refine iff_of_true (by decide) (.inl ?_)
    decide

/-- A change of the schedule reaches the visitor by both paths alike. -/
theorem notice_agrees :
    filteredIds visitorStores "f1" [] none = [visitor] ∧
      Agree bothClients visitorStores noon visitor (notice .scheduleChange)
        (send bothClients visitorStores oneAccepts noon visitor (notice .scheduleChange))
        (sendToOfflineUsers bothClients visitorStores oneAccepts noon "f1" [] none
          (notice .scheduleChange)) := by
  have htarget : filteredIds visitorStores "f1" [] none = [visitor] := by decide
  refine ⟨htarget, (paths_agree_iff (by decide) htarget).mpr ?_⟩
  intro type htype _
  have heq : allowedType (notice .scheduleChange).type = some .scheduleChange := by decide
  obtain rfl := Option.some.inj (heq.symm.trans htype)
  exact notice_alike

/-- The channel of a message of the messaging client. -/
def Attempt.channel : Attempt → Option Text
  | .fcm message => some message.channelId
  | .apns _ _ _ => none

/-- News of a crew go to the channel of crews by `send`, and to the default one by
`sendToOfflineUsers`. -/
theorem crew_news_channels_differ :
    (notice .crewUpdate).type ≠ NotificationType.crewSos.name ∧
      filteredIds visitorStores "f1" [] none = [visitor] ∧
      ¬ Agree bothClients visitorStores noon visitor (notice .crewUpdate)
        (send bothClients visitorStores oneAccepts noon visitor (notice .crewUpdate))
        (sendToOfflineUsers bothClients visitorStores oneAccepts noon "f1" [] none
          (notice .crewUpdate)) := by
  refine ⟨by decide, by decide, fun h => ?_⟩
  have hsend : some (ofString "crew") ∈
      (send bothClients visitorStores oneAccepts noon visitor
        (notice .crewUpdate)).attempts.map Attempt.channel := by decide +kernel
  have hbatch : some (ofString "crew") ∉
      (sendToOfflineUsers bothClients visitorStores oneAccepts noon "f1" [] none
        (notice .crewUpdate)).attempts.map Attempt.channel := by decide +kernel
  exact hbatch ((h.sameAttempts.map Attempt.channel).subset hsend)

end FestivalPlanner.PushPaths
