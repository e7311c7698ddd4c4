import FestivalPlanner.Realtime.Server

/-!
# What a user keeps of a crew that is taken away

A crew is taken from a user by leaving, removal, deletion or archiving.  `join:crew`,
`location:share` and `location:update` check the membership, await, and act afterwards; the request
evicts the sockets that are in the room at that moment.

* `Handler.Admits` — a handler that has passed the check, and will enter the room or publish in it;
* `Quiet` — a turn that neither enters the room nor publishes in it;
* `Shut` — no socket of the user is in the room, and no handler of one has passed the check;
* `revocation_is_final` — a crew that is taken away stays shut, in every run whose evictions find
  all sockets and no handler past the check, and whose updates and reads look at the membership.
-/

namespace FestivalPlanner.Realtime

open List Option

/-! ## Turns -/

/-- The membership has been found, and the handler will enter the room or publish in it. -/
def Handler.Admits (crewId : String) : Handler → Prop
  | .joinCrew c (.member (some true)) => c = crewId
  | .share c true (.member (some true)) => c = crewId
  | .share c true (.register true) => c = crewId
  | .update c _ (.member (some true)) => c = crewId
  | _ => False

/-- The turn neither enters the room of the crew nor publishes in it, nor will its handler. -/
structure Quiet (crewId : String) (k : Socket) (turn : Turn) : Prop where
  room : turn.socket.connected = true → .crew crewId ∈ turn.socket.rooms →
    k.connected = true ∧ .crew crewId ∈ k.rooms
  update : ∀ userId, .peerUpdate crewId userId ∉ turn.effects
  next : ∀ h, turn.next = some h → ¬ h.Admits crewId

variable {h : Handler} {turn : Turn} {user userId id : String}
  {handlers : List (String × Handler)}

section
variable {k : Socket} {crewId : String}

theorem Handler.Starts.not_admits (hstarts : h.Starts k) : ¬ h.Admits crewId := by
  intro hadmits
  cases h with
  | joinCrew c stage =>
    obtain rfl := hstarts
    exact hadmits
  | share c position stage =>
    obtain ⟨rfl, -⟩ := hstarts
    cases position <;> exact hadmits
  | update c u stage =>
    obtain ⟨rfl, -⟩ := hstarts
    exact hadmits
  | joinFestival => exact hadmits
  | leaveCrew => exact hadmits
  | sync => exact hadmits

theorem Handler.Continues.not_admits (hcontinues : h.Continues) : ¬ h.Admits crewId := by
  intro hadmits
  cases h with
  | joinCrew c stage =>
    obtain rfl := hcontinues
    exact hadmits
  | share c position stage =>
    obtain rfl := hcontinues
    cases position <;> exact hadmits
  | joinFestival => exact hadmits
  | _ => exact hcontinues

theorem peerUpdate_not_mem_leaveFestivalRealtime (userId : String) :
    .peerUpdate crewId userId ∉ (leaveFestivalRealtime k).effects := by
  intro h
  obtain ⟨f, -, heq⟩ := eq_setOffline_of_mem h
  cases heq

theorem onDisconnect_quiet : Quiet crewId k (onDisconnect k) where
  room hcon := by cases hcon
  update userId := by
    simp only [onDisconnect]
    split <;> simp [removeSocketPresence]
  next h hnext := by cases hnext

theorem disconnectSocket_quiet : Quiet crewId k (disconnectSocket k) where
  room hcon := by
    rw [disconnectSocket_connected] at hcon
    cases hcon
  update userId := by
    rw [disconnectSocket_effects]
    exact peerUpdate_not_mem_leaveFestivalRealtime userId
  next h hnext := by
    rw [disconnectSocket_next] at hnext
    cases hnext

/-- A turn that stays in some of the rooms, publishes nothing and ends. -/
theorem Quiet.of_rooms (hcon : turn.socket.connected = k.connected)
    (hrooms : ∀ r ∈ turn.socket.rooms, r ∈ k.rooms)
    (hupdate : ∀ userId, .peerUpdate crewId userId ∉ turn.effects)
    (hnext : ∀ h, turn.next = some h → ¬ h.Admits crewId) : Quiet crewId k turn where
  room hcon' hmem := ⟨hcon ▸ hcon', hrooms _ hmem⟩
  update := hupdate
  next := hnext

theorem leaveFestival_quiet : Quiet crewId k (leaveFestival k) where
  room _ hmem := by cases hmem
  update := peerUpdate_not_mem_leaveFestivalRealtime
  next h hnext := by cases leaveFestivalRealtime_next.symm.trans hnext

theorem enterFestival_quiet (user festivalId : String) :
    Quiet crewId k (enterFestival user festivalId k) where
  room hcon hmem := by
    refine ⟨leaveFestivalRealtime_connected.symm.trans hcon, ?_⟩
    rcases mem_join.mp hmem with ⟨-, h⟩ | h
    · cases h
    · exact mem_of_mem_leaveFestivalRealtime h
  update := peerUpdate_not_mem_leaveFestivalRealtime
  next h hnext := by
    obtain rfl := some.inj hnext
    exact id

theorem enterCrew_quiet {c : String} (hc : c ≠ crewId) : Quiet crewId k (enterCrew c k) where
  room hcon hmem := by
    obtain ⟨rooms, hsub, heq⟩ := enterCrew_socket (k := k) c
    rw [heq] at hcon hmem
    rcases mem_join.mp hmem with ⟨-, h⟩ | h
    · cases h
      exact absurd rfl hc
    · exact ⟨hcon, hsub _ h⟩
  update userId := by simp [enterCrew]
  next h hnext := by cases hnext

theorem quitCrew_quiet (user c : String) : Quiet crewId k (quitCrew user c k) := by
  simp only [quitCrew]
  split
  · exact .of_rooms rfl (fun r hr => (mem_leave.mp hr).1) (by simp) (by simp)
  · exact .of_rooms rfl (fun r hr => (mem_leave.mp hr).1) (by simp [Socket.pass])
      (by simp [Socket.pass])

theorem stopSharing_quiet (c : String) : Quiet crewId k (stopSharing c k) := by
  simp only [stopSharing]
  split
  · refine .of_rooms rfl (fun r hr => hr) (fun userId h => ?_) (by simp)
    cases k.userId <;> simp at h
    all_goals split at h <;> simp at h
  · exact .of_rooms rfl (fun r hr => hr) (by simp [Socket.pass]) (by simp [Socket.pass])

theorem revoke_quiet (userId c : String) : Quiet crewId k (revoke userId c k) :=
  .of_rooms rfl (fun r hr => (mem_leave.mp hr).1) (by simp [revoke]) (by simp [revoke])

theorem closeRoom_quiet (c : String) : Quiet crewId k (closeRoom c k) :=
  .of_rooms rfl (fun r hr => (mem_leave.mp hr).1) (by simp [closeRoom]) (by simp [closeRoom])

theorem revokeAccess_quiet (c userId : String) : Quiet crewId k (revokeAccess c userId k) := by
  simp only [revokeAccess]
  split
  · refine .of_rooms rfl (fun r hr => (mem_leave.mp hr).1) (fun u h => ?_) (by simp)
    split at h <;> simp at h
  · exact .of_rooms rfl (fun r hr => hr) (by simp [Socket.pass]) (by simp [Socket.pass])

theorem onEvent_quiet (event : Event) : Quiet crewId k (k.onEvent event) := by
  rcases onEvent_cases k event with rfl | ⟨c, rfl⟩ | ⟨next, heq, hstarts⟩
  · exact leaveFestival_quiet
  · exact stopSharing_quiet c
  · rw [heq]
    exact .of_rooms rfl (fun r hr => hr) (fun _ => not_mem_nil) fun h hnext =>
      (hstarts h hnext).not_admits

/-- A handler that has not passed the check stays out, when an update reads the membership. -/
theorem resume_quiet {ok allowed : Bool} {now : ℤ} (hadmits : ¬ h.Admits crewId)
    (hrecheck : ok = true → ∀ userId, h = .update crewId userId .limit → k.Rechecks now)
    (hturn : h.resume user ok allowed now k = some turn) : Quiet crewId k turn := by
  cases resume_cases hturn with
  | pass => exact .of_rooms rfl (fun r hr => hr) (by simp [Socket.pass]) (by simp [Socket.pass])
  | ended => exact disconnectSocket_quiet
  | wait _ hnext =>
    refine .of_rooms rfl (fun r hr => hr) (by simp [Socket.wait]) fun g hg => ?_
    obtain rfl := some.inj hg
    exact hnext.not_admits
  | enterFestival f => exact enterFestival_quiet user f
  | setPresence =>
    exact .of_rooms rfl (fun r hr => hr) (by simp [setPresence]) (by simp [setPresence])
  | enterCrew c => exact enterCrew_quiet hadmits
  | quitCrew c => exact quitCrew_quiet user c
  | register c position =>
    refine .of_rooms rfl (fun r hr => hr) (by simp [register]) fun g hg => ?_
    obtain rfl := some.inj hg
    cases position
    · exact id
    · cases allowed
      · exact id
      · exact hadmits
  | startSharing c position =>
    refine .of_rooms rfl (fun r hr => hr) (fun u hu => ?_) (by simp [startSharing])
    cases position
    · simp [startSharing] at hu
    · have hne : c ≠ crewId := hadmits
      simp [startSharing, hne.symm] at hu
  | countUpdate c u hok =>
    simp only [countUpdate]
    split
    · refine .of_rooms rfl (fun r hr => hr) (by simp [Socket.wait]) fun g hg => ?_
      obtain rfl := some.inj hg
      exact id
    · rename_i hnot
      have hne : crewId ≠ c := by
        rintro rfl
        exact hnot (hrecheck hok u rfl)
      exact .of_rooms rfl (fun r hr => hr) (by simp [publish, hne]) (by simp [publish])
  | publish c u =>
    have hne : c ≠ crewId := hadmits
    exact .of_rooms rfl (fun r hr => hr) (by simp [publish, hne.symm]) (by simp [publish])
  | revoke c u => exact revoke_quiet u c

end

/-! ## The invariant -/

section
variable (clients : Clients)

/-- No socket of the user is in the room, and no handler of one has passed the check. -/
structure Shut (crewId userId : String) (s : State) : Prop where
  room : ∀ id ∈ clients.ids, clients.owner id = userId → ¬ s.InRoom crewId id
  handler : ∀ id h, (id, h) ∈ s.handlers → clients.owner id = userId → ¬ h.Admits crewId

/-- What is taken away is shut, and nothing has been published since. -/
structure Secure (s : State) : Prop where
  owned : Owned clients s
  shut : ∀ crewId userId, s.revoked crewId userId = true → Shut clients crewId userId s
  broadcasts : ∀ b ∈ s.broadcasts, b.revoked = true → b.stopped = true

/-- No socket of a user is in the room of a crew that has been taken away, and none has published
there since. -/
def Final (s : State) : Prop :=
  (∀ crewId userId, s.revoked crewId userId = true →
    ∀ id ∈ clients.ids, clients.owner id = userId → ¬ s.InRoom crewId id) ∧
  ∀ b ∈ s.broadcasts, b.revoked = true → b.stopped = true

/-- The crew that a handler is about. -/
def Handler.crew : Handler → Option String
  | .joinFestival _ _ => none
  | .joinCrew crewId _ => some crewId
  | .leaveCrew crewId => some crewId
  | .share crewId _ _ => some crewId
  | .update crewId _ _ => some crewId
  | .sync crewId => some crewId

/-- A member who is removed: the eviction has found all sockets in the room, with their user, and
no handler has passed the check.  A crew that is closed: nobody has come back since the eviction. -/
def Request.Evicts (s : State) (r : Request) : Prop :=
  match r.removal, r.stage with
  | .member userId, .evict ids =>
      s.members r.crewId userId = false →
        (∀ id ∈ clients.ids, clients.owner id = userId → s.InRoom r.crewId id →
          id ∈ ids ∧ (s.sockets id).userId = some userId) ∧
        ∀ id h, (id, h) ∈ s.handlers → clients.owner id = userId → ¬ h.Admits r.crewId
  | .crew, .remove => ∀ userId, Shut clients r.crewId userId s
  | .archive, .remove => ∀ userId, Shut clients r.crewId userId s
  | _, _ => True

/-- The evictions find all sockets; a membership that has been taken away is not found by a read,
and an update of such a user makes one. -/
def Enforced (s : State) : Action → Prop
  | .read i =>
      ∀ id h crewId, s.handlers[i]? = some (id, h) → h.crew = some crewId →
        s.revoked crewId (clients.owner id) = true → s.members crewId (clients.owner id) = false
  | .resume i ok now =>
      ok = true → ∀ id crewId userId, s.handlers[i]? = some (id, .update crewId userId .limit) →
        s.revoked crewId (clients.owner id) = true → (s.sockets id).Rechecks now
  | .advance j => ∀ r, s.requests[j]? = some r → r.Evicts clients s
  | _ => True

end

/-! ## Steps -/

section
variable {clients : Clients} {s t : State}

/-- A turn that is quiet about what the crew has been taken from. -/
theorem Shut.take {crewId : String} (hs : Shut clients crewId userId s)
    (hquiet : clients.owner id = userId → Quiet crewId (s.sockets id) turn)
    (hhandlers : ∀ p ∈ handlers, p ∈ s.handlers ∨ turn.next.map (fun h => (id, h)) = some p) :
    Shut clients crewId userId { s.take clients id turn with handlers := handlers } := by
  constructor
  · rintro id' hclient hid' ⟨hcon, hmem⟩
    simp only [take_sockets] at hcon hmem
    by_cases hid : id' = id
    · subst hid
      rw [Function.update_self] at hcon hmem
      exact hs.room id' hclient hid' ((hquiet hid').room hcon hmem)
    · rw [Function.update_of_ne hid] at hcon hmem
      exact hs.room id' hclient hid' ⟨hcon, hmem⟩
  · intro id' h hmem hid'
    rcases hhandlers _ hmem with hmem | hnext
    · exact hs.handler id' h hmem hid'
    · obtain ⟨g, hg, heq⟩ := map_eq_some_iff.mp hnext
      cases heq
      exact (hquiet hid').next h hg

theorem Shut.of_eq {crewId : String} (hs : Shut clients crewId userId s)
    (hsockets : t.sockets = s.sockets)
    (hhandlers : ∀ id h, (id, h) ∈ t.handlers → (id, h) ∈ s.handlers ∨
      (clients.owner id = userId → ¬ h.Admits crewId)) : Shut clients crewId userId t where
  room id hclient hid hin := by
    rw [State.InRoom, hsockets] at hin
    exact hs.room id hclient hid hin
  handler id h hmem hid := by
    rcases hhandlers id h hmem with hmem | hnot
    · exact hs.handler id h hmem hid
    · exact hnot hid

/-- What a turn broadcasts carries the mark of what had been taken away by then. -/
theorem take_broadcasts (hs : ∀ b ∈ s.broadcasts, b.revoked = true → b.stopped = true)
    (hupdate : ∀ crewId userId, s.revoked crewId (clients.owner id) = true →
      .peerUpdate crewId userId ∉ turn.effects) :
    ∀ b ∈ (s.take clients id turn).broadcasts, b.revoked = true → b.stopped = true := by
  refine (take_induct (P := fun m => m.revoked = s.revoked ∧
    ∀ b ∈ m.broadcasts, b.revoked = true → b.stopped = true) ⟨rfl, hs⟩ ?_).2
  rintro m e he ⟨hrevoked, hm⟩
  cases e with
  | peerUpdate c u =>
    refine ⟨hrevoked, fun b hb hflag => ?_⟩
    rcases mem_cons.mp hb with rfl | hb
    · rw [hrevoked] at hflag
      exact absurd he (hupdate c u hflag)
    · exact hm b hb hflag
  | peerStopped c u =>
    refine ⟨hrevoked, fun b hb hflag => ?_⟩
    rcases mem_cons.mp hb with rfl | hb
    · rfl
    · exact hm b hb hflag
  | _ => exact ⟨hrevoked, hm⟩

theorem Secure.take (hs : Secure clients s)
    (hquiet : ∀ crewId, s.revoked crewId (clients.owner id) = true →
      Quiet crewId (s.sockets id) turn)
    (howned : Owned clients { s.take clients id turn with handlers := handlers })
    (hhandlers : ∀ p ∈ handlers, p ∈ s.handlers ∨ turn.next.map (fun h => (id, h)) = some p) :
    Secure clients { s.take clients id turn with handlers := handlers } where
  owned := howned
  shut crewId userId hrevoked := by
    simp only [take_revoked] at hrevoked
    refine (hs.shut crewId userId hrevoked).take (fun hid => ?_) hhandlers
    rw [← hid] at hrevoked
    exact hquiet crewId hrevoked
  broadcasts := take_broadcasts hs.broadcasts fun crewId userId hrevoked =>
    (hquiet crewId hrevoked).update userId

/-- Nothing about the sockets and the broadcasts changes. -/
theorem Secure.of_eq (hs : Secure clients s) (howned : Owned clients t)
    (hsockets : t.sockets = s.sockets) (hbroadcasts : t.broadcasts = s.broadcasts)
    (hrevoked : ∀ crewId userId, t.revoked crewId userId = true → s.revoked crewId userId = true ∨
      Shut clients crewId userId s)
    (hhandlers : ∀ id h, (id, h) ∈ t.handlers → (id, h) ∈ s.handlers) : Secure clients t where
  owned := howned
  shut crewId userId h := by
    have hshut : Shut clients crewId userId s :=
      (hrevoked crewId userId h).elim (hs.shut crewId userId) id
    exact hshut.of_eq hsockets fun id h hmem => .inl (hhandlers id h hmem)
  broadcasts := by
    rw [hbroadcasts]
    exact hs.broadcasts

/-- The turns of an eviction are quiet. -/
theorem Secure.evict (hs : Secure clients s) {f : Socket → Turn}
    (hf : ∀ k, (∀ crewId, Quiet crewId k (f k)) ∧ (f k).socket.userId = k.userId ∧
      (f k).next = none) (ids : List String) : Secure clients (s.evict clients f ids) := by
  refine evict_induct hs fun m id _ hm => ?_
  obtain ⟨hquiet, hsame, hend⟩ := hf (m.sockets id)
  have howned : Owned clients (m.take clients id (f (m.sockets id))) :=
    hm.owned.take ⟨by simpa only [hsame] using hm.owned.socket id, by simp [hend]⟩
      fun p hp => .inl (mem_take_handlers.mp hp)
  exact hm.take (fun crewId _ => hquiet crewId) howned fun p hp =>
    .inl (mem_take_handlers.mp hp)

theorem closeRoom_ends (crewId : String) (k : Socket) :
    (∀ c, Quiet c k (closeRoom crewId k)) ∧ (closeRoom crewId k).socket.userId = k.userId ∧
      (closeRoom crewId k).next = none :=
  ⟨fun _ => closeRoom_quiet crewId, closeRoom_userId crewId k⟩

theorem revokeAccess_ends (crewId userId : String) (k : Socket) :
    (∀ c, Quiet c k (revokeAccess crewId userId k)) ∧
      (revokeAccess crewId userId k).socket.userId = k.userId ∧
      (revokeAccess crewId userId k).next = none :=
  ⟨fun _ => revokeAccess_quiet crewId userId, revokeAccess_userId crewId userId k⟩

/-- An eviction that finds all sockets of the user in the room, and no handler past the check. -/
theorem evict_shut {crewId : String} {ids : List String}
    (hfound : ∀ id ∈ clients.ids, clients.owner id = userId → s.InRoom crewId id →
      id ∈ ids ∧ (s.sockets id).userId = some userId)
    (hhandlers : ∀ id h, (id, h) ∈ s.handlers → clients.owner id = userId → ¬ h.Admits crewId) :
    Shut clients crewId userId (s.evict clients (revokeAccess crewId userId) ids) := by
  constructor
  · rintro id hclient hid ⟨hcon, hmem⟩
    rw [evict_sockets (revokeAccess_revokeAccess crewId userId)] at hcon hmem
    have hin : s.InRoom crewId id := by
      split at hcon
      · rename_i hids
        rw [if_pos hids] at hmem
        exact (revokeAccess_quiet crewId userId).room hcon hmem
      · rename_i hids
        rw [if_neg hids] at hmem
        exact ⟨hcon, hmem⟩
    obtain ⟨hids, huser⟩ := hfound id hclient hid hin
    rw [if_pos hids, revokeAccess, if_pos huser] at hmem
    exact (mem_leave.mp hmem).2 rfl
  · intro id h hmem hid
    rw [evict_handlers] at hmem
    exact hhandlers id h hmem hid

theorem advance_secure (hs : Secure clients s) {j : ℕ} {r : Request} (hr : r.Evicts clients s) :
    Secure clients (s.advance clients j r) := by
  have howned := advance_owned hs.owned j r
  obtain ⟨removal, crewId, stage⟩ := r
  cases stage with
  | fetch => cases removal <;> exact hs.of_eq howned rfl rfl (fun _ _ h => .inl h) fun _ _ h => h
  | remove =>
    have hclose : (∀ userId, Shut clients crewId userId s) → ∀ x y,
        putRow s.revoked crewId true x y = true → s.revoked x y = true ∨ Shut clients x y s := by
      intro hshut x y h
      by_cases hx : x = crewId
      · subst hx
        exact .inr (hshut y)
      · rw [putRow_apply, if_neg hx] at h
        exact .inl h
    cases removal with
    | member userId => exact hs.of_eq howned rfl rfl (fun _ _ h => .inl h) fun _ _ h => h
    | crew => exact hs.of_eq howned rfl rfl (hclose hr) fun _ _ h => h
    | archive => exact hs.of_eq howned rfl rfl (hclose hr) fun _ _ h => h
  | evict ids =>
    have hclose := hs.evict (closeRoom_ends crewId) ids
    cases removal with
    | member userId =>
      have hrevoke := hs.evict (revokeAccess_ends crewId userId) ids
      refine hrevoke.of_eq howned rfl rfl (fun x y h => ?_) fun _ _ h => h
      simp only [State.advance, put_apply] at h
      split at h
      · rename_i hxy
        obtain ⟨rfl, rfl⟩ := hxy
        obtain ⟨hfound, hhandlers⟩ := hr (by simpa using h)
        exact .inr (evict_shut hfound hhandlers)
      · exact .inl (by rwa [evict_revoked])
    | crew => exact hclose.of_eq howned rfl rfl (fun _ _ h => .inl h) fun _ _ h => h
    | archive => exact hclose.of_eq howned rfl rfl (fun _ _ h => .inl h) fun _ _ h => h

/-- A read that does not find what has been taken away passes no check. -/
theorem read_not_admits {members : String → String → Bool} {crewId : String} {h' : Handler}
    (hread : h.read members user = some h')
    (huser : ∀ c userId stage, h = .update c userId stage → userId = user)
    (hmembers : h.crew = some crewId → members crewId user = false) : ¬ h'.Admits crewId := by
  intro hadmits
  cases read_cases hread with
  | joinCrew c =>
    cases hm : members c user
    · simp [hm, Handler.Admits] at hadmits
    · obtain rfl : c = crewId := by simpa [hm, Handler.Admits] using hadmits
      exact absurd (hmembers rfl) (by simp [hm])
  | share c position =>
    cases hm : members c user
    · cases position <;> simp [hm, Handler.Admits] at hadmits
    · cases position
      · simp [Handler.Admits] at hadmits
      · obtain rfl : c = crewId := by simpa [hm, Handler.Admits] using hadmits
        exact absurd (hmembers rfl) (by simp [hm])
  | update c u =>
    obtain rfl := huser c u _ rfl
    cases hm : members c u
    · simp [hm, Handler.Admits] at hadmits
    · obtain rfl : c = crewId := by simpa [hm, Handler.Admits] using hadmits
      exact absurd (hmembers rfl) (by simp [hm])

/-- Every step keeps the crews shut, when the revocations are enforced. -/
theorem step_secure (hs : Secure clients s) (a : Action) (henforced : Enforced clients s a)
    (h : step clients s a = some t) : Secure clients t := by
  have howned := step_owned hs.owned a h
  cases a with
  | event id event =>
    obtain ⟨-, -, rfl⟩ := step_event h
    refine hs.take (fun crewId _ => onEvent_quiet event) howned fun p hp => ?_
    exact (mem_append.mp hp).imp_right fun hp => mem_toList.mp hp
  | read i =>
    obtain ⟨id, g, g', hg, hread, rfl⟩ := step_read h
    refine ⟨howned, fun crewId userId hrevoked => ?_, hs.broadcasts⟩
    refine (hs.shut crewId userId hrevoked).of_eq rfl fun id' f hmem => ?_
    rcases mem_or_eq_of_mem_set hmem with hmem | heq
    · exact .inl hmem
    · cases heq
      refine .inr fun hid => ?_
      subst hid
      refine read_not_admits hread (fun c u stage heq => ?_) fun hcrew =>
        henforced id g crewId hg hcrew hrevoked
      subst heq
      exact hs.owned.handler id c u stage (mem_of_getElem? hg)
  | resume i ok now =>
    obtain ⟨id, g, turn, hg, hturn, rfl⟩ := step_resume h
    refine hs.take (fun crewId hrevoked => ?_) howned fun p hp => ?_
    · refine resume_quiet ?_ (fun hok userId heq => ?_) hturn
      · exact (hs.shut crewId _ hrevoked).handler id g (mem_of_getElem? hg) rfl
      · subst heq
        exact henforced hok id crewId userId hg hrevoked
    · exact InFlight.mem_proceed_cases hp
  | fail i =>
    obtain ⟨id, g, -, -, rfl⟩ := step_fail h
    exact hs.of_eq howned rfl rfl (fun _ _ h => .inl h) fun _ _ h => mem_of_mem_eraseIdx h
  | disconnect id =>
    obtain ⟨-, -, rfl⟩ := step_disconnect h
    exact hs.take (fun crewId _ => onDisconnect_quiet) howned fun p hp =>
      .inl (mem_take_handlers.mp hp)
  | endSession id =>
    obtain ⟨-, -, rfl⟩ := step_endSession h
    exact hs.take (fun crewId _ => disconnectSocket_quiet) howned fun p hp =>
      .inl (mem_take_handlers.mp hp)
  | request crewId removal =>
    obtain rfl := some.inj h
    exact hs.of_eq howned rfl rfl (fun _ _ h => .inl h) fun _ _ h => h
  | advance j =>
    obtain ⟨r, hr, rfl⟩ := step_advance h
    exact advance_secure hs (henforced r hr)
  | fetchFails j =>
    obtain ⟨removal, crewId, -, rfl⟩ := step_fetchFails h
    exact hs.of_eq howned rfl rfl (fun _ _ h => .inl h) fun _ _ h => h
  | expire crewId =>
    obtain rfl := some.inj h
    exact hs.of_eq howned rfl rfl (fun _ _ h => .inl h) fun _ _ h => h
  | addMember crewId userId =>
    obtain rfl := some.inj h
    refine hs.of_eq howned rfl rfl (fun x y h => .inl ?_) fun _ _ h => h
    simp only [put_apply] at h
    split at h
    · cases h
    · exact h

theorem start_secure (members : String → String → Bool) : Secure clients (start members) where
  owned := start_owned members
  shut crewId userId h := by cases h
  broadcasts b hb := by cases hb

theorem Secure.final (hs : Secure clients s) : Final clients s :=
  ⟨fun crewId userId h => (hs.shut crewId userId h).room, hs.broadcasts⟩

/-- Once a crew has been taken away from a user, and until the user is a member again, no socket of
the user is in its room or publishes there, in every run in which the evictions find all sockets and
no handler past the check, and reads and updates look at what has been taken away. -/
theorem revocation_is_final {members : String → String → Bool} {as : List Action}
    (henforced : Machine.Meets (step clients) (Enforced clients) (start members) as) :
    Machine.Always (step clients) (Final clients) (start members) as :=
  Machine.always_of_meets (fun _ a _ hs hC h => step_secure hs a hC h) (fun _ hs => hs.final)
    (start_secure members) henforced

end

/-! ## A member who is removed -/

/-- The socket joins a festival and a crew, the user is removed, and the socket tries to join
again. -/
def removalRun : List Action :=
  [.event "socket" (.joinFestival "festival"),
    .resume 0 true 0,
    .resume 0 true 0,
    .resume 0 true 0,
    .event "socket" (.joinCrew "crew"),
    .resume 0 true 0,
    .read 0,
    .resume 0 true 0,
    .request "crew" (.member "user"),
    .advance 0,
    .advance 0,
    .advance 0,
    .event "socket" (.joinCrew "crew"),
    .resume 0 true 0,
    .read 0,
    .resume 0 true 0]

theorem removalRun_final :
    Machine.Always (step (Clients.single "socket" "user")) (Final (Clients.single "socket" "user"))
      (start fun _ _ => true) removalRun := by
  apply revocation_is_final
  simp [removalRun, Machine.Meets, step, Enforced, Request.Evicts, Clients.single, start,
    Socket.fresh, Socket.onEvent, Socket.wait, Socket.pass, Socket.join, Socket.leave,
    Socket.resetMembershipCache, State.take, State.emit, State.advance, State.fetchSockets,
    State.evict, State.InRoom, Removal.open, Handler.read, Handler.resume, Handler.crew,
    InFlight.proceed, enterFestival, setPresence, leaveFestivalRealtime, enterCrew, revokeAccess,
    put_apply]

/-- The membership is read before the removal, and the socket joins the room after it. -/
theorem join_after_removal :
    ∃ t, Machine.run (step (Clients.single "socket" "user")) (start fun _ _ => true)
        [.event "socket" (.joinCrew "crew"), .resume 0 true 0, .read 0,
          .request "crew" (.member "user"), .advance 0, .advance 0, .advance 0,
          .resume 0 true 0] = some t ∧
      t.requests.length = 0 ∧ t.revoked "crew" "user" = true ∧ t.InRoom "crew" "socket" ∧
      ¬ Final (Clients.single "socket" "user") t := by
  refine ⟨_, rfl, rfl, rfl, ⟨rfl, List.mem_singleton_self _⟩, fun h => ?_⟩
  exact h.1 "crew" "user" rfl "socket" (List.mem_singleton_self _) rfl
    ⟨rfl, List.mem_singleton_self _⟩

end FestivalPlanner.Realtime
