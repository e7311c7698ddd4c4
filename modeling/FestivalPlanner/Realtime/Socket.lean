import Mathlib.Data.Int.Notation
import Mathlib.Data.List.Basic

/-!
# Sockets and what their handlers do between two awaits

A handler of a socket event runs up to an await, and goes on when the answer has come.  What it does
in between is a turn: it changes the rooms and the data of its socket, and has effects on what the
sockets of the server share.

* `Socket`, `Room` — the rooms of a socket and the fields of `socket.data`;
* `Effect` — broadcasts about live locations, and writes to presence, snapshots and registrations;
* `Handler` — the handlers that are under way, and the await that each is at;
* `enterFestival`, `leaveFestival`, `enterCrew`, `quitCrew`, `register`, `startSharing`, `publish`,
  `revoke`, `stopSharing`, `onDisconnect`, `disconnectSocket`, `revokeAccess`, `closeRoom` — the
  turns;
* `Socket.onEvent`, `Handler.resume` — the first turn of a handler, and the next one;
* `onEvent_cases`, `Resumes` — what these turns can be.
-/

namespace FestivalPlanner.Realtime

open Option

/-! ## Sockets -/

/-- A room: the festival's id, or `crew:` and the crew's id. -/
inductive Room where
  | festival (festivalId : String)
  | crew (crewId : String)
deriving DecidableEq

structure Socket where
  connected : Bool
  rooms : List Room
  userId : Option String
  festivalId : Option String
  crewId : Option String
  sharingCrewId : Option String
  crewMembershipCheckedAt : ℤ
  crewMembershipUpdateCount : ℕ

/-- A socket that has connected, and done nothing yet. -/
def Socket.fresh : Socket :=
  { connected := true
    rooms := []
    userId := none
    festivalId := none
    crewId := none
    sharingCrewId := none
    crewMembershipCheckedAt := 0
    crewMembershipUpdateCount := 0 }

/-- A socket that has disconnected joins no room any more. -/
@[grind =] def Socket.join (room : Room) (k : Socket) : Socket :=
  { k with rooms := if k.connected then room :: k.rooms else k.rooms }

@[grind =] def Socket.leave (room : Room) (k : Socket) : Socket :=
  { k with rooms := k.rooms.filter (· ≠ room) }

def Socket.leaveAll (k : Socket) : Socket := { k with rooms := [] }

/-- The membership is checked anew with the next update. -/
def Socket.resetMembershipCache (k : Socket) : Socket :=
  { k with
    crewMembershipCheckedAt := 0
    crewMembershipUpdateCount := 0 }

/-! ## Handlers -/

inductive Effect where
  /-- `state.onlineUsers` lists the socket under the festival. -/
  | setOnline (festivalId : String)
  | setOffline (festivalId : String)
  /-- `location:peer-update` to the room of the crew. -/
  | peerUpdate (crewId userId : String)
  /-- `location:peer-stopped` to the room of the crew. -/
  | peerStopped (crewId userId : String)
  | writeLivePosition (crewId userId : String)
  | dropLivePosition (crewId userId : String)
  | registerSharingSocket (userId : String) (now : ℤ)
  | unregisterSharingSocket (userId : String)

inductive JoinStage where
  | session
  /-- The festival and the profile of the user are read. -/
  | profile
  | presence

/-- `member` with the answer, when the membership is read. -/
inductive CrewStage where
  | session
  | member (answer : Option Bool)

inductive ShareStage where
  | session
  | member (answer : Option Bool)
  /-- With what the registration says. -/
  | register (allowed : Bool)

inductive UpdateStage where
  | limit
  | member (answer : Option Bool)

inductive Handler where
  /-- `join:festival` and `reconnect:restore`. -/
  | joinFestival (festivalId : String) (stage : JoinStage)
  | joinCrew (crewId : String) (stage : CrewStage)
  | leaveCrew (crewId : String)
  | share (crewId : String) (position : Bool) (stage : ShareStage)
  | update (crewId userId : String) (stage : UpdateStage)
  | sync (crewId : String)

structure Turn where
  socket : Socket
  effects : List Effect
  /-- The await that the handler is at afterwards; none when it has ended. -/
  next : Option Handler

@[grind =] def Socket.pass (k : Socket) : Turn :=
  { socket := k
    effects := []
    next := none }

@[grind =] def Socket.wait (k : Socket) (h : Handler) : Turn :=
  { socket := k
    effects := []
    next := some h }

/-! ## Leaving -/

@[grind =] def removeSocketPresence (k : Socket) : Turn :=
  { socket := { k with festivalId := none }
    effects := (k.festivalId.map Effect.setOffline).toList
    next := none }

@[grind =] def leaveFestivalRealtime (k : Socket) : Turn :=
  match k.festivalId with
  | none => k.pass
  | some festivalId =>
      { removeSocketPresence k with
        socket := (removeSocketPresence k).socket.leave (.festival festivalId) }

@[grind =] def clearSocketSession (k : Socket) : Socket :=
  { k with
    userId := none
    festivalId := none }

/-- The handler of `disconnect`; the socket has left its rooms by then. -/
@[grind =] def onDisconnect (k : Socket) : Turn :=
  let teardown :=
    match k.sharingCrewId, k.userId with
    | some crewId, some userId =>
        [.peerStopped crewId userId, .unregisterSharingSocket userId,
          .dropLivePosition crewId userId]
    | _, _ => []
  { socket :=
      { clearSocketSession k with
        connected := false
        rooms := [] }
    effects := teardown ++ (removeSocketPresence k).effects
    next := none }

/-- The server disconnects the socket; one that is disconnected has no handler run again. -/
@[grind =] def disconnectSocket (k : Socket) : Turn :=
  let left := leaveFestivalRealtime k
  let cleared := clearSocketSession left.socket
  if k.connected then
    { onDisconnect cleared with effects := left.effects ++ (onDisconnect cleared).effects }
  else { left with socket := cleared }

/-- `leave:festival` leaves all rooms. -/
def leaveFestival (k : Socket) : Turn :=
  { leaveFestivalRealtime k with socket := (leaveFestivalRealtime k).socket.leaveAll }

/-! ## Joining -/

/-- What `authenticateAndJoinRoom` does when the profile is read. -/
def enterFestival (user festivalId : String) (k : Socket) : Turn :=
  let left := leaveFestivalRealtime k
  { socket :=
      { left.socket.join (.festival festivalId) with
        userId := some user
        festivalId := some festivalId }
    effects := left.effects
    next := some (.joinFestival festivalId .presence) }

/-- The entries of the presence list have no `socketId`, so the presence is always set. -/
@[grind =] def setPresence (festivalId : String) (k : Socket) : Turn :=
  { socket := k
    effects := [.setOnline festivalId]
    next := none }

/-- `join:crew` leaves the room of the previous crew. -/
@[grind =] def enterCrew (crewId : String) (k : Socket) : Turn :=
  let left :=
    match k.crewId with
    | some previous => if previous ≠ crewId then k.leave (.crew previous) else k
    | none => k
  { socket := { left.join (.crew crewId) with crewId := some crewId }
    effects := []
    next := none }

/-- `delete socket.data.crewId` when it is that of the crew. -/
def Socket.dropCrew (crewId : String) (k : Socket) : Socket :=
  { k with crewId := if k.crewId = some crewId then none else k.crewId }

/-- `leave:crew`, which ends the sharing to the crew. -/
@[grind =] def quitCrew (user crewId : String) (k : Socket) : Turn :=
  let left := ((k.leave (.crew crewId)).dropCrew crewId).resetMembershipCache
  if k.sharingCrewId = some crewId then
    { socket := { left with sharingCrewId := none }
      effects :=
        [.peerStopped crewId user, .unregisterSharingSocket user, .dropLivePosition crewId user]
      next := none }
  else left.pass

/-! ## Live locations -/

/-- `location:share` of a member registers the socket. -/
@[grind =] def register (user crewId : String) (position allowed : Bool) (now : ℤ) (k : Socket) : Turn :=
  { socket := k
    effects := [.registerSharingSocket user now]
    next := some (.share crewId position (.register allowed)) }

/-- `location:share` when the registration is allowed; a position is published at once. -/
@[grind =] def startSharing (user crewId : String) (position : Bool) (now : ℤ) (k : Socket) : Turn :=
  { socket :=
      { k with
        userId := some user
        sharingCrewId := some crewId
        crewMembershipCheckedAt := now
        crewMembershipUpdateCount := 0 }
    effects :=
      if position then [.peerUpdate crewId user, .writeLivePosition crewId user] else []
    next := none }

/-- The end of `location:update`. -/
@[grind =] def publish (userId crewId : String) (k : Socket) : Turn :=
  { socket := k
    effects := [.peerUpdate crewId userId, .writeLivePosition crewId userId]
    next := none }

/-- `MEMBERSHIP_RECHECK_INTERVAL_MS` -/
def MEMBERSHIP_RECHECK_INTERVAL_MS : ℤ := 15000

/-- `MEMBERSHIP_RECHECK_EVERY_N` -/
def MEMBERSHIP_RECHECK_EVERY_N : ℕ := 20

/-- `location:update` within the limit: the membership is read now and then. -/
@[grind =] def countUpdate (userId crewId : String) (now : ℤ) (k : Socket) : Turn :=
  let updateCount := k.crewMembershipUpdateCount + 1
  if MEMBERSHIP_RECHECK_EVERY_N ≤ updateCount ∨
      MEMBERSHIP_RECHECK_INTERVAL_MS ≤ now - k.crewMembershipCheckedAt then
    { k with
      crewMembershipUpdateCount := 0
      crewMembershipCheckedAt := now }.wait (.update crewId userId (.member none))
  else publish userId crewId { k with crewMembershipUpdateCount := updateCount }

/-- `location:update` reads the membership again. -/
def Socket.Rechecks (now : ℤ) (k : Socket) : Prop :=
  MEMBERSHIP_RECHECK_EVERY_N ≤ k.crewMembershipUpdateCount + 1 ∨
    MEMBERSHIP_RECHECK_INTERVAL_MS ≤ now - k.crewMembershipCheckedAt

/-- The user is found to be no member any more. -/
@[grind =] def revoke (userId crewId : String) (k : Socket) : Turn :=
  { socket := { (k.leave (.crew crewId)).dropCrew crewId with sharingCrewId := none }
    effects :=
      [.peerStopped crewId userId, .unregisterSharingSocket userId, .dropLivePosition crewId userId]
    next := none }

/-- `location:stop` for the crew that the socket has joined or shares to. -/
@[grind =] def stopSharing (crewId : String) (k : Socket) : Turn :=
  if k.crewId = some crewId ∨ k.sharingCrewId = some crewId then
    let unregistered :=
      if k.sharingCrewId = some crewId then
        (k.userId.map Effect.unregisterSharingSocket).toList
      else []
    let stopped :=
      match k.userId with
      | some userId => [.dropLivePosition crewId userId, .peerStopped crewId userId]
      | none => []
    { socket :=
        { k with
          sharingCrewId := if k.sharingCrewId = some crewId then none else k.sharingCrewId }
      effects := unregistered ++ stopped
      next := none }
  else k.pass

/-! ## Evictions -/

/-- What `evictUserFromCrewRoom` does with a socket of the room; the crew of `join:crew` stays. -/
@[grind =] def revokeAccess (crewId removedUserId : String) (k : Socket) : Turn :=
  if k.userId = some removedUserId then
    { socket := { (k.resetMembershipCache.leave (.crew crewId)) with sharingCrewId := none }
      effects :=
        if k.sharingCrewId = some crewId then [.peerStopped crewId removedUserId] else []
      next := none }
  else k.pass

/-- What `evictAllFromCrewRoom` does with a socket of the room. -/
@[grind =] def closeRoom (crewId : String) (k : Socket) : Turn :=
  { socket :=
      { (k.resetMembershipCache.leave (.crew crewId)) with
        sharingCrewId := if k.sharingCrewId = some crewId then none else k.sharingCrewId }
    effects := []
    next := none }

/-! ## Turns -/

inductive Event where
  /-- `join:festival` and `reconnect:restore`. -/
  | joinFestival (festivalId : String)
  | leaveFestival
  | joinCrew (crewId : String)
  | leaveCrew (crewId : String)
  | share (crewId : String) (position : Bool)
  | update (crewId : String)
  | stop (crewId : String)
  | sync (crewId : String)

/-- What a handler does before its first await. -/
@[grind =] def Socket.onEvent (k : Socket) : Event → Turn
  | .joinFestival festivalId => k.wait (.joinFestival festivalId .session)
  | .leaveFestival => Realtime.leaveFestival k
  | .joinCrew crewId => k.wait (.joinCrew crewId .session)
  | .leaveCrew crewId => k.wait (.leaveCrew crewId)
  | .share crewId position =>
      if k.crewId = some crewId then k.wait (.share crewId position .session) else k.pass
  | .update crewId =>
      match k.userId with
      | some userId =>
          if k.sharingCrewId = some crewId then k.wait (.update crewId userId .limit) else k.pass
      | none => k.pass
  | .stop crewId => stopSharing crewId k
  | .sync crewId => if k.crewId = some crewId then k.wait (.sync crewId) else k.pass

/-- What a handler does when the answer of its await has come; none while it has not.  A session
that is not valid disconnects the socket; `allowed` is what a registration would say. -/
def Handler.resume (user : String) (ok allowed : Bool) (now : ℤ) (k : Socket) :
    Handler → Option Turn
  | .joinFestival festivalId .session =>
      some (if ok then k.wait (.joinFestival festivalId .profile) else disconnectSocket k)
  | .joinFestival festivalId .profile =>
      some (if ok then enterFestival user festivalId k else k.pass)
  | .joinFestival festivalId .presence => some (setPresence festivalId k)
  | .joinCrew crewId .session =>
      some (if ok then k.wait (.joinCrew crewId (.member none)) else disconnectSocket k)
  | .joinCrew crewId (.member (some answer)) => some (if answer then enterCrew crewId k else k.pass)
  | .leaveCrew crewId => some (if ok then quitCrew user crewId k else disconnectSocket k)
  | .share crewId position .session =>
      some (if ok then k.wait (.share crewId position (.member none)) else disconnectSocket k)
  | .share crewId position (.member (some answer)) =>
      some (if answer then register user crewId position allowed now k else k.pass)
  | .share crewId position (.register admitted) =>
      some (if admitted then startSharing user crewId position now k else k.pass)
  | .update crewId userId .limit => some (if ok then countUpdate userId crewId now k else k.pass)
  | .update crewId userId (.member (some answer)) =>
      some (if answer then publish userId crewId k else revoke userId crewId k)
  | .sync _ => some (if ok then k.pass else disconnectSocket k)
  | _ => none

/-! ## What a turn leaves -/

section
variable {k : Socket}

theorem mem_leave {room r : Room} : r ∈ (k.leave room).rooms ↔ r ∈ k.rooms ∧ r ≠ room := by
  simp [Socket.leave]

theorem mem_join {room r : Room} :
    r ∈ (k.join room).rooms ↔ (k.connected = true ∧ r = room) ∨ r ∈ k.rooms := by
  cases hc : k.connected <;> simp [Socket.join, hc]

theorem leaveFestivalRealtime_connected :
    (leaveFestivalRealtime k).socket.connected = k.connected := by
  rw [leaveFestivalRealtime]
  split <;> rfl

theorem leaveFestivalRealtime_userId : (leaveFestivalRealtime k).socket.userId = k.userId := by
  rw [leaveFestivalRealtime]
  split <;> rfl

theorem leaveFestivalRealtime_sharingCrewId :
    (leaveFestivalRealtime k).socket.sharingCrewId = k.sharingCrewId := by
  rw [leaveFestivalRealtime]
  split <;> rfl

theorem leaveFestivalRealtime_next : (leaveFestivalRealtime k).next = none := by
  rw [leaveFestivalRealtime]
  split <;> rfl

theorem mem_of_mem_leaveFestivalRealtime {r : Room}
    (hr : r ∈ (leaveFestivalRealtime k).socket.rooms) : r ∈ k.rooms := by
  rw [leaveFestivalRealtime] at hr
  split at hr
  · exact hr
  · exact (mem_leave.mp hr).1

/-- Leaving a festival only takes the socket off the list. -/
theorem eq_setOffline_of_mem {e : Effect} (he : e ∈ (leaveFestivalRealtime k).effects) :
    ∃ festivalId, k.festivalId = some festivalId ∧ e = .setOffline festivalId := by
  cases hf : k.festivalId with
  | none => simp [leaveFestivalRealtime, hf, Socket.pass] at he
  | some festivalId =>
    refine ⟨festivalId, rfl, ?_⟩
    simpa [leaveFestivalRealtime, removeSocketPresence, hf] using he

/-- Entering a crew joins its room, and leaves at most another one. -/
theorem enterCrew_socket (crewId : String) :
    ∃ rooms, (∀ r ∈ rooms, r ∈ k.rooms) ∧
      (enterCrew crewId k).socket =
        { ({ k with rooms := rooms }.join (.crew crewId)) with crewId := some crewId } := by
  simp only [enterCrew]
  split
  · rename_i previous _
    split
    · exact ⟨(k.leave (.crew previous)).rooms, fun r hr => (mem_leave.mp hr).1, rfl⟩
    · exact ⟨k.rooms, fun r hr => hr, rfl⟩
  · exact ⟨k.rooms, fun r hr => hr, rfl⟩

theorem disconnectSocket_connected : (disconnectSocket k).socket.connected = false := by
  cases hc : k.connected
  · simp [disconnectSocket, hc, clearSocketSession, leaveFestivalRealtime_connected]
  · simp [disconnectSocket, hc, onDisconnect]

/-- The session is cleared first, and `disconnect` finds nothing to tear down. -/
theorem disconnectSocket_effects :
    (disconnectSocket k).effects = (leaveFestivalRealtime k).effects := by
  cases hc : k.connected
  · simp [disconnectSocket, hc]
  · cases hs : (leaveFestivalRealtime k).socket.sharingCrewId <;>
      simp [disconnectSocket, hc, onDisconnect, clearSocketSession, removeSocketPresence, hs]

theorem disconnectSocket_next : (disconnectSocket k).next = none := by
  cases hc : k.connected
  · simp [disconnectSocket, hc, leaveFestivalRealtime_next]
  · simp [disconnectSocket, hc, onDisconnect]

theorem disconnectSocket_userId : (disconnectSocket k).socket.userId = none := by
  cases hc : k.connected <;> simp [disconnectSocket, hc, clearSocketSession, onDisconnect]

end

/-! ## What a turn can be -/

/-- The handler is at its first await, and the socket has passed its gates. -/
def Handler.Starts (k : Socket) : Handler → Prop
  | .joinFestival _ stage => stage = .session
  | .joinCrew _ stage => stage = .session
  | .leaveCrew _ => True
  | .share crewId _ stage => stage = .session ∧ k.crewId = some crewId
  | .update crewId userId stage =>
      stage = .limit ∧ k.userId = some userId ∧ k.sharingCrewId = some crewId
  | .sync crewId => k.crewId = some crewId

/-- The handler is at the await after its session was found to be valid. -/
def Handler.Continues : Handler → Prop
  | .joinFestival _ stage => stage = .profile
  | .joinCrew _ stage => stage = .member none
  | .share _ _ stage => stage = .member none
  | _ => False

/-- The first turn of a handler leaves all as it is, but for the two handlers without an await. -/
theorem onEvent_cases (k : Socket) (event : Event) :
    event = .leaveFestival ∨ (∃ crewId, event = .stop crewId) ∨
      ∃ next : Option Handler, k.onEvent event = ⟨k, [], next⟩ ∧ ∀ h ∈ next, h.Starts k := by
  cases event with
  | joinFestival festivalId => exact .inr (.inr ⟨_, rfl, by rintro h ⟨⟩; rfl⟩)
  | leaveFestival => exact .inl rfl
  | joinCrew crewId => exact .inr (.inr ⟨_, rfl, by rintro h ⟨⟩; rfl⟩)
  | leaveCrew crewId => exact .inr (.inr ⟨_, rfl, by rintro h ⟨⟩; trivial⟩)
  | share crewId position =>
    simp only [Socket.onEvent]
    split
    · rename_i hcrew
      exact .inr (.inr ⟨_, rfl, by rintro h ⟨⟩; exact ⟨rfl, hcrew⟩⟩)
    · exact .inr (.inr ⟨_, rfl, by rintro h ⟨⟩⟩)
  | update crewId =>
    simp only [Socket.onEvent]
    split
    · rename_i userId huser
      split
      · rename_i hsharing
        exact .inr (.inr ⟨_, rfl, by rintro h ⟨⟩; exact ⟨rfl, huser, hsharing⟩⟩)
      · exact .inr (.inr ⟨_, rfl, by rintro h ⟨⟩⟩)
    · exact .inr (.inr ⟨_, rfl, by rintro h ⟨⟩⟩)
  | stop crewId => exact .inr (.inl ⟨crewId, rfl⟩)
  | sync crewId =>
    simp only [Socket.onEvent]
    split
    · rename_i hcrew
      exact .inr (.inr ⟨_, rfl, by rintro h ⟨⟩; exact hcrew⟩)
    · exact .inr (.inr ⟨_, rfl, by rintro h ⟨⟩⟩)

/-- The handler awaits its session, and disconnects the socket when there is none. -/
def Handler.ValidatesSession : Handler → Prop
  | .joinFestival _ stage => stage = .session
  | .joinCrew _ stage => stage = .session
  | .leaveCrew _ => True
  | .share _ _ stage => stage = .session
  | .update _ _ _ => False
  | .sync _ => True

/-- What a handler that goes on can do. -/
inductive Resumes (user : String) (ok allowed : Bool) (now : ℤ) (k : Socket) :
    Handler → Turn → Prop where
  | pass {h : Handler} (hh : ∀ f, h ≠ .joinFestival f .presence) :
      Resumes user ok allowed now k h k.pass
  | ended {h : Handler} (hok : ok = false) (hsession : h.ValidatesSession) :
      Resumes user ok allowed now k h (disconnectSocket k)
  | wait {h h' : Handler} (hh : ∀ f, h ≠ .joinFestival f .presence) (hnext : h'.Continues) :
      Resumes user ok allowed now k h (k.wait h')
  | enterFestival (festivalId : String) :
      Resumes user ok allowed now k (.joinFestival festivalId .profile)
        (Realtime.enterFestival user festivalId k)
  | setPresence (festivalId : String) :
      Resumes user ok allowed now k (.joinFestival festivalId .presence)
        (Realtime.setPresence festivalId k)
  | enterCrew (crewId : String) :
      Resumes user ok allowed now k (.joinCrew crewId (.member (some true)))
        (Realtime.enterCrew crewId k)
  | quitCrew (crewId : String) :
      Resumes user ok allowed now k (.leaveCrew crewId) (Realtime.quitCrew user crewId k)
  | register (crewId : String) (position : Bool) :
      Resumes user ok allowed now k (.share crewId position (.member (some true)))
        (Realtime.register user crewId position allowed now k)
  | startSharing (crewId : String) (position : Bool) :
      Resumes user ok allowed now k (.share crewId position (.register true))
        (Realtime.startSharing user crewId position now k)
  | countUpdate (crewId userId : String) (hok : ok = true) :
      Resumes user ok allowed now k (.update crewId userId .limit)
        (Realtime.countUpdate userId crewId now k)
  | publish (crewId userId : String) :
      Resumes user ok allowed now k (.update crewId userId (.member (some true)))
        (Realtime.publish userId crewId k)
  | revoke (crewId userId : String) :
      Resumes user ok allowed now k (.update crewId userId (.member (some false)))
        (Realtime.revoke userId crewId k)

theorem resume_cases {user : String} {ok allowed : Bool} {now : ℤ} {k : Socket} {h : Handler}
    {turn : Turn} (hturn : h.resume user ok allowed now k = some turn) :
    Resumes user ok allowed now k h turn := by
  cases h with
  | joinFestival festivalId stage =>
    cases stage with
    | session =>
      obtain rfl := some.inj hturn
      cases ok
      · exact .ended rfl rfl
      · exact .wait (by simp) rfl
    | profile =>
      obtain rfl := some.inj hturn
      cases ok
      · exact .pass (by simp)
      · exact .enterFestival festivalId
    | presence =>
      obtain rfl := some.inj hturn
      exact .setPresence festivalId
  | joinCrew crewId stage =>
    cases stage with
    | session =>
      obtain rfl := some.inj hturn
      cases ok
      · exact .ended rfl rfl
      · exact .wait (by simp) rfl
    | member answer =>
      rcases answer with _ | answer
      · cases hturn
      · obtain rfl := some.inj hturn
        cases answer
        · exact .pass (by simp)
        · exact .enterCrew crewId
  | leaveCrew crewId =>
    obtain rfl := some.inj hturn
    cases ok
    · exact .ended rfl trivial
    · exact .quitCrew crewId
  | share crewId position stage =>
    cases stage with
    | session =>
      obtain rfl := some.inj hturn
      cases ok
      · exact .ended rfl rfl
      · exact .wait (by simp) rfl
    | member answer =>
      rcases answer with _ | answer
      · cases hturn
      · obtain rfl := some.inj hturn
        cases answer
        · exact .pass (by simp)
        · exact .register crewId position
    | register admitted =>
      obtain rfl := some.inj hturn
      cases admitted
      · exact .pass (by simp)
      · exact .startSharing crewId position
  | update crewId userId stage =>
    cases stage with
    | limit =>
      obtain rfl := some.inj hturn
      cases ok
      · exact .pass (by simp)
      · exact .countUpdate crewId userId rfl
    | member answer =>
      rcases answer with _ | answer
      · cases hturn
      · obtain rfl := some.inj hturn
        cases answer
        · exact .revoke crewId userId
        · exact .publish crewId userId
  | sync crewId =>
    obtain rfl := some.inj hturn
    cases ok
    · exact .ended rfl trivial
    · exact .pass (by simp)

end FestivalPlanner.Realtime
