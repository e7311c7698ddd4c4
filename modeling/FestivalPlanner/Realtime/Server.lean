import FestivalPlanner.Lib.InFlight
import FestivalPlanner.Lib.Keyed
import FestivalPlanner.Lib.Machine
import FestivalPlanner.Realtime.Socket

/-!
# The server and its sockets

The sockets of one server, the handlers that are at an await, the requests that take a crew away
from its members, and what the server and Redis hold: who is online, the snapshot of positions, and
the registrations of sharing sockets.

* `SharingSockets` — the sorted set of a user's sharing sockets, with one entry for a socket;
* `State.emit`, `State.take` — the effects of a turn, and a turn of a socket;
* `Request`, `Removal` — leaving, removal, deletion of the crew and archiving of its festival;
* `step` — one turn of a handler, a read, or one turn of a request;
* `step_event`, `step_resume`, … — what each action does.

A socket that has not connected yet is one that has done nothing.
-/

namespace FestivalPlanner.Realtime

open List Option

/-! ## What Redis holds -/

/-- The sorted set `loc:sharing:${userId}`: sockets with the time of their expiry. -/
structure SharingSockets where
  entries : List (String × ℤ)
  unique : Keyed.UniqueKeys Prod.fst entries

/-- `MAX_CONCURRENT_SHARING_SOCKETS` -/
def MAX_CONCURRENT_SHARING_SOCKETS : ℕ := 3

/-- `SHARING_SOCKET_TTL_MS` -/
def SHARING_SOCKET_TTL_MS : ℤ := 5 * 60 * 1000

namespace SharingSockets

def empty : SharingSockets := ⟨[], nodup_nil⟩

/-- The pipeline of `registerSharingSocket`: `zremrangebyscore`, then `zadd`. -/
def register (socketId : String) (now : ℤ) (m : SharingSockets) : SharingSockets where
  entries :=
    Keyed.upsert Prod.fst (socketId, now + SHARING_SOCKET_TTL_MS)
      (m.entries.filter fun entry => now < entry.2)
  unique := (m.unique.filter _).upsert _

/-- `registerSharingSocket` says whether the socket may share. -/
def allows (socketId : String) (now : ℤ) (m : SharingSockets) : Bool :=
  (m.register socketId now).entries.length ≤ MAX_CONCURRENT_SHARING_SOCKETS

/-- The `zrem` of `unregisterSharingSocket`. -/
def unregister (socketId : String) (m : SharingSockets) : SharingSockets where
  entries := Keyed.erase Prod.fst socketId m.entries
  unique := m.unique.erase socketId

end SharingSockets

/-! ## The state -/

/-- The sockets, and the user whose session each of them presents. -/
structure Clients where
  ids : List String
  nodup : ids.Nodup
  owner : String → String

/-- One socket of one user. -/
def Clients.single (id userId : String) : Clients :=
  { ids := [id]
    nodup := nodup_singleton id
    owner := fun i => if i = id then userId else "" }

/-- A `location:peer-update` or `location:peer-stopped` to the room of a crew. -/
structure Broadcast where
  stopped : Bool
  crewId : String
  userId : String
  socketId : String
  /-- The crew had been taken away from the user of the socket. -/
  revoked : Bool

inductive Removal where
  /-- The user leaves, or is removed by the owner or an administrator. -/
  | member (userId : String)
  | crew
  /-- The festival is archived; the crew and its members stay in the database. -/
  | archive

inductive RequestStage where
  /-- The write to the database. -/
  | remove
  | fetch
  /-- With the sockets that `fetchSockets` found in the room. -/
  | evict (socketIds : List String)

structure Request where
  removal : Removal
  crewId : String
  stage : RequestStage

structure State where
  sockets : String → Socket
  handlers : List (String × Handler)
  /-- By crew and user. -/
  members : String → String → Bool
  requests : List Request
  /-- By festival and socket. -/
  onlineUsers : String → String → Bool
  /-- The newest first. -/
  broadcasts : List Broadcast
  /-- The snapshot cache, by crew and user. -/
  positions : String → String → Bool
  sharing : String → SharingSockets
  /-- For each share that was refused, the other sockets of the user that were sharing. -/
  refusals : List (List String)
  /-- By crew and user: the crew has been taken away, and the user is no member again. -/
  revoked : String → String → Bool

/-- Nothing has happened yet. -/
def start (members : String → String → Bool) : State :=
  { sockets := fun _ => .fresh
    handlers := []
    members := members
    requests := []
    onlineUsers := fun _ _ => false
    broadcasts := []
    positions := fun _ _ => false
    sharing := fun _ => .empty
    refusals := []
    revoked := fun _ _ => false }

/-- A table with one entry changed. -/
def put (m : String → String → Bool) (a b : String) (v : Bool) : String → String → Bool :=
  fun x y => if x = a ∧ y = b then v else m x y

theorem put_apply (m : String → String → Bool) (a b : String) (v : Bool) (x y : String) :
    put m a b v x y = if x = a ∧ y = b then v else m x y := rfl

/-- A table with one row changed. -/
def putRow (m : String → String → Bool) (a : String) (v : Bool) : String → String → Bool :=
  fun x y => if x = a then v else m x y

theorem putRow_apply (m : String → String → Bool) (a : String) (v : Bool) (x y : String) :
    putRow m a v x y = if x = a then v else m x y := rfl

/-- The socket is connected and shares to the crew. -/
@[grind =] def State.Shares (s : State) (crewId id : String) : Prop :=
  (s.sockets id).connected = true ∧ (s.sockets id).sharingCrewId = some crewId

/-- The socket is connected and in the room of the crew. -/
def State.InRoom (s : State) (crewId id : String) : Prop :=
  (s.sockets id).connected = true ∧ .crew crewId ∈ (s.sockets id).rooms

instance (s : State) (crewId id : String) : Decidable (s.Shares crewId id) :=
  inferInstanceAs (Decidable (_ ∧ _))

instance (s : State) (crewId id : String) : Decidable (s.InRoom crewId id) :=
  inferInstanceAs (Decidable (_ ∧ _))

variable (clients : Clients)

/-- The sockets of the user that share to some crew. -/
def State.sharers (s : State) (userId : String) : List String :=
  clients.ids.filter fun id =>
    clients.owner id = userId ∧ (s.sockets id).connected ∧ (s.sockets id).sharingCrewId.isSome

/-! ## Turns -/

@[grind =] def State.broadcast (id : String) (s : State) (stopped : Bool) (crewId userId : String) : State :=
  { s with
    broadcasts :=
      { stopped := stopped
        crewId := crewId
        userId := userId
        socketId := id
        revoked := s.revoked crewId (clients.owner id) } :: s.broadcasts }

@[grind =] def State.emit (id : String) (s : State) : Effect → State
  | .setOnline festivalId => { s with onlineUsers := put s.onlineUsers festivalId id true }
  | .setOffline festivalId => { s with onlineUsers := put s.onlineUsers festivalId id false }
  | .peerUpdate crewId userId => s.broadcast clients id false crewId userId
  | .peerStopped crewId userId => s.broadcast clients id true crewId userId
  | .writeLivePosition crewId userId => { s with positions := put s.positions crewId userId true }
  | .dropLivePosition crewId userId => { s with positions := put s.positions crewId userId false }
  | .registerSharingSocket userId now =>
      { s with
        sharing :=
          Function.update s.sharing userId ((s.sharing userId).register id now)
        refusals :=
          if (s.sharing userId).allows id now then s.refusals
          else (s.sharers clients userId).erase id :: s.refusals }
  | .unregisterSharingSocket userId =>
      { s with sharing := Function.update s.sharing userId ((s.sharing userId).unregister id) }

/-- A turn of a socket: what it makes of the socket, and its effects. -/
@[grind =] def State.take (id : String) (turn : Turn) (s : State) : State :=
  turn.effects.foldl (State.emit clients id)
    { s with sockets := Function.update s.sockets id turn.socket }

/-- The turns of an eviction: one for each socket that was found in the room. -/
def State.evict (turn : Socket → Turn) (ids : List String) (s : State) : State :=
  ids.foldl (fun m id => m.take clients id (turn (m.sockets id))) s

/-! ## Actions -/

/-- `getMember` answers. -/
def Handler.read (members : String → String → Bool) (user : String) : Handler → Option Handler
  | .joinCrew crewId (.member none) => some (.joinCrew crewId (.member (some (members crewId user))))
  | .share crewId position (.member none) =>
      some (.share crewId position (.member (some (members crewId user))))
  | .update crewId userId (.member none) =>
      some (.update crewId userId (.member (some (members crewId userId))))
  | _ => none

/-- The reads of the membership. -/
inductive Reads (members : String → String → Bool) (user : String) : Handler → Handler → Prop where
  | joinCrew (crewId : String) :
      Reads members user (.joinCrew crewId (.member none))
        (.joinCrew crewId (.member (some (members crewId user))))
  | share (crewId : String) (position : Bool) :
      Reads members user (.share crewId position (.member none))
        (.share crewId position (.member (some (members crewId user))))
  | update (crewId userId : String) :
      Reads members user (.update crewId userId (.member none))
        (.update crewId userId (.member (some (members crewId userId))))

theorem read_cases {members : String → String → Bool} {user : String} {h h' : Handler}
    (hread : h.read members user = some h') : Reads members user h h' := by
  unfold Handler.read at hread
  split at hread
  · obtain rfl := some.inj hread
    exact .joinCrew _
  · obtain rfl := some.inj hread
    exact .share _ _
  · obtain rfl := some.inj hread
    exact .update _ _
  · cases hread

/-- The registration catches its errors; every other await can throw. -/
def Handler.canFail : Handler → Bool
  | .share _ _ (.register _) => false
  | _ => true

/-- The first turn of a request; a close evicts before it writes. -/
def Removal.open (crewId : String) (removal : Removal) : Request :=
  { removal := removal
    crewId := crewId
    stage :=
      match removal with
      | .member _ => .remove
      | .crew | .archive => .fetch }

/-- The sockets that `fetchSockets` finds in the room of the crew. -/
def State.fetchSockets (s : State) (crewId : String) : List String :=
  clients.ids.filter fun id => s.InRoom crewId id

/-- One turn of the request at place `j`. -/
def State.advance (s : State) (j : ℕ) (r : Request) : State :=
  match r.removal, r.stage with
  | .member userId, .remove =>
      { s with
        members := put s.members r.crewId userId false
        requests := s.requests.set j { r with stage := .fetch } }
  | _, .fetch =>
      { s with
        requests := s.requests.set j { r with stage := .evict (s.fetchSockets clients r.crewId) } }
  | .member userId, .evict ids =>
      { s.evict clients (revokeAccess r.crewId userId) ids with
        revoked := put s.revoked r.crewId userId (!s.members r.crewId userId)
        requests := s.requests.eraseIdx j }
  | _, .evict ids =>
      { s.evict clients (closeRoom r.crewId) ids with
        requests := s.requests.set j { r with stage := .remove } }
  | .crew, .remove =>
      { s with
        members := putRow s.members r.crewId false
        revoked := putRow s.revoked r.crewId true
        requests := s.requests.eraseIdx j }
  | .archive, .remove =>
      { s with
        revoked := putRow s.revoked r.crewId true
        requests := s.requests.eraseIdx j }

inductive Action where
  /-- The event arrives. -/
  | event (id : String) (event : Event)
  /-- The database answers the handler at the place. -/
  | read (i : ℕ)
  /-- The handler at the place goes on. -/
  | resume (i : ℕ) (ok : Bool) (now : ℤ)
  /-- What the handler at the place awaits throws. -/
  | fail (i : ℕ)
  | disconnect (id : String)
  /-- The session of the socket is ended by a request. -/
  | endSession (id : String)
  | request (crewId : String) (removal : Removal)
  | advance (j : ℕ)
  /-- `fetchSockets` fails, and the request goes on. -/
  | fetchFails (j : ℕ)
  /-- The snapshot of the crew expires. -/
  | expire (crewId : String)
  | addMember (crewId userId : String)

@[grind =] def step (s : State) : Action → Option State
  | .event id event =>
      if id ∈ clients.ids ∧ (s.sockets id).connected then
        let turn := (s.sockets id).onEvent event
        some
          { s.take clients id turn with
            handlers := s.handlers ++ (turn.next.map fun h => (id, h)).toList }
      else none
  | .read i =>
      match s.handlers[i]? with
      | some (id, h) =>
          (h.read s.members (clients.owner id)).map fun h =>
            { s with handlers := s.handlers.set i (id, h) }
      | none => none
  | .resume i ok now =>
      match s.handlers[i]? with
      | some (id, h) =>
          (h.resume (clients.owner id) ok ((s.sharing (clients.owner id)).allows id now) now
            (s.sockets id)).map fun turn =>
              { s.take clients id turn with
                handlers := InFlight.proceed s.handlers i (turn.next.map fun h => (id, h)) }
      | none => none
  | .fail i =>
      match s.handlers[i]? with
      | some (_, h) => if h.canFail then some { s with handlers := s.handlers.eraseIdx i } else none
      | none => none
  | .disconnect id =>
      if id ∈ clients.ids ∧ (s.sockets id).connected then
        some (s.take clients id (onDisconnect (s.sockets id)))
      else none
  | .endSession id =>
      if id ∈ clients.ids ∧ (s.sockets id).connected then
        some (s.take clients id (disconnectSocket (s.sockets id)))
      else none
  | .request crewId removal => some { s with requests := s.requests ++ [removal.open crewId] }
  | .advance j =>
      match s.requests[j]? with
      | some r => some (s.advance clients j r)
      | none => none
  | .fetchFails j =>
      match s.requests[j]? with
      | some ⟨removal, crewId, .fetch⟩ =>
          some { s with requests := s.requests.set j ⟨removal, crewId, .evict []⟩ }
      | _ => none
  | .expire crewId => some { s with positions := putRow s.positions crewId false }
  | .addMember crewId userId =>
      some
        { s with
          members := put s.members crewId userId true
          revoked := put s.revoked crewId userId false }

/-! ## What a turn leaves as it is -/

section
variable {clients} {s : State} {id : String} {turn : Turn}

/-- What holds when the socket has changed, and what every effect of the turn keeps. -/
theorem take_induct {P : State → Prop}
    (hsocket : P { s with sockets := Function.update s.sockets id turn.socket })
    (hemit : ∀ m, ∀ e ∈ turn.effects, P m → P (m.emit clients id e)) :
    P (s.take clients id turn) :=
  List.foldlRecOn _ _ hsocket fun m hm e he => hemit m e he hm

/-- What no effect changes is as it was before the turn. -/
theorem take_eq {β : Type*} (f : State → β) (hf : ∀ m e, f (m.emit clients id e) = f m) :
    f (s.take clients id turn) = f { s with sockets := Function.update s.sockets id turn.socket } :=
  take_induct (P := fun m => f m = _) rfl fun m e _ hm => (hf m e).trans hm

/-- An entry that one effect sets and another one clears: without the first, it is set after the turn
when it was before and is not cleared. -/
theorem take_entry (f : State → Bool) {on off : Effect}
    (hoff : ∀ m : State, f (m.emit clients id off) = false)
    (hother : ∀ (m : State) (e), e ≠ on → e ≠ off → f (m.emit clients id e) = f m)
    (hon : on ∉ turn.effects) :
    f (s.take clients id turn) = true ↔
      f { s with sockets := Function.update s.sockets id turn.socket } = true ∧
        off ∉ turn.effects := by
  rw [State.take]
  generalize { s with sockets := Function.update s.sockets id turn.socket } = m
  generalize turn.effects = effects at hon ⊢
  induction effects generalizing m with
  | nil => simp
  | cons e effects ih =>
    rw [foldl_cons]
    refine (ih _ fun h => hon (mem_cons_of_mem _ h)).trans ?_
    by_cases he : e = off
    · subst he
      simp [hoff]
    · have hne : e ≠ on := fun h => hon (h ▸ mem_cons_self)
      simp [hother m e hne he, Ne.symm he]

@[simp] theorem take_sockets :
    (s.take clients id turn).sockets = Function.update s.sockets id turn.socket :=
  take_eq State.sockets fun m e => by cases e <;> rfl

@[simp] theorem take_handlers : (s.take clients id turn).handlers = s.handlers :=
  take_eq State.handlers fun m e => by cases e <;> rfl

theorem mem_take_handlers {p : String × Handler} :
    p ∈ (s.take clients id turn).handlers ↔ p ∈ s.handlers := by
  rw [take_handlers]

@[simp] theorem take_revoked : (s.take clients id turn).revoked = s.revoked :=
  take_eq State.revoked fun m e => by cases e <;> rfl

/-- What every turn of an eviction keeps. -/
theorem evict_induct {P : State → Prop} {f : Socket → Turn} {ids : List String} (hs : P s)
    (htake : ∀ m, ∀ id ∈ ids, P m → P (m.take clients id (f (m.sockets id)))) :
    P (s.evict clients f ids) :=
  List.foldlRecOn _ _ hs fun m hm id hid => htake m id hid hm

variable {f : Socket → Turn} {ids : List String}

@[simp] theorem evict_handlers : (s.evict clients f ids).handlers = s.handlers :=
  evict_induct (P := fun m => m.handlers = _) rfl fun _ _ _ hm => take_handlers.trans hm

@[simp] theorem evict_revoked : (s.evict clients f ids).revoked = s.revoked :=
  evict_induct (P := fun m => m.revoked = _) rfl fun _ _ _ hm => take_revoked.trans hm

end

/-! ## What each action does -/

section
variable {clients} {s t : State}

theorem step_event {id : String} {event : Event} (h : step clients s (.event id event) = some t) :
    id ∈ clients.ids ∧ (s.sockets id).connected = true ∧
      t =
        { s.take clients id ((s.sockets id).onEvent event) with
          handlers :=
            s.handlers ++ (((s.sockets id).onEvent event).next.map fun h => (id, h)).toList } := by
  simp only [step] at h
  split at h
  · rename_i hid
    exact ⟨hid.1, hid.2, (some.inj h).symm⟩
  · cases h

theorem step_read {i : ℕ} (h : step clients s (.read i) = some t) :
    ∃ id h h', s.handlers[i]? = some (id, h) ∧ h.read s.members (clients.owner id) = some h' ∧
      t = { s with handlers := s.handlers.set i (id, h') } := by
  simp only [step] at h
  split at h
  · rename_i id g hg
    obtain ⟨g', hg', rfl⟩ := map_eq_some_iff.mp h
    exact ⟨id, g, g', hg, hg', rfl⟩
  · cases h

theorem step_resume {i : ℕ} {ok : Bool} {now : ℤ} (h : step clients s (.resume i ok now) = some t) :
    ∃ id h turn, s.handlers[i]? = some (id, h) ∧
      h.resume (clients.owner id) ok ((s.sharing (clients.owner id)).allows id now) now
        (s.sockets id) = some turn ∧
      t =
        { s.take clients id turn with
          handlers := InFlight.proceed s.handlers i (turn.next.map fun h => (id, h)) } := by
  simp only [step] at h
  split at h
  · rename_i id g hg
    obtain ⟨turn, hturn, rfl⟩ := map_eq_some_iff.mp h
    exact ⟨id, g, turn, hg, hturn, rfl⟩
  · cases h

theorem step_fail {i : ℕ} (h : step clients s (.fail i) = some t) :
    ∃ id h, s.handlers[i]? = some (id, h) ∧ h.canFail = true ∧
      t = { s with handlers := s.handlers.eraseIdx i } := by
  simp only [step] at h
  split at h
  · rename_i id g hg
    split at h
    · rename_i hcan
      exact ⟨id, g, hg, hcan, (some.inj h).symm⟩
    · cases h
  · cases h

theorem step_disconnect {id : String} (h : step clients s (.disconnect id) = some t) :
    id ∈ clients.ids ∧ (s.sockets id).connected = true ∧
      t = s.take clients id (onDisconnect (s.sockets id)) := by
  simp only [step] at h
  split at h
  · rename_i hid
    exact ⟨hid.1, hid.2, (some.inj h).symm⟩
  · cases h

theorem step_endSession {id : String} (h : step clients s (.endSession id) = some t) :
    id ∈ clients.ids ∧ (s.sockets id).connected = true ∧
      t = s.take clients id (disconnectSocket (s.sockets id)) := by
  simp only [step] at h
  split at h
  · rename_i hid
    exact ⟨hid.1, hid.2, (some.inj h).symm⟩
  · cases h

theorem step_advance {j : ℕ} (h : step clients s (.advance j) = some t) :
    ∃ r, s.requests[j]? = some r ∧ t = s.advance clients j r := by
  simp only [step] at h
  split at h
  · rename_i r hr
    exact ⟨r, hr, (some.inj h).symm⟩
  · cases h

theorem step_fetchFails {j : ℕ} (h : step clients s (.fetchFails j) = some t) :
    ∃ removal crewId, s.requests[j]? = some ⟨removal, crewId, .fetch⟩ ∧
      t = { s with requests := s.requests.set j ⟨removal, crewId, .evict []⟩ } := by
  simp only [step] at h
  split at h
  · rename_i removal crewId hr
    exact ⟨removal, crewId, hr, (some.inj h).symm⟩
  · cases h

end

/-! ## Evictions -/

section
variable {clients : Clients} {s : State}

/-- An eviction that does no more when it comes twice: the sockets that were found have had it. -/
theorem evict_sockets {f : Socket → Turn} (hf : ∀ k, (f (f k).socket).socket = (f k).socket)
    (ids : List String) (id : String) :
    (s.evict clients f ids).sockets id =
      if id ∈ ids then (f (s.sockets id)).socket else s.sockets id := by
  rw [State.evict]
  induction ids generalizing s with
  | nil => rfl
  | cons a ids ih =>
    rw [foldl_cons, ih, take_sockets]
    by_cases ha : id = a
    · subst ha
      simp [hf]
    · simp [ha]

theorem closeRoom_closeRoom (crewId : String) (k : Socket) :
    (closeRoom crewId (closeRoom crewId k).socket).socket = (closeRoom crewId k).socket := by
  by_cases h : k.sharingCrewId = some crewId <;>
    simp [closeRoom, Socket.leave, Socket.resetMembershipCache, h]

theorem revokeAccess_revokeAccess (crewId userId : String) (k : Socket) :
    (revokeAccess crewId userId (revokeAccess crewId userId k).socket).socket =
      (revokeAccess crewId userId k).socket := by
  by_cases h : k.userId = some userId <;>
    simp [revokeAccess, Socket.leave, Socket.resetMembershipCache, Socket.pass, h]

end

/-! ## Sessions -/

/-- What the sockets and their handlers know of the user is who the user is. -/
structure Owned (s : State) : Prop where
  socket : ∀ id userId, (s.sockets id).userId = some userId → userId = clients.owner id
  handler : ∀ id crewId userId stage,
    (id, Handler.update crewId userId stage) ∈ s.handlers → userId = clients.owner id

/-- The same for a turn of a socket of the user. -/
structure Turn.Owned (user : String) (turn : Turn) : Prop where
  socket : ∀ userId, turn.socket.userId = some userId → userId = user
  next : ∀ crewId userId stage, turn.next = some (.update crewId userId stage) → userId = user

section
variable {clients : Clients} {s t : State} {k : Socket} {user : String}

theorem onEvent_owned (hk : ∀ userId, k.userId = some userId → userId = user) (event : Event) :
    (k.onEvent event).Owned user := by
  rcases onEvent_cases k event with rfl | ⟨crewId, rfl⟩ | ⟨next, heq, hstarts⟩
  · refine ⟨fun userId h => hk userId (leaveFestivalRealtime_userId.symm.trans h), ?_⟩
    intro crewId userId stage h
    cases leaveFestivalRealtime_next.symm.trans h
  · simp only [Socket.onEvent, stopSharing]
    split
    · exact ⟨hk, by simp⟩
    · exact ⟨hk, by simp [Socket.pass]⟩
  · rw [heq]
    exact ⟨hk, fun crewId userId stage h => hk userId (hstarts _ h).2.1⟩

theorem disconnectSocket_owned : (disconnectSocket k).Owned user :=
  ⟨by simp [disconnectSocket_userId], by simp [disconnectSocket_next]⟩

theorem resume_owned (hk : ∀ userId, k.userId = some userId → userId = user) {h : Handler}
    (hh : ∀ crewId userId stage, h = .update crewId userId stage → userId = user)
    {ok allowed : Bool} {now : ℤ} {turn : Turn}
    (hturn : h.resume user ok allowed now k = some turn) : turn.Owned user := by
  cases resume_cases hturn with
  | pass => exact ⟨hk, by simp [Socket.pass]⟩
  | ended => exact disconnectSocket_owned
  | wait _ hnext =>
    refine ⟨hk, fun crewId userId stage h => ?_⟩
    obtain rfl := some.inj h
    cases hnext
  | enterFestival => exact ⟨by simp [enterFestival], by simp [enterFestival]⟩
  | setPresence => exact ⟨hk, by simp [setPresence]⟩
  | enterCrew c =>
    obtain ⟨rooms, -, heq⟩ := enterCrew_socket (k := k) c
    exact ⟨by rw [heq]; exact hk, by simp [enterCrew]⟩
  | quitCrew =>
    simp only [quitCrew]
    split
    · exact ⟨hk, by simp⟩
    · exact ⟨hk, by simp [Socket.pass]⟩
  | register => exact ⟨hk, by simp [register]⟩
  | startSharing => exact ⟨by simp [startSharing], by simp [startSharing]⟩
  | countUpdate crewId userId =>
    simp only [countUpdate]
    split
    · refine ⟨hk, fun c u stage h => ?_⟩
      cases h
      exact hh crewId userId _ rfl
    · exact ⟨hk, by simp [publish]⟩
  | publish => exact ⟨hk, by simp [publish]⟩
  | revoke => exact ⟨hk, by simp [revoke]⟩

/-- The turn's socket and next handler, beside handlers that are the old ones or that one. -/
theorem Owned.take (hs : Owned clients s) {id : String} {turn : Turn}
    (hturn : turn.Owned (clients.owner id)) {handlers : List (String × Handler)}
    (hhandlers : ∀ p ∈ handlers, p ∈ s.handlers ∨ turn.next.map (fun h => (id, h)) = some p) :
    Owned clients { s.take clients id turn with handlers := handlers } := by
  constructor
  · intro id' userId h
    simp only [take_sockets] at h
    by_cases hid : id' = id
    · subst hid
      rw [Function.update_self] at h
      exact hturn.socket userId h
    · rw [Function.update_of_ne hid] at h
      exact hs.socket id' userId h
  · intro id' crewId userId stage h
    rcases hhandlers _ h with h | h
    · exact hs.handler id' crewId userId stage h
    · obtain ⟨g, hg, heq⟩ := map_eq_some_iff.mp h
      cases heq
      exact hturn.next crewId userId stage hg

theorem Owned.of_eq (hs : Owned clients s) (hsockets : t.sockets = s.sockets)
    (hhandlers : ∀ id crewId userId stage, (id, Handler.update crewId userId stage) ∈ t.handlers →
      ∃ stage', (id, Handler.update crewId userId stage') ∈ s.handlers) : Owned clients t := by
  constructor
  · rw [hsockets]
    exact hs.socket
  · intro id crewId userId stage h
    obtain ⟨stage', h'⟩ := hhandlers id crewId userId stage h
    exact hs.handler id crewId userId stage' h'

theorem Owned.evict (hs : Owned clients s) {f : Socket → Turn}
    (hf : ∀ k, (f k).socket.userId = k.userId ∧ (f k).next = none) (ids : List String) :
    Owned clients (s.evict clients f ids) := by
  refine evict_induct hs fun m id _ hm => ?_
  obtain ⟨hsame, hend⟩ := hf (m.sockets id)
  exact hm.take ⟨by simpa only [hsame] using hm.socket id, by simp [hend]⟩ fun p hp =>
    .inl (mem_take_handlers.mp hp)

theorem closeRoom_userId (crewId : String) (k : Socket) :
    (closeRoom crewId k).socket.userId = k.userId ∧ (closeRoom crewId k).next = none :=
  ⟨rfl, rfl⟩

theorem revokeAccess_userId (crewId userId : String) (k : Socket) :
    (revokeAccess crewId userId k).socket.userId = k.userId ∧
      (revokeAccess crewId userId k).next = none := by
  rw [revokeAccess]
  split <;> exact ⟨rfl, rfl⟩

theorem advance_owned (hs : Owned clients s) (j : ℕ) (r : Request) :
    Owned clients (s.advance clients j r) := by
  obtain ⟨removal, crewId, stage⟩ := r
  cases stage with
  | remove => cases removal <;> exact hs.of_eq rfl fun _ _ _ stage h => ⟨stage, h⟩
  | fetch => cases removal <;> exact hs.of_eq rfl fun _ _ _ stage h => ⟨stage, h⟩
  | evict ids =>
    have hclose := hs.evict (closeRoom_userId crewId) ids
    cases removal with
    | member userId =>
      have hrevoke := hs.evict (revokeAccess_userId crewId userId) ids
      exact hrevoke.of_eq rfl fun _ _ _ stage h => ⟨stage, h⟩
    | crew => exact hclose.of_eq rfl fun _ _ _ stage h => ⟨stage, h⟩
    | archive => exact hclose.of_eq rfl fun _ _ _ stage h => ⟨stage, h⟩

theorem start_owned (members : String → String → Bool) : Owned clients (start members) where
  socket id userId h := by cases h
  handler id crewId userId stage h := by cases h

theorem step_owned (hs : Owned clients s) (a : Action) (h : step clients s a = some t) :
    Owned clients t := by
  cases a with
  | event id event =>
    obtain ⟨-, -, rfl⟩ := step_event h
    refine hs.take (onEvent_owned (hs.socket id) event) fun p hp => ?_
    exact (mem_append.mp hp).imp_right fun hp => mem_toList.mp hp
  | read i =>
    obtain ⟨id, g, g', hg, hread, rfl⟩ := step_read h
    refine hs.of_eq rfl fun id' c u stage hmem => ?_
    rcases mem_or_eq_of_mem_set hmem with hmem | heq
    · exact ⟨stage, hmem⟩
    · cases heq
      cases read_cases hread with
      | update => exact ⟨_, mem_of_getElem? hg⟩
  | resume i ok now =>
    obtain ⟨id, g, turn, hg, hturn, rfl⟩ := step_resume h
    have hmem := mem_of_getElem? hg
    refine hs.take (resume_owned (hs.socket id) (fun c u stage heq => ?_) hturn) fun p hp => ?_
    · subst heq
      exact hs.handler id c u stage hmem
    · exact InFlight.mem_proceed_cases hp
  | fail i =>
    obtain ⟨id, g, -, -, rfl⟩ := step_fail h
    exact hs.of_eq rfl fun _ _ _ stage hmem => ⟨stage, mem_of_mem_eraseIdx hmem⟩
  | disconnect id =>
    obtain ⟨-, -, rfl⟩ := step_disconnect h
    exact hs.take ⟨by simp [onDisconnect, clearSocketSession], by simp [onDisconnect]⟩
      fun p hp => .inl (mem_take_handlers.mp hp)
  | endSession id =>
    obtain ⟨-, -, rfl⟩ := step_endSession h
    exact hs.take disconnectSocket_owned fun p hp => .inl (mem_take_handlers.mp hp)
  | request crewId removal =>
    obtain rfl := some.inj h
    exact hs.of_eq rfl fun _ _ _ stage hmem => ⟨stage, hmem⟩
  | advance j =>
    obtain ⟨r, -, rfl⟩ := step_advance h
    exact advance_owned hs j r
  | fetchFails j =>
    obtain ⟨removal, crewId, -, rfl⟩ := step_fetchFails h
    exact hs.of_eq rfl fun _ _ _ stage hmem => ⟨stage, hmem⟩
  | expire crewId =>
    obtain rfl := some.inj h
    exact hs.of_eq rfl fun _ _ _ stage hmem => ⟨stage, hmem⟩
  | addMember crewId userId =>
    obtain rfl := some.inj h
    exact hs.of_eq rfl fun _ _ _ stage hmem => ⟨stage, hmem⟩

end

end FestivalPlanner.Realtime
