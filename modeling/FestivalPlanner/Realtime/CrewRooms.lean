import FestivalPlanner.Realtime.Server

/-!
# The room of the crew that a socket has joined

The gates of `location:share` and `location:sync` look at `socket.data.crewId`, and the broadcasts
of the crew go to its room.

* `Socket.Agrees` — a socket that is connected is in the room of the crew that it has joined;
* `onEvent_agrees`, `resume_agrees` — what each turn does with that;
* `crewRooms_agree_iff` — the sockets agree throughout a run exactly when `leave:festival` only
  arrives on sockets that have joined no crew: it leaves all rooms, and `crewId` stays.
-/

namespace FestivalPlanner.Realtime

open Function

/-! ## One socket -/

/-- A socket that is connected is in the room of the crew that it has joined. -/
def Socket.Agrees (k : Socket) : Prop :=
  k.connected = true → ∀ crewId, k.crewId = some crewId → .crew crewId ∈ k.rooms

section
variable {k : Socket}

/-- A socket agrees when it joins no crew, leaves no crew's room, and stays in the crew. -/
theorem Socket.Agrees.of_rooms (hk : k.Agrees) {k' : Socket} (hc : k'.connected = k.connected)
    (hcrew : k'.crewId = k.crewId)
    (hrooms : ∀ crewId, .crew crewId ∈ k.rooms → Room.crew crewId ∈ k'.rooms) : k'.Agrees := by
  intro hcon crewId hid
  rw [hc] at hcon
  rw [hcrew] at hid
  exact hrooms crewId (hk hcon crewId hid)

theorem Socket.Agrees.of_disconnected (hc : k.connected = false) : k.Agrees := by
  intro hcon
  rw [hc] at hcon
  cases hcon

/-- Leaving the room of a crew and the crew. -/
theorem Socket.Agrees.quit (hk : k.Agrees) (crewId : String) :
    ((k.leave (.crew crewId)).dropCrew crewId).Agrees := by
  intro hcon d hd
  by_cases hcrew : k.crewId = some crewId
  · simp [Socket.dropCrew, Socket.leave, hcrew] at hd
  · simp only [Socket.dropCrew, Socket.leave, hcrew, if_false] at hd
    refine mem_leave.mpr ⟨hk hcon d hd, ?_⟩
    rintro ⟨⟩
    exact hcrew hd

theorem leaveFestivalRealtime_agrees (hk : k.Agrees) :
    (leaveFestivalRealtime k).socket.Agrees := by
  rw [leaveFestivalRealtime]
  split
  · exact hk
  · exact hk.of_rooms rfl rfl fun crewId h => mem_leave.mpr ⟨h, by simp⟩

theorem disconnectSocket_agrees : (disconnectSocket k).socket.Agrees :=
  .of_disconnected disconnectSocket_connected

theorem enterFestival_agrees (hk : k.Agrees) (user festivalId : String) :
    (enterFestival user festivalId k).socket.Agrees :=
  (leaveFestivalRealtime_agrees hk).of_rooms rfl rfl fun _ h => mem_join.mpr (.inr h)

theorem enterCrew_agrees (crewId : String) : (enterCrew crewId k).socket.Agrees := by
  intro hcon d hd
  obtain rfl := Option.some.inj hd
  exact mem_join.mpr (.inl ⟨hcon, rfl⟩)

/-- `leave:festival` leaves all rooms. -/
theorem leaveFestival_agrees_iff (hcon : k.connected = true) :
    (leaveFestival k).socket.Agrees ↔ k.crewId = none := by
  have hconnected : (leaveFestival k).socket.connected = true :=
    leaveFestivalRealtime_connected.trans hcon
  have hcrew : (leaveFestival k).socket.crewId = k.crewId := by
    simp only [leaveFestival, leaveFestivalRealtime, Socket.leaveAll]
    split <;> rfl
  constructor
  · intro h
    cases hid : k.crewId with
    | none => rfl
    | some crewId => exact absurd (h hconnected crewId (hcrew.trans hid)) List.not_mem_nil
  · intro hnone _ crewId hid
    rw [hcrew, hnone] at hid
    cases hid

theorem stopSharing_agrees (hk : k.Agrees) (crewId : String) :
    (stopSharing crewId k).socket.Agrees := by
  rw [stopSharing]
  split
  · exact hk.of_rooms rfl rfl fun _ h => h
  · exact hk

/-! ## Turns -/

/-- Only `leave:festival` can make a socket disagree. -/
theorem onEvent_agrees (hk : k.Agrees) (hcon : k.connected = true) (event : Event) :
    (k.onEvent event).socket.Agrees ↔ (event = .leaveFestival → k.crewId = none) := by
  rcases onEvent_cases k event with rfl | ⟨crewId, rfl⟩ | ⟨next, heq, -⟩
  · exact (leaveFestival_agrees_iff hcon).trans ⟨fun h _ => h, fun h => h rfl⟩
  · exact iff_of_true (stopSharing_agrees hk crewId) (by simp)
  · rw [heq]
    refine ⟨fun _ => ?_, fun _ => hk⟩
    rintro rfl
    have h := (leaveFestival_agrees_iff hcon).mp
    simp only [Socket.onEvent] at heq
    rw [heq] at h
    exact h hk

theorem resume_agrees (hk : k.Agrees) {user : String} {ok allowed : Bool} {now : ℤ} {h : Handler}
    {turn : Turn} (hturn : h.resume user ok allowed now k = some turn) : turn.socket.Agrees := by
  cases resume_cases hturn with
  | pass => exact hk
  | ended => exact disconnectSocket_agrees
  | wait => exact hk
  | enterFestival festivalId => exact enterFestival_agrees hk user festivalId
  | setPresence => exact hk
  | enterCrew crewId => exact enterCrew_agrees crewId
  | quitCrew crewId =>
    simp only [quitCrew]
    split
    · exact (hk.quit crewId).of_rooms rfl rfl fun _ h => h
    · exact (hk.quit crewId).of_rooms rfl rfl fun _ h => h
  | register => exact hk
  | startSharing => exact hk.of_rooms rfl rfl fun _ h => h
  | countUpdate =>
    simp only [countUpdate]
    split
    · exact hk.of_rooms rfl rfl fun _ h => h
    · exact hk.of_rooms rfl rfl fun _ h => h
  | publish => exact hk
  | revoke crewId userId => exact (hk.quit crewId).of_rooms rfl rfl fun _ h => h

/-- A socket that has not joined the crew is in the room of its crew after an eviction. -/
theorem closeRoom_agrees (hk : k.Agrees) {crewId : String} (hcrew : k.crewId ≠ some crewId) :
    (closeRoom crewId k).socket.Agrees := by
  intro hcon d hd
  refine mem_leave.mpr ⟨hk hcon d hd, ?_⟩
  rintro ⟨⟩
  exact hcrew hd

theorem revokeAccess_agrees (hk : k.Agrees) {crewId : String} (hcrew : k.crewId ≠ some crewId)
    (userId : String) : (revokeAccess crewId userId k).socket.Agrees := by
  rw [revokeAccess]
  split
  · exact (closeRoom_agrees hk hcrew).of_rooms rfl rfl fun _ h => h
  · exact hk

end

/-! ## Runs -/

section
variable {clients : Clients} {s t : State}

/-- Every socket that is connected is in the room of the crew that it has joined. -/
def State.Agrees (s : State) : Prop := ∀ id, (s.sockets id).Agrees

/-- The users stay members of the crews that their sockets have joined. -/
def Stays (s : State) : Action → Prop
  | .advance j =>
      ∀ removal crewId ids, s.requests[j]? = some ⟨removal, crewId, .evict ids⟩ →
        ∀ id ∈ ids, (s.sockets id).crewId ≠ some crewId
  | _ => True

/-- `leave:festival` arrives on a socket that has joined no crew. -/
def LeavesNoCrew (s : State) : Action → Prop
  | .event id .leaveFestival => (s.sockets id).crewId = none
  | _ => True

/-- Where the others agree, the sockets agree after a turn when that of the turn does. -/
theorem take_agrees_iff (hs : s.Agrees) {id : String} {turn : Turn} :
    (s.take clients id turn).Agrees ↔ turn.socket.Agrees := by
  constructor
  · intro h
    simpa using h id
  · intro h id'
    rw [take_sockets]
    by_cases hid : id' = id
    · subst hid
      rwa [update_self]
    · rw [update_of_ne hid]
      exact hs id'

theorem evict_agrees (hs : s.Agrees) {crewId : String} {f : Socket → Turn} {ids : List String}
    (hf : ∀ k : Socket, k.Agrees → k.crewId ≠ some crewId → (f k).socket.Agrees)
    (hcrew : ∀ k, (f k).socket.crewId = k.crewId)
    (hids : ∀ id ∈ ids, (s.sockets id).crewId ≠ some crewId) : (s.evict clients f ids).Agrees := by
  refine (evict_induct
    (P := fun m => m.Agrees ∧ ∀ id, (m.sockets id).crewId = (s.sockets id).crewId)
    ⟨hs, fun _ => rfl⟩ ?_).1
  rintro m id hid ⟨hm, hsame⟩
  refine ⟨(take_agrees_iff hm).mpr (hf _ (hm id) ?_), fun id' => ?_⟩
  · rw [hsame]
    exact hids id hid
  · rw [take_sockets]
    by_cases heq : id' = id
    · subst heq
      rw [update_self, hcrew]
      exact hsame id'
    · rw [update_of_ne heq]
      exact hsame id'

theorem advance_agrees (hs : s.Agrees) {j : ℕ} {r : Request} (hr : s.requests[j]? = some r)
    (hstay : Stays s (.advance j)) : (s.advance clients j r).Agrees := by
  obtain ⟨removal, crewId, stage⟩ := r
  cases stage with
  | remove => cases removal <;> exact hs
  | fetch => cases removal <;> exact hs
  | evict ids =>
    have hids := hstay removal crewId ids hr
    have hclose : (s.evict clients (closeRoom crewId) ids).Agrees :=
      evict_agrees hs (fun k hk hcrew => closeRoom_agrees hk hcrew) (fun _ => rfl) hids
    cases removal with
    | member userId =>
      have hrevoke : (s.evict clients (revokeAccess crewId userId) ids).Agrees := by
        refine evict_agrees hs (fun k hk hcrew => revokeAccess_agrees hk hcrew userId)
          (fun k => ?_) hids
        rw [revokeAccess]
        split <;> rfl
      exact hrevoke
    | crew => exact hclose
    | archive => exact hclose

/-- A step keeps the sockets agreeing exactly when it is no `leave:festival` on a socket that has
joined a crew. -/
theorem step_agrees_iff (a : Action) (hs : s.Agrees) (hstay : Stays s a)
    (h : step clients s a = some t) : t.Agrees ↔ LeavesNoCrew s a := by
  cases a with
  | event id event =>
    obtain ⟨-, hcon, rfl⟩ := step_event h
    refine ((take_agrees_iff hs).trans (onEvent_agrees (hs id) hcon event)).trans ?_
    cases event <;> simp [LeavesNoCrew]
  | read i =>
    obtain ⟨id, g, g', -, -, rfl⟩ := step_read h
    exact iff_of_true hs trivial
  | resume i ok now =>
    obtain ⟨id, g, turn, -, hturn, rfl⟩ := step_resume h
    exact iff_of_true ((take_agrees_iff hs).mpr (resume_agrees (hs id) hturn)) trivial
  | fail i =>
    obtain ⟨id, g, -, -, rfl⟩ := step_fail h
    exact iff_of_true hs trivial
  | disconnect id =>
    obtain ⟨-, -, rfl⟩ := step_disconnect h
    exact iff_of_true ((take_agrees_iff hs).mpr (.of_disconnected rfl)) trivial
  | endSession id =>
    obtain ⟨-, -, rfl⟩ := step_endSession h
    exact iff_of_true ((take_agrees_iff hs).mpr disconnectSocket_agrees) trivial
  | request crewId removal =>
    obtain rfl := Option.some.inj h
    exact iff_of_true hs trivial
  | advance j =>
    obtain ⟨r, hr, rfl⟩ := step_advance h
    exact iff_of_true (advance_agrees hs hr hstay) trivial
  | fetchFails j =>
    obtain ⟨removal, crewId, -, rfl⟩ := step_fetchFails h
    exact iff_of_true hs trivial
  | expire crewId =>
    obtain rfl := Option.some.inj h
    exact iff_of_true hs trivial
  | addMember crewId userId =>
    obtain rfl := Option.some.inj h
    exact iff_of_true hs trivial

theorem start_agrees (members : String → String → Bool) : (start members).Agrees := by
  intro id hcon crewId hcrew
  cases hcrew

/-- While users stay members of their crews, the sockets are in the rooms of the crews that they
have joined throughout a run exactly when no `leave:festival` arrives on one that has joined a
crew. -/
theorem crewRooms_agree_iff {members : String → String → Bool} {as : List Action}
    (hstay : Machine.Meets (step clients) Stays (start members) as)
    (hrun : Machine.run (step clients) (start members) as = some t) :
    Machine.Always (step clients) State.Agrees (start members) as ↔
      Machine.Meets (step clients) LeavesNoCrew (start members) as :=
  Machine.always_iff_meets_of_meets (fun _ a _ hs hD h => step_agrees_iff a hs hD h)
    (start_agrees members) hstay hrun

end

/-! ## A socket that leaves the festival -/

/-- The socket joins the festival and a crew of its user. -/
def joiningRun : List Action :=
  [.event "socket" (.joinFestival "festival"),
    .resume 0 true 0,
    .resume 0 true 0,
    .resume 0 true 0,
    .event "socket" (.joinCrew "crew"),
    .resume 0 true 0,
    .read 0,
    .resume 0 true 0]

/-- It leaves the crew before it leaves the festival. -/
def orderlyRun : List Action :=
  joiningRun ++
    [.event "socket" (.leaveCrew "crew"), .resume 0 true 0, .event "socket" .leaveFestival]

theorem orderlyRun_agrees :
    Machine.Always (step (Clients.single "socket" "user")) State.Agrees (start fun _ _ => true)
      orderlyRun := by
  refine (crewRooms_agree_iff (t := ?_) ?_ ?_).mpr ?_
  rotate_left
  · exact ⟨trivial, trivial, trivial, trivial, trivial, trivial, trivial, trivial, trivial, trivial,
      trivial, trivial⟩
  · rfl
  · exact ⟨trivial, trivial, trivial, trivial, trivial, trivial, trivial, trivial, trivial, trivial,
      rfl, trivial⟩

/-- It leaves the festival only: it is still joined to the crew, and not in its room. -/
theorem leaveFestival_leaves_crewRoom :
    Machine.Meets (step (Clients.single "socket" "user")) Stays (start fun _ _ => true)
        (joiningRun ++ [.event "socket" .leaveFestival]) ∧
      ∃ t, Machine.run (step (Clients.single "socket" "user")) (start fun _ _ => true)
          (joiningRun ++ [.event "socket" .leaveFestival]) = some t ∧
        (t.sockets "socket").crewId = some "crew" ∧ ¬ t.Agrees := by
  refine ⟨⟨trivial, trivial, trivial, trivial, trivial, trivial, trivial, trivial, trivial,
    trivial⟩, _, rfl, rfl, fun h => ?_⟩
  have hroom : Room.crew "crew" ∈ [] := h "socket" rfl "crew" rfl
  cases hroom

end FestivalPlanner.Realtime
