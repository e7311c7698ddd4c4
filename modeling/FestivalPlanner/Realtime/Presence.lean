import FestivalPlanner.Realtime.Server

/-!
# Who is online

A socket is listed under the festival that it has joined: `join:festival` lists it after an await,
and leaving takes it off the list of the festival that its data names.

* `Tracks` — a turn that lists nobody leaves the socket where it is listed, or takes it off the list
  of its festival, to be listed again by a handler that is under way;
* `Sound` — a socket is listed only where it is, and is listed there or about to be;
* `presence_matches` — with no handler under way, the lists are those of the sockets, in every run
  in which the socket is still at the festival when a handler lists it.
-/

namespace FestivalPlanner.Realtime

open List InFlight Function

/-! ## Turns -/

section
variable {clients : Clients} {s : State} {id : String} {turn : Turn}

/-- A turn concerns the entries of its socket. -/
theorem take_onlineUsers_of_ne {id' : String} (hne : id' ≠ id) (festivalId : String) :
    (s.take clients id turn).onlineUsers festivalId id' = s.onlineUsers festivalId id' := by
  refine take_induct (P := fun m => m.onlineUsers festivalId id' = _) rfl fun m e _ hm => ?_
  cases e <;> simpa [State.emit, State.broadcast, put_apply, hne] using hm

/-- A turn that lists nobody takes off the lists what it says. -/
theorem take_onlineUsers (hon : ∀ g, .setOnline g ∉ turn.effects) (festivalId : String) :
    (s.take clients id turn).onlineUsers festivalId id = true ↔
      s.onlineUsers festivalId id = true ∧ .setOffline festivalId ∉ turn.effects := by
  refine take_entry (fun m => m.onlineUsers festivalId id) (fun m => ?_) (fun m e hon hoff => ?_)
    (hon festivalId)
  · simp [State.emit, put_apply]
  · cases e with
    | setOnline g =>
      have hne : festivalId ≠ g := fun h => hon (h ▸ rfl)
      simp [State.emit, put_apply, hne]
    | setOffline g =>
      have hne : festivalId ≠ g := fun h => hoff (h ▸ rfl)
      simp [State.emit, put_apply, hne]
    | _ => rfl

/-- Where the socket of a turn that lists nobody is listed afterwards, and who will list it. -/
inductive Tracks (k : Socket) (turn : Turn) : Prop where
  | stays (hconnected : turn.socket.connected = k.connected)
      (hfestival : turn.socket.festivalId = k.festivalId)
      (hon : ∀ g, .setOnline g ∉ turn.effects) (hoff : ∀ g, .setOffline g ∉ turn.effects)
  | leaves (hon : ∀ g, .setOnline g ∉ turn.effects)
      (hoff : ∀ g, k.festivalId = some g → .setOffline g ∈ turn.effects)
      (hnext : ∀ g, turn.socket.connected = true → turn.socket.festivalId = some g →
        turn.next = some (.joinFestival g .presence))

variable {k : Socket}

theorem setOffline_mem_leaveFestivalRealtime {g : String} (hg : k.festivalId = some g) :
    .setOffline g ∈ (leaveFestivalRealtime k).effects := by
  simp [leaveFestivalRealtime, removeSocketPresence, hg]

theorem setOnline_not_mem_leaveFestivalRealtime (g : String) :
    .setOnline g ∉ (leaveFestivalRealtime k).effects := by
  intro hg
  obtain ⟨f, -, heq⟩ := eq_setOffline_of_mem hg
  cases heq

theorem leaveFestival_tracks : Tracks k (leaveFestival k) := by
  refine .leaves setOnline_not_mem_leaveFestivalRealtime
    (fun g hg => setOffline_mem_leaveFestivalRealtime hg) fun g _ hg => ?_
  cases hf : k.festivalId <;>
    simp [leaveFestival, leaveFestivalRealtime, removeSocketPresence, Socket.leaveAll, Socket.leave,
      Socket.pass, hf] at hg

theorem enterFestival_tracks (user festivalId : String) :
    Tracks k (enterFestival user festivalId k) := by
  refine .leaves setOnline_not_mem_leaveFestivalRealtime
    (fun g hg => setOffline_mem_leaveFestivalRealtime hg) fun g _ hg => ?_
  obtain rfl := Option.some.inj hg
  rfl

theorem setOnline_not_mem_onDisconnect (g : String) : .setOnline g ∉ (onDisconnect k).effects := by
  simp only [onDisconnect]
  split <;> simp [removeSocketPresence]

theorem onDisconnect_tracks : Tracks k (onDisconnect k) := by
  refine .leaves setOnline_not_mem_onDisconnect (fun g hg => ?_) fun g hcon => by cases hcon
  simp [onDisconnect, removeSocketPresence, hg]

theorem disconnectSocket_tracks : Tracks k (disconnectSocket k) := by
  refine .leaves (fun g => ?_) (fun g hg => ?_) fun g hcon => ?_
  · rw [disconnectSocket_effects]
    exact setOnline_not_mem_leaveFestivalRealtime g
  · rw [disconnectSocket_effects]
    exact setOffline_mem_leaveFestivalRealtime hg
  · rw [disconnectSocket_connected] at hcon
    cases hcon

theorem onEvent_tracks (event : Event) : Tracks k (k.onEvent event) := by
  rcases onEvent_cases k event with rfl | ⟨crewId, rfl⟩ | ⟨next, heq, -⟩
  · exact leaveFestival_tracks
  · simp only [Socket.onEvent, stopSharing]
    split
    · refine .stays rfl rfl (fun g hg => ?_) fun g hg => ?_ <;>
        cases k.userId <;> simp at hg
      all_goals split at hg <;> simp at hg
    · exact .stays rfl rfl (fun g => not_mem_nil) fun g => not_mem_nil
  · rw [heq]
    exact .stays rfl rfl (fun g => not_mem_nil) fun g => not_mem_nil

/-- A handler lists the socket, or its turn tracks the socket. -/
theorem resume_tracks {user : String} {ok allowed : Bool} {now : ℤ} {h : Handler}
    (hturn : h.resume user ok allowed now k = some turn) :
    (∃ f, h = .joinFestival f .presence ∧ turn = setPresence f k) ∨
      (∀ f, h ≠ .joinFestival f .presence) ∧ Tracks k turn := by
  cases resume_cases hturn with
  | setPresence f => exact .inl ⟨f, rfl, rfl⟩
  | pass hh => exact .inr ⟨hh, .stays rfl rfl (by simp [Socket.pass]) (by simp [Socket.pass])⟩
  | ended _ hsession =>
    refine .inr ⟨?_, disconnectSocket_tracks⟩
    rintro f rfl
    cases hsession
  | wait hh => exact .inr ⟨hh, .stays rfl rfl (by simp [Socket.wait]) (by simp [Socket.wait])⟩
  | enterFestival f => exact .inr ⟨by simp, enterFestival_tracks user f⟩
  | enterCrew c =>
    obtain ⟨rooms, -, heq⟩ := enterCrew_socket (k := k) c
    exact .inr ⟨by simp,
      .stays (by rw [heq]; rfl) (by rw [heq]; rfl) (by simp [enterCrew]) (by simp [enterCrew])⟩
  | quitCrew c =>
    refine .inr ⟨by simp, ?_⟩
    simp only [quitCrew]
    split
    · exact .stays rfl rfl (by simp) (by simp)
    · exact .stays rfl rfl (by simp [Socket.pass]) (by simp [Socket.pass])
  | register => exact .inr ⟨by simp, .stays rfl rfl (by simp [register]) (by simp [register])⟩
  | startSharing c position =>
    refine .inr ⟨by simp, .stays rfl rfl ?_ ?_⟩ <;> cases position <;> simp [startSharing]
  | countUpdate c u =>
    refine .inr ⟨by simp, ?_⟩
    simp only [countUpdate]
    split
    · exact .stays rfl rfl (by simp [Socket.wait]) (by simp [Socket.wait])
    · exact .stays rfl rfl (by simp [publish]) (by simp [publish])
  | publish => exact .inr ⟨by simp, .stays rfl rfl (by simp [publish]) (by simp [publish])⟩
  | revoke => exact .inr ⟨by simp, .stays rfl rfl (by simp [revoke]) (by simp [revoke])⟩

end

/-! ## The invariant -/

/-- A handler is about to list the socket under the festival. -/
def State.Lists (s : State) (festivalId id : String) : Prop :=
  (id, Handler.joinFestival festivalId .presence) ∈ s.handlers

/-- The socket is connected and at the festival. -/
@[grind =] def State.At (s : State) (festivalId id : String) : Prop :=
  (s.sockets id).connected = true ∧ (s.sockets id).festivalId = some festivalId

/-- A socket is listed only where it is, and is listed there or about to be. -/
structure Sound (s : State) : Prop where
  online : ∀ f id, s.onlineUsers f id = true → s.At f id
  listed : ∀ f id, s.At f id → s.onlineUsers f id = true ∨ s.Lists f id

/-- With no handler under way, the sockets are listed where they are. -/
def Matches (s : State) : Prop :=
  s.handlers = [] → ∀ f id, s.onlineUsers f id = true ↔ s.At f id

theorem Sound.matches {s : State} (hs : Sound s) : Matches s := by
  intro hnil f id
  refine ⟨hs.online f id, fun hat => (hs.listed f id hat).resolve_right ?_⟩
  simp [State.Lists, hnil]

/-- A handler that lists a socket finds it connected and still at the festival, and does not fail
when no other one will list it. -/
def StaysToBeListed (s : State) : Action → Prop
  | .resume i _ _ => ∀ id f, s.handlers[i]? = some (id, .joinFestival f .presence) → s.At f id
  | .fail i =>
      ∀ id f, s.handlers[i]? = some (id, .joinFestival f .presence) → s.At f id →
        s.onlineUsers f id = true ∨ ∃ j ≠ i, s.handlers[j]? = some (id, .joinFestival f .presence)
  | _ => True

section
variable {clients : Clients} {s t : State}

theorem start_sound (members : String → String → Bool) : Sound (start members) where
  online f id h := by cases h
  listed f id h := by cases h.2

/-- Nothing about the sockets and their lists changes, and whoever is about to be listed is still. -/
theorem Sound.of_eq (hs : Sound s) (hsockets : t.sockets = s.sockets)
    (honline : t.onlineUsers = s.onlineUsers)
    (hlists : ∀ f id, s.At f id → s.Lists f id → s.onlineUsers f id = true ∨ t.Lists f id) :
    Sound t where
  online f id h := by
    rw [State.At, hsockets]
    rw [honline] at h
    exact hs.online f id h
  listed f id hat := by
    rw [State.At, hsockets] at hat
    rw [honline]
    rcases hs.listed f id hat with h | h
    · exact .inl h
    · exact hlists f id hat h

/-- A turn that tracks its socket: the handlers that list others, and its own next one, are there. -/
theorem Sound.take (hs : Sound s) {id : String} {turn : Turn} (hturn : Tracks (s.sockets id) turn)
    {handlers : List (String × Handler)} (hkeep : ∀ f id', s.Lists f id' →
      (id', Handler.joinFestival f .presence) ∈ handlers)
    (hnext : ∀ h, turn.next = some h → (id, h) ∈ handlers) :
    Sound { s.take clients id turn with handlers := handlers } := by
  constructor
  · intro f id' h
    simp only [State.At, take_sockets]
    by_cases hid : id' = id
    · subst hid
      rw [update_self]
      cases hturn with
      | stays hcon hfest hon hoff =>
        rw [hcon, hfest]
        exact hs.online f id' ((take_onlineUsers hon f).mp h).1
      | leaves hon hoff hnext =>
        obtain ⟨hwas, hnot⟩ := (take_onlineUsers hon f).mp h
        exact absurd (hoff f (hs.online f id' hwas).2) hnot
    · rw [update_of_ne hid]
      exact hs.online f id' ((take_onlineUsers_of_ne hid f).symm.trans h)
  · intro f id' hat
    simp only [State.At, take_sockets] at hat
    by_cases hid : id' = id
    · subst hid
      rw [update_self] at hat
      cases hturn with
      | stays hcon hfest hon hoff =>
        rw [hcon, hfest] at hat
        rcases hs.listed f id' hat with h | h
        · exact .inl ((take_onlineUsers hon f).mpr ⟨h, hoff f⟩)
        · exact .inr (hkeep f id' h)
      | leaves hon hoff hjoin => exact .inr (hnext _ (hjoin f hat.1 hat.2))
    · rw [update_of_ne hid] at hat
      rcases hs.listed f id' hat with h | h
      · exact .inl ((take_onlineUsers_of_ne hid f).trans h)
      · exact .inr (hkeep f id' h)

/-- A socket that is listed where it is. -/
theorem Sound.setPresence (hs : Sound s) {id f : String} (hat : s.At f id)
    {handlers : List (String × Handler)} (hkeep : ∀ g id', s.Lists g id' →
      (g = f ∧ id' = id) ∨ (id', Handler.joinFestival g .presence) ∈ handlers) :
    Sound { s.take clients id (setPresence f (s.sockets id)) with handlers := handlers } := by
  have hsockets : update s.sockets id (s.sockets id) = s.sockets :=
    update_eq_self id s.sockets
  constructor
  · intro g id' h
    simp only [State.At, take_sockets, Realtime.setPresence, hsockets]
    simp only [State.take, Realtime.setPresence, foldl_cons, foldl_nil, State.emit,
      put_apply] at h
    split at h
    · rename_i heq
      rw [heq.1, heq.2]
      exact hat
    · exact hs.online g id' h
  · intro g id' hat'
    simp only [State.At, take_sockets, Realtime.setPresence, hsockets] at hat'
    simp only [State.take, Realtime.setPresence, foldl_cons, foldl_nil, State.emit,
      put_apply]
    split
    · exact .inl rfl
    · rename_i hne
      rcases hs.listed g id' hat' with h | h
      · exact .inl h
      · exact .inr ((hkeep g id' h).resolve_left hne)

theorem Sound.evict (hs : Sound s) {f : Socket → Turn} (hf : ∀ k, Tracks k (f k) ∧ (f k).next = none)
    (ids : List String) : Sound (s.evict clients f ids) := by
  refine evict_induct hs fun m id _ hm => ?_
  obtain ⟨htracks, hend⟩ := hf (m.sockets id)
  exact hm.take htracks (fun g id' hl => mem_take_handlers.mpr hl) (by simp [hend])

theorem closeRoom_tracks (crewId : String) (k : Socket) :
    Tracks k (closeRoom crewId k) ∧ (closeRoom crewId k).next = none :=
  ⟨.stays rfl rfl (by simp [closeRoom]) (by simp [closeRoom]), rfl⟩

theorem revokeAccess_tracks (crewId userId : String) (k : Socket) :
    Tracks k (revokeAccess crewId userId k) ∧ (revokeAccess crewId userId k).next = none := by
  rw [revokeAccess]
  split
  · exact ⟨.stays rfl rfl (by simp) (by simp), rfl⟩
  · exact ⟨.stays rfl rfl (by simp [Socket.pass]) (by simp [Socket.pass]), rfl⟩

theorem advance_sound (hs : Sound s) (j : ℕ) (r : Request) : Sound (s.advance clients j r) := by
  obtain ⟨removal, crewId, stage⟩ := r
  have hsame : ∀ {t : State}, t.sockets = s.sockets → t.onlineUsers = s.onlineUsers →
      t.handlers = s.handlers → Sound t := fun hk ho hh =>
    hs.of_eq hk ho fun f id _ hl => .inr (by rwa [State.Lists, hh])
  cases stage with
  | remove => cases removal <;> exact hsame rfl rfl rfl
  | fetch => cases removal <;> exact hsame rfl rfl rfl
  | evict ids =>
    have hclose : Sound (s.evict clients (closeRoom crewId) ids) :=
      hs.evict (closeRoom_tracks crewId) ids
    cases removal with
    | member userId =>
      have hrevoke : Sound (s.evict clients (revokeAccess crewId userId) ids) :=
        hs.evict (revokeAccess_tracks crewId userId) ids
      exact hrevoke.of_eq rfl rfl fun _ _ _ hl => .inr hl
    | crew => exact hclose.of_eq rfl rfl fun _ _ _ hl => .inr hl
    | archive => exact hclose.of_eq rfl rfl fun _ _ _ hl => .inr hl

/-- Every step keeps the invariant, when the sockets stay to be listed. -/
theorem step_sound (hs : Sound s) (a : Action) (hstays : StaysToBeListed s a)
    (h : step clients s a = some t) : Sound t := by
  cases a with
  | event id event =>
    obtain ⟨-, -, rfl⟩ := step_event h
    refine hs.take (onEvent_tracks event) (fun f id' hl => mem_append_left _ hl) ?_
    intro h hnext
    simp [hnext]
  | read i =>
    obtain ⟨id, g, g', hg, hread, rfl⟩ := step_read h
    refine hs.of_eq rfl rfl fun f id' _ hl => .inr ?_
    refine (mem_set_or hg hl (id, g')).resolve_left ?_
    rintro ⟨⟩
    cases hread
  | resume i ok now =>
    obtain ⟨id, g, turn, hg, hturn, rfl⟩ := step_resume h
    rcases resume_tracks hturn with ⟨f, rfl, rfl⟩ | ⟨hother, htracks⟩
    · refine hs.setPresence (hstays id f hg) fun f' id' hl => ?_
      rcases mem_proceed_or hg hl none with heq | hmem
      · cases heq
        exact .inl ⟨rfl, rfl⟩
      · exact .inr hmem
    · refine hs.take htracks (fun f id' hl => ?_) fun h hnext => ?_
      · refine (mem_proceed_or hg hl _).resolve_left ?_
        rintro ⟨⟩
        exact hother f rfl
      · rw [hnext]
        exact mem_proceed_self hg _
  | fail i =>
    obtain ⟨id, g, hg, -, rfl⟩ := step_fail h
    refine hs.of_eq rfl rfl fun f id' hat hl => ?_
    rcases mem_eraseIdx_or hg hl with heq | hmem
    · cases heq
      refine (hstays _ f hg hat).imp_right ?_
      rintro ⟨j, hj, hget⟩
      exact mem_eraseIdx_iff_getElem?.mpr ⟨j, hj, hget⟩
    · exact .inr hmem
  | disconnect id =>
    obtain ⟨-, -, rfl⟩ := step_disconnect h
    exact hs.take onDisconnect_tracks (fun f id' hl => mem_take_handlers.mpr hl)
      fun _ hnext => by cases hnext
  | endSession id =>
    obtain ⟨-, -, rfl⟩ := step_endSession h
    exact hs.take disconnectSocket_tracks (fun f id' hl => mem_take_handlers.mpr hl)
      (by simp [disconnectSocket_next])
  | request crewId removal =>
    obtain rfl := Option.some.inj h
    exact hs.of_eq rfl rfl fun _ _ _ hl => .inr hl
  | advance j =>
    obtain ⟨r, -, rfl⟩ := step_advance h
    exact advance_sound hs j r
  | fetchFails j =>
    obtain ⟨removal, crewId, -, rfl⟩ := step_fetchFails h
    exact hs.of_eq rfl rfl fun _ _ _ hl => .inr hl
  | expire crewId =>
    obtain rfl := Option.some.inj h
    exact hs.of_eq rfl rfl fun _ _ _ hl => .inr hl
  | addMember crewId userId =>
    obtain rfl := Option.some.inj h
    exact hs.of_eq rfl rfl fun _ _ _ hl => .inr hl

/-- With no handler under way, the sockets are listed where they are, in every run in which the
socket is still at the festival when a handler lists it. -/
theorem presence_matches {members : String → String → Bool} {as : List Action}
    (hstays : Machine.Meets (step clients) StaysToBeListed (start members) as) :
    Machine.Always (step clients) Matches (start members) as :=
  Machine.always_of_meets (fun _ a _ hs hC h => step_sound hs a hC h) (fun _ hs => hs.matches)
    (start_sound members) hstays

end

/-! ## A socket that disconnects while it joins -/

/-- The socket joins a festival, then another one, and disconnects. -/
def visitingRun : List Action :=
  [.event "socket" (.joinFestival "first"),
    .resume 0 true 0,
    .resume 0 true 0,
    .resume 0 true 0,
    .event "socket" (.joinFestival "second"),
    .resume 0 true 0,
    .resume 0 true 0,
    .resume 0 true 0,
    .disconnect "socket"]

theorem visitingRun_matches :
    Machine.Always (step (Clients.single "socket" "user")) Matches (start fun _ _ => true)
      visitingRun := by
  refine presence_matches ⟨trivial, ?_, ?_, ?_, trivial, ?_, ?_, ?_, trivial, trivial⟩
  all_goals
    rintro id f ⟨⟩
    try exact ⟨rfl, rfl⟩

/-- It disconnects before the handler lists it: it is listed without being connected. -/
theorem disconnect_before_listing :
    ∃ t, Machine.run (step (Clients.single "socket" "user")) (start fun _ _ => true)
        [.event "socket" (.joinFestival "festival"), .resume 0 true 0, .resume 0 true 0,
          .disconnect "socket", .resume 0 true 0] = some t ∧
      t.handlers = [] ∧ t.onlineUsers "festival" "socket" = true ∧
      (t.sockets "socket").connected = false ∧ ¬ Matches t := by
  refine ⟨_, rfl, rfl, rfl, rfl, fun h => ?_⟩
  obtain ⟨hcon, -⟩ := (h rfl "festival" "socket").mp rfl
  cases hcon

end FestivalPlanner.Realtime
