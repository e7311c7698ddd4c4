import FestivalPlanner.Realtime.Server

/-!
# Markers on the map of a crew

A marker of a user is on the map of a crew when the last broadcast about the user was an update, or
the snapshot cache has a position.  The ways to stop sharing are to clean both up, and an update
that was suspended may come after them.

* `State.Shown`, `State.Shares` — a marker, and a socket that it is of;
* `Tidy` — a turn that shows only what is shared, and cleans up what its socket stops sharing;
* `take_marked` — such a turn keeps every marker the marker of a socket that shares;
* `no_ghosts` — there is no marker without such a socket, in every run in which whatever stops
  sharing without cleaning up is covered by another socket, and nothing comes late.
-/

namespace FestivalPlanner.Realtime

open List Function

/-! ## Markers -/

section
variable (s : State) (crewId userId : String)

/-- The last broadcast to the crew about the user. -/
def State.lastBroadcast : Option Broadcast :=
  s.broadcasts.find? fun b => b.crewId = crewId ∧ b.userId = userId

/-- That broadcast is an update. -/
def State.updated : Bool := (s.lastBroadcast crewId userId).any fun b => !b.stopped

/-- A marker of the user is shown to the crew. -/
def State.Shown : Prop := s.updated crewId userId = true ∨ s.positions crewId userId = true

end

/-- When no socket of a user shares to a crew, the last broadcast to the crew about the user is
that it has stopped, and the snapshot holds no position. -/
def NoGhosts (clients : Clients) (s : State) : Prop :=
  ∀ crewId userId, (∀ id, clients.owner id = userId → ¬ s.Shares crewId id) →
    (∀ b, s.lastBroadcast crewId userId = some b → b.stopped = true) ∧
      s.positions crewId userId = false

/-- Every marker is of a socket that shares. -/
def Marked (clients : Clients) (s : State) : Prop :=
  ∀ crewId userId, s.Shown crewId userId → ∃ id, clients.owner id = userId ∧ s.Shares crewId id

theorem Marked.noGhosts {clients : Clients} {s : State} (hs : Marked clients s) :
    NoGhosts clients s := by
  intro crewId userId hnone
  have hnot : ¬ s.Shown crewId userId := by
    intro hshown
    obtain ⟨id, hid, hshares⟩ := hs crewId userId hshown
    exact hnone id hid hshares
  obtain ⟨hupdated, hposition⟩ := not_or.mp hnot
  refine ⟨fun b hb => ?_, by simpa using hposition⟩
  simpa [State.updated, hb] using hupdated

variable {c u user : String} {k : Socket} {f : Socket → Turn} {ids : List String}

section
variable {clients : Clients} {s : State} {id : String} {turn : Turn}

theorem updated_broadcast (stopped : Bool) (c u x y : String) :
    (s.broadcast clients id stopped c u).updated x y =
      if x = c ∧ y = u then !stopped else s.updated x y := by
  by_cases h : x = c ∧ y = u
  · obtain ⟨rfl, rfl⟩ := h
    simp [State.updated, State.lastBroadcast, State.broadcast]
  · have h' : ¬ (c = x ∧ u = y) := fun hcu => h ⟨hcu.1.symm, hcu.2.symm⟩
    simp [State.updated, State.lastBroadcast, State.broadcast, h, h']

theorem take_updated (hon : .peerUpdate c u ∉ turn.effects) :
    (s.take clients id turn).updated c u = true ↔
      s.updated c u = true ∧ .peerStopped c u ∉ turn.effects := by
  refine take_entry (fun m => m.updated c u) (fun m => ?_) (fun m e hon hoff => ?_) hon
  · simp [State.emit, updated_broadcast]
  · cases e with
    | peerUpdate x y =>
      have hne : ¬ (c = x ∧ u = y) := fun h => hon (by rw [h.1, h.2])
      simp [State.emit, updated_broadcast, hne]
    | peerStopped x y =>
      have hne : ¬ (c = x ∧ u = y) := fun h => hoff (by rw [h.1, h.2])
      simp [State.emit, updated_broadcast, hne]
    | _ => rfl

theorem take_positions (hon : .writeLivePosition c u ∉ turn.effects) :
    (s.take clients id turn).positions c u = true ↔
      s.positions c u = true ∧ .dropLivePosition c u ∉ turn.effects := by
  refine take_entry (fun m => m.positions c u) (fun m => ?_) (fun m e hon hoff => ?_) hon
  · simp [State.emit, put_apply]
  · cases e with
    | writeLivePosition x y =>
      have hne : ¬ (c = x ∧ u = y) := fun h => hon (by rw [h.1, h.2])
      simp [State.emit, put_apply, hne]
    | dropLivePosition x y =>
      have hne : ¬ (c = x ∧ u = y) := fun h => hoff (by rw [h.1, h.2])
      simp [State.emit, put_apply, hne]
    | _ => rfl

end

/-! ## Turns -/

section
variable (clients : Clients) (s : State) (id : String)

/-- Another socket of the user shares to the crew. -/
def State.SharedElsewhere (crewId : String) : Prop :=
  ∃ other, other ≠ id ∧ clients.owner other = clients.owner id ∧ s.Shares crewId other

/-- The socket may stop sharing to the crew without cleaning up. -/
def State.Covered (crewId : String) : Prop :=
  ¬ s.Shown crewId (clients.owner id) ∨ s.SharedElsewhere clients id crewId

/-- The socket of the turn shares to the crew afterwards. -/
@[grind =] def Turn.Shares (turn : Turn) (crewId : String) : Prop :=
  turn.socket.connected = true ∧ turn.socket.sharingCrewId = some crewId

/-- The effect puts the user on the map of the crew. -/
@[grind =] def Effect.Shows (crewId userId : String) : Effect → Prop
  | .peerUpdate c u => c = crewId ∧ u = userId
  | .writeLivePosition c u => c = crewId ∧ u = userId
  | _ => False

/-- The turn cleans up after the user. -/
@[grind =] def Turn.Clears (turn : Turn) (crewId userId : String) : Prop :=
  .peerStopped crewId userId ∈ turn.effects ∧ .dropLivePosition crewId userId ∈ turn.effects

/-- A turn that shows only what is shared, and cleans up what its socket stops sharing. -/
structure Tidy (turn : Turn) : Prop where
  shows : ∀ e ∈ turn.effects, ∀ crewId userId, e.Shows crewId userId →
    userId = clients.owner id ∧ (turn.Shares crewId ∨ s.SharedElsewhere clients id crewId)
  lost : ∀ crewId, s.Shares crewId id →
    turn.Shares crewId ∨ turn.Clears crewId (clients.owner id) ∨ s.Covered clients id crewId

end

section
variable {clients : Clients} {s : State} {id : String} {turn : Turn}

theorem shares_take : (s.take clients id turn).Shares c id ↔ turn.Shares c := by
  simp [State.Shares, Turn.Shares]

theorem shares_take_of_ne {id' : String} (hne : id' ≠ id) :
    (s.take clients id turn).Shares c id' ↔ s.Shares c id' := by
  simp [State.Shares, hne]

/-- What is shown after a turn has been shown by it, or before and is not cleaned up. -/
theorem shown_take (hshown : (s.take clients id turn).Shown c u) :
    (∃ e ∈ turn.effects, e.Shows c u) ∨ s.Shown c u ∧ ¬ turn.Clears c u := by
  by_cases hshows : ∃ e ∈ turn.effects, e.Shows c u
  · exact .inl hshows
  · refine .inr ?_
    have hupdate : .peerUpdate c u ∉ turn.effects := fun h => hshows ⟨_, h, rfl, rfl⟩
    have hwrite : .writeLivePosition c u ∉ turn.effects := fun h => hshows ⟨_, h, rfl, rfl⟩
    rcases hshown with h | h
    · obtain ⟨hwas, hnot⟩ := (take_updated hupdate).mp h
      exact ⟨.inl hwas, fun hclears => hnot hclears.1⟩
    · obtain ⟨hwas, hnot⟩ := (take_positions hwrite).mp h
      exact ⟨.inr hwas, fun hclears => hnot hclears.2⟩

/-- After a tidy turn every marker is of a socket that shares. -/
theorem take_marked (hs : Marked clients s) (hturn : Tidy clients s id turn) :
    Marked clients (s.take clients id turn) := by
  have helsewhere : ∀ c, s.SharedElsewhere clients id c → ∃ id', clients.owner id' = clients.owner id ∧
      (s.take clients id turn).Shares c id' := by
    rintro c ⟨other, hne, howner, hshares⟩
    exact ⟨other, howner, (shares_take_of_ne hne).mpr hshares⟩
  intro c u hshown
  rcases shown_take hshown with ⟨e, he, hshows⟩ | ⟨hwas, hnot⟩
  · obtain ⟨rfl, hshares | hother⟩ := hturn.shows e he c u hshows
    · exact ⟨id, rfl, shares_take.mpr hshares⟩
    · exact helsewhere c hother
  · obtain ⟨id', hid', hshares⟩ := hs c u hwas
    by_cases heq : id' = id
    · subst heq
      subst hid'
      rcases hturn.lost c hshares with hstill | hclears | hfree | hother
      · exact ⟨id', rfl, shares_take.mpr hstill⟩
      · exact absurd hclears hnot
      · exact absurd hwas hfree
      · exact helsewhere c hother
    · exact ⟨id', hid', (shares_take_of_ne heq).mpr hshares⟩

/-! ## The turns of a socket -/

/-- A socket that shares knows its user. -/
def Socket.Named (user : String) (k : Socket) : Prop :=
  k.connected = true → k.sharingCrewId.isSome = true → k.userId = some user

/-- A turn that shows nothing and leaves the sharing as it is. -/
theorem Tidy.of_same (hcon : turn.socket.connected = (s.sockets id).connected)
    (hsharing : turn.socket.sharingCrewId = (s.sockets id).sharingCrewId)
    (hshows : ∀ e ∈ turn.effects, ∀ c u, ¬ e.Shows c u) : Tidy clients s id turn where
  shows e he c u h := absurd h (hshows e he c u)
  lost _ h := .inl ⟨hcon.trans h.1, hsharing.trans h.2⟩

theorem not_shows_leaveFestivalRealtime :
    ∀ e ∈ (leaveFestivalRealtime k).effects, ∀ c u, ¬ e.Shows c u := by
  intro e he c u
  obtain ⟨f, -, rfl⟩ := eq_setOffline_of_mem he
  exact id

theorem not_shows_onDisconnect : ∀ e ∈ (onDisconnect k).effects, ∀ c u, ¬ e.Shows c u := by
  simp only [onDisconnect]
  split
  · simp [Effect.Shows, removeSocketPresence]
  · simp [Effect.Shows, removeSocketPresence]

theorem not_shows_stopSharing (crewId : String) :
    ∀ e ∈ (stopSharing crewId k).effects, ∀ c u, ¬ e.Shows c u := by
  simp only [stopSharing]
  split
  · cases k.userId
    · split <;> simp [Effect.Shows]
    · split <;> simp [Effect.Shows]
  · simp [Socket.pass]

theorem leaveFestival_tidy : Tidy clients s id (leaveFestival (s.sockets id)) :=
  .of_same leaveFestivalRealtime_connected leaveFestivalRealtime_sharingCrewId
    not_shows_leaveFestivalRealtime

/-- A socket that shares and disconnects is cleaned up after. -/
theorem onDisconnect_tidy (hnamed : (s.sockets id).Named (clients.owner id)) :
    Tidy clients s id (onDisconnect (s.sockets id)) where
  shows e he c u h := absurd h (not_shows_onDisconnect e he c u)
  lost c h := by
    have huser := hnamed h.1 (by simp [h.2])
    exact .inr (.inl (by simp [Turn.Clears, onDisconnect, h.2, huser]))

/-- A session that is ended is not: its socket must be covered. -/
theorem disconnectSocket_tidy (hcovered : ∀ c, s.Shares c id → s.Covered clients id c) :
    Tidy clients s id (disconnectSocket (s.sockets id)) where
  shows e he c u h := by
    rw [disconnectSocket_effects] at he
    exact absurd h (not_shows_leaveFestivalRealtime e he c u)
  lost c h := .inr (.inr (hcovered c h))

theorem stopSharing_tidy (hnamed : (s.sockets id).Named (clients.owner id)) (c : String) :
    Tidy clients s id (stopSharing c (s.sockets id)) where
  shows e he x u h := absurd h (not_shows_stopSharing c e he x u)
  lost d h := by
    obtain ⟨hcon, hd⟩ := h
    have huser := hnamed hcon (by simp [hd])
    by_cases hcd : d = c
    · subst hcd
      exact .inr (.inl (by simp [Turn.Clears, stopSharing, hd, huser]))
    · refine .inl ?_
      simp only [Turn.Shares, stopSharing]
      split
      · exact ⟨hcon, by simp [hd, hcd]⟩
      · exact ⟨hcon, hd⟩

theorem onEvent_tidy (hnamed : (s.sockets id).Named (clients.owner id)) (event : Event) :
    Tidy clients s id ((s.sockets id).onEvent event) := by
  rcases onEvent_cases (s.sockets id) event with rfl | ⟨c, rfl⟩ | ⟨next, heq, -⟩
  · exact leaveFestival_tidy
  · exact stopSharing_tidy hnamed c
  · rw [heq]
    exact .of_same rfl rfl (by simp)

theorem publish_tidy (hcon : k.connected = (s.sockets id).connected)
    (hsharing : k.sharingCrewId = (s.sockets id).sharingCrewId)
    (hshared : s.Shares c id ∨ s.SharedElsewhere clients id c) :
    Tidy clients s id (publish (clients.owner id) c k) where
  shows e he x u hshows := by
    obtain ⟨rfl, rfl⟩ : c = x ∧ clients.owner id = u := by
      simp only [publish, mem_cons, not_mem_nil, or_false] at he
      rcases he with rfl | rfl <;> exact hshows
    exact ⟨rfl, hshared.imp_left fun h => ⟨hcon.trans h.1, hsharing.trans h.2⟩⟩
  lost _ h := .inl ⟨hcon.trans h.1, hsharing.trans h.2⟩

/-! ## What may go on -/

section
variable (clients : Clients) (s : State)

/-- What is still to hold when a handler goes on: an update finds the crew shared by the user, and
what stops sharing without cleaning up is covered. -/
def Handler.Covers (id : String) (ok : Bool) (now : ℤ) : Handler → Prop
  | .share c position (.register true) =>
      (position = true → (s.sockets id).connected = true ∨ s.SharedElsewhere clients id c) ∧
        ∀ d, d ≠ c → s.Shares d id → s.Covered clients id d
  | .update c _ .limit =>
      ok = true → ¬ (s.sockets id).Rechecks now → s.Shares c id ∨ s.SharedElsewhere clients id c
  | .update c _ (.member (some true)) => s.Shares c id ∨ s.SharedElsewhere clients id c
  | .update c _ (.member (some false)) => ∀ d, d ≠ c → s.Shares d id → s.Covered clients id d
  | h => h.ValidatesSession → ok = false → ∀ d, s.Shares d id → s.Covered clients id d

end

/-- The turns of a handler are tidy, when what they leave is covered. -/
theorem resume_tidy {ok allowed : Bool} {now : ℤ} {h : Handler}
    (howner : ∀ c u stage, h = .update c u stage → u = clients.owner id)
    (hcovers : h.Covers clients s id ok now)
    (hturn : h.resume (clients.owner id) ok allowed now (s.sockets id) = some turn) :
    Tidy clients s id turn := by
  cases resume_cases hturn with
  | pass => exact .of_same rfl rfl (by simp [Socket.pass])
  | ended hok hsession =>
    refine disconnectSocket_tidy ?_
    cases h with
    | joinFestival f stage => exact hcovers hsession hok
    | joinCrew c stage => exact hcovers hsession hok
    | leaveCrew c => exact hcovers hsession hok
    | share c p stage =>
      obtain rfl := hsession
      exact hcovers rfl hok
    | update c u stage => cases hsession
    | sync c => exact hcovers hsession hok
  | wait => exact .of_same rfl rfl (by simp [Socket.wait])
  | enterFestival f =>
    exact .of_same leaveFestivalRealtime_connected leaveFestivalRealtime_sharingCrewId
      not_shows_leaveFestivalRealtime
  | setPresence => exact .of_same rfl rfl (by simp [setPresence, Effect.Shows])
  | enterCrew c =>
    obtain ⟨rooms, -, heq⟩ := enterCrew_socket (k := s.sockets id) c
    exact .of_same (by rw [heq]; rfl) (by rw [heq]; rfl) (by simp [enterCrew])
  | quitCrew c =>
    constructor
    · intro e he x u hshows
      simp only [quitCrew] at he
      split at he
      · simp only [mem_cons, not_mem_nil, or_false] at he
        rcases he with rfl | rfl | rfl <;> cases hshows
      · cases he
    · rintro d ⟨hcon, hd⟩
      by_cases hcd : d = c
      · subst hcd
        exact .inr (.inl (by simp [Turn.Clears, quitCrew, hd]))
      · have hne : ¬ (s.sockets id).sharingCrewId = some c := by simp [hd, hcd]
        refine .inl ?_
        simp only [Turn.Shares, quitCrew, if_neg hne]
        exact ⟨hcon, hd⟩
  | register => exact .of_same rfl rfl (by simp [register, Effect.Shows])
  | startSharing c position =>
    obtain ⟨hlate, hleft⟩ := hcovers
    constructor
    · intro e he x u hshows
      cases position
      · simp [startSharing] at he
      · obtain ⟨rfl, rfl⟩ : c = x ∧ clients.owner id = u := by
          simp only [startSharing, if_true, mem_cons, not_mem_nil, or_false] at he
          rcases he with rfl | rfl <;> exact hshows
        exact ⟨rfl, (hlate rfl).imp_left fun hcon => ⟨hcon, rfl⟩⟩
    · intro d hd
      by_cases hcd : d = c
      · subst hcd
        exact .inl ⟨hd.1, rfl⟩
      · exact .inr (.inr (hleft d hcd hd))
  | countUpdate c u hok =>
    obtain rfl := howner c u _ rfl
    simp only [countUpdate]
    split
    · exact .of_same rfl rfl (by simp [Socket.wait])
    · rename_i hnot
      exact publish_tidy rfl rfl (hcovers hok hnot)
  | publish c u =>
    obtain rfl := howner c u _ rfl
    exact publish_tidy rfl rfl hcovers
  | revoke c u =>
    obtain rfl := howner c u _ rfl
    constructor
    · intro e he x u hshows
      simp only [revoke, mem_cons, not_mem_nil, or_false] at he
      rcases he with rfl | rfl | rfl <;> cases hshows
    · intro d hd
      by_cases hcd : d = c
      · subst hcd
        exact .inr (.inl (by simp [Turn.Clears, revoke]))
      · exact .inr (.inr (hcovers d hcd hd))

/-! ## The users that the sockets know -/

theorem onEvent_named (hk : k.Named user) (event : Event) :
    (k.onEvent event).socket.Named user := by
  rcases onEvent_cases k event with rfl | ⟨c, rfl⟩ | ⟨next, heq, -⟩
  · intro hcon hsharing
    simp only [Socket.onEvent, leaveFestival, Socket.leaveAll, leaveFestivalRealtime_connected,
      leaveFestivalRealtime_sharingCrewId, leaveFestivalRealtime_userId] at hcon hsharing ⊢
    exact hk hcon hsharing
  · simp only [Socket.onEvent, stopSharing]
    split
    · intro hcon hsharing
      dsimp only at hcon hsharing ⊢
      split at hsharing
      · cases hsharing
      · exact hk hcon hsharing
    · exact hk
  · rw [heq]
    exact hk

theorem Socket.Named.of_disconnected (hcon : k.connected = false) : k.Named user := by
  intro h
  rw [hcon] at h
  cases h

theorem resume_named (hk : k.Named user) {ok allowed : Bool} {now : ℤ} {h : Handler}
    (hturn : h.resume user ok allowed now k = some turn) : turn.socket.Named user := by
  cases resume_cases hturn with
  | pass => exact hk
  | ended => exact .of_disconnected disconnectSocket_connected
  | wait => exact hk
  | enterFestival f => exact fun _ _ => rfl
  | setPresence => exact hk
  | enterCrew c =>
    obtain ⟨rooms, -, heq⟩ := enterCrew_socket (k := k) c
    rw [heq]
    exact hk
  | quitCrew c =>
    simp only [quitCrew]
    split
    · rintro - ⟨⟩
    · exact hk
  | register => exact hk
  | startSharing => exact fun _ _ => rfl
  | countUpdate c u hok =>
    simp only [countUpdate]
    split
    · exact hk
    · exact hk
  | publish => exact hk
  | revoke => rintro - ⟨⟩

/-! ## Evictions -/

theorem evict_shares (hf : ∀ k, (f (f k).socket).socket = (f k).socket) (ids : List String)
    {id : String} (hid : id ∉ ids) : (s.evict clients f ids).Shares c id ↔ s.Shares c id := by
  rw [State.Shares, evict_sockets hf, if_neg hid]
  exact Iff.rfl

theorem evict_named (hf : ∀ k user, k.Named user → (f k).socket.Named user)
    (hs : ∀ id, (s.sockets id).Named (clients.owner id)) (ids : List String) (id : String) :
    ((s.evict clients f ids).sockets id).Named (clients.owner id) := by
  refine evict_induct (P := fun m => ∀ id, (m.sockets id).Named (clients.owner id)) hs
    (fun m a _ hm id' => ?_) id
  rw [take_sockets]
  by_cases ha : id' = a
  · subst ha
    rw [update_self]
    exact hf _ _ (hm id')
  · rw [update_of_ne ha]
    exact hm id'

theorem not_shows_revokeAccess (c u : String) (k : Socket) :
    ∀ e ∈ (revokeAccess c u k).effects, ∀ x y, ¬ e.Shows x y := by
  simp only [revokeAccess]
  split
  · split <;> simp [Effect.Shows]
  · simp [Socket.pass]

/-- The turns of an eviction that show nothing: what is shown afterwards was shown before. -/
theorem evict_shown (hf : ∀ k, ∀ e ∈ (f k).effects, ∀ c u, ¬ e.Shows c u) (ids : List String)
    (hshown : (s.evict clients f ids).Shown c u) : s.Shown c u := by
  refine evict_induct (P := fun m => m.Shown c u → s.Shown c u) id (fun m a _ hm h => ?_) hshown
  rcases shown_take h with ⟨e, he, hshows⟩ | ⟨hwas, -⟩
  · exact absurd hshows (hf _ e he c u)
  · exact hm hwas

theorem evict_updated {x y : String} (ids : List String)
    (h : (s.evict clients (revokeAccess c u) ids).updated x y = true) : s.updated x y = true := by
  refine evict_induct (P := fun m => m.updated x y = true → s.updated x y = true) id
    (fun m a _ hm h => hm ?_) h
  refine ((take_updated fun hmem => ?_).mp h).1
  exact not_shows_revokeAccess c u (m.sockets a) _ hmem x y ⟨rfl, rfl⟩

theorem evict_positions {x y : String} (ids : List String)
    (h : (s.evict clients (revokeAccess c u) ids).positions x y = true) :
    s.positions x y = true := by
  refine evict_induct (P := fun m => m.positions x y = true → s.positions x y = true) id
    (fun m a _ hm h => hm ?_) h
  refine ((take_positions fun hmem => ?_).mp h).1
  exact not_shows_revokeAccess c u (m.sockets a) _ hmem x y ⟨rfl, rfl⟩

/-- The eviction of a socket that shares tells the crew that the user has stopped. -/
theorem evict_stops {id : String} (hid : id ∈ ids) (huser : (s.sockets id).userId = some u)
    (hsharing : (s.sockets id).sharingCrewId = some c) :
    (s.evict clients (revokeAccess c u) ids).updated c u = false := by
  induction ids generalizing s with
  | nil => cases hid
  | cons a ids ih =>
    rw [State.evict, foldl_cons, ← State.evict]
    by_cases ha : id = a
    · subst ha
      by_contra hne
      have hstill := evict_updated ids (Bool.eq_true_of_not_eq_false hne)
      refine absurd ((take_updated fun hmem => ?_).mp hstill).2 ?_
      · exact not_shows_revokeAccess c u (s.sockets id) _ hmem c u ⟨rfl, rfl⟩
      · simp [revokeAccess, huser, hsharing]
    · have hmem : id ∈ ids := (mem_cons.mp hid).resolve_left ha
      have hsame : (s.take clients a (revokeAccess c u (s.sockets a))).sockets id = s.sockets id := by
        rw [take_sockets, update_of_ne ha]
      exact ih hmem (by rw [hsame]; exact huser) (by rw [hsame]; exact hsharing)

/-- The sockets of the user that the eviction finds. -/
def State.Evicted (s : State) (ids : List String) (userId id : String) : Prop :=
  id ∈ ids ∧ (s.sockets id).userId = some userId

/-- A removed member: what the sockets shared that are evicted is shared by others, or not shown;
the position that the snapshot holds for the crew is not cleaned up. -/
def MemberCovers (clients : Clients) (s : State) (crewId userId : String) (ids : List String) : Prop :=
  ∀ d id, s.Evicted ids userId id → s.Shares d id →
    (if d = crewId then s.positions crewId userId = false else ¬ s.Shown d userId) ∨
      ∃ other, clients.owner other = userId ∧ s.Shares d other ∧ ¬ s.Evicted ids userId other

/-- A crew that is closed: the same, and nothing at all is cleaned up. -/
def CloseCovers (clients : Clients) (s : State) (crewId : String) (ids : List String) : Prop :=
  ∀ id ∈ ids, s.Shares crewId id →
    ¬ s.Shown crewId (clients.owner id) ∨
      ∃ other, other ∉ ids ∧ clients.owner other = clients.owner id ∧ s.Shares crewId other

theorem evict_member_marked (hs : Marked clients s) (howned : Owned clients s)
    (hcovers : MemberCovers clients s c u ids) :
    Marked clients (s.evict clients (revokeAccess c u) ids) := by
  have hstays : ∀ d id, ¬ s.Evicted ids u id → s.Shares d id →
      (s.evict clients (revokeAccess c u) ids).Shares d id := by
    intro d id hnot hshares
    rw [State.Shares, evict_sockets (revokeAccess_revokeAccess c u)]
    split
    · rename_i hid
      rw [revokeAccess, if_neg fun huser => hnot ⟨hid, huser⟩]
      exact hshares
    · exact hshares
  intro d v hshown
  have hwas := evict_shown (not_shows_revokeAccess c u) ids hshown
  obtain ⟨id, rfl, hshares⟩ := hs d v hwas
  by_cases hevicted : s.Evicted ids u id
  · obtain rfl : u = clients.owner id := howned.socket id u hevicted.2
    rcases hcovers d id hevicted hshares with hfree | ⟨other, howner, hother, hnot⟩
    · split at hfree
      · rename_i hd
        subst hd
        rcases hshown with h | h
        · rw [evict_stops hevicted.1 hevicted.2 hshares.2] at h
          cases h
        · rw [evict_positions ids h] at hfree
          cases hfree
      · exact absurd hwas hfree
    · exact ⟨other, howner, hstays d other hnot hother⟩
  · exact ⟨id, rfl, hstays d id hevicted hshares⟩

theorem evict_close_marked (hs : Marked clients s) (hcovers : CloseCovers clients s c ids) :
    Marked clients (s.evict clients (closeRoom c) ids) := by
  intro d v hshown
  have hwas := evict_shown (f := closeRoom c) (by simp [closeRoom]) ids hshown
  obtain ⟨id, rfl, hshares⟩ := hs d v hwas
  by_cases hlost : id ∈ ids ∧ d = c
  · obtain ⟨hid, rfl⟩ := hlost
    rcases hcovers id hid hshares with hfree | ⟨other, hother, howner, hsharing⟩
    · exact absurd hwas hfree
    · exact ⟨other, howner, (evict_shares (closeRoom_closeRoom d) ids hother).mpr hsharing⟩
  · refine ⟨id, rfl, ?_⟩
    rw [State.Shares, evict_sockets (closeRoom_closeRoom c)]
    split
    · rename_i hid
      have hd : ¬ d = c := fun h => hlost ⟨hid, h⟩
      have hne : ¬ (s.sockets id).sharingCrewId = some c := by
        rw [hshares.2]
        exact fun h => hd (Option.some.inj h)
      simp only [closeRoom, if_neg hne]
      exact hshares
    · exact hshares

/-! ## Steps -/

/-- What stops sharing without cleaning up is covered, and nothing is published late. -/
def Covers (clients : Clients) (s : State) : Action → Prop
  | .resume i ok now => ∀ id h, s.handlers[i]? = some (id, h) → h.Covers clients s id ok now
  | .endSession id => ∀ c, s.Shares c id → s.Covered clients id c
  | .advance j =>
      ∀ removal crewId ids, s.requests[j]? = some ⟨removal, crewId, .evict ids⟩ →
        match removal with
        | .member userId => MemberCovers clients s crewId userId ids
        | .crew | .archive => CloseCovers clients s crewId ids
  | _ => True

/-- What a run keeps: whom the sockets know, and whose markers are shown. -/
structure Kept (clients : Clients) (s : State) : Prop where
  owned : Owned clients s
  named : ∀ id, (s.sockets id).Named (clients.owner id)
  marked : Marked clients s

theorem start_kept (members : String → String → Bool) : Kept clients (start members) where
  owned := start_owned members
  named id _ h := by cases h
  marked c u h := by rcases h with h | h <;> cases h

variable {t : State}

/-- The sockets stay as they are, and no more is shown. -/
theorem Kept.of_eq (hs : Kept clients s) (howned : Owned clients t)
    (hsockets : t.sockets = s.sockets) (hshown : ∀ c u, t.Shown c u → s.Shown c u) :
    Kept clients t where
  owned := howned
  named := by
    rw [hsockets]
    exact hs.named
  marked c u h := by
    obtain ⟨id, hid, hshares⟩ := hs.marked c u (hshown c u h)
    refine ⟨id, hid, ?_⟩
    rw [State.Shares, hsockets]
    exact hshares

theorem Kept.take (hs : Kept clients s) (hturn : Tidy clients s id turn)
    (hnamed : turn.socket.Named (clients.owner id)) {handlers : List (String × Handler)}
    (howned : Owned clients { s.take clients id turn with handlers := handlers }) :
    Kept clients { s.take clients id turn with handlers := handlers } where
  owned := howned
  named id' := by
    dsimp only
    rw [take_sockets]
    by_cases hid : id' = id
    · subst hid
      rw [update_self]
      exact hnamed
    · rw [update_of_ne hid]
      exact hs.named id'
  marked := take_marked hs.marked hturn

theorem closeRoom_named (c : String) (k : Socket) (user : String) (hk : k.Named user) :
    (closeRoom c k).socket.Named user := by
  intro hcon hsharing
  simp only [closeRoom] at hsharing
  split at hsharing
  · cases hsharing
  · exact hk hcon hsharing

theorem revokeAccess_named (c u : String) (k : Socket) (user : String) (hk : k.Named user) :
    (revokeAccess c u k).socket.Named user := by
  rw [revokeAccess]
  split
  · rintro - ⟨⟩
  · exact hk

theorem advance_kept (hs : Kept clients s) {j : ℕ} {r : Request} (hr : s.requests[j]? = some r)
    (hcovers : Covers clients s (.advance j)) : Kept clients (s.advance clients j r) := by
  have howned := advance_owned hs.owned j r
  obtain ⟨removal, crewId, stage⟩ := r
  cases stage with
  | remove => cases removal <;> exact hs.of_eq howned rfl fun _ _ h => h
  | fetch => cases removal <;> exact hs.of_eq howned rfl fun _ _ h => h
  | evict ids =>
    have hcovered := hcovers removal crewId ids hr
    cases removal with
    | member userId =>
      exact ⟨howned, evict_named (revokeAccess_named crewId userId) hs.named ids,
        evict_member_marked hs.marked hs.owned hcovered⟩
    | crew =>
      exact ⟨howned, evict_named (closeRoom_named crewId) hs.named ids,
        evict_close_marked hs.marked hcovered⟩
    | archive =>
      exact ⟨howned, evict_named (closeRoom_named crewId) hs.named ids,
        evict_close_marked hs.marked hcovered⟩

theorem step_kept (hs : Kept clients s) (a : Action) (hcovers : Covers clients s a)
    (h : step clients s a = some t) : Kept clients t := by
  have howned := step_owned hs.owned a h
  cases a with
  | event id event =>
    obtain ⟨-, -, rfl⟩ := step_event h
    exact hs.take (onEvent_tidy (hs.named id) event) (onEvent_named (hs.named id) event) howned
  | read i =>
    obtain ⟨id, g, g', -, -, rfl⟩ := step_read h
    exact hs.of_eq howned rfl fun _ _ h => h
  | resume i ok now =>
    obtain ⟨id, g, turn, hg, hturn, rfl⟩ := step_resume h
    refine hs.take (resume_tidy (fun c u stage heq => ?_) (hcovers id g hg) hturn)
      (resume_named (hs.named id) hturn) howned
    subst heq
    exact hs.owned.handler id c u stage (mem_of_getElem? hg)
  | fail i =>
    obtain ⟨id, g, -, -, rfl⟩ := step_fail h
    exact hs.of_eq howned rfl fun _ _ h => h
  | disconnect id =>
    obtain ⟨-, -, rfl⟩ := step_disconnect h
    exact hs.take (onDisconnect_tidy (hs.named id)) (.of_disconnected rfl) howned
  | endSession id =>
    obtain ⟨-, -, rfl⟩ := step_endSession h
    exact hs.take (disconnectSocket_tidy hcovers) (.of_disconnected disconnectSocket_connected)
      howned
  | request crewId removal =>
    obtain rfl := Option.some.inj h
    exact hs.of_eq howned rfl fun _ _ h => h
  | advance j =>
    obtain ⟨r, hr, rfl⟩ := step_advance h
    exact advance_kept hs hr hcovers
  | fetchFails j =>
    obtain ⟨removal, crewId, -, rfl⟩ := step_fetchFails h
    exact hs.of_eq howned rfl fun _ _ h => h
  | expire crewId =>
    obtain rfl := Option.some.inj h
    refine hs.of_eq howned rfl fun c u h => h.imp_right fun hposition => ?_
    simp only [putRow_apply] at hposition
    split at hposition
    · cases hposition
    · exact hposition
  | addMember crewId userId =>
    obtain rfl := Option.some.inj h
    exact hs.of_eq howned rfl fun _ _ h => h

/-- When no socket of a user shares to a crew, the user has no marker there, in every run in which
whatever stops sharing without cleaning up is covered by another socket of the user or not shown,
and updates and shares that were suspended find the crew still shared. -/
theorem no_ghosts {members : String → String → Bool} {as : List Action}
    (hcovers : Machine.Meets (step clients) (Covers clients) (start members) as) :
    Machine.Always (step clients) (NoGhosts clients) (start members) as :=
  Machine.always_of_meets (fun _ a _ hs hC h => step_kept hs a hC h)
    (fun _ hs => hs.marked.noGhosts) (start_kept members) hcovers

end

/-! ## A socket that stops sharing -/

/-- The socket joins a crew and shares a position with it. -/
def sharingRun : List Action :=
  [.event "socket" (.joinCrew "crew"),
    .resume 0 true 0,
    .read 0,
    .resume 0 true 0,
    .event "socket" (.share "crew" true),
    .resume 0 true 0,
    .read 0,
    .resume 0 true 0,
    .resume 0 true 0]

/-- It sends an update before it stops. -/
def stoppingRun : List Action :=
  sharingRun ++
    [.event "socket" (.update "crew"), .resume 0 true 1, .event "socket" (.stop "crew")]

theorem stoppingRun_leaves_no_ghost :
    Machine.Always (step (Clients.single "socket" "user"))
      (NoGhosts (Clients.single "socket" "user")) (start fun _ _ => true) stoppingRun := by
  apply no_ghosts
  simp [stoppingRun, sharingRun, Machine.Meets, step, Covers, Handler.Covers,
    Handler.ValidatesSession, Clients.single, start, Socket.fresh, Socket.onEvent, Socket.wait,
    Socket.join, State.take, State.emit, State.broadcast, Handler.read, Handler.resume,
    InFlight.proceed, enterCrew, register, startSharing, State.Shares, SharingSockets.allows,
    SharingSockets.register, SharingSockets.empty, Keyed.upsert, MAX_CONCURRENT_SHARING_SOCKETS,
    countUpdate, publish, stopSharing, MEMBERSHIP_RECHECK_EVERY_N, MEMBERSHIP_RECHECK_INTERVAL_MS]

/-- The update is suspended when the socket stops, and is published afterwards. -/
theorem update_after_stop :
    ∃ t, Machine.run (step (Clients.single "socket" "user")) (start fun _ _ => true)
        (sharingRun ++
          [.event "socket" (.update "crew"), .event "socket" (.stop "crew"), .resume 0 true 1]) =
          some t ∧
      (t.sockets "socket").sharingCrewId = none ∧ t.positions "crew" "user" = true ∧
      ¬ NoGhosts (Clients.single "socket" "user") t := by
  refine ⟨_, rfl, rfl, rfl, fun h => ?_⟩
  have hnone := (h "crew" "user" fun id howner hshares => ?_).2
  · cases hnone
  · have hid : id = "socket" := by
      by_contra hne
      simp [Clients.single, hne] at howner
    subst hid
    cases hshares.2

end FestivalPlanner.Realtime
