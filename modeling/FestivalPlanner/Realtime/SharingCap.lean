import Mathlib.Data.List.Perm.Subperm
import FestivalPlanner.Realtime.Server

/-!
# How many sockets of a user share

`location:share` registers the socket in a sorted set before it is judged.  A registration expires
after five minutes, although the socket may go on sharing, and is removed on some of the paths that
end the sharing.

* `register_le`, `le_register` — what the length of the sorted set says about the sockets in it;
* `Engaged` — a socket that shares, or that a handler is about to make share;
* `Calm` — a turn that makes no other socket engaged, and judges nobody;
* `cap_is_kept` — at most three sockets of a user share, and a share is refused only when three
  others do, in every run whose registrations find the sorted set to be that of the sharing sockets.
-/

namespace FestivalPlanner.Realtime

open List Option Function

/-! ## The sorted set -/

variable {id : String} {ids : List String} {turn : Turn} {handlers : List (String × Handler)}

namespace SharingSockets

variable {m : SharingSockets} {socketId : String} {now : ℤ}

/-- The socket has a registration that has not expired. -/
def Live (m : SharingSockets) (now : ℤ) (socketId : String) : Prop :=
  ∃ expiry, (socketId, expiry) ∈ m.entries ∧ now < expiry

theorem mem_register :
    id ∈ (m.register socketId now).entries.map Prod.fst ↔ id = socketId ∨ m.Live now id := by
  have hmem : ∀ entry : String × ℤ, entry ∈ (m.register socketId now).entries ↔
      entry = (socketId, now + SHARING_SOCKET_TTL_MS) ∨
        (entry ∈ m.entries ∧ now < entry.2) ∧ entry.1 ≠ socketId := by
    intro entry
    simp [register, (m.unique.filter _).mem_upsert_iff]
  constructor
  · intro h
    obtain ⟨⟨id', expiry⟩, hentry, rfl⟩ := List.mem_map.mp h
    rcases (hmem _).mp hentry with heq | ⟨⟨hin, hlt⟩, -⟩
    · exact .inl (congrArg Prod.fst heq)
    · exact .inr ⟨expiry, hin, hlt⟩
  · intro h
    by_cases hid : id = socketId
    · subst hid
      exact List.mem_map.mpr ⟨_, (hmem _).mpr (.inl rfl), rfl⟩
    · obtain ⟨expiry, hin, hlt⟩ := h.resolve_left hid
      exact List.mem_map.mpr ⟨(id, expiry), (hmem _).mpr (.inr ⟨⟨hin, hlt⟩, hid⟩), rfl⟩

/-- Sockets that are registered when one is allowed are few. -/
theorem register_le (hallows : m.allows socketId now = true) (hids : ids.Nodup)
    (hlive : ∀ id ∈ ids, id = socketId ∨ m.Live now id) :
    ids.length ≤ MAX_CONCURRENT_SHARING_SOCKETS := by
  have hsub : ids ⊆ (m.register socketId now).entries.map Prod.fst := fun id hid =>
    mem_register.mpr (hlive id hid)
  calc ids.length ≤ ((m.register socketId now).entries.map Prod.fst).length :=
        (hids.subperm hsub).length_le
    _ = (m.register socketId now).entries.length := length_map _
    _ ≤ MAX_CONCURRENT_SHARING_SOCKETS := of_decide_eq_true hallows

/-- The other sockets that are registered when one is refused are many. -/
theorem le_register (hallows : m.allows socketId now = false)
    (hlive : ∀ id, m.Live now id → id ≠ socketId → id ∈ ids) :
    MAX_CONCURRENT_SHARING_SOCKETS ≤ ids.length := by
  have hunique : ((m.register socketId now).entries.map Prod.fst).Nodup :=
    (m.register socketId now).unique
  have hself : socketId ∈ (m.register socketId now).entries.map Prod.fst :=
    mem_register.mpr (.inl rfl)
  have hsub : ((m.register socketId now).entries.map Prod.fst).erase socketId ⊆ ids := by
    intro id hid
    obtain ⟨hne, hmem⟩ := (hunique.mem_erase_iff).mp hid
    exact hlive id ((mem_register.mp hmem).resolve_left hne) hne
  have hlength := ((hunique.erase socketId).subperm hsub).length_le
  rw [length_erase_of_mem hself, length_map] at hlength
  have hmore : ¬ (m.register socketId now).entries.length ≤ MAX_CONCURRENT_SHARING_SOCKETS :=
    of_decide_eq_false hallows
  omega

end SharingSockets

/-! ## Turns -/

/-- The turn makes no other socket share than one that shares or is about to, and judges nobody. -/
structure Calm (k : Socket) (admitted : Prop) (turn : Turn) : Prop where
  connected : turn.socket.connected = true → k.connected = true
  sharing : turn.socket.sharingCrewId.isSome = true → k.sharingCrewId.isSome = true ∨ admitted
  effects : ∀ userId now, .registerSharingSocket userId now ∉ turn.effects
  next : ∀ crewId position, turn.next ≠ some (.share crewId position (.register true))

section
variable {k : Socket} {admitted : Prop}

theorem registers_not_mem_leaveFestivalRealtime (userId : String) (now : ℤ) :
    .registerSharingSocket userId now ∉ (leaveFestivalRealtime k).effects := by
  intro h
  obtain ⟨f, -, heq⟩ := eq_setOffline_of_mem h
  cases heq

/-- A turn that keeps or clears what the socket shares. -/
theorem Calm.of_sharing (hcon : turn.socket.connected = k.connected)
    (hsharing : turn.socket.sharingCrewId = k.sharingCrewId ∨ turn.socket.sharingCrewId = none)
    (heffects : ∀ userId now, .registerSharingSocket userId now ∉ turn.effects)
    (hnext : ∀ crewId position, turn.next ≠ some (.share crewId position (.register true))) :
    Calm k admitted turn where
  connected h := hcon ▸ h
  sharing h := by
    rcases hsharing with heq | heq
    · exact .inl (heq ▸ h)
    · rw [heq] at h
      cases h
  effects := heffects
  next := hnext

theorem onDisconnect_calm : Calm k admitted (onDisconnect k) where
  connected h := by cases h
  sharing h := .inl h
  effects userId now := by
    simp only [onDisconnect]
    split <;> simp [removeSocketPresence]
  next crewId position := by simp [onDisconnect]

theorem disconnectSocket_sharingCrewId :
    (disconnectSocket k).socket.sharingCrewId = k.sharingCrewId := by
  cases hc : k.connected <;>
    simp [disconnectSocket, hc, clearSocketSession, onDisconnect,
      leaveFestivalRealtime_sharingCrewId]

theorem disconnectSocket_calm : Calm k admitted (disconnectSocket k) where
  connected h := by
    rw [disconnectSocket_connected] at h
    cases h
  sharing h := .inl (disconnectSocket_sharingCrewId ▸ h)
  effects userId now := by
    rw [disconnectSocket_effects]
    exact registers_not_mem_leaveFestivalRealtime userId now
  next crewId position := by simp [disconnectSocket_next]

theorem leaveFestival_calm : Calm k admitted (leaveFestival k) :=
  .of_sharing leaveFestivalRealtime_connected (.inl leaveFestivalRealtime_sharingCrewId)
    registers_not_mem_leaveFestivalRealtime
    fun _ _ h => by cases leaveFestivalRealtime_next.symm.trans h

theorem stopSharing_calm (crewId : String) : Calm k admitted (stopSharing crewId k) := by
  simp only [stopSharing]
  split
  · refine .of_sharing rfl ?_ (fun userId now h => ?_) (by simp)
    · dsimp only
      split <;> simp
    · cases k.userId <;> simp at h
      all_goals split at h <;> simp at h
  · exact .of_sharing rfl (.inl rfl) (by simp [Socket.pass]) (by simp [Socket.pass])

theorem closeRoom_calm (crewId : String) : Calm k admitted (closeRoom crewId k) := by
  refine .of_sharing rfl ?_ (by simp [closeRoom]) (by simp [closeRoom])
  simp only [closeRoom]
  split
  · exact .inr rfl
  · exact .inl rfl

theorem revokeAccess_calm (crewId userId : String) :
    Calm k admitted (revokeAccess crewId userId k) := by
  simp only [revokeAccess]
  split
  · refine .of_sharing rfl (.inr rfl) (fun u now h => ?_) (by simp)
    split at h <;> simp at h
  · exact .of_sharing rfl (.inl rfl) (by simp [Socket.pass]) (by simp [Socket.pass])

theorem onEvent_calm (event : Event) : Calm k admitted (k.onEvent event) := by
  rcases onEvent_cases k event with rfl | ⟨crewId, rfl⟩ | ⟨next, heq, hstarts⟩
  · exact leaveFestival_calm
  · exact stopSharing_calm crewId
  · rw [heq]
    refine .of_sharing rfl (.inl rfl) (fun _ _ => not_mem_nil) fun crewId position h => ?_
    cases (hstarts _ h).1

/-- A handler registers the socket, or its turn is calm. -/
theorem resume_calm {user : String} {ok allowed : Bool} {now : ℤ} {h : Handler}
    (hturn : h.resume user ok allowed now k = some turn) :
    (∃ c p, h = .share c p (.member (some true)) ∧ turn = register user c p allowed now k) ∨
      Calm k (∃ c p, h = .share c p (.register true)) turn := by
  cases resume_cases hturn with
  | register c p => exact .inl ⟨c, p, rfl, rfl⟩
  | pass => exact .inr (.of_sharing rfl (.inl rfl) (by simp [Socket.pass]) (by simp [Socket.pass]))
  | ended => exact .inr disconnectSocket_calm
  | wait _ hnext =>
    refine .inr (.of_sharing rfl (.inl rfl) (by simp [Socket.wait]) fun c p h => ?_)
    obtain rfl := some.inj h
    cases hnext
  | enterFestival =>
    exact .inr (.of_sharing leaveFestivalRealtime_connected
      (.inl leaveFestivalRealtime_sharingCrewId) registers_not_mem_leaveFestivalRealtime
      (by simp [enterFestival]))
  | setPresence =>
    exact .inr (.of_sharing rfl (.inl rfl) (by simp [setPresence]) (by simp [setPresence]))
  | enterCrew c =>
    obtain ⟨rooms, -, heq⟩ := enterCrew_socket (k := k) c
    exact .inr (.of_sharing (by rw [heq]; rfl) (.inl (by rw [heq]; rfl)) (by simp [enterCrew])
      (by simp [enterCrew]))
  | quitCrew c =>
    refine .inr ?_
    simp only [quitCrew]
    split
    · exact .of_sharing rfl (.inr rfl) (by simp) (by simp)
    · exact .of_sharing rfl (.inl rfl) (by simp [Socket.pass]) (by simp [Socket.pass])
  | startSharing c p =>
    refine .inr ⟨fun h => h, fun _ => .inr ⟨c, p, rfl⟩, fun u n h => ?_, by simp [startSharing]⟩
    cases p <;> simp [startSharing] at h
  | countUpdate =>
    refine .inr ?_
    simp only [countUpdate]
    split
    · exact .of_sharing rfl (.inl rfl) (by simp [Socket.wait]) (by simp [Socket.wait])
    · exact .of_sharing rfl (.inl rfl) (by simp [publish]) (by simp [publish])
  | publish => exact .inr (.of_sharing rfl (.inl rfl) (by simp [publish]) (by simp [publish]))
  | revoke => exact .inr (.of_sharing rfl (.inr rfl) (by simp [revoke]) (by simp [revoke]))

end

/-! ## The invariant -/

section
variable (clients : Clients)

/-- The socket shares, or a handler has been allowed to make it share. -/
def State.Engaged (s : State) (id : String) : Prop :=
  (s.sockets id).connected = true ∧
    ((s.sockets id).sharingCrewId.isSome = true ∨
      ∃ crewId position, (id, Handler.share crewId position (.register true)) ∈ s.handlers)

/-- Few sockets of a user are engaged, and whoever was refused was one too many. -/
structure Capped (s : State) : Prop where
  engaged : ∀ userId (ids : List String), ids.Nodup →
    (∀ id ∈ ids, id ∈ clients.ids ∧ clients.owner id = userId ∧ s.Engaged id) →
      ids.length ≤ MAX_CONCURRENT_SHARING_SOCKETS
  refusals : ∀ ids ∈ s.refusals, MAX_CONCURRENT_SHARING_SOCKETS ≤ ids.length

/-- At most three sockets of a user share, and a share is refused only when three others do. -/
def CapKept (s : State) : Prop :=
  (∀ userId, (s.sharers clients userId).length ≤ MAX_CONCURRENT_SHARING_SOCKETS) ∧
    ∀ ids ∈ s.refusals, MAX_CONCURRENT_SHARING_SOCKETS ≤ ids.length

theorem Capped.capKept {clients : Clients} {s : State} (hs : Capped clients s) :
    CapKept clients s := by
  refine ⟨fun userId => hs.engaged userId _ (clients.nodup.filter _) fun id hid => ?_, hs.refusals⟩
  obtain ⟨hclient, hshares⟩ := mem_filter.mp hid
  obtain ⟨howner, hcon, hsharing⟩ := of_decide_eq_true hshares
  exact ⟨hclient, howner, hcon, .inl hsharing⟩

/-- When a socket is allowed, all others that are engaged have a registration that has not expired;
when one is refused, all such registrations are of sockets that share. -/
def Registered (s : State) : Action → Prop
  | .resume i _ now =>
      ∀ id crewId position, s.handlers[i]? = some (id, .share crewId position (.member (some true))) →
        if (s.sharing (clients.owner id)).allows id now then
          ∀ other ∈ clients.ids, other ≠ id → clients.owner other = clients.owner id →
            s.Engaged other → (s.sharing (clients.owner id)).Live now other
        else
          ∀ other, other ≠ id → (s.sharing (clients.owner id)).Live now other →
            other ∈ s.sharers clients (clients.owner id)
  | _ => True

end

/-! ## Steps -/

section
variable {clients : Clients} {s t : State}

theorem start_capped (members : String → String → Bool) : Capped clients (start members) where
  engaged userId ids _ hids := by
    cases ids with
    | nil => exact Nat.zero_le _
    | cons id ids =>
      obtain ⟨-, -, -, h⟩ := hids id mem_cons_self
      rcases h with h | ⟨c, p, h⟩ <;> cases h
  refusals ids h := by cases h

/-- No socket is engaged that was not, and nobody is refused. -/
theorem Capped.mono (hs : Capped clients s) (hengaged : ∀ id, t.Engaged id → s.Engaged id)
    (hrefusals : t.refusals = s.refusals) : Capped clients t where
  engaged userId ids hids h := hs.engaged userId ids hids fun id hid =>
    ⟨(h id hid).1, (h id hid).2.1, hengaged id (h id hid).2.2⟩
  refusals := by
    rw [hrefusals]
    exact hs.refusals

theorem take_refusals (heffects : ∀ userId now, .registerSharingSocket userId now ∉ turn.effects) :
    (s.take clients id turn).refusals = s.refusals := by
  refine take_induct (P := fun m => m.refusals = _) rfl fun m e he hm => ?_
  cases e with
  | registerSharingSocket userId now => exact absurd he (heffects userId now)
  | _ => exact hm

/-- A calm turn of a socket whose handler, if admitted, was under way. -/
theorem Capped.take (hs : Capped clients s) {admitted : Prop}
    (hcalm : Calm (s.sockets id) admitted turn)
    (hadmitted : admitted → ∃ c p, (id, Handler.share c p (.register true)) ∈ s.handlers)
    (hhandlers : ∀ p ∈ handlers, p ∈ s.handlers ∨ turn.next.map (fun h => (id, h)) = some p) :
    Capped clients { s.take clients id turn with handlers := handlers } := by
  refine hs.mono (fun id' h => ?_) (take_refusals hcalm.effects)
  obtain ⟨hcon, hwhy⟩ := h
  simp only [take_sockets] at hcon hwhy
  have hpending : (∃ c p, (id', Handler.share c p (.register true)) ∈ handlers) →
      ∃ c p, (id', Handler.share c p (.register true)) ∈ s.handlers := by
    rintro ⟨c, p, hmem⟩
    refine ⟨c, p, (hhandlers _ hmem).resolve_right fun hnext => ?_⟩
    obtain ⟨g, hg, heq⟩ := map_eq_some_iff.mp hnext
    cases heq
    exact hcalm.next c p hg
  by_cases hid : id' = id
  · subst hid
    rw [update_self] at hcon hwhy
    refine ⟨hcalm.connected hcon, ?_⟩
    rcases hwhy with hsharing | hwaits
    · exact (hcalm.sharing hsharing).imp_right hadmitted
    · exact .inr (hpending hwaits)
  · rw [update_of_ne hid] at hcon hwhy
    exact ⟨hcon, hwhy.imp_right hpending⟩

/-- A socket that is registered, and judged by the sorted set of the sockets that share. -/
theorem Capped.register (hs : Capped clients s) {crewId : String} {position : Bool} {now : ℤ}
    (hallowed : (s.sharing (clients.owner id)).allows id now = true →
      ∀ other ∈ clients.ids, other ≠ id → clients.owner other = clients.owner id →
        s.Engaged other → (s.sharing (clients.owner id)).Live now other)
    (hrefused : (s.sharing (clients.owner id)).allows id now = false →
      ∀ other, other ≠ id → (s.sharing (clients.owner id)).Live now other →
        other ∈ s.sharers clients (clients.owner id))
    (hhandlers : ∀ p ∈ handlers, p ∈ s.handlers ∨
      p = (id, .share crewId position
        (.register ((s.sharing (clients.owner id)).allows id now)))) :
    Capped clients
      { s.take clients id
          (Realtime.register (clients.owner id) crewId position
            ((s.sharing (clients.owner id)).allows id now) now (s.sockets id)) with
        handlers := handlers } := by
  set m := s.sharing (clients.owner id) with hm
  have hsockets : update s.sockets id (s.sockets id) = s.sockets :=
    update_eq_self id s.sockets
  have hengaged : ∀ other, other ≠ id ∨ m.allows id now = false →
      State.Engaged
        { s.take clients id
            (Realtime.register (clients.owner id) crewId position (m.allows id now) now
              (s.sockets id)) with
          handlers := handlers } other → s.Engaged other := by
    rintro other hother ⟨hcon, hwhy⟩
    simp only [take_sockets, Realtime.register, hsockets] at hcon hwhy
    refine ⟨hcon, hwhy.imp_right ?_⟩
    rintro ⟨c, p, hmem⟩
    refine ⟨c, p, (hhandlers _ hmem).resolve_right fun heq => ?_⟩
    rcases hother with hne | hallows
    · exact hne (congrArg Prod.fst heq)
    · rw [hallows] at heq
      cases heq
  constructor
  · intro userId ids hids h
    cases hallows : m.allows id now
    · exact hs.engaged userId ids hids fun other hmem =>
        ⟨(h other hmem).1, (h other hmem).2.1, hengaged other (.inr hallows) (h other hmem).2.2⟩
    · by_cases hid : id ∈ ids
      · have huser : clients.owner id = userId := (h id hid).2.1
        refine m.register_le hallows hids fun other hmem => ?_
        by_cases hother : other = id
        · exact .inl hother
        · obtain ⟨hclient, howner, heng⟩ := h other hmem
          exact .inr (hallowed hallows other hclient hother (howner.trans huser.symm)
            (hengaged other (.inl hother) heng))
      · exact hs.engaged userId ids hids fun other hmem =>
          ⟨(h other hmem).1, (h other hmem).2.1,
            hengaged other (.inl fun heq => hid (heq ▸ hmem)) (h other hmem).2.2⟩
  · intro ids hids
    have hsharers : State.sharers clients
        { s with sockets := update s.sockets id (s.sockets id) } (clients.owner id) =
          s.sharers clients (clients.owner id) := by
      rw [hsockets]
    simp only [State.take, Realtime.register, foldl_cons, foldl_nil, State.emit] at hids
    rw [← hm, hsharers] at hids
    cases hallows : m.allows id now
    · rw [hallows] at hids
      rcases mem_cons.mp hids with rfl | hids
      · refine m.le_register hallows fun other hlive hother => ?_
        exact (mem_erase_of_ne hother).mpr (hrefused hallows other hother hlive)
      · exact hs.refusals ids hids
    · rw [hallows] at hids
      exact hs.refusals ids hids

theorem Capped.evict (hs : Capped clients s) {f : Socket → Turn}
    (hf : ∀ k, Calm k False (f k) ∧ (f k).next = none) (ids : List String) :
    Capped clients (s.evict clients f ids) := by
  refine evict_induct hs fun m id _ hm => ?_
  exact hm.take (hf (m.sockets id)).1 False.elim fun p hp => .inl (mem_take_handlers.mp hp)

theorem advance_capped (hs : Capped clients s) (j : ℕ) (r : Request) :
    Capped clients (s.advance clients j r) := by
  obtain ⟨removal, crewId, stage⟩ := r
  cases stage with
  | remove => cases removal <;> exact hs.mono (fun _ h => h) rfl
  | fetch => cases removal <;> exact hs.mono (fun _ h => h) rfl
  | evict ids =>
    have hclose := hs.evict (fun k => ⟨closeRoom_calm crewId, rfl⟩) ids
    cases removal with
    | member userId =>
      have hrevoke := hs.evict
        (fun k => ⟨revokeAccess_calm crewId userId, (revokeAccess_userId crewId userId k).2⟩) ids
      exact hrevoke.mono (fun _ h => h) rfl
    | crew => exact hclose.mono (fun _ h => h) rfl
    | archive => exact hclose.mono (fun _ h => h) rfl

/-- Every step keeps the cap, when the registrations are those of the sockets that share. -/
theorem step_capped (hs : Capped clients s) (a : Action) (hregistered : Registered clients s a)
    (h : step clients s a = some t) : Capped clients t := by
  cases a with
  | event id event =>
    obtain ⟨-, -, rfl⟩ := step_event h
    refine hs.take (onEvent_calm event) False.elim fun p hp => ?_
    exact (mem_append.mp hp).imp_right fun hp => mem_toList.mp hp
  | read i =>
    obtain ⟨id, g, g', hg, hread, rfl⟩ := step_read h
    refine hs.mono (fun id' hengaged => ⟨hengaged.1, hengaged.2.imp_right ?_⟩) rfl
    rintro ⟨c, p, hmem⟩
    refine ⟨c, p, (mem_or_eq_of_mem_set hmem).resolve_right fun heq => ?_⟩
    cases heq
    cases read_cases hread
  | resume i ok now =>
    obtain ⟨id, g, turn, hg, hturn, rfl⟩ := step_resume h
    rcases resume_calm hturn with ⟨c, p, rfl, rfl⟩ | hcalm
    · have hif := hregistered id c p hg
      refine hs.register (fun hallows => ?_) (fun hallows => ?_) fun q hq => ?_
      · rwa [if_pos hallows] at hif
      · rwa [if_neg (by simp [hallows])] at hif
      · exact (InFlight.mem_proceed_cases hq).imp_right fun heq => (some.inj heq).symm
    · refine hs.take hcalm ?_ fun p hp => InFlight.mem_proceed_cases hp
      rintro ⟨c, p, rfl⟩
      exact ⟨c, p, mem_of_getElem? hg⟩
  | fail i =>
    obtain ⟨id, g, -, -, rfl⟩ := step_fail h
    refine hs.mono (fun id' hengaged => ⟨hengaged.1, hengaged.2.imp_right ?_⟩) rfl
    rintro ⟨c, p, hmem⟩
    exact ⟨c, p, mem_of_mem_eraseIdx hmem⟩
  | disconnect id =>
    obtain ⟨-, -, rfl⟩ := step_disconnect h
    exact hs.take onDisconnect_calm False.elim fun p hp =>
      .inl (mem_take_handlers.mp hp)
  | endSession id =>
    obtain ⟨-, -, rfl⟩ := step_endSession h
    exact hs.take disconnectSocket_calm False.elim fun p hp =>
      .inl (mem_take_handlers.mp hp)
  | request crewId removal =>
    obtain rfl := some.inj h
    exact hs.mono (fun _ h => h) rfl
  | advance j =>
    obtain ⟨r, -, rfl⟩ := step_advance h
    exact advance_capped hs j r
  | fetchFails j =>
    obtain ⟨removal, crewId, -, rfl⟩ := step_fetchFails h
    exact hs.mono (fun _ h => h) rfl
  | expire crewId =>
    obtain rfl := some.inj h
    exact hs.mono (fun _ h => h) rfl
  | addMember crewId userId =>
    obtain rfl := some.inj h
    exact hs.mono (fun _ h => h) rfl

/-- At most three sockets of a user share, and a share is refused only when three others do, in
every run whose registrations find the sorted set to be that of the sharing sockets. -/
theorem cap_is_kept {members : String → String → Bool} {as : List Action}
    (hregistered : Machine.Meets (step clients) (Registered clients) (start members) as) :
    Machine.Always (step clients) (CapKept clients) (start members) as :=
  Machine.always_of_meets (fun _ a _ hs hC h => step_capped hs a hC h) (fun _ hs => hs.capKept)
    (start_capped members) hregistered

end

/-! ## Four sockets -/

def fourSockets : Clients :=
  { ids := ["a", "b", "c", "d"]
    nodup := by decide
    owner := fun _ => "user" }

/-- The socket joins the crew and shares to it. -/
def sharingActions (id : String) (now : ℤ) : List Action :=
  [.event id (.joinCrew "crew"),
    .resume 0 true now,
    .read 0,
    .resume 0 true now,
    .event id (.share "crew" true),
    .resume 0 true now,
    .read 0,
    .resume 0 true now,
    .resume 0 true now]

theorem two_sockets_keep_cap :
    Machine.Always (step fourSockets) (CapKept fourSockets) (start fun _ _ => true)
      (sharingActions "a" 0 ++ sharingActions "b" 1) := by
  apply cap_is_kept
  simp [sharingActions, Machine.Meets, step, Registered, fourSockets, start, Socket.fresh,
    Socket.onEvent, Socket.wait, Socket.join, State.take, State.emit, State.broadcast,
    Handler.read, Handler.resume, InFlight.proceed, enterCrew, register, startSharing,
    SharingSockets.allows, SharingSockets.register, SharingSockets.empty, Keyed.upsert,
    SharingSockets.Live, State.Engaged, MAX_CONCURRENT_SHARING_SOCKETS, SHARING_SOCKET_TTL_MS]

/-- The registrations of three sockets expire while they share, and the fourth one is allowed. -/
theorem fourth_socket_shares :
    ∃ t, Machine.run (step fourSockets) (start fun _ _ => true)
        (sharingActions "a" 0 ++ sharingActions "b" 0 ++ sharingActions "c" 0 ++
          sharingActions "d" SHARING_SOCKET_TTL_MS) = some t ∧
      t.sharers fourSockets "user" = ["a", "b", "c", "d"] ∧ ¬ CapKept fourSockets t := by
  refine ⟨_, rfl, rfl, fun h => ?_⟩
  have hfour : 4 ≤ 3 := h.1 "user"
  omega

end FestivalPlanner.Realtime
