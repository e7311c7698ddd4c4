import FestivalPlanner.Lib.Machine
import Mathlib.Data.Rat.Defs

/-!
# Sharing the live location

The publisher `useLiveLocationPublisher` and the control `CrewLiveLocation` around it, with the
socket that `useRealtimeSync` replaces under both.

* `State.startSession`, `State.stop`, `State.teardownLocal` — the effect of the publisher;
* `Action`, `step` — an opt-in, and whatever the device, the server and the app do then;
* `Honest` — what was announced is within the time that the user chose, and the control shows
  sharing only while a session is live;
* `honest_iff` — all states of a run are honest exactly when its steps are `Kind`.

React renders and runs effects at once; `movedFar` is the distance check of the throttle, which
is in floating point.
-/

namespace FestivalPlanner.LiveSharing

open Option

/-! ## The publisher -/

structure Coord where
  lat : ℚ
  lng : ℚ
  deriving DecidableEq

/-- `GeoFix` -/
structure GeoFix extends Coord where
  accuracy : Option ℚ := none
  heading : Option ℚ := none
  speed : Option ℚ := none
  battery : Option ℚ := none
  lowPower : Option Bool := none
  capturedAt : Option ℤ := none

inductive Message where
  | share (crewId : String) (expiresAt : ℤ)
  | update (crewId : String) (fix : GeoFix) (expiresAt capturedAt : ℤ)
  | stop (crewId : String)

/-- The expiry that a message announces. -/
@[grind =] def Message.expiresAt? : Message → Option ℤ
  | .share _ e => some e
  | .update _ _ e _ => some e
  | .stop _ => none

/-- A message that was emitted, and whether sharing had ended by then. -/
structure Sent where
  at_ : ℤ
  message : Message
  ended : Bool

/-- The publisher's part of `liveLocationStore`. -/
structure Store where
  crewId : Option String
  sharingCrewId : Option String
  sharingExpiresAt : Option ℤ
  lastSentAt : Option ℤ
  lastSentCoord : Option Coord

def Store.empty (crewId : Option String) : Store :=
  { crewId := crewId
    sharingCrewId := none
    sharingExpiresAt := none
    lastSentAt := none
    lastSentCoord := none }

def Store.setActiveCrew (s : Store) (crewId : Option String) : Store :=
  if s.crewId = crewId then s else .empty crewId

def Store.startSharing (_ : Store) (crewId : String) (expiresAt : ℤ) : Store :=
  { crewId := some crewId
    sharingCrewId := some crewId
    sharingExpiresAt := some expiresAt
    lastSentAt := none
    lastSentCoord := none }

def Store.stopSharing (s : Store) : Store := .empty s.crewId

/-- A run of the publisher's effect whose `stopped` is false.  The cleanup stops the session
before the effect runs again, so there is one at most. -/
structure Session where
  id : ℕ
  crewId : String
  /-- `sessionExpiresAt` -/
  expiresAt : ℤ
  /-- When `sessionTimer` is due. -/
  timerAt : ℤ

structure Socket where
  connected : Bool

/-- An opt-in: its time and the bound that it sets. -/
structure OptIn where
  at_ : ℤ
  bound : ℤ

structure State where
  now : ℤ
  socket : Option Socket
  /-- The properties and the state of the control. -/
  crewId : String
  mounted : Bool
  sharing : Bool
  choosing : Bool
  durationMs : Option ℤ
  expiresAt : Option ℤ
  /-- The session that is live. -/
  live : Option Session
  nextId : ℕ
  store : Store
  /-- What was emitted, the opt-in, and whether sharing has ended since. -/
  sent : List Sent
  optIn : Option OptIn
  ended : Bool

/-- `LIVE_LOCATION.MAX_SESSION_MS` -/
def maxSessionMs : ℤ := 3600000

/-- `LIVE_LOCATION.UPDATE_INTERVAL_MS` -/
def updateIntervalMs : ℤ := 10000

/-- The time-box of a session. -/
def cap (durationMs : Option ℤ) : ℤ :=
  match durationMs with
  | some d => if 0 < d then d else maxSessionMs
  | none => maxSessionMs

/-- How long `setTimeout` waits: a delay of more than 31 bits is 1. -/
def timeout (ms : ℤ) : ℤ := if ms ≤ 2147483647 then ms else 1

@[grind =] def State.emit (s : State) (message : Message) : State :=
  { s with sent := s.sent ++ [⟨s.now, message, s.ended⟩] }

/-- The effect of the publisher, with a socket. -/
def State.startSession (s : State) : State :=
  let sessionExpiresAt := s.now + cap s.durationMs
  { s with
    store := s.store.startSharing s.crewId sessionExpiresAt
    live := some
      { id := s.nextId
        crewId := s.crewId
        expiresAt := sessionExpiresAt
        timerAt := s.now + timeout (cap s.durationMs) }
    nextId := s.nextId + 1 }.emit (.share s.crewId sessionExpiresAt)

def State.teardownLocal (s : State) : State :=
  { s with live := none, store := s.store.stopSharing }

def State.isConnected (s : State) : Bool :=
  match s.socket with
  | some socket => socket.connected
  | none => false

/-- `stop`, the cleanup of the effect. -/
def State.stop (s : State) : State :=
  match s.live with
  | none => s
  | some session => (if s.isConnected then s.emit (.stop session.crewId) else s).teardownLocal

/-- `if (!enabled || !socket || !crewId) return;` and the rest of the effect. -/
@[grind =] def State.runEffect (s : State) : State :=
  if s.sharing && s.socket.isSome && s.crewId ≠ "" then s.startSession else s

/-- `resetShare`; the effect is cleaned up when `enabled` changes. -/
def State.resetShare (s : State) : State :=
  if s.sharing then
    { s with
      sharing := false
      choosing := false
      durationMs := none
      expiresAt := none
      ended := true }.stop
  else { s with choosing := false, durationMs := none, expiresAt := none }

section Throttle

variable (movedFar : Coord → Coord → Bool)

def shouldPublishLocation (prev : Option Coord) (next : Coord) (lastSentAt : Option ℤ)
    (now : ℤ) : Bool :=
  match prev, lastSentAt with
  | some p, some sentAt => updateIntervalMs ≤ now - sentAt || movedFar p next
  | _, _ => true

/-- A fix of the live session. -/
def State.publish (s : State) (session : Session) (fix : GeoFix) : State :=
  if shouldPublishLocation movedFar s.store.lastSentCoord fix.toCoord s.store.lastSentAt s.now then
    let s := s.emit
      (.update session.crewId fix session.expiresAt (fix.capturedAt.getD s.now))
    { s with store := { s.store with lastSentCoord := some fix.toCoord, lastSentAt := some s.now } }
  else s

end Throttle

/-! ## The app around it -/

@[grind =] def State.disconnect (s : State) : State := { s with socket := s.socket.map (fun _ => ⟨false⟩) }

/-- The cleanup of `useRealtimeSync`, if it has a socket. -/
def State.closeSocket (s : State) : State :=
  if s.socket.isNone then s
  else
    let s' :=
      match s.isConnected, s.store.sharingCrewId with
      | true, some crewId => s.emit (.stop crewId)
      | _, _ => s
    { s' with store := s'.store.stopSharing }.disconnect

/-- `useRealtimeSync` when the app goes to the background. -/
def State.suspend (s : State) : State :=
  if s.isConnected then
    match s.store.sharingCrewId with
    | some crewId => { s.emit (.stop crewId) with store := s.store.stopSharing }.disconnect
    | none => s.disconnect
  else s

inductive Action where
  /-- `startSharing`, with the permission granted. -/
  | optIn (now : ℤ) (durationMs : Option ℤ)
  /-- The watcher of a session reports a fix. -/
  | fix (now : ℤ) (id : ℕ) (fix : GeoFix)
  /-- The watcher of some session fails. -/
  | watchError (now : ℤ)
  | connect (now : ℤ)
  | disconnect
  /-- The live socket is replaced: a new token, festival or active crew, or a sign-out. -/
  | replaceSocket (now : ℤ) (socket : Option Socket) (activeCrew : Option String)
  /-- The acknowledgement of a `location:share` of a session. -/
  | ack (id : ℕ) (ok : Bool)
  | timer (now : ℤ) (id : ℕ)
  | switchOff (now : ℤ)
  | background (now : ℤ)
  | changeCrew (now : ℤ) (crewId : String)
  | unmount (now : ℤ)
  /-- Someone else resets the store. -/
  | stopStore
  | setActiveCrew (crewId : Option String)

/-- The time of an action. -/
def Action.now? : Action → Option ℤ
  | .optIn now _ | .fix now _ _ | .watchError now | .connect now | .replaceSocket now _ _
  | .timer now _ | .switchOff now | .background now | .changeCrew now _ | .unmount now => some now
  | .disconnect | .ack _ _ | .stopStore | .setActiveCrew _ => none

variable (movedFar : Coord → Coord → Bool)

/-- An action, at the time of the state. -/
def act (s : State) : Action → Option State
  | .optIn _ durationMs =>
      if s.mounted && s.optIn.isNone then
        some { s with
          sharing := true
          choosing := false
          durationMs := durationMs
          expiresAt := some (s.now + cap durationMs)
          optIn := some ⟨s.now, cap durationMs⟩
          ended := false }.runEffect
      else none
  | .fix _ id fix =>
      match s.live with
      | some session => some (if session.id = id then s.publish movedFar session fix else s)
      | none => some s
  | .watchError _ => some s.resetShare
  | .connect _ =>
      let s := { s with socket := s.socket.map (fun _ => ⟨true⟩) }
      match s.live with
      | some session => some (s.emit (.share session.crewId session.expiresAt))
      | none => some s
  | .disconnect => some s.disconnect
  | .replaceSocket _ socket activeCrew =>
      let s := s.closeSocket
      some { { s with store := s.store.setActiveCrew activeCrew }.stop with
        socket := socket }.runEffect
  | .ack id ok =>
      match s.live with
      | some session =>
          some (if session.id = id && !ok then { s with ended := true }.teardownLocal else s)
      | none => some s
  | .timer _ id =>
      match s.live with
      | some session =>
          if session.id = id ∧ session.timerAt ≤ s.now then some s.stop.resetShare else none
      | none => none
  | .switchOff _ => some s.resetShare
  | .background _ => some s.suspend.resetShare
  | .changeCrew _ crewId =>
      -- The effect runs once for the new crew before the reset is rendered.
      if crewId = s.crewId then some s
      else some { s.stop with crewId := crewId }.runEffect.resetShare
  | .unmount _ => some { s.stop with mounted := false, sharing := false, ended := true }
  | .stopStore => some { s with store := s.store.stopSharing }
  | .setActiveCrew crewId => some { s with store := s.store.setActiveCrew crewId }

/-- Time does not run backwards. -/
def step (s : State) (a : Action) : Option State :=
  match a.now? with
  | none => act movedFar s a
  | some now => if s.now ≤ now then act movedFar { s with now := now } a else none

/-- The control of a crew, before any opt-in. -/
def start (now : ℤ) (crewId : String) (socket : Option Socket) : State :=
  { now := now
    socket := socket
    crewId := crewId
    mounted := true
    sharing := false
    choosing := false
    durationMs := none
    expiresAt := none
    live := none
    nextId := 0
    store := .empty (some crewId)
    sent := []
    optIn := none
    ended := false }

/-! ## Honesty -/

/-- Nothing was announced but within the bound of the opt-in, with its expiry, and before
sharing ended. -/
def Bounded (optIn : Option OptIn) (sent : List Sent) : Prop :=
  ∀ m ∈ sent, ∀ e, m.message.expiresAt? = some e →
    ∃ o, optIn = some o ∧ m.at_ ≤ o.at_ + o.bound ∧ e = o.at_ + o.bound ∧ m.ended = false

structure Honest (s : State) : Prop where
  bounded : Bounded s.optIn s.sent
  shown : s.sharing = true → s.live.isSome = true

/-- The socket is there at the opt-in and stays while the control shows sharing, no share is
rejected, and a due timer runs before the next fix or reconnect. -/
def Undisturbed (s : State) : Action → Prop
  | .optIn _ _ => s.socket.isSome = true ∧ s.crewId ≠ ""
  | .fix now id fix =>
      match s.live with
      | some session =>
          session.id = id →
            shouldPublishLocation movedFar s.store.lastSentCoord fix.toCoord s.store.lastSentAt
              now = true →
            now ≤ session.expiresAt
      | none => True
  | .connect now =>
      match s.live with
      | some session => now ≤ session.expiresAt
      | none => True
  | .replaceSocket now socket _ =>
      s.sharing = true → socket.isSome = true ∧ s.optIn.map OptIn.at_ = some now
  | .ack id ok =>
      match s.live with
      | some session => session.id = id → ok = true
      | none => True
  | .changeCrew now crewId =>
      s.sharing = true → crewId ≠ s.crewId → crewId ≠ "" → s.optIn.map OptIn.at_ = some now
  | _ => True

/-! ## What the operations keep -/

theorem cap_pos (durationMs : Option ℤ) : 0 < cap durationMs := by
  unfold cap
  split
  · split_ifs with h
    · exact h
    · decide
  · decide

variable {s t : State}

/-- An announcement is bounded; a stop announces nothing. -/
theorem bounded_emit {o : Option OptIn} {message : Message} :
    Bounded o (s.emit message).sent ↔ Bounded o s.sent ∧
      ∀ e, message.expiresAt? = some e →
        ∃ p, o = some p ∧ s.now ≤ p.at_ + p.bound ∧ e = p.at_ + p.bound ∧ s.ended = false := by
  simp [Bounded, State.emit, or_imp, forall_and]

/-- What an operation that only stops leaves alone. -/
structure Quiet (s t : State) : Prop where
  now : t.now = s.now
  socket : t.socket.isSome = s.socket.isSome
  crewId : t.crewId = s.crewId
  sharing : t.sharing = s.sharing
  durationMs : t.durationMs = s.durationMs
  optIn : t.optIn = s.optIn
  ended : t.ended = s.ended
  bounded : ∀ o, Bounded o t.sent ↔ Bounded o s.sent

theorem quiet_stop (s : State) : Quiet s s.stop ∧ s.stop.live = none := by
  unfold State.stop
  split
  · rename_i h
    exact ⟨⟨rfl, rfl, rfl, rfl, rfl, rfl, rfl, fun _ => Iff.rfl⟩, h⟩
  · split_ifs
    · refine ⟨⟨rfl, rfl, rfl, rfl, rfl, rfl, rfl, fun o => ?_⟩, rfl⟩
      exact bounded_emit.trans (by simp [Message.expiresAt?])
    · exact ⟨⟨rfl, rfl, rfl, rfl, rfl, rfl, rfl, fun _ => Iff.rfl⟩, rfl⟩

theorem quiet_closeSocket (s : State) :
    Quiet s s.closeSocket ∧ s.closeSocket.live = s.live := by
  unfold State.closeSocket
  split_ifs
  · exact ⟨⟨rfl, rfl, rfl, rfl, rfl, rfl, rfl, fun _ => Iff.rfl⟩, rfl⟩
  · split
    · refine ⟨⟨rfl, by simp [State.disconnect, State.emit], rfl, rfl, rfl, rfl, rfl, fun o => ?_⟩, rfl⟩
      exact bounded_emit.trans (by simp [Message.expiresAt?])
    · exact ⟨⟨rfl, by simp [State.disconnect], rfl, rfl, rfl, rfl, rfl, fun _ => Iff.rfl⟩, rfl⟩

theorem quiet_suspend (s : State) : Quiet s s.suspend ∧ s.suspend.live = s.live := by
  unfold State.suspend
  split_ifs
  · split
    · refine ⟨⟨rfl, by simp [State.disconnect, State.emit], rfl, rfl, rfl, rfl, rfl, fun o => ?_⟩, rfl⟩
      exact bounded_emit.trans (by simp [Message.expiresAt?])
    · exact ⟨⟨rfl, by simp [State.disconnect], rfl, rfl, rfl, rfl, rfl, fun _ => Iff.rfl⟩, rfl⟩
  · exact ⟨⟨rfl, rfl, rfl, rfl, rfl, rfl, rfl, fun _ => Iff.rfl⟩, rfl⟩

/-- A session is for the bound of the opt-in, while the control shows sharing. -/
structure Inv (s : State) : Prop where
  honest : Honest s
  live : ∀ session, s.live = some session →
    s.sharing = true ∧ s.socket.isSome = true ∧ s.crewId ≠ "" ∧
      ∃ o, s.optIn = some o ∧ session.expiresAt = o.at_ + o.bound
  sharing : s.sharing = true → s.ended = false ∧ ∃ o, s.optIn = some o ∧ cap s.durationMs = o.bound

theorem Inv.live_eq_none (h : Inv s) (hs : s.sharing = false) : s.live = none := by
  cases hl : s.live with
  | none => rfl
  | some session => exact absurd ((h.live session hl).1.symm.trans hs) Bool.true_eq_false_eq_False

/-- Nothing is shared any more. -/
theorem Inv.of_rest (h : Bounded s.optIn s.sent) (hsharing : t.sharing = false)
    (hlive : t.live = none) (hoptIn : t.optIn = s.optIn)
    (hsent : Bounded s.optIn t.sent ↔ Bounded s.optIn s.sent) : Inv t := by
  refine ⟨⟨?_, ?_⟩, ?_, ?_⟩
  · rw [hoptIn]
    exact hsent.mpr h
  · simp [hsharing]
  · simp [hlive]
  · simp [hsharing]

theorem Inv.resetShare (h : Bounded s.optIn s.sent) (hoptIn : t.optIn = s.optIn)
    (hsent : Bounded s.optIn t.sent ↔ Bounded s.optIn s.sent)
    (hlive : t.sharing = false → t.live = none) : Inv t.resetShare := by
  unfold State.resetShare
  split_ifs with hs
  · obtain ⟨hstop, hnone⟩ := quiet_stop { t with
      sharing := false
      choosing := false
      durationMs := none
      expiresAt := none
      ended := true }
    exact Inv.of_rest h hstop.sharing hnone (hstop.optIn.trans hoptIn)
      ((hstop.bounded _).trans hsent)
  · have hf : t.sharing = false := by simpa using hs
    exact Inv.of_rest h hf (hlive hf) hoptIn hsent

/-- A new session announces a new expiry. -/
theorem bounded_startSession {o : Option OptIn} :
    Bounded o s.startSession.sent ↔ Bounded o s.sent ∧
      ∃ p, o = some p ∧ s.now ≤ p.at_ + p.bound ∧ s.now + cap s.durationMs = p.at_ + p.bound ∧
        s.ended = false := by
  unfold State.startSession
  refine bounded_emit.trans ?_
  simp only [Message.expiresAt?, some.injEq, forall_eq']

theorem Quiet.trans {u : State} (h : Quiet s t) (k : Quiet t u) : Quiet s u :=
  ⟨k.now.trans h.now, k.socket.trans h.socket, k.crewId.trans h.crewId, k.sharing.trans h.sharing,
    k.durationMs.trans h.durationMs, k.optIn.trans h.optIn, k.ended.trans h.ended,
    fun o => (k.bounded o).trans (h.bounded o)⟩

/-- A session that starts again has the expiry of the opt-in only if no time has passed. -/
theorem bounded_restart (h : Inv s) (hs : s.sharing = true) (hq : Quiet s t)
    (socket : Option Socket) (crewId : String) :
    let u := { t with socket := socket, crewId := crewId }.startSession
    Bounded u.optIn u.sent ↔ s.optIn.map OptIn.at_ = some s.now := by
  obtain ⟨hended, o, ho, hbound⟩ := h.sharing hs
  have hpos : 0 < o.bound := hbound ▸ cap_pos s.durationMs
  intro u
  have hoptIn : u.optIn = s.optIn := hq.optIn
  rw [hoptIn, bounded_startSession]
  simp only [hq.bounded, hq.now, hq.durationMs, hq.ended, hended, hbound, ho,
    some.injEq, exists_eq_left', map_some, and_true]
  constructor
  · rintro ⟨-, -, heq⟩
    omega
  · intro heq
    exact ⟨ho ▸ h.honest.bounded, by omega, by omega⟩

/-- The effect runs again while the control shows sharing. -/
theorem restart (h : Inv s) (hs : s.sharing = true) (hq : Quiet s t) (hlive : t.live = none)
    (socket : Option Socket) (crewId : String) :
    let u := { t with socket := socket, crewId := crewId }.runEffect
    (Honest u ↔ socket.isSome = true ∧ crewId ≠ "" ∧ s.optIn.map OptIn.at_ = some s.now) ∧
    (Honest u → Inv u) := by
  obtain ⟨hended, o, ho, hbound⟩ := h.sharing hs
  intro u
  by_cases hrun : socket.isSome = true ∧ crewId ≠ ""
  · have hu : u = { t with socket := socket, crewId := crewId }.startSession := by
      simp [u, State.runEffect, hq.sharing, hs, hrun.1, hrun.2]
    have hbounded : Bounded u.optIn u.sent ↔ s.optIn.map OptIn.at_ = some s.now :=
      hu ▸ bounded_restart h hs hq socket crewId
    have hshown : u.live.isSome = true := by rw [hu]; rfl
    refine ⟨⟨fun hh => ⟨hrun.1, hrun.2, hbounded.mp hh.bounded⟩,
      fun hh => ⟨hbounded.mpr hh.2.2, fun _ => hshown⟩⟩, fun hh => ⟨hh, ?_, ?_⟩⟩
    · intro session hsession
      have hnow : o.at_ = s.now := by simpa [ho] using hbounded.mp hh.bounded
      rw [hu] at hsession ⊢
      obtain rfl := some.inj hsession
      refine ⟨hq.sharing.trans hs, hrun.1, hrun.2, o, hq.optIn.trans ho, ?_⟩
      show t.now + cap t.durationMs = _
      rw [hq.now, hq.durationMs, hbound, hnow]
    · intro _
      rw [hu]
      refine ⟨hq.ended.trans hended, o, hq.optIn.trans ho, ?_⟩
      show cap t.durationMs = _
      rw [hq.durationMs, hbound]
  · have hu : u = { t with socket := socket, crewId := crewId } := by
      simp only [u, State.runEffect]
      rw [if_neg]
      simpa [hq.sharing, hs] using hrun
    have hnot : ¬ Honest u := by
      intro hh
      have hsome := hh.shown (by rw [hu]; exact hq.sharing.trans hs)
      rw [hu] at hsome
      simp [hlive] at hsome
    exact ⟨⟨fun hh => absurd hh hnot, fun hh => absurd ⟨hh.1, hh.2.1⟩ hrun⟩,
      fun hh => absurd hh hnot⟩

/-- The effect does nothing while the control does not show sharing. -/
theorem runEffect_of_off (hs : s.sharing = false) : s.runEffect = s := by
  simp [State.runEffect, hs]

/-! ## Steps -/

/-- An announcement of the live session. -/
theorem Inv.emit (h : Inv s) {session : Session} (hlive : s.live = some session)
    {message : Message} (hmsg : message.expiresAt? = some session.expiresAt)
    (hsent : t.sent = (s.emit message).sent) (hoptIn : t.optIn = s.optIn)
    (hshown : t.live = s.live) (hsharing : t.sharing = s.sharing)
    (hsocket : t.socket.isSome = s.socket.isSome) (hcrew : t.crewId = s.crewId)
    (hduration : t.durationMs = s.durationMs) (hended : t.ended = s.ended) :
    (Honest t ↔ s.now ≤ session.expiresAt) ∧ (Honest t → Inv t) := by
  obtain ⟨hon, -, -, o, ho, hexp⟩ := h.live session hlive
  have hnot := (h.sharing hon).1
  have hbounded : Bounded t.optIn t.sent ↔ s.now ≤ session.expiresAt := by
    rw [hoptIn, hsent, bounded_emit]
    simp only [hmsg, some.injEq, forall_eq', ho, exists_eq_left', hexp, hnot, and_true]
    exact ⟨fun hh => hh.2, fun hh => ⟨ho ▸ h.honest.bounded, hh⟩⟩
  refine ⟨⟨fun hh => hbounded.mp hh.bounded, fun hh => ⟨hbounded.mpr hh, ?_⟩⟩,
    fun hh => ⟨hh, ?_, ?_⟩⟩
  · rw [hshown, hlive]
    exact fun _ => rfl
  · rw [hshown, hsharing, hsocket, hcrew, hoptIn]
    exact h.live
  · rw [hsharing, hended, hoptIn, hduration]
    exact h.sharing

/-- What changes neither the session nor what was sent. -/
theorem Inv.of_same (h : Inv s) (hsent : t.sent = s.sent) (hoptIn : t.optIn = s.optIn)
    (hlive : t.live = s.live) (hsharing : t.sharing = s.sharing)
    (hsocket : t.socket.isSome = s.socket.isSome) (hcrew : t.crewId = s.crewId)
    (hduration : t.durationMs = s.durationMs) (hended : t.ended = s.ended) : Inv t := by
  refine ⟨⟨?_, ?_⟩, ?_, ?_⟩
  · rw [hsent, hoptIn]
    exact h.honest.bounded
  · rw [hlive, hsharing]
    exact h.honest.shown
  · rw [hlive, hsharing, hsocket, hcrew, hoptIn]
    exact h.live
  · rw [hsharing, hended, hoptIn, hduration]
    exact h.sharing

/-- After an action that cannot disturb. -/
theorem honest_of_inv {p : Prop} (hp : p) (h : Inv t) : (Honest t ↔ p) ∧ (Honest t → Inv t) :=
  ⟨⟨fun _ => hp, fun _ => h.honest⟩, fun _ => h⟩

/-- A reset while the control shows sharing. -/
theorem honest_resetShare (hs : s.sharing = true) :
    (Honest s.resetShare ↔ Bounded s.optIn s.sent) ∧ (Honest s.resetShare → Inv s.resetShare) := by
  have hinv (h : Bounded s.optIn s.sent) : Inv s.resetShare :=
    Inv.resetShare h rfl Iff.rfl (fun hno => absurd (hs.symm.trans hno) (by simp))
  have hback (h : Honest s.resetShare) : Bounded s.optIn s.sent := by
    have hb := h.bounded
    rw [State.resetShare, if_pos hs] at hb
    obtain ⟨hq, -⟩ := quiet_stop { s with
      sharing := false
      choosing := false
      durationMs := none
      expiresAt := none
      ended := true }
    rw [hq.optIn] at hb
    exact (hq.bounded _).mp hb
  exact ⟨⟨hback, fun h => (hinv h).honest⟩, fun h => hinv (hback h)⟩

theorem inv_resetShare (h : Inv s) : Inv s.resetShare :=
  Inv.resetShare h.honest.bounded rfl Iff.rfl h.live_eq_none

theorem honest_act {a : Action} (h : Inv s) (hnow : ∀ now, a.now? = some now → s.now = now)
    (hact : act movedFar s a = some t) :
    (Honest t ↔ Undisturbed movedFar s a) ∧ (Honest t → Inv t) := by
  cases a with
  | optIn now durationMs =>
    simp only [act] at hact
    split_ifs at hact with hopt
    obtain rfl := some.inj hact
    have hnone : s.optIn = none := by
      simp only [Bool.and_eq_true, isNone_iff_eq_none] at hopt
      exact hopt.2
    have hsent (o : Option OptIn) : Bounded o s.sent := by
      intro m hm e he
      obtain ⟨o', ho', -⟩ := h.honest.bounded m hm e he
      exact absurd (hnone.symm.trans ho') (by simp)
    have hoff : s.sharing = false := by
      cases hs : s.sharing with
      | false => rfl
      | true =>
        obtain ⟨-, o, ho, -⟩ := h.sharing hs
        exact absurd (hnone.symm.trans ho) (by simp)
    by_cases hrun : s.socket.isSome = true ∧ s.crewId ≠ ""
    · refine honest_of_inv hrun ?_
      rw [State.runEffect, if_pos (by simpa using hrun)]
      refine ⟨⟨bounded_startSession.mpr ⟨hsent _, _, rfl, ?_, rfl, rfl⟩, fun _ => rfl⟩, ?_, ?_⟩
      · show s.now ≤ s.now + cap durationMs
        have := cap_pos durationMs
        omega
      · intro session hsession
        obtain rfl := some.inj hsession
        exact ⟨rfl, hrun.1, hrun.2, _, rfl, rfl⟩
      · exact fun _ => ⟨rfl, _, rfl, rfl⟩
    · have hnot : ¬ Honest (State.runEffect { s with
          sharing := true
          choosing := false
          durationMs := durationMs
          expiresAt := some (s.now + cap durationMs)
          optIn := some ⟨s.now, cap durationMs⟩
          ended := false }) := by
        rw [State.runEffect, if_neg (by simpa using hrun)]
        intro hh
        have hlive := hh.shown rfl
        simp [h.live_eq_none hoff] at hlive
      exact ⟨⟨fun hh => absurd hh hnot, fun hh => absurd hh hrun⟩, fun hh => absurd hh hnot⟩
  | fix now id fix =>
    simp only [act] at hact
    cases hl : s.live with
    | none =>
      simp only [hl] at hact
      obtain rfl := some.inj hact
      exact honest_of_inv (by simp [Undisturbed, hl]) h
    | some session =>
      simp only [hl] at hact
      obtain rfl := some.inj hact
      simp only [Undisturbed, hl]
      obtain rfl := hnow now rfl
      split_ifs with hid
      · unfold State.publish
        split_ifs with hpub
        · simp only [hid, hpub, true_imp_iff]
          exact h.emit hl rfl rfl rfl rfl rfl rfl rfl rfl rfl
        · exact honest_of_inv (fun _ hp => absurd hp hpub) h
      · exact honest_of_inv (fun hp => absurd hp hid) h
  | watchError now =>
    obtain rfl := some.inj hact
    exact honest_of_inv trivial (inv_resetShare h)
  | connect now =>
    simp only [act] at hact
    obtain rfl := hnow now rfl
    cases hl : s.live with
    | none =>
      simp only [hl] at hact
      obtain rfl := some.inj hact
      refine honest_of_inv (by simp [Undisturbed, hl]) ?_
      exact h.of_same rfl rfl hl.symm rfl (by simp) rfl rfl rfl
    | some session =>
      simp only [hl] at hact
      obtain rfl := some.inj hact
      simp only [Undisturbed, hl]
      exact h.emit hl rfl rfl rfl hl.symm rfl (by simp [State.emit]) rfl rfl rfl
  | disconnect =>
    obtain rfl := some.inj hact
    exact honest_of_inv trivial
      (h.of_same rfl rfl rfl rfl (by simp [State.disconnect]) rfl rfl rfl)
  | replaceSocket now socket activeCrew =>
    obtain rfl := hnow now rfl
    obtain rfl := some.inj hact
    obtain ⟨hclose, -⟩ := quiet_closeSocket s
    have hset : Quiet s
        { s.closeSocket with store := s.closeSocket.store.setActiveCrew activeCrew } :=
      ⟨hclose.now, hclose.socket, hclose.crewId, hclose.sharing, hclose.durationMs, hclose.optIn, hclose.ended,
        hclose.bounded⟩
    obtain ⟨hstop, hnone⟩ := quiet_stop
      { s.closeSocket with store := s.closeSocket.store.setActiveCrew activeCrew }
    have hq := hset.trans hstop
    generalize State.stop _ = u at hq hnone
    by_cases hs : s.sharing = true
    · have hcrew : u.crewId ≠ "" := by
        obtain ⟨session, hl⟩ := isSome_iff_exists.mp (h.honest.shown hs)
        exact hq.crewId ▸ (h.live session hl).2.2.1
      obtain ⟨hiff, hinv⟩ := restart h hs hq hnone socket u.crewId
      refine ⟨hiff.trans ?_, hinv⟩
      simp only [Undisturbed, hs, true_imp_iff]
      exact ⟨fun hh => ⟨hh.1, hh.2.2⟩, fun hh => ⟨hh.1, hcrew, hh.2⟩⟩
    · have hoff : u.sharing = false := hq.sharing.trans (by simpa using hs)
      refine honest_of_inv (fun hon => absurd hon hs) ?_
      rw [@runEffect_of_off { u with socket := socket } hoff]
      exact Inv.of_rest h.honest.bounded hoff hnone hq.optIn (hq.bounded _)
  | ack id ok =>
    simp only [act] at hact
    cases hl : s.live with
    | none =>
      simp only [hl] at hact
      obtain rfl := some.inj hact
      exact honest_of_inv (by simp [Undisturbed, hl]) h
    | some session =>
      simp only [hl] at hact
      obtain rfl := some.inj hact
      simp only [Undisturbed, hl]
      split_ifs with hrej
      · simp only [Bool.and_eq_true, decide_eq_true_eq, Bool.not_eq_true'] at hrej
        have hon := (h.live session hl).1
        refine ⟨⟨fun hh => ?_, fun hh => ?_⟩, fun hh => ?_⟩
        · exact absurd (hh.shown hon) (by simp [State.teardownLocal])
        · exact absurd (hh hrej.1) (by simp [hrej.2])
        · exact absurd (hh.shown hon) (by simp [State.teardownLocal])
      · refine honest_of_inv (fun hid => ?_) h
        simpa [hid] using hrej
  | timer now id =>
    simp only [act] at hact
    cases hl : s.live with
    | none => simp [hl] at hact
    | some session =>
      simp only [hl] at hact
      split_ifs at hact
      obtain rfl := some.inj hact
      obtain ⟨hq, hnone⟩ := quiet_stop s
      exact honest_of_inv trivial
        (Inv.resetShare h.honest.bounded hq.optIn (hq.bounded _) (fun _ => hnone))
  | switchOff now =>
    obtain rfl := some.inj hact
    exact honest_of_inv trivial (inv_resetShare h)
  | background now =>
    obtain rfl := some.inj hact
    obtain ⟨hq, hlive⟩ := quiet_suspend s
    refine honest_of_inv trivial
      (Inv.resetShare h.honest.bounded hq.optIn (hq.bounded _) (fun hs => ?_))
    rw [hlive]
    exact h.live_eq_none (hq.sharing.symm.trans hs)
  | changeCrew now crewId =>
    obtain rfl := hnow now rfl
    simp only [act] at hact
    split_ifs at hact with hcrew
    · obtain rfl := some.inj hact
      exact honest_of_inv (fun _ hne => absurd hcrew hne) h
    · obtain rfl := some.inj hact
      obtain ⟨hq, hnone⟩ := quiet_stop s
      generalize s.stop = u at hq hnone
      by_cases hs : s.sharing = true
      · have hsocket : u.socket.isSome = true := by
          obtain ⟨session, hl⟩ := isSome_iff_exists.mp (h.honest.shown hs)
          exact hq.socket.trans (h.live session hl).2.1
        have hon : u.sharing = true := hq.sharing.trans hs
        simp only [Undisturbed, hs, true_imp_iff]
        by_cases hempty : crewId = ""
        · have hrun : { u with crewId := crewId }.runEffect = { u with crewId := crewId } := by
            simp [State.runEffect, hempty]
          refine honest_of_inv (fun _ hne => absurd hempty hne) ?_
          rw [hrun]
          exact Inv.resetShare h.honest.bounded hq.optIn (hq.bounded _)
            (fun hno => absurd (hon.symm.trans hno) (by simp))
        · have hrun : { u with crewId := crewId }.runEffect
              = { u with crewId := crewId }.startSession := by
            simp [State.runEffect, hon, hsocket, hempty]
          have hbounded := bounded_restart h hs hq u.socket crewId
          rw [hrun]
          have hreset := honest_resetShare (s := { u with crewId := crewId }.startSession) hon
          refine ⟨hreset.1.trans (hbounded.trans ?_), hreset.2⟩
          exact ⟨fun hh _ _ => hh, fun hh => hh hcrew hempty⟩
      · have hoff : u.sharing = false := hq.sharing.trans (by simpa using hs)
        refine honest_of_inv (fun hon => absurd hon hs) ?_
        rw [@runEffect_of_off { u with crewId := crewId } hoff]
        exact Inv.resetShare h.honest.bounded hq.optIn (hq.bounded _) (fun _ => hnone)
  | unmount now =>
    obtain rfl := some.inj hact
    obtain ⟨hq, hnone⟩ := quiet_stop s
    exact honest_of_inv trivial
      (Inv.of_rest h.honest.bounded rfl hnone hq.optIn (hq.bounded _))
  | stopStore =>
    obtain rfl := some.inj hact
    exact honest_of_inv trivial (h.of_same rfl rfl rfl rfl rfl rfl rfl rfl)
  | setActiveCrew crewId =>
    obtain rfl := some.inj hact
    exact honest_of_inv trivial (h.of_same rfl rfl rfl rfl rfl rfl rfl rfl)

theorem honest_step {a : Action} (h : Inv s) (hstep : step movedFar s a = some t) :
    (Honest t ↔ Undisturbed movedFar s a) ∧ (Honest t → Inv t) := by
  cases hnow : a.now? with
  | none =>
    simp only [step, hnow] at hstep
    exact honest_act movedFar h (fun now hn => absurd (hnow.symm.trans hn) (by simp)) hstep
  | some now =>
    simp only [step, hnow] at hstep
    split_ifs at hstep
    have hclock : Inv { s with now := now } := h.of_same rfl rfl rfl rfl rfl rfl rfl rfl
    obtain ⟨hiff, hinv⟩ := honest_act movedFar hclock
      (fun n hn => some.inj (hnow.symm.trans hn)) hstep
    refine ⟨hiff.trans ?_, hinv⟩
    cases a <;> exact Iff.rfl

theorem inv_start (now : ℤ) (crewId : String) (socket : Option Socket) :
    Inv (start now crewId socket) := by
  refine ⟨⟨?_, ?_⟩, ?_, ?_⟩
  · exact fun m hm => absurd hm List.not_mem_nil
  · simp [start]
  · simp [start]
  · simp [start]

/-- In every run, all that was announced is within the bound of the opt-in, with one expiry and
before sharing ended, and the control shows sharing only while a session is live, exactly when
each step of the run is undisturbed. -/
theorem honest_iff {now : ℤ} {crewId : String} {socket : Option Socket} {as : List Action}
    {t : State} (hrun : Machine.run (step movedFar) (start now crewId socket) as = some t) :
    Machine.Always (step movedFar) Honest (start now crewId socket) as ↔
      Machine.Meets (step movedFar) (Undisturbed movedFar) (start now crewId socket) as := by
  have hstart := inv_start now crewId socket
  rw [Machine.always_iff_each, and_iff_right hstart.honest]
  exact Machine.each_iff_meets (I := Inv)
    (fun s a t h hU hstep => (honest_step movedFar h hstep).2
      ((honest_step movedFar h hstep).1.mpr hU))
    (fun s a t h hstep => (honest_step movedFar h hstep).1) hstart hrun

/-- The main stage. -/
def mainStage : GeoFix := { lat := 52, lng := 13 }

/-- An hour of sharing: the share is granted, the socket reconnects, the timer ends it. -/
def hourRun : List Action :=
  [.optIn 0 (some 3600000), .ack 0 true, .fix 5000 0 mainStage, .disconnect, .connect 60000,
    .fix 3600000 0 mainStage, .timer 3600000 0, .fix 3700000 0 mainStage]

theorem hourRun_honest : ∃ t,
    Machine.run (step fun _ _ => false) (start 0 "c1" (some ⟨true⟩)) hourRun = some t ∧
    Machine.Always (step fun _ _ => false) Honest (start 0 "c1" (some ⟨true⟩)) hourRun :=
  ⟨_, rfl, (honest_iff _ rfl).mpr ⟨⟨rfl, by decide⟩, fun _ => rfl, fun _ _ => by decide, trivial,
    show (60000 : ℤ) ≤ 3600000 by decide, fun _ _ => by decide, trivial, trivial, trivial⟩⟩

/-- Half an hour after the opt-in the session token is refreshed. -/
def refreshedRun : List Action :=
  [.optIn 0 (some 3600000), .replaceSocket 1800000 (some ⟨true⟩) (some "c1"),
    .fix 4200000 1 mainStage]

/-- The server rejects the share. -/
def rejectedRun : List Action := [.optIn 0 (some 3600000), .ack 0 false]

/-- A fix is sent ten minutes after the hour, with another expiry; and the control still shows
sharing after the rejection. -/
theorem shared_too_long :
    (∃ t, Machine.run (step fun _ _ => false) (start 0 "c1" (some ⟨true⟩)) refreshedRun = some t ∧
      t.sent.map (fun m => (m.at_, m.message.expiresAt?))
        = [(0, some 3600000), (1800000, none), (1800000, some 5400000), (4200000, some 5400000)] ∧
      ¬ Honest t) ∧
    ∃ t, Machine.run (step fun _ _ => false) (start 0 "c1" (some ⟨true⟩)) rejectedRun = some t ∧
      t.sharing = true ∧ t.live.isNone = true ∧ ¬ Honest t := by
  refine ⟨⟨_, rfl, by decide, fun h => ?_⟩, ⟨_, rfl, rfl, rfl, fun h => ?_⟩⟩
  · obtain ⟨o, ho, -, he, -⟩ := h.bounded _ (List.mem_cons_of_mem _ (List.mem_cons_of_mem _
      List.mem_cons_self)) 5400000 rfl
    obtain rfl := Option.some.inj ho
    exact absurd he (by decide)
  · exact absurd (h.shown rfl) (by decide)

end FestivalPlanner.LiveSharing
