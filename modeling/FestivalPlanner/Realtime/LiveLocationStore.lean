import FestivalPlanner.Lib.Keyed
import FestivalPlanner.Lib.Machine
import Mathlib.Data.List.Sort
import Mathlib.Data.Rat.Defs

/-!
# The live locations of a crew

`liveLocationStore`: the crew it is scoped to, the peers and the SOS entries it holds, and what is
derived from them.

* `State`, `Action`, `step` — the store and its ten actions;
* `Derived`, `Sharing` — the derived fields and the crew that is shared to, in every state;
* `FromUpdate` — a position is the one that was held or that of the update just applied;
* `OfCrew` — whatever is held is of the crew the store is scoped to;
* `store_keeps` — **the first three hold of every run, the last one of every run in which sharing
  starts only with what is held being of that crew**.
-/

namespace FestivalPlanner.LiveLocationStore

open Keyed

/-! ## The store -/

/-- `PeerLocation`, as far as the store and its claims read it. -/
structure PeerLocation where
  crewId : String
  userId : String
  lat : ℚ
  lng : ℚ
  serverAt : String
  deriving DecidableEq

/-- `SosEntry` -/
structure SosEntry where
  crewId : String
  userId : String
  raisedAt : String
  deriving DecidableEq

structure Coord where
  lat : ℚ
  lng : ℚ
  deriving DecidableEq

/-- What the store takes from the language. -/
structure Runtime where
  /-- `new Date(text).getTime()`; `none` for `NaN` -/
  getTime : String → Option ℤ
  /-- `.sort((a, b) => new Date(b.raisedAt).getTime() - new Date(a.raisedAt).getTime())`; which
  order it is with a time that is `NaN` is left to the implementation. -/
  sort : List SosEntry → List SosEntry
  sort_perm : ∀ l, (sort l).Perm l
  sort_eq : ∀ l, (∀ e ∈ l, (getTime e.raisedAt).isSome) →
    sort l = l.insertionSort fun a b => (getTime b.raisedAt).getD 0 ≤ (getTime a.raisedAt).getD 0

/-- `LiveLocationState`; the records by user id are lists in the order of their keys. -/
structure State where
  crewId : Option String := none
  sharingCrewId : Option String := none
  sharingExpiresAt : Option String := none
  lastSentAt : Option ℤ := none
  lastSentCoord : Option Coord := none
  peers : List PeerLocation := []
  sosByUser : List SosEntry := []
  sos : Option SosEntry := none
  activeSosList : List SosEntry := []

/-- `EMPTY` -/
def empty : State := {}

/-- `crewId && eventCrewId !== crewId`: an event of another crew, for a store with a crew. -/
def foreign (crewId : Option String) (eventCrewId : String) : Bool :=
  match crewId with
  | none => false
  | some crewId => crewId ≠ "" && eventCrewId ≠ crewId

section
variable (js : Runtime)

def deriveSos (sosByUser : List SosEntry) (s : State) : State :=
  let activeSosList := js.sort sosByUser
  { s with sosByUser := sosByUser, activeSosList := activeSosList, sos := activeSosList.head? }

@[grind =] def setActiveCrew (crewId : Option String) (s : State) : State :=
  if s.crewId = crewId then s else { empty with crewId := crewId }

def startSharing (crewId : String) (expiresAt : Option String) (s : State) : State :=
  { s with
    crewId := some crewId
    sharingCrewId := some crewId
    sharingExpiresAt := expiresAt
    lastSentAt := none
    lastSentCoord := none }

def stopSharing (s : State) : State :=
  { s with
    sharingCrewId := none
    sharingExpiresAt := none
    lastSentAt := none
    lastSentCoord := none }

def recordSent (coord : Coord) (sentAt : ℤ) (s : State) : State :=
  { s with lastSentCoord := some coord, lastSentAt := some sentAt }

@[grind =] def applyPeerUpdate (peer : PeerLocation) (s : State) : State :=
  if foreign s.crewId peer.crewId then s
  else { s with peers := upsert PeerLocation.userId peer s.peers }

def removePeer (userId : String) (s : State) : State :=
  { s with peers := erase PeerLocation.userId userId s.peers }

/-- A peer that `sweepStale` drops; one whose time is `NaN` stays. -/
def stale (now ttlMs : ℤ) (peer : PeerLocation) : Bool :=
  match js.getTime peer.serverAt with
  | none => false
  | some serverMs => now - serverMs > ttlMs

def sweepStale (now ttlMs : ℤ) (s : State) : State :=
  { s with peers := s.peers.filter fun peer => !stale js now ttlMs peer }

@[grind =] def applySos (entry : SosEntry) (s : State) : State :=
  if foreign s.crewId entry.crewId then s
  else deriveSos js (upsert SosEntry.userId entry s.sosByUser) s

@[grind =] def clearSos (raiserId : Option String) (s : State) : State :=
  match raiserId with
  | none => if s.sosByUser = [] then s else deriveSos js [] s
  | some raiserId =>
    if lookup SosEntry.userId raiserId s.sosByUser = none then s
    else deriveSos js (erase SosEntry.userId raiserId s.sosByUser) s

inductive Action where
  | setActiveCrew (crewId : Option String)
  | startSharing (crewId : String) (expiresAt : Option String)
  | stopSharing
  | recordSent (coord : Coord) (sentAt : ℤ)
  | applyPeerUpdate (peer : PeerLocation)
  | removePeer (userId : String)
  | sweepStale (now ttlMs : ℤ)
  | applySos (entry : SosEntry)
  | clearSos (raiserId : Option String)
  | reset

@[grind =] def perform (s : State) : Action → State
  | .setActiveCrew crewId => setActiveCrew crewId s
  | .startSharing crewId expiresAt => startSharing crewId expiresAt s
  | .stopSharing => stopSharing s
  | .recordSent coord sentAt => recordSent coord sentAt s
  | .applyPeerUpdate peer => applyPeerUpdate peer s
  | .removePeer userId => removePeer userId s
  | .sweepStale now ttlMs => sweepStale js now ttlMs s
  | .applySos entry => applySos js entry s
  | .clearSos raiserId => clearSos js raiserId s
  | .reset => empty

def step (s : State) (a : Action) : Option State := some (perform js s a)

/-! ## The derived fields -/

/-- The list has the entries by user, newest first when all of their times can be read, and the
single entry is its first. -/
structure Derived (s : State) : Prop where
  perm : s.activeSosList.Perm s.sosByUser
  newestFirst : (∀ e ∈ s.sosByUser, (js.getTime e.raisedAt).isSome) →
    s.activeSosList.Pairwise fun a b =>
      (js.getTime b.raisedAt).getD 0 ≤ (js.getTime a.raisedAt).getD 0
  sos_eq : s.sos = s.activeSosList.head?

variable {js}

theorem derived_deriveSos (sosByUser : List SosEntry) (s : State) :
    Derived js (deriveSos js sosByUser s) := by
  refine ⟨js.sort_perm _, fun htimes => ?_, rfl⟩
  change (js.sort sosByUser).Pairwise _
  rw [js.sort_eq sosByUser htimes]
  have htotal : Std.Total fun a b : SosEntry =>
      (js.getTime b.raisedAt).getD 0 ≤ (js.getTime a.raisedAt).getD 0 := ⟨fun a b => le_total _ _⟩
  have htrans : IsTrans SosEntry fun a b =>
      (js.getTime b.raisedAt).getD 0 ≤ (js.getTime a.raisedAt).getD 0 :=
    ⟨fun _ _ _ hab hbc => hbc.trans hab⟩
  exact List.pairwise_insertionSort _ _

theorem derived_empty (crewId : Option String) : Derived js { empty with crewId := crewId } :=
  ⟨.nil, fun _ => .nil, rfl⟩

/-- What is derived stays so when no SOS entry is changed. -/
theorem Derived.of_eq {s t : State} (h : Derived js s) (hby : t.sosByUser = s.sosByUser)
    (hlist : t.activeSosList = s.activeSosList) (hsos : t.sos = s.sos) : Derived js t := by
  refine ⟨?_, ?_, ?_⟩
  · rw [hlist, hby]
    exact h.perm
  · rw [hlist, hby]
    exact h.newestFirst
  · rw [hlist, hsos]
    exact h.sos_eq

theorem derived_perform {s : State} (h : Derived js s) (a : Action) :
    Derived js (perform js s a) := by
  cases a with
  | setActiveCrew crewId =>
    simp only [perform, setActiveCrew]
    split
    · exact h
    · exact derived_empty crewId
  | startSharing crewId expiresAt => exact h.of_eq rfl rfl rfl
  | stopSharing => exact h.of_eq rfl rfl rfl
  | recordSent coord sentAt => exact h.of_eq rfl rfl rfl
  | applyPeerUpdate peer =>
    simp only [perform, applyPeerUpdate]
    split
    · exact h
    · exact h.of_eq rfl rfl rfl
  | removePeer userId => exact h.of_eq rfl rfl rfl
  | sweepStale now ttlMs => exact h.of_eq rfl rfl rfl
  | applySos entry =>
    simp only [perform, applySos]
    split
    · exact h
    · exact derived_deriveSos _ s
  | clearSos raiserId =>
    cases raiserId with
    | none =>
      simp only [perform, clearSos]
      split
      · exact h
      · exact derived_deriveSos _ s
    | some raiserId =>
      simp only [perform, clearSos]
      split
      · exact h
      · exact derived_deriveSos _ s
  | reset => exact derived_empty none

/-! ## The crew that is shared to -/

/-- The position is published to nobody or to the crew the store is scoped to. -/
def Sharing (s : State) : Prop := s.sharingCrewId = none ∨ s.sharingCrewId = s.crewId

/-- The crews are those of the state before, or nothing is shared, or they are one crew. -/
theorem crews_perform (s : State) (a : Action) :
    ((perform js s a).crewId = s.crewId ∧ (perform js s a).sharingCrewId = s.sharingCrewId) ∨
      (perform js s a).sharingCrewId = none ∨
      (perform js s a).sharingCrewId = (perform js s a).crewId := by
  cases a with
  | setActiveCrew crewId =>
    simp only [perform, setActiveCrew]
    split
    · exact .inl ⟨rfl, rfl⟩
    · exact .inr (.inl rfl)
  | startSharing crewId expiresAt => exact .inr (.inr rfl)
  | stopSharing => exact .inr (.inl rfl)
  | recordSent coord sentAt => exact .inl ⟨rfl, rfl⟩
  | applyPeerUpdate peer =>
    simp only [perform, applyPeerUpdate]
    split <;> exact .inl ⟨rfl, rfl⟩
  | removePeer userId => exact .inl ⟨rfl, rfl⟩
  | sweepStale now ttlMs => exact .inl ⟨rfl, rfl⟩
  | applySos entry =>
    simp only [perform, applySos]
    split <;> exact .inl ⟨rfl, rfl⟩
  | clearSos raiserId =>
    cases raiserId with
    | none =>
      simp only [perform, clearSos]
      split <;> exact .inl ⟨rfl, rfl⟩
    | some raiserId =>
      simp only [perform, clearSos]
      split <;> exact .inl ⟨rfl, rfl⟩
  | reset => exact .inr (.inl rfl)

theorem sharing_perform {s : State} (h : Sharing s) (a : Action) : Sharing (perform js s a) := by
  rcases @crews_perform js s a with ⟨hcrew, hsharing⟩ | hnone | hsame
  · rw [Sharing, hcrew, hsharing]
    exact h
  · exact .inl hnone
  · exact .inr hsame

/-! ## What is held -/

/-- Every peer is one that was held, or that of the update of the action, which is of the crew
the store is scoped to, if it is scoped to one. -/
def FromUpdate (s : State) (a : Action) (t : State) : Prop :=
  ∀ peer ∈ t.peers, peer ∈ s.peers ∨
    a = .applyPeerUpdate peer ∧ foreign s.crewId peer.crewId = false

/-- Every SOS entry is one that was held, or that of the action. -/
def FromSos (s : State) (a : Action) (t : State) : Prop :=
  ∀ entry ∈ t.sosByUser, entry ∈ s.sosByUser ∨
    a = .applySos entry ∧ foreign s.crewId entry.crewId = false

theorem fromUpdate_perform (s : State) (a : Action) : FromUpdate s a (perform js s a) := by
  intro peer hpeer
  cases a with
  | setActiveCrew crewId =>
    simp only [perform, setActiveCrew] at hpeer
    split at hpeer
    · exact .inl hpeer
    · cases hpeer
  | startSharing crewId expiresAt => exact .inl hpeer
  | stopSharing => exact .inl hpeer
  | recordSent coord sentAt => exact .inl hpeer
  | applyPeerUpdate peer' =>
    simp only [perform, applyPeerUpdate] at hpeer
    split at hpeer
    · exact .inl hpeer
    · rename_i hcrew
      rcases mem_or_eq_of_mem_upsert hpeer with rfl | hmem
      · exact .inr ⟨rfl, by simpa using hcrew⟩
      · exact .inl hmem
  | removePeer userId => exact .inl (mem_erase.mp hpeer).1
  | sweepStale now ttlMs => exact .inl (List.mem_filter.mp hpeer).1
  | applySos entry =>
    simp only [perform, applySos] at hpeer
    split at hpeer <;> exact .inl hpeer
  | clearSos raiserId =>
    cases raiserId with
    | none =>
      simp only [perform, clearSos] at hpeer
      split at hpeer <;> exact .inl hpeer
    | some raiserId =>
      simp only [perform, clearSos] at hpeer
      split at hpeer <;> exact .inl hpeer
  | reset => cases hpeer

theorem fromSos_perform (s : State) (a : Action) : FromSos s a (perform js s a) := by
  intro entry hentry
  cases a with
  | setActiveCrew crewId =>
    simp only [perform, setActiveCrew] at hentry
    split at hentry
    · exact .inl hentry
    · cases hentry
  | startSharing crewId expiresAt => exact .inl hentry
  | stopSharing => exact .inl hentry
  | recordSent coord sentAt => exact .inl hentry
  | applyPeerUpdate peer =>
    simp only [perform, applyPeerUpdate] at hentry
    split at hentry <;> exact .inl hentry
  | removePeer userId => exact .inl hentry
  | sweepStale now ttlMs => exact .inl hentry
  | applySos entry' =>
    simp only [perform, applySos] at hentry
    split at hentry
    · exact .inl hentry
    · rename_i hcrew
      rcases mem_or_eq_of_mem_upsert hentry with rfl | hmem
      · exact .inr ⟨rfl, by simpa using hcrew⟩
      · exact .inl hmem
  | clearSos raiserId =>
    cases raiserId with
    | none =>
      simp only [perform, clearSos] at hentry
      split at hentry
      · exact .inl hentry
      · cases hentry
    | some raiserId =>
      simp only [perform, clearSos] at hentry
      split at hentry
      · exact .inl hentry
      · exact .inl (mem_erase.mp hentry).1
  | reset => cases hentry

/-! ## The crew of what is held -/

/-- Every peer and SOS entry that is held is of the crew. -/
def HeldOf (crewId : String) (s : State) : Prop :=
  (∀ peer ∈ s.peers, peer.crewId = crewId) ∧ ∀ entry ∈ s.sosByUser, entry.crewId = crewId

instance (crewId : String) (s : State) : Decidable (HeldOf crewId s) :=
  inferInstanceAs (Decidable (_ ∧ _))

/-- While the store is scoped to a crew, it holds what is of that crew. -/
def OfCrew (s : State) : Prop := ∀ crewId, s.crewId = some crewId → crewId ≠ "" → HeldOf crewId s

/-- Sharing starts only for the crew that everything held is of. -/
def StartsOwn (s : State) : Action → Prop
  | .startSharing crewId _ => HeldOf crewId s
  | _ => True

instance (s : State) : DecidablePred (StartsOwn s)
  | .startSharing crewId _ => inferInstanceAs (Decidable (HeldOf crewId s))
  | .setActiveCrew _ | .stopSharing | .recordSent .. | .applyPeerUpdate _ | .removePeer _
  | .sweepStale .. | .applySos _ | .clearSos _ | .reset => .isTrue trivial

theorem eq_of_foreign_eq_false {crewId eventCrewId : String} (hne : crewId ≠ "")
    (h : foreign (some crewId) eventCrewId = false) : eventCrewId = crewId := by
  simpa [foreign, hne] using h

/-- A step that leaves the crew leaves what is held in it. -/
theorem heldOf_perform {s : State} {a : Action} {crewId : String} (h : HeldOf crewId s)
    (hcrew : s.crewId = some crewId) (hne : crewId ≠ "") : HeldOf crewId (perform js s a) := by
  constructor
  · intro peer hpeer
    rcases fromUpdate_perform s a peer hpeer with hold | ⟨-, hown⟩
    · exact h.1 peer hold
    · rw [hcrew] at hown
      exact eq_of_foreign_eq_false hne hown
  · intro entry hentry
    rcases fromSos_perform s a entry hentry with hold | ⟨-, hown⟩
    · exact h.2 entry hold
    · rw [hcrew] at hown
      exact eq_of_foreign_eq_false hne hown

/-- Only two actions change the crew: one starts sharing, and the others leave nothing held. -/
theorem crewId_perform (s : State) (a : Action) :
    (perform js s a).crewId = s.crewId ∨ (∃ crewId expiresAt, a = .startSharing crewId expiresAt) ∨
      (perform js s a).peers = [] ∧ (perform js s a).sosByUser = [] := by
  cases a with
  | startSharing crewId expiresAt => exact .inr (.inl ⟨crewId, expiresAt, rfl⟩)
  | setActiveCrew crewId =>
    simp only [perform, setActiveCrew]
    split
    · exact .inl rfl
    · exact .inr (.inr ⟨rfl, rfl⟩)
  | reset => exact .inr (.inr ⟨rfl, rfl⟩)
  | stopSharing => exact .inl rfl
  | recordSent coord sentAt => exact .inl rfl
  | removePeer userId => exact .inl rfl
  | sweepStale now ttlMs => exact .inl rfl
  | applyPeerUpdate peer =>
    simp only [perform, applyPeerUpdate]
    split <;> exact .inl rfl
  | applySos entry =>
    simp only [perform, applySos]
    split <;> exact .inl rfl
  | clearSos raiserId =>
    cases raiserId with
    | none =>
      simp only [perform, clearSos]
      split <;> exact .inl rfl
    | some raiserId =>
      simp only [perform, clearSos]
      split <;> exact .inl rfl

theorem ofCrew_perform {s : State} {a : Action} (h : OfCrew s) (hown : StartsOwn s a) :
    OfCrew (perform js s a) := by
  intro crewId hcrew hne
  rcases @crewId_perform js s a with hsame | ⟨crewId', expiresAt, rfl⟩ | ⟨hpeers, hsos⟩
  · rw [hsame] at hcrew
    exact heldOf_perform (h crewId hcrew hne) hcrew hne
  · obtain rfl : crewId' = crewId := Option.some.inj hcrew
    exact hown
  · refine ⟨fun peer hpeer => ?_, fun entry hentry => ?_⟩
    · rw [hpeers] at hpeer
      cases hpeer
    · rw [hsos] at hentry
      cases hentry

/-! ## Runs -/

/-- **In every state the derived fields follow the entries and sharing is with the own crew, every
position is that of an update; and when sharing only starts for the crew that everything held is
of, then the store holds what is of its crew alone.** -/
theorem store_keeps (js : Runtime) (as : List Action) :
    Machine.Always (step js) (fun s => Derived js s ∧ Sharing s) empty as ∧
      Machine.Each (step js) FromUpdate empty as ∧
      (Machine.Meets (step js) StartsOwn empty as → Machine.Always (step js) OfCrew empty as) := by
  refine ⟨?_, ?_, fun hown => ?_⟩
  · refine Machine.always_of_step (I := fun s => Derived js s ∧ Sharing s) ?_ (fun _ h => h)
      ⟨derived_empty none, .inl rfl⟩
    rintro s a t ⟨hderived, hsharing⟩ ht
    obtain rfl := Option.some.inj ht
    exact ⟨derived_perform hderived a, sharing_perform hsharing a⟩
  · refine Machine.each_of_step (fun s a t ht => ?_) as empty
    obtain rfl := Option.some.inj ht
    exact fromUpdate_perform s a
  · refine Machine.always_of_meets (I := OfCrew) (C := StartsOwn) ?_ (fun _ h => h) ?_ hown
    · intro s a t h hstarts ht
      obtain rfl := Option.some.inj ht
      exact ofCrew_perform h hstarts
    · intro crewId hcrew
      cases hcrew

end

/-! ## What the store does not promise -/

/-- Two times, as `new Date` reads them. -/
def readTimes (text : String) : Option ℤ :=
  if text = "2026-06-06T12:00:00.000Z" then some 1780747200000
  else if text = "2026-06-06T12:00:10.000Z" then some 1780747210000
  else none

def twoTimes : Runtime where
  getTime := readTimes
  sort l := l.insertionSort fun a b =>
    (readTimes b.raisedAt).getD 0 ≤ (readTimes a.raisedAt).getD 0
  sort_perm l := List.perm_insertionSort _ l
  sort_eq _ _ := rfl

/-- A position of Bob, at twelve o'clock and ten seconds later. -/
def bob (serverAt : String) : PeerLocation := ⟨"crew-1", "bob", 40, -74, serverAt⟩

/-- Switching, sharing with the crew that is shown, and its peers. -/
theorem store_keeps_switched :
    Machine.Always (step twoTimes) OfCrew empty
      [.setActiveCrew (some "crew-1"), .applyPeerUpdate (bob "2026-06-06T12:00:00.000Z"),
        .startSharing "crew-1" none, .setActiveCrew (some "crew-2"),
        .applyPeerUpdate (bob "2026-06-06T12:00:10.000Z")] :=
  (store_keeps twoTimes _).2.2 (by decide)

/-- A store without a crew takes every position, and a later one gives way to an earlier one. -/
theorem other_crew_held :
    (¬ ∀ as, Machine.Always (step twoTimes)
        (fun s => ∀ peer ∈ s.peers, s.crewId = some peer.crewId) empty as) ∧
      ¬ ∀ as, Machine.Each (step twoTimes)
        (fun s _ t => ∀ p ∈ s.peers, ∀ q ∈ t.peers, p.userId = q.userId →
          (readTimes p.serverAt).getD 0 ≤ (readTimes q.serverAt).getD 0) empty as := by
  constructor
  · intro h
    have hlast := (h [.applyPeerUpdate (bob "2026-06-06T12:00:00.000Z")]).last rfl
    have hcrew := hlast (bob "2026-06-06T12:00:00.000Z") (List.mem_singleton.mpr rfl)
    cases hcrew
  · intro h
    have hlast := Machine.Each.last
      (h ([.applyPeerUpdate (bob "2026-06-06T12:00:10.000Z")] ++
        [.applyPeerUpdate (bob "2026-06-06T12:00:00.000Z")])) rfl rfl
    have hle := hlast (bob "2026-06-06T12:00:10.000Z") (List.mem_singleton.mpr rfl)
      (bob "2026-06-06T12:00:00.000Z") (List.mem_singleton.mpr rfl) rfl
    exact absurd hle (by decide)

end FestivalPlanner.LiveLocationStore
