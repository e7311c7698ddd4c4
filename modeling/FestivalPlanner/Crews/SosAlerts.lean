import Mathlib.Data.List.Sort
import FestivalPlanner.Lib.InFlight
import FestivalPlanner.Lib.Keyed
import FestivalPlanner.Lib.Machine

/-!
# The SOS of a crew

The server keeps one flag for a crew, a client one entry for each member who raised an SOS, and the
broadcast of a clear names who cleared.  Raising and clearing are requests with an await before
their broadcast.

* `LiveLocation` — the entries of a client, `applySos` and `clearSos`;
* `State`, `step` — the flags, the clients and the requests under way;
* `SosKept` — what is raised is shown and can be cleared, and a clear removes what it is for;
* `Careful` — a member clears the own SOS while nobody else's is up, and in time;
* `kept_iff_careful` — the steps of a run keep every SOS exactly when they are careful.
-/

namespace FestivalPlanner.SosAlerts

open List Option Keyed InFlight Function

/-! ## The clients -/

/-- An active SOS of a crew. -/
structure SosEntry where
  crewId : String
  userId : String
  raisedAt : ℕ
  deriving DecidableEq, Repr

/-- What `liveLocationStore` holds of the SOS of its crew, one entry for a raiser. -/
structure LiveLocation where
  crewId : Option String
  sosByUser : List SosEntry
  unique : UniqueKeys SosEntry.userId sosByUser

namespace LiveLocation

/-- After `setActiveCrew`. -/
def empty (crewId : Option String) : LiveLocation := ⟨crewId, [], nodup_nil⟩

/-- The list that `deriveSos` makes, newest first. -/
def activeSosList (store : LiveLocation) : List SosEntry :=
  store.sosByUser.insertionSort fun a b => b.raisedAt ≤ a.raisedAt

/-- `applySos` -/
def applySos (entry : SosEntry) (store : LiveLocation) : LiveLocation :=
  if store.crewId.any (fun crewId => entry.crewId ≠ crewId) then store
  else { store with
    sosByUser := upsert SosEntry.userId entry store.sosByUser
    unique := store.unique.upsert entry }

/-- `clearSos`; without a raiser it drops every SOS. -/
def clearSos (raiserId : Option String) (store : LiveLocation) : LiveLocation :=
  match raiserId with
  | none => { store with sosByUser := [], unique := nodup_nil }
  | some raiserId =>
      { store with
        sosByUser := erase SosEntry.userId raiserId store.sosByUser
        unique := store.unique.erase raiserId }

/-- An SOS of the user is active. -/
def Shows (store : LiveLocation) (userId : String) : Prop :=
  ∃ entry ∈ store.activeSosList, entry.userId = userId

instance (store : LiveLocation) (userId : String) : Decidable (store.Shows userId) :=
  inferInstanceAs (Decidable (∃ entry ∈ store.activeSosList, entry.userId = userId))

variable {store : LiveLocation} {userId : String}

theorem shows_iff : store.Shows userId ↔ ∃ entry ∈ store.sosByUser, entry.userId = userId := by
  simp only [Shows, activeSosList, (perm_insertionSort _ _).mem_iff]

@[simp] theorem applySos_crewId (entry : SosEntry) :
    (store.applySos entry).crewId = store.crewId := by
  rw [applySos]
  split <;> rfl

@[simp] theorem clearSos_crewId (raiserId : Option String) :
    (store.clearSos raiserId).crewId = store.crewId := by
  cases raiserId <;> rfl

theorem shows_applySos {entry : SosEntry} (h : store.crewId = some entry.crewId) :
    (store.applySos entry).Shows userId ↔ userId = entry.userId ∨ store.Shows userId := by
  have happly : (store.applySos entry).sosByUser =
      upsert SosEntry.userId entry store.sosByUser := by
    rw [applySos, if_neg (by simp [h])]
  simp only [shows_iff, happly, store.unique.mem_upsert_iff]
  constructor
  · rintro ⟨e, rfl | ⟨he, -⟩, rfl⟩
    · exact .inl rfl
    · exact .inr ⟨e, he, rfl⟩
  · rintro (rfl | ⟨e, he, rfl⟩)
    · exact ⟨entry, .inl rfl, rfl⟩
    · by_cases hkey : e.userId = entry.userId
      · exact ⟨entry, .inl rfl, hkey.symm⟩
      · exact ⟨e, .inr ⟨he, hkey⟩, rfl⟩

theorem shows_clearSos (raiserId : String) :
    (store.clearSos (some raiserId)).Shows userId ↔ store.Shows userId ∧ userId ≠ raiserId := by
  simp only [shows_iff, clearSos, mem_erase]
  constructor
  · rintro ⟨e, ⟨he, hne⟩, rfl⟩
    exact ⟨⟨e, he, rfl⟩, hne⟩
  · rintro ⟨⟨e, he, rfl⟩, hne⟩
    exact ⟨e, ⟨he, hne⟩, rfl⟩

/-- Two raisers are cleared alike only if neither is shown. -/
theorem erase_eq_iff (raiserId : String) :
    (store.clearSos (some userId)).sosByUser = (store.clearSos (some raiserId)).sosByUser ↔
      userId = raiserId ∨ ¬ store.Shows userId ∧ ¬ store.Shows raiserId := by
  constructor
  · intro h
    refine or_iff_not_imp_left.mpr fun hne => ?_
    have hmem : ∀ entry : SosEntry, entry ∈ store.sosByUser ∧ entry.userId ≠ userId ↔
        entry ∈ store.sosByUser ∧ entry.userId ≠ raiserId := by
      intro entry
      rw [← mem_erase, ← mem_erase]
      exact iff_of_eq (congrArg (entry ∈ ·) h)
    rw [shows_iff, shows_iff]
    constructor
    · rintro ⟨entry, hentry, rfl⟩
      exact ((hmem entry).mpr ⟨hentry, hne⟩).2 rfl
    · rintro ⟨entry, hentry, rfl⟩
      exact ((hmem entry).mp ⟨hentry, Ne.symm hne⟩).2 rfl
  · rintro (rfl | ⟨hu, hr⟩)
    · rfl
    · rw [shows_iff] at hu hr
      have hall : ∀ id, (¬ ∃ entry ∈ store.sosByUser, entry.userId = id) →
          erase SosEntry.userId id store.sosByUser = store.sosByUser := by
        intro id hid
        refine filter_eq_self.mpr fun entry hentry => ?_
        simpa using fun heq => hid ⟨entry, hentry, heq⟩
      exact (hall _ hu).trans (hall _ hr).symm

end LiveLocation

/-- A client that is connected: whose it is, and whether it clears its own store when a clear is
answered, as the web client does. -/
structure Client where
  userId : String
  web : Bool
  store : LiveLocation

/-- `matchesActiveCrew` -/
def matchesActiveCrew (crewId : String) (activeCrewId : Option String) : Bool :=
  activeCrewId.any fun active => active ≠ "" ∧ crewId = active

/-- A broadcast to `crew:${crewId}` reaches every client that is on the crew. -/
def broadcast (crewId : String) (handler : LiveLocation → LiveLocation) (clients : List Client) :
    List Client :=
  clients.map fun client =>
    if matchesActiveCrew crewId client.store.crewId then
      { client with store := handler client.store }
    else client

/-! ## The server -/

/-- `SOS_ACTIVE_TTL_MS` -/
def SOS_ACTIVE_TTL_MS : ℕ := 60 * 60 * 1000

/-- A request after its statement to Redis. -/
inductive Request where
  /-- a raise before its broadcast -/
  | raise (crewId userId : String) (raisedAt : ℕ)
  /-- a clear before its broadcast; the body names the raiser -/
  | clear (crewId userId raiserId : String)
  /-- a clear whose answer is on its way -/
  | cleared (crewId userId raiserId : String)
  deriving DecidableEq

/-- The flags `sos:active:${crewId}` with their expiry, the requests, the clients, and the SOS that
were raised and have not been cleared since. -/
structure State where
  now : ℕ
  flags : String → Option ℕ
  requests : List Request
  clients : List Client
  raised : List (String × String)

/-- Nobody has raised an SOS. -/
def start (now : ℕ) (clients : List Client) : State := ⟨now, fun _ => none, [], clients, []⟩

/-- The flag of the crew is set and has not expired at the time. -/
def State.Active (s : State) (now : ℕ) (crewId : String) : Prop :=
  ∃ expiry ∈ s.flags crewId, now ≤ expiry

instance (s : State) (now : ℕ) (crewId : String) : Decidable (s.Active now crewId) :=
  decidable_of_iff ((s.flags crewId).any (fun expiry => now ≤ expiry)) (by
    simp only [State.Active, Option.any_eq_true, decide_eq_true_eq, mem_def])

/-- `markSosActive`; `redis` says whether Redis answers. -/
def markSosActive (redis : Bool) (crewId : String) (s : State) : String → Option ℕ :=
  if redis ∧ crewId ≠ "" then update s.flags crewId (some (s.now + SOS_ACTIVE_TTL_MS))
  else s.flags

/-- What `clearSosActive` returns. -/
inductive ClearResult where
  | wasActive (active : Bool)
  | unknown
  deriving DecidableEq

/-- `clearSosActive`: the result and the flags. -/
def clearSosActive (redis : Bool) (crewId : String) (s : State) :
    ClearResult × (String → Option ℕ) :=
  if redis ∧ crewId ≠ "" then
    (.wasActive (decide (s.Active s.now crewId)), update s.flags crewId none)
  else (.unknown, s.flags)

/-- What the handlers answer. -/
inductive Answer where
  | ok
  | unavailable
  | notMember
  | rateLimited
  | noActiveSos
  deriving DecidableEq

/-- What a raise is checked for before it takes effect. -/
structure Checks where
  sosEnabled : Bool
  isMember : Bool
  allowed : Bool

/-- `POST /:crewId/sos` up to its statement to Redis. -/
def postSos (s : State) (crewId userId : String) (checks : Checks) (redis : Bool) :
    Answer × State :=
  if !checks.sosEnabled then (.unavailable, s)
  else if !checks.isMember then (.notMember, s)
  else if !checks.allowed then (.rateLimited, s)
  else
    (.ok, { s with
      flags := markSosActive redis crewId s
      requests := s.requests ++ [.raise crewId userId s.now] })

/-- `POST /:crewId/sos/clear` up to its statement to Redis. -/
def postSosClear (s : State) (crewId userId raiserId : String) (isMember redis : Bool) :
    Answer × State :=
  if !isMember then (.notMember, s)
  else
    let result := clearSosActive redis crewId s
    if result.1 = .wasActive false then (.noActiveSos, { s with flags := result.2 })
    else
      (.ok, { s with
        flags := result.2
        requests := s.requests ++ [.clear crewId userId raiserId]
        raised := s.raised.filter fun p => p ≠ (crewId, raiserId) })

/-! ## The steps -/

inductive Action where
  | wait (ms : ℕ)
  | raiseSos (crewId userId : String) (checks : Checks) (redis : Bool)
  | clearSos (crewId userId raiserId : String) (isMember redis : Bool)
  /-- the request at a place makes its broadcast -/
  | announce (i : ℕ)
  /-- the answer to a clear arrives at a client -/
  | answered (i k : ℕ)

/-- The broadcast of a request: `sos:raised`, or `sos:cleared` with who cleared. -/
def State.announce (s : State) (i : ℕ) : Request → Option State
  | .raise crewId userId raisedAt =>
      some { s with
        requests := s.requests.eraseIdx i
        clients := broadcast crewId (.applySos ⟨crewId, userId, raisedAt⟩) s.clients
        raised := (crewId, userId) :: s.raised }
  | .clear crewId userId raiserId =>
      some { s with
        requests := s.requests.set i (.cleared crewId userId raiserId)
        clients := broadcast crewId (.clearSos (some userId)) s.clients }
  | .cleared _ _ _ => none

/-- The web client clears the raiser in its own store. -/
def Client.onAnswer (raiserId : String) (client : Client) : Client :=
  if client.web then { client with store := client.store.clearSos (some raiserId) } else client

def step (s : State) : Action → Option State
  | .wait ms => some { s with now := s.now + ms }
  | .raiseSos crewId userId checks redis => some (postSos s crewId userId checks redis).2
  | .clearSos crewId userId raiserId isMember redis =>
      some (postSosClear s crewId userId raiserId isMember redis).2
  | .announce i => s.requests[i]?.bind (s.announce i)
  | .answered i k =>
      match s.requests[i]?, s.clients[k]? with
      | some (.cleared crewId userId raiserId), some client =>
          if client.userId = userId ∧ matchesActiveCrew crewId client.store.crewId then
            some { s with
              requests := s.requests.eraseIdx i
              clients := s.clients.set k (client.onAnswer raiserId) }
          else none
      | _, _ => none

/-! ## What is kept -/

def Client.OnCrew (client : Client) (crewId : String) : Prop :=
  matchesActiveCrew crewId client.store.crewId = true

instance (client : Client) (crewId : String) : Decidable (client.OnCrew crewId) :=
  inferInstanceAs (Decidable (_ = true))

/-- What is raised is active on every client that is on the crew. -/
def Shown (raised : List (String × String)) (clients : List Client) : Prop :=
  ∀ p ∈ raised, ∀ client ∈ clients, client.OnCrew p.1 → client.store.Shows p.2

/-- What is raised can be cleared. -/
def State.Clearable (s : State) : Prop := ∀ p ∈ s.raised, s.Active s.now p.1

/-- What is raised is shown and can be cleared. -/
structure Kept (s : State) : Prop where
  shown : Shown s.raised s.clients
  clearable : s.Clearable

/-- A clear is refused only when no SOS of the crew is up. -/
def RefusedRightly (s : State) : Action → Prop
  | .clearSos crewId userId raiserId isMember redis =>
      (postSosClear s crewId userId raiserId isMember redis).1 = .noActiveSos →
        ∀ p ∈ s.raised, p.1 ≠ crewId
  | _ => True

/-- The broadcast of a clear removes on every client of the crew the SOS that it is for. -/
def RemovesExactly (s : State) (a : Action) (t : State) : Prop :=
  ∀ i crewId userId raiserId, a = .announce i →
    s.requests[i]? = some (.clear crewId userId raiserId) →
      t.clients.map (fun client => client.store.sosByUser) =
        s.clients.map fun client =>
          if client.OnCrew crewId then (client.store.clearSos (some raiserId)).sosByUser
          else client.store.sosByUser

/-- A step keeps every SOS. -/
structure SosKept (s : State) (a : Action) (t : State) : Prop where
  kept : Kept t
  refused : RefusedRightly s a
  removes : RemovesExactly s a t

/-- A raise is announced while its flag is there, and what a clear removes from a client is only
what it is for. -/
def AnnouncedCarefully (s : State) : Request → Prop
  | .raise crewId _ _ => s.Active s.now crewId
  | .clear crewId userId raiserId =>
      ∀ client ∈ s.clients, client.OnCrew crewId →
        (userId = raiserId ∨ ¬ client.store.Shows userId ∧ ¬ client.store.Shows raiserId) ∧
          (crewId, userId) ∉ s.raised
  | .cleared _ _ _ => True

/-- The client does not clear what has been raised again. -/
def AnsweredCarefully (s : State) (client : Client) : Request → Prop
  | .cleared crewId _ raiserId => client.web = true → (crewId, raiserId) ∉ s.raised
  | _ => True

/-- No flag of an SOS that is up runs out, a clear takes the flag of no other member, and
broadcasts and answers clear only what they are for. -/
def Careful (s : State) : Action → Prop
  | .wait ms => ∀ p ∈ s.raised, s.Active (s.now + ms) p.1
  | .raiseSos _ _ _ _ => True
  | .clearSos crewId _ raiserId isMember redis =>
      isMember = true → redis = true → crewId ≠ "" → ∀ p ∈ s.raised, p.1 = crewId → p.2 = raiserId
  | .announce i => ∀ request ∈ s.requests[i]?, AnnouncedCarefully s request
  | .answered i k =>
      ∀ request ∈ s.requests[i]?, ∀ client ∈ s.clients[k]?, AnsweredCarefully s client request

instance (s : State) : ∀ request, Decidable (AnnouncedCarefully s request) := fun request => by
  unfold AnnouncedCarefully
  split <;> infer_instance

instance (s : State) (client : Client) : ∀ request, Decidable (AnsweredCarefully s client request) := fun request => by
  unfold AnsweredCarefully
  split <;> infer_instance

instance (s : State) : ∀ a, Decidable (Careful s a) := fun a => by
  unfold Careful
  split <;> infer_instance

/-! ## The broadcasts -/

section
variable {crewId userId : String} {raised : List (String × String)} {clients : List Client}
  {handler : LiveLocation → LiveLocation}

theorem onCrew_iff {client : Client} :
    client.OnCrew crewId ↔ client.store.crewId = some crewId ∧ crewId ≠ "" := by
  rw [Client.OnCrew, matchesActiveCrew, Option.any_eq_true]
  constructor
  · rintro ⟨active, hactive, hmatch⟩
    obtain ⟨hne, rfl⟩ := of_decide_eq_true hmatch
    exact ⟨hactive, hne⟩
  · rintro ⟨hactive, hne⟩
    exact ⟨crewId, hactive, decide_eq_true ⟨hne, rfl⟩⟩

/-- What is shown after a broadcast. -/
theorem shown_broadcast (hcrew : ∀ store, (handler store).crewId = store.crewId) :
    Shown raised (broadcast crewId handler clients) ↔ ∀ p ∈ raised, ∀ client ∈ clients,
      client.OnCrew p.1 → if p.1 = crewId then (handler client.store).Shows p.2
        else client.store.Shows p.2 := by
  refine forall₂_congr fun p _ => ?_
  rw [broadcast, List.forall_mem_map]
  refine forall₂_congr fun client _ => ?_
  have hsame : ∀ store : LiveLocation, store.crewId = client.store.crewId →
      ({ client with store := store }.OnCrew p.1 ↔ client.OnCrew p.1) := by
    intro store hstore
    rw [onCrew_iff, onCrew_iff, hstore]
  by_cases hon : client.OnCrew p.1
  · obtain ⟨hactive, -⟩ := onCrew_iff.mp hon
    by_cases hp : p.1 = crewId
    · rw [if_pos hp, if_pos (hp ▸ hon), hsame _ (hcrew _)]
    · have hoff : ¬ matchesActiveCrew crewId client.store.crewId = true := by
        intro hmatch
        obtain ⟨heq, -⟩ := onCrew_iff.mp hmatch
        exact hp (some.inj (hactive.symm.trans heq))
      rw [if_neg hp, if_neg hoff]
  · refine ⟨fun _ h => absurd h hon, fun _ h => absurd ?_ hon⟩
    split at h
    · exact (hsame _ (hcrew _)).mp h
    · exact h

/-- A raise is shown to everybody on the crew. -/
theorem shown_raise {raisedAt : ℕ} (h : Shown raised clients) :
    Shown ((crewId, userId) :: raised)
      (broadcast crewId (.applySos ⟨crewId, userId, raisedAt⟩) clients) := by
  rw [shown_broadcast fun store => LiveLocation.applySos_crewId _]
  intro p hp client hclient hon
  have hactive := (onCrew_iff.mp hon).1
  split
  · rename_i heq
    rw [LiveLocation.shows_applySos (by rw [hactive, heq])]
    rcases mem_cons.mp hp with rfl | hp
    · exact .inl rfl
    · exact .inr (h p hp client hclient hon)
  · rename_i hne
    rcases mem_cons.mp hp with rfl | hp
    · exact absurd rfl hne
    · exact h p hp client hclient hon

/-- After a clear is broadcast, the others are still shown if the one it names is not up. -/
theorem shown_clear (h : Shown raised clients) :
    Shown raised (broadcast crewId (.clearSos (some userId)) clients) ↔
      ∀ client ∈ clients, client.OnCrew crewId → (crewId, userId) ∉ raised := by
  rw [shown_broadcast fun store => LiveLocation.clearSos_crewId _]
  constructor
  · intro hshown client hclient hon hraised
    have hshows := hshown _ hraised client hclient hon
    rw [if_pos rfl, LiveLocation.shows_clearSos] at hshows
    exact hshows.2 rfl
  · intro hfree p hp client hclient hon
    have hshows := h p hp client hclient hon
    split
    · rename_i heq
      rw [LiveLocation.shows_clearSos]
      refine ⟨hshows, fun hname => hfree client hclient (heq ▸ hon) ?_⟩
      rwa [← heq, ← hname]
    · exact hshows

/-- The broadcast names who cleared: what it removes. -/
theorem removes_clear (raiserId : String) :
    (broadcast crewId (.clearSos (some userId)) clients).map (fun client => client.store.sosByUser) =
        clients.map (fun client =>
          if client.OnCrew crewId then (client.store.clearSos (some raiserId)).sosByUser
          else client.store.sosByUser) ↔
      ∀ client ∈ clients, client.OnCrew crewId →
        userId = raiserId ∨ ¬ client.store.Shows userId ∧ ¬ client.store.Shows raiserId := by
  rw [broadcast, List.map_map, map_inj_left]
  refine forall₂_congr fun client _ => ?_
  by_cases hon : client.OnCrew crewId
  · have hmatch : matchesActiveCrew crewId client.store.crewId = true := hon
    simp only [comp_apply, if_pos hmatch, hon, if_true, LiveLocation.erase_eq_iff,
      forall_const]
  · have hmatch : ¬ matchesActiveCrew crewId client.store.crewId = true := hon
    simp only [comp_apply, if_neg hmatch, hon, if_false, false_implies]

end

/-! ## The requests -/

section
variable {s t : State} {crewId userId raiserId : String}

theorem active_update (crew : String) (expiry : Option ℕ) (flags : String → Option ℕ) (now : ℕ)
    (requests : List Request) (clients : List Client) (raised : List (String × String))
    (clock : ℕ) :
    State.Active ⟨clock, update flags crewId expiry, requests, clients, raised⟩ now crew ↔
      if crew = crewId then ∃ e ∈ expiry, now ≤ e else ∃ e ∈ flags crew, now ≤ e := by
  simp only [State.Active, update_apply]
  split <;> rfl

/-- Marking a crew takes no flag away. -/
theorem kept_postSos (h : Kept s) (checks : Checks) (redis : Bool) :
    Kept (postSos s crewId userId checks redis).2 := by
  rw [postSos]
  split_ifs
  · exact h
  · exact h
  · exact h
  · refine ⟨h.shown, fun p hp => ?_⟩
    have hactive := h.clearable p hp
    change ∃ e ∈ markSosActive redis crewId s p.1, s.now ≤ e
    rw [markSosActive]
    split_ifs
    · rw [update_apply]
      split_ifs
      · exact ⟨_, rfl, Nat.le_add_right _ _⟩
      · exact hactive
    · exact hactive

/-- A refused clear found no flag, so there was nothing to clear. -/
theorem refusedRightly_clearSos (h : Kept s) (isMember redis : Bool) :
    RefusedRightly s (.clearSos crewId userId raiserId isMember redis) := by
  intro hrefused p hp heq
  have hactive : s.Active s.now crewId := heq ▸ h.clearable p hp
  rw [postSosClear, clearSosActive] at hrefused
  split_ifs at hrefused <;> simp_all

/-- A clear leaves what can be cleared when no other member has an SOS up. -/
theorem kept_postSosClear (h : Kept s) (isMember redis : Bool) :
    Kept (postSosClear s crewId userId raiserId isMember redis).2 ↔
      (isMember = true → redis = true → crewId ≠ "" →
        ∀ p ∈ s.raised, p.1 = crewId → p.2 = raiserId) := by
  cases isMember with
  | false => simp [postSosClear, h]
  | true =>
    by_cases hredis : redis = true ∧ crewId ≠ ""
    · have hresult : clearSosActive redis crewId s =
          (.wasActive (decide (s.Active s.now crewId)), update s.flags crewId none) := by
        rw [clearSosActive, if_pos hredis]
      by_cases hactive : s.Active s.now crewId
      · have hpost : (postSosClear s crewId userId raiserId true redis).2 = { s with
            flags := update s.flags crewId none
            requests := s.requests ++ [.clear crewId userId raiserId]
            raised := s.raised.filter fun p => p ≠ (crewId, raiserId) } := by
          simp [postSosClear, hresult, hactive]
        rw [hpost]
        constructor
        · intro hkept _ _ _ p hp heq
          by_contra hne
          have hmem : p ∈ s.raised.filter fun p => p ≠ (crewId, raiserId) := by
            refine mem_filter.mpr ⟨hp, ?_⟩
            simpa using fun hpair => hne (by rw [hpair])
          have hflag := (active_update ..).mp (hkept.clearable p hmem)
          rw [if_pos heq] at hflag
          simp at hflag
        · intro hown
          refine ⟨fun p hp => h.shown p (mem_of_mem_filter hp), fun p hp => ?_⟩
          obtain ⟨hp, hne⟩ := mem_filter.mp hp
          refine (active_update ..).mpr ?_
          rw [if_neg ?_]
          · exact h.clearable p hp
          · intro heq
            have hraiser := hown rfl hredis.1 hredis.2 p hp heq
            exact of_decide_eq_true hne (Prod.ext heq hraiser)
      · have hpost : (postSosClear s crewId userId raiserId true redis).2 =
            { s with flags := update s.flags crewId none } := by
          simp [postSosClear, hresult, hactive]
        have hfree : ∀ p ∈ s.raised, p.1 ≠ crewId := fun p hp heq =>
          hactive (heq ▸ h.clearable p hp)
        rw [hpost]
        constructor
        · exact fun _ _ _ _ p hp heq => absurd heq (hfree p hp)
        · refine fun _ => ⟨h.shown, fun p hp => ?_⟩
          refine (active_update ..).mpr ?_
          rw [if_neg (hfree p hp)]
          exact h.clearable p hp
    · have hresult : clearSosActive redis crewId s = (.unknown, s.flags) := by
        rw [clearSosActive, if_neg hredis]
      have hpost : (postSosClear s crewId userId raiserId true redis).2 = { s with
          requests := s.requests ++ [.clear crewId userId raiserId]
          raised := s.raised.filter fun p => p ≠ (crewId, raiserId) } := by
        simp [postSosClear, hresult]
      rw [hpost]
      constructor
      · exact fun _ _ hr hc => absurd ⟨hr, hc⟩ hredis
      · exact fun _ => ⟨fun p hp => h.shown p (mem_of_mem_filter hp),
          fun p hp => h.clearable p (mem_of_mem_filter hp)⟩

end

/-! ## The steps -/

section
variable {s t : State}

theorem removesExactly_of_ne {a : Action} (h : ∀ i, a ≠ .announce i) : RemovesExactly s a t :=
  fun i _ _ _ ha => absurd ha (h i)

/-- A step without a broadcast of a clear keeps what its state keeps. -/
theorem sosKept_iff_kept {a : Action} (hrefused : RefusedRightly s a)
    (hremoves : RemovesExactly s a t) : SosKept s a t ↔ Kept t :=
  ⟨fun h => h.kept, fun h => ⟨h, hrefused, hremoves⟩⟩

theorem sosKept_announce {i : ℕ} (h : Kept s) (hstep : step s (.announce i) = some t) :
    SosKept s (.announce i) t ↔ Careful s (.announce i) := by
  obtain ⟨request, hrequest, hannounce⟩ := bind_eq_some_iff.mp hstep
  have hcareful : Careful s (.announce i) ↔ AnnouncedCarefully s request := by
    simp [Careful, hrequest]
  rw [hcareful]
  cases request with
  | raise crewId userId raisedAt =>
    obtain rfl := some.inj hannounce
    have hremoves : RemovesExactly s (.announce i) { s with
        requests := s.requests.eraseIdx i
        clients := broadcast crewId (.applySos ⟨crewId, userId, raisedAt⟩) s.clients
        raised := (crewId, userId) :: s.raised } := by
      intro j _ _ _ hj hclear
      cases hj
      rw [hrequest] at hclear
      cases hclear
    rw [sosKept_iff_kept (a := .announce i) trivial hremoves]
    constructor
    · exact fun hkept => hkept.clearable (crewId, userId) mem_cons_self
    · refine fun hactive => ⟨shown_raise h.shown, fun p hp => ?_⟩
      rcases mem_cons.mp hp with rfl | hp
      · exact hactive
      · exact h.clearable p hp
  | clear crewId userId raiserId =>
    obtain rfl := some.inj hannounce
    constructor
    · intro hkept client hclient hon
      have hremoves := (removes_clear raiserId).mp (hkept.removes i _ _ _ rfl hrequest)
      exact ⟨hremoves client hclient hon, (shown_clear h.shown).mp hkept.kept.shown client hclient hon⟩
    · intro hall
      refine ⟨⟨(shown_clear h.shown).mpr fun client hclient hon => (hall client hclient hon).2,
        h.clearable⟩, trivial, ?_⟩
      intro j c u r hj hclear
      cases hj
      obtain ⟨rfl, rfl, rfl⟩ := Request.clear.inj (some.inj (hrequest.symm.trans hclear))
      exact (removes_clear raiserId).mpr fun client hclient hon => (hall client hclient hon).1
  | cleared crewId userId raiserId => cases hannounce

/-- The client whose clear is answered shows what it did, without the raiser. -/
theorem shown_answered {k : ℕ} {client : Client} {crewId raiserId : String}
    {raised : List (String × String)} {clients : List Client} (h : Shown raised clients)
    (hclient : clients[k]? = some client) (hon : client.OnCrew crewId) :
    Shown raised (clients.set k (client.onAnswer raiserId)) ↔
      (client.web = true → (crewId, raiserId) ∉ raised) := by
  have hmem := mem_of_getElem? hclient
  rw [Client.onAnswer]
  split_ifs with hweb
  · have hsame : ∀ crew, { client with store := client.store.clearSos (some raiserId) }.OnCrew crew ↔
        client.OnCrew crew := by
      intro crew
      rw [onCrew_iff, onCrew_iff, LiveLocation.clearSos_crewId]
    constructor
    · intro hshown _ hraised
      have hshows := hshown _ hraised _ (mem_set_self hclient _) ((hsame _).mpr hon)
      exact ((LiveLocation.shows_clearSos raiserId).mp hshows).2 rfl
    · intro hfree p hp
      refine forall_mem_set (h p hp) fun hcrew => ?_
      have hcrew := (hsame _).mp hcrew
      refine (LiveLocation.shows_clearSos raiserId).mpr ⟨h p hp client hmem hcrew, fun hname => ?_⟩
      have heq : p.1 = crewId :=
        some.inj ((onCrew_iff.mp hcrew).1.symm.trans (onCrew_iff.mp hon).1)
      exact hfree hweb (by rwa [← heq, ← hname])
  · refine ⟨fun _ hw => absurd hw hweb, fun _ p hp => forall_mem_set (h p hp) ?_⟩
    exact h p hp client hmem

theorem sosKept_answered {i k : ℕ} (h : Kept s) (hstep : step s (.answered i k) = some t) :
    SosKept s (.answered i k) t ↔ Careful s (.answered i k) := by
  rw [step] at hstep
  split at hstep
  · rename_i crewId userId raiserId client hrequest hclient
    split_ifs at hstep with hon
    obtain rfl := some.inj hstep
    have hcareful : Careful s (.answered i k) ↔
        (client.web = true → (crewId, raiserId) ∉ s.raised) := by
      simp [Careful, AnsweredCarefully, hrequest, hclient]
    rw [sosKept_iff_kept (a := .answered i k) trivial (removesExactly_of_ne nofun), hcareful,
      ← shown_answered h.shown hclient hon.2]
    exact ⟨fun hkept => hkept.shown, fun hshown => ⟨hshown, h.clearable⟩⟩
  · cases hstep

/-- A step keeps every SOS exactly when it is careful. -/
theorem sosKept_iff_careful {a : Action} (h : Kept s) (hstep : step s a = some t) :
    SosKept s a t ↔ Careful s a := by
  cases a with
  | wait ms =>
    obtain rfl := some.inj hstep
    rw [sosKept_iff_kept (a := .wait ms) trivial (removesExactly_of_ne nofun)]
    exact ⟨fun hkept => hkept.clearable, fun hflags => ⟨h.shown, hflags⟩⟩
  | raiseSos crewId userId checks redis =>
    obtain rfl := some.inj hstep
    rw [sosKept_iff_kept (a := .raiseSos ..) trivial (removesExactly_of_ne nofun)]
    exact ⟨fun _ => trivial, fun _ => kept_postSos h checks redis⟩
  | clearSos crewId userId raiserId isMember redis =>
    obtain rfl := some.inj hstep
    rw [sosKept_iff_kept (refusedRightly_clearSos h isMember redis) (removesExactly_of_ne nofun)]
    exact kept_postSosClear h isMember redis
  | announce i => exact sosKept_announce h hstep
  | answered i k => exact sosKept_answered h hstep

end

theorem kept_start (now : ℕ) (clients : List Client) : Kept (start now clients) :=
  ⟨fun _ hp => (nomatch hp), fun _ hp => (nomatch hp)⟩

/-- **The steps of a run keep every SOS exactly when they are careful.** -/
theorem kept_iff_careful {now : ℕ} {clients : List Client} {as : List Action} {t : State}
    (hrun : Machine.run step (start now clients) as = some t) :
    Machine.Each step SosKept (start now clients) as ↔
      Machine.Meets step Careful (start now clients) as :=
  Machine.each_iff_meets (fun _ _ _ hs hC hstep => ((sosKept_iff_careful hs hstep).mpr hC).kept)
    (fun _ _ _ => sosKept_iff_careful) (kept_start now clients) hrun

/-! ## Runs -/

def onCrew (userId : String) : Client := ⟨userId, true, .empty (some "crew")⟩

def ready : Checks := ⟨true, true, true⟩

/-- Alice raises an SOS and clears it herself. -/
def ownClear : List Action :=
  [.raiseSos "crew" "alice" ready true, .announce 0, .wait 60000,
    .clearSos "crew" "alice" "alice" true true, .announce 0, .answered 0 0]

theorem own_clear_kept :
    Machine.Each step SosKept (start 0 [onCrew "alice", onCrew "bob"]) ownClear :=
  have hrun : ∃ t, Machine.run step (start 0 [onCrew "alice", onCrew "bob"]) ownClear = some t :=
    ⟨_, rfl⟩
  hrun.elim fun _ h => (kept_iff_careful h).mpr (by decide)

/-- Alice and Bob have raised an SOS, and Carol clears that of Alice. -/
def clearForAnother : List Action :=
  [.raiseSos "crew" "alice" ready true, .announce 0, .raiseSos "crew" "bob" ready true, .announce 0,
    .clearSos "crew" "carol" "alice" true true, .announce 0,
    .clearSos "crew" "bob" "bob" true true]

/-- The flag of the crew is gone, so Bob is told that there is no SOS to clear; and the SOS of Alice
is still up on every client. -/
theorem clear_for_another_strands :
    ¬ Machine.Each step SosKept (start 0 [onCrew "alice", onCrew "bob"]) clearForAnother := by
  have hrun : ∃ t, Machine.run step (start 0 [onCrew "alice", onCrew "bob"]) clearForAnother =
      some t := ⟨_, rfl⟩
  obtain ⟨t, hrun⟩ := hrun
  rw [Machine.each_iff_meets
    (fun _ _ _ hs hC hstep => ((sosKept_iff_careful hs hstep).mpr hC).kept)
    (fun _ _ _ => sosKept_iff_careful) (kept_start _ _) hrun]
  decide

end FestivalPlanner.SosAlerts
