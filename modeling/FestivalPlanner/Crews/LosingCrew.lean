import FestivalPlanner.Crews.ActiveCrew

/-!
# Losing a crew

A user leaves a crew, deletes it, is kicked from it or has the access revoked, while lists of the
crew are held and answers for it are still to come.

* `partialize` — the part of the store that is persisted;
* `State` — the store with the overlap of the picks, and the crews that were lost;
* `step` — the requests of `ActiveCrew`, the four ways to lose a crew, and a restart;
* `Clean` — no row of a lost crew is held or persisted;
* `Gone` — the condition on a step: what it does not clear, or brings, is not of a lost crew;
* `clean_iff` — all states of a run are clean exactly when its steps meet the condition.
-/

namespace FestivalPlanner.LosingCrew

open CrewStore
open List (not_mem_nil mem_map mem_of_mem_filter mem_append mem_map_of_mem mem_cons_self)
open ActiveCrew (InCrew Rows crewsOf sublists sublistCrews heldCrews Answer)

/-! ## What is held and persisted -/

/-- The crew is the one whose answer had the entry. -/
structure CrewOverlap where
  crewId : String
  setId : String
  memberCount : ℕ
  members : List CrewMember

instance : InCrew CrewOverlap := ⟨CrewOverlap.crewId⟩

/-- What `partialize` keeps of a store: the head of some lists, and no flags. -/
def partialize (s : Store) : Store :=
  { Store.initial with
    crews := s.crews
    activeCrew := s.activeCrew
    crewMembers := s.crewMembers
    meetingPoints := s.meetingPoints
    polls := s.polls.take maxCachedPolls
    packingItems := s.packingItems.take 200
    rideOffers := s.rideOffers.take 200
    crewStatuses := s.crewStatuses.take 100
    expenses := s.expenses.take 100
    expenseBalances := s.expenseBalances
    settlements := s.settlements
    activity := s.activity.take 50
    cachedAt := s.cachedAt
    cachedCrewId := s.cachedCrewId }

/-- The crews of the members of a crew. -/
def rosterOf (crew : Crew) : List String := crewsOf (crew.members.getD [])

/-- The crews of all rows in a store, those in `activeCrew` and `crews` included. -/
def storeCrews (s : Store) : List String :=
  s.activeCrew.toList.flatMap rosterOf ++ (s.crews.flatMap rosterOf ++ heldCrews s)

/-! ## The machine -/

inductive Request where
  | loadCrews
  | loadOverlap (crewId : String)
  | leaveCrew (crewId : String)
  | deleteCrew (crewId : String)
  deriving DecidableEq

structure State where
  base : ActiveCrew.State
  /-- `crewOverlap` -/
  overlap : List CrewOverlap
  inFlight : List Request
  /-- The crews that the user is no longer in. -/
  lost : List String

inductive Action where
  | crew (a : ActiveCrew.Action)
  | call (request : Request)
  | loadCrews (crews : List Crew)
  | loadOverlap (crewId : String) (overlap : Rows CrewOverlap crewId)
  | leaveCrew (crewId : String)
  | deleteCrew (crewId : String)
  | reject (request : Request) (message : String)
  | applyCrewAccessRevoked (crewId : String)
  | applyCrewMemberKicked (crewId userId : String)
  /-- The user is in the crew again. -/
  | joined (crewId : String)
  | restart

/-- The crew that the user is in through an answer. -/
def createdCrew : ActiveCrew.Action → Option String
  | .answer _ (.createCrew crew) => some crew.id
  | .answer _ (.reformCrew _ crew) => some crew.id
  | _ => none

def State.setStore (s : State) (store : Store) : State :=
  { s with base := { s.base with store := store } }

/-- Another crew than the active one only goes from the list. -/
def State.accessRevoked (s : State) (crewId : String) : State :=
  let crews := without crewId s.base.store.crews
  if s.base.store.IsActive crewId then
    { s.setStore { s.base.store with
        crews := crews
        activeCrew := none
        crewMembers := []
        polls := []
        meetingPoints := []
        packingItems := []
        rideOffers := []
        crewStatuses := []
        expenses := []
        expenseBalances := []
        settlements := []
        activity := []
        cachedAt := none
        cachedCrewId := none } with
      overlap := [] }
  else s.setStore { s.base.store with crews := crews }

def State.applyCrewAccessRevoked (s : State) (crewId : String) : State :=
  if crewId = "" then s
  else { s.accessRevoked crewId with lost := crewId :: s.lost }

/-- The crew without a member. -/
def dropMember (crew : Crew) (userId : String) : Crew :=
  { crew with
    members := some ((crew.members.getD []).filter (fun m => m.userId ≠ userId))
    ofCrew := by
      rintro _ ⟨rfl⟩ m hm
      have hmem := mem_of_mem_filter hm
      cases hmembers : crew.members with
      | none => simp [hmembers] at hmem
      | some l => exact crew.ofCrew l hmembers m (by simpa [hmembers] using hmem) }

/-- Another member was kicked. -/
def State.memberKicked (s : State) (crewId userId : String) : State :=
  if s.base.store.IsActive crewId then
    s.setStore { s.base.store with
      crewMembers := s.base.store.crewMembers.filter (fun m => m.userId ≠ userId)
      activeCrew := s.base.store.activeCrew.map (fun crew => dropMember crew userId) }
  else s

/-- `me` is the user who is signed in. -/
def State.applyCrewMemberKicked (me : Option String) (s : State) (crewId userId : String) : State :=
  if crewId = "" ∨ userId = "" then s
  else if me = some userId ∧ userId ≠ "" then s.applyCrewAccessRevoked crewId
  else s.memberKicked crewId userId

variable (me : Option String)

@[grind =] def step (s : State) : Action → Option State
  | .crew a =>
      (ActiveCrew.step s.base a).map fun base =>
        { s with base := base, lost := s.lost.filter (fun c => createdCrew a ≠ some c) }
  | .call request =>
      some { s.setStore
          (match request with
            | .loadCrews => s.base.store.beginLoading
            | _ => s.base.store.begin) with
        inFlight := request :: s.inFlight }
  | .loadCrews crews =>
      if .loadCrews ∈ s.inFlight then
        some { s.setStore (s.base.store.loadCrews crews) with
          inFlight := s.inFlight.erase .loadCrews }
      else none
  | .loadOverlap crewId overlap =>
      if .loadOverlap crewId ∈ s.inFlight then
        some { s with
          overlap := overlap.rows
          inFlight := s.inFlight.erase (.loadOverlap crewId) }
      else none
  | .leaveCrew crewId =>
      if .leaveCrew crewId ∈ s.inFlight then
        some { s.setStore (s.base.store.leaveCrew crewId) with
          inFlight := s.inFlight.erase (.leaveCrew crewId)
          lost := crewId :: s.lost }
      else none
  | .deleteCrew crewId =>
      if .deleteCrew crewId ∈ s.inFlight then
        some { s.setStore (s.base.store.deleteCrew crewId) with
          inFlight := s.inFlight.erase (.deleteCrew crewId)
          lost := crewId :: s.lost }
      else none
  | .reject request message =>
      if request ∈ s.inFlight then
        some { s.setStore
            (match request with
              | .loadCrews => s.base.store.failedLoading message
              | _ => s.base.store.failed message) with
          inFlight := s.inFlight.erase request }
      else none
  | .applyCrewAccessRevoked crewId => some (s.applyCrewAccessRevoked crewId)
  | .applyCrewMemberKicked crewId userId => some (s.applyCrewMemberKicked me crewId userId)
  | .joined crewId => some { s with lost := s.lost.filter (fun c => c ≠ crewId) }
  | .restart =>
      some { s with
        base :=
          { store := partialize s.base.store
            lastSelectCrewId := none
            inFlight := [] }
        overlap := []
        inFlight := [] }

/-! ## The property and the condition -/

/-- The crews of all rows that are held. -/
def held (s : State) : List String := storeCrews s.base.store ++ crewsOf s.overlap

/-- Nothing of a lost crew is held or persisted. -/
def Clean (s : State) : Prop :=
  ∀ c ∈ s.lost, c ∉ held s ∧ c ∉ storeCrews (partialize s.base.store)

/-- The crews of the rows that an answer brings. -/
def brought (s : ActiveCrew.State) : Answer → List String
  | .selectCrew crew => if s.lastSelectCrewId = some crew.id then rosterOf crew else []
  | .createCrew crew => rosterOf crew
  | .reformCrew _ crew => rosterOf crew
  | .kickMember _ _ | .transferOwnership _ _ => []
  | .loadPolls _ list => crewsOf (dropOptimistic list.rows)
  | .loadMeetingPoints _ meetingPoints => crewsOf (dropOptimistic meetingPoints.rows)
  | .loadPacking _ items => crewsOf (dropOptimistic items.rows)
  | .loadRides _ offers => crewsOf (dropOptimistic offers.rows)
  | .loadStatuses _ statuses => crewsOf (dropOptimistic statuses.rows)
  | .loadExpenses _ expenses => crewsOf (dropOptimistic expenses.rows)
  | .loadBalances _ balances settlements => crewsOf balances.rows ++ crewsOf settlements.rows
  | .loadActivity _ activity => crewsOf activity.rows

/-- The crew is the active one, whose lists are all cleared, or no list has a row of it. -/
def Revocable (s : State) (crewId : String) : Prop :=
  s.base.store.IsActive crewId ∨ crewId ∉ heldCrews s.base.store ∧ crewId ∉ crewsOf s.overlap

/-- An answer brings no row of a lost crew.  When a crew is left, only the members are held, and
only if it is active; when it is deleted, nothing is. -/
def Gone (s : State) : Action → Prop
  | .crew (.answer now answer) =>
      ∀ c ∈ brought s.base answer, createdCrew (.answer now answer) ≠ some c → c ∉ s.lost
  | .loadCrews crews => ∀ c ∈ crews.flatMap rosterOf, c ∉ s.lost
  | .loadOverlap _ overlap => ∀ c ∈ crewsOf overlap.rows, c ∉ s.lost
  | .leaveCrew crewId =>
      crewId ∉ sublistCrews s.base.store ∧ crewId ∉ crewsOf s.overlap ∧
        (s.base.store.IsActive crewId ∨ crewId ∉ crewsOf s.base.store.crewMembers)
  | .deleteCrew crewId => crewId ∉ heldCrews s.base.store ∧ crewId ∉ crewsOf s.overlap
  | .applyCrewAccessRevoked crewId => crewId ≠ "" → Revocable s crewId
  | .applyCrewMemberKicked crewId userId =>
      crewId ≠ "" → userId ≠ "" → me = some userId → Revocable s crewId
  | _ => True

/-! ## What a step leaves -/

variable {c crewId newOwnerId : String} {crew : Crew}

theorem mem_storeCrews {s : Store} :
    c ∈ storeCrews s ↔ (∃ crew, s.activeCrew = some crew ∧ c ∈ rosterOf crew) ∨
      (∃ crew ∈ s.crews, c ∈ rosterOf crew) ∨ c ∈ heldCrews s := by
  simp [storeCrews]

theorem mem_rosterOf (h : c ∈ rosterOf crew) : c = crew.id := by
  obtain ⟨m, hm, rfl⟩ := List.mem_map.mp h
  cases hmembers : crew.members with
  | none => simp [hmembers] at hm
  | some l => exact crew.ofCrew l hmembers m (by simpa [hmembers] using hm)

theorem mem_heldCrews {s : Store} :
    c ∈ heldCrews s ↔ c ∈ crewsOf s.crewMembers ∨ ∃ l ∈ sublists s, c ∈ l := by
  rw [heldCrews, mem_append, sublistCrews, List.mem_flatten]

theorem mem_crewsOf_take {α : Type} [InCrew α] {l : List α} {n : ℕ} (h : c ∈ crewsOf (l.take n)) :
    c ∈ crewsOf l := by
  obtain ⟨x, hx, rfl⟩ := List.mem_map.mp h
  exact mem_map_of_mem (List.mem_of_mem_take hx)

/-- What is persisted is held. -/
theorem storeCrews_partialize {s : Store} (h : c ∈ storeCrews (partialize s)) :
    c ∈ storeCrews s := by
  rw [mem_storeCrews] at h ⊢
  refine h.imp_right (Or.imp_right fun h => ?_)
  rw [mem_heldCrews] at h ⊢
  refine h.imp_right ?_
  simp only [sublists, List.mem_cons, not_mem_nil, or_false, exists_eq_or_imp, exists_eq_left]
  exact Or.imp mem_crewsOf_take (Or.imp_right (Or.imp mem_crewsOf_take (Or.imp mem_crewsOf_take
    (Or.imp mem_crewsOf_take (Or.imp mem_crewsOf_take (Or.imp_right (Or.imp_right
      mem_crewsOf_take)))))))

variable {me} {s t : State}

theorem clean_iff_held : Clean s ↔ ∀ c ∈ s.lost, c ∉ held s := by
  refine forall₂_congr fun c _ => and_iff_left_of_imp fun h hc => h ?_
  exact List.mem_append_left _ (storeCrews_partialize hc)

/-- The rows of `new` come, and nothing else. -/
theorem clean_iff_new (h : Clean s) (new : List String) (hlost : ∀ c ∈ t.lost, c ∈ s.lost)
    (hsub : ∀ c ∈ held t, c ∈ held s ∨ c ∈ new) (hsup : ∀ c ∈ new, c ∈ held t) :
    Clean t ↔ ∀ c ∈ new, c ∉ t.lost := by
  rw [clean_iff_held] at h ⊢
  constructor
  · intro hclean c hc hclost
    exact hclean c hclost (hsup c hc)
  · intro hnew c hclost hheld
    rcases hsub c hheld with hold | hc
    · exact h c (hlost c hclost) hold
    · exact hnew c hc hclost

theorem Clean.mono (h : Clean s) (hlost : ∀ c ∈ t.lost, c ∈ s.lost)
    (hsub : ∀ c ∈ held t, c ∈ held s) : Clean t :=
  (clean_iff_new h [] hlost (fun c hc => .inl (hsub c hc)) (fun _ hc => absurd hc
    not_mem_nil)).mpr fun _ hc => absurd hc not_mem_nil

/-- A crew is lost. -/
theorem clean_iff_lose (h : Clean s) (hlost : t.lost = crewId :: s.lost)
    (hsub : ∀ c ∈ held t, c ∈ held s) : Clean t ↔ crewId ∉ held t := by
  rw [clean_iff_held] at h ⊢
  rw [hlost, List.forall_mem_cons]
  exact and_iff_left fun c hc hheld => h c hc (hsub c hheld)

theorem mem_held :
    c ∈ held s ↔ c ∈ storeCrews s.base.store ∨ c ∈ crewsOf s.overlap := mem_append

/-! ## The requests of the open crew -/

theorem storeCrews_selectCrew {s : Store} (h : c ∈ storeCrews (s.selectCrew crewId)) :
    c ∈ storeCrews s := by
  rw [mem_storeCrews] at h ⊢
  rcases h with ⟨crew, hcrew, hc⟩ | h | h
  · simp only [Store.selectCrew] at hcrew
    split_ifs at hcrew
    exact .inl ⟨crew, hcrew, hc⟩
  · exact .inr (.inl h)
  · refine .inr (.inr ?_)
    simp only [heldCrews, sublistCrews, sublists, Store.selectCrew] at h ⊢
    by_cases hsame : s.cachedCrewId = some crewId ∨ s.IsActive crewId
    · simpa only [if_pos hsame] using h
    · simp [if_neg hsame, crewsOf] at h

variable {request : ActiveCrew.Request} {new : List String} {userId : String}

theorem storeCrews_send {s : ActiveCrew.State} (h : c ∈ storeCrews (s.send request).store) :
    c ∈ storeCrews s.store := by
  cases request with
  | selectCrew crewId => exact storeCrews_selectCrew h
  | createCrew => exact h
  | reformCrew sourceCrewId => exact h
  | kickMember crewId memberId => exact h
  | transferOwnership crewId newOwnerId => exact h
  | load resource crewId => exact h

theorem storeCrews_reject {s : ActiveCrew.State} {message : String} :
    storeCrews (s.reject message request).store = storeCrews s.store := by
  cases request <;> rfl

/-- The lists change by the rows of `new`. -/
theorem storeCrews_lists {s t : Store} (hactive : t.activeCrew = s.activeCrew)
    (hcrews : t.crews = s.crews) (hsub : ∀ c ∈ heldCrews t, c ∈ heldCrews s ∨ c ∈ new)
    (hsup : ∀ c ∈ new, c ∈ heldCrews t) :
    (∀ c ∈ storeCrews t, c ∈ storeCrews s ∨ c ∈ new) ∧ ∀ c ∈ new, c ∈ storeCrews t := by
  refine ⟨fun c hc => ?_, fun c hc => mem_storeCrews.mpr (.inr (.inr (hsup c hc)))⟩
  rw [mem_storeCrews, hactive, hcrews] at hc
  rw [mem_storeCrews]
  rcases hc with hc | hc | hc
  · exact .inl (.inl hc)
  · exact .inl (.inr (.inl hc))
  · exact (hsub c hc).imp_left fun hc => .inr (.inr hc)

/-- One of the lists is replaced. -/
theorem storeCrews_load {s t : Store} {i : ℕ} (hi : i < 9)
    (hset : sublists t = (sublists s).set i new) (hactive : t.activeCrew = s.activeCrew)
    (hcrews : t.crews = s.crews) (hmembers : t.crewMembers = s.crewMembers) :
    (∀ c ∈ storeCrews t, c ∈ storeCrews s ∨ c ∈ new) ∧ ∀ c ∈ new, c ∈ storeCrews t := by
  have hin : new ∈ sublists t := hset ▸ List.mem_set hi _
  refine storeCrews_lists hactive hcrews (fun c hc => ?_) fun c hc => ?_
  · rw [mem_heldCrews, hmembers] at hc
    rw [mem_heldCrews]
    rcases hc with hc | ⟨l, hl, hc⟩
    · exact .inl (.inl hc)
    · rcases List.mem_or_eq_of_mem_set (hset ▸ hl) with hold | rfl
      · exact .inl (.inr ⟨l, hold, hc⟩)
      · exact .inr hc
  · exact mem_heldCrews.mpr (.inr ⟨new, hin, hc⟩)

/-- A crew becomes the active one, with its members. -/
theorem storeCrews_open {s t : Store} (hactive : t.activeCrew = some crew)
    (hmembers : t.crewMembers = crew.members.getD []) (hlists : sublists t = sublists s)
    (hcrews : ∀ other ∈ t.crews, other ∈ s.crews ∨ other = crew) :
    (∀ c ∈ storeCrews t, c ∈ storeCrews s ∨ c ∈ rosterOf crew) ∧
      ∀ c ∈ rosterOf crew, c ∈ storeCrews t := by
  refine ⟨fun c hc => ?_, fun c hc => mem_storeCrews.mpr (.inl ⟨crew, hactive, hc⟩)⟩
  rw [mem_storeCrews, mem_heldCrews, hmembers, hlists] at hc
  rw [mem_storeCrews, mem_heldCrews]
  rcases hc with ⟨other, hother, hc⟩ | ⟨other, hother, hc⟩ | hc | hc
  · obtain rfl := Option.some.inj (hactive.symm.trans hother)
    exact .inr hc
  · rcases hcrews other hother with hold | rfl
    · exact .inl (.inr (.inl ⟨other, hold, hc⟩))
    · exact .inr hc
  · exact .inr hc
  · exact .inl (.inr (.inr (.inr hc)))

theorem storeCrews_kickMember {s : Store} {memberId : String}
    (h : c ∈ storeCrews (s.kickMember memberId)) : c ∈ storeCrews s := by
  rw [mem_storeCrews, mem_heldCrews] at h ⊢
  refine h.imp_right (Or.imp_right (Or.imp_left fun hc => ?_))
  obtain ⟨m, hm, rfl⟩ := List.mem_map.mp hc
  exact mem_map_of_mem (mem_of_mem_filter hm)

theorem rosterOf_transfer {members : List CrewMember} (h : crew.members = some members) :
    rosterOf (crew.transfer newOwnerId members h) = rosterOf crew := by
  simp [rosterOf, Crew.transfer, h, crewsOf, CrewMember.transfer, InCrew.crewId, Function.comp_def]

/-- A transfer changes roles and owners, and no crew. -/
theorem transferActive_roster {s : Store}
    (h : s.transferActive crewId newOwnerId = .ok (some crew)) :
    ∃ old, s.activeCrew = some old ∧ rosterOf crew = rosterOf old := by
  unfold Store.transferActive at h
  split at h
  · cases h
  · rename_i old hold
    split_ifs at h
    · split at h
      · cases h
        exact ⟨old, hold, rosterOf_transfer _⟩
      · cases h
    · cases h
      exact ⟨crew, hold, rfl⟩

theorem storeCrews_transferOwnership {s : Store}
    (h : c ∈ storeCrews (s.transferOwnership crewId newOwnerId)) : c ∈ storeCrews s := by
  have hheld := (ActiveCrew.transferOwnership_crews s crewId newOwnerId).1
  rw [mem_storeCrews, hheld] at h
  rw [mem_storeCrews]
  cases ht : s.transferActive crewId newOwnerId with
  | error message => simpa only [Store.transferOwnership, ht, Store.failed] using h
  | ok activeCrew =>
    simp only [Store.transferOwnership, ht] at h
    rcases h with ⟨crew, rfl, hc⟩ | ⟨crew, hcrew, hc⟩ | hc
    · obtain ⟨old, hold, hroster⟩ := transferActive_roster ht
      exact .inl ⟨old, hold, hroster ▸ hc⟩
    · obtain ⟨old, hold, rfl⟩ := List.mem_map.mp hcrew
      refine .inr (.inl ⟨old, hold, ?_⟩)
      split_ifs at hc
      · exact hc
      · exact hc
    · exact .inr (.inr hc)

/-- An answer brings its rows, and nothing else. -/
theorem storeCrews_receive (s : ActiveCrew.State) (now : ℤ) (answer : Answer) :
    (∀ c ∈ storeCrews (s.receive now answer).store, c ∈ storeCrews s.store ∨ c ∈ brought s answer) ∧
      ∀ c ∈ brought s answer, c ∈ storeCrews (s.receive now answer).store := by
  cases answer with
  | selectCrew crew =>
    simp only [ActiveCrew.State.receive, brought]
    split_ifs
    · exact storeCrews_open rfl rfl rfl (fun other hother => .inl hother)
    · exact ⟨fun c hc => .inl hc, fun c hc => absurd hc not_mem_nil⟩
  | createCrew crew =>
    refine storeCrews_open rfl rfl rfl fun other hother => ?_
    exact (List.mem_append.mp hother).imp_right List.mem_singleton.mp
  | reformCrew sourceCrewId crew =>
    refine storeCrews_open rfl rfl rfl fun other hother => ?_
    simp only [ActiveCrew.State.receive, Store.reformCrew] at hother
    split_ifs at hother
    · obtain ⟨old, hold, rfl⟩ := List.mem_map.mp hother
      split_ifs
      · exact .inr rfl
      · exact .inl hold
    · exact (List.mem_append.mp hother).imp_right List.mem_singleton.mp
  | kickMember crewId memberId =>
    exact ⟨fun c hc => .inl (storeCrews_kickMember hc), fun c hc => absurd hc not_mem_nil⟩
  | transferOwnership crewId newOwnerId =>
    exact ⟨fun c hc => .inl (storeCrews_transferOwnership hc),
      fun c hc => absurd hc not_mem_nil⟩
  | loadPolls crewId list =>
    exact storeCrews_load (i := 0) (by decide)
      (congrArg (List.set (sublists s.store) 0) (ActiveCrew.crewsOf_normalizeVotes list.rows))
      rfl rfl rfl
  | loadMeetingPoints crewId meetingPoints =>
    exact storeCrews_load (i := 1) (by decide) rfl rfl rfl rfl
  | loadPacking crewId items => exact storeCrews_load (i := 2) (by decide) rfl rfl rfl rfl
  | loadRides crewId offers => exact storeCrews_load (i := 3) (by decide) rfl rfl rfl rfl
  | loadStatuses crewId statuses => exact storeCrews_load (i := 4) (by decide) rfl rfl rfl rfl
  | loadExpenses crewId expenses => exact storeCrews_load (i := 5) (by decide) rfl rfl rfl rfl
  | loadBalances crewId balances settlements =>
    refine storeCrews_lists rfl rfl (fun c => ?_) fun c => ?_
    all_goals
      simp only [heldCrews, sublistCrews, sublists, ActiveCrew.State.receive, Store.loadBalances,
        brought, List.flatten_cons, mem_append]
      tauto
  | loadActivity crewId activity => exact storeCrews_load (i := 8) (by decide) rfl rfl rfl rfl

/-- A request of the open crew, its answer or its rejection. -/
theorem clean_crew (h : Clean s) {a : ActiveCrew.Action} (ht : step me s (.crew a) = some t) :
    Clean t ↔ Gone me s (.crew a) := by
  simp only [step, Option.map_eq_some_iff] at ht
  obtain ⟨base, hbase, rfl⟩ := ht
  have hlost : ∀ c ∈ s.lost.filter (fun c => createdCrew a ≠ some c), c ∈ s.lost :=
    fun c hc => mem_of_mem_filter hc
  cases a with
  | call request =>
    simp only [ActiveCrew.step, Option.ite_none_right_eq_some, Option.some.injEq] at hbase
    obtain ⟨-, rfl⟩ := hbase
    refine iff_of_true (h.mono hlost fun c hc => ?_) trivial
    rcases mem_held.mp hc with hc | hc
    · exact mem_held.mpr (.inl (storeCrews_send (s := { s.base with
        inFlight := request :: s.base.inFlight }) hc))
    · exact mem_held.mpr (.inr hc)
  | answer now answer =>
    simp only [ActiveCrew.step, Option.ite_none_right_eq_some, Option.some.injEq] at hbase
    obtain ⟨-, rfl⟩ := hbase
    obtain ⟨hsub, hsup⟩ := storeCrews_receive
      { s.base with inFlight := s.base.inFlight.erase answer.request } now answer
    have hbrought : brought { s.base with inFlight := s.base.inFlight.erase answer.request } answer
        = brought s.base answer := by
      cases answer <;> rfl
    rw [hbrought] at hsub hsup
    refine (clean_iff_new h (brought s.base answer) hlost (fun c hc => ?_) fun c hc => ?_).trans ?_
    · rcases mem_held.mp hc with hc | hc
      · exact (hsub c hc).imp_left fun hc => mem_held.mpr (.inl hc)
      · exact .inl (mem_held.mpr (.inr hc))
    · exact mem_held.mpr (.inl (hsup c hc))
    · refine forall₂_congr fun c _ => ?_
      simp only [List.mem_filter, decide_eq_true_eq, not_and]
      exact ⟨fun hnot hne hmem => hnot hmem hne, fun hnot hmem hne => hnot hne hmem⟩
  | reject request message =>
    simp only [ActiveCrew.step, Option.ite_none_right_eq_some, Option.some.injEq] at hbase
    obtain ⟨-, rfl⟩ := hbase
    refine iff_of_true (h.mono hlost fun c hc => ?_) trivial
    rw [mem_held] at hc ⊢
    rwa [storeCrews_reject] at hc

/-! ## The four ways to lose a crew -/

theorem mem_listed_without {crews : List Crew}
    (h : ∃ crew ∈ without crewId crews, c ∈ rosterOf crew) :
    c ≠ crewId ∧ ∃ crew ∈ crews, c ∈ rosterOf crew := by
  obtain ⟨crew, hcrew, hc⟩ := h
  obtain ⟨hmem, hne⟩ := Keyed.mem_erase.mp hcrew
  exact ⟨fun heq => hne ((mem_rosterOf hc).symm.trans heq), crew, hmem, hc⟩

/-- Only an active crew has its roster in `activeCrew`. -/
theorem mem_activeRoster {s : Store} (h : ∃ crew, s.activeCrew = some crew ∧ c ∈ rosterOf crew) :
    s.IsActive c := by
  obtain ⟨crew, hcrew, hc⟩ := h
  rw [Store.IsActive, hcrew, mem_rosterOf hc]
  rfl

/-- `activeCrew` after the crew is left or deleted. -/
theorem activeRoster_closed {s : Store}
    (h : ∃ crew, (if s.IsActive crewId then none else s.activeCrew) = some crew ∧
      c ∈ rosterOf crew) : c ≠ crewId ∧ ∃ crew, s.activeCrew = some crew ∧ c ∈ rosterOf crew := by
  split_ifs at h with hactive
  · obtain ⟨crew, hcrew, -⟩ := h
    cases hcrew
  · refine ⟨fun heq => hactive ?_, h⟩
    rw [← heq]
    exact mem_activeRoster h

/-- The crew itself goes from `activeCrew` and `crews`. -/
theorem mem_storeCrews_closed {s t : Store}
    (hactive : t.activeCrew = if s.IsActive crewId then none else s.activeCrew)
    (hcrews : t.crews = without crewId s.crews) : crewId ∈ storeCrews t ↔ crewId ∈ heldCrews t := by
  rw [mem_storeCrews, hactive, hcrews]
  constructor
  · rintro (hc | hc | hc)
    · exact absurd rfl (activeRoster_closed hc).1
    · exact absurd rfl (mem_listed_without hc).1
    · exact hc
  · intro hc
    exact .inr (.inr hc)

theorem clean_leaveCrew (h : Clean s) (ht : step me s (.leaveCrew crewId) = some t) :
    Clean t ↔ Gone me s (.leaveCrew crewId) := by
  simp only [step, Option.ite_none_right_eq_some] at ht
  obtain ⟨-, ht⟩ := ht
  cases ht
  have hmembers : ∀ c, c ∈ crewsOf (s.base.store.leaveCrew crewId).crewMembers ↔
      ¬ s.base.store.IsActive crewId ∧ c ∈ crewsOf s.base.store.crewMembers := by
    intro c
    by_cases hactive : s.base.store.IsActive crewId
    · simp [Store.leaveCrew, hactive, crewsOf]
    · simp [Store.leaveCrew, hactive]
  have hlists : sublists (s.base.store.leaveCrew crewId) = sublists s.base.store := rfl
  refine (clean_iff_lose h rfl fun c hc => ?_).trans ?_
  · rw [mem_held, mem_storeCrews, mem_heldCrews] at hc ⊢
    refine hc.imp_left (Or.imp (fun hc => (activeRoster_closed hc).2) (Or.imp
      (fun hc => (mem_listed_without hc).2) (Or.imp_left fun hc => ((hmembers c).mp hc).2)))
  · have hstore : crewId ∈ storeCrews (s.base.store.leaveCrew crewId) ↔
        (¬ s.base.store.IsActive crewId ∧ crewId ∈ crewsOf s.base.store.crewMembers) ∨
          crewId ∈ sublistCrews s.base.store := by
      rw [mem_storeCrews_closed rfl rfl, heldCrews, mem_append, hmembers, sublistCrews, hlists,
        ← sublistCrews]
    rw [mem_held]
    simp only [State.setStore, hstore, Gone]
    tauto

theorem clean_deleteCrew (h : Clean s) (ht : step me s (.deleteCrew crewId) = some t) :
    Clean t ↔ Gone me s (.deleteCrew crewId) := by
  simp only [step, Option.ite_none_right_eq_some] at ht
  obtain ⟨-, ht⟩ := ht
  cases ht
  refine (clean_iff_lose h rfl fun c hc => ?_).trans ?_
  · rw [mem_held, mem_storeCrews] at hc ⊢
    exact hc.imp_left (Or.imp (fun hc => (activeRoster_closed hc).2) (Or.imp_left
      fun hc => (mem_listed_without hc).2))
  · have hstore : crewId ∈ storeCrews (s.base.store.deleteCrew crewId) ↔
        crewId ∈ heldCrews s.base.store := mem_storeCrews_closed rfl rfl
    rw [mem_held]
    simp only [State.setStore, hstore, Gone]
    tauto

theorem held_accessRevoked (hc : c ∈ held (s.accessRevoked crewId)) : c ∈ held s := by
  unfold State.accessRevoked at hc
  rw [mem_held, mem_storeCrews] at hc ⊢
  split_ifs at hc
  · rcases hc with (⟨crew, hcrew, -⟩ | hc | hc) | hc
    · cases hcrew
    · exact .inl (.inr (.inl (mem_listed_without hc).2))
    · exact absurd hc not_mem_nil
    · exact absurd hc not_mem_nil
  · exact hc.imp_left (Or.imp_right (Or.imp_left fun hc => (mem_listed_without hc).2))

theorem notMem_accessRevoked : crewId ∉ held (s.accessRevoked crewId) ↔ Revocable s crewId := by
  unfold State.accessRevoked Revocable
  by_cases hactive : s.base.store.IsActive crewId
  · refine iff_of_true ?_ (.inl hactive)
    rw [if_pos hactive, mem_held, mem_storeCrews]
    rintro ((⟨crew, hcrew, -⟩ | hc | hc) | hc)
    · cases hcrew
    · exact (mem_listed_without hc).1 rfl
    · exact not_mem_nil hc
    · exact not_mem_nil hc
  · have hstore : crewId ∈ storeCrews
        { s.base.store with crews := without crewId s.base.store.crews } ↔
        crewId ∈ heldCrews s.base.store :=
      mem_storeCrews_closed (if_neg hactive).symm rfl
    rw [if_neg hactive, mem_held, or_iff_right hactive, ← not_or]
    exact not_congr (or_congr_left hstore)

theorem clean_applyCrewAccessRevoked (h : Clean s) (crewId : String) :
    Clean (s.applyCrewAccessRevoked crewId) ↔ (crewId ≠ "" → Revocable s crewId) := by
  unfold State.applyCrewAccessRevoked
  split_ifs with hempty
  · exact iff_of_true h fun hne => absurd hempty hne
  · rw [← notMem_accessRevoked]
    have hlose : Clean { s.accessRevoked crewId with lost := crewId :: s.lost } ↔
        crewId ∉ held (s.accessRevoked crewId) :=
      clean_iff_lose h rfl fun c hc => held_accessRevoked hc
    exact hlose.trans ⟨fun hnot _ => hnot, fun hnot => hnot hempty⟩

theorem rosterOf_dropMember (h : c ∈ rosterOf (dropMember crew userId)) : c ∈ rosterOf crew := by
  obtain ⟨m, hm, rfl⟩ := List.mem_map.mp h
  exact mem_map_of_mem (mem_of_mem_filter hm)

theorem held_memberKicked (hc : c ∈ held (s.memberKicked crewId userId)) : c ∈ held s := by
  unfold State.memberKicked at hc
  split_ifs at hc
  · rw [mem_held, mem_storeCrews, mem_heldCrews] at hc ⊢
    refine hc.imp_left (Or.imp ?_ (Or.imp_right (Or.imp_left ?_)))
    · rintro ⟨crew, hcrew, hc⟩
      obtain ⟨old, hold, rfl⟩ := Option.map_eq_some_iff.mp hcrew
      exact ⟨old, hold, rosterOf_dropMember hc⟩
    · intro hc
      obtain ⟨m, hm, rfl⟩ := List.mem_map.mp hc
      exact mem_map_of_mem (mem_of_mem_filter hm)
  · exact hc

theorem clean_applyCrewMemberKicked (h : Clean s) (crewId userId : String) :
    Clean (s.applyCrewMemberKicked me crewId userId) ↔
      Gone me s (.applyCrewMemberKicked crewId userId) := by
  unfold State.applyCrewMemberKicked
  split_ifs with hempty hme
  · refine iff_of_true h fun hcrew huser _ => ?_
    exact absurd hempty (by simp [hcrew, huser])
  · rw [clean_applyCrewAccessRevoked h]
    exact ⟨fun hrevoked hcrew _ _ => hrevoked hcrew, fun hgone hcrew => hgone hcrew hme.2 hme.1⟩
  · refine iff_of_true ?_ fun hcrew huser heq => absurd ⟨heq, huser⟩ hme
    refine h.mono (fun c hc => ?_) fun c hc => held_memberKicked hc
    unfold State.memberKicked at hc
    split_ifs at hc <;> exact hc

/-! ## Whole runs -/

/-- A step leaves the store clean exactly if it meets the condition. -/
theorem clean_step {a : Action} (h : Clean s) (ht : step me s a = some t) :
    Clean t ↔ Gone me s a := by
  cases a with
  | crew a => exact clean_crew h ht
  | call request =>
    cases ht
    refine iff_of_true (h.mono (fun c hc => hc) fun c hc => ?_) trivial
    cases request <;> exact hc
  | loadCrews crews =>
    simp only [step, Option.ite_none_right_eq_some] at ht
    obtain ⟨-, ht⟩ := ht
    cases ht
    refine clean_iff_new h (crews.flatMap rosterOf) (fun c hc => hc) (fun c hc => ?_) fun c hc => ?_
    · rw [mem_held, mem_storeCrews] at hc ⊢
      rcases hc with (hc | hc | hc) | hc
      · exact .inl (.inl (.inl hc))
      · exact .inr (List.mem_flatMap.mpr hc)
      · exact .inl (.inl (.inr (.inr hc)))
      · exact .inl (.inr hc)
    · exact mem_held.mpr (.inl (mem_storeCrews.mpr (.inr (.inl (List.mem_flatMap.mp hc)))))
  | loadOverlap crewId overlap =>
    simp only [step, Option.ite_none_right_eq_some] at ht
    obtain ⟨-, ht⟩ := ht
    cases ht
    refine clean_iff_new h (crewsOf overlap.rows) (fun c hc => hc) (fun c hc => ?_) fun c hc => ?_
    · exact (mem_held.mp hc).imp_left fun hc => mem_held.mpr (.inl hc)
    · exact mem_held.mpr (.inr hc)
  | leaveCrew crewId => exact clean_leaveCrew h ht
  | deleteCrew crewId => exact clean_deleteCrew h ht
  | reject request message =>
    simp only [step, Option.ite_none_right_eq_some] at ht
    obtain ⟨-, ht⟩ := ht
    cases ht
    refine iff_of_true (h.mono (fun c hc => hc) fun c hc => ?_) trivial
    cases request <;> exact hc
  | applyCrewAccessRevoked crewId =>
    cases ht
    exact clean_applyCrewAccessRevoked h crewId
  | applyCrewMemberKicked crewId userId =>
    cases ht
    exact clean_applyCrewMemberKicked h crewId userId
  | joined crewId =>
    cases ht
    exact iff_of_true (h.mono (fun c hc => mem_of_mem_filter hc) fun c hc => hc) trivial
  | restart =>
    cases ht
    refine iff_of_true (h.mono (fun c hc => hc) fun c hc => ?_) trivial
    rcases mem_held.mp hc with hc | hc
    · exact mem_held.mpr (.inl (storeCrews_partialize hc))
    · exact absurd hc not_mem_nil

/-- From any state of the store, nothing of a lost crew is held or persisted throughout a run
exactly when the steps of the run meet the condition. -/
theorem clean_iff {start : State} (hstart : start.lost = []) {as : List Action}
    (hrun : Machine.run (step me) start as = some t) :
    Machine.Always (step me) Clean start as ↔ Machine.Meets (step me) (Gone me) start as := by
  have hclean : Clean start := by
    intro c hc
    rw [hstart] at hc
    cases hc
  exact Machine.always_iff_meets (fun _ _ _ => clean_step) hclean hrun

/-! ## Two runs -/

def start : State :=
  { base := ActiveCrew.start
    overlap := []
    inFlight := []
    lost := [] }

/-- A crew is selected and its packing list loaded. -/
def packedRun : List Action :=
  [.crew (.call (.selectCrew "a")),
    .crew (.answer 1 (.selectCrew (ActiveCrew.crewOf "a" ["u", "v"]))),
    .crew (.call (.load .packing "a")),
    .crew (.answer 2 (.loadPacking "a" (ActiveCrew.packingOf "a")))]

theorem revokedRun_clean :
    ∃ t, Machine.run (step (some "u")) start (packedRun ++ [.applyCrewMemberKicked "a" "u"])
        = some t ∧ t.lost = ["a"] ∧
      Machine.Always (step (some "u")) Clean start
        (packedRun ++ [.applyCrewMemberKicked "a" "u"]) :=
  ⟨_, rfl, rfl, (clean_iff rfl rfl).mpr
    ⟨trivial, fun _ _ _ => List.not_mem_nil, trivial, fun _ _ _ => List.not_mem_nil,
      fun _ _ _ => .inl rfl, trivial⟩⟩

/-- The packing list of a crew stays when the user leaves the crew. -/
theorem left_crew_held :
    ∃ t, Machine.run (step (some "u")) start
        (packedRun ++ [.call (.leaveCrew "a"), .leaveCrew "a"]) = some t ∧
      t.lost = ["a"] ∧ t.base.inFlight = [] ∧ t.inFlight = [] ∧
      "a" ∈ crewsOf (partialize t.base.store).packingItems ∧ ¬ Clean t := by
  refine ⟨_, rfl, rfl, rfl, rfl, List.mem_cons_self, fun h => ?_⟩
  refine (h "a" List.mem_cons_self).2 (mem_storeCrews.mpr (.inr (.inr (mem_heldCrews.mpr ?_))))
  exact .inr ⟨["a"], List.mem_cons_of_mem _ (List.mem_cons_of_mem _ List.mem_cons_self),
    List.mem_cons_self⟩

end FestivalPlanner.LosingCrew
