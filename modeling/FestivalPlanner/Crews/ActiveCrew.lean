import FestivalPlanner.Crews.CrewStore
import FestivalPlanner.Lib.Machine

/-!
# The lists are those of the active crew

Crews are selected, created and reformed, members are kicked or promoted, and lists are loaded,
while the answers to these requests arrive in any order.

* `Request`, `Answer` — what was sent for a crew, and what the server answers for it;
* `step` — a call, an answer or a rejection of a request in flight;
* `Unmixed` — every row that is held belongs to the active crew;
* `InTurn` — the condition on a step: what it leaves in the lists is of the active crew;
* `unmixed_iff` — all states of a run are unmixed exactly when its steps are in turn.
-/

namespace FestivalPlanner.ActiveCrew

open CrewStore List

/-! ## Rows of a crew -/

/-- The crew that a row belongs to. -/
class InCrew (α : Type) where
  crewId : α → String

instance : InCrew CrewMember := ⟨CrewMember.crewId⟩
instance : InCrew CrewPoll := ⟨CrewPoll.crewId⟩
instance : InCrew CrewMeetingPoint := ⟨CrewMeetingPoint.crewId⟩
instance : InCrew CrewPackingItem := ⟨CrewPackingItem.crewId⟩
instance : InCrew CrewRideOffer := ⟨CrewRideOffer.crewId⟩
instance : InCrew CrewMemberStatus := ⟨CrewMemberStatus.crewId⟩
instance : InCrew CrewExpense := ⟨CrewExpense.crewId⟩
instance : InCrew CrewExpenseBalance := ⟨CrewExpenseBalance.crewId⟩
instance : InCrew CrewSettlement := ⟨CrewSettlement.crewId⟩
instance : InCrew CrewActivityEntry := ⟨CrewActivityEntry.crewId⟩

/-- The rows that the server answers for a crew. -/
structure Rows (α : Type) [InCrew α] (crewId : String) where
  rows : List α
  ofCrew : ∀ x ∈ rows, InCrew.crewId x = crewId

/-- The crews of the rows of a list. -/
@[grind =] def crewsOf {α : Type} [InCrew α] (l : List α) : List String := l.map InCrew.crewId

/-- The crews of the rows of each list, but for the members. -/
@[grind =] def sublists (s : Store) : List (List String) :=
  [crewsOf s.polls, crewsOf s.meetingPoints, crewsOf s.packingItems, crewsOf s.rideOffers,
    crewsOf s.crewStatuses, crewsOf s.expenses, crewsOf s.expenseBalances, crewsOf s.settlements,
    crewsOf s.activity]

@[grind =] def sublistCrews (s : Store) : List String := (sublists s).flatten

/-- The crews of the rows that are held. -/
@[grind =] def heldCrews (s : Store) : List String := crewsOf s.crewMembers ++ sublistCrews s

@[grind =] def Unmixed (s : Store) : Prop := ∀ c ∈ heldCrews s, s.IsActive c

/-! ## Requests and answers -/

inductive Resource where
  | polls
  | meetingPoints
  | packing
  | rides
  | statuses
  | expenses
  /-- The second request of `loadExpenses`. -/
  | balances
  | activity
  deriving DecidableEq

inductive Request where
  | selectCrew (crewId : String)
  | createCrew
  | reformCrew (sourceCrewId : String)
  | kickMember (crewId memberId : String)
  | transferOwnership (crewId newOwnerId : String)
  | load (resource : Resource) (crewId : String)
  deriving DecidableEq

inductive Answer where
  | selectCrew (crew : Crew)
  | createCrew (crew : Crew)
  | reformCrew (sourceCrewId : String) (crew : Crew)
  | kickMember (crewId memberId : String)
  | transferOwnership (crewId newOwnerId : String)
  | loadPolls (crewId : String) (list : Rows CrewPoll crewId)
  | loadMeetingPoints (crewId : String) (meetingPoints : Rows CrewMeetingPoint crewId)
  | loadPacking (crewId : String) (items : Rows CrewPackingItem crewId)
  | loadRides (crewId : String) (offers : Rows CrewRideOffer crewId)
  | loadStatuses (crewId : String) (statuses : Rows CrewMemberStatus crewId)
  | loadExpenses (crewId : String) (expenses : Rows CrewExpense crewId)
  | loadBalances (crewId : String) (balances : Rows CrewExpenseBalance crewId)
      (settlements : Rows CrewSettlement crewId)
  | loadActivity (crewId : String) (activity : Rows CrewActivityEntry crewId)

/-- The request that is answered. -/
def Answer.request : Answer → Request
  | .selectCrew crew => .selectCrew crew.id
  | .createCrew _ => .createCrew
  | .reformCrew sourceCrewId _ => .reformCrew sourceCrewId
  | .kickMember crewId memberId => .kickMember crewId memberId
  | .transferOwnership crewId newOwnerId => .transferOwnership crewId newOwnerId
  | .loadPolls crewId _ => .load .polls crewId
  | .loadMeetingPoints crewId _ => .load .meetingPoints crewId
  | .loadPacking crewId _ => .load .packing crewId
  | .loadRides crewId _ => .load .rides crewId
  | .loadStatuses crewId _ => .load .statuses crewId
  | .loadExpenses crewId _ => .load .expenses crewId
  | .loadBalances crewId _ _ => .load .balances crewId
  | .loadActivity crewId _ => .load .activity crewId

inductive Action where
  | call (request : Request)
  | answer (now : ℤ) (answer : Answer)
  | reject (request : Request) (message : String)

structure State where
  store : Store
  /-- `_lastSelectCrewId` -/
  lastSelectCrewId : Option String
  inFlight : List Request

/-- What is set before the request is sent. -/
def State.send (s : State) : Request → State
  | .selectCrew crewId =>
      { s with store := s.store.selectCrew crewId, lastSelectCrewId := some crewId }
  | .createCrew | .reformCrew _ => { s with store := s.store.beginLoading }
  | .kickMember _ _ | .transferOwnership _ _ | .load _ _ => { s with store := s.store.begin }

/-- What is set when the answer is there. -/
def State.receive (s : State) (now : ℤ) : Answer → State
  | .selectCrew crew =>
      if s.lastSelectCrewId = some crew.id then { s with store := s.store.selectCrewDone crew now }
      else { s with store := { s.store with crewLoading := false } }
  | .createCrew crew => { s with store := s.store.createCrew crew }
  | .reformCrew _ crew => { s with store := s.store.reformCrew crew now }
  | .kickMember _ memberId => { s with store := s.store.kickMember memberId }
  | .transferOwnership crewId newOwnerId =>
      { s with store := s.store.transferOwnership crewId newOwnerId }
  | .loadPolls _ list => { s with store := s.store.loadPolls list.rows }
  | .loadMeetingPoints _ meetingPoints =>
      { s with store := s.store.loadMeetingPoints meetingPoints.rows }
  | .loadPacking _ items => { s with store := s.store.loadPacking items.rows }
  | .loadRides _ offers => { s with store := s.store.loadRides offers.rows }
  | .loadStatuses _ statuses => { s with store := s.store.loadStatuses statuses.rows }
  | .loadExpenses crewId expenses =>
      { s with
        store := s.store.loadExpenses expenses.rows
        inFlight := .load .balances crewId :: s.inFlight }
  | .loadBalances _ balances settlements =>
      { s with store := s.store.loadBalances balances.rows settlements.rows }
  | .loadActivity _ activity => { s with store := s.store.loadActivity activity.rows }

def State.reject (s : State) (message : String) : Request → State
  | .selectCrew _ | .createCrew | .reformCrew _ => { s with store := s.store.failedLoading message }
  | .kickMember _ _ | .transferOwnership _ _ | .load _ _ =>
      { s with store := s.store.failed message }

/-- Only `loadExpenses` asks for the balances. -/
def Request.isCall : Request → Bool
  | .load .balances _ => false
  | _ => true

def step (s : State) : Action → Option State
  | .call request =>
      if request.isCall then some ({ s with inFlight := request :: s.inFlight }.send request)
      else none
  | .answer now answer =>
      if answer.request ∈ s.inFlight then
        some ({ s with inFlight := s.inFlight.erase answer.request }.receive now answer)
      else none
  | .reject request message =>
      if request ∈ s.inFlight then
        some ({ s with inFlight := s.inFlight.erase request }.reject message request)
      else none

/-- A list is loaded for the active crew, or is empty; another crew becomes the active one while
nothing is held. -/
def InTurn (s : State) : Action → Prop
  | .call (.selectCrew crewId) =>
      s.store.cachedCrewId = some crewId → s.store.IsActive crewId ∨ heldCrews s.store = []
  | .answer _ (.selectCrew crew) =>
      s.lastSelectCrewId = some crew.id → s.store.IsActive crew.id ∨ sublistCrews s.store = []
  | .answer _ (.createCrew crew) => s.store.IsActive crew.id ∨ sublistCrews s.store = []
  | .answer _ (.reformCrew _ crew) => s.store.IsActive crew.id ∨ sublistCrews s.store = []
  | .answer _ (.loadPolls crewId list) => s.store.IsActive crewId ∨ dropOptimistic list.rows = []
  | .answer _ (.loadMeetingPoints crewId meetingPoints) =>
      s.store.IsActive crewId ∨ dropOptimistic meetingPoints.rows = []
  | .answer _ (.loadPacking crewId items) =>
      s.store.IsActive crewId ∨ dropOptimistic items.rows = []
  | .answer _ (.loadRides crewId offers) =>
      s.store.IsActive crewId ∨ dropOptimistic offers.rows = []
  | .answer _ (.loadStatuses crewId statuses) =>
      s.store.IsActive crewId ∨ dropOptimistic statuses.rows = []
  | .answer _ (.loadExpenses crewId expenses) =>
      s.store.IsActive crewId ∨ dropOptimistic expenses.rows = []
  | .answer _ (.loadBalances crewId balances settlements) =>
      s.store.IsActive crewId ∨ balances.rows = [] ∧ settlements.rows = []
  | .answer _ (.loadActivity crewId activity) => s.store.IsActive crewId ∨ activity.rows = []
  | _ => True

/-! ## What the operations leave -/

variable {crewId : String} {s t : Store}

theorem Rows.ofCrew_filter {α : Type} [InCrew α] (l : Rows α crewId) (p : α → Bool) :
    ∀ x ∈ l.rows.filter p, InCrew.crewId x = crewId :=
  fun x hx => l.ofCrew x (mem_filter.mp hx).1

/-- The rows that are held are of a crew exactly if it is active or nothing is held. -/
theorem all_eq_iff {l : List String} (h : ∀ c ∈ l, s.IsActive c) :
    (∀ c ∈ l, c = crewId) ↔ s.IsActive crewId ∨ l = [] := by
  constructor
  · intro hall
    cases l with
    | nil => exact .inr rfl
    | cons c l => exact .inl (hall c (mem_cons_self ..) ▸ h c (mem_cons_self ..))
  · rintro (hactive | rfl) c hc
    · exact Option.some.inj ((h c hc).symm.trans hactive)
    · cases hc

theorem Unmixed.sublist (h : Unmixed s) : ∀ c ∈ sublistCrews s, s.IsActive c :=
  fun c hc => h c (mem_append_right _ hc)

/-- A crew becomes the active one, with its members. -/
theorem unmixed_switch (h : Unmixed s) {crew : Crew} (hactive : t.activeCrew = some crew)
    (hmembers : t.crewMembers = crew.members.getD []) (hlists : sublistCrews t = sublistCrews s) :
    Unmixed t ↔ s.IsActive crew.id ∨ sublistCrews s = [] := by
  have hown : ∀ c ∈ crewsOf t.crewMembers, c = crew.id := by
    intro c hc
    obtain ⟨m, hm, rfl⟩ := mem_map.mp hc
    rw [hmembers] at hm
    cases hl : crew.members with
    | none => simp [hl] at hm
    | some l => exact crew.ofCrew l hl m (by simpa [hl] using hm)
  have hiff : ∀ c, t.IsActive c ↔ c = crew.id := by
    intro c
    rw [Store.IsActive, hactive]
    simp [eq_comm]
  rw [← all_eq_iff h.sublist]
  simp only [Unmixed, heldCrews, hlists, hiff, mem_append, or_imp, forall_and]
  exact and_iff_right hown

theorem unmixed_selectCrew (h : Unmixed s) (crewId : String) :
    Unmixed (s.selectCrew crewId) ↔
      (s.cachedCrewId = some crewId → s.IsActive crewId ∨ heldCrews s = []) := by
  by_cases hactive : s.IsActive crewId
  · have hheld : heldCrews (s.selectCrew crewId) = heldCrews s := by
      simp [heldCrews, sublistCrews, sublists, Store.selectCrew, hactive]
    have hsame : (s.selectCrew crewId).activeCrew = s.activeCrew := if_pos hactive
    simp only [Unmixed, hheld, Store.IsActive, hsame]
    exact ⟨fun _ _ => .inl hactive, fun _ => h⟩
  · have hcleared : (s.selectCrew crewId).activeCrew = none := if_neg hactive
    have hnone : ∀ c, ¬ (s.selectCrew crewId).IsActive c := by
      simp [Store.IsActive, hcleared]
    have hempty : Unmixed (s.selectCrew crewId) ↔ heldCrews (s.selectCrew crewId) = [] := by
      simp [Unmixed, hnone, eq_nil_iff_forall_not_mem]
    rw [hempty]
    by_cases hcached : s.cachedCrewId = some crewId
    · simp [heldCrews, sublistCrews, sublists, Store.selectCrew, hactive, hcached]
    · simp [heldCrews, sublistCrews, sublists, Store.selectCrew, hactive, hcached, crewsOf]

theorem crewsOf_eq {α : Type} [InCrew α] {l : List α} (h : ∀ x ∈ l, InCrew.crewId x = crewId) :
    ∀ c ∈ crewsOf l, c = crewId := by
  intro c hc
  obtain ⟨x, hx, rfl⟩ := mem_map.mp hc
  exact h x hx

/-- What is held changes by rows of a crew. -/
theorem unmixed_replaced (h : Unmixed s) (hactive : t.activeCrew = s.activeCrew)
    {new : List String} (hnew : ∀ c ∈ new, c = crewId)
    (hsub : ∀ c ∈ heldCrews t, c ∈ heldCrews s ∨ c ∈ new) (hsup : ∀ c ∈ new, c ∈ heldCrews t) :
    Unmixed t ↔ s.IsActive crewId ∨ new = [] := by
  unfold Unmixed at h ⊢
  simp only [Store.IsActive, hactive] at h ⊢
  constructor
  · intro hall
    cases new with
    | nil => exact .inr rfl
    | cons c new =>
      have hc : c = crewId := hnew c (mem_cons_self ..)
      exact .inl (hc ▸ hall c (hsup c (mem_cons_self ..)))
  · rintro (hcrew | rfl) c hc
    · rcases hsub c hc with hold | hc
      · exact h c hold
      · exact hnew c hc ▸ hcrew
    · exact h c ((hsub c hc).resolve_right not_mem_nil)

/-- One of the lists is replaced by rows of a crew. -/
theorem unmixed_load (h : Unmixed s) {α : Type} [InCrew α] {l : List α}
    (hl : ∀ x ∈ l, InCrew.crewId x = crewId) {i : ℕ} (hi : i < 9)
    (hset : sublists t = (sublists s).set i (crewsOf l)) (hactive : t.activeCrew = s.activeCrew)
    (hmembers : t.crewMembers = s.crewMembers) : Unmixed t ↔ s.IsActive crewId ∨ l = [] := by
  refine (unmixed_replaced h hactive (crewsOf_eq hl) ?_ ?_).trans (by simp [crewsOf])
  · intro c hc
    rcases mem_append.mp hc with hc | hc
    · exact .inl (mem_append_left _ (hmembers ▸ hc))
    · obtain ⟨m, hm, hc⟩ := mem_flatten.mp hc
      rcases mem_or_eq_of_mem_set (hset ▸ hm) with hold | rfl
      · exact .inl (mem_append_right _ (mem_flatten_of_mem hold hc))
      · exact .inr hc
  · intro c hc
    have hin : crewsOf l ∈ sublists t := hset ▸ mem_set hi _
    exact mem_append_right _ (mem_flatten_of_mem hin hc)

/-- Both lists of the balances are of the crew. -/
theorem unmixed_loadBalances (h : Unmixed s) (balances : Rows CrewExpenseBalance crewId)
    (settlements : Rows CrewSettlement crewId) :
    Unmixed (s.loadBalances balances.rows settlements.rows) ↔
      s.IsActive crewId ∨ balances.rows = [] ∧ settlements.rows = [] := by
  have hnew : ∀ c ∈ crewsOf balances.rows ++ crewsOf settlements.rows, c = crewId := by
    intro c hc
    exact (mem_append.mp hc).elim (crewsOf_eq balances.ofCrew c)
      (crewsOf_eq settlements.ofCrew c)
  refine (unmixed_replaced (t := s.loadBalances balances.rows settlements.rows) h rfl hnew ?_
    ?_).trans (by simp [crewsOf])
  · simp only [heldCrews, sublistCrews, sublists, Store.loadBalances, flatten_cons,
      mem_append]
    tauto
  · simp only [heldCrews, sublistCrews, sublists, Store.loadBalances, flatten_cons,
      mem_append]
    tauto

/-- A transfer rewrites roles, and leaves the crews. -/
theorem transferOwnership_crews (s : Store) (crewId newOwnerId : String) :
    heldCrews (s.transferOwnership crewId newOwnerId) = heldCrews s ∧
      ∀ c, (s.transferOwnership crewId newOwnerId).IsActive c ↔ s.IsActive c := by
  unfold Store.transferOwnership
  cases ht : s.transferActive crewId newOwnerId with
  | error message => exact ⟨rfl, fun _ => Iff.rfl⟩
  | ok activeCrew =>
    have hactive : activeCrew.map Crew.id = s.activeCrew.map Crew.id := by
      unfold Store.transferActive at ht
      split at ht
      · cases ht
        simp [*]
      · split_ifs at ht
        · split at ht
          · cases ht
            simp [*, Crew.transfer]
          · cases ht
        · cases ht
          simp [*]
    refine ⟨?_, fun c => by simp only [Store.IsActive, hactive]⟩
    simp [heldCrews, sublistCrews, sublists, crewsOf, CrewMember.transfer, InCrew.crewId,
      Function.comp_def]

theorem unmixed_kickMember (h : Unmixed s) (memberId : String) :
    Unmixed (s.kickMember memberId) := by
  intro c hc
  rcases mem_append.mp hc with hc | hc
  · obtain ⟨m, hm, rfl⟩ := mem_map.mp hc
    exact h _ (mem_append_left _ (mem_map_of_mem (mem_filter.mp hm).1))
  · exact h c (mem_append_right _ hc)

/-! ## Runs -/

theorem send_iff {s : State} (h : Unmixed s.store) (request : Request) :
    Unmixed (s.send request).store ↔ InTurn s (.call request) := by
  cases request with
  | selectCrew crewId => exact unmixed_selectCrew h crewId
  | createCrew => exact iff_true_intro h
  | reformCrew sourceCrewId => exact iff_true_intro h
  | kickMember crewId memberId => exact iff_true_intro h
  | transferOwnership crewId newOwnerId => exact iff_true_intro h
  | load resource crewId => exact iff_true_intro h

/-- The polls of a response keep their crews. -/
theorem crewsOf_normalizeVotes (polls : List CrewPoll) :
    crewsOf (dropOptimistic (polls.map normalizeVotes)) = crewsOf (dropOptimistic polls) := by
  have hrows : dropOptimistic (polls.map normalizeVotes)
      = (dropOptimistic polls).map normalizeVotes := filter_map ..
  simp [hrows, crewsOf, normalizeVotes, InCrew.crewId, Function.comp_def]

theorem receive_iff {s : State} (h : Unmixed s.store) (now : ℤ) (answer : Answer) :
    Unmixed (s.receive now answer).store ↔ InTurn s (.answer now answer) := by
  cases answer with
  | selectCrew crew =>
    simp only [State.receive, InTurn]
    split_ifs with hlast
    · simpa only [hlast, true_imp_iff] using
        unmixed_switch (t := s.store.selectCrewDone crew now) h rfl rfl rfl
    · exact iff_of_true h (fun hh => absurd hh hlast)
  | createCrew crew => exact unmixed_switch h rfl rfl rfl
  | reformCrew sourceCrewId crew => exact unmixed_switch h rfl rfl rfl
  | kickMember crewId memberId => exact iff_true_intro (unmixed_kickMember h memberId)
  | transferOwnership crewId newOwnerId =>
    obtain ⟨hheld, hactive⟩ := transferOwnership_crews s.store crewId newOwnerId
    refine iff_true_intro ?_
    simpa only [State.receive, Unmixed, hheld, hactive] using h
  | loadPolls crewId list =>
    exact unmixed_load h (list.ofCrew_filter _) (i := 0) (by decide)
      (congrArg (List.set (sublists s.store) 0) (crewsOf_normalizeVotes list.rows)) rfl rfl
  | loadMeetingPoints crewId meetingPoints =>
    exact unmixed_load h (meetingPoints.ofCrew_filter _) (i := 1) (by decide) rfl rfl rfl
  | loadPacking crewId items =>
    exact unmixed_load h (items.ofCrew_filter _) (i := 2) (by decide) rfl rfl rfl
  | loadRides crewId offers =>
    exact unmixed_load h (offers.ofCrew_filter _) (i := 3) (by decide) rfl rfl rfl
  | loadStatuses crewId statuses =>
    exact unmixed_load h (statuses.ofCrew_filter _) (i := 4) (by decide) rfl rfl rfl
  | loadExpenses crewId expenses =>
    exact unmixed_load h (expenses.ofCrew_filter _) (i := 5) (by decide) rfl rfl rfl
  | loadBalances crewId balances settlements => exact unmixed_loadBalances h balances settlements
  | loadActivity crewId activity =>
    exact unmixed_load h activity.ofCrew (i := 8) (by decide) rfl rfl rfl

theorem unmixed_reject {s : State} (h : Unmixed s.store) (message : String) (request : Request) :
    Unmixed (s.reject message request).store := by
  cases request <;> exact h

/-- The requests in flight do not matter. -/
theorem inTurn_inFlight (s : State) (inFlight : List Request) (a : Action) :
    InTurn { s with inFlight := inFlight } a ↔ InTurn s a := by
  cases a with
  | call request => cases request <;> exact Iff.rfl
  | answer now answer => cases answer <;> exact Iff.rfl
  | reject request message => exact Iff.rfl

theorem unmixed_step {s t : State} {a : Action} (h : Unmixed s.store) (hstep : step s a = some t) :
    Unmixed t.store ↔ InTurn s a := by
  cases a with
  | call request =>
    simp only [step, Option.ite_none_right_eq_some, Option.some.injEq] at hstep
    obtain ⟨-, rfl⟩ := hstep
    exact (send_iff (s := { s with inFlight := request :: s.inFlight }) h request).trans
      (inTurn_inFlight s _ (.call request))
  | answer now answer =>
    simp only [step, Option.ite_none_right_eq_some, Option.some.injEq] at hstep
    obtain ⟨-, rfl⟩ := hstep
    exact (receive_iff (s := { s with inFlight := s.inFlight.erase answer.request }) h now
      answer).trans (inTurn_inFlight s _ (.answer now answer))
  | reject request message =>
    simp only [step, Option.ite_none_right_eq_some, Option.some.injEq] at hstep
    obtain ⟨-, rfl⟩ := hstep
    exact iff_true_intro
      (unmixed_reject (s := { s with inFlight := s.inFlight.erase request }) h message request)

/-- The store holds nothing but of the active crew throughout a run exactly if its steps are in
turn. -/
theorem unmixed_iff {start : State} (h : Unmixed start.store) {as : List Action} {t : State}
    (hrun : Machine.run step start as = some t) :
    Machine.Always step (fun s => Unmixed s.store) start as ↔ Machine.Meets step InTurn start as :=
  Machine.always_iff_meets (fun _ _ _ => unmixed_step) h hrun

/-- The store as the app starts. -/
def start : State :=
  { store := .initial
    lastSelectCrewId := none
    inFlight := [] }

theorem unmixed_initial : Unmixed start.store := by
  simp [Unmixed, start, Store.initial, heldCrews, sublistCrews, sublists, crewsOf]

/-- A crew with these members. -/
def crewOf (id : String) (members : List String) : Crew :=
  { id := id
    name := id
    owner := ""
    members := some (members.map fun userId => ⟨id, userId, some .member⟩)
    optimistic := false
    ofCrew := by
      rintro _ ⟨rfl⟩ m hm
      obtain ⟨_, -, rfl⟩ := mem_map.mp hm
      rfl }

/-- One item on the packing list of a crew. -/
def packingOf (crewId : String) : Rows CrewPackingItem crewId :=
  { rows :=
      [{ id := "i"
         crewId := crewId
         createdBy := "u"
         label := "tent"
         broughtBy := none
         claimed := false
         createdAt := 0
         optimistic := false }]
    ofCrew := by simp [InCrew.crewId] }

/-- A packing list is loaded and a member kicked, around the switch to another crew. -/
def switchedRun : List Action :=
  [.call (.selectCrew "a"),
    .answer 1 (.selectCrew (crewOf "a" ["u", "v"])),
    .call (.load .packing "a"),
    .call (.kickMember "a" "v"),
    .answer 2 (.loadPacking "a" (packingOf "a")),
    .call (.selectCrew "b"),
    .answer 3 (.kickMember "a" "v"),
    .answer 4 (.selectCrew (crewOf "b" ["u", "v"]))]

theorem switchedRun_unmixed :
    ∃ t, Machine.run step start switchedRun = some t ∧
      Machine.Always step (fun s => Unmixed s.store) start switchedRun :=
  ⟨_, rfl, (unmixed_iff unmixed_initial rfl).mpr
    ⟨fun h => absurd h (by decide), fun _ => Or.inr rfl, trivial, trivial, Or.inl rfl,
      fun h => absurd h (by decide), trivial, fun _ => Or.inr rfl, trivial⟩⟩

/-- The packing list of a crew arrives when another one is active. -/
def lateListRun : List Action :=
  [.call (.selectCrew "a"),
    .answer 1 (.selectCrew (crewOf "a" [])),
    .call (.load .packing "a"),
    .call (.selectCrew "b"),
    .answer 2 (.selectCrew (crewOf "b" [])),
    .answer 3 (.loadPacking "a" (packingOf "a"))]

theorem late_list_held :
    ∃ t, Machine.run step start lateListRun = some t ∧ t.store.IsActive "b" ∧
      "a" ∈ crewsOf t.store.packingItems ∧ ¬ Unmixed t.store := by
  refine ⟨_, rfl, rfl, List.mem_cons_self, fun h => ?_⟩
  have hactive : some "b" = some "a" := h "a" List.mem_cons_self
  exact absurd hactive (by decide)

end FestivalPlanner.ActiveCrew
