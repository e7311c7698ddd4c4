import FestivalPlanner.Crews.CrewStore
import FestivalPlanner.Lib.Machine

/-!
# The lists of the crew store without duplicates and stale placeholders

An object reaches a list as an optimistic placeholder, as the answer to its create, through the
reconciler of the offline queue, as a socket event or with a reload, in any order.

* `Pending` — a queued create; `createdOf_clientId`: the reconciler finds the list of its
  placeholder by its `clientId`;
* `Action`, `step` — what reaches the store, and what happens to the queue;
* `Tidy` — no id occurs twice in a list, and the create of a placeholder is still queued;
* `Orderly` — the condition on a step: an answer finds no row with its id, and a create that leaves
  the queue no placeholder, unless the reconciler takes it;
* `tidy_iff` — all states of a run are tidy exactly when its steps are orderly.
-/

namespace FestivalPlanner.CrewLists

open CrewStore Keyed List Option

/-! ## Client ids -/

/-- A text without a slash. -/
def Slashless : Type := { text : String // '/' ∉ text.toList }

/-- `createOpaqueId('crew')` -/
def crewIdOf (random : Slashless) : String := "crew-" ++ random.val

def joinClientId (inviteCode : String) : String := "POST:/crews/join:join-" ++ inviteCode

/-- The path of a create, behind the crew. -/
def path : Created → String
  | .crew => "/join"
  | .poll => "/polls"
  | .meetingPoint => "/meeting-points"
  | .packingItem => "/packing"
  | .rideOffer => "/rides"
  | .expense => "/expenses"

def clientIdOf (crew : Slashless) (created : Created) (random : Slashless) : String :=
  "POST:/crews/" ++ crewIdOf crew ++ path created ++ ":" ++ random.val

section Includes

variable {b r w : List Char}

theorem slash_infix_iff (hb : '/' ∉ b) :
    '/' :: w <:+: b ++ '/' :: r ↔ w <+: r ∨ '/' :: w <:+: r := by
  induction b with
  | nil => simp [infix_cons_iff, cons_prefix_cons]
  | cons c b ih =>
    simp only [mem_cons, not_or] at hb
    rw [cons_append, infix_cons_iff, cons_prefix_cons, ih hb.2]
    simp [hb.1]

theorem not_slash_infix (hb : '/' ∉ b) : ¬ '/' :: w <:+: b :=
  fun h => hb (h.subset (mem_cons_self ..))

end Includes

/-- A text behind a slash occurs in a `clientId` only at one of its three slashes. -/
theorem includes_iff (crew random : Slashless) (name w : String) (hname : '/' ∉ name.toList) :
    Js.includes ("/" ++ w) ("POST:/crews/" ++ crewIdOf crew ++ ("/" ++ name) ++ ":" ++ random.val)
        = true ↔
      w.toList <+: "crews/crew-".toList ++ crew.val.toList ++ '/' :: name.toList ++ ':' ::
        random.val.toList ∨
      w.toList <+: "crew-".toList ++ crew.val.toList ++ '/' :: name.toList ++ ':' ::
        random.val.toList ∨
      w.toList <+: name.toList ++ ':' :: random.val.toList := by
  have hfirst := slash_infix_iff (b := "POST:".toList) (w := w.toList)
    (r := "crews/crew-".toList ++ crew.val.toList ++ '/' :: name.toList ++ ':' ::
      random.val.toList) (by decide)
  have hsecond := slash_infix_iff (b := "crews".toList) (w := w.toList)
    (r := "crew-".toList ++ crew.val.toList ++ '/' :: name.toList ++ ':' :: random.val.toList)
    (by decide)
  have hthird := slash_infix_iff (b := "crew-".toList ++ crew.val.toList) (w := w.toList)
    (r := name.toList ++ ':' :: random.val.toList) (by simp [crew.property])
  have hlast : ¬ '/' :: w.toList <:+: name.toList ++ ':' :: random.val.toList :=
    not_slash_infix (by simp [hname, random.property])
  simp only [Js.includes, crewIdOf, String.toList_append, decide_eq_true_eq]
  simp at hfirst hsecond hthird hlast ⊢
  simp [hfirst, hsecond, hthird, hlast]

theorem createdOf_joinClientId (inviteCode : String) :
    createdOf (joinClientId inviteCode) = some .crew := by
  have h : Js.includes "/crews/join" (joinClientId inviteCode) = true := by
    unfold Js.includes joinClientId
    rw [decide_eq_true_eq, String.toList_append]
    have hfixed : "/crews/join".toList <:+: "POST:/crews/join:join-".toList :=
      ⟨"POST:".toList, ":join-".toList, by simp⟩
    exact hfixed.trans ⟨[], inviteCode.toList, by simp⟩
  simp [createdOf, h]

/-- The reconciler takes the branch of what was created. -/
theorem createdOf_clientId (crew random : Slashless) {created : Created} (h : created ≠ .crew) :
    createdOf (clientIdOf crew created random) = some created := by
  cases created with
  | crew => exact absurd rfl h
  | poll =>
    have hjoin := includes_iff crew random "polls" "crews/join" (by decide)
    have hpolls := includes_iff crew random "polls" "polls" (by decide)
    simp at hjoin hpolls
    simp [createdOf, clientIdOf, path, hjoin, hpolls]
  | meetingPoint =>
    have hjoin := includes_iff crew random "meeting-points" "crews/join" (by decide)
    have hpolls := includes_iff crew random "meeting-points" "polls" (by decide)
    have hpoints := includes_iff crew random "meeting-points" "meeting-points" (by decide)
    simp at hjoin hpolls hpoints
    simp [createdOf, clientIdOf, path, hjoin, hpolls, hpoints]
  | packingItem =>
    have hjoin := includes_iff crew random "packing" "crews/join" (by decide)
    have hpolls := includes_iff crew random "packing" "polls" (by decide)
    have hpoints := includes_iff crew random "packing" "meeting-points" (by decide)
    have hpacking := includes_iff crew random "packing" "packing" (by decide)
    simp at hjoin hpolls hpoints hpacking
    simp [createdOf, clientIdOf, path, hjoin, hpolls, hpoints, hpacking]
  | rideOffer =>
    have hjoin := includes_iff crew random "rides" "crews/join" (by decide)
    have hpolls := includes_iff crew random "rides" "polls" (by decide)
    have hpoints := includes_iff crew random "rides" "meeting-points" (by decide)
    have hpacking := includes_iff crew random "rides" "packing" (by decide)
    have hrides := includes_iff crew random "rides" "rides" (by decide)
    simp at hjoin hpolls hpoints hpacking hrides
    simp [createdOf, clientIdOf, path, hjoin, hpolls, hpoints, hpacking, hrides]
  | expense =>
    have hjoin := includes_iff crew random "expenses" "crews/join" (by decide)
    have hpolls := includes_iff crew random "expenses" "polls" (by decide)
    have hpoints := includes_iff crew random "expenses" "meeting-points" (by decide)
    have hpacking := includes_iff crew random "expenses" "packing" (by decide)
    have hrides := includes_iff crew random "expenses" "rides" (by decide)
    have hexpenses := includes_iff crew random "expenses" "expenses" (by decide)
    simp at hjoin hpolls hpoints hpacking hrides hexpenses
    simp [createdOf, clientIdOf, path, hjoin, hpolls, hpoints, hpacking, hrides, hexpenses]

/-! ## What reaches the store -/

/-- A queued create. -/
structure Pending where
  created : Created
  clientId : String
  routed : createdOf clientId = some created

def Pending.join (inviteCode : String) : Pending :=
  ⟨.crew, joinClientId inviteCode, createdOf_joinClientId inviteCode⟩

def Pending.create (crew : Slashless) (created : Created) (h : created ≠ .crew)
    (random : Slashless) : Pending :=
  ⟨created, clientIdOf crew created random, createdOf_clientId crew random h⟩

/-- A row of the server, which knows no `_optimistic`. -/
structure Confirmed (α : Type) [Entry α] where
  row : α
  confirmed : Entry.optimistic row = false

/-- A list of the server. -/
structure Listing (α : Type) [Entry α] where
  rows : List α
  confirmed : ∀ x ∈ rows, Entry.optimistic x = false
  unique : UniqueKeys Entry.id rows

/-- An `updateMyStatus` that waits for its answer. -/
structure Update where
  myUserId : String
  prevMine : Option CrewMemberStatus
  own : ∀ row, prevMine = some row → row.userId = myUserId

structure State where
  store : Store
  queue : List Pending
  updates : List Update

/-- An answer or a socket event. -/
inductive Arrival where
  | loadCrews (crews : Listing Crew)
  | createCrew (crew : Confirmed Crew)
  | reformCrew (crew : Confirmed Crew) (now : ℤ)
  | joinByCode (crew : Confirmed Crew)
  | leaveCrew (crewId : String)
  | deleteCrew (crewId : String)
  | loadPolls (list : Listing CrewPoll)
  | createPoll (poll : Confirmed CrewPoll) (setRefs : Option (List (Option PollSetRef)))
  | applyPollCreated (poll : Confirmed CrewPoll)
  | applyPollClosed (pollId : String)
  | loadMeetingPoints (meetingPoints : Listing CrewMeetingPoint)
  | createMeetingPoint (meetingPoint : Confirmed CrewMeetingPoint)
  | applyMeetingPointUpsert (meetingPoint : Confirmed CrewMeetingPoint)
  | applyMeetingPointRemoval (mpId : String)
  | loadPacking (items : Listing CrewPackingItem)
  | createPackingItem (item : Confirmed CrewPackingItem)
  | deletePackingItem (itemId : String)
  | loadRides (offers : Listing CrewRideOffer)
  | createRideOffer (offer : Confirmed CrewRideOffer)
  | deleteRideOffer (offerId : String)
  | loadExpenses (expenses : Listing CrewExpense)
  | removeExpense (expenseId : String)
  | loadStatuses (statuses : Listing CrewMemberStatus)
  | applyStatusUpdate (status : CrewMemberStatus)

def receive (s : Store) : Arrival → Store
  | .loadCrews crews => s.loadCrews crews.rows
  | .createCrew crew => s.createCrew crew.row
  | .reformCrew crew now => s.reformCrew crew.row now
  | .joinByCode crew => s.joinByCode crew.row
  | .leaveCrew crewId => s.leaveCrew crewId
  | .deleteCrew crewId => s.deleteCrew crewId
  | .loadPolls list => s.loadPolls list.rows
  | .createPoll poll setRefs => s.createPoll poll.row setRefs
  | .applyPollCreated poll => s.applyPollCreated poll.row
  | .applyPollClosed pollId => s.applyPollClosed pollId
  | .loadMeetingPoints meetingPoints => s.loadMeetingPoints meetingPoints.rows
  | .createMeetingPoint meetingPoint => s.createMeetingPoint meetingPoint.row
  | .applyMeetingPointUpsert meetingPoint => s.applyMeetingPointUpsert meetingPoint.row
  | .applyMeetingPointRemoval mpId => s.applyMeetingPointRemoval mpId
  | .loadPacking items => s.loadPacking items.rows
  | .createPackingItem item => s.createPackingItem item.row
  | .deletePackingItem itemId => s.deletePackingItem itemId
  | .loadRides offers => s.loadRides offers.rows
  | .createRideOffer offer => s.createRideOffer offer.row
  | .deleteRideOffer offerId => s.deleteRideOffer offerId
  | .loadExpenses expenses => s.loadExpenses expenses.rows
  | .removeExpense expenseId => s.removeExpense expenseId
  | .loadStatuses statuses => s.loadStatuses statuses.rows
  | .applyStatusUpdate status => s.applyStatusUpdate status

/-- An offline create, with the crew and the random part of its `clientId`. -/
inductive OfflineCreate where
  | joinByCode (inviteCode : String)
  | createPoll (crew random : Slashless) (request : CreateCrewPollRequest)
      (setRefs : Option (List (Option PollSetRef))) (now : ℤ)
  | createMeetingPoint (crew random : Slashless) (request : CreateCrewMeetingPointRequest) (now : ℤ)
  | createPackingItem (crew random : Slashless) (request : CreateCrewPackingItemRequest) (now : ℤ)
  | createRideOffer (crew random : Slashless) (request : CreateCrewRideOfferRequest) (now : ℤ)
  | addExpense (crew random : Slashless) (request : CreateCrewExpenseRequest) (now : ℤ)

def OfflineCreate.pending : OfflineCreate → Pending
  | .joinByCode inviteCode => .join inviteCode
  | .createPoll crew random _ _ _ => .create crew .poll (by decide) random
  | .createMeetingPoint crew random _ _ => .create crew .meetingPoint (by decide) random
  | .createPackingItem crew random _ _ => .create crew .packingItem (by decide) random
  | .createRideOffer crew random _ _ => .create crew .rideOffer (by decide) random
  | .addExpense crew random _ _ => .create crew .expense (by decide) random

/-- `onOptimisticCreate` -/
def OfflineCreate.insert (s : Store) (clientId : String) : OfflineCreate → Store
  | .joinByCode _ => s.joinOffline clientId
  | .createPoll crew _ request setRefs now =>
      s.createPollOffline clientId (crewIdOf crew) request setRefs now
  | .createMeetingPoint crew _ request now =>
      s.createMeetingPointOffline clientId (crewIdOf crew) request now
  | .createPackingItem crew _ request now =>
      s.createPackingItemOffline clientId (crewIdOf crew) request now
  | .createRideOffer crew _ request now =>
      s.createRideOfferOffline clientId (crewIdOf crew) request now
  | .addExpense crew _ request now => s.addExpenseOffline clientId (crewIdOf crew) request now

inductive Action where
  | arrive (a : Arrival)
  | createOffline (c : OfflineCreate)
  | updateMyStatus (crewId : String) (request : UpdateCrewMemberStatusRequest) (myUserId : String)
      (now : ℤ)
  /-- The answer to an update; none if it was queued. -/
  | statusUpdated (i : ℕ) (status : Option CrewMemberStatus)
  | statusRejected (i : ℕ) (message : String)
  /-- A queued create was replayed. -/
  | replayed (e : Pending) (res : ServerResponse)
  /-- A queued create has failed for good. -/
  | failed (e : Pending)

variable (platform : Platform)

def step (s : State) : Action → Option State
  | .arrive a => some { s with store := receive s.store a }
  | .createOffline c =>
      some { s with
        store := c.insert s.store.begin c.pending.clientId
        queue := upsert Pending.clientId c.pending s.queue }
  | .updateMyStatus crewId request myUserId now =>
      some { s with
        store := s.store.updateMyStatus crewId request myUserId now
        updates := s.updates ++ [⟨myUserId, statusOf myUserId s.store.crewStatuses, statusOf_own⟩] }
  | .statusUpdated i status =>
      if i < s.updates.length then
        some { s with
          store :=
            match status with
            | some row => s.store.putServerStatus row
            | none => s.store
          updates := s.updates.eraseIdx i }
      else none
  | .statusRejected i message =>
      match s.updates[i]? with
      | some u =>
          some { s with
            store := s.store.rollBackStatus u.myUserId u.prevMine message
            updates := s.updates.eraseIdx i }
      | none => none
  | .replayed e res =>
      if s.queue.any (fun q => q.clientId = e.clientId) then
        some { s with
          store :=
            match platform with
            | .native => s.store.reconcile e.clientId res
            | .web => s.store
          queue := erase Pending.clientId e.clientId s.queue }
      else none
  | .failed e =>
      if s.queue.any (fun q => q.clientId = e.clientId) then
        some { s with queue := erase Pending.clientId e.clientId s.queue }
      else none

/-! ## Tidiness -/

/-- No id occurs twice, and the create of a placeholder is queued. -/
structure TidyList {α : Type} [Entry α] (queue : List Pending) (created : Created) (l : List α) :
    Prop where
  unique : UniqueKeys Entry.id l
  queued : ∀ x ∈ l, Entry.optimistic x = true →
    ∃ e ∈ queue, e.created = created ∧ e.clientId = Entry.id x

structure Tidy (s : State) : Prop where
  crews : TidyList s.queue .crew s.store.crews
  polls : TidyList s.queue .poll s.store.polls
  meetingPoints : TidyList s.queue .meetingPoint s.store.meetingPoints
  packingItems : TidyList s.queue .packingItem s.store.packingItems
  rideOffers : TidyList s.queue .rideOffer s.store.rideOffers
  expenses : TidyList s.queue .expense s.store.expenses
  crewStatuses : UniqueKeys Entry.id s.store.crewStatuses

/-- Is there a row with this id in the list of `created`? -/
def holds (s : Store) (created : Created) (id : String) : Bool :=
  match created with
  | .crew => present id s.crews
  | .poll => present id s.polls
  | .meetingPoint => present id s.meetingPoints
  | .packingItem => present id s.packingItems
  | .rideOffer => present id s.rideOffers
  | .expense => present id s.expenses

def hasTemp {α : Type} [Entry α] (clientId : String) (l : List α) : Bool :=
  l.any (fun x => Entry.optimistic x && Entry.id x = clientId)

/-- Is there a placeholder of the create? -/
def holdsTemp (s : Store) (e : Pending) : Bool :=
  match e.created with
  | .crew => hasTemp e.clientId s.crews
  | .poll => hasTemp e.clientId s.polls
  | .meetingPoint => hasTemp e.clientId s.meetingPoints
  | .packingItem => hasTemp e.clientId s.packingItems
  | .rideOffer => hasTemp e.clientId s.rideOffers
  | .expense => hasTemp e.clientId s.expenses

/-- The answer to a create finds no row with its id. -/
def Absent (s : Store) : Arrival → Prop
  | .createCrew crew => holds s .crew crew.row.id = false
  | .createPoll poll _ => holds s .poll poll.row.id = false
  | .createMeetingPoint meetingPoint => holds s .meetingPoint meetingPoint.row.id = false
  | .createPackingItem item => holds s .packingItem item.row.id = false
  | .createRideOffer offer => holds s .rideOffer offer.row.id = false
  | _ => True

/-- An answer and an offline create find no row with their id; a create leaves the queue through
the reconciler, or without a placeholder. -/
def Orderly (s : State) : Action → Prop
  | .arrive a => Absent s.store a
  | .createOffline c => holds s.store c.pending.created c.pending.clientId = false
  | .replayed e _ => platform = .native ∨ holdsTemp s.store e = false
  | .failed e => holdsTemp s.store e = false
  | _ => True

/-! ## What the list operations keep -/

section TidyList

variable {α : Type} [Entry α] {queue : List Pending} {created : Created} {l : List α} {x : α}

theorem present_eq_false {id : String} : present id l = false ↔ ∀ y ∈ l, Entry.id y ≠ id := by
  simp [present]

theorem hasTemp_eq_false {clientId : String} :
    hasTemp clientId l = false ↔ ∀ y ∈ l, Entry.optimistic y = true → Entry.id y ≠ clientId := by
  simp [hasTemp]

theorem TidyList.of_perm {l' : List α} (hp : l.Perm l') (h : TidyList queue created l) :
    TidyList queue created l' :=
  ⟨h.unique.of_perm hp, fun y hy => h.queued y (hp.mem_iff.mpr hy)⟩

theorem TidyList.filter (h : TidyList queue created l) (p : α → Bool) :
    TidyList queue created (l.filter p) :=
  ⟨h.unique.filter p, fun y hy => h.queued y (mem_filter.mp hy).1⟩

/-- A row comes to the front. -/
theorem tidyList_cons (h : TidyList queue created l)
    (hx : Entry.optimistic x = true → ∃ e ∈ queue, e.created = created ∧ e.clientId = Entry.id x) :
    TidyList queue created (x :: l) ↔ present (Entry.id x) l = false := by
  rw [present_eq_false]
  constructor
  · intro hcons
    exact (uniqueKeys_cons.mp hcons.unique).1
  · intro habsent
    refine ⟨uniqueKeys_cons.mpr ⟨habsent, h.unique⟩, fun y hy => ?_⟩
    rcases mem_cons.mp hy with rfl | hy
    · exact hx
    · exact h.queued y hy

/-- A row comes to the end. -/
theorem tidyList_concat (h : TidyList queue created l)
    (hx : Entry.optimistic x = true → ∃ e ∈ queue, e.created = created ∧ e.clientId = Entry.id x) :
    TidyList queue created (l ++ [x]) ↔ present (Entry.id x) l = false := by
  have hp : (l ++ [x]).Perm (x :: l) := perm_append_singleton x l
  rw [← tidyList_cons h hx]
  exact ⟨fun hc => hc.of_perm hp, fun hc => hc.of_perm hp.symm⟩

theorem tidyList_cons_confirmed (h : TidyList queue created l) (hx : Entry.optimistic x = false) :
    TidyList queue created (x :: l) ↔ present (Entry.id x) l = false :=
  tidyList_cons h (by simp [hx])

theorem tidyList_concat_confirmed (h : TidyList queue created l)
    (hx : Entry.optimistic x = false) :
    TidyList queue created (l ++ [x]) ↔ present (Entry.id x) l = false :=
  tidyList_concat h (by simp [hx])

/-- The rows of the server have no placeholders. -/
theorem tidyList_confirmed (hunique : UniqueKeys Entry.id l)
    (hl : ∀ y ∈ l, Entry.optimistic y = false) : TidyList queue created l :=
  ⟨hunique, fun y hy hopt => by simp [hl y hy] at hopt⟩

theorem tidyList_dropOptimistic (hunique : UniqueKeys Entry.id l) :
    TidyList queue created (dropOptimistic l) :=
  tidyList_confirmed (hunique.filter _) fun y hy => by simpa using (mem_filter.mp hy).2

/-- A row replaces the one with its id. -/
theorem TidyList.replace (h : TidyList queue created l) (hx : Entry.optimistic x = false) :
    TidyList queue created (l.map fun y => if Entry.id y = Entry.id x then x else y) := by
  constructor
  · refine h.unique.of_map_eq ?_
    rw [List.map_map]
    refine map_congr_left fun y _ => ?_
    simp only [Function.comp_apply]
    split_ifs with hy
    · exact hy.symm
    · rfl
  · intro y hy hopt
    obtain ⟨z, hz, rfl⟩ := List.mem_map.mp hy
    split_ifs at hopt ⊢ with hid
    · simp [hx] at hopt
    · exact h.queued z hz hopt

theorem TidyList.mono {queue' : List Pending} (h : TidyList queue created l)
    (hq : ∀ e ∈ queue, ∃ e' ∈ queue', e'.created = e.created ∧ e'.clientId = e.clientId) :
    TidyList queue' created l := by
  refine ⟨h.unique, fun y hy hopt => ?_⟩
  obtain ⟨e, he, rfl, hid⟩ := h.queued y hy hopt
  obtain ⟨e', he', hcreated, hid'⟩ := hq e he
  exact ⟨e', he', hcreated, hid'.trans hid⟩

/-- The placeholder of a create is in no list but its own. -/
theorem hasTemp_other (h : TidyList queue created l) {e : Pending} (hne : created ≠ e.created) :
    hasTemp e.clientId l = false := by
  rw [hasTemp_eq_false]
  intro y hy hopt hid
  obtain ⟨e', -, rfl, hid'⟩ := h.queued y hy hopt
  have hrouted := e'.routed
  rw [hid', hid, e.routed] at hrouted
  exact hne (some.inj hrouted).symm

/-- A create leaves the queue. -/
theorem tidyList_dequeue (h : TidyList queue created l) (e : Pending) :
    TidyList (erase Pending.clientId e.clientId queue) created l ↔
      hasTemp e.clientId l = false := by
  rw [hasTemp_eq_false]
  constructor
  · intro ht y hy hopt hid
    obtain ⟨e', he', -, hid'⟩ := ht.queued y hy hopt
    exact (mem_erase.mp he').2 (hid'.trans hid)
  · intro hno
    refine ⟨h.unique, fun y hy hopt => ?_⟩
    obtain ⟨e', he', hcreated, hid⟩ := h.queued y hy hopt
    exact ⟨e', mem_erase.mpr ⟨he', fun hh => hno y hy hopt (hid.symm.trans hh)⟩, hcreated, hid⟩

/-- The reconciler leaves no placeholder and no duplicate. -/
theorem tidyList_replaceTemp (h : TidyList queue created l) {place : α → List α → List α}
    (hplace : ∀ y m, (place y m).Perm (y :: m)) (clientId : String) {real : Option α}
    (hreal : ∀ y, real = some y → Entry.optimistic y = false) :
    TidyList queue created (replaceTemp place clientId real l) ∧
      hasTemp clientId (replaceTemp place clientId real l) = false := by
  have hwithout : TidyList queue created (without clientId l) := h.filter _
  have hgone : hasTemp clientId (without clientId l) = false :=
    hasTemp_eq_false.mpr fun y hy _ => (mem_erase.mp hy).2
  unfold replaceTemp
  split_ifs with hpresent
  · cases real with
    | none => exact ⟨hwithout, hgone⟩
    | some y =>
      have hy := hreal y rfl
      simp only
      split_ifs with hreal
      · exact ⟨hwithout, hgone⟩
      · have habsent : present (Entry.id y) (without clientId l) = false := by simpa using hreal
        refine ⟨TidyList.of_perm (hplace _ _).symm ((tidyList_cons hwithout ?_).mpr habsent), ?_⟩
        · simp [hy]
        · rw [hasTemp_eq_false] at hgone ⊢
          intro z hz hopt
          rcases mem_cons.mp ((hplace y _).mem_iff.mp hz) with rfl | hz
          · simp [hy] at hopt
          · exact hgone z hz hopt
  · refine ⟨h, hasTemp_eq_false.mpr fun y hy _ => ?_⟩
    exact present_eq_false.mp (by simpa using hpresent) y hy

end TidyList

/-- A create that is queued leaves the others. -/
theorem mem_upsert_pending {e : Pending} (p : Pending) {queue : List Pending} (he : e ∈ queue) :
    ∃ e' ∈ upsert Pending.clientId p queue, e'.created = e.created ∧ e'.clientId = e.clientId := by
  by_cases hid : e.clientId = p.clientId
  · have hcreated : some p.created = some e.created := by rw [← p.routed, ← e.routed, hid]
    exact ⟨p, mem_upsert_self p queue, some.inj hcreated, hid.symm⟩
  · exact ⟨e, mem_upsert_of_ne he hid, rfl, rfl⟩

/-! ## What a step keeps -/

section Steps

variable {s : State}

theorem Tidy.enqueue (h : Tidy s) (p : Pending) :
    Tidy { s with queue := upsert Pending.clientId p s.queue } :=
  have hq := fun e (he : e ∈ s.queue) => mem_upsert_pending p he
  { crews := h.crews.mono hq
    polls := h.polls.mono hq
    meetingPoints := h.meetingPoints.mono hq
    packingItems := h.packingItems.mono hq
    rideOffers := h.rideOffers.mono hq
    expenses := h.expenses.mono hq
    crewStatuses := h.crewStatuses }

theorem tidy_dequeue (h : Tidy s) (e : Pending) :
    Tidy { s with queue := erase Pending.clientId e.clientId s.queue } ↔
      holdsTemp s.store e = false := by
  have hall : holdsTemp s.store e = false ↔
      hasTemp e.clientId s.store.crews = false ∧ hasTemp e.clientId s.store.polls = false ∧
      hasTemp e.clientId s.store.meetingPoints = false ∧
      hasTemp e.clientId s.store.packingItems = false ∧
      hasTemp e.clientId s.store.rideOffers = false ∧
      hasTemp e.clientId s.store.expenses = false := by
    cases hc : e.created <;>
      simp [holdsTemp, hc, hasTemp_other h.crews, hasTemp_other h.polls,
        hasTemp_other h.meetingPoints, hasTemp_other h.packingItems, hasTemp_other h.rideOffers,
        hasTemp_other h.expenses]
  rw [hall]
  constructor
  · intro ht
    exact ⟨(tidyList_dequeue h.crews e).mp ht.crews, (tidyList_dequeue h.polls e).mp ht.polls,
      (tidyList_dequeue h.meetingPoints e).mp ht.meetingPoints,
      (tidyList_dequeue h.packingItems e).mp ht.packingItems,
      (tidyList_dequeue h.rideOffers e).mp ht.rideOffers,
      (tidyList_dequeue h.expenses e).mp ht.expenses⟩
  · rintro ⟨hcrews, hpolls, hmps, hitems, hoffers, hexpenses⟩
    exact
      { crews := (tidyList_dequeue h.crews e).mpr hcrews
        polls := (tidyList_dequeue h.polls e).mpr hpolls
        meetingPoints := (tidyList_dequeue h.meetingPoints e).mpr hmps
        packingItems := (tidyList_dequeue h.packingItems e).mpr hitems
        rideOffers := (tidyList_dequeue h.rideOffers e).mpr hoffers
        expenses := (tidyList_dequeue h.expenses e).mpr hexpenses
        crewStatuses := h.crewStatuses }

theorem confirmed_map {α : Type} [Entry α] {f : α → α} (hf : ∀ x, Entry.optimistic (f x) = false)
    (row : Option α) : ∀ x, row.map f = some x → Entry.optimistic x = false := by
  rintro _ hx
  obtain ⟨x, -, rfl⟩ := map_eq_some_iff.mp hx
  exact hf x

/-- The reconciler keeps the lists tidy, and the placeholder is gone. -/
theorem tidy_reconcile (h : Tidy s) (e : Pending) (res : ServerResponse) :
    Tidy { s with store := s.store.reconcile e.clientId res } ∧
      holdsTemp (s.store.reconcile e.clientId res) e = false := by
  have hrouted := e.routed
  have hcons : ∀ {α : Type} (x : α) (l : List α), (x :: l).Perm (x :: l) := fun _ _ => .refl _
  cases hc : e.created with
  | crew =>
    simp only [hc] at hrouted
    simp only [Store.reconcile, hrouted, holdsTemp, hc]
    have hreal := confirmed_map (f := fun c : Crew => { c with optimistic := false })
      (fun _ => rfl) res.crew
    obtain ⟨htidy, hgone⟩ := tidyList_replaceTemp h.crews
      (fun c l => perm_append_singleton c l) e.clientId hreal
    exact ⟨{ h with crews := htidy }, hgone⟩
  | poll =>
    simp only [hc] at hrouted
    simp only [Store.reconcile, hrouted, holdsTemp, hc]
    let temp := s.store.polls.find? (fun p => p.id = e.clientId)
    have hreal := confirmed_map
      (f := fun p : CrewPoll =>
        { p with optimistic := false, setRefs := temp.bind CrewPoll.setRefs <|> p.setRefs })
      (fun _ => rfl) res.poll
    obtain ⟨htidy, hgone⟩ := tidyList_replaceTemp h.polls hcons e.clientId hreal
    exact ⟨{ h with polls := htidy }, hgone⟩
  | meetingPoint =>
    simp only [hc] at hrouted
    simp only [Store.reconcile, hrouted, holdsTemp, hc]
    have hreal := confirmed_map (f := fun m : CrewMeetingPoint => { m with optimistic := false })
      (fun _ => rfl) res.meetingPoint
    obtain ⟨htidy, hgone⟩ := tidyList_replaceTemp h.meetingPoints hcons e.clientId hreal
    exact ⟨{ h with meetingPoints := htidy }, hgone⟩
  | packingItem =>
    simp only [hc] at hrouted
    simp only [Store.reconcile, hrouted, holdsTemp, hc]
    have hreal := confirmed_map (f := fun it : CrewPackingItem => { it with optimistic := false })
      (fun _ => rfl) res.item
    obtain ⟨htidy, hgone⟩ := tidyList_replaceTemp h.packingItems hcons e.clientId hreal
    exact ⟨{ h with packingItems := htidy }, hgone⟩
  | rideOffer =>
    simp only [hc] at hrouted
    simp only [Store.reconcile, hrouted, holdsTemp, hc]
    have hreal := confirmed_map (f := fun o : CrewRideOffer => { o with optimistic := false })
      (fun _ => rfl) res.offer
    obtain ⟨htidy, hgone⟩ := tidyList_replaceTemp h.rideOffers hcons e.clientId hreal
    exact ⟨{ h with rideOffers := htidy }, hgone⟩
  | expense =>
    simp only [hc] at hrouted
    simp only [Store.reconcile, hrouted, holdsTemp, hc]
    have hreal : ∀ x, (none : Option CrewExpense) = some x → Entry.optimistic x = false := by simp
    obtain ⟨htidy, hgone⟩ := tidyList_replaceTemp h.expenses hcons e.clientId hreal
    exact ⟨{ h with expenses := htidy }, hgone⟩

theorem Tidy.putServerStatus (h : Tidy s) (row : CrewMemberStatus) :
    Tidy { s with store := s.store.putServerStatus row } :=
  { h with crewStatuses := uniqueKeys_putStatus h.crewStatuses { row with optimistic := false } }

theorem Tidy.applyStatusUpdate (h : Tidy s) (row : CrewMemberStatus) :
    Tidy { s with store := s.store.applyStatusUpdate row } := by
  unfold Store.applyStatusUpdate
  split
  · split_ifs
    · exact h
    · exact h.putServerStatus row
  · exact h.putServerStatus row

theorem Tidy.rollBackStatus (h : Tidy s) (u : Update) (message : String) :
    Tidy { s with store := s.store.rollBackStatus u.myUserId u.prevMine message } := by
  refine { h with crewStatuses := ?_ }
  simp only [Store.rollBackStatus]
  cases hprev : u.prevMine with
  | none => exact h.crewStatuses.erase _
  | some row =>
    rw [← u.own row hprev]
    exact uniqueKeys_putStatus h.crewStatuses row

theorem tidy_receive (h : Tidy s) (a : Arrival) :
    Tidy { s with store := receive s.store a } ↔ Absent s.store a := by
  cases a with
  | loadCrews crews =>
    exact iff_true_intro { h with crews := tidyList_confirmed crews.unique crews.confirmed }
  | createCrew crew =>
    have hiff := tidyList_concat_confirmed h.crews crew.confirmed
    exact ⟨fun ht => hiff.mp ht.crews, fun hc => { h with crews := hiff.mpr hc }⟩
  | reformCrew crew now =>
    refine iff_true_intro { h with crews := ?_ }
    simp only [receive, Store.reformCrew]
    split_ifs with hpresent
    · exact h.crews.replace crew.confirmed
    · exact (tidyList_concat_confirmed h.crews crew.confirmed).mpr (Bool.eq_false_iff.mpr hpresent)
  | joinByCode crew =>
    refine iff_true_intro { h with crews := ?_ }
    simp only [receive, Store.joinByCode]
    split_ifs with hpresent
    · exact h.crews
    · exact (tidyList_concat_confirmed h.crews crew.confirmed).mpr (Bool.eq_false_iff.mpr hpresent)
  | leaveCrew crewId => exact iff_true_intro { h with crews := h.crews.filter _ }
  | deleteCrew crewId => exact iff_true_intro { h with crews := h.crews.filter _ }
  | loadPolls list =>
    have hunique : UniqueKeys Entry.id (list.rows.map normalizeVotes) :=
      list.unique.of_map_eq (by simp [Entry.id, normalizeVotes, Function.comp_def])
    exact iff_true_intro { h with polls := tidyList_dropOptimistic hunique }
  | createPoll poll setRefs =>
    have hiff := tidyList_cons_confirmed h.polls
      (x := { poll.row with setRefs := localSetRefs setRefs <|> poll.row.setRefs }) poll.confirmed
    exact ⟨fun ht => hiff.mp ht.polls, fun hc => { h with polls := hiff.mpr hc }⟩
  | applyPollCreated poll =>
    refine iff_true_intro ?_
    simp only [receive, Store.applyPollCreated]
    split_ifs with hpresent
    · exact h
    · exact { h with
        polls :=
          (tidyList_cons_confirmed h.polls poll.confirmed).mpr (Bool.eq_false_iff.mpr hpresent) }
  | applyPollClosed pollId => exact iff_true_intro { h with polls := h.polls.filter _ }
  | loadMeetingPoints meetingPoints =>
    exact iff_true_intro { h with meetingPoints := tidyList_dropOptimistic meetingPoints.unique }
  | createMeetingPoint meetingPoint =>
    have hiff := tidyList_cons_confirmed h.meetingPoints meetingPoint.confirmed
    exact ⟨fun ht => hiff.mp ht.meetingPoints, fun hc => { h with meetingPoints := hiff.mpr hc }⟩
  | applyMeetingPointUpsert meetingPoint =>
    refine iff_true_intro { h with meetingPoints := ?_ }
    simp only [receive, Store.applyMeetingPointUpsert]
    split_ifs with hpresent
    · exact h.meetingPoints.replace meetingPoint.confirmed
    · exact (tidyList_cons_confirmed h.meetingPoints meetingPoint.confirmed).mpr
        (Bool.eq_false_iff.mpr hpresent)
  | applyMeetingPointRemoval mpId =>
    exact iff_true_intro { h with meetingPoints := h.meetingPoints.filter _ }
  | loadPacking items =>
    exact iff_true_intro { h with packingItems := tidyList_dropOptimistic items.unique }
  | createPackingItem item =>
    have hiff := tidyList_cons_confirmed h.packingItems item.confirmed
    exact ⟨fun ht => hiff.mp ht.packingItems, fun hc => { h with packingItems := hiff.mpr hc }⟩
  | deletePackingItem itemId =>
    exact iff_true_intro { h with packingItems := h.packingItems.filter _ }
  | loadRides offers =>
    exact iff_true_intro { h with rideOffers := tidyList_dropOptimistic offers.unique }
  | createRideOffer offer =>
    have hiff := tidyList_cons_confirmed h.rideOffers offer.confirmed
    exact ⟨fun ht => hiff.mp ht.rideOffers, fun hc => { h with rideOffers := hiff.mpr hc }⟩
  | deleteRideOffer offerId => exact iff_true_intro { h with rideOffers := h.rideOffers.filter _ }
  | loadExpenses expenses =>
    exact iff_true_intro { h with expenses := tidyList_dropOptimistic expenses.unique }
  | removeExpense expenseId => exact iff_true_intro { h with expenses := h.expenses.filter _ }
  | loadStatuses statuses =>
    exact iff_true_intro { h with crewStatuses := statuses.unique.filter _ }
  | applyStatusUpdate status => exact iff_true_intro (h.applyStatusUpdate status)

theorem mem_enqueue (p : Pending) (queue : List Pending) :
    ∃ e ∈ upsert Pending.clientId p queue, e.created = p.created ∧ e.clientId = p.clientId :=
  ⟨p, mem_upsert_self p queue, rfl, rfl⟩

theorem tidy_createOffline (h : Tidy s) (c : OfflineCreate) :
    Tidy { s with
      store := c.insert s.store.begin c.pending.clientId
      queue := upsert Pending.clientId c.pending s.queue } ↔
    holds s.store c.pending.created c.pending.clientId = false := by
  have hq := h.enqueue c.pending
  have hin := mem_enqueue c.pending s.queue
  cases c with
  | joinByCode inviteCode =>
    have hiff := tidyList_concat hq.crews (x := joiningCrew (joinClientId inviteCode))
      (fun _ => hin)
    exact ⟨fun ht => hiff.mp ht.crews, fun hc => { hq with crews := hiff.mpr hc }⟩
  | createPoll crew random request setRefs now =>
    have hiff := tidyList_cons hq.polls (x := optimisticPoll (clientIdOf crew .poll random)
      (crewIdOf crew) request setRefs now) (fun _ => hin)
    exact ⟨fun ht => hiff.mp ht.polls, fun hc => { hq with polls := hiff.mpr hc }⟩
  | createMeetingPoint crew random request now =>
    have hiff := tidyList_cons hq.meetingPoints (x := optimisticMp
      (clientIdOf crew .meetingPoint random) (crewIdOf crew) request now) (fun _ => hin)
    exact ⟨fun ht => hiff.mp ht.meetingPoints, fun hc => { hq with meetingPoints := hiff.mpr hc }⟩
  | createPackingItem crew random request now =>
    have hiff := tidyList_cons hq.packingItems (x := optimisticItem
      (clientIdOf crew .packingItem random) (crewIdOf crew) request now) (fun _ => hin)
    exact ⟨fun ht => hiff.mp ht.packingItems, fun hc => { hq with packingItems := hiff.mpr hc }⟩
  | createRideOffer crew random request now =>
    have hiff := tidyList_cons hq.rideOffers (x := optimisticOffer
      (clientIdOf crew .rideOffer random) (crewIdOf crew) request now) (fun _ => hin)
    exact ⟨fun ht => hiff.mp ht.rideOffers, fun hc => { hq with rideOffers := hiff.mpr hc }⟩
  | addExpense crew random request now =>
    have hiff := tidyList_cons hq.expenses (x := optimisticExpense
      (clientIdOf crew .expense random) (crewIdOf crew) request now) (fun _ => hin)
    exact ⟨fun ht => hiff.mp ht.expenses, fun hc => { hq with expenses := hiff.mpr hc }⟩

variable {platform : Platform}

theorem tidy_step {t : State} {a : Action} (h : Tidy s) (hstep : step platform s a = some t) :
    Tidy t ↔ Orderly platform s a := by
  cases a with
  | arrive a =>
    cases hstep
    exact tidy_receive h a
  | createOffline c =>
    cases hstep
    exact tidy_createOffline h c
  | updateMyStatus crewId request myUserId now =>
    cases hstep
    exact iff_true_intro { h with crewStatuses := uniqueKeys_putStatus h.crewStatuses _ }
  | statusUpdated i status =>
    simp only [step, ite_none_right_eq_some, some.injEq] at hstep
    obtain ⟨-, rfl⟩ := hstep
    refine iff_true_intro ?_
    cases status with
    | none => exact { h with }
    | some row => exact { h.putServerStatus row with }
  | statusRejected i message =>
    simp only [step] at hstep
    split at hstep
    · rename_i u hu
      cases hstep
      exact iff_true_intro { h.rollBackStatus u message with }
    · cases hstep
  | replayed e res =>
    simp only [step, ite_none_right_eq_some, some.injEq] at hstep
    obtain ⟨-, rfl⟩ := hstep
    cases platform with
    | native =>
      obtain ⟨htidy, hgone⟩ := tidy_reconcile h e res
      exact iff_of_true ((tidy_dequeue htidy e).mpr hgone) (.inl rfl)
    | web =>
      rw [Orderly, or_iff_right (by decide)]
      exact tidy_dequeue h e
  | failed e =>
    simp only [step, ite_none_right_eq_some, some.injEq] at hstep
    obtain ⟨-, rfl⟩ := hstep
    exact tidy_dequeue h e

end Steps

/-- The lists are tidy throughout a run exactly if its steps are orderly. -/
theorem tidy_iff {platform : Platform} {start : State} (h : Tidy start) {as : List Action}
    {t : State} (hrun : Machine.run (step platform) start as = some t) :
    Machine.Always (step platform) Tidy start as ↔
      Machine.Meets (step platform) (Orderly platform) start as :=
  Machine.always_iff_meets (fun _ _ _ => tidy_step) h hrun

/-- The store as the app starts. -/
def start : State :=
  { store := .initial
    queue := []
    updates := [] }

theorem tidy_start : Tidy start :=
  { crews := ⟨nodup_nil, by simp [start, Store.initial]⟩
    polls := ⟨nodup_nil, by simp [start, Store.initial]⟩
    meetingPoints := ⟨nodup_nil, by simp [start, Store.initial]⟩
    packingItems := ⟨nodup_nil, by simp [start, Store.initial]⟩
    rideOffers := ⟨nodup_nil, by simp [start, Store.initial]⟩
    expenses := ⟨nodup_nil, by simp [start, Store.initial]⟩
    crewStatuses := nodup_nil }

def crewId : Slashless := ⟨"1f", by decide⟩

def pollCreate : OfflineCreate :=
  .createPoll crewId ⟨"2e", by decide⟩
    { question := "Where?"
      options := ["bar", "gate"]
      closesAt := none } none 1

/-- The poll as the server has it. -/
def realPoll : Confirmed CrewPoll :=
  { row :=
      { id := "poll-7"
        crewId := crewIdOf crewId
        createdBy := "u"
        question := "Where?"
        options := ["bar", "gate"]
        votes := []
        closesAt := none
        closed := false
        createdAt := 2
        optimistic := false
        setRefs := none }
    confirmed := rfl }

def meetingPoint : Confirmed CrewMeetingPoint :=
  { row :=
      { id := "mp-3"
        crewId := crewIdOf crewId
        createdBy := "u"
        label := "gate"
        location := "north"
        type := "custom"
        meetAt := none
        stageReference := none
        latitude := none
        longitude := none
        recursDaily := false
        active := true
        createdAt := 3
        optimistic := false }
    confirmed := rfl }

/-- A poll is created offline and its event comes before the replay; a meeting point is created
online and its event comes after the answer. -/
def createdRun : List Action :=
  [.createOffline pollCreate,
    .arrive (.applyPollCreated realPoll),
    .replayed pollCreate.pending
      { crew := none
        poll := some realPoll.row
        meetingPoint := none
        item := none
        offer := none },
    .arrive (.createMeetingPoint meetingPoint),
    .arrive (.applyMeetingPointUpsert meetingPoint)]

theorem createdRun_tidy :
    ∃ t, Machine.run (step .native) start createdRun = some t ∧
      Machine.Always (step .native) Tidy start createdRun :=
  ⟨_, rfl, (tidy_iff tidy_start rfl).mpr ⟨rfl, trivial, Or.inl rfl, rfl, trivial, trivial⟩⟩

/-- The event of a meeting point comes before the answer to its create. -/
theorem event_first_duplicated :
    ∃ t, Machine.run (step .native) start
        [.arrive (.applyMeetingPointUpsert meetingPoint),
          .arrive (.createMeetingPoint meetingPoint)] = some t ∧
      t.store.meetingPoints = [meetingPoint.row, meetingPoint.row] ∧ ¬ Tidy t := by
  refine ⟨_, rfl, rfl, fun h => ?_⟩
  exact absurd h.meetingPoints.unique (by decide)

end FestivalPlanner.CrewLists
