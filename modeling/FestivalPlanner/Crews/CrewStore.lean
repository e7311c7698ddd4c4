import FestivalPlanner.Lib.Js
import FestivalPlanner.Lib.Keyed

/-!
# The crew store

The lists that `crewStore` holds of the active crew, and what its actions set.  An action that
sends a request is in two parts: `selectCrew` is what it sets before the request is sent, and
`selectCrewDone` what it sets when the answer is there.

* `Crew`, `CrewPoll`, … — the rows, with the client-only `_optimistic`;
* `Entry` — the id of a row and its flag, and the list operations that use only these;
* `Store` — the state, with one definition for each action.

Times are in milliseconds; a vote list that is absent counts as empty everywhere.
-/

namespace FestivalPlanner.CrewStore

open Keyed

/-! ## Rows -/

inductive Role where
  | owner
  | member
  deriving DecidableEq

/-- The crew is the one whose answer had the row. -/
structure CrewMember where
  crewId : String
  userId : String
  role : Option Role
  deriving DecidableEq

structure Crew where
  id : String
  name : String
  owner : String
  members : Option (List CrewMember)
  optimistic : Bool
  ofCrew : ∀ l, members = some l → ∀ m ∈ l, m.crewId = id

/-- `user_id` and `option` -/
structure CrewPollVote where
  option : ℤ
  userId : Option String
  deriving DecidableEq

structure PollSetRef where
  setId : String
  label : String
  stageReference : Option String
  meetAt : Option String
  deriving DecidableEq

structure CrewPoll where
  id : String
  crewId : String
  createdBy : String
  question : String
  options : List String
  votes : List CrewPollVote
  closesAt : Option String
  closed : Bool
  createdAt : ℤ
  optimistic : Bool
  setRefs : Option (List (Option PollSetRef))
  deriving DecidableEq

structure CrewMeetingPoint where
  id : String
  crewId : String
  createdBy : String
  label : String
  location : String
  type : String
  meetAt : Option String
  stageReference : Option String
  latitude : Option ℚ
  longitude : Option ℚ
  recursDaily : Bool
  active : Bool
  createdAt : ℤ
  optimistic : Bool
  deriving DecidableEq

structure CrewPackingItem where
  id : String
  crewId : String
  createdBy : String
  label : String
  broughtBy : Option String
  claimed : Bool
  createdAt : ℤ
  optimistic : Bool
  deriving DecidableEq

structure CrewRideOffer where
  id : String
  crewId : String
  createdBy : String
  driver : Option String
  seats : Option ℤ
  departFrom : Option String
  departAt : Option String
  note : Option String
  createdAt : ℤ
  optimistic : Bool
  deriving DecidableEq

inductive Status where
  | onMyWay
  | here
  | delayed
  deriving DecidableEq

/-- `updatedAt` is the time that `updated_at` stands for, `none` if it is no date. -/
structure CrewMemberStatus where
  crewId : String
  userId : String
  status : Option Status
  targetMeetingPointId : Option String
  etaMinutes : Option ℚ
  note : Option String
  latitude : Option ℚ
  longitude : Option ℚ
  locationCapturedAt : Option ℤ
  updatedAt : Option ℤ
  username : Option String
  name : Option String
  avatarKey : Option String
  avatarVersion : Option String
  optimistic : Bool
  deriving DecidableEq

structure CrewExpense where
  id : String
  crewId : String
  paidBy : String
  paidByName : String
  description : String
  amount : ℚ
  splitWith : List String
  category : String
  planned : Bool
  createdAt : ℤ
  optimistic : Bool
  deriving DecidableEq

/-- The crew is the one whose answer had the row, here and in a settlement. -/
structure CrewExpenseBalance where
  crewId : String
  userId : String
  balance : ℚ
  deriving DecidableEq

structure CrewSettlement where
  crewId : String
  fromUserId : String
  toUserId : String
  amountCents : ℤ
  deriving DecidableEq

structure CrewActivityEntry where
  id : String
  crewId : String
  userId : String
  type : String
  detail : Option String
  deriving DecidableEq

/-! ## Lists of rows -/

/-- The id of a row, and `_optimistic`. -/
class Entry (α : Type) where
  id : α → String
  optimistic : α → Bool

instance : Entry Crew := ⟨Crew.id, Crew.optimistic⟩
instance : Entry CrewPoll := ⟨CrewPoll.id, CrewPoll.optimistic⟩
instance : Entry CrewMeetingPoint := ⟨CrewMeetingPoint.id, CrewMeetingPoint.optimistic⟩
instance : Entry CrewPackingItem := ⟨CrewPackingItem.id, CrewPackingItem.optimistic⟩
instance : Entry CrewRideOffer := ⟨CrewRideOffer.id, CrewRideOffer.optimistic⟩
instance : Entry CrewExpense := ⟨CrewExpense.id, CrewExpense.optimistic⟩

/-- There is one status a member. -/
instance : Entry CrewMemberStatus := ⟨CrewMemberStatus.userId, CrewMemberStatus.optimistic⟩

variable {α : Type} [Entry α]

def dropOptimistic (l : List α) : List α := l.filter (fun x => !Entry.optimistic x)

/-- `list.filter((x) => x.id !== id)` -/
def without (id : String) (l : List α) : List α := erase Entry.id id l

/-- `list.some((x) => x.id === id)` -/
def present (id : String) (l : List α) : Bool := l.any (fun x => Entry.id x = id)

/-! ## The store -/

structure Store where
  crews : List Crew
  activeCrew : Option Crew
  crewMembers : List CrewMember
  polls : List CrewPoll
  meetingPoints : List CrewMeetingPoint
  packingItems : List CrewPackingItem
  rideOffers : List CrewRideOffer
  crewStatuses : List CrewMemberStatus
  expenses : List CrewExpense
  expenseBalances : List CrewExpenseBalance
  settlements : List CrewSettlement
  activity : List CrewActivityEntry
  crewLoading : Bool
  error : Option String
  cachedAt : Option ℤ
  cachedCrewId : Option String

def Store.initial : Store :=
  { crews := []
    activeCrew := none
    crewMembers := []
    polls := []
    meetingPoints := []
    packingItems := []
    rideOffers := []
    crewStatuses := []
    expenses := []
    expenseBalances := []
    settlements := []
    activity := []
    crewLoading := false
    error := none
    cachedAt := none
    cachedCrewId := none }

/-- `state.activeCrew?.id === crewId` -/
@[grind =] def Store.IsActive (s : Store) (crewId : String) : Prop := s.activeCrew.map Crew.id = some crewId

instance (s : Store) (crewId : String) : Decidable (s.IsActive crewId) :=
  inferInstanceAs (Decidable (_ = _))

/-- What an action sets before its request. -/
def Store.begin (s : Store) : Store := { s with error := none }

/-- What `loadCrews`, `createCrew` and `reformCrew` set before theirs. -/
def Store.beginLoading (s : Store) : Store := { s with crewLoading := true, error := none }

/-- The `catch` of an action. -/
def Store.failed (s : Store) (message : String) : Store := { s with error := some message }

def Store.failedLoading (s : Store) (message : String) : Store :=
  { s with error := some message, crewLoading := false }

/-! ## Crews and members -/

def Store.selectCrew (s : Store) (crewId : String) : Store :=
  let sameActiveCrew := s.IsActive crewId
  let sameCrew := s.cachedCrewId = some crewId ∨ s.IsActive crewId
  { s with
    crewLoading := true
    error := none
    activeCrew := if sameActiveCrew then s.activeCrew else none
    crewMembers := if sameCrew then s.crewMembers else []
    polls := if sameCrew then s.polls else []
    meetingPoints := if sameCrew then s.meetingPoints else []
    packingItems := if sameCrew then s.packingItems else []
    rideOffers := if sameCrew then s.rideOffers else []
    crewStatuses := if sameCrew then s.crewStatuses else []
    expenses := if sameCrew then s.expenses else []
    expenseBalances := if sameCrew then s.expenseBalances else []
    settlements := if sameCrew then s.settlements else []
    activity := if sameCrew then s.activity else [] }

/-- The answer for the crew that was selected last. -/
def Store.selectCrewDone (s : Store) (crew : Crew) (now : ℤ) : Store :=
  { s with
    activeCrew := some crew
    crewMembers := crew.members.getD []
    crewLoading := false
    cachedAt := some now
    cachedCrewId := some crew.id }

def Store.createCrew (s : Store) (crew : Crew) : Store :=
  { s with
    crews := s.crews ++ [crew]
    activeCrew := some crew
    crewMembers := crew.members.getD []
    crewLoading := false }

def Store.reformCrew (s : Store) (crew : Crew) (now : ℤ) : Store :=
  { s with
    crews :=
      if present crew.id s.crews then s.crews.map (fun c => if c.id = crew.id then crew else c)
      else s.crews ++ [crew]
    activeCrew := some crew
    crewMembers := crew.members.getD []
    crewLoading := false
    cachedAt := some now
    cachedCrewId := some crew.id }

def Store.kickMember (s : Store) (memberId : String) : Store :=
  { s with crewMembers := s.crewMembers.filter (fun m => m.userId ≠ memberId) }

/-- The role of a member after the ownership went to `newOwnerId`. -/
def CrewMember.transfer (newOwnerId : String) (m : CrewMember) : CrewMember :=
  { m with role := if m.userId = newOwnerId then some .owner else some .member }

def Crew.transfer (crew : Crew) (newOwnerId : String) (members : List CrewMember)
    (h : crew.members = some members) : Crew :=
  { crew with
    owner := newOwnerId
    members := some (members.map (CrewMember.transfer newOwnerId))
    ofCrew := by
      rintro _ ⟨rfl⟩ m hm
      obtain ⟨old, hold, rfl⟩ := List.mem_map.mp hm
      exact crew.ofCrew members h old hold }

/-- `activeCrew` after a transfer, if it is the crew; `map` throws if its members are absent. -/
def Store.transferActive (s : Store) (crewId newOwnerId : String) : Except String (Option Crew) :=
  match s.activeCrew with
  | none => .ok none
  | some crew =>
      if crew.id = crewId then
        match h : crew.members with
        | some members => .ok (some (crew.transfer newOwnerId members h))
        | none => .error "Cannot read properties of undefined (reading 'map')"
      else .ok (some crew)

def Store.transferOwnership (s : Store) (crewId newOwnerId : String) : Store :=
  match s.transferActive crewId newOwnerId with
  | .ok activeCrew =>
      { s with
        crewMembers := s.crewMembers.map (CrewMember.transfer newOwnerId)
        activeCrew := activeCrew
        crews := s.crews.map (fun c => if c.id = crewId then { c with owner := newOwnerId } else c) }
  | .error message => s.failed message

/-! ## Loaders -/

/-- `votes` of a poll that was loaded. -/
def normalizeVotes (p : CrewPoll) : CrewPoll :=
  { p with votes := p.votes.filter (fun v => v.userId.any (fun u => u ≠ "")) }

def Store.loadPolls (s : Store) (list : List CrewPoll) : Store :=
  { s with polls := dropOptimistic (list.map normalizeVotes) }

def Store.loadMeetingPoints (s : Store) (meetingPoints : List CrewMeetingPoint) : Store :=
  { s with meetingPoints := dropOptimistic meetingPoints }

def Store.loadPacking (s : Store) (items : List CrewPackingItem) : Store :=
  { s with packingItems := dropOptimistic items }

def Store.loadRides (s : Store) (offers : List CrewRideOffer) : Store :=
  { s with rideOffers := dropOptimistic offers }

def Store.loadStatuses (s : Store) (statuses : List CrewMemberStatus) : Store :=
  { s with crewStatuses := dropOptimistic statuses }

def Store.loadExpenses (s : Store) (expenses : List CrewExpense) : Store :=
  { s with expenses := dropOptimistic expenses }

def Store.loadBalances (s : Store) (expenseBalances : List CrewExpenseBalance)
    (settlements : List CrewSettlement) : Store :=
  { s with expenseBalances := expenseBalances, settlements := settlements }

def Store.loadActivity (s : Store) (activity : List CrewActivityEntry) : Store :=
  { s with activity := activity }

def Store.loadCrews (s : Store) (crews : List Crew) : Store :=
  { s with crews := crews, crewLoading := false }

/-! ## Creates

An offline create inserts a placeholder, whose id is the `clientId` of the queued request. -/

/-- The answer of an online join. -/
def Store.joinByCode (s : Store) (crew : Crew) : Store :=
  { s with
    crews := if present crew.id s.crews then s.crews else s.crews ++ [crew]
    crewLoading := false }

def joiningCrew (clientId : String) : Crew :=
  { id := clientId
    name := "Joining crew…"
    owner := ""
    members := some []
    optimistic := true
    ofCrew := by simp }

def Store.joinOffline (s : Store) (clientId : String) : Store :=
  { s with crews := s.crews ++ [joiningCrew clientId], crewLoading := false }

structure CreateCrewPollRequest where
  question : String
  options : List String
  closesAt : Option String

/-- Kept only if some option links to a set. -/
def localSetRefs (setRefs : Option (List (Option PollSetRef))) : Option (List (Option PollSetRef)) :=
  setRefs.filter (fun refs => refs.any Option.isSome)

/-- The answer of an online create. -/
def Store.createPoll (s : Store) (poll : CrewPoll) (setRefs : Option (List (Option PollSetRef))) :
    Store :=
  { s with polls := { poll with setRefs := localSetRefs setRefs <|> poll.setRefs } :: s.polls }

def optimisticPoll (clientId crewId : String) (request : CreateCrewPollRequest)
    (setRefs : Option (List (Option PollSetRef))) (now : ℤ) : CrewPoll :=
  { id := clientId
    crewId := crewId
    createdBy := ""
    question := request.question
    options := request.options
    votes := []
    closesAt := request.closesAt
    closed := false
    createdAt := now
    optimistic := true
    setRefs := localSetRefs setRefs }

def Store.createPollOffline (s : Store) (clientId crewId : String)
    (request : CreateCrewPollRequest) (setRefs : Option (List (Option PollSetRef))) (now : ℤ) :
    Store :=
  { s with polls := optimisticPoll clientId crewId request setRefs now :: s.polls }

structure CreateCrewMeetingPointRequest where
  label : String
  location : String
  type : Option String
  meetAt : Option String
  stageReference : Option String
  latitude : Option ℚ
  longitude : Option ℚ
  recursDaily : Option Bool

def Store.createMeetingPoint (s : Store) (meetingPoint : CrewMeetingPoint) : Store :=
  { s with meetingPoints := meetingPoint :: s.meetingPoints }

def optimisticMp (clientId crewId : String) (request : CreateCrewMeetingPointRequest) (now : ℤ) :
    CrewMeetingPoint :=
  { id := clientId
    crewId := crewId
    createdBy := ""
    label := request.label
    location := request.location
    type := request.type.getD "custom"
    meetAt := request.meetAt
    stageReference := request.stageReference
    latitude := request.latitude
    longitude := request.longitude
    recursDaily := request.recursDaily.getD false
    active := true
    createdAt := now
    optimistic := true }

def Store.createMeetingPointOffline (s : Store) (clientId crewId : String)
    (request : CreateCrewMeetingPointRequest) (now : ℤ) : Store :=
  { s with meetingPoints := optimisticMp clientId crewId request now :: s.meetingPoints }

structure CreateCrewPackingItemRequest where
  label : String
  broughtBy : Option String
  claimed : Option Bool

def Store.createPackingItem (s : Store) (item : CrewPackingItem) : Store :=
  { s with packingItems := item :: s.packingItems }

def optimisticItem (clientId crewId : String) (request : CreateCrewPackingItemRequest) (now : ℤ) :
    CrewPackingItem :=
  { id := clientId
    crewId := crewId
    createdBy := ""
    label := request.label
    broughtBy := request.broughtBy
    claimed := request.claimed == some true
    createdAt := now
    optimistic := true }

def Store.createPackingItemOffline (s : Store) (clientId crewId : String)
    (request : CreateCrewPackingItemRequest) (now : ℤ) : Store :=
  { s with packingItems := optimisticItem clientId crewId request now :: s.packingItems }

structure CreateCrewRideOfferRequest where
  driver : Option String
  seats : Option ℤ
  departFrom : Option String
  departAt : Option String
  note : Option String

def Store.createRideOffer (s : Store) (offer : CrewRideOffer) : Store :=
  { s with rideOffers := offer :: s.rideOffers }

def optimisticOffer (clientId crewId : String) (request : CreateCrewRideOfferRequest) (now : ℤ) :
    CrewRideOffer :=
  { id := clientId
    crewId := crewId
    createdBy := ""
    driver := request.driver
    seats := request.seats
    departFrom := request.departFrom
    departAt := request.departAt
    note := request.note
    createdAt := now
    optimistic := true }

def Store.createRideOfferOffline (s : Store) (clientId crewId : String)
    (request : CreateCrewRideOfferRequest) (now : ℤ) : Store :=
  { s with rideOffers := optimisticOffer clientId crewId request now :: s.rideOffers }

structure CreateCrewExpenseRequest where
  description : String
  amount : ℚ
  splitWith : List String
  category : String
  planned : Option Bool

def optimisticExpense (clientId crewId : String) (request : CreateCrewExpenseRequest) (now : ℤ) :
    CrewExpense :=
  { id := clientId
    crewId := crewId
    paidBy := ""
    paidByName := ""
    description := request.description
    amount := request.amount
    splitWith := request.splitWith
    category := request.category
    planned := request.planned == some true
    createdAt := now
    optimistic := true }

/-- Online, `addExpense` loads the expenses instead. -/
def Store.addExpenseOffline (s : Store) (clientId crewId : String)
    (request : CreateCrewExpenseRequest) (now : ℤ) : Store :=
  { s with expenses := optimisticExpense clientId crewId request now :: s.expenses }

/-! ## Socket events and removals -/

def Store.applyPollCreated (s : Store) (poll : CrewPoll) : Store :=
  if present poll.id s.polls then s else { s with polls := poll :: s.polls }

def Store.applyMeetingPointUpsert (s : Store) (meetingPoint : CrewMeetingPoint) : Store :=
  { s with
    meetingPoints :=
      if present meetingPoint.id s.meetingPoints then
        s.meetingPoints.map (fun m => if m.id = meetingPoint.id then meetingPoint else m)
      else meetingPoint :: s.meetingPoints }

/-- `closePoll` when its request is through, and `applyPollClosed`. -/
def Store.applyPollClosed (s : Store) (pollId : String) : Store :=
  { s with polls := without pollId s.polls }

/-- `deleteMeetingPoint` and `applyMeetingPointRemoval` -/
def Store.applyMeetingPointRemoval (s : Store) (mpId : String) : Store :=
  { s with meetingPoints := without mpId s.meetingPoints }

def Store.deletePackingItem (s : Store) (itemId : String) : Store :=
  { s with packingItems := without itemId s.packingItems }

def Store.deleteRideOffer (s : Store) (offerId : String) : Store :=
  { s with rideOffers := without offerId s.rideOffers }

def Store.removeExpense (s : Store) (expenseId : String) : Store :=
  { s with expenses := without expenseId s.expenses }

def Store.leaveCrew (s : Store) (crewId : String) : Store :=
  { s with
    crews := without crewId s.crews
    activeCrew := if s.IsActive crewId then none else s.activeCrew
    crewMembers := if s.IsActive crewId then [] else s.crewMembers }

def Store.deleteCrew (s : Store) (crewId : String) : Store :=
  { s with
    crews := without crewId s.crews
    activeCrew := if s.IsActive crewId then none else s.activeCrew }

/-! ## The reconciler -/

/-- The real row takes the place of the placeholder, unless it is there already. -/
def replaceTemp (place : α → List α → List α) (clientId : String) (real : Option α) (l : List α) :
    List α :=
  if present clientId l then
    let withoutTemp := without clientId l
    match real with
    | some x => if present (Entry.id x) withoutTemp then withoutTemp else place x withoutTemp
    | none => withoutTemp
  else l

/-- Web replays with its own queue, which calls no reconciler. -/
inductive Platform where
  | native
  | web
  deriving DecidableEq

/-- What each branch of the reconciler reads in the server's response: the row, if it has an id. -/
structure ServerResponse where
  crew : Option Crew
  poll : Option CrewPoll
  meetingPoint : Option CrewMeetingPoint
  item : Option CrewPackingItem
  offer : Option CrewRideOffer

/-- The resources that the reconciler knows. -/
inductive Created where
  | crew
  | poll
  | meetingPoint
  | packingItem
  | rideOffer
  | expense
  deriving DecidableEq

/-- The branch for a `clientId`. -/
def createdOf (clientId : String) : Option Created :=
  if Js.includes "/crews/join" clientId then some .crew
  else if Js.includes "/polls" clientId then some .poll
  else if Js.includes "/meeting-points" clientId then some .meetingPoint
  else if Js.includes "/packing" clientId then some .packingItem
  else if Js.includes "/rides" clientId then some .rideOffer
  else if Js.includes "/expenses" clientId then some .expense
  else none

def Store.reconcileCrew (s : Store) (clientId : String) (crew : Option Crew) : Store :=
  { s with
    crews := replaceTemp (fun c l => l ++ [c]) clientId
      (crew.map fun c => { c with optimistic := false }) s.crews }

/-- The references of the placeholder are carried over. -/
def Store.reconcilePoll (s : Store) (clientId : String) (poll : Option CrewPoll) : Store :=
  let temp := s.polls.find? (fun p => p.id = clientId)
  { s with
    polls := replaceTemp List.cons clientId
      (poll.map fun p =>
        { p with optimistic := false, setRefs := temp.bind CrewPoll.setRefs <|> p.setRefs })
      s.polls }

def Store.reconcileMeetingPoint (s : Store) (clientId : String) (mp : Option CrewMeetingPoint) :
    Store :=
  { s with
    meetingPoints := replaceTemp List.cons clientId
      (mp.map fun m => { m with optimistic := false }) s.meetingPoints }

def Store.reconcilePackingItem (s : Store) (clientId : String) (item : Option CrewPackingItem) :
    Store :=
  { s with
    packingItems := replaceTemp List.cons clientId
      (item.map fun it => { it with optimistic := false }) s.packingItems }

def Store.reconcileRideOffer (s : Store) (clientId : String) (offer : Option CrewRideOffer) :
    Store :=
  { s with
    rideOffers := replaceTemp List.cons clientId
      (offer.map fun o => { o with optimistic := false }) s.rideOffers }

/-- The row is left to the next `loadExpenses`. -/
def Store.reconcileExpense (s : Store) (clientId : String) : Store :=
  { s with expenses := replaceTemp List.cons clientId none s.expenses }

def Store.reconcile (s : Store) (clientId : String) (res : ServerResponse) : Store :=
  match createdOf clientId with
  | some .crew => s.reconcileCrew clientId res.crew
  | some .poll => s.reconcilePoll clientId res.poll
  | some .meetingPoint => s.reconcileMeetingPoint clientId res.meetingPoint
  | some .packingItem => s.reconcilePackingItem clientId res.item
  | some .rideOffer => s.reconcileRideOffer clientId res.offer
  | some .expense => s.reconcileExpense clientId
  | none => s

/-! ## Votes and the winning set -/

/-- The vote of a user replaces the one before. -/
@[grind =] def castVote (pollId userId : String) (vote : Option CrewPollVote) (p : CrewPoll) : CrewPoll :=
  if p.id = pollId then
    { p with votes := p.votes.filter (fun v => v.userId ≠ some userId) ++ vote.toList }
  else p

def Store.applyPollVote (s : Store) (pollId userId : String) (optionIndex : ℤ) : Store :=
  { s with polls := s.polls.map (castVote pollId userId (some ⟨optionIndex, some userId⟩)) }

/-- The vote of the user before `votePoll`. -/
def Store.prevVote (s : Store) (pollId userId : String) : Option CrewPollVote :=
  (s.polls.find? (fun p => p.id = pollId)).bind
    (fun p => p.votes.find? (fun v => v.userId = some userId))

/-- What `votePoll` sets before its request, if there is a user. -/
def Store.votePoll (s : Store) (pollId : String) (userId : Option String) (optionIndex : ℤ) :
    Store :=
  match userId with
  | some user => s.begin.applyPollVote pollId user optionIndex
  | none => s.begin

/-- A rejected vote. -/
def Store.rollBackVote (s : Store) (pollId : String) (userId : Option String)
    (prevVote : Option CrewPollVote) (message : String) : Store :=
  match userId with
  | some user => { s with polls := s.polls.map (castVote pollId user prevVote) }.failed message
  | none => s.failed message

/-- A vote for an index that is no option does not count. -/
def countVote (counts : List ℕ) (v : CrewPollVote) : List ℕ :=
  if 0 ≤ v.option ∧ v.option < (counts.length : ℤ) then counts.modify v.option.toNat (· + 1)
  else counts

/-- The number of votes for each option. -/
def voteCounts (p : CrewPoll) : List ℕ :=
  p.votes.foldl countVote (List.replicate p.options.length 0)

/-- The loop over the counts from index `i`: the winner so far, and its votes. -/
def findWinner : List ℕ → ℕ → Option ℕ × ℕ → Option ℕ × ℕ
  | [], _, acc => acc
  | count :: counts, i, (winner, best) =>
      findWinner counts (i + 1) (if best < count then (some i, count) else (winner, best))

def resolveWinningSetRef (p : CrewPoll) : Option PollSetRef :=
  match p.setRefs with
  | none => none
  | some refs =>
      if refs.length = 0 then none
      else
        match (findWinner (voteCounts p) 0 (none, 0)).1 with
        | none => none
        | some winner => (refs[winner]?).join

/-- The request of the meeting point that `closePoll` makes of the winning set. -/
def meetingPointOf (ref : PollSetRef) : CreateCrewMeetingPointRequest :=
  { label := ref.label
    location := ref.stageReference.getD ""
    type := some "set"
    meetAt := ref.meetAt
    stageReference := ref.stageReference
    latitude := none
    longitude := none
    recursDaily := none }

/-- The meeting point that `closePoll` creates, once the poll is deleted. -/
def Store.closePollCreates (s : Store) (pollId : String) : Option CreateCrewMeetingPointRequest :=
  ((s.polls.find? (fun p => p.id = pollId)).bind resolveWinningSetRef).map meetingPointOf

/-- `MAX_CACHED_POLLS` -/
def maxCachedPolls : ℕ := 100

/-- The polls after a restart: `partialize` keeps the head of the list. -/
def Store.restartPolls (s : Store) : Store := { s with polls := s.polls.take maxCachedPolls }

/-! ## Statuses -/

structure Position where
  lat : ℚ
  lng : ℚ
  capturedAt : Option ℤ
  deriving DecidableEq

structure UpdateCrewMemberStatusRequest where
  status : Option Status
  targetMeetingPointId : Option String
  etaMinutes : Option ℚ
  note : Option String
  position : Option Position
  deriving DecidableEq

/-- The row of a member. -/
def statusOf (userId : String) (l : List CrewMemberStatus) : Option CrewMemberStatus :=
  l.find? (fun x => x.userId = userId)

/-- The optimistic row of an update; without a position the last one is kept. -/
def mergeStatus (crewId : String) (request : UpdateCrewMemberStatusRequest) (myUserId : String)
    (now : ℤ) (mine : Option CrewMemberStatus) : CrewMemberStatus :=
  { crewId := crewId
    userId := myUserId
    status := request.status
    targetMeetingPointId := request.targetMeetingPointId
    etaMinutes := request.etaMinutes
    note := request.note
    latitude :=
      match request.position with
      | some pos => some pos.lat
      | none => mine.bind CrewMemberStatus.latitude
    longitude :=
      match request.position with
      | some pos => some pos.lng
      | none => mine.bind CrewMemberStatus.longitude
    locationCapturedAt :=
      match request.position with
      | some pos => some (pos.capturedAt.getD now)
      | none => mine.bind CrewMemberStatus.locationCapturedAt
    updatedAt := some now
    username := mine.bind CrewMemberStatus.username
    name := mine.bind CrewMemberStatus.name
    avatarKey := mine.bind CrewMemberStatus.avatarKey
    avatarVersion := mine.bind CrewMemberStatus.avatarVersion
    optimistic := true }

/-- The row goes to the front, in place of the member's. -/
def putStatus (row : CrewMemberStatus) (l : List CrewMemberStatus) : List CrewMemberStatus :=
  row :: without row.userId l

/-- What `updateMyStatus` sets before its request. -/
def Store.updateMyStatus (s : Store) (crewId : String) (request : UpdateCrewMemberStatusRequest)
    (myUserId : String) (now : ℤ) : Store :=
  { s with
    error := none
    crewStatuses := putStatus
      (mergeStatus crewId request myUserId now (statusOf myUserId s.crewStatuses))
      s.crewStatuses }

/-- The row of the server, after an update or from an event. -/
def Store.putServerStatus (s : Store) (status : CrewMemberStatus) : Store :=
  { s with crewStatuses := putStatus { status with optimistic := false } s.crewStatuses }

/-- A rejected update; `prevMine` is the row that it replaced. -/
def Store.rollBackStatus (s : Store) (myUserId : String) (prevMine : Option CrewMemberStatus)
    (message : String) : Store :=
  { s with
    error := some message
    crewStatuses :=
      match prevMine with
      | some row => row :: without myUserId s.crewStatuses
      | none => without myUserId s.crewStatuses }

/-- Is the row that is held newer than the one that comes in? -/
def isStale (existing incoming : CrewMemberStatus) : Bool :=
  match existing.updatedAt, incoming.updatedAt with
  | some existingMs, some incomingMs => incomingMs < existingMs
  | _, _ => false

def Store.applyStatusUpdate (s : Store) (status : CrewMemberStatus) : Store :=
  match statusOf status.userId s.crewStatuses with
  | some existing => if isStale existing status then s else s.putServerStatus status
  | none => s.putServerStatus status

/-! ### The row of a member -/

theorem statusOf_own {userId : String} {l : List CrewMemberStatus} :
    ∀ row, statusOf userId l = some row → row.userId = userId :=
  fun _ h => by simpa using List.find?_some h

theorem statusOf_cons (userId : String) (row : CrewMemberStatus) (l : List CrewMemberStatus) :
    statusOf userId (row :: l) = if row.userId = userId then some row else statusOf userId l :=
  lookup_cons userId row l

theorem statusOf_without (userId other : String) (l : List CrewMemberStatus) :
    statusOf userId (without other l) = if other = userId then none else statusOf userId l :=
  lookup_erase userId other l

theorem statusOf_putStatus (userId : String) (row : CrewMemberStatus) (l : List CrewMemberStatus) :
    statusOf userId (putStatus row l)
      = if row.userId = userId then some row else statusOf userId l := by
  rw [putStatus, statusOf_cons, statusOf_without]
  by_cases h : row.userId = userId
  · rw [if_pos h, if_pos h]
  · rw [if_neg h, if_neg h, if_neg h]

/-- The row of a member takes the place of the one before. -/
theorem uniqueKeys_putStatus {l : List CrewMemberStatus} (h : UniqueKeys Entry.id l)
    (row : CrewMemberStatus) : UniqueKeys Entry.id (putStatus row l) :=
  uniqueKeys_cons.mpr ⟨fun _ hy => (mem_erase.mp hy).2, h.erase _⟩

end FestivalPlanner.CrewStore
