import Mathlib.Data.Rat.Defs
import Mathlib.Data.List.Infix
import FestivalPlanner.Lib.Keyed
import FestivalPlanner.Lib.Machine

/-!
# A crew and its expenses

The members of a crew and the expenses they share, and the routes that change them:
`routes/expenses.ts`, `routes/crew-members.ts` and the join of `routes/crew-invites.ts`.

* `Members` — the rows of `crew_members`, under their primary key;
* `Expense`, `StoredExpense` — a row of `crew_expenses`, and what the schemas and the
  column guarantee of one;
* `Crew` — what the database holds of the crew;
* `route` — what each route answers: the new state, or the refusal it sends;
* `step` — the machine of the accepted requests.

The texts of an expense (description, category) and the other crews of a member are not
modelled: no balance reads them.
-/

namespace FestivalPlanner.Ledger

open List Keyed

/-! ## Members -/

/-- `crew_members.role`. -/
inductive Role where
  | owner | member
  deriving DecidableEq, Repr

/-- A row of `crew_members`, with the name of the user. -/
structure Member where
  userId : String
  username : String
  role : Role

/-- The members of the crew; `(crew_id, user_id)` is the primary key. -/
structure Members where
  rows : List Member
  unique : UniqueKeys Member.userId rows

namespace Members

variable (ms : Members) (userId : String)

/-- `getMember`. -/
def get : Option Member := lookup Member.userId userId ms.rows

/-- `addMember`, for a user who is not a member. -/
def add (m : Member) (h : ms.get m.userId = none) : Members where
  rows := ms.rows ++ [m]
  unique := by
    have hnew : m.userId ∉ ms.rows.map Member.userId := by
      intro hmem
      obtain ⟨z, hz, hk⟩ := mem_map.mp hmem
      exact lookup_eq_none.mp h z hz hk
    have hold : (ms.rows.map Member.userId).Nodup := ms.unique
    rw [UniqueKeys, map_append, nodup_append']
    refine ⟨hold, nodup_singleton _, ?_⟩
    simpa using hnew

/-- `removeMember`. -/
@[grind =] def remove : Members where
  rows := erase Member.userId userId ms.rows
  unique := ms.unique.erase userId

/-- `updateMemberRole`. -/
def setRole (role : Role) : Members where
  rows := ms.rows.map (fun m => if m.userId = userId then { m with role := role } else m)
  unique := by
    refine UniqueKeys.of_map_eq ?_ ms.unique
    rw [map_map]
    refine map_congr_left fun m _ => ?_
    show (if m.userId = userId then { m with role := role } else m).userId = m.userId
    split <;> rfl

end Members

/-! ## Expenses -/

/-- A row of `crew_expenses`, the amount in cents. -/
structure Expense where
  id : ℕ
  paidBy : String
  amountCents : ℤ
  /-- The members who share it; empty means the whole crew. -/
  splitWith : List String
  /-- A forecast, not real money. -/
  planned : Bool

/-- A row as the routes store it: the column takes positive amounts only, and the schemas
ask for at least one member to share. -/
structure StoredExpense extends Expense where
  positive : 0 < amountCents
  shared : splitWith ≠ []

/-- The amount of a request: the number it carries, and the cents
`Math.round(amount * 100)` makes of it. -/
structure Amount where
  value : ℚ
  cents : ℤ

/-- The column is a `NUMERIC(10,2)`: eight digits before the point. -/
def columnLimit : ℤ := 10000000000

/-- `expenses.create`: the column refuses an amount that is not positive or too large. -/
def create (id : ℕ) (paidBy : String) (amount : Amount) (splitWith : List String)
    (planned : Bool) (hsplit : splitWith ≠ []) : Option StoredExpense :=
  if h : 0 < amount.cents ∧ amount.cents < columnLimit then
    some ⟨⟨id, paidBy, amount.cents, splitWith, planned⟩, h.1, hsplit⟩
  else none

/-! ## The crew -/

/-- What the database holds of the crew. -/
structure Crew where
  members : Members
  /-- The users with a `deleted_at`. -/
  deletedUsers : List String
  maxMembers : ℕ
  expenses : List StoredExpense
  nextId : ℕ

/-- `createWithOwner`. -/
def createWithOwner (userId username : String) (maxMembers : ℕ) : Crew where
  members := ⟨[⟨userId, username, .owner⟩], nodup_singleton _⟩
  deletedUsers := []
  maxMembers := maxMembers
  expenses := []
  nextId := 0

/-- `getMembers`: the members whose account is not deleted. -/
def Crew.getMembers (s : Crew) : List Member :=
  s.members.rows.filter (fun m => decide (m.userId ∉ s.deletedUsers))

/-- Their ids. -/
def Crew.memberIds (s : Crew) : List String := s.getMembers.map Member.userId

/-! ## The routes -/

/-- The codes of the refusals. -/
inductive ErrorCode where
  | validationError | invalidInput | notFound | forbidden | alreadyExists | maxLimitReached
  | conflict | internalError
  deriving DecidableEq, Repr

/-- What a route answers instead of the new state. -/
inductive Refusal where
  /-- The body does not parse: the first field that fails. -/
  | validation (field : String)
  | error (status : ℕ) (message : String) (code : ErrorCode)

/-- A request to one of the routes; `caller` is the authenticated user. -/
inductive Action where
  /-- `POST /crews/join`, and the admin's `POST /:crewId/members`. -/
  | join (userId username : String)
  /-- `DELETE /:crewId/leave`. -/
  | leave (caller : String)
  /-- `DELETE /:crewId/members/:userId`. -/
  | kick (caller target : String)
  /-- `PUT /:crewId/transfer`. -/
  | transfer (caller target : String)
  /-- The account of a user is deleted. -/
  | deleteUser (userId : String)
  /-- `POST /crews/:crewId/expenses`. -/
  | addExpense (caller : String) (amount : Amount) (splitWith : List String) (planned : Bool)
  /-- `DELETE /crews/:crewId/expenses/:expenseId`. -/
  | deleteExpense (caller : String) (expenseId : ℕ)
  /-- `POST /crews/:crewId/expenses/settle`. -/
  | settle (caller toUserId : String) (amount : Amount)

/-- Is the user an owner of the crew? -/
def Crew.isOwner (s : Crew) (userId : String) : Bool :=
  match s.members.get userId with
  | some m => decide (m.role = .owner)
  | none => false

/-- `addMember` behind the checks of the routes. -/
def joinRoute (s : Crew) (userId username : String) : Except Refusal Crew :=
  if h : s.members.get userId = none then
    if s.maxMembers ≤ s.members.rows.length then
      .error (.error 400 "Crew is full" .maxLimitReached)
    else .ok { s with members := s.members.add ⟨userId, username, .member⟩ h }
  else .error (.error 400 "Already a member of this crew" .alreadyExists)

/-- Leave the crew. -/
def leaveRoute (s : Crew) (caller : String) : Except Refusal Crew :=
  if s.members.get caller = none then
    .error (.error 400 "Not a member of this crew" .invalidInput)
  else if s.isOwner caller then
    .error (.error 400 "Transfer ownership before leaving" .forbidden)
  else .ok { s with members := s.members.remove caller }

/-- Kick a member. -/
def kickRoute (s : Crew) (caller target : String) : Except Refusal Crew :=
  if s.isOwner caller = false then
    .error (.error 403 "Only the crew owner can kick members" .forbidden)
  else if target = caller then .error (.error 400 "Cannot kick yourself" .invalidInput)
  else if s.members.get target = none then .error (.error 404 "Member not found" .notFound)
  else .ok { s with members := s.members.remove target }

/-- Transfer ownership. -/
def transferRoute (s : Crew) (caller target : String) : Except Refusal Crew :=
  if s.isOwner caller = false then
    .error (.error 403 "Only the crew owner can transfer" .forbidden)
  else if target = caller then .error (.error 400 "Already the owner" .invalidInput)
  else if s.members.get target = none then
    .error (.error 404 "Target is not a crew member" .notFound)
  else .ok { s with members := (s.members.setRole caller .member).setRole target .owner }

/-- Store an expense; a refusal of the database is a failure of the route. -/
def storeExpense (s : Crew) (expense : Option StoredExpense) (failure : String) :
    Except Refusal Crew :=
  match expense with
  | some e => .ok { s with expenses := s.expenses ++ [e], nextId := s.nextId + 1 }
  | none => .error (.error 500 failure .internalError)

/-- Add an expense: every split target must be a current member, with no duplicates. -/
def addExpenseRoute (s : Crew) (caller : String) (amount : Amount) (splitWith : List String)
    (planned : Bool) : Except Refusal Crew :=
  if amount.value ≤ 0 then .error (.validation "amount")
  else if h : splitWith = [] then .error (.validation "splitWith")
  else if "" ∈ splitWith then .error (.validation ("splitWith." ++ toString (splitWith.idxOf "")))
  else if s.members.get caller = none then .error (.error 403 "Not a crew member" .forbidden)
  else if ¬splitWith.Nodup then
    .error (.error 400 "splitWith contains duplicate users" .invalidInput)
  else if ∃ id ∈ splitWith, id ∉ s.memberIds then
    .error (.error 400 "splitWith includes users who are not crew members" .invalidInput)
  else storeExpense s (create s.nextId caller amount splitWith planned h) "Failed to create expense"

/-- Delete an expense: only its payer can. -/
def deleteExpenseRoute (s : Crew) (caller : String) (expenseId : ℕ) : Except Refusal Crew :=
  if s.members.get caller = none then .error (.error 403 "Not a crew member" .forbidden)
  else
    match s.expenses.find? (fun e => e.id = expenseId) with
    | none => .error (.error 404 "Expense not found" .notFound)
    | some e =>
        if e.paidBy ≠ caller then .error (.error 403 "Only the payer can delete" .forbidden)
        else .ok { s with expenses := s.expenses.filter (fun e => e.id ≠ expenseId) }

/-- Record a settlement: an expense the caller pays and the target alone shares. -/
def settleRoute (s : Crew) (caller toUserId : String) (amount : Amount) : Except Refusal Crew :=
  if toUserId = "" then .error (.validation "toUserId")
  else if amount.value ≤ 0 then .error (.validation "amount")
  else if s.members.get caller = none then .error (.error 403 "Not a crew member" .forbidden)
  else if toUserId = caller then .error (.error 400 "Cannot settle with yourself" .invalidInput)
  else if toUserId ∉ s.memberIds then
    .error (.error 400 "Settlement target is not a crew member" .invalidInput)
  else
    storeExpense s (create s.nextId caller amount [toUserId] false (cons_ne_nil _ _))
      "Failed to record settlement"

/-- What the routes answer. -/
def route (s : Crew) : Action → Except Refusal Crew
  | .join userId username => joinRoute s userId username
  | .leave caller => leaveRoute s caller
  | .kick caller target => kickRoute s caller target
  | .transfer caller target => transferRoute s caller target
  | .deleteUser userId => .ok { s with deletedUsers := userId :: s.deletedUsers }
  | .addExpense caller amount splitWith planned => addExpenseRoute s caller amount splitWith planned
  | .deleteExpense caller expenseId => deleteExpenseRoute s caller expenseId
  | .settle caller toUserId amount => settleRoute s caller toUserId amount

/-- One accepted request. -/
def step (s : Crew) (a : Action) : Option Crew := (route s a).toOption

/-! ## Spec lemmas -/

theorem Crew.nodup_memberIds (s : Crew) : s.memberIds.Nodup :=
  List.Nodup.sublist (filter_sublist.map Member.userId) s.members.unique

/-- What an accepted settlement stores. -/
theorem settleRoute_eq_ok {s t : Crew} {caller toUserId : String} {amount : Amount}
    (h : settleRoute s caller toUserId amount = .ok t) :
    toUserId ≠ caller ∧ toUserId ∈ s.memberIds ∧ ∃ e : StoredExpense,
      e.toExpense = ⟨s.nextId, caller, amount.cents, [toUserId], false⟩ ∧
        t = { s with expenses := s.expenses ++ [e], nextId := s.nextId + 1 } := by
  unfold settleRoute at h
  split_ifs at h with _ _ _ hself hmember
  refine ⟨hself, hmember, ?_⟩
  unfold storeExpense at h
  split at h
  · rename_i e he
    refine ⟨e, ?_, (Except.ok.inj h).symm⟩
    unfold create at he
    split_ifs at he
    exact Option.some.inj he ▸ rfl
  · cases h

/-- What the step of an accepted settlement stores. -/
theorem step_settle {s t : Crew} {caller toUserId : String} {amount : Amount}
    (h : step s (.settle caller toUserId amount) = some t) :
    toUserId ≠ caller ∧ toUserId ∈ s.memberIds ∧ ∃ e : StoredExpense,
      e.toExpense = ⟨s.nextId, caller, amount.cents, [toUserId], false⟩ ∧
        t = { s with expenses := s.expenses ++ [e], nextId := s.nextId + 1 } := by
  refine settleRoute_eq_ok ?_
  have h : (settleRoute s caller toUserId amount).toOption = some t := h
  cases hr : settleRoute s caller toUserId amount with
  | error r =>
    rw [hr] at h
    cases h
  | ok c =>
    rw [hr] at h
    exact congrArg _ (Option.some.inj h)

end FestivalPlanner.Ledger
