import FestivalPlanner.Ledger.Crew

/-!
# Crews and their rosters

Every crew of the database with its members, and the routes and stores that change who is
in it: `routes/crews.ts`, `routes/crew-members.ts`, `routes/crew-invites.ts`,
`routes/admin-bulk.ts` and `users.hardDelete`.

* `Crew` — a row of `crews` with its rows of `crew_members`, which go with it;
* `Db` — the tables these routes read;
* `Action`, `route` — the requests, and what each answers;
* `step` — the machine of the accepted requests.

Who owns a crew is said twice: by `createdBy` and by the role of a member.
-/

namespace FestivalPlanner.Crews

open List Keyed

open Ledger (Member Members Refusal)

/-! ## Tables -/

/-- A row of `users`, with the roles that matter here. -/
structure User where
  id : String
  username : String
  /-- `deleted_at` is set. -/
  deleted : Bool
  admin : Bool

/-- A row of `festival_profiles` that is not deleted. -/
structure Profile where
  userId : String
  festivalId : String
  deriving DecidableEq

/-- A row of `crews`, with its rows of `crew_members`. -/
structure Crew where
  id : String
  festivalId : String
  createdBy : String
  inviteCode : String
  inviteExpiresAt : ℕ
  maxMembers : ℕ
  reformedFrom : Option String
  members : Members

/-- What the routes read and write. -/
structure Db where
  users : List User
  /-- The festivals without a `deleted_at`. -/
  festivals : List String
  profiles : List Profile
  crews : List Crew
  unique : UniqueKeys Crew.id crews

namespace Db

variable (s : Db)

/-- The user with this id. -/
def user (userId : String) : Option User := lookup User.id userId s.users

/-- Is the account deleted, for good or for now? -/
def isDeleted (userId : String) : Bool :=
  match s.user userId with
  | some u => u.deleted
  | none => true

/-- `hasRole(userId, 'admin')`. -/
def isAdmin (userId : String) : Bool :=
  match s.user userId with
  | some u => u.admin
  | none => false

/-- The name a membership row is shown with. -/
def username (userId : String) : String :=
  match s.user userId with
  | some u => u.username
  | none => ""

/-- `crews.getById`. -/
def getById (crewId : String) : Option Crew := lookup Crew.id crewId s.crews

/-- `crews.getByInviteCode`: codes that have not expired. -/
def getByInviteCode (code : String) (now : ℕ) : Option Crew :=
  s.crews.find? (fun c => c.inviteCode = code ∧ now < c.inviteExpiresAt)

/-- `crews.getMembers`: the members whose account is not deleted. -/
def getMembers (c : Crew) : List Member :=
  c.members.rows.filter (fun m => !s.isDeleted m.userId)

/-- `crews.listByUserAndFestival`. -/
def listByUserAndFestival (userId festivalId : String) : List Crew :=
  s.crews.filter (fun c => (c.members.get userId).isSome && decide (c.festivalId = festivalId))

/-- Two crews that `crews_reform_idem_uidx` does not allow side by side. -/
def sameReform (c d : Crew) : Bool :=
  decide (c.createdBy = d.createdBy ∧ c.festivalId = d.festivalId ∧
    c.reformedFrom = d.reformedFrom ∧ c.reformedFrom.isSome = true)

/-- `INSERT INTO crews`: refused by the primary key, by the unique invite code, by the
index on reforms and by the reference to the user. -/
def insertCrew (c : Crew) : Option Db :=
  if h : s.getById c.id = none then
    if s.crews.any (fun d => decide (d.inviteCode = c.inviteCode) || sameReform c d) then none
    else if s.user c.createdBy = none then none
    else some
      { s with
        crews := s.crews ++ [c]
        unique := by
          have hnew : c.id ∉ s.crews.map Crew.id := by
            intro hmem
            obtain ⟨d, hd, hid⟩ := mem_map.mp hmem
            exact lookup_eq_none.mp h d hd hid
          have hold : (s.crews.map Crew.id).Nodup := s.unique
          rw [UniqueKeys, map_append, nodup_append']
          refine ⟨hold, nodup_singleton _, ?_⟩
          simpa using hnew }
  else none

/-- Change one crew, but not its id. -/
def modifyCrew (crewId : String) (f : Crew → Crew) (hf : ∀ c, (f c).id = c.id) : Db :=
  { s with
    crews := modify Crew.id crewId f s.crews
    unique := UniqueKeys.of_map_eq (map_key_modify hf s.crews) s.unique }

/-- Change every crew, but not the ids. -/
def mapCrews (f : Crew → Crew) (hf : ∀ c, (f c).id = c.id) : Db :=
  { s with
    crews := s.crews.map f
    unique := by
      refine UniqueKeys.of_map_eq ?_ s.unique
      rw [map_map]
      exact map_congr_left fun c _ => hf c }

/-- Change the members of one crew. -/
def setMembers (crewId : String) (members : Members) : Db :=
  s.modifyCrew crewId (fun c => { c with members := members }) fun _ => rfl

/-- `DELETE FROM crews`: the members go with the crew, and the crews reformed from it
forget it. -/
def deleteCrew (crewId : String) : Db :=
  let s := s.mapCrews
    (fun c => { c with reformedFrom := if c.reformedFrom = some crewId then none else c.reformedFrom })
    fun _ => rfl
  { s with crews := erase Crew.id crewId s.crews, unique := s.unique.erase crewId }

end Db

/-! ## Joining and leaving -/

/-- `MAX_CREWS_PER_USER_PER_FESTIVAL`. -/
def maxCrewsPerUserPerFestival : ℕ := 3

/-- A row of `crew_members` for a user who exists; `none` when there is one already. -/
def addMember (s : Db) (members : Members) (userId : String) (role : Ledger.Role) :
    Option Members :=
  if h : members.get userId = none then
    if s.user userId = none then none
    else some (members.add ⟨userId, s.username userId, role⟩ h)
  else none

/-- `resolveCrewOwnership`. -/
def resolveCrewOwnership (s : Db) (crewId caller actionLabel : String) : Except Refusal Crew :=
  match s.getById crewId with
  | none => .error (.error 404 "Crew not found" .notFound)
  | some crew =>
      match crew.members.get caller with
      | some m =>
          if m.role = .owner then .ok crew
          else .error (.error 403 ("Only the crew owner can " ++ actionLabel) .forbidden)
      | none => .error (.error 403 ("Only the crew owner can " ++ actionLabel) .forbidden)

/-- `addMember` with the member cap, behind the checks of both routes that call it. -/
def addToCrew (s : Db) (crew : Crew) (userId failure : String) : Except Refusal Db :=
  if (crew.members.get userId).isSome = true then
    .error (.error 400 "Already a member of this crew" .alreadyExists)
  else if crew.maxMembers ≤ crew.members.rows.length then
    .error (.error 400 "Crew is full" .maxLimitReached)
  else
    match addMember s crew.members userId .member with
    | some members => .ok (s.setMembers crew.id members)
    | none => .error (.error 500 failure .internalError)

/-- Join a crew by its invite code. -/
def joinRoute (s : Db) (caller code : String) (now : ℕ) : Except Refusal Db :=
  match s.getByInviteCode code now with
  | none =>
      if s.crews.any (fun c => decide (c.inviteCode = code)) then
        .error (.error 410 "Invite code has expired. Ask the crew owner to regenerate it." .notFound)
      else .error (.error 404 "Invalid invite code" .notFound)
  | some crew =>
      if ⟨caller, crew.festivalId⟩ ∉ s.profiles then
        .error (.error 403 "Join the festival first" .forbidden)
      else if (crew.members.get caller).isSome = false ∧
          maxCrewsPerUserPerFestival ≤ (s.listByUserAndFestival caller crew.festivalId).length then
        .error (.error 400 "Maximum 3 crews per festival" .maxLimitReached)
      else addToCrew s crew caller "Failed to join crew"

/-- An admin adds a user. -/
def adminAddRoute (s : Db) (actor crewId userId : String) : Except Refusal Db :=
  if s.isAdmin actor = false then .error (.error 403 "Admin access required" .forbidden)
  else
    match s.getById crewId with
    | none => .error (.error 404 "Crew not found" .notFound)
    | some crew =>
        if s.isDeleted userId = true then .error (.error 404 "User not found" .notFound)
        else addToCrew s crew userId "Failed to add member"

/-- Leave a crew; its owner cannot. -/
def leaveRoute (s : Db) (caller crewId : String) : Except Refusal Db :=
  match s.getById crewId with
  | none => .error (.error 404 "Crew not found" .notFound)
  | some crew =>
      match crew.members.get caller with
      | none => .error (.error 400 "Not a member of this crew" .invalidInput)
      | some m =>
          if m.role = .owner then
            .error (.error 400 "Transfer ownership before leaving" .forbidden)
          else .ok (s.setMembers crew.id (crew.members.remove caller))

/-- The owner removes a member. -/
def kickRoute (s : Db) (caller crewId target : String) : Except Refusal Db :=
  match resolveCrewOwnership s crewId caller "kick members" with
  | .error r => .error r
  | .ok crew =>
      if target = caller then .error (.error 400 "Cannot kick yourself" .invalidInput)
      else if crew.members.get target = none then
        .error (.error 404 "Member not found" .notFound)
      else .ok (s.setMembers crew.id (crew.members.remove target))

/-- An admin removes a member, whoever it is. -/
def adminRemoveRoute (s : Db) (actor crewId target : String) : Except Refusal Db :=
  if s.isAdmin actor = false then .error (.error 403 "Admin access required" .forbidden)
  else
    match s.getById crewId with
    | none => .error (.error 404 "Member not found" .notFound)
    | some crew =>
        if crew.members.get target = none then
          .error (.error 404 "Member not found" .notFound)
        else .ok (s.setMembers crew.id (crew.members.remove target))

/-- `transferOwnership`: demote the owner, promote the target. -/
def transferOwnership (members : Members) (fromUserId toUserId : String) : Members :=
  (members.setRole fromUserId .member).setRole toUserId .owner

/-- Transfer ownership. -/
def transferRoute (s : Db) (caller crewId target : String) : Except Refusal Db :=
  match resolveCrewOwnership s crewId caller "transfer" with
  | .error r => .error r
  | .ok crew =>
      if target = caller then .error (.error 400 "Already the owner" .invalidInput)
      else if crew.members.get target = none then
        .error (.error 404 "Target is not a crew member" .notFound)
      else .ok (s.setMembers crew.id (transferOwnership crew.members caller target))

/-! ## Creating, reforming and deleting crews -/

/-- What a request chooses for the crew it creates. -/
structure NewCrew where
  id : String
  inviteCode : String
  inviteExpiresAt : ℕ

/-- `persistCrew`: the crew with its creator as the owner. -/
def persistCrew (s : Db) (new : NewCrew) (festivalId createdBy : String) (maxMembers : ℕ)
    (reformedFrom : Option String) : Option Db :=
  s.insertCrew
    { id := new.id
      festivalId := festivalId
      createdBy := createdBy
      inviteCode := new.inviteCode
      inviteExpiresAt := new.inviteExpiresAt
      maxMembers := maxMembers
      reformedFrom := reformedFrom
      members := ⟨[⟨createdBy, s.username createdBy, .owner⟩], nodup_singleton _⟩ }

/-- Create a crew. -/
def createRoute (s : Db) (caller festivalId : String) (new : NewCrew) : Except Refusal Db :=
  if festivalId ∉ s.festivals then .error (.error 404 "Festival not found" .notFound)
  else if ⟨caller, festivalId⟩ ∉ s.profiles then
    .error (.error 403 "Join the festival first" .forbidden)
  else if maxCrewsPerUserPerFestival ≤ (s.listByUserAndFestival caller festivalId).length then
    .error (.error 400 "Maximum 3 crews per festival" .maxLimitReached)
  else
    match persistCrew s new festivalId caller 30 none with
    | some s => .ok s
    | none => .error (.error 500 "Failed to create crew" .internalError)

/-- `planReformRoster`: the prior members to add, those with a profile in the target
festival who are not in the new crew yet. -/
def toAutoAdd (s : Db) (source : Crew) (caller targetFestivalId : String) (existing : List String) :
    List String :=
  ((s.getMembers source).map Member.userId).eraseDups.filter fun uid =>
    decide (uid ≠ "" ∧ uid ≠ caller ∧ uid ∉ existing ∧ ⟨uid, targetFestivalId⟩ ∈ s.profiles)

/-- The loop over the members to add: a row that is refused is skipped and takes no slot. -/
def autoAdd (s : Db) : List String → ℤ → Members → Members
  | [], _, members => members
  | uid :: rest, slots, members =>
      if slots ≤ 0 then members
      else
        match addMember s members uid .member with
        | some members => autoAdd s rest (slots - 1) members
        | none => autoAdd s rest slots members

/-- Bring the roster of `source` into the new crew. -/
def fillRoster (s : Db) (source newCrew : Crew) (caller targetFestivalId : String) : Db :=
  let existing := (s.getMembers newCrew).map Member.userId
  let memberCap : ℕ := if newCrew.maxMembers = 0 then 30 else newCrew.maxMembers
  s.setMembers newCrew.id
    (autoAdd s (toAutoAdd s source caller targetFestivalId existing)
      ((memberCap : ℤ) - existing.length) newCrew.members)

/-- Reform a crew for another festival: the crew the caller already reformed there, or a
new one. -/
def reformRoute (s : Db) (caller sourceCrewId targetFestivalId : String) (new : NewCrew) :
    Except Refusal Db :=
  match s.getById sourceCrewId with
  | none => .error (.error 404 "Crew not found" .notFound)
  | some source =>
      if source.members.get caller = none then
        .error (.error 403 "Not a member of this crew" .forbidden)
      else if targetFestivalId ∉ s.festivals then
        .error (.error 404 "Festival not found" .notFound)
      else if ⟨caller, targetFestivalId⟩ ∉ s.profiles then
        .error (.error 403 "Join the festival first" .forbidden)
      else
        let requesterTargetCrews := s.listByUserAndFestival caller targetFestivalId
        match requesterTargetCrews.find? (fun c =>
            decide (c.reformedFrom = some sourceCrewId ∧ c.createdBy = caller)) with
        | some newCrew => .ok (fillRoster s source newCrew caller targetFestivalId)
        | none =>
            if maxCrewsPerUserPerFestival ≤ requesterTargetCrews.length then
              .error (.error 400 "Maximum 3 crews per festival" .maxLimitReached)
            else
              match persistCrew s new targetFestivalId caller
                  (if source.maxMembers = 0 then 30 else source.maxMembers) (some sourceCrewId) with
              | none => .error (.error 500 "Failed to reform crew" .internalError)
              | some s =>
                  match s.getById new.id with
                  | none => .error (.error 500 "Failed to reform crew" .internalError)
                  | some newCrew => .ok (fillRoster s source newCrew caller targetFestivalId)

/-- The owner deletes the crew. -/
def deleteRoute (s : Db) (caller crewId : String) : Except Refusal Db :=
  match resolveCrewOwnership s crewId caller "delete" with
  | .error r => .error r
  | .ok crew => .ok (s.deleteCrew crew.id)

/-! ## Deleting an account -/

/-- A crew of the deleted user: its longest-standing member takes it over, or it goes. -/
def passOn (s : Db) (crewId : String) : Option Db :=
  match s.getById crewId with
  | none => some s
  | some crew =>
      match crew.members.rows with
      | [] => some (s.deleteCrew crewId)
      | heir :: _ =>
          let owned : Crew := { crew with
            createdBy := heir.userId
            members := crew.members.setRole heir.userId .owner }
          -- The index on reforms may refuse the new owner.
          if s.crews.any (fun d => decide (d.id ≠ crewId) && Db.sameReform owned d) then none
          else some (s.modifyCrew crewId
            (fun c => { c with createdBy := owned.createdBy, members := owned.members }) fun _ => rfl)

/-- Pass on the crews one after the other. -/
def passOnAll (s : Db) : List String → Option Db
  | [] => some s
  | crewId :: rest =>
      match passOn s crewId with
      | none => none
      | some s => passOnAll s rest

/-- `users.hardDelete`: the profiles and memberships, then the crews the user created, then
the user. -/
def hardDelete (s : Db) (userId : String) : Option Db :=
  let s := s.mapCrews (fun c => { c with members := c.members.remove userId }) fun _ => rfl
  match passOnAll s ((s.crews.filter (fun c => decide (c.createdBy = userId))).map Crew.id) with
  | none => none
  | some s => some
      { s with
        users := erase User.id userId s.users
        profiles := s.profiles.filter (fun p => decide (p.userId ≠ userId)) }

/-- An admin deletes an account for good. -/
def hardDeleteRoute (s : Db) (actor target : String) : Except Refusal Db :=
  if s.isAdmin actor = false then .error (.error 403 "Admin access required" .forbidden)
  else if target = actor then
    .error (.error 400 "Cannot delete your own account" .invalidInput)
  else if s.isDeleted target = true then .error (.error 404 "User not found" .notFound)
  else
    match hardDelete s target with
    | some s => .ok s
    | none => .error (.error 500 "Failed to delete user" .internalError)

/-! ## The machine -/

/-- A request; `caller` is the authenticated user, `actor` the authenticated admin. -/
inductive Action where
  /-- The tables as the other routes leave them. -/
  | setUsers (users : List User)
  | setFestivals (festivals : List String)
  | setProfiles (profiles : List Profile)
  | create (caller festivalId : String) (new : NewCrew)
  | reform (caller sourceCrewId targetFestivalId : String) (new : NewCrew)
  | join (caller code : String) (now : ℕ)
  | adminAdd (actor crewId userId : String)
  | leave (caller crewId : String)
  | kick (caller crewId target : String)
  | adminRemove (actor crewId target : String)
  | transfer (caller crewId target : String)
  | delete (caller crewId : String)
  | hardDelete (actor target : String)

/-- What the routes answer. -/
def route (s : Db) : Action → Except Refusal Db
  | .setUsers users => .ok { s with users := users }
  | .setFestivals festivals => .ok { s with festivals := festivals }
  | .setProfiles profiles => .ok { s with profiles := profiles }
  | .create caller festivalId new => createRoute s caller festivalId new
  | .reform caller sourceCrewId targetFestivalId new =>
      reformRoute s caller sourceCrewId targetFestivalId new
  | .join caller code now => joinRoute s caller code now
  | .adminAdd actor crewId userId => adminAddRoute s actor crewId userId
  | .leave caller crewId => leaveRoute s caller crewId
  | .kick caller crewId target => kickRoute s caller crewId target
  | .adminRemove actor crewId target => adminRemoveRoute s actor crewId target
  | .transfer caller crewId target => transferRoute s caller crewId target
  | .delete caller crewId => deleteRoute s caller crewId
  | .hardDelete actor target => hardDeleteRoute s actor target

/-- One accepted request. -/
def step (s : Db) (a : Action) : Option Db := (route s a).toOption

/-- No crews yet. -/
def Db.empty : Db := ⟨[], [], [], [], nodup_nil⟩

end FestivalPlanner.Crews
