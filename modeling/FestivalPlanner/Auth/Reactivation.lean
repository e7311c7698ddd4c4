import FestivalPlanner.Auth.Lockout
import FestivalPlanner.Auth.Sessions
import FestivalPlanner.Lib.Js
import FestivalPlanner.Lineup.Profiles

/-!
# Deleting an account and logging in again

`DELETE /account` of `routes/account.ts` and `POST /login` of `routes/auth.ts`, over
`lib/db/stores/users.ts` and `deleteByUserId` of `profiles.ts`.

* `Account`, `Db` — the rows of `users` next to the sessions and the profiles;
* `deleteAccount`, `login` — the two requests;
* `Reactivates` — what the answer to the deletion promises for the next 30 days;
* `never_reactivates` — no login ever does it: what is deleted is not found again, and the
  statement that would bring it back only changes accounts that are not deleted.

A request is executed as a whole here.  The tables of the crews are not touched by either.
-/

namespace FestivalPlanner.Auth.Reactivation

/-! ## Tables -/

/-- A row of `users`. -/
structure Account extends User where
  username : String
  deletedAt : Option ℕ
  deriving DecidableEq

/-- A row of `device_tokens`. -/
structure DeviceToken where
  token : String
  userId : String
  deriving DecidableEq

/-- The tables, and the next token and credential that were never taken. -/
structure Db where
  accounts : List Account
  sessions : List Session
  refreshTokens : List RefreshToken
  deviceTokens : List DeviceToken
  loginFailures : List (String × Lockout.Failures)
  lineup : Lineup.Db
  nextToken : ℕ
  nextRoot : ℕ
  deriving DecidableEq

/-- What the routes take from the configuration. -/
structure Config where
  sessions : Auth.Config
  lockout : Lockout.Config

/-- How `CITEXT` folds a text before it compares. -/
structure Env where
  lower : String → String

namespace Db

variable (env : Env) (cfg : Config) (now : ℕ) (db : Db)

/-- The tables of the sessions. -/
def auth : Auth.Db :=
  { users := db.accounts.map Account.toUser, sessions := db.sessions
    refreshTokens := db.refreshTokens, nextToken := db.nextToken, nextRoot := db.nextRoot }

/-- The tables after a statement on the sessions. -/
def setAuth (auth : Auth.Db) : Db :=
  { db with
    sessions := auth.sessions, refreshTokens := auth.refreshTokens
    nextToken := auth.nextToken, nextRoot := auth.nextRoot }

/-! ## Statements on the accounts -/

/-- `users.getById` -/
def getById (userId : String) : Option Account :=
  db.accounts.find? (fun a => a.id = userId ∧ a.deletedAt = none)

/-- `users.getByUsername` -/
def getByUsername (username : String) : Option Account :=
  db.accounts.find? (fun a => env.lower a.username = env.lower username ∧ a.deletedAt = none)

/-- `users.findByUsername` -/
def findByUsername (username : String) : Option Account := db.getByUsername env username

/-- `users.update(userId, { deletedAt })` -/
def updateDeletedAt (userId : String) (deletedAt : Option ℕ) : Db :=
  { db with accounts := db.accounts.map (fun a =>
      if a.id = userId ∧ a.deletedAt = none then { a with deletedAt := deletedAt } else a) }

/-! ## Statements on the failures -/

/-- `loginFailures.get` -/
def failures (userId : String) : Option Lockout.Failures := db.loginFailures.lookup userId

/-- The row of the account is written, or deleted. -/
def setFailures (userId : String) (row : Option Lockout.Failures) : Db :=
  { db with loginFailures :=
      db.loginFailures.filter (fun p => p.1 ≠ userId) ++ row.toList.map (fun f => (userId, f)) }

/-- `handleLoginFailure` -/
def handleLoginFailure (userId : String) : Db :=
  let recorded := Lockout.record now (db.failures userId)
  if cfg.lockout.maxLoginFailures ≤ Lockout.count recorded then
    db.setFailures userId (Lockout.lock (now + cfg.lockout.loginLockoutMs) recorded)
  else db.setFailures userId recorded

/-- `performSoftDelete` -/
def performSoftDelete (userId : String) : Db :=
  let db := db.updateDeletedAt userId (some now)
  -- `invalidateUserSessions`
  let db := db.setAuth (db.auth.deleteSessions (db.auth.userSessions userId))
  let db := db.setAuth (db.auth.revokeAll userId)
  let db := { db with deviceTokens := db.deviceTokens.filter (fun d => d.userId ≠ userId) }
  { db with lineup := db.lineup.deleteByUserId now userId none none }

end Db

/-! ## The requests -/

inductive Answer where
  /-- 200 of the deletion: "You have 30 days to reactivate by logging in." -/
  | scheduled (userId : String)
  /-- 401 "Please log in" -/
  | authRequired
  | notFound
  | alreadyScheduled
  | incorrectPassword
  /-- 200 of the login -/
  | loggedIn (userId : String) (token : ℕ)
  /-- 401 "Invalid username or password" -/
  | invalidCredentials
  | accountLocked
  | rateLimited
  deriving DecidableEq

/-- What `DELETE /account` does for a session that is accepted. -/
def deleteAccountOf (now : ℕ) (userId password : String) (db : Db) : Answer × Db :=
  match db.getById userId with
  | none => (.notFound, db)
  | some user =>
      if user.deletedAt.isSome then (.alreadyScheduled, db)
      else if user.password = password then (.scheduled userId, db.performSoftDelete now userId)
      else (.incorrectPassword, db)

/-- `DELETE /account` -/
def deleteAccount (cfg : Config) (now token : ℕ) (password : String) (db : Db) : Answer × Db :=
  match db.auth.selectSession token with
  | none => (.authRequired, db)
  | some x =>
      if Auth.Db.sessionExpired cfg.sessions now x then
        (.authRequired, db.setAuth (db.auth.deleteSessions [token]))
      else if 60000 < now - x.lastAccess then
        deleteAccountOf now x.userId password (db.setAuth (db.auth.touchSession now token))
      else deleteAccountOf now x.userId password db

/-- `resolveLoginUser` -/
def resolveLoginUser (env : Env) (username : String) (db : Db) : Option Account :=
  let trimmed := String.ofList (Js.trim username.toList)
  match db.getByUsername env trimmed with
  | some user => some user
  | none => (db.findByUsername env trimmed).filter (fun a => a.deletedAt.isSome)

/-- What `POST /login` does once the password is verified. -/
def loginAs (cfg : Config) (now : ℕ) (user : Account) (db : Db) : Answer × Db :=
  let db := db.setFailures user.id none
  let db := if user.deletedAt.isSome then db.updateDeletedAt user.id none else db
  let root := db.nextRoot
  let token := db.nextToken
  let db := db.setAuth db.auth.takeRoot
  let db := db.setAuth (db.auth.createUserSession cfg.sessions now user.id root)
  let db := db.setAuth (db.auth.insertRefreshToken cfg.sessions now user.id token root)
  (.loggedIn user.id token, db)

/-- `POST /login`; `allowed` is what `consumeUserAuthRateLimit` says. -/
def login (env : Env) (cfg : Config) (now : ℕ) (username password : String) (allowed : Bool)
    (db : Db) : Answer × Db :=
  match resolveLoginUser env username db with
  | none => (.invalidCredentials, db)
  | some user =>
      if Lockout.isLocked now (db.failures user.id) then (.accountLocked, db)
      else if !allowed then (.rateLimited, db)
      else if user.password ≠ password then
        (.invalidCredentials, db.handleLoginFailure cfg now user.id)
      else loginAs cfg now user db

/-! ## Runs -/

inductive Request where
  | deleteAccount (now token : ℕ) (password : String)
  | login (now : ℕ) (username password : String) (allowed : Bool)
  deriving DecidableEq

/-- The tables after a request. -/
def step (env : Env) (cfg : Config) (db : Db) : Request → Option Db
  | .deleteAccount now token password => some (deleteAccount cfg now token password db).2
  | .login now username password allowed => some (login env cfg now username password allowed db).2

/-! ## The promise -/

/-- What the user has in the line-ups. -/
def profilesOf (userId : String) (db : Db) : List Lineup.ProfileRow :=
  db.lineup.profiles.filter (fun p => p.userId = some userId)

/-- The rows that are attached to the user's profiles. -/
def attachedOf (userId : String) (db : Db) (rows : List Lineup.Attached) : List Lineup.Attached :=
  rows.filter (fun r => r.profileId ∈ (profilesOf userId db).map Lineup.ProfileRow.id)

/-- An answer reactivates the account of the user: it is not deleted, a session is issued, and the
profiles, picks and notes are those from before the deletion. -/
structure Reactivates (before : Db) (userId : String) (answer : Answer × Db) : Prop where
  live : ∃ a ∈ answer.2.accounts, a.id = userId ∧ a.deletedAt = none
  session : ∃ token, answer.1 = .loggedIn userId token ∧
    ∃ x ∈ answer.2.sessions, x.token = token ∧ x.userId = userId
  profiles : profilesOf userId answer.2 = profilesOf userId before
  picks : attachedOf userId answer.2 answer.2.lineup.picks =
    attachedOf userId before before.lineup.picks
  notes : attachedOf userId answer.2 answer.2.lineup.notes =
    attachedOf userId before before.lineup.notes

/-! ## What is deleted stays deleted -/

variable {env : Env} {cfg : Config} {now : ℕ} {db : Db} {userId : String}

/-- No row of the user is live. -/
def SoftDeleted (userId : String) (db : Db) : Prop :=
  ∀ a ∈ db.accounts, a.id = userId → a.deletedAt ≠ none

@[simp] theorem accounts_setAuth (auth : Auth.Db) : (db.setAuth auth).accounts = db.accounts := rfl
@[simp] theorem accounts_setFailures (row : Option Lockout.Failures) :
    (db.setFailures userId row).accounts = db.accounts := rfl

@[simp] theorem accounts_handleLoginFailure :
    (db.handleLoginFailure cfg now userId).accounts = db.accounts := by
  simp only [Db.handleLoginFailure]
  split <;> rfl

/-- The statement that is to reactivate an account changes nothing. -/
theorem updateDeletedAt_none : db.updateDeletedAt userId none = db := by
  have haccounts : db.accounts.map (fun a =>
      if a.id = userId ∧ a.deletedAt = none then { a with deletedAt := none } else a) =
      db.accounts := by
    refine List.map_id'' ?_ _
    intro a
    split
    · rename_i h
      rw [← h.2]
    · rfl
  unfold Db.updateDeletedAt
  rw [haccounts]

/-- A deletion sets `deleted_at` where it is not set, and nowhere unsets it. -/
theorem mem_updateDeletedAt_some {a : Account} (h : a ∈ (db.updateDeletedAt userId (some now)).accounts) :
    a ∈ db.accounts ∧ (a.id = userId → a.deletedAt ≠ none) ∨ a.deletedAt = some now := by
  obtain ⟨b, hb, rfl⟩ := List.mem_map.mp h
  by_cases hlive : b.id = userId ∧ b.deletedAt = none
  · exact .inr (by rw [if_pos hlive])
  · rw [if_neg hlive]
    exact .inl ⟨hb, fun hid hnone => hlive ⟨hid, hnone⟩⟩

theorem accounts_performSoftDelete :
    (db.performSoftDelete now userId).accounts = (db.updateDeletedAt userId (some now)).accounts :=
  rfl

theorem softDeleted_performSoftDelete : SoftDeleted userId (db.performSoftDelete now userId) := by
  intro a ha hid hnone
  rcases mem_updateDeletedAt_some (accounts_performSoftDelete ▸ ha) with ⟨-, h⟩ | h
  · exact h hid hnone
  · rw [hnone] at h
    cases h

theorem SoftDeleted.performSoftDelete (h : SoftDeleted userId db) (other : String) :
    SoftDeleted userId (db.performSoftDelete now other) := by
  intro a ha hid hnone
  rcases mem_updateDeletedAt_some (accounts_performSoftDelete ▸ ha) with ⟨hmem, -⟩ | hset
  · exact h a hmem hid hnone
  · rw [hnone] at hset
    cases hset

theorem SoftDeleted.of_accounts_eq {db' : Db} (h : SoftDeleted userId db)
    (heq : db'.accounts = db.accounts) : SoftDeleted userId db' :=
  fun a ha => h a (heq ▸ ha)

theorem accounts_loginAs (user : Account) : (loginAs cfg now user db).2.accounts = db.accounts := by
  unfold loginAs
  split <;> simp [updateDeletedAt_none]

/-- A login leaves the accounts as they are. -/
theorem accounts_login (username password : String) (allowed : Bool) :
    (login env cfg now username password allowed db).2.accounts = db.accounts := by
  unfold login
  repeat' split
  · rfl
  · rfl
  · rfl
  · simp
  · exact accounts_loginAs _

theorem deleteAccountOf_cases (now : ℕ) (userId password : String) (db : Db) :
    deleteAccountOf now userId password db = (.scheduled userId, db.performSoftDelete now userId) ∨
    (deleteAccountOf now userId password db).2 = db ∧
      ∀ other, (deleteAccountOf now userId password db).1 ≠ .scheduled other := by
  unfold deleteAccountOf
  repeat' split
  · exact .inr ⟨rfl, nofun⟩
  · exact .inr ⟨rfl, nofun⟩
  · exact .inl rfl
  · exact .inr ⟨rfl, nofun⟩

/-- What `DELETE /account` does: it schedules an account for deletion, or touches neither the
accounts nor the line-ups. -/
theorem deleteAccount_cases (cfg : Config) (now token : ℕ) (password : String) (db : Db) :
    (∃ (other : String) (db' : Db), db'.accounts = db.accounts ∧ db'.lineup = db.lineup ∧
      deleteAccount cfg now token password db = (.scheduled other, db'.performSoftDelete now other)) ∨
    (deleteAccount cfg now token password db).2.accounts = db.accounts ∧
      (deleteAccount cfg now token password db).2.lineup = db.lineup ∧
      ∀ other, (deleteAccount cfg now token password db).1 ≠ .scheduled other := by
  have hof : ∀ (userId : String) (db' : Db), db'.accounts = db.accounts → db'.lineup = db.lineup →
      (∃ (other : String) (db'' : Db), db''.accounts = db.accounts ∧ db''.lineup = db.lineup ∧
        deleteAccountOf now userId password db' =
          (.scheduled other, db''.performSoftDelete now other)) ∨
      (deleteAccountOf now userId password db').2.accounts = db.accounts ∧
        (deleteAccountOf now userId password db').2.lineup = db.lineup ∧
        ∀ other, (deleteAccountOf now userId password db').1 ≠ .scheduled other := by
    intro userId db' haccounts hlineup
    rcases deleteAccountOf_cases now userId password db' with h | ⟨htables, hanswer⟩
    · exact .inl ⟨userId, db', haccounts, hlineup, h⟩
    · exact .inr ⟨by rw [htables, haccounts], by rw [htables, hlineup], hanswer⟩
  unfold deleteAccount
  split
  · exact .inr ⟨rfl, rfl, nofun⟩
  · split
    · exact .inr ⟨rfl, rfl, nofun⟩
    · split
      · exact hof _ _ rfl rfl
      · exact hof _ _ rfl rfl

/-- An accepted deletion leaves no live row of the user. -/
theorem softDeleted_of_scheduled {token : ℕ} {password : String}
    (h : (deleteAccount cfg now token password db).1 = .scheduled userId) :
    SoftDeleted userId (deleteAccount cfg now token password db).2 := by
  rcases deleteAccount_cases cfg now token password db with
    ⟨other, db', -, -, heq⟩ | ⟨-, -, hanswer⟩
  · rw [heq] at h ⊢
    cases h
    exact softDeleted_performSoftDelete
  · exact absurd h (hanswer userId)

/-- No request brings a deleted account back. -/
theorem softDeleted_step {t : Db} {r : Request} (h : SoftDeleted userId db)
    (hstep : step env cfg db r = some t) : SoftDeleted userId t := by
  cases r with
  | deleteAccount now token password =>
    obtain rfl := Option.some.inj hstep
    rcases deleteAccount_cases cfg now token password db with
      ⟨other, db', heq, -, hdeleted⟩ | ⟨heq, -, -⟩
    · rw [hdeleted]
      exact (h.of_accounts_eq heq).performSoftDelete other
    · exact h.of_accounts_eq heq
  | login now username password allowed =>
    obtain rfl := Option.some.inj hstep
    exact h.of_accounts_eq (accounts_login username password allowed)

/-! ## The promise is not kept -/

/-- **No login reactivates an account that was deleted**, whatever other deletions and logins come
in between. -/
theorem never_reactivates (env : Env) (cfg : Config) (before : Db) (deleted token : ℕ)
    (confirmed userId : String)
    (hdeleted : (deleteAccount cfg deleted token confirmed before).1 = .scheduled userId)
    (requests : List Request) (db : Db)
    (hrun : Machine.run (step env cfg) (deleteAccount cfg deleted token confirmed before).2 requests =
      some db)
    (now : ℕ) (username password : String) (allowed : Bool) :
    ¬ Reactivates before userId (login env cfg now username password allowed db) := by
  have hsoft : SoftDeleted userId db :=
    Machine.inv_run (I := SoftDeleted userId) (fun _ _ _ => softDeleted_step)
      (softDeleted_of_scheduled hdeleted) hrun
  rintro ⟨⟨a, ha, hid, hlive⟩, -, -, -, -⟩
  rw [accounts_login] at ha
  exact hsoft a ha hid hlive

/-- An account with a profile and a pick, and a session. -/
def oneAccount : Db :=
  { accounts := [{ id := "u1", password := "right", username := "ana", deletedAt := none }]
    sessions := [⟨0, "u1", 0, 0, 0⟩], refreshTokens := [], deviceTokens := [], loginFailures := []
    lineup := {
      users := ["u1"], festivals := [], stages := [], days := [], sets := []
      profiles := [{
        id := "p1", festivalId := "f1", userId := some "u1", name := "ana"
        picksJson := ⟨[("s1", "must")], by decide⟩, notesJson := .empty, remindersJson := .empty
        createdAt := 0, updatedAt := none, deletedAt := none, deletedBy := none
        deletionReason := none }]
      picks := [⟨"p1", "s1", "must"⟩], notes := [], ratings := [] }
    nextToken := 1, nextRoot := 1 }

/-- A week's sessions, and a lockout after ten failures. -/
def someConfig : Config :=
  { sessions := { sessionTtl := 604800000, refreshTokenTtl := 7776000000, userSessionMax := 5 }
    lockout := Lockout.defaults }

/-- The account is deleted, another login fails, and its user logs in a second later. -/
theorem oneAccount_not_reactivated :
    ¬ Reactivates oneAccount "u1" (login ⟨id⟩ someConfig 1000 "ana" "right" true
      (deleteAccount someConfig 0 0 "right" oneAccount).2) :=
  never_reactivates ⟨id⟩ someConfig oneAccount 0 0 "right" "u1" (by decide)
    [.login 500 "ben" "wrong" true] _ rfl 1000 "ana" "right" true

/-- The right name and password within the 30 days are answered 401. -/
theorem reactivation_answered_401 :
    ¬ ∀ (env : Env) (cfg : Config) (before : Db) (deleted token now : ℕ) (a : Account),
      a ∈ before.accounts → now < deleted + 30 * 24 * 60 * 60 * 1000 →
      (deleteAccount cfg deleted token a.password before).1 = .scheduled a.id →
      Reactivates before a.id (login env cfg now a.username a.password true
        (deleteAccount cfg deleted token a.password before).2) := by
  intro h
  obtain ⟨-, ⟨token, hanswer, -⟩, -, -, -⟩ := h ⟨id⟩ someConfig oneAccount 0 0 1000
    ⟨⟨"u1", "right"⟩, "ana", none⟩ (by decide) (by decide) (by decide)
  have hrefused : (login ⟨id⟩ someConfig 1000 "ana" "right" true
      (deleteAccount someConfig 0 0 "right" oneAccount).2).1 = .invalidCredentials := by
    decide
  rw [hrefused] at hanswer
  cases hanswer

end FestivalPlanner.Auth.Reactivation
