import FestivalPlanner.Lib.Machine
import Mathlib.Data.List.Sort

/-!
# Sessions and refresh tokens

Logins, refreshes and a change of the password as requests whose statements interleave:
`routes/auth.ts`, `lib/app-context/session.ts` and `lib/db/stores/sessions.ts`.  One action is
one statement of one request, or one transaction as its commit makes it visible.

* `Session`, `RefreshToken`, `Db` — the tables; tokens are random, so each is taken once, and
  here they are numbered;
* `Task`, `runTask` — a request at its next statement: `POST /login`, `POST /refresh` and
  `POST /refresh-token`;
* `Change`, `runChange` — the same for `POST /change-password`;
* `step` — the machine of all requests and one change of the password.

The user that a change verifies is read through a cache; with one change of the password in a
run the cached user is the stored one.

A row also says from which credential it descends: `root` counts the passwords that were
verified and the change of the password.  No statement reads it.
-/

namespace FestivalPlanner.Auth

open List Option

/-! ## Tables -/

/-- A row of `users`; a hash is as good as its password here. -/
structure User where
  id : String
  password : String
  deriving DecidableEq

/-- A row of `user_sessions`. -/
structure Session where
  token : ℕ
  userId : String
  createdAt : ℕ
  lastAccess : ℕ
  /-- the credential it descends from -/
  root : ℕ
  deriving DecidableEq

/-- A row of `refresh_tokens`. -/
structure RefreshToken where
  token : ℕ
  userId : String
  /-- `none` for tokens older than the column -/
  sessionToken : Option ℕ
  expiresAt : ℕ
  revoked : Bool := false
  rotatedAt : Option ℕ := none
  /-- the credential it descends from -/
  root : ℕ
  deriving DecidableEq

/-- What the routes take from the configuration. -/
structure Config where
  sessionTtl : ℕ
  refreshTokenTtl : ℕ
  userSessionMax : ℕ

/-- The tables, and the next token and credential that were never taken. -/
structure Db where
  users : List User
  sessions : List Session
  refreshTokens : List RefreshToken
  nextToken : ℕ
  nextRoot : ℕ
  deriving DecidableEq

namespace Db

variable (cfg : Config) (now : ℕ) (db : Db)

/-! ## Statements on the sessions -/

/-- `SELECT … FROM user_sessions WHERE token = $1` -/
def selectSession (token : ℕ) : Option Session := db.sessions.find? (fun x => x.token = token)

/-- A session is accepted until its time to live has passed. -/
def sessionExpired (x : Session) : Bool := decide (cfg.sessionTtl < now - x.createdAt)

/-- `UPDATE user_sessions SET last_access = $1 WHERE token = $2` -/
def touchSession (token : ℕ) : Db :=
  { db with sessions := db.sessions.map (fun x =>
      if x.token = token then { x with lastAccess := now } else x) }

/-- `DELETE FROM user_sessions WHERE token IN (…)` -/
def deleteSessions (tokens : List ℕ) : Db :=
  { db with sessions := db.sessions.filter (fun x => x.token ∉ tokens) }

/-- The tokens of a user's sessions, least recently used first. -/
def userSessions (userId : String) : List ℕ :=
  ((db.sessions.filter (fun x => x.userId = userId)).insertionSort (fun x y =>
    x.lastAccess < y.lastAccess ∨ x.lastAccess = y.lastAccess ∧ x.token ≤ y.token)).map (·.token)

/-- `sessions.createUserSession`: the transaction inserts the session and evicts what is over
the limit. -/
def createUserSession (userId : String) (root : ℕ) : Db :=
  let created : Session :=
    { token := db.nextToken, userId := userId, createdAt := now, lastAccess := now, root := root }
  let inserted : Db :=
    { db with sessions := db.sessions ++ [created], nextToken := db.nextToken + 1 }
  let tokens := inserted.userSessions userId
  inserted.deleteSessions (tokens.take (tokens.length - cfg.userSessionMax))

/-! ## Statements on the refresh tokens -/

/-- `SELECT … FROM refresh_tokens WHERE token = $1` -/
def selectRefreshToken (token : ℕ) : Option RefreshToken :=
  db.refreshTokens.find? (fun r => r.token = token)

/-- A refresh token is refused once it is revoked or expired. -/
@[grind =] def refreshRefused (r : RefreshToken) : Bool := r.revoked || decide (r.expiresAt < now)

/-- `DELETE FROM refresh_tokens WHERE token = $1` -/
def deleteRefreshToken (token : ℕ) : Db :=
  { db with refreshTokens := db.refreshTokens.filter (fun r => r.token ≠ token) }

/-- `refreshTokens.create` -/
def insertRefreshToken (userId : String) (sessionToken root : ℕ) : Db :=
  { db with
    refreshTokens := db.refreshTokens ++ [{
      token := db.nextToken, userId := userId, sessionToken := some sessionToken,
      expiresAt := now + cfg.refreshTokenTtl, root := root }]
    nextToken := db.nextToken + 1 }

/-- The writes of `refreshTokens.rotate`: the old row is revoked, whether it was before or
not, and the new one is inserted. -/
def rotate (oldToken : ℕ) (userId : String) (sessionToken root : ℕ) : Db :=
  let marked : Db := { db with refreshTokens := db.refreshTokens.map (fun r =>
    if r.token = oldToken then { r with revoked := true, rotatedAt := some now } else r) }
  marked.insertRefreshToken cfg now userId sessionToken root

/-- `refreshTokens.revokeAll` -/
def revokeAll (userId : String) : Db :=
  { db with refreshTokens := db.refreshTokens.map (fun r =>
      if r.userId = userId ∧ r.revoked = false then { r with revoked := true } else r) }

/-! ## Users -/

/-- `getUserById` -/
def selectUser (userId : String) : Option User := db.users.find? (fun u => u.id = userId)

/-- `users.update(userId, { passwordHash })` -/
def updatePassword (userId password : String) : Db :=
  { db with users := db.users.map (fun u =>
      if u.id = userId then { u with password := password } else u) }

/-- The next credential is taken. -/
def takeRoot : Db := { db with nextRoot := db.nextRoot + 1 }

end Db

/-! ## Requests -/

/-- A request at its next statement, with what it has read. -/
inductive Task where
  /-- `POST /login`: read the user and verify the password -/
  | login (userId password : String)
  | loginCreate (userId : String) (root : ℕ)
  | loginIssue (userId : String) (root session : ℕ)
  /-- `POST /refresh`: `userAuth` reads the session -/
  | refresh (token : ℕ)
  | refreshTouch (token : ℕ) (userId : String) (root : ℕ)
  | refreshDelete (token : ℕ) (userId : String) (root : ℕ)
  | refreshCreate (userId : String) (root : ℕ)
  /-- the session that was read has expired -/
  | dropSession (token : ℕ)
  /-- `POST /refresh-token`: `refreshTokens.validate` reads the row -/
  | exchange (token : ℕ)
  /-- and the session it is linked to -/
  | exchangeLinked (token : ℕ) (userId : String) (root session : ℕ)
  /-- the refresh token is refused -/
  | dropRefreshToken (token : ℕ)
  | exchangeUser (token : ℕ) (userId : String) (root : ℕ)
  | exchangeCreate (token : ℕ) (userId : String) (root : ℕ)
  /-- `refreshTokens.rotate` reads the old row -/
  | exchangeSelect (token : ℕ) (userId : String) (root session : ℕ)
  | exchangeRotate (token : ℕ) (userId : String) (root session : ℕ)
  /-- a new refresh token was obtained for the one presented -/
  | exchanged (token fresh : ℕ)
  | finished
  deriving DecidableEq

/-- A request that has just arrived. -/
def Task.isRequest : Task → Bool
  | .login _ _ | .refresh _ | .exchange _ => true
  | _ => false

/-- The next statement of a request. -/
@[grind =] def runTask (cfg : Config) (now : ℕ) (db : Db) : Task → Option (Db × Task)
  | .login userId password =>
      match db.selectUser userId with
      | some user =>
          if user.password = password then some (db.takeRoot, .loginCreate userId db.nextRoot)
          else some (db, .finished)
      | none => some (db, .finished)
  | .loginCreate userId root =>
      some (db.createUserSession cfg now userId root, .loginIssue userId root db.nextToken)
  | .loginIssue userId root session =>
      some (db.insertRefreshToken cfg now userId session root, .finished)
  | .refresh token =>
      match db.selectSession token with
      | some x =>
          if Db.sessionExpired cfg now x then some (db, .dropSession token)
          else if 60000 < now - x.lastAccess then some (db, .refreshTouch token x.userId x.root)
          else some (db, .refreshDelete token x.userId x.root)
      | none => some (db, .finished)
  | .refreshTouch token userId root =>
      some (db.touchSession now token, .refreshDelete token userId root)
  | .refreshDelete token userId root => some (db.deleteSessions [token], .refreshCreate userId root)
  | .refreshCreate userId root => some (db.createUserSession cfg now userId root, .finished)
  | .dropSession token => some (db.deleteSessions [token], .finished)
  | .exchange token =>
      match db.selectRefreshToken token with
      | some r =>
          if Db.refreshRefused now r then some (db, .dropRefreshToken token)
          else match r.sessionToken with
            | some session => some (db, .exchangeLinked token r.userId r.root session)
            | none => some (db, .exchangeUser token r.userId r.root)
      | none => some (db, .finished)
  | .exchangeLinked token userId root session =>
      match db.selectSession session with
      | some _ => some (db, .exchangeUser token userId root)
      | none => some (db, .dropRefreshToken token)
  | .dropRefreshToken token => some (db.deleteRefreshToken token, .finished)
  | .exchangeUser token userId root =>
      match db.selectUser userId with
      | some _ => some (db, .exchangeCreate token userId root)
      | none => some (db, .finished)
  | .exchangeCreate token userId root =>
      some (db.createUserSession cfg now userId root, .exchangeSelect token userId root db.nextToken)
  | .exchangeSelect token _ root session =>
      match db.selectRefreshToken token with
      | some old => some (db, .exchangeRotate token old.userId root session)
      | none => some (db, .finished)
  | .exchangeRotate token userId root session =>
      some (db.rotate cfg now token userId session root, .exchanged token db.nextToken)
  | .exchanged _ _ => none
  | .finished => none

/-! ## The change of the password -/

/-- `POST /change-password` at its next statement; `mark` is the credential it makes. -/
inductive Change where
  | idle
  /-- `userAuth` reads the session -/
  | auth (token : ℕ) (currentPassword newPassword : String)
  | dropSession (token : ℕ)
  | touch (token : ℕ) (userId currentPassword newPassword : String)
  | verify (userId currentPassword newPassword : String)
  | update (userId newPassword : String)
  /-- `deleteUserSessions` reads the tokens -/
  | list (userId : String) (mark : ℕ)
  /-- and deletes them -/
  | delete (userId : String) (mark : ℕ) (tokens : List ℕ)
  | revoke (userId : String) (mark : ℕ)
  | create (userId : String) (mark : ℕ)
  | done (userId : String) (mark : ℕ)
  | failed
  deriving DecidableEq

/-- The next statement of the change. -/
def runChange (cfg : Config) (now : ℕ) (db : Db) : Change → Option (Db × Change)
  | .auth token currentPassword newPassword =>
      match db.selectSession token with
      | some x =>
          if Db.sessionExpired cfg now x then some (db, .dropSession token)
          else if 60000 < now - x.lastAccess then
            some (db, .touch token x.userId currentPassword newPassword)
          else some (db, .verify x.userId currentPassword newPassword)
      | none => some (db, .failed)
  | .dropSession token => some (db.deleteSessions [token], .failed)
  | .touch token userId currentPassword newPassword =>
      some (db.touchSession now token, .verify userId currentPassword newPassword)
  | .verify userId currentPassword newPassword =>
      match db.selectUser userId with
      | some user =>
          if user.password = currentPassword then some (db, .update userId newPassword)
          else some (db, .failed)
      | none => some (db, .failed)
  | .update userId newPassword =>
      some ((db.updatePassword userId newPassword).takeRoot, .list userId db.nextRoot)
  | .list userId mark => some (db, .delete userId mark (db.userSessions userId))
  | .delete userId mark tokens => some (db.deleteSessions tokens, .revoke userId mark)
  | .revoke userId mark => some (db.revokeAll userId, .create userId mark)
  | .create userId mark => some (db.createUserSession cfg now userId mark, .done userId mark)
  | .idle => none
  | .done _ _ => none
  | .failed => none

/-! ## The machine -/

/-- The tables, the requests and the change of the password. -/
structure State where
  db : Db
  tasks : List Task
  change : Change
  deriving DecidableEq

/-- An arrival, or the next statement of a request at a time. -/
inductive Action where
  | request (task : Task)
  | run (i now : ℕ)
  | changePassword (token : ℕ) (currentPassword newPassword : String)
  | runChange (now : ℕ)
  deriving DecidableEq

/-- One action. -/
@[grind =] def step (cfg : Config) (s : State) : Action → Option State
  | .request task => if task.isRequest then some { s with tasks := s.tasks ++ [task] } else none
  | .run i now => do
      let task ← s.tasks[i]?
      let (db, next) ← runTask cfg now s.db task
      return { s with db := db, tasks := s.tasks.set i next }
  | .changePassword token currentPassword newPassword =>
      if s.change = .idle then
        some { s with change := .auth token currentPassword newPassword }
      else none
  | .runChange now => do
      let (db, next) ← runChange cfg now s.db s.change
      return { s with db := db, change := next }

variable {s t : State} {task next : Task} {token root : ℕ} {db db' : Db} {userId : String}

theorem step_run {cfg : Config} {i now : ℕ} (h : step cfg s (.run i now) = some t) :
    ∃ task db next, s.tasks[i]? = some task ∧ runTask cfg now s.db task = some (db, next) ∧
      t = { s with db := db, tasks := s.tasks.set i next } := by
  simp only [step, bind_eq_bind, bind_eq_some_iff] at h
  obtain ⟨task, htask, ⟨db, next⟩, hrun, ht⟩ := h
  exact ⟨task, db, next, htask, hrun, (some.inj ht).symm⟩

theorem step_runChange {cfg : Config} {now : ℕ} (h : step cfg s (.runChange now) = some t) :
    ∃ db next, runChange cfg now s.db s.change = some (db, next) ∧
      t = { s with db := db, change := next } := by
  simp only [step, bind_eq_bind, bind_eq_some_iff] at h
  obtain ⟨⟨db, next⟩, hrun, ht⟩ := h
  exact ⟨db, next, hrun, (some.inj ht).symm⟩

theorem step_request {cfg : Config} (h : step cfg s (.request task) = some t) :
    task.isRequest = true ∧ t = { s with tasks := s.tasks ++ [task] } := by
  simp only [step, ite_none_right_eq_some] at h
  exact ⟨h.1, (some.inj h.2).symm⟩

theorem step_changePassword {cfg : Config} {currentPassword newPassword : String}
    (h : step cfg s (.changePassword token currentPassword newPassword) = some t) :
    s.change = .idle ∧ t = { s with change := .auth token currentPassword newPassword } := by
  simp only [step, ite_none_right_eq_some] at h
  exact ⟨h.1, (some.inj h.2).symm⟩

/-! ## What a statement does to the tables -/

/-- The session that the next statement of the request creates, by user and credential. -/
def Task.creates : Task → Option (String × ℕ)
  | .loginCreate userId root | .refreshCreate userId root | .exchangeCreate _ userId root =>
      some (userId, root)
  | _ => none

/-- The refresh token that the next statement of the request inserts, by user, credential and
session. -/
def Task.issues : Task → Option (String × ℕ × ℕ)
  | .loginIssue userId root session | .exchangeRotate _ userId root session =>
      some (userId, root, session)
  | _ => none

/-- The session that the request has created, with its user and credential. -/
def Task.holds : Task → Option (String × ℕ × ℕ)
  | .loginIssue userId root session | .exchangeSelect _ userId root session
  | .exchangeRotate _ userId root session => some (userId, root, session)
  | _ => none

/-- The refresh token that the request has read, with its user and credential. -/
def Task.presents : Task → Option (ℕ × String × ℕ)
  | .exchangeLinked token userId root _ | .exchangeUser token userId root
  | .exchangeCreate token userId root | .exchangeSelect token userId root _
  | .exchangeRotate token userId root _ => some (token, userId, root)
  | _ => none

/-- The session that the next statement of the change creates. -/
def Change.creates : Change → Option (String × ℕ)
  | .create userId mark => some (userId, mark)
  | _ => none

/-- Rows keep their token, user and credential, and at most one is new. -/
structure Grows (db db' : Db) (created : Option (String × ℕ))
    (issued : Option (String × ℕ × ℕ)) : Prop where
  nextToken_le : db.nextToken ≤ db'.nextToken
  nextRoot_le : db.nextRoot ≤ db'.nextRoot
  sessions : ∀ x ∈ db'.sessions,
    (∃ y ∈ db.sessions, y.token = x.token ∧ y.userId = x.userId ∧ y.root = x.root) ∨
      x.token = db.nextToken ∧ x.token < db'.nextToken ∧ created = some (x.userId, x.root)
  refreshTokens : ∀ r ∈ db'.refreshTokens,
    (∃ q ∈ db.refreshTokens, q.token = r.token ∧ q.userId = r.userId ∧ q.root = r.root ∧
      q.sessionToken = r.sessionToken ∧ (q.revoked = true → r.revoked = true) ∧
      (q.rotatedAt ≠ none → r.rotatedAt ≠ none) ∧
      (r.rotatedAt ≠ none → q.rotatedAt ≠ none ∨ r.revoked = true)) ∨
      r.token = db.nextToken ∧ r.token < db'.nextToken ∧ r.rotatedAt = none ∧
        ∃ session, r.sessionToken = some session ∧ issued = some (r.userId, r.root, session)

theorem Grows.refl (db : Db) (created : Option (String × ℕ))
    (issued : Option (String × ℕ × ℕ)) : Grows db db created issued :=
  { nextToken_le := le_rfl
    nextRoot_le := le_rfl
    sessions := fun x hx => .inl ⟨x, hx, rfl, rfl, rfl⟩
    refreshTokens := fun r hr => .inl ⟨r, hr, rfl, rfl, rfl, rfl, id, id, .inl⟩ }

theorem grows_takeRoot (db : Db) : Grows db db.takeRoot none none :=
  { Grows.refl db none none with nextRoot_le := Nat.le_succ _ }

theorem grows_deleteSessions (db : Db) (tokens : List ℕ) :
    Grows db (db.deleteSessions tokens) none none :=
  { Grows.refl db none none with
    sessions := fun x hx => .inl ⟨x, mem_of_mem_filter hx, rfl, rfl, rfl⟩ }

theorem grows_deleteRefreshToken (db : Db) (token : ℕ) :
    Grows db (db.deleteRefreshToken token) none none :=
  { Grows.refl db none none with
    refreshTokens := fun r hr =>
      Or.inl ⟨r, mem_of_mem_filter hr, rfl, rfl, rfl, rfl, id, id, .inl⟩ }

theorem grows_touchSession (db : Db) (now token : ℕ) :
    Grows db (db.touchSession now token) none none := by
  refine { Grows.refl db none none with sessions := ?_ }
  intro x hx
  obtain ⟨y, hy, rfl⟩ := List.mem_map.mp hx
  refine .inl ⟨y, hy, ?_⟩
  split <;> exact ⟨rfl, rfl, rfl⟩

theorem grows_revokeAll (db : Db) (userId : String) : Grows db (db.revokeAll userId) none none := by
  refine { Grows.refl db none none with refreshTokens := ?_ }
  intro r hr
  obtain ⟨q, hq, rfl⟩ := List.mem_map.mp hr
  refine .inl ⟨q, hq, ?_⟩
  split
  · simp
  · exact ⟨rfl, rfl, rfl, rfl, id, id, .inl⟩

theorem grows_createUserSession (cfg : Config) (now : ℕ) (db : Db) (userId : String) (root : ℕ) :
    Grows db (db.createUserSession cfg now userId root) (some (userId, root)) none := by
  refine { Grows.refl db none none with
    nextToken_le := Nat.le_succ _
    sessions := ?_
    refreshTokens := fun r hr => .inl ⟨r, hr, rfl, rfl, rfl, rfl, id, id, .inl⟩ }
  intro x hx
  have hmem := mem_of_mem_filter hx
  rcases mem_append.mp hmem with hx | hx
  · exact .inl ⟨x, hx, rfl, rfl, rfl⟩
  · rw [mem_singleton.mp hx]
    exact .inr ⟨rfl, Nat.lt_succ_self _, rfl⟩

theorem grows_insertRefreshToken (cfg : Config) (now : ℕ) (db : Db) (userId : String)
    (sessionToken root : ℕ) :
    Grows db (db.insertRefreshToken cfg now userId sessionToken root) none
      (some (userId, root, sessionToken)) := by
  refine { Grows.refl db none none with
    nextToken_le := Nat.le_succ _
    sessions := fun x hx => .inl ⟨x, hx, rfl, rfl, rfl⟩
    refreshTokens := ?_ }
  intro r hr
  rcases mem_append.mp hr with hr | hr
  · exact .inl ⟨r, hr, rfl, rfl, rfl, rfl, id, id, .inl⟩
  · rw [mem_singleton.mp hr]
    exact .inr ⟨rfl, Nat.lt_succ_self _, rfl, sessionToken, rfl, rfl⟩

theorem grows_rotate (cfg : Config) (now : ℕ) (db : Db) (oldToken : ℕ) (userId : String)
    (sessionToken root : ℕ) :
    Grows db (db.rotate cfg now oldToken userId sessionToken root) none
      (some (userId, root, sessionToken)) := by
  refine { Grows.refl db none none with
    nextToken_le := Nat.le_succ _
    sessions := fun x hx => .inl ⟨x, hx, rfl, rfl, rfl⟩
    refreshTokens := ?_ }
  intro r hr
  rcases mem_append.mp hr with hr | hr
  · obtain ⟨q, hq, rfl⟩ := List.mem_map.mp hr
    refine .inl ⟨q, hq, ?_⟩
    split
    · simp
    · exact ⟨rfl, rfl, rfl, rfl, id, id, .inl⟩
  · rw [mem_singleton.mp hr]
    exact .inr ⟨rfl, Nat.lt_succ_self _, rfl, sessionToken, rfl, rfl⟩

/-- The statement of a request creates and issues what it says. -/
theorem runTask_grows {cfg : Config} {now : ℕ} (h : runTask cfg now db task = some (db', next)) :
    Grows db db' task.creates task.issues := by
  cases task with
  | login userId password =>
    simp only [runTask] at h
    split at h
    · split at h
      · cases h
        exact grows_takeRoot db
      · cases h
        exact Grows.refl db _ _
    · cases h
      exact Grows.refl db _ _
  | loginCreate userId root =>
    cases h
    exact grows_createUserSession cfg now db userId root
  | loginIssue userId root session =>
    cases h
    exact grows_insertRefreshToken cfg now db userId session root
  | refresh token =>
    simp only [runTask] at h
    repeat' split at h
    all_goals
      cases h
      exact Grows.refl db _ _
  | refreshTouch token userId root =>
    cases h
    exact grows_touchSession db now token
  | refreshDelete token userId root =>
    cases h
    exact grows_deleteSessions db [token]
  | refreshCreate userId root =>
    cases h
    exact grows_createUserSession cfg now db userId root
  | dropSession token =>
    cases h
    exact grows_deleteSessions db [token]
  | exchange token =>
    simp only [runTask] at h
    repeat' split at h
    all_goals
      cases h
      exact Grows.refl db _ _
  | exchangeLinked token userId root session =>
    simp only [runTask] at h
    split at h <;> cases h <;> exact Grows.refl db _ _
  | dropRefreshToken token =>
    cases h
    exact grows_deleteRefreshToken db token
  | exchangeUser token userId root =>
    simp only [runTask] at h
    split at h <;> cases h <;> exact Grows.refl db _ _
  | exchangeCreate token userId root =>
    cases h
    exact grows_createUserSession cfg now db userId root
  | exchangeSelect token userId root session =>
    simp only [runTask] at h
    split at h <;> cases h <;> exact Grows.refl db _ _
  | exchangeRotate token userId root session =>
    cases h
    exact grows_rotate cfg now db token userId session root
  | exchanged token fresh => cases h
  | finished => cases h

theorem grows_update (db : Db) (userId newPassword : String) :
    Grows db (db.updatePassword userId newPassword).takeRoot none none :=
  { Grows.refl db none none with nextRoot_le := Nat.le_succ _ }

/-- The statement of the change creates what it says. -/
theorem runChange_grows {cfg : Config} {now : ℕ} {change next : Change}
    (h : runChange cfg now db change = some (db', next)) : Grows db db' change.creates none := by
  cases change with
  | auth token currentPassword newPassword =>
    simp only [runChange] at h
    repeat' split at h
    all_goals
      cases h
      exact Grows.refl db _ _
  | dropSession token =>
    cases h
    exact grows_deleteSessions db [token]
  | touch token userId currentPassword newPassword =>
    cases h
    exact grows_touchSession db now token
  | verify userId currentPassword newPassword =>
    simp only [runChange] at h
    repeat' split at h
    all_goals
      cases h
      exact Grows.refl db _ _
  | update userId newPassword =>
    cases h
    exact grows_update db userId newPassword
  | list userId mark =>
    cases h
    exact Grows.refl db _ _
  | delete userId mark tokens =>
    cases h
    exact grows_deleteSessions db tokens
  | revoke userId mark =>
    cases h
    exact grows_revokeAll db userId
  | create userId mark =>
    cases h
    exact grows_createUserSession cfg now db userId mark
  | idle => cases h
  | done userId mark => cases h
  | failed => cases h

/-! ## Tokens and their rows -/

/-- A token names one user and one credential, in the tables and in the requests. -/
structure Consistent (s : State) : Prop where
  session_lt : ∀ x ∈ s.db.sessions, x.token < s.db.nextToken
  refresh_lt : ∀ r ∈ s.db.refreshTokens, r.token < s.db.nextToken
  session_unique : ∀ x ∈ s.db.sessions, ∀ y ∈ s.db.sessions, x.token = y.token →
    x.userId = y.userId ∧ x.root = y.root
  refresh_unique : ∀ r ∈ s.db.refreshTokens, ∀ q ∈ s.db.refreshTokens, r.token = q.token →
    r.userId = q.userId ∧ r.root = q.root
  holds : ∀ task ∈ s.tasks, ∀ userId root session, task.holds = some (userId, root, session) →
    session < s.db.nextToken ∧ ∀ x ∈ s.db.sessions, x.token = session →
      x.userId = userId ∧ x.root = root
  presents : ∀ task ∈ s.tasks, ∀ token userId root, task.presents = some (token, userId, root) →
    token < s.db.nextToken ∧ ∀ r ∈ s.db.refreshTokens, r.token = token →
      r.userId = userId ∧ r.root = root

/-- A statement that creates a session takes a token. -/
theorem runTask_nextToken {cfg : Config} {now : ℕ} {created : String × ℕ}
    (h : runTask cfg now db task = some (db', next)) (hcreates : task.creates = some created) :
    db'.nextToken = db.nextToken + 1 := by
  cases task <;> first | (cases hcreates; done) | (cases h; rfl)

/-- What a request holds after a statement it held before or has just created. -/
theorem runTask_holds {cfg : Config} {now : ℕ} (hc : Consistent s)
    (hmem : task ∈ s.tasks) (h : runTask cfg now s.db task = some (db, next)) {session : ℕ}
    (hnext : next.holds = some (userId, root, session)) :
    task.holds = some (userId, root, session) ∨
      task.creates = some (userId, root) ∧ session = s.db.nextToken := by
  cases task with
  | loginCreate userId root =>
    cases h
    cases hnext
    exact .inr ⟨rfl, rfl⟩
  | exchangeCreate token userId root =>
    cases h
    cases hnext
    exact .inr ⟨rfl, rfl⟩
  | exchangeSelect token userId root session =>
    simp only [runTask] at h
    split at h
    · rename_i old hold
      cases h
      cases hnext
      -- the row that is read again has the user that was read first
      have htoken : old.token = token := by simpa using find?_some hold
      obtain ⟨-, hrows⟩ := hc.presents _ hmem token userId root rfl
      rw [(hrows old (mem_of_find?_eq_some hold) htoken).1]
      exact .inl rfl
    · cases h
      cases hnext
  | _ =>
    simp only [runTask] at h
    repeat' split at h
    all_goals
      cases h
      try cases hnext

/-- What a request presents after a statement it presented before or has just read. -/
theorem runTask_presents {cfg : Config} {now : ℕ} (hc : Consistent s)
    (hmem : task ∈ s.tasks) (h : runTask cfg now s.db task = some (db, next))
    (hnext : next.presents = some (token, userId, root)) :
    task.presents = some (token, userId, root) ∨
      ∃ r ∈ s.db.refreshTokens, r.token = token ∧ r.userId = userId ∧ r.root = root := by
  cases task with
  | exchange token =>
    simp only [runTask] at h
    split at h
    · rename_i r hr
      have htoken : r.token = token := by simpa using find?_some hr
      have hrow := mem_of_find?_eq_some hr
      split at h
      · cases h
        cases hnext
      · split at h <;> cases h <;> cases hnext <;> exact .inr ⟨r, hrow, htoken, rfl, rfl⟩
    · cases h
      cases hnext
  | exchangeLinked token userId root session =>
    simp only [runTask] at h
    split at h <;> cases h <;> cases hnext
    exact .inl rfl
  | exchangeUser token userId root =>
    simp only [runTask] at h
    split at h <;> cases h <;> cases hnext
    exact .inl rfl
  | exchangeCreate token userId root =>
    cases h
    cases hnext
    exact .inl rfl
  | exchangeSelect token userId root session =>
    simp only [runTask] at h
    split at h
    · rename_i old hold
      cases h
      cases hnext
      have htoken : old.token = token := by simpa using find?_some hold
      obtain ⟨-, hrows⟩ := hc.presents _ hmem token userId root rfl
      have hold := mem_of_find?_eq_some hold
      exact .inr ⟨old, hold, htoken, rfl, (hrows old hold htoken).2⟩
    · cases h
      cases hnext
  | _ =>
    simp only [runTask] at h
    repeat' split at h
    all_goals
      cases h
      try cases hnext

/-- The tables stay consistent when they grow, with requests that hold and present what their
statements say. -/
theorem Consistent.of_grows {created : Option (String × ℕ)} {issued : Option (String × ℕ × ℕ)}
    (hc : Consistent s) (hg : Grows s.db t.db created issued)
    (holds : ∀ task ∈ t.tasks, ∀ userId root session,
      task.holds = some (userId, root, session) →
        (∃ old ∈ s.tasks, old.holds = some (userId, root, session)) ∨
          created = some (userId, root) ∧ session = s.db.nextToken ∧ session < t.db.nextToken)
    (presents : ∀ task ∈ t.tasks, ∀ token userId root,
      task.presents = some (token, userId, root) →
        (∃ old ∈ s.tasks, old.presents = some (token, userId, root)) ∨
          ∃ r ∈ s.db.refreshTokens, r.token = token ∧ r.userId = userId ∧ r.root = root) :
    Consistent t where
  session_lt := by
    intro x hx
    rcases hg.sessions x hx with ⟨y, hy, htoken, -, -⟩ | ⟨-, hlt, -⟩
    · exact htoken ▸ lt_of_lt_of_le (hc.session_lt y hy) hg.nextToken_le
    · exact hlt
  refresh_lt := by
    intro r hr
    rcases hg.refreshTokens r hr with ⟨q, hq, htoken, -⟩ | ⟨-, hlt, -⟩
    · exact htoken ▸ lt_of_lt_of_le (hc.refresh_lt q hq) hg.nextToken_le
    · exact hlt
  session_unique := by
    intro x hx y hy heq
    rcases hg.sessions x hx with ⟨x', hx', htx, hux, hrx⟩ | ⟨htx, -, hcx⟩ <;>
      rcases hg.sessions y hy with ⟨y', hy', hty, huy, hry⟩ | ⟨hty, -, hcy⟩
    · have := hc.session_unique x' hx' y' hy' (by rw [htx, hty, heq])
      rwa [hux, hrx, huy, hry] at this
    · have := hc.session_lt x' hx'
      omega
    · have := hc.session_lt y' hy'
      omega
    · rw [hcx] at hcy
      simpa using hcy
  refresh_unique := by
    intro r hr q hq heq
    rcases hg.refreshTokens r hr with ⟨r', hr', htr, hur, hrr, -⟩ | ⟨htr, -, -, _, -, hir⟩ <;>
      rcases hg.refreshTokens q hq with ⟨q', hq', htq, huq, hrq, -⟩ | ⟨htq, -, -, _, -, hiq⟩
    · have := hc.refresh_unique r' hr' q' hq' (by rw [htr, htq, heq])
      rwa [hur, hrr, huq, hrq] at this
    · have := hc.refresh_lt r' hr'
      omega
    · have := hc.refresh_lt q' hq'
      omega
    · rw [hir] at hiq
      simp only [some.injEq, Prod.mk.injEq] at hiq
      exact ⟨hiq.1, hiq.2.1⟩
  holds := by
    intro task htask userId root session hholds
    rcases holds task htask userId root session hholds with ⟨old, hold, hsame⟩ | ⟨hcr, hst, hlt⟩
    · obtain ⟨hlt, hrows⟩ := hc.holds old hold userId root session hsame
      refine ⟨lt_of_lt_of_le hlt hg.nextToken_le, fun x hx htoken => ?_⟩
      rcases hg.sessions x hx with ⟨y, hy, hty, huy, hry⟩ | ⟨hnew, -, -⟩
      · have := hrows y hy (hty.trans htoken)
        rwa [huy, hry] at this
      · omega
    · refine ⟨hlt, fun x hx htoken => ?_⟩
      rcases hg.sessions x hx with ⟨y, hy, hty, -, -⟩ | ⟨-, -, hcx⟩
      · have := hc.session_lt y hy
        omega
      · rw [hcr] at hcx
        cases hcx
        exact ⟨rfl, rfl⟩
  presents := by
    intro task htask token userId root hpresents
    have hrows : token < s.db.nextToken ∧ ∀ r ∈ s.db.refreshTokens, r.token = token →
        r.userId = userId ∧ r.root = root := by
      rcases presents task htask token userId root hpresents with
        ⟨old, hold, hsame⟩ | ⟨r, hr, htoken, huser, hroot⟩
      · exact hc.presents old hold token userId root hsame
      · refine ⟨htoken ▸ hc.refresh_lt r hr, fun q hq hq' => ?_⟩
        have := hc.refresh_unique q hq r hr (hq'.trans htoken.symm)
        rwa [huser, hroot] at this
    refine ⟨lt_of_lt_of_le hrows.1 hg.nextToken_le, fun r hr htoken => ?_⟩
    rcases hg.refreshTokens r hr with ⟨q, hq, htq, huq, hrq, -⟩ | ⟨hnew, -, -⟩
    · have := hrows.2 q hq (htq.trans htoken)
      rwa [huq, hrq] at this
    · omega

theorem holds_of_isRequest (h : task.isRequest = true) :
    task.holds = none ∧ task.presents = none := by
  cases task <;> first | exact ⟨rfl, rfl⟩ | cases h

/-- **Every action keeps the tokens consistent.** -/
theorem consistent_step {cfg : Config} {a : Action} (hc : Consistent s)
    (h : step cfg s a = some t) : Consistent t := by
  cases a with
  | request task =>
    obtain ⟨hrequest, rfl⟩ := step_request h
    obtain ⟨hholds, hpresents⟩ := holds_of_isRequest hrequest
    refine hc.of_grows (t := { s with tasks := s.tasks ++ [task] })
      (Grows.refl s.db none none) ?_ ?_
    · intro other hother userId root session hother'
      rcases mem_append.mp hother with hmem | hmem
      · exact .inl ⟨other, hmem, hother'⟩
      · rw [mem_singleton.mp hmem, hholds] at hother'
        cases hother'
    · intro other hother token userId root hother'
      rcases mem_append.mp hother with hmem | hmem
      · exact .inl ⟨other, hmem, hother'⟩
      · rw [mem_singleton.mp hmem, hpresents] at hother'
        cases hother'
  | run i now =>
    obtain ⟨task, db, next, htask, hrun, rfl⟩ := step_run h
    have hmem : task ∈ s.tasks := mem_of_getElem? htask
    have hgrows := runTask_grows hrun
    apply hc.of_grows hgrows
    · intro other hother userId root session hother'
      rcases mem_or_eq_of_mem_set hother with hother | rfl
      · exact .inl ⟨other, hother, hother'⟩
      · rcases runTask_holds hc hmem hrun hother' with hsame | ⟨hcreates, hst⟩
        · exact .inl ⟨task, hmem, hsame⟩
        · refine .inr ⟨hcreates, hst, ?_⟩
          show session < db.nextToken
          rw [hst, runTask_nextToken hrun hcreates]
          exact Nat.lt_succ_self _
    · intro other hother token userId root hother'
      rcases mem_or_eq_of_mem_set hother with hother | rfl
      · exact .inl ⟨other, hother, hother'⟩
      · rcases runTask_presents hc hmem hrun hother' with hsame | hrow
        · exact .inl ⟨task, hmem, hsame⟩
        · exact .inr hrow
  | changePassword token currentPassword newPassword =>
    obtain ⟨-, rfl⟩ := step_changePassword h
    exact hc.of_grows (t := { s with change := .auth token currentPassword newPassword })
      (Grows.refl s.db none none)
      (fun task htask _ _ _ hholds => .inl ⟨task, htask, hholds⟩)
      (fun task htask _ _ _ hpresents => .inl ⟨task, htask, hpresents⟩)
  | runChange now =>
    obtain ⟨db, next, hrun, rfl⟩ := step_runChange h
    exact hc.of_grows (runChange_grows hrun)
      (fun task htask _ _ _ hholds => .inl ⟨task, htask, hholds⟩)
      (fun task htask _ _ _ hpresents => .inl ⟨task, htask, hpresents⟩)

/-! ## Before the first request -/

/-- The tables before the requests of the run: tokens are primary keys and have been taken. -/
def Db.Started (db : Db) : Prop :=
  Consistent { db := db, tasks := [], change := .idle }

/-- One user, nobody logged in, and tokens that live as long as the run. -/
def oneUser : Db :=
  { users := [⟨"ana", "old"⟩], sessions := [], refreshTokens := [], nextToken := 0, nextRoot := 0 }

theorem oneUser_started : oneUser.Started where
  session_lt := by simp [oneUser]
  refresh_lt := by simp [oneUser]
  session_unique := by simp [oneUser]
  refresh_unique := by simp [oneUser]
  holds := by simp
  presents := by simp

def longLived : Config := { sessionTtl := 1000000, refreshTokenTtl := 1000000, userSessionMax := 10 }

/-- A login, which makes the session 0 and the refresh token 1. -/
def loginRun : List Action := [.request (.login "ana" "old"), .run 0 0, .run 0 0, .run 0 0]

end FestivalPlanner.Auth
