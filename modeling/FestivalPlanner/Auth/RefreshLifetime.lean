import FestivalPlanner.Auth.Sessions
import FestivalPlanner.Lib.InFlight
import FestivalPlanner.Lib.Keyed

/-!
# How long a refresh token lives

The logins, refreshes and exchanges of `Sessions` with the periodic cleanup, under a clock.
Nobody logs out or changes a password here, and no session is revoked.

* `validateRefreshToken` — `refreshTokens.validate` of `lib/db/stores/sessions.ts`;
* `step` — the machine, with the refresh tokens that were issued and those that were rotated;
* `Lives` — an issued token that was not rotated is accepted until it expires;
* `Spares` — no statement takes the session away that such a token is linked to;
* `lives_iff_spares` — the one holds throughout a run exactly when the other does: a token does not
  outlive its session, whose time to live is much shorter.
-/

namespace FestivalPlanner.Auth.RefreshLifetime

open List Option Keyed

variable (cfg : Config)

/-! ## Statements -/

/-- `refreshTokens.validate`: is the token accepted? -/
def validateRefreshToken (now : ℕ) (db : Db) (token : ℕ) : Bool :=
  match db.selectRefreshToken token with
  | none => false
  | some r =>
      !Db.refreshRefused now r &&
        match r.sessionToken with
        | some session => (db.selectSession session).isSome
        | none => true

/-- `sessions.deleteExpiredUserSessions` -/
def deleteExpiredUserSessions (now : ℕ) (db : Db) : Db :=
  { db with sessions := db.sessions.filter (fun x => now < x.createdAt + cfg.sessionTtl) }

/-- `refreshTokens.deleteExpired` -/
def deleteExpired (now : ℕ) (db : Db) : Db :=
  { db with refreshTokens := db.refreshTokens.filter (fun r => !Db.refreshRefused now r) }

/-- The tables with the session that `createUserSession` inserts. -/
def insertSession (now : ℕ) (userId : String) (root : ℕ) (db : Db) : Db :=
  { db with
    sessions := db.sessions ++ [{
      token := db.nextToken, userId := userId, createdAt := now, lastAccess := now, root := root }]
    nextToken := db.nextToken + 1 }

/-- The sessions over the limit that `createUserSession` evicts. -/
def evicted (now : ℕ) (userId : String) (root : ℕ) (db : Db) : List ℕ :=
  let tokens := (insertSession now userId root db).userSessions userId
  tokens.take (tokens.length - cfg.userSessionMax)

/-- The refresh token that a statement inserts. -/
def issued (now : ℕ) (db : Db) (userId : String) (sessionToken root : ℕ) : RefreshToken :=
  { token := db.nextToken, userId := userId, sessionToken := some sessionToken,
    expiresAt := now + cfg.refreshTokenTtl, root := root }

/-! ## The machine -/

/-- The tables, the requests and the clock.  No statement reads what follows: the refresh tokens
that were issued, as they were issued, and those that were rotated. -/
structure State where
  db : Db
  tasks : List Task
  clock : ℕ
  issued : List RefreshToken
  rotated : List ℕ
  deriving DecidableEq

/-- A request arrives or executes its next statement, or the cleanup deletes what has expired. -/
inductive Action where
  | request (task : Task)
  | run (i now : ℕ)
  | cleanupSessions (now : ℕ)
  | cleanupRefreshTokens (now : ℕ)
  deriving DecidableEq

/-- The refresh tokens that were issued, after a statement. -/
def issuedAfter (now : ℕ) (db : Db) (tokens : List RefreshToken) (task : Task) :
    List RefreshToken :=
  match task.issues with
  | some (userId, root, session) => tokens ++ [issued cfg now db userId session root]
  | none => tokens

/-- The refresh tokens that were rotated, after a statement. -/
def rotatedAfter (tokens : List ℕ) : Task → List ℕ
  | .exchangeRotate token _ _ _ => tokens ++ [token]
  | _ => tokens

/-- One action. -/
@[grind =] def step (s : State) : Action → Option State
  | .request task => if task.isRequest then some { s with tasks := s.tasks ++ [task] } else none
  | .run i now =>
      if s.clock ≤ now then do
        let task ← s.tasks[i]?
        let (db, next) ← runTask cfg now s.db task
        return {
          db := db
          tasks := s.tasks.set i next
          clock := now
          issued := issuedAfter cfg now s.db s.issued task
          rotated := rotatedAfter s.rotated task }
      else none
  | .cleanupSessions now =>
      if s.clock ≤ now then
        some { s with db := deleteExpiredUserSessions cfg now s.db, clock := now }
      else none
  | .cleanupRefreshTokens now =>
      if s.clock ≤ now then some { s with db := deleteExpired now s.db, clock := now } else none

/-- Users, and nobody logged in. -/
def start (users : List User) (clock : ℕ) : State :=
  { db := { users := users, sessions := [], refreshTokens := [], nextToken := 0, nextRoot := 0 }
    tasks := [], clock := clock, issued := [], rotated := [] }

/-! ## The property and the condition -/

/-- A refresh token that was issued and not rotated is accepted at every time from now on that is
before it expires. -/
def Lives (s : State) : Prop :=
  ∀ r ∈ s.issued, r.token ∉ s.rotated → ∀ now, s.clock ≤ now → now < r.expiresAt →
    validateRefreshToken now s.db r.token = true

/-- An issued token that was not rotated and has not expired is linked to the session. -/
def Needed (s : State) (now session : ℕ) : Prop :=
  ∃ r ∈ s.issued, r.token ∉ s.rotated ∧ now < r.expiresAt ∧ r.sessionToken = some session

/-- The sessions that the next statement of a request deletes: the one that `POST /refresh`
replaces, the one that is read after its time to live, and those over the limit. -/
def removes (now : ℕ) (db : Db) : Task → List ℕ
  | .refreshDelete token _ _ | .dropSession token => [token]
  | .loginCreate userId root | .refreshCreate userId root | .exchangeCreate _ userId root =>
      evicted cfg now userId root db
  | _ => []

/-- The statement deletes no session that a token is linked to, and issues a token only for a
session that is there. -/
def SparesAt (s : State) (now : ℕ) (task : Task) : Prop :=
  (∀ session ∈ removes cfg now s.db task, ¬ Needed s now session) ∧
    ∀ issue ∈ task.issues, 0 < cfg.refreshTokenTtl → (s.db.selectSession issue.2.2).isSome = true

/-- The condition on one action; the cleanup finds the sessions that tokens are linked to within
their time to live. -/
def Spares (s : State) : Action → Prop
  | .request _ => True
  | .run i now => ∀ task ∈ s.tasks[i]?, SparesAt cfg s now task
  | .cleanupSessions now => ∀ r ∈ s.issued, r.token ∉ s.rotated → now < r.expiresAt →
      ∃ x ∈ s.db.sessions, r.sessionToken = some x.token ∧ now < x.createdAt + cfg.sessionTtl
  | .cleanupRefreshTokens _ => True

instance (s : State) (now session : ℕ) : Decidable (Needed s now session) :=
  inferInstanceAs (Decidable (∃ r ∈ s.issued, _))

instance (s : State) (now : ℕ) (task : Task) : Decidable (SparesAt cfg s now task) :=
  inferInstanceAs (Decidable (_ ∧ _))

instance (s : State) : ∀ a, Decidable (Spares cfg s a) := fun a => by
  unfold Spares
  split <;> infer_instance

/-! ## What a statement does to the tables -/

variable {cfg} {s t : State} {now : ℕ} {db db' : Db} {task next : Task}

variable {x root token session i : ℕ} {tokens : List ℕ} {userId : String} {r : RefreshToken}

theorem selectSession_isSome :
    (db.selectSession x).isSome = true ↔ ∃ y ∈ db.sessions, y.token = x := by
  simp [Db.selectSession, find?_isSome]

/-- The refresh tokens after a statement. -/
def rowsAfter (cfg : Config) (now : ℕ) (db : Db) : Task → List RefreshToken
  | .dropRefreshToken token => db.refreshTokens.filter (fun r => r.token ≠ token)
  | .loginIssue userId root session => db.refreshTokens ++ [issued cfg now db userId session root]
  | .exchangeRotate token userId root session =>
      db.refreshTokens.map (fun r =>
        if r.token = token then { r with revoked := true, rotatedAt := some now } else r) ++
        [issued cfg now db userId session root]
  | _ => db.refreshTokens

theorem runTask_refreshTokens (h : runTask cfg now db task = some (db', next)) :
    db'.refreshTokens = rowsAfter cfg now db task := by
  cases task <;> simp only [runTask] at h <;> repeat' split at h
  all_goals first
    | (cases h; done)
    | (obtain ⟨rfl, -⟩ := Prod.mk.inj (some.inj h); rfl)

theorem createUserSession_eq (userId : String) (root : ℕ) :
    db.createUserSession cfg now userId root =
      (insertSession now userId root db).deleteSessions (evicted cfg now userId root db) :=
  rfl

theorem selectSession_deleteSessions (hx : (db.selectSession x).isSome = true) :
    ((db.deleteSessions tokens).selectSession x).isSome = true ↔ x ∉ tokens := by
  rw [selectSession_isSome] at hx ⊢
  obtain ⟨y, hy, rfl⟩ := hx
  constructor
  · rintro ⟨z, hz, heq⟩
    have hnot := of_decide_eq_true (mem_filter.mp hz).2
    rwa [heq] at hnot
  · intro hnot
    exact ⟨y, mem_filter.mpr ⟨hy, decide_eq_true hnot⟩, rfl⟩

theorem selectSession_insertSession (hx : (db.selectSession x).isSome = true) :
    ((insertSession now userId root db).selectSession x).isSome = true := by
  rw [selectSession_isSome] at hx ⊢
  obtain ⟨y, hy, rfl⟩ := hx
  exact ⟨y, mem_append_left _ hy, rfl⟩

theorem selectSession_touchSession (hx : (db.selectSession x).isSome = true) :
    ((db.touchSession now token).selectSession x).isSome = true := by
  rw [selectSession_isSome] at hx ⊢
  obtain ⟨y, hy, rfl⟩ := hx
  refine ⟨_, List.mem_map.mpr ⟨y, hy, rfl⟩, ?_⟩
  split <;> rfl

/-- A session is there after a statement unless the statement removes it. -/
theorem runTask_selectSession (h : runTask cfg now db task = some (db', next))
    (hx : (db.selectSession x).isSome = true) :
    (db'.selectSession x).isSome = true ↔ x ∉ removes cfg now db task := by
  have hcreate : ∀ userId root,
      ((db.createUserSession cfg now userId root).selectSession x).isSome = true ↔
        x ∉ evicted cfg now userId root db := by
    intro userId root
    rw [createUserSession_eq]
    exact selectSession_deleteSessions (selectSession_insertSession hx)
  cases task with
  | loginCreate userId root =>
    cases h
    exact hcreate userId root
  | refreshCreate userId root =>
    cases h
    exact hcreate userId root
  | exchangeCreate token userId root =>
    cases h
    exact hcreate userId root
  | refreshDelete token userId root =>
    cases h
    exact selectSession_deleteSessions hx
  | dropSession token =>
    cases h
    exact selectSession_deleteSessions hx
  | refreshTouch token userId root =>
    cases h
    exact iff_of_true (selectSession_touchSession hx) not_mem_nil
  | _ =>
    simp only [runTask] at h
    repeat' split at h
    all_goals
      cases h
      try exact iff_of_true hx not_mem_nil

/-- A token is dropped when it is refused, or when its session is not there. -/
theorem runTask_drops (h : runTask cfg now db task = some (db', .dropRefreshToken token)) :
    (task = .exchange token ∧
      ∃ r, db.selectRefreshToken token = some r ∧ Db.refreshRefused now r = true) ∨
    ∃ userId root session, task = .exchangeLinked token userId root session ∧
      db.selectSession session = none := by
  cases task with
  | exchange token =>
    simp only [runTask] at h
    repeat' split at h
    · cases h
      exact .inl ⟨rfl, _, ‹_›, ‹_›⟩
    all_goals cases h
  | exchangeLinked token userId root session =>
    simp only [runTask] at h
    split at h <;> cases h
    exact .inr ⟨userId, root, session, rfl, ‹_›⟩
  | _ =>
    simp only [runTask] at h
    repeat' split at h
    all_goals cases h

theorem runTask_links
    (h : runTask cfg now db task = some (db', .exchangeLinked token userId root session)) :
    task = .exchange token ∧
      ∃ r, db.selectRefreshToken token = some r ∧ r.sessionToken = some session := by
  cases task with
  | exchange token =>
    simp only [runTask] at h
    repeat' split at h
    all_goals cases h
    exact ⟨rfl, _, ‹_›, ‹_›⟩
  | _ =>
    simp only [runTask] at h
    repeat' split at h
    all_goals cases h

/-! ## The steps -/

theorem step_run (h : step cfg s (.run i now) = some t) :
    s.clock ≤ now ∧ ∃ task db next, s.tasks[i]? = some task ∧
      runTask cfg now s.db task = some (db, next) ∧
      t = {
        db := db
        tasks := s.tasks.set i next
        clock := now
        issued := issuedAfter cfg now s.db s.issued task
        rotated := rotatedAfter s.rotated task } := by
  simp only [step, ite_none_right_eq_some, bind_eq_bind, bind_eq_some_iff] at h
  obtain ⟨hclock, task, htask, ⟨db, next⟩, hrun, ht⟩ := h
  exact ⟨hclock, task, db, next, htask, hrun, (some.inj ht).symm⟩

theorem step_request (h : step cfg s (.request task) = some t) :
    task.isRequest = true ∧ t = { s with tasks := s.tasks ++ [task] } := by
  simp only [step, ite_none_right_eq_some] at h
  exact ⟨h.1, (some.inj h.2).symm⟩

theorem step_cleanupSessions (h : step cfg s (.cleanupSessions now) = some t) :
    s.clock ≤ now ∧ t = { s with db := deleteExpiredUserSessions cfg now s.db, clock := now } := by
  simp only [step, ite_none_right_eq_some] at h
  exact ⟨h.1, (some.inj h.2).symm⟩

theorem step_cleanupRefreshTokens (h : step cfg s (.cleanupRefreshTokens now) = some t) :
    s.clock ≤ now ∧ t = { s with db := deleteExpired now s.db, clock := now } := by
  simp only [step, ite_none_right_eq_some] at h
  exact ⟨h.1, (some.inj h.2).symm⟩

theorem mem_issuedAfter (h : r ∈ issuedAfter cfg now db s.issued task) :
    r ∈ s.issued ∨ ∃ userId root session, task.issues = some (userId, root, session) ∧
      r = issued cfg now db userId session root := by
  unfold issuedAfter at h
  split at h
  · rcases mem_append.mp h with h | h
    · exact .inl h
    · exact .inr ⟨_, _, _, ‹_›, mem_singleton.mp h⟩
  · exact .inl h

theorem mem_issuedAfter_of_mem (h : r ∈ s.issued) : r ∈ issuedAfter cfg now db s.issued task := by
  unfold issuedAfter
  split
  · exact mem_append_left _ h
  · exact h

theorem mem_rotatedAfter (h : token ∈ s.rotated) : token ∈ rotatedAfter s.rotated task := by
  unfold rotatedAfter
  split
  · exact mem_append_left _ h
  · exact h

/-! ## The invariant -/

/-- The state of `Sessions` that is a part of this one. -/
def State.base (s : State) : Auth.State := { db := s.db, tasks := s.tasks, change := .idle }

/-- What the steps keep as long as the tokens live. -/
structure Inv (s : State) : Prop where
  base : Consistent s.base
  issued_lt : ∀ r ∈ s.issued, r.token < s.db.nextToken
  issued_unique : ∀ r ∈ s.issued, ∀ q ∈ s.issued, r.token = q.token → r = q
  issued_fresh : ∀ r ∈ s.issued, r.revoked = false ∧ ∃ session, r.sessionToken = some session
  rotated_lt : ∀ token ∈ s.rotated, token < s.db.nextToken
  rows_unique : UniqueKeys RefreshToken.token s.db.refreshTokens
  rows_issued : ∀ q ∈ s.db.refreshTokens, ∃ r ∈ s.issued, r.token = q.token ∧
    r.sessionToken = q.sessionToken
  stored : ∀ r ∈ s.issued, r.token ∉ s.rotated → s.clock < r.expiresAt → r ∈ s.db.refreshTokens
  drops : ∀ token, .dropRefreshToken token ∈ s.tasks → token < s.db.nextToken ∧
    ∀ r ∈ s.issued, r.token = token → token ∈ s.rotated ∨ r.expiresAt ≤ s.clock
  links : ∀ token userId root session, .exchangeLinked token userId root session ∈ s.tasks →
    ∀ r ∈ s.issued, r.token = token → r.sessionToken = some session

theorem Inv.select (hs : Inv s) (hr : r ∈ s.db.refreshTokens) :
    s.db.selectRefreshToken r.token = some r := by
  cases hsel : s.db.selectRefreshToken r.token with
  | none =>
    have := find?_eq_none.mp hsel r hr
    simp at this
  | some q =>
    have htoken : q.token = r.token := by simpa using find?_some hsel
    rw [hs.rows_unique.eq_of_mem (mem_of_find?_eq_some hsel) hr htoken]

/-- A token that is stored as it was issued is accepted exactly when its session is there. -/
theorem Inv.validate_iff (hs : Inv s) (hr : r ∈ s.issued) (hrotated : r.token ∉ s.rotated)
    (hclock : s.clock ≤ now) (hnow : now < r.expiresAt) (hsession : r.sessionToken = some session) :
    validateRefreshToken now s.db r.token = true ↔ (s.db.selectSession session).isSome = true := by
  have hstored := hs.stored r hr hrotated (lt_of_le_of_lt hclock hnow)
  have hrefused : Db.refreshRefused now r = false := by
    simp only [Db.refreshRefused, (hs.issued_fresh r hr).1, Bool.false_or, decide_eq_false_iff_not]
    omega
  simp [validateRefreshToken, hs.select hstored, hrefused, hsession]

theorem inv_start (users : List User) (clock : ℕ) : Inv (start users clock) where
  base := {
    session_lt := fun _ h => nomatch h
    refresh_lt := fun _ h => nomatch h
    session_unique := fun _ h => nomatch h
    refresh_unique := fun _ h => nomatch h
    holds := fun _ h => nomatch h
    presents := fun _ h => nomatch h }
  issued_lt := fun _ h => nomatch h
  issued_unique := fun _ h => nomatch h
  issued_fresh := fun _ h => nomatch h
  rotated_lt := fun _ h => nomatch h
  rows_unique := nodup_nil
  rows_issued := fun _ h => nomatch h
  stored := fun _ h => nomatch h
  drops := fun _ h => nomatch h
  links := fun _ _ _ _ h => nomatch h

/-- A request that arrives keeps the invariant. -/
theorem Inv.request (hs : Inv s) (h : step cfg s (.request task) = some t) : Inv t := by
  obtain ⟨hrequest, rfl⟩ := step_request h
  refine { hs with base := ?_, drops := ?_, links := ?_ }
  · have hstep : Auth.step cfg s.base (.request task) = some
        { s.base with tasks := s.tasks ++ [task] } := by
      simp [Auth.step, hrequest, State.base]
    exact consistent_step hs.base hstep
  · intro token hmem
    rcases mem_append.mp hmem with hmem | hmem
    · exact hs.drops token hmem
    · rw [← mem_singleton.mp hmem] at hrequest
      cases hrequest
  · intro token userId root session hmem
    rcases mem_append.mp hmem with hmem | hmem
    · exact hs.links token userId root session hmem
    · rw [← mem_singleton.mp hmem] at hrequest
      cases hrequest

/-- The rows after a statement that keep what they were issued as. -/
theorem mem_rowsAfter {q : RefreshToken} (h : q ∈ rowsAfter cfg now db task) :
    (∃ r ∈ db.refreshTokens, r.token = q.token ∧ r.sessionToken = q.sessionToken) ∨
    ∃ userId root session, task.issues = some (userId, root, session) ∧
      q = issued cfg now db userId session root := by
  cases task with
  | dropRefreshToken token => exact .inl ⟨q, mem_of_mem_filter h, rfl, rfl⟩
  | loginIssue userId root session =>
    rcases mem_append.mp h with h | h
    · exact .inl ⟨q, h, rfl, rfl⟩
    · exact .inr ⟨userId, root, session, rfl, mem_singleton.mp h⟩
  | exchangeRotate token userId root session =>
    rcases mem_append.mp h with h | h
    · obtain ⟨r, hr, rfl⟩ := List.mem_map.mp h
      refine .inl ⟨r, hr, ?_, ?_⟩ <;> split <;> rfl
    · exact .inr ⟨userId, root, session, rfl, mem_singleton.mp h⟩
  | _ => exact .inl ⟨q, h, rfl, rfl⟩

/-- A row stays as it was issued unless it is dropped or rotated. -/
theorem mem_rowsAfter_of_mem (h : r ∈ db.refreshTokens) (hdrop : task ≠ .dropRefreshToken r.token)
    (hrotate : r.token ∉ rotatedAfter tokens task) : r ∈ rowsAfter cfg now db task := by
  cases task with
  | dropRefreshToken token =>
    refine mem_filter.mpr ⟨h, decide_eq_true ?_⟩
    rintro rfl
    exact hdrop rfl
  | loginIssue userId root session => exact mem_append_left _ h
  | exchangeRotate token userId root session =>
    have hne : r.token ≠ token := by
      rintro rfl
      exact hrotate (mem_append_right _ (mem_singleton_self _))
    exact mem_append_left _ (List.mem_map.mpr ⟨r, h, if_neg hne⟩)
  | _ => exact h

theorem issued_mem_rowsAfter (h : task.issues = some (userId, root, session)) :
    issued cfg now db userId session root ∈ rowsAfter cfg now db task := by
  cases task with
  | loginIssue userId root session =>
    cases h
    exact mem_append_right _ (mem_singleton_self _)
  | exchangeRotate token userId root session =>
    cases h
    exact mem_append_right _ (mem_singleton_self _)
  | _ => cases h

theorem uniqueKeys_rowsAfter (h : UniqueKeys RefreshToken.token db.refreshTokens)
    (hlt : ∀ r ∈ db.refreshTokens, r.token < db.nextToken) :
    UniqueKeys RefreshToken.token (rowsAfter cfg now db task) := by
  cases task with
  | dropRefreshToken token => exact h.filter _
  | loginIssue userId root session => exact h.append_singleton fun r hr => (hlt r hr).ne
  | exchangeRotate token userId root session =>
    have hmap : (db.refreshTokens.map (fun r =>
        if r.token = token then { r with revoked := true, rotatedAt := some now } else r)).map
        RefreshToken.token = db.refreshTokens.map RefreshToken.token := by
      rw [List.map_map]
      refine map_congr_left fun r _ => ?_
      simp only [Function.comp]
      split <;> rfl
    refine (h.of_map_eq hmap).append_singleton fun r hr => ?_
    obtain ⟨q, hq, rfl⟩ := List.mem_map.mp hr
    have := (hlt q hq).ne
    split <;> exact this
  | _ => exact h

theorem runTask_nextToken_of_issues {issue : String × ℕ × ℕ}
    (h : runTask cfg now db task = some (db', next)) (hissues : task.issues = some issue) :
    db'.nextToken = db.nextToken + 1 := by
  cases task <;> first | (cases hissues; done) | (cases h; rfl)

theorem mem_rotatedAfter_iff :
    token ∈ rotatedAfter tokens task ↔ token ∈ tokens ∨
      ∃ userId root session, task = .exchangeRotate token userId root session := by
  unfold rotatedAfter
  split
  · rename_i old userId root session
    simp only [mem_append, mem_singleton, Task.exchangeRotate.injEq]
    constructor
    · rintro (h | rfl)
      · exact .inl h
      · exact .inr ⟨userId, root, session, rfl, rfl, rfl, rfl⟩
    · rintro (h | ⟨_, _, _, rfl, -⟩)
      · exact .inl h
      · exact .inr rfl
  · rename_i hne
    constructor
    · exact .inl
    · rintro (h | ⟨userId, root, session, rfl⟩)
      · exact h
      · exact absurd rfl (hne token userId root session)

/-- A token that a request drops is refused, if it was issued at all. -/
theorem Inv.drops_of_run {db : Db} (hs : Inv s) (hlives : Lives s) (hclock : s.clock ≤ now)
    (hmem : task ∈ s.tasks)
    (hrun : runTask cfg now s.db task = some (db, .dropRefreshToken token)) :
    token < s.db.nextToken ∧
      ∀ r ∈ s.issued, r.token = token → token ∈ s.rotated ∨ r.expiresAt ≤ now := by
  rcases runTask_drops hrun with ⟨rfl, q, hq, hrefused⟩ | ⟨userId, root, session, rfl, hnone⟩
  · have hqtoken : q.token = token := by simpa using find?_some hq
    refine ⟨hqtoken ▸ hs.base.refresh_lt q (mem_of_find?_eq_some hq), ?_⟩
    rintro r hr rfl
    by_contra hcon
    push Not at hcon
    have hstored := hs.stored r hr hcon.1 (by omega)
    rw [hs.select hstored] at hq
    obtain rfl := some.inj hq
    simp only [Db.refreshRefused, (hs.issued_fresh r hr).1, Bool.false_or,
      decide_eq_true_eq] at hrefused
    omega
  · refine ⟨(hs.base.presents _ hmem token userId root rfl).1, ?_⟩
    rintro r hr rfl
    by_contra hcon
    push Not at hcon
    have hsession := hs.links r.token userId root session hmem r hr rfl
    have haccepted := hlives r hr hcon.1 now hclock hcon.2
    rw [hs.validate_iff hr hcon.1 hclock hcon.2 hsession, hnone] at haccepted
    cases haccepted

/-- A request looks for the session that its token was issued with. -/
theorem Inv.links_of_run {db : Db} (hs : Inv s)
    (hrun : runTask cfg now s.db task = some (db, .exchangeLinked token userId root session)) :
    token < s.db.nextToken ∧ ∀ r ∈ s.issued, r.token = token → r.sessionToken = some session := by
  obtain ⟨rfl, q, hq, hsession⟩ := runTask_links hrun
  have hqtoken : q.token = token := by simpa using find?_some hq
  have hqmem := mem_of_find?_eq_some hq
  refine ⟨hqtoken ▸ hs.base.refresh_lt q hqmem, fun r hr heq => ?_⟩
  obtain ⟨r', hr', htoken, hsame⟩ := hs.rows_issued q hqmem
  rw [hs.issued_unique r hr r' hr' (heq.trans (htoken.trans hqtoken).symm), hsame, hsession]

/-- The next statement of a request keeps the invariant as long as the tokens live. -/
theorem Inv.run (hs : Inv s) (hlives : Lives s) (h : step cfg s (.run i now) = some t) : Inv t := by
  obtain ⟨hclock, task, db, next, htask, hrun, rfl⟩ := step_run h
  have hmem : task ∈ s.tasks := mem_of_getElem? htask
  have hrows := runTask_refreshTokens hrun
  have hgrows := (runTask_grows hrun).nextToken_le
  have hlt : ∀ r ∈ issuedAfter cfg now s.db s.issued task, r.token < db.nextToken := by
    intro r hr
    rcases mem_issuedAfter hr with hr | ⟨userId, root, session, hissues, rfl⟩
    · exact lt_of_lt_of_le (hs.issued_lt r hr) hgrows
    · rw [runTask_nextToken_of_issues hrun hissues]
      exact Nat.lt_succ_self _
  refine ⟨?_, hlt, ?_, ?_, ?_, ?_, ?_, ?_, ?_, ?_⟩
  · have hstep : Auth.step cfg s.base (.run i now) =
        some { s.base with db := db, tasks := s.tasks.set i next } := by
      simp [Auth.step, State.base, htask, hrun]
    exact consistent_step hs.base hstep
  · intro r hr q hq heq
    rcases mem_issuedAfter hr with hr | ⟨userId, root, session, hissues, rfl⟩ <;>
      rcases mem_issuedAfter hq with hq | ⟨userId', root', session', hissues', rfl⟩
    · exact hs.issued_unique r hr q hq heq
    · exact absurd heq (hs.issued_lt r hr).ne
    · exact absurd heq.symm (hs.issued_lt q hq).ne
    · rw [hissues] at hissues'
      cases hissues'
      rfl
  · intro r hr
    rcases mem_issuedAfter hr with hr | ⟨userId, root, session, hissues, rfl⟩
    · exact hs.issued_fresh r hr
    · exact ⟨rfl, session, rfl⟩
  · intro token htoken
    rcases mem_rotatedAfter_iff.mp htoken with htoken | ⟨userId, root, session, rfl⟩
    · exact lt_of_lt_of_le (hs.rotated_lt token htoken) hgrows
    · exact lt_of_lt_of_le (hs.base.presents _ hmem token userId root rfl).1 hgrows
  · show UniqueKeys _ db.refreshTokens
    rw [hrows]
    exact uniqueKeys_rowsAfter hs.rows_unique hs.base.refresh_lt
  · show ∀ q ∈ db.refreshTokens, _
    rw [hrows]
    intro q hq
    rcases mem_rowsAfter hq with ⟨r, hr, htoken, hsession⟩ | ⟨userId, root, session, hissues, rfl⟩
    · obtain ⟨r', hr', htoken', hsession'⟩ := hs.rows_issued r hr
      exact ⟨r', mem_issuedAfter_of_mem hr', htoken'.trans htoken, hsession'.trans hsession⟩
    · refine ⟨_, ?_, rfl, rfl⟩
      simp only [issuedAfter, hissues]
      exact mem_append_right _ (mem_singleton_self _)
  · intro r hr hrotated hexpires
    show r ∈ db.refreshTokens
    rw [hrows]
    rcases mem_issuedAfter hr with hr | ⟨userId, root, session, hissues, rfl⟩
    · have hold : r.token ∉ s.rotated := fun hin => hrotated (mem_rotatedAfter hin)
      refine mem_rowsAfter_of_mem (hs.stored r hr hold (lt_of_le_of_lt hclock hexpires)) ?_ hrotated
      rintro rfl
      rcases (hs.drops _ hmem).2 r hr rfl with hin | hle
      · exact hold hin
      · exact absurd hexpires (by show ¬ now < r.expiresAt; omega)
    · exact issued_mem_rowsAfter hissues
  · intro token hdrop
    have hold : token < s.db.nextToken ∧
        ∀ r ∈ s.issued, r.token = token → token ∈ s.rotated ∨ r.expiresAt ≤ now := by
      rcases mem_or_eq_of_mem_set hdrop with hdrop | rfl
      · obtain ⟨hlt, hdead⟩ := hs.drops token hdrop
        exact ⟨hlt, fun r hr heq => (hdead r hr heq).imp_right fun hle => le_trans hle hclock⟩
      · exact hs.drops_of_run hlives hclock hmem hrun
    refine ⟨lt_of_lt_of_le hold.1 hgrows, fun r hr heq => ?_⟩
    rcases mem_issuedAfter hr with hr | ⟨userId, root, session, hissues, rfl⟩
    · exact (hold.2 r hr heq).imp_left mem_rotatedAfter
    · exact absurd heq hold.1.ne'
  · intro token userId root session hlink
    have hold : token < s.db.nextToken ∧
        ∀ r ∈ s.issued, r.token = token → r.sessionToken = some session := by
      rcases mem_or_eq_of_mem_set hlink with hlink | rfl
      · exact ⟨(hs.base.presents _ hlink token userId root rfl).1,
          hs.links token userId root session hlink⟩
      · exact hs.links_of_run hrun
    intro r hr heq
    rcases mem_issuedAfter hr with hr | ⟨userId', root', session', hissues, rfl⟩
    · exact hold.2 r hr heq
    · exact absurd heq hold.1.ne'

theorem grows_deleteExpiredUserSessions :
    Grows db (deleteExpiredUserSessions cfg now db) none none :=
  { Grows.refl db none none with
    sessions := fun x hx => .inl ⟨x, mem_of_mem_filter hx, rfl, rfl, rfl⟩ }

theorem grows_deleteExpired : Grows db (deleteExpired now db) none none :=
  { Grows.refl db none none with
    refreshTokens := fun r hr =>
      Or.inl ⟨r, mem_of_mem_filter hr, rfl, rfl, rfl, rfl, id, id, .inl⟩ }

/-- The tables stay consistent when the cleanup deletes from them. -/
theorem Inv.base_of_grows (hs : Inv s) (hg : Grows s.db db none none) :
    Consistent { s.base with db := db } :=
  hs.base.of_grows (t := { s.base with db := db }) hg
    (fun task htask _ _ _ hholds => .inl ⟨task, htask, hholds⟩)
    (fun task htask _ _ _ hpresents => .inl ⟨task, htask, hpresents⟩)

theorem Inv.cleanupSessions (hs : Inv s) (h : step cfg s (.cleanupSessions now) = some t) :
    Inv t := by
  obtain ⟨hclock, rfl⟩ := step_cleanupSessions h
  refine { hs with base := ?_, stored := ?_, drops := ?_ }
  · exact hs.base_of_grows grows_deleteExpiredUserSessions
  · intro r hr hrotated hexpires
    exact hs.stored r hr hrotated (lt_of_le_of_lt hclock hexpires)
  · intro token hdrop
    obtain ⟨hlt, hdead⟩ := hs.drops token hdrop
    exact ⟨hlt, fun r hr heq => (hdead r hr heq).imp_right fun hle => le_trans hle hclock⟩

theorem Inv.cleanupRefreshTokens (hs : Inv s) (h : step cfg s (.cleanupRefreshTokens now) = some t) :
    Inv t := by
  obtain ⟨hclock, rfl⟩ := step_cleanupRefreshTokens h
  refine { hs with
    base := ?_, rows_unique := ?_, rows_issued := ?_, stored := ?_, drops := ?_ }
  · exact hs.base_of_grows grows_deleteExpired
  · exact hs.rows_unique.filter _
  · intro q hq
    exact hs.rows_issued q (mem_of_mem_filter hq)
  · intro r hr hrotated hexpires
    have hstored := hs.stored r hr hrotated (lt_of_le_of_lt hclock hexpires)
    refine mem_filter.mpr ⟨hstored, ?_⟩
    have hlate : ¬ r.expiresAt < now := by
      have : now < r.expiresAt := hexpires
      omega
    simp [Db.refreshRefused, (hs.issued_fresh r hr).1, hlate]
  · intro token hdrop
    obtain ⟨hlt, hdead⟩ := hs.drops token hdrop
    exact ⟨hlt, fun r hr heq => (hdead r hr heq).imp_right fun hle => le_trans hle hclock⟩

/-- **Every action keeps the invariant as long as the tokens live.** -/
theorem inv_step {a : Action} (hs : Inv s) (hlives : Lives s) (h : step cfg s a = some t) :
    Inv t := by
  cases a with
  | request task => exact hs.request h
  | run i now => exact hs.run hlives h
  | cleanupSessions now => exact hs.cleanupSessions h
  | cleanupRefreshTokens now => exact hs.cleanupRefreshTokens h

/-! ## Tokens live with their sessions -/

/-- The sessions of the tokens that live are there. -/
def Linked (s : State) : Prop :=
  ∀ session, Needed s s.clock session → (s.db.selectSession session).isSome = true

theorem lives_iff_linked (hs : Inv s) : Lives s ↔ Linked s := by
  constructor
  · rintro hlives session ⟨r, hr, hrotated, hnow, hsession⟩
    exact (hs.validate_iff hr hrotated le_rfl hnow hsession).mp (hlives r hr hrotated _ le_rfl hnow)
  · intro hlinked r hr hrotated now hclock hnow
    obtain ⟨-, session, hsession⟩ := hs.issued_fresh r hr
    exact (hs.validate_iff hr hrotated hclock hnow hsession).mpr
      (hlinked session ⟨r, hr, hrotated, lt_of_le_of_lt hclock hnow, hsession⟩)

theorem Needed.mono {now' : ℕ} (h : Needed s now' session) (hle : now ≤ now') :
    Needed s now session := by
  obtain ⟨r, hr, hrotated, hnow, hsession⟩ := h
  exact ⟨r, hr, hrotated, lt_of_le_of_lt hle hnow, hsession⟩

/-- A statement that issues a token leaves the sessions as they are. -/
theorem runTask_sessions_of_issues {issue : String × ℕ × ℕ}
    (h : runTask cfg now db task = some (db', next)) (hissues : task.issues = some issue) :
    db'.sessions = db.sessions := by
  cases task <;> first | (cases hissues; done) | (cases h; rfl)

/-- The next statement of a request keeps the sessions of the tokens exactly when it spares
them. -/
theorem linked_run (hs : Inv s) (hlinked : Linked s) (h : step cfg s (.run i now) = some t) :
    Linked t ↔ Spares cfg s (.run i now) := by
  obtain ⟨hclock, task, db, next, htask, hrun, rfl⟩ := step_run h
  have hmem : task ∈ s.tasks := mem_of_getElem? htask
  constructor
  · intro hlinked' task' htask'
    obtain rfl := some.inj (htask.symm.trans htask')
    refine ⟨?_, ?_⟩
    · rintro session hremoved ⟨r, hr, hrotated, hnow, hsession⟩
      have hthere := hlinked session ⟨r, hr, hrotated, lt_of_le_of_lt hclock hnow, hsession⟩
      refine (runTask_selectSession hrun hthere).mp (hlinked' session
        ⟨r, mem_issuedAfter_of_mem hr, ?_, hnow, hsession⟩) hremoved
      intro hin
      rcases mem_rotatedAfter_iff.mp hin with hin | ⟨userId, root, session', rfl⟩
      · exact hrotated hin
      · cases hremoved
    · rintro ⟨userId, root, session⟩ hissues httl
      have hthere := hlinked' session
        ⟨issued cfg now s.db userId session root, ?_, ?_, Nat.lt_add_of_pos_right httl, rfl⟩
      · rw [selectSession_isSome] at hthere ⊢
        exact (runTask_sessions_of_issues hrun hissues) ▸ hthere
      · simp only [issuedAfter, mem_def.mp hissues]
        exact mem_append_right _ (mem_singleton_self _)
      · intro hin
        rcases mem_rotatedAfter_iff.mp hin with hin | ⟨userId', root', session', rfl⟩
        · exact absurd rfl (hs.rotated_lt _ hin).ne
        · exact absurd rfl (hs.base.presents _ hmem _ userId' root' rfl).1.ne
  · rintro hspares session ⟨r, hr, hrotated, hnow, hsession⟩
    obtain ⟨hremoves, hissue⟩ := hspares task htask
    rcases mem_issuedAfter hr with hr | ⟨userId, root, session', hissues, rfl⟩
    · have hold : r.token ∉ s.rotated := fun hin => hrotated (mem_rotatedAfter hin)
      have hthere := hlinked session ⟨r, hr, hold, lt_of_le_of_lt hclock hnow, hsession⟩
      refine (runTask_selectSession hrun hthere).mpr fun hremoved => ?_
      exact hremoves session hremoved ⟨r, hr, hold, hnow, hsession⟩
    · cases hsession
      have hthere := hissue _ hissues (Nat.pos_of_lt_add_right hnow)
      rw [selectSession_isSome] at hthere ⊢
      exact (runTask_sessions_of_issues hrun hissues) ▸ hthere

/-- So does the cleanup. -/
theorem linked_cleanupSessions (h : step cfg s (.cleanupSessions now) = some t) (hs : Inv s) :
    Linked t ↔ Spares cfg s (.cleanupSessions now) := by
  obtain ⟨hclock, rfl⟩ := step_cleanupSessions h
  constructor
  · intro hlinked r hr hrotated hnow
    obtain ⟨-, session, hsession⟩ := hs.issued_fresh r hr
    obtain ⟨x, hx, rfl⟩ :=
      selectSession_isSome.mp (hlinked session ⟨r, hr, hrotated, hnow, hsession⟩)
    obtain ⟨hx, hyoung⟩ := mem_filter.mp hx
    exact ⟨x, hx, hsession, of_decide_eq_true hyoung⟩
  · rintro hspares session ⟨r, hr, hrotated, hnow, hsession⟩
    obtain ⟨x, hx, htoken, hyoung⟩ := hspares r hr hrotated hnow
    obtain rfl := some.inj (htoken.symm.trans hsession)
    exact selectSession_isSome.mpr ⟨x, mem_filter.mpr ⟨hx, decide_eq_true hyoung⟩, rfl⟩

/-- The tokens go on living exactly when the action spares their sessions. -/
theorem lives_step {a : Action} (hs : Inv s) (hlives : Lives s) (h : step cfg s a = some t) :
    Lives t ↔ Spares cfg s a := by
  rw [lives_iff_linked (inv_step hs hlives h)]
  have hlinked := (lives_iff_linked hs).mp hlives
  cases a with
  | request task =>
    obtain ⟨-, rfl⟩ := step_request h
    exact iff_of_true hlinked trivial
  | run i now => exact linked_run hs hlinked h
  | cleanupSessions now => exact linked_cleanupSessions h hs
  | cleanupRefreshTokens now =>
    obtain ⟨hclock, rfl⟩ := step_cleanupRefreshTokens h
    refine iff_of_true ?_ trivial
    intro session hneeded
    exact hlinked session (Needed.mono (s := s) hneeded hclock)

/-! ## The result -/

/-- **Refresh tokens live as long as they promise in exactly the runs that spare their sessions.** -/
theorem lives_iff_spares (cfg : Config) (users : List User) (clock : ℕ) (as : List Action) (t : State)
    (hrun : Machine.run (step cfg) (start users clock) as = some t) :
    Machine.Always (step cfg) Lives (start users clock) as ↔
      Machine.Meets (step cfg) (Spares cfg) (start users clock) as :=
  Machine.always_iff_meets_of_inv (fun _ _ _ => inv_step) (fun _ _ _ => lives_step)
    (inv_start users clock) (fun _ h => nomatch h) hrun

/-- `DEFAULTS` -/
def defaults : Config :=
  { sessionTtl := 24 * 60 * 60 * 1000, refreshTokenTtl := 90 * 24 * 60 * 60 * 1000
    userSessionMax := 5 }

/-- A login, which makes the session 0 and the refresh token 1. -/
def login : List Action := [.request (.login "ana" "pw"), .run 0 0, .run 0 0, .run 0 0]

/-- The token is exchanged an hour later, and the cleanup runs. -/
def exchangeInTime : List Action :=
  login ++ .request (.exchange 1) :: List.replicate 6 (.run 1 3600000) ++ [.cleanupSessions 3600000]

theorem exchangeInTime_lives :
    Machine.Always (step defaults) Lives (start [⟨"ana", "pw"⟩] 0) exchangeInTime :=
  (lives_iff_spares defaults [⟨"ana", "pw"⟩] 0 exchangeInTime _ rfl).mpr (by decide)

/-- The cleanup runs a day after the login, and the token is refused 89 days early. -/
theorem token_dies_with_session :
    ¬ ∀ users clock as, Machine.Always (step defaults) Lives (start users clock) as := by
  intro h
  have hrun : Machine.run (step defaults) (start [⟨"ana", "pw"⟩] 0)
      (login ++ [.cleanupSessions 86400000]) = some _ := rfl
  have hlives := (h _ _ _).last hrun
  have haccepted := hlives ⟨1, "ana", some 0, 7776000000, false, none, 0⟩ (by decide)
    (by decide) 86400000 (by decide) (by decide)
  revert haccepted
  decide

end FestivalPlanner.Auth.RefreshLifetime
