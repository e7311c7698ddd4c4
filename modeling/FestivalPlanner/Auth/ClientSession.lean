import FestivalPlanner.Lib.InFlight
import FestivalPlanner.Lib.Machine

/-!
# The session in the auth store

The five calls of the auth store, with their requests and answers in any order, and the handler of
a 401 that another request of the api client gets.

* `Session` — the fields of the store and the bearer token in memory;
* `settle` — what a call makes of them when its answer arrives;
* `State`, `step` — the calls under way, and the account of the last login that was not ended;
* `Belongs` — all fields belong to one account, or are empty;
* `timely` — what an answer must be about;
* `belongs_settle_iff` — an answer keeps the fields together exactly when it is timely;
* `session_of_last_login` — no late answer revives a session in a run of careful steps.
-/

namespace FestivalPlanner.ClientSession

open Option InFlight

/-! ## The fields of a session -/

inductive AuthMode where
  | cookie | bearer
  deriving DecidableEq

structure User where
  id : String
  isAdmin : Option Bool
  deriving DecidableEq

/-- The fields of the auth store, and `_bearerToken`. -/
structure Session where
  user : Option User
  userToken : Option String
  isAdmin : Bool
  bearerToken : Option String
  deriving DecidableEq

namespace Session
variable (s : Session)

def setAuthToken (token : String) : Session := { s with bearerToken := some token }

def clearAuthToken : Session := { s with bearerToken := none }

/-- `if (token) setAuthToken(token)` -/
def takeToken : Option String → Session
  | some token => s.setAuthToken token
  | none => s

def setUser (user : Option User) : Session :=
  { s with user := user, isAdmin := user.any fun u => u.isAdmin.getD false }

@[simp] theorem clearAuthToken_isAdmin : s.clearAuthToken.isAdmin = s.isAdmin := rfl

@[simp] theorem takeToken_isAdmin (token : Option String) :
    (s.takeToken token).isAdmin = s.isAdmin := by
  cases token <;> rfl

end Session

/-- `roles?.includes('admin') || user.isAdmin || false` -/
def isAdminOf (user : User) (roles : Option (List String)) : Bool :=
  roles.any (·.contains "admin") || user.isAdmin.getD false

/-! ## The calls -/

inductive Call where
  | login | register | logout | refreshToken | checkSession
  deriving DecidableEq

/-- What a request of a call is answered. -/
inductive Answer where
  /-- to `login` and `register` -/
  | account (user : User) (token : Option String) (roles : Option (List String))
  /-- to `logout` -/
  | ok
  /-- to `refreshToken` -/
  | token (token : Option String)
  /-- to `checkSession` -/
  | me (user : Option User) (roles : Option (List String))
  /-- the server refuses with a status -/
  | refused (status : ℕ)
  /-- the request or its answer is lost, or cannot be read -/
  | networkFailure
  deriving DecidableEq

/-- What a call does with the session when its answer is there; `isLoading`, `error` and
`sessionChecked` are not read. -/
def settle (s : Session) : Call → Answer → Session
  | .login, .account user token roles =>
      { s.takeToken token with
        user := some { user with isAdmin := some (isAdminOf user roles) }
        userToken := token
        isAdmin := isAdminOf user roles }
  | .register, .account user token _ =>
      { s.takeToken token with user := some user, userToken := token }
  | .logout, _ => { s.clearAuthToken with user := none, userToken := none, isAdmin := false }
  | .refreshToken, .token (some token) => { s.setAuthToken token with userToken := some token }
  | .refreshToken, .refused _ | .refreshToken, .networkFailure =>
      { s.clearAuthToken with user := none, userToken := none }
  | .checkSession, .me (some user) roles =>
      { s with
        user := some { user with isAdmin := some (isAdminOf user roles) }
        isAdmin := isAdminOf user roles }
  | .checkSession, .me none _ | .checkSession, .refused _ =>
      { s.clearAuthToken with user := none, userToken := none, isAdmin := false }
  | _, _ => s

/-! ## Runs -/

/-- Where a call is. -/
inductive Stage where
  /-- its request is not built yet -/
  | called
  /-- its request is on its way, with a token and in the given period between logins and logouts -/
  | sent (carried : Option String) (period : ℕ)
  /-- it has failed, and the handler of the 401 goes on -/
  | thrown
  deriving DecidableEq

structure Job where
  call : Call
  /-- it is made by `_onUnauthorized` -/
  handler : Bool
  stage : Stage
  deriving DecidableEq

/-- An account, as the server described it last. -/
structure Account where
  id : String
  isAdmin : Bool
  deriving DecidableEq

structure State where
  session : Session
  /-- `_refreshPromise` is there -/
  refreshing : Bool
  jobs : List Job
  /-- the account of the last login or registration that succeeded, unless a logout or the end of
  its session followed -/
  signedIn : Option Account
  /-- how many logins, registrations and logouts there were -/
  period : ℕ

inductive Action where
  | call (call : Call)
  /-- another request is answered 401 -/
  | unauthorized
  /-- the request of a call is built; a browser has the given cookie -/
  | send (i : ℕ) (cookie : Option String)
  | reply (i : ℕ) (answer : Answer)
  /-- the handler of the 401 goes on after the failure of its refresh -/
  | handle (i : ℕ)

/-- What authenticates a request. -/
def carried (mode : AuthMode) (s : Session) (cookie : Option String) : Option String :=
  match mode with
  | .bearer => s.bearerToken
  | .cookie => cookie

/-- The answers that the server can give; `account` is the account of a token.  Only a client that
has no cookies gets tokens in an answer. -/
@[grind =] def answers (account : String → String) (mode : AuthMode) (carried : Option String) :
    Call → Answer → Bool
  | .login, .account user token _ | .register, .account user token _ =>
      token.isSome == decide (mode = .bearer) && token.all (account · == user.id)
  | .refreshToken, .token token =>
      token.isSome == decide (mode = .bearer) &&
        carried.any fun c => token.all (account · == account c)
  | .checkSession, .me (some user) _ => carried.any (account · == user.id)
  | .checkSession, .me none _ => true
  | .logout, .ok => true
  | _, .refused _ | _, .networkFailure => true
  | _, _ => false

/-- The answer says that the session of the request is over. -/
def isOver : Call → Answer → Bool
  | .refreshToken, .refused status | .checkSession, .refused status => status == 401
  | .checkSession, .me none _ => true
  | _, _ => false

/-- The account of the last login that was not ended, after an answer; `fresh` is an answer to a
request that was sent since. -/
def signedInAfter (signedIn : Option Account) (fresh : Bool) (call : Call) (answer : Answer) :
    Option Account :=
  match call, answer with
  | .login, .account user _ roles => some ⟨user.id, isAdminOf user roles⟩
  | .register, .account user _ _ => some ⟨user.id, user.isAdmin.getD false⟩
  | .logout, _ => none
  | .checkSession, .me (some user) roles =>
      signedIn.map fun a => if a.id = user.id then ⟨a.id, isAdminOf user roles⟩ else a
  | _, _ => if isOver call answer && fresh then none else signedIn

/-- A login or a registration has succeeded, or a logout has ended. -/
def startsPeriod : Call → Answer → Bool
  | .login, .account .. | .register, .account .. | .logout, _ => true
  | _, _ => false

/-- The refresh fails for the handler of the 401. -/
def Job.throws (job : Job) (answer : Answer) : Bool :=
  job.handler && job.call == .refreshToken &&
    match answer with
    | .refused _ | .networkFailure => true
    | _ => false

/-- The answer to the call at a place arrives. -/
def State.deliver (s : State) (i : ℕ) (job : Job) (period : ℕ) (answer : Answer) : State where
  session := settle s.session job.call answer
  refreshing := s.refreshing && (!job.handler || job.throws answer)
  jobs :=
    if job.throws answer then s.jobs.set i { job with stage := .thrown } else s.jobs.eraseIdx i
  signedIn := signedInAfter s.signedIn (period == s.period) job.call answer
  period := if startsPeriod job.call answer then s.period + 1 else s.period

def step (account : String → String) (mode : AuthMode) (s : State) : Action → Option State
  | .call call => some { s with jobs := s.jobs ++ [⟨call, false, .called⟩] }
  | .unauthorized =>
      if s.refreshing || (mode == .bearer && s.session.userToken.isNone) then some s
      else some { s with
        refreshing := true
        jobs := s.jobs ++ [⟨.refreshToken, true, .called⟩] }
  | .send i cookie => s.jobs[i]?.bind fun job =>
      match job.stage with
      | .called =>
          let stage := .sent (carried mode s.session cookie) s.period
          some { s with jobs := s.jobs.set i { job with stage := stage } }
      | _ => none
  | .reply i answer => s.jobs[i]?.bind fun job =>
      match job.stage with
      | .sent carried period =>
          if answers account mode carried job.call answer then some (s.deliver i job period answer)
          else none
      | _ => none
  | .handle i => s.jobs[i]?.bind fun job =>
      match job.stage, mode with
      -- the mobile app logs out, the web app only drops the user
      | .thrown, .bearer => some { s with jobs := s.jobs.set i ⟨.logout, true, .called⟩ }
      | .thrown, .cookie => some { s with
          session := s.session.setUser none
          refreshing := false
          jobs := s.jobs.eraseIdx i }
      | _, _ => none

/-- Nobody is logged in. -/
def signedOut : State := ⟨⟨none, none, false, none⟩, false, [], none, 0⟩

/-! ## What should hold -/

/-- Whose the tokens are: a client with cookies has none. -/
def tokenHolder (mode : AuthMode) (a : Option Account) : Option String :=
  match mode with
  | .bearer => a.map Account.id
  | .cookie => none

/-- All fields belong to the account, or are empty when there is none. -/
structure Belongs (account : String → String) (mode : AuthMode) (a : Option Account) (s : Session) :
    Prop where
  user : s.user.map User.id = a.map Account.id
  isAdmin : s.isAdmin = a.any Account.isAdmin
  userToken : s.userToken.map account = tokenHolder mode a
  bearerToken : s.bearerToken.map account = tokenHolder mode a

/-- When nothing is in flight, the session is that of the last login that was not ended. -/
def Settled (account : String → String) (mode : AuthMode) (s : State) : Prop :=
  s.jobs = [] → Belongs account mode s.signedIn s.session

/-- An answer is about the account that is logged in; a failure is about its session, or nobody is
logged in.  A registration does not set `isAdmin`, a failed refresh does not clear it. -/
def timely (account : String → String) (signedIn : Option Account) (fresh isAdmin : Bool)
    (call : Call) (answer : Answer) : Bool :=
  match call, answer with
  | .register, .account user _ _ => isAdmin == user.isAdmin.getD false
  | .refreshToken, .token (some token) => signedIn.map Account.id == some (account token)
  | .refreshToken, .refused _ | .refreshToken, .networkFailure =>
      if isOver call answer && fresh then !isAdmin else signedIn.isNone
  | .checkSession, .me (some user) _ => signedIn.map Account.id == some user.id
  | .checkSession, .me none _ | .checkSession, .refused _ =>
      isOver call answer && fresh || signedIn.isNone
  | _, _ => true

/-- A logout is under way, or the handler of a 401 is about to call it. -/
def Job.leaves (mode : AuthMode) (job : Job) : Bool :=
  match job.stage with
  | .thrown => mode == .bearer
  | _ => job.call == .logout

/-- An answer is timely, unless a logout follows; the web app drops the user when nobody is logged
in. -/
def careful (account : String → String) (mode : AuthMode) (s : State) (a : Action) : Bool :=
  s.jobs.any (Job.leaves mode) ||
    match a with
    | .reply i answer => s.jobs[i]?.all fun job =>
        match job.stage with
        | .sent _ period =>
            mode == .bearer && job.throws answer ||
              timely account s.signedIn (period == s.period) s.session.isAdmin job.call answer
        | _ => true
    | .handle _ => mode == .bearer || s.signedIn.isNone
    | _ => true

/-! ## An answer -/

variable {token c : Option String} {user : User} {roles : Option (List String)}

section
variable {account : String → String} {mode : AuthMode} {a : Option Account} {s : Session}

/-- Only the flag is left: it belongs to nobody exactly when it is not set. -/
theorem belongs_dropped_iff {isAdmin : Bool} :
    Belongs account mode a ⟨none, none, isAdmin, none⟩ ↔ a = none ∧ isAdmin = false := by
  constructor
  · intro hb
    have ha : a = none := map_eq_none_iff.mp hb.user.symm
    subst ha
    exact ⟨rfl, hb.isAdmin⟩
  · rintro ⟨rfl, rfl⟩
    cases mode <;> exact ⟨rfl, rfl, rfl, rfl⟩

theorem isAdmin_eq_false (hb : Belongs account mode none s) : s.isAdmin = false := hb.isAdmin

/-- The token of a login, in the answer and in memory, belongs to the account. -/
theorem tokens_of_account {b : Account} (hold : s.bearerToken.map account = tokenHolder mode a)
    (hsome : token.isSome = decide (mode = .bearer)) (hall : token.all (account · == b.id) = true) :
    token.map account = tokenHolder mode (some b) ∧
      (s.takeToken token).bearerToken.map account = tokenHolder mode (some b) := by
  cases token with
  | none =>
    cases mode with
    | bearer => simp at hsome
    | cookie => exact ⟨rfl, hold⟩
  | some token =>
    cases mode with
    | cookie => simp at hsome
    | bearer =>
      have htoken : account token = b.id := by simpa using hall
      exact ⟨congrArg some htoken, congrArg some htoken⟩

theorem belongs_login (hb : Belongs account mode a s)
    (hans : answers account mode c .login (.account user token roles) = true) :
    Belongs account mode (some ⟨user.id, isAdminOf user roles⟩)
      (settle s .login (.account user token roles)) := by
  simp only [answers, Bool.and_eq_true, beq_iff_eq] at hans
  obtain ⟨htoken, hbearer⟩ :=
    tokens_of_account (b := ⟨user.id, isAdminOf user roles⟩) hb.bearerToken hans.1 hans.2
  exact ⟨rfl, rfl, htoken, hbearer⟩

theorem belongs_register_iff (hb : Belongs account mode a s)
    (hans : answers account mode c .register (.account user token roles) = true) :
    Belongs account mode (some ⟨user.id, user.isAdmin.getD false⟩)
      (settle s .register (.account user token roles)) ↔ s.isAdmin = user.isAdmin.getD false := by
  simp only [answers, Bool.and_eq_true, beq_iff_eq] at hans
  obtain ⟨htoken, hbearer⟩ :=
    tokens_of_account (b := ⟨user.id, user.isAdmin.getD false⟩) hb.bearerToken hans.1 hans.2
  constructor
  · intro hreg
    exact (s.takeToken_isAdmin token).symm.trans hreg.isAdmin
  · intro hadmin
    exact ⟨rfl, (s.takeToken_isAdmin token).trans hadmin, htoken, hbearer⟩

/-- A new token keeps the fields together exactly when it is one of the account. -/
theorem belongs_refreshed_iff {token : String} (hb : Belongs account mode a s)
    (hmode : mode = .bearer) :
    Belongs account mode a (settle s .refreshToken (.token (some token))) ↔
      a.map Account.id = some (account token) := by
  subst hmode
  constructor
  · intro hnew
    exact hnew.userToken.symm
  · intro ha
    exact ⟨hb.user, hb.isAdmin, ha.symm, ha.symm⟩

/-- What the server says of the account is taken exactly when it is the one that is logged in. -/
theorem belongs_found_iff {fresh : Bool} (hb : Belongs account mode a s) :
    Belongs account mode (signedInAfter a fresh .checkSession (.me (some user) roles))
      (settle s .checkSession (.me (some user) roles)) ↔ a.map Account.id = some user.id := by
  cases a with
  | none =>
    constructor
    · intro hnew
      exact absurd hnew.user (by simp [settle, signedInAfter])
    · intro ha
      exact absurd ha (by simp)
  | some b =>
    by_cases hid : b.id = user.id
    · have hafter : signedInAfter (some b) fresh .checkSession (.me (some user) roles) =
          some ⟨b.id, isAdminOf user roles⟩ := by
        simp [signedInAfter, hid]
      have hholder : tokenHolder mode (some ⟨b.id, isAdminOf user roles⟩) =
          tokenHolder mode (some b) := by cases mode <;> rfl
      rw [hafter]
      refine iff_of_true ⟨congrArg some hid.symm, rfl, ?_, ?_⟩ (congrArg some hid)
      · rw [hholder]
        exact hb.userToken
      · rw [hholder]
        exact hb.bearerToken
    · have hafter :
          signedInAfter (some b) fresh .checkSession (.me (some user) roles) = some b := by
        simp [signedInAfter, hid]
      rw [hafter]
      refine iff_of_false (fun hnew => hid ?_) fun ha => hid (some.inj ha)
      exact (some.inj hnew.user).symm

/-- An answer keeps the fields together exactly when it is timely. -/
theorem belongs_settle_iff {fresh : Bool} {call : Call} {answer : Answer}
    (hb : Belongs account mode a s) (hans : answers account mode c call answer = true) :
    Belongs account mode (signedInAfter a fresh call answer) (settle s call answer) ↔
      timely account a fresh s.isAdmin call answer = true := by
  have hnobody : a = none → s.isAdmin = false := fun ha => isAdmin_eq_false (ha ▸ hb)
  cases call with
  | login =>
    cases answer with
    | account user token roles => exact iff_of_true (belongs_login hb hans) rfl
    | refused status => exact iff_of_true hb rfl
    | networkFailure => exact iff_of_true hb rfl
    | ok | token | me => cases hans
  | register =>
    cases answer with
    | account user token roles => exact (belongs_register_iff hb hans).trans beq_iff_eq.symm
    | refused status => exact iff_of_true hb rfl
    | networkFailure => exact iff_of_true hb rfl
    | ok | token | me => cases hans
  | logout => exact iff_of_true (belongs_dropped_iff.mpr ⟨rfl, rfl⟩) rfl
  | refreshToken =>
    cases answer with
    | token token =>
      cases token with
      | none => exact iff_of_true hb rfl
      | some token =>
        have hmode : mode = .bearer := by
          simp only [answers, Bool.and_eq_true, beq_iff_eq, isSome_some] at hans
          exact of_decide_eq_true hans.1.symm
        exact (belongs_refreshed_iff hb hmode).trans beq_iff_eq.symm
    | refused status =>
      refine belongs_dropped_iff.trans ?_
      simp only [signedInAfter, timely]
      split
      · simp
      · rw [isNone_iff_eq_none]
        exact ⟨And.left, fun ha => ⟨ha, hnobody ha⟩⟩
    | networkFailure =>
      refine belongs_dropped_iff.trans ?_
      simp only [signedInAfter, timely, isOver, Bool.false_and, Bool.false_eq_true, if_false,
        isNone_iff_eq_none]
      exact ⟨And.left, fun ha => ⟨ha, hnobody ha⟩⟩
    | account | ok | me => cases hans
  | checkSession =>
    cases answer with
    | me user roles =>
      cases user with
      | some user => exact (belongs_found_iff hb).trans beq_iff_eq.symm
      | none =>
        refine belongs_dropped_iff.trans ?_
        cases fresh <;> simp [signedInAfter, timely, isOver]
    | refused status =>
      refine belongs_dropped_iff.trans ?_
      simp only [signedInAfter, timely, Bool.or_eq_true, isNone_iff_eq_none, and_true]
      split
      · simp [*]
      · simp [*]
    | networkFailure => exact iff_of_true hb rfl
    | account | ok | token => cases hans

end

/-! ## A run -/

section
variable {account : String → String} {mode : AuthMode} {s t : State}

/-- A logout follows, or the fields belong together. -/
def Inv (account : String → String) (mode : AuthMode) (s : State) : Prop :=
  (∃ job ∈ s.jobs, job.leaves mode = true) ∨ Belongs account mode s.signedIn s.session

theorem Inv.settled (hi : Inv account mode s) : Settled account mode s := by
  intro hjobs
  rcases hi with ⟨job, hjob, -⟩ | hb
  · rw [hjobs] at hjob
    cases hjob
  · exact hb

/-- A new call changes nothing yet. -/
theorem Inv.push (hi : Inv account mode s) (job : Job) (refreshing : Bool) :
    Inv account mode { s with refreshing := refreshing, jobs := s.jobs ++ [job] } :=
  hi.imp_left fun ⟨other, hother, hleaves⟩ =>
    ⟨other, List.mem_append_left _ hother, hleaves⟩

/-- A call that moves on and is not the logout that follows leaves that in place. -/
theorem leaves_of_proceed {i : ℕ} {job : Job} {next : Option Job} (hjob : s.jobs[i]? = some job)
    (hleaves : ∃ other ∈ s.jobs, other.leaves mode = true)
    (hnext : job.leaves mode = true → ∃ y, next = some y ∧ y.leaves mode = true) :
    ∃ other ∈ proceed s.jobs i next, other.leaves mode = true := by
  obtain ⟨other, hother, hleaving⟩ := hleaves
  rcases mem_proceed_or hjob hother next with rfl | hmem
  · obtain ⟨y, rfl, hy⟩ := hnext hleaving
    exact ⟨y, mem_proceed_self hjob y, hy⟩
  · exact ⟨other, hmem, hleaving⟩

/-- The answer to a call that is careful. -/
theorem Inv.deliver {i : ℕ} {job : Job} {period : ℕ} {answer : Answer} (hi : Inv account mode s)
    (hjob : s.jobs[i]? = some job) (hstage : job.stage = .sent c period)
    (hans : answers account mode c job.call answer = true)
    (hcareful : careful account mode s (.reply i answer) = true) :
    Inv account mode (s.deliver i job period answer) := by
  have hjobs : (s.deliver i job period answer).jobs = proceed s.jobs i
      (if job.throws answer then some { job with stage := .thrown } else none) := by
    simp only [State.deliver]
    split <;> rfl
  by_cases hlogout : job.call = .logout
  -- a logout empties the session, whatever it was
  · refine .inr ?_
    simp only [State.deliver, hlogout]
    exact belongs_dropped_iff.mpr ⟨rfl, rfl⟩
  by_cases hleaves : ∃ other ∈ s.jobs, other.leaves mode = true
  · refine .inl ?_
    rw [hjobs]
    refine leaves_of_proceed hjob hleaves fun h => absurd h ?_
    simp [Job.leaves, hstage, hlogout]
  have hb : Belongs account mode s.signedIn s.session := hi.resolve_left hleaves
  have hany : s.jobs.any (Job.leaves mode) = false := by
    simpa using hleaves
  simp only [careful, hany, hjob, all_some, hstage, Bool.false_or, Bool.or_eq_true,
    Bool.and_eq_true, beq_iff_eq] at hcareful
  rcases hcareful with ⟨rfl, hthrows⟩ | htimely
  -- the mobile app is about to log out
  · refine .inl ?_
    rw [hjobs, if_pos hthrows]
    exact ⟨_, mem_proceed_self hjob _, rfl⟩
  · exact .inr ((belongs_settle_iff hb hans).mpr htimely)

/-- The web app drops the user when nobody is logged in. -/
theorem Belongs.setUser (hb : Belongs account .cookie s.signedIn s.session)
    (hnobody : s.signedIn = none) :
    Belongs account .cookie s.signedIn (s.session.setUser none) := by
  rw [hnobody] at hb ⊢
  exact ⟨rfl, rfl, hb.userToken, hb.bearerToken⟩

theorem inv_step {a : Action} (hi : Inv account mode s) (hcareful : careful account mode s a = true)
    (hstep : step account mode s a = some t) : Inv account mode t := by
  cases a with
  | call call =>
    cases hstep
    exact hi.push _ _
  | unauthorized =>
    simp only [step] at hstep
    split at hstep
    · cases hstep
      exact hi
    · cases hstep
      exact hi.push _ _
  | send i cookie =>
    obtain ⟨job, hjob, hstep⟩ := bind_eq_some_iff.mp hstep
    cases hstage : job.stage with
    | called =>
      simp only [hstage, some.injEq] at hstep
      subst hstep
      refine hi.imp_left fun hleaves => leaves_of_proceed hjob hleaves fun h => ⟨_, rfl, ?_⟩
      simpa [Job.leaves, hstage] using h
    | sent c period => simp [hstage] at hstep
    | thrown => simp [hstage] at hstep
  | reply i answer =>
    obtain ⟨job, hjob, hstep⟩ := bind_eq_some_iff.mp hstep
    cases hstage : job.stage with
    | sent c period =>
      simp only [hstage, ite_none_right_eq_some, some.injEq] at hstep
      obtain ⟨hans, rfl⟩ := hstep
      exact hi.deliver hjob hstage hans hcareful
    | called => simp [hstage] at hstep
    | thrown => simp [hstage] at hstep
  | handle i =>
    obtain ⟨job, hjob, hstep⟩ := bind_eq_some_iff.mp hstep
    cases hstage : job.stage with
    | thrown =>
      cases mode with
      | bearer =>
        simp only [hstage, some.injEq] at hstep
        subst hstep
        exact .inl ⟨_, mem_set_self hjob _, rfl⟩
      | cookie =>
        simp only [hstage, some.injEq] at hstep
        subst hstep
        by_cases hleaves : ∃ other ∈ s.jobs, other.leaves .cookie = true
        · have hnext : job.leaves .cookie ≠ true := by simp [Job.leaves, hstage]
          have hleft : ∃ other ∈ proceed s.jobs i none, other.leaves .cookie = true :=
            leaves_of_proceed hjob hleaves fun h => absurd h hnext
          exact .inl hleft
        · have hany : s.jobs.any (Job.leaves .cookie) = false := by simpa using hleaves
          have hnobody : s.signedIn = none := by simpa [careful, hany] using hcareful
          exact .inr ((hi.resolve_left hleaves).setUser hnobody)
    | called => cases mode <;> simp [hstage] at hstep
    | sent c period => cases mode <;> simp [hstage] at hstep

/-- **No late answer revives a session** in a run of careful steps, of an app with either mode. -/
theorem session_of_last_login {as : List Action}
    (h : Machine.Meets (step account mode) (fun s a => careful account mode s a) signedOut as) :
    Machine.Always (step account mode) (Settled account mode) signedOut as := by
  refine Machine.always_of_meets (I := Inv account mode)
    (fun _ _ _ hi hcareful hstep => inv_step hi hcareful hstep) (fun _ hi => hi.settled) ?_ h
  exact .inr (belongs_dropped_iff.mpr ⟨rfl, rfl⟩)

end

/-! ## Two runs -/

/-- The account of a token of these runs. -/
def holder (token : String) : String := if token = "t2" then "bob" else "alice"

/-- Alice is an admin: she logs in on her phone. -/
def aliceLogsIn : List Action :=
  [.call .login, .send 0 none, .reply 0 (.account ⟨"alice", none⟩ (some "t1") (some ["admin"]))]

/-- A logout while the check of the session is answered late, and Bob logs in after it. -/
def bobLogsIn : List Action :=
  aliceLogsIn ++
    [.call .checkSession, .send 0 none, .reply 0 (.me (some ⟨"alice", none⟩) (some ["admin"])),
      .call .refreshToken, .send 0 none, .reply 0 (.token (some "t3")),
      .call .logout, .send 0 none, .reply 0 (.refused 500),
      .call .login, .send 0 none, .reply 0 (.account ⟨"bob", none⟩ (some "t2") (some []))]

theorem bob_settled :
    Machine.Always (step holder .bearer) (Settled holder .bearer) signedOut bobLogsIn :=
  session_of_last_login (by decide)

/-- The answer to a check of the session arrives after the logout. -/
def lateCheck : List Action :=
  aliceLogsIn ++
    [.call .checkSession, .send 0 none, .call .logout, .send 1 none, .reply 1 .ok,
      .reply 0 (.me (some ⟨"alice", none⟩) (some ["admin"]))]

theorem late_check_revives :
    ¬ ∀ (account : String → String) (mode : AuthMode) (as : List Action),
      Machine.Always (step account mode) (Settled account mode) signedOut as := by
  intro h
  have hrun : ∃ t, Machine.run (step holder .bearer) signedOut lateCheck = some t ∧
      t.jobs = [] ∧ t.signedIn = none ∧ t.session.user = some ⟨"alice", some true⟩ :=
    ⟨_, rfl, rfl, rfl, rfl⟩
  obtain ⟨t, ht, hjobs, hsigned, huser⟩ := hrun
  have hbelongs := (h holder .bearer lateCheck).last ht hjobs
  have := hbelongs.user
  rw [hsigned, huser] at this
  cases this

end FestivalPlanner.ClientSession
