import FestivalPlanner.Lib.InFlight
import FestivalPlanner.Lib.Machine

/-!
# Links that move an account to another address

`POST /account/email` (`routes/account.ts`), `resend-verification`, `verify-email` and
`reset-password` (`routes/email-auth.ts`) and `change-password` (`routes/auth.ts`), for one user and
statement by statement, over `lib/db/stores/email-tokens.ts`.

* `VerificationToken` — a row of `email_verification_tokens`, which carries its own address;
* `Task`, `runTask` — a request at its next statement;
* `step` — the machine of all requests;
* `Guarded` — what the tokens are to be like: one pending change at most when no request is in
  progress, and none that was authorised before a credential was rotated moves the address;
* `Current` — no statement relies on something that has changed since the request read it;
* `links_guarded` — in the runs that meet that condition the tokens are like that.

The user is read through a cache, which is taken to hold what is stored.  A reset is modelled from
where its own token has been accepted, and any request may be cut off by not being run again.
Addresses are not empty, as the schemas require.
-/

namespace FestivalPlanner.Auth.EmailLinks

open List Option InFlight

/-! ## Tables -/

/-- An address as it is stored. -/
structure Address where
  text : String
  nonempty : text ≠ ""
  deriving DecidableEq

/-- How `LOWER` and `toLowerCase` fold an address. -/
structure Env where
  lower : Address → Address

/-- A row of `email_verification_tokens` of the user. -/
structure VerificationToken where
  token : ℕ
  email : Address
  expiresAt : ℕ
  /-- `used_at` is set -/
  used : Bool
  /-- how many credentials had been rotated when its request was authorised; no statement reads
  it -/
  authorised : ℕ
  deriving DecidableEq

/-- The user and the tokens.  No statement reads the last two: how many times the password or the
address has been rotated, and the last rotation that is completed. -/
structure Db where
  email : Option Address
  emailVerified : Bool
  password : String
  tokens : List VerificationToken
  nextToken : ℕ
  rotations : ℕ
  completed : ℕ
  deriving DecidableEq

/-- `EMAIL_VERIFY_TOKEN_TTL_HOURS`, in the unit of the clock. -/
structure Config where
  verifyTokenTtl : ℕ

variable (env : Env) (cfg : Config) (now : ℕ)

/-- `LOWER(email) IS DISTINCT FROM LOWER($2)` -/
def differs (email : Address) (other : Option Address) : Bool :=
  decide (some (env.lower email) ≠ other.map env.lower)

/-- The token can still be consumed. -/
@[grind =] def VerificationToken.live (r : VerificationToken) : Bool := !r.used && decide (now < r.expiresAt)

/-- The token would move the account to another address. -/
@[grind =] def VerificationToken.pending (current : Option Address) (r : VerificationToken) : Bool :=
  r.live now && differs env r.email current

namespace Db

variable (db : Db)

/-- `SUPERSEDE_PENDING_CHANGES` -/
def supersede (keepEmail : Option Address) : Db :=
  { db with tokens := db.tokens.map (fun r =>
      if !r.used && differs env r.email keepEmail then { r with used := true } else r) }

/-- `createVerificationToken` -/
def createVerificationToken (email : Address) (authorised : ℕ) : Db :=
  { db with
    tokens := db.tokens ++ [{
      token := db.nextToken, email := email, expiresAt := now + cfg.verifyTokenTtl, used := false
      authorised := authorised }]
    nextToken := db.nextToken + 1 }

/-- `replaceVerificationToken`, whose transaction locks the row of the user. -/
def replaceVerificationToken (email : Address) (keepEmail : Option Address) (authorised : ℕ) : Db :=
  (db.supersede env keepEmail).createVerificationToken cfg now email authorised

/-- `invalidateVerificationTokens` -/
def invalidateVerificationTokens : Db :=
  { db with tokens := db.tokens.map (fun r => { r with used := true }) }

/-- The token that `consumeVerificationToken` finds. -/
def liveToken (token : ℕ) : Option VerificationToken :=
  db.tokens.find? (fun r => r.token = token ∧ r.live now)

/-- `consumeVerificationToken` -/
def consumeVerificationToken (token : ℕ) : Db :=
  { db with tokens := db.tokens.map (fun r =>
      if r.token = token ∧ r.live now then { r with used := true } else r) }

/-- `updateUserEmail` -/
def updateUserEmail (email : Address) : Db := { db with email := some email, emailVerified := true }

/-- A rotation has taken effect, -/
def rotate : Db := { db with rotations := db.rotations + 1 }

/-- and is completed. -/
def complete (rotation : ℕ) : Db := { db with completed := max db.completed rotation }

end Db

/-- `identityMoved`: an address on file is replaced by another one. -/
def identityMoved (email : Address) (onFile : Option Address) : Bool :=
  onFile.isSome && differs env email onFile

/-! ## Requests -/

/-- A request at its next statement, with what it has read. -/
inductive Task where
  /-- `POST /account/email`: the user is read and the password verified -/
  | emailRead (email : Address) (password : String)
  /-- `checkEmailExists` -/
  | emailCheck (email : Address) (keepEmail : Option Address) (authorised : ℕ)
  | emailReplace (email : Address) (keepEmail : Option Address) (authorised : ℕ)
  /-- `POST /resend-verification`: the user is read -/
  | resendRead
  | resendInvalidate (email : Address) (authorised : ℕ)
  | resendCreate (email : Address) (authorised : ℕ)
  /-- `GET /verify-email`: the token is consumed -/
  | verify (token : ℕ)
  /-- the address on file is read -/
  | verifyRead (email : Address) (authorised since : ℕ)
  | verifyUpdate (email : Address) (authorised since : ℕ) (onFile : Option Address)
  /-- the identity has moved: the other links are invalidated -/
  | verifyInvalidate (rotation : ℕ)
  /-- `POST /reset-password` with a token that is accepted: the user is read -/
  | resetRead (newPassword : String)
  /-- `POST /change-password`: the user is read and the password verified -/
  | changeRead (currentPassword newPassword : String)
  /-- the password of either is updated -/
  | rotateUpdate (newPassword : String) (keepEmail : Option Address)
  /-- `invalidatePendingEmailChanges` -/
  | rotateInvalidate (keepEmail : Option Address) (rotation : ℕ)
  | succeeded
  | failed
  deriving DecidableEq

/-- A request that has just arrived. -/
def Task.isRequest : Task → Bool
  | .emailRead _ _ | .resendRead | .verify _ | .resetRead _ | .changeRead _ _ => true
  | _ => false

/-- The request has ended. -/
def Task.ended : Task → Bool
  | .succeeded | .failed => true
  | _ => false

/-- A rotation has taken effect, and its invalidation is still to come. -/
def Task.rotating : Task → Bool
  | .verifyInvalidate _ | .rotateInvalidate _ _ => true
  | _ => false

/-- The next statement of a request; `taken` says whether another account has the address. -/
def runTask (taken : Bool) (db : Db) : Task → Option (Db × Task)
  | .emailRead email password =>
      if db.password = password then some (db, .emailCheck email db.email db.rotations)
      else some (db, .failed)
  | .emailCheck email keepEmail authorised =>
      if taken then some (db, .failed) else some (db, .emailReplace email keepEmail authorised)
  | .emailReplace email keepEmail authorised =>
      some (db.replaceVerificationToken env cfg now email keepEmail authorised, .succeeded)
  | .resendRead =>
      match db.email with
      | none => some (db, .failed)
      | some email =>
          if db.emailVerified then some (db, .failed)
          else some (db, .resendInvalidate email db.rotations)
  | .resendInvalidate email authorised =>
      some (db.invalidateVerificationTokens, .resendCreate email authorised)
  | .resendCreate email authorised =>
      some (db.createVerificationToken cfg now email authorised, .succeeded)
  | .verify token =>
      match db.liveToken now token with
      | none => some (db, .failed)
      | some r =>
          some (db.consumeVerificationToken now token,
            .verifyRead r.email r.authorised db.rotations)
  | .verifyRead email authorised since => some (db, .verifyUpdate email authorised since db.email)
  | .verifyUpdate email _ _ onFile =>
      if taken then some (db, .failed)
      else if identityMoved env email onFile then
        some ((db.updateUserEmail email).rotate, .verifyInvalidate (db.rotations + 1))
      else some (db.updateUserEmail email, .succeeded)
  | .verifyInvalidate rotation =>
      some (db.invalidateVerificationTokens.complete rotation, .succeeded)
  | .resetRead newPassword => some (db, .rotateUpdate newPassword db.email)
  | .changeRead currentPassword newPassword =>
      if db.password = currentPassword then some (db, .rotateUpdate newPassword db.email)
      else some (db, .failed)
  | .rotateUpdate newPassword keepEmail =>
      some (({ db with password := newPassword } : Db).rotate,
        .rotateInvalidate keepEmail (db.rotations + 1))
  | .rotateInvalidate keepEmail rotation =>
      some ((db.supersede env keepEmail).complete rotation, .succeeded)
  | .succeeded => none
  | .failed => none

/-! ## The machine -/

structure State where
  db : Db
  tasks : List Task
  clock : ℕ
  deriving DecidableEq

/-- A request arrives, or executes its next statement. -/
inductive Action where
  | request (task : Task)
  | run (i now : ℕ) (taken : Bool)
  deriving DecidableEq

/-- One action. -/
def step (s : State) : Action → Option State
  | .request task => if task.isRequest then some { s with tasks := s.tasks ++ [task] } else none
  | .run i now taken =>
      if s.clock ≤ now then do
        let task ← s.tasks[i]?
        let (db, next) ← runTask env cfg now taken s.db task
        return { db := db, tasks := s.tasks.set i next, clock := now }
      else none

/-! ## The property and the condition -/

/-- When no request is in progress, one live token at most is for another address than the current
one; and a token moves the address only if every rotation that is completed was before it was
authorised. -/
structure Guarded (s : State) (a : Action) (t : State) : Prop where
  single : (∀ x ∈ t.tasks, x.ended = true) →
    t.db.tokens.countP (VerificationToken.pending env t.clock t.db.email) ≤ 1
  stale : ∀ i now, a = .run i now false → ∀ email authorised since onFile,
    s.tasks[i]? = some (.verifyUpdate email authorised since onFile) →
      differs env email s.db.email = true → s.db.completed ≤ authorised

/-- The condition on one statement: what the request has read of the address and of the rotations
is still so, and no token for another address is consumed while a rotation is to invalidate the
links. -/
def CurrentAt (s : State) : Task → Prop
  | .emailReplace email keepEmail authorised =>
      keepEmail = s.db.email ∧ (differs env email s.db.email = true → authorised = s.db.rotations)
  | .resendCreate email _ => differs env email s.db.email = false
  | .verify token => ∀ r ∈ s.db.liveToken now token, differs env r.email s.db.email = true →
      ∀ x ∈ s.tasks, x.rotating = false
  | .verifyUpdate email _ since onFile =>
      onFile = s.db.email ∧ (differs env email s.db.email = true → since = s.db.rotations)
  | .rotateInvalidate keepEmail _ => keepEmail = s.db.email
  | _ => True

def Current (s : State) : Action → Prop
  | .run i now _ => ∀ x ∈ s.tasks[i]?, CurrentAt env now s x
  | .request _ => True

instance (s : State) (x : Task) : Decidable (CurrentAt env now s x) := by
  cases x <;> unfold CurrentAt <;> infer_instance

instance (s : State) : ∀ a, Decidable (Current env s a)
  | .run i now _ => inferInstanceAs (Decidable (∀ x ∈ s.tasks[i]?, CurrentAt env now s x))
  | .request _ => .isTrue trivial

/-! ## Tokens that are pending -/

variable {env cfg now} {s t : State} {i : ℕ} {task next : Task} {db db' : Db}

variable {r : VerificationToken} {email : Address} {x : Task}

variable {now' authorised token : ℕ} {current : Option Address} {taken : Bool} {a : Action}

theorem live_of_le (hle : now ≤ now') (h : r.live now' = true) : r.live now = true := by
  simp only [VerificationToken.live, Bool.and_eq_true, decide_eq_true_eq] at h ⊢
  exact ⟨h.1, by omega⟩

theorem pending_iff :
    r.pending env now current = true ↔ r.live now = true ∧ differs env r.email current = true := by
  simp [VerificationToken.pending]

/-- What is superseded is not pending. -/
theorem not_pending_supersede {keepEmail : Option Address}
    (hr : r ∈ (db.supersede env keepEmail).tokens) : r.pending env now keepEmail = false := by
  obtain ⟨q, -, rfl⟩ := List.mem_map.mp hr
  split
  · simp [VerificationToken.pending, VerificationToken.live]
  · rename_i hspared
    simp only [VerificationToken.pending, VerificationToken.live]
    simp only [Bool.and_eq_true, not_and, Bool.not_eq_true] at hspared
    cases hused : q.used
    · simp [hspared (by simp [hused])]
    · simp

theorem not_pending_invalidate (hr : r ∈ db.invalidateVerificationTokens.tokens) :
    r.pending env now current = false := by
  obtain ⟨q, -, rfl⟩ := List.mem_map.mp hr
  simp [VerificationToken.pending, VerificationToken.live]

/-- At most one token is pending, and it was authorised after the last rotation. -/
structure Settled (env : Env) (now : ℕ) (db : Db) : Prop where
  authorised : ∀ r ∈ db.tokens, r.pending env now db.email = true → r.authorised = db.rotations
  single : db.tokens.countP (VerificationToken.pending env now db.email) ≤ 1

theorem settled_of_none (h : ∀ r ∈ db.tokens, r.pending env now db.email = false) :
    Settled env now db where
  authorised := by
    intro r hr hpending
    rw [h r hr] at hpending
    cases hpending
  single := by
    rw [countP_eq_zero.mpr fun r hr => by simp [h r hr]]
    exact Nat.zero_le 1

/-- What is pending later, or for an address that differs from fewer, was pending before. -/
theorem Settled.mono (h : Settled env now db) (hle : now ≤ now')
    (htokens : db'.tokens = db.tokens) (hrotations : db'.rotations = db.rotations)
    (hemail : ∀ e, differs env e db'.email = true → differs env e db.email = true) :
    Settled env now' db' := by
  have hpending : ∀ r : VerificationToken, r.pending env now' db'.email = true →
      r.pending env now db.email = true := by
    intro r hr
    obtain ⟨hlive, hdiffers⟩ := pending_iff.mp hr
    exact pending_iff.mpr ⟨live_of_le hle hlive, hemail _ hdiffers⟩
  refine ⟨?_, ?_⟩
  · rw [htokens, hrotations]
    exact fun r hr hp => h.authorised r hr (hpending r hp)
  · rw [htokens]
    exact (countP_mono_left fun r _ hp => hpending r hp).trans h.single

/-- A token that is added when none is pending. -/
theorem Settled.create (hnone : ∀ r ∈ db.tokens, r.pending env now db.email = false)
    (hauthorised : differs env email db.email = true → authorised = db.rotations) :
    Settled env now (db.createVerificationToken cfg now email authorised) where
  authorised := by
    intro r hr hpending
    rcases mem_append.mp hr with hr | hr
    · rw [show (db.createVerificationToken cfg now email authorised).email = db.email from rfl,
        hnone r hr] at hpending
      cases hpending
    · rw [mem_singleton.mp hr] at hpending ⊢
      exact hauthorised (pending_iff.mp hpending).2
  single := by
    have hold : db.tokens.countP (VerificationToken.pending env now db.email) = 0 :=
      countP_eq_zero.mpr fun r hr => by simp [hnone r hr]
    show (db.tokens ++ [_]).countP (VerificationToken.pending env now db.email) ≤ 1
    rw [countP_append, hold, Nat.zero_add]
    exact countP_le_length

/-- A token for the current address is not pending. -/
theorem Settled.create_current (h : Settled env now db)
    (hemail : differs env email db.email = false) :
    Settled env now (db.createVerificationToken cfg now email authorised) := by
  have hnew : ∀ r : VerificationToken, r.email = email →
      r.pending env now db.email = false := by
    rintro r rfl
    simp [VerificationToken.pending, hemail]
  refine ⟨?_, ?_⟩
  · intro r hr hpending
    rcases mem_append.mp hr with hr | hr
    · exact h.authorised r hr hpending
    · have hnone := hnew r (by rw [mem_singleton.mp hr])
      exact absurd hpending (by rw [Bool.not_eq_true]; exact hnone)
  · show (db.tokens ++ [_]).countP (VerificationToken.pending env now db.email) ≤ 1
    rw [countP_append, countP_singleton,
      if_neg (by rw [Bool.not_eq_true]; exact hnew _ rfl)]
    exact h.single

/-- A token that is consumed is not pending any more. -/
theorem Settled.consume (h : Settled env now db) :
    Settled env now (db.consumeVerificationToken now token) := by
  have hpending : ∀ r : VerificationToken, (if r.token = token ∧ r.live now then
      { r with used := true } else r).pending env now db.email = true →
        r.pending env now db.email = true := by
    intro r hr
    split at hr
    · simp [VerificationToken.pending, VerificationToken.live] at hr
    · exact hr
  refine ⟨?_, ?_⟩
  · intro r hr hlive
    obtain ⟨q, hq, rfl⟩ := List.mem_map.mp hr
    have hold := h.authorised q hq (hpending q hlive)
    split <;> exact hold
  · show (db.tokens.map _).countP (VerificationToken.pending env now db.email) ≤ 1
    rw [countP_map]
    exact (countP_mono_left fun r _ hr => hpending r hr).trans h.single

/-! ## The invariant -/

/-- The token that a request has consumed: its address, when it was authorised, and how many
rotations there had been when it was consumed. -/
def Task.link? : Task → Option (Address × ℕ × ℕ)
  | .verifyRead email authorised since => some (email, authorised, since)
  | .verifyUpdate email authorised since _ => some (email, authorised, since)
  | _ => none

/-- The rotation that a request is to complete. -/
def Task.rotation? : Task → Option ℕ
  | .verifyInvalidate rotation => some rotation
  | .rotateInvalidate _ rotation => some rotation
  | _ => none

/-- A consumed token that would still move the address was authorised after the last rotation,
unless there has been one since. -/
def Fresh (env : Env) (db : Db) (x : Task) : Prop :=
  ∀ email authorised since, x.link? = some (email, authorised, since) →
    since ≤ db.rotations ∧
      (since = db.rotations → differs env email db.email = true → authorised = db.rotations)

structure Inv (env : Env) (s : State) : Prop where
  completed : s.db.completed ≤ s.db.rotations
  rotations : ∀ x ∈ s.tasks, ∀ n, x.rotation? = some n → n ≤ s.db.rotations
  settled : (∀ x ∈ s.tasks, x.rotating = false) → Settled env s.clock s.db
  links : ∀ x ∈ s.tasks, Fresh env s.db x

theorem Fresh.of_none (h : x.link? = none) : Fresh env db x := by
  intro email authorised since hlink
  rw [h] at hlink
  cases hlink

theorem Fresh.mono (h : Fresh env db x) (hrotations : db'.rotations = db.rotations)
    (hemail : ∀ e, differs env e db'.email = true → differs env e db.email = true) :
    Fresh env db' x := by
  intro email authorised since hlink
  rw [hrotations]
  exact ⟨(h email authorised since hlink).1,
    fun hsince hdiffers => (h email authorised since hlink).2 hsince (hemail email hdiffers)⟩

/-- Once there has been another rotation, nothing is asked of a token that was consumed before. -/
theorem Fresh.rotate (h : Fresh env db x) (hrotations : db'.rotations = db.rotations + 1) :
    Fresh env db' x := by
  intro email authorised since hlink
  have hsince := (h email authorised since hlink).1
  exact ⟨by omega, fun heq => by omega⟩

/-- A statement that begins no rotation keeps the invariant when it leaves the tokens settled. -/
theorem Inv.move (hs : Inv env s) (htask : s.tasks[i]? = some task)
    (hcompleted : db'.completed ≤ db'.rotations) (hrotations : db'.rotations = s.db.rotations)
    (hemail : ∀ e, differs env e db'.email = true → differs env e s.db.email = true)
    (hnext : next.rotation? = none)
    (hsettled : (task.rotating = false → Settled env s.clock s.db) → Settled env now db')
    (hlink : Fresh env db' next) :
    Inv env { s with db := db', tasks := s.tasks.set i next, clock := now } where
  completed := hcompleted
  rotations := by
    refine forall_mem_set (fun x hx n hn => ?_) (fun n hn => ?_)
    · rw [hrotations]
      exact hs.rotations x hx n hn
    · rw [hnext] at hn
      cases hn
  settled := by
    intro hidle
    refine hsettled fun htaskIdle => hs.settled fun x hx => ?_
    rcases mem_set_or htask hx next with rfl | hmem
    · exact htaskIdle
    · exact hidle x hmem
  links := forall_mem_set (fun x hx => (hs.links x hx).mono hrotations hemail) hlink

/-- A statement that changes neither the user nor the tokens. -/
theorem Inv.still (hs : Inv env s) (htask : s.tasks[i]? = some task) (hle : s.clock ≤ now)
    (hidle : task.rotating = false) (hnext : next.rotation? = none)
    (hlink : Fresh env s.db next) :
    Inv env { s with tasks := s.tasks.set i next, clock := now } :=
  hs.move htask hs.completed rfl (fun _ h => h) hnext
    (fun hsettled => (hsettled hidle).mono hle rfl rfl fun _ h => h) hlink

/-- A rotation takes effect, and is to be completed. -/
theorem Inv.rotate (hs : Inv env s) (htask : s.tasks[i]? = some task)
    (hcompleted : db'.completed = s.db.completed) (hrotations : db'.rotations = s.db.rotations + 1)
    (hnext : next.rotation? = some (s.db.rotations + 1)) (hrotating : next.rotating = true)
    (hlink : next.link? = none) :
    Inv env { s with db := db', tasks := s.tasks.set i next, clock := now } where
  completed := by
    have hold := hs.completed
    simp only [hcompleted, hrotations]
    omega
  rotations := by
    refine forall_mem_set (fun x hx n hn => ?_) (fun n hn => ?_)
    · have hold := hs.rotations x hx n hn
      simp only [hrotations]
      omega
    · obtain rfl := some.inj (hnext.symm.trans hn)
      exact hrotations.ge
  settled := by
    intro hidle
    have hcontra := hidle next (mem_set_self htask next)
    rw [hrotating] at hcontra
    cases hcontra
  links := forall_mem_set (fun x hx => (hs.links x hx).rotate hrotations)
    (Fresh.of_none hlink)

/-- A rotation is completed by a statement that leaves no token pending. -/
theorem Inv.complete {n : ℕ} (hs : Inv env s) (htask : s.tasks[i]? = some task)
    (hrotation : task.rotation? = some n) (hcompleted : db'.completed = max s.db.completed n)
    (hrotations : db'.rotations = s.db.rotations) (hemail : db'.email = s.db.email)
    (hnone : ∀ r ∈ db'.tokens, r.pending env now db'.email = false) :
    Inv env { s with db := db', tasks := s.tasks.set i .succeeded, clock := now } := by
  have hn := hs.rotations task (mem_of_getElem? htask) n hrotation
  refine hs.move htask ?_ hrotations (fun e h => by rwa [hemail] at h) rfl
    (fun _ => settled_of_none hnone) (Fresh.of_none rfl)
  rw [hcompleted, hrotations]
  exact max_le hs.completed hn

/-! ## The steps -/

/-- A live token that is found while no rotation is in progress. -/
theorem Settled.fresh (h : Settled env now db) (hr : db.liveToken now token = some r)
    (hdiffers : differs env r.email db.email = true) : r.authorised = db.rotations := by
  have hlive := find?_some hr
  simp only [decide_eq_true_eq] at hlive
  exact h.authorised r (mem_of_find?_eq_some hr) (pending_iff.mpr ⟨hlive.2, hdiffers⟩)

/-- An address that does not move the identity differs from no other ones than the old. -/
theorem differs_of_not_moved (h : identityMoved env email db.email = false) (e : Address)
    (hdiffers : differs env e (some email) = true) : differs env e db.email = true := by
  cases hcurrent : db.email with
  | none => simp [differs]
  | some current =>
    simp only [identityMoved, hcurrent, isSome_some, Bool.true_and, differs, map_some,
      decide_eq_false_iff_not, ne_eq, not_not] at h
    simpa only [differs, map_some, h] using hdiffers

/-- **Every statement that meets the condition keeps the invariant.** -/
theorem Inv.run (hs : Inv env s) (hcurrent : CurrentAt env now s task)
    (htask : s.tasks[i]? = some task) (hle : s.clock ≤ now)
    (hrun : runTask env cfg now taken s.db task = some (db', next)) :
    Inv env { s with db := db', tasks := s.tasks.set i next, clock := now } := by
  have hfresh : Fresh env s.db task := hs.links task (mem_of_getElem? htask)
  cases task with
  | emailRead email password =>
    simp only [runTask] at hrun
    split at hrun
    all_goals
      cases hrun
      exact hs.still htask hle rfl rfl (Fresh.of_none rfl)
  | emailCheck email keepEmail authorised =>
    simp only [runTask] at hrun
    split at hrun
    all_goals
      cases hrun
      exact hs.still htask hle rfl rfl (Fresh.of_none rfl)
  | emailReplace email keepEmail authorised =>
    cases hrun
    obtain ⟨rfl, hauthorised⟩ := hcurrent
    exact hs.move htask hs.completed rfl (fun _ h => h) rfl
      (fun _ => Settled.create (fun r hr => not_pending_supersede hr) hauthorised)
      (Fresh.of_none rfl)
  | resendRead =>
    simp only [runTask] at hrun
    split at hrun
    · cases hrun
      exact hs.still htask hle rfl rfl (Fresh.of_none rfl)
    · split at hrun
      all_goals
        cases hrun
        exact hs.still htask hle rfl rfl (Fresh.of_none rfl)
  | resendInvalidate email authorised =>
    cases hrun
    exact hs.move htask hs.completed rfl (fun _ h => h) rfl
      (fun _ => settled_of_none fun r hr => not_pending_invalidate hr) (Fresh.of_none rfl)
  | resendCreate email authorised =>
    cases hrun
    refine hs.move htask hs.completed rfl (fun _ h => h) rfl (fun hsettled => ?_)
      (Fresh.of_none rfl)
    have hnow : Settled env now s.db := (hsettled rfl).mono hle rfl rfl fun _ h => h
    exact hnow.create_current hcurrent
  | verify token =>
    simp only [runTask] at hrun
    split at hrun
    · cases hrun
      exact hs.still htask hle rfl rfl (Fresh.of_none rfl)
    · rename_i r hr
      cases hrun
      refine hs.move htask hs.completed rfl (fun _ h => h) rfl
        (fun hsettled => ((hsettled rfl).mono hle rfl rfl fun _ h => h).consume) ?_
      rintro email authorised since ⟨⟩
      refine ⟨le_refl _, fun _ hdiffers => ?_⟩
      have hsettled : Settled env s.clock s.db := hs.settled (hcurrent r hr hdiffers)
      exact (hsettled.mono hle rfl rfl fun _ h => h).fresh hr hdiffers
  | verifyRead email authorised since =>
    cases hrun
    exact hs.still htask hle rfl rfl hfresh
  | verifyUpdate email authorised since onFile =>
    obtain ⟨rfl, -⟩ := hcurrent
    simp only [runTask] at hrun
    split at hrun
    · cases hrun
      exact hs.still htask hle rfl rfl (Fresh.of_none rfl)
    · split at hrun
      · cases hrun
        exact hs.rotate htask rfl rfl rfl rfl rfl
      · rename_i hmoved
        cases hrun
        have hemail := differs_of_not_moved (Bool.eq_false_iff.mpr hmoved)
        exact hs.move htask hs.completed rfl hemail rfl
          (fun hsettled => (hsettled rfl).mono hle rfl rfl hemail) (Fresh.of_none rfl)
  | verifyInvalidate rotation =>
    cases hrun
    exact hs.complete htask rfl rfl rfl rfl fun r hr => not_pending_invalidate hr
  | resetRead newPassword =>
    cases hrun
    exact hs.still htask hle rfl rfl (Fresh.of_none rfl)
  | changeRead currentPassword newPassword =>
    simp only [runTask] at hrun
    split at hrun
    all_goals
      cases hrun
      exact hs.still htask hle rfl rfl (Fresh.of_none rfl)
  | rotateUpdate newPassword keepEmail =>
    cases hrun
    exact hs.rotate htask rfl rfl rfl rfl rfl
  | rotateInvalidate keepEmail rotation =>
    cases hrun
    cases hcurrent
    exact hs.complete htask rfl rfl rfl rfl fun r hr => not_pending_supersede hr
  | succeeded => cases hrun
  | failed => cases hrun

/-- A new request has consumed no token and begun no rotation. -/
theorem Inv.request (hs : Inv env s) (hrequest : task.isRequest = true) :
    Inv env { s with tasks := s.tasks ++ [task] } where
  completed := hs.completed
  rotations := by
    refine forall_mem_append_singleton hs.rotations (fun n hn => ?_)
    cases task <;> cases hrequest <;> cases hn
  settled := by
    intro hidle
    exact hs.settled fun x hx => hidle x (mem_append_left _ hx)
  links := by
    refine forall_mem_append_singleton hs.links (Fresh.of_none ?_)
    cases task <;> first | rfl | cases hrequest

/-- What a request does at its next statement. -/
theorem step_run (h : step env cfg s (.run i now taken) = some t) :
    s.clock ≤ now ∧ ∃ task db' next, s.tasks[i]? = some task ∧
      runTask env cfg now taken s.db task = some (db', next) ∧
        t = { s with db := db', tasks := s.tasks.set i next, clock := now } := by
  simp only [step, ite_none_right_eq_some, bind_eq_bind,
    bind_eq_some_iff, Prod.exists, Option.pure_def, some.injEq] at h
  obtain ⟨hle, task, htask, db', next, hrun, rfl⟩ := h
  exact ⟨hle, task, db', next, htask, hrun, rfl⟩

/-- **Every action that meets the condition keeps the invariant.** -/
theorem inv_step (hs : Inv env s) (ha : Current env s a) (h : step env cfg s a = some t) :
    Inv env t := by
  cases a with
  | request task =>
    simp only [step, ite_none_right_eq_some] at h
    obtain ⟨hrequest, h⟩ := h
    obtain rfl := some.inj h
    exact hs.request hrequest
  | run i now taken =>
    obtain ⟨hle, task, db', next, htask, hrun, rfl⟩ := step_run h
    exact hs.run (ha task htask) htask hle hrun

/-- The invariant says that the step leaves one token pending at most; the token that moves the
address in it is one that has been consumed before. -/
theorem guarded_step (hs : Inv env s) (ha : Current env s a) (h : step env cfg s a = some t) :
    Guarded env s a t where
  single := by
    intro hended
    have ht := inv_step hs ha h
    refine (ht.settled fun x hx => ?_).single
    have hx' := hended x hx
    cases x <;> first | rfl | cases hx'
  stale := by
    rintro i now rfl email authorised since onFile htask hdiffers
    obtain ⟨-, hsince⟩ := ha _ htask
    have hlink := hs.links _ (mem_of_getElem? htask) email authorised since rfl
    exact hs.completed.trans (hlink.2 (hsince hdiffers) hdiffers).ge

/-! ## The result -/

/-- A user who has just registered, which creates no token. -/
def start (email : Option Address) (emailVerified : Bool) (password : String) (clock : ℕ) :
    State where
  db := {
    email := email, emailVerified := emailVerified, password := password, tokens := []
    nextToken := 0, rotations := 0, completed := 0 }
  tasks := []
  clock := clock

theorem inv_start (email : Option Address) (emailVerified : Bool) (password : String) (clock : ℕ) :
    Inv env (start email emailVerified password clock) where
  completed := le_refl 0
  rotations := fun _ hx => nomatch hx
  settled := fun _ => settled_of_none fun _ hr => nomatch hr
  links := fun _ hx => nomatch hx

/-- **One change is pending at most, and no link from before a rotation moves the address, in every
run whose statements rely on nothing that has changed.** -/
theorem links_guarded (env : Env) (cfg : Config) (email : Option Address) (emailVerified : Bool)
    (password : String) (clock : ℕ) (as : List Action)
    (h : Machine.Meets (step env cfg) (Current env) (start email emailVerified password clock) as) :
    Machine.Each (step env cfg) (Guarded env) (start email emailVerified password clock) as :=
  Machine.each_of_meets (fun _ _ _ => inv_step) (fun _ _ _ => guarded_step)
    (inv_start email emailVerified password clock) h

/-- The addresses of a run as they are written. -/
def plain : Env := { lower := id }

/-- `EMAIL_VERIFY_TOKEN_TTL_HOURS` of a day -/
def day : Config := { verifyTokenTtl := 24 }

def old : Address := ⟨"old@example.org", by simp⟩

def new : Address := ⟨"new@example.org", by simp⟩

/-- A change of the address that is asked for twice and confirmed. -/
def confirmed : List Action :=
  [.request (.emailRead new "secret"), .run 0 0 false, .run 0 0 false, .run 0 0 false,
    .request (.emailRead new "secret"), .run 1 1 false, .run 1 1 false, .run 1 1 false,
    .request (.verify 1), .run 2 2 false, .run 2 2 false, .run 2 2 false, .run 2 2 false]

theorem confirmed_guarded :
    Machine.Each (step plain day) (Guarded plain) (start (some old) true "secret" 0) confirmed :=
  links_guarded plain day (some old) true "secret" 0 confirmed (by decide)

/-! ## A link from before a change of the password -/

/-- A change of the address is authorised with the old password; the password is changed and the
pending changes are revoked; then the token is stored, and it is followed. -/
def overtaken : List Action :=
  [.request (.emailRead new "stolen"), .run 0 0 false, .run 0 0 false,
    .request (.changeRead "stolen" "fresh"), .run 1 1 false, .run 1 1 false, .run 1 1 false,
    .run 0 2 false, .request (.verify 0), .run 2 3 false, .run 2 3 false]

/-- It moves the address, although it was authorised before the change of the password, which is
complete. -/
theorem stale_link_moves_address :
    ¬ ∀ email emailVerified password clock as,
      Machine.Each (step plain day) (Guarded plain)
        (start email emailVerified password clock) as := by
  intro h
  have hrun : Machine.run (step plain day) (start (some old) true "stolen" 0) overtaken = some _ :=
    rfl
  have hguarded := (h (some old) true "stolen" 0 (overtaken ++ [.run 2 4 false])).last hrun rfl
  have hstale := hguarded.stale 2 4 rfl new 0 1 (some old) rfl (by decide)
  revert hstale
  decide

end FestivalPlanner.Auth.EmailLinks
